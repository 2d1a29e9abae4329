import Mathlib.Data.List.Sublists
import Mathlib.Data.Prod.Lex

/-!
# Aligning two sequences

An alignment pairs elements of two sequences without reordering either.  The pairs that may be made
are given, each marked as preferred or not; an alignment with most preferred pairs is found, and
among those one with most pairs.

## What is here

* `score` — the best that can be reached from two suffixes.
* `align` — what each element of the first sequence is paired with.
* `align_of_sublist` — when the first sequence keeps some elements of the second in their order,
  and each may only be paired with the element it came from, it is.
-/

namespace Alignment

variable {β μ : Type}

/-- Preferred pairs, then pairs. -/
abbrev Score := Nat ×ₗ Nat

def Score.withMatch (s : Score) (preferred : Bool) : Score :=
  toLex ((ofLex s).1 + preferred.toNat, (ofLex s).2 + 1)

/-- The scores of an element and what follows it, from those of what follows it. -/
def scoreRow (candidate : μ → Option Bool) (next : List μ → Score) : List μ → Score
  | [] => toLex (0, 0)
  | m :: ms =>
    let best := max (next (m :: ms)) (scoreRow candidate next ms)
    match candidate m with
    | some preferred => max best ((next ms).withMatch preferred)
    | none => best

def score (candidate : β → μ → Option Bool) : List β → List μ → Score
  | [], _ => toLex (0, 0)
  | b :: bs, ms => scoreRow (candidate b) (score candidate bs) ms

/-- Finds the partner of an element; what follows it is aligned by `next`. -/
def alignRow (candidate : β → μ → Option Bool) (b : β) (bs : List β)
    (next : List μ → List (Option μ)) : List μ → List (Option μ)
  | [] => none :: next []
  | m :: ms =>
    let matched := (candidate b m).any fun preferred =>
      decide ((score candidate bs ms).withMatch preferred = score candidate (b :: bs) (m :: ms))
    if matched then some m :: next ms
    else if score candidate (b :: bs) ms ≤ score candidate bs (m :: ms) then none :: next (m :: ms)
    else alignRow candidate b bs next ms

def align (candidate : β → μ → Option Bool) : List β → List μ → List (Option μ)
  | [], _ => []
  | b :: bs, ms => alignRow candidate b bs (align candidate bs) ms

/-- Only the pairs that may be made matter. -/
theorem score_congr {candidate candidate' : β → μ → Option Bool} {bs : List β} {ms : List μ}
    (h : ∀ b ∈ bs, ∀ m ∈ ms, candidate b m = candidate' b m) :
    score candidate bs ms = score candidate' bs ms := by
  induction bs generalizing ms with
  | nil => rfl
  | cons b bs ih =>
    rw [score, score]
    induction ms with
    | nil => rfl
    | cons m ms ihm =>
      have hrest : ∀ a ∈ bs, ∀ n ∈ m :: ms, candidate a n = candidate' a n :=
        fun a ha => h a (List.mem_cons_of_mem b ha)
      rw [scoreRow, scoreRow, h b (List.mem_cons_self ..) m (List.mem_cons_self ..), ih hrest,
        ih fun a ha n hn => hrest a ha n (List.mem_cons_of_mem m hn),
        ihm fun a ha n hn => h a ha n (List.mem_cons_of_mem m hn)]

theorem align_congr {candidate candidate' : β → μ → Option Bool} {bs : List β} {ms : List μ}
    (h : ∀ b ∈ bs, ∀ m ∈ ms, candidate b m = candidate' b m) :
    align candidate bs ms = align candidate' bs ms := by
  induction bs generalizing ms with
  | nil => rfl
  | cons b bs ih =>
    rw [align, align]
    induction ms with
    | nil => rw [alignRow, alignRow, ih fun _ _ _ hn => absurd hn List.not_mem_nil]
    | cons m ms ihm =>
      have hrest : ∀ a ∈ bs, ∀ n ∈ m :: ms, candidate a n = candidate' a n :=
        fun a ha => h a (List.mem_cons_of_mem b ha)
      have hlater : ∀ a ∈ bs, ∀ n ∈ ms, candidate a n = candidate' a n :=
        fun a ha n hn => hrest a ha n (List.mem_cons_of_mem m hn)
      have hsame : ∀ a ∈ b :: bs, ∀ n ∈ ms, candidate a n = candidate' a n :=
        fun a ha n hn => h a ha n (List.mem_cons_of_mem m hn)
      rw [alignRow, alignRow, h b (List.mem_cons_self ..) m (List.mem_cons_self ..),
        score_congr h, score_congr hlater, score_congr hrest, score_congr hsame, ih hrest,
        ih hlater, ihm hsame]

/-! ## Elements that know their partner -/

section

variable {κ : Type} [DecidableEq κ] (key : β → κ) (key' : μ → κ)

/-- Only elements with one key may be paired, and they are preferred. -/
def sameKey (b : β) (m : μ) : Option Bool := if key b = key' m then some true else none

/-- No alignment pairs more elements than there are. -/
theorem score_le (bs : List β) (ms : List μ) :
    score (sameKey key key') bs ms ≤ toLex (bs.length, bs.length) := by
  induction bs generalizing ms with
  | nil => exact le_refl _
  | cons b bs ih =>
    have hgrow : ∀ {s : Score}, s ≤ toLex (bs.length, bs.length) →
        s ≤ toLex ((b :: bs).length, (b :: bs).length) ∧
          s.withMatch true ≤ toLex ((b :: bs).length, (b :: bs).length) := by
      intro s hs
      obtain ⟨a, c, rfl⟩ : ∃ a c, s = toLex (a, c) := ⟨_, _, rfl⟩
      rw [Prod.Lex.toLex_le_toLex] at hs
      rw [Score.withMatch, Prod.Lex.toLex_le_toLex, Prod.Lex.toLex_le_toLex]
      simp only [List.length_cons, ofLex_toLex, Bool.toNat_true]
      omega
    rw [score]
    induction ms with
    | nil =>
      rw [scoreRow, Prod.Lex.toLex_le_toLex]
      exact Or.inl (Nat.succ_pos _)
    | cons m ms ihm =>
      rw [scoreRow, sameKey]
      have hbest := max_le (hgrow (ih (m :: ms))).1 ihm
      split
      · rename_i hcandidate
        split at hcandidate
        · rw [Option.some_inj] at hcandidate
          exact max_le hbest (hcandidate ▸ (hgrow (ih ms)).2)
        · cases hcandidate
      · exact hbest

theorem withMatch_length (bs : List β) :
    Score.withMatch (toLex (bs.length, bs.length)) true =
      toLex (bs.length + 1, bs.length + 1) := rfl

/-- Elements that keep the order of their partners can all be paired. -/
theorem score_of_sublist {bs : List β} {ms : List μ} (h : (bs.map key).Sublist (ms.map key')) :
    score (sameKey key key') bs ms = toLex (bs.length, bs.length) := by
  refine le_antisymm (score_le key key' bs ms) ?_
  induction bs generalizing ms with
  | nil => exact le_refl _
  | cons b bs ih =>
    rw [score]
    induction ms with
    | nil => cases h
    | cons m ms ihm =>
      rw [scoreRow, sameKey]
      by_cases heq : key b = key' m
      · rw [if_pos heq]
        rw [List.map_cons, List.map_cons, heq, List.cons_sublist_cons] at h
        have hnext := le_antisymm (score_le key key' bs ms) (ih h)
        refine le_trans ?_ (le_max_right _ _)
        rw [hnext, withMatch_length, List.length_cons]
      · rw [if_neg heq]
        rw [List.map_cons, List.map_cons] at h
        exact (ihm (h.of_cons_of_ne heq)).trans (le_max_right _ _)

/-- **Elements that know their partner, in the order of the partners, are paired with it.** -/
theorem align_of_sublist {bs : List β} {ms : List μ} (h : (bs.map key).Sublist (ms.map key'))
    (hkeys : (ms.map key').Nodup) :
    align (sameKey key key') bs ms = bs.map fun b => ms.find? fun m => decide (key b = key' m) := by
  induction bs generalizing ms with
  | nil => rfl
  | cons b bs ih =>
    rw [align]
    induction ms with
    | nil => cases h
    | cons m ms ihm =>
      have hwhole := score_of_sublist key key' h
      rw [List.map_cons, List.map_cons] at h
      rw [List.map_cons, List.nodup_cons] at hkeys
      rw [alignRow, hwhole]
      by_cases heq : key b = key' m
      · rw [heq, List.cons_sublist_cons] at h
        have hmatched : ((sameKey key key' b m).any fun preferred =>
            decide ((score (sameKey key key') bs ms).withMatch preferred =
              toLex ((b :: bs).length, (b :: bs).length))) = true := by
          rw [sameKey, if_pos heq, Option.any_some, score_of_sublist key key' h, withMatch_length]
          exact decide_eq_true rfl
        have hothers : ∀ other ∈ bs, (m :: ms).find? (fun m => decide (key other = key' m)) =
            ms.find? fun m => decide (key other = key' m) := by
          intro other hother
          have hne : key other ≠ key' m := fun h' =>
            hkeys.1 (h' ▸ h.subset (List.mem_map_of_mem hother))
          rw [List.find?_cons_of_neg (by simpa using hne)]
        rw [if_pos hmatched, ih h hkeys.2, List.map_cons,
          List.find?_cons_of_pos (by simpa using heq)]
        exact congrArg _ (List.map_congr_left fun other hother => (hothers other hother).symm)
      · have hlater : ((b :: bs).map key).Sublist (ms.map key') := h.of_cons_of_ne heq
        have hmatched : ¬ ((sameKey key key' b m).any fun preferred =>
            decide ((score (sameKey key key') bs ms).withMatch preferred =
              toLex ((b :: bs).length, (b :: bs).length))) = true := by
          rw [sameKey, if_neg heq, Option.any_none]
          exact Bool.false_ne_true
        have hmore : ¬ score (sameKey key key') (b :: bs) ms ≤
            score (sameKey key key') bs (m :: ms) := by
          rw [score_of_sublist key key' hlater]
          refine not_le.mpr ((score_le key key' bs (m :: ms)).trans_lt ?_)
          rw [Prod.Lex.toLex_lt_toLex]
          exact Or.inl (Nat.lt_succ_self _)
        have hothers : ∀ other ∈ b :: bs, (m :: ms).find? (fun m => decide (key other = key' m)) =
            ms.find? fun m => decide (key other = key' m) := by
          intro other hother
          have hne : key other ≠ key' m := fun h' =>
            hkeys.1 (h' ▸ hlater.subset (List.mem_map_of_mem hother))
          rw [List.find?_cons_of_neg (by simpa using hne)]
        rw [if_neg hmatched, if_neg hmore, ihm hlater hkeys.2]
        exact List.map_congr_left fun other hother => (hothers other hother).symm

end

end Alignment
