import Mathlib.Order.Cover

/-!
# Spans, and the components of overlapping spans

A span is a pair of points of a linear order.  It is cut at a point that lies after its first end
and not after its second; a set of spans falls into components that no uncut point separates.

## What is here

* `Grows.saturate` — taking up whatever meets what has been taken up, until nothing is left over:
  `saturate_closed`.
* `Cuts`, `Uncut`, `Linked` — a list of spans without an uncut point between its ends.
* `Component` — the ends of a component: all points between them are cut, and nothing that meets
  it reaches beyond it.
-/


/-! ## Taking up until nothing is left over -/

namespace Grows

variable {α : Type} [DecidableEq α]

/-- One pass over `all`: what `meets` accepts is taken up once. -/
def absorb (meets : α → Bool) (all taken : List α) : List α :=
  all.foldl (fun taken a => if meets a && !taken.contains a then taken ++ [a] else taken) taken

/-- Passes until one takes up nothing, at most `fuel` of them. -/
def saturate (meets : List α → α → Bool) (all : List α) : Nat → List α → List α
  | 0, taken => taken
  | fuel + 1, taken =>
    let next := absorb (meets taken) all taken
    if next.length = taken.length then next else saturate meets all fuel next

theorem prefix_absorb (meets : α → Bool) (all taken : List α) :
    taken <+: absorb meets all taken := by
  induction all generalizing taken with
  | nil => exact List.prefix_refl taken
  | cons a all ih =>
    rw [absorb, List.foldl_cons]
    split
    · exact (List.prefix_append taken [a]).trans (ih (taken ++ [a]))
    · exact ih taken

variable {meets : α → Bool} {all taken : List α}

theorem mem_absorb {a : α} : a ∈ absorb meets all taken ↔ a ∈ taken ∨ a ∈ all ∧ meets a = true := by
  induction all generalizing taken with
  | nil => simp [absorb]
  | cons b all ih =>
    rw [absorb, List.foldl_cons, ← absorb, ih, List.mem_cons]
    by_cases hb : meets b = true <;> by_cases hmem : b ∈ taken <;>
      simp only [hb, hmem, List.contains_eq_mem, decide_true, decide_false, Bool.not_true,
        Bool.not_false, Bool.and_true, Bool.and_false, Bool.false_eq_true,
        if_true, if_false, List.mem_append, List.mem_singleton]
    · grind
    · grind
    · grind
    · grind

/-- What each taking up preserves, a pass preserves. -/
theorem absorb_preserves {meets : α → Bool} {all : List α} {P : List α → Prop}
    (hstep : ∀ taken, ∀ a ∈ all, P taken → meets a = true → P (taken ++ [a])) {taken : List α}
    (h : P taken) : P (absorb meets all taken) := by
  induction all generalizing taken with
  | nil => exact h
  | cons a all ih =>
    have ih := @ih fun taken b hb => hstep taken b (List.mem_cons_of_mem a hb)
    rw [absorb, List.foldl_cons]
    split
    · rename_i hmeets
      exact ih (hstep taken a (List.mem_cons_self ..) h (Bool.and_eq_true_iff.mp hmeets).1)
    · exact ih h

/-- A pass that meets nothing new takes up nothing. -/
theorem absorb_eq_self (h : ∀ a ∈ all, meets a = true → a ∈ taken) :
    absorb meets all taken = taken := by
  induction all with
  | nil => rfl
  | cons a all ih =>
    have hstep : ¬ (meets a && !taken.contains a) = true := by
      simpa using fun hmeets => h a (List.mem_cons_self ..) hmeets
    rw [absorb, List.foldl_cons, if_neg hstep]
    exact ih fun b hb => h b (List.mem_cons_of_mem a hb)

theorem absorb_eq_of_length (h : (absorb meets all taken).length = taken.length) :
    absorb meets all taken = taken :=
  ((prefix_absorb meets all taken).eq_of_length h.symm).symm

/-- What has not been taken up. -/
def missing (all taken : List α) : List α := all.filter fun a => !taken.contains a

theorem missing_absorb_lt (h : (absorb meets all taken).length ≠ taken.length) :
    (missing all (absorb meets all taken)).length < (missing all taken).length := by
  obtain ⟨a, hall, hmeets, hnotMem⟩ : ∃ a ∈ all, meets a = true ∧ a ∉ taken := by
    by_contra hnone
    push Not at hnone
    exact h (congrArg List.length (absorb_eq_self hnone))
  have hfilter : missing all (absorb meets all taken) =
      (missing all taken).filter fun a => !(absorb meets all taken).contains a := by
    rw [missing, missing, List.filter_filter]
    refine List.filter_congr fun b _ => ?_
    have hsub : b ∈ taken → b ∈ absorb meets all taken := fun hb => mem_absorb.mpr (Or.inl hb)
    by_cases hb : b ∈ taken <;> simp [hb, hsub]
  rw [hfilter, List.length_filter_lt_length_iff_exists]
  refine ⟨a, List.mem_filter.mpr ⟨hall, by simpa using hnotMem⟩, ?_⟩
  simpa using mem_absorb.mpr (Or.inr ⟨hall, hmeets⟩)

theorem subset_saturate (meets : List α → α → Bool) (all : List α) (fuel : Nat)
    (taken : List α) : taken ⊆ saturate meets all fuel taken := by
  induction fuel generalizing taken with
  | zero => exact List.Subset.refl taken
  | succ fuel ih =>
    have hpass : taken ⊆ absorb (meets taken) all taken := fun a ha => mem_absorb.mpr (Or.inl ha)
    rw [saturate]
    split
    · exact hpass
    · exact List.Subset.trans hpass (ih _)

/-- What each pass preserves holds at the end. -/
theorem saturate_preserves {meets : List α → α → Bool} {P : List α → Prop}
    (hpass : ∀ taken, P taken → P (absorb (meets taken) all taken)) (fuel : Nat) (h : P taken) :
    P (saturate meets all fuel taken) := by
  induction fuel generalizing taken with
  | zero => exact h
  | succ fuel ih =>
    rw [saturate]
    split
    · exact hpass taken h
    · exact ih (hpass taken h)

/-- **With more passes than there is left to take up, nothing that meets the result is missing.** -/
theorem saturate_closed {meets : List α → α → Bool} {fuel : Nat}
    (hfuel : (missing all taken).length < fuel) {a : α} (ha : a ∈ all)
    (hmeets : meets (saturate meets all fuel taken) a = true) :
    a ∈ saturate meets all fuel taken := by
  induction fuel generalizing taken with
  | zero => exact absurd hfuel (Nat.not_lt_zero _)
  | succ fuel ih =>
    rw [saturate] at hmeets ⊢
    split at hmeets
    · rename_i hlength
      rw [absorb_eq_of_length hlength] at hmeets
      rw [if_pos hlength]
      exact mem_absorb.mpr (Or.inr ⟨ha, hmeets⟩)
    · rename_i hlength
      rw [if_neg hlength]
      exact ih (Nat.lt_of_lt_of_le (missing_absorb_lt hlength) (Nat.le_of_lt_succ hfuel)) hmeets

end Grows

/-! ## Spans -/

namespace Spans

variable {α : Type} [LinearOrder α]

/-- The span holds `b` after its first end and not after its second. -/
def Cuts (b : α) (s : α × α) : Prop := s.1 < b ∧ b ≤ s.2

instance (b : α) (s : α × α) : Decidable (Cuts b s) := inferInstanceAs (Decidable (_ ∧ _))

/-- No span is cut at `b`. -/
def Uncut (spans : List (α × α)) (b : α) : Prop := ∀ s ∈ spans, ¬ Cuts b s

theorem not_uncut {spans : List (α × α)} {b : α} : ¬ Uncut spans b ↔ ∃ s ∈ spans, Cuts b s := by
  simp [Uncut]

/-- Every point after one first end and not after one second end is cut. -/
def Linked (spans : List (α × α)) : Prop :=
  ∀ s ∈ spans, ∀ t ∈ spans, ∀ b, s.1 < b → b ≤ t.2 → ¬ Uncut spans b

/-- Spans that are cut at one point are linked. -/
theorem linked_of_cuts {spans : List (α × α)} {c : α} (h : ∀ s ∈ spans, Cuts c s) :
    Linked spans := by
  intro s hs t ht b hsb hbt
  rw [not_uncut]
  rcases le_or_gt b c with hbc | hcb
  · exact ⟨s, hs, hsb, hbc.trans (h s hs).2⟩
  · exact ⟨t, ht, (h t ht).1.trans hcb, hbt⟩

/-- A span that meets linked spans may be added. -/
theorem Linked.append {spans : List (α × α)} (h : Linked spans) {a s t : α × α} (hs : s ∈ spans)
    (ht : t ∈ spans) (hlo : s.1 ≤ a.2) (hhi : a.1 ≤ t.2) : Linked (spans ++ [a]) := by
  intro x hx y hy b hxb hby
  have hwiden : ¬ Uncut spans b → ¬ Uncut (spans ++ [a]) b := by
    simp only [not_uncut]
    exact fun ⟨s, hs, hcuts⟩ => ⟨s, List.mem_append_left [a] hs, hcuts⟩
  have hself : Cuts b a → ¬ Uncut (spans ++ [a]) b := fun hcuts =>
    not_uncut.mpr ⟨a, List.mem_append_right spans (List.mem_singleton_self a), hcuts⟩
  rcases List.mem_append.mp hx with hx | hx <;> rcases List.mem_append.mp hy with hy | hy
  · exact hwiden (h x hx y hy b hxb hby)
  · rw [List.mem_singleton.mp hy] at hby
    rcases lt_or_ge a.1 b with hab | hba
    · exact hself ⟨hab, hby⟩
    · exact hwiden (h x hx t ht b hxb (hba.trans hhi))
  · rw [List.mem_singleton.mp hx] at hxb
    rcases le_or_gt b a.2 with hba | hab
    · exact hself ⟨hxb, hba⟩
    · exact hwiden (h s hs y hy b (hlo.trans_lt hab) hby)
  · rw [List.mem_singleton.mp hx] at hxb
    rw [List.mem_singleton.mp hy] at hby
    exact hself ⟨hxb, hby⟩

/-- The ends of a component. -/
structure Component (spans : List (α × α)) (lo hi : α) : Prop where
  inside : ∀ s ∈ spans, s.1 ≤ hi → lo ≤ s.2 → lo ≤ s.1 ∧ s.2 ≤ hi
  covered : ∀ b, lo < b → b ≤ hi → ¬ Uncut spans b
  ordered : lo ≤ hi

namespace Component

variable {spans : List (α × α)} {lo hi b : α}

theorem uncut_lo (h : Component spans lo hi) : Uncut spans lo := fun s hs ⟨hlt, hle⟩ =>
  absurd (h.inside s hs (hlt.le.trans h.ordered) hle).1 (not_le.mpr hlt)

theorem uncut_after (h : Component spans lo hi) (hb : hi ⋖ b) : Uncut spans b :=
  fun s hs ⟨hlt, hle⟩ =>
    have hle' : s.1 ≤ hi := not_lt.mp fun hgt => hb.2 hgt hlt
    have hle'' : s.2 ≤ hi := (h.inside s hs hle' (h.ordered.trans (hb.lt.le.trans hle))).2
    absurd hle'' (not_le.mpr (hb.lt.trans_le hle))

/-- An uncut point that is not after the component is not after its first end. -/
theorem le_lo (h : Component spans lo hi) (hb : Uncut spans b) (hle : b ≤ hi) : b ≤ lo :=
  not_lt.mp fun hlt => h.covered b hlt hle hb

end Component

end Spans
