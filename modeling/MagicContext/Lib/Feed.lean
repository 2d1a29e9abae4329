/-!
# Change feeds

A feed numbers its commits and the entries of each of them.  Entries stay for good and are queued at
numbered positions, until the queue forgets those up to a commit.

## What is here

* `Feed` and `Feed.Step` — a feed, and what can happen to it.
* `Feed.Records` — a feed is the numbering of its commits; `Feed.Records.step` keeps that.
* `Feed.Records.unread` — what a reader finds that nothing was forgotten of.
-/


variable {α : Type}

structure Feed.Entry (α : Type) where
  commitSeq : Nat
  ordinal : Nat
  content : α

@[ext]
structure Feed (α : Type) where
  commits : List Nat
  commitSequence : Nat
  entries : List (Feed.Entry α)
  /-- The entries that are queued, with their positions. -/
  queued : List (Feed.Entry α × Nat)
  positions : Nat

namespace Feed

/-- The entries of a commit. -/
def entriesOf (seq : Nat) (contents : List α) : List (Entry α) :=
  contents.zipIdx.map fun c => ⟨seq, c.2, c.1⟩

/-- The queued entries of later commits. -/
def above (seq : Nat) (queued : List (Entry α × Nat)) : List (Entry α × Nat) :=
  queued.filter fun q => seq < q.1.commitSeq

def commit (f : Feed α) (contents : List α) : Feed α where
  commits := f.commits ++ [f.commitSequence + 1]
  commitSequence := f.commitSequence + 1
  entries := f.entries ++ entriesOf (f.commitSequence + 1) contents
  queued := f.queued ++ (entriesOf (f.commitSequence + 1) contents).zipIdx (f.positions + 1)
  positions := f.positions + contents.length

def prune (f : Feed α) (horizon : Nat) : Feed α := { f with queued := above horizon f.queued }

/-- A step, with the commit that it makes. -/
inductive Step (f : Feed α) : Option (List α) → Feed α → Prop
  | keep : Step f none f
  | commit (contents : List α) : Step f (some contents) (f.commit contents)
  | prune (horizon : Nat) : Step f none (f.prune horizon)

theorem Step.of_eq {f f' f'' : Feed α} {made : Option (List α)} (h : f.Step made f')
    (heq : f'' = f') : f.Step made f'' := heq ▸ h

/-- The entries of commits from the first on. -/
def numbered (history : List (List α)) : List (Entry α) :=
  (history.zipIdx 1).flatMap fun c => entriesOf c.2 c.1

/-- The feed is the numbering of the commits, and its queue is the end of the entries. -/
structure Records (f : Feed α) (history : List (List α)) : Prop where
  commits : f.commits = List.range' 1 history.length
  commitSequence : f.commitSequence = history.length
  entries : f.entries = numbered history
  positions : f.positions = f.entries.length
  queued : f.queued <:+ f.entries.zipIdx 1

/-! ## Order -/

def Entry.Before (e e' : Entry α) : Prop :=
  e.commitSeq < e'.commitSeq ∨ e.commitSeq = e'.commitSeq ∧ e.ordinal < e'.ordinal

theorem numbered_concat (history : List (List α)) (contents : List α) :
    numbered (history ++ [contents]) =
      numbered history ++ entriesOf (history.length + 1) contents := by
  rw [numbered, List.zipIdx_append, List.flatMap_append, Nat.add_comm]
  exact congrArg (numbered history ++ ·) (List.append_nil _)

theorem commitSeq_of_mem {seq : Nat} {contents : List α} {e : Entry α}
    (he : e ∈ entriesOf seq contents) : e.commitSeq = seq := by
  obtain ⟨-, -, rfl⟩ := List.mem_map.mp he
  rfl

theorem entriesOf_ordered (seq : Nat) (contents : List α) :
    (entriesOf seq contents).Pairwise Entry.Before := by
  have hordinals : ((entriesOf seq contents).map Entry.ordinal).Pairwise (· < ·) := by
    rw [entriesOf, List.map_map]
    exact (List.zipIdx_map_snd 0 contents).symm ▸ List.pairwise_lt_range'
  refine (List.pairwise_map.mp hordinals).imp_of_mem fun he he' hlt => .inr ⟨?_, hlt⟩
  rw [commitSeq_of_mem he, commitSeq_of_mem he']

theorem numbered_ordered (history : List (List α)) : (numbered history).Pairwise Entry.Before := by
  have hseqs : ((history.zipIdx 1).map Prod.snd).Pairwise (· < ·) :=
    (List.zipIdx_map_snd 1 history).symm ▸ List.pairwise_lt_range'
  refine List.pairwise_flatMap.mpr
    ⟨fun c _ => entriesOf_ordered c.2 c.1, (List.pairwise_map.mp hseqs).imp ?_⟩
  intro c c' hlt e he e' he'
  refine .inl ?_
  rwa [commitSeq_of_mem he, commitSeq_of_mem he']

/-- What a lower bound leaves of an ordered list is its end. -/
theorem filter_suffix {β : Type} {key : β → Nat} {l : List β}
    (h : l.Pairwise fun a b => key a ≤ key b) (bound : Nat) :
    (l.filter fun a => bound < key a) <:+ l := by
  induction l with
  | nil => exact List.suffix_rfl
  | cons a l ih =>
    obtain ⟨hfirst, hrest⟩ := List.pairwise_cons.mp h
    by_cases ha : bound < key a
    · have hall : ∀ b ∈ a :: l, bound < key b := List.forall_mem_cons.mpr
        ⟨ha, fun b hb => Nat.lt_of_lt_of_le ha (hfirst b hb)⟩
      exact ⟨[], List.filter_eq_self.mpr fun b hb => decide_eq_true (hall b hb)⟩
    · rw [List.filter_cons_of_neg (by simpa using ha)]
      exact (ih hrest).trans (List.suffix_cons a l)

/-! ## Steps -/

namespace Records

variable {f f' : Feed α} {history : List (List α)}

theorem queue_ordered (h : f.Records history) :
    (f.entries.zipIdx 1).Pairwise fun q q' => q.1.Before q'.1 := by
  refine List.pairwise_map.mp ?_
  rw [List.zipIdx_map_fst, h.entries]
  exact numbered_ordered history

/-- **Every step records its commit.** -/
theorem step {made : Option (List α)} (h : f.Records history) (hstep : f.Step made f') :
    f'.Records (history ++ made.toList) := by
  cases hstep with
  | keep => rwa [Option.toList_none, List.append_nil]
  | commit contents =>
    have hlength : (history ++ [contents]).length = history.length + 1 := List.length_append
    constructor
    · rw [Feed.commit, h.commits, h.commitSequence, Option.toList_some, hlength,
        List.range'_1_concat, Nat.add_comm]
    · rw [Feed.commit, h.commitSequence, Option.toList_some, hlength]
    · rw [Feed.commit, h.entries, h.commitSequence]
      exact (numbered_concat history contents).symm
    · rw [Feed.commit, List.length_append, entriesOf, List.length_map, List.length_zipIdx,
        h.positions]
    · obtain ⟨pruned, hpruned⟩ := h.queued
      refine ⟨pruned, ?_⟩
      rw [Feed.commit, List.zipIdx_append, ← hpruned, h.positions, Nat.add_comm 1,
        List.append_assoc]
  | prune horizon =>
    rw [Option.toList_none, List.append_nil]
    refine ⟨h.commits, h.commitSequence, h.entries, h.positions, ?_⟩
    refine (filter_suffix ?_ horizon).trans h.queued
    exact (h.queue_ordered.sublist h.queued.sublist).imp fun hbefore =>
      hbefore.elim Nat.le_of_lt fun heq => Nat.le_of_eq heq.1

/-- **What is queued above a commit** is all that the feed has above it, in order and at its place,
if none of it was forgotten. -/
theorem unread (h : f.Records history) {seq : Nat}
    (hkept : ∀ e ∈ f.entries, seq < e.commitSeq → ∃ q ∈ f.queued, q.1 = e) :
    above seq f.queued = above seq (f.entries.zipIdx 1) := by
  obtain ⟨pruned, hpruned⟩ := h.queued
  have hnone : above seq pruned = [] := by
    refine List.filter_eq_nil_iff.mpr fun q hq habove => ?_
    have hentry : q.1 ∈ f.entries := by
      rw [← List.zipIdx_map_fst 1 f.entries, ← hpruned]
      exact List.mem_map_of_mem (List.mem_append_left _ hq)
    obtain ⟨q', hq', heq⟩ := hkept _ hentry (of_decide_eq_true habove)
    have hbefore := (List.pairwise_append.mp (hpruned ▸ h.queue_ordered)).2.2 q hq q' hq'
    rw [heq] at hbefore
    rcases hbefore with hlt | ⟨-, hlt⟩ <;> exact Nat.lt_irrefl _ hlt
  have happend : above seq (pruned ++ f.queued) = above seq pruned ++ above seq f.queued :=
    List.filter_append ..
  rw [← hpruned, happend, hnone, List.nil_append]

end Records

end Feed
