import Mathlib.Data.List.Sort

/-!
# The first of a list by a strict order

Those that come first are those before which few come, and that does not depend on the order in
which a list has them.

## What is here

* `AmongFirst` — fewer than so many of a list come before.
* `mem_take_iff` — in a sorted list these stand at the front.
-/

namespace Ranking

variable {α : Type*} {r : α → α → Prop} [DecidableRel r] {l l' : List α} {k : Nat} {a : α}

/-- One of the list, with fewer than `k` of the list before it. -/
def AmongFirst (r : α → α → Prop) [DecidableRel r] (l : List α) (k : Nat) (a : α) : Prop :=
  a ∈ l ∧ l.countP (fun b => decide (r b a)) < k

instance [DecidableEq α] : Decidable (AmongFirst r l k a) :=
  inferInstanceAs (Decidable (_ ∧ _))

theorem amongFirst_perm (h : l.Perm l') : AmongFirst r l k a ↔ AmongFirst r l' k a := by
  rw [AmongFirst, AmongFirst, h.mem_iff, h.countP_eq]

/-- **In a sorted list the first stand at the front.** -/
theorem mem_take_iff (hasymm : ∀ {a b}, r a b → ¬r b a) (h : l.Pairwise r) :
    a ∈ l.take k ↔ AmongFirst r l k a := by
  induction l generalizing k with
  | nil => simp [AmongFirst]
  | cons x l ih =>
    rw [List.pairwise_cons] at h
    cases k with
    | zero => simp [AmongFirst]
    | succ k =>
      rw [List.take_succ_cons, List.mem_cons, ih h.2, AmongFirst, AmongFirst, List.mem_cons]
      have hself : ¬r x x := fun hx => hasymm hx hx
      constructor
      · rintro (rfl | ⟨hmem, hcount⟩)
        · -- nothing comes before the first
          have hnone : l.countP (fun b => decide (r b a)) = 0 :=
            List.countP_eq_zero.mpr fun b hb => by simpa using hasymm (h.1 b hb)
          refine ⟨Or.inl rfl, ?_⟩
          rw [List.countP_cons_of_neg (by simpa using hself), hnone]
          omega
        · refine ⟨Or.inr hmem, ?_⟩
          rw [List.countP_cons_of_pos (by simpa using h.1 a hmem)]
          omega
      · rintro ⟨rfl | hmem, hcount⟩
        · exact Or.inl rfl
        · rw [List.countP_cons_of_pos (by simpa using h.1 a hmem)] at hcount
          exact Or.inr ⟨hmem, by omega⟩

end Ranking
