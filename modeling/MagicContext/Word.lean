import Mathlib.Algebra.Ring.Int.Defs
import Mathlib.Algebra.Ring.Nat

/-!
# Checked machine words

Sixty-four-bit counters are natural numbers here, and every addition the source checks is a
partial function.
-/

namespace MagicContext.Word

/-- One past the largest `u64`. -/
def u64Limit : Nat := 2 ^ 64

/-- `u64::checked_add`. -/
def checkedAdd (a b : Nat) : Option Nat := if a + b < u64Limit then some (a + b) else none

/-- `u64::checked_sub`. -/
def checkedSub (a b : Nat) : Option Nat := if b ≤ a then some (a - b) else none

/-- `u64::checked_add(1)`. -/
def checkedSucc (n : Nat) : Option Nat := checkedAdd n 1

/-- `u64::wrapping_add`. -/
def wrappingAdd (a b : Nat) : Nat := (a + b) % u64Limit

theorem checkedAdd_eq_some {a b c : Nat} :
    checkedAdd a b = some c ↔ c = a + b ∧ a + b < u64Limit := by
  rw [checkedAdd]
  split <;> rename_i h <;> simp [h, eq_comm]

theorem checkedAdd_eq_none {a b : Nat} : checkedAdd a b = none ↔ u64Limit ≤ a + b := by
  rw [checkedAdd]
  split <;> rename_i h
  · simp [Nat.not_le.mpr h]
  · simp [Nat.not_lt.mp h]

theorem checkedAdd_of_lt {a b : Nat} (h : a + b < u64Limit) : checkedAdd a b = some (a + b) :=
  checkedAdd_eq_some.mpr ⟨rfl, h⟩

theorem checkedSub_eq_some {a b c : Nat} : checkedSub a b = some c ↔ c = a - b ∧ b ≤ a := by
  rw [checkedSub]
  split <;> rename_i h <;> simp [h, eq_comm]

theorem checkedSub_of_le {a b : Nat} (h : b ≤ a) : checkedSub a b = some (a - b) :=
  checkedSub_eq_some.mpr ⟨rfl, h⟩

theorem checkedSucc_eq_some {n m : Nat} (h : checkedSucc n = some m) : m = n + 1 :=
  (checkedAdd_eq_some.mp h).1

end MagicContext.Word
