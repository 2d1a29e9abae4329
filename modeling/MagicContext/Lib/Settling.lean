import Mathlib.Logic.Basic

/-!
# Settling

A loop that repeats a step until it changes nothing, within a bound on its rounds.

## What is here

* `settle` — the loop; `settle_preserves`, what every step preserves.
* `settle_fixed` — when every step that changes something lowers a measure, and the measure starts
  below the bound, the loop ends where the step changes nothing.
-/

namespace Settling

variable {α : Type*} [DecidableEq α]

/-- Repeats `step` until it changes nothing, at most `rounds` times. -/
def settle (step : α → α) : Nat → α → α
  | 0, a => a
  | rounds + 1, a => if step a = a then a else settle step rounds (step a)

theorem settle_preserves {step : α → α} {P : α → Prop} (hstep : ∀ a, P a → P (step a)) {a : α}
    (ha : P a) (rounds : Nat) : P (settle step rounds a) := by
  induction rounds generalizing a with
  | zero => exact ha
  | succ rounds ih =>
    rw [settle]
    split
    · exact ha
    · exact ih (hstep a ha)

/-- **The loop ends at a fixed point**, when the measure allows for fewer changes than rounds. -/
theorem settle_fixed {step : α → α} {m : α → Nat} (hm : ∀ a, step a ≠ a → m (step a) < m a)
    {a : α} {rounds : Nat} (h : m a < rounds) :
    step (settle step rounds a) = settle step rounds a := by
  induction rounds generalizing a with
  | zero => exact absurd h (Nat.not_lt_zero _)
  | succ rounds ih =>
    rw [settle]
    split
    · assumption
    · rename_i hne
      exact ih (Nat.lt_of_lt_of_le (hm a hne) (Nat.le_of_lt_succ h))

end Settling
