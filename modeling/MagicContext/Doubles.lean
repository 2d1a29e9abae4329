import MagicContext.Boundary.Index

/-!
# Doubles that become whole numbers

The scheduler and the selection of reductions turn doubles into counts, which the boundary never
does.

## What is here

* `WholeDouble` — the operations on doubles with rounding up and the cast to `u64`.
* `Double.same` — what `==` answers.
-/

namespace MagicContext

open Historian (u64Max)

class WholeDouble (F : Type) extends Double F where
  ceil : F → F
  /-- `as u64`: the whole part, and the nearest bound where it does not fit. -/
  toU64 : F → Nat

/-- `==`, which no value that is no number answers for itself. -/
def Double.same {F : Type} [Double F] (x y : F) : Bool := decide (x ≤ y) && decide (y ≤ x)

instance : WholeDouble Float where
  ceil := Float.ceil
  toU64 x := x.toUInt64.toNat

instance : WholeDouble ℚ where
  ceil x := ⌈x⌉
  toU64 x := min ⌊x⌋.toNat u64Max

end MagicContext
