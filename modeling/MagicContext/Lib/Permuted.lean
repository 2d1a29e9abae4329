import Mathlib.Data.List.Sort

/-!
# Folds and sorts of permuted lists

What a fold or a sort makes of a list does not depend on the order of the list, when two steps can
be swapped up to a relation, or when the sort leaves nothing open.

## What is here

* `Reordering` — some order for every list.
* `foldl_perm` — folds of permuted lists are related.
* `insertionSort_perm` — sorts of permuted lists are equal.
-/

namespace Permuted

variable {α β : Type*}

/-- Some order for every list. -/
structure Reordering (α : Type*) where
  order : List α → List α
  perm : ∀ l, (order l).Perm l

namespace Reordering

/-- Every list as it is. -/
def asGiven : Reordering α := ⟨id, List.Perm.refl⟩

theorem mem_order (o : Reordering α) {l : List α} {a : α} : a ∈ o.order l ↔ a ∈ l :=
  (o.perm l).mem_iff

end Reordering

/-- **Folds of permuted lists are related**, when a step respects the relation and two steps can be
swapped up to it. -/
theorem foldl_perm {R : β → β → Prop} {step : β → α → β} (hrefl : ∀ b, R b b)
    (htrans : ∀ {a b c}, R a b → R b c → R a c)
    (hstep : ∀ {a b} x, R a b → R (step a x) (step b x))
    (hswap : ∀ b x y, R (step (step b x) y) (step (step b y) x)) {l l' : List α}
    (h : l.Perm l') {b b' : β} (hb : R b b') : R (l.foldl step b) (l'.foldl step b') := by
  have hfold : ∀ (l : List α) {a b}, R a b → R (l.foldl step a) (l.foldl step b) := by
    intro l
    induction l with
    | nil => exact fun hab => hab
    | cons x l ih => exact fun hab => ih (hstep x hab)
  induction h generalizing b b' with
  | nil => exact hb
  | cons x _ ih => exact ih (hstep x hb)
  | swap x y l => exact htrans (hfold l (hswap b y x)) (hfold l (hstep y (hstep x hb)))
  | trans _ _ ih ih' => exact htrans (ih (hrefl b)) (ih' hb)

/-- **Sorts of permuted lists are equal**, when no two members are behind each other. -/
theorem insertionSort_perm {r : α → α → Prop} [DecidableRel r] [IsTrans α r] [Std.Total r]
    {l l' : List α} (hanti : ∀ a ∈ l, ∀ b ∈ l, r a b → r b a → a = b) (h : l.Perm l') :
    l.insertionSort r = l'.insertionSort r := by
  have hperm := List.perm_insertionSort r l
  have hperm' := (List.perm_insertionSort r l').trans h.symm
  refine List.Perm.eq_of_pairwise (fun a b ha hb => ?_) (List.pairwise_insertionSort r l)
    (List.pairwise_insertionSort r l') (hperm.trans hperm'.symm)
  exact hanti a (hperm.mem_iff.mp ha) b (hperm'.mem_iff.mp hb)

end Permuted
