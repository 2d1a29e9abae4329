import Mathlib.Data.List.Forall2

/-!
# Chains of checks

A computation that fails with an error or yields a value, built from checks one after the other.
These are the rules that take a chain that succeeded apart.

## What is here

* `bind_eq_ok` — both parts of a chain succeed.
* `bind_eq_error` — one part of a chain fails.
* `check_eq_ok` — a single check that holds.
* `forM_eq_ok` — a check of every item of a list.
* `mapM_eq_ok` — a computation for every item of a list.
-/

namespace Checks

variable {ε α β : Type} {f : α → Except ε β}

/-- **A chain succeeds** when both parts do. -/
theorem bind_eq_ok {m : Except ε α} {b : β} : (m >>= f) = .ok b ↔ ∃ a, m = .ok a ∧ f a = .ok b := by
  cases m with
  | error e =>
    refine iff_of_false ?_ ?_
    · exact fun h => Except.noConfusion rfl rfl (heq_of_eq h)
    · rintro ⟨a, h, -⟩
      cases h
  | ok a =>
    constructor
    · exact fun h => ⟨a, rfl, h⟩
    · rintro ⟨a', h, h'⟩
      cases h
      exact h'

/-- **A chain fails** when its first part does, or what comes after it. -/
theorem bind_eq_error {m : Except ε α} {e : ε} :
    (m >>= f) = .error e ↔ m = .error e ∨ ∃ a, m = .ok a ∧ f a = .error e := by
  cases m with
  | error e' =>
    constructor
    · intro h
      cases h
      exact Or.inl rfl
    · rintro (h | ⟨a, h, -⟩)
      · cases h
        rfl
      · cases h
  | ok a =>
    constructor
    · exact fun h => Or.inr ⟨a, rfl, h⟩
    · rintro (h | ⟨a', h, h'⟩)
      · cases h
      · cases h
        exact h'

@[simp] theorem pure_eq_ok {a b : α} : (pure a : Except ε α) = .ok b ↔ a = b :=
  ⟨fun h => Except.ok.inj h, fun h => h ▸ rfl⟩

/-- A check fails when its condition holds. -/
theorem check_eq_ok {p : Prop} [Decidable p] {e : ε} {m : Except ε α} {a : α} :
    (if p then .error e else m) = .ok a ↔ ¬ p ∧ m = .ok a := by
  split
  · rename_i hp
    exact iff_of_false (fun h => by cases h) fun h => h.1 hp
  · rename_i hp
    exact ⟨fun h => ⟨hp, h⟩, fun h => h.2⟩

/-- **A list is checked** when its items are. -/
theorem forM_eq_ok {l : List α} {f : α → Except ε PUnit} {u : PUnit} :
    l.forM f = .ok u ↔ ∀ a ∈ l, f a = .ok () := by
  rw [List.forM_eq_forM]
  induction l with
  | nil => simp
  | cons a l ih =>
    rw [List.forM_cons, bind_eq_ok, List.forall_mem_cons, ← ih]
    exact ⟨fun ⟨_, ha, hl⟩ => ⟨ha, hl⟩, fun ⟨ha, hl⟩ => ⟨_, ha, hl⟩⟩

/-- **A computation for every item succeeds** when each does. -/
theorem mapM_eq_ok {l : List α} {ys : List β} :
    l.mapM f = .ok ys ↔ List.Forall₂ (fun x y => f x = .ok y) l ys := by
  induction l generalizing ys with
  | nil =>
    rw [List.mapM_nil, pure_eq_ok, List.forall₂_nil_left_iff]
    exact eq_comm
  | cons x l ih =>
    rw [List.mapM_cons, bind_eq_ok, List.forall₂_cons_left_iff]
    constructor
    · rintro ⟨y, hy, h⟩
      obtain ⟨ys', hys, h⟩ := bind_eq_ok.mp h
      exact ⟨y, ys', hy, ih.mp hys, (pure_eq_ok.mp h).symm⟩
    · rintro ⟨y, ys', hy, hys, rfl⟩
      exact ⟨y, hy, bind_eq_ok.mpr ⟨ys', ih.mpr hys, rfl⟩⟩

end Checks
