import Mathlib.Data.List.Nodup

/-!
# Following links

Every element has at most one link to another one.  Following the links from an element gives one
path, which ends or runs on for ever; one that ends does not come back to where it was.

## What is here

* `Path` — the elements from one on, when the links end.
* `Path.nodup` — a path that ends repeats nothing.
* `unroll` — the first so many elements; `unroll_of_path`, `path_unroll` — they are the path when
  they are fewer.
-/

namespace Following

variable {α : Type} {next next' : α → Option α}

/-- What is met from an element on until there is no link. -/
inductive Path (next : α → Option α) : α → List α → Prop
  | stop {x : α} : next x = none → Path next x [x]
  | hop {x y : α} {rest : List α} : next x = some y → Path next y rest → Path next x (x :: rest)

variable {x : α} {path : List α}

theorem Path.head_mem (h : Path next x path) : x ∈ path := by
  cases h with
  | stop _ => exact List.mem_cons_self ..
  | hop _ _ => exact List.mem_cons_self ..

/-- There is one path. -/
theorem Path.unique {path path' : List α} (h : Path next x path) (h' : Path next x path') :
    path = path' := by
  induction h generalizing path' with
  | stop hnone =>
    cases h' with
    | stop _ => rfl
    | hop hsome _ => exact absurd (hnone.symm.trans hsome) nofun
  | hop hsome _ ih =>
    cases h' with
    | stop hnone => exact absurd (hnone.symm.trans hsome) nofun
    | hop hsome' hrest =>
      cases hsome.symm.trans hsome'
      rw [ih hrest]

/-- The path from an element that is met is the rest of the path. -/
theorem Path.of_mem {x y : α} (h : Path next x path) (hy : y ∈ path) :
    ∃ rest, Path next y rest ∧ rest <:+ path := by
  induction h with
  | stop hnone =>
    obtain rfl := List.mem_singleton.mp hy
    exact ⟨_, .stop hnone, List.suffix_refl _⟩
  | hop hsome hrest ih =>
    rcases List.mem_cons.mp hy with rfl | hy
    · exact ⟨_, .hop hsome hrest, List.suffix_refl _⟩
    · obtain ⟨rest, hpath, hsuffix⟩ := ih hy
      exact ⟨rest, hpath, hsuffix.trans (List.suffix_cons ..)⟩

/-- **A path that ends repeats nothing.** -/
theorem Path.nodup (h : Path next x path) : path.Nodup := by
  induction h with
  | stop _ => exact List.nodup_singleton _
  | @hop x y rest hsome hrest ih =>
    refine List.nodup_cons.mpr ⟨fun hmem => ?_, ih⟩
    -- The path from `x` would be part of the path that follows it.
    obtain ⟨again, hpath, hsuffix⟩ := hrest.of_mem hmem
    rw [hpath.unique (.hop hsome hrest)] at hsuffix
    exact absurd hsuffix.length_le (Nat.not_succ_le_self _)

theorem Path.congr (h : Path next x path) (hsame : ∀ y ∈ path, next y = next' y) :
    Path next' x path := by
  induction h with
  | stop hnone => exact .stop ((hsame _ (List.mem_cons_self ..)).symm.trans hnone)
  | hop hsome _ ih =>
    exact .hop ((hsame _ (List.mem_cons_self ..)).symm.trans hsome)
      (ih fun y hy => hsame y (List.mem_cons_of_mem _ hy))

/-! ## The first elements -/

/-- The elements up to so many links away. -/
def unroll (next : α → Option α) : Nat → α → List α
  | 0, x => [x]
  | n + 1, x => x :: (next x).elim [] (unroll next n)

theorem unroll_of_path (h : Path next x path) {n : Nat} (hn : path.length ≤ n + 1) :
    unroll next n x = path := by
  induction h generalizing n with
  | stop hnone =>
    cases n with
    | zero => rfl
    | succ n => rw [unroll, hnone, Option.elim_none]
  | hop hsome hrest ih =>
    cases n with
    | zero =>
      have hpos := List.length_pos_of_mem hrest.head_mem
      rw [List.length_cons] at hn
      exact absurd hpos (by omega)
    | succ n => rw [unroll, hsome, Option.elim_some, ih (Nat.le_of_succ_le_succ hn)]

theorem path_unroll {n : Nat} (h : (unroll next n x).length ≤ n) :
    Path next x (unroll next n x) := by
  induction n generalizing x with
  | zero => exact absurd h (by rw [unroll]; exact Nat.not_succ_le_zero 0)
  | succ n ih =>
    rw [unroll] at h ⊢
    cases hnext : next x with
    | none => exact .stop hnext
    | some y =>
      rw [hnext, Option.elim_some, List.length_cons] at h
      exact .hop hnext (ih (Nat.le_of_succ_le_succ h))

end Following
