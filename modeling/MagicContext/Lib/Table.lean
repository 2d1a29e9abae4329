import Mathlib.Algebra.Ring.Nat
import Mathlib.Data.List.Nodup

/-!
# Tables with a primary key

A table is a list of rows, in the order they were inserted, no two of which have the same key.
The key function is a parameter of the type and the uniqueness of keys is a field, so a table that
breaks its primary key cannot be built.

## What is here

* `Table` — the rows, with `get`, `insert`, `update`, `delete` and `count`.
* How `get` sees each of these, and which rows each leaves.
* `total` — the sum of a number over the rows, and what the operations do to it.
-/


/-- Rows with pairwise different keys. -/
structure Table {ρ κ : Type} (key : ρ → κ) where
  rows : List ρ
  unique : (rows.map key).Nodup

namespace Table

variable {ρ κ : Type} {key : ρ → κ}

def empty : Table key := ⟨[], List.nodup_nil⟩

instance : Membership ρ (Table key) := ⟨fun t r => r ∈ t.rows⟩

variable {t t' : Table key} {r r' : ρ} {p : ρ → Bool} {k : κ}

theorem mem_rows : r ∈ t ↔ r ∈ t.rows := Iff.rfl

@[ext] theorem ext (h : t.rows = t'.rows) : t = t' := by
  cases t
  cases t'
  cases h
  rfl

/-- Two rows of a table with one key are one row. -/
theorem eq_of_key (hr : r ∈ t) (hr' : r' ∈ t) (h : key r = key r') : r = r' :=
  List.inj_on_of_nodup_map t.unique hr hr' h

/-- Some row satisfies `p`. -/
def any (t : Table key) (p : ρ → Bool) : Bool := t.rows.any p

/-- The rows that satisfy `p`, oldest first. -/
def select (t : Table key) (p : ρ → Bool) : List ρ := t.rows.filter p

/-- How many rows satisfy `p`. -/
def count (t : Table key) (p : ρ → Bool) : Nat := t.rows.countP p

theorem any_iff : t.any p = true ↔ ∃ r ∈ t, p r = true :=
  List.any_eq_true

theorem any_eq_false : t.any p = false ↔ ∀ r ∈ t, p r = false := by
  rw [any, List.any_eq_false]
  exact forall₂_congr fun r _ => Bool.eq_false_iff.symm

theorem mem_select : r ∈ t.select p ↔ r ∈ t ∧ p r = true :=
  List.mem_filter

theorem count_pos : 0 < t.count p ↔ ∃ r ∈ t, p r = true :=
  List.countP_pos_iff

/-! ## Lookup -/

section Lookup
variable [DecidableEq κ]

/-- The row with key `k`. -/
def get (t : Table key) (k : κ) : Option ρ := t.rows.find? fun r => decide (key r = k)

theorem get_eq_some : t.get k = some r ↔ r ∈ t ∧ key r = k := by
  constructor
  · intro h
    refine ⟨List.mem_of_find?_eq_some h, ?_⟩
    simpa using List.find?_some (p := fun r => decide (key r = k)) h
  · rintro ⟨hr, rfl⟩
    rcases h : t.get (key r) with _ | r'
    · have := List.find?_eq_none.mp h r hr
      simp at this
    · have hr' := List.mem_of_find?_eq_some h
      have hkey : key r' = key r := by
        simpa using List.find?_some (p := fun r' => decide (key r' = key r)) h
      rw [eq_of_key hr' hr hkey]

theorem get_eq_none : t.get k = none ↔ ∀ r ∈ t, key r ≠ k := by
  rw [get, List.find?_eq_none]
  exact forall₂_congr fun r _ => not_congr decide_eq_true_iff

theorem get_key (h : r ∈ t) : t.get (key r) = some r :=
  get_eq_some.mpr ⟨h, rfl⟩

theorem isSome_get : (t.get k).isSome ↔ ∃ r ∈ t, key r = k := by
  rw [Option.isSome_iff_exists]
  simp only [get_eq_some]

end Lookup

/-! ## Insertion -/

section Insert
variable [DecidableEq κ]

/-- Adds a row at the end, unless its key is taken. -/
def insert (t : Table key) (r : ρ) : Option (Table key) :=
  if h : key r ∈ t.rows.map key then none
  else some
    { rows := t.rows ++ [r]
      unique := by
        rw [List.map_append, List.map_cons, List.map_nil]
        exact List.nodup_append.mpr ⟨t.unique, List.nodup_singleton _, fun k hk k' hk' heq =>
          h (List.mem_singleton.mp hk' ▸ heq ▸ hk)⟩ }

theorem insert_eq_some : t.insert r = some t' ↔ t.get (key r) = none ∧ t'.rows = t.rows ++ [r] := by
  rw [insert]
  have hmem : key r ∈ t.rows.map key ↔ t.get (key r) ≠ none := by
    rw [← Option.isSome_iff_ne_none, isSome_get, List.mem_map]
    rfl
  split
  · rename_i h
    exact iff_of_false (by simp) fun h' => hmem.mp h h'.1
  · rename_i h
    rw [Option.some_inj]
    constructor
    · rintro rfl
      exact ⟨not_not.mp fun hne => h (hmem.mpr hne), rfl⟩
    · rintro ⟨-, hrows⟩
      exact ext hrows.symm

theorem insert_isSome (h : t.get (key r) = none) : ∃ t', t.insert r = some t' := by
  rw [insert, dif_neg]
  · exact ⟨_, rfl⟩
  · intro hmem
    obtain ⟨r', hr', hkey⟩ := List.mem_map.mp hmem
    exact get_eq_none.mp h r' hr' hkey

theorem mem_insert (h : t.insert r = some t') : r' ∈ t' ↔ r' ∈ t ∨ r' = r := by
  rw [mem_rows, (insert_eq_some.mp h).2, List.mem_append, List.mem_singleton, mem_rows]

theorem get_insert (h : t.insert r = some t') (k : κ) :
    t'.get k = if key r = k then some r else t.get k := by
  rw [get, (insert_eq_some.mp h).2, List.find?_append]
  have hnone := (insert_eq_some.mp h).1
  split
  · rename_i hk
    subst hk
    change (t.get (key r)).or _ = _
    rw [hnone]
    simp
  · rename_i hk
    change (t.get k).or _ = _
    simp [hk]

end Insert

/-! ## Updates and deletions -/

/-- Rewrites the rows that satisfy `p`, which keep their keys. -/
def update (t : Table key) (p : ρ → Bool) (f : ρ → ρ) (hf : ∀ r, key (f r) = key r) :
    Table key where
  rows := t.rows.map fun r => if p r then f r else r
  unique := by
    rw [List.map_map]
    have heq : (key ∘ fun r => if p r then f r else r) = key := by
      funext r
      simp only [Function.comp_apply]
      split
      · exact hf r
      · rfl
    rw [heq]
    exact t.unique

variable {f : ρ → ρ} {hf : ∀ r, key (f r) = key r}

theorem mem_update : r' ∈ t.update p f hf ↔ ∃ r ∈ t, r' = if p r then f r else r := by
  rw [mem_rows, update, List.mem_map]
  exact exists_congr fun r => and_congr Iff.rfl eq_comm

/-- A row an update does not touch stays as it is. -/
theorem mem_update_of_not (hr : r ∈ t) (hp : p r = false) : r ∈ t.update p f hf :=
  mem_update.mpr ⟨r, hr, by rw [hp]; rfl⟩

theorem get_update [DecidableEq κ] (k : κ) :
    (t.update p f hf).get k = (t.get k).map fun r => if p r then f r else r := by
  rcases h : t.get k with _ | r
  · rw [get_eq_none] at h
    rw [Option.map_none, get_eq_none]
    intro r' hr'
    obtain ⟨r, hr, rfl⟩ := mem_update.mp hr'
    split
    · rw [hf]
      exact h r hr
    · exact h r hr
  · obtain ⟨hr, rfl⟩ := get_eq_some.mp h
    rw [Option.map_some, get_eq_some]
    refine ⟨mem_update.mpr ⟨r, hr, rfl⟩, ?_⟩
    split
    · exact hf r
    · rfl

/-- An update that matches no row changes nothing. -/
theorem update_of_count_eq_zero (h : t.count p = 0) : t.update p f hf = t := by
  apply ext
  change t.rows.map _ = t.rows
  rw [List.map_congr_left, List.map_id]
  intro r hr
  rw [if_neg (List.countP_eq_zero.mp h r hr)]
  rfl

/-- Removes the rows that satisfy `p`. -/
def delete (t : Table key) (p : ρ → Bool) : Table key where
  rows := t.rows.filter fun r => !p r
  unique := t.unique.sublist (List.filter_sublist.map key)

theorem mem_delete : r ∈ t.delete p ↔ r ∈ t ∧ p r = false := by
  rw [mem_rows, delete, List.mem_filter, Bool.not_eq_true']
  rfl

/-! ## Replacement -/

section Put
variable [DecidableEq κ]

/-- Adds a row in the place of the one with its key, if there is one. -/
def put (t : Table key) (r : ρ) : Table key where
  rows := (t.rows.filter fun r' => decide (key r' ≠ key r)) ++ [r]
  unique := by
    rw [List.map_append, List.map_cons, List.map_nil]
    refine List.nodup_append.mpr
      ⟨t.unique.sublist (List.filter_sublist.map key), List.nodup_singleton _, ?_⟩
    intro k hk k' hk' heq
    obtain ⟨r', hr', rfl⟩ := List.mem_map.mp hk
    rw [List.mem_singleton.mp hk'] at heq
    simpa [heq] using List.of_mem_filter hr'

theorem mem_put : r' ∈ t.put r ↔ (r' ∈ t ∧ key r' ≠ key r) ∨ r' = r := by
  rw [mem_rows, put, List.mem_append, List.mem_singleton, List.mem_filter, decide_eq_true_iff]
  rfl

theorem get_put (k : κ) : (t.put r).get k = if key r = k then some r else t.get k := by
  split
  · rename_i hk
    exact get_eq_some.mpr ⟨mem_put.mpr (Or.inr rfl), hk⟩
  · rename_i hk
    rcases h : t.get k with _ | r'
    · rw [get_eq_none] at h ⊢
      intro r' hr'
      rcases mem_put.mp hr' with ⟨hr', -⟩ | rfl
      · exact h r' hr'
      · exact hk
    · obtain ⟨hr', rfl⟩ := get_eq_some.mp h
      exact get_eq_some.mpr ⟨mem_put.mpr (Or.inl ⟨hr', fun heq => hk heq.symm⟩), rfl⟩

end Put

theorem get_delete [DecidableEq κ] (k : κ) :
    (t.delete p).get k = (t.get k).filter fun r => !p r := by
  rcases h : t.get k with _ | r
  · rw [get_eq_none] at h
    rw [Option.filter_none, get_eq_none]
    exact fun r hr => h r (mem_delete.mp hr).1
  · obtain ⟨hr, rfl⟩ := get_eq_some.mp h
    rcases hp : p r
    · rw [Option.filter_some, hp]
      exact get_key (mem_delete.mpr ⟨hr, hp⟩)
    · rw [Option.filter_some, hp]
      refine get_eq_none.mpr fun r' hr' heq => ?_
      obtain ⟨hr', hp'⟩ := mem_delete.mp hr'
      rw [eq_of_key hr' hr heq, hp] at hp'
      cases hp'

/-! ## Totals -/

/-- The sum of a number over the rows. -/
def total (t : Table key) (f : ρ → Nat) : Nat := (t.rows.map f).sum

theorem total_congr {f g : ρ → Nat} (h : ∀ r ∈ t, f r = g r) : t.total f = t.total g :=
  congrArg List.sum (List.map_congr_left h)

theorem count_eq_total (t : Table key) (p : ρ → Bool) :
    t.count p = t.total fun r => if p r then 1 else 0 := by
  rw [count, total]
  induction t.rows with
  | nil => rfl
  | cons r rows ih =>
    rw [List.countP_cons, List.map_cons, List.sum_cons, ih, Nat.add_comm]

section TotalOf
variable [DecidableEq κ]

/-- The rows are one of them and those with other keys. -/
theorem perm_others {rows : List ρ} (hrows : (rows.map key).Nodup) (hr : r ∈ rows) :
    rows.Perm (r :: rows.filter fun r' => decide (key r' ≠ key r)) := by
  induction rows with
  | nil => cases hr
  | cons x rows ih =>
    rw [List.map_cons, List.nodup_cons] at hrows
    obtain ⟨hx, hnodup⟩ := hrows
    rcases List.mem_cons.mp hr with rfl | hmem
    · have hself : rows.filter (fun r' => decide (key r' ≠ key r)) = rows := by
        refine List.filter_eq_self.mpr fun r' hr' => decide_eq_true fun heq => hx ?_
        exact heq ▸ List.mem_map_of_mem hr'
      rw [List.filter_cons_of_neg (by simp), hself]
    · have hne : key x ≠ key r := fun heq => hx (heq ▸ List.mem_map_of_mem hmem)
      rw [List.filter_cons_of_pos (by simpa using hne)]
      exact ((ih hnodup hmem).cons x).trans (List.Perm.swap ..)

theorem sum_others {rows : List ρ} (hrows : (rows.map key).Nodup) (hr : r ∈ rows) (f : ρ → Nat) :
    (rows.map f).sum = f r + ((rows.filter fun r' => decide (key r' ≠ key r)).map f).sum := by
  rw [((perm_others hrows hr).map f).sum_nat, List.map_cons, List.sum_cons]

theorem total_put_of_some {r old : ρ} (h : t.get (key r) = some old) (f : ρ → Nat) :
    (t.put r).total f + f old = t.total f + f r := by
  obtain ⟨hmem, hkey⟩ := get_eq_some.mp h
  rw [total, total, sum_others t.unique hmem f, put, List.map_append, List.sum_append, hkey]
  simp only [List.map_cons, List.map_nil, List.sum_cons, List.sum_nil]
  omega

theorem total_put_of_none (h : t.get (key r) = none) (f : ρ → Nat) :
    (t.put r).total f = t.total f + f r := by
  have hself : t.rows.filter (fun r' => decide (key r' ≠ key r)) = t.rows :=
    List.filter_eq_self.mpr fun r' hr' => decide_eq_true (get_eq_none.mp h r' hr')
  rw [total, total, put, List.map_append, List.sum_append, hself]
  simp

theorem total_delete {old : ρ} (h : t.get k = some old) (f : ρ → Nat) :
    (t.delete fun r => decide (key r = k)).total f + f old = t.total f := by
  obtain ⟨hmem, rfl⟩ := get_eq_some.mp h
  rw [total, total, sum_others t.unique hmem f, delete, Nat.add_comm]
  simp only [decide_not]

end TotalOf

end Table
