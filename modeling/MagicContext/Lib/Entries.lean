import MagicContext.Lib.Table
import Mathlib.Data.Finset.Card

/-!
# Maps of entries

A map is a table of pairs keyed by their first component.  A value can be weighed, and the weights
of all entries add up to the load of the map; what `set` and `erase` do to a load is said without
subtraction, so that counters which follow it can be compared with it by arithmetic alone.

## What is here

* `Entries` — the map, with `find`, `set` and `erase`.
* `load` — the sum of a weight over the entries, and `load_set`, `load_erase`.
* `size` — how many entries satisfy a condition, as a load.
* `values` — the values as a multiset.
* `length` — how many entries there are, never more than there are keys to choose from.
-/

namespace MagicContext

open Table

/-- A finite map, its entries in the order in which they were set. -/
structure Entries (κ ν : Type) where
  table : Table fun e : κ × ν => e.1

namespace Entries

variable {κ ν : Type}

def empty : Entries κ ν := ⟨Table.empty⟩

def rows (m : Entries κ ν) : List (κ × ν) := m.table.rows

/-- The sum of a weight over the values. -/
def load (m : Entries κ ν) (f : ν → Nat) : Nat := m.table.total fun e => f e.2

/-- How many values satisfy a condition. -/
def size (m : Entries κ ν) (p : ν → Bool) : Nat := m.table.count fun e => p e.2

theorem size_eq_load (m : Entries κ ν) (p : ν → Bool) :
    m.size p = m.load fun v => if p v then 1 else 0 :=
  m.table.count_eq_total _

/-- How many entries there are. -/
def length (m : Entries κ ν) : Nat := m.rows.length

theorem length_eq_load (m : Entries κ ν) : m.length = m.load fun _ => 1 := by
  simp [length, rows, load, total]

variable [DecidableEq κ]

def find (m : Entries κ ν) (k : κ) : Option ν := (m.table.get k).map Prod.snd

def set (m : Entries κ ν) (k : κ) (v : ν) : Entries κ ν := ⟨m.table.put (k, v)⟩

def erase (m : Entries κ ν) (k : κ) : Entries κ ν :=
  ⟨m.table.delete fun e => decide (e.1 = k)⟩

@[simp] theorem find_empty (k : κ) : (empty : Entries κ ν).find k = none := rfl

variable {m : Entries κ ν} {k : κ} {v : ν}

theorem find_eq_some : m.find k = some v ↔ (k, v) ∈ m.rows := by
  rw [find, Option.map_eq_some_iff]
  constructor
  · rintro ⟨⟨k', v'⟩, hget, rfl⟩
    obtain ⟨hmem, hkey⟩ := get_eq_some.mp hget
    cases hkey
    exact hmem
  · intro hmem
    exact ⟨(k, v), get_eq_some.mpr ⟨hmem, rfl⟩, rfl⟩

theorem get_eq_of_find (h : m.find k = some v) : m.table.get k = some (k, v) :=
  get_eq_some.mpr ⟨find_eq_some.mp h, rfl⟩

theorem get_eq_none_of_find (h : m.find k = none) : m.table.get k = none :=
  Option.map_eq_none_iff.mp h

theorem find_set (m : Entries κ ν) (k k' : κ) (v : ν) :
    (m.set k v).find k' = if k = k' then some v else m.find k' := by
  rw [find, set, get_put]
  split <;> rfl

@[simp] theorem find_set_self (m : Entries κ ν) (k : κ) (v : ν) : (m.set k v).find k = some v := by
  rw [find_set, if_pos rfl]

theorem find_set_of_ne {k k' : κ} (h : k ≠ k') : (m.set k v).find k' = m.find k' := by
  rw [find_set, if_neg h]

theorem find_erase (m : Entries κ ν) (k k' : κ) :
    (m.erase k).find k' = if k = k' then none else m.find k' := by
  rw [find, erase, get_delete]
  cases hget : m.table.get k' with
  | none =>
    rw [find, hget]
    split <;> rfl
  | some e =>
    have hkey : e.1 = k' := (get_eq_some.mp hget).2
    rw [Option.filter_some, find, hget]
    by_cases hk : k = k'
    · simp [hkey, hk]
    · have hk' : k' ≠ k := fun h => hk h.symm
      simp [hkey, hk, hk']

@[simp] theorem find_erase_self (m : Entries κ ν) (k : κ) : (m.erase k).find k = none := by
  rw [find_erase, if_pos rfl]

theorem find_erase_of_ne {k k' : κ} (h : k ≠ k') : (m.erase k).find k' = m.find k' := by
  rw [find_erase, if_neg h]

/-- The later of two settings of a key counts. -/
@[simp] theorem set_set (m : Entries κ ν) (k : κ) (v v' : ν) :
    (m.set k v).set k v' = m.set k v' := by
  refine congrArg Entries.mk (ext ?_)
  simp only [set, put, ne_eq, decide_not, List.filter_append, List.filter_filter, Bool.and_self]
  simp

theorem set_erase (m : Entries κ ν) (k : κ) (v : ν) : (m.erase k).set k v = m.set k v := by
  refine congrArg Entries.mk (ext ?_)
  simp only [erase, delete, put, ne_eq, decide_not, List.filter_filter, Bool.and_self]

theorem erase_of_find (h : m.find k = none) : m.erase k = m := by
  refine congrArg Entries.mk (ext ?_)
  refine List.filter_eq_self.mpr fun e he => ?_
  simpa using get_eq_none.mp (get_eq_none_of_find h) e he

/-! ## Values -/

/-- The values, each as often as it is held. -/
def values (m : Entries κ ν) : Multiset ν := (m.rows.map Prod.snd : List ν)

theorem values_set (m : Entries κ ν) (k : κ) (v : ν) :
    (m.set k v).values = v ::ₘ (m.erase k).values := by
  have hrows : (m.set k v).rows = (m.erase k).rows ++ [(k, v)] := by
    simp only [set, erase, rows, put, delete, ne_eq, decide_not]
  rw [values, values, hrows, List.map_append, Multiset.cons_coe]
  exact Multiset.coe_eq_coe.mpr List.perm_append_comm

theorem values_erase (h : m.find k = some v) : m.values = v ::ₘ (m.erase k).values := by
  have hperm := perm_others m.table.unique (find_eq_some.mp h)
  rw [values, values, Multiset.cons_coe]
  refine Multiset.coe_eq_coe.mpr ((hperm.map Prod.snd).trans ?_)
  simp only [List.map_cons, erase, rows, delete, ne_eq, decide_not, List.Perm.refl]

/-! ## Loads -/

theorem load_set (m : Entries κ ν) (k : κ) (v : ν) (f : ν → Nat) :
    (m.set k v).load f + ((m.find k).map f).getD 0 = m.load f + f v := by
  cases h : m.find k with
  | none =>
    exact total_put_of_none (t := m.table) (r := (k, v)) (get_eq_none_of_find h) fun e => f e.2
  | some old =>
    exact total_put_of_some (t := m.table) (r := (k, v)) (get_eq_of_find h) fun e => f e.2

theorem load_erase (m : Entries κ ν) (k : κ) (f : ν → Nat) :
    (m.erase k).load f + ((m.find k).map f).getD 0 = m.load f := by
  cases h : m.find k with
  | none =>
    rw [erase_of_find h]
    rfl
  | some old => exact total_delete (t := m.table) (get_eq_of_find h) fun e => f e.2

theorem le_load (h : m.find k = some v) (f : ν → Nat) : f v ≤ m.load f := by
  have := load_erase m k f
  rw [h] at this
  simp only [Option.map_some, Option.getD_some] at this
  omega

/-! ## Length -/

theorem length_set (m : Entries κ ν) (k : κ) (v : ν) :
    (m.set k v).length = if (m.find k).isSome then m.length else m.length + 1 := by
  have h := load_set m k v fun _ => 1
  rw [length_eq_load, length_eq_load]
  cases hfind : m.find k <;> simp_all

theorem length_erase_le (m : Entries κ ν) (k : κ) : (m.erase k).length ≤ m.length := by
  have h := load_erase m k fun _ => 1
  rw [length_eq_load, length_eq_load]
  omega

/-- A map whose keys are all in `S` has no more entries than `S` has elements. -/
theorem length_le_card {S : Finset κ} (h : ∀ k, (m.find k).isSome → k ∈ S) : m.length ≤ S.card := by
  have hkeys : (m.table.rows.map fun e => e.1).toFinset ⊆ S := by
    intro k hk
    obtain ⟨⟨_, v⟩, hmem, rfl⟩ := List.mem_map.mp (List.mem_toFinset.mp hk)
    exact h _ (Option.isSome_of_eq_some (find_eq_some.mpr hmem))
  have hcard := Finset.card_le_card hkeys
  rwa [List.toFinset_card_of_nodup m.table.unique, List.length_map] at hcard

end Entries

end MagicContext
