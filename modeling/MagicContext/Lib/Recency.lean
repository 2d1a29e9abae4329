import MagicContext.Lib.Table

/-!
# Tables in the order of their use

The rows of a table have weights, and their sum stays within a budget: when a new row does not fit,
the rows that were used longest ago make room.  That every row is listed once in the order of use,
and that the rows fit, are fields, so a table that breaks either cannot be built.

## What is here

* `Listed` — an order lists every key of a table once.
* `makeRoom` — rows are dropped in order until the others fit.
* `Recency` — the table, with `remove`, `touch` and `put`.
* `get_put` — what is there beside a new row was there before.
-/

namespace MagicContext

open Table

variable {ρ κ : Type} {key : ρ → κ}

/-! ## Orders -/

/-- The order lists every key of the table once. -/
def Listed (t : Table key) (order : List κ) : Prop := order.Perm (t.rows.map key)

variable {t : Table key} {order : List κ}

theorem Listed.nodup (h : Listed t order) : order.Nodup :=
  h.nodup_iff.mpr t.unique

variable [DecidableEq κ]

/-- The rows without the one of a key. -/
def without (t : Table key) (k : κ) : Table key := t.delete fun r => decide (key r = k)

/-- The order without a key. -/
def others (order : List κ) (k : κ) : List κ := order.filter fun k' => decide (k' ≠ k)

theorem get_without {k k' : κ} : (without t k).get k' = if k' = k then none else t.get k' := by
  rw [without, get_delete]
  rcases h : t.get k' with _ | r
  · simp
  · obtain ⟨-, rfl⟩ := get_eq_some.mp h
    by_cases hk : key r = k <;> simp [hk]

variable {k : κ}

/-- Nothing goes when there is no row of the key. -/
theorem without_of_none (h : t.get k = none) : without t k = t := by
  refine ext (List.filter_eq_self.mpr fun r hr => ?_)
  simpa using get_eq_none.mp h r hr

namespace Listed

theorem mem_iff (h : Listed t order) : k ∈ order ↔ (t.get k).isSome := by
  rw [List.Perm.mem_iff h, isSome_get, List.mem_map]
  rfl

theorem without (h : Listed t order) (k : κ) : Listed (without t k) (others order k) := by
  have hfilter := List.Perm.filter (fun k' => decide (k' ≠ k)) h
  rw [List.filter_map] at hfilter
  simpa [Listed, others, MagicContext.without, delete, Function.comp_def] using hfilter

/-- The first of the order goes with its row. -/
theorem tail (h : Listed t (k :: order)) : Listed (MagicContext.without t k) order := by
  have hself : others (k :: order) k = order := by
    have hk := (List.nodup_cons.mp h.nodup).1
    rw [others, List.filter_cons_of_neg (by simp), List.filter_eq_self]
    exact fun k' hk' => decide_eq_true fun heq => hk (heq ▸ hk')
  rw [← hself]
  exact h.without k

/-- A new row comes last. -/
theorem put (h : Listed t order) {r : ρ} (hr : t.get (key r) = none) :
    Listed (t.put r) (order ++ [key r]) := by
  have hself : t.rows.filter (fun r' => decide (key r' ≠ key r)) = t.rows :=
    List.filter_eq_self.mpr fun r' hr' => decide_eq_true (get_eq_none.mp hr r' hr')
  have hrows : (t.put r).rows = t.rows ++ [r] := congrArg (· ++ [r]) hself
  rw [Listed, hrows, List.map_append]
  exact List.Perm.append_right _ h

/-- A key that is used moves to the end. -/
theorem touch (h : Listed t order) (hk : k ∈ order) : Listed t (others order k ++ [k]) := by
  refine List.Perm.trans ?_ h
  have hrest : order.erase k = others order k := by
    rw [h.nodup.erase_eq_filter, others]
    exact List.filter_congr fun k' _ => by simp [bne, beq_eq_decide]
  rw [← hrest]
  exact (List.perm_append_singleton _ _).trans (List.perm_cons_erase hk).symm

end Listed

/-! ## Making room -/

/-- Drops rows in order until the others fit. -/
def makeRoom (weight : ρ → Nat) (budget : Nat) : Table key → List κ → Table key × List κ
  | t, [] => (t, [])
  | t, k :: order =>
    if t.total weight ≤ budget then (t, k :: order) else makeRoom weight budget (without t k) order

variable {weight : ρ → Nat} {budget : Nat}

theorem listed_makeRoom (h : Listed t order) :
    Listed (makeRoom weight budget t order).1 (makeRoom weight budget t order).2 := by
  induction order generalizing t with
  | nil => exact h
  | cons k order ih =>
    rw [makeRoom]
    split
    · exact h
    · exact ih h.tail

theorem makeRoom_fits (h : Listed t order) :
    (makeRoom weight budget t order).1.total weight ≤ budget := by
  induction order generalizing t with
  | nil =>
    have hrows : t.rows = [] := List.map_eq_nil_iff.mp h.nil_eq.symm
    simp [makeRoom, total, hrows]
  | cons k order ih =>
    rw [makeRoom]
    split
    · assumption
    · exact ih h.tail

/-- A row that stays is one of before. -/
theorem get_of_get_makeRoom {r : ρ} (h : (makeRoom weight budget t order).1.get k = some r) :
    t.get k = some r := by
  induction order generalizing t with
  | nil => exact h
  | cons k' order ih =>
    rw [makeRoom] at h
    split at h
    · exact h
    · have hleft := ih h
      rw [get_without] at hleft
      split at hleft
      · cases hleft
      · exact hleft

/-! ## The table -/

/-- **A table in the order of its use**, within a budget. -/
structure Recency {ρ κ : Type} (key : ρ → κ) (weight : ρ → Nat) (budget : Nat) where
  table : Table key
  order : List κ
  listed : Listed table order
  fits : table.total weight ≤ budget

namespace Recency

def empty : Recency key weight budget where
  table := Table.empty
  order := []
  listed := List.Perm.nil
  fits := Nat.zero_le _

/-- The weight goes down with a row. -/
theorem total_without_le (t : Table key) (k : κ) : (without t k).total weight ≤ t.total weight := by
  rcases h : t.get k with _ | r
  · exact Nat.le_of_eq (by rw [without_of_none h])
  · have hsum := total_delete h weight
    rw [without]
    omega

/-- Removes the row of a key. -/
def remove (s : Recency key weight budget) (k : κ) : Recency key weight budget where
  table := without s.table k
  order := others s.order k
  listed := s.listed.without k
  fits := Nat.le_trans (total_without_le s.table k) s.fits

/-- Uses the row of a key. -/
def touch (s : Recency key weight budget) (k : κ) : Recency key weight budget :=
  if h : k ∈ s.order then
    { s with
      order := others s.order k ++ [k]
      listed := s.listed.touch h }
  else s

section
variable (s : Recency key weight budget)
include s

theorem get_remove_self (k : κ) : (s.remove k).table.get k = none := by
  rw [remove, get_without, if_pos rfl]

/-- The table and the order with a row put last, before room is made for it. -/
def crowded (s : Recency key weight budget) (r : ρ) : Table key × List κ :=
  ((s.remove (key r)).table.put r, (s.remove (key r)).order ++ [key r])

theorem listed_crowded (r : ρ) : Listed (s.crowded r).1 (s.crowded r).2 :=
  (s.remove (key r)).listed.put (s.get_remove_self (key r))

theorem total_crowded (r : ρ) :
    (s.crowded r).1.total weight = (s.remove (key r)).table.total weight + weight r :=
  total_put_of_none (s.get_remove_self (key r)) weight

/-- Puts a row in the place of the one with its key, and makes room for it.  A row that does not
fit by itself only loses its place. -/
def put (s : Recency key weight budget) (r : ρ) : Recency key weight budget :=
  if weight r ≤ budget then
    { table := (makeRoom weight budget (s.crowded r).1 (s.crowded r).2).1
      order := (makeRoom weight budget (s.crowded r).1 (s.crowded r).2).2
      listed := listed_makeRoom (s.listed_crowded r)
      fits := makeRoom_fits (s.listed_crowded r) }
  else s.remove (key r)

@[simp] theorem touch_table (k : κ) : (s.touch k).table = s.table := by
  rw [touch]
  split <;> rfl

end

theorem get_remove {s : Recency key weight budget} {k k' : κ} {r : ρ}
    (h : (s.remove k).table.get k' = some r) : k' ≠ k ∧ s.table.get k' = some r := by
  rw [remove, get_without] at h
  split at h
  · cases h
  · rename_i hne
    exact ⟨hne, h⟩

/-- **What is there after a row was put**: that row, or rows of other keys. -/
theorem get_put {s : Recency key weight budget} {r r' : ρ} (h : (s.put r).table.get k = some r') :
    k = key r ∧ r' = r ∨ k ≠ key r ∧ s.table.get k = some r' := by
  rw [put] at h
  split at h
  · have hput := get_of_get_makeRoom h
    rw [crowded, Table.get_put] at hput
    split at hput
    · rename_i hk
      exact Or.inl ⟨hk.symm, (Option.some_inj.mp hput).symm⟩
    · exact Or.inr (get_remove hput)
  · exact Or.inr (get_remove h)

end Recency

end MagicContext
