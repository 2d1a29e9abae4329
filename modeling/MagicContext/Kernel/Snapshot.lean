import Mathlib.Data.List.Sort
import MagicContext.Kernel.Store

/-!
# Snapshots

A reader names a commit and sees the store as it was when that commit was the last.  Rows created
later are left out, and an end or a successor that came later is masked.

## What is here

* `readSnapshot` — the check every snapshot reader makes.
* `knownAsOf` — the objects of a snapshot.
-/

namespace MagicContext.Kernel

structure KnownAsOf where
  knownAsOf : Int
  tip : Nat
  objects : List ObjectRow

/-- `read_snapshot`: the tip with what was read. -/
def readSnapshot {α : Type} (requested : Int) (read : Db → Except KernelError α) (db : Db) :
    Except KernelError (Nat × α) :=
  if requested < 0 then .error .invalidInput
  else if (db.tip : Int) < requested then .error .futureSnapshot
  else (read db).map fun a => (db.tip, a)

/-- `ORDER BY object_id`. -/
def orderByObjectId (rows : List ObjectRow) : List ObjectRow :=
  rows.insertionSort fun r r' => r.objectId ≤ r'.objectId

variable (requested : Int)

def snapshot (rows : Db → List ObjectRow) (db : Db) : Except KernelError KnownAsOf :=
  (readSnapshot requested (fun db => .ok (orderByObjectId (rows db))) db).map
    fun (tip, objects) => ⟨requested, tip, objects⟩

/-- The row was there at the snapshot, and had not ended. -/
def Lifetime.liveAsOf (l : Lifetime) : Bool :=
  decide ((l.createdCommitSeq : Int) ≤ requested) &&
    l.invalidatedCommitSeq.all fun seq => decide (requested < (seq : Int))

/-- `known_as_of`: the live objects of a snapshot. -/
def knownAsOf (db : Db) : Except KernelError KnownAsOf :=
  snapshot requested (fun db => (db.registry.select fun r => r.liveAsOf requested).map fun r =>
    { r with invalidatedCommitSeq := none, supersededBy := none }) db

/-- A live object without a successor is known at every snapshot since it was created. -/
theorem mem_knownAsOf {requested : Int} {db : Db} {r : ObjectRow} (hr : r ∈ db.registry)
    (hlive : r.invalidatedCommitSeq = none) (hcurrent : r.supersededBy = none)
    (hcreated : (r.createdCommitSeq : Int) ≤ requested) (htip : requested ≤ db.tip) :
    ∃ known, knownAsOf requested db = .ok known ∧ r ∈ known.objects := by
  have hnonneg : ¬ requested < 0 := by omega
  refine ⟨_, by rw [knownAsOf, snapshot, readSnapshot, if_neg hnonneg, if_neg (by omega)]; rfl, ?_⟩
  refine (List.mem_insertionSort _).mpr (List.mem_map.mpr ⟨r, ?_, ?_⟩)
  · refine Table.mem_select.mpr ⟨hr, ?_⟩
    rw [Lifetime.liveAsOf, hlive, decide_eq_true hcreated]
    rfl
  · obtain ⟨⟨id, created, invalidated, superseded⟩, kind⟩ := r
    subst hlive hcurrent
    rfl

end MagicContext.Kernel
