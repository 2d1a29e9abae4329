import Mathlib.Data.List.Dedup
import MagicContext.Claims.Authority
import MagicContext.Notes.Store

/-!
# Deliveries of smart notes

A note that is ready is delivered to every session of its project.  Its status belongs to the
project; a delivery belongs to a session, to the fingerprint of what the pass rendered and to the
pass, and is open until the host acknowledges or refuses the pass.

## What is here

* `NoteDelivery`, `DeliveryRow`, `Store` — deliveries beside the notes.
* `claimNoteDelivery`, `ackNoteDelivery`, `nackNoteDelivery` — the calls.
* `Event`, `State.step`, `run` — calls in any order, among edits of the notes.
-/

namespace MagicContext.Notes

open Claims (StoreError)

/-! ## Rows -/

inductive Disposition where
  | acked | nacked | superseded

structure NoteDelivery where
  deliveryId : String
  noteId : Nat
  sessionId : String
  deliveredPassFingerprint : String
  transformPassId : String
  ackedAt : Option Int

structure DeliveryRow extends NoteDelivery where
  createdAtMs : Int
  projectPath : String
  disposition : Option Disposition

def DeliveryRow.key (d : DeliveryRow) : String := d.deliveryId

structure Store where
  notes : Notes := .empty
  deliveries : Table DeliveryRow.key := .empty

variable (projectPath : String)

/-- Two session ids or projects cannot run together in it. -/
def deliveryId (sessionId transformPassId : String) (noteId : Nat) : String :=
  toString projectPath.utf8ByteSize ++ ":" ++ projectPath ++ ":" ++ toString sessionId.utf8ByteSize ++
    ":" ++ sessionId ++ ":" ++ transformPassId ++ ":" ++ toString noteId

namespace DeliveryRow

def isOpen (d : DeliveryRow) : Bool := d.disposition.isNone

/-- An open delivery of a note to a session. -/
def opens (projectPath sessionId : String) (noteId : Nat) (d : DeliveryRow) : Bool :=
  d.isOpen && decide (d.projectPath = projectPath ∧ d.sessionId = sessionId ∧ d.noteId = noteId)

/-- An open delivery of a pass. -/
def ofPass (projectPath sessionId transformPassId : String) (d : DeliveryRow) : Bool :=
  d.isOpen && decide (d.projectPath = projectPath ∧ d.sessionId = sessionId ∧
    d.transformPassId = transformPassId)

end DeliveryRow

/-! ## Claims -/

/-- The smart notes of a project that may be delivered, in the order of their last update. -/
def due (notes : Notes) : List Note :=
  (notes.rows.select fun n => decide (n.projectPath = projectPath ∧ n.type = .smart ∧
    (n.status = .ready ∨ n.status = .surfacing ∨ n.status = .surfaced))).mergeSort fun a b =>
      decide (a.updatedAtMs < b.updatedAtMs ∨ (a.updatedAtMs = b.updatedAtMs ∧ a.id ≤ b.id))

/-- What a claim carries. -/
structure Pass where
  projectPath : String
  sessionId : String
  fingerprint : String
  passId : String
  nowMs : Int

namespace Pass

variable (pass : Pass)

def newRow (noteId : Nat) : DeliveryRow where
  deliveryId := deliveryId pass.projectPath pass.sessionId pass.passId noteId
  noteId := noteId
  sessionId := pass.sessionId
  deliveredPassFingerprint := pass.fingerprint
  transformPassId := pass.passId
  ackedAt := none
  createdAtMs := pass.nowMs
  projectPath := pass.projectPath
  disposition := none

/-- The delivery of a note under the fingerprint of the pass, if it is open. -/
def existing (note : Note) (s : Store) : Option DeliveryRow :=
  (s.deliveries.select fun d => d.opens pass.projectPath pass.sessionId note.id &&
    decide (d.deliveredPassFingerprint = pass.fingerprint)).head?

/-- The row is still as the claim has read it. -/
def asRead (note n : Note) : Bool :=
  decide (n.projectPath = pass.projectPath ∧ n.status = .ready ∧
    n.statusVersion = note.statusVersion)

/-- A ready note is surfacing from its first claim on. -/
def surfacing (note : Note) (notes : Notes) : Notes :=
  notes.updateRow note.id (pass.asRead note) fun n =>
    { n.touched pass.nowMs with status := .surfacing }

/-- A new delivery, under the constraints of the table. -/
def record (note : Note) (s : Store) : Except StoreError (Option (Note × NoteDelivery) × Store) :=
  let notes := if note.status = .ready then pass.surfacing note s.notes else s.notes
  let row := pass.newRow note.id
  if s.deliveries.any fun d => decide (d.noteId = note.id ∧ d.sessionId = pass.sessionId ∧
      d.deliveredPassFingerprint = pass.fingerprint) then .error .constraint
  else
    match s.deliveries.insert row, notes.get note.id with
    | none, _ => .error .constraint
    | _, none => .error .noRows
    | some deliveries, some stored => .ok (some (stored, row.toNoteDelivery), ⟨notes, deliveries⟩)

def claimNote (note : Note) (s : Store) : Except StoreError (Option (Note × NoteDelivery) × Store) :=
  let unacked := s.deliveries.any (DeliveryRow.opens pass.projectPath pass.sessionId note.id)
  if note.status = .surfaced ∧ unacked = false then .ok (none, s)
  else
    match pass.existing note s with
    | some d => .ok (if d.ackedAt.isNone then some (note, d.toNoteDelivery) else none, s)
    | none =>
      if note.status = .ready ∧ (s.notes.get note.id).any (pass.asRead note) = false then .ok (none, s)
      else pass.record note s

def claimNotes : List Note → Store → Except StoreError (List (Note × NoteDelivery) × Store)
  | [], s => .ok ([], s)
  | note :: rest, s =>
    match pass.claimNote note s with
    | .error e => .error e
    | .ok (hit, s) =>
      match claimNotes rest s with
      | .error e => .error e
      | .ok (hits, s) => .ok (hit.toList ++ hits, s)

end Pass

def claimNoteDelivery (pass : Pass) (s : Store) :
    Except StoreError (List (Note × NoteDelivery) × Store) :=
  pass.claimNotes (due pass.projectPath s.notes) s

/-! ## Acknowledgements -/

/-- The notes that a pass has open deliveries of. -/
def deliveredNotes (sessionId passId : String) (s : Store) : List Nat :=
  ((s.deliveries.select (DeliveryRow.ofPass projectPath sessionId passId)).map
    fun d => d.noteId).dedup

/-- The deliveries that satisfy `p` get a disposition. -/
def dispose (p : DeliveryRow → Bool) (disposition : Disposition) (ackedAt : Option Int)
    (t : Table DeliveryRow.key) : Table DeliveryRow.key :=
  t.update p
    (fun d => { d with
      disposition := some disposition
      ackedAt := ackedAt.or d.ackedAt })
    fun _ => rfl

/-- Notes that are surfacing or surfaced get another status. -/
def setStatus (status : NoteStatus) (now : Int) (ids : List Nat) (notes : Notes) : Notes :=
  ids.foldl (fun notes id => notes.updateRow id
    (fun n => decide (n.projectPath = projectPath ∧ (n.status = .surfacing ∨ n.status = .surfaced)))
    fun n => { n.touched now with status }) notes

/-- The acknowledged pass closes the other deliveries of its notes to the session. -/
def ackNoteDelivery (sessionId passId : String) (now : Int) (s : Store) : Nat × Store :=
  let mine := DeliveryRow.ofPass projectPath sessionId passId
  let ids := deliveredNotes projectPath sessionId passId s
  let deliveries := dispose mine .acked (some now) s.deliveries
  (s.deliveries.count mine,
    { notes := setStatus projectPath .surfaced now ids s.notes
      deliveries := ids.foldl (fun t id =>
        dispose (DeliveryRow.opens projectPath sessionId id) .superseded none t) deliveries })

/-- A pass that is refused gives its notes back. -/
def nackNoteDelivery (sessionId passId : String) (now : Int) (s : Store) : Nat × Store :=
  let mine := DeliveryRow.ofPass projectPath sessionId passId
  let ids := deliveredNotes projectPath sessionId passId s
  (s.deliveries.count mine,
    { notes := setStatus projectPath .ready now ids s.notes
      deliveries := dispose mine .nacked none s.deliveries })

/-! ## Runs -/

inductive Event where
  | edit (e : Edit)
  | claim (pass : Pass)
  | ack (projectPath sessionId passId : String) (now : Int)
  | nack (projectPath sessionId passId : String) (now : Int)

structure State where
  store : Store := {}
  /-- The sessions that have acknowledged a note since an evaluation made it ready. -/
  acknowledged : List (String × Nat) := []

/-- An edit, which is then an evaluation, has made the note ready. -/
def becomesReady (before after : Notes) (id : Nat) : Bool :=
  (before.get id).any (fun n => decide (n.status = .pending)) &&
    (after.get id).any fun n => decide (n.status = .ready)

namespace State

def step (s : State) : Event → State
  | .edit e =>
    { store := { s.store with notes := s.store.notes.apply e }
      acknowledged := s.acknowledged.filter fun p =>
        !becomesReady s.store.notes (s.store.notes.apply e) p.2 }
  | .claim pass =>
    match claimNoteDelivery pass s.store with
    | .error _ => s
    | .ok (_, store) => { s with store }
  | .ack project session passId now =>
    { store := (ackNoteDelivery project session passId now s.store).2
      acknowledged := s.acknowledged ++
        (deliveredNotes project session passId s.store).map fun id => (session, id) }
  | .nack project session passId now =>
    { s with store := (nackNoteDelivery project session passId now s.store).2 }

end State

def run (events : List Event) : State := events.foldl State.step {}

end MagicContext.Notes
