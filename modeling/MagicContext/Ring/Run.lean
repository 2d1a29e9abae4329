import MagicContext.Ring.State

/-!
# Runs of a ring

The producer and the receiver of one ring, and the history of what they did.  A run is any sequence
of their operations; each operation takes effect as a whole.

## What is here

* `System` — the shared mapping, the producer's outstanding reservation, the receiver's leases, and
  two lists that nothing in the program reads: the frames committed and the frames received, in
  order.  The body of a committed frame is what the producer stored in it, so the reservation also
  remembers the last byte stored at each of its indices.
* `Op` and `System.step` — the operations, with every way they can end; `System.run` — a sequence of
  them from any system, and `System.fresh`.

A second reservation cannot be outstanding, since its slot is the one the first has claimed.
-/

namespace MagicContext.Ring

/-- A frame, as one party sees it. -/
structure Frame where
  wireHeader : WireHeader
  sequence : Nat
  bodyLen : Nat
  /-- The body, by index below `bodyLen`. -/
  body : Nat → UInt8

/-- Two frames agree on header, sequence and every byte of the body. -/
def Frame.Same (f f' : Frame) : Prop :=
  f.wireHeader = f'.wireHeader ∧ f.sequence = f'.sequence ∧ f.bodyLen = f'.bodyLen ∧
    ∀ i, i < f.bodyLen → f.body i = f'.body i

/-- The frame a lease shows over the bytes of an arena. -/
def ReceiveLease.frame (lease : ReceiveLease) (arena : Nat → UInt8) : Frame where
  wireHeader := lease.wireHeader
  sequence := lease.identity.sequence
  bodyLen := lease.bodyLen
  body := lease.byte arena

/-- A lease the receiver holds, with the frame it saw when it was acquired. -/
structure Held where
  lease : ReceiveLease
  seen : Frame

/-- Both parties of a ring, and the history of the frames. -/
structure System where
  /-- The mapping. -/
  shared : Shared
  /-- The reservation that is neither committed nor aborted. -/
  reservation : Option Reservation
  /-- The last byte the producer stored at each index of the reservation. -/
  written : Nat → Option UInt8
  /-- The leases that are not released. -/
  leases : List Held
  /-- The frames of the successful commits, oldest first. -/
  commits : List Frame
  /-- The frames of the successful receives, oldest first. -/
  received : List Frame

/-- A fresh ring with nobody at work. -/
def System.fresh : System := ⟨.fresh, none, fun _ => none, [], [], []⟩

/-- The operations of the two parties. -/
inductive Op where
  | tryReserve (os : Outcomes) (bound : Nat) (wireHeader : WireHeader)
  /-- Copies bytes behind the cursor. -/
  | write (bytes : List UInt8)
  /-- Stores a byte through a segment of the reservation. -/
  | poke (index : Nat) (byte : UInt8)
  /-- Moves the cursor over bytes stored through a segment. -/
  | advance (bytes : Nat)
  | setWireHeader (wireHeader : WireHeader)
  | commit (os : Outcomes) (bodyLen : Nat)
  /-- Aborts or drops the reservation. -/
  | abort
  | tryReceive
  | release (os : Outcomes) (identity : ReleaseIdentity)
  /-- A waiting party records the wake epoch it parks at, or that it stopped waiting. -/
  | park (dataParked capacityParked : Nat)

/-- The offset of the byte at `index` of a reservation, found through its segments. -/
def SpanPlan.segmentOffset (plan : SpanPlan) (index : Nat) : Nat :=
  if index < plan.span0.len then plan.span0.offset + index
  else plan.span1.offset + (index - plan.span0.len)

namespace System

variable (sys : System)

/-- Ends the reservation without a frame. -/
def abort (g : Grant) (r : Reservation) : System :=
  { sys with
    shared := sys.shared.abortReservation g r.sequence
    reservation := none }

/-- Reserves; a failed attempt may still have reclaimed frames. -/
def tryReserve (sys : System) (g : Grant) (os : Outcomes) (bound : Nat)
    (wireHeader : WireHeader) : System :=
  match sys.shared.tryReserve g os bound wireHeader with
  | (shared, .error _) => { sys with shared := shared }
  | (shared, .ok r) =>
    { sys with shared := shared, reservation := some r, written := fun _ => none }

/-- Writes behind the cursor, or aborts on overflow. -/
def write (g : Grant) (r : Reservation) (bytes : List UInt8) : System :=
  match sys.shared.writeReservation g r.plan r.cursor bytes with
  | (shared, .error _) => { sys with shared := shared }.abort g r
  | (shared, .ok ()) =>
    { sys with
      shared := shared
      reservation := some { r with cursor := r.cursor + bytes.length }
      written := fun index =>
        if r.cursor ≤ index ∧ index < r.cursor + bytes.length then bytes[index - r.cursor]?
        else sys.written index }

/-- Stores one byte through a segment. -/
def poke (r : Reservation) (index : Nat) (byte : UInt8) : System :=
  if index < r.plan.allocationLen then
    { sys with
      shared := { sys.shared with
        arena := Function.update sys.shared.arena (r.plan.segmentOffset index) byte }
      written := Function.update sys.written index (some byte) }
  else sys

/-- Advances the cursor, or aborts on overflow. -/
def advance (g : Grant) (r : Reservation) (bytes : Nat) : System :=
  match Word.checkedAdd r.cursor bytes with
  | none => sys.abort g r
  | some cursor =>
    if r.plan.allocationLen < cursor then sys.abort g r
    else { sys with reservation := some { r with cursor := cursor } }

/-- The frame the producer has put together: what it stored, and at positions it never stored to
whatever the arena held. -/
def frame (g : Grant) (r : Reservation) (bodyLen : Nat) : Frame where
  wireHeader := r.wireHeader
  sequence := r.sequence
  bodyLen := bodyLen
  body := fun index =>
    (sys.written index).getD (sys.shared.arena ((r.plan.allocationStart + index) % g.arenaBytes))

/-- Publishes when `bodyLen` is the number of bytes written; every failure aborts. -/
def commit (g : Grant) (os : Outcomes) (r : Reservation) (bodyLen : Nat) : System :=
  if r.plan.allocationLen < bodyLen then sys.abort g r
  else if r.cursor ≠ bodyLen then sys.abort g r
  else match sys.shared.commitReservation g os r.sequence r.plan bodyLen r.wireHeader with
    | (shared, .error _) => { sys with shared := shared }.abort g r
    | (shared, .ok _) =>
      { sys with
        shared := shared
        reservation := none
        commits := sys.commits ++ [sys.frame g r bodyLen] }

/-- Receives; the new lease is held until it is released. -/
def tryReceive (sys : System) (g : Grant) : System :=
  match sys.shared.tryReceive g with
  | (shared, .ok (some lease)) =>
    { sys with
      shared := shared
      leases := sys.leases ++ [⟨lease, lease.frame shared.arena⟩]
      received := sys.received ++ [lease.frame shared.arena] }
  | (shared, _) => { sys with shared := shared }

/-- Releases; a release that fails leaves the lease held. -/
def release (sys : System) (g : Grant) (os : Outcomes) (identity : ReleaseIdentity) : System :=
  match sys.shared.release g os identity with
  | (shared, .error _) => { sys with shared := shared }
  | (shared, .ok ()) =>
    { sys with
      shared := shared
      leases := sys.leases.filter fun held => held.lease.identity ≠ identity }

/-- One operation. -/
def step (g : Grant) (sys : System) : Op → System
  | .tryReserve os bound wireHeader => sys.tryReserve g os bound wireHeader
  | .write bytes => sys.reservation.elim sys fun r => sys.write g r bytes
  | .poke index byte => sys.reservation.elim sys fun r => sys.poke r index byte
  | .advance bytes => sys.reservation.elim sys fun r => sys.advance g r bytes
  | .setWireHeader wireHeader => sys.reservation.elim sys fun r =>
      { sys with reservation := some { r with wireHeader := wireHeader } }
  | .commit os bodyLen => sys.reservation.elim sys fun r => sys.commit g os r bodyLen
  | .abort => sys.reservation.elim sys fun r => sys.abort g r
  | .tryReceive => sys.tryReceive g
  | .release os identity => sys.release g os identity
  | .park dataParked capacityParked =>
    { sys with shared := { sys.shared with
        dataWake := { sys.shared.dataWake with parked := dataParked }
        capacityWake := { sys.shared.capacityWake with parked := capacityParked } } }

/-- A sequence of operations. -/
def run (g : Grant) (sys : System) (ops : List Op) : System := ops.foldl (step g) sys

end System

/-- The doorbell write a commit may make succeeds, as a write of one to a live event counter does (a
counter that is full counts as rung). -/
def Op.DoorbellRings : Op → Prop
  | .commit os _ => os.dataBell = true
  | _ => True

end MagicContext.Ring
