import MagicContext.Ring.Frame

/-!
# The shared state of a ring and the operations on it

One direction of the shared-memory transport.  The producer reserves a descriptor slot and a run
of arena bytes, fills the bytes and publishes the descriptor; the receiver takes published frames
in order, reads them in place and releases them in any order; the producer reclaims released
frames in order, gives their whole pages back to the system and reuses their slots.

## What is here

* `Grant` — the fixed geometry of a ring; `Shared` — everything in the shared mapping: the cursors
  of the two parties, the slots, the bytes of the arena, the wake epochs and the quarantine flag.
* `reclaimCompleted`, `tryReserve`, `commitReservation`, `abortReservation`, `writeReservation`,
  `tryReceive`, `release`, `conservation` — the operations, each a function from the state before
  to the state after and the result.

What the operating system answers (`Outcomes`) is an argument of the operations that ask it: page
removal may fail, and so may the write that rings a doorbell.
-/

namespace MagicContext.Ring

open Word

/-! ## Errors -/

/-- Failure to complete a lease. -/
inductive LeaseError where
  | invalidSpan | lengthMismatch | wrongIncarnation | wrongLane | invalidSequence
  | duplicateRelease | quarantined
  deriving DecidableEq

/-- Ring setup, validation or receive failure. -/
inductive RingError where
  | arithmeticOverflow | invalidLayout | invalidSharedState | doorbellFailed | pageRemovalFailed
  | sequenceExhausted | quarantined
  | descriptor (e : DescriptorError)
  | lease (e : LeaseError)
  deriving DecidableEq

/-- Producer reservation or commit failure. -/
inductive ProducerError where
  | boundExceedsSpans | overflow | commitOutsideReservation | underfill | aborted | exhausted
  | sequenceExhausted | wireHeaderMismatch | quarantined
  | arena (e : ArenaError)
  | ring (e : RingError)
  deriving DecidableEq

/-! ## The state -/

/-- The fixed geometry of one ring: its grant, its arena offset and the system's page size. -/
structure Grant where
  /-- The identity of the transport incarnation and the lane. -/
  incarnation : Incarnation
  lane : Nat
  /-- Descriptor slots, payload bytes, and concurrent receive leases. -/
  descriptorDepth : Nat
  arenaBytes : Nat
  maxLeases : Nat
  /-- The offset of the arena in the mapping. -/
  layoutArena : Nat
  /-- The system's page size. -/
  pageSize : Nat
  /-- What every checked layout guarantees. -/
  depth_pos : 0 < descriptorDepth
  depth_lt : descriptorDepth < u64Limit
  arena_min : maxFrameBytes ≤ arenaBytes
  leases_pos : 0 < maxLeases
  leases_le : maxLeases ≤ descriptorDepth
  total_lt : layoutArena + arenaBytes < u64Limit

/-- The completion identity of a sequence. -/
def Grant.identity (g : Grant) (sequence : Nat) : ReleaseIdentity :=
  ⟨g.incarnation, g.lane, sequence⟩

/-- The state word of a slot; `unknown` is any word outside the vocabulary. -/
inductive SlotState where
  | free | producerReserved | published | receiverHeld | receiverLeased | releasePending
  | unknown
  deriving DecidableEq

/-- One descriptor slot. -/
structure Slot where
  state : SlotState
  completionSequence : Nat
  reservationLen : Nat
  descriptor : FrameDescriptor

/-- A fresh slot. -/
def Slot.fresh : Slot := ⟨.free, 0, 0, .zero⟩

/-- A wake epoch: how often it was signalled, and the epoch a waiting party parked at. -/
structure WakeEpoch where
  generation : Nat
  parked : Nat

/-- The words of the mapping that decide who owns which slot and which bytes. -/
structure Control where
  /-- The producer's cursors. -/
  published : Nat
  arenaWrite : Nat
  /-- The consumer's cursor and lease count. -/
  consumed : Nat
  activeLeases : Nat
  /-- The reclaim cursors, which the producer owns. -/
  completed : Nat
  arenaReclaimed : Nat
  /-- The slots, by index. -/
  slots : Nat → Slot

/-- The shared mapping. -/
structure Shared extends Control where
  /-- The wake epochs. -/
  dataWake : WakeEpoch
  capacityWake : WakeEpoch
  /-- The bytes of the arena, by offset. -/
  arena : Nat → UInt8
  /-- The lifecycle's quarantine flag. -/
  quarantined : Bool

/-- The mapping of a fresh ring. -/
def Shared.fresh : Shared where
  published := 0
  arenaWrite := 0
  consumed := 0
  activeLeases := 0
  completed := 0
  arenaReclaimed := 0
  slots := fun _ => .fresh
  dataWake := ⟨0, 0⟩
  capacityWake := ⟨0, 0⟩
  arena := fun _ => 0
  quarantined := false

/-- The slot index of a sequence, which is never zero where this is called. -/
def Grant.slotIndex (g : Grant) (sequence : Nat) : Nat := (sequence - 1) % g.descriptorDepth

/-- `slot_ptr`: the slot of a sequence. -/
def Control.slot (c : Control) (g : Grant) (sequence : Nat) : Slot :=
  c.slots (g.slotIndex sequence)

/-- Replaces the slot of a sequence. -/
def Control.setSlot (c : Control) (g : Grant) (sequence : Nat) (slot : Slot) : Control :=
  { c with slots := Function.update c.slots (g.slotIndex sequence) slot }

variable (s : Shared)

/-- Replaces the control words of the mapping. -/
def Shared.setControl (c : Control) : Shared := { s with toControl := c }

/-- Replaces the slot of a sequence in the mapping. -/
def Shared.setSlot (g : Grant) (sequence : Nat) (slot : Slot) : Shared :=
  s.setControl (s.toControl.setSlot g sequence slot)

/-- What the operating system answers while an operation runs. -/
structure Outcomes where
  /-- Whether removing a range of pages succeeds. -/
  removePages : ArenaSpan → Bool
  /-- Whether ringing the doorbells succeeds, should it be attempted. -/
  dataBell : Bool
  capacityBell : Bool

/-- `signal_wake`: a new epoch, and the doorbell when somebody is parked. -/
def WakeEpoch.signal (wake : WakeEpoch) (bell : Bool) : WakeEpoch × Except RingError Unit :=
  let wake := { wake with generation := wrappingAdd wake.generation 1 }
  if wake.parked ≠ 0 then
    ({ wake with parked := 0 }, if bell then .ok () else .error .doorbellFailed)
  else (wake, .ok ())

/-- Signals the receiver. -/
def Shared.signalDataWake (bell : Bool) : Shared × Except RingError Unit :=
  ({ s with dataWake := (s.dataWake.signal bell).1 }, (s.dataWake.signal bell).2)

/-- Signals the producer. -/
def Shared.signalCapacityWake (bell : Bool) : Shared × Except RingError Unit :=
  ({ s with capacityWake := (s.capacityWake.signal bell).1 }, (s.capacityWake.signal bell).2)

/-- `enter_quarantine`: permanently prevents reuse. -/
def Shared.enterQuarantine : Shared := { s with quarantined := true }

/-! ## Reclaiming -/

/-- `position & !(page_size - 1)`, for a page size that is a power of two. -/
def pageFloor (pageSize position : Nat) : Nat := position / pageSize * pageSize

/-- The page ranges that lie wholly inside the run of `logicalLen` bytes from `logicalStart`. -/
def removalRanges (arenaOffset arenaBytes logicalStart logicalLen pageSize : Nat) :
    Except RingError (ArenaSpan × ArenaSpan) :=
  if arenaBytes = 0 ∨ pageSize = 0 ∨ pageSize &&& (pageSize - 1) ≠ 0 ∨ arenaOffset % pageSize ≠ 0 ∨
      arenaBytes % pageSize ≠ 0 then .error .invalidLayout
  else match checkedAdd logicalStart logicalLen with
    | none => .error .arithmeticOverflow
    | some logicalEnd =>
      if arenaBytes < logicalLen then .error .invalidSharedState
      else
        let removableStart :=
          if logicalStart % pageSize = 0 then some logicalStart
          else checkedAdd (pageFloor pageSize logicalStart) pageSize
        match removableStart with
        | none => .error .arithmeticOverflow
        | some removableStart =>
          let removableEnd := pageFloor pageSize logicalEnd
          if removableEnd ≤ removableStart then .ok (.zero, .zero)
          else
            let len := removableEnd - removableStart
            let start := removableStart % arenaBytes
            let firstLen := min len (arenaBytes - start)
            let range (offset segmentLen : Nat) : Except RingError ArenaSpan :=
              if segmentLen = 0 then .ok .zero
              else match checkedAdd arenaOffset offset with
                | none => .error .arithmeticOverflow
                | some offset => .ok ⟨offset, segmentLen⟩
            match range start firstLen, range 0 (len - firstLen) with
            | .error e, _ => .error e
            | _, .error e => .error e
            | .ok range0, .ok range1 => .ok (range0, range1)

/-- `remove`: gives one range of pages back to the system, which reads as zeros afterwards. -/
def Shared.removePages (g : Grant) (os : Outcomes) (range : ArenaSpan) :
    Shared × Except RingError Unit :=
  if os.removePages range then
    ({ s with arena := fun offset =>
        if range.offset ≤ g.layoutArena + offset ∧
          g.layoutArena + offset < range.offset + range.len then 0 else s.arena offset }, .ok ())
  else (s.enterQuarantine, .error .pageRemovalFailed)

/-- Removes the ranges that are not empty, stopping at the first failure. -/
def Shared.removeRanges (s : Shared) (g : Grant) (os : Outcomes) :
    List ArenaSpan → Shared × Except RingError Unit
  | [] => (s, .ok ())
  | range :: rest =>
    if range.len = 0 then s.removeRanges g os rest
    else match s.removePages g os range with
      | (s, .error e) => (s, .error e)
      | (s, .ok ()) => s.removeRanges g os rest

/-- The page at the reclaim cursor is removed too once the whole arena is free and the free run
ends on a page boundary. -/
def Shared.removePartialPage (g : Grant) (os : Outcomes) (newReclaimed : Nat) :
    Shared × Except RingError Unit :=
  if s.arenaWrite = newReclaimed ∧ s.arenaReclaimed % g.pageSize ≠ 0 ∧
      newReclaimed % g.pageSize = 0 then
    let logicalPage := pageFloor g.pageSize s.arenaReclaimed
    match checkedAdd g.layoutArena (logicalPage % g.arenaBytes) with
    | none => (s, .error .arithmeticOverflow)
    | some offset => s.removePages g os ⟨offset, g.pageSize⟩
  else (s, .ok ())

/-- A slot without a frame. -/
def Slot.freed (slot : Slot) : Slot :=
  { slot with reservationLen := 0, completionSequence := 0, state := .free }

/-- Follows the completed frames from the reclaim cursor: the last one and their length together.
The source loops without a bound; the caller's bound is one more than the number of slots. -/
def Control.scanCompleted (c : Control) (g : Grant) : Nat → Nat → Nat → Except RingError (Nat × Nat)
  | 0, last, runLen => .ok (last, runLen)
  | bound + 1, last, runLen => match checkedSucc last with
    | none => .error .sequenceExhausted
    | some next =>
      let slot := c.slot g next
      if slot.completionSequence ≠ next then .ok (last, runLen)
      else if slot.state ≠ .releasePending then .error .invalidSharedState
      else match slot.descriptor.validate (g.identity next) g.arenaBytes with
        | .error e => .error (.descriptor e)
        | .ok validated => match checkedAdd c.arenaReclaimed runLen with
          | none => .error .arithmeticOverflow
          | some expectedStart =>
            if validated.allocationStart ≠ expectedStart then .error .invalidSharedState
            else match checkedAdd runLen validated.allocationLen with
              | none => .error .arithmeticOverflow
              | some runLen => c.scanCompleted g bound next runLen

/-- Frees the slots of `count` sequences from `first` on. -/
def Control.freeSlots (c : Control) (g : Grant) (first : Nat) : Nat → Control
  | 0 => c
  | count + 1 =>
    (c.setSlot g first (c.slot g first).freed).freeSlots g (first + 1) count

/-- Moves the reclaim cursors. -/
def Control.setReclaim (c : Control) (completed reclaimed : Nat) : Control :=
  { c with completed := completed, arenaReclaimed := reclaimed }

/-- `reclaim_completed`. -/
def Shared.reclaimCompleted (g : Grant) (os : Outcomes) : Shared × Except RingError Unit :=
  match s.scanCompleted g (g.descriptorDepth + 1) s.completed 0 with
  | .error e => (s, .error e)
  | .ok (last, runLen) =>
    if last = s.completed then (s, .ok ())
    else match checkedAdd s.arenaReclaimed runLen with
      | none => (s, .error .arithmeticOverflow)
      | some newReclaimed =>
        match removalRanges g.layoutArena g.arenaBytes s.arenaReclaimed runLen g.pageSize with
        | .error e => (s, .error e)
        | .ok (range0, range1) => match s.removeRanges g os [range0, range1] with
          | (s, .error e) => (s, .error e)
          | (s, .ok ()) => match s.removePartialPage g os newReclaimed with
            | (s, .error e) => (s, .error e)
            | (s, .ok ()) =>
              let freed := s.toControl.freeSlots g (s.completed + 1) (last - s.completed)
              (s.setControl (freed.setReclaim last newReclaimed), .ok ())

/-! ## The producer -/

/-- A reservation that is neither committed nor aborted yet. -/
structure Reservation where
  plan : SpanPlan
  sequence : Nat
  /-- Bytes written so far. -/
  cursor : Nat
  wireHeader : WireHeader

/-- Reserves a slot and arena bytes. -/
def Shared.tryReserve (g : Grant) (os : Outcomes) (bound : Nat)
    (wireHeader : WireHeader) : Shared × Except ProducerError Reservation :=
  if maxFrameBytes < bound then (s, .error .boundExceedsSpans)
  else if s.quarantined then (s, .error .quarantined)
  else match s.reclaimCompleted g os with
    | (s, .error e) => (s, .error (.ring e))
    | (s, .ok ()) => match checkedSub s.published s.completed with
      | none => (s, .error (.ring .invalidSharedState))
      | some outstanding =>
        if g.descriptorDepth ≤ outstanding then (s, .error .exhausted)
        else match checkedSucc s.published with
          | none => (s, .error .sequenceExhausted)
          | some sequence =>
            if (s.slot g sequence).state ≠ .free then (s, .error .exhausted)
            else
              -- the slot is claimed here and given back when the arena has no room
              match SpanPlan.reserve g.arenaBytes s.arenaWrite s.arenaReclaimed bound with
              | .error .exhausted => (s, .error .exhausted)
              | .error e => (s, .error (.arena e))
              | .ok plan =>
                (s.setSlot g sequence { s.slot g sequence with
                  state := .producerReserved, reservationLen := plan.allocationLen },
                  .ok ⟨plan, sequence, 0, wireHeader⟩)

/-- `abort_reservation`: gives the slot of an unpublished sequence back. -/
def Shared.abortReservation (g : Grant) (sequence : Nat) : Shared :=
  s.setSlot g sequence { s.slot g sequence with reservationLen := 0, state := .free }

/-- Copies bytes to the positions from `start` on, one chunk up to the end of the arena at a time.
Every chunk holds a byte, so as many chunks as bytes suffice. -/
def copyChunks (arenaBytes start : Nat) : Nat → Nat → List UInt8 → (Nat → UInt8) →
    (Nat → UInt8) × Except ProducerError Unit
  | 0, _, _, arena => (arena, .ok ())
  | chunks + 1, copied, bytes, arena =>
    if bytes.isEmpty then (arena, .ok ())
    else match checkedAdd start copied with
      | none => (arena, .error .overflow)
      | some absolute =>
        let offset := absolute % arenaBytes
        let take := min (arenaBytes - offset) bytes.length
        copyChunks arenaBytes start chunks (copied + take) (bytes.drop take)
          fun q => if offset ≤ q ∧ q < offset + take then bytes.getD (q - offset) 0 else arena q

/-- `write_reservation`: copies bytes behind the cursor of a reservation. -/
def Shared.writeReservation (g : Grant) (plan : SpanPlan) (cursor : Nat)
    (bytes : List UInt8) : Shared × Except ProducerError Unit :=
  match checkedAdd cursor bytes.length with
  | none => (s, .error .overflow)
  | some stop =>
    if plan.allocationLen < stop then (s, .error .overflow)
    else match copyChunks g.arenaBytes plan.allocationStart bytes.length cursor bytes s.arena with
      | (arena, result) => ({ s with arena := arena }, result)

/-- The stores that make a frame visible to the receiver. -/
def Control.publish (c : Control) (g : Grant) (sequence : Nat) (descriptor : FrameDescriptor)
    (nextWrite : Nat) : Control :=
  { c.setSlot g sequence
      { c.slot g sequence with descriptor := descriptor, state := .published } with
    arenaWrite := nextWrite
    published := sequence }

/-- `commit_reservation`: publishes the descriptor of the first `exactLen` bytes. -/
def Shared.commitReservation (g : Grant) (os : Outcomes) (sequence : Nat)
    (plan : SpanPlan) (exactLen : Nat) (wireHeader : WireHeader) :
    Shared × Except ProducerError ReleaseIdentity :=
  match plan.prefixSpans exactLen with
  | .error e => (s, .error (.arena e))
  | .ok exactPlan =>
    if wireHeader.declaredLen ≠ exactLen ∨ getElem wireHeader 4 versionByte_lt ≠ 2 then
      (s, .error .wireHeaderMismatch)
    else match checkedAdd plan.allocationStart plan.allocationLen with
      | none => (s, .error .sequenceExhausted)
      | some nextWrite =>
        let descriptor : FrameDescriptor :=
          { schemaVersion := descriptorSchemaVersion
            wireHeader := wireHeader
            identity := g.identity sequence
            bodyLen := exactLen
            allocationStart := plan.allocationStart
            allocationLen := plan.allocationLen
            spanCount := exactPlan.spanCount
            span0 := exactPlan.span0
            span1 := exactPlan.span1 }
        match (s.setControl (s.toControl.publish g sequence descriptor nextWrite)).signalDataWake
          os.dataBell with
        | (s, .error e) => (s.enterQuarantine, .error (.ring e))
        | (s, .ok ()) => (s, .ok (g.identity sequence))

/-! ## The receiver -/

/-- A receive lease: the frame's header and identity, and the spans of its body. -/
structure ReceiveLease where
  span0 : ArenaSpan
  span1 : Option ArenaSpan
  bodyLen : Nat
  wireHeader : WireHeader
  identity : ReleaseIdentity

/-- The byte of the body at index `i`, read through the spans in order. -/
def ReceiveLease.byte (lease : ReceiveLease) (arena : Nat → UInt8) (i : Nat) : UInt8 :=
  if i < lease.span0.len then arena (lease.span0.offset + i)
  else match lease.span1 with
    | some span1 => arena (span1.offset + (i - lease.span0.len))
    | none => 0

/-- A span lies inside the arena. -/
def leaseSpan (g : Grant) (span : ArenaSpan) : Except RingError ArenaSpan :=
  match checkedAdd span.offset span.len with
  | none => .error .arithmeticOverflow
  | some stop => if g.arenaBytes < stop then .error .invalidLayout else .ok span

/-- Moves the consumer's words. -/
def Control.setConsumer (c : Control) (consumed activeLeases : Nat) : Control :=
  { c with consumed := consumed, activeLeases := activeLeases }

/-- Takes the next published frame, when there is one and a lease to spare. -/
def Shared.tryReceive (g : Grant) : Shared × Except RingError (Option ReceiveLease) :=
  if s.quarantined then (s, .error .quarantined)
  else if g.maxLeases ≤ s.activeLeases then (s, .ok none)
  else if s.consumed = s.published then (s, .ok none)
  else match checkedSucc s.consumed with
    | none => (s, .error .sequenceExhausted)
    | some sequence =>
      if (s.slot g sequence).state ≠ .published then (s, .error .invalidSharedState)
      else
        let s := s.setSlot g sequence { s.slot g sequence with state := .receiverHeld }
        match (s.slot g sequence).descriptor.validate (g.identity sequence) g.arenaBytes with
        | .error e => (s.enterQuarantine, .error (.descriptor e))
        | .ok validated => match leaseSpan g validated.span0 with
          | .error e => (s, .error e)
          | .ok first =>
            let second : Except RingError (Option ArenaSpan) :=
              if validated.spanCount = 2 then (leaseSpan g validated.span1).map some else .ok none
            match second with
            | .error e => (s, .error e)
            | .ok second =>
              let s := s.setSlot g sequence { s.slot g sequence with state := .receiverLeased }
              (s.setControl (s.toControl.setConsumer sequence (s.activeLeases + 1)),
                .ok (some
                  { span0 := first
                    span1 := second
                    bodyLen := validated.bodyLen
                    wireHeader := validated.wireHeader
                    identity := validated.identity }))

/-- Records one explicit lease completion; completions may arrive out of order. -/
def Shared.release (g : Grant) (os : Outcomes) (identity : ReleaseIdentity) :
    Shared × Except LeaseError Unit :=
  if s.quarantined then (s, .error .quarantined)
  else if identity.incarnation ≠ g.incarnation then (s, .error .wrongIncarnation)
  else if identity.lane ≠ g.lane then (s, .error .wrongLane)
  else if identity.sequence = 0 then (s, .error .invalidSequence)
  else if s.consumed < identity.sequence then (s, .error .invalidSequence)
  else
    let slot := s.slot g identity.sequence
    if slot.descriptor.identity.incarnation ≠ identity.incarnation then
      (s, .error .wrongIncarnation)
    else if slot.descriptor.identity.lane ≠ identity.lane then (s, .error .wrongLane)
    else if slot.descriptor.identity.sequence ≠ identity.sequence then (s, .error .invalidSequence)
    else match slot.state with
      | .receiverLeased =>
        let s := s.setSlot g identity.sequence
          { slot with state := .releasePending, completionSequence := identity.sequence }
        let s := s.setControl (s.toControl.setConsumer s.consumed (s.activeLeases - 1))
        match s.signalCapacityWake os.capacityBell with
        | (s, .error _) => (s.enterQuarantine, .error .quarantined)
        | (s, .ok ()) => match s.signalDataWake os.dataBell with
          | (s, .error _) => (s.enterQuarantine, .error .quarantined)
          | (s, .ok ()) => (s, .ok ())
      | .releasePending | .free => (s, .error .duplicateRelease)
      | _ => (s, .error .invalidSequence)

/-! ## Accounting -/

/-- Slots by state. -/
structure DescriptorCounts where
  free : Nat := 0
  producerReserved : Nat := 0
  published : Nat := 0
  receiverHeld : Nat := 0
  receiverLeased : Nat := 0
  releasePending : Nat := 0
  quarantined : Nat := 0

/-- Arena bytes by state. -/
structure ArenaCounts where
  free : Nat := 0
  producerReserved : Nat := 0
  published : Nat := 0
  receiverHeld : Nat := 0
  receiverLeased : Nat := 0
  releasePending : Nat := 0
  pad : Nat := 0
  quarantined : Nat := 0

/-- The counts add up to the ring's depth, without overflow. -/
def DescriptorCounts.conserves (c : DescriptorCounts) (depth : Nat) : Bool :=
  [c.free, c.producerReserved, c.published, c.receiverHeld, c.receiverLeased, c.releasePending,
    c.quarantined].foldlM checkedAdd 0 == some depth

/-- The counts add up to the arena's capacity, without overflow. -/
def ArenaCounts.conserves (c : ArenaCounts) (capacity : Nat) : Bool :=
  [c.free, c.producerReserved, c.published, c.receiverHeld, c.receiverLeased, c.releasePending,
    c.pad, c.quarantined].foldlM checkedAdd 0 == some capacity

/-- The running totals of `conservation`. -/
structure Tally where
  descriptors : DescriptorCounts := {}
  bytes : ArenaCounts := {}
  charged : Nat := 0

/-- Charges `len` bytes to one category of the tally. -/
def Tally.charge (t : Tally) (len category : Nat) (descriptors : DescriptorCounts)
    (bytes : Nat → ArenaCounts) : Except RingError Tally :=
  match checkedAdd category len, checkedAdd t.charged len with
  | some category, some charged => .ok ⟨descriptors, bytes category, charged⟩
  | _, _ => .error .arithmeticOverflow

/-- Counts one slot. -/
def Tally.count (t : Tally) (slot : Slot) : Except RingError Tally :=
  let d := t.descriptors
  let b := t.bytes
  match slot.state with
  | .free => .ok { t with descriptors := { d with free := d.free + 1 } }
  | .producerReserved => t.charge slot.reservationLen b.producerReserved
      { d with producerReserved := d.producerReserved + 1 }
      fun n => { b with producerReserved := n }
  | .published => t.charge slot.reservationLen b.published
      { d with published := d.published + 1 } fun n => { b with published := n }
  | .receiverHeld => t.charge slot.reservationLen b.receiverHeld
      { d with receiverHeld := d.receiverHeld + 1 } fun n => { b with receiverHeld := n }
  | .receiverLeased => t.charge slot.reservationLen b.receiverLeased
      { d with receiverLeased := d.receiverLeased + 1 } fun n => { b with receiverLeased := n }
  | .releasePending => t.charge slot.reservationLen b.releasePending
      { d with releasePending := d.releasePending + 1 } fun n => { b with releasePending := n }
  | .unknown => .error .invalidSharedState

/-- Descriptor-slot and arena-byte counts. -/
def Shared.conservation (g : Grant) : Except RingError (DescriptorCounts × ArenaCounts) :=
  if s.quarantined then
    .ok ({ quarantined := g.descriptorDepth }, { quarantined := g.arenaBytes })
  else match (List.range g.descriptorDepth).foldlM
      (fun tally index => tally.count (s.slot g (index + 1))) ({} : Tally) with
    | .error e => .error e
    | .ok tally => match checkedSub g.arenaBytes tally.charged with
      | none => .error .invalidSharedState
      | some free => .ok (tally.descriptors, { tally.bytes with free := free })

end MagicContext.Ring
