import MagicContext.Ring.Invariant

/-!
# The atomic steps of a ring

Producer and receiver run at the same time.  Here each of their operations is taken apart into its
atomic steps, in program order, and the steps of the two interleave in any order.  A step touches
one word that the other party reads or writes; words that only one party writes are read along with
it, and stores to a slot that belongs to one party alone are one step.

## What is here

* `Producer` and `Consumer` — where each party is in its operation; `Machine` — both of them, the
  mapping and the doorbells, with counts that nothing in the program reads.
* `Shared.attempt` — the steps of `try_reserve`; `Machine.produce` — those of the producer, with
  `reserve_until` and `commit_reservation`.
* `Machine.consume` — the steps of the receiver: `arm_data_wait`, `complete_data_wait`,
  `try_receive` and `release`.
* `Machine.run` — an interleaving.

A doorbell is a live event counter, so reading and writing it succeed; removing pages may fail.
-/

namespace MagicContext.Ring

open Word

/-! ## The two wake epochs -/

/-- The receiver waits for data, the producer for capacity. -/
inductive Side where
  | data | capacity
  deriving DecidableEq

/-- The wake epoch of a side. -/
def Shared.wake (s : Shared) : Side → WakeEpoch
  | .data => s.dataWake
  | .capacity => s.capacityWake

/-- Replaces the wake epoch of a side. -/
def Shared.setWake (s : Shared) (side : Side) (wake : WakeEpoch) : Shared :=
  match side with
  | .data => { s with dataWake := wake }
  | .capacity => { s with capacityWake := wake }

/-- Stores the parked word of a side. -/
def Shared.setParked (s : Shared) (side : Side) (parked : Nat) : Shared :=
  s.setWake side { s.wake side with parked := parked }

/-- The steps of `signal_wake`: count, take the parked word, ring. -/
inductive SignalStep where
  | bump | take | ring
  deriving DecidableEq

/-! ## Where the parties are -/

/-- What a reservation is asked for. -/
structure Request where
  bound : Nat
  wireHeader : WireHeader

/-- Which attempt of `reserve_until` is under way, if it is one. -/
inductive Goal where
  /-- A call of `try_reserve`. -/
  | once
  | first
  | parked (generation : Nat)
  | drained (generation : Nat)

/-- The steps of `try_reserve`. -/
inductive Attempt where
  | check
  | scan (last runLen : Nat)
  | scanState (next runLen : Nat)
  | remove (last runLen : Nat)
  | free (next last reclaimed : Nat)
  | advance (last reclaimed : Nat)
  | claim
  | settle (sequence : Nat)

/-- What `reserve_until` does once it is no longer parked. -/
inductive Ending where
  | stop | retry
  | rested (ready : Bool)

/-- The stores of `commit_reservation`. -/
inductive CommitStep where
  | descriptor | state | write | published

/-- Where the producer is. -/
inductive Producer where
  | idle
  | attempt (request : Request) (goal : Goal) (step : Attempt)
  /-- The steps of `reserve_until` between its attempts. -/
  | load (request : Request)
  | park (request : Request) (generation : Nat)
  | confirm (request : Request) (generation : Nat)
  | drain (request : Request) (generation : Nat)
  | confirmAgain (request : Request) (generation : Nat)
  | wait (request : Request)
  | unpark (request : Request) (ending : Ending)
  | drainAfter (request : Request)
  | commit (r : Reservation) (descriptor : FrameDescriptor) (step : CommitStep)
  | signal (step : SignalStep)
  | abort (sequence : Nat)

/-- The steps of `arm_data_wait`. -/
inductive ArmStep where
  | check | load
  | park (generation : Nat)
  | recheck (generation : Nat)
  | confirm (generation : Nat)
  | drain (generation : Nat)
  | recheckAgain (generation : Nat)
  | confirmAgain (generation : Nat)
  | unpark

/-- The steps of `try_receive`. -/
inductive ReceiveStep where
  | check | load
  | hold (sequence : Nat)
  | validate (sequence : Nat)
  | quarantine
  | lease (sequence : Nat)
  | advance (sequence : Nat)
  | count

/-- The steps of `release` up to its signals. -/
inductive ReleaseStep where
  | check | validate | take | complete | uncount

/-- Where the receiver is. -/
inductive Consumer where
  | idle
  | arm (step : ArmStep)
  /-- The wait is over: `complete_data_wait`, or the end of a wait without its drain. -/
  | unpark (drain : Bool)
  | drain
  | receive (step : ReceiveStep)
  | release (identity : ReleaseIdentity) (step : ReleaseStep)
  | signal (side : Side) (step : SignalStep)

/-- Both parties, the mapping and the doorbells. -/
structure Machine where
  shared : Shared
  /-- Whether the event counter of a side is not zero. -/
  bell : Side → Bool
  producer : Producer
  /-- The reservation that is neither committed nor aborted. -/
  reservation : Option Reservation
  consumer : Consumer
  /-- The last `arm_data_wait` has told the receiver to block, and the wait is not over. -/
  armed : Bool
  /-- Signals counted on each side, and the count when the waiting party read the generation. -/
  signals : Side → Nat
  epoch : Side → Nat
  /-- Releases whose completion is stored, and how many there were when the producer parked. -/
  completions : Nat
  parkedCompletions : Nat
  /-- The frames published, and the releases completed, when the armed receiver last looked. -/
  armedPublished : Nat
  armedCompletions : Nat

/-- A fresh ring with nobody at work. -/
def Machine.fresh : Machine where
  shared := .fresh
  bell := fun _ => false
  producer := .idle
  reservation := none
  consumer := .idle
  armed := false
  signals := fun _ => 0
  epoch := fun _ => 0
  completions := 0
  parkedCompletions := 0
  armedPublished := 0
  armedCompletions := 0

/-! ## The producer -/

/-- One step of `try_reserve`: the next step, or the result. -/
def Shared.attempt (s : Shared) (g : Grant) (os : Outcomes) (request : Request) :
    Attempt → Shared × (Attempt ⊕ Except ProducerError Reservation)
  | .check =>
    if maxFrameBytes < request.bound then (s, .inr (.error .boundExceedsSpans))
    else if s.quarantined then (s, .inr (.error .quarantined))
    else (s, .inl (.scan s.completed 0))
  | .scan last runLen => match checkedSucc last with
    | none => (s, .inr (.error (.ring .sequenceExhausted)))
    | some next =>
      if (s.slot g next).completionSequence ≠ next then (s, .inl (.remove last runLen))
      else (s, .inl (.scanState next runLen))
  | .scanState next runLen =>
    if (s.slot g next).state ≠ .releasePending then
      (s, .inr (.error (.ring .invalidSharedState)))
    else match (s.slot g next).descriptor.validate (g.identity next) g.arenaBytes with
      | .error e => (s, .inr (.error (.ring (.descriptor e))))
      | .ok validated => match checkedAdd s.arenaReclaimed runLen with
        | none => (s, .inr (.error (.ring .arithmeticOverflow)))
        | some expectedStart =>
          if validated.allocationStart ≠ expectedStart then
            (s, .inr (.error (.ring .invalidSharedState)))
          else match checkedAdd runLen validated.allocationLen with
            | none => (s, .inr (.error (.ring .arithmeticOverflow)))
            | some runLen => (s, .inl (.scan next runLen))
  | .remove last runLen =>
    if last = s.completed then (s, .inl .claim)
    else match checkedAdd s.arenaReclaimed runLen with
      | none => (s, .inr (.error (.ring .arithmeticOverflow)))
      | some newReclaimed =>
        match removalRanges g.layoutArena g.arenaBytes s.arenaReclaimed runLen g.pageSize with
        | .error e => (s, .inr (.error (.ring e)))
        | .ok (range0, range1) => match s.removeRanges g os [range0, range1] with
          | (s, .error e) => (s, .inr (.error (.ring e)))
          | (s, .ok ()) => match s.removePartialPage g os newReclaimed with
            | (s, .error e) => (s, .inr (.error (.ring e)))
            | (s, .ok ()) => (s, .inl (.free (s.completed + 1) last newReclaimed))
  | .free next last reclaimed =>
    if last < next then (s, .inl (.advance last reclaimed))
    else (s.setSlot g next (s.slot g next).freed, .inl (.free (next + 1) last reclaimed))
  | .advance last reclaimed =>
    (s.setControl (s.toControl.setReclaim last reclaimed), .inl .claim)
  | .claim => match checkedSub s.published s.completed with
    | none => (s, .inr (.error (.ring .invalidSharedState)))
    | some outstanding =>
      if g.descriptorDepth ≤ outstanding then (s, .inr (.error .exhausted))
      else match checkedSucc s.published with
        | none => (s, .inr (.error .sequenceExhausted))
        | some sequence =>
          if (s.slot g sequence).state ≠ .free then (s, .inr (.error .exhausted))
          else (s.setSlot g sequence { s.slot g sequence with state := .producerReserved },
            .inl (.settle sequence))
  | .settle sequence =>
    match SpanPlan.reserve g.arenaBytes s.arenaWrite s.arenaReclaimed request.bound with
    | .error e =>
      (s.setSlot g sequence { s.slot g sequence with state := .free },
        .inr (.error (match e with | .exhausted => .exhausted | e => .arena e)))
    | .ok plan =>
      (s.setSlot g sequence { s.slot g sequence with reservationLen := plan.allocationLen },
        .inr (.ok ⟨plan, sequence, 0, request.wireHeader⟩))

/-- What the world answers while a step of the producer runs. -/
structure Answer where
  os : Outcomes
  /-- The deadline has passed. -/
  late : Bool
  /-- A wait returns although the doorbell has not rung: it timed out, or was interrupted. -/
  wakes : Bool

/-- What an idle producer does next. -/
inductive ProducerCall where
  | rest
  /-- `try_reserve`, or `reserve_until`. -/
  | reserve (request : Request) (wait : Bool)
  | commit (exactLen : Nat) (wireHeader : WireHeader)
  | abort

/-- Where `try_reserve` and `reserve_until` go on after an attempt. -/
def Goal.next (goal : Goal) (request : Request) (late : Bool) (exhausted : Bool) : Producer :=
  if exhausted then match goal with
    | .once => .idle
    | .first => if late then .idle else .load request
    | .parked generation => if late then .unpark request .stop else .confirm request generation
    | .drained generation =>
      if late then .unpark request .stop else .confirmAgain request generation
  else match goal with
    | .once | .first => .idle
    | .parked _ | .drained _ => .unpark request .stop

/-- The pure part of `commit_reservation`: the descriptor, unless a check fails. -/
def Reservation.commit (r : Reservation) (g : Grant) (exactLen : Nat) (wireHeader : WireHeader) :
    Producer :=
  match r.plan.prefixSpans exactLen with
  | .error _ => .abort r.sequence
  | .ok exactPlan =>
    if wireHeader.declaredLen ≠ exactLen ∨ getElem wireHeader 4 versionByte_lt ≠ 2 then
      .abort r.sequence
    else match checkedAdd r.plan.allocationStart r.plan.allocationLen with
      | none => .abort r.sequence
      | some _ => .commit r
          { schemaVersion := descriptorSchemaVersion
            wireHeader := wireHeader
            identity := g.identity r.sequence
            bodyLen := exactLen
            allocationStart := r.plan.allocationStart
            allocationLen := r.plan.allocationLen
            spanCount := exactPlan.spanCount
            span0 := exactPlan.span0
            span1 := exactPlan.span1 } .descriptor

/-- One step of `signal_wake`, and the step that follows. -/
def Machine.signal (m : Machine) (side : Side) : SignalStep → Machine × Option SignalStep
  | .bump =>
    ({ m with
      shared := m.shared.setWake side { m.shared.wake side with
        generation := wrappingAdd (m.shared.wake side).generation 1 }
      signals := Function.update m.signals side (m.signals side + 1) }, some .take)
  | .take =>
    ({ m with shared := m.shared.setParked side 0 },
      if (m.shared.wake side).parked ≠ 0 then some .ring else none)
  | .ring => ({ m with bell := Function.update m.bell side true }, none)

/-- One step of the producer. -/
def Machine.produce (m : Machine) (g : Grant) (call : ProducerCall) (answer : Answer) : Machine :=
  match m.producer with
  | .idle => match call, m.reservation with
    | .reserve request wait, _ =>
      { m with producer := .attempt request (if wait then .first else .once) .check }
    | .commit exactLen wireHeader, some r =>
      { m with producer := r.commit g exactLen wireHeader, reservation := none }
    | .abort, some r => { m with producer := .abort r.sequence, reservation := none }
    | _, _ => m
  | .attempt request goal step => match m.shared.attempt g answer.os request step with
    | (shared, .inl step) => { m with shared := shared, producer := .attempt request goal step }
    | (shared, .inr (.error e)) =>
      { m with
        shared := shared
        producer := goal.next request answer.late (decide (e = .exhausted)) }
    | (shared, .inr (.ok r)) =>
      { m with
        shared := shared
        producer := goal.next request answer.late false
        reservation := some r }
  | .load request =>
    { m with
      producer := .park request (m.shared.wake .capacity).generation
      epoch := Function.update m.epoch .capacity (m.signals .capacity) }
  | .park request generation =>
    { m with
      shared := m.shared.setParked .capacity (wrappingAdd generation 1)
      producer := .attempt request (.parked generation) .check
      parkedCompletions := m.completions }
  | .confirm request generation =>
    if (m.shared.wake .capacity).generation ≠ generation then
      { m with producer := .unpark request .retry }
    else { m with producer := .drain request generation }
  | .drain request generation =>
    { m with
      bell := Function.update m.bell .capacity false
      producer := .attempt request (.drained generation) .check }
  | .confirmAgain request generation =>
    if (m.shared.wake .capacity).generation ≠ generation then
      { m with producer := .unpark request .retry }
    else { m with producer := .wait request }
  | .wait request =>
    if m.bell .capacity || answer.wakes then
      { m with producer := .unpark request (.rested (m.bell .capacity)) }
    else m
  | .unpark request ending =>
    { m with
      shared := m.shared.setParked .capacity 0
      producer := match ending with
        | .stop => .idle
        | .retry => .attempt request .first .check
        | .rested ready => if !ready && answer.late then .idle else .drainAfter request }
  | .drainAfter request =>
    { m with
      bell := Function.update m.bell .capacity false
      producer := .attempt request .first .check }
  | .commit r descriptor step => match step with
    | .descriptor =>
      { m with
        shared := m.shared.setSlot g r.sequence
          { m.shared.slot g r.sequence with descriptor := descriptor }
        producer := .commit r descriptor .state }
    | .state =>
      { m with
        shared := m.shared.setSlot g r.sequence
          { m.shared.slot g r.sequence with state := .published }
        producer := .commit r descriptor .write }
    | .write =>
      { m with
        shared := m.shared.setControl { m.shared.toControl with
          arenaWrite := r.plan.allocationStart + r.plan.allocationLen }
        producer := .commit r descriptor .published }
    | .published =>
      { m with
        shared := m.shared.setControl { m.shared.toControl with published := r.sequence }
        producer := .signal .bump }
  | .signal step => match m.signal .data step with
    | (m, some step) => { m with producer := .signal step }
    | (m, none) => { m with producer := .idle }
  | .abort sequence =>
    { m with shared := m.shared.abortReservation g sequence, producer := .idle }

/-! ## The receiver -/

/-- `data_available`: the receiver's own words with one load of the producer's cursor. -/
def Control.dataAvailable (c : Control) (g : Grant) : Bool :=
  decide (c.published ≠ c.consumed ∧ c.activeLeases < g.maxLeases)

/-- What an idle receiver does next. -/
inductive ConsumerCall where
  | rest
  | armDataWait
  /-- `complete_data_wait`, or the end of a wait that timed out. -/
  | completeDataWait (drain : Bool)
  | tryReceive
  | release (identity : ReleaseIdentity)

/-- One step of `arm_data_wait`. -/
def Machine.arm (m : Machine) (g : Grant) : ArmStep → Machine
  | .check =>
    if m.shared.dataAvailable g then { m with consumer := .idle }
    else { m with consumer := .arm .load }
  | .load =>
    { m with
      consumer := .arm (.park (m.shared.wake .data).generation)
      epoch := Function.update m.epoch .data (m.signals .data) }
  | .park generation =>
    { m with
      shared := m.shared.setParked .data (wrappingAdd generation 1)
      consumer := .arm (.recheck generation) }
  | .recheck generation =>
    if m.shared.dataAvailable g then { m with consumer := .arm .unpark }
    else { m with consumer := .arm (.confirm generation) }
  | .confirm generation =>
    if (m.shared.wake .data).generation ≠ generation then { m with consumer := .arm .unpark }
    else { m with consumer := .arm (.drain generation) }
  | .drain generation =>
    { m with
      bell := Function.update m.bell .data false
      consumer := .arm (.recheckAgain generation) }
  | .recheckAgain generation =>
    if m.shared.dataAvailable g then { m with consumer := .arm .unpark }
    else
      { m with
        consumer := .arm (.confirmAgain generation)
        armedPublished := m.shared.published
        armedCompletions := m.completions }
  | .confirmAgain generation =>
    if (m.shared.wake .data).generation ≠ generation then { m with consumer := .arm .unpark }
    else { m with consumer := .idle, armed := true }
  | .unpark => { m with shared := m.shared.setParked .data 0, consumer := .idle }

/-- One step of `try_receive`. -/
def Machine.receive (m : Machine) (g : Grant) : ReceiveStep → Machine
  | .check =>
    if m.shared.quarantined ∨ g.maxLeases ≤ m.shared.activeLeases then { m with consumer := .idle }
    else { m with consumer := .receive .load }
  | .load =>
    if m.shared.consumed = m.shared.published then { m with consumer := .idle }
    else match checkedSucc m.shared.consumed with
      | none => { m with consumer := .idle }
      | some sequence => { m with consumer := .receive (.hold sequence) }
  | .hold sequence =>
    if (m.shared.slot g sequence).state ≠ .published then { m with consumer := .idle }
    else
      { m with
        shared := m.shared.setSlot g sequence
          { m.shared.slot g sequence with state := .receiverHeld }
        consumer := .receive (.validate sequence) }
  | .validate sequence =>
    match (m.shared.slot g sequence).descriptor.validate (g.identity sequence) g.arenaBytes with
    | .error _ => { m with consumer := .receive .quarantine }
    | .ok validated =>
      match leaseSpan g validated.span0,
        if validated.spanCount = 2 then (leaseSpan g validated.span1).map some else .ok none with
      | .ok _, .ok _ => { m with consumer := .receive (.lease sequence) }
      | _, _ => { m with consumer := .idle }
  | .quarantine => { m with shared := m.shared.enterQuarantine, consumer := .idle }
  | .lease sequence =>
    { m with
      shared := m.shared.setSlot g sequence
        { m.shared.slot g sequence with state := .receiverLeased }
      consumer := .receive (.advance sequence) }
  | .advance sequence =>
    { m with
      shared := m.shared.setControl (m.shared.toControl.setConsumer sequence m.shared.activeLeases)
      consumer := .receive .count }
  | .count =>
    { m with
      shared := m.shared.setControl
        (m.shared.toControl.setConsumer m.shared.consumed (m.shared.activeLeases + 1))
      consumer := .idle }

/-- One step of `release` up to its signals. -/
def Machine.release (m : Machine) (g : Grant) (identity : ReleaseIdentity) : ReleaseStep → Machine
  | .check =>
    if m.shared.quarantined ∨ identity.incarnation ≠ g.incarnation ∨ identity.lane ≠ g.lane ∨
        identity.sequence = 0 ∨ m.shared.consumed < identity.sequence then
      { m with consumer := .idle }
    else { m with consumer := .release identity .validate }
  | .validate =>
    if (m.shared.slot g identity.sequence).descriptor.identity ≠ identity then
      { m with consumer := .idle }
    else { m with consumer := .release identity .take }
  | .take =>
    if (m.shared.slot g identity.sequence).state ≠ .receiverLeased then { m with consumer := .idle }
    else
      { m with
        shared := m.shared.setSlot g identity.sequence
          { m.shared.slot g identity.sequence with state := .releasePending }
        consumer := .release identity .complete }
  | .complete =>
    { m with
      shared := m.shared.setSlot g identity.sequence
        { m.shared.slot g identity.sequence with completionSequence := identity.sequence }
      consumer := .release identity .uncount
      completions := m.completions + 1 }
  | .uncount =>
    { m with
      shared := m.shared.setControl
        (m.shared.toControl.setConsumer m.shared.consumed (m.shared.activeLeases - 1))
      consumer := .signal .capacity .bump }

/-- One step of the receiver. -/
def Machine.consume (m : Machine) (g : Grant) (call : ConsumerCall) : Machine :=
  match m.consumer with
  | .idle => match call with
    | .rest => m
    | .armDataWait => { m with consumer := .arm .check, armed := false }
    | .completeDataWait drain => { m with consumer := .unpark drain, armed := false }
    | .tryReceive => { m with consumer := .receive .check }
    | .release identity => { m with consumer := .release identity .check }
  | .arm step => m.arm g step
  | .unpark drain =>
    { m with
      shared := m.shared.setParked .data 0
      consumer := if drain then .drain else .idle }
  | .drain => { m with bell := Function.update m.bell .data false, consumer := .idle }
  | .receive step => m.receive g step
  | .release identity step => m.release g identity step
  | .signal side step => match m.signal side step with
    | (m, some step) => { m with consumer := .signal side step }
    | (m, none) => { m with consumer := match side with
        | .capacity => .signal .data .bump
        | .data => .idle }

/-! ## Interleavings -/

/-- Whose step it is. -/
inductive Move where
  | producer (call : ProducerCall) (answer : Answer)
  | consumer (call : ConsumerCall)

/-- One step. -/
def Machine.step (g : Grant) (m : Machine) : Move → Machine
  | .producer call answer => m.produce g call answer
  | .consumer call => m.consume g call

/-- An interleaving of the steps of the two parties. -/
def Machine.run (g : Grant) (m : Machine) (moves : List Move) : Machine := moves.foldl (step g) m

end MagicContext.Ring
