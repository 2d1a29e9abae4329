import MagicContext.Historian.Producer
import MagicContext.Historian.Session
import MagicContext.Lib.Process

/-!
# Historian drivers

A driver takes one firing from the idle state to a published chunk, or gives the session back.  It
works in many store transactions, with minutes of waiting for the producer between them.  Every
transaction is carried out under a stake: what the driver has in the session when its turn comes.

## What is here

* `Stake` — nothing, an idle record read in order to fire, or a firing.
* `Op` — the transactions, and the questions to the producer and the clock.
* `persistHistorianState`, `publishValidatedChunk`, `publishOutputFromAwaiting`,
  `runHistorianFiring`, `handleRestartLoad`, `reattachHistorianProducer` — the programs.
-/

namespace MagicContext.Historian

/-! ## Operations -/

/-- What a driver has in the session. -/
inductive Stake where
  | free
  /-- It read the idle record of this number, in order to issue the next. -/
  | issuing (firingSeq : Nat)
  /-- It works on the firing of this number. -/
  | working (firingSeq : Nat)
  deriving DecidableEq

structure ProducerOutput where
  text : String
  lengthCapped : Bool := false

inductive RunState where
  | terminal | active | missing

/-- What the publication takes from a validated chunk. -/
structure ValidatedChunk where
  compartments : List (Int × Int)
  unprocessedFrom : Nat

/-- What a driver asks others than the store. -/
inductive Question where
  | start (producerSessionId model : String)
  | awaitOutput (runId : String)
  | redrainOutput (runId : String)
  | cancel (runId : String)
  | bindSession (producerSessionId : String)
  | status (runId : String)
  | completionNowMs
  /-- The validation of an output that was not capped. -/
  | validate (text : String)
  /-- Whether the publication fence is still up. -/
  | fence

abbrev Question.Reply : Question → Type
  | .start .. => Except ProducerFailure String
  | .awaitOutput _ => Except ProducerFailure ProducerOutput
  | .redrainOutput _ => Except ProducerFailure ProducerOutput
  | .cancel _ => Except ProducerFailure Unit
  | .bindSession _ => Except ProducerFailure Unit
  | .status _ => Except ProducerFailure RunState
  | .completionNowMs => Int
  | .validate _ => Except String ValidatedChunk
  | .fence => Option String

inductive Action where
  | ask (question : Question)
  | load
  | commit (loaded : LoadedState) (next : ModuleMeta)
  | abandonIfMatching (predicate : HistorianPublishPredicate) (failureBackoffAtMs : Option Int)
      (detail : Option String)
  | recordPublishFailure (predicate : HistorianPublishPredicate)
  | publishChunk (request : PublishRequest)

abbrev Action.Reply : Action → Type
  | .ask question => question.Reply
  | .load => Except StoreError LoadedState
  | .commit .. => Except StoreError Nat
  | .abandonIfMatching .. => Except StoreError (Option Nat)
  | .recordPublishFailure _ => Except StoreError (Option Nat)
  | .publishChunk _ => Except HistorianPublishError Nat

structure Op where
  stake : Stake
  action : Action

abbrev Op.Reply (op : Op) : Type := op.action.Reply

/-- The answers that a step may need from outside, and whether the store fails in it. -/
structure Outside where
  fault : Bool := false
  /-- The read of the row fails, which `load` takes for a session that was never seen. -/
  missed : Bool := false
  start : Except ProducerFailure String := .ok "run"
  output : Except ProducerFailure ProducerOutput := .ok { text := "" }
  stopped : Except ProducerFailure Unit := .ok ()
  bound : Except ProducerFailure Unit := .ok ()
  status : Except ProducerFailure RunState := .ok .active
  nowMs : Int := 0
  validated : Except String ValidatedChunk := .error ""
  fence : Option String := none

def Outside.answer (outside : Outside) : (question : Question) → question.Reply
  | .start .. => outside.start
  | .awaitOutput _ => outside.output
  | .redrainOutput _ => outside.output
  | .cancel _ => outside.stopped
  | .bindSession _ => outside.bound
  | .status _ => outside.status
  | .completionNowMs => outside.nowMs
  | .validate _ => outside.validated
  | .fence => outside.fence

variable (scanner : Scanner)

/-- A fault leaves the store as it is. -/
def Op.exec (outside : Outside) : (op : Op) → SessionStore → op.Reply × SessionStore
  | ⟨_, .ask question⟩, s => (outside.answer question, s)
  | ⟨_, .load⟩, s =>
    (if outside.fault then .error .fault
      else .ok (if outside.missed then .absent else s.load), s)
  | ⟨_, .commit loaded next⟩, s =>
    if outside.fault then (.error .fault, s)
    else Historian.commit scanner loaded.rowVersion loaded.core next s
  | ⟨_, .abandonIfMatching predicate backoff detail⟩, s =>
    if outside.fault then (.error .fault, s)
    else
      let (result, s) := Historian.abandonIfMatching scanner predicate backoff detail true s
      (.ok result, s)
  | ⟨_, .recordPublishFailure predicate⟩, s =>
    if outside.fault then (.error .fault, s)
    else
      let (result, s) := Historian.recordPublishFailure scanner predicate s
      (.ok result, s)
  | ⟨_, .publishChunk request⟩, s =>
    if outside.fault then (.error .store, s) else Historian.publishChunk scanner request s

/-! ## Programs -/

inductive HistorianDriveError where
  | noModels
  | state (e : HistorianStateError)
  | producer (e : ProducerFailure)
  | validation (message : String)

abbrev Driver (α : Type) : Type := ExceptT HistorianDriveError (Process Op Op.Reply) α

section Programs
variable {α : Type}

/-- An action under a stake, with whatever it replies. -/
def perform (stake : Stake) (action : Action) : Process Op Op.Reply action.Reply :=
  Process.perform (Op.mk stake action)

/-- An operation whose error ends the driver. -/
def ofStore (p : Process Op Op.Reply (Except StoreError α)) : Driver α :=
  ExceptT.mk (p >>= fun
    | .ok a => pure (.ok a)
    | .error _ => pure (.error (.state .store)))

/-- A check of the state machine. -/
def ofState (r : Except HistorianStateError α) : Driver α :=
  match r with
  | .ok a => pure a
  | .error e => throw (.state e)

/-- A program whose error is looked at. -/
def attempt (p : Driver α) : Driver (Except HistorianDriveError α) := ExceptT.lift p.run

def ask (stake : Stake) (question : Question) : Driver question.Reply :=
  ExceptT.lift (perform stake (.ask question))

def load (stake : Stake) : Driver LoadedState := ofStore (perform stake .load)

end Programs

/-- `persist_historian_state` reads the row again, and writes it with the record replaced. -/
def persistHistorianState (stake : Stake) (nextState : HistorianDurableState) : Driver Nat := do
  let loaded ← load stake
  let next := { loaded.moduleMeta with historian := nextState }
  if next = loaded.moduleMeta then return loaded.rowVersion.getD 0
  else ofStore (perform stake (.commit loaded next))

def abandonMatchingRun (predicate : HistorianPublishPredicate) (failureBackoffAtMs : Option Int)
    (detail : Option String) : Driver (Option Nat) :=
  ofStore (perform (.working predicate.firingSeq)
    (.abandonIfMatching predicate failureBackoffAtMs detail))

def overlapText (existingSequence incomingStartMessage incomingEndMessage : Int) : String :=
  s!"historian compartment {incomingStartMessage}..={incomingEndMessage} " ++
    s!"overlaps existing sequence {existingSequence}"

/-- The publication, if the fence is up. -/
def publishUnderFence (request : PublishRequest) : Driver (Except HistorianPublishError Nat) := do
  let working := Stake.working request.predicate.firingSeq
  match ← ask working .fence with
  | some reason => return .error (.fenceRejected reason)
  | none => ExceptT.lift (perform working (.publishChunk request))

/-- `publish_validated_chunk`: what is refused is released, except after other errors. -/
def publishValidatedChunk (request : PublishRequest) (observedChunkFingerprint : String)
    (failureBackoffAtMs : Int) : Driver Nat := do
  let predicate := request.predicate
  if predicate.chunkFingerprint ≠ observedChunkFingerprint then
    let _ ← abandonMatchingRun predicate (some failureBackoffAtMs) none
    throw (.state (.fingerprintMismatch predicate.chunkFingerprint observedChunkFingerprint))
  else
    match ← publishUnderFence request with
    | .ok version => return version
    | .error (.fenceRejected reason) =>
      let _ ← abandonMatchingRun predicate none (some ("publish rejected: " ++ reason))
      throw (.state .publish)
    | .error (.compartmentOverlap existingSequence incomingStartMessage incomingEndMessage) =>
      let overlap := overlapText existingSequence incomingStartMessage incomingEndMessage
      let _ ← abandonMatchingRun predicate none (some ("publish rejected: " ++ overlap))
      throw (.state .publish)
    | .error (.casConflict _ _ reason) =>
      let _ ← abandonMatchingRun predicate (some failureBackoffAtMs)
        (some ("publish rejected: " ++ reason.getD "row-version CAS conflict"))
      throw (.state .publish)
    | .error _ =>
      -- the run stays, for recovery; an error of the count is ignored
      let _ ← ExceptT.lift
        (perform (.working predicate.firingSeq) (.recordPublishFailure predicate))
      throw (.state .publish)

/-- What a driver is asked to publish under. -/
structure RunRequest where
  observedChunkFingerprint : String
  nowMs : Int
  failureBackoffAtMs : Int

/-- The end of the cooldown, when the run is over now. -/
def failureBackoffNow (stake : Stake) (request : RunRequest) : Driver Int := do
  let completedAtMs ← ask stake .completionNowMs
  return completionFailureBackoffAtMs request.nowMs request.failureBackoffAtMs completedAtMs

def lengthCapMessage : String :=
  "Historian output hit the length cap; refusing a potentially partial document."

def lengthCapHint : String :=
  " [output hit the length cap: raise the output budget or shrink the chunk]"

/-- A capped output is refused unread. -/
def validateOutput (stake : Stake) (output : ProducerOutput) :
    Driver (Except String ValidatedChunk) :=
  if output.lengthCapped then return .error lengthCapMessage
  else ask stake (.validate output.text)

/-- `publish_output_from_awaiting`, for the firing `firingSeq`. -/
def publishOutputFromAwaiting (request : RunRequest) (firingSeq : Nat)
    (awaiting : HistorianDurableState) (output : ProducerOutput) : Driver Nat := do
  let working := Stake.working firingSeq
  let validating ← ofState (outputReceived awaiting)
  let _ ← persistHistorianState working validating
  match ← validateOutput working output with
  | .error err =>
    let failureBackoffAtMs ← failureBackoffNow working request
    let capHint := if output.lengthCapped then lengthCapHint else ""
    let _ ← persistHistorianState working (abandonWithDetail validating failureBackoffAtMs
      (some ("validate rejected: " ++ err ++ capHint)))
    throw (.validation err)
  | .ok validated =>
    let publishing ← ofState (validationOk validating)
    let publishingRowVersion ← persistHistorianState working publishing
    let predicate ← ofState (publishPredicate publishing)
    publishValidatedChunk
      { expectedRowVersion := some publishingRowVersion
        expectedRevertEpoch := publishing.expectedRevertEpoch
        predicate := predicate
        compartments := validated.compartments
        publicationFloorOrdinal := validated.unprocessedFrom }
      request.observedChunkFingerprint request.failureBackoffAtMs

/-! ### A firing -/

structure FireRequest where
  run : RunRequest
  sessionId : String
  projectSlug : String
  harness : String
  snapshot : Snapshot
  modelChain : List String

structure HistorianRunSuccess where
  rowVersion : Nat
  producerSessionId : String
  producerRunId : String
  model : String

inductive HistorianDriveOutcome where
  | completed (success : HistorianRunSuccess)
  | busy (state : HistorianDurableState)

/-- What one model of the chain came to. -/
inductive Attempt (α : Type) where
  | finished (result : α)
  /-- The next model is tried. -/
  | next (chain : ModelChainState)

/-- Waits for a run's output, once more if the wait timed out. -/
def awaitFiringOutput (request : FireRequest) (model : String) (remaining : List String)
    (chain : ModelChainState) (awaiting : HistorianDurableState) (runId : String) :
    Driver (Attempt ProducerOutput) := do
  let working := Stake.working awaiting.firingSeq
  match ← ask working (.awaitOutput runId) with
  | .ok output => return .finished output
  | .error err =>
    if err.timedOut then
      match ← ask working (.redrainOutput runId) with
      | .ok output => return .finished output
      | .error recoveryErr =>
        let _ ← ask working (.cancel runId)
        let failureBackoffAtMs ← failureBackoffNow working request.run
        let _ ← persistHistorianState working (abandonWithDetail awaiting failureBackoffAtMs
          (some ("producer output (" ++ model ++
            "): timed out; recovery re-drain also failed: " ++ recoveryErr.text)))
        throw (.producer recoveryErr)
    else
      let stopped ← ask working (.cancel runId)
      let completedAtMs ← ask working .completionNowMs
      let (decision, chain) := decideProducerFailure err model remaining chain completedAtMs
        (completionFailureBackoffAtMs request.run.nowMs request.run.failureBackoffAtMs
          completedAtMs)
      let _ ← persistHistorianState working (abandonWithDetail awaiting
        decision.failureBackoffAtMs (some (prefixedDetail decision.detailPrefix
          ("producer output (" ++ model ++ "): " ++ err.text))))
      -- a second run may cost, so the first must have been stopped
      if decision.tryNextModel && stopped.isOk then return .next chain else throw (.producer err)

/-- The firing with one model of the chain. -/
def fireWithModel (request : FireRequest) (model : String) (remaining : List String)
    (chain : ModelChainState) : Driver (Attempt HistorianDriveOutcome) := do
  let snapshot := request.snapshot
  let loaded ← load .free
  match ← ofState (fire loaded.moduleMeta.historian snapshot request.run.nowMs) with
  | .busy state => return .finished (.busy state)
  | .fired fired =>
    let _ ← persistHistorianState (.issuing loaded.moduleMeta.historian.firingSeq) fired
    let working := Stake.working fired.firingSeq
    let producerSessionId :=
      historianProducerSessionId request.projectSlug request.sessionId fired.firingSeq
    match ← ask working (.start producerSessionId model) with
    | .error err =>
      let completedAtMs ← ask working .completionNowMs
      let (decision, chain) := decideProducerFailure err model remaining chain completedAtMs
        (completionFailureBackoffAtMs request.run.nowMs request.run.failureBackoffAtMs
          completedAtMs)
      let _ ← persistHistorianState working (abandonWithDetail fired
        decision.failureBackoffAtMs (some (prefixedDetail decision.detailPrefix
          ("producer start (" ++ model ++ "): " ++ err.text))))
      if decision.tryNextModel then return .next chain else throw (.producer err)
    | .ok runId =>
      let awaiting ← ofState (producerStarted fired producerSessionId runId request.harness)
      let _ ← persistHistorianState working awaiting
      match ← awaitFiringOutput request model remaining chain awaiting runId with
      | .next chain => return .next chain
      | .finished output =>
        match ← attempt (publishOutputFromAwaiting request.run awaiting.firingSeq awaiting
            output) with
        | .ok rowVersion =>
          return .finished (.completed ⟨rowVersion, producerSessionId, runId, model⟩)
        | .error (.validation err) =>
          if hasEligibleModel remaining chain.authBlockedProviders then return .next chain
          else throw (.validation err)
        | .error err => throw err

/-- The loop over the models that are left. -/
def runModels (request : FireRequest) : List String → ModelChainState → Driver HistorianDriveOutcome
  | [], _ => throw .noModels
  | model :: remaining, chain =>
    if providerIsAuthBlocked chain.authBlockedProviders model then
      runModels request remaining chain
    else if request.snapshot.chunkFingerprint ≠ request.run.observedChunkFingerprint then
      throw (.state (.fingerprintMismatch request.snapshot.chunkFingerprint
        request.run.observedChunkFingerprint))
    else do
      match ← fireWithModel request model remaining chain with
      | .finished outcome => return outcome
      | .next chain => runModels request remaining chain

def runHistorianFiring (request : FireRequest) : Driver HistorianDriveOutcome :=
  runModels request request.modelChain {}

/-- The record after a producer could not be connected to. -/
def connectFailure (historian : HistorianDurableState) (failureBackoffAtMs : Int)
    (detail : String) : HistorianDurableState :=
  if historian.state = .idle then
    { historian with
      lastFailure := some detail
      failureBackoffAtMs := some failureBackoffAtMs }
  else abandonWithDetail historian failureBackoffAtMs (some detail)

/-- `record_historian_connect_failure`, with the attempts that are left. -/
def recordHistorianConnectFailure (failureBackoffAtMs : Int) (detail : String) : Nat → Driver Unit
  | 0 => throw (.state .store)
  | attempts + 1 => do
    let loaded ← load .free
    let next := connectFailure loaded.moduleMeta.historian failureBackoffAtMs detail
    let committed : Except StoreError Nat ← ExceptT.lift
      (perform .free (.commit loaded { loaded.moduleMeta with historian := next }))
    match committed with
    | .ok _ => return ()
    | .error (.casConflict _ _) => recordHistorianConnectFailure failureBackoffAtMs detail attempts
    | .error .fault => throw (.state .store)

/-! ### Recovery -/

inductive RestartAction where
  | done
  | reattachProducer (producerSessionId producerRunId : String) (producerHarness : Option String)
      (firingSeq : Nat) (chunkFingerprint : String)
  | abandonedAndRefireEligible (firingSeq : Nat)

/-- A run that was waited for is taken up again; one in any other live phase is released. -/
def handleRestartLoad (failureBackoffAtMs : Int) : Driver RestartAction := do
  let loaded ← load .free
  let state := loaded.moduleMeta.historian
  let release : Driver RestartAction := do
    let _ ← persistHistorianState (.working state.firingSeq) (abandon state failureBackoffAtMs)
    return .abandonedAndRefireEligible state.firingSeq
  match state.state with
  | .idle => return .done
  | .awaitingProducer =>
    match state.producerSessionId, state.producerRunId with
    | some producerSessionId, some producerRunId =>
      return .reattachProducer producerSessionId producerRunId state.producerHarness
        state.firingSeq state.chunkFingerprint
    | _, _ => release
  | .firing | .validating | .publishing => release

/-- Releases whatever is stored. -/
def abandonCurrentStateWithDetail (stake : Stake) (failureBackoffAtMs : Int)
    (detail : Option String) : Driver Unit := do
  let loaded ← load stake
  let _ ← persistHistorianState stake
    (abandonWithDetail loaded.moduleMeta.historian failureBackoffAtMs detail)

inductive HistorianReattachOutcome where
  | done
  | published (success : HistorianRunSuccess)
  | refireEligible (firingSeq : Nat)

/-- The cooldown after a run that failed once it was taken up again. -/
def reattachBackoffAtMs (err : ProducerFailure) (completedAtMs failureBackoffAtMs : Int) : Int :=
  match err.classification with
  | none => failureBackoffAtMs
  | some classification =>
    if classification.errorClass = .transient then
      classifiedBackoffAtMs completedAtMs failureBackoffAtMs classification
    else failureBackoffAtMs

def reattachDetailPrefix (err : ProducerFailure) : Option String :=
  match err.classification with
  | some classification =>
    if classification.errorClass = .authRequired then some authRequiredPrefix else none
  | none => if err.hasClassField then some unknownErrorClassPrefix else none

/-- Waits for a run that was taken up again, once more if the wait timed out. -/
def awaitReattached (stake : Stake) (producerRunId : String) :
    Driver (Except ProducerFailure ProducerOutput) := do
  match ← ask stake (.awaitOutput producerRunId) with
  | .ok output => return .ok output
  | .error err =>
    if err.timedOut then ask stake (.redrainOutput producerRunId) else return .error err

def reattachHistorianProducer (request : RunRequest) : Driver HistorianReattachOutcome := do
  match ← handleRestartLoad request.failureBackoffAtMs with
  | .done => return .done
  | .abandonedAndRefireEligible firingSeq => return .refireEligible firingSeq
  | .reattachProducer producerSessionId producerRunId _ firingSeq _ =>
    let working := Stake.working firingSeq
    match ← ask working (.bindSession producerSessionId) with
    | .error err => throw (.producer err)
    | .ok () =>
    match ← ask working (.status producerRunId) with
    | .error err => throw (.producer err)
    | .ok .missing =>
      let failureBackoffAtMs ← failureBackoffNow working request
      abandonCurrentStateWithDetail working failureBackoffAtMs none
      return .refireEligible firingSeq
    | .ok _ =>
      let loaded ← load working
      match ← awaitReattached working producerRunId with
      | .error err =>
        let _ ← ask working (.cancel producerRunId)
        let completedAtMs ← ask working .completionNowMs
        abandonCurrentStateWithDetail working
          (reattachBackoffAtMs err completedAtMs (completionFailureBackoffAtMs request.nowMs
            request.failureBackoffAtMs completedAtMs))
          (some (prefixedDetail (reattachDetailPrefix err)
            ("producer reattach output (" ++ producerRunId ++ "): " ++ err.text)))
        throw (.producer err)
      | .ok output =>
        let rowVersion ← publishOutputFromAwaiting request firingSeq loaded.moduleMeta.historian
          output
        return .published ⟨rowVersion, producerSessionId, producerRunId, ""⟩

end MagicContext.Historian
