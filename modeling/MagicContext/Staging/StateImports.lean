import MagicContext.Host.Registry
import MagicContext.Lib.Entries
import MagicContext.Lib.Process
import MagicContext.Serde
import MagicContext.Text

/-!
# Staging of state imports

A session's compartments are imported in batches.  The batches of one attempt are collected for its
session, all sessions draw on one budget of staged bytes, and the last batch hands the collected
compartments to the store, which commits an import at most once.

## What is here

* `StateImportCoordinator` — the staged imports and the counters, with `discard`, `evictStale`,
  `complete` and `stage`.
* `validateStateImportCompartments` — the checks of one batch.
* `Op`, `Op.exec` — what the handlers do under one lock, or in one transaction.
* `handleStateImportValue`, `bindRoute`, `unbindRoute` — the programs.
-/

namespace MagicContext.StateImports

open Host (RouteHandle)

/-! ## Compartments -/

structure StoredCompartment where
  sequence : Int
  startMessage : Int
  endMessage : Int
  endMessageId : String
  title : String
  content : String
  p1 : Option String
  p2 : Option String
  p3 : Option String
  p4 : Option String
  importance : Int
  episodeType : Option String
  startDate : Option String
  endDate : Option String
  createdAt : Int
  deriving DecidableEq

inductive StateImportValidationError where
  | seqNotIncreasing (previous current : Int)
  | rangeInvalid (sequence : Int)
  | rangesOverlap (previous current : Int)
  | p1Empty (sequence : Int)
  | endMessageIdInvalid (sequence : Int)
  deriving DecidableEq

def StateImportValidationError.code : StateImportValidationError → String
  | .seqNotIncreasing .. => "seq_not_increasing"
  | .rangeInvalid _ => "range_invalid"
  | .rangesOverlap .. => "ranges_overlap"
  | .p1Empty _ => "p1_empty"
  | .endMessageIdInvalid _ => "end_message_id_invalid"

def splitFlatBlockId (id : String) : Option (List Char × Nat) :=
  match Text.splitOnce '#' id.toList.reverse with
  | none => none
  | some (index, mid) =>
    if mid.isEmpty || mid.contains '#' then none
    else (Text.parseU64 index.reverse).map fun n => (mid.reverse, n)

/-- What one compartment breaks of its own. -/
def compartmentError (compartment : StoredCompartment) : Option StateImportValidationError :=
  if compartment.endMessage < compartment.startMessage then
    some (.rangeInvalid compartment.sequence)
  else if compartment.p1.all Text.isBlank then some (.p1Empty compartment.sequence)
  else if (splitFlatBlockId compartment.endMessageId).isNone then
    some (.endMessageIdInvalid compartment.sequence)
  else none

/-- What two neighbours break between them. -/
def borderError (previous current : StoredCompartment) : Option StateImportValidationError :=
  if current.sequence ≤ previous.sequence then
    some (.seqNotIncreasing previous.sequence current.sequence)
  else if current.startMessage ≤ previous.endMessage then
    some (.rangesOverlap previous.sequence current.sequence)
  else none

def validateAfter (previous : Option StoredCompartment) :
    List StoredCompartment → Option StateImportValidationError
  | [] => none
  | compartment :: compartments =>
    (compartmentError compartment).or ((previous.bind fun p => borderError p compartment).or
      (validateAfter (some compartment) compartments))

def validateStateImportCompartments (compartments : List StoredCompartment) :
    Option StateImportValidationError :=
  validateAfter none compartments

/-! ## The coordinator -/

structure PendingStateImport where
  importId : String
  batchCount : Nat
  nextSeq : Nat
  digests : List String
  compartments : List StoredCompartment
  bytes : Nat
  lastActivity : Nat
  deriving DecidableEq

inductive StateImportPhase where
  | collecting (pending : PendingStateImport)
  | applying (importId : String) (bytes : Nat)
  deriving DecidableEq

def stateImportMaxIdBytes : Nat := 128
def stateImportMaxStagedBytes : Nat := 32 * 1024 * 1024
def stateImportMaxPending : Nat := 64
def stateImportStaleAfter : Nat := 5 * 60 * 1000
def maxFacadeFrameBytes : Nat := 1024 * 1024

/-- Times are in milliseconds of the monotonic clock. -/
structure StateImportCoordinator where
  sessions : Entries String StateImportPhase := Entries.empty
  totalStagedBytes : Nat := 0
  pendingImportCount : Nat := 0
  maxStagedBytes : Nat := stateImportMaxStagedBytes
  maxPendingImports : Nat := stateImportMaxPending
  staleAfter : Nat := stateImportStaleAfter

/-- A batch as its request carries it. -/
structure Batch where
  session : String
  importId : String
  batchSeq : Nat
  batchCount : Nat
  digest : String
  bytes : Nat
  compartments : List StoredCompartment
  deriving DecidableEq

inductive StateImportStageOutcome where
  | staged (compartments : Nat)
  | apply (importId : String) (compartments : List StoredCompartment)

inductive StateImportStageError where
  | protocol (code message : String)
  | validation (error : StateImportValidationError)
  deriving DecidableEq

def phaseBytes : StateImportPhase → Nat
  | .collecting pending => pending.bytes
  | .applying _ bytes => bytes

namespace StateImportCoordinator

variable (c : StateImportCoordinator)

/-- The counters without an import of this many bytes. -/
def release (bytes : Nat) : StateImportCoordinator :=
  { c with
    pendingImportCount := c.pendingImportCount - 1
    totalStagedBytes := c.totalStagedBytes - bytes }

def remove (session : String) : StateImportCoordinator :=
  { c with sessions := c.sessions.erase session }

def insert (session : String) (phase : StateImportPhase) : StateImportCoordinator :=
  { c with sessions := c.sessions.set session phase }

def discard (session : String) : StateImportCoordinator :=
  match c.sessions.find session with
  | none => c
  | some phase => (c.remove session).release (phaseBytes phase)

/-- An import that is collected and has seen no activity for long enough. -/
def Stale (now : Nat) : StateImportPhase → Prop
  | .collecting pending => c.staleAfter ≤ now - pending.lastActivity
  | .applying .. => False

instance (c : StateImportCoordinator) (now : Nat) (phase : StateImportPhase) :
    Decidable (c.Stale now phase) := by
  cases phase <;> unfold Stale <;> infer_instance

def staleSessions (now : Nat) : List String :=
  c.sessions.rows.filterMap fun e => if c.Stale now e.2 then some e.1 else none

def evictStale (now : Nat) : StateImportCoordinator :=
  (c.staleSessions now).foldl discard c

def complete (session importId : String) : StateImportCoordinator :=
  match c.sessions.find session with
  | some (.applying active _) => if active = importId then c.discard session else c
  | _ => c

/-- The batch does not fit into the budget. -/
def Overflows (staged bytes : Nat) : Prop :=
  c.maxStagedBytes < staged + bytes ∨ c.maxStagedBytes < c.totalStagedBytes + bytes

instance (c : StateImportCoordinator) (staged bytes : Nat) : Decidable (c.Overflows staged bytes) :=
  inferInstanceAs (Decidable (_ ∨ _))

/-- What the border between the staged compartments and the next ones breaks. -/
def seamError (staged next : List StoredCompartment) : Option StateImportValidationError :=
  match staged.getLast?, next.head? with
  | some previous, some current => borderError previous current
  | _, _ => none

def attemptMismatch : StateImportStageError :=
  .protocol "state_import_attempt_mismatch" "the import id or batch count changed during staging"

def digestMismatch : StateImportStageError :=
  .protocol "state_import_digest_mismatch" "a redriven state import batch changed content"

def inProgress : StateImportStageError :=
  .protocol "state_import_in_progress" "the final state import batch is being applied"

def bufferOverflow : StateImportStageError :=
  .protocol "state_import_buffer_overflow" "state import staging exceeded the handler-wide byte cap"

/-- A batch for the import that is being collected. -/
def stageNext (pending : PendingStateImport) (b : Batch) (now : Nat) :
    Except StateImportStageError StateImportStageOutcome × StateImportCoordinator :=
  let c := c.remove b.session
  if pending.importId ≠ b.importId ∨ pending.batchCount ≠ b.batchCount then
    (.error attemptMismatch, c.release pending.bytes)
  else if b.batchSeq < pending.nextSeq then
    if pending.digests[b.batchSeq]? = some b.digest then
      (.ok (.staged pending.compartments.length),
        c.insert b.session (.collecting { pending with lastActivity := now }))
    else (.error digestMismatch, c.release pending.bytes)
  else if pending.nextSeq < b.batchSeq then
    (.error (.protocol "batch_seq_mismatch" "state import batches must arrive contiguously"),
      c.release pending.bytes)
  else
    match seamError pending.compartments b.compartments with
    | some error => (.error (.validation error), c.release pending.bytes)
    | none =>
      if c.Overflows pending.bytes b.bytes then (.error bufferOverflow, c.release pending.bytes)
      else
        let pending := { pending with
          bytes := pending.bytes + b.bytes
          nextSeq := pending.nextSeq + 1
          digests := pending.digests ++ [b.digest]
          compartments := pending.compartments ++ b.compartments
          lastActivity := now }
        let c := { c with totalStagedBytes := c.totalStagedBytes + b.bytes }
        if b.batchSeq + 1 = b.batchCount then
          (.ok (.apply b.importId pending.compartments),
            c.insert b.session (.applying b.importId pending.bytes))
        else
          (.ok (.staged pending.compartments.length), c.insert b.session (.collecting pending))

/-- A batch for a session with nothing staged. -/
def stageFirst (b : Batch) (now : Nat) :
    Except StateImportStageError StateImportStageOutcome × StateImportCoordinator :=
  if b.batchSeq ≠ 0 then
    (.error (.protocol "batch_seq_mismatch" "the first state import batch must have batch_seq 0"),
      c)
  else if c.maxPendingImports ≤ c.pendingImportCount then
    (.error (.protocol "state_import_capacity" "too many state imports are already pending"), c)
  else if c.Overflows 0 b.bytes then (.error bufferOverflow, c)
  else
    let c := { c with
      pendingImportCount := c.pendingImportCount + 1
      totalStagedBytes := c.totalStagedBytes + b.bytes }
    if b.batchCount = 1 then
      (.ok (.apply b.importId b.compartments), c.insert b.session (.applying b.importId b.bytes))
    else
      (.ok (.staged b.compartments.length),
        c.insert b.session (.collecting
          { importId := b.importId
            batchCount := b.batchCount
            nextSeq := 1
            digests := [b.digest]
            compartments := b.compartments
            bytes := b.bytes
            lastActivity := now }))

def stage (b : Batch) (now : Nat) :
    Except StateImportStageError StateImportStageOutcome × StateImportCoordinator :=
  let c := c.evictStale now
  match c.sessions.find b.session with
  | some (.applying active bytes) =>
    (.error inProgress, (c.remove b.session).insert b.session (.applying active bytes))
  | some (.collecting pending) => c.stageNext pending b now
  | none => c.stageFirst b now

end StateImportCoordinator

/-! ## Requests -/

structure StateImportCompartmentWire where
  seq : Int
  startMessage : Int
  endMessage : Int
  endMessageId : String
  title : String
  p1 : String
  p2 : Option String
  p3 : Option String
  p4 : Option String
  importance : Int
  episodeType : Option String
  startDate : Option String
  endDate : Option String

structure StateImportWire where
  v : Nat
  sessionId : String
  importId : String
  batchSeq : Nat
  batchCount : Nat
  compartments : List StateImportCompartmentWire

def defaultImportance : Int := 50

def readCompartment (v : Json) : Option StateImportCompartmentWire := do
  match ← Serde.structFields ["seq", "start_message", "end_message", "end_message_id", "title",
      "p1", "p2", "p3", "p4", "importance", "episode_type", "start_date", "end_date"] v with
  | [seq, startMessage, endMessage, endMessageId, title, p1, p2, p3, p4, importance, episodeType,
      startDate, endDate] =>
    return {
      seq := ← Serde.required Json.asInt seq
      startMessage := ← Serde.required Json.asInt startMessage
      endMessage := ← Serde.required Json.asInt endMessage
      endMessageId := ← Serde.required Json.asString endMessageId
      title := ← Serde.required Json.asString title
      p1 := ← Serde.required Json.asString p1
      p2 := ← Serde.optional Json.asString p2
      p3 := ← Serde.optional Json.asString p3
      p4 := ← Serde.optional Json.asString p4
      importance := ← Serde.defaulted defaultImportance Serde.asInt32 importance
      episodeType := ← Serde.optional Json.asString episodeType
      startDate := ← Serde.optional Json.asString startDate
      endDate := ← Serde.optional Json.asString endDate }
  | _ => none

def readStateImport (v : Json) : Option StateImportWire := do
  match ← Serde.structFields ["v", "session_id", "import_id", "batch_seq", "batch_count",
      "compartments"] v with
  | [v, sessionId, importId, batchSeq, batchCount, compartments] =>
    return {
      v := ← Serde.required Json.asNat v
      sessionId := ← Serde.required Json.asString sessionId
      importId := ← Serde.required Json.asString importId
      batchSeq := ← Serde.required Json.asNat batchSeq
      batchCount := ← Serde.required Json.asNat batchCount
      compartments := ← Serde.required (Serde.readArray readCompartment) compartments }
  | _ => none

def StateImportCompartmentWire.intoStored (w : StateImportCompartmentWire) (createdAt : Int) :
    StoredCompartment where
  sequence := w.seq
  startMessage := w.startMessage
  endMessage := w.endMessage
  endMessageId := w.endMessageId
  title := w.title
  content := w.p1
  p1 := some w.p1
  p2 := w.p2
  p3 := w.p3
  p4 := w.p4
  importance := w.importance
  episodeType := w.episodeType
  startDate := w.startDate
  endDate := w.endDate
  createdAt := createdAt

/-! ## Operations -/

inductive BindingError where
  | unbound | sessionMismatch

inductive StateImportError where
  | store (message : String)
  | sessionNotEmpty
  | validation (error : StateImportValidationError)

inductive StateImportPreflight where
  | ready
  | duplicate (imported : Nat)

structure StateImportResult where
  imported : Nat
  duplicate : Bool

inductive Action where
  | bind (session : String)
  | unbind
  | teardown (session : String)
  | discard (session : String)
  | resolve (session : String)
  | openStore
  | preflight (session importId : String)
  | nowMs
  | stage (batch : Batch)
  | commit (session importId : String) (compartments : List StoredCompartment)
  | complete (session importId : String)
  deriving DecidableEq

abbrev Action.Reply : Action → Type
  | .bind _ => Option String
  | .unbind => Option String
  | .teardown _ => Unit
  | .discard _ => Unit
  | .resolve _ => Except BindingError Unit
  | .openStore => Bool
  | .preflight .. => Except StateImportError StateImportPreflight
  | .nowMs => Int
  | .stage _ => Except StateImportStageError StateImportStageOutcome
  | .commit .. => Except StateImportError StateImportResult
  | .complete .. => Unit

/-- A step of a program that works for a route.  `resolved` is the session that a request names,
once it found its route bound to it. -/
structure Op where
  route : RouteHandle
  resolved : Option String
  action : Action
  deriving DecidableEq

abbrev Op.Reply (op : Op) : Type := op.action.Reply

/-- The clocks, whether the store is open, fails, or has other state of the session, and what is
left of the compartments when secrets are taken out. -/
structure Outside where
  instant : Nat := 0
  nowMs : Int := 0
  storeOpen : Bool := true
  fault : Option String := none
  hasDurableState : Bool := false
  prepare : List StoredCompartment → List StoredCompartment := id

/-- What happened to the attempts of the sessions. -/
inductive Record where
  | staged (batch : Batch) (outcome : Except StateImportStageError StateImportStageOutcome)
  | dropped (session : String)

/-- The coordinator, the bindings and the recorded imports; what happened so far, the latest first,
the routes that were found bound to a session, and the imports that were committed. -/
structure State where
  coordinator : StateImportCoordinator := {}
  bindings : Entries RouteHandle String := Entries.empty
  imports : Entries String (String × Nat) := Entries.empty
  log : List Record := []
  resolved : List (RouteHandle × String) := []
  committed : List (String × String) := []

/-- The session, unless a route is still bound to it. -/
def lastRouteOf (bindings : Entries RouteHandle String) (session : String) : Option String :=
  if bindings.rows.any fun e => e.2 = session then none else some session

def preflightStateImport (outside : Outside) (s : State) (session importId : String) :
    Except StateImportError StateImportPreflight :=
  match s.imports.find session with
  | some (completedId, imported) =>
    if completedId = importId then .ok (.duplicate imported) else .error .sessionNotEmpty
  | none => if outside.hasDurableState then .error .sessionNotEmpty else .ok .ready

/-- The transaction of a commit. -/
def commitStateImport (outside : Outside) (session importId : String)
    (compartments : List StoredCompartment) (s : State) :
    Except StateImportError StateImportResult × State :=
  match preflightStateImport outside s session importId with
  | .error error => (.error error, s)
  | .ok (.duplicate imported) => (.ok { imported, duplicate := true }, s)
  | .ok .ready =>
    let compartments := outside.prepare compartments
    match validateStateImportCompartments compartments with
    | some error => (.error (.validation error), s)
    | none =>
      (.ok { imported := compartments.length, duplicate := false },
        { s with
          imports := s.imports.set session (importId, compartments.length)
          committed := (session, importId) :: s.committed })

/-- What the session has staged is dropped. -/
def State.drop (s : State) (session : String) : State :=
  { s with coordinator := s.coordinator.discard session, log := .dropped session :: s.log }

def Op.exec (outside : Outside) : (op : Op) → State → op.Reply × State
  | ⟨route, _, .bind session⟩, s =>
    let bindings := s.bindings.set route session
    ((s.bindings.find route).bind (lastRouteOf bindings), { s with bindings })
  | ⟨route, _, .unbind⟩, s =>
    let bindings := s.bindings.erase route
    ((s.bindings.find route).bind (lastRouteOf bindings), { s with bindings })
  | ⟨_, _, .teardown session⟩, s => ((), s.drop session)
  | ⟨_, _, .discard session⟩, s => ((), s.drop session)
  | ⟨route, _, .resolve session⟩, s =>
    match s.bindings.find route with
    | none => (.error .unbound, s)
    | some bound =>
      if bound = session then (.ok (), { s with resolved := (route, session) :: s.resolved })
      else (.error .sessionMismatch, s)
  | ⟨_, _, .openStore⟩, s => (outside.storeOpen, s)
  | ⟨_, _, .preflight session importId⟩, s =>
    (match outside.fault with
      | some message => .error (.store message)
      | none => preflightStateImport outside s session importId, s)
  | ⟨_, _, .nowMs⟩, s => (outside.nowMs, s)
  | ⟨_, _, .stage batch⟩, s =>
    let evicted := (s.coordinator.staleSessions outside.instant).map Record.dropped
    let (outcome, coordinator) := s.coordinator.stage batch outside.instant
    (outcome, { s with coordinator, log := .staged batch outcome :: (evicted.reverse ++ s.log) })
  | ⟨_, _, .commit session importId compartments⟩, s =>
    match outside.fault with
    | some message => (.error (.store message), s)
    | none => commitStateImport outside session importId compartments s
  | ⟨_, _, .complete session importId⟩, s =>
    let coordinator := s.coordinator.complete session importId
    let ended := (s.coordinator.sessions.find session).isSome &&
      (coordinator.sessions.find session).isNone
    ((), { s with coordinator, log := if ended then .dropped session :: s.log else s.log })

/-! ## The programs -/

inductive PreparedOutcome where
  | staged (compartments : Nat)
  | imported (imported : Nat) (duplicate : Bool)
  | error (code message : String)
  /-- A binding changed. -/
  | rebound

abbrev Handler := Process Op Op.Reply PreparedOutcome

/-- The size and the digest of a request, and what the parser says of one it refuses. -/
structure JsonText where
  size : Json → Nat
  digest : Json → String
  parseError : Json → String

def invalidParamsError (message : String) : PreparedOutcome := .error "invalid_params" message

def validationError (error : StateImportValidationError) (text : String) : PreparedOutcome :=
  .error error.code text

/-- The texts of validation errors. -/
def StateImportValidationError.message : StateImportValidationError → String
  | .seqNotIncreasing previous current =>
    "compartment seq must be strictly increasing: " ++ toString current ++ " followed " ++
      toString previous
  | .rangeInvalid sequence =>
    "compartment " ++ toString sequence ++ " has start_message after end_message"
  | .rangesOverlap previous current =>
    "compartment " ++ toString current ++ " overlaps or precedes compartment " ++ toString previous
  | .p1Empty sequence => "compartment " ++ toString sequence ++ " has an empty p1"
  | .endMessageIdInvalid sequence =>
    "compartment " ++ toString sequence ++ " end_message_id is not a parseable mid#idx"

def sessionNotEmpty : PreparedOutcome :=
  .error "session_not_empty" "state_import only accepts a session with no durable state"

def commitOutcome : Except StateImportError StateImportResult → PreparedOutcome
  | .ok result => .imported result.imported result.duplicate
  | .error .sessionNotEmpty => sessionNotEmpty
  | .error (.validation error) => validationError error error.message
  | .error (.store message) => .error "store_write_failed" message

/-- Drops what the session has staged, and answers. -/
def refuse (route : RouteHandle) (resolved : Option String) (session : String)
    (outcome : PreparedOutcome) : Handler :=
  .step ⟨route, resolved, .discard session⟩ fun _ => .done outcome

/-- The part of the handler that runs once the route is known to be bound to the session. -/
def importBatch (text : JsonText) (route : RouteHandle) (request : Json)
    (parsed : StateImportWire) : Handler :=
  let session := parsed.sessionId
  let refuse (outcome : PreparedOutcome) : Handler := refuse route (some session) session outcome
  .step ⟨route, some session, .openStore⟩ fun
  | false => refuse (.error "store_unavailable" "store not opened (no HELLO_ACK storage seam yet)")
  | true => .step ⟨route, some session, .preflight session parsed.importId⟩ fun
    | .ok (.duplicate imported) => refuse (.imported imported true)
    | .error .sessionNotEmpty => refuse sessionNotEmpty
    | .error (.validation error) => refuse (.error "store_load_failed" error.message)
    | .error (.store message) => refuse (.error "store_load_failed" message)
    | .ok .ready => .step ⟨route, some session, .nowMs⟩ fun createdAt =>
      let compartments := parsed.compartments.map fun w => w.intoStored createdAt
      match validateStateImportCompartments compartments with
      | some error => refuse (validationError error error.message)
      | none =>
        .step ⟨route, some session, .stage
          { session
            importId := parsed.importId
            batchSeq := parsed.batchSeq
            batchCount := parsed.batchCount
            digest := text.digest request
            bytes := text.size request
            compartments }⟩ fun
        | .ok (.staged staged) => .done (.staged staged)
        | .ok (.apply importId compartments) =>
          .step ⟨route, some session, .commit session importId compartments⟩ fun outcome =>
            .step ⟨route, some session, .complete session importId⟩ fun _ =>
              .done (commitOutcome outcome)
        | .error (.validation error) => .done (validationError error error.message)
        | .error (.protocol code message) => .done (.error code message)

/-- What a request that was parsed fails before its binding is looked up. -/
def envelopeError (parsed : StateImportWire) : Option PreparedOutcome :=
  if parsed.v ≠ 1 then some (.error "state_import_version" "state_import requires v=1")
  else if Text.isBlank parsed.sessionId then
    some (invalidParamsError "state_import requires a nonempty session_id")
  else if parsed.importId.utf8ByteSize = 0 ∨
      stateImportMaxIdBytes < parsed.importId.utf8ByteSize then
    some (invalidParamsError "import_id must contain 1..=128 bytes")
  else if parsed.batchCount = 0 ∨ parsed.batchCount ≤ parsed.batchSeq then
    some (.error "batch_seq_mismatch" "batch_seq must be inside a nonempty batch_count")
  else none

def handleStateImportValue (text : JsonText) (route : RouteHandle) (request : Json) : Handler :=
  let refuseRaw (outcome : PreparedOutcome) : Handler :=
    match (request.get? "session_id").bind Json.asString with
    | some session => refuse route none session outcome
    | none => .done outcome
  if maxFacadeFrameBytes < text.size request then
    refuseRaw (invalidParamsError "request body exceeds the 1 MiB limit")
  else
    match readStateImport request with
    | none => refuseRaw (invalidParamsError (text.parseError request))
    | some parsed =>
      match envelopeError parsed with
      | some outcome => refuse route none parsed.sessionId outcome
      | none =>
        .step ⟨route, none, .resolve parsed.sessionId⟩ fun
        | .error .unbound => refuse route none parsed.sessionId
            (.error "route_unbound" "state_import on a channel with no session binding")
        | .error .sessionMismatch => refuse route none parsed.sessionId
            (.error "session_mismatch"
              "request session_id does not match the channel's bound session")
        | .ok () => importBatch text route request parsed

/-- Drops what a session without routes has staged. -/
def teardown (route : RouteHandle) : Option String → Handler
  | none => .done .rebound
  | some session => .step ⟨route, none, .teardown session⟩ fun _ => .done .rebound

def bindRoute (route : RouteHandle) (session : String) : Handler :=
  .step ⟨route, none, .bind session⟩ (teardown route)

def unbindRoute (route : RouteHandle) : Handler := .step ⟨route, none, .unbind⟩ (teardown route)

end MagicContext.StateImports
