import MagicContext.Json
import MagicContext.Lib.Entries
import MagicContext.Lib.Process

/-!
# Staging of transform pages

A transform request that is too large for one frame arrives in pages.  Each session collects the
pages of one attempt at a time, all sessions draw on one budget of staged bytes, and the last page
hands the collected ones to the transform.  The handler takes the coordinator's lock for each of
its steps and lets go of it while the transform runs.

## What is here

* `TransformPageCoordinator` — the sessions and the counters, with `discard` and `stage`.
* `assembleTransformPages` — one request from the pages of an attempt.
* `Op`, `Op.exec` — what the handler does under one lock.
* `checkPage`, `handleTransformPageValue` — the checks of a page's envelope, and the handler.
-/

namespace MagicContext.TransformPages

/-! ## The coordinator -/

/-- The bytes of a response. -/
structure PreparedOutput where
  bytes : List UInt8
  deriving DecidableEq

structure PendingTransformPage where
  transformId : String
  generation : Nat
  total : Nat
  nextIndex : Nat
  digests : List String
  pages : List Json
  bytes : Nat
  queuedAtMs : Nat

inductive TransformPagePhase where
  | idle
  | collecting (pending : PendingTransformPage)
  | applying (transformId : String) (bytes : Nat)

structure CompletedTransformPage where
  transformId : String
  generation : Nat
  finalDigest : String
  result : PreparedOutput

structure TransformPageSession where
  phase : TransformPagePhase := .idle
  completed : Option CompletedTransformPage := none

def transformPageMaxBytes : Nat := 512 * 1024
def transformPageMaxStagedBytes : Nat := 128 * 1024 * 1024
def transformPageMaxPending : Nat := 64
def transformPageMaxIdBytes : Nat := 128

structure TransformPageCoordinator where
  sessions : Entries String TransformPageSession := Entries.empty
  totalStagedBytes : Nat := 0
  pendingTransformCount : Nat := 0
  maxStagedBytes : Nat := transformPageMaxStagedBytes
  maxPendingTransforms : Nat := transformPageMaxPending

/-- A page as its request carries it. -/
structure TransformPage where
  session : String
  transformId : String
  generation : Nat
  pageIndex : Nat
  pageTotal : Nat
  pageDigest : String
  page : Json
  pageBytes : Nat
  pageComplete : Bool
  deriving DecidableEq

inductive TransformPageStageAction where
  | ack (nextIndex : Nat)
  | apply (pages : List Json) (transformId : String) (generation : Nat) (finalDigest : String)
      (inboundBytes : Nat)
  deriving DecidableEq

inductive TransformPageStageError where
  | attemptMismatch | digestMismatch | orderMismatch | bufferOverflow | inProgress
  deriving DecidableEq

def phaseBytes : TransformPagePhase → Nat
  | .collecting pending => pending.bytes
  | .applying _ bytes => bytes
  | .idle => 0

def isPending : TransformPagePhase → Bool
  | .idle => false
  | _ => true

namespace TransformPageCoordinator

variable (c : TransformPageCoordinator)

def releasePhase (phase : TransformPagePhase) : TransformPageCoordinator :=
  if isPending phase then
    { c with
      pendingTransformCount := c.pendingTransformCount - 1
      totalStagedBytes := c.totalStagedBytes - phaseBytes phase }
  else c

def setPhase (session : String) (phase : TransformPagePhase) : TransformPageCoordinator :=
  { c with
    sessions := c.sessions.set session { (c.sessions.find session).getD {} with phase } }

def discard (session : String) : TransformPageCoordinator :=
  match c.sessions.find session with
  | none => c
  | some found => { c with sessions := c.sessions.set session {} }.releasePhase found.phase

/-- The retained result of a transform. -/
def completed (c : TransformPageCoordinator) (session transformId : String) :
    Option CompletedTransformPage :=
  ((c.sessions.find session).bind TransformPageSession.completed).filter
    fun completed => completed.transformId = transformId

/-- A page of this size still fits into the staging budget. -/
def Fits (pageBytes : Nat) : Prop :=
  pageBytes ≤ c.maxStagedBytes ∧ c.totalStagedBytes + pageBytes ≤ c.maxStagedBytes

instance (c : TransformPageCoordinator) (pageBytes : Nat) : Decidable (c.Fits pageBytes) :=
  inferInstanceAs (Decidable (_ ∧ _))

def stage (q : TransformPage) (queuedAtMs : Nat) :
    Except TransformPageStageError TransformPageStageAction × TransformPageCoordinator :=
  if c.maxPendingTransforms ≤ c.pendingTransformCount ∧ c.sessions.find q.session = none then
    (.error .bufferOverflow, c)
  else
    let phase := ((c.sessions.find q.session).getD {}).phase
    let c := c.setPhase q.session .idle
    match phase with
    | .idle =>
      if q.pageIndex ≠ 0 then (.error .attemptMismatch, c)
      else if ¬ c.Fits q.pageBytes then (.error .bufferOverflow, c)
      else
        let c := { c with
          totalStagedBytes := c.totalStagedBytes + q.pageBytes
          pendingTransformCount := c.pendingTransformCount + 1 }
        if q.pageComplete then
          (.ok (.apply [q.page] q.transformId q.generation q.pageDigest q.pageBytes),
            c.setPhase q.session (.applying q.transformId q.pageBytes))
        else
          (.ok (.ack 1),
            c.setPhase q.session (.collecting
              { transformId := q.transformId
                generation := q.generation
                total := q.pageTotal
                nextIndex := 1
                digests := [q.pageDigest]
                pages := [q.page]
                bytes := q.pageBytes
                queuedAtMs }))
    | .applying active bytes => (.error .inProgress, c.setPhase q.session (.applying active bytes))
    | .collecting pending =>
      if pending.transformId ≠ q.transformId ∨ pending.generation ≠ q.generation ∨
          pending.total ≠ q.pageTotal then
        (.error .attemptMismatch, c.releasePhase (.collecting pending))
      else if q.pageIndex < pending.nextIndex then
        if pending.digests[q.pageIndex]? = some q.pageDigest then
          (.ok (.ack pending.nextIndex), c.setPhase q.session (.collecting pending))
        else (.error .digestMismatch, c.releasePhase (.collecting pending))
      else if pending.nextIndex < q.pageIndex then
        (.error .orderMismatch, c.releasePhase (.collecting pending))
      else if c.maxStagedBytes < pending.bytes + q.pageBytes ∨
          c.maxStagedBytes < c.totalStagedBytes + q.pageBytes then
        (.error .bufferOverflow, c.releasePhase (.collecting pending))
      else
        let pending := { pending with
          bytes := pending.bytes + q.pageBytes
          nextIndex := pending.nextIndex + 1
          digests := pending.digests ++ [q.pageDigest]
          pages := pending.pages ++ [q.page] }
        let c := { c with totalStagedBytes := c.totalStagedBytes + q.pageBytes }
        if q.pageComplete then
          (.ok (.apply pending.pages pending.transformId pending.generation q.pageDigest
              pending.bytes),
            c.setPhase q.session (.applying pending.transformId pending.bytes))
        else (.ok (.ack pending.nextIndex), c.setPhase q.session (.collecting pending))

/-- An apply of the session ended: its phase goes back to idle, and a result is retained, unless
the phase is no longer the one of this transform. -/
def settle (session transformId : String) (generation : Nat)
    (finalDigest : String) (result : Option PreparedOutput) : TransformPageCoordinator :=
  let found := (c.sessions.find session).getD {}
  match found.phase with
  | .applying applyingId bytes =>
    if applyingId = transformId then
      let c := (c.setPhase session .idle).releasePhase (.applying applyingId bytes)
      match result with
      | none => c
      | some result =>
        { c with
          sessions := c.sessions.set session
            { (c.sessions.find session).getD {} with
              completed := some { transformId, generation, finalDigest, result } } }
    else c.setPhase session found.phase
  | current => c.setPhase session current

end TransformPageCoordinator

/-! ## Assembly -/

/-- What the handler takes from the JSON library: the size of a request's text, the digest of the
arrays a page carries, and the parser. -/
structure JsonText where
  size : Json → Nat
  contentDigest : Json → String
  parse : String → Except String Json

def transformPageFields : List String :=
  ["transform_page_id", "transform_generation", "transform_page_index", "transform_page_total",
    "transform_page_complete", "transform_page_digest"]

def transformPageArrayFields : List String :=
  ["input", "messages", "native_messages", "ts_output", "ts_ck_messages", "normalizations"]

def itemContinuationKey : String := "__shadow_item_continuation"

variable (text : JsonText)

def transformContinuationChunk (field : String) (itemIndex expectedChunk chunkTotal : Nat)
    (chunkValue : Json) : Except String String :=
  match (chunkValue.get? itemContinuationKey).bind Json.asObject with
  | none => .error "transform continuation item was interrupted"
  | some fields =>
    let marker := Json.object fields
    if (marker.get? "field").bind Json.asString = some field ∧
        (marker.get? "item_index").bind Json.asNat = some itemIndex ∧
        (marker.get? "chunk_index").bind Json.asNat = some expectedChunk ∧
        (marker.get? "chunk_total").bind Json.asNat = some chunkTotal then
      match (chunkValue.get? "chunk").bind Json.asString with
      | some chunk => .ok chunk
      | none => .error "transform continuation marker is missing its chunk"
    else .error "transform continuation chunks were reordered"

/-- The text of the chunks from `expected` on, and the values after them. -/
def takeChunks (field : String) (itemIndex chunkTotal : Nat) :
    Nat → List Json → String → Except String (String × List Json)
  | 0, values, serialized => .ok (serialized, values)
  | _ + 1, [], _ => .error "transform continuation item ended before all chunks arrived"
  | left + 1, value :: values, serialized =>
    match transformContinuationChunk field itemIndex (chunkTotal - (left + 1)) chunkTotal value with
    | .error message => .error message
    | .ok chunk => takeChunks field itemIndex chunkTotal left values (serialized ++ chunk)

/-- `fuel` bounds the number of values, of which every round takes at least one. -/
def assembleValues (field : String) : Nat → List Json → List Json → Except String (List Json)
  | _, [], assembled => .ok assembled
  | 0, _ :: _, assembled => .ok assembled
  | fuel + 1, value :: values, assembled =>
    match (value.get? itemContinuationKey).bind Json.asObject with
    | none => assembleValues field fuel values (assembled ++ [value])
    | some fields => do
      let marker := Json.object fields
      let some markerField := (marker.get? "field").bind Json.asString
        | throw "transform continuation marker is missing its field"
      let some itemIndex := (marker.get? "item_index").bind Json.asNat
        | throw "transform continuation marker has an invalid item index"
      let some chunkIndex := (marker.get? "chunk_index").bind Json.asNat
        | throw "transform continuation marker has an invalid chunk index"
      let some chunkTotal := (marker.get? "chunk_total").bind Json.asNat
        | throw "transform continuation marker has an invalid chunk total"
      if markerField ≠ field ∨ itemIndex ≠ assembled.length ∨ chunkIndex ≠ 0 ∨ chunkTotal = 0 then
        throw "transform continuation marker does not match its array position"
      else
        let (serialized, rest) ← takeChunks field itemIndex chunkTotal chunkTotal
          (value :: values) ""
        match text.parse serialized with
        | .error error =>
          throw ("transform continuation item was not valid JSON: " ++ error)
        | .ok item => assembleValues field fuel rest (assembled ++ [item])

def assembleTransformPageField (field : String) (values : List Json) : Except String (List Json) :=
  assembleValues text field values.length values []

/-- What a page has under an array field. -/
def arrayItems (field : String) (page : Json) : List Json :=
  ((page.get? field).bind Json.asArray).getD []

def assembleFields (pages : List Json) : List String → Json → Except String Json
  | [], final => .ok final
  | field :: fields, final => do
    let hadField := (final.get? field).isSome
    let values := (pages ++ [final]).flatMap (arrayItems field)
    let final := final.remove field
    if hadField || !values.isEmpty then
      let values ← assembleTransformPageField text field values
      assembleFields pages fields (final.set field (.array values))
    else assembleFields pages fields final

def assembleTransformPages (pages : List Json) : Except String Json :=
  match pages.getLast? with
  | none => .error "transform page collection was empty"
  | some final =>
    if !final.isObject then .error "transform page was not an object"
    else
      assembleFields text pages.dropLast transformPageArrayFields
        (transformPageFields.foldl Json.remove final)

/-! ## The handler -/

inductive PreparedOutcome where
  | response (output : PreparedOutput)
  | error (code message : String)
  | staged (nextExpectedIndex : Nat)
  | streamed

def invalidParamsError (message : String) : PreparedOutcome := .error "invalid_params" message

def transformPageError (suffix message : String) : PreparedOutcome :=
  .error ("authority_transform_page_" ++ suffix) message

/-- The steps of a page request.  `lookup` and `stage` take the lock one after the other; the
transform runs without it. -/
inductive Op where
  | discard (session : String)
  | lookup (q : TransformPage)
  | stage (q : TransformPage)
  | transform (assembled : Json) (inboundBytes : Nat)
  | settle (session transformId : String) (generation : Nat) (finalDigest : String)
      (result : Option PreparedOutput)
  deriving DecidableEq

abbrev Op.Reply : Op → Type
  | .discard _ => Unit
  | .lookup _ => Option PreparedOutcome
  | .stage _ => Except TransformPageStageError TransformPageStageAction
  | .transform .. => PreparedOutcome
  | .settle .. => Unit

/-- What is not decided by the coordinator: the clock, and what a transform comes to. -/
structure Outside where
  nowMs : Nat := 0
  outcome : PreparedOutcome := .streamed

/-- What a retained result says to a page of its transform. -/
def answer (completed : CompletedTransformPage) (q : TransformPage) : PreparedOutcome :=
  if completed.generation = q.generation ∧ q.pageComplete ∧
      completed.finalDigest = q.pageDigest then
    .response completed.result
  else transformPageError "digest_mismatch" "completed transform page content changed"

/-- What happened to the attempts of the sessions. -/
inductive Record where
  | staged (q : TransformPage) (outcome : Except TransformPageStageError TransformPageStageAction)
  | discarded (session : String)
  | settled (session : String) (released : Bool)

/-- The coordinator, and what happened so far, the latest first. -/
structure State where
  coordinator : TransformPageCoordinator := {}
  log : List Record := []

def Op.exec (outside : Outside) : (op : Op) → State → op.Reply × State
  | .discard session, s =>
    ((), { coordinator := s.coordinator.discard session, log := .discarded session :: s.log })
  | .lookup q, s =>
    ((s.coordinator.completed q.session q.transformId).map fun found => answer found q, s)
  | .stage q, s =>
    let (outcome, coordinator) := s.coordinator.stage q outside.nowMs
    (outcome, { coordinator, log := .staged q outcome :: s.log })
  | .transform .., s => (outside.outcome, s)
  | .settle session transformId generation finalDigest result, s =>
    let released := match ((s.coordinator.sessions.find session).getD {}).phase with
      | .applying applyingId _ => decide (applyingId = transformId)
      | _ => false
    ((),
      { coordinator := s.coordinator.settle session transformId generation finalDigest result
        log := .settled session released :: s.log })

abbrev Handler := Process Op Op.Reply PreparedOutcome

def textField (request : Json) (key : String) : Option String :=
  (request.get? key).bind Json.asString

/-- The checks of a page's envelope, in the order they are made. -/
def checkPage (session : String) (request : Json) : Except PreparedOutcome TransformPage := do
  if transformPageFields.any fun field => (request.get? field).isNone then
    throw (invalidParamsError "transform page envelope must be all-or-none")
  else
  match textField request "transform_page_id" with
  | none => throw (invalidParamsError "transform_page_id must contain 1..=128 bytes")
  | some transformId =>
  if transformId.utf8ByteSize = 0 ∨ transformPageMaxIdBytes < transformId.utf8ByteSize then
    throw (invalidParamsError "transform_page_id must contain 1..=128 bytes")
  else
  let some generation := (request.get? "transform_generation").bind Json.asNat
    | throw (invalidParamsError "transform_generation must be an unsigned integer")
  let some pageIndex := (request.get? "transform_page_index").bind Json.asNat
    | throw (invalidParamsError "transform_page_index must be an unsigned integer")
  let some pageTotal := (request.get? "transform_page_total").bind Json.asNat
    | throw (invalidParamsError "transform_page_total must be an unsigned integer")
  let some pageComplete := (request.get? "transform_page_complete").bind Json.asBool
    | throw (invalidParamsError "transform_page_complete must be a boolean")
  let some pageDigest := textField request "transform_page_digest"
    | throw (invalidParamsError "transform_page_digest must be a string")
  if pageTotal = 0 ∨ pageTotal ≤ pageIndex then
    throw (transformPageError "protocol_mismatch" "transform page index/total is invalid")
  else if pageComplete ≠ decide (pageIndex + 1 = pageTotal) then
    throw (transformPageError "protocol_mismatch"
      "transform page completion disagrees with the final page index")
  else if !pageComplete && ((request.asObject).getD []).any fun field =>
      !(["method", "session_id", "shadow_generation"] ++ transformPageFields ++
        transformPageArrayFields).contains field.1 then
    throw (transformPageError "protocol_mismatch"
      "non-final transform pages may carry only message arrays")
  else if text.contentDigest request ≠ pageDigest then
    throw (transformPageError "digest_mismatch"
      "transform page content digest did not match the supplied digest")
  else if transformPageMaxBytes < text.size request then
    throw (transformPageError "buffer_overflow" "transform page exceeded the 512 KiB page cap")
  else
    return { session, transformId, generation, pageIndex, pageTotal, pageDigest, page := request
             pageBytes := text.size request, pageComplete }

def stageError : TransformPageStageError → PreparedOutcome
  | .attemptMismatch => transformPageError "attempt_mismatch"
      "transform page generation or envelope changed during collection"
  | .digestMismatch => transformPageError "digest_mismatch"
      "redriven transform page content changed"
  | .orderMismatch => transformPageError "order_mismatch"
      "transform pages must arrive in strict index order"
  | .bufferOverflow => transformPageError "buffer_overflow"
      "transform page staging exceeded the handler-wide byte cap"
  | .inProgress => transformPageError "in_progress" "the final transform page is being applied"

/-- The result that is kept of an outcome. -/
def completedResult : PreparedOutcome → Option PreparedOutput
  | .response output => some output
  | _ => none

/-- The handler, for a request on a route bound to the session. -/
def handleTransformPageValue (session : String) (request : Json) : Handler :=
  match checkPage text session request with
  | .error outcome => .step (.discard session) fun _ => .done outcome
  | .ok q =>
    .step (.lookup q) fun
    | some outcome => .done outcome
    | none => .step (.stage q) fun
      | .error error => .done (stageError error)
      | .ok (.ack nextIndex) => .done (.staged nextIndex)
      | .ok (.apply pages transformId generation finalDigest inboundBytes) =>
        match assembleTransformPages text pages with
        | .error message => .step (.discard session) fun _ =>
            .done (transformPageError "protocol_mismatch" message)
        | .ok assembled => .step (.transform assembled inboundBytes) fun outcome =>
            .step (.settle session transformId generation finalDigest (completedResult outcome))
              fun _ => .done outcome

end MagicContext.TransformPages
