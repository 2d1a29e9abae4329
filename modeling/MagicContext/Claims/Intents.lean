import MagicContext.Claims.Contract
import MagicContext.Lib.Table

/-!
# Claim intents

A claim command is staged in a ledger before the host changes its own database, and acknowledged
afterwards.  A command is staged once, with its digest and its binding to an authority; what happens
to it later is recorded in its state and its result.

## What is here

* `ClaimIntentRecord` and `Ledger` — the staged commands.
* `claimIntentStageFence` — what staging has to clear.
* `stageClaimIntent` and `acknowledgeClaimIntent` — the two writes, and what they do.
-/

namespace MagicContext.Claims

/-! ## Records -/

structure ClaimIntentBinding where
  databaseIncarnationId : String
  formatEpoch : Int
  authorityProject : String
  authorityGeneration : Nat

inductive ClaimIntentState where
  | staged | contextCommitted | acknowledged | terminalRejected
  deriving DecidableEq

def ClaimIntentState.asStr : ClaimIntentState → String
  | staged => "staged"
  | contextCommitted => "context-committed"
  | acknowledged => "acknowledged"
  | terminalRejected => "terminal-rejected"

def ClaimIntentState.isUnresolved : ClaimIntentState → Bool
  | staged => true
  | contextCommitted => true
  | _ => false

inductive ClaimIntentAckKind where
  | contextCommitted | acknowledged | terminalRejected
  deriving DecidableEq

structure ClaimIntentRecord where
  command : ClaimCommandIdentity
  binding : ClaimIntentBinding
  requestDigest : String
  state : ClaimIntentState
  resultJson : Option String
  createdAtMs : Int
  updatedAtMs : Int

abbrev Ledger := Table ClaimIntentRecord.command

/-- The state of the store's one control row. -/
inductive TransitionState where
  | accepting | draining | resetting
  deriving DecidableEq

def TransitionState.asStr : TransitionState → String
  | accepting => "accepting"
  | draining => "draining"
  | resetting => "resetting"

structure ClaimIntentControl where
  databaseIncarnationId : String
  authorityGeneration : Nat
  transitionState : TransitionState

/-! ## Checks -/

def i64Max : Nat := 2 ^ 63 - 1

/-- A name of one to two hundred and fifty-six bytes. -/
def validateName (name value : String) : Except StoreError Unit :=
  if value = "" ∨ 256 < value.utf8ByteSize then
    .error (.claimIntentInvalid s!"{name} must contain 1..=256 bytes")
  else .ok ()

def validateClaimIntentFields (binding : ClaimIntentBinding) (command : ClaimCommandIdentity) :
    Except StoreError Unit :=
  if !isLowerHex binding.databaseIncarnationId 32 then
    .error (.claimIntentInvalid "database incarnation ID must be 32 lowercase hex characters")
  else if binding.formatEpoch < 1 then
    .error (.claimIntentInvalid "format epoch must be positive")
  else if binding.authorityProject = "" then
    .error (.claimIntentInvalid "authority project is required")
  else if i64Max < binding.authorityGeneration then
    .error (.claimIntentInvalid "authority generation exceeds SQLite i64")
  else do
    validateName "producer" command.producer
    validateName "operation key" command.operationKey

def requireClaimIntentBinding (stored : ClaimIntentRecord) (binding : ClaimIntentBinding) :
    Except StoreError Unit :=
  if stored.binding.databaseIncarnationId ≠ binding.databaseIncarnationId then
    .error (.claimIntentBindingMismatch "database incarnation"
      stored.binding.databaseIncarnationId binding.databaseIncarnationId)
  else if stored.binding.formatEpoch ≠ binding.formatEpoch then
    .error (.claimIntentBindingMismatch "format epoch"
      (toString stored.binding.formatEpoch) (toString binding.formatEpoch))
  else if stored.binding.authorityProject ≠ binding.authorityProject then
    .error (.claimIntentBindingMismatch "authority project"
      stored.binding.authorityProject binding.authorityProject)
  else if stored.binding.authorityGeneration ≠ binding.authorityGeneration then
    .error (.claimIntentBindingMismatch "authority generation"
      (toString stored.binding.authorityGeneration) (toString binding.authorityGeneration))
  else .ok ()

/-- The checks of a command against its record. -/
def requireSameCommand (record : ClaimIntentRecord) (binding : ClaimIntentBinding)
    (requestDigest : String) : Except StoreError Unit :=
  if record.requestDigest ≠ requestDigest then
    .error (.claimIntentIdentityConflict record.command)
  else requireClaimIntentBinding record binding

/-- The parser of JSON texts, and its printer. -/
structure JsonText where
  parse : String → Except String Json
  print : Json → String

def contractText : ContractError → String
  | .notCanonical reason => "not canonical: " ++ reason
  | .malformedResult reason => "malformed result: " ++ reason

/-- A failure of the contract makes the request invalid. -/
def contractual {α : Type} (result : Except ContractError α) : Except StoreError α :=
  match result with
  | .ok value => .ok value
  | .error error => .error (.claimIntentInvalid (contractText error))

/-- The outcomes that fit an acknowledgement. -/
def validateOutcome (result : ClaimOperationResult) (kind : ClaimIntentAckKind) :
    Except StoreError Unit :=
  match kind with
  | .contextCommitted =>
    if result.outcome = .applied ∨ result.outcome = .noop then .ok ()
    else .error (.claimIntentInvalid "context-committed result must be applied or noop")
  | .terminalRejected =>
    if result.outcome ≠ .stale ∨ !result.effects.isEmpty ∨ !result.generations.isEmpty then
      .error (.claimIntentInvalid "terminal-rejected result must be stale with zero effects")
    else .ok ()
  | .acknowledged => .ok ()

def validateClaimResultJson (json : JsonText) (resultJson : String) (kind : ClaimIntentAckKind) :
    Except StoreError Unit :=
  match json.parse resultJson with
  | .error error =>
    .error (.claimIntentInvalid
      (contractText (.malformedResult s!"stored result is not JSON: {error}")))
  | .ok value => do
    let result ← contractual (decodeClaimOperationResult value)
    let canonical ← contractual (canonicalJsonEncode value)
    if canonical ≠ resultJson then .error (.claimIntentInvalid "result_json is not canonical")
    else validateOutcome result kind

/-- A result is given with the two transitions that record one. -/
def validateAckResult (json : JsonText) (kind : ClaimIntentAckKind) (resultJson : Option String) :
    Except StoreError Unit :=
  match kind, resultJson with
  | .acknowledged, none => .ok ()
  | .acknowledged, some _ =>
    .error (.claimIntentInvalid "acknowledged transition must not supply result_json")
  | kind, some result => validateClaimResultJson json result kind
  | _, none => .error (.claimIntentInvalid "result_json is required for this transition")

/-! ## The fence -/

/-- The project, the state and the generation of a route's authority. -/
structure RouteAuthority where
  project : String
  state : AuthorityState
  generation : Nat
  deriving DecidableEq

/-- `claim_intent_stage_fence`: the control row accepts, and the route's authority is the module's
at the generation of the binding. -/
def claimIntentStageFence (control : Option ClaimIntentControl)
    (authority : Option RouteAuthority) (binding : ClaimIntentBinding) : Except StoreError Unit :=
  match control.filter fun c => c.transitionState != .accepting with
  | some c => .error (.claimIntentAuthorityFrozen c.transitionState.asStr)
  | none =>
    match authority with
    | none => .error .claimIntentRouteNotManaged
    | some authority =>
      if authority.state ≠ .MODULE then
        .error (.claimIntentAuthorityFrozen authority.state.asStr)
      else if authority.project ≠ binding.authorityProject then
        .error (.claimIntentBindingMismatch "authority project" authority.project
          binding.authorityProject)
      else if authority.generation ≠ binding.authorityGeneration then
        .error (.claimIntentBindingMismatch "authority generation"
          (toString authority.generation) (toString binding.authorityGeneration))
      else .ok ()

/-! ## Staging -/

/-- A record as the caller gets it. -/
structure ClaimIntentMutationOutcome where
  record : ClaimIntentRecord
  replayed : Bool

/-- A command that is staged still needs the fence. -/
def stagedFence (fence : Except StoreError Unit) (record : ClaimIntentRecord) :
    Except StoreError Unit :=
  if record.state = .staged then fence else .ok ()

/-- A command that is sent again. -/
def replayStage (fence : Except StoreError Unit) (record : ClaimIntentRecord)
    (binding : ClaimIntentBinding) (requestDigest : String) :
    Except StoreError ClaimIntentMutationOutcome := do
  requireSameCommand record binding requestDigest
  stagedFence fence record
  return { record, replayed := true }

/-- `length` of a text column counts up to the first null character. -/
def sqlLength (text : String) : Nat := (text.toList.takeWhile (· != '\x00')).length

/-- The length constraints of the table. -/
def ClaimIntentRecord.withinLengths (record : ClaimIntentRecord) : Bool :=
  decide (1 ≤ sqlLength record.command.producer ∧ sqlLength record.command.producer ≤ 256) &&
    decide (1 ≤ sqlLength record.command.operationKey ∧
      sqlLength record.command.operationKey ≤ 256) &&
    decide (sqlLength record.binding.databaseIncarnationId = 32) &&
    decide (0 < sqlLength record.binding.authorityProject) &&
    decide (sqlLength record.requestDigest = 64)

/-- A new row, if the constraints of the table allow it. -/
def Ledger.insertRecord (ledger : Ledger) (record : ClaimIntentRecord) : Except StoreError Ledger :=
  if record.withinLengths then
    match ledger.insert record with
    | some ledger' => .ok ledger'
    | none => .error .constraint
  else .error .constraint

variable (sys : Platform)

/-- The transaction of `stage_claim_intent`; `identities` are the texts that were recorded. -/
def stageTransaction (fence : Except StoreError Unit) (ledger : Ledger)
    (binding : ClaimIntentBinding) (command : ClaimCommandIdentity) (requestDigest : String)
    (identities : List String) (nowMs : Int) :
    Except StoreError (ClaimIntentMutationOutcome × Ledger) :=
  match ledger.get command with
  | some record => do
    let outcome ← replayStage fence record binding requestDigest
    return (outcome, ledger)
  | none => do
    fence
    sys.rejectRecordedIdentities identities
    let record : ClaimIntentRecord :=
      { command, binding, requestDigest
        state := .staged
        resultJson := none
        createdAtMs := nowMs
        updatedAtMs := nowMs }
    let ledger' ← ledger.insertRecord record
    return ({ record, replayed := false }, ledger')

def stageClaimIntent (json : JsonText) (control : Option ClaimIntentControl)
    (authority : Option RouteAuthority) (ledger : Ledger) (binding : ClaimIntentBinding)
    (command : ClaimCommandIdentity) (request : Json) (nowMs : Int) :
    Except StoreError (ClaimIntentMutationOutcome × Ledger) := do
  validateClaimIntentFields binding command
  let identities := [command.producer, command.operationKey, binding.databaseIncarnationId,
    binding.authorityProject, json.print request]
  existingIdentities identities
  let requestDigest ← contractual (computeClaimOperationRequestDigest sys request)
  stageTransaction sys (claimIntentStageFence control authority binding) ledger binding
    command requestDigest identities nowMs

/-! ## Acknowledgement -/

/-- Where an acknowledgement leads, if it is no replay. -/
def nextState (kind : ClaimIntentAckKind) (record : ClaimIntentRecord)
    (resultJson : Option String) : Except StoreError (Option ClaimIntentState) :=
  match kind, record.state with
  | .contextCommitted, .staged => .ok (some .contextCommitted)
  | .terminalRejected, .staged => .ok (some .terminalRejected)
  | .acknowledged, .contextCommitted => .ok (some .acknowledged)
  | .acknowledged, .acknowledged => .ok none
  | .acknowledged, .terminalRejected => .ok none
  | .acknowledged, .staged => .error (.claimIntentTransition "context-committed" record.state.asStr)
  | .contextCommitted, .contextCommitted => sameResult
  | .contextCommitted, .acknowledged => sameResult
  | .terminalRejected, .terminalRejected => sameResult
  | .contextCommitted, .terminalRejected => .error (.claimIntentTransition "staged" record.state.asStr)
  | .terminalRejected, .contextCommitted => .error (.claimIntentTransition "staged" record.state.asStr)
  | .terminalRejected, .acknowledged => .error (.claimIntentTransition "staged" record.state.asStr)
where
  /-- A replay names the result that is stored. -/
  sameResult : Except StoreError (Option ClaimIntentState) :=
    if record.resultJson = resultJson then .ok none
    else .error (.claimIntentTransition "staged" record.state.asStr)

/-- The update of an acknowledged record. -/
def ClaimIntentRecord.acknowledge (record : ClaimIntentRecord) (state : ClaimIntentState)
    (resultJson : Option String) (nowMs : Int) : ClaimIntentRecord :=
  { record with
    state := state
    resultJson := resultJson.or record.resultJson
    updatedAtMs := nowMs }

def Ledger.acknowledge (ledger : Ledger) (command : ClaimCommandIdentity)
    (state : ClaimIntentState) (resultJson : Option String) (nowMs : Int) : Ledger :=
  ledger.update (fun record => decide (record.command = command))
    (fun record => record.acknowledge state resultJson nowMs) fun _ => rfl

/-- A result that is not the stored one may hold no secret. -/
def screenResult (record : ClaimIntentRecord)
    (resultJson : Option String) : Except StoreError Unit :=
  if record.resultJson = resultJson then .ok ()
  else sys.rejectRecordedIdentities resultJson.toList

/-- The transaction of `acknowledge_claim_intent`. -/
def acknowledgeTransaction (ledger : Ledger) (binding : ClaimIntentBinding)
    (command : ClaimCommandIdentity) (requestDigest : String) (kind : ClaimIntentAckKind)
    (resultJson : Option String) (nowMs : Int) :
    Except StoreError (ClaimIntentMutationOutcome × Ledger) :=
  match ledger.get command with
  | none => .error (.claimIntentNotFound command)
  | some record => do
    requireSameCommand record binding requestDigest
    let next ← nextState kind record resultJson
    match next with
    | none => return ({ record, replayed := true }, ledger)
    | some state => do
      screenResult sys record resultJson
      return ({ record := record.acknowledge state resultJson nowMs, replayed := false },
        ledger.acknowledge command state resultJson nowMs)

def acknowledgeClaimIntent (json : JsonText) (ledger : Ledger)
    (binding : ClaimIntentBinding) (command : ClaimCommandIdentity) (requestDigest : String)
    (kind : ClaimIntentAckKind) (resultJson : Option String) (nowMs : Int) :
    Except StoreError (ClaimIntentMutationOutcome × Ledger) := do
  validateClaimIntentFields binding command
  if !isLowerHex requestDigest 64 then
    .error (.claimIntentInvalid "request digest must be 64 lowercase hex characters")
  else do
    validateAckResult json kind resultJson
    existingIdentities ([command.producer, command.operationKey,
      binding.databaseIncarnationId, binding.authorityProject, requestDigest] ++ resultJson.toList)
    acknowledgeTransaction sys ledger binding command requestDigest kind resultJson nowMs

/-- How many commands are staged or committed and not yet settled. -/
def Ledger.unresolved (ledger : Ledger) : Nat := ledger.count fun record => record.state.isUnresolved

end MagicContext.Claims
