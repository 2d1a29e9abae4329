import Mathlib.Data.String.Basic
import MagicContext.Lib.Checks

/-!
# Authority rows

Memories and notes of a project are owned by the TypeScript host or by the module.  A row for each
store, project and domain says who owns them, and its generation counts the changes of hands.  The
way back to the host is a drain: a coordinator with a lease journals its steps and finishes against
the head of the change feed.

## What is here

* `Platform` — the detector of secrets and the digest.
* `AuthorityRow` — the row, with one function for each transition, and a lemma for each on what it
  does when it succeeds.
* `Moves` — a state changes with one step of the generation.
-/

namespace MagicContext.Claims

/-! ## Keys and errors -/

/-- What the program takes from outside. -/
structure Platform where
  /-- `redact_durable_text` finds something. -/
  detects : String → Bool
  /-- `redact_transaction_durable_text` finds something. -/
  detectsInTransaction : String → Bool
  sha256Hex : String → String

inductive Domain where
  | memories | notes
  deriving DecidableEq

structure AuthorityKey where
  contextStoreUuid : String
  project : String
  domain : Domain
  deriving DecidableEq

structure ClaimCommandIdentity where
  producer : String
  operationKey : String
  deriving DecidableEq

inductive StoreError where
  | inputLimit
  | secretDetected
  /-- A query found no row. -/
  | noRows
  /-- A constraint of a table is violated. -/
  | constraint
  | state (expected found : String)
  | generation (expected found : Nat)
  | coordinatorToken
  | coordinatorLeaseExpired
  | feedHeadAdvanced (captured found : Nat)
  | claimIntentInvalid (reason : String)
  | claimIntentIdentityConflict (command : ClaimCommandIdentity)
  | claimIntentBindingMismatch (field expected found : String)
  | claimIntentAuthorityFrozen (state : String)
  | claimIntentRouteNotManaged
  | claimIntentNotFound (command : ClaimCommandIdentity)
  | claimIntentTransition (expected found : String)
  | claimIntentResetBlocked (unresolved : Nat)
  deriving DecidableEq

/-! ## Fields of a prepared write -/

def maxDurableTextBytes : Nat := 512 * 1024

def ensureDurableTextBound (input : String) : Except StoreError Unit :=
  if maxDurableTextBytes < input.utf8ByteSize then .error .inputLimit else .ok ()

/-- `existing_identity`: a finding is recorded only. -/
def existingIdentities (inputs : List String) : Except StoreError Unit :=
  inputs.forM ensureDurableTextBound

namespace Platform

variable (sys : Platform)

/-- `identity`: a text with a secret in it is refused. -/
def identity (input : String) : Except StoreError Unit := do
  ensureDurableTextBound input
  if sys.detects input then .error .secretDetected else .ok ()

/-- `reject_recorded_identities`: what was recorded is refused after all. -/
def rejectRecordedIdentities (inputs : List String) : Except StoreError Unit :=
  if inputs.any sys.detects then .error .secretDetected else .ok ()

/-- `transaction_identity`. -/
def transactionIdentity (input : String) : Except StoreError Unit := do
  ensureDurableTextBound input
  if sys.detectsInTransaction input then .error .secretDetected else .ok ()

end Platform

/-! ## Rows -/

inductive AuthorityState where
  | TS | PREPARING | MODULE | DRAINING
  deriving DecidableEq

def AuthorityState.asStr : AuthorityState → String
  | TS => "TS"
  | PREPARING => "PREPARING"
  | MODULE => "MODULE"
  | DRAINING => "DRAINING"

inductive DrainStep where
  | seed | memories | notes | compartments | reconcile | verify | flip
  deriving DecidableEq

/-- The journal of a drain. -/
structure DrainSteps where
  stepSeed : Bool := false
  stepMemories : Bool := false
  stepNotes : Bool := false
  stepCompartments : Bool := false
  stepReconcile : Bool := false
  stepVerify : Bool := false
  stepFlip : Bool := false

namespace DrainSteps

def get (steps : DrainSteps) : DrainStep → Bool
  | .seed => steps.stepSeed
  | .memories => steps.stepMemories
  | .notes => steps.stepNotes
  | .compartments => steps.stepCompartments
  | .reconcile => steps.stepReconcile
  | .verify => steps.stepVerify
  | .flip => steps.stepFlip

def journal (steps : DrainSteps) : DrainStep → DrainSteps
  | .seed => { steps with stepSeed := true }
  | .memories => { steps with stepMemories := true }
  | .notes => { steps with stepNotes := true }
  | .compartments => { steps with stepCompartments := true }
  | .reconcile => { steps with stepReconcile := true }
  | .verify => { steps with stepVerify := true }
  | .flip => { steps with stepFlip := true }

/-- The steps that must be journaled before the flip. -/
def allSteps (steps : DrainSteps) : Bool :=
  steps.stepSeed && steps.stepMemories && steps.stepNotes && steps.stepCompartments &&
    steps.stepReconcile && steps.stepVerify

theorem get_journal (steps : DrainSteps) (s t : DrainStep) :
    (steps.journal s).get t = (steps.get t || decide (t = s)) := by
  cases s <;> cases t <;> simp [journal, get]

theorem get_of_allSteps {steps : DrainSteps} (h : steps.allSteps = true) {s : DrainStep}
    (hs : s ≠ .flip) : steps.get s = true := by
  simp only [allSteps, Bool.and_eq_true] at h
  obtain ⟨⟨⟨⟨⟨hseed, hmemories⟩, hnotes⟩, hcompartments⟩, hreconcile⟩, hverify⟩ := h
  cases s with
  | seed => exact hseed
  | memories => exact hmemories
  | notes => exact hnotes
  | compartments => exact hcompartments
  | reconcile => exact hreconcile
  | verify => exact hverify
  | flip => exact absurd rfl hs

end DrainSteps

structure AuthorityRow where
  state : AuthorityState := .TS
  generation : Nat := 0
  capturedUpperBound : Option Nat := none
  drainGeneration : Option Nat := none
  drainCursor : Int := 0
  steps : DrainSteps := {}
  coordinatorLease : Option String := none
  leaseExpiresAt : Option Int := none
  coordinatorToken : Option String := none
  checksumExpected : Option String := none
  checksumActual : Option String := none
  checksumOk : Option Bool := none

def mintCoordinatorToken (sys : Platform) (lease : String) (leaseExpiresAt : Int)
    (generation nanos : Nat) : String :=
  sys.sha256Hex s!"drain-token:{lease}:{leaseExpiresAt}:{generation}:{nanos}"

/-! ## Transitions -/

namespace AuthorityRow

variable (row : AuthorityRow)

/-- Whether the row was changed, and the row. -/
def beginPrepare : Except StoreError (Bool × AuthorityRow) :=
  match row.state with
  | .TS => .ok (true,
      { row with
        state := .PREPARING
        generation := row.generation + 1
        checksumExpected := none
        checksumActual := none
        checksumOk := none })
  | .PREPARING => .ok (false, row)
  | state => .error (.state "TS" state.asStr)

def describe : String := s!"{row.state.asStr} generation {row.generation}"

variable (expectedGeneration : Nat)

def verifyPrepare (checksumExpected checksumActual : String) : Except StoreError AuthorityRow :=
  if row.generation ≠ expectedGeneration ∨ row.state ≠ .PREPARING then
    .error (.state s!"PREPARING generation {expectedGeneration}" row.describe)
  else .ok
    { row with
      checksumExpected := some checksumExpected
      checksumActual := some checksumActual
      checksumOk := some (decide (checksumExpected = checksumActual)) }

def ackPrepare : Except StoreError AuthorityRow :=
  if row.generation ≠ expectedGeneration ∨ row.state ≠ .PREPARING ∨ row.checksumOk ≠ some true then
    .error (.state s!"verified PREPARING generation {expectedGeneration}" row.describe)
  else .ok { row with state := .MODULE, generation := row.generation + 1 }

def finishPrepare (checksumExpected checksumActual : String)
    (verified : Bool) : Except StoreError AuthorityRow :=
  if row.generation ≠ expectedGeneration then
    .error (.generation expectedGeneration row.generation)
  else if row.state ≠ .PREPARING then .error (.state "PREPARING" row.state.asStr)
  else if verified ∧ checksumExpected ≠ checksumActual then
    .error (.state "matching checksums" "verification failed")
  else .ok
    { row with
      state := if verified then .MODULE else .TS
      generation := row.generation + 1
      checksumExpected := some checksumExpected
      checksumActual := some checksumActual
      checksumOk := some verified }

/-- A drain belongs to its coordinator, and to another one once the lease has expired. -/
def requireLease (sys : Platform) (lease : String) (nowMs : Int) : Except StoreError Unit :=
  if row.coordinatorLease = some lease then .ok ()
  else do
    sys.rejectRecordedIdentities [lease]
    if nowMs < row.leaseExpiresAt.getD 0 then
      .error (.state "the existing drain coordinator or an expired lease"
        "a different live drain coordinator")
    else .ok ()

/-- A drain that is under way gets a new token, and its bound is captured again. -/
def resumeDrain (sys : Platform) (lease : String) (leaseExpiresAt nowMs : Int)
    (feedHead nanos : Nat) : Except StoreError AuthorityRow := do
  let token := mintCoordinatorToken sys lease leaseExpiresAt row.generation nanos
  row.requireLease sys lease nowMs
  sys.transactionIdentity token
  return { row with
    coordinatorLease := some lease
    leaseExpiresAt := some leaseExpiresAt
    coordinatorToken := some token
    capturedUpperBound := some (max (row.capturedUpperBound.getD 0) feedHead) }

def startDrain (sys : Platform) (lease : String) (leaseExpiresAt : Int)
    (feedHead nanos : Nat) : Except StoreError AuthorityRow := do
  let token := mintCoordinatorToken sys lease leaseExpiresAt (row.generation + 1) nanos
  sys.rejectRecordedIdentities [lease]
  sys.transactionIdentity token
  return { row with
    state := .DRAINING
    generation := row.generation + 1
    capturedUpperBound := some feedHead
    drainGeneration := some (row.generation + 1)
    drainCursor := 0
    coordinatorLease := some lease
    leaseExpiresAt := some leaseExpiresAt
    coordinatorToken := some token
    steps := {} }

def beginDrain (sys : Platform) (lease : String) (leaseExpiresAt nowMs : Int)
    (feedHead nanos : Nat) : Except StoreError AuthorityRow :=
  match row.state with
  | .DRAINING => row.resumeDrain sys lease leaseExpiresAt nowMs feedHead nanos
  | .MODULE => row.startDrain sys lease leaseExpiresAt feedHead nanos
  | state => .error (.state "MODULE" state.asStr)

/-- `authority_require_live_coordinator`. -/
def requireLiveCoordinator (expectedToken : String) (nowMs : Int) : Except StoreError Unit :=
  if row.coordinatorToken ≠ some expectedToken ∨ expectedToken = "" then .error .coordinatorToken
  else if row.leaseExpiresAt.getD 0 ≤ nowMs then .error .coordinatorLeaseExpired
  else .ok ()

/-- The checks of a step and of the finish. -/
def requireDrain (coordinatorToken : String) (nowMs : Int) : Except StoreError Unit :=
  if row.generation ≠ expectedGeneration then
    .error (.generation expectedGeneration row.generation)
  else if row.state ≠ .DRAINING then .error (.state "DRAINING" row.state.asStr)
  else row.requireLiveCoordinator coordinatorToken nowMs

def drainStep (step : DrainStep) (cursor : Option Int)
    (coordinatorToken : String) (nowMs : Int) : Except StoreError AuthorityRow := do
  row.requireDrain expectedGeneration coordinatorToken nowMs
  return { row with
    steps := row.steps.journal step
    drainCursor := cursor.getD row.drainCursor }

def finishDrain (checksumExpected checksumActual : String)
    (verified : Bool) (coordinatorToken : String) (nowMs : Int) (feedHead : Nat) :
    Except StoreError AuthorityRow := do
  row.requireDrain expectedGeneration coordinatorToken nowMs
  if !row.steps.allSteps ∨ !verified ∨ checksumExpected ≠ checksumActual then
    .error (.state "all drain steps and verification" "incomplete or failed")
  else if feedHead ≠ row.capturedUpperBound.getD 0 then
    .error (.feedHeadAdvanced (row.capturedUpperBound.getD 0) feedHead)
  else return { row with
    state := .TS
    generation := row.generation + 1
    checksumExpected := some checksumExpected
    checksumActual := some checksumActual
    checksumOk := some verified
    coordinatorLease := none
    leaseExpiresAt := none
    coordinatorToken := none
    steps := row.steps.journal .flip }

/-! ## What a transition does -/

open Checks

/-- A state changes with one step of the generation, and the generation with the state. -/
def Moves (row row' : AuthorityRow) : Prop :=
  (row'.state = row.state ∧ row'.generation = row.generation) ∨
    (row'.state ≠ row.state ∧ row'.generation = row.generation + 1)

variable {row} {row' : AuthorityRow}

theorem beginPrepare_eq_ok {applied : Bool} (h : row.beginPrepare = .ok (applied, row')) :
    row'.state = .PREPARING ∧ Moves row row' := by
  rw [beginPrepare] at h
  split at h
  · rename_i hstate
    cases h
    refine ⟨rfl, .inr ⟨?_, rfl⟩⟩
    show AuthorityState.PREPARING ≠ row.state
    rw [hstate]
    decide
  · rename_i hstate
    cases h
    exact ⟨hstate, .inl ⟨rfl, rfl⟩⟩
  · cases h

variable {g feedHead nanos : Nat} {expected actual lease token : String} {verified : Bool}
  {sys : Platform} {expires nowMs : Int}

theorem verifyPrepare_eq_ok (h : row.verifyPrepare g expected actual = .ok row') :
    row.state = .PREPARING ∧ row'.state = .PREPARING ∧ Moves row row' := by
  rw [verifyPrepare, check_eq_ok, not_or, not_not, not_not] at h
  obtain ⟨⟨-, hstate⟩, h⟩ := h
  cases h
  exact ⟨hstate, hstate, .inl ⟨rfl, rfl⟩⟩

theorem ackPrepare_eq_ok (h : row.ackPrepare g = .ok row') :
    row.state = .PREPARING ∧ row'.state = .MODULE ∧ Moves row row' := by
  rw [ackPrepare, check_eq_ok, not_or, not_or, not_not, not_not] at h
  obtain ⟨⟨-, hstate, -⟩, h⟩ := h
  cases h
  refine ⟨hstate, rfl, .inr ⟨?_, rfl⟩⟩
  show AuthorityState.MODULE ≠ row.state
  rw [hstate]
  decide

theorem finishPrepare_eq_ok (h : row.finishPrepare g expected actual verified = .ok row') :
    row.state = .PREPARING ∧ row'.state = (if verified then .MODULE else .TS) ∧ Moves row row' := by
  rw [finishPrepare, check_eq_ok, check_eq_ok, check_eq_ok] at h
  obtain ⟨-, hstate, -, h⟩ := h
  cases h
  rw [not_not] at hstate
  refine ⟨hstate, rfl, .inr ⟨?_, rfl⟩⟩
  show (if verified then AuthorityState.MODULE else .TS) ≠ row.state
  rw [hstate]
  cases verified <;> decide

theorem resumeDrain_eq_ok
    (h : row.resumeDrain sys lease expires nowMs feedHead nanos = .ok row') : row' = { row with
      coordinatorLease := some lease
      leaseExpiresAt := some expires
      coordinatorToken := some (mintCoordinatorToken sys lease expires row.generation nanos)
      capturedUpperBound := some (max (row.capturedUpperBound.getD 0) feedHead) } := by
  rw [resumeDrain] at h
  obtain ⟨-, -, h⟩ := bind_eq_ok.mp h
  obtain ⟨-, -, h⟩ := bind_eq_ok.mp h
  exact (Except.ok.inj h).symm

theorem startDrain_eq_ok (h : row.startDrain sys lease expires feedHead nanos = .ok row') :
    row' = { row with
      state := .DRAINING
      generation := row.generation + 1
      capturedUpperBound := some feedHead
      drainGeneration := some (row.generation + 1)
      drainCursor := 0
      coordinatorLease := some lease
      leaseExpiresAt := some expires
      coordinatorToken :=
        some (mintCoordinatorToken sys lease expires (row.generation + 1) nanos)
      steps := {} } := by
  rw [startDrain] at h
  obtain ⟨-, -, h⟩ := bind_eq_ok.mp h
  obtain ⟨-, -, h⟩ := bind_eq_ok.mp h
  exact (Except.ok.inj h).symm

theorem beginDrain_eq_ok (h : row.beginDrain sys lease expires nowMs feedHead nanos = .ok row') :
    (row.state = .DRAINING ∧ row.resumeDrain sys lease expires nowMs feedHead nanos = .ok row') ∨
      (row.state = .MODULE ∧ row.startDrain sys lease expires feedHead nanos = .ok row') := by
  rw [beginDrain] at h
  split at h
  · rename_i hstate
    exact .inl ⟨hstate, h⟩
  · rename_i hstate
    exact .inr ⟨hstate, h⟩
  · cases h

theorem beginDrain_state (h : row.beginDrain sys lease expires nowMs feedHead nanos = .ok row') :
    row'.state = .DRAINING := by
  rcases beginDrain_eq_ok h with ⟨hstate, h⟩ | ⟨-, h⟩
  · rw [resumeDrain_eq_ok h]
    exact hstate
  · rw [startDrain_eq_ok h]

theorem requireDrain_eq_ok {u : Unit} (h : row.requireDrain g token nowMs = .ok u) :
    row.state = .DRAINING ∧ row.coordinatorToken = some token ∧
      nowMs < row.leaseExpiresAt.getD 0 := by
  rw [requireDrain, check_eq_ok, check_eq_ok, requireLiveCoordinator, check_eq_ok, check_eq_ok] at h
  obtain ⟨-, hstate, htoken, hlease, -⟩ := h
  exact ⟨not_not.mp hstate, not_not.mp fun hne => htoken (.inl hne), not_le.mp hlease⟩

theorem drainStep_eq_ok {step : DrainStep} {cursor : Option Int}
    (h : row.drainStep g step cursor token nowMs = .ok row') :
    row.state = .DRAINING ∧ row.coordinatorToken = some token ∧ nowMs < row.leaseExpiresAt.getD 0 ∧
      row' = { row with
        steps := row.steps.journal step
        drainCursor := cursor.getD row.drainCursor } := by
  rw [drainStep] at h
  obtain ⟨u, hrequire, h⟩ := bind_eq_ok.mp h
  obtain ⟨hstate, htoken, hlease⟩ := requireDrain_eq_ok hrequire
  exact ⟨hstate, htoken, hlease, (Except.ok.inj h).symm⟩

theorem finishDrain_eq_ok
    (h : row.finishDrain g expected actual verified token nowMs feedHead = .ok row') :
    row.state = .DRAINING ∧ row.coordinatorToken = some token ∧
      nowMs < row.leaseExpiresAt.getD 0 ∧ row.steps.allSteps = true ∧
      feedHead = row.capturedUpperBound.getD 0 ∧ row'.state = .TS ∧
      row'.coordinatorToken = none ∧ Moves row row' := by
  rw [finishDrain] at h
  obtain ⟨u, hrequire, h⟩ := bind_eq_ok.mp h
  obtain ⟨hstate, htoken, hlease⟩ := requireDrain_eq_ok hrequire
  rw [check_eq_ok, check_eq_ok] at h
  obtain ⟨hsteps, hhead, h⟩ := h
  cases h
  rw [not_or, Bool.not_eq_true', Bool.not_eq_false] at hsteps
  refine ⟨hstate, htoken, hlease, hsteps.1, not_not.mp hhead, rfl, rfl, .inr ⟨?_, rfl⟩⟩
  show AuthorityState.TS ≠ row.state
  rw [hstate]
  decide

/-! ### What a transition leaves -/

/-- Preparing leaves what the last drain wrote. -/
structure SameDrain (row row' : AuthorityRow) : Prop where
  steps : row'.steps = row.steps
  token : row'.coordinatorToken = row.coordinatorToken
  expires : row'.leaseExpiresAt = row.leaseExpiresAt

theorem beginPrepare_sameDrain {applied : Bool} (h : row.beginPrepare = .ok (applied, row')) :
    SameDrain row row' := by
  rw [beginPrepare] at h
  split at h
  · cases h
    exact ⟨rfl, rfl, rfl⟩
  · cases h
    exact ⟨rfl, rfl, rfl⟩
  · cases h

theorem verifyPrepare_sameDrain (h : row.verifyPrepare g expected actual = .ok row') :
    SameDrain row row' := by
  rw [verifyPrepare, check_eq_ok] at h
  cases h.2
  exact ⟨rfl, rfl, rfl⟩

theorem ackPrepare_sameDrain (h : row.ackPrepare g = .ok row') : SameDrain row row' := by
  rw [ackPrepare, check_eq_ok] at h
  cases h.2
  exact ⟨rfl, rfl, rfl⟩

theorem finishPrepare_sameDrain (h : row.finishPrepare g expected actual verified = .ok row') :
    SameDrain row row' := by
  rw [finishPrepare, check_eq_ok, check_eq_ok, check_eq_ok] at h
  cases h.2.2.2
  exact ⟨rfl, rfl, rfl⟩

/-- The journal after the flip. -/
theorem finishDrain_steps
    (h : row.finishDrain g expected actual verified token nowMs feedHead = .ok row') :
    row'.steps = row.steps.journal .flip := by
  rw [finishDrain] at h
  obtain ⟨-, -, h⟩ := bind_eq_ok.mp h
  rw [check_eq_ok, check_eq_ok] at h
  cases h.2.2
  rfl

theorem beginDrain_moves (h : row.beginDrain sys lease expires nowMs feedHead nanos = .ok row') :
    Moves row row' := by
  rcases beginDrain_eq_ok h with ⟨-, h⟩ | ⟨hstate, h⟩
  · rw [resumeDrain_eq_ok h]
    exact .inl ⟨rfl, rfl⟩
  · rw [startDrain_eq_ok h]
    refine .inr ⟨?_, rfl⟩
    show AuthorityState.DRAINING ≠ row.state
    rw [hstate]
    decide

theorem drainStep_moves {step : DrainStep} {cursor : Option Int}
    (h : row.drainStep g step cursor token nowMs = .ok row') : Moves row row' := by
  obtain ⟨-, -, -, rfl⟩ := drainStep_eq_ok h
  exact .inl ⟨rfl, rfl⟩

end AuthorityRow

end MagicContext.Claims
