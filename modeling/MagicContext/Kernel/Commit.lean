import MagicContext.Kernel.Alignment

/-!
# Commits

A commit runs an operation inside one transaction.  The operation calls methods of the envelope and
may do with their errors as it likes; when it ends well and the envelope is not poisoned, its
changes are published as change events and outbox rows, a receipt is stored, and the alignment
projection is rebuilt if the changes may have affected it.  A retry finds the receipt.

## What is here

* `Call` and `Operation` — the methods, and a closure over them as a tree: each call, and how the
  closure goes on with what the call returned.
* `runCommit` — the transaction.
* `commit` — a commit on the store, with its retry and its rollback.
-/

namespace MagicContext.Kernel

open Transaction

variable (sys : Platform)

/-! ## Operations -/

/-- The methods an operation can call.  The last two run on the envelope directly, inside the
commits of ingest and deletion. -/
inductive Call where
  | insertDomain (spec : DomainSpec)
  | correctDomain (replacedObjectId : String) (replacement : DomainSpec)
  | retireDomain (objectId : String)
  | remediateText (objectId operatorId : String) (remediatedAt : Int)
  | insertScope (spec : ScopeSpec)
  | insertDecision (spec : DecisionSpec)
  | insertObservation (spec : ObservationSpec)
  | appendDecisionEvent (decisionId : String) (spec : EventSpec)
  | correctDecision (replacedObjectId : String) (replacement : DecisionSpec)
  | correctObservation (replacedObjectId : String) (replacement : ObservationSpec)
  | retireDecision (objectId : String)
  | retireObservation (objectId : String)
  | recordAdmission (request : AdmissionRequest)
  | admitDomainCandidate (request : AdmissionRequest) (domain : AdmissionDomainSpec)
  | supersedeDomain (request : AdmissionRequest) (replacement : AdmissionDomainSpec)
  | supersedeDecision (replacedObjectId : String) (replacement : DecisionSpec)
  | revokeApproval (approvalObjectId reason : String)
  | registerOutboxConsumer (consumerId : String) (recordedAt : Int)
  | deregisterOutboxConsumer (consumerId : String) (recordedAt : Int)
  | abandonOutboxConsumer (consumerId : String) (abandonment : ConsumerAbandonment)
      (unique : String)
  | abandonDeletionBarrier (barrierId operatorId reason : String) (abandonedAt : Int)
  | insertReference (artifact : PreparedArtifact)
  | deleteArtifact (deletion : ArtifactDeletion)

/-- What a call returns. -/
inductive Reply where
  | unit
  | checkpoint (commitSeq : Nat)
  | evidence (evidenceId : String)
  | scope (outcome : ScopeWriteOutcome)
  | decision (outcome : DecisionWriteOutcome)
  | observation (outcome : ObservationWriteOutcome)
  | event (outcome : DecisionEventOutcome)
  | retirement (outcome : RetirementOutcome)
  | admission (decision : AdmissionDecision)
  | revocation (decisions : List AdmissionDecision)

def Call.run : Call → M Reply
  | insertDomain spec => (fun _ => .unit) <$> Kernel.insertDomain sys spec
  | correctDomain replaced spec => (fun _ => .unit) <$> Kernel.correctDomain sys replaced spec
  | retireDomain objectId => (fun _ => .unit) <$> Kernel.retireDomain sys objectId
  | remediateText objectId operatorId time =>
    (fun _ => .unit) <$> Kernel.remediateText sys objectId operatorId time
  | insertScope spec => .scope <$> Kernel.insertScope sys spec
  | insertDecision spec => .decision <$> Kernel.insertDecision sys spec
  | insertObservation spec => .observation <$> Kernel.insertObservation sys spec
  | appendDecisionEvent decisionId spec =>
    .event <$> Kernel.appendDecisionEvent sys decisionId spec
  | correctDecision replaced spec => .decision <$> Kernel.correctDecision sys replaced spec
  | correctObservation replaced spec =>
    .observation <$> Kernel.correctObservation sys replaced spec
  | retireDecision objectId => .retirement <$> Kernel.retireDecision sys objectId
  | retireObservation objectId => .retirement <$> Kernel.retireObservation sys objectId
  | recordAdmission request => .admission <$> Kernel.recordAdmission sys request
  | admitDomainCandidate request domain =>
    .admission <$> Kernel.admitDomainCandidate sys request domain
  | supersedeDomain request replacement =>
    .admission <$> Kernel.supersedeDomain sys request replacement
  | supersedeDecision replaced spec => .decision <$> Kernel.supersedeDecision sys replaced spec
  | revokeApproval approval reason => .revocation <$> Kernel.revokeApproval sys approval reason
  | registerOutboxConsumer id time => .checkpoint <$> Kernel.registerOutboxConsumer sys id time
  | deregisterOutboxConsumer id time =>
    (fun _ => .unit) <$> Kernel.deregisterOutboxConsumer sys id time
  | abandonOutboxConsumer id abandonment unique =>
    (fun _ => .unit) <$> Kernel.abandonOutboxConsumer sys id abandonment unique
  | abandonDeletionBarrier barrierId operatorId reason time =>
    (fun _ => .unit) <$> Kernel.abandonDeletionBarrier sys barrierId operatorId reason time
  | insertReference artifact => .evidence <$> Kernel.insertReference sys artifact
  | deleteArtifact deletion => (fun _ => .unit) <$> Kernel.deleteArtifact deletion

/-- The closure of a commit: it ends with a result, or calls a method and goes on with what the
call returned, be it an error. -/
inductive Operation where
  | ret (result : Except KernelError String)
  | call (c : Call) (next : Except KernelError Reply → Operation)

def Operation.run : Operation → M String
  | ret result => check result
  | call c next => fun s =>
    match c.run sys s with
    | .ok reply s' => (next (.ok reply)).run s'
    | .error e s' => (next (.error e)).run s'

/-- What a call returns. -/
def Call.outcome (c : Call) (s : Session) : Except KernelError Reply :=
  match c.run sys s with
  | .ok reply _ => .ok reply
  | .error e _ => .error e

theorem run_call (c : Call) (next : Except KernelError Reply → Operation) (s : Session) :
    (Operation.call c next).run sys s = (next (c.outcome sys s)).run sys (final (c.run sys) s) := by
  simp only [Operation.run, Call.outcome, final]
  cases c.run sys s <;> rfl

theorem final_call (c : Call) (next : Except KernelError Reply → Operation) (s : Session) :
    final ((Operation.call c next).run sys) s =
      final ((next (c.outcome sys s)).run sys) (final (c.run sys) s) := by
  rw [final, run_call]
  rfl

/-! ## Intents -/

structure CommitIntent where
  producer : String
  operationKey : String
  requestDigest : String
  actor : String
  cause : String
  deriving DecidableEq

structure CommitReceipt where
  commitSeq : Nat
  result : String
  replayed : Bool

structure RedactedIntent where
  producer : String
  operationKey : String
  requestDigest : String
  actor : RedactedField
  cause : RedactedField

/-- `is_lower_hex(value, 64)`. -/
def isRequestDigest (value : String) : Bool :=
  value.utf8ByteSize == 64 && value.toList.all fun c => Text.isAsciiDigit c || ('a' ≤ c && c ≤ 'f')

namespace RedactedIntent

def new (intent : CommitIntent) : Except KernelError RedactedIntent := do
  if !isRequestDigest intent.requestDigest ∨ Text.isBlank intent.producer ∨
      Text.isBlank intent.operationKey then .error .invalidInput
  else return {
    producer := ← sys.identity intent.producer
    operationKey := ← sys.identity intent.operationKey
    requestDigest := intent.requestDigest
    actor := ← sys.redact intent.actor
    cause := ← sys.redact intent.cause }

/-- `u64::to_be_bytes`. -/
def bigEndian (n : Nat) : List UInt8 :=
  (List.range 8).map fun i => UInt8.ofNat (n / 256 ^ (7 - i))

/-- Without a length in front, two field splits would give one preimage. -/
def component (value : String) : List UInt8 := bigEndian value.utf8ByteSize ++ utf8 value

/-- `operation_identity`. -/
def operationIdentity (intent : RedactedIntent) : String :=
  sys.sha256 (utf8 "mc-kernel-operation-v2\x00" ++ component intent.producer ++
    component intent.operationKey ++ component intent.requestDigest)

/-- The receipt a commit leaves. -/
def receipt (intent : RedactedIntent) (transactionId : String) (commitSeq : Nat) (result : String)
    (recordedAt : Int) : ReceiptRow where
  receiptId := transactionId
  producer := intent.producer
  operationKey := intent.operationKey
  requestDigest := intent.requestDigest
  commitSeq := commitSeq
  resultPayload := result
  createdAt := recordedAt

end RedactedIntent

/-! ## The transaction -/

variable (leaseEpoch : Nat)

/-- `check_fence`. -/
def fenceHolds (db : Db) : Bool := db.writerEpoch == (leaseEpoch : Int)

/-- The receipt stored under a producer and an operation key. -/
def findReceipt (producer operationKey : String) (db : Db) : Option ReceiptRow :=
  db.operationReceipts.rows.find? fun r =>
    r.producer == producer && r.operationKey == operationKey

/-- The kinds of change that may alter the alignment whatever else the commit did. -/
def alignmentChangeKinds : List String :=
  ["decision_insert", "decision_correct", "observation_correct", "decision_retire",
    "observation_retire", "artifact_deletion"]

def observationInsertKind : String := "observation_insert"

/-- The observation of an object has an aligning dependency. -/
def hasAligningDependency (db : Db) (objectId : String) : Bool :=
  db.dependencies.any fun d => isAlignmentDependency d &&
    (db.observations.get d.observationId).any fun o => o.objectId == objectId

/-- `commit_affects_alignment`, from the committed rows. -/
def commitAffectsAlignment (commitSeq : Nat) (db : Db) : Bool :=
  db.changeEvent.any fun e => e.commitSeq == commitSeq &&
    (alignmentChangeKinds.contains e.changeKind ||
      (e.changeKind == observationInsertKind && hasAligningDependency db e.objectId))

namespace PendingChange

variable (change : PendingChange)

def payload : ChangePayload where
  changeKind := change.kind
  object := change.object
  replacedObjectId := change.replacedObjectId
  audit := change.audit

/-- The change event of a change at an ordinal. -/
def event (transactionId : String) (commitSeq ordinal : Nat) : ChangeEventRow where
  commitSeq := commitSeq
  ordinal := ordinal
  objectId := change.object.objectId
  changeKind := change.kind
  idempotencyKey := transactionId
  payload := change.payload

/-- The outbox row of a change at an ordinal. -/
def outboxRow (recordedAt : Int) (commitSeq ordinal position : Nat) : OutboxRow where
  outboxPosition := position
  commitSeq := commitSeq
  ordinal := ordinal
  objectId := change.object.objectId
  objectKind := change.object.objectKind
  sourceKind := change.object.sourceKind
  sourceId := change.object.sourceId
  sourceRevision := change.object.sourceRevision
  sensitivity := change.object.sensitivity
  payload := change.payload
  createdAt := recordedAt
  publishedAt := none

end PendingChange

/-- The envelope of the commit that was just numbered. -/
def openEnvelope : M Unit := fun s =>
  .ok () { s with envelope := { tx := s.envelope.tx, commitSeq := s.envelope.tx.commitSequence } }

def pendingChanges : M (List PendingChange) := fun s => .ok s.envelope.changes s

def requireUnpoisoned : M Unit := fun s =>
  match s.envelope.poisoned with
  | some e => .error e s
  | none => .ok () s

def publishEvent (transactionId : String) (change : PendingChange) (ordinal : Nat) : M Unit := do
  let seq ← commitSeq
  let _ ← exec (.insertChangeEvent (change.event transactionId seq ordinal))
  recordFields "change_event" s!"{seq}:{ordinal}" change.redactions

/-- The position the outbox gave the last row. -/
def lastOutboxPosition : M Nat := fun s => .ok s.envelope.tx.outboxSequence s

def publishOutbox (recordedAt : Int) (change : PendingChange) (ordinal : Nat) : M Unit := do
  let seq ← commitSeq
  -- The statement numbers the row.
  let _ ← exec (.insertOutbox (change.outboxRow recordedAt seq ordinal 0))
  let position ← lastOutboxPosition
  recordFields "outbox" (toString position) change.redactions

/-- Publishes changes one after the other, from an ordinal on. -/
def publishFrom (publish : PendingChange → Nat → M Unit) : Nat → List PendingChange → M Unit
  | _, [] => pure ()
  | ordinal, change :: rest => do
    publish change ordinal
    publishFrom publish (ordinal + 1) rest

/-- Whether the changes may have affected the alignment; only an insertion of observations costs a
query. -/
def alignmentAffected (changes : List PendingChange) : M Bool :=
  match changes.any fun c => alignmentChangeKinds.contains c.kind with
  | true => pure true
  | false =>
    match changes.any fun c => c.kind == observationInsertKind with
    | true => do
      let seq ← commitSeq
      query fun env => .ok (commitAffectsAlignment seq env.tx)
    | false => pure false

def rebuildIfAffected (changes : List PendingChange) : M Unit := do
  let affected ← alignmentAffected changes
  match affected with
  | true => rebuildAlignment sys
  | false => pure ()

/-- `COMMIT`, which checks the deferred foreign key. -/
def commitTransaction : M Unit :=
  query fun env => if env.tx.domainsResolve then .ok () else .error .conflict

variable (intent : RedactedIntent)

/-- Everything after the operation: the changes, the receipt, the projection. -/
def publish (transactionId : String) (recordedAt : Int)
    (afterEvents : Except KernelError Unit) (result : String) : M CommitReceipt := do
  requireUnpoisoned
  let changes ← pendingChanges
  let result ← check (sys.redact result)
  publishFrom (publishEvent transactionId) 0 changes
  check afterEvents
  publishFrom (publishOutbox recordedAt) 0 changes
  let seq ← commitSeq
  let _ ← exec (.insertReceipt (intent.receipt transactionId seq result.text recordedAt))
  record "operation_receipt" transactionId "result_payload" result
  rebuildIfAffected sys changes
  commitTransaction
  return { commitSeq := seq, result := result.text, replayed := false }

/-- Numbers the commit and opens its envelope. -/
def beginCommit (transactionId : String) (recordedAt : Int) : M Unit := do
  let _ ← exec (.insertCommit
    { commitSeq := 0, transactionId := transactionId, writerEpoch := leaseEpoch
      producer := intent.producer, operationKey := intent.operationKey
      requestDigest := intent.requestDigest, recordedAt := recordedAt, actor := intent.actor.text
      cause := intent.cause.text })
  openEnvelope
  record "commit_log" transactionId "actor" intent.actor
  record "commit_log" transactionId "cause" intent.cause

/-- A commit up to the end of its operation: the time it is recorded at, and what the operation
returned. -/
def runOperation (operation : Operation) : M (Int × String) := do
  let recordedAt ← currentTimeMs
  beginCommit leaseEpoch intent (intent.operationIdentity sys) recordedAt
  let result ← operation.run sys
  return (recordedAt, result)

/-- The transaction of a commit that is not a retry. -/
def runCommit (operation : Operation)
    (afterEvents : Except KernelError Unit) : M CommitReceipt := do
  let (recordedAt, result) ← runOperation sys leaseEpoch intent operation
  publish sys intent (intent.operationIdentity sys) recordedAt afterEvents result

/-! ## The store -/

/-- A session at the start of a transaction. -/
def startSession (db : Db) (answers : List Answer) : Session :=
  { envelope := { tx := db, commitSeq := db.commitSequence }, answers := answers }

/-- The store after a transaction: an error rolls it back. -/
def settle {α : Type} (db : Db) : EStateM.Result KernelError Session α → Except KernelError α × Db
  | .ok a s => (.ok a, s.envelope.tx)
  | .error e _ => (.error e, db)

/-- A rebuild in a transaction of its own, whose failure changes nothing. -/
def repairAlignment (db : Db) (answers : List Answer) : Db :=
  if fenceHolds leaseEpoch db then
    (settle db ((rebuildAlignment sys) (startSession db answers))).2
  else db

/-- What a retry of a stored commit returns and leaves. -/
def replay (receipt : ReceiptRow) (db : Db)
    (answers : List Answer) : Except KernelError CommitReceipt × Db :=
  if receipt.requestDigest ≠ intent.requestDigest then (.error .conflict, db)
  else
    (.ok { commitSeq := receipt.commitSeq, result := receipt.resultPayload, replayed := true },
      if commitAffectsAlignment receipt.commitSeq db then
        repairAlignment sys leaseEpoch db answers
      else db)

/-- `commit_prepared_with_writer`. -/
def commitPrepared (operation : Operation)
    (afterEvents : Except KernelError Unit) (db : Db) (answers : List Answer) :
    Except KernelError CommitReceipt × Db :=
  match answers.headD {} with
  -- The transaction cannot begin, or one of its first reads fails.
  | { fault := some fault, .. } => (.error fault.toError, db)
  | _ =>
    if !fenceHolds leaseEpoch db then (.error .fenceLost, db)
    else match findReceipt intent.producer intent.operationKey db with
      | some receipt => replay sys leaseEpoch intent receipt db answers.tail
      | none => settle db
          (runCommit sys leaseEpoch intent operation afterEvents (startSession db answers.tail))

/-- `commit_with_writer`, and `commit` once it has the writer. -/
def commit (intent : CommitIntent) (operation : Operation)
    (afterEvents : Except KernelError Unit) (db : Db) (answers : List Answer) :
    Except KernelError CommitReceipt × Db :=
  match RedactedIntent.new sys intent with
  | .error e => (.error e, db)
  | .ok intent => commitPrepared sys leaseEpoch intent operation afterEvents db answers

/-! ## What an operation may do -/

/-- The statements of the methods. -/
inductive OperationWrites (seq : Nat) (w : Write) : Prop where
  | governance (hw : GovernanceWrites seq w) : OperationWrites seq w
  | control (hw : ControlWrites seq w) : OperationWrites seq w
  | artifact (hw : ArtifactWrites seq w) : OperationWrites seq w

/-- The statements of one method. -/
def Call.writes : Call → Nat → Write → Prop
  | insertDomain _ | correctDomain _ _ | retireDomain _ | remediateText _ _ _ => DomainWrites
  | insertScope _ | insertDecision _ | insertObservation _ | appendDecisionEvent _ _
  | correctDecision _ _ | correctObservation _ _ | retireDecision _ | retireObservation _
  | supersedeDecision _ _ | revokeApproval _ _ => SliceWrites
  | recordAdmission _ | admitDomainCandidate _ _ | supersedeDomain _ _ => GovernanceWrites
  | registerOutboxConsumer _ _ | deregisterOutboxConsumer _ _ | abandonOutboxConsumer _ _ _
  | abandonDeletionBarrier _ _ _ _ => ControlWrites
  | insertReference _ => ReferenceWrites
  | deleteArtifact _ => ArtifactWrites

theorem Call.writes_operation {c : Call} {seq : Nat} {w : Write} (h : c.writes seq w) :
    OperationWrites seq w := by
  cases c with
  | insertDomain | correctDomain | retireDomain | remediateText => exact .governance (.domain h)
  | insertScope | insertDecision | insertObservation | appendDecisionEvent | correctDecision
  | correctObservation | retireDecision | retireObservation | supersedeDecision
  | revokeApproval => exact .governance (.slice h)
  | recordAdmission | admitDomainCandidate | supersedeDomain => exact .governance h
  | registerOutboxConsumer | deregisterOutboxConsumer | abandonOutboxConsumer
  | abandonDeletionBarrier => exact .control h
  | insertReference => exact .artifact h.artifact
  | deleteArtifact => exact .artifact h

theorem evolves_map {P : Nat → Write → Prop} {α β : Type} {m : M α} (f : α → β)
    (hm : Keeps (Evolves P) m) : Keeps (Evolves P) (f <$> m) := by
  rw [map_eq_pure_bind]
  exact evolves_bind hm fun _ => evolves_pure _

theorem attempts_map {P : Nat → Write → Prop} {α β : Type} {m : M α} (f : α → β)
    (hm : Keeps (Attempts P) m) : Keeps (Attempts P) (f <$> m) := by
  rw [map_eq_pure_bind]
  exact attempts_bind hm fun _ => attempts (evolves_pure _)

section Evolves
variable {sys} {α : Type} {m : M α}

/-- The methods that poison the envelope when they fail. -/
def Call.poisons : Call → Bool
  | insertScope _ | insertDecision _ | insertObservation _ | appendDecisionEvent _ _
  | correctDecision _ _ | correctObservation _ _ | retireDecision _ | retireObservation _
  | insertReference _ | deleteArtifact _ => false
  | _ => true

/-- A call of a method that does not poison executes only its statements. -/
theorem evolves_call {c : Call} (h : c.poisons = false) : Keeps (Evolves c.writes) (c.run sys) := by
  cases c with
  | insertScope => exact evolves_map _ (evolves_slice (evolves_insertScope _))
  | insertDecision => exact evolves_map _ (evolves_slice (evolves_insertDecision _))
  | insertObservation => exact evolves_map _ (evolves_slice (evolves_insertObservation _))
  | appendDecisionEvent => exact evolves_map _ (evolves_slice (evolves_appendDecisionEvent _ _))
  | correctDecision => exact evolves_map _ (evolves_correctDecision _ _)
  | correctObservation => exact evolves_map _ (evolves_slice (evolves_correctObservation _ _))
  | retireDecision | retireObservation =>
    exact evolves_map _ (evolves_slice (evolves_retireSliceObject _ _ _ _))
  | insertReference => exact evolves_map _ (evolves_insertReference _)
  | deleteArtifact => exact evolves_map _ (evolves_deleteArtifact _)
  | _ => cases h

/-- A method whose success leaves the poison, and what it may execute. -/
structure Guardable (P : Nat → Write → Prop) (m : M α) : Prop where
  attempts : Keeps (Attempts P) m
  clean : SucceedsClean m

theorem Guardable.of_evolves {P : Nat → Write → Prop} (h : Keeps (Evolves P) m) : Guardable P m :=
  ⟨Kernel.attempts h, succeedsClean h⟩

/-- The other methods are guarded as a whole. -/
theorem call_of_poisons {c : Call} (h : c.poisons = true) :
    ∃ (β : Type) (f : β → Reply) (m : M β), c.run sys = f <$> guarded m ∧ Guardable c.writes m := by
  cases c with
  | insertDomain => exact ⟨_, _, _, rfl, .of_evolves (evolves_insertDomainInner _)⟩
  | correctDomain => exact ⟨_, _, _, rfl, .of_evolves (evolves_correctDomainInner _ _)⟩
  | retireDomain => exact ⟨_, _, _, rfl, .of_evolves (evolves_retireDomainInner _)⟩
  | remediateText => exact ⟨_, _, _, rfl, .of_evolves (evolves_remediateTextInner _ _ _)⟩
  | recordAdmission =>
    exact ⟨_, _, _, rfl, .of_evolves (evolves_admissionOnly (evolves_recordAdmissionInner _))⟩
  | admitDomainCandidate =>
    exact ⟨_, _, _, rfl,
      attempts_admitDomainCandidateInner (fun _ _ => .domain) (fun _ _ => .admission) _ _,
      succeedsClean_admitDomainCandidateInner _ _⟩
  | supersedeDomain =>
    exact ⟨_, _, _, rfl,
      attempts_supersedeDomainInner (fun _ _ => .domain) (fun _ _ => .admission) _ _,
      succeedsClean_supersedeDomainInner _ _⟩
  | supersedeDecision => exact ⟨_, _, _, rfl, .of_evolves (evolves_supersedeDecisionInner _ _)⟩
  | revokeApproval => exact ⟨_, _, _, rfl, .of_evolves (evolves_slice (evolves_revokeApprovalInner _ _))⟩
  | registerOutboxConsumer =>
    exact ⟨_, _, _, rfl, .of_evolves (evolves_registerOutboxConsumerInner _ _)⟩
  | deregisterOutboxConsumer =>
    exact ⟨_, _, _, rfl, .of_evolves (evolves_deregisterOutboxConsumerInner _ _)⟩
  | abandonOutboxConsumer =>
    exact ⟨_, _, _, rfl, .of_evolves (evolves_abandonOutboxConsumerInner _ _ _)⟩
  | abandonDeletionBarrier =>
    exact ⟨_, _, _, rfl, .of_evolves (evolves_abandonDeletionBarrierInner _ _ _ _)⟩
  | _ => cases h

/-- **Every call** executes only the statements of its method. -/
theorem attempts_call (c : Call) : Keeps (Attempts c.writes) (c.run sys) := by
  cases hpoisons : c.poisons with
  | false => exact attempts (evolves_call hpoisons)
  | true =>
    obtain ⟨β, f, m, hrun, hm⟩ := call_of_poisons hpoisons
    rw [hrun]
    exact attempts_map f (attempts_guarded hm.attempts)

theorem attempts_operation (operation : Operation) :
    Keeps (Attempts OperationWrites) (operation.run sys) := by
  induction operation with
  | ret result => exact attempts (evolves_check _)
  | call c next ih =>
    intro s
    rw [final_call]
    have hcall := (@attempts_call sys c s).mono fun _ _ => Call.writes_operation
    exact hcall.trans (ih _ _)

end Evolves

end MagicContext.Kernel
