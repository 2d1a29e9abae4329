import MagicContext.Lib.Table
import MagicContext.Kernel.Policy
import MagicContext.Scope.Term

/-!
# The kernel store

The tables of the kernel database and the statements the writer executes on them.  A statement
either changes some rows of one table and reports how many, or violates a constraint and changes
nothing.  The append-only triggers, the `CHECK` on invalidation and the uniqueness constraints are
part of the statements.

## What is here

* The rows of each table; `Lifetime` has the columns that every object row carries.
* `Db` — the database.
* `Write` and `Write.apply` — the statements an operation executes inside its envelope.
-/

namespace MagicContext.Kernel

open Scope (ScopeTermSpec)

/-! ## Rows -/

/-- Columns of every row that is created by one commit and ended by a later one. -/
structure Lifetime where
  objectId : String
  createdCommitSeq : Nat
  invalidatedCommitSeq : Option Nat := none
  supersededBy : Option String := none

/-- `invalidated_commit_seq IS NULL`. -/
def Lifetime.live (l : Lifetime) : Bool := l.invalidatedCommitSeq.isNone

/-- Rows with these columns. -/
class HasLifetime (ρ : Type) where
  lifetime : ρ → Lifetime
  withLifetime : ρ → Lifetime → ρ
  lifetime_with : ∀ r l, lifetime (withLifetime r l) = l

export HasLifetime (lifetime withLifetime)

attribute [simp] HasLifetime.lifetime_with

/-- A row of `object_registry`. -/
structure ObjectRow extends Lifetime where
  objectKind : String
  domainId : String
  sourceKind : String
  sourceId : String
  sourceRevision : Int
  sensitivity : Sensitivity

structure DomainRow extends Lifetime where
  domainId : String
  name : String
  sensitivity : Sensitivity

structure ScopeRow extends Lifetime where
  scopeId : String
  domainId : String
  sensitivity : Sensitivity

/-- A term of a scope at its place. -/
structure ScopeTermRow where
  scopeId : String
  ordinal : Nat
  term : ScopeTermSpec

/-- A row of `propositions` or of `anchors`, of which only the id and the lifetime are read. -/
structure ParentRow extends Lifetime where
  id : String

inductive ProviderEgress where
  | remoteAllowed | localOnly
  deriving DecidableEq

def ProviderEgress.restrictive : ProviderEgress → ProviderEgress → ProviderEgress
  | remoteAllowed, remoteAllowed => remoteAllowed
  | _, _ => localOnly

structure EvidenceRow extends Lifetime where
  evidenceId : String
  artifactReference : String
  artifactDigest : String
  byteLength : Nat
  mediaType : String
  retentionClass : String
  retainUntil : Option Int
  providerEgress : ProviderEgress
  sensitivity : Sensitivity

structure DecisionPayload where
  summary : String
  rationale : String

structure DecisionRow extends Lifetime where
  decisionId : String
  propositionId : Option String
  scopeId : Option String
  anchorId : Option String
  evidenceId : Option String
  decisionKind : String
  payload : DecisionPayload
  sensitivity : Sensitivity

structure DecisionEventRow where
  decisionId : String
  eventOrdinal : Nat
  commitSeq : Nat
  eventKind : String
  summary : String
  evidenceId : Option String
  recordedAt : Int

structure ObservationPayload where
  summary : String
  classification : String
  detail : Option String

structure ObservationRow extends Lifetime where
  observationId : String
  propositionId : Option String
  scopeId : Option String
  anchorId : Option String
  evidenceId : Option String
  observationKind : String
  payload : ObservationPayload
  observedAt : Int
  sensitivity : Sensitivity

structure DependencyRow where
  observationId : String
  dependencyObjectId : String
  dependencyKind : String
  dependencyPayload : Option String

instance : HasLifetime ObjectRow where
  lifetime := ObjectRow.toLifetime
  withLifetime r l := { r with toLifetime := l }
  lifetime_with _ _ := rfl

instance : HasLifetime DomainRow where
  lifetime := DomainRow.toLifetime
  withLifetime r l := { r with toLifetime := l }
  lifetime_with _ _ := rfl

instance : HasLifetime EvidenceRow where
  lifetime := EvidenceRow.toLifetime
  withLifetime r l := { r with toLifetime := l }
  lifetime_with _ _ := rfl

instance : HasLifetime DecisionRow where
  lifetime := DecisionRow.toLifetime
  withLifetime r l := { r with toLifetime := l }
  lifetime_with _ _ := rfl

instance : HasLifetime ObservationRow where
  lifetime := ObservationRow.toLifetime
  withLifetime r l := { r with toLifetime := l }
  lifetime_with _ _ := rfl

/-- A row of `admission_decisions`, whose id is the commit and the ordinal within it.
`commit_seq` is never null: the only writer sets it. -/
structure AdmissionRow where
  commitSeq : Nat
  ordinal : Nat
  /-- Set to null when the candidate is swept; `candidateRef` stays. -/
  candidateId : Option String
  candidateRef : Option String
  candidateKind : Option String
  candidatePayloadDigest : Option String
  subjectObjectId : Option String
  sourceKind : String
  sourceId : String
  sourceRevision : Int
  sourceClass : SourceClass
  taintClass : TaintClass
  eventKind : EventKind
  maturity : Maturity
  effectiveMaturity : Maturity
  disposition : Disposition
  visibility : VisibilityRow
  outcome : Outcome
  sensitivity : Sensitivity
  policyRevision : Nat
  reason : String
  evidenceId : Option String
  approvalObjectId : Option String
  elevatedSupport : Bool
  decidedAt : Int

structure RunRow where
  extractionRunId : String
  sourceKind : Option String
  sourceId : Option String
  sourceRevision : Option Int
  terminalState : Option String
  leaseExpiresAt : Int

structure CandidateRow where
  candidateId : String
  extractionRunId : String
  candidateKind : String
  payload : String
  /-- `kind` of the provenance witness. -/
  provenanceKind : Option String
  sensitivity : Sensitivity
  terminalState : Option String
  leaseExpiresAt : Int

structure AlignmentRow where
  decisionId : String
  observationId : String
  alignmentKind : String
  alignmentPayload : Option String
  builtThroughCommitSeq : Nat

/-- One detected secret of a redacted text. -/
structure Detection where
  detectorId : String
  secretType : String
  offset : Nat
  length : Nat

structure RedactionRow where
  ownerKind : String
  ownerId : String
  fieldName : String
  detectionOrdinal : Nat
  detection : Detection
  commitSeq : Option Nat

structure CommitRow where
  commitSeq : Nat
  transactionId : String
  writerEpoch : Nat
  producer : String
  operationKey : String
  requestDigest : String
  recordedAt : Int
  actor : String
  cause : String

/-- The values that stand in the audit of a change. -/
inductive AuditValue where
  | null
  | text (value : String)
  | number (value : Int)
  | texts (values : List String)

def AuditValue.optional : Option String → AuditValue
  | none => .null
  | some value => .text value

/-- What a change event tells about its change. -/
structure ChangePayload where
  changeKind : String
  object : ObjectRow
  replacedObjectId : Option String
  audit : Option (List (String × AuditValue))

structure ChangeEventRow where
  commitSeq : Nat
  ordinal : Nat
  objectId : String
  changeKind : String
  idempotencyKey : String
  payload : ChangePayload

structure OutboxRow where
  outboxPosition : Nat
  commitSeq : Nat
  ordinal : Nat
  objectId : String
  objectKind : String
  sourceKind : String
  sourceId : String
  sourceRevision : Int
  sensitivity : Sensitivity
  payload : ChangePayload
  createdAt : Int
  publishedAt : Option Int

structure ReceiptRow where
  receiptId : String
  producer : String
  operationKey : String
  requestDigest : String
  commitSeq : Nat
  resultPayload : String
  createdAt : Int

structure ConsumerRow where
  consumerId : String
  checkpointCommitSeq : Nat
  updatedAt : Int

structure BarrierRow where
  barrierId : String
  artifactDigest : String
  artifactReference : String
  deleteCommitSeq : Nat
  createdAt : Int
  completedAt : Option Int

structure BarrierConsumerRow where
  barrierId : String
  consumerId : String
  requiredCheckpointCommitSeq : Nat
  acknowledgedAt : Option Int

/-! An update of these rows keeps their keys. -/

theorem ConsumerRow.consumerId_advanced (checkpoint : Nat) (time : Int) (c : ConsumerRow) :
    ConsumerRow.consumerId
      { c with checkpointCommitSeq := checkpoint, updatedAt := max c.updatedAt time } =
        c.consumerId := rfl

theorem BarrierRow.barrierId_completed (time : Int) (b : BarrierRow) :
    BarrierRow.barrierId { b with completedAt := some time } = b.barrierId := rfl

theorem BarrierConsumerRow.key_acknowledged (time : Int) (bc : BarrierConsumerRow) :
    (fun r : BarrierConsumerRow => (r.barrierId, r.consumerId))
      { bc with acknowledgedAt := some time } = (bc.barrierId, bc.consumerId) := rfl

structure AbandonmentRow where
  abandonmentId : String
  consumerId : String
  barrierId : Option String
  operatorId : String
  lastCheckpointCommitSeq : Nat
  reason : String
  commitSeq : Nat
  abandonedAt : Int

structure ReservationRow where
  reservationId : String
  artifactDigest : String
  artifactReference : String
  state : String
  leaseExpiresAt : Int

structure TombstoneRow where
  artifactDigest : String
  artifactReference : String
  operatorId : String
  reason : String
  purgedAt : Int
  commitSeq : Nat

structure UnlinkRow where
  artifactDigest : String
  artifactReference : String
  createdAt : Int

/-! ## The database -/

/-- The tables the modelled code reads or writes, keyed by their primary keys. -/
structure Db where
  commitLog : Table CommitRow.commitSeq
  /-- The `AUTOINCREMENT` sequence of `commit_log`. -/
  commitSequence : Nat
  changeEvent : Table fun r : ChangeEventRow => (r.commitSeq, r.ordinal)
  outbox : Table OutboxRow.outboxPosition
  /-- The `AUTOINCREMENT` sequence of `outbox`, which pruning does not turn back. -/
  outboxSequence : Nat
  operationReceipts : Table ReceiptRow.receiptId
  redactions : Table fun r : RedactionRow =>
    (r.ownerKind, r.ownerId, r.fieldName, r.detectionOrdinal)
  alignmentProjection : Table fun r : AlignmentRow => (r.decisionId, r.observationId)
  alignmentProjectionState : Option Nat
  writerEpoch : Int
  outboxConsumers : Table ConsumerRow.consumerId
  barriers : Table BarrierRow.barrierId
  barrierConsumers : Table fun r : BarrierConsumerRow => (r.barrierId, r.consumerId)
  abandonments : Table AbandonmentRow.abandonmentId
  reservations : Table ReservationRow.reservationId
  tombstones : Table TombstoneRow.artifactDigest
  pendingUnlinks : Table UnlinkRow.artifactDigest
  registry : Table fun r : ObjectRow => r.objectId
  domains : Table DomainRow.domainId
  propositions : Table ParentRow.id
  anchors : Table ParentRow.id
  scopes : Table ScopeRow.scopeId
  scopeTerms : Table fun r : ScopeTermRow => (r.scopeId, r.ordinal)
  evidence : Table EvidenceRow.evidenceId
  runs : Table RunRow.extractionRunId
  candidates : Table CandidateRow.candidateId
  admissions : Table fun r : AdmissionRow => (r.commitSeq, r.ordinal)
  decisions : Table DecisionRow.decisionId
  decisionEvents : Table fun r : DecisionEventRow => (r.decisionId, r.eventOrdinal)
  observations : Table ObservationRow.observationId
  dependencies : Table fun r : DependencyRow =>
    (r.observationId, r.dependencyObjectId, r.dependencyKind)

namespace Db

/-- A freshly installed database. -/
def fresh : Db where
  commitLog := .empty
  commitSequence := 0
  changeEvent := .empty
  outbox := .empty
  outboxSequence := 0
  operationReceipts := .empty
  redactions := .empty
  alignmentProjection := .empty
  alignmentProjectionState := none
  writerEpoch := -1
  outboxConsumers := .empty
  barriers := .empty
  barrierConsumers := .empty
  abandonments := .empty
  reservations := .empty
  tombstones := .empty
  pendingUnlinks := .empty
  registry := .empty
  domains := .empty
  propositions := .empty
  anchors := .empty
  scopes := .empty
  scopeTerms := .empty
  evidence := .empty
  runs := .empty
  candidates := .empty
  admissions := .empty
  decisions := .empty
  decisionEvents := .empty
  observations := .empty
  dependencies := .empty

/-- `COALESCE(MAX(commit_seq),0)` over `commit_log`. -/
def tip (db : Db) : Nat := (db.commitLog.rows.map CommitRow.commitSeq).foldr max 0

/-- The deferred foreign key of `object_registry`, which a commit checks. -/
def domainsResolve (db : Db) : Bool :=
  db.registry.rows.all fun r => (db.domains.get r.domainId).isSome

end Db

/-! ## Statements -/

/-- The tables `object_write` interpolates into its statements. -/
inductive TypedTable where
  | domains | decisions | observations | evidence

/-- The statements of a commit: those that open, publish and close it, and those its operation
executes inside the envelope. -/
inductive Write where
  /-- The commit gets the next number of the sequence. -/
  | insertCommit (row : CommitRow)
  | insertChangeEvent (row : ChangeEventRow)
  /-- The row gets the next position of the sequence. -/
  | insertOutbox (row : OutboxRow)
  | insertReceipt (row : ReceiptRow)
  | clearProjection
  | insertProjection (row : AlignmentRow)
  | recordProjectionGeneration (generation : Nat)
  | clearRedactions (ownerKind : String)
  | insertRegistry (row : ObjectRow)
  /-- Without a kind, any row with the id matches. -/
  | invalidateRegistry (objectId : String) (objectKind : Option String) (seq : Nat)
  | succeedRegistry (objectId : String) (objectKind : Option String) (successor : String)
  | invalidateTyped (table : TypedTable) (objectId : String) (seq : Nat)
  | succeedTyped (table : TypedTable) (objectId successor : String)
  | insertDomain (row : DomainRow)
  | redactDomainName (objectId placeholder : String)
  | insertScope (row : ScopeRow)
  | insertScopeTerm (row : ScopeTermRow)
  | insertEvidence (row : EvidenceRow)
  | classifyEvidence (digest : String) (sensitivity : Sensitivity) (egress : ProviderEgress)
  | insertDecision (row : DecisionRow)
  | insertDecisionEvent (row : DecisionEventRow)
  | insertObservation (row : ObservationRow)
  | insertDependency (row : DependencyRow)
  | insertAdmission (row : AdmissionRow)
  | insertRedaction (row : RedactionRow)
  | insertConsumer (row : ConsumerRow)
  | deleteConsumer (consumerId : String)
  | insertAbandonment (row : AbandonmentRow)
  | abandonBarriers (row : AbandonmentRow)
  | acknowledgeBarriers (acknowledgedAt : Int)
  | completeBarriers (completedAt : Int)
  | closeBarrier (barrierId : String) (completedAt : Int)
  | upsertBarrier (row : BarrierRow)
  | deleteBarrierConsumers (barrierId : String)
  | requireConsumers (barrierId : String) (seq : Nat)
  | deleteReservation (reservationId : String)
  | deleteExpiredReservations (digest reference : String) (now : Int)
  | insertTombstone (row : TombstoneRow)
  | insertPendingUnlink (row : UnlinkRow)

section Statements
variable {ρ κ : Type} {key : ρ → κ}

/-- `INSERT`, where `clash` finds rows that break a further uniqueness constraint. -/
def insertRow [DecidableEq κ] (t : Table key) (clash : ρ → Bool) (row : ρ) :
    Except KernelError (Table key) :=
  if t.any clash then .error .conflict
  else match t.insert row with
    | some t' => .ok t'
    | none => .error .conflict

theorem insertRow_eq_ok [DecidableEq κ] {t t' : Table key} {clash : ρ → Bool} {row : ρ} :
    insertRow t clash row = .ok t' ↔ t.any clash = false ∧ t.insert row = some t' := by
  rw [insertRow]
  cases hclash : t.any clash with
  | true => simp
  | false =>
    cases t.insert row with
    | none => simp
    | some t'' => simp

/-- An insertion adds its row at the end. -/
theorem insertRow_rows [DecidableEq κ] {t t' : Table key} {clash : ρ → Bool} {row : ρ}
    (h : insertRow t clash row = .ok t') : t'.rows = t.rows ++ [row] :=
  (Table.insert_eq_some.mp (insertRow_eq_ok.mp h).2).2

variable [HasLifetime ρ]

/-- The live row of the object. -/
def liveRow (hit : ρ → Bool) (r : ρ) : Bool := hit r && (lifetime r).live

/-- Ends the lifetime of a row. -/
def endLife (seq : Nat) (r : ρ) : ρ :=
  withLifetime r { lifetime r with invalidatedCommitSeq := some seq }

/-- Names the successor of a row. -/
def succeed (successor : String) (r : ρ) : ρ :=
  withLifetime r { lifetime r with supersededBy := some successor }

/-- `UPDATE … SET invalidated_commit_seq` on the live rows that `hit` selects, under the `CHECK`
that a row does not end in the commit that created it. -/
def invalidateRows (t : Table key) (hit : ρ → Bool) (seq : Nat)
    (hkey : ∀ r : ρ, key (endLife seq r) = key r) : Except KernelError (Table key × Nat) :=
  if t.any (fun r => liveRow hit r && decide (seq ≤ (lifetime r).createdCommitSeq)) then
    .error .conflict
  else .ok (t.update (liveRow hit) (endLife seq) hkey, t.count (liveRow hit))

/-- `UPDATE … SET superseded_by`, under a trigger that keeps a successor once it is named. -/
def succeedOnce (t : Table key) (hit : ρ → Bool) (successor : String)
    (hkey : ∀ r : ρ, key (succeed successor r) = key r) :
    Except KernelError (Table key × Nat) :=
  if t.any (fun r => hit r && (lifetime r).supersededBy.isSome) then .error .conflict
  else .ok (t.update hit (succeed successor) hkey, t.count hit)

/-- `UPDATE … SET superseded_by` on a table without that trigger. -/
def succeedRows (t : Table key) (hit : ρ → Bool) (successor : String)
    (hkey : ∀ r : ρ, key (succeed successor r) = key r) : Table key × Nat :=
  (t.update hit (succeed successor) hkey, t.count hit)

/-- The row of the object, of the kind if one is asked for. -/
def ofObject (objectId : String) (r : ρ) : Bool := (lifetime r).objectId == objectId

end Statements

/-- `complete_satisfied_barriers`: the barrier has consumers, and each has acknowledged, has caught
up or was abandoned. -/
def barrierSatisfied (db : Db) (b : BarrierRow) : Bool :=
  db.barrierConsumers.any (fun bc => bc.barrierId == b.barrierId) &&
    !db.barrierConsumers.any fun bc =>
      bc.barrierId == b.barrierId && bc.acknowledgedAt.isNone &&
        (match db.outboxConsumers.get bc.consumerId with
          | some c => decide (c.checkpointCommitSeq < bc.requiredCheckpointCommitSeq)
          | none => true) &&
        !db.abandonments.any fun a =>
          a.barrierId == some bc.barrierId && a.consumerId == bc.consumerId &&
            decide (bc.requiredCheckpointCommitSeq ≤ a.commitSeq)

/-- The rows `abandon_outbox_consumer` inserts: one for each barrier that still waits for the
consumer, and for the barrier it names. -/
def abandonedBarriers (db : Db) (a : AbandonmentRow) : List AbandonmentRow :=
  (db.barrierConsumers.rows.zipIdx.filter fun (bc, _) =>
    bc.consumerId == a.consumerId &&
      ((db.barriers.get bc.barrierId).any fun b =>
        b.completedAt.isNone || a.barrierId == some b.barrierId)).map
    fun (bc, rowid) =>
      { a with abandonmentId := s!"{a.abandonmentId}-{rowid}", barrierId := some bc.barrierId }

/-- Inserts rows one after the other. -/
def insertRows {ρ κ : Type} {key : ρ → κ} [DecidableEq κ] (t : Table key) :
    List ρ → Except KernelError (Table key)
  | [] => .ok t
  | r :: rs => do insertRows (← insertRow t (fun _ => false) r) rs

namespace Write

/-- What a statement does: the database after it and the number of rows it changed. -/
def apply (w : Write) (db : Db) : Except KernelError (Db × Nat) :=
  match w with
  | insertCommit row => do
    let seq := db.commitSequence + 1
    let t ← insertRow db.commitLog (fun r => r.transactionId == row.transactionId ||
      (r.producer == row.producer && r.operationKey == row.operationKey))
      { row with commitSeq := seq }
    return ({ db with commitLog := t, commitSequence := seq }, 1)
  | insertChangeEvent row => do
    let t ← insertRow db.changeEvent (fun _ => false) row
    return ({ db with changeEvent := t }, 1)
  | insertOutbox row => do
    let position := db.outboxSequence + 1
    let t ← insertRow db.outbox (fun r => r.commitSeq == row.commitSeq && r.ordinal == row.ordinal)
      { row with outboxPosition := position }
    return ({ db with outbox := t, outboxSequence := position }, 1)
  | insertReceipt row => do
    let t ← insertRow db.operationReceipts
      (fun r => r.producer == row.producer && r.operationKey == row.operationKey) row
    return ({ db with operationReceipts := t }, 1)
  | clearProjection =>
    .ok ({ db with alignmentProjection := .empty }, db.alignmentProjection.rows.length)
  | insertProjection row => do
    let t ← insertRow db.alignmentProjection (fun _ => false) row
    return ({ db with alignmentProjection := t }, 1)
  | recordProjectionGeneration generation =>
    .ok ({ db with alignmentProjectionState := some generation }, 1)
  | clearRedactions ownerKind =>
    let hit := fun r : RedactionRow => r.ownerKind == ownerKind
    .ok ({ db with redactions := db.redactions.delete hit }, db.redactions.count hit)
  | insertRegistry row => do
    let t ← insertRow db.registry (fun _ => false) row
    return ({ db with registry := t }, 1)
  | invalidateRegistry objectId objectKind seq => do
    let (t, n) ← invalidateRows db.registry
      (fun r => r.objectId == objectId && objectKind.all (r.objectKind == ·)) seq fun _ => rfl
    return ({ db with registry := t }, n)
  | succeedRegistry objectId objectKind successor => do
    let (t, n) ← succeedOnce db.registry
      (fun r => r.objectId == objectId && objectKind.all (r.objectKind == ·)) successor
      fun _ => rfl
    return ({ db with registry := t }, n)
  | invalidateTyped table objectId seq =>
    match table with
    | .domains => do
      let (t, n) ← invalidateRows db.domains (ofObject objectId) seq fun _ => rfl
      return ({ db with domains := t }, n)
    | .decisions => do
      let (t, n) ← invalidateRows db.decisions (ofObject objectId) seq fun _ => rfl
      return ({ db with decisions := t }, n)
    | .observations => do
      let (t, n) ← invalidateRows db.observations (ofObject objectId) seq fun _ => rfl
      return ({ db with observations := t }, n)
    | .evidence => do
      let (t, n) ← invalidateRows db.evidence (ofObject objectId) seq fun _ => rfl
      return ({ db with evidence := t }, n)
  | succeedTyped table objectId successor =>
    match table with
    | .domains => do
      let (t, n) ← succeedOnce db.domains (ofObject objectId) successor fun _ => rfl
      return ({ db with domains := t }, n)
    | .decisions =>
      let (t, n) := succeedRows db.decisions (ofObject objectId) successor fun _ => rfl
      .ok ({ db with decisions := t }, n)
    | .observations =>
      let (t, n) := succeedRows db.observations (ofObject objectId) successor fun _ => rfl
      .ok ({ db with observations := t }, n)
    | .evidence =>
      let (t, n) := succeedRows db.evidence (ofObject objectId) successor fun _ => rfl
      .ok ({ db with evidence := t }, n)
  | insertDomain row => do
    let t ← insertRow db.domains (fun r => r.objectId == row.objectId ||
      (r.live && r.name == row.name && row.name != Scope.operatorRedactionPlaceholder)) row
    return ({ db with domains := t }, 1)
  | redactDomainName objectId placeholder =>
    let hit := fun r : DomainRow => r.objectId == objectId && r.name != placeholder
    let t := db.domains.update hit
      (fun r => { r with name := placeholder }) fun _ => rfl
    .ok ({ db with domains := t }, db.domains.count hit)
  | insertScope row => do
    let t ← insertRow db.scopes (fun r => r.objectId == row.objectId) row
    return ({ db with scopes := t }, 1)
  | insertScopeTerm row => do
    let t ← insertRow db.scopeTerms (fun _ => false) row
    return ({ db with scopeTerms := t }, 1)
  | insertEvidence row => do
    let t ← insertRow db.evidence (fun r => r.objectId == row.objectId) row
    return ({ db with evidence := t }, 1)
  | classifyEvidence digest sensitivity egress =>
    let hit := fun r : EvidenceRow => r.artifactDigest == digest && r.live
    let t := db.evidence.update hit
      (fun r => { r with sensitivity := sensitivity, providerEgress := egress }) fun _ => rfl
    .ok ({ db with evidence := t }, db.evidence.count hit)
  | insertDecision row => do
    let t ← insertRow db.decisions (fun r => r.objectId == row.objectId) row
    return ({ db with decisions := t }, 1)
  | insertDecisionEvent row => do
    let t ← insertRow db.decisionEvents (fun _ => false) row
    return ({ db with decisionEvents := t }, 1)
  | insertObservation row => do
    let t ← insertRow db.observations (fun r => r.objectId == row.objectId) row
    return ({ db with observations := t }, 1)
  | insertDependency row => do
    let t ← insertRow db.dependencies (fun _ => false) row
    return ({ db with dependencies := t }, 1)
  | insertAdmission row =>
    -- The foreign keys of the four columns that a request or another table supplies.
    if row.candidateId.all (fun id => (db.candidates.get id).isSome) &&
        row.subjectObjectId.all (fun id => (db.registry.get id).isSome) &&
        row.evidenceId.all (fun id => (db.evidence.get id).isSome) &&
        row.approvalObjectId.all (fun id => (db.registry.get id).isSome) then do
      let t ← insertRow db.admissions (fun _ => false) row
      return ({ db with admissions := t }, 1)
    else .error .conflict
  | insertRedaction row => do
    let t ← insertRow db.redactions (fun _ => false) row
    return ({ db with redactions := t }, 1)
  | insertConsumer row => do
    let t ← insertRow db.outboxConsumers (fun _ => false) row
    return ({ db with outboxConsumers := t }, 1)
  | deleteConsumer consumerId =>
    let hit := fun r : ConsumerRow => r.consumerId == consumerId
    .ok ({ db with outboxConsumers := db.outboxConsumers.delete hit }, db.outboxConsumers.count hit)
  | insertAbandonment row => do
    let t ← insertRow db.abandonments (fun _ => false) row
    return ({ db with abandonments := t }, 1)
  | abandonBarriers row => do
    let rows := abandonedBarriers db row
    let t ← insertRows db.abandonments rows
    return ({ db with abandonments := t }, rows.length)
  | acknowledgeBarriers acknowledgedAt =>
    let hit := fun bc : BarrierConsumerRow => bc.acknowledgedAt.isNone &&
      (db.outboxConsumers.get bc.consumerId).any fun c =>
        decide (bc.requiredCheckpointCommitSeq ≤ c.checkpointCommitSeq)
    let t := db.barrierConsumers.update hit
      (fun bc => { bc with acknowledgedAt := some acknowledgedAt }) fun _ => rfl
    .ok ({ db with barrierConsumers := t }, db.barrierConsumers.count hit)
  | completeBarriers completedAt =>
    let hit := fun b : BarrierRow => b.completedAt.isNone && barrierSatisfied db b
    let t := db.barriers.update hit
      (fun b => { b with completedAt := some completedAt }) fun _ => rfl
    .ok ({ db with barriers := t }, db.barriers.count hit)
  | closeBarrier barrierId completedAt =>
    let hit := fun b : BarrierRow => b.barrierId == barrierId && b.completedAt.isNone
    let t := db.barriers.update hit
      (fun b => { b with completedAt := some completedAt }) fun _ => rfl
    .ok ({ db with barriers := t }, db.barriers.count hit)
  | upsertBarrier row =>
    if db.tombstones.any (fun t => t.artifactDigest == row.artifactDigest &&
        t.artifactReference != row.artifactReference) then .error .conflict
    else
      let open' := fun b : BarrierRow =>
        b.artifactDigest == row.artifactDigest && b.completedAt.isNone
      if db.barriers.any open' then
        if db.barriers.any (fun b => open' b && b.artifactReference != row.artifactReference) then
          .error .conflict
        else
          let t := db.barriers.update open'
            (fun b => { b with deleteCommitSeq := row.deleteCommitSeq, createdAt := row.createdAt })
            fun _ => rfl
          .ok ({ db with barriers := t }, 1)
      else do
        let t ← insertRow db.barriers (fun _ => false) row
        return ({ db with barriers := t }, 1)
  | deleteBarrierConsumers barrierId =>
    let hit := fun bc : BarrierConsumerRow => bc.barrierId == barrierId
    .ok ({ db with barrierConsumers := db.barrierConsumers.delete hit },
      db.barrierConsumers.count hit)
  | requireConsumers barrierId seq => do
    let rows := db.outboxConsumers.rows.map fun c =>
      { barrierId := barrierId, consumerId := c.consumerId
        requiredCheckpointCommitSeq := seq, acknowledgedAt := none : BarrierConsumerRow }
    let t ← insertRows db.barrierConsumers rows
    return ({ db with barrierConsumers := t }, rows.length)
  | deleteReservation reservationId =>
    let hit := fun r : ReservationRow => r.reservationId == reservationId && r.state == "Live"
    .ok ({ db with reservations := db.reservations.delete hit }, db.reservations.count hit)
  | deleteExpiredReservations digest reference now =>
    let hit := fun r : ReservationRow => r.state == "Live" && decide (r.leaseExpiresAt ≤ now) &&
      (r.artifactDigest == digest || r.artifactReference == reference)
    .ok ({ db with reservations := db.reservations.delete hit }, db.reservations.count hit)
  | insertTombstone row => do
    let t ← insertRow db.tombstones (fun _ => false) row
    return ({ db with tombstones := t }, 1)
  | insertPendingUnlink row => do
    let t ← insertRow db.pendingUnlinks (fun _ => false) row
    return ({ db with pendingUnlinks := t }, 1)

end Write

end MagicContext.Kernel
