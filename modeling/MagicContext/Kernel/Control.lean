import MagicContext.Kernel.Governance

/-!
# Outbox consumers and artifacts

The envelope's methods on the consumers of the outbox and on the barriers that wait for them, and
the two operations on artifacts that run on the envelope directly: taking a reference to stored
bytes, and deleting or purging an artifact.

## What is here

* `registerOutboxConsumer`, `deregisterOutboxConsumer`, `abandonOutboxConsumer`,
  `abandonDeletionBarrier`.
* `insertReference` and `deleteArtifact` — what ingest and deletion do inside their commits.
* `ControlWrites` and `ArtifactWrites` — the statements of each group.
-/

namespace MagicContext.Kernel

open Transaction

variable (sys : Platform)

/-! ## Consumers -/

/-- `consumer_identity` and `barrier_identity`. -/
def controlIdentity (id : String) : Except KernelError String :=
  if Text.isBlank id then .error .invalidInput else sys.identity id

/-- The latest commit before this envelope's. -/
def preOperationTip (env : Envelope) : Nat :=
  ((env.tx.commitLog.select fun r => decide (r.commitSeq < env.commitSeq)).map
    CommitRow.commitSeq).foldr max 0

def pushControlChange (objectId objectKind kind : String) (audit : List (String × AuditValue))
    (redactions : List (String × RedactedField)) : M Unit := do
  let seq ← commitSeq
  pushChange
    { object :=
        { objectId := objectId, objectKind := objectKind, domainId := "kernel-control"
          sourceKind := "kernel-control", sourceId := objectId, sourceRevision := 0
          createdCommitSeq := seq, sensitivity := .normal }
      kind := kind
      redactions := redactions
      audit := some audit }

/-- Where a new consumer starts: before the oldest row the outbox still has. -/
def firstCheckpoint (env : Envelope) : Nat :=
  match (env.tx.outbox.rows.map OutboxRow.commitSeq).min? with
  | some commitSeq => commitSeq - 1
  | none => preOperationTip env

variable (consumerId : String) (recordedAt : Int)

def registerOutboxConsumerInner : M Nat := do
  require (decide (0 ≤ recordedAt)) .invalidInput
  let consumerId ← check (controlIdentity sys consumerId)
  let checkpoint ← query fun env => .ok (firstCheckpoint env)
  let _ ← exec (.insertConsumer
    { consumerId := consumerId, checkpointCommitSeq := checkpoint, updatedAt := recordedAt })
  pushControlChange consumerId "outbox_consumer" "consumer_register"
    [("consumer_id", .text consumerId), ("checkpoint_commit_seq", .number checkpoint),
      ("recorded_at", .number recordedAt)] []
  return checkpoint

def registerOutboxConsumer : M Nat :=
  guarded (registerOutboxConsumerInner sys consumerId recordedAt)

/-- A registered consumer with its checkpoint. -/
def consumerCheckpoint (env : Envelope) : Except KernelError (String × Nat) := do
  if recordedAt < 0 then .error .invalidInput
  else
    let consumerId ← controlIdentity sys consumerId
    match env.tx.outboxConsumers.get consumerId with
    | some c => return (consumerId, c.checkpointCommitSeq)
    | none => .error .notFound

def completeSatisfiedBarriers (completedAt : Int) : M Unit := do
  let _ ← exec (.acknowledgeBarriers completedAt)
  let _ ← exec (.completeBarriers completedAt)

def deregisterOutboxConsumerInner : M Unit := do
  let (consumerId, checkpoint) ← query (consumerCheckpoint sys consumerId recordedAt)
  let tip ← query fun env => .ok (preOperationTip env)
  require (decide (tip ≤ checkpoint)) .consumerPending
  completeSatisfiedBarriers recordedAt
  let _ ← exec (.deleteConsumer consumerId)
  pushControlChange consumerId "outbox_consumer" "consumer_deregister"
    [("consumer_id", .text consumerId), ("checkpoint_commit_seq", .number checkpoint),
      ("recorded_at", .number recordedAt)] []

def deregisterOutboxConsumer : M Unit :=
  guarded (deregisterOutboxConsumerInner sys consumerId recordedAt)

structure ConsumerAbandonment where
  operatorId : String
  reason : String
  abandonedAt : Int
  barrierId : Option String

/-- A named barrier must already record the consumer. -/
def barrierRecords (barrierId : Option String) (consumerId : String) (env : Envelope) :
    Except KernelError Unit :=
  found (barrierId.all fun barrierId =>
    (env.tx.barrierConsumers.get (barrierId, consumerId)).isSome)

/-- A consumer no barrier waits for is abandoned on its own. -/
def recordAbandonment (recorded : Nat) (row : AbandonmentRow) : M Unit :=
  if recorded = 0 then do
    let _ ← exec (.insertAbandonment { row with barrierId := none })
  else pure ()

/-- `unique` is the process-wide id the abandonment's key is made with. -/
def abandonOutboxConsumerInner (abandonment : ConsumerAbandonment) (unique : String) : M Unit := do
  require (!Text.isBlank abandonment.operatorId && !Text.isBlank abandonment.reason) .invalidInput
  let (consumerId, checkpoint) ←
    query (consumerCheckpoint sys consumerId abandonment.abandonedAt)
  let operatorId ← check (sys.redact abandonment.operatorId)
  let reason ← check (sys.redact abandonment.reason)
  let barrierId ← check (abandonment.barrierId.mapM (controlIdentity sys))
  query (barrierRecords barrierId consumerId)
  let seq ← commitSeq
  let row : AbandonmentRow :=
    { abandonmentId := s!"{seq}-{unique}", consumerId := consumerId, barrierId := barrierId
      operatorId := operatorId.text, lastCheckpointCommitSeq := checkpoint, reason := reason.text
      commitSeq := seq, abandonedAt := abandonment.abandonedAt }
  let recorded ← exec (.abandonBarriers row)
  recordAbandonment recorded row
  let _ ← exec (.deleteConsumer consumerId)
  completeSatisfiedBarriers abandonment.abandonedAt
  pushControlChange consumerId "outbox_consumer" "consumer_abandon"
    [("consumer_id", .text consumerId), ("checkpoint_commit_seq", .number checkpoint),
      ("operator_id", .text operatorId.text), ("reason", .text reason.text),
      ("abandoned_at", .number abandonment.abandonedAt), ("barrier_id", .optional barrierId)]
    [("operator_id", operatorId), ("reason", reason)]

def abandonOutboxConsumer (abandonment : ConsumerAbandonment) (unique : String) : M Unit :=
  guarded (abandonOutboxConsumerInner sys consumerId abandonment unique)

def abandonDeletionBarrierInner (barrierId operatorId reason : String) (abandonedAt : Int) :
    M Unit := do
  require (!Text.isBlank operatorId && !Text.isBlank reason && decide (0 ≤ abandonedAt))
    .invalidInput
  let barrierId ← check (controlIdentity sys barrierId)
  let operatorId ← check (sys.redact operatorId)
  let reason ← check (sys.redact reason)
  let consumers ← query fun env => .ok
    (env.tx.barrierConsumers.count fun bc => bc.barrierId == barrierId)
  require (consumers == 0) .conflict
  let closed ← exec (.closeBarrier barrierId abandonedAt)
  require (closed == 1) .notFound
  pushControlChange barrierId "deletion_backfill_barrier" "deletion_barrier_abandon"
    [("barrier_id", .text barrierId), ("operator_id", .text operatorId.text),
      ("reason", .text reason.text), ("abandoned_at", .number abandonedAt)]
    [("operator_id", operatorId), ("reason", reason)]

def abandonDeletionBarrier (barrierId operatorId reason : String) (abandonedAt : Int) : M Unit :=
  guarded (abandonDeletionBarrierInner sys barrierId operatorId reason abandonedAt)

/-! ## Artifacts -/

/-- An artifact whose bytes are stored, ready to be referenced. -/
structure PreparedArtifact where
  reservationId : String
  digest : String
  artifactReference : String
  byteLength : Nat
  payloadDetections : List Detection
  sensitivity : Sensitivity
  providerEgress : ProviderEgress
  evidenceId : String
  objectId : String
  objectKind : String
  domainId : String
  sourceKind : String
  sourceId : String
  sourceRevision : Int
  mediaType : String
  retentionClass : String
  retainUntil : Option Int

/-- Neither purged nor waiting to be unlinked, reserved by this ingest, and not being reclaimed. -/
def referencePermitted (a : PreparedArtifact) (env : Envelope) : Except KernelError Unit :=
  if env.tx.tombstones.any (fun r => r.artifactDigest == a.digest) ||
      env.tx.pendingUnlinks.any (fun r => r.artifactDigest == a.digest) then .error .conflict
  else if !((env.tx.reservations.get a.reservationId).any fun r =>
      r.artifactDigest == a.digest && r.state == "Live") then .error .conflict
  else if env.tx.reservations.any (fun r =>
      r.artifactDigest == a.digest && r.state == "Reclaiming") then .error .conflict
  else .ok ()

/-- The strictest classification any reference to the bytes has. -/
def mergedClassification (db : Db) (digest : String) (sensitivity : Sensitivity)
    (egress : ProviderEgress) : Sensitivity × ProviderEgress :=
  (db.evidence.select fun r => r.artifactDigest == digest).foldl
    (fun (s, e) r => (s.restrictive r.sensitivity, e.restrictive r.providerEgress))
    (sensitivity, egress)

def mergeStoredClassification (digest : String) (sensitivity : Sensitivity)
    (egress : ProviderEgress) : M (Sensitivity × ProviderEgress) := do
  let merged ← query fun env => .ok (mergedClassification env.tx digest sensitivity egress)
  let _ ← execIo (.classifyEvidence digest merged.1 merged.2)
  return merged

/-- `insert_reference`. -/
def insertReference (a : PreparedArtifact) : M String := do
  let seq ← commitSeq
  query (referencePermitted a)
  let (sensitivity, egress) ← mergeStoredClassification a.digest a.sensitivity a.providerEgress
  let evidenceId ← check (sys.identity a.evidenceId)
  let objectId ← check (sys.identity a.objectId)
  let objectKind ← check (sys.identity a.objectKind)
  let domainId ← check (sys.identity a.domainId)
  let sourceKind ← check (sys.identity a.sourceKind)
  let sourceId ← check (sys.identity a.sourceId)
  let mediaType := sys.redactLossy a.mediaType
  let retentionClass := sys.redactLossy a.retentionClass
  let object : ObjectRow :=
    { objectId := objectId, objectKind := objectKind, domainId := domainId
      sourceKind := sourceKind, sourceId := sourceId, sourceRevision := a.sourceRevision
      createdCommitSeq := seq, sensitivity := sensitivity }
  let _ ← exec (.insertRegistry object)
  let _ ← exec (.insertEvidence
    { evidenceId := evidenceId, objectId := objectId, createdCommitSeq := seq
      artifactReference := a.artifactReference, artifactDigest := a.digest
      byteLength := a.byteLength, mediaType := mediaType.text
      retentionClass := retentionClass.text, retainUntil := a.retainUntil
      providerEgress := egress, sensitivity := sensitivity })
  record "evidence" evidenceId "payload" ⟨"", a.payloadDetections⟩
  record "evidence" evidenceId "media_type" mediaType
  record "evidence" evidenceId "retention_class" retentionClass
  let released ← execIo (.deleteReservation a.reservationId)
  require (released == 1) .conflict
  pushChange { object := object, kind := "insert" }
  return evidenceId

inductive DeletionKind where
  | delete | purge

def DeletionKind.asStr : DeletionKind → String
  | delete => "delete"
  | purge => "purge"

/-- A deletion, with the texts of its audit already redacted. -/
structure ArtifactDeletion where
  kind : DeletionKind
  digest : String
  artifactReference : String
  barrierId : String
  operatorId : RedactedField
  reason : RedactedField
  targetLocator : RedactedField
  deletedAt : Int

def propagationTargets : List String :=
  ["derived_support", "retrieval_documents", "embeddings", "admission_state"]

/-- The evidence rows that reference the bytes, by object. -/
def referencesOf (digest : String) (env : Envelope) : List EvidenceRow :=
  (env.tx.evidence.select fun r => r.artifactDigest == digest).insertionSort fun r r' =>
    r.objectId ≤ r'.objectId

/-- The label of the propagated changes: the strictest of the references. -/
def referenceSensitivity (rows : List EvidenceRow) : Sensitivity :=
  match rows with
  | [] => .sensitive
  | rows => rows.foldl (fun s r => s.restrictive r.sensitivity) .normal

def upsertBarrier (d : ArtifactDeletion) : M Unit := do
  let seq ← commitSeq
  let _ ← execIo (.upsertBarrier
    { barrierId := d.barrierId, artifactDigest := d.digest
      artifactReference := d.artifactReference, deleteCommitSeq := seq, createdAt := d.deletedAt
      completedAt := none })
  let _ ← execIo (.deleteBarrierConsumers d.barrierId)
  let _ ← execIo (.requireConsumers d.barrierId seq)

/-- What a purge adds to a deletion. -/
def purgeRows (d : ArtifactDeletion) : M Unit :=
  match d.kind with
  | .delete => pure ()
  | .purge => do
    let seq ← commitSeq
    let _ ← execIo (.deleteExpiredReservations d.digest d.artifactReference d.deletedAt)
    let _ ← execIo (.insertTombstone
      { artifactDigest := d.digest, artifactReference := d.artifactReference
        operatorId := d.operatorId.text, reason := d.reason.text, purgedAt := d.deletedAt
        commitSeq := seq })
    let _ ← execIo (.insertPendingUnlink
      { artifactDigest := d.digest, artifactReference := d.artifactReference
        createdAt := d.deletedAt })

/-- The redactions a purge publishes: those that found something. -/
def ArtifactDeletion.redactions (d : ArtifactDeletion) : List (String × RedactedField) :=
  match d.kind with
  | .delete => []
  | .purge => [("operator_id", d.operatorId), ("target_locator", d.targetLocator),
      ("reason", d.reason)].filter fun (_, field) => !field.detections.isEmpty

/-- The change that tells one class of targets about the deletion. -/
def ArtifactDeletion.change (d : ArtifactDeletion) (seq : Nat) (rows : List EvidenceRow)
    (target : String) : PendingChange where
  object :=
    { objectId := d.digest, objectKind := target, domainId := "kernel-control"
      sourceKind := "artifact_deletion", sourceId := d.digest, sourceRevision := seq
      createdCommitSeq := seq, invalidatedCommitSeq := some seq
      sensitivity := referenceSensitivity rows }
  kind := "artifact_deletion"
  redactions := d.redactions
  audit := some
    [("target_class", .text target), ("deletion_kind", .text d.kind.asStr),
      ("digest", .text d.digest), ("affected_object_ids", .texts (rows.map fun r => r.objectId)),
      ("deletion_commit_seq", .number seq), ("barrier_id", .text d.barrierId),
      ("sensitivity", .text (referenceSensitivity rows).asStr),
      ("operator_id", .text d.operatorId.text), ("target_locator", .text d.targetLocator.text),
      ("deleted_at", .number d.deletedAt)]

/-- Ends the live references to the bytes and tells the targets.  The objects were listed under
the writer's lock, before the transaction began. -/
def deleteArtifact (d : ArtifactDeletion) : M Unit := do
  let seq ← commitSeq
  let rows ← query fun env => .ok (referencesOf d.digest env)
  (rows.filter fun r => r.live).forM fun r => do
    let _ ← execIo (.invalidateTyped .evidence r.objectId seq)
    let _ ← execIo (.invalidateRegistry r.objectId none seq)
  upsertBarrier d
  purgeRows d
  propagationTargets.forM fun target => pushChange (d.change seq rows target)

/-! ## What these write -/

/-- The statements of the methods on consumers. -/
inductive ControlWrites (seq : Nat) : Write → Prop where
  | insertConsumer (row : ConsumerRow) : ControlWrites seq (.insertConsumer row)
  | deleteConsumer (id : String) : ControlWrites seq (.deleteConsumer id)
  | insertAbandonment (row : AbandonmentRow) : ControlWrites seq (.insertAbandonment row)
  | abandonBarriers (row : AbandonmentRow) : ControlWrites seq (.abandonBarriers row)
  | acknowledge (time : Int) : ControlWrites seq (.acknowledgeBarriers time)
  | complete (time : Int) : ControlWrites seq (.completeBarriers time)
  | close (id : String) (time : Int) : ControlWrites seq (.closeBarrier id time)

/-- The statements of ingest and deletion. -/
inductive ArtifactWrites (seq : Nat) : Write → Prop where
  | classify (digest : String) (s : Sensitivity) (e : ProviderEgress) :
      ArtifactWrites seq (.classifyEvidence digest s e)
  | registry (row : ObjectRow) (hcreated : row.createdCommitSeq = seq) (hlive : row.live) :
      ArtifactWrites seq (.insertRegistry row)
  | evidence (row : EvidenceRow) (hcreated : row.createdCommitSeq = seq) (hlive : row.live) :
      ArtifactWrites seq (.insertEvidence row)
  | redaction (row : RedactionRow) : ArtifactWrites seq (.insertRedaction row)
  | releaseReservation (id : String) : ArtifactWrites seq (.deleteReservation id)
  | invalidateEvidence (objectId : String) :
      ArtifactWrites seq (.invalidateTyped .evidence objectId seq)
  | invalidateRegistry (objectId : String) :
      ArtifactWrites seq (.invalidateRegistry objectId none seq)
  | barrier (row : BarrierRow) : ArtifactWrites seq (.upsertBarrier row)
  | clearConsumers (id : String) : ArtifactWrites seq (.deleteBarrierConsumers id)
  | requireConsumers (id : String) : ArtifactWrites seq (.requireConsumers id seq)
  | expire (digest reference : String) (now : Int) :
      ArtifactWrites seq (.deleteExpiredReservations digest reference now)
  | tombstone (row : TombstoneRow) : ArtifactWrites seq (.insertTombstone row)
  | unlink (row : UnlinkRow) : ArtifactWrites seq (.insertPendingUnlink row)

/-- Those of an ingest. -/
inductive ReferenceWrites (seq : Nat) : Write → Prop where
  | classify (digest : String) (s : Sensitivity) (e : ProviderEgress) :
      ReferenceWrites seq (.classifyEvidence digest s e)
  | registry (row : ObjectRow) (hcreated : row.createdCommitSeq = seq) (hlive : row.live) :
      ReferenceWrites seq (.insertRegistry row)
  | evidence (row : EvidenceRow) (hcreated : row.createdCommitSeq = seq) (hlive : row.live) :
      ReferenceWrites seq (.insertEvidence row)
  | redaction (row : RedactionRow) : ReferenceWrites seq (.insertRedaction row)
  | releaseReservation (id : String) : ReferenceWrites seq (.deleteReservation id)

theorem ReferenceWrites.artifact {seq : Nat} {w : Write} (h : ReferenceWrites seq w) :
    ArtifactWrites seq w := by
  cases h with
  | classify => exact .classify _ _ _
  | registry _ hcreated hlive => exact .registry _ hcreated hlive
  | evidence _ hcreated hlive => exact .evidence _ hcreated hlive
  | redaction => exact .redaction _
  | releaseReservation => exact .releaseReservation _

/-- Those of a deletion that are not about its barrier. -/
inductive DeletionWrites (seq : Nat) : Write → Prop where
  | evidence (objectId : String) : DeletionWrites seq (.invalidateTyped .evidence objectId seq)
  | registry (objectId : String) : DeletionWrites seq (.invalidateRegistry objectId none seq)
  | expire (digest reference : String) (now : Int) :
      DeletionWrites seq (.deleteExpiredReservations digest reference now)
  | tombstone (row : TombstoneRow) : DeletionWrites seq (.insertTombstone row)
  | unlink (row : UnlinkRow) : DeletionWrites seq (.insertPendingUnlink row)

theorem DeletionWrites.artifact {seq : Nat} {w : Write} (h : DeletionWrites seq w) :
    ArtifactWrites seq w := by
  cases h with
  | evidence => exact .invalidateEvidence _
  | registry => exact .invalidateRegistry _
  | expire => exact .expire _ _ _
  | tombstone => exact .tombstone _
  | unlink => exact .unlink _

section Evolves
variable {sys}

theorem evolves_pushControlChange {P : Nat → Write → Prop} (objectId objectKind kind : String)
    (audit : List (String × AuditValue)) (redactions : List (String × RedactedField)) :
    Keeps (Evolves P) (pushControlChange objectId objectKind kind audit redactions) :=
  evolves_bind (fun s => Evolves.refl _ s) fun _ => evolves_pushChange _

theorem evolves_registerOutboxConsumerInner (id : String) (time : Int) :
    Keeps (Evolves ControlWrites) (registerOutboxConsumerInner sys id time) :=
  evolves_require_bind fun _ => evolves_check_bind fun _ =>
    evolves_query_bind fun _ =>
    evolves_exec_bind (fun _ => .insertConsumer _) fun _ =>
    evolves_bind (evolves_pushControlChange _ _ _ _ _) fun _ => evolves_pure _

theorem evolves_completeSatisfiedBarriers (time : Int) :
    Keeps (Evolves ControlWrites) (completeSatisfiedBarriers time) :=
  evolves_exec_bind (fun _ => .acknowledge _) fun _ =>
    evolves_exec_bind (fun _ => .complete _) fun _ => evolves_pure _

theorem evolves_deregisterOutboxConsumerInner (id : String) (time : Int) :
    Keeps (Evolves ControlWrites) (deregisterOutboxConsumerInner sys id time) :=
  evolves_query_bind fun _ => evolves_query_bind fun _ =>
    evolves_require_bind fun _ =>
    evolves_bind (evolves_completeSatisfiedBarriers _) fun _ =>
    evolves_exec_bind (fun _ => .deleteConsumer _) fun _ =>
    evolves_pushControlChange _ _ _ _ _

theorem evolves_abandonOutboxConsumerInner (id : String) (a : ConsumerAbandonment)
    (unique : String) :
    Keeps (Evolves ControlWrites) (abandonOutboxConsumerInner sys id a unique) :=
  evolves_require_bind fun _ => evolves_query_bind fun _ =>
    evolves_check_bind fun _ => evolves_check_bind fun _ =>
    evolves_check_bind fun _ => evolves_query_bind fun _ =>
    evolves_bind (fun s => Evolves.refl _ s) fun _ =>
    evolves_exec_bind (fun _ => .abandonBarriers _) fun _ =>
    evolves_bind (evolves_ite (evolves_exec_bind (fun _ => .insertAbandonment _) fun _ =>
      evolves_pure _) (evolves_pure _)) fun _ =>
    evolves_exec_bind (fun _ => .deleteConsumer _) fun _ =>
    evolves_bind (evolves_completeSatisfiedBarriers _) fun _ =>
    evolves_pushControlChange _ _ _ _ _

theorem evolves_abandonDeletionBarrierInner (barrierId operatorId reason : String) (time : Int) :
    Keeps (Evolves ControlWrites)
      (abandonDeletionBarrierInner sys barrierId operatorId reason time) :=
  evolves_require_bind fun _ => evolves_check_bind fun _ =>
    evolves_check_bind fun _ => evolves_check_bind fun _ =>
    evolves_query_bind fun _ => evolves_require_bind fun _ =>
    evolves_exec_bind (fun _ => .close _ _) fun _ =>
    evolves_require_bind fun _ => evolves_pushControlChange _ _ _ _ _

theorem evolves_mergeStoredClassification (digest : String) (s : Sensitivity) (e : ProviderEgress) :
    Keeps (Evolves ReferenceWrites) (mergeStoredClassification digest s e) :=
  evolves_query_bind fun _ =>
    evolves_execIo_bind (fun _ => .classify _ _ _) fun _ => evolves_pure _

theorem evolves_insertReference (a : PreparedArtifact) :
    Keeps (Evolves ReferenceWrites) (insertReference sys a) := by
  refine evolves_commitSeq_bind fun seq => evolves_query_bind fun _ => ?_
  refine evolves_bind ((evolves_mergeStoredClassification _ _ _).mono fun _ _ h =>
    h.mono fun _ _ hw _ => hw) fun _ => ?_
  refine evolves_check_bind fun _ => evolves_check_bind fun _ =>
    evolves_check_bind fun _ => evolves_check_bind fun _ =>
    evolves_check_bind fun _ => evolves_check_bind fun _ => ?_
  refine evolves_exec_bind ?_ fun _ => evolves_exec_bind ?_ fun _ =>
    evolves_bind (evolves_record (fun _ _ _ => .redaction _) _ _ _ _) fun _ =>
    evolves_bind (evolves_record (fun _ _ _ => .redaction _) _ _ _ _) fun _ =>
    evolves_bind (evolves_record (fun _ _ _ => .redaction _) _ _ _ _) fun _ =>
    evolves_execIo_bind (fun _ _ => .releaseReservation _) fun _ =>
    evolves_require_bind fun _ => evolves_bind (evolves_pushChange _) fun _ =>
    evolves_pure _
  · rintro seq' rfl
    exact .registry _ rfl rfl
  · rintro seq' rfl
    exact .evidence _ rfl rfl

theorem evolves_upsertBarrier (d : ArtifactDeletion) :
    Keeps (Evolves ArtifactWrites) (upsertBarrier d) := by
  refine evolves_commitSeq_bind fun seq => ?_
  refine evolves_execIo_bind (fun _ _ => .barrier _) fun _ =>
    evolves_execIo_bind (fun _ _ => .clearConsumers _) fun _ =>
    evolves_execIo_bind ?_ fun _ => evolves_pure _
  rintro seq' rfl
  exact .requireConsumers _

theorem evolves_purgeRows (d : ArtifactDeletion) :
    Keeps (Evolves DeletionWrites) (purgeRows d) := by
  rw [purgeRows]
  cases d.kind with
  | delete => exact evolves_pure _
  | purge =>
    exact evolves_commitSeq_bind fun _ => evolves_execIo_bind (fun _ _ => .expire _ _ _)
      fun _ => evolves_execIo_bind (fun _ _ => .tombstone _) fun _ =>
      evolves_execIo_bind (fun _ _ => .unlink _) fun _ => evolves_pure _

theorem evolves_invalidateReferences (seq : Nat) (rows : List EvidenceRow) :
    Keeps (Evolves fun seq' w => seq' = seq → DeletionWrites seq' w)
      (rows.forM fun r => do
        let _ ← execIo (.invalidateTyped .evidence r.objectId seq)
        let _ ← execIo (.invalidateRegistry r.objectId none seq)) := by
  refine evolves_forM (fun r => evolves_execIo_bind ?_ fun _ =>
    evolves_execIo_bind ?_ fun _ => evolves_pure _) _
  · rintro seq' rfl
    exact .evidence _
  · rintro seq' rfl
    exact .registry _

theorem evolves_deleteArtifact (d : ArtifactDeletion) :
    Keeps (Evolves ArtifactWrites) (deleteArtifact d) := by
  refine evolves_commitSeq_bind fun seq => evolves_query_bind fun rows => ?_
  refine evolves_bind ((evolves_invalidateReferences _ _).mono fun _ _ h =>
    h.mono fun _ _ hw hseq => (hw hseq).artifact) fun _ => ?_
  refine evolves_bind ((evolves_upsertBarrier _).mono fun _ _ h => h.mono fun _ _ hw _ => hw)
    fun _ => evolves_bind ((evolves_purgeRows _).mono fun _ _ h => h.mono fun _ _ hw _ =>
      hw.artifact) fun _ => evolves_forM (fun _ => evolves_pushChange _) _

end Evolves

end MagicContext.Kernel
