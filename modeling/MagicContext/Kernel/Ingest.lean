import MagicContext.Kernel.Barriers
import MagicContext.Lib.Labels
import MagicContext.Redaction.Windows

/-!
# Ingestion of artifacts

An ingest classifies a payload, stores its bytes under their digest and references them in a commit.
The reference gets the strictest class any reference to the bytes has had, and so do the references
that are live.  A retry of a committed ingest finds the receipt: its class is merged into the live
references outside the commit.

## What is here

* `PreparedArtifact.new` — the checks of a request, the scan of its payload and its class.
* `ingestArtifact` — the reservation, the commit and the merge of a retry.
-/

namespace MagicContext.Kernel

open Redaction (RedactionErrorKind)

variable (sys : Platform)

/-! ## Requests -/

structure RepositoryProvenance where
  repositoryId : String
  revision : String
  deriving DecidableEq

structure ArtifactIngestRequest where
  intent : CommitIntent
  payload : List UInt8
  evidenceId : String
  objectId : String
  objectKind : String
  domainId : String
  sourceKind : String
  sourceId : String
  sourceRevision : Int
  mediaType : String
  retentionClass : String
  retainUntil : Option Int
  assertedSensitivity : Sensitivity
  providerEgress : ProviderEgress
  provenance : Option RepositoryProvenance
  deriving DecidableEq

structure ArtifactHandle where
  digest : String
  evidenceId : String

/-- The kinds of error an ingest returns. -/
inductive ArtifactErrorKind where
  | payloadTooLarge | capacity | storageExhausted | ingestionFailClosed | reAdmissionBlocked
  | missingObject | corruptObject | referenceCommit | reclaimInProgress | unredactableSecret
  | scanIncomplete | detectionLimit | textFieldTooLong | invalidInput | operationKeyReused
  | storageConstraint
  deriving DecidableEq

def maxPayloadBytes : Nat := 64 * 1024 * 1024

def maxPayloadDetections : Nat := 4096

def maxTextFieldBytes : Nat := 1024

namespace ArtifactIngestRequest

variable (request : ArtifactIngestRequest)

def repositoryId : String := (request.provenance.map RepositoryProvenance.repositoryId).getD ""

def revision : String := (request.provenance.map RepositoryProvenance.revision).getD ""

/-- The texts whose length is bounded. -/
def texts : List String :=
  [request.evidenceId, request.objectId, request.objectKind, request.domainId, request.sourceKind,
    request.sourceId, request.mediaType, request.retentionClass, request.intent.producer,
    request.intent.operationKey, request.intent.actor, request.intent.cause, request.repositoryId,
    request.revision]

/-- The texts that must not hold a secret. -/
def identities : List String :=
  [request.evidenceId, request.objectId, request.objectKind, request.domainId, request.sourceKind,
    request.sourceId, request.repositoryId, request.revision]

/-- The texts that must not be blank. -/
def required : List String :=
  [request.evidenceId, request.objectId, request.objectKind, request.domainId, request.sourceKind,
    request.sourceId, request.mediaType, request.retentionClass]

/-- The checks before the payload is scanned. -/
def validate : Except ArtifactErrorKind Unit :=
  if maxPayloadBytes < request.payload.length then .error .payloadTooLarge
  -- `is_artifact_digest`.
  else if !isRequestDigest request.intent.requestDigest then .error .invalidInput
  else if request.texts.any fun field => maxTextFieldBytes < field.utf8ByteSize then
    .error .textFieldTooLong
  else if request.identities.any fun field => (sys.identity field).toOption.isNone then
    .error .invalidInput
  else if request.required.any Text.isBlank || request.sourceRevision < 0 ||
      request.retainUntil.any (· < 0) then .error .invalidInput
  else .ok ()

/-- The provenance names a repository and a revision. -/
def affirmativeProvenance : Bool :=
  request.provenance.any fun p => !Text.isBlank p.repositoryId && !Text.isBlank p.revision

/-- A secret stands in one of the texts that are stored with the payload. -/
def metadataDetected : Bool :=
  [request.mediaType, request.retentionClass].any fun field =>
    !(sys.redactLossy field).detections.isEmpty

end ArtifactIngestRequest

/-! ## The payload -/

/-- The scanner of payloads. -/
structure PayloadScanner where
  /-- The text with its secrets replaced, and where they stood. -/
  redactPayload : Utf8.Str → Nat → Except RedactionErrorKind (List UInt8 × List Detection)
  payloadHasSecret : List UInt8 → Except RedactionErrorKind Bool

variable (scanner : PayloadScanner)

/-- A payload is refused when its scan cannot vouch for it. -/
def scanFailure : RedactionErrorKind → ArtifactErrorKind
  | .detectionLimit => .detectionLimit
  | .matchLimit => .unredactableSecret
  | .construction | .inputLimit | .candidateLimit | .workLimit | .invalidSpan | .unknownRule
  | .secretDetected => .scanIncomplete

/-- A payload as it is stored. -/
structure Scanned where
  bytes : List UInt8
  detections : List Detection
  /-- The payload is text, and its secrets were replaced. -/
  inspected : Bool

def scanPayload (payload : List UInt8) : Except ArtifactErrorKind Scanned :=
  match Utf8.fromUtf8 payload with
  | some text =>
    match scanner.redactPayload text maxPayloadDetections with
    | .ok (bytes, detections) => .ok ⟨bytes, detections, true⟩
    | .error e => .error (scanFailure e)
  | none =>
    match scanner.payloadHasSecret payload with
    | .ok false => .ok ⟨payload, [], false⟩
    | .ok true => .error .unredactableSecret
    | .error e => .error (scanFailure e)

/-- The class of a payload: what was asserted, unless it must be stricter. -/
def ArtifactIngestRequest.sensitivity (request : ArtifactIngestRequest) (scanned : Scanned) :
    Sensitivity :=
  if !scanned.detections.isEmpty || request.metadataDetected sys then .secret
  else if !scanned.inspected then request.assertedSensitivity.restrictive .sensitive
  else if request.assertedSensitivity = .normal ∧ request.affirmativeProvenance = false then
    .sensitive
  else request.assertedSensitivity

/-- The place of the bytes with a digest. -/
def objectPath (digest : String) : String :=
  s!"objects/{String.ofList (digest.toList.take 2)}/{String.ofList (digest.toList.drop 2)}"

/-- `PreparedArtifact::new`, with the name of the reservation that ingest takes for it. -/
def PreparedArtifact.new (request : ArtifactIngestRequest) (unique : String) :
    Except ArtifactErrorKind PreparedArtifact := do
  request.validate sys
  let scanned ← scanPayload scanner request.payload
  let digest := sys.sha256 scanned.bytes
  -- A placeholder can be longer than the secret it replaces.
  if maxPayloadBytes < scanned.bytes.length then .error .payloadTooLarge
  else return {
    reservationId := s!"{digest}-{unique}"
    digest := digest
    artifactReference := objectPath digest
    byteLength := scanned.bytes.length
    payloadDetections := scanned.detections
    sensitivity := request.sensitivity sys scanned
    providerEgress := request.providerEgress
    evidenceId := request.evidenceId
    objectId := request.objectId
    objectKind := request.objectKind
    domainId := request.domainId
    sourceKind := request.sourceKind
    sourceId := request.sourceId
    sourceRevision := request.sourceRevision
    mediaType := request.mediaType
    retentionClass := request.retentionClass
    retainUntil := request.retainUntil }

/-! ## The reservation -/

/-- What files, clock and database answer during an ingest. -/
structure IngestAnswers where
  /-- The store has latched ingestion closed. -/
  closed : Bool := false
  /-- The temporary file and the room for it. -/
  staged : Except ArtifactErrorKind Unit := .ok ()
  unique : String := ""
  leaseExpiresAt : Int := 0
  /-- The transaction of the reservation goes through. -/
  reserved : Bool := true
  /-- The bytes at their place. -/
  published : Except ArtifactErrorKind Unit := .ok ()
  commit : List Answer := []
  /-- The digest that a receipt is about can be read. -/
  read : Bool := true
  /-- The transaction that merges the class of a retry goes through. -/
  merged : Bool := true
  /-- The reservation can be taken back. -/
  released : Bool := true

/-- `artifact_is_reclaiming`. -/
def artifactIsReclaiming (digest : String) (db : Db) : Bool :=
  db.reservations.any fun r => r.artifactDigest == digest && r.state == "Reclaiming"

/-- `artifact_is_blocked`. -/
def artifactIsBlocked (digest : String) (db : Db) : Bool :=
  (db.tombstones.any fun r => r.artifactDigest == digest) ||
    db.pendingUnlinks.any fun r => r.artifactDigest == digest

variable (leaseEpoch : Nat)

/-- Reserves the digest, under a trigger that keeps purged artifacts out. -/
def reserve (a : PreparedArtifact) (answers : IngestAnswers) (db : Db) :
    Except ArtifactErrorKind Db :=
  if !answers.reserved || !fenceHolds leaseEpoch db then .error .referenceCommit
  else if artifactIsReclaiming a.digest db then .error .reclaimInProgress
  else if artifactIsBlocked a.digest db then .error .reAdmissionBlocked
  else if db.tombstones.any fun t => t.artifactDigest == a.digest ||
      t.artifactReference == a.artifactReference then .error .referenceCommit
  else match db.reservations.insert ⟨a.reservationId, a.digest, a.artifactReference, "Live",
      answers.leaseExpiresAt⟩ with
    | none => .error .referenceCommit
    | some reservations => .ok { db with reservations := reservations }

/-- Takes a reservation back, if that is possible. -/
def releaseReservation (a : PreparedArtifact) (answers : IngestAnswers) (db : Db) : Db :=
  if answers.released && fenceHolds leaseEpoch db then
    { db with reservations := db.reservations.delete fun r => r.reservationId == a.reservationId }
  else db

/-! ## The ingest -/

/-- The evidence that the commit of an ingest is about. -/
def evidenceOf : Reply → String
  | .evidence evidenceId => evidenceId
  | _ => ""

/-- The commit of an ingest. -/
def ingestCommit (request : ArtifactIngestRequest) (a : PreparedArtifact)
    (answers : IngestAnswers) : CommitCall where
  leaseEpoch := leaseEpoch
  intent := request.intent
  operation := bodyOperation (.insertReference a) evidenceOf
  answers := answers.commit

/-- `committed_digest`. -/
def committedDigest (evidenceId : String) (db : Db) : Option String :=
  (db.evidence.get evidenceId).map EvidenceRow.artifactDigest

/-- `merge_replayed_classification`. -/
def mergeReplayedClassification (leaseEpoch : Nat) (a : PreparedArtifact) (answers : IngestAnswers)
    (db : Db) : Except ArtifactErrorKind Db :=
  if answers.merged && fenceHolds leaseEpoch db then
    .ok ((Upkeep.mergeReplayedClassification a.digest a.sensitivity a.providerEgress).run sys db)
  else .error .referenceCommit

/-- Why the operation refuses a reference. -/
def refusal (a : PreparedArtifact) (db : Db) : Option ArtifactErrorKind :=
  if artifactIsBlocked a.digest db then some .reAdmissionBlocked
  else if !((db.reservations.get a.reservationId).any fun r =>
      r.artifactDigest == a.digest && r.state == "Live") then some .referenceCommit
  else if artifactIsReclaiming a.digest db then some .reclaimInProgress
  else none

/-- The error of an ingest whose commit failed.  The receipt is looked up before the operation, so
a conflict without it is a reused key. -/
def commitFailure (entered : Bool) (a : PreparedArtifact) (db : Db) :
    KernelError → ArtifactErrorKind
  | .invalidInput => .invalidInput
  | .conflict => if entered then (refusal a db).getD .storageConstraint else .operationKeyReused
  | _ => .referenceCommit

/-- A retry of a committed ingest. -/
def finishReplay (a : PreparedArtifact) (answers : IngestAnswers)
    (evidenceId : String) (db : Db) : Except ArtifactErrorKind ArtifactHandle × Db :=
  if !answers.read then (.error .referenceCommit, releaseReservation leaseEpoch a answers db)
  else if committedDigest evidenceId db = some a.digest then
    match mergeReplayedClassification sys leaseEpoch a answers db with
    | .ok merged => (.ok ⟨a.digest, evidenceId⟩, releaseReservation leaseEpoch a answers merged)
    | .error e => (.error e, releaseReservation leaseEpoch a answers db)
  else (.error .invalidInput, releaseReservation leaseEpoch a answers db)

/-- The reference to bytes that are reserved and stored. -/
def commitReference (request : ArtifactIngestRequest) (a : PreparedArtifact)
    (answers : IngestAnswers) (db : Db) : Except ArtifactErrorKind ArtifactHandle × Db :=
  let call := ingestCommit leaseEpoch request a answers
  match call.run sys db with
  | (.ok receipt, db') =>
    if receipt.replayed then finishReplay sys leaseEpoch a answers receipt.result db'
    else (.ok ⟨a.digest, (sys.redactLossy request.evidenceId).text⟩, db')
  | (.error e, db') =>
    (.error (commitFailure (call.opened sys db).isSome a db e),
      releaseReservation leaseEpoch a answers db')

/-- `ingest_artifact_inner`, which holds the writer from the reservation on. -/
def ingestArtifact (request : ArtifactIngestRequest) (answers : IngestAnswers)
    (db : Db) : Except ArtifactErrorKind ArtifactHandle × Db :=
  if answers.closed then (.error .ingestionFailClosed, db)
  else match PreparedArtifact.new sys scanner request answers.unique with
    | .error e => (.error e, db)
    | .ok a =>
      match answers.staged with
      | .error e => (.error e, db)
      | .ok () =>
        match reserve leaseEpoch a answers db with
        | .error e => (.error e, db)
        | .ok reserved =>
          match answers.published with
          | .error e => (.error e, releaseReservation leaseEpoch a answers reserved)
          | .ok () => commitReference sys leaseEpoch request a answers reserved

end MagicContext.Kernel
