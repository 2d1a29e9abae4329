import MagicContext.Kernel.Frame

/-!
# Runs of the store

A store goes from one transaction of the writer to the next.  Most are commits.  The others renew
the lease, merge a classification, rebuild the projection, or look after the outbox, the
reservations and the staging tables; one that fails leaves nothing behind, so a run lists only what
succeeds.

## What is here

* `CommitCall`, `Upkeep` and `Action` — the transactions.
* `run` and `Reachable` — sequences of them, from a freshly installed database.
* `commits` — the commits of a run, each with the store before and after it.
-/

namespace MagicContext.Kernel

variable (sys : Platform)

/-- One call of `commit`, with what the database and the clock answer during it. -/
structure CommitCall where
  leaseEpoch : Nat
  intent : CommitIntent
  operation : Operation
  afterEvents : Except KernelError Unit := .ok ()
  answers : List Answer := []

def CommitCall.run (call : CommitCall) (db : Db) : Except KernelError CommitReceipt × Db :=
  commit sys call.leaseEpoch call.intent call.operation call.afterEvents db call.answers

/-! ## Upkeep -/

/-- The writer's transactions that are not commits. -/
inductive Upkeep where
  | stampWriterFence (epoch : Nat)
  /-- An ingest that was a replay still merges its classification. -/
  | mergeReplayedClassification (digest : String) (sensitivity : Sensitivity)
      (egress : ProviderEgress)
  | rebuildAlignment (leaseEpoch : Nat) (answers : List Answer)
  | markOutboxPublishedThrough (outboxPosition : Nat) (publishedAt : Int)
  | acknowledgeOutbox (consumerId : String) (checkpoint : Nat) (updatedAt : Int)
  | pruneOutbox
  /-- Ingest takes reservations; collection expires them and unlinks files. -/
  | reserve (reservations : Table ReservationRow.reservationId)
      (pendingUnlinks : Table UnlinkRow.artifactDigest)
  /-- Extraction and retention write the staging tables. -/
  | stage (runs : Table RunRow.extractionRunId) (candidates : Table CandidateRow.candidateId)

/-- `ON DELETE SET NULL` on the candidate of a decision. -/
def forgetCandidates (candidates : Table CandidateRow.candidateId)
    (admissions : Table fun r : AdmissionRow => (r.commitSeq, r.ordinal)) :
    Table fun r : AdmissionRow => (r.commitSeq, r.ordinal) :=
  admissions.update (fun r => r.candidateId.any fun id => (candidates.get id).isNone)
    (fun r => { r with candidateId := none }) fun _ => rfl

/-- Advances a checkpoint, which must not move back and must name a commit. -/
def acknowledgeOutbox (consumerId : String) (checkpoint : Nat) (updatedAt : Int) (db : Db) : Db :=
  let hit := fun c : ConsumerRow => c.consumerId == consumerId &&
    decide (c.checkpointCommitSeq ≤ checkpoint) &&
    (checkpoint == c.checkpointCommitSeq || db.commitLog.any fun r => r.commitSeq == checkpoint)
  if db.outboxConsumers.any hit then
    let consumers := db.outboxConsumers.update hit
      (fun c => { c with
        checkpointCommitSeq := checkpoint, updatedAt := max c.updatedAt updatedAt })
      (ConsumerRow.consumerId_advanced checkpoint updatedAt)
    let reached := fun bc : BarrierConsumerRow => bc.acknowledgedAt.isNone &&
      (consumers.get bc.consumerId).any fun c =>
        decide (bc.requiredCheckpointCommitSeq ≤ c.checkpointCommitSeq)
    let barrierConsumers := db.barrierConsumers.update reached
      (fun bc => { bc with acknowledgedAt := some updatedAt })
      (BarrierConsumerRow.key_acknowledged updatedAt)
    let db := { db with outboxConsumers := consumers, barrierConsumers := barrierConsumers }
    let barriers := db.barriers.update (fun b => b.completedAt.isNone && barrierSatisfied db b)
      (fun b => { b with completedAt := some updatedAt })
      (BarrierRow.barrierId_completed updatedAt)
    { db with barriers := barriers }
  else db

/-- Deletes what every registered consumer has read; without one there is no safe horizon. -/
def pruneOutbox (db : Db) : Db :=
  match (db.outboxConsumers.rows.map ConsumerRow.checkpointCommitSeq).min? with
  | none => db
  | some horizon =>
    let gone := fun r : OutboxRow => decide (r.commitSeq ≤ horizon)
    { db with
      outbox := db.outbox.delete gone
      redactions := db.redactions.delete fun r => r.ownerKind == "outbox" &&
        db.outbox.any fun o => gone o && toString o.outboxPosition == r.ownerId }

def Upkeep.run (u : Upkeep) (db : Db) : Db :=
  match u with
  | stampWriterFence epoch => { db with writerEpoch := epoch }
  | mergeReplayedClassification digest sensitivity egress =>
    let merged := mergedClassification db digest sensitivity egress
    let evidence := db.evidence.update (fun r => r.artifactDigest == digest && r.live)
      (fun r => { r with sensitivity := merged.1, providerEgress := merged.2 }) fun _ => rfl
    { db with evidence := evidence }
  | rebuildAlignment leaseEpoch answers => repairAlignment sys leaseEpoch db answers
  | markOutboxPublishedThrough position publishedAt =>
    let outbox := db.outbox.update
      (fun r => decide (r.outboxPosition ≤ position) && r.publishedAt.isNone)
      (fun r => { r with publishedAt := some publishedAt }) fun _ => rfl
    { db with outbox := outbox }
  | acknowledgeOutbox consumerId checkpoint updatedAt =>
    Kernel.acknowledgeOutbox consumerId checkpoint updatedAt db
  | pruneOutbox => Kernel.pruneOutbox db
  | reserve reservations pendingUnlinks =>
    { db with reservations := reservations, pendingUnlinks := pendingUnlinks }
  | stage runs candidates =>
    { db with
      runs := runs
      candidates := candidates
      admissions := forgetCandidates candidates db.admissions }

/-! ## Runs -/

inductive Action where
  | commit (call : CommitCall)
  | upkeep (u : Upkeep)

def Action.run (a : Action) (db : Db) : Db :=
  match a with
  | .commit call => (call.run sys db).2
  | .upkeep u => u.run sys db

/-- The store after a sequence of transactions. -/
def run : List Action → Db → Db
  | [], db => db
  | a :: rest, db => run rest (a.run sys db)

/-- The stores the program can get to. -/
def Reachable (db : Db) : Prop := ∃ actions, run sys actions .fresh = db

/-- A commit of a run. -/
structure Committed where
  call : CommitCall
  before : Db

namespace Committed

variable (c : Committed)

def result : Except KernelError CommitReceipt := (c.call.run sys c.before).1

def after : Db := (c.call.run sys c.before).2

end Committed

/-- The commits of a run, in order. -/
def commits : List Action → Db → List Committed
  | [], _ => []
  | .commit call :: rest, db => ⟨call, db⟩ :: commits rest (call.run sys db).2
  | .upkeep u :: rest, db => commits rest (u.run sys db)

/-! ## Induction on runs -/

/-- **A relation that every transaction keeps** holds between the ends of a run. -/
theorem run_rel {R : Db → Db → Prop} (hrefl : ∀ db, R db db)
    (htrans : ∀ db db' db'', R db db' → R db' db'' → R db db'')
    (hstep : ∀ a db, R db (Action.run sys a db)) (actions : List Action) (db : Db) :
    R db (run sys actions db) := by
  induction actions generalizing db with
  | nil => exact hrefl db
  | cons a rest ih => exact htrans _ _ _ (hstep a db) (ih _)

theorem run_append (actions rest : List Action) (db : Db) :
    run sys (actions ++ rest) db = run sys rest (run sys actions db) := by
  induction actions generalizing db with
  | nil => rfl
  | cons a actions ih => exact ih _

/-- An invariant of every transaction holds of every reachable store. -/
theorem Reachable.induction {Inv : Db → Prop} (hfresh : Inv .fresh)
    (hstep : ∀ a db, Inv db → Inv (Action.run sys a db)) {db : Db}
    (h : Reachable sys db) : Inv db := by
  obtain ⟨actions, rfl⟩ := h
  exact run_rel sys (R := fun db db' => Inv db → Inv db') (fun _ h => h)
    (fun _ _ _ h h' => h' ∘ h) hstep actions _ hfresh

/-! ## Concrete inputs -/

namespace Sample

/-- A request digest of the right form. -/
def requestDigest : String := "0000000000000000000000000000000000000000000000000000000000000000"

/-- The intent with a key; its actor and cause are of no account. -/
def intent (operationKey : String) : CommitIntent where
  producer := "test"
  operationKey := operationKey
  requestDigest := requestDigest
  actor := ""
  cause := ""

/-- What is hashed for the identity of an operation. -/
def preimage (operationKey : String) : List UInt8 :=
  utf8 "mc-kernel-operation-v2\x00" ++ RedactedIntent.component "test" ++
    RedactedIntent.component operationKey ++ RedactedIntent.component requestDigest

/-- A platform for texts without secrets, with the digests of the operations under some keys. -/
def plainPlatform (digests : List (String × String)) : Platform where
  redactDurableText value := ⟨value, []⟩
  clean := clean_plain
  sha256 bytes := ((digests.find? fun entry => preimage entry.1 == bytes).map Prod.snd).getD ""

/-- A commit of one call, which ends well whatever the call returned. -/
def call (operationKey : String) (c : Call) : CommitCall where
  leaseEpoch := 1
  intent := intent operationKey
  operation := .call c fun _ => .ret (.ok "done")

def domain : DomainSpec where
  domainId := "d"
  objectId := "domain-object"
  name := "domain"
  sourceKind := "source"
  sourceId := "source"
  sourceRevision := 1
  sensitivity := .normal

def decision (decisionId objectId decisionKind : String) : DecisionSpec where
  decisionId := decisionId
  objectId := objectId
  domainId := "d"
  decisionKind := decisionKind
  payload := ⟨"", ""⟩
  sourceKind := "source"
  sourceId := "source"
  sourceRevision := 1
  sensitivity := .normal

end Sample

end MagicContext.Kernel
