import MagicContext.Kernel.Commit
import MagicContext.Lib.Checks

/-!
# What a statement leaves alone

A statement changes one table.  Which one is read off the statement, so that what a method cannot
touch follows from the list of statements it executes.

## What is here

* `TableName` and `Write.target` — the table of a statement.
* `Db.ChangesOnly` — two databases that agree but for one table.
* `Attempts.agree` — a method leaves alone whatever none of its statements targets.
-/

namespace MagicContext.Kernel

/-- The tables of a database.  A sequence belongs to the table it numbers. -/
inductive TableName where
  | commitLog | changeEvent | outbox | operationReceipts | redactions | alignmentProjection
  | alignmentProjectionState | outboxConsumers | barriers | barrierConsumers | abandonments
  | reservations | tombstones | pendingUnlinks | registry | domains | scopes | scopeTerms | evidence
  | admissions | decisions | decisionEvents | observations | dependencies
  deriving DecidableEq

def TypedTable.name : TypedTable → TableName
  | .domains => .domains
  | .decisions => .decisions
  | .observations => .observations
  | .evidence => .evidence

/-- The table a statement changes. -/
def Write.target : Write → TableName
  | .insertCommit _ => .commitLog
  | .insertChangeEvent _ => .changeEvent
  | .insertOutbox _ => .outbox
  | .insertReceipt _ => .operationReceipts
  | .clearProjection | .insertProjection _ => .alignmentProjection
  | .recordProjectionGeneration _ => .alignmentProjectionState
  | .clearRedactions _ | .insertRedaction _ => .redactions
  | .insertRegistry _ | .invalidateRegistry .. | .succeedRegistry .. => .registry
  | .invalidateTyped table _ _ | .succeedTyped table _ _ => table.name
  | .insertDomain _ | .redactDomainName _ _ => .domains
  | .insertScope _ => .scopes
  | .insertScopeTerm _ => .scopeTerms
  | .insertEvidence _ | .classifyEvidence .. => .evidence
  | .insertDecision _ => .decisions
  | .insertDecisionEvent _ => .decisionEvents
  | .insertObservation _ => .observations
  | .insertDependency _ => .dependencies
  | .insertAdmission _ => .admissions
  | .insertConsumer _ | .deleteConsumer _ => .outboxConsumers
  | .insertAbandonment _ | .abandonBarriers _ => .abandonments
  | .acknowledgeBarriers _ | .deleteBarrierConsumers _ | .requireConsumers _ _ => .barrierConsumers
  | .completeBarriers _ | .closeBarrier _ _ | .upsertBarrier _ => .barriers
  | .deleteReservation _ | .deleteExpiredReservations .. => .reservations
  | .insertTombstone _ => .tombstones
  | .insertPendingUnlink _ => .pendingUnlinks

/-- The second database is the first with another content in one table. -/
inductive Db.ChangesOnly (db : Db) : TableName → Db → Prop where
  | commitLog (t) (seq) :
      ChangesOnly db .commitLog { db with commitLog := t, commitSequence := seq }
  | changeEvent (t) : ChangesOnly db .changeEvent { db with changeEvent := t }
  | outbox (t) (seq) : ChangesOnly db .outbox { db with outbox := t, outboxSequence := seq }
  | operationReceipts (t) : ChangesOnly db .operationReceipts { db with operationReceipts := t }
  | redactions (t) : ChangesOnly db .redactions { db with redactions := t }
  | alignmentProjection (t) :
      ChangesOnly db .alignmentProjection { db with alignmentProjection := t }
  | alignmentProjectionState (g) :
      ChangesOnly db .alignmentProjectionState { db with alignmentProjectionState := g }
  | outboxConsumers (t) : ChangesOnly db .outboxConsumers { db with outboxConsumers := t }
  | barriers (t) : ChangesOnly db .barriers { db with barriers := t }
  | barrierConsumers (t) : ChangesOnly db .barrierConsumers { db with barrierConsumers := t }
  | abandonments (t) : ChangesOnly db .abandonments { db with abandonments := t }
  | reservations (t) : ChangesOnly db .reservations { db with reservations := t }
  | tombstones (t) : ChangesOnly db .tombstones { db with tombstones := t }
  | pendingUnlinks (t) : ChangesOnly db .pendingUnlinks { db with pendingUnlinks := t }
  | registry (t) : ChangesOnly db .registry { db with registry := t }
  | domains (t) : ChangesOnly db .domains { db with domains := t }
  | scopes (t) : ChangesOnly db .scopes { db with scopes := t }
  | scopeTerms (t) : ChangesOnly db .scopeTerms { db with scopeTerms := t }
  | evidence (t) : ChangesOnly db .evidence { db with evidence := t }
  | admissions (t) : ChangesOnly db .admissions { db with admissions := t }
  | decisions (t) : ChangesOnly db .decisions { db with decisions := t }
  | decisionEvents (t) : ChangesOnly db .decisionEvents { db with decisionEvents := t }
  | observations (t) : ChangesOnly db .observations { db with observations := t }
  | dependencies (t) : ChangesOnly db .dependencies { db with dependencies := t }

/-- **A statement changes only its table.** -/
theorem Write.apply_changesOnly {w : Write} {db db' : Db} {rows : Nat}
    (h : w.apply db = .ok (db', rows)) : db.ChangesOnly w.target db' := by
  cases w with
  | invalidateTyped table objectId seq =>
    cases table with
    | domains | decisions | observations | evidence =>
      obtain ⟨⟨t, n⟩, -, h⟩ := Checks.bind_eq_ok.mp h
      cases h
      constructor
  | succeedTyped table objectId successor =>
    cases table with
    | domains =>
      obtain ⟨⟨t, n⟩, -, h⟩ := Checks.bind_eq_ok.mp h
      cases h
      constructor
    | decisions | observations | evidence =>
      cases h
      constructor
  | invalidateRegistry | succeedRegistry =>
    obtain ⟨⟨t, n⟩, -, h⟩ := Checks.bind_eq_ok.mp h
    cases h
    constructor
  | insertAdmission row =>
    rw [Write.apply] at h
    split at h
    · obtain ⟨t, -, h⟩ := Checks.bind_eq_ok.mp h
      cases h
      constructor
    · cases h
  | upsertBarrier row =>
    rw [Write.apply] at h
    split at h
    · cases h
    · dsimp only at h
      split at h
      · split at h
        · cases h
        · cases h
          constructor
      · obtain ⟨t, -, h⟩ := Checks.bind_eq_ok.mp h
        cases h
        constructor
  | clearProjection | recordProjectionGeneration | clearRedactions | redactDomainName
  | classifyEvidence | deleteConsumer | acknowledgeBarriers | completeBarriers | closeBarrier
  | deleteBarrierConsumers | deleteReservation | deleteExpiredReservations =>
    cases h
    constructor
  | insertCommit | insertChangeEvent | insertOutbox | insertReceipt | insertProjection
  | insertRegistry | insertDomain | insertScope | insertScopeTerm | insertEvidence | insertDecision
  | insertDecisionEvent | insertObservation | insertDependency | insertRedaction | insertConsumer
  | insertAbandonment | abandonBarriers | requireConsumers | insertTombstone
  | insertPendingUnlink =>
    obtain ⟨t, -, h⟩ := Checks.bind_eq_ok.mp h
    cases h
    constructor

/-- Whatever part of the database no change to an allowed table alters stays. -/
theorem Attempts.agree {P : Nat → Write → Prop} {s s' : Session} (h : Attempts P s s') {γ : Type}
    (f : Db → γ) (hf : ∀ w db db', P s.envelope.commitSeq w → db.ChangesOnly w.target db' →
      f db' = f db) : f s'.envelope.tx = f s.envelope.tx :=
  h.frame f fun w tx tx' _ hw happly => hf w tx tx' hw (Write.apply_changesOnly happly)

end MagicContext.Kernel
