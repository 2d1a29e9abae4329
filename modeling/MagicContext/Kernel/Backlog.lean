import Mathlib.Data.List.MinMax
import MagicContext.Kernel.Consumers

/-!
# The backlog of a consumer

Pruning removes an initial part of the outbox, up to the lowest checkpoint.  So a consumer finds in
the outbox every change event above its checkpoint, provided that it starts low enough: before the
oldest row that is left, or, when none is left, at the last commit before its own.

## What is here

* `Db.Queues` — the outbox has a row for a change event.
* `Delivering` — the invariant: what a consumer has not read is queued, and so is everything from
  the oldest row on.
* `outbox_loses_nothing` — what holds of the consumers in every run.
-/

namespace MagicContext.Kernel

open Transaction Table

variable {sys : Platform}

/-! ## The invariant -/

/-- The outbox has a row for the change event. -/
def Db.Queues (db : Db) (e : ChangeEventRow) : Prop :=
  ∃ o ∈ db.outbox, o.commitSeq = e.commitSeq ∧ o.ordinal = e.ordinal ∧ o.objectId = e.objectId ∧
    o.payload = e.payload

structure Delivering (db : Db) : Prop where
  /-- What a consumer has not read is queued. -/
  kept : ∀ c ∈ db.outboxConsumers, ∀ e ∈ db.changeEvent,
    c.checkpointCommitSeq < e.commitSeq → db.Queues e
  /-- What was pruned is an initial part. -/
  suffix : ∀ o ∈ db.outbox, ∀ e ∈ db.changeEvent, o.commitSeq ≤ e.commitSeq → db.Queues e
  logged : ∀ e ∈ db.changeEvent, ∃ r ∈ db.commitLog, r.commitSeq = e.commitSeq
  numbered : ∀ r ∈ db.commitLog, r.commitSeq ≤ db.commitSequence

theorem delivering_fresh : Delivering .fresh where
  kept _ hc := absurd hc List.not_mem_nil
  suffix _ ho := absurd ho List.not_mem_nil
  logged _ he := absurd he List.not_mem_nil
  numbered _ hr := absurd hr List.not_mem_nil

/-- The tables the invariant is about. -/
def TableName.backlog : TableName → Bool
  | .commitLog | .changeEvent | .outbox | .outboxConsumers => true
  | _ => false

/-- Their contents. -/
structure Backlog where
  commitLog : List CommitRow
  commitSequence : Nat
  changeEvent : List ChangeEventRow
  outbox : List OutboxRow
  consumers : List ConsumerRow

def Db.backlog (db : Db) : Backlog where
  commitLog := db.commitLog.rows
  commitSequence := db.commitSequence
  changeEvent := db.changeEvent.rows
  outbox := db.outbox.rows
  consumers := db.outboxConsumers.rows

variable {db : Db}

theorem backlog_eq {db' : Db} {t : TableName} (h : db.ChangesOnly t db')
    (ht : t.backlog = false) : db'.backlog = db.backlog := by
  cases h with
  | commitLog | changeEvent | outbox | outboxConsumers => cases ht
  | _ => rfl

/-- With fewer consumers, or higher checkpoints, there is less to keep. -/
theorem Delivering.of_consumers {db' : Db} (h : Delivering db)
    (heq : { db'.backlog with consumers := [] } = { db.backlog with consumers := [] })
    (hconsumers : ∀ c' ∈ db'.outboxConsumers, ∃ c ∈ db.outboxConsumers,
      c.checkpointCommitSeq ≤ c'.checkpointCommitSeq) : Delivering db' := by
  have hlog : db'.commitLog.rows = db.commitLog.rows := congrArg Backlog.commitLog heq
  have hseq : db'.commitSequence = db.commitSequence := congrArg Backlog.commitSequence heq
  have hevents : db'.changeEvent.rows = db.changeEvent.rows := congrArg Backlog.changeEvent heq
  have houtbox : db'.outbox.rows = db.outbox.rows := congrArg Backlog.outbox heq
  obtain ⟨hkept, hsuffix, hlogged, hnumbered⟩ := h
  constructor <;> simp only [Db.Queues, mem_rows, hlog, hseq, hevents, houtbox]
  · intro c' hc' e he hlt
    obtain ⟨c, hc, hle⟩ := hconsumers c' hc'
    exact hkept c hc e he (hle.trans_lt hlt)
  · exact hsuffix
  · exact hlogged
  · exact hnumbered

theorem Delivering.of_backlog {db' : Db} (h : Delivering db) (heq : db'.backlog = db.backlog) :
    Delivering db' := by
  refine h.of_consumers (by rw [heq]) fun c' hc' => ⟨c', ?_, le_rfl⟩
  have hconsumers : db'.outboxConsumers.rows = db.outboxConsumers.rows :=
    congrArg Backlog.consumers heq
  rwa [mem_rows, hconsumers, ← mem_rows] at hc'

/-! ## Calls -/

theorem SliceWrites.not_backlog {seq : Nat} {w : Write} (h : SliceWrites seq w) :
    w.target.backlog = false := by
  cases h with
  | invalidateTyped table | succeedTyped table => cases table <;> rfl
  | admission w hw => cases hw <;> rfl
  | _ => rfl

/-- Only the methods on consumers reach these tables. -/
theorem Call.not_backlog {c : Call} (hc : c.controls = false) {seq : Nat} {w : Write}
    (h : c.writes seq w) : w.target.backlog = false := by
  cases Call.writes_operation h with
  | governance hw =>
    cases hw with
    | domain hw => cases hw <;> rfl
    | slice hw => exact hw.not_backlog
  | artifact hw => cases hw <;> rfl
  | control hw =>
    cases c with
    | registerOutboxConsumer | deregisterOutboxConsumer | abandonOutboxConsumer
    | abandonDeletionBarrier => cases hc
    | insertDomain | correctDomain | retireDomain | remediateText => cases h <;> rfl
    | insertReference | deleteArtifact => cases h <;> rfl
    | recordAdmission | admitDomainCandidate | supersedeDomain =>
      cases h with
      | domain hw => cases hw <;> rfl
      | slice hw => exact hw.not_backlog
    | insertScope | insertDecision | insertObservation | appendDecisionEvent | correctDecision
    | correctObservation | retireDecision | retireObservation | supersedeDecision
    | revokeApproval => exact SliceWrites.not_backlog h

theorem backlog_of_call {c : Call} (hc : c.controls = false) (s : Session) :
    (final (c.run sys) s).envelope.tx.backlog = s.envelope.tx.backlog :=
  (attempts_call c s).agree Db.backlog fun _ _ _ hw hdb => backlog_eq hdb (Call.not_backlog hc hw)

/-- The invariant inside a commit, whose own events are yet to come. -/
structure Reading (s : Session) : Prop extends Delivering s.envelope.tx where
  before : ∀ e ∈ s.envelope.tx.changeEvent, e.commitSeq < s.envelope.commitSeq
  own : ∃ r ∈ s.envelope.tx.commitLog, r.commitSeq = s.envelope.commitSeq

/-- Every commit before the envelope's is at most the tip before it. -/
theorem le_preOperationTip {env : Envelope} {r : CommitRow} (hr : r ∈ env.tx.commitLog)
    (hlt : r.commitSeq < env.commitSeq) : r.commitSeq ≤ preOperationTip env :=
  List.le_max_of_le' 0 (List.mem_map_of_mem (mem_select.mpr ⟨hr, decide_eq_true hlt⟩)) le_rfl

/-- A new consumer starts low enough. -/
theorem queues_of_firstCheckpoint {s : Session} (h : Reading s) {e : ChangeEventRow}
    (he : e ∈ s.envelope.tx.changeEvent) (hlt : firstCheckpoint s.envelope < e.commitSeq) :
    s.envelope.tx.Queues e := by
  rw [firstCheckpoint] at hlt
  split at hlt
  · rename_i oldest hmin
    obtain ⟨o, ho, rfl⟩ := List.mem_map.mp (List.min?_mem hmin)
    exact h.suffix o ho e he (Nat.le_of_pred_lt hlt)
  · obtain ⟨r, hr, hseq⟩ := h.logged e he
    have hle := le_preOperationTip hr (hseq ▸ h.before e he)
    exact absurd (hseq ▸ hle) (Nat.not_le.mpr hlt)

theorem Reading.register {s s' : Session} {reply : Reply} {id : String} {time : Int}
    (h : Reading s) (hseq : s'.envelope.commitSeq = s.envelope.commitSeq)
    (hrun : (Call.registerOutboxConsumer id time).run sys s = .ok reply s') : Reading s' := by
  obtain ⟨t, hinsert, htx⟩ := register_eq_ok hrun
  have hqueues := fun e => @queues_of_firstCheckpoint _ h e
  obtain ⟨⟨hkept, hsuffix, hlogged, hnumbered⟩, hbefore, hown⟩ := h
  constructor <;> rw [htx]
  · refine ⟨fun c hc e he hlt => ?_, hsuffix, hlogged, hnumbered⟩
    rcases (mem_insert hinsert).mp hc with hc | rfl
    · exact hkept c hc e he hlt
    · exact hqueues e he hlt
  · rwa [hseq]
  · rwa [hseq]

/-- A call that only takes consumers away. -/
theorem Reading.of_fewer {s s' : Session} (h : Reading s)
    (hseq : s'.envelope.commitSeq = s.envelope.commitSeq)
    (heq : { s'.envelope.tx.backlog with consumers := [] } =
      { s.envelope.tx.backlog with consumers := [] })
    (hconsumers : ∀ c ∈ s'.envelope.tx.outboxConsumers, c ∈ s.envelope.tx.outboxConsumers) :
    Reading s' := by
  have hlog : s'.envelope.tx.commitLog.rows = s.envelope.tx.commitLog.rows :=
    congrArg Backlog.commitLog heq
  have hevents : s'.envelope.tx.changeEvent.rows = s.envelope.tx.changeEvent.rows :=
    congrArg Backlog.changeEvent heq
  refine ⟨h.toDelivering.of_consumers heq fun c hc => ⟨c, hconsumers c hc, le_rfl⟩, ?_, ?_⟩
  · simp only [mem_rows, hevents, hseq]
    exact h.before
  · simp only [mem_rows, hlog, hseq]
    exact h.own

/-- **A call of a commit that succeeds** keeps the invariant. -/
theorem Reading.call {k : Called} (h : Reading k.before)
    (hok : k.call.poisons = true → k.failed sys = false) :
    Reading (final (k.call.run sys) k.before) := by
  obtain ⟨c, s⟩ := k
  have hseq := (@attempts_call sys c s).commitSeq
  by_cases hc : c.controls = true
  · obtain ⟨reply, hrun⟩ := Called.run_eq_ok (hok (Call.poisons_of_controls hc))
    cases c with
    | registerOutboxConsumer => exact h.register hseq hrun
    | deregisterOutboxConsumer id time =>
      obtain ⟨_, -, -, htx⟩ := deregister_eq_ok hrun
      refine h.of_fewer hseq (by rw [htx]; rfl) ?_
      rw [htx]
      exact fun c hc => (mem_delete.mp hc).1
    | abandonOutboxConsumer id a unique =>
      obtain ⟨_, _, _, -, -, -, -, htx⟩ := abandon_eq_ok hrun
      refine h.of_fewer hseq (by rw [htx]; rfl) ?_
      rw [htx]
      exact fun c hc => (mem_delete.mp hc).1
    | abandonDeletionBarrier =>
      obtain ⟨-, htx⟩ := abandonBarrier_eq_ok hrun
      refine h.of_fewer hseq (by rw [htx]; rfl) ?_
      rw [htx]
      exact fun c hc => hc
    | _ => cases hc
  · have hbacklog := @backlog_of_call sys _ (Bool.not_eq_true _ ▸ hc) s
    refine h.of_fewer hseq (by rw [hbacklog]) fun c hc => ?_
    have hrows := congrArg Backlog.consumers hbacklog
    exact (hrows ▸ hc : c ∈ s.envelope.tx.backlog.consumers)

/-! ## The end of a commit -/

theorem mem_eventsFrom {transactionId : String} {commitSeq ordinal : Nat}
    {changes : List PendingChange} {e : ChangeEventRow} :
    e ∈ eventsFrom transactionId commitSeq ordinal changes ↔
      ∃ change i, (change, i) ∈ changes.zipIdx ordinal ∧
        change.event transactionId commitSeq i = e := by
  rw [eventsFrom, List.mem_map]
  exact Prod.exists

theorem mem_outboxFrom {recordedAt : Int} {commitSeq base ordinal : Nat}
    {changes : List PendingChange} {o : OutboxRow} :
    o ∈ outboxFrom recordedAt commitSeq base ordinal changes ↔
      ∃ change i, (change, i) ∈ changes.zipIdx ordinal ∧
        change.outboxRow recordedAt commitSeq i (base + i + 1) = o := by
  rw [outboxFrom, List.mem_map]
  exact Prod.exists

/-- **The end of a commit** queues every event it publishes. -/
theorem Delivering.publish {intent : RedactedIntent} {transactionId : String} {recordedAt : Int}
    {afterEvents : Except KernelError Unit} {result : String} {s s' : Session}
    {receipt : CommitReceipt} (h : Reading s)
    (hpublish : publish sys intent transactionId recordedAt afterEvents result s =
      .ok receipt s') : Delivering s'.envelope.tx := by
  obtain ⟨-, -, hpub⟩ := publish_eq_ok hpublish
  have hevents : s'.envelope.tx.changeEvent.rows = s.envelope.tx.changeEvent.rows ++
      eventsFrom transactionId s.envelope.commitSeq 0 s.envelope.changes :=
    congrArg Published.changeEvent hpub
  have houtbox : s'.envelope.tx.outbox.rows = s.envelope.tx.outbox.rows ++
      outboxFrom recordedAt s.envelope.commitSeq s.envelope.tx.outboxSequence 0
        s.envelope.changes :=
    congrArg Published.outbox hpub
  have hlog : s'.envelope.tx.commitLog.rows = s.envelope.tx.commitLog.rows :=
    publish_frame (fun db => db.commitLog.rows) (fun _ _ _ hdb ht => by cases hdb <;> trivial)
      hpublish
  have hseq : s'.envelope.tx.commitSequence = s.envelope.tx.commitSequence :=
    publish_frame Db.commitSequence (fun _ _ _ hdb ht => by cases hdb <;> trivial) hpublish
  have hconsumers : s'.envelope.tx.outboxConsumers = s.envelope.tx.outboxConsumers :=
    publish_frame Db.outboxConsumers (fun _ _ _ hdb ht => by cases hdb <;> trivial) hpublish
  have hold : ∀ e, s.envelope.tx.Queues e → s'.envelope.tx.Queues e := by
    rintro e ⟨o, ho, hmatches⟩
    exact ⟨o, by rw [mem_rows, houtbox]; exact List.mem_append_left _ ho, hmatches⟩
  have hnew : ∀ e ∈ eventsFrom transactionId s.envelope.commitSeq 0 s.envelope.changes,
      s'.envelope.tx.Queues e := by
    intro e he
    obtain ⟨change, i, hmem, rfl⟩ := mem_eventsFrom.mp he
    refine ⟨change.outboxRow recordedAt s.envelope.commitSeq i
      (s.envelope.tx.outboxSequence + i + 1), ?_, rfl, rfl, rfl, rfl⟩
    rw [mem_rows, houtbox]
    exact List.mem_append_right _ (mem_outboxFrom.mpr ⟨change, i, hmem, rfl⟩)
  have hsplit : ∀ e ∈ s'.envelope.tx.changeEvent, e ∈ s.envelope.tx.changeEvent ∨
      e ∈ eventsFrom transactionId s.envelope.commitSeq 0 s.envelope.changes := by
    intro e he
    rwa [mem_rows, hevents, List.mem_append] at he
  constructor
  · intro c hc e he hlt
    rw [hconsumers] at hc
    rcases hsplit e he with he | he
    · exact hold e (h.kept c hc e he hlt)
    · exact hnew e he
  · intro o ho e he hle
    rcases hsplit e he with he | he
    · rw [mem_rows, houtbox, List.mem_append] at ho
      rcases ho with ho | ho
      · exact hold e (h.suffix o ho e he hle)
      · obtain ⟨change, i, -, rfl⟩ := mem_outboxFrom.mp ho
        exact absurd (h.before e he) (Nat.not_lt.mpr hle)
    · exact hnew e he
  · intro e he
    simp only [mem_rows, hlog]
    rcases hsplit e he with he | he
    · exact h.logged e he
    · obtain ⟨-, -, -, rfl⟩ := mem_eventsFrom.mp he
      exact h.own
  · simp only [mem_rows, hlog, hseq]
    exact h.numbered

/-- The invariant holds when the operation starts. -/
theorem Delivering.opened {call : CommitCall} {intent : RedactedIntent} {recordedAt : Int}
    {s : Session} (h : Delivering db)
    (hopened : call.opened sys db = some (intent, recordedAt, s)) : Reading s := by
  have hopens := (opened_eq_some hopened).1
  have hseq := commitSeq_of_opened hopened
  obtain ⟨row, hrow, hlog⟩ := hopens.commitLog
  have hevents : s.envelope.tx.changeEvent = db.changeEvent :=
    hopens.frame Db.changeEvent fun _ _ _ => rfl
  have houtbox : s.envelope.tx.outbox = db.outbox := hopens.frame Db.outbox fun _ _ _ => rfl
  have hconsumers : s.envelope.tx.outboxConsumers = db.outboxConsumers :=
    hopens.frame Db.outboxConsumers fun _ _ _ => rfl
  have hlogged : ∀ e ∈ s.envelope.tx.changeEvent, ∃ r ∈ db.commitLog, r.commitSeq = e.commitSeq :=
    fun e he => h.logged e (hevents ▸ he)
  refine ⟨⟨?_, ?_, fun e he => ?_, fun r hr => ?_⟩, fun e he => ?_, row, ?_, hrow.trans hseq.symm⟩
  · simp only [Db.Queues, hevents, houtbox, hconsumers]
    exact h.kept
  · simp only [Db.Queues, hevents, houtbox]
    exact h.suffix
  · obtain ⟨r, hr, heq⟩ := hlogged e he
    exact ⟨r, by rw [mem_rows, hlog]; exact List.mem_append_left _ hr, heq⟩
  · rw [hopens.commitSequence]
    rw [mem_rows, hlog, List.mem_append, List.mem_singleton] at hr
    rcases hr with hr | rfl
    · exact (h.numbered r hr).trans (Nat.le_succ _)
    · exact hrow.le
  · obtain ⟨r, hr, heq⟩ := hlogged e he
    rw [hseq, ← heq]
    exact Nat.lt_succ_of_le (h.numbered r hr)
  · rw [mem_rows, hlog]
    exact List.mem_append_right _ (List.mem_singleton_self _)

theorem SameButProjection.backlog {db' : Db} (h : SameButProjection db db') :
    db'.backlog = db.backlog := by
  have hsame : db'.withoutProjection = db.withoutProjection := h
  exact (congrArg Db.backlog hsame :)

/-- **Every commit** keeps the invariant. -/
theorem Delivering.commit (h : Delivering db) (call : CommitCall) :
    Delivering (call.run sys db).2 := by
  have hphases := commit_phases sys call db
  generalize (call.run sys db).1 = result at hphases
  generalize (call.run sys db).2 = after at hphases ⊢
  cases hphases with
  | failed => exact h
  | replayed _ _ _ hafter => exact h.of_backlog hafter.backlog
  | applied intent recordedAt s s₁ s₂ result receipt _ hopened hrun hpublish =>
    refine Delivering.publish ?_ hpublish
    have hcalls := succeeded_of_committed hrun hpublish
    have hreading := calls_rel (R := fun s s' => Reading s → Reading s') (fun _ h => h)
      (fun _ _ _ h h' => h' ∘ h) call.operation s
      fun k hk h => h.call (hcalls k hk)
    rw [final_of_ok hrun] at hreading
    exact hreading (h.opened hopened)

/-! ## The other transactions -/

theorem Delivering.acknowledge (h : Delivering db) (id : String) (checkpoint : Nat)
    (time : Int) : Delivering (acknowledgeOutbox id checkpoint time db) := by
  rcases acknowledgeOutbox_cases id checkpoint time db with heq | heq
  · rwa [heq]
  · rw [heq]
    refine h.of_consumers rfl fun c' hc' => ?_
    obtain ⟨c, hc, -, hle⟩ := acknowledged_le hc'
    exact ⟨c, hc, hle⟩

/-- What is pruned is below every checkpoint and below everything that is left. -/
theorem Delivering.prune (h : Delivering db) : Delivering (pruneOutbox db) := by
  rcases pruneOutbox_cases db with heq | ⟨horizon, redactions, hhorizon, heq⟩
  · rwa [heq]
  · rw [heq]
    have hstays : ∀ e, horizon < e.commitSeq → db.Queues e →
        { db with
          outbox := db.outbox.delete fun r => decide (r.commitSeq ≤ horizon)
          redactions := redactions : Db }.Queues e := by
      rintro e hlt ⟨o, ho, hseq, hmatches⟩
      exact ⟨o, mem_delete.mpr ⟨ho, decide_eq_false (Nat.not_le.mpr (hseq ▸ hlt))⟩, hseq, hmatches⟩
    refine ⟨fun c hc e he hlt => ?_, fun o ho e he hle => ?_, h.logged, h.numbered⟩
    · exact hstays e ((hhorizon c hc).trans_lt hlt) (h.kept c hc e he hlt)
    · obtain ⟨ho, hgone⟩ := mem_delete.mp ho
      have hlt : horizon < o.commitSeq := Nat.not_le.mp (of_decide_eq_false hgone)
      exact hstays e (hlt.trans_le hle) (h.suffix o ho e he hle)

theorem position_published (time : Int) (r : OutboxRow) :
    OutboxRow.outboxPosition { r with publishedAt := some time } = r.outboxPosition := rfl

/-- The outbox with a time of publication on some rows. -/
def stampPublished (p : OutboxRow → Bool) (time : Int) (outbox : Table OutboxRow.outboxPosition) :
    Table OutboxRow.outboxPosition :=
  outbox.update p (fun r => { r with publishedAt := some time }) (position_published time)

theorem Delivering.stampPublished (h : Delivering db) (p : OutboxRow → Bool)
    (time : Int) : Delivering { db with outbox := stampPublished p time db.outbox } := by
  have hstays : ∀ e, db.Queues e →
      { db with outbox := Kernel.stampPublished p time db.outbox : Db }.Queues e := by
    rintro e ⟨o, ho, hmatches⟩
    refine ⟨_, mem_rows.mpr (List.mem_map.mpr ⟨o, ho, rfl⟩), ?_⟩
    split <;> exact hmatches
  refine ⟨fun c hc e he hlt => hstays e (h.kept c hc e he hlt), fun o' ho' e he hle => ?_, h.logged,
    h.numbered⟩
  obtain ⟨o, ho, rfl⟩ := List.mem_map.mp (mem_rows.mp ho')
  refine hstays e (h.suffix o ho e he ?_)
  split at hle <;> exact hle

/-- **Every transaction** keeps the invariant. -/
theorem Delivering.step (h : Delivering db) (a : Action) : Delivering (a.run sys db) := by
  cases a with
  | commit call => exact h.commit call
  | upkeep u =>
    cases u with
    | acknowledgeOutbox id checkpoint time => exact h.acknowledge id checkpoint time
    | pruneOutbox => exact h.prune
    | markOutboxPublishedThrough position time => exact h.stampPublished _ _
    | rebuildAlignment leaseEpoch answers =>
      exact h.of_backlog (sameButProjection_repair sys leaseEpoch db answers).backlog
    | stampWriterFence | mergeReplayedClassification | reserve | stage => exact h.of_backlog rfl

theorem delivering_of_reachable (h : Reachable sys db) : Delivering db :=
  h.induction sys delivering_fresh fun a _ h => h.step a

/-! ## Checkpoints along a run -/

/-- The consumer a call takes away. -/
def Call.departs : Call → Option String
  | deregisterOutboxConsumer id _ | abandonOutboxConsumer id _ _ => some id
  | _ => none

variable (sys) in
/-- The commit succeeds and deregisters or abandons the consumer. -/
def Committed.Removes (c : Committed) (id : String) : Prop :=
  (∃ receipt, c.result sys = .ok receipt) ∧
    ∃ k ∈ c.call.calls sys c.before, k.call.departs = some id

variable (sys) in
/-- No commit of the run takes the consumer away. -/
def StaysRegistered (id : String) (actions : List Action) (db : Db) : Prop :=
  ∀ c ∈ commits sys actions db, ¬ c.Removes sys id

variable {c : ConsumerRow}

/-- Any other consumer is left as it is. -/
theorem mem_consumers_of_call {k : Called} (hok : k.call.poisons = true → k.failed sys = false)
    (hdeparts : k.call.departs ≠ some c.consumerId)
    (hc : c ∈ k.before.envelope.tx.outboxConsumers) :
    c ∈ (final (k.call.run sys) k.before).envelope.tx.outboxConsumers := by
  obtain ⟨method, s⟩ := k
  have hdelete : ∀ id, method.departs = some id →
      c ∈ s.envelope.tx.outboxConsumers.delete fun r => r.consumerId == id := by
    intro id hid
    refine mem_delete.mpr ⟨hc, beq_eq_false_iff_ne.mpr fun heq => hdeparts ?_⟩
    rw [hid, heq]
  by_cases hcontrols : method.controls = true
  · obtain ⟨reply, hrun⟩ := Called.run_eq_ok (hok (Call.poisons_of_controls hcontrols))
    cases method with
    | registerOutboxConsumer =>
      obtain ⟨t, hinsert, htx⟩ := register_eq_ok hrun
      rw [htx]
      exact (mem_insert hinsert).mpr (Or.inl hc)
    | deregisterOutboxConsumer id time =>
      obtain ⟨_, -, -, htx⟩ := deregister_eq_ok hrun
      rw [htx]
      exact hdelete id rfl
    | abandonOutboxConsumer id a unique =>
      obtain ⟨_, _, _, -, -, -, -, htx⟩ := abandon_eq_ok hrun
      rw [htx]
      exact hdelete id rfl
    | abandonDeletionBarrier =>
      obtain ⟨-, htx⟩ := abandonBarrier_eq_ok hrun
      rw [htx]
      exact hc
    | _ => cases hcontrols
  · have hrows := congrArg Backlog.consumers
      (@backlog_of_call sys _ (Bool.not_eq_true _ ▸ hcontrols) s)
    exact (hrows ▸ hc : c ∈ (final (method.run sys) s).envelope.tx.backlog.consumers)

theorem mem_consumers_of_commit {call : CommitCall}
    (hc : c ∈ db.outboxConsumers) (h : ¬ Committed.Removes sys ⟨call, db⟩ c.consumerId) :
    c ∈ (call.run sys db).2.outboxConsumers := by
  have hphases := commit_phases sys call db
  rw [Committed.Removes, Committed.result] at h
  generalize (call.run sys db).1 = result at hphases h
  generalize (call.run sys db).2 = after at hphases ⊢
  cases hphases with
  | failed => exact hc
  | replayed _ _ _ hafter =>
    exact ((congrArg Backlog.consumers hafter.backlog).symm ▸ hc : c ∈ after.backlog.consumers)
  | applied intent recordedAt s s₁ s₂ result receipt _ hopened hrun hpublish =>
    have hpublished : s₂.envelope.tx.outboxConsumers = s₁.envelope.tx.outboxConsumers :=
      publish_frame Db.outboxConsumers (fun _ _ _ hdb ht => by cases hdb <;> trivial) hpublish
    have hstart : s.envelope.tx.outboxConsumers = db.outboxConsumers :=
      (opened_eq_some hopened).1.frame Db.outboxConsumers fun _ _ _ => rfl
    have hcalls : call.calls sys db = call.operation.calls sys s := by
      rw [CommitCall.calls, hopened]
    have hsucceeded := succeeded_of_committed hrun hpublish
    have hkept := calls_rel
      (R := fun s s' => c ∈ s.envelope.tx.outboxConsumers → c ∈ s'.envelope.tx.outboxConsumers)
      (fun _ h => h) (fun _ _ _ h h' => h' ∘ h) call.operation s
      fun k hk => mem_consumers_of_call (hsucceeded k hk) fun hdeparts =>
        h ⟨⟨receipt, rfl⟩, k, hcalls ▸ hk, hdeparts⟩
    rw [final_of_ok hrun] at hkept
    rw [hpublished]
    exact hkept (hstart ▸ hc)

/-- No other transaction removes a consumer or moves its checkpoint down. -/
theorem le_of_upkeep (u : Upkeep) (hc : c ∈ db.outboxConsumers) :
    ∃ c' ∈ (u.run sys db).outboxConsumers, c'.consumerId = c.consumerId ∧
      c.checkpointCommitSeq ≤ c'.checkpointCommitSeq := by
  have hsame : ∀ db' : Db, db'.outboxConsumers = db.outboxConsumers →
      ∃ c' ∈ db'.outboxConsumers, c'.consumerId = c.consumerId ∧
        c.checkpointCommitSeq ≤ c'.checkpointCommitSeq :=
    fun db' heq => ⟨c, heq ▸ hc, rfl, le_rfl⟩
  cases u with
  | acknowledgeOutbox id checkpoint time =>
    rw [Upkeep.run]
    rcases acknowledgeOutbox_cases id checkpoint time db with heq | heq
    · exact hsame _ (congrArg Db.outboxConsumers heq)
    · rw [heq]
      exact le_acknowledged hc
  | pruneOutbox =>
    rw [Upkeep.run]
    rcases pruneOutbox_cases db with heq | ⟨_, _, -, heq⟩
    · exact hsame _ (congrArg Db.outboxConsumers heq)
    · exact hsame _ (congrArg Db.outboxConsumers heq :)
  | rebuildAlignment leaseEpoch answers =>
    have hrows := congrArg Backlog.consumers
      (sameButProjection_repair sys leaseEpoch db answers).backlog
    exact hsame _ (ext hrows)
  | stampWriterFence | mergeReplayedClassification | markOutboxPublishedThrough | reserve
  | stage => exact hsame _ rfl

/-- **A checkpoint never decreases** while its consumer stays registered. -/
theorem checkpoint_mono (actions : List Action) (db : Db)
    (hc : c ∈ db.outboxConsumers) (h : StaysRegistered sys c.consumerId actions db) :
    ∃ c' ∈ (run sys actions db).outboxConsumers, c'.consumerId = c.consumerId ∧
      c.checkpointCommitSeq ≤ c'.checkpointCommitSeq := by
  induction actions generalizing db c with
  | nil => exact ⟨c, hc, rfl, le_rfl⟩
  | cons a rest ih =>
    cases a with
    | commit call =>
      have hc' := mem_consumers_of_commit hc (h ⟨call, db⟩ List.mem_cons_self)
      exact ih _ hc' fun c' hc' => h c' (List.mem_cons_of_mem _ hc')
    | upkeep u =>
      obtain ⟨c₁, hc₁, hid, hle⟩ := @le_of_upkeep sys _ _ u hc
      obtain ⟨c₂, hc₂, hid', hle'⟩ := ih _ hc₁ (hid.symm ▸ h)
      exact ⟨c₂, hc₂, hid'.trans hid, hle.trans hle'⟩

/-! ## Deregistration -/

/-- Inside a commit the log of the store it started from is a part of the log. -/
theorem mem_commitLog_of_call {call : CommitCall} {k : Called} (hk : k ∈ call.calls sys db) :
    k.before.envelope.commitSeq = db.commitSequence + 1 ∧
      ∀ r ∈ db.commitLog, r ∈ k.before.envelope.tx.commitLog := by
  rw [CommitCall.calls] at hk
  cases hopened : call.opened sys db with
  | none =>
    rw [hopened] at hk
    cases hk
  | some opened =>
    rw [hopened] at hk
    obtain ⟨row, -, hlog⟩ := (opened_eq_some hopened).1.commitLog
    obtain ⟨hseq, hsame⟩ := rel_before_call
      (R := fun s s' => s'.envelope.commitSeq = s.envelope.commitSeq ∧
        s'.envelope.tx.commitLog = s.envelope.tx.commitLog)
      (fun _ => ⟨rfl, rfl⟩) (fun _ _ _ h h' => ⟨h'.1.trans h.1, h'.2.trans h.2⟩)
      (fun c s => by
        have hattempts := @attempts_call sys c s
        refine ⟨hattempts.commitSeq, hattempts.agree Db.commitLog fun w db db' hw hdb => ?_⟩
        have hclosing := (Call.writes_operation hw).not_closing
        generalize w.target = t at hdb hclosing
        cases hdb <;> trivial) hk
    refine ⟨hseq.trans (commitSeq_of_opened hopened), fun r hr => ?_⟩
    rw [hsame, mem_rows, hlog]
    exact List.mem_append_left _ hr

variable (sys) in
/-- **The outbox loses nothing.**  After every run, what a registered consumer has not read is in
the outbox; its checkpoint does not decrease in any continuation that leaves it registered; and a
call that deregisters it succeeds only if its checkpoint has reached every earlier commit. -/
theorem outbox_loses_nothing (actions : List Action) :
    (∀ c ∈ (run sys actions .fresh).outboxConsumers,
      (∀ e ∈ (run sys actions .fresh).changeEvent,
        c.checkpointCommitSeq < e.commitSeq → (run sys actions .fresh).Queues e) ∧
      ∀ rest, StaysRegistered sys c.consumerId rest (run sys actions .fresh) →
        ∃ c' ∈ (run sys (actions ++ rest) .fresh).outboxConsumers,
          c'.consumerId = c.consumerId ∧ c.checkpointCommitSeq ≤ c'.checkpointCommitSeq) ∧
    ∀ call : CommitCall, ∀ k ∈ call.calls sys (run sys actions .fresh), ∀ id time,
      k.call = .deregisterOutboxConsumer id time → k.failed sys = false →
        ∃ c ∈ k.before.envelope.tx.outboxConsumers, c.consumerId = id ∧
          ∀ r ∈ (run sys actions .fresh).commitLog, r.commitSeq ≤ c.checkpointCommitSeq := by
  have hdelivering := @delivering_of_reachable sys _ ⟨actions, rfl⟩
  refine ⟨fun c hc => ⟨hdelivering.kept c hc, fun rest hstays => ?_⟩, ?_⟩
  · rw [run_append]
    exact checkpoint_mono rest _ hc hstays
  · intro call k hk id time hcall hsucceeded
    obtain ⟨reply, hrun⟩ := Called.run_eq_ok hsucceeded
    rw [hcall] at hrun
    obtain ⟨c, hc, hle, -⟩ := deregister_eq_ok hrun
    obtain ⟨hmem, hid⟩ := Table.get_eq_some.mp hc
    obtain ⟨hseq, hlog⟩ := mem_commitLog_of_call hk
    refine ⟨c, hmem, hid, fun r hr => (le_preOperationTip (hlog r hr) ?_).trans hle⟩
    rw [hseq]
    exact Nat.lt_succ_of_le (hdelivering.numbered r hr)

end MagicContext.Kernel
