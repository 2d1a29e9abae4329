import MagicContext.Kernel.Phases

/-!
# What the methods on consumers do

A method on consumers that fails poisons its envelope, so in a commit that succeeds every such call
has succeeded, and has done all of its writes.

## What is here

* `succeeded_of_committed` — in a commit that applies its operation, poisoning calls succeed.
* `completeBarriers` — what `complete_satisfied_barriers` does to the store.
* `register_eq_ok`, `deregister_eq_ok`, `abandon_eq_ok`, `abandonBarrier_eq_ok` — what a successful
  call has done.
* `acknowledgeOutbox_cases`, `pruneOutbox_cases` — the two other transactions on the outbox.
-/

namespace MagicContext.Kernel

open Transaction

variable {sys : Platform}

/-! ## Calls of a commit that succeeds -/

theorem Called.run_eq_ok {k : Called} (h : k.failed sys = false) :
    ∃ reply, k.call.run sys k.before = .ok reply (final (k.call.run sys) k.before) := by
  rw [Called.failed] at h
  cases hrun : k.call.run sys k.before with
  | ok reply s =>
    rw [final_of_ok hrun]
    exact ⟨reply, rfl⟩
  | error e s =>
    rw [hrun] at h
    cases h

/-- **In a commit that applies its operation**, the calls that would have poisoned succeeded. -/
theorem succeeded_of_committed {intent : RedactedIntent} {transactionId : String}
    {recordedAt : Int} {afterEvents : Except KernelError Unit} {operation : Operation}
    {s s₁ s₂ : Session} {result : String} {receipt : CommitReceipt}
    (hrun : operation.run sys s = .ok result s₁)
    (hpublish : publish sys intent transactionId recordedAt afterEvents result s₁ =
      .ok receipt s₂) :
    ∀ k ∈ operation.calls sys s, k.call.poisons = true → k.failed sys = false := by
  intro k hk hpoisons
  by_contra hfailed
  have hpoisoned := poisoned_of_failed hk hpoisons (Bool.not_eq_false _ ▸ hfailed)
  rw [final_of_ok hrun, (publish_eq_ok hpublish).1] at hpoisoned
  cases hpoisoned

/-- The methods on consumers and barriers. -/
def Call.controls : Call → Bool
  | registerOutboxConsumer _ _ | deregisterOutboxConsumer _ _ | abandonOutboxConsumer _ _ _
  | abandonDeletionBarrier _ _ _ _ => true
  | _ => false

theorem Call.poisons_of_controls {c : Call} (h : c.controls = true) : c.poisons = true := by
  cases c <;> first | rfl | cases h

/-- A method stands alone in its guard. -/
theorem eq_ok_of_guarded {α : Type} {f : α → Reply} {m : M α} {s s' : Session} {reply : Reply}
    (h : (f <$> guarded m) s = .ok reply s') : ∃ a, m s = .ok a s' := by
  obtain ⟨a, hguarded, -⟩ := map_eq_ok.mp h
  exact ⟨a, (guarded_eq_ok.mp hguarded).2⟩

/-! ## Barriers -/

/-- `complete_satisfied_barriers` on the store: first the consumers that have caught up
acknowledge. -/
def acknowledgedBarriers (completedAt : Int) (db : Db) : Db :=
  let hit := fun bc : BarrierConsumerRow => bc.acknowledgedAt.isNone &&
    (db.outboxConsumers.get bc.consumerId).any fun c =>
      decide (bc.requiredCheckpointCommitSeq ≤ c.checkpointCommitSeq)
  { db with
    barrierConsumers := db.barrierConsumers.update hit
      (fun bc => { bc with acknowledgedAt := some completedAt })
      (BarrierConsumerRow.key_acknowledged completedAt) }

/-- Then the barriers all of whose consumers are satisfied are complete. -/
def completeBarriers (completedAt : Int) (db : Db) : Db :=
  let db := acknowledgedBarriers completedAt db
  { db with
    barriers := db.barriers.update (fun b => b.completedAt.isNone && barrierSatisfied db b)
      (fun b => { b with completedAt := some completedAt })
      (BarrierRow.barrierId_completed completedAt) }

variable {time : Int} {id : String}

theorem completeSatisfiedBarriers_eq_ok {s s' : Session} {u : Unit}
    (h : completeSatisfiedBarriers time s = .ok u s') :
    s'.envelope = { s.envelope with tx := completeBarriers time s.envelope.tx } := by
  obtain ⟨tx, rows, happly, h⟩ := exec_bind_eq_ok h
  cases happly
  obtain ⟨tx, rows, happly, h⟩ := exec_bind_eq_ok h
  cases happly
  obtain ⟨-, rfl⟩ := EStateM.Result.ok.inj h
  rfl

/-! ## The methods -/

section Methods
variable {s s' : Session} {reply : Reply}

theorem controlIdentity_eq_ok {id id' : String} (h : controlIdentity sys id = .ok id') :
    id' = id := by
  rw [controlIdentity] at h
  split at h
  · cases h
  · exact sys.identity_eq_ok h

theorem consumerCheckpoint_eq_ok {id id' : String} {env : Envelope} {checkpoint : Nat}
    (h : consumerCheckpoint sys id time env = .ok (id', checkpoint)) :
    id' = id ∧ ∃ c, env.tx.outboxConsumers.get id = some c ∧
      c.checkpointCommitSeq = checkpoint := by
  rw [consumerCheckpoint] at h
  split at h
  · cases h
  · obtain ⟨id'', hid, hget⟩ := Checks.bind_eq_ok.mp h
    obtain rfl := controlIdentity_eq_ok hid
    split at hget
    · rename_i c hc
      cases hget
      exact ⟨rfl, c, hc, rfl⟩
    · cases hget

theorem pushControlChange_eq_ok {objectId objectKind kind : String}
    {audit : List (String × AuditValue)} {redactions : List (String × RedactedField)} {u : Unit}
    (h : pushControlChange objectId objectKind kind audit redactions s = .ok u s') :
    s'.envelope.tx = s.envelope.tx := by
  rw [pushControlChange, commitSeq_bind] at h
  obtain ⟨-, rfl⟩ := EStateM.Result.ok.inj h
  rfl

/-- Registration adds the consumer with its first checkpoint. -/
theorem register_eq_ok (h : (Call.registerOutboxConsumer id time).run sys s = .ok reply s') :
    ∃ t, s.envelope.tx.outboxConsumers.insert
        { consumerId := id, checkpointCommitSeq := firstCheckpoint s.envelope
          updatedAt := time } = some t ∧
      s'.envelope.tx = { s.envelope.tx with outboxConsumers := t } := by
  obtain ⟨_, h⟩ := eq_ok_of_guarded h
  rw [registerOutboxConsumerInner] at h
  obtain ⟨-, h⟩ := require_bind_eq_ok h
  obtain ⟨id', hid, h⟩ := check_bind_eq_ok.mp h
  have hsame := controlIdentity_eq_ok hid
  subst id'
  obtain ⟨checkpoint, hcheckpoint, h⟩ := query_bind_eq_ok h
  cases hcheckpoint
  obtain ⟨tx, rows, happly, h⟩ := exec_bind_eq_ok h
  obtain ⟨t, hinsert, heq⟩ := Checks.bind_eq_ok.mp happly
  cases heq
  obtain ⟨_, s₅, hpush, h⟩ := bind_eq_ok.mp h
  obtain ⟨-, rfl⟩ := EStateM.Result.ok.inj h
  exact ⟨t, (insertRow_eq_ok.mp hinsert).2, pushControlChange_eq_ok hpush⟩

/-- Deregistration removes a consumer that has read everything, after it has acknowledged. -/
theorem deregister_eq_ok (h : (Call.deregisterOutboxConsumer id time).run sys s = .ok reply s') :
    ∃ c, s.envelope.tx.outboxConsumers.get id = some c ∧
      preOperationTip s.envelope ≤ c.checkpointCommitSeq ∧
      s'.envelope.tx =
        { completeBarriers time s.envelope.tx with
          outboxConsumers :=
            s.envelope.tx.outboxConsumers.delete fun r => r.consumerId == id } := by
  obtain ⟨_, h⟩ := eq_ok_of_guarded h
  rw [deregisterOutboxConsumerInner] at h
  obtain ⟨⟨id', checkpoint⟩, hconsumer, h⟩ := query_bind_eq_ok h
  obtain ⟨hsame, c, hc, rfl⟩ := consumerCheckpoint_eq_ok hconsumer
  subst id'
  obtain ⟨tip, htip, h⟩ := query_bind_eq_ok h
  cases htip
  obtain ⟨hle, h⟩ := require_bind_eq_ok h
  obtain ⟨_, s₄, hcomplete, h⟩ := bind_eq_ok.mp h
  have henv := completeSatisfiedBarriers_eq_ok hcomplete
  obtain ⟨tx, rows, happly, h⟩ := exec_bind_eq_ok h
  cases happly
  refine ⟨c, hc, of_decide_eq_true hle, ?_⟩
  rw [pushControlChange_eq_ok h, wrote_tx, henv]
  rfl

/-- The rows an abandonment leaves: one for each barrier that waits, else one of its own. -/
def abandonmentRows (db : Db) (row : AbandonmentRow) : List AbandonmentRow :=
  match abandonedBarriers db row with
  | [] => [{ row with barrierId := none }]
  | rows => rows

theorem abandonmentRows_eq (db : Db) (row : AbandonmentRow) :
    abandonedBarriers db row ++
        (if (abandonedBarriers db row).length = 0 then [{ row with barrierId := none }] else []) =
      abandonmentRows db row := by
  rw [abandonmentRows]
  cases abandonedBarriers db row with
  | nil => rfl
  | cons first rest => exact List.append_nil _

theorem insertRows_rows {ρ κ : Type} {key : ρ → κ} [DecidableEq κ] {t t' : Table key}
    {rows : List ρ} (h : insertRows t rows = .ok t') : t'.rows = t.rows ++ rows := by
  induction rows generalizing t with
  | nil =>
    cases h
    rw [List.append_nil]
  | cons row rest ih =>
    obtain ⟨t₁, hfirst, h⟩ := Checks.bind_eq_ok.mp h
    rw [ih h, insertRow_rows hfirst, List.append_assoc]
    rfl

theorem recordAbandonment_eq_ok {recorded : Nat} {row : AbandonmentRow} {u : Unit}
    (h : recordAbandonment recorded row s = .ok u s') :
    ∃ t, t.rows = s.envelope.tx.abandonments.rows ++
        (if recorded = 0 then [{ row with barrierId := none }] else []) ∧
      s'.envelope = { s.envelope with tx := { s.envelope.tx with abandonments := t } } := by
  rw [recordAbandonment] at h
  split at h
  · rename_i hzero
    obtain ⟨tx, rows, happly, h⟩ := exec_bind_eq_ok h
    obtain ⟨t, hinsert, heq⟩ := Checks.bind_eq_ok.mp happly
    cases heq
    obtain ⟨-, rfl⟩ := EStateM.Result.ok.inj h
    refine ⟨t, ?_, rfl⟩
    rw [insertRow_rows hinsert, if_pos hzero]
  · rename_i hnonzero
    obtain ⟨-, rfl⟩ := EStateM.Result.ok.inj h
    refine ⟨_, ?_, rfl⟩
    rw [if_neg hnonzero, List.append_nil]

/-- Abandonment removes a consumer, with a row for each barrier that waits for it. -/
theorem abandon_eq_ok {id unique : String} {a : ConsumerAbandonment}
    (h : (Call.abandonOutboxConsumer id a unique).run sys s = .ok reply s') :
    ∃ c row t, s.envelope.tx.outboxConsumers.get id = some c ∧ row.consumerId = id ∧
      row.commitSeq = s.envelope.commitSeq ∧
      t.rows = s.envelope.tx.abandonments.rows ++ abandonmentRows s.envelope.tx row ∧
      s'.envelope.tx = completeBarriers a.abandonedAt
        { s.envelope.tx with
          abandonments := t
          outboxConsumers :=
            s.envelope.tx.outboxConsumers.delete fun r => r.consumerId == id } := by
  obtain ⟨_, h⟩ := eq_ok_of_guarded h
  rw [abandonOutboxConsumerInner] at h
  obtain ⟨-, h⟩ := require_bind_eq_ok h
  obtain ⟨⟨id', checkpoint⟩, hconsumer, h⟩ := query_bind_eq_ok h
  obtain ⟨hsame, c, hc, rfl⟩ := consumerCheckpoint_eq_ok hconsumer
  subst id'
  obtain ⟨operatorId, -, h⟩ := check_bind_eq_ok.mp h
  obtain ⟨reason, -, h⟩ := check_bind_eq_ok.mp h
  obtain ⟨barrierId, -, h⟩ := check_bind_eq_ok.mp h
  obtain ⟨_, -, h⟩ := query_bind_eq_ok h
  rw [commitSeq_bind] at h
  obtain ⟨tx, recorded, happly, h⟩ := exec_bind_eq_ok h
  obtain ⟨t, hinsert, heq⟩ := Checks.bind_eq_ok.mp happly
  cases heq
  obtain ⟨_, s₉, hrecord, h⟩ := bind_eq_ok.mp h
  obtain ⟨t', ht', henv⟩ := recordAbandonment_eq_ok hrecord
  obtain ⟨tx, rows, happly, h⟩ := exec_bind_eq_ok h
  cases happly
  obtain ⟨_, s₁₁, hcomplete, h⟩ := bind_eq_ok.mp h
  have henv' := completeSatisfiedBarriers_eq_ok hcomplete
  refine ⟨c,
    { abandonmentId := s!"{s.envelope.commitSeq}-{unique}", consumerId := id
      barrierId := barrierId, operatorId := operatorId.text
      lastCheckpointCommitSeq := c.checkpointCommitSeq, reason := reason.text
      commitSeq := s.envelope.commitSeq, abandonedAt := a.abandonedAt },
    t', hc, rfl, rfl, ht'.trans ?_, ?_⟩
  · change t.rows ++ _ = _
    rw [insertRows_rows hinsert, List.append_assoc]
    exact congrArg _ (abandonmentRows_eq _ _)
  · rw [pushControlChange_eq_ok h, henv', wrote_tx, henv]
    rfl

/-- An operator closes a barrier no consumer of which is recorded. -/
theorem abandonBarrier_eq_ok {barrierId operatorId reason : String}
    (h : (Call.abandonDeletionBarrier barrierId operatorId reason time).run sys s =
      .ok reply s') : (∀ bc ∈ s.envelope.tx.barrierConsumers, bc.barrierId ≠ barrierId) ∧
      s'.envelope.tx =
        { s.envelope.tx with
          barriers := s.envelope.tx.barriers.update
            (fun b => b.barrierId == barrierId && b.completedAt.isNone)
            (fun b => { b with completedAt := some time }) fun _ => rfl } := by
  obtain ⟨_, h⟩ := eq_ok_of_guarded h
  rw [abandonDeletionBarrierInner] at h
  obtain ⟨-, h⟩ := require_bind_eq_ok h
  obtain ⟨barrierId', hbarrier, h⟩ := check_bind_eq_ok.mp h
  have hsame := controlIdentity_eq_ok hbarrier
  subst barrierId'
  obtain ⟨operatorId', -, h⟩ := check_bind_eq_ok.mp h
  obtain ⟨reason', -, h⟩ := check_bind_eq_ok.mp h
  obtain ⟨consumers, hconsumers, h⟩ := query_bind_eq_ok h
  cases hconsumers
  obtain ⟨hnone, h⟩ := require_bind_eq_ok h
  obtain ⟨tx, closed, happly, h⟩ := exec_bind_eq_ok h
  cases happly
  obtain ⟨-, h⟩ := require_bind_eq_ok h
  refine ⟨fun bc hbc heq => ?_, pushControlChange_eq_ok h⟩
  exact List.countP_eq_zero.mp (beq_iff_eq.mp hnone) bc hbc (beq_iff_eq.mpr heq)

end Methods

/-! ## The other transactions -/

/-- The row an acknowledgement moves. -/
def acknowledges (id : String) (checkpoint : Nat) (db : Db) (c : ConsumerRow) : Bool :=
  c.consumerId == id && decide (c.checkpointCommitSeq ≤ checkpoint) &&
    (checkpoint == c.checkpointCommitSeq || db.commitLog.any fun r => r.commitSeq == checkpoint)

/-- The consumers after it. -/
def acknowledged (id : String) (checkpoint : Nat) (time : Int) (db : Db) :
    Table ConsumerRow.consumerId :=
  db.outboxConsumers.update (acknowledges id checkpoint db)
    (fun c => { c with checkpointCommitSeq := checkpoint, updatedAt := max c.updatedAt time })
    (ConsumerRow.consumerId_advanced checkpoint time)

/-- An acknowledgement moves one checkpoint up to a commit, and completes barriers. -/
theorem acknowledgeOutbox_cases (id : String) (checkpoint : Nat) (time : Int) (db : Db) :
    acknowledgeOutbox id checkpoint time db = db ∨
      acknowledgeOutbox id checkpoint time db =
        completeBarriers time
          { db with outboxConsumers := acknowledged id checkpoint time db } := by
  rw [acknowledgeOutbox]
  split
  · exact Or.inr rfl
  · exact Or.inl rfl

/-- A checkpoint never moves down. -/
theorem le_acknowledged {checkpoint : Nat} {db : Db} {c : ConsumerRow}
    (hc : c ∈ db.outboxConsumers) :
    ∃ c' ∈ acknowledged id checkpoint time db, c'.consumerId = c.consumerId ∧
      c.checkpointCommitSeq ≤ c'.checkpointCommitSeq := by
  refine ⟨_, Table.mem_update.mpr ⟨c, hc, rfl⟩, ?_⟩
  split
  · rename_i hhit
    simp only [acknowledges, Bool.and_eq_true, decide_eq_true_eq] at hhit
    exact ⟨rfl, hhit.1.2⟩
  · exact ⟨rfl, le_rfl⟩

/-- Every row after it was there before, below its checkpoint. -/
theorem acknowledged_le {checkpoint : Nat} {db : Db} {c' : ConsumerRow}
    (hc' : c' ∈ acknowledged id checkpoint time db) :
    ∃ c ∈ db.outboxConsumers, c'.consumerId = c.consumerId ∧
      c.checkpointCommitSeq ≤ c'.checkpointCommitSeq := by
  obtain ⟨c, hc, rfl⟩ := Table.mem_update.mp hc'
  refine ⟨c, hc, ?_⟩
  split
  · rename_i hhit
    simp only [acknowledges, Bool.and_eq_true, decide_eq_true_eq] at hhit
    exact ⟨rfl, hhit.1.2⟩
  · exact ⟨rfl, le_rfl⟩

/-- Pruning removes an initial part of the outbox, below every checkpoint. -/
theorem pruneOutbox_cases (db : Db) :
    pruneOutbox db = db ∨ ∃ horizon redactions,
      (∀ c ∈ db.outboxConsumers, horizon ≤ c.checkpointCommitSeq) ∧
      pruneOutbox db =
        { db with
          outbox := db.outbox.delete fun r => decide (r.commitSeq ≤ horizon)
          redactions := redactions } := by
  rw [pruneOutbox]
  split
  · exact Or.inl rfl
  · rename_i horizon hmin
    refine Or.inr ⟨horizon, _, fun c hc => ?_, rfl⟩
    exact (List.min?_eq_some_iff.mp hmin).2 _ (List.mem_map_of_mem hc)

end MagicContext.Kernel
