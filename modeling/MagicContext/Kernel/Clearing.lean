import MagicContext.Kernel.Barriers

/-!
# Barriers clear when everyone has caught up

What the rows of a barrier say of its consumers, a run bears out: a consumer is done with when its
checkpoint has reached the deletion at some time of the run, or when a commit of the run abandoned
it.

## What is here

* `CaughtUp` — what a run shows of a consumer.
* `Barred` — the invariant of runs: what the barriers say is so, and the last deletion of each is
  on record.
* `barriers_clear_when_caught_up` — a complete barrier waits for nobody.
-/

namespace MagicContext.Kernel

open Transaction BarrierTables

/-! ## Runs -/

section Runs
variable (sys)

theorem commits_append (actions rest : List Action) (db : Db) :
    commits sys (actions ++ rest) db =
      commits sys actions db ++ commits sys rest (run sys actions db) := by
  induction actions generalizing db with
  | nil => rfl
  | cons a actions ih =>
    cases a with
    | commit call => exact congrArg (_ :: ·) (ih _)
    | upkeep u => exact ih _

/-- The consumer's checkpoint had reached the number, now or at some earlier time. -/
def Reached (actions : List Action) (consumerId : String) (seq : Nat) : Prop :=
  ∃ earlier, earlier <+: actions ∧ ∃ c ∈ (run sys earlier .fresh).outboxConsumers,
    c.consumerId = consumerId ∧ seq ≤ c.checkpointCommitSeq

/-- The consumer was abandoned in a commit of the number or a later one. -/
def AbandonedFrom (actions : List Action) (consumerId : String) (seq : Nat) : Prop :=
  ∃ c ∈ commits sys actions .fresh, ∃ receipt, c.result sys = .ok receipt ∧
    seq ≤ receipt.commitSeq ∧ ∃ k ∈ c.call.calls sys c.before,
      ∃ a unique, k.call = .abandonOutboxConsumer consumerId a unique

def CaughtUp (actions : List Action) (consumerId : String) (seq : Nat) : Prop :=
  Reached sys actions consumerId seq ∨ AbandonedFrom sys actions consumerId seq

/-- The commit of this number deleted an artifact, and its barrier is this one. -/
def Committed.Deletes (c : Committed) (barrierId : String) (seq : Nat) : Prop :=
  ∃ d result receipt, c.call.operation = bodyOperation (.deleteArtifact d) result ∧
    d.barrierId = barrierId ∧ c.result sys = .ok receipt ∧ receipt.replayed = false ∧
    receipt.commitSeq = seq

variable {sys}

variable {actions : List Action} {intent : RedactedIntent}

theorem CaughtUp.append {id : String} {seq : Nat}
    (h : CaughtUp sys actions id seq) (rest : List Action) :
    CaughtUp sys (actions ++ rest) id seq := by
  rcases h with ⟨earlier, hinitial, hc⟩ | ⟨c, hc, habandoned⟩
  · exact .inl ⟨earlier, hinitial.trans (List.prefix_append _ _), hc⟩
  · refine .inr ⟨c, ?_, habandoned⟩
    rw [commits_append]
    exact List.mem_append_left _ hc

theorem caughtUp_of_checkpoint {c : ConsumerRow}
    (hc : c ∈ (run sys actions .fresh).outboxConsumers) {seq : Nat}
    (hle : seq ≤ c.checkpointCommitSeq) : CaughtUp sys actions c.consumerId seq :=
  .inl ⟨actions, List.prefix_rfl, c, hc, rfl, hle⟩

/-- The last deletion of a barrier is on record, with the consumers that were registered. -/
structure Recorded (sys : Platform) (actions : List Action) (b : BarrierRow) : Prop where
  last : ∀ c ∈ commits sys actions .fresh, ∀ seq, c.Deletes sys b.barrierId seq →
    seq ≤ b.deleteCommitSeq
  deletion : ∃ c ∈ commits sys actions .fresh, c.Deletes sys b.barrierId b.deleteCommitSeq ∧
    ∀ consumer ∈ c.before.outboxConsumers,
      ∃ bc ∈ (run sys actions .fresh).barrierConsumers, bc.barrierId = b.barrierId ∧
        bc.consumerId = consumer.consumerId ∧
        bc.requiredCheckpointCommitSeq = b.deleteCommitSeq

/-- The invariant of runs. -/
structure Barred (sys : Platform) (actions : List Action) : Prop where
  awaiting : Awaiting (CaughtUp sys actions) (run sys actions .fresh)
  logged : ∀ bc ∈ (run sys actions .fresh).barrierConsumers,
    ∃ r ∈ (run sys actions .fresh).commitLog, r.commitSeq = bc.requiredCheckpointCommitSeq
  recorded : ∀ b ∈ (run sys actions .fresh).barriers, Recorded sys actions b
  numbered : ∀ c ∈ commits sys actions .fresh, ∀ id seq, c.Deletes sys id seq →
    seq ≤ (run sys actions .fresh).commitSequence

theorem barred_nil : Barred sys [] where
  awaiting :=
    { acked := fun _ h => absurd h List.not_mem_nil
      gone := fun _ h => absurd h List.not_mem_nil
      caught := fun _ h => absurd h List.not_mem_nil
      waiting := fun _ h => absurd h List.not_mem_nil
      complete := fun _ h => absurd h List.not_mem_nil
      oneOpen := fun _ h => absurd h List.not_mem_nil }
  logged _ h := absurd h List.not_mem_nil
  recorded _ h := absurd h List.not_mem_nil
  numbered _ h := absurd h List.not_mem_nil

/-- A transaction that deletes nothing and keeps what the barriers require. -/
theorem Barred.step {a : Action} (h : Barred sys actions)
    (hrequirements : (a.run sys (run sys actions .fresh)).requirements =
      (run sys actions .fresh).requirements)
    (hlog : ∀ r ∈ (run sys actions .fresh).commitLog,
      r ∈ (a.run sys (run sys actions .fresh)).commitLog)
    (hseq : (run sys actions .fresh).commitSequence ≤
      (a.run sys (run sys actions .fresh)).commitSequence)
    (hnone : ∀ c ∈ commits sys [a] (run sys actions .fresh), ∀ id seq,
      ¬ c.Deletes sys id seq) (hawaiting : Awaiting (CaughtUp sys (actions ++ [a]))
      (a.run sys (run sys actions .fresh))) : Barred sys (actions ++ [a]) := by
  have hrun : run sys (actions ++ [a]) .fresh =
      a.run sys (run sys actions .fresh) := run_append sys _ _ _
  have hcommits : ∀ c ∈ commits sys (actions ++ [a]) .fresh, ∀ id seq,
      c.Deletes sys id seq → c ∈ commits sys actions .fresh := by
    intro c hc id seq hdeletes
    rw [commits_append, List.mem_append] at hc
    exact hc.resolve_right fun hc => hnone c hc id seq hdeletes
  constructor
  · rw [hrun]
    exact hawaiting
  · intro bc' hbc'
    rw [hrun] at hbc' ⊢
    have hmem : bc'.requirement ∈ (run sys actions .fresh).requirements.2 :=
      hrequirements ▸ List.mem_map_of_mem hbc'
    obtain ⟨bc, hbc, heq⟩ := List.mem_map.mp hmem
    obtain ⟨-, -, hrequired⟩ := BarrierConsumerRow.requirement_eq heq
    obtain ⟨r, hr, hrseq⟩ := h.logged bc hbc
    exact ⟨r, hlog r hr, hrseq.trans hrequired⟩
  · intro b' hb'
    rw [hrun] at hb'
    have hmem : b'.identity ∈ (run sys actions .fresh).requirements.1 :=
      hrequirements ▸ List.mem_map_of_mem hb'
    obtain ⟨b, hb, heq⟩ := List.mem_map.mp hmem
    obtain ⟨hid, -, hdelete⟩ : b.barrierId = b'.barrierId ∧ b.artifactDigest = b'.artifactDigest ∧
        b.deleteCommitSeq = b'.deleteCommitSeq := by
      simpa only [BarrierRow.identity, Prod.mk.injEq] using heq
    obtain ⟨hlast, c, hc, hdeletes, hconsumers⟩ := h.recorded b hb
    rw [hid, hdelete] at hlast hdeletes hconsumers
    refine ⟨fun c hc seq hdel => hlast c (hcommits c hc _ _ hdel) seq hdel, c, ?_, hdeletes,
      fun consumer hconsumer => ?_⟩
    · rw [commits_append]
      exact List.mem_append_left _ hc
    · obtain ⟨bc, hbc, hbarrier, hbcid, hrequired⟩ := hconsumers consumer hconsumer
      have hmem : bc.requirement ∈ (a.run sys (run sys actions .fresh)).requirements.2 :=
        hrequirements ▸ List.mem_map_of_mem hbc
      obtain ⟨bc', hbc', heq'⟩ := List.mem_map.mp hmem
      obtain ⟨hbarrier', hbcid', hrequired'⟩ := BarrierConsumerRow.requirement_eq heq'
      rw [hrun]
      exact ⟨bc', hbc', hbarrier'.trans hbarrier, hbcid'.trans hbcid, hrequired'.trans hrequired⟩
  · intro c hc id seq hdeletes
    rw [hrun]
    exact (h.numbered c (hcommits c hc id seq hdeletes) id seq hdeletes).trans hseq

/-- A commit that does not apply its operation, or no commit at all, deletes nothing. -/
theorem not_deletes_of_replayed {c : Committed}
    (h : ∀ receipt, c.result sys = .ok receipt → receipt.replayed = true) (id : String)
    (seq : Nat) : ¬ c.Deletes sys id seq := by
  rintro ⟨-, -, receipt, -, -, hok, hfresh, -⟩
  rw [h receipt hok] at hfresh
  cases hfresh

theorem SameButProjection.barrierTables {db db' : Db} (h : SameButProjection db db') :
    db'.barrierTables = db.barrierTables ∧ db'.commitLog = db.commitLog ∧
      db'.commitSequence = db.commitSequence := by
  have hsame : db'.withoutProjection = db.withoutProjection := h
  exact ⟨(congrArg Db.barrierTables hsame :), (congrArg Db.commitLog hsame :),
    (congrArg Db.commitSequence hsame :)⟩

theorem requirements_of_tables {db db' : Db} (h : db'.barrierTables = db.barrierTables) :
    db'.requirements = db.requirements := by
  have hbarriers : db'.barriers = db.barriers := congrArg barriers h
  have hrows : db'.barrierConsumers = db.barrierConsumers :=
    congrArg barrierConsumers h
  rw [Db.requirements, Db.requirements, hbarriers, hrows]

/-- A transaction that leaves these tables as they are. -/
theorem Barred.same {a : Action} (h : Barred sys actions)
    (htables : (a.run sys (run sys actions .fresh)).barrierTables =
      (run sys actions .fresh).barrierTables)
    (hlog : (a.run sys (run sys actions .fresh)).commitLog = (run sys actions .fresh).commitLog)
    (hseq : (a.run sys (run sys actions .fresh)).commitSequence =
      (run sys actions .fresh).commitSequence)
    (hnone : ∀ c ∈ commits sys [a] (run sys actions .fresh), ∀ id seq,
      ¬ c.Deletes sys id seq) : Barred sys (actions ++ [a]) :=
  h.step (requirements_of_tables htables) (fun _ hr => hlog ▸ hr) hseq.ge hnone
    ((h.awaiting.mono fun _ _ hdone => hdone.append [a]).of_tables htables)

/-- An acknowledgement keeps the invariant: the checkpoint it moves has got there. -/
theorem Barred.acknowledge (h : Barred sys actions) (id : String) (checkpoint : Nat) (time : Int) :
    Barred sys (actions ++ [.upkeep (.acknowledgeOutbox id checkpoint time)]) := by
  have hcases := acknowledgeOutbox_cases id checkpoint time (run sys actions .fresh)
  have hnone : ∀ c ∈ commits sys [.upkeep (.acknowledgeOutbox id checkpoint time)]
      (run sys actions .fresh), ∀ id seq, ¬ c.Deletes sys id seq :=
    fun c hc => absurd hc List.not_mem_nil
  rcases hcases with heq | heq
  · exact h.same (congrArg Db.barrierTables heq) (congrArg Db.commitLog heq)
      (congrArg Db.commitSequence heq) hnone
  · have hrun : run sys (actions ++ [.upkeep (.acknowledgeOutbox id checkpoint time)])
        .fresh = acknowledgeOutbox id checkpoint time (run sys actions .fresh) :=
      run_append sys _ _ _
    have hlog := (congrArg Db.commitLog heq :)
    have hseq := (congrArg Db.commitSequence heq :)
    have hrequirements := (congrArg Db.requirements heq).trans (requirements_completeBarriers _ _)
    refine h.step hrequirements (fun _ hr => hlog.symm ▸ hr) hseq.symm.le hnone ?_
    change Awaiting _ (acknowledgeOutbox id checkpoint time (run sys actions .fresh))
    have hold := h.awaiting.mono fun _ _ hdone =>
      hdone.append [.upkeep (.acknowledgeOutbox id checkpoint time)]
    rw [heq]
    refine (hold.raise (fun c hc seq hle => ?_) fun c hc => ?_).completeBarriers time
    · refine caughtUp_of_checkpoint ?_ hle
      rw [hrun, heq]
      exact hc
    · obtain ⟨c', hc', hid, -⟩ := @le_acknowledged time id checkpoint _ _ hc
      exact ⟨c', hc', hid⟩

/-- The transactions of the writer that are not commits keep the invariant. -/
theorem Barred.upkeep (h : Barred sys actions) (u : Upkeep) :
    Barred sys (actions ++ [.upkeep u]) := by
  have hnone : ∀ c ∈ commits sys [.upkeep u] (run sys actions .fresh), ∀ id seq,
      ¬ c.Deletes sys id seq := fun c hc => absurd hc List.not_mem_nil
  cases u with
  | acknowledgeOutbox id checkpoint time => exact h.acknowledge id checkpoint time
  | pruneOutbox =>
    rcases pruneOutbox_cases (run sys actions .fresh) with heq | ⟨_, _, -, heq⟩
    · exact h.same (congrArg Db.barrierTables heq) (congrArg Db.commitLog heq)
        (congrArg Db.commitSequence heq) hnone
    · exact h.same (congrArg Db.barrierTables heq :) (congrArg Db.commitLog heq :)
        (congrArg Db.commitSequence heq :) hnone
  | rebuildAlignment leaseEpoch answers =>
    obtain ⟨htables, hlog, hseq⟩ := (sameButProjection_repair sys leaseEpoch
      (run sys actions .fresh) answers).barrierTables
    exact h.same htables hlog hseq hnone
  | stampWriterFence | mergeReplayedClassification | markOutboxPublishedThrough | reserve
  | stage => exact h.same rfl rfl rfl hnone

variable {recordedAt : Int}

/-- Where the operation of a commit starts, nothing has happened to the barriers. -/
theorem barrierTables_of_opened {call : CommitCall} {db : Db} {s : Session}
    (h : call.opened sys db = some (intent, recordedAt, s)) :
    s.envelope.tx.barrierTables = db.barrierTables :=
  (opened_eq_some h).1.frame Db.barrierTables fun _ _ _ => rfl

theorem barrierTables_of_publish {transactionId : String} {afterEvents : Except KernelError Unit}
    {result : String} {s s' : Session}
    {receipt : CommitReceipt}
    (h : publish sys intent transactionId recordedAt afterEvents result s =
      .ok receipt s') : s'.envelope.tx.barrierTables = s.envelope.tx.barrierTables :=
  publish_frame Db.barrierTables (fun _ _ _ hdb ht => by cases hdb <;> trivial) h

/-- What an earlier deletion required is below the next commit. -/
theorem Barred.opened (h : Barred sys actions) {call : CommitCall} {s : Session}
    (hopened : call.opened sys (run sys actions .fresh) = some (intent, recordedAt, s)) :
    AwaitingIn (CaughtUp sys (actions ++ [.commit call])) s := by
  have htables := barrierTables_of_opened hopened
  have hrows : s.envelope.tx.barrierConsumers = (run sys actions .fresh).barrierConsumers :=
    congrArg barrierConsumers htables
  have hnumbered := (@delivering_of_reachable sys _ ⟨actions, rfl⟩).numbered
  refine ⟨(h.awaiting.mono fun _ _ hdone => hdone.append _).of_tables htables, fun bc hbc => ?_⟩
  obtain ⟨r, hr, heq⟩ := h.logged bc (hrows ▸ hbc)
  obtain ⟨row, -, hlog⟩ := (opened_eq_some hopened).1.commitLog
  refine ⟨r, ?_, heq, ?_⟩
  · rw [Table.mem_rows, hlog]
    exact List.mem_append_left _ hr
  · rw [commitSeq_of_opened hopened]
    exact Nat.lt_succ_of_le (hnumbered r hr)

/-- **A commit that deletes nothing** keeps the invariant. -/
theorem Barred.closure (h : Barred sys actions) {call : CommitCall}
    {s s₁ s₂ : Session} {result : String} {receipt : CommitReceipt}
    (hdelete : ∀ k ∈ call.operation.calls sys s, ∀ d, k.call ≠ .deleteArtifact d)
    (hnone : ∀ id seq, ¬ Committed.Deletes sys ⟨call, run sys actions .fresh⟩ id seq)
    (hopened : call.opened sys (run sys actions .fresh) = some (intent, recordedAt, s))
    (hrun : call.operation.run sys s = .ok result s₁)
    (hpublish : publish sys intent (intent.operationIdentity sys) recordedAt
      call.afterEvents result s₁ = .ok receipt s₂)
    (hresult : (call.run sys (run sys actions .fresh)).1 = .ok receipt)
    (hafter : (call.run sys (run sys actions .fresh)).2 = s₂.envelope.tx) :
    Barred sys (actions ++ [.commit call]) := by
  obtain ⟨hnumber, hsequence, row, -, hlog⟩ := log_of_applied hopened hrun hpublish
  have hsucceeded := succeeded_of_committed hrun hpublish
  have hcalls : call.calls sys (run sys actions .fresh) = call.operation.calls sys s := by
    rw [CommitCall.calls, hopened]
  have hmem : (⟨call, run sys actions .fresh⟩ : Committed) ∈
      commits sys (actions ++ [.commit call]) .fresh := by
    rw [commits_append]
    exact List.mem_append_right _ List.mem_cons_self
  have habandoned : ∀ k ∈ call.operation.calls sys s, ∀ id a unique,
      k.call = .abandonOutboxConsumer id a unique → ∀ seq ≤ k.before.envelope.commitSeq,
        CaughtUp sys (actions ++ [.commit call]) id seq := by
    intro k hk id a unique hcall seq hle
    have hk' : k ∈ call.calls sys (run sys actions .fresh) := by rwa [hcalls]
    rw [(mem_commitLog_of_call hk').1, ← hnumber] at hle
    exact .inr ⟨⟨call, run sys actions .fresh⟩, hmem, receipt, hresult, hle, k, hk', a,
      unique, hcall⟩
  have hkeeps := calls_rel (R := KeepsWaiting (CaughtUp sys (actions ++ [.commit call])))
    KeepsWaiting.refl (fun _ _ _ h h' => h.trans h') call.operation s
    fun k hk => keepsWaiting_call (hdelete k hk) (hsucceeded k hk) (habandoned k hk)
  rw [final_of_ok hrun] at hkeeps
  have hpublished := barrierTables_of_publish hpublish
  have hafter' : (Action.commit call).run sys (run sys actions .fresh) = s₂.envelope.tx := hafter
  refine h.step ?_ ?_ ?_ ?_ ?_
  · rw [hafter', requirements_of_tables hpublished, hkeeps.requirements,
      requirements_of_tables (barrierTables_of_opened hopened)]
  · intro r hr
    rw [hafter', Table.mem_rows, hlog]
    exact List.mem_append_left _ hr
  · rw [hafter', hsequence]
    exact Nat.le_succ _
  · intro c hc
    rw [List.mem_singleton.mp hc]
    exact hnone
  · rw [hafter']
    exact (hkeeps.awaiting (h.opened hopened)).of_tables hpublished

/-- The closure of a body calls the body, and ends as it ends. -/
theorem calls_bodyOperation (body : Call) (result : Reply → String) (s : Session) :
    (bodyOperation body result).calls sys s = [⟨body, s⟩] := by
  rw [bodyOperation, Operation.calls]
  rfl

theorem bodyOperation_eq_ok {body : Call} {f : Reply → String} {s s' : Session} {result : String}
    (h : (bodyOperation body f).run sys s = .ok result s') :
    ∃ reply, body.run sys s = .ok reply s' := by
  rw [bodyOperation, run_call, Call.outcome, final] at h
  cases hbody : body.run sys s with
  | ok reply s₁ =>
    rw [hbody] at h
    obtain ⟨-, rfl⟩ := EStateM.Result.ok.inj h
    exact ⟨reply, rfl⟩
  | error e s₁ =>
    rw [hbody] at h
    cases h

theorem bodyOperation_inj {body body' : Call} {f f' : Reply → String}
    (h : bodyOperation body f = bodyOperation body' f') : body = body' :=
  (Operation.call.inj h).1

/-- **A deletion** that commits is on record, with the consumers it found. -/
theorem Barred.deletion (h : Barred sys actions) {call : CommitCall}
    {d : ArtifactDeletion} {f : Reply → String} {unique : String}
    {s s₁ s₂ : Session} {result : String} {receipt : CommitReceipt}
    (hbarrier : d.barrierId = barrierFor d.digest unique (run sys actions .fresh))
    (hoperation : call.operation = bodyOperation (.deleteArtifact d) f)
    (hopened : call.opened sys (run sys actions .fresh) = some (intent, recordedAt, s))
    (hrun : call.operation.run sys s = .ok result s₁)
    (hpublish : publish sys intent (intent.operationIdentity sys) recordedAt
      call.afterEvents result s₁ = .ok receipt s₂) (hfresh : receipt.replayed = false)
    (hresult : (call.run sys (run sys actions .fresh)).1 = .ok receipt)
    (hafter : (call.run sys (run sys actions .fresh)).2 = s₂.envelope.tx) :
    Barred sys (actions ++ [.commit call]) := by
  obtain ⟨hnumber, hsequence, row, hrow, hlog⟩ := log_of_applied hopened hrun hpublish
  have hdb : run sys (actions ++ [.commit call]) .fresh = s₂.envelope.tx :=
    (run_append sys _ _ _).trans hafter
  have hcommits : commits sys (actions ++ [.commit call]) .fresh =
      commits sys actions .fresh ++ [⟨call, run sys actions .fresh⟩] :=
    commits_append _ _ _ _
  have hdeletes : Committed.Deletes sys ⟨call, run sys actions .fresh⟩ d.barrierId
      ((run sys actions .fresh).commitSequence + 1) :=
    ⟨d, f, receipt, hoperation, rfl, hresult, hfresh, hnumber⟩
  have honly : ∀ id seq, Committed.Deletes sys ⟨call, run sys actions .fresh⟩ id seq →
      id = d.barrierId ∧ seq = (run sys actions .fresh).commitSequence + 1 := by
    rintro id seq ⟨d', f', receipt', hoperation', rfl, hok, -, rfl⟩
    have hsame : Call.deleteArtifact d = .deleteArtifact d' :=
      bodyOperation_inj (hoperation.symm.trans hoperation')
    cases hsame
    have hreceipt : receipt = receipt' := Except.ok.inj (hresult.symm.trans hok)
    exact ⟨rfl, hreceipt ▸ hnumber⟩
  -- The barriers change in the body only.
  have hstart := barrierTables_of_opened hopened
  have hpublished := barrierTables_of_publish hpublish
  obtain ⟨reply, hbody⟩ := bodyOperation_eq_ok (hoperation ▸ hrun)
  have hdeleted := deleteArtifact_eq_ok hbody
  rw [commitSeq_of_opened hopened] at hdeleted
  have hbarriers : s.envelope.tx.barriers = (run sys actions .fresh).barriers :=
    congrArg barriers hstart
  have hrows : s.envelope.tx.barrierConsumers = (run sys actions .fresh).barrierConsumers :=
    congrArg barrierConsumers hstart
  have hconsumers : s.envelope.tx.outboxConsumers = (run sys actions .fresh).outboxConsumers :=
    congrArg outboxConsumers hstart
  have hbarrier' : d.barrierId = barrierFor d.digest unique s.envelope.tx := by
    rw [hbarrier, barrierFor, barrierFor, hbarriers]
  have hbarriers₂ : s₂.envelope.tx.barriers = s₁.envelope.tx.barriers :=
    congrArg barriers hpublished
  have hrows₂ : s₂.envelope.tx.barrierConsumers = s₁.envelope.tx.barrierConsumers :=
    congrArg barrierConsumers hpublished
  have hopens := h.opened hopened
  obtain ⟨⟨b₀, hb₀, hid₀, -, hseq₀, -⟩, hothers⟩ :=
    hdeleted.barriers.opens hopens.oneOpen hbarrier'
  have hlogged : ∀ r ∈ (run sys actions .fresh).commitLog, r ∈ s₂.envelope.tx.commitLog := by
    intro r hr
    rw [Table.mem_rows, hlog]
    exact List.mem_append_left _ hr
  have hsplit : ∀ bc, bc ∈ s₂.envelope.tx.barrierConsumers ↔
      (bc ∈ (run sys actions .fresh).barrierConsumers ∧ bc.barrierId ≠ d.barrierId) ∨
      ∃ c ∈ (run sys actions .fresh).outboxConsumers,
        bc = d.requires ((run sys actions .fresh).commitSequence + 1) c := by
    intro bc
    rw [hrows₂, Table.mem_rows, hdeleted.barrierConsumers, List.mem_append, List.mem_filter,
      List.mem_map, hrows, hconsumers]
    simp only [Bool.not_eq_true', beq_eq_false_iff_ne, eq_comm (a := bc), Table.mem_rows]
  constructor
  · rw [hdb]
    refine (hopens.delete hdeleted hbarrier' fun c hc n hle => ?_).of_tables hpublished
    rw [hconsumers] at hc
    exact (caughtUp_of_checkpoint hc hle).append _
  · intro bc hbc
    rw [hdb] at hbc ⊢
    rcases (hsplit bc).mp hbc with ⟨hbc, -⟩ | ⟨c, -, rfl⟩
    · obtain ⟨r, hr, heq⟩ := h.logged bc hbc
      exact ⟨r, hlogged r hr, heq⟩
    · refine ⟨row, ?_, hrow⟩
      rw [Table.mem_rows, hlog]
      exact List.mem_append_right _ (List.mem_singleton_self _)
  · intro b hb
    rw [hdb, hbarriers₂] at hb
    by_cases hid : b.barrierId = d.barrierId
    · obtain rfl := Table.eq_of_key hb hb₀ (hid.trans hid₀.symm)
      rw [← hid, ← hseq₀] at hdeletes
      refine ⟨fun c hc seq hdel => ?_, _, ?_, hdeletes, fun consumer hconsumer => ?_⟩
      · rw [hcommits, List.mem_append, List.mem_singleton] at hc
        rw [hseq₀]
        rcases hc with hc | rfl
        · exact (h.numbered c hc _ seq hdel).trans (Nat.le_succ _)
        · exact (honly _ _ hdel).2.le
      · rw [hcommits]
        exact List.mem_append_right _ (List.mem_singleton_self _)
      · rw [hdb]
        exact ⟨_, (hsplit _).mpr (.inr ⟨consumer, hconsumer, rfl⟩), hid.symm, rfl, hseq₀.symm⟩
    · have hold := (hothers b hb hid).1
      rw [hbarriers] at hold
      obtain ⟨hlast, c, hc, hdel, hregistered⟩ := h.recorded b hold
      refine ⟨fun c hc seq hdel => ?_, c, ?_, hdel, fun consumer hconsumer => ?_⟩
      · rw [hcommits, List.mem_append, List.mem_singleton] at hc
        rcases hc with hc | rfl
        · exact hlast c hc seq hdel
        · exact absurd (honly _ _ hdel).1 hid
      · rw [hcommits]
        exact List.mem_append_left _ hc
      · obtain ⟨bc, hbc, hbarrierId, hbcid, hrequired⟩ := hregistered consumer hconsumer
        rw [hdb]
        exact ⟨bc, (hsplit bc).mpr (.inl ⟨hbc, hbarrierId ▸ hid⟩), hbarrierId, hbcid, hrequired⟩
  · intro c hc id seq hdel
    rw [hdb, hsequence]
    rw [hcommits, List.mem_append, List.mem_singleton] at hc
    rcases hc with hc | rfl
    · exact (h.numbered c hc id seq hdel).trans (Nat.le_succ _)
    · exact (honly _ _ hdel).2.le

/-- **Every commit of the program** keeps the invariant. -/
theorem Barred.commit (h : Barred sys actions) {call : CommitCall}
    (hissued : call.Issued (run sys actions .fresh)) :
    Barred sys (actions ++ [.commit call]) := by
  have hphases := commit_phases sys call (run sys actions .fresh)
  have hnone : (∀ receipt, (call.run sys (run sys actions .fresh)).1 = .ok receipt →
      receipt.replayed = true) → ∀ c ∈ commits sys [.commit call]
        (run sys actions .fresh), ∀ id seq, ¬ c.Deletes sys id seq := by
    intro hreplayed c hc
    rw [List.mem_singleton.mp hc]
    exact not_deletes_of_replayed hreplayed
  generalize hresult : (call.run sys (run sys actions .fresh)).1 = result at hphases hnone
  generalize hafter : (call.run sys (run sys actions .fresh)).2 = after at hphases
  cases hphases with
  | failed e =>
    exact h.same (congrArg Db.barrierTables hafter) (congrArg Db.commitLog hafter)
      (congrArg Db.commitSequence hafter) (hnone fun _ heq => by cases heq)
  | replayed receipt _ hreplayed hsame =>
    obtain ⟨htables, hlog, hseq⟩ := hsame.barrierTables
    refine h.same ((congrArg Db.barrierTables hafter).trans htables)
      ((congrArg Db.commitLog hafter).trans hlog) ((congrArg Db.commitSequence hafter).trans hseq)
      (hnone fun receipt' heq => ?_)
    rw [← Except.ok.inj heq]
    exact hreplayed
  | applied intent recordedAt s s₁ s₂ result receipt hfresh hopened hrun hpublish =>
    have hclosure : (∀ k ∈ call.operation.calls sys s, ∀ d, k.call ≠ .deleteArtifact d) →
        (∀ d f, call.operation ≠ bodyOperation (.deleteArtifact d) f) →
        Barred sys (actions ++ [.commit call]) := by
      intro hdelete hbody
      refine h.closure hdelete ?_ hopened hrun hpublish hresult hafter
      rintro id seq ⟨d, f, _, hoperation, -⟩
      exact hbody d f hoperation
    cases hissued with
    | closure hpublic =>
      refine hclosure (fun k hk d hcall => ?_) fun d f hoperation => ?_
      · have hk := hpublic.calls hk
        rw [hcall] at hk
        cases hk
      · rw [hoperation] at hpublic
        cases hpublic with
        | call _ _ hc => cases hc
    | ingest a f hoperation =>
      refine hclosure (fun k hk d hcall => ?_) fun d f' hoperation' => ?_
      · rw [hoperation, calls_bodyOperation] at hk
        rw [List.mem_singleton.mp hk] at hcall
        cases hcall
      · cases bodyOperation_inj (hoperation.symm.trans hoperation')
    | deletion d f unique hbarrier hoperation =>
      exact h.deletion hbarrier hoperation hopened hrun hpublish hfresh hresult hafter

theorem barred_of_issued (actions : List Action) (h : Issued sys actions .fresh) :
    Barred sys actions := by
  induction actions using List.reverseRecOn with
  | nil => exact barred_nil
  | append_singleton actions a ih =>
    have hbefore : Issued sys actions .fresh := by
      intro c hc
      refine h c ?_
      rw [commits_append]
      exact List.mem_append_left _ hc
    cases a with
    | upkeep u => exact (ih hbefore).upkeep u
    | commit call =>
      refine (ih hbefore).commit (h ⟨call, run sys actions .fresh⟩ ?_)
      rw [commits_append]
      exact List.mem_append_right _ (List.mem_singleton_self _)

/-- **A deletion barrier clears only when everyone has caught up.**  After every run of the program,
a barrier that is complete has its last deletion on record, and each consumer that was registered
then had reached that commit at some time or was abandoned in that commit or a later one.  An
operator closes only barriers of deletions that found no consumer, so those are no exception. -/
theorem barriers_clear_when_caught_up (actions : List Action) (h : Issued sys actions .fresh) :
    ∀ b ∈ (run sys actions .fresh).barriers, b.completedAt.isSome →
      ∃ c ∈ commits sys actions .fresh, c.Deletes sys b.barrierId b.deleteCommitSeq ∧
        (∀ c' ∈ commits sys actions .fresh, ∀ seq,
          c'.Deletes sys b.barrierId seq → seq ≤ b.deleteCommitSeq) ∧
        ∀ consumer ∈ c.before.outboxConsumers,
          CaughtUp sys actions consumer.consumerId b.deleteCommitSeq := by
  intro b hb hdone
  have hbarred := barred_of_issued actions h
  obtain ⟨hlast, c, hc, hdeletes, hconsumers⟩ := hbarred.recorded b hb
  refine ⟨c, hc, hdeletes, hlast, fun consumer hconsumer => ?_⟩
  obtain ⟨bc, hbc, hid, hbcid, hrequired⟩ := hconsumers consumer hconsumer
  rw [← hbcid, ← hrequired]
  exact hbarred.awaiting.complete b hb hdone bc hbc hid

end Runs

/-! ## A purge that one consumer waits for -/

namespace Sample

/-- The digests of two operations. -/
def clearingDigests : List (String × String) :=
  [("register", "d7da7716f606a27cde5afbcc288142fe052a2bf2c06429754eebdfd6d484bfb6"),
    ("purge", "ca258ed66b20df29475f87532bad74d63b71e6a65b56e8c7294196a6b38236fd")]

def purge : ArtifactDeletion where
  kind := .purge
  digest := requestDigest
  artifactReference := "objects/00/0"
  barrierId := s!"artifact-deletion-{requestDigest}-1"
  operatorId := ⟨"operator", []⟩
  reason := ⟨"reason", []⟩
  targetLocator := ⟨"target", []⟩
  deletedAt := 0

def purgeCommit : CommitCall :=
  { call "purge" (.deleteArtifact purge) with
    operation := bodyOperation (.deleteArtifact purge) fun _ => "purged" }

/-- A consumer registers, an artifact is purged, and the consumer acknowledges it. -/
def clearing : List Action :=
  [.upkeep (.stampWriterFence 1), .commit (call "register" (.registerOutboxConsumer "index" 0)),
    .commit purgeCommit, .upkeep (.acknowledgeOutbox "index" 2 0)]

theorem issued_clearing : Issued (plainPlatform clearingDigests) clearing .fresh := by
  intro c hc
  rcases List.mem_cons.mp hc with rfl | hc
  · exact .closure (.call _ _ rfl fun _ => .ret _)
  · rw [List.mem_singleton.mp hc]
    refine .deletion purge _ "1" ?_ rfl
    decide +kernel

end Sample

theorem purge_barrier_clears :
    ∃ b ∈ (run (Sample.plainPlatform Sample.clearingDigests) Sample.clearing .fresh).barriers,
      b.completedAt.isSome ∧ CaughtUp (Sample.plainPlatform Sample.clearingDigests)
        Sample.clearing "index" b.deleteCommitSeq := by
  have hcomplete : ((run (Sample.plainPlatform Sample.clearingDigests) Sample.clearing
      .fresh).barriers.any fun b => b.completedAt.isSome) = true := by decide +kernel
  obtain ⟨b, hb, hdone⟩ := Table.any_iff.mp hcomplete
  have hregistered : ∀ c ∈ commits (Sample.plainPlatform Sample.clearingDigests) Sample.clearing
      .fresh, ∀ id seq, c.Deletes (Sample.plainPlatform Sample.clearingDigests) id seq →
      ∃ consumer ∈ c.before.outboxConsumers, consumer.consumerId = "index" := by
    rintro c hc id seq ⟨d, f, -, hoperation, -⟩
    rcases List.mem_cons.mp hc with rfl | hc
    · cases (Operation.call.inj hoperation).1
    · have hany : (c.before.outboxConsumers.any fun c => c.consumerId == "index") = true := by
        rw [List.mem_singleton.mp hc]
        decide +kernel
      obtain ⟨consumer, hconsumer, hid⟩ := Table.any_iff.mp hany
      exact ⟨consumer, hconsumer, beq_iff_eq.mp hid⟩
  obtain ⟨c, hc, hdeletes, -, hcaught⟩ :=
    barriers_clear_when_caught_up Sample.clearing Sample.issued_clearing b hb hdone
  obtain ⟨consumer, hconsumer, hid⟩ := hregistered c hc _ _ hdeletes
  exact ⟨b, hb, hdone, hid ▸ hcaught consumer hconsumer⟩

end MagicContext.Kernel
