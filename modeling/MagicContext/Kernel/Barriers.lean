import MagicContext.Kernel.Backlog

/-!
# Deletion barriers

A deletion opens a barrier, or raises the open barrier of its digest, and writes down every
consumer that is registered at that moment with the number of its own commit.  A consumer is done
with when its checkpoint has reached the number or when an operator has abandoned it; it cannot
leave in any other way before it has caught up.

## What is here

* `Issued` — the commits the program makes: closures over the methods of the envelope, and the
  commits of ingest and deletion.
* `Awaiting` — the invariant of the three places that record that a consumer is done with.
* `keepsWaiting_call` — every call but a deletion keeps it.
* `DeletedTo` and `Awaiting.delete` — what a deletion does, and that it keeps the invariant.
-/

namespace MagicContext.Kernel

open Transaction Table BarrierConsumerRow

variable {sys : Platform}

/-! ## What the program commits -/

/-- The methods of the envelope, without the bodies of ingest and deletion. -/
def Call.isPublic : Call → Bool
  | insertReference _ | deleteArtifact _ => false
  | _ => true

/-- A closure over the methods of the envelope. -/
inductive Operation.Public : Operation → Prop
  | ret (result : Except KernelError String) : Public (.ret result)
  | call (c : Call) (next : Except KernelError Reply → Operation) (hc : c.isPublic = true)
      (hnext : ∀ outcome, Public (next outcome)) : Public (.call c next)

/-- The closure of an ingest or a deletion, which passes the error of its body on. -/
def bodyOperation (body : Call) (result : Reply → String) : Operation :=
  .call body fun outcome => .ret (result <$> outcome)

/-- The barrier of a deletion: the open one of the digest, or a new one. -/
def barrierFor (digest unique : String) (db : Db) : String :=
  match db.barriers.rows.find? fun b => b.artifactDigest == digest && b.completedAt.isNone with
  | some b => b.barrierId
  | none => s!"artifact-deletion-{digest}-{unique}"

/-- A commit the program makes on a store.  A deletion chooses its barrier under the lock of the
writer, before the transaction. -/
inductive CommitCall.Issued (call : CommitCall) (db : Db) : Prop
  | closure (h : call.operation.Public) : Issued call db
  | ingest (a : PreparedArtifact) (result : Reply → String)
      (h : call.operation = bodyOperation (.insertReference a) result) : Issued call db
  | deletion (d : ArtifactDeletion) (result : Reply → String) (unique : String)
      (hbarrier : d.barrierId = barrierFor d.digest unique db)
      (h : call.operation = bodyOperation (.deleteArtifact d) result) : Issued call db

variable (sys) in
/-- Every commit of the run is one the program makes. -/
def Issued (actions : List Action) (db : Db) : Prop :=
  ∀ c ∈ commits sys actions db, c.call.Issued c.before

theorem Operation.Public.calls {operation : Operation} (h : operation.Public) {s : Session}
    {k : Called} (hk : k ∈ operation.calls sys s) : k.call.isPublic = true := by
  induction h generalizing s with
  | ret => cases hk
  | call c next hc _ ih =>
    rcases List.mem_cons.mp hk with rfl | hk
    · exact hc
    · exact ih _ hk

/-! ## The invariant -/

/-- Which consumers a barrier requires. -/
def BarrierConsumerRow.requirement (bc : BarrierConsumerRow) : String × String × Nat :=
  (bc.barrierId, bc.consumerId, bc.requiredCheckpointCommitSeq)

theorem BarrierConsumerRow.requirement_eq {bc bc' : BarrierConsumerRow}
    (h : bc'.requirement = bc.requirement) : bc'.barrierId = bc.barrierId ∧
      bc'.consumerId = bc.consumerId ∧
      bc'.requiredCheckpointCommitSeq = bc.requiredCheckpointCommitSeq := by
  simpa only [requirement, Prod.mk.injEq] using h

/-- What a barrier is about. -/
def BarrierRow.identity (b : BarrierRow) : String × String × Nat :=
  (b.barrierId, b.artifactDigest, b.deleteCommitSeq)

/-- The barriers and their requirements, which only a deletion changes. -/
def Db.requirements (db : Db) : List (String × String × Nat) × List (String × String × Nat) :=
  (db.barriers.rows.map BarrierRow.identity,
    db.barrierConsumers.rows.map BarrierConsumerRow.requirement)

/-- `Done consumer seq` is known of every consumer that some row says is done with `seq`. -/
structure Awaiting (Done : String → Nat → Prop) (db : Db) : Prop where
  acked : ∀ bc ∈ db.barrierConsumers, bc.acknowledgedAt.isSome →
    Done bc.consumerId bc.requiredCheckpointCommitSeq
  gone : ∀ a ∈ db.abandonments, ∀ seq ≤ a.commitSeq, Done a.consumerId seq
  caught : ∀ bc ∈ db.barrierConsumers, ∀ c ∈ db.outboxConsumers, c.consumerId = bc.consumerId →
    bc.requiredCheckpointCommitSeq ≤ c.checkpointCommitSeq →
    Done bc.consumerId bc.requiredCheckpointCommitSeq
  /-- A consumer that is not done with is still registered. -/
  waiting : ∀ bc ∈ db.barrierConsumers, Done bc.consumerId bc.requiredCheckpointCommitSeq ∨
    ∃ c ∈ db.outboxConsumers, c.consumerId = bc.consumerId
  complete : ∀ b ∈ db.barriers, b.completedAt.isSome → ∀ bc ∈ db.barrierConsumers,
    bc.barrierId = b.barrierId → Done bc.consumerId bc.requiredCheckpointCommitSeq
  /-- A digest has one open barrier. -/
  oneOpen : ∀ b ∈ db.barriers, ∀ b' ∈ db.barriers, b.artifactDigest = b'.artifactDigest →
    b.completedAt = none → b'.completedAt = none → b = b'

section Awaiting
variable {Done Done' : String → Nat → Prop} {db : Db}

theorem Awaiting.mono (h : Awaiting Done db) (hmono : ∀ id seq, Done id seq → Done' id seq) :
    Awaiting Done' db where
  acked bc hbc hack := hmono _ _ (h.acked bc hbc hack)
  gone a ha seq hle := hmono _ _ (h.gone a ha seq hle)
  caught bc hbc c hc hid hle := hmono _ _ (h.caught bc hbc c hc hid hle)
  waiting bc hbc := (h.waiting bc hbc).imp_left (hmono _ _)
  complete b hb hdone bc hbc hid := hmono _ _ (h.complete b hb hdone bc hbc hid)
  oneOpen := h.oneOpen

/-- The tables the invariant is about. -/
structure BarrierTables where
  barriers : Table BarrierRow.barrierId
  barrierConsumers : Table fun r : BarrierConsumerRow => (r.barrierId, r.consumerId)
  abandonments : Table AbandonmentRow.abandonmentId
  outboxConsumers : Table ConsumerRow.consumerId

def Db.barrierTables (db : Db) : BarrierTables :=
  ⟨db.barriers, db.barrierConsumers, db.abandonments, db.outboxConsumers⟩

section
variable (h : Awaiting Done db)
include h

theorem Awaiting.of_tables {db' : Db} (heq : db'.barrierTables = db.barrierTables) :
    Awaiting Done db' := by
  have hbarriers : db'.barriers = db.barriers := congrArg BarrierTables.barriers heq
  have hrows : db'.barrierConsumers = db.barrierConsumers :=
    congrArg BarrierTables.barrierConsumers heq
  have habandonments : db'.abandonments = db.abandonments :=
    congrArg BarrierTables.abandonments heq
  have hconsumers : db'.outboxConsumers = db.outboxConsumers :=
    congrArg BarrierTables.outboxConsumers heq
  obtain ⟨hacked, hgone, hcaught, hwaiting, hcomplete, hone⟩ := h
  constructor <;> simp only [hbarriers, hrows, habandonments, hconsumers] <;> assumption

/-! ## Completion -/

/-- Consumers that have caught up acknowledge. -/
theorem Awaiting.acknowledge (time : Int) : Awaiting Done (acknowledgedBarriers time db) := by
  have hold : ∀ bc' ∈ (acknowledgedBarriers time db).barrierConsumers, ∃ bc ∈ db.barrierConsumers,
      bc'.requirement = bc.requirement ∧ (bc'.acknowledgedAt.isSome → bc.acknowledgedAt.isSome ∨
        (db.outboxConsumers.get bc.consumerId).any fun c =>
          decide (bc.requiredCheckpointCommitSeq ≤ c.checkpointCommitSeq)) := by
    intro bc' hbc'
    obtain ⟨bc, hbc, rfl⟩ := List.mem_map.mp (mem_rows.mp hbc')
    refine ⟨bc, hbc, ?_⟩
    split
    · rename_i hhit
      exact ⟨rfl, fun _ => .inr (Bool.and_eq_true_iff.mp hhit).2⟩
    · exact ⟨rfl, .inl⟩
  constructor
  · intro bc' hbc' hack
    obtain ⟨bc, hbc, hreq, hfrom⟩ := hold bc' hbc'
    obtain ⟨-, hid, hseq⟩ := requirement_eq hreq
    rw [hid, hseq]
    rcases hfrom hack with hack | hreached
    · exact h.acked bc hbc hack
    · obtain ⟨c, hc, hle⟩ := (Option.any_eq_true _ _).mp hreached
      obtain ⟨hmem, hcid⟩ := get_eq_some.mp hc
      exact h.caught bc hbc c hmem hcid (of_decide_eq_true hle)
  · exact h.gone
  · intro bc' hbc' c hc hid' hle
    obtain ⟨bc, hbc, hreq, -⟩ := hold bc' hbc'
    obtain ⟨-, hid, hseq⟩ := requirement_eq hreq
    rw [hid, hseq]
    exact h.caught bc hbc c hc (hid'.trans hid) (hseq ▸ hle)
  · intro bc' hbc'
    obtain ⟨bc, hbc, hreq, -⟩ := hold bc' hbc'
    obtain ⟨-, hid, hseq⟩ := requirement_eq hreq
    rw [hid, hseq]
    exact h.waiting bc hbc
  · intro b hb hdone bc' hbc' hid'
    obtain ⟨bc, hbc, hreq, -⟩ := hold bc' hbc'
    obtain ⟨hbarrier, hid, hseq⟩ := requirement_eq hreq
    rw [hid, hseq]
    exact h.complete b hb hdone bc hbc (hbarrier.symm.trans hid')
  · exact h.oneOpen

/-- Each of the three ways to be satisfied shows that a consumer is done with. -/
theorem Awaiting.satisfied {b : BarrierRow}
    (hsat : barrierSatisfied db b = true) {bc : BarrierConsumerRow}
    (hbc : bc ∈ db.barrierConsumers) (hid : bc.barrierId = b.barrierId) :
    Done bc.consumerId bc.requiredCheckpointCommitSeq := by
  rw [barrierSatisfied, Bool.and_eq_true, Bool.not_eq_true'] at hsat
  have hnone := any_eq_false.mp hsat.2 bc hbc
  simp only [hid, beq_self_eq_true, Bool.true_and, Bool.and_eq_false_iff, Bool.not_eq_false']
    at hnone
  rcases hnone with (hack | hbehind) | habandoned
  · exact h.acked bc hbc (by cases hat : bc.acknowledgedAt <;> simp_all)
  · split at hbehind
    · rename_i c hc
      obtain ⟨hmem, hcid⟩ := get_eq_some.mp hc
      exact h.caught bc hbc c hmem hcid (Nat.not_lt.mp (of_decide_eq_false hbehind))
    · cases hbehind
  · obtain ⟨a, ha, hmatch⟩ := any_iff.mp habandoned
    simp only [Bool.and_eq_true, beq_iff_eq, decide_eq_true_eq] at hmatch
    rw [← hmatch.1.2]
    exact h.gone a ha _ hmatch.2

/-- Some barriers become complete. -/
theorem Awaiting.close {p : BarrierRow → Bool} (time : Int)
    (hp : ∀ b ∈ db.barriers, p b = true → ∀ bc ∈ db.barrierConsumers, bc.barrierId = b.barrierId →
      Done bc.consumerId bc.requiredCheckpointCommitSeq) {t : Table BarrierRow.barrierId}
    (ht : t.rows = db.barriers.rows.map fun b =>
      if p b then { b with completedAt := some time } else b) :
    Awaiting Done { db with barriers := t } := by
  have hold : ∀ b' ∈ t, ∃ b ∈ db.barriers,
      b' = if p b then { b with completedAt := some time } else b := by
    intro b' hb'
    rw [mem_rows, ht] at hb'
    obtain ⟨b, hb, rfl⟩ := List.mem_map.mp hb'
    exact ⟨b, hb, rfl⟩
  refine ⟨h.acked, h.gone, h.caught, h.waiting, ?_, ?_⟩
  · intro b' hb' hdone bc hbc hid
    obtain ⟨b, hb, rfl⟩ := hold b' hb'
    by_cases hpb : p b = true
    · rw [if_pos hpb] at hid
      exact hp b hb hpb bc hbc hid
    · rw [if_neg hpb] at hdone hid
      exact h.complete b hb hdone bc hbc hid
  · intro b' hb' b₂' hb₂' hdigest hopen hopen₂
    obtain ⟨b, hb, rfl⟩ := hold b' hb'
    obtain ⟨b₂, hb₂, rfl⟩ := hold b₂' hb₂'
    split at hopen
    · cases hopen
    · split at hopen₂
      · cases hopen₂
      · rename_i hpb hpb₂
        rw [if_neg hpb, if_neg hpb₂] at hdigest ⊢
        exact h.oneOpen b hb b₂ hb₂ hdigest hopen hopen₂

/-- **`complete_satisfied_barriers`** completes only barriers whose consumers are done with. -/
theorem Awaiting.completeBarriers (time : Int) : Awaiting Done (completeBarriers time db) := by
  have hack := h.acknowledge time
  refine hack.close time (fun b _ hp bc hbc hid => ?_) rfl
  exact hack.satisfied (Bool.and_eq_true_iff.mp hp).2 hbc hid

end

/-! ## Calls -/

theorem requirements_completeBarriers (time : Int) (db : Db) :
    (completeBarriers time db).requirements = db.requirements := by
  refine Prod.ext ?_ ?_
  · change (db.barriers.rows.map _).map _ = _
    rw [List.map_map]
    refine List.map_congr_left fun b _ => ?_
    rw [Function.comp_apply]
    split <;> rfl
  · change (db.barrierConsumers.rows.map _).map _ = _
    rw [List.map_map]
    refine List.map_congr_left fun bc _ => ?_
    rw [Function.comp_apply]
    split <;> rfl

/-- The invariant inside a commit whose closure is over the methods. -/
structure AwaitingIn (Done : String → Nat → Prop) (s : Session) : Prop
    extends Awaiting Done s.envelope.tx where
  /-- The required numbers are those of earlier commits. -/
  logged : ∀ bc ∈ s.envelope.tx.barrierConsumers, ∃ r ∈ s.envelope.tx.commitLog,
    r.commitSeq = bc.requiredCheckpointCommitSeq ∧ r.commitSeq < s.envelope.commitSeq

theorem logged_of_requirements {s s' : Session}
    (h : ∀ bc ∈ s.envelope.tx.barrierConsumers, ∃ r ∈ s.envelope.tx.commitLog,
      r.commitSeq = bc.requiredCheckpointCommitSeq ∧ r.commitSeq < s.envelope.commitSeq)
    (hseq : s'.envelope.commitSeq = s.envelope.commitSeq)
    (hlog : s'.envelope.tx.commitLog = s.envelope.tx.commitLog)
    (hreq : s'.envelope.tx.requirements = s.envelope.tx.requirements) :
    ∀ bc ∈ s'.envelope.tx.barrierConsumers, ∃ r ∈ s'.envelope.tx.commitLog,
      r.commitSeq = bc.requiredCheckpointCommitSeq ∧ r.commitSeq < s'.envelope.commitSeq := by
  intro bc' hbc'
  have hmem : bc'.requirement ∈ s.envelope.tx.requirements.2 :=
    hreq ▸ List.mem_map_of_mem hbc'
  obtain ⟨bc, hbc, heq⟩ := List.mem_map.mp hmem
  obtain ⟨-, -, hrequired⟩ := requirement_eq heq
  rw [hlog, hseq, ← hrequired]
  exact h bc hbc

/-- What a method does to the barriers when its call succeeds. -/
structure KeepsWaiting (Done : String → Nat → Prop) (s s' : Session) : Prop where
  commitSeq : s'.envelope.commitSeq = s.envelope.commitSeq
  commitLog : s'.envelope.tx.commitLog = s.envelope.tx.commitLog
  requirements : s'.envelope.tx.requirements = s.envelope.tx.requirements
  awaiting : AwaitingIn Done s → Awaiting Done s'.envelope.tx

theorem KeepsWaiting.refl (s : Session) : KeepsWaiting Done s s :=
  ⟨rfl, rfl, rfl, fun h => h.toAwaiting⟩

theorem KeepsWaiting.awaitingIn {s s' : Session} (h : KeepsWaiting Done s s')
    (hs : AwaitingIn Done s) : AwaitingIn Done s' :=
  ⟨h.awaiting hs, logged_of_requirements hs.logged h.commitSeq h.commitLog h.requirements⟩

theorem KeepsWaiting.trans {s s' s'' : Session} (h : KeepsWaiting Done s s')
    (h' : KeepsWaiting Done s' s'') : KeepsWaiting Done s s'' where
  commitSeq := h'.commitSeq.trans h.commitSeq
  commitLog := h'.commitLog.trans h.commitLog
  requirements := h'.requirements.trans h.requirements
  awaiting hs := h'.awaiting (h.awaitingIn hs)

/-- A consumer that registers again is done with wherever a barrier still names it. -/
theorem Awaiting.register (h : Awaiting Done db) {t : Table ConsumerRow.consumerId}
    {c : ConsumerRow} (hinsert : db.outboxConsumers.insert c = some t) :
    Awaiting Done { db with outboxConsumers := t } := by
  have hnew := get_eq_none.mp (insert_eq_some.mp hinsert).1
  refine ⟨h.acked, h.gone, fun bc hbc c' hc' hid hle => ?_, fun bc hbc => ?_, h.complete, h.oneOpen⟩
  · rcases (mem_insert hinsert).mp hc' with hc' | rfl
    · exact h.caught bc hbc c' hc' hid hle
    · rcases h.waiting bc hbc with hdone | ⟨c₁, hc₁, hid₁⟩
      · exact hdone
      · exact absurd (hid₁.trans hid.symm) (hnew c₁ hc₁)
  · rcases h.waiting bc hbc with hdone | ⟨c₁, hc₁, hid₁⟩
    · exact .inl hdone
    · exact .inr ⟨c₁, (mem_insert hinsert).mpr (.inl hc₁), hid₁⟩

/-- A consumer may leave when every barrier that names it is done with it. -/
theorem Awaiting.leave (h : Awaiting Done db) {id : String}
    (hdone : ∀ bc ∈ db.barrierConsumers, bc.consumerId = id →
      Done bc.consumerId bc.requiredCheckpointCommitSeq) :
    Awaiting Done
      { db with outboxConsumers := db.outboxConsumers.delete fun r => r.consumerId == id } := by
  refine ⟨h.acked, h.gone, fun bc hbc c hc => h.caught bc hbc c (mem_delete.mp hc).1,
    fun bc hbc => ?_, h.complete, h.oneOpen⟩
  by_cases hid : bc.consumerId = id
  · exact .inl (hdone bc hbc hid)
  · rcases h.waiting bc hbc with hdone | ⟨c, hc, hcid⟩
    · exact .inl hdone
    · exact .inr ⟨c, mem_delete.mpr ⟨hc, beq_eq_false_iff_ne.mpr (hcid ▸ hid)⟩, hcid⟩

/-- Checkpoints may move up, to where their consumers have got. -/
theorem Awaiting.raise (h : Awaiting Done db) {t : Table ConsumerRow.consumerId}
    (hreached : ∀ c ∈ t, ∀ seq ≤ c.checkpointCommitSeq, Done c.consumerId seq)
    (hstays : ∀ c ∈ db.outboxConsumers, ∃ c' ∈ t, c'.consumerId = c.consumerId) :
    Awaiting Done { db with outboxConsumers := t } := by
  refine ⟨h.acked, h.gone, fun bc hbc c hc hid hle => ?_, fun bc hbc => ?_, h.complete, h.oneOpen⟩
  · rw [← hid]
    exact hreached c hc _ hle
  · rcases h.waiting bc hbc with hdone | ⟨c, hc, hid⟩
    · exact .inl hdone
    · obtain ⟨c', hc', hid'⟩ := hstays c hc
      exact .inr ⟨c', hc', hid'.trans hid⟩

/-- The rows an abandonment leaves say that one consumer is gone. -/
theorem mem_abandonmentRows {row a : AbandonmentRow} (ha : a ∈ abandonmentRows db row) :
    a.consumerId = row.consumerId ∧ a.commitSeq = row.commitSeq := by
  have hbarriers : a ∈ abandonedBarriers db row →
      a.consumerId = row.consumerId ∧ a.commitSeq = row.commitSeq := by
    intro ha
    obtain ⟨_, -, rfl⟩ := List.mem_map.mp ha
    exact ⟨rfl, rfl⟩
  rw [abandonmentRows] at ha
  split at ha
  · rw [List.mem_singleton.mp ha]
    exact ⟨rfl, rfl⟩
  · exact hbarriers ha

theorem Awaiting.abandon (h : Awaiting Done db) {t : Table AbandonmentRow.abandonmentId}
    {row : AbandonmentRow} (ht : t.rows = db.abandonments.rows ++ abandonmentRows db row)
    (hdone : ∀ seq ≤ row.commitSeq, Done row.consumerId seq) :
    Awaiting Done { db with abandonments := t } := by
  refine ⟨h.acked, fun a ha seq hle => ?_, h.caught, h.waiting, h.complete, h.oneOpen⟩
  rw [mem_rows, ht, List.mem_append] at ha
  rcases ha with ha | ha
  · exact h.gone a ha seq hle
  · obtain ⟨hid, hseq⟩ := mem_abandonmentRows ha
    rw [hid]
    exact hdone seq (hseq ▸ hle)

/-- Only deletions and the methods on consumers reach these tables. -/
theorem barrierTables_of_call {c : Call} (hc : c.controls = false)
    (hdelete : ∀ d, c ≠ .deleteArtifact d) (s : Session) :
    (final (c.run sys) s).envelope.tx.barrierTables = s.envelope.tx.barrierTables := by
  refine (attempts_call c s).agree Db.barrierTables fun w db db' hw hdb => ?_
  have hslice : ∀ {w seq}, SliceWrites seq w → db.ChangesOnly w.target db' →
      db'.barrierTables = db.barrierTables := by
    intro w seq hw hdb
    cases hw with
    | invalidateTyped table | succeedTyped table => cases table <;> cases hdb <;> rfl
    | admission w hw => cases hw <;> cases hdb <;> rfl
    | _ => cases hdb; rfl
  have hdomain : ∀ {w seq}, DomainWrites seq w → db.ChangesOnly w.target db' →
      db'.barrierTables = db.barrierTables := by
    intro w seq hw hdb
    cases hw <;> cases hdb <;> rfl
  cases c with
  | registerOutboxConsumer | deregisterOutboxConsumer | abandonOutboxConsumer
  | abandonDeletionBarrier => cases hc
  | deleteArtifact d => exact absurd rfl (hdelete d)
  | insertReference => cases hw <;> cases hdb <;> rfl
  | insertDomain | correctDomain | retireDomain | remediateText => exact hdomain hw hdb
  | recordAdmission | admitDomainCandidate | supersedeDomain =>
    cases hw with
    | domain hw => exact hdomain hw hdb
    | slice hw => exact hslice hw hdb
  | _ => exact hslice hw hdb

/-- **A call that deletes nothing** keeps the invariant, in a commit that succeeds; an abandonment
may say that its consumer is done with. -/
theorem keepsWaiting_call {k : Called} (hdelete : ∀ d, k.call ≠ .deleteArtifact d)
    (hok : k.call.poisons = true → k.failed sys = false)
    (habandon : ∀ id a unique, k.call = .abandonOutboxConsumer id a unique →
      ∀ seq ≤ k.before.envelope.commitSeq, Done id seq) :
    KeepsWaiting Done k.before (final (k.call.run sys) k.before) := by
  obtain ⟨c, s⟩ := k
  have hattempts := @attempts_call sys c s
  have hlog := (commitLog_of_attempts (hattempts.mono fun _ _ => Call.writes_operation)).1
  by_cases hc : c.controls = true
  · obtain ⟨reply, hrun⟩ := Called.run_eq_ok (hok (Call.poisons_of_controls hc))
    cases c with
    | registerOutboxConsumer id time =>
      obtain ⟨t, hinsert, htx⟩ := register_eq_ok hrun
      refine ⟨hattempts.commitSeq, hlog, by rw [htx]; rfl, fun h => ?_⟩
      rw [htx]
      exact h.register hinsert
    | deregisterOutboxConsumer id time =>
      obtain ⟨c, hget, hle, htx⟩ := deregister_eq_ok hrun
      obtain ⟨hc, hcid⟩ := get_eq_some.mp hget
      refine ⟨hattempts.commitSeq, hlog, ?_, fun h => ?_⟩
      · rw [htx]
        exact requirements_completeBarriers time _
      · rw [htx]
        refine (h.completeBarriers time).leave fun bc' hbc' hid => ?_
        have hmem : bc'.requirement ∈ s.envelope.tx.requirements.2 :=
          requirements_completeBarriers time s.envelope.tx ▸ List.mem_map_of_mem hbc'
        obtain ⟨bc, hbc, heq⟩ := List.mem_map.mp hmem
        obtain ⟨-, hconsumer, hrequired⟩ := requirement_eq heq
        obtain ⟨r, hr, hrseq, hlt⟩ := h.logged bc hbc
        rw [← hconsumer, ← hrequired]
        refine h.caught bc hbc c hc (hcid.trans (hconsumer.trans hid).symm) ?_
        rw [← hrseq]
        exact (le_preOperationTip hr hlt).trans hle
    | abandonOutboxConsumer id a unique =>
      obtain ⟨c, row, t, -, hid, hseq, ht, htx⟩ := abandon_eq_ok hrun
      have hdone := habandon id a unique rfl
      refine ⟨hattempts.commitSeq, hlog, ?_, fun h => ?_⟩
      · rw [htx]
        exact requirements_completeBarriers _ _
      · rw [htx]
        have habandoned := h.toAwaiting.abandon ht fun seq hle => by
          rw [hid]
          exact hdone seq (hseq ▸ hle)
        refine (habandoned.leave fun bc hbc hbcid => ?_).completeBarriers a.abandonedAt
        obtain ⟨r, -, hrseq, hlt⟩ := h.logged bc hbc
        rw [hbcid, ← hrseq]
        exact hdone _ hlt.le
    | abandonDeletionBarrier barrierId operatorId reason time =>
      obtain ⟨hnone, htx⟩ := abandonBarrier_eq_ok hrun
      refine ⟨hattempts.commitSeq, hlog, ?_, fun h => ?_⟩
      · rw [htx]
        refine Prod.ext ?_ rfl
        change (s.envelope.tx.barriers.rows.map _).map _ = _
        rw [List.map_map]
        refine List.map_congr_left fun b _ => ?_
        rw [Function.comp_apply]
        split <;> rfl
      · rw [htx]
        refine h.toAwaiting.close time (fun b _ hp bc hbc hid => ?_) rfl
        exact absurd (hid.trans (beq_iff_eq.mp (Bool.and_eq_true_iff.mp hp).1)) (hnone bc hbc)
    | _ => cases hc
  · have htables := @barrierTables_of_call sys c (Bool.not_eq_true _ ▸ hc) hdelete s
    have hbarriers := congrArg BarrierTables.barriers htables
    have hrows := congrArg BarrierTables.barrierConsumers htables
    refine ⟨hattempts.commitSeq, hlog, ?_, fun h => h.toAwaiting.of_tables htables⟩
    dsimp only [Db.barrierTables] at hbarriers hrows
    rw [Db.requirements, Db.requirements, hbarriers, hrows]

end Awaiting

/-! ## Deletions -/

/-- The row of a barrier a deletion opens. -/
def ArtifactDeletion.barrier (d : ArtifactDeletion) (seq : Nat) : BarrierRow where
  barrierId := d.barrierId
  artifactDigest := d.digest
  artifactReference := d.artifactReference
  deleteCommitSeq := seq
  createdAt := d.deletedAt
  completedAt := none

/-- What a deletion does to the barriers: it raises the open one, or opens one. -/
def Raises (d : ArtifactDeletion) (seq : Nat) (before after : Table BarrierRow.barrierId) : Prop :=
  let isOpen := fun b : BarrierRow => b.artifactDigest == d.digest && b.completedAt.isNone
  (before.any isOpen = true ∧ after.rows = before.rows.map fun b =>
    if isOpen b then { b with deleteCommitSeq := seq, createdAt := d.deletedAt } else b) ∨
  before.any isOpen = false ∧ before.insert (d.barrier seq) = some after

theorem raises_of_upsert {d : ArtifactDeletion} {seq rows : Nat} {db db' : Db}
    (h : (Write.upsertBarrier (d.barrier seq)).apply db = .ok (db', rows)) :
    ∃ t, Raises d seq db.barriers t ∧ db' = { db with barriers := t } := by
  rw [Write.apply] at h
  split at h
  · cases h
  · dsimp only at h
    split at h
    · rename_i hopen
      split at h
      · cases h
      · cases h
        exact ⟨_, .inl ⟨hopen, rfl⟩, rfl⟩
    · rename_i hopen
      obtain ⟨t, hinsert, heq⟩ := Checks.bind_eq_ok.mp h
      cases heq
      exact ⟨t, .inr ⟨Bool.not_eq_true _ ▸ hopen, (insertRow_eq_ok.mp hinsert).2⟩, rfl⟩

/-- The requirement a deletion writes down for a consumer. -/
def ArtifactDeletion.requires (d : ArtifactDeletion) (seq : Nat) (c : ConsumerRow) :
    BarrierConsumerRow where
  barrierId := d.barrierId
  consumerId := c.consumerId
  requiredCheckpointCommitSeq := seq
  acknowledgedAt := none

/-- What a deletion leaves in the tables of the barriers. -/
structure DeletedTo (d : ArtifactDeletion) (seq : Nat) (db db' : Db) : Prop where
  barriers : Raises d seq db.barriers db'.barriers
  barrierConsumers : db'.barrierConsumers.rows =
    (db.barrierConsumers.rows.filter fun bc => !(bc.barrierId == d.barrierId)) ++
      db.outboxConsumers.rows.map (d.requires seq)
  abandonments : db'.abandonments = db.abandonments
  outboxConsumers : db'.outboxConsumers = db.outboxConsumers

theorem upsertBarrier_eq_ok {d : ArtifactDeletion} {s s' : Session} {u : Unit}
    (h : upsertBarrier d s = .ok u s') :
    DeletedTo d s.envelope.commitSeq s.envelope.tx s'.envelope.tx := by
  rw [upsertBarrier, commitSeq_bind] at h
  obtain ⟨rows, s₂, hupsert, h⟩ := bind_eq_ok.mp h
  obtain ⟨-, tx, happly, rfl⟩ := exec_eq_ok.mp (execIo_eq_ok.mp hupsert)
  obtain ⟨t, hraises, rfl⟩ := raises_of_upsert happly
  obtain ⟨rows, s₃, hclear, h⟩ := bind_eq_ok.mp h
  obtain ⟨-, tx, happly, rfl⟩ := exec_eq_ok.mp (execIo_eq_ok.mp hclear)
  cases happly
  obtain ⟨rows, s₄, hrequire, h⟩ := bind_eq_ok.mp h
  obtain ⟨-, tx, happly, rfl⟩ := exec_eq_ok.mp (execIo_eq_ok.mp hrequire)
  obtain ⟨t', hinsert, heq⟩ := Checks.bind_eq_ok.mp happly
  cases heq
  obtain ⟨-, rfl⟩ := EStateM.Result.ok.inj h
  exact ⟨hraises, insertRows_rows hinsert, rfl, rfl⟩

/-- The other statements of a deletion are about other tables. -/
theorem barrierTables_of_deletionWrites {s s' : Session} (h : Evolves DeletionWrites s s') :
    s'.envelope.tx.barrierTables = s.envelope.tx.barrierTables :=
  h.agree Db.barrierTables fun _ _ _ hw hdb => by cases hw <;> cases hdb <;> rfl

/-- **A deletion that succeeds** has written down the registered consumers. -/
theorem deleteArtifact_eq_ok {d : ArtifactDeletion} {s s' : Session} {reply : Reply}
    (h : (Call.deleteArtifact d).run sys s = .ok reply s') :
    DeletedTo d s.envelope.commitSeq s.envelope.tx s'.envelope.tx := by
  obtain ⟨u, h, -⟩ := map_eq_ok.mp h
  rw [deleteArtifact, commitSeq_bind] at h
  obtain ⟨rows, -, h⟩ := query_bind_eq_ok h
  obtain ⟨_, s₃, hinvalidate, h⟩ := bind_eq_ok.mp h
  have hfirst := (evolves_invalidateReferences _ _).ok hinvalidate
  have hfirst : Evolves DeletionWrites s.advance s₃ :=
    .of hfirst.commitSeq (Relation.ReflTransGen.mono
      (fun _ _ h => executes_mono (fun _ hw => hw rfl) h) _ _ hfirst.tx) hfirst.samePoison
      hfirst.written hfirst.told
  obtain ⟨_, s₄, hupsert, h⟩ := bind_eq_ok.mp h
  obtain ⟨_, s₅, hpurge, h⟩ := bind_eq_ok.mp h
  have hlast := (evolves_purgeRows d).ok hpurge
  have hpush := (evolves_forM (P := DeletionWrites) (fun _ => evolves_pushChange _) _).ok h
  have hbefore := barrierTables_of_deletionWrites hfirst
  have hafter := barrierTables_of_deletionWrites (hlast.trans hpush)
  obtain ⟨hraises, hconsumers, habandonments, hregistered⟩ := upsertBarrier_eq_ok hupsert
  rw [hfirst.commitSeq] at hraises hconsumers
  simp only [Db.barrierTables, BarrierTables.mk.injEq, advance_envelope] at hbefore hafter
  obtain ⟨hb₁, hb₂, hb₃, hb₄⟩ := hbefore
  obtain ⟨ha₁, ha₂, ha₃, ha₄⟩ := hafter
  constructor
  · rw [ha₁, ← hb₁]
    exact hraises
  · rw [ha₂, ← hb₂, ← hb₄]
    exact hconsumers
  · rw [ha₃, habandonments, hb₃]
  · rw [ha₄, hregistered, hb₄]

section Deletion
variable {Done : String → Nat → Prop} {d : ArtifactDeletion} {seq : Nat} {db db' : Db}
  {unique : String}

/-- The barrier a deletion chose is the open one of its digest afterwards. -/
theorem Raises.opens {t : Table BarrierRow.barrierId}
    (hone : ∀ b ∈ db.barriers, ∀ b' ∈ db.barriers, b.artifactDigest = b'.artifactDigest →
      b.completedAt = none → b'.completedAt = none → b = b')
    (hbarrier : d.barrierId = barrierFor d.digest unique db) (h : Raises d seq db.barriers t) :
    (∃ b ∈ t, b.barrierId = d.barrierId ∧ b.artifactDigest = d.digest ∧
      b.deleteCommitSeq = seq ∧ b.completedAt = none) ∧
    ∀ b ∈ t, b.barrierId ≠ d.barrierId → b ∈ db.barriers ∧
      (b.artifactDigest = d.digest → b.completedAt.isSome) := by
  rcases h with ⟨hopen, hrows⟩ | ⟨hclosed, hinsert⟩
  · obtain ⟨b₀, hb₀, hb₀open⟩ := any_iff.mp hopen
    have hfind : (db.barriers.rows.find? fun b =>
        b.artifactDigest == d.digest && b.completedAt.isNone).isSome :=
      List.find?_isSome.mpr ⟨b₀, hb₀, hb₀open⟩
    obtain ⟨b₁, hb₁⟩ := Option.isSome_iff_exists.mp hfind
    have hmem : b₁ ∈ db.barriers := List.mem_of_find?_eq_some hb₁
    have hopen₁ := List.find?_some hb₁
    have hid : d.barrierId = b₁.barrierId := by rw [hbarrier, barrierFor, hb₁]
    have hopen₁' : b₁.artifactDigest = d.digest ∧ b₁.completedAt = none := by
      simpa [Option.isNone_iff_eq_none] using hopen₁
    refine ⟨⟨{ b₁ with deleteCommitSeq := seq, createdAt := d.deletedAt }, ?_, hid.symm,
      hopen₁'.1, rfl, hopen₁'.2⟩, fun b hb hne => ?_⟩
    · rw [mem_rows, hrows, List.mem_map]
      exact ⟨b₁, hmem, if_pos hopen₁⟩
    · rw [mem_rows, hrows] at hb
      obtain ⟨b', hb', rfl⟩ := List.mem_map.mp hb
      by_cases hopen' : (b'.artifactDigest == d.digest && b'.completedAt.isNone) = true
      · rw [if_pos hopen'] at hne
        have hopen'' : b'.artifactDigest = d.digest ∧ b'.completedAt = none := by
          simpa [Option.isNone_iff_eq_none] using hopen'
        have hsame := hone b' hb' b₁ hmem (hopen''.1.trans hopen₁'.1.symm) hopen''.2 hopen₁'.2
        exact absurd (hsame ▸ hid.symm) hne
      · rw [if_neg hopen']
        refine ⟨hb', fun hdigest => ?_⟩
        by_contra hnone
        exact hopen' (by simp_all)
  · refine ⟨⟨d.barrier seq, ?_, rfl, rfl, rfl, rfl⟩, fun b hb hne => ?_⟩
    · exact (mem_insert hinsert).mpr (.inr rfl)
    · rcases (mem_insert hinsert).mp hb with hb | rfl
      · refine ⟨hb, fun hdigest => ?_⟩
        have hnot := any_eq_false.mp hclosed b hb
        by_contra hnone
        simp_all
      · exact absurd rfl hne

/-- **A deletion** keeps the invariant: who was not done with is written down anew. -/
theorem Awaiting.delete (h : Awaiting Done db) (hdeleted : DeletedTo d seq db db')
    (hbarrier : d.barrierId = barrierFor d.digest unique db)
    (hreached : ∀ c ∈ db.outboxConsumers, ∀ n ≤ c.checkpointCommitSeq, Done c.consumerId n) :
    Awaiting Done db' := by
  obtain ⟨hraises, hrows, habandonments, hconsumers⟩ := hdeleted
  obtain ⟨⟨b₀, hb₀, hid₀, hdigest₀, -, hopen₀⟩, hothers⟩ := hraises.opens h.oneOpen hbarrier
  have hsplit : ∀ bc ∈ db'.barrierConsumers,
      bc ∈ db.barrierConsumers ∧ bc.barrierId ≠ d.barrierId ∨
        ∃ c ∈ db.outboxConsumers, bc = d.requires seq c := by
    intro bc hbc
    rw [mem_rows, hrows, List.mem_append, List.mem_filter, List.mem_map] at hbc
    rcases hbc with ⟨hbc, hne⟩ | ⟨c, hc, rfl⟩
    · exact .inl ⟨hbc, by simpa using hne⟩
    · exact .inr ⟨c, hc, rfl⟩
  have hother : ∀ b ∈ db'.barriers, b.completedAt.isSome → b.barrierId ≠ d.barrierId := by
    intro b hb hdone hid
    have hsame := eq_of_key hb hb₀ (hid.trans hid₀.symm)
    rw [hsame, hopen₀] at hdone
    cases hdone
  constructor
  · intro bc hbc hack
    rcases hsplit bc hbc with ⟨hbc, -⟩ | ⟨c, -, rfl⟩
    · exact h.acked bc hbc hack
    · cases hack
  · rw [habandonments]
    exact h.gone
  · intro bc hbc c hc hid hle
    rw [hconsumers] at hc
    rw [← hid]
    exact hreached c hc _ hle
  · intro bc hbc
    rw [hconsumers]
    rcases hsplit bc hbc with ⟨hbc, -⟩ | ⟨c, hc, rfl⟩
    · exact h.waiting bc hbc
    · exact .inr ⟨c, hc, rfl⟩
  · intro b hb hdone bc hbc hid
    have hne := hother b hb hdone
    have hold := (hothers b hb hne).1
    rcases hsplit bc hbc with ⟨hbc, -⟩ | ⟨c, -, rfl⟩
    · exact h.complete b hold hdone bc hbc hid
    · exact absurd hid.symm hne
  · intro b hb b' hb' hdigest hopen hopen'
    by_cases hid : b.barrierId = d.barrierId
    · by_cases hid' : b'.barrierId = d.barrierId
      · exact eq_of_key hb hb' (hid.trans hid'.symm)
      · have hsame := eq_of_key hb hb₀ (hid.trans hid₀.symm)
        have hdone := (hothers b' hb' hid').2 (hdigest ▸ hsame ▸ hdigest₀)
        rw [hopen'] at hdone
        cases hdone
    · by_cases hid' : b'.barrierId = d.barrierId
      · have hsame := eq_of_key hb' hb₀ (hid'.trans hid₀.symm)
        have hdone := (hothers b hb hid).2 (hdigest.trans (hsame ▸ hdigest₀))
        rw [hopen] at hdone
        cases hdone
      · exact h.oneOpen b (hothers b hb hid).1 b' (hothers b' hb' hid').1 hdigest hopen hopen'

end Deletion

end MagicContext.Kernel
