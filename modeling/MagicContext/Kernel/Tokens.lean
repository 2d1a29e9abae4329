import MagicContext.Kernel.Announce
import MagicContext.Kernel.Snapshot

/-!
# Write tokens

A caller that read an object at a snapshot asks, inside the envelope, whether the object is still as
it was.  The answer looks at the end of the object, at its successor and at its latest change
event.  A row that was registered without a change event answers that nothing changed.

## What is here

* `checkToken` — the check.
* `RegistryAges` — what time does to the registry.
* `Smuggles` — a commit that keeps an object no change tells of.
* `unchanged_iff_told` — when an unchanged token means an unchanged object.
-/

namespace MagicContext.Kernel

open Transaction Table

/-! ## The check -/

inductive TokenConflict where
  | superseded | retracted | advanced
  deriving DecidableEq

inductive TokenCheck where
  | unchanged
  | conflict (conflict : TokenConflict)
  deriving DecidableEq

structure ObjectState where
  object : ObjectRow
  scopeId : Option String
  latestChangeCommitSeq : Option Nat
  artifactDigest : Option String

/-- The change events about an object. -/
def changesOf (objectId : String) (db : Db) : List ChangeEventRow :=
  db.changeEvent.select fun e => e.objectId == objectId

/-- `load_object_state`.  Decisions and observations carry a scope and an evidence citation. -/
def loadObjectState (objectId : String) (db : Db) : Option ObjectState :=
  (db.registry.get objectId).map fun object =>
    let decision := db.decisions.rows.find? fun d => d.objectId == objectId
    let observation := db.observations.rows.find? fun o => o.objectId == objectId
    let evidenceId := (decision.bind DecisionRow.evidenceId).or
      (observation.bind ObservationRow.evidenceId)
    { object := object
      scopeId := (decision.bind DecisionRow.scopeId).or (observation.bind ObservationRow.scopeId)
      latestChangeCommitSeq := ((changesOf objectId db).map ChangeEventRow.commitSeq).max?
      artifactDigest := ((evidenceId.bind db.evidence.get).filter fun e => e.live).map
        EvidenceRow.artifactDigest }

/-- Succession is judged before invalidation because a superseded object is also invalidated, and
advancement last because both of the others also leave a later change event. -/
def tokenCheck (state : ObjectState) (knownAsOf : Int) : TokenCheck :=
  if state.object.supersededBy.isSome then .conflict .superseded
  else if state.object.invalidatedCommitSeq.isSome then .conflict .retracted
  else if state.latestChangeCommitSeq.any fun latest => decide (knownAsOf < (latest : Int)) then
    .conflict .advanced
  else .unchanged

def checkToken (objectId : String) (knownAsOf : Int) : M TokenCheck := do
  let seq ← commitSeq
  require (decide (knownAsOf < (seq : Int))) .futureSnapshot
  let state ← query fun env => .ok (loadObjectState objectId env.tx)
  return match state with
    | none => .conflict .retracted
    | some state => tokenCheck state knownAsOf

/-- The row has not ended and has no successor. -/
def Lifetime.Untouched (l : Lifetime) : Prop :=
  l.invalidatedCommitSeq = none ∧ l.supersededBy = none

variable {k : Int} {objectId : String}

theorem tokenCheck_eq_unchanged {state : ObjectState} :
    tokenCheck state k = .unchanged ↔ state.object.Untouched ∧
      ∀ latest ∈ state.latestChangeCommitSeq, (latest : Int) ≤ k := by
  rw [tokenCheck, Lifetime.Untouched]
  cases state.object.supersededBy with
  | some => simp
  | none =>
    cases state.object.invalidatedCommitSeq with
    | some => simp
    | none => cases state.latestChangeCommitSeq <;> simp

/-- **An unchanged token**: the object is there, has neither ended nor a successor, and no change
event about it is later than the snapshot. -/
theorem checkToken_eq_unchanged {s s' : Session} (h : checkToken objectId k s = .ok .unchanged s') :
    k < (s.envelope.commitSeq : Int) ∧
    ∃ r ∈ s.envelope.tx.registry, r.objectId = objectId ∧ r.Untouched ∧
      ∀ e ∈ s.envelope.tx.changeEvent, e.objectId = objectId → (e.commitSeq : Int) ≤ k := by
  rw [checkToken, commitSeq_bind] at h
  obtain ⟨hlt, h⟩ := require_bind_eq_ok h
  obtain ⟨state, s₃, hquery, h⟩ := bind_eq_ok.mp h
  obtain ⟨-, hstate, -⟩ := query_eq_ok.mp hquery
  obtain ⟨hcheck, -⟩ := EStateM.Result.ok.inj h
  refine ⟨of_decide_eq_true hlt, ?_⟩
  rw [loadObjectState] at hstate
  cases hget : s.envelope.tx.registry.get objectId with
  | none =>
    rw [hget] at hstate
    cases hstate
    cases hcheck
  | some r =>
    rw [hget] at hstate
    cases hstate
    obtain ⟨huntouched, hlatest⟩ := tokenCheck_eq_unchanged.mp hcheck
    obtain ⟨hr, hid⟩ := get_eq_some.mp hget
    refine ⟨r, hr, hid, huntouched, fun e he heid => ?_⟩
    have hmem : e.commitSeq ∈ (changesOf objectId s.envelope.tx).map ChangeEventRow.commitSeq :=
      List.mem_map_of_mem (mem_select.mpr ⟨he, beq_iff_eq.mpr heid⟩)
    obtain ⟨latest, hmax⟩ := Option.isSome_iff_exists.mp (List.isSome_max?_of_mem hmem)
    have hle := (List.max?_eq_some_iff.mp hmax).2 _ hmem
    exact (Int.ofNat_le.mpr hle).trans (hlatest latest hmax)

/-! ## The registry in time -/

/-- Rows stay, with the commit that created them; a row that has neither ended nor a successor is
as it was; a new row was created by a commit that `Q` allows. -/
structure RegistryAges (Q : Nat → Prop) (db db' : Db) : Prop where
  kept : ∀ id, db.Registered id → db'.Registered id
  origin : ∀ r ∈ db'.registry,
    (∃ r₀ ∈ db.registry, r₀.objectId = r.objectId ∧ r₀.createdCommitSeq = r.createdCommitSeq ∧
      (r.Untouched → r₀ = r)) ∨
    ¬ db.Registered r.objectId ∧ Q r.createdCommitSeq

namespace RegistryAges

variable {Q Q' : Nat → Prop} {db db' db'' : Db}

theorem of_eq (h : db'.registry = db.registry) : RegistryAges Q db db' where
  kept id hid := by
    rw [Db.Registered, h]
    exact hid
  origin r hr := .inl ⟨r, h ▸ hr, rfl, rfl, fun _ => rfl⟩

theorem mono (h : RegistryAges Q db db') (hQ : ∀ n, Q n → Q' n) : RegistryAges Q' db db' where
  kept := h.kept
  origin r hr := (h.origin r hr).imp_right fun ⟨hnew, hq⟩ => ⟨hnew, hQ _ hq⟩

theorem trans (h : RegistryAges Q db db') (h' : RegistryAges Q db' db'') :
    RegistryAges Q db db'' where
  kept id := h'.kept id ∘ h.kept id
  origin r hr := by
    rcases h'.origin r hr with ⟨r₁, hr₁, hid₁, hseq₁, hsame₁⟩ | ⟨hnew, hq⟩
    · rcases h.origin r₁ hr₁ with ⟨r₀, hr₀, hid₀, hseq₀, hsame₀⟩ | ⟨hnew, hq⟩
      · refine .inl ⟨r₀, hr₀, hid₀.trans hid₁, hseq₀.trans hseq₁, fun huntouched => ?_⟩
        have heq := hsame₁ huntouched
        exact (hsame₀ (heq ▸ huntouched)).trans heq
      · exact .inr ⟨hid₁ ▸ hnew, hseq₁ ▸ hq⟩
    · exact .inr ⟨fun hreg => hnew (h.kept _ hreg), hq⟩

end RegistryAges

theorem registryAges_update {Q : Nat → Prop} {db db' : Db} {p : ObjectRow → Bool}
    {f : ObjectRow → ObjectRow} {hf : ∀ r, (f r).objectId = r.objectId}
    (h : db'.registry = db.registry.update p f hf)
    (hcreated : ∀ r, (f r).createdCommitSeq = r.createdCommitSeq)
    (htouched : ∀ r, ¬ (f r).Untouched) : RegistryAges Q db db' where
  kept id hid := by
    rw [Db.Registered, h]
    exact exists_mem_update.mpr hid
  origin r hr := by
    rw [h] at hr
    obtain ⟨r₀, hr₀, rfl⟩ := mem_update.mp hr
    refine .inl ⟨r₀, hr₀, ?_⟩
    split
    · exact ⟨(hf r₀).symm, (hcreated r₀).symm, fun h => absurd h (htouched r₀)⟩
    · exact ⟨rfl, rfl, fun _ => rfl⟩

/-- The registry ages with every statement whose new rows `Q` allows. -/
theorem registryAges_of_write {Q : Nat → Prop} {w : Write} {db db' : Db} {rows : Nat}
    (hQ : ∀ row, w = .insertRegistry row → Q row.createdCommitSeq)
    (h : w.apply db = .ok (db', rows)) : RegistryAges Q db db' := by
  have hstep := registry_step h
  generalize ht : db'.registry = t at hstep
  cases hstep with
  | same => exact .of_eq ht
  | insert row t hinsert =>
    constructor
    · rintro id ⟨r, hr, hid⟩
      rw [Db.Registered, ht]
      exact ⟨r, (mem_insert hinsert).mpr (.inl hr), hid⟩
    · intro r hr
      rw [ht] at hr
      rcases (mem_insert hinsert).mp hr with hr | rfl
      · exact .inl ⟨r, hr, rfl, rfl, fun _ => rfl⟩
      · refine .inr ⟨?_, hQ _ rfl⟩
        rintro ⟨r₀, hr₀, hid⟩
        exact get_eq_none.mp (insert_eq_some.mp hinsert).1 r₀ hr₀ hid
  | invalidate w p seq =>
    exact registryAges_update ht (fun _ => rfl) fun _ h => Option.some_ne_none _ h.1
  | succeed w p successor =>
    exact registryAges_update ht (fun _ => rfl) fun _ h => Option.some_ne_none _ h.2

/-- An operation registers objects as created by its commit. -/
theorem OperationWrites.created {seq : Nat} {row : ObjectRow}
    (h : OperationWrites seq (.insertRegistry row)) : row.createdCommitSeq = seq := by
  cases h with
  | governance hw =>
    cases hw with
    | domain hw => cases hw with | registry _ hcreated => exact hcreated
    | slice hw =>
      cases hw with
      | registry _ hcreated => exact hcreated
      | admission _ hw => cases hw
  | control hw => cases hw
  | artifact hw => cases hw with | registry _ hcreated => exact hcreated

theorem Attempts.registryAges {s s' : Session} (h : Attempts OperationWrites s s') :
    RegistryAges (· = s.envelope.commitSeq) s.envelope.tx s'.envelope.tx :=
  h.rel (fun _ => .of_eq rfl) (fun _ _ _ h h' => h.trans h') fun _ _ _ _ hw happly =>
    registryAges_of_write (fun _ hrow => OperationWrites.created (hrow ▸ hw)) happly

/-! ## Transactions -/

/-- The parts of a store that a token depends on. -/
structure History where
  registry : List ObjectRow
  changeEvent : List ChangeEventRow
  commitLog : List CommitRow
  commitSequence : Nat

def Db.history (db : Db) : History where
  registry := db.registry.rows
  changeEvent := db.changeEvent.rows
  commitLog := db.commitLog.rows
  commitSequence := db.commitSequence

section Transactions
variable {sys : Platform}

theorem SameButProjection.history {db db' : Db} (h : SameButProjection db db') :
    db'.history = db.history :=
  (congrArg Db.history h :)

/-- Upkeep leaves them alone. -/
theorem history_of_upkeep (u : Upkeep) (db : Db) : (u.run sys db).history = db.history := by
  cases u with
  | rebuildAlignment leaseEpoch answers =>
    exact (sameButProjection_repair sys leaseEpoch db answers).history
  | acknowledgeOutbox consumerId checkpoint updatedAt =>
    rw [Upkeep.run, acknowledgeOutbox]
    split <;> rfl
  | pruneOutbox =>
    rw [Upkeep.run, pruneOutbox]
    split <;> rfl
  | stampWriterFence | mergeReplayedClassification | markOutboxPublishedThrough | reserve
  | stage => rfl

/-- What a commit that applies its operation does to them. -/
structure Advances (db : Db) (s₁ : Session) (after : Db) : Prop where
  ages : RegistryAges (· = db.commitSequence + 1) db after
  registry : after.registry = s₁.envelope.tx.registry
  events : ∃ transactionId, after.changeEvent.rows = db.changeEvent.rows ++
    eventsFrom transactionId (db.commitSequence + 1) 0 s₁.envelope.changes
  commitLog : ∃ row, row.commitSeq = db.commitSequence + 1 ∧
    after.commitLog.rows = db.commitLog.rows ++ [row]
  commitSequence : after.commitSequence = db.commitSequence + 1

theorem advances {call : CommitCall} {db : Db} {intent : RedactedIntent} {recordedAt : Int}
    {s s₁ s₂ : Session} {result : String} {receipt : CommitReceipt}
    (hopened : call.opened sys db = some (intent, recordedAt, s))
    (hrun : call.operation.run sys s = .ok result s₁)
    (hpublish : publish sys intent (intent.operationIdentity sys) recordedAt
      call.afterEvents result s₁ = .ok receipt s₂) : Advances db s₁ s₂.envelope.tx := by
  have hopens := (opened_eq_some hopened).1
  have hseq := commitSeq_of_opened hopened
  have hattempts := (attempts_operation call.operation).ok hrun
  obtain ⟨-, hsequence, hlog⟩ := log_of_applied hopened hrun hpublish
  have hregistry : s₂.envelope.tx.registry = s₁.envelope.tx.registry :=
    publish_frame Db.registry (fun _ _ _ hdb ht => by cases hdb <;> trivial) hpublish
  have hstart : s.envelope.tx.registry = db.registry :=
    hopens.frame Db.registry fun _ _ _ => rfl
  have hchange : s₁.envelope.tx.changeEvent = s.envelope.tx.changeEvent :=
    hattempts.agree Db.changeEvent fun w db db' hw hdb => by
      have hclosing := hw.not_closing
      generalize w.target = t at hdb hclosing
      cases hdb <;> trivial
  have hstartChange : s.envelope.tx.changeEvent = db.changeEvent :=
    hopens.frame Db.changeEvent fun _ _ _ => rfl
  refine ⟨?_, hregistry, ⟨intent.operationIdentity sys, ?_⟩, hlog, hsequence⟩
  · have hages := hattempts.registryAges
    rw [hseq] at hages
    exact (RegistryAges.of_eq hstart).trans (hages.trans (.of_eq hregistry))
  · have hevents := congrArg Published.changeEvent (publish_eq_ok hpublish).2.2
    rw [hattempts.commitSeq, hseq] at hevents
    exact hevents.trans (by
      change s₁.envelope.tx.changeEvent.rows ++ _ = _
      rw [hchange, hstartChange])

/-- What every transaction does to the registry and to the numbering. -/
structure Passes (db db' : Db) : Prop where
  commitSequence : db.commitSequence ≤ db'.commitSequence
  ages : RegistryAges (db.commitSequence < ·) db db'

theorem Passes.of_history {db db' : Db} (h : db'.history = db.history) : Passes db db' where
  commitSequence := (congrArg History.commitSequence h).ge
  ages := .of_eq (ext (congrArg History.registry h))

theorem Passes.trans {db db' db'' : Db} (h : Passes db db') (h' : Passes db' db'') :
    Passes db db'' where
  commitSequence := h.commitSequence.trans h'.commitSequence
  ages := h.ages.trans (h'.ages.mono fun _ => h.commitSequence.trans_lt)

theorem passes_step (a : Action) (db : Db) : Passes db (a.run sys db) := by
  cases a with
  | upkeep u => exact .of_history (history_of_upkeep u db)
  | commit call =>
    have hphases := commit_phases sys call db
    rw [Action.run]
    generalize (call.run sys db).1 = result at hphases
    generalize (call.run sys db).2 = after at hphases
    cases hphases with
    | failed => exact .of_history rfl
    | replayed _ _ _ hafter => exact .of_history hafter.history
    | applied intent recordedAt s s₁ s₂ result receipt _ hopened hrun hpublish =>
      have hadvances := advances hopened hrun hpublish
      exact ⟨hadvances.commitSequence ▸ Nat.le_succ _,
        hadvances.ages.mono fun _ hn => hn ▸ Nat.lt_succ_self _⟩

theorem passes_run (actions : List Action) (db : Db) : Passes db (run sys actions db) :=
  run_rel sys (R := Passes) (fun _ => .of_history rfl) (fun _ _ _ h h' => h.trans h')
    passes_step actions db

theorem foldr_max_append (l : List Nat) (n : Nat) :
    (l ++ [n]).foldr max 0 = max (l.foldr max 0) n := by
  induction l with
  | nil => exact (Nat.max_comm n 0)
  | cons m l ih => rw [List.cons_append, List.foldr_cons, List.foldr_cons, ih, Nat.max_assoc]

/-- The tip is the number of the last commit. -/
theorem tip_of_reachable {db : Db} (h : Reachable sys db) : db.tip = db.commitSequence := by
  refine @Reachable.induction sys (fun db => db.tip = db.commitSequence) rfl (fun a db h => ?_) db h
  cases a with
  | upkeep u =>
    have hhistory := @history_of_upkeep sys u db
    have hlog := congrArg History.commitLog hhistory
    have hsequence := congrArg History.commitSequence hhistory
    exact (congrArg (fun rows : List CommitRow => (rows.map CommitRow.commitSeq).foldr max 0)
      hlog).trans (h.trans hsequence.symm)
  | commit call =>
    have hphases := commit_phases sys call db
    rw [Action.run]
    generalize (call.run sys db).1 = result at hphases
    generalize (call.run sys db).2 = after at hphases
    cases hphases with
    | failed => exact h
    | replayed _ _ _ hafter =>
      have hlog := congrArg History.commitLog hafter.history
      have hsequence := congrArg History.commitSequence hafter.history
      exact (congrArg (fun rows : List CommitRow => (rows.map CommitRow.commitSeq).foldr max 0)
        hlog).trans (h.trans hsequence.symm)
    | applied intent recordedAt s s₁ s₂ result receipt _ hopened hrun hpublish =>
      have hadvances := advances hopened hrun hpublish
      obtain ⟨row, hrow, hlog⟩ := hadvances.commitLog
      rw [hadvances.commitSequence, Db.tip, hlog, List.map_append, List.map_singleton,
        foldr_max_append, hrow]
      change max db.tip _ = _
      rw [h]
      exact Nat.max_eq_right (Nat.le_succ _)

end Transactions

/-! ## Objects that no change tells of -/

section Smuggled
variable (sys : Platform)

/-- The call returns an error after it registered the object. -/
def Called.halfRegisters (k : Called) (objectId : String) : Bool :=
  k.failed sys && (k.before.envelope.tx.registry.get objectId).isNone &&
    ((final (k.call.run sys) k.before).envelope.tx.registry.get objectId).isSome

/-- The commit succeeds although one of its calls failed after it registered the object. -/
def Committed.Smuggles (c : Committed) (objectId : String) : Prop :=
  (∃ receipt, c.result sys = .ok receipt) ∧
    ∃ k ∈ c.call.calls sys c.before, k.halfRegisters sys objectId = true

/-- The sessions in which a closure has control: at the start and after each of its calls. -/
def Operation.sessions : Operation → Session → List Session
  | .ret _, s => [s]
  | .call c next, s => s :: (next (c.outcome sys s)).sessions (final (c.run sys) s)

/-- What an unchanged token promises: the object has had the same row at every store since the
snapshot, is known at every snapshot since, and no later change event is about it. -/
def HeldSince (actions : List Action) (s : Session) (objectId : String) (k : Int) : Prop :=
  ∃ r, s.envelope.tx.registry.get objectId = some r ∧
    (∀ earlier later, actions = earlier ++ later → k ≤ (run sys earlier .fresh).tip →
      (run sys earlier .fresh).registry.get objectId = some r) ∧
    (∀ j, k ≤ j → j ≤ (run sys actions .fresh).tip →
      ∃ known, knownAsOf j (run sys actions .fresh) = .ok known ∧ r ∈ known.objects) ∧
    ∀ e ∈ s.envelope.tx.changeEvent, e.objectId = objectId → (e.commitSeq : Int) ≤ k

variable {sys}

theorem attempts_of_sessions {operation : Operation} {s s' : Session}
    (h : s' ∈ operation.sessions sys s) : Attempts OperationWrites s s' := by
  induction operation generalizing s with
  | ret result =>
    rw [List.mem_singleton.mp h]
    exact (Evolves.refl _ s).toAttempts
  | call c next ih =>
    rcases List.mem_cons.mp h with rfl | h
    · exact (Evolves.refl _ _).toAttempts
    · exact ((@attempts_call sys c s).mono fun _ _ => Call.writes_operation).trans (ih _ h)

/-- A call that does not half-register the object leaves it told or unregistered. -/
theorem told_of_call {k : Called} (h : k.halfRegisters sys objectId = false) :
    k.before.envelope.told ⊆ (final (k.call.run sys) k.before).envelope.told ∧
      ((final (k.call.run sys) k.before).envelope.tx.Registered objectId →
        k.before.envelope.tx.Registered objectId ∨
          (final (k.call.run sys) k.before).envelope.Tells objectId) := by
  refine ⟨(@attempts_call sys k.call k.before).told, fun hreg => ?_⟩
  by_contra hnot
  obtain ⟨hbefore, htells⟩ := not_or.mp hnot
  cases hfailed : k.failed sys with
  | false =>
    obtain ⟨reply, hrun⟩ := Called.run_eq_ok hfailed
    rw [final_of_ok hrun] at hreg htells
    rcases (leaves_call _ _ _ _ hrun).registered objectId hreg with hid | hid | hid
    · exact hbefore hid
    · cases hid
    · exact htells hid
  | true =>
    have hnone : k.before.envelope.tx.registry.get objectId = none :=
      get_eq_none.mpr fun r hr hid => hbefore ⟨r, hr, hid⟩
    rw [Called.halfRegisters, hfailed, isSome_get.mpr hreg, hnone] at h
    cases h

theorem told_of_operation {operation : Operation} {s : Session}
    (h : ∀ k ∈ operation.calls sys s, k.halfRegisters sys objectId = false)
    (hreg : (final (operation.run sys) s).envelope.tx.Registered objectId) :
    s.envelope.tx.Registered objectId ∨ (final (operation.run sys) s).envelope.Tells objectId :=
  (calls_rel (R := fun s s' => s.envelope.told ⊆ s'.envelope.told ∧
      (s'.envelope.tx.Registered objectId →
        s.envelope.tx.Registered objectId ∨ s'.envelope.Tells objectId))
    (fun _ => ⟨fun _ h => h, .inl⟩)
    (fun _ _ _ h h' => ⟨List.Subset.trans h.1 h'.1, fun hreg =>
      (h'.2 hreg).elim (fun hid => (h.2 hid).imp_right (tells_mono h'.1)) .inr⟩)
    operation s fun k hk => told_of_call (h k hk)).2 hreg

/-- The object was registered by the snapshot, or a change of the commit that registered it tells
of it. -/
def Told (objectId : String) (k : Int) (db : Db) : Prop :=
  ∀ r ∈ db.registry, r.objectId = objectId → (r.createdCommitSeq : Int) ≤ k ∨
    ∃ e ∈ db.changeEvent, e.objectId = objectId ∧ e.commitSeq = r.createdCommitSeq

theorem Told.of_history {db db' : Db} (h : Told objectId k db) (heq : db'.history = db.history) :
    Told objectId k db' := by
  have hregistry : db'.registry = db.registry := ext (congrArg History.registry heq)
  have hchange : db'.changeEvent = db.changeEvent := ext (congrArg History.changeEvent heq)
  rw [Told, hregistry, hchange]
  exact h

variable {db : Db}

theorem Told.commit (h : Told objectId k db) (call : CommitCall)
    (hnone : k ≤ db.commitSequence → ¬ (Committed.mk call db).Smuggles sys objectId) :
    Told objectId k (call.run sys db).2 := by
  have hphases := commit_phases sys call db
  generalize hresult : (call.run sys db).1 = result at hphases
  generalize (call.run sys db).2 = after at hphases
  cases hphases with
  | failed => exact h
  | replayed _ _ _ hafter => exact h.of_history hafter.history
  | applied intent recordedAt s s₁ s₂ result receipt _ hopened hrun hpublish =>
    have hadvances := advances hopened hrun hpublish
    obtain ⟨transactionId, hevents⟩ := hadvances.events
    intro r hr hid
    rcases hadvances.ages.origin r hr with ⟨r₀, hr₀, hid₀, hseq₀, -⟩ | ⟨hnew, hseq⟩
    · refine (h r₀ hr₀ (hid₀.trans hid)).imp (fun hle => hseq₀ ▸ hle) fun ⟨e, he, heid, heseq⟩ => ?_
      refine ⟨e, ?_, heid, heseq.trans hseq₀⟩
      rw [mem_rows, hevents]
      exact List.mem_append_left _ he
    · by_cases hk : k ≤ db.commitSequence
      · right
        have hcalls : call.calls sys db = call.operation.calls sys s := by
          rw [CommitCall.calls, hopened]
        have hclean : ∀ k ∈ call.operation.calls sys s, k.halfRegisters sys objectId = false := by
          intro k' hk'
          by_contra hhalf
          exact hnone hk ⟨⟨receipt, hresult⟩, k', hcalls ▸ hk', Bool.not_eq_false _ ▸ hhalf⟩
        have hreg : s₁.envelope.tx.Registered objectId := ⟨r, hadvances.registry ▸ hr, hid⟩
        have htold := told_of_operation hclean
        rw [final_of_ok hrun] at htold
        have hstart : s.envelope.tx.registry = db.registry :=
          (opened_eq_some hopened).1.frame Db.registry fun _ _ _ => rfl
        rcases htold hreg with hbefore | ⟨o, ho, hoid⟩
        · rw [Db.Registered, hstart, ← hid] at hbefore
          exact absurd hbefore hnew
        · obtain ⟨change, hchange, rfl⟩ := List.mem_map.mp ho
          obtain ⟨i, hi⟩ := List.mem_iff_get.mp hchange
          refine ⟨change.event transactionId (db.commitSequence + 1) i, ?_, hoid, hseq.symm⟩
          rw [mem_rows, hevents]
          refine List.mem_append_right _ (mem_eventsFrom.mpr ⟨change, i, ?_, rfl⟩)
          exact List.mk_mem_zipIdx_iff_getElem?.mpr (hi ▸ List.getElem?_eq_getElem i.isLt)
      · left
        omega

theorem Told.run (actions : List Action) (h : Told objectId k db)
    (hnone : ∀ c ∈ commits sys actions db, k ≤ c.before.commitSequence →
      ¬ c.Smuggles sys objectId) : Told objectId k (Kernel.run sys actions db) := by
  induction actions generalizing db with
  | nil => exact h
  | cons a rest ih =>
    cases a with
    | upkeep u => exact ih (h.of_history (history_of_upkeep u db)) hnone
    | commit call =>
      exact ih (h.commit call (hnone _ List.mem_cons_self)) fun c hc =>
        hnone c (List.mem_cons_of_mem _ hc)

/-- A commit of a run, and the part of the run before it. -/
theorem exists_prefix_of_commit {c : Committed} {actions : List Action}
    (hc : c ∈ commits sys actions db) :
    ∃ earlier later, actions = earlier ++ later ∧ c.before = run sys earlier db := by
  induction actions generalizing db with
  | nil => cases hc
  | cons a rest ih =>
    cases a with
    | upkeep u =>
      obtain ⟨earlier, later, rfl, hbefore⟩ := ih hc
      exact ⟨.upkeep u :: earlier, later, rfl, hbefore⟩
    | commit call =>
      rcases List.mem_cons.mp hc with rfl | hc
      · exact ⟨[], _, rfl, rfl⟩
      · obtain ⟨earlier, later, rfl, hbefore⟩ := ih hc
        exact ⟨.commit call :: earlier, later, rfl, hbefore⟩

/-- An object of the store a commit starts from is no call's to register. -/
theorem not_halfRegisters_of_registered {call : CommitCall} (hreg : db.Registered objectId)
    {k : Called} (hk : k ∈ call.calls sys db) : k.halfRegisters sys objectId = false := by
  rw [CommitCall.calls] at hk
  cases hopened : call.opened sys db with
  | none =>
    rw [hopened] at hk
    cases hk
  | some opened =>
    obtain ⟨intent, recordedAt, s⟩ := opened
    rw [hopened] at hk
    have hstart : s.envelope.tx.registry = db.registry :=
      (opened_eq_some hopened).1.frame Db.registry fun _ _ _ => rfl
    have hbefore : k.before.envelope.tx.Registered objectId :=
      rel_before_call (R := fun s s' => s.envelope.tx.Registered objectId →
          s'.envelope.tx.Registered objectId) (fun _ => id) (fun _ _ _ h h' => h' ∘ h)
        (fun c s => (((@attempts_call sys c s).mono fun _ _ =>
          Call.writes_operation).registryAges).kept objectId) hk
        (by rwa [Db.Registered, hstart])
    rw [Called.halfRegisters, Option.isNone_eq_false_iff.mpr (isSome_get.mpr hbefore),
      Bool.and_false, Bool.false_and]

variable (sys) in
/-- **An unchanged token means an unchanged object** exactly when the object is one of the store
that the commit started from, and no commit since the snapshot kept it without a change that tells
of it. -/
theorem unchanged_iff_told (actions : List Action) {call : CommitCall} {intent : RedactedIntent}
    {recordedAt : Int} {s₀ s s' : Session} {objectId : String} {k : Int}
    (hopened : call.opened sys (run sys actions .fresh) = some (intent, recordedAt, s₀))
    (hs : s ∈ call.operation.sessions sys s₀)
    (hunchanged : checkToken objectId k s = .ok .unchanged s') :
    HeldSince sys actions s objectId k ↔
      (run sys actions .fresh).Registered objectId ∧
        ∀ c ∈ commits sys actions .fresh, k ≤ c.before.commitSequence →
          ¬ c.Smuggles sys objectId := by
  have hattempts := attempts_of_sessions hs
  have hseq := commitSeq_of_opened hopened
  have hopens := (opened_eq_some hopened).1
  have hstart : s₀.envelope.tx.registry = (run sys actions .fresh).registry :=
    hopens.frame Db.registry fun _ _ _ => rfl
  obtain ⟨hk, r, hr, hid, huntouched, hevents⟩ := checkToken_eq_unchanged hunchanged
  rw [hattempts.commitSeq, hseq] at hk
  constructor
  · rintro ⟨r', -, hstores, -, -⟩
    have hregistered : ∀ earlier later, actions = earlier ++ later →
        k ≤ (run sys earlier .fresh).commitSequence →
        (run sys earlier .fresh).Registered objectId := by
      intro earlier later hsplit hle
      rw [← @tip_of_reachable sys _ ⟨earlier, rfl⟩] at hle
      exact Table.isSome_get.mp (Option.isSome_iff_exists.mpr ⟨r', hstores _ _ hsplit hle⟩)
    refine ⟨hregistered actions [] (List.append_nil _).symm (by omega), ?_⟩
    rintro c hc hle ⟨-, k', hk', hhalf⟩
    obtain ⟨earlier, later, hsplit, hbefore⟩ := exists_prefix_of_commit hc
    rw [hbefore] at hle hk'
    rw [not_halfRegisters_of_registered (hregistered earlier later hsplit hle) hk'] at hhalf
    cases hhalf
  · rintro ⟨hregistered, hnone⟩
    have hold : r ∈ (run sys actions .fresh).registry := by
      rcases hattempts.registryAges.origin r hr with ⟨r₀, hr₀, -, -, hsame⟩ | ⟨hnew, -⟩
      · rw [hsame huntouched, hstart] at hr₀
        exact hr₀
      · rw [Db.Registered, hstart, hid] at hnew
        exact absurd hregistered hnew
    have hcreated : (r.createdCommitSeq : Int) ≤ k := by
      have htold : Told objectId k (run sys actions .fresh) :=
        Told.run actions (fun _ hr => absurd hr List.not_mem_nil) hnone
      rcases htold r hold hid with hle | ⟨e, he, heid, heseq⟩
      · exact hle
      refine heseq ▸ hevents e ?_ heid
      have hsame : s.envelope.tx.changeEvent = s₀.envelope.tx.changeEvent :=
        hattempts.agree Db.changeEvent fun w db db' hw hdb => by
          have hclosing := hw.not_closing
          generalize w.target = t at hdb hclosing
          cases hdb <;> trivial
      rw [hsame, hopens.frame Db.changeEvent fun _ _ _ => rfl]
      exact he
    refine ⟨r, Table.get_eq_some.mpr ⟨hr, hid⟩, fun earlier later hsplit hle => ?_,
      fun j hj htip => mem_knownAsOf hold huntouched.1 huntouched.2 (hcreated.trans hj) htip,
      hevents⟩
    rw [@tip_of_reachable sys _ ⟨earlier, rfl⟩] at hle
    have hpasses := @passes_run sys later (run sys earlier .fresh)
    rw [← run_append, ← hsplit] at hpasses
    refine Table.get_eq_some.mpr ⟨?_, hid⟩
    rcases hpasses.ages.origin r hold with ⟨r₀, hr₀, -, -, hsame⟩ | ⟨-, hlate⟩
    · exact hsame huntouched ▸ hr₀
    · omega

end Smuggled

/-! ## A token for a smuggled object -/

namespace Sample

/-- The digests of four operations. -/
def tokenDigests : List (String × String) :=
  ("check", "8f34aa6df80080f3c4316259d99ac690023dc1f4399d9fa188dc441f7c440227") :: digests

def tokenPlatform : Platform := plainPlatform tokenDigests

/-- A commit keeps an object under a taken id. -/
def smuggling : List Action :=
  [.upkeep (.stampWriterFence 1), .commit (call "domain" (.insertDomain domain)),
    .commit (call "decision" (.insertDecision (decision "D" "first" "choice"))), .commit takenId]

/-- A commit that only checks. -/
def checking : CommitCall :=
  { call "check" (.insertDomain domain) with operation := .ret (.ok "checked") }

end Sample

/-- What the token of an object says at the start of a commit. -/
def CommitCall.tokenAtStart (sys : Platform) (call : CommitCall) (db : Db) (objectId : String)
    (k : Int) : Option TokenCheck :=
  (call.opened sys db).bind fun (_, _, s) =>
    match checkToken objectId k s with
    | .ok check _ => some check
    | .error _ _ => none

theorem tokenAtStart_eq_some {sys : Platform} {call : CommitCall} {db : Db}
    {check : TokenCheck} (h : call.tokenAtStart sys db objectId k = some check) :
    ∃ intent recordedAt s s', call.opened sys db = some (intent, recordedAt, s) ∧
      checkToken objectId k s = .ok check s' := by
  obtain ⟨⟨intent, recordedAt, s⟩, hopened, h⟩ := Option.bind_eq_some_iff.mp h
  dsimp only at h
  cases hcheck : checkToken objectId k s with
  | error e s' =>
    rw [hcheck] at h
    cases h
  | ok check' s' =>
    rw [hcheck] at h
    cases h
    exact ⟨intent, recordedAt, s, s', hopened, hcheck⟩

/-- The object that a failed call registered has an unchanged token for a snapshot before it. -/
theorem smuggled_token : ∃ intent recordedAt s s',
    Sample.checking.opened Sample.tokenPlatform (run Sample.tokenPlatform Sample.smuggling .fresh) =
      some (intent, recordedAt, s) ∧
    checkToken "second" 2 s = .ok .unchanged s' ∧
    ¬ HeldSince Sample.tokenPlatform Sample.smuggling s "second" 2 := by
  have htoken : Sample.checking.tokenAtStart Sample.tokenPlatform
      (run Sample.tokenPlatform Sample.smuggling .fresh) "second" 2 = some .unchanged := by
    decide +kernel
  obtain ⟨intent, recordedAt, s, s', hopened, hcheck⟩ := tokenAtStart_eq_some htoken
  refine ⟨intent, recordedAt, s, s', hopened, hcheck, ?_⟩
  rintro ⟨r, -, hstores, -, -⟩
  have hget := hstores (Sample.smuggling.take 3) (Sample.smuggling.drop 3) rfl (by decide +kernel)
  have hnone : (run Sample.tokenPlatform (Sample.smuggling.take 3) .fresh).registry.get "second" =
      none := by decide +kernel
  rw [hnone] at hget
  cases hget

/-- The object of the first decision is unchanged, and has been since its commit. -/
theorem decision_token : ∃ intent recordedAt s s',
    Sample.checking.opened Sample.tokenPlatform (run Sample.tokenPlatform Sample.smuggling .fresh) =
      some (intent, recordedAt, s) ∧
    checkToken "first" 2 s = .ok .unchanged s' ∧
    HeldSince Sample.tokenPlatform Sample.smuggling s "first" 2 := by
  have htoken : Sample.checking.tokenAtStart Sample.tokenPlatform
      (run Sample.tokenPlatform Sample.smuggling .fresh) "first" 2 = some .unchanged := by
    decide +kernel
  obtain ⟨intent, recordedAt, s, s', hopened, hcheck⟩ := tokenAtStart_eq_some htoken
  refine ⟨intent, recordedAt, s, s', hopened, hcheck, ?_⟩
  refine (unchanged_iff_told Sample.tokenPlatform Sample.smuggling hopened
    (List.mem_singleton_self _) hcheck).mpr ⟨Table.isSome_get.mp (by decide +kernel), ?_⟩
  rintro c hc - ⟨-, k, hk, hhalf⟩
  have hnone : ((commits Sample.tokenPlatform Sample.smuggling .fresh).any fun c =>
      (c.call.calls Sample.tokenPlatform c.before).any fun k =>
        k.halfRegisters Sample.tokenPlatform "first") = false := by decide +kernel
  have hany := List.any_eq_false.mp hnone c hc
  exact hany (List.any_eq_true.mpr ⟨k, hk, hhalf⟩)

end MagicContext.Kernel
