import MagicContext.Kernel.HalfApplied

/-!
# The phases of a commit

A commit that applies its operation numbers itself, runs the calls of the operation one after the
other and publishes.  What holds after it follows from what each phase does, and what the operation
does from what each of its calls does.

## What is here

* `opened_eq_some` — the envelope the operation starts in.
* `calls_rel` — what every call keeps, the operation keeps.
* `PublishWrites` — the statements of the end of a commit.
* `CommitPhases` — what a commit leaves, by phase.
-/

namespace MagicContext.Kernel

open Transaction

variable {sys : Platform}

/-! ## The start -/

/-- The envelope changes in its redaction rows only. -/
def RedactsOnly (s s' : Session) : Prop :=
  ∃ t, s'.envelope = { s.envelope with tx := { s.envelope.tx with redactions := t } }

theorem RedactsOnly.refl (s : Session) : RedactsOnly s s := ⟨s.envelope.tx.redactions, rfl⟩

theorem RedactsOnly.trans {s s' s'' : Session} (h : RedactsOnly s s') (h' : RedactsOnly s' s'') :
    RedactsOnly s s'' := by
  obtain ⟨t, ht⟩ := h
  obtain ⟨t', ht'⟩ := h'
  exact ⟨t', by rw [ht', ht]⟩

theorem redactsOnly_exec (row : RedactionRow) :
    Keeps RedactsOnly (exec (.insertRedaction row)) := by
  intro s
  rcases h : exec (.insertRedaction row) s with ⟨rows, s'⟩ | ⟨e, s'⟩
  · rw [final_of_ok h]
    obtain ⟨-, tx, happly, rfl⟩ := exec_eq_ok.mp h
    obtain ⟨t, -, heq⟩ := Checks.bind_eq_ok.mp happly
    cases heq
    exact ⟨t, rfl⟩
  · rw [final_of_error h]
    obtain ⟨rfl, -⟩ := exec_eq_error h
    exact RedactsOnly.refl s

theorem redactsOnly_bind {α β : Type} {m : M α} {f : α → M β} (hm : Keeps RedactsOnly m)
    (hf : ∀ a, Keeps RedactsOnly (f a)) : Keeps RedactsOnly (m >>= f) :=
  Keeps.bind (R := RedactsOnly) (fun _ _ _ h h' => h.trans h') hm hf

theorem redactsOnly_record (ownerKind ownerId fieldName : String) (field : RedactedField) :
    Keeps RedactsOnly (record ownerKind ownerId fieldName field) :=
  redactsOnly_bind (fun s => RedactsOnly.refl s) fun _ =>
    keeps_forM RedactsOnly.refl (fun _ _ _ h h' => h.trans h')
      (fun _ => redactsOnly_bind (redactsOnly_exec _) fun _ => keeps_pure RedactsOnly.refl _) _

/-- The database an operation starts with: the commit is numbered, and the metadata of its texts
may have been written. -/
structure Opens (db tx : Db) : Prop where
  rest : ∃ t redactions, tx =
    { db with commitLog := t, commitSequence := db.commitSequence + 1, redactions := redactions }
  commitLog : ∃ row, row.commitSeq = db.commitSequence + 1 ∧
    tx.commitLog.rows = db.commitLog.rows ++ [row]

theorem Opens.commitSequence {db tx : Db} (h : Opens db tx) :
    tx.commitSequence = db.commitSequence + 1 := by
  obtain ⟨-, -, rfl⟩ := h.rest
  rfl

/-- What no commit log and no redaction row is part of is as before. -/
theorem Opens.frame {db tx : Db} (h : Opens db tx) {γ : Type} (f : Db → γ)
    (hf : ∀ t seq redactions,
      f { db with commitLog := t, commitSequence := seq, redactions := redactions } = f db) :
    f tx = f db := by
  obtain ⟨-, -, rfl⟩ := h.rest
  exact hf _ _ _

variable {intent : RedactedIntent} {recordedAt : Int} {call : CommitCall} {db : Db} {s : Session}

theorem beginCommit_envelope {leaseEpoch : Nat} {transactionId : String} {s s' : Session}
    {u : Unit} (h : beginCommit leaseEpoch intent transactionId recordedAt s = .ok u s') :
    Opens s.envelope.tx s'.envelope.tx ∧
      s'.envelope =
        { tx := s'.envelope.tx, commitSeq := s.envelope.tx.commitSequence + 1 } := by
  rw [beginCommit] at h
  obtain ⟨tx, rows, happly, h⟩ := exec_bind_eq_ok h
  obtain ⟨t, hinsert, heq⟩ := Checks.bind_eq_ok.mp happly
  cases heq
  obtain ⟨_, s₂, hopen, h⟩ := bind_eq_ok.mp h
  obtain ⟨-, rfl⟩ := EStateM.Result.ok.inj hopen
  obtain ⟨t', ht'⟩ := (redactsOnly_bind
    (redactsOnly_record "commit_log" transactionId "actor" intent.actor)
    fun _ => redactsOnly_record "commit_log" transactionId "cause" intent.cause).ok h
  rw [ht']
  exact ⟨⟨⟨t, t', rfl⟩, _, rfl, insertRow_rows hinsert⟩, rfl⟩

/-- **The operation starts in a new envelope** over the numbered commit. -/
theorem opened_eq_some (h : call.opened sys db = some (intent, recordedAt, s)) :
    Opens db s.envelope.tx ∧
      s.envelope = { tx := s.envelope.tx, commitSeq := db.commitSequence + 1 } := by
  rw [CommitCall.opened] at h
  split at h
  · split at h
    · cases h
    · split at h
      · cases h
      · dsimp only at h
        split at h
        · rename_i u s' hbegin
          cases h
          exact beginCommit_envelope hbegin
        · cases h
  · cases h

theorem commitSeq_of_opened (h : call.opened sys db = some (intent, recordedAt, s)) :
    s.envelope.commitSeq = db.commitSequence + 1 := by
  rw [(opened_eq_some h).2]

/-! ## The calls -/

/-- **What every call of an operation keeps**, the operation keeps. -/
theorem calls_rel {R : Session → Session → Prop} (hrefl : ∀ s, R s s)
    (htrans : ∀ s s' s'', R s s' → R s' s'' → R s s'') (operation : Operation) (s : Session)
    (hstep : ∀ k ∈ operation.calls sys s, R k.before (final (k.call.run sys) k.before)) :
    R s (final (operation.run sys) s) := by
  induction operation generalizing s with
  | ret result =>
    cases result with
    | ok result => exact hrefl s
    | error e => exact hrefl s
  | call c next ih =>
    rw [final_call]
    exact htrans _ _ _ (hstep ⟨c, s⟩ List.mem_cons_self)
      (ih _ _ fun k hk => hstep k (List.mem_cons_of_mem _ hk))

/-- What every call keeps holds between the start of the operation and each of its calls. -/
theorem rel_before_call {R : Session → Session → Prop} (hrefl : ∀ s, R s s)
    (htrans : ∀ s s' s'', R s s' → R s' s'' → R s s'')
    (hstep : ∀ (c : Call) s, R s (final (c.run sys) s)) {operation : Operation} {k : Called}
    (hk : k ∈ operation.calls sys s) : R s k.before := by
  induction operation generalizing s with
  | ret result => cases hk
  | call c next ih =>
    rcases List.mem_cons.mp hk with rfl | hk
    · exact hrefl s
    · exact htrans _ _ _ (hstep c s) (ih _ hk)

/-! ## The end -/

/-- The statements of the end of a commit. -/
inductive PublishWrites (seq : Nat) : Write → Prop where
  | event (row : ChangeEventRow) (hseq : row.commitSeq = seq) :
      PublishWrites seq (.insertChangeEvent row)
  | outbox (row : OutboxRow) (hseq : row.commitSeq = seq) : PublishWrites seq (.insertOutbox row)
  | receipt (row : ReceiptRow) : PublishWrites seq (.insertReceipt row)
  | redaction (row : RedactionRow) : PublishWrites seq (.insertRedaction row)
  | projection {w : Write} (hw : ProjectionWrites seq w) : PublishWrites seq w

theorem evolves_publishFrom {P : Nat → Write → Prop} {publish : PendingChange → Nat → M Unit}
    (h : ∀ change ordinal, Keeps (Evolves P) (publish change ordinal)) (ordinal : Nat)
    (changes : List PendingChange) : Keeps (Evolves P) (publishFrom publish ordinal changes) := by
  induction changes generalizing ordinal with
  | nil => exact evolves_pure _
  | cons change rest ih => exact evolves_bind (h _ _) fun _ => ih _

theorem evolves_publishEvent (transactionId : String) (change : PendingChange) (ordinal : Nat) :
    Keeps (Evolves PublishWrites) (publishEvent transactionId change ordinal) := by
  refine evolves_commitSeq_bind fun seq => evolves_exec_bind ?_ fun _ =>
    evolves_recordFields (fun _ _ _ => .redaction _) _ _ _
  rintro seq' rfl
  exact .event _ rfl

theorem evolves_publishOutbox (recordedAt : Int) (change : PendingChange) (ordinal : Nat) :
    Keeps (Evolves PublishWrites) (publishOutbox recordedAt change ordinal) := by
  refine evolves_commitSeq_bind fun seq => evolves_exec_bind ?_ fun _ =>
    evolves_bind (fun s => Evolves.refl _ s) fun _ =>
    evolves_recordFields (fun _ _ _ => .redaction _) _ _ _
  rintro seq' rfl
  exact .outbox _ rfl

/-- The end of a commit executes only these. -/
theorem evolves_publish (intent : RedactedIntent) (transactionId : String) (recordedAt : Int)
    (afterEvents : Except KernelError Unit) (result : String) :
    Keeps (Evolves PublishWrites)
      (publish sys intent transactionId recordedAt afterEvents result) := by
  refine evolves_bind (fun s => ?_) fun _ => evolves_bind (fun s => Evolves.refl _ s) fun _ =>
    evolves_check_bind fun _ =>
    evolves_bind (evolves_publishFrom (fun _ _ => evolves_publishEvent _ _ _) _ _) fun _ =>
    evolves_check_bind fun _ =>
    evolves_bind (evolves_publishFrom (fun _ _ => evolves_publishOutbox _ _ _) _ _) fun _ =>
    evolves_bind (fun s => Evolves.refl _ s) fun _ =>
    evolves_exec_bind (fun _ => .receipt _) fun _ =>
    evolves_bind (evolves_record (fun _ _ => .redaction _) _ _ _ _) fun _ =>
    evolves_bind ((evolves_rebuildIfAffected sys _).mono fun _ _ h =>
      h.mono fun _ _ => .projection) fun _ =>
    evolves_query_bind fun _ => evolves_pure _
  rw [final, requireUnpoisoned]
  cases s.envelope.poisoned <;> exact Evolves.refl _ s

/-- The tables these change. -/
def TableName.publishedTo : TableName → Bool
  | .changeEvent | .outbox | .operationReceipts | .redactions | .alignmentProjection
  | .alignmentProjectionState => true
  | _ => false

theorem PublishWrites.publishedTo {seq : Nat} {w : Write} (h : PublishWrites seq w) :
    w.target.publishedTo = true := by
  cases h with
  | projection hw => cases hw <;> rfl
  | event | outbox | receipt | redaction => rfl

/-- What the end of a commit leaves alone. -/
theorem publish_frame {transactionId : String}
    {afterEvents : Except KernelError Unit} {result : String} {s s' : Session}
    {receipt : CommitReceipt} {γ : Type} (f : Db → γ)
    (hf : ∀ t db db', db.ChangesOnly t db' → t.publishedTo = true → f db' = f db)
    (h : publish sys intent transactionId recordedAt afterEvents result s =
      .ok receipt s') : f s'.envelope.tx = f s.envelope.tx :=
  ((evolves_publish _ _ _ _ _).ok h).agree f fun _ _ _ hw hdb => hf _ _ _ hdb hw.publishedTo

/-! ## The whole commit -/

/-- An operation leaves the commit log alone. -/
theorem commitLog_of_attempts {s s' : Session} (h : Attempts OperationWrites s s') :
    s'.envelope.tx.commitLog = s.envelope.tx.commitLog ∧
      s'.envelope.tx.commitSequence = s.envelope.tx.commitSequence := by
  have hlog := h.agree (fun db => (⟨db.commitLog, db.commitSequence⟩ : _ × _))
    fun w db db' hw hdb => by
      have hclosing := hw.not_closing
      generalize w.target = t at hdb hclosing
      cases hdb <;> trivial
  exact Prod.mk.inj hlog

/-- **A commit that applies its operation** is numbered next and logged. -/
theorem log_of_applied {s s₁ s₂ : Session} {result : String} {receipt : CommitReceipt}
    (hopened : call.opened sys db = some (intent, recordedAt, s))
    (hrun : call.operation.run sys s = .ok result s₁)
    (hpublish : publish sys intent (intent.operationIdentity sys) recordedAt
      call.afterEvents result s₁ = .ok receipt s₂) : receipt.commitSeq = db.commitSequence + 1 ∧
      s₂.envelope.tx.commitSequence = db.commitSequence + 1 ∧
      ∃ row, row.commitSeq = db.commitSequence + 1 ∧
        s₂.envelope.tx.commitLog.rows = db.commitLog.rows ++ [row] := by
  have hopens := (opened_eq_some hopened).1
  have hattempts := (attempts_operation call.operation).ok hrun
  obtain ⟨hlog, hsequence⟩ := commitLog_of_attempts hattempts
  have hlog' : s₂.envelope.tx.commitLog = s₁.envelope.tx.commitLog :=
    publish_frame Db.commitLog (fun _ _ _ hdb ht => by cases hdb <;> trivial) hpublish
  have hsequence' : s₂.envelope.tx.commitSequence = s₁.envelope.tx.commitSequence :=
    publish_frame Db.commitSequence (fun _ _ _ hdb ht => by cases hdb <;> trivial) hpublish
  refine ⟨?_, ?_, ?_⟩
  · rw [(publish_eq_ok hpublish).2.1]
    exact hattempts.commitSeq.trans (commitSeq_of_opened hopened)
  · rw [hsequence', hsequence, hopens.commitSequence]
  · rw [hlog', hlog]
    exact hopens.commitLog

/-- What a call of `commit` leaves: the store as it was, at most another projection, or what the
end of the commit made of what the operation left. -/
inductive CommitPhases (sys : Platform) (call : CommitCall) (db : Db) :
    Except KernelError CommitReceipt → Db → Prop
  | failed (e : KernelError) : CommitPhases sys call db (.error e) db
  | replayed (receipt : CommitReceipt) (after : Db) (hreplayed : receipt.replayed = true)
      (hafter : SameButProjection db after) : CommitPhases sys call db (.ok receipt) after
  | applied (intent : RedactedIntent) (recordedAt : Int) (s s₁ s₂ : Session) (result : String)
      (receipt : CommitReceipt) (hreplayed : receipt.replayed = false)
      (hopened : call.opened sys db = some (intent, recordedAt, s))
      (hrun : call.operation.run sys s = .ok result s₁)
      (hpublish : publish sys intent (intent.operationIdentity sys) recordedAt
        call.afterEvents result s₁ = .ok receipt s₂) :
      CommitPhases sys call db (.ok receipt) s₂.envelope.tx

/-- A commit whose operation does not start fails or is a retry. -/
theorem phases_of_not_opened (h : call.opened sys db = none) :
    CommitPhases sys call db (call.run sys db).1 (call.run sys db).2 := by
  rw [CommitCall.run, commit]
  rw [CommitCall.opened] at h
  cases hintent : RedactedIntent.new sys call.intent with
  | error e => exact .failed e
  | ok intent =>
    rw [hintent] at h
    dsimp only
    rw [commitPrepared]
    split
    · exact .failed _
    · rename_i answer hfault
      split at h
      · rename_i intent' now hok hanswer
        cases hok
        split at h
        · rename_i hfence
          rw [if_pos hfence]
          exact .failed _
        · rename_i hfence
          rw [if_neg hfence]
          cases hfind : findReceipt intent.producer intent.operationKey db with
          | some receipt =>
            dsimp only
            rw [replay]
            split
            · exact .failed _
            · refine .replayed _ _ rfl ?_
              split
              · exact sameButProjection_repair sys _ _ _
              · exact rfl
          | none =>
            rw [hfind] at h
            dsimp only at h ⊢
            split at h
            · cases h
            · rename_i e s' hbegin
              have herror : runCommit sys call.leaseEpoch intent call.operation
                  call.afterEvents (startSession db call.answers.tail) = .error e s' := by
                refine bind_eq_error.mpr (Or.inl ?_)
                rw [runOperation, bind_of_ok currentTimeMs_apply]
                exact bind_eq_error.mpr (Or.inl hbegin)
              rw [herror]
              exact .failed _
      · rename_i hnone
        exfalso
        cases hanswer : call.answers.headD {} with
        | mk fault now =>
          cases fault with
          | none => exact hnone intent now rfl hanswer
          | some fault => exact hfault fault now hanswer

variable (sys) in
/-- **Every call of `commit`** goes through these phases. -/
theorem commit_phases (call : CommitCall) (db : Db) :
    CommitPhases sys call db (call.run sys db).1 (call.run sys db).2 := by
  cases hopened : call.opened sys db with
  | none => exact phases_of_not_opened hopened
  | some opened =>
    obtain ⟨intent, recordedAt, s⟩ := opened
    rw [(run_of_opened sys hopened).2]
    cases hrest : call.rest sys intent recordedAt s with
    | error e s' => exact .failed e
    | ok receipt s' =>
      obtain ⟨result, s₁, hrun, hpublish⟩ := bind_eq_ok.mp hrest
      have hreplayed : receipt.replayed = false := by
        rw [(publish_eq_ok hpublish).2.1]
      exact .applied intent recordedAt s s₁ s' result receipt hreplayed hopened hrun hpublish

end MagicContext.Kernel
