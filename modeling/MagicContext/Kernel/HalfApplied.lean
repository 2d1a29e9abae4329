import MagicContext.Kernel.ExactlyOnce

/-!
# Half-applied calls

A call that fails after its first row leaves that row in the open transaction, and the closure that
made the call may go on as if nothing had happened.  A method that poisons the envelope keeps such
a commit from succeeding.  The methods on scopes, decisions and observations do not poison, so
their rows are committed without a change that tells of them.

## What is here

* `Operation.calls` — the calls a closure makes, each with the session it starts in.
* `poisoned_of_failed` — a failed call of a poisoning method is remembered to the end.
* `Slips` — when a half-applied call goes unnoticed.
* `refuses_half_applied_iff` — a commit refuses half-applied calls exactly when none slips.
-/

namespace MagicContext.Kernel

open Transaction

variable (sys : Platform)

/-! ## The calls of a commit -/

/-- A call, and the session it starts in. -/
structure Called where
  call : Call
  before : Session

namespace Called

variable (k : Called)

/-- The call returns an error. -/
def failed : Bool :=
  match k.call.run sys k.before with
  | .ok _ _ => false
  | .error _ _ => true

/-- The call returns an error after it wrote a row. -/
def halfApplied : Bool :=
  match k.call.run sys k.before with
  | .ok _ _ => false
  | .error _ s => decide (k.before.written < s.written)

end Called

/-- The calls a closure makes, in order. -/
def Operation.calls : Operation → Session → List Called
  | .ret _, _ => []
  | .call c next, s =>
    ⟨c, s⟩ :: (next (c.outcome sys s)).calls (final (c.run sys) s)

/-- Where the operation of a commit starts: its intent, the time it is recorded at and the session;
none if the commit ends before, as a retry does. -/
def CommitCall.opened (call : CommitCall) (db : Db) : Option (RedactedIntent × Int × Session) :=
  match RedactedIntent.new sys call.intent, call.answers.headD {} with
  | .ok intent, { fault := none, .. } =>
    if !fenceHolds call.leaseEpoch db then none
    else match findReceipt intent.producer intent.operationKey db with
      | some _ => none
      | none =>
        let s := startSession db call.answers.tail
        match beginCommit call.leaseEpoch intent (intent.operationIdentity sys) s.answer.now
            s.advance with
        | .ok _ s' => some (intent, s.answer.now, s')
        | .error _ _ => none
  | _, _ => none

/-- The calls of a commit's operation. -/
def CommitCall.calls (call : CommitCall) (db : Db) : List Called :=
  match call.opened sys db with
  | some (_, _, s) => call.operation.calls sys s
  | none => []

/-! ## Poison -/

variable {s s' : Session}

section Poison
variable {sys}

theorem map_eq_error {α β : Type} {f : α → β} {m : M α} {e : KernelError} :
    (f <$> m) s = .error e s' ↔ m s = .error e s' := by
  rw [map_eq_pure_bind, bind_eq_error]
  constructor
  · rintro (h | ⟨a, s₁, -, h⟩)
    · exact h
    · cases h
  · exact Or.inl

theorem map_eq_ok {α β : Type} {f : α → β} {m : M α} {b : β} :
    (f <$> m) s = .ok b s' ↔ ∃ a, m s = .ok a s' ∧ f a = b := by
  rw [map_eq_pure_bind, bind_eq_ok]
  constructor
  · rintro ⟨a, s₁, h, hpure⟩
    obtain ⟨rfl, rfl⟩ := EStateM.Result.ok.inj hpure
    exact ⟨a, h, rfl⟩
  · rintro ⟨a, h, rfl⟩
    exact ⟨a, s', h, rfl⟩

/-- A failed call of a poisoning method poisons. -/
theorem poisoned_of_call {c : Call} (hc : c.poisons = true) {e : KernelError}
    (h : c.run sys s = .error e s') : s'.envelope.poisoned.isSome := by
  obtain ⟨β, f, m, hrun, -⟩ := @call_of_poisons sys _ hc
  rw [hrun, map_eq_error] at h
  rw [guarded_eq_error h]
  rfl

/-- Any other call leaves the poison as it is, unless a poisoning method failed. -/
theorem samePoison_of_call {c : Call} (h : c.poisons = true → (Called.mk c s).failed sys = false) :
    (final (c.run sys) s).envelope.poisoned = s.envelope.poisoned := by
  cases hpoisons : c.poisons with
  | false => exact (evolves_call hpoisons s).samePoison
  | true =>
    have hok := h hpoisons
    rw [Called.failed] at hok
    cases hrun : c.run sys s with
    | error e s' =>
      rw [hrun] at hok
      cases hok
    | ok reply s' =>
      rw [final_of_ok hrun]
      obtain ⟨β, f, m, heq, hm⟩ := @call_of_poisons sys _ hpoisons
      rw [heq, map_eq_ok] at hrun
      obtain ⟨a, hguarded, -⟩ := hrun
      exact hm.clean _ _ _ (guarded_eq_ok.mp hguarded).2

/-- **A failed call of a poisoning method** is remembered to the end of the closure. -/
theorem poisoned_of_failed {operation : Operation} {k : Called}
    (hk : k ∈ operation.calls sys s) (hpoisons : k.call.poisons = true)
    (hfailed : k.failed sys = true) :
    (final (operation.run sys) s).envelope.poisoned.isSome := by
  induction operation generalizing s with
  | ret result => cases hk
  | call c next ih =>
    rw [final_call]
    rcases List.mem_cons.mp hk with rfl | hk
    · have hpoisoned : (final (c.run sys) s).envelope.poisoned.isSome := by
        rw [Called.failed] at hfailed
        cases hrun : c.run sys s with
        | ok reply s' =>
          rw [hrun] at hfailed
          cases hfailed
        | error e s' =>
          rw [final_of_error hrun]
          exact poisoned_of_call hpoisons hrun
      exact (attempts_operation _ _).poisoned hpoisoned
    · exact ih _ hk

/-- A closure none of whose poisoning calls fails leaves the poison as it is. -/
theorem samePoison_of_calls {operation : Operation}
    (h : ∀ k ∈ operation.calls sys s, k.call.poisons = true → k.failed sys = false) :
    (final (operation.run sys) s).envelope.poisoned = s.envelope.poisoned := by
  induction operation generalizing s with
  | ret result => exact (evolves_check (P := OperationWrites) result s).samePoison
  | call c next ih =>
    rw [final_call, ih _ fun k hk => h k (List.mem_cons_of_mem _ hk)]
    exact samePoison_of_call (h ⟨c, s⟩ List.mem_cons_self)

end Poison

/-! ## Commits -/

/-- What follows the start of a commit's operation. -/
def CommitCall.rest (call : CommitCall) (intent : RedactedIntent) (recordedAt : Int) :
    M CommitReceipt := do
  let result ← call.operation.run sys
  publish sys intent (intent.operationIdentity sys) recordedAt call.afterEvents result

theorem runCommit_of_begin {call : CommitCall} {intent : RedactedIntent} {u : Unit}
    (h : beginCommit call.leaseEpoch intent (intent.operationIdentity sys) s.answer.now
      s.advance = .ok u s') :
    runCommit sys call.leaseEpoch intent call.operation call.afterEvents s =
      call.rest sys intent s.answer.now s' := by
  rw [runCommit, runOperation]
  simp only [bind_assoc, pure_bind]
  rw [bind_of_ok (currentTimeMs_apply (s := s)), bind_of_ok h]
  rfl

/-- The operation starts in an envelope that is not poisoned, and decides what the commit does. -/
theorem run_of_opened {call : CommitCall} {db : Db} {intent : RedactedIntent} {recordedAt : Int}
    (h : call.opened sys db = some (intent, recordedAt, s)) :
    s.envelope.poisoned = none ∧
      call.run sys db = settle db (call.rest sys intent recordedAt s) := by
  rw [CommitCall.opened] at h
  split at h
  · rename_i intent' now hintent hanswer
    split at h
    · cases h
    · rename_i hfence
      split at h
      · cases h
      · rename_i hreceipt
        dsimp only at h
        split at h
        · rename_i u s' hbegin
          cases h
          refine ⟨(beginCommit_eq_ok hbegin).2.2, ?_⟩
          rw [CommitCall.run, commit, hintent]
          dsimp only
          rw [commitPrepared, hanswer]
          rw [if_neg hfence, hreceipt]
          rw [runCommit_of_begin sys hbegin]
        · cases h
  · cases h

/-- If a call of the operation fails after it wrote a row, the commit fails and changes nothing. -/
def RefusesHalfApplied (call : CommitCall) (db : Db) : Prop :=
  (∃ k ∈ call.calls sys db, k.halfApplied sys = true) →
    (∃ e, (call.run sys db).1 = .error e) ∧ (call.run sys db).2 = db

/-- A half-applied call goes unnoticed: its method does not poison, no poisoning method fails in
the same operation, the closure ends with a result, and nothing stands in the way of publishing
that result and the changes. -/
def Slips (call : CommitCall) (db : Db) : Prop :=
  ∃ intent recordedAt s, call.opened sys db = some (intent, recordedAt, s) ∧
    (∃ k ∈ call.operation.calls sys s, k.call.poisons = false ∧ k.halfApplied sys = true) ∧
    (∀ k ∈ call.operation.calls sys s, k.call.poisons = true → k.failed sys = false) ∧
    ∃ result s', call.operation.run sys s = .ok result s' ∧
      ∃ receipt s'', publish sys intent (intent.operationIdentity sys) recordedAt
        call.afterEvents result (s'.remember fun env => { env with poisoned := none }) =
          .ok receipt s''

/-- **Half-applied calls are refused exactly when none slips.** -/
theorem refuses_half_applied_iff (call : CommitCall) (db : Db) :
    RefusesHalfApplied sys call db ↔ ¬ Slips sys call db := by
  constructor
  · rintro hrefuses ⟨intent, recordedAt, s, hopened, ⟨k, hk, -, hhalf⟩, hclean, result, s', hrun,
      receipt, s'', hpublish⟩
    obtain ⟨hnone, hcommit⟩ := run_of_opened sys hopened
    have hcalls : call.calls sys db = call.operation.calls sys s := by
      rw [CommitCall.calls, hopened]
    obtain ⟨⟨e, he⟩, -⟩ := hrefuses ⟨k, by rwa [hcalls], hhalf⟩
    have hunpoisoned : s'.envelope.poisoned = none := by
      have h := samePoison_of_calls hclean
      rwa [final_of_ok hrun, hnone] at h
    have hsame : (s'.remember fun env => { env with poisoned := none }) = s' := by
      rw [Session.remember, ← hunpoisoned]
    rw [hsame] at hpublish
    have hrest : call.rest sys intent recordedAt s = .ok receipt s'' :=
      bind_eq_ok.mpr ⟨result, s', hrun, hpublish⟩
    rw [hcommit, hrest] at he
    cases he
  · rintro hslips ⟨k, hk, hhalf⟩
    rw [CommitCall.calls] at hk
    cases hopened : call.opened sys db with
    | none =>
      rw [hopened] at hk
      cases hk
    | some opened =>
      obtain ⟨intent, recordedAt, s⟩ := opened
      rw [hopened] at hk
      obtain ⟨-, hcommit⟩ := run_of_opened sys hopened
      rw [hcommit]
      cases hrest : call.rest sys intent recordedAt s with
      | error e s'' => exact ⟨⟨e, rfl⟩, rfl⟩
      | ok receipt s'' =>
        refine absurd ?_ hslips
        obtain ⟨result, s', hrun, hpublish⟩ := bind_eq_ok.mp hrest
        have hunpoisoned : s'.envelope.poisoned = none := (publish_eq_ok hpublish).1
        have hclean : ∀ k ∈ call.operation.calls sys s,
            k.call.poisons = true → k.failed sys = false := by
          intro k hk hpoisons
          by_contra hfailed
          have h := poisoned_of_failed hk hpoisons (Bool.not_eq_false _ ▸ hfailed)
          rw [final_of_ok hrun, hunpoisoned] at h
          cases h
        have hsame : (s'.remember fun env => { env with poisoned := none }) = s' := by
          rw [Session.remember, ← hunpoisoned]
        refine ⟨intent, recordedAt, s, hopened, ⟨k, hk, ?_, hhalf⟩, hclean, result, s', hrun,
          receipt, s'', by rwa [hsame]⟩
        by_contra hpoisons
        have h := hclean k hk (Bool.not_eq_false _ ▸ hpoisons)
        rw [Called.failed] at h
        rw [Called.halfApplied] at hhalf
        cases hcall : k.call.run sys k.before with
        | ok reply s₁ =>
          rw [hcall] at hhalf
          cases hhalf
        | error e s₁ =>
          rw [hcall] at h
          cases h

/-! ## A decision with a taken id -/

namespace Sample

/-- The digests of three operations. -/
def digests : List (String × String) :=
  [("domain", "4403d03caf1b3dc6cdd08154126ff207feefd4f8c239b23a9f04d4db953ce71c"),
    ("decision", "94fcb7af574a15261c82e3b506a5221402936a2e13ed9bb83abbe4f8ba873295"),
    ("half", "cb3b1bc89b1acea5cc18e7d92f44cbb5facdcc036502798f912572ec592898e4")]

/-- A domain with one decision. -/
def oneDecision : Db :=
  run (plainPlatform digests)
    [.upkeep (.stampWriterFence 1), .commit (call "domain" (.insertDomain domain)),
      .commit (call "decision" (.insertDecision (decision "D" "first" "choice")))] .fresh

/-- Another object under the id of that decision, whose error the closure discards. -/
def takenId : CommitCall := call "half" (.insertDecision (decision "D" "second" "choice"))

end Sample

/-- The registry row of the second object is committed, and no change tells of it. -/
theorem half_applied_commit :
    ¬ RefusesHalfApplied (Sample.plainPlatform Sample.digests) Sample.takenId
      Sample.oneDecision := by
  intro h
  have hhalf : ((Sample.takenId.calls (Sample.plainPlatform Sample.digests) Sample.oneDecision).any
      (Called.halfApplied (Sample.plainPlatform Sample.digests))) = true := by decide +kernel
  have hok : (Sample.takenId.run (Sample.plainPlatform Sample.digests) Sample.oneDecision).1.isOk =
      true := by decide +kernel
  obtain ⟨⟨e, he⟩, -⟩ := h (List.any_eq_true.mp hhalf)
  rw [he] at hok
  cases hok

end MagicContext.Kernel
