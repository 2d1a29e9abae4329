import MagicContext.Claims.Store

/-!
# The ledger of claim intents

A command is staged once; then it is committed and acknowledged, or it is rejected for good.  What
was recorded for it stays as it is, and every call that fails or only repeats leaves no trace.

## What is here

* `Advances`, `Evolves` — how a record changes.
* `acknowledgeTransaction_eq_ok`, `stageTransaction_eq_ok` — what a call that succeeds has done.
* `LedgerInv` — a record has a result once it has left the first state.
* `ledger_step` — what each call of a run does.
-/

namespace MagicContext.Claims

open Checks ClaimStore Table

/-! ## How records change -/

/-- The steps of a record's state. -/
inductive Advances : ClaimIntentState → ClaimIntentState → Prop
  | commit : Advances .staged .contextCommitted
  | acknowledge : Advances .contextCommitted .acknowledged
  | reject : Advances .staged .terminalRejected

theorem Advances.ne_staged {a b : ClaimIntentState} (h : Advances a b) : b ≠ .staged := by
  cases h <;> decide

/-- A record before and after a call. -/
structure Evolves (record record' : ClaimIntentRecord) : Prop where
  command : record'.command = record.command
  requestDigest : record'.requestDigest = record.requestDigest
  binding : record'.binding = record.binding
  state : record' = record ∨ Advances record.state record'.state
  /-- A result is never altered. -/
  result : record.resultJson ≠ none → record'.resultJson = record.resultJson

theorem Evolves.refl (record : ClaimIntentRecord) : Evolves record record :=
  ⟨rfl, rfl, rfl, .inl rfl, fun _ => rfl⟩

/-- A record has a result once it has left the first state. -/
def ClaimIntentRecord.Settled (record : ClaimIntentRecord) : Prop :=
  record.resultJson = none ↔ record.state = .staged

/-- A record as a stage makes it. -/
def ClaimIntentRecord.IsNew (record : ClaimIntentRecord) : Prop :=
  record.state = .staged ∧ record.resultJson = none

variable {record : ClaimIntentRecord} {binding : ClaimIntentBinding} {digest : String}
  {kind : ClaimIntentAckKind} {resultJson : Option String}

theorem ClaimIntentRecord.IsNew.settled (h : record.IsNew) : record.Settled :=
  iff_of_true h.2 h.1

/-! ## What a call that succeeds has done -/

theorem requireSameCommand_eq_ok {u : Unit} (h : requireSameCommand record binding digest = .ok u) :
    record.requestDigest = digest ∧ record.binding = binding := by
  rw [requireSameCommand, check_eq_ok, requireClaimIntentBinding, check_eq_ok, check_eq_ok,
    check_eq_ok, check_eq_ok] at h
  obtain ⟨hdigest, hincarnation, hepoch, hproject, hgeneration, -⟩ := h
  refine ⟨not_not.mp hdigest, ?_⟩
  have hparts := ClaimIntentBinding.mk.injEq record.binding.databaseIncarnationId
    record.binding.formatEpoch record.binding.authorityProject record.binding.authorityGeneration
    binding.databaseIncarnationId binding.formatEpoch binding.authorityProject
    binding.authorityGeneration
  exact hparts.mpr ⟨not_not.mp hincarnation, not_not.mp hepoch, not_not.mp hproject,
    not_not.mp hgeneration⟩

/-- The results that come with each kind. -/
theorem validateAckResult_eq_ok {json : JsonText} {u : Unit}
    (h : validateAckResult json kind resultJson = .ok u) :
    resultJson = none ↔ kind = .acknowledged := by
  cases kind <;> cases resultJson <;> simp_all [validateAckResult]

/-- A step of a record's state. -/
theorem nextState_eq_some {state : ClaimIntentState}
    (h : nextState kind record resultJson = .ok (some state)) :
    Advances record.state state ∧ (record.state = .staged ↔ kind ≠ .acknowledged) := by
  have hsame : nextState.sameResult record resultJson ≠ .ok (some state) := by
    rw [nextState.sameResult]
    split <;> simp
  unfold nextState at h
  split at h
  case h_1 hstate => cases h; rw [hstate]; exact ⟨.commit, by decide⟩
  case h_2 hstate => cases h; rw [hstate]; exact ⟨.reject, by decide⟩
  case h_3 hstate => cases h; rw [hstate]; exact ⟨.acknowledge, by decide⟩
  all_goals first | exact absurd h hsame | cases h

/-- An update that takes the state on. -/
theorem evolves_acknowledge {state : ClaimIntentState} (nowMs : Int) (hsettled : record.Settled)
    (hkind : resultJson = none ↔ kind = .acknowledged)
    (hnext : nextState kind record resultJson = .ok (some state)) :
    Evolves record (record.acknowledge state resultJson nowMs) ∧
      (record.acknowledge state resultJson nowMs).Settled := by
  obtain ⟨hadvance, hstaged⟩ := nextState_eq_some hnext
  have hresult : record.resultJson ≠ none → resultJson = none := by
    intro hne
    by_contra hsome
    exact hne (hsettled.mpr (hstaged.mpr fun h => hsome (hkind.mpr h)))
  refine ⟨⟨rfl, rfl, rfl, .inr hadvance, fun hne => ?_⟩, ?_⟩
  · change resultJson.or record.resultJson = _
    rw [hresult hne, Option.none_or]
  · change resultJson.or record.resultJson = none ↔ state = .staged
    refine iff_of_false ?_ hadvance.ne_staged
    rw [Option.or_eq_none_iff, hkind]
    rintro ⟨hk, hnone⟩
    exact hstaged.mp (hsettled.mp hnone) hk

variable {sys : Platform}

variable {command : ClaimCommandIdentity} {nowMs : Int} {outcome : ClaimIntentMutationOutcome}

/-- What an acknowledgement has done: nothing, or one step of its record. -/
theorem acknowledgeTransaction_eq_ok {ledger ledger' : Ledger}
    (h : acknowledgeTransaction sys ledger binding command digest kind resultJson nowMs =
      .ok (outcome, ledger')) : ∃ record, ledger.get command = some record ∧
      ((outcome.replayed = true ∧ ledger' = ledger) ∨
        outcome.replayed = false ∧ ∃ state, nextState kind record resultJson = .ok (some state) ∧
          ledger' = ledger.acknowledge command state resultJson nowMs) := by
  rw [acknowledgeTransaction] at h
  split at h
  · cases h
  · rename_i record hget
    obtain ⟨-, -, h⟩ := bind_eq_ok.mp h
    obtain ⟨next, hnext, h⟩ := bind_eq_ok.mp h
    refine ⟨record, hget, ?_⟩
    cases next with
    | none =>
      obtain ⟨rfl, rfl⟩ := Prod.mk.inj (Except.ok.inj h)
      exact .inl ⟨rfl, rfl⟩
    | some state =>
      obtain ⟨-, -, h⟩ := bind_eq_ok.mp h
      obtain ⟨rfl, rfl⟩ := Prod.mk.inj (Except.ok.inj h)
      exact .inr ⟨rfl, state, hnext, rfl⟩

/-- What a stage has done: nothing, or one new record. -/
theorem stageTransaction_eq_ok {fence : Except StoreError Unit} {ledger ledger' : Ledger}
    {identities : List String}
    (h : stageTransaction sys fence ledger binding command digest identities nowMs =
      .ok (outcome, ledger')) :
    outcome.record.command = command ∧ outcome.record.binding = binding ∧
      (outcome.record.state = .staged → fence = .ok ()) ∧
      ((outcome.replayed = true ∧ ledger' = ledger) ∨
        (outcome.replayed = false ∧ outcome.record.IsNew ∧
          ledger.insert outcome.record = some ledger')) := by
  rw [stageTransaction] at h
  split at h
  · rename_i record hget
    obtain ⟨outcome', hreplay, h⟩ := bind_eq_ok.mp h
    obtain ⟨rfl, rfl⟩ := Prod.mk.inj (Except.ok.inj h)
    rw [replayStage] at hreplay
    obtain ⟨_, hsame, hreplay⟩ := bind_eq_ok.mp hreplay
    obtain ⟨_, hfence, hreplay⟩ := bind_eq_ok.mp hreplay
    cases hreplay
    refine ⟨(get_eq_some.mp hget).2, (requireSameCommand_eq_ok hsame).2, ?_, .inl ⟨rfl, rfl⟩⟩
    intro hstaged
    rwa [stagedFence, if_pos hstaged] at hfence
  · obtain ⟨_, hfence, h⟩ := bind_eq_ok.mp h
    obtain ⟨-, -, h⟩ := bind_eq_ok.mp h
    obtain ⟨ledger₁, hinsert, h⟩ := bind_eq_ok.mp h
    obtain ⟨rfl, rfl⟩ := Prod.mk.inj (Except.ok.inj h)
    refine ⟨rfl, rfl, fun _ => hfence, .inr ⟨rfl, ⟨rfl, rfl⟩, ?_⟩⟩
    rw [Ledger.insertRecord] at hinsert
    split at hinsert
    · split at hinsert
      · rename_i ledger₂ hledger
        cases hinsert
        exact hledger
      · cases hinsert
    · cases hinsert

/-! ## The calls on the store -/

section Calls
variable {sys : MirrorPlatform} {s s' : ClaimStore}

theorem stageIntent_cases {route : String} {request : Json}
    (h : stageIntent sys s route binding command request nowMs = .ok (outcome, s')) :
    outcome.record.binding = binding ∧
      (outcome.record.state = .staged → s.stageFence route binding = .ok ()) ∧
      ((outcome.replayed = true ∧ s' = s) ∨
        (outcome.replayed = false ∧ outcome.record.IsNew ∧
          s.intents.insert outcome.record = some s'.intents)) := by
  obtain ⟨intents, hstage, rfl⟩ := stageIntent_eq_ok h
  rw [stageClaimIntent] at hstage
  obtain ⟨-, -, hstage⟩ := bind_eq_ok.mp hstage
  obtain ⟨-, -, hstage⟩ := bind_eq_ok.mp hstage
  obtain ⟨digest, -, hstage⟩ := bind_eq_ok.mp hstage
  obtain ⟨-, hbinding, hfence, hcases⟩ := stageTransaction_eq_ok hstage
  refine ⟨hbinding, hfence, hcases.imp ?_ id⟩
  rintro ⟨hreplayed, rfl⟩
  exact ⟨hreplayed, rfl⟩

theorem acknowledgeIntent_cases
    (h : acknowledgeIntent sys s binding command digest kind resultJson nowMs =
      .ok (outcome, s')) : ∃ record, s.intents.get command = some record ∧
      (resultJson = none ↔ kind = .acknowledged) ∧
      ((outcome.replayed = true ∧ s' = s) ∨
        (outcome.replayed = false ∧ ∃ state, nextState kind record resultJson = .ok (some state) ∧
          s'.intents = s.intents.acknowledge command state resultJson nowMs)) := by
  obtain ⟨intents, hack, rfl⟩ := acknowledgeIntent_eq_ok h
  rw [acknowledgeClaimIntent] at hack
  obtain ⟨-, -, hack⟩ := bind_eq_ok.mp hack
  obtain ⟨-, hack⟩ := check_eq_ok.mp hack
  obtain ⟨_, hresult, hack⟩ := bind_eq_ok.mp hack
  obtain ⟨-, -, hack⟩ := bind_eq_ok.mp hack
  obtain ⟨record, hget, hcases⟩ := acknowledgeTransaction_eq_ok hack
  refine ⟨record, hget, validateAckResult_eq_ok hresult, hcases.imp ?_ id⟩
  rintro ⟨hreplayed, rfl⟩
  exact ⟨hreplayed, rfl⟩

/-- The calls that write the ledger. -/
def Call.onLedger : Call → Bool
  | stage .. | acknowledge .. => true
  | _ => false

theorem intents_insertNote (note : Note) : (insertNote s note).intents = s.intents := by
  rw [insertNote]
  split <;> rfl

theorem intents_updateNote (note : Note) : (updateNote s note).intents = s.intents := by
  rw [updateNote]
  split <;> rfl

theorem intents_deleteNote (id : Nat) : (deleteNote s id).intents = s.intents := by
  rw [deleteNote]
  split <;> rfl

theorem intents_of_onAuthority {call : Call} (hcall : call.onAuthority = true) :
    (s.after sys call).intents = s.intents := by
  rcases h : ((call.perform sys s).1).row? with _ | row'
  · rw [after_of_failed hcall h]
  · obtain ⟨key, -, -, htransited⟩ := transits_of_reply h
    exact htransited.same.intents

theorem intents_of_other {call : Call} (hcall : call.onLedger = false) :
    (s.after sys call).intents = s.intents := by
  cases call with
  | beginRebuild incarnation g =>
    exact commitUnit_same _ fun s' h => (beginClaimStoreRebuild_eq_ok h).2 ▸ rfl
  | replaceMirror snapshot =>
    refine commitUnit_same _ fun s' h => ?_
    obtain ⟨-, -, -, rfl⟩ := replaceMirror_eq_ok h
    rfl
  | applyReceipt group =>
    refine commit_same _ fun result s' h => ?_
    obtain ⟨-, -, rfl⟩ := applyReceipt_eq_ok h
    rfl
  | deleteMirror =>
    refine commitUnit_same _ fun s' h => ?_
    obtain ⟨-, -, rfl⟩ := deleteMirror_eq_ok h
    rfl
  | stage => cases hcall
  | acknowledge => cases hcall
  | insertNote note => exact intents_insertNote note
  | updateNote note => exact intents_updateNote note
  | deleteNote id => exact intents_deleteNote id
  | _ => exact intents_of_onAuthority rfl

/-- Every record of the one store has a successor in the other, where the other ones are new. -/
structure LedgerKeeps (s s' : ClaimStore) : Prop where
  kept : ∀ record ∈ s.intents, ∃ record' ∈ s'.intents, Evolves record record'
  new : ∀ record' ∈ s'.intents, (∃ record ∈ s.intents, Evolves record record') ∨ record'.IsNew

theorem LedgerKeeps.of_eq {s s' : ClaimStore} (h : s'.intents = s.intents) : LedgerKeeps s s' := by
  refine ⟨fun record hrecord => ⟨record, h ▸ hrecord, Evolves.refl record⟩, fun record hrecord => ?_⟩
  exact .inl ⟨record, h ▸ hrecord, Evolves.refl record⟩

/-- A record has a result once it has left the first state. -/
def LedgerInv (s : ClaimStore) : Prop := ∀ record ∈ s.intents, record.Settled

/-- **One call** keeps every record, or takes it one step on. -/
theorem ledger_step (hinv : LedgerInv s) (call : Call) :
    LedgerKeeps s (s.after sys call) ∧ LedgerInv (s.after sys call) := by
  have hsame : ∀ {s'}, s'.intents = s.intents → LedgerKeeps s s' ∧ LedgerInv s' := by
    intro s' heq
    refine ⟨LedgerKeeps.of_eq heq, ?_⟩
    rw [LedgerInv, heq]
    exact hinv
  cases call with
  | stage route binding command request nowMs =>
    rcases h : stageIntent sys s route binding command request nowMs with e | ⟨outcome, s'⟩
    · exact hsame (commit_same _ fun a s' h' => by rw [h] at h'; cases h')
    · have hafter : s.after sys (.stage route binding command request nowMs) = s' :=
        congrArg (fun r => (s.commit r).2) h
      rw [hafter]
      obtain ⟨-, -, ⟨-, rfl⟩ | ⟨-, hnew, hinsert⟩⟩ := stageIntent_cases h
      · exact hsame rfl
      · refine ⟨⟨fun record hrecord => ?_, fun record hrecord => ?_⟩, fun record hrecord => ?_⟩
        · exact ⟨record, (mem_insert hinsert).mpr (.inl hrecord), Evolves.refl record⟩
        · rcases (mem_insert hinsert).mp hrecord with hrecord | rfl
          · exact .inl ⟨record, hrecord, Evolves.refl record⟩
          · exact .inr hnew
        · rcases (mem_insert hinsert).mp hrecord with hrecord | rfl
          · exact hinv record hrecord
          · exact hnew.settled
  | acknowledge binding command digest kind resultJson nowMs =>
    rcases h : acknowledgeIntent sys s binding command digest kind resultJson nowMs with
      e | ⟨outcome, s'⟩
    · exact hsame (commit_same _ fun a s' h' => by rw [h] at h'; cases h')
    · have hafter : s.after sys (.acknowledge binding command digest kind resultJson nowMs) =
          s' := congrArg (fun r => (s.commit r).2) h
      rw [hafter]
      obtain ⟨record₀, hget, hkind, ⟨-, rfl⟩ | ⟨-, state, hnext, hintents⟩⟩ :=
        acknowledgeIntent_cases h
      · exact hsame rfl
      · obtain ⟨hmem₀, hkey₀⟩ := get_eq_some.mp hget
        have hrecord : ∀ record ∈ s.intents, record.command = command → record = record₀ :=
          fun record hmem hkey => eq_of_key hmem hmem₀ (hkey.trans hkey₀.symm)
        have hevolves := evolves_acknowledge nowMs (hinv record₀ hmem₀) hkind hnext
        have hafter : ∀ record ∈ s.intents, ∃ record' ∈ s'.intents, Evolves record record' ∧
            record'.Settled := by
          intro record hmem
          rw [hintents, Ledger.acknowledge]
          by_cases hkey : record.command = command
          · refine ⟨_, mem_update.mpr ⟨record, hmem, rfl⟩, ?_⟩
            rw [if_pos (decide_eq_true hkey), hrecord record hmem hkey]
            exact hevolves
          · exact ⟨record, mem_update_of_not hmem (decide_eq_false hkey),
              Evolves.refl record, hinv record hmem⟩
        have hbefore : ∀ record' ∈ s'.intents, ∃ record ∈ s.intents, Evolves record record' ∧
            record'.Settled := by
          intro record' hmem'
          have hmem := hmem'
          rw [hintents, Ledger.acknowledge] at hmem
          obtain ⟨record, hmem, heq⟩ := mem_update.mp hmem
          obtain ⟨record₁, hmem₁, hrel, hsettled⟩ := hafter record hmem
          have hcommand : record'.command = record.command := by
            rw [heq]
            split <;> rfl
          rw [eq_of_key hmem' hmem₁ (hcommand.trans hrel.command.symm)]
          exact ⟨record, hmem, hrel, hsettled⟩
        refine ⟨⟨fun record hmem => ?_, fun record' hmem' => ?_⟩, fun record' hmem' => ?_⟩
        · obtain ⟨record', hmem', hrel, -⟩ := hafter record hmem
          exact ⟨record', hmem', hrel⟩
        · obtain ⟨record, hmem, hrel, -⟩ := hbefore record' hmem'
          exact .inl ⟨record, hmem, hrel⟩
        · obtain ⟨-, -, -, hsettled⟩ := hbefore record' hmem'
          exact hsettled
  | _ => exact hsame (intents_of_other rfl)

/-- The invariant holds after every run. -/
theorem ledger_run (hinv : LedgerInv s) (calls : List Call) : LedgerInv (s.run sys calls) := by
  induction calls generalizing s with
  | nil => exact hinv
  | cons call calls ih => exact ih (ledger_step hinv call).2

/-- A record at two moments of a run. -/
structure Persists (record record' : ClaimIntentRecord) : Prop where
  command : record'.command = record.command
  requestDigest : record'.requestDigest = record.requestDigest
  binding : record'.binding = record.binding
  state : Relation.ReflTransGen Advances record.state record'.state
  result : record.resultJson ≠ none → record'.resultJson = record.resultJson

theorem Persists.refl (record : ClaimIntentRecord) : Persists record record :=
  ⟨rfl, rfl, rfl, .refl, fun _ => rfl⟩

theorem Evolves.persists_trans {r₁ r₂ r₃ : ClaimIntentRecord} (h : Evolves r₁ r₂)
    (h' : Persists r₂ r₃) : Persists r₁ r₃ := by
  refine ⟨h'.command.trans h.command, h'.requestDigest.trans h.requestDigest,
    h'.binding.trans h.binding, ?_, fun hne => ?_⟩
  · rcases h.state with rfl | hadvance
    · exact h'.state
    · exact Relation.ReflTransGen.head hadvance h'.state
  · rw [← h.result hne]
    exact h'.result (h.result hne ▸ hne)

/-- A record of some moment is there at every later one. -/
theorem persists_run (hinv : LedgerInv s) (later : List Call) (h : record ∈ s.intents) :
    ∃ record' ∈ (s.run sys later).intents, Persists record record' := by
  induction later generalizing s record with
  | nil => exact ⟨record, h, Persists.refl record⟩
  | cons call later ih =>
    obtain ⟨hkeeps, hinv'⟩ := @ledger_step sys s hinv call
    obtain ⟨record₁, hmem₁, hevolves⟩ := hkeeps.kept record h
    obtain ⟨record', hmem', hpersists⟩ := ih hinv' hmem₁
    exact ⟨record', hmem', hevolves.persists_trans hpersists⟩

/-- A call that fails, or that only repeats, changes nothing. -/
theorem after_of_intent {call : Call} {result : Except StoreError ClaimIntentMutationOutcome}
    (h : (call.perform sys s).1 = .intent result)
    (hresult : ∀ outcome, result = .ok outcome → outcome.replayed = true) :
    s.after sys call = s := by
  cases call with
  | stage route binding command request nowMs =>
    have hreply := Reply.intent.inj h
    refine commit_same id fun outcome s' hstage => ?_
    have houtcome : outcome.replayed = true := by
      refine hresult outcome (hreply.symm.trans ?_)
      exact congrArg (fun r => (s.commit r).1) hstage
    obtain ⟨-, -, ⟨-, hs'⟩ | ⟨hreplayed, -⟩⟩ := stageIntent_cases hstage
    · exact hs'
    · cases hreplayed.symm.trans houtcome
  | acknowledge binding command digest kind resultJson nowMs =>
    have hreply := Reply.intent.inj h
    refine commit_same id fun outcome s' hack => ?_
    have houtcome : outcome.replayed = true := by
      refine hresult outcome (hreply.symm.trans ?_)
      exact congrArg (fun r => (s.commit r).1) hack
    obtain ⟨-, -, -, ⟨-, hs'⟩ | ⟨hreplayed, -⟩⟩ := acknowledgeIntent_cases hack
    · exact hs'
    · cases hreplayed.symm.trans houtcome
  | _ => cases h

end Calls

/-! ## The fence -/

/-- The control row, if there is one, accepts. -/
def Accepting (control : Option ClaimIntentControl) : Prop :=
  ∀ c, control = some c → c.transitionState = .accepting

/-- **What the fence lets through.** -/
theorem claimIntentStageFence_eq_ok {control : Option ClaimIntentControl}
    {authority : Option RouteAuthority} : claimIntentStageFence control authority binding = .ok () ↔
      Accepting control ∧
        authority = some ⟨binding.authorityProject, .MODULE, binding.authorityGeneration⟩ := by
  have hfilter : control.filter (fun c => c.transitionState != .accepting) = none ↔
      Accepting control := by
    cases control <;> simp [Accepting]
  unfold claimIntentStageFence
  split
  · rename_i c h
    rw [h] at hfilter
    exact iff_of_false (by simp) fun h' => by cases hfilter.mpr h'.1
  · rename_i h
    rw [and_iff_right (hfilter.mp h)]
    cases authority with
    | none => simp
    | some authority =>
      obtain ⟨-, -, -⟩ := authority
      simp only [check_eq_ok, not_not, Option.some_inj, RouteAuthority.mk.injEq, and_true]
      exact and_left_comm

/-! ## Runs -/

/-- **The ledger is a faithful state machine.**  After any run, a command has one record, which has
a result once it has left the first state.  The next call keeps every record or takes it one step
on, and adds none but new ones; what a record is when it is made, and its result, stay over every
later run.  A call that fails or only repeats changes nothing, and a staged command is staged, or
staged again, only under the authority that its binding names. -/
theorem claimIntents_faithful (sys : MirrorPlatform)
    (routes : String → Option (String × String)) (calls : List Call) (call : Call) :
    let s := (ClaimStore.fresh routes).run sys calls
    let s' := s.after sys call
    (∀ r ∈ s.intents, ∀ r' ∈ s.intents, r.command = r'.command → r = r') ∧
    (∀ r ∈ s.intents, r.resultJson = none ↔ r.state = .staged) ∧
    LedgerKeeps s s' ∧
    (∀ later, ∀ r ∈ s.intents, ∃ r' ∈ (s.run sys later).intents, Persists r r') ∧
    (∀ outcome, (call.perform sys s).1 = .intent (.ok outcome) → outcome.replayed = true → s' = s) ∧
    (∀ e, (call.perform sys s).1 = .intent (.error e) → s' = s) ∧
    (∀ route binding command request nowMs outcome,
      call = .stage route binding command request nowMs →
      (call.perform sys s).1 = .intent (.ok outcome) → outcome.record.state = .staged →
      outcome.record.binding = binding ∧ Accepting s.controls ∧
        s.authorityForRoute route =
          some ⟨binding.authorityProject, .MODULE, binding.authorityGeneration⟩) := by
  intro s s'
  have hfresh : LedgerInv (ClaimStore.fresh routes) := fun record hmem => by cases hmem
  have hinv : LedgerInv s := ledger_run hfresh calls
  refine ⟨fun r hr r' hr' heq => Table.eq_of_key hr hr' heq, hinv, (ledger_step hinv call).1,
    fun later r hr => persists_run hinv later hr, ?_, ?_, ?_⟩
  · intro outcome hreply hreplayed
    refine after_of_intent hreply fun outcome' heq => ?_
    rwa [← Except.ok.inj heq]
  · intro e hreply
    exact after_of_intent hreply fun outcome' heq => by cases heq
  · rintro route binding command request nowMs outcome rfl hreply hstaged
    have hstage := ClaimStore.commit_ok (Reply.intent.inj hreply)
    obtain ⟨hbinding, hfence, -⟩ := stageIntent_cases hstage
    exact ⟨hbinding, claimIntentStageFence_eq_ok.mp (hfence hstaged)⟩

end MagicContext.Claims
