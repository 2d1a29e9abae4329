import MagicContext.Historian.Driver

/-!
# What a driver's steps do

Between two transactions a driver relies on others to leave its stake as it was: the idle record
that it read in order to fire, or the firing that it works on.  Given that, each of its steps finds
its stake and writes nothing else.

## What is here

* `Stake.Holds` and `Stake.Writes` — what a stake says of the record, and what may be written
  under it.
* `discipline` — the two, for every operation.
* `keeps_persistHistorianState`, `keeps_publishOutputFromAwaiting`, `keeps_runHistorianFiring`,
  `keeps_reattachHistorianProducer` and the others — an outline of every program.
-/

namespace MagicContext.Historian

open Discipline Stake SessionStore

/-! ## Stakes -/

def Stake.Holds : Stake → HistorianDurableState → Prop
  | .free, _ => True
  | .issuing k, h => h.state = .idle ∧ h.firingSeq = k
  | .working n, h => h.Live ∧ h.firingSeq = n

/-- Only a live session has a run. -/
def HistorianDurableState.Settled (h : HistorianDurableState) : Prop :=
  h.state = .idle → h.producerRunId = none

/-- What may be written under a stake, over the record `h`. -/
def Stake.Writes : Stake → HistorianDurableState → HistorianDurableState → Prop
  | .free, h, h' => Releases h h'
  | .issuing k, h, h' =>
    h.state = .idle ∧ h.firingSeq = k ∧ h'.Live ∧ h'.firingSeq = saturatingSucc k
  | .working n, h, h' => h.Live ∧ h.firingSeq = n ∧ h'.firingSeq = n ∧ h'.Settled

variable {h : HistorianDurableState}

theorem Stake.Writes.settled {stake : Stake} {h' : HistorianDurableState}
    (hw : stake.Writes h h') : h'.Settled := by
  cases stake with
  | free => exact fun _ => Releases.producerRunId hw
  | issuing k => exact fun hidle => absurd hidle hw.2.2.1
  | working n => exact hw.2.2.2

theorem live_scan {scanner : Scanner} {m : ModuleMeta} :
    (scanner.scan m).historian.Live ↔ m.historian.Live := by
  rw [HistorianDurableState.Live, HistorianDurableState.Live, scanner.scan_state]

theorem settled_scan {scanner : Scanner} {m : ModuleMeta} (h : m.historian.Settled) :
    (scanner.scan m).historian.Settled :=
  fun hidle => scanner.scan_producerRunId m (h ((scanner.scan_state m).symm.trans hidle))

theorem Stake.Writes.scan {scanner : Scanner} {stake : Stake}
    {m : ModuleMeta} (hw : stake.Writes h m.historian) :
    stake.Writes h (scanner.scan m).historian := by
  cases stake with
  | free => exact releases_scan hw
  | issuing k =>
    exact ⟨hw.1, hw.2.1, live_scan.mpr hw.2.2.1, (scanner.scan_firingSeq m).trans hw.2.2.2⟩
  | working n =>
    exact ⟨hw.1, hw.2.1, (scanner.scan_firingSeq m).trans hw.2.2.1, settled_scan hw.2.2.2⟩

/-! ## The discipline -/

/-- A record that was read, from a row that the stored one follows. -/
def ReadEarlier (loaded : LoadedState) (s : SessionStore) : Prop :=
  ∃ s₀ : SessionStore, s₀.load = loaded ∧ Follows s₀ s

/-- A write without a check needs the stake when it reads, and then only the version. -/
def Op.Needs (op : Op) (s : SessionStore) : Prop :=
  match op.action with
  | .ask _ => op.stake.Holds s.historian
  | .load => op.stake.Holds s.historian
  | .commit loaded next =>
    ReadEarlier loaded s ∧ op.stake.Writes loaded.moduleMeta.historian next.historian
  | .abandonIfMatching predicate _ _ => op.stake = .working predicate.firingSeq
  | .recordPublishFailure predicate => op.stake = .working predicate.firingSeq
  | .publishChunk request => op.stake = .working request.predicate.firingSeq

def Op.May (op : Op) (s s' : SessionStore) : Prop :=
  Follows s s' ∧ (s'.historian = s.historian ∨ op.stake.Writes s.historian s'.historian)

/-- An operation whose stake others must leave alone until its turn. -/
def Op.exposed (op : Op) : Bool :=
  match op.action with
  | .ask _ => true
  | .load => true
  | _ => false

def Op.Spares (op : Op) (s s' : SessionStore) : Prop :=
  Follows s s' ∧ (op.exposed = true → op.stake.Holds s.historian → op.stake.Holds s'.historian)

/-- A load takes a session that has a row for one that was never seen. -/
def Op.Misses (outside : Outside) (op : Op) (s : SessionStore) : Prop :=
  op.action = .load ∧ outside.missed = true ∧ s.row ≠ none

/-- Without that a load gives what is stored. -/
theorem load_of_not_misses {outside : Outside} {stake : Stake} {s : SessionStore}
    (h : ¬ Op.Misses outside ⟨stake, .load⟩ s) :
    (if outside.missed then .absent else s.load) = s.load := by
  split
  · rename_i hmissed
    have hrow : s.row = none := not_not.mp fun hrow => h ⟨rfl, hmissed, hrow⟩
    rw [SessionStore.load, hrow]
  · rfl

theorem ReadEarlier.mono {loaded : LoadedState} {s s' : SessionStore} (h : ReadEarlier loaded s)
    (hs : Follows s s') : ReadEarlier loaded s' := by
  obtain ⟨s₀, hload, hfollows⟩ := h
  exact ⟨s₀, hload, hfollows.trans hs⟩

/-- What was read is what is stored, if the version is still the one that was read. -/
theorem ReadEarlier.historian_eq {loaded : LoadedState} {s : SessionStore}
    (h : ReadEarlier loaded s) (hversion : s.version = loaded.rowVersion) :
    loaded.moduleMeta.historian = s.historian := by
  obtain ⟨s₀, rfl, hfollows⟩ := h
  rw [historian, hfollows.load_eq hversion]

/-- What drivers need and do. -/
def discipline (scanner : Scanner) : Discipline Op Op.Reply SessionStore Outside where
  exec := Op.exec scanner
  admits outside op s := ¬ op.Misses outside s
  invariant s := s.historian.Settled
  needs := Op.Needs
  may := Op.May
  spares := Op.Spares
  stable := by
    rintro ⟨stake, action⟩ s s' hneeds ⟨hfollows, hstake⟩
    cases action with
    | ask question => exact hstake rfl hneeds
    | load => exact hstake rfl hneeds
    | commit loaded next => exact ⟨hneeds.1.mono hfollows, hneeds.2⟩
    | abandonIfMatching predicate backoff detail => exact hneeds
    | recordPublishFailure predicate => exact hneeds
    | publishChunk request => exact hneeds
  invariant_of_may := by
    rintro op s s' hsettled ⟨_, heq | hwrites⟩
    · rw [heq]
      exact hsettled
    · exact hwrites.settled

theorem May.refl (op : Op) (s : SessionStore) : op.May s s := ⟨Follows.refl s, .inl rfl⟩

variable {scanner : Scanner} {n : Nat}

/-- A release under the stake of the firing that is released. -/
theorem writes_of_releases {h' : HistorianDurableState} (hlive : h.Live)
    (hseq : h.firingSeq = n) (hr : Releases h h') : (working n).Writes h h' :=
  ⟨hlive, hseq, hr.firingSeq.trans hseq, fun _ => hr.producerRunId⟩

/-- Every operation that has what it needs does what it may. -/
theorem may_exec (outside : Outside) (op : Op) (s : SessionStore) (hsettled : s.historian.Settled)
    (hneeds : op.Needs s) : op.May s (op.exec scanner outside s).2 := by
  obtain ⟨stake, action⟩ := op
  cases action with
  | ask question => exact May.refl _ s
  | load => exact May.refl _ s
  | commit loaded next =>
    rw [Op.exec]
    split
    · exact May.refl _ s
    · refine ⟨commit_follows .., ?_⟩
      obtain ⟨hread, hwrites⟩ := hneeds
      cases hc : commit scanner loaded.rowVersion loaded.core next s with
      | mk result s' =>
        cases result with
        | error e => exact .inl (by rw [commit_eq_error hc])
        | ok version =>
          obtain ⟨hversion, hhistorian⟩ := commit_eq_ok hc
          rw [hread.historian_eq hversion] at hwrites
          exact .inr (hhistorian ▸ hwrites.scan)
  | abandonIfMatching predicate backoff detail =>
    rw [Op.exec]
    split
    · exact May.refl _ s
    · refine ⟨abandonIfMatching_follows .., ?_⟩
      obtain rfl : stake = .working predicate.firingSeq := hneeds
      rcases @abandonIfMatching_cases scanner s _ _ _ _ _ _ rfl with heq | ⟨hlive, hseq, hr⟩
      · exact .inl (congrArg historian heq)
      · exact .inr (writes_of_releases hlive hseq hr)
  | recordPublishFailure predicate =>
    rw [Op.exec]
    split
    · exact May.refl _ s
    · refine ⟨recordPublishFailure_follows .., ?_⟩
      obtain rfl : stake = .working predicate.firingSeq := hneeds
      rcases @recordPublishFailure_cases scanner s _ _ _ rfl with heq | ⟨hmatch, hstate, hseq⟩
      · exact .inl (congrArg historian heq)
      · have hlive : s.historian.Live := by
          intro hidle
          simp [HistorianPublishPredicate.matches, hsettled hidle] at hmatch
        refine .inr ⟨hlive, matches_firingSeq hmatch,
          hseq.trans (matches_firingSeq hmatch), fun hidle => ?_⟩
        exact absurd (hstate.symm.trans hidle) hlive
  | publishChunk request =>
    rw [Op.exec]
    split
    · exact May.refl _ s
    · refine ⟨publishChunk_follows .., ?_⟩
      obtain rfl : stake = .working request.predicate.firingSeq := hneeds
      rcases @publishChunk_cases scanner s _ _ _ rfl with heq | ⟨hlive, hseq, hr⟩
      · exact .inl (congrArg historian heq)
      · exact .inr (writes_of_releases hlive hseq hr)

/-! ## Rules for programs -/

section Rules
variable {α β : Type}

/-- From where `P` holds, the program keeps to its stakes, and `Q` holds of what it returns.
Nothing is said of a program that fails. -/
def Keeps (scanner : Scanner) (P : SessionStore → Prop) (p : Driver α)
    (Q : α → SessionStore → Prop) : Prop :=
  (discipline scanner).Triple P p.run fun r s => ∀ a, r = .ok a → Q a s

variable {P : SessionStore → Prop} {p : Driver α} {Q : α → SessionStore → Prop}

theorem keeps_pure {a : α} (h : ∀ s, P s → Q a s) : Keeps scanner P (pure a) Q :=
  triple_done fun s hP b hb => by
    cases hb
    exact h s hP

theorem keeps_throw {e : HistorianDriveError} : Keeps scanner P (throw e) Q :=
  triple_done fun s _ b hb => by cases hb

theorem Keeps.bind {f : α → Driver β} {R : β → SessionStore → Prop} (hp : Keeps scanner P p Q)
    (hf : ∀ a, Keeps scanner (Q a) (f a) R) : Keeps scanner P (p >>= f) R := by
  refine triple_bind hp fun r => ?_
  cases r with
  | ok a => exact triple_mono (hf a) fun s hs => hs a rfl
  | error e => exact triple_done fun s _ b hb => by cases hb

theorem Keeps.mono {P' : SessionStore → Prop} {Q' : α → SessionStore → Prop}
    (h : Keeps scanner P p Q) (hP : ∀ s, P' s → P s) (hQ : ∀ a s, Q a s → Q' a s) :
    Keeps scanner P' p Q' :=
  triple_conseq (triple_mono h hP) fun _ s hs a ha => hQ a s (hs a ha)

/-- Facts that do not depend on the state may be taken out of a condition. -/
theorem keeps_of_fact (fact : Prop) (hfact : ∀ s, P s → fact)
    (h : fact → Keeps scanner P p Q) : Keeps scanner P p Q :=
  fun s hinv hP => h (hfact s hP) s hinv hP

/-- The invariant may be added to a condition. -/
theorem keeps_of_settled
    (h : Keeps scanner (fun s => P s ∧ s.historian.Settled) p Q) : Keeps scanner P p Q :=
  fun s hinv hP => h s hinv ⟨hP, hinv⟩

theorem keeps_attempt (h : Keeps scanner P p Q) :
    Keeps scanner P (attempt p) fun r s => ∀ a, r = .ok a → Q a s := by
  refine triple_bind h fun r => triple_done fun s hs b hb a ha => ?_
  cases hb
  exact hs a ha

theorem keeps_ofState {r : Except HistorianStateError α} (h : ∀ a s, r = .ok a → P s → Q a s) :
    Keeps scanner P (ofState r) Q := by
  cases r with
  | ok a => exact keeps_pure fun s hP => h a s rfl hP
  | error e => exact keeps_throw

theorem triple_perform {stake : Stake} {action : Action}
    {Q : action.Reply → SessionStore → Prop} (hneeds : ∀ s, P s → (Op.mk stake action).Needs s)
    (hexec : ∀ outside s r s', (Op.mk stake action).Needs s →
      ¬ (Op.mk stake action).Misses outside s → Op.exec scanner outside ⟨stake, action⟩ s = (r, s') → Q r s') :
    (discipline scanner).Triple P (perform stake action) Q := by
  refine triple_admitted hneeds (fun outside s hinv hn => may_exec outside _ s hinv hn)
    fun r => triple_done ?_
  rintro s' ⟨outside, s, _, hn, hadmits, hexec'⟩
  exact hexec outside s r s' hn hadmits hexec'

/-- An action whose reply is looked at. -/
theorem keeps_lift {p : Process Op Op.Reply α} (h : (discipline scanner).Triple P p Q) :
    Keeps scanner P (ExceptT.lift p) Q := by
  refine triple_bind h fun r => triple_done fun s hs b hb => ?_
  cases hb
  exact hs

/-- An action whose error ends the driver. -/
theorem keeps_ofStore {p : Process Op Op.Reply (Except StoreError α)}
    (h : (discipline scanner).Triple P p fun r s => ∀ a, r = .ok a → Q a s) :
    Keeps scanner P (ofStore p) Q := by
  refine triple_bind h fun r => ?_
  cases r with
  | ok a =>
    refine triple_done fun s hs b hb => ?_
    cases hb
    exact hs a rfl
  | error e => exact triple_done fun s _ b hb => by cases hb

end Rules

variable {P : SessionStore → Prop} {stake : Stake}

/-! ## Operations of a program -/

/-- A question leaves the store alone. -/
theorem keeps_ask {question : Question} (h : ∀ s, P s → stake.Holds s.historian) :
    Keeps scanner P (ask stake question) fun _ s => stake.Holds s.historian := by
  refine keeps_lift (triple_perform h fun outside s r s' hn _ hexec => ?_)
  cases hexec
  exact hn

theorem keeps_load (h : ∀ s, P s → stake.Holds s.historian) :
    Keeps scanner P (load stake) fun loaded s => stake.Holds s.historian ∧ s.load = loaded := by
  refine keeps_ofStore (triple_perform h fun outside s r s' hn hread hexec a ha => ?_)
  rw [Op.exec, load_of_not_misses hread] at hexec
  split at hexec
  · cases hexec
    cases ha
  · cases hexec
    cases ha
    exact ⟨hn, rfl⟩

theorem keeps_load_free : Keeps scanner P (load .free) fun loaded s => s.load = loaded :=
  (@keeps_load scanner P .free fun _ _ => trivial).mono (fun _ h => h) fun _ _ h => h.2

theorem keeps_commit {loaded : LoadedState} {next : ModuleMeta} (hread : ∀ s, P s → s.load = loaded)
    (hwrites : stake.Writes loaded.moduleMeta.historian next.historian) :
    (discipline scanner).Triple P (perform stake (.commit loaded next)) fun r s =>
      ∀ version, r = .ok version → s.historian = (scanner.scan next).historian := by
  refine triple_perform (fun s hP => ⟨⟨s, hread s hP, Follows.refl s⟩, hwrites⟩)
    fun outside s r s' _ _ hexec version hr => ?_
  rw [Op.exec] at hexec
  split at hexec
  · cases hexec
    cases hr
  · subst hr
    exact (commit_eq_ok hexec).2

/-- The record has the phase and the number of `h`. -/
def Stored (h : HistorianDurableState) (s : SessionStore) : Prop :=
  (s.historian.Live ↔ h.Live) ∧ s.historian.firingSeq = h.firingSeq

theorem stored_scan {next : ModuleMeta} {s : SessionStore}
    (h : s.historian = (scanner.scan next).historian) : Stored next.historian s := by
  rw [Stored, h, live_scan, scanner.scan_firingSeq]
  exact ⟨Iff.rfl, rfl⟩

/-- A record is persisted under a stake that allows it over whatever the stake says is stored. -/
theorem keeps_persistHistorianState {next : HistorianDurableState}
    (h : ∀ s, P s → stake.Holds s.historian) (hwrites : ∀ h, stake.Holds h → stake.Writes h next) :
    Keeps scanner P (persistHistorianState stake next) fun _ s => Stored next s := by
  refine (keeps_load h).bind fun loaded => ?_
  dsimp only
  split
  · rename_i hsame
    refine keeps_pure fun s hs => ?_
    rw [Stored, historian, hs.2, ← hsame]
    exact ⟨Iff.rfl, rfl⟩
  · refine keeps_of_fact (stake.Holds loaded.moduleMeta.historian)
      (fun s hs => hs.2 ▸ hs.1) fun hholds => ?_
    refine keeps_ofStore (triple_conseq (keeps_commit (fun s hs => hs.2)
      (hwrites _ hholds)) fun r s hs version hr => ?_)
    exact stored_scan (hs version hr)

/-- A record of the firing is persisted under the stake in it. -/
theorem keeps_persist_working {next : HistorianDurableState}
    (h : ∀ s, P s → (working n).Holds s.historian)
    (hseq : next.firingSeq = n) (hsettled : next.Settled) :
    Keeps scanner P (persistHistorianState (.working n) next) fun _ s => Stored next s :=
  keeps_persistHistorianState h fun _ hh => ⟨hh.1, hh.2, hseq, hsettled⟩

/-! ## Publication -/

/-- What is left of a condition after the last operation of interest. -/
theorem Keeps.anything {α : Type} {p : Driver α}
    {Q : α → SessionStore → Prop} (h : Keeps scanner P p Q) :
    Keeps scanner P p fun _ _ => True := h.mono (fun _ hP => hP) fun _ _ _ => trivial

theorem keeps_abandonMatchingRun
    (predicate : HistorianPublishPredicate) (backoff : Option Int) (detail : Option String) :
    Keeps scanner P (abandonMatchingRun predicate backoff detail) fun _ _ => True :=
  keeps_ofStore (triple_perform (fun _ _ => rfl) fun _ _ _ _ _ _ _ _ _ => trivial)

theorem keeps_publishUnderFence {request : PublishRequest}
    (h : ∀ s, P s → (working request.predicate.firingSeq).Holds s.historian) :
    Keeps scanner P (publishUnderFence request) fun _ _ => True := by
  refine (keeps_ask h).bind fun fence => ?_
  cases fence with
  | some reason => exact keeps_pure fun _ _ => trivial
  | none => exact keeps_lift (triple_perform (fun _ _ => rfl) fun _ _ _ _ _ _ _ => trivial)

theorem keeps_publishValidatedChunk {request : PublishRequest} {observed : String} {backoff : Int}
    (h : ∀ s, P s → (working request.predicate.firingSeq).Holds s.historian) :
    Keeps scanner P (publishValidatedChunk request observed backoff) fun _ _ => True := by
  have release : ∀ (P : SessionStore → Prop) (backoff : Option Int) (detail : Option String)
      (e : HistorianDriveError), Keeps scanner P
        (do let _ ← abandonMatchingRun request.predicate backoff detail; throw e)
        fun (_ : Nat) _ => True :=
    fun P backoff detail e =>
      (keeps_abandonMatchingRun request.predicate backoff detail).bind fun _ => keeps_throw
  rw [publishValidatedChunk]
  split
  · exact release P _ _ _
  · refine (keeps_publishUnderFence h).bind fun published => ?_
    split
    · exact keeps_pure fun _ _ => trivial
    · exact release _ _ _ _
    · exact release _ _ _ _
    · exact release _ _ _ _
    · refine Keeps.bind (keeps_lift (Q := fun _ _ => True) ?_) fun _ => keeps_throw
      exact triple_perform (fun _ _ => rfl) fun _ _ _ _ _ _ _ => trivial

theorem keeps_validateOutput {output : ProducerOutput} (h : ∀ s, P s → stake.Holds s.historian) :
    Keeps scanner P (validateOutput stake output) fun _ s => stake.Holds s.historian := by
  rw [validateOutput]
  split
  · exact keeps_pure h
  · exact keeps_ask h

/-- The clock is asked under the stake. -/
theorem keeps_failureBackoffNow {request : RunRequest} (h : ∀ s, P s → stake.Holds s.historian) :
    Keeps scanner P (failureBackoffNow stake request) fun _ s => stake.Holds s.historian :=
  (keeps_ask h).bind fun _ => keeps_pure fun _ hs => hs

theorem settled_of_live (hlive : h.Live) : h.Settled :=
  fun hidle => absurd hidle hlive

theorem settled_abandonWithDetail (h : HistorianDurableState) (backoff : Int)
    (detail : Option String) : (abandonWithDetail h backoff detail).Settled := fun _ => rfl

/-- A live record of the firing was stored. -/
theorem holds_of_stored (hlive : h.Live)
    (hseq : h.firingSeq = n) {s : SessionStore} (hs : Stored h s) :
    (working n).Holds s.historian := ⟨hs.1.mpr hlive, hs.2.trans hseq⟩

/-- The driver gives the firing back. -/
theorem keeps_persist_abandon {backoff : Int} {detail : Option String}
    (hP : ∀ s, P s → (working n).Holds s.historian) (hseq : h.firingSeq = n) :
    Keeps scanner P (persistHistorianState (.working n) (abandonWithDetail h backoff detail))
      fun _ _ => True := by
  have hwrites : ∀ stored, (working n).Holds stored →
      (working n).Writes stored (abandonWithDetail h backoff detail) :=
    fun stored hs => ⟨hs.1, hs.2, hseq, settled_abandonWithDetail h backoff detail⟩
  exact (keeps_persistHistorianState hP hwrites).anything

theorem keeps_publishOutputFromAwaiting {request : RunRequest}
    {awaiting : HistorianDurableState} {output : ProducerOutput}
    (h : ∀ s, P s → (working n).Holds s.historian) (hn : awaiting.firingSeq = n) :
    Keeps scanner P (publishOutputFromAwaiting request n awaiting output) fun _ _ => True := by
  rw [publishOutputFromAwaiting]
  refine Keeps.bind (Q := fun validating s => outputReceived awaiting = .ok validating ∧ P s)
    (keeps_ofState fun a s ha hP => ⟨ha, hP⟩) fun validating => ?_
  refine keeps_of_fact _ (fun s hs => hs.1) fun hvalidating => ?_
  obtain ⟨_, hseq, hlive⟩ := outputReceived_eq_ok hvalidating
  refine (keeps_persist_working (fun s hs => h s hs.2) (hseq.trans hn)
    (settled_of_live hlive)).bind fun _ => ?_
  refine (keeps_validateOutput fun s hs =>
    holds_of_stored hlive (hseq.trans hn) hs).bind fun validated => ?_
  cases validated with
  | error err =>
    refine (keeps_failureBackoffNow fun s hs => hs).bind fun backoff => ?_
    exact (keeps_persist_abandon (fun s hs => hs) (hseq.trans hn)).bind fun _ => keeps_throw
  | ok validated =>
    refine Keeps.bind (Q := fun publishing s => validationOk validating = .ok publishing ∧
        (working n).Holds s.historian)
      (keeps_ofState fun a s ha hs => ⟨ha, hs⟩) fun publishing => ?_
    refine keeps_of_fact _ (fun s hs => hs.1) fun hpublishing => ?_
    obtain ⟨hseq', hlive'⟩ := validationOk_eq_ok hpublishing
    have hpn : publishing.firingSeq = n := hseq'.trans (hseq.trans hn)
    refine (keeps_persist_working (fun s hs => hs.2) hpn
      (settled_of_live hlive')).bind fun version => ?_
    refine Keeps.bind (Q := fun predicate s => publishPredicate publishing = .ok predicate ∧
        (working n).Holds s.historian)
      (keeps_ofState fun a s ha hs => ⟨ha, holds_of_stored hlive' hpn hs⟩) fun predicate => ?_
    refine keeps_of_fact _ (fun s hs => hs.1) fun hpredicate => ?_
    refine keeps_publishValidatedChunk fun s hs => ?_
    rw [publishPredicate_firingSeq hpredicate, hpn]
    exact hs.2

/-! ## Firings -/

/-- What is known after an attempt: the output comes while the firing is still stored. -/
def StillWorking (n : Nat) (r : Attempt ProducerOutput) (s : SessionStore) : Prop :=
  ∀ output, r = .finished output → (Stake.working n).Holds s.historian

theorem keeps_awaitFiringOutput {request : FireRequest} {model : String}
    {remaining : List String} {chain : ModelChainState} {awaiting : HistorianDurableState}
    {runId : String} (h : ∀ s, P s → (working awaiting.firingSeq).Holds s.historian) :
    Keeps scanner P (awaitFiringOutput request model remaining chain awaiting runId)
      (StillWorking awaiting.firingSeq) := by
  refine (keeps_ask h).bind fun output => ?_
  cases output with
  | ok output => exact keeps_pure fun s hs _ _ => hs
  | error err =>
    dsimp only
    split
    · refine (keeps_ask fun s hs => hs).bind fun drained => ?_
      cases drained with
      | ok output => exact keeps_pure fun s hs _ _ => hs
      | error recoveryErr =>
        refine (keeps_ask fun s hs => hs).bind fun _ => ?_
        refine (keeps_failureBackoffNow fun s hs => hs).bind fun _ => ?_
        exact (keeps_persist_abandon (fun s hs => hs) rfl).bind fun _ => keeps_throw
    · refine (keeps_ask fun s hs => hs).bind fun stopped => ?_
      refine (keeps_ask fun s hs => hs).bind fun completedAtMs => ?_
      refine (keeps_persist_abandon (fun s hs => hs) rfl).bind fun _ => ?_
      split
      · exact keeps_pure fun s _ output houtput => by cases houtput
      · exact keeps_throw

theorem writes_fire {current next : HistorianDurableState} {snapshot : Snapshot} {now : Int}
    (h : fire current snapshot now = .ok (.fired next)) :
    ∀ stored, (issuing current.firingSeq).Holds stored →
      (issuing current.firingSeq).Writes stored next := by
  obtain ⟨_, hseq, hlive⟩ := fire_eq_fired h
  exact fun stored hs => ⟨hs.1, hs.2, hlive, hseq⟩

theorem keeps_fireWithModel {request : FireRequest} {model : String} {remaining : List String}
    {chain : ModelChainState} :
    Keeps scanner (fun _ => True) (fireWithModel request model remaining chain)
      fun _ _ => True := by
  refine keeps_load_free.bind fun loaded => ?_
  refine Keeps.bind (Q := fun outcome s => fire loaded.moduleMeta.historian request.snapshot
      request.run.nowMs = .ok outcome ∧ s.load = loaded)
    (keeps_ofState fun a s ha hs => ⟨ha, hs⟩) fun outcome => ?_
  cases outcome with
  | busy state => exact keeps_pure fun _ _ => trivial
  | fired fired =>
    refine keeps_of_fact _ (fun s hs => hs.1) fun hfire => ?_
    obtain ⟨hidle, -, hlive⟩ := fire_eq_fired hfire
    refine (keeps_persistHistorianState (fun s hs => ?_) (writes_fire hfire)).bind fun _ => ?_
    · rw [historian, hs.2]
      exact ⟨hidle, rfl⟩
    refine (keeps_ask fun s hs => holds_of_stored hlive rfl hs).bind fun started => ?_
    cases started with
    | error err =>
      refine (keeps_ask fun s hs => hs).bind fun completedAtMs => ?_
      generalize decideProducerFailure err model remaining chain completedAtMs _ = decided
      refine (keeps_persist_abandon (fun s hs => hs) rfl).bind fun _ => ?_
      split
      · exact keeps_pure fun _ _ => trivial
      · exact keeps_throw
    | ok runId =>
      refine Keeps.bind (Q := fun awaiting s => producerStarted fired
          (historianProducerSessionId request.projectSlug request.sessionId fired.firingSeq) runId
          request.harness = .ok awaiting ∧ (working fired.firingSeq).Holds s.historian)
        (keeps_ofState fun a s ha hs => ⟨ha, hs⟩) fun awaiting => ?_
      refine keeps_of_fact _ (fun s hs => hs.1) fun hstarted => ?_
      obtain ⟨hseq', hlive'⟩ := producerStarted_eq_ok hstarted
      refine (keeps_persist_working (fun s hs => hs.2) hseq'
        (settled_of_live hlive')).bind fun _ => ?_
      refine (keeps_awaitFiringOutput fun s hs => holds_of_stored hlive' rfl hs).bind
        fun awaited => ?_
      cases awaited with
      | next chain => exact keeps_pure fun _ _ => trivial
      | finished output =>
        refine (keeps_attempt (keeps_publishOutputFromAwaiting
          (fun s hs => hs output rfl) rfl)).bind fun published => ?_
        split
        · exact keeps_pure fun _ _ => trivial
        · split
          · exact keeps_pure fun _ _ => trivial
          · exact keeps_throw
        · exact keeps_throw

theorem keeps_runModels {request : FireRequest} (models : List String) (chain : ModelChainState) :
    Keeps scanner (fun _ => True) (runModels request models chain) fun _ _ => True := by
  induction models generalizing chain with
  | nil => exact keeps_throw
  | cons model remaining ih =>
    rw [runModels]
    split
    · exact ih chain
    split
    · exact keeps_throw
    · refine keeps_fireWithModel.bind fun attempted => ?_
      cases attempted with
      | finished outcome => exact keeps_pure fun _ _ => trivial
      | next chain => exact ih chain

theorem keeps_runHistorianFiring (request : FireRequest) :
    Keeps scanner (fun _ => True) (runHistorianFiring request) fun _ _ => True :=
  keeps_runModels request.modelChain {}

theorem releases_connectFailure (hsettled : h.Settled)
    (backoff : Int) (detail : String) : Releases h (connectFailure h backoff detail) := by
  rw [connectFailure]
  split
  · rename_i hidle
    exact ⟨hidle, rfl, hsettled hidle⟩
  · exact ⟨rfl, rfl, rfl⟩

theorem keeps_recordHistorianConnectFailure (backoff : Int) (detail : String) (attempts : Nat) :
    Keeps scanner (fun _ => True) (recordHistorianConnectFailure backoff detail attempts)
      fun _ _ => True := by
  induction attempts with
  | zero => exact keeps_throw
  | succ attempts ih =>
    refine keeps_load_free.bind fun loaded => keeps_of_settled ?_
    refine keeps_of_fact loaded.moduleMeta.historian.Settled
      (fun s hs => hs.1 ▸ hs.2) fun hsettled => ?_
    have hwrites : free.Writes loaded.moduleMeta.historian
        (connectFailure loaded.moduleMeta.historian backoff detail) :=
      releases_connectFailure hsettled backoff detail
    refine (keeps_lift (keeps_commit (fun s hs => hs.1) hwrites)).bind fun committed => ?_
    split
    · exact keeps_pure fun _ _ => trivial
    · exact ih.mono (fun _ _ => trivial) fun _ _ h => h
    · exact keeps_throw

/-! ## Recovery -/

/-- What is known after a restart: a run to take up again is of the stored firing. -/
def TakenUp (action : RestartAction) (s : SessionStore) : Prop :=
  ∀ producerSessionId producerRunId harness n fingerprint,
    action = .reattachProducer producerSessionId producerRunId harness n fingerprint →
      (Stake.working n).Holds s.historian

theorem keeps_handleRestartLoad (backoff : Int) :
    Keeps scanner (fun _ => True) (handleRestartLoad backoff) TakenUp := by
  refine keeps_load_free.bind fun loaded => ?_
  have holds : loaded.moduleMeta.historian.Live → ∀ s : SessionStore, s.load = loaded →
      (working loaded.moduleMeta.historian.firingSeq).Holds s.historian := by
    rintro hlive s rfl
    exact ⟨hlive, rfl⟩
  have release : loaded.moduleMeta.historian.Live → Keeps scanner (fun s => s.load = loaded)
      (do
        let _ ← persistHistorianState (.working loaded.moduleMeta.historian.firingSeq)
          (abandon loaded.moduleMeta.historian backoff)
        return .abandonedAndRefireEligible loaded.moduleMeta.historian.firingSeq) TakenUp :=
    fun hlive => (keeps_persist_abandon (holds hlive) rfl).bind fun _ =>
      keeps_pure fun _ _ _ _ _ _ _ haction => by cases haction
  dsimp only
  split
  · exact keeps_pure fun _ _ _ _ _ _ _ haction => by cases haction
  · rename_i hphase
    have hlive : loaded.moduleMeta.historian.Live := by
      rw [HistorianDurableState.Live, hphase]
      rintro ⟨⟩
    split
    · refine keeps_pure fun s hs _ _ _ n _ haction => ?_
      cases haction
      exact holds hlive s hs
    · exact release hlive
  all_goals
    rename_i hphase
    refine release ?_
    rw [HistorianDurableState.Live, hphase]
    rintro ⟨⟩

theorem keeps_abandonCurrentState {backoff : Int} {detail : Option String}
    (h : ∀ s, P s → (working n).Holds s.historian) :
    Keeps scanner P (abandonCurrentStateWithDetail (.working n) backoff detail)
      fun _ _ => True := by
  refine (keeps_load h).bind fun loaded => ?_
  refine keeps_of_fact ((working n).Holds loaded.moduleMeta.historian)
    (fun s hs => hs.2 ▸ hs.1) fun hholds => ?_
  exact (keeps_persist_abandon (fun s hs => hs.1) hholds.2).bind fun _ =>
    keeps_pure fun _ _ => trivial

theorem keeps_awaitReattached {runId : String} (h : ∀ s, P s → stake.Holds s.historian) :
    Keeps scanner P (awaitReattached stake runId) fun _ s => stake.Holds s.historian := by
  refine (keeps_ask h).bind fun output => ?_
  cases output with
  | ok output => exact keeps_pure fun s hs => hs
  | error err =>
    dsimp only
    split
    · exact keeps_ask fun s hs => hs
    · exact keeps_pure fun s hs => hs

theorem keeps_reattachHistorianProducer (request : RunRequest) :
    Keeps scanner (fun _ => True) (reattachHistorianProducer request) fun _ _ => True := by
  refine (keeps_handleRestartLoad request.failureBackoffAtMs).bind fun action => ?_
  cases action with
  | done => exact keeps_pure fun _ _ => trivial
  | abandonedAndRefireEligible n => exact keeps_pure fun _ _ => trivial
  | reattachProducer producerSessionId producerRunId harness n fingerprint =>
    refine (keeps_ask fun s hs => hs _ _ _ _ _ rfl).bind fun bound => ?_
    cases bound with
    | error err => exact keeps_throw
    | ok u =>
      refine (keeps_ask fun s hs => hs).bind fun status => ?_
      split
      · exact keeps_throw
      · refine (keeps_failureBackoffNow fun s hs => hs).bind fun backoff => ?_
        exact (keeps_abandonCurrentState fun s hs => hs).bind fun _ =>
          keeps_pure fun _ _ => trivial
      · refine (keeps_load fun s hs => hs).bind fun loaded => ?_
        refine keeps_of_fact (loaded.moduleMeta.historian.firingSeq = n)
          (fun s hs => hs.2 ▸ hs.1.2) fun hn => ?_
        refine (keeps_awaitReattached fun s hs => hs.1).bind fun awaited => ?_
        cases awaited with
        | error err =>
          refine (keeps_ask fun s hs => hs).bind fun _ => ?_
          refine (keeps_ask fun s hs => hs).bind fun completedAtMs => ?_
          exact (keeps_abandonCurrentState fun s hs => hs).bind fun _ => keeps_throw
        | ok output =>
          exact (keeps_publishOutputFromAwaiting (fun s hs => hs) hn).bind fun _ =>
            keeps_pure fun _ _ => trivial

end MagicContext.Historian
