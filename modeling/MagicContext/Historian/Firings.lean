import Mathlib.Data.List.Induction
import MagicContext.Historian.Outline

/-!
# Firings of a session

Drivers of one session take their steps in any order, and resets, truncations, other writes and
restarts come between them.  A driver writes some of its states without a look at what is stored,
so it may write over what another has put there since.  A load that fails to read the row counts as
a session that was never seen.

## What is here

* `Event`, `Session` and `run` — the runs of a session.
* `Interferes` — another takes away what a driver is about to write without a check; `Misreads` —
  a load does not see the row.
* `never_clobbers` — without that, drivers write their own firing only.
* `revives_reset_firing` — a reset under a driver that waits.
* `issued_increasing` — without that, and without a reset after a firing, numbers are issued in
  increasing order, and `reissues_after_reset` — after a reset they start again.
-/

namespace MagicContext.Historian

open World

/-! ## Runs -/

/-- What is started on a session. -/
inductive Program where
  | fire (request : FireRequest)
  | reattach (request : RunRequest)
  | recover (failureBackoffAtMs : Int)
  | connectFailure (failureBackoffAtMs : Int) (detail : String)

def Program.driver : Program → Driver Unit
  | fire request => do
    let _ ← runHistorianFiring request
  | reattach request => do
    let _ ← reattachHistorianProducer request
  | recover failureBackoffAtMs => do
    let _ ← handleRestartLoad failureBackoffAtMs
  | connectFailure failureBackoffAtMs detail =>
    recordHistorianConnectFailure failureBackoffAtMs detail 2

/-- What others than drivers do to a session. -/
inductive Change where
  | reset (expectedRowVersion : Option Nat)
  | truncate (keepThroughSeq : Int) (recut : String) (expectedRowVersion : Option Nat)
  /-- Another write of the row; it may note why no firing came about. -/
  | edit (core : String) (moduleMeta : ModuleMeta) (lastNoFire : Option String)

variable (scanner : Scanner)

def Change.apply : Change → SessionStore → SessionStore
  | reset expected, s => (resetSessionForRecomp expected s).2
  | truncate keepThroughSeq recut expected, s =>
    (truncateCompartments scanner keepThroughSeq recut expected s).2
  | edit core moduleMeta lastNoFire, s =>
    (commit scanner s.version core { moduleMeta with
      historian := { s.historian with lastNoFire := lastNoFire } } s).2

abbrev Session : Type := World Op Op.Reply SessionStore (Except HistorianDriveError Unit)

abbrev RawEvent : Type :=
  World.Event Op Op.Reply Outside Change (Except HistorianDriveError Unit)

inductive Event where
  | spawn (program : Program)
  | drive (i : Nat) (outside : Outside)
  | change (c : Change)
  /-- The process ends, and every driver with it. -/
  | restart

/-- The event is a recomp reset. -/
def Event.resets : Event → Bool
  | change (.reset _) => true
  | _ => false

def Event.raw : Event → RawEvent
  | spawn program => .spawn program.driver.run
  | drive i outside => .drive i outside
  | change c => .other c
  | restart => .restart

def happen (w : Session) (e : Event) : Session :=
  World.happen (discipline scanner) (Change.apply scanner) w e.raw

/-- The session after events, from a session that was never seen. -/
def run (es : List Event) : Session := es.foldl (happen scanner) ⟨{}, []⟩

theorem run_concat (es : List Event) (e : Event) :
    run scanner (es ++ [e]) = happen scanner (run scanner es) e := by
  rw [run, List.foldl_append]
  rfl

/-! ## Interference -/

/-- An event ends or replaces what another's driver relies on for its next write. -/
def Interferes (w : Session) (e : Event) : Prop :=
  ∃ j op, some j ≠ e.raw.actor ∧ w.turn j = some op ∧ op.exposed = true ∧
    op.stake.Holds w.state.historian ∧ ¬ op.stake.Holds (happen scanner w e).state.historian

/-- A driver's load does not see the row that is there. -/
def Misreads (w : Session) (e : Event) : Prop :=
  ∃ i outside op, e = .drive i outside ∧ w.turn i = some op ∧ op.Misses outside w.state

/-- No event of a run interferes, and every load sees the row. -/
def Undisturbed (es : List Event) : Prop :=
  ∀ before e after, es = before ++ e :: after →
    ¬ Interferes scanner (run scanner before) e ∧ ¬ Misreads (run scanner before) e

/-- A driver that changes the record finds its firing stored and live, or the idle record of the
number before; and drivers that wait or are about to write work on one firing. -/
structure NeverClobbers (es : List Event) : Prop where
  working : ∀ before i outside after op n, es = before ++ .drive i outside :: after →
    (run scanner before).turn i = some op → op.stake = .working n →
    (run scanner (before ++ [.drive i outside])).state.historian ≠
      (run scanner before).state.historian →
    (run scanner before).state.historian.Live ∧ (run scanner before).state.historian.firingSeq = n
  issuing : ∀ before i outside after op k, es = before ++ .drive i outside :: after →
    (run scanner before).turn i = some op → op.stake = .issuing k →
    (run scanner (before ++ [.drive i outside])).state.historian ≠
      (run scanner before).state.historian →
    ¬ (run scanner before).state.historian.Live ∧ (run scanner before).state.historian.firingSeq = k
  one : ∀ before after i j op op' n m, es = before ++ after →
    (run scanner before).turn i = some op → (run scanner before).turn j = some op' →
    op.exposed = true → op'.exposed = true → op.stake = .working n → op'.stake = .working m →
    n = m

variable {scanner}

theorem startable (e : Event) : e.raw.Startable (discipline scanner) := by
  cases e with
  | spawn program =>
    have started : ∀ {α : Type} (p : Driver α), Keeps scanner (fun _ => True) p (fun _ _ => True) →
        Keeps scanner (fun _ => True) (do let _ ← p) fun _ _ => True :=
      fun p hp => hp.bind fun _ => keeps_pure fun _ _ => trivial
    have kept : Keeps scanner (fun _ => True) program.driver fun _ _ => True := by
      cases program with
      | fire request => exact started _ (keeps_runHistorianFiring request)
      | reattach request => exact started _ (keeps_reattachHistorianProducer request)
      | recover backoff => exact started _ (keeps_handleRestartLoad backoff).anything
      | connectFailure backoff detail => exact keeps_recordHistorianConnectFailure backoff detail 2
    exact Discipline.triple_conseq kept fun _ _ _ => trivial
  | drive i outside => trivial
  | change c => trivial
  | restart => trivial

theorem change_follows (c : Change) (s : SessionStore) : Follows s (c.apply scanner s) := by
  cases c with
  | reset expected => exact resetSessionForRecomp_follows expected s
  | truncate keepThroughSeq recut expected =>
    exact truncateCompartments_follows keepThroughSeq recut expected s
  | edit core m lastNoFire => exact commit_follows ..

/-- Apart from a reset, a change of others keeps the phase and the number. -/
theorem change_cases (c : Change) (s : SessionStore) :
    (∃ expected, c = .reset expected ∧ s.version = expected ∧ (c.apply scanner s).historian = {}) ∨
      (c.apply scanner s).historian = s.historian ∨
      ∃ m : ModuleMeta, m.historian.state = s.historian.state ∧
        m.historian.firingSeq = s.historian.firingSeq ∧
        m.historian.producerRunId = s.historian.producerRunId ∧
        (c.apply scanner s).historian = (scanner.scan m).historian := by
  cases c with
  | reset expected =>
    rcases resetSessionForRecomp_cases with heq | ⟨hversion, hempty⟩
    · exact .inr (.inl (congrArg SessionStore.historian heq))
    · exact .inl ⟨expected, rfl, hversion, hempty⟩
  | truncate keepThroughSeq recut expected =>
    rcases truncateCompartments_cases with heq | ⟨m, hm, hscan⟩
    · exact .inr (.inl (congrArg SessionStore.historian heq))
    · exact .inr (.inr ⟨m, by rw [hm], by rw [hm], by rw [hm], hscan⟩)
  | edit core m lastNoFire =>
    rw [Change.apply]
    generalize hc : commit scanner s.version core _ s = result
    obtain ⟨answer, s'⟩ := result
    cases answer with
    | error e => exact .inr (.inl (by rw [commit_eq_error hc]))
    | ok version =>
      refine .inr (.inr ⟨{ m with
        historian := { s.historian with lastNoFire := lastNoFire } }, rfl, rfl, rfl, ?_⟩)
      exact (commit_eq_ok hc).2

theorem settled_change (c : Change) (s : SessionStore) (h : s.historian.Settled) :
    (c.apply scanner s).historian.Settled := by
  rcases change_cases c s with ⟨_, _, _, hempty⟩ | heq | ⟨m, hstate, _, hrun, hscan⟩
  · rw [hempty]
    exact fun _ => rfl
  · rw [heq]
    exact h
  · rw [hscan]
    exact settled_scan fun hidle => hrun.trans (h (hstate.symm.trans hidle))

variable {w : Session} {e : Event} {es : List Event}

theorem admitted_of_not_misreads (h : ¬ Misreads w e) : e.raw.Admitted (discipline scanner) w := by
  cases e with
  | drive i outside => exact fun op hturn hmisses => h ⟨i, outside, op, rfl, hturn, hmisses⟩
  | spawn program => trivial
  | change c => trivial
  | restart => trivial

theorem happen_follows (hw : w.Guarded (discipline scanner)) (h : ¬ Misreads w e) :
    Follows w.state (happen scanner w e).state := by
  cases e with
  | spawn program => exact Follows.refl _
  | drive i outside =>
    cases hturn : w.turn i with
    | none =>
      rw [happen, Event.raw, happen_of_no_turn hturn]
      exact Follows.refl _
    | some op => exact (may_of_guarded hw hturn (admitted_of_not_misreads h op hturn)).1
  | change c => exact change_follows c w.state
  | restart => exact Follows.refl _

/-- Without interference every driver stays ready. -/
theorem guarded_happen (hw : w.Guarded (discipline scanner))
    (h : ¬ Interferes scanner w e ∧ ¬ Misreads w e) :
    (happen scanner w e).Guarded (discipline scanner) := by
  refine World.guarded_happen settled_change hw ?_ (admitted_of_not_misreads h.2) (startable e)
  intro j op hj hturn
  refine ⟨happen_follows hw h.2, fun hexposed hholds => ?_⟩
  by_contra hlost
  exact h.1 ⟨j, op, hj, hturn, hexposed, hholds, hlost⟩

theorem Undisturbed.prefix {before after : List Event}
    (h : Undisturbed scanner (before ++ after)) : Undisturbed scanner before := by
  rintro es e rest rfl
  exact h es e (rest ++ after) (by rw [List.append_assoc, List.cons_append])

theorem guarded_run (h : Undisturbed scanner es) :
    (run scanner es).Guarded (discipline scanner) := by
  induction es using List.reverseRecOn with
  | nil => exact ⟨fun _ => rfl, fun i p hp => by simp [run, process] at hp⟩
  | append_singleton es e ih =>
    rw [run_concat]
    exact guarded_happen (ih h.prefix) (h es e [] rfl)

/-- A driver that waits, or is about to read, finds its stake. -/
theorem holds_of_exposed (hw : w.Guarded (discipline scanner)) {i : Nat} {op : Op}
    (hturn : w.turn i = some op) (hexposed : op.exposed = true) :
    op.stake.Holds w.state.historian := by
  have hneeds : op.Needs w.state := needs_of_guarded hw hturn
  obtain ⟨stake, action⟩ := op
  cases action with
  | ask question => exact hneeds
  | load => exact hneeds
  | commit loaded next => cases hexposed
  | abandonIfMatching predicate backoff detail => cases hexposed
  | recordPublishFailure predicate => cases hexposed
  | publishChunk request => cases hexposed

/-- A driver's step writes what its stake allows. -/
theorem writes_of_changed {before after : List Event} {i : Nat} {outside : Outside} {op : Op}
    (h : Undisturbed scanner (before ++ .drive i outside :: after)) (hturn : (run scanner before).turn i = some op)
    (hchanged : (run scanner (before ++ [.drive i outside])).state.historian ≠
      (run scanner before).state.historian) :
    op.stake.Writes (run scanner before).state.historian
      (run scanner (before ++ [.drive i outside])).state.historian := by
  rw [run_concat] at hchanged ⊢
  have hadmitted := @admitted_of_not_misreads scanner _ _ (h before _ after rfl).2
  exact (may_of_guarded (guarded_run h.prefix) hturn (hadmitted op hturn)).2.resolve_left hchanged

/-- Where no transaction of another ends or replaces the firing that a driver works on, or the
idle record that it read in order to fire, and loads see the row, no driver writes over another
firing. -/
theorem never_clobbers {es : List Event} (h : Undisturbed scanner es) :
    NeverClobbers scanner es where
  working := by
    rintro before i outside after op n rfl hturn hstake hchanged
    have hwrites := writes_of_changed h hturn hchanged
    rw [hstake] at hwrites
    exact ⟨hwrites.1, hwrites.2.1⟩
  issuing := by
    rintro before i outside after op k rfl hturn hstake hchanged
    have hwrites := writes_of_changed h hturn hchanged
    rw [hstake] at hwrites
    exact ⟨not_not.mpr hwrites.1, hwrites.2.1⟩
  one := by
    rintro before after i j op op' n m rfl hi hj hexposed hexposed' hstake hstake'
    have hguarded := guarded_run h.prefix
    have hn := holds_of_exposed hguarded hi hexposed
    have hm := holds_of_exposed hguarded hj hexposed'
    rw [hstake] at hn
    rw [hstake'] at hm
    exact hn.2.symm.trans hm.2

/-! ## A firing that was reset -/

namespace Sample

/-- A scan that finds nothing. -/
def unscanned : Scanner where
  scan m := m
  scan_state _ := rfl
  scan_firingSeq _ := rfl
  scan_revertEpoch _ := rfl
  scan_publicationFloorOrdinal _ := rfl
  scan_marks _ := rfl
  scan_producerRunId _ h := h

def request : FireRequest where
  run := { observedChunkFingerprint := "fp", nowMs := 1, failureBackoffAtMs := 61 }
  sessionId := "ses"
  projectSlug := "project"
  harness := "pi"
  snapshot :=
    { fromOrdinal := 2
      toOrdinal := 4
      chunkFingerprint := "fp"
      selectedRangeIdentities := []
      expectedRevertEpoch := 0
      compartmentSetGeneration := {} }
  modelChain := ["a/one"]

/-- A session with a boundary, and a firing that is persisted, started, and waits. -/
def fired : List Event :=
  [.change (.edit "minted" {} none), .spawn (.fire request)] ++ List.replicate 6 (.drive 0 {})

theorem forall_of_take {P : List Event → Event → Prop}
    (h : ∀ k (hk : k < es.length), P (es.take k) es[k]) :
    ∀ before e after, es = before ++ e :: after → P before e := by
  rintro before e after rfl
  have hk : before.length < (before ++ e :: after).length := by simp
  have hat := h before.length hk
  rw [List.take_left] at hat
  simpa using hat

/-- A driver that is alone is disturbed by nothing that it does. -/
theorem not_interferes_of_alone (hone : w.processes.length ≤ 1)
    (halone : w.processes.length = 0 ∨ e.raw.actor = some 0) : ¬ Interferes unscanned w e := by
  rintro ⟨j, op, hj, hturn, -⟩
  have hlt : j < w.processes.length := by
    by_contra hle
    rw [turn, process, List.getElem?_eq_none (Nat.le_of_not_lt hle)] at hturn
    cases hturn
  rcases halone with hzero | hactor
  · omega
  · exact hj (by rw [hactor, show j = 0 by omega])

/-- An event that keeps the phase and the number takes nothing away. -/
theorem not_interferes_of_kept
    (hstate : (happen unscanned w e).state.historian.state = w.state.historian.state)
    (hseq : (happen unscanned w e).state.historian.firingSeq = w.state.historian.firingSeq) :
    ¬ Interferes unscanned w e := by
  rintro ⟨-, op, _, _, _, hholds, hlost⟩
  refine hlost ?_
  obtain ⟨stake, action⟩ := op
  cases stake with
  | free => trivial
  | issuing k => exact ⟨hstate.trans hholds.1, hseq.trans hholds.2⟩
  | working n => exact ⟨fun hidle => hholds.1 (hstate.symm.trans hidle), hseq.trans hholds.2⟩

/-- No load of the event fails to read the row. -/
def rowSeen : Event → Bool
  | .drive _ outside => !outside.missed
  | _ => true

theorem not_misreads_of_rowSeen (h : rowSeen e = true) : ¬ Misreads w e := by
  rintro ⟨i, outside, -, rfl, _, _, hmissed, _⟩
  simp [rowSeen, hmissed] at h

/-- While that driver waits, another finds the session busy, and this is noted. -/
def busy : List Event :=
  fired ++ [.spawn (.fire request), .drive 1 {}, .change (.edit "minted" {} (some "busy"))]

theorem undisturbed_busy : Undisturbed unscanned busy := by
  refine forall_of_take fun k hk => ⟨?_, not_misreads_of_rowSeen (by revert k; decide +kernel)⟩
  rcases Nat.lt_or_ge k fired.length with hlt | hge
  · refine not_interferes_of_alone ?_ ?_ <;> (revert k; decide +kernel)
  · refine not_interferes_of_kept ?_ ?_ <;> (revert k; decide +kernel)

/-- The session is reset while the producer works; then the output comes. -/
def overtaken : List Event :=
  fired ++ [.change (.reset (some 3)), .drive 0 {}, .drive 0 {}]

/-- A firing whose producer does not start, a reset, and another firing. -/
def refired : List Event :=
  [.change (.edit "minted" {} none), .spawn (.fire request)] ++ List.replicate 3 (.drive 0 {}) ++
    List.replicate 4 (.drive 0 { start := .error { text := "refused" } }) ++
    [.change (.reset (some 3)), .spawn (.fire request)] ++ List.replicate 3 (.drive 1 {})

end Sample

/-- The driver writes its state over the default record that the reset left. -/
theorem revives_reset_firing : ¬ ∀ es, NeverClobbers Sample.unscanned es := by
  intro h
  have hturn : ∃ op, (run Sample.unscanned Sample.overtaken).turn 0 = some op ∧
      op.stake = .working 1 := by
    refine Option.map_eq_some_iff.mp ?_
    decide +kernel
  obtain ⟨op, hturn, hstake⟩ := hturn
  have hlive := ((h (Sample.overtaken ++ [.drive 0 {}])).working Sample.overtaken 0 {} [] op 1 rfl
    hturn hstake (by decide +kernel)).1
  exact absurd hlive (by decide +kernel)

theorem fired_never_clobbers :
    (run Sample.unscanned Sample.busy).state.historian.state = .awaitingProducer ∧
      (run Sample.unscanned Sample.busy).state.historian.lastNoFire = some "busy" ∧
      NeverClobbers Sample.unscanned Sample.busy :=
  ⟨by decide +kernel, by decide +kernel, never_clobbers Sample.undisturbed_busy⟩

/-! ## Numbers -/

section Numbers
variable (scanner)

/-- The number that an event issues: a driver's fire is persisted. -/
def issuedBy (w : Session) (e : Event) : Option Nat :=
  match e with
  | .drive i _ =>
    match w.turn i with
    | some ⟨.issuing _, .commit _ next⟩ =>
      if (happen scanner w e).state.version = w.state.version then none
      else some next.historian.firingSeq
    | _ => none
  | _ => none

/-- The numbers that events issue from a session on, in order. -/
def issued : Session → List Event → List Nat
  | _, [] => []
  | w, e :: es => (issuedBy scanner w e).toList ++ issued (happen scanner w e) es

/-- A reset that goes through on a session that has fired. -/
def Rewinds (w : Session) (e : Event) : Prop :=
  ∃ expected, e = .change (.reset expected) ∧ w.state.version = expected ∧
    0 < w.state.historian.firingSeq

/-- Numbers below the largest are issued once, in increasing order, so that no two firings of the
session get one producer session. -/
structure IssuesOnce (es : List Event) : Prop where
  increasing : (issued scanner ⟨{}, []⟩ es).Pairwise fun n m => n < u64Max → n < m
  producerSession : (issued scanner ⟨{}, []⟩ es).Pairwise fun n m => n < u64Max →
    ∀ sessionId projectSlug projectSlug',
      historianProducerSessionId projectSlug sessionId n ≠
        historianProducerSessionId projectSlug' sessionId m

variable {scanner}

/-- The stored number, of the `u64` that it is. -/
def Session.number (w : Session) : Nat := min w.state.historian.firingSeq u64Max

theorem number_of_writes {stake : Stake} {h h' : HistorianDurableState}
    (hw : stake.Writes h h') : min h.firingSeq u64Max ≤ min h'.firingSeq u64Max := by
  cases stake with
  | free => rw [Releases.firingSeq hw]
  | issuing k =>
    rw [hw.2.1, hw.2.2.2, saturatingSucc]
    omega
  | working n => rw [hw.2.1, hw.2.2.1]

/-- Apart from a reset the number only rises. -/
theorem number_happen (hw : w.Guarded (discipline scanner)) (hread : ¬ Misreads w e)
    (h : ¬ Rewinds w e) :
    w.number ≤ Session.number (happen scanner w e) := by
  cases e with
  | spawn program => exact le_refl _
  | drive i outside =>
    cases hturn : w.turn i with
    | none =>
      rw [happen, Event.raw, happen_of_no_turn hturn]
    | some op =>
      have hadmitted := @admitted_of_not_misreads scanner _ _ hread op hturn
      rcases (may_of_guarded hw hturn hadmitted).2 with heq | hwrites
      · exact (congrArg (fun h => min h.firingSeq u64Max) heq).ge
      · exact number_of_writes hwrites
  | change c =>
    rcases change_cases c w.state with
      ⟨expected, rfl, hversion, _⟩ | heq | ⟨m, _, hseq, _, hscan⟩
    · have hzero : w.state.historian.firingSeq = 0 := by
        by_contra hne
        exact h ⟨expected, rfl, hversion, Nat.pos_of_ne_zero hne⟩
      rw [Session.number, hzero]
      exact Nat.zero_le _
    · exact (congrArg (fun h => min h.firingSeq u64Max) heq).ge
    · refine (congrArg (min · u64Max) ?_).ge
      exact ((congrArg HistorianDurableState.firingSeq hscan).trans
        (scanner.scan_firingSeq m)).trans hseq
  | restart => exact le_refl _

/-- An issued number is the next one, and is stored. -/
theorem issuedBy_eq_some {n : Nat} (hw : w.Guarded (discipline scanner))
    (h : issuedBy scanner w e = some n) :
    n = saturatingSucc w.state.historian.firingSeq ∧
      (happen scanner w e).state.historian.firingSeq = n := by
  cases e with
  | drive i outside =>
    rw [issuedBy] at h
    split at h
    · rename_i k loaded next hturn
      split at h
      · cases h
      · rename_i hversion
        cases h
        obtain ⟨hread, hwrites⟩ : ReadEarlier loaded w.state ∧ (Stake.issuing k).Writes
          loaded.moduleMeta.historian next.historian := needs_of_guarded hw hturn
        have hexec : (happen scanner w (.drive i outside)).state =
            (Op.exec scanner outside ⟨.issuing k, .commit loaded next⟩ w.state).2 :=
          happen_of_turn hturn
        rw [hexec] at hversion ⊢
        rw [Op.exec] at hversion ⊢
        split at hversion
        · exact absurd rfl hversion
        · rename_i hfault
          rw [if_neg hfault]
          cases hc : commit scanner loaded.rowVersion loaded.core next w.state with
          | mk result s' =>
            rw [hc] at hversion
            cases result with
            | error e => exact absurd (by rw [commit_eq_error hc]) hversion
            | ok version =>
              obtain ⟨hexpected, hhistorian⟩ := commit_eq_ok hc
              rw [hread.historian_eq hexpected] at hwrites
              rw [hwrites.2.1]
              exact ⟨hwrites.2.2.2, (congrArg HistorianDurableState.firingSeq hhistorian).trans
                (scanner.scan_firingSeq next)⟩
    · cases h
  | spawn program => cases h
  | change c => cases h
  | restart => cases h

/-- A run from a session on in which nothing interferes, misreads or rewinds. -/
def Steady (scanner : Scanner) (w : Session) (es : List Event) : Prop :=
  ∀ before e after, es = before ++ e :: after →
    (¬ Interferes scanner (before.foldl (happen scanner) w) e ∧
      ¬ Misreads (before.foldl (happen scanner) w) e) ∧
      ¬ Rewinds (before.foldl (happen scanner) w) e

theorem Steady.head (h : Steady scanner w (e :: es)) :
    (¬ Interferes scanner w e ∧ ¬ Misreads w e) ∧ ¬ Rewinds w e :=
  h [] e es rfl

theorem Steady.tail (h : Steady scanner w (e :: es)) : Steady scanner (happen scanner w e) es :=
  fun before f after hes => h (e :: before) f after (congrArg (e :: ·) hes)

/-- What is issued later is above what is stored now. -/
theorem le_of_issued (hw : w.Guarded (discipline scanner)) (h : Steady scanner w es) :
    ∀ m ∈ issued scanner w es, min (w.number + 1) u64Max ≤ m := by
  induction es generalizing w with
  | nil => exact fun m hm => by cases hm
  | cons e es ih =>
    intro m hm
    rcases List.mem_append.mp hm with hm | hm
    · have hissued := (issuedBy_eq_some hw (Option.mem_toList.mp hm)).1
      rw [Session.number, hissued, saturatingSucc]
      omega
    · have hmono := number_happen hw h.head.1.2 h.head.2
      have hlater := ih (guarded_happen hw h.head.1) h.tail m hm
      omega

theorem issued_pairwise (hw : w.Guarded (discipline scanner)) (h : Steady scanner w es) :
    (issued scanner w es).Pairwise fun n m => n < u64Max → n < m := by
  induction es generalizing w with
  | nil => exact List.Pairwise.nil
  | cons e es ih =>
    have hguarded := guarded_happen hw h.head.1
    refine List.pairwise_append.mpr ⟨?_, ih hguarded h.tail, fun n hn m hm hlt => ?_⟩
    · cases issuedBy scanner w e with
      | none => exact List.Pairwise.nil
      | some n => exact List.pairwise_singleton _ n
    · have hstored := (issuedBy_eq_some hw (Option.mem_toList.mp hn)).2
      have hle := le_of_issued hguarded h.tail m hm
      rw [Session.number, hstored] at hle
      omega

/-! ### Producer sessions -/

/-- The number can be read off a producer session. -/
theorem historianProducerSessionId_inj {projectSlug projectSlug' sessionId : String} {n m : Nat}
    (h : historianProducerSessionId projectSlug sessionId n =
      historianProducerSessionId projectSlug' sessionId m) : n = m := by
  exact Text.toString_after_colon h

/-- Where drivers are not disturbed and no session is reset after it fired, numbers are issued in
increasing order, and no producer session is named twice. -/
theorem issued_increasing {es : List Event} (h : Undisturbed scanner es)
    (hreset : ∀ before e after, es = before ++ e :: after →
      ¬ Rewinds (run scanner before) e) : IssuesOnce scanner es := by
  have hpairwise : (issued scanner ⟨{}, []⟩ es).Pairwise fun n m => n < u64Max → n < m :=
    issued_pairwise (@guarded_run scanner [] fun before e after hes => by simp at hes)
      fun before e after hes => ⟨h before e after hes, hreset before e after hes⟩
  refine ⟨hpairwise, hpairwise.imp fun {n m} hlt hn sessionId slug slug' hid => ?_⟩
  exact absurd (historianProducerSessionId_inj hid) (hlt hn).ne

/-- After a reset the numbers start again, and with them the producer sessions. -/
theorem reissues_after_reset : ¬ ∀ es, IssuesOnce Sample.unscanned es := by
  intro h
  have hissued : issued Sample.unscanned ⟨{}, []⟩ Sample.refired = [1, 1] := by decide +kernel
  have hpairwise := (h Sample.refired).producerSession
  rw [hissued] at hpairwise
  exact (List.pairwise_pair.mp hpairwise) (by decide) "ses" "project" "project" rfl

end Numbers

theorem fired_issues_one :
    issued Sample.unscanned ⟨{}, []⟩ Sample.busy = [1] ∧
      IssuesOnce Sample.unscanned Sample.busy := by
  refine ⟨by decide +kernel, issued_increasing Sample.undisturbed_busy ?_⟩
  refine Sample.forall_of_take fun k hk => ?_
  rintro ⟨expected, he, -⟩
  have hnone : ∀ k (hk : k < Sample.busy.length), ¬ Sample.busy[k].resets := by decide +kernel
  exact hnone k hk (by rw [he]; rfl)

end MagicContext.Historian
