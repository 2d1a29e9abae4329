import Mathlib.Data.List.Induction
import MagicContext.Claims.Ledger

/-!
# When staging is open

The fence of claim intents reads two places: the row of the route's own authority, and one control
row that all projects share.  Calls that move an authority write both, but not all of them do so
the way the others expect.

## What is here

* `Watched` — the store with a note of whether a rebuild still waits for its mirror.
* `StagingOpen` — the fence is closed without the module's authority, and open with it once
  nothing is under way.
* `Forgets` — the calls that leave the control row frozen although nothing is under way.
* `stagingOpen_run_iff` — staging is open all along a run exactly if no call of it forgets.
-/

namespace MagicContext.Claims

open ClaimStore AuthorityRow

/-! ## Rows that move and rows that serve -/

def AuthorityState.moves : AuthorityState → Bool
  | PREPARING | DRAINING => true
  | _ => false

namespace ClaimStore

variable (s : ClaimStore)

/-- The memories of the key are being prepared or drained. -/
def MovesAt (key : AuthorityKey) : Prop :=
  key.domain = .memories ∧ ∃ row, s.row key = some row ∧ row.state.moves = true

def Routed (key : AuthorityKey) : Prop :=
  ∃ route, s.routeBindings route = some (key.contextStoreUuid, key.project)

/-- The memories of the key are the module's, and a route is bound to it. -/
def ServesAt (key : AuthorityKey) : Prop :=
  key.domain = .memories ∧ s.Routed key ∧ ∃ row, s.row key = some row ∧ row.state = .MODULE

end ClaimStore

/-- The store, and whether a rebuild was begun that no replacement has followed. -/
structure Watched where
  store : ClaimStore
  pending : Bool := false

variable (sys : MirrorPlatform)

/-- A rebuild that goes through begins to wait, and a replacement ends the wait. -/
def pendingAfter (pending : Bool) (call : Call) (reply : Reply) : Bool :=
  match call, reply with
  | .beginRebuild .., .rebuild (.ok _) => true
  | .replaceMirror _, .mirror (.ok _) => false
  | _, _ => pending

namespace Watched

def after (w : Watched) (call : Call) : Watched where
  store := w.store.after sys call
  pending := pendingAfter w.pending call (call.perform sys w.store).1

variable (w : Watched)

def run (calls : List Call) : Watched := calls.foldl (after sys) w

/-- **Staging is open exactly under module authority**: the fence rejects what comes by a route
whose memories are not the module's, and admits the project and the generation of the module's
memories when no authority moves and no rebuild waits. -/
def StagingOpen : Prop :=
  (∀ route binding, (∀ a, w.store.authorityForRoute route = some a → a.state ≠ .MODULE) →
      w.store.stageFence route binding ≠ .ok ()) ∧
    ∀ route a binding, w.store.authorityForRoute route = some a → a.state = .MODULE →
      (∀ key, ¬ w.store.MovesAt key) → w.pending = false →
      binding.authorityProject = a.project → binding.authorityGeneration = a.generation →
      w.store.stageFence route binding = .ok ()

/-- Memories are the module's and nothing is under way, but the control row is frozen. -/
structure Stuck (w : Watched) : Prop where
  frozen : ¬ Accepting w.store.controls
  still : ∀ key, ¬ w.store.MovesAt key
  settled : w.pending = false
  serving : ∃ key, w.store.ServesAt key

/-- Nothing is under way but what happens at the key. -/
def Alone (key : AuthorityKey) : Prop :=
  w.pending = false ∧ ∀ k, k ≠ key → ¬ w.store.MovesAt k

def ServesBut (key : AuthorityKey) : Prop := ∃ k, k ≠ key ∧ w.store.ServesAt k

/-- The mirror says what the snapshot says, and the replacement goes through. -/
def Restates (snapshot : ClaimMirrorSnapshot) : Prop :=
  (∃ s', replaceMirror sys w.store snapshot = .ok s') ∧
    ∃ mirror, w.store.mirror = some mirror ∧ sameAsStored sys mirror snapshot = .ok true

/-- **The calls that forget the control row.**  An acknowledged preparation and a finished drain
leave it as it is, a preparation that is given up freezes it for all projects, and a replacement
that finds its snapshot stored ends a rebuild without opening it again. -/
def Forgets (call : Call) : Prop :=
  match call with
  | .ackPrepare key _ =>
    (call.perform sys w.store).1.row?.isSome ∧ key.domain = .memories ∧ w.Alone key ∧
      ¬ Accepting w.store.controls ∧ (w.ServesBut key ∨ w.store.Routed key)
  | .finishPrepare key _ _ _ verified =>
    (call.perform sys w.store).1.row?.isSome ∧ key.domain = .memories ∧ w.Alone key ∧
      verified = false ∧ w.ServesBut key
  | .abortPrepare key _ =>
    (call.perform sys w.store).1.row?.isSome ∧ key.domain = .memories ∧ w.Alone key ∧
      w.ServesBut key
  | .finishDrain key .. =>
    (call.perform sys w.store).1.row?.isSome ∧ key.domain = .memories ∧ w.Alone key ∧
      ¬ Accepting w.store.controls ∧ w.ServesBut key
  | .replaceMirror snapshot =>
    w.Restates sys snapshot ∧ ¬ Accepting w.store.controls ∧
      (∀ key, ¬ w.store.MovesAt key) ∧ ∃ key, w.store.ServesAt key
  | _ => False

end Watched

/-- The store of a call on authority is named by thirty-two hexadecimal characters. -/
def Call.hexStore : Call → Bool
  | beginPrepare key | verifyPrepare key .. | ackPrepare key .. | finishPrepare key ..
  | abortPrepare key .. | beginDrain key .. | drainStep key .. | finishDrain key .. =>
    isLowerHex key.contextStoreUuid 32
  | _ => true

/-! ## Staging is open unless the store is stuck -/

/-- Whether the store is stuck is a matter of its control row and its keys. -/
theorem Watched.stuck_congr {w : Watched} {s' : ClaimStore}
    (hcontrols : s'.controls = w.store.controls)
    (hmoves : ∀ k, s'.MovesAt k ↔ w.store.MovesAt k)
    (hserves : ∀ k, s'.ServesAt k ↔ w.store.ServesAt k) :
    (Watched.mk s' w.pending).Stuck ↔ w.Stuck := by
  constructor
  · exact fun h => ⟨hcontrols ▸ h.frozen, fun k hk => h.still k ((hmoves k).mpr hk), h.settled,
      h.serving.imp fun k => (hserves k).mp⟩
  · exact fun h => ⟨hcontrols.symm ▸ h.frozen, fun k hk => h.still k ((hmoves k).mp hk), h.settled,
      h.serving.imp fun k => (hserves k).mpr⟩

theorem serves_iff {s : ClaimStore} :
    (∃ key, s.ServesAt key) ↔
      ∃ route a, s.authorityForRoute route = some a ∧ a.state = .MODULE := by
  constructor
  · rintro ⟨⟨uuid, project, domain⟩, hdomain, ⟨route, hroute⟩, row, hrow, hstate⟩
    cases hdomain
    refine ⟨route, ⟨project, row.state, row.generation⟩, ?_, hstate⟩
    rw [authorityForRoute, hroute]
    exact congrArg (Option.map _) hrow
  · rintro ⟨route, a, ha, hstate⟩
    rw [authorityForRoute] at ha
    split at ha
    · cases ha
    · rename_i uuid project hroute
      obtain ⟨row, hrow, rfl⟩ := Option.map_eq_some_iff.mp ha
      exact ⟨⟨uuid, project, .memories⟩, rfl, ⟨route, hroute⟩, row, hrow, hstate⟩

theorem stagingOpen_iff {w : Watched} : w.StagingOpen ↔ ¬ w.Stuck := by
  constructor
  · rintro ⟨-, hopen⟩ ⟨hfrozen, hstill, hsettled, hserving⟩
    obtain ⟨route, a, ha, hstate⟩ := serves_iff.mp hserving
    have hfence := hopen route a ⟨"", 0, a.project, a.generation⟩ ha hstate hstill hsettled rfl rfl
    exact hfrozen (claimIntentStageFence_eq_ok.mp hfence).1
  · intro hstuck
    refine ⟨fun route binding hroute hfence => ?_, fun route a binding ha hstate hstill hsettled
      hproject hgeneration => ?_⟩
    · obtain ⟨-, ha⟩ := claimIntentStageFence_eq_ok.mp hfence
      exact hroute _ ha rfl
    · refine claimIntentStageFence_eq_ok.mpr ⟨?_, ?_⟩
      · by_contra hfrozen
        exact hstuck ⟨hfrozen, hstill, hsettled, serves_iff.mpr ⟨route, a, ha, hstate⟩⟩
      · rw [ha, hproject, hgeneration, ← hstate]

/-! ## One call -/

section Step
variable {sys} {w : Watched} {s' : ClaimStore} {call : Call} {key : AuthorityKey}
  {row' : AuthorityRow}

section
variable (h : Transited w.store call key row' s')
include h

theorem Transited.movesAt_iff (k : AuthorityKey) : s'.MovesAt k ↔ (k ≠ key ∧ w.store.MovesAt k) ∨
        (k = key ∧ key.domain = .memories ∧ row'.state.moves = true) := by
  rw [MovesAt, h.row]
  by_cases hk : key = k
  · subst hk
    simp
  · rw [if_neg hk]
    simp [Ne.symm hk, MovesAt]

theorem Transited.servesAt_iff (k : AuthorityKey) : s'.ServesAt k ↔ (k ≠ key ∧ w.store.ServesAt k) ∨
        (k = key ∧ key.domain = .memories ∧ w.store.Routed key ∧ row'.state = .MODULE) := by
  rw [ServesAt, h.row, Routed, h.same.routeBindings]
  by_cases hk : key = k
  · subst hk
    simp [Routed]
  · rw [if_neg hk]
    simp [Ne.symm hk, ServesAt, Routed]

/-- What happens to notes does not touch the store's memories. -/
theorem Transited.stuck_of_notes (hdomain : key.domain ≠ .memories) :
    (Watched.mk s' w.pending).Stuck ↔ w.Stuck := by
  have hcontrols : s'.controls = w.store.controls := by
    rw [h.controls]
    split
    · rfl
    · rw [if_neg fun h => hdomain h.1]
  have hmoves : ∀ k, s'.MovesAt k ↔ w.store.MovesAt k := by
    intro k
    rw [h.movesAt_iff]
    refine ⟨?_, fun hk => .inl ⟨fun heq => hdomain (heq ▸ hk.1), hk⟩⟩
    rintro (⟨-, hk⟩ | ⟨-, hmemories, -⟩)
    · exact hk
    · exact absurd hmemories hdomain
  have hserves : ∀ k, s'.ServesAt k ↔ w.store.ServesAt k := by
    intro k
    rw [h.servesAt_iff]
    refine ⟨?_, fun hk => .inl ⟨fun heq => hdomain (heq ▸ hk.1), hk⟩⟩
    rintro (⟨-, hk⟩ | ⟨-, hmemories, -⟩)
    · exact hk
    · exact absurd hmemories hdomain
  exact Watched.stuck_congr hcontrols hmoves hserves

/-- A row that moves keeps the store from being stuck. -/
theorem Transited.not_stuck_of_moves (hdomain : key.domain = .memories)
    (hmoves : row'.state.moves = true) (pending : Bool) :
    ¬ (Watched.mk s' pending).Stuck :=
  fun hstuck => hstuck.still key ((h.movesAt_iff key).mpr (.inr ⟨rfl, hdomain, hmoves⟩))

/-- The store is stuck after a row has come to rest. -/
theorem Transited.stuck_iff_of_rests (hdomain : key.domain = .memories)
    (hrests : row'.state.moves = false) :
    (Watched.mk s' w.pending).Stuck ↔ ¬ Accepting s'.controls ∧ w.Alone key ∧
        (w.ServesBut key ∨ (w.store.Routed key ∧ row'.state = .MODULE)) := by
  constructor
  · rintro ⟨hfrozen, hstill, hsettled, k, hk⟩
    refine ⟨hfrozen, ⟨hsettled, fun k' hne hk' => ?_⟩, ?_⟩
    · exact hstill k' ((h.movesAt_iff k').mpr (.inl ⟨hne, hk'⟩))
    · rcases (h.servesAt_iff k).mp hk with ⟨hne, hk⟩ | ⟨-, -, hrouted, hstate⟩
      · exact .inl ⟨k, hne, hk⟩
      · exact .inr ⟨hrouted, hstate⟩
  · rintro ⟨hfrozen, ⟨hsettled, hstill⟩, hserves⟩
    refine ⟨hfrozen, fun k hk => ?_, hsettled, ?_⟩
    · rcases (h.movesAt_iff k).mp hk with ⟨hne, hk⟩ | ⟨-, -, hmoves⟩
      · exact hstill k hne hk
      · rw [hrests] at hmoves
        cases hmoves
    · rcases hserves with ⟨k, hne, hk⟩ | ⟨hrouted, hstate⟩
      · exact ⟨k, (h.servesAt_iff k).mpr (.inl ⟨hne, hk⟩)⟩
      · exact ⟨key, (h.servesAt_iff key).mpr (.inr ⟨rfl, hdomain, hrouted, hstate⟩)⟩

/-- What an acknowledged preparation or a finished drain leaves frozen stays frozen. -/
theorem Transited.accepting_iff (hcontrol : call.control row' = none) :
    Accepting s'.controls ↔ Accepting w.store.controls := by
  rw [h.controls, hcontrol]

/-- The control row after a call that writes it. -/
theorem Transited.accepting_iff_of_write (hdomain : key.domain = .memories)
    (hhex : isLowerHex key.contextStoreUuid 32)
    {state : TransitionState} (hcontrol : call.control row' = some state) :
    Accepting s'.controls ↔ state = .accepting := by
  rw [h.controls, hcontrol]
  dsimp only
  rw [if_pos ⟨hdomain, hhex⟩]
  simp [Accepting]

end

/-- A call on authority that fails changes nothing. -/
theorem after_of_authority_failed (hcall : call.onAuthority = true)
    (hrow : ((call.perform sys w.store).1).row? = none) : w.after sys call = w := by
  have hstore := after_of_failed hcall hrow
  cases call with
  | beginPrepare | verifyPrepare | ackPrepare | finishPrepare | abortPrepare | beginDrain
  | drainStep | finishDrain =>
    change Watched.mk _ w.pending = w
    rw [hstore]
  | _ => cases hcall

/-- **A transition** leaves the store stuck exactly if its call forgets the control row. -/
theorem stuck_of_transits {row : AuthorityRow}
    (ht : Transits sys w.store call key row row') (h : Transited w.store call key row' s')
    (hgoes : ((call.perform sys w.store).1).row?.isSome = true)
    (hhex : isLowerHex key.contextStoreUuid 32 = true) (hw : ¬ w.Stuck) :
    (Watched.mk s' w.pending).Stuck ↔ w.Forgets sys call := by
  by_cases hdomain : key.domain = .memories
  · have hmoving : row'.state.moves = true → (Watched.mk s' w.pending).Stuck → False :=
      fun hmoves hstuck => h.not_stuck_of_moves hdomain hmoves w.pending hstuck
    cases ht with
    | beginPrepare _ hrow =>
      refine iff_of_false (hmoving ?_) id
      rw [(beginPrepare_eq_ok hrow).1]
      rfl
    | verifyPrepare _ hrow =>
      refine iff_of_false (hmoving ?_) id
      rw [(verifyPrepare_eq_ok hrow).2.1]
      rfl
    | ackPrepare _ hrow =>
      have hstate := (ackPrepare_eq_ok hrow).2.1
      rw [h.stuck_iff_of_rests hdomain (by rw [hstate]; rfl), h.accepting_iff rfl, hstate]
      simp only [Watched.Forgets, hgoes, hdomain, and_true, true_and]
      exact and_left_comm
    | finishPrepare _ hrow =>
      rename_i g expected actual verified _
      have hstate := (finishPrepare_eq_ok hrow).2.1
      cases verified with
      | true =>
        refine iff_of_false (fun hstuck => hstuck.frozen ?_) (by simp [Watched.Forgets])
        rw [h.accepting_iff_of_write hdomain hhex rfl, hstate]
        rfl
      | false =>
        rw [h.stuck_iff_of_rests hdomain (by rw [hstate]; rfl),
          h.accepting_iff_of_write hdomain hhex rfl, hstate]
        simp [Watched.Forgets, hgoes, hdomain]
    | abortPrepare _ hrow =>
      have hstate := (finishPrepare_eq_ok hrow).2.1
      rw [h.stuck_iff_of_rests hdomain (by rw [hstate]; rfl),
        h.accepting_iff_of_write hdomain hhex rfl, hstate]
      simp [Watched.Forgets, hgoes, hdomain]
    | beginDrain _ hrow =>
      refine iff_of_false (hmoving ?_) id
      rw [beginDrain_state hrow]
      rfl
    | drainStep _ hrow =>
      refine iff_of_false (hmoving ?_) id
      obtain ⟨hstate, -, -, rfl⟩ := drainStep_eq_ok hrow
      rw [hstate]
      rfl
    | finishDrain _ hrow =>
      obtain ⟨-, -, -, -, -, hstate, -⟩ := finishDrain_eq_ok hrow
      rw [h.stuck_iff_of_rests hdomain (by rw [hstate]; rfl), h.accepting_iff rfl, hstate]
      simp only [Watched.Forgets, hgoes, hdomain, true_and, reduceCtorEq, and_false, or_false]
      exact and_left_comm
  · rw [h.stuck_of_notes hdomain]
    refine iff_of_false hw ?_
    cases ht <;> simp [Watched.Forgets, hdomain]

/-- A replacement leaves the store stuck exactly if it finds its snapshot stored while the control
row is frozen. -/
theorem stuck_of_replaceMirror {snapshot : ClaimMirrorSnapshot} (hw : ¬ w.Stuck) :
    (w.after sys (.replaceMirror snapshot)).Stuck ↔ w.Forgets sys (.replaceMirror snapshot) := by
  rcases h : replaceMirror sys w.store snapshot with e | s'
  · have hafter : w.after sys (.replaceMirror snapshot) = w := by
      simp [Watched.after, after, Call.perform, h, commitUnit, commit, pendingAfter, Except.map]
    rw [hafter]
    refine iff_of_false hw ?_
    rintro ⟨⟨⟨s', hs'⟩, -⟩, -⟩
    rw [h] at hs'
    cases hs'
  · have hafter : w.after sys (.replaceMirror snapshot) = ⟨s', false⟩ := by
      simp [Watched.after, after, Call.perform, h, commitUnit, commit, pendingAfter, Except.map]
    rw [hafter]
    obtain ⟨controls, mirror, hreplace, rfl⟩ := replaceMirror_eq_ok h
    rcases replaceStored_eq_ok (replaceClaimMirrorSnapshot_eq_ok hreplace).2 with
      ⟨stored, hstored, hsame, rfl, rfl⟩ | ⟨hsame, haccepting, hseed⟩
    · constructor
      · rintro ⟨hfrozen, hstill, -, hserving⟩
        exact ⟨⟨⟨_, h⟩, stored, hstored, hsame⟩, hfrozen, hstill, hserving⟩
      · rintro ⟨-, hfrozen, hstill, hserving⟩
        exact ⟨hfrozen, hstill, rfl, hserving⟩
    · obtain ⟨-, -, rfl, -⟩ := seed_eq_ok hseed
      refine iff_of_false (fun hstuck => hstuck.frozen haccepting) ?_
      rintro ⟨⟨-, stored, hstored, htrue⟩, -⟩
      rw [hsame stored hstored] at htrue
      cases htrue

/-- A call that is about neither authority nor the control row. -/
structure Apart (s s' : ClaimStore) : Prop where
  authority : s'.authority = s.authority
  routeBindings : s'.routeBindings = s.routeBindings
  controls : s'.controls = s.controls

theorem Apart.commit {ε α : Type} {s : ClaimStore} {result : Except ε (α × ClaimStore)}
    (h : ∀ a s', result = .ok (a, s') → Apart s s') : Apart s (s.commit result).2 := by
  cases result with
  | ok p => exact h p.1 p.2 rfl
  | error e => exact ⟨rfl, rfl, rfl⟩

theorem Apart.commitUnit {ε : Type} {s : ClaimStore} {result : Except ε ClaimStore}
    (h : ∀ s', result = .ok s' → Apart s s') : Apart s (s.commitUnit result).2 := by
  cases result with
  | ok s' => exact h s' rfl
  | error e => exact ⟨rfl, rfl, rfl⟩

theorem Apart.stuck_iff (h : Apart w.store s') : (Watched.mk s' w.pending).Stuck ↔ w.Stuck := by
  have hmoves : ∀ k, s'.MovesAt k ↔ w.store.MovesAt k := by
    intro k
    rw [MovesAt, row, h.authority]
    rfl
  have hserves : ∀ k, s'.ServesAt k ↔ w.store.ServesAt k := by
    intro k
    rw [ServesAt, row, h.authority, Routed, h.routeBindings]
    rfl
  exact Watched.stuck_congr h.controls hmoves hserves

/-- A rebuild waits, or has failed. -/
theorem stuck_of_beginRebuild {incarnation : String} {g : Nat} (hw : ¬ w.Stuck) :
    ¬ (w.after sys (.beginRebuild incarnation g)).Stuck := by
  rcases h : beginClaimStoreRebuild sys.toPlatform w.store incarnation g with e | s'
  · have hafter : w.after sys (.beginRebuild incarnation g) = w := by
      simp [Watched.after, after, Call.perform, h, commitUnit, commit, pendingAfter, Except.map]
    rwa [hafter]
  · have hafter : w.after sys (.beginRebuild incarnation g) = ⟨s', true⟩ := by
      simp [Watched.after, after, Call.perform, h, commitUnit, commit, pendingAfter, Except.map]
    rw [hafter]
    intro hstuck
    cases hstuck.settled

theorem Watched.Forgets.goes (hcall : call.onAuthority = true) (h : w.Forgets sys call) :
    ((call.perform sys w.store).1).row?.isSome = true := by
  cases call with
  | ackPrepare | finishPrepare | abortPrepare | finishDrain => exact h.1
  | beginPrepare | verifyPrepare | beginDrain | drainStep => cases h
  | _ => cases hcall

theorem Transits.hexStore {row : AuthorityRow} (h : Transits sys w.store call key row row') :
    call.hexStore = isLowerHex key.contextStoreUuid 32 := by
  cases h <;> rfl

theorem after_of_onAuthority (hcall : call.onAuthority = true) :
    w.after sys call = ⟨w.store.after sys call, w.pending⟩ := by
  cases call <;> first | rfl | cases hcall

theorem stuck_of_authority (hcall : call.onAuthority = true) (hhex : call.hexStore = true)
    (hw : ¬ w.Stuck) : (w.after sys call).Stuck ↔ w.Forgets sys call := by
  rcases h : ((call.perform sys w.store).1).row? with _ | row'
  · rw [after_of_authority_failed hcall h]
    refine iff_of_false hw fun hforgets => ?_
    have hgoes := hforgets.goes hcall
    rw [h] at hgoes
    cases hgoes
  · obtain ⟨key, row, htransits, htransited⟩ := transits_of_reply h
    rw [after_of_onAuthority hcall]
    refine stuck_of_transits htransits htransited ?_ (htransits.hexStore ▸ hhex) hw
    rw [h]
    rfl

/-- **One call** leaves the store stuck exactly if it forgets the control row. -/
theorem stuck_after_iff (hhex : call.hexStore = true) (hw : ¬ w.Stuck) :
    (w.after sys call).Stuck ↔ w.Forgets sys call := by
  have hapart : ∀ {s'}, Apart w.store s' → ((Watched.mk s' w.pending).Stuck ↔ False) :=
    fun h => iff_of_false (fun hstuck => hw (h.stuck_iff.mp hstuck)) id
  cases call with
  | beginRebuild incarnation g => exact iff_of_false (stuck_of_beginRebuild hw) id
  | replaceMirror snapshot => exact stuck_of_replaceMirror hw
  | applyReceipt group =>
    refine hapart (Apart.commit fun result s' h => ?_)
    obtain ⟨-, -, rfl⟩ := applyReceipt_eq_ok h
    exact ⟨rfl, rfl, rfl⟩
  | deleteMirror =>
    refine hapart (Apart.commitUnit fun s' h => ?_)
    obtain ⟨-, -, rfl⟩ := deleteMirror_eq_ok h
    exact ⟨rfl, rfl, rfl⟩
  | stage route binding command request nowMs =>
    refine hapart (Apart.commit fun outcome s' h => ?_)
    obtain ⟨-, -, rfl⟩ := stageIntent_eq_ok h
    exact ⟨rfl, rfl, rfl⟩
  | acknowledge binding command digest kind resultJson nowMs =>
    refine hapart (Apart.commit fun outcome s' h => ?_)
    obtain ⟨-, -, rfl⟩ := acknowledgeIntent_eq_ok h
    exact ⟨rfl, rfl, rfl⟩
  | insertNote note =>
    refine @hapart (insertNote w.store note) ?_
    rw [insertNote]
    split <;> exact ⟨rfl, rfl, rfl⟩
  | updateNote note =>
    refine @hapart (updateNote w.store note) ?_
    rw [updateNote]
    split <;> exact ⟨rfl, rfl, rfl⟩
  | deleteNote id =>
    refine @hapart (deleteNote w.store id) ?_
    rw [deleteNote]
    split <;> exact ⟨rfl, rfl, rfl⟩
  | _ => exact stuck_of_authority rfl hhex hw

end Step

/-! ## Runs -/

/-- A store that no call has touched. -/
def watch (routes : String → Option (String × String)) : Watched where
  store := ClaimStore.fresh routes

theorem not_stuck_watch (routes : String → Option (String × String)) : ¬ (watch routes).Stuck := by
  rintro ⟨-, -, -, key, -, -, row, hrow, -⟩
  cases hrow

variable {sys}

theorem stuck_run_iff {w : Watched} (hw : ¬ w.Stuck) (calls : List Call)
    (hhex : ∀ call ∈ calls, call.hexStore = true) :
    (∀ pre post, calls = pre ++ post → ¬ (w.run sys pre).Stuck) ↔
      ∀ pre call post, calls = pre ++ call :: post → ¬ (w.run sys pre).Forgets sys call := by
  constructor
  · rintro h pre call post rfl hforgets
    have hbefore := h pre (call :: post) rfl
    have hafter := h (pre ++ [call]) post (by simp)
    rw [Watched.run, List.foldl_concat] at hafter
    exact hafter ((stuck_after_iff (hhex call (by simp)) hbefore).mpr hforgets)
  · intro h pre
    induction pre using List.reverseRecOn with
    | nil => exact fun _ _ => hw
    | append_singleton pre call ih =>
      rintro post rfl hstuck
      have hbefore := ih (call :: post) (by simp)
      rw [Watched.run, List.foldl_concat] at hstuck
      exact h pre call post (by simp) ((stuck_after_iff (hhex call (by simp)) hbefore).mp hstuck)

/-- **When staging is open along a run**: exactly when no call of it forgets the control row. -/
theorem stagingOpen_run_iff (sys : MirrorPlatform)
    (routes : String → Option (String × String)) (calls : List Call)
    (hhex : ∀ call ∈ calls, call.hexStore = true) :
    (∀ pre post, calls = pre ++ post → ((watch routes).run sys pre).StagingOpen) ↔
      ∀ pre call post, calls = pre ++ call :: post →
        ¬ ((watch routes).run sys pre).Forgets sys call := by
  rw [← stuck_run_iff (not_stuck_watch routes) calls hhex]
  exact forall₃_congr fun pre post _ => stagingOpen_iff

/-- A preparation that is verified and acknowledged. -/
def acknowledged : List Call :=
  [.beginPrepare (sampleKey .memories), .verifyPrepare (sampleKey .memories) 1 "hash" "hash",
    .ackPrepare (sampleKey .memories) 1]

theorem stagingOpen_run_acknowledged :
    (∀ pre post, acknowledged = pre ++ post →
        ((watch sampleRoutes).run plainPlatform pre).StagingOpen) ↔
      ∀ pre call post, acknowledged = pre ++ call :: post →
        ¬ ((watch sampleRoutes).run plainPlatform pre).Forgets plainPlatform call :=
  stagingOpen_run_iff plainPlatform sampleRoutes acknowledged (by decide +kernel)

/-- **An acknowledged preparation leaves staging closed**: the memories are the module's, nothing
is under way, and the fence still finds a reset. -/
theorem acknowledged_closed :
    (∀ call ∈ acknowledged, call.hexStore = true) ∧
      ¬ ((watch sampleRoutes).run plainPlatform acknowledged).StagingOpen := by
  refine ⟨by decide +kernel, fun hopen => ?_⟩
  have hfence := hopen.2 "route" ⟨"project", .MODULE, 2⟩
    ⟨(sampleKey .memories).contextStoreUuid, 1, "project", 2⟩ (by decide +kernel) rfl ?_
    (by decide +kernel) rfl rfl
  · exact absurd (congrArg Except.toBool hfence) (by decide +kernel)
  · rintro key ⟨-, row, hrow, hmoves⟩
    obtain ⟨entry, hentry, rfl⟩ := Option.map_eq_some_iff.mp hrow
    have hrests : ∀ e ∈ ((watch sampleRoutes).run plainPlatform acknowledged).store.authority.rows,
        e.row.state.moves = false := by decide +kernel
    rw [hrests entry (Table.get_eq_some.mp hentry).1] at hmoves
    cases hmoves

end MagicContext.Claims
