import Mathlib.Data.List.Induction
import MagicContext.Claims.Store

/-!
# Drains

A drain hands a domain back to the host.  Its coordinator is named by a token, which a takeover or
a resume replaces; it journals its steps and finishes against the head of the change feed.

## What is here

* `DrainEvent`, `Traced` — what happened to drains, newest first, beside the store.
* `DrainInv` — the journal and the token of a row are those of its events.
* `authorityFinishDrain_handsOver` — what has happened when a drain finishes, and which
  coordinators are refused.
-/

namespace MagicContext.Claims

open AuthorityRow

/-! ## Histories -/

/-- What a token is minted from. -/
structure Grant where
  lease : String
  leaseExpiresAt : Int
  generation : Nat
  nanos : Nat
  deriving DecidableEq

inductive DrainEvent where
  /-- A drain began, or went on under a new token. -/
  | granted (key : AuthorityKey) (started : Bool) (grant : Grant)
  | journaled (key : AuthorityKey) (step : DrainStep)
  | finished (key : AuthorityKey)
  deriving DecidableEq

/-- The text that is hashed to a token. -/
def Grant.text (grant : Grant) : String :=
  s!"drain-token:{grant.lease}:{grant.leaseExpiresAt}:{grant.generation}:{grant.nanos}"

def Grant.token (sys : Platform) (grant : Grant) : String :=
  mintCoordinatorToken sys grant.lease grant.leaseExpiresAt grant.generation grant.nanos

namespace DrainEvent

/-- A new drain of the key. -/
def starts (key : AuthorityKey) : DrainEvent → Bool
  | granted k started _ => decide (k = key) && started
  | _ => false

/-- The bound of a drain of the key is captured, for the first time or again. -/
def captures (key : AuthorityKey) : DrainEvent → Bool
  | granted k _ _ => decide (k = key)
  | _ => false

/-- What a coordinator of the key was given. -/
def grantOf (key : AuthorityKey) : DrainEvent → Option Grant
  | granted k _ grant => if k = key then some grant else none
  | _ => none

def anyGrant : DrainEvent → Option Grant
  | granted _ _ grant => some grant
  | _ => none

end DrainEvent

open DrainEvent

/-- What came after the last event that `stops`; the newest is first. -/
def since (stops : DrainEvent → Bool) (history : List DrainEvent) : List DrainEvent :=
  history.takeWhile fun e => !stops e

/-- What the coordinator of the key was given last. -/
def lastGrant (key : AuthorityKey) (history : List DrainEvent) : Option Grant :=
  history.findSome? (DrainEvent.grantOf key)

/-- What a call that went through has done to a drain. -/
def drainEvent (s : ClaimStore) (call : Call) (row' : AuthorityRow) : Option DrainEvent :=
  match call with
  | .beginDrain key lease leaseExpiresAt _ nanos =>
    some (.granted key ((s.row key).any fun row => row.state != .DRAINING)
      { lease, leaseExpiresAt, generation := row'.generation, nanos })
  | .drainStep key _ step .. => some (.journaled key step)
  | .finishDrain key .. => some (.finished key)
  | _ => none

/-- The store, and what happened to drains. -/
structure Traced where
  store : ClaimStore
  history : List DrainEvent := []

variable (sys : MirrorPlatform)

namespace Traced

def after (t : Traced) (call : Call) : Traced where
  store := t.store.after sys call
  history := match (call.perform sys t.store).1.row? with
    | none => t.history
    | some row' => (drainEvent t.store call row').toList ++ t.history

def run (t : Traced) (calls : List Call) : Traced := calls.foldl (after sys) t

/-- A store that no call has touched. -/
def fresh (routes : String → Option (String × String)) : Traced where
  store := ClaimStore.fresh routes

end Traced

open Traced

/-! ## The invariant -/

/-- The journal of a row is that of its drain, and its coordinator is the last one. -/
structure RowInv (key : AuthorityKey) (history : List DrainEvent) (row : AuthorityRow) :
    Prop where
  journaled : ∀ step, step ≠ .flip → row.steps.get step = true →
    .journaled key step ∈ since (DrainEvent.starts key) history
  coordinator : ∀ token, row.coordinatorToken = some token →
    ∃ grant, lastGrant key history = some grant ∧ token = grant.token sys.toPlatform ∧
      row.leaseExpiresAt = some grant.leaseExpiresAt
  bound : row.state = .DRAINING → row.capturedUpperBound ≠ none

def DrainInv (t : Traced) : Prop :=
  ∀ key row, t.store.row key = some row → RowInv sys key t.history row

variable {sys}

variable {history : List DrainEvent} {key : AuthorityKey} {row row' : AuthorityRow} {call : Call}
  {t : Traced}

theorem since_cons {stops : DrainEvent → Bool} {e : DrainEvent} (h : stops e = false) :
    since stops (e :: history) = e :: since stops history := by
  rw [since, List.takeWhile_cons_of_pos (by simpa using h)]
  rfl

/-- An event of another key does not count. -/
theorem RowInv.of_other (h : RowInv sys key history row) {e : DrainEvent}
    (hstarts : e.starts key = false) (hgrant : e.grantOf key = none) :
    RowInv sys key (e :: history) row := by
  refine ⟨fun step hstep hget => ?_, fun token htoken => ?_, h.bound⟩
  · rw [since_cons hstarts]
    exact List.mem_cons_of_mem _ (h.journaled step hstep hget)
  · rw [lastGrant, List.findSome?_cons, hgrant]
    exact h.coordinator token htoken

/-- A row whose drain is as it was. -/
theorem RowInv.of_same (h : RowInv sys key history row)
    (hsame : SameDrain row row') (hstate : row'.state ≠ .DRAINING) :
    RowInv sys key history row' := by
  refine ⟨fun step hstep hget => h.journaled step hstep (hsame.steps ▸ hget), fun token heq => ?_,
    fun hdraining => absurd hdraining hstate⟩
  rw [hsame.expires]
  exact h.coordinator token (hsame.token ▸ heq)

/-- A row that no drain has touched. -/
theorem rowInv_default (key : AuthorityKey) (history : List DrainEvent) :
    RowInv sys key history {} := by
  refine ⟨fun step _ hget => ?_, nofun, nofun⟩
  cases step <;> cases hget

/-- A coordinator gets its token. -/
theorem rowInv_granted {started : Bool} {grant : Grant}
    (htoken : row'.coordinatorToken = some (grant.token sys.toPlatform))
    (hexpires : row'.leaseExpiresAt = some grant.leaseExpiresAt)
    (hbound : row'.capturedUpperBound ≠ none)
    (hsteps : ∀ step, step ≠ .flip → row'.steps.get step = true → started = false ∧
      .journaled key step ∈ since (starts key) history) :
    RowInv sys key (.granted key started grant :: history) row' := by
  refine ⟨fun step hstep hget => ?_, fun token heq => ?_, fun _ => hbound⟩
  · obtain ⟨rfl, hmem⟩ := hsteps step hstep hget
    rw [since_cons (by simp [starts])]
    exact List.mem_cons_of_mem _ hmem
  · refine ⟨grant, ?_, Option.some.inj (heq.symm.trans htoken), hexpires⟩
    rw [lastGrant, List.findSome?_cons, grantOf, if_pos rfl]

/-- **A transition** keeps the invariant of its row. -/
theorem rowInv_of_transits {s : ClaimStore} (ht : Transits sys s call key row row')
    (h : RowInv sys key history row) :
    RowInv sys key ((drainEvent s call row').toList ++ history) row' := by
  cases ht with
  | beginPrepare _ hrow =>
    refine h.of_same (beginPrepare_sameDrain hrow) ?_
    rw [(beginPrepare_eq_ok hrow).1]
    decide
  | verifyPrepare _ hrow =>
    refine h.of_same (verifyPrepare_sameDrain hrow) ?_
    rw [(verifyPrepare_eq_ok hrow).2.1]
    decide
  | ackPrepare _ hrow =>
    refine h.of_same (ackPrepare_sameDrain hrow) ?_
    rw [(ackPrepare_eq_ok hrow).2.1]
    decide
  | finishPrepare _ hrow =>
    refine h.of_same (finishPrepare_sameDrain hrow) ?_
    rw [(finishPrepare_eq_ok hrow).2.1]
    split <;> decide
  | abortPrepare _ hrow =>
    refine h.of_same (finishPrepare_sameDrain hrow) ?_
    rw [(finishPrepare_eq_ok hrow).2.1]
    decide
  | beginDrain hs hrow =>
    rcases beginDrain_eq_ok hrow with ⟨hstate, hrow⟩ | ⟨hstate, hrow⟩
    · obtain rfl := resumeDrain_eq_ok hrow
      refine rowInv_granted rfl rfl (Option.some_ne_none _) fun step hstep hget =>
        ⟨?_, h.journaled step hstep hget⟩
      rw [hs, Option.any_some, hstate]
      rfl
    · obtain rfl := startDrain_eq_ok hrow
      refine rowInv_granted rfl rfl (Option.some_ne_none _) fun step _ hget => ?_
      cases step <;> cases hget
  | drainStep _ hrow =>
    rename_i g step cursor token nowMs hs
    obtain ⟨-, -, -, rfl⟩ := drainStep_eq_ok hrow
    refine ⟨fun t ht hget => ?_, fun token htoken => h.coordinator token htoken, h.bound⟩
    change _ ∈ since _ (.journaled key step :: history)
    rw [since_cons rfl]
    rw [DrainSteps.get_journal, Bool.or_eq_true, decide_eq_true_iff] at hget
    rcases hget with hget | rfl
    · exact List.mem_cons_of_mem _ (h.journaled t ht hget)
    · exact List.mem_cons_self ..
  | finishDrain _ hrow =>
    obtain ⟨-, -, -, -, -, hstate, hnone, -⟩ := finishDrain_eq_ok hrow
    refine ⟨fun t ht hget => ?_, fun token htoken => ?_, fun hdraining => ?_⟩
    · change _ ∈ since _ (.finished key :: history)
      rw [since_cons rfl]
      rw [finishDrain_steps hrow, DrainSteps.get_journal, decide_eq_false ht, Bool.or_false] at hget
      exact List.mem_cons_of_mem _ (h.journaled t ht hget)
    · rw [hnone] at htoken
      cases htoken
    · rw [hstate] at hdraining
      cases hdraining

/-- The row before a transition, where a new one counts as untouched. -/
theorem Transits.row_eq {s : ClaimStore} (ht : Transits sys s call key row row') :
    (s.row key).getD {} = row := by
  cases ht with
  | beginPrepare hs => exact hs
  | verifyPrepare hs | ackPrepare hs | finishPrepare hs | abortPrepare hs | beginDrain hs
  | drainStep hs | finishDrain hs => rw [hs]; rfl

/-- A transition is an event of its own key. -/
theorem Transits.drainEvent_other {s : ClaimStore} {key k : AuthorityKey}
    (ht : Transits sys s call key row row') (hk : key ≠ k) {e : DrainEvent}
    (he : drainEvent s call row' = some e) : e.starts k = false ∧ e.grantOf k = none := by
  cases ht with
  | beginPrepare | verifyPrepare | ackPrepare | finishPrepare | abortPrepare => cases he
  | beginDrain | drainStep | finishDrain =>
    cases he
    simp [starts, grantOf, hk]

/-- **A call** keeps the invariant. -/
theorem drainInv_after (h : DrainInv sys t) (call : Call) : DrainInv sys (t.after sys call) := by
  intro k r hr
  rcases hreply : (call.perform sys t.store).1.row? with _ | row'
  · have hstore : (t.store.after sys call).row k = t.store.row k := by
      by_cases hcall : call.onAuthority = true
      · rw [after_of_failed hcall hreply]
      · rw [ClaimStore.row, authority_of_other (Bool.eq_false_iff.mpr hcall)]
        rfl
    rw [after, hreply]
    exact h k r (hstore ▸ hr)
  · obtain ⟨key, row, ht, htransited⟩ := transits_of_reply hreply
    rw [after, hreply]
    change RowInv sys k ((drainEvent t.store call row').toList ++ t.history) r
    have hrow := htransited.row k
    rw [show (t.store.after sys call).row k = some r from hr] at hrow
    split at hrow
    · rename_i hk
      subst hk
      cases hrow
      refine rowInv_of_transits ht ?_
      rcases hs : t.store.row key with _ | row₀
      · rw [← ht.row_eq, hs]
        exact rowInv_default key t.history
      · rw [← ht.row_eq, hs]
        exact h key row₀ hs
    · rename_i hk
      have hinv := h k r hrow.symm
      rcases he : drainEvent t.store call row' with _ | e
      · exact hinv
      · obtain ⟨hstarts, hgrant⟩ := ht.drainEvent_other hk he
        exact hinv.of_other hstarts hgrant

theorem drainInv_run (routes : String → Option (String × String)) (calls : List Call) :
    DrainInv sys ((fresh routes).run sys calls) := by
  induction calls using List.reverseRecOn with
  | nil => exact fun key row hrow => by cases hrow
  | append_singleton calls call ih =>
    rw [run, List.foldl_concat]
    exact drainInv_after ih call

/-! ## Coordinators -/

/-- The clock's reading that a call took. -/
def Call.clock? : Call → Option Nat
  | beginDrain _ _ _ _ nanos => some nanos
  | _ => none

/-- The grants of a history, newest first. -/
def grants (history : List DrainEvent) : List Grant := history.filterMap DrainEvent.anyGrant

/-- The clock's reading stands at the end of a grant's text. -/
theorem nanos_of_text {grant grant' : Grant} (h : grant.text = grant'.text) :
    grant.nanos = grant'.nanos := by
  have htext : ∀ g : Grant, g.text =
      s!"drain-token:{g.lease}:{g.leaseExpiresAt}:{g.generation}" ++ ":" ++ toString g.nanos :=
    fun _ => rfl
  rw [htext, htext] at h
  exact Text.toString_after_colon h

/-- A call that grants has read the clock. -/
theorem nanos_of_call (s : ClaimStore) (call : Call) (row' : AuthorityRow) :
    ((grants (drainEvent s call row').toList).map Grant.nanos).Sublist call.clock?.toList := by
  cases call <;> simp [drainEvent, grants, anyGrant, Call.clock?]

/-- Grants read the clock one after the other. -/
theorem nanos_sublist (t : Traced) (calls : List Call) :
    ((grants (t.run sys calls).history).map Grant.nanos).reverse.Sublist
      (((grants t.history).map Grant.nanos).reverse ++ calls.filterMap Call.clock?) := by
  induction calls using List.reverseRecOn with
  | nil => exact List.sublist_append_left _ _
  | append_singleton calls call ih =>
    rw [run, List.foldl_concat, List.filterMap_append, ← List.append_assoc]
    rw [after]
    split
    · exact ih.trans (List.sublist_append_left _ _)
    · rename_i row' _
      rw [grants, List.filterMap_append, List.map_append, List.reverse_append]
      refine ih.append ?_
      have hcall := (nanos_of_call (t.run sys calls).store call row').reverse
      cases hclock : call.clock? with
      | none =>
        rw [hclock] at hcall
        exact hcall.trans (List.nil_sublist _)
      | some nanos =>
        rw [hclock] at hcall
        rw [List.filterMap_cons_some hclock]
        exact hcall

/-- **Tokens differ**: the grants of a run have different tokens, if the clock never reads the
same twice and the digest does not collide on their texts. -/
theorem tokens_nodup (routes : String → Option (String × String)) (calls : List Call)
    (hclock : (calls.filterMap Call.clock?).Nodup)
    (hdigest : ∀ g ∈ grants ((fresh routes).run sys calls).history,
      ∀ g' ∈ grants ((fresh routes).run sys calls).history,
        sys.sha256Hex g.text = sys.sha256Hex g'.text → g.text = g'.text) :
    ((grants ((fresh routes).run sys calls).history).map (Grant.token sys.toPlatform)).Nodup := by
  have hnanos : ((grants ((fresh routes).run sys calls).history).map Grant.nanos).Nodup :=
    List.nodup_reverse.mp (hclock.sublist (nanos_sublist (fresh routes) calls))
  refine (List.Nodup.of_map _ hnanos).map_on fun g hg g' hg' htoken => ?_
  exact List.inj_on_of_nodup_map hnanos hg hg' (nanos_of_text (hdigest g hg g' hg' htoken))

/-- The last grant is of the newest events. -/
theorem lastGrant_append {newer older : List DrainEvent} :
    lastGrant key (newer ++ older) = (lastGrant key newer).or (lastGrant key older) := by
  rw [lastGrant, List.findSome?_append]
  rfl

theorem mem_grants_of_lastGrant {grant : Grant} (h : lastGrant key history = some grant) :
    grant ∈ grants history := by
  obtain ⟨e, he, hgrant⟩ := List.exists_of_findSome?_eq_some h
  refine List.mem_filterMap.mpr ⟨e, he, ?_⟩
  cases e with
  | granted k started g =>
    rw [grantOf] at hgrant
    split at hgrant
    · exact hgrant
    · cases hgrant
  | journaled => cases hgrant
  | finished => cases hgrant

theorem lastGrant_eq_none :
    lastGrant key history = none ↔ ∀ e ∈ history, e.captures key = false := by
  rw [lastGrant, List.findSome?_eq_none_iff]
  refine forall₂_congr fun e _ => ?_
  cases e <;> simp [grantOf, captures]

/-- The calls of a coordinator with its token, at a time. -/
inductive Coordinates (key : AuthorityKey) (token : String) (nowMs : Int) : Call → Prop
  | step (g : Nat) (step : DrainStep) (cursor : Option Int) :
      Coordinates key token nowMs (.drainStep key g step cursor token nowMs)
  | finish (g : Nat) (expected actual : String) (verified : Bool) :
      Coordinates key token nowMs (.finishDrain key g expected actual verified token nowMs)

/-- A coordinator that goes through holds the last grant. -/
theorem lastGrant_of_coordinates (hinv : DrainInv sys t) {token : String} {nowMs : Int}
    (hcall : Coordinates key token nowMs call)
    (h : (call.perform sys t.store).1.row? = some row') :
    ∃ grant, lastGrant key t.history = some grant ∧
      token = grant.token sys.toPlatform ∧ nowMs < grant.leaseExpiresAt := by
  obtain ⟨k, row, ht, -⟩ := transits_of_reply h
  have hrow : k = key ∧ t.store.row key = some row ∧ row.coordinatorToken = some token ∧
      nowMs < row.leaseExpiresAt.getD 0 := by
    cases hcall with
    | step =>
      cases ht with
      | drainStep hs hrow =>
        obtain ⟨-, htoken, hlease, -⟩ := drainStep_eq_ok hrow
        exact ⟨rfl, hs, htoken, hlease⟩
    | finish =>
      cases ht with
      | finishDrain hs hrow =>
        obtain ⟨-, htoken, hlease, -⟩ := finishDrain_eq_ok hrow
        exact ⟨rfl, hs, htoken, hlease⟩
  obtain ⟨rfl, hs, htoken, hlease⟩ := hrow
  obtain ⟨grant, hlast, htoken', hexpires⟩ := (hinv k row hs).coordinator token htoken
  rw [hexpires] at hlease
  exact ⟨grant, hlast, htoken', hlease⟩

/-- **A coordinator is refused** once another has taken its place, or its lease has expired. -/
theorem refused_of_superseded (hinv : DrainInv sys t)
    (htokens : ((grants t.history).map (Grant.token sys.toPlatform)).Nodup)
    {newer older : List DrainEvent} {started : Bool} {grant : Grant}
    (hhistory : t.history = newer ++ .granted key started grant :: older) {nowMs : Int}
    (hover : (∃ e ∈ newer, e.captures key = true) ∨ grant.leaseExpiresAt ≤ nowMs)
    (hcall : Coordinates key (grant.token sys.toPlatform) nowMs call) :
    (call.perform sys t.store).1.row? = none := by
  rcases h : (call.perform sys t.store).1.row? with _ | row'
  · rfl
  obtain ⟨grant', hlast, htoken, hlease⟩ := lastGrant_of_coordinates hinv hcall h
  rw [hhistory, lastGrant_append] at hlast
  rcases hnewer : lastGrant key newer with _ | g
  · rw [hnewer, Option.none_or, lastGrant, List.findSome?_cons, grantOf, if_pos rfl] at hlast
    cases hlast
    rcases hover with ⟨e, he, hcaptures⟩ | hexpired
    · rw [lastGrant_eq_none.mp hnewer e he] at hcaptures
      cases hcaptures
    · exact absurd hlease (not_lt.mpr hexpired)
  · rw [hnewer, Option.some_or] at hlast
    cases hlast
    rw [hhistory, grants, List.filterMap_append, List.map_append, List.nodup_append] at htokens
    exact absurd htoken.symm (htokens.2.2 _ (List.mem_map_of_mem (mem_grants_of_lastGrant hnewer))
      _ (List.mem_map_of_mem (List.mem_cons_self ..)))

/-! ## The finish -/

/-- What has happened when a drain finishes. -/
theorem finished_of_journal (hinv : DrainInv sys t)
    {g : Nat} {expected actual : String} {verified : Bool} {token : String} {nowMs : Int}
    (h : ((Call.finishDrain key g expected actual verified token nowMs).perform sys
      t.store).1.row? = some row') : (∀ step, step ≠ .flip →
        .journaled key step ∈ since (starts key) t.history) ∧
      ∃ row, t.store.row key = some row ∧
        row.capturedUpperBound = some (t.store.feedHead key.domain) := by
  obtain ⟨k, row, ht, -⟩ := transits_of_reply h
  cases ht with
  | finishDrain hs hrow =>
    obtain ⟨hstate, -, -, hsteps, hhead, -⟩ := finishDrain_eq_ok hrow
    have hrowInv := hinv key row hs
    refine ⟨fun step hstep => hrowInv.journaled step hstep (DrainSteps.get_of_allSteps hsteps hstep),
      row, hs, ?_⟩
    obtain ⟨bound, hbound⟩ := Option.ne_none_iff_exists'.mp (hrowInv.bound hstate)
    rw [hhead, hbound]
    rfl

/-- **A call** changes the state of a row with one step of its generation, or neither. -/
theorem moves_after (s : ClaimStore) (call : Call) (key : AuthorityKey) :
    Moves ((s.row key).getD {}) (((s.after sys call).row key).getD {}) := by
  have hsame : (s.after sys call).row key = s.row key →
      Moves ((s.row key).getD {}) (((s.after sys call).row key).getD {}) :=
    fun h => Or.inl ⟨by rw [h], by rw [h]⟩
  rcases hreply : (call.perform sys s).1.row? with _ | row'
  · refine hsame ?_
    by_cases hcall : call.onAuthority = true
    · rw [after_of_failed hcall hreply]
    · rw [ClaimStore.row, authority_of_other (Bool.eq_false_iff.mpr hcall)]
      rfl
  · obtain ⟨k, row, ht, htransited⟩ := transits_of_reply hreply
    by_cases hk : k = key
    · subst hk
      rw [htransited.row k, if_pos rfl, ht.row_eq]
      cases ht with
      | beginPrepare _ hrow => exact (beginPrepare_eq_ok hrow).2
      | verifyPrepare _ hrow => exact (verifyPrepare_eq_ok hrow).2.2
      | ackPrepare _ hrow => exact (ackPrepare_eq_ok hrow).2.2
      | finishPrepare _ hrow => exact (finishPrepare_eq_ok hrow).2.2
      | abortPrepare _ hrow => exact (finishPrepare_eq_ok hrow).2.2
      | beginDrain _ hrow => exact beginDrain_moves hrow
      | drainStep _ hrow => exact drainStep_moves hrow
      | finishDrain _ hrow =>
        obtain ⟨-, -, -, -, -, -, -, hmoves⟩ := finishDrain_eq_ok hrow
        exact hmoves
    · exact hsame (by rw [htransited.row key, if_neg hk])

/-- **What a drain hands over.**  Along every run, states and generations move together.  A drain
finishes only when each of its required steps was journaled since it began, with its bound at the
head of the feed.  And as long as the clock does not read the same twice and the digest does not
collide on what it read, a coordinator is refused once another took its place or its lease is
over. -/
theorem authorityFinishDrain_handsOver (sys : MirrorPlatform)
    (routes : String → Option (String × String)) (calls : List Call) :
    let t := (Traced.fresh routes).run sys calls
    (∀ call key, AuthorityRow.Moves ((t.store.row key).getD {})
      (((t.after sys call).store.row key).getD {})) ∧
    (∀ key g expected actual verified token nowMs row',
      ((Call.finishDrain key g expected actual verified token nowMs).perform sys
        t.store).1.row? = some row' →
      (∀ step, step ≠ .flip → .journaled key step ∈ since (DrainEvent.starts key) t.history) ∧
        ∃ row, t.store.row key = some row ∧
          row.capturedUpperBound = some (t.store.feedHead key.domain)) ∧
    ((calls.filterMap Call.clock?).Nodup →
      (∀ g ∈ grants t.history, ∀ g' ∈ grants t.history,
        sys.sha256Hex g.text = sys.sha256Hex g'.text → g.text = g'.text) →
      ∀ newer older key started grant nowMs call,
        t.history = newer ++ .granted key started grant :: older →
        (∃ e ∈ newer, e.captures key = true) ∨ grant.leaseExpiresAt ≤ nowMs →
        Coordinates key (grant.token sys.toPlatform) nowMs call →
        (call.perform sys t.store).1.row? = none) := by
  intro t
  have hinv : DrainInv sys t := drainInv_run routes calls
  refine ⟨fun call key => moves_after t.store call key,
    fun key g expected actual verified token nowMs row' h => finished_of_journal hinv h, ?_⟩
  intro hclock hdigest newer older key started grant nowMs call hhistory hover hcall
  exact refused_of_superseded hinv (tokens_nodup routes calls hclock hdigest) hhistory hover hcall

/-! ### A resumed drain -/

/-- A drain that is begun, journaled and then resumed by the same coordinator. -/
def resumedDrain : List Call :=
  let key := sampleKey .memories
  let token := mintCoordinatorToken plainPlatform.toPlatform "lease" 100 3 1
  [.beginPrepare key, .finishPrepare key 1 "hash" "hash" true, .beginDrain key "lease" 100 0 1,
    .drainStep key 3 .seed none token 10, .drainStep key 3 .memories none token 10,
    .drainStep key 3 .notes none token 10, .drainStep key 3 .compartments none token 10,
    .drainStep key 3 .reconcile none token 10, .drainStep key 3 .verify none token 10,
    .beginDrain key "lease" 200 20 2]

/-- The finish of the resumed drain. -/
def finishResumed : Call :=
  .finishDrain (sampleKey .memories) 3 "hash" "hash" true
    (mintCoordinatorToken plainPlatform.toPlatform "lease" 200 3 2) 30

/-- The resumed drain finishes on the steps that were journaled since it began, and its first token is
refused. -/
theorem resumedDrain_refused :
    let t := (Traced.fresh fun _ => none).run plainPlatform resumedDrain
    (∀ step, step ≠ .flip → .journaled (sampleKey .memories) step ∈
      since (DrainEvent.starts (sampleKey .memories)) t.history) ∧
    ((Call.drainStep (sampleKey .memories) 3 .seed none
      (mintCoordinatorToken plainPlatform.toPlatform "lease" 100 3 1) 30).perform plainPlatform
        t.store).1.row? = none := by
  intro t
  obtain ⟨-, hfinished, hrefused⟩ :=
    authorityFinishDrain_handsOver plainPlatform (fun _ => none) resumedDrain
  have hfinishes : (finishResumed.perform plainPlatform t.store).1.row?.isSome = true := by
    decide +kernel
  obtain ⟨row', hrow'⟩ := Option.isSome_iff_exists.mp hfinishes
  refine ⟨(hfinished _ _ _ _ _ _ _ row' hrow').1, ?_⟩
  have hhistory : t.history =
      [.granted (sampleKey .memories) false ⟨"lease", 200, 3, 2⟩,
        .journaled (sampleKey .memories) .verify, .journaled (sampleKey .memories) .reconcile,
        .journaled (sampleKey .memories) .compartments, .journaled (sampleKey .memories) .notes,
        .journaled (sampleKey .memories) .memories, .journaled (sampleKey .memories) .seed] ++
      .granted (sampleKey .memories) true ⟨"lease", 100, 3, 1⟩ :: [] := by decide +kernel
  exact hrefused (by decide) (fun g _ g' _ h => h) _ [] _ true ⟨"lease", 100, 3, 1⟩ 30 _ hhistory
    (Or.inl ⟨_, List.mem_cons_self .., by decide +kernel⟩) (.step 3 .seed none)

/-- **A resumed drain keeps its journal**: it finishes, and no step was journaled since its bound
was captured. -/
theorem resumedDrain_finishes :
    (finishResumed.perform plainPlatform
        ((Traced.fresh fun _ => none).run plainPlatform resumedDrain).store).1.row?.isSome = true ∧
      ∀ step, .journaled (sampleKey .memories) step ∉
        since (DrainEvent.captures (sampleKey .memories))
          ((Traced.fresh fun _ => none).run plainPlatform resumedDrain).history := by
  refine ⟨by decide +kernel, fun step => ?_⟩
  have hsince : since (DrainEvent.captures (sampleKey .memories))
      ((Traced.fresh fun _ => none).run plainPlatform resumedDrain).history = [] := by
    decide +kernel
  rw [hsince]
  exact List.not_mem_nil

end MagicContext.Claims
