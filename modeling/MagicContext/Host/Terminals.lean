import MagicContext.Host.Dispatch

/-!
# One terminal for each correlation

The settlement of a request is decided under its order lock: whoever has the lock emits, and once
`won` is set no stream item is emitted any more.  `streamed` is stored after the queue has taken the
item, but before the lock is given back, so that a unary response under the lock never misses it.
A correlation that is answered without dispatch has no sink and no settlement.

## What is here

* `OneTerminal` — what holds of the writer's queue, and of every request that is settled.
* `Request.Fits`, `Reply.Fits` — what carries it, for one correlation.
* `one_terminal` — it holds after every run.
* `Sample.settled_without_terminal` — a shutdown that is out of time aborts a task between its
  settlement and its terminal.
-/

namespace MagicContext.Host
namespace Dispatch

open State

/-! ## What holds -/

def State.Terminated (s : State) (corr : Nat) : Prop :=
  ∃ f ∈ s.queue, f.corr = corr ∧ f.ty.isTerminal = true

def State.Streamed (s : State) (corr : Nat) : Prop :=
  ∃ f ∈ s.queue, f.corr = corr ∧ f.ty = .streamData

/-- The task of a request is in `settle`, and has won. -/
def Outer.emits : Outer → Bool
  | emitting _ _ => true
  | _ => false

structure OneTerminal (s : State) : Prop where
  once : ∀ corr, (s.queue.filter fun f => f.corr == corr && f.ty.isTerminal).length ≤ 1
  last : s.queue.Pairwise fun earlier later => earlier.corr = later.corr →
    earlier.ty.isTerminal = true → later.ty ≠ .streamData
  unary : s.queue.Pairwise fun earlier later => earlier.corr = later.corr →
    earlier.ty = .streamData → later.ty ≠ .response
  settled : ∀ corr r, s.requests corr = some r → r.settlement.won = true →
    r.outer.emits = true ∨ s.Terminated corr ∨ r.aborted ≠ none ∨ s.cancelled = true

/-! ## One correlation -/

/-- What holds of a request, by what its correlation has in the queue. -/
structure Request.Fits (r : Request) (answered ended sent gone : Prop) : Prop where
  replied : answered → r.start = some false
  unstarted : r.start ≠ some true → r.served = false ∧ r.settlement.won = false ∧
    (r.outer = .waiting ∨ r.outer = .finished)
  unserved : r.served = false → r.settlement.streamed = false ∧ ∀ call, r.sends call = .idle
  holdsSettle : r.settlement.order = some .settle ↔ r.outer.emits = true
  holdsSend : ∀ call, r.settlement.order = some (.send call) ↔
    r.sends call = .admitting ∨ r.sends call = .accepted
  won : r.settlement.won = true → ∀ call, r.settlement.order ≠ some (.send call)
  undecided : r.outer.emits = false → r.outer ≠ .finished → r.settlement.won = false
  emits : ∀ ty e, r.outer = .emitting ty e → r.settlement.won = true ∧ ty.isTerminal = true ∧
    (ty = .response → ¬ sent)
  streamed : sent → r.settlement.streamed = true ∨ ∃ call, r.sends call = .accepted
  terminated : ended → r.start = some false ∨ (r.settlement.won = true ∧ r.outer = .finished)
  settled : r.settlement.won = true → r.outer.emits = true ∨ ended ∨ r.aborted ≠ none ∨ gone

/-- What holds of a reply. -/
structure Reply.Fits (p : Reply) (ended : Prop) : Prop where
  silent : p.stage ≠ .finished → ¬ ended
  emits : ∀ ty e, p.stage = .emitting ty e → ty.isTerminal = true

structure State.At (s : State) (corr : Nat) : Prop where
  request : ∀ r, s.requests corr = some r →
    r.Fits (s.replies corr ≠ none) (s.Terminated corr) (s.Streamed corr) (s.cancelled = true)
  reply : ∀ p, s.replies corr = some p → p.Fits (s.Terminated corr)
  streams : s.Streamed corr → s.requests corr ≠ none
  terminates : s.Terminated corr → s.requests corr ≠ none ∨ s.replies corr ≠ none
  fresh : s.watermark < corr → s.requests corr = none ∧ s.replies corr = none

structure State.Good (s : State) : Prop where
  at_ : ∀ corr, s.At corr
  registering : ∀ corr r, s.reader = .registering corr → s.requests corr = some r → r.start = none
  once : ∀ corr, (s.queue.filter fun f => f.corr == corr && f.ty.isTerminal).length ≤ 1
  last : s.queue.Pairwise fun earlier later => earlier.corr = later.corr →
    earlier.ty.isTerminal = true → later.ty ≠ .streamData
  unary : s.queue.Pairwise fun earlier later => earlier.corr = later.corr →
    earlier.ty = .streamData → later.ty ≠ .response

variable {s s' : State} {corr : Nat} {r : Request}

theorem State.Good.oneTerminal (h : s.Good) : OneTerminal s :=
  ⟨h.once, h.last, h.unary, fun corr r hr => ((h.at_ corr).request r hr).settled⟩

/-- A step that changes one correlation, and may put a frame of it in the queue. -/
structure Touches (s s' : State) (corr : Nat) (frame : Option Frame) : Prop where
  requests : ∀ c, c ≠ corr → s'.requests c = s.requests c
  replies : ∀ c, c ≠ corr → s'.replies c = s.replies c
  cancelled : s.cancelled = true → s'.cancelled = true
  watermark : s.watermark ≤ s'.watermark
  queue : s'.queue = s.queue ++ frame.toList
  about : ∀ f ∈ frame, f.corr = corr

/-- The frame may be put in the queue. -/
structure Allowed (s : State) (frame : Option Frame) : Prop where
  terminal : ∀ f ∈ frame, f.ty.isTerminal = true → ¬ s.Terminated f.corr
  data : ∀ f ∈ frame, f.ty = .streamData → ¬ s.Terminated f.corr
  response : ∀ f ∈ frame, f.ty = .response → ¬ s.Streamed f.corr

variable {frame : Option Frame} {ty : FrameType} {e : Emission} {call : Nat}

section
variable (h : s'.queue = s.queue ++ frame.toList)
include h

theorem mem_queue {f : Frame} : f ∈ s'.queue ↔ f ∈ s.queue ∨ f ∈ frame := by
  rw [h, List.mem_append, Option.mem_toList]
  rfl

theorem exists_queue {p : Frame → Prop} :
    (∃ f ∈ s'.queue, p f) ↔ (∃ f ∈ s.queue, p f) ∨ ∃ f ∈ frame, p f := by
  simp only [mem_queue h, or_and_right, exists_or]

theorem terminated_iff : s'.Terminated corr ↔
      s.Terminated corr ∨ ∃ f ∈ frame, f.corr = corr ∧ f.ty.isTerminal = true :=
  exists_queue h

theorem streamed_iff :
    s'.Streamed corr ↔ s.Streamed corr ∨ ∃ f ∈ frame, f.corr = corr ∧ f.ty = .streamData :=
  exists_queue h

end

theorem Request.Fits.congr {answered ended sent gone answered' ended' sent' gone' : Prop}
    (h : r.Fits answered ended sent gone) (hreplied : answered' ↔ answered)
    (hterminated : ended' ↔ ended) (hstreamed : sent' ↔ sent) (hcancelled : gone → gone') :
    r.Fits answered' ended' sent' gone' :=
  ⟨fun hp => h.replied (hreplied.mp hp), h.unstarted, h.unserved, h.holdsSettle, h.holdsSend, h.won,
    h.undecided, fun ty e he => ⟨(h.emits ty e he).1, (h.emits ty e he).2.1,
      fun hty hs => (h.emits ty e he).2.2 hty (hstreamed.mp hs)⟩,
    fun hs => h.streamed (hstreamed.mp hs), fun ht => h.terminated (hterminated.mp ht),
    fun hwon => (h.settled hwon).imp id (Or.imp hterminated.mpr (Or.imp id hcancelled))⟩

/-- Nothing about the other correlations changes. -/
theorem State.At.other (h : s.At corr) {c : Nat} (ht : Touches s s' c frame) (hne : corr ≠ c) :
    s'.At corr := by
  have hnot : ∀ P : Frame → Prop, ¬ ∃ f ∈ frame, f.corr = corr ∧ P f := by
    rintro P ⟨f, hf, hcorr, -⟩
    exact hne (hcorr.symm.trans (ht.about f hf))
  have hterm : s'.Terminated corr ↔ s.Terminated corr :=
    (terminated_iff ht.queue).trans (or_iff_left (hnot _))
  have hdata : s'.Streamed corr ↔ s.Streamed corr :=
    (streamed_iff ht.queue).trans (or_iff_left (hnot _))
  refine ⟨fun r hr => ?_, fun p hp => ?_, fun hs => ?_, fun htm => ?_, fun hlt => ?_⟩
  · rw [ht.requests corr hne] at hr
    rw [ht.replies corr hne]
    exact (h.request r hr).congr Iff.rfl hterm hdata ht.cancelled
  · rw [ht.replies corr hne] at hp
    exact ⟨fun hstage hterm' => (h.reply p hp).silent hstage (hterm.mp hterm'),
      (h.reply p hp).emits⟩
  · rw [ht.requests corr hne]
    exact h.streams (hdata.mp hs)
  · rw [ht.requests corr hne, ht.replies corr hne]
    exact h.terminates (hterm.mp htm)
  · rw [ht.requests corr hne, ht.replies corr hne]
    exact h.fresh (Nat.lt_of_le_of_lt ht.watermark hlt)

theorem State.Good.touch (h : s.Good) (ht : Touches s s' corr frame) (hallowed : Allowed s frame)
    (hat : s'.At corr)
    (hregistering : ∀ c r, s'.reader = .registering c → s'.requests c = some r → r.start = none) :
    s'.Good where
  at_ := by
    intro c
    by_cases hc : c = corr
    · exact hc ▸ hat
    · exact (h.at_ c).other ht hc
  registering := hregistering
  once := by
    intro c
    rw [ht.queue, List.filter_append, List.length_append]
    cases frame with
    | none => exact h.once c
    | some f =>
      by_cases hf : (f.corr == c && f.ty.isTerminal) = true
      · have hnone : s.queue.filter (fun g => g.corr == c && g.ty.isTerminal) = [] := by
          refine List.filter_eq_nil_iff.mpr fun g hg hgc => ?_
          simp only [Bool.and_eq_true, beq_iff_eq] at hf hgc
          exact hallowed.terminal f rfl hf.2 ⟨g, hg, hgc.1.trans hf.1.symm, hgc.2⟩
        rw [hnone, List.length_nil, Nat.zero_add]
        exact List.length_filter_le _ [f]
      · have hnone : [f].filter (fun g => g.corr == c && g.ty.isTerminal) = [] :=
          List.filter_cons_of_neg hf
        rw [Option.toList_some, hnone]
        exact h.once c
  last := by
    rw [ht.queue, List.pairwise_append]
    refine ⟨h.last, ?_, fun g hg f hf hcorr hterm hdata => ?_⟩
    · cases frame with
      | none => exact List.Pairwise.nil
      | some f => exact List.pairwise_singleton ..
    · exact hallowed.data f (Option.mem_toList.mp hf) hdata ⟨g, hg, hcorr, hterm⟩
  unary := by
    rw [ht.queue, List.pairwise_append]
    refine ⟨h.unary, ?_, fun g hg f hf hcorr hdata hresponse => ?_⟩
    · cases frame with
      | none => exact List.Pairwise.nil
      | some f => exact List.pairwise_singleton ..
    · exact hallowed.response f (Option.mem_toList.mp hf) hresponse ⟨g, hg, hcorr, hdata⟩

theorem allowed_none : Allowed s none := ⟨nofun, nofun, nofun⟩

/-! ## What the steps do to a request -/

namespace Request

variable {answered ended sent gone : Prop}

/-- A task that has started and not settled. -/
structure Undecided (r : Request) : Prop where
  started : r.start = some true
  emits : r.outer.emits = false
  finished : r.outer ≠ .finished

section
variable (h : r.Fits answered ended sent gone)
include h

theorem Fits.not_ended (hu : r.Undecided) : ¬ ended := by
  intro hended
  rcases h.terminated hended with hfalse | ⟨-, hover⟩
  · rw [hu.started] at hfalse
    cases hfalse
  · exact hu.finished hover

theorem Fits.not_won (hu : r.Undecided) :
    r.settlement.won = false := h.undecided hu.emits hu.finished

theorem Fits.order_ne (hemits : r.outer.emits = false) :
    r.settlement.order ≠ some .settle := fun horder => by
  rw [h.holdsSettle.mp horder] at hemits
  cases hemits

/-- Beyond the start signal, a task has been started. -/
theorem Fits.undecided_of (hemits : r.outer.emits = false)
    (hover : r.outer ≠ .finished) (hwaiting : r.outer ≠ .waiting) : r.Undecided := by
  refine ⟨?_, hemits, hover⟩
  by_contra hstart
  exact (h.unstarted hstart).2.2.elim hwaiting hover

/-- What says nothing about settlements may change. -/
theorem Fits.flags {route : RouteHandle} {cancel pending collected : Bool}
    {aborted : Option AbortCause} (haborted : r.aborted ≠ none → aborted ≠ none) :
    Fits { r with route, cancel, pending, collected, aborted } answered ended sent gone :=
  ⟨h.replied, h.unstarted, h.unserved, h.holdsSettle, h.holdsSend, h.won, h.undecided, h.emits,
    h.streamed, h.terminated, fun hwon => (h.settled hwon).imp id (Or.imp id (Or.imp haborted id))⟩

/-- The task goes on and has not come to settle. -/
theorem Fits.goOn {outer : Outer} {served : Bool} (hu : r.Undecided) (houter : outer.emits = false)
    (hserved : r.served = true → served = true) :
    Fits { r with outer, served } answered ended sent gone where
  replied := h.replied
  unstarted hstart := absurd hu.started hstart
  unserved hs := h.unserved (Bool.eq_false_iff.mpr fun ht => by
    rw [hserved ht] at hs
    cases hs)
  holdsSettle := ⟨fun horder => absurd horder (h.order_ne hu.emits), fun he => by
    rw [houter] at he
    cases he⟩
  holdsSend := h.holdsSend
  won := h.won
  undecided _ _ := h.not_won hu
  emits ty e he := by
    rw [show outer = .emitting ty e from he] at houter
    cases houter
  streamed := h.streamed
  terminated hended := absurd hended (h.not_ended hu)
  settled hwon := by
    rw [h.not_won hu] at hwon
    cases hwon

/-- The task gives up before it settles, or without a start. -/
theorem Fits.giveUp (hemits : r.outer.emits = false) :
    Fits { r with outer := .finished } answered ended sent gone where
  replied := h.replied
  unstarted hstart := ⟨(h.unstarted hstart).1, (h.unstarted hstart).2.1, .inr rfl⟩
  unserved := h.unserved
  holdsSettle := ⟨fun horder => absurd horder (h.order_ne hemits), nofun⟩
  holdsSend := h.holdsSend
  won := h.won
  undecided _ hover := absurd rfl hover
  emits := nofun
  streamed := h.streamed
  terminated hended := (h.terminated hended).imp id fun hsettled => ⟨hsettled.1, rfl⟩
  settled hwon := .inr ((h.settled hwon).resolve_left fun he => by
    rw [hemits] at he
    cases he)

/-- With the lock free, no call of `send` is on its way to the queue. -/
theorem Fits.not_sending (hfree : r.settlement.order = none)
    (call : Nat) : ¬ (r.sends call = .admitting ∨ r.sends call = .accepted) := by
  intro hsend
  rw [(h.holdsSend call).mpr hsend] at hfree
  cases hfree

end

theorem frameType_isTerminal (streamed : Bool) (t : Terminal) :
    (t.frameType streamed).isTerminal = true := by
  cases t with
  | response => cases streamed <;> rfl
  | error => rfl
  | streamEnd => rfl

section
variable (h : r.Fits answered ended sent gone)
include h

/-- The task wins the settlement, and emits. -/
theorem Fits.win (hu : r.Undecided)
    (hfree : r.settlement.order = none) (t : Terminal) (e : Emission) :
    Fits { r with
      settlement := { r.settlement with won := true, order := some .settle }
      outer := .emitting (t.frameType r.settlement.streamed) e } answered ended sent gone where
  replied := h.replied
  unstarted hstart := absurd hu.started hstart
  unserved := h.unserved
  holdsSettle := ⟨fun _ => rfl, fun _ => rfl⟩
  holdsSend call := ⟨nofun, fun hsend => absurd hsend (h.not_sending hfree call)⟩
  won _ _ := nofun
  undecided := nofun
  emits := by
    rintro ty e ⟨⟩
    refine ⟨rfl, frameType_isTerminal _ t, fun hty hsent => ?_⟩
    rcases h.streamed hsent with hstreamed | ⟨call, hcall⟩
    · rw [hstreamed] at hty
      cases t <;> cases hty
    · exact h.not_sending hfree call (.inr hcall)
  streamed := h.streamed
  terminated hended := absurd hended (h.not_ended hu)
  settled _ := .inl rfl

/-- The task wins the settlement, and finds its generation gone. -/
theorem Fits.win_gone {gone' : Prop} (hu : r.Undecided)
    (hfree : r.settlement.order = none) (hgone : gone') :
    Fits { r with
      settlement := { r.settlement with won := true, order := none }
      outer := .finished
      pending := false } answered ended sent gone' where
  replied := h.replied
  unstarted hstart := absurd hu.started hstart
  unserved := h.unserved
  holdsSettle := ⟨nofun, nofun⟩
  holdsSend call := ⟨nofun, fun hsend => absurd hsend (h.not_sending hfree call)⟩
  won _ _ := nofun
  undecided _ hover := absurd rfl hover
  emits := nofun
  streamed := h.streamed
  terminated hended := absurd hended (h.not_ended hu)
  settled _ := .inr (.inr (.inr hgone))

/-- A task that emits has the lock, and no call of `send` has it. -/
theorem Fits.emitting_order (houter : r.outer = .emitting ty e) :
    r.settlement.order = some .settle :=
  h.holdsSettle.mpr (by rw [houter]; rfl)

theorem Fits.started (houter : r.outer = .emitting ty e) : r.start = some true := by
  by_contra hstart
  have hstage := (h.unstarted hstart).2.2
  rw [houter] at hstage
  rcases hstage with hstage | hstage <;> cases hstage

theorem Fits.emitting_again (houter : r.outer = .emitting ty e) (e' : Emission) :
    Fits { r with outer := .emitting ty e' } answered ended sent gone where
  replied := h.replied
  unstarted hstart := absurd (h.started houter) hstart
  unserved := h.unserved
  holdsSettle := ⟨fun _ => rfl, fun _ => h.emitting_order houter⟩
  holdsSend := h.holdsSend
  won := h.won
  undecided := nofun
  emits := by
    rintro ty' e'' ⟨⟩
    exact h.emits ty e houter
  streamed := h.streamed
  terminated hended := (h.terminated hended).imp id fun hsettled => by
    rw [houter] at hsettled
    cases hsettled.2
  settled _ := .inl rfl

/-- A task that emits is done: its terminal is in the queue, or its generation is cancelled. -/
theorem Fits.done {ended' sent' gone' : Prop} (houter : r.outer = .emitting ty e)
    (hsent : sent' → sent) (hdone : ended' ∨ gone') :
    r.settled.Fits answered ended' sent' gone' := by
  have horder := h.emitting_order houter
  have hwon := (h.emits ty e houter).1
  have hstart := h.started houter
  refine ⟨h.replied, fun hs => absurd hstart hs, h.unserved, ⟨nofun, nofun⟩, fun call => ⟨nofun, ?_⟩,
    fun _ _ => nofun, fun _ hover => absurd rfl hover, nofun, fun hs => h.streamed (hsent hs),
    fun _ => .inr ⟨hwon, rfl⟩, fun _ => .inr (hdone.imp id .inr)⟩
  intro hsend
  rw [(h.holdsSend call).mpr hsend] at horder
  cases horder

/-- An aborted task is dropped. -/
theorem Fits.drop (haborted : r.aborted ≠ none) :
    Fits { r with
      outer := .finished
      settlement := { r.settlement with
        order := if r.settlement.order = some .settle then none else r.settlement.order } }
      answered ended sent gone where
  replied := h.replied
  unstarted hstart := ⟨(h.unstarted hstart).1, (h.unstarted hstart).2.1, .inr rfl⟩
  unserved := h.unserved
  holdsSettle := by
    refine ⟨fun horder => ?_, nofun⟩
    by_cases hs : r.settlement.order = some .settle
    · simp [hs] at horder
    · simp [hs] at horder
  holdsSend call := by
    refine Iff.trans ?_ (h.holdsSend call)
    by_cases hs : r.settlement.order = some .settle
    · simp [hs]
    · simp [hs]
  won hwon call := by
    by_cases hs : r.settlement.order = some .settle
    · simp [hs]
    · simpa [hs] using h.won hwon call
  undecided _ hover := absurd rfl hover
  emits := nofun
  streamed := h.streamed
  terminated hended := (h.terminated hended).imp id fun hsettled => ⟨hsettled.1, rfl⟩
  settled _ := .inr (.inr (.inl haborted))

/-! ### Calls of `send` -/

theorem Fits.served (hcall : r.sends call ≠ .idle) : r.served = true := by
  by_contra hserved
  exact hcall ((h.unserved (Bool.eq_false_iff.mpr hserved)).2 call)

theorem Fits.started_of_served (hserved : r.served = true) : r.start = some true := by
  by_contra hstart
  rw [(h.unstarted hstart).1] at hserved
  cases hserved

/-- A call that does not have the lock moves, and does not get it. -/
theorem Fits.setSend (hserved : r.served = true)
    {send : Send} (hold : r.sends call = .idle ∨ r.sends call = .locking)
    (hnew : send ≠ .admitting ∧ send ≠ .accepted) :
    (r.setSend call send).Fits answered ended sent gone := by
  have hnot : ¬ (r.sends call = .admitting ∨ r.sends call = .accepted) := by
    rcases hold with hold | hold <;> rw [hold] <;> simp
  refine ⟨h.replied, h.unstarted, fun hs => ?_, h.holdsSettle, fun c => ?_, h.won, h.undecided,
    h.emits, fun hs => (h.streamed hs).imp id ?_, h.terminated, h.settled⟩
  · rw [show (r.setSend call send).served = r.served from rfl, hserved] at hs
    cases hs
  · by_cases hc : c = call
    · subst hc
      refine ⟨fun horder => absurd ((h.holdsSend c).mp horder) hnot, fun hsend => ?_⟩
      rw [Request.setSend] at hsend
      simp only [Function.update_self] at hsend
      exact (hsend.elim hnew.1 hnew.2).elim
    · rw [Request.setSend]
      simp only [Function.update_of_ne hc]
      exact h.holdsSend c
  · rintro ⟨c, hc⟩
    refine ⟨c, ?_⟩
    have hne : c ≠ call := by
      rintro rfl
      exact hnot (.inr hc)
    rw [Request.setSend]
    simp only [Function.update_of_ne hne]
    exact hc

end

/-- The order lock after a call has ended. -/
theorem order_endSend {holder : Holder} (hne : holder ≠ .send call) :
    (r.endSend call).settlement.order = some holder ↔ r.settlement.order = some holder := by
  rw [Request.endSend]
  by_cases hs : r.settlement.order = some (.send call)
  · simp [hs, Ne.symm hne]
  · simp [hs]

theorem order_endSend_self : (r.endSend call).settlement.order ≠ some (.send call) := by
  rw [Request.endSend]
  by_cases hs : r.settlement.order = some (.send call)
  · simp [hs]
  · simp [hs]

section
variable (h : r.Fits answered ended sent gone)
include h

/-- A call ends, with its item in the queue and noted, or without an item. -/
theorem Fits.endSend (hserved : r.served = true)
    (hnoted : r.sends call ≠ .accepted ∨ r.settlement.streamed = true) :
    (r.endSend call).Fits answered ended sent gone where
  replied := h.replied
  unstarted hstart := absurd (h.started_of_served hserved) hstart
  unserved hs := by
    rw [show (r.endSend call).served = r.served from rfl, hserved] at hs
    cases hs
  holdsSettle := (@order_endSend r call .settle nofun).trans h.holdsSettle
  holdsSend c := by
    by_cases hc : c = call
    · subst hc
      refine ⟨fun horder => absurd horder order_endSend_self, fun hsend => ?_⟩
      rw [Request.endSend, Request.setSend] at hsend
      simp at hsend
    · refine (order_endSend fun heq => hc (Holder.send.inj heq)).trans ?_
      rw [Request.endSend, Request.setSend]
      simp only [Function.update_of_ne hc]
      exact h.holdsSend c
  won hwon c := by
    by_cases hc : c = call
    · exact hc ▸ order_endSend_self
    · rw [Ne, order_endSend fun heq => hc (Holder.send.inj heq)]
      exact h.won hwon c
  undecided := h.undecided
  emits := h.emits
  streamed hs := by
    rcases h.streamed hs with hstreamed | ⟨c, hc⟩
    · exact .inl hstreamed
    · by_cases hcc : c = call
      · subst hcc
        exact .inl (hnoted.resolve_left fun hne => hne hc)
      · refine .inr ⟨c, ?_⟩
        rw [Request.endSend, Request.setSend]
        simp only [Function.update_of_ne hcc]
        exact hc
  terminated := h.terminated
  settled := h.settled

/-- A call takes the lock. -/
theorem Fits.acquire (hserved : r.served = true)
    (hfree : r.settlement.order = none) (hwon : r.settlement.won = false) :
    Fits { r.setSend call .admitting with
      settlement := { r.settlement with order := some (.send call) } } answered ended sent gone where
  replied := h.replied
  unstarted hstart := absurd (h.started_of_served hserved) hstart
  unserved hs := by
    rw [show r.served = false from hs] at hserved
    cases hserved
  holdsSettle := by
    refine ⟨nofun, fun hemits => ?_⟩
    rw [h.holdsSettle.mpr hemits] at hfree
    cases hfree
  holdsSend c := by
    by_cases hc : c = call
    · subst hc
      simp [Request.setSend]
    · have hnot := h.not_sending hfree c
      simp only [Request.setSend, Function.update_of_ne hc]
      refine ⟨fun heq => ?_, fun hsend => absurd hsend hnot⟩
      cases heq
      exact absurd rfl hc
  won hw := by
    rw [show r.settlement.won = true from hw] at hwon
    cases hwon
  undecided := h.undecided
  emits := h.emits
  streamed hs := (h.streamed hs).imp id fun ⟨c, hc⟩ => absurd (.inr hc) (h.not_sending hfree c)
  terminated := h.terminated
  settled := h.settled

/-- The item of a call is in the queue. -/
theorem Fits.accept {sent' : Prop} (hcall : r.sends call = .admitting) :
    (r.setSend call .accepted).Fits answered ended sent' gone := by
  have horder := (h.holdsSend call).mpr (.inl hcall)
  have hserved : r.served = true := h.served (show r.sends call ≠ .idle by rw [hcall]; nofun)
  refine ⟨h.replied, h.unstarted, fun hs => ?_, h.holdsSettle, fun c => ?_, h.won, h.undecided,
    fun ty e houter => ?_, fun _ => .inr ⟨call, ?_⟩, h.terminated, h.settled⟩
  · rw [show r.served = false from hs] at hserved
    cases hserved
  · by_cases hc : c = call
    · subst hc
      simp [Request.setSend, horder]
    · rw [Request.setSend]
      simp only [Function.update_of_ne hc]
      exact h.holdsSend c
  · rw [h.emitting_order houter] at horder
    cases horder
  · simp [Request.setSend]

/-- `streamed` is stored. -/
theorem Fits.note (hserved : r.served = true) :
    Fits { r with settlement := { r.settlement with streamed := true } } answered ended sent gone :=
  ⟨h.replied, h.unstarted, fun hs => absurd (hserved.symm.trans hs) nofun, h.holdsSettle,
    h.holdsSend, h.won, h.undecided, h.emits, fun _ => .inl rfl, h.terminated, h.settled⟩

end

end Request

/-! ## Steps of a request -/

/-- What a step does beside the request and the reply that it is about. -/
structure Extends (s s' : State) (frame : Option Frame) : Prop where
  requests : s'.requests = s.requests
  replies : s'.replies = s.replies
  watermark : s'.watermark = s.watermark
  reader : s'.reader = s.reader
  cancelled : s.cancelled = true → s'.cancelled = true
  queue : s'.queue = s.queue ++ frame.toList

theorem Extends.refl (s : State) : Extends s s none :=
  ⟨rfl, rfl, rfl, rfl, id, (List.append_nil _).symm⟩

theorem Extends.cancelToken (h : Extends s s' frame) : Extends s s'.cancelToken frame :=
  ⟨h.requests, h.replies, h.watermark, h.reader, fun _ => rfl, h.queue⟩

theorem State.setRequest_self : (s.setRequest corr r).requests corr = some r := by
  simp [setRequest]

theorem State.setRequest_ne {c : Nat} (h : c ≠ corr) :
    (s.setRequest corr r).requests c = s.requests c := by
  simp [setRequest, Function.update_of_ne h]

theorem State.Good.request {s' : State} {r' : Request} (h : s.Good)
    (hr : s.requests corr = some r) (he : Extends s s' frame)
    (habout : ∀ f ∈ frame, f.corr = corr) (hallowed : Allowed s frame)
    (hstart : r'.start = r.start ∨ s.reader ≠ .registering corr)
    (hframe : frame ≠ none → r.start = some true)
    (hfits : r'.Fits (s.replies corr ≠ none) (s'.Terminated corr) (s'.Streamed corr)
      (s'.cancelled = true)) : (s'.setRequest corr r').Good := by
  have hat := h.at_ corr
  have hself : (s'.setRequest corr r').requests corr = some r' := setRequest_self
  have hother : ∀ c, c ≠ corr → (s'.setRequest corr r').requests c = s.requests c := fun c hc =>
    (setRequest_ne hc).trans (congrFun he.requests c)
  refine @Good.touch s _ corr frame h ⟨hother, fun c _ => congrFun he.replies c, he.cancelled,
    he.watermark.ge, he.queue, habout⟩ hallowed ⟨fun q hq => ?_, fun p hp => ?_, fun _ => ?_,
      fun _ => .inl ?_, fun hlt => ?_⟩ fun c q hreader hq => ?_
  · cases hself.symm.trans hq
    rw [show (s'.setRequest corr r').replies corr = s.replies corr from congrFun he.replies corr]
    exact hfits
  · have hreplied : s.replies corr = some p := (congrFun he.replies corr).symm.trans hp
    have hfalse := (hat.request r hr).replied (by rw [hreplied]; nofun)
    have hnone : frame = none := by
      by_contra hsome
      rw [hframe hsome] at hfalse
      cases hfalse
    have hiff : s'.Terminated corr ↔ s.Terminated corr :=
      (terminated_iff he.queue).trans (or_iff_left (by rw [hnone]; nofun))
    have hold := hat.reply p hreplied
    exact ⟨fun hstage hterm => hold.silent hstage (hiff.mp hterm), hold.emits⟩
  · rw [hself]
    nofun
  · rw [hself]
    nofun
  · have hlt' : s.watermark < corr := he.watermark ▸ hlt
    rw [(hat.fresh hlt').1] at hr
    cases hr
  · have hold : s.reader = .registering c := he.reader ▸ hreader
    by_cases hc : c = corr
    · subst hc
      cases hself.symm.trans hq
      exact (hstart.resolve_right fun hne => hne hold).trans (h.registering c r hold hr)
    · exact h.registering c q hold ((hother c hc).symm.trans hq)

/-- What an emission does, from one wait to the next. -/
theorem emit_cases {frame : Frame} {answer : Answer} {p : Progress}
    (h : s.emit frame e answer = (p, s')) :
    (∃ e', p = .waits e' ∧ s' = s) ∨ (p = .done true ∧ Extends s s' (some frame)) ∨
      (p = .done false ∧ Extends s s' none) := by
  cases e with
  | charging =>
    cases answer with
    | accepted =>
      cases h
      rw [begin]
      split
      · exact .inr (.inr ⟨rfl, Extends.refl s⟩)
      · exact .inl ⟨_, rfl, rfl⟩
    | refused =>
      cases h
      split
      · exact .inr (.inr ⟨rfl, Extends.refl s⟩)
      · exact .inl ⟨_, rfl, rfl⟩
    | expired =>
      cases h
      exact .inr (.inr ⟨rfl, (Extends.refl s).cancelToken⟩)
  | admitting =>
    cases answer with
    | accepted =>
      cases h
      exact .inr (.inl ⟨rfl, rfl, rfl, rfl, rfl, id, rfl⟩)
    | refused =>
      cases h
      exact .inr (.inr ⟨rfl, Extends.refl s⟩)
    | expired =>
      cases h
      have hcancel := (Extends.refl s).cancelToken
      exact .inr (.inr ⟨rfl, hcancel.requests, hcancel.replies, hcancel.watermark,
        hcancel.reader, hcancel.cancelled, hcancel.queue⟩)

theorem not_terminated_of {answered sent gone : Prop}
    (h : r.Fits answered (s.Terminated corr) sent gone) (houter : r.outer = .emitting ty e) :
    ¬ s.Terminated corr := by
  intro hended
  rcases h.terminated hended with hfalse | ⟨-, hover⟩
  · rw [h.started houter] at hfalse
    cases hfalse
  · rw [houter] at hover
    cases hover

/-- A step that puts nothing in the queue. -/
theorem State.Good.request_same {r' : Request} (h : s.Good) (hr : s.requests corr = some r)
    (hstart : r'.start = r.start)
    (hfits : r'.Fits (s.replies corr ≠ none) (s.Terminated corr) (s.Streamed corr)
      (s.cancelled = true)) : (s.setRequest corr r').Good :=
  h.request hr (Extends.refl s) nofun allowed_none (.inl hstart) (fun hne => absurd rfl hne) hfits

theorem Fits.extends {s' : State} {r' : Request} (he : Extends s s' none)
    (h : r'.Fits (s.replies corr ≠ none) (s.Terminated corr) (s.Streamed corr)
      (s.cancelled = true)) :
    r'.Fits (s.replies corr ≠ none) (s'.Terminated corr) (s'.Streamed corr) (s'.cancelled = true) :=
  h.congr Iff.rfl ((terminated_iff he.queue).trans (or_iff_left nofun))
    ((streamed_iff he.queue).trans (or_iff_left nofun)) he.cancelled

section
variable (h : s.Good)
include h

section
variable (hr : s.requests corr = some r)
include hr

theorem good_settle (hu : r.Undecided)
    (hfree : r.settlement.order = none) (t : Terminal) : (s.settle corr r t).Good := by
  have hfits := (h.at_ corr).request r hr
  rw [settle, if_neg (by rw [hfits.not_won hu]; nofun)]
  have hcancel := (Extends.refl s).cancelToken
  simp only [begin]
  split
  · rename_i e heq
    split at heq
    · cases heq
    · cases heq
      exact h.request_same hr rfl (hfits.win hu hfree t _)
  · refine h.request hr hcancel nofun allowed_none (.inl rfl) (fun hne => absurd rfl hne) ?_
    exact (Fits.extends hcancel hfits).win_gone hu hfree rfl

theorem good_driveOuter (joined : Option Joined)
    (answer : Answer) : (s.driveOuter corr r joined answer).Good := by
  have hfits := (h.at_ corr).request r hr
  cases houter : r.outer with
  | waiting =>
    have hemits : r.outer.emits = false := by
      rw [houter]
      rfl
    unfold driveOuter
    rw [houter]
    simp only
    split
    · exact h
    · exact h.request_same hr rfl ((hfits.giveUp hemits).flags id)
    · rename_i hstart
      have hu : r.Undecided := ⟨hstart, hemits, by rw [houter]; nofun⟩
      split
      · exact h.request_same hr rfl (hfits.goOn hu rfl id)
      · exact h.request_same hr rfl (hfits.goOn hu rfl fun _ => rfl)
  | running =>
    have hu : r.Undecided := hfits.undecided_of (by rw [houter]; rfl) (by rw [houter]; nofun)
      (by rw [houter]; nofun)
    unfold driveOuter
    rw [houter]
    cases joined with
    | none =>
      simp only
      split
      · exact h.request_same hr rfl (hfits.goOn hu rfl id)
      · exact h
    | some j =>
      simp only
      split
      · exact h.request_same hr rfl ((hfits.giveUp hu.emits).flags id)
      · exact h.request_same hr rfl (hfits.goOn hu rfl id)
  | stopping =>
    have hu : r.Undecided := hfits.undecided_of (by rw [houter]; rfl) (by rw [houter]; nofun)
      (by rw [houter]; nofun)
    unfold driveOuter
    rw [houter]
    exact h.request_same hr rfl (hfits.goOn hu rfl id)
  | locking t =>
    have hu : r.Undecided := hfits.undecided_of (by rw [houter]; rfl) (by rw [houter]; nofun)
      (by rw [houter]; nofun)
    unfold driveOuter
    rw [houter]
    simp only
    split
    · rename_i hfree
      exact good_settle h hr hu hfree t
    · exact h
  | emitting ty e =>
    unfold driveOuter
    rw [houter]
    obtain ⟨-, hterminal, hunary⟩ := hfits.emits ty e houter
    have hnot := not_terminated_of hfits houter
    simp only
    generalize hemit : s.emit ⟨ty, r.route, corr⟩ e answer = result
    obtain ⟨p, s'⟩ := result
    rcases emit_cases hemit with ⟨e', rfl, rfl⟩ | ⟨rfl, he⟩ | ⟨rfl, he⟩
    · exact h.request_same hr rfl (hfits.emitting_again houter e')
    · refine h.request hr he ?_ ⟨?_, ?_, ?_⟩ (.inl rfl) (fun _ => hfits.started houter) ?_
      · rintro f ⟨⟩
        rfl
      · rintro f ⟨⟩ -
        exact hnot
      · rintro f ⟨⟩ hdata
        rw [show ty = .streamData from hdata] at hterminal
        cases hterminal
      · rintro f ⟨⟩ hresponse
        exact hunary hresponse
      · refine hfits.done houter (fun hs => ?_) (.inl ?_)
        · refine ((streamed_iff he.queue).mp hs).resolve_right ?_
          rintro ⟨-, ⟨⟩, -, hdata⟩
          rw [show ty = .streamData from hdata] at hterminal
          cases hterminal
        · exact (terminated_iff he.queue).mpr (.inr ⟨_, rfl, rfl, hterminal⟩)
    · have hcancel := he.cancelToken
      refine h.request hr hcancel nofun allowed_none (.inl rfl) (fun hne => absurd rfl hne) ?_
      exact (Fits.extends hcancel hfits).done houter id (.inr rfl)
  | finished =>
    unfold driveOuter
    rw [houter]
    exact h

theorem good_dropOuter : (s.dropOuter corr r).Good := by
  rw [dropOuter]
  split
  · exact h
  · rename_i hdrop
    simp only [Bool.or_eq_true, not_or, Bool.not_eq_true, Option.isNone_eq_false_iff,
      Option.isSome_iff_ne_none] at hdrop
    exact h.request_same hr rfl (((h.at_ corr).request r hr).drop hdrop.1)

theorem good_send (call : Nat) : (s.send corr r call).Good := by
  rw [send]
  split
  · exact h
  · rename_i hcall
    simp only [Bool.or_eq_true, Bool.not_eq_true', bne_iff_ne, ne_eq, not_or, not_not,
      Bool.not_eq_false] at hcall
    refine h.request_same hr rfl (((h.at_ corr).request r hr).setSend hcall.1 (.inl hcall.2) ?_)
    split <;> exact ⟨nofun, nofun⟩

theorem good_driveSend (call : Nat)
    (cancelSeen : Bool) (answer : Answer) : (s.driveSend corr r call cancelSeen answer).Good := by
  have hfits := (h.at_ corr).request r hr
  have ends : r.sends call ≠ .idle → r.sends call ≠ .accepted →
      (s.setRequest corr (r.endSend call)).Good := fun hidle haccepted =>
    h.request_same hr rfl (hfits.endSend (hfits.served hidle) (.inl haccepted))
  rw [driveSend]
  cases hcall : r.sends call with
  | idle => exact h
  | locking =>
    have hserved := hfits.served (show r.sends call ≠ .idle by rw [hcall]; nofun)
    have hend := ends (by rw [hcall]; nofun) (by rw [hcall]; nofun)
    by_cases hfree : r.settlement.order = none
    · simp only [hfree, ne_eq, not_true_eq_false, if_false]
      split
      · exact hend
      · rename_i hopen
        simp only [Bool.or_eq_true, not_or, Bool.not_eq_true] at hopen
        split
        · exact h.request_same hr rfl (hfits.acquire hserved hfree hopen.1)
        · exact hend
    · simp only [ne_eq, hfree, not_false_eq_true, if_true]
      exact h
  | admitting =>
    have hserved := hfits.served (show r.sends call ≠ .idle by rw [hcall]; nofun)
    have horder := (hfits.holdsSend call).mpr (.inl hcall)
    simp only
    split
    · exact ends (by rw [hcall]; nofun) (by rw [hcall]; nofun)
    · generalize hemit : s.emit ⟨.streamData, r.route, corr⟩ .admitting answer = result
      obtain ⟨p, s'⟩ := result
      rcases emit_cases hemit with ⟨-, rfl, rfl⟩ | ⟨rfl, he⟩ | ⟨rfl, he⟩
      · exact h
      · -- the call has the lock, so that nothing is settled
        have hnot : ¬ s.Terminated corr := by
          intro hended
          rcases hfits.terminated hended with hfalse | ⟨hwon, -⟩
          · rw [hfits.started_of_served hserved] at hfalse
            cases hfalse
          · exact hfits.won hwon call horder
        refine h.request hr he ?_ ⟨?_, ?_, ?_⟩ (.inl rfl) (fun _ => hfits.started_of_served hserved) ?_
        · rintro f ⟨⟩
          rfl
        · rintro f ⟨⟩ -
          exact hnot
        · rintro f ⟨⟩ -
          exact hnot
        · rintro f ⟨⟩ hresponse
          cases hresponse
        · have hsame : s'.Terminated corr ↔ s.Terminated corr := by
            refine (terminated_iff he.queue).trans (or_iff_left ?_)
            rintro ⟨-, ⟨⟩, -, hterm⟩
            cases hterm
          exact (hfits.congr Iff.rfl hsame Iff.rfl he.cancelled).accept hcall
      · refine h.request hr he nofun allowed_none (.inl rfl) (fun hne => absurd rfl hne) ?_
        exact (Fits.extends he hfits).endSend hserved (.inl (by rw [hcall]; nofun))
  | accepted =>
    have hserved := hfits.served (show r.sends call ≠ .idle by rw [hcall]; nofun)
    exact h.request_same hr rfl ((hfits.note hserved).endSend hserved (.inr rfl))
  | finished => exact h

theorem good_dropSend (call : Nat) : (s.dropSend corr r call).Good := by
  have hfits := (h.at_ corr).request r hr
  rw [dropSend]
  split
  · rename_i hcall
    exact h.request_same hr rfl (hfits.endSend (hfits.served (by rw [hcall]; nofun))
      (.inl (by rw [hcall]; nofun)))
  · rename_i hcall
    exact h.request_same hr rfl (hfits.endSend (hfits.served (by rw [hcall]; nofun))
      (.inl (by rw [hcall]; nofun)))
  · exact h

end

/-! ## Steps of others -/

/-- Nothing changes for any correlation, apart from frames that are nobody's. -/
theorem State.Good.same (hrequests : s'.requests = s.requests)
    (hreplies : s'.replies = s.replies) (hwatermark : s.watermark ≤ s'.watermark)
    (hcancelled : s.cancelled = true → s'.cancelled = true)
    (hqueue : s'.queue = s.queue ++ frame.toList)
    (hframe : ∀ f ∈ frame, f.ty.isTerminal = false ∧ f.ty ≠ .streamData)
    (hreader : ∀ c, s'.reader = .registering c → s.reader = .registering c) : s'.Good := by
  have hterm : ∀ c, s'.Terminated c ↔ s.Terminated c := by
    refine fun c => (terminated_iff hqueue).trans (or_iff_left ?_)
    rintro ⟨f, hf, -, hterm⟩
    rw [(hframe f hf).1] at hterm
    cases hterm
  have hdata : ∀ c, s'.Streamed c ↔ s.Streamed c := by
    refine fun c => (streamed_iff hqueue).trans (or_iff_left ?_)
    rintro ⟨f, hf, -, hdata⟩
    exact (hframe f hf).2 hdata
  have hat : ∀ c, s'.At c := by
    intro c
    have hold := h.at_ c
    refine ⟨fun r hr => ?_, fun p hp => ?_, fun hs => ?_, fun ht => ?_, fun hlt => ?_⟩
    · rw [hrequests] at hr
      rw [hreplies]
      exact (hold.request r hr).congr Iff.rfl (hterm c) (hdata c) hcancelled
    · rw [hreplies] at hp
      exact ⟨fun hstage ht => (hold.reply p hp).silent hstage ((hterm c).mp ht),
        (hold.reply p hp).emits⟩
    · rw [hrequests]
      exact hold.streams ((hdata c).mp hs)
    · rw [hrequests, hreplies]
      exact hold.terminates ((hterm c).mp ht)
    · rw [hrequests, hreplies]
      exact hold.fresh (Nat.lt_of_le_of_lt hwatermark hlt)
  refine @Good.touch s s' ((frame.map Frame.corr).getD 0) frame h
    ⟨fun c _ => congrFun hrequests c, fun c _ => congrFun hreplies c, hcancelled, hwatermark, hqueue,
      ?_⟩ ⟨fun f hf hterm => ?_, fun f hf hdata => ?_, fun f hf hresponse => ?_⟩ (hat _) ?_
  · rintro f ⟨⟩
    rfl
  · rw [(hframe f hf).1] at hterm
    cases hterm
  · exact absurd hdata (hframe f hf).2
  · have hnot := (hframe f hf).1
    rw [hresponse] at hnot
    cases hnot
  · intro c r hc hr
    rw [hrequests] at hr
    exact h.registering c r (hreader c hc) hr

/-- A step that changes nothing that is mentioned. -/
theorem State.Good.aside (hrequests : s'.requests = s.requests)
    (hreplies : s'.replies = s.replies) (hwatermark : s'.watermark = s.watermark)
    (hcancelled : s.cancelled = true → s'.cancelled = true) (hqueue : s'.queue = s.queue)
    (hreader : ∀ c, s'.reader = .registering c → s.reader = .registering c) : s'.Good :=
  @Good.same s s' none h hrequests hreplies hwatermark.ge hcancelled
    (hqueue.trans (List.append_nil _).symm) nofun hreader

theorem State.Good.cancelToken : s.cancelToken.Good :=
  h.aside rfl rfl rfl (fun _ => rfl) rfl fun _ => id

theorem State.Good.exit : s.exit.Good := h.aside rfl rfl rfl id rfl nofun

theorem State.Good.hostStep (e : Host.Event) : (s.hostStep e).Good :=
  h.aside rfl rfl rfl id rfl fun _ => id

/-- Flags of requests change. -/
theorem State.Good.map {f : Nat → Request → Request} (hstart : ∀ c r, (f c r).start = r.start)
    (hfits : ∀ c r (answered ended sent gone : Prop), Request.Fits r answered ended sent gone →
      (f c r).Fits answered ended sent gone) : (s.mapRequests f).Good where
  at_ c := by
    have hold := h.at_ c
    refine ⟨fun r hr => ?_, hold.reply, fun hs => ?_, fun ht => ?_, fun hlt => ?_⟩
    · obtain ⟨q, hq, rfl⟩ := Option.map_eq_some_iff.mp hr
      exact hfits c q _ _ _ _ (hold.request q hq)
    · exact fun hnone => hold.streams hs (Option.map_eq_none_iff.mp hnone)
    · exact (hold.terminates ht).imp (fun hne hnone => hne (Option.map_eq_none_iff.mp hnone)) id
    · exact ⟨Option.map_eq_none_iff.mpr (hold.fresh hlt).1, (hold.fresh hlt).2⟩
  registering c r hreader hr := by
    obtain ⟨q, hq, rfl⟩ := Option.map_eq_some_iff.mp hr
    exact (hstart c q).trans (h.registering c q hreader hq)
  once := h.once
  last := h.last
  unary := h.unary

end

/-! ### Replies -/

/-- A terminal of a reply concerns no settlement. -/
theorem Request.Fits.answer {answered answered' ended ended' sent gone gone' : Prop}
    (h : r.Fits answered ended sent gone) (hstart : r.start = some false)
    (hended : ended → ended') (hgone : gone → gone') : r.Fits answered' ended' sent gone' :=
  ⟨fun _ => hstart, h.unstarted, h.unserved, h.holdsSettle, h.holdsSend, h.won, h.undecided, h.emits,
    h.streamed, fun _ => .inl hstart,
    fun hwon => (h.settled hwon).imp id (Or.imp hended (Or.imp id hgone))⟩

variable {p : Reply}

/-- A reply appears or changes; its correlation has no request that was started. -/
theorem State.Good.reply (h : s.Good) (he : Extends s s' frame)
    (habout : ∀ f ∈ frame, f.corr = corr) (hallowed : Allowed s frame)
    (hdata : ∀ f ∈ frame, f.ty ≠ .streamData)
    (hrequest : ∀ r, s.requests corr = some r → r.start = some false)
    (hknown : corr ≤ s.watermark) (hfits : p.Fits (s'.Terminated corr)) :
    (s'.setReply corr p).Good := by
  have hat := h.at_ corr
  have hself : (s'.setReply corr p).replies corr = some p := by
    simp [setReply]
  have hsent : s'.Streamed corr ↔ s.Streamed corr := by
    refine (streamed_iff he.queue).trans (or_iff_left ?_)
    rintro ⟨f, hf, -, hd⟩
    exact hdata f hf hd
  refine @Good.touch s _ corr frame h ⟨fun c _ => congrFun he.requests c, fun c hc => ?_, he.cancelled,
    he.watermark.ge, he.queue, habout⟩ hallowed ⟨fun r hr => ?_, fun q hq => ?_, fun hs => ?_,
      fun _ => .inr ?_, fun hlt => ?_⟩ fun c r hreader hr => ?_
  · simp [setReply, Function.update_of_ne hc, he.replies]
  · have hold : s.requests corr = some r := (congrFun he.requests corr).symm.trans hr
    refine ((hat.request r hold).answer (hrequest r hold) ?_ he.cancelled).congr Iff.rfl Iff.rfl hsent id
    exact fun ht => (terminated_iff he.queue).mpr (.inl ht)
  · cases hself.symm.trans hq
    exact hfits
  · intro hnone
    exact hat.streams (hsent.mp hs) ((congrFun he.requests corr).symm.trans hnone)
  · rw [hself]
    nofun
  · have hlt' : s.watermark < corr := he.watermark ▸ hlt
    omega
  · have hold : s.requests c = some r := (congrFun he.requests c).symm.trans hr
    exact h.registering c r (he.reader ▸ hreader) hold

/-- What was not started has sent nothing. -/
theorem State.Good.unstreamed (h : s.Good)
    (hrequest : ∀ r, s.requests corr = some r → r.start = some false) : ¬ s.Streamed corr := by
  intro hsent
  obtain ⟨r, hr⟩ := Option.ne_none_iff_exists'.mp ((h.at_ corr).streams hsent)
  have hfits := (h.at_ corr).request r hr
  have hserved := (hfits.unstarted (by rw [hrequest r hr]; nofun)).1
  obtain ⟨hstreamed, hidle⟩ := hfits.unserved hserved
  rcases hfits.streamed hsent with hs | ⟨call, hcall⟩
  · rw [hstreamed] at hs
    cases hs
  · rw [hidle call] at hcall
    cases hcall

/-- A task that answers a correlation appears. -/
theorem State.Good.newReply (h : s.Good) (hnot : ¬ s.Terminated corr)
    (hrequest : ∀ r, s.requests corr = some r → r.start = some false)
    (hknown : corr ≤ s.watermark) (hstage : p.stage = .working) : (s.setReply corr p).Good := by
  refine h.reply (Extends.refl s) nofun allowed_none nofun hrequest hknown ⟨fun _ => hnot, ?_⟩
  intro ty e he
  rw [hstage] at he
  cases he

theorem good_emitRejection (h : s.Good) (hnot : ¬ s.Terminated corr)
    (hrequest : ∀ r, s.requests corr = some r → r.start = some false)
    (hknown : corr ≤ s.watermark) (route : RouteHandle) (busy : Bool) :
    (s.emitRejection corr route busy).Good := by
  rw [emitRejection]
  split
  · exact h.newReply hnot hrequest hknown rfl
  · exact h.cancelToken

theorem ReplyKind.frames_isTerminal {kind : ReplyKind} (h : ty ∈ kind.frames) :
    ty.isTerminal = true := by
  revert ty
  cases kind with
  | rejection => decide
  | authoritative => decide
  | control action => cases action <;> decide

/-- What a reply that exists says about its correlation. -/
theorem State.At.replied (h : s.At corr) (hp : s.replies corr = some p) :
    (∀ r, s.requests corr = some r → r.start = some false) ∧ corr ≤ s.watermark := by
  refine ⟨fun r hr => (h.request r hr).replied (by rw [hp]; nofun), ?_⟩
  by_contra hlt
  rw [(h.fresh (by omega)).2] at hp
  cases hp

theorem good_driveReply (h : s.Good) (hp : s.replies corr = some p) (choice : Option FrameType)
    (answer : Answer) : (s.driveReply corr p choice answer).Good := by
  have hfits := (h.at_ corr).reply p hp
  obtain ⟨hrequest, hknown⟩ := (h.at_ corr).replied hp
  have hstays : ∀ {s' : State} {q : Reply}, Extends s s' none → q.Fits (s.Terminated corr) →
      (s'.setReply corr q).Good := by
    intro s' q he hq
    have hsame : s'.Terminated corr ↔ s.Terminated corr :=
      (terminated_iff he.queue).trans (or_iff_left nofun)
    exact h.reply he nofun allowed_none nofun hrequest hknown
      ⟨fun hstage ht => hq.silent hstage (hsame.mp ht), hq.emits⟩
  have hover : ∀ {s' : State}, Extends s s' none →
      (s'.setReply corr { p with stage := .finished }).Good :=
    fun he => hstays he ⟨fun hne => absurd rfl hne, nofun⟩
  have hfailed : ∀ {s' : State}, Extends s s' none →
      ((if p.kind.cancels then s'.cancelToken else s').setReply corr
        { p with stage := .finished }).Good := by
    intro s' he
    split
    · exact hover he.cancelToken
    · exact hover he
  unfold driveReply
  cases hstage : p.stage with
  | working =>
    have hnot := hfits.silent (by rw [hstage]; nofun)
    cases choice with
    | none =>
      simp only
      split
      · exact hover (Extends.refl s)
      · exact h
    | some ty =>
      simp only
      split
      · rename_i hmem
        split
        · refine hstays (Extends.refl s) ⟨fun _ => hnot, ?_⟩
          rintro ty' e ⟨⟩
          exact ReplyKind.frames_isTerminal hmem
        · exact hfailed (Extends.refl s)
      · exact h
  | emitting ty e =>
    have hnot := hfits.silent (by rw [hstage]; nofun)
    have hterminal := hfits.emits ty e hstage
    simp only
    generalize hemit : s.emit ⟨ty, p.route, corr⟩ e answer = result
    obtain ⟨progress, s'⟩ := result
    rcases emit_cases hemit with ⟨-, rfl, rfl⟩ | ⟨rfl, he⟩ | ⟨rfl, he⟩
    · refine hstays (Extends.refl _) ⟨fun _ => hnot, ?_⟩
      rintro ty' e'' ⟨⟩
      exact hterminal
    · refine h.reply he ?_ ⟨?_, ?_, ?_⟩ ?_ hrequest hknown ⟨fun hne => absurd rfl hne, nofun⟩
      · rintro f ⟨⟩
        rfl
      · rintro f ⟨⟩ -
        exact hnot
      · rintro f ⟨⟩ -
        exact hnot
      · rintro f ⟨⟩ - hstreamed
        exact (h.unstreamed hrequest) hstreamed
      · rintro f ⟨⟩ hdata
        rw [show ty = .streamData from hdata] at hterminal
        cases hterminal
    · exact hfailed he
  | finished => exact h

theorem good_dropReply (h : s.Good) (hp : s.replies corr = some p) :
    (s.setReply corr { p with stage := .finished }).Good := by
  obtain ⟨hrequest, hknown⟩ := (h.at_ corr).replied hp
  exact h.reply (Extends.refl s) nofun allowed_none nofun hrequest hknown
    ⟨fun hne => absurd rfl hne, nofun⟩

/-! ### The reader -/

/-- The correlation of a frame that the reader accepts is new. -/
structure State.Unused (s : State) (corr : Nat) : Prop where
  request : s.requests corr = none
  reply : s.replies corr = none
  terminated : ¬ s.Terminated corr
  streamed : ¬ s.Streamed corr
  known : corr ≤ s.watermark

theorem State.Good.raise (h : s.Good) (hlt : ¬ corr ≤ s.watermark) :
    ({ s with watermark := corr } : State).Good ∧
      ({ s with watermark := corr } : State).Unused corr := by
  have hat := h.at_ corr
  obtain ⟨hrequest, hreply⟩ := hat.fresh (by omega)
  refine ⟨?_, hrequest, hreply, fun hterm => ?_, fun hsent => hat.streams hsent hrequest, le_refl _⟩
  · exact @Good.same s { s with watermark := corr } none h rfl rfl
      (show s.watermark ≤ corr by omega) id (List.append_nil _).symm nofun fun _ => id
  · exact (hat.terminates hterm).elim (fun hne => hne hrequest) fun hne => hne hreply

theorem State.Unused.no_request (h : s.Unused corr) (r : Request)
    (hr : s.requests corr = some r) : r.start = some false := by
  rw [h.request] at hr
  cases hr

theorem State.Good.newRequest (h : s.Good) (hu : s.Unused corr) (route : RouteHandle) :
    ({ s.setRequest corr { route } with reader := .registering corr } : State).Good := by
  have hself : (s.setRequest corr { route }).requests corr = some { route } :=
    setRequest_self
  refine @Good.touch s _ corr none h ⟨fun _ => setRequest_ne, fun _ _ => rfl, id, le_refl _,
    (List.append_nil _).symm, nofun⟩ allowed_none ⟨fun r hr => ?_, fun p hp => ?_, fun hs => ?_,
      fun ht => ?_, fun hlt => ?_⟩ fun c r hc hr => ?_
  · cases hself.symm.trans hr
    refine ⟨fun hne => absurd hu.reply hne, fun _ => ⟨rfl, rfl, .inl rfl⟩,
      fun _ => ⟨rfl, fun _ => rfl⟩, ⟨nofun, nofun⟩, fun _ => ⟨nofun, ?_⟩, nofun, fun _ _ => rfl, nofun,
      fun hs => absurd hs hu.streamed, fun ht => absurd ht hu.terminated, nofun⟩
    rintro (hcall | hcall) <;> cases hcall
  · exact absurd (hu.reply.symm.trans hp) nofun
  · exact absurd hs hu.streamed
  · exact absurd ht hu.terminated
  · exact absurd hu.known (Nat.not_le.mpr hlt)
  · cases hc
    cases hself.symm.trans hr
    rfl

theorem good_dispatchRequest (h : s.Good) (hu : s.Unused corr) (route : RouteHandle)
    (permits : Permits) : (s.dispatchRequest route corr permits).Good := by
  have hreject := good_emitRejection h hu.terminated hu.no_request hu.known route permits.busy
  rw [dispatchRequest]
  split
  · exact hreject
  · split
    · exact hreject
    · split
      · exact hreject
      · exact h.newRequest hu route

theorem good_handleCancel (h : s.Good) (route : RouteHandle) (corr : Nat) :
    (s.handleCancel route corr).Good := by
  rw [handleCancel]
  cases hr : s.requests corr with
  | none => exact h
  | some r =>
    simp only
    split
    · exact h.request_same hr rfl (((h.at_ corr).request r hr).flags id)
    · exact h

theorem good_receive (h : s.Good) (inbound : Inbound) (permits : Permits) :
    (s.receive inbound permits).Good := by
  unfold receive
  split
  · exact h
  · cases inbound with
    | request route corr =>
      simp only
      split
      · exact h.exit
      · rename_i hlt
        obtain ⟨hraised, hu⟩ := h.raise hlt
        split
        · exact hraised.exit
        · exact good_dispatchRequest hraised hu route permits
    | control corr action =>
      simp only
      split
      · exact h.exit
      · rename_i hlt
        obtain ⟨hraised, hu⟩ := h.raise hlt
        rw [handleControl]
        split
        · exact hraised.newReply hu.terminated hu.no_request hu.known rfl
        · exact good_emitRejection hraised hu.terminated hu.no_request hu.known _ _
    | rejected corr =>
      simp only
      split
      · exact h.exit
      · rename_i hlt
        obtain ⟨hraised, hu⟩ := h.raise hlt
        split
        · exact hraised.newReply hu.terminated hu.no_request hu.known rfl
        · exact hraised.cancelToken.exit
    | cancel route corr =>
      simp only
      split
      · exact h.exit
      · exact good_handleCancel h route corr
    | goodbye route =>
      simp only
      split
      · exact h.exit
      · exact h.hostStep _
    | last => exact h.exit

/-- The start signal of a request that waits for it. -/
theorem Request.Fits.signal {answered ended sent gone : Prop} (h : r.Fits answered ended sent gone)
    (hstart : r.start = none) (started : Bool) :
    Fits { r with start := some started } answered ended sent gone ∧ ¬ answered ∧ ¬ ended := by
  have hanswered : ¬ answered := fun ha => by
    have hfalse := h.replied ha
    rw [hstart] at hfalse
    cases hfalse
  have hbefore := h.unstarted (by rw [hstart]; nofun)
  have hended : ¬ ended := fun he => by
    rcases h.terminated he with hfalse | ⟨hwon, -⟩
    · rw [hstart] at hfalse
      cases hfalse
    · rw [hbefore.2.1] at hwon
      cases hwon
  exact ⟨⟨fun ha => absurd ha hanswered, fun _ => hbefore, h.unserved, h.holdsSettle, h.holdsSend,
    h.won, h.undecided, h.emits, h.streamed, fun he => absurd he hended, h.settled⟩, hanswered, hended⟩

theorem good_register (h : s.Good) (finished : Nat → Bool) (busy : Bool) :
    (s.register finished busy).Good := by
  unfold register
  cases hreader : s.reader with
  | registering corr =>
    simp only
    cases hr : s.requests corr with
    | none => exact h
    | some r =>
      have hidle : ({ s with reader := .idle } : State).Good := h.aside rfl rfl rfl id rfl nofun
      have hsignal := fun started => ((h.at_ corr).request r hr).signal
        (h.registering corr r hreader hr) started
      have hstarted : ∀ started,
          (({ s with reader := .idle } : State).setRequest corr { r with start := some started }).Good :=
        fun started => hidle.request hr (Extends.refl _) nofun allowed_none (.inr nofun)
          (fun hne => absurd rfl hne) (hsignal started).1
      simp only
      split
      · exact (hstarted true).hostStep (.registerDispatch r.route s.gen corr finished)
      · refine good_emitRejection (hstarted false) (hsignal false).2.2 (fun q hq => ?_) ?_ _ _
        · cases setRequest_self.symm.trans hq
          rfl
        · by_contra hlt
          rw [((h.at_ corr).fresh (by simpa [setRequest] using hlt)).1] at hr
          cases hr
  | idle => exact h
  | exited => exact h

/-! ### Closes -/

theorem good_abortTasks (h : s.Good) (aborts : List Nat) : (s.abortTasks aborts).Good := by
  refine h.map (fun c r => ?_) fun c r answered ended sent gone hfits => ?_
  · split <;> rfl
  · split
    · exact hfits.flags fun _ => by simp
    · exact hfits

theorem good_driveClose (h : s.Good) (k : Nat) (c : Close) (stopped : Bool) :
    (s.driveClose k c stopped).Good := by
  have goes : ∀ {s' : State} (closes : List Close), s'.Good → ({ s' with closes } : State).Good :=
    fun closes hs => hs.aside rfl rfl rfl id rfl fun _ => id
  have removed : (s.mapRequests fun _ r =>
      if r.route = c.route ∧ r.collected then { r with pending := false } else r).Good := by
    refine h.map (fun _ r => ?_) fun _ r _ _ _ _ hfits => ?_
    · split <;> rfl
    · split
      · exact hfits.flags id
      · exact hfits
  unfold driveClose
  cases c.stage with
  | collecting =>
    refine goes _ (h.map (fun _ r => ?_) fun _ r _ _ _ _ hfits => ?_)
    · split <;> rfl
    · split
      · exact hfits.flags id
      · exact hfits
  | waiting =>
    simp only
    split
    · exact goes _ removed
    · exact goes _ (good_abortTasks h c.aborts)
  | stopping =>
    simp only
    split
    · exact goes _ removed
    · exact goes _ h
  | forcing => exact goes _ (good_abortTasks h c.aborts)
  | joining => exact goes _ h
  | finished => exact h

/-! ## Runs -/

theorem good_ofRequest {f : Request → State} (h : s.Good)
    (hf : ∀ r, s.requests corr = some r → (f r).Good) : (s.ofRequest corr f).Good := by
  rw [ofRequest]
  cases hr : s.requests corr with
  | none => exact h
  | some r => exact hf r hr

theorem good_step (h : s.Good) (event : Event) : (s.step event).Good := by
  cases event with
  | receive inbound permits => exact good_receive h inbound permits
  | register finished busy => exact good_register h finished busy
  | outer corr joined answer => exact good_ofRequest h fun r hr => good_driveOuter h hr joined answer
  | dropOuter corr => exact good_ofRequest h fun r hr => good_dropOuter h hr
  | send corr call => exact good_ofRequest h fun r hr => good_send h hr call
  | driveSend corr call cancelSeen answer =>
    exact good_ofRequest h fun r hr => good_driveSend h hr call cancelSeen answer
  | dropSend corr call => exact good_ofRequest h fun r hr => good_dropSend h hr call
  | reply corr choice answer =>
    rw [step]
    cases hp : s.replies corr with
    | none => exact h
    | some p => exact good_driveReply h hp choice answer
  | dropReply corr =>
    rw [step]
    cases hp : s.replies corr with
    | none => exact h
    | some p =>
      simp only
      split
      · exact good_dropReply h hp
      · exact h
  | close k stopped =>
    rw [step]
    cases s.closes[k]? with
    | none => exact h
    | some c => exact good_driveClose h k c stopped
  | host e => exact h.hostStep e
  | notify goodbye corr =>
    refine @Good.same s _ (some _) h rfl rfl (le_refl _) id rfl ?_ fun _ => id
    rintro f ⟨⟩
    cases goodbye <;> exact ⟨rfl, nofun⟩
  | drain => exact h.aside rfl rfl rfl id rfl fun _ => id
  | cancelGeneration => exact h.cancelToken
  | retireWriter => exact h.aside rfl rfl rfl id rfl fun _ => id
  | abortAll =>
    rw [step]
    split
    · have haborted : (s.mapRequests fun _ r =>
          { r with aborted := r.aborted.or (some .shutdown) }).Good :=
        h.map (fun _ _ => rfl) fun _ r _ _ _ _ hfits => hfits.flags fun _ => by simp
      exact haborted.aside rfl rfl rfl id rfl fun _ => id
    · exact h

theorem good_of_empty (hrequests : s.requests = fun _ => none)
    (hreplies : s.replies = fun _ => none)
    (hqueue : s.queue = []) : s.Good := by
  have hnothing : ∀ P : Frame → Prop, ¬ ∃ f ∈ s.queue, P f := by
    rintro P ⟨f, hf, -⟩
    rw [hqueue] at hf
    cases hf
  have hrequest : ∀ c, s.requests c = none := fun c => congrFun hrequests c
  have hreply : ∀ c, s.replies c = none := fun c => congrFun hreplies c
  refine ⟨fun c => ⟨fun r hr => ?_, fun p hp => ?_, fun hs => absurd hs (hnothing _),
    fun ht => absurd ht (hnothing _), fun _ => ⟨hrequest c, hreply c⟩⟩, fun c r _ hr => ?_, ?_, ?_, ?_⟩
  · exact absurd ((hrequest c).symm.trans hr) nofun
  · exact absurd ((hreply c).symm.trans hp) nofun
  · exact absurd ((hrequest c).symm.trans hr) nofun
  · simp [hqueue]
  · simp [hqueue]
  · simp [hqueue]

theorem good_fresh (maxRoutes gen : Nat) : (fresh maxRoutes gen).Good := by
  rw [fresh]
  exact good_of_empty rfl rfl rfl

theorem good_run (maxRoutes gen : Nat) (events : List Event) : (run maxRoutes gen events).Good := by
  rw [run]
  induction events using List.reverseRecOn with
  | nil => exact good_fresh maxRoutes gen
  | append_singleton events event ih =>
    rw [List.foldl_append]
    exact good_step ih event

/-- At most one terminal enters the queue for each correlation, no stream data after it and no unary
response after stream data.  A settlement that is won is emitting, or its terminal is queued, or
its task was aborted, or the generation is cancelled. -/
theorem one_terminal (maxRoutes gen : Nat) (events : List Event) :
    OneTerminal (run maxRoutes gen events) :=
  (good_run maxRoutes gen events).oneTerminal

namespace Sample

def permits : Permits := ⟨true, true, true⟩

/-- A request has failed, and the error waits for the egress budget when the host runs out of
time. -/
def events : List Event :=
  [.host (.openRoute 0 .general), .host (.drive 0 ⟨.accept, true⟩), .host (.drive 0 ⟨.accept, true⟩),
    .receive (.request ⟨1, 1⟩ 1) permits, .register (fun _ => false) true,
    .outer 1 none .accepted, .outer 1 (some .error) .accepted, .outer 1 none .accepted,
    .drain, .abortAll, .dropOuter 1]

def state : State := run 4 0 events

/-- A shutdown that is out of time aborts tasks before it closes their routes and cancels their
generation. -/
theorem settled_without_terminal : ∃ r, state.requests 1 = some r ∧ r.settlement.won = true ∧
    r.outer = .finished ∧
    ¬ (state.Terminated 1 ∨ r.aborted = some .routeClose ∨ state.cancelled = true) := by
  refine ⟨(state.requests 1).get (by decide +kernel), (Option.some_get _).symm, by decide +kernel,
    by decide +kernel, ?_⟩
  have hqueue : state.queue = [] := by decide +kernel
  rintro (⟨f, hf, -⟩ | haborted | hcancelled)
  · rw [hqueue] at hf
    cases hf
  · revert haborted
    decide +kernel
  · revert hcancelled
    decide +kernel

end Sample

end Dispatch
end MagicContext.Host
