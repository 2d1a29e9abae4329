import Mathlib.Data.List.Induction
import MagicContext.Notes.Turns

/-!
# Offers of notes

A note that is ready or surfacing is in every claim of every session; one that has surfaced is in
the claims of the sessions that have an open delivery of it.  An acknowledgement closes the
session's deliveries and makes the note surfaced, unless the note is ready at that moment; a refusal
makes it ready again, whoever has acknowledged it before.  What holds is therefore about runs
without these two, and without claims that the tables refuse.

## What is here

* `Delivered`, `Offered` — what a pass has open, and what a claim offers.
* `Smooth` — the condition on an event.
* `NoteDeliveries` — what holds in a run.
* `Fits` — the invariant of the tables.
* `note_deliveries` — what holds, of every run of smooth events.
* `Sample.acknowledged_and_offered` — a late acknowledgement leaves its note to be delivered again.
-/

namespace MagicContext.Notes


/-! ## What holds -/

/-- The pass has an open delivery of the note. -/
def Delivered (s : Store) (project session passId : String) (id : Nat) : Prop :=
  ∃ d ∈ s.deliveries, d.ofPass project session passId = true ∧ d.noteId = id

/-- The note has this status. -/
def HasStatus (notes : Notes) (id : Nat) (status : NoteStatus) : Prop :=
  ∃ n, notes.get id = some n ∧ n.status = status

/-- The claim succeeds and has the delivery. -/
def Offered (s : Store) (pass : Pass) (d : NoteDelivery) : Prop :=
  ∃ hits s', claimNoteDelivery pass s = .ok (hits, s') ∧ d ∈ hits.map Prod.snd

/-- No note is left or made ready that a session acknowledges or has acknowledged, and no claim is
refused. -/
def Smooth (s : State) : Event → Prop
  | .edit _ => True
  | .claim pass => ∀ note ∈ due pass.projectPath s.store.notes, Takes pass s.store note
  | .ack project session passId _ => ∀ id, Delivered s.store project session passId id →
      ¬ HasStatus s.store.notes id .ready
  | .nack project session passId _ => ∀ id, Delivered s.store project session passId id →
      HasStatus s.store.notes id .surfaced → ∀ other, (other, id) ∉ s.acknowledged

structure NoteDeliveries (events : List Event) : Prop where
  /-- From the evaluation that makes a note ready until a pass with it is acknowledged or the note
  is dismissed or edited, every claim offers it. -/
  offered : ∀ before edit between pass id,
    before ++ [.edit edit] ++ between ++ [.claim pass] <+: events →
    becomesReady (run before).store.notes (run (before ++ [.edit edit])).store.notes id = true →
    (∀ n, (run before).store.notes.get id = some n →
      n.type = .smart ∧ n.projectPath = pass.projectPath) →
    (∀ part, part <+: between → ∀ status, status = .dismissed ∨ status = .pending →
      ¬ HasStatus (run (before ++ [.edit edit] ++ part)).store.notes id status) →
    (∀ part session passId now, part ++ [.ack pass.projectPath session passId now] <+: between →
      ¬ Delivered (run (before ++ [.edit edit] ++ part)).store pass.projectPath session passId id) →
    ∃ d, Offered (run (before ++ [.edit edit] ++ between)).store pass d ∧ d.noteId = id
  /-- After a session has acknowledged a note, no claim of it offers the note before an evaluation
  has made it ready again. -/
  settled : ∀ before project session passId now between pass id,
    before ++ [.ack project session passId now] ++ between ++ [.claim pass] <+: events →
    Delivered (run before).store project session passId id → pass.sessionId = session →
    (∀ part edit, part ++ [.edit edit] <+: between →
      becomesReady (run (before ++ [.ack project session passId now] ++ part)).store.notes
        (run (before ++ [.ack project session passId now] ++ part ++ [.edit edit])).store.notes id =
        false) →
    ∀ d, Offered (run (before ++ [.ack project session passId now] ++ between)).store pass d →
      d.noteId ≠ id
  /-- A claim that is repeated gives the same deliveries, and changes nothing. -/
  repeated : ∀ before pass hits s', before <+: events →
    claimNoteDelivery pass (run before).store = .ok (hits, s') →
    ∀ passId now, ∃ hits', claimNoteDelivery { pass with passId, nowMs := now } s' = .ok (hits', s') ∧
      (hits'.map Prod.snd).Perm (hits.map Prod.snd)
  /-- A later claim under its fingerprint still has what is open and may be delivered. -/
  kept : ∀ before pass between pass', before ++ [.claim pass] ++ between ++ [.claim pass'] <+: events →
    pass'.projectPath = pass.projectPath → pass'.sessionId = pass.sessionId →
    pass'.fingerprint = pass.fingerprint →
    ∀ d, Offered (run before).store pass d →
      ∀ row ∈ (run (before ++ [.claim pass] ++ between)).store.deliveries, row.toNoteDelivery = d →
        row.isOpen = true →
        (∃ note ∈ due pass.projectPath (run (before ++ [.claim pass] ++ between)).store.notes,
          note.id = d.noteId) →
        Offered (run (before ++ [.claim pass] ++ between)).store pass' d
  /-- A pass is settled once. -/
  once : ∀ before event between event' project session passId,
    before ++ [event] ++ between ++ [event'] <+: events →
    (∃ now, event = .ack project session passId now ∨ event = .nack project session passId now) →
    (∃ now, event' = .ack project session passId now ∨ event' = .nack project session passId now) →
    (∀ pass, Event.claim pass ∈ between → ¬ (pass.projectPath = project ∧
      pass.sessionId = session ∧ pass.passId = passId)) →
    (run (before ++ [event] ++ between ++ [event'])).store =
      (run (before ++ [event] ++ between)).store
  /-- Dismissed notes stay dismissed. -/
  dismissed : ∀ before event, before ++ [event] <+: events → (∀ e, event ≠ .edit e) →
    ∀ id, HasStatus (run before).store.notes id .dismissed →
      (run (before ++ [event])).store.notes.get id = (run before).store.notes.get id

variable {id : Nat}

theorem mem_deliveredNotes {project session passId : String} {s : Store} :
    id ∈ deliveredNotes project session passId s ↔ Delivered s project session passId id := by
  rw [deliveredNotes, List.mem_dedup, List.mem_map]
  constructor
  · rintro ⟨d, hd, rfl⟩
    obtain ⟨hmem, hpass⟩ := Table.mem_select.mp hd
    exact ⟨d, hmem, hpass, rfl⟩
  · rintro ⟨d, hmem, hpass, rfl⟩
    exact ⟨d, Table.mem_select.mpr ⟨hmem, hpass⟩, rfl⟩

section Decide

variable (s : Store) (pass : Pass) (note : Note)

instance (notes : Notes) (id : Nat) (status : NoteStatus) : Decidable (HasStatus notes id status) :=
  decidable_of_iff ((notes.get id).any (fun n => decide (n.status = status)) = true) (by
    rw [Option.any_eq_true]
    exact exists_congr fun n => and_congr_right fun _ => decide_eq_true_iff)

instance : Decidable (pass.Skips s note) :=
  inferInstanceAs (Decidable (_ ∧ ∀ d ∈ s.deliveries.rows, _))

instance : Decidable (Takes pass s note) :=
  inferInstanceAs (Decidable (_ → _ → ∀ d ∈ s.deliveries.rows, _ ∧ _))

instance (s : State) (event : Event) : Decidable (Smooth s event) :=
  match event with
  | .edit _ => inferInstanceAs (Decidable True)
  | .claim pass => inferInstanceAs (Decidable (∀ note ∈ due pass.projectPath s.store.notes, _))
  | .ack project session passId _ =>
    decidable_of_iff (∀ id ∈ deliveredNotes project session passId s.store,
        ¬ HasStatus s.store.notes id .ready)
      (forall_congr' fun _ => imp_congr_left mem_deliveredNotes)
  | .nack project session passId _ =>
    decidable_of_iff (∀ id ∈ deliveredNotes project session passId s.store,
        HasStatus s.store.notes id .surfaced → ∀ p ∈ s.acknowledged, p.2 ≠ id)
      (forall_congr' fun _ => imp_congr mem_deliveredNotes (imp_congr_right fun _ =>
        ⟨fun h _ hmem => h _ hmem rfl, fun h p hmem heq => h p.1 (heq ▸ hmem)⟩))

end Decide

/-! ## The invariant -/

structure Fits (s : State) : Prop where
  unacked : Unacked s.store
  unique : Unique s.store
  placed : ∀ d ∈ s.store.deliveries, ∃ n, s.store.notes.get d.noteId = some n ∧
    n.projectPath = d.projectPath
  /-- What a session has acknowledged is not ready, and the session has no open delivery of it. -/
  settled : ∀ session id, (session, id) ∈ s.acknowledged →
    (∃ n, s.store.notes.get id = some n ∧ n.status ≠ .ready ∧ n.status ≠ .surfacing) ∧
      ∀ d ∈ s.store.deliveries, d.sessionId = session → d.noteId = id → d.isOpen = false

theorem fits_empty : Fits {} where
  unacked _ hmem := absurd hmem List.not_mem_nil
  unique _ hmem := absurd hmem List.not_mem_nil
  placed _ hmem := absurd hmem List.not_mem_nil
  settled _ _ hmem := absurd hmem List.not_mem_nil

variable {s : State}

theorem becomesReady_of {before after : Notes} {n n' : Note} (hbefore : before.get id = some n)
    (hafter : after.get id = some n') (hpending : n.status = .pending)
    (hready : n'.status = .ready) : becomesReady before after id = true := by
  rw [becomesReady, hbefore, hafter]
  simp [hpending, hready]

theorem Fits.edit (h : Fits s) (e : Edit) : Fits (s.step (.edit e)) where
  unacked := h.unacked
  unique := h.unique
  placed d hd := by
    obtain ⟨n, hget, hproject⟩ := h.placed d hd
    obtain ⟨n', hget', hmoves⟩ := moves_apply e hget
    exact ⟨n', hget', hmoves.projectPath.trans hproject⟩
  settled session id hmem := by
    obtain ⟨hmem, hnot⟩ := List.mem_filter.mp hmem
    obtain ⟨⟨n, hget, hready, hsurfacing⟩, hclosed⟩ := h.settled session id hmem
    refine ⟨?_, hclosed⟩
    obtain ⟨n', hget', hmoves⟩ := moves_apply e hget
    refine ⟨n', hget', ?_⟩
    rcases hmoves.status with hsame | hdismissed | hpending | ⟨hpending, hbecomes⟩
    · exact ⟨hsame ▸ hready, hsame ▸ hsurfacing⟩
    · rw [hdismissed]
      exact ⟨nofun, nofun⟩
    · rw [hpending]
      exact ⟨nofun, nofun⟩
    · simp [becomesReady_of hget hget' hpending hbecomes] at hnot

variable {hits : List (Note × NoteDelivery)}

/-- The row that a claim leaves. -/
theorem get_claim {pass : Pass} {s s' : Store}
    (hturns : Turns pass (due pass.projectPath s.notes) s hits s') {n : Note}
    (hget : s.notes.get id = some n) : ∃ n', s'.notes.get id = some n' ∧ Surfaces n n' := by
  obtain rfl := id_of_get hget
  by_cases hdue : n ∈ due pass.projectPath s.notes
  · exact hturns.get_self hdue hget
  · refine ⟨n, (hturns.get_other fun note hnote heq => hdue ?_).trans hget, .inl rfl⟩
    have hget' := (mem_due.mp hnote).1
    rw [← heq, hget] at hget'
    cases hget'
    exact hnote

theorem Surfaces.projectPath {n n' : Note} (h : Surfaces n n') :
    n'.projectPath = n.projectPath := by
  rcases h with rfl | ⟨-, -, -, hproject, -⟩
  · rfl
  · exact hproject

/-- A note that is not ready stays as it is. -/
theorem Surfaces.eq {n n' : Note} (h : Surfaces n n') (hready : n.status ≠ .ready) : n' = n :=
  h.resolve_right fun h => hready h.1

/-- A claim skips what its session has acknowledged. -/
theorem Fits.skips (h : Fits s) {pass : Pass} {note : Note}
    (hdue : note ∈ due pass.projectPath s.store.notes)
    (hmem : (pass.sessionId, note.id) ∈ s.acknowledged) : pass.Skips s.store note := by
  obtain ⟨⟨n, hget, hready, hsurfacing⟩, hclosed⟩ := h.settled _ _ hmem
  obtain ⟨hget', -, -, hstatus⟩ := mem_due.mp hdue
  rw [hget'] at hget
  cases hget
  refine ⟨(hstatus.resolve_left hready).resolve_left hsurfacing, fun d hd => ?_⟩
  by_contra hopens
  obtain ⟨hopen, -, hsession, hnote⟩ := opens_iff.mp (Bool.not_eq_false _ ▸ hopens)
  rw [hclosed d hd hsession hnote] at hopen
  cases hopen

theorem Fits.claim (h : Fits s) (pass : Pass) : Fits (s.step (.claim pass)) := by
  simp only [State.step]
  split
  · exact h
  · rename_i hits store hclaim
    have hturns := claim_turns h.unacked hclaim
    refine ⟨hturns.unacked h.unacked, hturns.unique h.unique, fun d hd => ?_,
      fun session id hmem => ?_⟩
    · rcases hturns.mem hd with hold | ⟨note, hnote, rfl, -⟩
      · obtain ⟨n, hget, hproject⟩ := h.placed d hold
        obtain ⟨n', hget', hsurfaces⟩ := get_claim hturns hget
        exact ⟨n', hget', hsurfaces.projectPath.trans hproject⟩
      · obtain ⟨hget, hproject, -⟩ := mem_due.mp hnote
        obtain ⟨n', hget', hsurfaces⟩ := get_claim hturns hget
        exact ⟨n', hget', hsurfaces.projectPath.trans hproject⟩
    · obtain ⟨⟨n, hget, hready, hsurfacing⟩, hclosed⟩ := h.settled session id hmem
      obtain ⟨n', hget', hsurfaces⟩ := get_claim hturns hget
      obtain rfl := hsurfaces.eq hready
      refine ⟨⟨n', hget', hready, hsurfacing⟩, fun d hd hsession hnote => ?_⟩
      rcases hturns.mem hd with hold | ⟨note, hdue, rfl, hskips⟩
      · exact hclosed d hold hsession hnote
      · cases hsession
        cases hnote
        exact absurd (h.skips hdue hmem) hskips

/-- Settling keeps what is about the deliveries. -/
theorem Fits.settle (h : Fits s) {t : Table DeliveryRow.key} {notes : Notes}
    {acknowledged : List (String × Nat)} (hcloses : Closes s.store.deliveries t)
    (hget : ∀ id n, s.store.notes.get id = some n →
      ∃ n', notes.get id = some n' ∧ n'.projectPath = n.projectPath)
    (hsettled : ∀ session id, (session, id) ∈ acknowledged →
      (∃ n, notes.get id = some n ∧ n.status ≠ .ready ∧ n.status ≠ .surfacing) ∧
        ∀ d ∈ t, d.sessionId = session → d.noteId = id → d.isOpen = false) :
    Fits ⟨⟨notes, t⟩, acknowledged⟩ where
  unacked := by
    intro d' hd' hopen
    obtain ⟨d, hd, hsame, -⟩ := hcloses d' hd'
    obtain rfl := hsame hopen
    exact h.unacked d' hd hopen
  unique := by
    intro d₁ hd₁ d₂ hd₂ hnote hsession hprint
    obtain ⟨e₁, he₁, -, -, hnote₁, hsession₁, -, hprint₁, hid₁, -⟩ := hcloses d₁ hd₁
    obtain ⟨e₂, he₂, -, -, hnote₂, hsession₂, -, hprint₂, hid₂, -⟩ := hcloses d₂ hd₂
    have heq : e₁ = e₂ := h.unique e₁ he₁ e₂ he₂ (hnote₁ ▸ hnote₂ ▸ hnote)
      (hsession₁ ▸ hsession₂ ▸ hsession) (hprint₁ ▸ hprint₂ ▸ hprint)
    exact Table.eq_of_key hd₁ hd₂ (hid₁.trans (heq ▸ hid₂.symm))
  placed := by
    intro d' hd'
    obtain ⟨d, hd, -, -, hnote, -, hproject, -⟩ := hcloses d' hd'
    obtain ⟨n, hn, heq⟩ := h.placed d hd
    obtain ⟨n', hn', heq'⟩ := hget d.noteId n hn
    exact ⟨n', hnote ▸ hn', heq'.trans (heq.trans hproject.symm)⟩
  settled := hsettled

theorem nodup_deliveredNotes (project session passId : String) (s : Store) :
    (deliveredNotes project session passId s).Nodup :=
  List.nodup_dedup _

/-- A settled pass leaves every note in its project. -/
theorem projectPath_setStatus {project : String} {status : NoteStatus} {now : Int} {ids : List Nat}
    (hids : ids.Nodup) {notes : Notes} (id : Nat) (n : Note) (hget : notes.get id = some n) :
    ∃ n', (setStatus project status now ids notes).get id = some n' ∧
      n'.projectPath = n.projectPath := by
  rw [get_setStatus project status now hids, hget]
  refine ⟨_, rfl, ?_⟩
  simp only
  split
  · rfl
  · rfl

theorem Closes.closed {t t' : Table DeliveryRow.key} (h : Closes t t') {session : String}
    (hclosed : ∀ d ∈ t, d.sessionId = session → d.noteId = id → d.isOpen = false) :
    ∀ d ∈ t', d.sessionId = session → d.noteId = id → d.isOpen = false := by
  intro d' hd' hsession hnote
  obtain ⟨d, hd, -, hstays, hnote', hsession', -⟩ := h d' hd'
  exact hstays (hclosed d hd (hsession'.symm.trans hsession) (hnote'.symm.trans hnote))

variable {project session passId : String} {now : Int}

theorem closes_ack (s : Store) :
    Closes s.deliveries (ackNoteDelivery project session passId now s).2.deliveries :=
  (closes_dispose _ _ _ _).trans (closes_supersede project session _ _).1

theorem closes_nack (s : Store) :
    Closes s.deliveries (nackNoteDelivery project session passId now s).2.deliveries :=
  closes_dispose _ _ _ _

theorem Fits.ack (h : Fits s) (hsmooth : Smooth s (.ack project session passId now)) :
    Fits (s.step (.ack project session passId now)) := by
  have hnodup := nodup_deliveredNotes project session passId s.store
  refine h.settle (closes_ack s.store) (projectPath_setStatus hnodup) fun session' id hmem => ?_
  -- a note keeps its status or is surfaced then
  have hstatus : ∀ n, s.store.notes.get id = some n → n.status ≠ .ready →
      (n.status = .surfacing → id ∈ deliveredNotes project session passId s.store ∧
        n.projectPath = project) →
      ∃ n', (ackNoteDelivery project session passId now s.store).2.notes.get id = some n' ∧
        n'.status ≠ .ready ∧ n'.status ≠ .surfacing := by
    intro n hget hready hsurfacing
    refine ⟨_, (get_setStatus project .surfaced now hnodup _ id).trans (congrArg _ hget), ?_⟩
    simp only
    split
    · exact ⟨nofun, nofun⟩
    · rename_i hnot
      refine ⟨hready, fun heq => hnot ?_⟩
      exact ⟨(hsurfacing heq).1, (hsurfacing heq).2, .inl heq⟩
  rcases List.mem_append.mp hmem with hold | hnew
  · obtain ⟨⟨n, hget, hready, hsurfacing⟩, hclosed⟩ := h.settled session' id hold
    exact ⟨hstatus n hget hready fun heq => absurd heq hsurfacing, (closes_ack s.store).closed hclosed⟩
  · obtain ⟨id', hid, heq⟩ := List.mem_map.mp hnew
    cases heq
    have hdelivered := mem_deliveredNotes.mp hid
    obtain ⟨d, hd, hpass, rfl⟩ := hdelivered
    obtain ⟨n, hget, hproject⟩ := h.placed d hd
    have hd' := (ofPass_iff.mp hpass).2.1
    refine ⟨hstatus n hget (fun heq => hsmooth _ ⟨d, hd, hpass, rfl⟩ ⟨n, hget, heq⟩)
      fun _ => ⟨hid, hproject.trans hd'⟩, fun row hrow hsession hnote => ?_⟩
    by_contra hopen
    rw [Bool.not_eq_false] at hopen
    obtain ⟨old, hold, hsame, -⟩ := closes_ack s.store row hrow
    obtain rfl := hsame hopen
    obtain ⟨m, hm, hproject'⟩ := h.placed row hold
    rw [hnote, hget] at hm
    cases hm
    have hsuper := (closes_supersede project session _ _).2 row hrow d.noteId hid
    rw [opens_iff.mpr ⟨hopen, hproject'.symm.trans (hproject.trans hd'), hsession, hnote⟩] at hsuper
    cases hsuper

theorem Fits.nack (h : Fits s) (hsmooth : Smooth s (.nack project session passId now)) :
    Fits (s.step (.nack project session passId now)) := by
  have hnodup := nodup_deliveredNotes project session passId s.store
  refine h.settle (@closes_nack _ _ _ now s.store) (projectPath_setStatus hnodup) fun session' id hmem => ?_
  obtain ⟨⟨n, hget, hready, hsurfacing⟩, hclosed⟩ := h.settled session' id hmem
  refine ⟨⟨n, ?_, hready, hsurfacing⟩, (@closes_nack _ _ _ now s.store).closed hclosed⟩
  refine ((get_setStatus project .ready now hnodup _ id).trans (congrArg _ hget)).trans ?_
  rw [Option.map_some, if_neg]
  rintro ⟨hid, -, hstatus⟩
  exact hsmooth id (mem_deliveredNotes.mp hid) ⟨n, hget, hstatus.resolve_left hsurfacing⟩ session' hmem

variable {event : Event}

theorem Fits.step (h : Fits s) (hsmooth : Smooth s event) : Fits (s.step event) := by
  cases event with
  | edit e => exact h.edit e
  | claim pass => exact h.claim pass
  | ack project session passId now => exact h.ack hsmooth
  | nack project session passId now => exact h.nack hsmooth

/-- Every event of the run is smooth. -/
def SmoothRun (events : List Event) : Prop :=
  ∀ before event, before ++ [event] <+: events → Smooth (run before) event

theorem run_concat (before : List Event) (event : Event) :
    run (before ++ [event]) = (run before).step event := by
  rw [run, List.foldl_append]
  rfl

theorem SmoothRun.prefix_of {events before : List Event} (h : SmoothRun events)
    (hinitial : before <+: events) : SmoothRun before :=
  fun _ _ hp => h _ _ (hp.trans hinitial)

theorem fits_run {events : List Event} (h : SmoothRun events) : Fits (run events) := by
  induction events using List.reverseRecOn with
  | nil => exact fits_empty
  | append_singleton before event ih =>
    rw [run_concat]
    exact (ih (h.prefix_of (List.prefix_append _ _))).step (h before event (List.prefix_refl _))

/-! ## What the events keep -/

/-- A note that a claim does not skip is offered. -/
theorem Fits.offers (h : Fits s) {pass : Pass} (hsmooth : Smooth s (.claim pass)) {note : Note}
    (hdue : note ∈ due pass.projectPath s.store.notes) (hskips : ¬ pass.Skips s.store note) :
    ∃ d, Offered s.store pass d ∧ d.noteId = note.id := by
  obtain ⟨hits, s', hclaim⟩ := claim_ok h.unacked hsmooth
  have hturns := claim_turns h.unacked hclaim
  obtain ⟨row, hhas⟩ := hturns.has hdue hskips
  refine ⟨row.toNoteDelivery, ⟨hits, s', hclaim, ?_⟩, (opens_iff.mp hhas.2.1).2.2.2⟩
  exact (hturns.mem_hits h.unique _).mpr ⟨note, hdue, hskips, row, hhas, rfl⟩

/-- The note may be delivered to every session. -/
def Awaits (notes : Notes) (project : String) (id : Nat) : Prop :=
  ∃ n, notes.get id = some n ∧ n.type = .smart ∧ n.projectPath = project ∧
    (n.status = .ready ∨ n.status = .surfacing)

theorem Awaits.offered (h : Fits s) {pass : Pass} (hsmooth : Smooth s (.claim pass))
    (hawaits : Awaits s.store.notes pass.projectPath id) :
    ∃ d, Offered s.store pass d ∧ d.noteId = id := by
  obtain ⟨n, hget, htype, hproject, hstatus⟩ := hawaits
  obtain rfl := id_of_get hget
  refine h.offers hsmooth (mem_due.mpr ⟨hget, hproject, htype, hstatus.imp id .inl⟩) ?_
  rintro ⟨hsurfaced, -⟩
  rw [hsurfaced] at hstatus
  rcases hstatus with heq | heq
  · cases heq
  · cases heq

/-- A note waits until it is dismissed, made pending or acknowledged. -/
theorem Awaits.step (h : Fits s) {project : String} (hawaits : Awaits s.store.notes project id)
    (hstatus : ∀ status, status = .dismissed ∨ status = .pending →
      ¬ HasStatus (s.step event).store.notes id status)
    (hack : ∀ session passId now, event = .ack project session passId now →
      ¬ Delivered s.store project session passId id) :
    Awaits (s.step event).store.notes project id := by
  obtain ⟨n, hget, htype, hproject, hready⟩ := hawaits
  cases event with
  | edit e =>
    obtain ⟨n', hget', hmoves⟩ := moves_apply e hget
    refine ⟨n', hget', hmoves.type.trans htype, hmoves.projectPath.trans hproject, ?_⟩
    rcases hmoves.status with hsame | hdismissed | hpending | ⟨-, hbecomes⟩
    · rwa [hsame]
    · exact absurd ⟨n', hget', hdismissed⟩ (hstatus _ (.inl rfl))
    · exact absurd ⟨n', hget', hpending⟩ (hstatus _ (.inr rfl))
    · exact .inl hbecomes
  | claim pass =>
    simp only [State.step]
    split
    · exact ⟨n, hget, htype, hproject, hready⟩
    · rename_i hits store hclaim
      obtain ⟨n', hget', hsurfaces⟩ := get_claim (claim_turns h.unacked hclaim) hget
      rcases hsurfaces with rfl | ⟨-, hsurfacing, htype', hproject', -⟩
      · exact ⟨n', hget', htype, hproject, hready⟩
      · exact ⟨n', hget', htype'.trans htype, hproject'.trans hproject, .inr hsurfacing⟩
  | ack project' session passId now =>
    refine ⟨n, ((get_setStatus project' .surfaced now
      (nodup_deliveredNotes project' session passId _) _ id).trans (congrArg _ hget)).trans ?_,
      htype, hproject, hready⟩
    rw [Option.map_some, if_neg]
    rintro ⟨hid, heq, -⟩
    obtain rfl := hproject.symm.trans heq
    exact hack session passId now rfl (mem_deliveredNotes.mp hid)
  | nack project' session passId now =>
    refine ⟨_, (get_setStatus project' .ready now
      (nodup_deliveredNotes project' session passId _) _ id).trans (congrArg _ hget), ?_⟩
    simp only
    split
    · exact ⟨htype, hproject, .inl rfl⟩
    · exact ⟨htype, hproject, hready⟩

/-- An acknowledgement is remembered until an evaluation makes its note ready. -/
theorem mem_acknowledged_step {session : String} (hmem : (session, id) ∈ s.acknowledged)
    (hedit : ∀ e, event = .edit e →
      becomesReady s.store.notes (s.step event).store.notes id = false) :
    (session, id) ∈ (s.step event).acknowledged := by
  cases event with
  | edit e => exact List.mem_filter.mpr ⟨hmem, by rw [show becomesReady s.store.notes
      (s.store.notes.apply e) id = false from hedit e rfl]; rfl⟩
  | claim pass =>
    simp only [State.step]
    split
    · exact hmem
    · exact hmem
  | ack project session passId now => exact List.mem_append_left _ hmem
  | nack project session passId now => exact hmem

/-- A claim does not give what its session has acknowledged. -/
theorem Fits.not_offered (h : Fits s) {pass : Pass} (hmem : (pass.sessionId, id) ∈ s.acknowledged)
    {d : NoteDelivery} (hoffered : Offered s.store pass d) : d.noteId ≠ id := by
  rintro rfl
  obtain ⟨hits, s', hclaim, hd⟩ := hoffered
  obtain ⟨note, hdue, hskips, row, hhas, rfl⟩ :=
    ((claim_turns h.unacked hclaim).mem_hits h.unique d).mp hd
  rw [show row.noteId = note.id from (opens_iff.mp hhas.2.1).2.2.2] at hmem
  exact hskips (h.skips hdue hmem)

/-- The pass has nothing open. -/
def Settled (s : Store) (project session passId : String) : Prop :=
  ∀ d ∈ s.deliveries, d.ofPass project session passId = false

theorem Settled.of_closes {project session passId : String} {s s' : Store}
    (h : Settled s project session passId) (hcloses : Closes s.deliveries s'.deliveries) :
    Settled s' project session passId := by
  intro d' hd'
  obtain ⟨d, hd, hsame, -⟩ := hcloses d' hd'
  by_contra hpass
  rw [Bool.not_eq_false] at hpass
  obtain rfl := hsame (ofPass_iff.mp hpass).1
  rw [h d' hd] at hpass
  cases hpass

theorem settled_ack (s : Store) :
    Settled (ackNoteDelivery project session passId now s).2 project session passId := by
  intro d' hd'
  by_contra hpass
  rw [Bool.not_eq_false] at hpass
  have hopen := (ofPass_iff.mp hpass).1
  obtain ⟨d, hd, hsame, -⟩ := (closes_supersede project session _ _).1 d' hd'
  obtain rfl := hsame hopen
  rw [not_open_dispose hd hopen] at hpass
  cases hpass

theorem settled_nack (s : Store) :
    Settled (nackNoteDelivery project session passId now s).2 project session passId := by
  intro d hd
  by_contra hpass
  rw [Bool.not_eq_false] at hpass
  rw [not_open_dispose hd (ofPass_iff.mp hpass).1] at hpass
  cases hpass

theorem Settled.step (h : Fits s) {project session passId : String}
    (hsettled : Settled s.store project session passId)
    (hclaim : ∀ pass, event = .claim pass → ¬ (pass.projectPath = project ∧
      pass.sessionId = session ∧ pass.passId = passId)) :
    Settled (s.step event).store project session passId := by
  cases event with
  | edit e => exact hsettled
  | claim pass =>
    simp only [State.step]
    split
    · exact hsettled
    · rename_i hits store hok
      intro d hd
      rcases (claim_turns h.unacked hok).mem hd with hold | ⟨-, -, rfl, -⟩
      · exact hsettled d hold
      · by_contra hpass
        exact hclaim pass rfl (ofPass_iff.mp (Bool.not_eq_false _ ▸ hpass)).2
  | ack project' session' passId' now => exact hsettled.of_closes (closes_ack s.store)
  | nack project' session' passId' now => exact hsettled.of_closes (closes_nack s.store)

/-- Settling a pass that has nothing open changes nothing. -/
theorem Settled.settle {s : Store} (h : Settled s project session passId) :
    (ackNoteDelivery project session passId now s).2 = s ∧
      (nackNoteDelivery project session passId now s).2 = s := by
  have hnone : deliveredNotes project session passId s = [] := by
    refine List.eq_nil_iff_forall_not_mem.mpr fun id hid => ?_
    obtain ⟨d, hd, hpass, -⟩ := mem_deliveredNotes.mp hid
    rw [h d hd] at hpass
    cases hpass
  have hsame : ∀ disposition ackedAt, dispose (DeliveryRow.ofPass project session passId)
      disposition ackedAt s.deliveries = s.deliveries := by
    refine fun disposition ackedAt => Table.update_of_count_eq_zero ?_
    refine Nat.eq_zero_of_not_pos fun hpos => ?_
    obtain ⟨d, hd, hpass⟩ := Table.count_pos.mp hpos
    rw [h d hd] at hpass
    cases hpass
  unfold ackNoteDelivery nackNoteDelivery
  simp only [hnone, hsame]
  exact ⟨rfl, rfl⟩

/-- The notes of a claim may be delivered afterwards, with the same ones skipped. -/
theorem skips_after {pass : Pass} {s' : Store}
    (hturns : Turns pass (due pass.projectPath s.store.notes) s.store hits s') {note : Note}
    (hdue : note ∈ due pass.projectPath s.store.notes) :
    ∃ note' ∈ due pass.projectPath s'.notes, note'.id = note.id ∧
      (pass.Skips s.store note ↔ pass.Skips s' note') := by
  obtain ⟨hget, hproject, htype, hstatus⟩ := mem_due.mp hdue
  obtain ⟨note', hget', hsurfaces⟩ := get_claim hturns hget
  have hid : note'.id = note.id := id_of_get hget'
  have hdue' : note' ∈ due pass.projectPath s'.notes := by
    refine mem_due.mpr ⟨hid.symm ▸ hget', hsurfaces.projectPath.trans hproject, ?_⟩
    rcases hsurfaces with rfl | ⟨-, hsurfacing, htype', -⟩
    · exact ⟨htype, hstatus⟩
    · exact ⟨htype'.trans htype, .inr (.inl hsurfacing)⟩
  refine ⟨note', hdue', hid, fun hskips => ?_, fun hskips' => ?_⟩
  · obtain rfl := hsurfaces.eq (hskips.1 ▸ nofun)
    refine ⟨hskips.1, fun d hd => ?_⟩
    rcases hturns.mem hd with hold | ⟨other, hother, rfl, hnot⟩
    · exact hskips.2 d hold
    · by_contra hopens
      obtain ⟨-, -, -, heq : other.id = note'.id⟩ := opens_iff.mp (Bool.not_eq_false _ ▸ hopens)
      have hget'' := (mem_due.mp hother).1
      rw [heq, hget] at hget''
      cases hget''
      exact hnot hskips
  · by_contra hskips
    obtain ⟨d, hmem, hopens, -⟩ := hturns.has hdue hskips
    rw [← hid, hskips'.2 d hmem] at hopens
    cases hopens

/-- Every note of a second claim is one of the first. -/
theorem due_before {pass : Pass} {s' : Store}
    (hturns : Turns pass (due pass.projectPath s.store.notes) s.store hits s') {note' : Note}
    (hdue : note' ∈ due pass.projectPath s'.notes) :
    ∃ note ∈ due pass.projectPath s.store.notes, note'.id = note.id ∧
      (pass.Skips s.store note ↔ pass.Skips s' note') := by
  by_cases hold : ∃ note ∈ due pass.projectPath s.store.notes, note'.id = note.id
  · obtain ⟨note, hmem, hid⟩ := hold
    obtain ⟨other, hother, hid', hiff⟩ := skips_after hturns hmem
    have hget := (mem_due.mp hother).1
    rw [hid', ← hid, (mem_due.mp hdue).1] at hget
    cases hget
    exact ⟨note, hmem, hid, hiff⟩
  · obtain ⟨hget, hproject, htype, hstatus⟩ := mem_due.mp hdue
    rw [hturns.get_other fun note hnote heq => hold ⟨note, hnote, heq⟩] at hget
    exact absurd ⟨note', mem_due.mpr ⟨hget, hproject, htype, hstatus⟩, rfl⟩ hold

/-- A second claim under the fingerprint gives the same, whatever its pass. -/
theorem Fits.repeated (h : Fits s) {pass : Pass} {s' : Store}
    (hclaim : claimNoteDelivery pass s.store = .ok (hits, s')) (passId : String) (now : Int) :
    ∃ hits', claimNoteDelivery { pass with passId, nowMs := now } s' = .ok (hits', s') ∧
      (hits'.map Prod.snd).Perm (hits.map Prod.snd) := by
  have hturns := claim_turns h.unacked hclaim
  let again : Pass := { pass with passId, nowMs := now }
  have hready : ∀ note' ∈ due pass.projectPath s'.notes,
      again.Skips s' note' ∨ ∃ d, again.Has s' note'.id d := by
    intro note' hdue
    obtain ⟨note, hmem, hid, hiff⟩ := due_before hturns hdue
    by_cases hskips : pass.Skips s.store note
    · exact .inl (hiff.mp hskips)
    · exact .inr (hid ▸ hturns.has hmem hskips)
  obtain ⟨hits', s'', hclaim'⟩ : ∃ hits' s'', claimNoteDelivery again s' = .ok (hits', s'') := by
    refine claim_ok (hturns.unacked h.unacked) fun note' hdue hnone hskips => ?_
    obtain ⟨d, hhas⟩ := (hready note' hdue).resolve_left hskips
    exact absurd hhas (existing_eq_none hnone d)
  have hturns' := claim_turns (hturns.unacked h.unacked) hclaim'
  obtain rfl : s'' = s' := hturns'.same hready
  refine ⟨hits', hclaim', (List.perm_ext_iff_of_nodup hturns'.nodup hturns.nodup).mpr fun d => ?_⟩
  rw [hturns'.mem_hits (hturns.unique h.unique), hturns.mem_hits h.unique]
  constructor
  · rintro ⟨note', hdue, hskips, row, hhas, rfl⟩
    obtain ⟨note, hmem, hid, hiff⟩ := due_before hturns hdue
    exact ⟨note, hmem, fun hskips' => hskips (hiff.mp hskips'), row, hid ▸ hhas, rfl⟩
  · rintro ⟨note, hmem, hskips, row, hhas, rfl⟩
    obtain ⟨note', hdue, hid, hiff⟩ := skips_after hturns hmem
    exact ⟨note', hdue, fun hskips' => hskips (hiff.mpr hskips'), row, hid.symm ▸ hhas, rfl⟩

/-- A delivery that is open is given again. -/
theorem Fits.gives (h : Fits s) {pass : Pass} (hsmooth : Smooth s (.claim pass)) {row : DeliveryRow}
    (hmem : row ∈ s.store.deliveries) (hopen : row.isOpen = true)
    (hsession : row.sessionId = pass.sessionId)
    (hprint : row.deliveredPassFingerprint = pass.fingerprint)
    (hdue : ∃ note ∈ due pass.projectPath s.store.notes, note.id = row.noteId) :
    Offered s.store pass row.toNoteDelivery := by
  obtain ⟨note, hdue, hid⟩ := hdue
  obtain ⟨n, hget, hproject⟩ := h.placed row hmem
  obtain ⟨hget', hproject', -⟩ := mem_due.mp hdue
  rw [← hid, hget'] at hget
  cases hget
  have hhas : pass.Has s.store note.id row :=
    ⟨hmem, opens_iff.mpr ⟨hopen, hproject.symm.trans hproject', hsession, hid.symm⟩, hprint⟩
  have hskips : ¬ pass.Skips s.store note := fun hskips => by
    have hopens := hhas.2.1
    rw [hskips.2 row hmem] at hopens
    cases hopens
  obtain ⟨hits, s', hclaim⟩ := claim_ok h.unacked hsmooth
  have hturns := claim_turns h.unacked hclaim
  exact ⟨hits, s', hclaim, (hturns.mem_hits h.unique _).mpr
    ⟨note, hdue, hskips, row, ⟨hturns.mono hmem, hhas.2⟩, rfl⟩⟩

/-- Claims and settled passes leave dismissed notes alone. -/
theorem Fits.dismissed (h : Fits s) (hevent : ∀ e, event ≠ .edit e)
    (hdismissed : HasStatus s.store.notes id .dismissed) :
    (s.step event).store.notes.get id = s.store.notes.get id := by
  obtain ⟨n, hget, hstatus⟩ := hdismissed
  cases event with
  | edit e => exact absurd rfl (hevent e)
  | claim pass =>
    simp only [State.step]
    split
    · rfl
    · rename_i hits store hclaim
      obtain ⟨n', hget', hsurfaces⟩ := get_claim (claim_turns h.unacked hclaim) hget
      obtain rfl := hsurfaces.eq (hstatus ▸ nofun)
      exact hget'.trans hget.symm
  | ack project session passId now =>
    refine (get_setStatus project .surfaced now
      (nodup_deliveredNotes project session passId _) _ id).trans ?_
    simp [hget, hstatus]
  | nack project session passId now =>
    refine (get_setStatus project .ready now
      (nodup_deliveredNotes project session passId _) _ id).trans ?_
    simp [hget, hstatus]

/-! ## Runs -/

/-- What an event keeps, every part of a run keeps. -/
theorem run_induction {P : State → Prop} {start between : List Event}
    (h : SmoothRun (start ++ between)) (hstart : P (run start))
    (hstep : ∀ part event, part ++ [event] <+: between → Fits (run (start ++ part)) →
      P (run (start ++ part)) → P ((run (start ++ part)).step event)) :
    P (run (start ++ between)) := by
  induction between using List.reverseRecOn with
  | nil => rwa [List.append_nil]
  | append_singleton part event ih =>
    rw [← List.append_assoc] at h ⊢
    have hpart := h.prefix_of (List.prefix_append (start ++ part) [event])
    rw [run_concat]
    refine hstep part event (List.prefix_refl _) (fits_run hpart) (ih hpart fun part' event' hp => ?_)
    exact hstep part' event' (hp.trans (List.prefix_append _ _))

/-- The note that an edit has made ready waits. -/
theorem awaits_of_becomesReady {notes : Notes} {e : Edit} {project : String}
    (hready : becomesReady notes (notes.apply e) id = true)
    (hsmart : ∀ n, notes.get id = some n → n.type = .smart ∧ n.projectPath = project) :
    Awaits (notes.apply e) project id := by
  rw [becomesReady, Bool.and_eq_true] at hready
  cases hget : notes.get id with
  | none =>
    rw [hget] at hready
    cases hready.1
  | some n =>
    obtain ⟨n', hget', hmoves⟩ := moves_apply e hget
    rw [hget', Option.any_some, decide_eq_true_eq] at hready
    obtain ⟨htype, hproject⟩ := hsmart n hget
    exact ⟨n', hget', hmoves.type.trans htype, hmoves.projectPath.trans hproject, .inl hready.2⟩

theorem note_deliveries (events : List Event)
    (h : ∀ before event, before ++ [event] <+: events → Smooth (run before) event) :
    NoteDeliveries events where
  offered before edit between pass id hinitial hready hsmart hstatus hack := by
    have hbetween : SmoothRun (before ++ [.edit edit] ++ between) :=
      SmoothRun.prefix_of h ((List.prefix_append _ _).trans hinitial)
    refine Awaits.offered (fits_run hbetween) (h _ _ hinitial) ?_
    refine run_induction (P := fun s => Awaits s.store.notes pass.projectPath id) hbetween ?_
      fun part event hpart hfits hawaits => ?_
    · rw [run_concat] at hready ⊢
      exact awaits_of_becomesReady hready hsmart
    · refine hawaits.step hfits (fun status hs => ?_) fun session passId now heq => ?_
      · rw [← run_concat, List.append_assoc]
        exact hstatus _ hpart status hs
      · exact hack part session passId now (heq ▸ hpart)
  settled before project session passId now between pass id hinitial hdelivered hsession hedits := by
    have hbetween : SmoothRun (before ++ [.ack project session passId now] ++ between) :=
      SmoothRun.prefix_of h ((List.prefix_append _ _).trans hinitial)
    refine fun d hoffered => (fits_run hbetween).not_offered ?_ hoffered
    refine run_induction (P := fun s => (pass.sessionId, id) ∈ s.acknowledged) hbetween ?_
      fun part event hpart hfits hmem => ?_
    · rw [run_concat, hsession]
      exact List.mem_append_right _ (List.mem_map_of_mem (mem_deliveredNotes.mpr hdelivered))
    · refine mem_acknowledged_step hmem fun e heq => ?_
      subst heq
      rw [← run_concat]
      exact hedits part e hpart
  repeated before pass hits s' hinitial hclaim :=
    (fits_run (SmoothRun.prefix_of h hinitial)).repeated hclaim
  kept before pass between pass' hinitial hproject hsession hprint d hoffered row hrow heq hopen
      hdue := by
    have hbetween := SmoothRun.prefix_of h ((List.prefix_append _ _).trans hinitial)
    have hbefore : SmoothRun before := hbetween.prefix_of
      ((List.prefix_append before _).trans (List.prefix_append _ between))
    obtain ⟨hits, s', hclaim, hd⟩ := hoffered
    have hfits := fits_run hbefore
    obtain ⟨note, -, -, old, hhas, hold⟩ :=
      ((claim_turns hfits.unacked hclaim).mem_hits hfits.unique d).mp hd
    have hsame : row.toNoteDelivery = old.toNoteDelivery := heq.trans hold.symm
    rw [← heq] at hdue ⊢
    refine (fits_run hbetween).gives (h _ _ hinitial) hrow hopen ?_ ?_ (hproject ▸ hdue)
    · rw [hsame, hsession]
      exact (opens_iff.mp hhas.2.1).2.2.1
    · rw [hsame, hprint]
      exact hhas.2.2
  once before event between event' project session passId hinitial hevent hevent' hclaims := by
    have hbetween : SmoothRun (before ++ [event] ++ between) :=
      SmoothRun.prefix_of h ((List.prefix_append _ _).trans hinitial)
    have hsettled : Settled (run (before ++ [event] ++ between)).store project session passId := by
      refine run_induction (P := fun s => Settled s.store project session passId) hbetween ?_
        fun part event' hpart hfits hsettled => ?_
      · rw [run_concat]
        obtain ⟨-, rfl | rfl⟩ := hevent
        · exact settled_ack _
        · exact settled_nack _
      · refine hsettled.step hfits fun pass heq => hclaims pass ?_
        exact hpart.subset (heq ▸ List.mem_append_right _ (List.mem_singleton_self _))
    rw [run_concat]
    obtain ⟨-, rfl | rfl⟩ := hevent'
    · exact hsettled.settle.1
    · exact hsettled.settle.2
  dismissed before event hinitial hevent id hdismissed := by
    rw [run_concat]
    exact (fits_run (SmoothRun.prefix_of h ((List.prefix_append _ _).trans hinitial))).dismissed hevent
      hdismissed

namespace Sample

/-- One note, whose condition is found true. -/
def ready : List Event :=
  [.edit (.insert .smart "p" none "text" (some "condition") {} 0),
    .edit (.evaluate ⟨"p", 1, 0, true, none, none, none, none, 0⟩)]

def pass (fingerprint passId : String) : Pass := ⟨"p", "s", fingerprint, passId, 0⟩

/-- One session takes it, acknowledges it, and claims again. -/
def once : List Event := ready ++ [.claim (pass "f" "1"), .ack "p" "s" "1" 0, .claim (pass "g" "2")]

theorem note_deliveries_once : NoteDeliveries once := by
  refine note_deliveries once fun before event hinitial => ?_
  have hsmooth : ∀ i : Fin once.length, Smooth (run (once.take i)) once[i] := by decide +kernel
  have hlength : before.length < once.length := by
    simpa [Nat.succ_le_iff] using hinitial.length_le
  have hbefore : once.take before.length = before :=
    (List.prefix_iff_eq_take.mp ((List.prefix_append before [event]).trans hinitial)).symm
  have hevent : once[before.length] = event := by
    obtain ⟨rest, hrest⟩ := hinitial
    simp [← hrest]
  have hat := hsmooth ⟨before.length, hlength⟩
  simpa only [Fin.getElem_fin, hbefore, hevent] using hat

/-- A second pass takes the note as well, and the first one is refused. -/
def lost : List Event :=
  ready ++ [.claim (pass "f" "1"), .claim (pass "g" "2"), .nack "p" "s" "1" 0]

/-- The second is acknowledged, and the session claims again. -/
def late : List Event := lost ++ [.ack "p" "s" "2" 0] ++ [] ++ [.claim (pass "h" "3")]

theorem acknowledged_and_offered : ¬ NoteDeliveries late := by
  intro h
  have hdelivered : 1 ∈ deliveredNotes "p" "s" "2" (run lost).store := by
    decide +kernel
  have hclaim : ∃ d, Offered (run (lost ++ [.ack "p" "s" "2" 0] ++ [])).store (pass "h" "3") d ∧
      d.noteId = 1 := by
    have hhits : (claimNoteDelivery (pass "h" "3")
        (run (lost ++ [.ack "p" "s" "2" 0] ++ [])).store).toOption.any
        (fun p => decide (∃ d ∈ p.1.map Prod.snd, d.noteId = 1)) = true := by
      decide +kernel
    cases hclaim : claimNoteDelivery (pass "h" "3")
        (run (lost ++ [.ack "p" "s" "2" 0] ++ [])).store with
    | error e =>
      rw [hclaim] at hhits
      cases hhits
    | ok result =>
      rw [hclaim] at hhits
      obtain ⟨d, hd, hid⟩ := of_decide_eq_true hhits
      exact ⟨d, ⟨_, _, hclaim, hd⟩, hid⟩
  obtain ⟨d, hoffered, hid⟩ := hclaim
  refine h.settled lost "p" "s" "2" 0 [] (pass "h" "3") 1 (List.prefix_refl _)
    (mem_deliveredNotes.mp hdelivered) rfl (fun part edit hpart => ?_) d hoffered hid
  simp at hpart

end Sample

end MagicContext.Notes
