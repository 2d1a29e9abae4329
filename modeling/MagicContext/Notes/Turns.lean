import MagicContext.Notes.Delivery

/-!
# Turns of a claim

A claim goes through the notes that may be delivered, one after the other.  A note that has surfaced
is skipped unless the session has an open delivery of it; otherwise the note is given with the
delivery that is open under the fingerprint of the pass, or with a new one.  The turns of different
notes do not touch each other.

## What is here

* `Closes` — what settling does to the deliveries, and `get_setStatus`, what it does to the notes.
* `Skips`, `Turn` — what one turn does.
* `Turns` — all of them, with what they leave and what they give.
* `claimNotes_turns`, `claimNotes_ok` — a claim that succeeds is its turns, and it does where the
  tables take its deliveries.
-/

namespace MagicContext.Notes

open DeliveryRow Table

/-! ## Tables of deliveries -/

/-- What settling does: rows stay or are closed. -/
def Closes (t t' : Table DeliveryRow.key) : Prop :=
  ∀ d' ∈ t', ∃ d ∈ t, (d'.isOpen = true → d' = d) ∧ (d.isOpen = false → d'.isOpen = false) ∧
    d'.noteId = d.noteId ∧ d'.sessionId = d.sessionId ∧ d'.projectPath = d.projectPath ∧
    d'.deliveredPassFingerprint = d.deliveredPassFingerprint ∧ d'.deliveryId = d.deliveryId ∧
    d'.transformPassId = d.transformPassId

theorem Closes.refl (t : Table key) : Closes t t :=
  fun d hd => ⟨d, hd, fun _ => rfl, id, rfl, rfl, rfl, rfl, rfl, rfl⟩

theorem Closes.trans {t t' t'' : Table key} (h : Closes t t') (h' : Closes t' t'') :
    Closes t t'' := by
  intro d'' hd''
  obtain ⟨d', hd', hopen', hclosed', hnote', hsession', hproject', hprint', hid', hpass'⟩ :=
    h' d'' hd''
  obtain ⟨d, hd, hopen, hclosed, hnote, hsession, hproject, hprint, hid, hpass⟩ := h d' hd'
  refine ⟨d, hd, fun ho => ?_, fun hc => hclosed' (hclosed hc), hnote'.trans hnote,
    hsession'.trans hsession, hproject'.trans hproject, hprint'.trans hprint, hid'.trans hid,
    hpass'.trans hpass⟩
  obtain rfl := hopen' ho
  exact hopen ho

theorem closes_dispose (p : DeliveryRow → Bool) (disposition : Disposition) (ackedAt : Option Int)
    (t : Table key) : Closes t (dispose p disposition ackedAt t) := by
  intro d' hd'
  obtain ⟨d, hd, rfl⟩ := mem_update.mp hd'
  refine ⟨d, hd, ?_⟩
  split
  · exact ⟨nofun, fun _ => rfl, rfl, rfl, rfl, rfl, rfl, rfl⟩
  · exact ⟨fun _ => rfl, id, rfl, rfl, rfl, rfl, rfl, rfl⟩

variable {d : DeliveryRow} {id : Nat}

/-- What is disposed of is closed. -/
theorem not_open_dispose {p : DeliveryRow → Bool} {disposition : Disposition}
    {ackedAt : Option Int} {t : Table key} (h : d ∈ dispose p disposition ackedAt t)
    (hopen : d.isOpen = true) : p d = false := by
  obtain ⟨old, -, rfl⟩ := mem_update.mp h
  split at hopen
  · cases hopen
  · rename_i hp
    rw [if_neg hp]
    exact Bool.eq_false_iff.mpr hp

/-- The deliveries of some notes to a session are closed. -/
theorem closes_supersede (project session : String) (ids : List Nat) (t : Table key) :
    Closes t (ids.foldl (fun t id =>
        dispose (opens project session id) .superseded none t) t) ∧
      ∀ d ∈ ids.foldl (fun t id =>
        dispose (opens project session id) .superseded none t) t,
        ∀ id ∈ ids, d.opens project session id = false := by
  induction ids generalizing t with
  | nil => exact ⟨Closes.refl t, nofun⟩
  | cons first ids ih =>
    obtain ⟨hcloses, hclosed⟩ := ih (dispose (opens project session first) .superseded
      none t)
    refine ⟨(closes_dispose _ _ _ t).trans hcloses, fun d hd id hid => ?_⟩
    rcases List.mem_cons.mp hid with rfl | hid
    · by_contra hopens
      rw [Bool.not_eq_false] at hopens
      have hopen : d.isOpen = true := (Bool.and_eq_true_iff.mp hopens).1
      obtain ⟨old, hold, hsame, -⟩ := hcloses d hd
      obtain rfl := hsame hopen
      rw [not_open_dispose hold hopen] at hopens
      cases hopens
    · exact hclosed d hd id hid

theorem opens_iff {project session : String} :
    d.opens project session id = true ↔ d.isOpen = true ∧ d.projectPath = project ∧
      d.sessionId = session ∧ d.noteId = id := by
  rw [opens, Bool.and_eq_true, decide_eq_true_eq]

theorem ofPass_iff {project session passId : String} :
    d.ofPass project session passId = true ↔ d.isOpen = true ∧ d.projectPath = project ∧
      d.sessionId = session ∧ d.transformPassId = passId := by
  rw [ofPass, Bool.and_eq_true, decide_eq_true_eq]

/-! ## Statuses -/

/-- What a settled pass does to a note. -/
theorem get_setStatus (project : String) (status : NoteStatus) (now : Int) {ids : List Nat}
    (hids : ids.Nodup) (notes : Notes) (k : Nat) :
    (setStatus project status now ids notes).get k = (notes.get k).map fun n =>
      if k ∈ ids ∧ n.projectPath = project ∧ (n.status = .surfacing ∨ n.status = .surfaced) then
        { n.touched now with status, id := n.id }
      else n := by
  induction ids generalizing notes with
  | nil =>
    rw [show setStatus project status now [] notes = notes from rfl]
    simp
  | cons id ids ih =>
    obtain ⟨hid, hnodup⟩ := List.nodup_cons.mp hids
    rw [show setStatus project status now (id :: ids) notes = setStatus project status now ids
      (notes.updateRow id _ _) from rfl, ih hnodup, get_updateRow, Option.map_map]
    cases hk : notes.get k with
    | none => rfl
    | some n =>
      have hnk := id_of_get hk
      by_cases hkid : k = id
      · subst hkid
        simp [hnk, hid]
      · simp [hnk, hkid]

/-! ## One note of a claim -/

variable {pass : Pass} {note : Note} {s s' : Store} {hit : Option (Note × NoteDelivery)}

/-- An open delivery of the note under the fingerprint of the pass. -/
def Pass.Has (pass : Pass) (s : Store) (id : Nat) (d : DeliveryRow) : Prop :=
  d ∈ s.deliveries ∧ d.opens pass.projectPath pass.sessionId id = true ∧
    d.deliveredPassFingerprint = pass.fingerprint

theorem existing_eq_some (h : pass.existing note s = some d) : pass.Has s note.id d := by
  obtain ⟨hmem, hd⟩ := mem_select.mp (List.mem_of_head? h)
  rw [Bool.and_eq_true, decide_eq_true_eq] at hd
  exact ⟨hmem, hd⟩

theorem existing_eq_none (h : pass.existing note s = none) (d : DeliveryRow) :
    ¬ pass.Has s note.id d := by
  rintro ⟨hmem, hopens, hprint⟩
  have hselect : d ∈ s.deliveries.select fun d =>
      d.opens pass.projectPath pass.sessionId note.id &&
        decide (d.deliveredPassFingerprint = pass.fingerprint) :=
    mem_select.mpr ⟨hmem, by rw [hopens, hprint]; simp⟩
  rw [List.head?_eq_none_iff.mp h] at hselect
  cases hselect

/-- The note has surfaced, and the session has no open delivery of it. -/
def Pass.Skips (pass : Pass) (s : Store) (note : Note) : Prop :=
  note.status = .surfaced ∧ ∀ d ∈ s.deliveries,
    d.opens pass.projectPath pass.sessionId note.id = false

/-- What the turn of one note does. -/
inductive Turn (pass : Pass) (note : Note) (s : Store) :
    Option (Note × NoteDelivery) → Store → Prop
  | skip (h : pass.Skips s note) : Turn pass note s none s
  | old (d : DeliveryRow) (h : pass.Has s note.id d) (hskips : ¬ pass.Skips s note) :
      Turn pass note s (some (note, d.toNoteDelivery)) s
  | new (deliveries : Table DeliveryRow.key) (stored : Note)
      (hfree : ∀ d ∈ s.deliveries, ¬ (d.noteId = note.id ∧ d.sessionId = pass.sessionId ∧
        d.deliveredPassFingerprint = pass.fingerprint))
      (hskips : ¬ pass.Skips s note)
      (hinsert : s.deliveries.insert (pass.newRow note.id) = some deliveries) :
      Turn pass note s (some (stored, (pass.newRow note.id).toNoteDelivery))
        ⟨if note.status = .ready then pass.surfacing note s.notes else s.notes, deliveries⟩

/-- Open deliveries have not been acknowledged. -/
def Unacked (s : Store) : Prop := ∀ d ∈ s.deliveries, d.isOpen = true → d.ackedAt = none

/-- The turn finds the row as the claim has read it. -/
structure AsRead (pass : Pass) (s : Store) (note : Note) : Prop where
  get : s.notes.get note.id = some note
  project : note.projectPath = pass.projectPath

theorem AsRead.asRead (h : AsRead pass s note) (hready : note.status = .ready) :
    (s.notes.get note.id).any (pass.asRead note) = true := by
  rw [h.get, Option.any_some, Pass.asRead, decide_eq_true_eq]
  exact ⟨h.project, hready, rfl⟩

theorem skips_iff : note.status = .surfaced ∧
    s.deliveries.any (opens pass.projectPath pass.sessionId note.id) = false ↔
      pass.Skips s note := by
  rw [any_eq_false]
  rfl

theorem claimNote_turn (hread : AsRead pass s note) (hunacked : Unacked s)
    (h : pass.claimNote note s = .ok (hit, s')) : Turn pass note s hit s' := by
  unfold Pass.claimNote at h
  simp only at h
  split at h
  · rename_i hskips
    cases h
    exact .skip (skips_iff.mp hskips)
  · rename_i hturn
    have hskips := (not_congr skips_iff).mp hturn
    cases hexisting : pass.existing note s with
    | some d =>
      have hhas := existing_eq_some hexisting
      rw [hexisting] at h
      simp only [hunacked d hhas.1 (opens_iff.mp hhas.2.1).1, Option.isNone_none, if_true] at h
      cases h
      exact .old d hhas hskips
    | none =>
      rw [hexisting] at h
      simp only at h
      split at h
      · rename_i hstale
        rw [hread.asRead hstale.1] at hstale
        cases hstale.2
      · unfold Pass.record at h
        simp only at h
        split at h
        · cases h
        · rename_i hany
          have hfree : ∀ d ∈ s.deliveries, ¬ (d.noteId = note.id ∧ d.sessionId = pass.sessionId ∧
              d.deliveredPassFingerprint = pass.fingerprint) := fun d hd =>
            of_decide_eq_false (any_eq_false.mp (Bool.eq_false_iff.mpr hany) d hd)
          split at h
          · cases h
          · cases h
          · rename_i deliveries stored hinsert _
            cases h
            exact .new deliveries stored hfree hskips hinsert

/-- The turn succeeds where the tables take its delivery. -/
theorem claimNote_ok (hread : AsRead pass s note)
    (hfresh : pass.existing note s = none → ¬ pass.Skips s note → ∀ d ∈ s.deliveries,
      d.deliveryId ≠ (pass.newRow note.id).deliveryId ∧
        ¬ (d.noteId = note.id ∧ d.sessionId = pass.sessionId ∧
          d.deliveredPassFingerprint = pass.fingerprint)) :
    ∃ hit s', pass.claimNote note s = .ok (hit, s') := by
  unfold Pass.claimNote
  simp only
  split
  · exact ⟨_, _, rfl⟩
  · rename_i hturn
    have hskips := (not_congr skips_iff).mp hturn
    cases hexisting : pass.existing note s with
    | some d => exact ⟨_, _, rfl⟩
    | none =>
      simp only
      split
      · exact ⟨_, _, rfl⟩
      · have hrow := hfresh hexisting hskips
        have hunique : s.deliveries.any (fun d => decide (d.noteId = note.id ∧
            d.sessionId = pass.sessionId ∧ d.deliveredPassFingerprint = pass.fingerprint)) =
            false :=
          any_eq_false.mpr fun d hd => decide_eq_false (hrow d hd).2
        obtain ⟨deliveries, hinsert⟩ := insert_isSome (t := s.deliveries)
          (r := pass.newRow note.id) (get_eq_none.mpr fun d hd => (hrow d hd).1)
        obtain ⟨stored, hstored⟩ : ∃ stored, (if note.status = .ready then
            pass.surfacing note s.notes else s.notes).get note.id = some stored := by
          split
          · exact ⟨_, (get_updateRow _ _ _).trans (congrArg _ hread.get)⟩
          · exact ⟨note, hread.get⟩
        refine ⟨some (stored, (pass.newRow note.id).toNoteDelivery),
          ⟨if note.status = .ready then pass.surfacing note s.notes else s.notes, deliveries⟩, ?_⟩
        unfold Pass.record
        simp only [hunique, hinsert, hstored]
        rfl

/-- No two deliveries of a note to a session have one fingerprint. -/
def Unique (s : Store) : Prop := ∀ d ∈ s.deliveries, ∀ d' ∈ s.deliveries, d.noteId = d'.noteId →
  d.sessionId = d'.sessionId → d.deliveredPassFingerprint = d'.deliveredPassFingerprint → d = d'

section
variable (h : Turn pass note s hit s')
include h

/-- The deliveries after a turn. -/
theorem Turn.mem (hd : d ∈ s'.deliveries) :
    d ∈ s.deliveries ∨ (d = pass.newRow note.id ∧ ¬ pass.Skips s note ∧ ∀ d ∈ s.deliveries,
      ¬ (d.noteId = note.id ∧ d.sessionId = pass.sessionId ∧
        d.deliveredPassFingerprint = pass.fingerprint)) := by
  cases h with
  | skip h => exact .inl hd
  | old d h hskips => exact .inl hd
  | new deliveries stored hfree hskips hinsert =>
    exact ((mem_insert hinsert).mp hd).imp id fun heq => ⟨heq, hskips, hfree⟩

theorem Turn.mono (hd : d ∈ s.deliveries) : d ∈ s'.deliveries := by
  cases h with
  | skip h => exact hd
  | old d h hskips => exact hd
  | new deliveries stored hfree hskips hinsert => exact (mem_insert hinsert).mpr (.inl hd)

theorem Turn.unacked (hunacked : Unacked s) : Unacked s' := by
  intro d hd hopen
  rcases h.mem hd with hd | ⟨rfl, -⟩
  · exact hunacked d hd hopen
  · rfl

theorem Turn.unique (hunique : Unique s) : Unique s' := by
  intro d hd d' hd' hnote hsession hprint
  rcases h.mem hd with hd | ⟨rfl, -, hfree⟩
  · rcases h.mem hd' with hd' | ⟨rfl, -, hfree⟩
    · exact hunique d hd d' hd' hnote hsession hprint
    · exact absurd ⟨hnote, hsession, hprint⟩ (hfree d hd)
  · rcases h.mem hd' with hd' | ⟨rfl, -, -⟩
    · exact absurd ⟨hnote.symm, hsession.symm, hprint.symm⟩ (hfree d' hd')
    · rfl

/-- The deliveries of other notes stay as they are. -/
theorem Turn.mem_other (hne : d.noteId ≠ note.id) : d ∈ s'.deliveries ↔ d ∈ s.deliveries := by
  refine ⟨fun hd => (h.mem hd).resolve_right ?_, h.mono⟩
  rintro ⟨rfl, -⟩
  exact hne rfl

theorem Turn.has_other (hne : id ≠ note.id) (d : DeliveryRow) :
    pass.Has s' id d ↔ pass.Has s id d := by
  refine and_congr_left fun hd => ?_
  exact h.mem_other ((opens_iff.mp hd.1).2.2.2 ▸ hne)

theorem Turn.skips_other {other : Note} (hne : other.id ≠ note.id) :
    pass.Skips s' other ↔ pass.Skips s other := by
  refine and_congr_right fun _ => forall_congr' fun d => ?_
  by_cases hd : d.noteId = other.id
  · rw [h.mem_other (hd ▸ hne)]
  · have hclosed : d.opens pass.projectPath pass.sessionId other.id = false := by
      by_contra hopens
      exact hd (opens_iff.mp (Bool.not_eq_false _ ▸ hopens)).2.2.2
    simp [hclosed]

theorem Turn.get_other (hne : id ≠ note.id) : s'.notes.get id = s.notes.get id := by
  cases h with
  | skip h => rfl
  | old d h hskips => rfl
  | new deliveries stored hfree hskips hinsert =>
    split
    · rw [Pass.surfacing, get_updateRow]
      cases hid : s.notes.get id with
      | none => rfl
      | some n => simp [id_of_get hid, hne]
    · rfl

/-- The note is as it was, or was ready and is surfacing. -/
def Surfaces (n n' : Note) : Prop :=
  n' = n ∨ (n.status = .ready ∧ n'.status = .surfacing ∧ n'.type = n.type ∧
    n'.projectPath = n.projectPath ∧ n'.id = n.id)

theorem Turn.get_self (hread : AsRead pass s note) :
    ∃ n', s'.notes.get note.id = some n' ∧ Surfaces note n' := by
  cases h with
  | skip h => exact ⟨note, hread.get, .inl rfl⟩
  | old d h hskips => exact ⟨note, hread.get, .inl rfl⟩
  | new deliveries stored hfree hskips hinsert =>
    split
    · rename_i hready
      refine ⟨_, (get_updateRow _ _ _).trans (congrArg _ hread.get), ?_⟩
      simp only
      split
      · exact .inr ⟨hready, rfl, rfl, rfl, rfl⟩
      · exact .inl rfl
    · exact ⟨note, hread.get, .inl rfl⟩

end

/-! ## All notes of a claim -/

/-- The turns of a claim, one after the other. -/
inductive Turns (pass : Pass) : List Note → Store → List (Note × NoteDelivery) → Store → Prop
  | nil (first : Store) : Turns pass [] first [] first
  | cons {note : Note} {rest : List Note} {s s' s'' : Store} {hit : Option (Note × NoteDelivery)}
      {hits : List (Note × NoteDelivery)} (hread : AsRead pass s note) (h : Turn pass note s hit s')
      (hother : ∀ other ∈ rest, other.id ≠ note.id) (hrest : Turns pass rest s' hits s'') :
      Turns pass (note :: rest) s (hit.toList ++ hits) s''

theorem AsRead.other (h : AsRead pass s note) {other : Note} (hturn : Turn pass other s hit s')
    (hne : note.id ≠ other.id) : AsRead pass s' note :=
  ⟨(hturn.get_other hne).trans h.get, h.project⟩

theorem claimNotes_turns {l : List Note} {hits : List (Note × NoteDelivery)}
    (hread : ∀ note ∈ l, AsRead pass s note) (hnodup : (l.map Note.id).Nodup) (hunacked : Unacked s)
    (h : pass.claimNotes l s = .ok (hits, s')) : Turns pass l s hits s' := by
  induction l generalizing s hits with
  | nil =>
    cases h
    exact .nil _
  | cons note rest ih =>
    obtain ⟨hhead, hrest⟩ := List.nodup_cons.mp hnodup
    have hother : ∀ other ∈ rest, other.id ≠ note.id := fun other hmem heq =>
      hhead (heq ▸ List.mem_map_of_mem hmem)
    unfold Pass.claimNotes at h
    split at h
    · cases h
    · rename_i hit s₁ hclaim
      have hturn := claimNote_turn (hread note List.mem_cons_self) hunacked hclaim
      split at h
      · cases h
      · rename_i hits₁ s₂ hclaims
        cases h
        refine .cons (hread note List.mem_cons_self) hturn hother (ih ?_ hrest ?_ hclaims)
        · exact fun other hmem =>
            (hread other (List.mem_cons_of_mem _ hmem)).other hturn (hother other hmem)
        · exact hturn.unacked hunacked

/-- The tables take the delivery of a note. -/
def Takes (pass : Pass) (s : Store) (note : Note) : Prop :=
  pass.existing note s = none → ¬ pass.Skips s note → ∀ d ∈ s.deliveries,
    d.deliveryId ≠ (pass.newRow note.id).deliveryId ∧
      ¬ (d.noteId = note.id ∧ d.sessionId = pass.sessionId ∧
        d.deliveredPassFingerprint = pass.fingerprint)

theorem existing_eq_none_iff : pass.existing note s = none ↔ ∀ d, ¬ pass.Has s note.id d := by
  refine ⟨existing_eq_none, fun h => ?_⟩
  by_contra hsome
  obtain ⟨d, hd⟩ := Option.ne_none_iff_exists'.mp hsome
  exact h d (existing_eq_some hd)

theorem deliveryId_ne {id id' : Nat} (h : id ≠ id') :
    (pass.newRow id).deliveryId ≠ (pass.newRow id').deliveryId := fun heq =>
  h (Text.toString_nat_inj ((String.append_right_inj _).mp heq))

/-- A turn takes no other note's delivery away. -/
theorem Takes.other {other : Note} (h : Takes pass s other) (hturn : Turn pass note s hit s')
    (hne : other.id ≠ note.id) : Takes pass s' other := by
  intro hnone hskips d hd
  have hnone' : pass.existing other s = none :=
    existing_eq_none_iff.mpr fun d hhas =>
      existing_eq_none_iff.mp hnone d ((hturn.has_other hne d).mpr hhas)
  have hskips' : ¬ pass.Skips s other := fun h => hskips ((hturn.skips_other hne).mpr h)
  rcases hturn.mem hd with hd | ⟨rfl, -⟩
  · exact h hnone' hskips' d hd
  · exact ⟨deliveryId_ne hne.symm, fun heq => hne heq.1.symm⟩

theorem claimNotes_ok {l : List Note} (hread : ∀ note ∈ l, AsRead pass s note)
    (hnodup : (l.map Note.id).Nodup) (hunacked : Unacked s) (htakes : ∀ note ∈ l, Takes pass s note) :
    ∃ hits s', pass.claimNotes l s = .ok (hits, s') := by
  induction l generalizing s with
  | nil => exact ⟨_, _, rfl⟩
  | cons note rest ih =>
    obtain ⟨hhead, hrest⟩ := List.nodup_cons.mp hnodup
    have hother : ∀ other ∈ rest, other.id ≠ note.id := fun other hmem heq =>
      hhead (heq ▸ List.mem_map_of_mem hmem)
    obtain ⟨hit, s₁, hclaim⟩ := claimNote_ok (hread note List.mem_cons_self)
      (htakes note List.mem_cons_self)
    have hturn := claimNote_turn (hread note List.mem_cons_self) hunacked hclaim
    obtain ⟨hits, s₂, hclaims⟩ := ih
      (fun other hmem => (hread other (List.mem_cons_of_mem _ hmem)).other hturn (hother other hmem))
      hrest (hturn.unacked hunacked)
      (fun other hmem => (htakes other (List.mem_cons_of_mem _ hmem)).other hturn (hother other hmem))
    refine ⟨hit.toList ++ hits, s₂, ?_⟩
    unfold Pass.claimNotes
    simp only [hclaim, hclaims]

section Turns

variable {l : List Note} {hits : List (Note × NoteDelivery)}

section
variable (h : Turns pass l s hits s')
include h

theorem Turns.unacked (hunacked : Unacked s) : Unacked s' := by
  induction h with
  | nil => exact hunacked
  | cons _ hturn _ _ ih => exact ih (hturn.unacked hunacked)

theorem Turns.unique (hunique : Unique s) : Unique s' := by
  induction h with
  | nil => exact hunique
  | cons _ hturn _ _ ih => exact ih (hturn.unique hunique)

theorem Turns.mono (hd : d ∈ s.deliveries) : d ∈ s'.deliveries := by
  induction h with
  | nil => exact hd
  | cons _ hturn _ _ ih => exact ih (hturn.mono hd)

/-- A delivery that is new is of a note that was not skipped. -/
theorem Turns.mem (hd : d ∈ s'.deliveries) :
    d ∈ s.deliveries ∨ ∃ note ∈ l, d = pass.newRow note.id ∧ ¬ pass.Skips s note := by
  induction h with
  | nil => exact .inl hd
  | cons hread hturn hother hrest ih =>
    rcases ih hd with hmid | ⟨note, hnote, heq, hskips⟩
    · rcases hturn.mem hmid with hold | ⟨heq, hskips, -⟩
      · exact .inl hold
      · exact .inr ⟨_, List.mem_cons_self, heq, hskips⟩
    · refine .inr ⟨note, List.mem_cons_of_mem _ hnote, heq, fun h => hskips ?_⟩
      exact (hturn.skips_other (hother note hnote)).mpr h

theorem Turns.get_other (hne : ∀ note ∈ l, id ≠ note.id) : s'.notes.get id = s.notes.get id := by
  induction h with
  | nil => rfl
  | cons _ hturn _ _ ih =>
    exact (ih fun note hnote => hne note (List.mem_cons_of_mem _ hnote)).trans
      (hturn.get_other (hne _ List.mem_cons_self))

theorem Turns.get_self (hnote : note ∈ l) (hread : s.notes.get note.id = some note) :
    ∃ n', s'.notes.get note.id = some n' ∧ Surfaces note n' := by
  induction h with
  | nil => cases hnote
  | cons hfirst hturn hother hrest ih =>
    rcases List.mem_cons.mp hnote with rfl | hmem
    · obtain ⟨n', hget, hsurfaces⟩ := hturn.get_self hfirst
      exact ⟨n', (hrest.get_other fun other hmem => (hother other hmem).symm).trans hget, hsurfaces⟩
    · exact ih hmem ((hturn.get_other (hother note hmem)).trans hread)

theorem Turns.has_other (hne : ∀ note ∈ l, id ≠ note.id)
    (d : DeliveryRow) : pass.Has s' id d ↔ pass.Has s id d := by
  induction h with
  | nil => exact Iff.rfl
  | cons _ hturn _ _ ih =>
    exact (ih fun note hnote => hne note (List.mem_cons_of_mem _ hnote)).trans
      (hturn.has_other (hne _ List.mem_cons_self) d)

/-- The deliveries that a claim gives are the open ones of the notes that it does not skip. -/
theorem Turns.mem_hits (hunique : Unique s) (d : NoteDelivery) :
    d ∈ hits.map Prod.snd ↔ ∃ note ∈ l, ¬ pass.Skips s note ∧
      ∃ row, pass.Has s' note.id row ∧ row.toNoteDelivery = d := by
  induction h with
  | nil => simp
  | @cons first rest s s₁ s₂ hit hits hread hturn hother hrest ih =>
    have hkeep : ∀ row, pass.Has s₂ first.id row ↔ pass.Has s₁ first.id row :=
      hrest.has_other fun other hmem => (hother other hmem).symm
    rw [List.map_append, List.mem_append, ih (hturn.unique hunique)]
    have htail : (∃ note ∈ rest, ¬ pass.Skips s₁ note ∧
        ∃ row, pass.Has s₂ note.id row ∧ row.toNoteDelivery = d) ↔
        ∃ note ∈ rest, ¬ pass.Skips s note ∧
          ∃ row, pass.Has s₂ note.id row ∧ row.toNoteDelivery = d :=
      exists_congr fun note => and_congr_right fun hmem =>
        and_congr_left fun _ => not_congr (hturn.skips_other (hother note hmem))
    have hhead : d ∈ hit.toList.map Prod.snd ↔ ¬ pass.Skips s first ∧
        ∃ row, pass.Has s₂ first.id row ∧ row.toNoteDelivery = d := by
      simp only [hkeep]
      cases hturn with
      | skip hskips => simp [hskips]
      | old row hhas hskips =>
        simp only [Option.toList_some, List.map_cons, List.map_nil, List.mem_singleton]
        refine ⟨fun heq => ⟨hskips, row, hhas, heq.symm⟩, fun ⟨_, other, hother', heq⟩ => ?_⟩
        obtain ⟨hmem, hopens, hprint⟩ := hhas
        obtain ⟨hmem', hopens', hprint'⟩ := hother'
        obtain ⟨-, -, hsession, hnote⟩ := opens_iff.mp hopens
        obtain ⟨-, -, hsession', hnote'⟩ := opens_iff.mp hopens'
        rw [← heq, hunique row hmem other hmem' (hnote.trans hnote'.symm)
          (hsession.trans hsession'.symm) (hprint.trans hprint'.symm)]
      | new deliveries stored hfree hskips hinsert =>
        simp only [Option.toList_some, List.map_cons, List.map_nil, List.mem_singleton]
        have hnew : pass.Has ⟨if first.status = .ready then pass.surfacing first s.notes
            else s.notes, deliveries⟩ first.id (pass.newRow first.id) :=
          ⟨(mem_insert hinsert).mpr (.inr rfl), opens_iff.mpr ⟨rfl, rfl, rfl, rfl⟩, rfl⟩
        refine ⟨fun heq => ⟨hskips, _, hnew, heq.symm⟩, fun ⟨_, row, hhas, heq⟩ => ?_⟩
        obtain ⟨hmem, hopens, hprint⟩ := hhas
        rcases (mem_insert hinsert).mp hmem with hold | rfl
        · obtain ⟨-, -, hsession, hnote⟩ := opens_iff.mp hopens
          exact absurd ⟨hnote, hsession, hprint⟩ (hfree row hold)
        · exact heq.symm
    rw [hhead, htail, List.exists_mem_cons_iff]

/-- A note that is not skipped has an open delivery afterwards. -/
theorem Turns.has (hnote : note ∈ l) (hskips : ¬ pass.Skips s note) :
    ∃ d, pass.Has s' note.id d := by
  induction h with
  | nil => cases hnote
  | @cons first rest s s₁ s₂ hit hits hread hturn hother hrest ih =>
    rcases List.mem_cons.mp hnote with rfl | hmem
    · have hkeep : ∀ row, pass.Has s₂ note.id row ↔ pass.Has s₁ note.id row :=
        hrest.has_other fun other hmem => (hother other hmem).symm
      simp only [hkeep]
      cases hturn with
      | skip h => exact absurd h hskips
      | old row hhas => exact ⟨row, hhas⟩
      | new deliveries stored hfree _ hinsert =>
        exact ⟨_, (mem_insert hinsert).mpr (.inr rfl), opens_iff.mpr ⟨rfl, rfl, rfl, rfl⟩, rfl⟩
    · exact ih hmem fun h => hskips ((hturn.skips_other (hother note hmem)).mp h)

/-- Where every note is skipped or has its delivery, a claim changes nothing. -/
theorem Turns.same (hhas : ∀ note ∈ l, pass.Skips s note ∨ ∃ d, pass.Has s note.id d) : s' = s := by
  induction h with
  | nil => rfl
  | @cons first rest s s₁ s₂ hit hits hread hturn hother hrest ih =>
    have hsame : s₁ = s := by
      cases hturn with
      | skip h => rfl
      | old row h => rfl
      | new deliveries stored hfree hskips hinsert =>
        rcases hhas first List.mem_cons_self with h | ⟨d, hmem, hopens, hprint⟩
        · exact absurd h hskips
        · obtain ⟨-, -, hsession, hnote⟩ := opens_iff.mp hopens
          exact absurd ⟨hnote, hsession, hprint⟩ (hfree d hmem)
    subst hsame
    exact ih fun note hnote => hhas note (List.mem_cons_of_mem _ hnote)

/-- No delivery is given twice. -/
theorem Turns.nodup : (hits.map Prod.snd).Nodup := by
  suffices hsub : ((hits.map Prod.snd).map NoteDelivery.noteId).Sublist (l.map Note.id) ∧
      (l.map Note.id).Nodup from List.Nodup.of_map _ (hsub.2.sublist hsub.1)
  induction h with
  | nil => exact ⟨List.Sublist.refl _, List.nodup_nil⟩
  | @cons first rest s s₁ s₂ hit hits hread hturn hother hrest ih =>
    obtain ⟨hsub, hnodup⟩ := ih
    refine ⟨?_, ?_⟩
    · rw [List.map_append, List.map_append]
      cases hturn with
      | skip h => exact hsub.cons _
      | old row hhas =>
        have hid := (opens_iff.mp hhas.2.1).2.2.2
        simp only [Option.toList_some, List.map_cons, List.map_nil, List.singleton_append, hid]
        exact hsub.cons_cons _
      | new deliveries stored => exact hsub.cons_cons _
    · refine List.nodup_cons.mpr ⟨fun hmem => ?_, hnodup⟩
      obtain ⟨other, hother', heq⟩ := List.mem_map.mp hmem
      exact hother other hother' heq

end

end Turns

/-! ## Notes that may be delivered -/

section Due

variable {project : String} {notes : Notes}

theorem mem_due : note ∈ due project notes ↔ notes.get note.id = some note ∧
    note.projectPath = project ∧ note.type = .smart ∧
    (note.status = .ready ∨ note.status = .surfacing ∨ note.status = .surfaced) := by
  rw [due, List.mem_mergeSort, mem_select, decide_eq_true_eq]
  refine and_congr_left fun _ => ⟨fun h => get_key h, fun h => (get_eq_some.mp h).1⟩

theorem nodup_due (project : String) (notes : Notes) : ((due project notes).map Note.id).Nodup := by
  rw [due, (List.Perm.map _ (List.mergeSort_perm _ _)).nodup_iff]
  exact notes.rows.unique.sublist (List.filter_sublist.map _)

theorem asRead_of_due (h : note ∈ due pass.projectPath s.notes) : AsRead pass s note :=
  ⟨(mem_due.mp h).1, (mem_due.mp h).2.1⟩

end Due

/-- A claim that succeeds. -/
theorem claim_turns {hits : List (Note × NoteDelivery)} (hunacked : Unacked s)
    (h : claimNoteDelivery pass s = .ok (hits, s')) :
    Turns pass (due pass.projectPath s.notes) s hits s' :=
  claimNotes_turns (fun _ => asRead_of_due) (nodup_due _ _) hunacked h

theorem claim_ok (hunacked : Unacked s)
    (htakes : ∀ note ∈ due pass.projectPath s.notes, Takes pass s note) :
    ∃ hits s', claimNoteDelivery pass s = .ok (hits, s') :=
  claimNotes_ok (fun _ => asRead_of_due) (nodup_due _ _) hunacked htakes

end MagicContext.Notes
