import MagicContext.Notes.Evaluation

/-!
# Leases

A claim on a note keeps what it was made from, and once it is terminal it keeps its terminal result,
except that the response is redacted, until its row goes.  All calls but the acquisitions leave the
acquisition id of a claim alone and make no claim active; they keep the ledgers sound for free.

## What is here

* `Evolves`, `Ages` — what may become of a claim.
* `Quiet` — what most calls do to the claims, and that they do only that.
* `Sound` — the invariant of the ledgers, and that quiet calls keep it.
* `Acquired`, `acquire_cases` — what an acquisition does, in sound ledgers and without an
  acquisition id that was taken from a claim.
-/

namespace MagicContext.Notes

open Claims (AuthorityKey AuthorityRow AuthorityEntry Platform)

/-! ## Claims -/

variable {now : Int}

namespace EvalClaim

/-- It is the same claim, and if it was terminal it still is. -/
structure Evolves (c c' : EvalClaim) : Prop where
  claimId : c'.claimId = c.claimId
  project : c'.project = c.project
  noteId : c'.noteId = c.noteId
  evaluatorInstance : c'.evaluatorInstance = c.evaluatorInstance
  evaluatorSlot : c'.evaluatorSlot = c.evaluatorSlot
  sourceRevision : c'.sourceRevision = c.sourceRevision
  stateVersion : c'.stateVersion = c.stateVersion
  authorityGeneration : c'.authorityGeneration = c.authorityGeneration
  createdAtMs : c'.createdAtMs = c.createdAtMs
  terminal : ∀ t, c.terminal = some t → c'.completionId = c.completionId ∧
    c'.acquisitionId = c.acquisitionId ∧ ∃ t', c'.terminal = some t' ∧ t'.kind = t.kind ∧
      t'.atMs = t.atMs ∧ (t'.response = t.response ∨ t'.response = none)

theorem Evolves.refl (c : EvalClaim) : c.Evolves c :=
  ⟨rfl, rfl, rfl, rfl, rfl, rfl, rfl, rfl, rfl, fun t h => ⟨rfl, rfl, t, h, rfl, rfl, .inl rfl⟩⟩

theorem Evolves.trans {c c' c'' : EvalClaim} (h : c.Evolves c') (h' : c'.Evolves c'') :
    c.Evolves c'' where
  claimId := h'.claimId.trans h.claimId
  project := h'.project.trans h.project
  noteId := h'.noteId.trans h.noteId
  evaluatorInstance := h'.evaluatorInstance.trans h.evaluatorInstance
  evaluatorSlot := h'.evaluatorSlot.trans h.evaluatorSlot
  sourceRevision := h'.sourceRevision.trans h.sourceRevision
  stateVersion := h'.stateVersion.trans h.stateVersion
  authorityGeneration := h'.authorityGeneration.trans h.authorityGeneration
  createdAtMs := h'.createdAtMs.trans h.createdAtMs
  terminal := by
    intro t ht
    obtain ⟨hcompletion, hacquisition, t', ht', hkind, hat, hresponse⟩ := h.terminal t ht
    obtain ⟨hcompletion', hacquisition', t'', ht'', hkind', hat', hresponse'⟩ := h'.terminal t' ht'
    refine ⟨hcompletion'.trans hcompletion, hacquisition'.trans hacquisition, t'', ht'',
      hkind'.trans hkind, hat'.trans hat, ?_⟩
    rcases hresponse' with heq | hnone
    · rw [heq]
      exact hresponse
    · exact .inr hnone

/-- It evolves, and if it becomes terminal it does so now. -/
structure Ages (now : Int) (c c' : EvalClaim) : Prop extends c.Evolves c' where
  stamp : c.terminal = none → ∀ t, c'.terminal = some t → t.atMs = now

theorem Ages.refl (c : EvalClaim) : Ages now c c :=
  ⟨Evolves.refl c, fun h t ht => by rw [h] at ht; cases ht⟩

theorem Ages.trans {c c' c'' : EvalClaim} (h : Ages now c c') (h' : Ages now c' c'') :
    Ages now c c'' where
  toEvolves := h.toEvolves.trans h'.toEvolves
  stamp := by
    intro hnone t ht
    cases hmid : c'.terminal with
    | none => exact h'.stamp hmid t ht
    | some t' =>
      obtain ⟨-, -, t'', ht'', -, hat, -⟩ := h'.terminal t' hmid
      cases ht.symm.trans ht''
      exact hat.trans (h.stamp hnone t' hmid)

/-- The claim has been terminal for as long as terminal claims are kept. -/
def Outlived (now : Int) (c : EvalClaim) : Prop :=
  ∃ t, c.terminal = some t ∧ t.atMs + terminalRetentionMs ≤ now

theorem Outlived.of_ages {c c' : EvalClaim} (h : Ages now c c') (houtlived : c'.Outlived now) :
    c.Outlived now := by
  obtain ⟨t', ht', hat'⟩ := houtlived
  cases hc : c.terminal with
  | none =>
    rw [h.stamp hc t' ht', terminalRetentionMs] at hat'
    omega
  | some t =>
    obtain ⟨-, -, t'', ht'', -, hat, -⟩ := h.terminal t hc
    cases ht'.symm.trans ht''
    exact ⟨t, hc, hat ▸ hat'⟩

theorem active_iff {c : EvalClaim} :
    c.active = true ↔ c.terminal = none := Option.isNone_iff_eq_none

end EvalClaim

open EvalClaim (Ages Outlived active_iff)

/-! ## Tables of claims -/

/-- Claims age or go, and keep their acquisition ids; none becomes active. -/
structure Quiet (now : Int) (t t' : Table EvalClaim.claimId) : Prop where
  kept : ∀ c ∈ t, (∃ c' ∈ t', Ages now c c') ∨ c.Outlived now
  origin : ∀ c' ∈ t', ∃ c ∈ t, Ages now c c' ∧ c'.acquisitionId = c.acquisitionId ∧
    (c'.active = true → c.active = true)

variable {t t' t'' : Table EvalClaim.claimId}

theorem Quiet.refl (t : Table EvalClaim.claimId) : Quiet now t t :=
  ⟨fun c hc => .inl ⟨c, hc, Ages.refl c⟩, fun c hc => ⟨c, hc, Ages.refl c, rfl, id⟩⟩

theorem Quiet.trans (h : Quiet now t t') (h' : Quiet now t' t'') : Quiet now t t'' where
  kept := by
    intro c hc
    rcases h.kept c hc with ⟨c', hc', hages⟩ | houtlived
    · rcases h'.kept c' hc' with ⟨c'', hc'', hages'⟩ | houtlived
      · exact .inl ⟨c'', hc'', hages.trans hages'⟩
      · exact .inr (houtlived.of_ages hages)
    · exact .inr houtlived
  origin := by
    intro c'' hc''
    obtain ⟨c', hc', hages', hacquisition', hactive'⟩ := h'.origin c'' hc''
    obtain ⟨c, hc, hages, hacquisition, hactive⟩ := h.origin c' hc'
    exact ⟨c, hc, hages.trans hages', hacquisition'.trans hacquisition, hactive ∘ hactive'⟩

variable {p : EvalClaim → Bool}

theorem Quiet.update {f : EvalClaim → EvalClaim}
    {hf : ∀ c, (f c).claimId = c.claimId} (h : ∀ c, p c = true → Ages now c (f c) ∧
      (f c).acquisitionId = c.acquisitionId ∧ ((f c).active = true → c.active = true)) :
    Quiet now t (t.update p f hf) where
  kept := by
    intro c hc
    refine .inl ⟨_, Table.mem_update.mpr ⟨c, hc, rfl⟩, ?_⟩
    split
    · rename_i hp
      exact (h c hp).1
    · exact Ages.refl c
  origin := by
    intro c' hc'
    obtain ⟨c, hc, rfl⟩ := Table.mem_update.mp hc'
    refine ⟨c, hc, ?_⟩
    split
    · rename_i hp
      exact h c hp
    · exact ⟨Ages.refl c, rfl, id⟩

theorem Quiet.delete (h : ∀ c, p c = true → c.Outlived now) : Quiet now t (t.delete p) where
  kept := by
    intro c hc
    cases hp : p c with
    | false => exact .inl ⟨c, Table.mem_delete.mpr ⟨hc, hp⟩, Ages.refl c⟩
    | true => exact .inr (h c hp)
  origin := fun c hc => ⟨c, (Table.mem_delete.mp hc).1, Ages.refl c, rfl, id⟩

theorem mem_endWhere {kind : TerminalKind} {response : Response}
    {completionId : Option String} {c' : EvalClaim} :
    c' ∈ endWhere p kind response completionId now t ↔ ∃ c ∈ t,
      c' = if c.active && p c then c.end kind response completionId now else c :=
  Table.mem_update

/-- Only active claims become terminal. -/
theorem quiet_endWhere (p : EvalClaim → Bool) (kind : TerminalKind) (response : Response)
    (completionId : Option String) : Quiet now t (endWhere p kind response completionId now t) := by
  refine Quiet.update fun c hp => ?_
  have hnone := active_iff.mp (Bool.and_eq_true_iff.mp hp).1
  refine ⟨⟨⟨rfl, rfl, rfl, rfl, rfl, rfl, rfl, rfl, rfl, fun t ht => ?_⟩, fun _ t ht => ?_⟩, rfl, ?_⟩
  · rw [hnone] at ht
    cases ht
  · cases ht
    rfl
  · intro hactive
    cases hactive

theorem quiet_redact (project : String) : Quiet now t (Ledgers.redact project now t) := by
  refine Quiet.update fun c _ => ?_
  refine ⟨⟨⟨rfl, rfl, rfl, rfl, rfl, rfl, rfl, rfl, rfl, fun t ht => ?_⟩, fun hnone t ht => ?_⟩, rfl, ?_⟩
  · exact ⟨rfl, rfl, { t with response := none }, by simp only [ht, Option.map_some], rfl, rfl, .inr rfl⟩
  · rw [hnone] at ht
    cases ht
  · intro hactive
    rw [active_iff, Option.map_eq_none_iff] at hactive
    exact active_iff.mpr hactive

theorem quiet_collect (s : Ledgers) (project : String) :
    Quiet now s.claims (s.collect project now).claims := by
  refine (quiet_endWhere _ _ _ _).trans ((quiet_redact project).trans (Quiet.delete fun c hp => ?_))
  obtain ⟨t, ht, hat⟩ := (Option.any_eq_true _ _).mp (Bool.and_eq_true_iff.mp hp).2
  rw [decide_eq_true_eq] at hat
  exact ⟨t, ht, by omega⟩

/-! ## Sound ledgers -/

namespace Ledgers

structure Sound (s : Ledgers) (now : Int) : Prop where
  acquisition : ∀ c ∈ s.claims, ∀ c' ∈ s.claims, c.project = c'.project →
    c.acquisitionId = c'.acquisitionId → c = c'
  note : ∀ c ∈ s.claims, ∀ c' ∈ s.claims, c.active = true → c'.active = true →
    c.noteId = c'.noteId → c = c'
  slot : ∀ c ∈ s.claims, ∀ c' ∈ s.claims, c.active = true → c'.active = true →
    c.project = c'.project → c.evaluatorInstance = c'.evaluatorInstance →
    c.evaluatorSlot = c'.evaluatorSlot → c = c'
  placed : ∀ c ∈ s.claims, c.active = true →
    ∃ n, s.notes.get c.noteId = some n ∧ n.projectPath = c.project
  authority : ∀ c ∈ s.claims, c.active = true → (s.moduleAuthority c.project).isSome
  undecided : ∀ c ∈ s.claims, s.acquisitions.get (c.project, c.acquisitionId) = none
  clock : ∀ c ∈ s.claims, c.createdAtMs ≤ now ∧
    ∀ t, c.terminal = some t → c.createdAtMs ≤ t.atMs ∧ t.atMs ≤ now

variable {s s' : Ledgers} {before : Int}

theorem sound_start (notes : Notes) (authority : Table AuthorityEntry.key) :
    Sound { notes, authority } now where
  acquisition _ hc := absurd hc List.not_mem_nil
  note _ hc := absurd hc List.not_mem_nil
  slot _ hc := absurd hc List.not_mem_nil
  placed _ hc := absurd hc List.not_mem_nil
  authority _ hc := absurd hc List.not_mem_nil
  undecided _ hc := absurd hc List.not_mem_nil
  clock _ hc := absurd hc List.not_mem_nil

theorem Sound.later (h : s.Sound before) (hnow : before ≤ now) : s.Sound now :=
  { h with
    clock := fun c hc => ⟨(h.clock c hc).1.trans hnow, fun t ht =>
      ⟨((h.clock c hc).2 t ht).1, ((h.clock c hc).2 t ht).2.trans hnow⟩⟩ }

/-- What the clock says of a claim that ages. -/
theorem clock_ages {c c' : EvalClaim} (h : Ages now c c')
    (hclock : c.createdAtMs ≤ now ∧
      ∀ t, c.terminal = some t → c.createdAtMs ≤ t.atMs ∧ t.atMs ≤ now) :
    c'.createdAtMs ≤ now ∧ ∀ t, c'.terminal = some t → c'.createdAtMs ≤ t.atMs ∧ t.atMs ≤ now := by
  rw [h.createdAtMs]
  refine ⟨hclock.1, fun t ht => ?_⟩
  cases hc : c.terminal with
  | none =>
    rw [h.stamp hc t ht]
    exact ⟨hclock.1, le_refl _⟩
  | some t₀ =>
    obtain ⟨-, -, t', ht', -, hat, -⟩ := h.terminal t₀ hc
    cases ht.symm.trans ht'
    rw [hat]
    exact hclock.2 t₀ hc

/-- A quiet call keeps the ledgers sound. -/
theorem Sound.quiet (h : s.Sound now) (hquiet : Quiet now s.claims s'.claims)
    (hacquisitions : ∀ k, s.acquisitions.get k = none → s'.acquisitions.get k = none)
    (hplaced : ∀ c ∈ s'.claims, c.active = true →
      ∃ n, s'.notes.get c.noteId = some n ∧ n.projectPath = c.project)
    (hauthority : ∀ c ∈ s'.claims, c.active = true → (s'.moduleAuthority c.project).isSome) :
    s'.Sound now where
  acquisition := by
    intro c₁' hc₁' c₂' hc₂' hproject hacquisition
    obtain ⟨c₁, hc₁, hages₁, hkeeps₁, -⟩ := hquiet.origin c₁' hc₁'
    obtain ⟨c₂, hc₂, hages₂, hkeeps₂, -⟩ := hquiet.origin c₂' hc₂'
    have heq : c₁ = c₂ := h.acquisition c₁ hc₁ c₂ hc₂ (hages₁.project ▸ hages₂.project ▸ hproject)
      (hkeeps₁ ▸ hkeeps₂ ▸ hacquisition)
    exact Table.eq_of_key hc₁' hc₂' (hages₁.claimId.trans (heq ▸ hages₂.claimId.symm))
  note := by
    intro c₁' hc₁' c₂' hc₂' hactive₁ hactive₂ hnote
    obtain ⟨c₁, hc₁, hages₁, -, hwas₁⟩ := hquiet.origin c₁' hc₁'
    obtain ⟨c₂, hc₂, hages₂, -, hwas₂⟩ := hquiet.origin c₂' hc₂'
    have heq : c₁ = c₂ := h.note c₁ hc₁ c₂ hc₂ (hwas₁ hactive₁) (hwas₂ hactive₂)
      (hages₁.noteId ▸ hages₂.noteId ▸ hnote)
    exact Table.eq_of_key hc₁' hc₂' (hages₁.claimId.trans (heq ▸ hages₂.claimId.symm))
  slot := by
    intro c₁' hc₁' c₂' hc₂' hactive₁ hactive₂ hproject hinstance hslot
    obtain ⟨c₁, hc₁, hages₁, -, hwas₁⟩ := hquiet.origin c₁' hc₁'
    obtain ⟨c₂, hc₂, hages₂, -, hwas₂⟩ := hquiet.origin c₂' hc₂'
    have heq : c₁ = c₂ := h.slot c₁ hc₁ c₂ hc₂ (hwas₁ hactive₁) (hwas₂ hactive₂)
      (hages₁.project ▸ hages₂.project ▸ hproject)
      (hages₁.evaluatorInstance ▸ hages₂.evaluatorInstance ▸ hinstance)
      (hages₁.evaluatorSlot ▸ hages₂.evaluatorSlot ▸ hslot)
    exact Table.eq_of_key hc₁' hc₂' (hages₁.claimId.trans (heq ▸ hages₂.claimId.symm))
  placed := hplaced
  authority := hauthority
  undecided := by
    intro c' hc'
    obtain ⟨c, hc, hages, hkeeps, -⟩ := hquiet.origin c' hc'
    rw [hages.project, hkeeps]
    exact hacquisitions _ (h.undecided c hc)
  clock := by
    intro c' hc'
    obtain ⟨c, hc, hages, -⟩ := hquiet.origin c' hc'
    exact clock_ages hages (h.clock c hc)

/-- Where notes and authority stay, active claims stay in their places. -/
theorem Sound.quietClaims (h : s.Sound now) (hquiet : Quiet now s.claims s'.claims)
    (hacquisitions : ∀ k, s.acquisitions.get k = none → s'.acquisitions.get k = none)
    (hnotes : s'.notes = s.notes) (hauthority : s'.authority = s.authority) : s'.Sound now := by
  refine h.quiet hquiet hacquisitions (fun c' hc' hactive => ?_) fun c' hc' hactive => ?_
  · obtain ⟨c, hc, hages, -, hwas⟩ := hquiet.origin c' hc'
    rw [hnotes, hages.noteId, hages.project]
    exact h.placed c hc (hwas hactive)
  · obtain ⟨c, hc, hages, -, hwas⟩ := hquiet.origin c' hc'
    rw [moduleAuthority, hauthority, hages.project]
    exact h.authority c hc (hwas hactive)

/-- Decisions are forgotten, and none is made. -/
theorem get_collect_acquisitions (s : Ledgers) (project : String) {k : String × String}
    (h : s.acquisitions.get k = none) : (s.collect project now).acquisitions.get k = none :=
  (Table.get_delete k).trans
    (congrArg (Option.filter _) ((Table.get_update k).trans (congrArg (Option.map _) h)))

theorem Sound.collect (h : s.Sound now) (project : String) : (s.collect project now).Sound now :=
  h.quietClaims (quiet_collect s project) (fun _ => get_collect_acquisitions s project) rfl rfl

end Ledgers

/-! ## Quiet calls -/

variable {s s' : Ledgers}

/-- The call leaves everything but the claims alone, and them it only ages. -/
def OnlyAges (now : Int) (s s' : Ledgers) : Prop :=
  ∃ claims, s' = { s with claims } ∧ Quiet now s.claims claims

theorem OnlyAges.refl (s : Ledgers) : OnlyAges now s s := ⟨s.claims, rfl, Quiet.refl _⟩

theorem OnlyAges.sound (h : OnlyAges now s s') (hsound : s.Sound now) : s'.Sound now := by
  obtain ⟨claims, rfl, hquiet⟩ := h
  exact hsound.quietClaims hquiet (fun _ => id) rfl rfl

theorem onlyAges_endWhere (p : EvalClaim → Bool) (kind : TerminalKind) (response : Response)
    (completionId : Option String) (s : Ledgers) :
    OnlyAges now s { s with claims := endWhere p kind response completionId now s.claims } :=
  ⟨_, rfl, quiet_endWhere _ _ _ _⟩

theorem onlyAges_renew (r : Renew) (s : Ledgers) :
    OnlyAges r.nowMs s (renewNoteEvaluationClaim r s).2 := by
  unfold renewNoteEvaluationClaim
  split
  · exact OnlyAges.refl s
  · split
    · exact OnlyAges.refl s
    · split
      · exact OnlyAges.refl s
      · split
        · exact onlyAges_endWhere _ _ _ _ s
        · split
          · exact OnlyAges.refl s
          · refine ⟨_, rfl, Quiet.update fun c hp => ?_⟩
            have hnone := active_iff.mp (Bool.and_eq_true_iff.mp hp).1
            refine ⟨⟨⟨rfl, rfl, rfl, rfl, rfl, rfl, rfl, rfl, rfl, fun t ht => ?_⟩, fun _ t ht => ?_⟩,
              rfl, id⟩
            · rw [hnone] at ht
              cases ht
            · rw [hnone] at ht
              cases ht

theorem onlyAges_abandon (b : Abandon) (s : Ledgers) :
    OnlyAges b.nowMs s (abandonNoteEvaluationClaim b s).2 := by
  unfold abandonNoteEvaluationClaim
  split
  · exact OnlyAges.refl s
  · split
    · exact OnlyAges.refl s
    · split
      · exact OnlyAges.refl s
      · exact onlyAges_endWhere _ _ _ _ s

/-- Notes that stay where they are keep the claims in their places. -/
theorem sound_of_moves {notes : Notes} {claims : Table EvalClaim.claimId} (h : s.Sound now)
    (hquiet : Quiet now s.claims claims)
    (hnotes : ∀ id n, s.notes.get id = some n →
      ∃ n', notes.get id = some n' ∧ n'.projectPath = n.projectPath) :
    ({ s with notes, claims } : Ledgers).Sound now := by
  refine @Ledgers.Sound.quiet now s { s with notes, claims } h hquiet (fun _ => id) ?_ ?_
  · intro c' hc' hactive
    obtain ⟨c, hc, hages, -, hwas⟩ := hquiet.origin c' hc'
    obtain ⟨n, hget, hproject⟩ := h.placed c hc (hwas hactive)
    obtain ⟨n', hget', hproject'⟩ := hnotes _ n hget
    exact ⟨n', hages.noteId ▸ hget', hproject'.trans (hproject.trans hages.project.symm)⟩
  · intro c' hc' hactive
    obtain ⟨c, hc, hages, -, hwas⟩ := hquiet.origin c' hc'
    rw [hages.project]
    exact h.authority c hc (hwas hactive)

theorem projectPath_apply (notes : Notes) (e : Edit) (id : Nat) (n : Note)
    (h : notes.get id = some n) :
    ∃ n', (notes.apply e).get id = some n' ∧ n'.projectPath = n.projectPath := by
  obtain ⟨n', hget, hmoves⟩ := moves_apply e h
  exact ⟨n', hget, hmoves.projectPath⟩

/-- A completion that is applied finds its claim live, and the note as the claim saw it. -/
structure Live (e : Complete) (s : Ledgers) (c : EvalClaim) (note : Note) : Prop where
  mem : c ∈ s.claims
  claimId : c.claimId = e.claimId
  project : c.project = e.project
  terminal : c.terminal = none
  lease : e.nowMs < c.expiresAt
  authority : s.moduleAuthority e.project = some c.authorityGeneration
  get : s.notes.get c.noteId = some note
  projectPath : note.projectPath = e.project
  saw : c.saw note = true

variable {c : EvalClaim} {project : String}

theorem loadClaim_eq_some {claimId : String} :
    s.loadClaim project claimId = some c ↔ c ∈ s.claims ∧ c.claimId = claimId ∧ c.project = project := by
  rw [Ledgers.loadClaim, Option.filter_eq_some_iff, Table.get_eq_some, decide_eq_true_eq, and_assoc]

/-- What a completion does. -/
theorem complete_cases (e : Complete) (s : Ledgers) :
    (OnlyAges e.nowMs s (completeNoteEvaluation e s).2 ∧
      ∀ response, (completeNoteEvaluation e s).1 ≠ .applied response) ∨
    ∃ c note reduced response, Live e s c note ∧ completeNoteEvaluation e s = (.applied response,
      { s with
        notes := s.notes.applyReduced e.project c.noteId c.stateVersion reduced
        claims := endWhere (fun c => decide (c.project = e.project ∧ c.claimId = e.claimId)) .applied
          response (some e.completionId) e.nowMs s.claims }) := by
  unfold completeNoteEvaluation
  split
  · exact .inl ⟨OnlyAges.refl s, nofun⟩
  · split
    · exact .inl ⟨OnlyAges.refl s, nofun⟩
    · rename_i c hload
      obtain ⟨hmem, hclaimId, hproject⟩ := loadClaim_eq_some.mp hload
      have ends : ∀ kind response, OnlyAges e.nowMs s (e.ends s kind response).2 ∧
          ∀ response', (e.ends s kind response).1 ≠ .applied response' :=
        fun kind response => ⟨onlyAges_endWhere _ _ _ _ s, nofun⟩
      split
      · refine .inl ⟨OnlyAges.refl s, fun response => ?_⟩
        unfold Complete.settled
        split
        · nofun
        · split
          · split
            · nofun
            · nofun
          · nofun
      · rename_i hterminal
        split
        · exact .inl ⟨OnlyAges.refl s, nofun⟩
        · split
          · exact .inl (ends _ _)
          · rename_i hlease
            split
            · exact .inl (ends _ _)
            · rename_i hauthority
              split
              · exact .inl (ends _ _)
              · rename_i note hnote
                obtain ⟨hget, hpath⟩ := (Option.filter_eq_some_iff).mp hnote
                rw [decide_eq_true_eq] at hpath
                split
                · rename_i hsaw
                  unfold Complete.commit
                  split
                  · exact .inl (ends _ _)
                  · exact .inl (ends _ _)
                  · exact .inr ⟨c, note, _, _, ⟨hmem, hclaimId, hproject, hterminal, not_le.mp hlease,
                      not_not.mp hauthority, hget, hpath, hsaw⟩, rfl⟩
                · exact .inl (ends _ _)

theorem sound_complete (e : Complete) (h : s.Sound e.nowMs) :
    (completeNoteEvaluation e s).2.Sound e.nowMs ∧
      Quiet e.nowMs s.claims (completeNoteEvaluation e s).2.claims ∧
      (completeNoteEvaluation e s).2.acquisitions = s.acquisitions := by
  rcases complete_cases e s with ⟨hages, -⟩ | ⟨c, -, reduced, response, -, heq⟩
  · refine ⟨hages.sound h, ?_⟩
    obtain ⟨claims, heq, hquiet⟩ := hages
    rw [heq]
    exact ⟨hquiet, rfl⟩
  · rw [heq]
    refine ⟨sound_of_moves h (quiet_endWhere _ _ _ _) ?_, quiet_endWhere _ _ _ _, rfl⟩
    exact projectPath_apply s.notes (.complete e.project c.noteId c.stateVersion reduced)

theorem sound_editNotes (e : Edit) (h : s.Sound e.nowMs) :
    (editNotes e s).Sound e.nowMs ∧ Quiet e.nowMs s.claims (editNotes e s).claims ∧
      (editNotes e s).acquisitions = s.acquisitions := by
  have hnotes := projectPath_apply s.notes e
  unfold editNotes
  simp only
  split
  · exact ⟨sound_of_moves h (Quiet.refl _) hnotes, Quiet.refl _, rfl⟩
  · split
    · exact ⟨sound_of_moves h (Quiet.refl _) hnotes, Quiet.refl _, rfl⟩
    · exact ⟨@sound_of_moves _ s _ _ h (quiet_endWhere _ _ _ _) hnotes, quiet_endWhere _ _ _ _, rfl⟩

/-! ## Changes of hands -/

theorem isSome_moduleAuthority : (s.moduleAuthority project).isSome ↔
    ∃ e ∈ s.authority, e.key.project = project ∧ e.key.domain = .notes ∧ e.row.state = .MODULE := by
  rw [Ledgers.moduleAuthority, Option.isSome_map, List.isSome_head?, ← List.length_pos_iff_ne_nil,
    List.length_mergeSort, List.length_pos_iff_exists_mem]
  refine exists_congr fun e => ?_
  rw [Table.mem_select, decide_eq_true_eq]

/-- What does not fence does not start from the module's state. -/
theorem state_of_not_fences {sys : Platform} {row row' : AuthorityRow} {t : Transition}
    (hperform : t.perform sys now row = .ok row') (hfences : t.fences row = false) :
    row.state ≠ .MODULE := by
  cases t with
  | beginPrepare =>
    intro hstate
    simp [Transition.perform, AuthorityRow.beginPrepare, hstate, Except.map] at hperform
  | verifyPrepare generation expected actual =>
    rw [(Claims.AuthorityRow.verifyPrepare_eq_ok hperform).1]
    rintro ⟨⟩
  | ackPrepare generation => cases hfences
  | finishPrepare generation expected actual verified => cases hfences
  | beginDrain lease leaseExpiresAt feedHead nanos => exact of_decide_eq_false hfences
  | drainStep generation step cursor token =>
    rw [(Claims.AuthorityRow.drainStep_eq_ok hperform).1]
    rintro ⟨⟩
  | finishDrain generation expected actual verified token feedHead =>
    rw [(Claims.AuthorityRow.finishDrain_eq_ok hperform).1]
    rintro ⟨⟩

theorem fences_of_deletes {row : AuthorityRow} {t : Transition} (h : t.deletes row = true) :
    t.fences row = true := by
  cases t with
  | beginPrepare => exact h
  | verifyPrepare | ackPrepare | finishPrepare | beginDrain | drainStep | finishDrain => cases h

/-- No claim of a fenced project is active. -/
theorem not_active_fence {kind : TerminalKind}
    (hc : c ∈ (s.fence project none kind now).claims) (hactive : c.active = true) :
    c.project ≠ project := by
  obtain ⟨old, -, rfl⟩ := mem_endWhere.mp hc
  split at hactive
  · cases hactive
  · rename_i hp
    rw [if_neg hp]
    intro heq
    simp [hactive, heq] at hp

/-- A row of another key stays. -/
theorem isSome_moduleAuthority_put {entry : AuthorityEntry}
    {s' : Ledgers} (hauthority : s'.authority = s.authority.put entry)
    (h : ∃ e ∈ s.authority, (e.key.project = project ∧ e.key.domain = .notes ∧ e.row.state = .MODULE) ∧
      e.key ≠ entry.key) : (s'.moduleAuthority project).isSome := by
  obtain ⟨e, hmem, hmodule, hne⟩ := h
  refine isSome_moduleAuthority.mpr ⟨e, ?_, hmodule⟩
  rw [hauthority]
  exact Table.mem_put.mpr (.inl ⟨hmem, hne⟩)

theorem get_deleteOwned {notes : Notes} {key : AuthorityKey} {id : Nat} {n : Note}
    (hget : notes.get id = some n) (hproject : n.projectPath ≠ key.project) :
    (notes.deleteOwned key).get id = some n := by
  refine (Table.get_delete id).trans ((congrArg (Option.filter _) hget).trans ?_)
  simp [hproject]

theorem sound_transition (sys : Platform) (key : AuthorityKey) (t : Transition) (h : s.Sound now) :
    (transition sys key t now s).Sound now ∧
      Quiet now s.claims (transition sys key t now s).claims ∧
      (transition sys key t now s).acquisitions = s.acquisitions := by
  unfold transition
  split
  · exact ⟨h, Quiet.refl _, rfl⟩
  · rename_i row hrow
    split
    · exact ⟨h, Quiet.refl _, rfl⟩
    · rename_i row' hperform
      by_cases hfences : key.domain = .notes ∧ t.fences row = true
      · rw [if_pos hfences]
        have hquiet := @quiet_endWhere now s.claims
          (fun c => decide (c.project = key.project ∧ (none : Option Nat).all (c.noteId = ·)))
          .authorityChanged (.kind .authorityChanged) none
        refine ⟨?_, hquiet, rfl⟩
        refine @Ledgers.Sound.quiet now s _ h hquiet (fun _ => id) (fun c' hc' hactive => ?_)
          fun c' hc' hactive => ?_
        · have hother := not_active_fence hc' hactive
          obtain ⟨c, hc, hages, -, hwas⟩ := hquiet.origin c' hc'
          obtain ⟨n, hget, hproject⟩ := h.placed c hc (hwas hactive)
          rw [hages.noteId]
          refine ⟨n, ?_, hproject.trans hages.project.symm⟩
          split
          · exact get_deleteOwned hget (hproject.trans hages.project.symm ▸ hother)
          · exact hget
        · have hother := not_active_fence hc' hactive
          obtain ⟨c, hc, hages, -, hwas⟩ := hquiet.origin c' hc'
          obtain ⟨e, hmem, hmodule⟩ := isSome_moduleAuthority.mp (h.authority c hc (hwas hactive))
          rw [← hages.project] at hmodule
          exact isSome_moduleAuthority_put rfl
            ⟨e, hmem, hmodule, fun heq => hother (hmodule.1 ▸ heq ▸ rfl)⟩
      · have hdeletes : ¬ (key.domain = .notes ∧ t.deletes row = true) := fun hd =>
          hfences ⟨hd.1, fences_of_deletes hd.2⟩
        rw [if_neg hfences, if_neg hdeletes]
        refine ⟨@Ledgers.Sound.quiet now s _ h (Quiet.refl _) (fun _ => id) h.placed
          fun c hc hactive => ?_, Quiet.refl _, rfl⟩
        obtain ⟨e, hmem, hmodule⟩ := isSome_moduleAuthority.mp (h.authority c hc hactive)
        refine isSome_moduleAuthority_put rfl ⟨e, hmem, hmodule, fun heq => ?_⟩
        -- the row of the transition would be the module's
        have hnot : t.fences row = false := Bool.eq_false_iff.mpr fun hf =>
          hfences ⟨(congrArg AuthorityKey.domain heq).symm.trans hmodule.2.1, hf⟩
        have hsame : row = e.row := by
          have hget := Table.get_key hmem
          rw [show e.key = key from heq] at hget
          unfold authorityRow at hrow
          rw [hget] at hrow
          split at hrow
          · cases hrow
            rfl
          · cases hrow
            rfl
        exact state_of_not_fences hperform hnot (hsame ▸ hmodule.2.2)

/-! ## Acquisitions -/

variable {a : Acquire}

/-- The claim carries the acquisition. -/
def EvalClaim.Carries (a : Acquire) (c : EvalClaim) : Prop :=
  c.project = a.project ∧ c.acquisitionId = a.acquisitionId

/-- The claim is active in the slot of the caller. -/
def EvalClaim.InSlot (a : Acquire) (c : EvalClaim) : Prop :=
  c.project = a.project ∧ c.active = true ∧ a.evaluates c = true

theorem evaluates_iff : a.evaluates c = true ↔
    c.evaluatorInstance = a.evaluatorInstance ∧ c.evaluatorSlot = a.evaluatorSlot := by
  rw [Acquire.evaluates, decide_eq_true_eq]

theorem claimOf_eq_some (h : s.claimOf a.project a.acquisitionId = some c) :
    c ∈ s.claims ∧ c.Carries a := by
  obtain ⟨hmem, hc⟩ := Table.mem_select.mp (List.mem_of_head? h)
  rw [decide_eq_true_eq] at hc
  exact ⟨hmem, hc⟩

theorem claimOf_eq_none (h : s.claimOf a.project a.acquisitionId = none) :
    ∀ c ∈ s.claims, ¬ c.Carries a := fun c hc hcarries => by
  have hmem : c ∈ s.claims.select fun c =>
      decide (c.project = a.project ∧ c.acquisitionId = a.acquisitionId) :=
    Table.mem_select.mpr ⟨hc, (decide_eq_true_eq).mpr hcarries⟩
  rw [List.head?_eq_none_iff.mp h] at hmem
  cases hmem

theorem slotClaim_eq_some (h : s.slotClaim a.project a.evaluatorInstance a.evaluatorSlot = some c) :
    c ∈ s.claims ∧ c.InSlot a := by
  obtain ⟨hmem, hc⟩ := Table.mem_select.mp (List.mem_of_head? h)
  obtain ⟨hactive, hslot⟩ := Bool.and_eq_true_iff.mp hc
  obtain ⟨hproject, hevaluates⟩ := of_decide_eq_true hslot
  exact ⟨hmem, hproject, hactive, evaluates_iff.mpr hevaluates⟩

theorem slotClaim_eq_none (h : s.slotClaim a.project a.evaluatorInstance a.evaluatorSlot = none) :
    ∀ c ∈ s.claims, ¬ c.InSlot a := fun c hc ⟨hproject, hactive, hevaluates⟩ => by
  have hmem : c ∈ s.claims.select fun c => c.active && decide (c.project = a.project ∧
      c.evaluatorInstance = a.evaluatorInstance ∧ c.evaluatorSlot = a.evaluatorSlot) :=
    Table.mem_select.mpr ⟨hc, by
      rw [hactive, Bool.true_and, decide_eq_true_eq]
      exact ⟨hproject, evaluates_iff.mp hevaluates⟩⟩
  rw [List.head?_eq_none_iff.mp h] at hmem
  cases hmem

/-- The claims after the caller has taken one of them over. -/
def reboundClaims (a : Acquire) (c : EvalClaim) (s : Ledgers) : Table EvalClaim.claimId :=
  s.claims.update
    (fun row => row.active && decide (row.project = a.project ∧ row.claimId = c.claimId)) a.rebound
    a.claimId_rebound

/-- What an acquisition does, once the ledgers are cleared. -/
inductive Acquired (sys : Platform) (a : Acquire) (s : Ledgers) :
    AcquireOutcome → Ledgers → Prop
  | terminal (c : EvalClaim) (t : Terminal) (hmem : c ∈ s.claims) (hcarries : c.Carries a)
      (hterminal : c.terminal = some t) : Acquired sys a s (.terminal t.kind t.response) s
  | other (c : EvalClaim) (hmem : c ∈ s.claims) (hcarries : c.Carries a)
      (hevaluates : a.evaluates c = false) : Acquired sys a s .invalid s
  | rebound (c : EvalClaim) (note : Note) (hmem : c ∈ s.claims) (hslot : c.InSlot a)
      (hfree : ∀ c' ∈ s.claims, c'.Carries a → c' = c)
      (hundecided : s.acquisitions.get (a.project, a.acquisitionId) = none) :
      Acquired sys a s (.claim (a.rebound c) note true) { s with claims := reboundClaims a c s }
  | refused (outcome : AcquireOutcome) (hfree : ∀ c ∈ s.claims, ¬ c.Carries a)
      (hslot : s.acquisitions.get (a.project, a.acquisitionId) = none →
        (s.moduleAuthority a.project).isSome → ∀ c ∈ s.claims, ¬ c.InSlot a)
      (houtcome : ∀ c note replayed, outcome ≠ .claim c note replayed) :
      Acquired sys a s outcome s
  | noWork (cycleExhausted : Bool) (acquisitions : Table Acquisition.key)
      (hfree : ∀ c ∈ s.claims, ¬ c.Carries a) (hslot : ∀ c ∈ s.claims, ¬ c.InSlot a)
      (hinsert : s.acquisitions.insert ⟨a.project, a.acquisitionId, .noWork cycleExhausted,
        a.nowMs + noWorkRetentionMs⟩ = some acquisitions) :
      Acquired sys a s (.noWork false cycleExhausted) { s with acquisitions }
  | claim (generation : Nat) (phase : String) (note : Note) (claims : Table EvalClaim.claimId)
      (hfree : ∀ c ∈ s.claims, ¬ c.Carries a) (hslot : ∀ c ∈ s.claims, ¬ c.InSlot a)
      (hundecided : s.acquisitions.get (a.project, a.acquisitionId) = none)
      (hauthority : s.moduleAuthority a.project = some generation) (hnote : note ∈ a.candidates s)
      (hinsert : s.claims.insert (a.newClaim sys generation phase note) = some claims) :
      Acquired sys a s (.claim (a.newClaim sys generation phase note) note false)
        { s with claims }

/-- The acquisition id does not name a claim that has been taken over under another one. -/
def Unreplaced (sys : Platform) (a : Acquire) (s : Ledgers) : Prop :=
  ∀ c ∈ s.claims, c.claimId = evalClaimId sys a.project a.acquisitionId → c.Carries a ∨ c.InSlot a

variable {sys : Platform}

theorem mem_candidates {n : Note} :
    n ∈ a.candidates s ↔ n ∈ s.notes.rows ∧ n.projectPath = a.project ∧
    n.type = .smart ∧ n.status = .pending ∧
      ∀ c ∈ s.claims, c.active = true → c.project = a.project → c.noteId ≠ n.id := by
  rw [Acquire.candidates, List.mem_mergeSort, Table.mem_select, Bool.and_eq_true, decide_eq_true_eq,
    Bool.not_eq_true', Table.any_eq_false]
  have hclaims : (∀ c ∈ s.claims,
      (c.active && decide (c.project = a.project ∧ c.noteId = n.id)) = false) ↔
      ∀ c ∈ s.claims, c.active = true → c.project = a.project → c.noteId ≠ n.id := by
    refine forall₂_congr fun c _ => ?_
    rw [Bool.and_eq_false_imp]
    exact imp_congr_right fun _ => by rw [decide_eq_false_iff_not, not_and]
  rw [hclaims]
  simp only [and_assoc]

/-- Taking over a claim that is active in its slot. -/
theorem rebind_cases (h : s.Sound now) (hmem : c ∈ s.claims) (hslot : c.InSlot a)
    (hfree : ∀ c' ∈ s.claims, c'.Carries a → c' = c)
    (hundecided : s.acquisitions.get (a.project, a.acquisitionId) = none) :
    ∃ outcome s', a.rebind c s = .ok (outcome, s') ∧ Acquired sys a s outcome s' := by
  have hany : s.claims.any (fun other => decide (other.claimId ≠ c.claimId ∧
      other.project = a.project ∧ other.acquisitionId = a.acquisitionId)) = false :=
    Table.any_eq_false.mpr fun other hother => decide_eq_false fun ⟨hne, hcarries⟩ =>
      hne (congrArg EvalClaim.claimId (hfree other hother hcarries))
  obtain ⟨n, hget, hproject⟩ := h.placed c hmem hslot.2.1
  have hnote : (s.notes.get c.noteId).filter (fun n => decide (n.projectPath = a.project)) = some n := by
    rw [hget]
    simp [hproject, hslot.1]
  refine ⟨_, _, ?_, .rebound c n hmem hslot hfree hundecided⟩
  unfold Acquire.rebind
  simp only [hany, hnote]
  rfl

/-- New work, in a slot that is free. -/
theorem fresh_cases (cap : Nat) {generation : Nat} (hunreplaced : Unreplaced sys a s)
    (hfree : ∀ c ∈ s.claims, ¬ c.Carries a) (hslot : ∀ c ∈ s.claims, ¬ c.InSlot a)
    (hundecided : s.acquisitions.get (a.project, a.acquisitionId) = none)
    (hauthority : s.moduleAuthority a.project = some generation) :
    ∃ outcome s', a.fresh sys cap generation s = .ok (outcome, s') ∧
      Acquired sys a s outcome s' := by
  have refused : ∀ outcome, (∀ c note replayed, outcome ≠ AcquireOutcome.claim c note replayed) →
      Acquired sys a s outcome s := fun outcome houtcome =>
    .refused outcome hfree (fun _ _ => hslot) houtcome
  unfold Acquire.fresh
  split
  · rename_i cycleExhausted _
    split
    · exact ⟨.busy, s, rfl, refused .busy fun _ _ _ => nofun⟩
    · obtain ⟨acquisitions, hinsert⟩ := Table.insert_isSome (t := s.acquisitions) (r :=
        ⟨a.project, a.acquisitionId, .noWork cycleExhausted, a.nowMs + noWorkRetentionMs⟩) hundecided
      refine ⟨_, _, ?_, .noWork cycleExhausted acquisitions hfree hslot hinsert⟩
      unfold Acquire.insertDecision
      rw [hinsert]
  · rename_i noteId phase _
    split
    · exact ⟨.invalid, s, rfl, refused .invalid fun _ _ _ => nofun⟩
    · split
      · exact ⟨.invalid, s, rfl, refused .invalid fun _ _ _ => nofun⟩
      · rename_i note hfind
        split
        · exact ⟨.busy, s, rfl, refused .busy fun _ _ _ => nofun⟩
        · have hnote := List.mem_of_find?_eq_some hfind
          have hconflicts : s.claims.any
              (Acquire.conflicts (a.newClaim sys generation phase note)) = false := by
            refine Table.any_eq_false.mpr fun c hc => ?_
            by_contra hconflict
            simp only [Bool.not_eq_false, Acquire.conflicts, Bool.and_eq_true, Bool.or_eq_true,
              decide_eq_true_eq] at hconflict
            obtain ⟨hproject, hacquisition | ⟨hactive, hsame | hevaluator⟩⟩ := hconflict
            · exact hfree c hc ⟨hproject, hacquisition⟩
            · exact (mem_candidates.mp hnote).2.2.2.2 c hc hactive hproject hsame
            · exact hslot c hc ⟨hproject, hactive, evaluates_iff.mpr hevaluator⟩
          obtain ⟨claims, hinsert⟩ := Table.insert_isSome (t := s.claims)
            (r := a.newClaim sys generation phase note) (Table.get_eq_none.mpr fun c hc heq =>
              (hunreplaced c hc heq).elim (hfree c hc) (hslot c hc))
          refine ⟨_, _, ?_, .claim generation phase note claims hfree hslot hundecided hauthority hnote
            hinsert⟩
          unfold Acquire.insertClaim
          simp only [hconflicts, hinsert]
          rfl

theorem acquire_cases (cap : Nat) (h : (s.collect a.project a.nowMs).Sound now)
    (hunreplaced : Unreplaced sys a (s.collect a.project a.nowMs)) (hvalid : a.valid = true) :
    ∃ outcome s', acquireNoteEvaluation sys cap a s = .ok (outcome, s') ∧
      Acquired sys a (s.collect a.project a.nowMs) outcome s' := by
  unfold acquireNoteEvaluation
  rw [if_pos hvalid]
  simp only
  generalize s.collect a.project a.nowMs = s at h hunreplaced
  split
  · rename_i c hclaim
    obtain ⟨hmem, hcarries⟩ := claimOf_eq_some hclaim
    unfold Acquire.claimed
    split
    · rename_i t hterminal
      exact ⟨.terminal t.kind t.response, s, rfl, .terminal c t hmem hcarries hterminal⟩
    · rename_i hterminal
      split
      · rename_i hevaluates
        have hundecided := h.undecided c hmem
        rw [hcarries.1, hcarries.2] at hundecided
        exact rebind_cases h hmem ⟨hcarries.1, active_iff.mpr hterminal, hevaluates⟩
          (fun c' hc' hcarries' => h.acquisition c' hc' c hmem (hcarries'.1.trans hcarries.1.symm)
            (hcarries'.2.trans hcarries.2.symm)) hundecided
      · rename_i hevaluates
        exact ⟨.invalid, s, rfl, .other c hmem hcarries (Bool.eq_false_iff.mpr hevaluates)⟩
  · rename_i hclaim
    have hfree := claimOf_eq_none hclaim
    unfold Acquire.unclaimed
    split
    · rename_i row hrow
      refine ⟨Acquire.replay row.decision, s, rfl, .refused _ hfree (fun hnone => ?_)
        fun c note replayed => ?_⟩
      · rw [hrow] at hnone
        cases hnone
      · cases row.decision with
        | tombstone => nofun
        | noWork cycleExhausted => nofun
    · rename_i hundecided
      split
      · rename_i hauthority
        refine ⟨.authorityChanged, s, rfl, .refused _ hfree (fun _ hsome => ?_) fun _ _ _ => nofun⟩
        rw [hauthority] at hsome
        cases hsome
      · rename_i generation hauthority
        split
        · rename_i c hslot
          obtain ⟨hmem, hslot⟩ := slotClaim_eq_some hslot
          exact rebind_cases h hmem hslot (fun c' hc' hcarries => absurd hcarries (hfree c' hc'))
            hundecided
        · rename_i hslot
          exact fresh_cases cap hunreplaced hfree (slotClaim_eq_none hslot) hundecided hauthority

end MagicContext.Notes
