import Mathlib.Data.List.Induction
import MagicContext.Notes.Leases

/-!
# Evaluation runs

An acquisition id leads to its claim as long as the claim carries it.  A claim that its slot has
taken over under another acquisition id is not found under the first one any more, though its own id
is made from it: a late repetition then finds other work, no work, or a row with the id that it
would insert. What holds is about runs without such repetitions.

## What is here

* `Replaced`, `Smooth` — the late repetitions.
* `NoteEvaluations` — what holds in a run.
* `Fits` — the invariant of a state, with what has been answered.
* `Tracks` — a claim through a run.
* `note_evaluations` — what holds, of every run of smooth events.
* `Sample.late_retry_fails` — a late repetition fails on the primary key.
-/

namespace MagicContext.Notes

open Claims (AuthorityEntry Platform)
open EvalClaim (Evolves active_iff)
open Table EvalState

/-! ## What holds -/

/-- The acquisition was answered with the claim, or has made its id, and its slot has taken the
claim over under another one since. -/
def Replaced (sys : Platform) (a : Acquire) (s : EvalState) (c : EvalClaim) : Prop :=
  (c.claimId = evalClaimId sys a.project a.acquisitionId ∨
      ⟨a.project, a.acquisitionId, c.claimId, c.createdAtMs⟩ ∈ s.answered) ∧
    ¬ c.Carries a ∧ ¬ c.InSlot a

namespace EvalState

/-- No valid acquisition comes with an id that was taken from a claim which is still there, unless
the claim is active in the slot of the caller. -/
def Smooth (sys : Platform) (s : EvalState) : EvalEvent → Prop
  | .acquire a => a.valid = true →
      ∀ c ∈ (s.ledgers.collect a.project a.nowMs).claims, ¬ Replaced sys a s c
  | _ => True

end EvalState

/-- A repeated acquisition is answered with the claim or with its terminal result; to others than
its evaluator the claim is not given. -/
def Answers (a : Acquire) (noteId : Nat) (row : EvalClaim) (outcome : AcquireOutcome) : Prop :=
  (∃ t, row.terminal = some t ∧ outcome = .terminal t.kind t.response) ∨
    (∃ c note, outcome = .claim c note true ∧ c.claimId = row.claimId ∧ c.noteId = noteId ∧
      c.createdAtMs = row.createdAtMs) ∨
    (a.evaluates row = false ∧ outcome = .invalid)

/-- The completion changes a note. -/
def Changes (e : Complete) (s : Ledgers) : Prop := (completeNoteEvaluation e s).2.notes ≠ s.notes

/-- The ledgers after a run. -/
def ledgersAfter (sys : Platform) (cap : Nat) (start : Ledgers) (events : List EvalEvent) :
    Ledgers :=
  (EvalState.run sys cap start events).ledgers

section Statement

variable (sys : Platform) (cap : Nat) (start : Ledgers) (events : List EvalEvent)

structure NoteEvaluations : Prop where
  /-- No acquisition fails. -/
  unfailing : ∀ before a, before ++ [.acquire a] <+: events → ∃ outcome s,
    acquireNoteEvaluation sys cap a (ledgersAfter sys cap start before) = .ok (outcome, s)
  /-- A note and an evaluator slot have one active claim at most. -/
  alone : ∀ before, before <+: events → ∀ c ∈ (ledgersAfter sys cap start before).claims,
    ∀ c' ∈ (ledgersAfter sys cap start before).claims, c.active = true → c'.active = true →
      (c.noteId = c'.noteId ∨ (c.project = c'.project ∧
        c.evaluatorInstance = c'.evaluatorInstance ∧ c.evaluatorSlot = c'.evaluatorSlot)) → c = c'
  /-- An acquisition id that was answered with a claim leads to it as long as it is there. -/
  answered : ∀ before a between a' c note replayed s,
    before ++ [.acquire a] ++ between ++ [.acquire a'] <+: events →
    a'.project = a.project → a'.acquisitionId = a.acquisitionId →
    acquireNoteEvaluation sys cap a (ledgersAfter sys cap start before) =
      .ok (.claim c note replayed, s) →
    ∀ row ∈ ((ledgersAfter sys cap start (before ++ [.acquire a] ++ between)).collect a'.project
        a'.nowMs).claims, row.claimId = c.claimId → row.createdAtMs = c.createdAtMs →
      ∃ outcome s', acquireNoteEvaluation sys cap a'
        (ledgersAfter sys cap start (before ++ [.acquire a] ++ between)) = .ok (outcome, s') ∧
        Answers a' c.noteId row outcome
  /-- A terminal claim keeps its result. -/
  terminal : ∀ earlier later, earlier <+: later → later <+: events →
    ∀ c ∈ (ledgersAfter sys cap start earlier).claims,
    ∀ c' ∈ (ledgersAfter sys cap start later).claims, c'.claimId = c.claimId →
      c'.createdAtMs = c.createdAtMs → ∀ t, c.terminal = some t →
      ∃ t', c'.terminal = some t' ∧ t'.kind = t.kind ∧ t'.atMs = t.atMs ∧
        (t'.response = t.response ∨ t'.response = none)
  /-- A completion changes the note of a live claim only, which is as the claim saw it. -/
  completed : ∀ before e, before ++ [.complete e] <+: events →
    Changes e (ledgersAfter sys cap start before) →
    ∃ c note, Live e (ledgersAfter sys cap start before) c note ∧ ∀ id, id ≠ c.noteId →
      (ledgersAfter sys cap start (before ++ [.complete e])).notes.get id =
        (ledgersAfter sys cap start before).notes.get id
  /-- A claim changes its note once. -/
  once : ∀ before e between e', before ++ [.complete e] ++ between ++ [.complete e'] <+: events →
    Changes e (ledgersAfter sys cap start before) →
    Changes e' (ledgersAfter sys cap start (before ++ [.complete e] ++ between)) →
    ∀ c ∈ (ledgersAfter sys cap start before).claims, c.claimId = e.claimId →
    ∀ c' ∈ (ledgersAfter sys cap start (before ++ [.complete e] ++ between)).claims,
      c'.claimId = e'.claimId → ¬ (c'.claimId = c.claimId ∧ c'.createdAtMs = c.createdAtMs)
  /-- A completion that is repeated gives the stored response, while it is stored, and changes
  nothing. -/
  repeated : ∀ before e between e' response,
    before ++ [.complete e] ++ between ++ [.complete e'] <+: events →
    e'.project = e.project → e'.claimId = e.claimId → e'.completionId = e.completionId →
    (completeNoteEvaluation e (ledgersAfter sys cap start before)).1 = .applied response →
    ∀ c ∈ (ledgersAfter sys cap start before).claims, c.claimId = e.claimId →
    ∀ row ∈ (ledgersAfter sys cap start (before ++ [.complete e] ++ between)).claims,
      row.claimId = c.claimId → row.createdAtMs = c.createdAtMs →
      ∃ t, row.terminal = some t ∧ (t.response = some response ∨ t.response = none) ∧
        completeNoteEvaluation e' (ledgersAfter sys cap start
            (before ++ [.complete e] ++ between)) =
          (if t.response.isSome then .replayed response else .conflict .expired,
            ledgersAfter sys cap start (before ++ [.complete e] ++ between))

end Statement

/-! ## A claim through a run -/

variable {now : Int} {s s' : Ledgers}

/-- The claim is there, or it is gone for good; its id may be used again later. -/
def Tracks (c : EvalClaim) (now : Int) (s : Ledgers) : Prop :=
  (∃ c' ∈ s.claims, c.Evolves c') ∨ (c.createdAtMs + terminalRetentionMs ≤ now ∧
    ∀ c' ∈ s.claims, c'.claimId = c.claimId → c'.createdAtMs ≠ c.createdAtMs)

theorem tracks_self {c : EvalClaim} (hc : c ∈ s.claims) : Tracks c now s :=
  .inl ⟨c, hc, Evolves.refl c⟩

theorem Tracks.later {c : EvalClaim} {before : Int} (h : Tracks c before s) (hnow : before ≤ now) :
    Tracks c now s :=
  h.imp_right fun ⟨hgone, hnone⟩ => ⟨hgone.trans hnow, hnone⟩

theorem Tracks.evolves {c c' : EvalClaim} (h : Tracks c now s) (hc' : c' ∈ s.claims)
    (hid : c'.claimId = c.claimId) (hcreated : c'.createdAtMs = c.createdAtMs) : c.Evolves c' := by
  rcases h with ⟨row, hrow, hevolves⟩ | ⟨-, hnone⟩
  · rwa [eq_of_key hc' hrow (hid.trans hevolves.claimId.symm)]
  · exact absurd hcreated (hnone c' hc' hid)

/-- What every call does to the claims. -/
structure Steps (now : Int) (t t' : Table EvalClaim.claimId) : Prop where
  kept : ∀ c ∈ t, (∃ c' ∈ t', c.Evolves c') ∨ c.Outlived now
  origin : ∀ c' ∈ t', (∃ c ∈ t, c.Evolves c') ∨ c'.createdAtMs = now

theorem Quiet.steps {t t' : Table EvalClaim.claimId} (h : Quiet now t t') : Steps now t t' where
  kept c hc := (h.kept c hc).imp_left fun ⟨c', hc', hages⟩ => ⟨c', hc', hages.toEvolves⟩
  origin c' hc' := by
    obtain ⟨c, hc, hages, -⟩ := h.origin c' hc'
    exact .inl ⟨c, hc, hages.toEvolves⟩

theorem Tracks.step {c : EvalClaim} (h : Tracks c now s) (hsound : s.Sound now)
    (hsteps : Steps now s.claims s'.claims) : Tracks c now s' := by
  rcases h with ⟨c₁, hc₁, hevolves⟩ | ⟨hgone, hnone⟩
  · rcases hsteps.kept c₁ hc₁ with ⟨c₂, hc₂, hevolves₂⟩ | ⟨t, ht, hat⟩
    · exact .inl ⟨c₂, hc₂, hevolves.trans hevolves₂⟩
    · have hcreated : c.createdAtMs + terminalRetentionMs ≤ now := by
        have hbefore := ((hsound.clock c₁ hc₁).2 t ht).1
        rw [hevolves.createdAtMs] at hbefore
        omega
      by_cases hexists : ∃ c' ∈ s'.claims, c'.claimId = c.claimId ∧ c'.createdAtMs = c.createdAtMs
      · obtain ⟨c', hc', hid, hsame⟩ := hexists
        rcases hsteps.origin c' hc' with ⟨c₀, hc₀, hevolves₀⟩ | hnew
        · have heq : c₀ = c₁ := eq_of_key hc₀ hc₁
            (hevolves₀.claimId.symm.trans (hid.trans hevolves.claimId.symm))
          exact .inl ⟨c', hc', hevolves.trans (heq ▸ hevolves₀)⟩
        · rw [terminalRetentionMs] at hcreated
          omega
      · exact .inr ⟨hcreated, fun c' hc' hid hsame => hexists ⟨c', hc', hid, hsame⟩⟩
  · refine .inr ⟨hgone, fun c' hc' hid hsame => ?_⟩
    rcases hsteps.origin c' hc' with ⟨c₀, hc₀, hevolves₀⟩ | hnew
    · exact hnone c₀ hc₀ (hevolves₀.claimId.symm.trans hid) (hevolves₀.createdAtMs.symm.trans hsame)
    · rw [terminalRetentionMs] at hgone
      omega

/-! ## What has been answered -/

/-- A claim that was given for the acquisition. -/
def Answered.Names (p : Answered) (c : EvalClaim) : Prop :=
  c.claimId = p.claimId ∧ c.createdAtMs = p.createdAtMs

/-- The claim that was given is the only one that can carry the acquisition, while it is there. -/
structure Answered.Fits (p : Answered) (s : Ledgers) (now : Int) : Prop where
  project : ∀ r ∈ s.claims, p.Names r → r.project = p.project
  carried : ∀ r ∈ s.claims, p.Names r → ∀ c ∈ s.claims, c.project = p.project →
    c.acquisitionId = p.acquisitionId → c = r
  undecided : ∀ r ∈ s.claims, p.Names r → s.acquisitions.get (p.project, p.acquisitionId) = none
  lasting : (∃ r ∈ s.claims, p.Names r) ∨ p.createdAtMs + terminalRetentionMs ≤ now

variable {p : Answered}

theorem Answered.Names.of_evolves {c c' : EvalClaim} (h : p.Names c') (hevolves : c.Evolves c') :
    p.Names c :=
  ⟨hevolves.claimId.symm.trans h.1, hevolves.createdAtMs.symm.trans h.2⟩

theorem Answered.Names.evolves {c c' : EvalClaim} (h : p.Names c) (hevolves : c.Evolves c') :
    p.Names c' :=
  ⟨hevolves.claimId.trans h.1, hevolves.createdAtMs.trans h.2⟩

theorem Answered.Fits.later {before : Int} (h : p.Fits s before) (hnow : before ≤ now) :
    p.Fits s now :=
  { h with lasting := h.lasting.imp_right fun hgone => hgone.trans hnow }

theorem Answered.Fits.quiet (h : p.Fits s now) (hsound : s.Sound now)
    (hquiet : Quiet now s.claims s'.claims)
    (hacquisitions : ∀ k, s.acquisitions.get k = none → s'.acquisitions.get k = none) :
    p.Fits s' now where
  project := by
    intro r' hr' hnames
    obtain ⟨r, hr, hages, -⟩ := hquiet.origin r' hr'
    exact hages.project.trans (h.project r hr (hnames.of_evolves hages.toEvolves))
  carried := by
    intro r' hr' hnames c' hc' hproject hacquisition
    obtain ⟨r, hr, hages, -⟩ := hquiet.origin r' hr'
    obtain ⟨c, hc, hages', hkeeps, -⟩ := hquiet.origin c' hc'
    have heq : c = r := h.carried r hr (hnames.of_evolves hages.toEvolves) c hc
      (hages'.project ▸ hproject) (hkeeps ▸ hacquisition)
    exact eq_of_key hc' hr' (hages'.claimId.trans (heq ▸ hages.claimId.symm))
  undecided := by
    intro r' hr' hnames
    obtain ⟨r, hr, hages, -⟩ := hquiet.origin r' hr'
    exact hacquisitions _ (h.undecided r hr (hnames.of_evolves hages.toEvolves))
  lasting := by
    rcases h.lasting with ⟨r, hr, hnames⟩ | hgone
    · rcases hquiet.kept r hr with ⟨r', hr', hages⟩ | ⟨t, ht, hat⟩
      · exact .inl ⟨r', hr', hnames.evolves hages.toEvolves⟩
      · have hbefore := ((hsound.clock r hr).2 t ht).1
        rw [hnames.2] at hbefore
        exact .inr (by omega)
    · exact .inr hgone

/-! ## Acquisitions keep the invariants -/

section Acquired

variable {sys : Platform} {a : Acquire} {outcome : AcquireOutcome} {c : EvalClaim}

/-- The claims after one has been taken over. -/
theorem mem_reboundClaims (hmem : c ∈ s.claims) (hslot : c.InSlot a) {r : EvalClaim} :
    r ∈ reboundClaims a c s ↔ (r ∈ s.claims ∧ r ≠ c) ∨ r = a.rebound c := by
  have hself : (c.active && decide (c.project = a.project ∧ c.claimId = c.claimId)) = true := by
    rw [hslot.2.1, Bool.true_and, decide_eq_true_eq]
    exact ⟨hslot.1, rfl⟩
  refine mem_update.trans ?_
  constructor
  · rintro ⟨row, hrow, rfl⟩
    by_cases heq : row = c
    · subst heq
      rw [if_pos hself]
      exact .inr rfl
    · rw [if_neg]
      · exact .inl ⟨hrow, heq⟩
      · rw [Bool.and_eq_true, decide_eq_true_eq]
        exact fun h => heq (eq_of_key hrow hmem h.2.2)
  · rintro (⟨hr, hne⟩ | rfl)
    · refine ⟨r, hr, ?_⟩
      rw [if_neg]
      rw [Bool.and_eq_true, decide_eq_true_eq]
      exact fun h => hne (eq_of_key hr hmem h.2.2)
    · exact ⟨c, hmem, (if_pos hself).symm⟩

theorem evolves_rebound (hslot : c.InSlot a) : c.Evolves (a.rebound c) := by
  refine ⟨rfl, rfl, rfl, rfl, rfl, rfl, rfl, rfl, rfl, fun t ht => ?_⟩
  rw [active_iff.mp hslot.2.1] at ht
  cases ht

theorem Acquired.steps (h : Acquired sys a s outcome s') : Steps a.nowMs s.claims s'.claims := by
  cases h with
  | terminal | other | refused | noWork => exact (Quiet.refl _).steps
  | rebound c note hmem hslot hfree hundecided =>
    refine ⟨fun r hr => .inl ?_, fun r' hr' => .inl ?_⟩
    · by_cases heq : r = c
      · rw [heq]
        exact ⟨a.rebound c, (mem_reboundClaims hmem hslot).mpr (.inr rfl), evolves_rebound hslot⟩
      · exact ⟨r, (mem_reboundClaims hmem hslot).mpr (.inl ⟨hr, heq⟩), Evolves.refl r⟩
    · rcases (mem_reboundClaims hmem hslot).mp hr' with ⟨hr, -⟩ | rfl
      · exact ⟨r', hr, Evolves.refl r'⟩
      · exact ⟨c, hmem, evolves_rebound hslot⟩
  | claim generation phase note claims hfree hslot hundecided hauthority hnote hinsert =>
    refine ⟨fun r hr => .inl ⟨r, (mem_insert hinsert).mpr (.inl hr), Evolves.refl r⟩,
      fun r' hr' => ?_⟩
    rcases (mem_insert hinsert).mp hr' with hr | rfl
    · exact .inl ⟨r', hr, Evolves.refl r'⟩
    · exact .inr rfl

/-- A claim that is taken over stays where it was. -/
theorem sound_rebound (h : s.Sound now) (hmem : c ∈ s.claims) (hslot : c.InSlot a)
    (hfree : ∀ c' ∈ s.claims, c'.Carries a → c' = c)
    (hundecided : s.acquisitions.get (a.project, a.acquisitionId) = none) :
    ({ s with claims := reboundClaims a c s } : Ledgers).Sound now where
  acquisition := by
    intro r hr r' hr' hproject hacquisition
    rcases (mem_reboundClaims hmem hslot).mp hr with ⟨hr, hne⟩ | rfl
    · rcases (mem_reboundClaims hmem hslot).mp hr' with ⟨hr', -⟩ | rfl
      · exact h.acquisition r hr r' hr' hproject hacquisition
      · exact absurd (hfree r hr ⟨hproject.trans hslot.1, hacquisition⟩) hne
    · rcases (mem_reboundClaims hmem hslot).mp hr' with ⟨hr', hne'⟩ | rfl
      · exact absurd (hfree r' hr' ⟨hproject.symm.trans hslot.1, hacquisition.symm⟩) hne'
      · rfl
  note := by
    intro r hr r' hr' hactive hactive' hnote
    rcases (mem_reboundClaims hmem hslot).mp hr with ⟨hr, hne⟩ | rfl
    · rcases (mem_reboundClaims hmem hslot).mp hr' with ⟨hr', -⟩ | rfl
      · exact h.note r hr r' hr' hactive hactive' hnote
      · exact absurd (h.note r hr c hmem hactive hslot.2.1 hnote) hne
    · rcases (mem_reboundClaims hmem hslot).mp hr' with ⟨hr', hne'⟩ | rfl
      · exact absurd (h.note r' hr' c hmem hactive' hslot.2.1 hnote.symm) hne'
      · rfl
  slot := by
    intro r hr r' hr' hactive hactive' hproject hinstance hevaluator
    rcases (mem_reboundClaims hmem hslot).mp hr with ⟨hr, hne⟩ | rfl
    · rcases (mem_reboundClaims hmem hslot).mp hr' with ⟨hr', -⟩ | rfl
      · exact h.slot r hr r' hr' hactive hactive' hproject hinstance hevaluator
      · exact absurd (h.slot r hr c hmem hactive hslot.2.1 hproject hinstance hevaluator) hne
    · rcases (mem_reboundClaims hmem hslot).mp hr' with ⟨hr', hne'⟩ | rfl
      · exact absurd (h.slot r' hr' c hmem hactive' hslot.2.1 hproject.symm hinstance.symm
          hevaluator.symm) hne'
      · rfl
  placed := by
    intro r hr hactive
    rcases (mem_reboundClaims hmem hslot).mp hr with ⟨hr, -⟩ | rfl
    · exact h.placed r hr hactive
    · exact h.placed c hmem hslot.2.1
  authority := by
    intro r hr hactive
    rcases (mem_reboundClaims hmem hslot).mp hr with ⟨hr, -⟩ | rfl
    · exact h.authority r hr hactive
    · exact h.authority c hmem hslot.2.1
  undecided := by
    intro r hr
    rcases (mem_reboundClaims hmem hslot).mp hr with ⟨hr, -⟩ | rfl
    · exact h.undecided r hr
    · rw [show (a.rebound c).project = a.project from hslot.1]
      exact hundecided
  clock := by
    intro r hr
    rcases (mem_reboundClaims hmem hslot).mp hr with ⟨hr, -⟩ | rfl
    · exact h.clock r hr
    · exact h.clock c hmem

theorem sound_noWork {acquisitions : Table Acquisition.key} {row : Acquisition} (h : s.Sound now)
    (hfree : ∀ c ∈ s.claims, ¬ c.Carries a)
    (hinsert : s.acquisitions.insert row = some acquisitions)
    (hkey : row.key = (a.project, a.acquisitionId)) :
    ({ s with acquisitions } : Ledgers).Sound now :=
  { acquisition := h.acquisition, note := h.note, slot := h.slot, placed := h.placed,
    authority := h.authority, clock := h.clock
    undecided := by
      intro c hc
      refine (get_insert hinsert _).trans ?_
      rw [if_neg, h.undecided c hc]
      rw [hkey]
      intro heq
      obtain ⟨hproject, hacquisition⟩ := Prod.mk.inj heq
      exact hfree c hc ⟨hproject.symm, hacquisition.symm⟩ }

theorem sound_claim {generation : Nat} {phase : String} {note : Note}
    {claims : Table EvalClaim.claimId} (h : s.Sound a.nowMs) (hfree : ∀ c ∈ s.claims, ¬ c.Carries a)
    (hslot : ∀ c ∈ s.claims, ¬ c.InSlot a)
    (hundecided : s.acquisitions.get (a.project, a.acquisitionId) = none)
    (hauthority : s.moduleAuthority a.project = some generation) (hnote : note ∈ a.candidates s)
    (hinsert : s.claims.insert (a.newClaim sys generation phase note) = some claims) :
    ({ s with claims } : Ledgers).Sound a.nowMs := by
  obtain ⟨hrows, hproject, -, -, hunclaimed⟩ := mem_candidates.mp hnote
  have hget : s.notes.get note.id = some note := get_key hrows
  -- an active claim of the note would be in the note's project
  have hother : ∀ c ∈ s.claims, c.active = true → c.noteId ≠ note.id := by
    intro c hc hactive heq
    obtain ⟨n, hn, hpath⟩ := h.placed c hc hactive
    rw [heq, hget] at hn
    cases hn
    exact hunclaimed c hc hactive (hpath.symm.trans hproject) heq
  refine ⟨?_, ?_, ?_, ?_, ?_, ?_, ?_⟩
  · intro r hr r' hr' hsame hacquisition
    rcases (mem_insert hinsert).mp hr with hr | rfl
    · rcases (mem_insert hinsert).mp hr' with hr' | rfl
      · exact h.acquisition r hr r' hr' hsame hacquisition
      · exact absurd ⟨hsame, hacquisition⟩ (hfree r hr)
    · rcases (mem_insert hinsert).mp hr' with hr' | rfl
      · exact absurd ⟨hsame.symm, hacquisition.symm⟩ (hfree r' hr')
      · rfl
  · intro r hr r' hr' hactive hactive' hsame
    rcases (mem_insert hinsert).mp hr with hr | rfl
    · rcases (mem_insert hinsert).mp hr' with hr' | rfl
      · exact h.note r hr r' hr' hactive hactive' hsame
      · exact absurd hsame (hother r hr hactive)
    · rcases (mem_insert hinsert).mp hr' with hr' | rfl
      · exact absurd hsame.symm (hother r' hr' hactive')
      · rfl
  · intro r hr r' hr' hactive hactive' hsame hinstance hevaluator
    rcases (mem_insert hinsert).mp hr with hr | rfl
    · rcases (mem_insert hinsert).mp hr' with hr' | rfl
      · exact h.slot r hr r' hr' hactive hactive' hsame hinstance hevaluator
      · exact absurd ⟨hsame, hactive, evaluates_iff.mpr ⟨hinstance, hevaluator⟩⟩ (hslot r hr)
    · rcases (mem_insert hinsert).mp hr' with hr' | rfl
      · exact absurd ⟨hsame.symm, hactive', evaluates_iff.mpr ⟨hinstance.symm, hevaluator.symm⟩⟩
          (hslot r' hr')
      · rfl
  · intro r hr hactive
    rcases (mem_insert hinsert).mp hr with hr | rfl
    · exact h.placed r hr hactive
    · exact ⟨note, hget, hproject⟩
  · intro r hr hactive
    rcases (mem_insert hinsert).mp hr with hr | rfl
    · exact h.authority r hr hactive
    · exact Option.isSome_iff_exists.mpr ⟨generation, hauthority⟩
  · intro r hr
    rcases (mem_insert hinsert).mp hr with hr | rfl
    · exact h.undecided r hr
    · exact hundecided
  · intro r hr
    rcases (mem_insert hinsert).mp hr with hr | rfl
    · exact h.clock r hr
    · exact ⟨le_refl _, nofun⟩

theorem Acquired.sound (h : Acquired sys a s outcome s') (hsound : s.Sound a.nowMs) :
    s'.Sound a.nowMs := by
  cases h with
  | terminal | other | refused => exact hsound
  | rebound c note hmem hslot hfree hundecided =>
    exact sound_rebound hsound hmem hslot hfree hundecided
  | noWork cycleExhausted acquisitions hfree hslot hinsert =>
    exact sound_noWork hsound hfree hinsert rfl
  | claim generation phase note claims hfree hslot hundecided hauthority hnote hinsert =>
    exact sound_claim hsound hfree hslot hundecided hauthority hnote hinsert

/-- An acquisition keeps what has been answered, unless it comes with an id that was taken away. -/
theorem Answered.Fits.acquired (h : p.Fits s a.nowMs) (hsound : s.Sound a.nowMs)
    (hacquired : Acquired sys a s outcome s')
    (hunreplaced : p.project = a.project → p.acquisitionId = a.acquisitionId →
      ∀ r ∈ s.claims, p.Names r → r.Carries a ∨ r.InSlot a) : p.Fits s' a.nowMs := by
  -- what no claim carries was not given for a claim that is there
  have hnot : (∀ c ∈ s.claims, ¬ c.Carries a) → (∀ c ∈ s.claims, ¬ c.InSlot a) →
      p.project = a.project → p.acquisitionId = a.acquisitionId → ∀ r ∈ s.claims, ¬ p.Names r :=
    fun hfree hslot hproject hacquisition r hr hnames =>
      (hunreplaced hproject hacquisition r hr hnames).elim (hfree r hr) (hslot r hr)
  cases hacquired with
  | terminal | other | refused => exact h
  | rebound c note hmem hslot hfree hundecided =>
    -- the claim that was given is the one that is taken over
    have hsame : p.project = a.project → p.acquisitionId = a.acquisitionId →
        ∀ r ∈ s.claims, p.Names r → r = c := by
      intro hproject hacquisition r hr hnames
      rcases hunreplaced hproject hacquisition r hr hnames with hcarries | hin
      · exact hfree r hr hcarries
      · obtain ⟨hinstance, hevaluator⟩ := evaluates_iff.mp hin.2.2
        obtain ⟨hinstance', hevaluator'⟩ := evaluates_iff.mp hslot.2.2
        exact hsound.slot r hr c hmem hin.2.1 hslot.2.1 (hin.1.trans hslot.1.symm)
          (hinstance.trans hinstance'.symm) (hevaluator.trans hevaluator'.symm)
    have horigin : ∀ r' ∈ reboundClaims a c s, p.Names r' →
        ∃ r ∈ s.claims, p.Names r ∧ r'.project = r.project ∧ (r = c → r' = a.rebound c) ∧
          (r ≠ c → r' = r) := by
      intro r' hr' hnames
      rcases (mem_reboundClaims hmem hslot).mp hr' with ⟨hr, hne⟩ | rfl
      · exact ⟨r', hr, hnames, rfl, fun heq => absurd heq hne, fun _ => rfl⟩
      · exact ⟨c, hmem, hnames, rfl, fun _ => rfl, fun hne => absurd rfl hne⟩
    refine ⟨fun r' hr' hnames => ?_, fun r' hr' hnames c' hc' hproject hacquisition => ?_,
      fun r' hr' hnames => ?_, ?_⟩
    · obtain ⟨r, hr, hnames, hproject, -⟩ := horigin r' hr' hnames
      exact hproject.trans (h.project r hr hnames)
    · obtain ⟨r, hr, hnames, -, htaken, hkept⟩ := horigin r' hr' hnames
      rcases (mem_reboundClaims hmem hslot).mp hc' with ⟨hc, hne⟩ | rfl
      · have heq := h.carried r hr hnames c' hc hproject hacquisition
        exact heq.trans (hkept (heq ▸ hne)).symm
      · exact (htaken (hsame (hproject.symm.trans hslot.1) hacquisition.symm r hr hnames)).symm
    · obtain ⟨r, hr, hnames, -⟩ := horigin r' hr' hnames
      exact h.undecided r hr hnames
    · rcases h.lasting with ⟨r, hr, hnames⟩ | hgone
      · by_cases heq : r = c
        · rw [heq] at hnames
          exact .inl ⟨a.rebound c, (mem_reboundClaims hmem hslot).mpr (.inr rfl), hnames⟩
        · exact .inl ⟨r, (mem_reboundClaims hmem hslot).mpr (.inl ⟨hr, heq⟩), hnames⟩
      · exact .inr hgone
  | noWork cycleExhausted acquisitions hfree hslot hinsert =>
    refine ⟨h.project, h.carried, fun r hr hnames => ?_, h.lasting⟩
    refine (get_insert hinsert _).trans ?_
    rw [if_neg, h.undecided r hr hnames]
    intro heq
    obtain ⟨hproject, hacquisition⟩ := Prod.mk.inj heq
    exact hnot hfree hslot hproject.symm hacquisition.symm r hr hnames
  | claim generation phase note claims hfree hslot hundecided hauthority hnote hinsert =>
    have hold : ∀ r ∈ claims, p.Names r → r ∈ s.claims := by
      intro r hr hnames
      rcases (mem_insert hinsert).mp hr with hr | rfl
      · exact hr
      · rcases h.lasting with ⟨r, hr, hids⟩ | hgone
        · exact absurd (hids.1.trans hnames.1.symm)
            (get_eq_none.mp (insert_eq_some.mp hinsert).1 r hr)
        · rw [← hnames.2, show (a.newClaim sys generation phase note).createdAtMs = a.nowMs from rfl,
            terminalRetentionMs] at hgone
          omega
    refine ⟨fun r hr hnames => h.project r (hold r hr hnames) hnames,
      fun r hr hnames c hc hproject hacquisition => ?_,
      fun r hr hnames => h.undecided r (hold r hr hnames) hnames, ?_⟩
    · rcases (mem_insert hinsert).mp hc with hc | rfl
      · exact h.carried r (hold r hr hnames) hnames c hc hproject hacquisition
      · exact absurd hnames (hnot hfree hslot hproject.symm hacquisition.symm r (hold r hr hnames))
    · rcases h.lasting with ⟨r, hr, hnames⟩ | hgone
      · exact .inl ⟨r, (mem_insert hinsert).mpr (.inl hr), hnames⟩
      · exact .inr hgone

/-- What is answered now is so afterwards. -/
theorem fits_answer (hacquired : Acquired sys a s outcome s') :
    ∀ p ∈ answer a outcome, p.Fits s' a.nowMs := by
  intro p hp
  cases hacquired with
  | terminal | other | noWork => cases hp
  | refused _ _ _ houtcome =>
    cases outcome with
    | claim c note replayed => exact absurd rfl (houtcome c note replayed)
    | noWork | expired | terminal | busy | authorityChanged | invalid => cases hp
  | rebound c note hmem hslot hfree hundecided =>
    obtain rfl := List.mem_singleton.mp hp
    have hself : a.rebound c ∈ reboundClaims a c s := (mem_reboundClaims hmem hslot).mpr (.inr rfl)
    have honly : ∀ r ∈ reboundClaims a c s, r.claimId = c.claimId → r = a.rebound c :=
      fun r hr hid => eq_of_key hr hself hid
    refine ⟨fun r hr hnames => ?_, fun r hr hnames c' hc' hproject hacquisition => ?_,
      fun r hr hnames => hundecided, .inl ⟨_, hself, rfl, rfl⟩⟩
    · rw [honly r hr hnames.1]
      exact hslot.1
    · rw [honly r hr hnames.1]
      rcases (mem_reboundClaims hmem hslot).mp hc' with ⟨hc, hne⟩ | rfl
      · exact absurd (hfree c' hc ⟨hproject, hacquisition⟩) hne
      · rfl
  | claim generation phase note claims hfree hslot hundecided hauthority hnote hinsert =>
    obtain rfl := List.mem_singleton.mp hp
    have hself : a.newClaim sys generation phase note ∈ claims :=
      (mem_insert hinsert).mpr (.inr rfl)
    have honly : ∀ r ∈ claims, r.claimId = evalClaimId sys a.project a.acquisitionId →
        r = a.newClaim sys generation phase note := fun r hr hid => eq_of_key hr hself hid
    refine ⟨fun r hr hnames => ?_, fun r hr hnames c' hc' hproject hacquisition => ?_,
      fun r hr hnames => hundecided, .inl ⟨_, hself, rfl, rfl⟩⟩
    · rw [honly r hr hnames.1]
      rfl
    · rw [honly r hr hnames.1]
      rcases (mem_insert hinsert).mp hc' with hc | rfl
      · exact absurd ⟨hproject, hacquisition⟩ (hfree c' hc)
      · rfl

end Acquired

/-! ## The invariant of a state -/

structure EvalState.Fits (s : EvalState) (now : Int) : Prop where
  sound : s.ledgers.Sound now
  answered : ∀ p ∈ s.answered, p.Fits s.ledgers now

variable {sys : Platform} {cap : Nat}

theorem EvalState.Fits.later {s : EvalState} {before : Int} (h : s.Fits before)
    (hnow : before ≤ now) :
    s.Fits now :=
  ⟨h.sound.later hnow, fun p hp => (h.answered p hp).later hnow⟩

variable (cap) in
/-- What a smooth acquisition does. -/
theorem EvalState.Fits.acquire {s : EvalState} {a : Acquire} (h : s.Fits a.nowMs)
    (hsmooth : s.Smooth sys (.acquire a)) (hvalid : a.valid = true) :
    ∃ outcome s', acquireNoteEvaluation sys cap a s.ledgers = .ok (outcome, s') ∧
      Acquired sys a (s.ledgers.collect a.project a.nowMs) outcome s' :=
  acquire_cases cap (h.sound.collect a.project) (fun c hc hid => by
    by_contra hnot
    rw [not_or] at hnot
    exact hsmooth hvalid c hc ⟨.inl hid, hnot⟩) hvalid

/-- Clearing the ledgers keeps the invariant. -/
theorem EvalState.Fits.collect {s : EvalState} (h : s.Fits now) (project : String) :
    (s.ledgers.collect project now).Sound now ∧
      ∀ p ∈ s.answered, p.Fits (s.ledgers.collect project now) now :=
  ⟨h.sound.collect project, fun p hp => (h.answered p hp).quiet h.sound (quiet_collect _ _)
    fun _ => Ledgers.get_collect_acquisitions _ _⟩

/-- A quiet call keeps the invariant. -/
theorem EvalState.Fits.quiet {s : EvalState} (h : s.Fits now) {ledgers : Ledgers}
    (hsound : ledgers.Sound now) (hquiet : Quiet now s.ledgers.claims ledgers.claims)
    (hacquisitions : ledgers.acquisitions = s.ledgers.acquisitions) :
    ({ s with ledgers } : EvalState).Fits now ∧ Steps now s.ledgers.claims ledgers.claims :=
  ⟨⟨hsound, fun p hp => (h.answered p hp).quiet h.sound hquiet fun _ hk => hacquisitions ▸ hk⟩,
    hquiet.steps⟩

theorem EvalState.Fits.onlyAges {s : EvalState} (h : s.Fits now) {ledgers : Ledgers}
    (hages : OnlyAges now s.ledgers ledgers) :
    ({ s with ledgers } : EvalState).Fits now ∧ Steps now s.ledgers.claims ledgers.claims := by
  have hsound := hages.sound h.sound
  obtain ⟨claims, rfl, hquiet⟩ := hages
  exact h.quiet hsound hquiet rfl

/-- Every smooth event keeps the invariant, and follows every claim. -/
theorem EvalState.Fits.step {s : EvalState} {event : EvalEvent} (h : s.Fits event.nowMs)
    (hsmooth : s.Smooth sys event) :
    (s.step sys cap event).Fits event.nowMs ∧
      ∀ c, Tracks c event.nowMs s.ledgers →
        Tracks c event.nowMs (s.step sys cap event).ledgers := by
  have follow : ∀ {s' : EvalState} {now : Int}, s.Fits now →
      s'.Fits now ∧ Steps now s.ledgers.claims s'.ledgers.claims →
      s'.Fits now ∧ ∀ c, Tracks c now s.ledgers → Tracks c now s'.ledgers :=
    fun h hstep => ⟨hstep.1, fun c htracks => htracks.step h.sound hstep.2⟩
  cases event with
  | acquire a =>
    by_cases hvalid : a.valid = true
    · obtain ⟨outcome, ledgers, hok, hacquired⟩ := h.acquire cap hsmooth hvalid
      obtain ⟨hsound, hanswered⟩ := h.collect a.project
      simp only [EvalState.step, hok]
      refine ⟨⟨hacquired.sound hsound, fun p hp => ?_⟩, fun c htracks => ?_⟩
      · rcases List.mem_append.mp hp with hp | hp
        · refine (hanswered p hp).acquired hsound hacquired fun hproject hacquisition r hr hnames => ?_
          by_contra hnot
          rw [not_or] at hnot
          refine hsmooth hvalid r hr ⟨.inr ?_, hnot⟩
          rw [← hproject, ← hacquisition, hnames.1, hnames.2]
          exact hp
        · exact fits_answer hacquired p hp
      · have hcollected : Tracks c a.nowMs (s.ledgers.collect a.project a.nowMs) :=
          htracks.step h.sound (quiet_collect _ _).steps
        exact hcollected.step hsound hacquired.steps
    · simp only [EvalState.step, acquireNoteEvaluation, if_neg hvalid, answer, List.append_nil]
      exact ⟨h, fun c => id⟩
  | renew r => exact follow h (h.onlyAges (onlyAges_renew r s.ledgers))
  | complete e =>
    obtain ⟨hsound, hquiet, hacquisitions⟩ := sound_complete e h.sound
    exact follow h (h.quiet hsound hquiet hacquisitions)
  | abandon b => exact follow h (h.onlyAges (onlyAges_abandon b s.ledgers))
  | edit e =>
    obtain ⟨hsound, hquiet, hacquisitions⟩ := sound_editNotes e h.sound
    exact follow h (h.quiet hsound hquiet hacquisitions)
  | transition key t now =>
    obtain ⟨hsound, hquiet, hacquisitions⟩ := sound_transition sys key t h.sound
    exact follow h (h.quiet hsound hquiet hacquisitions)

/-! ## Runs -/

section Runs

variable {start : Ledgers}

/-- The clock does not go back, and every event is smooth. -/
structure EvalState.SmoothRun (sys : Platform) (cap : Nat) (start : Ledgers)
    (events : List EvalEvent) : Prop where
  clock : (events.map EvalEvent.nowMs).Pairwise (· ≤ ·)
  smooth : ∀ before event, before ++ [event] <+: events →
    (EvalState.run sys cap start before).Smooth sys event

open EvalState (SmoothRun)

theorem evalRun_concat (before : List EvalEvent) (event : EvalEvent) :
    EvalState.run sys cap start (before ++ [event]) =
      (EvalState.run sys cap start before).step sys cap event := by
  rw [EvalState.run, List.foldl_append]
  rfl

theorem EvalState.SmoothRun.prefix_of {events before : List EvalEvent}
    (h : SmoothRun sys cap start events) (hinitial : before <+: events) :
    SmoothRun sys cap start before where
  clock := h.clock.sublist (hinitial.sublist.map _)
  smooth _ _ hp := h.smooth _ _ (hp.trans hinitial)

/-- The clock of the last event is the latest. -/
theorem EvalState.SmoothRun.le {before : List EvalEvent} {event : EvalEvent}
    (h : SmoothRun sys cap start (before ++ [event])) :
    ∀ e ∈ before, e.nowMs ≤ event.nowMs := by
  have hclock := h.clock
  rw [List.map_append, List.pairwise_append] at hclock
  exact fun e he => hclock.2.2 _ (List.mem_map_of_mem he) _ (List.mem_singleton_self _)

/-- What every event keeps at its time, a part of a run keeps. -/
theorem evalRun_induction {P : Int → EvalState → Prop} {first between : List EvalEvent}
    (h : SmoothRun sys cap start (first ++ between))
    (hlater : ∀ s before now, before ≤ now → P before s → P now s)
    (hstart : ∀ now, (∀ e ∈ first, e.nowMs ≤ now) → P now (EvalState.run sys cap start first))
    (hstep : ∀ part event, part ++ [event] <+: between →
      P event.nowMs (EvalState.run sys cap start (first ++ part)) →
      P event.nowMs ((EvalState.run sys cap start (first ++ part)).step sys cap event)) :
    ∀ now, (∀ e ∈ first ++ between, e.nowMs ≤ now) →
      P now (EvalState.run sys cap start (first ++ between)) := by
  induction between using List.reverseRecOn with
  | nil => simpa only [List.append_nil] using hstart
  | append_singleton part event ih =>
    intro now hnow
    rw [← List.append_assoc] at h ⊢
    rw [evalRun_concat]
    have hpart := h.prefix_of (List.prefix_append (first ++ part) [event])
    refine hlater _ event.nowMs now (hnow event (by simp)) (hstep part event (List.prefix_refl _) ?_)
    exact ih hpart (fun part' event' hp => hstep part' event' (hp.trans (List.prefix_append _ _)))
      event.nowMs h.le

theorem fits_evalRun {notes : Notes} {authority : Table AuthorityEntry.key}
    {events : List EvalEvent}
    (h : SmoothRun sys cap { notes, authority } events) (hnow : ∀ e ∈ events, e.nowMs ≤ now) :
    (EvalState.run sys cap { notes, authority } events).Fits now := by
  refine evalRun_induction (P := fun now s => s.Fits now)
    (show SmoothRun sys cap { notes, authority } ([] ++ events) from h)
    (fun s before now hle hfits => hfits.later hle) (fun now _ => ?_) (fun part event hp hfits => ?_)
    now hnow
  · exact ⟨Ledgers.sound_start notes authority, fun p hp => absurd hp List.not_mem_nil⟩
  · exact (hfits.step (h.smooth part event hp)).1

variable {notes : Notes} {authority : Table AuthorityEntry.key} {first between : List EvalEvent}

/-- The invariant before an event, at its time. -/
theorem fits_before {before : List EvalEvent} {event : EvalEvent}
    (h : SmoothRun sys cap { notes, authority } (before ++ [event])) :
    (EvalState.run sys cap { notes, authority } before).Fits event.nowMs :=
  fits_evalRun (h.prefix_of (List.prefix_append _ _)) h.le

theorem tracks_evalRun (h : SmoothRun sys cap { notes, authority } (first ++ between))
    {c : EvalClaim} (hc : c ∈ (ledgersAfter sys cap { notes, authority } first).claims)
    (hnow : ∀ e ∈ first ++ between, e.nowMs ≤ now) :
    Tracks c now (ledgersAfter sys cap { notes, authority } (first ++ between)) := by
  refine evalRun_induction (P := fun now s => Tracks c now s.ledgers) h
    (fun s before now hle htracks => htracks.later hle) (fun now _ => tracks_self hc)
    (fun part event hp htracks => ?_) now hnow
  have hpart : SmoothRun sys cap { notes, authority } (first ++ part ++ [event]) :=
    h.prefix_of (by simpa [List.append_assoc] using hp)
  exact ((fits_before hpart).step (hpart.smooth _ _ (List.prefix_refl _))).2 c htracks

/-- Every event is over at some time. -/
theorem exists_clock (events : List EvalEvent) : ∃ now : Int, ∀ e ∈ events, e.nowMs ≤ now := by
  induction events with
  | nil => exact ⟨0, fun _ he => absurd he List.not_mem_nil⟩
  | cons first events ih =>
    obtain ⟨now, hnow⟩ := ih
    refine ⟨max first.nowMs now, fun e he => ?_⟩
    rcases List.mem_cons.mp he with rfl | he
    · exact le_max_left _ _
    · exact (hnow e he).trans (le_max_right _ _)

/-- A claim evolves as long as it is there. -/
theorem evolves_evalRun (h : SmoothRun sys cap { notes, authority } (first ++ between))
    {c c' : EvalClaim} (hc : c ∈ (ledgersAfter sys cap { notes, authority } first).claims)
    (hc' : c' ∈ (ledgersAfter sys cap { notes, authority } (first ++ between)).claims)
    (hid : c'.claimId = c.claimId) (hcreated : c'.createdAtMs = c.createdAtMs) : c.Evolves c' := by
  obtain ⟨now, hnow⟩ := exists_clock (first ++ between)
  exact (tracks_evalRun h hc hnow).evolves hc' hid hcreated

/-- What has been answered stays so. -/
theorem mem_answered_evalRun {p : Answered} (hp : p ∈ (EvalState.run sys cap start first).answered)
    (between : List EvalEvent) : p ∈ (EvalState.run sys cap start (first ++ between)).answered := by
  induction between using List.reverseRecOn with
  | nil => rwa [List.append_nil]
  | append_singleton part event ih =>
    rw [← List.append_assoc, evalRun_concat]
    cases event with
    | acquire a =>
      simp only [step]
      split
      · exact ih
      · exact List.mem_append_left _ ih
    | renew | complete | abandon | edit | transition => exact ih

/-! ## The parts -/

section Parts

variable {a a' : Acquire} {c row : EvalClaim} {note : Note} {replayed : Bool}

/-- A call that is answered with a claim is of its evaluator. -/
theorem claim_of_acquired {s s' : Ledgers} (h : Acquired sys a s (.claim c note replayed) s') :
    c ∈ s'.claims ∧ a.evaluates c = true := by
  cases h with
  | rebound old note' hmem hslot hfree hundecided =>
    exact ⟨(mem_reboundClaims hmem hslot).mpr (.inr rfl), hslot.2.2⟩
  | refused _ _ _ houtcome => exact absurd rfl (houtcome c note replayed)
  | claim generation phase note' claims hfree hslot hundecided hauthority hnote hinsert =>
    exact ⟨(mem_insert hinsert).mpr (.inr rfl), evaluates_iff.mpr ⟨rfl, rfl⟩⟩

/-- A repeated acquisition whose claim is there is answered with it. -/
theorem answers_of_acquired {s s' : Ledgers} {outcome : AcquireOutcome} {p : Answered}
    {noteId : Nat}
    (hsound : s.Sound a'.nowMs) (hp : p.Fits s a'.nowMs) (hproject : p.project = a'.project)
    (hacquisition : p.acquisitionId = a'.acquisitionId) (hrow : row ∈ s.claims) (hnames : p.Names row)
    (hfound : row.Carries a' ∨ row.InSlot a') (hnote : row.noteId = noteId)
    (h : Acquired sys a' s outcome s') : Answers a' noteId row outcome := by
  have hfree : ¬ ((∀ c ∈ s.claims, ¬ c.Carries a') ∧ ∀ c ∈ s.claims, ¬ c.InSlot a') :=
    fun ⟨hcarries, hslot⟩ => hfound.elim (hcarries row hrow) (hslot row hrow)
  have hcarried : ∀ c ∈ s.claims, c.Carries a' → c = row := fun c hc hcarries =>
    hp.carried row hrow hnames c hc (hcarries.1.trans hproject.symm)
      (hcarries.2.trans hacquisition.symm)
  cases h with
  | terminal c t hmem hcarries hterminal =>
    obtain rfl := hcarried c hmem hcarries
    exact .inl ⟨t, hterminal, rfl⟩
  | other c hmem hcarries hevaluates =>
    obtain rfl := hcarried c hmem hcarries
    exact .inr (.inr ⟨hevaluates, rfl⟩)
  | rebound c note hmem hslot honly hundecided =>
    have hsame : row = c := by
      rcases hfound with hcarries | hin
      · exact honly row hrow hcarries
      · obtain ⟨hinstance, hevaluator⟩ := evaluates_iff.mp hin.2.2
        obtain ⟨hinstance', hevaluator'⟩ := evaluates_iff.mp hslot.2.2
        exact hsound.slot row hrow c hmem hin.2.1 hslot.2.1 (hin.1.trans hslot.1.symm)
          (hinstance.trans hinstance'.symm) (hevaluator.trans hevaluator'.symm)
    rw [hsame] at hnote ⊢
    exact .inr (.inl ⟨a'.rebound c, note, rfl, rfl, hnote, rfl⟩)
  | refused outcome hcarries hslot houtcome =>
    refine absurd ⟨hcarries, hslot ?_ ?_⟩ hfree
    · rw [← hproject, ← hacquisition]
      exact hp.undecided row hrow hnames
    · have hin := hfound.resolve_left (hcarries row hrow)
      rw [← hin.1]
      exact hsound.authority row hrow hin.2.1
  | noWork cycleExhausted acquisitions hcarries hslot hinsert => exact absurd ⟨hcarries, hslot⟩ hfree
  | claim generation phase note claims hcarries hslot hundecided hauthority hnote' hinsert =>
    exact absurd ⟨hcarries, hslot⟩ hfree

theorem valid_of_claim {s s' : Ledgers}
    (h : acquireNoteEvaluation sys cap a s = .ok (.claim c note replayed, s')) :
    a.valid = true := by
  by_contra hvalid
  rw [acquireNoteEvaluation, if_neg hvalid] at h
  cases h

theorem valid_of_evaluates (hvalid : a.valid = true) (hproject : a'.project = a.project)
    (hacquisition : a'.acquisitionId = a.acquisitionId) (hc : a.evaluates c = true)
    (hrow : a'.evaluates row = true) (hevolves : c.Evolves row) : a'.valid = true := by
  obtain ⟨hinstance, hslot⟩ := evaluates_iff.mp hc
  obtain ⟨hinstance', hslot'⟩ := evaluates_iff.mp hrow
  rw [Acquire.valid, hproject, hacquisition, ← hinstance', ← hslot', hevolves.evaluatorInstance,
    hevolves.evaluatorSlot, hinstance, hslot]
  exact hvalid

/-- A completion that changes a note, or is applied, is of a live claim, and leaves it terminal. -/
theorem complete_applied {e : Complete} {s : Ledgers}
    (h : Changes e s ∨ ∃ response, (completeNoteEvaluation e s).1 = .applied response) :
    ∃ c note response, Live e s c note ∧ (completeNoteEvaluation e s).1 = .applied response ∧
      (∀ id, id ≠ c.noteId → (completeNoteEvaluation e s).2.notes.get id = s.notes.get id) ∧
      c.end .applied response (some e.completionId) e.nowMs ∈ (completeNoteEvaluation e s).2.claims := by
  rcases complete_cases e s with ⟨⟨claims, heq, -⟩, hnot⟩ | ⟨c, note, reduced, response, hlive, heq⟩
  · rcases h with hchanges | ⟨response, happlied⟩
    · rw [Changes, heq] at hchanges
      exact absurd rfl hchanges
    · exact absurd happlied (hnot response)
  · rw [heq]
    refine ⟨c, note, response, hlive, rfl, fun id hne => ?_, mem_endWhere.mpr ⟨c, hlive.mem, ?_⟩⟩
    · refine (get_updateRow _ _ id).trans ?_
      cases hget : s.notes.get id with
      | none => rfl
      | some n => simp [id_of_get hget, hne]
    · rw [if_pos]
      rw [Bool.and_eq_true, decide_eq_true_eq]
      exact ⟨active_iff.mpr hlive.terminal, hlive.project, hlive.claimId⟩

theorem validId_of_applied {e : Complete} {s : Ledgers} {response : Response}
    (h : (completeNoteEvaluation e s).1 = .applied response) : validId e.completionId = true := by
  by_contra hvalid
  rw [completeNoteEvaluation, Bool.eq_false_iff.mpr hvalid] at h
  cases h

/-- A completion of a claim that was completed under its id. -/
theorem complete_settled {e : Complete} {s : Ledgers} {t : Terminal} {response : Response}
    (hvalid : validId e.completionId = true) (hmem : row ∈ s.claims) (hproject : row.project = e.project)
    (hid : row.claimId = e.claimId) (hterminal : row.terminal = some t)
    (hcompletion : row.completionId = some e.completionId)
    (hresponse : t.response = some response ∨ t.response = none) :
    completeNoteEvaluation e s =
      (if t.response.isSome then .replayed response else .conflict .expired, s) := by
  unfold completeNoteEvaluation
  rw [hvalid, loadClaim_eq_some.mpr ⟨hmem, hid, hproject⟩]
  simp only [Bool.not_true, Bool.false_eq_true, if_false, hterminal, Complete.settled, hcompletion,
    if_true]
  rcases hresponse with heq | heq
  · rw [heq]
    rfl
  · rw [heq]
    rfl

end Parts

theorem note_evaluations (sys : Platform) (cap : Nat) (notes : Notes)
    (authority : Table AuthorityEntry.key) (events : List EvalEvent)
    (hclock : (events.map EvalEvent.nowMs).Pairwise (· ≤ ·))
    (hsmooth : ∀ before event, before ++ [event] <+: events →
      (EvalState.run sys cap { notes, authority } before).Smooth sys event) :
    NoteEvaluations sys cap { notes, authority } events where
  unfailing before a hinitial := by
    have hrun : SmoothRun sys cap { notes, authority } (before ++ [.acquire a]) :=
      SmoothRun.prefix_of ⟨hclock, hsmooth⟩ hinitial
    by_cases hvalid : a.valid = true
    · obtain ⟨outcome, s, hok, -⟩ := (fits_before hrun).acquire cap
        (hsmooth before _ hinitial) hvalid
      exact ⟨outcome, s, hok⟩
    · exact ⟨.invalid, _, if_neg hvalid⟩
  alone before hinitial c hc c' hc' hactive hactive' hsame := by
    obtain ⟨now, hnow⟩ := exists_clock before
    have hfits := fits_evalRun (SmoothRun.prefix_of ⟨hclock, hsmooth⟩ hinitial) hnow
    rcases hsame with hnote | ⟨hproject, hinstance, hslot⟩
    · exact hfits.sound.note c hc c' hc' hactive hactive' hnote
    · exact hfits.sound.slot c hc c' hc' hactive hactive' hproject hinstance hslot
  answered before a between a' c note replayed s hinitial hproject hacquisition hok row hrow hid
      hcreated := by
    have hrun : SmoothRun sys cap { notes, authority }
        (before ++ [.acquire a] ++ between ++ [.acquire a']) :=
      SmoothRun.prefix_of ⟨hclock, hsmooth⟩ hinitial
    have hmid : SmoothRun sys cap { notes, authority } (before ++ [.acquire a]) :=
      hrun.prefix_of ((List.prefix_append _ between).trans (List.prefix_append _ _))
    have hvalid := valid_of_claim hok
    -- the first acquisition has given the claim, and it is remembered
    obtain ⟨outcome, s₁, hok₁, hacquired⟩ := (fits_before hmid).acquire cap
      (hmid.smooth before _ (List.prefix_refl _)) hvalid
    cases hok.symm.trans hok₁
    obtain ⟨hc, hevaluates⟩ := claim_of_acquired hacquired
    have hstep : EvalState.run sys cap { notes, authority } (before ++ [.acquire a]) =
        ⟨s, (EvalState.run sys cap { notes, authority } before).answered ++
          [⟨a.project, a.acquisitionId, c.claimId, c.createdAtMs⟩]⟩ := by
      rw [evalRun_concat]
      simp only [EvalState.step, show acquireNoteEvaluation sys cap a
        (EvalState.run sys cap { notes, authority } before).ledgers = _ from hok]
      rfl
    have hgiven : ⟨a.project, a.acquisitionId, c.claimId, c.createdAtMs⟩ ∈
        (EvalState.run sys cap { notes, authority } (before ++ [.acquire a])).answered := by
      rw [hstep]
      exact List.mem_append_right _ (List.mem_singleton_self _)
    have hremembered := mem_answered_evalRun hgiven between
    -- the claim is followed to the second one
    have hfits := fits_before hrun
    obtain ⟨hsound, hanswered⟩ := hfits.collect a'.project
    have hevolves : c.Evolves row := by
      have htracks := tracks_evalRun (hrun.prefix_of (List.prefix_append _ _))
        (by rw [ledgersAfter, hstep]; exact hc) hrun.le
      exact (htracks.step hfits.sound (quiet_collect _ _).steps).evolves hrow hid hcreated
    by_cases hvalid' : a'.valid = true
    · obtain ⟨outcome, s', hok', hacquired'⟩ := hfits.acquire cap
        (hrun.smooth _ _ (List.prefix_refl _)) hvalid'
      refine ⟨outcome, s', hok', ?_⟩
      refine answers_of_acquired hsound (hanswered _ hremembered) hproject.symm hacquisition.symm hrow
        ⟨hid, hcreated⟩ ?_ hevolves.noteId hacquired'
      by_contra hnot
      rw [not_or] at hnot
      refine hrun.smooth _ _ (List.prefix_refl _) hvalid' row hrow ⟨.inr ?_, hnot⟩
      rw [hproject, hacquisition, hid, hcreated]
      exact hremembered
    · refine ⟨.invalid, _, if_neg hvalid', .inr (.inr ⟨?_, rfl⟩)⟩
      by_contra hrows
      exact hvalid' (valid_of_evaluates hvalid hproject hacquisition hevaluates
        (Bool.not_eq_false _ ▸ hrows) hevolves)
  terminal earlier later hearlier hlater c hc c' hc' hid hcreated t ht := by
    obtain ⟨between, rfl⟩ := hearlier
    have hevolves := evolves_evalRun (SmoothRun.prefix_of ⟨hclock, hsmooth⟩ hlater) hc hc' hid hcreated
    obtain ⟨-, -, result⟩ := hevolves.terminal t ht
    exact result
  completed before e hinitial hchanges := by
    obtain ⟨c, note, response, hlive, -, hothers, -⟩ := complete_applied (.inl hchanges)
    refine ⟨c, note, hlive, fun id hne => ?_⟩
    rw [ledgersAfter, evalRun_concat]
    exact hothers id hne
  once before e between e' hinitial hchanges hchanges' c hc hclaim c' hc' hclaim' hsame := by
    have hrun : SmoothRun sys cap { notes, authority } (before ++ [.complete e] ++ between) :=
      SmoothRun.prefix_of ⟨hclock, hsmooth⟩ ((List.prefix_append _ _).trans hinitial)
    obtain ⟨c₁, note, response, hlive, -, -, hended⟩ := complete_applied (.inl hchanges)
    obtain rfl : c₁ = c := Table.eq_of_key hlive.mem hc (hlive.claimId.trans hclaim.symm)
    have hthere : c₁.end .applied response (some e.completionId) e.nowMs ∈
        (ledgersAfter sys cap { notes, authority } (before ++ [.complete e])).claims := by
      rw [ledgersAfter, evalRun_concat]
      exact hended
    have hevolves := evolves_evalRun hrun hthere hc' hsame.1 hsame.2
    obtain ⟨-, -, t, ht, -⟩ := hevolves.terminal _ rfl
    obtain ⟨c₂, _, _, hlive', -⟩ := complete_applied (.inl hchanges')
    obtain rfl : c₂ = c' := Table.eq_of_key hlive'.mem hc' (hlive'.claimId.trans hclaim'.symm)
    rw [hlive'.terminal] at ht
    cases ht
  repeated before e between e' response hinitial hproject hclaim hcompletion happlied c hc hid row hrow
      hrowid hcreated := by
    have hrun : SmoothRun sys cap { notes, authority } (before ++ [.complete e] ++ between) :=
      SmoothRun.prefix_of ⟨hclock, hsmooth⟩ ((List.prefix_append _ _).trans hinitial)
    obtain ⟨c₁, note, response', hlive, hfirst, -, hended⟩ := complete_applied (.inr ⟨_, happlied⟩)
    obtain rfl : c₁ = c := Table.eq_of_key hlive.mem hc (hlive.claimId.trans hid.symm)
    cases happlied.symm.trans hfirst
    have hthere : c₁.end .applied response (some e.completionId) e.nowMs ∈
        (ledgersAfter sys cap { notes, authority } (before ++ [.complete e])).claims := by
      rw [ledgersAfter, evalRun_concat]
      exact hended
    have hevolves := evolves_evalRun hrun hthere hrow hrowid hcreated
    obtain ⟨hstored, -, t, ht, -, -, hresponse⟩ := hevolves.terminal _ rfl
    have hvalid := validId_of_applied happlied
    rw [← hcompletion] at hvalid
    refine ⟨t, ht, hresponse, complete_settled hvalid hrow ?_ ?_ ht ?_ hresponse⟩
    · exact hevolves.project.trans (hlive.project.trans hproject.symm)
    · exact hrowid.trans (hid.trans hclaim.symm)
    · exact hstored.trans (congrArg some hcompletion.symm)

end Runs

namespace Sample

/-- A digest that keeps texts apart. -/
def plain : Platform where
  detects _ := false
  detectsInTransaction _ := false
  sha256Hex := id

/-- One note waits, in a project of the module. -/
def waiting : Notes := empty.insertNote .smart "p" none "text" (some "condition") {} 0

def owned : Table AuthorityEntry.key :=
  Table.empty.put ⟨⟨"store", "p", .notes⟩, { state := .MODULE, generation := 2 }⟩

/-- The first note that waits. -/
def firstNote (candidates : List Note) : Selection :=
  match candidates.head? with
  | some n => .claim n.id "due"
  | none => .noWork false

def acquisition (acquisitionId : String) (now : Int) : Acquire :=
  ⟨"p", acquisitionId, "worker", 0, 1, firstNote, now⟩

def completion : Complete where
  project := "p"
  claimId := evalClaimId plain "p" "a"
  completionId := "done"
  evaluatorInstance := "worker"
  evaluatorSlot := 0
  nowMs := 1
  apply _ n := .ok (some ⟨true, 1, n.check⟩)

/-- A claim and its completion. -/
def evaluated : List EvalEvent := [.acquire (acquisition "a" 0), .complete completion]

theorem note_evaluations_evaluated :
    NoteEvaluations plain ledgerCap { notes := waiting, authority := owned } evaluated := by
  refine note_evaluations plain ledgerCap waiting owned evaluated (by decide)
    fun before event hinitial => ?_
  rcases before with _ | ⟨first, _ | ⟨second, before⟩⟩
  · simp only [evaluated, List.nil_append, List.cons_prefix_cons] at hinitial
    obtain ⟨rfl, -⟩ := hinitial
    exact fun _ c hc => absurd hc List.not_mem_nil
  · simp only [evaluated, List.cons_append, List.nil_append, List.cons_prefix_cons] at hinitial
    obtain ⟨rfl, rfl, -⟩ := hinitial
    trivial
  · have hlength := hinitial.length_le
    simp [evaluated] at hlength

/-- The slot takes its claim over under a second acquisition, and gives it up. -/
def givenUp : List EvalEvent :=
  [.acquire (acquisition "a" 0), .acquire (acquisition "b" 1),
    .abandon ⟨"p", evalClaimId plain "p" "a", "worker", 0, 2⟩]

/-- The first acquisition comes again, and the id of its claim is still taken. -/
theorem late_retry_fails : ¬ NoteEvaluations plain ledgerCap
    { notes := waiting, authority := owned } (givenUp ++ [.acquire (acquisition "a" 3)]) := by
  intro h
  have hfails : (acquireNoteEvaluation plain ledgerCap (acquisition "a" 3)
      (ledgersAfter plain ledgerCap { notes := waiting, authority := owned } givenUp)).isOk =
      false := by
    decide +kernel
  obtain ⟨outcome, s, hok⟩ := h.unfailing givenUp (acquisition "a" 3) (List.prefix_refl _)
  rw [hok] at hfails
  cases hfails

end Sample

end MagicContext.Notes
