import MagicContext.Historian.Validate

/-!
# What a validated output covers

The ranges that are published tile the present ordinals from the start of the chunk on, and end
where no tool call is cut.  A range may be longer than it was written.  In a gap it only takes tool
messages; at the end of the output it takes whatever lies within the tool calls it closes.

## What is here

* `Splits` — an end that cuts a tool call.
* `healCompartmentGaps_concat` and `closeTerminalArcs_spec` — what healing adds.
* `tiles_of_validate` — ranges that pass the checks tile the chunk.
* `HonestCoverage` — what is expected of a published output, and `honestCoverage_of_validate`.
-/

namespace MagicContext.Historian

open Tiling

/-! ## Tool arcs -/

/-- A tool call is at or before `last`, and its result after it. -/
def Splits (arcs : List MessageRange) (last : Nat) : Prop :=
  ∃ arc ∈ arcs, arc.startMessage ≤ last ∧ last < arc.endMessage

theorem saturatingSucc_of_lt {n : Nat} (h : n < u64Max) : saturatingSucc n = n + 1 :=
  min_eq_left h

variable {arcs : List MessageRange}

theorem boundarySplits_iff {last : Nat} (h : last < u64Max) :
    boundarySplitsCompletedToolArc (saturatingSucc last) arcs = true ↔ Splits arcs last := by
  rw [boundarySplitsCompletedToolArc, List.any_eq_true, saturatingSucc_of_lt h]
  refine exists_congr fun arc => and_congr_right fun _ => ?_
  rw [MessageRange.crosses, Bool.and_eq_true, decide_eq_true_iff, decide_eq_true_iff]
  omega

/-- The ends of arcs are `u64`s. -/
def Words (arcs : List MessageRange) : Prop := ∀ arc ∈ arcs, arc.endMessage ≤ u64Max

instance (arcs : List MessageRange) : Decidable (Words arcs) :=
  inferInstanceAs (Decidable (∀ arc ∈ arcs, _))

theorem not_splits_of_boundary (hwords : Words arcs) {last : Nat}
    (h : boundarySplitsCompletedToolArc (saturatingSucc last) arcs = false) :
    ¬ Splits arcs last := by
  rcases Nat.lt_or_ge last u64Max with hlt | hge
  · rw [← boundarySplits_iff hlt, h]
    exact Bool.false_ne_true
  · rintro ⟨arc, harc, _, hend⟩
    have := hwords arc harc
    omega

/-! ## The end of the output -/

/-- A round ends at the end of an arc that its start cuts, or where it started. -/
theorem nextTerminalEnd_cases (arcs : List MessageRange) (chunkEnd lastEnd : Nat) :
    nextTerminalEnd arcs chunkEnd lastEnd = lastEnd ∨
      ∃ arc ∈ arcs, arc.startMessage ≤ lastEnd ∧ saturatingSucc lastEnd ≤ arc.endMessage ∧
        arc.endMessage = nextTerminalEnd arcs chunkEnd lastEnd := by
  rw [nextTerminalEnd]
  cases hmax : ((arcs.filter fun arc => decide (arc.endMessage ≤ chunkEnd) &&
      arc.crosses (saturatingSucc lastEnd)).map MessageRange.endMessage).max? with
  | none => exact Or.inl rfl
  | some m =>
    have hm := List.max?_mem hmax
    rw [List.mem_map] at hm
    obtain ⟨arc, harc, hend⟩ := hm
    rw [List.mem_filter] at harc
    simp only [MessageRange.crosses, Bool.and_eq_true, decide_eq_true_eq] at harc
    refine Or.inr ⟨arc, harc.1, ?_, harc.2.2.2, hend⟩
    have := harc.2.2.1
    rw [saturatingSucc] at this
    omega

/-- Every end that the last range is drawn out over cuts an arc. -/
theorem closeTerminalArcs_spec (hwords : Words arcs) {chunkEnd rounds e : Nat} (he : e ≤ u64Max) :
    e ≤ closeTerminalArcs arcs chunkEnd rounds e ∧
      closeTerminalArcs arcs chunkEnd rounds e ≤ u64Max ∧
      ∀ b, e ≤ b → b < closeTerminalArcs arcs chunkEnd rounds e → Splits arcs b := by
  induction rounds generalizing e with
  | zero => exact ⟨le_refl e, he, fun b hb hlt => absurd hlt (not_lt.mpr hb)⟩
  | succ rounds ih =>
    rw [closeTerminalArcs]
    split
    · exact ⟨le_refl e, he, fun b hb hlt => absurd hlt (not_lt.mpr hb)⟩
    · rename_i hne
      obtain ⟨arc, harc, hstart, hend, heq⟩ :=
        (nextTerminalEnd_cases arcs chunkEnd e).resolve_left hne
      have hle := hwords arc harc
      rw [heq] at hle
      obtain ⟨hmono, hmax, hsplits⟩ := ih hle
      have hgrows : e < nextTerminalEnd arcs chunkEnd e := by
        rw [saturatingSucc] at hend
        omega
      refine ⟨hgrows.le.trans hmono, hmax, fun b hb hlt => ?_⟩
      rcases Nat.lt_or_ge b (nextTerminalEnd arcs chunkEnd e) with hbefore | hafter
      · exact ⟨arc, harc, hstart.trans hb, heq ▸ hbefore⟩
      · exact hsplits b hafter hlt

/-! ## Gaps -/

/-- A range may have been drawn out over present tool messages. -/
structure Healed (toolOnly : Nat → Bool) (present : List Nat) (c c' : ParsedCompartment) :
    Prop where
  startMessage : c'.startMessage = c.startMessage
  added : ∀ o ∈ present, c.endMessage < o → o ≤ c'.endMessage → toolOnly o = true

theorem Healed.refl (toolOnly : Nat → Bool) (present : List Nat) (c : ParsedCompartment) :
    Healed toolOnly present c c := ⟨rfl, fun _ _ hlt hle => absurd hle (not_le.mpr hlt)⟩

theorem healed_healGap {toolOnly : Nat → Bool} {present : List Nat}
    {c next : ParsedCompartment} : Healed toolOnly present c (healGap toolOnly present c next) := by
  rw [healGap]
  dsimp only
  split
  · exact Healed.refl toolOnly present c
  split
  · exact Healed.refl toolOnly present c
  rename_i last hlast
  split
  · rename_i hall
    refine ⟨rfl, fun o ho hlt hle => ?_⟩
    have hmem := List.mem_of_getLast? hlast
    simp only [List.mem_filter, Bool.and_eq_true, decide_eq_true_eq] at hmem
    have hstart : saturatingSucc c.endMessage ≤ o := by
      rw [saturatingSucc]
      omega
    refine List.all_eq_true.mp hall o ?_
    simp only [List.mem_filter, Bool.and_eq_true, decide_eq_true_eq]
    exact ⟨ho, hstart, hle.trans hmem.2.2⟩
  · exact Healed.refl toolOnly present c

/-- Gap healing leaves the last range as it is. -/
theorem healCompartmentGaps_concat (toolOnly : Nat → Bool) (present : List Nat)
    (init : List ParsedCompartment) (last : ParsedCompartment) :
    ∃ init', healCompartmentGaps toolOnly present (init ++ [last]) = init' ++ [last] ∧
      List.Forall₂ (Healed toolOnly present) init init' := by
  induction init with
  | nil => exact ⟨[], rfl, List.Forall₂.nil⟩
  | cons c init ih =>
    obtain ⟨init', heq, hhealed⟩ := ih
    cases init with
    | nil =>
      cases hhealed
      refine ⟨[healGap toolOnly present c last], rfl, ?_⟩
      exact List.Forall₂.cons healed_healGap List.Forall₂.nil
    | cons d init =>
      refine ⟨healGap toolOnly present c d :: init', ?_, ?_⟩
      · rw [List.cons_append, List.cons_append, healCompartmentGaps, ← List.cons_append, heq,
          List.cons_append]
      · exact List.Forall₂.cons healed_healGap hhealed

/-! ## Checks -/

/-- The range of a compartment that was written. -/
def ParsedCompartment.range (c : ParsedCompartment) : Nat × Nat := (c.startMessage, c.endMessage)

/-- The range of a compartment to publish. -/
def ValidatedCompartment.range (c : ValidatedCompartment) : Nat × Nat :=
  (c.startMessage, c.endMessage)

theorem validateParsedCompartment_eq_none {chunk : HistorianChunk} {points : List Nat}
    {number : Nat} {expected : Option Nat} {c : ParsedCompartment}
    (h : validateParsedCompartment chunk points number expected c = none) :
    expected = some c.startMessage ∧ c.startMessage ≤ c.endMessage ∧ c.endMessage ∈ points := by
  unfold validateParsedCompartment at h
  split at h
  · cases h
  split at h
  · cases h
  rename_i horder
  split at h
  · cases h
  split at h
  · cases h
  split at h
  · cases h
  rename_i hend
  split at h
  · cases h
  split at h
  · rename_i heq
    rw [heq]
    exact ⟨rfl, heq ▸ not_lt.mp horder, by simpa using hend⟩
  · split at h <;> cases h

variable {cs : List ParsedCompartment}

/-- Compartments that pass the checks tile the chunk. -/
theorem tiles_of_validate {chunk : HistorianChunk} {points : List Nat}
    {unprocessedFrom expected : Option Nat} {number : Nat}
    (h : validateCompartmentsFrom chunk points unprocessedFrom number expected cs = none) :
    Tiles points expected (cs.map ParsedCompartment.range) := by
  induction cs generalizing number expected with
  | nil => trivial
  | cons c cs ih =>
    rw [validateCompartmentsFrom] at h
    split at h
    · cases h
    · rename_i hc
      obtain ⟨hexpected, horder, hmem⟩ := validateParsedCompartment_eq_none hc
      exact ⟨hexpected, horder, hmem, ih h⟩

/-- A compartment to publish has the range of the one it was made of, and an end that can anchor a
boundary. -/
structure Emits (chunk : HistorianChunk) (c : ParsedCompartment) (v : ValidatedCompartment) :
    Prop where
  range : v.range = c.range
  anchored : ∃ line ∈ chunk.lines, line.ordinal = v.endMessage ∧ line.anchorable = true ∧
    line.messageId = v.endMessageId ∧ v.endMessageId ≠ ""

theorem mapParsedCompartment_eq_ok {chunk : HistorianChunk} {sequence : Nat}
    {c : ParsedCompartment} {v : ValidatedCompartment}
    (h : mapParsedCompartment chunk sequence c = .ok v) : Emits chunk c v := by
  rw [mapParsedCompartment] at h
  split at h
  · rename_i startLine endLine _ hend
    split at h
    · cases h
    · rename_i hanchor
      cases h
      simp only [Bool.or_eq_true, Bool.not_eq_true', beq_iff_eq, not_or, Bool.not_eq_false]
        at hanchor
      refine ⟨rfl, endLine, List.mem_of_find?_eq_some hend, ?_, hanchor.1, rfl, hanchor.2⟩
      simpa using List.find?_some hend
  · cases h

theorem emits_of_map {chunk : HistorianChunk} {sequence : Nat}
    {vs : List ValidatedCompartment} (h : mapParsedCompartmentsToChunk chunk sequence cs = .ok vs) :
    List.Forall₂ (Emits chunk) cs vs := by
  induction cs generalizing sequence vs with
  | nil =>
    cases h
    exact List.Forall₂.nil
  | cons c cs ih =>
    rw [mapParsedCompartmentsToChunk] at h
    obtain ⟨v, hc, h⟩ := Checks.bind_eq_ok.mp h
    obtain ⟨vs', hcs, h⟩ := Checks.bind_eq_ok.mp h
    cases h
    exact List.Forall₂.cons (mapParsedCompartment_eq_ok hc) (ih hcs)

theorem ranges_eq_of_emits {chunk : HistorianChunk}
    {vs : List ValidatedCompartment} (h : List.Forall₂ (Emits chunk) cs vs) :
    vs.map ValidatedCompartment.range = cs.map ParsedCompartment.range := by
  induction h with
  | nil => rfl
  | cons hc _ ih => rw [List.map_cons, List.map_cons, hc.range, ih]

/-! ## What is published -/

/-- The compartments of an output, as they were written. -/
def writtenCompartments (regexes : Regexes) (text : String) : List ParsedCompartment :=
  match parseCompartmentOutput regexes text with
  | .ok parsed => parsed.compartments
  | .error _ => []

/-- What is expected of a published output, where `mayAdd` says of a present ordinal that it may be
covered without having been written. -/
structure HonestCoverage (chunk : HistorianChunk)
    (priorCompartments : List StoredCompartmentRange) (written : List ParsedCompartment)
    (mayAdd : Nat → Prop) (validated : ValidatedOutput) : Prop where
  /-- The compartments are in order and disjoint. -/
  ordered : validated.compartments.Pairwise fun c d => c.endMessage < d.startMessage
  /-- The first begins at the first present ordinal of the chunk. -/
  first : ∃ c ∈ validated.compartments.head?, chunk.chunkOrdinals.head? = some c.startMessage
  /-- Every present ordinal of the chunk up to the last end is in one of them. -/
  covered : ∀ last ∈ validated.compartments.getLast?, ∀ o ∈ chunk.chunkOrdinals,
    o ≤ last.endMessage → ∃! c, c ∈ validated.compartments ∧ c.startMessage ≤ o ∧ o ≤ c.endMessage
  /-- Every end is a present message that can anchor a boundary. -/
  ends : ∀ c ∈ validated.compartments, c.startMessage ≤ c.endMessage ∧
    c.endMessage ∈ chunk.chunkOrdinals ∧
    ∃ line ∈ chunk.lines, line.ordinal = c.endMessage ∧ line.anchorable = true ∧
      line.messageId = c.endMessageId ∧ c.endMessageId ≠ ""
  /-- What is left begins after the last end, and after all that is stored. -/
  unprocessed : (∀ last ∈ validated.compartments.getLast?,
      validated.unprocessedFrom = saturatingSucc last.endMessage) ∧
    ∀ c ∈ priorCompartments, c.endMessage < validated.unprocessedFrom
  /-- No completed tool call is cut by the last end. -/
  arcs : ∀ last ∈ validated.compartments.getLast?, ¬ Splits chunk.completedToolArcs last.endMessage
  /-- What is covered was written, or may be added. -/
  honest : ∀ o ∈ chunk.chunkOrdinals,
    (∃ c ∈ validated.compartments, c.startMessage ≤ o ∧ o ≤ c.endMessage) →
    (∀ c ∈ written, ¬ (c.startMessage ≤ o ∧ o ≤ c.endMessage)) → mayAdd o

/-- Every end from the last one written up to an ordinal after it would cut a completed tool call,
so that the ordinal belongs to what the call's result closes. -/
def ClosesArc (chunk : HistorianChunk) (written : List ParsedCompartment) (ordinal : Nat) : Prop :=
  ∃ last ∈ written.getLast?, last.endMessage < ordinal ∧
    ∀ b, last.endMessage ≤ b → b < ordinal → Splits chunk.completedToolArcs b

/-- What an output that is accepted went through. -/
structure Accepted (chunk : HistorianChunk) (priorCompartments : List StoredCompartmentRange)
    (options : ValidateOptions) (validated : ValidatedOutput) (init : List ParsedCompartment)
    (last : ParsedCompartment) (init' : List ParsedCompartment) (closed : Nat)
    (emitted : List ValidatedCompartment) : Prop where
  increasing : chunk.chunkPresentOrdinals.Pairwise (· < ·)
  stored : validateStoredCompartments priorCompartments = none
  start : ∀ c ∈ priorCompartments.getLast?, c.endMessage < chunk.startIndex
  written_le : last.endMessage ≤ u64Max
  healed : List.Forall₂ (Healed chunk.toolOnly chunk.chunkPresentOrdinals) init init'
  closed_eq : closed = closeTerminalArcs chunk.completedToolArcs chunk.endIndex
    (chunk.completedToolArcs.length + 1) last.endMessage
  emits : List.Forall₂ (Emits chunk) (init' ++ [{ last with endMessage := closed }]) emitted
  tiles : Tiles chunk.chunkOrdinals chunk.chunkOrdinals.head?
    ((init' ++ [{ last with endMessage := closed }]).map ParsedCompartment.range)
  whole : boundarySplitsCompletedToolArc (saturatingSucc closed) chunk.completedToolArcs = false
  published : validated.compartments =
    if discardsLast chunk options emitted then emitted.dropLast else emitted
  unprocessedFrom : validated.unprocessedFrom =
    saturatingSucc ((validated.compartments.getLast?.map ValidatedCompartment.endMessage).getD 0)

section
variable {chunk : HistorianChunk} {priorCompartments : List StoredCompartmentRange}
  {options : ValidateOptions} {validated : ValidatedOutput} {init init' : List ParsedCompartment}
  {last : ParsedCompartment} {closed : Nat} {emitted : List ValidatedCompartment}

theorem healOutput_eq {parsed : ParsedCompartmentOutput}
    (h : parsed.compartments = init ++ [last]) :
    ∃ init', List.Forall₂ (Healed chunk.toolOnly chunk.chunkPresentOrdinals) init init' ∧
      (healOutput chunk parsed).1 = init' ++ [{ last with
        endMessage := closeTerminalArcs chunk.completedToolArcs chunk.endIndex
          (chunk.completedToolArcs.length + 1) last.endMessage }] := by
  obtain ⟨init', heq, hhealed⟩ := healCompartmentGaps_concat chunk.toolOnly
    chunk.chunkPresentOrdinals init last
  refine ⟨init', hhealed, ?_⟩
  rw [healOutput, h, heq, healTerminalCompletedToolArc, List.getLast?_concat, List.dropLast_concat]

theorem checkHealed_eq_ok {cs : List ParsedCompartment} {unprocessedFrom : Option Nat}
    (h : checkHealed chunk options (cs ++ [last]) unprocessedFrom = .ok emitted) :
    List.Forall₂ (Emits chunk) (cs ++ [last]) emitted ∧
      Tiles chunk.chunkOrdinals chunk.chunkOrdinals.head?
        ((cs ++ [last]).map ParsedCompartment.range) ∧
      boundarySplitsCompletedToolArc (saturatingSucc last.endMessage)
        chunk.completedToolArcs = false := by
  rw [checkHealed] at h
  split at h
  · cases h
  rename_i emitted' hmap
  split at h
  · cases h
  rename_i hvalid
  split at h
  · cases h
  rename_i hwhole
  cases h
  rw [List.getLast?_concat] at hwhole
  exact ⟨emits_of_map hmap, tiles_of_validate hvalid, by simpa using hwhole⟩

/-- The plan publishes all that is emitted or all but the last. -/
theorem publishPlan_eq_ok {parsed : ParsedCompartmentOutput}
    (h : publishPlan chunk priorCompartments options parsed emitted = .ok validated) :
    validated.compartments =
        (if discardsLast chunk options emitted then emitted.dropLast else emitted) ∧
      validated.unprocessedFrom = saturatingSucc
        ((validated.compartments.getLast?.map ValidatedCompartment.endMessage).getD 0) := by
  rw [publishPlan] at h
  generalize (if discardsLast chunk options emitted = true then emitted.dropLast else emitted) =
    compartments at h ⊢
  split at h
  · cases h
  · cases h
    exact ⟨rfl, rfl⟩

theorem accepted_of_validate {regexes : Regexes} {text : String}
    (h : validateHistorianOutput regexes text chunk priorCompartments options = .ok validated) :
    ∃ init last init' closed emitted, writtenCompartments regexes text = init ++ [last] ∧
      Accepted chunk priorCompartments options validated init last init' closed emitted := by
  rw [validateHistorianOutput] at h
  split at h
  · cases h
  rename_i hcoverage
  split at h
  · cases h
  rename_i hstored
  cases hstart : validateStart chunk priorCompartments with
  | error e =>
    rw [hstart] at h
    cases h
  | ok u =>
  rw [hstart] at h
  cases hparse : parseCompartmentOutput regexes text with
  | error e =>
    rw [hparse] at h
    cases h
  | ok parsed =>
  rw [hparse] at h
  replace h : (if parsed.compartments.isEmpty = true then
      .error "Historian returned no usable compartments."
    else do
      let emitted ← checkHealed chunk options (healOutput chunk parsed).1
        (healOutput chunk parsed).2
      publishPlan chunk priorCompartments options parsed emitted) = Except.ok validated := h
  split at h
  · cases h
  rename_i hne
  obtain ⟨init, last, hwritten⟩ : ∃ init last, parsed.compartments = init ++ [last] := by
    rcases List.eq_nil_or_concat parsed.compartments with hnil | ⟨init, last, heq⟩
    · exact absurd (by rw [hnil]; rfl) hne
    · exact ⟨init, last, by rw [heq, List.concat_eq_append]⟩
  obtain ⟨init', hhealed, hheal⟩ := @healOutput_eq chunk _ _ _ hwritten
  rw [hheal] at h
  cases hcheck : checkHealed chunk options (init' ++ [{ last with
      endMessage := closeTerminalArcs chunk.completedToolArcs chunk.endIndex
        (chunk.completedToolArcs.length + 1) last.endMessage }]) (healOutput chunk parsed).2 with
  | error e =>
    rw [hcheck] at h
    cases h
  | ok emitted =>
  rw [hcheck] at h
  obtain ⟨hemits, htiles, hwhole⟩ := checkHealed_eq_ok hcheck
  replace h : publishPlan chunk priorCompartments options parsed emitted = .ok validated := h
  obtain ⟨hpublished, hunprocessed⟩ := publishPlan_eq_ok h
  refine ⟨init, last, init', closeTerminalArcs chunk.completedToolArcs chunk.endIndex
    (chunk.completedToolArcs.length + 1) last.endMessage, emitted, ?_, ?_⟩
  · rw [writtenCompartments, hparse]
    exact hwritten
  · refine ⟨present_increasing hcoverage, hstored, fun c hc => ?_, ?_, hhealed, rfl, hemits,
      htiles, hwhole, hpublished, hunprocessed⟩
    · rw [validateStart, hc] at hstart
      dsimp only at hstart
      split at hstart
      · cases hstart
      · rename_i hlt
        exact not_le.mp hlt
    · refine range_le_of_parse hparse last ?_
      rw [hwritten]
      exact List.mem_append_right _ (List.mem_singleton_self last)

/-- What is published is what would be emitted, or all of it but the last, and cuts no tool call. -/
theorem Accepted.prefix
    (h : Accepted chunk priorCompartments options validated init last init' closed emitted)
    (hwords : Words chunk.completedToolArcs) :
    ∃ (pre : List ValidatedCompartment) (final : ValidatedCompartment)
      (rest : List ValidatedCompartment), emitted = (pre ++ [final]) ++ rest ∧
      validated.compartments = pre ++ [final] ∧
      ¬ Splits chunk.completedToolArcs final.endMessage := by
  have hpublished := h.published
  split at hpublished
  · rename_i hdiscards
    rw [discardsLast, Bool.and_eq_true] at hdiscards
    have hdiscards := hdiscards.2
    split at hdiscards
    · rename_i dropped final pre hreverse
      have heq : emitted = (pre.reverse ++ [final]) ++ [dropped] := by
        have := congrArg List.reverse hreverse
        simpa using this
      rw [heq, List.dropLast_concat] at hpublished
      refine ⟨pre.reverse, final, [dropped], heq, hpublished, ?_⟩
      rw [Bool.and_eq_true, Bool.not_eq_true'] at hdiscards
      exact not_splits_of_boundary hwords hdiscards.2
    · cases hdiscards
  · have hne : emitted ≠ [] := by
      rintro rfl
      have := h.emits.length_eq
      simp at this
    obtain ⟨pre, final, heq⟩ := List.eq_nil_or_concat emitted |>.resolve_left hne
    rw [List.concat_eq_append] at heq
    refine ⟨pre, final, [], by rw [heq, List.append_nil], by rw [hpublished, heq], ?_⟩
    have hranges := ranges_eq_of_emits h.emits
    rw [heq, List.map_append, List.map_append, List.map_singleton, List.map_singleton] at hranges
    have hfinal : final.range = (last.startMessage, closed) :=
      List.singleton_inj.mp (List.append_inj_right' hranges rfl)
    have hend : final.endMessage = closed := congrArg Prod.snd hfinal
    rw [hend]
    exact not_splits_of_boundary hwords h.whole

theorem exists_of_forall₂ {α β : Type} {R : α → β → Prop} {xs : List α} {ys : List β}
    (h : List.Forall₂ R xs ys) {y : β} (hy : y ∈ ys) : ∃ x ∈ xs, R x y := by
  induction h with
  | nil => cases hy
  | @cons x y' xs ys hxy _ ih =>
    rcases List.mem_cons.mp hy with rfl | hy
    · exact ⟨x, List.mem_cons_self .., hxy⟩
    · obtain ⟨x', hx', hx'y⟩ := ih hy
      exact ⟨x', List.mem_cons_of_mem x hx', hx'y⟩

/-- The ends are `u64`s. -/
theorem Accepted.endMessage_le
    (h : Accepted chunk priorCompartments options validated init last init' closed emitted)
    (hwords : Words chunk.completedToolArcs) {v : ValidatedCompartment} (hv : v ∈ emitted) :
    v.endMessage ≤ u64Max := by
  have hclosed : closed ≤ u64Max := by
    rw [h.closed_eq]
    exact (closeTerminalArcs_spec hwords h.written_le).2.1
  obtain ⟨t, ht, hemits⟩ := exists_of_forall₂ h.emits hv
  have hend : v.endMessage = t.endMessage := (Prod.mk.inj hemits.range).2
  rw [hend]
  rcases List.mem_append.mp ht with ht | ht
  · have htiles := h.tiles
    rw [List.map_append, List.map_singleton] at htiles
    have hbefore := (List.pairwise_append.mp (tiles_pairwise htiles)).2.2 t.range
      (List.mem_map_of_mem ht) _ (List.mem_singleton_self _)
    have hvalid := (tiles_valid htiles _ (List.mem_append_right _ (List.mem_singleton_self _))).1
    exact (hbefore.le.trans hvalid).trans hclosed
  · cases List.mem_singleton.mp ht
    exact hclosed

/-- An ordinal that would be emitted was written, fills a gap of tool messages, or belongs to what
closing the last tool calls adds. -/
theorem Accepted.honest
    (h : Accepted chunk priorCompartments options validated init last init' closed emitted)
    (hwords : Words chunk.completedToolArcs) {o : Nat} (ho : o ∈ chunk.chunkOrdinals)
    {v : ValidatedCompartment} (hv : v ∈ emitted) (hstart : v.startMessage ≤ o)
    (hend : o ≤ v.endMessage)
    (hunwritten : ∀ c ∈ init ++ [last], ¬ (c.startMessage ≤ o ∧ o ≤ c.endMessage)) :
    chunk.toolOnly o = true ∨ ClosesArc chunk (init ++ [last]) o := by
  obtain ⟨t, ht, hemits⟩ := exists_of_forall₂ h.emits hv
  obtain ⟨heqStart, heqEnd⟩ := Prod.mk.inj hemits.range
  rw [heqStart] at hstart
  rw [heqEnd] at hend
  rcases List.mem_append.mp ht with ht | ht
  · obtain ⟨c, hc, hhealed⟩ := exists_of_forall₂ h.healed ht
    refine Or.inl (hhealed.added o (List.mem_of_mem_filter ho) ?_ hend)
    have := hunwritten c (List.mem_append_left _ hc)
    have := hhealed.startMessage
    omega
  · cases List.mem_singleton.mp ht
    have hafter : last.endMessage < o := by
      have := hunwritten last (List.mem_append_right _ (List.mem_singleton_self last))
      dsimp only at hstart
      omega
    obtain ⟨_, _, hsplits⟩ := @closeTerminalArcs_spec _ hwords chunk.endIndex
      (chunk.completedToolArcs.length + 1) _ h.written_le
    refine Or.inr ⟨last, List.getLast?_concat .., hafter, fun b hb hlt => ?_⟩
    refine hsplits b hb (hlt.trans_le ?_)
    rw [← h.closed_eq]
    exact hend

end

/-- **What is published covers the chunk from its start without a gap.**  A present ordinal that it
covers and that was not written is a tool message, or closes a tool call the output would cut. -/
theorem honestCoverage_of_validate {regexes : Regexes} {text : String} {chunk : HistorianChunk}
    {priorCompartments : List StoredCompartmentRange} {options : ValidateOptions}
    {validated : ValidatedOutput} (hwords : Words chunk.completedToolArcs)
    (hvalidate : validateHistorianOutput regexes text chunk priorCompartments options =
      .ok validated) :
    HonestCoverage chunk priorCompartments (writtenCompartments regexes text)
      (fun o => chunk.toolOnly o = true ∨
        ClosesArc chunk (writtenCompartments regexes text) o) validated := by
  obtain ⟨init, last, init', closed, emitted, hwritten, h⟩ := accepted_of_validate hvalidate
  obtain ⟨pre, final, rest, hemitted, hpublished, hfinal⟩ := h.prefix hwords
  have hsorted : chunk.chunkOrdinals.Pairwise (· < ·) := h.increasing.filter _
  have htiles : Tiles chunk.chunkOrdinals chunk.chunkOrdinals.head?
      ((pre ++ [final]).map ValidatedCompartment.range) := by
    have htiles := h.tiles
    rw [← ranges_eq_of_emits h.emits, hemitted, List.map_append] at htiles
    exact tiles_prefix htiles
  have hmem : ∀ c ∈ validated.compartments, c ∈ emitted := fun c hc => by
    rw [hemitted]
    exact List.mem_append_left _ (hpublished ▸ hc)
  have hordered : validated.compartments.Pairwise fun c d => c.endMessage < d.startMessage := by
    rw [hpublished]
    exact List.pairwise_map.mp (tiles_pairwise htiles)
  obtain ⟨head, hhead, hfirst⟩ : ∃ c ∈ validated.compartments.head?,
      chunk.chunkOrdinals.head? = some c.startMessage := by
    rw [hpublished]
    cases hcons : pre ++ [final] with
    | nil => exact absurd hcons (by simp)
    | cons c cs =>
      rw [hcons] at htiles
      exact ⟨c, rfl, htiles.1⟩
  have hlast : validated.compartments.getLast? = some final := by
    rw [hpublished, List.getLast?_concat]
  refine ⟨hordered, ⟨head, hhead, hfirst⟩, ?_, ?_, ⟨?_, ?_⟩, ?_, ?_⟩
  · intro last' hlast' o ho hle
    cases hlast.symm.trans hlast'
    rw [hfirst, List.map_append, List.map_singleton] at htiles
    have hstart : head.startMessage ≤ o := by
      obtain ⟨tail, htail⟩ := List.head?_eq_some_iff.mp hfirst
      rw [htail] at hsorted ho
      rcases List.mem_cons.mp ho with rfl | ho
      · exact le_refl _
      · exact (List.rel_of_pairwise_cons hsorted ho).le
    obtain ⟨r, hr, hro⟩ := tiles_covers hsorted htiles ho hstart hle
    rw [← List.map_singleton, ← List.map_append, ← hpublished] at hr
    obtain ⟨c, hc, rfl⟩ := List.mem_map.mp hr
    refine ⟨c, ⟨hc, hro⟩, fun d hd => ?_⟩
    exact @eq_of_pairwise _ _ _ _ ValidatedCompartment.range _ hordered _ _ hd.1 hc hd.2 hro
  · intro c hc
    obtain ⟨hvalid, hpoint⟩ := tiles_valid htiles c.range (List.mem_map_of_mem (hpublished ▸ hc))
    obtain ⟨t, _, hemits⟩ := exists_of_forall₂ h.emits (hmem c hc)
    exact ⟨hvalid, hpoint, hemits.anchored⟩
  · intro last' hlast'
    rw [h.unprocessedFrom, hlast']
    rfl
  · intro c hc
    have hcStart : c.endMessage < chunk.startIndex := by
      cases hprior : priorCompartments.getLast? with
      | none =>
        rw [List.getLast?_eq_none_iff.mp hprior] at hc
        cases hc
      | some d =>
        exact (endMessage_le_of_validate h.stored hprior c hc).trans_lt (h.start d hprior)
    obtain ⟨_, hpoint⟩ := tiles_valid htiles final.range
      (List.mem_map_of_mem (List.mem_append_right _ (List.mem_singleton_self final)))
    have hrange := List.of_mem_filter hpoint
    rw [HistorianChunk.inRange, Bool.and_eq_true] at hrange
    have hstart : chunk.startIndex ≤ final.endMessage := of_decide_eq_true hrange.1
    have hle := h.endMessage_le hwords
      (hmem final (hpublished ▸ List.mem_append_right pre (List.mem_singleton_self final)))
    rw [h.unprocessedFrom, hlast]
    exact lt_min (Nat.lt_succ_of_lt (hcStart.trans_le hstart)) (hcStart.trans_le (hstart.trans hle))
  · intro last' hlast'
    cases hlast.symm.trans hlast'
    exact hfinal
  · rintro o ho ⟨c, hc, hstart, hend⟩ hunwritten
    rw [hwritten] at hunwritten ⊢
    exact h.honest hwords ho (hmem c hc) hstart hend hunwritten

/-! ## An output that stops at a tool call -/

def sampleAttributes : String := " start=\"1\" end=\"2\" title=\"Prefix\""

def sampleTiers : String := "<p1>Asked and called.</p1>"

def sampleBody : String :=
  "<compartment" ++ sampleAttributes ++ ">" ++ sampleTiers ++ "</compartment>" ++
    "<unprocessed_from>3</unprocessed_from>"

def sampleText : String := "<output>" ++ sampleBody ++ "</output>"

/-- What the expressions find in `sampleText` and its parts. -/
def sampleRegexes : Regexes where
  outputDocument text := if text = sampleText then some sampleBody else none
  outputTag _ := false
  compartment text := if text = sampleText then [(sampleAttributes, sampleTiers)] else []
  removeCompartments text :=
    if text = sampleText then "<output><unprocessed_from>3</unprocessed_from></output>" else text
  attrStart attrs := if attrs = sampleAttributes then some "1" else none
  attrEnd attrs := if attrs = sampleAttributes then some "2" else none
  attrTitle attrs := if attrs = sampleAttributes then some "Prefix" else none
  attrEpisode _ := none
  attrImportance _ := none
  tierOpen index text :=
    if index = 0 ∧ text = sampleTiers then some ("", "Asked and called.</p1>") else none
  tierCloseAny text := if text = "Asked and called.</p1>" then some "Asked and called." else none
  tierOpenAny _ := none
  factsBlock _ := none
  eventsBlock _ := none
  removeEvents text := text
  categoryBlock _ := []
  item _ := []
  unprocessed text := if text = sampleText then some "3" else none
  userObservations _ := none
  primerCandidates _ := none
  primerElement _ := []
  primerItem _ := []
  eventOpen _ := []
  eventField _ := []
  sideChannelAnchor _ := none

/-- A question, a tool call, and its result beside other text. -/
def sampleChunk : HistorianChunk where
  startIndex := 1
  endIndex := 3
  lines := [⟨1, "a#0", true⟩, ⟨2, "b#0", true⟩, ⟨3, "c#1", true⟩]
  presentOrdinals := [1, 2, 3]
  toolOnlyRanges := []
  completedToolArcs := [⟨2, 3⟩]

def sampleOptions : ValidateOptions := { inEmergency := true }

def sampleValidated : ValidatedOutput where
  compartments := [{
    sequence := 0
    startMessage := 1
    endMessage := 3
    startMessageId := "a#0"
    endMessageId := "c#1"
    title := "Prefix"
    content := "Asked and called."
    p1 := some "Asked and called."
    p2 := some "Asked and called."
    p3 := some "Asked and called."
    p4 := some ""
    importance := none
    episodeType := none }]
  facts := []
  events := []
  primerCandidates := []
  userObservations := []
  unprocessedFrom := 4
  discardedLast := false

theorem validate_sample :
    validateHistorianOutput sampleRegexes sampleText sampleChunk [] sampleOptions =
      .ok sampleValidated := by
  decide +kernel

theorem sample_honestCoverage :
    HonestCoverage sampleChunk [] (writtenCompartments sampleRegexes sampleText)
      (fun o => sampleChunk.toolOnly o = true ∨
        ClosesArc sampleChunk (writtenCompartments sampleRegexes sampleText) o) sampleValidated :=
  honestCoverage_of_validate (by decide) validate_sample

/-- The result is covered, was not written, and is no tool message. -/
theorem sample_covers_unwritten :
    validateHistorianOutput sampleRegexes sampleText sampleChunk [] sampleOptions =
        .ok sampleValidated ∧
      ¬ HonestCoverage sampleChunk [] (writtenCompartments sampleRegexes sampleText)
        (fun o => sampleChunk.toolOnly o = true) sampleValidated := by
  refine ⟨by decide +kernel, fun h => ?_⟩
  have htool := h.honest 3 (by decide) ⟨_, List.mem_cons_self .., by decide, by decide⟩
    (by decide +kernel)
  exact absurd htool (by decide)

end MagicContext.Historian
