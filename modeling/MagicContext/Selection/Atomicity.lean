import MagicContext.Selection.Safety

/-!
# Arcs are reduced whole, or not at all

A call without its result is refused by providers.  A superseded arc with a protected block is
retained whole; an arc that the batch by age or the emergency chose is not, and only its protected
blocks are taken out.

## What is here

* `Tail` — items as they come from a projection, whose ids are all different.
* `ChosenAutomatically`, `ReducedWhole` — what is claimed of which arcs.
* **`reducedWhole_iff`** — an arc is reduced whole exactly when its blocks are protected together,
  or it is retained and no drop was asked for.
* `reducedWhole_fails` — an arc whose result is protected.
-/

namespace MagicContext.Selection

variable {F : Type} [WholeDouble F]

/-- The blocks of the tail; a projection with an id twice is refused. -/
structure Tail where
  items : List SelItem
  distinct : (items.map SelItem.id).Nodup

theorem Tail.eq_of_id_eq (tail : Tail) {a b : SelItem} (ha : a ∈ tail.items) (hb : b ∈ tail.items)
    (h : a.id = b.id) : a = b :=
  List.inj_on_of_nodup_map tail.distinct ha hb h

/-- The batch by age or the emergency chose the arc. -/
def ChosenAutomatically (tools : SelectionTools) (items : List SelItem) (frozenKeys : List String)
    (ctx : SelectionContext F) (arcId : String) : Prop :=
  ctx.passClass ≠ .defer ∧ (arcId ∈ twoPassArcIds tools items frozenKeys ctx ∨
    arcId ∈ emergencyArcIds tools items frozenKeys ctx)

/-- The item is a call or a result of the arc. -/
def IsBlockOf (items : List SelItem) (arcId : String) (item : SelItem) : Prop :=
  item ∈ items ∧ item.arcId = some arcId ∧ item.isTool = true

instance (items : List SelItem) (arcId : String) (item : SelItem) :
    Decidable (IsBlockOf items arcId item) :=
  inferInstanceAs (Decidable (_ ∧ _))

/-- There is a decision about every block of the arc that is not frozen, or about none. -/
def ReducedWhole (items : List SelItem) (frozenKeys : List String)
    (decisions : List ReductionDecision) (arcId : String) : Prop :=
  (∀ item, IsBlockOf items arcId item → item.id ∉ frozenKeys → Targets decisions item.id) ∨
    ∀ item, IsBlockOf items arcId item → item.id ∉ frozenKeys → ¬ Targets decisions item.id

/-- Supersession picked the arc too. -/
def SupersessionEligible (tools : SelectionTools) (items : List SelItem)
    (frozenKeys : List String) (ctx : SelectionContext F) (cfg : SelectionConfig)
    (arcId : String) : Prop :=
  ∃ intents, supersessionIntents tools items frozenKeys ctx cfg = some intents ∧
    arcId ∈ intents.keys

/-- The blocks of the arc are protected all or none; or else the arc is retained as a superseded
one, and no drop of an unprotected block of it is admitted. -/
def ProtectedTogether (tools : SelectionTools) (items : List SelItem) (frozenKeys : List String)
    (ctx : SelectionContext F) (cfg : SelectionConfig) (arcId : String) : Prop :=
  (∀ item, IsBlockOf items arcId item → ctx.blockIsProtected item.id = false) ∨
    (∀ item, IsBlockOf items arcId item → ctx.blockIsProtected item.id = true) ∨
    (SupersessionEligible tools items frozenKeys ctx cfg arcId ∧
      ∀ item, IsBlockOf items arcId item → item.id ∈ ctx.agentDropIds →
        agentDropAdmitted ctx (liveIds items) frozenKeys item.id = false)

section
variable {tools : SelectionTools} {items : List SelItem} {frozenKeys : List String}
  {ctx : SelectionContext F} {cfg : SelectionConfig} {hashOrder : HashOrder} {arcId : String}

/-! ## The chosen arcs -/

theorem active_of_chosen (h : ChosenAutomatically tools items frozenKeys ctx arcId) :
    ∃ arc ∈ activeArcs tools items frozenKeys, arc.arcId = arcId := by
  have hmem : arcId ∈ (activeArcs tools items frozenKeys).map ToolArc.arcId := by
    rcases h.2 with htwo | hemergency
    · have harc := mem_of_selectTwoPass htwo
      exact List.map_subset _ (List.filter_subset_self _) harc
    · rw [emergencyArcIds] at hemergency
      split at hemergency
      · exact mem_of_selectEmergency hemergency
      · cases hemergency
  exact List.mem_map.mp hmem

theorem get_assign {shape : ArcShape} {arcIds : List String}
    {shapes : SortedMap String ArcShape} :
    (assign shape arcIds shapes).get arcId ≠ none ↔ arcId ∈ arcIds ∨ shapes.get arcId ≠ none := by
  rw [assign]
  induction arcIds generalizing shapes with
  | nil => simp
  | cons first rest ih =>
    rw [List.foldl_cons, ih, List.mem_cons]
    cases hfirst : shapes.get first with
    | none =>
      rw [SortedMap.get_insert]
      by_cases heq : first = arcId
      · simp [heq]
      · simp [heq, Ne.symm heq]
    | some shape' =>
      by_cases heq : arcId = first
      · simp [heq, hfirst]
      · simp [heq]

theorem get_assignIntents {intents : SortedMap String ArcIntent}
    {shapes : SortedMap String ArcShape} (h : shapes.get arcId ≠ none) :
    (assignIntents intents shapes).get arcId ≠ none := by
  rw [assignIntents]
  induction intents.entries generalizing shapes with
  | nil => exact h
  | cons entry entries ih => exact ih (get_assign.mpr (.inr h))

/-- A chosen arc has a shape. -/
theorem shape_of_chosen (h : ChosenAutomatically tools items frozenKeys ctx arcId) :
    (arcShapes tools items frozenKeys ctx cfg).get arcId ≠ none := by
  obtain ⟨hpass, hchosen⟩ := h
  rw [arcShapes]
  cases hclass : ctx.passClass with
  | emergencyForce =>
    refine get_assignIntents ?_
    rw [get_assign, get_assign]
    tauto
  | execute =>
    refine get_assignIntents ?_
    rw [get_assign]
    rcases hchosen with htwo | hemergency
    · exact .inl htwo
    · rw [emergencyArcIds, hclass] at hemergency
      cases hemergency
  | defer => exact absurd hclass hpass

/-! ## The retained arcs -/

theorem mem_protectedSupersessionArcs {arc : ToolArc}
    (harc : arc ∈ activeArcs tools items frozenKeys) (ids : List String) :
    ((protectedSupersessionArcs tools items frozenKeys ctx cfg ids).any fun withheld =>
        withheld.contains arc.arcId) = true ↔
      SupersessionEligible tools items frozenKeys ctx cfg arc.arcId ∧
        ∃ id ∈ arc.blockIds, id ∈ ids := by
  have hblocks : (arc.callInputs.any (fun call => ids.contains call.1) ||
      arc.resultIds.any fun id => ids.contains id) = true ↔ ∃ id ∈ arc.blockIds, id ∈ ids := by
    simp only [Bool.or_eq_true, List.any_eq_true, List.contains_iff_mem, ToolArc.blockIds,
      List.mem_append, List.mem_map, or_and_right, exists_or, exists_exists_and_eq_and]
  rw [protectedSupersessionArcs, SupersessionEligible]
  cases supersessionIntents tools items frozenKeys ctx cfg with
  | none => simp
  | some intents =>
    rw [Option.map_some, Option.any_some, List.contains_iff_mem, List.mem_filter,
      find_activeArcs.mpr ⟨harc, rfl⟩, Option.any_some, hblocks]
    simp

/-- **An arc is retained** when supersession picked it and a block of it is protected. -/
theorem isWithheld_iff {arc : ToolArc} (harc : arc ∈ activeArcs tools items frozenKeys) :
    isWithheld tools items frozenKeys ctx cfg arc.arcId = true ↔
      SupersessionEligible tools items frozenKeys ctx cfg arc.arcId ∧
        ∃ id ∈ arc.blockIds, ctx.blockIsProtected id = true := by
  rw [isWithheld, Bool.or_eq_true, mem_protectedSupersessionArcs harc,
    mem_protectedSupersessionArcs harc, ← and_or_left, ← exists_or]
  simp only [SelectionContext.blockIsProtected, Bool.or_eq_true, List.contains_iff_mem,
    ← and_or_left]

end

/-! ## Chosen arcs are reduced whole -/

section
variable {tools : SelectionTools} {tail : Tail} {frozenKeys : List String}
  {ctx : SelectionContext F} {cfg : SelectionConfig} {hashOrder : HashOrder} {arc : ToolArc}
  {item : SelItem}

/-- The blocks that have an arc are listed once. -/
theorem nodup_blockArcs {items : List SelItem} (hdistinct : (items.map SelItem.id).Nodup) :
    ((items.filterMap fun item => item.arcId.map fun arcId => (item.id, arcId)).map
      Prod.fst).Nodup := by
  have hsub : ((items.filterMap fun item => item.arcId.map fun arcId =>
      (item.id, arcId)).map Prod.fst).Sublist (items.map SelItem.id) := by
    clear hdistinct
    induction items with
    | nil => exact .slnil
    | cons item items ih =>
      rw [List.filterMap_cons]
      cases item.arcId with
      | none => exact ih.cons _
      | some arcId => exact ih.cons_cons _
  exact hsub.nodup hdistinct

theorem get_arcByBlockId (tail : Tail) {item : SelItem} (hitem : item ∈ tail.items) :
    (arcByBlockId tail.items).get item.id = item.arcId := by
  have hkeys := nodup_blockArcs tail.distinct
  refine Option.ext fun arcId => ?_
  rw [arcByBlockId, SortedMap.get_ofList hkeys, List.mem_filterMap]
  constructor
  · rintro ⟨item', hitem', h⟩
    obtain ⟨arcId', harc, heq⟩ := Option.map_eq_some_iff.mp h
    obtain ⟨hid, rfl⟩ := Prod.mk.inj heq
    rw [← tail.eq_of_id_eq hitem' hitem hid]
    exact harc
  · intro harc
    exact ⟨item, hitem, by rw [harc]; rfl⟩

omit [WholeDouble F] in
/-- The blocks of an active arc pass the filters when they are not protected. -/
theorem passes_iff (harc : arc ∈ activeArcs tools tail.items frozenKeys)
    (hblock : IsBlockOf tail.items arc.arcId item) :
    Passes tail.items ctx item.id ↔ ctx.blockIsProtected item.id = false := by
  have heligible : notIneligible tail.items item.id = true := by
    rw [notIneligible, get_arcByBlockId tail hblock.1, hblock.2.1, Option.all_some,
      Bool.not_eq_true', ← Bool.not_eq_true, List.contains_iff_mem]
    exact (mem_activeArcs.mp harc).2.2.2
  rw [Passes, heligible]
  exact and_iff_right rfl

/-- **What is decided about a block of an active arc.** -/
theorem targets_block (hpass : ctx.passClass ≠ .defer)
    (harc : arc ∈ activeArcs tools tail.items frozenKeys)
    (hshape : (arcShapes tools tail.items frozenKeys ctx cfg).get arc.arcId ≠ none)
    (hblock : IsBlockOf tail.items arc.arcId item) :
    Targets (selectReductions tools tail.items frozenKeys ctx cfg hashOrder) item.id ↔
      (isWithheld tools tail.items frozenKeys ctx cfg arc.arcId = false ∨
        (item.id ∈ ctx.agentDropIds ∧
          agentDropAdmitted ctx (liveIds tail.items) frozenKeys item.id = true)) ∧
      ctx.blockIsProtected item.id = false := by
  have hexpanded : (∃ arc', Expanded tools tail.items frozenKeys ctx cfg arc' ∧
      item.id ∈ arc'.blockIds ∧ item.id ∉ frozenKeys) ↔
      isWithheld tools tail.items frozenKeys ctx cfg arc.arcId = false := by
    constructor
    · rintro ⟨arc', harc', hid, -⟩
      obtain ⟨item', hitem', harcId, -, hid⟩ :=
        (mem_blockIds (mem_activeArcs.mp harc'.active).1).mp hid
      rw [tail.eq_of_id_eq hitem' hblock.1 hid, hblock.2.1] at harcId
      rw [Option.some.inj harcId]
      exact harc'.released
    · intro hreleased
      refine ⟨arc, ⟨harc, hshape, hreleased⟩, ?_, not_frozen_of_active harc hblock.1 hblock.2.1⟩
      exact (mem_blockIds (mem_activeArcs.mp harc).1).mpr
        ⟨item, hblock.1, hblock.2.1, hblock.2.2, rfl⟩
  rw [targets_selectReductions hpass, hexpanded, passes_iff harc hblock]

theorem reducedWhole_iff_of_chosen {arcId : String}
    (hchosen : ChosenAutomatically tools tail.items frozenKeys ctx arcId) :
    ReducedWhole tail.items frozenKeys
        (selectReductions tools tail.items frozenKeys ctx cfg hashOrder) arcId ↔
      ProtectedTogether tools tail.items frozenKeys ctx cfg arcId := by
  obtain ⟨arc, harc, rfl⟩ := active_of_chosen hchosen
  have hshape : (arcShapes tools tail.items frozenKeys ctx cfg).get arc.arcId ≠ none :=
    shape_of_chosen hchosen
  have htargets : ∀ item, IsBlockOf tail.items arc.arcId item →
      (Targets (selectReductions tools tail.items frozenKeys ctx cfg hashOrder) item.id ↔ _) :=
    fun item hblock => targets_block hchosen.1 harc hshape hblock
  have hfrozen : ∀ item, IsBlockOf tail.items arc.arcId item → item.id ∉ frozenKeys :=
    fun item hblock => not_frozen_of_active harc hblock.1 hblock.2.1
  have hwithheld : isWithheld tools tail.items frozenKeys ctx cfg arc.arcId = true ↔
      SupersessionEligible tools tail.items frozenKeys ctx cfg arc.arcId ∧
        ∃ item, IsBlockOf tail.items arc.arcId item ∧ ctx.blockIsProtected item.id = true := by
    rw [isWithheld_iff harc]
    refine and_congr_right fun _ => ?_
    constructor
    · rintro ⟨id, hid, hprotected⟩
      obtain ⟨item, hitem, harcId, htool, rfl⟩ := (mem_blockIds (mem_activeArcs.mp harc).1).mp hid
      exact ⟨item, ⟨hitem, harcId, htool⟩, hprotected⟩
    · rintro ⟨item, ⟨hitem, harcId, htool⟩, hprotected⟩
      exact ⟨item.id, (mem_blockIds (mem_activeArcs.mp harc).1).mpr
        ⟨item, hitem, harcId, htool, rfl⟩, hprotected⟩
  constructor
  · rintro (hall | hnone)
    · exact .inl fun item hblock =>
        ((htargets item hblock).mp (hall item hblock (hfrozen item hblock))).2
    · -- nothing is decided about the arc
      by_cases hreleased : isWithheld tools tail.items frozenKeys ctx cfg arc.arcId = true
      · refine .inr (.inr ⟨(hwithheld.mp hreleased).1, fun item hblock hid => ?_⟩)
        by_contra hadmitted
        rw [Bool.not_eq_false] at hadmitted
        refine hnone item hblock (hfrozen item hblock) ((htargets item hblock).mpr
          ⟨.inr ⟨hid, hadmitted⟩, ?_⟩)
        exact not_protected_of_admitted hadmitted
      · refine .inr (.inl fun item hblock => ?_)
        by_contra hprotected
        rw [Bool.not_eq_true] at hprotected hreleased
        exact hnone item hblock (hfrozen item hblock) ((htargets item hblock).mpr
          ⟨.inl hreleased, hprotected⟩)
  · rintro (hnone | hall | ⟨heligible, hdrops⟩)
    · refine .inl fun item hblock _ => (htargets item hblock).mpr ⟨.inl ?_, hnone item hblock⟩
      rw [Bool.eq_false_iff]
      intro h
      obtain ⟨item', hblock', hprotected⟩ := (hwithheld.mp h).2
      rw [hnone item' hblock'] at hprotected
      cases hprotected
    · refine .inr fun item hblock _ htarget => ?_
      have hprotected := ((htargets item hblock).mp htarget).2
      rw [hall item hblock] at hprotected
      cases hprotected
    · by_cases hreleased : isWithheld tools tail.items frozenKeys ctx cfg arc.arcId = true
      · refine .inr fun item hblock _ htarget => ?_
        rcases ((htargets item hblock).mp htarget).1 with hfree | ⟨hid, hadmitted⟩
        · rw [hreleased] at hfree
          cases hfree
        · rw [hdrops item hblock hid] at hadmitted
          cases hadmitted
      · -- no block is protected
        refine .inl fun item hblock _ => (htargets item hblock).mpr
          ⟨.inl (Bool.eq_false_iff.mpr hreleased), ?_⟩
        by_contra hprotected
        rw [Bool.not_eq_false] at hprotected
        exact hreleased (hwithheld.mpr ⟨heligible, item, hblock, hprotected⟩)

/-- **The arcs that are chosen automatically are reduced whole, or not at all,** exactly when the
blocks of each are protected together, or it is retained and no drop of a block of it is
admitted. -/
theorem reducedWhole_iff (tools : SelectionTools) (tail : Tail) (frozenKeys : List String)
    (ctx : SelectionContext F) (cfg : SelectionConfig) (hashOrder : HashOrder) :
    (∀ arcId, ChosenAutomatically tools tail.items frozenKeys ctx arcId →
        ReducedWhole tail.items frozenKeys
          (selectReductions tools tail.items frozenKeys ctx cfg hashOrder) arcId) ↔
      ∀ arcId, ChosenAutomatically tools tail.items frozenKeys ctx arcId →
        ProtectedTogether tools tail.items frozenKeys ctx cfg arcId :=
  forall₂_congr fun _ => reducedWhole_iff_of_chosen

end

/-! ## An arc that is torn -/

/-- An old call and its result. -/
def tornArc : Tail where
  items :=
    [{ id := "m1#0", ordinal := 1, messageRole := .assistant, kind := .toolCall "bash" (.object []),
       providerExecuted := false, byteSize := 10, tokenCount := none, arcId := some "m1#0" },
      { id := "m2#0", ordinal := 2, messageRole := .nonAssistant, kind := .toolResult "bash",
        providerExecuted := false, byteSize := 10, tokenCount := none, arcId := some "m1#0" }]
  distinct := by decide

/-- A pass under pressure that takes the batch by age, with the result in the protected window. -/
def pressedContext : SelectionContext ℚ :=
  { quietContext [] with
    lastExecuteOrdinal := 1
    schedulerPressureExecute := true
    passAlreadyBusting := true
    tagWindowProtectedBlockIds := ["m2#0"] }

theorem reducedWhole_fails :
    ¬ ∀ arcId, ChosenAutomatically plainTools tornArc.items [] pressedContext arcId →
      ReducedWhole tornArc.items []
        (selectReductions plainTools tornArc.items [] pressedContext ⟨false⟩ listOrder) arcId := by
  intro h
  have hchosen : ChosenAutomatically plainTools tornArc.items [] pressedContext "m1#0" := by
    refine ⟨by decide, .inl ?_⟩
    decide +kernel
  have htargets : (selectReductions plainTools tornArc.items [] pressedContext ⟨false⟩
      listOrder).map ReductionDecision.targetId = ["m1#0"] := by
    decide +kernel
  have hcall : IsBlockOf tornArc.items "m1#0" tornArc.items[0] := by decide
  have hresult : IsBlockOf tornArc.items "m1#0" tornArc.items[1] := by decide
  rcases h "m1#0" hchosen with hall | hnone
  · obtain ⟨d, hd, hid⟩ := hall _ hresult (List.not_mem_nil)
    have hmem := List.mem_map_of_mem (f := ReductionDecision.targetId) hd
    rw [htargets, hid] at hmem
    revert hmem
    decide
  · refine hnone _ hcall List.not_mem_nil ?_
    have hmem : "m1#0" ∈ (selectReductions plainTools tornArc.items [] pressedContext ⟨false⟩
        listOrder).map ReductionDecision.targetId := by
      rw [htargets]
      exact List.mem_singleton_self _
    exact List.mem_map.mp hmem

end MagicContext.Selection
