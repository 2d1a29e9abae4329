import MagicContext.Selection.Select

/-!
# What is decided

Which blocks the decisions of a pass are about, from the arcs that are expanded and the drops that
are admitted, through the filters and the merge.

## What is here

* `mem_dedupeAndSort`, `ordered_dedupeAndSort` — the merge keeps one decision for each target.
* `Expanded` — the arcs that decisions are made about.
* `targets_selectReductions` — **the targets of a pass**.
-/

namespace MagicContext.Selection

open SortedMap

variable {F : Type} [WholeDouble F]

/-- A decision is about the block. -/
def Targets (decisions : List ReductionDecision) (id : String) : Prop :=
  ∃ d ∈ decisions, d.targetId = id

theorem targets_append {l l' : List ReductionDecision} {id : String} :
    Targets (l ++ l') id ↔ Targets l id ∨ Targets l' id := by
  simp only [Targets, List.mem_append, or_and_right, exists_or]

variable {l : List ReductionDecision} {d : ReductionDecision}

theorem targets_filter {p : String → Bool} {id : String} :
    Targets (l.filter fun d => p d.targetId) id ↔ Targets l id ∧ p id = true := by
  constructor
  · rintro ⟨d, hd, rfl⟩
    exact ⟨⟨d, (List.mem_filter.mp hd).1, rfl⟩, (List.mem_filter.mp hd).2⟩
  · rintro ⟨⟨d, hd, rfl⟩, hp⟩
    exact ⟨d, List.mem_filter.mpr ⟨hd, hp⟩, rfl⟩

/-! ## The merge -/

/-- Of two decisions about a target the stronger, and of two as strong the first. -/
def stronger (existing : Option ReductionDecision) (d : ReductionDecision) :
    Option ReductionDecision :=
  match existing with
  | some e => if rank d.kind ≤ rank e.kind then some e else some d
  | none => some d

/-- The decisions about a target. -/
def about (id : String) (l : List ReductionDecision) : List ReductionDecision :=
  l.filter fun d => decide (d.targetId = id)

theorem mem_about {id : String} : d ∈ about id l ↔ d ∈ l ∧ d.targetId = id := by
  rw [about, List.mem_filter, decide_eq_true_iff]

theorem foldl_stronger {existing : Option ReductionDecision}
    (h : l.foldl stronger existing = some d) :
    (d ∈ l ∨ existing = some d) ∧ (∀ e ∈ l, rank e.kind ≤ rank d.kind) ∧
      ∀ e, existing = some e → rank e.kind ≤ rank d.kind := by
  induction l generalizing existing with
  | nil =>
    refine ⟨Or.inr h, List.forall_mem_nil _, fun e he => ?_⟩
    rw [Option.some.inj (he.symm.trans h)]
  | cons e l ih =>
    obtain ⟨hmem, hall, hfirst⟩ := ih h
    cases existing with
    | none =>
      refine ⟨Or.inl ?_, List.forall_mem_cons.mpr ⟨hfirst e rfl, hall⟩, nofun⟩
      rcases hmem with hmem | hmem
      · exact List.mem_cons_of_mem e hmem
      · exact Option.some.inj hmem ▸ List.mem_cons_self ..
    | some e' =>
      rw [stronger.eq_def] at hmem hfirst
      dsimp only at hmem hfirst
      split at hmem
      · rename_i hle
        rw [if_pos hle] at hfirst
        refine ⟨hmem.imp_left (List.mem_cons_of_mem e),
          List.forall_mem_cons.mpr ⟨Nat.le_trans hle (hfirst e' rfl), hall⟩, ?_⟩
        rintro _ ⟨rfl⟩
        exact hfirst _ rfl
      · rename_i hlt
        rw [if_neg hlt] at hfirst
        refine ⟨Or.inl ?_, List.forall_mem_cons.mpr ⟨hfirst e rfl, hall⟩, ?_⟩
        · rcases hmem with hmem | hmem
          · exact List.mem_cons_of_mem e hmem
          · exact Option.some.inj hmem ▸ List.mem_cons_self ..
        · rintro _ ⟨rfl⟩
          exact Nat.le_trans (Nat.le_of_lt (Nat.lt_of_not_le hlt)) (hfirst e rfl)

theorem isSome_foldl_stronger (l : List ReductionDecision) (existing : Option ReductionDecision) :
    (l.foldl stronger existing).isSome = (!l.isEmpty || existing.isSome) := by
  induction l generalizing existing with
  | nil => rfl
  | cons d l ih =>
    rw [List.foldl_cons, ih, stronger.eq_def]
    cases existing with
    | none => simp
    | some e => dsimp only; split <;> simp

theorem get_foldl_keepBest (l : List ReductionDecision)
    (best : SortedMap String ReductionDecision) (id : String) :
    (l.foldl keepBest best).get id = (about id l).foldl stronger (best.get id) := by
  induction l generalizing best with
  | nil => rfl
  | cons d l ih =>
    have hstep : (keepBest best d).get id =
        if d.targetId = id then stronger (best.get id) d else best.get id := by
      rw [keepBest]
      split
      · rename_i e hbest
        split
        · rename_i hle
          split
          · rename_i hid
            rw [← hid, hbest]
            exact (if_pos hle).symm
          · rfl
        · rename_i hlt
          rw [get_insert]
          split
          · rename_i hid
            rw [← hid, hbest]
            exact (if_neg hlt).symm
          · rfl
      · rename_i hbest
        rw [get_insert]
        split
        · rename_i hid
          rw [← hid, hbest]
          rfl
        · rfl
    rw [List.foldl_cons, ih, hstep, about, about, List.filter_cons]
    by_cases hid : d.targetId = id
    · rw [if_pos hid, if_pos (decide_eq_true hid), List.foldl_cons]
    · rw [if_neg hid, if_neg (by rw [decide_eq_true_iff]; exact hid)]

/-- **The merge keeps of each target the strongest decision.** -/
theorem mem_dedupeAndSort :
    d ∈ dedupeAndSort l ↔ (about d.targetId l).foldl stronger none = some d := by
  rw [dedupeAndSort, (List.perm_insertionSort _ _).mem_iff, List.mem_map]
  constructor
  · rintro ⟨⟨id, d'⟩, hmem, rfl⟩
    rw [← get_eq_some, get_foldl_keepBest, get_empty] at hmem
    have htarget : d'.targetId = id := by
      rcases (foldl_stronger hmem).1 with hd | hd
      · exact (mem_about.mp hd).2
      · cases hd
    rw [htarget]
    exact hmem
  · intro h
    refine ⟨(d.targetId, d), ?_, rfl⟩
    rw [← get_eq_some, get_foldl_keepBest, get_empty]
    exact h

theorem mem_of_mem_dedupeAndSort (h : d ∈ dedupeAndSort l) : d ∈ l := by
  rcases (foldl_stronger (mem_dedupeAndSort.mp h)).1 with hd | hd
  · exact (mem_about.mp hd).1
  · cases hd

theorem targets_dedupeAndSort {id : String} : Targets (dedupeAndSort l) id ↔ Targets l id := by
  constructor
  · rintro ⟨d, hd, rfl⟩
    exact ⟨d, mem_of_mem_dedupeAndSort hd, rfl⟩
  · rintro ⟨d, hd, rfl⟩
    have hsome : ((about d.targetId l).foldl stronger none).isSome = true := by
      rw [isSome_foldl_stronger, List.isEmpty_eq_false_iff_exists_mem.mpr
        ⟨d, mem_about.mpr ⟨hd, rfl⟩⟩]
      rfl
    obtain ⟨d', hd'⟩ := Option.isSome_iff_exists.mp hsome
    have htarget : d'.targetId = d.targetId := by
      rcases (foldl_stronger hd').1 with hmem | hmem
      · exact (mem_about.mp hmem).2
      · cases hmem
    exact ⟨d', mem_dedupeAndSort.mpr (by rw [htarget]; exact hd'), htarget⟩

/-- No target occurs twice, and the targets are in order. -/
theorem ordered_dedupeAndSort (l : List ReductionDecision) :
    (dedupeAndSort l).Pairwise fun a b => a.targetId < b.targetId := by
  have hsorted : (dedupeAndSort l).Pairwise fun a b => a.targetId ≤ b.targetId :=
    List.pairwise_insertionSort _ _
  have htargets : ∀ e ∈ (l.foldl keepBest .empty).entries, e.2.targetId = e.1 := by
    rintro ⟨id, d⟩ he
    rw [← get_eq_some, get_foldl_keepBest, get_empty] at he
    rcases (foldl_stronger he).1 with hd | hd
    · exact (mem_about.mp hd).2
    · cases hd
  have hnodup : ((dedupeAndSort l).map ReductionDecision.targetId).Nodup := by
    refine (((List.perm_insertionSort _ _).map _).nodup_iff).mpr ?_
    rw [List.map_map]
    have hkeys := (l.foldl keepBest .empty).nodup_keys
    rw [keys] at hkeys
    refine (List.map_congr_left fun e he => ?_) ▸ hkeys
    exact (htargets e he).symm
  refine (List.pairwise_map.mp hnodup).imp₂ ?_ hsorted
  exact fun a b hne hle => lt_of_le_of_ne hle hne

/-! ## The targets of a pass -/

@[simp] theorem targetId_callDecision (tools : SelectionTools) (shape : ArcShape)
    (call : String × Json) : (callDecision tools shape call).targetId = call.1 := by
  cases shape <;> rfl

theorem targets_expandArc {tools : SelectionTools} {arc : ToolArc} {shape : ArcShape}
    {frozen : List String} {id : String} :
    Targets (expandArc tools arc shape frozen) id ↔ id ∈ arc.blockIds ∧ id ∉ frozen := by
  have hcalls : Targets ((arc.callInputs.filter fun call => !frozen.contains call.1).map
      (callDecision tools shape)) id ↔ id ∈ arc.callInputs.map Prod.fst ∧ id ∉ frozen := by
    simp only [Targets, List.mem_map, List.mem_filter, Bool.not_eq_true', ← Bool.not_eq_true,
      List.contains_iff_mem, exists_exists_and_eq_and, targetId_callDecision]
    constructor
    · rintro ⟨call, ⟨hcall, hfrozen⟩, rfl⟩
      exact ⟨⟨call, hcall, rfl⟩, hfrozen⟩
    · rintro ⟨⟨call, hcall, rfl⟩, hfrozen⟩
      exact ⟨call, ⟨hcall, hfrozen⟩, rfl⟩
  have hresults : Targets ((arc.resultIds.filter fun id => !frozen.contains id).map
      dropDecision) id ↔ id ∈ arc.resultIds ∧ id ∉ frozen := by
    simp only [Targets, List.mem_map, List.mem_filter, Bool.not_eq_true', ← Bool.not_eq_true,
      List.contains_iff_mem, exists_exists_and_eq_and]
    constructor
    · rintro ⟨result, hresult, rfl⟩
      exact hresult
    · intro h
      exact ⟨id, h, rfl⟩
  rw [expandArc, targets_append, hcalls, hresults, ToolArc.blockIds, List.mem_append, or_and_right]

section
variable {tools : SelectionTools} {items : List SelItem} {frozenKeys : List String}
  {ctx : SelectionContext F} {cfg : SelectionConfig} {hashOrder : HashOrder}
  {arc : ToolArc} {id : String}

theorem mem_activeArcs : arc ∈ activeArcs tools items frozenKeys ↔
    arc ∈ groupArcs tools items frozenKeys ∧ arc.reduced = false ∧
      arc.providerExecuted = false ∧ arc.arcId ∉ reasoningIneligibleArcIds items := by
  rw [activeArcs, List.mem_filter]
  simp only [Bool.and_eq_true, Bool.not_eq_true', ← Bool.not_eq_true, List.contains_iff_mem,
    and_assoc]

/-- An active arc is found by its id. -/
theorem find_activeArcs :
    ((activeArcs tools items frozenKeys).find? fun arc => arc.arcId == id) = some arc ↔
      arc ∈ activeArcs tools items frozenKeys ∧ arc.arcId = id := by
  constructor
  · intro h
    have hid := List.find?_some h
    exact ⟨List.mem_of_find?_eq_some h, eq_of_beq hid⟩
  · rintro ⟨hmem, rfl⟩
    cases hfind : (activeArcs tools items frozenKeys).find? fun a => a.arcId == arc.arcId with
    | none => exact absurd (beq_self_eq_true _) (List.find?_eq_none.mp hfind arc hmem)
    | some arc' =>
      have hmem' := List.mem_of_find?_eq_some hfind
      have hid := List.find?_some hfind
      rw [eq_of_arcId_eq (mem_activeArcs.mp hmem').1 (mem_activeArcs.mp hmem).1 (eq_of_beq hid)]

/-- A selector chose the arc and nothing retains it. -/
structure Expanded (tools : SelectionTools) (items : List SelItem) (frozenKeys : List String)
    (ctx : SelectionContext F) (cfg : SelectionConfig) (arc : ToolArc) : Prop where
  active : arc ∈ activeArcs tools items frozenKeys
  chosen : (arcShapes tools items frozenKeys ctx cfg).get arc.arcId ≠ none
  released : isWithheld tools items frozenKeys ctx cfg arc.arcId = false

/-- What is said about the block passes the filters. -/
def Passes (items : List SelItem) (ctx : SelectionContext F) (id : String) : Prop :=
  notIneligible items id = true ∧ ctx.blockIsProtected id = false

theorem mem_arcDecisions : d ∈ arcDecisions tools items frozenKeys ctx cfg hashOrder ↔
      ∃ arc shape, Expanded tools items frozenKeys ctx cfg arc ∧
        (arcShapes tools items frozenKeys ctx cfg).get arc.arcId = some shape ∧
        d ∈ expandArc tools arc (resolveShape tools items frozenKeys arc.arcId shape)
          frozenKeys := by
  rw [arcDecisions, List.mem_flatMap]
  constructor
  · rintro ⟨⟨arcId, shape⟩, hentry, hd⟩
    rw [(hashOrder.perm _).mem_iff, ← get_eq_some] at hentry
    split at hd
    · cases hd
    · rename_i arc hfind
      obtain ⟨hactive, rfl⟩ := find_activeArcs.mp hfind
      split at hd
      · cases hd
      · rename_i hreleased
        exact ⟨arc, shape, ⟨hactive, by rw [hentry]; exact Option.some_ne_none _,
          Bool.eq_false_iff.mpr hreleased⟩, hentry, hd⟩
  · rintro ⟨arc, shape, ⟨hactive, -, hreleased⟩, hshape, hd⟩
    refine ⟨(arc.arcId, shape), ?_, ?_⟩
    · rw [(hashOrder.perm _).mem_iff, ← get_eq_some]
      exact hshape
    · rw [find_activeArcs.mpr ⟨hactive, rfl⟩]
      dsimp only
      rw [hreleased, if_neg Bool.false_ne_true]
      exact hd

theorem targets_arcDecisions :
    Targets (arcDecisions tools items frozenKeys ctx cfg hashOrder) id ↔
      ∃ arc, Expanded tools items frozenKeys ctx cfg arc ∧ id ∈ arc.blockIds ∧ id ∉ frozenKeys := by
  constructor
  · rintro ⟨d, hd, rfl⟩
    obtain ⟨arc, shape, hexpanded, -, hd⟩ := mem_arcDecisions.mp hd
    exact ⟨arc, hexpanded, targets_expandArc.mp ⟨d, hd, rfl⟩⟩
  · rintro ⟨arc, hexpanded, hid⟩
    obtain ⟨shape, hshape⟩ := Option.ne_none_iff_exists'.mp hexpanded.chosen
    have htargets : Targets (expandArc tools arc
        (resolveShape tools items frozenKeys arc.arcId shape) frozenKeys) id :=
      targets_expandArc.mpr hid
    obtain ⟨d, hd, rfl⟩ := htargets
    exact ⟨d, mem_arcDecisions.mpr ⟨arc, shape, hexpanded, hshape, hd⟩, rfl⟩

theorem targets_selectAgentDrops {live frozen : List String} :
    Targets (selectAgentDrops ctx live frozen) id ↔
      id ∈ ctx.agentDropIds ∧ agentDropAdmitted ctx live frozen id = true := by
  simp only [Targets, selectAgentDrops, List.mem_map, List.mem_filter, dropDecision]
  constructor
  · rintro ⟨_, ⟨id', hid, rfl⟩, rfl⟩
    exact hid
  · intro h
    exact ⟨_, ⟨id, h, rfl⟩, rfl⟩

theorem selectReductions_eq (hpass : ctx.passClass ≠ .defer) :
    selectReductions tools items frozenKeys ctx cfg hashOrder =
      dedupeAndSort (((arcDecisions tools items frozenKeys ctx cfg hashOrder ++
        selectAgentDrops ctx (liveIds items) frozenKeys).filter fun d =>
          notIneligible items d.targetId).filter fun d =>
            !ctx.blockIsProtected d.targetId) := by
  rw [selectReductions, selectReductionsWithOutcome]
  split
  · rename_i hdefer
    exact absurd hdefer hpass
  · rfl

theorem selectReductions_defer (hpass : ctx.passClass = .defer) :
    selectReductions tools items frozenKeys ctx cfg hashOrder = [] := by
  rw [selectReductions, selectReductionsWithOutcome, hpass]

/-- **The targets of a pass** are the blocks of the expanded arcs and those of the admitted drops,
as far as they pass the filters. -/
theorem targets_selectReductions (hpass : ctx.passClass ≠ .defer) :
    Targets (selectReductions tools items frozenKeys ctx cfg hashOrder) id ↔
      ((∃ arc, Expanded tools items frozenKeys ctx cfg arc ∧ id ∈ arc.blockIds ∧ id ∉ frozenKeys) ∨
        (id ∈ ctx.agentDropIds ∧ agentDropAdmitted ctx (liveIds items) frozenKeys id = true)) ∧
      Passes items ctx id := by
  have hprotected := fun l => @targets_filter l (fun id => !ctx.blockIsProtected id) id
  rw [selectReductions_eq hpass, targets_dedupeAndSort, hprotected, targets_filter,
    targets_append, targets_arcDecisions, targets_selectAgentDrops, Passes, Bool.not_eq_true',
    and_assoc]

end

end MagicContext.Selection
