import MagicContext.Selection.Atomicity

/-!
# What the full drops remove

A decision to drop a text leaves a placeholder.  A call that is dropped is taken out with all its
results, and so is a call whose result is dropped, unless the call is kept as a skeleton or with an
edit marker, when the results are placeholders.  A message without blocks is gone.

## What is here

* `applyFullDrops` — the blocks that are left.
* `decidedKind_dedupeAndSort` — the merge decides to drop where anything does.
* `Leaves` — which blocks leave, from what was chosen and asked for.
* `isFullyDropped_iff` — **the decisions of a pass remove the blocks that leave**.
-/

namespace MagicContext.Selection

open RedKind

variable {F : Type} [WholeDouble F]

/-! ## The removal -/

theorem isResult_of_isCall {item : SelItem} (h : item.isCall = true) : item.isResult = false := by
  rw [SelItem.isCall] at h
  split at h
  · rename_i hkind
    rw [SelItem.isResult, hkind]
  · cases h

/-- Both belong to one call: they share an arc, or they are one block that has none. -/
def SelItem.sharesCall (item other : SelItem) : Bool :=
  item.isTool && other.isTool &&
    (if item.arcId.isSome then item.arcId == other.arcId else item.id == other.id)

/-- The kind of the decision about a block. -/
def decidedKind (decisions : List ReductionDecision) (id : String) : Option String :=
  (decisions.find? fun d => d.targetId == id).map ReductionDecision.kind

/-- The first call of the arc of a block. -/
def firstCall (items : List SelItem) (block : SelItem) : Option SelItem :=
  items.find? fun other => other.isCall && block.sharesCall other

/-- `full_drop_tool_ids` takes in the call of the block. -/
def dropsItsCall (items : List SelItem) (decisions : List ReductionDecision) (block : SelItem) :
    Bool :=
  !(block.arcId.any fun arcId => (reasoningIneligibleArcIds items).contains arcId) &&
    decidedKind decisions block.id == some RedKind.drop.asStr &&
    (block.isCall ||
      !((firstCall items block).bind fun call => decidedKind decisions call.id).any fun kind =>
        kind == RedKind.skeleton.asStr || kind == RedKind.editMarker.asStr)

def isFullyDropped (items : List SelItem) (decisions : List ReductionDecision) (item : SelItem) :
    Bool :=
  items.any fun other => item.sharesCall other && dropsItsCall items decisions other

def applyFullDrops (items : List SelItem) (decisions : List ReductionDecision) : List SelItem :=
  items.filter fun item => !isFullyDropped items decisions item

/-! ## The kind that is decided -/

theorem find_targetId {decisions : List ReductionDecision} {id : String} {d : ReductionDecision}
    (hordered : decisions.Pairwise fun a b => a.targetId < b.targetId) :
    (decisions.find? fun d => d.targetId == id) = some d ↔ d ∈ decisions ∧ d.targetId = id := by
  constructor
  · intro h
    have hid := List.find?_some h
    exact ⟨List.mem_of_find?_eq_some h, eq_of_beq hid⟩
  · rintro ⟨hmem, rfl⟩
    have hnodup : (decisions.map ReductionDecision.targetId).Nodup :=
      List.pairwise_map.mpr (hordered.imp fun hlt => ne_of_lt hlt)
    cases hfind : decisions.find? fun e => e.targetId == d.targetId with
    | none => exact absurd (beq_self_eq_true _) (List.find?_eq_none.mp hfind d hmem)
    | some e =>
      have hid := List.find?_some hfind
      rw [List.inj_on_of_nodup_map hnodup (List.mem_of_find?_eq_some hfind) hmem (eq_of_beq hid)]

variable {l : List ReductionDecision}

theorem decidedKind_dedupeAndSort {id kind : String} :
    decidedKind (dedupeAndSort l) id = some kind ↔
      ∃ d, (about id l).foldl stronger none = some d ∧ d.kind = kind := by
  rw [decidedKind, Option.map_eq_some_iff]
  refine exists_congr fun d => and_congr_left fun _ => ?_
  rw [find_targetId (ordered_dedupeAndSort l), mem_dedupeAndSort]
  constructor
  · rintro ⟨h, rfl⟩
    exact h
  · intro h
    rcases (foldl_stronger h).1 with hmem | hmem
    · have hid := (mem_about.mp hmem).2
      exact ⟨by rw [hid]; exact h, hid⟩
    · cases hmem

theorem eq_drop_of_rank {kind : String} (h : 3 ≤ rank kind) : kind = drop.asStr := by
  rw [rank] at h
  split at h
  · assumption
  · split at h
    · omega
    · split at h <;> omega

/-- **Where anything decides to drop, the merge does.** -/
theorem decidedKind_drop {id : String} : decidedKind (dedupeAndSort l) id = some drop.asStr ↔
      ∃ d ∈ l, d.targetId = id ∧ d.kind = drop.asStr := by
  rw [decidedKind_dedupeAndSort]
  constructor
  · rintro ⟨d, hd, hkind⟩
    rcases (foldl_stronger hd).1 with hmem | hmem
    · exact ⟨d, (mem_about.mp hmem).1, (mem_about.mp hmem).2, hkind⟩
    · cases hmem
  · rintro ⟨d, hd, hid, hkind⟩
    have hmem : d ∈ about id l := mem_about.mpr ⟨hd, hid⟩
    have hsome := isSome_foldl_stronger (about id l) none
    rw [List.isEmpty_eq_false_iff_exists_mem.mpr ⟨d, hmem⟩] at hsome
    obtain ⟨best, hbest⟩ := Option.isSome_iff_exists.mp hsome
    refine ⟨best, hbest, eq_drop_of_rank ?_⟩
    have hle := (foldl_stronger hbest).2.1 d hmem
    rw [hkind] at hle
    exact hle

/-- The other two kinds are decided where something is and nothing drops. -/
theorem decidedKind_shell {id : String} (hkinds : ∀ d ∈ l, ∃ kind : RedKind, d.kind = kind.asStr) :
    ((decidedKind (dedupeAndSort l) id).any fun kind =>
        kind == skeleton.asStr || kind == editMarker.asStr) = true ↔
      Targets l id ∧ ¬ ∃ d ∈ l, d.targetId = id ∧ d.kind = drop.asStr := by
  rw [← decidedKind_drop, ← targets_dedupeAndSort]
  constructor
  · intro h
    cases hkind : decidedKind (dedupeAndSort l) id with
    | none =>
      rw [hkind] at h
      cases h
    | some kind =>
      rw [hkind, Option.any_some] at h
      obtain ⟨d, hd, -⟩ := Option.map_eq_some_iff.mp hkind
      obtain ⟨hmem, hid⟩ := (find_targetId (ordered_dedupeAndSort l)).mp hd
      refine ⟨⟨d, hmem, hid⟩, fun hdrop => ?_⟩
      rw [Option.some.inj hdrop] at h
      revert h
      decide
  · rintro ⟨⟨d, hmem, hid⟩, hdrop⟩
    have hkind : decidedKind (dedupeAndSort l) id = some d.kind :=
      congrArg (Option.map ReductionDecision.kind)
        ((find_targetId (ordered_dedupeAndSort l)).mpr ⟨hmem, hid⟩)
    obtain ⟨kind, hd⟩ := hkinds d (mem_of_mem_dedupeAndSort hmem)
    rw [hd] at hkind
    rw [hkind, Option.any_some]
    rw [hkind] at hdrop
    cases kind with
    | drop => exact absurd rfl hdrop
    | skeleton => rfl
    | editMarker => rfl

/-! ## The blocks that leave -/

def ArcShape.isFull : ArcShape → Bool
  | .fullDrop | .dedupFullDrop => true
  | .skeleton | .editMarker => false

section
variable (tools : SelectionTools) (items : List SelItem) (frozenKeys : List String)
  (ctx : SelectionContext F) (cfg : SelectionConfig)

/-- An agent asked for the block to be dropped, and may. -/
def Asked (id : String) : Prop :=
  id ∈ ctx.agentDropIds ∧ agentDropAdmitted ctx (liveIds items) frozenKeys id = true

/-- The block is a call of a chosen arc whose calls are dropped, or a result of any chosen arc. -/
def DroppedWithArc (id : String) : Prop :=
  ∃ arc shape, Expanded tools items frozenKeys ctx cfg arc ∧
    (arcShapes tools items frozenKeys ctx cfg).get arc.arcId = some shape ∧ id ∉ frozenKeys ∧
      (id ∈ arc.resultIds ∨ (id ∈ arc.callInputs.map Prod.fst ∧
        (resolveShape tools items frozenKeys arc.arcId shape).isFull = true))

/-- The block is asked for or belongs to a chosen arc, and no filter takes it out. -/
def IsNamed (id : String) : Prop :=
  ctx.passClass ≠ .defer ∧ Passes items ctx id ∧
    ((∃ arc, Expanded tools items frozenKeys ctx cfg arc ∧ id ∈ arc.blockIds ∧
      id ∉ frozenKeys) ∨ Asked items frozenKeys ctx id)

/-- The block is named, and not to be kept as a skeleton or with an edit marker. -/
def IsDropped (id : String) : Prop :=
  ctx.passClass ≠ .defer ∧ Passes items ctx id ∧
    (DroppedWithArc tools items frozenKeys ctx cfg id ∨ Asked items frozenKeys ctx id)

/-- A call is dropped; or a result is, and its call is not kept. -/
def TakesItsCall (block : SelItem) : Prop :=
  IsDropped tools items frozenKeys ctx cfg block.id ∧ (block.isCall = true ∨
    ∀ call, firstCall items block = some call → IsNamed tools items frozenKeys ctx cfg call.id →
      IsDropped tools items frozenKeys ctx cfg call.id)

/-- A block of its call takes the call out. -/
def Leaves (item : SelItem) : Prop :=
  ∃ other ∈ items, item.sharesCall other = true ∧ TakesItsCall tools items frozenKeys ctx cfg other

end

section
variable {tools : SelectionTools} {items : List SelItem} {frozenKeys : List String}
  {ctx : SelectionContext F} {cfg : SelectionConfig} {hashOrder : HashOrder} {id : String}

theorem drops_expandArc {arc : ToolArc} {shape : ArcShape} :
    (∃ d ∈ expandArc tools arc shape frozenKeys, d.targetId = id ∧ d.kind = drop.asStr) ↔
      id ∉ frozenKeys ∧ (id ∈ arc.resultIds ∨
        (id ∈ arc.callInputs.map Prod.fst ∧ shape.isFull = true)) := by
  have hcall : ∀ call, (callDecision tools shape call).kind = drop.asStr ↔ shape.isFull = true := by
    intro call
    cases shape <;> simp [callDecision, dropDecision, asStr, ArcShape.isFull]
  constructor
  · rintro ⟨d, hd, rfl, hkind⟩
    rw [expandArc, List.mem_append, List.mem_map, List.mem_map] at hd
    rcases hd with ⟨call, hmem, rfl⟩ | ⟨result, hmem, rfl⟩
    · obtain ⟨hmem, hfrozen⟩ := List.mem_filter.mp hmem
      rw [Bool.not_eq_true', ← Bool.not_eq_true, List.contains_iff_mem] at hfrozen
      rw [targetId_callDecision]
      exact ⟨hfrozen, Or.inr ⟨List.mem_map_of_mem hmem, (hcall call).mp hkind⟩⟩
    · obtain ⟨hmem, hfrozen⟩ := List.mem_filter.mp hmem
      rw [Bool.not_eq_true', ← Bool.not_eq_true, List.contains_iff_mem] at hfrozen
      exact ⟨hfrozen, Or.inl hmem⟩
  · rintro ⟨hfrozen, hblock⟩
    have hkept : (!frozenKeys.contains id) = true := by
      rw [Bool.not_eq_true', ← Bool.not_eq_true, List.contains_iff_mem]
      exact hfrozen
    rw [expandArc]
    rcases hblock with hresult | ⟨hmem, hfull⟩
    · refine ⟨dropDecision id, List.mem_append_right _ ?_, rfl, rfl⟩
      exact List.mem_map_of_mem (List.mem_filter.mpr ⟨hresult, hkept⟩)
    · obtain ⟨call, hcallMem, rfl⟩ := List.mem_map.mp hmem
      refine ⟨callDecision tools shape call, List.mem_append_left _ ?_,
        targetId_callDecision _ _ _, (hcall call).mpr hfull⟩
      exact List.mem_map_of_mem (List.mem_filter.mpr ⟨hcallMem, hkept⟩)

/-- What is decided before the filters. -/
theorem kind_arcDecisions {d : ReductionDecision}
    (h : d ∈ arcDecisions tools items frozenKeys ctx cfg hashOrder ++
      selectAgentDrops ctx (liveIds items) frozenKeys) : ∃ kind : RedKind, d.kind = kind.asStr := by
  rw [List.mem_append] at h
  rcases h with harc | hdrop
  · obtain ⟨arc, shape, -, -, hd⟩ := mem_arcDecisions.mp harc
    rw [expandArc, List.mem_append, List.mem_map, List.mem_map] at hd
    rcases hd with ⟨-, -, rfl⟩ | ⟨-, -, rfl⟩
    · cases resolveShape tools items frozenKeys arc.arcId shape with
      | skeleton => exact ⟨.skeleton, rfl⟩
      | fullDrop => exact ⟨.drop, rfl⟩
      | dedupFullDrop => exact ⟨.drop, rfl⟩
      | editMarker => exact ⟨.editMarker, rfl⟩
    · exact ⟨.drop, rfl⟩
  · obtain ⟨-, -, rfl⟩ := List.mem_map.mp hdrop
    exact ⟨.drop, rfl⟩

omit [WholeDouble F] in
theorem drops_filter {l : List ReductionDecision} :
    (∃ d ∈ (l.filter fun d => notIneligible items d.targetId).filter fun d =>
        !ctx.blockIsProtected d.targetId, d.targetId = id ∧ d.kind = drop.asStr) ↔
      Passes items ctx id ∧ ∃ d ∈ l, d.targetId = id ∧ d.kind = drop.asStr := by
  constructor
  · rintro ⟨d, hd, rfl, hkind⟩
    rw [List.mem_filter, List.mem_filter, Bool.not_eq_true'] at hd
    exact ⟨⟨hd.1.2, hd.2⟩, d, hd.1.1, rfl, hkind⟩
  · rintro ⟨⟨heligible, hprotected⟩, d, hd, rfl, hkind⟩
    refine ⟨d, ?_, rfl, hkind⟩
    rw [List.mem_filter, List.mem_filter, Bool.not_eq_true']
    exact ⟨⟨hd, heligible⟩, hprotected⟩

theorem decidedKind_selectReductions :
    decidedKind (selectReductions tools items frozenKeys ctx cfg hashOrder) id =
        some drop.asStr ↔ IsDropped tools items frozenKeys ctx cfg id := by
  by_cases hpass : ctx.passClass = .defer
  · rw [selectReductions_defer hpass]
    exact iff_of_false nofun fun h => h.1 hpass
  rw [selectReductions_eq hpass, decidedKind_drop, drops_filter, IsDropped, and_iff_right hpass]
  refine and_congr_right fun _ => ?_
  have harcs : (∃ d ∈ arcDecisions tools items frozenKeys ctx cfg hashOrder,
      d.targetId = id ∧ d.kind = drop.asStr) ↔
      DroppedWithArc tools items frozenKeys ctx cfg id := by
    constructor
    · rintro ⟨d, hd, hdrop⟩
      obtain ⟨arc, shape, hexpanded, hshape, hd⟩ := mem_arcDecisions.mp hd
      exact ⟨arc, shape, hexpanded, hshape, drops_expandArc.mp ⟨d, hd, hdrop⟩⟩
    · rintro ⟨arc, shape, hexpanded, hshape, hdrop⟩
      obtain ⟨d, hd, hdrop⟩ := drops_expandArc.mpr hdrop
      exact ⟨d, mem_arcDecisions.mpr ⟨arc, shape, hexpanded, hshape, hd⟩, hdrop⟩
  have hasked : (∃ d ∈ selectAgentDrops ctx (liveIds items) frozenKeys,
      d.targetId = id ∧ d.kind = drop.asStr) ↔ Asked items frozenKeys ctx id := by
    rw [Asked, ← targets_selectAgentDrops]
    constructor
    · rintro ⟨d, hd, hid, -⟩
      exact ⟨d, hd, hid⟩
    · rintro ⟨d, hd, hid⟩
      refine ⟨d, hd, hid, ?_⟩
      obtain ⟨_, -, rfl⟩ := List.mem_map.mp hd
      rfl
  simp only [List.mem_append, or_and_right, exists_or, harcs, hasked]

theorem shell_selectReductions :
    ((decidedKind (selectReductions tools items frozenKeys ctx cfg hashOrder) id).any fun kind =>
        kind == skeleton.asStr || kind == editMarker.asStr) = true ↔
      IsNamed tools items frozenKeys ctx cfg id ∧
        ¬ IsDropped tools items frozenKeys ctx cfg id := by
  by_cases hpass : ctx.passClass = .defer
  · rw [selectReductions_defer hpass]
    exact iff_of_false nofun fun h => h.1.1 hpass
  have hdropped := @decidedKind_selectReductions F _ tools items frozenKeys ctx cfg hashOrder id
  rw [← hdropped, IsNamed, and_iff_right hpass,
    Asked, and_comm (a := Passes items ctx id), ← targets_selectReductions hpass,
    selectReductions_eq hpass, targets_dedupeAndSort, decidedKind_drop]
  refine decidedKind_shell fun d hd => ?_
  exact kind_arcDecisions (List.mem_filter.mp (List.mem_filter.mp hd).1).1

end

/-- **The decisions of a pass remove the blocks that leave.** -/
theorem isFullyDropped_iff {tools : SelectionTools} {tail : Tail} {frozenKeys : List String}
    {ctx : SelectionContext F} {cfg : SelectionConfig} {hashOrder : HashOrder} {item : SelItem} :
    isFullyDropped tail.items (selectReductions tools tail.items frozenKeys ctx cfg hashOrder)
        item = true ↔ Leaves tools tail.items frozenKeys ctx cfg item := by
  rw [isFullyDropped, List.any_eq_true, Leaves]
  refine exists_congr fun other => and_congr_right fun hother => ?_
  rw [Bool.and_eq_true]
  refine and_congr_right fun _ => ?_
  have hcall : ((firstCall tail.items other).bind fun call => decidedKind
      (selectReductions tools tail.items frozenKeys ctx cfg hashOrder) call.id).any (fun kind =>
        kind == skeleton.asStr || kind == editMarker.asStr) = false ↔
      ¬ ∃ call, firstCall tail.items other = some call ∧
        IsNamed tools tail.items frozenKeys ctx cfg call.id ∧
        ¬ IsDropped tools tail.items frozenKeys ctx cfg call.id := by
    rw [Bool.eq_false_iff]
    refine not_congr ?_
    cases hfirst : firstCall tail.items other with
    | none => simp
    | some call =>
      rw [Option.bind_some, shell_selectReductions]
      simp
  have hineligible : IsDropped tools tail.items frozenKeys ctx cfg other.id →
      (other.arcId.any fun arcId => (reasoningIneligibleArcIds tail.items).contains arcId) =
        false := by
    intro hdropped
    have heligible := hdropped.2.1.1
    rw [notIneligible, get_arcByBlockId tail hother] at heligible
    cases harc : other.arcId with
    | none => rfl
    | some arcId =>
      rw [harc, Option.all_some, Bool.not_eq_true'] at heligible
      rw [Option.any_some, heligible]
  rw [dropsItsCall, Bool.and_eq_true, Bool.and_eq_true, Bool.not_eq_true', beq_iff_eq,
    decidedKind_selectReductions, Bool.or_eq_true, Bool.not_eq_true', hcall, TakesItsCall]
  constructor
  · rintro ⟨⟨-, hdropped⟩, hkept⟩
    refine ⟨hdropped, hkept.imp_right fun hnone call hfirst hnamed => ?_⟩
    by_contra hshell
    exact hnone ⟨call, hfirst, hnamed, hshell⟩
  · rintro ⟨hdropped, hkept⟩
    refine ⟨⟨hineligible hdropped, hdropped⟩, hkept.imp_right ?_⟩
    rintro hall ⟨call, hfirst, hnamed, hshell⟩
    exact hshell (hall call hfirst hnamed)

end MagicContext.Selection
