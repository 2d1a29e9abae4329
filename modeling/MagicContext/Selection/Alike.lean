import MagicContext.Selection.Gathered

/-!
# Selections that agree

Two things that a pass gathers may differ in the order of the results of an arc and in the order of
what is only looked up.  The selectors do not see that, and neither does the merge.

## What is here

* `ToolArc.canon` — an arc with its results in order; what the selectors make of it.
* `Alike` — what is gathered agrees, up to such orders.
* `decisions_eq_of_alike` — **what is selected is the same**, whatever the orders of the maps.
-/

namespace MagicContext.Selection

open Permuted (Reordering)
open ToolArc SortedMap

variable {F : Type} [WholeDouble F]

/-! ## Arcs with their results in order -/

/-- The arc with its results in order. -/
def ToolArc.canon (arc : ToolArc) : ToolArc :=
  { arc with resultIds := arc.resultIds.insertionSort (· ≤ ·) }

section
variable (arc : ToolArc)

@[simp] theorem canon_arcId : arc.canon.arcId = arc.arcId := rfl

@[simp] theorem canon_callInputs : arc.canon.callInputs = arc.callInputs := rfl

@[simp] theorem canon_reclaimBytes : arc.canon.reclaimBytes = arc.reclaimBytes := rfl

theorem canon_resultIds_perm : arc.canon.resultIds.Perm arc.resultIds :=
  List.perm_insertionSort _ _

end

/-- Arcs that agree but for the order of their results have one normal form. -/
theorem canon_eq {a b : ToolArc} (h : { a with resultIds := b.resultIds } = b)
    (hresults : a.resultIds.Perm b.resultIds) : a.canon = b.canon := by
  have hsort : a.resultIds.insertionSort (· ≤ ·) = b.resultIds.insertionSort (· ≤ ·) :=
    Permuted.insertionSort_perm (fun _ _ _ _ => le_antisymm) hresults
  rw [canon, canon, hsort, ← h]

theorem map_canon_filter {p : ToolArc → Bool} (hp : ∀ arc, p arc.canon = p arc)
    (arcs : List ToolArc) :
    (arcs.map canon).filter p = (arcs.filter p).map canon := by
  rw [List.filter_map]
  exact congrArg (List.map _) (List.filter_congr fun arc _ => hp arc)

theorem map_canon_sort {r : ToolArc → ToolArc → Prop} [DecidableRel r]
    (hr : ∀ a b, r a.canon b.canon ↔ r a b) (arcs : List ToolArc) :
    (arcs.map canon).insertionSort r = (arcs.insertionSort r).map canon :=
  (List.map_insertionSort _ _ _ _ fun a _ b _ => (hr a b).symm).symm

theorem map_arcId_canon (arcs : List ToolArc) : (arcs.map canon).map arcId = arcs.map arcId := by
  rw [List.map_map]
  rfl

/-- What does not see the order of results agrees where the normal forms do. -/
theorem eq_of_canon {γ : Type} {f : List ToolArc → γ}
    (hf : ∀ arcs, f (arcs.map canon) = f arcs) {arcs arcs' : List ToolArc}
    (h : arcs.map canon = arcs'.map canon) : f arcs = f arcs' := by
  rw [← hf arcs, h, hf]

/-! ## What the selectors see -/

theorem newestCtxReduceArcIds_canon (arcs : List ToolArc) :
    newestCtxReduceArcIds (arcs.map canon) = newestCtxReduceArcIds arcs := by
  rw [newestCtxReduceArcIds, map_canon_filter fun _ => rfl, map_canon_sort fun _ _ => Iff.rfl,
    ← List.map_take, map_arcId_canon]
  rfl

theorem selectSupersession_canon (arcs : List ToolArc) :
    selectSupersession (arcs.map canon) = selectSupersession arcs := by
  rw [selectSupersession, map_canon_sort fun _ _ => Iff.rfl, newestCtxReduceArcIds_canon,
    List.foldl_map]
  rfl

theorem newestArc_canon (arcs : List ToolArc) :
    newestArc (arcs.map canon) = (newestArc arcs).map canon := by
  have hnone : (none : Option ToolArc) = Option.map canon none := rfl
  rw [newestArc, newestArc, List.foldl_map]
  conv_lhs => rw [hnone]
  refine List.foldl_hom (Option.map canon) fun newest arc => ?_
  cases newest with
  | none => rfl
  | some best =>
    change (if best.Older arc then some arc.canon else some best.canon) = _
    dsimp only
    split <;> rfl

omit [WholeDouble F] in
theorem selectTwoPass_canon (arcs : List ToolArc) (ctx : SelectionContext F) :
    selectTwoPass (arcs.map canon) ctx = selectTwoPass arcs ctx := by
  rw [selectTwoPass, selectTwoPass, newestCtxReduceArcIds_canon]
  simp only [map_canon_filter (p := fun arc => arc.name == "todowrite") fun _ => rfl,
    newestArc_canon, Option.map_map]
  rw [map_canon_filter fun _ => rfl, map_canon_filter fun _ => rfl, map_canon_filter fun _ => rfl,
    map_canon_filter fun _ => rfl, map_arcId_canon]
  rfl

theorem takeUntilReclaimed_canon (target reclaimed : F) (arcs : List ToolArc) :
    takeUntilReclaimed target reclaimed (arcs.map canon) =
      (takeUntilReclaimed target reclaimed arcs).map canon := by
  induction arcs generalizing reclaimed with
  | nil => rfl
  | cons arc arcs ih =>
    rw [List.map_cons, takeUntilReclaimed, takeUntilReclaimed, canon_reclaimBytes, ih]
    split <;> rfl

theorem tierReserve_canon (tools : SelectionTools) (arcs : List ToolArc) (tier : Nat) :
    tierReserve F tools (arcs.map canon) tier = tierReserve F tools arcs tier := by
  rw [tierReserve, map_canon_filter fun _ => rfl, map_canon_sort fun _ _ => Iff.rfl,
    List.length_map, ← List.map_take, map_arcId_canon]
  rfl

theorem selectEmergency_canon (tools : SelectionTools) (arcs : List ToolArc)
    (ctx : SelectionContext F) (floor : F) :
    selectEmergency tools (arcs.map canon) ctx floor = selectEmergency tools arcs ctx floor := by
  rw [selectEmergency, selectEmergency, newestCtxReduceArcIds_canon, tierReserve_canon,
    tierReserve_canon]
  dsimp only
  rw [map_canon_filter fun _ => rfl, map_canon_filter fun _ => rfl, map_canon_filter fun _ => rfl,
    map_canon_filter fun _ => rfl, map_canon_sort fun _ _ => Iff.rfl,
    map_canon_sort fun _ _ => Iff.rfl, map_canon_sort fun _ _ => Iff.rfl, ← List.map_append,
    ← List.map_append, takeUntilReclaimed_canon, map_arcId_canon]

/-! ## Duplicates -/

omit [WholeDouble F] in
theorem dedupFingerprint_canon (tools : SelectionTools) (ctx : SelectionContext F)
    (arc : ToolArc) : dedupFingerprint tools ctx arc.canon = dedupFingerprint tools ctx arc := by
  have hempty : arc.canon.resultIds.isEmpty = arc.resultIds.isEmpty := by
    rw [Bool.eq_iff_iff, List.isEmpty_iff, List.isEmpty_iff, ← List.length_eq_zero_iff,
      ← List.length_eq_zero_iff, (canon_resultIds_perm arc).length_eq]
  have hany : arc.canon.resultIds.any ctx.blockIsProtected =
      arc.resultIds.any ctx.blockIsProtected := (canon_resultIds_perm arc).any_eq
  rw [dedupFingerprint, dedupFingerprint, hempty, hany]
  rfl

omit [WholeDouble F] in
/-- The duplicates of each group but the newest. -/
theorem mem_selectToolDedupIn {orders : HashOrders} {tools : SelectionTools}
    {arcs : List ToolArc} {ctx : SelectionContext F} {arcId : String} :
    arcId ∈ selectToolDedupIn orders tools arcs ctx ↔
      ∃ fingerprint, arcId ∈ ((keyed (dedupFingerprint tools ctx) fingerprint arcs).insertionSort
        ToolArc.ResultBefore).dropLast.map ToolArc.arcId := by
  have hfold : ∀ (l group : List ToolArc),
      l.foldl (fun group arc => group ++ [arc]) group = group ++ l := by
    intro l group
    simpa using foldl_push id l group
  have hshort : ∀ group : List ToolArc, group.length ≤ 1 →
      (group.insertionSort ToolArc.ResultBefore).dropLast = [] := by
    intro group hlength
    rw [← List.length_eq_zero_iff, List.length_dropLast, List.length_insertionSort]
    omega
  rw [selectToolDedupIn, List.mem_flatMap]
  constructor
  · rintro ⟨⟨fingerprint, group⟩, hentry, hmem⟩
    rw [Reordering.mem_order, ← get_eq_some, duplicateGroups, get_groupBy,
      Option.map_eq_some_iff] at hentry
    obtain ⟨first, -, rfl⟩ := hentry
    rw [hfold, List.nil_append] at hmem
    split at hmem
    · cases hmem
    · exact ⟨fingerprint, hmem⟩
  · rintro ⟨fingerprint, hmem⟩
    by_cases hlength : (keyed (dedupFingerprint tools ctx) fingerprint arcs).length ≤ 1
    · rw [hshort _ hlength] at hmem
      cases hmem
    · obtain ⟨first, rest, hgroup⟩ : ∃ first rest,
          keyed (dedupFingerprint tools ctx) fingerprint arcs = first :: rest :=
        List.exists_cons_of_length_pos (by omega)
      refine ⟨(fingerprint, keyed (dedupFingerprint tools ctx) fingerprint arcs), ?_, ?_⟩
      · rw [Reordering.mem_order, ← get_eq_some, duplicateGroups, get_groupBy, hfold,
          List.nil_append, hgroup]
        rfl
      · rw [if_neg hlength]
        exact hmem

omit [WholeDouble F] in
theorem mem_selectToolDedupIn_canon (orders orders' : HashOrders) {tools : SelectionTools}
    {arcs : List ToolArc} {ctx : SelectionContext F} {arcId : String} :
    arcId ∈ selectToolDedupIn orders tools (arcs.map ToolArc.canon) ctx ↔
      arcId ∈ selectToolDedupIn orders' tools arcs ctx := by
  rw [mem_selectToolDedupIn, mem_selectToolDedupIn]
  refine exists_congr fun fingerprint => ?_
  rw [keyed, map_canon_filter fun arc => by rw [dedupFingerprint_canon],
    map_canon_sort fun _ _ => Iff.rfl, ← List.map_dropLast, map_arcId_canon]
  rfl

/-! ## Shapes -/

/-- A shape is given where there was none. -/
theorem get_assign_eq {shape : ArcShape} {arcIds : List String}
    {shapes : SortedMap String ArcShape} {arcId : String} :
    (assign shape arcIds shapes).get arcId =
      (shapes.get arcId).or (if arcId ∈ arcIds then some shape else none) := by
  rw [assign]
  induction arcIds generalizing shapes with
  | nil => simp
  | cons first rest ih =>
    rw [List.foldl_cons, ih]
    cases hfirst : shapes.get first with
    | none =>
      rw [get_insert]
      by_cases heq : first = arcId
      · subst heq
        simp [hfirst]
      · simp [heq, Ne.symm heq]
    | some shape' =>
      by_cases heq : arcId = first
      · simp [heq, hfirst]
      · simp [heq]

theorem assign_congr {shape : ArcShape} {arcIds arcIds' : List String}
    (h : ∀ arcId, arcId ∈ arcIds ↔ arcId ∈ arcIds') (shapes : SortedMap String ArcShape) :
    assign shape arcIds shapes = assign shape arcIds' shapes := by
  refine ext_get fun arcId => ?_
  rw [get_assign_eq, get_assign_eq]
  simp only [h]

/-- The shape of an intent. -/
def ArcIntent.shape (intent : ArcIntent) : ArcShape :=
  if intent.editMarker then .editMarker else .fullDrop

theorem get_assignIntentsIn {orders : HashOrders} {intents : SortedMap String ArcIntent}
    {shapes : SortedMap String ArcShape} {arcId : String} :
    (assignIntentsIn orders intents shapes).get arcId =
      (shapes.get arcId).or ((intents.get arcId).map ArcIntent.shape) := by
  have hfold : ∀ (l : List (String × ArcIntent)) (shapes : SortedMap String ArcShape),
      (l.foldl (fun shapes entry => assign entry.2.shape [entry.1] shapes) shapes).get arcId =
        (shapes.get arcId).or
          ((l.find? fun entry => decide (entry.1 = arcId)).map fun entry => entry.2.shape) := by
    intro l
    induction l with
    | nil => exact fun shapes => by simp
    | cons entry l ih =>
      intro shapes
      rw [List.foldl_cons, ih, get_assign_eq, List.find?_cons]
      by_cases heq : entry.1 = arcId
      · cases shapes.get arcId <;> simp [heq]
      · simp [heq, Ne.symm heq]
  have hfind : ((orders.intents.order intents.entries).find? fun entry =>
      decide (entry.1 = arcId)).map (fun entry => entry.2.shape) =
        (intents.get arcId).map ArcIntent.shape := by
    cases hget : intents.get arcId with
    | none =>
      rw [List.find?_eq_none.mpr]
      · rfl
      · intro entry hentry hkey
        rw [Reordering.mem_order] at hentry
        rw [← of_decide_eq_true hkey, get_eq_some.mpr hentry] at hget
        cases hget
    | some intent =>
      cases hentry : (orders.intents.order intents.entries).find? fun entry =>
          decide (entry.1 = arcId) with
      | none =>
        have hmem := Reordering.mem_order orders.intents |>.mpr (get_eq_some.mp hget)
        exact absurd (decide_eq_true rfl) (List.find?_eq_none.mp hentry _ hmem)
      | some entry =>
        have hfound := List.find?_some hentry
        have hkey : entry.1 = arcId := of_decide_eq_true hfound
        have hmem := Reordering.mem_order orders.intents |>.mp (List.mem_of_find?_eq_some hentry)
        rw [← get_eq_some, hkey, hget] at hmem
        rw [Option.map_some, Option.map_some, Option.some.inj hmem]
  rw [assignIntentsIn]
  exact (hfold _ shapes).trans (by rw [hfind])

/-! ## What is gathered agrees -/

/-- What is gathered agrees, up to the order of results and of what is only looked up. -/
structure Alike (ctx : SelectionContext F) (g g' : Gathered F) : Prop where
  arcs : g.arcs.map ToolArc.canon = g'.arcs.map ToolArc.canon
  ineligible : ∀ arcId, arcId ∈ g.ineligible ↔ arcId ∈ g'.ineligible
  collapses : ∀ arcId, arcId ∈ g.collapses ↔ arcId ∈ g'.collapses
  liveIds : ∀ id, id ∈ g.liveIds ↔ id ∈ g'.liveIds
  floorTokens : ctx.passClass = .emergencyForce → g.floorTokens = g'.floorTokens
  arcByBlockId : g.arcByBlockId = g'.arcByBlockId

theorem contains_congr {l l' : List String} (h : ∀ id, id ∈ l ↔ id ∈ l') (id : String) :
    l.contains id = l'.contains id := by
  rw [Bool.eq_iff_iff, List.contains_iff_mem, List.contains_iff_mem, h]

section
variable {tools : SelectionTools} {frozenKeys : List String} {ctx : SelectionContext F}
  {cfg : SelectionConfig} {g g' : Gathered F} {orders orders' : HashOrders}

namespace Alike

section
variable (h : Alike ctx g g')
include h

omit [WholeDouble F] in
theorem active : g.active.map canon = g'.active.map canon := by
  rw [Gathered.active, Gathered.active, ← map_canon_filter fun _ => rfl,
    ← map_canon_filter fun _ => rfl, h.arcs]
  exact List.filter_congr fun arc _ => by rw [contains_congr h.ineligible]

omit [WholeDouble F] in
theorem dedupArcs (orders orders' : HashOrders) (arcId : String) :
    arcId ∈ g.dedupArcs orders tools ctx ↔ arcId ∈ g'.dedupArcs orders' tools ctx := by
  rw [Gathered.dedupArcs, Gathered.dedupArcs, ← mem_selectToolDedupIn_canon orders, h.active,
    mem_selectToolDedupIn_canon]

omit [WholeDouble F] in
theorem twoPassArcs (orders orders' : HashOrders) :
    g.twoPassArcs orders tools ctx = g'.twoPassArcs orders' tools ctx := by
  have hleft : (g.active.filter fun arc =>
      !(g.dedupArcs orders tools ctx).contains arc.arcId).map canon =
      (g'.active.filter fun arc =>
        !(g'.dedupArcs orders' tools ctx).contains arc.arcId).map canon := by
    rw [← map_canon_filter fun _ => rfl, ← map_canon_filter fun _ => rfl, h.active]
    refine List.filter_congr fun arc _ => ?_
    rw [contains_congr (h.dedupArcs orders orders')]
  exact eq_of_canon (f := fun arcs => selectTwoPass arcs ctx)
    (fun arcs => selectTwoPass_canon arcs ctx) hleft

theorem emergencyArcs : g.emergencyArcs tools ctx = g'.emergencyArcs tools ctx := by
  rw [Gathered.emergencyArcs, Gathered.emergencyArcs]
  split
  · rename_i hclass
    rw [h.floorTokens hclass]
    exact eq_of_canon (f := fun arcs => selectEmergency tools arcs ctx g'.floorTokens)
      (fun arcs => selectEmergency_canon tools arcs ctx _) h.active
  · rfl

theorem intents (orders orders' : HashOrders) :
    g.intents orders tools ctx cfg = g'.intents orders' tools ctx cfg := by
  rw [Gathered.intents, Gathered.intents, h.emergencyArcs, h.twoPassArcs orders orders',
    eq_of_canon selectSupersession_canon h.active]

theorem shapes (orders orders' : HashOrders) :
    g.shapes orders tools ctx cfg = g'.shapes orders' tools ctx cfg := by
  have hset : ∀ (o o' : Reordering String) {ids ids' : List String},
      (∀ id, id ∈ ids ↔ id ∈ ids') → ∀ id, id ∈ o.order ids ↔ id ∈ o'.order ids' := by
    intro o o' ids ids' hids id
    rw [Reordering.mem_order, Reordering.mem_order, hids]
  have hintents : ∀ (intents : SortedMap String ArcIntent) (shapes : SortedMap String ArcShape),
      assignIntentsIn orders intents shapes = assignIntentsIn orders' intents shapes := by
    intro intents shapes
    refine ext_get fun arcId => ?_
    rw [get_assignIntentsIn, get_assignIntentsIn]
  have hdedup : ∀ arcId, arcId ∈ g.dedupArcs orders tools ctx ↔
      arcId ∈ g'.dedupArcs orders' tools ctx := h.dedupArcs orders orders'
  rw [Gathered.shapes, Gathered.shapes, h.emergencyArcs, h.twoPassArcs orders orders',
    h.intents orders orders']
  cases ctx.passClass with
  | defer => rfl
  | execute =>
    dsimp only
    rw [hintents, assign_congr (hset orders.dedupArcs orders'.dedupArcs hdedup),
      assign_congr (hset orders.twoPassArcs orders'.twoPassArcs fun _ => Iff.rfl)]
  | emergencyForce =>
    dsimp only
    rw [hintents, assign_congr (hset orders.emergencyArcs orders'.emergencyArcs fun _ => Iff.rfl),
      assign_congr (hset orders.twoPassArcs orders'.twoPassArcs fun _ => Iff.rfl)]
    split
    · rw [assign_congr (hset orders.dedupArcs orders'.dedupArcs hdedup)]
    · rw [assign_congr (hset orders.dedupArcs orders'.dedupArcs fun _ => Iff.rfl)]

omit [WholeDouble F] in
/-- The arc of an id, up to the order of its results. -/
theorem arc? (arcId : String) : (g.arc? arcId).map canon = (g'.arc? arcId).map canon := by
  have hfind : ∀ arcs : List ToolArc, (arcs.find? fun arc => arc.arcId == arcId).map
      canon = (arcs.map canon).find? fun arc => arc.arcId == arcId := by
    intro arcs
    rw [List.find?_map]
    rfl
  rw [Gathered.arc?, Gathered.arc?, hfind, hfind, h.active]

theorem isWithheld (orders orders' : HashOrders) (arcId : String) :
    g.isWithheld orders tools ctx cfg arcId = g'.isWithheld orders' tools ctx cfg arcId := by
  have hprotected : ∀ ids : List String,
      (g.protectedSupersessionArcs orders tools ctx cfg ids).any (fun arcs => arcs.contains arcId) =
        (g'.protectedSupersessionArcs orders' tools ctx cfg ids).any fun arcs =>
          arcs.contains arcId := by
    intro ids
    have hblocks : ∀ arcId : String,
        (g.arc? arcId).any (fun arc => arc.callInputs.any (fun call => ids.contains call.1) ||
          arc.resultIds.any fun id => ids.contains id) =
        (g'.arc? arcId).any fun arc => arc.callInputs.any (fun call => ids.contains call.1) ||
          arc.resultIds.any fun id => ids.contains id := by
      intro arcId
      have hcanon : ∀ arc : ToolArc, (arc.callInputs.any (fun call => ids.contains call.1) ||
          arc.resultIds.any fun id => ids.contains id) =
          (arc.canon.callInputs.any (fun call => ids.contains call.1) ||
            arc.canon.resultIds.any fun id => ids.contains id) := by
        intro arc
        rw [(canon_resultIds_perm arc).any_eq, canon_callInputs]
      have hfound := congrArg (fun arc : Option ToolArc => arc.any fun arc =>
        arc.callInputs.any (fun call => ids.contains call.1) ||
          arc.resultIds.any fun id => ids.contains id) (h.arc? arcId)
      simpa only [Option.any_map, Function.comp_def, ← hcanon] using hfound
    rw [Gathered.protectedSupersessionArcs, Gathered.protectedSupersessionArcs,
      h.intents orders orders']
    cases g'.intents orders' tools ctx cfg with
    | none => rfl
    | some eligible =>
      rw [Option.map_some, Option.map_some, Option.any_some, Option.any_some]
      refine contains_congr (fun id => ?_) arcId
      rw [List.mem_filter, List.mem_filter, Reordering.mem_order, Reordering.mem_order, hblocks]
  rw [Gathered.isWithheld, Gathered.isWithheld, hprotected, hprotected]

omit [WholeDouble F] in
theorem skeletonWindow : g.skeletonWindow = g'.skeletonWindow := by
  refine eq_of_canon (f := fun arcs => ((arcs.insertionSort Newer).take
    recentToolSkeletonWindow).map arcId) (fun arcs => ?_) h.active
  rw [map_canon_sort fun _ _ => Iff.rfl, ← List.map_take, map_arcId_canon]

omit [WholeDouble F] in
theorem resolveShape (arcId : String) (shape : ArcShape) :
    g.resolveShape arcId shape = g'.resolveShape arcId shape := by
  rw [Gathered.resolveShape.eq_def, Gathered.resolveShape.eq_def, contains_congr h.collapses,
    h.skeletonWindow]

end

end Alike

/-! ## The decisions -/

theorem mem_arcDecisionsIn {d : ReductionDecision} :
    d ∈ g.arcDecisions orders tools frozenKeys ctx cfg ↔
      ∃ arcId shape arc, (g.shapes orders tools ctx cfg).get arcId = some shape ∧
        g.arc? arcId = some arc ∧ g.isWithheld orders tools ctx cfg arcId = false ∧
        d ∈ expandArc tools arc (g.resolveShape arcId shape) frozenKeys := by
  rw [Gathered.arcDecisions, List.mem_flatMap]
  constructor
  · rintro ⟨⟨arcId, shape⟩, hentry, hd⟩
    rw [Reordering.mem_order, ← get_eq_some] at hentry
    split at hd
    · cases hd
    · rename_i arc harc
      split at hd
      · cases hd
      · rename_i hreleased
        exact ⟨arcId, shape, arc, hentry, harc, Bool.eq_false_iff.mpr hreleased, hd⟩
  · rintro ⟨arcId, shape, arc, hshape, harc, hreleased, hd⟩
    refine ⟨(arcId, shape), ?_, ?_⟩
    · rw [Reordering.mem_order, ← get_eq_some, hshape]
    · rw [harc]
      dsimp only
      rw [hreleased, if_neg Bool.false_ne_true]
      exact hd

theorem mem_expandArc_canon {arc : ToolArc} {shape : ArcShape} {d : ReductionDecision} :
    d ∈ expandArc tools arc.canon shape frozenKeys ↔ d ∈ expandArc tools arc shape frozenKeys := by
  have hresults : (arc.canon.resultIds.filter fun id => !frozenKeys.contains id).Perm
      (arc.resultIds.filter fun id => !frozenKeys.contains id) :=
    (canon_resultIds_perm arc).filter _
  rw [expandArc, expandArc, List.mem_append, List.mem_append, (hresults.map _).mem_iff]
  rfl

/-- The arcs' decisions agree. -/
theorem Alike.arcDecisions (h : Alike ctx g g') (orders orders' : HashOrders)
    (d : ReductionDecision) :
    d ∈ g.arcDecisions orders tools frozenKeys ctx cfg ↔
      d ∈ g'.arcDecisions orders' tools frozenKeys ctx cfg := by
  rw [mem_arcDecisionsIn, mem_arcDecisionsIn]
  refine exists_congr fun arcId => exists_congr fun shape => ?_
  rw [h.shapes orders orders', h.isWithheld orders orders', h.resolveShape]
  have hfound := h.arc? arcId
  cases hleft : g.arc? arcId with
  | none =>
    rw [hleft, Option.map_none] at hfound
    rw [Option.map_eq_none_iff.mp hfound.symm]
  | some arc =>
    rw [hleft, Option.map_some] at hfound
    obtain ⟨arc', hright, hcanon⟩ := Option.map_eq_some_iff.mp hfound.symm
    have hexpand : d ∈ expandArc tools arc (g'.resolveShape arcId shape) frozenKeys ↔
        d ∈ expandArc tools arc' (g'.resolveShape arcId shape) frozenKeys := by
      rw [← mem_expandArc_canon, ← hcanon, mem_expandArc_canon]
    simp [hright, hexpand]

end

/-! ## The merge -/

/-- Of two decisions about one target that are as strong there is only one. -/
def Coherent (l : List ReductionDecision) : Prop :=
  ∀ d ∈ l, ∀ e ∈ l, d.targetId = e.targetId → rank d.kind = rank e.kind → d = e

/-- What the merge keeps depends on what there is, and not on its order. -/
theorem mem_dedupeAndSort_of_coherent {l : List ReductionDecision} (h : Coherent l)
    {d : ReductionDecision} :
    d ∈ dedupeAndSort l ↔ d ∈ l ∧ ∀ e ∈ l, e.targetId = d.targetId → rank e.kind ≤ rank d.kind := by
  constructor
  · intro hd
    refine ⟨mem_of_mem_dedupeAndSort hd, fun e he htarget => ?_⟩
    exact (foldl_stronger (mem_dedupeAndSort.mp hd)).2.1 e (mem_about.mpr ⟨he, htarget⟩)
  · rintro ⟨hd, hbest⟩
    obtain ⟨e, he, htarget⟩ := targets_dedupeAndSort.mpr ⟨d, hd, rfl⟩
    have hmem := mem_of_mem_dedupeAndSort he
    have hle := (foldl_stronger (mem_dedupeAndSort.mp he)).2.1 d (mem_about.mpr ⟨hd, htarget.symm⟩)
    rw [h d hd e hmem htarget.symm (Nat.le_antisymm hle (hbest e hmem htarget))]
    exact he

theorem dedupeAndSortIn_eq (orders : HashOrders) (l : List ReductionDecision) :
    dedupeAndSortIn orders l = dedupeAndSort l := by
  refine Permuted.insertionSort_perm ?_ (orders.decisions.perm _)
  have hkey : ∀ d ∈ (l.foldl keepBest .empty).entries.map Prod.snd,
      (l.foldl keepBest .empty).get d.targetId = some d := by
    intro d hd
    obtain ⟨⟨id, d'⟩, hentry, rfl⟩ := List.mem_map.mp hd
    rw [← get_eq_some] at hentry
    have hsource := hentry
    rw [get_foldl_keepBest, get_empty] at hsource
    rcases (foldl_stronger hsource).1 with hmem | hmem
    · rw [(mem_about.mp hmem).2]
      exact hentry
    · cases hmem
  intro a ha b hb hle hle'
  rw [Reordering.mem_order] at ha hb
  have hget := hkey a ha
  rw [le_antisymm hle hle', hkey b hb] at hget
  exact (Option.some.inj hget).symm

/-- **The merge of coherent decisions** depends on what there is. -/
theorem dedupeAndSort_congr {l l' : List ReductionDecision} (h : Coherent l)
    (hmem : ∀ d, d ∈ l ↔ d ∈ l') : dedupeAndSort l = dedupeAndSort l' := by
  have h' : Coherent l' := fun d hd e he => h d ((hmem d).mpr hd) e ((hmem e).mpr he)
  have hkept : ∀ d, d ∈ dedupeAndSort l ↔ d ∈ dedupeAndSort l' := by
    intro d
    rw [mem_dedupeAndSort_of_coherent h, mem_dedupeAndSort_of_coherent h', hmem]
    simp only [hmem]
  have hordered := ordered_dedupeAndSort l
  have hordered' := ordered_dedupeAndSort l'
  have hnodup : ∀ {l : List ReductionDecision},
      (l.Pairwise fun a b => a.targetId < b.targetId) → l.Nodup := fun hl =>
    hl.imp fun hlt heq => absurd (heq ▸ hlt) (lt_irrefl _)
  refine List.Perm.eq_of_pairwise (fun a b _ _ hlt hlt' => ?_) hordered hordered'
    ((List.perm_ext_iff_of_nodup (hnodup hordered) (hnodup hordered')).mpr hkept)
  exact absurd (lt_trans hlt hlt') (lt_irrefl _)

/-! ## The selection -/

/-- A call has one arc, and is in it once. -/
def CallsApart (arcs : List ToolArc) : Prop :=
  ∀ arc ∈ arcs, ∀ arc' ∈ arcs, ∀ call ∈ arc.callInputs, ∀ call' ∈ arc'.callInputs,
    call.1 = call'.1 → arc.arcId = arc'.arcId ∧ call = call'

section
variable {tools : SelectionTools} {frozenKeys : List String} {ctx : SelectionContext F}
  {cfg : SelectionConfig} {g g' : Gathered F} {orders orders' : HashOrders}

theorem eq_drop_of_mem_expandArc {arc : ToolArc} {shape : ArcShape} {d : ReductionDecision}
    (h : d ∈ expandArc tools arc shape frozenKeys) :
    d = dropDecision d.targetId ∨ rank d.kind < 3 ∧
      ∃ call ∈ arc.callInputs, d = callDecision tools shape call := by
  rw [expandArc, List.mem_append, List.mem_map, List.mem_map] at h
  rcases h with ⟨call, hcall, rfl⟩ | ⟨-, -, rfl⟩
  · have hmem := (List.mem_filter.mp hcall).1
    cases shape with
    | fullDrop => exact .inl rfl
    | dedupFullDrop => exact .inl rfl
    | skeleton =>
      exact .inr ⟨show rank RedKind.skeleton.asStr < 3 by decide, call, hmem, rfl⟩
    | editMarker =>
      exact .inr ⟨show rank RedKind.editMarker.asStr < 3 by decide, call, hmem, rfl⟩
  · exact .inl rfl

/-- **What is decided is coherent**, when calls are apart. -/
theorem coherent_decisions (hcalls : CallsApart g.arcs) (live : List String) :
    Coherent (g.arcDecisions orders tools frozenKeys ctx cfg ++
      selectAgentDrops ctx live frozenKeys) := by
  have hkind : ∀ d ∈ g.arcDecisions orders tools frozenKeys ctx cfg ++
      selectAgentDrops ctx live frozenKeys, d = dropDecision d.targetId ∨ rank d.kind < 3 ∧
        ∃ arcId shape arc, (g.shapes orders tools ctx cfg).get arcId = some shape ∧
          g.arc? arcId = some arc ∧ ∃ call ∈ arc.callInputs,
            d = callDecision tools (g.resolveShape arcId shape) call := by
    intro d hd
    rcases List.mem_append.mp hd with harc | hdrop
    · obtain ⟨arcId, shape, arc, hshape, hfound, -, hmem⟩ := mem_arcDecisionsIn.mp harc
      rcases eq_drop_of_mem_expandArc hmem with hdrop | ⟨hrank, call, hcall, heq⟩
      · exact .inl hdrop
      · exact .inr ⟨hrank, arcId, shape, arc, hshape, hfound, call, hcall, heq⟩
    · obtain ⟨id, -, rfl⟩ := List.mem_map.mp hdrop
      exact .inl rfl
  have hfind : ∀ {arcId arc}, g.arc? arcId = some arc → arc ∈ g.arcs ∧ arc.arcId = arcId := by
    intro arcId arc hfound
    have hid := List.find?_some hfound
    exact ⟨(List.mem_filter.mp (List.mem_of_find?_eq_some hfound)).1, eq_of_beq hid⟩
  intro d hd e he htarget hrank
  have hdrop : ∀ id, rank (dropDecision id).kind = 3 := fun _ => rfl
  rcases hkind d hd with hd' | ⟨hlt, arcId, shape, arc, hshape, hfound, call, hcall, rfl⟩
  · rcases hkind e he with he' | ⟨hlt, -⟩
    · rw [hd', he', htarget]
    · rw [hd', hdrop] at hrank
      omega
  · rcases hkind e he with he' | ⟨-, arcId', shape', arc', hshape', hfound', call', hcall', rfl⟩
    · rw [he', hdrop] at hrank
      omega
    · rw [targetId_callDecision, targetId_callDecision] at htarget
      obtain ⟨hmem, rfl⟩ := hfind hfound
      obtain ⟨hmem', rfl⟩ := hfind hfound'
      obtain ⟨hid, rfl⟩ := hcalls arc hmem arc' hmem' call hcall call' hcall' htarget
      rw [← hid, hshape] at hshape'
      rw [← hid, Option.some.inj hshape']

/-- **What is selected is the same**, whatever the orders, when what is gathered agrees. -/
theorem decisions_eq_of_alike (h : Alike ctx g g') (hcalls : CallsApart g.arcs) :
    g.decisions orders tools frozenKeys ctx cfg =
      g'.decisions orders' tools frozenKeys ctx cfg := by
  have hdrops : selectAgentDrops ctx g.liveIds frozenKeys =
      selectAgentDrops ctx g'.liveIds frozenKeys := by
    have hopen : agentDropIsOpen ctx g.liveIds frozenKeys =
        agentDropIsOpen ctx g'.liveIds frozenKeys := by
      funext id
      rw [agentDropIsOpen, agentDropIsOpen, contains_congr h.liveIds]
    have hadmitted : agentDropAdmitted ctx g.liveIds frozenKeys =
        agentDropAdmitted ctx g'.liveIds frozenKeys := by
      funext id
      rw [agentDropAdmitted, agentDropAdmitted, canRide, canRide, hopen]
    rw [selectAgentDrops, selectAgentDrops, hadmitted]
  have hineligible : ∀ id, g.notIneligible id = g'.notIneligible id := by
    intro id
    rw [Gathered.notIneligible, Gathered.notIneligible, h.arcByBlockId]
    simp only [contains_congr h.ineligible]
  rw [Gathered.decisions, Gathered.decisions, dedupeAndSortIn_eq, dedupeAndSortIn_eq]
  refine dedupeAndSort_congr ?_ fun d => ?_
  · intro d hd e he
    exact coherent_decisions hcalls g.liveIds d (List.mem_filter.mp (List.mem_filter.mp hd).1).1 e
      (List.mem_filter.mp (List.mem_filter.mp he).1).1
  · simp only [List.mem_filter, List.mem_append, hdrops, hineligible, h.arcDecisions orders orders']

end

end MagicContext.Selection
