import MagicContext.Lib.Permuted
import MagicContext.Selection.Atomicity

/-!
# The orders of the hash maps

The selection goes through many hash maps and sets, each in an order of its own.  First it gathers
from the items what it needs of them, then it selects from that.

## What is here

* `HashOrders` — an order for every map and set that is gone through.
* `Gathered`, `gather` — what is gathered.
* `Gathered.decisions` — what is selected from it.
* `selectReductionsIn`, with `selectReductionsIn_ofShapes` — the selection as it was.
-/

namespace MagicContext.Selection

open Historian (u64Max)
open Permuted (Reordering)

variable {F : Type} [WholeDouble F]

/-- The orders in which the maps and sets of a pass are gone through. -/
structure HashOrders where
  arcs : Reordering ToolArc
  messages : Reordering AdjacencyMessageShape
  removableArcs : Reordering (String × List Nat)
  reasoningMessages : Reordering ReasoningMessageShape
  messageArcs : Reordering String
  duplicates : Reordering (String × List ToolArc)
  arcBytes : Reordering Nat
  dedupArcs : Reordering String
  twoPassArcs : Reordering String
  emergencyArcs : Reordering String
  intents : Reordering (String × ArcIntent)
  eligibleArcs : Reordering String
  shapes : Reordering (String × ArcShape)
  decisions : Reordering ReductionDecision

/-- Every map by its keys, and every set as it was made. -/
def HashOrders.byKeys : HashOrders where
  arcs := .asGiven
  messages := .asGiven
  removableArcs := .asGiven
  reasoningMessages := .asGiven
  messageArcs := .asGiven
  duplicates := .asGiven
  arcBytes := .asGiven
  dedupArcs := .asGiven
  twoPassArcs := .asGiven
  emergencyArcs := .asGiven
  intents := .asGiven
  eligibleArcs := .asGiven
  shapes := .asGiven
  decisions := .asGiven

/-- Only the shapes in an order of their own. -/
def HashOrders.ofShapes (hashOrder : HashOrder) : HashOrders :=
  { HashOrders.byKeys with shapes := ⟨hashOrder.order, hashOrder.perm⟩ }

/-! ## What is gathered -/

/-- What a pass gathers from the items before it selects. -/
structure Gathered (F : Type) where
  arcs : List ToolArc
  ineligible : List String
  collapses : List String
  liveIds : List String
  floorTokens : F
  arcByBlockId : SortedMap String String

section
variable (orders : HashOrders) (tools : SelectionTools) (items : List SelItem)
  (frozenKeys : List String)

/-- `group_arcs`. -/
def groupArcsIn : List ToolArc :=
  let arcs := groupBy SelItem.arcId (fun arcId _ => { arcId }) (ToolArc.absorb tools frozenKeys)
    items
  (orders.arcs.order (arcs.entries.map Prod.snd)).insertionSort ToolArc.Older

def adjacencyMessagesIn : List AdjacencyMessageShape :=
  let messages := groupBy itemMessageId
    (fun mid item => { mid, ordinal := item.ordinal, role := item.messageRole })
    AdjacencyMessageShape.absorb items
  (orders.messages.order (messages.entries.map Prod.snd)).insertionSort AdjacencyMessageShape.Before

/-- The arcs among the removable ones that a hazardous run belongs to. -/
def collapseArcIds (messages : List AdjacencyMessageShape) : List String :=
  ((orders.removableArcs.order (removableByArc messages).entries).filter fun entry =>
    (consecutiveRuns entry.2).any (hazardousRun messages)).map Prod.fst

/-- `reasoning_ineligible_arc_ids`. -/
def reasoningIneligibleArcIdsIn : List String :=
  let messages := groupBy itemMessageId (fun _ _ => {}) ReasoningMessageShape.absorb items
  ((orders.reasoningMessages.order (messages.entries.map Prod.snd)).filter fun message =>
    message.hasReasoning && !message.hasDurableNonToolSibling).flatMap fun message =>
      orders.messageArcs.order message.toolArcIds

/-- The items that the fixed floor counts. -/
def countedItems : List SelItem :=
  items.filter fun item =>
    !frozenKeys.contains item.id && item.messageRole != .system && item.kind != .opaqueBlock

/-- `tool_tag_bytes`. -/
def toolTagBytes (counted : List SelItem) : SortedMap String Nat :=
  groupBy SelItem.arcId (fun _ _ => 0) (fun bytes item => min (bytes + item.byteSize) u64Max)
    counted

/-- The sum of the tokens of some sizes, from a start. -/
def sumTokens (start : F) (sizes : List Nat) : F :=
  sizes.foldl (fun tokens bytes => tokens + bytesToTokens bytes) start

/-- `active_floor_tokens`. -/
def activeFloorTokensIn : F :=
  let counted := countedItems items frozenKeys
  sumTokens 0 ((counted.filter fun item => item.arcId.isNone).map SelItem.byteSize) +
    sumTokens 0 (orders.arcBytes.order ((toolTagBytes counted).entries.map Prod.snd))

def gather : Gathered F where
  arcs := groupArcsIn orders tools items frozenKeys
  ineligible := reasoningIneligibleArcIdsIn orders items
  collapses := collapseArcIds orders (adjacencyMessagesIn orders items)
  liveIds := liveIds items
  floorTokens := activeFloorTokensIn orders items frozenKeys
  arcByBlockId := arcByBlockId items

end

/-! ## What is selected -/

/-- The active arcs that agree on their fingerprint. -/
def duplicateGroups (tools : SelectionTools) (arcs : List ToolArc) (ctx : SelectionContext F) :
    SortedMap String (List ToolArc) :=
  groupBy (dedupFingerprint tools ctx) (fun _ _ => []) (fun group arc => group ++ [arc]) arcs

/-- `select_tool_dedup`. -/
def selectToolDedupIn (orders : HashOrders) (tools : SelectionTools) (arcs : List ToolArc)
    (ctx : SelectionContext F) : List String :=
  (orders.duplicates.order (duplicateGroups tools arcs ctx).entries).flatMap fun entry =>
    if entry.2.length ≤ 1 then []
    else (entry.2.insertionSort ToolArc.ResultBefore).dropLast.map ToolArc.arcId

/-- `dedupe_and_sort`. -/
def dedupeAndSortIn (orders : HashOrders) (decisions : List ReductionDecision) :
    List ReductionDecision :=
  (orders.decisions.order ((decisions.foldl keepBest .empty).entries.map
    Prod.snd)).insertionSort fun a b => a.targetId ≤ b.targetId

def assignIntentsIn (orders : HashOrders) (intents : SortedMap String ArcIntent)
    (shapes : SortedMap String ArcShape) : SortedMap String ArcShape :=
  (orders.intents.order intents.entries).foldl (fun shapes entry =>
    assign (if entry.2.editMarker then .editMarker else .fullDrop) [entry.1] shapes) shapes

namespace Gathered

variable (g : Gathered F) (orders : HashOrders) (tools : SelectionTools) (frozenKeys : List String)
  (ctx : SelectionContext F) (cfg : SelectionConfig)

def active : List ToolArc :=
  g.arcs.filter fun arc =>
    !arc.reduced && !arc.providerExecuted && !g.ineligible.contains arc.arcId

def dedupArcs : List String := selectToolDedupIn orders tools g.active ctx

def twoPassArcs : List String :=
  selectTwoPass (g.active.filter fun arc => !(g.dedupArcs orders tools ctx).contains arc.arcId) ctx

def emergencyArcs : List String :=
  match ctx.passClass with
  | .emergencyForce => selectEmergency tools g.active ctx g.floorTokens
  | _ => []

def intents : Option (SortedMap String ArcIntent) :=
  let twoPass := g.twoPassArcs orders tools ctx
  let runs :=
    match ctx.passClass with
    | .emergencyForce => !(g.emergencyArcs tools ctx).isEmpty || !twoPass.isEmpty
    | .execute => ctx.supersessionRideAvailable || !twoPass.isEmpty
    | .defer => false
  if cfg.smartDrops && runs then some (selectSupersession g.active) else none

def shapes : SortedMap String ArcShape :=
  let dedup := g.dedupArcs orders tools ctx
  let twoPass := g.twoPassArcs orders tools ctx
  let emergency := g.emergencyArcs tools ctx
  let intents := (g.intents orders tools ctx cfg).getD .empty
  match ctx.passClass with
  | .emergencyForce =>
    let dedup := if !emergency.isEmpty || !twoPass.isEmpty then dedup else []
    assignIntentsIn orders intents
      (assign .fullDrop (orders.emergencyArcs.order emergency)
        (assign .fullDrop (orders.twoPassArcs.order twoPass)
          (assign .dedupFullDrop (orders.dedupArcs.order dedup) .empty)))
  | .execute =>
    assignIntentsIn orders intents
      (assign .fullDrop (orders.twoPassArcs.order twoPass)
        (assign .dedupFullDrop (orders.dedupArcs.order dedup) .empty))
  | .defer => .empty

/-- `arc_by_id`. -/
def arc? (arcId : String) : Option ToolArc := g.active.find? fun arc => arc.arcId == arcId

def protectedSupersessionArcs (protectedBlockIds : List String) : Option (List String) :=
  (g.intents orders tools ctx cfg).map fun eligible =>
    (orders.eligibleArcs.order eligible.keys).filter fun arcId =>
      (g.arc? arcId).any fun arc =>
        arc.callInputs.any (fun call => protectedBlockIds.contains call.1) ||
          arc.resultIds.any fun id => protectedBlockIds.contains id

def isWithheld (arcId : String) : Bool :=
  (g.protectedSupersessionArcs orders tools ctx cfg ctx.tagWindowProtectedBlockIds).any
      (fun ids => ids.contains arcId) ||
    (g.protectedSupersessionArcs orders tools ctx cfg ctx.exemptMessageProtectedBlockIds).any
      fun ids => ids.contains arcId

def skeletonWindow : List String :=
  ((g.active.insertionSort ToolArc.Newer).take recentToolSkeletonWindow).map ToolArc.arcId

def resolveShape (arcId : String) (shape : ArcShape) : ArcShape :=
  let collapses := g.collapses.contains arcId
  match shape with
  | .editMarker => .editMarker
  | .skeleton => .skeleton
  | .fullDrop => if collapses || g.skeletonWindow.contains arcId then .skeleton else .fullDrop
  | .dedupFullDrop => if collapses then .skeleton else .dedupFullDrop

def arcDecisions : List ReductionDecision :=
  (orders.shapes.order (g.shapes orders tools ctx cfg).entries).flatMap fun entry =>
    match g.arc? entry.1 with
    | none => []
    | some arc =>
      if g.isWithheld orders tools ctx cfg entry.1 then []
      else expandArc tools arc (g.resolveShape entry.1 entry.2) frozenKeys

def notIneligible (targetId : String) : Bool :=
  (g.arcByBlockId.get targetId).all fun arcId => !g.ineligible.contains arcId

def decisions : List ReductionDecision :=
  let out := g.arcDecisions orders tools frozenKeys ctx cfg ++
    selectAgentDrops ctx g.liveIds frozenKeys
  let out := out.filter fun decision => g.notIneligible decision.targetId
  let out := out.filter fun decision => !ctx.blockIsProtected decision.targetId
  dedupeAndSortIn orders out

end Gathered

/-- **The selection, in given orders of its maps and sets.** -/
def selectReductionsIn (orders : HashOrders) (tools : SelectionTools) (items : List SelItem)
    (frozenKeys : List String) (ctx : SelectionContext F) (cfg : SelectionConfig) :
    List ReductionDecision :=
  match ctx.passClass with
  | .defer => []
  | _ => (gather orders tools items frozenKeys).decisions orders tools frozenKeys ctx cfg

/-! ## The selection as it was -/

section
variable (hashOrder : HashOrder) (tools : SelectionTools) (items : List SelItem)
  (frozenKeys : List String) (ctx : SelectionContext F) (cfg : SelectionConfig)

omit [WholeDouble F] in
theorem selectToolDedupIn_ofShapes (arcs : List ToolArc) :
    selectToolDedupIn (.ofShapes hashOrder) tools arcs ctx = selectToolDedup tools arcs ctx := by
  rw [selectToolDedupIn, selectToolDedup, duplicateGroups, groupBy]
  refine congrArg (fun groups => List.flatMap _ (SortedMap.entries groups)) ?_
  refine congrArg (fun step => arcs.foldl step SortedMap.empty) ?_
  funext groups arc
  cases dedupFingerprint tools ctx arc <;> rfl

theorem activeFloorTokensIn_ofShapes :
    (activeFloorTokensIn (.ofShapes hashOrder) items frozenKeys : F) =
      activeFloorTokens items frozenKeys := by
  rw [activeFloorTokensIn, sumTokens, List.foldl_map, sumTokens, activeFloorTokens]
  simp only [HashOrders.ofShapes, HashOrders.byKeys, Reordering.asGiven, id, List.foldl_map]
  rfl

/-- What is gathered when only the shapes have an order of their own. -/
def gathered : Gathered F where
  arcs := groupArcs tools items frozenKeys
  ineligible := reasoningIneligibleArcIds items
  collapses := reasoningAdjacencyCollapseArcIds items
  liveIds := liveIds items
  floorTokens := activeFloorTokens items frozenKeys
  arcByBlockId := arcByBlockId items

theorem gather_ofShapes :
    (gather (.ofShapes hashOrder) tools items frozenKeys : Gathered F) =
      gathered tools items frozenKeys := by
  rw [gather, activeFloorTokensIn_ofShapes]
  rfl

/-- **The selection with only the shapes in an order of their own** is the one of before. -/
theorem selectReductionsIn_ofShapes :
    selectReductionsIn (.ofShapes hashOrder) tools items frozenKeys ctx cfg =
      selectReductions tools items frozenKeys ctx cfg hashOrder := by
  have hdedup : (gathered tools items frozenKeys : Gathered F).dedupArcs (.ofShapes hashOrder)
      tools ctx = dedupArcIds tools items frozenKeys ctx :=
    selectToolDedupIn_ofShapes hashOrder tools ctx _
  have htwoPass : (gathered tools items frozenKeys : Gathered F).twoPassArcs (.ofShapes hashOrder)
      tools ctx = twoPassArcIds tools items frozenKeys ctx := by
    rw [Gathered.twoPassArcs, hdedup]
    rfl
  have hintents : (gathered tools items frozenKeys : Gathered F).intents (.ofShapes hashOrder)
      tools ctx cfg = supersessionIntents tools items frozenKeys ctx cfg := by
    rw [Gathered.intents, htwoPass]
    rfl
  have hshapes : (gathered tools items frozenKeys : Gathered F).shapes (.ofShapes hashOrder)
      tools ctx cfg = arcShapes tools items frozenKeys ctx cfg := by
    rw [Gathered.shapes, hdedup, htwoPass, hintents]
    rfl
  have hwithheld : (gathered tools items frozenKeys : Gathered F).isWithheld (.ofShapes hashOrder)
      tools ctx cfg = isWithheld tools items frozenKeys ctx cfg := by
    funext arcId
    rw [Gathered.isWithheld, Gathered.protectedSupersessionArcs,
      Gathered.protectedSupersessionArcs, hintents]
    rfl
  have harcs : (gathered tools items frozenKeys : Gathered F).arcDecisions (.ofShapes hashOrder)
      tools frozenKeys ctx cfg = arcDecisions tools items frozenKeys ctx cfg hashOrder := by
    rw [Gathered.arcDecisions, hshapes, hwithheld]
    rfl
  rw [selectReductionsIn, gather_ofShapes]
  by_cases hpass : ctx.passClass = .defer
  · rw [selectReductions_defer hpass, hpass]
  · rw [selectReductions_eq hpass, Gathered.decisions, harcs]
    cases hclass : ctx.passClass with
    | defer => exact absurd hclass hpass
    | _ => rfl

end

end MagicContext.Selection
