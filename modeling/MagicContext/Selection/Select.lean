import MagicContext.Selection.Selectors

/-!
# The selection of reductions

The selectors' arcs get a shape each, in the order in which the selectors precede each other; the
arcs are expanded to decisions about their blocks, the drops an agent asked for are added, and what
may not be touched is taken out again.

## What is here

* `expandArc` and the payloads.
* `selectAgentDrops`, `dedupeAndSort`.
* `selectReductionsWithOutcome`, `selectReductions`.
-/

namespace MagicContext.Selection

variable {F : Type} [WholeDouble F]

/-! ## Payloads -/

inductive RedKind where
  | drop | skeleton | editMarker

def RedKind.asStr : RedKind → String
  | .drop => "drop"
  | .skeleton => "skeleton"
  | .editMarker => "edit_marker"

def diffKeys : List String := ["oldString", "newString", "content", "old_string", "new_string"]

def editRegionHintLen : Nat := 40

def truncationSentinel : String := "...[truncated]"

def recentToolSkeletonWindow : Nat := 20

def droppedPlaceholder : String := "[dropped]"

def inputClampBytes : Nat := 500

def skeletonArgLen : Nat := 5

/-- The longest prefix of a size. -/
def prefixWithin (size : Char → Nat) : Nat → List Char → List Char
  | _, [] => []
  | limit, c :: rest =>
    if size c ≤ limit then c :: prefixWithin size (limit - size c) rest else []

/-- `char::len_utf16`. -/
def lenUtf16 (c : Char) : Nat := if c.toNat < 0x10000 then 1 else 2

def utf16Len (text : String) : Nat := (text.toList.map lenUtf16).sum

def utf16Prefix (text : String) (limit : Nat) : String :=
  String.ofList (prefixWithin lenUtf16 limit text.toList)

def safePrefix (s : String) (maxLen : Nat) : String :=
  String.ofList (prefixWithin Char.utf8Size maxLen s.toList)

def regionHint (value : String) : String :=
  if value.endsWith truncationSentinel then value
  else if editRegionHintLen < utf16Len value then
    utf16Prefix value editRegionHintLen ++ truncationSentinel
  else value

mutual

/-- With the fields of objects in the order of their keys. -/
def canonicalJson (jsonText : Json → String) : Json → String
  | .object fields =>
    let sorted := (canonicalFields jsonText fields).insertionSort fun a b => a.1 ≤ b.1
    "\x7b" ++ ",".intercalate (sorted.map fun f => jsonText (.string f.1) ++ ":" ++ f.2) ++ "\x7d"
  | .array items => "[" ++ ",".intercalate (canonicalItems jsonText items) ++ "]"
  | other => jsonText other

def canonicalItems (jsonText : Json → String) : List Json → List String
  | [] => []
  | item :: items => canonicalJson jsonText item :: canonicalItems jsonText items

def canonicalFields (jsonText : Json → String) : List (String × Json) → List (String × String)
  | [] => []
  | (key, item) :: fields =>
    (key, canonicalJson jsonText item) :: canonicalFields jsonText fields

end

variable (tools : SelectionTools)

def editMarkerPayload (input : Json) : String :=
  match input.asObject with
  | none => droppedPlaceholder
  | some fields =>
    canonicalJson tools.jsonText (.object (fields.map fun field =>
      if filePathKeys.contains field.1 then field
      else if !diffKeys.contains field.1 then field
      else
        match field.2 with
        | .string s => (field.1, .string (regionHint s))
        | _ => field))

/-- A value of a large input. -/
def clampValue : Json → Json
  | .string s =>
    if skeletonArgLen < s.length then
      let byteLen := ((s.toList.take skeletonArgLen).map Char.utf8Size).sum
      .string (safePrefix s byteLen ++ truncationSentinel)
    else .string s
  | .array items => .string s!"[{items.length} items]"
  | .object _ => .string "[object]"
  | value => value

def skeletonPayload (input : Json) : String :=
  if (tools.jsonText input).utf8ByteSize ≤ inputClampBytes then canonicalJson tools.jsonText input
  else
    match input with
    | .object fields =>
      canonicalJson tools.jsonText (.object (fields.map fun field => (field.1, clampValue field.2)))
    | .array items => s!"[{items.length} items]"
    | _ => canonicalJson tools.jsonText input

/-! ## Expansion -/

inductive ArcShape where
  | skeleton | fullDrop | dedupFullDrop | editMarker

def dropDecision (targetId : String) : ReductionDecision :=
  { targetId, kind := RedKind.drop.asStr, payload := droppedPlaceholder }

def callDecision (shape : ArcShape) (call : String × Json) : ReductionDecision :=
  match shape with
  | .skeleton =>
    { targetId := call.1, kind := RedKind.skeleton.asStr, payload := skeletonPayload tools call.2 }
  | .fullDrop | .dedupFullDrop => dropDecision call.1
  | .editMarker =>
    { targetId := call.1, kind := RedKind.editMarker.asStr,
      payload := editMarkerPayload tools call.2 }

def expandArc (arc : ToolArc) (shape : ArcShape) (frozen : List String) : List ReductionDecision :=
  ((arc.callInputs.filter fun call => !frozen.contains call.1).map (callDecision tools shape)) ++
    (arc.resultIds.filter fun id => !frozen.contains id).map dropDecision

/-! ## Agent drops -/

variable (ctx : SelectionContext F)

/-- The pass is sure to break the cache without the drops. -/
def naturalBust : Bool :=
  ctx.passAlreadyBusting ||
    (ctx.passClass == .execute && decide (0 < ctx.ceilingTokens) &&
      decide (ctx.ceilingTokens ≤ ctx.currentTotalInputTokens))

/-- A drop may be tried at all. -/
def agentDropIsOpen (liveIds frozen : List String) (id : String) : Bool :=
  !(frozen.contains id || !liveIds.contains id || ctx.blockIsProtected id)

/-- A drop whose command was applied before waits for something else to break the cache. -/
def canRide (liveIds frozen : List String) (id : String) : Bool :=
  naturalBust ctx ||
    (ctx.firstAppliedAgentDropIds.contains id &&
      ctx.agentDropIds.any fun other =>
        other != id && !ctx.firstAppliedAgentDropIds.contains other &&
          agentDropIsOpen ctx liveIds frozen other &&
          ctx.agentDropCommandIds.get other != ctx.agentDropCommandIds.get id)

/-- `select_agent_drops` takes the id. -/
def agentDropAdmitted (liveIds frozen : List String) (id : String) : Bool :=
  agentDropIsOpen ctx liveIds frozen id &&
    !(ctx.firstAppliedAgentDropIds.contains id && !canRide ctx liveIds frozen id)

def selectAgentDrops (liveIds frozen : List String) : List ReductionDecision :=
  (ctx.agentDropIds.filter (agentDropAdmitted ctx liveIds frozen)).map dropDecision

/-! ## The merge -/

def rank (kind : String) : Nat :=
  if kind = "drop" then 3 else if kind = "edit_marker" then 2
  else if kind = "skeleton" then 1 else 0

/-- Keeps the decision where it is stronger than the one about its target. -/
def keepBest (best : SortedMap String ReductionDecision) (d : ReductionDecision) :
    SortedMap String ReductionDecision :=
  match best.get d.targetId with
  | some existing =>
    if rank d.kind ≤ rank existing.kind then best else best.insert d.targetId d
  | none => best.insert d.targetId d

/-- One decision for each target, the strongest, in the order of the targets. -/
def dedupeAndSort (decisions : List ReductionDecision) : List ReductionDecision :=
  ((decisions.foldl keepBest .empty).entries.map Prod.snd).insertionSort
    fun a b => a.targetId ≤ b.targetId

/-! ## The selection -/

/-- The order in which a hash map is gone through. -/
structure HashOrder where
  order : List (String × ArcShape) → List (String × ArcShape)
  perm : ∀ l, (order l).Perm l

structure SelectionOutcome where
  decisions : List ReductionDecision := []
  twoPassBatchCanApply : Bool := false
  eligibleSupersessionCount : Option Nat := none
  supersessionWithheldByTagWindowCount : Option Nat := none
  supersessionWithheldByExemptMessageCount : Option Nat := none
  appliedSupersessionCount : Option Nat := none

/-- Pass-through carriers and reasoning are no targets. -/
def SelItem.isCarrier (item : SelItem) : Bool :=
  match item.kind with
  | .media | .opaqueBlock | .reasoning | .redactedReasoning => true
  | _ => false

def liveIds (items : List SelItem) : List String :=
  (items.filter fun item => !item.isCarrier).map SelItem.id

def activeArcs (items : List SelItem) (frozenKeys : List String) : List ToolArc :=
  (groupArcs tools items frozenKeys).filter fun arc =>
    !arc.reduced && !arc.providerExecuted && !(reasoningIneligibleArcIds items).contains arc.arcId

section
variable (tools : SelectionTools) (items : List SelItem) (frozenKeys : List String)
  (ctx : SelectionContext F) (cfg : SelectionConfig)

def dedupArcIds : List String := selectToolDedup tools (activeArcs tools items frozenKeys) ctx

/-- An older duplicate does not enter the batch by age. -/
def twoPassArcIds : List String :=
  selectTwoPass ((activeArcs tools items frozenKeys).filter fun arc =>
    !(dedupArcIds tools items frozenKeys ctx).contains arc.arcId) ctx

def emergencyArcIds : List String :=
  match ctx.passClass with
  | .emergencyForce =>
    selectEmergency tools (activeArcs tools items frozenKeys) ctx
      (activeFloorTokens items frozenKeys)
  | _ => []

/-- Gives the arcs without one a shape. -/
def assign (shape : ArcShape) (arcIds : List String) (shapes : SortedMap String ArcShape) :
    SortedMap String ArcShape :=
  arcIds.foldl (fun shapes arcId =>
    match shapes.get arcId with
    | some _ => shapes
    | none => shapes.insert arcId shape) shapes

/-- What supersession picked, when it ran. -/
def supersessionIntents : Option (SortedMap String ArcIntent) :=
  let twoPass := twoPassArcIds tools items frozenKeys ctx
  let runs :=
    match ctx.passClass with
    | .emergencyForce => !(emergencyArcIds tools items frozenKeys ctx).isEmpty || !twoPass.isEmpty
    | .execute => ctx.supersessionRideAvailable || !twoPass.isEmpty
    | .defer => false
  if cfg.smartDrops && runs then some (selectSupersession (activeArcs tools items frozenKeys))
  else none

def assignIntents (intents : SortedMap String ArcIntent) (shapes : SortedMap String ArcShape) :
    SortedMap String ArcShape :=
  intents.entries.foldl (fun shapes entry =>
    assign (if entry.2.editMarker then .editMarker else .fullDrop) [entry.1] shapes) shapes

/-- The shapes of the chosen arcs: duplicates first, then age, then the emergency, then what is
superseded. -/
def arcShapes : SortedMap String ArcShape :=
  let dedup := dedupArcIds tools items frozenKeys ctx
  let twoPass := twoPassArcIds tools items frozenKeys ctx
  let emergency := emergencyArcIds tools items frozenKeys ctx
  let intents := (supersessionIntents tools items frozenKeys ctx cfg).getD .empty
  match ctx.passClass with
  | .emergencyForce =>
    let dedup := if !emergency.isEmpty || !twoPass.isEmpty then dedup else []
    assignIntents intents (assign .fullDrop emergency (assign .fullDrop twoPass
      (assign .dedupFullDrop dedup .empty)))
  | .execute =>
    assignIntents intents (assign .fullDrop twoPass (assign .dedupFullDrop dedup .empty))
  | .defer => .empty

/-- The superseded arcs that have a block among the protected ones are retained whole. -/
def protectedSupersessionArcs (protectedBlockIds : List String) : Option (List String) :=
  (supersessionIntents tools items frozenKeys ctx cfg).map fun eligible =>
    eligible.keys.filter fun arcId =>
      ((activeArcs tools items frozenKeys).find? fun arc => arc.arcId == arcId).any fun arc =>
        arc.callInputs.any (fun call => protectedBlockIds.contains call.1) ||
          arc.resultIds.any fun id => protectedBlockIds.contains id

/-- The arc is retained whole. -/
def isWithheld (arcId : String) : Bool :=
  (protectedSupersessionArcs tools items frozenKeys ctx cfg
      ctx.tagWindowProtectedBlockIds).any (fun ids => ids.contains arcId) ||
    (protectedSupersessionArcs tools items frozenKeys ctx cfg
      ctx.exemptMessageProtectedBlockIds).any fun ids => ids.contains arcId

/-- The arcs whose calls keep their names. -/
def skeletonWindow : List String :=
  (((activeArcs tools items frozenKeys).insertionSort ToolArc.Newer).take
    recentToolSkeletonWindow).map ToolArc.arcId

/-- A drop is made a skeleton where the call or the result is needed. -/
def resolveShape (arcId : String) (shape : ArcShape) : ArcShape :=
  let collapses := (reasoningAdjacencyCollapseArcIds items).contains arcId
  match shape with
  | .editMarker => .editMarker
  | .skeleton => .skeleton
  | .fullDrop =>
    if collapses || (skeletonWindow tools items frozenKeys).contains arcId then .skeleton
    else .fullDrop
  | .dedupFullDrop => if collapses then .skeleton else .dedupFullDrop

/-- The decisions about the chosen arcs. -/
def arcDecisions (hashOrder : HashOrder) : List ReductionDecision :=
  (hashOrder.order (arcShapes tools items frozenKeys ctx cfg).entries).flatMap fun entry =>
    match (activeArcs tools items frozenKeys).find? fun arc => arc.arcId == entry.1 with
    | none => []
    | some arc =>
      if isWithheld tools items frozenKeys ctx cfg entry.1 then []
      else expandArc tools arc (resolveShape tools items frozenKeys entry.1 entry.2) frozenKeys

/-- No block of an arc without which only reasoning is left. -/
def notIneligible (targetId : String) : Bool :=
  ((arcByBlockId items).get targetId).all fun arcId =>
    !(reasoningIneligibleArcIds items).contains arcId

def selectReductionsWithOutcome (hashOrder : HashOrder) : SelectionOutcome :=
  match ctx.passClass with
  | .defer => {}
  | _ =>
    let out := arcDecisions tools items frozenKeys ctx cfg hashOrder ++
      selectAgentDrops ctx (liveIds items) frozenKeys
    let out := out.filter fun decision => notIneligible items decision.targetId
    let out := out.filter fun decision => !ctx.blockIsProtected decision.targetId
    let decisions := dedupeAndSort out
    let eligible := (supersessionIntents tools items frozenKeys ctx cfg).map SortedMap.keys
    let applied := eligible.map fun eligible =>
      ((decisions.filterMap fun decision =>
        (arcByBlockId items).get decision.targetId).filter fun arcId =>
          eligible.contains arcId).dedup
    let withheldCount := fun withheld : Option (List String) =>
      withheld.bind fun withheld =>
        applied.map fun applied => (withheld.filter fun arcId => !applied.contains arcId).length
    { decisions
      twoPassBatchCanApply := twoPassBatchCanApply ctx
      eligibleSupersessionCount := eligible.map List.length
      supersessionWithheldByTagWindowCount := withheldCount
        (protectedSupersessionArcs tools items frozenKeys ctx cfg ctx.tagWindowProtectedBlockIds)
      supersessionWithheldByExemptMessageCount := withheldCount
        (protectedSupersessionArcs tools items frozenKeys ctx cfg
          ctx.exemptMessageProtectedBlockIds)
      appliedSupersessionCount := applied.map List.length }

def selectReductions (hashOrder : HashOrder) : List ReductionDecision :=
  (selectReductionsWithOutcome tools items frozenKeys ctx cfg hashOrder).decisions

end

end MagicContext.Selection
