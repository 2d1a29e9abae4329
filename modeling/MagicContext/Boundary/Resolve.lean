import MagicContext.Boundary.Arcs
import MagicContext.Boundary.ChunkText

/-!
# The protected tail

The newest messages are protected from compaction; what lies between the last compartment and the
protected tail is the eligible head, of which one run takes as much as its cap allows.  The
boundary between them is found by size and then moved: off huge messages, out of tool arcs, back to
a message that opens a turn, up to the floors, and out of tool arcs again.

## What is here

* `BoundaryContext`, `BoundaryResolution`.
* `deriveTriggerBudget`, `deriveProtectedTailTokenTarget`, `selectPerRunCap` — the sizes.
* `semanticSnapBoundary`, `applyHeadCap`, `protectedTailStart`.
* `resolveProtectedTailBoundary`.
-/

namespace MagicContext.Boundary

open Double (maximum minimum floor round isFinite clamp)

variable {F : Type} [Double F]

/-! ## Contexts and resolutions -/

structure BoundaryContext (F : Type) where
  contextLimit : F
  executeThresholdPercentage : F
  usagePercentage : F
  usageInputTokens : F
  /-- Absent before the first compartment. -/
  lastCompartmentEndOrdinal : Option Nat
  priorBoundaryOrdinal : Nat
  migrationFloorActive : Bool
  emergencyTailScale : Option F
  triggerBudget : Option F
  foldIsOnlyReclaim : Bool

/-- `BoundaryContext::default`. -/
def BoundaryContext.default : BoundaryContext F where
  contextLimit := 128000
  executeThresholdPercentage := 65
  usagePercentage := 0
  usageInputTokens := 0
  lastCompartmentEndOrdinal := none
  priorBoundaryOrdinal := 1
  migrationFloorActive := false
  emergencyTailScale := none
  triggerBudget := none
  foldIsOnlyReclaim := false

structure ProtectedTailTokenTarget (F : Type) where
  usable : F
  rawN : F
  floorN : F
  ceilingN : F
  effectiveFloor : F
  n : F
  headroom : F
  triggerBudget : F
  reserve : F

inductive BoundaryReason (F : Type) where
  | emptySession (usageInputTokens : F)
  | wholeSessionSmallerThanTail | sizeWalk | hugeMessageException | semanticSnap

structure BoundaryResolution (F : Type) where
  protectedStartOrdinal : Nat
  /-- The first ordinal of the eligible head, and one past its last. -/
  eligibleHead : Nat × Nat
  nTokens : F
  flooredByLivePrompt : Bool
  fencedByOpenArc : Bool
  trueRawEligibleTokens : F
  oversizeAtomicUnit : Bool
  rawMessageCount : Nat
  boundaryReason : BoundaryReason F

/-- `compartment_offset`. -/
def compartmentOffset (lastCompartmentEndOrdinal : Option Nat) (messages : List BoundaryMsg) :
    Option Nat :=
  (lastCompartmentEndOrdinal.map Historian.saturatingSucc) <|>
    (messages.map (·.messageOrdinal)).min?

/-- Where the live part of the session starts. -/
def offsetOf (messages : List BoundaryMsg) (ctx : BoundaryContext F) : Nat :=
  (compartmentOffset ctx.lastCompartmentEndOrdinal messages).getD 1

/-! ## Sizes -/

/-- `derive_trigger_budget`. -/
def deriveTriggerBudget (contextLimit executeThresholdPercentage : F) : F :=
  if !isFinite contextLimit || decide (contextLimit ≤ 0) then 5000
  else
    let thresholdFraction := maximum executeThresholdPercentage 0 / 100
    let usable := contextLimit * thresholdFraction
    clamp (round (usable * 0.05)) 5000 50000

def clampPercentage (value : F) : F := if !isFinite value then 0 else clamp value 0 100

/-- `derive_protected_tail_token_target`. -/
def deriveProtectedTailTokenTarget (ctx : BoundaryContext F) : ProtectedTailTokenTarget F :=
  let safeContextLimit :=
    if isFinite ctx.contextLimit && decide (0 < ctx.contextLimit) then ctx.contextLimit
    else 128000
  let safeThreshold :=
    if isFinite ctx.executeThresholdPercentage then maximum ctx.executeThresholdPercentage 0
    else 65
  let usable := maximum (round ((safeContextLimit * safeThreshold) / 100)) 1
  let usage := clampPercentage ctx.usagePercentage
  let triggerBudget := ctx.triggerBudget.getD (deriveTriggerBudget safeContextLimit safeThreshold)
  let reserve := maximum 1000 (round (usable * 0.02))
  let rawN := round (usable * 0.3 * (1 - usage / 100))
  let floorN := minimum 12000 (maximum 2000 (round (usable * 0.08)))
  let headroom := minimum (triggerBudget + reserve) (floor (usable * 0.5))
  let ceilingN := maximum 1
    (minimum (minimum 96000 (floor (usable * 0.4))) (usable - headroom))
  let effectiveFloor := minimum floorN ceilingN
  { usable, rawN, floorN, ceilingN, effectiveFloor
    n := minimum ceilingN (maximum effectiveFloor rawN)
    headroom, triggerBudget, reserve }

def nonEmergencyPerRunCap (usable n : F) : F :=
  minimum 250000 (maximum (2 * n) (minimum (round (0.25 * usable)) 100000))

def force80PerRunCap (usable n : F) : F :=
  minimum 500000 (maximum (3 * n) (minimum (round (0.35 * usable)) 150000))

def force95PerRunCap (usable n : F) : F :=
  minimum 750000 (maximum (4 * n) (minimum (round (0.5 * usable)) 250000))

/-- `select_per_run_cap`. -/
def selectPerRunCap (usagePercentage n contextLimit executeThresholdPercentage : F) : F :=
  let usable := maximum (round ((contextLimit * executeThresholdPercentage) / 100)) 1
  if 95 ≤ usagePercentage then force95PerRunCap usable n
  else if 80 ≤ usagePercentage then force80PerRunCap usable n
  else nonEmergencyPerRunCap usable n

/-- The force band of `escalation_bands`. -/
def forceMaterializePercentage (effectiveThresholdPercentage : F) : F :=
  let threshold :=
    if isFinite effectiveThresholdPercentage then minimum effectiveThresholdPercentage 90 else 65
  maximum 85 (threshold + 2)

/-- The tokens the tail is to hold. -/
def scaledTarget (ctx : BoundaryContext F) : F :=
  let target := deriveProtectedTailTokenTarget ctx
  match ctx.emergencyTailScale with
  | some scale => maximum (floor (target.n * scale)) 1
  | none => target.n

/-! ## Moving the boundary -/

variable (tools : TextTools)

/-- `has_meaningful_user_text`. -/
def hasMeaningfulUserText (blocks : List BoundaryBlock) : Bool :=
  blocks.any fun block =>
    if block.ignored || block.kind != .text then false
    else
      let trimmed := cleanUserText tools block.original
      trimmed != "" && !isSystemDirective trimmed

def isSemanticBoundaryCandidate (message : BoundaryMsg) : Bool :=
  (message.role == .user && hasMeaningfulUserText tools message.blocks) ||
    message.blocks.any fun block =>
      match block.kind with
      | .toolCall .. | .toolResult .. => true
      | _ => false

/-- `semantic_snap_boundary`. -/
def semanticSnapBoundary (messages : List BoundaryMsg) (index : TokenIndex F)
    (candidate : Nat) (scaledN : F) (publicationFloorOrdinal : Nat) : Nat :=
  let ordered := inOrder messages
  let snapped := (ordered.takeWhile fun message => message.messageOrdinal ≤ candidate).foldl
    (fun snapped message =>
      if message.messageOrdinal < publicationFloorOrdinal then snapped
      else if isSemanticBoundaryCandidate tools message then message.messageOrdinal
      else snapped) candidate
  if snapped = candidate then candidate
  else
    let extraTokens :=
      index.suffixTokensFromOrdinal snapped - index.suffixTokensFromOrdinal candidate
    if minimum (round (1.5 * scaledN)) 48000 < extraTokens then candidate
    else if ordered.any fun message =>
        message.messageOrdinal == snapped && message.role == .user &&
          decide (maximum (2 * scaledN) 64000 < index.tokenForOrdinal snapped) then
      candidate
    else snapped

structure HeadCapResult where
  eligibleEndOrdinal : Nat
  oversizeAtomicUnit : Bool
  fencedByOpenArc : Bool

/-- The recent calls without a result pull the end back. -/
def pullBackToOpenArcs (arcs : List ToolArc) (offset recentOpenArcCutoff : Nat)
    (start : Nat × Bool) : Nat × Bool :=
  arcs.foldl (fun (acc : Nat × Bool) arc =>
    if arc.resOrdinal.isNone && decide (recentOpenArcCutoff ≤ arc.invOrdinal) &&
        decide (offset ≤ arc.invOrdinal) && decide (arc.invOrdinal < acc.1) then
      (min acc.1 arc.invOrdinal, true)
    else acc) start

/-- The capped end after the fences, and whether an open arc pulled it back. -/
def fencedHeadEnd (arcs : List ToolArc) (offset recentOpenArcCutoff stop : Nat) : Nat × Bool :=
  let pulled := pullBackToOpenArcs arcs offset recentOpenArcCutoff
    (fenceBoundaryForCompletedToolArcs stop arcs offset, false)
  (fenceBoundaryForCompletedToolArcs pulled.1 arcs offset, pulled.2)

/-- `apply_head_cap`. -/
def applyHeadCap (index : TokenIndex F) (protectedTailStart offset : Nat) (arcs : List ToolArc)
    (capTokens : F) (recentOpenArcCutoff : Nat) : HeadCapResult :=
  if protectedTailStart ≤ offset then ⟨offset, false, false⟩
  else
    let stop := index.findHeadEndForCap offset protectedTailStart capTokens
    let oversizeAtomicUnit :=
      stop == offset + 1 && decide (capTokens < index.tokenForOrdinal offset)
    let (stop, fencedByOpenArc) := fencedHeadEnd arcs offset recentOpenArcCutoff stop
    if stop ≤ offset then ⟨offset, oversizeAtomicUnit, fencedByOpenArc⟩
    else ⟨min stop protectedTailStart, oversizeAtomicUnit, fencedByOpenArc⟩

/-- What the walk by size and the moves after it come to. -/
structure BoundaryWalk (F : Type) where
  boundary : Nat
  recentOpenArcCutoff : Nat
  fencedByOpenArc : Bool
  boundaryReason : BoundaryReason F

/-- The walk by size, the two fences and the snap between them. -/
def walkBoundary (messages : List BoundaryMsg) (index : TokenIndex F)
    (arcs : List ToolArc) (scaledN : F) (offset : Nat) : BoundaryWalk F :=
  let start := index.findSuffixStartForTokens scaledN
  let reason :=
    if start = index.firstOrdinal then BoundaryReason.wholeSessionSmallerThanTail else .sizeWalk
  let huge := decide (start < index.terminalOrdinal) &&
    decide (maximum (2 * scaledN) 64000 < index.tokenForOrdinal start) &&
    decide (start < index.lastOrdinal)
  let boundary := if huge then start + 1 else start
  let reason := if huge then .hugeMessageException else reason
  let firstFence := fenceBoundaryForToolArcs boundary arcs offset start
  let snapped :=
    semanticSnapBoundary tools messages index firstFence.boundary scaledN offset
  let reason := if snapped ≠ firstFence.boundary then .semanticSnap else reason
  let secondFence := fenceBoundaryForToolArcs snapped arcs offset start
  { boundary := secondFence.boundary
    recentOpenArcCutoff := start
    fencedByOpenArc := firstFence.openArc || secondFence.openArc
    boundaryReason := reason }

/-- The newest user message with text of its own. -/
def lastMeaningfulUser (messages : List BoundaryMsg) : Option Nat :=
  (messages.reverse.find? fun message =>
    message.role == .user && hasMeaningfulUserText tools message.blocks).map (·.messageOrdinal)

/-- The boundary after the floors, and whether the live prompt held it. -/
def floorBoundary (messages : List BoundaryMsg) (ctx : BoundaryContext F)
    (boundary offset : Nat) : Nat × Bool :=
  let runtimeFloor :=
    if ctx.migrationFloorActive then max offset ctx.priorBoundaryOrdinal else offset
  let start := max boundary runtimeFloor
  if ctx.emergencyTailScale.isNone && decide (clampPercentage ctx.usagePercentage <
      forceMaterializePercentage ctx.executeThresholdPercentage) then
    match lastMeaningfulUser tools messages with
    | some user =>
      if offset ≤ user ∧ user < start then (user, true) else (start, false)
    | none => (start, false)
  else (start, false)

/-- The start of the protected tail, from the boundary after the floors. -/
def protectedTailStart (index : TokenIndex F) (arcs : List ToolArc) (ctx : BoundaryContext F)
    (start offset : Nat) : Nat :=
  let start :=
    if offset < start ∧ index.rangeTokens offset start ≤ (256 : F) then offset else start
  let start := index.clampOrdinal start
  let start :=
    if ctx.foldIsOnlyReclaim && decide (0 < index.rawMessageCount) then
      -- The newest message and its tools stay out of the fold.
      index.clampOrdinal (max (min start (newestMessageProtectedFloor arcs index)) offset)
    else start
  fenceBoundaryForCompletedToolArcs start arcs offset

/-- `resolve_protected_tail_boundary`. -/
def resolveProtectedTailBoundary (messages : List BoundaryMsg)
    (ctx : BoundaryContext F) : BoundaryResolution F :=
  let index : TokenIndex F := TokenIndex.new messages
  let offset := offsetOf messages ctx
  if index.rawMessageCount = 0 then
    { protectedStartOrdinal := 1
      eligibleHead := (offset, offset)
      nTokens := 0
      flooredByLivePrompt := false
      fencedByOpenArc := false
      trueRawEligibleTokens := 0
      oversizeAtomicUnit := false
      rawMessageCount := index.rawMessageCount
      boundaryReason := .emptySession (round (maximum ctx.usageInputTokens 0)) }
  else
    let scaledN := scaledTarget ctx
    let arcs := buildToolArcs messages
    let walk := walkBoundary tools messages index arcs scaledN offset
    let (floored, flooredByLivePrompt) := floorBoundary tools messages ctx walk.boundary offset
    let start := protectedTailStart index arcs ctx floored offset
    let head := applyHeadCap index start offset arcs
      (selectPerRunCap (clampPercentage ctx.usagePercentage) scaledN ctx.contextLimit
        ctx.executeThresholdPercentage)
      walk.recentOpenArcCutoff
    { protectedStartOrdinal := start
      eligibleHead := (offset, head.eligibleEndOrdinal)
      nTokens := scaledN
      flooredByLivePrompt
      fencedByOpenArc := walk.fencedByOpenArc || head.fencedByOpenArc
      trueRawEligibleTokens := index.rangeTokens offset start
      oversizeAtomicUnit := head.oversizeAtomicUnit
      rawMessageCount := index.rawMessageCount
      boundaryReason := walk.boundaryReason }

end MagicContext.Boundary
