import MagicContext.Boundary.Resolve

/-!
# The compartment trigger

The trigger resolves the protected tail, measures what lies before it in the lines the historian
would read, and decides whether a compartment is to be made.  In the force band it may resolve a
second time, with a smaller tail.

## What is here

* `ChunkBuilder`, `chunkedMessageEstimate` — the measure.
* `TriggerContext`, `TriggerDecision`.
* `hasRunnableCompartmentWindow`, `checkCompartmentTrigger`.
-/

namespace MagicContext.Boundary

open Double (maximum minimum floor)

variable {F : Type} [Double F]

/-! ## Chunks -/

/-- The tokenizer, and what the text of messages is cut with. -/
structure ChunkTools extends TextTools where
  estimateTokens : String → Nat

structure ChunkBlock where
  role : String
  startOrdinal : Nat
  endOrdinal : Nat
  parts : List String
  /-- The ordinals of the messages the block stands for. -/
  metaOrdinals : List Nat
  commitHashes : List String
  isToolOnly : Bool

structure ChunkEstimate (F : Type) where
  tokens : F
  hasMore : Bool
  formattedBlocks : List String
  blockTokens : List F
  messageCount : Nat
  commitClusterCount : Nat

structure ChunkBuilder (F : Type) where
  budgetStop : F
  totalTokens : F
  messagesProcessed : Nat := 0
  lastOrdinal : Nat := 0
  currentBlock : Option ChunkBlock := none
  pendingNoiseMeta : List Nat := []
  formattedBlocks : List String := []
  blockTokens : List F := []
  commitClusterCount : Nat := 0
  lastFlushedRole : String := ""

def textParts (tools : TextTools) (message : BoundaryMsg) : List String :=
  message.blocks.filterMap fun block =>
    if block.ignored || block.kind != .text then none
    else
      let text := Text.trimText block.original
      if text = "" then none
      else
        let cleaned := if message.role = .user then cleanUserText tools text else text
        let normalized := normalizeText cleaned
        if normalized = "" then none else some normalized

def extractToolCallSummaries (blocks : List BoundaryBlock) : List String :=
  blocks.filterMap fun block =>
    match block.kind with
    | .toolCall name input =>
      match (input.stringField "description").filter fun value => value ≠ "" with
      | some description => some ("TC: " ++ description)
      | none =>
        match extractKeyArg input with
        | some keyArg => some ("TC: " ++ name ++ "(" ++ keyArg ++ ")")
        | none => some ("TC: " ++ name)
    | _ => none

def formatBlock (block : ChunkBlock) : String :=
  formatBlockLine block.role block.startOrdinal block.endOrdinal block.commitHashes block.parts

namespace ChunkBuilder

/-- `ChunkBuilder::flush_current_block`; the answer is whether the scan goes on. -/
def flushCurrentBlock (tools : ChunkTools) (builder : ChunkBuilder F) : ChunkBuilder F × Bool :=
  match builder.currentBlock with
  | none => (builder, true)
  | some block =>
    let blockText := formatBlock block
    let blockTokens : F := Double.ofNat (tools.estimateTokens blockText)
    if builder.budgetStop < builder.totalTokens + blockTokens ∧ 0 < builder.totalTokens then
      (builder, false)
    else
      let cluster := block.role == "A" && !block.commitHashes.isEmpty &&
        builder.lastFlushedRole != "A"
      ({ builder with
          currentBlock := none
          commitClusterCount := builder.commitClusterCount + cluster.toNat
          lastFlushedRole := block.role
          lastOrdinal := block.metaOrdinals.getLastD block.endOrdinal
          messagesProcessed := builder.messagesProcessed + block.metaOrdinals.length
          formattedBlocks := builder.formattedBlocks ++ [blockText]
          blockTokens := builder.blockTokens ++ [blockTokens]
          totalTokens := builder.totalTokens + blockTokens }, true)

/-- Opens a block after the one before it has been flushed. -/
def openBlock (tools : ChunkTools) (builder : ChunkBuilder F) (ordinal : Nat)
    (block : ChunkBlock) : ChunkBuilder F × Bool :=
  match builder.flushCurrentBlock tools with
  | (builder, false) => (builder, false)
  | (builder, true) =>
    ({ builder with
        currentBlock := some { block with
          startOrdinal := builder.pendingNoiseMeta.head?.getD ordinal
          metaOrdinals := builder.pendingNoiseMeta ++ [ordinal] }
        pendingNoiseMeta := [] }, true)

/-- The open block, when it has the role. -/
def current (builder : ChunkBuilder F) (role : String) : Option ChunkBlock :=
  builder.currentBlock.filter fun block => block.role == role

/-- `ChunkBuilder::push_message`. -/
def pushMessage (tools : ChunkTools) (builder : ChunkBuilder F) (message : BoundaryMsg) :
    ChunkBuilder F × Bool :=
  let ordinal := message.messageOrdinal
  let noise :=
    ({ builder with pendingNoiseMeta := builder.pendingNoiseMeta ++ [ordinal] }, true)
  let addTo (block : ChunkBlock) (text : String) : ChunkBlock :=
    { block with
      endOrdinal := ordinal
      parts := block.parts ++ [text]
      metaOrdinals := block.metaOrdinals ++ builder.pendingNoiseMeta ++ [ordinal] }
  if message.role = .user ∧ hasMeaningfulUserText tools.toTextTools message.blocks = false then
    let tcSummaries := extractToolCallSummaries message.blocks
    if tcSummaries.isEmpty then noise
    else
      let tcText := String.intercalate " / " tcSummaries
      match builder.current "A" with
      | some block =>
        ({ builder with currentBlock := some (addTo block tcText), pendingNoiseMeta := [] }, true)
      | none =>
        builder.openBlock tools ordinal
          { role := "A", startOrdinal := ordinal, endOrdinal := ordinal, parts := [tcText]
            metaOrdinals := [], commitHashes := [], isToolOnly := true }
  else
    let role := compactRole tools.toTextTools message.role.asStr
    let texts := textParts tools.toTextTools message
    let hasNarrative := !texts.isEmpty
    let summaries := if hasNarrative then [] else extractToolCallSummaries message.blocks
    let compacted := compactTextForSummary tools.toTextTools
      (String.intercalate " / " (texts ++ summaries)) message.role.asStr
    if compacted.text = "" then noise
    else
      match builder.current role with
      | some block =>
        let added := addTo block compacted.text
        let merged := { added with
          commitHashes := mergeCommitHashes block.commitHashes compacted.commitHashes
          isToolOnly := block.isToolOnly && !hasNarrative }
        ({ builder with currentBlock := some merged, pendingNoiseMeta := [] }, true)
      | none =>
        builder.openBlock tools ordinal
          { role, startOrdinal := ordinal, endOrdinal := ordinal, parts := [compacted.text]
            metaOrdinals := [], commitHashes := compacted.commitHashes
            isToolOnly := !hasNarrative }

/-- Pushes messages until one is not taken. -/
def pushMessages (tools : ChunkTools) (builder : ChunkBuilder F) : List BoundaryMsg → ChunkBuilder F
  | [] => builder
  | message :: messages =>
    match builder.pushMessage tools message with
    | (builder, true) => builder.pushMessages tools messages
    | (builder, false) => builder

/-- `ChunkBuilder::finish`. -/
def finish (tools : ChunkTools) (builder : ChunkBuilder F) (totalMessageCount : Nat)
    (eligibleEndOrdinal : Option Nat) : ChunkEstimate F :=
  let builder := (builder.flushCurrentBlock tools).1
  let terminal := match eligibleEndOrdinal with
    | some stop => min (stop - 1) totalMessageCount
    | none => totalMessageCount
  let hasMore := decide (builder.lastOrdinal < terminal)
  { tokens :=
      if hasMore ∧ builder.totalTokens < builder.budgetStop ∧ 0 < builder.totalTokens then
        builder.budgetStop
      else builder.totalTokens
    hasMore
    formattedBlocks := builder.formattedBlocks
    blockTokens := builder.blockTokens
    messageCount := builder.messagesProcessed
    commitClusterCount := builder.commitClusterCount }

end ChunkBuilder

/-- `chunked_message_estimate_with_estimator`. -/
def chunkedMessageEstimate (tools : ChunkTools) (messages : List BoundaryMsg) (startOrdinal : Nat)
    (eligibleEndOrdinal : Option Nat) (budgetStop : F) : ChunkEstimate F :=
  let ordered := inOrder messages
  let totalMessageCount := (ordered.map (·.messageOrdinal)).max?.getD ordered.length
  let eligible : List BoundaryMsg := match eligibleEndOrdinal with
    | some stop => ordered.takeWhile fun (message : BoundaryMsg) => message.messageOrdinal < stop
    | none => ordered
  let builder : ChunkBuilder F := { budgetStop, totalTokens := 0 }
  (builder.pushMessages tools
    (eligible.filter fun message => startOrdinal ≤ message.messageOrdinal)).finish tools
    totalMessageCount eligibleEndOrdinal

/-! ## Decisions -/

structure TriggerContext (F : Type) where
  boundary : BoundaryContext F
  compartmentInProgress : Bool
  projectedPostDropPercentage : Option F
  commitClusterTriggerEnabled : Bool
  minCommitClusters : Nat

/-- `TriggerContext::default`. -/
def TriggerContext.default : TriggerContext F where
  boundary := .default
  compartmentInProgress := false
  projectedPostDropPercentage := none
  commitClusterTriggerEnabled := true
  minCommitClusters := 3

inductive TriggerReason where
  | projectedHeadroom | forceBand | commitClusters | tailSize

structure TriggerProgress (F : Type) where
  eligibleChunkTokens : F
  tailSizeBar : F
  nTokens : F
  protectedStartOrdinal : Nat

structure TriggerDecision (F : Type) where
  fire : Bool := false
  reason : Option TriggerReason := none
  consumeThroughOrdinal : Option Nat := none
  boundary : Option (BoundaryResolution F) := none
  progress : Option (TriggerProgress F) := none

def noFire : TriggerDecision F := {}

def noFireWithProgress (progress : TriggerProgress F) : TriggerDecision F :=
  { progress := some progress }

/-- `fire_with_progress`. -/
def fireWithProgress (reason : TriggerReason) (boundary : BoundaryResolution F)
    (progress : TriggerProgress F) : TriggerDecision F where
  fire := true
  reason := some reason
  consumeThroughOrdinal :=
    if boundary.eligibleHead.1 < boundary.eligibleHead.2 then some (boundary.eligibleHead.2 - 1)
    else none
  boundary := some boundary
  progress := some progress

def getProactiveCompartmentTriggerPercentage (executeThresholdPercentage : F) : F :=
  maximum (executeThresholdPercentage - 2) 0

def deriveMinForceEligibleTokens (scaledN : F) : F :=
  minimum 1000 (maximum (floor (scaledN / 8)) 1)

/-- `has_runnable_compartment_window`. -/
def hasRunnableCompartmentWindow (boundary : BoundaryResolution F)
    (usagePercentage executeThresholdPercentage : F) (emergencyTailScale : Option F) : Bool :=
  if boundary.protectedStartOrdinal ≤ boundary.eligibleHead.1 then false
  else if forceMaterializePercentage executeThresholdPercentage ≤ usagePercentage ∨
      emergencyTailScale.isSome then
    decide (deriveMinForceEligibleTokens boundary.nTokens ≤ boundary.trueRawEligibleTokens) ||
      decide (boundary.eligibleHead.1 < boundary.eligibleHead.2)
  else decide (boundary.eligibleHead.1 < boundary.eligibleHead.2)

/-- The budget a decision is made with. -/
def triggerBudgetOf (ctx : BoundaryContext F) : F :=
  ctx.triggerBudget.getD (deriveTriggerBudget ctx.contextLimit ctx.executeThresholdPercentage)

/-- The context of the first resolution. -/
def primaryContext (ctx : BoundaryContext F) : BoundaryContext F :=
  { ctx with triggerBudget := some (triggerBudgetOf ctx), emergencyTailScale := none }

/-- The scale of the second resolution. -/
def emergencyScale (usagePercentage : F) : F := if 95 ≤ usagePercentage then 0.25 else 0.5

def scaledContext (ctx : BoundaryContext F) : BoundaryContext F :=
  { primaryContext ctx with emergencyTailScale := some (emergencyScale ctx.usagePercentage) }

/-- What the trigger measures before the protected tail. -/
def eligibleChunk (tools : ChunkTools) (messages : List BoundaryMsg)
    (boundary : BoundaryResolution F) (triggerBudget : F) : ChunkEstimate F :=
  if boundary.eligibleHead.1 < boundary.protectedStartOrdinal then
    chunkedMessageEstimate tools messages boundary.eligibleHead.1
      (some boundary.protectedStartOrdinal) (maximum 6000 (triggerBudget * 3))
  else
    { tokens := 0, hasMore := false, formattedBlocks := [], blockTokens := [], messageCount := 0
      commitClusterCount := 0 }

/-- `check_compartment_trigger`. -/
def checkCompartmentTrigger (tools : ChunkTools) (messages : List BoundaryMsg)
    (ctx : TriggerContext F) : TriggerDecision F :=
  let offset := offsetOf messages ctx.boundary
  if ctx.compartmentInProgress then noFire
  else if (messages.map (·.messageOrdinal)).max?.all fun last => last < offset then noFire
  else
    let triggerBudget := triggerBudgetOf ctx.boundary
    let usage := ctx.boundary.usagePercentage
    let threshold := ctx.boundary.executeThresholdPercentage
    let boundary :=
      resolveProtectedTailBoundary tools.toTextTools messages (primaryContext ctx.boundary)
    let hasProtectedEligibleHead :=
      decide (boundary.eligibleHead.1 < boundary.protectedStartOrdinal)
    let chunk := eligibleChunk tools messages boundary triggerBudget
    let progress : TriggerProgress F :=
      { eligibleChunkTokens := chunk.tokens
        tailSizeBar := triggerBudget * 3
        nTokens := boundary.nTokens
        protectedStartOrdinal := boundary.protectedStartOrdinal }
    let isMeaningful := chunk.hasMore || decide (6000 ≤ boundary.trueRawEligibleTokens) ||
      decide (6000 ≤ chunk.tokens) || decide (12 ≤ chunk.messageCount)
    let dropsSuffice := ctx.projectedPostDropPercentage.any fun pct =>
      decide (pct ≤ threshold * 0.75)
    if forceMaterializePercentage threshold ≤ usage then
      if dropsSuffice then noFireWithProgress progress
      else if hasRunnableCompartmentWindow boundary usage threshold none then
        fireWithProgress .forceBand boundary progress
      else
        let scaled :=
          resolveProtectedTailBoundary tools.toTextTools messages (scaledContext ctx.boundary)
        if hasRunnableCompartmentWindow scaled usage threshold (some (emergencyScale usage)) then
          fireWithProgress .forceBand scaled progress
        else noFireWithProgress progress
    else if ctx.commitClusterTriggerEnabled = true ∧
        ctx.minCommitClusters ≤ chunk.commitClusterCount ∧ triggerBudget ≤ chunk.tokens then
      fireWithProgress .commitClusters boundary progress
    else if triggerBudget * 3 ≤ chunk.tokens ∨ chunk.hasMore = true ∧ 0 < chunk.tokens then
      fireWithProgress .tailSize boundary progress
    else if usage < getProactiveCompartmentTriggerPercentage threshold then
      noFireWithProgress progress
    else if dropsSuffice then noFireWithProgress progress
    else if !hasProtectedEligibleHead || !isMeaningful then noFireWithProgress progress
    else fireWithProgress .projectedHeadroom boundary progress

end MagicContext.Boundary
