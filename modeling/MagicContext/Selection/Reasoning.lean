import MagicContext.Selection.Items

/-!
# Arcs that reasoning depends on

A provider refuses an assistant message in which nothing but reasoning is left, and merges two
assistant messages when what stood between them is gone, across the reasoning of either.  Arcs whose
removal alone would do so are found before anything is selected.

## What is here

* `reasoningAdjacencyCollapseArcIds` — the arcs whose results alone keep two assistants apart.
* `reasoningIneligibleArcIds` — the arcs without which only reasoning is left.
* `arcByBlockId` — the arc of each block.
-/

namespace MagicContext.Selection

structure ReductionDecision where
  targetId : String
  kind : String
  payload : String
  deriving DecidableEq

/-! ## Adjacency -/

structure AdjacencyMessageShape where
  mid : String
  ordinal : Nat
  role : SelMessageRole
  hasReasoning : Bool := false
  items : List SelItem := []

def AdjacencyMessageShape.absorb (message : AdjacencyMessageShape) (item : SelItem) :
    AdjacencyMessageShape :=
  { message with
    ordinal := min message.ordinal item.ordinal
    hasReasoning := message.hasReasoning || item.isReasoning
    items := message.items ++ [item] }

/-- The arc of which every item of the message is a call or a result. -/
def AdjacencyMessageShape.fullyRemovedByArc (message : AdjacencyMessageShape) : Option String :=
  (message.items.head?.bind SelItem.arcId).filter fun arcId =>
    message.items.all fun item => decide (item.arcId = some arcId) && item.isTool

def SelItem.isResult (item : SelItem) : Bool :=
  match item.kind with
  | .toolResult _ => true
  | _ => false

def AdjacencyMessageShape.isResultSeparator (message : AdjacencyMessageShape) : Bool :=
  message.role == .nonAssistant && message.items.any SelItem.isResult

def AdjacencyMessageShape.Before (a b : AdjacencyMessageShape) : Prop :=
  a.ordinal < b.ordinal ∨ (a.ordinal = b.ordinal ∧ a.mid ≤ b.mid)

instance : DecidableRel AdjacencyMessageShape.Before := fun _ _ =>
  inferInstanceAs (Decidable (_ ∨ (_ ∧ _)))

/-- The messages of the items, in their order. -/
def adjacencyMessages (items : List SelItem) : List AdjacencyMessageShape :=
  let messages := groupBy itemMessageId
    (fun mid item => { mid, ordinal := item.ordinal, role := item.messageRole })
    AdjacencyMessageShape.absorb items
  (messages.entries.map Prod.snd).insertionSort AdjacencyMessageShape.Before

/-- Without the messages of the run two assistants would touch, one of them with reasoning. -/
def hazardousRun (messages : List AdjacencyMessageShape) (run : List Nat) : Bool :=
  match run.head?, run.getLast? with
  | some first, some last =>
    match (if first = 0 then none else messages[first - 1]?), messages[last + 1]? with
    | some left, some right =>
      run.any (fun index => messages[index]?.any AdjacencyMessageShape.isResultSeparator) &&
        left.role == .assistant && right.role == .assistant &&
        (left.hasReasoning || right.hasReasoning)
    | _, _ => false
  | _, _ => false

/-- The indexes of the messages that the removal of an arc alone removes, by arc. -/
def removableByArc (messages : List AdjacencyMessageShape) : SortedMap String (List Nat) :=
  groupBy (fun entry => entry.1.fullyRemovedByArc) (fun _ _ => [])
    (fun indexes entry => indexes ++ [entry.2]) messages.zipIdx

/-- `chunk_by`: the stretches of consecutive indexes. -/
def consecutiveRuns (indexes : List Nat) : List (List Nat) :=
  indexes.splitBy fun left right => right == left + 1

def reasoningAdjacencyCollapseArcIds (items : List SelItem) : List String :=
  let messages := adjacencyMessages items
  ((removableByArc messages).entries.filter fun entry =>
    (consecutiveRuns entry.2).any (hazardousRun messages)).map Prod.fst

/-! ## Messages of reasoning alone -/

structure ReasoningMessageShape where
  hasReasoning : Bool := false
  hasDurableNonToolSibling : Bool := false
  toolArcIds : List String := []

def ReasoningMessageShape.absorb (message : ReasoningMessageShape) (item : SelItem) :
    ReasoningMessageShape :=
  if item.isReasoning then { message with hasReasoning := true }
  else if item.isTool && !item.providerExecuted then
    match item.arcId with
    | some arcId => { message with toolArcIds := message.toolArcIds ++ [arcId] }
    | none => { message with hasDurableNonToolSibling := true }
  else { message with hasDurableNonToolSibling := true }

def reasoningIneligibleArcIds (items : List SelItem) : List String :=
  let messages := groupBy itemMessageId (fun _ _ => {}) ReasoningMessageShape.absorb items
  ((messages.entries.map Prod.snd).filter fun message =>
    message.hasReasoning && !message.hasDurableNonToolSibling).flatMap
      ReasoningMessageShape.toolArcIds

/-- The arc of a block; of two items with one id the later counts. -/
def arcByBlockId (items : List SelItem) : SortedMap String String :=
  SortedMap.ofList (items.filterMap fun item => item.arcId.map fun arcId => (item.id, arcId))

end MagicContext.Selection
