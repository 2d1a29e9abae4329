import MagicContext.Boundary.Index
import MagicContext.Lib.SortedMap

/-!
# The blocks that reductions are selected from

Each content block of the tail is one item.  A tool call and its results share an arc, which is what
the selectors choose; the grouping collects of each arc what they look at.

## What is here

* `SelItem`, `SelectionContext` — the input.
* `ToolArc`, `groupArcs` — the arcs, the oldest first.
* `get_groupBy` and `mem_groupArcs` — an arc is what its items make of it.
-/

namespace MagicContext.Selection

open Boundary (SelKind)
open Historian (u64Max)

/-! ## The input -/

inductive SelMessageRole where
  | assistant | system | nonAssistant
  deriving DecidableEq

structure SelItem where
  /-- The message and the index of the block in it, joined by a hash. -/
  id : String
  ordinal : Nat
  messageRole : SelMessageRole
  kind : SelKind
  providerExecuted : Bool
  byteSize : Nat
  tokenCount : Option Nat
  arcId : Option String
  deriving DecidableEq

inductive PassClass where
  | execute | emergencyForce | defer
  deriving DecidableEq

/-- What the pass brings along; sets of ids are lists. -/
structure SelectionContext (F : Type) where
  passClass : PassClass
  currentTotalInputTokens : F
  ceilingTokens : F
  /-- Zero protects nothing. -/
  protectedCutoffOrdinal : Nat
  /-- Zero permits nothing. -/
  lastExecuteOrdinal : Nat
  schedulerPressureExecute : Bool
  priorInputSample : F
  hasPriorDrop : Bool
  agentDropIds : List String
  agentDropCommandIds : SortedMap String String
  firstAppliedAgentDropIds : List String
  passAlreadyBusting : Bool
  supersessionRideAvailable : Bool
  tagWindowProtectedBlockIds : List String
  exemptMessageProtectedBlockIds : List String

structure SelectionConfig where
  smartDrops : Bool

def SelectionContext.blockIsProtected {F : Type} (ctx : SelectionContext F) (blockId : String) :
    Bool :=
  ctx.tagWindowProtectedBlockIds.contains blockId ||
    ctx.exemptMessageProtectedBlockIds.contains blockId

/-- What the selection uses of the runtime. -/
structure SelectionTools where
  /-- `str::to_lowercase`. -/
  toLowercase : String → String
  /-- `serde_json::to_string`. -/
  jsonText : Json → String

/-- `str::rsplit_once('#')` and the index after the hash. -/
def splitBlockId (id : String) : Option (String × Option Nat) :=
  (Text.rsplitOnce '#' id.toList).map fun p => (String.ofList p.1, Text.parseU64 p.2)

/-- The message of a block. -/
def itemMessageId (item : SelItem) : Option String :=
  (splitBlockId item.id).bind fun p => p.2.map fun _ => p.1

def SelItem.isTool (item : SelItem) : Bool :=
  match item.kind with
  | .toolCall .. | .toolResult .. => true
  | _ => false

def SelItem.isCall (item : SelItem) : Bool :=
  match item.kind with
  | .toolCall .. => true
  | _ => false

def SelItem.isReasoning (item : SelItem) : Bool :=
  match item.kind with
  | .reasoning | .redactedReasoning => true
  | _ => false

/-! ## Arcs -/

structure ToolArc where
  arcId : String
  /-- The message of the first call. -/
  ownerMessageId : Option String := none
  name : String := ""
  dedupName : String := ""
  dedupResultOrdinal : Nat := 0
  dedupResultBlockIndex : Nat := 0
  ordinal : Nat := u64Max
  providerExecuted : Bool := false
  callInputs : List (String × Json) := []
  callBytes : Nat := 0
  resultIds : List String := []
  resultBytes : Nat := 0
  reclaimTokens : Option Nat := none
  /-- A block of the arc is frozen. -/
  reduced : Bool := false
  deriving DecidableEq

def ToolArc.reclaimBytes (arc : ToolArc) : Nat := arc.callBytes + arc.resultBytes

def ToolArc.input (arc : ToolArc) : Option Json := arc.callInputs.head?.map Prod.snd

/-- The ids of its call and result blocks. -/
def ToolArc.blockIds (arc : ToolArc) : List String := arc.callInputs.map Prod.fst ++ arc.resultIds

def normalizeToolName (tools : SelectionTools) (name : String) : String :=
  let lower := (tools.toLowercase name).toList
  String.ofList (if "mcp_".toList.isPrefixOf lower then lower.drop 4 else lower)

/-- An arc with one more item. -/
def ToolArc.absorb (tools : SelectionTools) (frozen : List String) (arc : ToolArc)
    (item : SelItem) : ToolArc :=
  let arc := { arc with
    ordinal := min arc.ordinal item.ordinal
    reclaimTokens :=
      match item.tokenCount with
      | some tokens => some (min (arc.reclaimTokens.getD 0 + tokens) u64Max)
      | none => arc.reclaimTokens
    reduced := arc.reduced || frozen.contains item.id }
  match item.kind with
  | .toolCall name input =>
    { arc with
      name := normalizeToolName tools name
      dedupName := name
      ownerMessageId :=
        if arc.callInputs.isEmpty then itemMessageId item else arc.ownerMessageId
      callInputs := arc.callInputs ++ [(item.id, input)]
      callBytes := arc.callBytes + item.byteSize
      -- the last call decides, whatever came before
      providerExecuted := item.providerExecuted }
  | .toolResult toolName =>
    let unnamed := arc.name == ""
    let blockIndex := ((splitBlockId item.id).bind Prod.snd).getD 0
    let later := arc.dedupResultOrdinal < item.ordinal ∨
      (arc.dedupResultOrdinal = item.ordinal ∧ arc.dedupResultBlockIndex < blockIndex)
    { arc with
      name := if unnamed then normalizeToolName tools toolName else arc.name
      dedupName := if unnamed then toolName else arc.dedupName
      dedupResultOrdinal := if later then item.ordinal else arc.dedupResultOrdinal
      dedupResultBlockIndex := if later then blockIndex else arc.dedupResultBlockIndex
      resultIds := arc.resultIds ++ [item.id]
      resultBytes := arc.resultBytes + item.byteSize
      providerExecuted := arc.providerExecuted || item.providerExecuted }
  | _ => arc

/-- Older, or as old and not behind by id. -/
def ToolArc.Older (a b : ToolArc) : Prop :=
  a.ordinal < b.ordinal ∨ (a.ordinal = b.ordinal ∧ a.arcId ≤ b.arcId)

instance : DecidableRel ToolArc.Older := fun _ _ =>
  inferInstanceAs (Decidable (_ ∨ (_ ∧ _)))

def ToolArc.Newer (a b : ToolArc) : Prop := b.Older a

instance : DecidableRel ToolArc.Newer := fun a b => inferInstanceAs (Decidable (b.Older a))

/-! ### Grouping -/

section
variable {α κ σ : Type} [LinearOrder κ]

/-- The items under each key, put together one after the other. -/
def groupBy (key : α → Option κ) (fresh : κ → α → σ) (step : σ → α → σ) (items : List α) :
    SortedMap κ σ :=
  items.foldl (fun groups item =>
    match key item with
    | none => groups
    | some k => groups.insert k (step ((groups.get k).getD (fresh k item)) item)) .empty

/-- The items of one key. -/
def keyed (key : α → Option κ) (k : κ) (items : List α) : List α :=
  items.filter fun item => decide (key item = some k)

theorem mem_keyed {key : α → Option κ} {k : κ} {items : List α} {item : α} :
    item ∈ keyed key k items ↔ item ∈ items ∧ key item = some k := by
  rw [keyed, List.mem_filter, decide_eq_true_iff]

theorem keyed_cons (key : α → Option κ) (k : κ) (item : α) (items : List α) :
    keyed key k (item :: items) =
      if key item = some k then item :: keyed key k items else keyed key k items := by
  rw [keyed, keyed, List.filter_cons]
  simp only [decide_eq_true_eq]

/-- **A group is what the items of its key make of it**, and there is none without items. -/
theorem get_groupBy {key : α → Option κ} {fresh : κ → α → σ} {step : σ → α → σ}
    (items : List α) (k : κ) :
    (groupBy key fresh step items).get k =
      (keyed key k items).head?.map fun first =>
        (keyed key k items).foldl step (fresh k first) := by
  have hfold : ∀ groups : SortedMap κ σ,
      (items.foldl (fun groups item =>
        match key item with
        | none => groups
        | some k =>
          groups.insert k (step ((groups.get k).getD (fresh k item)) item)) groups).get k =
      ((groups.get k).or ((keyed key k items).head?.map (fresh k))).map fun s =>
        (keyed key k items).foldl step s := by
    induction items with
    | nil =>
      intro groups
      cases h : groups.get k <;> simp [keyed, h]
    | cons item items ih =>
      intro groups
      rw [List.foldl_cons, ih, keyed_cons]
      cases hkey : key item with
      | none => rw [if_neg (by simp)]
      | some k' =>
        rw [SortedMap.get_insert]
        by_cases hk : k' = k
        · subst hk
          cases groups.get k' <;> simp
        · simp [hk]
  rw [groupBy, hfold, SortedMap.get_empty, Option.none_or, Option.map_map]
  rfl

/-- Groups that add no more than their items do not add more in all. -/
theorem sum_groupBy_le {key : α → Option κ} {size : α → Nat}
    {step : Nat → α → Nat} (hstep : ∀ n a, step n a ≤ n + size a) (items : List α) :
    ((groupBy key (fun _ _ => 0) step items).entries.map Prod.snd).sum ≤ (items.map size).sum := by
  have hfold : ∀ groups : SortedMap κ Nat,
      ((items.foldl (fun groups item =>
        match key item with
        | none => groups
        | some k => groups.insert k (step ((groups.get k).getD 0) item)) groups).entries.map
          Prod.snd).sum ≤ (groups.entries.map Prod.snd).sum + (items.map size).sum := by
    induction items with
    | nil => exact fun groups => Nat.le_add_right _ _
    | cons item items ih =>
      intro groups
      rw [List.foldl_cons, List.map_cons, List.sum_cons]
      cases key item with
      | none =>
        have hrest := ih groups
        dsimp only
        omega
      | some k =>
        have hrest := ih (groups.insert k (step ((groups.get k).getD 0) item))
        have hinsert := groups.sum_insert k (step ((groups.get k).getD 0) item)
        have hitem := hstep ((groups.get k).getD 0) item
        dsimp only
        omega
  exact (hfold .empty).trans (Nat.zero_add _).le

/-- A group may collect its items. -/
theorem foldl_push {β : Type} (f : α → β) (l : List α) (collected : List β) :
    l.foldl (fun collected item => collected ++ [f item]) collected = collected ++ l.map f := by
  induction l generalizing collected with
  | nil => exact (List.append_nil collected).symm
  | cons item l ih => simp [ih]

end

def groupArcs (tools : SelectionTools) (items : List SelItem) (frozen : List String) :
    List ToolArc :=
  let arcs := groupBy SelItem.arcId (fun arcId _ => { arcId }) (ToolArc.absorb tools frozen) items
  (arcs.entries.map Prod.snd).insertionSort ToolArc.Older

/-! ### What an arc is made of -/

/-- The items of an arc. -/
def arcItems (items : List SelItem) (arcId : String) : List SelItem :=
  keyed SelItem.arcId arcId items

theorem mem_arcItems {items : List SelItem} {arcId : String} {item : SelItem} :
    item ∈ arcItems items arcId ↔ item ∈ items ∧ item.arcId = some arcId := mem_keyed

section
variable {tools : SelectionTools} {frozen : List String}

@[simp] theorem arcId_absorb (arc : ToolArc) (item : SelItem) :
    (arc.absorb tools frozen item).arcId = arc.arcId := by
  rw [ToolArc.absorb]
  split <;> rfl

@[simp] theorem reduced_absorb (arc : ToolArc) (item : SelItem) :
    (arc.absorb tools frozen item).reduced = (arc.reduced || frozen.contains item.id) := by
  rw [ToolArc.absorb]
  split <;> rfl

/-- An item is a block of its arc when it is a call or a result. -/
theorem mem_blockIds_absorb {arc : ToolArc} {item : SelItem} {id : String} :
    id ∈ (arc.absorb tools frozen item).blockIds ↔
      id ∈ arc.blockIds ∨ (item.isTool = true ∧ item.id = id) := by
  rw [ToolArc.absorb, SelItem.isTool]
  cases item.kind with
  | toolCall =>
    simp only [ToolArc.blockIds, List.map_append, List.mem_append, List.map_cons, List.map_nil,
      List.mem_singleton, true_and, eq_comm (a := id)]
    tauto
  | toolResult =>
    simp only [ToolArc.blockIds, List.mem_append, List.mem_singleton, true_and, eq_comm (a := id)]
    tauto
  | _ => simp [ToolArc.blockIds]

theorem arcId_foldl (l : List SelItem) (arc : ToolArc) :
    (l.foldl (ToolArc.absorb tools frozen) arc).arcId = arc.arcId := by
  induction l generalizing arc with
  | nil => rfl
  | cons item l ih => rw [List.foldl_cons, ih, arcId_absorb]

theorem reduced_foldl (l : List SelItem) (arc : ToolArc) :
    (l.foldl (ToolArc.absorb tools frozen) arc).reduced =
      (arc.reduced || l.any fun item => frozen.contains item.id) := by
  induction l generalizing arc with
  | nil => exact (Bool.or_false _).symm
  | cons item l ih => rw [List.foldl_cons, ih, reduced_absorb, List.any_cons, Bool.or_assoc]

theorem mem_blockIds_foldl {l : List SelItem} {arc : ToolArc} {id : String} :
    id ∈ (l.foldl (ToolArc.absorb tools frozen) arc).blockIds ↔
      id ∈ arc.blockIds ∨ ∃ item ∈ l, item.isTool = true ∧ item.id = id := by
  induction l generalizing arc with
  | nil => simp
  | cons item l ih =>
    rw [List.foldl_cons, ih, mem_blockIds_absorb, or_assoc, List.exists_mem_cons_iff]

variable {items : List SelItem} {arc : ToolArc}

/-- The arc of an id. -/
def arcOf (tools : SelectionTools) (frozen : List String) (items : List SelItem)
    (arcId : String) : ToolArc :=
  (arcItems items arcId).foldl (ToolArc.absorb tools frozen) { arcId }

@[simp] theorem arcId_arcOf (arcId : String) :
    (arcOf tools frozen items arcId).arcId = arcId := arcId_foldl _ _

/-- **An arc is what its items make of it.** -/
theorem mem_groupArcs : arc ∈ groupArcs tools items frozen ↔
    arcItems items arc.arcId ≠ [] ∧ arcOf tools frozen items arc.arcId = arc := by
  rw [groupArcs, (List.perm_insertionSort _ _).mem_iff, List.mem_map]
  constructor
  · rintro ⟨⟨arcId, arc'⟩, hmem, rfl⟩
    rw [← SortedMap.get_eq_some, get_groupBy, Option.map_eq_some_iff] at hmem
    obtain ⟨first, hfirst, rfl⟩ := hmem
    rw [arcId_foldl]
    refine ⟨fun hnone => ?_, rfl⟩
    rw [arcItems] at hnone
    rw [hnone] at hfirst
    cases hfirst
  · rintro ⟨hne, harc⟩
    obtain ⟨first, rest, hitems⟩ := List.exists_cons_of_ne_nil hne
    refine ⟨(arc.arcId, arc), ?_, rfl⟩
    rw [← SortedMap.get_eq_some, get_groupBy, Option.map_eq_some_iff]
    exact ⟨first, congrArg List.head? hitems, harc⟩

section
variable (h : arc ∈ groupArcs tools items frozen)
include h

/-- The blocks of an arc are its calls and results. -/
theorem mem_blockIds {id : String} : id ∈ arc.blockIds ↔
      ∃ item ∈ items, item.arcId = some arc.arcId ∧ item.isTool = true ∧ item.id = id := by
  conv_lhs => rw [← (mem_groupArcs.mp h).2, arcOf, mem_blockIds_foldl]
  simp only [ToolArc.blockIds, List.map_nil, List.append_nil, List.not_mem_nil, false_or,
    mem_arcItems, and_assoc]

/-- An arc with a frozen item is inactive. -/
theorem reduced_iff :
    arc.reduced = true ↔ ∃ item ∈ items, item.arcId = some arc.arcId ∧ item.id ∈ frozen := by
  rw [← (mem_groupArcs.mp h).2, arcOf, reduced_foldl, arcId_foldl]
  simp only [Bool.false_or, List.any_eq_true, mem_arcItems, List.contains_iff_mem, and_assoc]

/-- Arcs are told apart by their ids. -/
theorem eq_of_arcId_eq {arc' : ToolArc} (h' : arc' ∈ groupArcs tools items frozen)
    (heq : arc.arcId = arc'.arcId) : arc = arc' := by
  rw [← (mem_groupArcs.mp h).2, ← (mem_groupArcs.mp h').2, heq]

end

end

end MagicContext.Selection
