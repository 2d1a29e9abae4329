import MagicContext.Selection.Messages

/-!
# Reasoning after the drops

The arcs that reasoning depends on are looked for one at a time, in the transcript as it was.  What
several arcs remove together is not looked at, nor what an agent asked for, nor a result whose call
is protected; nor are the blocks that the provider executes.

## What is here

* `ReasoningSafe` — what a provider accepts of reasoning.
* `MayLeave`, `Covered` — the blocks that a pass can take out, and the stretches that the check for
  single arcs looks at.
* `KeepsApart`, `KeepsCompany` — what the transcript is to have between assistants and beside
  reasoning.
* **`reasoningSafe_applyFullDrops`** — with that the drops of a pass keep a transcript safe.
* `reasoningSafe_fails` — a message with the results of two arcs.
-/

namespace MagicContext.Selection

open Boundary (SelKind)
open ReasoningMessageShape

variable {F : Type} [WholeDouble F]

/-- No block stands between the two. -/
def Adjacent (items : List SelItem) (left right : SelItem) : Prop :=
  left.ordinal < right.ordinal ∧ ∀ item ∈ items, ¬ left.Between right item

structure ReasoningSafe (items : List SelItem) : Prop where
  /-- Of two assistant messages in a row neither carries reasoning. -/
  apart : ∀ left ∈ items, ∀ right ∈ items, Adjacent items left right →
    left.messageRole = .assistant → right.messageRole = .assistant →
      left.isReasoning = false ∧ right.isReasoning = false
  /-- No assistant message holds reasoning alone. -/
  accompanied : ∀ item ∈ items, item.messageRole = .assistant → item.isReasoning = true →
    ∃ other ∈ items, itemMessageId other = itemMessageId item ∧ other.isReasoning = false

/-! ## What is to stay -/

section
variable (tools : SelectionTools) (items : List SelItem) (frozenKeys : List String)
  (ctx : SelectionContext F)

/-- A block of its call may be dropped: its arc is active or an agent asked for it, and no filter
takes it out. -/
def MayLeave (item : SelItem) : Prop :=
  ∃ other ∈ items, item.sharesCall other = true ∧ ctx.passClass ≠ .defer ∧
    Passes items ctx other.id ∧
      ((∃ arc ∈ activeArcs tools items frozenKeys, other.arcId = some arc.arcId) ∨
        Asked items frozenKeys ctx other.id)

/-- Between two assistants of which one has reasoning, and which are no blocks of the arc, the
stretch is the arc's alone, and the check for single arcs covers it: there is a result, an agent
asked for no block of the arc, and its first call is there and not protected. -/
structure Covered (left right : SelItem) (arcId : String) : Prop where
  assistants : left.messageRole = .assistant ∧ right.messageRole = .assistant
  reasoning : left.isReasoning = true ∨ right.isReasoning = true
  leftOutside : ¬ (left.arcId = some arcId ∧ left.isTool = true)
  rightOutside : ¬ (right.arcId = some arcId ∧ right.isTool = true)
  alone : ∀ item ∈ items, left.Between right item → item.arcId = some arcId ∧ item.isTool = true
  separator : ∃ item ∈ items, left.Between right item ∧ item.messageRole = .nonAssistant ∧
    item.isResult = true
  unasked : ∀ item ∈ items, item.arcId = some arcId → item.isTool = true →
    ¬ Asked items frozenKeys ctx item.id
  callStands : ∀ item ∈ items, left.Between right item →
    ∃ call, firstCall items item = some call ∧ ctx.blockIsProtected call.id = false

/-- A block between the two that cannot leave, or only together with one of them. -/
def Anchors (left right item : SelItem) : Prop :=
  left.Between right item ∧ (¬ MayLeave tools items frozenKeys ctx item ∨
    item.sharesCall left = true ∨ item.sharesCall right = true)

/-- Between two assistants, one of them with reasoning, is a block that cannot leave without them,
or a stretch that the check for single arcs covers. -/
def KeepsApart : Prop :=
  ∀ left ∈ items, ∀ right ∈ items, left.ordinal < right.ordinal →
    left.messageRole = .assistant → right.messageRole = .assistant →
    left.isReasoning = true ∨ right.isReasoning = true →
    (∃ item ∈ items, Anchors tools items frozenKeys ctx left right item) ∨
      ∃ left' ∈ items, ∃ right' ∈ items, ∃ arcId, left.ordinal ≤ left'.ordinal ∧
        right'.ordinal ≤ right.ordinal ∧ left'.ordinal < right'.ordinal ∧
          Covered items frozenKeys ctx left' right' arcId

/-- With reasoning in an assistant message in which the provider executed a call, or a call has no
arc, is another block that cannot leave. -/
def KeepsCompany : Prop :=
  ∀ item ∈ items, item.messageRole = .assistant → item.isReasoning = true →
    (∃ block ∈ items, itemMessageId block = itemMessageId item ∧ block.isTool = true ∧
      (block.providerExecuted = true ∨ block.arcId = none)) →
    ∃ other ∈ items, itemMessageId other = itemMessageId item ∧ other.isReasoning = false ∧
      ¬ MayLeave tools items frozenKeys ctx other

end

section
variable {tools : SelectionTools} {t : Transcript} {frozenKeys : List String}
  {ctx : SelectionContext F} {cfg : SelectionConfig} {hashOrder : HashOrder} {item : SelItem}

theorem mem_applyFullDrops : item ∈ applyFullDrops t.items
      (selectReductions tools t.items frozenKeys ctx cfg hashOrder) ↔
    item ∈ t.items ∧ ¬ Leaves tools t.items frozenKeys ctx cfg item := by
  rw [applyFullDrops, List.mem_filter, Bool.not_eq_true', ← Bool.not_eq_true, isFullyDropped_iff]

theorem isTool_of_leaves {items : List SelItem} (h : Leaves tools items frozenKeys ctx cfg item) :
    item.isTool = true := by
  obtain ⟨other, -, hshares, -⟩ := h
  rw [SelItem.sharesCall, Bool.and_eq_true, Bool.and_eq_true] at hshares
  exact hshares.1.1

theorem isTool_of_isReasoning (h : item.isReasoning = true) : item.isTool = false := by
  rw [SelItem.isReasoning] at h
  split at h
  · rename_i hkind
    rw [SelItem.isTool, hkind]
  · rename_i hkind
    rw [SelItem.isTool, hkind]
  · cases h

theorem sharesCall_iff {other : SelItem} {arcId : String} (htool : item.isTool = true)
    (harc : item.arcId = some arcId) :
    item.sharesCall other = true ↔ other.arcId = some arcId ∧ other.isTool = true := by
  rw [SelItem.sharesCall, htool, harc, Option.isSome_some, if_pos rfl, Bool.true_and,
    Bool.and_eq_true, beq_iff_eq, eq_comm (a := some arcId), and_comm]

/-- The blocks of one arc leave together. -/
theorem leaves_iff_of_arc {items : List SelItem} {other : SelItem} {arcId : String}
    (htool : item.isTool = true) (harc : item.arcId = some arcId) (hotherTool : other.isTool = true)
    (hotherArc : other.arcId = some arcId) :
    Leaves tools items frozenKeys ctx cfg item ↔ Leaves tools items frozenKeys ctx cfg other := by
  refine exists_congr fun block => and_congr_right fun _ => and_congr_left fun _ => ?_
  rw [sharesCall_iff htool harc, sharesCall_iff hotherTool hotherArc]

/-- What shares a call with a block that leaves, leaves. -/
theorem leaves_of_sharesCall {other : SelItem} (hitem : item ∈ t.items) (hother : other ∈ t.items)
    (hshares : item.sharesCall other = true)
    (h : Leaves tools t.items frozenKeys ctx cfg item) :
    Leaves tools t.items frozenKeys ctx cfg other := by
  have htool := isTool_of_leaves h
  cases harc : item.arcId with
  | some arcId =>
    obtain ⟨hotherArc, hotherTool⟩ := (sharesCall_iff htool harc).mp hshares
    exact (leaves_iff_of_arc htool harc hotherTool hotherArc).mp h
  | none =>
    rw [SelItem.sharesCall, harc, Bool.and_eq_true, if_neg (by simp), beq_iff_eq] at hshares
    exact t.eq_of_id_eq hitem hother hshares.2 ▸ h

end

/-! ## The stretches of one arc -/

section
variable {tools : SelectionTools} {t : Transcript} {frozenKeys : List String}
  {ctx : SelectionContext F} {cfg : SelectionConfig} {left right : SelItem} {arcId : String}

theorem mem_resultIds_foldl {frozen : List String} {l : List SelItem} {arc : ToolArc} {id : String}
    (h : id ∈ (l.foldl (ToolArc.absorb tools frozen) arc).resultIds) :
    id ∈ arc.resultIds ∨ ∃ item ∈ l, item.isResult = true ∧ item.id = id := by
  induction l generalizing arc with
  | nil => exact .inl h
  | cons item l ih =>
    rcases ih h with harc | ⟨other, hother, hresult⟩
    · rw [ToolArc.absorb] at harc
      split at harc
      · exact .inl harc
      · rename_i hkind
        rcases List.mem_append.mp harc with hmem | hmem
        · exact .inl hmem
        · refine .inr ⟨item, List.mem_cons_self .., ?_, (List.mem_singleton.mp hmem).symm⟩
          rw [SelItem.isResult, hkind]
      · exact .inl harc
    · exact .inr ⟨other, List.mem_cons_of_mem item hother, hresult⟩

/-- A block that a chosen arc drops is one of its own; a call is, where calls are dropped. -/
theorem arcId_of_droppedWithArc {item : SelItem} (hitem : item ∈ t.items)
    (h : DroppedWithArc tools t.items frozenKeys ctx cfg item.id) :
    ∃ arc, Expanded tools t.items frozenKeys ctx cfg arc ∧ item.arcId = some arc.arcId ∧
      (item.isCall = true → ∃ shape, ArcShape.isFull
        (resolveShape tools t.items frozenKeys arc.arcId shape) = true) := by
  obtain ⟨arc, shape, hexpanded, -, -, hblock⟩ := h
  have hgroup := (mem_activeArcs.mp hexpanded.active).1
  have hmem : item.id ∈ arc.blockIds :=
    List.mem_append.mpr (hblock.symm.imp_left And.left)
  obtain ⟨other, hother, harc, -, hid⟩ := (mem_blockIds hgroup).mp hmem
  rw [t.eq_of_id_eq hother hitem hid] at harc
  refine ⟨arc, hexpanded, harc, fun hcall => ⟨shape, ?_⟩⟩
  rcases hblock with hresult | ⟨-, hfull⟩
  · -- a call is no result
    rw [← (mem_groupArcs.mp hgroup).2, arcOf] at hresult
    rcases mem_resultIds_foldl hresult with hnil | ⟨other, hother, hresult, hid⟩
    · cases hnil
    · rw [t.eq_of_id_eq (mem_arcItems.mp hother).1 hitem hid, isResult_of_isCall hcall] at hresult
      cases hresult
  · exact hfull

theorem mayLeave_of_leaves {item : SelItem} (h : Leaves tools t.items frozenKeys ctx cfg item) :
    MayLeave tools t.items frozenKeys ctx item := by
  obtain ⟨other, hother, hshares, ⟨hpass, hpasses, hdrop⟩, -⟩ := h
  refine ⟨other, hother, hshares, hpass, hpasses, hdrop.imp_left fun hwith => ?_⟩
  obtain ⟨arc, hexpanded, harc, -⟩ := arcId_of_droppedWithArc hother hwith
  exact ⟨arc, hexpanded.active, harc⟩

theorem not_isFull_of_mem {shape : ArcShape}
    (h : arcId ∈ reasoningAdjacencyCollapseArcIds t.items) :
    (resolveShape tools t.items frozenKeys arcId shape).isFull = false := by
  rw [resolveShape.eq_def]
  dsimp only
  rw [List.contains_iff_mem.mpr h, Bool.true_or, if_pos rfl, if_pos rfl]
  cases shape <;> rfl

/-- **Where the check for single arcs covers the stretch, it stays.** -/
theorem stays_of_covered (hleft : left ∈ t.items) (hright : right ∈ t.items)
    (hlt : left.ordinal < right.ordinal)
    (hcovered : Covered t.items frozenKeys ctx left right arcId) :
    ∃ item ∈ t.items, left.Between right item ∧ ¬ Leaves tools t.items frozenKeys ctx cfg item := by
  obtain ⟨separator, hseparator, hbetween, -, -⟩ := hcovered.separator
  refine ⟨separator, hseparator, hbetween, fun hleaves => ?_⟩
  obtain ⟨harc, htool⟩ := hcovered.alone separator hseparator hbetween
  have hfound := mem_collapseArcIds hleft hright hlt hcovered.assistants.1 hcovered.assistants.2
    hcovered.reasoning hcovered.alone hcovered.separator hcovered.leftOutside hcovered.rightOutside
  obtain ⟨block, hblock, hshares, hdropped, htakes⟩ := hleaves
  obtain ⟨hblockArc, hblockTool⟩ := (sharesCall_iff htool harc).mp hshares
  -- what is dropped of the arc is dropped with it, and so is no call
  have hcallStays : ∀ item ∈ t.items, item.arcId = some arcId → item.isTool = true →
      IsDropped tools t.items frozenKeys ctx cfg item.id →
      item.isCall = false ∧ ∃ arc, Expanded tools t.items frozenKeys ctx cfg arc ∧
        arc.arcId = arcId := by
    intro item hitem hitemArc hitemTool hitemDropped
    rcases hitemDropped.2.2 with hwith | hasked
    · obtain ⟨arc, hexpanded, harcId, hcall⟩ := arcId_of_droppedWithArc hitem hwith
      rw [hitemArc, Option.some.injEq] at harcId
      subst harcId
      refine ⟨Bool.eq_false_iff.mpr fun hisCall => ?_, arc, hexpanded, rfl⟩
      obtain ⟨shape, hfull⟩ := hcall hisCall
      rw [not_isFull_of_mem hfound] at hfull
      cases hfull
    · exact absurd hasked (hcovered.unasked item hitem hitemArc hitemTool)
  obtain ⟨hblockCall, arc, hexpanded, rfl⟩ :=
    hcallStays block hblock hblockArc hblockTool hdropped
  obtain ⟨call, hfirst, hunprotected⟩ := hcovered.callStands separator hseparator hbetween
  have hsame : firstCall t.items block = firstCall t.items separator := by
    refine congrArg (fun p => t.items.find? p) (funext fun other => ?_)
    rw [Bool.eq_iff_iff, Bool.and_eq_true, Bool.and_eq_true,
      sharesCall_iff hblockTool hblockArc, sharesCall_iff htool harc]
  have hcallMem := List.mem_of_find?_eq_some hfirst
  have hcallIs := List.find?_some hfirst
  rw [Bool.and_eq_true, sharesCall_iff htool harc] at hcallIs
  obtain ⟨hisCall, hcallArc, hcallTool⟩ := hcallIs
  have hnamed : IsNamed tools t.items frozenKeys ctx cfg call.id := by
    refine ⟨hdropped.1, (passes_iff hexpanded.active
      ⟨hcallMem, hcallArc, hcallTool⟩).mpr hunprotected, .inl ⟨arc, hexpanded, ?_, ?_⟩⟩
    · exact (mem_blockIds (mem_activeArcs.mp hexpanded.active).1).mpr
        ⟨call, hcallMem, hcallArc, hcallTool, rfl⟩
    · exact not_frozen_of_active hexpanded.active hcallMem hcallArc
  rcases htakes with hcall | hall
  · rw [hblockCall] at hcall
    cases hcall
  · have hcallDropped := hall call (hsame.trans hfirst) hnamed
    rw [(hcallStays call hcallMem hcallArc hcallTool hcallDropped).1] at hisCall
    cases hisCall

end

/-! ## Messages of reasoning alone -/

section
variable {tools : SelectionTools} {t : Transcript} {frozenKeys : List String}
  {ctx : SelectionContext F} {cfg : SelectionConfig} {item : SelItem} {arcId : String}

theorem foldl_absorb_reasoning {l : List SelItem} (message : ReasoningMessageShape)
    (hl : ∀ block ∈ l, block.isReasoning = true ∨
      (block.isTool = true ∧ block.providerExecuted = false ∧ block.arcId ≠ none)) :
    (l.foldl absorb message).hasDurableNonToolSibling = message.hasDurableNonToolSibling ∧
      (l.foldl absorb message).hasReasoning = (message.hasReasoning || l.any SelItem.isReasoning) ∧
      ∀ arcId, arcId ∈ (l.foldl absorb message).toolArcIds ↔
        arcId ∈ message.toolArcIds ∨
          ∃ block ∈ l, block.isTool = true ∧ block.arcId = some arcId := by
  induction l generalizing message with
  | nil => exact ⟨rfl, (Bool.or_false _).symm, fun arcId => by simp⟩
  | cons block l ih =>
    obtain ⟨hblock, hl⟩ := List.forall_mem_cons.mp hl
    obtain ⟨hdurable, hreasoning, harcs⟩ := ih (message.absorb block) hl
    rw [List.foldl_cons, List.any_cons]
    rcases hblock with hreason | ⟨htool, hclient, harc⟩
    · have habsorb : message.absorb block = { message with hasReasoning := true } := by
        rw [absorb, if_pos hreason]
      rw [habsorb] at hdurable hreasoning harcs ⊢
      refine ⟨hdurable, ?_, fun arcId => ?_⟩
      · rw [hreasoning, hreason]
        simp
      · rw [harcs, List.exists_mem_cons_iff, isTool_of_isReasoning hreason]
        simp
    · obtain ⟨blockArc, hblockArc⟩ := Option.ne_none_iff_exists'.mp harc
      have hnot : block.isReasoning = false := by
        by_contra hreason
        rw [isTool_of_isReasoning (Bool.not_eq_false _ ▸ hreason)] at htool
        cases htool
      have habsorb : message.absorb block =
          { message with toolArcIds := message.toolArcIds ++ [blockArc] } := by
        rw [absorb, if_neg (by rw [hnot]; exact Bool.false_ne_true),
          if_pos (by rw [htool, hclient]; rfl), hblockArc]
      rw [habsorb] at hdurable hreasoning harcs ⊢
      refine ⟨hdurable, ?_, fun arcId => ?_⟩
      · rw [hreasoning, hnot, Bool.false_or]
      · rw [harcs, List.exists_mem_cons_iff, List.mem_append, List.mem_singleton, htool, hblockArc,
          Option.some.injEq, eq_comm (a := arcId), or_assoc]
        simp

/-- With nothing but reasoning beside them, the arcs of a message are not reduced. -/
theorem mem_ineligible {items : List SelItem} {reasoning : SelItem} (hreasoning : reasoning ∈ items)
    (hisReasoning : reasoning.isReasoning = true) {mid : String}
    (hmid : itemMessageId reasoning = some mid)
    (hall : ∀ block ∈ items, itemMessageId block = some mid → block.isReasoning = true ∨
      (block.isTool = true ∧ block.providerExecuted = false ∧ block.arcId ≠ none))
    (hitem : item ∈ items) (hitemMid : itemMessageId item = some mid)
    (htool : item.isTool = true) (harc : item.arcId = some arcId) :
    arcId ∈ reasoningIneligibleArcIds items := by
  have hkeyed : reasoning ∈ keyed itemMessageId mid items := mem_keyed.mpr ⟨hreasoning, hmid⟩
  obtain ⟨first, rest, hitems⟩ := List.exists_cons_of_ne_nil (List.ne_nil_of_mem hkeyed)
  have hget : (groupBy itemMessageId (fun _ _ => ({} : ReasoningMessageShape))
      absorb items).get mid =
      some ((keyed itemMessageId mid items).foldl absorb {}) := by
    rw [get_groupBy, hitems]
    rfl
  obtain ⟨hdurable, hhas, harcs⟩ := foldl_absorb_reasoning {} fun block hblock =>
    hall block (mem_keyed.mp hblock).1 (mem_keyed.mp hblock).2
  rw [reasoningIneligibleArcIds, List.mem_flatMap]
  refine ⟨_, List.mem_filter.mpr ⟨List.mem_map_of_mem (SortedMap.get_eq_some.mp hget), ?_⟩, ?_⟩
  · rw [hdurable, hhas, Bool.false_or, List.any_eq_true.mpr ⟨reasoning, hkeyed, hisReasoning⟩]
    rfl
  · exact (harcs arcId).mpr (.inr ⟨item, mem_keyed.mpr ⟨hitem, hitemMid⟩, htool, harc⟩)

theorem stays_of_ineligible (harc : item.arcId = some arcId)
    (h : arcId ∈ reasoningIneligibleArcIds t.items) :
    ¬ Leaves tools t.items frozenKeys ctx cfg item := by
  intro hleaves
  have htool := isTool_of_leaves hleaves
  obtain ⟨other, hother, hshares, hdropped, -⟩ := hleaves
  have heligible := hdropped.2.1.1
  rw [notIneligible, get_arcByBlockId t.toTail hother, ((sharesCall_iff htool harc).mp hshares).1,
    Option.all_some, List.contains_iff_mem.mpr h] at heligible
  cases heligible

/-- **With reasoning something else stays** in the messages of blocks that the client executes. -/
theorem company_of_client (hsafe : ReasoningSafe t.items) (hitem : item ∈ t.items)
    (hrole : item.messageRole = .assistant) (hreasoning : item.isReasoning = true)
    (hclient : ¬ ∃ block ∈ t.items, itemMessageId block = itemMessageId item ∧
      block.isTool = true ∧ (block.providerExecuted = true ∨ block.arcId = none)) :
    ∃ other ∈ t.items, itemMessageId other = itemMessageId item ∧ other.isReasoning = false ∧
      ¬ Leaves tools t.items frozenKeys ctx cfg other := by
  by_cases hother : ∃ other ∈ t.items, itemMessageId other = itemMessageId item ∧
      other.isReasoning = false ∧ other.isTool = false
  · obtain ⟨other, hmem, hmid, hnot, htool⟩ := hother
    refine ⟨other, hmem, hmid, hnot, fun hleaves => ?_⟩
    rw [isTool_of_leaves hleaves] at htool
    cases htool
  · obtain ⟨mid, hmid⟩ := Option.isSome_iff_exists.mp (t.named item hitem)
    obtain ⟨other, hmem, hotherMid, hnot⟩ := hsafe.accompanied item hitem hrole hreasoning
    have hall : ∀ block ∈ t.items, itemMessageId block = some mid → block.isReasoning = true ∨
        (block.isTool = true ∧ block.providerExecuted = false ∧ block.arcId ≠ none) := by
      intro block hblock hblockMid
      rw [← hmid] at hblockMid
      rcases Bool.eq_false_or_eq_true block.isReasoning with hreason | hnotReason
      · exact .inl hreason
      · rcases Bool.eq_false_or_eq_true block.isTool with htool | hnotTool
        · refine .inr ⟨htool, Bool.eq_false_iff.mpr fun hprovider => ?_, fun hnone => ?_⟩
          · exact hclient ⟨block, hblock, hblockMid, htool, .inl hprovider⟩
          · exact hclient ⟨block, hblock, hblockMid, htool, .inr hnone⟩
        · exact absurd ⟨block, hblock, hblockMid, hnotReason, hnotTool⟩ hother
    have hmidOther := hotherMid.trans hmid
    rcases hall other hmem hmidOther with hreason | ⟨htool, -, harc⟩
    · rw [hnot] at hreason
      cases hreason
    · obtain ⟨arcId, harcId⟩ := Option.ne_none_iff_exists'.mp harc
      exact ⟨other, hmem, hotherMid, hnot, stays_of_ineligible harcId
        (mem_ineligible hitem hreasoning hmid hall hmem hmidOther htool harcId)⟩

end

/-! ## The drops of a pass -/

def assistantBlock (id : String) (ordinal : Nat) (kind : SelKind) (arcId : Option String) :
    SelItem :=
  { id, ordinal, messageRole := .assistant, kind, providerExecuted := false, byteSize := 10,
    tokenCount := none, arcId }

def bashCall (ordinal : Nat) (id : String) : SelItem :=
  assistantBlock id ordinal (.toolCall "bash" (.object [])) (some id)

def bashResult (id : String) (ordinal : Nat) (arcId : String) : SelItem :=
  { id, ordinal, messageRole := .nonAssistant, kind := .toolResult "bash",
    providerExecuted := false, byteSize := 10, tokenCount := none, arcId := some arcId }

/-- As many calls of one message as keep their skeletons. -/
def newerCalls (ordinal : Nat) (message : String) : List SelItem :=
  (List.range recentToolSkeletonWindow).map fun index => bashCall ordinal (message ++ toString index)

/-- Two old calls behind reasoning, a message with the results of both, and newer calls. -/
def jointSeparator : Transcript where
  items :=
    [assistantBlock "m1#0" 1 .reasoning none, assistantBlock "m1#1" 1 .text none,
      bashCall 1 "m1#2", bashCall 1 "m1#3",
      bashResult "m2#0" 2 "m1#2", bashResult "m2#1" 2 "m1#3"] ++ newerCalls 3 "m3#"
  distinct := by decide +kernel
  named := by decide +kernel
  together := by decide +kernel
  separate := by decide +kernel

/-- A pass that takes the batch by age. -/
def batchContext (lastExecuteOrdinal : Nat) : SelectionContext ℚ :=
  { quietContext [] with
    lastExecuteOrdinal
    schedulerPressureExecute := true
    passAlreadyBusting := true }

instance (left right item : SelItem) : Decidable (left.Between right item) :=
  inferInstanceAs (Decidable (_ ∧ _))

instance (items : List SelItem) (left right : SelItem) : Decidable (Adjacent items left right) :=
  inferInstanceAs (Decidable (_ ∧ _))

theorem jointSeparator_safe : ReasoningSafe jointSeparator.items where
  apart := by decide +kernel
  accompanied := by decide +kernel

/-- Two old calls, the first behind reasoning, each with a message of its own results. -/
def singleSeparators : Transcript where
  items :=
    [assistantBlock "m1#0" 1 .reasoning none, assistantBlock "m1#1" 1 .text none,
      bashCall 1 "m1#2", bashResult "m2#0" 2 "m1#2",
      assistantBlock "m3#0" 3 .text none, bashCall 3 "m3#1", bashResult "m4#0" 4 "m3#1"] ++
      newerCalls 5 "m5#"
  distinct := by decide +kernel
  named := by decide +kernel
  together := by decide +kernel
  separate := by decide +kernel

theorem keepsApart_singleSeparators :
    KeepsApart plainTools singleSeparators.items [] (batchContext 4) := by
  have hpairs : ∀ left ∈ singleSeparators.items, ∀ right ∈ singleSeparators.items,
      left.ordinal < right.ordinal → left.messageRole = .assistant →
      right.messageRole = .assistant → left.isReasoning = true ∨ right.isReasoning = true →
        left = assistantBlock "m1#0" 1 .reasoning none ∧ 3 ≤ right.ordinal := by
    decide +kernel
  have hcalls : ∀ item ∈ singleSeparators.items,
      (assistantBlock "m1#0" 1 .reasoning none).Between (assistantBlock "m3#0" 3 .text none) item →
        firstCall singleSeparators.items item = some (bashCall 1 "m1#2") := by
    decide +kernel
  intro left hleft right hright hlt hleftRole hrightRole hreasoning
  obtain ⟨rfl, hge⟩ := hpairs left hleft right hright hlt hleftRole hrightRole hreasoning
  refine .inr ⟨_, hleft, assistantBlock "m3#0" 3 .text none, by decide +kernel, "m1#2", le_rfl,
    hge, by decide, ?_⟩
  exact
    { assistants := ⟨rfl, rfl⟩
      reasoning := .inl rfl
      leftOutside := by decide
      rightOutside := by decide
      alone := by decide +kernel
      separator := by decide +kernel
      unasked := fun item _ _ _ hasked => absurd hasked.1 List.not_mem_nil
      callStands := fun item hitem hbetween => ⟨_, hcalls item hitem hbetween, rfl⟩ }

theorem keepsCompany_singleSeparators :
    KeepsCompany plainTools singleSeparators.items [] (batchContext 4) := by
  have hclient : ∀ block ∈ singleSeparators.items, block.isTool = true →
      ¬ (block.providerExecuted = true ∨ block.arcId = none) := by
    decide +kernel
  rintro item _ _ _ ⟨block, hblock, -, htool, hprovider⟩
  exact absurd hprovider (hclient block hblock htool)

end MagicContext.Selection
