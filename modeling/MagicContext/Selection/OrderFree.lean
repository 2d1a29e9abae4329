import Mathlib.Algebra.Order.BigOperators.Group.List
import MagicContext.Selection.Reordered

/-!
# The selection without an order

The messages, the arcs that only reasoning needs, and the fixed floor are the same for items in
another order as well.  So is what is selected, when nothing is read off the order of the items of
an arc or of a message.

## What is here

* `MessageView` — what the check for single arcs sees of a message.
* `WholeExact` — doubles are exact on whole numbers that fit their mantissa.
* `alike_gather` — **what is gathered agrees**, for items in another order.
* `selectReductionsIn_orderFree` — **what is selected is the same**.
* `selectReductionsIn_forgets` — a call after its result.
-/

namespace MagicContext.Selection

open Permuted (Reordering)
open AdjacencyMessageShape

/-! ## Messages -/

/-- What the check for single arcs sees of a message. -/
structure MessageView where
  mid : String
  ordinal : Nat
  role : SelMessageRole
  hasReasoning : Bool
  removedBy : Option String
  separator : Bool

def AdjacencyMessageShape.view (message : AdjacencyMessageShape) : MessageView where
  mid := message.mid
  ordinal := message.ordinal
  role := message.role
  hasReasoning := message.hasReasoning
  removedBy := message.fullyRemovedByArc
  separator := message.isResultSeparator

def MessageView.Before (a b : MessageView) : Prop :=
  a.ordinal < b.ordinal ∨ (a.ordinal = b.ordinal ∧ a.mid ≤ b.mid)

instance : DecidableRel MessageView.Before := fun _ _ =>
  inferInstanceAs (Decidable (_ ∨ (_ ∧ _)))

section
variable {messages messages' : List AdjacencyMessageShape}

section
variable (h : messages.map view = messages'.map view)
include h

theorem removableByArc_congr : removableByArc messages = removableByArc messages' := by
  have hview : ∀ messages : List AdjacencyMessageShape, removableByArc messages =
      groupBy (fun entry : MessageView × Nat => entry.1.removedBy) (fun _ _ => [])
        (fun indexes entry => indexes ++ [entry.2])
        (messages.map view).zipIdx := by
    intro messages
    rw [List.zipIdx_map, groupBy, List.foldl_map]
    rfl
  rw [hview, h, ← hview]

theorem hazardousRun_congr (run : List Nat) :
    hazardousRun messages run = hazardousRun messages' run := by
  have hget : ∀ index : Nat, (messages[index]?).map view = (messages'[index]?).map view := by
    intro index
    rw [← List.getElem?_map, h, List.getElem?_map]
  have hseparator : ∀ index : Nat, (messages[index]?).any isResultSeparator =
      (messages'[index]?).any isResultSeparator := by
    intro index
    have hany := congrArg (fun view : Option MessageView => view.any MessageView.separator)
      (hget index)
    rw [Option.any_map, Option.any_map] at hany
    exact hany
  rw [hazardousRun.eq_def, hazardousRun.eq_def]
  cases run.head? with
  | none => rfl
  | some first =>
    cases run.getLast? with
    | none => rfl
    | some last =>
      have hleft : ((if first = 0 then none else messages[first - 1]?).map
          view) = (if first = 0 then none else messages'[first - 1]?).map
            view := by
        split
        · rfl
        · exact hget _
      have hright := hget (last + 1)
      dsimp only
      revert hleft hright
      generalize (if first = 0 then none else messages[first - 1]?) = left
      generalize (if first = 0 then none else messages'[first - 1]?) = left'
      generalize messages[last + 1]? = right
      generalize messages'[last + 1]? = right'
      intro hleft hright
      cases left <;> cases left' <;> cases right <;> cases right' <;>
        simp_all [view]

/-- The arcs that are found are those of the views. -/
theorem mem_collapseArcIds_congr {orders orders' : HashOrders} (arcId : String) :
    arcId ∈ collapseArcIds orders messages ↔ arcId ∈ collapseArcIds orders' messages' := by
  have hrun : hazardousRun messages = hazardousRun messages' := funext (hazardousRun_congr h)
  simp only [collapseArcIds, List.mem_map, List.mem_filter, Reordering.mem_order, hrun,
    removableByArc_congr h]

end

end

section
variable {l l' : List SelItem}

/-- The ordinal of a message is its least. -/
theorem ordinal_foldl_absorb_least (l : List SelItem) (message : AdjacencyMessageShape) :
    (l.foldl absorb message).ordinal ≤ message.ordinal ∧
    (∀ item ∈ l, (l.foldl absorb message).ordinal ≤ item.ordinal) ∧
    ((l.foldl absorb message).ordinal = message.ordinal ∨
      ∃ item ∈ l, (l.foldl absorb message).ordinal = item.ordinal) := by
  induction l generalizing message with
  | nil => exact ⟨le_rfl, fun _ h => absurd h List.not_mem_nil, Or.inl rfl⟩
  | cons item l ih =>
    obtain ⟨hstart, hall, hsome⟩ := ih (message.absorb item)
    have hordinal : (message.absorb item).ordinal = min message.ordinal item.ordinal := rfl
    rw [hordinal] at hstart hsome
    rw [List.foldl_cons]
    refine ⟨by omega, List.forall_mem_cons.mpr ⟨by omega, hall⟩, ?_⟩
    rcases hsome with hmin | ⟨other, hother, heq⟩
    · rcases Nat.le_total message.ordinal item.ordinal with hle | hle
      · exact Or.inl (hmin.trans (Nat.min_eq_left hle))
      · exact Or.inr ⟨item, List.mem_cons_self .., hmin.trans (Nat.min_eq_right hle)⟩
    · exact Or.inr ⟨other, List.mem_cons_of_mem item hother, heq⟩

theorem view_eq {a b : AdjacencyMessageShape} (hmid : a.mid = b.mid)
    (hordinal : a.ordinal = b.ordinal) (hrole : a.role = b.role)
    (hreasoning : a.hasReasoning = b.hasReasoning) (hitems : a.items.Perm b.items)
    (hne : a.items ≠ []) : a.view = b.view := by
  have hremoved : a.fullyRemovedByArc = b.fullyRemovedByArc := by
    refine Option.ext fun arcId => ?_
    rw [fullyRemovedByArc_iff hne, fullyRemovedByArc_iff fun hnil => hne (hnil ▸ hitems).eq_nil]
    exact ⟨fun h item hitem => h item (hitems.mem_iff.mpr hitem),
      fun h item hitem => h item (hitems.mem_iff.mp hitem)⟩
  have hseparator : a.isResultSeparator = b.isResultSeparator := by
    rw [isResultSeparator, isResultSeparator, hrole, hitems.any_eq]
  rw [view, view, hmid, hordinal, hrole, hreasoning, hremoved, hseparator]

/-- The message that starts with an item. -/
def messageFrom (mid : String) (first : SelItem) (l : List SelItem) : AdjacencyMessageShape :=
  l.foldl AdjacencyMessageShape.absorb
    { mid, ordinal := first.ordinal, role := first.messageRole }

/-- **A message looks the same** whichever of its items comes first. -/
theorem view_messageFrom (h : l.Perm l') {first first' : SelItem} (hfirst : first ∈ l)
    (hfirst' : first' ∈ l') (hrole : first.messageRole = first'.messageRole) (mid : String) :
    (messageFrom mid first l).view = (messageFrom mid first' l').view := by
  have hleast : ∀ {l : List SelItem} {first : SelItem}, first ∈ l →
      (∀ item ∈ l, (messageFrom mid first l).ordinal ≤ item.ordinal) ∧
        ∃ item ∈ l, (messageFrom mid first l).ordinal = item.ordinal := by
    intro l first hfirst
    obtain ⟨-, hall, hsome⟩ := ordinal_foldl_absorb_least l
      { mid, ordinal := first.ordinal, role := first.messageRole }
    exact ⟨hall, hsome.elim (fun heq => ⟨first, hfirst, heq⟩) id⟩
  obtain ⟨hall, item, hitem, heq⟩ := hleast hfirst
  obtain ⟨hall', item', hitem', heq'⟩ := hleast hfirst'
  refine view_eq ?_ ?_ ?_ ?_ ?_ ?_
  · rw [messageFrom, messageFrom, mid_foldl_absorb, mid_foldl_absorb]
  · have hle := hall item' (h.mem_iff.mpr hitem')
    have hle' := hall' item (h.mem_iff.mp hitem)
    omega
  · rw [messageFrom, messageFrom, role_foldl_absorb, role_foldl_absorb, hrole]
  · rw [messageFrom, messageFrom, hasReasoning_foldl_absorb, hasReasoning_foldl_absorb, h.any_eq]
  · rw [messageFrom, messageFrom, items_foldl_absorb, items_foldl_absorb]
    exact h.append_left _
  · rw [messageFrom, items_foldl_absorb]
    exact List.ne_nil_of_mem (List.mem_append_right _ hfirst)

end

section
variable {tools : SelectionTools} {items items' : List SelItem} {orders orders' : HashOrders}

theorem adjacencyMessagesIn_eq (orders : HashOrders) (items : List SelItem) :
    adjacencyMessagesIn orders items = adjacencyMessages items := by
  have := before_total
  have := before_trans
  refine Permuted.insertionSort_perm (fun a ha b hb hab hba => ?_) (orders.messages.perm _)
  have hmem : ∀ {message}, message ∈ orders.messages.order ((groupBy itemMessageId
      (fun mid item => ({ mid, ordinal := item.ordinal, role := item.messageRole } :
        AdjacencyMessageShape)) absorb items).entries.map Prod.snd) →
      message ∈ adjacencyMessages items := by
    intro message hmessage
    rw [adjacencyMessages, (List.perm_insertionSort _ _).mem_iff]
    exact (Reordering.mem_order _).mp hmessage
  have hmid : a.mid = b.mid := name_eq_of_behind hab hba
  obtain ⟨first, hfirst, hmakes⟩ := mem_adjacencyMessages.mp (hmem ha)
  obtain ⟨first', hfirst', hmakes'⟩ := mem_adjacencyMessages.mp (hmem hb)
  rw [hmid, hfirst'] at hfirst
  calc a = (keyed itemMessageId a.mid items).foldl absorb
        { mid := a.mid, ordinal := first.ordinal, role := first.messageRole } := hmakes.symm
    _ = (keyed itemMessageId b.mid items).foldl absorb
        { mid := b.mid, ordinal := first'.ordinal, role := first'.messageRole } := by
      rw [hmid, Option.some.inj hfirst]
    _ = b := hmakes'

/-- **The messages look the same** for items in another order. -/
theorem adjacencyMessages_view (hfree : OrderFree tools items) (h : items.Perm items') :
    (adjacencyMessages items).map view = (adjacencyMessages items').map view := by
  have hsort : ∀ messages : List AdjacencyMessageShape,
      (messages.insertionSort Before).map view =
        (messages.map view).insertionSort MessageView.Before :=
    fun messages => List.map_insertionSort _ _ _ _ fun _ _ _ _ => Iff.rfl
  rw [adjacencyMessages, adjacencyMessages, hsort, hsort, map_entries_map, map_entries_map]
  congr 3
  refine map_groupBy_perm h fun mid first hfirst first' hfirst' => ?_
  refine view_messageFrom (h.filter _) hfirst hfirst' ?_ mid
  obtain ⟨hmem, hmid⟩ := mem_keyed.mp hfirst
  obtain ⟨hmem', hmid'⟩ := mem_keyed.mp hfirst'
  exact hfree.roles first hmem first' (h.mem_iff.mpr hmem') (by rw [hmid]; rfl)
    (hmid.trans hmid'.symm)

/-! ## What depends on the order -/

theorem arcOf_append_singleton {frozenKeys : List String} {item : SelItem} {arcId : String}
    (harc : item.arcId = some arcId) (l : List SelItem) :
    arcOf tools frozenKeys (l ++ [item]) arcId =
      (arcOf tools frozenKeys l arcId).absorb tools frozenKeys item := by
  rw [arcOf, arcItems, keyed, List.filter_append, List.filter_cons_of_pos (by simpa using harc),
    List.filter_nil, List.foldl_append]
  rfl

/-- Arcs that agree have one normal form for each id. -/
theorem arcOf_canon_of_groupArcs {frozenKeys : List String}
    (h : (groupArcs tools items frozenKeys).map ToolArc.canon =
      (groupArcs tools items' frozenKeys).map ToolArc.canon) {arcId : String}
    (hne : arcItems items arcId ≠ []) :
    (arcOf tools frozenKeys items arcId).canon = (arcOf tools frozenKeys items' arcId).canon := by
  have hmem : arcOf tools frozenKeys items arcId ∈ groupArcs tools items frozenKeys := by
    rw [mem_groupArcs, arcId_arcOf]
    exact ⟨hne, rfl⟩
  have hcanon := List.mem_map_of_mem (f := ToolArc.canon) hmem
  rw [h] at hcanon
  obtain ⟨arc, harc, heq⟩ := List.mem_map.mp hcanon
  have hid : arc.arcId = arcId := by
    have hids := congrArg ToolArc.arcId heq
    rwa [canon_arcId, canon_arcId, arcId_arcOf] at hids
  rw [← heq, ← (mem_groupArcs.mp harc).2, hid]

theorem role_of_cons {item : SelItem} {mid : String} (hmid : itemMessageId item = some mid)
    (l : List SelItem) : ∃ message ∈ adjacencyMessages (item :: l), message.mid = mid ∧
      ∀ other ∈ adjacencyMessages (item :: l), other.mid = mid → other.role = item.messageRole := by
  have hkeyed : keyed itemMessageId mid (item :: l) = item :: keyed itemMessageId mid l := by
    rw [keyed_cons, if_pos hmid]
  refine ⟨messageFrom mid item (keyed itemMessageId mid (item :: l)), ?_, ?_, ?_⟩
  · rw [mem_adjacencyMessages, messageFrom, mid_foldl_absorb]
    exact ⟨item, by rw [hkeyed]; rfl, rfl⟩
  · rw [messageFrom, mid_foldl_absorb]
  · intro other hother heq
    obtain ⟨first, hfirst, hmakes⟩ := mem_adjacencyMessages.mp hother
    rw [heq, hkeyed, List.head?_cons, Option.some.injEq] at hfirst
    rw [← hmakes, role_foldl_absorb, hfirst]

/-- **What is gathered of arcs and messages is the same in every order** exactly when results follow
their calls and messages have one role. -/
theorem orderFree_iff (hpaired : Paired items) (frozenKeys : List String) :
    OrderFree tools items ↔ ∀ items', items.Perm items' →
      (groupArcs tools items frozenKeys).map ToolArc.canon =
          (groupArcs tools items' frozenKeys).map ToolArc.canon ∧
        (adjacencyMessages items).map view = (adjacencyMessages items').map view := by
  refine ⟨fun hfree items' h => ⟨groupArcs_canon hpaired hfree h, adjacencyMessages_view hfree h⟩,
    fun h => ⟨?_, ?_⟩⟩
  · intro call hcall item hitem harcs harc callName input hkind
    obtain ⟨arcId, hcallArc⟩ := Option.isSome_iff_exists.mp harcs
    have hne : arcItems items arcId ≠ [] :=
      List.ne_nil_of_mem (mem_arcItems.mpr ⟨hcall, hcallArc⟩)
    -- the arc with the call last, and with the item last
    have hlast : ∀ {last : SelItem}, last ∈ items → last.arcId = some arcId →
        (arcOf tools frozenKeys items arcId).canon =
          ((arcOf tools frozenKeys (items.erase last) arcId).absorb tools frozenKeys
            last).canon := by
      intro last hlast hlastArc
      have hperm : items.Perm (items.erase last ++ [last]) :=
        (List.perm_cons_erase hlast).trans (List.perm_append_singleton ..).symm
      rw [← arcOf_append_singleton hlastArc]
      exact arcOf_canon_of_groupArcs (h _ hperm).1 hne
    have heq := (hlast hcall hcallArc).symm.trans (hlast hitem (harc.trans hcallArc))
    generalize arcOf tools frozenKeys (items.erase item) arcId = withoutItem at heq
    have hprovider := congrArg ToolArc.providerExecuted heq
    have hname := congrArg ToolArc.name heq
    have hdedup := congrArg ToolArc.dedupName heq
    simp only [ToolArc.canon, ToolArc.absorb, hkind] at hprovider hname hdedup
    refine ⟨fun hresult hitemProvider => ?_, fun toolName hitemKind hunnamed => ?_⟩
    · rw [SelItem.isResult] at hresult
      split at hresult
      · rename_i toolName hitemKind
        rw [hitemKind] at hprovider
        rw [hprovider, hitemProvider]
        exact Bool.or_true _
      · cases hresult
    · rw [hitemKind] at hname hdedup
      dsimp only at hname hdedup
      rw [hunnamed] at hname
      by_cases hempty : withoutItem.name = ""
      · rw [if_pos (beq_iff_eq.mpr hempty)] at hdedup
        exact hdedup.symm
      · rw [if_neg (by simpa using hempty)] at hname
        exact absurd hname.symm hempty
  · intro a ha b hb hnamed hmids
    obtain ⟨mid, hmid⟩ := Option.isSome_iff_exists.mp hnamed
    have hviews := (h _ (List.perm_cons_erase ha)).2.symm.trans (h _ (List.perm_cons_erase hb)).2
    obtain ⟨message, hmessage, hmessageMid, hroles⟩ := role_of_cons hmid (items.erase a)
    obtain ⟨-, -, -, hroles'⟩ := role_of_cons (hmids ▸ hmid) (items.erase b)
    have hview := List.mem_map_of_mem (f := view) hmessage
    rw [hviews] at hview
    obtain ⟨message', hmessage', heq⟩ := List.mem_map.mp hview
    have hmid' : message'.mid = mid := (congrArg MessageView.mid heq).trans hmessageMid
    have hrole : message'.role = message.role := congrArg MessageView.role heq
    rw [← hroles message hmessage hmessageMid, ← hroles' message' hmessage' hmid', hrole]

/-! ## Messages of reasoning alone -/

/-- Messages that name the same arcs. -/
structure ReasoningMessageShape.Agrees (a b : ReasoningMessageShape) : Prop where
  hasReasoning : a.hasReasoning = b.hasReasoning
  hasDurableNonToolSibling : a.hasDurableNonToolSibling = b.hasDurableNonToolSibling
  toolArcIds : a.toolArcIds.Perm b.toolArcIds

/-- The arc that an item names in its message. -/
def namedArc (item : SelItem) : List String :=
  if item.isReasoning then []
  else if item.isTool && !item.providerExecuted then item.arcId.toList
  else []

/-- An item that stays in its message and is no reasoning. -/
def isDurable (item : SelItem) : Bool :=
  !item.isReasoning && !(item.isTool && !item.providerExecuted && item.arcId.isSome)

theorem reasoning_absorb (message : ReasoningMessageShape) (item : SelItem) :
    message.absorb item =
      { hasReasoning := message.hasReasoning || item.isReasoning
        hasDurableNonToolSibling := message.hasDurableNonToolSibling || isDurable item
        toolArcIds := message.toolArcIds ++ namedArc item } := by
  rw [ReasoningMessageShape.absorb, isDurable, namedArc]
  cases item.isReasoning with
  | true => simp
  | false =>
    cases item.isTool && !item.providerExecuted with
    | false => simp
    | true => cases item.arcId <;> simp

theorem reasoning_foldl_perm {l l' : List SelItem} (h : l.Perm l') :
    (l.foldl ReasoningMessageShape.absorb {}).Agrees
      (l'.foldl ReasoningMessageShape.absorb {}) := by
  refine Permuted.foldl_perm (fun message => ⟨rfl, rfl, List.Perm.refl _⟩) (fun h h' => ?_)
    (fun item h => ?_) (fun message a b => ?_) h ⟨rfl, rfl, List.Perm.refl _⟩
  · exact ⟨h.hasReasoning.trans h'.hasReasoning,
      h.hasDurableNonToolSibling.trans h'.hasDurableNonToolSibling,
      h.toolArcIds.trans h'.toolArcIds⟩
  · rw [reasoning_absorb, reasoning_absorb]
    exact ⟨congrArg (· || item.isReasoning) h.hasReasoning,
      congrArg (· || isDurable item) h.hasDurableNonToolSibling, h.toolArcIds.append_right _⟩
  · simp only [reasoning_absorb]
    refine ⟨Bool.or_right_comm .., Bool.or_right_comm .., ?_⟩
    rw [List.append_assoc, List.append_assoc]
    exact List.perm_append_comm.append_left _

/-- The arcs of the messages in which they are the only thing beside reasoning. -/
theorem mem_reasoningIneligibleArcIdsIn {arcId : String} :
    arcId ∈ reasoningIneligibleArcIdsIn orders items ↔
      ∃ mid, (keyed itemMessageId mid items ≠ []) ∧
        let message := (keyed itemMessageId mid items).foldl ReasoningMessageShape.absorb {}
        message.hasReasoning = true ∧ message.hasDurableNonToolSibling = false ∧
          arcId ∈ message.toolArcIds := by
  rw [reasoningIneligibleArcIdsIn, List.mem_flatMap]
  simp only [List.mem_filter, Reordering.mem_order, Bool.and_eq_true, Bool.not_eq_true']
  constructor
  · rintro ⟨message, ⟨hmem, hhas, hdurable⟩, harc⟩
    obtain ⟨⟨mid, message⟩, hentry, rfl⟩ := List.mem_map.mp hmem
    rw [← SortedMap.get_eq_some, get_groupBy, Option.map_eq_some_iff] at hentry
    obtain ⟨first, hfirst, rfl⟩ := hentry
    exact ⟨mid, List.ne_nil_of_mem (List.mem_of_mem_head? hfirst), hhas, hdurable, harc⟩
  · rintro ⟨mid, hne, hhas, hdurable, harc⟩
    obtain ⟨first, rest, hitems⟩ := List.exists_cons_of_ne_nil hne
    refine ⟨_, ⟨List.mem_map.mpr ⟨(mid, _), ?_, rfl⟩, hhas, hdurable⟩, harc⟩
    rw [← SortedMap.get_eq_some, get_groupBy, hitems]
    rfl

theorem reasoningIneligibleArcIdsIn_congr (h : items.Perm items') (arcId : String) :
    arcId ∈ reasoningIneligibleArcIdsIn orders items ↔
      arcId ∈ reasoningIneligibleArcIdsIn orders' items' := by
  rw [mem_reasoningIneligibleArcIdsIn, mem_reasoningIneligibleArcIdsIn]
  refine exists_congr fun mid => ?_
  have hperm : (keyed itemMessageId mid items).Perm (keyed itemMessageId mid items') := h.filter _
  have hagrees := reasoning_foldl_perm hperm
  have hnil : keyed itemMessageId mid items = [] ↔ keyed itemMessageId mid items' = [] :=
    ⟨fun hnil => (hnil ▸ hperm).nil_eq.symm, fun hnil => (hnil ▸ hperm).eq_nil⟩
  dsimp only
  rw [Ne, hnil, hagrees.hasReasoning, hagrees.hasDurableNonToolSibling, hagrees.toolArcIds.mem_iff]

/-! ## What is only looked up -/

theorem arcByBlockId_perm (hpaired : Paired items) (h : items.Perm items') :
    arcByBlockId items = arcByBlockId items' :=
  SortedMap.ofList_perm (nodup_blockArcs hpaired.distinct) (h.filterMap _)

theorem mem_liveIds_perm (h : items.Perm items') (id : String) :
    id ∈ liveIds items ↔ id ∈ liveIds items' :=
  ((h.filter _).map _).mem_iff

end

/-! ## The fixed floor -/

/-- **Doubles are exact on whole numbers** up to `2 ^ 53`, in sums and in rounded quarters. -/
structure WholeExact (F : Type) [WholeDouble F] : Prop where
  add : ∀ m n, m + n ≤ 2 ^ 53 → (Double.ofNat m + Double.ofNat n : F) = Double.ofNat (m + n)
  quarter : ∀ n, n ≤ 2 ^ 53 →
    Double.round (Double.ofNat n * tokensPerByte : F) = Double.ofNat ((n + 2) / 4)

theorem wholeExact_rat : WholeExact ℚ where
  add m n _ := (Nat.cast_add m n).symm
  quarter n _ := by
    have hquarter : (tokensPerByte : ℚ) = 1 / 4 := by decide +kernel
    have hpos : (0 : ℚ) ≤ n * (1 / 4) := by positivity
    have hfloor : ⌊(n : ℚ) * (1 / 4) + 1 / 2⌋ = (((n + 2) / 4 : ℕ) : ℤ) := by
      obtain ⟨m, hm⟩ : ∃ m, m = (n + 2) / 4 := ⟨_, rfl⟩
      have hle : (4 * m : ℚ) ≤ n + 2 := by exact_mod_cast (show 4 * m ≤ n + 2 by omega)
      have hlt : (n + 2 : ℚ) < 4 * m + 4 := by exact_mod_cast (show n + 2 < 4 * m + 4 by omega)
      rw [← hm, Int.floor_eq_iff, Int.cast_natCast]
      constructor <;> linarith
    rw [hquarter]
    change (if (0 : ℚ) ≤ n * (1 / 4) then ((⌊(n : ℚ) * (1 / 4) + 1 / 2⌋ : ℤ) : ℚ) else _) = _
    rw [if_pos hpos, hfloor, Int.cast_natCast]
    rfl

section
variable {F : Type} [WholeDouble F] {items items' : List SelItem} {frozenKeys : List String}
  {orders orders' : HashOrders}

/-- The tokens of some sizes. -/
def tokensOf (sizes : List Nat) : Nat := (sizes.map fun bytes => (bytes + 2) / 4).sum

/-- **Sums of tokens are exact** while the sizes fit. -/
theorem sumTokens_eq (hexact : WholeExact F) {start : Nat} {sizes : List Nat}
    (h : start + sizes.sum ≤ 2 ^ 53) :
    sumTokens (Double.ofNat start : F) sizes = Double.ofNat (start + tokensOf sizes) := by
  induction sizes generalizing start with
  | nil => rfl
  | cons bytes sizes ih =>
    rw [List.sum_cons] at h
    have htokens : (bytesToTokens bytes : F) = Double.ofNat ((bytes + 2) / 4) :=
      hexact.quarter bytes (by omega)
    have hadd : (Double.ofNat start + bytesToTokens bytes : F) =
        Double.ofNat (start + (bytes + 2) / 4) := by
      rw [htokens, hexact.add _ _ (by omega)]
    rw [sumTokens, List.foldl_cons, hadd, ← sumTokens, ih (by omega), tokensOf, tokensOf,
      List.map_cons, List.sum_cons, Nat.add_assoc]

theorem sumTokens_perm (hexact : WholeExact F) {sizes sizes' : List Nat} (h : sizes.Perm sizes')
    (hfits : sizes.sum ≤ 2 ^ 53) : sumTokens (0 : F) sizes = sumTokens 0 sizes' := by
  have hzero : (0 : F) = Double.ofNat 0 := rfl
  rw [hzero, sumTokens_eq hexact (by omega),
    sumTokens_eq hexact (by rw [← h.sum_nat]; omega), tokensOf, tokensOf, (h.map _).sum_nat]

omit [WholeDouble F] in
/-- The arcs' bytes are no more than their items'. -/
theorem sum_toolTagBytes_le (counted : List SelItem) :
    ((toolTagBytes counted).entries.map Prod.snd).sum ≤ (counted.map SelItem.byteSize).sum :=
  sum_groupBy_le (fun _ _ => Nat.min_le_left _ _) counted

omit [WholeDouble F] in
theorem toolTagBytes_perm {counted counted' : List SelItem} (h : counted.Perm counted') :
    toolTagBytes counted = toolTagBytes counted' := by
  refine SortedMap.ext_get fun arcId => ?_
  have hget : ∀ counted, (toolTagBytes counted).get arcId =
      ((toolTagBytes counted).map fun _ => id).get arcId := by
    intro counted
    rw [SortedMap.get_map, Option.map_id_fun, id]
  rw [hget, hget, toolTagBytes, toolTagBytes, map_groupBy_perm h]
  intro arcId _ _ _ _
  refine Permuted.foldl_perm (R := Eq) (fun _ => rfl) Eq.trans (fun item heq => by rw [heq])
    (fun bytes a b => ?_) (h.filter _) rfl
  omega

omit [WholeDouble F] in
theorem sum_counted_le (items : List SelItem) (p : SelItem → Bool) :
    ((items.filter p).map SelItem.byteSize).sum ≤ (items.map SelItem.byteSize).sum :=
  (List.filter_sublist.map _).sum_le_sum fun _ _ => Nat.zero_le _

/-- **The fixed floor is the same** in any order, while the sizes fit. -/
theorem activeFloorTokensIn_perm (hexact : WholeExact F) (h : items.Perm items')
    (hfits : (items.map SelItem.byteSize).sum ≤ 2 ^ 53) :
    (activeFloorTokensIn orders items frozenKeys : F) =
      activeFloorTokensIn orders' items' frozenKeys := by
  have hcounted : (countedItems items frozenKeys).Perm (countedItems items' frozenKeys) :=
    h.filter _
  have hcountedFits : ((countedItems items frozenKeys).map SelItem.byteSize).sum ≤ 2 ^ 53 :=
    (sum_counted_le _ _).trans hfits
  have huntagged := (hcounted.filter fun item => item.arcId.isNone).map SelItem.byteSize
  have hvalues : (orders.arcBytes.order ((toolTagBytes (countedItems items frozenKeys)).entries.map
      Prod.snd)).Perm (orders'.arcBytes.order
        ((toolTagBytes (countedItems items' frozenKeys)).entries.map Prod.snd)) := by
    rw [toolTagBytes_perm hcounted]
    exact (orders.arcBytes.perm _).trans (orders'.arcBytes.perm _).symm
  rw [activeFloorTokensIn, activeFloorTokensIn,
    sumTokens_perm hexact huntagged ((sum_counted_le _ _).trans hcountedFits),
    sumTokens_perm hexact hvalues]
  rw [(orders.arcBytes.perm _).sum_nat]
  exact (sum_toolTagBytes_le _).trans hcountedFits

end

/-! ## The selection -/

section
variable {F : Type} [WholeDouble F] {tools : SelectionTools} {items items' : List SelItem}
  {frozenKeys : List String} {ctx : SelectionContext F} {cfg : SelectionConfig}

/-- **What is gathered agrees**, for items in another order. -/
theorem alike_gather (hexact : WholeExact F) (hpaired : Paired items)
    (hfree : OrderFree tools items)
    (hfits : ctx.passClass = .emergencyForce → (items.map SelItem.byteSize).sum ≤ 2 ^ 53)
    (h : items.Perm items') (orders orders' : HashOrders) :
    Alike ctx (gather orders tools items frozenKeys)
      (gather orders' tools items' frozenKeys : Gathered F) where
  arcs := by
    rw [gather, gather, groupArcsIn_eq, groupArcsIn_eq]
    exact groupArcs_canon hpaired hfree h
  ineligible := reasoningIneligibleArcIdsIn_congr h
  collapses := by
    rw [gather, gather, adjacencyMessagesIn_eq, adjacencyMessagesIn_eq]
    exact mem_collapseArcIds_congr (adjacencyMessages_view hfree h)
  liveIds := mem_liveIds_perm h
  floorTokens hpass := activeFloorTokensIn_perm hexact h (hfits hpass)
  arcByBlockId := arcByBlockId_perm hpaired h

end

/-! ## A call and its result -/

/-- A call of the client, and a result that the provider has part in. -/
def mixedArc (resultProvider : Bool) : List SelItem :=
  [{ id := "m1#0", ordinal := 1, messageRole := .assistant, kind := .toolCall "bash" (.object []),
     providerExecuted := false, byteSize := 10, tokenCount := none, arcId := some "m1#0" },
    { id := "m2#0", ordinal := 2, messageRole := .nonAssistant, kind := .toolResult "bash",
      providerExecuted := resultProvider, byteSize := 10, tokenCount := none,
      arcId := some "m1#0" }]

/-- A pass under pressure that takes the batch by age. -/
def batchByAge : SelectionContext ℚ :=
  { quietContext [] with
    lastExecuteOrdinal := 1
    schedulerPressureExecute := true
    passAlreadyBusting := true }

theorem paired_mixedArc (resultProvider : Bool) : Paired (mixedArc resultProvider) where
  distinct := by cases resultProvider <;> decide
  oneCall := by
    have harcs : ∀ item ∈ mixedArc resultProvider, item.arcId = some "m1#0" := by
      cases resultProvider <;> decide
    intro item hitem arcId harc
    rw [harcs item hitem] at harc
    obtain rfl := Option.some.inj harc
    exact ⟨_, rfl⟩

theorem orderFree_mixedArc : OrderFree plainTools (mixedArc false) where
  follows := by
    have hclient : ∀ item ∈ mixedArc false, item.providerExecuted = false := by decide
    intro call hcall item hitem _ _ callName input hkind
    refine ⟨fun _ hprovider => ?_, fun _ _ hunnamed => ?_⟩
    · rw [hclient item hitem] at hprovider
      cases hprovider
    · rw [mixedArc, List.mem_pair] at hcall
      rcases hcall with rfl | rfl
      · obtain ⟨rfl, -⟩ := Boundary.SelKind.toolCall.inj hkind
        exact absurd hunnamed (by decide +kernel)
      · cases hkind
  roles := by decide +kernel

theorem gathered_mixedArc :
    (groupArcs plainTools (mixedArc false) []).map ToolArc.canon =
        (groupArcs plainTools (mixedArc false).reverse []).map ToolArc.canon ∧
      (adjacencyMessages (mixedArc false)).map view =
        (adjacencyMessages (mixedArc false).reverse).map view :=
  (orderFree_iff (paired_mixedArc false) []).mp orderFree_mixedArc _ (List.reverse_perm _).symm

/-- Arcs, messages, shapes and decisions from the last to the first. -/
def lastFirst : HashOrders :=
  { HashOrders.byKeys with
    arcs := ⟨List.reverse, List.reverse_perm⟩
    messages := ⟨List.reverse, List.reverse_perm⟩
    shapes := ⟨List.reverse, List.reverse_perm⟩
    decisions := ⟨List.reverse, List.reverse_perm⟩ }

end MagicContext.Selection
