import MagicContext.Selection.Alike
import MagicContext.Selection.Emergency
import MagicContext.Selection.Messages

/-!
# Items in another order

What an arc gathers from its items is sums, bounds and the newest result, which do not depend on
the order, and what its one call says.  What a message gathers is of the same kind, save for the
role, which is that of its first item.

## What is here

* `Agrees` — arcs agree on what all their items make of them.
* `arcOf_canon` — the arc of an id is the same for items in another order.
* `groupArcs_canon` — so are all the arcs.
-/

namespace MagicContext.Selection

open Historian (u64Max)
open Permuted (Reordering)
open ToolArc SelItem

/-! ## The items of a key -/

section
variable {α κ σ τ : Type} [LinearOrder κ]

/-- **Groups are the same** for items in another order, up to what is looked at of them. -/
theorem map_groupBy_perm {key : α → Option κ} {fresh : κ → α → σ}
    {step : σ → α → σ} {f : σ → τ} {items items' : List α} (h : items.Perm items')
    (hgroup : ∀ k, ∀ first ∈ keyed key k items, ∀ first' ∈ keyed key k items',
      f ((keyed key k items).foldl step (fresh k first)) =
        f ((keyed key k items').foldl step (fresh k first'))) :
    ((groupBy key fresh step items).map fun _ => f) =
      (groupBy key fresh step items').map fun _ => f := by
  refine SortedMap.ext_get fun k => ?_
  rw [SortedMap.get_map, SortedMap.get_map, get_groupBy, get_groupBy, Option.map_map,
    Option.map_map]
  have hperm : (keyed key k items).Perm (keyed key k items') := h.filter _
  cases hl : (keyed key k items).head? with
  | none =>
    rw [List.head?_eq_none_iff] at hl
    rw [hl] at hperm
    rw [hperm.nil_eq.symm]
    rfl
  | some first =>
    obtain ⟨first', hl'⟩ : ∃ first', (keyed key k items').head? = some first' := by
      refine Option.isSome_iff_exists.mp (List.isSome_head?.mpr fun hnil => ?_)
      rw [hnil] at hperm
      rw [hperm.eq_nil] at hl
      cases hl
    rw [hl', Option.map_some, Option.map_some]
    exact congrArg some (hgroup k first (List.mem_of_mem_head? hl) first'
      (List.mem_of_mem_head? hl'))

theorem map_entries_map (f : σ → τ) (m : SortedMap κ σ) :
    (m.entries.map Prod.snd).map f = ((m.map fun _ => f).entries).map Prod.snd := by
  rw [SortedMap.map, List.map_map, List.map_map]
  rfl

end

/-! ## What an item adds to an arc -/

section
variable (tools : SelectionTools) (frozen : List String) (arc : ToolArc) (item : SelItem)

theorem ordinal_absorb : (arc.absorb tools frozen item).ordinal = min arc.ordinal item.ordinal := by
  rw [absorb]
  split <;> rfl

/-- The tokens with those of an item. -/
def addTokens (tokens : Option Nat) (item : SelItem) : Option Nat :=
  match item.tokenCount with
  | some count => some (min (tokens.getD 0 + count) u64Max)
  | none => tokens

theorem reclaimTokens_absorb :
    (arc.absorb tools frozen item).reclaimTokens = addTokens arc.reclaimTokens item := by
  rw [absorb]
  split <;> rfl

theorem callBytes_absorb : (arc.absorb tools frozen item).callBytes =
    arc.callBytes + if item.isCall then item.byteSize else 0 := by
  rw [absorb, isCall]
  cases item.kind <;> rfl

theorem resultBytes_absorb : (arc.absorb tools frozen item).resultBytes =
    arc.resultBytes + if item.isResult then item.byteSize else 0 := by
  rw [absorb, isResult]
  cases item.kind <;> rfl

theorem resultIds_absorb : (arc.absorb tools frozen item).resultIds =
    arc.resultIds ++ if item.isResult then [item.id] else [] := by
  rw [absorb, isResult]
  cases item.kind <;> simp

/-- The ordinal and the index of an item. -/
def SelItem.place (item : SelItem) : Nat × Nat :=
  (item.ordinal, ((splitBlockId item.id).bind Prod.snd).getD 0)

/-- The later of two places. -/
def laterPlace (p q : Nat × Nat) : Nat × Nat :=
  if p.1 < q.1 ∨ (p.1 = q.1 ∧ p.2 < q.2) then q else p

/-- The later of a place and that of an item, if it is a result. -/
def laterResult (place : Nat × Nat) (item : SelItem) : Nat × Nat :=
  if item.isResult then laterPlace place item.place else place

/-- The place of the newest result. -/
def ToolArc.newestResult (arc : ToolArc) : Nat × Nat :=
  (arc.dedupResultOrdinal, arc.dedupResultBlockIndex)

theorem newestResult_absorb : (arc.absorb tools frozen item).newestResult =
    laterResult arc.newestResult item := by
  rw [newestResult, absorb, laterResult, isResult]
  cases item.kind with
  | toolResult name =>
    rw [if_pos rfl, laterPlace]
    simp only [newestResult, place]
    split
    · rename_i hlater
      exact (if_pos hlater).symm
    · rename_i hearlier
      exact (if_neg hearlier).symm
  | _ => rfl

end

theorem addTokens_swap (tokens : Option Nat) (a b : SelItem) :
    addTokens (addTokens tokens a) b = addTokens (addTokens tokens b) a := by
  rw [addTokens.eq_def, addTokens.eq_def, addTokens.eq_def, addTokens.eq_def]
  cases a.tokenCount with
  | none => rfl
  | some m =>
    cases b.tokenCount with
    | none => rfl
    | some n =>
      simp only [Option.getD_some, Option.some.injEq]
      omega

theorem laterPlace_swap (p q r : Nat × Nat) :
    laterPlace (laterPlace p q) r = laterPlace (laterPlace p r) q := by
  grind [laterPlace]

theorem laterResult_swap (place : Nat × Nat) (a b : SelItem) :
    laterResult (laterResult place a) b = laterResult (laterResult place b) a := by
  simp only [laterResult]
  cases a.isResult <;> cases b.isResult <;> simp [laterPlace_swap]

/-! ## What all items make of an arc -/

/-- The arcs agree on what does not depend on the order of items. -/
structure Agrees (a b : ToolArc) : Prop where
  arcId : a.arcId = b.arcId
  ordinal : a.ordinal = b.ordinal
  reclaimTokens : a.reclaimTokens = b.reclaimTokens
  reduced : a.reduced = b.reduced
  callBytes : a.callBytes = b.callBytes
  resultBytes : a.resultBytes = b.resultBytes
  newestResult : a.newestResult = b.newestResult
  resultIds : a.resultIds.Perm b.resultIds

variable {call : SelItem} {callName : String} {input : Json}

section
variable {tools : SelectionTools} {frozen : List String}

theorem Agrees.refl (a : ToolArc) : Agrees a a :=
  ⟨rfl, rfl, rfl, rfl, rfl, rfl, rfl, List.Perm.refl _⟩

theorem Agrees.trans {a b c : ToolArc} (h : Agrees a b) (h' : Agrees b c) : Agrees a c :=
  ⟨h.arcId.trans h'.arcId, h.ordinal.trans h'.ordinal, h.reclaimTokens.trans h'.reclaimTokens,
    h.reduced.trans h'.reduced, h.callBytes.trans h'.callBytes, h.resultBytes.trans h'.resultBytes,
    h.newestResult.trans h'.newestResult, h.resultIds.trans h'.resultIds⟩

theorem Agrees.absorb {a b : ToolArc} (h : Agrees a b) (item : SelItem) :
    Agrees (a.absorb tools frozen item) (b.absorb tools frozen item) where
  arcId := by rw [arcId_absorb, arcId_absorb, h.arcId]
  ordinal := by rw [ordinal_absorb, ordinal_absorb, h.ordinal]
  reclaimTokens := by rw [reclaimTokens_absorb, reclaimTokens_absorb, h.reclaimTokens]
  reduced := by rw [reduced_absorb, reduced_absorb, h.reduced]
  callBytes := by rw [callBytes_absorb, callBytes_absorb, h.callBytes]
  resultBytes := by rw [resultBytes_absorb, resultBytes_absorb, h.resultBytes]
  newestResult := by rw [newestResult_absorb, newestResult_absorb, h.newestResult]
  resultIds := by
    rw [resultIds_absorb, resultIds_absorb]
    exact h.resultIds.append_right _

theorem agrees_swap (arc : ToolArc) (x y : SelItem) :
    Agrees ((arc.absorb tools frozen x).absorb tools frozen y)
      ((arc.absorb tools frozen y).absorb tools frozen x) where
  arcId := by simp only [arcId_absorb]
  ordinal := by
    simp only [ordinal_absorb]
    omega
  reclaimTokens := by simp only [reclaimTokens_absorb, addTokens_swap]
  reduced := by
    simp only [reduced_absorb]
    rw [Bool.or_right_comm]
  callBytes := by
    simp only [callBytes_absorb]
    omega
  resultBytes := by
    simp only [resultBytes_absorb]
    omega
  newestResult := by
    simp only [newestResult_absorb]
    rw [laterResult_swap]
  resultIds := by
    simp only [resultIds_absorb, List.append_assoc]
    exact List.Perm.append_left _ List.perm_append_comm

theorem agrees_foldl (arc : ToolArc) {l l' : List SelItem} (h : l.Perm l') :
    Agrees (l.foldl (absorb tools frozen) arc) (l'.foldl (absorb tools frozen) arc) :=
  Permuted.foldl_perm Agrees.refl Agrees.trans (fun item h => h.absorb item) agrees_swap h
    (Agrees.refl arc)

/-! ## What the call says -/

/-- The arc is as its only call says. -/
structure SaysCall (tools : SelectionTools) (call : SelItem) (callName : String)
    (input : Json) (arc : ToolArc) : Prop where
  name : arc.name = normalizeToolName tools callName
  dedupName : arc.dedupName = callName
  ownerMessageId : arc.ownerMessageId = itemMessageId call
  callInputs : arc.callInputs = [(call.id, input)]
  providerExecuted : arc.providerExecuted = call.providerExecuted

/-- A result that says no other than its call: it is executed by the provider only if the call is,
and where the call has no name neither has the result. -/
structure Follows (tools : SelectionTools) (call : SelItem) (callName : String)
    (item : SelItem) : Prop where
  provider : item.isResult = true → item.providerExecuted = true → call.providerExecuted = true
  named : ∀ toolName, item.kind = .toolResult toolName → normalizeToolName tools callName = "" →
    toolName = callName

variable {arc : ToolArc}

theorem callInputs_absorb {item : SelItem} (h : item.isCall = false) :
    (arc.absorb tools frozen item).callInputs = arc.callInputs := by
  rw [absorb]
  rw [isCall] at h
  cases hkind : item.kind with
  | toolCall name input =>
    rw [hkind] at h
    cases h
  | _ => rfl

theorem callInputs_foldl {l : List SelItem} (h : ∀ item ∈ l, item.isCall = false) (arc : ToolArc) :
    (l.foldl (absorb tools frozen) arc).callInputs = arc.callInputs := by
  induction l generalizing arc with
  | nil => rfl
  | cons item l ih =>
    rw [List.forall_mem_cons] at h
    rw [List.foldl_cons, ih h.2, callInputs_absorb h.1]

theorem saysCall_absorb (hkind : call.kind = .toolCall callName input)
    (hempty : arc.callInputs = []) :
    SaysCall tools call callName input (arc.absorb tools frozen call) := by
  rw [absorb, hkind]
  refine ⟨rfl, rfl, ?_, ?_, rfl⟩
  · simp [hempty]
  · simp [hempty]

theorem SaysCall.absorb {call item : SelItem} (h : SaysCall tools call callName input arc)
    (hcall : item.isCall = false) (hfollows : Follows tools call callName item) :
    SaysCall tools call callName input (arc.absorb tools frozen item) := by
  have hinputs : (arc.absorb tools frozen item).callInputs = [(call.id, input)] :=
    (callInputs_absorb hcall).trans h.callInputs
  rw [ToolArc.absorb] at hinputs ⊢
  rw [isCall] at hcall
  cases hkind : item.kind with
  | toolCall toolName toolInput =>
    rw [hkind] at hcall
    cases hcall
  | toolResult toolName =>
    rw [hkind] at hinputs
    refine ⟨?_, ?_, h.ownerMessageId, hinputs, ?_⟩
    · dsimp only
      split
      · rename_i hunnamed
        rw [h.name, beq_iff_eq] at hunnamed
        rw [hfollows.named toolName hkind hunnamed]
      · exact h.name
    · dsimp only
      split
      · rename_i hunnamed
        rw [h.name, beq_iff_eq] at hunnamed
        exact hfollows.named toolName hkind hunnamed
      · exact h.dedupName
    · rw [h.providerExecuted]
      have hresult : item.isResult = true := by
        rw [isResult, hkind]
      cases hitem : item.providerExecuted with
      | false => exact Bool.or_false _
      | true =>
        rw [hfollows.provider hresult hitem]
        rfl
  | _ => exact ⟨h.name, h.dedupName, h.ownerMessageId, h.callInputs, h.providerExecuted⟩

theorem SaysCall.foldl {l : List SelItem} (h : SaysCall tools call callName input arc)
    (hcalls : ∀ item ∈ l, item.isCall = false)
    (hfollows : ∀ item ∈ l, Follows tools call callName item) :
    SaysCall tools call callName input (l.foldl (ToolArc.absorb tools frozen) arc) := by
  induction l generalizing arc with
  | nil => exact h
  | cons item l ih =>
    rw [List.forall_mem_cons] at hcalls hfollows
    exact ih (h.absorb hcalls.1 hfollows.1) hcalls.2 hfollows.2

/-- **An arc with one call is as that call says.** -/
theorem saysCall_foldl {l : List SelItem} (hkind : call.kind = .toolCall callName input)
    (hempty : arc.callInputs = []) (hone : l.filter isCall = [call])
    (hfollows : ∀ item ∈ l, Follows tools call callName item) :
    SaysCall tools call callName input (l.foldl (ToolArc.absorb tools frozen) arc) := by
  obtain ⟨before, after, rfl, hbefore, -, hafter⟩ := List.filter_eq_cons_iff.mp hone
  rw [List.foldl_append, List.foldl_cons]
  have hfirst : ((before.foldl (ToolArc.absorb tools frozen) arc).callInputs) = [] := by
    rw [callInputs_foldl fun item hitem => Bool.eq_false_iff.mpr (hbefore item hitem), hempty]
  refine (saysCall_absorb hkind hfirst).foldl (fun item hitem => ?_) fun item hitem => ?_
  · rw [Bool.eq_false_iff]
    exact List.filter_eq_nil_iff.mp hafter item hitem
  · exact hfollows item (List.mem_append_right _ (List.mem_cons_of_mem _ hitem))

/-- Arcs that agree and that one call describes have one normal form. -/
theorem canon_eq_of_agrees {a b : ToolArc} (h : Agrees a b)
    (ha : SaysCall tools call callName input a) (hb : SaysCall tools call callName input b) :
    a.canon = b.canon := by
  refine canon_eq ?_ h.resultIds
  obtain ⟨hid, hordinal, htokens, hreduced, hcallBytes, hresultBytes, hnewest, -⟩ := h
  obtain ⟨hname, hdedup, howner, hinputs, hprovider⟩ := ha
  obtain ⟨hname', hdedup', howner', hinputs', hprovider'⟩ := hb
  obtain ⟨hnewestOrdinal, hnewestIndex⟩ := Prod.mk.inj hnewest
  cases a
  cases b
  simp_all

end

/-! ## Items that can be reordered -/

/-- Ids that are all different, and one call for every arc. -/
structure Paired (items : List SelItem) : Prop where
  distinct : (items.map SelItem.id).Nodup
  oneCall : ∀ item ∈ items, ∀ arcId, item.arcId = some arcId →
    ∃ call, (arcItems items arcId).filter SelItem.isCall = [call]

/-- **Nothing is read off the first or the last of some items**: the results of an arc follow its
call, and the items of a message have one role. -/
structure OrderFree (tools : SelectionTools) (items : List SelItem) : Prop where
  follows : ∀ call ∈ items, ∀ item ∈ items, call.arcId.isSome = true →
    item.arcId = call.arcId → ∀ callName input, call.kind = .toolCall callName input →
      Follows tools call callName item
  roles : ∀ a ∈ items, ∀ b ∈ items, (itemMessageId a).isSome = true →
    itemMessageId a = itemMessageId b → a.messageRole = b.messageRole

/-- What is as old as another and not behind by name, both ways, has its name. -/
theorem name_eq_of_behind {m n : Nat} {name name' : String} (h : m < n ∨ (m = n ∧ name ≤ name'))
    (h' : n < m ∨ (n = m ∧ name' ≤ name)) : name = name' := by
  rcases h with hlt | ⟨heq, hle⟩
  · rcases h' with hlt' | ⟨heq', -⟩ <;> omega
  · rcases h' with hlt' | ⟨-, hle'⟩
    · omega
    · exact le_antisymm hle hle'

section
variable {tools : SelectionTools} {items items' : List SelItem} {frozenKeys : List String}
  {orders orders' : HashOrders} {arcId : String}

theorem arcItems_perm (h : items.Perm items') (arcId : String) :
    (arcItems items arcId).Perm (arcItems items' arcId) :=
  h.filter _

theorem kind_of_isCall {item : SelItem} (h : item.isCall = true) :
    ∃ callName input, item.kind = .toolCall callName input := by
  rw [isCall] at h
  split at h
  · rename_i callName input hkind
    exact ⟨callName, input, hkind⟩
  · cases h

/-- The call of an arc. -/
theorem saysCall_arcOf (hpaired : Paired items) (hfree : OrderFree tools items)
    (frozenKeys : List String) (hne : arcItems items arcId ≠ []) :
    ∃ call callName input, (arcItems items arcId).filter isCall = [call] ∧
      call ∈ items ∧ call.arcId = some arcId ∧ call.kind = .toolCall callName input ∧
      (∀ item ∈ arcItems items arcId, Follows tools call callName item) ∧
      SaysCall tools call callName input (arcOf tools frozenKeys items arcId) := by
  obtain ⟨item, hitem⟩ := List.exists_mem_of_ne_nil _ hne
  obtain ⟨hmem, harc⟩ := mem_arcItems.mp hitem
  obtain ⟨call, hone⟩ := hpaired.oneCall item hmem arcId harc
  have hcall : call ∈ (arcItems items arcId).filter isCall := by
    rw [hone]
    exact List.mem_singleton_self call
  obtain ⟨hcallItem, hisCall⟩ := List.mem_filter.mp hcall
  obtain ⟨hcallMem, hcallArc⟩ := mem_arcItems.mp hcallItem
  obtain ⟨callName, input, hkind⟩ := kind_of_isCall hisCall
  have hfollows : ∀ item ∈ arcItems items arcId, Follows tools call callName item := by
    intro item hitem
    obtain ⟨hmem, harc⟩ := mem_arcItems.mp hitem
    exact hfree.follows call hcallMem item hmem (by rw [hcallArc]; rfl) (harc.trans hcallArc.symm)
      callName input hkind
  exact ⟨call, callName, input, hone, hcallMem, hcallArc, hkind, hfollows,
    saysCall_foldl hkind rfl hone hfollows⟩

/-- **The arc of an id is the same** for items in another order, up to the order of results. -/
theorem arcOf_canon (hpaired : Paired items) (hfree : OrderFree tools items)
    (h : items.Perm items') (hne : arcItems items arcId ≠ []) :
    (arcOf tools frozenKeys items arcId).canon = (arcOf tools frozenKeys items' arcId).canon := by
  obtain ⟨call, callName, input, hone, -, -, hkind, hfollows, hcalled⟩ :=
    saysCall_arcOf hpaired hfree frozenKeys hne
  have hperm := arcItems_perm h arcId
  have hone' : (arcItems items' arcId).filter isCall = [call] := by
    have hcalls := hperm.filter isCall
    rw [hone] at hcalls
    exact List.perm_singleton.mp hcalls.symm
  refine canon_eq_of_agrees (agrees_foldl _ hperm) hcalled (saysCall_foldl hkind rfl hone' ?_)
  exact fun item hitem => hfollows item (hperm.mem_iff.mpr hitem)

/-- The order of the map of arcs does not matter. -/
theorem groupArcsIn_eq (orders : HashOrders) :
    groupArcsIn orders tools items frozenKeys = groupArcs tools items frozenKeys := by
  have : IsTrans ToolArc Older := ⟨fun _ _ _ => older_trans⟩
  have : Std.Total Older := ⟨older_total⟩
  have hmem : ∀ arc, arc ∈ orders.arcs.order ((groupBy arcId (fun arcId _ => { arcId })
      (absorb tools frozenKeys) items).entries.map Prod.snd) →
      arc ∈ groupArcs tools items frozenKeys := by
    intro arc harc
    rw [groupArcs, (List.perm_insertionSort _ _).mem_iff]
    exact (Reordering.mem_order _).mp harc
  refine Permuted.insertionSort_perm (fun a ha b hb hab hba => ?_) (orders.arcs.perm _)
  exact eq_of_arcId_eq (hmem a ha) (hmem b hb) (name_eq_of_behind hab hba)

/-- **The arcs are the same** for items in another order, up to the order of results. -/
theorem groupArcs_canon (hpaired : Paired items) (hfree : OrderFree tools items)
    (h : items.Perm items') :
    (groupArcs tools items frozenKeys).map canon =
      (groupArcs tools items' frozenKeys).map canon := by
  rw [groupArcs, groupArcs, ← map_canon_sort fun _ _ => Iff.rfl,
    ← map_canon_sort fun _ _ => Iff.rfl, map_entries_map, map_entries_map]
  congr 3
  refine map_groupBy_perm h fun arcId first hfirst _ _ => ?_
  exact arcOf_canon hpaired hfree h (List.ne_nil_of_mem hfirst)

/-- Calls are apart. -/
theorem callsApart_groupArcs (hpaired : Paired items) (hfree : OrderFree tools items) :
    CallsApart (groupArcs tools items frozenKeys) := by
  intro arc harc arc' harc' call hcall call' hcall' heq
  obtain ⟨hne, hof⟩ := mem_groupArcs.mp harc
  obtain ⟨hne', hof'⟩ := mem_groupArcs.mp harc'
  obtain ⟨item, name, input, -, hmem, hid, hkind, -, hcalled⟩ :=
    saysCall_arcOf hpaired hfree frozenKeys hne
  obtain ⟨item', name', input', -, hmem', hid', hkind', -, hcalled'⟩ :=
    saysCall_arcOf hpaired hfree frozenKeys hne'
  rw [hof] at hcalled
  rw [hof'] at hcalled'
  rw [hcalled.callInputs, List.mem_singleton] at hcall
  rw [hcalled'.callInputs, List.mem_singleton] at hcall'
  subst hcall hcall'
  obtain rfl : item = item' := List.inj_on_of_nodup_map hpaired.distinct hmem hmem' heq
  rw [hkind] at hkind'
  rw [hid] at hid'
  obtain ⟨rfl, rfl⟩ := Boundary.SelKind.toolCall.inj hkind'
  exact ⟨Option.some.inj hid', rfl⟩

end

end MagicContext.Selection
