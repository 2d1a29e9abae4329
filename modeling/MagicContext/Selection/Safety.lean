import Mathlib.Data.List.Induction
import MagicContext.Selection.Decisions

/-!
# Which blocks a pass touches

Every decision is to be about a live call, result or text block that the client executes, that is
not frozen and not protected.  The selectors look at the flag of a whole arc, which the last call
decides, and the drops an agent asked for are not held against the flag at all.

## What is here

* `SafeDecisions` — what is to hold of the decisions of a pass.
* `Masked` — a block of the provider in an arc that passes for the client's.
* `ClientOnly` — no expanded arc has one, and the admitted drops name blocks of the client.
* **`selectReductions_safe_iff`** — the decisions are safe exactly when they do.
* `selectReductions_unsafe` — a drop of a block that the provider executes.
-/

namespace MagicContext.Selection

variable {F : Type} [WholeDouble F]

/-- The id names a call, a result or a text of the client. -/
def NamesClientBlock (items : List SelItem) (id : String) : Prop :=
  ∃ item ∈ items, item.id = id ∧ item.isCarrier = false ∧ item.providerExecuted = false

structure SafeDecisions (items : List SelItem) (frozenKeys : List String)
    (ctx : SelectionContext F) (decisions : List ReductionDecision) : Prop where
  targets : ∀ d ∈ decisions, NamesClientBlock items d.targetId
  unfrozen : ∀ d ∈ decisions, d.targetId ∉ frozenKeys
  unprotected : ∀ d ∈ decisions, ctx.blockIsProtected d.targetId = false
  /-- No target occurs twice, and the order is that of the targets. -/
  ordered : decisions.Pairwise fun a b => a.targetId < b.targetId
  deferred : ctx.passClass = .defer → decisions = []

/-- The provider executes the block, but a later call of its arc is the client's, and what comes
after that call is too. -/
def Masked (items : List SelItem) (item : SelItem) : Prop :=
  item.isTool = true ∧ item.providerExecuted = true ∧ ∃ arcId, item.arcId = some arcId ∧
    ∃ before call after, arcItems items arcId = before ++ call :: after ∧ item ∈ before ∧
      call.isCall = true ∧ call.providerExecuted = false ∧
        ∀ other ∈ after, other.isTool = true → other.providerExecuted = false

/-- In a pass that decides anything, no expanded arc has a masked block and no admitted drop names
a block that the provider executes, save where a filter takes the block out. -/
structure ClientOnly (tools : SelectionTools) (items : List SelItem) (frozenKeys : List String)
    (ctx : SelectionContext F) (cfg : SelectionConfig) : Prop where
  arcs : ctx.passClass ≠ .defer → ∀ arc, Expanded tools items frozenKeys ctx cfg arc →
    ∀ item ∈ items, item.arcId = some arc.arcId → Masked items item →
      Passes items ctx item.id → NamesClientBlock items item.id
  drops : ctx.passClass ≠ .defer → ∀ id ∈ ctx.agentDropIds,
    agentDropAdmitted ctx (liveIds items) frozenKeys id = true → Passes items ctx id →
      NamesClientBlock items id

section
variable {tools : SelectionTools} {items : List SelItem} {frozenKeys : List String}
  {ctx : SelectionContext F}

/-- Where the flag of an arc is off at the end, a call of the client has turned it off since the
last block of the provider. -/
theorem exists_call_of_flag_off {frozen : List String} {l : List SelItem} {arc : ToolArc}
    {item : SelItem} (hitem : item ∈ l) (htool : item.isTool = true)
    (hprovider : item.providerExecuted = true)
    (hoff : (l.foldl (ToolArc.absorb tools frozen) arc).providerExecuted = false) :
    ∃ before call after, l = before ++ call :: after ∧ item ∈ before ∧ call.isCall = true ∧
      call.providerExecuted = false ∧
        ∀ other ∈ after, other.isTool = true → other.providerExecuted = false := by
  induction l using List.reverseRecOn with
  | nil => cases hitem
  | append_singleton l last ih =>
    rw [List.foldl_append, List.foldl_cons, List.foldl_nil, ToolArc.absorb] at hoff
    have hbefore : last ≠ item → item ∈ l := fun hne =>
      (List.mem_append.mp hitem).resolve_right fun hlast => hne (List.mem_singleton.mp hlast).symm
    -- a last item that is no call leaves what was found before it
    have hextend : (l.foldl (ToolArc.absorb tools frozen) arc).providerExecuted = false →
        (last.isTool = true → last.providerExecuted = false) → ∃ before call after,
          l ++ [last] = before ++ call :: after ∧ item ∈ before ∧ call.isCall = true ∧
            call.providerExecuted = false ∧
              ∀ other ∈ after, other.isTool = true → other.providerExecuted = false := by
      intro hoff hlast
      have hne : last ≠ item := by
        rintro rfl
        rw [hlast htool] at hprovider
        cases hprovider
      obtain ⟨before, call, after, rfl, hmem, hcall, hclient, hafter⟩ := ih (hbefore hne) hoff
      refine ⟨before, call, after ++ [last], by simp, hmem, hcall, hclient, ?_⟩
      exact List.forall_mem_append.mpr ⟨hafter, List.forall_mem_singleton.mpr hlast⟩
    split at hoff
    · rename_i name input hkind
      have hne : last ≠ item := by
        rintro rfl
        rw [hprovider] at hoff
        cases hoff
      refine ⟨l, last, [], rfl, hbefore hne, ?_, hoff, List.forall_mem_nil _⟩
      rw [SelItem.isCall, hkind]
    · obtain ⟨hoff, hlast⟩ := Bool.or_eq_false_iff.mp hoff
      exact hextend hoff fun _ => hlast
    · rename_i hcall hresult
      refine hextend hoff fun htool => ?_
      rw [SelItem.isTool] at htool
      split at htool
      · rename_i hkind
        exact absurd hkind (hcall _ _)
      · rename_i hkind
        exact absurd hkind (hresult _)
      · cases htool

/-- **In an active arc a block of the provider is masked.** -/
theorem masked_of_active {arc : ToolArc} (h : arc ∈ activeArcs tools items frozenKeys)
    {item : SelItem} (hitem : item ∈ items) (harc : item.arcId = some arc.arcId)
    (htool : item.isTool = true) (hprovider : item.providerExecuted = true) :
    Masked items item := by
  obtain ⟨hgroup, -, hoff, -⟩ := mem_activeArcs.mp h
  rw [← (mem_groupArcs.mp hgroup).2, arcOf] at hoff
  exact ⟨htool, hprovider, arc.arcId, harc,
    exists_call_of_flag_off (mem_arcItems.mpr ⟨hitem, harc⟩) htool hprovider hoff⟩

/-- No block of an active arc is frozen. -/
theorem not_frozen_of_active {arc : ToolArc} (h : arc ∈ activeArcs tools items frozenKeys)
    {item : SelItem} (hitem : item ∈ items) (harc : item.arcId = some arc.arcId) :
    item.id ∉ frozenKeys := by
  obtain ⟨hgroup, hreduced, -⟩ := mem_activeArcs.mp h
  intro hfrozen
  rw [(reduced_iff hgroup).mpr ⟨item, hitem, harc, hfrozen⟩] at hreduced
  cases hreduced

/-- Nothing is admitted that is frozen. -/
theorem not_frozen_of_admitted {live frozen : List String} {id : String}
    (h : agentDropAdmitted ctx live frozen id = true) : id ∉ frozen := by
  intro hfrozen
  rw [agentDropAdmitted, agentDropIsOpen, List.contains_iff_mem.mpr hfrozen] at h
  cases h

theorem not_protected_of_admitted {live frozen : List String} {id : String}
    (h : agentDropAdmitted ctx live frozen id = true) : ctx.blockIsProtected id = false := by
  rw [Bool.eq_false_iff]
  intro hprotected
  rw [agentDropAdmitted, agentDropIsOpen, hprotected, Bool.or_true] at h
  cases h

theorem not_carrier_of_isTool {item : SelItem} (h : item.isTool = true) :
    item.isCarrier = false := by
  rw [SelItem.isTool] at h
  split at h
  · rename_i hkind
    rw [SelItem.isCarrier, hkind]
  · rename_i hkind
    rw [SelItem.isCarrier, hkind]
  · cases h

/-- **The decisions of a pass are safe** exactly when no expanded arc has a masked block and the
admitted drops name only blocks that the client executes. -/
theorem selectReductions_safe_iff (tools : SelectionTools) (items : List SelItem)
    (frozenKeys : List String) (ctx : SelectionContext F) (cfg : SelectionConfig)
    (hashOrder : HashOrder) :
    SafeDecisions items frozenKeys ctx (selectReductions tools items frozenKeys ctx cfg hashOrder) ↔
      ClientOnly tools items frozenKeys ctx cfg := by
  by_cases hpass : ctx.passClass = .defer
  · rw [selectReductions_defer hpass]
    exact iff_of_true ⟨nofun, nofun, nofun, List.Pairwise.nil, fun _ => rfl⟩
      ⟨fun h => absurd hpass h, fun h => absurd hpass h⟩
  constructor
  · intro h
    have hnames : ∀ id, Targets (selectReductions tools items frozenKeys ctx cfg hashOrder) id →
        NamesClientBlock items id := by
      rintro _ ⟨d, hd, rfl⟩
      exact h.targets d hd
    refine ⟨fun _ arc harc item hitem harcId hmasked hpasses => hnames _ ?_,
      fun _ id hid hadmitted hpasses => hnames _ ?_⟩
    · refine (targets_selectReductions hpass).mpr ⟨Or.inl ⟨arc, harc, ?_, ?_⟩, hpasses⟩
      · exact (mem_blockIds (mem_activeArcs.mp harc.active).1).mpr
          ⟨item, hitem, harcId, hmasked.1, rfl⟩
      · exact not_frozen_of_active harc.active hitem harcId
    · exact (targets_selectReductions hpass).mpr ⟨Or.inr ⟨hid, hadmitted⟩, hpasses⟩
  · intro h
    have htarget : ∀ d ∈ selectReductions tools items frozenKeys ctx cfg hashOrder, _ :=
      fun d hd => (targets_selectReductions hpass).mp ⟨d, hd, rfl⟩
    refine ⟨fun d hd => ?_, fun d hd => ?_, fun d hd => (htarget d hd).2.2, ?_,
      fun hdefer => absurd hdefer hpass⟩
    · obtain ⟨⟨arc, harc, hblock, -⟩ | ⟨hid, hadmitted⟩, hpasses⟩ := htarget d hd
      · obtain ⟨item, hitem, harcId, htool, hid⟩ :=
          (mem_blockIds (mem_activeArcs.mp harc.active).1).mp hblock
        rw [← hid] at hpasses ⊢
        cases hprovider : item.providerExecuted with
        | false => exact ⟨item, hitem, rfl, not_carrier_of_isTool htool, hprovider⟩
        | true =>
          exact h.arcs hpass arc harc item hitem harcId
            (masked_of_active harc.active hitem harcId htool hprovider) hpasses
      · exact h.drops hpass d.targetId hid hadmitted hpasses
    · obtain ⟨⟨-, -, -, hfrozen⟩ | ⟨-, hadmitted⟩, -⟩ := htarget d hd
      · exact hfrozen
      · exact not_frozen_of_admitted hadmitted
    · rw [selectReductions_eq hpass]
      exact ordered_dedupeAndSort _

end

/-! ## A block of the provider -/

/-- Texts are kept as they are. -/
def plainTools : SelectionTools where
  toLowercase := id
  jsonText _ := ""

def listOrder : HashOrder where
  order := id
  perm := List.Perm.refl

/-- A pass that runs in the ordinary way, with room left. -/
def quietContext (agentDropIds : List String) : SelectionContext ℚ where
  passClass := .execute
  currentTotalInputTokens := 1000
  ceilingTokens := 100000
  protectedCutoffOrdinal := 0
  lastExecuteOrdinal := 0
  schedulerPressureExecute := false
  priorInputSample := 0
  hasPriorDrop := false
  agentDropIds
  agentDropCommandIds := .empty
  firstAppliedAgentDropIds := []
  passAlreadyBusting := false
  supersessionRideAvailable := false
  tagWindowProtectedBlockIds := []
  exemptMessageProtectedBlockIds := []

/-- A search the provider ran. -/
def providerSearch : List SelItem :=
  [{ id := "m1#0", ordinal := 1, messageRole := .assistant,
     kind := .toolCall "web_search" (.object []), providerExecuted := true, byteSize := 10,
     tokenCount := none, arcId := some "m1#0" }]

theorem selectReductions_unsafe : ¬ SafeDecisions providerSearch [] (quietContext ["m1#0"])
    (selectReductions plainTools providerSearch [] (quietContext ["m1#0"]) ⟨false⟩ listOrder) := by
  intro h
  have hdecisions : selectReductions plainTools providerSearch [] (quietContext ["m1#0"]) ⟨false⟩
      listOrder = [dropDecision "m1#0"] := by
    decide +kernel
  rw [hdecisions] at h
  obtain ⟨item, hitem, -, -, hclient⟩ := h.targets _ (List.mem_singleton_self _)
  rw [providerSearch, List.mem_singleton] at hitem
  rw [hitem] at hclient
  cases hclient

end MagicContext.Selection
