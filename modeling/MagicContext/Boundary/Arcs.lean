import MagicContext.Boundary.Index
import MagicContext.Lib.SortedMap
import MagicContext.Lib.Spans

/-!
# Tool arcs and fences

A tool arc leads from the message that calls a tool to the one that brings the result.  A fence
moves a boundary out of every completed arc it would split: to the start of the arcs that overlap
there, or past their end when they start below the floor.

## What is here

* `ToolArc`, `buildToolArcs` — the calls with their results.
* `fenceBoundaryForCompletedToolArcs`, `fenceBoundaryForToolArcs`.
* `fence_uncut` — a fenced boundary splits no completed arc; `fence_cases` — where it goes.
-/

namespace MagicContext.Boundary

open Historian (u64Max saturatingSucc)
open Spans Grows

/-! ## Arcs -/

structure ToolArc where
  invOrdinal : Nat
  resOrdinal : Option Nat
  deriving DecidableEq

/-- `completed_tool_arc_crosses_boundary`. -/
def completedToolArcCrossesBoundary (invOrdinal resOrdinal boundary : Nat) : Bool :=
  decide (invOrdinal < boundary) && decide (boundary ≤ resOrdinal)

/-- The ordinals that call and answer under one arc id. -/
structure PartialArc where
  inv : List Nat := []
  res : List Nat := []

/-- Enters a block under its arc id. -/
def enterBlock (ordinal : Nat) (arcs : SortedMap String PartialArc) (block : BoundaryBlock) :
    SortedMap String PartialArc :=
  if block.providerExecuted then arcs
  else
    match block.arcId with
    | none => arcs
    | some arcId =>
      let entry := (arcs.get arcId).getD {}
      match block.kind with
      | .toolCall .. => arcs.insert arcId { entry with inv := entry.inv ++ [ordinal] }
      | .toolResult .. => arcs.insert arcId { entry with res := entry.res ++ [ordinal] }
      | _ => arcs.insert arcId entry

def partialArcs (messages : List BoundaryMsg) : SortedMap String PartialArc :=
  messages.foldl (fun arcs message => message.blocks.foldl (enterBlock message.messageOrdinal) arcs)
    SortedMap.empty

/-- Each call takes the first result that is left and not before it. -/
def pairCalls : List Nat → List Nat → List ToolArc
  | [], _ => []
  | inv :: invs, res =>
    match res.find? fun r => inv ≤ r with
    | some result => ⟨inv, some result⟩ :: pairCalls invs (res.erase result)
    | none => ⟨inv, none⟩ :: pairCalls invs res

/-- The order of arcs: by call, and an open arc after the completed ones. -/
def arcBefore (a b : ToolArc) : Prop :=
  a.invOrdinal < b.invOrdinal ∨ a.invOrdinal = b.invOrdinal ∧
    a.resOrdinal.getD u64Max ≤ b.resOrdinal.getD u64Max

instance : DecidableRel arcBefore := fun _ _ => inferInstanceAs (Decidable (_ ∨ _))

/-- `build_tool_arcs`. -/
def buildToolArcs (messages : List BoundaryMsg) : List ToolArc :=
  ((partialArcs messages).entries.flatMap fun e =>
    pairCalls (e.2.inv.insertionSort (· ≤ ·)) (e.2.res.insertionSort (· ≤ ·))).insertionSort
      arcBefore

/-- The arcs that have a result, as pairs of ordinals. -/
def completedArcs (arcs : List ToolArc) : List (Nat × Nat) :=
  arcs.filterMap fun arc => arc.resOrdinal.map fun result => (arc.invOrdinal, result)

/-- `newest_message_protected_floor`. -/
def newestMessageProtectedFloor {F : Type} (arcs : List ToolArc) (index : TokenIndex F) : Nat :=
  let last := index.lastOrdinal
  ((arcs.filter fun arc =>
    arc.invOrdinal == last || arc.resOrdinal == some last).map (·.invOrdinal)).min?.getD last

/-! ## Fences -/

variable (candidate : Nat)

def minInvocation (component : List (Nat × Nat)) : Nat :=
  (component.map Prod.fst).min?.getD candidate

def maxResult (component : List (Nat × Nat)) : Nat :=
  (component.map Prod.snd).max?.getD candidate

/-- The arcs that overlap around a boundary, as one pass of the loop finds them. -/
def meetsComponent (component : List (Nat × Nat)) (arc : Nat × Nat) : Bool :=
  decide (arc.1 ≤ maxResult candidate component) &&
    decide (minInvocation candidate component ≤ arc.2)

/-- `fence_boundary_for_completed_tool_arcs`. -/
def fenceBoundaryForCompletedToolArcs (arcs : List ToolArc) (floor : Nat) : Nat :=
  let completed := completedArcs arcs
  let component := completed.filter fun arc =>
    completedToolArcCrossesBoundary arc.1 arc.2 candidate
  if component.isEmpty then candidate
  else
    -- Overlapping arcs are one interval, whichever of them the boundary splits.
    let component :=
      saturate (meetsComponent candidate) completed (completed.length + 1) component
    if minInvocation candidate component < floor then
      saturatingSucc (maxResult candidate component)
    else minInvocation candidate component

structure FenceResult where
  boundary : Nat
  openArc : Bool

/-- The first recent call without a result that a boundary would leave behind. -/
def recentOpenArc (arcs : List ToolArc) (boundary publicationFloorOrdinal : Nat)
    (recentOpenArcCutoff : Nat) : Option ToolArc :=
  arcs.find? fun arc =>
    arc.resOrdinal.isNone && decide (recentOpenArcCutoff ≤ arc.invOrdinal) &&
      (decide (publicationFloorOrdinal ≤ arc.invOrdinal) || decide (boundary ≤ arc.invOrdinal))

/-- `fence_boundary_for_tool_arcs`. -/
def fenceBoundaryForToolArcs (arcs : List ToolArc)
    (publicationFloorOrdinal recentOpenArcCutoff : Nat) : FenceResult :=
  let boundary := fenceBoundaryForCompletedToolArcs candidate arcs publicationFloorOrdinal
  let found := recentOpenArc arcs boundary publicationFloorOrdinal recentOpenArcCutoff
  let boundary := (found.map (·.invOrdinal)).getD boundary
  -- An open arc can start inside a completed one.
  ⟨fenceBoundaryForCompletedToolArcs boundary arcs publicationFloorOrdinal, found.isSome⟩

/-! ## Where arcs come from -/

/-- All the ordinals entered so far are among some. -/
def Among (P : Nat → Prop) (arcs : SortedMap String PartialArc) : Prop :=
  ∀ arcId entry, arcs.get arcId = some entry → (∀ n ∈ entry.inv, P n) ∧ ∀ n ∈ entry.res, P n

theorem Among.enterBlock {P : Nat → Prop} {arcs : SortedMap String PartialArc}
    (h : Among P arcs) {ordinal : Nat} (hordinal : P ordinal) (block : BoundaryBlock) :
    Among P (enterBlock ordinal arcs block) := by
  rw [Boundary.enterBlock]
  split
  · exact h
  split
  · exact h
  rename_i arcId _
  have hold : (∀ n ∈ ((arcs.get arcId).getD {}).inv, P n) ∧
      ∀ n ∈ ((arcs.get arcId).getD {}).res, P n := by
    cases hget : arcs.get arcId with
    | none => simp
    | some entry => exact h arcId entry hget
  have hadded : ∀ {l : List Nat}, (∀ n ∈ l, P n) → ∀ n ∈ l ++ [ordinal], P n := by
    intro l hl n hn
    rcases List.mem_append.mp hn with hn | hn
    · exact hl n hn
    · exact List.mem_singleton.mp hn ▸ hordinal
  have hinsert : ∀ entry : PartialArc, ((∀ n ∈ entry.inv, P n) ∧ ∀ n ∈ entry.res, P n) →
      Among P (arcs.insert arcId entry) := by
    intro entry hentry arcId' entry' hget
    rw [SortedMap.get_insert] at hget
    split at hget
    · rw [Option.some_inj] at hget
      exact hget ▸ hentry
    · exact h arcId' entry' hget
  split
  · exact hinsert _ ⟨hadded hold.1, hold.2⟩
  · exact hinsert _ ⟨hold.1, hadded hold.2⟩
  · exact hinsert _ hold

theorem among_partialArcs (messages : List BoundaryMsg) :
    Among (fun n => ∃ message ∈ messages, message.messageOrdinal = n) (partialArcs messages) := by
  refine List.foldlRecOn messages _ (fun arcId entry h => ?_) fun arcs h message hmessage => ?_
  · rw [SortedMap.get_empty] at h
    cases h
  · exact List.foldlRecOn message.blocks _ h fun arcs h block _ =>
      h.enterBlock ⟨message, hmessage, rfl⟩ block

theorem mem_pairCalls {invs res : List Nat} {arc : ToolArc} (h : arc ∈ pairCalls invs res) :
    arc.invOrdinal ∈ invs ∧ ∀ r, arc.resOrdinal = some r → r ∈ res ∧ arc.invOrdinal ≤ r := by
  induction invs generalizing res with
  | nil => cases h
  | cons inv invs ih =>
    rw [pairCalls] at h
    split at h
    · rename_i result hfind
      have hle : inv ≤ result := by simpa using List.find?_some hfind
      rcases List.mem_cons.mp h with rfl | h
      · refine ⟨List.mem_cons_self .., fun r hr => ?_⟩
        rw [Option.some_inj] at hr
        exact hr ▸ ⟨List.mem_of_find?_eq_some hfind, hle⟩
      · obtain ⟨hinv, hres⟩ := ih h
        exact ⟨List.mem_cons_of_mem inv hinv, fun r hr =>
          ⟨List.mem_of_mem_erase (hres r hr).1, (hres r hr).2⟩⟩
    · rcases List.mem_cons.mp h with rfl | h
      · exact ⟨List.mem_cons_self .., fun r hr => nomatch hr⟩
      · obtain ⟨hinv, hres⟩ := ih h
        exact ⟨List.mem_cons_of_mem inv hinv, hres⟩

/-- The two ends of an arc are ordinals of messages, and the result does not come first. -/
theorem mem_buildToolArcs {messages : List BoundaryMsg} {arc : ToolArc}
    (h : arc ∈ buildToolArcs messages) :
    (∃ message ∈ messages, message.messageOrdinal = arc.invOrdinal) ∧
      ∀ r, arc.resOrdinal = some r →
        (∃ message ∈ messages, message.messageOrdinal = r) ∧ arc.invOrdinal ≤ r := by
  obtain ⟨e, he, harc⟩ := List.mem_flatMap.mp ((List.mem_insertionSort _).mp h)
  obtain ⟨hinv, hres⟩ := among_partialArcs messages e.1 e.2 (SortedMap.get_eq_some.mpr he)
  obtain ⟨harcInv, harcRes⟩ := mem_pairCalls harc
  refine ⟨hinv _ ((List.mem_insertionSort _).mp harcInv), fun r hr => ?_⟩
  obtain ⟨hmem, hle⟩ := harcRes r hr
  exact ⟨hres r ((List.mem_insertionSort _).mp hmem), hle⟩

theorem mem_completedArcs {arcs : List ToolArc} {s : Nat × Nat} :
    s ∈ completedArcs arcs ↔ ⟨s.1, some s.2⟩ ∈ arcs := by
  rw [completedArcs, List.mem_filterMap]
  constructor
  · rintro ⟨⟨inv, res⟩, harc, hmap⟩
    obtain ⟨result, rfl, rfl⟩ := Option.map_eq_some_iff.mp hmap
    exact harc
  · exact fun h => ⟨_, h, rfl⟩

/-! ## What fences reach -/

theorem exists_minInvocation {component : List (Nat × Nat)} (h : component ≠ []) :
    (∃ s ∈ component, s.1 = minInvocation candidate component) ∧
      ∀ s ∈ component, minInvocation candidate component ≤ s.1 := by
  have hsome : (component.map Prod.fst).min?.isSome := by
    simpa [List.isSome_min?_iff] using h
  obtain ⟨lo, hlo⟩ := Option.isSome_iff_exists.mp hsome
  rw [minInvocation, hlo, Option.getD_some]
  obtain ⟨hmem, hle⟩ := List.min?_eq_some_iff.mp hlo
  exact ⟨List.mem_map.mp hmem, fun s hs => hle s.1 (List.mem_map_of_mem hs)⟩

theorem exists_maxResult {component : List (Nat × Nat)} (h : component ≠ []) :
    (∃ s ∈ component, s.2 = maxResult candidate component) ∧
      ∀ s ∈ component, s.2 ≤ maxResult candidate component := by
  have hsome : (component.map Prod.snd).max?.isSome := by
    simpa [List.isSome_max?_iff] using h
  obtain ⟨hi, hhi⟩ := Option.isSome_iff_exists.mp hsome
  rw [maxResult, hhi, Option.getD_some]
  obtain ⟨hmem, hle⟩ := List.max?_eq_some_iff.mp hhi
  exact ⟨List.mem_map.mp hmem, fun s hs => hle s.2 (List.mem_map_of_mem hs)⟩

theorem crosses_iff {s : Nat × Nat} {boundary : Nat} :
    completedToolArcCrossesBoundary s.1 s.2 boundary = true ↔ Cuts boundary s := by
  rw [completedToolArcCrossesBoundary, Bool.and_eq_true_iff, decide_eq_true_iff, decide_eq_true_iff]
  exact Iff.rfl

/-- The overlapping arcs the loop has gathered so far. -/
structure Gathered (completed : List (Nat × Nat)) (component : List (Nat × Nat)) : Prop where
  nonempty : component ≠ []
  subset : component ⊆ completed
  linked : Linked component

/-- A pass gathers arcs that overlap with those it has. -/
theorem Gathered.absorb {candidate : Nat} {completed component : List (Nat × Nat)}
    (h : Gathered completed component) :
    Gathered completed (absorb (meetsComponent candidate component) completed component) := by
  obtain ⟨⟨s, hs, hlo⟩, -⟩ := exists_minInvocation candidate h.nonempty
  obtain ⟨⟨t, ht, hhi⟩, -⟩ := exists_maxResult candidate h.nonempty
  have hpass : component ⊆ Grows.absorb (meetsComponent candidate component) completed component ∧
      Gathered completed
        (Grows.absorb (meetsComponent candidate component) completed component) := by
    refine absorb_preserves (P := fun taken => component ⊆ taken ∧ Gathered completed taken) ?_
      ⟨List.Subset.refl component, h⟩
    rintro taken arc harc ⟨hsub, -, hsubset, hlinked⟩ hmeets
    obtain ⟨harcHi, harcLo⟩ := Bool.and_eq_true_iff.mp hmeets
    refine ⟨fun a ha => List.mem_append_left _ (hsub ha), by simp, ?_, ?_⟩
    · exact List.append_subset.mpr ⟨hsubset, List.cons_subset.mpr ⟨harc, List.nil_subset completed⟩⟩
    · exact hlinked.append (hsub hs) (hsub ht) (hlo ▸ of_decide_eq_true harcLo)
        (hhi ▸ of_decide_eq_true harcHi)
  exact hpass.2

/-- **Where a fence leaves a boundary**: in its place, when no completed arc is split there;
otherwise at one of the two ends of the component of arcs around it. -/
theorem fence_cases (arcs : List ToolArc) (floor : Nat) : Uncut (completedArcs arcs) candidate ∧
        fenceBoundaryForCompletedToolArcs candidate arcs floor = candidate ∨
      ∃ lo hi, Component (completedArcs arcs) lo hi ∧ lo < candidate ∧ candidate ≤ hi ∧
        (∃ s ∈ completedArcs arcs, s.1 = lo) ∧ (∃ t ∈ completedArcs arcs, t.2 = hi) ∧
        fenceBoundaryForCompletedToolArcs candidate arcs floor =
          if lo < floor then saturatingSucc hi else lo := by
  rw [fenceBoundaryForCompletedToolArcs]
  generalize hcompleted : completedArcs arcs = completed
  generalize hstart : completed.filter
    (fun arc => completedToolArcCrossesBoundary arc.1 arc.2 candidate) = start
  have hcuts : ∀ s, s ∈ start ↔ s ∈ completed ∧ Cuts candidate s := fun s => by
    rw [← hstart, List.mem_filter, crosses_iff]
  cases start with
  | nil =>
    refine Or.inl ⟨fun s hs hcut => ?_, rfl⟩
    cases (hcuts s).mpr ⟨hs, hcut⟩
  | cons first start =>
    rw [if_neg (by simp)]
    generalize hcomponent : saturate (meetsComponent candidate) completed (completed.length + 1)
      (first :: start) = component
    have hgathered : Gathered completed component := by
      rw [← hcomponent]
      refine saturate_preserves (fun taken htaken => htaken.absorb) _ ⟨by simp, ?_, ?_⟩
      · exact fun s hs => ((hcuts s).mp hs).1
      · exact linked_of_cuts fun s hs => ((hcuts s).mp hs).2
    have hfirst : first ∈ component := hcomponent ▸
      subset_saturate (meetsComponent candidate) completed _ _ (List.mem_cons_self ..)
    have hclosed : ∀ s ∈ completed, meetsComponent candidate component s = true →
        s ∈ component := by
      intro s hs hmeets
      rw [← hcomponent] at hmeets ⊢
      refine saturate_closed (Nat.lt_succ_of_le ?_) hs hmeets
      exact List.length_filter_le _ _
    obtain ⟨⟨s, hs, hlo⟩, hleast⟩ := exists_minInvocation candidate hgathered.nonempty
    obtain ⟨⟨t, ht, hhi⟩, hgreatest⟩ := exists_maxResult candidate hgathered.nonempty
    obtain ⟨hbefore, hafter⟩ := ((hcuts first).mp (List.mem_cons_self ..)).2
    have hlt : minInvocation candidate component < candidate :=
      (hleast first hfirst).trans_lt hbefore
    have hle : candidate ≤ maxResult candidate component :=
      hafter.trans (hgreatest first hfirst)
    refine Or.inr ⟨_, _, ⟨fun u hu huHi huLo => ?_, fun b hb hb' => ?_, hlt.le.trans hle⟩, hlt,
      hle, ⟨s, hgathered.subset hs, hlo⟩, ⟨t, hgathered.subset ht, hhi⟩, rfl⟩
    · have hmem := hclosed u hu
        (Bool.and_eq_true_iff.mpr ⟨decide_eq_true huHi, decide_eq_true huLo⟩)
      exact ⟨hleast u hmem, hgreatest u hmem⟩
    · have hcut := hgathered.linked s hs t ht b (hlo ▸ hb) (hhi ▸ hb')
      exact fun hfree => hcut fun u hu => hfree u (hgathered.subset hu)

/-- **A fenced boundary splits no completed arc.** -/
theorem fence_uncut {arcs : List ToolArc} (h : ∀ s ∈ completedArcs arcs, s.2 < u64Max)
    (candidate floor : Nat) :
    Uncut (completedArcs arcs) (fenceBoundaryForCompletedToolArcs candidate arcs floor) := by
  rcases fence_cases candidate arcs floor with
    ⟨hfree, heq⟩ | ⟨lo, hi, hcomponent, -, -, -, ⟨t, ht, rfl⟩, heq⟩
  · rw [heq]
    exact hfree
  · rw [heq]
    split
    · rw [saturatingSucc, Nat.min_eq_left (h t ht)]
      exact hcomponent.uncut_after ⟨Nat.lt_succ_self t.2, fun c hlt hgt => by omega⟩
    · exact hcomponent.uncut_lo

end MagicContext.Boundary
