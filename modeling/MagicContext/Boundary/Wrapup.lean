import Mathlib.Data.List.Dedup
import MagicContext.Boundary.Pairing
import MagicContext.Lib.Settling

/-!
# The boundary of a wrap-up

A wrap-up is asked for by hand and keeps a number of the newest messages.  The watermark that
leaves them is moved back, out of tool arcs and to the message of the user that opens the turn, and
never forward.

## What is here

* `fenceWrapupBoundaryForToolArcs` — the bounded loop out of tool arcs; `wrapupPass_fence`: it ends
  where another round changes nothing.
* `snapWrapupBoundaryToUser`, `resolveWrapupBoundary`.
* `wrapup_boundary` — what holds of the boundary of every wrap-up.
-/

namespace MagicContext.Boundary

open Double (clamp)
open Historian (u64Max saturatingSucc)
open Settling (settle)
open TokenIndex

variable {F : Type} [Double F]

/-! ## The fence -/

/-- One round over the arcs: each completed arc from the offset on that the boundary splits moves it
to the call. -/
def wrapupPass (arcs : List ToolArc) (offset boundary : Nat) : Nat :=
  arcs.foldl (fun next arc =>
    match arc.resOrdinal with
    | none => next
    | some result =>
      if offset ≤ arc.invOrdinal ∧ arc.invOrdinal < next ∧ next ≤ result then arc.invOrdinal
      else next) boundary

/-- `fence_wrapup_boundary_for_tool_arcs`. -/
def fenceWrapupBoundaryForToolArcs (candidate : Nat) (arcs : List ToolArc) (offset : Nat) : Nat :=
  settle (wrapupPass arcs offset) (arcs.length + 1) candidate

/-- A completed arc from the offset on is split at `boundary`. -/
def SplitsFrom (arcs : List ToolArc) (offset boundary : Nat) : Prop :=
  ∃ arc ∈ arcs, ∃ result, arc.resOrdinal = some result ∧ offset ≤ arc.invOrdinal ∧
    arc.invOrdinal < boundary ∧ boundary ≤ result

section

variable {arcs : List ToolArc} {offset : Nat}

theorem wrapupPass_cons (arc : ToolArc) (arcs : List ToolArc) (offset boundary : Nat) :
    wrapupPass (arc :: arcs) offset boundary =
      wrapupPass arcs offset (wrapupPass [arc] offset boundary) := rfl

/-- A single arc moves the boundary when it is split there. -/
theorem wrapupPass_singleton (arc : ToolArc) (offset boundary : Nat) :
    (SplitsFrom [arc] offset boundary ∧ wrapupPass [arc] offset boundary = arc.invOrdinal) ∨
      ¬ SplitsFrom [arc] offset boundary ∧ wrapupPass [arc] offset boundary = boundary := by
  obtain ⟨inv, res⟩ := arc
  cases res with
  | none => exact .inr ⟨by simp [SplitsFrom], rfl⟩
  | some result =>
    by_cases h : offset ≤ inv ∧ inv < boundary ∧ boundary ≤ result
    · exact .inl ⟨by simpa [SplitsFrom] using h, by simp [wrapupPass, h]⟩
    · exact .inr ⟨by simpa [SplitsFrom] using h, by simp [wrapupPass, h]⟩

theorem splitsFrom_cons {arc : ToolArc} {boundary : Nat} :
    SplitsFrom (arc :: arcs) offset boundary ↔
      SplitsFrom [arc] offset boundary ∨ SplitsFrom arcs offset boundary := by
  simp [SplitsFrom]

/-- **What a round does**: nothing where no arc is split, and otherwise it moves the boundary back
to a call that is not before the offset. -/
theorem wrapupPass_cases (arcs : List ToolArc) (offset boundary : Nat) :
    ¬ SplitsFrom arcs offset boundary ∧ wrapupPass arcs offset boundary = boundary ∨
      SplitsFrom arcs offset boundary ∧ wrapupPass arcs offset boundary < boundary ∧
        ∃ arc ∈ arcs, arc.invOrdinal = wrapupPass arcs offset boundary ∧
          offset ≤ arc.invOrdinal := by
  induction arcs generalizing boundary with
  | nil => exact .inl ⟨by simp [SplitsFrom], rfl⟩
  | cons arc arcs ih =>
    rw [splitsFrom_cons, wrapupPass_cons]
    rcases wrapupPass_singleton arc offset boundary with ⟨hsplit, hpass⟩ | ⟨hfree, hpass⟩
    · rw [hpass]
      obtain ⟨hoffset, hlt⟩ : offset ≤ arc.invOrdinal ∧ arc.invOrdinal < boundary := by
        obtain ⟨other, hother, -, -, hoffset, hlt, -⟩ := hsplit
        rw [List.mem_singleton.mp hother] at hoffset hlt
        exact ⟨hoffset, hlt⟩
      refine .inr ⟨.inl hsplit, ?_⟩
      rcases ih arc.invOrdinal with ⟨-, heq⟩ | ⟨-, hback, other, hother, heq, hle⟩
      · rw [heq]
        exact ⟨hlt, arc, List.mem_cons_self .., rfl, hoffset⟩
      · exact ⟨hback.trans hlt, other, List.mem_cons_of_mem arc hother, heq, hle⟩
    · rw [hpass]
      rcases ih boundary with ⟨hnone, heq⟩ | ⟨hsplit, hback, other, hother, heq, hle⟩
      · exact .inl ⟨not_or.mpr ⟨hfree, hnone⟩, heq⟩
      · exact .inr ⟨.inr hsplit, hback, other, List.mem_cons_of_mem arc hother, heq, hle⟩

theorem wrapupPass_le (boundary : Nat) : wrapupPass arcs offset boundary ≤ boundary := by
  rcases wrapupPass_cases arcs offset boundary with ⟨-, heq⟩ | ⟨-, hlt, -⟩
  · exact heq.le
  · exact hlt.le

theorem le_wrapupPass {boundary : Nat} (h : offset ≤ boundary) :
    offset ≤ wrapupPass arcs offset boundary := by
  rcases wrapupPass_cases arcs offset boundary with ⟨-, heq⟩ | ⟨-, -, arc, -, heq, hle⟩
  · rw [heq]
    exact h
  · rw [← heq]
    exact hle

/-- A round that moves the boundary leaves fewer calls before it. -/
theorem calls_wrapupPass_lt {boundary : Nat} (h : wrapupPass arcs offset boundary ≠ boundary) :
    (arcs.filter fun arc => arc.invOrdinal < wrapupPass arcs offset boundary).length <
      (arcs.filter fun arc => arc.invOrdinal < boundary).length := by
  rcases wrapupPass_cases arcs offset boundary with ⟨-, heq⟩ | ⟨-, hlt, arc, harc, heq, -⟩
  · exact absurd heq h
  · have hfilter : (arcs.filter fun arc => arc.invOrdinal < wrapupPass arcs offset boundary) =
        (arcs.filter fun arc => arc.invOrdinal < boundary).filter fun arc =>
          arc.invOrdinal < wrapupPass arcs offset boundary := by
      rw [List.filter_filter]
      refine List.filter_congr fun other _ => ?_
      by_cases hother : other.invOrdinal < wrapupPass arcs offset boundary
      · simp [hother, hother.trans hlt]
      · simp [hother]
    rw [hfilter, List.length_filter_lt_length_iff_exists]
    refine ⟨arc, List.mem_filter.mpr ⟨harc, ?_⟩, ?_⟩
    · simpa [heq] using hlt
    · simp [heq]

/-- **The loop ends at a fixed point.** -/
theorem wrapupPass_fence (candidate : Nat) :
    wrapupPass arcs offset (fenceWrapupBoundaryForToolArcs candidate arcs offset) =
      fenceWrapupBoundaryForToolArcs candidate arcs offset := by
  refine Settling.settle_fixed
    (m := fun boundary => (arcs.filter fun arc => arc.invOrdinal < boundary).length)
    (fun boundary => calls_wrapupPass_lt) (Nat.lt_succ_of_le ?_)
  exact List.length_filter_le _ _

/-- The fence splits no arc from the offset on. -/
theorem fenceWrapup_not_splits (candidate : Nat) :
    ¬ SplitsFrom arcs offset (fenceWrapupBoundaryForToolArcs candidate arcs offset) := by
  rcases wrapupPass_cases arcs offset (fenceWrapupBoundaryForToolArcs candidate arcs offset) with
    ⟨hfree, -⟩ | ⟨-, hlt, -⟩
  · exact hfree
  · exact absurd (wrapupPass_fence candidate) hlt.ne

theorem fenceWrapup_le (candidate : Nat) :
    fenceWrapupBoundaryForToolArcs candidate arcs offset ≤ candidate :=
  Settling.settle_preserves (P := fun boundary => boundary ≤ candidate)
    (fun boundary h => (wrapupPass_le boundary).trans h) le_rfl _

theorem le_fenceWrapup {candidate : Nat} (h : offset ≤ candidate) :
    offset ≤ fenceWrapupBoundaryForToolArcs candidate arcs offset :=
  Settling.settle_preserves (P := fun boundary => offset ≤ boundary) (fun _ => le_wrapupPass) h _

end

/-! ## The snap to the user -/

/-- The messages from the newest on, those of one ordinal as they came. -/
def newestFirst (messages : List BoundaryMsg) : List BoundaryMsg :=
  messages.insertionSort fun a b => b.messageOrdinal ≤ a.messageOrdinal

/-- `snap_wrapup_boundary_to_user`. -/
def snapWrapupBoundaryToUser (tools : TextTools) (messages : List BoundaryMsg)
    (index : TokenIndex F) (candidate offset : Nat) (triggerBudget : F) : Nat :=
  if candidate ≤ offset then candidate
  else
    let snapTokenLimit := clamp triggerBudget 2000 48000
    let user := (newestFirst messages).find? fun message =>
      decide (message.messageOrdinal ≤ candidate) && decide (offset ≤ message.messageOrdinal) &&
        (message.role == .user && hasMeaningfulUserText tools message.blocks)
    match user with
    | none => candidate
    | some message =>
      if index.rangeTokens message.messageOrdinal candidate ≤ snapTokenLimit then
        message.messageOrdinal
      else candidate

/-- The snap moves the boundary back, and not before the offset. -/
theorem snapWrapup_bounds (tools : TextTools) (messages : List BoundaryMsg) (index : TokenIndex F)
    (candidate offset : Nat) (triggerBudget : F) :
    snapWrapupBoundaryToUser tools messages index candidate offset triggerBudget ≤ candidate ∧
      (offset ≤ candidate → offset ≤
        snapWrapupBoundaryToUser tools messages index candidate offset triggerBudget) := by
  rw [snapWrapupBoundaryToUser]
  split
  · exact ⟨le_rfl, id⟩
  dsimp only
  split
  · exact ⟨le_rfl, id⟩
  rename_i message hfind
  have hmessage := List.find?_some hfind
  simp only [Bool.and_eq_true, decide_eq_true_eq] at hmessage
  split
  · exact ⟨hmessage.1.1, fun _ => hmessage.1.2⟩
  · exact ⟨le_rfl, id⟩

/-! ## The resolution -/

inductive WrapupReason where
  | empty | withinKeep | keepWatermark | toolArc | userSnap
  deriving DecidableEq

/-- The resolution of a wrap-up's boundary. -/
structure WrapupBoundary (F : Type) where
  protectedStartOrdinal : Nat
  /-- The first ordinal of the eligible head, and one past its last. -/
  eligibleHead : Nat × Nat
  nTokens : F
  flooredByLivePrompt : Bool
  fencedByOpenArc : Bool
  trueRawEligibleTokens : F
  oversizeAtomicUnit : Bool
  rawMessageCount : Nat
  boundaryReason : WrapupReason

structure WrapupBoundaryResolution (F : Type) where
  boundary : WrapupBoundary F
  rawMessagesAboveLastCompartment : Nat
  targetProtectedStartOrdinal : Nat

/-- The ordinals of the messages from the offset on, increasing. -/
def liveOrdinals (messages : List BoundaryMsg) (offset : Nat) : List Nat :=
  (((messages.map (·.messageOrdinal)).filter (offset ≤ ·)).insertionSort (· ≤ ·)).dedup

/-- The watermark moved out of tool arcs, to the user, out of tool arcs, and before the newest
message with its tools. -/
def moveWatermark (tools : TextTools) (messages : List BoundaryMsg) (index : TokenIndex F)
    (arcs : List ToolArc) (offset : Nat) (triggerBudget : F) (watermark : Nat) :
    Nat × WrapupReason :=
  let fenced := fenceWrapupBoundaryForToolArcs watermark arcs offset
  let reason := if fenced ≠ watermark then WrapupReason.toolArc else .keepWatermark
  let snapped := snapWrapupBoundaryToUser tools messages index fenced offset triggerBudget
  let reason := if snapped ≠ fenced then .userSnap else reason
  let refenced := fenceWrapupBoundaryForToolArcs snapped arcs offset
  let reason := if refenced ≠ snapped then .toolArc else reason
  (min refenced (newestMessageProtectedFloor arcs index), reason)

/-- `resolve_wrapup_boundary`. -/
def resolveWrapupBoundary (tools : TextTools) (messages : List BoundaryMsg)
    (lastCompartmentEndOrdinal : Option Nat) (keep : Nat)
    (contextLimit executeThresholdPercentage : F) : WrapupBoundaryResolution F :=
  let index : TokenIndex F := TokenIndex.new messages
  let offset := (compartmentOffset lastCompartmentEndOrdinal messages).getD 1
  let live := liveOrdinals messages offset
  let keep := max keep 1
  if live.isEmpty then
    { boundary :=
        { protectedStartOrdinal := offset
          eligibleHead := (offset, offset)
          nTokens := Double.ofNat keep
          flooredByLivePrompt := false
          fencedByOpenArc := false
          trueRawEligibleTokens := 0
          oversizeAtomicUnit := false
          rawMessageCount := index.rawMessageCount
          boundaryReason := .empty }
      rawMessagesAboveLastCompartment := 0
      targetProtectedStartOrdinal := offset }
  else
    let (start, reason) :=
      if live.length ≤ keep then (offset, .withinKeep)
      else moveWatermark tools messages index (buildToolArcs messages) offset
        (deriveTriggerBudget contextLimit executeThresholdPercentage)
        (live.getD (live.length - keep) 0)
    let start := index.clampOrdinal (max start offset)
    { boundary :=
        { protectedStartOrdinal := start
          eligibleHead := (offset, start)
          nTokens := Double.ofNat keep
          flooredByLivePrompt := false
          fencedByOpenArc := false
          trueRawEligibleTokens := index.rangeTokens offset start
          oversizeAtomicUnit := false
          rawMessageCount := index.rawMessageCount
          boundaryReason := reason }
      rawMessagesAboveLastCompartment := live.length
      targetProtectedStartOrdinal := start }

/-! ## The live ordinals -/

theorem mem_liveOrdinals {messages : List BoundaryMsg} {offset n : Nat} :
    n ∈ liveOrdinals messages offset ↔
      (∃ message ∈ messages, message.messageOrdinal = n) ∧ offset ≤ n := by
  rw [liveOrdinals, List.mem_dedup, List.mem_insertionSort, List.mem_filter, List.mem_map,
    decide_eq_true_iff]

theorem increasing_liveOrdinals (messages : List BoundaryMsg) (offset : Nat) :
    (liveOrdinals messages offset).Pairwise (· < ·) := by
  have hsorted := List.pairwise_insertionSort (· ≤ ·)
    ((messages.map (·.messageOrdinal)).filter (offset ≤ ·))
  have hle := hsorted.sublist (List.dedup_sublist _)
  exact hle.imp₂ (fun _ _ hle hne => lt_of_le_of_ne hle hne) (List.nodup_dedup _)

/-- What lies before one of the newest ordinals leaves as many of them. -/
theorem le_length_filter_of_drop {live : List Nat} {keep boundary : Nat}
    (hkeep : keep ≤ live.length) (h : ∀ n ∈ live.drop (live.length - keep), boundary ≤ n) :
    keep ≤ (live.filter (boundary ≤ ·)).length := by
  have hdrop : (live.drop (live.length - keep)).filter (boundary ≤ ·) =
      live.drop (live.length - keep) := List.filter_eq_self.mpr fun n hn => by simpa using h n hn
  have hsub := (List.drop_sublist (live.length - keep) live).filter (boundary ≤ ·)
  rw [hdrop] at hsub
  have hlength := hsub.length_le
  rw [List.length_drop] at hlength
  omega

theorem getD_le_of_mem_drop {live : List Nat} (hlive : live.Pairwise (· < ·)) {position n : Nat}
    (hn : n ∈ live.drop position) : live.getD position 0 ≤ n := by
  obtain ⟨i, hi, rfl⟩ := List.getElem_of_mem hn
  rw [List.length_drop] at hi
  rw [List.getElem_drop, List.getD_eq_getElem _ _ (by omega)]
  rcases Nat.eq_zero_or_pos i with rfl | hpos
  · rfl
  · exact (List.pairwise_iff_getElem.mp hlive _ _ _ _ (by omega)).le

/-- Distinct ordinals belong to distinct messages. -/
theorem length_filter_liveOrdinals_le {messages : List BoundaryMsg} {offset boundary : Nat} :
    ((liveOrdinals messages offset).filter (boundary ≤ ·)).length ≤
      (messages.filter fun message => boundary ≤ message.messageOrdinal).length := by
  have hnodup : ((liveOrdinals messages offset).filter (boundary ≤ ·)).Nodup :=
    (List.nodup_dedup _).filter _
  have hsub : (liveOrdinals messages offset).filter (boundary ≤ ·) ⊆
      (messages.filter fun message => boundary ≤ message.messageOrdinal).map
        (·.messageOrdinal) := by
    intro n hn
    obtain ⟨hlive, hle⟩ := List.mem_filter.mp hn
    obtain ⟨⟨message, hmessage, rfl⟩, -⟩ := mem_liveOrdinals.mp hlive
    exact List.mem_map_of_mem (List.mem_filter.mpr ⟨hmessage, hle⟩)
  have hlength := (hnodup.subperm hsub).length_le
  rwa [List.length_map] at hlength

/-! ## The boundary -/

omit [Double F] in
theorem newestMessageProtectedFloor_cases (arcs : List ToolArc) (index : TokenIndex F) :
    newestMessageProtectedFloor arcs index = index.lastOrdinal ∨
      ∃ arc ∈ arcs, arc.invOrdinal = newestMessageProtectedFloor arcs index ∧
        arc.resOrdinal = some index.lastOrdinal := by
  rw [newestMessageProtectedFloor]
  cases hmin : ((arcs.filter fun arc => arc.invOrdinal == index.lastOrdinal ||
      arc.resOrdinal == some index.lastOrdinal).map (·.invOrdinal)).min? with
  | none => exact .inl rfl
  | some least =>
    obtain ⟨arc, harc, rfl⟩ := List.mem_map.mp (List.min?_mem hmin)
    obtain ⟨hmem, hnewest⟩ := List.mem_filter.mp harc
    rcases Bool.or_eq_true_iff.mp hnewest with hinv | hres
    · exact .inl (beq_iff_eq.mp hinv)
    · exact .inr ⟨arc, hmem, rfl, beq_iff_eq.mp hres⟩

/-- **The moved watermark** is not after the watermark and splits no arc from the offset on. -/
theorem moveWatermark_spec (tools : TextTools) (messages : List BoundaryMsg)
    (index : TokenIndex F) (arcs : List ToolArc) (triggerBudget : F) {offset watermark : Nat}
    (hoffset : offset ≤ watermark) (hlast : watermark ≤ index.lastOrdinal) :
    max (moveWatermark tools messages index arcs offset triggerBudget watermark).1 offset ≤
        watermark ∧
      ¬ SplitsFrom arcs offset
        (max (moveWatermark tools messages index arcs offset triggerBudget watermark).1 offset) := by
  rw [moveWatermark]
  generalize hfenced : fenceWrapupBoundaryForToolArcs watermark arcs offset = fenced
  generalize hsnapped :
    snapWrapupBoundaryToUser tools messages index fenced offset triggerBudget = snapped
  generalize hrefenced : fenceWrapupBoundaryForToolArcs snapped arcs offset = refenced
  obtain ⟨hback, hstay⟩ := hsnapped ▸
    snapWrapup_bounds tools messages index fenced offset triggerBudget
  have hle : refenced ≤ watermark :=
    (hrefenced ▸ fenceWrapup_le snapped).trans (hback.trans (hfenced ▸ fenceWrapup_le watermark))
  have hge : offset ≤ refenced :=
    hrefenced ▸ le_fenceWrapup (hstay (hfenced ▸ le_fenceWrapup hoffset))
  have hfree : ¬ SplitsFrom arcs offset refenced := hrefenced ▸ fenceWrapup_not_splits snapped
  refine ⟨max_le ((min_le_left ..).trans hle) hoffset, ?_⟩
  rcases le_or_gt refenced (newestMessageProtectedFloor arcs index) with hfloor | hfloor
  · rwa [min_eq_left hfloor, max_eq_left hge]
  · -- the newest message answers a call from before the offset, and the head is empty
    rw [min_eq_right hfloor.le]
    rcases newestMessageProtectedFloor_cases arcs index with heq | ⟨arc, harc, heq, hres⟩
    · omega
    · have hbefore : newestMessageProtectedFloor arcs index < offset := by
        by_contra hnot
        exact hfree ⟨arc, harc, _, hres, by omega, by omega, hle.trans hlast⟩
      rw [max_eq_right hbefore.le]
      rintro ⟨other, -, -, -, hge', hlt, -⟩
      omega

omit [Double F] in
/-- Between the offset and the newest message only the oldest message bounds an ordinal. -/
theorem clampOrdinal_eq_max {messages : List BoundaryMsg} {index : TokenIndex F}
    (hsound : index.Sound messages) {n : Nat} (hn : n ∈ index.ordinals)
    (hmax : index.lastOrdinal ≤ u64Max) {ordinal : Nat} (h : ordinal ≤ index.lastOrdinal) :
    index.clampOrdinal ordinal = max ordinal index.firstOrdinal := by
  have hne : index.ordinals.isEmpty = false := by
    simpa using List.ne_nil_of_mem hn
  have hfirst : index.firstOrdinal ≤ index.lastOrdinal :=
    (hsound.firstOrdinal_le hn).trans (hsound.le_lastOrdinal hn)
  have hterminal : max ordinal index.firstOrdinal ≤ index.terminalOrdinal := by
    rw [hsound.terminalOrdinal_of_mem hn, saturatingSucc]
    have hboth : max ordinal index.firstOrdinal ≤ index.lastOrdinal := max_le h hfirst
    exact le_min (hboth.trans (Nat.le_succ _)) (hboth.trans hmax)
  rw [clampOrdinal, hne, if_neg Bool.false_ne_true, min_eq_left hterminal]

/-- Where there are messages from the offset on, the boundary is the offset or lies between it and
the watermark, and splits no arc from the offset on. -/
theorem exists_wrapup_start (tools : TextTools) (messages : List BoundaryMsg)
    (hordinals : ∀ message ∈ messages, message.messageOrdinal ≤ u64Max)
    (lastCompartmentEndOrdinal : Option Nat) (keep : Nat)
    (contextLimit executeThresholdPercentage : F) {offset : Nat}
    (hoffset : (compartmentOffset lastCompartmentEndOrdinal messages).getD 1 = offset)
    (hlive : liveOrdinals messages offset ≠ []) :
    ∃ start, offset ≤ start ∧ ¬ SplitsFrom (buildToolArcs messages) offset start ∧
      (start = offset ∧ (liveOrdinals messages offset).length ≤ max keep 1 ∨
        max keep 1 < (liveOrdinals messages offset).length ∧ start ≤
          (liveOrdinals messages offset).getD
            ((liveOrdinals messages offset).length - max keep 1) 0) ∧
      (resolveWrapupBoundary tools messages lastCompartmentEndOrdinal keep contextLimit
          executeThresholdPercentage).boundary.protectedStartOrdinal =
        max start (new messages : TokenIndex F).firstOrdinal := by
  have hsound := sound_new (F := F) messages
  have hmem : ∀ n ∈ liveOrdinals messages offset,
      n ∈ (new messages : TokenIndex F).ordinals := fun n hn =>
    (hsound.mem_iff n).mpr (mem_liveOrdinals.mp hn).1
  have hmax : (new messages : TokenIndex F).lastOrdinal ≤ u64Max := by
    rw [hsound.lastOrdinal_eq]
    rcases hlast : (new messages : TokenIndex F).ordinals.getLast? with _ | last
    · exact Nat.zero_le _
    · obtain ⟨message, hmessage, rfl⟩ := (hsound.mem_iff last).mp (List.mem_of_getLast? hlast)
      exact hordinals message hmessage
  obtain ⟨n, hn⟩ := List.exists_mem_of_ne_nil _ hlive
  have hoffsetLast : offset ≤ (new messages : TokenIndex F).lastOrdinal :=
    (mem_liveOrdinals.mp hn).2.trans (hsound.le_lastOrdinal (hmem n hn))
  have hempty : (liveOrdinals messages offset).isEmpty = false := by simpa using hlive
  have hclamp : ∀ {ordinal : Nat}, ordinal ≤ (new messages : TokenIndex F).lastOrdinal →
      (new messages : TokenIndex F).clampOrdinal ordinal =
        max ordinal (new messages : TokenIndex F).firstOrdinal := fun h =>
    clampOrdinal_eq_max hsound (hmem n hn) hmax h
  by_cases hkeep : (liveOrdinals messages offset).length ≤ max keep 1
  · refine ⟨offset, le_rfl, ?_, .inl ⟨rfl, hkeep⟩, ?_⟩
    · rintro ⟨arc, -, -, -, hge, hlt, -⟩
      exact absurd hge (not_le.mpr hlt)
    · simp only [resolveWrapupBoundary, hoffset, hempty, Bool.false_eq_true, if_false, hkeep,
        if_true, max_self]
      exact hclamp hoffsetLast
  · generalize hwatermark : (liveOrdinals messages offset).getD
      ((liveOrdinals messages offset).length - max keep 1) 0 = watermark
    have hwatermarkMem : watermark ∈ liveOrdinals messages offset := by
      rw [← hwatermark, List.getD_eq_getElem _ _ (by omega)]
      exact List.getElem_mem _
    have hwatermarkLast := hsound.le_lastOrdinal (hmem _ hwatermarkMem)
    obtain ⟨hle, hfree⟩ := moveWatermark_spec tools messages (new messages) (buildToolArcs messages)
      (deriveTriggerBudget contextLimit executeThresholdPercentage)
      (mem_liveOrdinals.mp hwatermarkMem).2 hwatermarkLast
    refine ⟨_, le_max_right .., hfree, .inr ⟨not_le.mp hkeep, hle⟩, ?_⟩
    simp only [resolveWrapupBoundary, hoffset, hempty, Bool.false_eq_true, if_false, hkeep,
      hwatermark]
    exact hclamp (hle.trans hwatermarkLast)

theorem wrapup_eligibleHead (tools : TextTools) (messages : List BoundaryMsg)
    (lastCompartmentEndOrdinal : Option Nat) (keep : Nat)
    (contextLimit executeThresholdPercentage : F) :
    (resolveWrapupBoundary tools messages lastCompartmentEndOrdinal keep contextLimit
        executeThresholdPercentage).boundary.eligibleHead =
      ((compartmentOffset lastCompartmentEndOrdinal messages).getD 1,
        (resolveWrapupBoundary tools messages lastCompartmentEndOrdinal keep contextLimit
          executeThresholdPercentage).boundary.protectedStartOrdinal) := by
  rw [resolveWrapupBoundary]
  split <;> rfl

omit [Double F] in
/-- No message lies before the oldest one. -/
theorem le_ordinal_iff_max {messages : List BoundaryMsg} {index : TokenIndex F}
    (hsound : index.Sound messages) {message : BoundaryMsg} (hmessage : message ∈ messages)
    (start : Nat) :
    max start index.firstOrdinal ≤ message.messageOrdinal ↔ start ≤ message.messageOrdinal :=
  max_le_iff.trans (and_iff_left
    (hsound.firstOrdinal_le ((hsound.mem_iff _).mpr ⟨message, hmessage, rfl⟩)))

/-- **What holds of the boundary of every wrap-up**: it is not before the offset, it leaves as many
of the newest messages as are asked for where there are as many after the offset, it splits no
completed arc whose call is not before the offset, and its fences end at fixed points. -/
theorem wrapup_boundary (tools : TextTools) (messages : List BoundaryMsg)
    (hordinals : ∀ message ∈ messages, message.messageOrdinal ≤ u64Max)
    (lastCompartmentEndOrdinal : Option Nat) (keep : Nat)
    (contextLimit executeThresholdPercentage : F) :
    let offset := (compartmentOffset lastCompartmentEndOrdinal messages).getD 1
    let resolved := resolveWrapupBoundary tools messages lastCompartmentEndOrdinal keep
      contextLimit executeThresholdPercentage
    let boundary := resolved.boundary.protectedStartOrdinal
    resolved.boundary.eligibleHead = (offset, boundary) ∧ offset ≤ boundary ∧
      (keep ≤ (liveOrdinals messages offset).length →
        keep ≤ ((liveOrdinals messages offset).filter (boundary ≤ ·)).length) ∧
      (keep ≤ (messages.filter fun message => offset ≤ message.messageOrdinal).length →
        keep ≤ (messages.filter fun message => boundary ≤ message.messageOrdinal).length) ∧
      ¬ SplitsFrom (buildToolArcs messages) offset boundary ∧
      ∀ candidate,
        wrapupPass (buildToolArcs messages) offset
            (fenceWrapupBoundaryForToolArcs candidate (buildToolArcs messages) offset) =
          fenceWrapupBoundaryForToolArcs candidate (buildToolArcs messages) offset := by
  intro offset resolved boundary
  refine ⟨wrapup_eligibleHead .., ?_⟩
  by_cases hempty : liveOrdinals messages offset = []
  · have hstart : boundary = offset := by
      simp only [boundary, resolved, resolveWrapupBoundary]
      rw [if_pos (by simpa [offset] using hempty)]
    rw [hstart]
    refine ⟨le_rfl, fun hkeep => ?_, id, ?_, wrapupPass_fence⟩
    · rw [hempty] at hkeep ⊢
      exact hkeep
    · rintro ⟨arc, -, result, -, hge, hlt, -⟩
      exact absurd hge (not_le.mpr hlt)
  · obtain ⟨start, hge, hfree, hcases, hstart⟩ := exists_wrapup_start tools messages hordinals
      lastCompartmentEndOrdinal keep contextLimit executeThresholdPercentage rfl hempty
    have hsound := TokenIndex.sound_new (F := F) messages
    have hboundary : boundary = max start (TokenIndex.new messages : TokenIndex F).firstOrdinal :=
      hstart
    -- the oldest message bounds the boundary without leaving a message out
    have hlive : (liveOrdinals messages offset).filter (boundary ≤ ·) =
        (liveOrdinals messages offset).filter (start ≤ ·) := by
      refine List.filter_congr fun n hn => decide_eq_decide.mpr ?_
      obtain ⟨⟨message, hmessage, rfl⟩, -⟩ := mem_liveOrdinals.mp hn
      rw [hboundary]
      exact le_ordinal_iff_max hsound hmessage start
    have hmessages : (messages.filter fun message => boundary ≤ message.messageOrdinal) =
        messages.filter fun message => start ≤ message.messageOrdinal := by
      refine List.filter_congr fun message hmessage => decide_eq_decide.mpr ?_
      rw [hboundary]
      exact le_ordinal_iff_max hsound hmessage start
    have hkept : (keep ≤ (liveOrdinals messages offset).length →
          keep ≤ ((liveOrdinals messages offset).filter (start ≤ ·)).length) ∧
        (keep ≤ (messages.filter fun message => offset ≤ message.messageOrdinal).length →
          keep ≤ (messages.filter fun message => start ≤ message.messageOrdinal).length) := by
      rcases hcases with ⟨rfl, -⟩ | ⟨hlt, hle⟩
      · have hall : (liveOrdinals messages offset).filter (offset ≤ ·) =
            liveOrdinals messages offset := List.filter_eq_self.mpr fun n hn => by
          simpa using (mem_liveOrdinals.mp hn).2
        rw [hall]
        exact ⟨id, id⟩
      · have hcount := le_length_filter_of_drop hlt.le fun n hn =>
          hle.trans (getD_le_of_mem_drop (increasing_liveOrdinals messages offset) hn)
        have hkeep := (le_max_left keep 1).trans hcount
        exact ⟨fun _ => hkeep, fun _ => hkeep.trans length_filter_liveOrdinals_le⟩
    rw [hlive, hmessages]
    refine ⟨?_, hkept.1, hkept.2, ?_, wrapupPass_fence⟩
    · rw [hboundary]
      exact hge.trans (le_max_left ..)
    · rintro ⟨arc, harc, result, hres, hoffset, hlt, hle⟩
      obtain ⟨⟨message, hmessage, hinv⟩, -⟩ := mem_buildToolArcs harc
      rw [hboundary] at hlt hle
      refine hfree ⟨arc, harc, result, hres, hoffset, ?_, (le_max_left ..).trans hle⟩
      have hfirst := (le_ordinal_iff_max hsound hmessage 0).mpr (Nat.zero_le _)
      omega

/-- With three messages to keep the watermark falls between the call and its result, and the
boundary goes back to the call. -/
theorem wrapup_boundary_longResult :
    let resolved := resolveWrapupBoundary plainTools longResult none 3 (128000 : ℚ) 65
    resolved.boundary.boundaryReason = .toolArc ∧ resolved.boundary.protectedStartOrdinal = 1 ∧
      3 ≤ (longResult.filter fun message =>
        resolved.boundary.protectedStartOrdinal ≤ message.messageOrdinal).length ∧
      ¬ SplitsFrom (buildToolArcs longResult) 1 resolved.boundary.protectedStartOrdinal :=
  have h := wrapup_boundary plainTools longResult (by decide) none 3 (128000 : ℚ) 65
  ⟨by decide +kernel, by decide +kernel, h.2.2.2.1 (by decide), h.2.2.2.2.1⟩

end MagicContext.Boundary
