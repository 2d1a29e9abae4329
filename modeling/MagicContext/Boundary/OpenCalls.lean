import MagicContext.Boundary.Work

/-!
# The open calls and the eligible head

A recent call without a result holds the end of the head back.  The completed arcs are fenced once
more after that: where the end then stands inside completed arcs that start below the offset, it is
moved past their last result, and past the open call with it.

## What is here

* `sizeWalkCut` — from where on calls are recent.
* `fence_uncut_or_max`, `floor_le_fence`, `fence_le_max` — how far a fence moves a boundary.
* `openCalls_kept_iff` — when the head holds none of them.
-/

namespace MagicContext.Boundary

open Historian (u64Max saturatingSucc)
open Spans TokenIndex

variable {F : Type} [Double F]

/-- Where the walk by size ends. -/
def sizeWalkCut (messages : List BoundaryMsg) (ctx : BoundaryContext F) : Nat :=
  (TokenIndex.new messages : TokenIndex F).findSuffixStartForTokens (scaledTarget ctx)

/-- A call that is to stay out of the head: it has no result, and lies neither before the offset nor
before the end of the walk by size. -/
def HeldCall (messages : List BoundaryMsg) (ctx : BoundaryContext F) (call : Nat) : Prop :=
  RecentOpenCall (buildToolArcs messages) (offsetOf messages ctx) (sizeWalkCut messages ctx) call

instance (messages : List BoundaryMsg) (ctx : BoundaryContext F) (call : Nat) :
    Decidable (HeldCall messages ctx call) :=
  inferInstanceAs (Decidable (_ ∧ _ ∧ _))

/-! ## How far fences move -/

section

variable {arcs : List ToolArc} (hresults : ∀ s ∈ completedArcs arcs, s.2 ≤ u64Max)
include hresults

/-- A fenced boundary splits no completed arc, unless there is no ordinal after the arc. -/
theorem fence_uncut_or_max (candidate floor : Nat) :
    Uncut (completedArcs arcs) (fenceBoundaryForCompletedToolArcs candidate arcs floor) ∨
      fenceBoundaryForCompletedToolArcs candidate arcs floor = u64Max := by
  rcases fence_cases candidate arcs floor with
    ⟨hfree, heq⟩ | ⟨lo, hi, hcomponent, -, -, -, ⟨t, ht, rfl⟩, heq⟩
  · rw [heq]
    exact Or.inl hfree
  rw [heq]
  split
  · rcases (hresults t ht).lt_or_eq with hlt | hmax
    · rw [saturatingSucc, Nat.min_eq_left hlt]
      exact Or.inl (hcomponent.uncut_after ⟨Nat.lt_succ_self t.2, fun c hlt hgt => by omega⟩)
    · rw [saturatingSucc, hmax]
      exact Or.inr (Nat.min_eq_right (Nat.le_succ u64Max))
  · exact Or.inl hcomponent.uncut_lo

/-- A fence does not move a boundary below the floor. -/
theorem floor_le_fence {candidate floor : Nat} (h : floor ≤ candidate) :
    floor ≤ fenceBoundaryForCompletedToolArcs candidate arcs floor := by
  rcases fence_cases candidate arcs floor with
    ⟨-, heq⟩ | ⟨lo, hi, -, -, hhi, -, ⟨t, ht, rfl⟩, heq⟩
  · rw [heq]
    exact h
  rw [heq]
  split
  · have hmax := hresults t ht
    rw [saturatingSucc]
    exact le_min (by omega) (by omega)
  · rename_i hlo
    exact not_lt.mp hlo

end

/-- A fence does not move a boundary forward past a place where no arc is split. -/
theorem fence_le_max {arcs : List ToolArc} {candidate floor boundary : Nat}
    (hfree : Uncut (completedArcs arcs) boundary) (hfloor : floor ≤ boundary) :
    fenceBoundaryForCompletedToolArcs candidate arcs floor ≤ max candidate boundary := by
  rcases fence_cases candidate arcs floor with
    ⟨-, heq⟩ | ⟨lo, hi, hcomponent, hlt, -, -, -, heq⟩
  · exact heq.le.trans (le_max_left ..)
  rw [heq]
  split
  · rename_i hlo
    -- the arcs start below the floor and are all over before the boundary
    have hafter : hi < boundary := not_le.mp fun hle =>
      absurd (hcomponent.le_lo hfree hle) (not_le.mpr (hlo.trans_le hfloor))
    exact ((min_le_left ..).trans hafter).trans (le_max_right ..)
  · exact hlt.le.trans (le_max_left ..)

theorem fence_le_u64Max {arcs : List ToolArc} {candidate floor : Nat} (h : candidate ≤ u64Max) :
    fenceBoundaryForCompletedToolArcs candidate arcs floor ≤ u64Max := by
  rcases fence_cases candidate arcs floor with
    ⟨-, heq⟩ | ⟨lo, hi, -, hlt, -, -, -, heq⟩
  · rw [heq]
    exact h
  rw [heq]
  split
  · exact min_le_right ..
  · exact hlt.le.trans h

/-! ## The start of the tail -/

omit [Double F] in
theorem TokenIndex.le_clampOrdinal {index : TokenIndex F} {offset ordinal : Nat}
    (hterminal : offset ≤ index.terminalOrdinal) (h : offset ≤ ordinal) :
    offset ≤ index.clampOrdinal ordinal := by
  rw [clampOrdinal]
  split
  · exact h
  · exact le_min (h.trans (le_max_left ..)) hterminal

theorem le_floorBoundary (tools : TextTools) (messages : List BoundaryMsg)
    (ctx : BoundaryContext F) (boundary offset : Nat) :
    offset ≤ (floorBoundary tools messages ctx boundary offset).1 := by
  have hruntime : offset ≤
      if ctx.migrationFloorActive then max offset ctx.priorBoundaryOrdinal else offset := by
    split
    · exact le_max_left ..
    · exact le_rfl
  rw [floorBoundary]
  generalize (if ctx.migrationFloorActive then max offset ctx.priorBoundaryOrdinal else offset) =
    runtimeFloor at hruntime ⊢
  have hfloor : offset ≤ max boundary runtimeFloor := hruntime.trans (le_max_right ..)
  cases lastMeaningfulUser tools messages with
  | none =>
    split
    · exact hfloor
    · exact hfloor
  | some user =>
    split
    · dsimp only
      split
      · rename_i huser
        exact huser.1
      · exact hfloor
    · exact hfloor

/-- The protected tail does not start before the offset, where there are messages from it on. -/
theorem le_protectedTailStart {index : TokenIndex F} {arcs : List ToolArc}
    (hresults : ∀ s ∈ completedArcs arcs, s.2 ≤ u64Max) (ctx : BoundaryContext F)
    {start offset : Nat} (hterminal : offset ≤ index.terminalOrdinal) (h : offset ≤ start) :
    offset ≤ protectedTailStart index arcs ctx start offset := by
  rw [protectedTailStart]
  refine floor_le_fence hresults ?_
  split
  · exact le_clampOrdinal hterminal (le_max_right ..)
  · refine le_clampOrdinal hterminal ?_
    split
    · exact le_rfl
    · exact h

theorem protectedTailStart_uncut_or_max {index : TokenIndex F} {arcs : List ToolArc}
    (hresults : ∀ s ∈ completedArcs arcs, s.2 ≤ u64Max) (ctx : BoundaryContext F)
    (start offset : Nat) :
    Uncut (completedArcs arcs) (protectedTailStart index arcs ctx start offset) ∨
      protectedTailStart index arcs ctx start offset = u64Max :=
  fence_uncut_or_max hresults _ _

/-! ## The end of the head -/

/-- A boundary at which no arc is split holds the head back as far as an open call after it. -/
theorem fencedHeadEnd_le {arcs : List ToolArc} {offset cutoff call boundary : Nat}
    (hcall : RecentOpenCall arcs offset cutoff call) (hoffset : offset ≤ boundary)
    (hboundary : boundary ≤ call) (hfree : Uncut (completedArcs arcs) boundary) (stop : Nat) :
    (fencedHeadEnd arcs offset cutoff stop).1 ≤ call := by
  have hpulled := (pullBackToOpenArcs_spec arcs offset cutoff
    (fenceBoundaryForCompletedToolArcs stop arcs offset, false)).2.1 call hcall
  exact (fence_le_max hfree hoffset).trans (max_le hpulled hboundary)

/-- The fenced end stays at or after the offset. -/
theorem le_fencedHeadEnd {arcs : List ToolArc} {offset cutoff stop : Nat}
    (hresults : ∀ s ∈ completedArcs arcs, s.2 ≤ u64Max) (h : offset ≤ stop) :
    offset ≤ (fencedHeadEnd arcs offset cutoff stop).1 := by
  refine floor_le_fence hresults ?_
  obtain ⟨-, -, heq | hcall⟩ := pullBackToOpenArcs_spec arcs offset cutoff
    (fenceBoundaryForCompletedToolArcs stop arcs offset, false)
  · rw [heq]
    exact floor_le_fence hresults h
  · exact hcall.2.2

/-- Where every boundary from the offset to a call splits an arc, what is fenced lies after the
call. -/
theorem lt_of_all_cut {arcs : List ToolArc} {offset call boundary : Nat}
    (hcut : ∀ b, offset ≤ b → b ≤ call → ¬ Uncut (completedArcs arcs) b) (hmax : call < u64Max)
    (hoffset : offset ≤ boundary) (hfree : Uncut (completedArcs arcs) boundary ∨ boundary = u64Max) :
    call < boundary := by
  rcases hfree with hfree | rfl
  · exact not_le.mp fun hle => hcut boundary hoffset hle hfree
  · exact hmax

/-- A call that is held is an ordinal of the session. -/
theorem HeldCall.bounds {messages : List BoundaryMsg} {ctx : BoundaryContext F} {call : Nat}
    (hordinals : ∀ message ∈ messages, message.messageOrdinal ≤ u64Max)
    (h : HeldCall messages ctx call) :
    call ≤ u64Max ∧ call ≤ (new messages : TokenIndex F).terminalOrdinal ∧
      (new messages : TokenIndex F).rawMessageCount ≠ 0 := by
  have hsound := sound_new (F := F) messages
  obtain ⟨⟨message, hmessage, rfl⟩, -⟩ := mem_buildToolArcs h.1
  have hmax := hordinals message hmessage
  have hmem := (hsound.mem_iff _).mpr ⟨message, hmessage, rfl⟩
  refine ⟨hmax, ?_, fun hzero => ?_⟩
  · have hlast := hsound.le_lastOrdinal hmem
    rw [hsound.terminalOrdinal_of_mem hmem, saturatingSucc]
    exact le_min (by omega) hmax
  · rw [hsound.nil_of_rawMessageCount hzero] at hmessage
    cases hmessage

/-- **No recent open call lies in the eligible head**, exactly when from the offset to each of them
there is a boundary that splits no completed arc. -/
theorem openCalls_kept_iff (tools : TextTools) (messages : List BoundaryMsg)
    (hordinals : ∀ message ∈ messages, message.messageOrdinal ≤ u64Max)
    (ctx : BoundaryContext F) :
    let resolved := resolveProtectedTailBoundary tools messages ctx
    (∀ call, HeldCall messages ctx call →
      ¬ (resolved.eligibleHead.1 ≤ call ∧ call < resolved.eligibleHead.2)) ↔
    ∀ call, HeldCall messages ctx call → call = u64Max ∨
      ∃ boundary, offsetOf messages ctx ≤ boundary ∧ boundary ≤ call ∧
        ¬ Splits messages boundary := by
  have hresults : ∀ s ∈ completedArcs (buildToolArcs messages), s.2 ≤ u64Max := fun s hs =>
    Nat.le_of_lt_succ (completedArcs_lt (fun m hm => Nat.lt_succ_of_le (hordinals m hm)) s hs).2
  intro resolved
  have hhead : resolved.eligibleHead.1 = offsetOf messages ctx :=
    (resolved_head_within tools messages ctx).1
  refine forall_congr' fun call => forall_congr' fun hcall => ?_
  obtain ⟨hmax, hterminal, hne⟩ := hcall.bounds hordinals
  have hoffset : offsetOf messages ctx ≤ call := hcall.2.2
  simp only [not_splits, hhead, hoffset, true_and]
  generalize hstart : protectedTailStart (TokenIndex.new messages : TokenIndex F)
    (buildToolArcs messages) ctx (floorBoundary tools messages ctx
      (walkBoundary tools messages (TokenIndex.new messages) (buildToolArcs messages)
        (scaledTarget ctx) (offsetOf messages ctx)).boundary (offsetOf messages ctx)).1
    (offsetOf messages ctx) = start
  have hend : resolved.eligibleHead.2 = (applyHeadCap (TokenIndex.new messages) start
      (offsetOf messages ctx) (buildToolArcs messages)
      (selectPerRunCap (clampPercentage ctx.usagePercentage) (scaledTarget ctx) ctx.contextLimit
        ctx.executeThresholdPercentage) (sizeWalkCut messages ctx)).eligibleEndOrdinal := by
    simp only [resolved, resolveProtectedTailBoundary, if_neg hne, ← hstart]
    rfl
  rw [hend, applyHeadCap_eligibleEndOrdinal]
  generalize hstop : (TokenIndex.new messages : TokenIndex F).findHeadEndForCap
    (offsetOf messages ctx) start _ = stop
  constructor
  · -- fences keep to boundaries that split no arc, and none of them is left before the call
    intro hkept
    by_contra hnone
    push Not at hnone
    obtain ⟨hlt, hcut⟩ := hnone
    have hlt : call < u64Max := lt_of_le_of_ne hmax hlt
    have hterminal' := hoffset.trans hterminal
    have hpast : call < start := by
      refine lt_of_all_cut hcut hlt ?_ (hstart ▸ protectedTailStart_uncut_or_max hresults ctx _ _)
      exact hstart ▸ le_protectedTailStart hresults ctx hterminal' (le_floorBoundary ..)
    have hfenced : call < (fencedHeadEnd (buildToolArcs messages) (offsetOf messages ctx)
        (sizeWalkCut messages ctx) stop).1 := by
      refine lt_of_all_cut hcut hlt (le_fencedHeadEnd hresults ?_) (fence_uncut_or_max hresults _ _)
      exact hstop ▸ (TokenIndex.sound_new messages).le_findHeadEndForCap (hoffset.trans hmax)
        hterminal' start _
    rw [if_neg (by omega)] at hkept
    rw [if_neg (by omega)] at hkept
    exact hkept (lt_min hfenced hpast)
  · intro hroom
    rw [not_lt]
    split
    · exact hoffset
    · dsimp only
      split
      · exact hoffset
      · refine (min_le_left ..).trans ?_
        rcases hroom with rfl | ⟨boundary, hle, hle', hfree⟩
        · exact fence_le_u64Max ((pullBackToOpenArcs_spec _ _ _ _).2.1 _ hcall)
        · exact fencedHeadEnd_le hcall hle hle' hfree stop

/-! ### A result that comes late -/

/-- A long task is answered after its call went into a compartment; a file is being read. -/
def lateResult : List BoundaryMsg :=
  [{ messageOrdinal := 1, role := .assistant, blocks :=
      [{ kind := .toolCall "task" (.object []), arcId := some "m1#0", originalTokenCount := 8 }] },
    { messageOrdinal := 2, role := .user, blocks :=
      [{ kind := .text, original := "go on", originalTokenCount := 2 }] },
    { messageOrdinal := 3, role := .assistant, blocks :=
      [{ kind := .text, original := "reading", originalTokenCount := 9000 }] },
    { messageOrdinal := 4, role := .assistant, blocks :=
      [{ kind := .toolCall "read" (.object []), arcId := some "m4#0", originalTokenCount := 3000 }] },
    { messageOrdinal := 5, role := .user, blocks :=
      [{ kind := .toolResult "task", arcId := some "m1#0", originalTokenCount := 12000 }] },
    { messageOrdinal := 6, role := .assistant, blocks :=
      [{ kind := .text, original := "done", originalTokenCount := 10000 }] }]

/-- The last compartment ends at the second message. -/
def lateContext : BoundaryContext ℚ :=
  { (BoundaryContext.default : BoundaryContext ℚ) with lastCompartmentEndOrdinal := some 2 }

theorem heldCall_late : HeldCall lateResult lateContext 4 := by decide +kernel

/-- The head takes the open call. -/
theorem openCalls_kept_fails :
    ¬ ∀ (tools : TextTools) (messages : List BoundaryMsg) (ctx : BoundaryContext ℚ),
      (∀ message ∈ messages, message.messageOrdinal ≤ u64Max) →
      let resolved := resolveProtectedTailBoundary tools messages ctx
      ∀ call, HeldCall messages ctx call →
        ¬ (resolved.eligibleHead.1 ≤ call ∧ call < resolved.eligibleHead.2) := fun h =>
  h plainTools lateResult lateContext (by decide) 4 heldCall_late (by decide +kernel)

/-- Up to the open call every boundary splits the arc of the task. -/
theorem openCalls_kept_iff_late :
    ¬ ∀ call, HeldCall lateResult lateContext call → call = u64Max ∨
      ∃ boundary, offsetOf lateResult lateContext ≤ boundary ∧ boundary ≤ call ∧
        ¬ Splits lateResult boundary := fun hroom =>
  (openCalls_kept_iff plainTools lateResult (by decide) lateContext).mpr hroom 4
    heldCall_late (by decide +kernel)

end MagicContext.Boundary
