import MagicContext.Boundary.Pairing
import MagicContext.Boundary.Trigger

/-!
# Whether a fired trigger has work to do

A fired decision names the last ordinal of the eligible head, and none when the head is empty.
The head of a boundary that lies after the offset is emptied by the fences: when the arcs that
start at the offset lead without a gap to the capped end, or to a recent call that has no result.

## What is here

* `RunsTo`, `HeadShut` — when the fences take the end of the head back to the offset.
* `fired_hasWork_iff` — what a fired decision has work by.
* `fires_without_work` — a decision that has none.
-/

namespace MagicContext.Boundary

open Historian (u64Max saturatingSucc)
open Spans

variable {F : Type} [Double F]

/-! ## The fenced end of the head -/

/-- Completed arcs lead from one ordinal to another without a gap. -/
def RunsTo (arcs : List ToolArc) (offset stop : Nat) : Prop :=
  offset ≤ stop ∧ ∀ b, offset < b → b ≤ stop → ¬ Uncut (completedArcs arcs) b

/-- A call that has no result and is recent enough to fence. -/
def RecentOpenCall (arcs : List ToolArc) (offset recentOpenArcCutoff ordinal : Nat) : Prop :=
  ⟨ordinal, none⟩ ∈ arcs ∧ recentOpenArcCutoff ≤ ordinal ∧ offset ≤ ordinal

theorem RunsTo.mono {arcs : List ToolArc} {offset stop stop' : Nat} (h : RunsTo arcs offset stop)
    (hoffset : offset ≤ stop') (hle : stop' ≤ stop) : RunsTo arcs offset stop' :=
  ⟨hoffset, fun b hb hb' => h.2 b hb (hb'.trans hle)⟩

theorem runsTo_self (arcs : List ToolArc) (offset : Nat) : RunsTo arcs offset offset :=
  ⟨Nat.le_refl offset, fun _ hlt hle => absurd (hlt.trans_le hle) (lt_irrefl offset)⟩

/-- A run reaches no uncut ordinal but its first. -/
theorem RunsTo.le_of_uncut {arcs : List ToolArc} {offset stop : Nat}
    (h : RunsTo arcs offset stop) (hstop : Uncut (completedArcs arcs) stop) : stop ≤ offset :=
  not_lt.mp fun hlt => h.2 stop hlt (Nat.le_refl stop) hstop

section

variable {arcs : List ToolArc} {offset candidate : Nat}

/-- A fence does not move a boundary below its floor. -/
theorem le_fence (hoffset : offset < u64Max) (hle : offset ≤ candidate) :
    offset ≤ fenceBoundaryForCompletedToolArcs candidate arcs offset := by
  rcases fence_cases candidate arcs offset with
    ⟨-, heq⟩ | ⟨lo, hi, -, -, hhi, -, -, heq⟩ <;> rw [heq]
  · exact hle
  · split
    · exact le_min (Nat.le_succ_of_le (hle.trans hhi)) hoffset.le
    · rename_i hlo
      exact not_lt.mp hlo

/-- A fence moves a boundary to its floor when a run of arcs leads there from it. -/
theorem fence_le_iff (hoffset : offset < u64Max) (hle : offset ≤ candidate) :
    fenceBoundaryForCompletedToolArcs candidate arcs offset ≤ offset ↔
      Uncut (completedArcs arcs) offset ∧ RunsTo arcs offset candidate := by
  rcases fence_cases candidate arcs offset with
    ⟨hfree, heq⟩ | ⟨lo, hi, hcomponent, hlo, hhi, -, -, heq⟩ <;> rw [heq]
  · constructor
    · intro hback
      obtain rfl : candidate = offset := Nat.le_antisymm hback hle
      exact ⟨hfree, runsTo_self arcs candidate⟩
    · exact fun ⟨_, hrun⟩ => hrun.le_of_uncut hfree
  · split
    · rename_i hbelow
      have hafter : offset < saturatingSucc hi :=
        lt_min (Nat.lt_succ_of_le (hle.trans hhi)) hoffset
      exact ⟨fun h => absurd hafter (not_lt.mpr h), fun ⟨hfree, _⟩ =>
        absurd hfree (hcomponent.covered offset hbelow (hle.trans hhi))⟩
    · rename_i hbelow
      constructor
      · intro hback
        obtain rfl : lo = offset := Nat.le_antisymm hback (not_lt.mp hbelow)
        exact ⟨hcomponent.uncut_lo, hle, fun b hb hb' =>
          hcomponent.covered b hb (hb'.trans hhi)⟩
      · rintro ⟨-, hrun⟩
        exact (hrun.mono (not_lt.mp hbelow) hlo.le).le_of_uncut hcomponent.uncut_lo

/-- The pulled-back end is the least of the end and the recent open calls. -/
theorem pullBackToOpenArcs_spec (arcs : List ToolArc) (offset recentOpenArcCutoff : Nat)
    (start : Nat × Bool) :
    let pulled := (pullBackToOpenArcs arcs offset recentOpenArcCutoff start).1
    pulled ≤ start.1 ∧ (∀ n, RecentOpenCall arcs offset recentOpenArcCutoff n → pulled ≤ n) ∧
      (pulled = start.1 ∨ RecentOpenCall arcs offset recentOpenArcCutoff pulled) := by
  induction arcs generalizing start with
  | nil => exact ⟨Nat.le_refl start.1, fun n h => absurd h.1 List.not_mem_nil, Or.inl rfl⟩
  | cons arc arcs ih =>
    have hmore : ∀ {n}, RecentOpenCall arcs offset recentOpenArcCutoff n →
        RecentOpenCall (arc :: arcs) offset recentOpenArcCutoff n :=
      fun h => ⟨List.mem_cons_of_mem arc h.1, h.2⟩
    rw [pullBackToOpenArcs, List.foldl_cons, ← pullBackToOpenArcs]
    split
    · rename_i htaken
      obtain ⟨inv, res⟩ := arc
      simp only [Bool.and_eq_true_iff, decide_eq_true_iff, Option.isNone_iff_eq_none] at htaken
      obtain ⟨⟨⟨rfl, hrecent⟩, hoffset⟩, hlt⟩ := htaken
      obtain ⟨hle, hopen, hcases⟩ := ih (min start.1 inv, true)
      refine ⟨hle.trans (min_le_left ..), fun n hn => ?_, Or.inr ?_⟩
      · rcases List.mem_cons.mp hn.1 with heq | hmem
        · cases heq
          exact hle.trans (min_le_right ..)
        · exact hopen n ⟨hmem, hn.2⟩
      · rcases hcases with heq | hcall
        · rw [heq, Nat.min_eq_right hlt.le]
          exact ⟨List.mem_cons_self .., hrecent, hoffset⟩
        · exact hmore hcall
    · rename_i hleft
      obtain ⟨hle, hopen, hcases⟩ := ih start
      refine ⟨hle, fun n hn => ?_, hcases.imp_right hmore⟩
      rcases List.mem_cons.mp hn.1 with heq | hmem
      · subst heq
        have hge : start.1 ≤ n := by simpa [hn.2.1, hn.2.2] using hleft
        exact hle.trans hge
      · exact hopen n ⟨hmem, hn.2⟩

/-- **When the fences take the end of the head back to the offset.** -/
theorem fencedHeadEnd_le_iff {recentOpenArcCutoff stop : Nat} (hoffset : offset < u64Max)
    (hle : offset ≤ stop) :
    (fencedHeadEnd arcs offset recentOpenArcCutoff stop).1 ≤ offset ↔
      Uncut (completedArcs arcs) offset ∧
        ∃ n, (n = stop ∨ RecentOpenCall arcs offset recentOpenArcCutoff n) ∧
          RunsTo arcs offset n := by
  have hfirst := @le_fence arcs offset stop hoffset hle
  obtain ⟨hpulledLe, hpulledOpen, hpulled⟩ := pullBackToOpenArcs_spec arcs offset
    recentOpenArcCutoff (fenceBoundaryForCompletedToolArcs stop arcs offset, false)
  rw [fencedHeadEnd]
  generalize (pullBackToOpenArcs arcs offset recentOpenArcCutoff
    (fenceBoundaryForCompletedToolArcs stop arcs offset, false)).1 = pulled at *
  have hpulledGe : offset ≤ pulled := by
    rcases hpulled with heq | hopen
    · exact heq ▸ hfirst
    · exact hopen.2.2
  rw [fence_le_iff hoffset hpulledGe]
  refine and_congr_right fun hfree => ⟨fun hrun => ?_, ?_⟩
  · rcases hpulled with heq | hopen
    · rw [heq] at hrun
      refine ⟨stop, Or.inl rfl, ?_⟩
      rcases fence_cases stop arcs offset with
        ⟨-, hstop⟩ | ⟨lo, hi, hcomponent, hlo, hhi, -, -, hstop⟩
      · exact hstop ▸ hrun
      · refine ((fence_le_iff hoffset hle).mp ?_).2
        split at hstop
        · rename_i hbelow
          exact absurd hfree (hcomponent.covered offset hbelow (hle.trans hhi))
        · rw [hstop] at hrun ⊢
          exact hrun.le_of_uncut hcomponent.uncut_lo
    · exact ⟨pulled, Or.inr hopen, hrun⟩
  · rintro ⟨n, rfl | hopen, hrun⟩
    · have hback := (fence_le_iff hoffset hle).mpr ⟨hfree, hrun⟩
      obtain rfl : pulled = offset := Nat.le_antisymm (hpulledLe.trans hback) hpulledGe
      exact runsTo_self arcs pulled
    · exact hrun.mono hpulledGe (hpulledOpen n hopen)

end

/-! ## The head of a resolution -/

variable {messages : List BoundaryMsg}

/-- The protected tail starts no later than after the last message. -/
theorem protectedTailStart_le {index : TokenIndex F}
    (h : index.Sound messages) (hmessages : messages ≠ []) (ctx : BoundaryContext F)
    (start offset : Nat) : protectedTailStart index (buildToolArcs messages) ctx start offset ≤
      index.terminalOrdinal := by
  rw [protectedTailStart]
  generalize hclamped : (if ctx.foldIsOnlyReclaim && decide (0 < index.rawMessageCount) then _
    else _ : Nat) = clamped
  have hle : clamped ≤ index.terminalOrdinal := by
    rw [← hclamped]
    split <;> exact h.clampOrdinal_le hmessages _
  rcases fence_cases clamped (buildToolArcs messages) offset with
    ⟨-, heq⟩ | ⟨lo, hi, -, hlo, -, -, ⟨t, ht, rfl⟩, heq⟩ <;> rw [heq]
  · exact hle
  · split
    · obtain ⟨hresult, -⟩ := (mem_buildToolArcs (mem_completedArcs.mp ht)).2 t.2 rfl
      have hmem := (h.mem_iff t.2).mpr hresult
      rw [h.terminalOrdinal_of_mem hmem]
      exact min_le_min_right u64Max (Nat.succ_le_succ (h.le_lastOrdinal hmem))
    · exact hlo.le.trans hle

/-- Where the cap alone would end the head. -/
def cappedEnd (tools : TextTools) (messages : List BoundaryMsg) (ctx : BoundaryContext F) : Nat :=
  (TokenIndex.new messages : TokenIndex F).findHeadEndForCap (offsetOf messages ctx)
    (resolveProtectedTailBoundary tools messages ctx).protectedStartOrdinal
    (selectPerRunCap (clampPercentage ctx.usagePercentage) (scaledTarget ctx) ctx.contextLimit
      ctx.executeThresholdPercentage)

/-- Arcs lead from the offset without a gap to the capped end, or to a recent call that has no
result; and none leads there from before the offset. -/
structure HeadShut (tools : TextTools) (messages : List BoundaryMsg) (ctx : BoundaryContext F) :
    Prop where
  whole : ¬ Splits messages (offsetOf messages ctx)
  run : ∃ n, (n = cappedEnd tools messages ctx ∨
      RecentOpenCall (buildToolArcs messages) (offsetOf messages ctx)
        ((TokenIndex.new messages : TokenIndex F).findSuffixStartForTokens (scaledTarget ctx)) n) ∧
    RunsTo (buildToolArcs messages) (offsetOf messages ctx) n

theorem headShut_iff {tools : TextTools} {ctx : BoundaryContext F} : HeadShut tools messages ctx ↔
      Uncut (completedArcs (buildToolArcs messages)) (offsetOf messages ctx) ∧
        ∃ n, (n = cappedEnd tools messages ctx ∨
            RecentOpenCall (buildToolArcs messages) (offsetOf messages ctx)
              ((TokenIndex.new messages : TokenIndex F).findSuffixStartForTokens
                (scaledTarget ctx)) n) ∧
          RunsTo (buildToolArcs messages) (offsetOf messages ctx) n :=
  ⟨fun ⟨hwhole, hrun⟩ => ⟨not_splits.mp hwhole, hrun⟩,
    fun ⟨hfree, hrun⟩ => ⟨not_splits.mpr hfree, hrun⟩⟩

/-- The eligible head of a resolution is empty when there is nothing before the tail, or when the
fences shut it. -/
theorem resolved_head_iff (tools : TextTools)
    (hmessages : messages ≠ []) (ctx : BoundaryContext F) :
    let resolved := resolveProtectedTailBoundary tools messages ctx
    resolved.eligibleHead.1 < resolved.eligibleHead.2 ↔
      offsetOf messages ctx < resolved.protectedStartOrdinal ∧ ¬ HeadShut tools messages ctx := by
  have hsound := TokenIndex.sound_new (F := F) messages
  have hcount : (TokenIndex.new messages : TokenIndex F).rawMessageCount ≠ 0 := fun h =>
    hmessages (hsound.nil_of_rawMessageCount h)
  have hstart : (resolveProtectedTailBoundary tools messages ctx).protectedStartOrdinal ≤
      (TokenIndex.new messages : TokenIndex F).terminalOrdinal := by
    rw [resolveProtectedTailBoundary, if_neg hcount]
    exact protectedTailStart_le hsound hmessages ctx _ _
  intro resolved
  by_cases hafter : offsetOf messages ctx < resolved.protectedStartOrdinal
  · have hoffset := hafter.trans_le hstart
    have hrange := hoffset.trans_le (hsound.terminalOrdinal_le)
    have hle : offsetOf messages ctx ≤ cappedEnd tools messages ctx :=
      hsound.le_findHeadEndForCap hrange.le hoffset.le _ _
    rw [headShut_iff, ← fencedHeadEnd_le_iff hrange hle]
    have hhead : resolved.eligibleHead = (offsetOf messages ctx,
        if resolved.protectedStartOrdinal ≤ offsetOf messages ctx then offsetOf messages ctx
        else
          let stop := (fencedHeadEnd (buildToolArcs messages) (offsetOf messages ctx)
            ((TokenIndex.new messages : TokenIndex F).findSuffixStartForTokens (scaledTarget ctx))
            (cappedEnd tools messages ctx)).1
          if stop ≤ offsetOf messages ctx then offsetOf messages ctx
          else min stop resolved.protectedStartOrdinal) := by
      simp only [resolved, cappedEnd, resolveProtectedTailBoundary, if_neg hcount]
      exact congrArg _ (applyHeadCap_eligibleEndOrdinal _ _ _ _ _ _)
    rw [hhead]
    dsimp only
    rw [if_neg (not_le.mpr hafter)]
    split
    · rename_i hback
      exact ⟨fun h => absurd h (lt_irrefl _), fun h => absurd hback h.2⟩
    · rename_i hahead
      exact ⟨fun _ => ⟨hafter, hahead⟩, fun _ => lt_min (not_le.mp hahead) hafter⟩
  · have hhead : resolved.eligibleHead = (offsetOf messages ctx, offsetOf messages ctx) := by
      simp only [resolved, resolveProtectedTailBoundary, if_neg hcount] at hafter ⊢
      refine congrArg _ ((applyHeadCap_eligibleEndOrdinal _ _ _ _ _ _).trans ?_)
      exact if_pos (not_lt.mp hafter)
    rw [hhead]
    exact ⟨fun h => absurd h (lt_irrefl _), fun h => absurd h.1 hafter⟩

/-! ## Fired decisions -/

/-- The context whose resolution the trigger decides on: in the force band, the scaled one when
the first leaves nothing to run. -/
def decidingContext (tools : TextTools) (messages : List BoundaryMsg) (ctx : BoundaryContext F) :
    BoundaryContext F :=
  if forceMaterializePercentage ctx.executeThresholdPercentage ≤ ctx.usagePercentage ∧
      hasRunnableCompartmentWindow
        (resolveProtectedTailBoundary tools messages (primaryContext ctx)) ctx.usagePercentage
        ctx.executeThresholdPercentage none = false then
    scaledContext ctx
  else primaryContext ctx

theorem offsetOf_decidingContext (tools : TextTools) (messages : List BoundaryMsg)
    (ctx : BoundaryContext F) :
    offsetOf messages (decidingContext tools messages ctx) = offsetOf messages ctx := by
  rw [decidingContext]
  split <;> rfl

/-- A fired decision hands out the resolution of the deciding context. -/
theorem fired_eq {tools : ChunkTools} {ctx : TriggerContext F}
    (h : (checkCompartmentTrigger tools messages ctx).fire = true) :
    messages ≠ [] ∧ ∃ reason progress, checkCompartmentTrigger tools messages ctx =
      fireWithProgress reason (resolveProtectedTailBoundary tools.toTextTools messages
        (decidingContext tools.toTextTools messages ctx.boundary)) progress := by
  have hno : ∀ {decision : TriggerDecision F}, decision.fire = false →
      decision.fire = true → False := fun hf ht => Bool.false_ne_true (hf.symm.trans ht)
  rw [checkCompartmentTrigger] at h ⊢
  dsimp only at h ⊢
  split at h
  · exact (hno rfl h).elim
  rename_i hprogress
  split at h
  · exact (hno rfl h).elim
  rename_i hlive
  rw [if_neg hprogress, if_neg hlive]
  refine ⟨fun hnil => hlive (by simp [hnil]), ?_⟩
  by_cases hforce : forceMaterializePercentage ctx.boundary.executeThresholdPercentage ≤
      ctx.boundary.usagePercentage
  · rw [if_pos hforce] at h ⊢
    split at h
    · exact (hno rfl h).elim
    rename_i hdrops
    rw [if_neg hdrops]
    split at h
    · rename_i hrun
      have hdeciding : decidingContext tools.toTextTools messages ctx.boundary =
          primaryContext ctx.boundary :=
        if_neg fun hboth => Bool.false_ne_true (hboth.2.symm.trans hrun)
      rw [if_pos hrun, hdeciding]
      exact ⟨_, _, rfl⟩
    · rename_i hrun
      have hdeciding : decidingContext tools.toTextTools messages ctx.boundary =
          scaledContext ctx.boundary := if_pos ⟨hforce, Bool.eq_false_iff.mpr hrun⟩
      rw [if_neg hrun, hdeciding]
      split at h
      · rename_i hscaled
        rw [if_pos hscaled]
        exact ⟨_, _, rfl⟩
      · exact (hno rfl h).elim
  · have hdeciding : decidingContext tools.toTextTools messages ctx.boundary =
        primaryContext ctx.boundary := if_neg fun hboth => hforce hboth.1
    rw [if_neg hforce] at h ⊢
    rw [hdeciding]
    split at h
    · rename_i hclusters
      rw [if_pos hclusters]
      exact ⟨_, _, rfl⟩
    rename_i hclusters
    rw [if_neg hclusters]
    split at h
    · rename_i htail
      rw [if_pos htail]
      exact ⟨_, _, rfl⟩
    rename_i htail
    rw [if_neg htail]
    split at h
    · exact (hno rfl h).elim
    rename_i hproactive
    rw [if_neg hproactive]
    split at h
    · exact (hno rfl h).elim
    rename_i hdrops
    rw [if_neg hdrops]
    split at h
    · exact (hno rfl h).elim
    rename_i hmeaningful
    rw [if_neg hmeaningful]
    exact ⟨_, _, rfl⟩

/-- The decision names an ordinal to consume through, in a head that is not empty. -/
def HasWork (offset : Nat) (decision : TriggerDecision F) : Prop :=
  ∃ resolved last, decision.boundary = some resolved ∧ decision.consumeThroughOrdinal = some last ∧
    resolved.eligibleHead.1 < resolved.eligibleHead.2 ∧ offset ≤ last ∧
    last < resolved.protectedStartOrdinal

/-- **A fired decision has work to do** exactly when the boundary it decides on lies after the
offset and the fences do not shut its head. -/
theorem fired_hasWork_iff (tools : ChunkTools) (messages : List BoundaryMsg)
    (ctx : TriggerContext F) (h : (checkCompartmentTrigger tools messages ctx).fire = true) :
    let deciding := decidingContext tools.toTextTools messages ctx.boundary
    HasWork (offsetOf messages ctx.boundary) (checkCompartmentTrigger tools messages ctx) ↔
      offsetOf messages ctx.boundary <
          (resolveProtectedTailBoundary tools.toTextTools messages deciding).protectedStartOrdinal ∧
        ¬ HeadShut tools.toTextTools messages deciding := by
  obtain ⟨hmessages, reason, progress, heq⟩ := fired_eq h
  intro deciding
  have hiff := resolved_head_iff tools.toTextTools hmessages deciding
  dsimp only at hiff
  rw [heq, ← offsetOf_decidingContext tools.toTextTools, ← hiff]
  constructor
  · rintro ⟨resolved, -, hresolved, -, hhead, -⟩
    rw [fireWithProgress, Option.some_inj] at hresolved
    exact hresolved ▸ hhead
  · intro hhead
    obtain ⟨hoffset, -, hle⟩ := resolved_head_within tools.toTextTools messages deciding
    have hwithin := (le_max_iff.mp hle).resolve_left (not_le.mpr (hoffset ▸ hhead))
    refine ⟨_, _, rfl, if_pos hhead, hhead, ?_, ?_⟩
    · exact hoffset ▸ Nat.le_sub_one_of_lt hhead
    · exact (Nat.sub_one_lt_of_lt hhead).trans_le hwithin

/-! ## A session whose head is shut -/

/-- Lines of eight tokens. -/
def plainChunkTools : ChunkTools := { plainTools with estimateTokens := fun _ => 8 }

/-- The defaults, in exact numbers. -/
def exactContext : TriggerContext ℚ := .default

/-- The trigger fires for the size of the tail, with nothing to consume. -/
theorem longResult_fires :
    (checkCompartmentTrigger plainChunkTools longResult exactContext).fire = true ∧
      (checkCompartmentTrigger plainChunkTools longResult
        exactContext).consumeThroughOrdinal = none := by
  decide +kernel

theorem longResult_without_work :
    ¬ HasWork (offsetOf longResult exactContext.boundary)
      (checkCompartmentTrigger plainChunkTools longResult exactContext) := by
  rintro ⟨_, last, -, hlast, -⟩
  rw [longResult_fires.2] at hlast
  cases hlast

/-- The call at the offset and its long result shut the head. -/
theorem fired_hasWork_iff_longResult :
    HeadShut plainTools longResult
      (decidingContext plainTools longResult exactContext.boundary) := by
  have hiff := fired_hasWork_iff plainChunkTools longResult exactContext longResult_fires.1
  by_contra hopen
  exact longResult_without_work (hiff.mpr ⟨by decide +kernel, hopen⟩)

/-- A fired decision need not have work to do. -/
theorem fires_without_work :
    ¬ ∀ (tools : ChunkTools) (messages : List BoundaryMsg) (ctx : TriggerContext ℚ),
      (checkCompartmentTrigger tools messages ctx).fire = true →
        HasWork (offsetOf messages ctx.boundary) (checkCompartmentTrigger tools messages ctx) :=
  fun h => longResult_without_work (h plainChunkTools longResult exactContext longResult_fires.1)

end MagicContext.Boundary
