import MagicContext.Scheduler.Decide

/-!
# Deferred executes over runs of passes

A pass that would execute while a tool call is open is deferred, and the intent to execute is
recorded.  The next pass is given what the last one left, drained when its work succeeded.

## What is here

* `SchedulerPass`, `pendingAfter` — passes and runs of passes.
* `applyBoundaryDeferral_some`, `requested_of_pending` — what a pending intent does to one pass.
* `deferred_execute_kept` — **a deferred execute is never lost.**
-/

namespace MagicContext.Scheduler

variable {F : Type} [WholeDouble F] (engine : RegexEngine)

/-! ## Runs -/

/-- A pass: what it is given besides the pending intent, and whether its work succeeded. -/
structure SchedulerPass (F : Type) where
  inputs : SchedulerInputs F
  workSucceeded : Bool

/-- What is decided for a pass while an intent is pending, or none. -/
def SchedulerPass.outcome (p : SchedulerPass F) (pending : Option DeferredExecute) :
    SchedulerOutcome :=
  decide engine { p.inputs with deferredExecute := pending }

/-- The intent that is pending after a pass. -/
def SchedulerPass.leaves (p : SchedulerPass F) (pending : Option DeferredExecute) :
    Option DeferredExecute :=
  drainDeferredAfterWork (p.outcome engine pending).deferredExecute p.workSucceeded

/-- The intent that is pending after a run of passes. -/
def pendingAfter (start : Option DeferredExecute) (passes : List (SchedulerPass F)) :
    Option DeferredExecute :=
  passes.foldl (fun pending p => p.leaves engine pending) start

/-- The pass is deferred because a tool call is open: it would execute were there none. -/
structure SchedulerPass.DefersExecute (p : SchedulerPass F) (pending : Option DeferredExecute) :
    Prop where
  midToolUse : p.inputs.midToolUse = true
  deferred : (p.outcome engine pending).pass = .defer
  wouldExecute : ({ p with inputs := { p.inputs with midToolUse := false } }.outcome engine
    pending).pass = .execute

instance (p : SchedulerPass F) (pending : Option DeferredExecute) :
    Decidable (p.DefersExecute engine pending) :=
  decidable_of_iff (p.inputs.midToolUse = true ∧ (p.outcome engine pending).pass = .defer ∧
      ({ p with inputs := { p.inputs with midToolUse := false } }.outcome engine
        pending).pass = .execute)
    ⟨fun h => ⟨h.1, h.2.1, h.2.2⟩, fun h => ⟨h.1, h.2, h.3⟩⟩

/-! ## One pass -/

/-- Deferral keeps a pending intent. -/
theorem applyBoundaryDeferral_some (decision : PassDecision) (midToolUse : Bool)
    (intent : DeferredExecute) (bypass : BoundaryBypass) :
    (applyBoundaryDeferral decision midToolUse (some intent) bypass).2 = some intent := by
  rw [applyBoundaryDeferral]
  split
  · rfl
  split
  · rfl
  split
  · rfl
  · rfl

/-- Without an open tool call nothing is deferred that was asked for. -/
theorem applyBoundaryDeferral_resolved {decision : PassDecision} (h : decision ≠ .defer)
    (pending : Option DeferredExecute) (bypass : BoundaryBypass) :
    (applyBoundaryDeferral decision false pending bypass).1 = decision := by
  rw [applyBoundaryDeferral, if_neg h]
  split
  · rfl
  · rfl

/-- An execute that is deferred is recorded. -/
theorem applyBoundaryDeferral_defers {decision : PassDecision} {midToolUse : Bool}
    {pending : Option DeferredExecute} {bypass : BoundaryBypass} (hdecision : decision ≠ .defer)
    (h : (applyBoundaryDeferral decision midToolUse pending bypass).1 = .defer) :
    (applyBoundaryDeferral decision midToolUse pending bypass).2 =
      some (pending.getD .pendingExecute) := by
  rw [applyBoundaryDeferral, if_neg hdecision] at h ⊢
  split at h
  · exact absurd h hdecision
  · rename_i hbypass
    rw [if_neg hbypass]
    split at h
    · rename_i hmid
      rw [if_pos hmid]
    · exact absurd h hdecision

variable {inputs : SchedulerInputs F}

/-- A pending intent asks for a pass. -/
theorem requested_of_pending (h : inputs.deferredExecute.isSome) : inputs.requested ≠ .defer := by
  rw [SchedulerInputs.requested, h, Bool.or_true, if_pos rfl]
  cases deriveBandWithHardWall inputs.usage.percentage
    (inputs.usage.hardWallPercentage.getD inputs.usage.percentage) inputs.threshold with
  | normal => simp
  | force85 => simp
  | emergency95 => simp

theorem decide_pass_of_not_requested
    (h : inputs.requested = .defer) : (decide engine inputs).pass = .defer :=
  congrArg Prod.fst (if_pos h)

/-- A pass with a pending intent and no open tool call is not deferred. -/
theorem decide_pass_ne_defer (hpending : inputs.deferredExecute.isSome)
    (hresolved : inputs.midToolUse = false) : (decide engine inputs).pass ≠ .defer := by
  have hrequested := requested_of_pending hpending
  rw [decide]
  dsimp only
  rw [hresolved, applyBoundaryDeferral_resolved hrequested]
  exact hrequested

/-- A pass with a pending intent leaves it unless its work succeeded. -/
theorem SchedulerPass.leaves_some (p : SchedulerPass F) (intent : DeferredExecute)
    (h : p.workSucceeded = false) : p.leaves engine (some intent) = some intent := by
  rw [SchedulerPass.leaves, drainDeferredAfterWork, h]
  exact applyBoundaryDeferral_some _ _ intent _

/-- A pass that defers an execute records it. -/
theorem SchedulerPass.DefersExecute.recorded {p : SchedulerPass F}
    {pending : Option DeferredExecute} (h : p.DefersExecute engine pending) :
    (p.outcome engine pending).deferredExecute = some (pending.getD .pendingExecute) := by
  refine applyBoundaryDeferral_defers (fun hdefer => ?_) h.deferred
  have hwould : ({ p with inputs := { p.inputs with midToolUse := false } }.outcome engine
      pending).pass = .defer := decide_pass_of_not_requested engine hdefer
  rw [h.wouldExecute] at hwould
  cases hwould

/-! ## Runs of passes -/

/-- A pending intent stays through passes whose work does not succeed. -/
theorem pendingAfter_some (intent : DeferredExecute) {passes : List (SchedulerPass F)}
    (h : ∀ q ∈ passes, q.workSucceeded = false) :
    pendingAfter engine (some intent) passes = some intent := by
  induction passes with
  | nil => rfl
  | cons q passes ih =>
    rw [pendingAfter, List.foldl_cons, q.leaves_some engine intent (h q List.mem_cons_self)]
    exact ih fun q' hq' => h q' (List.mem_cons_of_mem _ hq')

/-- **Once an execute is deferred because a tool call is open, its intent stays recorded until the
work of a pass succeeds, and no pass with a pending intent and no open tool call is deferred.** -/
theorem deferred_execute_kept (start : Option DeferredExecute)
    (before : List (SchedulerPass F)) (p : SchedulerPass F) (after : List (SchedulerPass F))
    (hdefers : p.DefersExecute engine (pendingAfter engine start before))
    (hwork : ∀ q ∈ p :: after, q.workSucceeded = false) :
    (∃ intent, (p.outcome engine (pendingAfter engine start before)).deferredExecute = some intent ∧
      pendingAfter engine start (before ++ p :: after) = some intent) ∧
      ∀ (more : List (SchedulerPass F)) (q : SchedulerPass F),
        (pendingAfter engine start (before ++ p :: after ++ more)).isSome →
        q.inputs.midToolUse = false →
        (q.outcome engine (pendingAfter engine start (before ++ p :: after ++ more))).pass ≠
          .defer := by
  refine ⟨⟨_, hdefers.recorded, ?_⟩, fun more q hpending hresolved => ?_⟩
  rotate_left
  · rw [SchedulerPass.outcome]
    exact decide_pass_ne_defer engine hpending hresolved
  have hleaves : p.leaves engine (pendingAfter engine start before) =
      some ((pendingAfter engine start before).getD .pendingExecute) := by
    rw [SchedulerPass.leaves, drainDeferredAfterWork, hwork p List.mem_cons_self]
    exact hdefers.recorded
  rw [pendingAfter, List.foldl_append, List.foldl_cons]
  change pendingAfter engine (p.leaves engine (pendingAfter engine start before)) after = _
  rw [hleaves]
  exact pendingAfter_some engine _ fun q hq => hwork q (List.mem_cons_of_mem _ hq)

/-- A pass at seventy of a hundred percent whose tail has an open tool call. -/
def openToolPass : SchedulerPass ℚ where
  inputs :=
    { config := { executeThresholdPercentage := .percentage 65, executeThresholdTokens := none }
      usage := { percentage := 70, inputTokens := 70000 }
      session := { lastResponseTimeMs := 1000, cacheTtl := "5m" }
      nowMs := 2000
      modelKey := none
      contextLimit := some 100000
      midToolUse := true
      deferredExecute := none
      boundaryBypass := {}
      drainLatch := {}
      overflowErrorText := none
      emergencyRecoveryArmed := false }
  workSucceeded := false

theorem deferred_execute_kept_openTool :
    (∃ intent, (openToolPass.outcome ⟨fun _ _ => false, fun _ _ => none⟩ none).deferredExecute =
        some intent ∧
      pendingAfter ⟨fun _ _ => false, fun _ _ => none⟩ none [openToolPass, openToolPass] =
        some intent) ∧
      ∀ (more : List (SchedulerPass ℚ)) (q : SchedulerPass ℚ),
        (pendingAfter ⟨fun _ _ => false, fun _ _ => none⟩ none
          ([] ++ openToolPass :: [openToolPass] ++ more)).isSome →
        q.inputs.midToolUse = false →
        (q.outcome ⟨fun _ _ => false, fun _ _ => none⟩
          (pendingAfter ⟨fun _ _ => false, fun _ _ => none⟩ none
            ([] ++ openToolPass :: [openToolPass] ++ more))).pass ≠ .defer :=
  deferred_execute_kept ⟨fun _ _ => false, fun _ _ => none⟩ none [] openToolPass [openToolPass]
    (by decide +kernel) (by decide)

end MagicContext.Scheduler
