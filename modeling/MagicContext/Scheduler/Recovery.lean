import MagicContext.Scheduler.Deferral

/-!
# Recovery from a provider's refusal

A provider that has refused the session arms a recovery, and a pass that would be deferred is then
made an emergency.  The deferral because of an open tool call comes after that, and defers what was
an execute all the same.

## What is here

* `SchedulerInputs.AsksExecute` — what makes a pass ask for an ordinary execute.
* `requested_of_armed` — with recovery armed every pass asks for something.
* `armed_not_deferred_iff` — when an armed pass is not deferred.
-/

namespace MagicContext.Scheduler

open PassDecision

variable {F : Type} [WholeDouble F] (engine : RegexEngine)

/-- The usage is below the bands that force a pass, and its pressure, the time since the last
response or a pending intent asks for an execute. -/
def SchedulerInputs.AsksExecute (inputs : SchedulerInputs F) : Prop :=
  deriveBandWithHardWall inputs.usage.percentage
      (inputs.usage.hardWallPercentage.getD inputs.usage.percentage) inputs.threshold = .normal ∧
    (shouldExecute inputs.config inputs.session inputs.usage inputs.nowMs inputs.modelKey
        inputs.contextLimit = .execute ∨
      inputs.idleTtlFired = true ∨ inputs.deferredExecute.isSome = true)

theorem requested_eq_execute {inputs : SchedulerInputs F} :
    inputs.requested = .execute ↔ inputs.AsksExecute := by
  rw [SchedulerInputs.requested, SchedulerInputs.AsksExecute]
  generalize shouldExecute inputs.config inputs.session inputs.usage inputs.nowMs inputs.modelKey
    inputs.contextLimit = base
  cases deriveBandWithHardWall inputs.usage.percentage
    (inputs.usage.hardWallPercentage.getD inputs.usage.percentage) inputs.threshold with
  | emergency95 => simp
  | force85 => simp
  | normal =>
    have hasks : (base = .execute || inputs.idleTtlFired || inputs.deferredExecute.isSome) = true ↔
        base = .execute ∨ inputs.idleTtlFired = true ∨ inputs.deferredExecute.isSome = true := by
      simp [or_assoc]
    rw [← hasks]
    cases (base = .execute || inputs.idleTtlFired || inputs.deferredExecute.isSome) with
    | true => simp
    | false => cases inputs.emergencyRecoveryArmed <;> simp

/-- With recovery armed every pass asks for something. -/
theorem requested_of_armed {inputs : SchedulerInputs F}
    (harmed : inputs.emergencyRecoveryArmed = true) : inputs.requested ≠ .defer := by
  have hupgrade : ∀ pass : PassDecision,
      (if true && pass = .defer then emergency95 else pass) ≠ .defer := by
    intro pass
    cases pass <;> decide
  rw [SchedulerInputs.requested, harmed]
  exact hupgrade _

/-- A pass that asks for something is deferred when it asks for an execute and a tool call is open,
unless the deferral is bypassed. -/
theorem applyBoundaryDeferral_eq_defer {decision : PassDecision} (hdecision : decision ≠ .defer)
    (midToolUse : Bool) (pending : Option DeferredExecute) (bypass : BoundaryBypass) :
    (applyBoundaryDeferral decision midToolUse pending bypass).1 = .defer ↔
      decision = .execute ∧ midToolUse = true ∧ bypass.isActive = false := by
  rw [applyBoundaryDeferral, if_neg hdecision]
  cases decision with
  | defer => exact absurd rfl hdecision
  | execute =>
    cases hbypass : bypass.isActive with
    | true => simp [isForceOrEmergency]
    | false => cases midToolUse <;> simp [isForceOrEmergency]
  | force85 => simp [isForceOrEmergency]
  | emergency95 => simp [isForceOrEmergency]

/-- **With recovery armed a pass is not deferred**, exactly when it does not ask for an ordinary
execute while a tool call is open and nothing bypasses the deferral. -/
theorem armed_not_deferred_iff (inputs : SchedulerInputs F)
    (harmed : inputs.emergencyRecoveryArmed = true) :
    (decide engine inputs).pass ≠ .defer ↔
      ¬ (inputs.AsksExecute ∧ inputs.midToolUse = true ∧
        inputs.boundaryBypass.isActive = false) := by
  have hpass : (decide engine inputs).pass = (applyBoundaryDeferral inputs.requested
      inputs.midToolUse inputs.deferredExecute inputs.boundaryBypass).1 := rfl
  rw [hpass, Ne, applyBoundaryDeferral_eq_defer (requested_of_armed harmed), requested_eq_execute]

/-- The pass at seventy percent with an open tool call, after a refusal. -/
def armedPass : SchedulerInputs ℚ := { openToolPass.inputs with emergencyRecoveryArmed := true }

/-- The armed pass is deferred: it asks for an execute. -/
theorem armed_not_deferred_iff_openTool :
    armedPass.AsksExecute ∧ armedPass.midToolUse = true ∧
      armedPass.boundaryBypass.isActive = false := by
  have hiff := armed_not_deferred_iff ⟨fun _ _ => false, fun _ _ => none⟩ armedPass rfl
  exact not_not.mp fun hnot => hiff.mpr hnot (by decide +kernel)

/-- An armed recovery does not keep a pass from being deferred. -/
theorem armed_deferred :
    ¬ ∀ (engine : RegexEngine) (inputs : SchedulerInputs ℚ),
      inputs.emergencyRecoveryArmed = true → (decide engine inputs).pass ≠ .defer :=
  fun h => h ⟨fun _ _ => false, fun _ _ => none⟩ armedPass rfl (by decide +kernel)

end MagicContext.Scheduler
