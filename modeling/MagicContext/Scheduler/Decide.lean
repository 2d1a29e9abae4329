import MagicContext.Boundary.Resolve
import MagicContext.Doubles

/-!
# The scheduler of passes

Before each pass the scheduler decides from the pressure on the context, the time since the last
response and what earlier passes left behind whether the pass may change what the provider has
cached.  Nothing is kept here: the state of the latch and of a deferred execute comes in with the
inputs and goes out with the outcome.

## What is here

* `resolveExecuteThreshold`, `shouldExecute`, `deriveBandWithHardWall` — the pressure.
* `parseCacheTtl`, `ttlHardExpired` — the time.
* `applyBoundaryDeferral`, `drainDeferredAfterWork`, `advanceDrainLatch` — what is left behind.
* `detectOverflow`, with the regex engine as a parameter.
* `decide`.
-/

namespace MagicContext.Scheduler

open Double (maximum minimum same)
open Historian (u64Max)

variable {F : Type} [WholeDouble F]

def defaultCacheTtlMs : Nat := 5 * 60 * 1000

/-- `EMERGENCY_DRAIN_MAX_LATCH_MS`: the latch expires after so long without re-entry. -/
def emergencyDrainMaxLatchMs : Nat := 30 * 60 * 1000

def minPlausibleContextLimit : Nat := 1024

def maxPlausibleContextLimit : Nat := 10000000

/-! ## Inputs and outcome -/

inductive ExecuteThresholdConfig (F : Type) where
  | percentage (value : F)
  | byModel (values : SortedMap String F)

structure SchedulerConfig (F : Type) where
  executeThresholdPercentage : ExecuteThresholdConfig F
  executeThresholdTokens : Option (SortedMap String F)

structure ContextUsage (F : Type) where
  percentage : F
  inputTokens : F
  hardWallPercentage : Option F := none

structure SessionMeta where
  /-- Zero when there has been none. -/
  lastResponseTimeMs : Nat
  cacheTtl : String

inductive BaseDecision where
  | defer | execute
  deriving DecidableEq

inductive Band where
  | normal | force85 | emergency95

inductive PassDecision where
  | defer | execute | force85 | emergency95
  deriving DecidableEq

def PassDecision.isForceOrEmergency (pass : PassDecision) : Bool :=
  pass == .force85 || pass == .emergency95

structure BoundaryBypass where
  explicitBust : Bool := false
  subagent : Bool := false

def BoundaryBypass.isActive (bypass : BoundaryBypass) : Bool :=
  bypass.explicitBust || bypass.subagent

structure DeferredExecute where
  reason : String

def DeferredExecute.pendingExecute : DeferredExecute := ⟨"execute-none"⟩

structure LatchState where
  /-- When the latch armed, while it is active. -/
  activeSinceMs : Option Nat := none

def LatchState.isActive (latch : LatchState) : Bool := latch.activeSinceMs.isSome

inductive ContextLimitProvenance where
  | promptOnly | combined | unknown

structure OverflowDetection where
  isOverflow : Bool := false
  reportedLimit : Option Nat := none
  reportedLimitProvenance : Option ContextLimitProvenance := none
  matchedPattern : Option String := none

structure SchedulerInputs (F : Type) where
  config : SchedulerConfig F
  usage : ContextUsage F
  session : SessionMeta
  nowMs : Nat
  modelKey : Option String
  contextLimit : Option F
  /-- The newest assistant span has a tool call without its result. -/
  midToolUse : Bool
  deferredExecute : Option DeferredExecute
  boundaryBypass : BoundaryBypass
  drainLatch : LatchState
  overflowErrorText : Option String
  emergencyRecoveryArmed : Bool

structure SchedulerOutcome where
  pass : PassDecision
  pressureExecute : Bool
  idleTtlFired : Bool
  drainLatch : LatchState
  deferredExecute : Option DeferredExecute
  detectedLimit : Option Nat
  detectedLimitProvenance : Option ContextLimitProvenance

/-! ## The execute threshold -/

def isFinitePositive (x : F) : Bool := Double.isFinite x && decide (0 < x)

/-- The model's name with and without its provider, then without its last parts one by one. -/
def modelIdKeys (provider : List Char) : Nat → List Char → List String
  | 0, _ => []
  | bound + 1, modelId =>
    if modelId.isEmpty then []
    else
      let keys := if provider.isEmpty then [String.ofList modelId]
        else [String.ofList (provider ++ '/' :: modelId), String.ofList modelId]
      match Text.rsplitOnce '-' modelId with
      | none => keys
      | some (before, _) =>
        if before.isEmpty then keys else keys ++ modelIdKeys provider bound before

/-- `model_key_lookup_order`. -/
def modelKeyLookupOrder (modelKey : String) : List String :=
  match Text.splitOnce '/' modelKey.toList with
  | some (provider, modelId) => modelIdKeys provider modelId.length modelId
  | none => modelIdKeys [] modelKey.toList.length modelKey.toList

/-- `resolve_percentage_match` and `resolve_tokens_match`: the first key that has a value. -/
def resolveMatch (values : SortedMap String F) (modelKey : Option String) : Option F :=
  (modelKey.bind fun key => (modelKeyLookupOrder key).findSome? values.get) <|> values.get "default"

/-- `resolve_execute_threshold`. -/
def resolveExecuteThreshold (config : ExecuteThresholdConfig F) (modelKey : Option String)
    (fallback : F) (tokensConfig : Option (SortedMap String F)) (contextLimit : Option F) : F :=
  let byTokens : Option F := do
    let tokens ← tokensConfig
    let limit ← contextLimit
    if isFinitePositive limit then
      let tokenValue ← resolveMatch tokens modelKey
      if isFinitePositive tokenValue then
        some (minimum (minimum tokenValue (limit * (90 / 100)) / limit * 100) 90)
      else none
    else none
  match byTokens with
  | some percentage => percentage
  | none =>
    let resolved := match config with
      | .percentage value => value
      | .byModel values => (resolveMatch values modelKey).getD fallback
    minimum (if !Double.isFinite resolved || decide (resolved < 0) then fallback else resolved) 90

/-- The limit the inputs name, or the one the usage implies. -/
def effectiveContextLimit (usage : ContextUsage F) (contextLimit : Option F) : Option F :=
  contextLimit <|>
    (if 0 < usage.percentage ∧ 0 < usage.inputTokens then
      some (usage.inputTokens / (usage.percentage / 100))
    else none)

def SchedulerConfig.threshold (config : SchedulerConfig F) (usage : ContextUsage F)
    (modelKey : Option String) (contextLimit : Option F) : F :=
  resolveExecuteThreshold config.executeThresholdPercentage modelKey 65
    config.executeThresholdTokens (effectiveContextLimit usage contextLimit)

/-! ## Time -/

/-- `parse_cache_ttl`. -/
def parseCacheTtl (F : Type) [WholeDouble F] (ttl : String) : Option Nat :=
  let normalized := Text.trim ttl.toList
  if normalized.map Char.toLower = "never".toList then some u64Max
  else
    let parsed : Option (List Char × F) :=
      if !normalized.isEmpty && normalized.all Text.isAsciiDigit then some (normalized, 1)
      else match normalized.getLast? with
        | some 's' => some (normalized.dropLast, 1000)
        | some 'm' => some (normalized.dropLast, 60 * 1000)
        | some 'h' => some (normalized.dropLast, 60 * 60 * 1000)
        | _ => none
    match parsed with
    | none => none
    | some (number, multiplier) =>
      if number.isEmpty || !number.all Text.isAsciiDigit then none
      else
        let milliseconds := Double.ofNat (Text.digitsValue number) * multiplier
        if !Double.isFinite milliseconds || decide (Double.ofNat u64Max ≤ milliseconds) then
          some u64Max
        else some (WholeDouble.toU64 milliseconds)

def schedulerTtlMs (F : Type) [WholeDouble F] (cacheTtl : String) : Nat :=
  (parseCacheTtl F cacheTtl).getD defaultCacheTtlMs

def ttlExecuteFired (nowMs lastResponseTimeMs ttlMs : Nat) : Bool :=
  decide (ttlMs < nowMs - lastResponseTimeMs)

def ttlHardExpired (nowMs lastResponseTimeMs ttlMs : Nat) : Bool :=
  decide (0 < lastResponseTimeMs) && decide (ttlMs < nowMs - lastResponseTimeMs)

/-- `should_execute`. -/
def shouldExecute (config : SchedulerConfig F) (session : SessionMeta) (usage : ContextUsage F)
    (nowMs : Nat) (modelKey : Option String) (contextLimit : Option F) : BaseDecision :=
  if same usage.percentage 0 ∧ session.lastResponseTimeMs = 0 then .defer
  else if config.threshold usage modelKey contextLimit ≤ usage.percentage then .execute
  else if ttlExecuteFired nowMs session.lastResponseTimeMs (schedulerTtlMs F session.cacheTtl) then
    .execute
  else .defer

/-! ## Bands -/

structure EscalationBands (F : Type) where
  forceMaterializePercentage : F
  emergencyPercentage : F

def escalationBands (effectiveThresholdPercentage : F) : EscalationBands F where
  forceMaterializePercentage := Boundary.forceMaterializePercentage effectiveThresholdPercentage
  emergencyPercentage := 95

/-- `derive_band_with_hard_wall`. -/
def deriveBandWithHardWall (usagePercentage hardWallPercentage effectiveThresholdPercentage : F) :
    Band :=
  let bands := escalationBands effectiveThresholdPercentage
  if bands.emergencyPercentage ≤ hardWallPercentage then .emergency95
  else if bands.forceMaterializePercentage ≤ usagePercentage then .force85
  else .normal

/-! ## What passes leave behind -/

/-- `apply_boundary_deferral`. -/
def applyBoundaryDeferral (decision : PassDecision) (midToolUse : Bool)
    (pending : Option DeferredExecute) (bypass : BoundaryBypass) :
    PassDecision × Option DeferredExecute :=
  if decision = .defer then (.defer, pending)
  else if decision.isForceOrEmergency || bypass.isActive then (decision, pending)
  else if midToolUse then (.defer, some (pending.getD .pendingExecute))
  else (decision, pending)

/-- `drain_deferred_after_work`. -/
def drainDeferredAfterWork (pending : Option DeferredExecute) (workSucceeded : Bool) :
    Option DeferredExecute :=
  if workSucceeded then none else pending

/-- `emergency_drain_exit_threshold`. -/
def emergencyDrainExitThreshold (executeThresholdPercentage : F) : F :=
  if !Double.isFinite executeThresholdPercentage || decide (executeThresholdPercentage ≤ 0) then 55
  else maximum (executeThresholdPercentage - 10) 0

/-- `advance_drain_latch`. -/
def advanceDrainLatch (state : LatchState) (usagePercentage executeThresholdPercentage : F)
    (nowMs : Nat) : LatchState :=
  if (escalationBands executeThresholdPercentage).forceMaterializePercentage ≤ usagePercentage then
    ⟨state.activeSinceMs <|> some nowMs⟩
  else match state.activeSinceMs with
    | none => state
    | some activeSinceMs =>
      if usagePercentage < emergencyDrainExitThreshold executeThresholdPercentage ∨
          emergencyDrainMaxLatchMs < nowMs - activeSinceMs then ⟨none⟩
      else state

/-! ## Overflow texts -/

/-- The regex engine, without regard to case where the source builds its patterns so. -/
structure RegexEngine where
  isMatch : String → String → Bool
  /-- What the first group of a pattern captures. -/
  capture : String → String → Option String

def overflowPatterns : List String :=
  ["prompt is too long", "input is too long for requested model", "exceeds the context window",
    "input token count.*exceeds the maximum",
    "maximum prompt length is \\d+",
    "reduce the length of the messages",
    "maximum context length is \\d+ tokens",
    "maximum model length is \\d+",
    "exceeds the limit of \\d+",
    "exceeds the available context size",
    "greater than the context length",
    "context window exceeds limit",
    "exceeded model token limit",
    "context[_ ]length[_ ]exceeded",
    "request entity too large",
    "context length is only \\d+ tokens",
    "input length.*exceeds.*context length",
    "prompt too long; exceeded (?:max )?context length",
    "too large for model with \\d+ maximum context length",
    "model_context_window_exceeded",
    "context size has been exceeded"]

def limitPatterns : List (String × ContextLimitProvenance) :=
  [("maximum prompt length is (\\d+)", .promptOnly),
    ("maximum context length is (\\d+) tokens?", .combined),
    ("maximum model length is (\\d+)", .combined),
    ("context length is only (\\d+) tokens?", .combined),
    ("exceeds the limit of (\\d+)", .unknown),
    ("too large for model with (\\d+) maximum context length", .combined),
    ("context size.*(\\d+) tokens?", .combined),
    ("exceeds? the context length of (\\d+)", .combined),
    (">\\s*(\\d+)\\s*(?:tokens?\\s*)?(?:maximum|max|limit)\\b", .promptOnly),
    ("max(?:imum)?.*context.*?(\\d+)", .unknown)]

/-- `parse_reported_limit`: the first pattern that names a plausible limit. -/
def parseReportedLimit (engine : RegexEngine) (message : String) :
    Option (Nat × ContextLimitProvenance) :=
  if message = "" then none
  else limitPatterns.findSome? fun pattern => do
    let raw ← engine.capture pattern.1 message
    let value ← Text.parseU64 raw.toList
    if minPlausibleContextLimit ≤ value ∧ value ≤ maxPlausibleContextLimit then
      some (value, pattern.2)
    else none

/-- `detect_overflow`. -/
def detectOverflow (engine : RegexEngine) (errorText : String) : OverflowDetection :=
  if errorText = "" then {}
  else
    let hasStatus413 := engine.isMatch "\\b413\\b" errorText &&
      engine.isMatch "(entity|payload|context|prompt)" errorText
    let matched := overflowPatterns.find? fun pattern => engine.isMatch pattern errorText
    if matched.isNone && !hasStatus413 then {}
    else
      let reported := parseReportedLimit engine errorText
      { isOverflow := true
        reportedLimit := reported.map Prod.fst
        reportedLimitProvenance := reported.map Prod.snd
        matchedPattern := matched }

/-! ## The decision -/

def SchedulerInputs.threshold (inputs : SchedulerInputs F) : F :=
  inputs.config.threshold inputs.usage inputs.modelKey inputs.contextLimit

def SchedulerInputs.idleTtlFired (inputs : SchedulerInputs F) : Bool :=
  ttlHardExpired inputs.nowMs inputs.session.lastResponseTimeMs
    (schedulerTtlMs F inputs.session.cacheTtl)

/-- The pass the pressure, the time and a pending execute ask for. -/
def SchedulerInputs.requested (inputs : SchedulerInputs F) : PassDecision :=
  let base := shouldExecute inputs.config inputs.session inputs.usage inputs.nowMs inputs.modelKey
    inputs.contextLimit
  let pass : PassDecision :=
    if base = .execute || inputs.idleTtlFired || inputs.deferredExecute.isSome then .execute
    else .defer
  let pass := match deriveBandWithHardWall inputs.usage.percentage
      (inputs.usage.hardWallPercentage.getD inputs.usage.percentage) inputs.threshold with
    | .emergency95 => .emergency95
    | .force85 => .force85
    | .normal => pass
  if inputs.emergencyRecoveryArmed && pass = .defer then .emergency95 else pass

/-- `decide`. -/
def decide (engine : RegexEngine) (inputs : SchedulerInputs F) : SchedulerOutcome :=
  let (pass, deferredExecute) := applyBoundaryDeferral inputs.requested inputs.midToolUse
    inputs.deferredExecute inputs.boundaryBypass
  let pressureRequested := Decidable.decide (0 < inputs.usage.percentage) &&
    Decidable.decide (inputs.threshold ≤ inputs.usage.percentage)
  let overflow := (inputs.overflowErrorText.map (detectOverflow engine)).filter (·.isOverflow)
  { pass
    pressureExecute := pressureRequested && pass != .defer
    idleTtlFired := inputs.idleTtlFired
    drainLatch := advanceDrainLatch inputs.drainLatch inputs.usage.percentage inputs.threshold
      inputs.nowMs
    deferredExecute
    detectedLimit := overflow.bind (·.reportedLimit)
    detectedLimitProvenance := overflow.bind (·.reportedLimitProvenance) }

end MagicContext.Scheduler
