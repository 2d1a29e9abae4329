import MagicContext.Historian.State

/-!
# Producer failures

What a driver does about a producer that failed: whether it tries the next model, and how long the
session waits before another firing.

## What is here

* `ProducerFailure` — what is asked of an error.
* `decideProducerFailure` — the decision.
* `completionFailureBackoffAtMs` — the end of the cooldown.
-/

namespace MagicContext.Historian

/-! ## Clocks -/

def i64Max : Int := 2 ^ 63 - 1

/-- The value of an `i64` operation that saturates. -/
def saturateI64 (n : Int) : Int := max (-2 ^ 63) (min n i64Max)

def historianFailureBackoffMs : Int := 60000

/-- The configured cooldown, from the time the run was over. -/
def completionFailureBackoffAtMs (startedAtMs configuredBackoffAtMs completedAtMs : Int) : Int :=
  let cooldownMs := max (saturateI64 (configuredBackoffAtMs - startedAtMs)) 0
  saturateI64 (completedAtMs + cooldownMs)

/-! ## Errors -/

inductive ErrorClass where
  | permanent | transient | authRequired | contextOverflow
  deriving DecidableEq

structure ErrorClassification where
  errorClass : ErrorClass
  retryAfterSecs : Option Nat := none

/-- A producer's error, as far as the driver looks at it. -/
structure ProducerFailure where
  text : String
  timedOut : Bool := false
  crossIncarnationUnknown : Bool := false
  classification : Option ErrorClassification := none
  hasClassField : Bool := false
  retryableModelFailure : Bool := false
  abortOrOverflow : Bool := false

def classifiedBackoffAtMs (nowMs defaultFailureBackoffAtMs : Int)
    (classification : ErrorClassification) : Int :=
  match classification.retryAfterSecs with
  | none => defaultFailureBackoffAtMs
  | some retryAfterSecs =>
    let retryAfterMs : Int := min (min (retryAfterSecs * 1000) u64Max : Nat) i64Max
    saturateI64 (nowMs + max historianFailureBackoffMs retryAfterMs)

/-! ## Models -/

def providerPrefix (model : String) : String :=
  String.ofList (model.toList.takeWhile (· != '/'))

def providerIsAuthBlocked (authBlockedProviders : List String) (model : String) : Bool :=
  authBlockedProviders.any (· == providerPrefix model)

def addAuthBlockedProvider (authBlockedProviders : List String) (provider : String) : List String :=
  if authBlockedProviders.any (· == provider) then authBlockedProviders
  else authBlockedProviders ++ [provider]

def hasEligibleModel (models authBlockedProviders : List String) : Bool :=
  models.any fun model => !providerIsAuthBlocked authBlockedProviders model

/-! ## The decision -/

def chainExhaustedPermanentPrefix : String := "chain-exhausted-permanent:"
def authRequiredPrefix : String := "auth-required:"
def unknownErrorClassPrefix : String := "unknown-error-class:"

def prefixedDetail (detailPrefix : Option String) (detail : String) : String :=
  match detailPrefix with
  | some p => p ++ detail
  | none => detail

structure ProducerFailureDecision where
  tryNextModel : Bool
  failureBackoffAtMs : Int
  detailPrefix : Option String

/-- What a firing remembers from one model to the next. -/
structure ModelChainState where
  authBlockedProviders : List String := []
  allFailuresPermanent : Bool := true

def decideProducerFailure (err : ProducerFailure) (model : String) (remainingModels : List String)
    (chain : ModelChainState) (nowMs defaultFailureBackoffAtMs : Int) :
    ProducerFailureDecision × ModelChainState :=
  let mixed := { chain with allFailuresPermanent := false }
  if err.crossIncarnationUnknown then (⟨false, defaultFailureBackoffAtMs, none⟩, mixed)
  else match err.classification with
  | some classification =>
    match classification.errorClass with
    | .permanent =>
      let tryNext := hasEligibleModel remainingModels chain.authBlockedProviders
      (⟨tryNext, defaultFailureBackoffAtMs,
        if !tryNext && chain.allFailuresPermanent then some chainExhaustedPermanentPrefix
        else none⟩, chain)
    | .transient =>
      let tryNext := hasEligibleModel remainingModels chain.authBlockedProviders
      (⟨tryNext, if tryNext then defaultFailureBackoffAtMs
        else classifiedBackoffAtMs nowMs defaultFailureBackoffAtMs classification, none⟩, mixed)
    | .authRequired =>
      let blocked := addAuthBlockedProvider chain.authBlockedProviders (providerPrefix model)
      let tryNext := hasEligibleModel remainingModels blocked
      (⟨tryNext, defaultFailureBackoffAtMs, if !tryNext then some authRequiredPrefix else none⟩,
        { authBlockedProviders := blocked, allFailuresPermanent := false })
    | .contextOverflow => (⟨false, defaultFailureBackoffAtMs, none⟩, mixed)
  | none =>
    if err.hasClassField then
      (⟨false, defaultFailureBackoffAtMs, some unknownErrorClassPrefix⟩, mixed)
    else
      (⟨err.retryableModelFailure && !err.abortOrOverflow &&
          hasEligibleModel remainingModels chain.authBlockedProviders,
        defaultFailureBackoffAtMs, none⟩, mixed)

end MagicContext.Historian
