
/-!
# The admission policy

How much support a piece of memory may have.  An admission event about a subject, the subject's
classification and its last decision are mapped to a new decision: how mature the subject is, how
much of that counts now, and where it may be shown.  Support above the automatic ceiling of a
classification needs an authority.

## What is here

* The vocabularies of the admission ledger.
* `automaticCeiling`, `eventEffect`, `sourceAllowsTaint` and the other tables of the policy.
* `evaluateAdmission` — the evaluator; the values it computes on the way are functions of
  `EvaluationInputs`.
-/

namespace MagicContext.Kernel

/-! ## Errors -/

/-- The errors a kernel operation can return. -/
inductive KernelError where
  | io | busy | fenceLost | conflict | corruptCanonicalRow | invalidInput | admissionPolicy
  | futureSnapshot | notFound | invalidCheckpoint | noRequiredConsumers | consumerPending | fault
  | deadline
  deriving DecidableEq

/-! ## Vocabularies -/

/-- Sensitivity classes, in increasing strictness. -/
inductive Sensitivity where
  | normal | sensitive | secret
  deriving DecidableEq

namespace Sensitivity

def asStr : Sensitivity → String
  | normal => "normal"
  | sensitive => "sensitive"
  | secret => "secret"

/-- The stricter of two labels. -/
def restrictive : Sensitivity → Sensitivity → Sensitivity
  | secret, _ | _, secret => secret
  | sensitive, _ | _, sensitive => sensitive
  | normal, normal => normal

end Sensitivity

/-- How well a subject is supported. -/
inductive Maturity where
  | candidate | corroborated | verified | approved | enforced
  deriving DecidableEq

def Maturity.asStr : Maturity → String
  | candidate => "candidate"
  | corroborated => "corroborated"
  | verified => "verified"
  | approved => "approved"
  | enforced => "enforced"

/-- Where a subject comes from. -/
inductive SourceClass where
  | explicitUser | trustedLocalCode | trustedToolResult | untrustedRepoText | untrustedWeb
  | modelInference
  deriving DecidableEq

def SourceClass.asStr : SourceClass → String
  | explicitUser => "explicit_user"
  | trustedLocalCode => "trusted_local_code"
  | trustedToolResult => "trusted_tool_result"
  | untrustedRepoText => "untrusted_repo_text"
  | untrustedWeb => "untrusted_web"
  | modelInference => "model_inference"

/-- What a subject is made of. -/
inductive TaintClass where
  | userExplicit | userInferred | currentCode | currentTest | currentConfig | repoUntrustedText
  | toolUntrustedOutput | assistantInference | dreamerInference | personal | unclassifiable
  deriving DecidableEq

def TaintClass.asStr : TaintClass → String
  | userExplicit => "user_explicit"
  | userInferred => "user_inferred"
  | currentCode => "current_code"
  | currentTest => "current_test"
  | currentConfig => "current_config"
  | repoUntrustedText => "repo_untrusted_text"
  | toolUntrustedOutput => "tool_untrusted_output"
  | assistantInference => "assistant_inference"
  | dreamerInference => "dreamer_inference"
  | personal => "personal"
  | unclassifiable => "unclassifiable"

inductive Disposition where
  | active | stale | disputed | superseded | rejected | contradicted | quarantined
  deriving DecidableEq

def Disposition.asStr : Disposition → String
  | active => "active"
  | stale => "stale"
  | disputed => "disputed"
  | superseded => "superseded"
  | rejected => "rejected"
  | contradicted => "contradicted"
  | quarantined => "quarantined"

inductive EventKind where
  | explicitReject | correct | replace | acceptedAdr | codeObserved | configObserved | corroborate
  | verify | approve | enforce | approvalRevoked | markStale | markDisputed | contradict
  | quarantine | other
  deriving DecidableEq

def EventKind.asStr : EventKind → String
  | explicitReject => "explicit_reject"
  | correct => "correct"
  | replace => "replace"
  | acceptedAdr => "accepted_adr"
  | codeObserved => "code_observed"
  | configObserved => "config_observed"
  | corroborate => "corroborate"
  | verify => "verify"
  | approve => "approve"
  | enforce => "enforce"
  | approvalRevoked => "approval_revoked"
  | markStale => "mark_stale"
  | markDisputed => "mark_disputed"
  | contradict => "contradict"
  | quarantine => "quarantine"
  | other => "other"

inductive VisibilityRow where
  | explicitLabeled | automatic | reviewOnly | auditOnly
  deriving DecidableEq

def VisibilityRow.asStr : VisibilityRow → String
  | explicitLabeled => "explicit_labeled"
  | automatic => "automatic"
  | reviewOnly => "review_only"
  | auditOnly => "audit_only"

inductive Outcome where
  | admitted | deny | promote | demoteSupport | reject | correct | replace | quarantine
  deriving DecidableEq

/-- The token of an outcome, which is also the kind of the change it is published under. -/
def Outcome.asStr : Outcome → String
  | admitted => "admit"
  | deny => "deny"
  | promote => "promote"
  | demoteSupport => "demote_support"
  | reject => "reject"
  | correct => "correct"
  | replace => "replace"
  | quarantine => "quarantine"

/-! ## Tables -/

/-- The policy revision of this build. -/
def policyRevision : Nat := 1

namespace Maturity

def rank : Maturity → Nat
  | candidate => 0
  | corroborated => 1
  | verified => 2
  | approved => 3
  | enforced => 4

def max (m m' : Maturity) : Maturity := if m'.rank ≤ m.rank then m else m'

def min (m m' : Maturity) : Maturity := if m.rank ≤ m'.rank then m else m'

end Maturity

namespace Sensitivity

def rank : Sensitivity → Nat
  | normal => 0
  | sensitive => 1
  | secret => 2

/-- `Ord::max` of the derived order. -/
def max (s s' : Sensitivity) : Sensitivity := if s.rank ≤ s'.rank then s' else s

end Sensitivity

/-- The maturity, the disposition if it changes, and the outcome that an event asks for. -/
def eventEffect (event : EventKind) (current : Maturity) :
    Maturity × Option Disposition × Outcome :=
  match event with
  | .explicitReject => (current, some .rejected, .reject)
  | .correct => (current, some .superseded, .correct)
  | .replace => (current, some .superseded, .replace)
  | .acceptedAdr | .approve => (.approved, none, .promote)
  | .enforce => (.enforced, none, .promote)
  | .codeObserved | .configObserved | .verify => (.verified, none, .promote)
  | .corroborate => (.corroborated, none, .promote)
  | .approvalRevoked => (current, none, .demoteSupport)
  | .markStale => (current, some .stale, .deny)
  | .markDisputed => (current, some .disputed, .deny)
  | .contradict => (current, some .contradicted, .deny)
  | .quarantine => (current, some .quarantined, .quarantine)
  | .other => (current, none, .deny)

def dispositionRestrictiveness : Disposition → Nat
  | .active => 0
  | .stale | .disputed | .superseded => 1
  | .rejected => 2
  | .contradicted | .quarantined => 3

def autoAdmitEvent : EventKind → Bool
  | .explicitReject | .correct | .replace | .acceptedAdr | .codeObserved | .configObserved => true
  | _ => false

def eventCanRaiseSupport : EventKind → Bool
  | .acceptedAdr | .codeObserved | .configObserved | .corroborate | .verify | .approve
  | .enforce => true
  | _ => false

/-- The most support a classification earns without an authority. -/
def automaticCeiling (source : SourceClass) (taint : TaintClass) : Maturity :=
  match source, taint with
  | .explicitUser, .userExplicit | .explicitUser, .userInferred => .verified
  | .trustedLocalCode, .currentCode | .trustedLocalCode, .currentTest
  | .trustedLocalCode, .currentConfig => .verified
  | .trustedToolResult, .currentCode | .trustedToolResult, .currentTest
  | .trustedToolResult, .currentConfig => .verified
  | _, _ => .candidate

/-- An accepted decision whose automatic ceiling is `verified` or more reaches `approved` without a
separate approval. -/
def admissionCeiling (event : EventKind) (automatic : Maturity)
    (subjectIsAcceptedDecision : Bool) : Maturity :=
  match event with
  | .acceptedAdr =>
    if subjectIsAcceptedDecision ∧ Maturity.rank .verified ≤ automatic.rank then .approved
    else automatic
  | _ => automatic

def sensitivityFloor : TaintClass → Sensitivity
  | .personal | .unclassifiable => .sensitive
  | _ => .normal

def visibilityRow (maturity : Maturity) : Disposition → VisibilityRow
  | .active => if Maturity.rank .verified ≤ maturity.rank then .automatic else .explicitLabeled
  | .stale | .disputed | .superseded => .explicitLabeled
  | .rejected => .reviewOnly
  | .contradicted | .quarantined => .auditOnly

/-- The classifications that make sense. -/
def sourceAllowsTaint (source : SourceClass) (taint : TaintClass) : Bool :=
  match source, taint with
  | .explicitUser, .userExplicit | .explicitUser, .userInferred | .explicitUser, .personal => true
  | .trustedLocalCode, .currentCode | .trustedLocalCode, .currentTest
  | .trustedLocalCode, .currentConfig | .trustedLocalCode, .repoUntrustedText
  | .trustedLocalCode, .personal | .trustedLocalCode, .unclassifiable => true
  | .trustedToolResult, .currentCode | .trustedToolResult, .currentTest
  | .trustedToolResult, .currentConfig | .trustedToolResult, .toolUntrustedOutput
  | .trustedToolResult, .personal | .trustedToolResult, .unclassifiable => true
  | .untrustedRepoText, .repoUntrustedText | .untrustedRepoText, .personal
  | .untrustedRepoText, .unclassifiable => true
  | .untrustedWeb, .toolUntrustedOutput | .untrustedWeb, .personal
  | .untrustedWeb, .unclassifiable => true
  | .modelInference, .userInferred | .modelInference, .assistantInference
  | .modelInference, .dreamerInference | .modelInference, .personal
  | .modelInference, .unclassifiable => true
  | _, _ => false

/-! ## The evaluator -/

/-- What the evaluator reads of a subject's last decision. -/
structure PriorDecision where
  historicalMaturity : Maturity
  effectiveMaturity : Maturity
  disposition : Disposition
  outcome : Outcome
  sourceClass : SourceClass
  taintClass : TaintClass
  sensitivity : Sensitivity

structure EvaluationInputs where
  sourceClass : SourceClass
  taintClass : TaintClass
  prior : Option PriorDecision
  candidateSensitivity : Sensitivity
  predecessorSensitivity : Option Sensitivity
  /-- The approval this request cites authorizes it. -/
  approvalValid : Bool
  /-- Validity of the approval recorded on the prior decision; none when it recorded none. -/
  supportingAuthority : Option Bool
  /-- The subject is a live accepted decision. -/
  subjectIsAcceptedDecision : Bool
  event : EventKind
  hasEvidence : Bool
  remainingSupport : Option Maturity

structure Evaluation where
  historicalMaturity : Maturity
  effectiveMaturity : Maturity
  disposition : Disposition
  visibility : VisibilityRow
  sensitivity : Sensitivity
  outcome : Outcome
  /-- The cited approval is what lifted support to the effective maturity. -/
  supportFromCitation : Bool

namespace EvaluationInputs

variable (input : EvaluationInputs)

/-- The checks before anything is computed. -/
def refused : Bool :=
  !sourceAllowsTaint input.sourceClass input.taintClass ||
    input.prior.any (fun prior =>
      decide (prior.sourceClass ≠ input.sourceClass ∨ prior.taintClass ≠ input.taintClass ∨
        prior.historicalMaturity.rank < prior.effectiveMaturity.rank)) ||
    (input.event == .enforce && !input.hasEvidence) ||
    ((input.event == .correct || input.event == .replace) && input.predecessorSensitivity.isNone)

def current : Maturity := input.prior.elim .candidate PriorDecision.historicalMaturity

def currentEffective : Maturity := input.prior.elim .candidate PriorDecision.effectiveMaturity

def currentDisposition : Disposition := input.prior.elim .active PriorDecision.disposition

/-- What is left of the support after a revocation, which alone states it. -/
def remaining : Except KernelError Maturity :=
  match input.event, input.remainingSupport with
  | .approvalRevoked, some remaining =>
    if remaining.rank ≤ input.currentEffective.rank then .ok remaining
    else .error .admissionPolicy
  | .approvalRevoked, none => .error .admissionPolicy
  | _, some _ => .error .admissionPolicy
  | _, none => .ok input.currentEffective

def ceiling : Maturity := automaticCeiling input.sourceClass input.taintClass

/-- The authority behind the support above the ceiling still holds. -/
def authorityHolds : Bool := input.supportingAuthority.getD input.subjectIsAcceptedDecision

/-- The support the subject brings along. -/
def carriedEffective : Maturity :=
  if input.ceiling.rank < input.currentEffective.rank ∧ input.authorityHolds = false then
    input.ceiling
  else input.currentEffective

def requested : Maturity := (eventEffect input.event input.current).1

def requestedDisposition : Option Disposition := (eventEffect input.event input.current).2.1

def requestedOutcome : Outcome := (eventEffect input.event input.current).2.2

def raisesSupport : Bool :=
  eventCanRaiseSupport input.event && decide (input.carriedEffective.rank < input.requested.rank)

def relaxesDisposition : Bool :=
  input.requestedDisposition.any fun requested =>
    decide (dispositionRestrictiveness requested <
      dispositionRestrictiveness input.currentDisposition)

def requiresApproval : Bool :=
  (eventCanRaiseSupport input.event &&
    (!autoAdmitEvent input.event ||
      decide ((admissionCeiling input.event input.ceiling input.subjectIsAcceptedDecision).rank <
        input.requested.rank))) || input.relaxesDisposition

def denied : Bool := input.requiresApproval && !input.approvalValid

def disposition : Disposition :=
  match input.requestedDisposition with
  | some requested => if input.denied then input.currentDisposition else requested
  | none => input.currentDisposition

def historical : Maturity :=
  input.current.max (if input.denied then input.current else input.requested)

/-- The support that counts, where `remaining` is what a revocation leaves. -/
def supported (remaining : Maturity) : Maturity :=
  if input.disposition = .active then
    if input.event = .approvalRevoked then remaining
    else if input.raisesSupport && !input.denied then input.requested
    else input.carriedEffective
  else .candidate

def effective (remaining : Maturity) : Maturity :=
  input.historical.min (input.supported remaining)

def resultSensitivity : Sensitivity :=
  (((sensitivityFloor input.taintClass).max input.candidateSensitivity).max
    (input.prior.elim .normal PriorDecision.sensitivity)).max
    (input.predecessorSensitivity.getD .normal)

def resultOutcome (remaining : Maturity) : Outcome :=
  if input.denied then .deny
  else if input.current.rank < input.historical.rank ∨
      input.currentEffective.rank < (input.effective remaining).rank then
    if input.prior.isSome then .promote else .admitted
  else if (input.effective remaining).rank < input.currentEffective.rank ∧
      input.requestedDisposition = none then .demoteSupport
  else input.requestedOutcome

end EvaluationInputs

/-- `evaluate_admission`. -/
def evaluateAdmission (input : EvaluationInputs) : Except KernelError Evaluation :=
  if input.refused then .error .admissionPolicy
  else match input.remaining with
    | .error e => .error e
    | .ok remaining =>
      .ok
        { historicalMaturity := input.historical
          effectiveMaturity := input.effective remaining
          disposition := input.disposition
          visibility := visibilityRow (input.effective remaining) input.disposition
          sensitivity := input.resultSensitivity
          outcome := input.resultOutcome remaining
          supportFromCitation := input.raisesSupport && !input.denied &&
            decide (input.ceiling.rank < (input.effective remaining).rank) }

end MagicContext.Kernel
