import Mathlib.Data.List.ModifyLast
import MagicContext.Kernel.Slice

/-!
# The public methods on admissions

Recording a decision, promoting a staged candidate to a domain, superseding a domain or a decision
under the guard of its standing, and revoking an approval.  All of them poison the envelope when
they fail.

## What is here

* `recordAdmission`, `admitDomainCandidate`, `supersedeDomain`, `supersedeDecision`,
  `revokeApproval`.
* `GovernanceWrites` — the statements these methods execute.
-/

namespace MagicContext.Kernel

open Transaction

variable (sys : Platform)

/-- The events a caller may not emit: succession and revocation have their own methods. -/
def callerEvent : EventKind → Bool
  | .correct | .replace | .approvalRevoked => false
  | _ => true

variable (request : AdmissionRequest)

def recordAdmissionInner : M AdmissionDecision := do
  require (callerEvent request.event.kind) .admissionPolicy
  withAuthorityCascade sys request.subjectObjectId request.candidateId request.event.reason
    (applyAdmission sys request)

def recordAdmission : M AdmissionDecision :=
  guarded (recordAdmissionInner sys request)

/-! ## Promotion of a candidate -/

structure AdmissionDomainSpec where
  domainId : String
  objectId : String
  name : String

/-- A decision that is neither denied nor inactive promotes its candidate. -/
def PreparedDecision.promotes (prepared : PreparedDecision) : Bool :=
  prepared.evaluation.outcome != .deny && prepared.evaluation.disposition == .active

/-- Inserts the domain a candidate stands for, and the decision about it. -/
def materializeDomain (prepared : PreparedDecision) (domain : AdmissionDomainSpec) :
    M AdmissionDecision := do
  require (prepared.facts.candidateKind == some "domain" &&
    prepared.facts.candidatePayload == some domain.name) .admissionPolicy
  let seq ← commitSeq
  insertDomain sys
    { domainId := domain.domainId, objectId := domain.objectId, name := domain.name
      sourceKind := prepared.facts.sourceKind, sourceId := prepared.facts.sourceId
      sourceRevision := prepared.facts.sourceRevision
      sensitivity := prepared.evaluation.sensitivity }
  writeAdmission sys prepared (some
    { objectId := domain.objectId, objectKind := domainObjectKind, domainId := domain.domainId
      sourceKind := prepared.facts.sourceKind, sourceId := prepared.facts.sourceId
      sourceRevision := prepared.facts.sourceRevision, createdCommitSeq := seq
      sensitivity := prepared.evaluation.sensitivity })

def admitDomainCandidateInner (domain : AdmissionDomainSpec) : M AdmissionDecision := do
  require (callerEvent request.event.kind) .admissionPolicy
  let prepared ← queryAt (prepareAdmission sys request)
  let candidateId ← check (orPolicy prepared.facts.candidateId)
  match prepared.promotes with
  | true => materializeDomain sys prepared domain
  -- The decision stays candidate-scoped and can unseat a decision sharing the lineage.
  | false =>
    withAuthorityCascade sys none (some candidateId) request.event.reason
      (writeAdmission sys prepared none)

def admitDomainCandidate (domain : AdmissionDomainSpec) : M AdmissionDecision :=
  guarded (admitDomainCandidateInner sys request domain)

/-! ## Succession -/

/-- The dispositions under which a lineage can be neither corrected nor folded. -/
def barred (stored : StoredAdmission) : Bool :=
  match stored.decision.disposition with
  | .quarantined | .rejected | .contradicted => true
  | _ => false

def refuseBarredLineage (facts : SubjectFacts) (env : Envelope) : Except KernelError Unit := do
  let stored ← loadPriorDecision facts env
  if stored.any barred then .error .admissionPolicy else .ok ()

/-- The subject of a succession, which is an object under a succession event. -/
def successionSubject (prepared : PreparedDecision) : Except KernelError String :=
  match prepared.facts.subject, prepared.event.kind with
  | .object objectId, .correct | .object objectId, .replace => .ok objectId
  | _, _ => .error .admissionPolicy

/-- The correction of a domain is published under the event's own name. -/
def publishAsReplace (kind : EventKind) : M Unit :=
  update fun env =>
    match kind with
    | .replace =>
      { env with changes := env.changes.modifyLast fun c => { c with kind := "replace" } }
    | _ => env

def supersedeDomainInner (replacement : AdmissionDomainSpec) : M AdmissionDecision := do
  let prepared ← queryAt (prepareAdmission sys request)
  let replaced ← check (successionSubject prepared)
  query (refuseBarredLineage prepared.facts)
  correctDomain sys replaced
    { domainId := replacement.domainId, objectId := replacement.objectId, name := replacement.name
      sourceKind := prepared.facts.sourceKind, sourceId := prepared.facts.sourceId
      sourceRevision := prepared.facts.sourceRevision
      sensitivity := prepared.evaluation.sensitivity }
  publishAsReplace prepared.event.kind
  withAuthorityCascade sys (some replaced) none prepared.event.reason
    (writeAdmission sys prepared none)

def supersedeDomain (replacement : AdmissionDomainSpec) : M AdmissionDecision :=
  guarded (supersedeDomainInner sys request replacement)

/-- A live replacement is a fold target, so a barred survivor is refused too. -/
def refuseBarredSurvivor (objectId : String) (env : Envelope) : Except KernelError Unit :=
  if isLiveObject objectId env then do
    refuseBarredLineage (← loadSubjectFacts sys objectId env) env
  else .ok ()

def supersedeDecisionInner (replacedObjectId : String) (replacement : DecisionSpec) :
    M DecisionWriteOutcome := do
  let facts ← query (loadSubjectFacts sys replacedObjectId)
  query (refuseBarredLineage facts)
  query (refuseBarredSurvivor sys replacement.objectId)
  correctDecision sys replacedObjectId replacement

def supersedeDecision (replacedObjectId : String) (replacement : DecisionSpec) :
    M DecisionWriteOutcome :=
  guarded (supersedeDecisionInner sys replacedObjectId replacement)

/-! ## Revocation -/

/-- The live accepted decision with the id. -/
def loadApproval (objectId : String) (env : Envelope) : Except KernelError ObjectRow :=
  if isAcceptedDecision env.tx objectId then orNotFound (.ok (env.tx.registry.get objectId))
  else .error .notFound

/-- Adds the counts of a revocation's walk to its change. -/
def amendRevocation (demoted deferred : Nat) (change : PendingChange) : PendingChange :=
  { change with audit := change.audit.map fun audit =>
      audit ++ [("demoted", .number demoted), ("deferred", .number deferred)] }

/-- The position the next change will have. -/
def changePosition : M Nat := fun s => .ok s.envelope.changes.length s

def revokeApprovalInner (approvalObjectId reason : String) : M (List AdmissionDecision) := do
  require (!Text.isBlank reason) .admissionPolicy
  let approvalObjectId ← check (sys.identity approvalObjectId)
  let approval ← query (loadApproval approvalObjectId)
  invalidate .decisions approvalObjectId
  let revocationReason ← check (sys.redact reason)
  let seq ← commitSeq
  let position ← changePosition
  pushChange
    { object := { approval with invalidatedCommitSeq := some seq }
      kind := "approval_revoke"
      redactions := [("reason", revocationReason)]
      audit := some
        [("approval_object_id", .text approvalObjectId), ("reason", .text revocationReason.text),
          ("policy_revision", .number policyRevision)] }
  let (decisions, deferred) ← demoteAuthorityDependents sys approvalObjectId reason
  update fun env => { env with
    changes := env.changes.modify position (amendRevocation decisions.length deferred) }
  return decisions

def revokeApproval (approvalObjectId reason : String) : M (List AdmissionDecision) :=
  guarded (revokeApprovalInner sys approvalObjectId reason)

/-! ## What the methods write -/

/-- The statements of the methods on admissions. -/
inductive GovernanceWrites (seq : Nat) (w : Write) : Prop where
  | domain (hw : DomainWrites seq w) : GovernanceWrites seq w
  | slice (hw : SliceWrites seq w) : GovernanceWrites seq w

theorem GovernanceWrites.admission {seq : Nat} {w : Write} (hw : AdmissionWrites seq w) :
    GovernanceWrites seq w :=
  .slice (.admission w hw)

section Evolves
variable {sys}

theorem evolves_admissionOnly {α : Type} {m : M α} (h : Keeps (Evolves AdmissionWrites) m) :
    Keeps (Evolves GovernanceWrites) m :=
  h.mono fun _ _ h => h.mono fun _ _ => .admission

theorem evolves_recordAdmissionInner (request : AdmissionRequest) :
    Keeps (Evolves AdmissionWrites) (recordAdmissionInner sys request) :=
  evolves_require_bind fun _ => evolves_withAuthorityCascade (fun _ _ => id) _ _ _
    (evolves_applyAdmission _)

section Attempts
variable {P : Nat → Write → Prop} (hdomain : ∀ seq w, DomainWrites seq w → P seq w)
  (hadmission : ∀ seq w, AdmissionWrites seq w → P seq w)
include hdomain hadmission

theorem attempts_materializeDomain (prepared : PreparedDecision) (domain : AdmissionDomainSpec) :
    Keeps (Attempts P) (materializeDomain sys prepared domain) :=
  attempts_bind (attempts (evolves_require _ _)) fun _ =>
    attempts_bind (attempts fun s => Evolves.refl _ s) fun _ =>
    attempts_bind (attempts_guarded (attempts ((evolves_insertDomainInner _).mono fun _ _ h =>
      h.mono hdomain)))
      fun _ => attempts ((evolves_writeAdmission _ _).mono fun _ _ h => h.mono hadmission)

theorem attempts_admitDomainCandidateInner (request : AdmissionRequest)
    (domain : AdmissionDomainSpec) :
    Keeps (Attempts P) (admitDomainCandidateInner sys request domain) := by
  refine attempts_bind (attempts (evolves_require _ _)) fun _ =>
    attempts_bind (attempts (evolves_queryAt _)) fun prepared =>
    attempts_bind (attempts (evolves_check _)) fun _ => ?_
  cases prepared.promotes with
  | true => exact attempts_materializeDomain hdomain hadmission _ _
  | false =>
    exact attempts (evolves_withAuthorityCascade hadmission _ _ _
      ((evolves_writeAdmission _ _).mono fun _ _ h => h.mono hadmission))

end Attempts

/-- An amendment of the last change leaves its object. -/
theorem map_object_modifyLast {f : PendingChange → PendingChange}
    (hf : ∀ c, (f c).object = c.object) (changes : List PendingChange) :
    (changes.modifyLast f).map PendingChange.object = changes.map PendingChange.object := by
  rcases List.eq_nil_or_concat changes with rfl | ⟨-, -, rfl⟩
  · rfl
  · rw [List.concat_eq_append, List.modifyLast_concat, List.map_append, List.map_append,
      List.map_singleton, List.map_singleton, hf]

theorem map_object_modify {f : PendingChange → PendingChange}
    (hf : ∀ c, (f c).object = c.object) (i : Nat) (changes : List PendingChange) :
    (changes.modify i f).map PendingChange.object = changes.map PendingChange.object := by
  induction changes generalizing i with
  | nil => cases i <;> rfl
  | cons c rest ih =>
    cases i with
    | zero => rw [List.modify_zero_cons, List.map_cons, List.map_cons, hf]
    | succ i => rw [List.modify_succ_cons, List.map_cons, List.map_cons, ih]

theorem evolves_publishAsReplace {P : Nat → Write → Prop} (kind : EventKind) :
    Keeps (Evolves P) (publishAsReplace kind) := by
  refine evolves_update (fun _ => by cases kind <;> rfl) fun env => ?_
  cases kind with
  | replace =>
    exact fun _ h => (map_object_modifyLast (f := fun c => { c with kind := "replace" })
      (fun _ => rfl) env.changes).symm.subst h
  | _ => exact fun _ h => h

theorem attempts_supersedeDomainInner {P : Nat → Write → Prop}
    (hdomain : ∀ seq w, DomainWrites seq w → P seq w)
    (hadmission : ∀ seq w, AdmissionWrites seq w → P seq w) (request : AdmissionRequest)
    (replacement : AdmissionDomainSpec) :
    Keeps (Attempts P) (supersedeDomainInner sys request replacement) :=
  attempts_bind (attempts (evolves_queryAt _)) fun _ =>
    attempts_bind (attempts (evolves_check _)) fun _ =>
    attempts_bind (attempts (evolves_query _)) fun _ =>
    attempts_bind
      (attempts_guarded (attempts ((evolves_correctDomainInner _ _).mono fun _ _ h =>
        h.mono hdomain))) fun _ =>
    attempts (evolves_bind (evolves_publishAsReplace _) fun _ =>
      evolves_withAuthorityCascade hadmission _ _ _
        ((evolves_writeAdmission _ _).mono fun _ _ h => h.mono hadmission))

theorem succeedsClean_admitDomainCandidateInner (request : AdmissionRequest)
    (domain : AdmissionDomainSpec) :
    SucceedsClean (admitDomainCandidateInner sys request domain) := by
  refine (succeedsClean (evolves_require (P := AdmissionWrites) _ _)).bind fun _ =>
    (succeedsClean (evolves_queryAt (P := AdmissionWrites) _)).bind fun prepared =>
    (succeedsClean (evolves_check (P := AdmissionWrites) _)).bind fun _ => ?_
  cases prepared.promotes with
  | true =>
    exact (succeedsClean (evolves_require (P := AdmissionWrites) _ _)).bind fun _ =>
      (succeedsClean (P := AdmissionWrites) fun s => Evolves.refl _ s).bind fun _ =>
      (succeedsClean (evolves_insertDomainInner _)).guarded.bind fun _ =>
      succeedsClean (evolves_writeAdmission _ _)
  | false =>
    exact succeedsClean (evolves_withAuthorityCascade (fun _ _ => id) _ _ _
      (evolves_writeAdmission _ _))

theorem succeedsClean_supersedeDomainInner (request : AdmissionRequest)
    (replacement : AdmissionDomainSpec) :
    SucceedsClean (supersedeDomainInner sys request replacement) :=
  (succeedsClean (evolves_queryAt (P := AdmissionWrites) _)).bind fun _ =>
    (succeedsClean (evolves_check (P := AdmissionWrites) _)).bind fun _ =>
    (succeedsClean (evolves_query (P := AdmissionWrites) _)).bind fun _ =>
    (succeedsClean (evolves_correctDomainInner _ _)).guarded.bind fun _ =>
    succeedsClean (evolves_bind (evolves_publishAsReplace _) fun _ =>
      evolves_withAuthorityCascade (fun _ _ => id) _ _ _ (evolves_writeAdmission _ _))

theorem evolves_supersedeDecisionInner (replaced : String) (replacement : DecisionSpec) :
    Keeps (Evolves SliceWrites) (supersedeDecisionInner sys replaced replacement) :=
  evolves_query_bind fun _ => evolves_query_bind fun _ =>
    evolves_query_bind fun _ => evolves_correctDecision _ _

theorem evolves_revokeApprovalInner (approval reason : String) :
    Keeps (Evolves RowWrites) (revokeApprovalInner sys approval reason) :=
  evolves_require_bind fun _ => evolves_check_bind fun _ =>
    evolves_query_bind fun _ => evolves_bind (evolves_invalidate _ _) fun _ =>
    evolves_check_bind fun _ => evolves_bind (fun s => Evolves.refl _ s) fun _ =>
    evolves_bind (fun s => Evolves.refl _ s) fun _ => evolves_bind (evolves_pushChange _) fun _ =>
    evolves_bind ((evolves_demoteAuthorityDependents _ _).mono fun _ _ h =>
      h.mono fun _ _ => AdmissionWrites.row) fun _ =>
    evolves_bind (evolves_update (fun _ => rfl) fun env _ h =>
      (map_object_modify (f := amendRevocation _ _) (fun _ => rfl) _ env.changes).symm.subst h)
      fun _ => evolves_pure _

end Evolves

end MagicContext.Kernel
