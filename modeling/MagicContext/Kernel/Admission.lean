import MagicContext.Kernel.Approval

/-!
# Admissions

An admission decision is prepared from what the ledger says about its subject, evaluated, and
written with its change.  When a decision costs an approval its authority, the subjects whose
support rests on it are demoted, and so on through the graph.

## What is here

* `prepareAdmission` — what the evaluator is given, and which approval the decision will record.
* `writeAdmission` — the row and the change.
* `demoteAuthorityDependents` — the walk over the dependents of an authority.
* `withAuthorityCascade` — a decision, and the walk for every authority it ended.
* `AdmissionWrites` — the statements of all of these.
-/

namespace MagicContext.Kernel

open Transaction

structure AdmissionRequest where
  candidateId : Option String
  subjectObjectId : Option String
  sourceClass : Option SourceClass
  taintClass : Option TaintClass
  event : AdmissionEvent

structure AdmissionDecision where
  admissionDecisionId : String
  historicalMaturity : Maturity
  effectiveMaturity : Maturity
  disposition : Disposition
  visibility : VisibilityRow
  sensitivity : Sensitivity
  outcome : Outcome

structure PreparedDecision where
  facts : SubjectFacts
  sourceClass : SourceClass
  taintClass : TaintClass
  event : AdmissionEvent
  /-- Approval recorded as supporting the decision. -/
  supportingApproval : Option String
  evaluation : Evaluation

variable (sys : Platform)

/-! ## Preparing a decision -/

def loadFacts (request : AdmissionRequest) (now : Int) (env : Envelope) :
    Except KernelError SubjectFacts :=
  match request.candidateId with
  | some candidateId =>
    -- A materialized candidate's decisions belong to its canonical object.
    if candidateIsMaterialized candidateId env then .error .admissionPolicy
    else loadCandidateFacts sys candidateId now env
  | none =>
    match request.subjectObjectId with
    | some subject => loadSubjectFacts sys subject env
    | none => .error .admissionPolicy

/-- The approval a request cites: its own, or for most events the stored one. -/
def citedApproval (event : AdmissionEvent) (stored : Option StoredAdmission) : Option String :=
  match event.approvalObjectId with
  | some approval => some approval
  | none =>
    match event.kind with
    | .approvalRevoked | .correct | .replace | .acceptedAdr => none
    | _ => stored.bind StoredAdmission.approvalObjectId

/-- Whether the approval recorded on the prior decision still holds. -/
def supportingAuthority (stored : Option StoredAdmission) (cited : Option String)
    (approvalValid : Bool) (subject : Option String) (env : Envelope) :
    Except KernelError (Option Bool) :=
  match stored.bind StoredAdmission.approvalObjectId with
  | none => .ok none
  | some approval =>
    if some approval = cited then .ok (some approvalValid)
    else some <$> validateApproval sys (some approval) subject env

/-- What a revocation leaves: the automatic ceiling, never above what is held. -/
def remainingSupport (event : EventKind) (prior : Option PriorDecision) (source : SourceClass)
    (taint : TaintClass) : Option Maturity :=
  match event with
  | .approvalRevoked =>
    some ((prior.elim .candidate PriorDecision.effectiveMaturity).min
      (automaticCeiling source taint))
  | _ => none

/-- Succession composes the label of the subject being replaced. -/
def predecessorSensitivity (event : EventKind) (facts : SubjectFacts) : Option Sensitivity :=
  match event with
  | .correct | .replace => some facts.sensitivity
  | _ => none

/-- The approval a decision records: the citation if it lifted the support, else the stored one. -/
def recordedApproval (evaluation : Evaluation) (cited : Option String)
    (stored : Option StoredAdmission) : Option String :=
  if evaluation.supportFromCitation then cited
  else stored.bind StoredAdmission.approvalObjectId

/-- `prepare_admission`. -/
def prepareAdmission (request : AdmissionRequest) (now : Int) (env : Envelope) :
    Except KernelError PreparedDecision := do
  let source ← orPolicy request.sourceClass
  let taint ← orPolicy request.taintClass
  if Text.isBlank request.event.reason ∨
      request.candidateId.isSome = request.subjectObjectId.isSome then .error .admissionPolicy
  else
    let facts ← loadFacts sys request now env
    validateProvenance source taint facts.provenanceKind
    let stored ← loadPriorDecision facts env
    let prior := stored.map StoredAdmission.decision
    let cited := citedApproval request.event stored
    let event := { request.event with approvalObjectId := cited }
    let approvalValid ← validateApproval sys cited facts.subjectObjectId env
    let supporting ← supportingAuthority sys stored cited approvalValid
      facts.subjectObjectId env
    let trigger ← validateTrigger sys event facts env
    let evaluation ← evaluateAdmission
      { sourceClass := source
        taintClass := taint
        prior := prior
        -- A trigger cannot admit content classified below itself.
        candidateSensitivity := facts.sensitivity.max (trigger.join.getD .normal)
        predecessorSensitivity := predecessorSensitivity event.kind facts
        remainingSupport := remainingSupport event.kind prior source taint
        approvalValid := approvalValid
        supportingAuthority := supporting
        subjectIsAcceptedDecision := subjectIsAcceptedDecision facts.subjectObjectId env
        event := if trigger.isSome then event.kind else .other
        hasEvidence := event.evidenceId.isSome }
    return {
      facts := facts
      sourceClass := source
      taintClass := taint
      event := event
      supportingApproval := recordedApproval evaluation cited stored
      evaluation := evaluation }

/-! ## Writing a decision -/

/-- `format!("{:020}")`. -/
def pad20 (n : Nat) : String :=
  let digits := (toString n).toList
  String.ofList (List.replicate (20 - digits.length) '0' ++ digits)

def admissionDecisionId (commitSeq ordinal : Nat) : String := s!"{commitSeq}:{pad20 ordinal}"

/-- The next `admission_ordinal` of the envelope. -/
def nextOrdinal : M Nat := fun s =>
  .ok s.envelope.admissionOrdinal
    (s.remember fun env => { env with admissionOrdinal := env.admissionOrdinal + 1 })

def rememberAdmission (key : AdmissionKey) (stored : StoredAdmission) : M Unit :=
  update fun env => { env with admissionLatest := (key, stored) :: env.admissionLatest }

namespace PreparedDecision

variable (prepared : PreparedDecision)

def stored : StoredAdmission where
  decision :=
    { historicalMaturity := prepared.evaluation.historicalMaturity
      effectiveMaturity := prepared.evaluation.effectiveMaturity
      disposition := prepared.evaluation.disposition
      outcome := prepared.evaluation.outcome
      sourceClass := prepared.sourceClass
      taintClass := prepared.taintClass
      sensitivity := prepared.evaluation.sensitivity }
  approvalObjectId := prepared.supportingApproval

/-- An approval only grants support above the automatic ceiling. -/
def elevatedSupport : Bool :=
  decide ((automaticCeiling prepared.sourceClass prepared.taintClass).rank <
    prepared.evaluation.effectiveMaturity.rank)

/-- The object the decision is about: the one it materializes, or its subject. -/
def subject (materialized : Option ObjectRow) : Option String :=
  (materialized.map fun o => o.objectId).or prepared.facts.subjectObjectId

def row (materialized : Option ObjectRow) (commitSeq ordinal : Nat) (reason : String)
    (decidedAt : Int) : AdmissionRow where
  commitSeq := commitSeq
  ordinal := ordinal
  candidateId := prepared.facts.candidateId
  candidateRef := prepared.facts.candidateId
  candidateKind := prepared.facts.candidateKind
  candidatePayloadDigest := prepared.facts.candidatePayload.map fun payload =>
    sys.sha256 (utf8 payload)
  subjectObjectId := prepared.subject materialized
  sourceKind := prepared.facts.sourceKind
  sourceId := prepared.facts.sourceId
  sourceRevision := prepared.facts.sourceRevision
  sourceClass := prepared.sourceClass
  taintClass := prepared.taintClass
  eventKind := prepared.event.kind
  maturity := prepared.evaluation.historicalMaturity
  effectiveMaturity := prepared.evaluation.effectiveMaturity
  disposition := prepared.evaluation.disposition
  visibility := prepared.evaluation.visibility
  outcome := prepared.evaluation.outcome
  sensitivity := prepared.evaluation.sensitivity
  policyRevision := policyRevision
  reason := reason
  evidenceId := prepared.event.evidenceId
  approvalObjectId := prepared.supportingApproval
  elevatedSupport := prepared.elevatedSupport
  decidedAt := decidedAt

def change (materialized : Option ObjectRow) (commitSeq ordinal : Nat) (reason : RedactedField) :
    PendingChange where
  object :=
    { objectId := admissionDecisionId commitSeq ordinal
      objectKind := "admission_decision"
      domainId := (materialized.map ObjectRow.domainId).getD prepared.facts.domainId
      sourceKind := prepared.facts.sourceKind
      sourceId := prepared.facts.sourceId
      sourceRevision := prepared.facts.sourceRevision
      createdCommitSeq := commitSeq
      sensitivity := prepared.evaluation.sensitivity }
  kind := prepared.evaluation.outcome.asStr
  redactions := [("reason", reason)]
  audit := some
    [("outcome", .text prepared.evaluation.outcome.asStr),
      ("historical_maturity", .text prepared.evaluation.historicalMaturity.asStr),
      ("effective_maturity", .text prepared.evaluation.effectiveMaturity.asStr),
      ("disposition", .text prepared.evaluation.disposition.asStr),
      ("visibility", .text prepared.evaluation.visibility.asStr),
      ("sensitivity", .text prepared.evaluation.sensitivity.asStr),
      ("policy_revision", .number policyRevision),
      ("trigger_object_id", .optional prepared.event.triggerObjectId),
      ("subject_object_id", .optional (prepared.subject materialized)),
      ("candidate_id", .optional prepared.facts.candidateId),
      ("source_class", .text prepared.sourceClass.asStr),
      ("taint_class", .text prepared.taintClass.asStr),
      ("approval_object_id", .optional prepared.supportingApproval),
      ("cited_approval_object_id", .optional prepared.event.approvalObjectId),
      ("event_kind", .text prepared.event.kind.asStr)]

def decision (commitSeq ordinal : Nat) : AdmissionDecision where
  admissionDecisionId := admissionDecisionId commitSeq ordinal
  historicalMaturity := prepared.evaluation.historicalMaturity
  effectiveMaturity := prepared.evaluation.effectiveMaturity
  disposition := prepared.evaluation.disposition
  visibility := prepared.evaluation.visibility
  sensitivity := prepared.evaluation.sensitivity
  outcome := prepared.evaluation.outcome

/-- The identities a row stores must not hold secrets. -/
def identities : List (Option String) :=
  [some prepared.facts.sourceKind, some prepared.facts.sourceId, prepared.event.evidenceId,
    prepared.supportingApproval, prepared.event.approvalObjectId, prepared.event.triggerObjectId]

/-- The cap on the dependents of the approval, where the support rests on it. -/
def checkCap (materialized : Option ObjectRow) (env : Envelope) : Except KernelError Unit :=
  match prepared.elevatedSupport, prepared.supportingApproval with
  | true, some approval =>
    enforceApprovalDependentCap approval (prepared.subject materialized) env
  | _, _ => .ok ()

end PreparedDecision

/-- The decision is also the latest one about the object it materializes. -/
def rememberMaterialized (materialized : Option ObjectRow) (stored : StoredAdmission) : M Unit :=
  match materialized with
  | some object => rememberAdmission (.object object.objectId) stored
  | none => pure ()

def writeAdmission (prepared : PreparedDecision) (materialized : Option ObjectRow) :
    M AdmissionDecision := do
  let seq ← commitSeq
  let ordinal ← nextOrdinal
  prepared.identities.forM fun value => do
    let _ ← check (sys.identityOptional value)
  let reason ← check (sys.redact prepared.event.reason)
  query (prepared.checkCap materialized)
  let decidedAt ← currentTimeMs
  let _ ← exec (.insertAdmission
    (prepared.row sys materialized seq ordinal reason.text decidedAt))
  record "admission_decision" (admissionDecisionId seq ordinal) "reason" reason
  pushChange (prepared.change materialized seq ordinal reason)
  rememberMaterialized materialized prepared.stored
  rememberAdmission prepared.facts.subject prepared.stored
  return prepared.decision seq ordinal

/-- `apply_admission`. -/
def applyAdmission (request : AdmissionRequest) : M AdmissionDecision := do
  let prepared ← queryAt (prepareAdmission sys request)
  writeAdmission sys prepared none

/-! ## Demoting dependents -/

def demotionRequest (dependent : AdmissionRow) (subject reason : String) : AdmissionRequest where
  candidateId := none
  subjectObjectId := some subject
  sourceClass := some dependent.sourceClass
  taintClass := some dependent.taintClass
  event :=
    { kind := .approvalRevoked
      triggerObjectId := none
      approvalObjectId := none
      evidenceId := none
      reason := reason }

/-- How far a walk over dependents has come. -/
structure Walk where
  decisions : List AdmissionDecision
  visited : List String
  /-- Authorities whose dependents are still to be visited, the next one first. -/
  frontier : List String
  deferred : Nat

/-- One dependent of the authority that was taken from the frontier. -/
def visitDependent (reason : String) (walk : Walk) (dependent : AdmissionRow) : M Walk :=
  let subject := dependent.subjectObjectId.getD ""
  if subject ∈ walk.visited then pure walk
  else
    let walk := { walk with visited := subject :: walk.visited }
    if maxAuthorityDemotions ≤ walk.decisions.length ∨
        dependent.policyRevision ≠ policyRevision then do
      noteDeferred
      return { walk with deferred := walk.deferred + 1 }
    else do
      let decision ← applyAdmission sys (demotionRequest dependent subject reason)
      -- Any dependent may itself have granted authority.
      return { walk with
        decisions := walk.decisions ++ [decision]
        frontier := subject :: walk.frontier }

/-- The dependents of one authority. -/
def visitDependents (reason : String) : Walk → List AdmissionRow → M Walk
  | walk, [] => pure walk
  | walk, dependent :: rest => do
    let walk ← visitDependent sys reason walk dependent
    visitDependents reason walk rest

/-- The walk.  Every authority on the frontier is visited once, and is the root or a registered
object, so the registry bounds the number of rounds. -/
def demotionRounds (reason : String) : Nat → Walk → M Walk
  | 0, walk => pure walk
  | rounds + 1, walk =>
    match walk.frontier with
    | [] => pure walk
    | authority :: frontier => do
      let dependents ← query (loadApprovalDependents authority)
      let walk ← visitDependents sys reason { walk with frontier := frontier } dependents
      demotionRounds reason rounds walk

def registrySize : M Nat := fun s => .ok s.envelope.tx.registry.rows.length s

/-- Demotes every subject whose support descends from the authority. -/
def demoteAuthorityDependents (authority reason : String) : M (List AdmissionDecision × Nat) := do
  let size ← registrySize
  let walk ← demotionRounds sys reason (size + 1)
    { decisions := [], visited := [authority], frontier := [authority], deferred := 0 }
  return (walk.decisions, walk.deferred)

/-- A bearer that no longer holds authority takes its dependents with it. -/
def demoteDependentsIfAuthorityLost (subject reason : String) : M Unit := do
  let holds ← query (validateApproval sys (some subject) none)
  match holds with
  | true => pure ()
  | false => do
    let _ ← demoteAuthorityDependents sys subject reason

/-! ## Decisions with their cascade -/

/-- The accepted decisions of a lineage, ordered, one more than permitted. -/
def lineageAcceptedDecisions (facts : SubjectFacts) (env : Envelope) : List String :=
  (((env.tx.registry.select fun o => o.sourceKind == facts.sourceKind &&
    o.sourceId == facts.sourceId && o.sourceRevision == facts.sourceRevision &&
    isAcceptedDecision env.tx o.objectId).map fun o => o.objectId).insertionSort (· ≤ ·)).take
      (maxLineageAuthorityBearers + 1)

/-- Accepted decisions on a candidate's lineage that hold authority now. -/
def lineageAuthorityBearers (candidateId : String) (now : Int) (env : Envelope) :
    Except KernelError (List String) := do
  let facts ← loadCandidateFacts sys candidateId now env
  let candidates := lineageAcceptedDecisions facts env
  if maxLineageAuthorityBearers < candidates.length then .error .admissionPolicy
  else candidates.filterM fun objectId => subjectGrantsAuthority sys (some objectId) env

/-- The objects whose authority a decision about the subject, or about the candidate's lineage, can
end.  They are sampled before the decision is written. -/
def authorityBearers (subject candidate : Option String) (now : Int) (env : Envelope) :
    Except KernelError (List String) :=
  match subject, candidate with
  | some subject, _ => do
    if ← subjectGrantsAuthority sys (some subject) env then return [subject] else return []
  | none, none => .ok []
  | none, some candidate => lineageAuthorityBearers sys candidate now env

/-- Writes a decision and, when it costs a bearer its authority, demotes the dependents. -/
def withAuthorityCascade (subject candidate : Option String) (reason : String)
    (write : M AdmissionDecision) : M AdmissionDecision := do
  let bearers ← queryAt (authorityBearers sys subject candidate)
  let decision ← write
  bearers.forM fun bearer => demoteDependentsIfAuthorityLost sys bearer reason
  return decision

/-! ## What these write -/

/-- The statements of an admission and its cascade. -/
inductive AdmissionWrites (seq : Nat) : Write → Prop where
  | insert (row : AdmissionRow) (hseq : row.commitSeq = seq)
      (hrevision : row.policyRevision = policyRevision) : AdmissionWrites seq (.insertAdmission row)
  | redaction (row : RedactionRow) : AdmissionWrites seq (.insertRedaction row)

variable {sys}

variable {P : Nat → Write → Prop}

theorem evolves_nextOrdinal : Keeps (Evolves P) nextOrdinal :=
  fun _ => .of rfl .refl rfl le_rfl fun _ h => h

theorem evolves_registrySize : Keeps (Evolves P) registrySize :=
  fun s => Evolves.refl P s

theorem evolves_rememberAdmission (key : AdmissionKey) (stored : StoredAdmission) :
    Keeps (Evolves P) (rememberAdmission key stored) :=
  evolves_update (fun _ => rfl) fun _ _ h => h

theorem evolves_rememberMaterialized (materialized : Option ObjectRow) (stored : StoredAdmission) :
    Keeps (Evolves P) (rememberMaterialized materialized stored) := by
  cases materialized with
  | none => exact evolves_pure _
  | some object => exact evolves_rememberAdmission _ _

theorem evolves_writeAdmission (prepared : PreparedDecision) (materialized : Option ObjectRow) :
    Keeps (Evolves AdmissionWrites) (writeAdmission sys prepared materialized) := by
  refine evolves_commitSeq_bind fun seq => evolves_bind evolves_nextOrdinal fun ordinal => ?_
  refine evolves_bind (evolves_forM (fun _ => evolves_check_bind fun _ =>
    evolves_pure _) _) fun _ => ?_
  refine evolves_check_bind fun reason => evolves_query_bind fun _ =>
    evolves_bind evolves_currentTimeMs fun decidedAt => evolves_exec_bind ?_ fun _ => ?_
  · rintro seq' rfl
    exact .insert _ rfl rfl
  · exact evolves_bind (evolves_record (fun _ _ _ => .redaction _) _ _ _ _) fun _ =>
      evolves_bind (evolves_pushChange _) fun _ =>
      evolves_bind (evolves_rememberMaterialized _ _) fun _ =>
      evolves_bind (evolves_rememberAdmission _ _) fun _ => evolves_pure _

theorem evolves_applyAdmission (request : AdmissionRequest) :
    Keeps (Evolves AdmissionWrites) (applyAdmission sys request) :=
  evolves_bind (evolves_queryAt _) fun _ => evolves_writeAdmission _ _

theorem evolves_visitDependent (reason : String) (walk : Walk) (dependent : AdmissionRow) :
    Keeps (Evolves AdmissionWrites) (visitDependent sys reason walk dependent) := by
  refine evolves_ite (evolves_pure _) (evolves_ite ?_ ?_)
  · exact evolves_bind evolves_noteDeferred fun _ => evolves_pure _
  · exact evolves_bind (evolves_applyAdmission _) fun _ => evolves_pure _

theorem evolves_visitDependents (reason : String) (dependents : List AdmissionRow) (walk : Walk) :
    Keeps (Evolves AdmissionWrites) (visitDependents sys reason walk dependents) := by
  induction dependents generalizing walk with
  | nil => exact evolves_pure _
  | cons dependent rest ih =>
    exact evolves_bind (evolves_visitDependent _ _ _) fun walk => ih walk

theorem evolves_demotionRounds (reason : String) (rounds : Nat) (walk : Walk) :
    Keeps (Evolves AdmissionWrites) (demotionRounds sys reason rounds walk) := by
  induction rounds generalizing walk with
  | zero => exact evolves_pure _
  | succ rounds ih =>
    rw [demotionRounds]
    split
    · exact evolves_pure _
    · exact evolves_query_bind fun _ =>
        evolves_bind (evolves_visitDependents _ _ _) fun walk => ih walk

theorem evolves_demoteAuthorityDependents (authority reason : String) :
    Keeps (Evolves AdmissionWrites) (demoteAuthorityDependents sys authority reason) :=
  evolves_bind evolves_registrySize fun _ => evolves_bind (evolves_demotionRounds _ _ _) fun _ =>
    evolves_pure _

theorem evolves_demoteDependentsIfAuthorityLost (subject reason : String) :
    Keeps (Evolves AdmissionWrites) (demoteDependentsIfAuthorityLost sys subject reason) := by
  refine evolves_query_bind fun holds => ?_
  cases holds with
  | true => exact evolves_pure _
  | false => exact evolves_bind (evolves_demoteAuthorityDependents _ _) fun _ => evolves_pure _

/-- A cascade adds the statements of an admission to those of the write in its middle. -/
theorem evolves_withAuthorityCascade (hP : ∀ seq w, AdmissionWrites seq w → P seq w)
    (subject candidate : Option String) (reason : String) {write : M AdmissionDecision}
    (hwrite : Keeps (Evolves P) write) :
    Keeps (Evolves P) (withAuthorityCascade sys subject candidate reason write) :=
  evolves_bind (evolves_queryAt _) fun _ => evolves_bind hwrite fun _ =>
    evolves_bind (evolves_forM (fun _ => (evolves_demoteDependentsIfAuthorityLost _ _).mono
      fun _ _ h => h.mono hP) _) fun _ => evolves_pure _

end MagicContext.Kernel
