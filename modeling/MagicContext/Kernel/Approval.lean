import Mathlib.Data.List.Sort
import MagicContext.Kernel.Domain

/-!
# Authority in the admission ledger

What the admission ledger says about an object: its latest decision, the latest decision about its
lineage, the strictest label either ever gave it.  An approval is a live accepted decision whose
standing qualifies, and it holds authority when every approval on its chain qualifies too.

## What is here

* `AdmissionRow.newerThan` and `newest` — the order of decisions.
* `approvalQualifies` — the predicate on a single approval.
* `authorityChain` and `validateApproval` — the walk to the root.
* `approvalDependents` — the subjects whose support rests on an approval.
* `SubjectFacts` and the loaders of what an admission reads.
-/

namespace MagicContext.Kernel

/-! ## Decisions in order -/

/-- Later in the ledger: by commit, then by the id within the commit. -/
def AdmissionRow.newerThan (r r' : AdmissionRow) : Bool :=
  decide (r'.commitSeq < r.commitSeq) ||
    (r.commitSeq == r'.commitSeq && decide (r'.ordinal < r.ordinal))

/-- `ORDER BY commit_seq DESC,admission_decision_id DESC LIMIT 1`. -/
def newest : List AdmissionRow → Option AdmissionRow
  | [] => none
  | r :: rs =>
    match newest rs with
    | none => some r
    | some r' => if r'.newerThan r then some r' else some r

/-- Ties a decision to the lineage of a registry row. -/
def sameLineage (a : AdmissionRow) (o : ObjectRow) : Bool :=
  a.sourceKind == o.sourceKind && a.sourceId == o.sourceId && a.sourceRevision == o.sourceRevision

section Ledger
variable (db : Db)

variable (within : Nat → Bool)

/-- A decision about the object itself; one older than the object cannot be about it.
`within` bounds the commits that count. -/
def ownDecision (o : ObjectRow) (a : AdmissionRow) : Bool :=
  a.subjectObjectId == some o.objectId && sameLineage a o &&
    decide (o.createdCommitSeq ≤ a.commitSeq) && within a.commitSeq

/-- A source-scoped decision about the object's lineage. -/
def lineageDecision (o : ObjectRow) (a : AdmissionRow) : Bool :=
  a.subjectObjectId.isNone && sameLineage a o && within a.commitSeq

def latestOwnDecision (o : ObjectRow) : Option AdmissionRow :=
  newest (db.admissions.select (ownDecision within o))

def latestLineageDecision (o : ObjectRow) : Option AdmissionRow :=
  newest (db.admissions.select (lineageDecision within o))

/-- The greater of a decision's stored class and its taint floor. -/
def AdmissionRow.label (a : AdmissionRow) : Sensitivity :=
  (sensitivityFloor a.taintClass).max a.sensitivity

/-- The strictest label that decisions about the object or its lineage gave. -/
def strictestSensitivity (o : ObjectRow) : Option Sensitivity :=
  (db.admissions.select fun a => ownDecision within o a || lineageDecision within o a).foldl
    (fun acc a => some ((acc.getD .normal).max a.label)) none

/-- A decision about the object differs from `latest` in class, or has more effect than history. -/
def ownHistoryInconsistent (o : ObjectRow) (latest : AdmissionRow) : Bool :=
  db.admissions.any fun p => ownDecision within o p &&
    (p.sourceClass != latest.sourceClass || p.taintClass != latest.taintClass ||
      decide (p.maturity.rank < p.effectiveMaturity.rank))

/-! ## Approvals -/

def maxApprovalDependents : Nat := 1024
def maxAuthorityDemotions : Nat := 4096
def maxLineageAuthorityBearers : Nat := 64
def maxAuthorityChainDepth : Nat := 64

/-- `automatic_ceiling_rank_sql`: `-1` for a pairing that makes no sense. -/
def automaticCeilingRank (source : SourceClass) (taint : TaintClass) : Int :=
  if sourceAllowsTaint source taint then (automaticCeiling source taint).rank else -1

/-- A lineage decision that withholds nothing. -/
def nonRestrictive (l : AdmissionRow) : Bool :=
  l.disposition == .active && l.visibility == .automatic && l.sensitivity == .normal &&
    l.policyRevision == policyRevision && sourceAllowsTaint l.sourceClass l.taintClass &&
    decide (l.effectiveMaturity.rank ≤ l.maturity.rank) &&
    decide (Maturity.rank .verified ≤ l.effectiveMaturity.rank) &&
    (decide ((l.effectiveMaturity.rank : Int) ≤ automaticCeilingRank l.sourceClass l.taintClass) ||
      l.approvalObjectId.isSome)

def approvalRowFields (a : AdmissionRow) : Bool :=
  a.taintClass == .userExplicit && a.sourceClass == .explicitUser &&
    (a.maturity == .approved || a.maturity == .enforced) &&
    (a.effectiveMaturity == .approved || a.effectiveMaturity == .enforced) &&
    (a.maturity == .enforced || a.effectiveMaturity == .approved) &&
    a.disposition == .active && a.visibility == .automatic && a.sensitivity == .normal &&
    a.policyRevision == policyRevision

def everyCommit : Nat → Bool := fun _ => true

/-- A live accepted decision on a live object: the only kind that can hold authority. -/
def isAcceptedDecision (objectId : String) : Bool :=
  (db.registry.get objectId).any fun o => o.objectKind == "decision" && o.live &&
    db.decisions.any fun d =>
      d.objectId == objectId && d.decisionKind == "adr_accepted" && d.live

/-- The object is a live approval in its own right. -/
def approvalQualifies (objectId : String) : Bool :=
  isAcceptedDecision db objectId &&
    (db.registry.get objectId).any fun o =>
      (latestOwnDecision db everyCommit o).any fun a =>
        approvalRowFields a && o.sensitivity == .normal &&
          (strictestSensitivity db everyCommit o).getD .secret == .normal &&
          !ownHistoryInconsistent db everyCommit o a &&
          (latestLineageDecision db everyCommit o).all nonRestrictive

/-- No later decision about the same subject. -/
def isLatestOfSubject (a : AdmissionRow) : Bool :=
  !db.admissions.any fun newer =>
    newer.subjectObjectId == a.subjectObjectId && newer.newerThan a

/-- The latest decision that names the object as its subject. -/
def latestOfSubject (objectId : String) : Option AdmissionRow :=
  db.admissions.rows.find? fun a =>
    a.subjectObjectId == some objectId && isLatestOfSubject db a

/-- The next member of an authority chain: the approval recorded on the latest decision about a
member that qualifies. -/
def nextAuthority (objectId : String) : Option String :=
  if approvalQualifies db objectId then
    ((latestOfSubject db objectId).filter fun a => a.policyRevision == policyRevision).bind
      AdmissionRow.approvalObjectId
  else none

/-- The chain from an approval towards its root.  A subject has one latest decision, so the
recursive query walks a path; it expands one hop past the permitted depth. -/
def authorityChain (objectId : String) : Nat → List String
  | 0 => [objectId]
  | hops + 1 => objectId :: ((nextAuthority db objectId).elim [] fun a => authorityChain a hops)

/-- The chain is short enough, all of it qualifies, and the subject is not on it. -/
def chainHolds (approval : String) (subject : Option String) : Bool :=
  let chain := authorityChain db approval (maxAuthorityChainDepth + 1)
  decide (chain.length ≤ maxAuthorityChainDepth + 1) && chain.all (approvalQualifies db) &&
    !chain.any fun member => some member == subject

/-- Support of a live subject that rests on an approval. -/
def restsOn (approval : String) (a : AdmissionRow) : Bool :=
  a.approvalObjectId == some approval && a.elevatedSupport && isLatestOfSubject db a &&
    a.subjectObjectId.any fun subject => (db.registry.get subject).any fun o => o.live

/-- `ORDER BY a.subject_object_id`. -/
def bySubject (a a' : AdmissionRow) : Prop := a.subjectObjectId.getD "" ≤ a'.subjectObjectId.getD ""

instance : DecidableRel bySubject := fun a a' =>
  inferInstanceAs (Decidable (a.subjectObjectId.getD "" ≤ a'.subjectObjectId.getD ""))

/-- The latest decisions whose support rests on the approval. -/
def approvalDependents (approval : String) : List AdmissionRow :=
  (db.admissions.select (restsOn db approval)).insertionSort bySubject

/-- The distinct subjects other than `subject` that rest on the approval. -/
def otherDependents (approval : String) (subject : Option String) : Nat :=
  (((db.admissions.select (restsOn db approval)).map AdmissionRow.subjectObjectId).filter
    (· != subject)).dedup.length

end Ledger

/-! ## What an admission reads -/

section Loaders
variable (sys : Platform)

structure SubjectFacts where
  subject : AdmissionKey
  sourceKind : String
  sourceId : String
  sourceRevision : Int
  domainId : String
  sensitivity : Sensitivity
  provenanceKind : Option String
  candidateKind : Option String
  candidatePayload : Option String

namespace SubjectFacts

def candidateId (facts : SubjectFacts) : Option String :=
  match facts.subject with
  | .candidate candidateId => some candidateId
  | .object _ => none

def subjectObjectId (facts : SubjectFacts) : Option String :=
  match facts.subject with
  | .candidate _ => none
  | .object objectId => some objectId

end SubjectFacts

/-- A candidate binds to at most one canonical object. -/
def candidateIsMaterialized (candidateId : String) (env : Envelope) : Bool :=
  env.tx.admissions.any fun a => a.candidateRef == some candidateId && a.subjectObjectId.isSome

/-- `ok_or(KernelError::AdmissionPolicy)`. -/
def orPolicy {α : Type} : Option α → Except KernelError α
  | some a => .ok a
  | none => .error .admissionPolicy

/-- A staging row that can still be promoted. -/
def promotable (terminalState : Option String) (leaseExpiresAt now : Int) : Bool :=
  match terminalState with
  | none => decide (now < leaseExpiresAt)
  | some state => state == "completed"

def loadCandidateFacts (candidateId : String) (now : Int) (env : Envelope) :
    Except KernelError SubjectFacts := do
  let candidateId ← sys.identity candidateId
  let row := (env.tx.candidates.get candidateId).bind fun c =>
    ((env.tx.runs.get c.extractionRunId).filter fun r =>
      promotable c.terminalState c.leaseExpiresAt now &&
        promotable r.terminalState r.leaseExpiresAt now).map fun r => (c, r)
  match row with
  | none => .error .notFound
  | some (c, r) => return {
      subject := .candidate candidateId
      sourceKind := ← orPolicy r.sourceKind
      sourceId := ← orPolicy r.sourceId
      sourceRevision := ← orPolicy r.sourceRevision
      domainId := "kernel-staging"
      sensitivity := c.sensitivity
      provenanceKind := c.provenanceKind
      candidateKind := some c.candidateKind
      candidatePayload := some c.payload }

def loadSubjectFacts (subjectObjectId : String) (env : Envelope) :
    Except KernelError SubjectFacts := do
  let subjectObjectId ← sys.identity subjectObjectId
  match (env.tx.registry.get subjectObjectId).filter fun r => r.live with
  | none => .error .notFound
  | some o => return {
      subject := .object subjectObjectId
      sourceKind := o.sourceKind
      sourceId := o.sourceId
      sourceRevision := o.sourceRevision
      domainId := o.domainId
      sensitivity := o.sensitivity
      provenanceKind := none
      candidateKind := none
      candidatePayload := none }

/-- Decisions with the key, in the ledger. -/
def ofKey (key : AdmissionKey) (a : AdmissionRow) : Bool :=
  match key with
  | .candidate candidateId => a.candidateId == some candidateId
  | .object objectId => a.subjectObjectId == some objectId

def AdmissionRow.stored (a : AdmissionRow) : StoredAdmission where
  decision :=
    { historicalMaturity := a.maturity
      effectiveMaturity := a.effectiveMaturity
      disposition := a.disposition
      outcome := a.outcome
      sourceClass := a.sourceClass
      taintClass := a.taintClass
      sensitivity := a.sensitivity }
  approvalObjectId := a.approvalObjectId

/-- The last decision about the subject, from the envelope if it made one. -/
def loadPriorDecision (facts : SubjectFacts) (env : Envelope) :
    Except KernelError (Option StoredAdmission) :=
  match env.admissionLatest.lookup facts.subject with
  | some prior => .ok (some prior)
  | none =>
    match newest (env.tx.admissions.select (ofKey facts.subject)) with
    | none => .ok none
    | some a =>
      -- Rows of another revision may have other meanings.
      if a.policyRevision = policyRevision then .ok (some a.stored) else .error .admissionPolicy

/-- Some approval object with authority for the subject. -/
def validateApproval (approvalObjectId subjectObjectId : Option String) (env : Envelope) :
    Except KernelError Bool :=
  match approvalObjectId with
  | none => .ok false
  | some approval => (chainHolds env.tx · subjectObjectId) <$> sys.identity approval

def subjectIsAcceptedDecision (subjectObjectId : Option String) (env : Envelope) : Bool :=
  subjectObjectId.any (isAcceptedDecision env.tx)

def subjectGrantsAuthority (subjectObjectId : Option String) (env : Envelope) :
    Except KernelError Bool :=
  if subjectIsAcceptedDecision subjectObjectId env then
    validateApproval sys subjectObjectId none env
  else .ok false

def enforceApprovalDependentCap (approval : String) (subject : Option String) (env : Envelope) :
    Except KernelError Unit :=
  if maxApprovalDependents ≤ otherDependents env.tx approval subject then .error .admissionPolicy
  else .ok ()

def loadApprovalDependents (approval : String) (env : Envelope) :
    Except KernelError (List AdmissionRow) :=
  if maxApprovalDependents < (approvalDependents env.tx approval).length then
    .error .admissionPolicy
  else .ok (approvalDependents env.tx approval)

def validateProvenance (source : SourceClass) (taint : TaintClass)
    (provenanceKind : Option String) : Except KernelError Unit :=
  let valid : Bool := match provenanceKind with
    | none => true
    | some "repository" => source != .explicitUser && taint != .userExplicit
    | some "unclassified" =>
      !(source == .explicitUser || source == .trustedLocalCode || source == .trustedToolResult)
    | some _ => false
  if valid then .ok () else .error .admissionPolicy

structure AdmissionEvent where
  kind : EventKind
  triggerObjectId : Option String
  approvalObjectId : Option String
  evidenceId : Option String
  reason : String

/-- What a trigger adds to an admission: nothing if it is refused, else the label it carries, if
the event has one. -/
def validateTrigger (event : AdmissionEvent) (facts : SubjectFacts) (env : Envelope) :
    Except KernelError (Option (Option Sensitivity)) :=
  match event.kind with
  | .codeObserved | .configObserved =>
    match event.triggerObjectId with
    | none => .ok none
    | some trigger => do
      let trigger ← sys.identity trigger
      let expected := if event.kind = .codeObserved then "code_present" else "config_present"
      let observed := (env.tx.registry.get trigger).bind fun o =>
        if o.objectKind == "observation" && o.live && o.sourceKind == facts.sourceKind &&
            o.sourceId == facts.sourceId && o.sourceRevision == facts.sourceRevision then
          env.tx.observations.rows.find? fun observed =>
            observed.objectId == trigger && observed.observationKind == expected && observed.live &&
              observed.evidenceId.all fun evidence =>
                (env.tx.evidence.get evidence).any fun backing => backing.live
        else none
      return observed.map fun observed => some observed.sensitivity
  -- No writer records a passing artifact for an enforcement event.
  | .enforce => .ok none
  | _ => .ok (some none)

end Loaders

end MagicContext.Kernel
