import MagicContext.Kernel.Admission

/-!
# Decisions, observations and scopes

The slice writer and the scope writer.  Texts are redacted before they are stored, the parents a
row names must be live, and a correction keeps the domain and the source of what it corrects and
raises the source's revision.  Unlike the methods on domains and admissions, these do not poison
the envelope when they fail.

## What is here

* `invalidate`, `setSuccessor` — the updates of a registered object and its typed row.
* `insertDecision`, `insertObservation`, `appendDecisionEvent`, `insertScope`.
* `correctDecision`, `correctObservation` and `retireSliceObject`; the first and the last end the
  authority a decision held and demote what rested on it.
* `SliceWrites` — the statements these methods execute.
-/

namespace MagicContext.Kernel

open Transaction
open Scope (ScopeTermSpec)

/-! ## Registered objects -/

/-- Ends a live object in the registry and in its own table; each must change exactly one row. -/
def invalidate (table : TypedTable) (objectId : String) : M Unit := do
  let seq ← commitSeq
  let changed ← exec (.invalidateRegistry objectId none seq)
  require (changed == 1) .notFound
  let changed ← exec (.invalidateTyped table objectId seq)
  require (changed == 1) .notFound

/-- Stores the successor in the registry and in the object's own table. -/
def setSuccessor (table : TypedTable) (oldObjectId newObjectId : String) : M Unit := do
  let _ ← exec (.succeedRegistry oldObjectId none newObjectId)
  let _ ← exec (.succeedTyped table oldObjectId newObjectId)

def recordRegistryFields (ownerId : String)
    (domainId objectId sourceKind sourceId : RedactedField) : M Unit :=
  recordFields "object_registry" ownerId
    [("domain_id", domainId), ("object_id", objectId), ("source_kind", sourceKind),
      ("source_id", sourceId)]

/-! ## Live parents -/

/-- A row that is there and not invalidated. -/
def isLive {ρ : Type} (life : ρ → Lifetime) (row : Option ρ) : Bool :=
  row.any fun r => (life r).live

def found (ok : Bool) : Except KernelError Unit := if ok then .ok () else .error .notFound

/-- `require_parents`. -/
def requireParents (domainId : String) (propositionId scopeId anchorId evidenceId : Option String)
    (env : Envelope) : Except KernelError Unit :=
  found (isLive DomainRow.toLifetime (env.tx.domains.get domainId) &&
    propositionId.all (fun id => isLive ParentRow.toLifetime (env.tx.propositions.get id)) &&
    scopeId.all (fun id => isLive ScopeRow.toLifetime (env.tx.scopes.get id)) &&
    anchorId.all (fun id => isLive ParentRow.toLifetime (env.tx.anchors.get id)) &&
    evidenceId.all (fun id => isLive EvidenceRow.toLifetime (env.tx.evidence.get id)))

def isLiveObject (objectId : String) (env : Envelope) : Bool :=
  isLive ObjectRow.toLifetime (env.tx.registry.get objectId)

def isLiveDecisionObject (objectId : String) (env : Envelope) : Bool :=
  (env.tx.registry.get objectId).any (fun r => r.objectKind == "decision" && r.live) &&
    env.tx.decisions.any fun d => d.objectId == objectId && d.live

/-- A registry row as it is returned for a live object. -/
def liveObject (r : ObjectRow) : ObjectRow :=
  { r with invalidatedCommitSeq := none, supersededBy := none }

def loadLiveTypedObject (objectId objectKind : String) (env : Envelope) :
    Except KernelError ObjectRow :=
  match (env.tx.registry.get objectId).filter fun r => r.objectKind == objectKind && r.live with
  | some r => .ok (liveObject r)
  | none => .error .notFound

/-- The live decision with the id, as a registered object. -/
def loadLiveDecisionObject (decisionId : String) (env : Envelope) : Except KernelError ObjectRow :=
  match ((env.tx.decisions.get decisionId).filter fun d => d.live).bind fun d =>
      (env.tx.registry.get d.objectId).filter fun r => r.live with
  | some r => .ok (liveObject r)
  | none => .error .notFound

/-- The live decision whose object has the id, with its `decision_id`. -/
def loadLiveDecisionByObject (objectId : String) (env : Envelope) :
    Except KernelError (Option (ObjectRow × String)) :=
  .ok ((env.tx.decisions.rows.find? fun d => d.objectId == objectId && d.live).bind fun d =>
    ((env.tx.registry.get objectId).filter fun r => r.live).map fun r =>
      (liveObject r, d.decisionId))

/-- A replacement keeps domain and source identity and raises the source revision. -/
def validateSuccessor (old : ObjectRow) (domainId sourceKind sourceId : String)
    (sourceRevision : Int) : Except KernelError Unit :=
  if old.domainId ≠ domainId ∨ old.sourceKind ≠ sourceKind ∨ old.sourceId ≠ sourceId then
    .error .invalidInput
  else if sourceRevision ≤ old.sourceRevision then .error .conflict
  else .ok ()

/-! ## Specifications -/

def requireSpecFields (fields : List String) (sourceRevision : Int) : Except KernelError Unit :=
  if sourceRevision < 0 ∨ fields.any Text.isBlank then .error .invalidInput else .ok ()

/-- `push_optional`. -/
def optionalField (name : String) : Option RedactedField → List (String × RedactedField)
  | none => []
  | some field => [(name, field)]

structure DecisionSpec where
  decisionId : String
  objectId : String
  domainId : String
  propositionId : Option String := none
  scopeId : Option String := none
  anchorId : Option String := none
  evidenceId : Option String := none
  decisionKind : String
  payload : DecisionPayload
  sourceKind : String
  sourceId : String
  sourceRevision : Int
  sensitivity : Sensitivity

structure RedactedDecision where
  decisionId : RedactedField
  objectId : RedactedField
  domainId : RedactedField
  propositionId : Option RedactedField
  scopeId : Option RedactedField
  anchorId : Option RedactedField
  evidenceId : Option RedactedField
  decisionKind : RedactedField
  summary : RedactedField
  rationale : RedactedField
  sourceKind : RedactedField
  sourceId : RedactedField
  sourceRevision : Int
  sensitivity : Sensitivity

structure DecisionWriteOutcome where
  decisionId : String
  objectId : String

namespace RedactedDecision

def new (sys : Platform) (spec : DecisionSpec) : Except KernelError RedactedDecision := do
  requireSpecFields
    [spec.decisionId, spec.objectId, spec.domainId, spec.decisionKind, spec.sourceKind,
      spec.sourceId] spec.sourceRevision
  return {
    decisionId := ← sys.redact spec.decisionId
    objectId := ← sys.redact spec.objectId
    domainId := ← sys.redact spec.domainId
    propositionId := ← sys.redactOptional spec.propositionId
    scopeId := ← sys.redactOptional spec.scopeId
    anchorId := ← sys.redactOptional spec.anchorId
    evidenceId := ← sys.redactOptional spec.evidenceId
    decisionKind := ← sys.redact spec.decisionKind
    summary := ← sys.redact spec.payload.summary
    rationale := ← sys.redact spec.payload.rationale
    sourceKind := ← sys.redact spec.sourceKind
    sourceId := ← sys.redact spec.sourceId
    sourceRevision := spec.sourceRevision
    sensitivity := spec.sensitivity }

variable (spec : RedactedDecision)

def objectRow (commitSeq : Nat) : ObjectRow where
  objectId := spec.objectId.text
  objectKind := "decision"
  domainId := spec.domainId.text
  sourceKind := spec.sourceKind.text
  sourceId := spec.sourceId.text
  sourceRevision := spec.sourceRevision
  createdCommitSeq := commitSeq
  sensitivity := spec.sensitivity

def row (commitSeq : Nat) : DecisionRow where
  decisionId := spec.decisionId.text
  objectId := spec.objectId.text
  propositionId := spec.propositionId.map RedactedField.text
  scopeId := spec.scopeId.map RedactedField.text
  anchorId := spec.anchorId.map RedactedField.text
  evidenceId := spec.evidenceId.map RedactedField.text
  decisionKind := spec.decisionKind.text
  payload := ⟨spec.summary.text, spec.rationale.text⟩
  createdCommitSeq := commitSeq
  sensitivity := spec.sensitivity

def outcome : DecisionWriteOutcome := ⟨spec.decisionId.text, spec.objectId.text⟩

def textFields : List (String × RedactedField) :=
  [("decision_id", spec.decisionId), ("object_id", spec.objectId), ("domain_id", spec.domainId),
    ("decision_kind", spec.decisionKind), ("source_kind", spec.sourceKind),
    ("source_id", spec.sourceId), ("decision_payload.summary", spec.summary),
    ("decision_payload.rationale", spec.rationale)] ++
    optionalField "proposition_id" spec.propositionId ++ optionalField "scope_id" spec.scopeId ++
    optionalField "anchor_id" spec.anchorId ++ optionalField "evidence_id" spec.evidenceId

end RedactedDecision

structure DependencySpec where
  dependencyObjectId : String
  dependencyKind : String
  dependencyPayload : Option String := none

structure ObservationSpec where
  observationId : String
  objectId : String
  domainId : String
  propositionId : Option String := none
  scopeId : Option String := none
  anchorId : Option String := none
  evidenceId : Option String := none
  observationKind : String
  payload : ObservationPayload
  observedAt : Int
  dependencies : List DependencySpec := []
  sourceKind : String
  sourceId : String
  sourceRevision : Int
  sensitivity : Sensitivity

structure RedactedDependency where
  objectId : RedactedField
  kind : RedactedField
  payload : Option RedactedField

structure RedactedObservation where
  observationId : RedactedField
  objectId : RedactedField
  domainId : RedactedField
  propositionId : Option RedactedField
  scopeId : Option RedactedField
  anchorId : Option RedactedField
  evidenceId : Option RedactedField
  observationKind : RedactedField
  summary : RedactedField
  classification : RedactedField
  detail : Option RedactedField
  observedAt : Int
  dependencies : List RedactedDependency
  sourceKind : RedactedField
  sourceId : RedactedField
  sourceRevision : Int
  sensitivity : Sensitivity

structure ObservationWriteOutcome where
  observationId : String
  objectId : String

/-- The only dependency kind that alignment reads. -/
def alignmentDependencyKind : String := "implements"

def RedactedDependency.new (sys : Platform) (spec : DependencySpec) :
    Except KernelError RedactedDependency := do
  if Text.isBlank spec.dependencyObjectId ∨ Text.isBlank spec.dependencyKind then
    .error .invalidInput
  else return {
    objectId := ← sys.redact spec.dependencyObjectId
    kind := ← sys.redact spec.dependencyKind
    payload := ← sys.redactOptional spec.dependencyPayload }

namespace RedactedObservation

def new (sys : Platform) (spec : ObservationSpec) : Except KernelError RedactedObservation := do
  requireSpecFields
    [spec.observationId, spec.objectId, spec.domainId, spec.observationKind, spec.sourceKind,
      spec.sourceId] spec.sourceRevision
  if spec.observedAt < 0 then .error .invalidInput
  else
    let dependencies ← spec.dependencies.mapM (RedactedDependency.new sys)
    return {
      observationId := ← sys.redact spec.observationId
      objectId := ← sys.redact spec.objectId
      domainId := ← sys.redact spec.domainId
      propositionId := ← sys.redactOptional spec.propositionId
      scopeId := ← sys.redactOptional spec.scopeId
      anchorId := ← sys.redactOptional spec.anchorId
      evidenceId := ← sys.redactOptional spec.evidenceId
      observationKind := ← sys.redact spec.observationKind
      summary := ← sys.redact spec.payload.summary
      classification := ← sys.redact spec.payload.classification
      detail := ← sys.redactOptional spec.payload.detail
      observedAt := spec.observedAt
      dependencies := dependencies
      sourceKind := ← sys.redact spec.sourceKind
      sourceId := ← sys.redact spec.sourceId
      sourceRevision := spec.sourceRevision
      sensitivity := spec.sensitivity }

variable (spec : RedactedObservation)

def objectRow (commitSeq : Nat) : ObjectRow where
  objectId := spec.objectId.text
  objectKind := "observation"
  domainId := spec.domainId.text
  sourceKind := spec.sourceKind.text
  sourceId := spec.sourceId.text
  sourceRevision := spec.sourceRevision
  createdCommitSeq := commitSeq
  sensitivity := spec.sensitivity

def row (commitSeq : Nat) : ObservationRow where
  observationId := spec.observationId.text
  objectId := spec.objectId.text
  propositionId := spec.propositionId.map RedactedField.text
  scopeId := spec.scopeId.map RedactedField.text
  anchorId := spec.anchorId.map RedactedField.text
  evidenceId := spec.evidenceId.map RedactedField.text
  observationKind := spec.observationKind.text
  payload := ⟨spec.summary.text, spec.classification.text, spec.detail.map RedactedField.text⟩
  observedAt := spec.observedAt
  createdCommitSeq := commitSeq
  sensitivity := spec.sensitivity

def dependencyRow (dependency : RedactedDependency) : DependencyRow where
  observationId := spec.observationId.text
  dependencyObjectId := dependency.objectId.text
  dependencyKind := dependency.kind.text
  dependencyPayload := dependency.payload.map RedactedField.text

def outcome : ObservationWriteOutcome := ⟨spec.observationId.text, spec.objectId.text⟩

def textFields : List (String × RedactedField) :=
  [("observation_id", spec.observationId), ("object_id", spec.objectId),
    ("domain_id", spec.domainId), ("observation_kind", spec.observationKind),
    ("source_kind", spec.sourceKind), ("source_id", spec.sourceId),
    ("observation_payload.summary", spec.summary),
    ("observation_payload.classification", spec.classification)] ++
    optionalField "observation_payload.detail" spec.detail ++
    optionalField "proposition_id" spec.propositionId ++ optionalField "scope_id" spec.scopeId ++
    optionalField "anchor_id" spec.anchorId ++ optionalField "evidence_id" spec.evidenceId ++
    spec.dependencies.zipIdx.flatMap fun (dependency, index) =>
      [(s!"dependencies.{index}.dependency_object_id", dependency.objectId),
        (s!"dependencies.{index}.dependency_kind", dependency.kind)] ++
        optionalField s!"dependencies.{index}.dependency_payload" dependency.payload

end RedactedObservation

structure EventSpec where
  eventKind : String
  summary : String
  evidenceId : Option String
  recordedAt : Int

structure RedactedEvent where
  kind : RedactedField
  summary : RedactedField
  evidenceId : Option RedactedField
  recordedAt : Int

def RedactedEvent.new (sys : Platform) (spec : EventSpec) : Except KernelError RedactedEvent := do
  if Text.isBlank spec.eventKind ∨ spec.recordedAt < 0 then .error .invalidInput
  else return {
    kind := ← sys.redact spec.eventKind
    summary := ← sys.redact spec.summary
    evidenceId := ← sys.redactOptional spec.evidenceId
    recordedAt := spec.recordedAt }

structure DecisionEventOutcome where
  decisionId : String
  eventOrdinal : Nat

structure RetirementOutcome where
  objectId : String
  objectKind : String

variable (sys : Platform)

/-! ## Decisions -/

/-- `slice::write::insert_decision`: the rows of a decision. -/
def insertDecisionRows (spec : RedactedDecision) : M Unit := do
  let seq ← commitSeq
  query (requireParents spec.domainId.text (spec.propositionId.map RedactedField.text)
    (spec.scopeId.map RedactedField.text) (spec.anchorId.map RedactedField.text)
    (spec.evidenceId.map RedactedField.text))
  let _ ← exec (.insertRegistry (spec.objectRow seq))
  recordRegistryFields spec.objectId.text spec.domainId spec.objectId spec.sourceKind spec.sourceId
  let _ ← exec (.insertDecision (spec.row seq))
  recordFields "decisions" spec.decisionId.text spec.textFields

def insertDecision (spec : DecisionSpec) : M DecisionWriteOutcome := do
  let spec ← check (RedactedDecision.new sys spec)
  insertDecisionRows spec
  let seq ← commitSeq
  pushChange
    { object := spec.objectRow seq, kind := "decision_insert", redactions := spec.textFields }
  return spec.outcome

/-- `COALESCE(MAX(event_ordinal),0)+1`. -/
def nextEventOrdinal (decisionId : String) (env : Envelope) : Nat :=
  ((env.tx.decisionEvents.select fun r => r.decisionId == decisionId).map
    DecisionEventRow.eventOrdinal).foldr max 0 + 1

def appendDecisionEvent (decisionId : String) (spec : EventSpec) : M DecisionEventOutcome := do
  let decisionId := sys.redactLossy decisionId
  let spec ← check (RedactedEvent.new sys spec)
  query fun env => found ((spec.evidenceId.map RedactedField.text).all fun id =>
    isLive EvidenceRow.toLifetime (env.tx.evidence.get id))
  let object ← query (loadLiveDecisionObject decisionId.text)
  let ordinal ← query fun env => .ok (nextEventOrdinal decisionId.text env)
  let seq ← commitSeq
  let _ ← exec (.insertDecisionEvent
    { decisionId := decisionId.text, eventOrdinal := ordinal, commitSeq := seq
      eventKind := spec.kind.text, summary := spec.summary.text
      evidenceId := spec.evidenceId.map RedactedField.text, recordedAt := spec.recordedAt })
  let fields := [("decision_id", decisionId), ("event_kind", spec.kind),
    ("event_payload.summary", spec.summary)] ++ optionalField "evidence_id" spec.evidenceId
  recordFields "decision_events" s!"{decisionId.text}:{ordinal}" fields
  pushChange
    { object := object
      kind := "decision_event_append"
      redactions := fields
      audit := some
        [("decision_id", .text decisionId.text), ("event_ordinal", .number ordinal),
          ("event_kind", .text spec.kind.text)] }
  return ⟨decisionId.text, ordinal⟩

/-- What a correction is checked against: the survivor's stored row if the replacement folds into
a live decision, else the specification. -/
def validateReplacement (old : ObjectRow) (replacement : RedactedDecision)
    (survivor : Option (ObjectRow × String)) : Except KernelError Unit :=
  match survivor with
  | some (survivor, _) =>
    if survivor.objectId = old.objectId then .error .invalidInput
    else validateSuccessor old survivor.domainId survivor.sourceKind survivor.sourceId
      survivor.sourceRevision
  | none => validateSuccessor old replacement.domainId.text replacement.sourceKind.text
      replacement.sourceId.text replacement.sourceRevision

/-- The object that replaces a decision: the survivor, for which no row is written, or a new one. -/
def replaceDecision (replacement : RedactedDecision) (survivor : Option (ObjectRow × String)) :
    M (ObjectRow × DecisionWriteOutcome × List (String × RedactedField)) :=
  match survivor with
  | some (survivor, decisionId) =>
    pure (survivor, ⟨decisionId, replacement.objectId.text⟩, [])
  | none => do
    insertDecisionRows replacement
    let seq ← commitSeq
    return (replacement.objectRow seq, replacement.outcome, replacement.textFields)

/-- Demotes what rested on an object that granted authority before it was ended. -/
def cascadeIfGranted (granted : Bool) (objectId reason : String) : M Unit :=
  match granted with
  | true => demoteDependentsIfAuthorityLost sys objectId reason
  | false => pure ()

def correctDecision (replacedObjectId : String) (replacement : DecisionSpec) :
    M DecisionWriteOutcome := do
  let replaced := sys.redactLossy replacedObjectId
  let old ← query (loadLiveTypedObject replaced.text "decision")
  let granted ← query (subjectGrantsAuthority sys (some replaced.text))
  -- The replacement's id selects a survivor, so it is an identity.
  let replacementObjectId ← check (sys.identity replacement.objectId)
  let replacement ← check (RedactedDecision.new sys replacement)
  let survivor ← query (loadLiveDecisionByObject replacementObjectId)
  check (validateReplacement old replacement survivor)
  invalidate .decisions replaced.text
  let (object, outcome, redactions) ← replaceDecision replacement survivor
  setSuccessor .decisions replaced.text replacement.objectId.text
  pushChange
    { object := object
      kind := "decision_correct"
      replacedObjectId := some replaced.text
      redactions := redactions ++ [("replaced_object_id", replaced)] }
  cascadeIfGranted sys granted replaced.text "authority corrected"
  return outcome

/-! ## Observations -/

/-- Every dependency names a live object, and an aligning one a live decision. -/
def requireDependencies (dependencies : List RedactedDependency) (env : Envelope) :
    Except KernelError Unit :=
  found (dependencies.all fun dependency =>
    if dependency.kind.text = alignmentDependencyKind then
      isLiveDecisionObject dependency.objectId.text env
    else isLiveObject dependency.objectId.text env)

/-- `slice::write::insert_observation`: the rows of an observation. -/
def insertObservationRows (spec : RedactedObservation) : M Unit := do
  let seq ← commitSeq
  query (requireParents spec.domainId.text (spec.propositionId.map RedactedField.text)
    (spec.scopeId.map RedactedField.text) (spec.anchorId.map RedactedField.text)
    (spec.evidenceId.map RedactedField.text))
  query (requireDependencies spec.dependencies)
  let _ ← exec (.insertRegistry (spec.objectRow seq))
  recordRegistryFields spec.objectId.text spec.domainId spec.objectId spec.sourceKind spec.sourceId
  let _ ← exec (.insertObservation (spec.row seq))
  recordFields "observations" spec.observationId.text spec.textFields
  spec.dependencies.forM fun dependency => do
    let _ ← exec (.insertDependency (spec.dependencyRow dependency))

def insertObservation (spec : ObservationSpec) : M ObservationWriteOutcome := do
  let spec ← check (RedactedObservation.new sys spec)
  insertObservationRows spec
  let seq ← commitSeq
  pushChange
    { object := spec.objectRow seq, kind := "observation_insert", redactions := spec.textFields }
  return spec.outcome

def correctObservation (replacedObjectId : String) (replacement : ObservationSpec) :
    M ObservationWriteOutcome := do
  let replaced := sys.redactLossy replacedObjectId
  let old ← query (loadLiveTypedObject replaced.text "observation")
  let replacement ← check (RedactedObservation.new sys replacement)
  check (validateSuccessor old replacement.domainId.text replacement.sourceKind.text
    replacement.sourceId.text replacement.sourceRevision)
  invalidate .observations replaced.text
  insertObservationRows replacement
  setSuccessor .observations replaced.text replacement.objectId.text
  let seq ← commitSeq
  pushChange
    { object := replacement.objectRow seq
      kind := "observation_correct"
      replacedObjectId := some replaced.text
      redactions := replacement.textFields ++ [("replaced_object_id", replaced)] }
  return replacement.outcome

/-! ## Retirement -/

/-- Ends a decision or an observation. -/
def retireSliceObject (objectId objectKind : String) (table : TypedTable) (kind : String) :
    M RetirementOutcome := do
  let objectId := sys.redactLossy objectId
  let object ← query (loadLiveTypedObject objectId.text objectKind)
  -- Sampled before the invalidation, which is what removes the authority.
  let granted ← query (subjectGrantsAuthority sys (some objectId.text))
  invalidate table objectId.text
  let seq ← commitSeq
  pushChange
    { object := { object with invalidatedCommitSeq := some seq }
      kind := kind
      redactions := [("object_id", objectId)] }
  cascadeIfGranted sys granted objectId.text "authority retired"
  return ⟨objectId.text, objectKind⟩

def retireDecision (objectId : String) : M RetirementOutcome :=
  retireSliceObject sys objectId "decision" .decisions "decision_retire"

def retireObservation (objectId : String) : M RetirementOutcome :=
  retireSliceObject sys objectId "observation" .observations "observation_retire"

/-! ## Scopes -/

structure ScopeSpec where
  scopeId : String
  objectId : String
  domainId : String
  sourceKind : String
  sourceId : String
  sourceRevision : Int
  sensitivity : Sensitivity
  terms : List ScopeTermSpec

/-- A scope term whose texts are redacted. -/
structure RedactedTerm where
  dimension : RedactedField
  operator : RedactedField
  exactValue : Option RedactedField
  setValues : Option (List RedactedField)
  rangeStart : Option RedactedField
  rangeEnd : Option RedactedField
  versionRange : Option RedactedField
  gitOid : Option RedactedField
  gitStartOid : Option RedactedField
  gitEndOid : Option RedactedField
  payload : Option RedactedField

structure RedactedScope where
  scopeId : RedactedField
  objectId : RedactedField
  domainId : RedactedField
  sourceKind : RedactedField
  sourceId : RedactedField
  sourceRevision : Int
  sensitivity : Sensitivity
  terms : List RedactedTerm

structure ScopeWriteOutcome where
  scopeId : String
  objectId : String

namespace RedactedTerm

def new (sys : Platform) (spec : ScopeTermSpec) : Except KernelError RedactedTerm := do
  if Text.isBlank spec.dimension ∨ Text.isBlank spec.operator then .error .invalidInput
  else return {
    dimension := ← sys.redact spec.dimension
    operator := ← sys.redact spec.operator
    exactValue := ← sys.redactOptional spec.exactValue
    setValues := ← spec.setValues.mapM fun values => values.mapM sys.redact
    rangeStart := ← sys.redactOptional spec.rangeStart
    rangeEnd := ← sys.redactOptional spec.rangeEnd
    versionRange := ← sys.redactOptional spec.versionRange
    gitOid := ← sys.redactOptional spec.gitOid
    gitStartOid := ← sys.redactOptional spec.gitStartOid
    gitEndOid := ← sys.redactOptional spec.gitEndOid
    payload := ← sys.redactOptional spec.payload }

variable (term : RedactedTerm)

/-- The columns as they are stored. -/
def stored : ScopeTermSpec where
  dimension := term.dimension.text
  operator := term.operator.text
  exactValue := term.exactValue.map RedactedField.text
  setValues := term.setValues.map fun values => values.map RedactedField.text
  rangeStart := term.rangeStart.map RedactedField.text
  rangeEnd := term.rangeEnd.map RedactedField.text
  versionRange := term.versionRange.map RedactedField.text
  gitOid := term.gitOid.map RedactedField.text
  gitStartOid := term.gitStartOid.map RedactedField.text
  gitEndOid := term.gitEndOid.map RedactedField.text
  payload := term.payload.map RedactedField.text

def textFields (ordinal : Nat) : List (String × RedactedField) :=
  [(s!"terms.{ordinal}.dimension", term.dimension),
    (s!"terms.{ordinal}.operator", term.operator)] ++
    optionalField s!"terms.{ordinal}.exact_value" term.exactValue ++
    optionalField s!"terms.{ordinal}.range_start" term.rangeStart ++
    optionalField s!"terms.{ordinal}.range_end" term.rangeEnd ++
    optionalField s!"terms.{ordinal}.version_range" term.versionRange ++
    optionalField s!"terms.{ordinal}.git_oid" term.gitOid ++
    optionalField s!"terms.{ordinal}.git_start_oid" term.gitStartOid ++
    optionalField s!"terms.{ordinal}.git_end_oid" term.gitEndOid ++
    optionalField s!"terms.{ordinal}.payload" term.payload ++
    (term.setValues.getD []).zipIdx.map fun (value, index) =>
      (s!"terms.{ordinal}.set_values.{index}", value)

end RedactedTerm

namespace RedactedScope

def new (sys : Platform) (spec : ScopeSpec) : Except KernelError RedactedScope := do
  requireSpecFields [spec.scopeId, spec.objectId, spec.domainId, spec.sourceKind, spec.sourceId]
    spec.sourceRevision
  let terms ← spec.terms.mapM (RedactedTerm.new sys)
  return {
    scopeId := ← sys.redact spec.scopeId
    objectId := ← sys.redact spec.objectId
    domainId := ← sys.redact spec.domainId
    sourceKind := ← sys.redact spec.sourceKind
    sourceId := ← sys.redact spec.sourceId
    sourceRevision := spec.sourceRevision
    sensitivity := spec.sensitivity
    terms := terms }

variable (spec : RedactedScope)

def objectRow (commitSeq : Nat) : ObjectRow where
  objectId := spec.objectId.text
  objectKind := "scope"
  domainId := spec.domainId.text
  sourceKind := spec.sourceKind.text
  sourceId := spec.sourceId.text
  sourceRevision := spec.sourceRevision
  createdCommitSeq := commitSeq
  sensitivity := spec.sensitivity

def row (commitSeq : Nat) : ScopeRow where
  scopeId := spec.scopeId.text
  objectId := spec.objectId.text
  domainId := spec.domainId.text
  createdCommitSeq := commitSeq
  sensitivity := spec.sensitivity

def textFields : List (String × RedactedField) :=
  [("scope_id", spec.scopeId), ("object_id", spec.objectId), ("domain_id", spec.domainId),
    ("source_kind", spec.sourceKind), ("source_id", spec.sourceId)] ++
    spec.terms.zipIdx.flatMap fun (term, ordinal) => term.textFields ordinal

end RedactedScope

def insertScope (spec : ScopeSpec) : M ScopeWriteOutcome := do
  let spec ← check (RedactedScope.new sys spec)
  query fun env => found (isLive DomainRow.toLifetime (env.tx.domains.get spec.domainId.text))
  let seq ← commitSeq
  let _ ← exec (.insertRegistry (spec.objectRow seq))
  recordRegistryFields spec.objectId.text spec.domainId spec.objectId spec.sourceKind spec.sourceId
  let _ ← exec (.insertScope (spec.row seq))
  spec.terms.zipIdx.forM fun (term, ordinal) => do
    let _ ← exec (.insertScopeTerm
      { scopeId := spec.scopeId.text, ordinal := ordinal, term := term.stored })
  recordFields "scopes" spec.scopeId.text spec.textFields
  pushChange
    { object := spec.objectRow seq, kind := "scope_insert", redactions := spec.textFields }
  return ⟨spec.scopeId.text, spec.objectId.text⟩

/-! ## What the methods write -/

/-- The statements of the slice writer and the scope writer. -/
inductive SliceWrites (seq : Nat) : Write → Prop where
  | registry (row : ObjectRow) (hcreated : row.createdCommitSeq = seq) (hlive : row.live)
      (hkind : row.objectKind ≠ domainObjectKind) : SliceWrites seq (.insertRegistry row)
  | decision (row : DecisionRow) (hcreated : row.createdCommitSeq = seq) (hlive : row.live) :
      SliceWrites seq (.insertDecision row)
  | event (row : DecisionEventRow) : SliceWrites seq (.insertDecisionEvent row)
  | observation (row : ObservationRow) (hcreated : row.createdCommitSeq = seq) (hlive : row.live) :
      SliceWrites seq (.insertObservation row)
  | dependency (row : DependencyRow) : SliceWrites seq (.insertDependency row)
  | scope (row : ScopeRow) : SliceWrites seq (.insertScope row)
  | scopeTerm (row : ScopeTermRow) : SliceWrites seq (.insertScopeTerm row)
  | invalidateRegistry (objectId : String) : SliceWrites seq (.invalidateRegistry objectId none seq)
  | invalidateTyped (table : TypedTable) (objectId : String) :
      SliceWrites seq (.invalidateTyped table objectId seq)
  | succeedRegistry (objectId successor : String) :
      SliceWrites seq (.succeedRegistry objectId none successor)
  | succeedTyped (table : TypedTable) (objectId successor : String) :
      SliceWrites seq (.succeedTyped table objectId successor)
  | redaction (row : RedactionRow) : SliceWrites seq (.insertRedaction row)
  | admission (w : Write) (hw : AdmissionWrites seq w) : SliceWrites seq w

/-- The statement names the successor of a decision. -/
def Write.links : Write → Bool
  | .insertDecision row => row.supersededBy.isSome
  | .succeedTyped .decisions _ _ => true
  | _ => false

/-- Those that name no successor of a decision. -/
structure RowWrites (seq : Nat) (w : Write) : Prop where
  slice : SliceWrites seq w
  unlinking : w.links = false

theorem AdmissionWrites.row {seq : Nat} {w : Write} (h : AdmissionWrites seq w) : RowWrites seq w :=
  ⟨.admission _ h, by cases h <;> rfl⟩

section Evolves
variable {sys}

theorem evolves_slice {α : Type} {m : M α} (h : Keeps (Evolves RowWrites) m) :
    Keeps (Evolves SliceWrites) m :=
  h.mono fun _ _ h => h.mono fun _ _ hw => hw.slice

theorem evolves_invalidate (table : TypedTable) (objectId : String) :
    Keeps (Evolves RowWrites) (invalidate table objectId) := by
  refine evolves_commitSeq_bind fun seq => ?_
  refine evolves_exec_bind ?_ fun _ => evolves_require_bind fun _ =>
    evolves_exec_bind ?_ fun _ => evolves_require _ _
  · rintro seq' rfl
    exact ⟨.invalidateRegistry _, rfl⟩
  · rintro seq' rfl
    exact ⟨.invalidateTyped _ _, rfl⟩

theorem evolves_setSuccessor {P : Nat → Write → Prop} {table : TypedTable} {old new : String}
    (hregistry : ∀ seq, P seq (.succeedRegistry old none new))
    (htyped : ∀ seq, P seq (.succeedTyped table old new)) :
    Keeps (Evolves P) (setSuccessor table old new) :=
  evolves_exec_bind hregistry fun _ => evolves_exec_bind htyped fun _ =>
    evolves_pure _

theorem evolves_insertDecisionRows (spec : RedactedDecision) :
    Keeps (Evolves RowWrites) (insertDecisionRows spec) := by
  refine evolves_commitSeq_bind fun seq => evolves_query_bind fun _ => ?_
  refine evolves_exec_bind ?_ fun _ =>
    evolves_bind (evolves_recordFields (fun _ _ _ => ⟨.redaction _, rfl⟩) _ _ _) fun _ =>
    evolves_exec_bind ?_ fun _ => evolves_recordFields (fun _ _ _ => ⟨.redaction _, rfl⟩) _ _ _
  · rintro seq' rfl
    exact ⟨.registry _ rfl rfl (show "decision" ≠ "domain" by decide), rfl⟩
  · rintro seq' rfl
    exact ⟨.decision _ rfl rfl, rfl⟩

theorem evolves_insertDecision (spec : DecisionSpec) :
    Keeps (Evolves RowWrites) (insertDecision sys spec) :=
  evolves_check_bind fun _ => evolves_bind (evolves_insertDecisionRows _) fun _ =>
    evolves_commitSeq_bind fun _ => evolves_bind (evolves_pushChange _) fun _ => evolves_pure _

theorem evolves_appendDecisionEvent (decisionId : String) (spec : EventSpec) :
    Keeps (Evolves RowWrites) (appendDecisionEvent sys decisionId spec) :=
  evolves_check_bind fun _ => evolves_query_bind fun _ =>
    evolves_query_bind fun _ => evolves_query_bind fun _ =>
    evolves_commitSeq_bind fun _ => evolves_exec_bind (fun _ _ => ⟨.event _, rfl⟩) fun _ =>
    evolves_bind (evolves_recordFields (fun _ _ _ => ⟨.redaction _, rfl⟩) _ _ _) fun _ =>
    evolves_bind (evolves_pushChange _) fun _ => evolves_pure _

theorem evolves_cascadeIfGranted (granted : Bool) (objectId reason : String) :
    Keeps (Evolves RowWrites) (cascadeIfGranted sys granted objectId reason) := by
  cases granted with
  | true => exact (evolves_demoteDependentsIfAuthorityLost _ _).mono fun _ _ h =>
      h.mono fun _ _ => AdmissionWrites.row
  | false => exact evolves_pure _

theorem evolves_replaceDecision (replacement : RedactedDecision)
    (survivor : Option (ObjectRow × String)) :
    Keeps (Evolves RowWrites) (replaceDecision replacement survivor) := by
  cases survivor with
  | some survivor => exact evolves_pure _
  | none => exact evolves_bind (evolves_insertDecisionRows _) fun _ =>
      evolves_commitSeq_bind fun _ => evolves_pure _

theorem evolves_correctDecision (replaced : String) (replacement : DecisionSpec) :
    Keeps (Evolves SliceWrites) (correctDecision sys replaced replacement) :=
  evolves_query_bind fun _ => evolves_query_bind fun _ =>
    evolves_check_bind fun _ => evolves_check_bind fun _ =>
    evolves_query_bind fun _ => evolves_check_bind fun _ =>
    evolves_bind (evolves_slice (evolves_invalidate _ _)) fun _ =>
    evolves_bind (evolves_slice (evolves_replaceDecision _ _)) fun _ =>
    evolves_bind (evolves_setSuccessor (fun _ => .succeedRegistry _ _)
      fun _ => .succeedTyped _ _ _) fun _ => evolves_bind (evolves_pushChange _) fun _ =>
    evolves_bind (evolves_slice (evolves_cascadeIfGranted _ _ _)) fun _ => evolves_pure _

theorem evolves_insertObservationRows (spec : RedactedObservation) :
    Keeps (Evolves RowWrites) (insertObservationRows spec) := by
  refine evolves_commitSeq_bind fun seq => evolves_query_bind fun _ =>
    evolves_query_bind fun _ => ?_
  refine evolves_exec_bind ?_ fun _ =>
    evolves_bind (evolves_recordFields (fun _ _ _ => ⟨.redaction _, rfl⟩) _ _ _) fun _ =>
    evolves_exec_bind ?_ fun _ =>
    evolves_bind (evolves_recordFields (fun _ _ _ => ⟨.redaction _, rfl⟩) _ _ _) fun _ =>
    evolves_forM (fun _ => evolves_exec_bind (fun _ _ => ⟨.dependency _, rfl⟩) fun _ =>
      evolves_pure _) _
  · rintro seq' rfl
    exact ⟨.registry _ rfl rfl (show "observation" ≠ "domain" by decide), rfl⟩
  · rintro seq' rfl
    exact ⟨.observation _ rfl rfl, rfl⟩

theorem evolves_insertObservation (spec : ObservationSpec) :
    Keeps (Evolves RowWrites) (insertObservation sys spec) :=
  evolves_check_bind fun _ => evolves_bind (evolves_insertObservationRows _) fun _ =>
    evolves_commitSeq_bind fun _ => evolves_bind (evolves_pushChange _) fun _ => evolves_pure _

theorem evolves_correctObservation (replaced : String) (replacement : ObservationSpec) :
    Keeps (Evolves RowWrites) (correctObservation sys replaced replacement) :=
  evolves_query_bind fun _ => evolves_check_bind fun _ =>
    evolves_check_bind fun _ => evolves_bind (evolves_invalidate _ _) fun _ =>
    evolves_bind (evolves_insertObservationRows _) fun _ =>
    evolves_bind (evolves_setSuccessor (fun _ => ⟨.succeedRegistry _ _, rfl⟩)
      fun _ => ⟨.succeedTyped _ _ _, rfl⟩) fun _ =>
    evolves_commitSeq_bind fun _ => evolves_bind (evolves_pushChange _) fun _ => evolves_pure _

theorem evolves_retireSliceObject (objectId objectKind : String) (table : TypedTable)
    (kind : String) :
    Keeps (Evolves RowWrites) (retireSliceObject sys objectId objectKind table kind) :=
  evolves_query_bind fun _ => evolves_query_bind fun _ =>
    evolves_bind (evolves_invalidate _ _) fun _ => evolves_bind (fun s => Evolves.refl _ s) fun _ =>
    evolves_bind (evolves_pushChange _) fun _ =>
    evolves_bind (evolves_cascadeIfGranted _ _ _) fun _ => evolves_pure _

theorem evolves_insertScope (spec : ScopeSpec) :
    Keeps (Evolves RowWrites) (insertScope sys spec) := by
  refine evolves_check_bind fun spec => evolves_query_bind fun _ =>
    evolves_commitSeq_bind fun seq => ?_
  refine evolves_exec_bind ?_ fun _ =>
    evolves_bind (evolves_recordFields (fun _ _ _ => ⟨.redaction _, rfl⟩) _ _ _) fun _ =>
    evolves_exec_bind (fun _ _ => ⟨.scope _, rfl⟩) fun _ =>
    evolves_bind (evolves_forM (fun _ => evolves_exec_bind (fun _ _ => ⟨.scopeTerm _, rfl⟩)
      fun _ => evolves_pure _) _) fun _ =>
    evolves_bind (evolves_recordFields (fun _ _ _ => ⟨.redaction _, rfl⟩) _ _ _) fun _ =>
    evolves_bind (evolves_pushChange _) fun _ => evolves_pure _
  rintro seq' rfl
  exact ⟨.registry _ rfl rfl (show "scope" ≠ "domain" by decide), rfl⟩

end Evolves

end MagicContext.Kernel
