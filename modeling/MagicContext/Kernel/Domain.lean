import MagicContext.Kernel.Envelope

/-!
# Domains

The envelope's methods on domains: insertion, correction, retirement and the remediation of a
stored name.  All of them poison the envelope when they fail.

## What is here

* `loadObject` and `loadObjectAnyGeneration` — the registry row of an object.
* `insertDomain`, `correctDomain`, `retireDomain`, `remediateText`.
* `DomainWrites` — the statements these methods execute.
-/

namespace MagicContext.Kernel

open Transaction

/-! ## Reading the registry -/

/-- The live registry row of an object, without its lifetime's end. -/
def loadObject (objectId : String) (env : Envelope) : Except KernelError (Option ObjectRow) :=
  .ok (((env.tx.registry.get objectId).filter fun r => r.live).map fun r =>
    { r with invalidatedCommitSeq := none, supersededBy := none })

def loadObjectAnyGeneration (objectId : String) (env : Envelope) :
    Except KernelError (Option ObjectRow) :=
  .ok (env.tx.registry.get objectId)

/-- `Option::ok_or(KernelError::NotFound)`. -/
def orNotFound {α : Type} (r : Except KernelError (Option α)) : Except KernelError α :=
  match r with
  | .ok (some a) => .ok a
  | .ok none => .error .notFound
  | .error e => .error e

/-! ## Specifications -/

structure DomainSpec where
  domainId : String
  objectId : String
  name : String
  sourceKind : String
  sourceId : String
  sourceRevision : Int
  sensitivity : Sensitivity

def domainObjectKind : String := "domain"

/-- A domain whose texts are all accepted identities. -/
structure RedactedDomain where
  domainId : String
  objectId : String
  name : String
  sourceKind : String
  sourceId : String
  sourceRevision : Int
  sensitivity : Sensitivity

namespace RedactedDomain

def new (sys : Platform) (spec : DomainSpec) : Except KernelError RedactedDomain := do
  if spec.sourceRevision < 0 ∨ Text.isBlank spec.domainId ∨ Text.isBlank spec.objectId ∨
      Text.isBlank spec.name ∨ Text.isBlank spec.sourceKind ∨ Text.isBlank spec.sourceId then
    .error .invalidInput
  else
    let name ← sys.identity spec.name
    -- The uniqueness index exempts the placeholder, so it is not accepted as a name.
    if name = Scope.operatorRedactionPlaceholder then .error .invalidInput
    else return {
      domainId := ← sys.identity spec.domainId
      objectId := ← sys.identity spec.objectId
      name := name
      sourceKind := ← sys.identity spec.sourceKind
      sourceId := ← sys.identity spec.sourceId
      sourceRevision := spec.sourceRevision
      sensitivity := spec.sensitivity }

def objectRow (spec : RedactedDomain) (commitSeq : Nat) : ObjectRow where
  objectId := spec.objectId
  objectKind := domainObjectKind
  domainId := spec.domainId
  sourceKind := spec.sourceKind
  sourceId := spec.sourceId
  sourceRevision := spec.sourceRevision
  createdCommitSeq := commitSeq
  sensitivity := spec.sensitivity

def domainRow (spec : RedactedDomain) (commitSeq : Nat) : DomainRow where
  domainId := spec.domainId
  objectId := spec.objectId
  name := spec.name
  createdCommitSeq := commitSeq
  sensitivity := spec.sensitivity

end RedactedDomain

/-! ## Methods -/

variable (sys : Platform)

/-- The two rows of a domain. -/
def insertDomainRows (spec : RedactedDomain) : M Unit := do
  let seq ← commitSeq
  let _ ← exec (.insertDomain (spec.domainRow seq))
  let _ ← exec (.insertRegistry (spec.objectRow seq))

def insertDomainInner (spec : DomainSpec) : M Unit := do
  let spec ← check (RedactedDomain.new sys spec)
  insertDomainRows spec
  let seq ← commitSeq
  pushChange { object := spec.objectRow seq, kind := "insert" }

def insertDomain (spec : DomainSpec) : M Unit := guarded (insertDomainInner sys spec)

def invalidateDomain (objectId : String) : M ObjectRow := do
  let seq ← commitSeq
  let object ← query fun env => orNotFound (loadObject objectId env)
  require (object.objectKind == domainObjectKind) .invalidInput
  let registry ← exec (.invalidateRegistry objectId (some domainObjectKind) seq)
  let domains ← exec (.invalidateTyped .domains objectId seq)
  require (registry == 1 && domains == 1) .notFound
  return object

def setDomainSuccessor (replacedObjectId successorObjectId : String) : M Unit := do
  let registry ← exec (.succeedRegistry replacedObjectId (some domainObjectKind) successorObjectId)
  let domains ← exec (.succeedTyped .domains replacedObjectId successorObjectId)
  require (registry == 1 && domains == 1) .notFound

def correctDomainInner (replacedObjectId : String) (replacement : DomainSpec) : M Unit := do
  let replaced ← check (sys.identity replacedObjectId)
  let replacement ← check (RedactedDomain.new sys replacement)
  let _ ← invalidateDomain replaced
  insertDomainRows replacement
  setDomainSuccessor replaced replacement.objectId
  let seq ← commitSeq
  pushChange
    { object := replacement.objectRow seq, kind := "correct", replacedObjectId := some replaced }

def correctDomain (replacedObjectId : String) (replacement : DomainSpec) : M Unit :=
  guarded (correctDomainInner sys replacedObjectId replacement)

def retireDomainInner (objectId : String) : M Unit := do
  let objectId ← check (sys.identity objectId)
  let object ← invalidateDomain objectId
  let seq ← commitSeq
  pushChange { object := { object with invalidatedCommitSeq := some seq }, kind := "retire" }

def retireDomain (objectId : String) : M Unit := guarded (retireDomainInner sys objectId)

/-- `domain_name_is_redacted`. -/
def domainNameIsRedacted (objectId : String) (env : Envelope) : Bool :=
  env.tx.domains.any fun r =>
    r.objectId == objectId && r.name == Scope.operatorRedactionPlaceholder

/-- The name is the placeholder now, or was before the statement. -/
def nameIsRedacted (objectId : String) (rewritten : Nat) : M Bool :=
  if rewritten = 0 then query fun env => .ok (domainNameIsRedacted objectId env) else pure true

def remediateTextInner (objectId operatorId : String) (remediatedAt : Int) : M Unit := do
  require (!Text.isBlank operatorId && decide (0 ≤ remediatedAt)) .invalidInput
  let operatorId ← check (sys.redact operatorId)
  let objectId ← check (sys.identity objectId)
  -- A retired or corrected domain keeps its name, so invalidated rows are reached too.
  let object ← query fun env => orNotFound (loadObjectAnyGeneration objectId env)
  require (object.objectKind == domainObjectKind) .invalidInput
  let rewritten ← exec (.redactDomainName objectId Scope.operatorRedactionPlaceholder)
  let found ← nameIsRedacted objectId rewritten
  require found .notFound
  pushChange
    { object := object
      kind := "operator_remediation"
      redactions := [("operator_id", operatorId)]
      audit := some
        [("target", .text "canonical_domain_name"), ("target_object_id", .text objectId),
          ("operator_id", .text operatorId.text), ("remediated_at", .number remediatedAt),
          ("replacement", .text Scope.operatorRedactionPlaceholder)] }

/-- `remediate_text` for its only target, the name of a domain. -/
def remediateText (objectId operatorId : String) (remediatedAt : Int) : M Unit :=
  guarded (remediateTextInner sys objectId operatorId remediatedAt)

/-! ## What the methods write -/

/-- The statements of the methods on domains. -/
inductive DomainWrites (seq : Nat) : Write → Prop where
  | registry (row : ObjectRow) (hcreated : row.createdCommitSeq = seq) (hlive : row.live)
      (hkind : row.objectKind = domainObjectKind) : DomainWrites seq (.insertRegistry row)
  | domain (row : DomainRow) (hcreated : row.createdCommitSeq = seq) (hlive : row.live) :
      DomainWrites seq (.insertDomain row)
  | invalidateRegistry (objectId : String) :
      DomainWrites seq (.invalidateRegistry objectId (some domainObjectKind) seq)
  | invalidateDomain (objectId : String) : DomainWrites seq (.invalidateTyped .domains objectId seq)
  | succeedRegistry (objectId successor : String) :
      DomainWrites seq (.succeedRegistry objectId (some domainObjectKind) successor)
  | succeedDomain (objectId successor : String) :
      DomainWrites seq (.succeedTyped .domains objectId successor)
  | redact (objectId placeholder : String) :
      DomainWrites seq (.redactDomainName objectId placeholder)

variable {sys}

theorem evolves_insertDomainRows (spec : RedactedDomain) :
    Keeps (Evolves DomainWrites) (insertDomainRows spec) := by
  refine evolves_commitSeq_bind fun seq => ?_
  refine evolves_exec_bind ?_ fun _ => evolves_exec_bind ?_ fun _ =>
    evolves_pure _
  · rintro seq' rfl
    exact .domain _ rfl rfl
  · rintro seq' rfl
    exact .registry _ rfl rfl rfl

theorem evolves_insertDomainInner (spec : DomainSpec) :
    Keeps (Evolves DomainWrites) (insertDomainInner sys spec) :=
  evolves_check_bind fun _ => evolves_bind (evolves_insertDomainRows _) fun _ =>
    evolves_commitSeq_bind fun _ => evolves_pushChange _

theorem evolves_invalidateDomain (objectId : String) :
    Keeps (Evolves DomainWrites) (invalidateDomain objectId) := by
  refine evolves_commitSeq_bind fun seq => ?_
  refine evolves_query_bind fun _ => evolves_require_bind fun _ =>
    evolves_exec_bind ?_ fun _ => evolves_exec_bind ?_ fun _ =>
    evolves_require_bind fun _ => evolves_pure _
  · rintro seq' rfl
    exact .invalidateRegistry _
  · rintro seq' rfl
    exact .invalidateDomain _

theorem evolves_setDomainSuccessor (replaced successor : String) :
    Keeps (Evolves DomainWrites) (setDomainSuccessor replaced successor) :=
  evolves_exec_bind (fun _ => .succeedRegistry _ _) fun _ =>
    evolves_exec_bind (fun _ => .succeedDomain _ _) fun _ => evolves_require _ _

theorem evolves_correctDomainInner (replaced : String) (replacement : DomainSpec) :
    Keeps (Evolves DomainWrites) (correctDomainInner sys replaced replacement) :=
  evolves_check_bind fun _ => evolves_check_bind fun _ =>
    evolves_bind (evolves_invalidateDomain _) fun _ =>
    evolves_bind (evolves_insertDomainRows _) fun _ =>
    evolves_bind (evolves_setDomainSuccessor _ _) fun _ =>
    evolves_commitSeq_bind fun _ => evolves_pushChange _

theorem evolves_retireDomainInner (objectId : String) :
    Keeps (Evolves DomainWrites) (retireDomainInner sys objectId) :=
  evolves_check_bind fun _ => evolves_bind (evolves_invalidateDomain _) fun _ =>
    evolves_commitSeq_bind fun _ => evolves_pushChange _

theorem evolves_remediateTextInner (objectId operatorId : String) (remediatedAt : Int) :
    Keeps (Evolves DomainWrites) (remediateTextInner sys objectId operatorId remediatedAt) :=
  evolves_require_bind fun _ => evolves_check_bind fun _ =>
    evolves_check_bind fun _ => evolves_query_bind fun _ =>
    evolves_require_bind fun _ =>
    evolves_exec_bind (fun _ => .redact _ _) fun _ =>
    evolves_bind (evolves_ite (evolves_query _) (evolves_pure _)) fun _ =>
    evolves_require_bind fun _ => evolves_pushChange _

end MagicContext.Kernel
