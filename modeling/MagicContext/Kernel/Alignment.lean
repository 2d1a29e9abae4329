import MagicContext.Kernel.Control

/-!
# Alignment

Which live observations implement which decisions.  The rows are derived from the decisions, the
observations, their dependencies and the evidence at a snapshot; a decision that was superseded
passes its observations on to its successor.  The derived rows are persisted, as a projection that
a commit rebuilds when it may have changed them.

## What is here

* `resolveDecision` — the live decision a dependency stands for at a snapshot.
* `deriveAlignment` — the rows at a snapshot.
* `rebuildAlignment` — replacing the projection by the rows at the tip.
-/

namespace MagicContext.Kernel

open Transaction

/-! ## The rows at a snapshot -/

/-- A decision as it stood at a snapshot. -/
structure DecisionHistory where
  decisionId : String
  invalidatedCommitSeq : Option Nat
  supersededBy : Option String
  evidenceEligible : Bool

structure DerivedAlignment where
  decisionId : String
  observationId : String
  alignmentKind : String

section Snapshot
variable (db : Db) (requested : Nat)

/-- The row was there at the snapshot. -/
def Lifetime.knownAt (l : Lifetime) (requested : Nat) : Bool :=
  decide (l.createdCommitSeq ≤ requested) &&
    l.invalidatedCommitSeq.all fun seq => decide (requested < seq)

/-- No evidence is cited, or what is cited was there at the snapshot. -/
def evidenceEligible (evidenceId : Option String) : Bool :=
  evidenceId.all fun id => (db.evidence.get id).any fun e => e.knownAt requested

/-- `CASE WHEN invalidated_commit_seq<=?1 THEN … END`. -/
def Lifetime.endedBy (l : Lifetime) (requested : Nat) : Bool :=
  l.invalidatedCommitSeq.any fun seq => decide (seq ≤ requested)

def DecisionRow.history (d : DecisionRow) : DecisionHistory where
  decisionId := d.decisionId
  invalidatedCommitSeq := if d.endedBy requested then d.invalidatedCommitSeq else none
  supersededBy := if d.endedBy requested then d.supersededBy else none
  evidenceEligible := Kernel.evidenceEligible db requested d.evidenceId

/-- The decision of an object at the snapshot.  The source loads beforehand the decisions that
supersession reaches from a dependency; they are looked up here when they are reached. -/
def decisionAt (objectId : String) : Option DecisionHistory :=
  (db.decisions.rows.find? fun d =>
    d.objectId == objectId && decide (d.createdCommitSeq ≤ requested)).map
    (DecisionRow.history db requested)

/-- Follows supersession to a decision that was live and whose evidence was eligible.  Each step
visits another decision, so `steps` bounds the walk and only a cycle can use them up. -/
def resolveDecision (steps : Nat) (visited : List String) (objectId : String) :
    Except KernelError (Option DecisionHistory) :=
  if objectId ∈ visited then .error .conflict
  else match decisionAt db requested objectId with
    | none => .ok none
    | some decision =>
      if decision.invalidatedCommitSeq.isNone then
        .ok (if decision.evidenceEligible then some decision else none)
      else match decision.supersededBy, steps with
        | none, _ => .ok none
        | some _, 0 => .error .conflict
        | some successor, steps + 1 => resolveDecision steps (objectId :: visited) successor

/-- The classification of an observation that was live with eligible evidence. -/
def observationAt (observationId : String) : Option String :=
  ((db.observations.get observationId).filter fun o =>
    o.knownAt requested && evidenceEligible db requested o.evidenceId).map
    fun o => o.payload.classification

/-- The row a dependency gives, if any. -/
def alignedRow (dependency : DependencyRow) : Except KernelError (Option DerivedAlignment) :=
  match observationAt db requested dependency.observationId with
  | none => .ok none
  | some kind => do
    let decision ← resolveDecision db requested db.decisions.rows.length []
      dependency.dependencyObjectId
    return decision.map fun decision =>
      { decisionId := decision.decisionId, observationId := dependency.observationId
        alignmentKind := kind }

/-- `BTreeMap::insert`, by the two ids. -/
def insertAligned (row : DerivedAlignment) : List DerivedAlignment → List DerivedAlignment
  | [] => [row]
  | r :: rs =>
    if row.decisionId = r.decisionId ∧ row.observationId = r.observationId then row :: rs
    else if row.decisionId < r.decisionId ∨
        row.decisionId = r.decisionId ∧ row.observationId < r.observationId then row :: r :: rs
    else r :: insertAligned row rs

/-- The rows that a list of dependencies adds. -/
def alignFrom : List DerivedAlignment → List DependencyRow →
    Except KernelError (List DerivedAlignment)
  | rows, [] => .ok rows
  | rows, dependency :: rest => do
    match ← alignedRow db requested dependency with
    | none => alignFrom rows rest
    | some row => alignFrom (insertAligned row rows) rest

def isAlignmentDependency (d : DependencyRow) : Bool := d.dependencyKind == alignmentDependencyKind

/-- `derive_alignment` on what `load_alignment_input` loads. -/
def deriveAlignment : Except KernelError (List DerivedAlignment) :=
  alignFrom db requested [] (db.dependencies.select isAlignmentDependency)

end Snapshot

/-! ## The projection -/

variable (sys : Platform)

/-- How `serde_json` writes a character of a string. -/
def jsonChar (c : Char) : String :=
  if c = '"' then "\\\""
  else if c = '\\' then "\\\\"
  else if c.toNat = 8 then "\\b"
  else if c.toNat = 9 then "\\t"
  else if c.toNat = 10 then "\\n"
  else if c.toNat = 12 then "\\f"
  else if c.toNat = 13 then "\\r"
  else if c.toNat < 32 then
    "\\u00" ++ (if c.toNat < 16 then "0" else "1") ++
      String.singleton (Nat.digitChar (c.toNat % 16))
  else String.singleton c

def jsonString (value : String) : String := "\"" ++ String.join (value.toList.map jsonChar) ++ "\""

/-- `serde_json::to_string(&AlignmentPayload)`. -/
def alignmentPayload (row : DerivedAlignment) : String :=
  "\x7b\"decision_id\":" ++ jsonString row.decisionId ++ ",\"observation_id\":" ++
    jsonString row.observationId ++ ",\"alignment_kind\":" ++ jsonString row.alignmentKind ++ "\x7d"

structure RedactedProjection where
  decisionId : String
  observationId : String
  alignmentKind : RedactedField
  alignmentPayload : RedactedField

namespace RedactedProjection

def new (row : DerivedAlignment) : Except KernelError RedactedProjection := do
  if Text.isBlank row.alignmentKind ∨ Text.isBlank row.decisionId ∨
      Text.isBlank row.observationId then .error .invalidInput
  else return {
    decisionId := ← sys.identity row.decisionId
    observationId := ← sys.identity row.observationId
    alignmentKind := ← sys.redact row.alignmentKind
    alignmentPayload := ← sys.redact (Kernel.alignmentPayload row) }

def row (generation : Nat) (r : RedactedProjection) : AlignmentRow where
  decisionId := r.decisionId
  observationId := r.observationId
  alignmentKind := r.alignmentKind.text
  alignmentPayload := some r.alignmentPayload.text
  builtThroughCommitSeq := generation

/-- The length keeps pairs whose ids contain the separator apart. -/
def ownerId (r : RedactedProjection) : String :=
  s!"{r.decisionId.utf8ByteSize}:{r.decisionId}:{r.observationId}"

def record (r : RedactedProjection) : M Unit := do
  recordAt none "alignment_projection" r.ownerId "alignment_kind" r.alignmentKind
  recordAt none "alignment_projection" r.ownerId "alignment_payload" r.alignmentPayload

end RedactedProjection

/-- A projection is not replaced by an older one. -/
def guardProjectionGeneration (generation : Nat) (env : Envelope) : Except KernelError Unit :=
  if env.tx.alignmentProjectionState.any fun stored => decide (generation < stored) then
    .error .conflict
  else .ok ()

/-- `replace_alignment_projection_tx`. -/
def replaceAlignmentProjection (generation : Nat) (rows : List DerivedAlignment) : M Unit := do
  let rows ← check (rows.mapM (RedactedProjection.new sys))
  query (guardProjectionGeneration generation)
  let _ ← exec .clearProjection
  let _ ← exec (.clearRedactions "alignment_projection")
  rows.forM fun row => do
    let _ ← exec (.insertProjection (row.row generation))
  rows.forM RedactedProjection.record
  let _ ← exec (.recordProjectionGeneration generation)

/-- Replaces the projection by what is derived at a tip.  Before the first commit there is nothing
to publish. -/
def rebuildAt (tip : Nat) : M Unit :=
  if tip = 0 then pure ()
  else do
    let rows ← query fun env => deriveAlignment env.tx tip
    replaceAlignmentProjection sys tip rows

/-- `rebuild_alignment_tx`. -/
def rebuildAlignment : M Unit := do
  let tip ← query fun env => .ok env.tx.tip
  rebuildAt sys tip

/-- The statements of a rebuild. -/
inductive ProjectionWrites (seq : Nat) : Write → Prop where
  | clear : ProjectionWrites seq .clearProjection
  | insert (row : AlignmentRow) : ProjectionWrites seq (.insertProjection row)
  | generation (g : Nat) : ProjectionWrites seq (.recordProjectionGeneration g)
  | clearRedactions : ProjectionWrites seq (.clearRedactions "alignment_projection")
  | redaction (row : RedactionRow) (howner : row.ownerKind = "alignment_projection") :
      ProjectionWrites seq (.insertRedaction row)

variable {sys}

theorem evolves_replaceAlignmentProjection (generation : Nat) (rows : List DerivedAlignment) :
    Keeps (Evolves ProjectionWrites) (replaceAlignmentProjection sys generation rows) :=
  evolves_check_bind fun _ => evolves_query_bind fun _ =>
    evolves_exec_bind (fun _ => .clear) fun _ =>
    evolves_exec_bind (fun _ => .clearRedactions) fun _ =>
    evolves_bind (evolves_forM (fun _ => evolves_exec_bind (fun _ => .insert _) fun _ =>
      evolves_pure _) _) fun _ =>
    evolves_bind (evolves_forM (fun _ => evolves_bind
      (evolves_recordAt_owner (fun _ _ => .redaction _) _ _ _ _) fun _ =>
      evolves_recordAt_owner (fun _ _ => .redaction _) _ _ _ _) _) fun _ =>
    evolves_exec_bind (fun _ => .generation _) fun _ => evolves_pure _

theorem evolves_rebuildAlignment : Keeps (Evolves ProjectionWrites) (rebuildAlignment sys) :=
  evolves_query_bind fun _ => evolves_ite (evolves_pure _)
    (evolves_query_bind fun _ => evolves_replaceAlignmentProjection _ _)

end MagicContext.Kernel
