import Mathlib.Data.List.Sort
import MagicContext.Claims.Intents

/-!
# The claim mirror

The module keeps a copy of the claims the host has committed.  It is seeded by a full snapshot and
brought forward by receipts, each of which carries the effects of one change in the host's order.
A project's checkpoint is the last effect of it that was applied.

## What is here

* `ClaimMirrorSnapshot` and `ClaimMirrorReceiptGroup` — the inputs, and their checks.
* `Mirror` — what is stored.
* `replaceClaimMirrorSnapshot`, `applyClaimMirrorReceipt` and `deleteClaimMirror`.
-/

namespace MagicContext.Claims

open Text Checks

/-! ## Inputs -/

inductive ClaimMirrorLifecycle where
  | active | archived | retired
  deriving DecidableEq

def ClaimMirrorLifecycle.asStr : ClaimMirrorLifecycle → String
  | active => "active"
  | archived => "archived"
  | retired => "retired"

inductive ClaimMirrorChangeKind where
  | upsert | evidence | lifecycle | applicability | verification | derivation
  deriving DecidableEq

def ClaimMirrorChangeKind.asStr : ClaimMirrorChangeKind → String
  | upsert => "upsert"
  | evidence => "evidence"
  | lifecycle => "lifecycle"
  | applicability => "applicability"
  | verification => "verification"
  | derivation => "derivation"

structure SnapshotVector where
  vectorVersion : Nat
  databaseIncarnationId : String
  workspaceEpoch : String
  projectGenerations : SortedMap String Int
  policyGenerations : SortedMap String Int
  deriving DecidableEq

structure CommittedClaimMirrorRow where
  publicClaimId : String
  projectId : Int
  revisionLocator : String
  content : String
  contentDigest : String
  attributes : Json
  lifecycle : ClaimMirrorLifecycle
  applicability : Json
  policy : Json
  provenanceLabel : Option String
  projectGeneration : Int
  policyGeneration : Int
  deriving DecidableEq

structure ClaimMirrorSnapshot where
  mirrorVersion : Nat
  vector : SnapshotVector
  projectCheckpoints : SortedMap Int Int
  claims : List CommittedClaimMirrorRow
  deriving DecidableEq

structure ClaimMirrorEffect where
  effectId : Int
  previousProjectEffectId : Int
  effectKey : String
  projectId : Int
  generation : Int
  changeKind : ClaimMirrorChangeKind
  publicClaimId : String
  revisionLocator : String
  claim : Option CommittedClaimMirrorRow
  deriving DecidableEq

structure ClaimMirrorReceiptGroup where
  mirrorVersion : Nat
  receiptId : Int
  expectedEffectCount : Nat
  vector : SnapshotVector
  effects : List ClaimMirrorEffect
  deriving DecidableEq

inductive ClaimMirrorError where
  | store (error : StoreError)
  | invalid (reason : String)
  | redaction (secret : Bool)
  | notSeeded
  | incarnationMismatch (expected found : String)
  | generationMismatch (projectId expected found : Int)
  | checkpointMismatch (projectId expected found : Int)
  | receiptConflict (receiptId : Int)
  | resetBlocked (unresolved : Nat)
  | resetRequired
  deriving DecidableEq

/-- `From<McStoreError>`. -/
def ClaimMirrorError.ofStore : StoreError → ClaimMirrorError
  | .inputLimit => .redaction false
  | .secretDetected => .redaction true
  | error => .store error

/-- A failure of the store, as the mirror reports it. -/
def stored {α : Type} (result : Except StoreError α) : Except ClaimMirrorError α :=
  match result with
  | .ok value => .ok value
  | .error error => .error (.ofStore error)

/-- A failure of the contract makes the input invalid. -/
def canonical {α : Type} (result : Except ContractError α) : Except ClaimMirrorError α :=
  match result with
  | .ok value => .ok value
  | .error error => .error (.invalid (contractText error))

/-! ## The detector on JSON -/

mutual

/-- Some text stands in the value. -/
def carriesText : Json → Bool
  | .string text => text != ""
  | .array items => carriesTextItems items
  | .object entries => carriesTextEntries entries
  | _ => false

def carriesTextItems : List Json → Bool
  | [] => false
  | item :: items => carriesText item || carriesTextItems items

def carriesTextEntries : List (String × Json) → Bool
  | [] => false
  | (_, item) :: entries => carriesText item || carriesTextEntries entries

end

/-- The detector of secrets in JSON. -/
structure JsonDetector where
  /-- `secret_shaped_json_key`. -/
  secretShapedKey : String → Bool

mutual

/-- Some text stands under a key that names a secret. -/
def secretShaped (detector : JsonDetector) : Json → Bool
  | .array items => secretShapedItems detector items
  | .object entries => secretShapedEntries detector entries
  | _ => false

def secretShapedItems (detector : JsonDetector) : List Json → Bool
  | [] => false
  | item :: items => secretShaped detector item || secretShapedItems detector items

def secretShapedEntries (detector : JsonDetector) : List (String × Json) → Bool
  | [] => false
  | (key, item) :: entries =>
    (detector.secretShapedKey key && carriesText item) || secretShaped detector item ||
      secretShapedEntries detector entries

end

mutual

/-- The texts and the keys of a value, in order. -/
def jsonLeaves : Json → List String
  | .string text => [text]
  | .array items => jsonLeavesItems items
  | .object entries => jsonLeavesEntries entries
  | _ => []

def jsonLeavesItems : List Json → List String
  | [] => []
  | item :: items => jsonLeaves item ++ jsonLeavesItems items

def jsonLeavesEntries : List (String × Json) → List String
  | [] => []
  | (key, item) :: entries => key :: jsonLeaves item ++ jsonLeavesEntries entries

end

def validateJsonObject (value : Json) (field : String) : Except ClaimMirrorError String :=
  if !value.isObject then .error (.invalid s!"{field} must be an object")
  else canonical (canonicalJsonEncode value)

/-- What the program takes from outside, for the mirror. -/
structure MirrorPlatform extends Platform, JsonText, JsonDetector

variable (sys : MirrorPlatform)

def prepareIntegrityJson (fieldId : String) (value : Json) : Except ClaimMirrorError Unit :=
  if secretShaped sys.toJsonDetector value then .error (.redaction true)
  else do
    let text ← validateJsonObject value fieldId
    stored (ensureDurableTextBound text)
    stored (existingIdentities (jsonLeaves value))
    if (jsonLeaves value).any sys.detects then .error (.redaction true) else .ok ()

def prepareLabel (label : Option String) : Except ClaimMirrorError Unit :=
  match label with
  | none => .ok ()
  | some label => stored (sys.identity label)

def prepareClaimText (claim : CommittedClaimMirrorRow) : Except ClaimMirrorError Unit := do
  stored (sys.identity claim.content)
  prepareIntegrityJson sys "claim_attributes" claim.attributes
  prepareIntegrityJson sys "claim_applicability" claim.applicability
  prepareIntegrityJson sys "claim_policy" claim.policy
  prepareLabel sys claim.provenanceLabel

/-- The ids of claims; one that is stored is not refused for a finding. -/
def prepareClaimId (known : Bool) (publicClaimId : String) : Except ClaimMirrorError Unit :=
  if known then stored (existingIdentities [publicClaimId])
  else stored (sys.identity publicClaimId)

/-! ## Checks of the inputs -/

def claimMirrorVersion : Nat := 1

def claimMirrorVectorVersion : Nat := 1

/-- A number from zero to the largest safe integer. -/
def safeCount (n : Int) : Bool := decide (0 ≤ n) && decide (n ≤ maxSafeInteger)

def validProjectId (projectId : Int) : Bool :=
  decide (1 ≤ projectId) && decide (projectId ≤ maxSafeInteger)

/-- `str::parse::<i64>`. -/
def parseI64 (s : List Char) : Option Int :=
  match s with
  | '-' :: digits =>
    if digits.isEmpty || !digits.all isAsciiDigit || decide (i64Max + 1 < digitsValue digits) then
      none
    else some (-(digitsValue digits : Int))
  | _ => (parseU64 s).bind fun n => if n ≤ i64Max then some (n : Int) else none

def parseProjectId (key : String) : Option Int := parseI64 key.toList

/-- One key of the generation vector, and the two generations at it. -/
def validateVectorEntry (vector : SnapshotVector) (entry : String × Int) :
    Except ClaimMirrorError Int :=
  match parseProjectId entry.1 with
  | none => .error (.invalid s!"generation key {entry.1.quote} is not a project ID")
  | some projectId =>
    if !validProjectId projectId ∨ entry.1 ≠ toString projectId then
      .error (.invalid s!"generation key {entry.1.quote} is not a canonical project ID")
    else if !safeCount entry.2 ∨ !((vector.policyGenerations.get entry.1).any safeCount) then
      .error (.invalid s!"project {projectId} generation is outside the safe range")
    else .ok projectId

def validateVectorEntries (vector : SnapshotVector) :
    List (String × Int) → Except ClaimMirrorError (List Int)
  | [] => .ok []
  | entry :: entries => do
    let projectId ← validateVectorEntry vector entry
    let projectIds ← validateVectorEntries vector entries
    return projectId :: projectIds

/-- The projects that a vector names. -/
def validateVector (vector : SnapshotVector) : Except ClaimMirrorError (List Int) :=
  if vector.vectorVersion ≠ claimMirrorVectorVersion then
    .error (.invalid s!"snapshot vector version {vector.vectorVersion} is unsupported")
  else if !isLowerHex vector.databaseIncarnationId 32 then
    .error (.invalid "database incarnation ID must be 32 lowercase hex characters")
  else if vector.workspaceEpoch = "" then
    .error (.invalid "workspace epoch must not be empty")
  else if vector.projectGenerations.keys ≠ vector.policyGenerations.keys then
    .error (.invalid "project and policy generation vectors must name the same projects")
  else validateVectorEntries vector vector.projectGenerations.entries

/-- The checks of a claim's own fields. -/
def validateClaimNames (claim : CommittedClaimMirrorRow) : Except ClaimMirrorError Unit :=
  if !isValidPublicClaimId claim.publicClaimId then
    .error (.invalid s!"invalid public claim ID {claim.publicClaimId}")
  else if !validProjectId claim.projectId then
    .error (.invalid s!"invalid project ID {claim.projectId}")
  else match parseRevisionLocator claim.revisionLocator with
  | none => .error (.invalid s!"invalid revision locator {claim.revisionLocator}")
  | some locator =>
    if locator.publicClaimId ≠ claim.publicClaimId ∨
        locator.contentDigest ≠ claim.contentDigest then
      .error (.invalid s!"revision locator does not match claim {claim.publicClaimId}")
    else if sys.sha256Hex claim.content ≠ claim.contentDigest then
      .error (.invalid s!"content digest does not match claim {claim.publicClaimId}")
    else .ok ()

/-- The checks of a claim's generations. -/
def validateClaimGenerations (claim : CommittedClaimMirrorRow) (vector : SnapshotVector) :
    Except ClaimMirrorError Unit :=
  match vector.projectGenerations.get (toString claim.projectId) with
  | none =>
    .error (.invalid (s!"claim {claim.publicClaimId} project {claim.projectId} is absent from " ++
      "generation vector"))
  | some projectGeneration =>
    if claim.projectGeneration ≠ projectGeneration ∨
        some claim.policyGeneration ≠ vector.policyGenerations.get (toString claim.projectId) then
      .error (.invalid s!"claim {claim.publicClaimId} generation does not match snapshot vector")
    else .ok ()

def validateLabel (label : Option String) : Except ClaimMirrorError Unit :=
  if label.any fun label => label == "" || decide (512 < label.utf8ByteSize) then
    .error (.invalid "provenance label must contain 1..=512 bytes")
  else .ok ()

def validateClaim (claim : CommittedClaimMirrorRow)
    (vector : SnapshotVector) : Except ClaimMirrorError Unit := do
  validateClaimNames sys claim
  validateClaimGenerations claim vector
  let _ ← validateJsonObject claim.attributes "claim attributes"
  let _ ← validateJsonObject claim.applicability "claim applicability"
  let _ ← validateJsonObject claim.policy "claim policy"
  validateLabel claim.provenanceLabel

/-- The claims of a snapshot, after those that came before. -/
def validateClaims (sys : MirrorPlatform) (vector : SnapshotVector) :
    List CommittedClaimMirrorRow → List CommittedClaimMirrorRow → Except ClaimMirrorError Unit
  | _, [] => .ok ()
  | seen, claim :: claims => do
    validateClaim sys claim vector
    if seen.any fun c => c.publicClaimId == claim.publicClaimId then
      .error (.invalid s!"duplicate public claim ID {claim.publicClaimId}")
    else if seen.any fun c => c.revisionLocator == claim.revisionLocator then
      .error (.invalid s!"duplicate revision locator {claim.revisionLocator}")
    else validateClaims sys vector (claim :: seen) claims

def validateSnapshot (snapshot : ClaimMirrorSnapshot) : Except ClaimMirrorError Unit :=
  if snapshot.mirrorVersion ≠ claimMirrorVersion then
    .error (.invalid s!"mirror version {snapshot.mirrorVersion} is unsupported")
  else do
    let projects ← validateVector snapshot.vector
    let checkpoints := snapshot.projectCheckpoints
    if ¬ (checkpoints.keys ⊆ projects ∧ projects ⊆ checkpoints.keys) then
      .error (.invalid "snapshot checkpoints must name every generation-vector project")
    else if checkpoints.entries.any fun entry =>
        !validProjectId entry.1 || !safeCount entry.2 then
      .error (.invalid "snapshot checkpoint is outside the safe range")
    else validateClaims sys snapshot.vector [] snapshot.claims

/-- The names of an effect, and the claim it carries. -/
def validateEffectNames (vector : SnapshotVector)
    (effect : ClaimMirrorEffect) : Except ClaimMirrorError Unit :=
  if !validProjectId effect.projectId ∨
      ¬ (0 ≤ effect.previousProjectEffectId ∧ effect.previousProjectEffectId < effect.effectId) then
    .error (.invalid s!"effect {effect.effectId} has an invalid project predecessor")
  else if !isValidPublicClaimId effect.publicClaimId then
    .error (.invalid s!"effect {effect.effectId} has an invalid public claim ID")
  else match parseRevisionLocator effect.revisionLocator with
  | none => .error (.invalid s!"effect {effect.effectId} has an invalid revision locator")
  | some locator =>
    if locator.publicClaimId ≠ effect.publicClaimId then
      .error (.invalid s!"effect {effect.effectId} claim and revision locator disagree")
    else if vector.projectGenerations.get (toString effect.projectId) ≠ some effect.generation then
      .error (.invalid s!"effect {effect.effectId} generation disagrees with receipt vector")
    else match effect.claim with
    | none => .ok ()
    | some claim => do
      validateClaim sys claim vector
      if claim.publicClaimId ≠ effect.publicClaimId ∨ claim.projectId ≠ effect.projectId ∨
          claim.revisionLocator ≠ effect.revisionLocator then
        .error (.invalid s!"effect {effect.effectId} hydrated claim disagrees with effect identity")
      else .ok ()

/-- The effects of a receipt, where the next one must have the id `expected`. -/
def validateEffects (sys : MirrorPlatform) (vector : SnapshotVector) :
    Int → List String → List ClaimMirrorEffect → Except ClaimMirrorError Unit
  | _, _, [] => .ok ()
  | expected, keys, effect :: effects =>
    if effect.effectId ≠ expected ∨ effect.effectId ≤ 0 ∨ maxSafeInteger < effect.effectId then
      .error (.invalid "receipt effects must have contiguous positive IDs")
    else if effect.effectKey = "" ∨ effect.effectKey ∈ keys then
      .error (.invalid "receipt effect keys must be nonempty and unique")
    else do
      validateEffectNames sys vector effect
      validateEffects sys vector (expected + 1) (effect.effectKey :: keys) effects

/-! ## The digest of a receipt -/

def jsonText (value : String) : Json := .string value

def jsonInteger (value : Int) : Json := .number (.integer value)

def generationsValue (generations : SortedMap String Int) : Json :=
  .object (generations.entries.map fun entry => (entry.1, jsonInteger entry.2))

/-- A vector; the fields are in the order of their names. -/
def snapshotVectorValue (vector : SnapshotVector) : Json :=
  .object
    [("databaseIncarnationId", jsonText vector.databaseIncarnationId),
      ("policyGenerations", generationsValue vector.policyGenerations),
      ("projectGenerations", generationsValue vector.projectGenerations),
      ("vectorVersion", jsonInteger vector.vectorVersion),
      ("workspaceEpoch", jsonText vector.workspaceEpoch)]

def claimValue (claim : CommittedClaimMirrorRow) : Json :=
  .object
    [("applicability", claim.applicability), ("attributes", claim.attributes),
      ("content", jsonText claim.content),
      ("contentDigest", jsonText claim.contentDigest),
      ("lifecycle", jsonText claim.lifecycle.asStr),
      ("policy", claim.policy),
      ("policyGeneration", jsonInteger claim.policyGeneration),
      ("projectGeneration", jsonInteger claim.projectGeneration),
      ("projectId", jsonInteger claim.projectId),
      ("provenanceLabel", (claim.provenanceLabel.map jsonText).getD .null),
      ("publicClaimId", jsonText claim.publicClaimId),
      ("revisionLocator", jsonText claim.revisionLocator)]

def effectValue (effect : ClaimMirrorEffect) : Json :=
  .object
    [("changeKind", jsonText effect.changeKind.asStr),
      ("claim", (effect.claim.map claimValue).getD .null),
      ("effectId", jsonInteger effect.effectId),
      ("effectKey", jsonText effect.effectKey),
      ("generation", jsonInteger effect.generation),
      ("previousProjectEffectId", jsonInteger effect.previousProjectEffectId),
      ("projectId", jsonInteger effect.projectId),
      ("publicClaimId", jsonText effect.publicClaimId),
      ("revisionLocator", jsonText effect.revisionLocator)]

def groupValue (group : ClaimMirrorReceiptGroup) : Json :=
  .object
    [("effects", .array (group.effects.map effectValue)),
      ("expectedEffectCount", jsonInteger group.expectedEffectCount),
      ("mirrorVersion", jsonInteger group.mirrorVersion),
      ("receiptId", jsonInteger group.receiptId),
      ("vector", snapshotVectorValue group.vector)]

/-- The checks of a receipt, which yield its digest. -/
def validateGroup (group : ClaimMirrorReceiptGroup) : Except ClaimMirrorError String :=
  if group.mirrorVersion ≠ claimMirrorVersion then
    .error (.invalid s!"mirror version {group.mirrorVersion} is unsupported")
  else do
    let _ ← validateVector group.vector
    if group.receiptId ≤ 0 ∨ maxSafeInteger < group.receiptId then
      .error (.invalid "receipt ID is outside the safe range")
    else if group.expectedEffectCount = 0 ∨ group.expectedEffectCount ≠ group.effects.length then
      .error (.invalid (s!"receipt {group.receiptId} expected {group.expectedEffectCount} " ++
        s!"effects but carried {group.effects.length}"))
    else do
      validateEffects sys group.vector
        ((group.effects.head?.map ClaimMirrorEffect.effectId).getD 0) [] group.effects
      let text ← canonical (canonicalJsonEncode (groupValue group))
      return sys.sha256Hex text

/-! ## What is stored -/

structure ClaimMirrorProjectState where
  projectGeneration : Int
  policyGeneration : Int
  ackedEffectId : Int

/-- A stored claim; its JSON columns hold canonical texts. -/
structure StoredClaim where
  publicClaimId : String
  projectId : Int
  revisionLocator : String
  revision : Int
  content : String
  contentDigest : String
  attributesJson : String
  lifecycle : ClaimMirrorLifecycle
  applicabilityJson : String
  policyJson : String
  provenanceLabel : Option String
  projectGeneration : Int
  policyGeneration : Int

structure StoredReceipt where
  receiptId : Int
  expectedEffectCount : Nat
  firstEffectId : Int
  lastEffectId : Int
  groupDigest : String
  generationVectorJson : String

/-- The mirror of one incarnation of the host's database. -/
structure Mirror where
  vectorVersion : Nat
  databaseIncarnationId : String
  workspaceEpoch : String
  projects : SortedMap Int ClaimMirrorProjectState
  claims : Table StoredClaim.publicClaimId
  receipts : Table StoredReceipt.receiptId

/-! ## Reading -/

namespace Mirror

/-- `snapshot_vector_from_connection`. -/
def vector (mirror : Mirror) : SnapshotVector where
  vectorVersion := mirror.vectorVersion
  databaseIncarnationId := mirror.databaseIncarnationId
  workspaceEpoch := mirror.workspaceEpoch
  projectGenerations := SortedMap.ofList (mirror.projects.entries.map fun entry =>
    (toString entry.1, entry.2.projectGeneration))
  policyGenerations := SortedMap.ofList (mirror.projects.entries.map fun entry =>
    (toString entry.1, entry.2.policyGeneration))

/-- `existing_claim_ids_tx`: the claim is stored for the incarnation. -/
def knows (mirror : Option Mirror) (incarnation publicClaimId : String) : Bool :=
  mirror.any fun mirror =>
    decide (mirror.databaseIncarnationId = incarnation) && (mirror.claims.get publicClaimId).isSome

end Mirror

/-- A JSON column that does not parse fails the query. -/
def parseColumn (text : String) : Except ClaimMirrorError Json :=
  match sys.parse text with
  | .ok value => .ok value
  | .error _ => .error (.store .noRows)

/-- `row_from_sql`. -/
def readClaim (claim : StoredClaim) : Except ClaimMirrorError CommittedClaimMirrorRow := do
  let attributes ← parseColumn sys claim.attributesJson
  let applicability ← parseColumn sys claim.applicabilityJson
  let policy ← parseColumn sys claim.policyJson
  return {
    publicClaimId := claim.publicClaimId
    projectId := claim.projectId
    revisionLocator := claim.revisionLocator
    content := claim.content
    contentDigest := claim.contentDigest
    attributes := attributes
    lifecycle := claim.lifecycle
    applicability := applicability
    policy := policy
    provenanceLabel := claim.provenanceLabel
    projectGeneration := claim.projectGeneration
    policyGeneration := claim.policyGeneration }

def readClaimList (sys : MirrorPlatform) :
    List StoredClaim → Except ClaimMirrorError (List CommittedClaimMirrorRow)
  | [] => .ok []
  | claim :: claims => do
    let row ← readClaim sys claim
    let rows ← readClaimList sys claims
    return row :: rows

/-- The order of claims by project and id. -/
def claimBefore (p q : Int × String) : Prop := p.1 < q.1 ∨ p.1 = q.1 ∧ p.2 ≤ q.2

instance (p q : Int × String) : Decidable (claimBefore p q) :=
  inferInstanceAs (Decidable (_ ∨ _))

def readClaims (mirror : Mirror) : Except ClaimMirrorError (List CommittedClaimMirrorRow) :=
  readClaimList sys (mirror.claims.rows.insertionSort fun c d =>
    claimBefore (c.projectId, c.publicClaimId) (d.projectId, d.publicClaimId))

/-- The claims of a snapshot in the order in which the stored ones are read. -/
def sortClaims (claims : List CommittedClaimMirrorRow) : List CommittedClaimMirrorRow :=
  claims.insertionSort fun c d =>
    claimBefore (c.projectId, c.publicClaimId) (d.projectId, d.publicClaimId)

/-! ## Writing claims -/

/-- The row that `insert_claim` writes. -/
def storedClaim (claim : CommittedClaimMirrorRow) : Except ClaimMirrorError StoredClaim :=
  match parseRevisionLocator claim.revisionLocator with
  | none => .error (.store .noRows)
  | some locator => do
    let attributesJson ← canonical (canonicalJsonEncode claim.attributes)
    let applicabilityJson ← canonical (canonicalJsonEncode claim.applicability)
    let policyJson ← canonical (canonicalJsonEncode claim.policy)
    return {
      publicClaimId := claim.publicClaimId
      projectId := claim.projectId
      revisionLocator := claim.revisionLocator
      revision := locator.revision
      content := claim.content
      contentDigest := claim.contentDigest
      attributesJson := attributesJson
      lifecycle := claim.lifecycle
      applicabilityJson := applicabilityJson
      policyJson := policyJson
      provenanceLabel := claim.provenanceLabel
      projectGeneration := claim.projectGeneration
      policyGeneration := claim.policyGeneration }

abbrev ClaimTable := Table StoredClaim.publicClaimId

def insertClaim (claims : ClaimTable) (claim : CommittedClaimMirrorRow) :
    Except ClaimMirrorError ClaimTable := do
  let row ← storedClaim claim
  return claims.put row

def insertClaims : ClaimTable → List CommittedClaimMirrorRow → Except ClaimMirrorError ClaimTable
  | claims, [] => .ok claims
  | claims, claim :: rest => do
    let claims' ← insertClaim claims claim
    insertClaims claims' rest

/-! ## Replacement -/

/-- The mirror as a snapshot describes it; there is a checkpoint for each project. -/
def seedMirror (snapshot : ClaimMirrorSnapshot) (claims : ClaimTable) : Mirror where
  vectorVersion := claimMirrorVectorVersion
  databaseIncarnationId := snapshot.vector.databaseIncarnationId
  workspaceEpoch := snapshot.vector.workspaceEpoch
  projects := snapshot.projectCheckpoints.map fun projectId checkpoint =>
    { projectGeneration := (snapshot.vector.projectGenerations.get (toString projectId)).getD 0
      policyGeneration := (snapshot.vector.policyGenerations.get (toString projectId)).getD 0
      ackedEffectId := checkpoint }
  claims := claims
  receipts := Table.empty

def checkpointsMatch (mirror : Mirror) (snapshot : ClaimMirrorSnapshot) : Bool :=
  mirror.projects.entries.all fun entry =>
    snapshot.projectCheckpoints.get entry.1 == some entry.2.ackedEffectId

/-- The snapshot says what is stored. -/
def sameAsStored (mirror : Mirror) (snapshot : ClaimMirrorSnapshot) :
    Except ClaimMirrorError Bool :=
  if mirror.vector = snapshot.vector ∧ checkpointsMatch mirror snapshot then do
    let rows ← readClaims sys mirror
    return decide (rows = sortClaims snapshot.claims)
  else .ok false

variable (controls : Option ClaimIntentControl)

/-- A reset is over once the mirror is seeded. -/
def afterSeed : Option ClaimIntentControl :=
  controls.map fun control =>
    if control.transitionState = .resetting then { control with transitionState := .accepting }
    else control

/-- The stored rows make way for the snapshot's. -/
def seed (snapshot : ClaimMirrorSnapshot) :
    Except ClaimMirrorError (Option ClaimIntentControl × Option Mirror) :=
  if sqlLength snapshot.vector.workspaceEpoch = 0 then .error (.store .constraint)
  else do
    let claims ← insertClaims Table.empty snapshot.claims
    return (afterSeed controls, some (seedMirror snapshot claims))

/-- What may be stored is replaced under a reset only. -/
def replaceStored (mirror : Option Mirror) (snapshot : ClaimMirrorSnapshot) :
    Except ClaimMirrorError (Option ClaimIntentControl × Option Mirror) :=
  match mirror with
  | none =>
    if controls.any fun control => control.transitionState == .draining then .error .resetRequired
    else seed controls snapshot
  | some stored => do
    let same ← sameAsStored sys stored snapshot
    if same then .ok (controls, mirror)
    else if !(controls.any fun control => control.transitionState == .resetting) then
      .error .resetRequired
    else seed controls snapshot

/-- The control row is of another incarnation. -/
def requireIncarnation (incarnation : String) : Except ClaimMirrorError Unit :=
  match controls with
  | none => .ok ()
  | some control =>
    if control.databaseIncarnationId ≠ incarnation then
      .error (.incarnationMismatch control.databaseIncarnationId incarnation)
    else .ok ()

/-- The transaction of `replace_claim_mirror_snapshot`, after the ids. -/
def replaceTransaction (unresolved : Nat)
    (controls : Option ClaimIntentControl) (mirror : Option Mirror)
    (snapshot : ClaimMirrorSnapshot) :
    Except ClaimMirrorError (Option ClaimIntentControl × Option Mirror) :=
  if 0 < unresolved then .error (.resetBlocked unresolved)
  else do
    requireIncarnation controls snapshot.vector.databaseIncarnationId
    replaceStored sys controls mirror snapshot

/-- `replace_claim_mirror_snapshot`; a snapshot that says what is stored changes nothing. -/
def replaceClaimMirrorSnapshot (unresolved : Nat)
    (controls : Option ClaimIntentControl) (mirror : Option Mirror)
    (snapshot : ClaimMirrorSnapshot) :
    Except ClaimMirrorError (Option ClaimIntentControl × Option Mirror) := do
  let incarnation := snapshot.vector.databaseIncarnationId
  validateSnapshot sys snapshot
  stored (sys.identity snapshot.vector.workspaceEpoch)
  stored (sys.identity incarnation)
  snapshot.claims.forM (prepareClaimText sys)
  snapshot.claims.forM fun claim =>
    prepareClaimId sys (Mirror.knows mirror incarnation claim.publicClaimId) claim.publicClaimId
  replaceTransaction sys unresolved controls mirror snapshot

/-! ## Receipts -/

structure ClaimMirrorApplyResult where
  replayed : Bool
  appliedEffectCount : Nat

/-- A mirror takes receipts of its own incarnation and epoch, while the control row accepts. -/
def requireSeed (mirror : Mirror) (vector : SnapshotVector) : Except ClaimMirrorError Unit :=
  if mirror.databaseIncarnationId ≠ vector.databaseIncarnationId then
    .error (.incarnationMismatch mirror.databaseIncarnationId vector.databaseIncarnationId)
  else if mirror.workspaceEpoch ≠ vector.workspaceEpoch then
    .error (.invalid "receipt workspace epoch does not match mirror")
  else do
    requireIncarnation controls vector.databaseIncarnationId
    if controls.any fun control => control.transitionState != .accepting then
      .error .resetRequired
    else .ok ()

def vectorProjects (vector : SnapshotVector) : List Int :=
  vector.projectGenerations.keys.filterMap parseProjectId

def ClaimMirrorReceiptGroup.touches (group : ClaimMirrorReceiptGroup) (projectId : Int) : Bool :=
  group.effects.any fun effect => effect.projectId == projectId

/-- The generation of a project in a map of generations. -/
def generationOf (generations : SortedMap String Int) (projectId : Int) : Int :=
  (generations.get (toString projectId)).getD 0

/-- Both generations of a touched project rise by one, and those of the others stay. -/
def requireGeneration (group : ClaimMirrorReceiptGroup) (entry : Int × ClaimMirrorProjectState) :
    Except ClaimMirrorError Unit :=
  let increment : Int := if group.touches entry.1 then 1 else 0
  let found := generationOf group.vector.projectGenerations entry.1
  let foundPolicy := generationOf group.vector.policyGenerations entry.1
  if found ≠ entry.2.projectGeneration + increment then
    .error (.generationMismatch entry.1 (entry.2.projectGeneration + increment) found)
  else if foundPolicy ≠ entry.2.policyGeneration + increment then
    .error (.generationMismatch entry.1 (entry.2.policyGeneration + increment) foundPolicy)
  else .ok ()

/-- Each effect follows the last one of its project; the checkpoints after all of them. -/
def advanceCheckpoints :
    SortedMap Int Int → List ClaimMirrorEffect → Except ClaimMirrorError (SortedMap Int Int)
  | checkpoints, [] => .ok checkpoints
  | checkpoints, effect :: effects =>
    match checkpoints.get effect.projectId with
    | none => .error (.store .noRows)
    | some expected =>
      if effect.previousProjectEffectId ≠ expected then
        .error (.checkpointMismatch effect.projectId expected effect.previousProjectEffectId)
      else advanceCheckpoints (checkpoints.insert effect.projectId effect.effectId) effects

/-- An effect on a claim that is stored: its project stays and its revision does not go back. -/
def requireSuccession (stored : StoredClaim) (effect : ClaimMirrorEffect) :
    Except ClaimMirrorError Unit :=
  if stored.projectId ≠ effect.projectId then
    .error (.invalid s!"public claim {effect.publicClaimId} changed projects")
  else match parseRevisionLocator effect.revisionLocator with
  | none => .error (.store .noRows)
  | some incoming =>
    if incoming.revision < stored.revision then
      .error (.invalid s!"public claim {effect.publicClaimId} revision regressed")
    else if incoming.revision = stored.revision ∧
        stored.revisionLocator ≠ effect.revisionLocator then
      .error (.invalid (s!"public claim {effect.publicClaimId} revision {incoming.revision} " ++
        "does not match the stored locator"))
    else if effect.claim.isNone ∧ stored.revisionLocator ≠ effect.revisionLocator then
      .error (.invalid s!"revocation for {effect.publicClaimId} does not match current revision")
    else .ok ()

def requireStoredSuccession (claims : ClaimTable) (effect : ClaimMirrorEffect) :
    Except ClaimMirrorError Unit :=
  match claims.get effect.publicClaimId with
  | none => .ok ()
  | some stored => requireSuccession stored effect

def applyEffect (claims : ClaimTable) (effect : ClaimMirrorEffect) :
    Except ClaimMirrorError ClaimTable := do
  requireStoredSuccession claims effect
  match effect.claim with
  | some claim => insertClaim claims claim
  | none => return claims.delete fun c =>
      c.publicClaimId == effect.publicClaimId && c.revisionLocator == effect.revisionLocator

def applyEffects : ClaimTable → List ClaimMirrorEffect → Except ClaimMirrorError ClaimTable
  | claims, [] => .ok claims
  | claims, effect :: effects => do
    let claims' ← applyEffect claims effect
    applyEffects claims' effects

/-- Every claim of a touched project takes the receipt's generations. -/
def ClaimMirrorReceiptGroup.stamp (group : ClaimMirrorReceiptGroup) (claim : StoredClaim) :
    StoredClaim :=
  { claim with
    projectGeneration := generationOf group.vector.projectGenerations claim.projectId
    policyGeneration := generationOf group.vector.policyGenerations claim.projectId }

def ClaimMirrorReceiptGroup.stampAll (group : ClaimMirrorReceiptGroup) (claims : ClaimTable) :
    ClaimTable :=
  claims.update (fun claim => group.touches claim.projectId) group.stamp fun _ => rfl

/-- A project after a receipt; `checkpoints` are the new ones. -/
def ClaimMirrorReceiptGroup.advance (group : ClaimMirrorReceiptGroup)
    (checkpoints : SortedMap Int Int) (projectId : Int) (state : ClaimMirrorProjectState) :
    ClaimMirrorProjectState :=
  if group.touches projectId then
    { projectGeneration := generationOf group.vector.projectGenerations projectId
      policyGeneration := generationOf group.vector.policyGenerations projectId
      ackedEffectId := (checkpoints.get projectId).getD state.ackedEffectId }
  else state

def receiptRow (group : ClaimMirrorReceiptGroup) (groupDigest generationVectorJson : String) :
    StoredReceipt where
  receiptId := group.receiptId
  expectedEffectCount := group.expectedEffectCount
  firstEffectId := (group.effects.head?.map ClaimMirrorEffect.effectId).getD 0
  lastEffectId := (group.effects.getLast?.map ClaimMirrorEffect.effectId).getD 0
  groupDigest := groupDigest
  generationVectorJson := generationVectorJson

/-- What a receipt that was not seen before does. -/
def applyFresh (mirror : Mirror) (group : ClaimMirrorReceiptGroup)
    (groupDigest generationVectorJson : String) : Except ClaimMirrorError Mirror :=
  if ¬ (vectorProjects group.vector ⊆ mirror.projects.keys ∧
      mirror.projects.keys ⊆ vectorProjects group.vector) then
    .error (.invalid "receipt generation vector project set does not match mirror")
  else do
    mirror.projects.entries.forM (requireGeneration group)
    let checkpoints ← advanceCheckpoints (mirror.projects.map fun _ state => state.ackedEffectId)
      group.effects
    let claims ← applyEffects mirror.claims group.effects
    return { mirror with
      projects := mirror.projects.map (group.advance checkpoints)
      claims := group.stampAll claims
      receipts := mirror.receipts.put (receiptRow group groupDigest generationVectorJson) }

/-- The transaction of `apply_claim_mirror_receipt`, after the ids. -/
def applyTransaction (mirror : Option Mirror)
    (group : ClaimMirrorReceiptGroup) (groupDigest generationVectorJson : String) :
    Except ClaimMirrorError (ClaimMirrorApplyResult × Option Mirror) :=
  match mirror with
  | none => .error .notSeeded
  | some stored => do
    requireSeed controls stored group.vector
    match stored.receipts.get group.receiptId with
    | some receipt =>
      if receipt.groupDigest = groupDigest then
        .ok ({ replayed := true, appliedEffectCount := 0 }, mirror)
      else .error (.receiptConflict group.receiptId)
    | none => do
      let mirror' ← applyFresh stored group groupDigest generationVectorJson
      return ({ replayed := false, appliedEffectCount := group.effects.length }, some mirror')

def prepareEffectText (effect : ClaimMirrorEffect) : Except ClaimMirrorError Unit :=
  match effect.claim with
  | none => .ok ()
  | some claim => prepareClaimText sys claim

def applyClaimMirrorReceipt (mirror : Option Mirror) (group : ClaimMirrorReceiptGroup) :
    Except ClaimMirrorError (ClaimMirrorApplyResult × Option Mirror) := do
  let incarnation := group.vector.databaseIncarnationId
  let groupDigest ← validateGroup sys group
  stored (existingIdentities [incarnation, group.vector.workspaceEpoch])
  group.effects.forM (prepareEffectText sys)
  let generationVectorJson ← canonical (canonicalJsonEncode (snapshotVectorValue group.vector))
  stored (sys.identity generationVectorJson)
  group.effects.forM fun effect =>
    prepareClaimId sys (Mirror.knows mirror incarnation effect.publicClaimId) effect.publicClaimId
  applyTransaction controls mirror group groupDigest generationVectorJson

/-! ## Deletion -/

/-- `delete_claim_mirror`. -/
def deleteClaimMirror (unresolved : Nat) (controls : Option ClaimIntentControl) :
    Except ClaimMirrorError (Option Mirror) :=
  if 0 < unresolved then .error (.resetBlocked unresolved)
  else if !(controls.any fun control => control.transitionState == .resetting) then
    .error .resetRequired
  else .ok none

/-! ## What a replacement does -/

section Replacement
variable {sys : MirrorPlatform} {controls controls' : Option ClaimIntentControl}
  {mirror mirror' : Option Mirror} {snapshot : ClaimMirrorSnapshot}

theorem seed_eq_ok (h : seed controls snapshot = .ok (controls', mirror')) :
    ∃ claims, insertClaims Table.empty snapshot.claims = .ok claims ∧
      controls' = afterSeed controls ∧ mirror' = some (seedMirror snapshot claims) := by
  rw [seed] at h
  obtain ⟨-, h⟩ := check_eq_ok.mp h
  obtain ⟨claims, hclaims, h⟩ := bind_eq_ok.mp h
  obtain ⟨rfl, rfl⟩ := Prod.mk.inj (Except.ok.inj h)
  exact ⟨claims, hclaims, rfl, rfl⟩

/-- A replacement finds its snapshot stored, or it seeds the mirror under a reset or for the first
time. -/
theorem replaceStored_eq_ok
    (h : replaceStored sys controls mirror snapshot = .ok (controls', mirror')) :
    (∃ stored, mirror = some stored ∧ sameAsStored sys stored snapshot = .ok true ∧
        controls' = controls ∧ mirror' = mirror) ∨
      ((∀ stored, mirror = some stored → sameAsStored sys stored snapshot = .ok false) ∧
        (∀ control, afterSeed controls = some control → control.transitionState = .accepting) ∧
        seed controls snapshot = .ok (controls', mirror')) := by
  unfold replaceStored at h
  split at h
  · obtain ⟨-, h⟩ := check_eq_ok.mp h
    refine Or.inr ⟨nofun, ?_, h⟩
    cases controls with
    | none => simp [afterSeed]
    | some control =>
      obtain ⟨incarnation, generation, state⟩ := control
      cases state <;> simp_all [afterSeed]
  · rename_i stored
    obtain ⟨same, hsame, h⟩ := bind_eq_ok.mp h
    cases same with
    | true =>
      obtain ⟨rfl, rfl⟩ := Prod.mk.inj (Except.ok.inj h)
      exact Or.inl ⟨stored, rfl, hsame, rfl, rfl⟩
    | false =>
      obtain ⟨-, h⟩ := check_eq_ok.mp h
      refine Or.inr ⟨fun stored' hstored => Option.some.inj hstored ▸ hsame, ?_, h⟩
      cases controls with
      | none => simp [afterSeed]
      | some control =>
        obtain ⟨incarnation, generation, state⟩ := control
        cases state <;> simp_all [afterSeed]

theorem replaceClaimMirrorSnapshot_eq_ok {unresolved : Nat}
    (h : replaceClaimMirrorSnapshot sys unresolved controls mirror snapshot =
      .ok (controls', mirror')) :
    unresolved = 0 ∧ replaceStored sys controls mirror snapshot = .ok (controls', mirror') := by
  rw [replaceClaimMirrorSnapshot] at h
  obtain ⟨-, -, h⟩ := bind_eq_ok.mp h
  obtain ⟨-, -, h⟩ := bind_eq_ok.mp h
  obtain ⟨-, -, h⟩ := bind_eq_ok.mp h
  obtain ⟨-, -, h⟩ := bind_eq_ok.mp h
  obtain ⟨-, -, h⟩ := bind_eq_ok.mp h
  rw [replaceTransaction] at h
  obtain ⟨hunresolved, h⟩ := check_eq_ok.mp h
  obtain ⟨-, -, h⟩ := bind_eq_ok.mp h
  exact ⟨Nat.eq_zero_of_not_pos hunresolved, h⟩

end Replacement

end MagicContext.Claims
