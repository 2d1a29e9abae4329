import MagicContext.Claims.Mirror

/-!
# The claim store

One database holds the authority rows, the control row of claim intents, the ledger, the mirror
and the change feed of the notes.  Every call is one transaction: it commits, or it fails and
leaves the database as it was.

## What is here

* `ClaimStore` — the database.
* `authorityBeginPrepare`, …, `deleteMirror` — the calls.
* `Call.perform`, `ClaimStore.run` — a call by its name, and a run of calls.
* `authorityTransition_eq_ok` and its kin — what a call that succeeds has done.
-/

namespace MagicContext.Claims

open Checks

/-! ## The database -/

structure AuthorityEntry where
  key : AuthorityKey
  row : AuthorityRow

/-- A note, as far as authority and the feed go. -/
structure Note where
  id : Nat
  contextStoreUuid : Option String
  projectPath : String

inductive FeedOp where
  | insert | update | tombstone

/-- A row of the change feed; only notes have one. -/
structure FeedRow where
  op : FeedOp
  moduleRowId : Nat

structure ClaimStore where
  authority : Table AuthorityEntry.key := Table.empty
  /-- The store and the project that a route is bound to. -/
  routeBindings : String → Option (String × String) := fun _ => none
  controls : Option ClaimIntentControl := none
  intents : Ledger := Table.empty
  mirror : Option Mirror := none
  notes : Table Note.id := Table.empty
  /-- Rows are never deleted, so the sequence of a row is its place. -/
  changefeed : List FeedRow := []

def Domain.asStr : Domain → String
  | memories => "memories"
  | notes => "notes"

namespace ClaimStore

def row (s : ClaimStore) (key : AuthorityKey) : Option AuthorityRow :=
  (s.authority.get key).map AuthorityEntry.row

variable (s : ClaimStore)

def setRow (key : AuthorityKey) (row : AuthorityRow) : ClaimStore :=
  { s with authority := s.authority.put ⟨key, row⟩ }

/-- The last sequence of the feed. -/
def feedHead : Domain → Nat
  | .memories => 0
  | .notes => s.changefeed.length

/-- `authority_for_route_tx`, for memories. -/
def authorityForRoute (route : String) : Option RouteAuthority :=
  match s.routeBindings route with
  | none => none
  | some (uuid, project) =>
    (s.row ⟨uuid, project, .memories⟩).map fun row =>
      { project := project, state := row.state, generation := row.generation }

/-- `set_claim_intent_transition_tx`, which writes for memories of a hexadecimal store only. -/
def setTransition (key : AuthorityKey) (generation : Nat) (state : TransitionState) : ClaimStore :=
  if key.domain = .memories ∧ isLowerHex key.contextStoreUuid 32 then
    { s with controls := some ⟨key.contextStoreUuid, generation, state⟩ }
  else s

/-- A row and, if it is given, the state of the control row. -/
def write (key : AuthorityKey) (row : AuthorityRow)
    (control : Option TransitionState) : ClaimStore :=
  match control with
  | none => s.setRow key row
  | some state => (s.setRow key row).setTransition key row.generation state

/-- `claim_intent_stage_fence`, on the database. -/
def stageFence (route : String) (binding : ClaimIntentBinding) : Except StoreError Unit :=
  claimIntentStageFence s.controls (s.authorityForRoute route) binding

def unresolved (s : ClaimStore) : Nat := s.intents.unresolved

end ClaimStore

open ClaimStore

/-! ## Preparing -/

def AuthorityKey.identities (key : AuthorityKey) : List String :=
  [key.contextStoreUuid, key.project, key.domain.asStr]

variable (s : ClaimStore)

/-- The notes of a project go when the module takes it over, each with a row in the feed. -/
def deleteNotes (key : AuthorityKey) : ClaimStore :=
  let owned := fun note : Note =>
    decide (note.contextStoreUuid = some key.contextStoreUuid ∧ note.projectPath = key.project)
  if key.domain = .notes then
    { s with
      notes := s.notes.delete owned
      changefeed := s.changefeed ++ (s.notes.select owned).map fun note => ⟨.tombstone, note.id⟩ }
  else s

/-- A key that has no row is refused for a finding. -/
def requireKey (sys : Platform) (s : ClaimStore) (key : AuthorityKey) : Except StoreError Unit :=
  match s.row key with
  | none => sys.rejectRecordedIdentities key.identities
  | some _ => .ok ()

def authorityBeginPrepare (sys : Platform) (s : ClaimStore) (key : AuthorityKey) :
    Except StoreError (AuthorityRow × ClaimStore) := do
  existingIdentities key.identities
  requireKey sys s key
  let (applied, row) ← ((s.row key).getD {}).beginPrepare
  return (row, (if applied then deleteNotes s key else s).write key row (some .resetting))

/-! ## Transitions of a row -/

/-- A transition of a row that is there; `control` is what the control row becomes with it. -/
def authorityTransition (key : AuthorityKey)
    (transition : AuthorityRow → Except StoreError AuthorityRow)
    (control : AuthorityRow → Option TransitionState) :
    Except StoreError (AuthorityRow × ClaimStore) :=
  match s.row key with
  | none => .error .noRows
  | some row => do
    let row' ← transition row
    return (row', s.write key row' (control row'))

/-- The texts of a checksum. -/
def checksumIdentities (sys : Platform) (checksumExpected checksumActual : String) :
    Except StoreError Unit := do
  sys.identity checksumExpected
  sys.identity checksumActual

def authorityVerifyPrepare (sys : Platform) (s : ClaimStore) (key : AuthorityKey)
    (expectedGeneration : Nat) (checksumExpected checksumActual : String) :
    Except StoreError (AuthorityRow × ClaimStore) := do
  existingIdentities key.identities
  checksumIdentities sys checksumExpected checksumActual
  authorityTransition s key
    (fun row => row.verifyPrepare expectedGeneration checksumExpected checksumActual)
    fun _ => none

/-- `authority_ack_prepare`; it leaves the control row as it is. -/
def authorityAckPrepare (key : AuthorityKey) (expectedGeneration : Nat) :
    Except StoreError (AuthorityRow × ClaimStore) := do
  existingIdentities key.identities
  authorityTransition s key (fun row => row.ackPrepare expectedGeneration) fun _ => none

def authorityFinishPrepare (sys : Platform) (s : ClaimStore) (key : AuthorityKey)
    (expectedGeneration : Nat) (checksumExpected checksumActual : String) (verified : Bool) :
    Except StoreError (AuthorityRow × ClaimStore) := do
  existingIdentities key.identities
  checksumIdentities sys checksumExpected checksumActual
  authorityTransition s key
    (fun row => row.finishPrepare expectedGeneration checksumExpected checksumActual verified)
    fun row => some (if row.state = .MODULE then .accepting else .resetting)

def authorityAbortPrepare (sys : Platform) (s : ClaimStore) (key : AuthorityKey)
    (expectedGeneration : Nat) : Except StoreError (AuthorityRow × ClaimStore) :=
  authorityFinishPrepare sys s key expectedGeneration "" "" false

/-! ## Draining -/

def authorityBeginDrain (sys : Platform) (s : ClaimStore) (key : AuthorityKey)
    (lease : String) (leaseExpiresAt nowMs : Int) (nanos : Nat) :
    Except StoreError (AuthorityRow × ClaimStore) := do
  existingIdentities (key.identities ++ [lease])
  authorityTransition s key
    (fun row => row.beginDrain sys lease leaseExpiresAt nowMs (s.feedHead key.domain) nanos)
    fun _ => some .draining

def authorityDrainStep (key : AuthorityKey) (expectedGeneration : Nat)
    (step : DrainStep) (cursor : Option Int) (coordinatorToken : String) (nowMs : Int) :
    Except StoreError (AuthorityRow × ClaimStore) := do
  existingIdentities (key.identities ++ [coordinatorToken])
  authorityTransition s key
    (fun row => row.drainStep expectedGeneration step cursor coordinatorToken nowMs)
    fun _ => none

/-- `authority_finish_drain`; it leaves the control row as it is. -/
def authorityFinishDrain (sys : Platform) (s : ClaimStore) (key : AuthorityKey)
    (expectedGeneration : Nat) (checksumExpected checksumActual : String) (verified : Bool)
    (coordinatorToken : String) (nowMs : Int) : Except StoreError (AuthorityRow × ClaimStore) := do
  existingIdentities (key.identities ++ [coordinatorToken])
  checksumIdentities sys checksumExpected checksumActual
  authorityTransition s key
    (fun row => row.finishDrain expectedGeneration checksumExpected checksumActual verified
      coordinatorToken nowMs (s.feedHead key.domain))
    fun _ => none

/-! ## Rebuilds, the mirror and the ledger -/

def beginClaimStoreRebuild (sys : Platform) (s : ClaimStore) (databaseIncarnationId : String)
    (authorityGeneration : Nat) : Except StoreError ClaimStore :=
  if !isLowerHex databaseIncarnationId 32 then
    .error (.claimIntentInvalid "database incarnation ID must be 32 lowercase hex characters")
  else if i64Max < authorityGeneration then
    .error (.claimIntentInvalid "authority generation exceeds SQLite i64")
  else do
    sys.identity databaseIncarnationId
    if 0 < s.unresolved then .error (.claimIntentResetBlocked s.unresolved)
    else return { s with
      controls := some ⟨databaseIncarnationId, authorityGeneration, .resetting⟩ }

def replaceMirror (sys : MirrorPlatform) (s : ClaimStore) (snapshot : ClaimMirrorSnapshot) :
    Except ClaimMirrorError ClaimStore := do
  let (controls, mirror) ← replaceClaimMirrorSnapshot sys s.unresolved s.controls s.mirror
    snapshot
  return { s with controls, mirror }

def applyReceipt (sys : MirrorPlatform) (s : ClaimStore) (group : ClaimMirrorReceiptGroup) :
    Except ClaimMirrorError (ClaimMirrorApplyResult × ClaimStore) := do
  let (result, mirror) ← applyClaimMirrorReceipt sys s.controls s.mirror group
  return (result, { s with mirror })

def deleteMirror : Except ClaimMirrorError ClaimStore := do
  let mirror ← deleteClaimMirror s.unresolved s.controls
  return { s with mirror }

/-- `stage_claim_intent`. -/
def stageIntent (sys : MirrorPlatform) (s : ClaimStore) (route : String)
    (binding : ClaimIntentBinding) (command : ClaimCommandIdentity) (request : Json)
    (nowMs : Int) : Except StoreError (ClaimIntentMutationOutcome × ClaimStore) := do
  let (outcome, intents) ← stageClaimIntent sys.toPlatform sys.toJsonText s.controls
    (s.authorityForRoute route) s.intents binding command request nowMs
  return (outcome, { s with intents })

/-- `acknowledge_claim_intent`. -/
def acknowledgeIntent (sys : MirrorPlatform) (s : ClaimStore) (binding : ClaimIntentBinding)
    (command : ClaimCommandIdentity) (requestDigest : String) (kind : ClaimIntentAckKind)
    (resultJson : Option String) (nowMs : Int) :
    Except StoreError (ClaimIntentMutationOutcome × ClaimStore) := do
  let (outcome, intents) ← acknowledgeClaimIntent sys.toPlatform sys.toJsonText
    s.intents binding command requestDigest kind resultJson nowMs
  return (outcome, { s with intents })

/-! ## Notes -/

/-- The triggers of the notes write the feed. -/
def insertNote (note : Note) : ClaimStore :=
  match s.notes.insert note with
  | none => s
  | some notes =>
    { s with notes := notes, changefeed := s.changefeed ++ [⟨.insert, note.id⟩] }

def updateNote (note : Note) : ClaimStore :=
  match s.notes.get note.id with
  | none => s
  | some _ =>
    { s with
      notes := s.notes.put note
      changefeed := s.changefeed ++ [⟨.update, note.id⟩] }

def deleteNote (id : Nat) : ClaimStore :=
  match s.notes.get id with
  | none => s
  | some _ =>
    { s with
      notes := s.notes.delete fun note => note.id == id
      changefeed := s.changefeed ++ [⟨.tombstone, id⟩] }

/-! ## Calls -/

/-- The calls on the store; `nanos` is the reading of the clock. -/
inductive Call where
  | beginPrepare (key : AuthorityKey)
  | verifyPrepare (key : AuthorityKey) (generation : Nat) (expected actual : String)
  | ackPrepare (key : AuthorityKey) (generation : Nat)
  | finishPrepare (key : AuthorityKey) (generation : Nat) (expected actual : String)
      (verified : Bool)
  | abortPrepare (key : AuthorityKey) (generation : Nat)
  | beginDrain (key : AuthorityKey) (lease : String) (leaseExpiresAt nowMs : Int) (nanos : Nat)
  | drainStep (key : AuthorityKey) (generation : Nat) (step : DrainStep) (cursor : Option Int)
      (token : String) (nowMs : Int)
  | finishDrain (key : AuthorityKey) (generation : Nat) (expected actual : String)
      (verified : Bool) (token : String) (nowMs : Int)
  | beginRebuild (incarnation : String) (generation : Nat)
  | replaceMirror (snapshot : ClaimMirrorSnapshot)
  | applyReceipt (group : ClaimMirrorReceiptGroup)
  | deleteMirror
  | stage (route : String) (binding : ClaimIntentBinding) (command : ClaimCommandIdentity)
      (request : Json) (nowMs : Int)
  | acknowledge (binding : ClaimIntentBinding) (command : ClaimCommandIdentity)
      (requestDigest : String) (kind : ClaimIntentAckKind) (resultJson : Option String)
      (nowMs : Int)
  | insertNote (note : Note)
  | updateNote (note : Note)
  | deleteNote (id : Nat)

/-- What a call answers. -/
inductive Reply where
  | authority (result : Except StoreError AuthorityRow)
  | rebuild (result : Except StoreError Unit)
  | mirror (result : Except ClaimMirrorError Unit)
  | receipt (result : Except ClaimMirrorError ClaimMirrorApplyResult)
  | intent (result : Except StoreError ClaimIntentMutationOutcome)
  | note

namespace ClaimStore

/-- A call that fails leaves the database as it was. -/
def commit {ε α : Type} (s : ClaimStore) (result : Except ε (α × ClaimStore)) :
    Except ε α × ClaimStore :=
  match result with
  | .ok (a, s') => (.ok a, s')
  | .error e => (.error e, s)

def commitUnit {ε : Type} (s : ClaimStore) (result : Except ε ClaimStore) :
    Except ε Unit × ClaimStore :=
  s.commit (result.map fun s' => ((), s'))

end ClaimStore

variable (sys : MirrorPlatform)

def Call.perform (call : Call) (s : ClaimStore) : Reply × ClaimStore :=
  match call with
  | beginPrepare key =>
    (s.commit (authorityBeginPrepare sys.toPlatform s key)).map .authority id
  | verifyPrepare key generation expected actual =>
    (s.commit (authorityVerifyPrepare sys.toPlatform s key generation expected actual)).map
      .authority id
  | ackPrepare key generation =>
    (s.commit (authorityAckPrepare s key generation)).map .authority id
  | finishPrepare key generation expected actual verified =>
    (s.commit (authorityFinishPrepare sys.toPlatform s key generation expected actual
      verified)).map .authority id
  | abortPrepare key generation =>
    (s.commit (authorityAbortPrepare sys.toPlatform s key generation)).map .authority id
  | beginDrain key lease leaseExpiresAt nowMs nanos =>
    (s.commit (authorityBeginDrain sys.toPlatform s key lease leaseExpiresAt nowMs
      nanos)).map .authority id
  | drainStep key generation step cursor token nowMs =>
    (s.commit (authorityDrainStep s key generation step cursor token nowMs)).map .authority id
  | finishDrain key generation expected actual verified token nowMs =>
    (s.commit (authorityFinishDrain sys.toPlatform s key generation expected actual verified
      token nowMs)).map .authority id
  | beginRebuild incarnation generation =>
    (s.commitUnit (beginClaimStoreRebuild sys.toPlatform s incarnation generation)).map .rebuild id
  | replaceMirror snapshot =>
    (s.commitUnit (Claims.replaceMirror sys s snapshot)).map .mirror id
  | applyReceipt group => (s.commit (Claims.applyReceipt sys s group)).map .receipt id
  | deleteMirror => (s.commitUnit (Claims.deleteMirror s)).map .mirror id
  | stage route binding command request nowMs =>
    (s.commit (stageIntent sys s route binding command request nowMs)).map .intent id
  | acknowledge binding command requestDigest kind resultJson nowMs =>
    (s.commit (acknowledgeIntent sys s binding command requestDigest kind resultJson
      nowMs)).map .intent id
  | insertNote note => (.note, Claims.insertNote s note)
  | updateNote note => (.note, Claims.updateNote s note)
  | deleteNote id => (.note, Claims.deleteNote s id)

namespace ClaimStore

/-- The database after a call. -/
def after (s : ClaimStore) (call : Call) : ClaimStore := (call.perform sys s).2

/-- The database after a run of calls. -/
def run (s : ClaimStore) (calls : List Call) : ClaimStore := calls.foldl (after sys) s

/-- A database that no call has touched; routes are bound. -/
def fresh (routes : String → Option (String × String)) : ClaimStore := { routeBindings := routes }

variable {sys}

/-! ## What the writes do -/

section Writes
variable (s : ClaimStore) (key : AuthorityKey) (r : AuthorityRow)

@[simp] theorem row_setRow (k : AuthorityKey) :
    (s.setRow key r).row k = if key = k then some r else s.row k := by
  rw [row, setRow, Table.get_put]
  split
  · rfl
  · rfl

@[simp] theorem row_setTransition (generation : Nat) (state : TransitionState)
    (k : AuthorityKey) : (s.setTransition key generation state).row k = s.row k := by
  rw [setTransition]
  split <;> rfl

theorem row_write (control : Option TransitionState) (k : AuthorityKey) :
    (s.write key r control).row k = if key = k then some r else s.row k := by
  cases control with
  | none => exact row_setRow s key r k
  | some state => exact (row_setTransition _ key r.generation state k).trans (row_setRow s key r k)

/-- What no write of a row touches. -/
structure SameElse (s s' : ClaimStore) : Prop where
  routeBindings : s'.routeBindings = s.routeBindings
  intents : s'.intents = s.intents
  mirror : s'.mirror = s.mirror

theorem sameElse_setTransition (generation : Nat) (state : TransitionState) :
    SameElse s (s.setTransition key generation state) := by
  rw [setTransition]
  split <;> exact ⟨rfl, rfl, rfl⟩

theorem sameElse_write (control : Option TransitionState) : SameElse s (s.write key r control) := by
  cases control with
  | none => exact ⟨rfl, rfl, rfl⟩
  | some state =>
    obtain ⟨hroutes, hintents, hmirror⟩ :=
      sameElse_setTransition (s.setRow key r) key r.generation state
    exact ⟨hroutes, hintents, hmirror⟩

/-- The control row after a write. -/
theorem controls_write (control : Option TransitionState) :
    (s.write key r control).controls = match control with
      | none => s.controls
      | some state =>
        if key.domain = .memories ∧ isLowerHex key.contextStoreUuid 32 then
          some ⟨key.contextStoreUuid, r.generation, state⟩
        else s.controls := by
  cases control with
  | none => rfl
  | some state =>
    change (setTransition _ key r.generation state).controls = _
    rw [setTransition]
    split <;> rfl

theorem row_deleteNotes (k : AuthorityKey) : (deleteNotes s key).row k = s.row k := by
  rw [deleteNotes]
  split <;> rfl

theorem sameElse_deleteNotes : SameElse s (deleteNotes s key) := by
  rw [deleteNotes]
  split <;> exact ⟨rfl, rfl, rfl⟩

theorem controls_deleteNotes : (deleteNotes s key).controls = s.controls := by
  rw [deleteNotes]
  split <;> rfl

end Writes

theorem commit_ok {ε α : Type} {s : ClaimStore} {result : Except ε (α × ClaimStore)} {a : α}
    (h : (s.commit result).1 = .ok a) : result = .ok (a, (s.commit result).2) := by
  cases result with
  | ok p =>
    cases h
    rfl
  | error e => cases h

end ClaimStore

/-! ## Transitions that a call makes -/

/-- The call takes the row of the key from one value to the next. -/
inductive Transits (s : ClaimStore) : Call → AuthorityKey → AuthorityRow → AuthorityRow → Prop
  | beginPrepare {key : AuthorityKey} {row row' : AuthorityRow} {applied : Bool}
      (hrow : (s.row key).getD {} = row) (h : row.beginPrepare = .ok (applied, row')) :
      Transits s (.beginPrepare key) key row row'
  | verifyPrepare {key : AuthorityKey} {row row' : AuthorityRow} {g : Nat}
      {expected actual : String} (hrow : s.row key = some row)
      (h : row.verifyPrepare g expected actual = .ok row') :
      Transits s (.verifyPrepare key g expected actual) key row row'
  | ackPrepare {key : AuthorityKey} {row row' : AuthorityRow} {g : Nat}
      (hrow : s.row key = some row) (h : row.ackPrepare g = .ok row') :
      Transits s (.ackPrepare key g) key row row'
  | finishPrepare {key : AuthorityKey} {row row' : AuthorityRow} {g : Nat}
      {expected actual : String} {verified : Bool} (hrow : s.row key = some row)
      (h : row.finishPrepare g expected actual verified = .ok row') :
      Transits s (.finishPrepare key g expected actual verified) key row row'
  | abortPrepare {key : AuthorityKey} {row row' : AuthorityRow} {g : Nat}
      (hrow : s.row key = some row) (h : row.finishPrepare g "" "" false = .ok row') :
      Transits s (.abortPrepare key g) key row row'
  | beginDrain {key : AuthorityKey} {row row' : AuthorityRow} {lease : String}
      {expires nowMs : Int} {nanos : Nat} (hrow : s.row key = some row)
      (h : row.beginDrain sys.toPlatform lease expires nowMs (s.feedHead key.domain) nanos =
        .ok row') :
      Transits s (.beginDrain key lease expires nowMs nanos) key row row'
  | drainStep {key : AuthorityKey} {row row' : AuthorityRow} {g : Nat} {step : DrainStep}
      {cursor : Option Int} {token : String} {nowMs : Int} (hrow : s.row key = some row)
      (h : row.drainStep g step cursor token nowMs = .ok row') :
      Transits s (.drainStep key g step cursor token nowMs) key row row'
  | finishDrain {key : AuthorityKey} {row row' : AuthorityRow} {g : Nat}
      {expected actual : String} {verified : Bool} {token : String} {nowMs : Int}
      (hrow : s.row key = some row)
      (h : row.finishDrain g expected actual verified token nowMs (s.feedHead key.domain) =
        .ok row') :
      Transits s (.finishDrain key g expected actual verified token nowMs) key row row'

/-- What a transition makes of the control row. -/
def Call.control (call : Call) (row : AuthorityRow) : Option TransitionState :=
  match call with
  | beginPrepare _ => some .resetting
  | finishPrepare .. => some (if row.state = .MODULE then .accepting else .resetting)
  | abortPrepare .. => some (if row.state = .MODULE then .accepting else .resetting)
  | beginDrain .. => some .draining
  | _ => none

/-- The database after a transition. -/
structure Transited (s : ClaimStore) (call : Call) (key : AuthorityKey)
    (row' : AuthorityRow) (s' : ClaimStore) : Prop where
  row : ∀ k, s'.row k = if key = k then some row' else s.row k
  controls : s'.controls = match call.control row' with
    | none => s.controls
    | some state =>
      if key.domain = .memories ∧ isLowerHex key.contextStoreUuid 32 then
        some ⟨key.contextStoreUuid, row'.generation, state⟩
      else s.controls
  same : ClaimStore.SameElse s s'

theorem transited_write (s : ClaimStore) (call : Call) (key : AuthorityKey) (row' : AuthorityRow) :
    Transited s call key row' (s.write key row' (call.control row')) :=
  ⟨row_write s key row' _, controls_write s key row' _, sameElse_write s key row' _⟩

variable {call : Call} {row' : AuthorityRow}

variable {s s' : ClaimStore} {key : AuthorityKey}

theorem transited_of_eq
    (h : s' = s.write key row' (call.control row')) : Transited s call key row' s' :=
  h ▸ transited_write s call key row'

theorem authorityTransition_eq_ok {transition : AuthorityRow → Except StoreError AuthorityRow}
    {control : AuthorityRow → Option TransitionState}
    (h : authorityTransition s key transition control = .ok (row', s')) :
    ∃ row, s.row key = some row ∧ transition row = .ok row' ∧
      s' = s.write key row' (control row') := by
  rw [authorityTransition] at h
  split at h
  · cases h
  · rename_i row hrow
    obtain ⟨row₁, htransition, h⟩ := bind_eq_ok.mp h
    obtain ⟨rfl, rfl⟩ := Prod.mk.inj (Except.ok.inj h)
    exact ⟨row, hrow, htransition, rfl⟩

/-- The answer of a call that took a row on. -/
def Reply.row? : Reply → Option AuthorityRow
  | authority (.ok row) => some row
  | _ => none

variable {sys}

theorem authorityBeginPrepare_eq_ok
    (h : authorityBeginPrepare sys.toPlatform s key = .ok (row', s')) :
    ∃ row, Transits sys s (.beginPrepare key) key row row' ∧
      Transited s (.beginPrepare key) key row' s' := by
  rw [authorityBeginPrepare] at h
  obtain ⟨-, -, h⟩ := bind_eq_ok.mp h
  obtain ⟨-, -, h⟩ := bind_eq_ok.mp h
  obtain ⟨⟨applied, row₁⟩, hbegin, h⟩ := bind_eq_ok.mp h
  obtain ⟨rfl, rfl⟩ := Prod.mk.inj (Except.ok.inj h)
  refine ⟨_, .beginPrepare rfl hbegin, ?_⟩
  split
  · have hwrite := transited_write (deleteNotes s key) (.beginPrepare key) key row₁
    have hsame := sameElse_deleteNotes s key
    refine ⟨fun k => ?_, ?_, ?_⟩
    · rw [← row_deleteNotes s key k]
      exact hwrite.row k
    · rw [← controls_deleteNotes s key]
      exact hwrite.controls
    · exact ⟨hwrite.same.routeBindings.trans hsame.routeBindings,
        hwrite.same.intents.trans hsame.intents, hwrite.same.mirror.trans hsame.mirror⟩
  · exact transited_write s (.beginPrepare key) key row₁

/-- A call that went through on an authority row. -/
theorem answer_eq_ok {result : Except StoreError (AuthorityRow × ClaimStore)}
    (h : (((s.commit result).map Reply.authority id).1).row? = some row') :
    result = .ok (row', (s.commit result).2) := by
  cases result with
  | ok p =>
    cases Option.some.inj h
    rfl
  | error e => cases h

/-- A call that failed on an authority row. -/
theorem answer_eq_none {result : Except StoreError (AuthorityRow × ClaimStore)}
    (h : (((s.commit result).map Reply.authority id).1).row? = none) : (s.commit result).2 = s := by
  cases result with
  | ok p => cases h
  | error e => rfl

theorem transits_of_transition {transition : AuthorityRow → Except StoreError AuthorityRow}
    (h : authorityTransition s key transition call.control = .ok (row', s'))
    (htransits : ∀ {row}, s.row key = some row → transition row = .ok row' →
      Transits sys s call key row row') :
    ∃ key row, Transits sys s call key row row' ∧ Transited s call key row' s' := by
  obtain ⟨row, hrow, htransition, hs'⟩ := authorityTransition_eq_ok h
  exact ⟨key, row, htransits hrow htransition, transited_of_eq hs'⟩

/-- **What a call on an authority row does**: a transition, which the answer gives. -/
theorem transits_of_reply (h : ((call.perform sys s).1).row? = some row') :
    ∃ key row, Transits sys s call key row row' ∧ Transited s call key row' (s.after sys call) := by
  cases call with
  | beginPrepare key => exact ⟨key, authorityBeginPrepare_eq_ok (answer_eq_ok h)⟩
  | verifyPrepare key g expected actual =>
    have h := answer_eq_ok h
    rw [authorityVerifyPrepare] at h
    obtain ⟨-, -, h⟩ := bind_eq_ok.mp h
    obtain ⟨-, -, h⟩ := bind_eq_ok.mp h
    exact transits_of_transition h .verifyPrepare
  | ackPrepare key g =>
    have h := answer_eq_ok h
    rw [authorityAckPrepare] at h
    obtain ⟨-, -, h⟩ := bind_eq_ok.mp h
    exact transits_of_transition h .ackPrepare
  | finishPrepare key g expected actual verified =>
    have h := answer_eq_ok h
    rw [authorityFinishPrepare] at h
    obtain ⟨-, -, h⟩ := bind_eq_ok.mp h
    obtain ⟨-, -, h⟩ := bind_eq_ok.mp h
    exact transits_of_transition h .finishPrepare
  | abortPrepare key g =>
    have h := answer_eq_ok h
    rw [authorityAbortPrepare, authorityFinishPrepare] at h
    obtain ⟨-, -, h⟩ := bind_eq_ok.mp h
    obtain ⟨-, -, h⟩ := bind_eq_ok.mp h
    exact transits_of_transition h .abortPrepare
  | beginDrain key lease expires nowMs nanos =>
    have h := answer_eq_ok h
    rw [authorityBeginDrain] at h
    obtain ⟨-, -, h⟩ := bind_eq_ok.mp h
    exact transits_of_transition h .beginDrain
  | drainStep key g step cursor token nowMs =>
    have h := answer_eq_ok h
    rw [authorityDrainStep] at h
    obtain ⟨-, -, h⟩ := bind_eq_ok.mp h
    exact transits_of_transition h .drainStep
  | finishDrain key g expected actual verified token nowMs =>
    have h := answer_eq_ok h
    rw [authorityFinishDrain] at h
    obtain ⟨-, -, h⟩ := bind_eq_ok.mp h
    obtain ⟨-, -, h⟩ := bind_eq_ok.mp h
    exact transits_of_transition h .finishDrain
  | _ => cases h

/-- The calls on authority rows. -/
def Call.onAuthority : Call → Bool
  | beginPrepare .. | verifyPrepare .. | ackPrepare .. | finishPrepare .. | abortPrepare ..
  | beginDrain .. | drainStep .. | finishDrain .. => true
  | _ => false

/-- A call on authority rows that fails changes nothing. -/
theorem after_of_failed (hcall : call.onAuthority = true)
    (h : ((call.perform sys s).1).row? = none) : s.after sys call = s := by
  cases call with
  | beginPrepare | verifyPrepare | ackPrepare | finishPrepare | abortPrepare | beginDrain
  | drainStep | finishDrain => exact answer_eq_none h
  | _ => cases hcall

/-! ## What the other calls do -/

theorem beginClaimStoreRebuild_eq_ok {incarnation : String} {g : Nat}
    (h : beginClaimStoreRebuild sys.toPlatform s incarnation g = .ok s') :
    s.unresolved = 0 ∧ s' = { s with controls := some ⟨incarnation, g, .resetting⟩ } := by
  rw [beginClaimStoreRebuild, check_eq_ok, check_eq_ok] at h
  obtain ⟨-, -, h⟩ := h
  obtain ⟨-, -, h⟩ := bind_eq_ok.mp h
  obtain ⟨hunresolved, h⟩ := check_eq_ok.mp h
  exact ⟨Nat.eq_zero_of_not_pos hunresolved, (Except.ok.inj h).symm⟩

theorem replaceMirror_eq_ok {snapshot : ClaimMirrorSnapshot}
    (h : replaceMirror sys s snapshot = .ok s') :
    ∃ controls mirror, replaceClaimMirrorSnapshot sys s.unresolved s.controls s.mirror
      snapshot = .ok (controls, mirror) ∧ s' = { s with controls, mirror } := by
  rw [replaceMirror] at h
  obtain ⟨⟨controls, mirror⟩, hreplace, h⟩ := bind_eq_ok.mp h
  exact ⟨controls, mirror, hreplace, (Except.ok.inj h).symm⟩

theorem applyReceipt_eq_ok {group : ClaimMirrorReceiptGroup}
    {result : ClaimMirrorApplyResult} (h : applyReceipt sys s group = .ok (result, s')) :
    ∃ mirror, applyClaimMirrorReceipt sys s.controls s.mirror group = .ok (result, mirror) ∧
      s' = { s with mirror } := by
  rw [applyReceipt] at h
  obtain ⟨⟨result, mirror⟩, happly, h⟩ := bind_eq_ok.mp h
  obtain ⟨rfl, rfl⟩ := Prod.mk.inj (Except.ok.inj h)
  exact ⟨mirror, happly, rfl⟩

theorem deleteMirror_eq_ok (h : deleteMirror s = .ok s') :
    ∃ mirror, deleteClaimMirror s.unresolved s.controls = .ok mirror ∧ s' = { s with mirror } := by
  rw [deleteMirror] at h
  obtain ⟨mirror, hdelete, h⟩ := bind_eq_ok.mp h
  exact ⟨mirror, hdelete, (Except.ok.inj h).symm⟩

theorem stageIntent_eq_ok {route : String} {binding : ClaimIntentBinding}
    {command : ClaimCommandIdentity} {request : Json} {nowMs : Int}
    {outcome : ClaimIntentMutationOutcome}
    (h : stageIntent sys s route binding command request nowMs = .ok (outcome, s')) :
    ∃ intents, stageClaimIntent sys.toPlatform sys.toJsonText s.controls
        (s.authorityForRoute route) s.intents binding command request nowMs =
          .ok (outcome, intents) ∧
      s' = { s with intents } := by
  rw [stageIntent] at h
  obtain ⟨⟨outcome, intents⟩, hstage, h⟩ := bind_eq_ok.mp h
  obtain ⟨rfl, rfl⟩ := Prod.mk.inj (Except.ok.inj h)
  exact ⟨intents, hstage, rfl⟩

theorem acknowledgeIntent_eq_ok {binding : ClaimIntentBinding}
    {command : ClaimCommandIdentity} {digest : String} {kind : ClaimIntentAckKind}
    {resultJson : Option String} {nowMs : Int} {outcome : ClaimIntentMutationOutcome}
    (h : acknowledgeIntent sys s binding command digest kind resultJson nowMs = .ok (outcome, s')) :
    ∃ intents, acknowledgeClaimIntent sys.toPlatform sys.toJsonText s.intents binding
        command digest kind resultJson nowMs = .ok (outcome, intents) ∧
      s' = { s with intents } := by
  rw [acknowledgeIntent] at h
  obtain ⟨⟨outcome, intents⟩, hack, h⟩ := bind_eq_ok.mp h
  obtain ⟨rfl, rfl⟩ := Prod.mk.inj (Except.ok.inj h)
  exact ⟨intents, hack, rfl⟩

namespace ClaimStore

/-- A part that no success changes is unchanged by the call. -/
theorem commit_same {ε α β : Type} {result : Except ε (α × ClaimStore)}
    (f : ClaimStore → β) (h : ∀ a s', result = .ok (a, s') → f s' = f s) :
    f (s.commit result).2 = f s := by
  cases result with
  | ok p => exact h p.1 p.2 rfl
  | error e => rfl

theorem commitUnit_same {ε β : Type} {result : Except ε ClaimStore}
    (f : ClaimStore → β) (h : ∀ s', result = .ok s' → f s' = f s) :
    f (s.commitUnit result).2 = f s := by
  cases result with
  | ok s' => exact h s' rfl
  | error e => rfl

/-- Notes are written by no other call but the one that prepares notes. -/
theorem authority_insertNote (s : ClaimStore) (note : Note) :
    (insertNote s note).authority = s.authority := by
  rw [insertNote]
  split <;> rfl

theorem authority_updateNote (s : ClaimStore) (note : Note) :
    (updateNote s note).authority = s.authority := by
  rw [updateNote]
  split <;> rfl

theorem authority_deleteNote (s : ClaimStore) (id : Nat) :
    (deleteNote s id).authority = s.authority := by
  rw [deleteNote]
  split <;> rfl

end ClaimStore

/-- Rows are written by no other call. -/
theorem authority_of_other (hcall : call.onAuthority = false) :
    (s.after sys call).authority = s.authority := by
  cases call with
  | beginRebuild incarnation g =>
    exact commitUnit_same _ fun s' h => (beginClaimStoreRebuild_eq_ok h).2 ▸ rfl
  | replaceMirror snapshot =>
    refine commitUnit_same _ fun s' h => ?_
    obtain ⟨-, -, -, rfl⟩ := replaceMirror_eq_ok h
    rfl
  | applyReceipt group =>
    refine commit_same _ fun result s' h => ?_
    obtain ⟨-, -, rfl⟩ := applyReceipt_eq_ok h
    rfl
  | deleteMirror =>
    refine commitUnit_same _ fun s' h => ?_
    obtain ⟨-, -, rfl⟩ := deleteMirror_eq_ok h
    rfl
  | stage route binding command request nowMs =>
    refine commit_same _ fun outcome s' h => ?_
    obtain ⟨-, -, rfl⟩ := stageIntent_eq_ok h
    rfl
  | acknowledge binding command digest kind resultJson nowMs =>
    refine commit_same _ fun outcome s' h => ?_
    obtain ⟨-, -, rfl⟩ := acknowledgeIntent_eq_ok h
    rfl
  | insertNote note => exact authority_insertNote s note
  | updateNote note => exact authority_updateNote s note
  | deleteNote id => exact authority_deleteNote s id
  | _ => cases hcall

/-- A platform on which nothing is secret and no JSON parses, for sample runs. -/
def plainPlatform : MirrorPlatform where
  detects := fun _ => false
  detectsInTransaction := fun _ => false
  sha256Hex := id
  parse := fun _ => .error "no JSON"
  print := fun _ => ""
  secretShapedKey := fun _ => false

/-- The memories of a project, in a store with a hexadecimal name. -/
def sampleKey (domain : Domain) : AuthorityKey :=
  ⟨"0123456789abcdef0123456789abcdef", "project", domain⟩

/-- The route of the samples. -/
def sampleRoutes (route : String) : Option (String × String) :=
  if route = "route" then some ((sampleKey .memories).contextStoreUuid, "project") else none

end MagicContext.Claims
