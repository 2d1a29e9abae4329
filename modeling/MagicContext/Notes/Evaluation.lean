import MagicContext.Claims.Store
import MagicContext.Notes.Store

/-!
# Evaluation of notes

Evaluators acquire a pending note, check its condition outside the store and complete, under a
lease. An acquisition that is repeated is answered as before: with its claim, with the terminal
result of its claim, or with the decision that there was no work.  An evaluator that comes back
under another acquisition gets the claim of its slot, which then carries that acquisition; the id of
the claim stays what it was made from.

## What is here

* `EvalClaim`, `Acquisition`, `Ledgers` — the two ledgers beside the notes and the authority rows.
* `collect` — what every acquisition clears first.
* `acquireNoteEvaluation`, `renewNoteEvaluationClaim`, `completeNoteEvaluation`,
  `abandonNoteEvaluationClaim` — the calls.
* `editNotes`, `transition` — edits and changes of hands, which fence claims.
* `EvalEvent`, `EvalState.step`, `run` — all of them in any order.
-/

namespace MagicContext.Notes

open Claims (StoreError AuthorityKey AuthorityRow AuthorityEntry Platform)

/-! ## Ledgers -/

inductive TerminalKind where
  | stale | expired | authorityChanged | abandoned | invalid | applied
  deriving DecidableEq

/-- What a terminal claim answers with. -/
inductive Response where
  | kind (kind : TerminalKind)
  | invalid (error : String)
  | applied (noteId : Nat) (ready : Bool) (stateVersion : Nat) (checkStatus : String)
  deriving DecidableEq

/-- The terminal columns of a claim, which are set together. -/
structure Terminal where
  kind : TerminalKind
  /-- It is redacted long before the row goes. -/
  response : Option Response
  atMs : Int
  deriving DecidableEq

/-- A row of `mc_note_eval_claims`. -/
structure EvalClaim where
  claimId : String
  project : String
  noteId : Nat
  phase : String
  acquisitionId : String
  evaluatorInstance : String
  evaluatorSlot : Int
  registrationGeneration : Int
  sourceRevision : Nat
  stateVersion : Nat
  policyVersion : Int
  authorityGeneration : Nat
  expiresAt : Int
  createdAtMs : Int
  completionId : Option String := none
  terminal : Option Terminal := none
  deriving DecidableEq

def EvalClaim.active (c : EvalClaim) : Bool := c.terminal.isNone

inductive Decision where
  /-- An expired decision is forgotten, and its acquisition id is not. -/
  | tombstone
  | noWork (cycleExhausted : Bool)
  deriving DecidableEq

/-- A row of `mc_note_eval_acquisitions`. -/
structure Acquisition where
  project : String
  acquisitionId : String
  decision : Decision
  expiresAt : Int

def Acquisition.key (a : Acquisition) : String × String := (a.project, a.acquisitionId)

structure Ledgers where
  notes : Notes := .empty
  authority : Table AuthorityEntry.key := .empty
  claims : Table EvalClaim.claimId := .empty
  acquisitions : Table Acquisition.key := .empty

def claimLeaseMs : Int := 120000
def noWorkRetentionMs : Int := 600000
def terminalRetentionMs : Int := 604800000
def responseRedactMs : Int := 86400000
def ledgerCap : Nat := 10000
def idMaxLen : Nat := 200

/-- `note_eval_valid_id`. -/
def validId (id : String) : Bool := decide (id ≠ "" ∧ id.utf8ByteSize ≤ idMaxLen)

/-- A claim that becomes terminal. -/
def EvalClaim.end (c : EvalClaim) (kind : TerminalKind) (response : Response)
    (completionId : Option String) (now : Int) : EvalClaim :=
  { c with
    terminal := some ⟨kind, some response, now⟩
    completionId := completionId.or c.completionId }

/-- Active claims that satisfy `p` become terminal. -/
def endWhere (p : EvalClaim → Bool) (kind : TerminalKind) (response : Response)
    (completionId : Option String) (now : Int) (claims : Table EvalClaim.claimId) :
    Table EvalClaim.claimId :=
  claims.update (fun c => c.active && p c) (fun c => c.end kind response completionId now) fun _ => rfl

namespace Ledgers

variable (s : Ledgers)

variable (project : String)

/-- `mark_note_eval_claim_terminal_tx`. -/
def markTerminal (claimId : String) (kind : TerminalKind) (response : Response)
    (completionId : Option String) (now : Int) : Ledgers :=
  { s with
    claims := endWhere (fun c => decide (c.project = project ∧ c.claimId = claimId)) kind response
      completionId now s.claims }

/-- `fence_active_note_claims_tx`; without a note, all claims of the project. -/
def fence (note : Option Nat) (kind : TerminalKind) (now : Int) : Ledgers :=
  { s with
    claims := endWhere (fun c => decide (c.project = project ∧ note.all (c.noteId = ·))) kind
      (.kind kind) none now s.claims }

/-- The response of a terminal claim that is old enough goes. -/
def redact (now : Int) (claims : Table EvalClaim.claimId) : Table EvalClaim.claimId :=
  claims.update
    (fun c => decide (c.project = project) &&
      c.terminal.any fun t => t.response.isSome && decide (t.atMs ≤ now - responseRedactMs))
    (fun c => { c with terminal := c.terminal.map fun t => { t with response := none } }) fun _ => rfl

/-- `collect_note_eval_ledgers_tx`. -/
def collect (now : Int) : Ledgers :=
  let expired := endWhere (fun c => decide (c.project = project ∧ c.expiresAt ≤ now)) .expired
    (.kind .expired) none now s.claims
  let forgotten := s.acquisitions.update
    (fun a => decide (a.project = project ∧ a.decision ≠ .tombstone ∧ a.expiresAt ≤ now))
    (fun a => { a with decision := .tombstone }) fun _ => rfl
  { s with
    acquisitions := forgotten.delete fun a => decide (a.project = project ∧
      a.decision = .tombstone ∧ a.expiresAt ≤ now - noWorkRetentionMs)
    claims := (redact project now expired).delete fun c => decide (c.project = project) &&
      c.terminal.any fun t => decide (t.atMs ≤ now - terminalRetentionMs) }

/-- `note_eval_module_authority_tx`: the generation of the module's row for the notes of a
project. -/
def moduleAuthority : Option Nat :=
  let rows := s.authority.select fun e => decide (e.key.project = project ∧ e.key.domain = .notes ∧
    e.row.state = .MODULE)
  let ordered := rows.mergeSort fun a b => decide (a.key.contextStoreUuid ≤ b.key.contextStoreUuid)
  ordered.head?.map fun e => e.row.generation

/-- The claim of an acquisition. -/
def claimOf (acquisitionId : String) : Option EvalClaim :=
  (s.claims.select fun c => decide (c.project = project ∧ c.acquisitionId = acquisitionId)).head?

/-- The active claim of a slot. -/
def slotClaim (evaluatorInstance : String) (evaluatorSlot : Int) : Option EvalClaim :=
  (s.claims.select fun c => c.active && decide (c.project = project ∧
    c.evaluatorInstance = evaluatorInstance ∧ c.evaluatorSlot = evaluatorSlot)).head?

/-- `load_note_eval_claim_tx`. -/
def loadClaim (claimId : String) : Option EvalClaim :=
  (s.claims.get claimId).filter fun c => decide (c.project = project)

def activeClaims : Nat :=
  s.claims.count fun c => c.active && decide (c.project = project)

end Ledgers

/-! ## Acquisitions -/

/-- What the caller's selection answers. -/
inductive Selection where
  | claim (noteId : Nat) (phase : String)
  | noWork (cycleExhausted : Bool)

structure Acquire where
  project : String
  acquisitionId : String
  evaluatorInstance : String
  evaluatorSlot : Int
  registrationGeneration : Int
  select : List Note → Selection
  nowMs : Int

inductive AcquireOutcome where
  | claim (claim : EvalClaim) (note : Note) (replayed : Bool)
  | noWork (replayed cycleExhausted : Bool)
  | expired
  | terminal (kind : TerminalKind) (response : Option Response)
  | busy
  | authorityChanged
  | invalid

/-- The id of a claim is made from the acquisition that makes it. -/
def evalClaimId (sys : Platform) (project acquisitionId : String) : String :=
  "nec:" ++ sys.sha256Hex (project ++ "\x00" ++ acquisitionId)

namespace Acquire

variable (a : Acquire)

def valid : Bool :=
  decide (a.project ≠ "") && validId a.acquisitionId && validId a.evaluatorInstance &&
    decide (0 ≤ a.evaluatorSlot)

variable (c : EvalClaim)

/-- The caller is the evaluator of the claim. -/
def evaluates : Bool :=
  decide (c.evaluatorInstance = a.evaluatorInstance ∧ c.evaluatorSlot = a.evaluatorSlot)

def rebound : EvalClaim :=
  { c with
    registrationGeneration := a.registrationGeneration
    expiresAt := a.nowMs + claimLeaseMs
    acquisitionId := a.acquisitionId }

theorem claimId_rebound : (a.rebound c).claimId = c.claimId := rfl

/-- `rebind_note_eval_claim_tx`, under the constraint on acquisition ids. -/
def rebind (s : Ledgers) : Except StoreError (AcquireOutcome × Ledgers) :=
  if s.claims.any fun other => decide (other.claimId ≠ c.claimId ∧ other.project = a.project ∧
      other.acquisitionId = a.acquisitionId) then .error .constraint
  else
    let s : Ledgers := { s with
      claims := s.claims.update
        (fun row => row.active && decide (row.project = a.project ∧ row.claimId = c.claimId)) a.rebound
        a.claimId_rebound }
    match (s.notes.get c.noteId).filter fun n => decide (n.projectPath = a.project) with
    | none => .ok (.invalid, s)
    | some note => .ok (.claim (a.rebound c) note true, s)

/-- The pending notes that no active claim has. -/
def candidates (s : Ledgers) : List Note :=
  (s.notes.rows.select fun n => decide (n.projectPath = a.project ∧ n.type = .smart ∧
    n.status = .pending) &&
      !s.claims.any fun c => c.active && decide (c.project = a.project ∧ c.noteId = n.id)).mergeSort
    fun n m => decide (n.id ≤ m.id)

def newClaim (sys : Platform) (generation : Nat) (phase : String) (note : Note) : EvalClaim where
  claimId := evalClaimId sys a.project a.acquisitionId
  project := a.project
  noteId := note.id
  phase := phase
  acquisitionId := a.acquisitionId
  evaluatorInstance := a.evaluatorInstance
  evaluatorSlot := a.evaluatorSlot
  registrationGeneration := a.registrationGeneration
  sourceRevision := note.sourceRevision
  stateVersion := note.stateVersion
  policyVersion := note.check.policyVersion
  authorityGeneration := generation
  expiresAt := a.nowMs + claimLeaseMs
  createdAtMs := a.nowMs

/-- The unique indexes of the claims, its primary key apart. -/
def conflicts (other : EvalClaim) : Bool :=
  decide (other.project = c.project) && (decide (other.acquisitionId = c.acquisitionId) ||
    (other.active && (decide (other.noteId = c.noteId) || decide
      (other.evaluatorInstance = c.evaluatorInstance ∧ other.evaluatorSlot = c.evaluatorSlot))))

/-- A claim on a note that was selected. -/
def insertClaim (sys : Platform) (generation : Nat) (phase : String) (note : Note)
    (s : Ledgers) : Except StoreError (AcquireOutcome × Ledgers) :=
  let c := a.newClaim sys generation phase note
  if s.claims.any (conflicts c) then .error .constraint
  else
    match s.claims.insert c with
    | none => .error .constraint
    | some claims => .ok (.claim c note false, { s with claims })

/-- The decision that there is no work. -/
def insertDecision (cycleExhausted : Bool) (s : Ledgers) :
    Except StoreError (AcquireOutcome × Ledgers) :=
  match s.acquisitions.insert ⟨a.project, a.acquisitionId, .noWork cycleExhausted,
      a.nowMs + noWorkRetentionMs⟩ with
  | none => .error .constraint
  | some acquisitions => .ok (.noWork false cycleExhausted, { s with acquisitions })

def phases : List String := ["compile", "due", "liveness", "fallback"]

/-- New work, or the decision that there is none. -/
def fresh (sys : Platform) (cap generation : Nat) (s : Ledgers) :
    Except StoreError (AcquireOutcome × Ledgers) :=
  match a.select (a.candidates s) with
  | .noWork cycleExhausted =>
    if cap ≤ s.acquisitions.count (fun d => decide (d.project = a.project ∧ d.decision ≠ .tombstone))
    then .ok (.busy, s)
    else a.insertDecision cycleExhausted s
  | .claim noteId phase =>
    if phase ∉ phases then .ok (.invalid, s)
    else
      match (a.candidates s).find? fun n => decide (n.id = noteId) with
      | none => .ok (.invalid, s)
      | some note =>
        if cap ≤ s.activeClaims a.project then .ok (.busy, s)
        else a.insertClaim sys generation phase note s

/-- What a decision is replayed as. -/
def replay : Decision → AcquireOutcome
  | .tombstone => .expired
  | .noWork cycleExhausted => .noWork true cycleExhausted

/-- An acquisition that no claim carries. -/
def unclaimed (sys : Platform) (cap : Nat) (s : Ledgers) :
    Except StoreError (AcquireOutcome × Ledgers) :=
  match s.acquisitions.get (a.project, a.acquisitionId) with
  | some row => .ok (replay row.decision, s)
  | none =>
    match s.moduleAuthority a.project with
    | none => .ok (.authorityChanged, s)
    | some generation =>
      match s.slotClaim a.project a.evaluatorInstance a.evaluatorSlot with
      | some c => a.rebind c s
      | none => a.fresh sys cap generation s

/-- A claim that carries the acquisition. -/
def claimed (s : Ledgers) : Except StoreError (AcquireOutcome × Ledgers) :=
  match c.terminal with
  | some t => .ok (.terminal t.kind t.response, s)
  | none => if a.evaluates c then a.rebind c s else .ok (.invalid, s)

end Acquire

/-- `acquire_note_evaluation_with_cap`. -/
def acquireNoteEvaluation (sys : Platform) (cap : Nat) (a : Acquire) (s : Ledgers) :
    Except StoreError (AcquireOutcome × Ledgers) :=
  if a.valid then
    let s := s.collect a.project a.nowMs
    match s.claimOf a.project a.acquisitionId with
    | some c => a.claimed c s
    | none => a.unclaimed sys cap s
  else .ok (.invalid, s)

/-! ## Renewals, completions and cancellations -/

structure Renew where
  project : String
  claimId : String
  evaluatorInstance : String
  evaluatorSlot : Int
  registrationGeneration : Int
  nowMs : Int

inductive RenewOutcome where
  | renewed (expiresAt : Int)
  | terminalReplay (kind : TerminalKind) (response : Option Response)
  | unknownClaim | expired | authorityChanged | invalid

/-- `renew_note_evaluation_claim`. -/
def renewNoteEvaluationClaim (r : Renew) (s : Ledgers) : RenewOutcome × Ledgers :=
  match s.loadClaim r.project r.claimId with
  | none => (.unknownClaim, s)
  | some c =>
    match c.terminal with
    | some t => (.terminalReplay t.kind t.response, s)
    | none =>
      if c.evaluatorInstance ≠ r.evaluatorInstance ∨ c.evaluatorSlot ≠ r.evaluatorSlot then
        (.invalid, s)
      else if c.expiresAt ≤ r.nowMs then
        (.expired, s.markTerminal r.project r.claimId .expired (.kind .expired) none r.nowMs)
      else if s.moduleAuthority r.project ≠ some c.authorityGeneration then (.authorityChanged, s)
      else
        (.renewed (r.nowMs + claimLeaseMs),
          { s with
            claims := s.claims.update
              (fun row => row.active && decide (row.project = r.project ∧ row.claimId = r.claimId))
              (fun row => { row with
                expiresAt := r.nowMs + claimLeaseMs
                registrationGeneration := r.registrationGeneration })
              fun _ => rfl })

/-- The note is as the claim saw it. -/
def EvalClaim.saw (c : EvalClaim) (n : Note) : Bool :=
  decide (n.sourceRevision = c.sourceRevision ∧ n.stateVersion = c.stateVersion ∧ n.status = .pending)

structure Complete where
  project : String
  claimId : String
  completionId : String
  evaluatorInstance : String
  evaluatorSlot : Int
  nowMs : Int
  /-- Nothing where the reduced status is neither pending nor ready. -/
  apply : EvalClaim → Note → Except String (Option Reduced)

inductive CompleteOutcome where
  | applied (response : Response)
  | replayed (response : Response)
  | unknownClaim
  | completionConflict
  | conflict (kind : TerminalKind)

/-- The kind that a conflict with a terminal claim has. -/
def conflictKind : TerminalKind → TerminalKind
  | .stale => .stale
  | .expired => .expired
  | .authorityChanged => .authorityChanged
  | _ => .invalid

namespace Complete

variable (e : Complete)

/-- The claim is terminal with this. -/
def ends (s : Ledgers) (kind : TerminalKind) (response : Response) : CompleteOutcome × Ledgers :=
  (.conflict kind, s.markTerminal e.project e.claimId kind response none e.nowMs)

/-- The answer for a claim that is terminal. -/
def settled (c : EvalClaim) (t : Terminal) : CompleteOutcome :=
  match c.completionId with
  | none => .conflict (conflictKind t.kind)
  | some stored =>
    if stored = e.completionId then
      match t.response with
      | some response => .replayed response
      | none => .conflict .expired
    else .completionConflict

/-- The claim is live, and its note is as it was; the update then finds the row that was read. -/
def commit (c : EvalClaim) (note : Note) (s : Ledgers) : CompleteOutcome × Ledgers :=
  match e.apply c note with
  | .error message => e.ends s .invalid (.invalid message)
  | .ok none => e.ends s .invalid (.kind .invalid)
  | .ok (some reduced) =>
    let response : Response :=
      .applied c.noteId reduced.ready (c.stateVersion + 1) reduced.check.checkStatus
    let s : Ledgers :=
      { s with notes := s.notes.applyReduced e.project c.noteId c.stateVersion reduced }
    (.applied response,
      s.markTerminal e.project e.claimId .applied response (some e.completionId) e.nowMs)

end Complete

/-- `complete_note_evaluation`. -/
def completeNoteEvaluation (e : Complete) (s : Ledgers) : CompleteOutcome × Ledgers :=
  if !validId e.completionId then (.conflict .invalid, s)
  else
    match s.loadClaim e.project e.claimId with
    | none => (.unknownClaim, s)
    | some c =>
      match c.terminal with
      | some t => (e.settled c t, s)
      | none =>
        if c.evaluatorInstance ≠ e.evaluatorInstance ∨ c.evaluatorSlot ≠ e.evaluatorSlot then
          (.conflict .invalid, s)
        else if c.expiresAt ≤ e.nowMs then e.ends s .expired (.kind .expired)
        else if s.moduleAuthority e.project ≠ some c.authorityGeneration then
          e.ends s .authorityChanged (.kind .authorityChanged)
        else
          match (s.notes.get c.noteId).filter fun n => decide (n.projectPath = e.project) with
          | none => e.ends s .stale (.kind .stale)
          | some note =>
            if c.saw note then e.commit c note s else e.ends s .stale (.kind .stale)

structure Abandon where
  project : String
  claimId : String
  evaluatorInstance : String
  evaluatorSlot : Int
  nowMs : Int

inductive AbandonOutcome where
  | abandoned
  | replayed (kind : TerminalKind)
  | unknownClaim
  | invalid

/-- `abandon_note_evaluation_claim`. -/
def abandonNoteEvaluationClaim (b : Abandon) (s : Ledgers) : AbandonOutcome × Ledgers :=
  match s.loadClaim b.project b.claimId with
  | none => (.unknownClaim, s)
  | some c =>
    match c.terminal with
    | some t => (.replayed t.kind, s)
    | none =>
      if c.evaluatorInstance ≠ b.evaluatorInstance ∨ c.evaluatorSlot ≠ b.evaluatorSlot then
        (.invalid, s)
      else
        (.abandoned, s.markTerminal b.project b.claimId .abandoned (.kind .abandoned) none b.nowMs)

/-! ## Edits and changes of hands -/

def Edit.nowMs : Edit → Int
  | .insert _ _ _ _ _ _ now => now
  | .update _ _ _ _ _ _ _ now => now
  | .dismiss _ _ _ _ now => now
  | .dismissCas _ _ _ _ _ now => now
  | .claimDue _ now => now
  | .evaluate input => input.nowMs
  | .complete _ _ _ reduced => reduced.updatedAtMs

/-- The note whose claims an edit fences, if it writes it. -/
def Edit.fences : Edit → Option (String × Nat)
  | .update project id _ _ _ _ _ _ => some (project, id)
  | .dismiss project _ id _ _ => some (project, id)
  | _ => none

/-- An edit that writes a row raises its versions, so that the row differs. -/
def editNotes (e : Edit) (s : Ledgers) : Ledgers :=
  let notes := s.notes.apply e
  match e.fences with
  | none => { s with notes }
  | some (project, id) =>
    if notes.get id = s.notes.get id then { s with notes }
    else ({ s with notes } : Ledgers).fence project (some id) .stale e.nowMs

inductive Transition where
  | beginPrepare
  | verifyPrepare (generation : Nat) (expected actual : String)
  | ackPrepare (generation : Nat)
  | finishPrepare (generation : Nat) (expected actual : String) (verified : Bool)
  | beginDrain (lease : String) (leaseExpiresAt : Int) (feedHead nanos : Nat)
  | drainStep (generation : Nat) (step : Claims.DrainStep) (cursor : Option Int) (token : String)
  | finishDrain (generation : Nat) (expected actual : String) (verified : Bool) (token : String)
      (feedHead : Nat)

namespace Transition

def perform (sys : Platform) (now : Int) (row : AuthorityRow) :
    Transition → Except StoreError AuthorityRow
  | .beginPrepare => row.beginPrepare.map Prod.snd
  | .verifyPrepare generation expected actual => row.verifyPrepare generation expected actual
  | .ackPrepare generation => row.ackPrepare generation
  | .finishPrepare generation expected actual verified =>
    row.finishPrepare generation expected actual verified
  | .beginDrain lease leaseExpiresAt feedHead nanos =>
    row.beginDrain sys lease leaseExpiresAt now feedHead nanos
  | .drainStep generation step cursor token => row.drainStep generation step cursor token now
  | .finishDrain generation expected actual verified token feedHead =>
    row.finishDrain generation expected actual verified token now feedHead

/-- Whoever prepares for the module or drains it fences the claims of the project. -/
def fences (row : AuthorityRow) : Transition → Bool
  | .beginPrepare => decide (row.state = .TS)
  | .ackPrepare _ => true
  | .finishPrepare _ _ _ _ => true
  | .beginDrain _ _ _ _ => decide (row.state = .MODULE)
  | _ => false

/-- The module's notes of an earlier period go. -/
def deletes (row : AuthorityRow) : Transition → Bool
  | .beginPrepare => decide (row.state = .TS)
  | _ => false

end Transition

/-- The notes of a project that were seeded from a store. -/
def deleteOwned (notes : Notes) (key : AuthorityKey) : Notes where
  rows := notes.rows.delete fun n => decide (n.contextStoreUuid = some key.contextStoreUuid ∧
    n.projectPath = key.project)
  nextId := notes.nextId
  below n hn := notes.below n (Table.mem_delete.mp hn).1

/-- The row that a transition starts from; the first one makes it. -/
def authorityRow (s : Ledgers) (key : AuthorityKey) : Transition → Option AuthorityRow
  | .beginPrepare => some (((s.authority.get key).map AuthorityEntry.row).getD {})
  | _ => (s.authority.get key).map AuthorityEntry.row

def transition (sys : Platform) (key : AuthorityKey) (t : Transition) (now : Int) (s : Ledgers) :
    Ledgers :=
  match authorityRow s key t with
  | none => s
  | some row =>
    match t.perform sys now row with
    | .error _ => s
    | .ok row' =>
      let notes := if key.domain = .notes ∧ t.deletes row then s.notes.deleteOwned key else s.notes
      let s := if key.domain = .notes ∧ t.fences row then
        s.fence key.project none .authorityChanged now else s
      { s with notes, authority := s.authority.put ⟨key, row'⟩ }

/-! ## Runs -/

inductive EvalEvent where
  | acquire (a : Acquire)
  | renew (r : Renew)
  | complete (e : Complete)
  | abandon (b : Abandon)
  | edit (e : Edit)
  | transition (key : AuthorityKey) (t : Transition) (now : Int)

def EvalEvent.nowMs : EvalEvent → Int
  | .acquire a => a.nowMs
  | .renew r => r.nowMs
  | .complete e => e.nowMs
  | .abandon b => b.nowMs
  | .edit e => e.nowMs
  | .transition _ _ now => now

/-- An acquisition that was answered with a claim. -/
structure Answered where
  project : String
  acquisitionId : String
  claimId : String
  createdAtMs : Int

structure EvalState where
  ledgers : Ledgers
  answered : List Answered := []

namespace EvalState

/-- What the answer of an acquisition is remembered as. -/
def answer (a : Acquire) : AcquireOutcome → List Answered
  | .claim c _ _ => [⟨a.project, a.acquisitionId, c.claimId, c.createdAtMs⟩]
  | _ => []

def step (sys : Platform) (cap : Nat) (s : EvalState) : EvalEvent → EvalState
  | .acquire a =>
    match acquireNoteEvaluation sys cap a s.ledgers with
    | .error _ => s
    | .ok (outcome, ledgers) => { ledgers, answered := s.answered ++ answer a outcome }
  | .renew r => { s with ledgers := (renewNoteEvaluationClaim r s.ledgers).2 }
  | .complete e => { s with ledgers := (completeNoteEvaluation e s.ledgers).2 }
  | .abandon b => { s with ledgers := (abandonNoteEvaluationClaim b s.ledgers).2 }
  | .edit e => { s with ledgers := editNotes e s.ledgers }
  | .transition key t now => { s with ledgers := transition sys key t now s.ledgers }

def run (sys : Platform) (cap : Nat) (start : Ledgers) (events : List EvalEvent) : EvalState :=
  events.foldl (step sys cap) { ledgers := start }

end EvalState

end MagicContext.Notes
