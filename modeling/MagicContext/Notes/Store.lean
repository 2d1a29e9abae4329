import MagicContext.Lib.Table
import MagicContext.Text

/-!
# Notes

A smart note waits for a condition.  Evaluators check it under compare-and-swap, on the version of
the note's status or of its state, and a verdict that it is true makes the note ready.  Whoever
edits a note, dismisses it or changes its status raises both versions.

Texts are scrubbed of secrets on their way into the store, and stand here as they are stored.  A
call that the scan refuses changes nothing, and is no call here.

## What is here

* `Note`, `Notes` — the rows, and the next id.
* `insertNote`, `updateNoteCas`, `dismissNote`, `transitionNote`, `dismissNoteCas`,
  `claimDueNote`, `writeNoteEvaluation`, `applyReduced` — what writes them.
* `Moves`, `Edit.Moves` — what a write does to a row, and one lemma that every write does that.
-/

namespace MagicContext.Notes

/-! ## Rows -/

inductive NoteType where
  | session | smart
  deriving DecidableEq

inductive NoteStatus where
  | active | pending | ready | surfacing | surfaced | dismissed
  deriving DecidableEq

/-- The columns that evaluators write. -/
structure Check where
  readyAt : Option Int := none
  readyReason : Option String := none
  lastCheckedAt : Option Int := none
  compiledCheck : Option String := none
  manifestJson : Option String := none
  checkHash : Option String := none
  checkCron : Option String := none
  checkVersion : Int := 0
  checkStatus : String := "uncompiled"
  checkFailureCount : Int := 0
  checkNetworkFailureCount : Int := 0
  checkQuarantinedUntil : Option Int := none
  checkNextDueAt : Option Int := none
  checkCompiledAt : Option Int := none
  checkFalseSinceAt : Option Int := none
  checkLastLivenessAt : Option Int := none
  policyVersion : Int := 1
  compiledSourceRevision : Option Int := none
  compiledProjectPath : Option String := none
  deriving DecidableEq

/-- `NoteConditionCompile`: who has compiled the condition. -/
structure Compile where
  compiledProvider : Option String := none
  compiledConfig : Option String := none
  compiledAt : Option Int := none
  compileStatus : Option String := none
  deriving DecidableEq

structure Note where
  id : Nat
  type : NoteType
  projectPath : String
  /-- The store of the host that the note was seeded from. -/
  contextStoreUuid : Option String := none
  sessionId : Option String
  content : String
  status : NoteStatus
  surfaceCondition : Option String
  check : Check := {}
  compile : Compile := {}
  dismissedAt : Option Int := none
  dismissalResolution : Option String := none
  statusVersion : Nat := 0
  sourceRevision : Nat := 0
  stateVersion : Nat := 0
  createdAtMs : Int
  updatedAtMs : Int
  deriving DecidableEq

end Notes

structure Notes where
  rows : Table Notes.Note.id
  nextId : Nat
  below : ∀ n ∈ rows, n.id < nextId

namespace Notes

inductive CasOutcome where
  | applied (note : Note)
  | conflict (current : Option Note)
  /-- The note belongs to another project. -/
  | ownershipMismatch

def empty : Notes := ⟨.empty, 1, fun _ h => absurd h List.not_mem_nil⟩

def get (notes : Notes) (id : Nat) : Option Note := notes.rows.get id

/-- An `UPDATE` of one row, under the conditions of its `WHERE`; the row keeps its key. -/
def updateRow (notes : Notes) (id : Nat) (cond : Note → Bool) (f : Note → Note) : Notes where
  rows := notes.rows.update (fun n => decide (n.id = id) && cond n) (fun n => { f n with id := n.id })
    fun _ => rfl
  nextId := notes.nextId
  below := by
    intro n hn
    obtain ⟨old, hold, rfl⟩ := Table.mem_update.mp hn
    split
    · exact notes.below old hold
    · exact notes.below old hold

/-- The row that an `UPDATE` has left. -/
def outcome (notes : Notes) (id : Nat) : CasOutcome :=
  match notes.get id with
  | some note => .applied note
  | none => .conflict none

/-! ## Writes -/

/-- `updated_at_ms`, and both versions. -/
def Note.touched (n : Note) (now : Int) : Note :=
  { n with
    statusVersion := n.statusVersion + 1, stateVersion := n.stateVersion + 1, updatedAtMs := now }

/-- A smart note with a condition waits for it. -/
def initialStatus (type : NoteType) (surfaceCondition : Option String) : NoteStatus :=
  if type = .smart ∧ surfaceCondition.isSome then .pending else .active

/-- `insert_project_note` and `insert_note`. -/
def insertNote (notes : Notes) (type : NoteType) (projectPath : String) (sessionId : Option String)
    (content : String) (surfaceCondition : Option String) (compile : Compile) (now : Int) :
    Notes where
  rows := notes.rows.put
    { id := notes.nextId, type, projectPath, sessionId, content
      status := initialStatus type surfaceCondition
      surfaceCondition, compile, createdAtMs := now, updatedAtMs := now }
  nextId := notes.nextId + 1
  below := by
    intro n hn
    rcases Table.mem_put.mp hn with ⟨hold, -⟩ | rfl
    · exact Nat.lt_succ_of_lt (notes.below n hold)
    · exact Nat.lt_succ_self _

/-- A condition that is not blank, without the white space around it. -/
def conditionText (condition : Option String) : Option String :=
  (condition.map Text.trimText).filter fun c => c ≠ ""

/-- What an edit makes of a row. -/
def Note.edited (n : Note) (content : String) (condition : Option (Option String))
    (status : NoteStatus) (compile : Compile) (now : Int) : Note :=
  { n.touched now with
    content
    status
    surfaceCondition := condition.getD n.surfaceCondition
    sourceRevision := n.sourceRevision + 1
    check := { policyVersion := n.check.policyVersion }
    compile := if condition.isSome then compile else n.compile }

/-- `update_note_cas`.  `condition` is `some none` where the condition is taken away. -/
def updateNoteCas (notes : Notes) (projectPath : String) (id : Nat) (expectedStatus : NoteStatus)
    (expectedVersion : Nat) (content : Option String) (condition : Option (Option String))
    (compile : Compile) (now : Int) : CasOutcome × Notes :=
  match notes.get id with
  | none => (.conflict none, notes)
  | some current =>
    if current.projectPath ≠ projectPath then (.ownershipMismatch, notes)
    else if current.status ≠ expectedStatus ∨ current.statusVersion ≠ expectedVersion then
      (.conflict (some current), notes)
    else
      let nextContent := (content.map Text.trimText).getD current.content
      if nextContent = "" then (.conflict (some current), notes)
      else
        let nextCondition := conditionText (condition.getD none)
        let currentCondition := conditionText current.surfaceCondition
        let conditionChanged := condition.isSome && decide (nextCondition ≠ currentCondition)
        if !conditionChanged && decide (nextContent = current.content) then (.applied current, notes)
        else
          let remaining := if conditionChanged then nextCondition else currentCondition
          let status := if remaining.isSome then .pending else current.status
          let notes := notes.updateRow id
            (fun n => decide (n.projectPath = projectPath ∧ n.status = expectedStatus ∧
              n.statusVersion = expectedVersion))
            fun n => n.edited nextContent (if conditionChanged then some nextCondition else none)
              status compile now
          (notes.outcome id, notes)

/-- `dismiss_note_tx`; a session that is given must have written the note. -/
def dismissNote (notes : Notes) (projectPath : String) (session : Option String) (id : Nat)
    (resolution : Option String) (now : Int) : Notes :=
  match notes.get id with
  | none => notes
  | some current =>
    if current.projectPath ≠ projectPath ∨
        session.any (fun s => decide (current.sessionId.getD "" ≠ s)) ∨
        current.status = .dismissed then notes
    else
      let resolution := (resolution.map Text.trimText).filter fun r => r ≠ ""
      notes.updateRow id
        (fun n => decide (n.projectPath = projectPath ∧ n.status = current.status ∧
          n.statusVersion = current.statusVersion))
        fun n => { n.touched now with
          status := .dismissed
          content := (resolution.map fun r => n.content ++ "\n\nResolution: " ++ r).getD n.content
          dismissedAt := some now
          dismissalResolution := resolution }

/-- `transition_note_internal`. -/
def transitionNote (notes : Notes) (projectPath : String) (id : Nat) (expectedStatus : NoteStatus)
    (expectedVersion : Nat) (toStatus : NoteStatus) (result : Option String) (now : Int) :
    CasOutcome × Notes :=
  match notes.get id with
  | none => (.conflict none, notes)
  | some current =>
    if current.projectPath ≠ projectPath then (.ownershipMismatch, notes)
    else if current.status ≠ expectedStatus ∨ current.statusVersion ≠ expectedVersion then
      (.conflict (some current), notes)
    else
      let notes := notes.updateRow id
        (fun n => decide (n.projectPath = projectPath ∧ n.status = expectedStatus ∧
          n.statusVersion = expectedVersion))
        fun n => { n.touched now with
          status := toStatus
          check := if toStatus = .ready then
              { n.check with
                readyAt := n.check.readyAt.or (some now), readyReason := result.or n.check.readyReason }
            else n.check
          dismissedAt := if toStatus = .dismissed then some now else n.dismissedAt
          dismissalResolution := if toStatus = .dismissed then result else n.dismissalResolution }
      (notes.outcome id, notes)

/-- `dismiss_note_cas`: a second attempt, under what the first one has found. -/
def dismissNoteCas (notes : Notes) (projectPath : String) (id : Nat) (expectedStatus : NoteStatus)
    (expectedVersion : Nat) (resolution : Option String) (now : Int) : CasOutcome × Notes :=
  match notes.transitionNote projectPath id expectedStatus expectedVersion .dismissed resolution now
    with
  | (.conflict (some current), after) =>
    if current.status ≠ .dismissed then
      after.transitionNote projectPath id current.status current.statusVersion .dismissed resolution
        now
    else (.conflict (some current), after)
  | result => result

/-- `claim_due_note`: the first pending note whose check is due, which is then taken from other
evaluators by its new version. -/
def claimDueNote (notes : Notes) (projectPath : String) (now : Int) : Option Note × Notes :=
  let due := notes.rows.select fun n =>
    decide (n.projectPath = projectPath ∧ n.type = .smart ∧ n.status = .pending ∧
      n.check.checkNextDueAt.all (· ≤ now) ∧ n.check.checkQuarantinedUntil.all (· ≤ now))
  let ordered := due.mergeSort fun a b =>
    decide (a.check.checkNextDueAt.getD 0 < b.check.checkNextDueAt.getD 0 ∨
      (a.check.checkNextDueAt.getD 0 = b.check.checkNextDueAt.getD 0 ∧ a.id ≤ b.id))
  match ordered.head? with
  | none => (none, notes)
  | some note =>
    let notes := notes.updateRow note.id
      (fun n => decide (n.projectPath = projectPath ∧ n.status = .pending ∧
        n.statusVersion = note.statusVersion))
      fun n => n.touched now
    (notes.get note.id, notes)

structure Evaluation where
  projectPath : String
  noteId : Nat
  sourceRevision : Nat
  verdict : Bool
  compiledCheck : Option String
  manifestJson : Option String
  checkHash : Option String
  nextDueAt : Option Int
  nowMs : Int

/-- `write_note_evaluation`. -/
def writeNoteEvaluation (notes : Notes) (input : Evaluation) : CasOutcome × Notes :=
  match notes.get input.noteId with
  | none => (.conflict none, notes)
  | some current =>
    if current.projectPath ≠ input.projectPath then (.ownershipMismatch, notes)
    else if current.status ≠ .pending ∨ current.statusVersion ≠ input.sourceRevision then
      (.conflict (some current), notes)
    else
      let notes := notes.updateRow input.noteId
        (fun n => decide (n.projectPath = input.projectPath ∧ n.status = .pending ∧
          n.statusVersion = input.sourceRevision))
        fun n => { n.touched input.nowMs with
          status := if input.verdict then .ready else .pending
          check := { n.check with
            readyAt := if input.verdict then some input.nowMs else n.check.readyAt
            readyReason := if input.verdict then some "condition_true" else n.check.readyReason
            compiledCheck := input.compiledCheck
            manifestJson := input.manifestJson
            checkHash := input.checkHash
            checkNextDueAt := input.nextDueAt
            lastCheckedAt := some input.nowMs
            checkStatus := if input.verdict then "true" else "false" } }
      (notes.outcome input.noteId, notes)

/-- `NoteEvalReducedState`: what a completed evaluation makes of a note. -/
structure Reduced where
  /-- `pending` or `ready`. -/
  ready : Bool
  updatedAtMs : Int
  check : Check

/-- The write of a completion, under the version of the state that its claim saw. -/
def applyReduced (notes : Notes) (projectPath : String) (id stateVersion : Nat) (reduced : Reduced) :
    Notes :=
  notes.updateRow id
    (fun n => decide (n.projectPath = projectPath ∧ n.status = .pending ∧
      n.stateVersion = stateVersion))
    fun n => { n.touched reduced.updatedAtMs with
      status := if reduced.ready then .ready else .pending
      check := reduced.check }

/-! ## All of them -/

inductive Edit where
  | insert (type : NoteType) (projectPath : String) (sessionId : Option String) (content : String)
      (surfaceCondition : Option String) (compile : Compile) (now : Int)
  | update (projectPath : String) (id : Nat) (expectedStatus : NoteStatus) (expectedVersion : Nat)
      (content : Option String) (condition : Option (Option String)) (compile : Compile) (now : Int)
  | dismiss (projectPath : String) (session : Option String) (id : Nat) (resolution : Option String)
      (now : Int)
  | dismissCas (projectPath : String) (id : Nat) (expectedStatus : NoteStatus)
      (expectedVersion : Nat) (resolution : Option String) (now : Int)
  | claimDue (projectPath : String) (now : Int)
  | evaluate (input : Evaluation)
  | complete (projectPath : String) (id stateVersion : Nat) (reduced : Reduced)

def apply (notes : Notes) : Edit → Notes
  | .insert type project session content condition compile now =>
    notes.insertNote type project session content condition compile now
  | .update project id status version content condition compile now =>
    (notes.updateNoteCas project id status version content condition compile now).2
  | .dismiss project session id resolution now => notes.dismissNote project session id resolution now
  | .dismissCas project id status version resolution now =>
    (notes.dismissNoteCas project id status version resolution now).2
  | .claimDue project now => (notes.claimDueNote project now).2
  | .evaluate input => (notes.writeNoteEvaluation input).2
  | .complete project id version reduced => notes.applyReduced project id version reduced

/-! ## What writes do to a row -/

/-- The row is in the same place, and its status has changed in a way that edits can change it. -/
structure Note.Moves (n n' : Note) : Prop where
  id : n'.id = n.id
  type : n'.type = n.type
  projectPath : n'.projectPath = n.projectPath
  status : n'.status = n.status ∨ n'.status = .dismissed ∨ n'.status = .pending ∨
    (n.status = .pending ∧ n'.status = .ready)

theorem Note.Moves.refl (n : Note) : n.Moves n := ⟨rfl, rfl, rfl, .inl rfl⟩

variable {notes : Notes} {id : Nat} {n : Note}

theorem get_updateRow (cond : Note → Bool) (f : Note → Note) (k : Nat) :
    (notes.updateRow id cond f).get k =
      (notes.get k).map fun n => if decide (n.id = id) && cond n then { f n with id := n.id } else n := by
  rw [get, updateRow, Table.get_update]
  rfl

section
variable (h : notes.get id = some n)
include h

theorem id_of_get : n.id = id := (Table.get_eq_some.mp h).2

theorem lt_of_get : id < notes.nextId := by
  rw [← id_of_get h]
  exact notes.below n (Table.get_eq_some.mp h).1

/-- An update moves a row if what it writes is a move. -/
theorem moves_updateRow {k : Nat} {cond : Note → Bool} {f : Note → Note}
    (hf : cond n = true → n.Moves { f n with id := n.id }) :
    ∃ n', (notes.updateRow k cond f).get id = some n' ∧ n.Moves n' := by
  rw [get_updateRow, h, Option.map_some]
  refine ⟨_, rfl, ?_⟩
  split
  · rename_i hcond
    exact hf (Bool.and_eq_true_iff.mp hcond).2
  · exact Note.Moves.refl n

theorem moves_transitionNote {project : String} {k version : Nat} {status : NoteStatus}
    {result : Option String} {now : Int} :
    ∃ n', (notes.transitionNote project k status version .dismissed result now).2.get id = some n' ∧
      n.Moves n' := by
  unfold transitionNote
  split
  · exact ⟨n, h, Note.Moves.refl n⟩
  · split
    · exact ⟨n, h, Note.Moves.refl n⟩
    · split
      · exact ⟨n, h, Note.Moves.refl n⟩
      · exact moves_updateRow h fun _ => ⟨rfl, rfl, rfl, .inr (.inl rfl)⟩

end

/-- A conflict that names the row has changed nothing. -/
theorem transitionNote_conflict {project : String} {k version : Nat} {status toStatus : NoteStatus}
    {result : Option String} {now : Int} {current : Note} {after : Notes}
    (h : notes.transitionNote project k status version toStatus result now =
      (.conflict (some current), after)) : after = notes := by
  unfold transitionNote at h
  split at h
  · cases h
  · split at h
    · cases h
    · split at h
      · cases h
        rfl
      · simp only [outcome] at h
        split at h <;> cases h

/-- Every edit moves every row. -/
theorem moves_apply (edit : Edit) (h : notes.get id = some n) :
    ∃ n', (notes.apply edit).get id = some n' ∧ n.Moves n' := by
  have stays : ∃ n', notes.get id = some n' ∧ n.Moves n' := ⟨n, h, Note.Moves.refl n⟩
  cases edit with
  | insert type project session content condition compile now =>
    refine ⟨n, ?_, Note.Moves.refl n⟩
    refine (Table.get_put id).trans ?_
    rw [if_neg (lt_of_get h).ne']
    exact h
  | update project k status version content condition compile now =>
    simp only [apply, updateNoteCas]
    split
    · exact stays
    · rename_i current hcurrent
      split
      · exact stays
      · split
        · exact stays
        · rename_i hexpected
          split
          · exact stays
          · split
            · exact stays
            · refine moves_updateRow h fun hcond => ⟨rfl, rfl, rfl, ?_⟩
              rw [decide_eq_true_eq] at hcond
              have hsame : current.status = n.status :=
                (not_not.mp (not_or.mp hexpected).1).trans hcond.2.1.symm
              have hwaits : ∀ waits : Bool, (if waits then .pending else n.status) = n.status ∨
                  (if waits then .pending else n.status) = .dismissed ∨
                  (if waits then .pending else n.status) = NoteStatus.pending ∨
                  (n.status = .pending ∧ (if waits then .pending else n.status) = .ready) := by
                intro waits
                cases waits with
                | true => exact .inr (.inr (.inl rfl))
                | false => exact .inl rfl
              simp only [Note.edited, hsame]
              exact hwaits _
  | dismiss project session k resolution now =>
    simp only [apply, dismissNote]
    split
    · exact stays
    · split
      · exact stays
      · exact moves_updateRow h fun _ => ⟨rfl, rfl, rfl, .inr (.inl rfl)⟩
  | dismissCas project k status version resolution now =>
    simp only [apply, dismissNoteCas]
    split
    · rename_i current after hfirst
      obtain rfl := transitionNote_conflict hfirst
      split
      · exact moves_transitionNote h
      · exact stays
    · exact moves_transitionNote h
  | claimDue project now =>
    simp only [apply, claimDueNote]
    split
    · exact stays
    · exact moves_updateRow h fun _ => ⟨rfl, rfl, rfl, .inl rfl⟩
  | evaluate input =>
    simp only [apply, writeNoteEvaluation]
    split
    · exact stays
    · split
      · exact stays
      · split
        · exact stays
        · refine moves_updateRow h fun hcond => ⟨rfl, rfl, rfl, ?_⟩
          rw [decide_eq_true_eq] at hcond
          cases input.verdict with
          | true => exact .inr (.inr (.inr ⟨hcond.2.1, rfl⟩))
          | false => exact .inr (.inr (.inl rfl))
  | complete project k version reduced =>
    refine moves_updateRow h fun hcond => ⟨rfl, rfl, rfl, ?_⟩
    rw [decide_eq_true_eq] at hcond
    cases hready : reduced.ready with
    | true => exact .inr (.inr (.inr ⟨hcond.2.1, by simp⟩))
    | false => exact .inr (.inr (.inl (by simp)))

end MagicContext.Notes
