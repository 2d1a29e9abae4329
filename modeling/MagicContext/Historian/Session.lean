import MagicContext.Historian.State

/-!
# The session row

A session has one row, with a version that every write raises, and its compartments.  A write names
the version it read and fails if another came in between.  Some transactions also check the stored
historian record.

## What is here

* `SessionStore` — the row and the compartments.
* `load` and `commit` — the two halves of most writes.
* `abandonIfMatching`, `recordPublishFailure` and `publishChunk` — the writes that check the record.
* `resetSessionForRecomp` and `truncateCompartments` — the re-cuts.
-/

namespace MagicContext.Historian

/-! ## Rows -/

/-- How far the rendered prefix covers the history, with the revision it shows. -/
structure RenderMarks where
  coverageOrdinal : Option Nat := none
  coverageStartOrdinal : Option Nat := none
  coverageCompartmentSeq : Option Int := none
  foldedCompartmentSeq : Int := 0
  m1CompartmentSeq : Option Int := none
  m1Revision : Nat := 0
  deriving DecidableEq

/-- The metadata of a session; `rest` stands for the other fields, which no historian transaction
reads. -/
structure ModuleMeta where
  historian : HistorianDurableState := {}
  revertEpoch : Nat := 0
  lastRecut : Option String := none
  blockIdentityByMid : List (String × List String) := []
  publicationFloorOrdinal : Option Nat := none
  marks : RenderMarks := {}
  rest : String := ""
  deriving DecidableEq

structure CacheRow where
  rowVersion : Nat
  core : String
  moduleMeta : ModuleMeta

structure Compartment where
  sequence : Int
  startMessage : Int
  endMessage : Int

structure SessionStore where
  row : Option CacheRow := none
  compartments : List Compartment := []

/-- The scan for secrets that every stored text goes through. -/
structure Scanner where
  scan : ModuleMeta → ModuleMeta
  /-- Numbers and the names of phases are no texts. -/
  scan_state : ∀ m, (scan m).historian.state = m.historian.state
  scan_firingSeq : ∀ m, (scan m).historian.firingSeq = m.historian.firingSeq
  scan_revertEpoch : ∀ m, (scan m).revertEpoch = m.revertEpoch
  scan_publicationFloorOrdinal : ∀ m, (scan m).publicationFloorOrdinal = m.publicationFloorOrdinal
  scan_marks : ∀ m, (scan m).marks = m.marks
  /-- An absent text stays absent. -/
  scan_producerRunId : ∀ m, m.historian.producerRunId = none →
    (scan m).historian.producerRunId = none

attribute [simp] Scanner.scan_state Scanner.scan_firingSeq Scanner.scan_revertEpoch
  Scanner.scan_publicationFloorOrdinal Scanner.scan_marks

structure LoadedState where
  core : String
  moduleMeta : ModuleMeta
  rowVersion : Option Nat

/-- What is read of a session that was never seen: default metadata. -/
def LoadedState.absent : LoadedState := { core := "", moduleMeta := {}, rowVersion := none }

namespace SessionStore

variable (s : SessionStore)

/-- What a read of the row gives. -/
def load : LoadedState :=
  match s.row with
  | none => .absent
  | some r => { core := r.core, moduleMeta := r.moduleMeta, rowVersion := some r.rowVersion }

/-- The stored record. -/
def historian : HistorianDurableState := s.load.moduleMeta.historian

/-- The version to name in a write. -/
def version : Option Nat := s.row.map CacheRow.rowVersion

/-- The store with another row. -/
def withRow (r : CacheRow) : SessionStore := { s with row := some r }

/-- The generation of the stored compartments. -/
def generation : CompartmentSetGeneration where
  maxSequence := (s.compartments.map Compartment.sequence).max?.getD 0
  count := s.compartments.length

end SessionStore

open SessionStore

/-! ## Transactions -/

inductive StoreError where
  | casConflict (expected : Option Nat) (found : Nat)
  /-- The database, the scan or the encoding failed. -/
  | fault

variable (scanner : Scanner)

/-- `commit`: a compare-and-swap on the version. -/
def commit (expected : Option Nat) (core : String) (moduleMeta : ModuleMeta) (s : SessionStore) :
    Except StoreError Nat × SessionStore :=
  if s.version ≠ expected then (.error (.casConflict expected (s.version.getD 0)), s)
  else
    let next := expected.getD 0 + 1
    (.ok next, s.withRow ⟨next, core, scanner.scan moduleMeta⟩)

/-- Writes a row's metadata under the next version. -/
def writeMeta (r : CacheRow) (moduleMeta : ModuleMeta) (s : SessionStore) : Nat × SessionStore :=
  (r.rowVersion + 1, s.withRow ⟨r.rowVersion + 1, r.core, scanner.scan moduleMeta⟩)

/-- `abandon_historian_run_if_matching_with_publish_failure`. -/
def abandonIfMatching (predicate : HistorianPublishPredicate) (failureBackoffAtMs : Option Int)
    (detail : Option String) (countPublishFailure : Bool) (s : SessionStore) :
    Option Nat × SessionStore :=
  match s.row with
  | none => (none, s)
  | some r =>
    let historian := r.moduleMeta.historian
    if !predicate.matches historian || historian.state == .idle then (none, s)
    else
      let (version, s) := writeMeta scanner r { r.moduleMeta with
        historian :=
          { state := .idle
            firingSeq := historian.firingSeq
            failureBackoffAtMs := failureBackoffAtMs
            lastFailure := detail.or historian.lastFailure
            consecutivePublishFailures :=
              if countPublishFailure then saturatingSucc32 historian.consecutivePublishFailures
              else historian.consecutivePublishFailures } } s
      (some version, s)

/-- `record_historian_publish_failure_if_matching`: counts, whatever the phase. -/
def recordPublishFailure (predicate : HistorianPublishPredicate) (s : SessionStore) :
    Option Nat × SessionStore :=
  match s.row with
  | none => (none, s)
  | some r =>
    let historian := r.moduleMeta.historian
    if !predicate.matches historian then (none, s)
    else
      let (version, s) := writeMeta scanner r { r.moduleMeta with
        historian := { historian with
          consecutivePublishFailures := saturatingSucc32 historian.consecutivePublishFailures } } s
      (some version, s)

inductive HistorianPublishError where
  | store
  | casConflict (expected : Option Nat) (found : Nat) (reason : Option String)
  | fenceRejected (reason : String)
  | compartmentOverlap (existingSequence incomingStartMessage incomingEndMessage : Int)
  | stateMismatch (expected : HistorianPublishPredicate) (found : HistorianDurableState)
  | invalidState (state : String)

/-- `append_compartments_tx`: the whole batch is checked before its first row is written. -/
def appendCompartments (existing : List Compartment) (nextSequence : Int) :
    List (Int × Int) → Except HistorianPublishError (List Compartment)
  | [] => .ok existing
  | (startMessage, endMessage) :: rest =>
    match existing.find? fun c => decide (startMessage ≤ c.endMessage) &&
        decide (c.startMessage ≤ endMessage) with
    | some c => .error (.compartmentOverlap c.sequence startMessage endMessage)
    | none => appendCompartments (existing ++ [⟨nextSequence, startMessage, endMessage⟩])
        (nextSequence + 1) rest

/-- What a validated output publishes. -/
structure PublishRequest where
  expectedRowVersion : Option Nat
  expectedRevertEpoch : Nat
  predicate : HistorianPublishPredicate
  compartments : List (Int × Int)
  publicationFloorOrdinal : Nat

/-- The identities of a selected message are no longer the stored ones. -/
def HistorianSelectedMessageIdentity.changed (m : ModuleMeta)
    (selected : HistorianSelectedMessageIdentity) : Bool :=
  (m.blockIdentityByMid.find? fun entry => entry.1 == selected.mid).map Prod.snd !=
    some selected.blockIdentities

/-- `publish_historian_chunk`. -/
def publishChunk (request : PublishRequest) (s : SessionStore) :
    Except HistorianPublishError Nat × SessionStore :=
  match s.row with
  | none => (.error (.invalidState "missing"), s)
  | some r =>
    let m := r.moduleMeta
    if some r.rowVersion ≠ request.expectedRowVersion then
      (.error (.casConflict request.expectedRowVersion r.rowVersion none), s)
    else if m.historian.state ≠ .publishing ∧ m.historian.state ≠ .awaitingProducer then
      (.error (.invalidState m.historian.state.asStr), s)
    else if !request.predicate.matches m.historian then
      (.error (.stateMismatch request.predicate m.historian), s)
    else if request.predicate.selectedRangeIdentities.isEmpty then
      (.error (.fenceRejected "historian firing has no selected-range content identities"), s)
    else match request.predicate.selectedRangeIdentities.find? fun selected =>
        selected.changed m with
    | some selected =>
      (.error (.fenceRejected
        s!"selected historian message {selected.mid} changed after firing"), s)
    | none =>
      if m.revertEpoch ≠ request.expectedRevertEpoch then
        (.error (.casConflict request.expectedRowVersion r.rowVersion
          (some "revert epoch mismatch (session was re-cut mid-firing)")), s)
      else if s.generation ≠ request.predicate.compartmentSetGeneration then
        (.error (.fenceRejected "compartment set changed after firing"), s)
      else match appendCompartments s.compartments (s.generation.maxSequence + 1)
          request.compartments with
      | .error e => (.error e, s)
      | .ok compartments =>
        let (version, s) := writeMeta scanner r { m with
          publicationFloorOrdinal := some (max (m.publicationFloorOrdinal.getD 1)
            (max request.publicationFloorOrdinal 1))
          historian := idleAfterSuccess m.historian.firingSeq } s
        (.ok version, { s with compartments := compartments })

/-- `reset_session_for_recomp`: the row gets default metadata with the next epoch. -/
def resetSessionForRecomp (expectedRowVersion : Option Nat) (s : SessionStore) :
    Except StoreError Nat × SessionStore :=
  match s.row with
  | none => (.error (.casConflict expectedRowVersion 0), s)
  | some r =>
    if some r.rowVersion ≠ expectedRowVersion then
      (.error (.casConflict expectedRowVersion r.rowVersion), s)
    else
      let epoch := saturatingSucc r.moduleMeta.revertEpoch
      (.ok (r.rowVersion + 1),
        { row := some
            { rowVersion := r.rowVersion + 1
              core := ""
              moduleMeta :=
                { revertEpoch := epoch
                  lastRecut :=
                    some s!"native recomp reset all compartments; epoch {epoch}" } }
          compartments := [] })

/-- `truncate_compartments_for_revert`; `recut` is the text of the diagnostic. -/
def truncateCompartments (keepThroughSeq : Int) (recut : String) (expectedRowVersion : Option Nat)
    (s : SessionStore) : Except StoreError Nat × SessionStore :=
  match s.row with
  | none => (.error (.casConflict expectedRowVersion 0), s)
  | some r =>
    if some r.rowVersion ≠ expectedRowVersion then
      (.error (.casConflict expectedRowVersion r.rowVersion), s)
    else if !s.compartments.any fun c => decide (keepThroughSeq < c.sequence) then
      (.ok r.rowVersion, s)
    else
      let (version, s) := writeMeta scanner r { r.moduleMeta with
        revertEpoch := saturatingSucc r.moduleMeta.revertEpoch
        lastRecut := some recut } s
      (.ok version, { s with
        compartments := s.compartments.filter fun c => decide (c.sequence ≤ keepThroughSeq) })

/-! ## What the transactions do to the record -/

section Effects
variable {scanner} {s s' : SessionStore}

theorem historian_of_row {r : CacheRow} (h : s.row = some r) :
    s.historian = r.moduleMeta.historian := by
  rw [historian, load, h]

variable {expected : Option Nat}

/-- A compare-and-swap that succeeds found the version it names, and stores what it was given. -/
theorem commit_eq_ok {core : String} {m : ModuleMeta} {version : Nat}
    (h : commit scanner expected core m s = (.ok version, s')) :
    s.version = expected ∧ s'.historian = (scanner.scan m).historian := by
  rw [commit] at h
  split at h
  · cases h
  · rename_i hversion
    cases h
    exact ⟨not_not.mp hversion, rfl⟩

theorem commit_eq_error {core : String} {m : ModuleMeta} {e : StoreError}
    (h : commit scanner expected core m s = (.error e, s')) : s' = s := by
  rw [commit] at h
  split at h
  · cases h
    rfl
  · cases h

/-- The single flight is given back. -/
structure Releases (h h' : HistorianDurableState) : Prop where
  state : h'.state = .idle
  firingSeq : h'.firingSeq = h.firingSeq
  producerRunId : h'.producerRunId = none

theorem releases_scan {h : HistorianDurableState} {m : ModuleMeta}
    (hm : Releases h m.historian) : Releases h (scanner.scan m).historian where
  state := (scanner.scan_state m).trans hm.state
  firingSeq := (scanner.scan_firingSeq m).trans hm.firingSeq
  producerRunId := scanner.scan_producerRunId m hm.producerRunId

/-- An abandonment that the record does not match changes nothing; another finds a live record of
the predicate's number. -/
theorem abandonIfMatching_cases {predicate : HistorianPublishPredicate} {backoff : Option Int}
    {detail : Option String} {count : Bool} {result : Option Nat}
    (h : abandonIfMatching scanner predicate backoff detail count s = (result, s')) :
    s' = s ∨ s.historian.Live ∧ s.historian.firingSeq = predicate.firingSeq ∧
      Releases s.historian s'.historian := by
  rw [abandonIfMatching] at h
  split at h
  · cases h
    exact .inl rfl
  · rename_i r hrow
    dsimp only at h
    split at h
    · cases h
      exact .inl rfl
    · rename_i hmatch
      cases h
      simp only [Bool.or_eq_true, Bool.not_eq_true', beq_iff_eq, not_or, Bool.not_eq_false]
        at hmatch
      rw [historian_of_row hrow]
      exact .inr ⟨hmatch.2, matches_firingSeq hmatch.1, releases_scan ⟨rfl, rfl, rfl⟩⟩

/-- A count keeps the phase and the number. -/
theorem recordPublishFailure_cases {predicate : HistorianPublishPredicate} {result : Option Nat}
    (h : recordPublishFailure scanner predicate s = (result, s')) :
    s' = s ∨ predicate.matches s.historian = true ∧
      s'.historian.state = s.historian.state ∧ s'.historian.firingSeq = s.historian.firingSeq := by
  rw [recordPublishFailure] at h
  split at h
  · cases h
    exact .inl rfl
  · rename_i r hrow
    dsimp only at h
    split at h
    · cases h
      exact .inl rfl
    · rename_i hmatch
      cases h
      rw [historian_of_row hrow]
      exact .inr ⟨by simpa using hmatch, scanner.scan_state _, scanner.scan_firingSeq _⟩

/-- A publication that fails changes nothing; another finds a live record of the predicate's
number. -/
theorem publishChunk_cases {request : PublishRequest}
    {result : Except HistorianPublishError Nat}
    (h : publishChunk scanner request s = (result, s')) :
    s' = s ∨ s.historian.Live ∧ s.historian.firingSeq = request.predicate.firingSeq ∧
      Releases s.historian s'.historian := by
  rw [publishChunk] at h
  split at h
  · cases h
    exact .inl rfl
  · rename_i r hrow
    dsimp only at h
    split at h
    · cases h
      exact .inl rfl
    split at h
    · cases h
      exact .inl rfl
    rename_i hphase
    split at h
    · cases h
      exact .inl rfl
    rename_i hmatch
    split at h
    · cases h
      exact .inl rfl
    split at h
    · cases h
      exact .inl rfl
    split at h
    · cases h
      exact .inl rfl
    split at h
    · cases h
      exact .inl rfl
    split at h
    · cases h
      exact .inl rfl
    · cases h
      rw [historian_of_row hrow]
      refine .inr ⟨?_, matches_firingSeq (by simpa using hmatch), releases_scan ⟨rfl, rfl, rfl⟩⟩
      -- the phase is publishing or awaiting
      intro hidle
      exact hphase ⟨by rw [hidle]; nofun, by rw [hidle]; nofun⟩

/-! ## Versions

A row that changes gets a higher version, so that a version names one row. -/

/-- The row is the same, or a later version of it. -/
def Follows (s s' : SessionStore) : Prop :=
  s'.row = s.row ∨ ∃ r', s'.row = some r' ∧ ∀ r, s.row = some r → r.rowVersion < r'.rowVersion

theorem Follows.refl (s : SessionStore) : Follows s s := .inl rfl

theorem Follows.trans {s₁ s₂ s₃ : SessionStore} (h₁ : Follows s₁ s₂) (h₂ : Follows s₂ s₃) :
    Follows s₁ s₃ := by
  rcases h₁ with hrow₁ | ⟨r₂, hr₂, hlt₁⟩
  · rw [Follows, ← hrow₁]
    exact h₂
  · rcases h₂ with hrow₂ | ⟨r₃, hr₃, hlt₂⟩
    · exact .inr ⟨r₂, hrow₂.trans hr₂, hlt₁⟩
    · exact .inr ⟨r₃, hr₃, fun r hr => (hlt₁ r hr).trans (hlt₂ r₂ hr₂)⟩

/-- What was read under the version that the row still has is what the row says. -/
theorem Follows.load_eq (h : Follows s s') (hversion : s'.version = s.load.rowVersion) :
    s'.load = s.load := by
  rcases h with hrow | ⟨r', hr', hlt⟩
  · rw [load, load, hrow]
  · cases hrow : s.row with
    | none =>
      rw [version, load, hr', hrow] at hversion
      cases hversion
    | some r =>
      rw [version, load, hr', hrow] at hversion
      have hne : r'.rowVersion = r.rowVersion := Option.some.inj hversion
      exact absurd (hlt r hrow) (by omega)

theorem follows_of_row {r r' : CacheRow} (hrow : s.row = some r) (hrow' : s'.row = some r')
    (hversion : r'.rowVersion = r.rowVersion + 1) : Follows s s' := by
  refine .inr ⟨r', hrow', fun r₀ hr₀ => ?_⟩
  cases hrow.symm.trans hr₀
  omega

theorem commit_follows (expected : Option Nat) (core : String) (m : ModuleMeta)
    (s : SessionStore) : Follows s (commit scanner expected core m s).2 := by
  rw [commit]
  split
  · exact Follows.refl s
  · rename_i hversion
    refine .inr ⟨_, rfl, fun r hr => ?_⟩
    have hexpected : some r.rowVersion = expected := by
      rw [← not_not.mp hversion, version, hr]
      rfl
    rw [← hexpected]
    exact Nat.lt_succ_self _

theorem abandonIfMatching_follows (predicate : HistorianPublishPredicate) (backoff : Option Int)
    (detail : Option String) (count : Bool) (s : SessionStore) :
    Follows s (abandonIfMatching scanner predicate backoff detail count s).2 := by
  rw [abandonIfMatching]
  split
  · exact Follows.refl s
  · rename_i r hrow
    dsimp only
    split
    · exact Follows.refl s
    · exact follows_of_row hrow rfl rfl

theorem recordPublishFailure_follows (predicate : HistorianPublishPredicate) (s : SessionStore) :
    Follows s (recordPublishFailure scanner predicate s).2 := by
  rw [recordPublishFailure]
  split
  · exact Follows.refl s
  · rename_i r hrow
    dsimp only
    split
    · exact Follows.refl s
    · exact follows_of_row hrow rfl rfl

theorem publishChunk_follows (request : PublishRequest) (s : SessionStore) :
    Follows s (publishChunk scanner request s).2 := by
  rw [publishChunk]
  split
  · exact Follows.refl s
  · rename_i r hrow
    dsimp only
    iterate 4
      split
      · exact Follows.refl s
    split
    · exact Follows.refl s
    split
    · exact Follows.refl s
    split
    · exact Follows.refl s
    split
    · exact Follows.refl s
    · exact follows_of_row hrow rfl rfl

theorem resetSessionForRecomp_follows (expected : Option Nat) (s : SessionStore) :
    Follows s (resetSessionForRecomp expected s).2 := by
  rw [resetSessionForRecomp]
  split
  · exact Follows.refl s
  · rename_i r hrow
    split
    · exact Follows.refl s
    · exact follows_of_row hrow rfl rfl

theorem truncateCompartments_follows (keepThroughSeq : Int) (recut : String)
    (expected : Option Nat) (s : SessionStore) :
    Follows s (truncateCompartments scanner keepThroughSeq recut expected s).2 := by
  rw [truncateCompartments]
  split
  · exact Follows.refl s
  · rename_i r hrow
    split
    · exact Follows.refl s
    split
    · exact Follows.refl s
    · exact follows_of_row hrow rfl rfl

/-- A truncation writes the record it read. -/
theorem truncateCompartments_cases {keepThroughSeq : Int} {recut : String} :
    (truncateCompartments scanner keepThroughSeq recut expected s).2 = s ∨
      ∃ m : ModuleMeta, m.historian = s.historian ∧
        (truncateCompartments scanner keepThroughSeq recut expected s).2.historian =
          (scanner.scan m).historian := by
  rw [truncateCompartments]
  split
  · exact .inl rfl
  · rename_i r hrow
    split
    · exact .inl rfl
    split
    · exact .inl rfl
    · refine .inr ⟨{ r.moduleMeta with
        revertEpoch := saturatingSucc r.moduleMeta.revertEpoch
        lastRecut := some recut }, (historian_of_row hrow).symm, rfl⟩

/-- A reset that goes through leaves the default record. -/
theorem resetSessionForRecomp_cases : (resetSessionForRecomp expected s).2 = s ∨
      s.version = expected ∧ (resetSessionForRecomp expected s).2.historian = {} := by
  rw [resetSessionForRecomp]
  split
  · exact .inl rfl
  · rename_i r hrow
    split
    · exact .inl rfl
    · rename_i hversion
      refine .inr ⟨?_, rfl⟩
      rw [version, hrow]
      exact not_not.mp hversion

end Effects

end MagicContext.Historian
