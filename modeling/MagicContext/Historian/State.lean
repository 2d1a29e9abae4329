import MagicContext.Lib.Checks
import MagicContext.Text

/-!
# The historian's state

A historian firing sends a range of a session's messages to a producer, waits for its output,
validates it and publishes it.  The session's metadata records how far the firing has come, so that
a restart can pick it up.  A firing is started from the idle state only, and takes the next number
of the session.

## What is here

* `HistorianDurableState` — the record.
* `fire`, `producerStarted`, `outputReceived`, `validationOk`,
  `idleAfterSuccess` and `abandonWithDetail` — the transitions.
* `historianProducerSessionId` — the name of a firing's producer session.
-/

namespace MagicContext.Historian

/-! ## The record -/

def u64Max : Nat := 2 ^ 64 - 1

/-- `saturating_add(1)` on a `u64`. -/
def saturatingSucc (n : Nat) : Nat := min (n + 1) u64Max

/-- `saturating_add(1)` on a `u32`. -/
def saturatingSucc32 (n : Nat) : Nat := min (n + 1) (2 ^ 32 - 1)

inductive HistorianPhase where
  | idle | firing | awaitingProducer | validating | publishing
  deriving DecidableEq

def HistorianPhase.asStr : HistorianPhase → String
  | idle => "idle"
  | firing => "firing"
  | awaitingProducer => "awaiting_producer"
  | validating => "validating"
  | publishing => "publishing"

/-- The range of messages pinned for one run. -/
structure HistorianChunkRange where
  fromOrdinal : Nat
  toOrdinal : Nat
  deriving DecidableEq

/-- The content identity of one selected message. -/
structure HistorianSelectedMessageIdentity where
  mid : String
  blockIdentities : List String
  deriving DecidableEq

/-- The generation of the complete compartment set. -/
structure CompartmentSetGeneration where
  maxSequence : Int := 0
  count : Int := 0
  deriving DecidableEq

/-- The idle state keeps `firingSeq` as the last issued number and clears the rest. -/
structure HistorianDurableState where
  state : HistorianPhase := .idle
  firingSeq : Nat := 0
  chunkRange : Option HistorianChunkRange := none
  chunkFingerprint : String := ""
  selectedRangeIdentities : List HistorianSelectedMessageIdentity := []
  producerSessionId : Option String := none
  producerRunId : Option String := none
  producerHarness : Option String := none
  firedAtMs : Option Int := none
  expectedRevertEpoch : Nat := 0
  compartmentSetGeneration : CompartmentSetGeneration := {}
  failureBackoffAtMs : Option Int := none
  lastFailure : Option String := none
  lastNoFire : Option String := none
  consecutivePublishFailures : Nat := 0
  deriving DecidableEq

/-- What a publication checks the stored record against. -/
structure HistorianPublishPredicate where
  firingSeq : Nat
  producerRunId : String
  chunkFingerprint : String
  selectedRangeIdentities : List HistorianSelectedMessageIdentity
  compartmentSetGeneration : CompartmentSetGeneration

/-- The range a firing is for, with the fences it carries. -/
structure Snapshot where
  fromOrdinal : Nat
  toOrdinal : Nat
  chunkFingerprint : String
  selectedRangeIdentities : List HistorianSelectedMessageIdentity
  expectedRevertEpoch : Nat
  compartmentSetGeneration : CompartmentSetGeneration

/-! ## Transitions -/

inductive FireOutcome where
  | fired (state : HistorianDurableState)
  | busy (state : HistorianDurableState)

inductive HistorianStateError where
  | invalidRange (fromOrdinal toOrdinal : Nat)
  | invalidTransition (phase : HistorianPhase) (event : String)
  | missingProducerIds (firingSeq : Nat)
  | fingerprintMismatch (expected found : String)
  | store
  | publish

variable (current : HistorianDurableState)

/-- Only an idle session fires; any other returns its state. -/
def fire (snapshot : Snapshot) (firedAtMs : Int) : Except HistorianStateError FireOutcome :=
  if snapshot.toOrdinal < snapshot.fromOrdinal then
    .error (.invalidRange snapshot.fromOrdinal snapshot.toOrdinal)
  else if current.state ≠ .idle then .ok (.busy current)
  else .ok (.fired
    { state := .firing
      firingSeq := saturatingSucc current.firingSeq
      chunkRange := some ⟨snapshot.fromOrdinal, snapshot.toOrdinal⟩
      chunkFingerprint := snapshot.chunkFingerprint
      selectedRangeIdentities := snapshot.selectedRangeIdentities
      producerSessionId := none
      producerRunId := none
      producerHarness := none
      firedAtMs := some firedAtMs
      expectedRevertEpoch := snapshot.expectedRevertEpoch
      compartmentSetGeneration := snapshot.compartmentSetGeneration
      failureBackoffAtMs := current.failureBackoffAtMs
      lastFailure := current.lastFailure
      lastNoFire := none
      consecutivePublishFailures := current.consecutivePublishFailures })

def requirePhase (expected : HistorianPhase) (event : String) : Except HistorianStateError Unit :=
  if current.state = expected then .ok () else .error (.invalidTransition current.state event)

/-- Establishing a producer run clears the failure of the firing before. -/
def producerStarted (producerSessionId producerRunId producerHarness : String) :
    Except HistorianStateError HistorianDurableState := do
  requirePhase current .firing "producer_started"
  return { current with
    state := .awaitingProducer
    producerSessionId := some producerSessionId
    producerRunId := some producerRunId
    producerHarness := some producerHarness
    failureBackoffAtMs := none
    lastFailure := none }

def outputReceived : Except HistorianStateError HistorianDurableState := do
  requirePhase current .awaitingProducer "output_received"
  return { current with state := .validating }

def validationOk : Except HistorianStateError HistorianDurableState := do
  requirePhase current .validating "validation_ok"
  return { current with state := .publishing }

def idleAfterSuccess (firingSeq : Nat) : HistorianDurableState := { firingSeq := firingSeq }

/-- Releases the single flight; the failed number is kept, and the next firing raises it. -/
def abandonWithDetail (failureBackoffAtMs : Int)
    (detail : Option String) : HistorianDurableState where
  state := .idle
  firingSeq := current.firingSeq
  failureBackoffAtMs := some failureBackoffAtMs
  lastFailure := detail.or current.lastFailure
  consecutivePublishFailures := current.consecutivePublishFailures

def abandon (failureBackoffAtMs : Int) : HistorianDurableState :=
  abandonWithDetail current failureBackoffAtMs none

def publishPredicate (state : HistorianDurableState) :
    Except HistorianStateError HistorianPublishPredicate :=
  match state.producerRunId with
  | none => .error (.missingProducerIds state.firingSeq)
  | some producerRunId => .ok
    { firingSeq := state.firingSeq
      producerRunId := producerRunId
      chunkFingerprint := state.chunkFingerprint
      selectedRangeIdentities := state.selectedRangeIdentities
      compartmentSetGeneration := state.compartmentSetGeneration }

/-- The record is of the run that the predicate describes. -/
def HistorianPublishPredicate.matches (predicate : HistorianPublishPredicate)
    (historian : HistorianDurableState) : Bool :=
  historian.firingSeq == predicate.firingSeq &&
    historian.producerRunId == some predicate.producerRunId &&
    historian.chunkFingerprint == predicate.chunkFingerprint &&
    historian.selectedRangeIdentities == predicate.selectedRangeIdentities &&
    historian.compartmentSetGeneration == predicate.compartmentSetGeneration

/-! ## What the transitions keep -/

/-- A firing has taken the session and not released it. -/
def HistorianDurableState.Live (h : HistorianDurableState) : Prop := h.state ≠ .idle

instance (h : HistorianDurableState) : Decidable h.Live :=
  inferInstanceAs (Decidable (h.state ≠ .idle))

variable {current next : HistorianDurableState}

theorem fire_eq_fired {snapshot : Snapshot} {now : Int}
    (h : fire current snapshot now = .ok (.fired next)) :
    current.state = .idle ∧ next.firingSeq = saturatingSucc current.firingSeq ∧ next.Live := by
  rw [fire] at h
  split at h
  · cases h
  · split at h
    · cases h
    · rename_i hidle
      cases h
      exact ⟨not_not.mp hidle, rfl, nofun⟩

theorem requirePhase_eq_ok {expected : HistorianPhase} {event : String} {u : Unit}
    (h : requirePhase current expected event = .ok u) : current.state = expected := by
  rw [requirePhase] at h
  split at h
  · assumption
  · cases h

theorem producerStarted_eq_ok {id run harness : String}
    (h : producerStarted current id run harness = .ok next) :
    next.firingSeq = current.firingSeq ∧ next.Live := by
  rw [producerStarted] at h
  obtain ⟨-, -, h⟩ := Checks.bind_eq_ok.mp h
  cases h
  exact ⟨rfl, nofun⟩

theorem outputReceived_eq_ok (h : outputReceived current = .ok next) :
    current.Live ∧ next.firingSeq = current.firingSeq ∧ next.Live := by
  rw [outputReceived] at h
  obtain ⟨u, hphase, h⟩ := Checks.bind_eq_ok.mp h
  cases h
  refine ⟨?_, rfl, nofun⟩
  rw [HistorianDurableState.Live, requirePhase_eq_ok hphase]
  nofun

theorem validationOk_eq_ok (h : validationOk current = .ok next) :
    next.firingSeq = current.firingSeq ∧ next.Live := by
  rw [validationOk] at h
  obtain ⟨-, -, h⟩ := Checks.bind_eq_ok.mp h
  cases h
  exact ⟨rfl, nofun⟩

theorem publishPredicate_firingSeq {state : HistorianDurableState}
    {predicate : HistorianPublishPredicate} (h : publishPredicate state = .ok predicate) :
    predicate.firingSeq = state.firingSeq := by
  rw [publishPredicate] at h
  split at h
  · cases h
  · cases h
    rfl

theorem matches_firingSeq {predicate : HistorianPublishPredicate}
    {historian : HistorianDurableState} (h : predicate.matches historian = true) :
    historian.firingSeq = predicate.firingSeq := by
  simp only [HistorianPublishPredicate.matches, Bool.and_eq_true, beq_iff_eq] at h
  exact h.1.1.1.1

/-! ## Producer sessions -/

/-- `is_ascii_alphanumeric`, or one of the marks a slug may contain. -/
def slugChar (c : Char) : Bool :=
  c.isAlphanum || c == '-' || c == '_' || c == '.'

/-- The slug of a project, for use within an id. -/
def producerSlug (projectSlug : String) : String :=
  let slug := projectSlug.toList.map fun c => if slugChar c then c else '-'
  let slug := (slug.dropWhile (· == '-')).reverse.dropWhile (· == '-') |>.reverse
  if slug.isEmpty then "project" else String.ofList slug

/-- The 64-bit FNV-1a hash. -/
def fnv1a (bytes : List UInt8) : UInt64 :=
  bytes.foldl (fun hash byte => (hash ^^^ byte.toUInt64) * 0x100000001b3) 0xcbf29ce484222325

/-- Sixteen hexadecimal digits. -/
def fnv1aHex16 (input : String) : String :=
  let digits := Nat.toDigits 16 (fnv1a input.toUTF8.data.toList).toNat
  String.ofList (List.replicate (16 - digits.length) '0' ++ digits)

/-- A producer session is unique per lineage and firing. -/
def historianProducerSessionId (projectSlug sessionId : String) (firingSeq : Nat) : String :=
  "mc-historian:" ++ producerSlug projectSlug ++ ":" ++ fnv1aHex16 sessionId ++ ":" ++
    toString firingSeq

end MagicContext.Historian
