import MagicContext.Historian.Session
import MagicContext.Historian.Validate

/-!
# Publications

A publication appends the compartments of a validated output.  What else the output says, the events
of the history, questions to prime other sessions with and observations of the user, is queued in
the same transaction, and a drain takes it to its tables later, one item in a transaction.  A
truncation or a reset takes back what came after the point it goes back to.

## What is here

* `toStoreEvent`, `toStorePrimer`, `toStoreUserObservation` — candidates for the tables.
* `HistorianStore` — a session with its queue and the tables.
* `publishHistorianChunk` — the publication.
* `loadDue`, `deliver`, `recordFailure`, `deleteDelivered` — the transactions of a drain.
* `HistorianOp` — the transactions that change a session's history.
-/

namespace MagicContext.Historian

/-! ## Candidates -/

structure HistorianEventCandidate where
  kind : String
  atCompartment : Option Nat
  compartmentId : Option Nat
  fields : List (String × String)
  createdAt : Int
  harness : String := "module"
  deriving DecidableEq

structure HistorianPrimerCandidate where
  projectPath : String
  sessionId : String
  question : String
  sourceCompartmentStart : Option Nat
  sourceCompartmentEnd : Option Nat
  sourceStartMessageId : String
  sourceEndMessageId : String
  sourceMessageTime : Int
  createdAt : Int

structure HistorianUserMemoryCandidate where
  content : String
  sessionId : String
  sourceCompartmentStart : Option Nat
  sourceCompartmentEnd : Option Nat
  createdAt : Int

/-- The compartment that an output refers to by its number, from one on. -/
def sourceCompartment (compartments : List ValidatedCompartment) (origin : Option Nat) :
    Option ValidatedCompartment :=
  origin.bind fun index => if index = 0 then none else compartments[index - 1]?

def toStoreEvent (event : ParsedEvent) (compartments : List ValidatedCompartment)
    (createdAt : Int) : HistorianEventCandidate where
  kind := event.kind
  atCompartment := event.atCompartment
  compartmentId :=
    (sourceCompartment compartments event.atCompartment).map ValidatedCompartment.sequence
  fields := event.fields
  createdAt := createdAt

def toStorePrimer (candidate : PrimerCandidate) (sessionId projectPath : String)
    (compartments : List ValidatedCompartment) (createdAt : Int) : HistorianPrimerCandidate :=
  let source := sourceCompartment compartments candidate.originCompartmentIndex
  let start := source.or compartments.head?
  let stop := source.or compartments.getLast?
  { projectPath := projectPath
    sessionId := sessionId
    question := candidate.question
    sourceCompartmentStart := start.map ValidatedCompartment.startMessage
    sourceCompartmentEnd := stop.map ValidatedCompartment.endMessage
    sourceStartMessageId := (start.map ValidatedCompartment.startMessageId).getD ""
    sourceEndMessageId := (stop.map ValidatedCompartment.endMessageId).getD ""
    sourceMessageTime := createdAt
    createdAt := createdAt }

def toStoreUserObservation (observation : UserObservationCandidate) (sessionId : String)
    (compartments : List ValidatedCompartment) (createdAt : Int) :
    HistorianUserMemoryCandidate :=
  let source := sourceCompartment compartments observation.originCompartmentIndex
  { content := observation.content
    sessionId := sessionId
    sourceCompartmentStart :=
      (source.or compartments.head?).map ValidatedCompartment.startMessage
    sourceCompartmentEnd := (source.or compartments.getLast?).map ValidatedCompartment.endMessage
    createdAt := createdAt }

/-! ## Requests -/

/-- A request to publish; the numbers of its compartments are hints. -/
structure HistorianPublishRequest where
  expectedRowVersion : Option Nat
  expectedRevertEpoch : Nat
  predicate : HistorianPublishPredicate
  compartments : List Compartment
  events : List HistorianEventCandidate
  primerCandidates : List HistorianPrimerCandidate
  userMemoryCandidates : List HistorianUserMemoryCandidate
  publicationFloorOrdinal : Nat

/-- What the session row and the compartments take from the request. -/
def HistorianPublishRequest.chunk (request : HistorianPublishRequest) : PublishRequest where
  expectedRowVersion := request.expectedRowVersion
  expectedRevertEpoch := request.expectedRevertEpoch
  predicate := request.predicate
  compartments := request.compartments.map fun c => (c.startMessage, c.endMessage)
  publicationFloorOrdinal := request.publicationFloorOrdinal

def toStoredCompartment (c : ValidatedCompartment) : Compartment :=
  ⟨c.sequence, c.startMessage, c.endMessage⟩

/-- Whose output is published, and when. -/
structure PublishContext where
  sessionId : String
  projectPath : String
  collectUserMemoryCandidates : Bool
  createdAtMs : Int

/-- What `publish_validated_chunk` asks for. -/
def validatedRequest (context : PublishContext) (expectedRowVersion : Option Nat)
    (expectedRevertEpoch : Nat) (predicate : HistorianPublishPredicate)
    (validated : ValidatedOutput) : HistorianPublishRequest where
  expectedRowVersion := expectedRowVersion
  expectedRevertEpoch := expectedRevertEpoch
  predicate := predicate
  compartments := validated.compartments.map toStoredCompartment
  events := validated.events.map fun event =>
    toStoreEvent event validated.compartments context.createdAtMs
  primerCandidates := validated.primerCandidates.map fun candidate =>
    toStorePrimer candidate context.sessionId context.projectPath validated.compartments
      context.createdAtMs
  userMemoryCandidates :=
    if context.collectUserMemoryCandidates then
      validated.userObservations.map fun observation =>
        toStoreUserObservation observation context.sessionId validated.compartments
          context.createdAtMs
    else []
  publicationFloorOrdinal := validated.unprocessedFrom

/-! ## The queue -/

inductive SideChannelKind where
  | event | primer | userObservation
  deriving DecidableEq

/-- The key of a queued item. -/
structure SideChannelOutboxId where
  firingSeq : Nat
  kind : SideChannelKind
  sourceStart : Nat
  sourceEnd : Nat
  itemIndex : Nat
  deriving DecidableEq

inductive SideChannelPayload where
  | event (candidate : HistorianEventCandidate)
  | primer (candidate : HistorianPrimerCandidate)
  | userObservation (candidate : HistorianUserMemoryCandidate)

structure PendingItem where
  id : SideChannelOutboxId
  payload : SideChannelPayload
  createdAtMs : Int

/-- A queued item.  `item` is its number among all that were ever queued, which no query reads. -/
structure OutboxRow where
  id : SideChannelOutboxId
  payload : SideChannelPayload
  attemptCount : Nat := 0
  nextAttemptAtMs : Int := 0
  lastAttemptAtMs : Option Int := none
  lastError : Option String := none
  deliveredAtMs : Option Int := none
  createdAtMs : Int
  item : Nat

/-- `delivered_at_ms IS NULL`. -/
def OutboxRow.pending (row : OutboxRow) : Bool := row.deliveredAtMs.isNone

/-- A pending row of the key. -/
def OutboxRow.isPending (id : SideChannelOutboxId) (row : OutboxRow) : Bool :=
  row.id == id && row.pending

/-- A session with its queue and the tables that the queue is for. -/
structure HistorianStore where
  session : SessionStore := {}
  outbox : List OutboxRow := []
  events : List HistorianEventCandidate := []
  primers : List HistorianPrimerCandidate := []
  observations : List HistorianUserMemoryCandidate := []
  /-- How many items were ever queued. -/
  queued : Nat := 0

/-- The items of some candidates, in their places; a blank one is left out. -/
def itemsOf {α : Type} (blank : α → Bool) (item : Nat → α → PendingItem) (candidates : List α) :
    List PendingItem :=
  (candidates.zipIdx.filter fun entry => !blank entry.1).map fun entry => item entry.2 entry.1

section Items
variable (scanItem : SideChannelPayload → SideChannelPayload) (nowMs : Int)
  (request : HistorianPublishRequest)

/-- The start of what is published, or where the floor will be. -/
def HistorianPublishRequest.defaultStart : Nat :=
  (request.compartments.map fun c => c.startMessage.toNat).min?.getD
    (request.publicationFloorOrdinal - 1)

def HistorianPublishRequest.defaultEnd : Nat :=
  (request.compartments.map fun c => c.endMessage.toNat).max?.getD request.defaultStart

def eventItem (itemIndex : Nat) (event : HistorianEventCandidate) : PendingItem :=
  let source := event.compartmentId.bind fun sequence =>
    request.compartments.find? fun c => c.sequence.toNat == sequence
  { id :=
      { firingSeq := request.predicate.firingSeq
        kind := .event
        sourceStart := (source.map fun c => c.startMessage.toNat).getD request.defaultStart
        sourceEnd := (source.map fun c => c.endMessage.toNat).getD request.defaultEnd
        itemIndex := itemIndex }
    payload := scanItem (.event event)
    createdAtMs := nowMs }

def primerItem (itemIndex : Nat) (primer : HistorianPrimerCandidate) : PendingItem where
  id :=
    { firingSeq := request.predicate.firingSeq
      kind := .primer
      sourceStart := primer.sourceCompartmentStart.getD request.defaultStart
      sourceEnd := primer.sourceCompartmentEnd.getD request.defaultEnd
      itemIndex := itemIndex }
  payload := scanItem (.primer primer)
  createdAtMs := nowMs

def observationItem (itemIndex : Nat) (observation : HistorianUserMemoryCandidate) :
    PendingItem where
  id :=
    { firingSeq := request.predicate.firingSeq
      kind := .userObservation
      sourceStart := observation.sourceCompartmentStart.getD request.defaultStart
      sourceEnd := observation.sourceCompartmentEnd.getD request.defaultEnd
      itemIndex := itemIndex }
  payload := scanItem (.userObservation observation)
  createdAtMs := nowMs

/-- `historian_side_channel_pending_items`; the texts are scanned. -/
def pendingItems : List PendingItem :=
  itemsOf (fun _ => false) (eventItem scanItem nowMs request) request.events ++
    itemsOf (fun primer => Text.isBlank primer.question) (primerItem scanItem nowMs request)
      request.primerCandidates ++
    itemsOf (fun observation => Text.isBlank observation.content)
      (observationItem scanItem nowMs request) request.userMemoryCandidates

end Items

/-- `enqueue_historian_side_channels_tx`, which fails on a key that is there. -/
def enqueue : List PendingItem → HistorianStore → Option HistorianStore
  | [], st => some st
  | item :: items, st =>
    if st.outbox.any fun row => row.id == item.id then none
    else enqueue items { st with
      outbox := st.outbox ++
        [{ id := item.id, payload := item.payload, createdAtMs := item.createdAtMs
           item := st.queued }]
      queued := st.queued + 1 }

/-! ## The publication and the re-cuts -/

section Transactions
variable (scanner : Scanner) (scanItem : SideChannelPayload → SideChannelPayload)

/-- `publish_historian_chunk`. -/
def publishHistorianChunk (request : HistorianPublishRequest) (nowMs : Int)
    (st : HistorianStore) : Except HistorianPublishError Nat × HistorianStore :=
  match publishChunk scanner request.chunk st.session with
  | (.error e, _) => (.error e, st)
  | (.ok version, session) =>
    match enqueue (pendingItems scanItem nowMs request) { st with session := session } with
    | none => (.error .store, st)
    | some st' => (.ok version, st')

/-- `append_compartments`. -/
def appendAtTail (ranges : List (Int × Int)) (st : HistorianStore) :
    Except HistorianPublishError Unit × HistorianStore :=
  match appendCompartments st.session.compartments (st.session.generation.maxSequence + 1)
      ranges with
  | .error e => (.error e, st)
  | .ok compartments => (.ok (), { st with session := { st.session with compartments } })

/-- The end of the last compartment. -/
def SessionStore.maxEnd (s : SessionStore) : Int :=
  (s.compartments.map Compartment.endMessage).max?.getD (-1)

/-- Some compartment is past the one to be kept. -/
def SessionStore.dropsAfter (keepThroughSeq : Int) (s : SessionStore) : Bool :=
  s.compartments.any fun c => decide (keepThroughSeq < c.sequence)

/-- `truncate_compartments_for_revert`. -/
def truncateForRevert (keepThroughSeq : Int) (recut : String) (expectedRowVersion : Option Nat)
    (st : HistorianStore) : Except StoreError Nat × HistorianStore :=
  match truncateCompartments scanner keepThroughSeq recut expectedRowVersion st.session with
  | (.error e, _) => (.error e, st)
  | (.ok version, session) =>
    if !st.session.dropsAfter keepThroughSeq then (.ok version, st)
    else
      let kept := fun (start : Option Nat) => !start.any fun start => decide (session.maxEnd < start)
      (.ok version, { st with
        session := session
        events := st.events.filter fun event =>
          !event.compartmentId.any fun sequence => decide (keepThroughSeq < sequence)
        primers := st.primers.filter fun primer => kept primer.sourceCompartmentStart
        observations := st.observations.filter fun observation =>
          kept observation.sourceCompartmentStart
        outbox := st.outbox.filter fun row => kept (some row.id.sourceStart) })

/-- `reset_session_for_recomp`. -/
def resetForRecomp (expectedRowVersion : Option Nat) (st : HistorianStore) :
    Except StoreError Nat × HistorianStore :=
  match resetSessionForRecomp expectedRowVersion st.session with
  | (.error e, _) => (.error e, st)
  | (.ok version, session) => (.ok version, { session := session, queued := st.queued })

/-- The transactions that change a session's history. -/
inductive HistorianOp where
  /-- A driver's or a transform's write of the row that it loaded. -/
  | commit (expected : Option Nat) (core : String) (moduleMeta : ModuleMeta)
  | abandonIfMatching (predicate : HistorianPublishPredicate) (failureBackoffAtMs : Option Int)
      (detail : Option String) (countPublishFailure : Bool)
  | recordPublishFailure (predicate : HistorianPublishPredicate)
  | publish (request : HistorianPublishRequest) (nowMs : Int)
  | append (ranges : List (Int × Int))
  | truncate (keepThroughSeq : Int) (recut : String) (expected : Option Nat)
  | reset (expected : Option Nat)

/-- What is stored after a transaction. -/
def HistorianOp.exec (st : HistorianStore) : HistorianOp → HistorianStore
  | commit expected core m =>
    { st with session := (Historian.commit scanner expected core m st.session).2 }
  | abandonIfMatching predicate backoff detail count =>
    { st with
      session := (Historian.abandonIfMatching scanner predicate backoff detail count st.session).2 }
  | recordPublishFailure predicate =>
    { st with session := (Historian.recordPublishFailure scanner predicate st.session).2 }
  | publish request nowMs => (publishHistorianChunk scanner scanItem request nowMs st).2
  | append ranges => (appendAtTail ranges st).2
  | truncate keepThroughSeq recut expected =>
    (truncateForRevert scanner keepThroughSeq recut expected st).2
  | reset expected => (resetForRecomp expected st).2

end Transactions

/-! ## Drains -/

/-- The order in which items are delivered. -/
def SideChannelOutboxId.before (a b : SideChannelOutboxId) : Bool :=
  ((compare a.firingSeq b.firingSeq).then <| (compare a.sourceStart b.sourceStart).then <|
    (compare a.sourceEnd b.sourceEnd).then <| compare a.itemIndex b.itemIndex).isLE

/-- `load_due_historian_side_channels`. -/
def loadDue (kind : SideChannelKind) (nowMs : Int) (limit : Nat) (st : HistorianStore) :
    List OutboxRow :=
  ((st.outbox.filter fun row => row.id.kind == kind && row.pending &&
      decide (row.nextAttemptAtMs ≤ nowMs)).insertionSort
    fun a b => a.id.before b.id = true).take limit

/-- `ON CONFLICT` of the primers. -/
def HistorianPrimerCandidate.conflicts (a b : HistorianPrimerCandidate) : Bool :=
  a.projectPath == b.projectPath && a.sessionId == b.sessionId &&
    a.sourceStartMessageId == b.sourceStartMessageId &&
    a.sourceEndMessageId == b.sourceEndMessageId

/-- `insert_historian_primer_tx`: a conflict keeps the earlier time. -/
def upsertPrimer (candidate : HistorianPrimerCandidate)
    (primers : List HistorianPrimerCandidate) : List HistorianPrimerCandidate :=
  if primers.any candidate.conflicts then
    primers.map fun primer =>
      if candidate.conflicts primer then
        { candidate with createdAt := min primer.createdAt candidate.createdAt }
      else primer
  else primers ++ [candidate]

/-- The item has nothing to insert. -/
def SideChannelPayload.isBlank : SideChannelPayload → Bool
  | event _ => false
  | primer candidate => Text.isBlank candidate.question
  | userObservation candidate => Text.isBlank candidate.content

/-- Inserts a candidate into its table, unless it is blank. -/
def HistorianStore.insert (st : HistorianStore) : SideChannelPayload → HistorianStore
  | .event candidate => { st with events := st.events ++ [candidate] }
  | .primer candidate =>
    if Text.isBlank candidate.question then st
    else { st with
      primers := upsertPrimer { candidate with question := Text.trimText candidate.question }
        st.primers }
  | .userObservation candidate =>
    if Text.isBlank candidate.content then st
    else { st with
      observations :=
        st.observations ++ [{ candidate with content := Text.trimText candidate.content }] }

/-- `mark_historian_side_channel_delivered_tx`, which fails unless one row is pending. -/
def markDelivered (id : SideChannelOutboxId) (nowMs : Int) (outbox : List OutboxRow) :
    Option (List OutboxRow) :=
  if (outbox.filter fun row => row.isPending id).length = 1 then
    some (outbox.map fun row =>
      if row.isPending id then
        { row with deliveredAtMs := some nowMs, lastAttemptAtMs := some nowMs, lastError := none }
      else row)
  else none

/-- The payload is one of the kind. -/
def SideChannelPayload.hasKind : SideChannelPayload → SideChannelKind → Bool
  | event _, .event => true
  | primer _, .primer => true
  | userObservation _, .userObservation => true
  | _, _ => false

/-- `deliver_historian_side_channel` of a row that was loaded before: the insertion and the mark are
one transaction. -/
def deliver (row : OutboxRow) (nowMs : Int) (st : HistorianStore) : Option HistorianStore :=
  if !row.payload.hasKind row.id.kind then none
  else (markDelivered row.id nowMs st.outbox).map fun outbox =>
    { st.insert row.payload with outbox := outbox }

def sideChannelMaxBackoffMs : Int := 60000

def sideChannelErrorCap : Nat := 2000

/-- `record_historian_side_channel_failure`. -/
def recordFailure (row : OutboxRow) (nowMs : Int) (error : String) (st : HistorianStore) :
    HistorianStore :=
  let delayMs := min (1000 * 2 ^ min row.attemptCount 6) sideChannelMaxBackoffMs
  { st with
    outbox := st.outbox.map fun stored =>
      if stored.isPending row.id then
        { stored with
          attemptCount := stored.attemptCount + 1
          nextAttemptAtMs := min (nowMs + delayMs) (2 ^ 63 - 1)
          lastAttemptAtMs := some nowMs
          lastError := some (String.ofList (error.toList.take sideChannelErrorCap)) }
      else stored }

/-- `delete_delivered_historian_side_channels`. -/
def deleteDelivered (st : HistorianStore) : HistorianStore :=
  { st with outbox := st.outbox.filter OutboxRow.pending }

/-- `delete_delivered_historian_side_channel`. -/
def deleteDeliveredRow (row : OutboxRow) (st : HistorianStore) : HistorianStore :=
  { st with outbox := st.outbox.filter fun stored => stored.id != row.id || stored.pending }

end MagicContext.Historian
