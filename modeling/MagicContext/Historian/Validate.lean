import MagicContext.Historian.Output
import MagicContext.Historian.Ranges
import MagicContext.Lib.Tiling

/-!
# Validation of an output

Before an output is published its ranges are compared with the chunk.  Small omissions are healed:
a gap of tool messages is given to the range before it, and the last range is drawn out to the end
of the tool calls it would cut.  Then the ranges must cover the chunk from its start without a gap,
and the last of them may be held back until more of the history is known.

## What is here

* `healCompartmentGaps` and `healTerminalCompletedToolArc` — the healing.
* `mapParsedCompartmentsToChunk` and `validateParsedCompartments` — the checks.
* `validateHistorianOutput` — the whole validation.
-/

namespace MagicContext.Historian

open Tiling

/-! ## Results -/

structure ValidateOptions where
  sequenceOffset : Nat := 0
  inEmergency : Bool := false
  memoryEnabled : Bool := true
  autoPromote : Bool := true
  userMemoryCollectionEnabled : Bool := false
  forceKeepLastCompartment : Bool := false

structure ValidatedCompartment where
  sequence : Nat
  startMessage : Nat
  endMessage : Nat
  startMessageId : String
  endMessageId : String
  title : String
  content : String
  p1 : Option String
  p2 : Option String
  p3 : Option String
  p4 : Option String
  importance : Option Nat
  episodeType : Option String
  deriving DecidableEq

structure ValidatedOutput where
  compartments : List ValidatedCompartment
  facts : List FactCandidate
  events : List ParsedEvent
  primerCandidates : List PrimerCandidate
  userObservations : List UserObservationCandidate
  unprocessedFrom : Nat
  discardedLast : Bool
  deriving DecidableEq

/-! ## Tool arcs -/

/-- `completed_tool_arc_crosses_boundary`: the boundary keeps the result and not the call. -/
def MessageRange.crosses (arc : MessageRange) (boundary : Nat) : Bool :=
  decide (arc.startMessage < boundary) && decide (boundary ≤ arc.endMessage)

def boundarySplitsCompletedToolArc (boundary : Nat) (arcs : List MessageRange) : Bool :=
  arcs.any fun arc => arc.crosses boundary

/-! ## Healing -/

/-- A gap that holds tool messages only is given to the range before it. -/
def healGap (toolOnly : Nat → Bool) (presentOrdinals : List Nat)
    (compartment next : ParsedCompartment) : ParsedCompartment :=
  let gapStart := saturatingSucc compartment.endMessage
  let gapEnd := next.startMessage - 1
  if gapEnd < gapStart then compartment
  else
    let omittedPresent := presentOrdinals.filter fun ordinal =>
      decide (gapStart ≤ ordinal) && decide (ordinal ≤ gapEnd)
    match omittedPresent.getLast? with
    | none => compartment
    | some last =>
      if omittedPresent.all toolOnly then { compartment with endMessage := last }
      else compartment

/-- `heal_compartment_gaps`: every range but the last, up to the one after it. -/
def healCompartmentGaps (toolOnly : Nat → Bool) (presentOrdinals : List Nat) :
    List ParsedCompartment → List ParsedCompartment
  | compartment :: next :: rest =>
    healGap toolOnly presentOrdinals compartment next ::
      healCompartmentGaps toolOnly presentOrdinals (next :: rest)
  | compartments => compartments

/-- The largest end of an arc within the chunk that the boundary after `lastEnd` cuts. -/
def nextTerminalEnd (arcs : List MessageRange) (chunkEnd lastEnd : Nat) : Nat :=
  let cut := arcs.filter fun arc =>
    decide (arc.endMessage ≤ chunkEnd) && arc.crosses (saturatingSucc lastEnd)
  (cut.map MessageRange.endMessage).max?.getD lastEnd

/-- The loop of `heal_terminal_completed_tool_arc`, with the rounds that are left. -/
def closeTerminalArcs (arcs : List MessageRange) (chunkEnd : Nat) : Nat → Nat → Nat
  | 0, lastEnd => lastEnd
  | rounds + 1, lastEnd =>
    let nextEnd := nextTerminalEnd arcs chunkEnd lastEnd
    if nextEnd = lastEnd then lastEnd else closeTerminalArcs arcs chunkEnd rounds nextEnd

/-- `heal_terminal_completed_tool_arc`: the last range is drawn out to the end of its arcs. -/
def healTerminalCompletedToolArc (arcs : List MessageRange) (presentOrdinals : List Nat)
    (chunkEnd : Nat) (compartments : List ParsedCompartment) (unprocessedFrom : Option Nat) :
    List ParsedCompartment × Option Nat :=
  match compartments.getLast? with
  | none => (compartments, unprocessedFrom)
  | some last =>
    let closed := closeTerminalArcs arcs chunkEnd (arcs.length + 1) last.endMessage
    (compartments.dropLast ++ [{ last with endMessage := closed }],
      if closed = last.endMessage then unprocessedFrom
      else unprocessedFrom.map fun _ =>
        (nextAfter presentOrdinals closed).getD (saturatingSucc closed))

/-! ## Checks -/

variable (chunk : HistorianChunk)

/-- One compartment of the output, with the ids of its ends. -/
def mapParsedCompartment (sequence : Nat) (c : ParsedCompartment) :
    Except String ValidatedCompartment :=
  match chunk.lines.find? fun line => line.ordinal == c.startMessage,
      chunk.lines.find? fun line => line.ordinal == c.endMessage with
  | some startLine, some endLine =>
    if !endLine.anchorable || endLine.messageId == "" then
      .error (s!"Compartment ending at raw message {c.endMessage} cannot anchor a boundary " ++
        "because that message has no flat blocks")
    else .ok
      { sequence := sequence
        startMessage := c.startMessage
        endMessage := c.endMessage
        startMessageId := startLine.messageId
        endMessageId := endLine.messageId
        title := c.title
        content := c.content
        p1 := c.p1
        p2 := c.p2
        p3 := c.p3
        p4 := c.p4
        importance := c.importance
        episodeType := c.episodeType }
  | _, _ =>
    .error (s!"Compartment range {c.startMessage}-{c.endMessage} does not map to raw session " ++
      s!"lines {chunk.startIndex}-{chunk.endIndex}")

/-- `map_parsed_compartments_to_chunk`, from a sequence number on. -/
def mapParsedCompartmentsToChunk (chunk : HistorianChunk) :
    Nat → List ParsedCompartment → Except String (List ValidatedCompartment)
  | _, [] => .ok []
  | sequence, c :: rest => do
    let mapped ← mapParsedCompartment chunk sequence c
    let mappedRest ← mapParsedCompartmentsToChunk chunk (sequence + 1) rest
    return mapped :: mappedRest

/-- One compartment, where the next uncovered ordinal of the chunk is `expectedStart`. -/
def validateParsedCompartment (chunkOrdinals : List Nat) (number : Nat)
    (expectedStart : Option Nat) (c : ParsedCompartment) : Option String :=
  if !(c.p1.any fun p1 => !Text.isBlank p1) then
    some (s!"compartment {number} is missing the tiered paraphrase structure (p1..p4); " ++
      "re-emit with all four tiers")
  else if c.endMessage < c.startMessage then some (invalidRangeText c.startMessage c.endMessage)
  else if c.startMessage < chunk.startIndex ∨ chunk.endIndex < c.endMessage then
    some (s!"range {c.startMessage}-{c.endMessage} is outside chunk " ++
      s!"{chunk.startIndex}-{chunk.endIndex}")
  else if !chunkOrdinals.contains c.startMessage then
    some (s!"range start {c.startMessage} is not a present raw message in chunk " ++
      s!"{chunk.startIndex}-{chunk.endIndex}")
  else if !chunkOrdinals.contains c.endMessage then
    some (s!"range end {c.endMessage} is not a present raw message in chunk " ++
      s!"{chunk.startIndex}-{chunk.endIndex}")
  else match expectedStart with
  | none =>
    some (s!"range {c.startMessage}-{c.endMessage} starts after chunk coverage already ended")
  | some expected =>
    if c.startMessage = expected then none
    else if c.startMessage < expected then
      some (s!"overlap before message {expected} (saw {c.startMessage}-{c.endMessage})")
    else some s!"gap before present message {c.startMessage} (expected {expected})"

/-- What the output says is left, once its ranges have been gone through. -/
def validateUnprocessedFrom (expectedStart unprocessedFrom : Option Nat) : Option String :=
  match unprocessedFrom, expectedStart with
  | some unprocessed, some expected =>
    if unprocessed = expected then none
    else some (s!"<unprocessed_from> {unprocessed} does not match next uncovered message " ++
      s!"{expected}")
  | some unprocessed, none =>
    if unprocessed = saturatingSucc chunk.endIndex then none
    else if unprocessed < chunk.startIndex ∨ chunk.endIndex < unprocessed then
      some (s!"<unprocessed_from> {unprocessed} is outside chunk " ++
        s!"{chunk.startIndex}-{chunk.endIndex}")
    else some (s!"<unprocessed_from> {unprocessed} does not match completed chunk boundary " ++
      s!"{saturatingSucc chunk.endIndex}")
  | none, some expected =>
    some s!"output left uncovered messages {expected}-{chunk.endIndex} without <unprocessed_from>"
  | none, none => none

/-- `validate_parsed_compartments`, from the `number`th compartment on. -/
def validateCompartmentsFrom (chunk : HistorianChunk) (chunkOrdinals : List Nat)
    (unprocessedFrom : Option Nat) :
    Nat → Option Nat → List ParsedCompartment → Option String
  | _, expectedStart, [] => validateUnprocessedFrom chunk expectedStart unprocessedFrom
  | number, expectedStart, c :: rest =>
    match validateParsedCompartment chunk chunkOrdinals number expectedStart c with
    | some error => some error
    | none => validateCompartmentsFrom chunk chunkOrdinals unprocessedFrom (number + 1)
        (nextAfter chunkOrdinals c.endMessage) rest

/-- The present ordinals of the chunk's range. -/
def HistorianChunk.chunkOrdinals : List Nat :=
  chunk.chunkPresentOrdinals.filter chunk.inRange

def validateParsedCompartments (compartments : List ParsedCompartment)
    (unprocessedFrom : Option Nat) : Option String :=
  validateCompartmentsFrom chunk chunk.chunkOrdinals unprocessedFrom 1
    chunk.chunkOrdinals.head? compartments

/-! ## Side channels -/

def keepSideChannel (originCompartmentIndex : Option Nat) (persistedCount : Nat)
    (discardedLast : Bool) : Bool :=
  if discardedLast then false
  else match originCompartmentIndex with
  | some index => decide (1 ≤ index) && decide (index ≤ persistedCount)
  | none => !discardedLast

/-- Events are kept by their own rule when the last compartment is kept by force. -/
def keepEvent (options : ValidateOptions) (persistedCount : Nat) (discardedLast : Bool)
    (event : ParsedEvent) : Bool :=
  if options.forceKeepLastCompartment then
    event.atCompartment.any fun index => decide (1 ≤ index) && decide (index < persistedCount)
  else keepSideChannel event.atCompartment persistedCount discardedLast

/-! ## The validation -/

def boundaryHealingSlack : Nat := 2

/-- The chunk must go on where the stored compartments end. -/
def validateStart (priorCompartments : List StoredCompartmentRange) : Except String Unit :=
  match priorCompartments.getLast? with
  | none => .ok ()
  | some last =>
    if chunk.startIndex ≤ last.endMessage then
      .error (s!"Historian chunk starts at raw message {chunk.startIndex} but existing " ++
        s!"compartments end at {last.endMessage}; expected a strictly newer raw message")
    else match nextAfter chunk.chunkPresentOrdinals last.endMessage with
    | none => .ok ()
    | some expected =>
      if chunk.startIndex = expected then .ok ()
      else .error (s!"Historian chunk starts at raw message {chunk.startIndex} but existing " ++
        s!"compartments end at {last.endMessage}; expected next present raw message {expected}")

/-- The last compartment is held back where little of the history follows it. -/
def discardsLast (options : ValidateOptions) (compartments : List ValidatedCompartment) : Bool :=
  !options.inEmergency && !options.forceKeepLastCompartment &&
    match compartments.reverse with
    | last :: previous :: _ =>
      decide (chunk.endIndex - last.endMessage ≤ boundaryHealingSlack) &&
        !boundarySplitsCompletedToolArc (saturatingSucc previous.endMessage) chunk.completedToolArcs
    | _ => false

/-- What is published of compartments that passed. -/
def publishPlan (priorCompartments : List StoredCompartmentRange)
    (options : ValidateOptions) (parsed : ParsedCompartmentOutput)
    (emitted : List ValidatedCompartment) : Except String ValidatedOutput :=
  let discardedLast := discardsLast chunk options emitted
  let compartments := if discardedLast then emitted.dropLast else emitted
  let offset := (priorCompartments.getLast?.map fun c => saturatingSucc c.endMessage).getD
    chunk.startIndex
  let lastNewEnd := (compartments.getLast?.map ValidatedCompartment.endMessage).getD 0
  if lastNewEnd < offset then .error s!"no forward progress beyond raw message {offset - 1}"
  else
    let keep := fun origin => !options.forceKeepLastCompartment &&
      keepSideChannel origin compartments.length discardedLast
    .ok
      { compartments := compartments
        facts := parsed.facts.filter fun fact => keep fact.originCompartmentIndex
        events := parsed.events.filter (keepEvent options compartments.length discardedLast)
        primerCandidates :=
          (parsed.primerCandidates.filter fun c => keep c.originCompartmentIndex).take 1
        userObservations := parsed.userObservations.filter fun o => keep o.originCompartmentIndex
        unprocessedFrom := saturatingSucc lastNewEnd
        discardedLast := discardedLast }

/-- The ranges as they are after healing, and what is left then. -/
def healOutput (parsed : ParsedCompartmentOutput) : List ParsedCompartment × Option Nat :=
  healTerminalCompletedToolArc chunk.completedToolArcs chunk.chunkPresentOrdinals chunk.endIndex
    (healCompartmentGaps chunk.toolOnly chunk.chunkPresentOrdinals parsed.compartments)
    parsed.unprocessedFrom

def invalidOutputText (error : String) : String :=
  "Historian returned invalid compartment output: " ++ error

def terminalBoundaryText : String :=
  "Historian terminal boundary splits a completed tool invocation/result arc"

/-- The checks of healed ranges, which yield what would be emitted. -/
def checkHealed (options : ValidateOptions)
    (compartments : List ParsedCompartment) (unprocessedFrom : Option Nat) :
    Except String (List ValidatedCompartment) :=
  match mapParsedCompartmentsToChunk chunk options.sequenceOffset compartments with
  | .error error => .error (invalidOutputText error)
  | .ok emitted =>
    match validateParsedCompartments chunk compartments unprocessedFrom with
    | some error => .error (invalidOutputText error)
    | none =>
      if compartments.getLast?.any fun c => boundarySplitsCompletedToolArc
          (saturatingSucc c.endMessage) chunk.completedToolArcs then
        .error terminalBoundaryText
      else .ok emitted

def validateHistorianOutput (regexes : Regexes) (text : String) (chunk : HistorianChunk)
    (priorCompartments : List StoredCompartmentRange) (options : ValidateOptions) :
    Except String ValidatedOutput :=
  match validateChunkCoverage chunk with
  | some error => .error ("Historian chunk coverage invalid: " ++ error)
  | none =>
    match validateStoredCompartments priorCompartments with
    | some error => .error ("Existing compartments are invalid: " ++ error)
    | none => do
      validateStart chunk priorCompartments
      let parsed ← parseCompartmentOutput regexes text
      if parsed.compartments.isEmpty then
        .error "Historian returned no usable compartments."
      else
        let healed := healOutput chunk parsed
        let emitted ← checkHealed chunk options healed.1 healed.2
        publishPlan chunk priorCompartments options parsed emitted

end MagicContext.Historian
