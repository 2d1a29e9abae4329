import Mathlib.Data.List.Sort
import MagicContext.Historian.State

/-!
# Historian output

The producer answers with a text in the shape of XML.  The parser takes what it can use of it: the
compartments, each with its range of messages, and what goes beside them.  Its regular expressions
are a parameter.

## What is here

* `Regexes` — the captures of each expression.
* `ParsedCompartmentOutput` — what a text says.
* `parseCompartmentOutput` — the parser.
-/

namespace MagicContext.Historian

/-! ## Regular expressions -/

/-- What each regular expression finds in a text, under the name of the function that holds it. -/
structure Regexes where
  /-- The body of the one root document. -/
  outputDocument : String → Option String
  outputTag : String → Bool
  /-- The attributes and the inner text of each compartment. -/
  compartment : String → List (String × String)
  removeCompartments : String → String
  attrStart : String → Option String
  attrEnd : String → Option String
  attrTitle : String → Option String
  attrEpisode : String → Option String
  attrImportance : String → Option String
  /-- The slash of a tier's opening tag, if any, and what follows the tag. -/
  tierOpen : Nat → String → Option (String × String)
  /-- What stands before a closing tag of any tier. -/
  tierCloseAny : String → Option String
  /-- What stands before an opening tag of any tier. -/
  tierOpenAny : String → Option String
  factsBlock : String → Option String
  eventsBlock : String → Option String
  removeEvents : String → String
  /-- The name, the body and the closing name of each category. -/
  categoryBlock : String → List (String × String × String)
  /-- The items of a list with asterisks. -/
  item : String → List String
  unprocessed : String → Option String
  userObservations : String → Option String
  primerCandidates : String → Option String
  primerElement : String → List (String × String)
  primerItem : String → List String
  /-- The kind and the compartment of each event, and what follows its opening tag. -/
  eventOpen : String → List (String × String × String)
  eventField : String → List (String × String × String)
  sideChannelAnchor : String → Option (String × String)

/-! ## What a text says -/

structure ParsedCompartment where
  startMessage : Nat
  endMessage : Nat
  title : String
  content : String
  p1 : Option String
  p2 : Option String
  p3 : Option String
  p4 : Option String
  importance : Option Nat
  episodeType : Option String

structure FactCandidate where
  category : String
  content : String
  originCompartmentIndex : Option Nat
  deriving DecidableEq

/-- The fields are in the order of their names. -/
structure ParsedEvent where
  kind : String
  atCompartment : Option Nat
  fields : List (String × String)
  deriving DecidableEq

structure PrimerCandidate where
  question : String
  originCompartmentIndex : Option Nat
  deriving DecidableEq

structure UserObservationCandidate where
  content : String
  originCompartmentIndex : Option Nat
  deriving DecidableEq

structure ParsedCompartmentOutput where
  compartments : List ParsedCompartment
  facts : List FactCandidate
  events : List ParsedEvent
  unprocessedFrom : Option Nat
  userObservations : List UserObservationCandidate
  primerCandidates : List PrimerCandidate

/-! ## The parser -/

open Text

def unescapeXml (s : String) : String :=
  replaceText "&gt;" ">" (replaceText "&lt;" "<" (replaceText "&quot;" "\""
    (replaceText "&apos;" "'" (replaceText "&amp;" "&" s))))

/-- `parse::<u64>().ok()`. -/
def parseNumber (s : String) : Option Nat := parseU64 s.toList

variable (regexes : Regexes)

/-- The text of a tier: up to a closing tag of any tier, and not into another tier. -/
def extractTier (inner : String) (index : Nat) : Option String :=
  match regexes.tierOpen index inner with
  | none => none
  | some (slash, rest) =>
    if slash = "/" then some ""
    else
      let body := (regexes.tierCloseAny rest).getD rest
      let body := (regexes.tierOpenAny body).getD body
      some (unescapeXml (trimText body))

def splitAnchorPrefix (text : String) : Option Nat × String :=
  match regexes.sideChannelAnchor text with
  | some (anchor, content) => (parseNumber anchor, trimText content)
  | none => (none, trimText text)

/-- One compartment; one without a range, a title or a text is passed over. -/
def parseCompartment (attrs inner : String) : Option ParsedCompartment :=
  match (regexes.attrStart attrs).bind parseNumber, (regexes.attrEnd attrs).bind parseNumber,
      (regexes.attrTitle attrs).map unescapeXml with
  | some startMessage, some endMessage, some title =>
    if title = "" then none
    else
      let episodeType := (regexes.attrEpisode attrs).map unescapeXml
      let importance := (regexes.attrImportance attrs).bind parseNumber
      match (extractTier regexes inner 0).filter (· ≠ "") with
      | some p1 =>
        let p2 := extractTier regexes inner 1
        let p3 := extractTier regexes inner 2
        let p4 := extractTier regexes inner 3
        some
          { startMessage, endMessage, title, importance, episodeType
            content := p1
            p1 := some p1
            p2 := some (p2.getD p1)
            p3 := some (p3.getD (p2.getD p1))
            p4 := some (p4.getD "") }
      | none =>
        let content := unescapeXml (trimText inner)
        if content = "" then none
        else some
          { startMessage, endMessage, title, importance, episodeType, content
            p1 := none
            p2 := none
            p3 := none
            p4 := none }
  | _, _, _ => none

def parseFacts (text : String) : List FactCandidate :=
  let scope := (regexes.factsBlock text).getD
    (regexes.removeCompartments (regexes.removeEvents text))
  (regexes.categoryBlock scope).flatMap fun (category, block, closing) =>
    if category ≠ closing then []
    else (regexes.item block).filterMap fun raw =>
      let (originCompartmentIndex, content) :=
        splitAnchorPrefix regexes (unescapeXml (trimText raw))
      if content = "" then none else some { category, content, originCompartmentIndex }

def parseUserObservations (text : String) : List UserObservationCandidate :=
  match regexes.userObservations text with
  | none => []
  | some block => (regexes.item block).filterMap fun raw =>
    let (originCompartmentIndex, content) := splitAnchorPrefix regexes (unescapeXml (trimText raw))
    if content = "" then none else some { content, originCompartmentIndex }

/-- Elements if there are any, else the items of a list. -/
def parsePrimerCandidates (text : String) : List PrimerCandidate :=
  match regexes.primerCandidates text with
  | none => []
  | some block =>
    let elements := regexes.primerElement block
    if elements.isEmpty then
      (regexes.primerItem block).filterMap fun raw =>
        let question := unescapeXml (trimText raw)
        if question = "" then none else some { question, originCompartmentIndex := none }
    else
      elements.filterMap fun (atCompartment, raw) =>
        let question := unescapeXml (trimText raw)
        if question = "" then none
        else some { question, originCompartmentIndex := parseNumber atCompartment }

/-- Inserts into a map that is kept in the order of its keys. -/
def insertField (name value : String) : List (String × String) → List (String × String)
  | [] => [(name, value)]
  | field :: rest =>
    if name = field.1 then (name, value) :: rest
    else if name < field.1 then (name, value) :: field :: rest
    else field :: insertField name value rest

def parseEvents (text : String) : List ParsedEvent :=
  match regexes.eventsBlock text with
  | none => []
  | some block => (regexes.eventOpen block).filterMap fun (kind, atCompartment, rest) =>
    match beforeText ("</" ++ kind ++ ">").toList rest.toList with
    | none => none
    | some body =>
      let fields := (regexes.eventField (String.ofList body)).foldl
        (fun fields (name, raw, closing) =>
          let value := unescapeXml (trimText raw)
          if name ≠ closing ∨ value = "" then fields else insertField name value fields) []
      some { kind, fields, atCompartment := parseNumber atCompartment }

def outputRootMessage : String := "Historian output must be one complete <output> root document."

def outputRootsMessage : String :=
  "Historian output must contain exactly one <output> root document."

/-- The compartments are put in the order of their first messages. -/
def parseCompartmentOutput (text : String) : Except String ParsedCompartmentOutput :=
  match regexes.outputDocument text with
  | none => .error outputRootMessage
  | some body =>
    if regexes.outputTag body then .error outputRootsMessage
    else .ok
      { compartments :=
          ((regexes.compartment text).filterMap fun (attrs, inner) =>
            parseCompartment regexes attrs inner).insertionSort
            fun c d => c.startMessage ≤ d.startMessage
        facts := parseFacts regexes text
        events := parseEvents regexes text
        unprocessedFrom := (regexes.unprocessed text).bind parseNumber
        userObservations := parseUserObservations regexes text
        primerCandidates := parsePrimerCandidates regexes text }

/-! ## Numbers -/

theorem parseNumber_le {s : String} {n : Nat} (h : parseNumber s = some n) : n ≤ u64Max :=
  Nat.le_pred_of_lt (parseU64_lt h)

theorem endMessage_le_of_parse {regexes : Regexes} {attrs inner : String}
    {c : ParsedCompartment} (h : parseCompartment regexes attrs inner = some c) :
    c.endMessage ≤ u64Max := by
  rw [parseCompartment] at h
  split at h
  · rename_i endMessage title hstart hend htitle
    obtain ⟨digits, _, hdigits⟩ := Option.bind_eq_some_iff.mp hend
    have hle := parseNumber_le hdigits
    split at h
    · cases h
    · dsimp only at h
      split at h
      · cases h
        exact hle
      · split at h
        · cases h
        · cases h
          exact hle
  · cases h

/-- The ranges of an output are of `u64`s. -/
theorem range_le_of_parse {regexes : Regexes} {text : String} {parsed : ParsedCompartmentOutput}
    (h : parseCompartmentOutput regexes text = .ok parsed) :
    ∀ c ∈ parsed.compartments, c.endMessage ≤ u64Max := by
  intro c hc
  rw [parseCompartmentOutput] at h
  split at h
  · cases h
  split at h
  · cases h
  cases h
  rw [List.mem_insertionSort, List.mem_filterMap] at hc
  obtain ⟨⟨attrs, inner⟩, _, hparse⟩ := hc
  exact endMessage_le_of_parse hparse

end MagicContext.Historian
