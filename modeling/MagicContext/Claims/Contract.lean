import MagicContext.Claims.Authority
import MagicContext.Lib.SortedMap
import MagicContext.Text

/-!
# The claim-operation contract

Claims are named by public ids and revision locators, and their commands and results travel as
JSON.  A canonical text has no number but safe integers, so that every runtime reads it alike.

## What is here

* `Json` — values as they are parsed; an object lists its fields.
* `canonicalJsonEncode` — the canonical text of a value.
* `parseRevisionLocator` — the id, the revision and the digest that a locator names.
* `decodeClaimOperationResult` — the strict decoder of a stored result.
-/

namespace MagicContext.Claims

open Text

/-! ## Values -/

/-- A number is an integer of sixty-four bits or a finite float, given by its value. -/
inductive JsonNumber where
  | integer (value : Int)
  | float (value : Rat)
  deriving DecidableEq

inductive Json where
  | null
  | bool (value : Bool)
  | number (value : JsonNumber)
  | string (value : String)
  | array (items : List Json)
  | object (entries : List (String × Json))

namespace Json

def isObject : Json → Bool
  | object _ => true
  | _ => false

def asObject? : Json → Option (List (String × Json))
  | object entries => some entries
  | _ => none

def asArray? : Json → Option (List Json)
  | array items => some items
  | _ => none

def asString? : Json → Option String
  | string value => some value
  | _ => none

/-! ### Equality -/

mutual

def same : Json → Json → Bool
  | .null, .null => true
  | .bool a, .bool b => a == b
  | .number a, .number b => a == b
  | .string a, .string b => a == b
  | .array a, .array b => sameItems a b
  | .object a, .object b => sameEntries a b
  | _, _ => false

def sameItems : List Json → List Json → Bool
  | [], [] => true
  | a :: as, b :: bs => same a b && sameItems as bs
  | _, _ => false

def sameEntries : List (String × Json) → List (String × Json) → Bool
  | [], [] => true
  | (k, a) :: as, (l, b) :: bs => k == l && same a b && sameEntries as bs
  | _, _ => false

end

mutual

theorem same_iff : ∀ a b : Json, same a b = true ↔ a = b
  | .null, b => by cases b <;> simp [same]
  | .bool a, b => by cases b <;> simp [same]
  | .number a, b => by cases b <;> simp [same]
  | .string a, b => by cases b <;> simp [same]
  | .array a, b => by
    cases b with
    | array b => rw [same, sameItems_iff a b, Json.array.injEq]
    | _ => simp [same]
  | .object a, b => by
    cases b with
    | object b => rw [same, sameEntries_iff a b, Json.object.injEq]
    | _ => simp [same]

theorem sameItems_iff : ∀ as bs : List Json, sameItems as bs = true ↔ as = bs
  | [], bs => by cases bs <;> simp [sameItems]
  | a :: as, bs => by
    cases bs with
    | nil => simp [sameItems]
    | cons b bs =>
      rw [sameItems, Bool.and_eq_true, same_iff a b, sameItems_iff as bs, List.cons.injEq]

theorem sameEntries_iff : ∀ as bs : List (String × Json), sameEntries as bs = true ↔ as = bs
  | [], bs => by cases bs <;> simp [sameEntries]
  | (k, a) :: as, bs => by
    cases bs with
    | nil => simp [sameEntries]
    | cons b bs =>
      obtain ⟨-, b⟩ := b
      rw [sameEntries, Bool.and_eq_true, Bool.and_eq_true, same_iff a b, sameEntries_iff as bs,
        beq_iff_eq, List.cons.injEq, Prod.mk.injEq]

end

instance : DecidableEq Json := fun a b => decidable_of_iff _ (same_iff a b)

end Json

/-- `get` of an object. -/
def field? (entries : List (String × Json)) (key : String) : Option Json :=
  (entries.find? fun entry => entry.1 == key).map Prod.snd

/-! ## Canonical texts -/

/-- The largest integer that every runtime represents. -/
def maxSafeInteger : Int := 9007199254740991

inductive ContractError where
  | notCanonical (reason : String)
  | malformedResult (reason : String)
  deriving DecidableEq

def isSafe (value : Int) : Bool :=
  decide (-maxSafeInteger ≤ value) && decide (value ≤ maxSafeInteger)

def JsonNumber.asI64 : JsonNumber → Option Int
  | integer value => if -2 ^ 63 ≤ value ∧ value < 2 ^ 63 then some value else none
  | float _ => none

def JsonNumber.asU64 : JsonNumber → Option Int
  | integer value => if 0 ≤ value ∧ value < 2 ^ 64 then some value else none
  | float _ => none

def JsonNumber.asF64 : JsonNumber → Option Rat
  | integer _ => none
  | float value => some value

def numberAsSafeInteger (number : JsonNumber) : Option Int :=
  match number.asI64 with
  | some value => if isSafe value then some value else none
  | none =>
    match number.asU64 with
    | some value => if value ≤ maxSafeInteger then some value else none
    | none =>
      match number.asF64 with
      -- a whole value is its numerator
      | some value => if value.den = 1 ∧ isSafe value.num then some value.num else none
      | none => none

def JsonNumber.text : JsonNumber → String
  | integer value => toString value
  | float value => toString value

def hexDigit (n : Nat) : Char := Nat.digitChar n

/-- A character of a canonical string; control characters are written by their codes. -/
def encodeCanonicalChar (c : Char) : List Char :=
  if c = '"' then ['\\', '"']
  else if c = '\\' then ['\\', '\\']
  else if c.toNat < 0x20 then
    ['\\', 'u', '0', '0', hexDigit (c.toNat / 16), hexDigit (c.toNat % 16)]
  else [c]

def encodeCanonicalString (value : String) : String :=
  String.ofList ('"' :: value.toList.flatMap encodeCanonicalChar ++ ['"'])

mutual

/-- The fields of an object are written in the order of their keys. -/
def encodeCanonicalValue : Json → Except ContractError String
  | .null => .ok "null"
  | .bool value => .ok (if value then "true" else "false")
  | .number value =>
    match numberAsSafeInteger value with
    | some integer => .ok (toString integer)
    | none => .error (.notCanonical s!"number {value.text} is not a safe integer")
  | .string value => .ok (encodeCanonicalString value)
  | .array items => do
    let texts ← (encodeCanonicalItems items).mapM id
    return "[" ++ ",".intercalate texts ++ "]"
  | .object entries => do
    let sorted := SortedMap.ofList (encodeCanonicalEntries entries)
    let texts ← sorted.entries.mapM fun entry =>
      entry.2.map fun text => encodeCanonicalString entry.1 ++ ":" ++ text
    return "\x7b" ++ ",".intercalate texts ++ "\x7d"

def encodeCanonicalItems : List Json → List (Except ContractError String)
  | [] => []
  | item :: items => encodeCanonicalValue item :: encodeCanonicalItems items

def encodeCanonicalEntries : List (String × Json) → List (String × Except ContractError String)
  | [] => []
  | (key, item) :: entries => (key, encodeCanonicalValue item) :: encodeCanonicalEntries entries

end

def canonicalJsonEncode (value : Json) : Except ContractError String := encodeCanonicalValue value

def claimRequestDigestProtocol : String := "mc-claim-request-v1"

def computeClaimOperationRequestDigest (sys : Platform) (request : Json) :
    Except ContractError String := do
  let canonical ← canonicalJsonEncode request
  return sys.sha256Hex s!"{claimRequestDigestProtocol}\n{canonical}"

/-! ## Names -/

/-- `is_lower_hex`. -/
def isLowerHex (text : String) (expectedLen : Nat) : Bool :=
  text.utf8ByteSize == expectedLen &&
    text.toList.all fun c => isAsciiDigit c || ('a' ≤ c && c ≤ 'f')

def publicClaimIdPrefix : String := "mcm_"

def isValidPublicClaimId (candidate : String) : Bool :=
  candidate.startsWith publicClaimIdPrefix &&
    isLowerHex (String.ofList (candidate.toList.drop 4)) 32

structure RevisionLocator where
  publicClaimId : String
  revision : Int
  contentDigest : String

/-- The revision of a locator's second part: an `r` and digits without a leading zero. -/
def parseRevision : List Char → Option Int
  | 'r' :: digits =>
    if digits.isEmpty || digits.head? == some '0' || !digits.all isAsciiDigit then none
    else
      let revision : Int := digitsValue digits
      if 1 ≤ revision ∧ revision ≤ maxSafeInteger then some revision else none
  | _ => none

def parseRevisionLocator (raw : String) : Option RevisionLocator :=
  match raw.toList.splitOn '/' with
  | [publicClaimId, revisionPart, contentDigest] =>
    if !isValidPublicClaimId (String.ofList publicClaimId) then none
    else match parseRevision revisionPart with
    | none => none
    | some revision =>
      if !isLowerHex (String.ofList contentDigest) 64 then none
      else some
        { publicClaimId := String.ofList publicClaimId
          revision := revision
          contentDigest := String.ofList contentDigest }
  | _ => none

/-! ## Results -/

inductive ClaimResultOutcome where
  | applied | stale | noop
  deriving DecidableEq

def ClaimResultOutcome.parse (raw : String) : Option ClaimResultOutcome :=
  if raw = "applied" then some applied
  else if raw = "stale" then some stale
  else if raw = "noop" then some noop
  else none

structure ClaimOperationResultEffect where
  effectKey : String
  changeKind : String
  projectId : Int
  generation : Int
  revisionLocator : Option String

structure ClaimOperationResult where
  outcome : ClaimResultOutcome
  staleReason : Option String
  payload : Json
  effects : List ClaimOperationResultEffect
  generations : List (String × Int)

def requireSafeInteger (value : Json) (field : String) : Except ContractError Int :=
  match value with
  | .number n =>
    match numberAsSafeInteger n with
    | some integer => .ok integer
    | none => .error (.malformedResult s!"{field} must be a safe integer")
  | _ => .error (.malformedResult s!"{field} must be a safe integer")

/-- An optional text; `allowed` says which ones are taken. -/
def decodeOptionalText (value : Option Json) (allowed : String → Bool)
    (refused malformed : String) : Except ContractError (Option String) :=
  match value with
  | none => .ok none
  | some .null => .ok none
  | some (.string raw) => if allowed raw then .ok (some raw) else .error (.malformedResult refused)
  | some _ => .error (.malformedResult malformed)

def requireText (entries : List (String × Json)) (field : String) (index : Nat) :
    Except ContractError String :=
  match (field? entries field).bind Json.asString? with
  | some value => .ok value
  | none => .error (.malformedResult s!"result effect {index} {field} malformed")

def effectFields : List String :=
  ["effectKey", "changeKind", "projectId", "generation", "revisionLocator"]

def decodeEffect (entry : Json) (index : Nat) : Except ContractError ClaimOperationResultEffect :=
  match entry.asObject? with
  | none => .error (.malformedResult s!"result effect {index} must be an object")
  | some entries =>
    match (entries.map Prod.fst).find? fun key => !effectFields.contains key with
    | some key =>
      .error (.malformedResult s!"result effect {index} contains unknown field {key}")
    | none => do
      let revisionLocator ← decodeOptionalText (field? entries "revisionLocator")
        (fun raw => (parseRevisionLocator raw).isSome)
        s!"result effect {index} carries an invalid revision locator"
        s!"result effect {index} revisionLocator malformed"
      let effectKey ← requireText entries "effectKey" index
      let changeKind ← requireText entries "changeKind" index
      let projectId ← requireSafeInteger ((field? entries "projectId").getD .null)
        "effect projectId"
      let generation ← requireSafeInteger ((field? entries "generation").getD .null)
        "effect generation"
      return { effectKey, changeKind, projectId, generation, revisionLocator }

def decodeEffects : Nat → List Json → Except ContractError (List ClaimOperationResultEffect)
  | _, [] => .ok []
  | index, entry :: entries => do
    let effect ← decodeEffect entry index
    let effects ← decodeEffects (index + 1) entries
    return effect :: effects

def decodeGenerations : List (String × Json) → Except ContractError (List (String × Int))
  | [] => .ok []
  | (key, value) :: entries => do
    let generation ← requireSafeInteger value "generation"
    let generations ← decodeGenerations entries
    return (key, generation) :: generations

def resultFields : List String :=
  ["resultEncodingVersion", "outcome", "staleReason", "payload", "effects", "generations"]

def requireResultVersion (value : Option Json) : Except ContractError Unit :=
  match value with
  | some (.number (.integer version)) =>
    if version < 0 then .error (.malformedResult "resultEncodingVersion must be an integer")
    else if version = 1 then .ok ()
    else .error (.malformedResult s!"unsupported result encoding version: {version}")
  | _ => .error (.malformedResult "resultEncodingVersion must be an integer")

def requireSome {α : Type} (value : Option α) (malformed : String) : Except ContractError α :=
  match value with
  | some value => .ok value
  | none => .error (.malformedResult malformed)

/-- `decode_claim_operation_result`, of a parsed text. -/
def decodeClaimOperationResult (parsed : Json) : Except ContractError ClaimOperationResult :=
  match parsed.asObject? with
  | none => .error (.malformedResult "stored result must be an object")
  | some record =>
    match (record.map Prod.fst).find? fun key => !resultFields.contains key with
    | some key => .error (.malformedResult s!"stored result contains unknown field {key}")
    | none => do
      requireResultVersion (field? record "resultEncodingVersion")
      let outcome ← requireSome
        (((field? record "outcome").bind Json.asString?).bind ClaimResultOutcome.parse)
        "unsupported result outcome"
      let staleReason ← decodeOptionalText (field? record "staleReason") (fun _ => true)
        "" "staleReason must be a string or null"
      let entries ← requireSome ((field? record "effects").bind Json.asArray?)
        "result effects must be an array"
      let effects ← decodeEffects 0 entries
      let fields ← requireSome ((field? record "generations").bind Json.asObject?)
        "result generations must be a map"
      let generations ← decodeGenerations fields
      let payload := (field? record "payload").getD .null
      return { outcome, staleReason, payload, effects, generations }

end MagicContext.Claims
