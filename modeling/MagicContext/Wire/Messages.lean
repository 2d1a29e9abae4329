import MagicContext.Serde

/-!
# Messages on the wire

A message or block that was read from JSON keeps this JSON beside what was read from it, and is
written as that JSON until it is changed; one that was built from its parts is written from them.

## What is here

* `CkKind` — the kinds of blocks, with the outputs of tools.
* `CkWireBlock`, `CkWireMessage`, `CkIngressMessage`.
* `read` and `write` for each of them.
-/

namespace MagicContext.Wire

open Serde

/-! ## What messages are made of -/

/-- Fields of providers by provider, in the order of their keys. -/
abbrev ProviderExtras := List (String × List (String × Json))

structure HarnessMeta where
  harnessId : Option String := none
  ordinal : Option Nat := none
  synthetic : Bool := false
  summary : Bool := false
  errored : Bool := false
  finish : Option String := none
  createdAtMs : Option Int := none
  deriving DecidableEq

structure MessageOrigin where
  provider : String
  model : String
  api : String
  deriving DecidableEq

inductive MediaKind where
  | image | audio | video | file | document
  deriving DecidableEq

structure MediaBlock where
  kind : MediaKind
  mediaType : String
  filename : Option String := none
  source : Json
  deriving DecidableEq

structure OpaqueBlock where
  source : Json
  kind : String
  raw : Json
  arc : Option Json := none
  deriving DecidableEq

inductive ResultBlockKind where
  | text (text : String)
  | media (media : MediaBlock)
  | opaqueBlock (block : OpaqueBlock)
  deriving DecidableEq

structure ResultBlock where
  kind : ResultBlockKind
  providerExtras : ProviderExtras := []
  deriving DecidableEq

inductive CkOutputKind where
  | text (text : String)
  | json (value : Json)
  | errorText (text : String)
  | errorJson (value : Json)
  | executionDenied (reason : Option String)
  | content (blocks : List ResultBlock)
  | errorContent (blocks : List ResultBlock)
  deriving DecidableEq

structure CkToolOutput where
  kind : CkOutputKind
  providerExtras : ProviderExtras := []
  deriving DecidableEq

inductive CkKind where
  | text (text : String)
  | reasoning (text : String) (signature : Option String)
  | redactedReasoning (data : String)
  | toolCall (id name : String) (input : Json) (providerExecuted : Bool)
  | toolResult (id toolName : String) (output : CkToolOutput) (providerExecuted : Bool)
  | media (media : MediaBlock)
  | opaqueBlock (block : OpaqueBlock)
  deriving DecidableEq

def CkOutputKind.tag : CkOutputKind → String
  | .text _ => "text"
  | .json _ => "json"
  | .errorText _ => "error_text"
  | .errorJson _ => "error_json"
  | .executionDenied _ => "execution_denied"
  | .content _ => "content"
  | .errorContent _ => "error_content"

def CkKind.tag : CkKind → String
  | .text _ => "text"
  | .reasoning .. => "reasoning"
  | .redactedReasoning _ => "redacted_reasoning"
  | .toolCall .. => "tool_call"
  | .toolResult .. => "tool_result"
  | .media _ => "media"
  | .opaqueBlock _ => "opaque"

/-- A block, with the JSON it was read from. -/
structure CkWireBlock where
  kind : CkKind
  providerExtras : ProviderExtras := []
  original : Option Json := none
  deriving DecidableEq

/-- A message, with the JSON it was read from. -/
structure CkWireMessage where
  role : String
  content : List CkWireBlock
  origin : Option MessageOrigin := none
  providerExtras : ProviderExtras := []
  harnessMeta : HarnessMeta := {}
  original : Option Json := none
  deriving DecidableEq

structure CkIngressMessage where
  mid : String
  ordinal : Nat
  ck : CkWireMessage
  deriving DecidableEq

/-- A message without the JSON of another one. -/
def CkWireMessage.fromParts (role : String) (content : List CkWireBlock)
    (origin : Option MessageOrigin) (providerExtras : ProviderExtras) (harnessMeta : HarnessMeta) :
    CkWireMessage :=
  { role, content, origin, providerExtras, harnessMeta, original := none }

/-! ## Reading -/

def readExtras (v : Json) : Option ProviderExtras :=
  v.asObject.bind fun providers => providers.mapM fun p => p.2.asObject.map fun o => (p.1, o)

def HarnessMeta.read (v : Json) : Option HarnessMeta := do
  let fields ← structFields
    ["harness_id", "ordinal", "synthetic", "summary", "errored", "finish", "created_at_ms"] v
  match fields with
  | [harnessId, ordinal, synthetic, summary, errored, finish, createdAtMs] =>
    return {
      harnessId := ← optional Json.asString harnessId
      ordinal := ← optional Json.asNat ordinal
      synthetic := ← defaulted false Json.asBool synthetic
      summary := ← defaulted false Json.asBool summary
      errored := ← defaulted false Json.asBool errored
      finish := ← optional Json.asString finish
      createdAtMs := ← optional Json.asInt createdAtMs }
  | _ => none

def MessageOrigin.read (v : Json) : Option MessageOrigin := do
  match ← structFields ["provider", "model", "api"] v with
  | [provider, model, api] =>
    return {
      provider := ← required Json.asString provider
      model := ← required Json.asString model
      api := ← required Json.asString api }
  | _ => none

def MediaKind.named : String → Option MediaKind
  | "image" => some .image
  | "audio" => some .audio
  | "video" => some .video
  | "file" => some .file
  | "document" => some .document
  | _ => none

/-- A variant without fields is its name, or an object with nothing under its name. -/
def MediaKind.read : Json → Option MediaKind
  | .string name => MediaKind.named name
  | .object [(name, .null)] => MediaKind.named name
  | .object [(name, .object [])] => MediaKind.named name
  | _ => none

def MediaBlock.read (v : Json) : Option MediaBlock := do
  match ← structFields ["kind", "media_type", "filename", "source"] v with
  | [kind, mediaType, filename, source] =>
    return {
      kind := ← required MediaKind.read kind
      mediaType := ← required Json.asString mediaType
      filename := ← optional Json.asString filename
      source := ← source }
  | _ => none

def OpaqueBlock.read (v : Json) : Option OpaqueBlock := do
  match ← structFields ["source", "kind", "raw", "arc"] v with
  | [source, kind, raw, arc] =>
    return {
      source := ← source
      kind := ← required Json.asString kind
      raw := ← raw
      arc := ← optional some arc }
  | _ => none

/-- The one field of a variant. -/
def soleField {α : Type} (name : String) (read : Json → Option α) (v : Json) : Option α := do
  match ← structFields [name] v with
  | [field] => required read field
  | _ => none

def ResultBlockKind.read (v : Json) : Option ResultBlockKind := do
  let (tag, rest) ← nestedTagged ["text", "media", "opaque"] v
  match tag with
  | "text" => return .text (← soleField "text" Json.asString rest)
  | "media" => return .media (← soleField "media" MediaBlock.read rest)
  | "opaque" => return .opaqueBlock (← soleField "opaque" OpaqueBlock.read rest)
  | _ => none

def ResultBlock.read (v : Json) : Option ResultBlock := do
  match ← structFields ["kind", "provider_extras"] v with
  | [kind, providerExtras] =>
    return {
      kind := ← required ResultBlockKind.read kind
      providerExtras := ← defaulted [] readExtras providerExtras }
  | _ => none

/-- An object may leave the reason out; an array may not. -/
def readReason (v : Json) : Option (Option String) :=
  match v with
  | .object fields => optional Json.asString (Json.lookup "reason" fields)
  | .array [reason] => nullable Json.asString reason
  | _ => none

def CkOutputKind.read (v : Json) : Option CkOutputKind := do
  let (tag, rest) ← nestedTagged
    ["text", "json", "error_text", "error_json", "execution_denied", "content", "error_content"] v
  match tag with
  | "text" => return .text (← soleField "text" Json.asString rest)
  | "json" => return .json (← soleField "value" some rest)
  | "error_text" => return .errorText (← soleField "text" Json.asString rest)
  | "error_json" => return .errorJson (← soleField "value" some rest)
  | "execution_denied" => return .executionDenied (← readReason rest)
  | "content" => return .content (← soleField "blocks" (readArray ResultBlock.read) rest)
  | "error_content" =>
    return .errorContent (← soleField "blocks" (readArray ResultBlock.read) rest)
  | _ => none

def CkToolOutput.read (v : Json) : Option CkToolOutput := do
  match ← structFields ["kind", "provider_extras"] v with
  | [kind, providerExtras] =>
    return {
      kind := ← required CkOutputKind.read kind
      providerExtras := ← defaulted [] readExtras providerExtras }
  | _ => none

def readToolCall (v : Json) : Option CkKind := do
  match ← structFields ["id", "name", "input", "provider_executed"] v with
  | [id, name, input, providerExecuted] =>
    return .toolCall (← required Json.asString id) (← required Json.asString name) (← input)
      (← defaulted false Json.asBool providerExecuted)
  | _ => none

def readToolResult (v : Json) : Option CkKind := do
  match ← structFields ["id", "tool_name", "output", "provider_executed"] v with
  | [id, toolName, output, providerExecuted] =>
    return .toolResult (← required Json.asString id) (← required Json.asString toolName)
      (← required CkToolOutput.read output) (← defaulted false Json.asBool providerExecuted)
  | _ => none

def readReasoning (v : Json) : Option CkKind := do
  match ← structFields ["text", "signature"] v with
  | [text, signature] =>
    return .reasoning (← required Json.asString text) (← optional Json.asString signature)
  | _ => none

def CkKind.read (v : Json) : Option CkKind := do
  let (tag, rest) ← tagged v
  match tag with
  | "text" => return .text (← soleField "text" Json.asString rest)
  | "reasoning" => readReasoning rest
  | "redacted_reasoning" => return .redactedReasoning (← soleField "data" Json.asString rest)
  | "tool_call" => readToolCall rest
  | "tool_result" => readToolResult rest
  | "media" => return .media (← MediaBlock.read rest)
  | "opaque" => return .opaqueBlock (← OpaqueBlock.read rest)
  | _ => none

def CkWireBlock.read (v : Json) : Option CkWireBlock := do
  match ← structFields ["kind", "provider_extras"] v with
  | [kind, providerExtras] =>
    return {
      kind := ← required CkKind.read kind
      providerExtras := ← defaulted [] readExtras providerExtras
      original := some v }
  | _ => none

def CkWireMessage.read (v : Json) : Option CkWireMessage := do
  match ← structFields ["role", "content", "origin", "provider_extras", "meta"] v with
  | [role, content, origin, providerExtras, harnessMeta] =>
    return {
      role := ← required Json.asString role
      content := ← required (readArray CkWireBlock.read) content
      origin := ← optional MessageOrigin.read origin
      providerExtras := ← defaulted [] readExtras providerExtras
      harnessMeta := ← defaulted {} HarnessMeta.read harnessMeta
      original := some v }
  | _ => none

def CkIngressMessage.read (v : Json) : Option CkIngressMessage := do
  match ← structFields ["mid", "ordinal", "ck"] v with
  | [mid, ordinal, ck] =>
    return {
      mid := ← required Json.asString mid
      ordinal := ← required Json.asNat ordinal
      ck := ← required CkWireMessage.read ck }
  | _ => none

/-! ## Writing -/

/-- A field that is left out when it has its default. -/
def omitIf (default : Bool) (v : Json) : Option Json := if default then none else some v

def writeInt : Int → Json
  | .ofNat n => .number (.posInt n)
  | .negSucc n => .number (.negInt n)

def writeExtras (extras : ProviderExtras) : Json :=
  .object (extras.map fun p => (p.1, .object p.2))

def extrasField (extras : ProviderExtras) : String × Option Json :=
  ("provider_extras", omitIf extras.isEmpty (writeExtras extras))

def HarnessMeta.write (m : HarnessMeta) : Json :=
  .object (present
    [("created_at_ms", m.createdAtMs.map writeInt), ("errored", omitIf (!m.errored) (.bool true)),
      ("finish", m.finish.map .string),
      ("harness_id", m.harnessId.map .string),
      ("ordinal", m.ordinal.map fun n => .number (.posInt n)),
      ("summary", omitIf (!m.summary) (.bool true)),
      ("synthetic", omitIf (!m.synthetic) (.bool true))])

def MessageOrigin.write (o : MessageOrigin) : Json :=
  .object [("api", .string o.api), ("model", .string o.model), ("provider", .string o.provider)]

def MediaKind.write : MediaKind → Json
  | .image => .string "image"
  | .audio => .string "audio"
  | .video => .string "video"
  | .file => .string "file"
  | .document => .string "document"

def MediaBlock.fields (m : MediaBlock) : List (String × Option Json) :=
  [("filename", m.filename.map .string), ("kind", some m.kind.write),
    ("media_type", some (.string m.mediaType)), ("source", some m.source)]

def OpaqueBlock.fields (o : OpaqueBlock) : List (String × Option Json) :=
  [("arc", o.arc), ("kind", some (.string o.kind)), ("raw", some o.raw), ("source", some o.source)]

def ResultBlockKind.write : ResultBlockKind → Json
  | .text s => .object [("text", .string s), ("type", .string "text")]
  | .media m => .object [("media", .object (present m.fields)), ("type", .string "media")]
  | .opaqueBlock block =>
    .object [("opaque", .object (present block.fields)), ("type", .string "opaque")]

def ResultBlock.write (b : ResultBlock) : Json :=
  .object (present [("kind", some b.kind.write), extrasField b.providerExtras])

def CkOutputKind.write (k : CkOutputKind) : Json :=
  let tag := ("type", some (Json.string k.tag))
  .object (present (match k with
    | .text s => [("text", some (.string s)), tag]
    | .json value => [tag, ("value", some value)]
    | .errorText s => [("text", some (.string s)), tag]
    | .errorJson value => [tag, ("value", some value)]
    | .executionDenied reason => [("reason", some ((reason.map .string).getD .null)), tag]
    | .content blocks => [("blocks", some (.array (blocks.map ResultBlock.write))), tag]
    | .errorContent blocks => [("blocks", some (.array (blocks.map ResultBlock.write))), tag]))

def CkToolOutput.write (o : CkToolOutput) : Json :=
  .object (present [("kind", some o.kind.write), extrasField o.providerExtras])

def CkKind.write (k : CkKind) : Json :=
  let tag := ("type", some (Json.string k.tag))
  .object (present (match k with
    | .text s => [("text", some (.string s)), tag]
    | .reasoning s signature =>
      [("signature", signature.map .string), ("text", some (.string s)), tag]
    | .redactedReasoning data => [("data", some (.string data)), tag]
    | .toolCall id name input providerExecuted =>
      [("id", some (.string id)), ("input", some input), ("name", some (.string name)),
        ("provider_executed", some (.bool providerExecuted)), tag]
    | .toolResult id toolName output providerExecuted =>
      [("id", some (.string id)), ("output", some output.write),
        ("provider_executed", some (.bool providerExecuted)),
        ("tool_name", some (.string toolName)), tag]
    | .media m => m.fields ++ [tag]
    | .opaqueBlock block => block.fields ++ [tag]))

def CkWireBlock.write (b : CkWireBlock) : Json :=
  b.original.getD (.object (present [("kind", some b.kind.write), extrasField b.providerExtras]))

def CkWireMessage.write (m : CkWireMessage) : Json :=
  m.original.getD
    (.object (present
      [("content", some (.array (m.content.map CkWireBlock.write))),
        ("meta", some m.harnessMeta.write),
        ("origin", m.origin.map MessageOrigin.write),
        extrasField m.providerExtras,
        ("role", some (.string m.role))]))

def CkIngressMessage.write (m : CkIngressMessage) : Json :=
  .object [("ck", m.ck.write), ("mid", .string m.mid), ("ordinal", .number (.posInt m.ordinal))]

end MagicContext.Wire
