import MagicContext.Codec.Sidecar

/-!
# The Pi codec

A Pi session is a list of entries: messages, bare or wrapped, compactions, and entries of other
types.  Decoding makes a message of each that is not a compaction or unknown; encoding goes back
from messages and their sidecar to entries.

## What is here

* `decodePiWithSidecar` — with `piStableKey` and `firstSightPiMid`, which name messages.
* `encodeWithMeta`, `encodeNewMessage`, `encodePi`.
-/

namespace MagicContext.Codec
namespace Pi

open Wire

def harness : String := "pi"

/-- What the source hashes and prints JSON with. -/
structure JsonTools where
  /-- `stable_hash`. -/
  hash : Json → String
  /-- `Value::to_string`. -/
  toText : Json → String

variable (tools : JsonTools)

/-! ## Entries -/

/-- `pi_message`. -/
def piMessage (rawEntry : Json) : Option Json :=
  if typeOf rawEntry = some "message" then rawEntry.get? "message"
  else if (rawEntry.get? "role").isSome then some rawEntry
  else none

/-- The entry with its message changed, when it has one. -/
def updateMessage (rawEntry : Json) (change : Json → Json) : Option Json :=
  if typeOf rawEntry = some "message" then
    (rawEntry.get? "message").map fun message => rawEntry.set "message" (change message)
  else if (rawEntry.get? "role").isSome then some (change rawEntry)
  else none

def isCompaction (rawEntry : Json) : Bool := typeOf rawEntry == some "compaction"

/-- `is_pi_opaque_entry`. -/
def isPiOpaqueEntry (rawEntry : Json) : Bool :=
  match typeOf rawEntry with
  | some type => type == "custom_message" || type == "custom" || type == "branch_summary"
  | none => false

def piBoundary (rawEntry : Json) (ordinal : Nat) : ExtractedBoundary where
  harness := harness
  messageId := ((rawEntry.stringField "firstKeptEntryId") <|> (rawEntry.stringField "id")).getD
    ("pi-boundary-" ++ hashPrefix tools.hash rawEntry 12)
  ordinal := ordinal
  partIndex := none
  entryId := rawEntry.stringField "id"
  raw := rawEntry

def roleOf (message : Json) : String := (message.stringField "role").getD "unknown"

/-! ## Names of messages -/

def messageTimestamp (message : Json) : Option Int := (message.get? "timestamp").bind Json.asInt

/-- The first fourteen digits of a text, as a number. -/
def chronoLikeTimestampMs (text : String) : Option Int :=
  let digits := text.toList.filter Text.isAsciiDigit
  if digits.length < 14 then none else some (Text.digitsValue (digits.take 14))

def entryTimestamp (entry : Json) : Option Int :=
  messageTimestamp entry <|> ((entry.stringField "timestamp").bind chronoLikeTimestampMs)

def timestampName (ts : Int) : String := "pi-ts-" ++ toString ts

/-- `pi_stable_key`: what pins are kept under. -/
def piStableKey (rawEntry message : Json) (entryIndex : Nat) : String :=
  (rawEntry.stringField "id" <|> message.stringField "responseId" <|>
      (messageTimestamp message).map timestampName).getD
    ("pi-msg-" ++ toString entryIndex ++ "-" ++ hashPrefix tools.hash message 24)

/-- `first_sight_pi_mid`: the id of a message that has no pin. -/
def firstSightPiMid (rawEntry message : Json) (stableKey : String) : String :=
  (message.stringField "responseId" <|> (messageTimestamp message).map timestampName <|>
    (entryTimestamp rawEntry).map timestampName).getD stableKey

/-! ## Decoding parts -/

def piOrigin (message : Json) : Option MessageOrigin := do
  let api ← message.stringField "api"
  let provider ← message.stringField "provider"
  let model ← message.stringField "model"
  return { api, provider, model }

/-- The call id, and the item id after the bar. -/
def canonicalToolId (nativeId : String) : String × Option String :=
  match Text.splitOnce '|' nativeId.toList with
  | some (callId, itemId) => (String.ofList callId, some (String.ofList itemId))
  | none => (nativeId, none)

def toolName (part : Json) : String := (part.stringField "name").getD "tool"

def insertPiExtra (key : String) (v : Option String) (extras : ProviderExtras) : ProviderExtras :=
  match v with
  | some text => insertExtra harness key (.string text) extras
  | none => extras

def piExtrasForText (part : Json) : ProviderExtras :=
  insertPiExtra "textSignature" (part.stringField "textSignature") []

def piExtrasForTool (part : Json) (itemId nativeId : Option String) : ProviderExtras :=
  insertPiExtra "nativeToolCallId" nativeId (insertPiExtra "itemId" itemId
    (insertPiExtra "thoughtSignature" (part.stringField "thoughtSignature") []))

def piMediaFromPart (part : Json) : MediaBlock :=
  let mediaType := (part.stringField "mimeType" <|> part.stringField "mime").getD
    "application/octet-stream"
  { kind := mediaKind mediaType
    mediaType
    filename := part.stringField "filename"
    source := match part.stringField "data", part.stringField "url" with
      | some data, _ => .object [("data", .string data), ("type", .string "data_base64")]
      | none, some url => .object [("type", .string "url"), ("url", .string url)]
      | none, none => .object [("raw", part), ("type", .string "opaque")] }

/-- A block and the part it is pushed for. -/
def native (kind : CkKind) (extras : ProviderExtras) (nativeIndex : Nat) (raw : Json)
    (name : String) : NativeBlock where
  block := { kind, providerExtras := extras }
  nativeIndex := nativeIndex
  raw := raw
  kind := name
  nativeId := raw.stringField "id" <|> raw.stringField "toolCallId"

/-- A part the codec does not read, under its type. -/
def nativeOpaque (part : Json) (nativeIndex : Nat) (arc : Option Json) : NativeBlock :=
  let kind := (typeOf part).getD "unknown"
  native (opaqueBlock harness kind part arc).kind [] nativeIndex part kind

def textPart (part : Json) (nativeIndex : Nat) : NativeBlock :=
  native (.text ((part.stringField "text").getD "")) (piExtrasForText part) nativeIndex part "text"

def userPart (part : Json) (nativeIndex : Nat) : NativeBlock :=
  match typeOf part with
  | some "text" => textPart part nativeIndex
  | some "image" => native (.media (piMediaFromPart part)) [] nativeIndex part "image"
  | _ => nativeOpaque part nativeIndex none

/-- `decode_user_message`. -/
def decodeUserMessage (message : Json) : List NativeBlock :=
  match message.get? "content" with
  | some (.string text) => [native (.text text) [] 0 message "text"]
  | some (.array parts) => parts.zipIdx.map fun p => userPart p.1 p.2
  | _ => []

def thinkingPart (part : Json) (nativeIndex : Nat) : NativeBlock :=
  if flag part "redacted" then
    let data := (part.stringField "thinkingSignature" <|> part.stringField "thinking").getD ""
    native (.redactedReasoning data) [] nativeIndex part "redacted_reasoning"
  else
    native (.reasoning ((part.stringField "thinking").getD "")
      (part.stringField "thinkingSignature")) [] nativeIndex part "reasoning"

def toolCallPart (ordinal : Nat) (part : Json) (nativeIndex : Nat) : NativeBlock :=
  let input := (part.get? "arguments").getD (.object [])
  let nativeId := (part.stringField "id" <|> part.stringField "callId").getD
    (synthToolId tools.hash ordinal nativeIndex (toolName part) input)
  let (canonicalId, itemId) := canonicalToolId nativeId
  { native (.toolCall canonicalId (toolName part) input false)
      (piExtrasForTool part itemId (some nativeId)) nativeIndex part "tool_call" with
    nativeId := some nativeId
    itemId }

def assistantPart (ordinal : Nat) (part : Json) (nativeIndex : Nat) : NativeBlock :=
  match typeOf part with
  | some "text" => textPart part nativeIndex
  | some "thinking" => thinkingPart part nativeIndex
  | some "toolCall" => toolCallPart tools ordinal part nativeIndex
  | some _ => nativeOpaque part nativeIndex (opaqueArc part)
  | none => nativeOpaque part nativeIndex none

/-- `decode_assistant_message`. -/
def decodeAssistantMessage (ordinal : Nat) (message : Json) : List NativeBlock :=
  match (message.get? "content").bind Json.asArray with
  | some parts => parts.zipIdx.map fun p => assistantPart tools ordinal p.1 p.2
  | none => []

def resultPart (part : Json) : ResultBlock where
  providerExtras := insertExtra harness "rawResultPart" part []
  kind := match typeOf part with
    | some "text" => .text ((part.stringField "text").getD "")
    | some "image" | some "file" => .media (piMediaFromPart part)
    | kind => .opaqueBlock
      { source := .object [("harness", .string harness), ("type", .string "harness")]
        kind := kind.getD "unknown", raw := part }

/-- The part has no fields but its type and text. -/
def onlyPlainFields (part : Json) : Bool :=
  part.asObject.any fun fields => fields.all fun f => f.1 == "type" || f.1 == "text"

/-- `pi_tool_result_output`. -/
def piToolResultOutput (message : Json) (isError : Bool) : CkToolOutput :=
  let text (s : String) : CkToolOutput := { kind := if isError then .errorText s else .text s }
  match (message.get? "content").bind Json.asArray with
  | none => text ""
  | some parts =>
    let blocks := parts.map resultPart
    let several : CkToolOutput := { kind := if isError then .errorContent blocks else .content blocks }
    match parts with
    | [part] =>
      if onlyPlainFields part && typeOf part == some "text" then
        text ((part.stringField "text").getD "")
      else several
    | _ => several

/-- `decode_tool_result_message`. -/
def decodeToolResultMessage (message : Json) : List NativeBlock :=
  let nativeId := (message.stringField "toolCallId").getD "tool"
  let (canonicalId, itemId) := canonicalToolId nativeId
  let toolName := (message.stringField "toolName").getD "tool"
  let extras :=
    if itemId.isSome then
      insertPiExtra "nativeToolCallId" (some nativeId) (insertPiExtra "itemId" itemId [])
    else []
  [{ native (.toolResult canonicalId toolName
        (piToolResultOutput message (flag message "isError")) false) extras 0 message
        "tool_result" with
      nativeId := some nativeId
      itemId }]

def decodeContent (role : String) (ordinal : Nat) (message : Json) : List NativeBlock :=
  match role with
  | "user" => decodeUserMessage message
  | "assistant" => decodeAssistantMessage tools ordinal message
  | "toolResult" => decodeToolResultMessage message
  | role => [native (opaqueBlock harness role message none).kind [] 0 message role]

/-! ## Decoding a session -/

structure DecodeState where
  decoded : List CkIngressMessage := []
  boundary : Option ExtractedBoundary := none
  sidecar : DecodeSidecar

/-- What a message is decoded to, under an id. -/
def ingress (mid : String) (ordinal : Nat) (role : String) (content : List CkWireBlock)
    (origin : Option MessageOrigin) : CkIngressMessage where
  mid := mid
  ordinal := ordinal
  ck := .fromParts role content origin [] { harnessId := some mid, ordinal := some ordinal }

/-- Takes a message in under the id its key is pinned to, or its first. -/
def DecodeState.take (state : DecodeState) (stableKey firstSight role ckRole : String)
    (raw : Json) (natives : List NativeBlock) (origin : Option MessageOrigin) : DecodeState :=
  let ordinal := state.decoded.length + 1
  let mid := (state.sidecar.inheritPin stableKey).getD firstSight
  let blocks := stampAll tools.hash natives
  { state with
    decoded := state.decoded ++ [ingress mid ordinal ckRole (blocks.map Prod.fst) origin]
    sidecar := (state.sidecar.pinMid stableKey mid).rememberMessage mid
      { mid, ordinal, role, raw, stableKey := some stableKey, blocks := blocks.map Prod.snd } }

/-- `decode_opaque_entry`. -/
def decodeOpaqueEntry (state : DecodeState) (rawEntry : Json) : DecodeState :=
  let stableKey := (rawEntry.stringField "id").getD
    ("pi-entry-" ++ hashPrefix tools.hash rawEntry 24)
  let role := (typeOf rawEntry).getD "custom"
  state.take tools stableKey ("pi-entry-" ++ stableKey) role "user" rawEntry
    [native (opaqueBlock harness role rawEntry none).kind [] 0 rawEntry "opaque"] none

/-- The loop body of `decode_pi_with_sidecar`. -/
def decodeEntry (state : DecodeState) (entry : Json × Nat) : DecodeState :=
  let (rawEntry, entryIndex) := entry
  if isCompaction rawEntry then
    { state with boundary := some (piBoundary tools rawEntry (entryIndex + 1)) }
  else
    match piMessage rawEntry with
    | none => if isPiOpaqueEntry rawEntry then decodeOpaqueEntry tools state rawEntry else state
    | some message =>
      let ordinal := state.decoded.length + 1
      let role := roleOf message
      let stableKey := piStableKey tools rawEntry message entryIndex
      state.take tools stableKey (firstSightPiMid rawEntry message stableKey) role
        (if role = "toolResult" then "tool" else role) rawEntry
        (decodeContent tools role ordinal message)
        (if role = "assistant" then piOrigin message else none)

def startState (prior : Option DecodeSidecar) : DecodeState where
  sidecar := { harness, midPins := (prior.map (·.midPins)).getD .empty }

/-- `decode_pi_with_sidecar`. -/
def decodePiWithSidecar (entries : List Json) (prior : Option DecodeSidecar) :
    DecodedHarnessMessages :=
  let final := entries.zipIdx.foldl (decodeEntry tools) (startState prior)
  { messages := final.decoded, boundary := final.boundary, sidecar := final.sidecar }

def decodePi (entries : List Json) : DecodedHarnessMessages :=
  decodePiWithSidecar tools entries none

/-! ## Encoding parts -/

/-- `native_tool_id`. -/
def nativeToolId (id : String) (extras : ProviderExtras) (existing : Option String) : String :=
  match existing.filter fun id => id ≠ "" with
  | some existing => existing
  | none =>
    match extraString harness "nativeToolCallId" extras, extraString harness "itemId" extras with
    | some native, _ => native
    | none, some itemId => id ++ "|" ++ itemId
    | none, none => id

def setOptional (part : Json) (key : String) (v : Option String) : Json :=
  match v with
  | some text => part.set key (.string text)
  | none => part

def renderMediaPart (media : MediaBlock) : Json :=
  let part := Json.object [("mimeType", .string media.mediaType), ("type", .string "image")]
  let part := if media.kind ≠ .image then part.set "type" (.string "file") else part
  let part := setOptional part "filename" media.filename
  if !media.source.isObject then part
  else
    match typeOf media.source with
    | some "data_base64" => setOptional part "data" (media.source.stringField "data")
    | some "url" => setOptional part "url" (media.source.stringField "url")
    | _ => part

def outputText (output : CkToolOutput) : String :=
  match output.kind with
  | .text text | .errorText text => text
  | .json value | .errorJson value => tools.toText value
  | .executionDenied reason => reason.getD "Execution denied"
  | .content blocks | .errorContent blocks =>
    String.intercalate "\n" (blocks.filterMap fun block =>
      match block.kind with
      | .text text => some text
      | _ => none)

/-- The fields of a fresh media part replace those of the retained one. -/
def replaceMediaFields (retained fresh : Json) : Json :=
  let cleared := ["type", "mimeType", "mime", "filename", "data", "url"].foldl Json.remove retained
  (fresh.asObject.getD []).foldl (fun part f => part.set f.1 f.2) cleared

/-- `render_tool_result_block`. -/
def renderToolResultBlock (block : ResultBlock) : Json :=
  let retained := extra harness "rawResultPart" block.providerExtras
  match block.kind with
  | .text text =>
    ((retained.getD (.object [("type", .string "text")])).set "type" (.string "text")).set "text"
      (.string text)
  | .media media =>
    match retained with
    | none => renderMediaPart media
    | some retained =>
      if piMediaFromPart retained = media then retained
      else if retained.isObject then replaceMediaFields retained (renderMediaPart media)
      else renderMediaPart media
  | .opaqueBlock block => block.raw

/-- `render_tool_result_content`. -/
def renderToolResultContent (output : CkToolOutput) : List Json :=
  match output.kind with
  | .content blocks | .errorContent blocks => blocks.map renderToolResultBlock
  | _ => [.object [("text", .string (outputText tools output)), ("type", .string "text")]]

def CkOutputKind.isError : CkOutputKind → Bool
  | .errorText _ | .errorJson _ | .errorContent _ | .executionDenied _ => true
  | _ => false

/-- `render_block_as_content_part`. -/
def renderBlockAsContentPart (block : CkWireBlock) : Json :=
  match block.kind with
  | .text text =>
    setOptional (.object [("text", .string text), ("type", .string "text")]) "textSignature"
      (extraString harness "textSignature" block.providerExtras)
  | .reasoning text signature =>
    setOptional (.object [("thinking", .string text), ("type", .string "thinking")])
      "thinkingSignature" signature
  | .redactedReasoning data =>
    .object [("redacted", .bool true), ("thinking", .string ""),
      ("thinkingSignature", .string data), ("type", .string "thinking")]
  | .toolCall id name input _ =>
    setOptional (.object [("arguments", input),
        ("id", .string (nativeToolId id block.providerExtras none)), ("name", .string name),
        ("type", .string "toolCall")])
      "thoughtSignature" (extraString harness "thoughtSignature" block.providerExtras)
  | .toolResult _ _ output _ =>
    .object [("text", .string (outputText tools output)), ("type", .string "text")]
  | .media media => renderMediaPart media
  | .opaqueBlock block => block.raw

/-- `update_content_part`. -/
def updateContentPart (part : Json) (block : CkWireBlock) : Json :=
  match block.kind with
  | .text text =>
    setOptional ((part.set "type" (.string "text")).set "text" (.string text)) "textSignature"
      (extraString harness "textSignature" block.providerExtras)
  | .reasoning text signature =>
    setOptional ((part.set "type" (.string "thinking")).set "thinking" (.string text))
      "thinkingSignature" signature
  | .redactedReasoning data =>
    (((part.set "type" (.string "thinking")).set "thinking" (.string "")).set
      "thinkingSignature" (.string data)).set "redacted" (.bool true)
  | .toolCall id name input _ =>
    let existing := part.stringField "id"
    setOptional ((((part.set "type" (.string "toolCall")).set "id"
        (.string (nativeToolId id block.providerExtras existing))).set "name"
        (.string name)).set "arguments" input)
      "thoughtSignature" (extraString harness "thoughtSignature" block.providerExtras)
  | .media media => renderMediaPart media
  | .opaqueBlock block => block.raw
  | .toolResult .. => renderBlockAsContentPart tools block

/-! ## Encoding messages -/

def isToolResult (block : CkWireBlock) : Bool :=
  match block.kind with
  | .toolResult .. => true
  | _ => false

def isReasoning (block : CkWireBlock) : Bool :=
  match block.kind with
  | .reasoning .. | .redactedReasoning _ => true
  | _ => false

/-- `block_matches_meta`. -/
def blockMatchesMeta (block : CkWireBlock) (m : BlockMeta) : Bool :=
  let sameId (id : String) : Bool := m.nativeId.all fun native => (canonicalToolId native).1 == id
  match block.kind with
  | .text text =>
    m.kind == "text" || (text == "" && (m.kind == "reasoning" || m.kind == "redacted_reasoning"))
  | .reasoning .. => m.kind == "reasoning"
  | .redactedReasoning _ => m.kind == "reasoning" || m.kind == "redacted_reasoning"
  | .toolCall id .. => m.kind == "tool_call" && sameId id
  | .toolResult id .. => m.kind == "tool_result" && sameId id
  | .media _ => m.kind == "image"
  | .opaqueBlock block => m.kind == block.kind

/-- What becomes of the parts for one block. -/
def updateParts (parts : List Json) (entry : CkWireBlock × Option BlockMeta) : List Json :=
  let (block, blockMeta) := entry
  match blockMeta.bind (·.nativeIndex) with
  | some partIndex =>
    match parts[partIndex]? with
    | some part =>
      if blockMeta.any (blockIsUnchanged tools.hash block) || isReasoning block then parts
      else parts.set partIndex (updateContentPart tools part block)
    | none => parts ++ [renderBlockAsContentPart tools block]
  | none => parts ++ [renderBlockAsContentPart tools block]

/-- `update_pi_message_content`. -/
def updatePiMessageContent (msg : CkWireMessage) (matched : MatchedBlockMetas) (message : Json) :
    Json :=
  let rebuilt :=
    let parts := ((message.get? "content").bind Json.asArray).getD []
    let parts := (msg.content.zip matched.byBlock).foldl (updateParts tools) parts
    message.set "content" (.array (matched.removeUnretainedNativeParts parts))
  if msg.role = "user" ∧ (message.get? "content").any Json.isString = true then
    match msg.content with
    | [block] =>
      match block.kind with
      | .text text => message.set "content" (.string text)
      | _ => rebuilt
    | _ => rebuilt
  else rebuilt

/-- `update_tool_result_message`. -/
def updateToolResultMessage (msg : CkWireMessage) (preserveExistingId : Bool) (raw : Json) :
    Json :=
  match msg.content.find? isToolResult with
  | some block =>
    match block.kind with
    | .toolResult id toolName output _ =>
      let existing := if preserveExistingId then raw.stringField "toolCallId" else none
      ((((raw.set "role" (.string "toolResult")).set "toolCallId"
          (.string (nativeToolId id block.providerExtras existing))).set "toolName"
          (.string toolName)).set "isError" (.bool (CkOutputKind.isError output.kind))).set
        "content" (.array (renderToolResultContent tools output))
    | _ => raw
  | none => raw

/-- `encode_with_meta`. -/
def encodeWithMeta (msg : CkWireMessage) (m : HarnessMessageMeta) : Option Json :=
  let matched := matchBlockMetas tools.hash msg.content m.blocks blockMatchesMeta
  if m.role = "toolResult" ∨ m.raw.stringField "role" = some "toolResult" then
    match (msg.content.zip matched.byBlock).find? fun entry => isToolResult entry.1 with
    | none => none
    | some (block, blockMeta) =>
      if blockMeta.any (blockIsUnchanged tools.hash block) then some m.raw
      else
        let update := updateToolResultMessage tools msg blockMeta.isSome
        some ((updateMessage m.raw update).getD (update m.raw))
  else
    match updateMessage m.raw (updatePiMessageContent tools msg matched) with
    | some raw => some raw
    | none =>
      match msg.content with
      | [] => none
      | block :: _ =>
        match block.kind with
        | .opaqueBlock block => some block.raw
        | _ => some m.raw

/-- `encode_new_message`. -/
def encodeNewMessage (msg : CkWireMessage) : Json :=
  if msg.role = "tool" then
    updateToolResultMessage tools msg false
      (.object [("content", .array []), ("role", .string "toolResult")])
  else
    let content := Json.array (msg.content.map (renderBlockAsContentPart tools))
    if msg.role = "assistant" then
      let field (f : MessageOrigin → String) : Json := .string ((msg.origin.map f).getD "")
      .object [("api", field (·.api)), ("content", content), ("model", field (·.model)),
        ("provider", field (·.provider)), ("role", .string "assistant"),
        ("stopReason", .string "stop"), ("usage", .object [])]
    else .object [("content", content), ("role", .string msg.role)]

/-- `encode_pi`. -/
def encodePi (messages : List CkWireMessage) (sidecar : DecodeSidecar) : List Json :=
  messages.zipIdx.filterMap fun p =>
    match metaForCk sidecar p.1 p.2 with
    | some m => encodeWithMeta tools p.1 m
    | none => some (encodeNewMessage tools p.1)

end Pi
end MagicContext.Codec
