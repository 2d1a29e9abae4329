import MagicContext.Lib.SortedMap
import MagicContext.Wire.Messages
import Mathlib.Data.String.Basic

/-!
# The projection of messages into blocks

A message list is flattened into blocks with stable identities.  The projector walks the messages
and keeps which tool calls are still open: an assistant message opens its calls, results take them
in the order of the calls, and the next message of another role closes what is left.  The state
after every message is kept, so that a later projection can start behind a prefix.

## What is here

* `FlatBlock`, `FlatProjection` — what a projection is.
* `projectMessage`, `projectMessages` — one message, and all of them.
* `projectMessagesIncremental` — a suffix behind a prefix that was projected before.
* `reattachMessagesPrefix` — the messages of a prefix, rebuilt from the projection.
-/

namespace MagicContext.Wire

structure FlatBlock where
  id : String
  mid : String
  blockIndex : Nat
  ordinal : Nat
  role : String
  kindTag : String
  name : Option String
  filePath : Option String
  toolInput : Option Json
  providerExecuted : Bool
  arcId : Option String
  bytes : String
  contentHash : List UInt8
  synthetic : Bool
  toolCallId : Option String
  outputKind : Option String
  wire : CkWireBlock
  deriving DecidableEq

structure BlockIdentity where
  kindTag : String
  byteFingerprint : String
  deriving DecidableEq

/-- The open calls by call id, and the arc of each call block. -/
structure ProjectionState where
  pendingCalls : SortedMap String (List String) := SortedMap.empty
  callArcs : SortedMap String String := SortedMap.empty
  deriving DecidableEq

structure ProjectionMessageMeta where
  mid : String
  ordinal : Nat
  role : String
  origin : Option MessageOrigin
  providerExtras : ProviderExtras
  harnessMeta : HarnessMeta
  deriving DecidableEq

structure FlatProjection where
  blocks : List FlatBlock := []
  identityByMid : SortedMap String (List BlockIdentity) := SortedMap.empty
  messageMeta : List ProjectionMessageMeta := []
  messageBlockEnds : List Nat := []
  statesAfterMessages : List ProjectionState := []
  deriving DecidableEq

inductive CkWireError where
  | midContainsReservedHash (mid : String)
  | unsupportedBlock (mid : String) (blockIndex : Nat) (kind : String)
  | unpairedToolResult (mid : String) (blockIndex : Nat) (toolCallId : String)
  deriving DecidableEq

/-! ## Blocks -/

def blockId (mid : String) (index : Nat) : String := mid ++ "#" ++ toString index

def toolArcId (mid callId : String) : String := mid ++ "#call:" ++ callId

def CkKind.isToolCall : CkKind → Bool
  | .toolCall .. => true
  | _ => false

def adjacentToolCallArc (mid : String) (index : Nat) (content : List CkWireBlock) : Option String :=
  let callAt (i : Nat) := (content[i]?.map fun block => block.kind.isToolCall).getD false
  if 0 < index ∧ callAt (index - 1) then some (blockId mid (index - 1))
  else if callAt (index + 1) then some (blockId mid (index + 1))
  else none

/-- The arc of a block; a result takes the oldest open call of its id. -/
def arcForBlock (mid : String) (index : Nat) (msg : CkWireMessage) (block : CkWireBlock)
    (state : ProjectionState) : Except CkWireError (Option String × ProjectionState) :=
  match block.kind with
  | .toolCall .. =>
    if msg.role = "assistant" then .ok (state.callArcs.get (blockId mid index), state)
    else .ok (none, state)
  | .toolResult id .. =>
    match state.pendingCalls.get id with
    | some (arc :: queue) =>
      .ok (some arc, { state with pendingCalls := state.pendingCalls.insert id queue })
    | _ => .error (.unpairedToolResult mid index id)
  | .reasoning .. | .redactedReasoning _ =>
    if msg.role = "assistant" then .ok (adjacentToolCallArc mid index msg.content, state)
    else .ok (none, state)
  | _ => .ok (none, state)

def extractFilePath (input : Json) : Option String :=
  ["filePath", "file_path", "path"].findSome? fun key => input.stringField key

def hexByte (b : UInt8) : List Char :=
  [Nat.digitChar (b.toNat / 16), Nat.digitChar (b.toNat % 16)]

def fingerprintDigest (contentHash : List UInt8) : String :=
  String.ofList (contentHash.flatMap hexByte)

section Project

-- the JSON text of a block, and the digest of a text
variable (text : CkWireBlock → Option String) (sha256 : String → List UInt8)

variable (msg : CkIngressMessage)

def flattenBlock (index : Nat) (block : CkWireBlock) (id : String)
    (arcId : Option String) : Except CkWireError FlatBlock :=
  match text block with
  | none => .error (.unsupportedBlock msg.mid index block.kind.tag)
  | some bytes => .ok {
      id
      mid := msg.mid
      blockIndex := index
      ordinal := msg.ordinal
      role := msg.ck.role
      kindTag := block.kind.tag
      name := match block.kind with
        | .toolCall _ name _ _ => some name
        | _ => none
      filePath := match block.kind with
        | .toolCall _ _ input _ => extractFilePath input
        | _ => none
      toolInput := match block.kind with
        | .toolCall _ _ input _ => some input
        | _ => none
      providerExecuted := match block.kind with
        | .toolCall _ _ _ executed => executed
        | .toolResult _ _ _ executed => executed
        | _ => false
      arcId
      bytes
      contentHash := sha256 bytes
      synthetic := msg.ck.harnessMeta.synthetic
      toolCallId := match block.kind with
        | .toolCall callId .. => some callId
        | .toolResult callId .. => some callId
        | _ => none
      outputKind := match block.kind with
        | .toolResult _ _ output _ => some output.kind.tag
        | _ => none
      wire := block }

/-! ## Messages -/

/-- How many calls of a message have this id. -/
def callCount (content : List CkWireBlock) (id : String) : Nat :=
  content.countP fun block =>
    match block.kind with
    | .toolCall callId .. => callId == id
    | _ => false

/-- Calls that share an id within a message share an arc. -/
def openCall (mid : String) (content : List CkWireBlock) (state : ProjectionState)
    (entry : CkWireBlock × Nat) : ProjectionState :=
  match entry.1.kind with
  | .toolCall id .. =>
    let arcId := if 1 < callCount content id then toolArcId mid id else blockId mid entry.2
    { callArcs := state.callArcs.insert (blockId mid entry.2) arcId
      pendingCalls :=
        state.pendingCalls.insert id ((state.pendingCalls.get id).getD [] ++ [arcId]) }
  | _ => state

def openCalls : ProjectionState :=
  msg.ck.content.zipIdx.foldl (openCall msg.mid msg.ck.content) {}

/-- The blocks of one message so far, with their identities and the state they leave. -/
structure MessageBlocks where
  state : ProjectionState
  blocks : List FlatBlock := []
  identities : List BlockIdentity := []

def projectBlock (m : MessageBlocks) (entry : CkWireBlock × Nat) :
    Except CkWireError MessageBlocks := do
  let (arcId, state) ← arcForBlock msg.mid entry.2 msg.ck entry.1 m.state
  let flat ← flattenBlock text sha256 msg entry.2 entry.1 (blockId msg.mid entry.2) arcId
  return {
    state
    blocks := m.blocks ++ [flat]
    identities := if flat.synthetic then m.identities else
      m.identities ++ [⟨flat.kindTag, fingerprintDigest flat.contentHash⟩] }

def projectContent (state : ProjectionState) : Except CkWireError MessageBlocks :=
  msg.ck.content.zipIdx.foldlM (projectBlock text sha256 msg) { state }

def CkIngressMessage.shell : ProjectionMessageMeta where
  mid := msg.mid
  ordinal := msg.ordinal
  role := msg.ck.role
  origin := msg.ck.origin
  providerExtras := msg.ck.providerExtras
  harnessMeta := msg.ck.harnessMeta

/-- A projection under way: what it has so far, and the state it goes on with. -/
structure FlatProjectionBuilder where
  projection : FlatProjection := {}
  state : ProjectionState := {}

def projectMessage (b : FlatProjectionBuilder) (msg : CkIngressMessage) :
    Except CkWireError FlatProjectionBuilder := do
  if msg.mid.toList.contains '#' then .error (.midContainsReservedHash msg.mid)
  else
    let opened := if msg.ck.role = "assistant" then openCalls msg else b.state
    let m ← projectContent text sha256 msg opened
    -- results of a message take their calls before the message closes the rest
    let state := if msg.ck.role ≠ "assistant" ∧ msg.ck.role ≠ "tool" then
      { m.state with pendingCalls := SortedMap.empty } else m.state
    let p := b.projection
    return {
      projection := {
        blocks := p.blocks ++ m.blocks
        identityByMid := if msg.ck.harnessMeta.synthetic then p.identityByMid
          else p.identityByMid.insert msg.mid m.identities
        messageMeta := p.messageMeta ++ [msg.shell]
        messageBlockEnds := p.messageBlockEnds ++ [(p.blocks ++ m.blocks).length]
        statesAfterMessages := p.statesAfterMessages ++ [state] }
      state }

variable (messages : List CkIngressMessage)

def projectMessagesFromState (b : FlatProjectionBuilder) : Except CkWireError FlatProjection :=
  (messages.foldlM (projectMessage text sha256) b).map FlatProjectionBuilder.projection

def projectMessages : Except CkWireError FlatProjection :=
  projectMessagesFromState text sha256 messages {}

/-- The identities of a prefix, when the cached projection has them all. -/
def prefixIdentities (cached : FlatProjection) (messages : List CkIngressMessage) :
    Option (SortedMap String (List BlockIdentity)) :=
  messages.foldlM (fun identities msg =>
    if msg.ck.harnessMeta.synthetic then some identities
    else (cached.identityByMid.get msg.mid).map fun ids => identities.insert msg.mid ids)
    SortedMap.empty

/-- The builder behind a prefix of a projection. -/
def FlatProjection.resume (cached : FlatProjection) (prefixMessages : Nat)
    (identityByMid : SortedMap String (List BlockIdentity)) : FlatProjectionBuilder where
  projection := {
    blocks := cached.blocks.take ((cached.messageBlockEnds[prefixMessages - 1]?).getD 0)
    identityByMid
    messageMeta := cached.messageMeta.take prefixMessages
    messageBlockEnds := cached.messageBlockEnds.take prefixMessages
    statesAfterMessages := cached.statesAfterMessages.take prefixMessages }
  state := (cached.statesAfterMessages[prefixMessages - 1]?).getD {}

def projectMessagesIncremental (cached : FlatProjection)
    (prefixMessages : Nat) : Except CkWireError FlatProjection :=
  if prefixMessages = 0 ∨ messages.length < prefixMessages ∨
      cached.messageBlockEnds.length < prefixMessages then
    projectMessages text sha256 messages
  else
    match prefixIdentities cached (messages.take prefixMessages) with
    | none => projectMessages text sha256 messages
    | some identityByMid =>
      projectMessagesFromState text sha256 (messages.drop prefixMessages)
        (cached.resume prefixMessages identityByMid)

end Project

/-! ## Prefixes -/

/-- A block, when it is the message's own and in its place. -/
def reattachBlock (shell : ProjectionMessageMeta) (entry : FlatBlock × Nat) : Option CkWireBlock :=
  if entry.1.mid = shell.mid ∧ entry.1.ordinal = shell.ordinal ∧ entry.1.role = shell.role ∧
    entry.1.blockIndex = entry.2 then some entry.1.wire else none

def reattachContent (shell : ProjectionMessageMeta) (blocks : List FlatBlock) :
    Option (List CkWireBlock) :=
  blocks.zipIdx.mapM (reattachBlock shell)

/-- The messages of these shells; the first has its blocks from this place on. -/
def reattachFrom (blocks : List FlatBlock) (start : Nat) :
    List (ProjectionMessageMeta × Nat) → Option (List CkIngressMessage)
  | [] => some []
  | (shell, stop) :: rest => do
    if stop < start ∨ blocks.length < stop then none
    else
      let content ← reattachContent shell ((blocks.take stop).drop start)
      let messages ← reattachFrom blocks stop rest
      return {
        mid := shell.mid
        ordinal := shell.ordinal
        ck := .fromParts shell.role content shell.origin shell.providerExtras
          shell.harnessMeta } :: messages

def FlatProjection.reattachMessagesPrefix (p : FlatProjection) (prefixMessages : Nat) :
    Option (List CkIngressMessage) :=
  if p.messageBlockEnds.length < prefixMessages ∨
      p.messageMeta.length ≠ p.messageBlockEnds.length then none
  else reattachFrom p.blocks 0 ((p.messageMeta.zip p.messageBlockEnds).take prefixMessages)

end MagicContext.Wire
