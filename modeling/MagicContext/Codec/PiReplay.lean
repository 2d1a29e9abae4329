import MagicContext.Codec.Pi

/-!
# Which Pi entries replay

Messages that nothing has changed are encoded back to the entries they came from, with exceptions:
the parts of a message are rebuilt as an array, so that a content which is no array comes back as
one.

## What is here

* `replays` — the entries that come back as they were.
* `encodeWithMeta_eq_iff` — for one entry; `encodePi_decodePi_iff` for a session.
* `custom_text_is_wrapped` — a session that does not come back.
-/

namespace MagicContext.Codec
namespace Pi

open Wire Json

variable (tools : JsonTools)

/-! ## Entries that replay -/

/-- The content of a message that encoding leaves as it is. -/
def keepsContent (role : String) (content : Option Json) : Bool :=
  match role, content with
  | "user", some (.string _) => true
  | "user", some (.array _) => true
  | "user", _ => false
  | "assistant", some (.array _) => true
  | "assistant", _ => false
  | _, some (.array (_ :: _)) => true
  | _, _ => false

/-- A tool result replays; another message does when its content is one its role keeps and the
entry around it does not call it a tool result; an entry without a message does. -/
def replays (rawEntry : Json) : Bool :=
  match piMessage rawEntry with
  | none => true
  | some message =>
    roleOf message == "toolResult" ||
      rawEntry.stringField "role" != some "toolResult" &&
        keepsContent (roleOf message) (message.get? "content")

/-- The entry is neither a compaction nor skipped. -/
def emits (rawEntry : Json) : Bool :=
  !isCompaction rawEntry && ((piMessage rawEntry).isSome || isPiOpaqueEntry rawEntry)

/-! ## One message -/

/-- The blocks of an entry before they are numbered. -/
def nativesOf (ordinal : Nat) (rawEntry : Json) : List NativeBlock :=
  match piMessage rawEntry with
  | some message => decodeContent tools (roleOf message) ordinal message
  | none =>
    let role := (typeOf rawEntry).getD "custom"
    [native (opaqueBlock harness role rawEntry none).kind [] 0 rawEntry "opaque"]

/-- What an entry is decoded to. -/
structure DecodedFrom (rawEntry : Json) (msg : CkIngressMessage) (m : HarnessMessageMeta) :
    Prop where
  emits : emits rawEntry = true
  raw : m.raw = rawEntry
  harnessId : msg.ck.harnessMeta.harnessId = some msg.mid
  blocks : ∃ ordinal, msg.ck.content = (stampAll tools.hash (nativesOf tools ordinal rawEntry)).map
      Prod.fst ∧
    m.blocks = (stampAll tools.hash (nativesOf tools ordinal rawEntry)).map Prod.snd
  role : m.role = match piMessage rawEntry with
    | some message => roleOf message
    | none => (typeOf rawEntry).getD "custom"
  ckRole : msg.ck.role = match piMessage rawEntry with
    | some message => if roleOf message = "toolResult" then "tool" else roleOf message
    | none => "user"

/-- Pairing each block with its part changes no part that has an unchanged block. -/
theorem foldl_updateParts {natives : List NativeBlock} {parts : List Json}
    (h : ∀ native ∈ natives, native.nativeIndex < parts.length) :
    (((stampAll tools.hash natives).map Prod.fst).zip
        ((stampAll tools.hash natives).map fun s => some s.2)).foldl (updateParts tools) parts =
      parts := by
  rw [List.zip_map']
  refine List.foldlRecOn (motive := fun acc => acc = parts) _ _ rfl fun acc hacc entry hentry => ?_
  obtain ⟨s, hs, rfl⟩ := List.mem_map.mp hentry
  obtain ⟨native, hnative, blockIndex, rfl⟩ := mem_stampAll hs
  obtain ⟨part, hpart⟩ : ∃ part, parts[native.nativeIndex]? = some part :=
    ⟨_, List.getElem?_eq_getElem (h native hnative)⟩
  rw [hacc, updateParts]
  simp only [Option.bind_some, Option.any_some, blockIsUnchanged_stamp, Bool.true_or, if_true]
  rw [show (native.stamp tools.hash blockIndex).2.nativeIndex = some native.nativeIndex from rfl]
  dsimp only
  rw [hpart]

variable {rawEntry message : Json} {msg : CkIngressMessage} {m : HarnessMessageMeta}
  {entries : List Json} {pairs : List (CkIngressMessage × HarnessMessageMeta)}

/-- What encoding matches the blocks of a decoded message with. -/
theorem byBlock_eq (h : DecodedFrom tools rawEntry msg m) : ∃ ordinal,
      msg.ck.content = (stampAll tools.hash (nativesOf tools ordinal rawEntry)).map Prod.fst ∧
      (matchBlockMetas tools.hash msg.ck.content m.blocks blockMatchesMeta).byBlock =
        (stampAll tools.hash (nativesOf tools ordinal rawEntry)).map (fun s => some s.2) ∧
      ∀ parts, (matchBlockMetas tools.hash msg.ck.content m.blocks
        blockMatchesMeta).removeUnretainedNativeParts parts = parts := by
  obtain ⟨ordinal, hcontent, hblocks⟩ := h.blocks
  refine ⟨ordinal, hcontent, ?_, fun parts => ?_⟩
  · rw [hcontent, hblocks]
    exact byBlock_stampAll tools.hash _ _
  · rw [hcontent, hblocks]
    exact removeUnretained_stampAll tools.hash _ _ parts

theorem updateMessage_eq_none (h : piMessage rawEntry = none) (change : Json → Json) :
    updateMessage rawEntry change = none := by
  rw [piMessage] at h
  rw [updateMessage]
  split at h
  · rename_i hwrapped
    rw [if_pos hwrapped, h, Option.map_none]
  · rename_i hwrapped
    rw [if_neg hwrapped]
    split at h
    · cases h
    · rename_i hrole
      rw [if_neg hrole]

/-- An entry is as it was when its message is. -/
theorem updateMessage_eq_self (h : piMessage rawEntry = some message) (change : Json → Json) :
    updateMessage rawEntry change = some rawEntry ↔ change message = message := by
  rw [piMessage] at h
  rw [updateMessage]
  split at h
  · rename_i hwrapped
    rw [if_pos hwrapped, h, Option.map_some, Option.some_inj, set_eq_self, h,
      Option.some_inj, eq_comm]
  · rename_i hwrapped
    rw [if_neg hwrapped]
    split at h
    · rename_i hrole
      rw [Option.some_inj] at h
      rw [if_pos hrole, h, Option.some_inj]
    · cases h

theorem updateMessage_isSome (h : piMessage rawEntry = some message) (change : Json → Json) :
    ∃ raw, updateMessage rawEntry change = some raw := by
  rw [piMessage] at h
  rw [updateMessage]
  split at h
  · rename_i hwrapped
    exact ⟨_, by rw [if_pos hwrapped, h, Option.map_some]⟩
  · rename_i hwrapped
    split at h
    · rename_i hrole
      exact ⟨_, by rw [if_neg hwrapped, if_pos hrole]⟩
    · cases h

/-! ### Blocks that are no tool results -/

theorem isToolResult_decodeContent {role : String} (h : role ≠ "toolResult") (ordinal : Nat)
    (message : Json) :
    ∀ native ∈ decodeContent tools role ordinal message, isToolResult native.block = false := by
  have htext : ∀ part n, isToolResult (textPart part n).block = false := fun _ _ => rfl
  have hopaque : ∀ part n arc, isToolResult (nativeOpaque part n arc).block = false :=
    fun _ _ _ => rfl
  intro native hnative
  unfold decodeContent at hnative
  split at hnative
  · rw [decodeUserMessage] at hnative
    split at hnative
    · obtain rfl := List.mem_singleton.mp hnative
      rfl
    · obtain ⟨-, -, rfl⟩ := List.mem_map.mp hnative
      rw [userPart]
      split
      · exact htext ..
      · rfl
      · exact hopaque ..
    · cases hnative
  · rw [decodeAssistantMessage] at hnative
    split at hnative
    · obtain ⟨-, -, rfl⟩ := List.mem_map.mp hnative
      rw [assistantPart]
      split
      · exact htext ..
      · rw [thinkingPart]
        split <;> rfl
      · rfl
      · exact hopaque ..
      · exact hopaque ..
    · cases hnative
  · exact absurd rfl h
  · obtain rfl := List.mem_singleton.mp hnative
    rfl

/-! ### The content of a message -/

/-- The parts of a message after its blocks have been put back. -/
def rebuiltParts (msg : CkWireMessage) (matched : MatchedBlockMetas) (message : Json) : List Json :=
  matched.removeUnretainedNativeParts ((msg.content.zip matched.byBlock).foldl (updateParts tools)
    (((message.get? "content").bind Json.asArray).getD []))

theorem updatePiMessageContent_of_parts {msg : CkWireMessage}
    (h : ¬ (msg.role = "user" ∧ (message.get? "content").any isString = true))
    (matched : MatchedBlockMetas) : updatePiMessageContent tools msg matched message =
      message.set "content" (.array (rebuiltParts tools msg matched message)) := by
  rw [updatePiMessageContent]
  exact if_neg h

/-- Parts that all have blocks stay. -/
theorem rebuiltParts_of_array (h : DecodedFrom tools rawEntry msg m) {parts : List Json}
    (hparts : message.get? "content" = some (.array parts))
    (hnatives : ∀ ordinal, ∀ native ∈ nativesOf tools ordinal rawEntry,
      native.nativeIndex < parts.length) :
    rebuiltParts tools msg.ck (matchBlockMetas tools.hash msg.ck.content m.blocks blockMatchesMeta)
      message = parts := by
  obtain ⟨ordinal, hcontent, hbyBlock, hremoved⟩ := byBlock_eq tools h
  rw [rebuiltParts, hremoved, hbyBlock, hcontent, hparts]
  exact foldl_updateParts tools (hnatives ordinal)

/-- A block without its part is put at the end. -/
theorem rebuiltParts_ne_nil (h : DecodedFrom tools rawEntry msg m)
    (hparts : ((message.get? "content").bind asArray).getD [] = [])
    (hnatives : ∀ ordinal, ∃ native, nativesOf tools ordinal rawEntry = [native]) :
    rebuiltParts tools msg.ck (matchBlockMetas tools.hash msg.ck.content m.blocks blockMatchesMeta)
      message ≠ [] := by
  obtain ⟨ordinal, hcontent, hbyBlock, hremoved⟩ := byBlock_eq tools h
  obtain ⟨native, hnative⟩ := hnatives ordinal
  rw [rebuiltParts, hremoved, hbyBlock, hcontent, hparts, hnative]
  exact List.cons_ne_nil _ _

/-- An array is not put where there was none. -/
theorem set_array_ne (h : (message.get? "content").bind asArray = none) (parts : List Json) :
    message.set "content" (.array parts) ≠ message := by
  intro heq
  rw [set_eq_self.mp heq] at h
  cases h

section
variable (h : DecodedFrom tools rawEntry msg m)
include h

section
variable (hmessage : piMessage rawEntry = some message)
include hmessage

theorem updatePiMessageContent_user (hrole : roleOf message = "user") :
    updatePiMessageContent tools msg.ck
        (matchBlockMetas tools.hash msg.ck.content m.blocks blockMatchesMeta) message = message ↔
      keepsContent "user" (message.get? "content") = true := by
  have hnatives : ∀ ordinal, nativesOf tools ordinal rawEntry = decodeUserMessage message := by
    intro ordinal
    rw [nativesOf, hmessage]
    dsimp only
    rw [hrole]
    rfl
  cases hcontent : message.get? "content" with
  | none =>
    rw [updatePiMessageContent_of_parts tools (by simp [hcontent])]
    exact iff_of_false (set_array_ne (by rw [hcontent]; rfl) _) Bool.false_ne_true
  | some content =>
    cases content with
    | string text =>
      obtain ⟨ordinal, hck, -, -⟩ := byBlock_eq tools h
      rw [hnatives, decodeUserMessage, hcontent] at hck
      have hckRole : msg.ck.role = "user" := by
        have := h.ckRole
        rw [hmessage] at this
        simpa [hrole] using this
      refine iff_of_true ?_ rfl
      rw [updatePiMessageContent, if_pos ⟨hckRole, by rw [hcontent]; rfl⟩, hck]
      exact set_self hcontent
    | array parts =>
      refine iff_of_true ?_ rfl
      rw [updatePiMessageContent_of_parts tools (by simp [hcontent, isString, asString]),
        rebuiltParts_of_array tools h hcontent]
      · exact set_self hcontent
      · intro ordinal native hnative
        rw [hnatives, decodeUserMessage, hcontent] at hnative
        obtain ⟨p, hp, rfl⟩ := List.mem_map.mp hnative
        have hindex : (userPart p.1 p.2).nativeIndex = p.2 := by
          rw [userPart]
          split <;> rfl
        rw [hindex]
        exact List.snd_lt_of_mem_zipIdx hp
    | _ =>
      rw [updatePiMessageContent_of_parts tools (by simp [hcontent, isString, asString])]
      exact iff_of_false (set_array_ne (by rw [hcontent]; rfl) _) Bool.false_ne_true

theorem updatePiMessageContent_assistant (hrole : roleOf message = "assistant") :
    updatePiMessageContent tools msg.ck
        (matchBlockMetas tools.hash msg.ck.content m.blocks blockMatchesMeta) message = message ↔
      keepsContent "assistant" (message.get? "content") = true := by
  have hckRole : msg.ck.role = "assistant" := by
    have := h.ckRole
    rw [hmessage] at this
    simpa [hrole] using this
  rw [updatePiMessageContent_of_parts tools (by simp [hckRole])]
  cases hcontent : message.get? "content" with
  | none => exact iff_of_false (set_array_ne (by rw [hcontent]; rfl) _) Bool.false_ne_true
  | some content =>
    cases content with
    | array parts =>
      refine iff_of_true ?_ rfl
      rw [rebuiltParts_of_array tools h hcontent]
      · exact set_self hcontent
      · intro ordinal native hnative
        rw [nativesOf, hmessage] at hnative
        dsimp only at hnative
        rw [hrole, decodeContent, decodeAssistantMessage, hcontent] at hnative
        obtain ⟨p, hp, rfl⟩ := List.mem_map.mp hnative
        have hindex : (assistantPart tools ordinal p.1 p.2).nativeIndex = p.2 := by
          rw [assistantPart]
          split
          · rfl
          · rw [thinkingPart]
            split <;> rfl
          · rfl
          · rfl
          · rfl
        rw [hindex]
        exact List.snd_lt_of_mem_zipIdx hp
    | _ => exact iff_of_false (set_array_ne (by rw [hcontent]; rfl) _) Bool.false_ne_true

theorem updatePiMessageContent_other (huser : roleOf message ≠ "user")
    (hassistant : roleOf message ≠ "assistant") (hresult : roleOf message ≠ "toolResult") :
    updatePiMessageContent tools msg.ck
        (matchBlockMetas tools.hash msg.ck.content m.blocks blockMatchesMeta) message = message ↔
      ∃ part parts, message.get? "content" = some (.array (part :: parts)) := by
  have hckRole : msg.ck.role ≠ "user" := by
    have := h.ckRole
    rw [hmessage] at this
    simpa [hresult, this] using huser
  have hnatives : ∀ ordinal, nativesOf tools ordinal rawEntry =
      [native (opaqueBlock harness (roleOf message) message none).kind [] 0 message
        (roleOf message)] := by
    intro ordinal
    rw [nativesOf, hmessage]
    exact decodeContent.eq_4 tools _ ordinal message huser hassistant hresult
  rw [updatePiMessageContent_of_parts tools fun h => hckRole h.1]
  constructor
  · intro heq
    have hcontent := set_eq_self.mp heq
    cases hparts : ((message.get? "content").bind asArray).getD [] with
    | nil =>
      rw [hcontent, Option.bind_some] at hparts
      exact absurd hparts (rebuiltParts_ne_nil tools h (by rw [hcontent]; exact hparts)
        fun ordinal => ⟨_, hnatives ordinal⟩)
    | cons part parts =>
      rw [hcontent] at hparts
      exact ⟨part, parts, hcontent.trans (congrArg (fun ps => some (array ps)) hparts)⟩
  · rintro ⟨part, parts, hcontent⟩
    rw [rebuiltParts_of_array tools h hcontent]
    · exact set_self hcontent
    · intro ordinal native hnative
      rw [hnatives] at hnative
      obtain rfl := List.mem_singleton.mp hnative
      exact Nat.succ_pos _

end

end

theorem keepsContent_other {role : String} (huser : role ≠ "user")
    (hassistant : role ≠ "assistant") (content : Option Json) :
    keepsContent role content = true ↔ ∃ part parts, content = some (.array (part :: parts)) := by
  constructor
  · intro h
    unfold keepsContent at h
    split at h
    · exact absurd rfl huser
    · exact absurd rfl huser
    · exact absurd rfl huser
    · exact absurd rfl hassistant
    · exact absurd rfl hassistant
    · exact ⟨_, _, rfl⟩
    · cases h
  · rintro ⟨-, -, rfl⟩
    rw [keepsContent]
    · exact huser
    · exact hassistant

section
variable (h : DecodedFrom tools rawEntry msg m)
include h

/-- The content of a message is put back as it was when its role keeps it. -/
theorem updatePiMessageContent_eq_self (hmessage : piMessage rawEntry = some message)
    (hresult : roleOf message ≠ "toolResult") :
    updatePiMessageContent tools msg.ck
        (matchBlockMetas tools.hash msg.ck.content m.blocks blockMatchesMeta) message = message ↔
      keepsContent (roleOf message) (message.get? "content") = true := by
  by_cases huser : roleOf message = "user"
  · rw [huser]
    exact updatePiMessageContent_user tools h hmessage huser
  by_cases hassistant : roleOf message = "assistant"
  · rw [hassistant]
    exact updatePiMessageContent_assistant tools h hmessage hassistant
  rw [keepsContent_other huser hassistant]
  exact updatePiMessageContent_other tools h hmessage huser hassistant hresult

/-! ### One entry -/

/-- No block of an entry that is no tool result is one. -/
theorem find_isToolResult
    (hresult : ∀ message, piMessage rawEntry = some message → roleOf message ≠ "toolResult")
    (metas : List (Option BlockMeta)) :
    ((msg.ck.content.zip metas).find? fun entry => isToolResult entry.1) = none := by
  obtain ⟨ordinal, hcontent, -⟩ := h.blocks
  rw [List.find?_eq_none]
  rintro ⟨block, blockMeta⟩ hentry
  have hblock := (List.of_mem_zip hentry).1
  rw [hcontent] at hblock
  obtain ⟨s, hs, rfl⟩ := List.mem_map.mp hblock
  obtain ⟨native, hnative, -, rfl⟩ := mem_stampAll hs
  have hnone : isToolResult native.block = false := by
    rw [nativesOf] at hnative
    split at hnative
    · rename_i message hmessage
      exact isToolResult_decodeContent tools (hresult message hmessage) ordinal message native
        hnative
    · obtain rfl := List.mem_singleton.mp hnative
      rfl
  exact Bool.eq_false_iff.mp hnone

/-- A tool result replays. -/
theorem encodeWithMeta_toolResult (hmessage : piMessage rawEntry = some message)
    (hresult : roleOf message = "toolResult") :
    encodeWithMeta tools msg.ck m = some rawEntry := by
  have hrole := h.role
  rw [hmessage] at hrole
  obtain ⟨ordinal, hcontent, hbyBlock, -⟩ := byBlock_eq tools h
  rw [nativesOf, hmessage] at hcontent hbyBlock
  dsimp only at hcontent hbyBlock
  rw [hresult, decodeContent, decodeToolResultMessage] at hcontent hbyBlock
  rw [encodeWithMeta]
  rw [if_pos (Or.inl (hrole.trans hresult)), hbyBlock, hcontent, h.raw]
  simp only [stampAll, List.zipIdx_singleton, List.map_cons, List.map_nil, List.zip_cons_cons,
    List.zip_nil_left, List.find?_cons]
  rw [show isToolResult (NativeBlock.stamp tools.hash _ 0).1 = true from rfl]
  dsimp only
  rw [Option.any_some, blockIsUnchanged_stamp, if_pos rfl]

/-- An entry without a message replays. -/
theorem encodeWithMeta_noMessage (hmessage : piMessage rawEntry = none) :
    encodeWithMeta tools msg.ck m = some rawEntry := by
  have hrole := h.role
  have hemits := h.emits
  obtain ⟨ordinal, hcontent, -⟩ := h.blocks
  rw [hmessage] at hrole
  rw [emits, hmessage, Option.isSome_none, Bool.false_or, Bool.and_eq_true, isPiOpaqueEntry]
    at hemits
  obtain ⟨type, htype, hopaque⟩ : ∃ type, typeOf rawEntry = some type ∧
      ((type = "custom_message" ∨ type = "custom") ∨ type = "branch_summary") := by
    cases htype : typeOf rawEntry with
    | none => simp [htype] at hemits
    | some type => exact ⟨type, rfl, by simpa [htype] using hemits.2⟩
  have hnotMessage : typeOf rawEntry ≠ some "message" := by
    rw [htype]
    rintro heq
    obtain rfl := Option.some_inj.mp heq
    simp at hopaque
  have hnoRole : rawEntry.get? "role" = none := by
    rw [piMessage, if_neg hnotMessage] at hmessage
    simpa using hmessage
  have hnotResult : ¬ (m.role = "toolResult" ∨ rawEntry.stringField "role" = some "toolResult") := by
    rw [hrole, htype, stringField, hnoRole]
    rintro (heq | heq)
    · subst heq
      simp at hopaque
    · cases heq
  rw [encodeWithMeta, h.raw]
  rw [if_neg hnotResult, updateMessage_eq_none hmessage, hcontent, nativesOf, hmessage]
  rfl

/-- **An entry comes back as it was exactly when it replays.** -/
theorem encodeWithMeta_eq_iff :
    encodeWithMeta tools msg.ck m = some rawEntry ↔ replays rawEntry = true := by
  have hrole := h.role
  cases hmessage : piMessage rawEntry with
  | none =>
    exact iff_of_true (encodeWithMeta_noMessage tools h hmessage) (by rw [replays, hmessage])
  | some message =>
    by_cases hresult : roleOf message = "toolResult"
    · exact iff_of_true (encodeWithMeta_toolResult tools h hmessage hresult)
        (by simp [replays, hmessage, hresult])
    rw [hmessage] at hrole
    rw [replays, hmessage, encodeWithMeta, h.raw, hrole]
    dsimp only
    rw [beq_eq_false_iff_ne.mpr hresult, Bool.false_or, Bool.and_eq_true, bne_iff_ne]
    by_cases houter : rawEntry.stringField "role" = some "toolResult"
    · rw [if_pos (Or.inr houter), find_isToolResult tools h fun message' hmessage' => by
        rw [hmessage, Option.some_inj] at hmessage'
        exact hmessage' ▸ hresult]
      exact iff_of_false (fun h => by cases h) fun h => h.1 houter
    · rw [if_neg fun h => h.elim hresult houter,
        ← updatePiMessageContent_eq_self tools h hmessage hresult,
        ← updateMessage_eq_self hmessage]
      cases hupdated : updateMessage rawEntry (updatePiMessageContent tools msg.ck
          (matchBlockMetas tools.hash msg.ck.content m.blocks blockMatchesMeta)) with
      | some raw => exact (and_iff_right houter).symm
      | none =>
        obtain ⟨raw, hraw⟩ := updateMessage_isSome hmessage (updatePiMessageContent tools msg.ck
          (matchBlockMetas tools.hash msg.ck.content m.blocks blockMatchesMeta))
        rw [hupdated] at hraw
        cases hraw

end

/-! ## A session -/

/-- What a list of entries has been decoded to. -/
structure Decoding (entries : List Json) (state : DecodeState)
    (pairs : List (CkIngressMessage × HarnessMessageMeta)) : Prop where
  decoded : state.decoded = pairs.map Prod.fst
  from' : List.Forall₂ (fun rawEntry p => DecodedFrom tools rawEntry p.1 p.2)
    (entries.filter emits) pairs
  remembered : (pairs.map fun p => p.1.mid).Nodup →
    ∀ p ∈ pairs, state.sidecar.messages.get p.1.mid = some p.2

/-- Taking a message in. -/
theorem take_decodedFrom (state : DecodeState) (hemits : emits rawEntry = true)
    (stableKey firstSight : String) {role ckRole : String} {natives : List NativeBlock}
    (origin : Option MessageOrigin)
    (hnatives : natives = nativesOf tools (state.decoded.length + 1) rawEntry)
    (hrole : role = match piMessage rawEntry with
      | some message => roleOf message
      | none => (typeOf rawEntry).getD "custom") (hckRole : ckRole = match piMessage rawEntry with
      | some message => if roleOf message = "toolResult" then "tool" else roleOf message
      | none => "user") : ∃ msg m, DecodedFrom tools rawEntry msg m ∧
      (state.take tools stableKey firstSight role ckRole rawEntry natives origin).decoded =
        state.decoded ++ [msg] ∧
      (state.take tools stableKey firstSight role ckRole rawEntry natives
        origin).sidecar.messages = state.sidecar.messages.insert msg.mid m :=
  ⟨_, _, ⟨hemits, rfl, rfl, ⟨state.decoded.length + 1, by rw [hnatives]; rfl, by rw [hnatives]⟩,
    hrole, hckRole⟩, rfl, rfl⟩

/-- One more message. -/
theorem Decoding.push {state state' : DecodeState} (h : Decoding tools entries state pairs)
    (hfrom : DecodedFrom tools rawEntry msg m)
    (hdecoded : state'.decoded = state.decoded ++ [msg])
    (hmessages : state'.sidecar.messages = state.sidecar.messages.insert msg.mid m) :
    Decoding tools (entries ++ [rawEntry]) state' (pairs ++ [(msg, m)]) where
  decoded := by rw [hdecoded, h.decoded, List.map_append, List.map_singleton]
  from' := by
    rw [List.filter_append, List.filter_singleton, hfrom.emits]
    exact List.rel_append h.from' (.cons hfrom .nil)
  remembered := by
    intro hnodup p hp
    rw [List.map_append, List.map_singleton, List.nodup_append] at hnodup
    rw [hmessages, SortedMap.get_insert]
    rcases List.mem_append.mp hp with hp | hp
    · have hne : msg.mid ≠ p.1.mid := fun heq =>
        hnodup.2.2 _ (List.mem_map_of_mem hp) _ (List.mem_singleton_self _) heq.symm
      rw [if_neg hne]
      exact h.remembered hnodup.1 p hp
    · obtain rfl := List.mem_singleton.mp hp
      rw [if_pos rfl]

theorem Decoding.skip {state state' : DecodeState} (h : Decoding tools entries state pairs)
    (hemits : emits rawEntry = false) (hdecoded : state'.decoded = state.decoded)
    (hsidecar : state'.sidecar = state.sidecar) :
    Decoding tools (entries ++ [rawEntry]) state' pairs where
  decoded := hdecoded.trans h.decoded
  from' := by
    rw [List.filter_append, List.filter_singleton, hemits]
    simpa using h.from'
  remembered := hsidecar ▸ h.remembered

theorem Decoding.harnessId {state : DecodeState} (h : Decoding tools entries state pairs) :
    ∀ p ∈ pairs, p.1.ck.harnessMeta.harnessId = some p.1.mid := by
  have hfrom := h.from'
  generalize entries.filter emits = emitted at hfrom
  clear h
  induction hfrom with
  | nil => exact List.forall_mem_nil _
  | cons hfrom _ ih => exact List.forall_mem_cons.mpr ⟨hfrom.harnessId, ih⟩

/-- One entry. -/
theorem Decoding.step {state : DecodeState} (h : Decoding tools entries state pairs)
    (entry : Json × Nat) :
    ∃ pairs', Decoding tools (entries ++ [entry.1]) (decodeEntry tools state entry) pairs' := by
  obtain ⟨rawEntry, -⟩ := entry
  rw [decodeEntry]
  by_cases hcompaction : isCompaction rawEntry = true
  · rw [if_pos hcompaction]
    exact ⟨pairs, h.skip tools (by rw [emits, hcompaction]; rfl) rfl rfl⟩
  rw [if_neg hcompaction]
  rw [Bool.not_eq_true] at hcompaction
  cases hmessage : piMessage rawEntry with
  | none =>
    by_cases hopaque : isPiOpaqueEntry rawEntry = true
    · rw [if_pos hopaque]
      have hemits : emits rawEntry = true := by
        rw [emits, hcompaction, hopaque, Bool.or_true]
        rfl
      obtain ⟨msg, m, hfrom, hdecoded, hmessages⟩ := take_decodedFrom tools state hemits _ _ none
        (by rw [nativesOf, hmessage]) (by rw [hmessage]) (by rw [hmessage])
      exact ⟨_, h.push tools hfrom hdecoded hmessages⟩
    · rw [if_neg hopaque]
      exact ⟨pairs, h.skip tools (by
        rw [emits, hmessage, Bool.eq_false_iff.mpr hopaque, hcompaction]; rfl) rfl rfl⟩
  | some message =>
    have hemits : emits rawEntry = true := by
      rw [emits, hcompaction, hmessage]
      rfl
    obtain ⟨msg, m, hfrom, hdecoded, hmessages⟩ := take_decodedFrom tools state hemits _ _ _
      (by rw [nativesOf, hmessage]) (by rw [hmessage]) (by rw [hmessage])
    exact ⟨_, h.push tools hfrom hdecoded hmessages⟩

/-- A whole session. -/
theorem decoding (entries : List Json) (prior : Option DecodeSidecar) :
    ∃ pairs, Decoding tools entries
      (entries.zipIdx.foldl (decodeEntry tools) (startState prior)) pairs := by
  have hrun : ∀ (rest : List (Json × Nat)) (done : List Json) (state : DecodeState) pairs,
      Decoding tools done state pairs → ∃ pairs',
        Decoding tools (done ++ rest.map Prod.fst) (rest.foldl (decodeEntry tools) state) pairs' := by
    intro rest
    induction rest with
    | nil =>
      intro done state pairs h
      exact ⟨pairs, by rwa [List.map_nil, List.append_nil]⟩
    | cons entry rest ih =>
      intro done state pairs h
      obtain ⟨pairs', h'⟩ := h.step tools entry
      rw [List.map_cons, List.append_cons]
      exact ih _ _ _ h'
  have hstart : Decoding tools [] (startState prior) [] :=
    ⟨rfl, .nil, fun _ p hp => absurd hp List.not_mem_nil⟩
  obtain ⟨pairs, h⟩ := hrun entries.zipIdx [] (startState prior) [] hstart
  rw [List.nil_append, List.zipIdx_map_fst] at h
  exact ⟨pairs, h⟩

/-! ### Encoding it -/

/-- A partial map gives a list of the same length when it gives every item of it. -/
theorem filterMap_eq_iff {α β : Type} {P : β → Prop} {f : α → Option β} {l : List α}
    {targets : List β} (h : List.Forall₂ (fun b a => f a = some b ↔ P b) targets l) :
    l.filterMap f = targets ↔ ∀ b ∈ targets, P b := by
  induction h with
  | nil => exact iff_of_true rfl (List.forall_mem_nil _)
  | @cons b a targets l hP h ih =>
    rw [List.forall_mem_cons, ← ih, ← hP]
    cases hf : f a with
    | none =>
      rw [List.filterMap_cons_none hf]
      refine iff_of_false (fun heq => ?_) fun h => by cases h.1
      have hlength := List.length_filterMap_le f l
      rw [heq, List.length_cons, h.length_eq] at hlength
      exact Nat.not_succ_le_self _ hlength
    | some b' => rw [List.filterMap_cons_some hf, List.cons_eq_cons, Option.some_inj]

/-- Messages that are remembered are encoded with what is remembered of them. -/
theorem encodePi_of_remembered {sidecar : DecodeSidecar}
    (hid : ∀ p ∈ pairs, p.1.ck.harnessMeta.harnessId = some p.1.mid)
    (hremembered : ∀ p ∈ pairs, sidecar.messages.get p.1.mid = some p.2) :
    encodePi tools (pairs.map fun p => p.1.ck) sidecar =
      pairs.filterMap fun p => encodeWithMeta tools p.1.ck p.2 := by
  have hrun : ∀ (f : CkWireMessage × Nat → Option Json) start,
      (∀ p ∈ pairs, ∀ i, f (p.1.ck, i) = encodeWithMeta tools p.1.ck p.2) →
      ((pairs.map fun p => p.1.ck).zipIdx start).filterMap f =
        pairs.filterMap fun p => encodeWithMeta tools p.1.ck p.2 := by
    intro f
    clear hid hremembered
    induction pairs with
    | nil => exact fun _ _ => rfl
    | cons p pairs ih =>
      intro start hf
      rw [List.map_cons, List.zipIdx_cons, List.filterMap_cons, List.filterMap_cons,
        hf p List.mem_cons_self, ih _ fun q hq => hf q (List.mem_cons_of_mem _ hq)]
  refine hrun _ 0 fun p hp i => ?_
  have hmeta : metaForCk sidecar p.1.ck i = some p.2 := by
    rw [metaForCk, hid p hp, Option.bind_some, DecodeSidecar.messageByMid, hremembered p hp]
    rfl
  rw [hmeta]

theorem encodePi_eq_iff (entries : List Json) (prior : Option DecodeSidecar)
    (hmids : ((decodePiWithSidecar tools entries prior).messages.map (·.mid)).Nodup) :
    encodePi tools ((decodePiWithSidecar tools entries prior).messages.map (·.ck))
        (decodePiWithSidecar tools entries prior).sidecar = entries.filter emits ↔
      ∀ rawEntry ∈ entries.filter emits, replays rawEntry = true := by
  obtain ⟨pairs, h⟩ := decoding tools entries prior
  rw [decodePiWithSidecar] at hmids ⊢
  rw [h.decoded, List.map_map] at hmids ⊢
  rw [show (fun msg : CkIngressMessage => msg.ck) ∘ Prod.fst =
      fun p : CkIngressMessage × HarnessMessageMeta => p.1.ck from rfl,
    encodePi_of_remembered tools h.harnessId (h.remembered hmids)]
  exact filterMap_eq_iff (h.from'.imp fun _ _ hfrom => encodeWithMeta_eq_iff tools hfrom)

/-- **A session nothing has changed is encoded back to its entries, but for compactions and those
that were skipped, exactly when these all replay.** -/
theorem encodePi_decodePi_iff (entries : List Json)
    (hmids : ((decodePi tools entries).messages.map (·.mid)).Nodup) :
    encodePi tools ((decodePi tools entries).messages.map (·.ck))
        (decodePi tools entries).sidecar = entries.filter emits ↔
      ∀ rawEntry ∈ entries, emits rawEntry = true → replays rawEntry = true := by
  rw [decodePi, encodePi_eq_iff tools entries none hmids]
  simp only [List.mem_filter, and_imp]

/-- One hash for all: blocks that nothing has changed have the fingerprint they were given. -/
def plainTools : JsonTools := ⟨fun _ => "0", fun _ => ""⟩

/-- A question and its answer. -/
def exchange : List Json :=
  [.object [("content", .string "hi"), ("role", .string "user"),
      ("timestamp", .number (.posInt 1))],
    .object [("type", .string "compaction")],
    .object [("content", .array [.object [("text", .string "yes"), ("type", .string "text")]]),
      ("role", .string "assistant"), ("timestamp", .number (.posInt 2))]]

theorem encodePi_decodePi_exchange :
    encodePi plainTools ((decodePi plainTools exchange).messages.map (·.ck))
        (decodePi plainTools exchange).sidecar = exchange.filter emits ↔
      ∀ rawEntry ∈ exchange, emits rawEntry = true → replays rawEntry = true :=
  encodePi_decodePi_iff plainTools exchange (by decide +kernel)

/-- **The content of a message of another role is replaced by the message when it is a text.** -/
theorem custom_text_is_wrapped :
    ¬ ∀ (tools : JsonTools) (entries : List Json),
      ((decodePi tools entries).messages.map (·.mid)).Nodup →
        encodePi tools ((decodePi tools entries).messages.map (·.ck))
          (decodePi tools entries).sidecar = entries.filter emits := by
  intro h
  have hnote := h plainTools [.object [("content", .string "note"), ("role", .string "custom"),
    ("timestamp", .number (.posInt 1))]] (by decide +kernel)
  revert hnote
  decide +kernel

end Pi
end MagicContext.Codec
