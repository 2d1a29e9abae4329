import MagicContext.Lib.Alignment
import MagicContext.Lib.SortedMap
import MagicContext.Text
import MagicContext.Wire.Messages

/-!
# Sidecars of decoded messages

Decoding the messages of a harness keeps beside them what they were decoded from: each message's
JSON, and for each block the part of that JSON it came from and a fingerprint of what was decoded.
Blocks carry a stamp that says the same, by which encoding finds the part again after blocks have
been changed or removed.  The hash of JSON is a parameter.

## What is here

* `DecodeSidecar`, `HarnessMessageMeta`, `BlockMeta`.
* `stampBlockIdentity`, `stampedBlockIdentity`, `decodedBlockFingerprint`.
* `matchBlockMetas` — which part each block belongs to; `byBlock_of_stamped` for blocks that keep
  their stamps and their order.
-/

namespace MagicContext.Codec

open Wire

/-! ## What is kept -/

structure ExtractedBoundary where
  harness : String
  messageId : String
  ordinal : Nat
  partIndex : Option Nat
  entryId : Option String
  raw : Json

structure BlockMeta where
  blockIndex : Nat
  kind : String
  nativeIndex : Option Nat
  nativeId : Option String
  itemId : Option String
  contentFingerprint : Option String
  raw : Json

structure HarnessMessageMeta where
  mid : String
  ordinal : Nat
  role : String
  raw : Json
  stableKey : Option String
  blocks : List BlockMeta

structure DecodeSidecar where
  harness : String
  order : List String := []
  messages : SortedMap String HarnessMessageMeta := .empty
  midPins : SortedMap String String := .empty

structure DecodedHarnessMessages where
  messages : List CkIngressMessage
  boundary : Option ExtractedBoundary
  sidecar : DecodeSidecar

namespace DecodeSidecar

variable (sidecar : DecodeSidecar)

/-- Puts the metadata of a message in; its place is that of the first with its id. -/
def rememberMessage (mid : String) (m : HarnessMessageMeta) : DecodeSidecar :=
  { sidecar with
    order := if (sidecar.messages.get mid).isSome then sidecar.order else sidecar.order ++ [mid]
    messages := sidecar.messages.insert mid m }

def messageByMid (mid : String) : Option HarnessMessageMeta :=
  sidecar.messages.get mid

def messageForIndex (index : Nat) : Option HarnessMessageMeta :=
  sidecar.order[index]?.bind sidecar.messages.get

def inheritPin (stableKey : String) : Option String :=
  sidecar.midPins.get stableKey

def pinMid (stableKey mid : String) : DecodeSidecar :=
  { sidecar with midPins := sidecar.midPins.insert stableKey mid }

end DecodeSidecar

/-- `meta_for_ck`: by the id of the harness, else by place for messages that are not synthetic. -/
def metaForCk (sidecar : DecodeSidecar) (msg : CkWireMessage) (index : Nat) :
    Option HarnessMessageMeta :=
  (msg.harnessMeta.harnessId.bind sidecar.messageByMid) <|>
    (if msg.harnessMeta.synthetic then none else sidecar.messageForIndex index)

/-! ## What the codecs share -/

/-- Whether the flag of a part is set. -/
def flag (part : Json) (key : String) : Bool := ((part.get? key).bind Json.asBool).getD false

/-- The type of a part, when it is a text. -/
def typeOf (part : Json) : Option String := part.stringField "type"

def startsWith (start s : String) : Bool := start.toList.isPrefixOf s.toList

def mediaKind (mediaType : String) : MediaKind :=
  if startsWith "image/" mediaType then .image
  else if startsWith "audio/" mediaType then .audio
  else if startsWith "video/" mediaType then .video
  else if mediaType = "application/pdf" then .document
  else .file

/-- The arc of an approval. -/
def opaqueArc (part : Json) : Option Json := do
  let approvalId ← part.stringField "approvalId"
  let partType := (typeOf part).getD ""
  let role := if Text.containsText "response".toList partType.toList then "Response" else "Request"
  return .object [("id", .string approvalId), ("kind", .string "Approval"), ("role", .string role)]

/-- A block the codecs do not read further. -/
def opaqueBlock (harness kind : String) (raw : Json) (arc : Option Json) : CkWireBlock :=
  { kind := .opaqueBlock
      { source := .object [("harness", .string harness), ("type", .string "harness")]
        kind, raw, arc } }

/-- `stable_hash_prefix`. -/
def hashPrefix (hash : Json → String) (v : Json) (chars : Nat) : String :=
  String.ofList ((hash v).toList.take chars)

def synthToolId (hash : Json → String) (ordinal partIndex : Nat) (toolName : String)
    (input : Json) : String :=
  "synth-tool-" ++ toString ordinal ++ "-" ++ toString partIndex ++ "-" ++ toolName ++ "-" ++
    hashPrefix hash input 12

/-! ## Stamps -/

variable (ns : String)

/-- The fields a provider has in the extras of a block. -/
def extraNamespace (extras : ProviderExtras) : Option (List (String × Json)) :=
  (extras.find? fun e => decide (e.1 = ns)).map Prod.snd

def extra (key : String) (extras : ProviderExtras) : Option Json :=
  (extraNamespace ns extras).bind (Json.lookup key)

def extraString (key : String) (extras : ProviderExtras) : Option String :=
  (extra ns key extras).bind Json.asString

def insertExtra (key : String) (v : Json) (extras : ProviderExtras) : ProviderExtras :=
  SortedMap.insertEntry ns (SortedMap.insertEntry key v ((extraNamespace ns extras).getD [])) extras

def removeNamespace (extras : ProviderExtras) : ProviderExtras :=
  extras.filter fun e => decide (e.1 ≠ ns)

def identityNamespace : String := "_cortexkit_codec"

/-- A hash of what was decoded, without the stamp. -/
def decodedBlockFingerprint (hash : Json → String) (block : CkWireBlock) : String :=
  hash { block with
    providerExtras := removeNamespace identityNamespace block.providerExtras
    original := none }.write

def stampBlockIdentity (block : CkWireBlock) (blockIndex nativeIndex : Nat)
    (fingerprint : String) : CkWireBlock :=
  { block with
    providerExtras :=
      insertExtra identityNamespace "decodedFingerprint" (.string fingerprint)
        (insertExtra identityNamespace "nativeIndex" (.number (.posInt nativeIndex))
          (insertExtra identityNamespace "blockIndex" (.number (.posInt blockIndex))
            block.providerExtras))
    original := none }

def stampedBlockIdentity (block : CkWireBlock) : Option (Nat × Nat × String) := do
  let blockIndex ← (extra identityNamespace "blockIndex" block.providerExtras).bind Json.asNat
  let nativeIndex ← (extra identityNamespace "nativeIndex" block.providerExtras).bind Json.asNat
  let fingerprint ← extraString identityNamespace "decodedFingerprint" block.providerExtras
  return (blockIndex, nativeIndex, fingerprint)

def blockIsUnchanged (hash : Json → String) (block : CkWireBlock) (m : BlockMeta) : Bool :=
  m.contentFingerprint.any fun fingerprint => decodedBlockFingerprint hash block == fingerprint

/-- Whether a block may belong to a part, and whether its stamp says so. -/
def alignmentCandidate (hash : Json → String) (block : CkWireBlock) (blockIndex : Nat)
    (m : BlockMeta) (kindMatches : Bool) : Option Bool :=
  match stampedBlockIdentity block with
  | some (originBlockIndex, originNativeIndex, fingerprint) =>
    if originBlockIndex = m.blockIndex ∧ some originNativeIndex = m.nativeIndex ∧
        m.contentFingerprint = some fingerprint then
      some true
    else none
  | none =>
    if kindMatches && blockIsUnchanged hash block m then some false
    else if m.contentFingerprint.isNone && blockIndex == m.blockIndex && kindMatches then
      some false
    else none

structure MatchedBlockMetas where
  byBlock : List (Option BlockMeta)
  retainedNativeIndices : List Nat
  decodedNativeIndices : List Nat

/-- The parts whose blocks are still there, and those that had none. -/
def MatchedBlockMetas.removeUnretainedNativeParts (matched : MatchedBlockMetas)
    (parts : List Json) : List Json :=
  (parts.zipIdx.filter fun p =>
    !(matched.decodedNativeIndices.contains p.2 &&
      !matched.retainedNativeIndices.contains p.2)).map Prod.fst

/-- `match_block_metas`. -/
def matchBlockMetas (hash : Json → String) (blocks : List CkWireBlock) (metas : List BlockMeta)
    (matches' : CkWireBlock → BlockMeta → Bool) : MatchedBlockMetas :=
  let byBlock := Alignment.align
    (fun (b : CkWireBlock × Nat) m => alignmentCandidate hash b.1 b.2 m (matches' b.1 m))
    blocks.zipIdx metas
  { byBlock
    retainedNativeIndices := byBlock.filterMap fun m => m.bind (·.nativeIndex)
    decodedNativeIndices := metas.filterMap (·.nativeIndex) }

/-! ### Decoded blocks -/

/-- A block as it was decoded, with the part it came from. -/
structure NativeBlock where
  block : CkWireBlock
  nativeIndex : Nat
  raw : Json
  kind : String
  nativeId : Option String
  itemId : Option String := none

/-- `push_block`, for the block that comes at a place. -/
def NativeBlock.stamp (hash : Json → String) (native : NativeBlock) (blockIndex : Nat) :
    CkWireBlock × BlockMeta :=
  let fingerprint := decodedBlockFingerprint hash native.block
  (stampBlockIdentity native.block blockIndex native.nativeIndex fingerprint,
    { blockIndex, kind := native.kind, nativeIndex := some native.nativeIndex
      nativeId := native.nativeId, itemId := native.itemId
      contentFingerprint := some fingerprint, raw := native.raw })

/-- The blocks of a message with their metadata, numbered as they come. -/
def stampAll (hash : Json → String) (natives : List NativeBlock) : List (CkWireBlock × BlockMeta) :=
  natives.zipIdx.map fun p => p.1.stamp hash p.2

/-! ### What stamps say -/

theorem extraNamespace_insertExtra (key ns' : String) (v : Json) (extras : ProviderExtras) :
    extraNamespace ns' (insertExtra ns key v extras) =
      if ns = ns' then
        some (SortedMap.insertEntry key v ((extraNamespace ns extras).getD []))
      else extraNamespace ns' extras := by
  rw [extraNamespace, insertExtra, SortedMap.find_insertEntry]
  split
  · rfl
  · rfl

theorem extra_insertExtra (key key' : String) (v : Json) (extras : ProviderExtras) :
    extra ns key' (insertExtra ns key v extras) =
      if key = key' then some v else extra ns key' extras := by
  rw [extra, extraNamespace_insertExtra, if_pos rfl, Option.bind_some, Json.lookup,
    SortedMap.find_insertEntry]
  split
  · rfl
  · rw [extra]
    cases extraNamespace ns extras with
    | none => rfl
    | some fields => rfl

/-- A stamp reads back. -/
theorem stampedBlockIdentity_stamp (block : CkWireBlock) (blockIndex nativeIndex : Nat)
    (fingerprint : String) :
    stampedBlockIdentity (stampBlockIdentity block blockIndex nativeIndex fingerprint) =
      some (blockIndex, nativeIndex, fingerprint) := by
  simp [stampedBlockIdentity, stampBlockIdentity, extraString, extra_insertExtra, Json.asNat,
    Json.asString]

theorem removeNamespace_insertEntry (fields : List (String × Json)) (extras : ProviderExtras) :
    removeNamespace ns (SortedMap.insertEntry ns fields extras) = removeNamespace ns extras := by
  rw [removeNamespace, removeNamespace]
  induction extras with
  | nil => simp [SortedMap.insertEntry]
  | cons e extras ih =>
    rw [SortedMap.insertEntry]
    split
    · simp
    · split
      · rename_i heq
        simp [← heq]
      · rw [List.filter_cons, List.filter_cons, ih]

/-- A stamp is not part of the fingerprint. -/
theorem decodedBlockFingerprint_stamp (hash : Json → String) (block : CkWireBlock)
    (blockIndex nativeIndex : Nat) (fingerprint : String) :
    decodedBlockFingerprint hash (stampBlockIdentity block blockIndex nativeIndex fingerprint) =
      decodedBlockFingerprint hash block := by
  simp only [decodedBlockFingerprint, stampBlockIdentity, insertExtra, removeNamespace_insertEntry]

/-! ### Blocks that keep their stamps -/

/-- The stamp of a block names this part. -/
structure KeepsIdentity (block : CkWireBlock) (m : BlockMeta) : Prop where
  stamped : ∃ nativeIndex fingerprint, m.nativeIndex = some nativeIndex ∧
    m.contentFingerprint = some fingerprint ∧
    stampedBlockIdentity block = some (m.blockIndex, nativeIndex, fingerprint)

/-- The place a stamp names. -/
def stampedIndex (block : CkWireBlock) : Nat :=
  ((stampedBlockIdentity block).map Prod.fst).getD 0

theorem KeepsIdentity.stampedIndex_eq {block : CkWireBlock} {m : BlockMeta}
    (h : KeepsIdentity block m) : stampedIndex block = m.blockIndex := by
  obtain ⟨nativeIndex, fingerprint, -, -, hstamp⟩ := h.stamped
  rw [stampedIndex, hstamp]
  rfl

/-- A stamped block may only belong to the part its stamp names. -/
theorem KeepsIdentity.candidate {hash : Json → String} {block : CkWireBlock} {m m' : BlockMeta}
    (h : KeepsIdentity block m) (hsame : m'.blockIndex = m.blockIndex → m' = m)
    (blockIndex : Nat) (kindMatches : Bool) :
    alignmentCandidate hash block blockIndex m' kindMatches =
      if m.blockIndex = m'.blockIndex then some true else none := by
  obtain ⟨nativeIndex, fingerprint, hnative, hfingerprint, hstamp⟩ := h.stamped
  rw [alignmentCandidate, hstamp]
  dsimp only
  by_cases heq : m.blockIndex = m'.blockIndex
  · obtain rfl := hsame heq.symm
    rw [if_pos ⟨rfl, hnative.symm, hfingerprint⟩, if_pos rfl]
  · rw [if_neg fun h => heq h.1, if_neg heq]

/-- **Blocks that keep their stamps and their order belong to the parts they came from.** -/
theorem byBlock_of_stamped (hash : Json → String) {survivors : List (CkWireBlock × BlockMeta)}
    {metas : List BlockMeta} (hmetas : (metas.map (·.blockIndex)).Nodup)
    (hsurvivors : (survivors.map Prod.snd).Sublist metas)
    (hstamps : ∀ s ∈ survivors, KeepsIdentity s.1 s.2)
    (matches' : CkWireBlock → BlockMeta → Bool) :
    (matchBlockMetas hash (survivors.map Prod.fst) metas matches').byBlock =
      survivors.map fun s => some s.2 := by
  have hunique : ∀ m ∈ metas, ∀ m' ∈ metas, m'.blockIndex = m.blockIndex → m' = m :=
    fun m hm m' hm' heq => List.inj_on_of_nodup_map hmetas hm' hm heq
  have hown : ∀ s ∈ survivors, s.2 ∈ metas := fun s hs =>
    hsurvivors.subset (List.mem_map_of_mem hs)
  have hcandidates : ∀ b ∈ (survivors.map Prod.fst).zipIdx, ∀ m ∈ metas,
      alignmentCandidate hash b.1 b.2 m (matches' b.1 m) =
        Alignment.sameKey (fun b : CkWireBlock × Nat => stampedIndex b.1) (·.blockIndex) b m := by
    intro b hb m hm
    obtain ⟨s, hs, hblock⟩ := List.mem_map.mp (List.fst_mem_of_mem_zipIdx hb)
    have hkeeps := hstamps s hs
    rw [Alignment.sameKey, ← hblock, hkeeps.stampedIndex_eq]
    exact hkeeps.candidate (hunique s.2 (hown s hs) m hm) b.2 _
  have hplaces : ∀ {γ : Type} (f : CkWireBlock → γ),
      ((survivors.map Prod.fst).zipIdx.map fun b => f b.1) = survivors.map fun s => f s.1 := by
    intro γ f
    have hfst := congrArg (List.map f) (List.zipIdx_map_fst 0 (survivors.map Prod.fst))
    rw [List.map_map, List.map_map] at hfst
    exact hfst
  have hkeys : ((survivors.map Prod.fst).zipIdx.map fun b => stampedIndex b.1) =
      (survivors.map Prod.snd).map (·.blockIndex) := by
    rw [hplaces stampedIndex, List.map_map]
    exact List.map_congr_left fun s hs => (hstamps s hs).stampedIndex_eq
  have hfind : ∀ s ∈ survivors,
      (metas.find? fun m => decide (stampedIndex s.1 = m.blockIndex)) = some s.2 := by
    intro s hs
    rw [(hstamps s hs).stampedIndex_eq]
    have hsome : (metas.find? fun m => decide (s.2.blockIndex = m.blockIndex)).isSome :=
      List.find?_isSome.mpr ⟨s.2, hown s hs, decide_eq_true rfl⟩
    obtain ⟨m, hm⟩ := Option.isSome_iff_exists.mp hsome
    have heq : s.2.blockIndex = m.blockIndex := by simpa using List.find?_some hm
    rw [hm, hunique s.2 (hown s hs) m (List.mem_of_find?_eq_some hm) heq.symm]
  rw [matchBlockMetas, Alignment.align_congr hcandidates,
    Alignment.align_of_sublist _ _ (hkeys ▸ hsurvivors.map _) hmetas,
    hplaces fun block => metas.find? fun m => decide (stampedIndex block = m.blockIndex)]
  exact List.map_congr_left hfind

/-! ### Blocks nothing has changed -/

theorem keepsIdentity_stamp (hash : Json → String) (native : NativeBlock) (blockIndex : Nat) :
    KeepsIdentity (native.stamp hash blockIndex).1 (native.stamp hash blockIndex).2 :=
  ⟨native.nativeIndex, _, rfl, rfl, stampedBlockIdentity_stamp ..⟩

theorem blockIsUnchanged_stamp (hash : Json → String) (native : NativeBlock) (blockIndex : Nat) :
    blockIsUnchanged hash (native.stamp hash blockIndex).1 (native.stamp hash blockIndex).2 =
      true := by
  simp [blockIsUnchanged, NativeBlock.stamp, decodedBlockFingerprint_stamp]

theorem mem_stampAll {hash : Json → String} {natives : List NativeBlock}
    {s : CkWireBlock × BlockMeta} (h : s ∈ stampAll hash natives) :
    ∃ native ∈ natives, ∃ blockIndex, s = native.stamp hash blockIndex := by
  obtain ⟨p, hp, rfl⟩ := List.mem_map.mp h
  exact ⟨p.1, List.fst_mem_of_mem_zipIdx hp, p.2, rfl⟩

section
variable (hash : Json → String)
include hash

section
variable (natives : List NativeBlock)
include natives

theorem stampAll_blockIndex :
    ((stampAll hash natives).map Prod.snd).map (·.blockIndex) = List.range natives.length := by
  have hsnd := List.zipIdx_map_snd 0 natives
  rw [stampAll, List.map_map, List.map_map, List.range_eq_range']
  exact hsnd

theorem nodup_stampAll : (((stampAll hash natives).map Prod.snd).map (·.blockIndex)).Nodup := by
  rw [stampAll_blockIndex]
  exact List.nodup_range

/-- The blocks of a message that nothing has changed belong to the parts they came from. -/
theorem byBlock_stampAll (matches' : CkWireBlock → BlockMeta → Bool) :
    (matchBlockMetas hash ((stampAll hash natives).map Prod.fst)
        ((stampAll hash natives).map Prod.snd) matches').byBlock =
      (stampAll hash natives).map fun s => some s.2 := by
  refine byBlock_of_stamped hash (nodup_stampAll hash natives) (List.Sublist.refl _) ?_ matches'
  intro s hs
  obtain ⟨native, -, blockIndex, rfl⟩ := mem_stampAll hs
  exact keepsIdentity_stamp hash native blockIndex

/-- No part is removed when every block is there. -/
theorem removeUnretained_stampAll (matches' : CkWireBlock → BlockMeta → Bool) (parts : List Json) :
    (matchBlockMetas hash ((stampAll hash natives).map Prod.fst)
        ((stampAll hash natives).map Prod.snd) matches').removeUnretainedNativeParts parts =
      parts := by
  have hbyBlock := byBlock_stampAll hash natives matches'
  rw [matchBlockMetas] at hbyBlock ⊢
  dsimp only at hbyBlock
  have hsame : ((stampAll hash natives).map fun s => some s.2).filterMap
      (fun m => m.bind (·.nativeIndex)) =
        ((stampAll hash natives).map Prod.snd).filterMap (·.nativeIndex) := by
    rw [List.filterMap_map, List.filterMap_map]
    rfl
  rw [MatchedBlockMetas.removeUnretainedNativeParts]
  rw [hbyBlock, hsame, List.filter_eq_self.mpr, List.zipIdx_map_fst]
  intro p _
  rw [Bool.and_not_self, Bool.not_false]

end

end

end MagicContext.Codec
