import MagicContext.Wire.Incremental

/-!
# Messages rebuilt from a projection

A rebuilt message has the blocks of the message it stands for, with their JSON, but not the JSON of
the message itself: that is written anew from what was read from it.  So a prefix comes back as it
came exactly when each message of it says nothing that the reader ignores and leaves nothing out
that the writer adds.

## What is here

* `plainMessage` — a message's JSON that is written again as it was read.
* `write_bare_iff` — and that this is what it is.
* `reattached_of_project` — what a prefix of a projection is rebuilt to.
* `reattached_iff` — when a prefix comes back as it came.
-/

namespace MagicContext.Wire

open Serde Json FlatProjectionBuilder

/-! ## JSON that is written as it was read -/

def metaFields : List String :=
  ["created_at_ms", "errored", "finish", "harness_id", "ordinal", "summary", "synthetic"]

def messageFields : List String := ["content", "meta", "origin", "provider_extras", "role"]

/-- Neither null nor false. -/
def telling (v : Json) : Bool := decide (v ≠ .null ∧ v ≠ .bool false)

/-- No unknown field, and none that is null or false. -/
def plainMeta : Json → Bool
  | .object fields => (keys fields).isSublist metaFields && fields.all fun f => telling f.2
  | _ => false

/-- Exactly the three fields. -/
def plainOrigin : Json → Bool
  | .object fields => decide (keys fields = ["api", "model", "provider"])
  | _ => false

/-- An object without unknown fields, of which the metadata is there, the origin is complete and
not null, and the extras are not empty. -/
def plainMessage : Json → Bool
  | .object fields =>
    (keys fields).isSublist messageFields && (Json.lookup "meta" fields).any plainMeta &&
      (Json.lookup "origin" fields).all plainOrigin &&
      (Json.lookup "provider_extras" fields).all fun v => decide (v ≠ .object [])
  | _ => false

theorem inverts_asInt : Inverts asInt writeInt := by
  intro v n h
  unfold asInt at h
  split at h
  · split at h <;> cases h
    rfl
  · cases h
    rfl
  · cases h

variable {field : Option Json} {fields : List (String × Json)} {v : Json}

/-- A flag that is not false. -/
theorem defaulted_flag {b : Bool} (h : defaulted false asBool field = some b)
    (hfalse : field ≠ some (.bool false)) : omitIf (!b) (.bool true) = field := by
  cases field with
  | none =>
    cases h
    rfl
  | some v =>
    cases v with
    | bool b' =>
      cases h
      cases b with
      | true => rfl
      | false => exact absurd rfl hfalse
    | _ => cases h

theorem read_meta_object {m : HarnessMeta} (h : HarnessMeta.read (.object fields) = some m) :
    optional asString (lookup "harness_id" fields) = some m.harnessId ∧
      optional asNat (lookup "ordinal" fields) = some m.ordinal ∧
      defaulted false asBool (lookup "synthetic" fields) = some m.synthetic ∧
      defaulted false asBool (lookup "summary" fields) = some m.summary ∧
      defaulted false asBool (lookup "errored" fields) = some m.errored ∧
      optional asString (lookup "finish" fields) = some m.finish ∧
      optional asInt (lookup "created_at_ms" fields) = some m.createdAtMs := by
  simp only [HarnessMeta.read, structFields, List.map_cons, List.map_nil, Option.bind_eq_bind,
    Option.bind_some, Option.bind_eq_some_iff, Option.pure_def, Option.some.injEq] at h
  obtain ⟨_, h₁, _, h₂, _, h₃, _, h₄, _, h₅, _, h₆, _, h₇, rfl⟩ := h
  exact ⟨h₁, h₂, h₃, h₄, h₅, h₆, h₇⟩

theorem telling_map {α : Type} {write : α → Json} (hwrite : ∀ a, telling (write a) = true)
    {o : Option α} (h : some v = o.map write) : telling v = true := by
  obtain ⟨a, -, rfl⟩ := Option.map_eq_some_iff.mp h.symm
  exact hwrite a

theorem telling_omitIf {default : Bool} (h : some v = omitIf default (.bool true)) :
    telling v = true := by
  cases default with
  | false =>
    cases h
    rfl
  | true => cases h

theorem plainMeta_write (m : HarnessMeta) : plainMeta m.write = true := by
  rw [HarnessMeta.write, plainMeta, Bool.and_eq_true_iff]
  refine ⟨List.isSublist_iff_sublist.mpr (keys_present _), List.all_eq_true.mpr ?_⟩
  have hint : ∀ n, telling (writeInt n) = true := fun n => by cases n <;> rfl
  rintro ⟨name, v⟩ hmem
  have hfields := mem_present.mp hmem
  simp only [List.mem_cons, Prod.mk.injEq, List.not_mem_nil, or_false] at hfields
  rcases hfields with ⟨-, h⟩ | ⟨-, h⟩ | ⟨-, h⟩ | ⟨-, h⟩ | ⟨-, h⟩ | ⟨-, h⟩ | ⟨-, h⟩
  · exact telling_map hint h
  · exact telling_omitIf h
  · exact telling_map (fun _ => rfl) h
  · exact telling_map (fun _ => rfl) h
  · exact telling_map (fun _ => rfl) h
  · exact telling_omitIf h
  · exact telling_omitIf h

/-- What an object without unknown fields is, when its fields are what was found in it. -/
theorem object_eq (names : List String) (hnodup : names.Nodup)
    (hkeys : (keys fields).isSublist names = true) {found : List (String × Option Json)}
    (hfound : found = names.map fun name => (name, lookup name fields)) :
    object (present found) = .object fields := by
  rw [hfound, present_lookup hnodup (List.isSublist_iff_sublist.mp hkeys)]

theorem write_meta_iff {m : HarnessMeta} (h : HarnessMeta.read v = some m) :
    m.write = v ↔ plainMeta v = true := by
  constructor
  · rintro rfl
    exact plainMeta_write m
  · intro hplain
    cases v with
    | object fields =>
      obtain ⟨hkeys, htelling⟩ := Bool.and_eq_true_iff.mp hplain
      have hfound : ∀ {name w}, lookup name fields = some w → telling w = true := by
        intro name w hlookup
        obtain ⟨f, hf, rfl⟩ := Option.map_eq_some_iff.mp hlookup
        exact List.all_eq_true.mp htelling f (List.mem_of_find?_eq_some hf)
      have hnull : ∀ name, lookup name fields ≠ some .null := fun name hlookup => by
        cases hfound hlookup
      have hfalse : ∀ name, lookup name fields ≠ some (.bool false) := fun name hlookup => by
        cases hfound hlookup
      obtain ⟨h₁, h₂, h₃, h₄, h₅, h₆, h₇⟩ := read_meta_object h
      refine object_eq metaFields (by decide) hkeys ?_
      rw [optional_inverts inverts_asString h₁ (hnull _),
        optional_inverts inverts_asNat h₂ (hnull _),
        optional_inverts inverts_asString h₆ (hnull _),
        optional_inverts inverts_asInt h₇ (hnull _), defaulted_flag h₃ (hfalse _),
        defaulted_flag h₄ (hfalse _), defaulted_flag h₅ (hfalse _)]
      rfl
    | _ => cases hplain

theorem read_origin_object {o : MessageOrigin} (h : MessageOrigin.read (.object fields) = some o) :
    lookup "provider" fields = some (.string o.provider) ∧
      lookup "model" fields = some (.string o.model) ∧
      lookup "api" fields = some (.string o.api) := by
  simp only [MessageOrigin.read, structFields, List.map_cons, List.map_nil, Option.bind_eq_bind,
    Option.bind_some, Option.bind_eq_some_iff, Option.pure_def, Option.some.injEq] at h
  obtain ⟨_, h₁, _, h₂, _, h₃, rfl⟩ := h
  exact ⟨required_inverts inverts_asString h₁, required_inverts inverts_asString h₂,
    required_inverts inverts_asString h₃⟩

theorem write_origin_iff {o : MessageOrigin} (h : MessageOrigin.read v = some o) :
    o.write = v ↔ plainOrigin v = true := by
  constructor
  · rintro rfl
    rfl
  · intro hplain
    cases v with
    | object fields =>
      have hkeys : keys fields = ["api", "model", "provider"] := of_decide_eq_true hplain
      obtain ⟨hprovider, hmodel, hapi⟩ := read_origin_object h
      have hfields := @present_lookup ["api", "model", "provider"] (by decide) fields
        (hkeys ▸ List.Sublist.refl _)
      simp only [List.map_cons, List.map_nil, hprovider, hmodel, hapi] at hfields
      exact congrArg object hfields
    | _ => cases hplain

theorem writeExtras_of_read {extras : ProviderExtras} (h : readExtras v = some extras) :
    writeExtras extras = v := by
  obtain ⟨providers, hv, h⟩ := Option.bind_eq_some_iff.mp h
  cases v <;> cases hv
  refine congrArg object (map_of_mapM ?_ h)
  rintro ⟨name, w⟩ p hp
  obtain ⟨o, ho, rfl⟩ := Option.map_eq_some_iff.mp hp
  cases w <;> cases ho
  rfl

theorem read_block_original {block : CkWireBlock} (h : CkWireBlock.read v = some block) :
    block.original = some v := by
  obtain ⟨fields, -, h⟩ := Option.bind_eq_some_iff.mp h
  split at h
  · obtain ⟨_, -, h⟩ := Option.bind_eq_some_iff.mp h
    obtain ⟨_, -, h⟩ := Option.bind_eq_some_iff.mp h
    cases h
    rfl
  · cases h

theorem write_content {items : List Json} {content : List CkWireBlock}
    (h : items.mapM CkWireBlock.read = some content) : content.map CkWireBlock.write = items := by
  refine map_of_mapM (fun v block hread => ?_) h
  rw [CkWireBlock.write, read_block_original hread, Option.getD_some]

/-! ## A message without its own JSON -/

/-- A message as it is rebuilt. -/
def CkWireMessage.bare (m : CkWireMessage) : CkWireMessage :=
  .fromParts m.role m.content m.origin m.providerExtras m.harnessMeta

theorem read_message_object {m : CkWireMessage} (h : CkWireMessage.read (.object fields) = some m) :
    lookup "role" fields = some (.string m.role) ∧
      lookup "content" fields = some (.array (m.content.map CkWireBlock.write)) ∧
      optional MessageOrigin.read (lookup "origin" fields) = some m.origin ∧
      defaulted [] readExtras (lookup "provider_extras" fields) = some m.providerExtras ∧
      defaulted {} HarnessMeta.read (lookup "meta" fields) = some m.harnessMeta := by
  simp only [CkWireMessage.read, structFields, List.map_cons, List.map_nil, Option.bind_eq_bind,
    Option.bind_some, Option.bind_eq_some_iff, Option.pure_def, Option.some.injEq] at h
  obtain ⟨_, h₁, _, h₂, _, h₃, _, h₄, _, h₅, rfl⟩ := h
  refine ⟨required_inverts inverts_asString h₁, ?_, h₃, h₄, h₅⟩
  obtain ⟨v, hv, h₂⟩ := Option.bind_eq_some_iff.mp h₂
  obtain ⟨items, hitems, h₂⟩ := Option.bind_eq_some_iff.mp h₂
  cases v <;> cases hitems
  rw [hv, write_content h₂]

/-- The fields of a rebuilt message. -/
def CkWireMessage.written (m : CkWireMessage) : List (String × Option Json) :=
  [("content", some (.array (m.content.map CkWireBlock.write))), ("meta", some m.harnessMeta.write),
    ("origin", m.origin.map MessageOrigin.write),
    extrasField m.providerExtras,
    ("role", some (.string m.role))]

theorem write_bare (m : CkWireMessage) : m.bare.write = .object (present m.written) := rfl

theorem extras_iff {extras : ProviderExtras} (h : defaulted [] readExtras field = some extras) :
    (extrasField extras).2 = field ↔ field.all (fun v => decide (v ≠ .object [])) = true := by
  cases field with
  | none =>
    cases h
    exact ⟨fun _ => rfl, fun _ => rfl⟩
  | some v =>
    have hv := writeExtras_of_read h
    cases extras with
    | nil =>
      subst hv
      refine ⟨nofun, fun hne => ?_⟩
      have hempty : writeExtras [] ≠ .object [] := of_decide_eq_true hne
      exact absurd rfl hempty
    | cons p extras =>
      subst hv
      exact ⟨fun _ => rfl, fun _ => rfl⟩

theorem origin_iff {origin : Option MessageOrigin}
    (h : optional MessageOrigin.read field = some origin) :
    origin.map MessageOrigin.write = field ↔ field.all plainOrigin = true := by
  cases field with
  | none =>
    cases h
    exact ⟨fun _ => rfl, fun _ => rfl⟩
  | some v =>
    by_cases hnull : v = .null
    · subst hnull
      cases h
      exact ⟨nofun, nofun⟩
    · obtain ⟨o, ho, rfl⟩ := optional_of_ne_null h hnull
      rw [Option.map_some, Option.some_inj]
      exact write_origin_iff ho

theorem meta_iff {m : HarnessMeta} (h : defaulted {} HarnessMeta.read field = some m) :
    some m.write = field ↔ field.any plainMeta = true := by
  cases field with
  | none => exact ⟨nofun, nofun⟩
  | some v =>
    rw [Option.some_inj]
    exact write_meta_iff h

/-- **A rebuilt message is written as the message came exactly when the message is plain.** -/
theorem write_bare_iff {m : CkWireMessage} (h : CkWireMessage.read v = some m) :
    m.bare.write = v ↔ plainMessage v = true := by
  rw [write_bare]
  cases v with
  | object fields =>
    obtain ⟨hrole, hcontent, horigin, hextras, hmeta⟩ := read_message_object h
    rw [plainMessage, Bool.and_eq_true_iff, Bool.and_eq_true_iff, Bool.and_eq_true_iff,
      ← meta_iff hmeta, ← origin_iff horigin, ← extras_iff hextras]
    constructor
    · intro heq
      have hfields : present m.written = fields := object.inj heq
      have hnodup : (m.written.map Prod.fst).Nodup :=
        show messageFields.Nodup by decide
      subst hfields
      have hlookup : ∀ {name v}, (name, v) ∈ m.written →
          v = lookup name (present m.written) := fun hmem =>
        (lookup_present hnodup hmem).symm
      refine ⟨⟨⟨List.isSublist_iff_sublist.mpr (keys_present _), ?_⟩, ?_⟩, ?_⟩
      · exact hlookup (by simp [CkWireMessage.written])
      · exact hlookup (by simp [CkWireMessage.written])
      · exact hlookup (by simp [CkWireMessage.written, extrasField])
    · rintro ⟨⟨⟨hkeys, hmeta⟩, horigin⟩, hextras⟩
      refine object_eq messageFields (by decide) hkeys ?_
      have hextrasField : extrasField m.providerExtras =
          ("provider_extras", lookup "provider_extras" fields) := Prod.ext rfl hextras
      rw [CkWireMessage.written, hmeta, horigin, hextrasField, ← hcontent, ← hrole]
      rfl
  | _ => exact ⟨nofun, nofun⟩

/-! ## Prefixes of a projection -/

variable {text : CkWireBlock → Option String} {sha256 : String → List UInt8}
  {b b' : FlatProjectionBuilder} {messages : List CkIngressMessage}

def CkIngressMessage.bare (m : CkIngressMessage) : CkIngressMessage := { m with ck := m.ck.bare }

variable {msg : CkIngressMessage}

theorem projectBlock_ok {m m' : MessageBlocks} {block : CkWireBlock}
    {index : Nat} (h : projectBlock text sha256 msg m (block, index) = .ok m') :
    ∃ flat, m'.blocks = m.blocks ++ [flat] ∧
      reattachBlock msg.shell (flat, index) = some block := by
  obtain ⟨arc, -, h⟩ := Checks.bind_eq_ok.mp h
  obtain ⟨flat, hflat, h⟩ := Checks.bind_eq_ok.mp h
  cases h
  refine ⟨flat, rfl, ?_⟩
  unfold flattenBlock at hflat
  split at hflat
  · cases hflat
  · cases hflat
    exact if_pos ⟨rfl, rfl, rfl, rfl⟩

theorem projectContent_blocks {content : List CkWireBlock} {n : Nat} {m m' : MessageBlocks}
    (h : (content.zipIdx n).foldlM (projectBlock text sha256 msg) m = .ok m') :
    ∃ blocks, m'.blocks = m.blocks ++ blocks ∧
      (blocks.zipIdx n).mapM (reattachBlock msg.shell) = some content := by
  induction content generalizing n m with
  | nil =>
    cases h
    exact ⟨[], (List.append_nil _).symm, rfl⟩
  | cons block content ih =>
    rw [List.zipIdx_cons, List.foldlM_cons] at h
    obtain ⟨m₁, hblock, h⟩ := Checks.bind_eq_ok.mp h
    obtain ⟨flat, hflat, hwire⟩ := projectBlock_ok hblock
    obtain ⟨blocks, hblocks, hwires⟩ := ih h
    refine ⟨flat :: blocks, by rw [hblocks, hflat, List.append_assoc]; rfl, ?_⟩
    rw [List.zipIdx_cons, List.mapM_cons, hwire, hwires]
    rfl

theorem projectMessage_blocks (h : projectMessage text sha256 b msg = .ok b') :
    ∃ blocks, b'.projection.blocks = b.projection.blocks ++ blocks ∧
      reattachContent msg.shell blocks = some msg.ck.content := by
  unfold projectMessage at h
  split at h
  · cases h
  · obtain ⟨m, hcontent, h⟩ := Checks.bind_eq_ok.mp h
    cases h
    obtain ⟨blocks, hblocks, hwires⟩ := projectContent_blocks hcontent
    exact ⟨blocks, congrArg (_ ++ ·) hblocks, hwires⟩

/-- What a run adds is rebuilt, up to any message of it. -/
theorem reattachFrom_of_run (h : messages.foldlM (projectMessage text sha256) b = .ok b') :
    ∃ ends, b'.projection.messageBlockEnds = b.projection.messageBlockEnds ++ ends ∧
      ends.length = messages.length ∧ ∀ k,
        reattachFrom b'.projection.blocks b.projection.blocks.length
          (((messages.map CkIngressMessage.shell).zip ends).take k) =
            some ((messages.take k).map CkIngressMessage.bare) := by
  induction messages generalizing b with
  | nil =>
    cases h
    exact ⟨[], (List.append_nil _).symm, rfl, fun k => by rw [List.take_nil]; simp [reattachFrom]⟩
  | cons msg messages ih =>
    rw [List.foldlM_cons] at h
    obtain ⟨b₁, hstep, h⟩ := Checks.bind_eq_ok.mp h
    obtain ⟨ends, hends, hlength, hrebuilt⟩ := ih h
    obtain ⟨blocks, hblocks, hcontent⟩ := projectMessage_blocks hstep
    obtain ⟨more, hmore⟩ := (grown_of_run h).blocks
    refine ⟨b₁.projection.blocks.length :: ends, ?_, congrArg Nat.succ hlength, fun k => ?_⟩
    · rw [hends, (stepped_of_projectMessage hstep).ends, List.append_assoc]
      rfl
    · cases k with
      | zero => rfl
      | succ k =>
        have hlength : b₁.projection.blocks.length =
            b.projection.blocks.length + blocks.length := by
          rw [hblocks, List.length_append]
        have hroom : ¬ (b₁.projection.blocks.length < b.projection.blocks.length ∨
            b'.projection.blocks.length < b₁.projection.blocks.length) := by
          rw [hmore, List.length_append]
          omega
        have hown : (b'.projection.blocks.take b₁.projection.blocks.length).drop
            b.projection.blocks.length = blocks := by
          rw [hmore, List.take_left, hblocks, List.drop_left]
        rw [List.map_cons, List.zip_cons_cons, List.take_succ_cons, List.take_succ_cons,
          reattachFrom, if_neg hroom, hown, hcontent, hrebuilt k]
        rfl

/-- A prefix of a full projection is rebuilt without the JSON of its messages. -/
theorem reattached_of_project {p : FlatProjection}
    (h : projectMessages text sha256 messages = .ok p) {k : Nat} (hk : k ≤ messages.length) :
    p.reattachMessagesPrefix k = some ((messages.take k).map CkIngressMessage.bare) := by
  rw [projectMessages, projectMessagesFromState] at h
  obtain ⟨b, hrun, h⟩ := Checks.bind_eq_ok.mp h
  cases h
  obtain ⟨ends, hends, hlength, hrebuilt⟩ := reattachFrom_of_run hrun
  have hshells := (grown_of_run hrun).shells
  have hends : b.projection.messageBlockEnds = ends := hends
  have hshells : b.projection.messageMeta = messages.map CkIngressMessage.shell := hshells
  rw [FlatProjection.reattachMessagesPrefix, hends, hshells, if_neg]
  · exact hrebuilt k
  · rw [hlength, List.length_map]
    omega

/-! ## Projections behind projections -/

/-- A projection of these messages, from the start or behind a prefix of another one. -/
inductive Projects (text : CkWireBlock → Option String) (sha256 : String → List UInt8) :
    List CkIngressMessage → FlatProjection → Prop where
  | full {messages : List CkIngressMessage} {p : FlatProjection}
      (h : projectMessages text sha256 messages = .ok p) : Projects text sha256 messages p
  | incremental {old new : List CkIngressMessage} {cached p : FlatProjection} {k : Nat}
      (hold : Projects text sha256 old cached) (hagree : old.take k = new.take k)
      (h : projectMessagesIncremental text sha256 new cached k = .ok p) :
      Projects text sha256 new p

/-- A projection but for the identities. -/
def FlatProjection.forget (p : FlatProjection) : FlatProjection :=
  { p with identityByMid := SortedMap.empty }

def FlatProjectionBuilder.forget (b : FlatProjectionBuilder) : FlatProjectionBuilder :=
  { b with projection := b.projection.forget }

/-- The projector never reads the identities. -/
theorem projectMessage_forget {c : FlatProjectionBuilder} (hforget : b.forget = c.forget)
    (msg : CkIngressMessage) :
    (projectMessage text sha256 b msg).map forget =
      (projectMessage text sha256 c msg).map forget := by
  obtain ⟨⟨blocks, identities, shells, ends, states⟩, state⟩ := b
  obtain ⟨⟨blocks', identities', shells', ends', states'⟩, state'⟩ := c
  cases hforget
  unfold projectMessage
  split
  · rfl
  · dsimp only
    cases projectContent text sha256 msg
        (if msg.ck.role = "assistant" then openCalls msg else state) with
    | error e => rfl
    | ok m => rfl

theorem run_forget {c : FlatProjectionBuilder} (hforget : b.forget = c.forget)
    (h : messages.foldlM (projectMessage text sha256) b = .ok b') :
    ∃ c', messages.foldlM (projectMessage text sha256) c = .ok c' ∧ b'.forget = c'.forget := by
  induction messages generalizing b c with
  | nil =>
    cases h
    exact ⟨c, rfl, hforget⟩
  | cons msg messages ih =>
    have hsame := @projectMessage_forget text sha256 b c hforget msg
    rw [List.foldlM_cons] at h ⊢
    cases hb : projectMessage text sha256 b msg with
    | error e =>
      rw [hb] at h
      cases h
    | ok b₁ =>
      rw [hb] at h hsame
      cases hc : projectMessage text sha256 c msg with
      | error e =>
        rw [hc] at hsame
        cases hsame
      | ok c₁ =>
        rw [hc] at hsame
        exact ih (Except.ok.inj hsame) h

theorem run_of_project {p : FlatProjection} (h : projectMessagesFromState text sha256 messages b =
    .ok p) : ∃ b', messages.foldlM (projectMessage text sha256) b = .ok b' ∧ b'.projection = p := by
  rw [projectMessagesFromState] at h
  obtain ⟨b', hrun, h⟩ := Checks.bind_eq_ok.mp h
  cases h
  exact ⟨b', hrun, rfl⟩

/-- Every projection is the full one, but for the identities. -/
theorem project_of_projects {p : FlatProjection} (h : Projects text sha256 messages p) :
    ∃ p', projectMessages text sha256 messages = .ok p' ∧ p.forget = p'.forget := by
  induction h with
  | full h => exact ⟨_, h, rfl⟩
  | @incremental old new cached p k hold hagree h ih =>
    obtain ⟨cached', hcached', hforget⟩ := ih
    rw [projectMessagesIncremental] at h
    split at h
    · exact ⟨p, h, rfl⟩
    split at h
    · exact ⟨p, h, rfl⟩
    rename_i identities _
    obtain ⟨-, hnew⟩ : k ≠ 0 ∧ k ≤ new.length := by omega
    have hlength : (new.take k).length = k := List.length_take_of_le hnew
    have hne : new.take k ≠ [] := List.ne_nil_of_length_pos (by omega)
    obtain ⟨b', hrun, rfl⟩ := run_of_project hcached'
    rw [← List.take_append_drop k old, hagree] at hrun
    obtain ⟨b, hbefore, hafter⟩ := run_append hrun
    have hresume : b'.projection.resume k b.projection.identityByMid = b :=
      hlength ▸ resume_of_run hne hbefore hafter
    have hsame : (cached.resume k identities).forget = b.forget := by
      rw [← hresume]
      change cached.forget.resume k SortedMap.empty = b'.projection.forget.resume k SortedMap.empty
      rw [hforget]
    obtain ⟨b₁, hrun₁, rfl⟩ := run_of_project h
    obtain ⟨c₁, hrun₂, hforget₁⟩ := run_forget hsame hrun₁
    refine ⟨c₁.projection, ?_, congrArg projection hforget₁⟩
    rw [projectMessages, projectMessagesFromState, ← List.take_append_drop k new,
      List.foldlM_append, hbefore]
    exact congrArg (Except.map projection) hrun₂

/-! ## Lossless prefixes -/

theorem read_message_original {m : CkWireMessage} (h : CkWireMessage.read v = some m) :
    m.original = some v := by
  obtain ⟨fields, -, h⟩ := Option.bind_eq_some_iff.mp h
  split at h
  · obtain ⟨_, -, h⟩ := Option.bind_eq_some_iff.mp h
    obtain ⟨_, -, h⟩ := Option.bind_eq_some_iff.mp h
    obtain ⟨_, -, h⟩ := Option.bind_eq_some_iff.mp h
    obtain ⟨_, -, h⟩ := Option.bind_eq_some_iff.mp h
    obtain ⟨_, -, h⟩ := Option.bind_eq_some_iff.mp h
    cases h
    rfl
  · cases h

theorem read_ingress {m : CkIngressMessage} (h : CkIngressMessage.read v = some m) :
    ∃ w, CkWireMessage.read w = some m.ck := by
  obtain ⟨fields, -, h⟩ := Option.bind_eq_some_iff.mp h
  split at h
  · obtain ⟨_, -, h⟩ := Option.bind_eq_some_iff.mp h
    obtain ⟨_, -, h⟩ := Option.bind_eq_some_iff.mp h
    obtain ⟨ck, hck, h⟩ := Option.bind_eq_some_iff.mp h
    cases h
    obtain ⟨w, -, hw⟩ := Option.bind_eq_some_iff.mp hck
    exact ⟨w, hw⟩
  · cases h

/-- **A prefix comes back as it came exactly when its messages are plain.** -/
theorem reattached_iff {p : FlatProjection}
    (hread : ∀ m ∈ messages, ∃ v, CkIngressMessage.read v = some m)
    (hp : Projects text sha256 messages p) {k : Nat} (hk : k ≤ messages.length) :
    (p.reattachMessagesPrefix k).map (fun reattached => reattached.map CkIngressMessage.write) =
        some ((messages.take k).map CkIngressMessage.write) ↔
      ∀ m ∈ messages.take k, m.ck.original.any plainMessage = true := by
  obtain ⟨p', hfull, hforget⟩ := project_of_projects hp
  have hrebuilt : p.reattachMessagesPrefix k =
      some ((messages.take k).map CkIngressMessage.bare) := by
    change p.forget.reattachMessagesPrefix k = _
    rw [hforget]
    exact reattached_of_project hfull hk
  rw [hrebuilt, Option.map_some, Option.some_inj, List.map_map, List.map_inj_left]
  refine forall₂_congr fun m hm => ?_
  obtain ⟨v, hv⟩ := hread m (List.mem_of_mem_take hm)
  obtain ⟨w, hw⟩ := read_ingress hv
  have hwritten : m.ck.write = w := by
    rw [CkWireMessage.write, read_message_original hw, Option.getD_some]
  rw [read_message_original hw, Option.any_some, ← write_bare_iff hw]
  simp only [Function.comp_apply, CkIngressMessage.write, CkIngressMessage.bare, hwritten,
    Json.object.injEq, List.cons.injEq, Prod.mk.injEq, true_and, and_true]

/-! ## A field that a rebuilt message does not have -/

namespace Sample

/-- A message with a field that the reader does not know. -/
def annotated : Json :=
  .object [("ck", .object [("content", .array []), ("meta", .object []), ("note", .bool true),
      ("role", .string "user")]),
    ("mid", .string "m0"), ("ordinal", .number (.posInt 0))]

def annotatedMessage : CkIngressMessage where
  mid := "m0"
  ordinal := 0
  ck :=
    { role := "user"
      content := []
      original := annotated.get? "ck" }

def annotatedProjection : FlatProjection where
  identityByMid := SortedMap.empty.insert "m0" []
  messageMeta := [annotatedMessage.shell]
  messageBlockEnds := [0]
  statesAfterMessages := [{}]

end Sample

theorem prefixes_not_lossless : ¬ ∀ (text : CkWireBlock → Option String)
    (sha256 : String → List UInt8) (messages : List CkIngressMessage) (p : FlatProjection),
    (∀ m ∈ messages, ∃ v, CkIngressMessage.read v = some m) → Projects text sha256 messages p →
      ∀ k ≤ messages.length,
        (p.reattachMessagesPrefix k).map (fun reattached => reattached.map CkIngressMessage.write) =
          some ((messages.take k).map CkIngressMessage.write) := by
  intro h
  have hread : ∀ m ∈ [Sample.annotatedMessage], ∃ v, CkIngressMessage.read v = some m := by
    intro m hm
    cases List.mem_singleton.mp hm
    exact ⟨Sample.annotated, by decide +kernel⟩
  have hprojects : Projects Sample.blockText Sample.digest [Sample.annotatedMessage]
      Sample.annotatedProjection := .full (by decide +kernel)
  exact absurd (h _ _ _ _ hread hprojects 1 (by decide)) (by decide +kernel)

namespace Sample

/-- A call and its result, as they are read from JSON. -/
def exchange : List CkIngressMessage :=
  [call, result].filterMap fun m => CkIngressMessage.read m.write

/-- What a projection comes to. -/
def projectedOf : Except CkWireError FlatProjection → FlatProjection
  | .ok p => p
  | .error _ => {}

/-- The projection of the call, and the one of both behind it. -/
def called : FlatProjection := projectedOf (projectMessages blockText digest (exchange.take 1))

def resumed : FlatProjection :=
  projectedOf (projectMessagesIncremental blockText digest exchange called 1)

end Sample

/-- What was read from the writer's own JSON comes back as it came. -/
theorem reattached_iff_resumed :
    (Sample.resumed.reattachMessagesPrefix 2).map
        (fun reattached => reattached.map CkIngressMessage.write) =
      some ((Sample.exchange.take 2).map CkIngressMessage.write) := by
  have hread : ∀ m ∈ Sample.exchange, ∃ v, CkIngressMessage.read v = some m := by
    intro m hm
    obtain ⟨written, -, hread⟩ := List.mem_filterMap.mp hm
    exact ⟨_, hread⟩
  have hprojects : Projects Sample.blockText Sample.digest Sample.exchange Sample.resumed :=
    @Projects.incremental _ _ (Sample.exchange.take 1) _ Sample.called _ 1
      (.full (by decide +kernel)) (by decide +kernel) (by decide +kernel)
  exact (reattached_iff hread hprojects (by decide +kernel)).mpr (by decide +kernel)

end MagicContext.Wire
