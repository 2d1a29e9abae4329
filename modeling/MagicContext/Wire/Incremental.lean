import MagicContext.Lib.Checks
import MagicContext.Wire.Projection
import Mathlib.Data.List.Induction

/-!
# Projections behind a prefix

A projection grows message by message: blocks, shells, frontiers and states are only added, and the
identities of a message stay as long as no later message goes by its id.  So what a projection holds
up to a frontier is what the projector had there, and to go on from it is to project everything.

## What is here

* `Grown` — what a projection has after more messages, relative to what it had before.
* `prefixIdentities_of_run` — the identities of a prefix are found again.
* `resume_of_run` — the builder behind a prefix is the one that the projector had there.
* `incremental_eq_full` — the incremental projection is the full one.
-/

namespace MagicContext.Wire

variable {text : CkWireBlock → Option String} {sha256 : String → List UInt8}
  {b b' b'' : FlatProjectionBuilder} {msg : CkIngressMessage} {messages : List CkIngressMessage}

/-! ## Growth -/

/-- What one projected message adds. -/
structure Stepped (b : FlatProjectionBuilder) (msg : CkIngressMessage)
    (b' : FlatProjectionBuilder) : Prop where
  blocks : ∃ more, b'.projection.blocks = b.projection.blocks ++ more
  identities : ∃ ids, b'.projection.identityByMid =
    if msg.ck.harnessMeta.synthetic then b.projection.identityByMid
    else b.projection.identityByMid.insert msg.mid ids
  shells : b'.projection.messageMeta = b.projection.messageMeta ++ [msg.shell]
  ends : b'.projection.messageBlockEnds =
    b.projection.messageBlockEnds ++ [b'.projection.blocks.length]
  states : b'.projection.statesAfterMessages = b.projection.statesAfterMessages ++ [b'.state]

theorem stepped_of_projectMessage (h : projectMessage text sha256 b msg = .ok b') :
    Stepped b msg b' := by
  unfold projectMessage at h
  split at h
  · cases h
  · obtain ⟨m, -, h⟩ := Checks.bind_eq_ok.mp h
    cases h
    exact ⟨⟨m.blocks, rfl⟩, ⟨m.identities, rfl⟩, rfl, rfl, rfl⟩

/-- What a projection has after more messages. -/
structure Grown (b : FlatProjectionBuilder) (messages : List CkIngressMessage)
    (b' : FlatProjectionBuilder) : Prop where
  blocks : ∃ more, b'.projection.blocks = b.projection.blocks ++ more
  identities : ∀ mid, mid ∉ messages.map CkIngressMessage.mid →
    b'.projection.identityByMid.get mid = b.projection.identityByMid.get mid
  shells : b'.projection.messageMeta =
    b.projection.messageMeta ++ messages.map CkIngressMessage.shell
  ends : ∃ more, b'.projection.messageBlockEnds = b.projection.messageBlockEnds ++ more ∧
    more.length = messages.length
  states : ∃ more, b'.projection.statesAfterMessages = b.projection.statesAfterMessages ++ more ∧
    more.length = messages.length

theorem Grown.refl (b : FlatProjectionBuilder) : Grown b [] b where
  blocks := ⟨[], (List.append_nil _).symm⟩
  identities _ _ := rfl
  shells := (List.append_nil _).symm
  ends := ⟨[], (List.append_nil _).symm, rfl⟩
  states := ⟨[], (List.append_nil _).symm, rfl⟩

theorem Grown.cons (hstep : Stepped b msg b') (h : Grown b' messages b'') :
    Grown b (msg :: messages) b'' := by
  obtain ⟨first, hfirst⟩ := hstep.blocks
  obtain ⟨more, hmore⟩ := h.blocks
  obtain ⟨ends, hends, hlength⟩ := h.ends
  obtain ⟨states, hstates, hlength'⟩ := h.states
  refine ⟨⟨first ++ more, ?_⟩, fun mid hmid => ?_, ?_,
    ⟨b'.projection.blocks.length :: ends, ?_, ?_⟩, ⟨b'.state :: states, ?_, ?_⟩⟩
  · rw [hmore, hfirst, List.append_assoc]
  · obtain ⟨hne, hrest⟩ := not_or.mp fun hmem => hmid (List.mem_cons.mpr hmem)
    obtain ⟨ids, hids⟩ := hstep.identities
    rw [h.identities mid hrest, hids]
    split
    · rfl
    · rw [SortedMap.get_insert, if_neg (Ne.symm hne)]
  · rw [h.shells, hstep.shells, List.append_assoc]
    rfl
  · rw [hends, hstep.ends, List.append_assoc]
    rfl
  · rw [List.length_cons, hlength, List.length_cons]
  · rw [hstates, hstep.states, List.append_assoc]
    rfl
  · rw [List.length_cons, hlength', List.length_cons]

theorem grown_of_run (h : messages.foldlM (projectMessage text sha256) b = .ok b') :
    Grown b messages b' := by
  induction messages generalizing b with
  | nil =>
    cases h
    exact .refl _
  | cons msg messages ih =>
    rw [List.foldlM_cons] at h
    obtain ⟨b₁, hstep, h⟩ := Checks.bind_eq_ok.mp h
    exact .cons (stepped_of_projectMessage hstep) (ih h)

/-- A run over two lists is a run over the first and one behind it. -/
theorem run_append {before after : List CkIngressMessage}
    (h : (before ++ after).foldlM (projectMessage text sha256) b = .ok b'') :
    ∃ b', before.foldlM (projectMessage text sha256) b = .ok b' ∧
      after.foldlM (projectMessage text sha256) b' = .ok b'' := by
  rw [List.foldlM_append] at h
  exact Checks.bind_eq_ok.mp h

/-! ## The builder behind a prefix -/

/-- The last message of a run left its frontier and its state. -/
theorem frontier_of_run (hne : messages ≠ [])
    (h : messages.foldlM (projectMessage text sha256) b = .ok b') :
    b'.projection.messageBlockEnds.getLast? = some b'.projection.blocks.length ∧
      b'.projection.statesAfterMessages.getLast? = some b'.state := by
  rcases List.eq_nil_or_concat messages with rfl | ⟨before, last, rfl⟩
  · exact absurd rfl hne
  · rw [List.concat_eq_append] at h
    obtain ⟨b₁, -, hlast⟩ := run_append h
    rw [List.foldlM_cons] at hlast
    obtain ⟨b₂, hstep, hlast⟩ := Checks.bind_eq_ok.mp hlast
    cases hlast
    have hstepped := stepped_of_projectMessage hstep
    rw [hstepped.ends, hstepped.states]
    exact ⟨List.getLast?_concat .., List.getLast?_concat ..⟩

theorem prefixIdentities_of_run {cached : FlatProjection}
    (hdistinct : (messages.map CkIngressMessage.mid).Nodup)
    (h : messages.foldlM (projectMessage text sha256) {} = .ok b)
    (hcached : ∀ msg ∈ messages,
      cached.identityByMid.get msg.mid = b.projection.identityByMid.get msg.mid) :
    prefixIdentities cached messages = some b.projection.identityByMid := by
  induction messages using List.reverseRecOn generalizing b with
  | nil =>
    cases h
    rfl
  | append_singleton before last ih =>
    obtain ⟨b₁, hbefore, hlast⟩ := run_append h
    rw [List.foldlM_cons] at hlast
    obtain ⟨b₂, hstep, hlast⟩ := Checks.bind_eq_ok.mp hlast
    cases hlast
    obtain ⟨ids, hids⟩ := (stepped_of_projectMessage hstep).identities
    rw [List.map_append, List.nodup_append] at hdistinct
    obtain ⟨hnodup, -, hapart⟩ := hdistinct
    have hearlier : prefixIdentities cached before = some b₁.projection.identityByMid := by
      refine ih hnodup hbefore fun msg hmsg => ?_
      have hne : last.mid ≠ msg.mid := fun heq =>
        hapart msg.mid (List.mem_map_of_mem hmsg) last.mid (List.mem_singleton_self _) heq.symm
      rw [hcached msg (List.mem_append_left _ hmsg), hids]
      split
      · rfl
      · rw [SortedMap.get_insert, if_neg hne]
    rw [prefixIdentities, List.foldlM_append]
    change (prefixIdentities cached before >>= _) = _
    rw [hearlier, hids]
    have hfound := hcached last (List.mem_append_right _ (List.mem_singleton_self _))
    rw [hids] at hfound
    by_cases hsynthetic : last.ck.harnessMeta.synthetic = true
    · simp [hsynthetic]
    · rw [if_neg hsynthetic, SortedMap.get_insert, if_pos rfl] at hfound
      simp [hsynthetic, hfound]

/-- What comes up to a frontier, in a list that goes on behind it. -/
theorem take_and_last {α : Type} {before all : List α} {last : α} {n : Nat}
    (hall : ∃ more, all = before ++ more) (hlength : before.length = n)
    (hlast : before.getLast? = some last) : all.take n = before ∧ all[n - 1]? = some last := by
  obtain ⟨-, rfl⟩ := hall
  refine ⟨List.take_left' hlength, ?_⟩
  have hne : before ≠ [] := by
    rintro rfl
    cases hlast
  have hpos := List.length_pos_iff.mpr hne
  rw [← hlength, List.getElem?_append_left (by omega), ← List.getLast?_eq_getElem?, hlast]

/-- **The builder behind a prefix is the one that the projector had there.** -/
theorem resume_of_run {before after : List CkIngressMessage} (hne : before ≠ [])
    (hbefore : before.foldlM (projectMessage text sha256) {} = .ok b)
    (hafter : after.foldlM (projectMessage text sha256) b = .ok b') :
    b'.projection.resume before.length b.projection.identityByMid = b := by
  have hgrown := grown_of_run hafter
  obtain ⟨hend, hstate⟩ := frontier_of_run hne hbefore
  have hcount : b.projection.messageBlockEnds.length = before.length := by
    obtain ⟨ends, hends, hlength⟩ := (grown_of_run hbefore).ends
    exact hends ▸ hlength
  have hcount' : b.projection.statesAfterMessages.length = before.length := by
    obtain ⟨states, hstates, hlength⟩ := (grown_of_run hbefore).states
    exact hstates ▸ hlength
  obtain ⟨htake, hlast⟩ := take_and_last (hgrown.ends.imp fun _ h => h.1) hcount hend
  obtain ⟨htake', hlast'⟩ := take_and_last (hgrown.states.imp fun _ h => h.1) hcount' hstate
  have hblocks : b'.projection.blocks.take b.projection.blocks.length = b.projection.blocks := by
    obtain ⟨more, hmore⟩ := hgrown.blocks
    rw [hmore, List.take_left]
  have hshells : b'.projection.messageMeta.take before.length = b.projection.messageMeta := by
    have hbefore := (grown_of_run hbefore).shells
    refine hgrown.shells ▸ List.take_left' ?_
    rw [hbefore]
    exact List.length_map ..
  rw [FlatProjection.resume, hlast, hlast', Option.getD_some, Option.getD_some, hblocks, hshells,
    htake, htake']

/-- **The incremental projection is the full one.**  Where two lists agree on a prefix, what the
projection of one holds for it is what the projection of the other comes to. -/
theorem incremental_eq_full {old new : List CkIngressMessage} {k : Nat} {cached : FlatProjection}
    (hdistinct : (old.map CkIngressMessage.mid).Nodup) (hagree : old.take k = new.take k)
    (hcached : projectMessages text sha256 old = .ok cached) :
    projectMessagesIncremental text sha256 new cached k = projectMessages text sha256 new := by
  rw [projectMessagesIncremental]
  split
  · rfl
  obtain ⟨-, hnew, -⟩ : k ≠ 0 ∧ k ≤ new.length ∧ k ≤ cached.messageBlockEnds.length := by
    omega
  obtain ⟨b', hrun, rfl⟩ : ∃ b', old.foldlM (projectMessage text sha256) {} = .ok b' ∧
      b'.projection = cached := by
    rw [projectMessages, projectMessagesFromState] at hcached
    obtain ⟨b', hold, hcached⟩ := Checks.bind_eq_ok.mp hcached
    cases hcached
    exact ⟨b', hold, rfl⟩
  have hlength : (new.take k).length = k := List.length_take_of_le hnew
  have hsplit : new.take k ++ old.drop k = old := by rw [← hagree, List.take_append_drop]
  rw [← hsplit] at hrun
  obtain ⟨b, hbefore, hafter⟩ := run_append hrun
  rw [← hsplit, List.map_append, List.nodup_append] at hdistinct
  obtain ⟨hnodup, -, hapart⟩ := hdistinct
  have hidentities : prefixIdentities b'.projection (new.take k) =
      some b.projection.identityByMid := by
    refine prefixIdentities_of_run hnodup hbefore fun msg hmsg => ?_
    refine (grown_of_run hafter).identities msg.mid fun hmem => ?_
    exact hapart msg.mid (List.mem_map_of_mem hmsg) msg.mid hmem rfl
  have hresume : b'.projection.resume k b.projection.identityByMid = b := by
    have hne : new.take k ≠ [] := List.ne_nil_of_length_pos (by omega)
    exact hlength ▸ resume_of_run hne hbefore hafter
  rw [hidentities]
  dsimp only
  rw [hresume, projectMessages, projectMessagesFromState, projectMessagesFromState]
  conv_rhs => rw [← List.take_append_drop k new, List.foldlM_append, hbefore]
  rfl

/-! ## A result that takes a call of the prefix -/

namespace Sample

def call : CkIngressMessage where
  mid := "m0"
  ordinal := 0
  ck := .fromParts "assistant" [⟨.toolCall "t" "ls" (.object []) false, [], none⟩] none [] {}

def result : CkIngressMessage where
  mid := "m1"
  ordinal := 1
  ck := .fromParts "tool" [⟨.toolResult "t" "ls" ⟨.text "a", []⟩ false, [], none⟩] none [] {}

def blockText (block : CkWireBlock) : Option String :=
  match block.kind with
  | .toolCall .. =>
    some ("\x7b\"kind\":\x7b\"type\":\"tool_call\",\"id\":\"t\",\"name\":\"ls\"," ++
      "\"input\":\x7b\x7d,\"provider_executed\":false\x7d\x7d")
  | _ =>
    some ("\x7b\"kind\":\x7b\"type\":\"tool_result\",\"id\":\"t\",\"tool_name\":\"ls\"," ++
      "\"output\":\x7b\"kind\":\x7b\"type\":\"text\",\"text\":\"a\"\x7d\x7d," ++
      "\"provider_executed\":false\x7d\x7d")

def digest (bytes : String) : List UInt8 :=
  if bytes.length = 87 then
    [42, 194, 128, 181, 122, 51, 2, 192, 150, 189, 16, 132, 252, 106, 36, 228, 139, 27, 210, 171,
      159, 147, 77, 204, 44, 227, 40, 225, 162, 173, 103, 26]
  else
    [21, 221, 86, 68, 166, 72, 34, 143, 246, 164, 101, 193, 61, 200, 63, 244, 141, 73, 207, 195,
      248, 212, 181, 191, 185, 225, 246, 32, 66, 151, 233, 144]

def projected : FlatProjection :=
  match projectMessages blockText digest [call] with
  | .ok p => p
  | .error _ => {}

end Sample

theorem incremental_eq_full_call : projectMessagesIncremental Sample.blockText Sample.digest
    [Sample.call, Sample.result] Sample.projected 1 =
      projectMessages Sample.blockText Sample.digest [Sample.call, Sample.result] :=
  @incremental_eq_full Sample.blockText Sample.digest [Sample.call] [Sample.call, Sample.result] 1
    Sample.projected (by decide) rfl (by decide +kernel)

end MagicContext.Wire
