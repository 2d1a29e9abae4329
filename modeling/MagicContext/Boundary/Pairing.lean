import MagicContext.Boundary.Resolve

/-!
# A resolved boundary splits no tool arc

The start of the protected tail is fenced last of all, and so is the end of the eligible head
before the start of the tail bounds it; whatever moved them before, neither stands inside a
completed arc.

## What is here

* `Splits` — a completed arc of the messages starts before a boundary and does not end before it.
* `resolved_pairs` — neither boundary of a resolution splits an arc, and the head lies where it
  should.
-/

namespace MagicContext.Boundary

open Historian (u64Max)
open Spans

variable {F : Type} [Double F]

/-- A completed tool arc of the messages is split at `boundary`. -/
def Splits (messages : List BoundaryMsg) (boundary : Nat) : Prop :=
  ∃ arc ∈ buildToolArcs messages, ∃ result, arc.resOrdinal = some result ∧
    arc.invOrdinal < boundary ∧ boundary ≤ result

theorem not_splits {messages : List BoundaryMsg} {boundary : Nat} :
    ¬ Splits messages boundary ↔ Uncut (completedArcs (buildToolArcs messages)) boundary := by
  constructor
  · rintro h s hs ⟨hlt, hle⟩
    exact h ⟨_, mem_completedArcs.mp hs, s.2, rfl, hlt, hle⟩
  · rintro h ⟨⟨inv, -⟩, harc, result, rfl, hlt, hle⟩
    exact h (inv, result) (mem_completedArcs.mpr harc) ⟨hlt, hle⟩

/-- A result is the ordinal of a message. -/
theorem completedArcs_lt {messages : List BoundaryMsg} {bound : Nat}
    (h : ∀ message ∈ messages, message.messageOrdinal < bound) :
    ∀ s ∈ completedArcs (buildToolArcs messages), s.1 < bound ∧ s.2 < bound := by
  intro s hs
  obtain ⟨⟨call, hcall, hinv⟩, hres⟩ := mem_buildToolArcs (mem_completedArcs.mp hs)
  obtain ⟨⟨answer, hanswer, hresult⟩, -⟩ := hres s.2 rfl
  dsimp only at hinv
  exact ⟨hinv ▸ h call hcall, hresult ▸ h answer hanswer⟩

section

variable (index : TokenIndex F) (protectedTailStart offset : Nat) (arcs : List ToolArc)
  (capTokens : F) (recentOpenArcCutoff : Nat)

theorem applyHeadCap_eligibleEndOrdinal :
    (applyHeadCap index protectedTailStart offset arcs capTokens
        recentOpenArcCutoff).eligibleEndOrdinal =
      if protectedTailStart ≤ offset then offset
      else
        let stop := (fencedHeadEnd arcs offset recentOpenArcCutoff
          (index.findHeadEndForCap offset protectedTailStart capTokens)).1
        if stop ≤ offset then offset else min stop protectedTailStart := by
  rw [applyHeadCap]
  split
  · rfl
  · dsimp only
    split <;> rfl

/-- The head ends between the offset and the protected tail. -/
theorem applyHeadCap_bounds :
    offset ≤ (applyHeadCap index protectedTailStart offset arcs capTokens
        recentOpenArcCutoff).eligibleEndOrdinal ∧
      (applyHeadCap index protectedTailStart offset arcs capTokens
        recentOpenArcCutoff).eligibleEndOrdinal ≤ max offset protectedTailStart := by
  rw [applyHeadCap_eligibleEndOrdinal]
  split
  · exact ⟨Nat.le_refl offset, le_max_left ..⟩
  · rename_i hlt
    dsimp only
    split
    · exact ⟨Nat.le_refl offset, le_max_left ..⟩
    · rename_i hstop
      exact ⟨le_min (not_le.mp hstop).le (not_le.mp hlt).le,
        (min_le_right ..).trans (le_max_right ..)⟩

/-- The end of a head that is not empty splits no arc. -/
theorem applyHeadCap_uncut (hresults : ∀ s ∈ completedArcs arcs, s.2 < u64Max)
    (hprotected : Uncut (completedArcs arcs) protectedTailStart)
    (hnonempty : offset < (applyHeadCap index protectedTailStart offset arcs capTokens
      recentOpenArcCutoff).eligibleEndOrdinal) :
    Uncut (completedArcs arcs) (applyHeadCap index protectedTailStart offset arcs capTokens
      recentOpenArcCutoff).eligibleEndOrdinal := by
  have hfenced : Uncut (completedArcs arcs) (fencedHeadEnd arcs offset recentOpenArcCutoff
      (index.findHeadEndForCap offset protectedTailStart capTokens)).1 :=
    fence_uncut hresults _ offset
  rw [applyHeadCap_eligibleEndOrdinal] at hnonempty ⊢
  dsimp only at hnonempty ⊢
  generalize (fencedHeadEnd arcs offset recentOpenArcCutoff
    (index.findHeadEndForCap offset protectedTailStart capTokens)).1 = stop at hfenced hnonempty ⊢
  split
  · rename_i hle
    rw [if_pos hle] at hnonempty
    exact absurd hnonempty (lt_irrefl offset)
  · rename_i hlt
    rw [if_neg hlt] at hnonempty
    split
    · rename_i hle
      rw [if_pos hle] at hnonempty
      exact absurd hnonempty (lt_irrefl offset)
    · rcases min_choice stop protectedTailStart with hmin | hmin <;> rw [hmin]
      · exact hfenced
      · exact hprotected

end

/-- The head starts at the offset and ends between it and the protected tail. -/
theorem resolved_head_within (tools : TextTools) (messages : List BoundaryMsg)
    (ctx : BoundaryContext F) :
    let resolved := resolveProtectedTailBoundary tools messages ctx
    resolved.eligibleHead.1 = offsetOf messages ctx ∧
      offsetOf messages ctx ≤ resolved.eligibleHead.2 ∧
      resolved.eligibleHead.2 ≤ max (offsetOf messages ctx) resolved.protectedStartOrdinal := by
  rw [resolveProtectedTailBoundary]
  split
  · exact ⟨rfl, Nat.le_refl _, le_max_left ..⟩
  · exact ⟨rfl, applyHeadCap_bounds ..⟩

/-- **No completed tool arc is split by compaction**: none at the start of the protected tail,
none at the end of an eligible head that is not empty; and the head starts at the offset and ends
between it and the protected tail. -/
theorem resolved_pairs (tools : TextTools) (messages : List BoundaryMsg)
    (hordinals : ∀ message ∈ messages, message.messageOrdinal < u64Max)
    (ctx : BoundaryContext F) :
    let resolved := resolveProtectedTailBoundary tools messages ctx
    ¬ Splits messages resolved.protectedStartOrdinal ∧
      (resolved.eligibleHead.1 < resolved.eligibleHead.2 →
        ¬ Splits messages resolved.eligibleHead.2) ∧
      resolved.eligibleHead.1 = offsetOf messages ctx ∧
      offsetOf messages ctx ≤ resolved.eligibleHead.2 ∧
      resolved.eligibleHead.2 ≤ max (offsetOf messages ctx) resolved.protectedStartOrdinal := by
  have hresults : ∀ s ∈ completedArcs (buildToolArcs messages), s.2 < u64Max := fun s hs =>
    (completedArcs_lt hordinals s hs).2
  have hwithin := resolved_head_within tools messages ctx
  intro resolved
  simp only [not_splits]
  suffices hfree : Uncut (completedArcs (buildToolArcs messages)) resolved.protectedStartOrdinal ∧
      (resolved.eligibleHead.1 < resolved.eligibleHead.2 →
        Uncut (completedArcs (buildToolArcs messages)) resolved.eligibleHead.2) from
    ⟨hfree.1, hfree.2, hwithin⟩
  by_cases hempty : (TokenIndex.new messages : TokenIndex F).rawMessageCount = 0
  · have hmessages := (TokenIndex.sound_new (F := F) messages).nil_of_rawMessageCount hempty
    subst hmessages
    have hnone : completedArcs (buildToolArcs []) = [] := rfl
    rw [hnone]
    exact ⟨List.forall_mem_nil _, fun _ => List.forall_mem_nil _⟩
  · simp only [resolved, resolveProtectedTailBoundary, if_neg hempty]
    have hstart := fence_uncut hresults
    exact ⟨hstart _ _, fun hnonempty =>
      applyHeadCap_uncut _ _ _ _ _ _ hresults (hstart _ _) hnonempty⟩

/-! ## A session -/

/-- The expressions on texts in which they find nothing. -/
def plainTools : TextTools where
  systemReminder := id
  commitHashExtract _ := []
  removeCommitHashes := id
  commitVerb _ := false
  emptyParens := id
  spaceBeforeComma := id
  repeatedComma := id
  repeatedSpace := id
  spaceBeforePunct := id
  toUppercase c := c.toUpper.toString

/-- A call, its long result, a prompt and an answer. -/
def longResult : List BoundaryMsg :=
  [{ messageOrdinal := 1, role := .assistant, blocks :=
      [{ kind := .toolCall "read" (.object []), arcId := some "m1#0", originalTokenCount := 8 }] },
    { messageOrdinal := 2, role := .user, blocks :=
      [{ kind := .toolResult "read", arcId := some "m1#0", originalTokenCount := 60000 }] },
    { messageOrdinal := 3, role := .user, blocks :=
      [{ kind := .text, original := "go on", originalTokenCount := 2 }] },
    { messageOrdinal := 4, role := .assistant, blocks :=
      [{ kind := .text, original := "done", originalTokenCount := 30000 }] }]

/-- The protected tail starts at the prompt; no capped end lies inside the arc before it. -/
theorem resolved_pairs_longResult :
    let resolved := resolveProtectedTailBoundary plainTools longResult
      (BoundaryContext.default : BoundaryContext ℚ)
    resolved.protectedStartOrdinal = 3 ∧ ¬ Splits longResult resolved.protectedStartOrdinal ∧
      (resolved.eligibleHead.1 < resolved.eligibleHead.2 →
        ¬ Splits longResult resolved.eligibleHead.2) :=
  have h := resolved_pairs plainTools longResult (by decide)
    (BoundaryContext.default : BoundaryContext ℚ)
  ⟨by decide +kernel, h.1, h.2.1⟩

end MagicContext.Boundary
