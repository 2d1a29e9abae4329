import MagicContext.Boundary.Work
import MagicContext.Lib.Fitting

/-!
# What the estimate says of the messages it has not read

The scan groups the messages with content into blocks by role, and stops before the first block
that the budget does not allow.  Whether there is more is then told from the ordinal of the last
message that a block stands for, and messages without content stand in no block until one with
content follows.

## What is here

* `readMessage` — what a message adds to a block, `none` for noise; `pushMessage_eq`.
* `Grouping`, `contentBlocks` — the blocks of the messages, whatever the budget.
* `estimate_represents` — **the estimate is that of the blocks that fit**, the first ones of all.
* `Honest` — what an estimate is to say; `estimate_honest_iff`, when it says it.
-/

namespace MagicContext.Boundary

open Fitting ChunkBuilder

variable {F : Type} [Double F]

/-! ## Messages and blocks, without a budget -/

/-- What a message adds to a block. -/
structure Reading where
  role : String
  text : String
  commitHashes : List String
  narrative : Bool

variable (tools : ChunkTools)

/-- The part of a message that counts; `none` for noise. -/
def readMessage (message : BoundaryMsg) : Option Reading :=
  if message.role = .user ∧ hasMeaningfulUserText tools.toTextTools message.blocks = false then
    let tcSummaries := extractToolCallSummaries message.blocks
    if tcSummaries.isEmpty then none
    else
      some { role := "A", text := String.intercalate " / " tcSummaries, commitHashes := []
             narrative := false }
  else
    let texts := textParts tools.toTextTools message
    let hasNarrative := !texts.isEmpty
    let summaries := if hasNarrative then [] else extractToolCallSummaries message.blocks
    let compacted := compactTextForSummary tools.toTextTools
      (String.intercalate " / " (texts ++ summaries)) message.role.asStr
    if compacted.text = "" then none
    else
      some { role := compactRole tools.toTextTools message.role.asStr, text := compacted.text
             commitHashes := compacted.commitHashes, narrative := hasNarrative }

/-- A block with one more message, after the noise before it. -/
def ChunkBlock.add (block : ChunkBlock) (noise : List Nat) (ordinal : Nat) (reading : Reading) :
    ChunkBlock :=
  { block with
    endOrdinal := ordinal
    parts := block.parts ++ [reading.text]
    metaOrdinals := block.metaOrdinals ++ noise ++ [ordinal]
    commitHashes := mergeCommitHashes block.commitHashes reading.commitHashes
    isToolOnly := block.isToolOnly && !reading.narrative }

/-- The block that a message opens, after the noise before it. -/
def Reading.opens (reading : Reading) (noise : List Nat) (ordinal : Nat) : ChunkBlock where
  role := reading.role
  startOrdinal := noise.head?.getD ordinal
  endOrdinal := ordinal
  parts := [reading.text]
  metaOrdinals := noise ++ [ordinal]
  commitHashes := reading.commitHashes
  isToolOnly := !reading.narrative

/-- The blocks of the messages so far, the last of which is still open, and the noise since. -/
structure Grouping where
  closed : List ChunkBlock := []
  opened : Option ChunkBlock := none
  noise : List Nat := []

namespace Grouping

/-- The next message: noise, one more for the open block, or the first of another block. -/
def push (tools : ChunkTools) (grouping : Grouping) (message : BoundaryMsg) : Grouping :=
  match readMessage tools message with
  | none => { grouping with noise := grouping.noise ++ [message.messageOrdinal] }
  | some reading =>
    match grouping.opened.filter fun block => block.role == reading.role with
    | some block =>
      { grouping with
        opened := some (block.add grouping.noise message.messageOrdinal reading)
        noise := [] }
    | none =>
      { closed := grouping.closed ++ grouping.opened.toList
        opened := some (reading.opens grouping.noise message.messageOrdinal)
        noise := [] }

def blocks (grouping : Grouping) : List ChunkBlock := grouping.closed ++ grouping.opened.toList

/-- Messages to come leave the closed blocks in place. -/
theorem closed_prefix (tools : ChunkTools) (grouping : Grouping) (messages : List BoundaryMsg) :
    grouping.closed <+: (messages.foldl (push tools) grouping).blocks := by
  induction messages generalizing grouping with
  | nil => exact List.prefix_append _ _
  | cons message messages ih =>
    refine List.IsPrefix.trans ?_ (ih (grouping.push tools message))
    rw [push]
    split
    · exact List.prefix_refl _
    · split
      · exact List.prefix_refl _
      · exact List.prefix_append _ _

end Grouping

open Grouping

variable (messages : List BoundaryMsg)

/-- The blocks of the messages. -/
def contentBlocks : List ChunkBlock :=
  (messages.foldl (Grouping.push tools) {}).blocks

/-- The last ordinal that blocks stand for. -/
def lastOrdinalOf (blocks : List ChunkBlock) : Nat :=
  (blocks.getLast?.map fun block => block.metaOrdinals.getLastD block.endOrdinal).getD 0

/-- The ordinal of the last message with content. -/
def lastContentOrdinal : Nat :=
  (((messages.filter fun message => (readMessage tools message).isSome).getLast?).map
    (·.messageOrdinal)).getD 0

/-- The last block stands for the last message with content, and no further. -/
theorem lastOrdinalOf_contentBlocks :
    lastOrdinalOf (contentBlocks tools messages) = lastContentOrdinal tools messages := by
  induction messages using List.reverseRecOn with
  | nil => rfl
  | append_singleton messages message ih =>
    rw [contentBlocks, List.foldl_append, List.foldl_cons, List.foldl_nil] at *
    rw [lastContentOrdinal, List.filter_append]
    rw [push]
    cases hread : readMessage tools message with
    | none =>
      rw [List.filter_singleton, hread]
      simpa [blocks, lastContentOrdinal] using ih
    | some reading =>
      rw [List.filter_singleton, hread]
      have hopened : ∀ (closed : List ChunkBlock) (block : ChunkBlock) (noise : List Nat),
          block.metaOrdinals.getLast? = some message.messageOrdinal →
          lastOrdinalOf (blocks ⟨closed, some block, noise⟩) = message.messageOrdinal := by
        intro closed block noise hblock
        simp [blocks, lastOrdinalOf, hblock]
      dsimp only
      split <;> rw [hopened] <;> simp [ChunkBlock.add, Reading.opens]

/-! ## The scan -/

/-- What the scan does with a message. -/
theorem ChunkBuilder.pushMessage_eq (builder : ChunkBuilder F) (message : BoundaryMsg) :
    builder.pushMessage tools message = match readMessage tools message with
      | none =>
        ({ builder with
            pendingNoiseMeta := builder.pendingNoiseMeta ++ [message.messageOrdinal] }, true)
      | some reading =>
        match builder.current reading.role with
        | some block =>
          ({ builder with
              currentBlock :=
                some (block.add builder.pendingNoiseMeta message.messageOrdinal reading)
              pendingNoiseMeta := [] }, true)
        | none =>
          match builder.flushCurrentBlock tools with
          | (builder, false) => (builder, false)
          | (builder, true) =>
            ({ builder with
                currentBlock :=
                  some (reading.opens builder.pendingNoiseMeta message.messageOrdinal)
                pendingNoiseMeta := [] }, true) := by
  rw [pushMessage, readMessage]
  dsimp only
  split
  · split
    · rfl
    · dsimp only
      cases builder.current "A" with
      | none => rfl
      | some block =>
        simp only [ChunkBlock.add, mergeCommitHashes, distinctHashes, Bool.not_false, Bool.and_true]
  · generalize compactTextForSummary tools.toTextTools _ message.role.asStr = compacted
    split
    · rfl
    · dsimp only
      cases builder.current (compactRole tools.toTextTools message.role.asStr) with
      | none => rfl
      | some block => rfl

/-- The tokens of a block's line. -/
def blockCost (block : ChunkBlock) : F :=
  Double.ofNat (tools.estimateTokens (formatBlock block))

/-- The budget does not allow a block after what has been taken. -/
def refusesBlock (budgetStop total cost : F) : Bool :=
  decide (budgetStop < total + cost ∧ 0 < total)

/-- The blocks that fit in the budget. -/
def blocksWithin (budgetStop : F) (blocks : List ChunkBlock) : List ChunkBlock :=
  fitting (refusesBlock budgetStop) (blockCost tools) 0 blocks

/-- What the scan has put out is what the blocks taken come to. -/
structure Represents (tools : ChunkTools) (budgetStop : F) (builder : ChunkBuilder F)
    (taken : List ChunkBlock) : Prop where
  budgetStop_eq : builder.budgetStop = budgetStop
  formattedBlocks_eq : builder.formattedBlocks = taken.map formatBlock
  blockTokens_eq : builder.blockTokens = taken.map (blockCost tools)
  totalTokens_eq : builder.totalTokens = spent (blockCost tools) 0 taken
  lastOrdinal_eq : builder.lastOrdinal = lastOrdinalOf taken
  messagesProcessed_eq :
    builder.messagesProcessed = (taken.map fun block => block.metaOrdinals.length).sum

/-- What is not put out may change. -/
theorem Represents.congr {tools : ChunkTools} {budgetStop : F} {builder : ChunkBuilder F}
    {taken : List ChunkBlock} (h : Represents tools budgetStop builder taken)
    (opened : Option ChunkBlock) (noise : List Nat) :
    Represents tools budgetStop
      { builder with currentBlock := opened, pendingNoiseMeta := noise } taken :=
  ⟨h.1, h.2, h.3, h.4, h.5, h.6⟩

section

variable {tools : ChunkTools} {budgetStop : F} {builder : ChunkBuilder F}
  {taken : List ChunkBlock} (h : Represents tools budgetStop builder taken)
  (htaken : blocksWithin tools budgetStop taken = taken)
include h

/-- A block that the budget allows is put out. -/
theorem flush_of_allowed {block : ChunkBlock} (hblock : builder.currentBlock = some block)
    (hallowed : refusesBlock budgetStop builder.totalTokens (blockCost tools block) = false) :
    (builder.flushCurrentBlock tools).2 = true ∧
      (builder.flushCurrentBlock tools).1.pendingNoiseMeta = builder.pendingNoiseMeta ∧
      Represents tools budgetStop (builder.flushCurrentBlock tools).1 (taken ++ [block]) := by
  have hnot : ¬ (budgetStop < builder.totalTokens + blockCost tools block ∧
      0 < builder.totalTokens) := of_decide_eq_false hallowed
  rw [flushCurrentBlock, hblock, h.budgetStop_eq]
  dsimp only
  rw [blockCost] at hnot
  rw [if_neg hnot]
  refine ⟨rfl, rfl, rfl, ?_, ?_, ?_, ?_, ?_⟩
  · simp [h.formattedBlocks_eq]
  · simp [h.blockTokens_eq, blockCost]
  · rw [spent_concat, ← h.totalTokens_eq]
    rfl
  · simp [lastOrdinalOf]
  · simp [h.messagesProcessed_eq]

theorem flush_of_refused {block : ChunkBlock} (hblock : builder.currentBlock = some block)
    (hrefused : refusesBlock budgetStop builder.totalTokens (blockCost tools block) = true) :
    builder.flushCurrentBlock tools = (builder, false) := by
  have hboth : budgetStop < builder.totalTokens + blockCost tools block ∧
      0 < builder.totalTokens := of_decide_eq_true hrefused
  rw [flushCurrentBlock, hblock, h.budgetStop_eq]
  dsimp only
  rw [blockCost] at hboth
  rw [if_pos hboth]

include htaken

/-- **A flush takes the open block or is refused**, as the budget allows. -/
theorem flush_represents :
    (builder.flushCurrentBlock tools).2 = true ∧
        (builder.flushCurrentBlock tools).1.pendingNoiseMeta = builder.pendingNoiseMeta ∧
        Represents tools budgetStop (builder.flushCurrentBlock tools).1
          (taken ++ builder.currentBlock.toList) ∧
        blocksWithin tools budgetStop (taken ++ builder.currentBlock.toList) =
          taken ++ builder.currentBlock.toList ∨
      builder.flushCurrentBlock tools = (builder, false) ∧
        ∃ block, builder.currentBlock = some block ∧ ∀ rest,
          blocksWithin tools budgetStop (taken ++ block :: rest) = taken := by
  rcases hblock : builder.currentBlock with _ | block
  · refine .inl ?_
    rw [Option.toList_none, List.append_nil, flushCurrentBlock, hblock]
    exact ⟨rfl, rfl, h, htaken⟩
  · rcases hrefuses : refusesBlock budgetStop builder.totalTokens (blockCost tools block) with _ | _
    · obtain ⟨hgoes, hnoise, hrepresents⟩ := flush_of_allowed h hblock hrefuses
      refine .inl ⟨hgoes, hnoise, hrepresents, ?_⟩
      rw [Option.toList_some, blocksWithin, fitting_concat htaken, ← h.totalTokens_eq, hrefuses]
      rfl
    · refine .inr ⟨flush_of_refused h hblock hrefuses, block, rfl, fun rest => ?_⟩
      rw [blocksWithin, fitting_append htaken, ← h.totalTokens_eq, fitting, if_pos hrefuses,
        List.append_nil]

end

/-- The scan so far: what has been put out are the closed blocks, which all fit. -/
structure Scans (tools : ChunkTools) (budgetStop : F) (builder : ChunkBuilder F)
    (grouping : Grouping) : Prop where
  represents : Represents tools budgetStop builder grouping.closed
  fits : blocksWithin tools budgetStop grouping.closed = grouping.closed
  opened : builder.currentBlock = grouping.opened
  noise : builder.pendingNoiseMeta = grouping.noise

/-- **A message is taken as the grouping takes it**, or the scan stops before a block that does not
fit. -/
theorem pushMessage_scans {tools : ChunkTools} {budgetStop : F} {builder : ChunkBuilder F}
    {grouping : Grouping} (h : Scans tools budgetStop builder grouping) (message : BoundaryMsg) :
    (builder.pushMessage tools message).2 = true ∧
        Scans tools budgetStop (builder.pushMessage tools message).1 (grouping.push tools message) ∨
      builder.pushMessage tools message = (builder, false) ∧
        builder.flushCurrentBlock tools = (builder, false) ∧
        ∃ block, (grouping.push tools message).closed = grouping.closed ++ [block] ∧
          ∀ rest, blocksWithin tools budgetStop (grouping.closed ++ block :: rest) =
            grouping.closed := by
  rw [pushMessage_eq, push]
  cases hread : readMessage tools message with
  | none =>
    refine .inl ⟨rfl, h.represents.congr builder.currentBlock _, h.fits, h.opened, ?_⟩
    exact congrArg (· ++ [message.messageOrdinal]) h.noise
  | some reading =>
    dsimp only
    rw [current, h.opened]
    cases hcurrent : grouping.opened.filter fun block => block.role == reading.role with
    | some block =>
      refine .inl ⟨rfl, h.represents.congr _ _, h.fits, ?_, rfl⟩
      exact congrArg (fun noise => some (block.add noise message.messageOrdinal reading)) h.noise
    | none =>
      rcases flush_represents h.represents h.fits with
        ⟨hgoes, hnoise, hrepresents, hfits⟩ | ⟨hstops, block, hblock, hrefused⟩
      · rw [h.opened] at hrepresents hfits
        rcases hflush : builder.flushCurrentBlock tools with ⟨flushed, goes⟩
        rw [hflush] at hgoes hnoise hrepresents
        obtain rfl : goes = true := hgoes
        refine .inl ⟨rfl, hrepresents.congr _ _, hfits, ?_, rfl⟩
        exact congrArg (fun noise => some (reading.opens noise message.messageOrdinal))
          (hnoise.trans h.noise)
      · rw [h.opened] at hblock
        refine .inr ⟨by rw [hstops], hstops, block, ?_, hrefused⟩
        rw [hblock]
        rfl

/-- **What the scan puts out are the blocks that fit**, and it goes to the end when all do. -/
theorem pushMessages_represents {tools : ChunkTools} {budgetStop : F} {builder : ChunkBuilder F}
    {grouping : Grouping} (h : Scans tools budgetStop builder grouping)
    (messages : List BoundaryMsg) :
    Represents tools budgetStop ((builder.pushMessages tools messages).flushCurrentBlock tools).1
        (blocksWithin tools budgetStop (messages.foldl (push tools) grouping).blocks) ∧
      (((builder.pushMessages tools messages).flushCurrentBlock tools).2 = true ↔
        blocksWithin tools budgetStop (messages.foldl (push tools) grouping).blocks =
          (messages.foldl (push tools) grouping).blocks) := by
  induction messages generalizing builder grouping with
  | nil =>
    rw [pushMessages, List.foldl_nil, blocks, ← h.opened]
    rcases flush_represents h.represents h.fits with
      ⟨hgoes, -, hrepresents, hfits⟩ | ⟨hstops, block, hblock, hrefused⟩
    · rw [hfits]
      exact ⟨hrepresents, iff_of_true hgoes rfl⟩
    · rw [hstops, hblock, Option.toList_some, hrefused]
      exact ⟨h.represents, iff_of_false Bool.false_ne_true (by simp)⟩
  | cons message messages ih =>
    rw [pushMessages, List.foldl_cons]
    rcases pushMessage_scans h message with
      ⟨hgoes, hscans⟩ | ⟨hstops, hflush, block, hclosed, hrefused⟩
    · rcases hpush : builder.pushMessage tools message with ⟨pushed, goes⟩
      rw [hpush] at hgoes hscans
      obtain rfl : goes = true := hgoes
      exact ih hscans
    · -- the block that does not fit stays where it is among those to come
      obtain ⟨rest, hrest⟩ := hclosed ▸ closed_prefix tools (grouping.push tools message) messages
      rw [List.append_assoc, List.singleton_append] at hrest
      rw [hstops, ← hrest, hrefused]
      rw [hflush]
      exact ⟨h.represents, iff_of_false Bool.false_ne_true (by simp)⟩

/-! ## The estimate -/

/-- The messages of a range, in order. -/
def eligibleMessages (startOrdinal : Nat) (eligibleEndOrdinal : Option Nat) : List BoundaryMsg :=
  (match eligibleEndOrdinal with
    | some stop =>
      (inOrder messages).takeWhile fun (message : BoundaryMsg) => message.messageOrdinal < stop
    | none => inOrder messages).filter fun message => startOrdinal ≤ message.messageOrdinal

/-- The ordinal the scan is to reach. -/
def terminalOf (eligibleEndOrdinal : Option Nat) : Nat :=
  let total := ((inOrder messages).map (·.messageOrdinal)).max?.getD (inOrder messages).length
  match eligibleEndOrdinal with
  | some stop => min (stop - 1) total
  | none => total

/-- The builder at the end of the scan, and whether its last flush was allowed. -/
def scanned (tools : ChunkTools) (messages : List BoundaryMsg) (startOrdinal : Nat)
    (eligibleEndOrdinal : Option Nat) (budgetStop : F) : ChunkBuilder F × Bool :=
  (({ budgetStop, totalTokens := 0 } : ChunkBuilder F).pushMessages tools
    (eligibleMessages messages startOrdinal eligibleEndOrdinal)).flushCurrentBlock tools

/-- `stopped_early`: the budget has refused a block. -/
def stoppedEarly (tools : ChunkTools) (messages : List BoundaryMsg) (startOrdinal : Nat)
    (eligibleEndOrdinal : Option Nat) (budgetStop : F) : Bool :=
  !(scanned tools messages startOrdinal eligibleEndOrdinal budgetStop).2

section

variable (tools : ChunkTools) (messages : List BoundaryMsg) (startOrdinal : Nat)
  (eligibleEndOrdinal : Option Nat) (budgetStop : F)

theorem chunkedMessageEstimate_eq :
    let builder := (scanned tools messages startOrdinal eligibleEndOrdinal budgetStop).1
    let estimate :=
      chunkedMessageEstimate tools messages startOrdinal eligibleEndOrdinal budgetStop
    estimate.hasMore = decide (builder.lastOrdinal < terminalOf messages eligibleEndOrdinal) ∧
      estimate.tokens = (if estimate.hasMore = true ∧ builder.totalTokens < builder.budgetStop ∧
          0 < builder.totalTokens then builder.budgetStop else builder.totalTokens) ∧
      estimate.formattedBlocks = builder.formattedBlocks ∧
      estimate.blockTokens = builder.blockTokens ∧
      estimate.messageCount = builder.messagesProcessed := by
  cases eligibleEndOrdinal with
  | none => exact ⟨rfl, rfl, rfl, rfl, rfl⟩
  | some stop => exact ⟨rfl, rfl, rfl, rfl, rfl⟩

/-- **The estimate is that of the blocks that fit**: its lines, their tokens and its messages are
theirs, there is more when they end before the terminal ordinal, and the scan has stopped early when
they are not all the blocks. -/
theorem estimate_represents :
    let blocks := contentBlocks tools (eligibleMessages messages startOrdinal eligibleEndOrdinal)
    let taken := blocksWithin tools budgetStop blocks
    let total := spent (blockCost tools) 0 taken
    let estimate :=
      chunkedMessageEstimate tools messages startOrdinal eligibleEndOrdinal budgetStop
    estimate.formattedBlocks = taken.map formatBlock ∧
      estimate.blockTokens = taken.map (blockCost tools) ∧
      estimate.messageCount = (taken.map fun block => block.metaOrdinals.length).sum ∧
      estimate.hasMore = decide (lastOrdinalOf taken < terminalOf messages eligibleEndOrdinal) ∧
      estimate.tokens =
        (if estimate.hasMore = true ∧ total < budgetStop ∧ 0 < total then budgetStop else total) ∧
      (stoppedEarly tools messages startOrdinal eligibleEndOrdinal budgetStop = false ↔
        taken = blocks) := by
  have hstart : Scans tools budgetStop ({ budgetStop, totalTokens := 0 } : ChunkBuilder F) {} :=
    ⟨⟨rfl, rfl, rfl, rfl, rfl, rfl⟩, rfl, rfl, rfl⟩
  obtain ⟨hrepresents, hgoes⟩ := pushMessages_represents hstart
    (eligibleMessages messages startOrdinal eligibleEndOrdinal)
  obtain ⟨hmore, htokens, hformatted, hcosts, hcount⟩ :=
    chunkedMessageEstimate_eq tools messages startOrdinal eligibleEndOrdinal budgetStop
  intro blocks taken total estimate
  rw [← scanned] at hrepresents hgoes
  rw [hrepresents.lastOrdinal_eq] at hmore
  rw [hrepresents.totalTokens_eq, hrepresents.budgetStop_eq] at htokens
  rw [hrepresents.formattedBlocks_eq] at hformatted
  rw [hrepresents.blockTokens_eq] at hcosts
  rw [hrepresents.messagesProcessed_eq] at hcount
  refine ⟨hformatted, hcosts, hcount, hmore, htokens, ?_⟩
  rw [stoppedEarly, Bool.not_eq_false']
  exact hgoes

/-- **What an estimate is to say**: there is more exactly when the budget stopped the scan and left
blocks out; and when it did not, the tokens are those of the blocks. -/
structure Honest : Prop where
  hasMore_iff :
    (chunkedMessageEstimate tools messages startOrdinal eligibleEndOrdinal
        budgetStop).hasMore = true ↔
      stoppedEarly tools messages startOrdinal eligibleEndOrdinal budgetStop = true ∧
        (chunkedMessageEstimate tools messages startOrdinal eligibleEndOrdinal
            budgetStop).formattedBlocks.length <
          (contentBlocks tools (eligibleMessages messages startOrdinal eligibleEndOrdinal)).length
  tokens_eq :
    stoppedEarly tools messages startOrdinal eligibleEndOrdinal budgetStop = false →
      (chunkedMessageEstimate tools messages startOrdinal eligibleEndOrdinal budgetStop).tokens =
        (chunkedMessageEstimate tools messages startOrdinal eligibleEndOrdinal
          budgetStop).blockTokens.foldl (· + ·) 0

/-- The budget allows all the blocks of the range. -/
def AllFit : Prop :=
  blocksWithin tools budgetStop
      (contentBlocks tools (eligibleMessages messages startOrdinal eligibleEndOrdinal)) =
    contentBlocks tools (eligibleMessages messages startOrdinal eligibleEndOrdinal)

/-- **An estimate is honest** exactly when, all blocks fitting, the last message with content has
the terminal ordinal; and, not all fitting, those that do end before it. -/
theorem estimate_honest_iff :
    Honest tools messages startOrdinal eligibleEndOrdinal budgetStop ↔
      (AllFit tools messages startOrdinal eligibleEndOrdinal budgetStop →
        terminalOf messages eligibleEndOrdinal ≤ lastContentOrdinal tools
          (eligibleMessages messages startOrdinal eligibleEndOrdinal)) ∧
      (¬ AllFit tools messages startOrdinal eligibleEndOrdinal budgetStop →
        lastOrdinalOf (blocksWithin tools budgetStop
            (contentBlocks tools (eligibleMessages messages startOrdinal eligibleEndOrdinal))) <
          terminalOf messages eligibleEndOrdinal) := by
  obtain ⟨hformatted, hcosts, -, hmore, htokens, hstopped⟩ :=
    estimate_represents tools messages startOrdinal eligibleEndOrdinal budgetStop
  have hread : blocksWithin tools budgetStop (contentBlocks tools
      (eligibleMessages messages startOrdinal eligibleEndOrdinal)) <+: _ := fitting_prefix _ _
  rw [← lastOrdinalOf_contentBlocks]
  by_cases hfits : AllFit tools messages startOrdinal eligibleEndOrdinal budgetStop
  · have hgoes := hstopped.mpr hfits
    rw [AllFit] at hfits
    rw [hfits] at hmore htokens hcosts
    constructor
    · intro honest
      refine ⟨fun _ => ?_, fun hnot => absurd hfits hnot⟩
      by_contra hlt
      rw [not_le] at hlt
      have hstops := (honest.hasMore_iff.mp (hmore.trans (decide_eq_true hlt))).1
      exact Bool.false_ne_true (hgoes.symm.trans hstops)
    · rintro ⟨hreaches, -⟩
      have hnone := hmore.trans (decide_eq_false (not_lt.mpr (hreaches hfits)))
      refine ⟨?_, fun _ => ?_⟩
      · rw [hnone, hgoes]
        simp
      · rw [htokens, hnone, hcosts, List.foldl_map]
        rfl
  · have hstops : stoppedEarly tools messages startOrdinal eligibleEndOrdinal budgetStop = true :=
      Bool.not_eq_false _ ▸ fun hgoes => hfits (hstopped.mp hgoes)
    have hfewer : (chunkedMessageEstimate tools messages startOrdinal eligibleEndOrdinal
          budgetStop).formattedBlocks.length <
        (contentBlocks tools
          (eligibleMessages messages startOrdinal eligibleEndOrdinal)).length := by
      rw [hformatted, List.length_map]
      exact lt_of_le_of_ne hread.length_le fun heq => hfits (hread.eq_of_length heq)
    constructor
    · intro honest
      refine ⟨fun h => absurd h hfits, fun _ => ?_⟩
      exact of_decide_eq_true (hmore.symm.trans (honest.hasMore_iff.mpr ⟨hstops, hfewer⟩))
    · rintro ⟨-, hbefore⟩
      refine ⟨iff_of_true (hmore.trans (decide_eq_true (hbefore hfits))) ⟨hstops, hfewer⟩, ?_⟩
      intro hgoes
      exact absurd (hgoes.symm.trans hstops) Bool.false_ne_true

end

/-! ### A prompt and an empty message -/

/-- The session ends with a message that has no content. -/
def trailingNoise : List BoundaryMsg :=
  [{ messageOrdinal := 1, role := .user, blocks :=
      [{ kind := .text, original := "go on", originalTokenCount := 2 }] },
    { messageOrdinal := 2, role := .user, blocks := [] }]

/-- All is read, and the estimate says that there is more and counts the whole budget. -/
theorem estimate_not_honest :
    ¬ ∀ (tools : ChunkTools) (messages : List BoundaryMsg) (startOrdinal : Nat)
      (eligibleEndOrdinal : Option Nat) (budgetStop : ℚ),
      Honest tools messages startOrdinal eligibleEndOrdinal budgetStop := fun h =>
  absurd ((h plainChunkTools trailingNoise 1 none 100).hasMore_iff.mp (by decide +kernel)).1
    (by decide +kernel)

end MagicContext.Boundary
