import Mathlib.Data.List.Sort
import MagicContext.Lib.Table
import MagicContext.Transcripts.Recovery

/-!
# Which transcripts are kept

The condensed transcripts of a session have a cap.  Above it the oldest row goes, and where the row
also has the raw messages, which are kept for good, only its condensed transcript does: it becomes
the empty one, which takes some bytes itself, so that such a row is left out from then on.

## What is here

* `victim`, `reclaim`, `evictChunkTranscripts` — one round, and the loop.
* `mem_reclaim` — the rows after a round.
* `Reclaims`, `Reclaimed` — rounds, and what they come to; `evict_spec`.
-/

namespace MagicContext.Transcripts

/-- A row of `mc_chunk_transcripts`. -/
structure ChunkTranscriptRow where
  sessionId : String
  compartmentSeq : Int
  startOrdinal : Int
  endOrdinal : Int
  transcriptDeflate : List UInt8
  rawMessagesDeflate : Option (List UInt8)
  createdAtMs : Int
  deriving DecidableEq

namespace ChunkTranscriptRow

def key (row : ChunkTranscriptRow) : String × Int := (row.sessionId, row.compartmentSeq)

/-- `ORDER BY created_at_ms ASC, compartment_seq ASC`. -/
def Older (row later : ChunkTranscriptRow) : Prop :=
  row.createdAtMs < later.createdAtMs ∨
    (row.createdAtMs = later.createdAtMs ∧ row.compartmentSeq < later.compartmentSeq)

instance (row later : ChunkTranscriptRow) : Decidable (row.Older later) :=
  inferInstanceAs (Decidable (_ ∨ _))

instance : IsTrans ChunkTranscriptRow fun row later => ¬later.Older row :=
  ⟨fun row mid later h h' => by grind [Older]⟩

instance : Std.Total fun row later : ChunkTranscriptRow => ¬later.Older row :=
  ⟨fun row later => by grind [Older]⟩

end ChunkTranscriptRow

abbrev ChunkTranscripts := Table ChunkTranscriptRow.key

def maxSessionTranscriptCompressedBytes : Nat := 8 * 1024 * 1024

section
variable (codec : Codec) (sessionId : String)

/-- The row can be reclaimed: it has no raw messages, or a condensed transcript that is not the
empty one. -/
def shrinks (row : ChunkTranscriptRow) : Bool :=
  decide (row.sessionId = sessionId) &&
    (row.rawMessagesDeflate.isNone || decide (row.transcriptDeflate ≠ codec.deflate []))

/-- `SUM(LENGTH(transcript_deflate))`, which no database is large enough to overflow. -/
def condensedTotal (t : ChunkTranscripts) : Nat :=
  t.total fun row => if row.sessionId = sessionId then row.transcriptDeflate.length else 0

def victim (t : ChunkTranscripts) : Option ChunkTranscriptRow :=
  ((t.select (shrinks codec sessionId)).insertionSort fun row later => ¬later.Older row).head?

/-- The row with the empty transcript for its own. -/
def ChunkTranscriptRow.emptied (row : ChunkTranscriptRow) : ChunkTranscriptRow :=
  { row with transcriptDeflate := codec.deflate [] }

theorem ChunkTranscriptRow.key_emptied (row : ChunkTranscriptRow) :
    (row.emptied codec).key = row.key := rfl

/-- Empties a row that has raw messages, and deletes another. -/
def reclaim (t : ChunkTranscripts) (row : ChunkTranscriptRow) : ChunkTranscripts :=
  if row.rawMessagesDeflate.isSome then
    t.update (fun r => decide (r.key = (sessionId, row.compartmentSeq)))
      (ChunkTranscriptRow.emptied codec) (ChunkTranscriptRow.key_emptied codec)
  else t.delete fun r => decide (r.key = (sessionId, row.compartmentSeq))

variable {codec sessionId} {t : ChunkTranscripts} {row : ChunkTranscriptRow}

theorem session_of_shrinks (h : shrinks codec sessionId row = true) :
    row.sessionId = sessionId := by
  rw [shrinks, Bool.and_eq_true] at h
  exact of_decide_eq_true h.1

variable {r : ChunkTranscriptRow}

/-- Of two rows of a session one is older. -/
theorem older_of_not_older (hr : r ∈ t) (hrow : row ∈ t)
    (hshrinks : shrinks codec sessionId r = true) (h : shrinks codec sessionId row = true)
    (hne : r ≠ row) (hnot : ¬r.Older row) : row.Older r := by
  have hsession := (session_of_shrinks hshrinks).trans (session_of_shrinks h).symm
  have hseq : r.compartmentSeq ≠ row.compartmentSeq := fun hseq =>
    hne (Table.eq_of_key hr hrow (Prod.ext hsession hseq))
  simp only [ChunkTranscriptRow.Older] at hnot ⊢
  omega

theorem victim_eq_some (h : victim codec sessionId t = some row) :
    row ∈ t ∧ shrinks codec sessionId row = true ∧
      ∀ r ∈ t, shrinks codec sessionId r = true → r ≠ row → row.Older r := by
  obtain ⟨rest, hsort⟩ := List.head?_eq_some_iff.mp h
  have hmem : ∀ r, r ∈ row :: rest ↔ r ∈ t ∧ shrinks codec sessionId r = true := fun r => by
    rw [← hsort, List.mem_insertionSort, Table.mem_select]
  have hsorted := List.pairwise_insertionSort
    (fun row later : ChunkTranscriptRow => ¬later.Older row) (t.select (shrinks codec sessionId))
  rw [hsort, List.pairwise_cons] at hsorted
  obtain ⟨hrow, hshrinks⟩ := (hmem row).mp List.mem_cons_self
  refine ⟨hrow, hshrinks, fun r hr hr' hne => older_of_not_older hr hrow hr' hshrinks hne ?_⟩
  exact hsorted.1 r (List.mem_of_ne_of_mem hne ((hmem r).mpr ⟨hr, hr'⟩))

/-- **The rows after a round**: the others, and the victim when it has raw messages. -/
theorem mem_reclaim (hrow : row ∈ t) (h : shrinks codec sessionId row = true) :
    r ∈ reclaim codec sessionId t row ↔
      (r ∈ t ∧ r ≠ row) ∨ (row.rawMessagesDeflate.isSome = true ∧ r = row.emptied codec) := by
  have hkey : ∀ s ∈ t, s.key = (sessionId, row.compartmentSeq) ↔ s = row := by
    intro s hs
    rw [← session_of_shrinks h]
    exact ⟨fun hsame => Table.eq_of_key hs hrow hsame, fun hsame => by rw [hsame]; rfl⟩
  rw [reclaim]
  split
  · rename_i hraw
    rw [Table.mem_update]
    constructor
    · rintro ⟨s, hs, rfl⟩
      simp only [hkey s hs, decide_eq_true_eq]
      split
      · rename_i hsame
        exact .inr ⟨hraw, by rw [hsame]⟩
      · rename_i hother
        exact .inl ⟨hs, hother⟩
    · rintro (⟨hr, hne⟩ | ⟨-, rfl⟩)
      · exact ⟨r, hr, by simp only [hkey r hr, hne, decide_false, Bool.false_eq_true, if_false]⟩
      · exact ⟨row, hrow, by simp only [hkey row hrow, decide_true, if_true]⟩
  · rename_i hraw
    rw [Table.mem_delete, decide_eq_false_iff_not]
    simp only [hraw, Bool.false_eq_true, false_and, or_false]
    exact and_congr_right fun hr => not_congr (hkey r hr)

theorem not_shrinks_emptied (hraw : row.rawMessagesDeflate.isSome = true) :
    ¬shrinks codec sessionId (row.emptied codec) = true := by
  obtain ⟨raw, hsome⟩ := Option.isSome_iff_exists.mp hraw
  simp [shrinks, ChunkTranscriptRow.emptied, hsome]

/-- What is left to reclaim. -/
theorem select_reclaim (hrow : row ∈ t) (h : shrinks codec sessionId row = true)
    (hr : r ∈ reclaim codec sessionId t row)
    (hshrinks : shrinks codec sessionId r = true) : r ∈ t ∧ r ≠ row := by
  rcases (mem_reclaim hrow h).mp hr with hold | ⟨hraw, rfl⟩
  · exact hold
  · exact absurd hshrinks (not_shrinks_emptied hraw)

theorem length_select_reclaim (hrow : row ∈ t) (h : shrinks codec sessionId row = true) :
    ((reclaim codec sessionId t row).select (shrinks codec sessionId)).length <
      (t.select (shrinks codec sessionId)).length := by
  have hnodup := (List.Nodup.of_map _ (reclaim codec sessionId t row).unique).filter
    (shrinks codec sessionId)
  have hmem := Table.mem_select.mpr ⟨hrow, h⟩
  have hsubset : (reclaim codec sessionId t row).select (shrinks codec sessionId) ⊆
      (t.select (shrinks codec sessionId)).erase row := by
    intro r hr
    obtain ⟨hr, hshrinks⟩ := Table.mem_select.mp hr
    obtain ⟨hold, hne⟩ := select_reclaim hrow h hr hshrinks
    exact (List.mem_erase_of_ne hne).mpr (Table.mem_select.mpr ⟨hold, hshrinks⟩)
  have hle := hnodup.length_le_of_subset hsubset
  rw [List.length_erase_of_mem hmem] at hle
  have hpos := List.length_pos_of_mem hmem
  exact lt_of_le_of_lt hle (Nat.sub_lt hpos Nat.one_pos)

variable (codec sessionId) in
/-- `evict_chunk_transcripts_tx`. -/
def evictChunkTranscripts (t : ChunkTranscripts) : ChunkTranscripts :=
  if condensedTotal sessionId t ≤ maxSessionTranscriptCompressedBytes then t
  else match _hvictim : victim codec sessionId t with
    | none => t
    | some row => evictChunkTranscripts (reclaim codec sessionId t row)
termination_by (t.select (shrinks codec sessionId)).length
decreasing_by
  obtain ⟨hrow, hshrinks, -⟩ := victim_eq_some _hvictim
  exact length_select_reclaim hrow hshrinks

variable (codec sessionId) in
/-- Rounds, each of which takes the oldest row that is left. -/
inductive Reclaims : ChunkTranscripts → List ChunkTranscriptRow → ChunkTranscripts → Prop
  | done (t : ChunkTranscripts) : Reclaims t [] t
  | round {t t' : ChunkTranscripts} {row : ChunkTranscriptRow} {rows : List ChunkTranscriptRow} :
      victim codec sessionId t = some row → Reclaims (reclaim codec sessionId t row) rows t' →
        Reclaims t (row :: rows) t'

variable {t' : ChunkTranscripts} {rows : List ChunkTranscriptRow}

variable (codec sessionId) in
/-- Rows that can be reclaimed have been, oldest first and before all that are left; the others are
as they were, and rows with raw messages keep them. -/
structure Reclaimed (t : ChunkTranscripts) (rows : List ChunkTranscriptRow)
    (t' : ChunkTranscripts) : Prop where
  taken : ∀ row ∈ rows, row ∈ t ∧ shrinks codec sessionId row = true
  ordered : rows.Pairwise fun row later => row.Older later
  before : ∀ row ∈ rows, ∀ r ∈ t, shrinks codec sessionId r = true → r ∉ rows → row.Older r
  left : ∀ r, r ∈ t' ↔ (r ∈ t ∧ r ∉ rows) ∨
    ∃ row ∈ rows, row.rawMessagesDeflate.isSome = true ∧ r = row.emptied codec

theorem Reclaims.reclaimed (h : Reclaims codec sessionId t rows t') :
    Reclaimed codec sessionId t rows t' := by
  induction h with
  | done t => exact ⟨nofun, .nil, nofun, by simp⟩
  | @round t t' row rows hvictim _ ih =>
    obtain ⟨htaken, hordered, hbefore, hleft⟩ := ih
    obtain ⟨hrow, hshrinks, holdest⟩ := victim_eq_some hvictim
    have htaken' : ∀ r ∈ rows, (r ∈ t ∧ r ≠ row) ∧ shrinks codec sessionId r = true :=
      fun r hr => ⟨select_reclaim hrow hshrinks (htaken r hr).1 (htaken r hr).2, (htaken r hr).2⟩
    refine ⟨List.forall_mem_cons.mpr ⟨⟨hrow, hshrinks⟩, fun r hr =>
        ⟨(htaken' r hr).1.1, (htaken' r hr).2⟩⟩,
      List.pairwise_cons.mpr ⟨fun r hr => ?_, hordered⟩,
      List.forall_mem_cons.mpr ⟨fun r hr hr' hnot => ?_, fun s hs r hr hr' hnot => ?_⟩, fun r => ?_⟩
    · exact holdest r (htaken' r hr).1.1 (htaken' r hr).2 (htaken' r hr).1.2
    · exact holdest r hr hr' (List.ne_of_not_mem_cons hnot)
    · exact hbefore s hs r ((mem_reclaim hrow hshrinks).mpr
        (.inl ⟨hr, List.ne_of_not_mem_cons hnot⟩)) hr' (List.not_mem_of_not_mem_cons hnot)
    · have hemptied : row.rawMessagesDeflate.isSome = true → row.emptied codec ∉ rows :=
        fun hraw hmem => not_shrinks_emptied hraw (htaken' _ hmem).2
      rw [hleft, mem_reclaim hrow hshrinks, List.mem_cons, not_or, List.exists_mem_cons_iff,
        or_and_right, and_assoc, or_assoc]
      refine or_congr Iff.rfl (or_congr ⟨And.left, fun h => ⟨h, ?_⟩⟩ Iff.rfl)
      exact h.2 ▸ hemptied h.1

/-- The loop goes round until what is left is within the cap or cannot be reclaimed. -/
theorem reclaims_evict (t : ChunkTranscripts) :
    ∃ rows, Reclaims codec sessionId t rows (evictChunkTranscripts codec sessionId t) ∧
      (condensedTotal sessionId (evictChunkTranscripts codec sessionId t) ≤
          maxSessionTranscriptCompressedBytes ∨
        victim codec sessionId (evictChunkTranscripts codec sessionId t) = none) := by
  fun_induction evictChunkTranscripts codec sessionId t with
  | case1 t hfits => exact ⟨[], .done t, .inl hfits⟩
  | case2 t _ hnone => exact ⟨[], .done t, .inr hnone⟩
  | case3 t _ row hvictim ih =>
    obtain ⟨rows, hrows, hstop⟩ := ih
    exact ⟨row :: rows, .round hvictim hrows, hstop⟩

/-- **Eviction** takes rows that can be reclaimed, oldest first, and leaves all others as they are;
those with raw messages keep them.  It ends with what is left within the cap, or with only rows
that have raw messages and the empty transcript. -/
theorem evict_spec (codec : Codec) (sessionId : String) (t : ChunkTranscripts) :
    (∃ rows, Reclaimed codec sessionId t rows (evictChunkTranscripts codec sessionId t)) ∧
    (∀ r ∈ t, r.rawMessagesDeflate.isSome = true →
      r ∈ evictChunkTranscripts codec sessionId t ∨
        r.emptied codec ∈ evictChunkTranscripts codec sessionId t) ∧
    (condensedTotal sessionId (evictChunkTranscripts codec sessionId t) ≤
        maxSessionTranscriptCompressedBytes ∨
      ∀ r ∈ evictChunkTranscripts codec sessionId t, r.sessionId = sessionId →
        r.rawMessagesDeflate.isSome = true ∧ r.transcriptDeflate = codec.deflate []) := by
  obtain ⟨rows, hrounds, hstop⟩ := @reclaims_evict codec sessionId t
  have hleft := hrounds.reclaimed.left
  refine ⟨⟨rows, hrounds.reclaimed⟩, fun r hr hraw => ?_, hstop.imp_right ?_⟩
  · by_cases hmem : r ∈ rows
    · exact .inr ((hleft _).mpr (.inr ⟨r, hmem, hraw, rfl⟩))
    · exact .inl ((hleft _).mpr (.inl ⟨hr, hmem⟩))
  · intro hnone r hr hsession
    have hnot : shrinks codec sessionId r = false := by
      refine Bool.eq_false_iff.mpr fun hshrinks => ?_
      have hmem := Table.mem_select.mpr ⟨hr, hshrinks⟩
      rw [← List.mem_insertionSort fun row later : ChunkTranscriptRow => ¬later.Older row,
        List.head?_eq_none_iff.mp hnone] at hmem
      cases hmem
    simpa [shrinks, hsession, Option.isSome_iff_ne_none] using hnot

end

end MagicContext.Transcripts
