import MagicContext.Historian.State

/-!
# Chunks and their coverage

A chunk is the slice of a session's history that a firing submits: its range of message ordinals,
one line for each message, and what is known of tool calls in it.  Ordinals may have holes, where
messages were retired.

## What is here

* `HistorianChunk` — the slice.
* `validateChunkCoverage` — its lines are the present ordinals of its range.
* `validateStoredCompartments` — the stored ranges are in order.
-/

namespace MagicContext.Historian

/-! ## Chunks -/

/-- A range of ordinals with both ends. -/
structure MessageRange where
  startMessage : Nat
  endMessage : Nat

def MessageRange.contains (r : MessageRange) (ordinal : Nat) : Bool :=
  decide (r.startMessage ≤ ordinal) && decide (ordinal ≤ r.endMessage)

/-- A line of the chunk's text, with the id of its message's last block. -/
structure ChunkLine where
  ordinal : Nat
  messageId : String
  anchorable : Bool

structure HistorianChunk where
  startIndex : Nat
  endIndex : Nat
  lines : List ChunkLine
  presentOrdinals : List Nat
  toolOnlyRanges : List MessageRange
  completedToolArcs : List MessageRange

namespace HistorianChunk

variable (chunk : HistorianChunk)

def lineOrdinals : List Nat := chunk.lines.map ChunkLine.ordinal

/-- `chunk_present_ordinals`: a chunk that lists none is taken at its lines. -/
def chunkPresentOrdinals : List Nat :=
  if chunk.presentOrdinals.isEmpty then chunk.lineOrdinals else chunk.presentOrdinals

/-- An ordinal of the chunk's range. -/
def inRange (ordinal : Nat) : Bool :=
  decide (chunk.startIndex ≤ ordinal) && decide (ordinal ≤ chunk.endIndex)

def toolOnly (ordinal : Nat) : Bool := chunk.toolOnlyRanges.any fun r => r.contains ordinal

end HistorianChunk

/-! ## Coverage -/

/-- The first neighbours that do not increase. -/
def validateStrictlyIncreasingOrdinals (label : String) : List Nat → Option String
  | previous :: current :: rest =>
    if current = previous then
      some s!"{label} contain duplicate raw message ordinal {current}"
    else if current < previous then
      some s!"{label} decrease from raw message {previous} to {current}"
    else validateStrictlyIncreasingOrdinals label (current :: rest)
  | _ => none

def omitsText (ordinal endIndex : Nat) : String :=
  s!"chunk omits raw message {ordinal} while still claiming coverage through {endIndex}"

/-- `validate_dense_chunk_coverage`: the lines from the expected ordinal on. -/
def validateDenseLines (endIndex : Nat) : Nat → List Nat → Option String
  | expected, [] =>
    if expected - 1 ≠ endIndex then some (omitsText expected endIndex) else none
  | expected, ordinal :: rest =>
    if ordinal ≠ expected then some (omitsText expected endIndex)
    else validateDenseLines endIndex (saturatingSucc expected) rest

def validateDenseChunkCoverage (chunk : HistorianChunk) : Option String :=
  match validateStrictlyIncreasingOrdinals "chunk lines" chunk.lineOrdinals with
  | some error => some error
  | none =>
    if chunk.lines.isEmpty then none
    else validateDenseLines chunk.endIndex chunk.startIndex chunk.lineOrdinals

/-- The first place where the lines and the expected ordinals differ. -/
def compareOrdinals (chunk : HistorianChunk) : List Nat → List Nat → Option String
  | line :: lines, expected :: rest =>
    if line = expected then compareOrdinals chunk lines rest
    else if expected < line then some (omitsText expected chunk.endIndex)
    else some (s!"chunk includes raw message {line} that is not present in input range " ++
      s!"{chunk.startIndex}-{chunk.endIndex}")
  | [], missing :: _ => some (omitsText missing chunk.endIndex)
  | extra :: _, [] => some (s!"chunk includes raw message {extra} that is not present in " ++
      s!"input range {chunk.startIndex}-{chunk.endIndex}")
  | [], [] => none

def validateChunkCoverageAgainst (chunk : HistorianChunk) (presentOrdinals : List Nat) :
    Option String :=
  match validateStrictlyIncreasingOrdinals "input ordinals" presentOrdinals with
  | some error => some error
  | none =>
    match validateStrictlyIncreasingOrdinals "chunk lines" chunk.lineOrdinals with
    | some error => some error
    | none =>
      match chunk.lineOrdinals.find? fun ordinal => !chunk.inRange ordinal with
      | some outside => some (s!"chunk line raw message {outside} is outside claimed coverage " ++
          s!"{chunk.startIndex}-{chunk.endIndex}")
      | none => compareOrdinals chunk chunk.lineOrdinals (presentOrdinals.filter chunk.inRange)

def validateChunkCoverage (chunk : HistorianChunk) : Option String :=
  if chunk.presentOrdinals.isEmpty then validateDenseChunkCoverage chunk
  else validateChunkCoverageAgainst chunk chunk.presentOrdinals

/-! ## What coverage means -/

theorem validateStrictlyIncreasingOrdinals_eq_none {label : String} {ordinals : List Nat} :
    validateStrictlyIncreasingOrdinals label ordinals = none ↔ ordinals.Pairwise (· < ·) := by
  induction ordinals with
  | nil => simp [validateStrictlyIncreasingOrdinals]
  | cons previous rest ih =>
    cases rest with
    | nil => simp [validateStrictlyIncreasingOrdinals]
    | cons current rest =>
      rw [validateStrictlyIncreasingOrdinals]
      constructor
      · intro h
        split at h
        · cases h
        · split at h
          · cases h
          · have hrest := ih.mp h
            refine List.Pairwise.cons (fun x hx => ?_) hrest
            rcases List.mem_cons.mp hx with rfl | hx
            · omega
            · have := List.rel_of_pairwise_cons hrest hx
              omega
      · intro h
        have hlt : previous < current := List.rel_of_pairwise_cons h (List.mem_cons_self ..)
        rw [if_neg (by omega), if_neg (by omega)]
        exact ih.mpr h.of_cons

/-- The present ordinals of a chunk that passes increase. -/
theorem present_increasing {chunk : HistorianChunk} (h : validateChunkCoverage chunk = none) :
    chunk.chunkPresentOrdinals.Pairwise (· < ·) := by
  rw [HistorianChunk.chunkPresentOrdinals]
  rw [validateChunkCoverage] at h
  split at h
  · rename_i hempty
    rw [if_pos hempty]
    rw [validateDenseChunkCoverage] at h
    split at h
    · cases h
    · rename_i hlines
      exact validateStrictlyIncreasingOrdinals_eq_none.mp hlines
  · rename_i hempty
    rw [if_neg hempty]
    rw [validateChunkCoverageAgainst] at h
    split at h
    · cases h
    · rename_i hinput
      exact validateStrictlyIncreasingOrdinals_eq_none.mp hinput

/-! ## Stored compartments -/

/-- The range of a stored compartment. -/
structure StoredCompartmentRange where
  startMessage : Nat
  endMessage : Nat

def invalidRangeText (startMessage endMessage : Nat) : String :=
  s!"invalid range {startMessage}-{endMessage}"

/-- The compartments after the first. -/
def validateStoredAfter (previousEnd : Nat) : List StoredCompartmentRange → Option String
  | [] => none
  | c :: rest =>
    if c.endMessage < c.startMessage then
      some (invalidRangeText c.startMessage c.endMessage)
    else if c.startMessage ≤ previousEnd then
      some (s!"overlap before message {saturatingSucc previousEnd} " ++
        s!"(saw {c.startMessage}-{c.endMessage})")
    else validateStoredAfter c.endMessage rest

def validateStoredCompartments : List StoredCompartmentRange → Option String
  | [] => none
  | first :: rest =>
    if first.endMessage < first.startMessage then
      some (invalidRangeText first.startMessage first.endMessage)
    else validateStoredAfter first.endMessage rest

theorem endMessage_le_of_validateStoredAfter {previousEnd : Nat} {last : StoredCompartmentRange}
    {compartments : List StoredCompartmentRange}
    (h : validateStoredAfter previousEnd (compartments ++ [last]) = none) :
    previousEnd ≤ last.endMessage ∧ ∀ c ∈ compartments, c.endMessage ≤ last.endMessage := by
  induction compartments generalizing previousEnd with
  | nil =>
    rw [List.nil_append, validateStoredAfter] at h
    split at h
    · cases h
    · split at h
      · cases h
      · exact ⟨by omega, fun c hc => by cases hc⟩
  | cons c compartments ih =>
    rw [List.cons_append, validateStoredAfter] at h
    split at h
    · cases h
    · split at h
      · cases h
      · obtain ⟨hle, hall⟩ := ih h
        refine ⟨by omega, fun c' hc' => ?_⟩
        rcases List.mem_cons.mp hc' with rfl | hc'
        · exact hle
        · exact hall c' hc'

/-- No stored compartment ends after the last. -/
theorem endMessage_le_of_validate {compartments : List StoredCompartmentRange}
    {last : StoredCompartmentRange} (h : validateStoredCompartments compartments = none)
    (hlast : compartments.getLast? = some last) :
    ∀ c ∈ compartments, c.endMessage ≤ last.endMessage := by
  cases compartments with
  | nil => cases hlast
  | cons first rest =>
    rw [validateStoredCompartments] at h
    split at h
    · cases h
    · rcases List.eq_nil_or_concat rest with rfl | ⟨init, l, rfl⟩
      · obtain rfl : first = last := Option.some.inj hlast
        intro c hc
        rw [List.mem_singleton.mp hc]
      · rw [List.concat_eq_append] at h hlast ⊢
        rw [← List.cons_append, List.getLast?_concat] at hlast
        cases hlast
        obtain ⟨hle, hall⟩ := endMessage_le_of_validateStoredAfter h
        intro c hc
        rcases List.mem_cons.mp hc with rfl | hc
        · exact hle
        · rcases List.mem_append.mp hc with hc | hc
          · exact hall c hc
          · rw [List.mem_singleton.mp hc]

end MagicContext.Historian
