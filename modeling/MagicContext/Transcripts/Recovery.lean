import MagicContext.Lib.Utf8

/-!
# Transcripts read back

A transcript is stored deflated.  Reading it back inflates a few bytes more than the cap, so that a
character cut there can be told from bytes that are no text, and then steps back to a boundary.

## What is here

* `Codec` — a deflate implementation, and `Codec.Lossless`.
* `compressTranscript`, `decompressTranscript`.
* `validUpTo` — how far bytes are text; `validUpTo_take`, on the first bytes of a text.
* `decompress_compress` — what comes back of a text.
-/

namespace Utf8

/-! ## The text at the head of bytes -/

/-- How many bytes the first chunk has that are text. -/
def firstValid (text : Str) (source : List UInt8) : Nat :=
  (chunksFrom text source).head?.elim 0 fun chunk => chunk.valid.len

/-- `Utf8Error::valid_up_to`, and the length of bytes that are text. -/
def validUpTo (source : List UInt8) : Nat := firstValid .empty source

variable {s : List UInt8}

theorem firstValid_append (h : Valid s) (text : Str) (rest : List UInt8) :
    firstValid text (s ++ rest) = firstValid (text.append ⟨s, h⟩) rest := by
  induction h generalizing text with
  | nil =>
    congr 1
    exact Str.ext (List.append_nil _).symm
  | @cons c s hc hs ih =>
    obtain ⟨-, -, -, -, -, -, -, -, hscan⟩ := scanChar_complete hc
    have hscan := hscan (s ++ rest)
    rw [List.take_length, ← List.append_assoc] at hscan
    obtain ⟨b, cs, rfl, -⟩ := hc.shape
    have hfirst : firstValid text (b :: cs ++ s ++ rest) =
        firstValid (text.append ⟨b :: cs, .of_isChar hc⟩) (s ++ rest) := by
      rw [firstValid, List.cons_append, List.cons_append, chunksFrom]
      split
      · rename_i n h
        rw [← List.cons_append, ← List.cons_append, hscan] at h
        cases h
        simp [firstValid]
      · rename_i n h
        rw [← List.cons_append, ← List.cons_append, hscan] at h
        cases h
    rw [hfirst, ih]
    congr 1
    exact Str.ext (List.append_assoc ..)

/-- Bytes that do not start with a character add nothing. -/
theorem firstValid_of_not_char (text : Str) {source : List UInt8}
    (h : (scanChar source).1 = false) : firstValid text source = text.len := by
  rw [firstValid]
  cases source with
  | nil =>
    rw [chunksFrom]
    split
    · rename_i hempty
      rw [hempty]
      rfl
    · rfl
  | cons b bs =>
    rw [chunksFrom]
    split
    · rename_i n hscan
      rw [hscan] at h
      cases h
    · rfl

theorem validUpTo_of_valid (h : Valid s) : validUpTo s = s.length := by
  rw [validUpTo, ← List.append_nil s, firstValid_append h, firstValid_of_not_char _ rfl]
  simp [Str.len, Str.append, Str.empty]

/-- A character among the first bytes of a text stands at the head of the text. -/
theorem Valid.drop_of_scanChar (h : Valid s) {k n : Nat} (hscan : scanChar (s.take k) = (true, n)) :
    0 < n ∧ n ≤ k ∧ n ≤ s.length ∧ Valid (s.drop n) := by
  have hle := scanChar_le_length (s.take k)
  rw [hscan, List.length_take] at hle
  obtain ⟨-, cs, -, hlength, -, -, -, -, hrest⟩ := scanChar_complete hscan
  have hwhole := hrest (s.drop n)
  rw [List.take_take, Nat.min_eq_left (Nat.le_trans hle (Nat.min_le_left _ _)),
    List.take_append_drop] at hwhole
  refine ⟨by omega, Nat.le_trans hle (Nat.min_le_left _ _),
    Nat.le_trans hle (Nat.min_le_right _ _), ?_⟩
  cases h with
  | nil => cases hwhole
  | @cons c rest hc hrest =>
    obtain ⟨-, -, -, -, -, -, -, -, hchar⟩ := scanChar_complete hc
    have hsame := hchar rest
    rw [List.take_length, hwhole] at hsame
    obtain ⟨-, rfl⟩ := Prod.mk.inj hsame
    rwa [List.drop_left]

/-- **The first bytes of a text** are text up to the last boundary among them. -/
theorem validUpTo_take (s : Str) (limit : Nat) :
    validUpTo (s.bytes.take limit) = s.charFloor limit := by
  have hboundary := s.boundary_charFloor limit
  have hfloor := s.charFloor_le limit
  obtain ⟨hhead, htail⟩ := s.valid.split hboundary
  have hlength : (s.bytes.take (s.charFloor limit)).length = s.charFloor limit :=
    List.length_take_of_le hboundary.le
  have hcut : s.bytes.take limit = s.bytes.take (s.charFloor limit) ++
      (s.bytes.drop (s.charFloor limit)).take (limit - s.charFloor limit) := by
    rw [← List.take_add, Nat.add_sub_cancel' hfloor]
  have hnone : (scanChar ((s.bytes.drop (s.charFloor limit)).take
      (limit - s.charFloor limit))).1 = false := by
    rcases hscan : scanChar ((s.bytes.drop (s.charFloor limit)).take
      (limit - s.charFloor limit)) with ⟨_ | _, n⟩
    · rfl
    · -- it would end at a boundary between the last one and the limit
      obtain ⟨hpos, hle, hin, hdrop⟩ := htail.drop_of_scanChar hscan
      rw [List.length_drop] at hin
      rw [List.drop_drop] at hdrop
      have hnext : s.boundary (s.charFloor limit + n) :=
        Valid.boundary_of_drop (by omega) hdrop
      have hback := @Str.boundary.le_charFloor _ s limit hnext (by omega)
      omega
  rw [validUpTo, hcut, firstValid_append hhead, firstValid_of_not_char _ hnone, Str.len,
    Str.bytes_append, List.length_append, hlength]
  exact Nat.zero_add _

/-- The first bytes are text where a boundary is. -/
theorem isSome_fromUtf8_take (s : Str) {n : Nat} (hn : n ≤ s.len) :
    (fromUtf8 (s.bytes.take n)).isSome = isCharBoundary s.bytes n := by
  rw [Bool.eq_iff_iff, Option.isSome_iff_exists]
  constructor
  · rintro ⟨w, hw⟩
    have hvalid := validUpTo_of_valid (fromUtf8_eq_some.mp hw ▸ w.valid)
    rw [validUpTo_take, List.length_take_of_le hn] at hvalid
    exact hvalid ▸ s.boundary_charFloor n
  · exact fun h => ⟨s.upTo n h, fromUtf8_eq_some.mpr rfl⟩

theorem Valid.of_ascii (h : ∀ b ∈ s, b < 0x80) : Valid s := by
  induction s with
  | nil => exact .nil
  | cons b s ih =>
    rw [List.forall_mem_cons] at h
    refine @Valid.cons [b] s ?_ (ih h.2)
    rw [IsChar, scanChar, charWidth_of_ascii h.1]
    rfl

end Utf8

namespace MagicContext.Transcripts

open Utf8

/-! ## Reading back -/

/-- What inflating yields, and whether it then fails. -/
structure Inflated where
  bytes : List UInt8
  fails : Bool

/-- `take(limit).read_to_end`: no more is inflated than is asked for. -/
def Inflated.readUpTo (stream : Inflated) (limit : Nat) : Option (List UInt8) :=
  if limit ≤ stream.bytes.length then some (stream.bytes.take limit)
  else if stream.fails then none else some stream.bytes

/-- A deflate implementation.  Deflating into memory does not fail. -/
structure Codec where
  deflate : List UInt8 → List UInt8
  inflate : List UInt8 → Inflated

/-- What was deflated is inflated. -/
def Codec.Lossless (codec : Codec) : Prop :=
  ∀ bytes, codec.inflate (codec.deflate bytes) = ⟨bytes, false⟩

inductive TranscriptError where
  | inflate
  /-- `transcript is not valid UTF-8 at byte {}` -/
  | notUtf8 (validUpTo : Nat)
  | read

def maxChunkTranscriptInflatedBytes : Nat := 512 * 1024

/-- `"\n[truncated: transcript exceeded the inflated-byte limit]"` -/
def chunkTranscriptTruncationMarker : Str :=
  ⟨"\n[truncated: transcript exceeded the inflated-byte limit]".toList.map (·.toNat.toUInt8),
    .of_ascii (by decide +kernel)⟩

def compressTranscript (codec : Codec) (transcript : Str) : List UInt8 :=
  codec.deflate transcript.bytes

/-- The loop that steps back until the bytes are text, which no bytes are. -/
def stepBack (bytes : List UInt8) : Nat → Nat
  | 0 => 0
  | n + 1 => if (fromUtf8 (bytes.take (n + 1))).isSome then n + 1 else stepBack bytes n

def decompressTranscript (codec : Codec) (blob : List UInt8) : Except TranscriptError Str :=
  match (codec.inflate blob).readUpTo (maxChunkTranscriptInflatedBytes + 4) with
  | none => .error .inflate
  | some inflatedPrefix =>
    if (fromUtf8 inflatedPrefix).isNone ∧
        validUpTo inflatedPrefix < maxChunkTranscriptInflatedBytes - 4 then
      .error (.notUtf8 (validUpTo inflatedPrefix))
    else
      let outputLen := stepBack inflatedPrefix
        (min (validUpTo inflatedPrefix) maxChunkTranscriptInflatedBytes)
      let truncated := outputLen < inflatedPrefix.length ∨
        maxChunkTranscriptInflatedBytes < inflatedPrefix.length
      match fromUtf8 ((inflatedPrefix.take outputLen).take maxChunkTranscriptInflatedBytes) with
      | none => .error .read
      | some out =>
        .ok (if truncated then out.append chunkTranscriptTruncationMarker else out)

theorem stepBack_take (text : Str) {limit n : Nat} (hlimit : n ≤ limit) (hlen : n ≤ text.len) :
    stepBack (text.bytes.take limit) n = floorFrom text.bytes n := by
  induction n with
  | zero => rfl
  | succ n ih =>
    rw [stepBack, floorFrom, List.take_take, Nat.min_eq_left hlimit, isSome_fromUtf8_take text hlen,
      ih (Nat.le_of_succ_le hlimit) (Nat.le_of_succ_le hlen)]

/-- **What comes back of a text**: the text itself up to the cap, and of a longer one what ends at
its last boundary within the cap, with the marker. -/
theorem decompress_compress (codec : Codec) (h : codec.Lossless) (text : Str) :
    (text.len ≤ maxChunkTranscriptInflatedBytes →
      decompressTranscript codec (compressTranscript codec text) = .ok text) ∧
    (maxChunkTranscriptInflatedBytes < text.len →
      ∃ (kept : Nat) (hkept : text.boundary kept), kept ≤ maxChunkTranscriptInflatedBytes ∧
        (∀ i, text.boundary i → i ≤ maxChunkTranscriptInflatedBytes → i ≤ kept) ∧
        decompressTranscript codec (compressTranscript codec text) =
          .ok ((text.upTo kept hkept).append chunkTranscriptTruncationMarker)) := by
  have hboundary := text.boundary_charFloor maxChunkTranscriptInflatedBytes
  have hfloor := text.charFloor_le maxChunkTranscriptInflatedBytes
  have hread : (codec.inflate (compressTranscript codec text)).readUpTo
      (maxChunkTranscriptInflatedBytes + 4) =
        some (text.bytes.take (maxChunkTranscriptInflatedBytes + 4)) := by
    rw [compressTranscript, h, Inflated.readUpTo]
    split
    · rfl
    · rename_i hshort
      rw [if_neg Bool.false_ne_true, List.take_of_length_le (Nat.le_of_not_le hshort)]
  have hlong : maxChunkTranscriptInflatedBytes + 4 ≤ text.len →
      maxChunkTranscriptInflatedBytes < text.charFloor (maxChunkTranscriptInflatedBytes + 4) :=
    fun hle => by have := Str.lt_charFloor_add hle; omega
  have hshort : ∀ limit, text.len ≤ limit → text.charFloor limit = text.len :=
    fun _ => Str.charFloor_of_len_le
  have hwithin := hshort maxChunkTranscriptInflatedBytes
  have hbeyond := hshort (maxChunkTranscriptInflatedBytes + 4)
  have hsteps : stepBack (text.bytes.take (maxChunkTranscriptInflatedBytes + 4))
      (min (text.charFloor (maxChunkTranscriptInflatedBytes + 4))
        maxChunkTranscriptInflatedBytes) = text.charFloor maxChunkTranscriptInflatedBytes := by
    have hmin : min (text.charFloor (maxChunkTranscriptInflatedBytes + 4))
        maxChunkTranscriptInflatedBytes = min maxChunkTranscriptInflatedBytes text.len := by
      omega
    rw [hmin, stepBack_take text (by omega) (by omega)]
    rfl
  have hfirst : fromUtf8 (((text.bytes.take (maxChunkTranscriptInflatedBytes + 4)).take
      (text.charFloor maxChunkTranscriptInflatedBytes)).take maxChunkTranscriptInflatedBytes) =
        some (text.upTo _ hboundary) := by
    rw [List.take_take, List.take_take, Nat.min_eq_right hfloor, Nat.min_eq_left (by omega)]
    exact fromUtf8_eq_some.mpr rfl
  have hvalid : ¬((fromUtf8 (text.bytes.take (maxChunkTranscriptInflatedBytes + 4))).isNone ∧
      text.charFloor (maxChunkTranscriptInflatedBytes + 4) <
        maxChunkTranscriptInflatedBytes - 4) := by
    rintro ⟨hnone, hlt⟩
    have hwhole : text.len ≤ maxChunkTranscriptInflatedBytes + 4 := by omega
    rw [List.take_of_length_le hwhole, fromUtf8_eq_some.mpr rfl] at hnone
    cases hnone
  have htruncated : (text.charFloor maxChunkTranscriptInflatedBytes <
        (text.bytes.take (maxChunkTranscriptInflatedBytes + 4)).length ∨
      maxChunkTranscriptInflatedBytes <
        (text.bytes.take (maxChunkTranscriptInflatedBytes + 4)).length) ↔
      maxChunkTranscriptInflatedBytes < text.len := by
    rw [List.length_take, ← Str.len]
    omega
  rw [decompressTranscript, hread]
  simp only [validUpTo_take, if_neg hvalid, hsteps, hfirst, htruncated]
  refine ⟨fun hle => ?_, fun hlt => ⟨_, hboundary, hfloor, fun i hi hle => hi.le_charFloor hle, ?_⟩⟩
  · rw [if_neg (Nat.not_lt.mpr hle)]
    refine congrArg _ (Str.ext ?_)
    exact List.take_of_length_le (Nat.le_of_eq (Str.charFloor_of_len_le hle).symm)
  · rw [if_pos hlt]

/-- The empty text deflates to the two bytes of an empty block; all else stands behind a zero. -/
def plainCodec : Codec where
  deflate bytes := if bytes = [] then [3, 0] else 0 :: bytes
  inflate
    | [3, 0] => ⟨[], false⟩
    | 0 :: bytes => ⟨bytes, false⟩
    | _ => ⟨[], true⟩

theorem plainCodec_lossless : plainCodec.Lossless := by
  rintro (_ | _) <;> rfl

/-- One byte less than the cap. -/
def letters : Str :=
  ⟨List.replicate (maxChunkTranscriptInflatedBytes - 1) 0x61,
    .of_ascii fun _ hb => List.eq_of_mem_replicate hb ▸ by decide⟩

/-- A character of two bytes, and one of one. -/
def accented : Str := ⟨[0xC3, 0xA9] ++ [0x62], .cons (by decide) (.of_isChar (by decide))⟩

theorem not_boundary_inside (text : Str) : ¬ (text.append accented).boundary (text.len + 1) := by
  have hlen := Str.len_append text accented
  have haccented : accented.len = 3 := rfl
  rw [Str.boundary, isCharBoundary, if_neg (Nat.succ_ne_zero _), if_neg (by rw [← Str.len]; omega),
    Str.bytes_append, Str.len, List.getElem?_append_right (Nat.le_succ _),
    Nat.succ_sub (Nat.le_refl _), Nat.sub_self]
  decide

/-- The cap is inside the character behind the letters, which is left out. -/
theorem decompress_compress_cut :
    decompressTranscript plainCodec (compressTranscript plainCodec letters) = .ok letters ∧
      decompressTranscript plainCodec (compressTranscript plainCodec (letters.append accented)) =
        .ok (letters.append chunkTranscriptTruncationMarker) := by
  have hletters : letters.len = maxChunkTranscriptInflatedBytes - 1 := by
    rw [Str.len, letters, List.length_replicate]
  generalize letters = text at hletters ⊢
  have haccented : accented.len = 3 := rfl
  have hlen := Str.len_append text accented
  refine ⟨(decompress_compress plainCodec plainCodec_lossless text).1 (by omega), ?_⟩
  obtain ⟨kept, hkept, hle, hlast, hread⟩ := (decompress_compress plainCodec plainCodec_lossless
    (text.append accented)).2 (by omega)
  have hletter : (text.append accented).boundary text.len := by
    refine Valid.boundary_of_drop (by rw [← Str.len]; omega) ?_
    rw [Str.bytes_append, Str.len, List.drop_left]
    exact accented.valid
  have hge := hlast text.len hletter (by omega)
  obtain rfl : text.len = kept := by
    rcases Nat.eq_or_lt_of_le hge with heq | hlt
    · exact heq
    · exact absurd ((show kept = text.len + 1 by omega) ▸ hkept) (not_boundary_inside text)
  have hupTo : (text.append accented).upTo text.len hkept = text := Str.ext List.take_left
  rw [hread, hupTo]

end MagicContext.Transcripts
