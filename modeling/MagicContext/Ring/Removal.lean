import MagicContext.Ring.Descriptors

/-!
# Which pages reclaiming removes

The reclaimed interval is one of absolute positions, rounded inwards to whole pages and brought onto
the arena as one range or two.

## What is here

* `removalRanges_ok` — what the ranges are.
* `removalRanges_dead` — **the ranges consist of whole pages of the arena, are apart from each
  other, and hold no byte of what is still live.**
-/

namespace MagicContext.Ring

open Word

/-- A byte of the mapping lies in a range. -/
def ArenaSpan.Holds (range : ArenaSpan) (byte : Nat) : Prop :=
  range.offset ≤ byte ∧ byte < range.offset + range.len

theorem ArenaSpan.not_holds_zero (byte : Nat) : ¬ ArenaSpan.zero.Holds byte :=
  fun h => Nat.not_lt_zero byte h.2

/-- A segment becomes the range behind the arena's offset, or none when it is empty. -/
theorem removal_segment {arenaOffset offset segmentLen : Nat} {range : ArenaSpan}
    (h : (if segmentLen = 0 then .ok .zero
      else match checkedAdd arenaOffset offset with
        | none => .error .arithmeticOverflow
        | some offset => .ok ⟨offset, segmentLen⟩ : Except RingError ArenaSpan) = .ok range) :
    range = if segmentLen = 0 then .zero else ⟨arenaOffset + offset, segmentLen⟩ := by
  split at h
  · rename_i hzero
    rw [if_pos hzero, Except.ok.inj h]
  · rename_i hzero
    rw [if_neg hzero]
    split at h
    · cases h
    · rename_i start hstart
      obtain ⟨rfl, -⟩ := checkedAdd_eq_some.mp hstart
      exact (Except.ok.inj h).symm

theorem dvd_pageFloor (pageSize position : Nat) : pageSize ∣ pageFloor pageSize position :=
  Nat.dvd_mul_left _ _

/-- **What the ranges are**: the two segments of a run of whole pages inside the interval. -/
theorem removalRanges_ok {arenaOffset arenaBytes start len pageSize : Nat}
    {range0 range1 : ArenaSpan}
    (h : removalRanges arenaOffset arenaBytes start len pageSize = .ok (range0, range1)) :
    0 < arenaBytes ∧ pageSize ∣ arenaOffset ∧ pageSize ∣ arenaBytes ∧
      ∃ first pages, pageSize ∣ first ∧ pageSize ∣ pages ∧ start ≤ first ∧
        first + pages ≤ max first (start + len) ∧ pages ≤ arenaBytes ∧
        range0 = (if Circular.firstLen arenaBytes first pages = 0 then .zero
          else ⟨arenaOffset + first % arenaBytes, Circular.firstLen arenaBytes first pages⟩) ∧
        range1 = (if pages - Circular.firstLen arenaBytes first pages = 0 then .zero
          else ⟨arenaOffset + 0, pages - Circular.firstLen arenaBytes first pages⟩) := by
  rw [removalRanges] at h
  obtain ⟨hgeometry, h⟩ := Checks.check_eq_ok.mp h
  have harena : 0 < arenaBytes := Nat.pos_of_ne_zero fun hzero => hgeometry (.inl hzero)
  have hpage : 0 < pageSize :=
    Nat.pos_of_ne_zero fun hzero => hgeometry (.inr (.inl hzero))
  have hoffset : pageSize ∣ arenaOffset := Nat.dvd_of_mod_eq_zero
    (not_not.mp fun hne => hgeometry (.inr (.inr (.inr (.inl hne)))))
  have hbytes : pageSize ∣ arenaBytes := Nat.dvd_of_mod_eq_zero
    (not_not.mp fun hne => hgeometry (.inr (.inr (.inr (.inr hne)))))
  refine ⟨harena, hoffset, hbytes, ?_⟩
  rcases hend : checkedAdd start len with _ | logicalEnd
  · rw [hend] at h
    cases h
  obtain ⟨rfl, -⟩ := checkedAdd_eq_some.mp hend
  rw [hend] at h
  dsimp only at h
  obtain ⟨hlen, h⟩ := Checks.check_eq_ok.mp h
  split at h
  · cases h
  rename_i first hfirst
  have hstart : start ≤ first ∧ pageSize ∣ first := by
    split at hfirst
    · rename_i haligned
      obtain rfl := Option.some.inj hfirst
      exact ⟨Nat.le_refl _, Nat.dvd_of_mod_eq_zero haligned⟩
    · obtain ⟨rfl, -⟩ := checkedAdd_eq_some.mp hfirst
      exact ⟨Nat.le_of_lt (Nat.lt_div_mul_add hpage),
        Nat.dvd_add (dvd_pageFloor _ _) (Nat.dvd_refl _)⟩
  have hfloor : pageFloor pageSize (start + len) ≤ start + len := Nat.div_mul_le_self _ _
  split at h
  · -- no whole page
    obtain ⟨rfl, rfl⟩ := Prod.mk.inj (Except.ok.inj h)
    refine ⟨first, 0, hstart.2, Nat.dvd_zero _, hstart.1, Nat.le_max_left _ _, Nat.zero_le _,
      ?_, ?_⟩
    · rw [Circular.firstLen, Nat.zero_min, if_pos rfl]
    · rw [Nat.zero_sub, if_pos rfl]
  split at h
  · cases h
  · cases h
  rename_i segment0 segment1 hsegment0 hsegment1
  obtain ⟨rfl, rfl⟩ := Prod.mk.inj (Except.ok.inj h)
  refine ⟨first, pageFloor pageSize (start + len) - first, hstart.2,
    Nat.dvd_sub (dvd_pageFloor _ _) hstart.2, hstart.1, by omega, by omega, ?_, ?_⟩
  · exact removal_segment hsegment0
  · exact removal_segment hsegment1

/-- **What reclaiming removes is dead.**  The ranges for a reclaimed interval consist of whole pages
of the arena, have no byte in common, and none of their bytes is one of a position from the end of
the interval to a lap after its start. -/
theorem removalRanges_dead {arenaOffset arenaBytes start len pageSize : Nat}
    {range0 range1 : ArenaSpan}
    (h : removalRanges arenaOffset arenaBytes start len pageSize = .ok (range0, range1)) :
    (∀ range ∈ [range0, range1], pageSize ∣ range.offset ∧ pageSize ∣ range.len) ∧
      (∀ range ∈ [range0, range1], ∀ byte, range.Holds byte →
        arenaOffset ≤ byte ∧ byte < arenaOffset + arenaBytes) ∧
      range0.Apart range1 ∧
      ∀ range ∈ [range0, range1], ∀ live, start + len ≤ live → live < start + arenaBytes →
        ¬ range.Holds (arenaOffset + live % arenaBytes) := by
  obtain ⟨harena, hoffset, hbytes, first, pages, hfirst, hpages, hstart, hend, hle, h0, h1⟩ :=
    removalRanges_ok h
  have hroom := Circular.firstLen_le_room arenaBytes first pages
  have hsecond : pages - Circular.firstLen arenaBytes first pages ≤ first % arenaBytes :=
    Circular.secondLen_le harena hle
  have haligned : pageSize ∣ first % arenaBytes := (Nat.dvd_mod_iff hbytes).mpr hfirst
  have hlen0 : pageSize ∣ Circular.firstLen arenaBytes first pages := by
    rw [Circular.firstLen]
    rcases Nat.le_total pages (arenaBytes - first % arenaBytes) with hle | hle
    · rwa [Nat.min_eq_left hle]
    · rw [Nat.min_eq_right hle]
      exact Nat.dvd_sub hbytes haligned
  -- a byte of one of the ranges lies in the segment it was made of
  have hholds0 : ∀ byte, range0.Holds byte → arenaOffset + first % arenaBytes ≤ byte ∧
      byte < arenaOffset + first % arenaBytes + Circular.firstLen arenaBytes first pages := by
    intro byte hbyte
    rw [h0] at hbyte
    split at hbyte
    · exact absurd hbyte (ArenaSpan.not_holds_zero byte)
    · exact hbyte
  have hholds1 : ∀ byte, range1.Holds byte → arenaOffset ≤ byte ∧
      byte < arenaOffset + (pages - Circular.firstLen arenaBytes first pages) := by
    intro byte hbyte
    rw [h1] at hbyte
    split at hbyte
    · exact absurd hbyte (ArenaSpan.not_holds_zero byte)
    · exact hbyte
  refine ⟨?_, ?_, ?_, ?_⟩
  · rw [List.forall_mem_cons, List.forall_mem_singleton, h0, h1]
    constructor
    · split
      · exact ⟨Nat.dvd_zero _, Nat.dvd_zero _⟩
      · exact ⟨Nat.dvd_add hoffset haligned, hlen0⟩
    · split
      · exact ⟨Nat.dvd_zero _, Nat.dvd_zero _⟩
      · exact ⟨hoffset, Nat.dvd_sub hpages hlen0⟩
  · rw [List.forall_mem_cons, List.forall_mem_singleton]
    constructor
    · intro byte hbyte
      have := hholds0 byte hbyte
      omega
    · intro byte hbyte
      have := hholds1 byte hbyte
      omega
  · rintro byte ⟨hbyte0, hbyte1⟩
    have := hholds0 byte hbyte0
    have := hholds1 byte hbyte1
    omega
  · intro range hrange live hlive hlive' hbyte
    have hsegments : first % arenaBytes ≤ live % arenaBytes ∧
        live % arenaBytes < first % arenaBytes + Circular.firstLen arenaBytes first pages ∨
          live % arenaBytes < pages - Circular.firstLen arenaBytes first pages := by
      rcases List.mem_pair.mp hrange with rfl | rfl
      · have := hholds0 _ hbyte
        omega
      · have := hholds1 _ hbyte
        omega
    obtain ⟨x, hx, hx', hcell⟩ := (Circular.mem_segments harena hle).mp hsegments
    exact Circular.mod_ne start (by omega) (by omega) (by omega) hlive' (by omega) hcell

/-- An interval that passes the end of an arena of four pages. -/
theorem removalRanges_dead_wrapped :
    (∀ range ∈ [(⟨12288, 8192⟩ : ArenaSpan), ⟨4096, 4096⟩],
        4096 ∣ range.offset ∧ 4096 ∣ range.len) ∧
      (∀ range ∈ [(⟨12288, 8192⟩ : ArenaSpan), ⟨4096, 4096⟩], ∀ byte, range.Holds byte →
        4096 ≤ byte ∧ byte < 4096 + 16384) ∧
      (⟨12288, 8192⟩ : ArenaSpan).Apart ⟨4096, 4096⟩ ∧
      ∀ range ∈ [(⟨12288, 8192⟩ : ArenaSpan), ⟨4096, 4096⟩], ∀ live, 5000 + 16000 ≤ live →
        live < 5000 + 16384 → ¬ range.Holds (4096 + live % 16384) :=
  removalRanges_dead (by decide)

end MagicContext.Ring
