import MagicContext.Ring.Step

/-!
# Which bytes an operation touches

Frames live at absolute positions, and the arena is addressed by position modulo its size.  Every
operation that stores to the arena does so through spans, chunks or page ranges; here each of them
is brought down to the cells of a run of positions, so that the frames that an operation leaves
alone are those at other positions of the same lap.

## What is here

* `removalRanges_cells` — the page ranges of a run are cells of positions of the run.
* `copyChunks_spec` — copying stores each byte at its own position and leaves other cells alone.
* `segmentOffset_ofRun`, `leaseOf_byte` — the producer's and the receiver's view of one position.
-/

namespace MagicContext.Ring

open Word Circular

variable {g : Grant} {c : Control}

/-! ## Removing pages -/

theorem pageFloor_le (pageSize position : Nat) : pageFloor pageSize position ≤ position :=
  Nat.div_mul_le_self _ _

theorem not_inRange_zero (q : Nat) : ¬ g.InRange .zero q := by
  rintro ⟨-, hlt⟩
  change g.layoutArena + q < 0 at hlt
  omega

/-- One segment of the arena, as a range of the mapping. -/
theorem inRange_segment {offset segmentLen q : Nat} {range : ArenaSpan}
    (h : (if segmentLen = 0 then .ok .zero
      else match checkedAdd g.layoutArena offset with
        | none => .error .arithmeticOverflow
        | some offset => .ok ⟨offset, segmentLen⟩ : Except RingError ArenaSpan) = .ok range)
    (hq : g.InRange range q) : offset ≤ q ∧ q < offset + segmentLen := by
  split at h
  · obtain rfl := Except.ok.inj h
    exact absurd hq (not_inRange_zero q)
  split at h
  · cases h
  rename_i start hstart
  obtain ⟨rfl, -⟩ := checkedAdd_eq_some.mp hstart
  obtain rfl := Except.ok.inj h
  obtain ⟨hlo, hhi⟩ := hq
  simp only at hlo hhi
  omega

/-- **Page removal stays inside the run.**  The cells of the ranges are cells of its positions. -/
theorem removalRanges_cells {start len q : Nat} {range0 range1 : ArenaSpan}
    (h : removalRanges g.layoutArena g.arenaBytes start len g.pageSize = .ok (range0, range1))
    (hq : g.InRange range0 q ∨ g.InRange range1 q) :
    ∃ x, start ≤ x ∧ x < start + len ∧ x % g.arenaBytes = q := by
  have hcap := g.arena_pos
  rw [removalRanges] at h
  split at h
  · cases h
  rename_i hgeometry
  split at h
  · cases h
  rename_i logicalEnd hend
  obtain ⟨rfl, -⟩ := checkedAdd_eq_some.mp hend
  split at h
  · cases h
  simp only at h
  split at h
  · cases h
  rename_i first hfirst
  split at h
  · -- no whole page
    obtain ⟨rfl, rfl⟩ := Prod.mk.inj (Except.ok.inj h)
    exact absurd hq (not_or.mpr ⟨not_inRange_zero q, not_inRange_zero q⟩)
  have hfloor := pageFloor_le g.pageSize (start + len)
  have hpage : 0 < g.pageSize := Nat.pos_of_ne_zero fun hzero => hgeometry (Or.inr (Or.inl hzero))
  have hstart : start ≤ first := by
    split at hfirst
    · exact Nat.le_of_eq (Option.some.inj hfirst)
    · obtain ⟨rfl, -⟩ := checkedAdd_eq_some.mp hfirst
      exact Nat.le_of_lt (Nat.lt_div_mul_add hpage)
  -- the ranges are the two segments of the run of whole pages
  obtain ⟨x, hlo, hhi, hx⟩ : ∃ x, first ≤ x ∧
      x < first + (pageFloor g.pageSize (start + len) - first) ∧ x % g.arenaBytes = q := by
    refine (mem_segments hcap (by omega)).mp ?_
    rw [firstLen]
    split at h
    · cases h
    · cases h
    rename_i segment0 segment1 hsegment0 hsegment1
    obtain ⟨rfl, rfl⟩ := Prod.mk.inj (Except.ok.inj h)
    rcases hq with hq | hq
    · exact Or.inl (inRange_segment hsegment0 hq)
    · have hsecond := inRange_segment hsegment1 hq
      omega
  exact ⟨x, by omega, by omega, hx⟩

/-- A cell that reclaiming may clear belongs to the run, or to the page at the reclaim cursor. -/
theorem Control.Removable.cells {os : Outcomes} {newReclaimed q : Nat}
    (h : c.Removable g os newReclaimed q) :
    (∃ x, c.arenaReclaimed ≤ x ∧ x < c.arenaReclaimed + (newReclaimed - c.arenaReclaimed) ∧
        x % g.arenaBytes = q) ∨ c.Punched g os newReclaimed q := by
  rcases h with ⟨range0, range1, hranges, hq⟩ | hpunched
  · exact Or.inl (removalRanges_cells hranges hq)
  · exact Or.inr hpunched

/-! ## Copying -/

/-- Copying the chunk at the cursor: the cells of the chunk hold its bytes. -/
theorem copyChunks_cons {cap start chunks copied : Nat} {bytes : List UInt8} {arena : Nat → UInt8}
    (hbytes : bytes ≠ []) (hlimit : start + copied < u64Limit) :
    copyChunks cap start (chunks + 1) copied bytes arena =
      copyChunks cap start chunks (copied + firstLen cap (start + copied) bytes.length)
        (bytes.drop (firstLen cap (start + copied) bytes.length))
        fun q => if (start + copied) % cap ≤ q ∧
            q < (start + copied) % cap + firstLen cap (start + copied) bytes.length
          then bytes.getD (q - (start + copied) % cap) 0 else arena q := by
  have hempty : bytes.isEmpty = false := by simpa using hbytes
  rw [copyChunks, hempty, checkedAdd_of_lt hlimit, firstLen, Nat.min_comm bytes.length]
  rfl

/-- **Copying stores each byte at its own position** and leaves the cells of other positions alone.
The induction is on the chunks; a chunk that is not the last ends at the end of the arena. -/
theorem copyChunks_spec {cap : Nat} (start : Nat) (hcap : 0 < cap) (chunks : Nat) :
    ∀ (copied : Nat) (bytes : List UInt8) (arena : Nat → UInt8), bytes.length ≤ chunks →
      bytes.length ≤ cap → start + copied + bytes.length < u64Limit →
      (copyChunks cap start chunks copied bytes arena).2 = .ok () ∧
        (∀ q, (∀ j, j < bytes.length → (start + copied + j) % cap ≠ q) →
          (copyChunks cap start chunks copied bytes arena).1 q = arena q) ∧
        ∀ j, j < bytes.length →
          (copyChunks cap start chunks copied bytes arena).1 ((start + copied + j) % cap) =
            bytes.getD j 0 := by
  induction chunks with
  | zero =>
    intro copied bytes arena hchunks _ _
    refine ⟨rfl, fun _ _ => rfl, ?_⟩
    intro j hj
    omega
  | succ chunks ih =>
    intro copied bytes arena hchunks hlen hlimit
    rcases eq_or_ne bytes [] with rfl | hbytes
    · refine ⟨rfl, fun _ _ => rfl, ?_⟩
      intro j hj
      cases hj
    have hpos : 0 < bytes.length := List.length_pos_iff.mpr hbytes
    have hmod := Nat.mod_lt (start + copied) hcap
    rw [copyChunks_cons hbytes (by omega)]
    have htake : 0 < firstLen cap (start + copied) bytes.length := by
      rw [firstLen]
      omega
    have hcell := @cell_eq cap (start + copied) bytes.length
    have hle := firstLen_le cap (start + copied) bytes.length
    generalize firstLen cap (start + copied) bytes.length = take at *
    have hdrop : (bytes.drop take).length = bytes.length - take := List.length_drop
    have hshift : start + (copied + take) = start + copied + take := by omega
    obtain ⟨hok, hframe, hstored⟩ := ih (copied + take) (bytes.drop take)
      (fun q => if (start + copied) % cap ≤ q ∧ q < (start + copied) % cap + take
        then bytes.getD (q - (start + copied) % cap) 0 else arena q)
      (by omega) (by omega) (by omega)
    rw [hdrop, hshift] at hframe hstored
    refine ⟨hok, ?_, ?_⟩
    · intro q hq
      have hrest : ∀ j, j < bytes.length - take → (start + copied + take + j) % cap ≠ q := by
        intro j hj
        rw [Nat.add_assoc]
        exact hq (take + j) (by omega)
      rw [hframe q hrest]
      refine if_neg ?_
      rintro ⟨hlo, hhi⟩
      have hindex : q - (start + copied) % cap < bytes.length := by omega
      refine hq _ hindex ?_
      rw [hcell hcap hlen hindex, if_pos (by omega)]
      omega
    · intro j hj
      rcases Nat.lt_or_ge j take with hfirst | hlater
      · have hother : ∀ j', j' < bytes.length - take →
            (start + copied + take + j') % cap ≠ (start + copied + j) % cap := by
          intro j' hj'
          exact mod_ne (start + copied) (by omega) (by omega) (by omega) (by omega) (by omega)
        rw [hframe _ hother, hcell hcap hlen hj, if_pos hfirst, if_pos (by omega)]
        congr 1
        omega
      · have hj' := hstored (j - take) (by omega)
        have hindex : start + copied + take + (j - take) = start + copied + j := by omega
        rw [hindex, List.getD_eq_getElem?_getD, List.getElem?_drop] at hj'
        have hsum : take + (j - take) = j := by omega
        rw [hj', hsum, List.getD_eq_getElem?_getD]

/-! ## Views of a position -/

/-- The producer's view: the byte at an index of a reservation. -/
theorem segmentOffset_ofRun {cap start len i : Nat} (hcap : 0 < cap) (hlen : len ≤ cap)
    (hi : i < len) : (SpanPlan.ofRun cap start len).segmentOffset i = (start + i) % cap := by
  rw [cell_eq hcap hlen hi, SpanPlan.segmentOffset]
  change (if i < firstLen cap start len then start % cap + i
    else 0 + (i - firstLen cap start len)) = _
  rw [Nat.zero_add]

/-- The receiver's view: the byte at an index of a lease. -/
theorem leaseOf_byte {k i : Nat} {d : FrameDescriptor} {arena : Nat → UInt8}
    (hlen : d.bodyLen ≤ g.arenaBytes) (hi : i < d.bodyLen) :
    (leaseOf g k d).byte arena i = arena ((d.allocationStart + i) % g.arenaBytes) := by
  rw [cell_eq g.arena_pos hlen hi, ReceiveLease.byte]
  change (if i < firstLen g.arenaBytes d.allocationStart d.bodyLen then
    arena (d.allocationStart % g.arenaBytes + i) else _) = _
  split
  · rfl
  · have htwo : (SpanPlan.ofRun g.arenaBytes d.allocationStart d.bodyLen).spanCount = 2 :=
      if_neg (by omega)
    rw [leaseOf, if_pos htwo]
    change arena (0 + (i - firstLen g.arenaBytes d.allocationStart d.bodyLen)) = _
    rw [Nat.zero_add]

end MagicContext.Ring
