
/-!
# Positions on a circle

Absolute positions run on for ever; a buffer of `c` cells holds position `x` in cell `x % c`.
Within one lap distinct positions have distinct cells, and the cells of a run of positions that is
no longer than a lap form one segment, or two when the run passes the end of the buffer.

## What is here

* `mod_inj` — within a lap, the cell determines the position.
* `firstLen` and `cell_eq` — where the first segment of a run ends, and the cell of each position
  of the run in terms of the two segments.
* `mem_segments` — a cell lies in one of the two segments exactly when it is the cell of a
  position of the run.
-/

namespace Circular

/-- **Within a lap, the cell determines the position.** -/
theorem mod_inj {c x y : Nat} (lo : Nat) (hx : lo ≤ x) (hx' : x < lo + c) (hy : lo ≤ y)
    (hy' : y < lo + c) (h : x % c = y % c) : x = y := by
  have hxc := Nat.div_add_mod x c
  have hyc := Nat.div_add_mod y c
  rcases Nat.lt_trichotomy (x / c) (y / c) with hlt | heq | hlt
  · have hmul : c * (x / c) + c ≤ c * (y / c) := by
      rw [← Nat.mul_succ]
      exact Nat.mul_le_mul_left c hlt
    omega
  · rw [heq] at hxc
    omega
  · have hmul : c * (y / c) + c ≤ c * (x / c) := by
      rw [← Nat.mul_succ]
      exact Nat.mul_le_mul_left c hlt
    omega

theorem mod_ne {c x y : Nat} (lo : Nat) (hx : lo ≤ x) (hx' : x < lo + c) (hy : lo ≤ y)
    (hy' : y < lo + c) (h : x ≠ y) : x % c ≠ y % c :=
  fun heq => h (mod_inj lo hx hx' hy hy' heq)

/-- The length of the first segment of the run of `len` positions from `start`. -/
def firstLen (c start len : Nat) : Nat := min len (c - start % c)

theorem firstLen_le (c start len : Nat) : firstLen c start len ≤ len := Nat.min_le_left _ _

theorem firstLen_le_room (c start len : Nat) : firstLen c start len ≤ c - start % c :=
  Nat.min_le_right _ _

/-- A run of at most a lap has a second segment that ends before the first begins. -/
theorem secondLen_le {c start len : Nat} (hc : 0 < c) (hlen : len ≤ c) :
    len - firstLen c start len ≤ start % c := by
  have hmod := Nat.mod_lt start hc
  rw [firstLen]
  omega

/-- **The cell of a position of a run**, by the segment it falls into. -/
theorem cell_eq {c start len i : Nat} (hc : 0 < c) (hlen : len ≤ c) (hi : i < len) :
    (start + i) % c =
      if i < firstLen c start len then start % c + i else i - firstLen c start len := by
  have hmod := Nat.mod_lt start hc
  rw [Nat.add_mod, Nat.mod_eq_of_lt (Nat.lt_of_lt_of_le hi hlen)]
  split
  · rename_i hfirst
    rw [firstLen] at hfirst
    exact Nat.mod_eq_of_lt (by omega)
  · rename_i hfirst
    rw [firstLen] at hfirst ⊢
    have hwrap : start % c + i = (i - min len (c - start % c)) + c := by omega
    rw [hwrap, Nat.add_mod_right]
    exact Nat.mod_eq_of_lt (by omega)

/-- **The two segments hold exactly the cells of the run.** -/
theorem mem_segments {c start len q : Nat} (hc : 0 < c) (hlen : len ≤ c) :
    (start % c ≤ q ∧ q < start % c + firstLen c start len ∨ q < len - firstLen c start len) ↔
      ∃ x, start ≤ x ∧ x < start + len ∧ x % c = q := by
  constructor
  · rintro (⟨hlo, hhi⟩ | hlt)
    · have hle := firstLen_le c start len
      refine ⟨start + (q - start % c), by omega, by omega, ?_⟩
      rw [cell_eq hc hlen (by omega), if_pos (by omega)]
      omega
    · refine ⟨start + (firstLen c start len + q), by omega, by omega, ?_⟩
      rw [cell_eq hc hlen (by omega), if_neg (by omega)]
      omega
  · rintro ⟨x, hlo, hhi, rfl⟩
    obtain ⟨i, rfl⟩ := Nat.exists_eq_add_of_le hlo
    rw [cell_eq hc hlen (by omega)]
    split
    · left
      omega
    · right
      omega

/-- Every cell is the cell of a position of any full lap. -/
theorem exists_mod_eq {c q : Nat} (lo : Nat) (hq : q < c) :
    ∃ x, lo ≤ x ∧ x < lo + c ∧ x % c = q := by
  refine (mem_segments (Nat.zero_lt_of_lt hq) (Nat.le_refl c)).mp ?_
  rw [firstLen]
  omega

end Circular
