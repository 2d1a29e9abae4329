import Mathlib.Order.Lattice

/-!
# Ranges that tile a list of points

An increasing list of points, and ranges that each begin at the point after the end of the one
before.  Such ranges are disjoint and in order, and leave out no point up to the last end.

## What is here

* `nextAfter` — the first point above a value.
* `Tiles` — ranges that follow each other without a gap; `tiles_pairwise`, `tiles_covers` and
  `tiles_prefix`.
* `eq_of_pairwise` — a point lies in one range of a list at most.
-/

namespace MagicContext.Tiling

variable {α : Type} [LinearOrder α]

def nextAfter (points : List α) (a : α) : Option α := points.find? fun p => decide (a < p)

variable {points : List α} {rs : List (α × α)} {p : α}

theorem nextAfter_eq_some {a p : α} (h : nextAfter points a = some p) : p ∈ points ∧ a < p :=
  ⟨List.mem_of_find?_eq_some h, by simpa using List.find?_some h⟩

/-- Nothing lies between a value and the point after it. -/
theorem nextAfter_le (hsorted : points.Pairwise (· < ·)) {a p q : α}
    (h : nextAfter points a = some p) (hq : q ∈ points) (haq : a < q) : p ≤ q := by
  induction points with
  | nil => cases hq
  | cons x points ih =>
    rw [nextAfter, List.find?_cons] at h
    split at h
    · cases h
      rcases List.mem_cons.mp hq with rfl | hq
      · exact le_refl _
      · exact (List.rel_of_pairwise_cons hsorted hq).le
    · rename_i hx
      refine ih hsorted.of_cons h ((List.mem_cons.mp hq).resolve_left ?_)
      rintro rfl
      exact absurd haq (by simpa using hx)

theorem nextAfter_eq_none {a p : α} (h : nextAfter points a = none) (hp : p ∈ points) : p ≤ a := by
  rw [nextAfter, List.find?_eq_none] at h
  simpa using h p hp

/-- Ranges from `expected` on, each beginning at the point after the end of the one before. -/
def Tiles (points : List α) : Option α → List (α × α) → Prop
  | _, [] => True
  | expected, r :: rest =>
    expected = some r.1 ∧ r.1 ≤ r.2 ∧ r.2 ∈ points ∧ Tiles points (nextAfter points r.2) rest

theorem tiles_prefix {expected : Option α} {rs ss : List (α × α)}
    (h : Tiles points expected (rs ++ ss)) : Tiles points expected rs := by
  induction rs generalizing expected with
  | nil => trivial
  | cons r rs ih => exact ⟨h.1, h.2.1, h.2.2.1, ih h.2.2.2⟩

theorem tiles_valid {expected : Option α} (h : Tiles points expected rs) :
    ∀ r ∈ rs, r.1 ≤ r.2 ∧ r.2 ∈ points := by
  induction rs generalizing expected with
  | nil => exact fun r hr => by cases hr
  | cons r rs ih =>
    intro r' hr'
    rcases List.mem_cons.mp hr' with rfl | hr'
    · exact ⟨h.2.1, h.2.2.1⟩
    · exact ih h.2.2.2 r' hr'

/-- Every range begins above a value that the first one begins above. -/
theorem tiles_above {a : α} (h : Tiles points (nextAfter points a) rs) : ∀ r ∈ rs, a < r.1 := by
  induction rs generalizing a with
  | nil => exact fun r hr => by cases hr
  | cons r rs ih =>
    intro r' hr'
    have hr := (nextAfter_eq_some h.1).2
    rcases List.mem_cons.mp hr' with rfl | hr'
    · exact hr
    · exact (hr.trans_le h.2.1).trans (ih h.2.2.2 r' hr')

/-- The ranges are in order and disjoint. -/
theorem tiles_pairwise {expected : Option α} (h : Tiles points expected rs) :
    rs.Pairwise fun r r' => r.2 < r'.1 := by
  induction rs generalizing expected with
  | nil => exact List.Pairwise.nil
  | cons r rs ih => exact List.Pairwise.cons (tiles_above h.2.2.2) (ih h.2.2.2)

/-- No point up to the last end is left out. -/
theorem tiles_covers (hsorted : points.Pairwise (· < ·)) {first : α} {last : α × α}
    (h : Tiles points (some first) (rs ++ [last])) (hp : p ∈ points) (hfirst : first ≤ p)
    (hlast : p ≤ last.2) : ∃ r ∈ rs ++ [last], r.1 ≤ p ∧ p ≤ r.2 := by
  induction rs generalizing first with
  | nil =>
    cases h.1
    exact ⟨last, List.mem_singleton_self last, hfirst, hlast⟩
  | cons r rs ih =>
    obtain ⟨hr, _, _, hrest⟩ := h
    cases hr
    rcases le_or_gt p r.2 with hle | hgt
    · exact ⟨r, List.mem_cons_self .., hfirst, hle⟩
    · cases hnext : nextAfter points r.2 with
      | none => exact absurd (nextAfter_eq_none hnext hp) (not_le.mpr hgt)
      | some q =>
        rw [hnext] at hrest
        obtain ⟨s, hs, hsp⟩ := ih hrest (nextAfter_le hsorted hnext hp hgt)
        exact ⟨s, List.mem_cons_of_mem r hs, hsp⟩

/-- Two ranges in order share no point. -/
theorem eq_of_pairwise {β : Type} {range : β → α × α} {xs : List β}
    (h : xs.Pairwise fun x y => (range x).2 < (range y).1) {x y : β} (hx : x ∈ xs) (hy : y ∈ xs)
    (hpx : (range x).1 ≤ p ∧ p ≤ (range x).2) (hpy : (range y).1 ≤ p ∧ p ≤ (range y).2) :
    x = y := by
  induction xs with
  | nil => cases hx
  | cons z zs ih =>
    rcases List.mem_cons.mp hx with rfl | hxs
    · rcases List.mem_cons.mp hy with rfl | hys
      · rfl
      · have hlt := List.rel_of_pairwise_cons h hys
        exact absurd (hpx.2.trans_lt (hlt.trans_le hpy.1)) (lt_irrefl p)
    · rcases List.mem_cons.mp hy with rfl | hys
      · have hlt := List.rel_of_pairwise_cons h hxs
        exact absurd (hpy.2.trans_lt (hlt.trans_le hpx.1)) (lt_irrefl p)
      · exact ih h.of_cons hxs hys

end MagicContext.Tiling
