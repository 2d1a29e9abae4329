import Mathlib.Data.List.Induction
import MagicContext.Scheduler.Decide

/-!
# The emergency latch over runs of passes

The latch is on while no pass since the one that armed it has fallen below the exit threshold or
come after the maximum time, save passes that are in the force band themselves.  A pass that returns
to the force band does not count the time anew; one may expect that it does, and the two laws differ
on runs that keep returning.

## What is here

* `latch_active_iff` — **the latch is on by the pass that armed it**.
* `Held` — when it would be on by the last pass in the force band.
* `Stretch` — the first and the last pass in the force band since the latch would last be off.
* `latch_held_iff` — **the laws agree on every run in which no pass tells the two times apart**, and
  on no other; `reentry_expires` is one where they do not.
-/

namespace MagicContext.Scheduler

variable {F : Type} [WholeDouble F]

/-! ## Passes -/

/-- What the latch sees of a pass. -/
structure LatchPass (F : Type) where
  usagePercentage : F
  executeThresholdPercentage : F
  nowMs : Nat

namespace LatchPass

/-- The pass is in the force band. -/
def Forces (p : LatchPass F) : Prop :=
  (escalationBands p.executeThresholdPercentage).forceMaterializePercentage ≤ p.usagePercentage

/-- The pass is below the exit threshold. -/
def Exits (p : LatchPass F) : Prop :=
  p.usagePercentage < emergencyDrainExitThreshold p.executeThresholdPercentage

/-- The pass comes no later than the maximum time after a moment. -/
def Within (p : LatchPass F) (since : Nat) : Prop := p.nowMs - since ≤ emergencyDrainMaxLatchMs

instance (p : LatchPass F) : Decidable p.Forces := inferInstanceAs (Decidable (_ ≤ _))

instance (p : LatchPass F) : Decidable p.Exits := inferInstanceAs (Decidable (_ < _))

instance (p : LatchPass F) (since : Nat) : Decidable (p.Within since) :=
  inferInstanceAs (Decidable (_ ≤ _))

end LatchPass

/-- The latch after one more pass. -/
def advance (state : LatchState) (p : LatchPass F) : LatchState :=
  advanceDrainLatch state p.usagePercentage p.executeThresholdPercentage p.nowMs

variable (passes : List (LatchPass F))

/-- The latch after a run of passes. -/
def latchAfter : LatchState := passes.foldl advance {}

theorem advance_activeSinceMs (state : LatchState) (p : LatchPass F) :
    (advance state p).activeSinceMs = if p.Forces then state.activeSinceMs <|> some p.nowMs
      else state.activeSinceMs.filter fun since =>
        Decidable.decide (¬ p.Exits ∧ p.Within since) := by
  rw [advance, advanceDrainLatch]
  by_cases hforces : p.Forces
  · rw [if_pos hforces]
    exact congrArg LatchState.activeSinceMs (if_pos hforces)
  rw [if_neg hforces]
  refine (congrArg LatchState.activeSinceMs (if_neg hforces)).trans ?_
  cases hactive : state.activeSinceMs with
  | none => exact hactive
  | some since =>
    dsimp only
    rw [Option.filter_some]
    by_cases hkept : ¬ p.Exits ∧ p.Within since
    · rw [if_pos (decide_eq_true hkept),
        if_neg fun h => h.elim hkept.1 (Nat.not_lt.mpr hkept.2), hactive]
    · have hends : p.Exits ∨ emergencyDrainMaxLatchMs < p.nowMs - since :=
        (Classical.not_and_iff_not_or_not.mp hkept).imp Classical.not_not.mp Nat.not_le.mp
      exact (congrArg LatchState.activeSinceMs (if_pos hends)).trans
        (if_neg fun h => hkept (of_decide_eq_true h)).symm

theorem latchAfter_append_singleton (p : LatchPass F) :
    latchAfter (passes ++ [p]) = advance (latchAfter passes) p := by
  rw [latchAfter, List.foldl_append]
  rfl

/-! ## The pass that armed the latch -/

/-- The pass leaves a latch on that was armed at a moment. -/
def LatchPass.Keeps (p : LatchPass F) (since : Nat) : Prop :=
  p.Forces ∨ (¬ p.Exits ∧ p.Within since)

/-- The time that the latch keeps is that of the pass that armed it. -/
theorem armed_of_activeSinceMs {passes : List (LatchPass F)} {since : Nat}
    (h : (latchAfter passes).activeSinceMs = some since) :
    ∃ before f after, passes = before ++ f :: after ∧ f.Forces ∧
      (latchAfter before).isActive = false ∧ f.nowMs = since ∧ ∀ q ∈ after, q.Keeps since := by
  induction passes using List.reverseRecOn with
  | nil => cases h
  | append_singleton passes p ih =>
    rw [latchAfter_append_singleton, advance_activeSinceMs] at h
    have hextend : (latchAfter passes).activeSinceMs = some since → p.Keeps since →
        ∃ before f after, passes ++ [p] = before ++ f :: after ∧ f.Forces ∧
          (latchAfter before).isActive = false ∧ f.nowMs = since ∧ ∀ q ∈ after, q.Keeps since := by
      intro hsince hkeeps
      obtain ⟨before, f, after, rfl, hf, hoff, htime, hafter⟩ := ih hsince
      exact ⟨before, f, after ++ [p], by simp, hf, hoff, htime,
        List.forall_mem_append.mpr ⟨hafter, List.forall_mem_singleton.mpr hkeeps⟩⟩
    split at h
    · rename_i hforces
      cases hactive : (latchAfter passes).activeSinceMs with
      | none =>
        rw [hactive] at h
        refine ⟨passes, p, [], rfl, hforces, ?_, Option.some.inj h, List.forall_mem_nil _⟩
        rw [LatchState.isActive, hactive]
        rfl
      | some armed =>
        rw [hactive] at h
        exact hextend (hactive.trans h) (.inl hforces)
    · obtain ⟨hsince, hkept⟩ := Option.filter_eq_some_iff.mp h
      exact hextend hsince (.inr (of_decide_eq_true hkept))

/-- An armed latch keeps that time over passes that leave it on. -/
theorem activeSinceMs_of_armed {before : List (LatchPass F)} {f : LatchPass F} (hf : f.Forces)
    (hoff : (latchAfter before).isActive = false) {after : List (LatchPass F)}
    (h : ∀ q ∈ after, q.Keeps f.nowMs) :
    (latchAfter (before ++ f :: after)).activeSinceMs = some f.nowMs := by
  induction after using List.reverseRecOn with
  | nil =>
    rw [latchAfter_append_singleton, advance_activeSinceMs, if_pos hf,
      Option.not_isSome_iff_eq_none.mp (ne_true_of_eq_false hoff)]
    rfl
  | append_singleton after q ih =>
    obtain ⟨hafter, hq⟩ := List.forall_mem_append.mp h
    rw [← List.cons_append, ← List.append_assoc, latchAfter_append_singleton,
      advance_activeSinceMs, ih hafter]
    split
    · rfl
    · rename_i hforces
      exact if_pos (decide_eq_true ((List.forall_mem_singleton.mp hq).resolve_left hforces))

/-- **The latch is on exactly when some pass in the force band armed it and every pass since is in
the force band too, or neither below the exit threshold nor later than the maximum time after that
pass.** -/
theorem latch_active_iff (passes : List (LatchPass F)) :
    (latchAfter passes).isActive = true ↔
      ∃ before f after, passes = before ++ f :: after ∧ f.Forces ∧
        (latchAfter before).isActive = false ∧ ∀ q ∈ after, q.Keeps f.nowMs := by
  constructor
  · intro h
    obtain ⟨since, hsince⟩ := Option.isSome_iff_exists.mp h
    obtain ⟨before, f, after, heq, hf, hoff, rfl, hafter⟩ := armed_of_activeSinceMs hsince
    exact ⟨before, f, after, heq, hf, hoff, hafter⟩
  · rintro ⟨before, f, after, rfl, hf, hoff, hafter⟩
    exact Option.isSome_of_eq_some (activeSinceMs_of_armed hf hoff hafter)

/-! ## The last pass in the force band -/

/-- Some pass was in the force band, and since the last such pass none was below the exit threshold
and none came after the maximum time. -/
def Held : Prop :=
  ∃ before p after, passes = before ++ p :: after ∧ p.Forces ∧
    ∀ q ∈ after, ¬ q.Forces ∧ ¬ q.Exits ∧ q.Within p.nowMs

/-- The times of the first and the last pass in the force band. -/
structure Stretch where
  first : Nat
  last : Nat

/-- The stretch goes on, starts or ends. -/
def Stretch.next (stretch : Option Stretch) (p : LatchPass F) : Option Stretch :=
  if p.Forces then some ⟨(stretch.map (·.first)).getD p.nowMs, p.nowMs⟩
  else stretch.filter fun s => Decidable.decide (¬ p.Exits ∧ p.Within s.last)

/-- The present stretch after a run of passes. -/
def stretchAfter : Option Stretch := passes.foldl Stretch.next none

theorem stretchAfter_append_singleton (p : LatchPass F) :
    stretchAfter (passes ++ [p]) = Stretch.next (stretchAfter passes) p := by
  rw [stretchAfter, List.foldl_append]
  rfl

/-- The last pass of a stretch is the last one in the force band. -/
theorem stretchAfter_eq_some {passes : List (LatchPass F)} {s : Stretch}
    (h : stretchAfter passes = some s) :
    ∃ before f after, passes = before ++ f :: after ∧ f.Forces ∧ f.nowMs = s.last ∧
      ∀ q ∈ after, ¬ q.Forces ∧ ¬ q.Exits ∧ q.Within f.nowMs := by
  induction passes using List.reverseRecOn generalizing s with
  | nil => cases h
  | append_singleton passes p ih =>
    rw [stretchAfter_append_singleton, Stretch.next] at h
    split at h
    · rename_i hforces
      rw [Option.some_inj] at h
      exact ⟨passes, p, [], rfl, hforces, h ▸ rfl, fun q hq => absurd hq List.not_mem_nil⟩
    · rename_i hforces
      obtain ⟨hs, hkept⟩ := Option.filter_eq_some_iff.mp h
      rw [decide_eq_true_iff] at hkept
      obtain ⟨before, f, after, rfl, hf, hlast, hafter⟩ := ih hs
      refine ⟨before, f, after ++ [p], by simp, hf, hlast, fun q hq => ?_⟩
      rcases List.mem_append.mp hq with hq | hq
      · exact hafter q hq
      · obtain rfl := List.mem_singleton.mp hq
        exact ⟨hforces, hkept.1, hlast ▸ hkept.2⟩

/-- A stretch goes on over passes that do not end it. -/
theorem stretchAfter_of_force (before : List (LatchPass F)) {f : LatchPass F} (hf : f.Forces)
    {after : List (LatchPass F)} (h : ∀ q ∈ after, ¬ q.Forces ∧ ¬ q.Exits ∧ q.Within f.nowMs) :
    ∃ s, stretchAfter (before ++ f :: after) = some s ∧ s.last = f.nowMs := by
  induction after using List.reverseRecOn with
  | nil =>
    rw [stretchAfter_append_singleton, Stretch.next, if_pos hf]
    exact ⟨_, rfl, rfl⟩
  | append_singleton after q ih =>
    obtain ⟨s, hs, hlast⟩ := ih fun q hq => h q (List.mem_append_left _ hq)
    obtain ⟨hforces, hexits, hwithin⟩ := h q (List.mem_append_right _ (List.mem_singleton_self q))
    rw [← List.cons_append, ← List.append_assoc, stretchAfter_append_singleton, hs, Stretch.next,
      if_neg hforces, Option.filter_some, hlast, decide_eq_true ⟨hexits, hwithin⟩, if_pos rfl]
    exact ⟨s, rfl, hlast⟩

/-- **There is a stretch exactly while the latch is to be on.** -/
theorem held_iff_stretch {passes : List (LatchPass F)} :
    Held passes ↔ (stretchAfter passes).isSome = true := by
  constructor
  · rintro ⟨before, f, after, rfl, hf, hafter⟩
    obtain ⟨s, hs, -⟩ := stretchAfter_of_force before hf hafter
    rw [hs]
    rfl
  · intro h
    obtain ⟨s, hs⟩ := Option.isSome_iff_exists.mp h
    obtain ⟨before, f, after, heq, hf, -, hafter⟩ := stretchAfter_eq_some hs
    exact ⟨before, f, after, heq, hf, hafter⟩

/-! ## The two times -/

/-- At a pass outside the force band and not below the exit threshold, the time since the first
pass of the stretch and the time since its last are on the same side of the maximum. -/
def TimesAgree (before : List (LatchPass F)) (p : LatchPass F) : Prop :=
  ∀ s, stretchAfter before = some s → ¬ p.Forces → ¬ p.Exits → (p.Within s.first ↔ p.Within s.last)

/-- What the latch keeps is the time of the first pass of the stretch. -/
def Tracks : Prop :=
  (latchAfter passes).activeSinceMs = (stretchAfter passes).map (·.first)

/-- While the latch tracks the stretch, it goes on tracking it exactly where the times agree. -/
theorem Tracks.next {passes : List (LatchPass F)} (h : Tracks passes) (p : LatchPass F) :
    ((latchAfter (passes ++ [p])).isActive = (stretchAfter (passes ++ [p])).isSome ↔
        TimesAgree passes p) ∧
      (TimesAgree passes p → Tracks (passes ++ [p])) := by
  rw [Tracks, latchAfter_append_singleton, stretchAfter_append_singleton, LatchState.isActive,
    advance_activeSinceMs, Stretch.next, h]
  by_cases hforces : p.Forces
  · rw [if_pos hforces, if_pos hforces]
    have hagree : TimesAgree passes p := fun _ _ hnot => absurd hforces hnot
    cases stretchAfter passes with
    | none => exact ⟨iff_of_true rfl hagree, fun _ => rfl⟩
    | some s => exact ⟨iff_of_true rfl hagree, fun _ => rfl⟩
  rw [if_neg hforces, if_neg hforces]
  cases hs : stretchAfter passes with
  | none =>
    have hagree : TimesAgree passes p := fun s hsome => by rw [hs] at hsome; cases hsome
    exact ⟨iff_of_true rfl hagree, fun _ => rfl⟩
  | some s =>
    rw [Option.map_some, Option.filter_some, Option.filter_some]
    by_cases hexits : p.Exits
    · have hagree : TimesAgree passes p := fun _ _ _ hnot => absurd hexits hnot
      rw [decide_eq_false fun h => h.1 hexits, decide_eq_false fun h => h.1 hexits]
      exact ⟨iff_of_true rfl hagree, fun _ => rfl⟩
    have hagree : TimesAgree passes p ↔ (p.Within s.first ↔ p.Within s.last) := by
      refine ⟨fun h => h s hs hforces hexits, fun h s' hs' _ _ => ?_⟩
      obtain rfl := Option.some_inj.mp (hs.symm.trans hs')
      exact h
    rw [hagree]
    by_cases hfirst : p.Within s.first
    · by_cases hlast : p.Within s.last
      · simp [hexits, hfirst, hlast]
      · simp [hexits, hfirst, hlast]
    · by_cases hlast : p.Within s.last
      · simp [hexits, hfirst, hlast]
      · simp [hexits, hfirst, hlast]

/-- As long as the times agree at every pass, the latch tracks the stretch. -/
theorem tracks_of_timesAgree {passes : List (LatchPass F)}
    (h : ∀ before p after, passes = before ++ p :: after → TimesAgree before p) :
    Tracks passes := by
  induction passes using List.reverseRecOn with
  | nil => rfl
  | append_singleton passes p ih =>
    refine ((ih fun before q after heq => h before q (after ++ [p]) ?_).next p).2
      (h passes p [] rfl)
    rw [heq, List.append_assoc, List.cons_append]

/-- **In a run of passes the latch is always as by the last pass in the force band, if and only if at
every pass that leaves a stretch going the time since its first pass in the force band and the time
since its last are on the same side of the maximum.** -/
theorem latch_held_iff (passes : List (LatchPass F)) :
    (∀ run rest, passes = run ++ rest → ((latchAfter run).isActive = true ↔ Held run)) ↔
      ∀ before p after, passes = before ++ p :: after → TimesAgree before p := by
  have hactive : ∀ run : List (LatchPass F),
      ((latchAfter run).isActive = true ↔ Held run) ↔
        (latchAfter run).isActive = (stretchAfter run).isSome := by
    intro run
    rw [held_iff_stretch]
    exact Bool.eq_iff_iff.symm
  simp only [hactive]
  constructor
  · intro h
    have hrun : ∀ run : List (LatchPass F), ∀ rest, passes = run ++ rest →
        ∀ before p after, run = before ++ p :: after → TimesAgree before p := by
      intro run
      induction run using List.reverseRecOn with
      | nil => exact fun _ _ before p after heq => by simp at heq
      | append_singleton run q ih =>
        intro rest hrest before p after heq
        have hold := ih (q :: rest) (by rw [hrest, List.append_assoc, List.singleton_append])
        rcases List.eq_nil_or_concat after with rfl | ⟨after, q', rfl⟩
        · obtain ⟨rfl, hlast⟩ := List.append_inj' heq rfl
          obtain rfl : q = p := by simpa using hlast
          exact ((tracks_of_timesAgree hold).next q).1.mp (h _ rest hrest)
        · rw [List.concat_eq_append, ← List.cons_append, ← List.append_assoc] at heq
          exact hold before p after (List.append_inj' heq rfl).1
    exact hrun passes [] (List.append_nil passes).symm
  · intro h run rest hrest
    rw [LatchState.isActive, tracks_of_timesAgree fun before p after heq =>
      h before p (after ++ rest) (by rw [hrest, heq, List.append_assoc, List.cons_append])]
    exact Option.isSome_map

/-- **A latch that is entered again expires with its first entry.** -/
theorem reentry_expires :
    ¬ ∀ passes : List (LatchPass ℚ), (latchAfter passes).isActive = true ↔ Held passes := by
  intro h
  have hminutes : ¬ ((latchAfter (F := ℚ) [⟨95, 65, 0⟩, ⟨95, 65, 1200000⟩,
      ⟨80, 65, 2400000⟩]).isActive = true) := by decide +kernel
  refine hminutes ((h _).mpr ⟨[⟨95, 65, 0⟩], ⟨95, 65, 1200000⟩, [⟨80, 65, 2400000⟩], rfl, ?_, ?_⟩)
  · decide +kernel
  · decide +kernel

end MagicContext.Scheduler
