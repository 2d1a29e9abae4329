import Mathlib.Logic.Function.Basic

/-!
# Parking at an epoch

A waiter that must not miss a signal reads a counter, leaves a mark, looks once more at what it
waits for, and blocks on a bell when the counter has not moved.  A signaller counts, takes the mark
and rings when there was one.  Each of these is one atomic operation, and they interleave in any
order.

## What is here

* `Gate` — the counter, the mark and the bell, and where every party is; `Gate.Step` — the atomic
  operations.
* `Gate.Sound` — a waiter that blocks with its mark in place, or with the bell rung, is answered by
  every later signal: the bell has rung, or will, or the signal is still to take the mark.
* `Gate.Sound.step` — **every atomic operation keeps that**.
-/

namespace MagicContext

variable {ι : Type}

/-- Where a party is in a signal: it has counted and is about to take the mark, or it has taken one
and is about to ring. -/
inductive Signalling where
  | quiet | taking | ringing
  deriving DecidableEq

/-- Where the waiter is, with the count it read. -/
inductive Waiting where
  | away
  | read (epoch : Nat)
  | parked (epoch : Nat)
  | blocked (epoch : Nat)
  deriving DecidableEq

/-- An epoch and the parties at it. -/
@[ext]
structure Gate (ι : Type) where
  /-- The signals counted so far. -/
  signals : Nat
  /-- The waiter's mark. -/
  parked : Bool
  bell : Bool
  signaller : ι → Signalling
  waiting : Waiting

namespace Gate

/-- The bell has rung, or a party has taken the mark and is about to ring. -/
def Rung (gate : Gate ι) : Prop := gate.bell = true ∨ ∃ i, gate.signaller i = .ringing

/-- One atomic operation. -/
inductive Step [DecidableEq ι] : Gate ι → Gate ι → Prop
  | stay (gate : Gate ι) : Step gate gate
  | count {gate : Gate ι} (i : ι) (quiet : gate.signaller i = .quiet) :
    Step gate { gate with
      signals := gate.signals + 1, signaller := Function.update gate.signaller i .taking }
  | take {gate : Gate ι} (i : ι) (taking : gate.signaller i = .taking) :
    Step gate { gate with
      parked := false
      signaller := Function.update gate.signaller i (if gate.parked then .ringing else .quiet) }
  | ring {gate : Gate ι} (i : ι) (ringing : gate.signaller i = .ringing) :
    Step gate { gate with bell := true, signaller := Function.update gate.signaller i .quiet }
  | read (gate : Gate ι) : Step gate { gate with waiting := .read gate.signals }
  | park {gate : Gate ι} {epoch : Nat} (marked : Bool) (read : gate.waiting = .read epoch) :
    Step gate { gate with parked := marked, waiting := .parked epoch }
  | drain {gate : Gate ι} (unblocked : ∀ epoch, gate.waiting ≠ .blocked epoch) :
    Step gate { gate with bell := false }
  | block {gate : Gate ι} {epoch : Nat} (parked : gate.waiting = .parked epoch)
    (unmoved : gate.signals = epoch) (marked : gate.parked = true ∨ gate.Rung) :
    Step gate { gate with waiting := .blocked epoch }
  | leave (gate : Gate ι) : Step gate { gate with waiting := .away }
  | unpark (gate : Gate ι) : Step gate { gate with parked := false, waiting := .away }

variable {gate : Gate ι}

/-- A step to a gate that agrees word by word. -/
theorem Step.congr [DecidableEq ι] {gate' target : Gate ι} (h : gate.Step target)
    (hsignals : gate'.signals = target.signals) (hparked : gate'.parked = target.parked)
    (hbell : gate'.bell = target.bell) (hsignaller : ∀ i, gate'.signaller i = target.signaller i)
    (hwaiting : gate'.waiting = target.waiting) : gate.Step gate' := by
  have heq : gate' = target := Gate.ext hsignals hparked hbell (funext hsignaller) hwaiting
  rw [heq]
  exact h

/-- What holds of the waiter at each place. -/
def Sound (gate : Gate ι) : Prop :=
  match gate.waiting with
  | .away => True
  | .read epoch | .parked epoch => epoch ≤ gate.signals
  | .blocked epoch => epoch ≤ gate.signals ∧ (gate.Rung ∨ gate.parked = true ∧
      (epoch < gate.signals → ∃ i, gate.signaller i = .taking))

theorem Sound.read (h : gate.Sound) (epoch : Nat)
    (hread : gate.waiting = .read epoch) : epoch ≤ gate.signals := by
  rw [Sound, hread] at h
  exact h

theorem Sound.parked (h : gate.Sound) {epoch : Nat}
    (hparked : gate.waiting = .parked epoch) : epoch ≤ gate.signals := by
  rw [Sound, hparked] at h
  exact h

theorem Sound.blocked (h : gate.Sound) {epoch : Nat}
    (hblocked : gate.waiting = .blocked epoch) : epoch ≤ gate.signals ∧ (gate.Rung ∨
      gate.parked = true ∧ (epoch < gate.signals → ∃ i, gate.signaller i = .taking)) := by
  rw [Sound, hblocked] at h
  exact h

/-- Whoever is ringing still is when another party moves. -/
theorem ringing_update [DecidableEq ι] {i : ι}
    (hother : gate.signaller i ≠ .ringing) (phase : Signalling)
    (h : ∃ j, gate.signaller j = .ringing) :
    ∃ j, Function.update gate.signaller i phase j = .ringing := by
  obtain ⟨j, hj⟩ := h
  refine ⟨j, ?_⟩
  have hne : j ≠ i := by
    rintro rfl
    exact hother hj
  exact (Function.update_of_ne hne _ _).trans hj

/-- A step of a signaller keeps what holds of the waiter, if it does so while the waiter is
blocked. -/
theorem Sound.of_signal {gate' : Gate ι} (h : gate.Sound)
    (hwaiting : gate'.waiting = gate.waiting) (hsignals : gate.signals ≤ gate'.signals)
    (hblocked : gate.Rung ∨ gate.parked = true →
      gate'.Rung ∨ gate'.parked = true ∧ ∃ i, gate'.signaller i = .taking)
    (hrung : gate.Rung → gate'.Rung) : gate'.Sound := by
  rw [Sound, hwaiting]
  split
  · trivial
  · rename_i epoch hread
    exact Nat.le_trans (h.read _ hread) hsignals
  · rename_i epoch hparked
    exact Nat.le_trans (h.parked hparked) hsignals
  · rename_i epoch hwait
    obtain ⟨hle, hanswer⟩ := h.blocked hwait
    refine ⟨Nat.le_trans hle hsignals, ?_⟩
    rcases hanswer with hrang | ⟨hparked, -⟩
    · exact .inl (hrung hrang)
    · exact (hblocked (.inr hparked)).imp id fun hboth => ⟨hboth.1, fun _ => hboth.2⟩

/-- **Every atomic operation keeps the gate sound.** -/
theorem Sound.step [DecidableEq ι] {gate' : Gate ι} (h : gate.Sound)
    (hstep : gate.Step gate') : gate'.Sound := by
  cases hstep with
  | stay => exact h
  | count i hquiet =>
    have hrung : gate.Rung → Rung { gate with
        signals := gate.signals + 1, signaller := Function.update gate.signaller i .taking } :=
      Or.imp id (ringing_update (by simp [hquiet]) _)
    refine h.of_signal rfl (Nat.le_succ _) ?_ hrung
    rintro (hrang | hparked)
    · exact .inl (hrung hrang)
    · exact .inr ⟨hparked, i, Function.update_self _ _ _⟩
  | take i htaking =>
    have hrung : gate.Rung → Rung { gate with
        parked := false
        signaller :=
          Function.update gate.signaller i (if gate.parked then .ringing else .quiet) } :=
      Or.imp id (ringing_update (by simp [htaking]) _)
    refine h.of_signal rfl (Nat.le_refl _) ?_ hrung
    rintro (hrang | hparked)
    · exact .inl (hrung hrang)
    · -- the mark is taken to ring
      refine .inl (.inr ⟨i, ?_⟩)
      rw [hparked]
      exact Function.update_self _ _ _
  | ring i hringing =>
    exact h.of_signal rfl (Nat.le_refl _) (fun _ => .inl (.inl rfl)) fun _ => .inl rfl
  | read => exact Nat.le_refl _
  | park marked hread => exact h.read _ hread
  | drain hunblocked =>
    rw [Sound]
    split
    · trivial
    · rename_i epoch hread
      exact h.read _ hread
    · rename_i epoch hparked
      exact h.parked hparked
    · rename_i epoch hwait
      exact absurd hwait (hunblocked epoch)
  | block hparked hunmoved hmarked =>
    refine ⟨Nat.le_of_eq hunmoved.symm, ?_⟩
    rcases hmarked with hmark | hrang
    · exact .inr ⟨hmark, fun hlt => absurd hunmoved (Nat.ne_of_gt hlt)⟩
    · exact .inl hrang
  | leave => trivial
  | unpark => trivial

end Gate
end MagicContext
