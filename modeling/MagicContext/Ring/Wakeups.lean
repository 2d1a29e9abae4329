import MagicContext.Ring.Producing
import MagicContext.Ring.Receiving

/-!
# Wake-ups

A signal that counted before the waiting party read the generation may still take the parked word
afterwards, and ring before the doorbell is emptied; then the party blocks although nobody will ring
for it any more.  Where this does not happen, no wake-up is lost.

## What is here

* `Machine.Wakes` — what is promised.
* `run_wakes` — **every careful run keeps the promise**; `lost_wakeup` — runs that are not careful
  and do not.
-/

namespace MagicContext.Ring


variable {g : Grant} {m : Machine}

/-! ## What is promised -/

/-- A party has published a frame or completed a release and is still to take the parked word of a
side. -/
def Machine.Owes (m : Machine) (side : Side) : Prop :=
  (side = .data ∧ m.producer.unsignalled ≠ 0) ∨ m.consumer.unsignalled side ≠ 0 ∨
    m.producer.signalling side = .taking ∨ m.consumer.signalling side = .taking

/-- The doorbell of a side has rung, or the steps left of a signal under way ring it. -/
def Machine.Signalled (m : Machine) (side : Side) : Prop :=
  m.bell side = true ∨ m.producer.signalling side = .ringing ∨
    m.consumer.signalling side = .ringing ∨ (m.shared.wake side).parked ≠ 0 ∧ m.Owes side

/-- Neither party is in the middle of a signal. -/
def Machine.AtRest (m : Machine) (side : Side) : Prop :=
  ¬ m.Owes side ∧ m.producer.signalling side ≠ .ringing ∧ m.consumer.signalling side ≠ .ringing

/-- **No wake-up is lost.** -/
structure Machine.Wakes (g : Grant) (m : Machine) : Prop where
  /-- A receiver that was told to block is signalled when a frame was published since it looked the
  last time, and when there is a frame that it can lease. -/
  data : m.armed = true →
    m.shared.published ≠ m.armedPublished ∨ m.shared.dataAvailable g = true → m.Signalled .data
  /-- A producer that blocks in `reserve_until` is signalled when a release was completed since it
  parked. -/
  capacity : ∀ request, m.producer = .wait request → m.completions ≠ m.parkedCompletions →
    m.Signalled .capacity
  /-- Once nobody is in the middle of a signal, the doorbell has rung. -/
  rung : ∀ side, m.Signalled side → m.AtRest side → m.bell side = true

theorem Machine.Signalled.of_gate {side : Side} (h : (m.gate side).Rung) : m.Signalled side := by
  rcases h with hbell | ⟨party, hringing⟩
  · exact .inl hbell
  · cases party
    · exact .inr (.inl hringing)
    · exact .inr (.inr (.inl hringing))

/-- The answer to a blocked wait: more signals than the wait has seen, or one still owed. -/
theorem Machine.Sane.answers (h : m.Sane g) {side : Side} {e : Nat}
    (hblocked : (m.gate side).waiting = .blocked e)
    (hmore : e < m.signals side ∨ m.Owes side) : m.Signalled side := by
  obtain ⟨-, hrung | ⟨hparked, htaking⟩⟩ := (h.gates side).blocked hblocked
  · exact .of_gate hrung
  refine .inr (.inr (.inr ⟨of_decide_eq_true hparked, ?_⟩))
  rcases hmore with hlt | howes
  · obtain ⟨party, hparty⟩ := htaking hlt
    cases party
    · exact .inr (.inr (.inl hparty))
    · exact .inr (.inr (.inr hparty))
  · exact howes

theorem Machine.Sane.wakes (h : m.Sane g) : m.Wakes g where
  data := by
    intro harmed hdata
    have hblocked : (m.gate .data).waiting = .blocked (m.epoch .data) := by
      have hawake : m.consumer.isArming = false := by
        by_contra harming
        rw [Bool.not_eq_false] at harming
        rw [h.disarmed harming] at harmed
        cases harmed
      change m.consumer.waiting m.armed _ = _
      rw [harmed]
      rcases hconsumer : m.consumer with _ | _ | _ | _ | _ | _ | _
      all_goals first | rfl | (rw [hconsumer] at hawake; cases hawake)
    refine h.answers hblocked ?_
    obtain ⟨hpublished, hcompletions, hepoch, hunavailable, -⟩ := h.watches (.inl harmed)
    have hcount := h.data_count
    by_cases hproducer : m.producer.unsignalled = 0
    swap
    · exact .inr (.inl ⟨rfl, hproducer⟩)
    by_cases hconsumer : m.consumer.unsignalled .data = 0
    swap
    · exact .inr (.inr (.inl hconsumer))
    left
    have hmoved : m.shared.published ≠ m.armedPublished ∨ m.completions ≠ m.armedCompletions := by
      rcases hdata with hmoved | havailable
      · exact .inl hmoved
      · by_contra hsame
        rw [not_or, not_not, not_not] at hsame
        rw [hunavailable hsame.1 hsame.2] at havailable
        cases havailable
    omega
  capacity := by
    intro request hproducer hmoved
    have hblocked : (m.gate .capacity).waiting = .blocked (m.epoch .capacity) := by
      simp only [Machine.gate, hproducer, Producer.waiting]
    refine h.answers hblocked ?_
    have hparked := h.parked (m.epoch .capacity) (.inr hblocked)
    have hle := h.parked_le
    have hcount := h.capacity_count
    by_cases hconsumer : m.consumer.unsignalled .capacity = 0
    · left
      omega
    · exact .inr (.inr (.inl hconsumer))
  rung := by
    rintro side (hbell | hringing | hringing | ⟨-, howes⟩) ⟨hquiet, hproducer, hconsumer⟩
    · exact hbell
    · exact absurd hringing hproducer
    · exact absurd hringing hconsumer
    · exact absurd howes hquiet

/-! ## Every careful run -/

/-- Every step of a run is careful. -/
def Machine.CarefulRun (g : Grant) : Machine → List Move → Prop
  | _, [] => True
  | m, move :: moves => move.Careful m ∧ CarefulRun g (m.step g move) moves

instance decidableCarefulRun (g : Grant) : (m : Machine) → (moves : List Move) →
    Decidable (m.CarefulRun g moves)
  | _, [] => .isTrue trivial
  | m, move :: moves =>
    have := decidableCarefulRun g (m.step g move) moves
    inferInstanceAs (Decidable (_ ∧ _))

/-- **One step.** -/
theorem Machine.Sane.step (h : m.Sane g) (move : Move) (hcareful : move.Careful m) :
    (m.step g move).Sane g := by
  cases move with
  | producer call answer => exact h.produce call answer hcareful
  | consumer call => exact h.consume call hcareful

/-- **Every state of a run.** -/
theorem Machine.Sane.run (h : m.Sane g) (moves : List Move) (hcareful : m.CarefulRun g moves)
    (n : Nat) : (m.run g (moves.take n)).Sane g := by
  induction moves generalizing m n with
  | nil =>
    rw [List.take_nil]
    exact h
  | cons move rest ih =>
    obtain ⟨hmove, hrest⟩ := hcareful
    rcases n with _ | n
    · exact h
    · exact ih (h.step move hmove) hrest n

/-- **No lost wake-up.**  In every interleaving whose waits block with their parked word in place,
or their doorbell rung, no wake-up is lost in any state. -/
theorem run_wakes (g : Grant) (moves : List Move) (hcareful : Machine.fresh.CarefulRun g moves)
    (n : Nat) : (Machine.fresh.run g (moves.take n)).Wakes g :=
  (Machine.Sane.fresh.run moves hcareful n).wakes

/-- A ring of two slots whose frames can both be leased. -/
def roomyGrant : Grant :=
  { smallGrant with maxLeases := 2, leases_pos := Nat.two_pos, leases_le := by decide }

/-- The world does all it is asked, and there is time. -/
def Answer.kind : Answer := ⟨willing, false, false⟩

/-- Further steps of one party. -/
def producerSteps (n : Nat) : List Move := List.replicate n (.producer .rest .kind)

def consumerSteps (n : Nat) : List Move := List.replicate n (.consumer .rest)

/-- Reserving a byte, up to the last step. -/
def reserveSteps : List Move :=
  .producer (.reserve ⟨1, oneByteHeader⟩ false) .kind :: producerSteps 5

/-- Committing it, up to the signal. -/
def commitSteps : List Move := .producer (.commit 1 oneByteHeader) .kind :: producerSteps 4

theorem run_wakes_round_trip : (Machine.fresh.run roomyGrant
    ((reserveSteps ++ [Move.consumer .armDataWait] ++ consumerSteps 8 ++ commitSteps ++
      producerSteps 3).take 27)).Wakes roomyGrant :=
  run_wakes roomyGrant _ (by decide +kernel) 27

/-! ## A wake-up that is lost -/

/-- A commit has counted its signal when the receiver, which has the frame already, reads the
generation and parks.  The signal takes the parked word and rings; the receiver empties its
doorbell, finds nothing new and blocks.  The next commit finds no parked word and does not ring. -/
def lostWakeup : List Move :=
  reserveSteps ++ commitSteps ++ [Move.consumer .tryReceive] ++ consumerSteps 7 ++
    producerSteps 1 ++ [Move.consumer .armDataWait] ++ consumerSteps 5 ++ producerSteps 2 ++
    consumerSteps 3 ++ reserveSteps ++ commitSteps ++ producerSteps 3

theorem Producer.wait_of_blocked {producer : Producer} {e : Nat}
    (h : producer.waiting e = .blocked e) : ∃ request, producer = .wait request := by
  cases producer with
  | wait request => exact ⟨request, rfl⟩
  | attempt request goal step => cases goal <;> cases h
  | _ => cases h

/-- The same for capacity: two frames are leased and the arena has to be free as a whole.  The first
release has counted its signal when the producer parks, and rings before the producer empties its
doorbell; the second release does not ring. -/
def lostCapacity : List Move :=
  reserveSteps ++ commitSteps ++ producerSteps 2 ++ reserveSteps ++ commitSteps ++
    producerSteps 2 ++ [Move.consumer .tryReceive] ++ consumerSteps 7 ++
    [Move.consumer .tryReceive] ++ consumerSteps 7 ++
    [Move.consumer (.release (roomyGrant.identity 1))] ++ consumerSteps 6 ++
    [Move.producer (.reserve ⟨maxFrameBytes, oneByteHeader⟩ true) .kind] ++ producerSteps 15 ++
    consumerSteps 2 ++ producerSteps 10 ++ consumerSteps 3 ++
    [Move.consumer (.release (roomyGrant.identity 2))] ++ consumerSteps 9

theorem lost_wakeup : ¬ (Machine.fresh.run roomyGrant lostWakeup).Wakes roomyGrant ∧
    ¬ (Machine.fresh.run roomyGrant lostCapacity).Wakes roomyGrant := by
  constructor
  · intro h
    have hsignalled := h.data (by decide +kernel) (.inl (by decide +kernel))
    have hrest : (Machine.fresh.run roomyGrant lostWakeup).AtRest .data := by
      unfold Machine.AtRest Machine.Owes
      decide +kernel
    have hbell := h.rung .data hsignalled hrest
    revert hbell
    decide +kernel
  · intro h
    have hblocked :
        (Machine.fresh.run roomyGrant lostCapacity).producer.waiting 0 = .blocked 0 := by
      decide +kernel
    obtain ⟨request, hwait⟩ := Producer.wait_of_blocked hblocked
    have hsignalled := h.capacity request hwait (by decide +kernel)
    have hrest : (Machine.fresh.run roomyGrant lostCapacity).AtRest .capacity := by
      unfold Machine.AtRest Machine.Owes
      decide +kernel
    have hbell := h.rung .capacity hsignalled hrest
    revert hbell
    decide +kernel

end MagicContext.Ring
