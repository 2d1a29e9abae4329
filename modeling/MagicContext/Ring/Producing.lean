import MagicContext.Ring.Waits

/-!
# The producer and the wake epochs

Every atomic step of the producer keeps the invariant of the interleavings, provided that it does
not block with its parked word gone and its doorbell empty.

## What is here

* `Machine.Sane.producer_quiet` — the steps that touch neither cursors nor epochs.
* `Machine.Sane.producer_load`, `producer_park`, `producer_drain`, `producer_block`,
  `producer_unpark` — the steps of a wait in `reserve_until`.
* `Machine.Sane.publish` and `producer_signal` — the last steps of a commit.
* `Machine.Sane.produce` — **every step of the producer**.
-/

namespace MagicContext.Ring

open Word Producer Gate.Step

variable {g : Grant} {m : Machine}

/-! ## The steps of the producer -/

section
variable (h : m.Sane g)
include h

section
variable {shared : Shared} {producer : Producer} {reservation : Option Reservation}
  (hsilent : m.producer.isSignal = false) (hsilent' : producer.isSignal = false)
  (hreservation : ∀ r, reservation = some r →
    r.sequence = m.shared.published + 1 ∧ m.shared.published + 1 < u64Limit)
include hsilent hsilent' hreservation

section
variable
  (hclaimed : ∀ k, producer.sequence = some k →
    k = m.shared.published + 1 ∧ m.shared.published + 1 < u64Limit)
  (hcommitting : producer.committing = true → reservation = none)
  (hgeneration : ∀ n, producer.generation = some n → m.producer.generation = some n)
include hclaimed hcommitting hgeneration

/-- A step of the producer that leaves the cursors and the epochs alone, and no signal behind, is
for its gate to judge. -/
theorem Machine.Sane.producer_moves {bell : Side → Bool}
    (hsteady : Shared.Steady g m.shared shared) (hwake : shared.wake .data = m.shared.wake .data)
    (hbell : bell .data = m.bell .data)
    (hparked : ∀ e, producer.waiting e = .parked e ∨ producer.waiting e = .blocked e →
      m.epoch .capacity ≤ m.parkedCompletions)
    (hgate : (∀ party, (Machine.gate { m with
        shared := shared, bell := bell, producer := producer, reservation := reservation }
        .capacity).signaller party = (m.gate .capacity).signaller party) →
      (m.gate .capacity).Step (Machine.gate { m with
        shared := shared, bell := bell, producer := producer, reservation := reservation }
        .capacity)) :
    ({ m with
      shared := shared, bell := bell, producer := producer, reservation := reservation } :
      Machine).Sane g where
  generation := fun side => (hsteady.generation side).trans (h.generation side)
  consumed_le := by
    rw [hsteady.consumed, hsteady.published]
    exact h.consumed_le
  published_lt := by
    rw [hsteady.published]
    exact h.published_lt
  data_count := by
    rw [hsteady.published, (silent hsilent').1, ← (silent hsilent).1]
    exact h.data_count
  capacity_count := h.capacity_count
  released := by
    have hleased := hsteady.leased
    have hreleased := h.released
    change m.completions + m.consumer.completing + shared.total g Slot.leased ≤
      shared.consumed + m.consumer.leasing
    rw [hsteady.consumed]
    omega
  reservation := fun r hr => by
    rw [hsteady.published]
    exact hreservation r hr
  claimed := fun k hk => by
    rw [hsteady.published]
    exact hclaimed k hk
  committing := hcommitting
  signalled := fun hbump => by
    change producer = _ at hbump
    rw [hbump] at hsilent'
    cases hsilent'
  producer_generation := fun n hn => h.producer_generation n (hgeneration n hn)
  parked := hparked
  parked_le := h.parked_le
  taking := fun k hk => by
    rw [hsteady.consumed, hsteady.published]
    exact h.taking k hk
  consumer_generation := h.consumer_generation
  disarmed := h.disarmed
  watches := fun hwatching => (h.watches hwatching).congr hsteady.published hsteady.dataAvailable
    rfl rfl rfl rfl fun _ => id
  gates := fun side => by
    refine (h.gates side).step ?_
    have hsignaller := Machine.gate_signaller m { m with
      shared := shared, bell := bell, producer := producer, reservation := reservation } side
        (((silent hsilent').2 side).trans ((silent hsilent).2 side).symm) rfl
    cases side with
    | data =>
      have hparked : decide ((shared.wake .data).parked ≠ 0) =
          decide ((m.shared.wake .data).parked ≠ 0) := by rw [hwake]
      exact (stay _).congr rfl hparked hbell hsignaller rfl
    | capacity => exact hgate hsignaller

/-- **A quiet step of the producer**: it keeps cursors and epochs, and neither enters a signal nor
parks. -/
theorem Machine.Sane.producer_quiet (hkeeps : Shared.Keeps g m.shared shared)
    (hwaiting : ∀ e, producer.waiting e = m.producer.waiting e ∨ producer.waiting e = .away) :
    ({ m with shared := shared, producer := producer, reservation := reservation } :
      Machine).Sane g := by
  refine h.producer_moves hsilent hsilent' hreservation hclaimed hcommitting hgeneration
    hkeeps.steady (hkeeps.wake _) rfl (fun e he => ?_) fun hsignaller => ?_
  · rcases hwaiting e with hsame | haway
    · exact h.parked e (hsame ▸ he)
    · rw [haway] at he
      rcases he with he | he <;> cases he
  · have hparked : decide ((shared.wake .capacity).parked ≠ 0) =
        decide ((m.shared.wake .capacity).parked ≠ 0) := by rw [hkeeps.wake]
    rcases hwaiting (m.epoch .capacity) with hsame | haway
    · exact (stay _).congr rfl hparked rfl hsignaller hsame
    · exact (leave _).congr rfl hparked rfl hsignaller haway

end

variable (hsequence : producer.sequence = none)
include hsequence

/-- A quiet step to where nothing is claimed: a wait goes on, or it is over. -/
theorem Machine.Sane.producer_rests (hkeeps : Shared.Keeps g m.shared shared)
    (hgeneration : ∀ n, producer.generation = some n → m.producer.generation = some n)
    (hwaiting : ∀ e, producer.waiting e = m.producer.waiting e ∨ producer.waiting e = .away) :
    ({ m with shared := shared, producer := producer, reservation := reservation } :
      Machine).Sane g :=
  h.producer_quiet hsilent hsilent' hreservation (fun k hk => by cases hsequence.symm.trans hk)
    (fun hcommitting => absurd hsequence (sequence_of_committing hcommitting)) hgeneration hkeeps
    hwaiting

/-- A quiet step that leaves every wait. -/
theorem Machine.Sane.producer_leaves (hgeneration : producer.generation = none)
    (haway : ∀ e, producer.waiting e = .away) (hkeeps : Shared.Keeps g m.shared shared) :
    ({ m with shared := shared, producer := producer, reservation := reservation } :
      Machine).Sane g :=
  h.producer_rests hsilent hsilent' hreservation hsequence hkeeps
    (fun n hn => by cases hgeneration.symm.trans hn) fun e => .inr (haway e)

end

/-- Reading the generation starts a wait at the present count. -/
theorem Machine.Sane.producer_load {request : Request} (hproducer : m.producer = .load request) :
    ({ m with
      producer := .park request (m.shared.wake .capacity).generation
      epoch := Function.update m.epoch .capacity (m.signals .capacity) } : Machine).Sane g :=
  { h with
    data_count := by
      have hcount := h.data_count
      rw [hproducer] at hcount
      exact hcount
    claimed := fun k hk => by cases hk
    committing := fun hcommitting => by cases hcommitting
    signalled := fun hbump => by cases hbump
    producer_generation := fun n hn => by
      obtain rfl := Option.some.inj hn
      exact h.generation .capacity
    parked := fun e he => by rcases he with he | he <;> cases he
    watches := fun hwatching => (h.watches hwatching).congr rfl rfl rfl rfl rfl rfl fun _ => id
    gates := fun side => by
      refine (h.gates side).step ?_
      have hsignalling : ∀ generation,
          signalling (.park request generation) side = m.producer.signalling side := by
        rw [hproducer]
        cases side <;> exact fun _ => rfl
      have hsignaller := Machine.gate_signaller m { m with
        producer := .park request (m.shared.wake .capacity).generation
        epoch := Function.update m.epoch .capacity (m.signals .capacity) } side (hsignalling _) rfl
      cases side with
      | data => exact (stay _).congr rfl rfl rfl hsignaller rfl
      | capacity => exact (read _).congr rfl rfl rfl hsignaller rfl }

/-- Parking stores the word and notes the completions so far. -/
theorem Machine.Sane.producer_park {request : Request} {n : Nat}
    (hproducer : m.producer = .park request n) :
    ({ m with
      shared := m.shared.setParked .capacity (wrappingAdd n 1)
      producer := .attempt request (.parked n) .check
      parkedCompletions := m.completions } : Machine).Sane g where
  generation := fun side => (wake_setParked _ _ _ _).trans (h.generation side)
  consumed_le := h.consumed_le
  published_lt := h.published_lt
  data_count := by
    have hcount := h.data_count
    rw [hproducer] at hcount
    exact hcount
  capacity_count := h.capacity_count
  released := h.released
  reservation := h.reservation
  claimed := fun k hk => by cases hk
  committing := fun hcommitting => by cases hcommitting
  signalled := fun hbump => by cases hbump
  producer_generation := fun k hk => h.producer_generation k (by rw [hproducer]; exact hk)
  parked := fun e _ => by
    have hread := (h.gates .capacity).read (m.epoch .capacity) (by
      simp only [Machine.gate, hproducer, waiting])
    have hcount := h.capacity_count
    change m.epoch .capacity ≤ m.signals .capacity at hread
    change m.epoch .capacity ≤ m.completions
    omega
  parked_le := Nat.le_refl _
  taking := h.taking
  consumer_generation := h.consumer_generation
  disarmed := h.disarmed
  watches := fun hwatching => (h.watches hwatching).congr rfl rfl rfl rfl rfl rfl fun _ => id
  gates := fun side => by
    refine (h.gates side).step ?_
    have hsignalling : signalling (.attempt request (.parked n) .check) side =
        m.producer.signalling side := by
      rw [hproducer]
      cases side <;> rfl
    cases side with
    | data =>
      exact (stay _).congr rfl rfl rfl (Machine.gate_signaller m _ _ hsignalling rfl) rfl
    | capacity =>
      refine (park (decide (wrappingAdd n 1 ≠ 0)) ?_).congr rfl rfl rfl
        (Machine.gate_signaller m _ _ hsignalling rfl)
        (rfl : _ = Waiting.parked (m.epoch .capacity))
      simp only [Machine.gate, hproducer, waiting]

/-- Emptying the doorbell while not blocked. -/
theorem Machine.Sane.producer_drain {producer : Producer}
    (hsilent : m.producer.isSignal = false) (hsilent' : producer.isSignal = false)
    (hsequence : producer.sequence = none)
    (hgeneration : ∀ n, producer.generation = some n → m.producer.generation = some n)
    (hwaiting : ∀ e, producer.waiting e = m.producer.waiting e)
    (hunblocked : ∀ e e', m.producer.waiting e ≠ .blocked e') :
    ({ m with
      bell := Function.update m.bell .capacity false
      producer := producer } : Machine).Sane g :=
  h.producer_moves hsilent hsilent' h.reservation (fun k hk => by cases hsequence.symm.trans hk)
    (fun hcommitting => absurd hsequence (sequence_of_committing hcommitting)) hgeneration
    (Shared.Keeps.refl _).steady rfl rfl (fun e he => h.parked e (hwaiting e ▸ he)) fun hsignaller =>
    (drain (hunblocked _)).congr rfl rfl rfl hsignaller (hwaiting _)

/-- Giving up a wait clears the parked word. -/
theorem Machine.Sane.producer_unpark {producer : Producer}
    (hsilent : m.producer.isSignal = false) (hsilent' : producer.isSignal = false)
    (hsequence : producer.sequence = none) (hgeneration : producer.generation = none)
    (haway : ∀ e, producer.waiting e = .away) :
    ({ m with shared := m.shared.setParked .capacity 0, producer := producer } :
      Machine).Sane g := by
  refine h.producer_moves hsilent hsilent' h.reservation
    (fun k hk => by cases hsequence.symm.trans hk)
    (fun hcommitting => absurd hsequence (sequence_of_committing hcommitting))
    (fun n hn => by cases hgeneration.symm.trans hn) (.setParked _ _ _) rfl rfl (fun e he => ?_)
    fun hsignaller => (Gate.Step.unpark _).congr rfl rfl rfl hsignaller (haway _)
  rw [haway] at he
  rcases he with he | he <;> cases he

/-- The producer blocks: its parked word is in place, or its doorbell has rung. -/
theorem Machine.Sane.producer_block {request : Request} {n : Nat}
    (hproducer : m.producer = .confirmAgain request n)
    (hsame : (m.shared.wake .capacity).generation = n)
    (hplace : (m.gate .capacity).parked = true ∨ (m.gate .capacity).Rung) :
    ({ m with producer := .wait request } : Machine).Sane g := by
  have hparked : (m.gate .capacity).waiting = .parked (m.epoch .capacity) := by
    simp only [Machine.gate, hproducer, waiting]
  refine h.producer_moves (by rw [hproducer]; rfl) rfl h.reservation (fun k hk => by cases hk)
    (fun hcommitting => by cases hcommitting) (fun k hk => by cases hk)
    (Shared.Keeps.refl _).steady rfl rfl (fun _ _ => h.parked (m.epoch .capacity) (.inl hparked))
    fun hsignaller => ?_
  refine (block hparked ?_ hplace).congr rfl rfl rfl hsignaller rfl
  -- fewer than a lap of signals are ever counted
  have hcount := h.capacity_count
  have hcompletions := h.completions_le
  have hpublished := h.published_lt
  refine h.signals_eq ((h.gates .capacity).parked hparked) (by omega) ?_
  rw [hsame]
  exact h.producer_generation n (by rw [hproducer]; rfl)

/-- **Publishing a frame** owes the receiver a signal. -/
theorem Machine.Sane.publish {r : Reservation} {d : FrameDescriptor}
    (hproducer : m.producer = .commit r d .published) :
    ({ m with
      shared := m.shared.setControl { m.shared.toControl with published := r.sequence }
      producer := .signal .bump } : Machine).Sane g := by
  obtain ⟨hsequence, hlimit⟩ := h.claimed r.sequence (by rw [hproducer]; rfl)
  have hnone := h.committing (by rw [hproducer]; rfl)
  have hconsumed := h.consumed_le
  refine
    { h with
      generation := fun side => (by cases side <;> rfl : _ = (m.shared.wake side).generation).trans
        (h.generation side)
      consumed_le := ?_
      published_lt := ?_
      data_count := ?_
      reservation := fun r' hr' => ?_
      claimed := fun k hk => by cases hk
      committing := fun hcommitting => by cases hcommitting
      signalled := fun _ => ?_
      producer_generation := fun n hn => by cases hn
      parked := fun e he => by rcases he with he | he <;> cases he
      taking := fun k hk => ?_
      watches := fun hwatching => ?_
      gates := fun side => ?_ }
  · change m.shared.consumed ≤ r.sequence
    omega
  · change r.sequence < u64Limit
    omega
  · have hcount := h.data_count
    rw [hproducer] at hcount
    change m.signals .data + 1 + m.consumer.unsignalled .data = r.sequence + m.completions
    change m.signals .data + 0 + m.consumer.unsignalled .data = _ at hcount
    omega
  · rw [hnone] at hr'
    cases hr'
  · change 0 < r.sequence
    omega
  · obtain ⟨hk, -⟩ := h.taking k hk
    refine ⟨hk, ?_⟩
    change k ≤ r.sequence
    omega
  · obtain ⟨hpublished, hcompletions, hepoch, -, huncounting⟩ := h.watches hwatching
    refine ⟨?_, hcompletions, hepoch, ?_, huncounting⟩
    · change m.armedPublished ≤ r.sequence
      omega
    · intro hsame
      change r.sequence = m.armedPublished at hsame
      omega
  · refine (h.gates side).step ?_
    have hsignalling : signalling (.signal .bump) side = m.producer.signalling side := by
      rw [hproducer]
      cases side <;> rfl
    have hwaiting : ∀ e, m.producer.waiting e = .away := by
      rw [hproducer]
      exact fun _ => rfl
    cases side with
    | data =>
      exact (stay _).congr rfl rfl rfl (Machine.gate_signaller m _ _ hsignalling rfl) rfl
    | capacity =>
      exact (stay _).congr rfl rfl rfl (Machine.gate_signaller m _ _ hsignalling rfl)
        (hwaiting _).symm

/-- **The producer's signals keep the invariant.** -/
theorem Machine.Sane.producer_signal {step : SignalStep}
    (hproducer : m.producer = .signal step) (producer : Producer)
    (hnext : producer = (m.signal .data step).2.elim .idle .signal) :
    ({ (m.signal .data step).1 with producer := producer } : Machine).Sane g := by
  have hnext' : producer = .signal .take ∨ producer = .signal .ring ∨ producer = .idle := by
    rw [hnext]
    cases step with
    | bump => exact .inl rfl
    | take =>
      rw [Machine.signal]
      split
      · exact .inr (.inl rfl)
      · exact .inr (.inr rfl)
    | ring => exact .inr (.inr rfl)
  have hwork : m.producer.SameWork producer := by
    rw [hproducer]
    rcases hnext' with rfl | rfl | rfl
    all_goals exact ⟨rfl, rfl, rfl, fun _ => rfl, fun hbump => by cases hbump⟩
  have hconsumer : (m.signal .data step).1.consumer = m.consumer := by cases step <;> rfl
  have hsignalling : ∀ side, side ≠ .data →
      producer.signalling side = m.producer.signalling side := by
    intro side hside
    cases side with
    | data => exact absurd rfl hside
    | capacity => rw [hproducer]; rfl
  have hgates := Machine.gate_signal (m := m) .data step .producer producer m.consumer
    (by cases step <;> simp [Machine.gate, hproducer] <;> rfl) ?_ ?_ ?_
  · have hsane := h.signal .data step hwork (.refl m.consumer) ?_ ?_ hgates
    · rw [← hconsumer] at hsane
      exact hsane
    · have hzero : producer.unsignalled = 0 := by
        rcases hnext' with rfl | rfl | rfl <;> rfl
      rw [hproducer, hzero]
      cases step <;> simp [unsignalled, Nat.add_comm]
    · simp
  · rw [hnext]
    rcases (m.signal .data step).2 with _ | _ | _ | _ <;> rfl
  · intro side party hcase
    cases party with
    | consumer => rfl
    | producer => exact hsignalling side (hcase.resolve_right (by simp))
  · intro side
    cases side with
    | data =>
      cases step <;> rfl
    | capacity =>
      refine (hwork.waiting _).trans ?_
      cases step <;> rfl

end

/-! ## Every step of the producer -/

/-- What may follow an attempt. -/
theorem Goal.next_cases (goal : Goal) (request : Request) (late exhausted : Bool) :
    goal.next request late exhausted = .idle ∨ goal.next request late exhausted = .load request ∨
      (∃ ending, goal.next request late exhausted = .unpark request ending) ∨
      (∃ n, goal = .parked n ∧ goal.next request late exhausted = .confirm request n) ∨
      ∃ n, goal = .drained n ∧ goal.next request late exhausted = .confirmAgain request n := by
  cases goal <;> cases late <;> cases exhausted <;> simp [Goal.next]

/-- What a commit begins with. -/
theorem Reservation.commit_cases (r : Reservation) (exactLen : Nat) (wireHeader : WireHeader) :
    r.commit g exactLen wireHeader = .abort r.sequence ∨
      ∃ d, r.commit g exactLen wireHeader = .commit r d .descriptor := by
  rw [Reservation.commit]
  split
  · exact .inl rfl
  split
  · exact .inl rfl
  split
  · exact .inl rfl
  · exact .inr ⟨_, rfl⟩

/-- A step after an attempt, with or without a reservation. -/
theorem Machine.Sane.attempted (h : m.Sane g) {request : Request} {goal : Goal} {step : Attempt}
    (hproducer : m.producer = .attempt request goal step) {shared : Shared}
    {reservation : Option Reservation} (hkeeps : Shared.Keeps g m.shared shared)
    (late exhausted : Bool) (hreservation : ∀ r, reservation = some r →
      r.sequence = m.shared.published + 1 ∧ m.shared.published + 1 < u64Limit) :
    ({ m with
      shared := shared
      producer := goal.next request late exhausted
      reservation := reservation } : Machine).Sane g := by
  have hsilent : m.producer.isSignal = false := by rw [hproducer]; rfl
  rcases goal.next_cases request late exhausted with hnext | hnext | ⟨ending, hnext⟩ |
    ⟨n, rfl, hnext⟩ | ⟨n, rfl, hnext⟩
  all_goals rw [hnext]
  iterate 3 exact h.producer_leaves hsilent rfl hreservation rfl rfl (fun _ => rfl) hkeeps
  -- the waits go on
  all_goals
    refine h.producer_rests hsilent rfl hreservation rfl hkeeps ?_ ?_
    · rw [hproducer]
      exact fun _ => id
    · rw [hproducer]
      exact fun _ => .inl rfl

/-- **Every step of the producer keeps the invariant.** -/
theorem Machine.Sane.produce (h : m.Sane g) (call : ProducerCall) (answer : Answer)
    (hcareful : (Move.producer call answer).Careful m) : (m.produce g call answer).Sane g := by
  unfold Machine.produce
  split
  case h_1 hproducer =>
    -- an idle producer starts an operation
    have hsilent : m.producer.isSignal = false := by rw [hproducer]; rfl
    split
    · refine h.producer_leaves hsilent rfl h.reservation rfl ?_ ?_ (.refl _)
      · split <;> rfl
      · split <;> exact fun _ => rfl
    · rename_i r hreservation
      have hclaim := h.reservation r hreservation
      rcases r.commit_cases (g := g) _ _ with hnext | ⟨d, hnext⟩
      · rw [hnext]
        exact h.producer_leaves hsilent rfl (fun r hr => by cases hr) rfl rfl (fun _ => rfl) (.refl _)
      · rw [hnext]
        refine h.producer_quiet hsilent rfl (fun r hr => by cases hr) (fun k hk => ?_)
          (fun _ => rfl) (fun n hn => by cases hn) (.refl _) fun _ => .inr rfl
        obtain rfl := Option.some.inj hk
        exact hclaim
    · exact h.producer_leaves hsilent rfl (fun r hr => by cases hr) rfl rfl (fun _ => rfl) (.refl _)
    · exact h
  case h_2 request goal step hproducer =>
    have hkeeps := m.shared.attempt_keeps (g := g) answer.os request step
    split
    · rename_i shared step' hattempt
      rw [hattempt] at hkeeps
      refine h.producer_quiet (by rw [hproducer]; rfl) rfl h.reservation (fun k hk => ?_)
        (fun hcommitting => by cases hcommitting) ?_ hkeeps ?_
      · cases step' with
        | settle sequence =>
          obtain rfl := Option.some.inj hk
          exact Shared.attempt_claims hattempt
        | _ => cases hk
      · rw [hproducer]
        cases goal <;> exact fun _ => id
      · rw [hproducer]
        cases goal <;> exact fun _ => .inl rfl
    · rename_i shared e hattempt
      rw [hattempt] at hkeeps
      exact h.attempted hproducer hkeeps _ _ h.reservation
    · rename_i shared r hattempt
      rw [hattempt] at hkeeps
      refine h.attempted hproducer hkeeps _ _ fun r' hr' => ?_
      obtain rfl := Option.some.inj hr'
      refine h.claimed r.sequence ?_
      rw [hproducer, Shared.attempt_reserves hattempt]
      rfl
  case h_3 request hproducer => exact h.producer_load hproducer
  case h_4 request n hproducer => exact h.producer_park hproducer
  case h_5 request n hproducer =>
    split
    · exact h.producer_leaves (by rw [hproducer]; rfl) rfl h.reservation rfl rfl (fun _ => rfl)
        (.refl _)
    · refine h.producer_rests (by rw [hproducer]; rfl) rfl h.reservation rfl (.refl _) ?_ ?_
      · rw [hproducer]
        exact fun _ => id
      · rw [hproducer]
        exact fun _ => .inl rfl
  case h_6 request n hproducer =>
    refine h.producer_drain (by rw [hproducer]; rfl) rfl rfl ?_ ?_ ?_
    · rw [hproducer]
      exact fun _ => id
    · rw [hproducer]
      exact fun _ => rfl
    · rw [hproducer]
      exact fun _ _ hwait => by cases hwait
  case h_7 request n hproducer =>
    split
    · exact h.producer_leaves (by rw [hproducer]; rfl) rfl h.reservation rfl rfl (fun _ => rfl)
        (.refl _)
    · rename_i hsame
      rw [not_not] at hsame
      have hblocks : (Move.producer call answer).blocks m = some .capacity := by
        rw [Move.blocks, hproducer]
        exact if_pos hsame
      exact h.producer_block hproducer hsame (hcareful _ hblocks).gate
  case h_8 request hproducer =>
    split
    · exact h.producer_leaves (by rw [hproducer]; rfl) rfl h.reservation rfl rfl (fun _ => rfl)
        (.refl _)
    · exact h
  case h_9 request ending hproducer =>
    have hsilent : m.producer.isSignal = false := by rw [hproducer]; rfl
    split
    · exact h.producer_unpark hsilent rfl rfl rfl fun _ => rfl
    · exact h.producer_unpark hsilent rfl rfl rfl fun _ => rfl
    · split <;> exact h.producer_unpark hsilent rfl rfl rfl fun _ => rfl
  case h_10 request hproducer =>
    refine h.producer_drain (by rw [hproducer]; rfl) rfl rfl ?_ ?_ ?_
    · exact fun n hn => by cases hn
    · rw [hproducer]
      exact fun _ => rfl
    · rw [hproducer]
      exact fun _ _ hwait => by cases hwait
  case h_11 r d step hproducer =>
    have hsilent : m.producer.isSignal = false := by rw [hproducer]; rfl
    have hclaim := h.claimed r.sequence (by rw [hproducer]; rfl)
    have hnone := h.committing (by rw [hproducer]; rfl)
    have hstore : ∀ {shared : Shared} {step' : CommitStep}, Shared.Keeps g m.shared shared →
        ({ m with shared := shared, producer := .commit r d step' } : Machine).Sane g := by
      intro shared step' hkeeps
      refine h.producer_quiet hsilent rfl h.reservation (fun k hk => ?_) (fun _ => hnone)
        (fun n hn => by cases hn) hkeeps fun _ => .inr rfl
      obtain rfl := Option.some.inj hk
      exact hclaim
    split
    · exact hstore (.setSlot _ _ (Nat.le_refl _))
    · refine hstore (.setSlot _ _ ?_)
      rw [leased_eq_zero (by simp)]
      exact Nat.zero_le _
    · exact hstore ⟨rfl, rfl, rfl, fun side => by cases side <;> rfl, Nat.le_refl _⟩
    · exact h.publish hproducer
  case h_12 step hproducer =>
    split
    · rename_i m' step' hsignal
      have hsane := h.producer_signal hproducer (.signal step') (by rw [hsignal]; rfl)
      rw [hsignal] at hsane
      exact hsane
    · rename_i m' hsignal
      have hsane := h.producer_signal hproducer .idle (by rw [hsignal]; rfl)
      rw [hsignal] at hsane
      exact hsane
  case h_13 sequence hproducer =>
    refine h.producer_leaves (by rw [hproducer]; rfl) rfl h.reservation rfl rfl (fun _ => rfl)
      (.setSlot _ _ ?_)
    rw [leased_eq_zero (by simp)]
    exact Nat.zero_le _

end MagicContext.Ring
