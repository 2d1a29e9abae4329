import MagicContext.Lib.Parking
import MagicContext.Ring.Atomic
import MagicContext.Ring.Delivery

/-!
# Waits and signals of a ring

A party that waits parks at the generation it has read, looks again, empties its doorbell, looks a
second time and blocks.  A signal counts the generation up, takes the parked word and rings.  Seen
from one wake epoch, an interleaving of the two parties is a run of the operations of a gate.

## What is here

* `Machine.gate` — what each wake epoch looks like from outside.
* `Machine.Sane` — the counts behind the generations, what the parties hold, and the gates in order.
* `Shared.Keeps` and `Shared.attempt_keeps` — the steps of `try_reserve` are outside all this.
* `Machine.Answerable` and `Move.Careful` — a party that blocks has its parked word in place, or its
  doorbell rung.
* `Machine.gate_signal` and `Machine.Sane.signal` — **a step of a signal is a step of its gate**.
-/

namespace MagicContext.Ring

open Word Shared

variable {g : Grant} {m : Machine}

/-! ## The words of a wake epoch -/

variable (s : Shared) (side : Side)

@[simp] theorem wake_setWake (wake : WakeEpoch) : (s.setWake side wake).wake side = wake := by
  cases side <;> rfl

theorem wake_setWake_of_ne {side side' : Side} (wake : WakeEpoch)
    (hne : side' ≠ side) : (s.setWake side wake).wake side' = s.wake side' := by
  cases side <;> cases side' <;> first | rfl | exact absurd rfl hne

@[simp] theorem toControl_setWake (wake : WakeEpoch) :
    (s.setWake side wake).toControl = s.toControl := by
  cases side <;> rfl

/-! ## What a party is doing -/

/-- The producer's part in signals of data. -/
def Producer.signalling (producer : Producer) : Side → Signalling
  | .data => match producer with
    | .signal .take => .taking
    | .signal .ring => .ringing
    | _ => .quiet
  | .capacity => .quiet

/-- The receiver's part in signals. -/
def Consumer.signalling (consumer : Consumer) (side : Side) : Signalling :=
  match consumer with
  | .signal side' .take => if side' = side then .taking else .quiet
  | .signal side' .ring => if side' = side then .ringing else .quiet
  | _ => .quiet

/-- The producer's place in a wait for capacity. -/
def Producer.waiting (producer : Producer) (epoch : Nat) : Waiting :=
  match producer with
  | .park _ _ => .read epoch
  | .attempt _ (.parked _) _ | .confirm _ _ | .drain _ _ | .attempt _ (.drained _) _
  | .confirmAgain _ _ => .parked epoch
  | .wait _ => .blocked epoch
  | _ => .away

/-- The receiver's place in a wait for data. -/
def Consumer.waiting (consumer : Consumer) (armed : Bool) (epoch : Nat) : Waiting :=
  match consumer with
  | .arm (.park _) => .read epoch
  | .arm (.recheck _) | .arm (.confirm _) | .arm (.drain _) | .arm (.recheckAgain _)
  | .arm (.confirmAgain _) => .parked epoch
  | .arm _ => .away
  | _ => if armed then .blocked epoch else .away

/-- The two parties. -/
inductive Party where
  | producer | consumer
  deriving DecidableEq

/-- A wake epoch from outside. -/
def Machine.gate (m : Machine) (side : Side) : Gate Party where
  signals := m.signals side
  parked := decide ((m.shared.wake side).parked ≠ 0)
  bell := m.bell side
  signaller
    | .producer => m.producer.signalling side
    | .consumer => m.consumer.signalling side
  waiting := match side with
    | .data => m.consumer.waiting m.armed (m.epoch .data)
    | .capacity => m.producer.waiting (m.epoch .capacity)

/-- The producer has published a frame and not counted the signal yet. -/
def Producer.unsignalled : Producer → Nat
  | .signal .bump => 1
  | _ => 0

/-- The receiver has completed a release and not counted the signal of a side yet. -/
def Consumer.unsignalled (consumer : Consumer) (side : Side) : Nat :=
  match consumer with
  | .release _ .uncount | .signal .capacity .bump => 1
  | .signal .capacity _ | .signal .data .bump => if side = .data then 1 else 0
  | _ => 0

/-- A release has taken a leased slot and not completed. -/
def Consumer.completing : Consumer → Nat
  | .release _ .complete => 1
  | _ => 0

/-- A receive has leased a slot and not moved its cursor. -/
def Consumer.leasing : Consumer → Nat
  | .receive (.advance _) => 1
  | _ => 0

/-- The generation the producer holds. -/
def Producer.generation : Producer → Option Nat
  | .park _ n | .attempt _ (.parked n) _ | .confirm _ n | .drain _ n | .attempt _ (.drained n) _
  | .confirmAgain _ n => some n
  | _ => none

/-- The generation the receiver holds. -/
def Consumer.generation : Consumer → Option Nat
  | .arm (.park n) | .arm (.recheck n) | .arm (.confirm n) | .arm (.drain n)
  | .arm (.recheckAgain n) | .arm (.confirmAgain n) => some n
  | _ => none

/-- The sequence the producer has claimed. -/
def Producer.sequence : Producer → Option Nat
  | .attempt _ _ (.settle k) => some k
  | .commit r _ _ => some r.sequence
  | _ => none

/-- The producer commits. -/
def Producer.committing : Producer → Bool
  | .commit _ _ _ => true
  | _ => false

/-- The producer signals. -/
def Producer.isSignal : Producer → Bool
  | .signal _ => true
  | _ => false

theorem Producer.silent {producer : Producer} (h : producer.isSignal = false) :
    producer.unsignalled = 0 ∧ ∀ side, producer.signalling side = .quiet := by
  cases producer with
  | signal step => cases h
  | _ => exact ⟨rfl, fun side => by cases side <;> rfl⟩

/-- The receiver owes nothing: it has nothing half done that the counts know of. -/
def Consumer.isPlain : Consumer → Bool
  | .signal _ _ | .release _ .uncount | .release _ .complete | .receive (.advance _) => false
  | _ => true

theorem Consumer.plain {consumer : Consumer} (h : consumer.isPlain = true) :
    (∀ side, consumer.unsignalled side = 0) ∧ (∀ side, consumer.signalling side = .quiet) ∧
      consumer.completing = 0 ∧ consumer.leasing = 0 := by
  cases consumer with
  | signal side step => cases h
  | release identity step | receive step =>
    cases step <;> first | exact ⟨fun _ => rfl, fun _ => rfl, rfl, rfl⟩ | cases h
  | _ => exact ⟨fun _ => rfl, fun _ => rfl, rfl, rfl⟩

/-- The sequence the receiver takes. -/
def Consumer.sequence : Consumer → Option Nat
  | .receive (.hold k) | .receive (.validate k) | .receive (.lease k) | .receive (.advance k) =>
    some k
  | _ => none

/-- The receiver is in `arm_data_wait`, or ends a wait. -/
def Consumer.isArming : Consumer → Bool
  | .arm _ | .unpark _ | .drain => true
  | _ => false

/-- The receiver has looked for data the last time and has blocked, or is about to. -/
def Machine.Watching (m : Machine) : Prop :=
  m.armed = true ∨ ∃ n, m.consumer = .arm (.confirmAgain n)

/-! ## The invariant -/

theorem Producer.sequence_of_committing {producer : Producer}
    (h : producer.committing = true) : producer.sequence ≠ none := by
  cases producer with
  | commit r d step => exact Option.some_ne_none _
  | _ => cases h

/-- What the receiver knows since it looked for data the last time. -/
structure Machine.Watches (g : Grant) (m : Machine) : Prop where
  published_le : m.armedPublished ≤ m.shared.published
  completions_le : m.armedCompletions ≤ m.completions
  epoch_le : m.epoch .data ≤ m.armedPublished + m.armedCompletions
  unavailable : m.shared.published = m.armedPublished → m.completions = m.armedCompletions →
    m.shared.dataAvailable g = false
  uncounting : ∀ identity, m.consumer = .release identity .uncount →
    m.armedCompletions < m.completions

/-- **The invariant of the interleavings.** -/
structure Machine.Sane (g : Grant) (m : Machine) : Prop where
  generation : ∀ side, (m.shared.wake side).generation = m.signals side % u64Limit
  consumed_le : m.shared.consumed ≤ m.shared.published
  published_lt : m.shared.published < u64Limit
  /-- Every frame published and every release completed is signalled once. -/
  data_count : m.signals .data + m.producer.unsignalled + m.consumer.unsignalled .data =
    m.shared.published + m.completions
  capacity_count : m.signals .capacity + m.consumer.unsignalled .capacity = m.completions
  /-- No more releases than frames received. -/
  released : m.completions + m.consumer.completing + m.shared.total g Slot.leased ≤
    m.shared.consumed + m.consumer.leasing
  /-- What the producer holds. -/
  reservation : ∀ r, m.reservation = some r →
    r.sequence = m.shared.published + 1 ∧ m.shared.published + 1 < u64Limit
  claimed : ∀ k, m.producer.sequence = some k →
    k = m.shared.published + 1 ∧ m.shared.published + 1 < u64Limit
  committing : m.producer.committing = true → m.reservation = none
  signalled : m.producer = .signal .bump → 0 < m.shared.published
  producer_generation : ∀ n, m.producer.generation = some n → n = m.epoch .capacity % u64Limit
  parked : ∀ e, m.producer.waiting e = .parked e ∨ m.producer.waiting e = .blocked e →
    m.epoch .capacity ≤ m.parkedCompletions
  parked_le : m.parkedCompletions ≤ m.completions
  /-- What the receiver holds. -/
  taking : ∀ k, m.consumer.sequence = some k → k = m.shared.consumed + 1 ∧ k ≤ m.shared.published
  consumer_generation : ∀ n, m.consumer.generation = some n →
    n = m.epoch .data % u64Limit ∧ m.completions ≤ m.epoch .data
  disarmed : m.consumer.isArming = true → m.armed = false
  watches : m.Watching → m.Watches g
  gates : ∀ side, (m.gate side).Sound

theorem Machine.Sane.fresh : Machine.fresh.Sane g where
  generation := fun side => by cases side <;> rfl
  consumed_le := Nat.le_refl _
  published_lt := by decide
  data_count := rfl
  capacity_count := rfl
  released := by
    have hnone : Machine.fresh.shared.total g Slot.leased = 0 := (Wf.fresh (g := g)).leases
    rw [hnone]
    exact Nat.le_refl _
  reservation := fun r hr => by cases hr
  claimed := fun k hk => by cases hk
  committing := fun _ => rfl
  signalled := fun h => by cases h
  producer_generation := fun n hn => by cases hn
  parked := fun e he => by rcases he with he | he <;> cases he
  parked_le := Nat.le_refl _
  taking := fun k hk => by cases hk
  consumer_generation := fun n hn => by cases hn
  disarmed := fun _ => rfl
  watches := fun h => by rcases h with h | ⟨n, h⟩ <;> cases h
  gates := fun side => by cases side <;> trivial

/-! ## Steps that leave cursors and epochs alone -/

/-- The cursors and the wake epochs are the same, and no slot is leased that was not. -/
structure Shared.Keeps (g : Grant) (s s' : Shared) : Prop where
  published : s'.published = s.published
  consumed : s'.consumed = s.consumed
  activeLeases : s'.activeLeases = s.activeLeases
  wake : ∀ side, s'.wake side = s.wake side
  leased : s'.total g Slot.leased ≤ s.total g Slot.leased

theorem Shared.Keeps.refl : Keeps g s s :=
  ⟨rfl, rfl, rfl, fun _ => rfl, Nat.le_refl _⟩

theorem Shared.Keeps.setSlot (k : Nat) {v : Slot}
    (hv : v.leased ≤ (s.slot g k).leased) : Keeps g s (s.setSlot g k v) where
  published := rfl
  consumed := rfl
  activeLeases := rfl
  wake := fun side => by cases side <;> rfl
  leased := by
    have htotal := total_setSlot (g := g) (c := s.toControl) k v Slot.leased
    change (s.toControl.setSlot g k v).total g Slot.leased ≤ s.total g Slot.leased
    omega

theorem Shared.Keeps.of_clears {P : Nat → Prop} {s s' : Shared} (h : Clears P s s') :
    Keeps g s s' where
  published := congrArg Control.published h.control
  consumed := congrArg Control.consumed h.control
  activeLeases := congrArg Control.activeLeases h.control
  wake := fun side => by
    cases side
    · exact h.dataWake
    · exact h.capacityWake
  leased := by rw [h.control]

theorem Shared.Keeps.trans {s s' s'' : Shared} (h : Keeps g s s') (h' : Keeps g s' s'') :
    Keeps g s s'' where
  published := h'.published.trans h.published
  consumed := h'.consumed.trans h.consumed
  activeLeases := h'.activeLeases.trans h.activeLeases
  wake := fun side => (h'.wake side).trans (h.wake side)
  leased := Nat.le_trans h'.leased h.leased

/-- **A step of `try_reserve` leaves cursors and epochs alone.** -/
theorem Shared.attempt_keeps (os : Outcomes) (request : Request) (step : Attempt) :
    Keeps g s (s.attempt g os request step).1 := by
  cases step with
  | check | scan last runLen =>
    rw [attempt]
    split
    · exact .refl s
    split <;> exact .refl s
  | scanState next runLen =>
    rw [attempt]
    split
    · exact .refl s
    split
    · exact .refl s
    split
    · exact .refl s
    split
    · exact .refl s
    split <;> exact .refl s
  | remove last runLen =>
    rw [attempt]
    split
    · exact .refl s
    split
    · exact .refl s
    rename_i newReclaimed _
    split
    · exact .refl s
    rename_i range0 range1 _
    have hremove := Keeps.of_clears (g := g) (s.removeRanges_clears (g := g) os [range0, range1])
    split
    · rename_i s' e hfail
      rw [hfail] at hremove
      exact hremove
    rename_i s' hok
    rw [hok] at hremove
    have hpage := hremove.trans
      (.of_clears (g := g) (s'.removePartialPage_clears (g := g) os newReclaimed))
    split
    · rename_i s'' e hfail
      rw [hfail] at hpage
      exact hpage
    · rename_i s'' hok'
      rw [hok'] at hpage
      exact hpage
  | free next last reclaimed =>
    rw [attempt]
    split
    · exact .refl s
    · refine .setSlot s next ?_
      rw [leased_eq_zero (by simp [Slot.freed])]
      exact Nat.zero_le _
  | advance last reclaimed =>
    exact ⟨rfl, rfl, rfl, fun side => by cases side <;> rfl, Nat.le_refl _⟩
  | claim =>
    rw [attempt]
    split
    · exact .refl s
    split
    · exact .refl s
    split
    · exact .refl s
    split
    · exact .refl s
    · refine .setSlot s _ ?_
      rw [leased_eq_zero (by simp)]
      exact Nat.zero_le _
  | settle sequence =>
    rw [attempt]
    split
    · refine .setSlot s _ ?_
      rw [leased_eq_zero (by simp)]
      exact Nat.zero_le _
    · exact .setSlot s _ (Nat.le_refl _)

/-- A slot is claimed for the sequence after the last one published. -/
theorem Shared.attempt_claims {s s' : Shared} {os : Outcomes} {request : Request} {step : Attempt}
    {k : Nat} (h : s.attempt g os request step = (s', .inl (.settle k))) :
    k = s.published + 1 ∧ s.published + 1 < u64Limit := by
  have hsnd : (s.attempt g os request step).2 = .inl (.settle k) := congrArg Prod.snd h
  cases step with
  | claim =>
    rw [attempt] at hsnd
    split at hsnd
    · cases hsnd
    split at hsnd
    · cases hsnd
    split at hsnd
    · cases hsnd
    rename_i sequence hsequence
    obtain ⟨rfl, hlimit⟩ := checkedAdd_eq_some.mp hsequence
    split at hsnd
    · cases hsnd
    · cases hsnd
      exact ⟨rfl, hlimit⟩
  | check | scan last runLen | scanState next runLen | remove last runLen
  | free next last reclaimed | advance last reclaimed | settle sequence =>
    rw [attempt] at hsnd
    repeat' split at hsnd
    all_goals cases hsnd

/-- A reservation has the sequence that was claimed for it. -/
theorem Shared.attempt_reserves {s s' : Shared} {os : Outcomes} {request : Request}
    {step : Attempt} {r : Reservation}
    (h : s.attempt g os request step = (s', .inr (.ok r))) : step = .settle r.sequence := by
  have hsnd : (s.attempt g os request step).2 = .inr (.ok r) := congrArg Prod.snd h
  cases step with
  | settle sequence =>
    rw [attempt] at hsnd
    split at hsnd
    · cases hsnd
    · cases hsnd
      rfl
  | check | scan last runLen | scanState next runLen | remove last runLen
  | free next last reclaimed | advance last reclaimed | claim =>
    rw [attempt] at hsnd
    repeat' split at hsnd
    all_goals cases hsnd

/-- The signallers of a gate are where the two parties say they are. -/
theorem Machine.gate_signaller (m m' : Machine) (side : Side)
    (hproducer : m'.producer.signalling side = m.producer.signalling side)
    (hconsumer : m'.consumer.signalling side = m.consumer.signalling side) (party : Party) :
    (m'.gate side).signaller party = (m.gate side).signaller party := by
  cases party
  · exact hproducer
  · exact hconsumer

/-- Nothing the receiver knows depends on the producer, but for the cursor. -/
theorem Machine.Watches.congr {m' : Machine} (h : m.Watches g)
    (hpublished : m'.shared.published = m.shared.published)
    (havailable : m'.shared.dataAvailable g = m.shared.dataAvailable g)
    (hcompletions : m'.completions = m.completions) (hepoch : m'.epoch .data = m.epoch .data)
    (harmed : m'.armedPublished = m.armedPublished)
    (harmed' : m'.armedCompletions = m.armedCompletions)
    (hconsumer : ∀ identity, m'.consumer = .release identity .uncount →
      m.consumer = .release identity .uncount) : m'.Watches g where
  published_le := by rw [harmed, hpublished]; exact h.published_le
  completions_le := by rw [harmed', hcompletions]; exact h.completions_le
  epoch_le := by rw [hepoch, harmed, harmed']; exact h.epoch_le
  unavailable := by
    rw [hpublished, harmed, hcompletions, harmed', havailable]
    exact h.unavailable
  uncounting := by
    intro identity hidentity
    rw [harmed', hcompletions]
    exact h.uncounting identity (hconsumer identity hidentity)

/-- Storing the parked word of a side, and nothing else. -/
theorem wake_setParked (side' : Side) (parked : Nat) :
    ((s.setParked side parked).wake side').generation = (s.wake side').generation := by
  rw [setParked]
  rcases eq_or_ne side' side with rfl | hne
  · rw [wake_setWake]
  · rw [wake_setWake_of_ne _ _ hne]

@[simp] theorem toControl_setParked (parked : Nat) :
    (s.setParked side parked).toControl = s.toControl := toControl_setWake _ _ _

/-- The cursors and the counts of signals are the same, and no slot is leased that was not. -/
structure Shared.Steady (g : Grant) (s s' : Shared) : Prop where
  published : s'.published = s.published
  consumed : s'.consumed = s.consumed
  activeLeases : s'.activeLeases = s.activeLeases
  generation : ∀ side, (s'.wake side).generation = (s.wake side).generation
  leased : s'.total g Slot.leased ≤ s.total g Slot.leased

theorem Shared.Keeps.steady {s s' : Shared} (h : Keeps g s s') : Steady g s s' :=
  ⟨h.published, h.consumed, h.activeLeases, fun side => by rw [h.wake], h.leased⟩

theorem Shared.Steady.setParked (parked : Nat) : Steady g s (s.setParked side parked) := by
  refine ⟨?_, ?_, ?_, fun side' => wake_setParked s side side' parked, ?_⟩
  all_goals rw [toControl_setParked]

theorem Shared.Steady.dataAvailable {s s' : Shared} (h : Steady g s s') :
    s'.dataAvailable g = s.dataAvailable g := by
  simp only [Control.dataAvailable, h.published, h.consumed, h.activeLeases]

/-! ## Blocking -/

/-- The parked word of a side is in place, or its doorbell has rung or is about to. -/
def Machine.Answerable (m : Machine) (side : Side) : Prop :=
  (m.shared.wake side).parked ≠ 0 ∨ m.bell side = true ∨
    m.producer.signalling side = .ringing ∨ m.consumer.signalling side = .ringing

theorem Machine.Answerable.gate {side : Side} (h : m.Answerable side) :
    (m.gate side).parked = true ∨ (m.gate side).Rung := by
  rcases h with hparked | hbell | hringing | hringing
  · exact .inl (decide_eq_true hparked)
  · exact .inr (.inl hbell)
  · exact .inr (.inr ⟨.producer, hringing⟩)
  · exact .inr (.inr ⟨.consumer, hringing⟩)

instance (m : Machine) (side : Side) : Decidable (m.Answerable side) :=
  inferInstanceAs (Decidable (_ ∨ _))

/-- The wait that blocks with a step: the last look at the generation finds it unchanged. -/
def Move.blocks (m : Machine) : Move → Option Side
  | .producer _ _ => match m.producer with
    | .confirmAgain _ generation =>
      if (m.shared.wake .capacity).generation = generation then some .capacity else none
    | _ => none
  | .consumer _ => match m.consumer with
    | .arm (.confirmAgain generation) =>
      if (m.shared.wake .data).generation = generation then some .data else none
    | _ => none

/-- A step blocks no wait but one that is answerable. -/
def Move.Careful (m : Machine) (move : Move) : Prop :=
  ∀ side, move.blocks m = some side → m.Answerable side

instance (m : Machine) (move : Move) : Decidable (move.Careful m) :=
  decidable_of_iff ((move.blocks m).all fun side => decide (m.Answerable side)) (by
    simp [Move.Careful, Option.all_eq_true])

/-- On each side no lap of the generation passes during a wait. -/
theorem Machine.Sane.signals_eq (h : m.Sane g) {side : Side} {e : Nat}
    (hle : e ≤ m.signals side) (hlap : m.signals side < e + u64Limit)
    (hgeneration : (m.shared.wake side).generation = e % u64Limit) : m.signals side = e := by
  rw [h.generation side] at hgeneration
  exact Circular.mod_inj e hle hlap (Nat.le_refl _) (Nat.lt_add_of_pos_right (by decide))
    hgeneration

/-- No more releases are completed than frames are published. -/
theorem Machine.Sane.completions_le (h : m.Sane g) : m.completions ≤ m.shared.published := by
  have hreleased := h.released
  have hconsumed := h.consumed_le
  have htaking := h.taking
  have hleasing : m.shared.consumed + m.consumer.leasing ≤ m.shared.published := by
    rcases hconsumer : m.consumer with _ | step | drain | _ | step | ⟨-, step⟩ | ⟨-, step⟩
    case receive =>
      rw [hconsumer] at htaking
      cases step with
      | advance k =>
        obtain ⟨rfl, hle⟩ := htaking k rfl
        exact hle
      | _ => exact hconsumed
    all_goals exact hconsumed
  omega

/-! ## Signals -/

@[simp] theorem wake_signal_of_ne (side' : Side) (step : SignalStep) (hne : side' ≠ side) :
    ((m.signal side step).1.shared.wake side') = m.shared.wake side' := by
  cases step with
  | bump => exact wake_setWake_of_ne _ _ hne
  | take => exact wake_setWake_of_ne _ _ hne
  | ring => rfl

theorem toControl_signal (step : SignalStep) :
    (m.signal side step).1.shared.toControl = m.shared.toControl := by
  cases step with
  | bump => exact toControl_setWake _ _ _
  | take => exact toControl_setParked _ _ _
  | ring => rfl

/-- The generation is the count of the signals. -/
theorem Machine.Sane.signal_generation (h : m.Sane g) (side side' : Side) (step : SignalStep) :
    ((m.signal side step).1.shared.wake side').generation =
      (m.signal side step).1.signals side' % u64Limit := by
  cases step with
  | bump =>
    rcases eq_or_ne side' side with rfl | hne
    · change ((m.shared.setWake side' _).wake side').generation =
        Function.update m.signals side' _ side' % u64Limit
      rw [wake_setWake, Function.update_self]
      change ((m.shared.wake side').generation + 1) % u64Limit = _
      rw [h.generation, Nat.mod_add_mod]
    · change ((m.shared.setWake side _).wake side').generation =
        Function.update m.signals side _ side' % u64Limit
      rw [wake_setWake_of_ne _ _ hne, Function.update_of_ne hne]
      exact h.generation side'
  | take => exact (wake_setParked _ _ _ _).trans (h.generation side')
  | ring => exact h.generation side'

/-- What a step of a signal counts. -/
theorem signal_signals (side' : Side) (step : SignalStep) : (m.signal side step).1.signals side' =
      m.signals side' + if step = .bump ∧ side' = side then 1 else 0 := by
  cases step with
  | bump =>
    change Function.update m.signals side _ side' = _
    rcases eq_or_ne side' side with rfl | hne
    · simp
    · simp [hne]
  | take => simp [Machine.signal]
  | ring => simp [Machine.signal]

/-- What a party's other work says about it is the same. -/
structure Producer.SameWork (producer producer' : Producer) : Prop where
  sequence : producer'.sequence = producer.sequence
  committing : producer'.committing = producer.committing
  generation : producer'.generation = producer.generation
  waiting : ∀ e, producer'.waiting e = producer.waiting e
  bump : producer' = .signal .bump → producer = .signal .bump

structure Consumer.SameWork (consumer consumer' : Consumer) : Prop where
  sequence : consumer'.sequence = consumer.sequence
  generation : consumer'.generation = consumer.generation
  completing : consumer'.completing = consumer.completing
  leasing : consumer'.leasing = consumer.leasing
  waiting : ∀ armed e, consumer'.waiting armed e = consumer.waiting armed e
  arming : consumer'.isArming = consumer.isArming
  confirming : ∀ n, consumer' = .arm (.confirmAgain n) → consumer = .arm (.confirmAgain n)
  uncounting : ∀ identity, consumer' = .release identity .uncount →
    consumer = .release identity .uncount

theorem Producer.SameWork.refl (producer : Producer) : producer.SameWork producer :=
  ⟨rfl, rfl, rfl, fun _ => rfl, id⟩

theorem Consumer.SameWork.refl (consumer : Consumer) : consumer.SameWork consumer :=
  ⟨rfl, rfl, rfl, rfl, fun _ _ => rfl, rfl, fun _ => id, fun _ => id⟩

/-- **A step of a signal**, when the parties' debts are kept and the gates take a step. -/
theorem Machine.Sane.signal (h : m.Sane g) (side : Side) (step : SignalStep) {producer : Producer}
    {consumer : Consumer} (hproducer : m.producer.SameWork producer)
    (hconsumer : m.consumer.SameWork consumer)
    (hdata : producer.unsignalled + consumer.unsignalled .data +
        (if step = .bump ∧ .data = side then 1 else 0) =
      m.producer.unsignalled + m.consumer.unsignalled .data)
    (hcapacity : consumer.unsignalled .capacity +
        (if step = .bump ∧ .capacity = side then 1 else 0) = m.consumer.unsignalled .capacity)
    (hgates : ∀ side', (m.gate side').Step
      (Machine.gate { (m.signal side step).1 with producer := producer, consumer := consumer }
        side')) :
    ({ (m.signal side step).1 with producer := producer, consumer := consumer } :
      Machine).Sane g := by
  have hcontrol := toControl_signal (m := m) side step
  have hsame : ∀ {α : Type} (f : Machine → α), (∀ shared signals bell, f { m with
      shared := shared, signals := signals, bell := bell } = f m) →
      f (m.signal side step).1 = f m := by
    intro α f hf
    cases step with
    | bump => exact hf _ _ m.bell
    | take => exact hf _ m.signals m.bell
    | ring => exact hf m.shared m.signals _
  have hcompletions := hsame Machine.completions fun _ _ _ => rfl
  have hparked := hsame Machine.parkedCompletions fun _ _ _ => rfl
  have hepoch := hsame Machine.epoch fun _ _ _ => rfl
  have harmed := hsame Machine.armed fun _ _ _ => rfl
  have hpublished := hsame Machine.armedPublished fun _ _ _ => rfl
  have hreleases := hsame Machine.armedCompletions fun _ _ _ => rfl
  have hreservation := hsame Machine.reservation fun _ _ _ => rfl
  refine
    { generation := fun side' => h.signal_generation side side' step
      consumed_le := ?_
      published_lt := ?_
      data_count := ?_
      capacity_count := ?_
      released := ?_
      reservation := fun r hr => ?_
      claimed := fun k hk => ?_
      committing := fun hcommitting => ?_
      signalled := fun hbump => ?_
      producer_generation := fun n hn => ?_
      parked := fun e he => ?_
      parked_le := ?_
      taking := fun k hk => ?_
      consumer_generation := fun n hn => ?_
      disarmed := fun harming => harmed.trans (h.disarmed (hconsumer.arming.symm.trans harming))
      watches := fun hwatching => ?_
      gates := fun side' => (h.gates side').step (hgates side') }
  · rw [hcontrol]
    exact h.consumed_le
  · rw [hcontrol]
    exact h.published_lt
  · have hcount := h.data_count
    change (m.signal side step).1.signals .data + producer.unsignalled +
      consumer.unsignalled .data =
      (m.signal side step).1.shared.toControl.published + (m.signal side step).1.completions
    rw [signal_signals, hcontrol, hcompletions]
    omega
  · have hcount := h.capacity_count
    change (m.signal side step).1.signals .capacity + consumer.unsignalled .capacity =
      (m.signal side step).1.completions
    rw [signal_signals, hcompletions]
    omega
  · rw [hcompletions, hcontrol, hconsumer.completing, hconsumer.leasing]
    exact h.released
  · rw [hreservation] at hr
    rw [hcontrol]
    exact h.reservation r hr
  · rw [hcontrol]
    exact h.claimed k (hproducer.sequence.symm.trans hk)
  · exact hreservation.trans (h.committing (hproducer.committing.symm.trans hcommitting))
  · rw [hcontrol]
    exact h.signalled (hproducer.bump hbump)
  · rw [hepoch]
    exact h.producer_generation n (hproducer.generation.symm.trans hn)
  · rw [hepoch, hparked]
    exact h.parked e (he.imp (hproducer.waiting e).symm.trans (hproducer.waiting e).symm.trans)
  · rw [hparked, hcompletions]
    exact h.parked_le
  · rw [hcontrol]
    exact h.taking k (hconsumer.sequence.symm.trans hk)
  · rw [hepoch, hcompletions]
    exact h.consumer_generation n (hconsumer.generation.symm.trans hn)
  · have hwatching' : m.Watching := by
      rcases hwatching with harmed' | ⟨n, hn⟩
      · exact .inl (harmed.symm.trans harmed')
      · exact .inr ⟨n, hconsumer.confirming n hn⟩
    refine (h.watches hwatching').congr (congrArg Control.published hcontrol) ?_ hcompletions
      (congrFun hepoch .data) hpublished hreleases hconsumer.uncounting
    rw [hcontrol]

/-- Where a party is before a step of its signal. -/
def SignalStep.phase : SignalStep → Signalling
  | .bump => .quiet
  | .take => .taking
  | .ring => .ringing

/-- **A step of a signal is a step of the gate** on its side, and none on the other. -/
theorem Machine.gate_signal (step : SignalStep) (party : Party) (producer : Producer)
    (consumer : Consumer) (hbefore : (m.gate side).signaller party = step.phase)
    (hafter : (Machine.gate { (m.signal side step).1 with
        producer := producer, consumer := consumer } side).signaller party =
      (m.signal side step).2.elim .quiet SignalStep.phase)
    (hother : ∀ side' party', side' ≠ side ∨ party' ≠ party →
      (Machine.gate { (m.signal side step).1 with
        producer := producer, consumer := consumer } side').signaller party' =
      (m.gate side').signaller party')
    (hwaiting : ∀ side', (Machine.gate { (m.signal side step).1 with
        producer := producer, consumer := consumer } side').waiting = (m.gate side').waiting)
    (side' : Side) : (m.gate side').Step (Machine.gate { (m.signal side step).1 with
        producer := producer, consumer := consumer } side') := by
  rcases eq_or_ne side' side with rfl | hne
  swap
  · -- the other side
    have hbell : (m.signal side step).1.bell side' = m.bell side' := by
      cases step with
      | bump => rfl
      | take => rfl
      | ring => exact Function.update_of_ne hne _ _
    have hparked : decide (((m.signal side step).1.shared.wake side').parked ≠ 0) =
        decide ((m.shared.wake side').parked ≠ 0) := by rw [wake_signal_of_ne _ _ _ hne]
    refine (Gate.Step.stay _).congr ?_ hparked hbell (fun party' => hother _ _ (.inl hne))
      (hwaiting side')
    exact (signal_signals side side' step).trans (by simp [hne, Machine.gate])
  have hparties : ∀ phase, (m.signal side' step).2.elim .quiet SignalStep.phase = phase →
      ∀ party', (Machine.gate { (m.signal side' step).1 with
          producer := producer, consumer := consumer } side').signaller party' =
        Function.update (m.gate side').signaller party phase party' := by
    intro phase hphase party'
    rcases eq_or_ne party' party with rfl | hne
    · rw [hafter, hphase, Function.update_self]
    · rw [hother _ _ (.inr hne), Function.update_of_ne hne]
  cases step with
  | bump =>
    refine (Gate.Step.count party hbefore).congr ?_ ?_ rfl (hparties _ rfl) (hwaiting side')
    · exact (signal_signals side' side' .bump).trans (by simp [Machine.gate])
    · change decide (((m.shared.setWake side' _).wake side').parked ≠ 0) = _
      rw [wake_setWake]
      rfl
  | take =>
    refine (Gate.Step.take party hbefore).congr rfl ?_ rfl (hparties _ ?_) (hwaiting side')
    · change decide (((m.shared.setWake side' _).wake side').parked ≠ 0) = false
      rw [wake_setWake]
      rfl
    · simp only [Machine.signal, Machine.gate, decide_eq_true_eq]
      split <;> rfl
  | ring =>
    refine (Gate.Step.ring party hbefore).congr rfl rfl ?_ (hparties _ rfl) (hwaiting side')
    exact Function.update_self _ _ _

end MagicContext.Ring
