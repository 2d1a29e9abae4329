import MagicContext.Ring.Waits

/-!
# The receiver and the wake epochs

Every atomic step of the receiver keeps the invariant of the interleavings, provided that it does
not block with its parked word gone and its doorbell empty.

## What is here

* `Machine.Sane.consumer_quiet` — the steps that touch neither cursors nor epochs.
* `Machine.Sane.consumer_load`, `consumer_park`, `consumer_drain`, `consumer_look`,
  `consumer_block`, `consumer_unpark` — the steps of `arm_data_wait` and of the end of a wait.
* `Machine.Sane.receive_lease`, `receive_advance`, `release_take`, `release_complete`,
  `move_leases`, `consumer_signal` — the steps of `try_receive` and `release` that the counts know
  of.
* `Machine.Sane.consume` — **every step of the receiver**.
-/

namespace MagicContext.Ring

open Word Consumer Gate.Step Slot

variable {g : Grant} {m : Machine}

/-- What the receiver does after a signal: a release rings for capacity first. -/
def Side.next : Side → Consumer
  | .capacity => .signal .data .bump
  | .data => .idle

/-- **The receiver's signals keep the invariant.** -/
theorem Machine.Sane.consumer_signal (h : m.Sane g) {side : Side} {step : SignalStep}
    (hconsumer : m.consumer = .signal side step) (consumer : Consumer)
    (hnext : consumer = (m.signal side step).2.elim side.next (.signal side)) :
    ({ (m.signal side step).1 with consumer := consumer } : Machine).Sane g := by
  have hwork : m.consumer.SameWork consumer := by
    rw [hconsumer, hnext]
    rcases (m.signal side step).2 with _ | next
    · cases side
      · exact ⟨rfl, rfl, rfl, rfl, fun _ _ => rfl, rfl, fun _ hn => (by cases hn),
          fun _ hi => (by cases hi)⟩
      · exact ⟨rfl, rfl, rfl, rfl, fun _ _ => rfl, rfl, fun _ hn => (by cases hn),
          fun _ hi => (by cases hi)⟩
    · exact ⟨rfl, rfl, rfl, rfl, fun _ _ => rfl, rfl, fun _ hn => (by cases hn),
        fun _ hi => (by cases hi)⟩
  have hproducer : (m.signal side step).1.producer = m.producer := by cases step <;> rfl
  have hother : ∀ side', side' ≠ side → consumer.signalling side' = .quiet := by
    intro side' hne
    rw [hnext]
    rcases (m.signal side step).2 with _ | next
    · cases side <;> rfl
    · cases next <;> simp [signalling, hne.symm]
  have hgates := Machine.gate_signal (m := m) side step .consumer m.producer consumer
    (by cases step <;> simp [Machine.gate, hconsumer, signalling, SignalStep.phase])
    ?_ ?_ ?_
  · have hsane := h.signal side step (.refl m.producer) hwork ?_ ?_ hgates
    · rw [← hproducer] at hsane
      exact hsane
    all_goals
      rw [hconsumer, hnext]
      cases step with
      | bump | ring => cases side <;> simp [Machine.signal, unsignalled, Side.next]
      | take =>
        rw [Machine.signal]
        split <;> cases side <;> simp [unsignalled, Side.next]
  · rw [hnext]
    change signalling ((m.signal side step).2.elim _ (.signal side)) side = _
    rcases (m.signal side step).2 with _ | _ | _ | _
    · cases side <;> rfl
    all_goals simp [signalling, SignalStep.phase]
  · intro side' party hcase
    cases party with
    | producer => exact congrArg (Producer.signalling · side') rfl
    | consumer =>
      have hne := hcase.resolve_right (by simp)
      change consumer.signalling side' = m.consumer.signalling side'
      rw [hother side' hne, hconsumer]
      cases step <;> simp [signalling, hne.symm]
  · intro side'
    cases side' with
    | data =>
      refine (hwork.waiting _ _).trans ?_
      cases step <;> rfl
    | capacity =>
      cases step <;> rfl

/-! ## The steps of the receiver -/

section
variable (h : m.Sane g) {shared : Shared} {consumer : Consumer} {armed : Bool}
  (hplain : m.consumer.isPlain = true) (hplain' : consumer.isPlain = true)
  (harmed : armed = true → m.armed = true) (hdisarmed : consumer.isArming = true → armed = false)
  (htaking : ∀ k, consumer.sequence = some k → k = m.shared.consumed + 1 ∧ k ≤ m.shared.published)
  (hgeneration : ∀ n, consumer.generation = some n → m.consumer.generation = some n)
  (hconfirming : ∀ n, consumer ≠ .arm (.confirmAgain n))
include h hplain hplain' harmed hdisarmed htaking hgeneration hconfirming

/-- A step of the receiver that leaves the cursors and the epochs alone, and owes nothing before and
after, is for its gate to judge. -/
theorem Machine.Sane.consumer_moves {bell : Side → Bool} (hsteady : Shared.Steady g m.shared shared)
    (hwake : shared.wake .capacity = m.shared.wake .capacity)
    (hbell : bell .capacity = m.bell .capacity)
    (hgate : (∀ party, (gate { m with
        shared := shared, bell := bell, consumer := consumer, armed := armed }
        .data).signaller party = (m.gate .data).signaller party) →
      (m.gate .data).Step (gate { m with
        shared := shared, bell := bell, consumer := consumer, armed := armed } .data)) :
    ({ m with shared := shared, bell := bell, consumer := consumer, armed := armed } :
      Machine).Sane g := by
  obtain ⟨hunsignalled, hsignalling, -, hleasing⟩ := plain hplain
  obtain ⟨hunsignalled', hsignalling', hcompleting', -⟩ := plain hplain'
  refine
    { generation := fun side => (hsteady.generation side).trans (h.generation side)
      consumed_le := ?_
      published_lt := ?_
      data_count := ?_
      capacity_count := ?_
      released := ?_
      reservation := fun r hr => ?_
      claimed := fun k hk => ?_
      committing := h.committing
      signalled := fun hbump => ?_
      producer_generation := h.producer_generation
      parked := h.parked
      parked_le := h.parked_le
      taking := fun k hk => ?_
      consumer_generation := fun n hn => h.consumer_generation n (hgeneration n hn)
      disarmed := hdisarmed
      watches := fun hwatching => ?_
      gates := fun side => ?_ }
  · rw [hsteady.consumed, hsteady.published]
    exact h.consumed_le
  · rw [hsteady.published]
    exact h.published_lt
  · rw [hsteady.published, hunsignalled', ← hunsignalled .data]
    exact h.data_count
  · rw [hunsignalled', ← hunsignalled .capacity]
    exact h.capacity_count
  · have hleased := hsteady.leased
    have hreleased := h.released
    change m.completions + consumer.completing + shared.total g leased ≤
      shared.consumed + consumer.leasing
    rw [hsteady.consumed]
    omega
  · rw [hsteady.published]
    exact h.reservation r hr
  · rw [hsteady.published]
    exact h.claimed k hk
  · rw [hsteady.published]
    exact h.signalled hbump
  · rw [hsteady.consumed, hsteady.published]
    exact htaking k hk
  · have hwatching' : m.Watching := by
      rcases hwatching with harmed' | ⟨n, hn⟩
      · exact .inl (harmed harmed')
      · exact absurd hn (hconfirming n)
    refine (h.watches hwatching').congr hsteady.published hsteady.dataAvailable rfl rfl rfl rfl ?_
    intro identity hidentity
    change consumer = _ at hidentity
    rw [hidentity] at hplain'
    cases hplain'
  · refine (h.gates side).step ?_
    have hsignaller := gate_signaller m { m with
      shared := shared, bell := bell, consumer := consumer, armed := armed } side rfl
        ((hsignalling' side).trans (hsignalling side).symm)
    cases side with
    | capacity =>
      have hparked : decide ((shared.wake .capacity).parked ≠ 0) =
          decide ((m.shared.wake .capacity).parked ≠ 0) := by rw [hwake]
      exact (stay _).congr rfl hparked hbell hsignaller rfl
    | data => exact hgate hsignaller

/-- **A quiet step of the receiver**: it keeps cursors and epochs, and owes nothing before and
after. -/
theorem Machine.Sane.consumer_quiet (hkeeps : Shared.Keeps g m.shared shared)
    (hwaiting : ∀ e, consumer.waiting armed e = m.consumer.waiting m.armed e ∨
      consumer.waiting armed e = .away) :
    ({ m with shared := shared, consumer := consumer, armed := armed } : Machine).Sane g := by
  refine h.consumer_moves hplain hplain' harmed hdisarmed htaking hgeneration hconfirming
    hkeeps.steady (hkeeps.wake _) rfl fun hsignaller => ?_
  have hparked : decide ((shared.wake .data).parked ≠ 0) =
      decide ((m.shared.wake .data).parked ≠ 0) := by rw [hkeeps.wake]
  rcases hwaiting (m.epoch .data) with hsame | haway
  · exact (stay _).congr rfl hparked rfl hsignaller hsame
  · exact (leave _).congr rfl hparked rfl hsignaller haway

end

/-- Every release so far has been signalled when the receiver reads the generation. -/
theorem Machine.Sane.completions_le_signals (h : m.Sane g) (hplain : m.consumer.isPlain = true) :
    m.completions ≤ m.signals .data := by
  have hcount := h.data_count
  rw [(plain hplain).1] at hcount
  rcases hproducer : m.producer.isSignal with _ | _
  · rw [(Producer.silent hproducer).1] at hcount
    omega
  · rcases hcase : m.producer with _ | _ | _ | _ | _ | _ | _ | _ | _ | _ | _ | step | _
    case signal =>
      rw [hcase] at hcount
      cases step with
      | bump =>
        have hpublished := h.signalled hcase
        change m.signals .data + 1 + 0 = _ at hcount
        omega
      | take | ring =>
        change m.signals .data + 0 + 0 = _ at hcount
        omega
    all_goals
      rw [hcase] at hproducer
      cases hproducer

section Arm

variable {n : Nat}

section
variable (h : m.Sane g)
include h

/-- Nobody watches while the receiver is about to look. -/
theorem Machine.Sane.not_watching {consumer : Consumer}
    (harming : m.consumer.isArming = true) (hconfirming : ∀ n, consumer ≠ .arm (.confirmAgain n))
    {m' : Machine} (hconsumer : m'.consumer = consumer) (harmed : m'.armed = m.armed) :
    ¬ m'.Watching := by
  rintro (hwatching | ⟨n, hn⟩)
  · rw [harmed, h.disarmed harming] at hwatching
    cases hwatching
  · exact hconfirming n (hconsumer.symm.trans hn)

/-- Reading the generation starts a wait at the present count. -/
theorem Machine.Sane.consumer_load (hconsumer : m.consumer = .arm .load) :
    ({ m with
      consumer := .arm (.park (m.shared.wake .data).generation)
      epoch := Function.update m.epoch .data (m.signals .data) } : Machine).Sane g := by
  have hsignals := h.completions_le_signals (by rw [hconsumer]; rfl)
  have hcount := h.data_count
  have hcapacity := h.capacity_count
  have hreleased := h.released
  rw [hconsumer] at hcount hcapacity hreleased
  exact
    { h with
      data_count := hcount
      capacity_count := hcapacity
      released := hreleased
      taking := fun k hk => by cases hk
      consumer_generation := fun k hk => by
        obtain rfl := Option.some.inj hk
        exact ⟨h.generation .data, hsignals⟩
      disarmed := fun _ => h.disarmed (by rw [hconsumer]; rfl)
      watches := fun hwatching => absurd hwatching
        (h.not_watching (by rw [hconsumer]; rfl) (fun k hk => by cases hk) rfl rfl)
      gates := fun side => by
        refine (h.gates side).step ?_
        have hsignaller := gate_signaller m { m with
          consumer := .arm (.park (m.shared.wake .data).generation)
          epoch := Function.update m.epoch .data (m.signals .data) }
          side rfl (by rw [hconsumer]; rfl)
        cases side with
        | capacity => exact (stay _).congr rfl rfl rfl hsignaller rfl
        | data => exact (read _).congr rfl rfl rfl hsignaller rfl }

/-- Parking stores the word. -/
theorem Machine.Sane.consumer_park (hconsumer : m.consumer = .arm (.park n)) :
    ({ m with
      shared := m.shared.setParked .data (wrappingAdd n 1)
      consumer := .arm (.recheck n) } : Machine).Sane g := by
  refine h.consumer_moves (by rw [hconsumer]; rfl) rfl id
    (fun _ => h.disarmed (by rw [hconsumer]; rfl)) (fun k hk => by cases hk)
    (by rw [hconsumer]; exact fun _ => id) (fun k hk => by cases hk) (.setParked _ _ _) rfl rfl
    fun hsignaller => ?_
  refine (park (decide (wrappingAdd n 1 ≠ 0)) ?_).congr rfl rfl rfl hsignaller
    (rfl : _ = Waiting.parked (m.epoch .data))
  simp only [gate, hconsumer, waiting]

/-- Emptying the doorbell while not blocked. -/
theorem Machine.Sane.consumer_drain {consumer : Consumer}
    (hplain : m.consumer.isPlain = true) (hplain' : consumer.isPlain = true)
    (harming : m.consumer.isArming = true) (hsequence : consumer.sequence = none)
    (hgeneration : ∀ n, consumer.generation = some n → m.consumer.generation = some n)
    (hconfirming : ∀ n, consumer ≠ .arm (.confirmAgain n))
    (hwaiting : ∀ e, consumer.waiting false e = m.consumer.waiting false e)
    (hunblocked : ∀ e e', m.consumer.waiting false e ≠ .blocked e') :
    ({ m with bell := Function.update m.bell .data false, consumer := consumer } :
      Machine).Sane g := by
  have harmed := h.disarmed harming
  refine h.consumer_moves hplain hplain' id (fun _ => harmed)
    (fun k hk => by cases hsequence.symm.trans hk) hgeneration hconfirming
    (Shared.Keeps.refl _).steady rfl rfl fun hsignaller => ?_
  have hsame : consumer.waiting m.armed (m.epoch .data) =
      m.consumer.waiting m.armed (m.epoch .data) := by
    rw [harmed]
    exact hwaiting _
  refine (drain ?_).congr rfl rfl rfl hsignaller hsame
  change ∀ e, m.consumer.waiting m.armed _ ≠ _
  rw [harmed]
  exact hunblocked _

/-- The end of a wait clears the parked word. -/
theorem Machine.Sane.consumer_unpark {consumer : Consumer}
    (hplain : m.consumer.isPlain = true) (hplain' : consumer.isPlain = true)
    (harming : m.consumer.isArming = true) (hsequence : consumer.sequence = none)
    (hgeneration : consumer.generation = none)
    (hconfirming : ∀ n, consumer ≠ .arm (.confirmAgain n))
    (haway : ∀ e, consumer.waiting false e = .away) :
    ({ m with shared := m.shared.setParked .data 0, consumer := consumer } : Machine).Sane g := by
  have harmed := h.disarmed harming
  refine h.consumer_moves hplain hplain' id (fun _ => harmed)
    (fun k hk => by cases hsequence.symm.trans hk) (fun n hn => by cases hgeneration.symm.trans hn)
    hconfirming (.setParked _ _ _) rfl rfl fun hsignaller =>
    (Gate.Step.unpark _).congr rfl rfl rfl hsignaller ?_
  rw [harmed]
  exact haway _

/-- The last look for data before blocking. -/
theorem Machine.Sane.consumer_look (hconsumer : m.consumer = .arm (.recheckAgain n))
    (hunavailable : m.shared.dataAvailable g = false) :
    ({ m with
      consumer := .arm (.confirmAgain n)
      armedPublished := m.shared.published
      armedCompletions := m.completions } : Machine).Sane g := by
  have hcount := h.data_count
  have hcapacity := h.capacity_count
  have hreleased := h.released
  rw [hconsumer] at hcount hcapacity hreleased
  have hparked : m.epoch .data ≤ m.signals .data := (h.gates .data).parked (by
    simp only [gate, hconsumer, waiting])
  have hepoch : m.epoch .data ≤ m.shared.published + m.completions := by omega
  exact
    { h with
      data_count := hcount
      capacity_count := hcapacity
      released := hreleased
      taking := fun k hk => by cases hk
      consumer_generation := fun k hk => h.consumer_generation k (by rw [hconsumer]; exact hk)
      disarmed := fun _ => h.disarmed (by rw [hconsumer]; rfl)
      watches := fun _ => ⟨Nat.le_refl _, Nat.le_refl _, hepoch, fun _ _ => hunavailable,
        fun identity hidentity => by cases hidentity⟩
      gates := fun side => by
        refine (h.gates side).step ?_
        have hsignaller := gate_signaller m { m with
          consumer := .arm (.confirmAgain n)
          armedPublished := m.shared.published
          armedCompletions := m.completions } side rfl (by rw [hconsumer]; rfl)
        have hwaiting : (gate { m with
            consumer := .arm (.confirmAgain n)
            armedPublished := m.shared.published
            armedCompletions := m.completions } side).waiting = (m.gate side).waiting := by
          cases side with
          | capacity => rfl
          | data => simp only [gate, hconsumer, waiting]
        exact (stay _).congr rfl rfl rfl hsignaller hwaiting }

/-- **The receiver blocks**: its parked word is in place, or its doorbell has rung. -/
theorem Machine.Sane.consumer_block (hconsumer : m.consumer = .arm (.confirmAgain n))
    (hsame : (m.shared.wake .data).generation = n)
    (hplace : (m.gate .data).parked = true ∨ (m.gate .data).Rung) :
    ({ m with consumer := .idle, armed := true } : Machine).Sane g := by
  have hcount := h.data_count
  have hcapacity := h.capacity_count
  have hreleased := h.released
  rw [hconsumer] at hcount hcapacity hreleased
  have hparked : (m.gate .data).waiting = .parked (m.epoch .data) := by
    simp only [gate, hconsumer, waiting]
  obtain ⟨hgeneration, hcompletions⟩ := h.consumer_generation n (by rw [hconsumer]; rfl)
  have hpublished := h.published_lt
  have hwatches := h.watches (.inr ⟨n, hconsumer⟩)
  exact
    { h with
      data_count := hcount
      capacity_count := hcapacity
      released := hreleased
      taking := fun k hk => by cases hk
      consumer_generation := fun k hk => by cases hk
      disarmed := fun harming => by cases harming
      watches := fun _ => hwatches.congr rfl rfl rfl rfl rfl rfl fun i hi => by cases hi
      gates := fun side => by
        refine (h.gates side).step ?_
        have hsignaller := gate_signaller m { m with consumer := .idle, armed := true }
          side rfl (by rw [hconsumer]; rfl)
        cases side with
        | capacity => exact (stay _).congr rfl rfl rfl hsignaller rfl
        | data =>
          refine (block hparked ?_ hplace).congr rfl rfl rfl hsignaller rfl
          -- no release completes during the wait, and frames have different sequences
          refine h.signals_eq ((h.gates .data).parked hparked) ?_ (hsame.trans hgeneration)
          omega }

end

end Arm

section Frames

variable {k : Nat} {identity : ReleaseIdentity}

theorem Consumer.working {consumer : Consumer} (h : consumer.isArming = false) :
    consumer.generation = none ∧ (∀ n, consumer ≠ .arm (.confirmAgain n)) ∧
      ∀ armed e, consumer.waiting armed e = if armed then .blocked e else .away := by
  cases consumer with
  | arm | unpark | drain => cases h
  | idle | receive | release | signal => exact ⟨rfl, fun _ hn => (by cases hn), fun _ _ => rfl⟩

section
variable (h : m.Sane g)
include h

/-- A step of a receive or a release is none of the gates. -/
theorem Machine.Sane.consumer_works {shared : Shared} {consumer : Consumer}
    {completions : Nat} (hpublished : shared.published = m.shared.published)
    (hwake : ∀ side, shared.wake side = m.shared.wake side)
    (harming : m.consumer.isArming = false) (harming' : consumer.isArming = false)
    (hsignalling : ∀ side, consumer.signalling side = m.consumer.signalling side)
    (hcompletions : m.completions ≤ completions)
    (hcounts : ∀ side,
      consumer.unsignalled side + m.completions = m.consumer.unsignalled side + completions)
    (hconsumed : shared.consumed ≤ shared.published)
    (hreleased : completions + consumer.completing + shared.total g leased ≤
      shared.consumed + consumer.leasing)
    (htaking : ∀ k, consumer.sequence = some k → k = shared.consumed + 1 ∧ k ≤ shared.published)
    (hwatches : m.Watches g → Watches g
      { m with shared := shared, consumer := consumer, completions := completions }) :
    ({ m with shared := shared, consumer := consumer, completions := completions } :
      Machine).Sane g := by
  obtain ⟨-, -, hwaiting⟩ := working harming
  obtain ⟨hgeneration', hconfirming', hwaiting'⟩ := working harming'
  have hdata := h.data_count
  have hcapacity := h.capacity_count
  have hcounts' := hcounts .data
  have hcounts'' := hcounts .capacity
  refine
    { h with
      generation := fun side => (congrArg WakeEpoch.generation (hwake side)).trans (h.generation side)
      consumed_le := hconsumed
      published_lt := hpublished ▸ h.published_lt
      data_count := ?_
      capacity_count := ?_
      released := hreleased
      reservation := hpublished ▸ h.reservation
      claimed := hpublished ▸ h.claimed
      signalled := hpublished ▸ h.signalled
      parked_le := h.parked_le.trans hcompletions
      taking := htaking
      consumer_generation := fun k hk => by cases hgeneration'.symm.trans hk
      disarmed := fun harming => by cases harming'.symm.trans harming
      watches := fun hwatching => hwatches (h.watches ?_)
      gates := fun side => (h.gates side).step ((stay _).congr rfl ?_ rfl
        (gate_signaller m _ _ rfl (hsignalling side)) ?_) }
  · change m.signals .data + m.producer.unsignalled + consumer.unsignalled .data =
      shared.published + completions
    omega
  · change m.signals .capacity + consumer.unsignalled .capacity = completions
    omega
  · exact hwatching.imp id fun ⟨n, hn⟩ => absurd hn (hconfirming' n)
  · simp only [gate, hwake]
  · cases side with
    | capacity => rfl
    | data => exact (hwaiting' _ _).trans (hwaiting _ _).symm

/-- Leasing a slot. -/
theorem Machine.Sane.receive_lease (hconsumer : m.consumer = .receive (.lease k)) :
    ({ m with
      shared := m.shared.setSlot g k { m.shared.slot g k with state := .receiverLeased }
      consumer := .receive (.advance k) } : Machine).Sane g := by
  have hreleased := h.released
  have htotal := total_setSlot (g := g) (c := m.shared.toControl) k
    { m.shared.slot g k with state := .receiverLeased } leased
  have hone : leased { m.shared.slot g k with state := .receiverLeased } = 1 := rfl
  refine h.consumer_works rfl (fun side => by cases side <;> rfl) (by rw [hconsumer]; rfl) rfl
    (by rw [hconsumer]; exact fun _ => rfl) (Nat.le_refl _) (by rw [hconsumer]; exact fun _ => rfl)
    h.consumed_le ?_ (fun j hj => h.taking j (by rw [hconsumer]; exact hj))
    fun hwatches => hwatches.congr rfl rfl rfl rfl rfl rfl fun i hi => by cases hi
  rw [hconsumer] at hreleased
  change m.completions + 0 + m.shared.total g leased ≤ m.shared.consumed + 0 at hreleased
  change m.completions + 0 + (m.shared.toControl.setSlot g k _).total g leased ≤
    m.shared.consumed + 1
  omega

/-- Moving the receiver's cursor. -/
theorem Machine.Sane.receive_advance (hconsumer : m.consumer = .receive (.advance k)) :
    ({ m with
      shared := m.shared.setControl (m.shared.toControl.setConsumer k m.shared.activeLeases)
      consumer := .receive .count } : Machine).Sane g := by
  have hreleased := h.released
  obtain ⟨hnext, hpublished⟩ := h.taking k (by rw [hconsumer]; rfl)
  refine h.consumer_works rfl (fun side => by cases side <;> rfl) (by rw [hconsumer]; rfl) rfl
    (by rw [hconsumer]; exact fun _ => rfl) (Nat.le_refl _) (by rw [hconsumer]; exact fun _ => rfl)
    hpublished ?_ (fun j hj => by cases hj) fun hwatches => ?_
  · rw [hconsumer] at hreleased
    change m.completions + 0 + m.shared.total g leased ≤ m.shared.consumed + 1 at hreleased
    change m.completions + 0 + m.shared.total g leased ≤ k + 0
    omega
  · refine ⟨hwatches.published_le, hwatches.completions_le, hwatches.epoch_le, ?_,
      fun i hi => by cases hi⟩
    intro hsame hsame'
    -- there was data, so it was the leases that ran out
    have hold := hwatches.unavailable hsame hsame'
    simp only [Control.dataAvailable, decide_eq_false_iff_not, not_and] at hold
    change decide (m.shared.published ≠ k ∧ m.shared.activeLeases < g.maxLeases) = false
    rw [decide_eq_false_iff_not, not_and]
    exact fun _ => hold (by omega)

/-- Moving the lease count, up after a receive or down after a release. -/
theorem Machine.Sane.move_leases {consumer : Consumer} (activeLeases : Nat)
    (hmoves : m.consumer = .receive .count ∧ consumer = .idle ∧
        activeLeases = m.shared.activeLeases + 1 ∨
      (∃ i, m.consumer = .release i .uncount) ∧ consumer = .signal .capacity .bump) :
    ({ m with
      shared := m.shared.setControl (m.shared.toControl.setConsumer m.shared.consumed activeLeases)
      consumer := consumer } : Machine).Sane g := by
  have hsame : m.consumer.SameWork consumer ∧ m.consumer.isArming = false ∧
      consumer.isArming = false ∧ consumer.sequence = none ∧
      (∀ side, consumer.unsignalled side = m.consumer.unsignalled side) ∧
      ∀ side, consumer.signalling side = m.consumer.signalling side := by
    rcases hmoves with ⟨hconsumer, rfl, -⟩ | ⟨⟨i, hconsumer⟩, rfl⟩ <;> rw [hconsumer] <;>
      exact ⟨⟨rfl, rfl, rfl, rfl, fun _ _ => rfl, rfl, fun _ hn => (by cases hn),
        fun _ hi => (by cases hi)⟩, rfl, rfl, rfl, fun _ => rfl, fun _ => rfl⟩
  obtain ⟨hwork, harming, harming', hsequence, hunsignalled, hsignalling⟩ := hsame
  refine h.consumer_works rfl (fun side => by cases side <;> rfl) harming harming' hsignalling
    (Nat.le_refl _) (fun side => by rw [hunsignalled]) h.consumed_le ?_
    (fun j hj => by cases hsequence.symm.trans hj) fun hwatches => ?_
  · rw [hwork.completing, hwork.leasing]
    exact h.released
  · refine ⟨hwatches.published_le, hwatches.completions_le, hwatches.epoch_le, ?_, fun i hi => ?_⟩
    · intro hsame hsame'
      change decide (m.shared.published ≠ m.shared.consumed ∧ activeLeases < g.maxLeases) = false
      rcases hmoves with ⟨-, -, rfl⟩ | ⟨⟨i, hconsumer⟩, -⟩
      · have hold := hwatches.unavailable hsame hsame'
        simp only [Control.dataAvailable, decide_eq_false_iff_not, not_and] at hold
        rw [decide_eq_false_iff_not, not_and]
        exact fun hne hlt => hold hne (Nat.lt_of_succ_lt hlt)
      · -- a release has completed since
        exact absurd hsame' (Nat.ne_of_gt (hwatches.uncounting i hconsumer))
    · rcases hmoves with ⟨-, rfl, -⟩ | ⟨-, rfl⟩ <;> cases hi

/-- Taking a leased slot back. -/
theorem Machine.Sane.release_take (hconsumer : m.consumer = .release identity .take)
    (hleased : (m.shared.slot g identity.sequence).state = .receiverLeased) :
    ({ m with
      shared := m.shared.setSlot g identity.sequence
        { m.shared.slot g identity.sequence with state := .releasePending }
      consumer := .release identity .complete } : Machine).Sane g := by
  have hreleased := h.released
  have htotal := total_setSlot (g := g) (c := m.shared.toControl) identity.sequence
    { m.shared.slot g identity.sequence with state := .releasePending } leased
  have hzero : leased { m.shared.slot g identity.sequence with state := .releasePending } = 0 := rfl
  have hone : (m.shared.slot g identity.sequence).leased = 1 := by
    rw [leased, if_pos hleased]
  refine h.consumer_works rfl (fun side => by cases side <;> rfl) (by rw [hconsumer]; rfl) rfl
    (by rw [hconsumer]; exact fun _ => rfl) (Nat.le_refl _) (by rw [hconsumer]; exact fun _ => rfl)
    h.consumed_le ?_ (fun j hj => by cases hj)
    fun hwatches => hwatches.congr rfl rfl rfl rfl rfl rfl fun i hi => by cases hi
  rw [hconsumer] at hreleased
  change m.completions + 0 + m.shared.total g leased ≤ m.shared.consumed + 0 at hreleased
  change m.completions + 1 + (m.shared.toControl.setSlot g identity.sequence _).total g
    leased ≤ m.shared.consumed + 0
  omega

/-- **Completing a release** owes both parties a signal. -/
theorem Machine.Sane.release_complete (hconsumer : m.consumer = .release identity .complete) :
    ({ m with
      shared := m.shared.setSlot g identity.sequence
        { m.shared.slot g identity.sequence with completionSequence := identity.sequence }
      consumer := .release identity .uncount
      completions := m.completions + 1 } : Machine).Sane g := by
  have hreleased := h.released
  have hkeeps := Shared.Keeps.setSlot (g := g) m.shared identity.sequence
    (v := { m.shared.slot g identity.sequence with completionSequence := identity.sequence })
    (Nat.le_refl _)
  have hleased := hkeeps.leased
  refine h.consumer_works rfl hkeeps.wake (by rw [hconsumer]; rfl) rfl
    (by rw [hconsumer]; exact fun _ => rfl) (Nat.le_succ _) (fun side => ?_) h.consumed_le ?_
    (fun j hj => by cases hj) fun hwatches => ?_
  · rw [hconsumer]
    change 1 + m.completions = 0 + (m.completions + 1)
    omega
  · rw [hconsumer] at hreleased
    change m.completions + 1 + m.shared.total g leased ≤ m.shared.consumed + 0 at hreleased
    change m.completions + 1 + 0 + (m.shared.setSlot g identity.sequence _).total g
      leased ≤ m.shared.consumed + 0
    omega
  · have hle := hwatches.completions_le
    refine ⟨hwatches.published_le, Nat.le_succ_of_le hle, hwatches.epoch_le, ?_,
      fun _ _ => Nat.lt_succ_of_le hle⟩
    intro _ hsame
    change m.completions + 1 = m.armedCompletions at hsame
    omega

end

end Frames

/-! ## Every step of the receiver -/

/-- **Every step of the receiver keeps the invariant.** -/
theorem Machine.Sane.consume (h : m.Sane g) (call : ConsumerCall)
    (hcareful : (Move.consumer call).Careful m) : (m.consume g call).Sane g := by
  -- steps that end outside `arm_data_wait` and claim no sequence
  have hplain : ∀ {shared : Shared} {consumer : Consumer}, Shared.Keeps g m.shared shared →
      m.consumer.isPlain = true → m.consumer.isArming = false → consumer.isPlain = true →
      consumer.isArming = false → (∀ k, consumer.sequence = some k →
        k = m.shared.consumed + 1 ∧ k ≤ m.shared.published) →
      ({ m with shared := shared, consumer := consumer } : Machine).Sane g := by
    intro shared consumer hkeeps hplain harming hplain' harming' htaking
    obtain ⟨-, -, hwaiting⟩ := working harming
    obtain ⟨hgeneration, hconfirming, hwaiting'⟩ := working harming'
    exact h.consumer_quiet hplain hplain' id (fun hnow => by cases harming'.symm.trans hnow) htaking
      (fun n hn => by cases hgeneration.symm.trans hn) hconfirming hkeeps
      fun e => .inl ((hwaiting' _ e).trans (hwaiting _ e).symm)
  -- steps of `arm_data_wait` that give up, and those that go on
  have harm : ∀ {consumer : Consumer}, m.consumer.isPlain = true → m.consumer.isArming = true →
      consumer.isPlain = true → consumer.sequence = none →
      (∀ n, consumer.generation = some n → m.consumer.generation = some n) →
      (∀ n, consumer ≠ .arm (.confirmAgain n)) →
      (∀ e, consumer.waiting false e = m.consumer.waiting false e ∨
        consumer.waiting false e = .away) →
      ({ m with consumer := consumer } : Machine).Sane g := by
    intro consumer hplain harming hplain' hsequence hgeneration hconfirming hwaiting
    have harmed := h.disarmed harming
    refine h.consumer_quiet hplain hplain' id (fun _ => harmed)
      (fun k hk => by cases hsequence.symm.trans hk) hgeneration hconfirming (.refl _) fun e => ?_
    rw [harmed]
    exact hwaiting e
  unfold Machine.consume
  split
  case h_1 hconsumer =>
    have hidle : m.consumer.isPlain = true := by rw [hconsumer]; rfl
    have hawake : m.consumer.isArming = false := by rw [hconsumer]; rfl
    split
    · exact h
    iterate 2
      exact h.consumer_quiet hidle rfl (fun harmed => by cases harmed) (fun _ => rfl)
        (fun k hk => by cases hk) (fun n hn => by cases hn) (fun n hn => by cases hn) (.refl _)
        fun _ => .inr rfl
    · exact hplain (.refl _) hidle hawake rfl rfl fun k hk => by cases hk
    · exact hplain (.refl _) hidle hawake rfl rfl fun k hk => by cases hk
  case h_2 step hconsumer =>
    have hidle : m.consumer.isPlain = true := by rw [hconsumer]; rfl
    have harming : m.consumer.isArming = true := by rw [hconsumer]; rfl
    have hgiveUp : ∀ {consumer : Consumer}, consumer = .idle ∨ consumer = .arm .load ∨
        consumer = .arm .unpark → ({ m with consumer := consumer } : Machine).Sane g := by
      rintro consumer (rfl | rfl | rfl)
      all_goals
        exact harm hidle harming rfl rfl (fun n hn => by cases hn) (fun n hn => by cases hn)
          fun _ => .inr rfl
    cases step with
    | check =>
      rw [Machine.arm]
      split
      · exact hgiveUp (.inl rfl)
      · exact hgiveUp (.inr (.inl rfl))
    | load => exact h.consumer_load hconsumer
    | park n => exact h.consumer_park hconsumer
    | recheck n | confirm n =>
      rw [Machine.arm]
      split
      · exact hgiveUp (.inr (.inr rfl))
      · refine harm hidle harming rfl rfl ?_ (fun n hn => by cases hn) ?_
        · rw [hconsumer]
          exact fun _ => id
        · rw [hconsumer]
          exact fun _ => .inl rfl
    | drain n =>
      refine h.consumer_drain hidle rfl harming rfl ?_ (fun n hn => by cases hn) ?_ ?_
      · rw [hconsumer]
        exact fun _ => id
      · rw [hconsumer]
        exact fun _ => rfl
      · rw [hconsumer]
        exact fun _ _ hwait => by cases hwait
    | recheckAgain n =>
      rw [Machine.arm]
      split
      · exact hgiveUp (.inr (.inr rfl))
      · rename_i hunavailable
        exact h.consumer_look hconsumer (by simpa using hunavailable)
    | confirmAgain n =>
      rw [Machine.arm]
      split
      · exact hgiveUp (.inr (.inr rfl))
      · rename_i hsame
        rw [not_not] at hsame
        have hblocks : (Move.consumer call).blocks m = some .data := by
          rw [Move.blocks, hconsumer]
          exact if_pos hsame
        exact h.consumer_block hconsumer hsame (hcareful _ hblocks).gate
    | unpark =>
      exact h.consumer_unpark hidle rfl harming rfl rfl (fun n hn => by cases hn) fun _ => rfl
  case h_3 drain hconsumer =>
    have hidle : m.consumer.isPlain = true := by rw [hconsumer]; rfl
    have harming : m.consumer.isArming = true := by rw [hconsumer]; rfl
    cases drain with
    | false | true =>
      exact h.consumer_unpark hidle rfl harming rfl rfl (fun n hn => by cases hn) fun _ => rfl
  case h_4 hconsumer =>
    refine h.consumer_drain (by rw [hconsumer]; rfl) rfl (by rw [hconsumer]; rfl) rfl
      (fun n hn => by cases hn) (fun n hn => by cases hn) ?_ ?_
    · rw [hconsumer]
      exact fun _ => rfl
    · rw [hconsumer]
      exact fun _ _ hwait => by cases hwait
  case h_5 step hconsumer =>
    have hawake : m.consumer.isArming = false := by rw [hconsumer]; rfl
    have hrest : ∀ {shared : Shared} {consumer : Consumer}, m.consumer.isPlain = true →
        Shared.Keeps g m.shared shared → consumer = .idle ∨ consumer = .receive .load ∨
          consumer = .receive .quarantine →
        ({ m with shared := shared, consumer := consumer } : Machine).Sane g := by
      rintro shared consumer hidle hkeeps (rfl | rfl | rfl)
      all_goals
        exact hplain hkeeps hidle hawake rfl rfl fun k hk => by cases hk
    have htake : ∀ {shared : Shared} {step' : ReceiveStep} {k : Nat}, m.consumer.isPlain = true →
        Shared.Keeps g m.shared shared → step' = .hold k ∨ step' = .validate k ∨ step' = .lease k →
        (k = m.shared.consumed + 1 ∧ k ≤ m.shared.published) →
        ({ m with shared := shared, consumer := .receive step' } : Machine).Sane g := by
      rintro shared step' k hidle hkeeps (rfl | rfl | rfl) hk
      all_goals
        refine hplain hkeeps hidle hawake rfl rfl fun j hj => ?_
        obtain rfl := Option.some.inj hj
        exact hk
    cases step with
    | check =>
      rw [Machine.receive]
      split
      · exact hrest (by rw [hconsumer]; rfl) (.refl _) (.inl rfl)
      · exact hrest (by rw [hconsumer]; rfl) (.refl _) (.inr (.inl rfl))
    | load =>
      rw [Machine.receive]
      split
      · exact hrest (by rw [hconsumer]; rfl) (.refl _) (.inl rfl)
      split
      · exact hrest (by rw [hconsumer]; rfl) (.refl _) (.inl rfl)
      · rename_i sequence hsequence
        obtain rfl := checkedSucc_eq_some hsequence
        have hconsumed := h.consumed_le
        exact htake (by rw [hconsumer]; rfl) (.refl _) (.inl rfl) ⟨rfl, by omega⟩
    | hold k =>
      have hk := h.taking k (by rw [hconsumer]; rfl)
      rw [Machine.receive]
      split
      · exact hrest (by rw [hconsumer]; rfl) (.refl _) (.inl rfl)
      · refine htake (by rw [hconsumer]; rfl) (.setSlot _ _ ?_) (.inr (.inl rfl)) hk
        rw [leased_eq_zero (by simp)]
        exact Nat.zero_le _
    | validate k =>
      have hk := h.taking k (by rw [hconsumer]; rfl)
      rw [Machine.receive]
      split
      · exact hrest (by rw [hconsumer]; rfl) (.refl _) (.inr (.inr rfl))
      split
      · exact htake (by rw [hconsumer]; rfl) (.refl _) (.inr (.inr rfl)) hk
      · exact hrest (by rw [hconsumer]; rfl) (.refl _) (.inl rfl)
    | quarantine =>
      refine hrest (by rw [hconsumer]; rfl) ?_ (.inl rfl)
      exact ⟨rfl, rfl, rfl, fun side => by cases side <;> rfl, Nat.le_refl _⟩
    | lease k => exact h.receive_lease hconsumer
    | advance k => exact h.receive_advance hconsumer
    | count => exact h.move_leases _ (.inl ⟨hconsumer, rfl, rfl⟩)
  case h_6 identity step hconsumer =>
    have hawake : m.consumer.isArming = false := by rw [hconsumer]; rfl
    have hrest : ∀ {consumer : Consumer}, m.consumer.isPlain = true → consumer = .idle ∨
        consumer = .release identity .validate ∨ consumer = .release identity .take →
        ({ m with consumer := consumer } : Machine).Sane g := by
      rintro consumer hidle (rfl | rfl | rfl)
      all_goals
        exact hplain (.refl _) hidle hawake rfl rfl fun k hk => by cases hk
    cases step with
    | check =>
      rw [Machine.release]
      split
      · exact hrest (by rw [hconsumer]; rfl) (.inl rfl)
      · exact hrest (by rw [hconsumer]; rfl) (.inr (.inl rfl))
    | validate =>
      rw [Machine.release]
      split
      · exact hrest (by rw [hconsumer]; rfl) (.inl rfl)
      · exact hrest (by rw [hconsumer]; rfl) (.inr (.inr rfl))
    | take =>
      rw [Machine.release]
      split
      · exact hrest (by rw [hconsumer]; rfl) (.inl rfl)
      · rename_i hleased
        exact h.release_take hconsumer (not_not.mp hleased)
    | complete => exact h.release_complete hconsumer
    | uncount => exact h.move_leases _ (.inr ⟨⟨identity, hconsumer⟩, rfl⟩)
  case h_7 side step hconsumer =>
    split
    · rename_i m' step' hsignal
      have hsane := h.consumer_signal hconsumer (.signal side step') (by rw [hsignal]; rfl)
      rw [hsignal] at hsane
      exact hsane
    · rename_i m' hsignal
      have hsane := h.consumer_signal hconsumer side.next (by rw [hsignal]; rfl)
      rw [hsignal] at hsane
      cases side <;> exact hsane

end MagicContext.Ring
