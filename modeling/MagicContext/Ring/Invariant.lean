import Mathlib.Algebra.BigOperators.Group.Finset.Piecewise
import Mathlib.Algebra.Order.BigOperators.Group.Finset
import MagicContext.Ring.Run

/-!
# The invariant of a ring

Five cursors, a table of slots used round and round, and runs of arena bytes of every length have
to agree after every operation.  The invariant describes the table through sequences rather than
indices: the `depth` sequences after `completed` have one slot each, those up to `published` hold a
frame, the next one may hold the producer's reservation, and the others are free.

## What is here

* `Slot.Free`, `Control.Live`, `Reserves` — what the slot of a sequence holds in each of the three
  cases, and `Wf`, the invariant.
* `Wf.scan` — following the completed frames never fails but for exhausted sequences, and stops for
  want of a completed frame, not of its bound.
* One preservation lemma for each change of the control words: `Wf.reclaimMany`, `Wf.reserve`,
  `Wf.publish`, `Wf.abort`, `Wf.lease`, `Wf.release`.
-/

namespace MagicContext.Ring

open Word Control Slot

/-! ## Slots by sequence -/

variable {g : Grant} {c : Control} {k : Nat}

/-- Sequences of one lap have different slots. -/
theorem slotIndex_inj {lo k' : Nat} (hk : lo < k) (hk' : k ≤ lo + g.descriptorDepth)
    (hj : lo < k') (hj' : k' ≤ lo + g.descriptorDepth) (h : g.slotIndex k = g.slotIndex k') :
    k = k' := by
  have hpred : k - 1 = k' - 1 :=
    Circular.mod_inj lo (by omega) (by omega) (by omega) (by omega) h
  omega

theorem slotIndex_lt (k : Nat) : g.slotIndex k < g.descriptorDepth := Nat.mod_lt _ g.depth_pos

/-- A lap later the slot is the same. -/
theorem slotIndex_add_depth (hk : 0 < k) : g.slotIndex (k + g.descriptorDepth) = g.slotIndex k := by
  have hpred : k + g.descriptorDepth - 1 = k - 1 + g.descriptorDepth := by omega
  rw [Grant.slotIndex, hpred, Nat.add_mod_right, Grant.slotIndex]

@[simp] theorem slot_setSlot_self (k : Nat) (v : Slot) : (c.setSlot g k v).slot g k = v := by
  simp [slot, setSlot]

@[simp] theorem setSlot_setSlot (k : Nat) (v v' : Slot) :
    (c.setSlot g k v).setSlot g k v' = c.setSlot g k v' := by
  simp [setSlot]

/-- Replacing a slot leaves the other sequences of the lap alone. -/
theorem slot_setSlot_of_ne {k' : Nat} {v : Slot} (lo : Nat) (hk : lo < k)
    (hk' : k ≤ lo + g.descriptorDepth) (hj : lo < k') (hj' : k' ≤ lo + g.descriptorDepth)
    (hne : k' ≠ k) : (c.setSlot g k v).slot g k' = c.slot g k' := by
  have hindex : g.slotIndex k' ≠ g.slotIndex k :=
    fun h => hne (slotIndex_inj hj hj' hk hk' h)
  simp [slot, setSlot, hindex]

/-- The sum of a quantity over all slots. -/
def Control.total (c : Control) (g : Grant) (f : Slot → Nat) : Nat :=
  ∑ i ∈ Finset.range g.descriptorDepth, f (c.slots i)

/-- Replacing a slot exchanges its share of a sum. -/
theorem total_setSlot (k : Nat) (v : Slot) (f : Slot → Nat) :
    (c.setSlot g k v).total g f + f (c.slot g k) = c.total g f + f v := by
  have hmem : g.slotIndex k ∈ Finset.range g.descriptorDepth :=
    Finset.mem_range.mpr (slotIndex_lt k)
  have hupdate : ∀ i, f ((c.setSlot g k v).slots i) =
      Function.update (fun i => f (c.slots i)) (g.slotIndex k) (f v) i := by
    intro i
    by_cases hi : i = g.slotIndex k
    · subst hi
      simp [setSlot]
    · simp [setSlot, hi]
  have hnew : (c.setSlot g k v).total g f =
      f v + ∑ i ∈ Finset.range g.descriptorDepth \ {g.slotIndex k}, f (c.slots i) :=
    (Finset.sum_congr rfl fun i _ => hupdate i).trans
      (Finset.sum_update_of_mem hmem (fun i => f (c.slots i)) (f v))
  have hold : ∑ i ∈ Finset.range g.descriptorDepth \ {g.slotIndex k}, f (c.slots i) +
      f (c.slot g k) = c.total g f := by
    rw [total, ← Finset.sum_sdiff (Finset.singleton_subset_iff.mpr hmem),
      Finset.sum_singleton, slot]
  omega

/-- One for a leased slot. -/
def Slot.leased (slot : Slot) : Nat := if slot.state = .receiverLeased then 1 else 0

/-! ## The invariant -/

/-- A slot without a frame. -/
structure Slot.Free (slot : Slot) : Prop where
  state : slot.state = .free
  completion : slot.completionSequence = 0
  len : slot.reservationLen = 0

/-- The descriptor is the one a producer publishes for the sequence. -/
structure Describes (g : Grant) (k : Nat) (d : FrameDescriptor) : Prop where
  eq : d = publishedDescriptor g.arenaBytes (g.identity k) d.wireHeader d.allocationStart
    d.allocationLen d.bodyLen
  body_le : d.bodyLen ≤ d.allocationLen
  len_le : d.allocationLen ≤ g.arenaBytes
  frame_le : d.bodyLen ≤ maxFrameBytes
  end_lt : d.allocationStart + d.allocationLen < u64Limit
  declared : d.wireHeader.declaredLen = d.bodyLen
  version : d.wireHeader[4] = 2

/-- What the slot of a frame that is not reclaimed holds. -/
structure Control.Live (c : Control) (g : Grant) (k : Nat) : Prop where
  describes : Describes g k (c.slot g k).descriptor
  len : (c.slot g k).reservationLen = (c.slot g k).descriptor.allocationLen
  waiting : c.consumed < k → (c.slot g k).state = .published ∧ (c.slot g k).completionSequence = 0
  taken : k ≤ c.consumed →
    (c.slot g k).state = .receiverLeased ∧ (c.slot g k).completionSequence = 0 ∨
      (c.slot g k).state = .releasePending ∧ (c.slot g k).completionSequence = k

/-- Where in the arena the frame after `k` starts. -/
def Control.position (c : Control) (g : Grant) (k : Nat) : Nat :=
  if k < c.published then (c.slot g (k + 1)).descriptor.allocationStart else c.arenaWrite

/-- What an outstanding reservation has claimed. -/
structure Reserves (g : Grant) (c : Control) (r : Reservation) : Prop where
  sequence_eq : r.sequence = c.published + 1
  sequence_lt : c.published + 1 < u64Limit
  room : c.published < c.completed + g.descriptorDepth
  state : (c.slot g (c.published + 1)).state = .producerReserved
  completion : (c.slot g (c.published + 1)).completionSequence = 0
  len : (c.slot g (c.published + 1)).reservationLen = r.plan.allocationLen
  plan_eq : r.plan = SpanPlan.ofRun g.arenaBytes c.arenaWrite r.plan.allocationLen
  len_le : r.plan.allocationLen ≤ maxFrameBytes
  fits : c.arenaWrite + r.plan.allocationLen ≤ c.arenaReclaimed + g.arenaBytes
  end_lt : c.arenaWrite + r.plan.allocationLen < u64Limit

/-- **The invariant of the control words.** -/
structure Wf (g : Grant) (c : Control) (r : Option Reservation) : Prop where
  completed_le : c.completed ≤ c.consumed
  consumed_le : c.consumed ≤ c.published
  published_le : c.published ≤ c.completed + g.descriptorDepth
  published_lt : c.published < u64Limit
  write_lt : c.arenaWrite < u64Limit
  write_le : c.arenaWrite ≤ c.arenaReclaimed + g.arenaBytes
  /-- The oldest frame starts at the reclaim cursor, and each frame where the one before it
  ends. -/
  reclaimed_eq : c.position g c.completed = c.arenaReclaimed
  position_succ : ∀ k, c.completed ≤ k → k < c.published →
    c.position g (k + 1) = c.position g k + (c.slot g (k + 1)).descriptor.allocationLen
  /-- What the slots hold. -/
  live : ∀ k, c.completed < k → k ≤ c.published → c.Live g k
  idle : ∀ k, c.published < k → k ≤ c.completed + g.descriptorDepth →
    (r.isSome → k ≠ c.published + 1) → (c.slot g k).Free
  reserved : ∀ res, r = some res → Reserves g c res
  /-- The lease count. -/
  leases : c.total g Slot.leased = c.activeLeases
  leases_le : c.activeLeases ≤ g.maxLeases

theorem Grant.arena_pos (g : Grant) : 0 < g.arenaBytes :=
  Nat.lt_of_lt_of_le (by decide) g.arena_min

theorem Grant.arena_lt (g : Grant) : g.arenaBytes < u64Limit :=
  Nat.lt_of_le_of_lt (Nat.le_add_left _ _) g.total_lt

theorem Wf.fresh : Wf g Shared.fresh.toControl none where
  completed_le := Nat.le_refl _
  consumed_le := Nat.le_refl _
  published_le := Nat.zero_le _
  published_lt := by decide
  write_lt := by decide
  write_le := Nat.zero_le _
  reclaimed_eq := rfl
  position_succ := fun k _ hk => absurd hk (Nat.not_lt_zero k)
  live := fun k hk hk' => absurd hk' (Nat.not_le_of_lt hk)
  idle := fun _ _ _ _ => ⟨rfl, rfl, rfl⟩
  reserved := fun _ h => by cases h
  leases := Finset.sum_eq_zero fun _ _ => rfl
  leases_le := Nat.zero_le _

/-! ## Consequences -/

/-- A live frame's descriptor passes the receiver's validation. -/
theorem Describes.validate {d : FrameDescriptor} (h : Describes g k d) (hk : k ≠ 0) :
    d.validate (g.identity k) g.arenaBytes =
      .ok { wireHeader := d.wireHeader, identity := g.identity k, bodyLen := d.bodyLen,
            allocationStart := d.allocationStart, allocationLen := d.allocationLen,
            spanCount := (SpanPlan.ofRun g.arenaBytes d.allocationStart d.bodyLen).spanCount,
            span0 := (SpanPlan.ofRun g.arenaBytes d.allocationStart d.bodyLen).span0,
            span1 := (SpanPlan.ofRun g.arenaBytes d.allocationStart d.bodyLen).span1 } := by
  have hvalid := validate_published (g.identity k) d.wireHeader
    g.arena_pos g.arena_lt hk h.body_le h.len_le h.frame_le h.end_lt h.declared h.version
  rw [← h.eq] at hvalid
  exact hvalid

variable {r : Option Reservation}

theorem position_published : c.position g c.published = c.arenaWrite := by
  rw [position, if_neg (Nat.lt_irrefl _)]

theorem position_of_lt (h : k < c.published) :
    c.position g k = (c.slot g (k + 1)).descriptor.allocationStart := by
  rw [position, if_pos h]

theorem position_congr {c' : Control} (hpublished : c'.published = c.published)
    (hwrite : c'.arenaWrite = c.arenaWrite)
    (hslot : k < c.published → c'.slot g (k + 1) = c.slot g (k + 1)) :
    c'.position g k = c.position g k := by
  rw [position, position, hpublished, hwrite]
  split
  · rename_i hlt
    rw [hslot hlt]
  · rfl

theorem Wf.position_mono (h : Wf g c r) {k' : Nat} (hk : c.completed ≤ k) (hkk' : k ≤ k')
    (hk' : k' ≤ c.published) : c.position g k ≤ c.position g k' := by
  induction k', hkk' using Nat.le_induction with
  | base => exact Nat.le_refl _
  | succ n hkn ih =>
    rw [h.position_succ n (by omega) (by omega)]
    omega

theorem Wf.reclaimed_le_position (h : Wf g c r) (hk : c.completed ≤ k)
    (hk' : k ≤ c.published) : c.arenaReclaimed ≤ c.position g k := by
  rw [← h.reclaimed_eq]
  exact h.position_mono (Nat.le_refl _) hk hk'

theorem Wf.position_le_write (h : Wf g c r) (hk : c.completed ≤ k)
    (hk' : k ≤ c.published) : c.position g k ≤ c.arenaWrite := by
  rw [← position_published (g := g) (c := c)]
  exact h.position_mono hk hk' (Nat.le_refl _)

/-- The slot after the last published frame has not completed that sequence. -/
theorem Wf.completion_next (h : Wf g c r) :
    (c.slot g (c.published + 1)).completionSequence ≠ c.published + 1 := by
  have hdepth := g.depth_pos
  rcases Nat.lt_or_eq_of_le h.published_le with hlt | heq
  · -- a slot of the current lap: reserved or free
    rcases hr : r with _ | res
    · have hfree := h.idle (c.published + 1) (Nat.lt_succ_self _) hlt (by simp [hr])
      rw [hfree.completion]
      omega
    · rw [(h.reserved res hr).completion]
      omega
  · -- the table is full: the slot is that of the oldest frame
    have hslot : c.slot g (c.published + 1) = c.slot g (c.completed + 1) := by
      have hnext : c.published + 1 = c.completed + 1 + g.descriptorDepth := by omega
      rw [slot, hnext, slotIndex_add_depth (Nat.succ_pos _), slot]
    rw [hslot]
    have hlive := h.live (c.completed + 1) (Nat.lt_succ_self _) (by omega)
    rcases Nat.lt_or_ge c.consumed (c.completed + 1) with hwait | htaken
    · rw [(hlive.waiting hwait).2]
      omega
    · rcases hlive.taken htaken with ⟨-, hzero⟩ | ⟨-, hself⟩
      · rw [hzero]
        omega
      · rw [hself]
        omega

/-! ## Following the completed frames -/

/-- **The scan of completed frames.**  It can only fail for want of sequences; otherwise it returns
the last of a run of released frames and their length together, and it stopped because the next
frame is not completed. -/
theorem Wf.scan (h : Wf g c r) (bound : Nat) : ∀ {last runLen : Nat}, c.completed ≤ last →
    last ≤ c.consumed → c.published < last + bound →
    c.arenaReclaimed + runLen = c.position g last →
    (∀ k, c.completed < k → k ≤ last → (c.slot g k).state = .releasePending) →
    c.scanCompleted g bound last runLen = .error .sequenceExhausted ∨
      ∃ last' runLen', c.scanCompleted g bound last runLen = .ok (last', runLen') ∧
        c.completed ≤ last' ∧ last' ≤ c.consumed ∧
        c.arenaReclaimed + runLen' = c.position g last' ∧
        (∀ k, c.completed < k → k ≤ last' → (c.slot g k).state = .releasePending) ∧
        (c.slot g (last' + 1)).completionSequence ≠ last' + 1 := by
  have hconsumed := h.consumed_le
  induction bound with
  | zero =>
    intro last runLen hlast hlast' hbound
    omega
  | succ bound ih =>
    intro last runLen hlast hlast' hbound hrun hpending
    rw [scanCompleted]
    rcases hnext : checkedSucc last with _ | next
    · exact Or.inl rfl
    obtain rfl := checkedSucc_eq_some hnext
    simp only
    by_cases hcompletion : (c.slot g (last + 1)).completionSequence = last + 1
    · -- the slot completes its sequence, so it holds a released frame
      have hpublished : last < c.published := by
        by_contra hge
        have heq : last = c.published := by omega
        subst heq
        exact h.completion_next hcompletion
      have hlive := h.live (last + 1) (by omega) (by omega)
      have hstate : (c.slot g (last + 1)).state = .releasePending ∧ last + 1 ≤ c.consumed := by
        rcases Nat.lt_or_ge c.consumed (last + 1) with hwait | htaken
        · have hzero := (hlive.waiting hwait).2
          omega
        · rcases hlive.taken htaken with ⟨-, hzero⟩ | ⟨hstate, -⟩
          · omega
          · exact ⟨hstate, htaken⟩
      have hposition := position_of_lt (g := g) hpublished
      have hsucc := h.position_succ last hlast hpublished
      have hle := h.position_le_write (k := last + 1) (by omega) (by omega)
      have hwrite := h.write_lt
      have hstart : checkedAdd c.arenaReclaimed runLen = some (c.arenaReclaimed + runLen) :=
        checkedAdd_of_lt (by omega)
      have hlen : checkedAdd runLen (c.slot g (last + 1)).descriptor.allocationLen =
          some (runLen + (c.slot g (last + 1)).descriptor.allocationLen) :=
        checkedAdd_of_lt (by omega)
      rw [if_neg (by simpa using hcompletion), if_neg (by simpa using hstate.1),
        hlive.describes.validate (Nat.succ_ne_zero _), hstart]
      simp only
      rw [if_neg (by omega), hlen]
      refine ih (by omega) hstate.2 (by omega) (by omega) fun k hk hk' => ?_
      rcases Nat.lt_or_eq_of_le hk' with hlt | rfl
      · exact hpending k hk (by omega)
      · exact hstate.1
    · rw [if_pos hcompletion]
      exact Or.inr ⟨last, runLen, rfl, hlast, hlast', hrun, hpending, hcompletion⟩

/-! ## Reclaiming -/

/-- A live frame stays live where its slot and the consumer's cursor are unchanged. -/
theorem Control.Live.congr {c' : Control} (h : c.Live g k)
    (hslot : c'.slot g k = c.slot g k) (hconsumed : c'.consumed = c.consumed) : c'.Live g k where
  describes := hslot ▸ h.describes
  len := hslot ▸ h.len
  waiting := by
    rw [hslot, hconsumed]
    exact h.waiting
  taken := by
    rw [hslot, hconsumed]
    exact h.taken

/-- A reservation keeps its claim where its slot and the cursors around it allow. -/
theorem Reserves.congr {c' : Control} {res : Reservation} (h : Reserves g c res)
    (hslot : c'.slot g (c.published + 1) = c.slot g (c.published + 1))
    (hpublished : c'.published = c.published) (hwrite : c'.arenaWrite = c.arenaWrite)
    (hcompleted : c.completed ≤ c'.completed) (hreclaimed : c.arenaReclaimed ≤ c'.arenaReclaimed) :
    Reserves g c' res where
  sequence_eq := hpublished ▸ h.sequence_eq
  sequence_lt := hpublished ▸ h.sequence_lt
  room := by have := h.room; omega
  state := by rw [hpublished, hslot]; exact h.state
  completion := by rw [hpublished, hslot]; exact h.completion
  len := by rw [hpublished, hslot]; exact h.len
  plan_eq := hwrite ▸ h.plan_eq
  len_le := h.len_le
  fits := by have := h.fits; omega
  end_lt := hwrite ▸ h.end_lt

/-- Frees the oldest frame and its bytes. -/
def Control.reclaimOne (c : Control) (g : Grant) : Control :=
  (c.setSlot g (c.completed + 1) (c.slot g (c.completed + 1)).freed).setReclaim (c.completed + 1)
    (c.arenaReclaimed + (c.slot g (c.completed + 1)).descriptor.allocationLen)

/-- Freeing the oldest frame leaves the rest of its lap alone. -/
theorem slot_reclaimOne (hk : c.completed + 1 < k)
    (hk' : k ≤ c.completed + g.descriptorDepth) : (c.reclaimOne g).slot g k = c.slot g k :=
  slot_setSlot_of_ne c.completed (Nat.lt_succ_self _) (by omega) (by omega) hk' (by omega)

/-- **Reclaiming the oldest frame, once it is released, keeps the invariant.** -/
theorem Wf.reclaimOne (h : Wf g c r) (hlt : c.completed < c.consumed)
    (hpending : (c.slot g (c.completed + 1)).state = .releasePending) :
    Wf g (c.reclaimOne g) r := by
  have hconsumed := h.consumed_le
  have hdepth := h.published_le
  have hposition : ∀ k, c.completed + 1 ≤ k → k ≤ c.published →
      (c.reclaimOne g).position g k = c.position g k := by
    intro k hk hk'
    exact position_congr rfl rfl fun hlt => slot_reclaimOne (by omega) (by omega)
  have hlen : c.position g (c.completed + 1) =
      c.arenaReclaimed + (c.slot g (c.completed + 1)).descriptor.allocationLen := by
    rw [h.position_succ c.completed (Nat.le_refl _) (by omega), h.reclaimed_eq]
  refine
    { completed_le := hlt
      consumed_le := h.consumed_le
      published_le := ?_
      published_lt := h.published_lt
      write_lt := h.write_lt
      write_le := ?_
      reclaimed_eq := ?_
      position_succ := ?_
      live := ?_
      idle := ?_
      reserved := ?_
      leases := ?_
      leases_le := h.leases_le }
  · change c.published ≤ c.completed + 1 + g.descriptorDepth
    omega
  · have hwrite := h.write_le
    change c.arenaWrite ≤ c.arenaReclaimed + _ + g.arenaBytes
    omega
  · exact (hposition (c.completed + 1) (Nat.le_refl _) (by omega)).trans hlen
  · intro k hk hk'
    change c.completed + 1 ≤ k at hk
    change k < c.published at hk'
    rw [hposition (k + 1) (by omega) (by omega), hposition k hk (by omega),
      slot_reclaimOne (by omega) (by omega)]
    exact h.position_succ k (by omega) hk'
  · intro k hk hk'
    change c.completed + 1 < k at hk
    change k ≤ c.published at hk'
    exact (h.live k (by omega) hk').congr (slot_reclaimOne hk (by omega)) rfl
  · intro k hk hk' hres
    change c.published < k at hk
    change k ≤ c.completed + 1 + g.descriptorDepth at hk'
    rcases Nat.lt_or_eq_of_le hk' with hlap | rfl
    · rw [slot_reclaimOne (by omega) (by omega)]
      exact h.idle k hk (by omega) hres
    · -- the sequence that takes the freed slot over
      have hslot : (c.reclaimOne g).slot g (c.completed + 1 + g.descriptorDepth) =
          (c.slot g (c.completed + 1)).freed := by
        rw [slot, slotIndex_add_depth (Nat.succ_pos _)]
        exact slot_setSlot_self _ _
      rw [hslot]
      exact ⟨rfl, rfl, rfl⟩
  · intro res hres
    have hreserves := h.reserved res hres
    have hroom := hreserves.room
    exact hreserves.congr (slot_reclaimOne (by omega) (by omega)) rfl rfl (Nat.le_succ _)
      (Nat.le_add_right _ _)
  · have htotal := total_setSlot (g := g) (c := c) (c.completed + 1)
      (c.slot g (c.completed + 1)).freed leased
    have hzero : (c.slot g (c.completed + 1)).leased = 0 := by
      rw [leased, if_neg (by simp [hpending])]
    have hfreed : (c.slot g (c.completed + 1)).freed.leased = 0 := rfl
    have hleases := h.leases
    change (c.setSlot g (c.completed + 1) _).total g leased = c.activeLeases
    omega

/-- Freeing slots does not look at the reclaim cursors. -/
theorem freeSlots_setReclaim (completed reclaimed first n : Nat) :
    (c.setReclaim completed reclaimed).freeSlots g first n =
      (c.freeSlots g first n).setReclaim completed reclaimed := by
  induction n generalizing c first with
  | zero => rfl
  | succ n ih => exact ih (c := c.setSlot g first (c.slot g first).freed) (first + 1)

/-- **Reclaiming a run of released frames keeps the invariant.** -/
theorem Wf.reclaimMany (h : Wf g c r) {n : Nat} (hn : c.completed + n ≤ c.consumed)
    (hpending : ∀ k, c.completed < k → k ≤ c.completed + n → (c.slot g k).state = .releasePending) :
    Wf g ((c.freeSlots g (c.completed + 1) n).setReclaim (c.completed + n)
      (c.position g (c.completed + n))) r := by
  induction n generalizing c with
  | zero =>
    have hsame : (c.freeSlots g (c.completed + 1) 0).setReclaim c.completed c.arenaReclaimed = c :=
      rfl
    simp only [Nat.add_zero, h.reclaimed_eq, hsame]
    exact h
  | succ n ih =>
    have hconsumed := h.consumed_le
    have hdepth := h.published_le
    have hone := h.reclaimOne (by omega) (hpending _ (by omega) (by omega))
    have hnext : c.completed + (n + 1) = c.completed + 1 + n := by omega
    have hmany := ih hone (by change c.completed + 1 + n ≤ c.consumed; omega) (fun k hk hk' => by
      change c.completed + 1 < k at hk
      change k ≤ c.completed + 1 + n at hk'
      rw [slot_reclaimOne hk (by omega)]
      exact hpending k (by omega) (by omega))
    have hlast : (c.reclaimOne g).position g (c.completed + 1 + n) =
        c.position g (c.completed + 1 + n) :=
      position_congr rfl rfl fun hlt => slot_reclaimOne (by omega) (by omega)
    change Wf g (((c.reclaimOne g).freeSlots g (c.completed + 1 + 1) n).setReclaim
      (c.completed + 1 + n) ((c.reclaimOne g).position g (c.completed + 1 + n))) r at hmany
    rw [hlast, Control.reclaimOne, freeSlots_setReclaim] at hmany
    rw [hnext]
    exact hmany

/-! ## One change of a slot at a time -/

/-- The slot that is next to be published can be replaced without moving any frame. -/
theorem Wf.slot_next (h : Wf g c r) (hroom : c.published < c.completed + g.descriptorDepth)
    (v : Slot) (hk : c.completed < k) (hk' : k ≤ c.completed + g.descriptorDepth)
    (hne : k ≠ c.published + 1) : (c.setSlot g (c.published + 1) v).slot g k = c.slot g k := by
  have hcompleted := h.completed_le
  have hconsumed := h.consumed_le
  exact slot_setSlot_of_ne c.completed (by omega) (by omega) hk hk' hne

theorem Wf.position_next (h : Wf g c r) (hroom : c.published < c.completed + g.descriptorDepth)
    (v : Slot) (hk : c.completed ≤ k) :
    (c.setSlot g (c.published + 1) v).position g k = c.position g k :=
  position_congr rfl rfl fun _ => h.slot_next hroom v (by omega) (by omega) (by omega)

/-- **Replacing the slot that is next to be published** keeps the invariant, where the slot is free
or claimed by the reservation afterwards. -/
theorem Wf.replaceNext (h : Wf g c r) (hroom : c.published < c.completed + g.descriptorDepth)
    {v : Slot} {r' : Option Reservation} (hold : (c.slot g (c.published + 1)).leased = 0)
    (hnew : v.leased = 0) (hfree : r' = none → v.Free)
    (hreserved : ∀ res, r' = some res → Reserves g (c.setSlot g (c.published + 1) v) res) :
    Wf g (c.setSlot g (c.published + 1) v) r' := by
  have hconsumed := h.consumed_le
  have hcompleted := h.completed_le
  refine
    { completed_le := h.completed_le
      consumed_le := h.consumed_le
      published_le := h.published_le
      published_lt := h.published_lt
      write_lt := h.write_lt
      write_le := h.write_le
      reclaimed_eq := ?_
      position_succ := ?_
      live := ?_
      idle := ?_
      reserved := hreserved
      leases := ?_
      leases_le := h.leases_le }
  · exact (h.position_next hroom v (Nat.le_refl _)).trans h.reclaimed_eq
  · intro k hk hk'
    change c.completed ≤ k at hk
    change k < c.published at hk'
    rw [h.position_next hroom v (by omega), h.position_next hroom v hk,
      h.slot_next hroom v (by omega) (by omega) (by omega)]
    exact h.position_succ k hk hk'
  · intro k hk hk'
    change k ≤ c.published at hk'
    exact (h.live k hk hk').congr (h.slot_next hroom v hk (by omega) (by omega)) rfl
  · intro k hk hk' hres
    change c.published < k at hk
    rcases eq_or_ne k (c.published + 1) with rfl | hne
    · rw [slot_setSlot_self]
      refine hfree ?_
      rcases r' with _ | res
      · rfl
      · exact absurd rfl (hres rfl)
    · rw [h.slot_next hroom v (by omega) hk' hne]
      exact h.idle k hk hk' fun _ => hne
  · have htotal := total_setSlot (g := g) (c := c) (c.published + 1) v leased
    have hleases := h.leases
    change (c.setSlot g (c.published + 1) v).total g leased = c.activeLeases
    omega

theorem leased_eq_zero {slot : Slot} (h : slot.state ≠ .receiverLeased) : slot.leased = 0 := by
  rw [leased, if_neg h]

/-- **Claiming the slot and the bytes of a reservation keeps the invariant.** -/
theorem Wf.reserve (h : Wf g c r) {bound : Nat} {plan : SpanPlan} {wireHeader : WireHeader}
    (hroom : c.published < c.completed + g.descriptorDepth)
    (hlimit : c.published + 1 < u64Limit)
    (hfree : (c.slot g (c.published + 1)).state = .free)
    (hplan : SpanPlan.reserve g.arenaBytes c.arenaWrite c.arenaReclaimed bound = .ok plan) :
    Wf g (c.setSlot g (c.published + 1) { c.slot g (c.published + 1) with
        state := .producerReserved, reservationLen := plan.allocationLen })
      (some ⟨plan, c.published + 1, 0, wireHeader⟩) := by
  obtain ⟨rfl, -, hlen, -, hfits, hend⟩ := SpanPlan.reserve_eq_ok hplan
  -- the slot was free before, so no reservation was outstanding
  have hidle : (c.slot g (c.published + 1)).Free := by
    rcases hr : r with _ | res
    · exact h.idle _ (Nat.lt_succ_self _) hroom (by simp [hr])
    · rw [(h.reserved res hr).state] at hfree
      cases hfree
  refine h.replaceNext hroom (leased_eq_zero (by simp [hidle.state])) (leased_eq_zero (by simp))
    (fun hnone => by cases hnone) fun res hres => ?_
  obtain rfl := Option.some.inj hres
  exact
    { sequence_eq := rfl
      sequence_lt := hlimit
      room := hroom
      state := congrArg state (slot_setSlot_self _ _)
      completion :=
        (congrArg completionSequence (slot_setSlot_self _ _)).trans hidle.completion
      len := congrArg reservationLen (slot_setSlot_self _ _)
      plan_eq := rfl
      len_le := hlen
      fits := hfits
      end_lt := hend }

/-- **Giving a reservation back keeps the invariant.** -/
theorem Wf.abort {res : Reservation} (h : Wf g c (some res)) :
    Wf g (c.setSlot g res.sequence
      { c.slot g res.sequence with reservationLen := 0, state := .free }) none := by
  have hres := h.reserved res rfl
  rw [hres.sequence_eq]
  exact h.replaceNext hres.room (leased_eq_zero (by simp [hres.state])) (leased_eq_zero (by simp))
    (fun _ => ⟨rfl, hres.completion, rfl⟩) (fun _ hnone => by cases hnone)

/-- **Publishing a frame keeps the invariant.** -/
theorem Wf.publish {res : Reservation} (h : Wf g c (some res)) {d : FrameDescriptor}
    (hd : Describes g (c.published + 1) d) (hstart : d.allocationStart = c.arenaWrite)
    (hlen : d.allocationLen = res.plan.allocationLen) :
    Wf g (c.publish g (c.published + 1) d (c.arenaWrite + res.plan.allocationLen)) none := by
  have hres := h.reserved res rfl
  have hroom := hres.room
  have hcompleted := h.completed_le
  have hconsumed := h.consumed_le
  generalize hv : ({ c.slot g (c.published + 1) with descriptor := d, state := .published } : Slot)
    = v
  generalize hc' : c.publish g (c.published + 1) d (c.arenaWrite + res.plan.allocationLen) = c'
  have hself : c'.slot g (c.published + 1) = v := by
    rw [← hc', ← hv]
    exact slot_setSlot_self _ _
  have hslot : ∀ {k}, c.completed < k → k ≤ c.completed + g.descriptorDepth →
      k ≠ c.published + 1 → c'.slot g k = c.slot g k := by
    rw [← hc']
    exact fun hk hk' hne => h.slot_next hroom _ hk hk' hne
  have hposition : ∀ {k}, c.completed ≤ k → k ≤ c.published → c'.position g k = c.position g k := by
    intro k hk hk'
    rcases Nat.lt_or_eq_of_le hk' with hlt | rfl
    · rw [position_of_lt (c := c') (by rw [← hc']; exact Nat.lt_succ_of_lt hlt),
        position_of_lt hlt, hslot (by omega) (by omega) (by omega)]
    · -- the new frame starts where the last one ended
      rw [position_of_lt (c := c') (by rw [← hc']; exact Nat.lt_succ_self _), hself, ← hv,
        position_published]
      exact hstart
  have hlive : ∀ k, c.completed < k → k ≤ c.published + 1 → c'.Live g k := by
    intro k hk hk'
    rcases Nat.lt_or_eq_of_le hk' with hlt | rfl
    · exact (h.live k hk (by omega)).congr (hslot hk (by omega) (by omega)) (by rw [← hc']; rfl)
    · refine ⟨?_, ?_, fun _ => ?_, fun htaken => ?_⟩
      · rw [hself, ← hv]
        exact hd
      · rw [hself, ← hv]
        exact hres.len.trans hlen.symm
      · rw [hself, ← hv]
        exact ⟨rfl, hres.completion⟩
      · rw [← hc'] at htaken
        change c.published + 1 ≤ c.consumed at htaken
        omega
  have htotal := total_setSlot (g := g) (c := c) (c.published + 1) v leased
  have hold : (c.slot g (c.published + 1)).leased = 0 := leased_eq_zero (by simp [hres.state])
  have hnew : v.leased = 0 := by
    rw [← hv]
    exact leased_eq_zero (by simp)
  have hleases := h.leases
  have hposition' : c'.position g (c.published + 1) = c.arenaWrite + res.plan.allocationLen := by
    rw [position, if_neg (by rw [← hc']; exact Nat.lt_irrefl _), ← hc']
    rfl
  have htotal' : c'.total g leased = (c.setSlot g (c.published + 1) v).total g leased := by
    rw [← hc', ← hv]
    rfl
  subst hc'
  refine
    { completed_le := h.completed_le
      consumed_le := Nat.le_succ_of_le h.consumed_le
      published_le := hroom
      published_lt := hres.sequence_lt
      write_lt := hres.end_lt
      write_le := hres.fits
      reclaimed_eq := (hposition (Nat.le_refl _) (by omega)).trans h.reclaimed_eq
      position_succ := ?_
      live := hlive
      idle := ?_
      reserved := fun _ hnone => by cases hnone
      leases := ?_
      leases_le := h.leases_le }
  · intro k hk hk'
    change c.completed ≤ k at hk
    rcases Nat.lt_or_eq_of_le (Nat.le_of_lt_succ hk') with hlt | rfl
    · rw [hposition (by omega) (by omega), hposition hk (by omega),
        hslot (by omega) (by omega) (by omega)]
      exact h.position_succ k hk hlt
    · rw [hposition', hposition hk (Nat.le_refl _), position_published, hself, ← hv]
      exact congrArg (c.arenaWrite + ·) hlen.symm
  · intro k hk hk' _
    change c.published + 1 < k at hk
    rw [hslot (by omega) hk' (by omega)]
    exact h.idle k (by omega) hk' fun _ => by omega
  · change _ = c.activeLeases
    omega

/-- **Changing the state of a frame that is taken**, without moving it, keeps the invariant. -/
theorem Wf.replaceTaken (h : Wf g c r) {consumed activeLeases : Nat} {v : Slot}
    (hk : c.completed < k) (hk' : k ≤ consumed) (hconsumed : consumed ≤ c.published)
    (hother : ∀ j, j ≠ k → (j ≤ consumed ↔ j ≤ c.consumed))
    (hdescriptor : v.descriptor = (c.slot g k).descriptor)
    (hlen : v.reservationLen = (c.slot g k).reservationLen)
    (hstate : v.state = .receiverLeased ∧ v.completionSequence = 0 ∨
      v.state = .releasePending ∧ v.completionSequence = k)
    (hactive : activeLeases + (c.slot g k).leased = c.activeLeases + v.leased)
    (hmax : activeLeases ≤ g.maxLeases) :
    Wf g ((c.setSlot g k v).setConsumer consumed activeLeases) r := by
  have hdepth := h.published_le
  generalize hc' : (c.setSlot g k v).setConsumer consumed activeLeases = c'
  have hself : c'.slot g k = v := by
    rw [← hc']
    exact slot_setSlot_self _ _
  have hslot : ∀ {j}, c.completed < j → j ≤ c.completed + g.descriptorDepth → j ≠ k →
      c'.slot g j = c.slot g j := by
    intro j hj hj' hne
    rw [← hc']
    exact slot_setSlot_of_ne c.completed hk (by omega) hj hj' hne
  have hdesc : ∀ {j}, c.completed < j → j ≤ c.completed + g.descriptorDepth →
      (c'.slot g j).descriptor = (c.slot g j).descriptor := by
    intro j hj hj'
    rcases eq_or_ne j k with rfl | hne
    · rw [hself, hdescriptor]
    · rw [hslot hj hj' hne]
  have hposition : ∀ {j}, c.completed ≤ j → c'.position g j = c.position g j := by
    intro j hj
    have hpublished : c'.published = c.published := by rw [← hc']; rfl
    have hwrite : c'.arenaWrite = c.arenaWrite := by rw [← hc']; rfl
    rw [position, position, hpublished, hwrite]
    split
    · rw [hdesc (by omega) (by omega)]
    · rfl
  have htotal := total_setSlot (g := g) (c := c) k v leased
  have hleases := h.leases
  subst hc'
  refine
    { completed_le := Nat.le_of_lt (Nat.lt_of_lt_of_le hk hk')
      consumed_le := hconsumed
      published_le := h.published_le
      published_lt := h.published_lt
      write_lt := h.write_lt
      write_le := h.write_le
      reclaimed_eq := (hposition (Nat.le_refl _)).trans h.reclaimed_eq
      position_succ := ?_
      live := ?_
      idle := ?_
      reserved := ?_
      leases := ?_
      leases_le := hmax }
  · intro j hj hj'
    change c.completed ≤ j at hj
    change j < c.published at hj'
    rw [hposition (by omega), hposition hj, hdesc (by omega) (by omega)]
    exact h.position_succ j hj hj'
  · intro j hj hj'
    change j ≤ c.published at hj'
    have hlive := h.live j hj hj'
    rcases eq_or_ne j k with rfl | hne
    · refine ⟨?_, ?_, fun hwait => absurd hk' (Nat.not_le_of_lt hwait), fun _ => ?_⟩
      · rw [hself, hdescriptor]
        exact hlive.describes
      · rw [hself, hdescriptor, hlen]
        exact hlive.len
      · rw [hself]
        exact hstate
    · have hiff := hother j hne
      refine ⟨?_, ?_, fun hwait => ?_, fun htaken => ?_⟩
      · rw [hslot hj (by omega) hne]
        exact hlive.describes
      · rw [hslot hj (by omega) hne]
        exact hlive.len
      · rw [hslot hj (by omega) hne]
        change consumed < j at hwait
        exact hlive.waiting (by omega)
      · rw [hslot hj (by omega) hne]
        change j ≤ consumed at htaken
        exact hlive.taken (by omega)
  · intro j hj hj' hres
    change c.published < j at hj
    rw [hslot (by omega) hj' (by omega)]
    exact h.idle j hj hj' hres
  · intro res hres
    have hreserves := h.reserved res hres
    have hroom := hreserves.room
    exact hreserves.congr (hslot (by omega) (by omega) (by omega)) rfl rfl (Nat.le_refl _)
      (Nat.le_refl _)
  · change (c.setSlot g k v).total g leased = activeLeases
    omega

/-- **Leasing the next frame keeps the invariant.** -/
theorem Wf.lease (h : Wf g c r) (hnext : c.consumed < c.published)
    (hroom : c.activeLeases < g.maxLeases) :
    Wf g ((c.setSlot g (c.consumed + 1)
        { c.slot g (c.consumed + 1) with state := .receiverLeased }).setConsumer (c.consumed + 1)
      (c.activeLeases + 1)) r := by
  have hcompleted := h.completed_le
  have hlive := h.live (c.consumed + 1) (by omega) hnext
  obtain ⟨hstate, hcompletion⟩ := hlive.waiting (Nat.lt_succ_self _)
  have hold : (c.slot g (c.consumed + 1)).leased = 0 := leased_eq_zero (by simp [hstate])
  refine h.replaceTaken (by omega) (Nat.le_refl _) hnext (fun j hne => by omega) rfl rfl
    (Or.inl ⟨rfl, hcompletion⟩) ?_ hroom
  rw [hold]
  rfl

/-- **Releasing a leased frame keeps the invariant.** -/
theorem Wf.release (h : Wf g c r) (hk : c.completed < k) (hk' : k ≤ c.consumed)
    (hstate : (c.slot g k).state = .receiverLeased) : Wf g ((c.setSlot g k
        { c.slot g k with state := .releasePending, completionSequence := k }).setConsumer
      c.consumed (c.activeLeases - 1)) r := by
  have hold : (c.slot g k).leased = 1 := by rw [leased, if_pos hstate]
  have hle : (c.slot g k).leased ≤ c.activeLeases := by
    rw [← h.leases, total]
    exact Finset.single_le_sum (f := fun i => (c.slots i).leased) (fun _ _ => Nat.zero_le _)
      (Finset.mem_range.mpr (slotIndex_lt k))
  have hmax := h.leases_le
  refine h.replaceTaken hk hk' h.consumed_le (fun j _ => Iff.rfl) rfl rfl (Or.inr ⟨rfl, rfl⟩) ?_
    (by omega)
  have hnew : ({ c.slot g k with
      state := .releasePending, completionSequence := k } : Slot).leased = 0 :=
    leased_eq_zero (by simp)
  omega

end MagicContext.Ring
