import Mathlib.Algebra.BigOperators.Intervals
import MagicContext.Ring.Step

/-!
# Conservation

Every slot and every arena byte of a ring is accounted for.  The invariant describes the slot table
by sequence; `conservation` adds it up by index.  The two meet in one change of variables: the
sequences of a lap and the slot indices correspond one to one.

## What is here

* `total_eq_sum` — a sum over the slots is a sum over the sequences of the current lap.
* `Wf.charged_eq` — **the bytes charged to slots** are the bytes between the two arena cursors and
  those of the outstanding reservation.
* `Tally.Sound`, `foldlM_count` — what counting the slots one after the other adds up to.
* `Wf.conservation` — **the accounting of a well-formed ring succeeds and conserves**.
* `System.Conserved` — everything the ring promises about its counters, and `run_conserved`: it
  holds after every sequence of operations.
-/

namespace MagicContext.Ring

open Word DescriptorCounts Control

variable {g : Grant} {c : Control} {r : Option Reservation}

/-! ## Sums over the slots -/

/-- **A sum over the slots is a sum over the sequences of a lap.** -/
theorem total_eq_sum (lo : Nat) (f : Slot → Nat) :
    c.total g f = ∑ k ∈ Finset.Ioc lo (lo + g.descriptorDepth), f (c.slot g k) := by
  symm
  refine Finset.sum_bij (fun k _ => g.slotIndex k) ?_ ?_ ?_ ?_
  · intro k _
    exact Finset.mem_range.mpr (slotIndex_lt k)
  · intro k hk k' hk' heq
    rw [Finset.mem_Ioc] at hk hk'
    exact slotIndex_inj hk.1 hk.2 hk'.1 hk'.2 heq
  · intro i hi
    obtain ⟨x, hlo, hhi, hx⟩ := Circular.exists_mod_eq lo (Finset.mem_range.mp hi)
    exact ⟨x + 1, Finset.mem_Ioc.mpr ⟨by omega, by omega⟩, hx⟩
  · intro k _
    rfl

/-- The reservation lengths of the frames that are not reclaimed add up to the bytes between the
arena cursors. -/
theorem Wf.sum_reservationLen (h : Wf g c r) :
    ∑ k ∈ Finset.Ioc c.completed c.published, (c.slot g k).reservationLen =
      c.arenaWrite - c.arenaReclaimed := by
  have hpartial : ∀ n, c.completed + n ≤ c.published →
      ∑ k ∈ Finset.Ioc c.completed (c.completed + n), (c.slot g k).reservationLen =
        c.position g (c.completed + n) - c.arenaReclaimed := by
    intro n
    induction n with
    | zero =>
      intro _
      rw [Nat.add_zero, h.reclaimed_eq]
      simp
    | succ n ih =>
      intro hn
      have hle := h.reclaimed_le_position (k := c.completed + n) (by omega) (by omega)
      have hlive := h.live (c.completed + n + 1) (by omega) (by omega)
      rw [← Nat.add_assoc, Finset.sum_Ioc_succ_top (by omega), ih (by omega),
        h.position_succ _ (by omega) (by omega), hlive.len]
      omega
  have hcompleted := h.completed_le
  have hconsumed := h.consumed_le
  have hall := hpartial (c.published - c.completed) (by omega)
  have heq : c.completed + (c.published - c.completed) = c.published := by omega
  rw [heq, position_published] at hall
  exact hall

/-- The bytes of an outstanding reservation. -/
def reservedLen (r : Option Reservation) : Nat := r.elim 0 fun res => res.plan.allocationLen

/-- **The bytes charged to slots** are those between the arena cursors and those reserved. -/
theorem Wf.charged_eq (h : Wf g c r) :
    c.total g Slot.reservationLen = c.arenaWrite - c.arenaReclaimed + reservedLen r := by
  have hdepth := h.published_le
  have hcompleted := h.completed_le
  have hconsumed := h.consumed_le
  rw [total_eq_sum c.completed, ← h.sum_reservationLen,
    ← Finset.sum_Ioc_consecutive (fun k => (c.slot g k).reservationLen)
      (Nat.le_trans hcompleted hconsumed) hdepth]
  congr 1
  rcases hr : r with _ | res
  · refine Finset.sum_eq_zero fun k hk => ?_
    rw [Finset.mem_Ioc] at hk
    exact (h.idle k hk.1 hk.2 (by simp [hr])).len
  · -- the first of the remaining slots is the reserved one
    have hres := h.reserved res hr
    have hroom := hres.room
    rw [Finset.sum_eq_single_of_mem (c.published + 1) (Finset.mem_Ioc.mpr ⟨by omega, hroom⟩)]
    · exact hres.len
    · intro k hk hne
      rw [Finset.mem_Ioc] at hk
      exact (h.idle k hk.1 hk.2 fun _ => hne).len

theorem Wf.charged_le (h : Wf g c r) :
    c.arenaWrite - c.arenaReclaimed + reservedLen r ≤ g.arenaBytes := by
  have hwrite := h.write_le
  rcases hr : r with _ | res
  · change c.arenaWrite - c.arenaReclaimed + 0 ≤ g.arenaBytes
    omega
  · have hfits := (h.reserved res hr).fits
    have hle := h.reclaimed_le_position (Nat.le_trans h.completed_le h.consumed_le) (Nat.le_refl _)
    rw [position_published] at hle
    change c.arenaWrite - c.arenaReclaimed + res.plan.allocationLen ≤ g.arenaBytes
    omega

/-! ## Counting slot by slot -/

/-- The number of slots counted. -/
def DescriptorCounts.sum (d : DescriptorCounts) : Nat :=
  d.free + d.producerReserved + d.published + d.receiverHeld + d.receiverLeased +
    d.releasePending + d.quarantined

/-- The number of bytes counted. -/
def ArenaCounts.sum (b : ArenaCounts) : Nat :=
  b.free + b.producerReserved + b.published + b.receiverHeld + b.receiverLeased +
    b.releasePending + b.pad + b.quarantined

/-- The tally of `count` slots whose reservation lengths add up to `bytes`. -/
structure Tally.Sound (t : Tally) (count size : Nat) : Prop where
  descriptors : t.descriptors.sum = count
  bytes : t.bytes.sum = size
  charged : t.charged = size
  free : t.bytes.free = 0

/-- A slot is in the vocabulary, and is charged nothing while it is free. -/
def Slot.Countable (slot : Slot) : Prop :=
  slot.state ≠ .unknown ∧ (slot.state = .free → slot.reservationLen = 0)

/-- Charging bytes to one category. -/
theorem Tally.Sound.charge {t : Tally} {n size len category : Nat} (h : t.Sound n size)
    {d : DescriptorCounts} {b : Nat → ArenaCounts} (hlimit : size + len < u64Limit)
    (hcategory : category ≤ size) (hd : d.sum = n + 1)
    (hb : (b (category + len)).sum = size + len) (hfree : (b (category + len)).free = 0) :
    ∃ t', t.charge len category d b = .ok t' ∧ t'.Sound (n + 1) (size + len) := by
  have hcharged := h.charged
  have hsum : checkedAdd category len = some (category + len) := checkedAdd_of_lt (by omega)
  have htotal : checkedAdd t.charged len = some (size + len) := by
    rw [hcharged]
    exact checkedAdd_of_lt hlimit
  rw [Tally.charge, hsum, htotal]
  exact ⟨_, rfl, hd, hb, rfl, hfree⟩

/-- Counting one more slot. -/
theorem Tally.Sound.count {t : Tally} {n size : Nat} (h : t.Sound n size) {slot : Slot}
    (hslot : slot.Countable) (hlimit : size + slot.reservationLen < u64Limit) :
    ∃ t', t.count slot = .ok t' ∧ t'.Sound (n + 1) (size + slot.reservationLen) := by
  have hb := h.bytes
  have hf := h.free
  simp only [ArenaCounts.sum] at hb
  obtain ⟨hknown, hempty⟩ := hslot
  have hone : ∀ {d : DescriptorCounts}, t.descriptors.sum + 1 = d.sum → d.sum = n + 1 := by
    intro d hsum
    rw [← hsum, h.descriptors]
  rw [Tally.count]
  rcases hstate : slot.state with _ | _ | _ | _ | _ | _ | _
  · rw [hempty hstate]
    refine ⟨_, rfl, hone ?_, h.bytes, h.charged, hf⟩
    simp only [sum]
    omega
  all_goals first
    | exact absurd hstate hknown
    | refine h.charge hlimit (by omega) (hone ?_) ?_ hf <;>
        simp only [sum, ArenaCounts.sum] <;> omega

/-- Counting all slots of a list. -/
theorem foldlM_count (slots : List Slot) (hslots : ∀ slot ∈ slots, slot.Countable) {t : Tally}
    {n size : Nat} (h : t.Sound n size)
    (hlimit : size + (slots.map Slot.reservationLen).sum < u64Limit) :
    ∃ t', slots.foldlM Tally.count t = .ok t' ∧
      t'.Sound (n + slots.length) (size + (slots.map Slot.reservationLen).sum) := by
  induction slots generalizing t n size with
  | nil => exact ⟨t, rfl, h⟩
  | cons slot rest ih =>
    rw [List.map_cons, List.sum_cons] at hlimit ⊢
    obtain ⟨t₁, hcount, hsound⟩ := h.count (hslots slot List.mem_cons_self) (by omega)
    obtain ⟨t', hfold, hsound'⟩ :=
      ih (fun slot' hslot' => hslots slot' (List.mem_cons_of_mem _ hslot')) hsound (by omega)
    refine ⟨t', ?_, ?_⟩
    · rw [List.foldlM_cons, hcount]
      exact hfold
    · rw [List.length_cons, ← Nat.add_assoc, Nat.add_right_comm n, ← Nat.add_assoc size]
      exact hsound'

/-- A sum of counts that stays in range is found by checked addition. -/
theorem foldlM_checkedAdd (l : List Nat) {acc : Nat} (h : acc + l.sum < u64Limit) :
    l.foldlM checkedAdd acc = some (acc + l.sum) := by
  induction l generalizing acc with
  | nil => rfl
  | cons n l ih =>
    rw [List.sum_cons] at h ⊢
    rw [List.foldlM_cons, checkedAdd_of_lt (by omega), ← Nat.add_assoc]
    exact ih (by omega)

theorem DescriptorCounts.conserves_of_sum {d : DescriptorCounts} {depth : Nat}
    (h : d.sum = depth) (hlimit : depth < u64Limit) : d.conserves depth = true := by
  rw [sum] at h
  rw [conserves, foldlM_checkedAdd _ (by simp; omega)]
  simp
  omega

theorem ArenaCounts.conserves_of_sum {b : ArenaCounts} {capacity : Nat} (h : b.sum = capacity)
    (hlimit : capacity < u64Limit) : b.conserves capacity = true := by
  rw [ArenaCounts.sum] at h
  rw [ArenaCounts.conserves, foldlM_checkedAdd _ (by simp; omega)]
  simp
  omega

/-- Every slot of a well-formed table can be counted. -/
theorem Wf.countable (h : Wf g c r) (k : Nat) : (c.slot g k).Countable := by
  obtain ⟨x, hlo, hhi, hx⟩ := Circular.exists_mod_eq c.completed (slotIndex_lt (g := g) k)
  have hslot : c.slot g k = c.slot g (x + 1) := by
    rw [slot, slot]
    exact congrArg c.slots hx.symm
  rw [hslot]
  rcases Nat.lt_or_ge c.published (x + 1) with hidle | hlive
  · by_cases hnext : r.isSome ∧ x + 1 = c.published + 1
    · obtain ⟨res, hres⟩ := Option.isSome_iff_exists.mp hnext.1
      rw [hnext.2, Slot.Countable, (h.reserved res hres).state]
      simp
    · have hfree := h.idle (x + 1) hidle (by omega) fun hr heq => hnext ⟨hr, heq⟩
      rw [Slot.Countable, hfree.state, hfree.len]
      simp
  · have hlive' := h.live (x + 1) (by omega) hlive
    rw [Slot.Countable]
    rcases Nat.lt_or_ge c.consumed (x + 1) with hwait | htaken
    · rw [(hlive'.waiting hwait).1]
      simp
    · rcases hlive'.taken htaken with ⟨hstate, -⟩ | ⟨hstate, -⟩ <;> rw [hstate] <;> simp

/-- The slots in index order. -/
def Control.table (c : Control) (g : Grant) : List Slot :=
  (List.range g.descriptorDepth).map fun index => c.slot g (index + 1)

theorem table_sum : ((c.table g).map Slot.reservationLen).sum = c.total g Slot.reservationLen := by
  rw [table, List.map_map, total, Finset.sum_eq_multiset_sum]
  have hslots : ∀ index ∈ List.range g.descriptorDepth,
      (Slot.reservationLen ∘ fun index => c.slot g (index + 1)) index =
        (c.slots index).reservationLen := by
    intro index hindex
    have hmod : (index + 1 - 1) % g.descriptorDepth = index :=
      Nat.mod_eq_of_lt (List.mem_range.mp hindex)
    rw [Function.comp_apply, slot, Grant.slotIndex, hmod]
  rw [List.map_congr_left hslots]
  rfl

/-- **The accounting of a well-formed ring conserves slots and bytes.** -/
theorem Wf.conservation {s : Shared} (h : Wf g s.toControl r) :
    ∃ d b, s.conservation g = .ok (d, b) ∧ d.conserves g.descriptorDepth = true ∧
      b.conserves g.arenaBytes = true := by
  rw [Shared.conservation]
  split
  · refine ⟨_, _, rfl, conserves_of_sum ?_ g.depth_lt, ArenaCounts.conserves_of_sum ?_ g.arena_lt⟩
    · simp [sum]
    · simp [ArenaCounts.sum]
  have hcharged := h.charged_eq
  have hle := h.charged_le
  have hlimit := g.arena_lt
  have hfold : (List.range g.descriptorDepth).foldlM
      (fun tally index => tally.count (s.slot g (index + 1))) ({} : Tally) =
      (s.toControl.table g).foldlM Tally.count {} := by
    rw [table, List.foldlM_map]
  have hempty : Tally.Sound {} 0 0 := ⟨rfl, rfl, rfl, rfl⟩
  have hcountable : ∀ slot ∈ s.toControl.table g, slot.Countable := by
    intro slot hslot
    obtain ⟨-, -, rfl⟩ := List.mem_map.mp hslot
    exact h.countable _
  obtain ⟨t, ht, hsound⟩ := foldlM_count (s.toControl.table g) hcountable hempty
    (by rw [table_sum]; omega)
  rw [hfold, ht]
  have hlength : (s.toControl.table g).length = g.descriptorDepth := by simp [table]
  have hdescriptors := hsound.descriptors
  have hbytes := hsound.bytes
  have htotal := hsound.charged
  have hfree := hsound.free
  rw [table_sum] at hbytes htotal
  rw [hlength] at hdescriptors
  simp only
  rw [checkedSub_of_le (by omega)]
  refine ⟨_, _, rfl, conserves_of_sum (by omega) g.depth_lt,
    ArenaCounts.conserves_of_sum ?_ g.arena_lt⟩
  simp only [ArenaCounts.sum] at hbytes ⊢
  omega

/-! ## Every reachable ring -/

/-- The number of leased slots. -/
def Control.leasedSlots (c : Control) (g : Grant) : Nat :=
  ((Finset.range g.descriptorDepth).filter fun i => (c.slots i).state = .receiverLeased).card

theorem leasedSlots_eq_total : c.leasedSlots g = c.total g Slot.leased := by
  rw [leasedSlots, Finset.card_filter]
  rfl

/-- What a ring promises about its counters in every state. -/
structure System.Conserved (g : Grant) (sys : System) : Prop where
  completed_le : sys.shared.completed ≤ sys.shared.consumed
  consumed_le : sys.shared.consumed ≤ sys.shared.published
  published_le : sys.shared.published ≤ sys.shared.completed + g.descriptorDepth
  /-- Every slot belongs to one sequence of the current lap, which says what state it is in. -/
  lap : ∀ i, i < g.descriptorDepth → ∃ k, sys.shared.completed < k ∧
    k ≤ sys.shared.completed + g.descriptorDepth ∧ g.slotIndex k = i
  taken : ∀ k, sys.shared.completed < k → k ≤ sys.shared.consumed →
    (sys.shared.slot g k).state = .receiverLeased ∧ (sys.shared.slot g k).completionSequence = 0 ∨
      (sys.shared.slot g k).state = .releasePending ∧ (sys.shared.slot g k).completionSequence = k
  waiting : ∀ k, sys.shared.consumed < k → k ≤ sys.shared.published →
    (sys.shared.slot g k).state = .published
  reserved : ∀ res, sys.reservation = some res →
    sys.shared.published < sys.shared.completed + g.descriptorDepth ∧
      (sys.shared.slot g (sys.shared.published + 1)).state = .producerReserved ∧
      (sys.shared.slot g (sys.shared.published + 1)).reservationLen = res.plan.allocationLen
  free : ∀ k, sys.shared.published < k → k ≤ sys.shared.completed + g.descriptorDepth →
    (sys.reservation.isSome → k ≠ sys.shared.published + 1) →
    (sys.shared.slot g k).state = .free
  /-- The bytes in use are those of the frames that are not reclaimed, and fit with those of the
  reservation. -/
  reclaimed_le : sys.shared.arenaReclaimed ≤ sys.shared.arenaWrite
  in_use : sys.shared.arenaWrite - sys.shared.arenaReclaimed =
    ∑ k ∈ Finset.Ioc sys.shared.completed sys.shared.published, (sys.shared.slot g k).reservationLen
  in_use_le : sys.shared.arenaWrite - sys.shared.arenaReclaimed + reservedLen sys.reservation ≤
    g.arenaBytes
  leases : sys.shared.leasedSlots g = sys.shared.activeLeases
  leases_le : sys.shared.activeLeases ≤ g.maxLeases
  accounting : ∃ d b, sys.shared.conservation g = .ok (d, b) ∧
    d.conserves g.descriptorDepth = true ∧ b.conserves g.arenaBytes = true

theorem System.Wf.conserved {sys : System} (h : sys.Wf g) : sys.Conserved g where
  completed_le := Ring.Wf.completed_le h
  consumed_le := Ring.Wf.consumed_le h
  published_le := Ring.Wf.published_le h
  lap := by
    intro i hi
    obtain ⟨x, hlo, hhi, hx⟩ := Circular.exists_mod_eq sys.shared.completed hi
    exact ⟨x + 1, by omega, by omega, hx⟩
  taken := by
    intro k hk hk'
    have hconsumed := Ring.Wf.consumed_le h
    exact (Ring.Wf.live h k hk (by omega)).taken hk'
  waiting := by
    intro k hk hk'
    have hcompleted := Ring.Wf.completed_le h
    exact ((Ring.Wf.live h k (by omega) hk').waiting hk).1
  reserved := by
    intro res hres
    have hclaim := Ring.Wf.reserved h res hres
    exact ⟨hclaim.room, hclaim.state, hclaim.len⟩
  free := fun k hk hk' hne => (Ring.Wf.idle h k hk hk' hne).state
  reclaimed_le := by
    have hle := Ring.Wf.reclaimed_le_position h
      (Nat.le_trans (Ring.Wf.completed_le h) (Ring.Wf.consumed_le h)) (Nat.le_refl _)
    rwa [position_published] at hle
  in_use := (Ring.Wf.sum_reservationLen h).symm
  in_use_le := Ring.Wf.charged_le h
  leases := leasedSlots_eq_total.trans (Ring.Wf.leases h)
  leases_le := Ring.Wf.leases_le h
  accounting := Ring.Wf.conservation h

/-- **Conservation.**  Whatever the two parties do, and whether or not the system removes pages
when asked, every slot and every byte of the ring stays accounted for. -/
theorem run_conserved (g : Grant) (ops : List Op) (hbells : ∀ op ∈ ops, op.DoorbellRings) :
    (System.fresh.run g ops).Conserved g :=
  (System.Wf.run hbells).conserved

/-- The smallest ring: two slots, one lease. -/
def smallGrant : Grant where
  incarnation := Vector.replicate 16 1
  lane := 0
  descriptorDepth := 2
  arenaBytes := minArenaBytes
  maxLeases := 1
  layoutArena := 4096
  pageSize := 4096
  depth_pos := by decide
  depth_lt := by decide
  arena_min := by decide
  leases_pos := by decide
  leases_le := by decide
  total_lt := by decide

/-- A system that does all it is asked. -/
def willing : Outcomes := ⟨fun _ => true, true, true⟩

/-- The header of a frame of one byte. -/
def oneByteHeader : WireHeader :=
  #v[1, 0, 0, 0, 2, 0, 0, 0, 0, 0, 0, 0, 0, 0, 0, 0, 0, 0, 0, 0, 0]

theorem run_conserved_round_trip :
    (System.fresh.run smallGrant [.tryReserve willing 1 oneByteHeader, .write [7],
      .commit willing 1, .tryReceive, .release willing (smallGrant.identity 1),
      .tryReserve willing 1 oneByteHeader]).Conserved smallGrant :=
  run_conserved smallGrant _ (by simp [Op.DoorbellRings, willing])

end MagicContext.Ring
