import MagicContext.Ring.Delivery

/-!
# Releasing leases

Slots are used round and round while identities stay with whoever held a lease, so a release checks
the incarnation, the lane, the window of sequences, the descriptor in the slot and the slot's state
before it changes anything.  Together these checks are exact: they let through the identities of the
leases that are held, and no other.

## What is here

* `LeaseHandle` — a lease as the owner of its completion, with `releaseOnce` and `drop`.
* `System.releases` — the identities that were released in a run, in order.
* `Control.LeasedAt` and `System.Ledger` — the invariant: which sequences are leased, and that the
  received frames are the leased ones and the released ones, each once.
* `release_exact` — **a release succeeds for the leases that are held and changes nothing
  otherwise**.
-/

namespace MagicContext.Ring


variable {g : Grant} {c : Control} {r : Option Reservation}

/-! ## The owner of a completion -/

/-- A receive lease, and whether its completion is recorded. -/
structure LeaseHandle where
  identity : ReleaseIdentity
  released : Bool

/-- `release_once`: invokes the release callback unless it has succeeded before. -/
def LeaseHandle.releaseOnce (handle : LeaseHandle) (g : Grant) (os : Outcomes) (s : Shared) :
    Shared × LeaseHandle × Except LeaseError Unit :=
  if handle.released then (s, handle, .error .duplicateRelease)
  else match s.release g os handle.identity with
    | (s, .error e) => (s, handle, .error e)
    | (s, .ok ()) => (s, { handle with released := true }, .ok ())

/-- Dropping a lease releases it, if that has not happened yet, whatever comes of it. -/
def LeaseHandle.drop (handle : LeaseHandle) (g : Grant) (os : Outcomes) (s : Shared) : Shared :=
  if handle.released then s else (handle.releaseOnce g os s).1

/-! ## The history of releases -/

/-- The doorbell writes a release may make succeed. -/
def Outcomes.BellsRing (os : Outcomes) : Prop := os.capacityBell = true ∧ os.dataBell = true

/-- The doorbell writes an operation may make succeed. -/
def Op.BellsRing : Op → Prop
  | .commit os _ => os.dataBell = true
  | .release os _ => os.BellsRing
  | _ => True

/-- The identities of the leases that are held. -/
def System.leased (sys : System) : List ReleaseIdentity := sys.leases.map (·.lease.identity)

/-- The identities of the frames received, oldest first. -/
def System.receivedIdentities (g : Grant) (sys : System) : List ReleaseIdentity :=
  sys.received.map fun frame => g.identity frame.sequence

/-- What a step releases. -/
def Op.releases (g : Grant) (sys : System) : Op → List ReleaseIdentity
  | .release os identity => match (sys.shared.release g os identity).2 with
    | .error _ => []
    | .ok () => [identity]
  | _ => []

/-- The identities released in a run, in order. -/
def System.releases (g : Grant) : System → List Op → List ReleaseIdentity
  | _, [] => []
  | sys, op :: ops => op.releases g sys ++ releases g (sys.step g op) ops

/-! ## Which sequences are leased -/

/-- The frame with sequence `k` is taken, not reclaimed and not released. -/
def Control.LeasedAt (c : Control) (g : Grant) (k : Nat) : Prop :=
  c.completed < k ∧ k ≤ c.consumed ∧ (c.slot g k).state = .receiverLeased

theorem LeasedAt.congr {c' : Control}
    (hslot : ∀ k, c.completed < k → k ≤ c.consumed → c'.slot g k = c.slot g k)
    (hcompleted : c'.completed = c.completed) (hconsumed : c'.consumed = c.consumed) (k : Nat) :
    c'.LeasedAt g k ↔ c.LeasedAt g k := by
  rw [Control.LeasedAt, Control.LeasedAt, hcompleted, hconsumed]
  constructor
  · rintro ⟨hk, hk', hstate⟩
    exact ⟨hk, hk', by rwa [hslot k hk hk'] at hstate⟩
  · rintro ⟨hk, hk', hstate⟩
    exact ⟨hk, hk', by rwa [hslot k hk hk']⟩

/-- Replacing the slot that is next to be published leaves the leases alone. -/
theorem Wf.leasedAt_next (h : Wf g c r) (hroom : c.published < c.completed + g.descriptorDepth)
    (v : Slot) (k : Nat) : (c.setSlot g (c.published + 1) v).LeasedAt g k ↔ c.LeasedAt g k := by
  have hconsumed := h.consumed_le
  have hslot : ∀ k, c.completed < k → k ≤ c.consumed →
      (c.setSlot g (c.published + 1) v).slot g k = c.slot g k :=
    fun k hk hk' => h.slot_next hroom v hk (by omega) (by omega)
  exact LeasedAt.congr hslot rfl rfl k

/-- Reclaiming released frames leaves the leases alone. -/
theorem Wf.leasedAt_reclaim (h : Wf g c r) {last reclaimed : Nat} (hlast : c.completed ≤ last)
    (hlast' : last ≤ c.consumed)
    (hpending : ∀ k, c.completed < k → k ≤ last → (c.slot g k).state = .releasePending) (k : Nat) :
    ((c.freeSlots g (c.completed + 1) (last - c.completed)).setReclaim last reclaimed).LeasedAt g k
      ↔ c.LeasedAt g k := by
  obtain ⟨n, rfl⟩ := Nat.exists_eq_add_of_le hlast
  rw [Nat.add_sub_cancel_left]
  obtain ⟨-, hconsumed⟩ := freeSlots_cursors (g := g) (c := c) (c.completed + 1) n
  have hpublished := h.consumed_le
  have hdepth := h.published_le
  have hslot : c.completed + n < k → k ≤ c.consumed →
      (c.freeSlots g (c.completed + 1) n).slot g k = c.slot g k := fun hk hk' =>
    slot_freeSlots (Nat.succ_pos _) (by omega) (by omega)
  constructor
  · rintro ⟨hk, hk', hstate⟩
    change c.completed + n < k at hk
    change k ≤ (c.freeSlots g (c.completed + 1) n).consumed at hk'
    change ((c.freeSlots g (c.completed + 1) n).slot g k).state = _ at hstate
    rw [hconsumed] at hk'
    rw [hslot hk hk'] at hstate
    exact ⟨by omega, hk', hstate⟩
  · rintro ⟨hk, hk', hstate⟩
    have hbehind : c.completed + n < k := by
      by_contra hle
      have hreleased := hpending k hk (by omega)
      rw [hstate] at hreleased
      cases hreleased
    refine ⟨hbehind, hk'.trans_eq hconsumed.symm, ?_⟩
    change ((c.freeSlots g (c.completed + 1) n).slot g k).state = _
    rw [hslot hbehind hk']
    exact hstate

/-! ## What a release does -/

/-- **A leased frame can be released**: no check refuses it. -/
theorem Wf.release_leased {s : Shared} (h : Wf g s.toControl r) {k : Nat}
    (hk : s.LeasedAt g k) (hquarantined : s.quarantined = false) {os : Outcomes}
    (hbells : os.BellsRing) : (s.release g os (g.identity k)).2 = .ok () := by
  obtain ⟨hcompleted, hconsumed, hstate⟩ := hk
  have hpublished := h.consumed_le
  have hdescribes := (h.live k hcompleted (by omega)).describes
  have hidentity : (s.slot g k).descriptor.identity = g.identity k := by
    rw [hdescribes.eq]
    rfl
  have hpositive : ¬ k = 0 := by omega
  have hreached : ¬ s.consumed < k := by omega
  rw [Shared.release]
  simp only [Grant.identity] at hidentity ⊢
  simp only [hquarantined, hpositive, hreached, hidentity, hstate, ne_eq, not_true_eq_false,
    Bool.false_eq_true, if_false, Shared.signalCapacityWake, Shared.signalDataWake, hbells.1,
    hbells.2, WakeEpoch.signal_true]

/-- A release of anything but a leased frame changes nothing, and neither does one on a ring in
quarantine. -/
theorem Wf.release_refused {s : Shared} (h : Wf g s.toControl r) (os : Outcomes)
    {identity : ReleaseIdentity} (hrefused : s.quarantined = true ∨
      ∀ k, identity = g.identity k → ¬ s.LeasedAt g k) :
    (s.release g os identity).1 = s ∧ (s.release g os identity).2 ≠ .ok () := by
  rcases hrefused with hquarantined | hnone
  · rw [Shared.release, if_pos hquarantined]
    exact ⟨rfl, by simp⟩
  rcases hrelease : s.release g os identity with ⟨s', result⟩
  rcases h.releaseLease os identity hrelease with hsame |
    ⟨hcompleted, hconsumed, hidentity, hleased, -⟩
  · exact hsame
  · exact absurd ⟨hcompleted, hconsumed, hleased⟩ (hnone identity.sequence hidentity)

/-- **What a release does to a leased frame**, with the doorbells at work. -/
theorem Wf.release_completes {s : Shared} (h : Wf g s.toControl r) {os : Outcomes}
    (hbells : os.BellsRing) {k : Nat} (hk : s.LeasedAt g k) (hquarantined : s.quarantined = false) :
    ∃ s', s.release g os (g.identity k) = (s', .ok ()) ∧
      s'.toControl = (s.toControl.setSlot g k
          { s.slot g k with state := .releasePending, completionSequence := k }).setConsumer
        s.consumed (s.activeLeases - 1) := by
  have hok := h.release_leased hk hquarantined hbells
  rcases hrelease : s.release g os (g.identity k) with ⟨s', result⟩
  rw [hrelease] at hok
  rcases h.releaseLease os (g.identity k) hrelease with ⟨-, hfailed⟩ | ⟨-, -, -, -, -, hcontrol, -⟩
  · exact absurd hok hfailed
  · exact ⟨s', congrArg (Prod.mk s') hok, hcontrol⟩

/-! ## The invariant -/

theorem identity_inj {k k' : Nat} (h : g.identity k = g.identity k') : k = k' :=
  congrArg ReleaseIdentity.sequence h

/-- **The ledger of leases.**  The frames received are the first ones in order; those that are not
leased any more are the released ones. -/
structure System.Ledger (g : Grant) (sys : System) (released : List ReleaseIdentity) : Prop where
  wf : sys.Wf g
  received : sys.received.map Frame.sequence = List.range' 1 sys.shared.consumed
  leased : ∀ identity, identity ∈ sys.leased ↔
    ∃ k, identity = g.identity k ∧ sys.shared.LeasedAt g k
  mem_released : ∀ identity, identity ∈ released ↔ ∃ k, identity = g.identity k ∧ 0 < k ∧
    k ≤ sys.shared.consumed ∧ ¬ sys.shared.LeasedAt g k
  nodup : released.Nodup

theorem System.Ledger.fresh : System.fresh.Ledger g [] where
  wf := System.Wf.fresh
  received := rfl
  leased := fun identity => by
    constructor
    · intro h
      cases h
    · rintro ⟨k, -, hk, hk', -⟩
      change k ≤ 0 at hk'
      omega
  mem_released := fun identity => by
    constructor
    · intro h
      cases h
    · rintro ⟨k, -, hk, hk', -⟩
      change k ≤ 0 at hk'
      omega
  nodup := List.nodup_nil

/-- **The frame rule.**  A step that keeps the receiver's history and the leases keeps the
ledger. -/
theorem System.Ledger.frame {sys sys' : System} {released : List ReleaseIdentity}
    (h : sys.Ledger g released) (hwf : sys'.Wf g) (hleases : sys'.leases = sys.leases)
    (hreceived : sys'.received = sys.received)
    (hconsumed : sys'.shared.consumed = sys.shared.consumed)
    (hkept : ∀ k, sys'.shared.LeasedAt g k ↔ sys.shared.LeasedAt g k) :
    sys'.Ledger g released where
  wf := hwf
  received := by rw [hreceived, hconsumed, h.received]
  leased := fun identity => by
    simp only [hkept, System.leased, hleases]
    exact h.leased identity
  mem_released := fun identity => by
    simp only [hkept, hconsumed]
    exact h.mem_released identity
  nodup := h.nodup

/-! ## The steps of the producer -/

section Producer

variable {sys : System} {released : List ReleaseIdentity} {res : Reservation}

section
variable (h : sys.Ledger g released)
include h

/-- A step that does not touch the control words. -/
theorem System.Ledger.same {sys' : System} (hwf : sys'.Wf g)
    (hleases : sys'.leases = sys.leases) (hreceived : sys'.received = sys.received)
    (hcontrol : sys'.shared.toControl = sys.shared.toControl) : sys'.Ledger g released :=
  h.frame hwf hleases hreceived (congrArg Control.consumed hcontrol) fun k => by rw [hcontrol]

section
variable (hres : sys.reservation = some res)
include hres

theorem System.Ledger.abort : (sys.abort g res).Ledger g released := by
  have hwf := h.wf.reserving hres
  have hclaim := hwf.reserved res rfl
  refine h.frame (Ring.Wf.abort hwf) rfl rfl rfl fun k => ?_
  change (sys.shared.toControl.setSlot g res.sequence _).LeasedAt g k ↔ _
  rw [hclaim.sequence_eq]
  exact hwf.leasedAt_next hclaim.room _ k

theorem System.Ledger.write (bytes : List UInt8) : (sys.write g res bytes).Ledger g released := by
  have hwf := h.wf.reserving hres
  have hcontrol := Wf.writeReservation_fst (g := g) (s := sys.shared) res.plan res.cursor bytes
  rw [System.write]
  split
  · rename_i s' e hwrite
    rw [hwrite] at hcontrol
    have hsame : ({ sys with shared := s' } : System).Ledger g released :=
      h.same (by rw [System.Wf, hcontrol]; exact h.wf) rfl rfl hcontrol
    exact hsame.abort hres
  · rename_i s' hwrite
    rw [hwrite] at hcontrol
    refine h.same ?_ rfl rfl hcontrol
    rw [System.Wf, hcontrol]
    exact hwf.refill _ _

theorem System.Ledger.move (cursor : Nat) (wireHeader : WireHeader) :
    ({ sys with reservation := some { res with cursor := cursor, wireHeader := wireHeader } } :
      System).Ledger g released := by
  have hwf := h.wf.reserving hres
  exact h.same (hwf.refill cursor wireHeader) rfl rfl rfl

theorem System.Ledger.advance (bytes : Nat) : (sys.advance g res bytes).Ledger g released := by
  rw [System.advance]
  split
  · exact h.abort hres
  split
  · exact h.abort hres
  · exact h.move hres _ res.wireHeader

theorem System.Ledger.commit {os : Outcomes} (hbell : os.dataBell = true) (bodyLen : Nat) :
    (sys.commit g os res bodyLen).Ledger g released := by
  have hwf := h.wf.reserving hres
  have hclaim := hwf.reserved res rfl
  rw [System.commit]
  split
  · exact h.abort hres
  rename_i hlen
  split
  · exact h.abort hres
  rcases hwf.commitReservation os bodyLen (Nat.not_lt.mp hlen) with ⟨e, heq⟩ |
    ⟨d, s', hd, hstart, hdlen, -, -, -, hcontrol, ⟨-, heq⟩ | ⟨hdead, -⟩⟩
  · rw [heq]
    exact h.abort hres
  · have hconsumed : s'.consumed = sys.shared.consumed := by
      rw [hcontrol]
      rfl
    rw [heq]
    refine h.frame ?_ rfl rfl hconsumed fun k => ?_
    · rw [System.Wf, hcontrol]
      exact hwf.publish hd hstart hdlen
    · rw [hcontrol]
      exact hwf.leasedAt_next hclaim.room _ k
  · rw [hbell] at hdead
    cases hdead

end

/-- Reclaiming keeps the ledger. -/
theorem System.Ledger.reclaim (os : Outcomes) :
    ({ sys with shared := (sys.shared.reclaimCompleted g os).1 } : System).Ledger g released := by
  have hwf := Ring.Wf.reclaimCompleted_fst h.wf os
  obtain ⟨last, s', hlast, hlast', hpending, hclears, ⟨e, heq⟩ | heq⟩ :=
    Ring.Wf.reclaimCompleted h.wf os
  · rw [heq] at hwf ⊢
    exact h.same hwf rfl rfl hclears.control
  · rw [heq] at hwf ⊢
    refine h.frame hwf rfl rfl ?_ (Ring.Wf.leasedAt_reclaim h.wf hlast hlast' hpending)
    exact (freeSlots_cursors (g := g) (c := sys.shared.toControl) _ _).2

theorem System.Ledger.tryReserve (os : Outcomes) (bound : Nat)
    (wireHeader : WireHeader) : (sys.tryReserve g os bound wireHeader).Ledger g released := by
  have hreclaimed := h.reclaim os
  rcases Ring.Wf.tryReserve h.wf os bound wireHeader with ⟨e, heq⟩ | ⟨s', result, hreclaim, hcases⟩
  · rw [System.tryReserve, heq]
    exact h
  rw [hreclaim] at hreclaimed
  rcases hcases with ⟨e, heq⟩ | ⟨plan, -, hroom, hlimit, hfree, hplan, heq⟩
  · rw [System.tryReserve, heq]
    exact hreclaimed
  · have hwf : Ring.Wf g s'.toControl sys.reservation := hreclaimed.wf
    rw [System.tryReserve, heq]
    exact hreclaimed.frame (hwf.reserve hroom hlimit hfree hplan) rfl rfl rfl
      (hwf.leasedAt_next hroom _)

end

end Producer

/-! ## The steps of the receiver -/

section Receiver

variable {sys : System} {released : List ReleaseIdentity}

/-- **Receiving** leases the next sequence, which was not among the frames before. -/
theorem System.Ledger.tryReceive (h : sys.Ledger g released) :
    (sys.tryReceive g).Ledger g released := by
  rcases Ring.Wf.tryReceive h.wf with ⟨e, heq⟩ | heq | ⟨hnext, hroom, heq⟩
  · rw [System.tryReceive, heq]
    exact h
  · rw [System.tryReceive, heq]
    exact h
  rw [System.tryReceive, heq]
  have hcompleted := Ring.Wf.completed_le h.wf
  have hdepth := Ring.Wf.published_le h.wf
  generalize hc' : (sys.shared.toControl.setSlot g (sys.shared.consumed + 1)
      { sys.shared.slot g (sys.shared.consumed + 1) with
        state := .receiverLeased }).setConsumer (sys.shared.consumed + 1)
      (sys.shared.activeLeases + 1) = c'
  have hwf : Ring.Wf g c' sys.reservation := by
    rw [← hc']
    exact Ring.Wf.lease h.wf hnext hroom
  have hcompleted' : c'.completed = sys.shared.completed := by rw [← hc']; rfl
  have hconsumed' : c'.consumed = sys.shared.consumed + 1 := by rw [← hc']; rfl
  have hself : (c'.slot g (sys.shared.consumed + 1)).state = .receiverLeased := by
    rw [← hc']
    exact congrArg Slot.state (slot_setSlot_self _ _)
  have hother : ∀ k, sys.shared.completed < k → k ≤ sys.shared.consumed →
      c'.slot g k = sys.shared.slot g k := by
    intro k hk hk'
    rw [← hc']
    exact slot_setSlot_of_ne sys.shared.completed (by omega) (by omega) hk (by omega) (by omega)
  have hleased : ∀ k, c'.LeasedAt g k ↔ sys.shared.LeasedAt g k ∨ k = sys.shared.consumed + 1 := by
    intro k
    rw [Control.LeasedAt, hcompleted', hconsumed']
    constructor
    · rintro ⟨hk, hk', hstate⟩
      rcases Nat.lt_or_eq_of_le hk' with hlt | heq'
      · rw [hother k hk (by omega)] at hstate
        exact .inl ⟨hk, by omega, hstate⟩
      · exact .inr heq'
    · rintro (⟨hk, hk', hstate⟩ | rfl)
      · exact ⟨hk, by omega, by rwa [hother k hk hk']⟩
      · exact ⟨by omega, Nat.le_refl _, hself⟩
  refine
    { wf := hwf
      received := ?_
      leased := fun identity => ?_
      mem_released := fun identity => ?_
      nodup := h.nodup }
  · change (sys.received ++ [_]).map Frame.sequence = List.range' 1 c'.consumed
    rw [List.map_append, h.received, hconsumed', List.range'_1_concat]
    simp only [List.map_cons, List.map_nil, ReceiveLease.frame, leaseOf, Grant.identity,
      Nat.add_comm 1]
  · change identity ∈ (sys.leases ++ [_]).map _ ↔ ∃ k, identity = g.identity k ∧ c'.LeasedAt g k
    have hold := h.leased identity
    rw [System.leased] at hold
    rw [List.map_append, List.mem_append, hold]
    simp only [hleased, List.map_cons, List.map_nil, List.mem_singleton, leaseOf]
    constructor
    · rintro (⟨k, hk, hk'⟩ | hk)
      · exact ⟨k, hk, .inl hk'⟩
      · exact ⟨_, hk, .inr rfl⟩
    · rintro ⟨k, hk, hk' | rfl⟩
      · exact .inl ⟨k, hk, hk'⟩
      · exact .inr hk
  · change identity ∈ released ↔ ∃ k, identity = g.identity k ∧ 0 < k ∧ k ≤ c'.consumed ∧
      ¬ c'.LeasedAt g k
    rw [h.mem_released identity]
    simp only [hleased, hconsumed', not_or]
    constructor
    · rintro ⟨k, hk, hpos, hle, hfree⟩
      exact ⟨k, hk, hpos, by omega, hfree, by omega⟩
    · rintro ⟨k, hk, hpos, hle, hfree, hne⟩
      exact ⟨k, hk, hpos, by omega, hfree⟩

/-- **Releasing** moves one identity from the leased to the released ones, or changes nothing. -/
theorem System.Ledger.release (h : sys.Ledger g released) {os : Outcomes}
    (hbells : os.BellsRing) (identity : ReleaseIdentity) :
    (sys.release g os identity).Ledger g (released ++ (Op.release os identity).releases g sys) := by
  have hwf : (sys.release g os identity).Wf g :=
    h.wf.step (.release os identity) trivial
  by_cases hrefused : sys.shared.quarantined = true ∨
      ∀ k, identity = g.identity k → ¬ sys.shared.LeasedAt g k
  · obtain ⟨hsame, hfailed⟩ := Ring.Wf.release_refused h.wf os hrefused
    rcases hrelease : sys.shared.release g os identity with ⟨s', e | ⟨⟩⟩
    · rw [hrelease] at hsame
      obtain rfl : s' = sys.shared := hsame
      rw [System.release, Op.releases, hrelease, List.append_nil]
      exact h
    · exact absurd (congrArg Prod.snd hrelease) hfailed
  rw [not_or, Bool.not_eq_true] at hrefused
  push Not at hrefused
  obtain ⟨hquarantined, k, hidentity, hleasedAt⟩ := hrefused
  obtain ⟨s', hrelease, hcontrol⟩ :=
    Ring.Wf.release_completes h.wf hbells hleasedAt hquarantined
  rw [← hidentity] at hrelease
  rw [System.release, hrelease] at hwf ⊢
  rw [Op.releases, hrelease]
  have hcompleted' : s'.completed = sys.shared.completed := by rw [hcontrol]; rfl
  have hconsumed' : s'.consumed = sys.shared.consumed := by rw [hcontrol]; rfl
  have hpublished := Ring.Wf.consumed_le h.wf
  have hdepth := Ring.Wf.published_le h.wf
  have hbounds := hleasedAt
  obtain ⟨hcompleted, hconsumed, -⟩ := hbounds
  have hself : (s'.slot g k).state = .releasePending := by
    rw [hcontrol]
    exact congrArg Slot.state (slot_setSlot_self _ _)
  have hother : ∀ j, sys.shared.completed < j → j ≤ sys.shared.consumed → j ≠ k →
      s'.slot g j = sys.shared.slot g j := by
    intro j hj hj' hne
    rw [hcontrol]
    exact slot_setSlot_of_ne sys.shared.completed hcompleted (by omega) hj (by omega) hne
  have hleased : ∀ j, s'.LeasedAt g j ↔ sys.shared.LeasedAt g j ∧ j ≠ k := by
    intro j
    rw [Control.LeasedAt, hcompleted', hconsumed']
    constructor
    · rintro ⟨hj, hj', hstate⟩
      have hne : j ≠ k := by
        rintro rfl
        rw [hself] at hstate
        cases hstate
      rw [hother j hj hj' hne] at hstate
      exact ⟨⟨hj, hj', hstate⟩, hne⟩
    · rintro ⟨⟨hj, hj', hstate⟩, hne⟩
      exact ⟨hj, hj', by rwa [hother j hj hj' hne]⟩
  have hdiffers : ∀ j, g.identity j ≠ g.identity k ↔ j ≠ k := fun j =>
    ⟨fun hne heq => hne (heq ▸ rfl), fun hne heq => hne (identity_inj heq)⟩
  refine
    { wf := hwf
      received := by rw [h.received, hconsumed']
      leased := fun identity' => ?_
      mem_released := fun identity' => ?_
      nodup := ?_ }
  · change identity' ∈ (sys.leases.filter fun held => held.lease.identity ≠ identity).map
      (·.lease.identity) ↔ _
    have hold := h.leased identity'
    rw [System.leased, List.mem_map] at hold
    have hfilter : identity' ∈ (sys.leases.filter fun held =>
        held.lease.identity ≠ identity).map (·.lease.identity) ↔
        (∃ held ∈ sys.leases, held.lease.identity = identity') ∧ identity' ≠ identity := by
      simp only [List.mem_map, List.mem_filter, decide_eq_true_eq]
      constructor
      · rintro ⟨held, ⟨hheld, hne⟩, rfl⟩
        exact ⟨⟨held, hheld, rfl⟩, hne⟩
      · rintro ⟨⟨held, hheld, rfl⟩, hne⟩
        exact ⟨held, ⟨hheld, hne⟩, rfl⟩
    rw [hfilter, hold]
    constructor
    · rintro ⟨⟨j, rfl, hj⟩, hne⟩
      rw [hidentity, hdiffers] at hne
      exact ⟨j, rfl, (hleased j).mpr ⟨hj, hne⟩⟩
    · rintro ⟨j, rfl, hj⟩
      obtain ⟨hj, hne⟩ := (hleased j).mp hj
      rw [hidentity, hdiffers]
      exact ⟨⟨j, rfl, hj⟩, hne⟩
  · rw [List.mem_append, List.mem_singleton, h.mem_released identity']
    simp only [hleased, hconsumed', not_and, not_not]
    constructor
    · rintro (⟨j, hj, hpos, hle, hfree⟩ | rfl)
      · exact ⟨j, hj, hpos, hle, fun hleased => absurd hleased hfree⟩
      · exact ⟨k, hidentity, by omega, hconsumed, fun _ => rfl⟩
    · rintro ⟨j, rfl, hpos, hle, hfree⟩
      by_cases hj : sys.shared.LeasedAt g j
      · rw [hfree hj]
        exact .inr hidentity.symm
      · exact .inl ⟨j, rfl, hpos, hle, hj⟩
  · -- what is leased was not released before
    refine List.Nodup.append h.nodup (List.nodup_singleton _) ?_
    rw [List.disjoint_singleton, h.mem_released identity]
    rintro ⟨j, hj, -, -, hfree⟩
    rw [hidentity] at hj
    rw [← identity_inj hj] at hfree
    exact hfree hleasedAt

end Receiver

/-! ## Every run -/

/-- **One step.** -/
theorem System.Ledger.step {sys : System} {released : List ReleaseIdentity}
    (h : sys.Ledger g released) (op : Op) (hbells : op.BellsRing) :
    (sys.step g op).Ledger g (released ++ op.releases g sys) := by
  have hsilent : ∀ {sys' : System}, sys'.Ledger g released → sys'.Ledger g (released ++ []) :=
    fun h => by rwa [List.append_nil]
  cases op with
  | release os identity => exact h.release hbells identity
  | tryReserve os bound wireHeader => exact hsilent (h.tryReserve os bound wireHeader)
  | tryReceive => exact hsilent h.tryReceive
  | park dataParked capacityParked => exact hsilent (h.same h.wf rfl rfl rfl)
  | write bytes =>
    refine hsilent ?_
    rw [System.step]
    rcases hres : sys.reservation with _ | res
    · exact h
    · exact h.write hres bytes
  | poke index byte =>
    refine hsilent ?_
    rw [System.step]
    rcases hres : sys.reservation with _ | res
    · exact h
    change (sys.poke res index byte).Ledger g released
    rw [System.poke]
    split
    · exact h.same h.wf rfl rfl rfl
    · exact h
  | advance bytes =>
    refine hsilent ?_
    rw [System.step]
    rcases hres : sys.reservation with _ | res
    · exact h
    · exact h.advance hres bytes
  | setWireHeader wireHeader =>
    refine hsilent ?_
    rw [System.step]
    rcases hres : sys.reservation with _ | res
    · exact h
    · exact h.move hres res.cursor wireHeader
  | commit os bodyLen =>
    refine hsilent ?_
    rw [System.step]
    rcases hres : sys.reservation with _ | res
    · exact h
    · exact h.commit hres hbells bodyLen
  | abort =>
    refine hsilent ?_
    rw [System.step]
    rcases hres : sys.reservation with _ | res
    · exact h
    · exact h.abort hres

/-- **Every reachable system keeps its ledger.** -/
theorem System.Ledger.run {ops : List Op} (hbells : ∀ op ∈ ops, op.BellsRing) :
    (System.fresh.run g ops).Ledger g (System.releases g .fresh ops) := by
  have hfrom : ∀ (sys : System) (released : List ReleaseIdentity), sys.Ledger g released →
      (sys.run g ops).Ledger g (released ++ System.releases g sys ops) := by
    induction ops with
    | nil =>
      intro sys released h
      rw [System.releases, List.append_nil]
      exact h
    | cons op rest ih =>
      intro sys released h
      rw [System.releases, ← List.append_assoc]
      exact ih (fun op' hop' => hbells op' (List.mem_cons_of_mem _ hop')) _ _
        (h.step op (hbells op List.mem_cons_self))
  exact hfrom _ [] System.Ledger.fresh

/-- Whatever identity is released next, the leases that are held are what decides. -/
structure System.ReleasesExactly (g : Grant) (sys : System) (released : List ReleaseIdentity) :
    Prop where
  /-- A release succeeds just for the leases that are held, and changes nothing otherwise. -/
  succeeds : ∀ os identity, os.BellsRing → ((sys.shared.release g os identity).2 = .ok () ↔
    sys.shared.quarantined = false ∧ identity ∈ sys.leased)
  refused : ∀ os identity, (sys.shared.quarantined = true ∨ identity ∉ sys.leased) →
    (sys.shared.release g os identity).1 = sys.shared
  /-- What is held was received on this ring and is not released. -/
  held : ∀ identity, identity ∈ sys.leased ↔
    identity ∈ sys.receivedIdentities g ∧ identity ∉ released
  /-- Every frame is received once and released at most once. -/
  received_once : (sys.receivedIdentities g).Nodup
  released_once : released.Nodup
  released_received : ∀ identity ∈ released, identity ∈ sys.receivedIdentities g
  /-- An identity kept after its release does nothing, whoever has its slot now. -/
  stale : ∀ os, ∀ identity ∈ released, (sys.shared.release g os identity).1 = sys.shared ∧
    (sys.shared.release g os identity).2 ≠ .ok ()
  /-- The owner of a lease releases it once, and a failure leaves both as they were. -/
  owner : ∀ os (handle : LeaseHandle), os.BellsRing →
    ((handle.releaseOnce g os sys.shared).2.2 = .ok () ↔ handle.released = false ∧
      sys.shared.quarantined = false ∧ handle.identity ∈ sys.leased) ∧
    ((handle.releaseOnce g os sys.shared).2.2 ≠ .ok () →
      (handle.releaseOnce g os sys.shared).1 = sys.shared ∧
        (handle.releaseOnce g os sys.shared).2.1 = handle)
  dropped : ∀ os (handle : LeaseHandle), handle.released = true ∨
      sys.shared.quarantined = true ∨ handle.identity ∉ sys.leased →
    handle.drop g os sys.shared = sys.shared

theorem System.Ledger.receivedIdentities {sys : System} {released : List ReleaseIdentity}
    (h : sys.Ledger g released) :
    sys.receivedIdentities g = (List.range' 1 sys.shared.consumed).map g.identity := by
  rw [← h.received, List.map_map]
  rfl

theorem System.Ledger.exact {sys : System} {released : List ReleaseIdentity}
    (h : sys.Ledger g released) : sys.ReleasesExactly g released := by
  have hreceived : ∀ identity, identity ∈ sys.receivedIdentities g ↔
      ∃ k, identity = g.identity k ∧ 0 < k ∧ k ≤ sys.shared.consumed := by
    intro identity
    rw [h.receivedIdentities, List.mem_map]
    constructor
    · rintro ⟨k, hk, rfl⟩
      rw [List.mem_range'_1] at hk
      exact ⟨k, rfl, by omega, by omega⟩
    · rintro ⟨k, rfl, hk, hk'⟩
      exact ⟨k, List.mem_range'_1.mpr (by omega), rfl⟩
  have hnone : ∀ {identity}, identity ∉ sys.leased →
      ∀ k, identity = g.identity k → ¬ sys.shared.LeasedAt g k := fun hidentity k hk hleased =>
    hidentity ((h.leased _).mpr ⟨k, hk, hleased⟩)
  have hrefused : ∀ os identity, (sys.shared.quarantined = true ∨ identity ∉ sys.leased) →
      (sys.shared.release g os identity).1 = sys.shared ∧
        (sys.shared.release g os identity).2 ≠ .ok () := fun os identity hcase =>
    Ring.Wf.release_refused h.wf os (hcase.imp id hnone)
  have hsucceeds : ∀ os identity, os.BellsRing →
      ((sys.shared.release g os identity).2 = .ok () ↔
        sys.shared.quarantined = false ∧ identity ∈ sys.leased) := by
    intro os identity hbells
    constructor
    · intro hok
      by_contra hcase
      rw [not_and_or, Bool.not_eq_false] at hcase
      exact (hrefused os identity hcase).2 hok
    · rintro ⟨hquarantined, hleased⟩
      obtain ⟨k, rfl, hk⟩ := (h.leased identity).mp hleased
      exact Ring.Wf.release_leased h.wf hk hquarantined hbells
  have hheld : ∀ identity, identity ∈ sys.leased ↔
      identity ∈ sys.receivedIdentities g ∧ identity ∉ released := by
    intro identity
    rw [h.leased, hreceived, h.mem_released]
    constructor
    · rintro ⟨k, rfl, hk⟩
      refine ⟨⟨k, rfl, Nat.zero_lt_of_lt hk.1, hk.2.1⟩, ?_⟩
      rintro ⟨k', hk', -, -, hfree⟩
      rw [← identity_inj hk'] at hfree
      exact hfree hk
    · rintro ⟨⟨k, rfl, hpos, hle⟩, hfree⟩
      refine ⟨k, rfl, ?_⟩
      by_contra hk
      exact hfree ⟨k, rfl, hpos, hle, hk⟩
  refine
    { succeeds := hsucceeds
      refused := fun os identity hcase => (hrefused os identity hcase).1
      held := hheld
      received_once := ?_
      released_once := h.nodup
      released_received := fun identity hidentity => ?_
      stale := fun os identity hidentity =>
        hrefused os identity (.inr fun hleased => ((hheld identity).mp hleased).2 hidentity)
      owner := fun os handle hbells => ?_
      dropped := fun os handle hcase => ?_ }
  · rw [h.receivedIdentities]
    exact List.Nodup.map (fun _ _ => identity_inj) (List.nodup_range' 1)
  · obtain ⟨k, hk, hpos, hle, -⟩ := (h.mem_released identity).mp hidentity
    exact (hreceived identity).mpr ⟨k, hk, hpos, hle⟩
  · rw [LeaseHandle.releaseOnce]
    split
    · rename_i hreleased
      simp [hreleased]
    · rename_i hreleased
      have hiff := hsucceeds os handle.identity hbells
      rcases hrelease : sys.shared.release g os handle.identity with ⟨s', e | ⟨⟩⟩
      · rw [hrelease] at hiff
        have hcase : sys.shared.quarantined = true ∨ handle.identity ∉ sys.leased := by
          by_contra hboth
          rw [not_or, Bool.not_eq_true, not_not] at hboth
          cases hiff.mpr hboth
        have hsame := (hrefused os handle.identity hcase).1
        rw [hrelease] at hsame
        refine ⟨⟨fun hok => (by cases hok), fun hboth => ?_⟩, fun _ => ⟨hsame, rfl⟩⟩
        cases hiff.mpr hboth.2
      · rw [hrelease] at hiff
        exact ⟨⟨fun _ => ⟨by simpa using hreleased, hiff.mp rfl⟩, fun _ => rfl⟩,
          fun hfailed => absurd rfl hfailed⟩
  · rw [LeaseHandle.drop]
    split
    · rfl
    rename_i hreleased
    have hsame := (hrefused os handle.identity (hcase.resolve_left hreleased)).1
    rw [LeaseHandle.releaseOnce, if_neg hreleased]
    rcases hrelease : sys.shared.release g os handle.identity with ⟨s', e | ⟨⟩⟩
    · rwa [hrelease] at hsame
    · rwa [hrelease] at hsame

/-- **Lease release is exact.**  In every reachable ring a release succeeds for the identities of
the leases that are held, and for no other; it leaves everything as it is when it fails; and no
frame is released twice. -/
theorem release_exact (g : Grant) (ops : List Op) (hbells : ∀ op ∈ ops, op.BellsRing) :
    (System.fresh.run g ops).ReleasesExactly g (System.releases g .fresh ops) :=
  (System.Ledger.run hbells).exact

theorem release_exact_round_trip :
    (System.fresh.run smallGrant [.tryReserve willing 1 oneByteHeader, .write [7],
        .commit willing 1, .tryReceive, .release willing (smallGrant.identity 1),
        .tryReserve willing 1 oneByteHeader]).ReleasesExactly smallGrant
      (System.releases smallGrant .fresh [.tryReserve willing 1 oneByteHeader, .write [7],
        .commit willing 1, .tryReceive, .release willing (smallGrant.identity 1),
        .tryReserve willing 1 oneByteHeader]) :=
  release_exact smallGrant _ (by simp [Op.BellsRing, Outcomes.BellsRing, willing])

end MagicContext.Ring
