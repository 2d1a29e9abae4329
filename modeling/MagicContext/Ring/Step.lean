import MagicContext.Ring.Invariant

/-!
# What the operations of a ring can do

Each operation is a long sequence of checks.  On a state that satisfies the invariant most of them
cannot fail, and what is left is a few cases: this file says for each operation which, so that no
later proof takes an operation apart again.

## What is here

* `Clears` — page removal changes bytes of given cells and nothing else.
* `Wf.reclaimCompleted`, `Wf.tryReserve`, `Wf.commitReservation`, `Wf.tryReceive`,
  `Wf.releaseLease` — the cases of each operation.
* `System.Wf.step` and `System.Wf.run` — **the invariant holds in every reachable system**.
-/

namespace MagicContext.Ring

open Word SpanPlan

variable {g : Grant} {c : Control} {r : Option Reservation}

/-! ## Page removal touches bytes only -/

/-- Nothing but bytes of the cells `P`, and perhaps the quarantine flag, differs. -/
structure Clears (P : Nat → Prop) (s s' : Shared) : Prop where
  control : s'.toControl = s.toControl
  dataWake : s'.dataWake = s.dataWake
  capacityWake : s'.capacityWake = s.capacityWake
  arena : ∀ q, ¬ P q → s'.arena q = s.arena q
  zero : ∀ q, s'.arena q = s.arena q ∨ s'.arena q = 0

theorem Clears.refl (P : Nat → Prop) (s : Shared) : Clears P s s :=
  ⟨rfl, rfl, rfl, fun _ _ => rfl, fun _ => .inl rfl⟩

theorem Clears.trans {P : Nat → Prop} {s s' s'' : Shared} (h : Clears P s s')
    (h' : Clears P s' s'') : Clears P s s'' where
  control := h'.control.trans h.control
  dataWake := h'.dataWake.trans h.dataWake
  capacityWake := h'.capacityWake.trans h.capacityWake
  arena := fun q hq => (h'.arena q hq).trans (h.arena q hq)
  zero := fun q => (h'.zero q).elim (fun heq => heq ▸ h.zero q) .inr

/-- The cells of a range of mapping offsets. -/
def Grant.InRange (g : Grant) (range : ArenaSpan) (q : Nat) : Prop :=
  range.offset ≤ g.layoutArena + q ∧ g.layoutArena + q < range.offset + range.len

theorem Shared.removePages_clears (s : Shared) (os : Outcomes) (range : ArenaSpan) :
    Clears (g.InRange range) s (s.removePages g os range).1 := by
  rw [Shared.removePages]
  split
  · refine ⟨rfl, rfl, rfl, fun q hq => if_neg hq, fun q => ?_⟩
    by_cases hq : g.InRange range q
    · exact .inr (if_pos hq)
    · exact .inl (if_neg hq)
  · exact ⟨rfl, rfl, rfl, fun _ _ => rfl, fun _ => .inl rfl⟩

variable {s s' : Shared}

theorem Clears.mono {P Q : Nat → Prop} (h : Clears P s s') (hPQ : ∀ q, P q → Q q) : Clears Q s s' :=
  ⟨h.control, h.dataWake, h.capacityWake, fun q hq => h.arena q fun hp => hq (hPQ q hp), h.zero⟩

theorem Shared.removeRanges_clears (s : Shared) (os : Outcomes) (ranges : List ArenaSpan) :
    Clears (fun q => ∃ range ∈ ranges, g.InRange range q) s (s.removeRanges g os ranges).1 := by
  induction ranges generalizing s with
  | nil => exact Clears.refl _ _
  | cons range rest ih =>
    have hrest : ∀ s : Shared, Clears (fun q => ∃ x ∈ range :: rest, g.InRange x q) s
        (s.removeRanges g os rest).1 := fun s =>
      (ih s).mono fun q ⟨x, hx, hq⟩ => ⟨x, List.mem_cons_of_mem _ hx, hq⟩
    rw [Shared.removeRanges]
    split
    · exact hrest s
    · have hfirst := (Shared.removePages_clears (g := g) s os range).mono
        (Q := fun q => ∃ x ∈ range :: rest, g.InRange x q)
        fun q hq => ⟨range, List.mem_cons_self, hq⟩
      split
      · rename_i s' e hremove
        rw [hremove] at hfirst
        exact hfirst
      · rename_i s' hremove
        rw [hremove] at hfirst
        exact hfirst.trans (hrest s')

/-- The system removes every page range it is asked to. -/
def Outcomes.Grants (os : Outcomes) (ranges : List ArenaSpan) : Prop :=
  ∀ range ∈ ranges, range.len ≠ 0 → os.removePages range = true

theorem Shared.removePages_ok {os : Outcomes} {range : ArenaSpan}
    (h : s.removePages g os range = (s', .ok ())) : os.removePages range = true := by
  rw [Shared.removePages] at h
  split at h
  · assumption
  · cases h

theorem Shared.removeRanges_ok {os : Outcomes} {ranges : List ArenaSpan}
    (h : s.removeRanges g os ranges = (s', .ok ())) : os.Grants ranges := by
  induction ranges generalizing s with
  | nil => exact fun range hrange => absurd hrange List.not_mem_nil
  | cons range rest ih =>
    rw [Shared.removeRanges] at h
    intro range' hrange' hlen
    rcases List.mem_cons.mp hrange' with rfl | hrest
    · rw [if_neg hlen] at h
      split at h
      · cases h
      · rename_i s₁ hremove
        exact Shared.removePages_ok hremove
    · split at h
      · exact ih h range' hrest hlen
      split at h
      · cases h
      · exact ih h range' hrest hlen

/-- The partial page at the reclaim cursor is removed. -/
def Control.PunchesPage (c : Control) (g : Grant) (newReclaimed : Nat) : Prop :=
  c.arenaWrite = newReclaimed ∧ c.arenaReclaimed % g.pageSize ≠ 0 ∧ newReclaimed % g.pageSize = 0

/-- The page at the reclaim cursor. -/
def Control.partialPage (c : Control) (g : Grant) : ArenaSpan :=
  ⟨g.layoutArena + pageFloor g.pageSize c.arenaReclaimed % g.arenaBytes, g.pageSize⟩

theorem Shared.removePartialPage_clears (s : Shared) (os : Outcomes) (newReclaimed : Nat) :
    Clears (fun q => s.toControl.PunchesPage g newReclaimed ∧
      os.removePages (s.toControl.partialPage g) = true ∧
      g.InRange (s.toControl.partialPage g) q) s (s.removePartialPage g os newReclaimed).1 := by
  have hmod := Nat.mod_lt (pageFloor g.pageSize s.arenaReclaimed) g.arena_pos
  have htotal := g.total_lt
  rw [Shared.removePartialPage]
  split
  · rename_i hpunch
    have hoffset : checkedAdd g.layoutArena (pageFloor g.pageSize s.arenaReclaimed % g.arenaBytes) =
        some (s.toControl.partialPage g).offset := checkedAdd_of_lt (by omega)
    simp only [hoffset]
    rcases hgranted : os.removePages (s.toControl.partialPage g) with _ | _
    · change Clears _ s (s.removePages g os (s.toControl.partialPage g)).1
      rw [Shared.removePages, if_neg (by simp [hgranted])]
      exact ⟨rfl, rfl, rfl, fun _ _ => rfl, fun _ => .inl rfl⟩
    · exact (Shared.removePages_clears s os _).mono fun q hq => ⟨hpunch, rfl, hq⟩
  · exact Clears.refl _ _

/-! ## The operations -/

/-- A cell that is cleared with the page at the reclaim cursor, when frames up to `newReclaimed`
are reclaimed. -/
def Control.Punched (c : Control) (g : Grant) (os : Outcomes) (newReclaimed q : Nat) : Prop :=
  ∃ range0 range1, removalRanges g.layoutArena g.arenaBytes c.arenaReclaimed
      (newReclaimed - c.arenaReclaimed) g.pageSize = .ok (range0, range1) ∧
    os.Grants [range0, range1] ∧ c.PunchesPage g newReclaimed ∧
    os.removePages (c.partialPage g) = true ∧ g.InRange (c.partialPage g) q

/-- A cell that reclaiming frames up to `newReclaimed` may clear. -/
def Control.Removable (c : Control) (g : Grant) (os : Outcomes) (newReclaimed q : Nat) : Prop :=
  (∃ range0 range1, removalRanges g.layoutArena g.arenaBytes c.arenaReclaimed
      (newReclaimed - c.arenaReclaimed) g.pageSize = .ok (range0, range1) ∧
      (g.InRange range0 q ∨ g.InRange range1 q)) ∨ c.Punched g os newReclaimed q

/-- **What reclaiming can do.**  It frees a run of released frames, or none; either way it may have
cleared cells of the run first. -/
theorem Wf.reclaimCompleted (h : Wf g s.toControl r) (os : Outcomes) :
    ∃ last s', s.completed ≤ last ∧ last ≤ s.consumed ∧
      (∀ k, s.completed < k → k ≤ last → (s.slot g k).state = .releasePending) ∧
      Clears (fun q => s.completed < last ∧ s.toControl.Removable g os (s.position g last) q) s s' ∧
      ((∃ e, s.reclaimCompleted g os = (s', .error e)) ∨
        s.reclaimCompleted g os = (s'.setControl
          ((s.toControl.freeSlots g (s.completed + 1) (last - s.completed)).setReclaim last
            (s.position g last)), .ok ())) := by
  have hdepth := h.published_le
  have hconsumed := h.consumed_le
  have hscan := h.scan (g.descriptorDepth + 1) (Nat.le_refl _) h.completed_le (by omega)
    (by rw [h.reclaimed_eq, Nat.add_zero]) (fun k hk hk' => absurd hk' (Nat.not_le_of_lt hk))
  rw [Shared.reclaimCompleted]
  rcases hscan with hexhausted | ⟨last, runLen, hok, hlast, hlast', hrun, hpending, -⟩
  · rw [hexhausted]
    exact ⟨s.completed, s, Nat.le_refl _, h.completed_le,
      fun k hk hk' => absurd hk' (Nat.not_le_of_lt hk), Clears.refl _ _, .inl ⟨_, rfl⟩⟩
  rw [hok]
  refine ⟨last, ?_⟩
  simp only
  split
  · -- nothing is completed
    rename_i heq
    subst heq
    refine ⟨s, hlast, hlast', hpending, Clears.refl _ _, .inr ?_⟩
    have hsame : (s.toControl.freeSlots g (s.completed + 1) 0).setReclaim s.completed
        s.arenaReclaimed = s.toControl := rfl
    rw [Nat.sub_self, h.reclaimed_eq, hsame]
    rfl
  have hlt : s.completed < last := by omega
  have hle := h.position_le_write hlast (by omega)
  have hwrite := h.write_lt
  have hrunLen : runLen = s.position g last - s.arenaReclaimed := by omega
  rw [checkedAdd_of_lt (by omega), hrun]
  simp only
  split
  · rename_i e _
    exact ⟨s, hlast, hlast', hpending, Clears.refl _ _, .inl ⟨e, rfl⟩⟩
  rename_i range0 range1 hranges
  rw [hrunLen] at hranges
  have hremove : Clears (fun q => s.completed < last ∧
      s.toControl.Removable g os (s.position g last) q) s
      (s.removeRanges g os [range0, range1]).1 := by
    refine (s.removeRanges_clears os [range0, range1]).mono ?_
    rintro q ⟨range, hrange, hq⟩
    rcases List.mem_cons.mp hrange with rfl | hrange
    · exact ⟨hlt, .inl ⟨range, range1, hranges, .inl hq⟩⟩
    · obtain rfl := List.mem_singleton.mp hrange
      exact ⟨hlt, .inl ⟨range0, range, hranges, .inr hq⟩⟩
  split
  · rename_i s' e hfail
    rw [hfail] at hremove
    exact ⟨s', hlast, hlast', hpending, hremove, .inl ⟨e, rfl⟩⟩
  rename_i s' hranges'
  rw [hranges'] at hremove
  have hpage : Clears (fun q => s.completed < last ∧
      s.toControl.Removable g os (s.position g last) q) s
      (s'.removePartialPage g os (s.position g last)).1 := by
    refine hremove.trans ((s'.removePartialPage_clears os _).mono ?_)
    rw [hremove.control]
    have hgrants := Shared.removeRanges_ok hranges'
    exact fun q hq => ⟨hlt, .inr ⟨range0, range1, hranges, hgrants, hq⟩⟩
  split
  · rename_i s'' e hfail
    rw [hfail] at hpage
    exact ⟨s'', hlast, hlast', hpending, hpage, .inl ⟨e, rfl⟩⟩
  · rename_i s'' hok'
    rw [hok'] at hpage
    refine ⟨s'', hlast, hlast', hpending, hpage, .inr ?_⟩
    rw [hpage.control]

/-- Reclaiming keeps the invariant, whatever it ends in. -/
theorem Wf.reclaimCompleted_fst (h : Wf g s.toControl r) (os : Outcomes) :
    Wf g (s.reclaimCompleted g os).1.toControl r := by
  obtain ⟨last, s', hlast, hlast', hpending, hclears, ⟨e, heq⟩ | heq⟩ := h.reclaimCompleted os
  · rw [heq, hclears.control]
    exact h
  · rw [heq]
    obtain ⟨n, rfl⟩ := Nat.exists_eq_add_of_le hlast
    rw [Nat.add_sub_cancel_left]
    exact h.reclaimMany hlast' hpending

/-- **What an attempt to reserve can do.**  It reclaims, and then claims a slot and bytes or leaves
everything as it is. -/
theorem Wf.tryReserve (h : Wf g s.toControl r) (os : Outcomes) (bound : Nat)
    (wireHeader : WireHeader) : (∃ e, s.tryReserve g os bound wireHeader = (s, .error e)) ∨
      ∃ s' result, s.reclaimCompleted g os = (s', result) ∧
        ((∃ e, s.tryReserve g os bound wireHeader = (s', .error e)) ∨
          ∃ plan, result = .ok () ∧ s'.published < s'.completed + g.descriptorDepth ∧
            s'.published + 1 < u64Limit ∧ (s'.slot g (s'.published + 1)).state = .free ∧
            SpanPlan.reserve g.arenaBytes s'.arenaWrite s'.arenaReclaimed bound = .ok plan ∧
            s.tryReserve g os bound wireHeader =
              (s'.setSlot g (s'.published + 1) { s'.slot g (s'.published + 1) with
                state := .producerReserved, reservationLen := plan.allocationLen },
                .ok ⟨plan, s'.published + 1, 0, wireHeader⟩)) := by
  have hwf := h.reclaimCompleted_fst os
  rw [Shared.tryReserve]
  split
  · exact .inl ⟨_, rfl⟩
  split
  · exact .inl ⟨_, rfl⟩
  rcases hreclaim : s.reclaimCompleted g os with ⟨s', - | ⟨⟩⟩
  · exact .inr ⟨s', _, rfl, .inl ⟨_, rfl⟩⟩
  rw [hreclaim] at hwf
  refine .inr ⟨s', .ok (), rfl, ?_⟩
  have hcompleted := hwf.completed_le
  have hconsumed := hwf.consumed_le
  simp only
  rw [checkedSub_of_le (Nat.le_trans hcompleted hconsumed)]
  simp only
  split
  · exact .inl ⟨_, rfl⟩
  split
  · exact .inl ⟨_, rfl⟩
  rename_i sequence hsequence
  obtain ⟨rfl, hlimit⟩ := checkedAdd_eq_some.mp hsequence
  split
  · exact .inl ⟨_, rfl⟩
  rename_i hfree
  split
  · exact .inl ⟨_, rfl⟩
  · exact .inl ⟨_, rfl⟩
  · rename_i plan hplan
    exact .inr ⟨plan, trivial, by omega, hlimit, not_not.mp hfree, hplan, rfl⟩

theorem WakeEpoch.signal_true (wake : WakeEpoch) : (wake.signal true).2 = .ok () := by
  rw [WakeEpoch.signal]
  split <;> rfl

/-- **What a commit can do.**  It fails without a trace, or publishes the frame; then it can still
fail for want of a doorbell. -/
theorem Wf.commitReservation {res : Reservation} (h : Wf g s.toControl (some res)) (os : Outcomes)
    (bodyLen : Nat) (hlen : bodyLen ≤ res.plan.allocationLen) :
    (∃ e, s.commitReservation g os res.sequence res.plan bodyLen res.wireHeader = (s, .error e)) ∨
      ∃ d s', Describes g (s.published + 1) d ∧ d.allocationStart = s.arenaWrite ∧
        d.allocationLen = res.plan.allocationLen ∧ d.bodyLen = bodyLen ∧
        d.wireHeader = res.wireHeader ∧ s'.arena = s.arena ∧
        s'.toControl =
          s.toControl.publish g (s.published + 1) d (s.arenaWrite + res.plan.allocationLen) ∧
        (s'.quarantined = s.quarantined ∧
            s.commitReservation g os res.sequence res.plan bodyLen res.wireHeader =
              (s', .ok (g.identity (s.published + 1))) ∨
          os.dataBell = false ∧ s'.quarantined = true ∧
            ∃ e, s.commitReservation g os res.sequence res.plan bodyLen res.wireHeader =
              (s', .error e)) := by
  have hres := h.reserved res rfl
  have hplan := hres.plan_eq
  have hfits := hres.fits
  have hend := hres.end_lt
  have hframe := hres.len_le
  rw [hres.sequence_eq]
  generalize res.plan.allocationLen = n at *
  have hreclaimed := h.reclaimed_le_position (k := s.published)
    (Nat.le_trans h.completed_le h.consumed_le) (Nat.le_refl _)
  rw [position_published] at hreclaimed
  rw [Shared.commitReservation, hplan, prefixSpans_ofRun hlen]
  simp only
  split
  · exact .inl ⟨_, rfl⟩
  rename_i hheader
  obtain ⟨hdeclared, hversion⟩ := not_or.mp hheader
  have hnext : checkedAdd (ofRun g.arenaBytes s.arenaWrite n).allocationStart
      (ofRun g.arenaBytes s.arenaWrite n).allocationLen = some (s.arenaWrite + n) :=
    checkedAdd_of_lt hend
  rw [hnext]
  refine .inr ⟨publishedDescriptor g.arenaBytes (g.identity (s.published + 1)) res.wireHeader
    s.arenaWrite n bodyLen, ?_⟩
  have hdescribes : Describes g (s.published + 1) (publishedDescriptor g.arenaBytes
      (g.identity (s.published + 1)) res.wireHeader s.arenaWrite n bodyLen) :=
    { eq := rfl
      body_le := hlen
      len_le := by change n ≤ g.arenaBytes; omega
      frame_le := Nat.le_trans hlen hframe
      end_lt := hend
      declared := not_not.mp hdeclared
      version := not_not.mp hversion }
  simp only
  split
  · rename_i s' e hsignal
    refine ⟨s'.enterQuarantine, hdescribes, rfl, rfl, rfl, rfl, ?_, ?_, .inr ⟨?_, rfl, _, rfl⟩⟩
    · exact (congrArg (fun p => p.1.arena) hsignal).symm
    · exact (congrArg (fun p => p.1.toControl) hsignal).symm
    · -- a doorbell that rings never fails the signal
      by_contra hbell
      have htrue : os.dataBell = true := by simpa using hbell
      have hresult := congrArg Prod.snd hsignal
      rw [Shared.signalDataWake, htrue, WakeEpoch.signal_true] at hresult
      cases hresult
  · rename_i s' hsignal
    refine ⟨s', hdescribes, rfl, rfl, rfl, rfl, ?_, ?_, .inl ⟨?_, rfl⟩⟩
    · exact (congrArg (fun p => p.1.arena) hsignal).symm
    · exact (congrArg (fun p => p.1.toControl) hsignal).symm
    · exact (congrArg (fun p => p.1.quarantined) hsignal).symm

/-- The lease of a published frame. -/
def leaseOf (g : Grant) (k : Nat) (d : FrameDescriptor) : ReceiveLease where
  span0 := (SpanPlan.ofRun g.arenaBytes d.allocationStart d.bodyLen).span0
  span1 :=
    if (SpanPlan.ofRun g.arenaBytes d.allocationStart d.bodyLen).spanCount = 2 then
      some (SpanPlan.ofRun g.arenaBytes d.allocationStart d.bodyLen).span1
    else none
  bodyLen := d.bodyLen
  wireHeader := d.wireHeader
  identity := g.identity k

theorem leaseSpan_of_le {span : ArenaSpan} (h : span.offset + span.len ≤ g.arenaBytes) :
    leaseSpan g span = .ok span := by
  have hlimit := g.arena_lt
  rw [leaseSpan, checkedAdd_of_lt (by omega)]
  exact if_neg (Nat.not_lt.mpr h)

theorem leaseSpan_ofRun (start : Nat) {len : Nat} (hlen : len ≤ g.arenaBytes) :
    leaseSpan g (ofRun g.arenaBytes start len).span0 = .ok (ofRun g.arenaBytes start len).span0 ∧
      leaseSpan g (ofRun g.arenaBytes start len).span1 =
        .ok (ofRun g.arenaBytes start len).span1 := by
  have hmod := Nat.mod_lt start g.arena_pos
  have hroom := Circular.firstLen_le_room g.arenaBytes start len
  have hfirst : start % g.arenaBytes + Circular.firstLen g.arenaBytes start len ≤ g.arenaBytes := by
    omega
  have hsecond : 0 + (len - Circular.firstLen g.arenaBytes start len) ≤ g.arenaBytes := by omega
  exact ⟨leaseSpan_of_le hfirst, leaseSpan_of_le hsecond⟩

/-- **What an attempt to receive can do.**  It leases the next published frame, or changes
nothing. -/
theorem Wf.tryReceive (h : Wf g s.toControl r) :
    (∃ e, s.tryReceive g = (s, .error e)) ∨ s.tryReceive g = (s, .ok none) ∨
      s.consumed < s.published ∧ s.activeLeases < g.maxLeases ∧
        s.tryReceive g =
          (s.setControl ((s.toControl.setSlot g (s.consumed + 1)
              { s.slot g (s.consumed + 1) with state := .receiverLeased }).setConsumer
              (s.consumed + 1) (s.activeLeases + 1)),
            .ok (some (leaseOf g (s.consumed + 1) (s.slot g (s.consumed + 1)).descriptor))) := by
  rw [Shared.tryReceive]
  split
  · exact .inl ⟨_, rfl⟩
  split
  · exact .inr (.inl rfl)
  split
  · exact .inr (.inl rfl)
  have hconsumed := h.consumed_le
  have hcompleted := h.completed_le
  have hpublished := h.published_lt
  have hlt : s.consumed < s.published := by omega
  have hlive := h.live (s.consumed + 1) (by omega) hlt
  have hbody := Nat.le_trans hlive.describes.body_le hlive.describes.len_le
  obtain ⟨hfirst, hsecond⟩ := leaseSpan_ofRun (g := g)
    (s.slot g (s.consumed + 1)).descriptor.allocationStart hbody
  have hnext : checkedSucc s.consumed = some (s.consumed + 1) := checkedAdd_of_lt (by omega)
  have hself : ∀ v, (s.setSlot g (s.consumed + 1) v).slot g (s.consumed + 1) = v :=
    fun v => slot_setSlot_self _ v
  refine .inr (.inr ⟨hlt, by omega, ?_⟩)
  rw [hnext]
  simp only
  rw [if_neg (by simp [(hlive.waiting (Nat.lt_succ_self _)).1]), hself]
  rw [hlive.describes.validate (Nat.succ_ne_zero _)]
  simp only
  rw [hfirst, hsecond]
  have hcontrol : ∀ v v', (s.setSlot g (s.consumed + 1) v).setSlot g (s.consumed + 1) v' =
      s.setSlot g (s.consumed + 1) v' :=
    fun v v' => congrArg s.setControl (setSlot_setSlot _ v v')
  simp only [hcontrol]
  by_cases hcount : (ofRun g.arenaBytes (s.slot g (s.consumed + 1)).descriptor.allocationStart
      (s.slot g (s.consumed + 1)).descriptor.bodyLen).spanCount = 2
  · rw [if_pos hcount, leaseOf, if_pos hcount]
    rfl
  · rw [if_neg hcount, leaseOf, if_neg hcount]
    rfl

/-- Only frames that are not reclaimed are leased: a leased slot whose descriptor names `k` is the
slot of `k` in the current lap. -/
theorem Wf.completed_lt_of_leased (h : Wf g c r) {k : Nat}
    (hleased : (c.slot g k).state = .receiverLeased)
    (hsequence : (c.slot g k).descriptor.identity.sequence = k) : c.completed < k := by
  obtain ⟨x, hlo, hhi, hx⟩ := Circular.exists_mod_eq c.completed (slotIndex_lt (g := g) k)
  have hslot : c.slot g (x + 1) = c.slot g k := by
    rw [Control.slot, Control.slot]
    exact congrArg c.slots hx
  rw [← hslot] at hleased hsequence
  rcases Nat.lt_or_ge c.published (x + 1) with hidle | hlive
  · -- beyond the frames a slot is reserved or free
    rcases hr : r with _ | res
    · have hfree := h.idle (x + 1) hidle (by omega) (by simp [hr])
      rw [hfree.state] at hleased
      cases hleased
    · rcases eq_or_ne (x + 1) (c.published + 1) with heq | hne
      · rw [heq, (h.reserved res hr).state] at hleased
        cases hleased
      · have hfree := h.idle (x + 1) hidle (by omega) fun _ => hne
        rw [hfree.state] at hleased
        cases hleased
  · have hdescribes := (h.live (x + 1) (by omega) hlive).describes
    rw [hdescribes.eq] at hsequence
    change x + 1 = k at hsequence
    omega

/-- **What a release can do.**  It changes nothing, or completes a leased frame; then it can still
fail for want of a doorbell. -/
theorem Wf.releaseLease {result : Except LeaseError Unit} (h : Wf g s.toControl r) (os : Outcomes)
    (identity : ReleaseIdentity) (hrelease : s.release g os identity = (s', result)) :
    (s' = s ∧ result ≠ .ok ()) ∨
      s.completed < identity.sequence ∧ identity.sequence ≤ s.consumed ∧
        identity = g.identity identity.sequence ∧
        (s.slot g identity.sequence).state = .receiverLeased ∧ s'.arena = s.arena ∧
        s'.toControl = (s.toControl.setSlot g identity.sequence
            { s.slot g identity.sequence with
              state := .releasePending, completionSequence := identity.sequence }).setConsumer
            s.consumed (s.activeLeases - 1) ∧
        (result = .ok () ∨ s'.quarantined = true) := by
  have hunchanged : ∀ {e : LeaseError}, (s, Except.error e) = (s', result) →
      s' = s ∧ result ≠ .ok () := by
    intro e heq
    obtain ⟨rfl, rfl⟩ := Prod.mk.inj heq
    exact ⟨rfl, by simp⟩
  rw [Shared.release] at hrelease
  split at hrelease
  · exact .inl (hunchanged hrelease)
  split at hrelease
  · exact .inl (hunchanged hrelease)
  rename_i hincarnation
  split at hrelease
  · exact .inl (hunchanged hrelease)
  rename_i hlane
  split at hrelease
  · exact .inl (hunchanged hrelease)
  split at hrelease
  · exact .inl (hunchanged hrelease)
  rename_i hconsumed
  dsimp only at hrelease
  split at hrelease
  · exact .inl (hunchanged hrelease)
  split at hrelease
  · exact .inl (hunchanged hrelease)
  split at hrelease
  · exact .inl (hunchanged hrelease)
  rename_i hsequence
  have hidentity : identity = g.identity identity.sequence := by
    obtain ⟨incarnation, lane, sequence⟩ := identity
    simp only [ne_eq, not_not] at hincarnation hlane
    rw [Grant.identity, hincarnation, hlane]
  split at hrelease
  · rename_i hleased
    refine .inr ⟨h.completed_lt_of_leased hleased (not_not.mp hsequence),
      Nat.not_lt.mp hconsumed, hidentity, hleased, ?_⟩
    -- both signals leave the control words and the bytes alone
    split at hrelease
    · rename_i s₁ e hcapacity
      obtain ⟨rfl, rfl⟩ := Prod.mk.inj hrelease
      exact ⟨(congrArg (fun p => p.1.arena) hcapacity).symm,
        (congrArg (fun p => p.1.toControl) hcapacity).symm, .inr rfl⟩
    rename_i s₁ hcapacity
    have harena : s₁.arena = s.arena := (congrArg (fun p => p.1.arena) hcapacity).symm
    have hcontrol := congrArg (fun p => p.1.toControl) hcapacity
    split at hrelease
    · rename_i s₂ e hdata
      obtain ⟨rfl, rfl⟩ := Prod.mk.inj hrelease
      exact ⟨(congrArg (fun p => p.1.arena) hdata).symm.trans harena,
        (congrArg (fun p => p.1.toControl) hdata).symm.trans hcontrol.symm, .inr rfl⟩
    · rename_i s₂ hdata
      obtain ⟨rfl, rfl⟩ := Prod.mk.inj hrelease
      exact ⟨(congrArg (fun p => p.1.arena) hdata).symm.trans harena,
        (congrArg (fun p => p.1.toControl) hdata).symm.trans hcontrol.symm, .inl rfl⟩
  · exact .inl (hunchanged hrelease)
  · exact .inl (hunchanged hrelease)
  · exact .inl (hunchanged hrelease)

/-! ## Every operation -/

theorem Wf.writeReservation_fst (plan : SpanPlan) (cursor : Nat) (bytes : List UInt8) :
    (s.writeReservation g plan cursor bytes).1.toControl = s.toControl := by
  rw [Shared.writeReservation]
  split
  · rfl
  split <;> rfl

/-- What a reservation claims does not depend on how far it is filled. -/
theorem Wf.refill {res : Reservation} (h : Wf g c (some res)) (cursor : Nat)
    (wireHeader : WireHeader) :
    Wf g c (some { res with cursor := cursor, wireHeader := wireHeader }) where
  completed_le := h.completed_le
  consumed_le := h.consumed_le
  published_le := h.published_le
  published_lt := h.published_lt
  write_lt := h.write_lt
  write_le := h.write_le
  reclaimed_eq := h.reclaimed_eq
  position_succ := h.position_succ
  live := h.live
  idle := h.idle
  reserved := by
    intro res' hres'
    obtain rfl := Option.some.inj hres'
    have hres := h.reserved res rfl
    exact ⟨hres.sequence_eq, hres.sequence_lt, hres.room, hres.state, hres.completion, hres.len,
      hres.plan_eq, hres.len_le, hres.fits, hres.end_lt⟩
  leases := h.leases
  leases_le := h.leases_le

/-- The invariant of a system. -/
def System.Wf (g : Grant) (sys : System) : Prop :=
  Ring.Wf g sys.shared.toControl sys.reservation

/-- **Every operation keeps the invariant**, provided the doorbell of a commit rings. -/
theorem System.Wf.step {sys : System} (h : sys.Wf g) (op : Op) (hbell : op.DoorbellRings) :
    (sys.step g op).Wf g := by
  have habort : ∀ {sys : System} {res : Reservation},
      Ring.Wf g sys.shared.toControl (some res) → (sys.abort g res).Wf g := fun h => h.abort
  cases op with
  | tryReserve os bound wireHeader =>
    have hreclaimed := Ring.Wf.reclaimCompleted_fst h os
    rcases Ring.Wf.tryReserve h os bound wireHeader with ⟨e, heq⟩ | ⟨s', result, hreclaim, hcases⟩
    · rw [System.step, System.tryReserve, heq]
      exact h
    rw [hreclaim] at hreclaimed
    rcases hcases with ⟨e, heq⟩ | ⟨plan, -, hroom, hlimit, hfree, hplan, heq⟩
    · rw [System.step, System.tryReserve, heq]
      exact hreclaimed
    · rw [System.step, System.tryReserve, heq]
      exact hreclaimed.reserve hroom hlimit hfree hplan
  | write bytes =>
    rcases hres : sys.reservation with _ | res
    · rw [System.step, hres]
      exact h
    rw [System.Wf, hres] at h
    have hcontrol := Wf.writeReservation_fst (g := g) (s := sys.shared) res.plan res.cursor bytes
    rw [System.step, hres]
    change (sys.write g res bytes).Wf g
    rw [System.write]
    split
    · rename_i s' e hwrite
      rw [hwrite] at hcontrol
      exact habort (by rw [hcontrol]; exact h)
    · rename_i s' hwrite
      rw [hwrite] at hcontrol
      rw [System.Wf, hcontrol]
      exact h.refill _ _
  | poke index byte =>
    rcases hres : sys.reservation with _ | res
    · rw [System.step, hres]
      exact h
    rw [System.step, hres]
    change (sys.poke res index byte).Wf g
    rw [System.poke]
    split <;> exact h
  | advance bytes =>
    rcases hres : sys.reservation with _ | res
    · rw [System.step, hres]
      exact h
    rw [System.Wf, hres] at h
    rw [System.step, hres]
    change (sys.advance g res bytes).Wf g
    rw [System.advance]
    split
    · exact habort h
    split
    · exact habort h
    · exact h.refill _ _
  | setWireHeader wireHeader =>
    rcases hres : sys.reservation with _ | res
    · rw [System.step, hres]
      exact h
    rw [System.Wf, hres] at h
    rw [System.step, hres]
    exact h.refill _ _
  | commit os bodyLen =>
    rcases hres : sys.reservation with _ | res
    · rw [System.step, hres]
      exact h
    rw [System.Wf, hres] at h
    rw [System.step, hres]
    change (sys.commit g os res bodyLen).Wf g
    rw [System.commit]
    split
    · exact habort h
    rename_i hlen
    split
    · exact habort h
    rcases h.commitReservation os bodyLen (Nat.not_lt.mp hlen) with ⟨e, heq⟩ |
      ⟨d, s', hd, hstart, hdlen, -, -, -, hcontrol, ⟨-, heq⟩ | ⟨hdead, -⟩⟩
    · rw [heq]
      exact habort h
    · rw [heq, System.Wf, hcontrol]
      exact h.publish hd hstart hdlen
    · rw [Op.DoorbellRings, hdead] at hbell
      cases hbell
  | abort =>
    rcases hres : sys.reservation with _ | res
    · rw [System.step, hres]
      exact h
    rw [System.Wf, hres] at h
    rw [System.step, hres]
    exact habort h
  | tryReceive =>
    rcases Ring.Wf.tryReceive h with ⟨e, heq⟩ | heq | ⟨hnext, hroom, heq⟩
    · rw [System.step, System.tryReceive, heq]
      exact h
    · rw [System.step, System.tryReceive, heq]
      exact h
    · rw [System.step, System.tryReceive, heq]
      exact Ring.Wf.lease h hnext hroom
  | release os identity =>
    rcases hrelease : sys.shared.release g os identity with ⟨s', result⟩
    have hwf : Ring.Wf g s'.toControl sys.reservation := by
      rcases Ring.Wf.releaseLease h os identity hrelease with ⟨rfl, -⟩ |
        ⟨hcompleted, hconsumed, -, hleased, -, hcontrol, -⟩
      · exact h
      · rw [hcontrol]
        exact Ring.Wf.release h hcompleted hconsumed hleased
    rw [System.step, System.release, hrelease]
    cases result <;> exact hwf
  | park dataParked capacityParked => exact h

theorem System.Wf.reserving {sys : System} {res : Reservation} (h : sys.Wf g)
    (hres : sys.reservation = some res) : Ring.Wf g sys.shared.toControl (some res) := hres ▸ h

theorem System.Wf.fresh : System.fresh.Wf g := Ring.Wf.fresh

/-- **Every reachable system keeps the invariant.** -/
theorem System.Wf.run {ops : List Op} (hbells : ∀ op ∈ ops, op.DoorbellRings) :
    (System.fresh.run g ops).Wf g := by
  have hfrom : ∀ (sys : System), sys.Wf g → (sys.run g ops).Wf g := by
    induction ops with
    | nil => exact fun _ h => h
    | cons op rest ih =>
      intro sys h
      exact ih (fun op' hop' => hbells op' (List.mem_cons_of_mem _ hop')) _
        (h.step op (hbells op List.mem_cons_self))
  exact hfrom _ System.Wf.fresh

end MagicContext.Ring
