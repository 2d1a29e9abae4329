import MagicContext.Lib.Checks
import MagicContext.Ring.Step

/-!
# What the receiver's validation accepts

A descriptor comes from memory the peer writes.  The receiver accepts it when its identity, its
header and its limits are in order and its spans are the ones a plan of the frame's body has.

## What is here

* `FrameDescriptor.InOrder`, `FrameDescriptor.SplitAt`.
* `validate_exact` — **the validation accepts exactly these**, their spans lie in the arena, apart
  from each other, and hold the body; **and it accepts what a commit publishes.**
-/

namespace MagicContext.Ring

open Word SpanPlan Checks Circular

variable {g : Grant}

/-! ## What is accepted -/

/-- Identity, header and limits of a descriptor. -/
structure FrameDescriptor.InOrder (d : FrameDescriptor) (expected : ReleaseIdentity)
    (arenaBytes : Nat) : Prop where
  schema : d.schemaVersion = descriptorSchemaVersion
  identity : d.identity = expected
  sequence : d.identity.sequence ≠ 0
  frame : d.bodyLen ≤ maxFrameBytes
  body : d.bodyLen ≤ d.allocationLen
  arena : 0 < arenaBytes
  allocation : d.allocationLen ≤ arenaBytes
  allocation_end : d.allocationStart + d.allocationLen < u64Limit
  declared : d.wireHeader.declaredLen = d.bodyLen
  version : getElem d.wireHeader 4 versionByte_lt = 2

/-- The spans of the descriptor are those of a plan. -/
structure FrameDescriptor.HasSpans (d : FrameDescriptor) (plan : SpanPlan) : Prop where
  count : d.spanCount = plan.spanCount
  span0 : d.span0 = plan.span0
  span1 : d.span1 = plan.span1

/-- The spans are the split of the body where the allocation starts in the arena. -/
def FrameDescriptor.SplitAt (d : FrameDescriptor) (arenaBytes : Nat) : Prop :=
  d.HasSpans (SpanPlan.ofRun arenaBytes (d.allocationStart % arenaBytes) d.bodyLen)

/-- A span ends inside the arena. -/
def ArenaSpan.InBounds (span : ArenaSpan) (arenaBytes : Nat) : Prop :=
  span.offset + span.len ≤ arenaBytes

/-- Two spans have no byte in common. -/
def ArenaSpan.Apart (a b : ArenaSpan) : Prop :=
  ∀ q, ¬ ((a.offset ≤ q ∧ q < a.offset + a.len) ∧ b.offset ≤ q ∧ q < b.offset + b.len)

theorem SpanPlan.ofRun_mod (capacity start len : Nat) :
    ofRun capacity (start % capacity) len =
      { ofRun capacity start len with allocationStart := start % capacity } := by
  rw [ofRun, ofRun, firstLen, firstLen, Nat.mod_mod]

variable {d : FrameDescriptor} {arenaBytes : Nat}

theorem FrameDescriptor.splitAt_iff :
    d.SplitAt arenaBytes ↔ d.HasSpans (ofRun arenaBytes d.allocationStart d.bodyLen) := by
  rw [FrameDescriptor.SplitAt, ofRun_mod]
  exact ⟨fun h => ⟨h.count, h.span0, h.span1⟩, fun h => ⟨h.count, h.span0, h.span1⟩⟩

/-! ## Both directions -/

theorem ReleaseIdentity.eq_of_fields {a b : ReleaseIdentity}
    (hincarnation : a.incarnation = b.incarnation) (hlane : a.lane = b.lane)
    (hsequence : a.sequence = b.sequence) : a = b := by
  cases a
  cases b
  dsimp only at hincarnation hlane hsequence
  rw [hincarnation, hlane, hsequence]

variable {expected : ReleaseIdentity}

/-- **What has been accepted** is in order, and is split as planned; the frame has its spans. -/
theorem FrameDescriptor.accepted {frame : ValidatedFrame}
    (h : d.validate expected arenaBytes = .ok frame) :
    d.InOrder expected arenaBytes ∧ d.SplitAt arenaBytes ∧
      frame.span0 = d.span0 ∧ frame.span1 = d.span1 ∧ frame.bodyLen = d.bodyLen := by
  rw [FrameDescriptor.validate] at h
  obtain ⟨hschema, h⟩ := check_eq_ok.mp h
  obtain ⟨hsequence, h⟩ := check_eq_ok.mp h
  obtain ⟨hincarnation, h⟩ := check_eq_ok.mp h
  obtain ⟨hlane, h⟩ := check_eq_ok.mp h
  obtain ⟨hnamed, h⟩ := check_eq_ok.mp h
  obtain ⟨hframe, h⟩ := check_eq_ok.mp h
  obtain ⟨hallocation, h⟩ := check_eq_ok.mp h
  obtain ⟨hend, h⟩ := check_eq_ok.mp h
  obtain ⟨hcount, h⟩ := check_eq_ok.mp h
  obtain ⟨hoffset, h⟩ := check_eq_ok.mp h
  rcases hfirstEnd : checkedAdd d.span0.offset d.span0.len with _ | firstEnd
  · rw [hfirstEnd] at h
    cases h
  rw [hfirstEnd] at h
  obtain ⟨hbounds, h⟩ := check_eq_ok.mp h
  rcases hsummed : checkedAdd d.span0.len d.span1.len with _ | summed
  · rw [hsummed] at h
    cases h
  rw [hsummed] at h
  obtain ⟨hlength, h⟩ := check_eq_ok.mp h
  obtain ⟨hone, h⟩ := check_eq_ok.mp h
  obtain ⟨htwo, h⟩ := check_eq_ok.mp h
  obtain ⟨hheader, h⟩ := check_eq_ok.mp h
  have hframeEq := Except.ok.inj h
  obtain ⟨rfl, -⟩ := checkedAdd_eq_some.mp hfirstEnd
  obtain ⟨rfl, -⟩ := checkedAdd_eq_some.mp hsummed
  have hendLt : d.allocationStart + d.allocationLen < u64Limit := by
    by_contra hge
    exact hend (by rw [checkedAdd_eq_none.mpr (Nat.not_lt.mp hge)]; rfl)
  have hidentity : d.identity = expected :=
    ReleaseIdentity.eq_of_fields (not_not.mp hincarnation) (not_not.mp hlane) (not_not.mp hnamed)
  have horder : d.InOrder expected arenaBytes :=
    { schema := not_not.mp hschema
      identity := hidentity
      sequence := hsequence
      frame := Nat.not_lt.mp hframe
      body := by omega
      arena := by omega
      allocation := by omega
      allocation_end := hendLt
      declared := not_not.mp fun hne => hheader (.inl hne)
      version := not_not.mp fun hne => hheader (.inr hne) }
  refine ⟨horder, splitAt_iff.mpr ?_, hframeEq ▸ rfl, hframeEq ▸ rfl, hframeEq ▸ rfl⟩
  have hoffset' : d.span0.offset = d.allocationStart % arenaBytes := not_not.mp hoffset
  rw [maxSpans] at hcount
  have hcases : d.spanCount = 1 ∨ d.spanCount = 2 := by omega
  rcases hcases with hcount | hcount
  · -- one span holds the whole body
    have hzero : d.span1 = .zero := not_not.mp fun hne => hone ⟨hcount, hne⟩
    have hlen : d.span1.len = 0 := congrArg ArenaSpan.len hzero
    have hfirst : firstLen arenaBytes d.allocationStart d.bodyLen = d.span0.len := by
      rw [firstLen]
      omega
    have hrest : d.bodyLen - d.span0.len = 0 := by omega
    refine ⟨?_, ?_, ?_⟩
    · rw [hcount, ofRun, hfirst, hrest, if_pos rfl]
    · rw [ofRun, hfirst, ← hoffset']
    · rw [hzero, ofRun, hfirst, hrest]
      rfl
  · -- two spans: the first runs to the end of the arena
    have hwrap : 0 < d.span1.len ∧ d.span0.offset + d.span0.len = arenaBytes ∧
        d.span1.offset = 0 := by
      refine ⟨?_, ?_, ?_⟩
      · exact Nat.pos_of_ne_zero fun hne => htwo ⟨hcount, .inr (.inl hne)⟩
      · exact not_not.mp fun hne => htwo ⟨hcount, .inr (.inr (.inl hne))⟩
      · exact not_not.mp fun hne => htwo ⟨hcount, .inr (.inr (.inr (.inl hne)))⟩
    have hfirst : firstLen arenaBytes d.allocationStart d.bodyLen = d.span0.len := by
      rw [firstLen]
      omega
    have hrest : d.bodyLen - d.span0.len = d.span1.len := by omega
    refine ⟨?_, ?_, ?_⟩
    · rw [hcount, ofRun, hfirst, hrest, if_neg (by omega)]
    · rw [ofRun, hfirst, ← hoffset']
    · rw [ofRun, hfirst, hrest, ← hwrap.2.2]

/-- A descriptor that is in order and split as planned is accepted. -/
theorem FrameDescriptor.validate_of_inOrder
    (hlimit : arenaBytes < u64Limit) (h : d.InOrder expected arenaBytes)
    (hsplit : d.SplitAt arenaBytes) : ∃ frame, d.validate expected arenaBytes = .ok frame := by
  have hspans := FrameDescriptor.splitAt_iff.mp hsplit
  have hpublished : d = publishedDescriptor arenaBytes d.identity d.wireHeader d.allocationStart
      d.allocationLen d.bodyLen := by
    rw [publishedDescriptor, ← h.schema, ← hspans.count, ← hspans.span0, ← hspans.span1]
  have hvalid := validate_published d.identity d.wireHeader h.arena hlimit h.sequence h.body
    h.allocation h.frame h.allocation_end h.declared h.version
  rw [← hpublished, h.identity] at hvalid
  exact ⟨_, hvalid⟩

/-- The spans of the split lie in the arena, apart from each other, and hold the body. -/
theorem FrameDescriptor.spans_of_splitAt
    (h : d.InOrder expected arenaBytes) (hsplit : d.SplitAt arenaBytes) :
    d.span0.InBounds arenaBytes ∧ d.span1.InBounds arenaBytes ∧ d.span0.Apart d.span1 ∧
      d.span0.len + d.span1.len = d.bodyLen := by
  have hspans := FrameDescriptor.splitAt_iff.mp hsplit
  have hmod := Nat.mod_lt d.allocationStart h.arena
  have hroom := firstLen_le_room arenaBytes d.allocationStart d.bodyLen
  have hle := firstLen_le arenaBytes d.allocationStart d.bodyLen
  have hsecond : d.bodyLen - firstLen arenaBytes d.allocationStart d.bodyLen ≤
      d.allocationStart % arenaBytes :=
    secondLen_le h.arena (Nat.le_trans h.body h.allocation)
  rw [hspans.span0, hspans.span1, ofRun]
  dsimp only [ArenaSpan.InBounds, ArenaSpan.Apart]
  refine ⟨by omega, by omega, fun q hq => by omega, by omega⟩

/-! ## Commits -/

/-- A reservation has a sequence, and its plan is that of a run. -/
theorem Shared.tryReserve_ok {s s' : Shared} {os : Outcomes} {bound : Nat}
    {wireHeader : WireHeader} {r : Reservation}
    (h : s.tryReserve g os bound wireHeader = (s', .ok r)) :
    r.sequence ≠ 0 ∧ ∃ write reclaimed,
      reserve g.arenaBytes write reclaimed bound = .ok r.plan := by
  rw [Shared.tryReserve] at h
  split at h
  · cases h
  split at h
  · cases h
  split at h
  · cases h
  split at h
  · cases h
  split at h
  · cases h
  split at h
  · cases h
  rename_i sequence hsequence
  split at h
  · cases h
  split at h
  · cases h
  · cases h
  · rename_i plan hplan
    obtain rfl := checkedSucc_eq_some hsequence
    cases h
    exact ⟨Nat.succ_ne_zero _, _, _, hplan⟩

/-- What a commit publishes is accepted, whatever the doorbell answers. -/
theorem Shared.validate_commitReservation (s : Shared) (os : Outcomes) {sequence : Nat}
    {plan : SpanPlan} {write reclaimed len exactLen : Nat} {wireHeader : WireHeader}
    (hsequence : sequence ≠ 0)
    (hplan : reserve g.arenaBytes write reclaimed len = .ok plan)
    (hexact : exactLen ≤ plan.allocationLen) (hdeclared : wireHeader.declaredLen = exactLen)
    (hversion : wireHeader[4] = 2) :
    ∃ frame, ((s.commitReservation g os sequence plan exactLen wireHeader).1.slot g
      sequence).descriptor.validate (g.identity sequence) g.arenaBytes = .ok frame := by
  obtain ⟨rfl, -, hlen, hle, hfits, hend⟩ := reserve_eq_ok hplan
  have hexact' : exactLen ≤ len := hexact
  have hnext : checkedAdd (ofRun g.arenaBytes write len).allocationStart
      (ofRun g.arenaBytes write len).allocationLen = some (write + len) :=
    checkedAdd_of_lt hend
  have hslot : ((s.commitReservation g os sequence (ofRun g.arenaBytes write len) exactLen
      wireHeader).1.slot g sequence).descriptor =
        publishedDescriptor g.arenaBytes (g.identity sequence) wireHeader write len exactLen := by
    rw [Shared.commitReservation, prefixSpans_ofRun hexact']
    dsimp only
    rw [if_neg (by simp [hdeclared, hversion]), hnext]
    dsimp only
    split
    · rename_i s' e hsignal
      have hcontrol := congrArg (fun p => (p.1.toControl.slot g sequence).descriptor) hsignal
      exact hcontrol.symm.trans (congrArg Slot.descriptor (slot_setSlot_self _ _))
    · rename_i s' hsignal
      have hcontrol := congrArg (fun p => (p.1.toControl.slot g sequence).descriptor) hsignal
      exact hcontrol.symm.trans (congrArg Slot.descriptor (slot_setSlot_self _ _))
  rw [hslot]
  exact ⟨_, validate_published (g.identity sequence) wireHeader g.arena_pos g.arena_lt hsequence
    hexact' (by omega) (Nat.le_trans hexact' hlen) hend hdeclared hversion⟩

/-! ## Exactness -/

/-- **A descriptor is accepted exactly when its identity, header and limits are in order and its
spans are the split of its body; the spans of an accepted one lie in the arena, apart from each
other, and hold the body; and what is committed in a reservation is accepted.** -/
theorem validate_exact :
    (∀ (d : FrameDescriptor) (expected : ReleaseIdentity) (arenaBytes : UInt64),
      (∃ frame, d.validate expected arenaBytes.toNat = .ok frame) ↔
        d.InOrder expected arenaBytes.toNat ∧ d.SplitAt arenaBytes.toNat) ∧
    (∀ (d : FrameDescriptor) (expected : ReleaseIdentity) (arenaBytes : UInt64)
      (frame : ValidatedFrame), d.validate expected arenaBytes.toNat = .ok frame →
        frame.span0.InBounds arenaBytes.toNat ∧ frame.span1.InBounds arenaBytes.toNat ∧
          frame.span0.Apart frame.span1 ∧ frame.span0.len + frame.span1.len = frame.bodyLen) ∧
    ∀ (g : Grant) (s s' t : Shared) (os os' : Outcomes) (bound : Nat) (reserved : WireHeader)
      (r : Reservation), s.tryReserve g os bound reserved = (s', .ok r) →
        ∀ (bodyLen : Nat) (wireHeader : WireHeader), bodyLen ≤ r.plan.allocationLen →
          wireHeader.declaredLen = bodyLen → wireHeader[4] = 2 →
            ∃ frame, ((t.commitReservation g os' r.sequence r.plan bodyLen wireHeader).1.slot g
              r.sequence).descriptor.validate (g.identity r.sequence) g.arenaBytes = .ok frame := by
  refine ⟨fun d expected arenaBytes => ⟨?_, ?_⟩, fun d expected arenaBytes frame h => ?_, ?_⟩
  · rintro ⟨frame, h⟩
    obtain ⟨horder, hsplit, -⟩ := FrameDescriptor.accepted h
    exact ⟨horder, hsplit⟩
  · rintro ⟨horder, hsplit⟩
    exact FrameDescriptor.validate_of_inOrder arenaBytes.toNat_lt horder hsplit
  · obtain ⟨horder, hsplit, hspan0, hspan1, hbody⟩ := FrameDescriptor.accepted h
    rw [hspan0, hspan1, hbody]
    exact FrameDescriptor.spans_of_splitAt horder hsplit
  · intro g s s' t os os' bound reserved r h bodyLen wireHeader hbody hdeclared hversion
    obtain ⟨hsequence, write, reclaimed, hplan⟩ := Shared.tryReserve_ok h
    exact t.validate_commitReservation os' hsequence hplan hbody hdeclared hversion

end MagicContext.Ring
