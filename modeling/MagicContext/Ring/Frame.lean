import MagicContext.Lib.Circular
import MagicContext.Word

/-!
# Frames: arena spans and shared descriptors

A frame of the shared-memory ring occupies a run of arena bytes, which is one span, or two when
the run passes the end of the arena, and is described to the receiver by a descriptor in shared
memory.  The receiver trusts no descriptor before it has validated it.

## What is here

* `SpanPlan.reserve` and `SpanPlan.prefixSpans` — planning a reservation from the two absolute
  cursors of the arena, and shortening its spans to the bytes that were written.
* `FrameDescriptor.validate` — the receiver's checks, in the source's order, with the error each of
  them ends in.
* `SpanPlan.reserve_eq_ok` — what a successful plan looks like; `validate_published` — **a
  descriptor that the producer publishes passes the receiver's validation**, and the validated
  frame is the one that was committed.
-/

namespace MagicContext.Ring

open Word Circular

/-! ## Arena spans -/

/-- Maximum legal body size in bytes. -/
def maxFrameBytes : Nat := 64 * 1024 * 1024

/-- Minimum payload capacity of an arena. -/
def minArenaBytes : Nat := maxFrameBytes

/-- Failure while planning an arena reservation. -/
inductive ArenaError where
  | belowMinimumCapacity | frameTooLarge | invalidCursor | exhausted | arithmeticOverflow
  deriving DecidableEq

/-- One offset-and-length region of the arena. -/
structure ArenaSpan where
  /-- Offset from the arena base. -/
  offset : Nat
  /-- Length in bytes. -/
  len : Nat
  deriving DecidableEq

/-- `ArenaSpan::default`. -/
def ArenaSpan.zero : ArenaSpan := ⟨0, 0⟩

/-- A reservation plan of at most two spans. -/
structure SpanPlan where
  /-- Absolute start of the allocation. -/
  allocationStart : Nat
  /-- Reserved bytes, including any tail that is not committed. -/
  allocationLen : Nat
  /-- The two spans; the second is empty when there is only one. -/
  span0 : ArenaSpan
  span1 : ArenaSpan
  /-- The number of spans in use. -/
  spanCount : Nat

/-- The plan of the run of `len` bytes from the absolute position `start`. -/
def SpanPlan.ofRun (capacity start len : Nat) : SpanPlan where
  allocationStart := start
  allocationLen := len
  span0 := ⟨start % capacity, Circular.firstLen capacity start len⟩
  span1 := ⟨0, len - Circular.firstLen capacity start len⟩
  spanCount := if len - Circular.firstLen capacity start len = 0 then 1 else 2

/-- Plans a reservation from the write and reclaim cursors. -/
def SpanPlan.reserve (capacity write reclaimed len : Nat) : Except ArenaError SpanPlan :=
  if capacity < minArenaBytes then .error .belowMinimumCapacity
  else if maxFrameBytes < len then .error .frameTooLarge
  else match checkedSub write reclaimed with
    | none => .error .invalidCursor
    | some used =>
      if capacity < used then .error .invalidCursor
      else if capacity - used < len then .error .exhausted
      else match checkedAdd write len with
        | none => .error .arithmeticOverflow
        | some _ => .ok (SpanPlan.ofRun capacity write len)

/-- The same allocation with the spans shortened to `exactLen` bytes. -/
def SpanPlan.prefixSpans (plan : SpanPlan) (exactLen : Nat) : Except ArenaError SpanPlan :=
  if plan.allocationLen < exactLen then .error .frameTooLarge
  else
    let firstLen := min exactLen plan.span0.len
    let secondLen := exactLen - firstLen
    .ok { plan with
      span0 := ⟨plan.span0.offset, firstLen⟩
      span1 := ⟨0, secondLen⟩
      spanCount := if secondLen = 0 then 1 else 2 }

/-! ## Descriptors -/

/-- Shared descriptor schema version. -/
def descriptorSchemaVersion : Nat := 3

/-- Maximum number of spans of a frame. -/
def maxSpans : Nat := 2

/-- The wire header of a frame. -/
abbrev WireHeader := Vector UInt8 21

/-- The version stands in the fifth byte. -/
theorem versionByte_lt : 4 < 21 := by decide

/-- The body length a wire header declares, in little-endian order. -/
def WireHeader.declaredLen (header : WireHeader) : Nat :=
  header[0].toNat + 256 * header[1].toNat + 65536 * header[2].toNat + 16777216 * header[3].toNat

/-- The identity that separates transport incarnations. -/
abbrev Incarnation := Vector UInt8 16

/-- The identity of one completion. -/
structure ReleaseIdentity where
  incarnation : Incarnation
  lane : Nat
  sequence : Nat
  deriving DecidableEq

/-- Why a descriptor was rejected. -/
inductive DescriptorError where
  | unsupportedSchema | wrongIncarnation | wrongLane | invalidSequence | frameTooLarge
  | invalidAllocation | invalidSpanCount | outOfBounds | overflow | lengthMismatch
  | invalidWrapMetadata | wireHeaderMismatch
  deriving DecidableEq

/-- The descriptor of a frame, as read from shared memory. -/
structure FrameDescriptor where
  schemaVersion : Nat
  wireHeader : WireHeader
  identity : ReleaseIdentity
  bodyLen : Nat
  allocationStart : Nat
  allocationLen : Nat
  spanCount : Nat
  span0 : ArenaSpan
  span1 : ArenaSpan

/-- The descriptor a fresh slot holds. -/
def FrameDescriptor.zero : FrameDescriptor where
  schemaVersion := 0
  wireHeader := Vector.replicate 21 0
  identity := ⟨Vector.replicate 16 0, 0, 0⟩
  bodyLen := 0
  allocationStart := 0
  allocationLen := 0
  spanCount := 0
  span0 := .zero
  span1 := .zero

/-- A frame whose descriptor was validated. -/
structure ValidatedFrame where
  wireHeader : WireHeader
  identity : ReleaseIdentity
  bodyLen : Nat
  allocationStart : Nat
  allocationLen : Nat
  spanCount : Nat
  span0 : ArenaSpan
  span1 : ArenaSpan

/-- Validates identity, lengths, spans and header fields. -/
def FrameDescriptor.validate (d : FrameDescriptor) (expected : ReleaseIdentity)
    (arenaBytes : Nat) : Except DescriptorError ValidatedFrame :=
  if d.schemaVersion ≠ descriptorSchemaVersion then .error .unsupportedSchema
  else if d.identity.sequence = 0 then .error .invalidSequence
  else if d.identity.incarnation ≠ expected.incarnation then .error .wrongIncarnation
  else if d.identity.lane ≠ expected.lane then .error .wrongLane
  else if d.identity.sequence ≠ expected.sequence then .error .invalidSequence
  else if maxFrameBytes < d.bodyLen then .error .frameTooLarge
  else if arenaBytes = 0 ∨ arenaBytes < d.allocationLen ∨ d.allocationLen < d.bodyLen then
    .error .invalidAllocation
  else if (checkedAdd d.allocationStart d.allocationLen).isNone then .error .overflow
  else if ¬ (1 ≤ d.spanCount ∧ d.spanCount ≤ maxSpans) then .error .invalidSpanCount
  else if d.span0.offset ≠ d.allocationStart % arenaBytes then .error .invalidWrapMetadata
  else match checkedAdd d.span0.offset d.span0.len with
    | none => .error .overflow
    | some firstEnd =>
      if arenaBytes < firstEnd then .error .outOfBounds
      else match checkedAdd d.span0.len d.span1.len with
        | none => .error .overflow
        | some summed =>
          if summed ≠ d.bodyLen then .error .lengthMismatch
          else if d.spanCount = 1 ∧ d.span1 ≠ .zero then .error .invalidWrapMetadata
          else if d.spanCount = 2 ∧ (d.span0.len = 0 ∨ d.span1.len = 0 ∨ firstEnd ≠ arenaBytes ∨
              d.span1.offset ≠ 0 ∨ arenaBytes < d.span1.len) then .error .invalidWrapMetadata
          else if d.wireHeader.declaredLen ≠ d.bodyLen ∨
              getElem d.wireHeader 4 versionByte_lt ≠ 2 then
            .error .wireHeaderMismatch
          else .ok
            { wireHeader := d.wireHeader, identity := d.identity, bodyLen := d.bodyLen,
              allocationStart := d.allocationStart, allocationLen := d.allocationLen,
              spanCount := d.spanCount, span0 := d.span0, span1 := d.span1 }

/-! ## Plans -/

/-- **What a successful plan looks like.** -/
theorem SpanPlan.reserve_eq_ok {capacity write reclaimed len : Nat} {plan : SpanPlan}
    (h : SpanPlan.reserve capacity write reclaimed len = .ok plan) :
    plan = SpanPlan.ofRun capacity write len ∧ minArenaBytes ≤ capacity ∧ len ≤ maxFrameBytes ∧
      reclaimed ≤ write ∧ write + len ≤ reclaimed + capacity ∧ write + len < u64Limit := by
  rw [SpanPlan.reserve] at h
  split at h
  · cases h
  split at h
  · cases h
  split at h
  · cases h
  rename_i hcap hlen _ used hused
  obtain ⟨rfl, hle⟩ := checkedSub_eq_some.mp hused
  split at h
  · cases h
  split at h
  · cases h
  split at h
  · cases h
  rename_i hsum
  obtain ⟨-, hlimit⟩ := checkedAdd_eq_some.mp hsum
  refine ⟨(Except.ok.inj h).symm, by omega, by omega, hle, by omega, hlimit⟩

/-- Shortening a plan gives the spans of the shorter run. -/
theorem SpanPlan.prefixSpans_ofRun {capacity start len n : Nat} (h : n ≤ len) :
    (SpanPlan.ofRun capacity start len).prefixSpans n =
      .ok { SpanPlan.ofRun capacity start n with allocationLen := len } := by
  have hfirst : min n (firstLen capacity start len) = firstLen capacity start n := by
    simp only [firstLen]
    omega
  rw [SpanPlan.prefixSpans, if_neg (by simpa [SpanPlan.ofRun] using h)]
  simp only [SpanPlan.ofRun, hfirst]

/-- The descriptor a producer publishes for the first `exactLen` bytes of a reserved run. -/
def publishedDescriptor (capacity : Nat) (identity : ReleaseIdentity) (header : WireHeader)
    (start len exactLen : Nat) : FrameDescriptor where
  schemaVersion := descriptorSchemaVersion
  wireHeader := header
  identity := identity
  bodyLen := exactLen
  allocationStart := start
  allocationLen := len
  spanCount := (SpanPlan.ofRun capacity start exactLen).spanCount
  span0 := (SpanPlan.ofRun capacity start exactLen).span0
  span1 := (SpanPlan.ofRun capacity start exactLen).span1

/-- What the receiver's checks amount to. -/
theorem FrameDescriptor.validate_eq_ok {d : FrameDescriptor} {expected : ReleaseIdentity}
    {arenaBytes : Nat} (hschema : d.schemaVersion = descriptorSchemaVersion)
    (hidentity : d.identity = expected) (hseq : expected.sequence ≠ 0)
    (hframe : d.bodyLen ≤ maxFrameBytes) (harena : 0 < arenaBytes) (hlimit : arenaBytes < u64Limit)
    (hlen : d.allocationLen ≤ arenaBytes) (hbody : d.bodyLen ≤ d.allocationLen)
    (hend : d.allocationStart + d.allocationLen < u64Limit)
    (hcount : d.spanCount = 1 ∨ d.spanCount = 2)
    (hoffset : d.span0.offset = d.allocationStart % arenaBytes)
    (hfirst : d.span0.offset + d.span0.len ≤ arenaBytes)
    (hsum : d.span0.len + d.span1.len = d.bodyLen)
    (hone : d.spanCount = 1 → d.span1 = .zero)
    (htwo : d.spanCount = 2 → 0 < d.span0.len ∧ 0 < d.span1.len ∧
      d.span0.offset + d.span0.len = arenaBytes ∧ d.span1.offset = 0 ∧ d.span1.len ≤ arenaBytes)
    (hdeclared : d.wireHeader.declaredLen = d.bodyLen) (hversion : d.wireHeader[4] = 2) :
    d.validate expected arenaBytes =
      .ok { wireHeader := d.wireHeader, identity := d.identity, bodyLen := d.bodyLen,
            allocationStart := d.allocationStart, allocationLen := d.allocationLen,
            spanCount := d.spanCount, span0 := d.span0, span1 := d.span1 } := by
  subst hidentity
  have hsumEnd := checkedAdd_of_lt hend
  have hfirstEnd := checkedAdd_of_lt (Nat.lt_of_le_of_lt hfirst hlimit)
  have hsummed : checkedAdd d.span0.len d.span1.len = some (d.span0.len + d.span1.len) :=
    checkedAdd_of_lt (by omega)
  rw [FrameDescriptor.validate, if_neg (by simp [hschema]), if_neg hseq, if_neg (by simp),
    if_neg (by simp), if_neg (by simp), if_neg (by omega), if_neg (by omega),
    if_neg (by simp [hsumEnd]), if_neg (by rw [maxSpans]; omega), if_neg (by simp [hoffset]),
    hfirstEnd, hsummed]
  simp only
  rw [if_neg (by omega), if_neg (by omega), if_neg (fun h => h.2 (hone h.1)),
    if_neg (fun h => by have := htwo h.1; omega), if_neg (by simp [hdeclared, hversion])]

/-- **A published descriptor passes validation**, unchanged. -/
theorem validate_published {capacity start len exactLen : Nat} (identity : ReleaseIdentity)
    (header : WireHeader) (hcap : 0 < capacity) (hlimit : capacity < u64Limit)
    (hseq : identity.sequence ≠ 0) (hexact : exactLen ≤ len) (hlen : len ≤ capacity)
    (hframe : exactLen ≤ maxFrameBytes) (hend : start + len < u64Limit)
    (hdeclared : header.declaredLen = exactLen) (hversion : header[4] = 2) :
    (publishedDescriptor capacity identity header start len exactLen).validate identity capacity =
      .ok { wireHeader := header, identity := identity, bodyLen := exactLen,
            allocationStart := start, allocationLen := len,
            spanCount := (SpanPlan.ofRun capacity start exactLen).spanCount,
            span0 := (SpanPlan.ofRun capacity start exactLen).span0,
            span1 := (SpanPlan.ofRun capacity start exactLen).span1 } := by
  have hmod := Nat.mod_lt start hcap
  have hroom := firstLen_le_room capacity start exactLen
  have hle := firstLen_le capacity start exactLen
  have hcount : (SpanPlan.ofRun capacity start exactLen).spanCount =
      if exactLen - firstLen capacity start exactLen = 0 then 1 else 2 := rfl
  refine FrameDescriptor.validate_eq_ok rfl rfl hseq hframe hcap hlimit hlen hexact hend ?_ rfl ?_
    ?_ ?_ ?_ hdeclared hversion
  · change (SpanPlan.ofRun capacity start exactLen).spanCount = 1 ∨
      (SpanPlan.ofRun capacity start exactLen).spanCount = 2
    rw [hcount]
    split <;> simp
  · change start % capacity + firstLen capacity start exactLen ≤ capacity
    omega
  · change firstLen capacity start exactLen + (exactLen - _) = exactLen
    omega
  · intro hone
    change (SpanPlan.ofRun capacity start exactLen).spanCount = 1 at hone
    rw [hcount] at hone
    split at hone
    · rename_i hzero
      change ArenaSpan.mk 0 (exactLen - firstLen capacity start exactLen) = .zero
      rw [hzero]
      rfl
    · omega
  · intro htwo
    change (SpanPlan.ofRun capacity start exactLen).spanCount = 2 at htwo
    rw [hcount] at htwo
    split at htwo
    · omega
    · -- two spans: the first runs to the end of the arena
      rename_i hpos
      change 0 < firstLen capacity start exactLen ∧
        0 < exactLen - firstLen capacity start exactLen ∧
        start % capacity + firstLen capacity start exactLen = capacity ∧ 0 = 0 ∧
        exactLen - firstLen capacity start exactLen ≤ capacity
      rw [firstLen] at hpos ⊢
      omega

end MagicContext.Ring
