import MagicContext.Lib.Utf8

/-!
# Scanning in windows

The scanner of secrets takes texts of a bounded length.  A longer text is scanned in windows that
overlap; what stands near an edge that is not one of the text is left to the neighbouring window,
and every offset is claimed by one window.

## What is here

* `Finding`, `Scanner` — what a scan reports, and the scanner.
* `WindowScan.findings`, `WindowScan.slide` — one window of a walk.
* `scanWindows` — the windows at line starts, for `windowedFindings` and `detectWindowed`.
* `detectSliding`, `detectCopying`, `detectWindowedBytes` — the walks that slide.
-/

namespace MagicContext.Redaction

open Utf8

/-! ## The scanner -/

def maxInputBytes : Nat := 512 * 1024

def maxMatchBytes : Nat := 32 * 1024

def maxRuleRadius : Nat := 16 * 1024

def maxLocalContextBytes : Nat := 1024

inductive RuleSource where
  | upstream | conservativeOverlay

/-- A range of bytes, without its end. -/
structure TextSpan where
  start : Nat
  stop : Nat
  ordered : start ≤ stop

namespace TextSpan

def len (span : TextSpan) : Nat := span.stop - span.start

def contains (span other : TextSpan) : Prop := span.start ≤ other.start ∧ other.stop ≤ span.stop

/-- The range in a text that has `base` bytes more before it. -/
def shift (base : Nat) (span : TextSpan) : TextSpan :=
  ⟨base + span.start, base + span.stop, Nat.add_le_add_left span.ordered base⟩

theorem contains_shift {base : Nat} {span other : TextSpan} (h : span.contains other) :
    (span.shift base).contains (other.shift base) :=
  ⟨Nat.add_le_add_left h.1 base, Nat.add_le_add_left h.2 base⟩

end TextSpan

/-- A secret that was found.  Its value is not empty when it is matched, and it stands in the match
as its key does. -/
structure Finding where
  ruleId : String
  ruleSource : RuleSource
  fullSpan : TextSpan
  valueSpan : TextSpan
  keySpan : Option TextSpan
  nonempty : fullSpan.start < fullSpan.stop
  valueWithin : fullSpan.contains valueSpan
  keyWithin : ∀ span ∈ keySpan, fullSpan.contains span

/-- A finding of a window at its place in the input. -/
def Finding.shift (base : Nat) (finding : Finding) : Finding where
  ruleId := finding.ruleId
  ruleSource := finding.ruleSource
  fullSpan := finding.fullSpan.shift base
  valueSpan := finding.valueSpan.shift base
  keySpan := finding.keySpan.map (TextSpan.shift base)
  nonempty := Nat.add_lt_add_left finding.nonempty base
  valueWithin := TextSpan.contains_shift finding.valueWithin
  keyWithin span hspan := by
    obtain ⟨key, hkey, rfl⟩ := Option.map_eq_some_iff.mp hspan
    exact TextSpan.contains_shift (finding.keyWithin key hkey)

inductive LimitExhausted where
  | candidates | work | match

structure ScanReport where
  findings : List Finding
  limitsHit : Option LimitExhausted

inductive ScanError where
  | inputLimitExceeded | invalidSpan

structure Scanner where
  scan : Str → Except ScanError ScanReport

inductive RedactionErrorKind where
  | construction | inputLimit | candidateLimit | workLimit | matchLimit | detectionLimit
  | invalidSpan | unknownRule | secretDetected

/-- `From<ScanError>`. -/
def RedactionErrorKind.ofScan : ScanError → RedactionErrorKind
  | .inputLimitExceeded => .inputLimit
  | .invalidSpan => .invalidSpan

def RedactionErrorKind.ofLimit : LimitExhausted → RedactionErrorKind
  | .candidates => .candidateLimit
  | .work => .workLimit
  | .match => .matchLimit

/-! ## One window -/

def maxRedactableBytes : Nat := maxInputBytes

/-- What two windows share. -/
def windowOverlapBytes : Nat := 96 * 1024

/-- How far from an edge that is not one of the text a finding is left to the other window. -/
def edgeMarginBytes : Nat := maxRuleRadius + maxLocalContextBytes

/-- The least distance from one window's start to the next one's. -/
def minWindowAdvanceBytes : Nat := (maxRedactableBytes - windowOverlapBytes) / 2

/-- The state of a walk: the end of what earlier windows have claimed. -/
structure WindowScan where
  claimedTo : Nat := 0

namespace WindowScan

/-- The scan of a window, which fails on a limit. -/
def report (scanner : Scanner) (window : Str) : Except RedactionErrorKind (List Finding) :=
  match scanner.scan window with
  | .error error => .error (.ofScan error)
  | .ok report =>
    match report.limitsHit with
    | some limit => .error (.ofLimit limit)
    | none => .ok report.findings

def keepFrom (start : Nat) : Nat := if start = 0 then 0 else edgeMarginBytes

def keepTo (window : Str) (isLast : Bool) : Nat :=
  if isLast then window.len else window.len - edgeMarginBytes

/-- The findings of the window that starts at `start` which no other window keeps. -/
def findings (scanner : Scanner) (scan : WindowScan) (window : Str) (start : Nat)
    (isLast : Bool) : Except RedactionErrorKind (List Finding × WindowScan) :=
  match report scanner window with
  | .error kind => .error kind
  | .ok found =>
    .ok (found.filter fun finding =>
        decide (keepFrom start ≤ finding.fullSpan.start ∧
          finding.fullSpan.stop ≤ keepTo window isLast ∧
          scan.claimedTo - start < finding.fullSpan.stop),
      { claimedTo := start + keepTo window isLast })

end WindowScan

/-- All but the end that is shared with the next window. -/
def windowAdvance (window : Str) : Nat := window.charFloor (window.len - windowOverlapBytes)

theorem boundary_windowAdvance (window : Str) : window.boundary (windowAdvance window) :=
  window.boundary_charFloor _

def window (input : Str) (start stop : Nat) : Except RedactionErrorKind Str :=
  match input.get? start stop with
  | some window => .ok window
  | none => .error .invalidSpan

variable (scanner : Scanner)

/-- Scans the buffer and drops its front, if nothing is found. -/
def WindowScan.slide (scan : WindowScan) (buffer : Str) (start : Nat) :
    Except RedactionErrorKind (Option (WindowScan × Str × Nat)) :=
  match scan.findings scanner buffer start false with
  | .error kind => .error kind
  | .ok (found, scan) =>
    if !found.isEmpty then .ok none
    else .ok (some (scan, buffer.after (windowAdvance buffer) (boundary_windowAdvance buffer),
      start + windowAdvance buffer))

/-! ## Windows at line starts -/

/-- `rfind` of a newline at or after `low`. -/
def rfindNewline (bytes : List UInt8) (low : Nat) : Nat → Option Nat
  | 0 => none
  | index + 1 =>
    if index < low then none
    else if bytes[index]? = some 0x0A then some index
    else rfindNewline bytes low index

/-- The start of the window after the one from `start` to `stop`: the last line start that leaves
the overlap and is far enough on, or else the last boundary that leaves it. -/
def nextStart (input : Str) (start stop : Nat) : Nat :=
  let target := input.charFloor (stop - windowOverlapBytes)
  let floor := start + minWindowAdvanceBytes
  let searchFrom := min (input.charFloor (floor - 1)) target
  let next := (((rfindNewline input.bytes searchFrom target).map (· + 1)).filter
    fun lineStart => decide (floor ≤ lineStart)).getD target
  max next (start + 1)

def scanWindowsFrom (input : Str) (start : Nat) : List (Nat × Nat) :=
  let stop := input.charFloor (start + maxRedactableBytes)
  if input.len ≤ stop then [(start, stop)]
  else (start, stop) :: scanWindowsFrom input (nextStart input start stop)
termination_by input.len - start
decreasing_by
  rename_i h
  have hnext : start + 1 ≤ nextStart input start
      (input.charFloor (start + maxRedactableBytes)) := Nat.le_max_right ..
  have hlt : start < input.len := Nat.lt_of_not_le fun hle => h <|
    Nat.le_of_eq (Str.charFloor_of_len_le (Nat.le_trans hle (Nat.le_add_right ..))).symm
  omega

def scanWindows (input : Str) : List (Nat × Nat) := scanWindowsFrom input 0

/-- The findings of some windows, at their places in the input; `redact_windowed` describes
these. -/
def findingsIn (scanner : Scanner) (input : Str) :
    WindowScan → List (Nat × Nat) → Except RedactionErrorKind (List Finding)
  | _, [] => .ok []
  | scan, (start, stop) :: windows => do
    let window ← window input start stop
    let (found, scan) ← scan.findings scanner window start (stop == input.len)
    let rest ← findingsIn scanner input scan windows
    return found.map (Finding.shift start) ++ rest

/-- The findings over which `redact_windowed` goes. -/
def windowedFindings (input : Str) : Except RedactionErrorKind (List Finding) :=
  findingsIn scanner input {} (scanWindows input)

/-- Some window of the list has a finding; the first one decides. -/
def detectIn (scanner : Scanner) (input : Str) :
    WindowScan → List (Nat × Nat) → Except RedactionErrorKind Bool
  | _, [] => .ok false
  | scan, (start, stop) :: windows => do
    let window ← window input start stop
    let (found, scan) ← scan.findings scanner window start (stop == input.len)
    if !found.isEmpty then return true else detectIn scanner input scan windows

def detectWindowed (input : Str) : Except RedactionErrorKind Bool :=
  detectIn scanner input {} (scanWindows input)

/-! ## Windows that slide -/

/-- A window that does not reach the end of the input takes the walk on. -/
theorem windowAdvance_pos {input window : Str} {start : Nat}
    (h : input.get? start (input.charFloor (start + maxRedactableBytes)) = some window)
    (hlast : input.charFloor (start + maxRedactableBytes) ≠ input.len) :
    start < input.len ∧ 0 < windowAdvance window ∧ windowAdvance window ≤ window.len := by
  have hlen := Str.len_of_get? h
  have hle : start + maxRedactableBytes ≤ input.len := Nat.le_of_not_le fun hle =>
    hlast (Str.charFloor_of_len_le hle)
  have hfloor := Str.lt_charFloor_add hle
  have hadvance := Str.lt_charFloor_add (s := window) (Nat.sub_le window.len windowOverlapBytes)
  have hadvanceLe : windowAdvance window ≤ window.len := Str.charFloor_le_len ..
  rw [maxRedactableBytes, maxInputBytes] at hfloor hle
  rw [windowOverlapBytes] at hadvance
  rw [windowAdvance, windowOverlapBytes] at hadvanceLe ⊢
  rw [maxRedactableBytes, maxInputBytes] at hlen
  omega

/-- The loop of `detect_sliding`. -/
def detectSlidingFrom (scanner : Scanner) (text : Str) (scan : WindowScan) (start : Nat) :
    Except RedactionErrorKind Bool :=
  match _hwindow : text.get? start (text.charFloor (start + maxRedactableBytes)) with
  | none => .error .invalidSpan
  | some window =>
    let isLast := text.charFloor (start + maxRedactableBytes) == text.len
    match scan.findings scanner window start isLast with
    | .error kind => .error kind
    | .ok (found, scan) =>
      if !found.isEmpty then .ok true
      else if _hlast : text.charFloor (start + maxRedactableBytes) = text.len then .ok false
      else detectSlidingFrom scanner text scan (start + windowAdvance window)
termination_by text.len - start
decreasing_by
  have := windowAdvance_pos _hwindow _hlast
  omega

def detectSliding (text : Str) : Except RedactionErrorKind Bool :=
  detectSlidingFrom scanner text {} 0

/-! ## Windows that are copied -/

theorem slide_eq_some {scanner : Scanner} {scan scan' : WindowScan} {buffer buffer' : Str}
    {start start' : Nat}
    (h : scan.slide scanner buffer start = .ok (some (scan', buffer', start'))) :
    ∃ found, scan.findings scanner buffer start false = .ok (found, scan') ∧ found = [] ∧
      buffer' = buffer.after (windowAdvance buffer) (boundary_windowAdvance buffer) ∧
      start' = start + windowAdvance buffer := by
  rw [WindowScan.slide] at h
  split at h
  · cases h
  · rename_i found scan₁ hfound
    split at h
    · cases h
    · rename_i hempty
      simp only [Except.ok.injEq, Option.some.injEq, Prod.mk.injEq] at h
      obtain ⟨rfl, rfl, rfl⟩ := h
      exact ⟨found, hfound, by simpa using hempty, rfl, rfl⟩

/-- A buffer into which no character fits is almost full. -/
theorem full_of_charFloor_eq_zero {valid : Str} {room : Nat} (hvalid : valid.len ≠ 0)
    (h : valid.charFloor room = 0) : room < 4 := by
  refine Nat.lt_of_not_le fun hroom => ?_
  rcases Nat.le_total valid.len room with hle | hle
  · exact hvalid (Str.charFloor_of_len_le hle ▸ h)
  · have hlt := Str.lt_charFloor_add hle
    omega

/-- A full buffer gets shorter by a slide. -/
theorem len_slide {buffer : Str} (h : maxRedactableBytes < buffer.len + 4) :
    (buffer.after (windowAdvance buffer) (boundary_windowAdvance buffer)).len < buffer.len ∧
      (buffer.after (windowAdvance buffer) (boundary_windowAdvance buffer)).len <
        windowOverlapBytes + 4 := by
  have hadvance := Str.lt_charFloor_add (s := buffer) (Nat.sub_le buffer.len windowOverlapBytes)
  rw [Str.len_after, windowAdvance]
  rw [maxRedactableBytes, maxInputBytes] at h
  rw [windowOverlapBytes] at hadvance ⊢
  omega

/-- Fills the buffer with a stretch of text; nothing is left to do once there is a finding. -/
def copyValid (scanner : Scanner) (scan : WindowScan) (buffer : Str) (start : Nat) (valid : Str) :
    Except RedactionErrorKind (Option (WindowScan × Str × Nat)) :=
  if _hvalid : valid.len = 0 then .ok (some (scan, buffer, start))
  else if _htake : valid.charFloor (maxRedactableBytes - buffer.len) = 0 then
    match _hslide : scan.slide scanner buffer start with
    | .error kind => .error kind
    | .ok none => .ok none
    | .ok (some (scan, buffer, start)) => copyValid scanner scan buffer start valid
  else
    copyValid scanner scan
      (buffer.append (valid.upTo (valid.charFloor (maxRedactableBytes - buffer.len))
        (valid.boundary_charFloor _)))
      start
      (valid.after (valid.charFloor (maxRedactableBytes - buffer.len)) (valid.boundary_charFloor _))
termination_by (valid.len, buffer.len)
decreasing_by
  · obtain ⟨-, -, -, rfl, -⟩ := slide_eq_some _hslide
    have hroom := full_of_charFloor_eq_zero _hvalid _htake
    exact Prod.Lex.right _ (len_slide (by omega)).1
  · refine Prod.Lex.left _ _ ?_
    rw [Str.len_after]
    omega

/-- The place of the replacement for bytes that are no text. -/
def copyInvalid (scan : WindowScan) (buffer : Str) (start : Nat)
    (invalid : List UInt8) : Except RedactionErrorKind (Option (WindowScan × Str × Nat)) :=
  if invalid.isEmpty then .ok (some (scan, buffer, start))
  else if maxRedactableBytes < buffer.len + replacement.len then
    match scan.slide scanner buffer start with
    | .error kind => .error kind
    | .ok none => .ok none
    | .ok (some (scan, buffer, start)) => .ok (some (scan, buffer.append replacement, start))
  else .ok (some (scan, buffer.append replacement, start))

/-- The loop of `detect_copying`. -/
def copyChunks (scanner : Scanner) :
    WindowScan → Str → Nat → List Utf8Chunk → Except RedactionErrorKind Bool
  | scan, buffer, start, [] => do
    let (found, _) ← scan.findings scanner buffer start true
    return !found.isEmpty
  | scan, buffer, start, chunk :: chunks => do
    match ← copyValid scanner scan buffer start chunk.valid with
    | none => return true
    | some (scan, buffer, start) =>
      match ← copyInvalid scanner scan buffer start chunk.invalid with
      | none => return true
      | some (scan, buffer, start) => copyChunks scanner scan buffer start chunks

def detectCopying (bytes : List UInt8) : Except RedactionErrorKind Bool :=
  copyChunks scanner {} .empty 0 (utf8Chunks bytes)

/-- Text is scanned where it is. -/
def detectWindowedBytes (bytes : List UInt8) : Except RedactionErrorKind Bool :=
  match fromUtf8 bytes with
  | some text => detectSliding scanner text
  | none => detectCopying scanner bytes

end MagicContext.Redaction
