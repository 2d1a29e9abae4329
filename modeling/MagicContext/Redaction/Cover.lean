import Mathlib.Data.List.Nodup
import MagicContext.Lib.Checks
import MagicContext.Redaction.Windows

/-!
# Windows that leave no gap

Whether there is a finding at some place depends on the bytes near it only.  So a window decides on
what is far enough from its edges as the whole text would, and windows that overlap enough decide
on everything, each place by one of them.

## What is here

* `Scanner.Decides` — a scanner that decides by the bytes near a match.
* `findings_iff` — what one window keeps.
* `Cover` — windows that leave no gap, and what a walk over them finds.
* `cover_scanWindows`, `cover_slidingWindows` — the windows of the program.
* `detectSliding_eq` — the walk that slides goes over its windows.
-/

namespace MagicContext.Redaction

open Utf8 WindowScan Finding Checks

/-! ## Deciding by what is near -/

/-- The part of a list from `a` to `b`, and up to `margin` items on both sides of it; there are
fewer where the list ends. -/
def near {α : Type} (margin : Nat) (l : List α) (a b : Nat) : List α × List α × List α :=
  ((l.take a).drop (a - margin), (l.drop a).take (b - a), (l.drop b).take margin)

/-- The bytes of a range and those near it. -/
def context (text : Str) (span : TextSpan) : List UInt8 × List UInt8 × List UInt8 :=
  near edgeMarginBytes text.bytes span.start span.stop

/-- What a scan that hits no limit reports is given by `whole`, and whether that has a finding at
some place depends on the bytes near it. -/
structure Scanner.Decides (scanner : Scanner) (whole : Str → List Finding) : Prop where
  complete : ∀ {text report}, scanner.scan text = .ok report → report.limitsHit = none →
    report.findings = whole text
  nodup : ∀ text, (whole text).Nodup
  within : ∀ {text finding}, finding ∈ whole text →
    finding.fullSpan.stop ≤ text.len ∧ finding.fullSpan.len ≤ maxMatchBytes
  near : ∀ {text text' : Str} (finding : Finding) (base base' : Nat),
    finding.fullSpan.len ≤ maxMatchBytes →
    (finding.shift base).fullSpan.stop ≤ text.len →
    (finding.shift base').fullSpan.stop ≤ text'.len →
    context text (finding.shift base).fullSpan = context text' (finding.shift base').fullSpan →
    (finding.shift base ∈ whole text ↔ finding.shift base' ∈ whole text')

/-- The scan of a window fails. -/
def Scanner.Fails (scanner : Scanner) (window : Str) (kind : RedactionErrorKind) : Prop :=
  WindowScan.report scanner window = .error kind

/-! ### Places -/

@[simp] theorem shift_start (base : Nat) (finding : Finding) :
    (finding.shift base).fullSpan.start = base + finding.fullSpan.start := rfl

@[simp] theorem shift_stop (base : Nat) (finding : Finding) :
    (finding.shift base).fullSpan.stop = base + finding.fullSpan.stop := rfl

/-- The range in what is left without the first `base` bytes. -/
def TextSpan.unshift (base : Nat) (span : TextSpan) : TextSpan :=
  ⟨span.start - base, span.stop - base, Nat.sub_le_sub_right span.ordered base⟩

theorem TextSpan.shift_unshift {base : Nat} {span : TextSpan} (h : base ≤ span.start) :
    (span.unshift base).shift base = span := by
  obtain ⟨start, stop, ordered⟩ := span
  simp only [shift, unshift, TextSpan.mk.injEq]
  exact ⟨Nat.add_sub_cancel' h, Nat.add_sub_cancel' (Nat.le_trans h ordered)⟩

theorem TextSpan.unshift_shift (base : Nat) (span : TextSpan) :
    (span.shift base).unshift base = span := by
  simp only [shift, unshift, Nat.add_sub_cancel_left]

theorem TextSpan.shift_injective (base : Nat) : Function.Injective (shift base) :=
  Function.LeftInverse.injective (unshift_shift base)

theorem Finding.shift_zero (finding : Finding) : finding.shift 0 = finding := by
  have hzero : TextSpan.shift 0 = id := by
    funext span
    simp [TextSpan.shift]
  simp [shift, hzero]

theorem Finding.shift_injective (base : Nat) : Function.Injective (shift base) := by
  intro finding finding' h
  obtain ⟨ruleId', ruleSource', fullSpan', valueSpan', keySpan', _, _, _⟩ := finding'
  obtain ⟨rfl, rfl, hfull, hvalue, hkey⟩ := mk.inj h
  cases TextSpan.shift_injective base hfull
  cases TextSpan.shift_injective base hvalue
  cases Option.map_injective (TextSpan.shift_injective base) hkey
  rfl

/-- A finding past an offset is the shift of one. -/
theorem Finding.exists_shift {base : Nat} {finding : Finding}
    (h : base ≤ finding.fullSpan.start) : ∃ f : Finding, f.shift base = finding := by
  obtain ⟨ruleId, ruleSource, fullSpan, valueSpan, keySpan, hne, hvalue, hkey⟩ := finding
  have hunshift : ∀ {span : TextSpan}, fullSpan.contains span →
      (fullSpan.unshift base).contains (span.unshift base) := fun hspan =>
    ⟨Nat.sub_le_sub_right hspan.1 base, Nat.sub_le_sub_right hspan.2 base⟩
  refine ⟨⟨ruleId, ruleSource, fullSpan.unshift base, valueSpan.unshift base,
    keySpan.map (TextSpan.unshift base), Nat.sub_lt_sub_right h hne, hunshift hvalue,
    fun span hspan => ?_⟩, ?_⟩
  · obtain ⟨key, hmem, rfl⟩ := Option.map_eq_some_iff.mp hspan
    exact hunshift (hkey key hmem)
  · have hkeys : (keySpan.map (TextSpan.unshift base)).map (TextSpan.shift base) = keySpan := by
      cases keySpan with
      | none => rfl
      | some key =>
        exact congrArg some (TextSpan.shift_unshift (Nat.le_trans h (hkey key rfl).1))
    simp only [shift, TextSpan.shift_unshift h, TextSpan.shift_unshift (Nat.le_trans h hvalue.1),
      hkeys]

/-! ### Windows -/

/-- **What is near in a window is near in the list**, away from edges that are not the list's. -/
theorem near_window {α : Type} {margin : Nat} {l : List α} {start stop a b : Nat} (hab : a ≤ b)
    (hb : b ≤ stop - start) (hstop : stop ≤ l.length) (hleft : start = 0 ∨ margin ≤ a)
    (hright : stop = l.length ∨ b + margin ≤ stop - start) :
    near margin ((l.drop start).take (stop - start)) a b =
      near margin l (start + a) (start + b) := by
  refine Prod.ext ?_ (Prod.ext ?_ ?_) <;> simp only [near]
  · have hback : start + a - margin = start + (a - margin) := by omega
    rw [List.take_take, Nat.min_eq_left (by omega), hback, ← List.drop_drop]
    simp only [List.drop_take, Nat.add_sub_cancel_left]
  · rw [List.drop_take, List.take_take, List.drop_drop, Nat.min_eq_left (by omega),
      Nat.add_sub_add_left]
  · rw [List.drop_take, List.take_take, List.drop_drop, List.take_eq_take_iff, List.length_drop]
    omega

theorem context_window {text window : Str} {start stop : Nat} {span : TextSpan}
    (hwindow : text.get? start stop = some window) (hspan : span.stop ≤ window.len)
    (hleft : start = 0 ∨ edgeMarginBytes ≤ span.start)
    (hright : stop = text.len ∨ span.stop + edgeMarginBytes ≤ window.len) :
    context window span = context text (span.shift start) := by
  have hlen := Str.len_of_get? hwindow
  obtain ⟨-, -, hstop, hbytes⟩ := Str.get?_eq_some.mp hwindow
  rw [context, hbytes]
  rw [hlen] at hspan hright
  exact near_window span.ordered hspan hstop.le hleft hright

/-! ## What a window keeps -/

section Keeping
variable {scanner : Scanner} {whole : Str → List Finding} {text w : Str} {start stop : Nat}
  {scan scan' : WindowScan} {found : List Finding}

/-- A walk that has claimed what ends at `claimed` can go on with a window from `start`: what ends
later starts far enough from the window's edge. -/
def Joined (start claimed : Nat) : Prop :=
  start = 0 ∧ claimed = 0 ∨ start + edgeMarginBytes + maxMatchBytes ≤ claimed + 1

theorem report_eq_ok (hdecides : scanner.Decides whole)
    (h : report scanner w = .ok found) : found = whole w := by
  rw [report] at h
  split at h
  · cases h
  · rename_i report hscan
    split at h
    · cases h
    · rename_i hlimit
      cases h
      exact hdecides.complete hscan hlimit

theorem findings_eq_ok {isLast : Bool}
    (h : scan.findings scanner w start isLast = .ok (found, scan')) :
    ∃ all, report scanner w = .ok all ∧
      found = all.filter (fun finding =>
        decide (keepFrom start ≤ finding.fullSpan.start ∧ finding.fullSpan.stop ≤ keepTo w isLast ∧
          scan.claimedTo - start < finding.fullSpan.stop)) ∧
      scan'.claimedTo = start + keepTo w isLast := by
  rw [findings] at h
  split at h
  · cases h
  · rename_i all hreport
    obtain ⟨rfl, rfl⟩ := Prod.mk.inj (Except.ok.inj h)
    exact ⟨all, hreport, rfl, rfl⟩

/-- **What a window keeps** is what ends between what was claimed before and what it claims. -/
theorem findings_iff (hdecides : scanner.Decides whole)
    (hwindow : text.get? start stop = some w) (hjoined : Joined start scan.claimedTo)
    (h : scan.findings scanner w start (stop == text.len) = .ok (found, scan')) :
    (found.map (shift start)).Nodup ∧ scan'.claimedTo = start + keepTo w (stop == text.len) ∧
      ∀ finding, finding ∈ found.map (shift start) ↔
        finding ∈ whole text ∧ scan.claimedTo < finding.fullSpan.stop ∧
          finding.fullSpan.stop ≤ scan'.claimedTo := by
  have hlen := Str.len_of_get? hwindow
  obtain ⟨hle, -, hstop, -⟩ := Str.get?_eq_some.mp hwindow
  have hstop' := hstop.le
  obtain ⟨all, hreport, rfl, hclaimed⟩ := findings_eq_ok h
  cases report_eq_ok hdecides hreport
  refine ⟨List.Nodup.map (shift_injective start) (List.Nodup.filter _ (hdecides.nodup w)),
    hclaimed, fun finding => ?_⟩
  -- Away from the edges the window decides as the text does.
  have hnear : ∀ f : Finding, f.fullSpan.len ≤ maxMatchBytes → keepFrom start ≤ f.fullSpan.start →
      f.fullSpan.stop ≤ keepTo w (stop == text.len) →
      (f ∈ whole w ↔ f.shift start ∈ whole text) := by
    intro f hmatch hfrom hto
    have hstopLe : f.fullSpan.stop ≤ w.len := by
      refine Nat.le_trans hto ?_
      rw [keepTo]
      split
      · exact Nat.le_refl _
      · exact Nat.sub_le ..
    have hcontext : context w f.fullSpan = context text (f.fullSpan.shift start) := by
      refine context_window hwindow hstopLe ?_ ?_
      · rw [keepFrom] at hfrom
        split at hfrom
        · exact .inl ‹_›
        · exact .inr hfrom
      · rw [keepTo] at hto
        split at hto
        · exact .inl (beq_iff_eq.mp ‹_›)
        · have hne := f.nonempty
          exact .inr (by omega)
    have hzero := @Scanner.Decides.near _ _ hdecides w text f 0 start hmatch
      (by rw [shift_zero]; exact hstopLe)
      (by rw [shift_stop]; omega) (by rw [shift_zero]; exact hcontext)
    rwa [shift_zero] at hzero
  rw [List.mem_map, hclaimed]
  constructor
  · rintro ⟨f, hf, rfl⟩
    rw [List.mem_filter, decide_eq_true_eq] at hf
    obtain ⟨hmem, hfrom, hto, hnew⟩ := hf
    refine ⟨(hnear f (hdecides.within hmem).2 hfrom hto).mp hmem, ?_, ?_⟩
    · rw [shift_stop]
      omega
    · rw [shift_stop]
      omega
  · rintro ⟨hmem, hnew, hto⟩
    have hmatch := (hdecides.within hmem).2
    rw [TextSpan.len] at hmatch
    -- What ends past what was claimed starts far enough from the edge.
    have hfrom : start + keepFrom start ≤ finding.fullSpan.start := by
      rw [keepFrom]
      rcases hjoined with ⟨rfl, -⟩ | hjoined
      · rw [if_pos rfl]
        exact Nat.zero_le _
      · split <;> omega
    obtain ⟨f, rfl⟩ := exists_shift (Nat.le_trans (Nat.le_add_right ..) hfrom)
    rw [shift_start] at hfrom
    rw [shift_stop] at hnew hto hmatch
    have hmatch' : f.fullSpan.len ≤ maxMatchBytes := by
      rw [shift_start, Nat.add_sub_add_left] at hmatch
      exact hmatch
    refine ⟨f, ?_, rfl⟩
    rw [List.mem_filter, decide_eq_true_eq]
    have hfrom' := Nat.le_of_add_le_add_left hfrom
    have hto' := Nat.le_of_add_le_add_left hto
    have hpos := f.nonempty
    exact ⟨(hnear f hmatch' hfrom' hto').mpr hmem, hfrom', hto', by omega⟩

end Keeping

/-! ## Windows without a gap -/

/-- Windows that go on from `start`, where what ends at `claimed` is claimed, to the end of the
text. -/
inductive Cover (text : Str) : Nat → Nat → List (Nat × Nat) → Prop
  | last {start claimed : Nat} {w : Str} (hjoined : Joined start claimed)
      (hwindow : text.get? start text.len = some w) (hlen : w.len ≤ maxRedactableBytes) :
      Cover text start claimed [(start, text.len)]
  | next {start stop claimed start' : Nat} {w : Str} {windows : List (Nat × Nat)}
      (hjoined : Joined start claimed) (hwindow : text.get? start stop = some w)
      (hlen : w.len ≤ maxRedactableBytes) (hstop : stop ≠ text.len)
      (hclaimed : claimed ≤ start + (w.len - edgeMarginBytes))
      (hrest : Cover text start' (start + (w.len - edgeMarginBytes)) windows) :
      Cover text start claimed ((start, stop) :: windows)

variable {kind : RedactionErrorKind}

section Walks
variable {scanner : Scanner} {whole : Str → List Finding} {text w : Str} {start stop claimed : Nat}
  {windows : List (Nat × Nat)} {scan scan' : WindowScan} {found : List Finding}

theorem window_eq_ok (h : text.get? start stop = some w) : window text start stop = .ok w := by
  rw [window, h]

theorem keepTo_of_last : keepTo w (text.len == text.len) = w.len := by
  rw [keepTo, if_pos (beq_self_eq_true _)]

theorem keepTo_of_ne (h : stop ≠ text.len) :
    keepTo w (stop == text.len) = w.len - edgeMarginBytes := by
  rw [keepTo, if_neg fun heq => h (beq_iff_eq.mp heq)]

theorem findingsIn_cons (hwindow : text.get? start stop = some w)
    (h : findingsIn scanner text scan ((start, stop) :: windows) = .ok found) :
    ∃ kept scan' rest, scan.findings scanner w start (stop == text.len) = .ok (kept, scan') ∧
      findingsIn scanner text scan' windows = .ok rest ∧
      found = kept.map (shift start) ++ rest := by
  rw [findingsIn] at h
  obtain ⟨w', hw', h⟩ := bind_eq_ok.mp h
  rw [window_eq_ok hwindow] at hw'
  cases hw'
  obtain ⟨⟨kept, scan'⟩, hkept, h⟩ := bind_eq_ok.mp h
  obtain ⟨rest, hrest, h⟩ := bind_eq_ok.mp h
  exact ⟨kept, scan', rest, hkept, hrest, (Except.ok.inj h).symm⟩

theorem detectIn_cons (hwindow : text.get? start stop = some w) {verdict : Bool}
    (h : detectIn scanner text scan ((start, stop) :: windows) = .ok verdict) :
    ∃ kept scan', scan.findings scanner w start (stop == text.len) = .ok (kept, scan') ∧
      (kept ≠ [] ∧ verdict = true ∨
        kept = [] ∧ detectIn scanner text scan' windows = .ok verdict) := by
  rw [detectIn] at h
  obtain ⟨w', hw', h⟩ := bind_eq_ok.mp h
  rw [window_eq_ok hwindow] at hw'
  cases hw'
  obtain ⟨⟨kept, scan'⟩, hkept, h⟩ := bind_eq_ok.mp h
  refine ⟨kept, scan', hkept, ?_⟩
  cases kept with
  | nil => exact .inr ⟨rfl, h⟩
  | cons finding kept => exact .inl ⟨List.cons_ne_nil _ _, (Except.ok.inj h).symm⟩

/-- **A walk over windows without a gap** finds everything that is not claimed yet, once. -/
theorem Cover.findingsIn (hdecides : scanner.Decides whole) (h : Cover text start claimed windows)
    (hscan : scan.claimedTo = claimed)
    (hfound : findingsIn scanner text scan windows = .ok found) :
    found.Nodup ∧ ∀ finding, finding ∈ found ↔
      finding ∈ whole text ∧ claimed < finding.fullSpan.stop := by
  induction h generalizing scan found with
  | @last start claimed w hjoined hwindow hlen =>
    subst hscan
    obtain ⟨kept, scan', rest, hkept, hrest, rfl⟩ := findingsIn_cons hwindow hfound
    cases hrest
    obtain ⟨hnodup, hclaimed, hmem⟩ := findings_iff hdecides hwindow hjoined hkept
    rw [List.append_nil]
    refine ⟨hnodup, fun finding => (hmem finding).trans (and_congr_right fun hfinding =>
      and_iff_left ?_)⟩
    rw [hclaimed, keepTo_of_last, Str.len_of_get? hwindow]
    have hle := (hdecides.within hfinding).1
    omega
  | @next start stop claimed start' w windows hjoined hwindow hlen hstop hclaimed hrest ih =>
    subst hscan
    obtain ⟨kept, scan', rest, hkept, hrestFound, rfl⟩ := findingsIn_cons hwindow hfound
    obtain ⟨hnodup, hclaimed', hmem⟩ := findings_iff hdecides hwindow hjoined hkept
    rw [keepTo_of_ne hstop] at hclaimed'
    obtain ⟨hnodupRest, hmemRest⟩ := ih hclaimed' hrestFound
    rw [← hclaimed'] at hmemRest hclaimed
    refine ⟨List.nodup_append.mpr ⟨hnodup, hnodupRest, fun f hf f' hf' heq => ?_⟩,
      fun finding => ?_⟩
    · have hbefore := ((hmem f).mp hf).2.2
      have hafter := ((hmemRest f').mp hf').2
      rw [← heq] at hafter
      omega
    · rw [List.mem_append, hmem, hmemRest, ← and_or_left]
      exact and_congr_right fun _ => by omega

/-- **The verdict** of a walk over windows without a gap. -/
theorem Cover.detectIn (hdecides : scanner.Decides whole) (h : Cover text start claimed windows)
    (hscan : scan.claimedTo = claimed) {verdict : Bool}
    (hverdict : detectIn scanner text scan windows = .ok verdict) :
    verdict = true ↔ ∃ finding ∈ whole text, claimed < finding.fullSpan.stop := by
  induction h generalizing scan with
  | @last start claimed w hjoined hwindow hlen =>
    subst hscan
    obtain ⟨kept, scan', hkept, hverdict⟩ := detectIn_cons hwindow hverdict
    obtain ⟨-, hclaimed, hmem⟩ := findings_iff hdecides hwindow hjoined hkept
    rw [keepTo_of_last, Str.len_of_get? hwindow] at hclaimed
    rcases hverdict with ⟨hne, rfl⟩ | ⟨rfl, hverdict⟩
    · obtain ⟨f, hf⟩ := List.exists_mem_of_ne_nil _ hne
      have hfinding := (hmem _).mp (List.mem_map_of_mem hf)
      exact iff_of_true rfl ⟨_, hfinding.1, hfinding.2.1⟩
    · cases hverdict
      refine iff_of_false nofun ?_
      rintro ⟨finding, hfinding, hnew⟩
      have hle := (hdecides.within hfinding).1
      exact absurd ((hmem finding).mpr ⟨hfinding, hnew, by omega⟩) List.not_mem_nil
  | @next start stop claimed start' w windows hjoined hwindow hlen hstop hclaimed hrest ih =>
    subst hscan
    obtain ⟨kept, scan', hkept, hverdict⟩ := detectIn_cons hwindow hverdict
    obtain ⟨-, hclaimed', hmem⟩ := findings_iff hdecides hwindow hjoined hkept
    rw [keepTo_of_ne hstop] at hclaimed'
    rcases hverdict with ⟨hne, rfl⟩ | ⟨rfl, hverdict⟩
    · obtain ⟨f, hf⟩ := List.exists_mem_of_ne_nil _ hne
      have hfinding := (hmem _).mp (List.mem_map_of_mem hf)
      exact iff_of_true rfl ⟨_, hfinding.1, hfinding.2.1⟩
    · rw [ih hclaimed' hverdict]
      refine exists_congr fun finding => and_congr_right fun hfinding => ?_
      -- What ends before the next window's claim would have been kept here.
      have hnone : ¬ (scan.claimedTo < finding.fullSpan.stop ∧
          finding.fullSpan.stop ≤ scan'.claimedTo) := fun h =>
        absurd ((hmem finding).mpr ⟨hfinding, h⟩) List.not_mem_nil
      rw [← hclaimed'] at hclaimed ⊢
      omega

theorem findings_eq_error {isLast : Bool} (h : scan.findings scanner w start isLast = .error kind) :
    scanner.Fails w kind := by
  rw [findings] at h
  split at h
  · rename_i kind' hreport
    cases h
    exact hreport
  · cases h

theorem findingsIn_cons_error (hwindow : text.get? start stop = some w)
    (h : findingsIn scanner text scan ((start, stop) :: windows) = .error kind) :
    scanner.Fails w kind ∨ ∃ scan', findingsIn scanner text scan' windows = .error kind := by
  rw [findingsIn, window_eq_ok hwindow] at h
  rcases bind_eq_error.mp h with h | ⟨w', hw', h⟩
  · cases h
  · cases hw'
    rcases bind_eq_error.mp h with h | ⟨⟨kept, scan'⟩, -, h⟩
    · exact .inl (findings_eq_error h)
    · rcases bind_eq_error.mp h with h | ⟨rest, -, h⟩
      · exact .inr ⟨scan', h⟩
      · cases h

theorem detectIn_cons_error (hwindow : text.get? start stop = some w)
    (h : detectIn scanner text scan ((start, stop) :: windows) = .error kind) :
    scanner.Fails w kind ∨ ∃ scan', detectIn scanner text scan' windows = .error kind := by
  rw [detectIn, window_eq_ok hwindow] at h
  rcases bind_eq_error.mp h with h | ⟨w', hw', h⟩
  · cases h
  · cases hw'
    rcases bind_eq_error.mp h with h | ⟨⟨kept, scan'⟩, -, h⟩
    · exact .inl (findings_eq_error h)
    · cases kept with
      | nil => exact .inr ⟨scan', h⟩
      | cons => cases h

/-- Some window of the text cannot be scanned. -/
def FailsIn (scanner : Scanner) (text : Str) (kind : RedactionErrorKind) : Prop :=
  ∃ start stop w, text.get? start stop = some w ∧ w.len ≤ maxRedactableBytes ∧ scanner.Fails w kind

/-- **A walk fails** only where the scan of a window does. -/
theorem Cover.walk_error {β : Type}
    {walk : WindowScan → List (Nat × Nat) → Except RedactionErrorKind β}
    (hnil : ∀ scan, walk scan [] ≠ .error kind)
    (hcons : ∀ {scan start stop w windows}, text.get? start stop = some w →
      walk scan ((start, stop) :: windows) = .error kind →
      scanner.Fails w kind ∨ ∃ scan', walk scan' windows = .error kind)
    (h : Cover text start claimed windows) (hfails : walk scan windows = .error kind) :
    FailsIn scanner text kind := by
  induction h generalizing scan with
  | last _ hwindow hlen =>
    rcases hcons hwindow hfails with h | ⟨scan', h⟩
    · exact ⟨_, _, _, hwindow, hlen, h⟩
    · exact absurd h (hnil scan')
  | next _ hwindow hlen _ _ _ ih =>
    rcases hcons hwindow hfails with h | ⟨scan', h⟩
    · exact ⟨_, _, _, hwindow, hlen, h⟩
    · exact ih h

theorem Cover.findingsIn_error (h : Cover text start claimed windows)
    (hfails : Redaction.findingsIn scanner text scan windows = .error kind) :
    FailsIn scanner text kind :=
  h.walk_error (fun _ h => by cases h) findingsIn_cons_error hfails

theorem Cover.detectIn_error (h : Cover text start claimed windows)
    (hfails : Redaction.detectIn scanner text scan windows = .error kind) :
    FailsIn scanner text kind :=
  h.walk_error (fun _ h => by cases h) detectIn_cons_error hfails

end Walks

/-! ## The walks of the program -/

section Starts
variable {text w : Str} {start stop claimed : Nat}

theorem rfindNewline_eq_some {bytes : List UInt8} {low high index : Nat}
    (h : rfindNewline bytes low high = some index) :
    low ≤ index ∧ index < high ∧ bytes[index]? = some 0x0A := by
  induction high with
  | zero => cases h
  | succ high ih =>
    rw [rfindNewline] at h
    split at h
    · cases h
    · split at h
      · cases h
        exact ⟨by omega, Nat.lt_succ_self _, ‹_›⟩
      · obtain ⟨hlow, hhigh, hbyte⟩ := ih h
        exact ⟨hlow, Nat.lt_succ_of_lt hhigh, hbyte⟩

/-- A window that does not reach the end of the text is almost full. -/
theorem stop_of_next (hstop : text.charFloor (start + maxRedactableBytes) ≠ text.len) :
    start + maxRedactableBytes < text.charFloor (start + maxRedactableBytes) + 4 :=
  Str.lt_charFloor_add (Nat.le_of_not_le fun hle => hstop (Str.charFloor_of_len_le hle))

/-- **The next window** starts at a boundary, further on, and leaves the overlap. -/
theorem nextStart_spec (hstop : text.charFloor (start + maxRedactableBytes) ≠ text.len) :
    text.boundary (nextStart text start (text.charFloor (start + maxRedactableBytes))) ∧
      start < nextStart text start (text.charFloor (start + maxRedactableBytes)) ∧
      nextStart text start (text.charFloor (start + maxRedactableBytes)) + windowOverlapBytes ≤
        text.charFloor (start + maxRedactableBytes) := by
  have hfull := stop_of_next hstop
  have hle := text.charFloor_le_len (start + maxRedactableBytes)
  have hroom : windowOverlapBytes + 8 ≤ maxRedactableBytes := by decide
  have hadvance : 1 ≤ minWindowAdvanceBytes := by decide
  rw [nextStart]
  -- The bounds are all that matters of the constants.
  generalize text.charFloor (start + maxRedactableBytes) = stop at *
  generalize minWindowAdvanceBytes = advance at *
  generalize windowOverlapBytes = overlap at *
  have htarget := @Str.lt_charFloor_add text (stop - overlap) (by omega)
  have htargetLe := text.charFloor_le (stop - overlap)
  have hboundary := text.boundary_charFloor (stop - overlap)
  generalize text.charFloor (stop - overlap) = target at *
  have hnext : ∀ next, text.boundary next → start + 1 ≤ next → next ≤ target →
      text.boundary (max next (start + 1)) ∧ start < max next (start + 1) ∧
        max next (start + 1) + overlap ≤ stop := fun next hb hlow hhigh => by
    rw [Nat.max_eq_left hlow]
    exact ⟨hb, hlow, by omega⟩
  rcases hfind : Option.filter (fun lineStart => decide (start + advance ≤ lineStart))
    ((rfindNewline text.bytes (min (text.charFloor (start + advance - 1)) target) target).map
      (· + 1)) with _ | lineStart
  · rw [Option.getD_none]
    exact hnext target hboundary (by omega) (Nat.le_refl _)
  · rw [Option.getD_some]
    obtain ⟨hmap, hfloor⟩ := Option.filter_eq_some_iff.mp hfind
    obtain ⟨index, hindex, rfl⟩ := Option.map_eq_some_iff.mp hmap
    obtain ⟨-, hlt, hbyte⟩ := rfindNewline_eq_some hindex
    rw [decide_eq_true_eq] at hfloor
    exact hnext (index + 1) (text.valid.boundary_succ hbyte (by decide)) (by omega) hlt

/-- A window that leaves the overlap is joined to the next one. -/
theorem joined_of_overlap {start' : Nat} (hoverlap : start' + windowOverlapBytes ≤ stop) :
    Joined start' (stop - edgeMarginBytes) := by
  right
  rw [edgeMarginBytes, maxRuleRadius, maxLocalContextBytes, maxMatchBytes]
  rw [windowOverlapBytes] at hoverlap
  omega

/-- The walk has claimed nothing yet, or all of the last window but its margin. -/
def Claimed (text : Str) (start claimed : Nat) : Prop :=
  claimed = 0 ∨ claimed + edgeMarginBytes ≤ text.charFloor (start + maxRedactableBytes)

theorem exists_window (hstart : text.boundary start) :
    ∃ w, text.get? start (text.charFloor (start + maxRedactableBytes)) = some w ∧
      w.len = text.charFloor (start + maxRedactableBytes) - start ∧
      start ≤ text.charFloor (start + maxRedactableBytes) ∧ w.len ≤ maxRedactableBytes := by
  have hle := hstart.le_charFloor (Nat.le_add_right start maxRedactableBytes)
  obtain ⟨w, hw⟩ := Str.exists_get? hle hstart (text.boundary_charFloor _)
  have hlen := Str.len_of_get? hw
  have hfloor := text.charFloor_le (start + maxRedactableBytes)
  exact ⟨w, hw, hlen, hle, by omega⟩

/-- A walk ends with a window that reaches the end of the text. -/
theorem Cover.stop_here (hstart : text.boundary start) (hjoined : Joined start claimed)
    (hlast : text.charFloor (start + maxRedactableBytes) = text.len) :
    Cover text start claimed [(start, text.charFloor (start + maxRedactableBytes))] := by
  obtain ⟨w, hw, -, -, hlen⟩ := exists_window hstart
  rw [hlast] at hw ⊢
  exact .last hjoined hw hlen

/-- What a window claims is claimed before the next one. -/
theorem claimed_next {start' : Nat} (hle : start ≤ start')
    (hstop : text.charFloor (start + maxRedactableBytes) ≠ text.len) :
    Claimed text start' (text.charFloor (start + maxRedactableBytes) - edgeMarginBytes) := by
  have hmono : text.charFloor (start + maxRedactableBytes) ≤
      text.charFloor (start' + maxRedactableBytes) :=
    (text.boundary_charFloor _).le_charFloor
      (Nat.le_trans (text.charFloor_le _) (Nat.add_le_add_right hle _))
  have hfull := stop_of_next hstop
  have hmargin : edgeMarginBytes + 4 ≤ maxRedactableBytes := by decide
  right
  omega

/-- A walk goes on where the overlap is left. -/
theorem Cover.go_on {start' : Nat} {windows : List (Nat × Nat)} (hstart : text.boundary start)
    (hjoined : Joined start claimed) (hclaimed : Claimed text start claimed)
    (hstop : text.charFloor (start + maxRedactableBytes) ≠ text.len)
    (hrest : Cover text start'
      (text.charFloor (start + maxRedactableBytes) - edgeMarginBytes) windows) :
    Cover text start claimed ((start, text.charFloor (start + maxRedactableBytes)) :: windows) := by
  obtain ⟨w, hw, hlen, -, hlenLe⟩ := exists_window hstart
  have hfull := stop_of_next hstop
  have hmargin : edgeMarginBytes + 4 ≤ maxRedactableBytes := by decide
  have hclaim : start + (w.len - edgeMarginBytes) =
      text.charFloor (start + maxRedactableBytes) - edgeMarginBytes := by
    rw [hlen]
    omega
  refine Cover.next (w := w) hjoined hw hlenLe hstop ?_ (?_ : Cover text start' _ windows)
  · rw [hclaim]
    rcases hclaimed with rfl | hclaimed
    · exact Nat.zero_le _
    · omega
  · rw [hclaim]
    exact hrest

/-- **The windows at line starts** leave no gap. -/
theorem cover_scanWindowsFrom (hstart : text.boundary start) (hjoined : Joined start claimed)
    (hclaimed : Claimed text start claimed) :
    Cover text start claimed (scanWindowsFrom text start) := by
  fun_induction scanWindowsFrom text start generalizing claimed with
  | case1 start stop =>
    rename_i hlast
    exact .stop_here hstart hjoined (Nat.le_antisymm (text.charFloor_le_len _) hlast)
  | case2 start stop hlast =>
    rename_i ih
    have hstop : text.charFloor (start + maxRedactableBytes) ≠ text.len := fun heq =>
      hlast (Nat.le_of_eq heq.symm)
    obtain ⟨hboundary, hlt, hoverlap⟩ := nextStart_spec hstop
    exact .go_on hstart hjoined hclaimed hstop
      (ih hboundary (joined_of_overlap hoverlap) (claimed_next (Nat.le_of_lt hlt) hstop))

theorem cover_scanWindows (text : Str) : Cover text 0 0 (scanWindows text) :=
  cover_scanWindowsFrom (Utf8.isCharBoundary_zero _) (.inl ⟨rfl, rfl⟩) (.inl rfl)

end Starts

/-! ### Windows that slide -/

section Sliding
variable {scanner : Scanner} {text : Str}

theorem detectIn_eq {w : Str} {start stop : Nat} {windows : List (Nat × Nat)} {scan : WindowScan}
    (hwindow : text.get? start stop = some w) :
    detectIn scanner text scan ((start, stop) :: windows) =
      match scan.findings scanner w start (stop == text.len) with
      | .error kind => .error kind
      | .ok (found, scan) =>
        if !found.isEmpty then .ok true else detectIn scanner text scan windows := by
  rw [detectIn, window_eq_ok hwindow]
  change (scan.findings scanner w start (stop == text.len) >>= _) = _
  rcases scan.findings scanner w start (stop == text.len) with kind | ⟨-, -⟩
  · rfl
  · rfl

variable (scanner) in
/-- One round of the loop. -/
theorem detectSlidingFrom_eq_match (scan : WindowScan) {w : Str} {start : Nat}
    (hwindow : text.get? start (text.charFloor (start + maxRedactableBytes)) = some w) :
    detectSlidingFrom scanner text scan start =
      match scan.findings scanner w start
        (text.charFloor (start + maxRedactableBytes) == text.len) with
      | .error kind => .error kind
      | .ok (found, scan) =>
        if !found.isEmpty then .ok true
        else if text.charFloor (start + maxRedactableBytes) = text.len then .ok false
        else detectSlidingFrom scanner text scan (start + windowAdvance w) := by
  rw [detectSlidingFrom]
  split
  · rename_i hnone
    rw [hwindow] at hnone
    cases hnone
  · rename_i w' hw'
    rw [hwindow, Option.some_inj] at hw'
    subst hw'
    rfl

/-- The windows of a walk that slides, as far as it goes when nothing is found. -/
def slidingWindowsFrom (text : Str) (start : Nat) : List (Nat × Nat) :=
  match _hwindow : text.get? start (text.charFloor (start + maxRedactableBytes)) with
  | none => []
  | some window =>
    if _hlast : text.charFloor (start + maxRedactableBytes) = text.len then [(start, text.len)]
    else
      (start, text.charFloor (start + maxRedactableBytes)) ::
        slidingWindowsFrom text (start + windowAdvance window)
termination_by text.len - start
decreasing_by
  have := windowAdvance_pos _hwindow _hlast
  omega

def slidingWindows (text : Str) : List (Nat × Nat) := slidingWindowsFrom text 0

/-- A window that does not reach the end of the text leaves the overlap to the next one. -/
theorem overlap_of_slide {w : Str} {start : Nat}
    (hwindow : text.get? start (text.charFloor (start + maxRedactableBytes)) = some w)
    (hlast : text.charFloor (start + maxRedactableBytes) ≠ text.len) :
    text.boundary (start + windowAdvance w) ∧
      start + windowAdvance w + windowOverlapBytes ≤
        text.charFloor (start + maxRedactableBytes) := by
  have hlen := Str.len_of_get? hwindow
  have hadvance : windowAdvance w ≤ w.len - windowOverlapBytes := w.charFloor_le _
  have hfull := stop_of_next hlast
  have hroom : windowOverlapBytes + 8 ≤ maxRedactableBytes := by decide
  exact ⟨Str.boundary_of_get? hwindow (boundary_windowAdvance w), by omega⟩

/-- **The windows that slide** leave no gap. -/
theorem cover_slidingWindowsFrom {start claimed : Nat} (hstart : text.boundary start)
    (hjoined : Joined start claimed) (hclaimed : Claimed text start claimed) :
    Cover text start claimed (slidingWindowsFrom text start) := by
  fun_induction slidingWindowsFrom text start generalizing claimed with
  | case1 start hwindow =>
    obtain ⟨w, hw, -⟩ := exists_window hstart
    rw [hw] at hwindow
    cases hwindow
  | case2 start w hwindow hlast =>
    have hcover := Cover.stop_here hstart hjoined hlast
    rwa [hlast] at hcover
  | case3 start w hwindow hlast ih =>
    obtain ⟨hboundary, hoverlap⟩ := overlap_of_slide hwindow hlast
    exact .go_on hstart hjoined hclaimed hlast (ih hboundary (joined_of_overlap hoverlap)
      (claimed_next (Nat.le_add_right ..) hlast))

theorem cover_slidingWindows (text : Str) : Cover text 0 0 (slidingWindows text) :=
  cover_slidingWindowsFrom (Utf8.isCharBoundary_zero _) (.inl ⟨rfl, rfl⟩) (.inl rfl)

/-- **The loop** goes over these windows. -/
theorem detectSlidingFrom_eq {scan : WindowScan} {start : Nat} (hstart : text.boundary start) :
    detectSlidingFrom scanner text scan start =
      detectIn scanner text scan (slidingWindowsFrom text start) := by
  fun_induction slidingWindowsFrom text start generalizing scan with
  | case1 start hwindow =>
    obtain ⟨w, hw, -⟩ := exists_window hstart
    rw [hw] at hwindow
    cases hwindow
  | case2 start w hwindow hlast =>
    rw [detectSlidingFrom_eq_match scanner scan hwindow]
    rw [hlast] at hwindow ⊢
    rw [detectIn_eq hwindow]
    simp only [if_true, detectIn]
  | case3 start w hwindow hlast ih =>
    rw [detectSlidingFrom_eq_match scanner scan hwindow, detectIn_eq hwindow]
    simp only [if_neg hlast, ih (overlap_of_slide hwindow hlast).1]

theorem detectSliding_eq (scanner : Scanner) (text : Str) :
    detectSliding scanner text = detectIn scanner text {} (slidingWindows text) :=
  detectSlidingFrom_eq (Utf8.isCharBoundary_zero _)

end Sliding

end MagicContext.Redaction
