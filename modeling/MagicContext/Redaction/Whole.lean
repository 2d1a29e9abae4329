import MagicContext.Redaction.Cover

/-!
# Windows and the whole text

A walk that copies the text that bytes are read as into a buffer goes over the windows of the walk
that slides over that text.  So all the walks find what a scan of the whole text would find.

## What is here

* `Copied` — what the buffer holds.
* `detectCopying_eq` — the walk that copies is the one that slides.
* `windowedScan_eq_wholeScan` — the walks find what there is in the whole text.
-/

namespace MagicContext.Redaction

open Utf8

/-! ## Windows that are copied -/

section Copying
variable {scanner : Scanner} {text : Str} {scan : WindowScan} {start : Nat} {buffer rest : Str}

/-- The buffer holds a range of the text from `start` on, and `rest` is what comes after it. -/
structure Copied (text : Str) (start : Nat) (buffer rest : Str) : Prop where
  split : ∃ before : Str, before.len = start ∧ text = (before.append buffer).append rest
  fits : buffer.len ≤ maxRedactableBytes

theorem Copied.get? (h : Copied text start buffer rest) :
    text.get? start (start + buffer.len) = some buffer := by
  obtain ⟨⟨before, rfl, rfl⟩, -⟩ := h
  exact Str.get?_append before buffer rest

theorem Copied.len (h : Copied text start buffer rest) :
    text.len = start + buffer.len + rest.len := by
  obtain ⟨⟨-, rfl, rfl⟩, -⟩ := h
  rw [Str.len_append, Str.len_append]

/-- The window goes on past the buffer as far as there is room. -/
theorem Copied.charFloor (h : Copied text start buffer rest) :
    text.charFloor (start + maxRedactableBytes) =
      start + buffer.len + rest.charFloor (maxRedactableBytes - buffer.len) := by
  obtain ⟨⟨before, rfl, rfl⟩, hfits⟩ := h
  have hroom : before.len + maxRedactableBytes =
      (before.append buffer).len + (maxRedactableBytes - buffer.len) := by
    rw [Str.len_append]
    omega
  rw [hroom, Str.charFloor_append_right, Str.len_append]

theorem Copied.push {piece : Str} (h : Copied text start buffer (piece.append rest))
    (hfits : buffer.len + piece.len ≤ maxRedactableBytes) :
    Copied text start (buffer.append piece) rest := by
  obtain ⟨⟨before, hbefore, rfl⟩, -⟩ := h
  refine ⟨⟨before, hbefore, ?_⟩, by rwa [Str.len_append]⟩
  simp only [Str.append_assoc]

theorem Copied.drain (h : Copied text start buffer rest) :
    Copied text (start + windowAdvance buffer)
      (buffer.after (windowAdvance buffer) (boundary_windowAdvance buffer)) rest := by
  obtain ⟨⟨before, rfl, rfl⟩, hfits⟩ := h
  refine ⟨⟨before.append (buffer.upTo _ (boundary_windowAdvance buffer)), ?_, ?_⟩, ?_⟩
  · rw [Str.len_append, Str.len_upTo]
  · rw [Str.append_assoc before (buffer.upTo _ _), Str.upTo_append_after]
  · rw [Str.len_after]
    exact Nat.le_trans (Nat.sub_le ..) hfits

/-- What a step of the walk that copies comes to agrees with the walk that slides. -/
def Agrees (scanner : Scanner) (text : Str) (scan : WindowScan) (start : Nat) (rest : Str) :
    Except RedactionErrorKind (Option (WindowScan × Str × Nat)) → Prop
  | .error kind => detectSlidingFrom scanner text scan start = .error kind
  | .ok none => detectSlidingFrom scanner text scan start = .ok true
  | .ok (some (scan', buffer', start')) => Copied text start' buffer' rest ∧
    detectSlidingFrom scanner text scan start = detectSlidingFrom scanner text scan' start'

variable (scanner scan) in
/-- **A buffer with no room** for what comes next is a window of the walk that slides. -/
theorem Copied.slide (h : Copied text start buffer rest) (hrest : rest.len ≠ 0)
    (hroom : rest.charFloor (maxRedactableBytes - buffer.len) = 0) :
    Agrees scanner text scan start rest (scan.slide scanner buffer start) := by
  have hstop := h.charFloor
  rw [hroom, Nat.add_zero] at hstop
  have hlast : text.charFloor (start + maxRedactableBytes) ≠ text.len := by
    rw [hstop, h.len]
    omega
  have hwindow := h.get?
  rw [← hstop] at hwindow
  have hround := detectSlidingFrom_eq_match scanner scan hwindow
  rw [beq_false_of_ne hlast] at hround
  rw [WindowScan.slide]
  rcases hfound : scan.findings scanner buffer start false with kind | ⟨found, scan'⟩
  · rw [hfound] at hround
    exact hround
  · rw [hfound] at hround
    dsimp only at hround ⊢
    by_cases hne : (!found.isEmpty) = true
    · rw [if_pos hne] at hround ⊢
      exact hround
    · rw [if_neg hne, if_neg hlast] at hround
      rw [if_neg hne]
      exact ⟨h.drain, hround⟩

theorem Agrees.trans {scan' : WindowScan} {start' : Nat}
    {result : Except RedactionErrorKind (Option (WindowScan × Str × Nat))}
    (h : detectSlidingFrom scanner text scan start = detectSlidingFrom scanner text scan' start')
    (hresult : Agrees scanner text scan' start' rest result) :
    Agrees scanner text scan start rest result := by
  match result with
  | .error kind => exact h.trans hresult
  | .ok none => exact h.trans hresult
  | .ok (some (scan'', buffer'', start'')) => exact ⟨hresult.1, h.trans hresult.2⟩

/-- Room for no part of a text is room for no part of what starts with it. -/
theorem charFloor_append_eq_zero {valid : Str} {room : Nat} (hvalid : valid.len ≠ 0)
    (h : valid.charFloor room = 0) (rest : Str) : (valid.append rest).charFloor room = 0 := by
  have hlt : room < valid.len := Nat.lt_of_not_le fun hle =>
    hvalid (Str.charFloor_of_len_le hle ▸ h)
  rw [Str.charFloor_append_left (Nat.le_of_lt hlt), h]

variable (scanner scan) in
theorem copyValid_agrees {valid : Str} (h : Copied text start buffer (valid.append rest)) :
    Agrees scanner text scan start rest (copyValid scanner scan buffer start valid) := by
  fun_induction copyValid scanner scan buffer start valid with
  | case1 scan buffer start valid hvalid =>
    have hempty : valid.append rest = rest := by
      rw [Str.eq_empty_of_len hvalid]
      rfl
    rw [hempty] at h
    exact ⟨h, rfl⟩
  | case2 scan buffer start valid hvalid htake kind hslide
  | case3 scan buffer start valid hvalid htake hslide =>
    have hagrees := h.slide scanner scan
      (by rw [Str.len_append]; omega) (charFloor_append_eq_zero hvalid htake rest)
    rw [hslide] at hagrees
    exact hagrees
  | case4 scan buffer start valid hvalid htake scan' buffer' start' hslide ih =>
    have hagrees := h.slide scanner scan
      (by rw [Str.len_append]; omega) (charFloor_append_eq_zero hvalid htake rest)
    rw [hslide] at hagrees
    exact .trans hagrees.2 (ih hagrees.1)
  | case5 scan buffer start valid hvalid htake ih =>
    refine ih (Copied.push ?_ ?_)
    · rw [← Str.append_assoc, Str.upTo_append_after]
      exact h
    · have hfloor := valid.charFloor_le (maxRedactableBytes - buffer.len)
      rw [Str.len_upTo]
      omega

/-- What bytes that are no text are read as. -/
def replaced (invalid : List UInt8) : Str := if invalid.isEmpty then .empty else replacement

/-- There is room for the replacement or for nothing of it. -/
theorem charFloor_replacement {room : Nat} (h : room < replacement.len) :
    replacement.charFloor room = 0 := by
  have hlen : replacement.len = 3 := rfl
  rw [hlen] at h
  match room, h with
  | 0, _ => rfl
  | 1, _ => rfl
  | 2, _ => rfl

variable (scanner scan) in
theorem copyInvalid_agrees {invalid : List UInt8}
    (h : Copied text start buffer ((replaced invalid).append rest)) :
    Agrees scanner text scan start rest (copyInvalid scanner scan buffer start invalid) := by
  rw [copyInvalid]
  rw [replaced] at h
  split at h
  · rename_i hempty
    rw [if_pos hempty]
    exact ⟨h, rfl⟩
  · rename_i hne
    rw [if_neg hne]
    split
    · have hzero : replacement.charFloor (maxRedactableBytes - buffer.len) = 0 :=
        charFloor_replacement (by have := h.fits; omega)
      have hlen : replacement.len = 3 := rfl
      have hagrees := h.slide scanner scan
        (by rw [Str.len_append]; omega) (charFloor_append_eq_zero (by omega) hzero rest)
      split
      · rename_i hslide
        rw [hslide] at hagrees
        exact hagrees
      · rename_i hslide
        rw [hslide] at hagrees
        exact hagrees
      · rename_i scan' buffer' start' hslide
        rw [hslide] at hagrees
        obtain ⟨-, -, -, rfl, -⟩ := slide_eq_some hslide
        have hshort := (@len_slide buffer (by omega)).2
        have hoverlap : windowOverlapBytes + 7 ≤ maxRedactableBytes := by decide
        exact ⟨hagrees.1.push (by omega), hagrees.2⟩
    · rename_i hroom
      exact ⟨h.push (Nat.le_of_not_lt hroom), rfl⟩

/-- **The walk that copies** is the walk that slides over the text that its bytes are read as. -/
theorem copyChunks_eq {chunks : List Utf8Chunk} (h : Copied text start buffer (lossy chunks)) :
    copyChunks scanner scan buffer start chunks = detectSlidingFrom scanner text scan start := by
  induction chunks generalizing scan buffer start with
  | nil =>
    have hlen := h.len
    have hfits := h.fits
    have hend : text.charFloor (start + maxRedactableBytes) = text.len :=
      Str.charFloor_of_len_le (by rw [hlen]; show start + buffer.len + 0 ≤ _; omega)
    have hwindow := h.get?
    have htext : start + buffer.len = text.len := hlen.symm
    rw [htext, ← hend] at hwindow
    rw [detectSlidingFrom_eq_match scanner scan hwindow, hend, beq_self_eq_true, copyChunks]
    rcases scan.findings scanner buffer start true with kind | ⟨found, -⟩
    · rfl
    · cases found <;> simp [bind, Except.bind, pure, Except.pure]
  | cons chunk chunks ih =>
    have hsplit : lossy (chunk :: chunks) =
        chunk.valid.append ((replaced chunk.invalid).append (lossy chunks)) :=
      Str.append_assoc ..
    rw [hsplit] at h
    have hvalid := copyValid_agrees scanner scan h
    rw [copyChunks]
    rcases hcopy : copyValid scanner scan buffer start chunk.valid with
      kind | _ | ⟨scan₁, buffer₁, start₁⟩ <;> rw [hcopy] at hvalid
    · exact Eq.symm hvalid
    · exact Eq.symm hvalid
    · obtain ⟨hcopied, heq⟩ := hvalid
      have hinvalid := copyInvalid_agrees scanner scan₁ hcopied
      rw [heq]
      change (copyInvalid scanner scan₁ buffer₁ start₁ chunk.invalid >>= _) = _
      rcases hreplace : copyInvalid scanner scan₁ buffer₁ start₁ chunk.invalid with
        kind | _ | ⟨scan₂, buffer₂, start₂⟩ <;> rw [hreplace] at hinvalid
      · exact Eq.symm hinvalid
      · exact Eq.symm hinvalid
      · exact (ih hinvalid.1).trans hinvalid.2.symm

theorem detectCopying_eq (scanner : Scanner) (bytes : List UInt8) :
    detectCopying scanner bytes = detectSliding scanner (fromUtf8Lossy bytes) :=
  copyChunks_eq ⟨⟨.empty, rfl, rfl⟩, Nat.zero_le _⟩

end Copying

/-! ## The whole text -/

/-- What a walk over a text comes to, unless the scan of a window fails. -/
def ComesTo {α : Type} (scanner : Scanner) (text : Str) (good : α → Prop) :
    Except RedactionErrorKind α → Prop
  | .ok result => good result
  | .error kind => FailsIn scanner text kind

section WholeText
variable {scanner : Scanner} {whole : Str → List Finding} {text : Str} {windows : List (Nat × Nat)}

theorem Cover.exists_get? {start claimed : Nat} (h : Cover text start claimed windows) :
    ∀ window ∈ windows, ∃ w, text.get? window.1 window.2 = some w ∧ w.len ≤ maxRedactableBytes := by
  induction h with
  | last _ hwindow hlen =>
    intro window hmem
    rw [List.mem_singleton.mp hmem]
    exact ⟨_, hwindow, hlen⟩
  | next _ hwindow hlen _ _ _ ih =>
    intro window hmem
    rcases List.mem_cons.mp hmem with rfl | hmem
    · exact ⟨_, hwindow, hlen⟩
    · exact ih window hmem

/-- Every match ends after the start of the text. -/
theorem stop_pos (finding : Finding) : 0 < finding.fullSpan.stop :=
  Nat.lt_of_le_of_lt (Nat.zero_le _) finding.nonempty

theorem Cover.comesTo_whole (hdecides : scanner.Decides whole) (h : Cover text 0 0 windows) :
    ComesTo scanner text (fun found => found.Perm (whole text))
      (Redaction.findingsIn scanner text {} windows) := by
  rcases hfound : Redaction.findingsIn scanner text {} windows with kind | found
  · exact h.findingsIn_error hfound
  · obtain ⟨hnodup, hmem⟩ := h.findingsIn hdecides rfl hfound
    exact (List.perm_ext_iff_of_nodup hnodup (hdecides.nodup text)).mpr fun finding =>
      (hmem finding).trans (and_iff_left (stop_pos finding))

theorem Cover.comesTo_verdict (hdecides : scanner.Decides whole) (h : Cover text 0 0 windows) :
    ComesTo scanner text (fun verdict => verdict = true ↔ whole text ≠ [])
      (Redaction.detectIn scanner text {} windows) := by
  rcases hverdict : Redaction.detectIn scanner text {} windows with kind | verdict
  · exact h.detectIn_error hverdict
  · refine (h.detectIn hdecides rfl hverdict).trans ?_
    constructor
    · rintro ⟨finding, hmem, -⟩
      exact List.ne_nil_of_mem hmem
    · intro hne
      obtain ⟨finding, hmem⟩ := List.exists_mem_of_ne_nil _ hne
      exact ⟨finding, hmem, stop_pos finding⟩

theorem detectWindowedBytes_eq (scanner : Scanner) (bytes : List UInt8) :
    detectWindowedBytes scanner bytes = detectSliding scanner (fromUtf8Lossy bytes) := by
  rw [detectWindowedBytes]
  split
  · rename_i text htext
    rw [← fromUtf8_eq_some.mp htext, fromUtf8Lossy_bytes]
  · exact detectCopying_eq scanner bytes

/-- **Windows find what there is in the whole text**, each finding once; all verdicts are the same,
every window is cut between characters, and a walk fails only where the scan of a window does. -/
theorem windowedScan_eq_wholeScan (scanner : Scanner) (whole : Str → List Finding)
    (hdecides : scanner.Decides whole) :
    (∀ text, ComesTo scanner text (fun found => found.Perm (whole text))
        (windowedFindings scanner text) ∧
      ComesTo scanner text (fun found => found.Perm (whole text))
        (findingsIn scanner text {} (slidingWindows text)) ∧
      ComesTo scanner text (fun verdict => verdict = true ↔ whole text ≠ [])
        (detectWindowed scanner text) ∧
      detectSliding scanner text = detectIn scanner text {} (slidingWindows text) ∧
      ComesTo scanner text (fun verdict => verdict = true ↔ whole text ≠ [])
        (detectSliding scanner text) ∧
      (∀ verdict verdict', detectWindowed scanner text = .ok verdict →
        detectSliding scanner text = .ok verdict' → verdict = verdict') ∧
      ∀ window ∈ scanWindows text ++ slidingWindows text,
        ∃ w, text.get? window.1 window.2 = some w ∧ w.len ≤ maxRedactableBytes) ∧
    ∀ bytes, detectCopying scanner bytes = detectSliding scanner (fromUtf8Lossy bytes) ∧
      detectWindowedBytes scanner bytes = detectSliding scanner (fromUtf8Lossy bytes) := by
  refine ⟨fun text => ?_, fun bytes =>
    ⟨detectCopying_eq scanner bytes, detectWindowedBytes_eq scanner bytes⟩⟩
  have hscan := cover_scanWindows text
  have hslide := cover_slidingWindows text
  have hwindowed : ComesTo scanner text (fun verdict => verdict = true ↔ whole text ≠ [])
    (detectWindowed scanner text) := hscan.comesTo_verdict hdecides
  have hsliding := hslide.comesTo_verdict hdecides
  rw [← detectSliding_eq] at hsliding
  refine ⟨hscan.comesTo_whole hdecides, hslide.comesTo_whole hdecides, hwindowed,
    detectSliding_eq scanner text, hsliding, fun verdict verdict' h h' => ?_, fun window hmem => ?_⟩
  · rw [h] at hwindowed
    rw [h'] at hsliding
    exact Bool.eq_iff_iff.mpr (hwindowed.trans hsliding.symm)
  · rcases List.mem_append.mp hmem with hmem | hmem
    · exact hscan.exists_get? window hmem
    · exact hslide.exists_get? window hmem

/-! ### A scanner of one byte -/

/-- The byte at an offset, as a finding. -/
def mark (index : Nat) : Finding where
  ruleId := "mark"
  ruleSource := .upstream
  fullSpan := ⟨index, index + 1, Nat.le_succ index⟩
  valueSpan := ⟨index, index + 1, Nat.le_succ index⟩
  keySpan := none
  nonempty := Nat.lt_succ_self index
  valueWithin := ⟨Nat.le_refl _, Nat.le_refl _⟩
  keyWithin := nofun

/-- Every `*` of a text. -/
def marks (text : Str) : List Finding :=
  ((List.range text.len).filter fun index => text.bytes[index]? == some 0x2A).map mark

def markScanner : Scanner where
  scan text := .ok { findings := marks text, limitsHit := none }

theorem mark_injective : Function.Injective mark := fun _ _ h =>
  congrArg (fun finding => finding.fullSpan.start) h

theorem mem_marks {finding : Finding} :
    finding ∈ marks text ↔ ∃ index, text.bytes[index]? = some 0x2A ∧ mark index = finding := by
  rw [marks, List.mem_map]
  refine exists_congr fun index => and_congr_left fun _ => ?_
  rw [List.mem_filter, List.mem_range, beq_iff_eq]
  exact and_iff_right_of_imp fun h => (List.getElem?_eq_some_iff.mp h).1

theorem mem_marks_shift {finding : Finding} {base : Nat} :
    finding.shift base ∈ marks text ↔ mark finding.fullSpan.start = finding ∧
      (context text (finding.shift base).fullSpan).2.1 = [0x2A] := by
  have hshift : ∀ index, mark (base + index) = (mark index).shift base := fun index => rfl
  have hbyte : ∀ index, (text.bytes.drop index).take (index + 1 - index) = [0x2A] ↔
      text.bytes[index]? = some 0x2A := by
    intro index
    rw [Nat.add_sub_cancel_left, List.take_one, List.head?_drop]
    cases text.bytes[index]? <;> simp
  rw [mem_marks]
  constructor
  · rintro ⟨index, hindex, hmark⟩
    have hstart : index = base + finding.fullSpan.start :=
      congrArg (fun finding => finding.fullSpan.start) hmark
    obtain ⟨place, rfl⟩ := Nat.exists_eq_add_of_le (hstart ▸ Nat.le_add_right ..)
    rw [hshift] at hmark
    cases Finding.shift_injective base hmark
    exact ⟨rfl, (hbyte _).mpr hindex⟩
  · rintro ⟨hmark, hcontext⟩
    rw [← hmark] at hcontext ⊢
    exact ⟨base + finding.fullSpan.start, (hbyte _).mp hcontext, hshift _⟩

theorem markScanner_decides : markScanner.Decides marks where
  complete h _ := by
    cases h
    rfl
  nodup text := (List.nodup_range.filter _).map mark_injective
  within h := by
    obtain ⟨index, hindex, rfl⟩ := mem_marks.mp h
    obtain ⟨hlt, -⟩ := List.getElem?_eq_some_iff.mp hindex
    refine ⟨hlt, ?_⟩
    rw [TextSpan.len]
    change index + 1 - index ≤ maxMatchBytes
    rw [Nat.add_sub_cancel_left]
    decide
  near finding base base' _ _ _ hcontext := by
    rw [mem_marks_shift, mem_marks_shift, hcontext]

theorem valid_replicate (count : Nat) : Valid (List.replicate count 0x61) := by
  induction count with
  | zero => exact .nil
  | succ count ih => exact .cons (c := [0x61]) (by decide) ih

/-- A `*` after the end of the first window. -/
def farMark : Str := ⟨List.replicate 600000 0x61 ++ [0x2A],
  (valid_replicate _).append (.of_isChar (by decide))⟩

theorem windowedScan_eq_wholeScan_farMark :
    ∃ found, windowedFindings markScanner farMark = .ok found ∧ mark 600000 ∈ found := by
  have h := ((windowedScan_eq_wholeScan markScanner marks markScanner_decides).1 farMark).1
  rcases hfound : windowedFindings markScanner farMark with kind | found
  · rw [hfound] at h
    obtain ⟨_, _, w, -, -, hfails⟩ := h
    cases hfails
  · rw [hfound] at h
    refine ⟨found, rfl, h.mem_iff.mpr (mem_marks.mpr ⟨600000, ?_, rfl⟩)⟩
    have hlength : (List.replicate 600000 (0x61 : UInt8)).length = 600000 := List.length_replicate
    rw [farMark, List.getElem?_append_right (Nat.le_of_eq hlength), hlength, Nat.sub_self]
    rfl

end WholeText

end MagicContext.Redaction
