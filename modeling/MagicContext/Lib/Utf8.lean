
/-!
# UTF-8 texts as bytes

A text is a sequence of bytes in which characters stand one after the other.  Offsets are counted
in bytes, and a text is cut at the boundaries of its characters only.

## What is here

* `scanChar` — the character at the head of some bytes, or the bytes that cannot start one.
* `Utf8`, `Str` — bytes that are characters, and texts.
* `isCharBoundary` — the boundaries; `boundary_iff` says that a text falls apart there.
* `charFloor` — the last boundary up to an offset, at most three bytes before it.
* `utf8Chunks`, `fromUtf8Lossy` — arbitrary bytes read as text.
-/

namespace Utf8

/-! ## Characters -/

def between (low high b : UInt8) : Bool := decide (low ≤ b) && decide (b < high)

/-- A byte that goes on with a character. -/
def isContinuation (b : UInt8) : Bool := between 0x80 0xC0 b

/-- How many bytes the character has that starts with the byte; none starts with some bytes. -/
def charWidth (b : UInt8) : Nat :=
  if b < 0x80 then 1
  else if b < 0xC2 then 0
  else if b < 0xE0 then 2
  else if b < 0xF0 then 3
  else if b < 0xF5 then 4
  else 0

/-- The second bytes that may follow a first one: none that makes the encoding longer than it has
to be, a surrogate, or a number above the last character. -/
def secondAllowed (first second : UInt8) : Bool :=
  if first = 0xE0 then between 0xA0 0xC0 second
  else if first = 0xED then between 0x80 0xA0 second
  else if first = 0xF0 then between 0x90 0xC0 second
  else if first = 0xF4 then between 0x80 0x90 second
  else isContinuation second

/-- The bytes after the first one: how many go on with the character, up to `n`, and whether these
are all.  What may come next is `allowed`; after that it is any that goes on. -/
def scanTail : Nat → (UInt8 → Bool) → List UInt8 → Bool × Nat
  | 0, _, _ => (true, 0)
  | _ + 1, _, [] => (false, 0)
  | n + 1, allowed, b :: bs =>
    if allowed b then
      let (complete, k) := scanTail n isContinuation bs
      (complete, k + 1)
    else (false, 0)

/-- The character at the head, by how many bytes it has; or how many bytes were taken before it was
clear that there is none. -/
def scanChar : List UInt8 → Bool × Nat
  | [] => (false, 0)
  | b :: bs =>
    if charWidth b = 0 then (false, 1)
    else
      let (complete, k) := scanTail (charWidth b - 1) (secondAllowed b) bs
      (complete, k + 1)

/-- The bytes of one character. -/
def IsChar (c : List UInt8) : Prop := scanChar c = (true, c.length)

instance (c : List UInt8) : Decidable (IsChar c) := inferInstanceAs (Decidable (_ = _))

theorem between_mono {low low' high high' b : UInt8} (hlow : low' ≤ low) (hhigh : high ≤ high')
    (h : between low high b = true) : between low' high' b = true := by
  rw [between, Bool.and_eq_true, decide_eq_true_eq, decide_eq_true_eq] at h ⊢
  exact ⟨UInt8.le_trans hlow h.1, UInt8.lt_of_lt_of_le h.2 hhigh⟩

theorem isContinuation_of_secondAllowed {first second : UInt8}
    (h : secondAllowed first second = true) : isContinuation second = true := by
  rw [secondAllowed] at h
  split at h
  · exact between_mono (by decide) (by decide) h
  · split at h
    · exact between_mono (by decide) (by decide) h
    · split at h
      · exact between_mono (by decide) (by decide) h
      · split at h
        · exact between_mono (by decide) (by decide) h
        · exact h

/-- A first byte stands alone or goes before others. -/
theorem not_isContinuation_of_charWidth {b : UInt8} (h : charWidth b ≠ 0) :
    isContinuation b = false := by
  rw [isContinuation, between, Bool.and_eq_false_iff, decide_eq_false_iff_not,
    decide_eq_false_iff_not]
  rw [charWidth] at h
  split at h
  · rename_i hlt
    exact Or.inl (UInt8.not_le.mpr hlt)
  · split at h
    · exact absurd rfl h
    · rename_i hge
      exact Or.inr fun hlt => hge (UInt8.lt_trans hlt (by decide))

theorem charWidth_of_ascii {b : UInt8} (h : b < 0x80) : charWidth b = 1 := if_pos h

theorem charWidth_le (b : UInt8) : charWidth b ≤ 4 := by
  rw [charWidth]
  repeat' split
  all_goals decide

/-! ### The bytes that were taken -/

section Scan
variable {n k : Nat} {allowed : UInt8 → Bool} {bs : List UInt8}

theorem scanTail_le : (scanTail n allowed bs).2 ≤ n ∧ (scanTail n allowed bs).2 ≤ bs.length := by
  fun_induction scanTail n allowed bs with
  | case1 | case2 | case4 => exact ⟨Nat.zero_le _, Nat.zero_le _⟩
  | case3 n allowed b bs _ complete k h ih =>
    rw [h] at ih
    exact ⟨Nat.succ_le_succ ih.1, Nat.succ_le_succ ih.2⟩

/-- A tail that is complete has the bytes it needs, and they all go on with the character. -/
theorem scanTail_complete (hallowed : ∀ b, allowed b = true → isContinuation b = true)
    (h : scanTail n allowed bs = (true, k)) :
    k = n ∧ n ≤ bs.length ∧ (∀ x ∈ bs.take n, isContinuation x = true) ∧
      ∀ rest, scanTail n allowed (bs.take n ++ rest) = (true, n) := by
  induction n generalizing allowed bs k with
  | zero =>
    cases h
    exact ⟨rfl, Nat.zero_le _, nofun, fun _ => rfl⟩
  | succ n ih =>
    cases bs with
    | nil => cases h
    | cons b bs =>
      rw [scanTail] at h
      split at h
      · rename_i hb
        rcases hscan : scanTail n isContinuation bs with ⟨complete, k'⟩
        rw [hscan] at h
        obtain ⟨rfl, rfl⟩ := Prod.mk.inj h
        obtain ⟨rfl, hlength, hall, hrest⟩ := ih (fun _ h => h) hscan
        refine ⟨rfl, Nat.succ_le_succ hlength, ?_, fun rest => ?_⟩
        · exact List.forall_mem_cons.mpr ⟨hallowed b hb, hall⟩
        · rw [List.take_succ_cons, List.cons_append, scanTail, if_pos hb, hrest]
      · cases h

end Scan

variable {source : List UInt8} {i : Nat}

theorem scanChar_pos (h : source ≠ []) : 0 < (scanChar source).2 := by
  cases source with
  | nil => exact absurd rfl h
  | cons b bs =>
    rw [scanChar]
    split
    · exact Nat.zero_lt_one
    · exact Nat.succ_pos _

theorem scanChar_le_length (source : List UInt8) : (scanChar source).2 ≤ source.length := by
  cases source with
  | nil => exact Nat.le_refl 0
  | cons b bs =>
    rw [scanChar]
    split
    · exact Nat.succ_le_succ (Nat.zero_le _)
    · exact Nat.succ_le_succ scanTail_le.2

/-- **A character** at the head: a first byte and at most three that go on with it; what follows
does not matter. -/
theorem scanChar_complete {n : Nat} (h : scanChar source = (true, n)) :
    ∃ b cs, source.take n = b :: cs ∧ cs.length + 1 = n ∧ n ≤ 4 ∧ isContinuation b = false ∧
      (∀ x ∈ cs, isContinuation x = true) ∧ (b < 0x80 → cs = []) ∧
      ∀ rest, scanChar (source.take n ++ rest) = (true, n) := by
  cases source with
  | nil => cases h
  | cons b bs =>
    rw [scanChar] at h
    split at h
    · cases h
    · rename_i hwidth
      rcases hscan : scanTail (charWidth b - 1) (secondAllowed b) bs with ⟨complete, k⟩
      rw [hscan] at h
      obtain ⟨rfl, rfl⟩ := Prod.mk.inj h
      obtain ⟨rfl, hlength, hall, hrest⟩ :=
        scanTail_complete (fun _ => isContinuation_of_secondAllowed) hscan
      have hle := charWidth_le b
      refine ⟨b, bs.take (charWidth b - 1), rfl, ?_, by omega,
        not_isContinuation_of_charWidth hwidth, hall, fun hb => ?_, fun rest => ?_⟩
      · rw [List.length_take_of_le hlength]
      · rw [charWidth_of_ascii hb, Nat.sub_self, List.take_zero]
      · rw [List.take_succ_cons, List.cons_append, scanChar, if_neg hwidth, hrest]

theorem isChar_of_scanChar {n : Nat} (h : scanChar source = (true, n)) :
    IsChar (source.take n) := by
  have hle := scanChar_le_length source
  rw [h] at hle
  obtain ⟨-, -, -, -, -, -, -, -, hrest⟩ := scanChar_complete h
  rw [IsChar, List.length_take_of_le hle]
  simpa using hrest []

/-- **The bytes of a character.** -/
theorem IsChar.shape {c : List UInt8} (h : IsChar c) :
    ∃ b cs, c = b :: cs ∧ cs.length ≤ 3 ∧ isContinuation b = false ∧
      (∀ x ∈ cs, isContinuation x = true) ∧ (b < 0x80 → cs = []) := by
  obtain ⟨b, cs, hc, hlength, hle, hb, hcs, hascii, -⟩ := scanChar_complete h
  rw [List.take_length] at hc
  exact ⟨b, cs, hc, by omega, hb, hcs, hascii⟩

/-! ## Texts -/

/-- Bytes that are characters, one after the other. -/
inductive Valid : List UInt8 → Prop
  | nil : Valid []
  | cons {c rest : List UInt8} (hc : IsChar c) (hrest : Valid rest) : Valid (c ++ rest)

theorem Valid.append {s t : List UInt8} (hs : Valid s) (ht : Valid t) : Valid (s ++ t) := by
  induction hs with
  | nil => exact ht
  | cons hc _ ih => exact List.append_assoc .. ▸ .cons hc ih

theorem Valid.of_isChar {c : List UInt8} (hc : IsChar c) : Valid c :=
  List.append_nil c ▸ .cons hc .nil

/-- `str::is_char_boundary`. -/
def isCharBoundary (s : List UInt8) (index : Nat) : Bool :=
  if index = 0 then true
  else if s.length ≤ index then index == s.length
  else !s[index]?.any isContinuation

@[simp] theorem isCharBoundary_zero (s : List UInt8) : isCharBoundary s 0 = true := rfl

@[simp] theorem isCharBoundary_length (s : List UInt8) : isCharBoundary s s.length = true := by
  rw [isCharBoundary]
  split
  · rfl
  · rw [if_pos (Nat.le_refl _), beq_self_eq_true]

theorem le_length_of_isCharBoundary {s : List UInt8} {index : Nat}
    (h : isCharBoundary s index = true) : index ≤ s.length := by
  rw [isCharBoundary] at h
  split at h
  · omega
  · split at h
    · exact Nat.le_of_eq (beq_iff_eq.mp h)
    · omega

/-- The first byte of a text does not go on with a character. -/
theorem Valid.head {s : List UInt8} (h : Valid s) : s[0]?.any isContinuation = false := by
  cases h with
  | nil => rfl
  | cons hc _ =>
    obtain ⟨b, -, rfl, -, hb, -⟩ := hc.shape
    exact hb

/-- Boundaries of a text that starts with a character. -/
theorem isCharBoundary_cons {c rest : List UInt8} (hc : IsChar c) (hrest : Valid rest)
    (index : Nat) : isCharBoundary (c ++ rest) index = true ↔
      index = 0 ∨ c.length ≤ index ∧ isCharBoundary rest (index - c.length) = true := by
  obtain ⟨b, cs, rfl, -, -, hcs, -⟩ := hc.shape
  rcases Nat.lt_trichotomy index (b :: cs).length with hlt | rfl | hgt
  · -- Inside the character only its first byte is a boundary.
    cases index with
    | zero => simp
    | succ index =>
      have hindex : index < cs.length := Nat.lt_of_succ_lt_succ hlt
      have hbyte : (b :: cs ++ rest)[index + 1]? = some cs[index] := by
        rw [List.cons_append, List.getElem?_cons_succ, List.getElem?_append_left hindex,
          List.getElem?_eq_getElem hindex]
      refine iff_of_false (fun h => ?_) (by omega)
      rw [isCharBoundary, if_neg (Nat.succ_ne_zero index),
        if_neg (by rw [List.length_append]; omega), hbyte] at h
      simp [hcs _ (List.getElem_mem hindex)] at h
  · rw [Nat.sub_self, isCharBoundary_zero]
    refine iff_of_true ?_ (Or.inr ⟨Nat.le_refl _, rfl⟩)
    rw [isCharBoundary, if_neg (show (b :: cs).length ≠ 0 from Nat.succ_ne_zero _)]
    split
    · rename_i hle
      rw [List.length_append] at hle ⊢
      simp only [beq_iff_eq]
      omega
    · rw [List.getElem?_append_right (Nat.le_refl _), Nat.sub_self, hrest.head]
      rfl
  · have hne : index ≠ 0 := by omega
    have hsub : index - (b :: cs).length ≠ 0 := by omega
    rw [isCharBoundary, isCharBoundary, if_neg hne, if_neg hsub, List.length_append,
      List.getElem?_append_right (Nat.le_of_lt hgt)]
    by_cases hle : (b :: cs).length + rest.length ≤ index
    · rw [if_pos hle, if_pos (by omega), beq_iff_eq, beq_iff_eq]
      omega
    · rw [if_neg hle, if_neg (by omega)]
      exact ⟨fun h => Or.inr ⟨(Nat.le_of_lt hgt), h⟩, fun h => (h.resolve_left hne).2⟩

/-- **A text falls apart at a boundary** into two texts. -/
theorem Valid.split {s : List UInt8} (h : Valid s) {index : Nat}
    (hindex : isCharBoundary s index = true) : Valid (s.take index) ∧ Valid (s.drop index) := by
  induction h generalizing index with
  | nil => simp [Valid.nil]
  | @cons c rest hc hrest ih =>
    rcases (isCharBoundary_cons hc hrest index).mp hindex with rfl | ⟨hle, hindex⟩
    · exact ⟨.nil, .cons hc hrest⟩
    · obtain ⟨htake, hdrop⟩ := ih hindex
      rw [List.take_append, List.drop_append, List.take_of_length_le hle,
        List.drop_eq_nil_of_le hle, List.nil_append]
      exact ⟨.cons hc htake, hdrop⟩

/-- Where a text ends another may follow. -/
theorem Valid.boundary_of_drop {s : List UInt8} {index : Nat} (hle : index ≤ s.length)
    (h : Valid (s.drop index)) : isCharBoundary s index = true := by
  rw [isCharBoundary]
  split
  · rfl
  · split
    · exact beq_iff_eq.mpr (by omega)
    · have hhead := h.head
      rw [List.getElem?_drop, Nat.add_zero] at hhead
      rw [hhead]
      rfl

theorem Valid.boundary_iff {s : List UInt8} (h : Valid s) {index : Nat} :
    isCharBoundary s index = true ↔ index ≤ s.length ∧ Valid (s.drop index) :=
  ⟨fun hindex => ⟨le_length_of_isCharBoundary hindex, (h.split hindex).2⟩,
    fun ⟨hle, hdrop⟩ => Valid.boundary_of_drop hle hdrop⟩

/-- After a byte that is a character of its own there is a boundary. -/
theorem Valid.boundary_succ {s : List UInt8} (h : Valid s) {index : Nat} {b : UInt8}
    (hb : s[index]? = some b) (hascii : b < 0x80) : isCharBoundary s (index + 1) = true := by
  induction h generalizing index with
  | nil => cases hb
  | @cons c rest hc hrest ih =>
    rw [isCharBoundary_cons hc hrest]
    obtain ⟨b', cs, rfl, -, -, hcs, halone⟩ := hc.shape
    right
    rcases Nat.lt_or_ge index (b' :: cs).length with hlt | hge
    · rw [List.getElem?_append_left hlt] at hb
      cases index with
      | zero =>
        cases hb
        rw [halone hascii]
        exact ⟨Nat.le_refl 1, rfl⟩
      | succ index =>
        -- A byte that goes on with a character is not below 128.
        rw [List.getElem?_cons_succ] at hb
        have hcontinuation := hcs b (List.mem_of_getElem? hb)
        rw [isContinuation, between, Bool.and_eq_true, decide_eq_true_eq] at hcontinuation
        exact absurd hascii (UInt8.not_lt.mpr hcontinuation.1)
    · rw [List.getElem?_append_right hge] at hb
      have hsucc := ih hb
      rw [← Nat.sub_add_comm hge] at hsucc
      exact ⟨by omega, hsucc⟩

/-- The last four offsets up to one have a boundary among them. -/
theorem Valid.exists_boundary {s : List UInt8} (h : Valid s) {index : Nat}
    (hle : index ≤ s.length) : ∃ i ≤ index, index < i + 4 ∧ isCharBoundary s i = true := by
  induction h generalizing index with
  | nil => exact ⟨index, Nat.le_refl _, by omega, by simp at hle; simp [hle]⟩
  | @cons c rest hc hrest ih =>
    obtain ⟨b, cs, rfl, hlength, -⟩ := hc.shape
    rw [List.length_append] at hle
    rcases Nat.lt_or_ge index (b :: cs).length with hlt | hge
    · exact ⟨0, Nat.zero_le _, by rw [List.length_cons] at hlt; omega, rfl⟩
    · have hrestLe : index - (b :: cs).length ≤ rest.length := by omega
      obtain ⟨i, hi, hlt, hboundary⟩ := ih hrestLe
      refine ⟨i + (b :: cs).length, by omega, by omega, ?_⟩
      rw [isCharBoundary_cons hc hrest, Nat.add_sub_cancel]
      exact Or.inr ⟨by omega, hboundary⟩

/-! ## The last boundary up to an offset -/

/-- The loop of `charFloor`. -/
def floorFrom (s : List UInt8) : Nat → Nat
  | 0 => 0
  | index + 1 => if isCharBoundary s (index + 1) then index + 1 else floorFrom s index

theorem floorFrom_le (s : List UInt8) (index : Nat) : floorFrom s index ≤ index := by
  induction index with
  | zero => exact Nat.le_refl 0
  | succ index ih =>
    rw [floorFrom]
    split
    · exact Nat.le_refl _
    · exact Nat.le_succ_of_le ih

theorem isCharBoundary_floorFrom (s : List UInt8) (index : Nat) :
    isCharBoundary s (floorFrom s index) = true := by
  induction index with
  | zero => rfl
  | succ index ih =>
    rw [floorFrom]
    split
    · assumption
    · exact ih

theorem le_floorFrom {s : List UInt8} {index i : Nat} (hi : i ≤ index)
    (hboundary : isCharBoundary s i = true) : i ≤ floorFrom s index := by
  induction index with
  | zero => exact hi
  | succ index ih =>
    rw [floorFrom]
    split
    · exact hi
    · rename_i hnot
      refine ih (Nat.le_of_lt_succ (Nat.lt_of_le_of_ne hi ?_))
      rintro rfl
      exact hnot hboundary

/-! ## Texts with their proof -/

/-- `str`. -/
structure Str where
  bytes : List UInt8
  valid : Valid bytes

namespace Str

@[ext] theorem ext {s t : Str} (h : s.bytes = t.bytes) : s = t := by
  cases s
  cases t
  cases h
  rfl

instance : DecidableEq Str := fun s t =>
  decidable_of_iff (s.bytes = t.bytes) ⟨ext, fun h => h ▸ rfl⟩

def empty : Str := ⟨[], .nil⟩

def len (s : Str) : Nat := s.bytes.length

def append (s t : Str) : Str := ⟨s.bytes ++ t.bytes, s.valid.append t.valid⟩

@[simp] theorem bytes_append (s t : Str) : (s.append t).bytes = s.bytes ++ t.bytes := rfl

@[simp] theorem len_append (s t : Str) : (s.append t).len = s.len + t.len := List.length_append

theorem eq_empty_of_len {s : Str} (h : s.len = 0) : s = empty :=
  ext (List.eq_nil_of_length_eq_zero h)

theorem append_assoc (s t u : Str) : (s.append t).append u = s.append (t.append u) :=
  ext (List.append_assoc ..)

def boundary (s : Str) (index : Nat) : Prop := isCharBoundary s.bytes index = true

instance (s : Str) (index : Nat) : Decidable (s.boundary index) :=
  inferInstanceAs (Decidable (_ = _))

/-- The text up to a boundary. -/
def upTo (s : Str) (index : Nat) (h : s.boundary index) : Str :=
  ⟨s.bytes.take index, (s.valid.split h).1⟩

/-- The text from a boundary on. -/
def after (s : Str) (index : Nat) (h : s.boundary index) : Str :=
  ⟨s.bytes.drop index, (s.valid.split h).2⟩

/-- The largest boundary at or below an offset, which is cut to the length. -/
def charFloor (s : Str) (index : Nat) : Nat := floorFrom s.bytes (min index s.len)

section Floor
variable (s : Str) (index : Nat)

theorem charFloor_le : s.charFloor index ≤ index :=
  Nat.le_trans (floorFrom_le _ _) (Nat.min_le_left ..)

theorem charFloor_le_len : s.charFloor index ≤ s.len :=
  Nat.le_trans (floorFrom_le _ _) (Nat.min_le_right ..)

theorem boundary_charFloor : s.boundary (s.charFloor index) := isCharBoundary_floorFrom _ _

variable {s index}

theorem boundary.le (h : s.boundary i) : i ≤ s.len := le_length_of_isCharBoundary h

theorem boundary.le_charFloor (h : s.boundary i) (hi : i ≤ index) : i ≤ s.charFloor index :=
  le_floorFrom (Nat.le_min.mpr ⟨hi, h.le⟩) h

/-- **A cut loses at most three bytes.** -/
theorem lt_charFloor_add (hindex : index ≤ s.len) : index < s.charFloor index + 4 := by
  obtain ⟨i, hi, hlt, hboundary⟩ := s.valid.exists_boundary hindex
  have hle : i ≤ s.charFloor index := boundary.le_charFloor hboundary hi
  omega

theorem charFloor_of_len_le (h : s.len ≤ index) : s.charFloor index = s.len :=
  Nat.le_antisymm (s.charFloor_le_len index)
    (boundary.le_charFloor (isCharBoundary_length s.bytes) h)

/-- The last boundary, if the next one is too far. -/
theorem charFloor_eq (h : s.boundary i) (hi : i ≤ index)
    (hnext : ∀ j, s.boundary j → i < j → index < j) : s.charFloor index = i := by
  refine Nat.le_antisymm (Nat.le_of_not_lt fun hlt => ?_) (h.le_charFloor hi)
  exact absurd (hnext _ (s.boundary_charFloor index) hlt) (Nat.not_lt.mpr (s.charFloor_le index))

end Floor

@[simp] theorem len_upTo {s : Str} (h : s.boundary i) : (s.upTo i h).len = i := by
  rw [len, upTo]
  exact List.length_take_of_le h.le

@[simp] theorem len_after {s : Str} (h : s.boundary i) : (s.after i h).len = s.len - i :=
  List.length_drop

@[simp] theorem upTo_append_after {s : Str} (h : s.boundary i) :
    (s.upTo i h).append (s.after i h) = s :=
  ext (List.take_append_drop i s.bytes)

/-- Boundaries after one are the boundaries of what is after it. -/
theorem boundary_after {s : Str} {i j : Nat} (hi : s.boundary i) (hij : i ≤ j) :
    (s.after i hi).boundary (j - i) ↔ s.boundary j := by
  rw [boundary, boundary, (s.after i hi).valid.boundary_iff, s.valid.boundary_iff, after]
  rw [List.drop_drop, List.length_drop, Nat.add_sub_cancel' hij]
  exact and_congr_left' (by have := hi.le; rw [len] at this; omega)

/-- A text that goes on has the same boundaries up to where it did end. -/
theorem boundary_append_left {s t : Str} (hi : i ≤ s.len) :
    (s.append t).boundary i ↔ s.boundary i := by
  constructor
  · intro h
    rcases Nat.lt_or_eq_of_le hi with hlt | rfl
    · rw [len] at hlt
      rw [boundary, isCharBoundary, bytes_append, List.length_append,
        List.getElem?_append_left hlt] at h
      rw [boundary, isCharBoundary]
      rw [if_neg (c := s.bytes.length + t.bytes.length ≤ i) (by omega)] at h
      rw [if_neg (c := s.bytes.length ≤ i) (Nat.not_le.mpr hlt)]
      exact h
    · exact isCharBoundary_length s.bytes
  · intro h
    rw [boundary, Valid.boundary_iff (s.append t).valid, bytes_append, List.length_append,
      List.drop_append_of_le_length hi]
    exact ⟨Nat.le_trans hi (Nat.le_add_right ..), (s.valid.split h).2.append t.valid⟩

theorem boundary_append_right {s t : Str} : (s.append t).boundary (s.len + i) ↔ t.boundary i := by
  have hs : (s.append t).boundary s.len :=
    (boundary_append_left (Nat.le_refl _)).mpr (isCharBoundary_length s.bytes)
  have hafter : (s.append t).after s.len hs = t := ext List.drop_left
  rw [← boundary_after hs (Nat.le_add_right ..), hafter, Nat.add_sub_cancel_left]

theorem charFloor_append_left {s t : Str} {index : Nat} (h : index ≤ s.len) :
    (s.append t).charFloor index = s.charFloor index := by
  have hle := s.charFloor_le index
  refine charFloor_eq ((boundary_append_left (s.charFloor_le_len index)).mpr
    (s.boundary_charFloor index)) hle fun j hj hlt => Nat.lt_of_not_le fun hle => ?_
  have hj' := (boundary_append_left (Nat.le_trans hle h)).mp hj
  exact absurd (hj'.le_charFloor hle) (Nat.not_le.mpr hlt)

theorem charFloor_append_right (s t : Str) (index : Nat) :
    (s.append t).charFloor (s.len + index) = s.len + t.charFloor index := by
  refine charFloor_eq (boundary_append_right.mpr (t.boundary_charFloor index))
    (Nat.add_le_add_left (t.charFloor_le index) _) fun j hj hlt => Nat.lt_of_not_le fun hle => ?_
  obtain ⟨i, rfl⟩ := Nat.exists_eq_add_of_le (Nat.le_trans (Nat.le_add_right ..) (Nat.le_of_lt hlt))
  have hi := (boundary_append_right.mp hj).le_charFloor (Nat.le_of_add_le_add_left hle)
  omega

/-- `str::get` of a range. -/
def get? (s : Str) (start stop : Nat) : Option Str :=
  if h : start ≤ stop ∧ s.boundary start ∧ s.boundary stop then
    some ((s.after start h.2.1).upTo (stop - start) ((boundary_after h.2.1 h.1).mpr h.2.2))
  else none

theorem get?_eq_some {s w : Str} {start stop : Nat} : s.get? start stop = some w ↔
    start ≤ stop ∧ s.boundary start ∧ s.boundary stop ∧
      w.bytes = (s.bytes.drop start).take (stop - start) := by
  rw [get?]
  split
  · rename_i h
    rw [Option.some_inj, Str.ext_iff]
    exact ⟨fun hw => ⟨h.1, h.2.1, h.2.2, hw.symm⟩, fun hw => hw.2.2.2.symm⟩
  · rename_i h
    exact iff_of_false nofun fun hw => h ⟨hw.1, hw.2.1, hw.2.2.1⟩

theorem exists_get? {s : Str} {start stop : Nat} (hle : start ≤ stop) (hstart : s.boundary start)
    (hstop : s.boundary stop) : ∃ w, s.get? start stop = some w := by
  rw [get?, dif_pos ⟨hle, hstart, hstop⟩]
  exact ⟨_, rfl⟩

theorem len_of_get? {s w : Str} {start stop : Nat} (h : s.get? start stop = some w) :
    w.len = stop - start := by
  obtain ⟨-, -, hstop, hw⟩ := get?_eq_some.mp h
  have hle := hstop.le
  rw [len, hw, List.length_take, List.length_drop]
  rw [len] at hle
  omega

theorem get?_append (s t u : Str) :
    ((s.append t).append u).get? s.len (s.len + t.len) = some t := by
  have hstart : ((s.append t).append u).boundary s.len := by
    rw [append_assoc, boundary_append_left (Nat.le_refl _)]
    exact isCharBoundary_length s.bytes
  have hstop : ((s.append t).append u).boundary (s.len + t.len) := by
    rw [append_assoc, boundary_append_right, boundary_append_left (Nat.le_refl _)]
    exact isCharBoundary_length t.bytes
  refine get?_eq_some.mpr ⟨Nat.le_add_right .., hstart, hstop, ?_⟩
  rw [append_assoc, bytes_append, Nat.add_sub_cancel_left, bytes_append]
  change t.bytes = ((s.bytes ++ (t.bytes ++ u.bytes)).drop s.bytes.length).take t.bytes.length
  rw [List.drop_left, List.take_left]

/-- Boundaries of a range are boundaries of the text. -/
theorem boundary_of_get? {s w : Str} {start stop j : Nat} (h : s.get? start stop = some w)
    (hj : w.boundary j) : s.boundary (start + j) := by
  have hlen := len_of_get? h
  have hle := hj.le
  rw [hlen] at hle
  obtain ⟨hle', -, hstop, hw⟩ := get?_eq_some.mp h
  rw [boundary, s.valid.boundary_iff]
  refine ⟨by have := hstop.le; rw [len] at this; omega, ?_⟩
  -- What is left of the range, and what is after it.
  have hsplit : s.bytes.drop (start + j) = w.bytes.drop j ++ s.bytes.drop stop := by
    have hcut := List.take_append_drop (stop - start - j) (s.bytes.drop (start + j))
    rw [List.drop_drop, show start + j + (stop - start - j) = stop by omega] at hcut
    rw [hw, List.drop_take, List.drop_drop]
    exact hcut.symm
  rw [hsplit]
  exact (w.valid.split hj).2.append (s.valid.split hstop).2

end Str

/-! ## Arbitrary bytes -/

/-- A stretch of text, and the bytes after it that are none. -/
structure Utf8Chunk where
  valid : Str
  invalid : List UInt8

/-- The chunks after a text. -/
def chunksFrom (text : Str) : List UInt8 → List Utf8Chunk
  | [] => if text = .empty then [] else [⟨text, []⟩]
  | b :: bs =>
    match h : scanChar (b :: bs) with
    | (true, n) =>
      chunksFrom (text.append ⟨(b :: bs).take n, .of_isChar (isChar_of_scanChar h)⟩)
        ((b :: bs).drop n)
    | (false, n) => ⟨text, (b :: bs).take n⟩ :: chunksFrom .empty ((b :: bs).drop n)
termination_by source => source.length
decreasing_by
  all_goals
    have hpos := scanChar_pos (List.cons_ne_nil b bs)
    have hle := scanChar_le_length (b :: bs)
    rw [h] at hpos hle
    rw [List.length_drop]
    omega

/-- `[u8]::utf8_chunks`. -/
def utf8Chunks (source : List UInt8) : List Utf8Chunk := chunksFrom .empty source

/-- `char::REPLACEMENT_CHARACTER`. -/
def replacement : Str := ⟨[0xEF, 0xBF, 0xBD], .of_isChar (by decide)⟩

/-- The chunks with each stretch of other bytes replaced. -/
def lossy : List Utf8Chunk → Str
  | [] => .empty
  | chunk :: chunks =>
    (chunk.valid.append (if chunk.invalid.isEmpty then .empty else replacement)).append
      (lossy chunks)

/-- `String::from_utf8_lossy`. -/
def fromUtf8Lossy (source : List UInt8) : Str := lossy (utf8Chunks source)

/-- `str::from_utf8`. -/
def fromUtf8 (source : List UInt8) : Option Str :=
  if (utf8Chunks source).all fun chunk => chunk.invalid.isEmpty then some (fromUtf8Lossy source)
  else none

/-- Bytes that are text make one chunk. -/
theorem chunksFrom_of_valid (h : Valid source) (text : Str) :
    (chunksFrom text source).all (fun chunk => chunk.invalid.isEmpty) = true := by
  induction h generalizing text with
  | nil =>
    rw [chunksFrom]
    split <;> rfl
  | @cons c rest hc _ ih =>
    obtain ⟨-, -, -, -, -, -, -, -, hscan⟩ := scanChar_complete hc
    rw [List.take_length] at hscan
    obtain ⟨b, cs, rfl, -⟩ := hc.shape
    rw [List.cons_append, chunksFrom]
    split
    · rename_i n h
      rw [← List.cons_append, hscan] at h
      cases h
      have hdrop : (b :: (cs ++ rest)).drop (b :: cs).length = rest :=
        @List.drop_append_length _ (b :: cs) rest
      rw [hdrop]
      exact ih _
    · rename_i n h
      rw [← List.cons_append, hscan] at h
      cases h

/-- Nothing is lost of bytes that are replaced nowhere. -/
theorem bytes_lossy (text : Str) (source : List UInt8)
    (h : (chunksFrom text source).all (fun chunk => chunk.invalid.isEmpty) = true) :
    (lossy (chunksFrom text source)).bytes = text.bytes ++ source := by
  fun_induction chunksFrom text source with
  | case1 => rfl
  | case2 => simp [lossy, Str.empty]
  | case3 text b bs n hscan ih =>
    rw [ih h, Str.bytes_append, List.append_assoc, List.take_append_drop]
  | case4 text b bs n hscan _ =>
    -- The bytes that cannot start a character are at least one.
    have hpos := scanChar_pos (List.cons_ne_nil b bs)
    rw [hscan] at hpos
    obtain ⟨m, rfl⟩ := Nat.exists_eq_succ_of_ne_zero (Nat.pos_iff_ne_zero.mp hpos)
    simp at h

/-- **Text is read as itself.** -/
theorem fromUtf8_eq_some {s : Str} : fromUtf8 source = some s ↔ s.bytes = source := by
  rw [fromUtf8]
  have hbytes : ((utf8Chunks source).all fun chunk => chunk.invalid.isEmpty) = true →
      (fromUtf8Lossy source).bytes = source := bytes_lossy .empty source
  constructor
  · intro h
    split at h
    · rename_i hall
      exact Option.some.inj h ▸ hbytes hall
    · cases h
  · rintro rfl
    have hall := chunksFrom_of_valid s.valid .empty
    rw [utf8Chunks, if_pos hall, Option.some_inj]
    exact Str.ext (hbytes hall)

theorem fromUtf8Lossy_bytes (s : Str) : fromUtf8Lossy s.bytes = s :=
  Str.ext (bytes_lossy .empty s.bytes (chunksFrom_of_valid s.valid .empty))

end Utf8
