import Mathlib.Algebra.Order.BigOperators.Group.List
import Mathlib.Algebra.Order.Ring.Nat

/-!
# The bound on the footprint of a request

Before a request is parsed its bytes are scanned, and memory is reserved for the tree: two nodes for
the root and each comma and colon outside strings, and the bytes of the strings.  But an array that
is not empty has one element more than it has commas.

## What is here

* `valueFootprintBound` — the scan.
* `Doc` — a document as it is written, with its bytes and the value it is parsed into.
* `scan_text` and `written_add` — what the scan counts, and how many nodes there are.
* `valueFootprintBound_iff` — **when the bound is one**; `nested_arrays` — a request it is none for.
-/

namespace MagicContext.Wire

/-! ## The scan -/

def valueNodeSlack : Nat := 2

def valueEnvelopeBytes : Nat := 4096

structure Scan where
  nodes : Nat := 1
  stringBytes : Nat := 0
  inString : Bool := false
  escaped : Bool := false

def Scan.step (s : Scan) (byte : UInt8) : Scan :=
  if s.inString then
    let s := { s with stringBytes := s.stringBytes + 1 }
    if s.escaped then { s with escaped := false }
    else if byte = '\\'.toUInt8 then { s with escaped := true }
    else if byte = '"'.toUInt8 then { s with inString := false }
    else s
  else if byte = '"'.toUInt8 then { s with inString := true }
  else if byte = ','.toUInt8 ∨ byte = ':'.toUInt8 then { s with nodes := s.nodes + 1 }
  else s

def checked (usizeMax n : Nat) : Option Nat := if n ≤ usizeMax then some n else none

/-- `value_footprint_bound`, where a `Value` has the size `valueSize`. -/
def valueFootprintBound (usizeMax valueSize : Nat) (body : List UInt8) : Option Nat := do
  let s := body.foldl Scan.step {}
  let bound ← checked usizeMax (s.nodes * valueSize)
  let bound ← checked usizeMax (bound * valueNodeSlack)
  let bound ← checked usizeMax (bound + s.stringBytes)
  checked usizeMax (bound + valueEnvelopeBytes)

/-! ## Values -/

/-- A `serde_json::Value`. -/
inductive Value where
  /-- Null, a boolean or a number, which owns no bytes. -/
  | plain
  | string (s : List UInt8)
  | array (items : List Value)
  | object (members : List (List UInt8 × Value))

namespace Value

mutual
/-- So much for each node, and for each byte of a string or a key. -/
def weight (node byte : Nat) : Value → Nat
  | plain => node
  | string s => node + byte * s.length
  | array items => node + weightItems node byte items
  | object members => node + weightMembers node byte members

def weightItems (node byte : Nat) : List Value → Nat
  | [] => 0
  | v :: vs => v.weight node byte + weightItems node byte vs

def weightMembers (node byte : Nat) : List (List UInt8 × Value) → Nat
  | [] => 0
  | (key, v) :: members => byte * key.length + v.weight node byte + weightMembers node byte members
end

def nodes (v : Value) : Nat := v.weight 1 0

def ownedBytes (v : Value) : Nat := v.weight 0 1

/-- Of members with one key the last is kept. -/
def insert (members : List (List UInt8 × Value)) (member : List UInt8 × Value) :
    List (List UInt8 × Value) :=
  members.filter (fun other => other.1 ≠ member.1) ++ [member]

variable (node byte : Nat)

theorem weightItems_eq (items : List Value) :
    weightItems node byte items = (items.map (weight node byte)).sum := by
  induction items with
  | nil => rfl
  | cons v items ih => rw [weightItems, ih, List.map_cons, List.sum_cons]

theorem weightMembers_eq (members : List (List UInt8 × Value)) :
    weightMembers node byte members
      = (members.map fun m => byte * m.1.length + m.2.weight node byte).sum := by
  induction members with
  | nil => rfl
  | cons m members ih => rw [weightMembers, ih, List.map_cons, List.sum_cons]

theorem weightMembers_insert_le (members : List (List UInt8 × Value)) (m : List UInt8 × Value) :
    weightMembers node byte (insert members m)
      ≤ weightMembers node byte members + (byte * m.1.length + m.2.weight node byte) := by
  simp only [weightMembers_eq, insert, List.map_append, List.sum_append]
  refine Nat.add_le_add ?_ (by simp)
  exact (List.filter_sublist.map _).sum_le_sum fun _ _ => Nat.zero_le _

theorem weightMembers_foldl_le (members kept : List (List UInt8 × Value)) :
    weightMembers node byte (members.foldl insert kept)
      ≤ weightMembers node byte kept + weightMembers node byte members := by
  induction members generalizing kept with
  | nil => exact Nat.le_add_right _ _
  | cons m members ih =>
    have hone := weightMembers_insert_le node byte kept m
    have hrest := ih (insert kept m)
    rw [List.foldl_cons, weightMembers]
    omega

end Value

/-! ## Tokens -/

def Spaces : Type := { bytes : List UInt8 // ∀ b ∈ bytes, b ∈ [0x20, 0x09, 0x0a, 0x0d] }

def Digits (bytes : List UInt8) : Prop :=
  bytes ≠ [] ∧ ∀ b ∈ bytes, '0'.toUInt8 ≤ b ∧ b ≤ '9'.toUInt8

/-- Null, a boolean or a number. -/
inductive Scalar : List UInt8 → Prop
  | null : Scalar ("null".toList.map Char.toUInt8)
  | true : Scalar ("true".toList.map Char.toUInt8)
  | false : Scalar ("false".toList.map Char.toUInt8)
  | number {sign int fraction exponent : List UInt8} (hsign : sign = [] ∨ sign = ['-'.toUInt8])
      (hint : Digits int) (hzero : int.head? = some '0'.toUInt8 → int.length = 1)
      (hfraction : fraction = [] ∨ ∃ digits, Digits digits ∧ fraction = '.'.toUInt8 :: digits)
      (hexponent : exponent = [] ∨ ∃ e sign digits, (e = 'e'.toUInt8 ∨ e = 'E'.toUInt8) ∧
        (sign = [] ∨ sign = ['+'.toUInt8] ∨ sign = ['-'.toUInt8]) ∧ Digits digits ∧
        exponent = e :: sign ++ digits) :
      Scalar (sign ++ int ++ fraction ++ exponent)

def hexValue (b : UInt8) : Option Nat :=
  if '0'.toUInt8 ≤ b ∧ b ≤ '9'.toUInt8 then some (b.toNat - 0x30)
  else if 'a'.toUInt8 ≤ b ∧ b ≤ 'f'.toUInt8 then some (b.toNat - 0x57)
  else if 'A'.toUInt8 ≤ b ∧ b ≤ 'F'.toUInt8 then some (b.toNat - 0x37)
  else none

/-- `XXXX` after `\u`. -/
def IsUnit : List UInt8 → Nat → Prop
  | [w, x, y, z], n => ∃ a ∈ hexValue w, ∃ b ∈ hexValue x, ∃ c ∈ hexValue y, ∃ d ∈ hexValue z,
    n = ((a * 16 + b) * 16 + c) * 16 + d
  | _, _ => False

/-- What may follow a backslash, and the bytes it stands for. -/
inductive Escape : List UInt8 → List UInt8 → Prop
  | short {c d : Char} (h : (c, d) ∈ [('"', '"'), ('\\', '\\'), ('/', '/'), ('b', '\x08'),
      ('f', '\x0c'), ('n', '\n'), ('r', '\r'), ('t', '\t')]) : Escape [c.toUInt8] [d.toUInt8]
  | unit {digits : List UInt8} {c : Char} (h : IsUnit digits c.toNat) :
      Escape ('u'.toUInt8 :: digits) (String.utf8EncodeChar c)
  | pair {high low : List UInt8} {m n : Nat} {c : Char} (hhigh : IsUnit high (0xd800 + m))
      (hlow : IsUnit low (0xdc00 + n)) (hn : n < 0x400) (hc : c.toNat = 0x10000 + m * 0x400 + n) :
      Escape ('u'.toUInt8 :: high ++ '\\'.toUInt8 :: 'u'.toUInt8 :: low) (String.utf8EncodeChar c)

inductive Piece where
  | plain (b : UInt8) (h : b ≠ '"'.toUInt8 ∧ b ≠ '\\'.toUInt8 ∧ 0x20 ≤ b)
  | escape (code decoded : List UInt8) (h : Escape code decoded)

def Piece.text : Piece → List UInt8
  | plain b _ => [b]
  | escape code _ _ => '\\'.toUInt8 :: code

def Piece.decoded : Piece → List UInt8
  | plain b _ => [b]
  | escape _ decoded _ => decoded

/-! ## Tokens under the scan -/

variable (n r : Nat)

theorem hexValue_plain {b : UInt8} {n : Nat} (h : n ∈ hexValue b) :
    b ≠ '"'.toUInt8 ∧ b ≠ '\\'.toUInt8 := by
  constructor <;> rintro rfl <;> cases h

theorem isUnit_plain : ∀ {digits : List UInt8} {n : Nat}, IsUnit digits n →
    digits.length = 4 ∧ ∀ b ∈ digits, b ≠ '"'.toUInt8 ∧ b ≠ '\\'.toUInt8
  | [_, _, _, _], _, ⟨_, hw, _, hx, _, hy, _, hz, _⟩ => by
    simpa using ⟨hexValue_plain hw, hexValue_plain hx, hexValue_plain hy, hexValue_plain hz⟩

variable {bytes : List UInt8}

theorem scan_plain (h : ∀ b ∈ bytes, b ≠ '"'.toUInt8 ∧ b ≠ '\\'.toUInt8) :
    bytes.foldl Scan.step ⟨n, r, true, false⟩ = ⟨n, r + bytes.length, true, false⟩ := by
  induction bytes generalizing r with
  | nil => rfl
  | cons b bytes ih =>
    have hb := h b List.mem_cons_self
    have hstep : Scan.step ⟨n, r, true, false⟩ b = ⟨n, r + 1, true, false⟩ := by
      simp [Scan.step, hb]
    rw [List.foldl_cons, hstep, ih _ fun c hc => h c (List.mem_cons_of_mem b hc), List.length_cons,
      Nat.add_right_comm, Nat.add_assoc]

theorem step_escaped (b : UInt8) : Scan.step ⟨n, r, true, true⟩ b = ⟨n, r + 1, true, false⟩ := rfl

theorem step_backslash (n r : Nat) :
    Scan.step ⟨n, r, true, false⟩ '\\'.toUInt8 = ⟨n, r + 1, true, true⟩ := rfl

/-- What follows the backslash is passed whole, and is no shorter than what it stands for. -/
theorem scan_escape {code decoded : List UInt8} (h : Escape code decoded) :
    code.foldl Scan.step ⟨n, r, true, true⟩ = ⟨n, r + code.length, true, false⟩ ∧
      decoded.length ≤ code.length := by
  have hchar (c : Char) : (String.utf8EncodeChar c).length ≤ 4 := by
    rw [String.length_utf8EncodeChar]
    exact c.utf8Size_le_four
  cases h with
  | short _ => exact ⟨rfl, le_rfl⟩
  | @unit digits c h =>
    have hc := hchar c
    obtain ⟨hlen, hplain⟩ := isUnit_plain h
    refine ⟨?_, by rw [List.length_cons]; omega⟩
    rw [List.foldl_cons, step_escaped, scan_plain _ _ hplain, List.length_cons, Nat.add_right_comm,
      Nat.add_assoc]
  | @pair high low _ _ c hhigh hlow _ _ =>
    have hc := hchar c
    obtain ⟨-, hplain⟩ := isUnit_plain hhigh
    obtain ⟨hlen', hplain'⟩ := isUnit_plain hlow
    refine ⟨?_, by simp only [List.length_append, List.length_cons]; omega⟩
    rw [List.cons_append, List.foldl_cons, List.foldl_append, List.foldl_cons, List.foldl_cons,
      step_escaped, scan_plain _ _ hplain, step_backslash, step_escaped, scan_plain _ _ hplain']
    simp only [List.length_append, List.length_cons, Scan.mk.injEq, and_true, true_and]
    omega

theorem scan_piece (p : Piece) :
    p.text.foldl Scan.step ⟨n, r, true, false⟩ = ⟨n, r + p.text.length, true, false⟩ ∧
      p.decoded.length ≤ p.text.length := by
  cases p with
  | plain b h => exact ⟨scan_plain n r (by simpa [Piece.text] using ⟨h.1, h.2.1⟩), le_rfl⟩
  | escape code decoded h =>
    obtain ⟨hscan, hlen⟩ := scan_escape n (r + 1) h
    refine ⟨?_, Nat.le_succ_of_le hlen⟩
    rw [Piece.text, List.foldl_cons, step_backslash, hscan, List.length_cons, Nat.add_right_comm,
      Nat.add_assoc]

theorem scan_pieces (pieces : List Piece) :
    (pieces.flatMap Piece.text).foldl Scan.step ⟨n, r, true, false⟩
        = ⟨n, r + (pieces.flatMap Piece.text).length, true, false⟩ ∧
      (pieces.flatMap Piece.decoded).length ≤ (pieces.flatMap Piece.text).length := by
  induction pieces generalizing r with
  | nil => exact ⟨rfl, le_rfl⟩
  | cons p pieces ih =>
    obtain ⟨hp, hlen⟩ := scan_piece n r p
    obtain ⟨hrest, hlen'⟩ := ih (r + p.text.length)
    simp only [List.flatMap_cons, List.foldl_append, List.length_append]
    rw [hp, hrest, Nat.add_assoc]
    exact ⟨rfl, Nat.add_le_add hlen hlen'⟩

def Inert (bytes : List UInt8) : Prop :=
  ∀ b ∈ bytes, b ≠ '"'.toUInt8 ∧ b ≠ ','.toUInt8 ∧ b ≠ ':'.toUInt8

instance (bytes : List UInt8) : Decidable (Inert bytes) := List.decidableBAll _ _

theorem scan_inert (h : Inert bytes) :
    bytes.foldl Scan.step ⟨n, r, false, false⟩ = ⟨n, r, false, false⟩ := by
  induction bytes with
  | nil => rfl
  | cons b bytes ih =>
    obtain ⟨hquote, hcomma, hcolon⟩ := h b List.mem_cons_self
    have hstep : Scan.step ⟨n, r, false, false⟩ b = ⟨n, r, false, false⟩ := by
      simp [Scan.step, hquote, hcomma, hcolon]
    rw [List.foldl_cons, hstep, ih fun c hc => h c (List.mem_cons_of_mem b hc)]

theorem scan_around {n r n' r' : Nat} {before after : List UInt8} (hbefore : Inert before)
    (hafter : Inert after)
    (h : bytes.foldl Scan.step ⟨n, r, false, false⟩ = ⟨n', r', false, false⟩) :
    (before ++ bytes ++ after).foldl Scan.step ⟨n, r, false, false⟩ = ⟨n', r', false, false⟩ := by
  rw [List.foldl_append, List.foldl_append, scan_inert n r hbefore, h, scan_inert n' r' hafter]

theorem scan_enclosed {n r n' r' : Nat} {opened closed : UInt8}
    (hopened : Inert [opened]) (hclosed : Inert [closed])
    (h : bytes.foldl Scan.step ⟨n, r, false, false⟩ = ⟨n', r', false, false⟩) :
    (opened :: bytes ++ [closed]).foldl Scan.step ⟨n, r, false, false⟩ = ⟨n', r', false, false⟩ :=
  scan_around hopened hclosed h

theorem Spaces.inert (gap : Spaces) : Inert gap.1 :=
  fun b hb => (by decide : Inert [0x20, 0x09, 0x0a, 0x0d]) b (gap.2 b hb)

theorem Digits.inert (h : Digits bytes) : Inert bytes := by
  intro b hb
  have hrange := h.2 b hb
  refine ⟨?_, ?_, ?_⟩ <;> rintro rfl <;> exact absurd hrange (by decide)

theorem Scalar.inert (h : Scalar bytes) : Inert bytes := by
  cases h with
  | null | true | false => decide
  | @number sign int fraction exponent hsign hint _ hfraction hexponent =>
    have hsign : Inert sign := by rcases hsign with rfl | rfl <;> decide
    have hfraction : Inert fraction := by
      rcases hfraction with rfl | ⟨digits, hdigits, rfl⟩
      · decide
      · exact List.forall_mem_cons.mpr ⟨by decide, hdigits.inert⟩
    have hexponent : Inert exponent := by
      rcases hexponent with rfl | ⟨e, sign, digits, he, hsign, hdigits, rfl⟩
      · decide
      · have hsign : Inert sign := by rcases hsign with rfl | rfl | rfl <;> decide
        have he : Inert [e] := by rcases he with rfl | rfl <;> decide
        exact List.forall_mem_append.mpr ⟨List.forall_mem_append.mpr ⟨he, hsign⟩, hdigits.inert⟩
    simp only [Inert, List.forall_mem_append] at *
    exact ⟨⟨⟨hsign, hint.inert⟩, hfraction⟩, hexponent⟩

/-! ## Documents -/

inductive Kind where
  | value | member
  | list (kind : Kind)

def Kind.Result : Kind → Type
  | value => Value
  | member => List UInt8 × Value
  | list kind => List kind.Result

/-- The nodes that stand before any separator: one, but for members, which have a colon each. -/
def Kind.base : Kind → Nat
  | value => 1
  | member => 0
  | list kind => kind.base

def Kind.weight (node byte : Nat) : (kind : Kind) → kind.Result → Nat
  | value, v => Value.weight node byte v
  | member, m => byte * m.1.length + m.2.weight node byte
  | list kind, results => (List.map (kind.weight node byte) results).sum

/-- A document as it is written: values, members of objects, and lists of these. -/
inductive Doc : Kind → Type
  | scalar (token : List UInt8) (h : Scalar token) : Doc .value
  | string (pieces : List Piece) : Doc .value
  | emptyArray (gap : Spaces) : Doc .value
  | array (items : Doc (.list .value)) : Doc .value
  | emptyObject (gap : Spaces) : Doc .value
  | object (members : Doc (.list .member)) : Doc .value
  | padded (before after : Spaces) (doc : Doc .value) : Doc .value
  | member (before after : Spaces) (key : List Piece) (doc : Doc .value) : Doc .member
  | last {kind : Kind} (doc : Doc kind) : Doc (.list kind)
  | more {kind : Kind} (doc : Doc kind) (rest : Doc (.list kind)) : Doc (.list kind)

namespace Doc

def quoted (pieces : List Piece) : List UInt8 :=
  '"'.toUInt8 :: pieces.flatMap Piece.text ++ ['"'.toUInt8]

def text : {kind : Kind} → Doc kind → List UInt8
  | _, scalar token _ => token
  | _, string pieces => quoted pieces
  | _, emptyArray gap => '['.toUInt8 :: gap.1 ++ [']'.toUInt8]
  | _, array items => '['.toUInt8 :: items.text ++ [']'.toUInt8]
  | _, emptyObject gap => '{'.toUInt8 :: gap.1 ++ ['}'.toUInt8]
  | _, object members => '{'.toUInt8 :: members.text ++ ['}'.toUInt8]
  | _, padded before after doc => before.1 ++ doc.text ++ after.1
  | _, member before after key doc => before.1 ++ quoted key ++ after.1 ++ ':'.toUInt8 :: doc.text
  | _, last doc => doc.text
  | _, more doc rest => doc.text ++ ','.toUInt8 :: rest.text

/-- What the document is parsed into. -/
def value : {kind : Kind} → Doc kind → kind.Result
  | _, scalar _ _ => .plain
  | _, string pieces => .string (pieces.flatMap Piece.decoded)
  | _, emptyArray _ => .array []
  | _, array items => .array items.value
  | _, emptyObject _ => .object []
  | _, object members => .object (List.foldl Value.insert [] members.value)
  | _, padded _ _ doc => doc.value
  | _, member _ _ key doc => (key.flatMap Piece.decoded, doc.value)
  | _, last doc => [doc.value]
  | _, more doc rest => doc.value :: rest.value

/-! ## What is counted -/

/-- The weight of what is written, members included that a later one replaces. -/
def weight (node byte : Nat) : {kind : Kind} → Doc kind → Nat
  | _, scalar _ _ | _, emptyArray _ | _, emptyObject _ => node
  | _, string pieces => node + byte * (pieces.flatMap Piece.decoded).length
  | _, array items => node + items.weight node byte
  | _, object members => node + members.weight node byte
  | _, padded _ _ doc | _, last doc => doc.weight node byte
  | _, member _ _ key doc => byte * (key.flatMap Piece.decoded).length + doc.weight node byte
  | _, more doc rest => doc.weight node byte + rest.weight node byte

/-- The commas and the colons outside strings. -/
def separators : {kind : Kind} → Doc kind → Nat
  | _, scalar _ _ | _, emptyArray _ | _, emptyObject _ | _, string _ => 0
  | _, array doc | _, object doc | _, padded _ _ doc | _, last doc => doc.separators
  | _, member _ _ _ doc => doc.separators + 1
  | _, more doc rest => doc.separators + 1 + rest.separators

/-- The commas among these that stand in objects. -/
def objectCommas : {kind : Kind} → Doc kind → Nat
  | _, scalar _ _ | _, emptyArray _ | _, emptyObject _ | _, string _ => 0
  | _, array doc | _, object doc | _, padded _ _ doc | _, last doc | _, member _ _ _ doc =>
    doc.objectCommas
  | _, @more kind doc rest => doc.objectCommas + (1 - kind.base) + rest.objectCommas

/-- The arrays that are not empty. -/
def arrays : {kind : Kind} → Doc kind → Nat
  | _, scalar _ _ | _, emptyArray _ | _, emptyObject _ | _, string _ => 0
  | _, array items => items.arrays + 1
  | _, object doc | _, padded _ _ doc | _, last doc | _, member _ _ _ doc => doc.arrays
  | _, more doc rest => doc.arrays + rest.arrays

/-- The bytes within quotes, the closing ones included. -/
def stringBytes : {kind : Kind} → Doc kind → Nat
  | _, scalar _ _ | _, emptyArray _ | _, emptyObject _ => 0
  | _, string pieces => (pieces.flatMap Piece.text).length + 1
  | _, array doc | _, object doc | _, padded _ _ doc | _, last doc => doc.stringBytes
  | _, member _ _ key doc => (key.flatMap Piece.text).length + 1 + doc.stringBytes
  | _, more doc rest => doc.stringBytes + rest.stringBytes

/-! ## The nodes of the value -/

theorem weight_value_le (node byte : Nat) {kind : Kind} (d : Doc kind) :
    kind.weight node byte d.value ≤ d.weight node byte := by
  induction d with
  | scalar _ _ | string _ | emptyArray _ | emptyObject _ => exact le_rfl
  | array items ih =>
    exact Nat.add_le_add_left ((Value.weightItems_eq node byte _).le.trans ih) node
  | object members ih =>
    have hkept := Value.weightMembers_foldl_le node byte members.value []
    have hwritten := (Value.weightMembers_eq node byte members.value).le.trans ih
    exact Nat.add_le_add_left (hkept.trans ((Nat.zero_add _).le.trans hwritten)) node
  | padded _ _ doc ih | last doc ih => exact ih
  | member _ _ key doc ih => exact Nat.add_le_add_left ih _
  | more doc rest ih ihrest => exact Nat.add_le_add ih ihrest

/-! ## What is written -/

theorem base_le_one (kind : Kind) : kind.base ≤ 1 := by
  induction kind with
  | value | member => decide
  | list kind ih => exact ih

/-- An array that is not empty is a node to which no separator belongs; a comma in an object is a
separator to which no node belongs. -/
theorem written_add {kind : Kind} (d : Doc kind) :
    d.weight 1 0 + d.objectCommas = kind.base + d.separators + d.arrays := by
  induction d with
  | scalar _ _ | string _ | emptyArray _ | emptyObject _ =>
    simp [weight, objectCommas, separators, arrays, Kind.base]
  | array _ ih | object _ ih | padded _ _ _ ih | last _ ih | member _ _ _ _ ih =>
    simp only [weight, objectCommas, separators, arrays, Kind.base] at ih ⊢
    omega
  | @more kind doc rest ih ihrest =>
    have hbase := base_le_one kind
    simp only [weight, objectCommas, separators, arrays, Kind.base] at ihrest ⊢
    omega

/-! ## What the scan counts -/

theorem scan_quoted (pieces : List Piece) :
    (quoted pieces).foldl Scan.step ⟨n, r, false, false⟩
      = ⟨n, r + ((pieces.flatMap Piece.text).length + 1), false, false⟩ := by
  have hopen : Scan.step ⟨n, r, false, false⟩ '"'.toUInt8 = ⟨n, r, true, false⟩ := rfl
  rw [quoted, List.cons_append, List.foldl_cons, List.foldl_append, hopen,
    (scan_pieces n r pieces).1]
  rfl

theorem owned_le {kind : Kind} (d : Doc kind) : d.weight 0 1 ≤ d.stringBytes := by
  induction d with
  | scalar _ _ | emptyArray _ | emptyObject _ => exact le_rfl
  | string pieces =>
    have hlen := (scan_pieces 0 0 pieces).2
    simp only [weight, stringBytes]
    omega
  | array _ ih | object _ ih | padded _ _ _ ih | last _ ih =>
    simpa [weight, stringBytes] using ih
  | member _ _ key doc ih =>
    have hlen := (scan_pieces 0 0 key).2
    simp only [weight, stringBytes]
    omega
  | more doc rest ih ihrest => exact Nat.add_le_add ih ihrest

theorem scan_text {kind : Kind} (d : Doc kind) :
    d.text.foldl Scan.step ⟨n, r, false, false⟩
      = ⟨n + d.separators, r + d.stringBytes, false, false⟩ := by
  induction d generalizing n r with
  | scalar _ h => exact scan_inert n r h.inert
  | string pieces => exact scan_quoted n r pieces
  | emptyArray gap | emptyObject gap =>
    exact scan_enclosed (by decide) (by decide) (scan_inert n r gap.inert)
  | array items ih | object items ih => exact scan_enclosed (by decide) (by decide) (ih n r)
  | padded before after doc ih => exact scan_around before.inert after.inert (ih n r)
  | last doc ih => exact ih n r
  | member before after key doc ih =>
    have hkey := scan_around before.inert after.inert (scan_quoted n r key)
    have hcolon (m q : Nat) :
        Scan.step ⟨m, q, false, false⟩ ':'.toUInt8 = ⟨m + 1, q, false, false⟩ := rfl
    rw [text, List.foldl_append, List.foldl_cons, hkey, hcolon, ih, separators, stringBytes]
    simp only [Scan.mk.injEq, and_true]
    omega
  | more doc rest ih ihrest =>
    have hcomma (m q : Nat) :
        Scan.step ⟨m, q, false, false⟩ ','.toUInt8 = ⟨m + 1, q, false, false⟩ := rfl
    rw [text, List.foldl_append, List.foldl_cons, ih, hcomma, ihrest, separators, stringBytes]
    simp only [Scan.mk.injEq, and_true]
    omega

end Doc

/-! ## When the bound is one -/

/-- The number of nodes that are replaced by members of the same key. -/
def Doc.replaced (d : Doc .value) : Nat := d.weight 1 0 - Value.nodes d.value

theorem checked_eq_some {usizeMax n m : Nat} :
    checked usizeMax n = some m ↔ n ≤ usizeMax ∧ n = m := by
  unfold checked
  split <;> simp_all

theorem valueFootprintBound_eq_some {usizeMax size bound : Nat} (d : Doc .value) :
    valueFootprintBound usizeMax size d.text = some bound ↔
      bound = (1 + d.separators) * size * 2 + d.stringBytes + 4096 ∧ bound ≤ usizeMax := by
  have hscan : d.text.foldl Scan.step {} = ⟨1 + d.separators, 0 + d.stringBytes, false, false⟩ :=
    Doc.scan_text 1 0 d
  simp only [valueFootprintBound, hscan, Option.bind_eq_bind, Option.bind_eq_some_iff,
    checked_eq_some, valueNodeSlack, valueEnvelopeBytes, Nat.zero_add]
  constructor
  · rintro ⟨_, ⟨-, rfl⟩, _, ⟨-, rfl⟩, _, ⟨-, rfl⟩, hmax, rfl⟩
    exact ⟨rfl, hmax⟩
  · rintro ⟨rfl, hmax⟩
    exact ⟨_, ⟨by omega, rfl⟩, _, ⟨by omega, rfl⟩, _, ⟨by omega, rfl⟩, hmax, rfl⟩

/-- **The bound is one exactly when the arrays are outweighed.**  Each array that is not empty
costs a node; what is left over are the second node of the root and of each separator, the commas
in objects, the members that were replaced, the bytes of strings that are not in the value, and
the envelope. -/
theorem valueFootprintBound_iff (usizeMax size : Nat) (d : Doc .value) :
    (∀ bound, valueFootprintBound usizeMax size d.text = some bound →
        Value.nodes d.value * size + Value.ownedBytes d.value ≤ bound) ↔
      usizeMax < (1 + d.separators) * size * 2 + d.stringBytes + 4096 ∨
        d.arrays * size ≤ (1 + d.separators + d.objectCommas + d.replaced) * size
          + (d.stringBytes - Value.ownedBytes d.value) + 4096 := by
  have hwritten : d.weight 1 0 + d.objectCommas = 1 + d.separators + d.arrays := d.written_add
  have hnodes : Value.nodes d.value ≤ d.weight 1 0 := d.weight_value_le 1 0
  have howned : Value.ownedBytes d.value ≤ d.stringBytes :=
    (d.weight_value_le 0 1).trans (Doc.owned_le d)
  have hsize : Value.nodes d.value * size + (d.objectCommas + d.replaced) * size
      = (1 + d.separators) * size + d.arrays * size := by
    rw [← Nat.add_mul, ← Nat.add_mul, Doc.replaced]
    congr 1
    omega
  have hleft : (1 + d.separators + d.objectCommas + d.replaced) * size
      = (1 + d.separators) * size + (d.objectCommas + d.replaced) * size := by
    rw [← Nat.add_mul, Nat.add_assoc (1 + _)]
  simp only [valueFootprintBound_eq_some]
  constructor
  · intro h
    by_contra hno
    push Not at hno
    have hle := h _ ⟨rfl, hno.1⟩
    omega
  · rintro h bound ⟨rfl, hmax⟩
    omega

def nested : Nat → Doc .value
  | 0 => .emptyArray ⟨[], List.forall_mem_nil _⟩
  | depth + 1 => .array (.last (nested depth))

/-- Two arrays nested a hundred deep in one: 201 nodes of 32 bytes, and a bound of 4,224. -/
theorem nested_arrays : ∃ (d : Doc .value) (bound : Nat),
    d.text = '['.toUInt8 :: (nested 99).text ++ ','.toUInt8 :: (nested 99).text ++ [']'.toUInt8] ∧
    (nested 99).text = List.replicate 100 '['.toUInt8 ++ List.replicate 100 ']'.toUInt8 ∧
    valueFootprintBound (2 ^ 64 - 1) 32 d.text = some bound ∧
      bound < Value.nodes d.value * 32 + Value.ownedBytes d.value :=
  ⟨.array (.more (nested 99) (.last (nested 99))), 4224, by decide +kernel⟩

end MagicContext.Wire
