import MagicContext.Lib.Decimal

/-!
# Reading JSON texts

A reader of JSON texts into any kind of value: white space between the tokens, every escape of a
string, and numbers that are integers.  What a number with a fraction or an exponent stands for
depends on the runtime, and no text with one is read here.

## What is here

* `Builder` — how values are built.
* `read` — the value of a whole text.
* `Reads` — a text stands for a value wherever it occurs.  **There is one rule for each shape of
  value**: `reads_null`, `reads_true`, `reads_false`, `reads_integer`, `reads_string`, `reads_array`
  and `reads_object`.
* `read_of_reads` — what stands for a value wherever it occurs is read as that value.
-/

namespace JsonText

/-! ## The reader -/

/-- How a runtime builds the values it reads; it may have no number for an integer. -/
structure Builder (V : Type) where
  null : V
  bool : Bool → V
  integer : Int → Option V
  string : String → V
  array : List V → V
  object : List (String × V) → V

def isSpace (c : Char) : Bool := c == ' ' || c == '\t' || c == '\n' || c == '\r'

def skip (text : List Char) : List Char := text.dropWhile isSpace

/-- The value of a hexadecimal digit of either case. -/
def hexValue (c : Char) : Option Nat :=
  if '0' ≤ c ∧ c ≤ '9' then some (c.toNat - '0'.toNat)
  else if 'a' ≤ c ∧ c ≤ 'f' then some (c.toNat - 'a'.toNat + 10)
  else if 'A' ≤ c ∧ c ≤ 'F' then some (c.toNat - 'A'.toNat + 10)
  else none

/-- Four hexadecimal digits. -/
def readUnit : List Char → Option (Nat × List Char)
  | a :: b :: c :: d :: rest => do
    let a ← hexValue a
    let b ← hexValue b
    let c ← hexValue c
    let d ← hexValue d
    return (((a * 16 + b) * 16 + c) * 16 + d, rest)
  | _ => none

/-- A character by its code unit; a high surrogate is followed by a low one. -/
def readCoded (text : List Char) : Option (Char × List Char) := do
  let (unit, rest) ← readUnit text
  if unit < 0xD800 ∨ 0xE000 ≤ unit then return (Char.ofNat unit, rest)
  else if 0xDC00 ≤ unit then none
  else
    match rest with
    | '\\' :: 'u' :: rest => do
      let (low, rest) ← readUnit rest
      if 0xDC00 ≤ low ∧ low < 0xE000 then
        return (Char.ofNat (0x10000 + (unit - 0xD800) * 0x400 + (low - 0xDC00)), rest)
      else none
    | _ => none

/-- What follows the backslash of an escape. -/
def readEscape : List Char → Option (Char × List Char)
  | [] => none
  | c :: rest =>
    match c with
    | '"' => some ('"', rest)
    | '\\' => some ('\\', rest)
    | '/' => some ('/', rest)
    | 'b' => some ('\x08', rest)
    | 'f' => some ('\x0c', rest)
    | 'n' => some ('\n', rest)
    | 'r' => some ('\r', rest)
    | 't' => some ('\t', rest)
    | 'u' => readCoded rest
    | _ => none

/-- The characters of a string up to its closing quote. -/
def readChars : Nat → List Char → Option (List Char × List Char)
  | 0, _ => none
  | _, [] => none
  | fuel + 1, c :: rest =>
    if c = '"' then some ([], rest)
    else if c = '\\' then do
      let (c, rest) ← readEscape rest
      let (cs, rest) ← readChars fuel rest
      return (c :: cs, rest)
    else if c.toNat < 0x20 then none
    else do
      let (cs, rest) ← readChars fuel rest
      return (c :: cs, rest)

/-- A string after its opening quote. -/
def readString (text : List Char) : Option (String × List Char) := do
  let (cs, rest) ← readChars text.length text
  return (String.ofList cs, rest)

/-- A number goes on as a number that is no integer. -/
def isFractional (c : Char) : Bool := c == '.' || c == 'e' || c == 'E'

/-- The digits of an integer, of which the first is zero only if it is alone. -/
def readDigits (text : List Char) : Option (Nat × List Char) :=
  let digits := text.takeWhile Char.isDigit
  let rest := text.dropWhile Char.isDigit
  if digits = [] ∨ (digits.head? = some '0' ∧ digits.length ≠ 1) ∨ rest.head?.any isFractional then
    none
  else some (Nat.ofDigitChars 10 digits 0, rest)

/-- An integer; minus zero is none. -/
def readInteger : List Char → Option (Int × List Char)
  | '-' :: text => do
    let (n, rest) ← readDigits text
    if n = 0 then none else return (-(n : Int), rest)
  | text => do
    let (n, rest) ← readDigits text
    return ((n : Int), rest)

/-- What follows a word. -/
def readWord (word text : List Char) : Option (List Char) :=
  if word.isPrefixOf text then some (text.drop word.length) else none

section
variable {V : Type} (b : Builder V)

mutual

def readValue : Nat → List Char → Option (V × List Char)
  | 0, _ => none
  | fuel + 1, text =>
    match skip text with
    | [] => none
    | c :: rest =>
      if c = '"' then do
        let (s, rest) ← readString rest
        return (b.string s, rest)
      else if c = '[' then
        match skip rest with
        | ']' :: rest => some (b.array [], rest)
        | rest => do
          let (items, rest) ← readItems fuel rest
          return (b.array items, rest)
      else if c = '{' then
        match skip rest with
        | '}' :: rest => some (b.object [], rest)
        | rest => do
          let (fields, rest) ← readFields fuel rest
          return (b.object fields, rest)
      else if c = 'n' then do
        let rest ← readWord ['u', 'l', 'l'] rest
        return (b.null, rest)
      else if c = 't' then do
        let rest ← readWord ['r', 'u', 'e'] rest
        return (b.bool true, rest)
      else if c = 'f' then do
        let rest ← readWord ['a', 'l', 's', 'e'] rest
        return (b.bool false, rest)
      else do
        let (n, rest) ← readInteger (c :: rest)
        let v ← b.integer n
        return (v, rest)

/-- The items of an array up to its closing bracket. -/
def readItems : Nat → List Char → Option (List V × List Char)
  | 0, _ => none
  | fuel + 1, text => do
    let (v, rest) ← readValue fuel text
    match skip rest with
    | ',' :: rest => do
      let (vs, rest) ← readItems fuel rest
      return (v :: vs, rest)
    | ']' :: rest => some ([v], rest)
    | _ => none

/-- The fields of an object up to its closing brace. -/
def readFields : Nat → List Char → Option (List (String × V) × List Char)
  | 0, _ => none
  | fuel + 1, text =>
    match skip text with
    | '"' :: rest => do
      let (key, rest) ← readString rest
      match skip rest with
      | ':' :: rest => do
        let (v, rest) ← readValue fuel rest
        match skip rest with
        | ',' :: rest => do
          let (fields, rest) ← readFields fuel rest
          return ((key, v) :: fields, rest)
        | '}' :: rest => some ([(key, v)], rest)
        | _ => none
      | _ => none
    | _ => none

end

/-- The value of a whole text. -/
def read (text : List Char) : Option V := do
  let (v, rest) ← readValue b text.length text
  if skip rest = [] then return v else none

end

/-! ## Integers -/

/-- Nothing that would go on with a number. -/
def Ends (rest : List Char) : Prop :=
  ∀ c ∈ rest.head?, c.isDigit = false ∧ isFractional c = false

theorem ends_nil : Ends [] := fun _ h => by cases h

variable {c : Char} {rest text : List Char} {escape : Char → List Char} {texts : List (List Char)}

theorem ends_cons (rest : List Char) (hdigit : c.isDigit = false)
    (hfractional : isFractional c = false) : Ends (c :: rest) := by
  rintro c' h
  cases h
  exact ⟨hdigit, hfractional⟩

theorem Ends.takeWhile (h : Ends rest) :
    rest.takeWhile Char.isDigit = [] ∧ rest.dropWhile Char.isDigit = rest := by
  cases rest with
  | nil => exact ⟨rfl, rfl⟩
  | cons c rest =>
    have hc : ¬ c.isDigit = true := by
      rw [(h c rfl).1]
      exact Bool.false_ne_true
    exact ⟨List.takeWhile_cons_of_neg hc, List.dropWhile_cons_of_neg hc⟩

theorem Ends.integral (h : Ends rest) : rest.head?.any isFractional = false := by
  cases rest with
  | nil => rfl
  | cons c rest => exact (h c rfl).2

theorem readDigits_toDigits (n : Nat) (hends : Ends rest) :
    readDigits (Nat.toDigits 10 n ++ rest) = some (n, rest) := by
  have hall := Decimal.isDigit_toDigits n
  have hzero : ¬ ((Nat.toDigits 10 n).head? = some '0' ∧ (Nat.toDigits 10 n).length ≠ 1) :=
    fun h => h.2 (Decimal.length_toDigits_of_head h.1)
  rw [readDigits, List.takeWhile_append_of_pos hall, List.dropWhile_append_of_pos hall,
    hends.takeWhile.1, hends.takeWhile.2, List.append_nil, hends.integral,
    if_neg (by simp only [Nat.toDigits_ne_nil, hzero, Bool.false_eq_true, or_self,
      not_false_eq_true]), Nat.ofDigitChars_ten_toDigits]

/-- The text of an integer is its own. -/
theorem readInteger_toString (n : Int) (hends : Ends rest) :
    readInteger ((toString n).toList ++ rest) = some (n, rest) := by
  rw [Int.toString_eq_repr, Int.repr_eq_if]
  split
  · rename_i hn
    have hdigits := readDigits_toDigits n.toNat hends
    rw [Nat.toList_repr]
    cases htext : Nat.toDigits 10 n.toNat with
    | nil => exact absurd htext Nat.toDigits_ne_nil
    | cons c text =>
      have hc : c.isDigit = true :=
        Nat.isDigit_of_mem_toDigits (by decide) (by decide) (htext ▸ List.mem_cons_self ..)
      rw [htext] at hdigits
      rw [List.cons_append, readInteger.eq_def]
      split
      · rename_i heq
        rw [(List.cons.inj heq).1] at hc
        exact absurd hc (by decide)
      · rw [← List.cons_append, hdigits, Option.bind_eq_bind, Option.bind_some]
        simp only [Int.toNat_of_nonneg hn]
        rfl
  · rw [String.toList_append, Nat.toList_repr, List.append_assoc]
    change (do let (m, rest) ← readDigits (Nat.toDigits 10 (-n).toNat ++ rest); _) = _
    rw [readDigits_toDigits _ hends, Option.bind_eq_bind, Option.bind_some]
    have hpos : (-n).toNat ≠ 0 := by omega
    have hneg : -((-n).toNat : Int) = n := by omega
    simp only [if_neg hpos, hneg]
    rfl

/-! ## Strings -/

/-- A part of a string that stands for a character. -/
def Spells (text : List Char) (c : Char) : Prop :=
  ∀ fuel rest, readChars (fuel + 1) (text ++ rest) =
    (readChars fuel rest).map fun p => (c :: p.1, p.2)

theorem spells_self (hquote : c ≠ '"') (hbackslash : c ≠ '\\') (hprints : ¬ c.toNat < 0x20) :
    Spells [c] c := by
  intro fuel rest
  rw [List.singleton_append, readChars, if_neg hquote, if_neg hbackslash, if_neg hprints]
  cases readChars fuel rest <;> rfl

/-- A character after a backslash. -/
theorem spells_escape (h : ∀ rest, readEscape (text ++ rest) = some (c, rest)) :
    Spells ('\\' :: text) c := by
  intro fuel rest
  rw [List.cons_append, readChars, if_neg (by decide), if_pos rfl, h, Option.bind_eq_bind,
    Option.bind_some]
  dsimp only
  cases readChars fuel rest <;> rfl

theorem spells_quote : Spells ['\\', '"'] '"' := spells_escape fun _ => rfl

theorem spells_backslash : Spells ['\\', '\\'] '\\' := spells_escape fun _ => rfl

theorem hexValue_digitChar : ∀ n < 16, hexValue (Nat.digitChar n) = some n := by
  decide

/-- A character below 256 by its code. -/
theorem spells_coded (h : c.toNat < 0x100) :
    Spells ['\\', 'u', '0', '0', Nat.digitChar (c.toNat / 16), Nat.digitChar (c.toNat % 16)] c := by
  refine spells_escape fun rest => ?_
  have hhigh := hexValue_digitChar (c.toNat / 16) (by omega)
  have hlow := hexValue_digitChar (c.toNat % 16) (Nat.mod_lt _ (by decide))
  have hzero : hexValue '0' = some 0 := rfl
  have hcode : ((0 * 16 + 0) * 16 + c.toNat / 16) * 16 + c.toNat % 16 = c.toNat := by omega
  change readCoded ('0' :: '0' :: Nat.digitChar (c.toNat / 16) ::
    Nat.digitChar (c.toNat % 16) :: rest) = _
  have hunit : readUnit ('0' :: '0' :: Nat.digitChar (c.toNat / 16) ::
      Nat.digitChar (c.toNat % 16) :: rest) = some (c.toNat, rest) := by
    simp only [readUnit, hhigh, hlow, hzero, Option.bind_eq_bind, Option.bind_some, hcode]
    rfl
  have hplain : c.toNat < 0xD800 ∨ 0xE000 ≤ c.toNat := Or.inl (by omega)
  rw [readCoded, hunit, Option.bind_eq_bind, Option.bind_some]
  simp only [if_pos hplain, Char.ofNat_toNat]
  rfl

theorem length_pos_of_spells (h : Spells text c) : 0 < text.length := by
  cases text with
  | nil =>
    -- an empty part would stand for one more quote
    have hempty := h 1 ['"']
    rw [List.nil_append, readChars, if_pos rfl, readChars, if_pos rfl] at hempty
    cases hempty
  | cons c text => exact Nat.succ_pos _

section
variable (hescape : ∀ c, Spells (escape c) c)
include hescape

/-- **A string is read back** from the text in which each character has a part that stands for
it. -/
theorem readChars_flatMap (cs rest : List Char) (fuel : Nat) (hfuel : cs.length < fuel) :
    readChars fuel (cs.flatMap escape ++ '"' :: rest) = some (cs, rest) := by
  induction cs generalizing fuel with
  | nil =>
    obtain ⟨fuel, rfl⟩ := Nat.exists_eq_add_of_lt hfuel
    rfl
  | cons c cs ih =>
    obtain ⟨fuel, rfl⟩ := Nat.exists_eq_add_one.mpr (Nat.zero_lt_of_lt hfuel)
    rw [List.flatMap_cons, List.append_assoc, hescape c,
      ih fuel (Nat.lt_of_succ_lt_succ hfuel), Option.map_some]

theorem length_le_flatMap (cs : List Char) : cs.length ≤ (cs.flatMap escape).length := by
  induction cs with
  | nil => exact Nat.le_refl _
  | cons c cs ih =>
    rw [List.flatMap_cons, List.length_append, List.length_cons, Nat.add_comm]
    exact Nat.add_le_add (length_pos_of_spells (hescape c)) ih

theorem readString_flatMap (s : String) (rest : List Char) :
    readString (s.toList.flatMap escape ++ '"' :: rest) = some (s, rest) := by
  rw [readString, readChars_flatMap hescape, Option.bind_eq_bind, Option.bind_some]
  · exact congrArg (fun s => some (s, rest)) (String.ofList_toList ..)
  · have hlength := length_le_flatMap hescape s.toList
    rw [List.length_append, List.length_cons]
    omega

end

/-! ## Values -/

section
variable {V : Type} {b : Builder V}

/-- Wherever the text occurs it is read as the value, if what follows does not go on with it. -/
structure Reads (b : Builder V) (text : List Char) (v : V) : Prop where
  /-- It is told from the end of an array. -/
  starts : ∃ c tail, text = c :: tail ∧ isSpace c = false ∧ c ≠ ']'
  reads : ∀ fuel rest, text.length ≤ fuel → Ends rest →
    readValue b fuel (text ++ rest) = some (v, rest)

theorem skip_cons (h : isSpace c = false) (rest : List Char) : skip (c :: rest) = c :: rest :=
  List.dropWhile_cons_of_neg (by rw [h]; exact Bool.false_ne_true)

/-- **Whole texts.** -/
theorem read_of_reads {v : V} (h : Reads b text v) : read b text = some v := by
  have hread := h.reads text.length [] (Nat.le_refl _) ends_nil
  rw [List.append_nil] at hread
  rw [read, hread]
  rfl

theorem reads_null : Reads b ['n', 'u', 'l', 'l'] b.null where
  starts := ⟨_, _, rfl, rfl, by decide⟩
  reads fuel rest hfuel _ := by
    obtain ⟨-, rfl⟩ := Nat.exists_eq_add_one.mpr (Nat.zero_lt_of_lt hfuel)
    rfl

theorem reads_true : Reads b ['t', 'r', 'u', 'e'] (b.bool true) where
  starts := ⟨_, _, rfl, rfl, by decide⟩
  reads fuel rest hfuel _ := by
    obtain ⟨-, rfl⟩ := Nat.exists_eq_add_one.mpr (Nat.zero_lt_of_lt hfuel)
    rfl

theorem reads_false : Reads b ['f', 'a', 'l', 's', 'e'] (b.bool false) where
  starts := ⟨_, _, rfl, rfl, by decide⟩
  reads fuel rest hfuel _ := by
    obtain ⟨-, rfl⟩ := Nat.exists_eq_add_one.mpr (Nat.zero_lt_of_lt hfuel)
    rfl

/-- A number starts with a sign or a digit. -/
theorem toString_starts (n : Int) :
    ∃ c tail, (toString n).toList = c :: tail ∧ (c = '-' ∨ c.isDigit = true) := by
  rw [Int.toString_eq_repr, Int.repr_eq_if]
  split
  · rw [Nat.toList_repr]
    cases htext : Nat.toDigits 10 n.toNat with
    | nil => exact absurd htext Nat.toDigits_ne_nil
    | cons c text =>
      exact ⟨c, text, rfl, Or.inr (Nat.isDigit_of_mem_toDigits (by decide) (by decide)
        (htext ▸ List.mem_cons_self ..))⟩
  · rw [String.toList_append]
    exact ⟨'-', _, rfl, Or.inl rfl⟩

theorem ne_of_digit {c d : Char} (hc : c = '-' ∨ c.isDigit = true) (hd : d.isDigit = false)
    (hsign : d ≠ '-') : c ≠ d := by
  rintro rfl
  rcases hc with hc | hc
  · exact hsign hc
  · rw [hd] at hc
    cases hc

theorem isSpace_eq_false (hspace : c ≠ ' ') (htab : c ≠ '\t') (hline : c ≠ '\n')
    (hreturn : c ≠ '\r') : isSpace c = false := by
  simp only [isSpace, beq_eq_false_iff_ne.mpr hspace, beq_eq_false_iff_ne.mpr htab,
    beq_eq_false_iff_ne.mpr hline, beq_eq_false_iff_ne.mpr hreturn, Bool.or_self]

theorem reads_integer {n : Int} {v : V} (h : b.integer n = some v) :
    Reads b (toString n).toList v := by
  obtain ⟨c, tail, htext, hc⟩ := toString_starts n
  have hne : ∀ d : Char, d.isDigit = false → d ≠ '-' → c ≠ d := fun d hd hsign =>
    ne_of_digit hc hd hsign
  have hspace : isSpace c = false := isSpace_eq_false (hne _ rfl (by decide))
    (hne _ rfl (by decide)) (hne _ rfl (by decide)) (hne _ rfl (by decide))
  refine ⟨⟨c, tail, htext, hspace, hne _ rfl (by decide)⟩, fun fuel rest hfuel hends => ?_⟩
  have hread := readInteger_toString n hends
  rw [htext] at hread hfuel ⊢
  obtain ⟨-, rfl⟩ := Nat.exists_eq_add_one.mpr (Nat.zero_lt_of_lt hfuel)
  rw [List.cons_append] at hread
  rw [List.cons_append, readValue, skip_cons hspace]
  simp only [if_neg (hne '"' rfl (by decide)), if_neg (hne '[' rfl (by decide)),
    if_neg (hne '{' rfl (by decide)), if_neg (hne 'n' rfl (by decide)),
    if_neg (hne 't' rfl (by decide)), if_neg (hne 'f' rfl (by decide)), hread,
    Option.bind_eq_bind, Option.bind_some, h]
  rfl

/-- The text of a string, by the parts of its characters. -/
def quoted (escape : Char → List Char) (s : String) : List Char :=
  '"' :: (s.toList.flatMap escape ++ ['"'])

theorem reads_string (hescape : ∀ c, Spells (escape c) c) (s : String) :
    Reads b (quoted escape s) (b.string s) := by
  refine ⟨⟨_, _, rfl, rfl, by decide⟩, fun fuel rest hfuel _ => ?_⟩
  obtain ⟨-, rfl⟩ := Nat.exists_eq_add_one.mpr (Nat.zero_lt_of_lt hfuel)
  rw [quoted, List.cons_append, List.append_assoc, List.singleton_append, readValue, skip_cons rfl]
  simp only [if_true, readString_flatMap hescape, Option.bind_eq_bind, Option.bind_some]
  rfl

/-! ### Arrays and objects -/

/-- Texts with commas between them. -/
def separated (texts : List (List Char)) : List Char := [','].intercalate texts

theorem separated_cons (text text' : List Char) (texts : List (List Char)) :
    separated (text :: text' :: texts) = text ++ ',' :: separated (text' :: texts) := by
  rw [separated, separated, List.intercalate_cons_cons, List.append_assoc, List.singleton_append]

theorem separated_starts {tail : List Char} (h : text = c :: tail) (texts : List (List Char)) :
    ∃ tail', separated (text :: texts) = c :: tail' := by
  subst h
  cases texts with
  | nil => exact ⟨tail, by rw [separated, List.intercalate_singleton]⟩
  | cons text texts => exact ⟨_, by rw [separated_cons, List.cons_append]⟩

theorem ends_comma (rest : List Char) : Ends (',' :: rest) := ends_cons rest rfl rfl

theorem ends_bracket (rest : List Char) : Ends (']' :: rest) := ends_cons rest rfl rfl

theorem ends_brace (rest : List Char) : Ends ('}' :: rest) := ends_cons rest rfl rfl

theorem readItems_separated {v : V} {vs : List V} (hv : Reads b text v)
    (hvs : List.Forall₂ (Reads b) texts vs) (fuel : Nat)
    (hfuel : (separated (text :: texts)).length < fuel) (rest : List Char) :
    readItems b fuel (separated (text :: texts) ++ ']' :: rest) = some (v :: vs, rest) := by
  induction hvs generalizing text v fuel with
  | nil =>
    obtain ⟨fuel, rfl⟩ := Nat.exists_eq_add_one.mpr (Nat.zero_lt_of_lt hfuel)
    rw [separated, List.intercalate_singleton] at hfuel ⊢
    rw [readItems, hv.reads fuel _ (Nat.le_of_lt_succ hfuel) (ends_bracket rest),
      Option.bind_eq_bind, Option.bind_some]
    rfl
  | cons hv' _ ih =>
    obtain ⟨fuel, rfl⟩ := Nat.exists_eq_add_one.mpr (Nat.zero_lt_of_lt hfuel)
    rw [separated_cons, List.length_append, List.length_cons] at hfuel
    rw [separated_cons, List.append_assoc, List.cons_append, readItems,
      hv.reads fuel _ (by omega) (ends_comma _), Option.bind_eq_bind, Option.bind_some]
    change (do let (vs, rest) ← readItems b fuel _; return (_ :: vs, rest)) = _
    rw [ih hv' fuel (by omega)]
    rfl

theorem reads_array {vs : List V} (h : List.Forall₂ (Reads b) texts vs) :
    Reads b ('[' :: (separated texts ++ [']'])) (b.array vs) := by
  refine ⟨⟨_, _, rfl, rfl, by decide⟩, fun fuel rest hfuel _ => ?_⟩
  obtain ⟨fuel, rfl⟩ := Nat.exists_eq_add_one.mpr (Nat.zero_lt_of_lt hfuel)
  cases h with
  | nil => rfl
  | @cons text v texts vs hv hvs =>
    obtain ⟨c, tail, htext, hspace, hbracket⟩ := hv.starts
    obtain ⟨tail', hstarts⟩ := separated_starts htext texts
    have hitems := readItems_separated hv hvs fuel (by
      rw [List.length_cons, List.length_append] at hfuel
      exact Nat.lt_of_succ_le (Nat.le_of_succ_le_succ hfuel)) rest
    rw [List.cons_append, List.append_assoc, List.singleton_append, readValue, skip_cons rfl]
    rw [hstarts] at hitems ⊢
    rw [List.cons_append] at hitems ⊢
    simp only [if_neg (show ¬ '[' = '"' by decide), if_true, skip_cons hspace]
    split
    · rename_i heq
      exact absurd (List.cons.inj heq).1 hbracket
    · rw [hitems]
      rfl

/-- The text is a key, a colon and a text of the value. -/
def ReadsField (b : Builder V) (escape : Char → List Char) (text : List Char)
    (field : String × V) : Prop :=
  ∃ value, text = quoted escape field.1 ++ ':' :: value ∧ Reads b value field.2

theorem readFields_separated (hescape : ∀ c, Spells (escape c) c) {field : String × V}
    {fields : List (String × V)} (hfield : ReadsField b escape text field)
    (hfields : List.Forall₂ (ReadsField b escape) texts fields) (fuel : Nat)
    (hfuel : (separated (text :: texts)).length < fuel) (rest : List Char) :
    readFields b fuel (separated (text :: texts) ++ '}' :: rest) =
      some (field :: fields, rest) := by
  induction hfields generalizing text field fuel with
  | nil =>
    obtain ⟨fuel, rfl⟩ := Nat.exists_eq_add_one.mpr (Nat.zero_lt_of_lt hfuel)
    obtain ⟨value, rfl, hvalue⟩ := hfield
    rw [separated, List.intercalate_singleton, List.length_append, List.length_cons] at hfuel
    rw [separated, List.intercalate_singleton, List.append_assoc, quoted, List.cons_append,
      List.append_assoc, List.singleton_append, readFields, skip_cons rfl]
    simp only [readString_flatMap hescape, Option.bind_eq_bind, Option.bind_some]
    rw [List.cons_append, skip_cons rfl]
    simp only [hvalue.reads fuel _ (by omega) (ends_brace rest), Option.bind_some]
    rfl
  | cons hfield' _ ih =>
    obtain ⟨fuel, rfl⟩ := Nat.exists_eq_add_one.mpr (Nat.zero_lt_of_lt hfuel)
    obtain ⟨value, rfl, hvalue⟩ := hfield
    have hrest := ih hfield' fuel (by
      rw [separated_cons, List.length_append, List.length_cons] at hfuel
      omega)
    rw [separated_cons, List.length_append, List.length_append, List.length_cons,
      List.length_cons] at hfuel
    rw [separated_cons, List.append_assoc, List.append_assoc, quoted, List.cons_append,
      List.append_assoc, List.singleton_append, readFields, skip_cons rfl]
    simp only [readString_flatMap hescape, Option.bind_eq_bind, Option.bind_some]
    rw [List.cons_append, skip_cons rfl, List.cons_append]
    simp only [hvalue.reads fuel _ (by omega) (ends_comma _), Option.bind_some]
    rw [skip_cons rfl]
    simp only [hrest, Option.bind_some]
    rfl

theorem reads_object (hescape : ∀ c, Spells (escape c) c) {fields : List (String × V)}
    (h : List.Forall₂ (ReadsField b escape) texts fields) :
    Reads b ('{' :: (separated texts ++ ['}'])) (b.object fields) := by
  refine ⟨⟨_, _, rfl, rfl, by decide⟩, fun fuel rest hfuel _ => ?_⟩
  obtain ⟨fuel, rfl⟩ := Nat.exists_eq_add_one.mpr (Nat.zero_lt_of_lt hfuel)
  cases h with
  | nil => rfl
  | @cons text field texts fields hfield hfields =>
    have hfields := readFields_separated hescape hfield hfields fuel (by
      rw [List.length_cons, List.length_append] at hfuel
      exact Nat.lt_of_succ_le (Nat.le_of_succ_le_succ hfuel)) rest
    obtain ⟨value, htext, -⟩ := hfield
    obtain ⟨tail', hstarts⟩ := separated_starts (htext.trans (List.cons_append ..)) texts
    rw [List.cons_append, List.append_assoc, List.singleton_append, readValue, skip_cons rfl]
    rw [hstarts] at hfields ⊢
    rw [List.cons_append] at hfields ⊢
    change (do let (fields, rest) ← readFields b fuel _; return (b.object fields, rest)) = _
    rw [hfields]
    rfl

end

end JsonText
