import Mathlib.Data.String.Basic
import MagicContext.Word

/-!
# Text, as the source's standard library reads it

The few operations on strings the program relies on.  They work on the characters of a string;
where the source slices by byte offset, the offsets it uses always fall between characters.
-/

namespace MagicContext.Text

/-- The Unicode `White_Space` property, which `str::trim` removes. -/
def isWhitespace (c : Char) : Bool :=
  let n := c.toNat
  (9 ≤ n && n ≤ 13) || n == 0x20 || n == 0x85 || n == 0xA0 || n == 0x1680 ||
    (0x2000 ≤ n && n ≤ 0x200A) || n == 0x2028 || n == 0x2029 || n == 0x202F || n == 0x205F ||
    n == 0x3000

/-- `str::trim`, on characters. -/
def trim (s : List Char) : List Char :=
  ((s.dropWhile isWhitespace).reverse.dropWhile isWhitespace).reverse

/-- `value.trim().is_empty()`: the text has no character but white space. -/
def isBlank (s : String) : Bool := (trim s.toList).isEmpty

/-- `u8::is_ascii_digit`. -/
def isAsciiDigit (c : Char) : Bool := '0' ≤ c && c ≤ '9'

/-- `char::is_ascii_alphanumeric`. -/
def isAsciiAlphanumeric (c : Char) : Bool :=
  isAsciiDigit c || ('a' ≤ c && c ≤ 'z') || ('A' ≤ c && c ≤ 'Z')

/-- `str::split_once`: what stands before and after the first `c`. -/
def splitOnce (c : Char) (s : List Char) : Option (List Char × List Char) :=
  match s.span (· != c) with
  | (_, []) => none
  | (before, _ :: after) => some (before, after)

/-- `str::rsplit_once`: what stands before and after the last `c`. -/
def rsplitOnce (c : Char) (s : List Char) : Option (List Char × List Char) :=
  (splitOnce c s.reverse).map fun p => (p.2.reverse, p.1.reverse)

/-- `str::contains`: `needle` stands somewhere in the text. -/
def containsText (needle s : List Char) : Bool :=
  match s with
  | [] => needle.isEmpty
  | c :: rest => needle.isPrefixOf (c :: rest) || containsText needle rest

/-- `str::find` of a text, with what stands before it. -/
def beforeText (needle : List Char) : List Char → Option (List Char)
  | [] => if needle.isEmpty then some [] else none
  | c :: rest =>
    if needle.isPrefixOf (c :: rest) then some []
    else (beforeText needle rest).map (c :: ·)

/-- `str::replace`, from the left; `skip` characters belong to the last match. -/
def replaceFrom (needle replacement : List Char) : Nat → List Char → List Char
  | _, [] => []
  | skip + 1, _ :: rest => replaceFrom needle replacement skip rest
  | 0, c :: rest =>
    if needle.isPrefixOf (c :: rest) then
      replacement ++ replaceFrom needle replacement (needle.length - 1) rest
    else c :: replaceFrom needle replacement 0 rest

/-- `str::replace` of a text that is not empty. -/
def replaceText (needle replacement s : String) : String :=
  String.ofList (replaceFrom needle.toList replacement.toList 0 s.toList)

/-- `str::trim`. -/
def trimText (s : String) : String := String.ofList (trim s.toList)

/-- The value of a string of decimal digits. -/
def digitsValue (s : List Char) : Nat :=
  s.foldl (fun acc c => 10 * acc + (c.toNat - '0'.toNat)) 0

/-- `str::parse::<u64>`: an optional `+`, then one or more digits, within range. -/
def parseU64 (s : List Char) : Option Nat :=
  let digits := match s with
    | '+' :: rest => rest
    | _ => s
  if digits.isEmpty || !digits.all isAsciiDigit then none
  else if digitsValue digits < Word.u64Limit then some (digitsValue digits) else none

theorem parseU64_lt {s : List Char} {n : Nat} (h : parseU64 s = some n) : n < Word.u64Limit := by
  have key : ∀ digits : List Char,
      (if digits.isEmpty || !digits.all isAsciiDigit then none
        else if digitsValue digits < Word.u64Limit then some (digitsValue digits) else none) =
          some n → n < Word.u64Limit := by
    intro digits hdigits
    split at hdigits
    · cases hdigits
    · split at hdigits
      · rename_i hlt
        cases hdigits
        exact hlt
      · cases hdigits
  exact key _ h

/-- `is_lower_hex_oid`: forty or sixty-four lower-case hexadecimal digits. -/
def isLowerHexOid (value : String) : Bool :=
  (value.utf8ByteSize == 40 || value.utf8ByteSize == 64) &&
    value.toList.all (fun c => isAsciiDigit c || ('a' ≤ c && c ≤ 'f'))

example : parseU64 "0012".toList = some 12 := by decide

/-- The characters after the last colon. -/
theorem takeWhile_ne_colon (n : Nat) (l : List Char) :
    ((l ++ ':' :: Nat.toDigits 10 n).reverse.takeWhile (· != ':')).reverse = Nat.toDigits 10 n := by
  have hdigits : ∀ c ∈ (Nat.toDigits 10 n).reverse, (c != ':') = true := by
    intro c hc
    have hdigit := Nat.isDigit_of_mem_toDigits (by decide) (by decide) (List.mem_reverse.mp hc)
    refine bne_iff_ne.mpr fun hcolon => ?_
    rw [hcolon] at hdigit
    exact absurd hdigit (by decide)
  rw [List.reverse_append, List.reverse_cons, List.append_assoc,
    List.takeWhile_append_of_pos hdigits, List.singleton_append,
    List.takeWhile_cons_of_neg (by decide), List.append_nil, List.reverse_reverse]

/-- The decimal digits of a number determine it. -/
theorem toDigits_inj {n m : Nat} (h : Nat.toDigits 10 n = Nat.toDigits 10 m) : n = m := by
  rw [← @Nat.ofDigitChars_ten_toDigits n, h, Nat.ofDigitChars_ten_toDigits]

/-- The number after the last colon can be read off. -/
theorem number_after_colon {l l' : List Char} {n m : Nat}
    (h : l ++ ':' :: Nat.toDigits 10 n = l' ++ ':' :: Nat.toDigits 10 m) : n = m :=
  toDigits_inj (by rw [← takeWhile_ne_colon n l, h, takeWhile_ne_colon m l'])

theorem toString_nat_inj {n m : Nat} (h : toString n = toString m) : n = m := by
  rw [Nat.toString_eq_ofList_toDigits, Nat.toString_eq_ofList_toDigits] at h
  exact toDigits_inj (String.ofList_injective h)

theorem toString_after_colon {lead lead' : String} {n m : Nat}
    (h : lead ++ ":" ++ toString n = lead' ++ ":" ++ toString m) : n = m := by
  have hdigits : ∀ (lead : String) (k : Nat),
      (lead ++ ":" ++ toString k).toList = lead.toList ++ ':' :: Nat.toDigits 10 k := by
    intro lead k
    have hcolon : ":".toList = [':'] := rfl
    rw [String.toList_append, String.toList_append, List.append_assoc, hcolon,
      Nat.toString_eq_ofList_toDigits, String.toList_ofList]
    rfl
  have htext := congrArg String.toList h
  rw [hdigits, hdigits] at htext
  exact number_after_colon htext

end MagicContext.Text
