import Mathlib.Data.ENat.Basic
import MagicContext.Claims.Contract
import MagicContext.Lib.JsonText

/-!
# Canonical texts

The digests of claim operations are taken over canonical texts, so a text must say which value it
is the text of, up to the order of fields and to how a whole number is represented.

## What is here

* `Value` — a value none of whose objects has a key twice.
* `Same` — equality up to the order of fields and the representation of whole numbers.
* `readJson` — the values of JSON texts, and how deep the texts are nested; `Conforms` is what is
  asked of a parser.
* `encode_eq_of_same`, `same_normalized` and `reads_normalized` — what the text depends on, and
  what is read from it.
* **`canonical_faithful`** — a value has a canonical text when its numbers are safe, and the text is
  faithful to it.
-/

namespace MagicContext.Claims

namespace Json

/-! ## Values -/

mutual

/-- The numbers of a value, at any depth. -/
def numbers : Json → List JsonNumber
  | .number value => [value]
  | .array items => numbersOfItems items
  | .object entries => numbersOfEntries entries
  | _ => []

def numbersOfItems : List Json → List JsonNumber
  | [] => []
  | item :: items => numbers item ++ numbersOfItems items

def numbersOfEntries : List (String × Json) → List JsonNumber
  | [] => []
  | (_, item) :: entries => numbers item ++ numbersOfEntries entries

end

mutual

/-- How deep arrays and objects are nested. -/
def depth : Json → Nat
  | .array items => depthOfItems items + 1
  | .object entries => depthOfEntries entries + 1
  | _ => 0

def depthOfItems : List Json → Nat
  | [] => 0
  | item :: items => max (depth item) (depthOfItems items)

def depthOfEntries : List (String × Json) → Nat
  | [] => 0
  | (_, item) :: entries => max (depth item) (depthOfEntries entries)

end

mutual

/-- No object has a key twice. -/
def Distinct : Json → Prop
  | .array items => DistinctItems items
  | .object entries => (entries.map Prod.fst).Nodup ∧ DistinctEntries entries
  | _ => True

def DistinctItems : List Json → Prop
  | [] => True
  | item :: items => Distinct item ∧ DistinctItems items

def DistinctEntries : List (String × Json) → Prop
  | [] => True
  | (_, item) :: entries => Distinct item ∧ DistinctEntries entries

end

/-- A whole number as an integer. -/
def normalizedNumber (value : JsonNumber) : JsonNumber :=
  match numberAsSafeInteger value with
  | some integer => .integer integer
  | none => value

mutual

/-- The value with its fields in the order of their keys and its whole numbers as integers. -/
def normalized : Json → Json
  | .number value => .number (normalizedNumber value)
  | .array items => .array (normalizedItems items)
  | .object entries => .object (SortedMap.ofList (normalizedEntries entries)).entries
  | value => value

def normalizedItems : List Json → List Json
  | [] => []
  | item :: items => normalized item :: normalizedItems items

def normalizedEntries : List (String × Json) → List (String × Json)
  | [] => []
  | (key, item) :: entries => (key, normalized item) :: normalizedEntries entries

end

end Json

/-- A value that objects with one value for each key can hold. -/
structure Value where
  json : Json
  distinct : json.Distinct

/-- The number is an integer that every runtime represents, in either representation. -/
def JsonNumber.IsSafe (number : JsonNumber) : Prop :=
  ∃ integer : Int, isSafe integer = true ∧ (number = .integer integer ∨ number = .float integer)

/-- Equality up to the order of fields and the representation of whole numbers, at any depth. -/
inductive Same : Json → Json → Prop
  | refl (value : Json) : Same value value
  | symm {value value' : Json} (h : Same value value') : Same value' value
  | trans {value value' value'' : Json} (h : Same value value') (h' : Same value' value'') :
    Same value value''
  | whole {integer : Int} (h : isSafe integer = true) :
    Same (.number (.float integer)) (.number (.integer integer))
  | order {entries entries' : List (String × Json)} (h : entries.Perm entries')
    (distinct : (entries.map Prod.fst).Nodup) : Same (.object entries) (.object entries')
  | item {value value' : Json} (before after : List Json) (h : Same value value') :
    Same (.array (before ++ value :: after)) (.array (before ++ value' :: after))
  | field {value value' : Json} (before after : List (String × Json)) (key : String)
    (h : Same value value') :
    Same (.object (before ++ (key, value) :: after)) (.object (before ++ (key, value') :: after))

namespace Json

/-! ### The values inside a value -/

section
variable {motive : Json → Prop} (null : motive .null) (bool : ∀ b, motive (.bool b))
  (number : ∀ n, motive (.number n)) (string : ∀ s, motive (.string s))
  (array : ∀ items, (∀ item ∈ items, motive item) → motive (.array items))
  (object : ∀ entries : List (String × Json), (∀ entry ∈ entries, motive entry.2) →
    motive (.object entries))
include null bool number string array object

set_option linter.unusedSectionVars false

mutual

theorem induct : ∀ value, motive value
  | .null => null
  | .bool b => bool b
  | .number n => number n
  | .string s => string s
  | .array items => array items (inductItems items)
  | .object entries => object entries (inductEntries entries)

theorem inductItems : ∀ items : List Json, ∀ item ∈ items, motive item
  | [] => List.forall_mem_nil _
  | item :: items => List.forall_mem_cons.mpr ⟨induct item, inductItems items⟩

theorem inductEntries : ∀ entries : List (String × Json), ∀ entry ∈ entries, motive entry.2
  | [] => List.forall_mem_nil _
  | (_, item) :: entries => List.forall_mem_cons.mpr ⟨induct item, inductEntries entries⟩

end

end

theorem mem_numbersOfItems {n : JsonNumber} {items : List Json} :
    n ∈ numbersOfItems items ↔ ∃ item ∈ items, n ∈ item.numbers := by
  induction items with
  | nil => simp [numbersOfItems]
  | cons item items ih => simp [numbersOfItems, ih]

theorem mem_numbersOfEntries {n : JsonNumber} {entries : List (String × Json)} :
    n ∈ numbersOfEntries entries ↔ ∃ entry ∈ entries, n ∈ entry.2.numbers := by
  induction entries with
  | nil => simp [numbersOfEntries]
  | cons entry entries ih => simp [numbersOfEntries, ih]

theorem distinctItems_iff {items : List Json} :
    DistinctItems items ↔ ∀ item ∈ items, item.Distinct := by
  induction items with
  | nil => simp [DistinctItems]
  | cons item items ih => rw [DistinctItems, ih, List.forall_mem_cons]

theorem distinctEntries_iff {entries : List (String × Json)} :
    DistinctEntries entries ↔ ∀ entry ∈ entries, entry.2.Distinct := by
  induction entries with
  | nil => simp [DistinctEntries]
  | cons entry entries ih => rw [DistinctEntries, ih, List.forall_mem_cons]

theorem normalizedItems_eq (items : List Json) : normalizedItems items = items.map normalized := by
  induction items with
  | nil => rfl
  | cons item items ih => rw [normalizedItems, ih, List.map_cons]

theorem normalizedEntries_eq (entries : List (String × Json)) :
    normalizedEntries entries = entries.map fun entry => (entry.1, normalized entry.2) := by
  induction entries with
  | nil => rfl
  | cons entry entries ih => rw [normalizedEntries, ih, List.map_cons]

end Json

/-! ## The encoder -/

theorem encodeCanonicalItems_eq (items : List Json) :
    encodeCanonicalItems items = items.map encodeCanonicalValue := by
  induction items with
  | nil => rfl
  | cons item items ih => rw [encodeCanonicalItems, ih, List.map_cons]

theorem encodeCanonicalEntries_eq (entries : List (String × Json)) :
    encodeCanonicalEntries entries =
      entries.map fun entry => (entry.1, encodeCanonicalValue entry.2) := by
  induction entries with
  | nil => rfl
  | cons entry entries ih => rw [encodeCanonicalEntries, ih, List.map_cons]

theorem isSafe_iff {value : Int} :
    isSafe value = true ↔ -maxSafeInteger ≤ value ∧ value ≤ maxSafeInteger := by
  rw [isSafe, Bool.and_eq_true, decide_eq_true_iff, decide_eq_true_iff]

theorem numberAsSafeInteger_integer (value : Int) :
    numberAsSafeInteger (.integer value) = if isSafe value then some value else none := by
  rw [numberAsSafeInteger, JsonNumber.asI64]
  by_cases hsigned : -2 ^ 63 ≤ value ∧ value < 2 ^ 63
  · rw [if_pos hsigned]
  · have hunsafe : ¬ isSafe value = true := by
      rw [isSafe_iff, maxSafeInteger]
      omega
    rw [if_neg hsigned, if_neg hunsafe, JsonNumber.asU64]
    dsimp only
    split
    · rename_i integer hinteger
      split at hinteger
      · -- too large for a signed integer
        cases hinteger
        exact if_neg (by rw [maxSafeInteger]; omega)
      · cases hinteger
    · rfl

theorem numberAsSafeInteger_float (value : Rat) :
    numberAsSafeInteger (.float value) =
      if value.den = 1 ∧ isSafe value.num then some value.num else none := rfl

/-- The encoder's integer of a number is its value. -/
theorem numberAsSafeInteger_eq_some {number : JsonNumber} {integer : Int} :
    numberAsSafeInteger number = some integer ↔
      isSafe integer = true ∧ (number = .integer integer ∨ number = .float integer) := by
  cases number with
  | integer value =>
    rw [numberAsSafeInteger_integer]
    constructor
    · intro h
      split at h
      · rename_i hsafe
        cases h
        exact ⟨hsafe, Or.inl rfl⟩
      · cases h
    · rintro ⟨hsafe, heq | heq⟩
      · cases heq
        exact if_pos hsafe
      · cases heq
  | float value =>
    rw [numberAsSafeInteger_float]
    constructor
    · intro h
      split at h
      · rename_i hwhole
        cases h
        exact ⟨hwhole.2, Or.inr (congrArg JsonNumber.float (Rat.coe_int_num_of_den_eq_one hwhole.1).symm)⟩
      · cases h
    · rintro ⟨hsafe, heq | heq⟩
      · cases heq
      · cases heq
        exact if_pos ⟨Rat.den_intCast .., hsafe⟩

theorem isSafe_iff_numberAsSafeInteger {number : JsonNumber} :
    number.IsSafe ↔ (numberAsSafeInteger number).isSome = true := by
  rw [Option.isSome_iff_exists]
  exact exists_congr fun _ => numberAsSafeInteger_eq_some.symm

theorem encodeCanonicalValue_array {items : List Json} {text : String} :
    encodeCanonicalValue (.array items) = .ok text ↔
      ∃ texts, List.Forall₂ (fun item text => encodeCanonicalValue item = .ok text) items texts ∧
        "[" ++ ",".intercalate texts ++ "]" = text := by
  rw [encodeCanonicalValue, encodeCanonicalItems_eq, Checks.bind_eq_ok]
  simp only [Checks.mapM_eq_ok, List.forall₂_map_left_iff, id_eq, Checks.pure_eq_ok]

/-- The text of a field. -/
def fieldText (key text : String) : String := encodeCanonicalString key ++ ":" ++ text

variable {entries : List (String × Json)}

theorem encodeCanonicalValue_object {text : String} :
    encodeCanonicalValue (.object entries) = .ok text ↔
      ∃ texts, List.Forall₂ (fun entry text => ∃ t, encodeCanonicalValue entry.2 = .ok t ∧
          fieldText entry.1 t = text) (SortedMap.ofList entries).entries texts ∧
        "\x7b" ++ ",".intercalate texts ++ "\x7d" = text := by
  rw [encodeCanonicalValue, encodeCanonicalEntries_eq,
    SortedMap.ofList_map encodeCanonicalValue, Checks.bind_eq_ok]
  have hfield : ∀ (m : Except ContractError String) (key text : String),
      (m.map fun t => encodeCanonicalString key ++ ":" ++ t) = .ok text ↔
        ∃ t, m = .ok t ∧ fieldText key t = text := by
    intro m key text
    cases m with
    | error e => simp [Except.map]
    | ok t => simp [Except.map, fieldText]
  simp only [SortedMap.map, Checks.mapM_eq_ok, List.forall₂_map_left_iff, hfield, Checks.pure_eq_ok]

theorem exists_forall₂_iff {α β : Type} {r : α → β → Prop} {l : List α} :
    (∃ ys, List.Forall₂ r l ys) ↔ ∀ x ∈ l, ∃ y, r x y := by
  induction l with
  | nil => exact iff_of_true ⟨[], .nil⟩ (List.forall_mem_nil _)
  | cons x l ih =>
    rw [List.forall_mem_cons, ← ih]
    constructor
    · rintro ⟨_, h⟩
      cases h with
      | cons hx hl => exact ⟨⟨_, hx⟩, ⟨_, hl⟩⟩
    · rintro ⟨⟨y, hy⟩, ys, hys⟩
      exact ⟨y :: ys, .cons hy hys⟩

/-- **A value has a canonical text** when its numbers are safe. -/
theorem exists_text_iff {value : Json} (hdistinct : value.Distinct) :
    (∃ text, encodeCanonicalValue value = .ok text) ↔ ∀ n ∈ value.numbers, n.IsSafe := by
  induction value using Json.induct with
  | null | bool | string => exact iff_of_true ⟨_, rfl⟩ (List.forall_mem_nil _)
  | number n =>
    rw [Json.numbers, List.forall_mem_singleton, isSafe_iff_numberAsSafeInteger,
      encodeCanonicalValue]
    cases numberAsSafeInteger n with
    | none => simp
    | some integer => simp
  | array items ih =>
    have hitems : ∀ item ∈ items, (∃ text, encodeCanonicalValue item = .ok text) ↔
        ∀ n ∈ item.numbers, n.IsSafe := fun item hitem =>
      ih item hitem (Json.distinctItems_iff.mp hdistinct item hitem)
    have htexts : (∃ text, encodeCanonicalValue (.array items) = .ok text) ↔
        ∀ item ∈ items, ∃ text, encodeCanonicalValue item = .ok text := by
      simp only [encodeCanonicalValue_array, ← exists_forall₂_iff]
      exact ⟨fun ⟨_, texts, h, _⟩ => ⟨texts, h⟩, fun ⟨texts, h⟩ => ⟨_, texts, h, rfl⟩⟩
    rw [htexts, Json.numbers]
    simp only [Json.mem_numbersOfItems]
    exact ⟨fun h n ⟨item, hitem, hn⟩ => (hitems item hitem).mp (h item hitem) n hn,
      fun h item hitem => (hitems item hitem).mpr fun n hn => h n ⟨item, hitem, hn⟩⟩
  | object entries ih =>
    obtain ⟨hkeys, hvalues⟩ := hdistinct
    have hentries : ∀ entry ∈ entries, (∃ text, encodeCanonicalValue entry.2 = .ok text) ↔
        ∀ n ∈ entry.2.numbers, n.IsSafe := fun entry hentry =>
      ih entry hentry (Json.distinctEntries_iff.mp hvalues entry hentry)
    have htexts : (∃ text, encodeCanonicalValue (.object entries) = .ok text) ↔
        ∀ entry ∈ entries, ∃ text, encodeCanonicalValue entry.2 = .ok text := by
      simp only [encodeCanonicalValue_object]
      have hsorted : ∀ entry, entry ∈ (SortedMap.ofList entries).entries ↔ entry ∈ entries :=
        fun entry => (SortedMap.entries_ofList hkeys).mem_iff
      constructor
      · rintro ⟨_, texts, h, _⟩ entry hentry
        obtain ⟨_, t, ht, _⟩ := exists_forall₂_iff.mp ⟨texts, h⟩ entry ((hsorted entry).mpr hentry)
        exact ⟨t, ht⟩
      · intro h
        have hfields : ∀ entry ∈ (SortedMap.ofList entries).entries,
            ∃ text t, encodeCanonicalValue entry.2 = .ok t ∧ fieldText entry.1 t = text := by
          intro entry hentry
          obtain ⟨t, ht⟩ := h entry ((hsorted entry).mp hentry)
          exact ⟨fieldText entry.1 t, t, ht, rfl⟩
        obtain ⟨texts, htexts⟩ := exists_forall₂_iff.mpr hfields
        exact ⟨_, texts, htexts, rfl⟩
    rw [htexts, Json.numbers]
    simp only [Json.mem_numbersOfEntries]
    exact ⟨fun h n ⟨entry, hentry, hn⟩ => (hentries entry hentry).mp (h entry hentry) n hn,
      fun h entry hentry => (hentries entry hentry).mpr fun n hn => h n ⟨entry, hentry, hn⟩⟩

/-! ## What a text depends on -/

/-- **The text does not depend** on the order of fields, nor on how a whole number is
represented. -/
theorem encode_eq_of_same {value value' : Json} (h : Same value value') :
    encodeCanonicalValue value = encodeCanonicalValue value' := by
  induction h with
  | refl => rfl
  | symm _ ih => exact ih.symm
  | trans _ _ ih ih' => exact ih.trans ih'
  | whole hsafe =>
    rw [encodeCanonicalValue, encodeCanonicalValue,
      numberAsSafeInteger_eq_some.mpr ⟨hsafe, Or.inl rfl⟩,
      numberAsSafeInteger_eq_some.mpr ⟨hsafe, Or.inr rfl⟩]
  | order hperm hdistinct =>
    rw [encodeCanonicalValue, encodeCanonicalValue, encodeCanonicalEntries_eq,
      encodeCanonicalEntries_eq, SortedMap.ofList_map encodeCanonicalValue,
      SortedMap.ofList_map encodeCanonicalValue, SortedMap.ofList_perm hdistinct hperm]
  | item before after _ ih =>
    rw [encodeCanonicalValue, encodeCanonicalValue, encodeCanonicalItems_eq,
      encodeCanonicalItems_eq, List.map_append, List.map_append, List.map_cons, List.map_cons, ih]
  | field before after key _ ih =>
    rw [encodeCanonicalValue, encodeCanonicalValue, encodeCanonicalEntries_eq,
      encodeCanonicalEntries_eq, List.map_append, List.map_append, List.map_cons, List.map_cons, ih]

theorem Same.items {f : Json → Json} {items : List Json} (h : ∀ item ∈ items, Same item (f item))
    (before : List Json) : Same (.array (before ++ items)) (.array (before ++ items.map f)) := by
  induction items generalizing before with
  | nil => exact .refl _
  | cons item items ih =>
    obtain ⟨hitem, hitems⟩ := List.forall_mem_cons.mp h
    have hrest := ih hitems (before ++ [f item])
    rw [List.append_assoc, List.append_assoc, List.singleton_append, List.singleton_append] at hrest
    exact (hitem.item before items).trans hrest

theorem Same.fields {f : Json → Json}
    (h : ∀ entry ∈ entries, Same entry.2 (f entry.2)) (before : List (String × Json)) :
    Same (.object (before ++ entries))
      (.object (before ++ entries.map fun entry => (entry.1, f entry.2))) := by
  induction entries generalizing before with
  | nil => exact .refl _
  | cons entry entries ih =>
    obtain ⟨hentry, hentries⟩ := List.forall_mem_cons.mp h
    have hrest := ih hentries (before ++ [(entry.1, f entry.2)])
    rw [List.append_assoc, List.append_assoc, List.singleton_append, List.singleton_append] at hrest
    exact (hentry.field before entries entry.1).trans hrest

theorem same_normalizedNumber (n : JsonNumber) :
    Same (.number n) (.number (Json.normalizedNumber n)) := by
  rw [Json.normalizedNumber]
  split
  · rename_i integer hinteger
    obtain ⟨hsafe, rfl | rfl⟩ := numberAsSafeInteger_eq_some.mp hinteger
    · exact .refl _
    · exact .whole hsafe
  · exact .refl _

theorem same_normalized {value : Json} (hdistinct : value.Distinct) :
    Same value value.normalized := by
  induction value using Json.induct with
  | null | bool | string => exact .refl _
  | number n => exact same_normalizedNumber n
  | array items ih =>
    rw [Json.normalized, Json.normalizedItems_eq]
    exact Same.items (fun item hitem =>
      ih item hitem (Json.distinctItems_iff.mp hdistinct item hitem)) []
  | object entries ih =>
    obtain ⟨hkeys, hvalues⟩ := hdistinct
    have hfields := Same.fields (fun entry hentry =>
      ih entry hentry (Json.distinctEntries_iff.mp hvalues entry hentry)) []
    rw [List.nil_append, List.nil_append, ← Json.normalizedEntries_eq] at hfields
    have hkeys' : ((Json.normalizedEntries entries).map Prod.fst).Nodup := by
      rw [Json.normalizedEntries_eq, List.map_map]
      exact hkeys
    exact hfields.trans (.order (SortedMap.entries_ofList hkeys').symm hkeys')

/-! ## What is read from a text -/

/-- Values are built with one value for each key, the last one, and with integers of sixty-four
bits.  What is nested in the text counts, under a key that comes again as well. -/
def jsonBuilder : JsonText.Builder (Json × Nat) where
  null := (.null, 0)
  bool b := (.bool b, 0)
  integer n := if -2 ^ 63 ≤ n ∧ n < 2 ^ 64 then some (.number (.integer n), 0) else none
  string s := (.string s, 0)
  array items := (.array (items.map Prod.fst), (items.map Prod.snd).foldr max 0 + 1)
  object fields :=
    (.object (SortedMap.ofList (fields.map fun field => (field.1, field.2.1))).entries,
      (fields.map fun field => field.2.2).foldr max 0 + 1)

/-- The value of a text, and how deep arrays and objects are nested in the text. -/
def readJson (text : String) : Option (Json × Nat) := JsonText.read jsonBuilder text.toList

theorem spells_encodeCanonicalChar (c : Char) : JsonText.Spells (encodeCanonicalChar c) c := by
  rw [encodeCanonicalChar]
  split
  · rename_i hquote
    subst hquote
    exact JsonText.spells_quote
  · rename_i hquote
    split
    · rename_i hbackslash
      subst hbackslash
      exact JsonText.spells_backslash
    · rename_i hbackslash
      split
      · exact JsonText.spells_coded (by omega)
      · rename_i hprints
        exact JsonText.spells_self hquote hbackslash hprints

theorem toList_encodeCanonicalString (s : String) :
    (encodeCanonicalString s).toList = JsonText.quoted encodeCanonicalChar s := by
  rw [encodeCanonicalString, String.toList_ofList]
  rfl

theorem toList_separated (texts : List String) :
    (",".intercalate texts).toList = JsonText.separated (texts.map String.toList) := by
  rw [String.toList_intercalate]
  rfl

theorem depthOfItems_eq (items : List Json) :
    Json.depthOfItems items = (items.map Json.depth).foldr max 0 := by
  induction items with
  | nil => rfl
  | cons item items ih => rw [Json.depthOfItems, ih, List.map_cons, List.foldr_cons]

theorem depthOfEntries_eq (entries : List (String × Json)) :
    Json.depthOfEntries entries = (entries.map fun entry => entry.2.depth).foldr max 0 := by
  induction entries with
  | nil => rfl
  | cons entry entries ih => rw [Json.depthOfEntries, ih, List.map_cons, List.foldr_cons]

/-- **A canonical text is read** as the normalized value, and is nested as deep as the value. -/
theorem reads_normalized {value : Json} (hdistinct : value.Distinct) {text : String}
    (h : encodeCanonicalValue value = .ok text) :
    JsonText.Reads jsonBuilder text.toList (value.normalized, value.depth) := by
  induction value using Json.induct generalizing text with
  | null =>
    cases h
    exact JsonText.reads_null
  | bool b =>
    cases h
    cases b with
    | true => exact JsonText.reads_true
    | false => exact JsonText.reads_false
  | string s =>
    cases h
    rw [toList_encodeCanonicalString]
    exact JsonText.reads_string spells_encodeCanonicalChar s
  | number n =>
    rw [encodeCanonicalValue] at h
    rw [Json.normalized, Json.normalizedNumber]
    cases hinteger : numberAsSafeInteger n with
    | none =>
      rw [hinteger] at h
      cases h
    | some integer =>
      rw [hinteger] at h
      cases h
      have hsafe := isSafe_iff.mp (numberAsSafeInteger_eq_some.mp hinteger).1
      rw [maxSafeInteger] at hsafe
      exact JsonText.reads_integer (if_pos (by omega))
  | array items ih =>
    obtain ⟨texts, htexts, rfl⟩ := encodeCanonicalValue_array.mp h
    have harray : ((Json.array items).normalized, (Json.array items).depth) =
        jsonBuilder.array (items.map fun item => (item.normalized, item.depth)) := by
      rw [Json.normalized, Json.normalizedItems_eq, Json.depth, depthOfItems_eq]
      simp only [jsonBuilder, List.map_map, Function.comp_def]
    rw [harray, String.toList_append, String.toList_append, toList_separated]
    refine JsonText.reads_array ?_
    rw [List.forall₂_map_left_iff, List.forall₂_map_right_iff]
    exact ((List.forall₂_and_left _ _).mpr ⟨fun item hitem => hitem, htexts⟩).flip.imp
      fun text item ⟨hitem, htext⟩ =>
        ih item hitem (Json.distinctItems_iff.mp hdistinct item hitem) htext
  | object entries ih =>
    obtain ⟨hkeys, hvalues⟩ := hdistinct
    obtain ⟨texts, htexts, rfl⟩ := encodeCanonicalValue_object.mp h
    have hobject : ((Json.object entries).normalized, (Json.object entries).depth) =
        jsonBuilder.object ((SortedMap.ofList entries).map fun _ v =>
          (v.normalized, v.depth)).entries := by
      have hdepths := ((SortedMap.entries_ofList hkeys).map fun entry => entry.2.depth).foldr_eq
        (f := max) 0
      have hvalues : (((SortedMap.ofList entries).map fun _ v => (v.normalized, v.depth)).entries.map
          fun field => (field.1, field.2.1)) =
            ((SortedMap.ofList entries).map fun _ v => v.normalized).entries := by
        simp only [SortedMap.map, List.map_map, Function.comp_def]
      rw [Json.normalized, Json.normalizedEntries_eq, SortedMap.ofList_map Json.normalized,
        Json.depth, depthOfEntries_eq, ← hdepths]
      simp only [jsonBuilder, hvalues, SortedMap.ofList_entries]
      simp only [SortedMap.map, List.map_map, Function.comp_def]
    rw [hobject, String.toList_append, String.toList_append, toList_separated]
    refine JsonText.reads_object spells_encodeCanonicalChar ?_
    rw [SortedMap.map, List.forall₂_map_left_iff, List.forall₂_map_right_iff]
    refine ((List.forall₂_and_left _ _).mpr ⟨fun entry hentry => hentry, htexts⟩).flip.imp ?_
    rintro _ entry ⟨hentry, t, ht, rfl⟩
    have hmem := (SortedMap.entries_ofList hkeys).mem_iff.mp hentry
    refine ⟨t.toList, ?_, ih entry hmem (Json.distinctEntries_iff.mp hvalues entry hmem) ht⟩
    rw [fieldText, String.toList_append, String.toList_append, toList_encodeCanonicalString,
      List.append_assoc]
    rfl

/-! ## Faithful texts -/

/-- The parser reads JSON texts that are not nested too deep. -/
def Conforms (limit : ℕ∞) (parse : String → Option Json) : Prop :=
  ∀ text value nesting, readJson text = some (value, nesting) → (nesting : ℕ∞) ≤ limit →
    parse text = some value

/-- The text is a value's own: the value is parsed from it, encoding it again gives the text, and
the values with the text are those equal to it up to the order of fields and the representation of
whole numbers. -/
structure Faithful (limit : ℕ∞) (parse : String → Option Json) (value : Value) (text : String) :
    Prop where
  parsed : (value.json.depth : ℕ∞) ≤ limit → parse text = some value.json.normalized
  same : Same value.json value.json.normalized
  reproduced : canonicalJsonEncode value.json.normalized = .ok text
  unique : ∀ other : Value, canonicalJsonEncode other.json = .ok text ↔ Same value.json other.json

theorem faithful_of_encode {limit : ℕ∞} {parse : String → Option Json}
    (hparse : Conforms limit parse) (value : Value) {text : String}
    (h : canonicalJsonEncode value.json = .ok text) : Faithful limit parse value text where
  parsed := hparse text _ _ (JsonText.read_of_reads (reads_normalized value.distinct h))
  same := same_normalized value.distinct
  reproduced := (encode_eq_of_same (same_normalized value.distinct)).symm.trans h
  unique other := by
    constructor
    · intro hother
      have hread := JsonText.read_of_reads (reads_normalized value.distinct h)
      have hreadOther := JsonText.read_of_reads (reads_normalized other.distinct hother)
      have hsame := (same_normalized other.distinct).symm
      rw [← (Prod.mk.inj (Option.some.inj (hread.symm.trans hreadOther))).1] at hsame
      exact (same_normalized value.distinct).trans hsame
    · intro hsame
      exact (encode_eq_of_same hsame).symm.trans h

/-- **Canonical texts are faithful.**  A value has one exactly when all its numbers are integers
that every runtime represents, it is the value's own, and values that differ in the order of fields
or the representation of whole numbers are encoded alike. -/
theorem canonical_faithful (limit : ℕ∞) (parse : String → Option Json)
    (hparse : Conforms limit parse) (value : Value) :
    ((∃ text, canonicalJsonEncode value.json = .ok text) ↔ ∀ n ∈ value.json.numbers, n.IsSafe) ∧
      (∀ text, canonicalJsonEncode value.json = .ok text → Faithful limit parse value text) ∧
      ∀ other, Same value.json other → canonicalJsonEncode other = canonicalJsonEncode value.json :=
  ⟨exists_text_iff value.distinct, fun _ h => faithful_of_encode hparse value h,
    fun _ h => (encode_eq_of_same h).symm⟩

/-- Fields out of order, an escape and a whole float. -/
def sampleValue : Value where
  json := .object [("b", .number (.float (-3))),
    ("a", .array [.null, .bool true, .string "\"\n", .object []])]
  distinct := by
    refine ⟨by decide, trivial, ⟨trivial, trivial, trivial, ⟨List.nodup_nil, trivial⟩, trivial⟩,
      trivial⟩

/-- A parser with the nesting that `serde_json` allows. -/
def parseNested (text : String) : Option Json :=
  (readJson text).bind fun read => if read.2 ≤ 127 then some read.1 else none

theorem conforms_parseNested : Conforms 127 parseNested := by
  intro text value nesting hread hle
  rw [parseNested, hread]
  exact if_pos (Nat.cast_le.mp hle)

theorem canonical_faithful_sample :
    parseNested "\x7b\"a\":[null,true,\"\\\"\\u000a\",\x7b\x7d],\"b\":-3\x7d" =
      some sampleValue.json.normalized :=
  ((canonical_faithful 127 parseNested conforms_parseNested sampleValue).2.1 _
    (by decide +kernel)).parsed (Nat.cast_le.mpr (by decide))

end MagicContext.Claims
