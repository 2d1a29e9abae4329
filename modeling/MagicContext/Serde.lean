import MagicContext.Json

/-!
# Reading structures from JSON

What the derived deserializers do with a value: a structure is read from an object, of which the
fields it does not know are ignored, or from an array of its fields in the order of their
declaration.

## What is here

* `structFields` — the values of a structure's fields, absent ones as nothing.
* `required`, `defaulted`, `nullable` — the three kinds of field.
* `readArray` — lists of values that can be read.
* `tagged`, `nestedTagged` — the variant that a tag field names, and what is left for it.
-/

namespace MagicContext.Serde

open Json

variable {α : Type}

/-- The fields under these names; an array holds at most as many, the first ones first. -/
def structFields (names : List String) : Json → Option (List (Option Json))
  | .object fields => some (names.map fun name => Json.lookup name fields)
  | .array items =>
    if items.length ≤ names.length then
      some (items.map some ++ List.replicate (names.length - items.length) none)
    else none
  | _ => none

/-- A field that must be there. -/
def required (read : Json → Option α) (field : Option Json) : Option α := field.bind read

/-- A field with a default. -/
def defaulted (default : α) (read : Json → Option α) : Option Json → Option α
  | none => some default
  | some v => read v

/-- A value or null. -/
def nullable (read : Json → Option α) : Json → Option (Option α)
  | .null => some none
  | v => (read v).map some

/-- An optional field with a default. -/
def optional (read : Json → Option α) : Option Json → Option (Option α) :=
  defaulted none (nullable read)

def readArray (read : Json → Option α) (v : Json) : Option (List α) :=
  v.asArray.bind fun items => items.mapM read

/-- What a variant is read from: an object without its tag, or an array after its tag. -/
def untagged : Json → Option (Json × Json)
  | .object fields =>
    (Json.lookup "type" fields).map fun tag => (tag, .object (Json.removeField "type" fields))
  | .array (tag :: items) => some (tag, .array items)
  | _ => none

/-- The variant that a string names. -/
def tagged (v : Json) : Option (String × Json) :=
  (untagged v).bind fun (tag, rest) => tag.asString.map fun name => (name, rest)

/-- The variant inside of another one, where its position among the variants is a name too. -/
def nestedTagged (variants : List String) (v : Json) : Option (String × Json) :=
  (untagged v).bind fun (tag, rest) =>
    match tag with
    | .string name => some (name, rest)
    | .number (.posInt i) => variants[i]?.map fun name => (name, rest)
    | _ => none

/-- The fields of an object that are there. -/
def present (fields : List (String × Option Json)) : List (String × Json) :=
  fields.filterMap fun f => f.2.map fun v => (f.1, v)

/-- A signed integer of 32 bits. -/
def asInt32 (v : Json) : Option Int :=
  v.asInt.bind fun n => if -(2 ^ 31) ≤ n ∧ n < 2 ^ 31 then some n else none

/-! ## Objects with known fields -/

/-- The keys of an object in their order. -/
def keys (fields : List (String × Json)) : List String := fields.map Prod.fst

theorem keys_present (fields : List (String × Option Json)) :
    (keys (present fields)).Sublist (fields.map Prod.fst) := by
  induction fields with
  | nil => exact List.Sublist.refl _
  | cons f fields ih =>
    obtain ⟨name, v⟩ := f
    cases v with
    | none => exact ih.cons name
    | some v => exact ih.cons_cons name

theorem lookup_eq_none {name : String} {fields : List (String × Json)} (h : name ∉ keys fields) :
    lookup name fields = none := by
  rw [lookup, Option.map_eq_none_iff, List.find?_eq_none]
  intro f hf heq
  exact h (of_decide_eq_true heq ▸ List.mem_map_of_mem hf)

theorem lookup_cons_self (name : String) (v : Json) (fields : List (String × Json)) :
    lookup name ((name, v) :: fields) = some v := by
  rw [lookup, List.find?_cons_of_pos (by simp), Option.map_some]

theorem lookup_cons_of_ne {name other : String} (h : other ≠ name) (v : Json)
    (fields : List (String × Json)) :
    lookup name ((other, v) :: fields) = lookup name fields := by
  rw [lookup, List.find?_cons_of_neg (by simpa using h), lookup]

/-- What is written is found. -/
theorem lookup_present {fields : List (String × Option Json)} (hnodup : (fields.map Prod.fst).Nodup)
    {name : String} {v : Option Json} (hmem : (name, v) ∈ fields) :
    lookup name (present fields) = v := by
  induction fields with
  | nil => cases hmem
  | cons f fields ih =>
    obtain ⟨other, w⟩ := f
    obtain ⟨hnotMem, hrest⟩ := List.nodup_cons.mp hnodup
    rcases List.mem_cons.mp hmem with heq | hin
    · cases heq
      have habsent : name ∉ keys (present fields) := fun h =>
        hnotMem ((keys_present fields).subset h)
      cases v with
      | none => exact lookup_eq_none habsent
      | some v => exact lookup_cons_self ..
    · have hname : name ∈ fields.map Prod.fst := List.mem_map_of_mem (f := Prod.fst) hin
      have hne : other ≠ name := fun heq => hnotMem (heq ▸ hname)
      cases w with
      | none => exact ih hrest hin
      | some w => exact (lookup_cons_of_ne hne ..).trans (ih hrest hin)

/-- An object without unknown fields is what is found in it. -/
theorem present_lookup {names : List String} (hnodup : names.Nodup)
    {fields : List (String × Json)} (h : (keys fields).Sublist names) :
    present (names.map fun name => (name, lookup name fields)) = fields := by
  induction names generalizing fields with
  | nil =>
    rw [List.map_eq_nil_iff.mp (List.sublist_nil.mp h)]
    rfl
  | cons name names ih =>
    obtain ⟨hnotMem, hnames⟩ := List.nodup_cons.mp hnodup
    by_cases hmem : name ∈ keys fields
    · -- the first name must be the first key
      cases fields with
      | nil => cases hmem
      | cons f fields =>
        obtain ⟨key, v⟩ := f
        have hkey : key = name := by
          cases h with
          | cons _ h => exact absurd (h.subset hmem) hnotMem
          | cons_cons _ h => rfl
        subst hkey
        have hrest : (keys fields).Sublist names := List.Sublist.of_cons_cons h
        have hsame : (names.map fun name => (name, lookup name ((key, v) :: fields))) =
            names.map fun name => (name, lookup name fields) := by
          refine List.map_congr_left fun other hother => ?_
          have hne : key ≠ other := fun heq => hnotMem (heq ▸ hother)
          rw [lookup_cons_of_ne hne]
        have hpresent : present (names.map fun name => (name, lookup name fields)) = fields :=
          ih hnames hrest
        rw [List.map_cons, lookup_cons_self, hsame]
        exact congrArg ((key, v) :: ·) hpresent
    · have hrest : (keys fields).Sublist names :=
        (List.sublist_cons_iff.mp h).resolve_right fun ⟨rest, heq, _⟩ =>
          hmem (heq ▸ List.mem_cons_self ..)
      rw [List.map_cons, lookup_eq_none hmem]
      exact ih hnames hrest

theorem mem_present {fields : List (String × Option Json)} {name : String} {v : Json} :
    (name, v) ∈ present fields ↔ (name, some v) ∈ fields := by
  rw [present, List.mem_filterMap]
  constructor
  · rintro ⟨⟨name', w⟩, hmem, heq⟩
    obtain ⟨v', hv, heq⟩ := Option.map_eq_some_iff.mp heq
    cases heq
    exact hv ▸ hmem
  · exact fun hmem => ⟨_, hmem, rfl⟩

/-! ## Fields that are written as they were read -/

/-- A reader whose results are written back as what was read. -/
def Inverts (read : Json → Option α) (write : α → Json) : Prop :=
  ∀ v a, read v = some a → write a = v

theorem required_inverts {read : Json → Option α} {write : α → Json} (hread : Inverts read write)
    {field : Option Json} {a : α} (h : required read field = some a) : field = some (write a) := by
  obtain ⟨v, hv, ha⟩ := Option.bind_eq_some_iff.mp h
  rw [hv, hread v a ha]

/-- A list that is read item by item. -/
theorem map_of_mapM {β : Type} {f : α → Option β} {g : β → α} (h : ∀ a b, f a = some b → g b = a)
    {l : List α} {r : List β} (hl : l.mapM f = some r) : r.map g = l := by
  induction l generalizing r with
  | nil =>
    cases hl
    rfl
  | cons a l ih =>
    rw [List.mapM_cons] at hl
    obtain ⟨b, hb, hl⟩ := Option.bind_eq_some_iff.mp hl
    obtain ⟨r', hr', heq⟩ := Option.bind_eq_some_iff.mp hl
    cases heq
    rw [List.map_cons, h a b hb, ih hr']

theorem inverts_asString : Inverts asString string := by
  intro v s h
  cases v <;> cases h
  rfl

theorem inverts_asNat : Inverts asNat fun n => .number (.posInt n) := by
  intro v n h
  unfold asNat at h
  split at h <;> cases h
  rfl

theorem optional_of_ne_null {read : Json → Option α} {v : Json} {a : Option α}
    (h : optional read (some v) = some a) (hnull : v ≠ .null) :
    ∃ x, read v = some x ∧ a = some x := by
  have hsome : (read v).map some = some a := by
    rw [optional, defaulted, nullable] at h
    · exact h
    · exact hnull
  obtain ⟨x, hx, rfl⟩ := Option.map_eq_some_iff.mp hsome
  exact ⟨x, hx, rfl⟩

/-- An optional field that is not null. -/
theorem optional_inverts {read : Json → Option α} {write : α → Json} (hread : Inverts read write)
    {field : Option Json} {a : Option α} (h : optional read field = some a)
    (hnull : field ≠ some .null) : a.map write = field := by
  cases field with
  | none =>
    cases h
    rfl
  | some v =>
    obtain ⟨x, hx, rfl⟩ := optional_of_ne_null h fun heq => hnull (congrArg some heq)
    exact congrArg some (hread v x hx)

end MagicContext.Serde
