import Mathlib.Algebra.Ring.Int.Defs
import Mathlib.Algebra.Ring.Nat
import Mathlib.Order.Basic

/-!
# JSON values

The values that requests, harness messages and tool inputs are made of.  An object is the list of
its fields in the order of their keys, as a sorted map keeps them; numbers are told apart the way
the parser does, because an integer field refuses a float.

## What is here

* `Json`, with decidable equality.
* `get?` and the accessors, which answer nothing when the value has another shape.
* `set`, `remove` — an object with a field replaced or removed.
-/

namespace MagicContext

inductive JsonNumber where
  | posInt (n : Nat)
  /-- The negative of a successor. -/
  | negInt (n : Nat)
  | float (bits : Nat)
  deriving DecidableEq

inductive Json where
  | null
  | bool (b : Bool)
  | number (n : JsonNumber)
  | string (s : String)
  | array (items : List Json)
  | object (fields : List (String × Json))

namespace Json

/-! ## Equality -/

mutual

def beq : Json → Json → Bool
  | .null, .null => true
  | .bool a, .bool b => a == b
  | .number a, .number b => decide (a = b)
  | .string a, .string b => a == b
  | .array a, .array b => beqList a b
  | .object a, .object b => beqFields a b
  | _, _ => false

def beqList : List Json → List Json → Bool
  | [], [] => true
  | a :: as, b :: bs => beq a b && beqList as bs
  | _, _ => false

def beqFields : List (String × Json) → List (String × Json) → Bool
  | [], [] => true
  | (k, a) :: as, (l, b) :: bs => k == l && beq a b && beqFields as bs
  | _, _ => false

end

mutual

theorem beq_iff : ∀ a b : Json, beq a b = true ↔ a = b
  | .null, b => by cases b <;> simp [beq]
  | .bool a, b => by cases b <;> simp [beq]
  | .number a, b => by cases b <;> simp [beq]
  | .string a, b => by cases b <;> simp [beq]
  | .array a, b => by
    cases b with
    | array b => simp [beq, beqList_iff a b]
    | _ => simp [beq]
  | .object a, b => by
    cases b with
    | object b => simp [beq, beqFields_iff a b]
    | _ => simp [beq]

theorem beqList_iff : ∀ a b : List Json, beqList a b = true ↔ a = b
  | [], b => by cases b <;> simp [beqList]
  | a :: as, b => by
    cases b with
    | nil => simp [beqList]
    | cons b bs => simp [beqList, beq_iff a b, beqList_iff as bs]

theorem beqFields_iff : ∀ a b : List (String × Json), beqFields a b = true ↔ a = b
  | [], b => by cases b <;> simp [beqFields]
  | (k, a) :: as, b => by
    cases b with
    | nil => simp [beqFields]
    | cons e bs =>
      obtain ⟨-, b⟩ := e
      simp [beqFields, beq_iff a b, beqFields_iff as bs]

end

instance : DecidableEq Json := fun a b => decidable_of_iff _ (beq_iff a b)

/-! ## Access -/

/-- The value of the first field with a key. -/
def lookup (key : String) (fields : List (String × Json)) : Option Json :=
  (fields.find? fun f => decide (f.1 = key)).map Prod.snd

def get? (v : Json) (key : String) : Option Json :=
  match v with
  | object fields => lookup key fields
  | _ => none

def asString : Json → Option String
  | string s => some s
  | _ => none

def asBool : Json → Option Bool
  | bool b => some b
  | _ => none

/-- As an unsigned integer of 64 bits. -/
def asNat : Json → Option Nat
  | number (.posInt n) => some n
  | _ => none

/-- As a signed integer of 64 bits. -/
def asInt : Json → Option Int
  | number (.posInt n) => if n < 2 ^ 63 then some n else none
  | number (.negInt n) => some (Int.negSucc n)
  | _ => none

def asArray : Json → Option (List Json)
  | array items => some items
  | _ => none

def asObject : Json → Option (List (String × Json))
  | object fields => some fields
  | _ => none

def isString (v : Json) : Bool := v.asString.isSome

def isObject (v : Json) : Bool := v.asObject.isSome

/-- The string in a field. -/
def stringField (v : Json) (key : String) : Option String := (v.get? key).bind asString

/-! ## Change -/

/-- Puts a field in the place of the one with its key. -/
def replaceField (key : String) (v : Json) : List (String × Json) → Option (List (String × Json))
  | [] => none
  | f :: fields =>
    if f.1 = key then some ((key, v) :: fields)
    else (replaceField key v fields).map (f :: ·)

/-- Puts a new field where its key belongs. -/
def addField (key : String) (v : Json) : List (String × Json) → List (String × Json)
  | [] => [(key, v)]
  | f :: fields => if key < f.1 then (key, v) :: f :: fields else f :: addField key v fields

def insertField (key : String) (v : Json) (fields : List (String × Json)) : List (String × Json) :=
  (replaceField key v fields).getD (addField key v fields)

/-- Sets a field; what is not an object becomes one first. -/
def set (v : Json) (key : String) (next : Json) : Json :=
  match v with
  | object fields => object (insertField key next fields)
  | _ => object [(key, next)]

def removeField (key : String) (fields : List (String × Json)) : List (String × Json) :=
  fields.filter fun f => decide (f.1 ≠ key)

def remove (v : Json) (key : String) : Json :=
  match v with
  | object fields => object (removeField key fields)
  | v => v

/-! ### What a changed object answers -/

theorem lookup_nil (key : String) : lookup key [] = none := rfl

theorem lookup_cons (key : String) (f : String × Json) (fields : List (String × Json)) :
    lookup key (f :: fields) = if f.1 = key then some f.2 else lookup key fields := by
  rw [lookup, lookup, List.find?_cons]
  by_cases h : f.1 = key <;> simp [h]

variable {key : String} {v : Json} {fields : List (String × Json)}

theorem replaceField_eq_none : replaceField key v fields = none ↔ lookup key fields = none := by
  induction fields with
  | nil => simp [replaceField, lookup_nil]
  | cons f fields ih =>
    rw [replaceField, lookup_cons]
    split
    · simp
    · rw [Option.map_eq_none_iff, ih]

theorem lookup_replaceField {replaced : List (String × Json)}
    (h : replaceField key v fields = some replaced) (key' : String) :
    lookup key' replaced = if key = key' then some v else lookup key' fields := by
  induction fields generalizing replaced with
  | nil => cases h
  | cons f fields ih =>
    rw [replaceField] at h
    rw [lookup_cons]
    split at h
    · rename_i hkey
      rw [Option.some_inj] at h
      rw [← h, lookup_cons, hkey]
      split <;> rfl
    · rename_i hkey
      obtain ⟨rest, hrest, rfl⟩ := Option.map_eq_some_iff.mp h
      rw [lookup_cons, ih hrest]
      split
      · rename_i hf
        rw [if_neg fun heq => hkey (hf.trans heq.symm)]
      · rfl

theorem lookup_addField (h : lookup key fields = none) (key' : String) (v : Json) :
    lookup key' (addField key v fields) = if key = key' then some v else lookup key' fields := by
  induction fields with
  | nil => rw [addField, lookup_cons]
  | cons f fields ih =>
    rw [lookup_cons] at h
    split at h
    · cases h
    rename_i hkey
    rw [addField]
    split
    · rw [lookup_cons]
    · rw [lookup_cons, lookup_cons, ih h]
      split
      · rename_i hf
        rw [if_neg fun heq => hkey (hf.trans heq.symm)]
      · rfl

theorem lookup_insertField (key key' : String) (v : Json) (fields : List (String × Json)) :
    lookup key' (insertField key v fields) = if key = key' then some v else lookup key' fields := by
  rw [insertField]
  cases hreplaced : replaceField key v fields with
  | some replaced => exact lookup_replaceField hreplaced key'
  | none => exact lookup_addField (replaceField_eq_none.mp hreplaced) key' v

/-- A field that has the value already stays as it is. -/
theorem insertField_self (h : lookup key fields = some v) : insertField key v fields = fields := by
  have hreplaced : replaceField key v fields = some fields := by
    induction fields with
    | nil => cases h
    | cons f fields ih =>
      rw [lookup_cons] at h
      rw [replaceField]
      split at h
      · rename_i hkey
        rw [Option.some_inj] at h
        rw [if_pos hkey, ← hkey, ← h]
      · rename_i hkey
        rw [if_neg hkey, ih h, Option.map_some]
  rw [insertField, hreplaced, Option.getD_some]

theorem get?_set (v : Json) (key key' : String) (next : Json) :
    (v.set key next).get? key' = if key = key' then some next else v.get? key' := by
  cases v with
  | object fields => exact lookup_insertField key key' next fields
  | _ => exact lookup_cons key' (key, next) []

theorem get?_set_self (v : Json) (key : String) (next : Json) :
    (v.set key next).get? key = some next := by
  rw [get?_set, if_pos rfl]

theorem set_self {next : Json} (h : v.get? key = some next) : v.set key next = v := by
  cases v with
  | object fields => exact congrArg object (insertField_self h)
  | _ => cases h

/-- Setting a field changes nothing exactly when the field has the value. -/
theorem set_eq_self {next : Json} : v.set key next = v ↔ v.get? key = some next :=
  ⟨fun h => h ▸ get?_set_self v key next, set_self⟩

end Json

end MagicContext
