import Mathlib.Algebra.Ring.Nat
import Mathlib.Data.List.Basic

/-!
# Fields with a length before them

A field is a label, the size of its value in digits, and the value, a colon after each of the first
two; fields are joined by a separator.  The values may hold anything.

## What is here

* `field`, `joined`.
* `field_inj`, `joined_injective` — **the fields can be read back**, whatever follows them.
* `exists_value_of_marker` — a marker whose first letter is in no label, and which holds no
  separator, stands within a value wherever it stands.
-/

namespace Prefixed

variable {α : Type*}

/-! ## Lists up to a letter -/

/-- The list before the first occurrence of a letter. -/
theorem eq_of_first {a b r s : List α} {c : α} (ha : c ∉ a) (hb : c ∉ b)
    (h : a ++ c :: r = b ++ c :: s) : a = b ∧ r = s := by
  induction a generalizing b with
  | nil =>
    cases b with
    | nil => exact ⟨rfl, (List.cons.inj h).2⟩
    | cons y b => exact absurd (List.cons.inj h).1 (List.ne_of_not_mem_cons hb)
  | cons x a ih =>
    cases b with
    | nil => exact absurd (List.cons.inj h).1.symm (List.ne_of_not_mem_cons ha)
    | cons y b =>
      obtain ⟨rfl, htail⟩ := List.cons.inj h
      obtain ⟨rfl, hrest⟩ := ih (List.not_mem_of_not_mem_cons ha)
        (List.not_mem_of_not_mem_cons hb) htail
      exact ⟨rfl, hrest⟩

/-- A letter that is not in the first list stands after it. -/
theorem append_of_first {a u r s : List α} {c : α} (ha : c ∉ a) (h : a ++ r = u ++ c :: s) :
    ∃ u', u = a ++ u' ∧ r = u' ++ c :: s := by
  rcases List.append_eq_append_iff.mp h with ⟨t, rfl, hr⟩ | ⟨t, rfl, ht⟩
  · exact ⟨t, rfl, hr⟩
  · cases t with
    | nil => exact ⟨[], by simp, by simpa using ht.symm⟩
    | cons x t =>
      obtain ⟨rfl, -⟩ := List.cons.inj ht
      simp at ha

/-- A marker that holds its first letter once does not overlap itself. -/
theorem append_of_marker {u v w mark : List α} {bar : α} (hmark : bar ∉ mark) (hu : u ≠ [])
    (h : u ++ bar :: mark ++ v = bar :: mark ++ w) :
    ∃ x, u = bar :: mark ++ x ∧ w = x ++ bar :: mark ++ v := by
  obtain ⟨y, u, rfl⟩ := List.exists_cons_of_ne_nil hu
  simp only [List.cons_append, List.append_assoc] at h
  obtain ⟨rfl, hrest⟩ := List.cons.inj h
  obtain ⟨x, rfl, hw⟩ := append_of_first hmark hrest.symm
  exact ⟨x, rfl, by simpa using hw⟩

/-! ## Fields -/

/-- How fields are written. -/
structure Format (α : Type*) where
  colon : α
  separator : α
  digits : Nat → List α
  size : α → Nat
  colon_notMem_digits : ∀ n, colon ∉ digits n
  digits_injective : ∀ {m n : Nat}, digits m = digits n → m = n
  size_pos : ∀ a, 0 < size a

namespace Format

variable (format : Format α)

/-- The size of a value. -/
def length (value : List α) : Nat := (value.map format.size).sum

/-- A label with the size of the value. -/
def header (label value : List α) : List α :=
  label ++ format.colon :: (format.digits (format.length value) ++ [format.colon])

def field (f : List α × List α) : List α := format.header f.1 f.2 ++ f.2

/-- Fields after a first one. -/
def further (fields : List (List α × List α)) : List α :=
  fields.flatMap fun f => format.separator :: format.field f

/-- The fields with separators between them. -/
def joined : List (List α × List α) → List α
  | [] => []
  | f :: fields => format.field f ++ format.further fields

theorem length_append (a b : List α) :
    format.length (a ++ b) = format.length a + format.length b := by
  simp [length]

theorem eq_nil_of_length {a : List α} (h : format.length a = 0) : a = [] := by
  cases a with
  | nil => rfl
  | cons x a =>
    have hpos := format.size_pos x
    simp only [length, List.map_cons, List.sum_cons] at h
    omega

/-- Values of one size at the front of one list are one value. -/
theorem eq_of_length {a b r s : List α} (hlength : format.length a = format.length b)
    (h : a ++ r = b ++ s) : a = b ∧ r = s := by
  rcases List.append_eq_append_iff.mp h with ⟨t, rfl, rfl⟩ | ⟨t, rfl, rfl⟩
  · rw [format.length_append] at hlength
    obtain rfl := format.eq_nil_of_length (a := t) (by omega)
    simp
  · rw [format.length_append] at hlength
    obtain rfl := format.eq_nil_of_length (a := t) (by omega)
    simp

/-- **A field can be read back**, whatever follows it. -/
theorem field_inj {f g : List α × List α} (hf : format.colon ∉ f.1) (hg : format.colon ∉ g.1)
    {r s : List α} (h : format.field f ++ r = format.field g ++ s) : f = g ∧ r = s := by
  obtain ⟨label', value'⟩ := g
  simp only [field, header, List.append_assoc, List.cons_append, List.nil_append] at h
  obtain ⟨rfl, hafter⟩ := eq_of_first hf hg h
  obtain ⟨hdigits, hvalues⟩ :=
    eq_of_first (format.colon_notMem_digits _) (format.colon_notMem_digits _) hafter
  obtain ⟨rfl, rfl⟩ := format.eq_of_length (format.digits_injective hdigits) hvalues
  exact ⟨rfl, rfl⟩

theorem field_ne_nil (f : List α × List α) : format.field f ≠ [] := by
  simp [field, header]

/-- **Joined fields can be read back.** -/
theorem joined_injective {fields fields' : List (List α × List α)}
    (hfields : ∀ f ∈ fields, format.colon ∉ f.1) (hfields' : ∀ f ∈ fields', format.colon ∉ f.1)
    (h : format.joined fields = format.joined fields') : fields = fields' := by
  have hfurther : ∀ {fields fields' : List (List α × List α)},
      (∀ f ∈ fields, format.colon ∉ f.1) → (∀ f ∈ fields', format.colon ∉ f.1) →
      format.further fields = format.further fields' → fields = fields' := by
    intro fields
    induction fields with
    | nil =>
      intro fields' _ _ h
      cases fields' with
      | nil => rfl
      | cons g fields' => cases h
    | cons f fields ih =>
      intro fields' hfields hfields' h
      cases fields' with
      | nil => cases h
      | cons g fields' =>
        simp only [further, List.flatMap_cons, List.cons_append, List.cons.injEq, true_and] at h
        rw [List.forall_mem_cons] at hfields hfields'
        obtain ⟨rfl, hrest⟩ := format.field_inj hfields.1 hfields'.1 h
        rw [ih hfields.2 hfields'.2 hrest]
  cases fields with
  | nil =>
    cases fields' with
    | nil => rfl
    | cons g fields' => exact absurd (List.append_eq_nil_iff.mp h.symm).1 (format.field_ne_nil g)
  | cons f fields =>
    cases fields' with
    | nil => exact absurd (List.append_eq_nil_iff.mp h).1 (format.field_ne_nil f)
    | cons g fields' =>
      rw [List.forall_mem_cons] at hfields hfields'
      obtain ⟨rfl, hrest⟩ := format.field_inj hfields.1 hfields'.1 h
      rw [hfurther hfields.2 hfields'.2 hrest]

/-! ## Markers -/

/-- The fields with a separator after each. -/
def leading (fields : List (List α × List α)) : List α :=
  fields.flatMap fun f => format.field f ++ [format.separator]

theorem joined_append (before : List (List α × List α)) (f : List α × List α)
    (after : List (List α × List α)) :
    format.joined (before ++ f :: after) =
      format.leading before ++ format.field f ++ format.further after := by
  induction before with
  | nil => rfl
  | cons g before ih =>
    have hfurther : format.further (before ++ f :: after) =
        format.separator :: format.joined (before ++ f :: after) := by
      cases before <;> rfl
    rw [List.cons_append, joined, hfurther, ih]
    simp [leading]

/-- **A marker stands within a value**, when its first letter is in no label and no size, and it
holds no separator. -/
theorem exists_value_of_marker {bar : α} {mark : List α} (hsep : format.separator ∉ bar :: mark)
    (hcolon : bar ≠ format.colon) (hdigits : ∀ n, bar ∉ format.digits n)
    {fields : List (List α × List α)} (hlabels : ∀ f ∈ fields, bar ∉ f.1) {u v : List α}
    (h : format.joined fields = u ++ bar :: mark ++ v) :
    ∃ before label inner rest after,
      fields = before ++ (label, inner ++ bar :: mark ++ rest) :: after ∧
      u = format.leading before ++ format.header label (inner ++ bar :: mark ++ rest) ++ inner ∧
      v = rest ++ format.further after := by
  induction fields generalizing u with
  | nil => simp [joined] at h
  | cons f fields ih =>
    obtain ⟨label, value⟩ := f
    rw [List.forall_mem_cons] at hlabels
    have hheader : bar ∉ format.header label value := by
      simp [header, hlabels.1, hcolon, hdigits]
    rw [joined, field, List.append_assoc, List.append_assoc, List.cons_append] at h
    obtain ⟨u, rfl, hvalue⟩ := append_of_first hheader h
    rcases List.append_eq_append_iff.mp hvalue with ⟨t, rfl, ht⟩ | ⟨t, rfl, ht⟩
    · -- the marker starts after the value
      cases fields with
      | nil => simp [further] at ht
      | cons g fields =>
        rw [further, List.flatMap_cons, ← further, List.cons_append] at ht
        cases t with
        | nil => exact absurd (List.mem_cons.mpr (Or.inl (List.cons.inj ht).1)) hsep
        | cons x t =>
          obtain ⟨rfl, hjoined⟩ := List.cons.inj ht
          obtain ⟨before, label', inner, rest, after, heq, rfl, rfl⟩ :=
            ih hlabels.2 (u := t) (by simpa [joined] using hjoined)
          refine ⟨(label, value) :: before, label', inner, rest, after, ?_, ?_, rfl⟩
          · rw [heq, List.cons_append]
          · simp [leading, field]
    · -- the marker starts in the value, and ends there
      cases t with
      | nil =>
        rcases fields with _ | ⟨g, fields⟩
        · simp [further] at ht
        · exact absurd (List.mem_cons.mpr (Or.inl (List.cons.inj ht).1.symm)) hsep
      | cons x t =>
        obtain ⟨rfl, hmark⟩ := List.cons.inj ht
        rcases List.append_eq_append_iff.mp hmark with ⟨rest, rfl, rfl⟩ | ⟨w, rfl, hw⟩
        · exact ⟨[], label, u, rest, fields, by simp, by simp [leading], rfl⟩
        · cases w with
          | nil =>
            refine ⟨[], label, u, [], fields, by simp, by simp [leading], ?_⟩
            simpa using hw.symm
          | cons y w =>
            rcases fields with _ | ⟨g, fields⟩
            · simp [further] at hw
            · obtain ⟨rfl, -⟩ := List.cons.inj hw
              simp at hsep

end Format

end Prefixed
