import MagicContext.Lib.Prefixed

/-!
# The content epoch in a render configuration

The base configuration of a render and the epoch of its content are folded into one string, which
is to differ whenever one of them does.  The fields of the epoch carry their lengths and can be
read back; the base carries none, and where it ends is known only from the marker after it, which a
field's value may hold as well.

## What is here

* `M0ContentEpoch`, `foldM0ContentEpoch`.
* `epochFields_injective` — the fields that are written determine the epoch.
* `Forges` — a base that ends as another's fold goes on up to a marker in a field's value.
* `fold_distinguishes_iff` — two folds of different pairs differ exactly when neither forges the
  other.
-/

namespace MagicContext.Render

open Prefixed.Format

/-! ## The fold -/

structure M0ContentEpoch where
  workspaceFingerprint : String := ""
  upgradeState : String := ""
  memoryContentEpoch : String := ""
  memoryRenderEpoch : String := ""
  compartmentRenderEpoch : String := ""
  profileRenderEpoch : String := ""
  promptSurfaceEpoch : String := ""
  taggerFeatureEpoch : String := ""
  transitionEpoch : String := ""
  deriving DecidableEq

/-- A label, the bytes of the value, and the value. -/
def part (label value : String) : String :=
  label ++ ":" ++ toString value.utf8ByteSize ++ ":" ++ value

/-- A part without its value. -/
def partHeader (label value : String) : String :=
  label ++ ":" ++ toString value.utf8ByteSize ++ ":"

/-- The fields that are written only when they are not empty. -/
def optionalFields (epoch : M0ContentEpoch) : List (String × String) :=
  [("mre", epoch.memoryRenderEpoch), ("cre", epoch.compartmentRenderEpoch),
    ("mpe", epoch.profileRenderEpoch), ("pse", epoch.promptSurfaceEpoch),
    ("tfe", epoch.taggerFeatureEpoch), ("xte", epoch.transitionEpoch)]

/-- The labels and values that are written. -/
def epochFields (epoch : M0ContentEpoch) : List (String × String) :=
  [("ws", epoch.workspaceFingerprint), ("upg", epoch.upgradeState),
    ("mem", epoch.memoryContentEpoch)] ++
    (optionalFields epoch).filter fun f => f.2 ≠ ""

/-- The fields with semicolons between them. -/
def partsText (fields : List (String × String)) : String :=
  String.intercalate ";" (fields.map fun f => part f.1 f.2)

def marker : String := "|m0epoch["

/-- `fold_m0_content_epoch`. -/
def foldM0ContentEpoch (baseRenderConfig : String) (epoch : M0ContentEpoch) : String :=
  baseRenderConfig ++ marker ++ partsText (epochFields epoch) ++ "]"

/-! ## The fields determine the epoch -/

variable {epoch epoch' : M0ContentEpoch}

theorem optionalField_unique {label value value' : String}
    (h : (label, value) ∈ optionalFields epoch) (h' : (label, value') ∈ optionalFields epoch) :
    value = value' := by
  simp only [optionalFields, List.mem_cons, Prod.mk.injEq, List.not_mem_nil, or_false] at h h'
  rcases h with ⟨rfl, rfl⟩ | ⟨rfl, rfl⟩ | ⟨rfl, rfl⟩ | ⟨rfl, rfl⟩ | ⟨rfl, rfl⟩ | ⟨rfl, rfl⟩ <;>
    (symm; simpa using h')

/-- An optional field that is left out is empty in both epochs. -/
theorem optionalField_eq (h : (optionalFields epoch).filter (fun f => f.2 ≠ "") =
      (optionalFields epoch').filter fun f => f.2 ≠ "") {label value value' : String}
    (hvalue : (label, value) ∈ optionalFields epoch)
    (hvalue' : (label, value') ∈ optionalFields epoch') : value = value' := by
  by_cases hempty : value = ""
  · by_contra hne
    have hwritten : value' ≠ "" := fun hempty' => hne (hempty.trans hempty'.symm)
    have hmem : (label, value') ∈ (optionalFields epoch').filter fun f => f.2 ≠ "" :=
      List.mem_filter.mpr ⟨hvalue', by simpa using hwritten⟩
    rw [← h] at hmem
    exact hne (optionalField_unique hvalue (List.mem_filter.mp hmem).1)
  · have hmem : (label, value) ∈ (optionalFields epoch).filter fun f => f.2 ≠ "" :=
      List.mem_filter.mpr ⟨hvalue, by simpa using hempty⟩
    rw [h] at hmem
    exact optionalField_unique (List.mem_filter.mp hmem).1 hvalue'

/-- **The fields that are written determine the epoch.** -/
theorem epochFields_injective (h : epochFields epoch = epochFields epoch') : epoch = epoch' := by
  simp only [epochFields, List.cons_append, List.nil_append, List.cons.injEq, Prod.mk.injEq,
    true_and] at h
  obtain ⟨hws, hupg, hmem, hoptional⟩ := h
  have heq := fun {label value value' : String} =>
    @optionalField_eq _ _ hoptional label value value'
  have hmre : epoch.memoryRenderEpoch = epoch'.memoryRenderEpoch :=
    @heq "mre" _ _ (by simp [optionalFields]) (by simp [optionalFields])
  have hcre : epoch.compartmentRenderEpoch = epoch'.compartmentRenderEpoch :=
    @heq "cre" _ _ (by simp [optionalFields]) (by simp [optionalFields])
  have hmpe : epoch.profileRenderEpoch = epoch'.profileRenderEpoch :=
    @heq "mpe" _ _ (by simp [optionalFields]) (by simp [optionalFields])
  have hpse : epoch.promptSurfaceEpoch = epoch'.promptSurfaceEpoch :=
    @heq "pse" _ _ (by simp [optionalFields]) (by simp [optionalFields])
  have htfe : epoch.taggerFeatureEpoch = epoch'.taggerFeatureEpoch :=
    @heq "tfe" _ _ (by simp [optionalFields]) (by simp [optionalFields])
  have hxte : epoch.transitionEpoch = epoch'.transitionEpoch :=
    @heq "xte" _ _ (by simp [optionalFields]) (by simp [optionalFields])
  cases epoch
  cases epoch'
  simp_all

/-! ## The text of the fields -/

/-- The letters of the fields. -/
def epochFormat : Prefixed.Format Char where
  colon := ':'
  separator := ';'
  digits n := Nat.toDigits 10 n
  size := Char.utf8Size
  colon_notMem_digits n h := by
    have hdigit := Nat.isDigit_of_mem_toDigits (by decide) (by decide) h
    exact absurd hdigit (by decide)
  digits_injective h := by
    have hread := congrArg (fun digits => Nat.ofDigitChars 10 digits 0) h
    simpa using hread
  size_pos := Char.utf8Size_pos

theorem length_toList (value : String) : epochFormat.length value.toList = value.utf8ByteSize := by
  have hlist : ∀ cs : List Char, epochFormat.length cs = (String.ofList cs).utf8ByteSize := by
    intro cs
    induction cs with
    | nil => rfl
    | cons c cs ih =>
      rw [← List.singleton_append, String.ofList_append, String.utf8ByteSize_append,
        epochFormat.length_append, ih]
      congr 1
      simp [length, epochFormat]
  rw [hlist, String.ofList_toList]

/-- The letters of a label and a value. -/
def letters (f : String × String) : List Char × List Char := (f.1.toList, f.2.toList)

theorem toList_partHeader (label value : String) :
    (partHeader label value).toList = epochFormat.header label.toList value.toList := by
  rw [partHeader, header, length_toList]
  simp [epochFormat]

theorem toList_part (f : String × String) :
    (part f.1 f.2).toList = epochFormat.field (letters f) := by
  have hpart : part f.1 f.2 = partHeader f.1 f.2 ++ f.2 := rfl
  rw [hpart, String.toList_append, toList_partHeader]
  rfl

/-- The fields with a semicolon after each. -/
def partsBefore (fields : List (String × String)) : String :=
  String.join (fields.map fun f => part f.1 f.2 ++ ";")

/-- The fields with a semicolon before each. -/
def partsAfter (fields : List (String × String)) : String :=
  String.join (fields.map fun f => ";" ++ part f.1 f.2)

theorem toList_partsBefore (fields : List (String × String)) :
    (partsBefore fields).toList = epochFormat.leading (fields.map letters) := by
  simp [partsBefore, leading, toList_part, epochFormat, List.flatMap_map]

theorem toList_partsAfter (fields : List (String × String)) :
    (partsAfter fields).toList = epochFormat.further (fields.map letters) := by
  simp [partsAfter, further, toList_part, epochFormat, List.flatMap_map]

theorem partsText_cons (f : String × String) (fields : List (String × String)) :
    partsText (f :: fields) = part f.1 f.2 ++ partsAfter fields := by
  induction fields generalizing f with
  | nil => simp [partsText, partsAfter]
  | cons g fields ih =>
    have hrest := ih g
    rw [partsText, List.map_cons] at hrest ⊢
    rw [List.map_cons, String.intercalate_cons_cons, hrest]
    simp [partsAfter, String.append_assoc]

theorem toList_partsText (fields : List (String × String)) :
    (partsText fields).toList = epochFormat.joined (fields.map letters) := by
  cases fields with
  | nil => rfl
  | cons f fields =>
    rw [partsText_cons, String.toList_append, toList_part, toList_partsAfter]
    rfl

/-- The labels are plain. -/
theorem label_of_mem {f : String × String} (h : f ∈ epochFields epoch) :
    f.1 ∈ ["ws", "upg", "mem", "mre", "cre", "mpe", "pse", "tfe", "xte"] := by
  rw [epochFields, List.mem_append] at h
  rcases h with h | h
  · simp only [List.mem_cons, List.not_mem_nil, or_false] at h
    rcases h with rfl | rfl | rfl <;> simp
  · have hoptional := (List.mem_filter.mp h).1
    simp only [optionalFields, List.mem_cons, List.not_mem_nil, or_false] at hoptional
    rcases hoptional with rfl | rfl | rfl | rfl | rfl | rfl <;> simp

theorem notMem_label {c : Char}
    (hc : ∀ label ∈ ["ws", "upg", "mem", "mre", "cre", "mpe", "pse", "tfe", "xte"],
      c ∉ label.toList) : ∀ f ∈ (epochFields epoch).map letters, c ∉ f.1 := by
  intro f hf
  obtain ⟨g, hg, rfl⟩ := List.mem_map.mp hf
  exact hc g.1 (label_of_mem hg)

/-- **The text of the fields determines the epoch.** -/
theorem partsText_injective (h : partsText (epochFields epoch) = partsText (epochFields epoch')) :
    epoch = epoch' := by
  have hletters := congrArg String.toList h
  rw [toList_partsText, toList_partsText] at hletters
  have hfields := epochFormat.joined_injective (notMem_label (by decide))
    (notMem_label (by decide)) hletters
  refine epochFields_injective (List.map_injective_iff.mpr ?_ hfields)
  rintro ⟨label, value⟩ ⟨label', value'⟩ heq
  simpa [letters, String.toList_inj] using heq

/-! ## Forged bases -/

/-- **A base forges another's fold**: it goes on as that fold does, up to a marker in the value of a
field, and the rest of the fold reads as the fields of its own epoch. -/
def Forges (baseRenderConfig : String) (epoch : M0ContentEpoch) (baseRenderConfig' : String)
    (epoch' : M0ContentEpoch) : Prop :=
  ∃ before label inner rest after,
    epochFields epoch = before ++ (label, inner ++ marker ++ rest) :: after ∧
    baseRenderConfig' = baseRenderConfig ++ marker ++
      (partsBefore before ++ partHeader label (inner ++ marker ++ rest) ++ inner) ∧
    partsText (epochFields epoch') = rest ++ partsAfter after

theorem partsText_append (before : List (String × String)) (label value : String)
    (after : List (String × String)) :
    partsText (before ++ (label, value) :: after) =
      partsBefore before ++ partHeader label value ++ value ++ partsAfter after := by
  rw [← String.toList_inj, toList_partsText, List.map_append, List.map_cons, joined_append]
  simp [toList_partsBefore, toList_partHeader, toList_partsAfter, letters, field]

/-- A forged base folds to the same. -/
theorem Forges.fold_eq {base base' : String} (h : Forges base epoch base' epoch') :
    foldM0ContentEpoch base epoch = foldM0ContentEpoch base' epoch' := by
  obtain ⟨before, label, inner, rest, after, hfields, rfl, hrest⟩ := h
  rw [foldM0ContentEpoch, foldM0ContentEpoch, hfields, partsText_append, hrest]
  simp [String.append_assoc]

/-- A forged base is longer. -/
theorem Forges.lt_length {base base' : String} (h : Forges base epoch base' epoch') :
    base.length < base'.length := by
  obtain ⟨-, -, -, -, -, -, rfl, -⟩ := h
  have hmarker : marker.length = 9 := by decide
  simp only [String.length_append]
  omega

/-- The letters of a fold. -/
theorem toList_fold (base : String) (epoch : M0ContentEpoch) :
    (foldM0ContentEpoch base epoch).toList =
      base.toList ++ marker.toList ++ (partsText (epochFields epoch)).toList ++ [']'] := by
  simp [foldM0ContentEpoch]

/-- The marker: its first letter, and the others. -/
theorem toList_marker : marker.toList = '|' :: "m0epoch[".toList := by decide

/-- A marker in the text of the fields stands in the value of a field. -/
theorem exists_field_of_marker {u v : List Char}
    (h : (partsText (epochFields epoch)).toList = u ++ marker.toList ++ v) :
    ∃ before label inner rest after,
      epochFields epoch = before ++ (label, inner ++ marker ++ rest) :: after ∧
      u = (partsBefore before ++ partHeader label (inner ++ marker ++ rest) ++ inner).toList ∧
      v = (rest ++ partsAfter after).toList := by
  rw [toList_partsText, toList_marker] at h
  have hsep : epochFormat.separator ∉ '|' :: "m0epoch[".toList := by decide
  obtain ⟨before, label, inner, rest, after, hfields, rfl, rfl⟩ :=
    epochFormat.exists_value_of_marker hsep
      (by decide) (fun n hn => absurd (Nat.isDigit_of_mem_toDigits (by decide) (by decide) hn)
        (by decide)) (notMem_label (by decide)) h
  obtain ⟨front, tail, heq, rfl, htail⟩ := List.map_eq_append_iff.mp hfields
  obtain ⟨⟨name, value⟩, back, rfl, hf, rfl⟩ := List.map_eq_cons_iff.mp htail
  obtain ⟨rfl, hvalue⟩ := Prod.mk.inj hf
  have hread : value = String.ofList inner ++ marker ++ String.ofList rest := by
    rw [← String.toList_inj, hvalue]
    simp [toList_marker]
  subst hread
  refine ⟨front, name, String.ofList inner, String.ofList rest, back, heq, ?_, ?_⟩
  · simp [toList_partsBefore, toList_partHeader, toList_marker]
  · simp [toList_partsAfter]

/-- **Two folds that are equal** are of one pair, or the longer base is forged. -/
theorem eq_or_forges_of_fold_eq {base base' : String}
    (h : foldM0ContentEpoch base epoch = foldM0ContentEpoch base' epoch')
    (hlength : base.length ≤ base'.length) :
    base = base' ∧ epoch = epoch' ∨ Forges base epoch base' epoch' := by
  have hletters := congrArg String.toList h
  rw [toList_fold, toList_fold, List.append_left_inj, List.append_assoc, List.append_assoc]
    at hletters
  -- the shorter base is the front of the longer
  obtain ⟨z, hz, hrest⟩ : ∃ z, base'.toList = base.toList ++ z ∧
      marker.toList ++ (partsText (epochFields epoch)).toList =
        z ++ (marker.toList ++ (partsText (epochFields epoch')).toList) := by
    rcases List.append_eq_append_iff.mp hletters with ⟨z, hz, hrest⟩ | ⟨z, hz, hrest⟩
    · exact ⟨z, hz, hrest⟩
    · obtain rfl : z = [] := by
        have hle := congrArg List.length hz
        rw [List.length_append, String.length_toList, String.length_toList] at hle
        exact List.eq_nil_of_length_eq_zero (by omega)
      exact ⟨[], by simpa using hz.symm, by simpa using hrest.symm⟩
  by_cases hnil : z = []
  · subst hnil
    rw [List.append_nil] at hz
    obtain rfl : base' = base := String.toList_inj.mp hz
    rw [List.nil_append, List.append_cancel_left_eq] at hrest
    exact Or.inl ⟨rfl, partsText_injective (String.toList_inj.mp hrest)⟩
  · right
    rw [toList_marker, ← List.append_assoc] at hrest
    obtain ⟨x, rfl, hparts⟩ := Prefixed.append_of_marker (by decide) hnil hrest.symm
    rw [← toList_marker] at hz hparts
    obtain ⟨before, label, inner, rest, after, hfields, rfl, hv⟩ := exists_field_of_marker hparts
    refine ⟨before, label, inner, rest, after, hfields, ?_, String.toList_inj.mp hv⟩
    rw [← String.toList_inj, hz]
    simp [String.toList_append]

/-- **Two different pairs fold apart**, exactly when neither base forges the other's fold. -/
theorem fold_distinguishes_iff (base : String) (epoch : M0ContentEpoch) (base' : String)
    (epoch' : M0ContentEpoch) :
    ((base, epoch) ≠ (base', epoch') →
        foldM0ContentEpoch base epoch ≠ foldM0ContentEpoch base' epoch') ↔
      ¬Forges base epoch base' epoch' ∧ ¬Forges base' epoch' base epoch := by
  constructor
  · intro h
    constructor
    · intro hforges
      have hlt := hforges.lt_length
      refine h (fun heq => ?_) hforges.fold_eq
      rw [(Prod.mk.inj heq).1] at hlt
      omega
    · intro hforges
      have hlt := hforges.lt_length
      refine h (fun heq => ?_) hforges.fold_eq.symm
      rw [(Prod.mk.inj heq).1] at hlt
      omega
  · rintro ⟨hfree, hfree'⟩ hne heq
    rcases Nat.le_total base.length base'.length with hle | hle
    · rcases eq_or_forges_of_fold_eq heq hle with ⟨rfl, rfl⟩ | hforges
      · exact hne rfl
      · exact hfree hforges
    · rcases eq_or_forges_of_fold_eq heq.symm hle with ⟨rfl, rfl⟩ | hforges
      · exact hne rfl
      · exact hfree' hforges

/-- An upgrade state with a marker in it, before a base that goes on to that marker. -/
theorem fold_forged :
    let base := "b"
    let epoch : M0ContentEpoch := { upgradeState := "|m0epoch[ws:0:;upg:0:" }
    let base' := "b|m0epoch[ws:0:;upg:21:"
    let epoch' : M0ContentEpoch := {}
    (base, epoch) ≠ (base', epoch') ∧
      foldM0ContentEpoch base epoch = foldM0ContentEpoch base' epoch' := by
  decide +kernel

end MagicContext.Render
