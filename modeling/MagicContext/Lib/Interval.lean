import Mathlib.Order.Interval.Set.Basic

/-!
# Intervals with optional, open or closed bounds

An interval over a linear order, given by a lower and an upper bound, each of which may be missing
and, when present, says whether it belongs to the interval.  The set it denotes is `toSet`; the
four computable questions asked of intervals (`isEmpty`, `intersect`, `contains`, `overlaps`) are
related to that set here.

## What is here

* **Soundness in any order.**  Over a discrete order an interval such as the open `(1, 2)` denotes
  the empty set although `isEmpty` says `false`, so `contains` and `overlaps` are decision
  procedures in one direction: `contains` never claims too much (`mem_of_contains`), and `overlaps`
  never misses a common point (`overlaps_of_mem`).
* **Intersection is exact** (`mem_intersect`), whichever bounds are missing.
* **Exactness where there is room.**  When points lie between any two bounds and on either side of
  all of them (`Roomy`), the questions are answered exactly: `isEmpty_eq_false_iff`,
  `contains_iff_subset`, `overlaps_iff_exists`.
* `map` — an interval read in another order through a strictly monotone map, which changes none of
  the answers.
-/

namespace OptInterval

/-- A bound of an interval: a value, and whether it is included.  `none` is no bound. -/
abbrev Bound (α : Type*) := Option (α × Bool)

end OptInterval

/-- An interval given by its two bounds. -/
structure OptInterval (α : Type*) where
  /-- The lower bound. -/
  lo : OptInterval.Bound α
  /-- The upper bound. -/
  hi : OptInterval.Bound α
  deriving DecidableEq

namespace OptInterval

variable {α : Type*} [LinearOrder α]

/-! ## The set an interval denotes -/

/-- `v` is on the right side of a lower bound. -/
def Above : Bound α → α → Prop
  | none, _ => True
  | some (b, true), v => b ≤ v
  | some (b, false), v => b < v

/-- `v` is on the right side of an upper bound. -/
def Below : Bound α → α → Prop
  | none, _ => True
  | some (b, true), v => v ≤ b
  | some (b, false), v => v < b

/-- The values between the two bounds. -/
def toSet (I : OptInterval α) : Set α := {v | Above I.lo v ∧ Below I.hi v}

instance : Membership α (OptInterval α) := ⟨fun I v => v ∈ I.toSet⟩

variable {I J : OptInterval α} {v b : α} {inc : Bool}

theorem mem_def : v ∈ I ↔ Above I.lo v ∧ Below I.hi v := Iff.rfl

@[simp] theorem above_none (v : α) : Above (none : Bound α) v := trivial

@[simp] theorem below_excl : Below (some (b, false)) v ↔ v < b := Iff.rfl

theorem Above.le (h : Above (some (b, inc)) v) : b ≤ v := by
  cases inc with
  | true => exact h
  | false => exact le_of_lt h

theorem Below.le (h : Below (some (b, inc)) v) : v ≤ b := by
  cases inc with
  | true => exact h
  | false => exact le_of_lt h

/-! ## The operations -/

/-- The interval with no bounds. -/
def full : OptInterval α := ⟨none, none⟩

/-- The bounds leave no room between them. -/
def isEmpty (I : OptInterval α) : Bool :=
  match I.lo, I.hi with
  | some (lo, loInc), some (hi, hiInc) =>
    decide (hi < lo) || (decide (lo = hi) && !(loInc && hiInc))
  | _, _ => false

/-- The tighter of two lower bounds. -/
def maxLo : Bound α → Bound α → Bound α
  | none, bound => bound
  | bound, none => bound
  | some (a, aInc), some (b, bInc) =>
    if b < a ∨ (a = b ∧ aInc = false ∧ bInc = true) then some (a, aInc) else some (b, bInc)

/-- The tighter of two upper bounds. -/
def minHi : Bound α → Bound α → Bound α
  | none, bound => bound
  | bound, none => bound
  | some (a, aInc), some (b, bInc) =>
    if a < b ∨ (a = b ∧ aInc = false ∧ bInc = true) then some (a, aInc) else some (b, bInc)

/-- The common part of two intervals. -/
def intersect (I J : OptInterval α) : OptInterval α := ⟨maxLo I.lo J.lo, minHi I.hi J.hi⟩

/-- `a` is no tighter than `b` as a lower bound. -/
def loCovers : Bound α → Bound α → Bool
  | none, _ => true
  | some _, none => false
  | some (a, aInc), some (b, bInc) => decide (a < b) || (decide (a = b) && (aInc || !bInc))

/-- `a` is no tighter than `b` as an upper bound. -/
def hiCovers : Bound α → Bound α → Bool
  | none, _ => true
  | some _, none => false
  | some (a, aInc), some (b, bInc) => decide (b < a) || (decide (a = b) && (aInc || !bInc))

/-- `I` contains `J`, judged by the bounds. -/
def contains (I J : OptInterval α) : Bool :=
  if J.isEmpty then true
  else if I.isEmpty then false
  else loCovers I.lo J.lo && hiCovers I.hi J.hi

/-- The upper bound `hi` ends before the lower bound `lo` begins. -/
def endsBefore : Bound α → Bound α → Bool
  | some (hi, hiInc), some (lo, loInc) =>
    decide (hi < lo) || (decide (hi = lo) && !(hiInc && loInc))
  | _, _ => false

/-- The two intervals can have a common point, judged by the bounds. -/
def overlaps (I J : OptInterval α) : Bool :=
  if I.isEmpty || J.isEmpty then false
  else !endsBefore I.hi J.lo && !endsBefore J.hi I.lo

/-! ## What the operations say about the set -/

@[simp] theorem mem_full (v : α) : v ∈ (full : OptInterval α) := ⟨trivial, trivial⟩

theorem isEmpty_eq (I : OptInterval α) : I.isEmpty = endsBefore I.hi I.lo := by
  rcases I with ⟨_ | ⟨-, -⟩, _ | ⟨-, -⟩⟩
  · rfl
  · rfl
  · rfl
  · simp only [isEmpty, endsBefore, eq_comm, Bool.and_comm]

/-- An upper bound that ends before a lower bound begins admits no value the lower one admits. -/
theorem not_above_of_endsBefore {hi lo : Bound α} (h : endsBefore hi lo = true) (hv : Below hi v) :
    ¬ Above lo v := by
  intro ha
  rcases hi with _ | ⟨hi, hiInc⟩
  · exact Bool.noConfusion h
  rcases lo with _ | ⟨lo, loInc⟩
  · exact Bool.noConfusion h
  simp only [endsBefore, Bool.or_eq_true, decide_eq_true_eq, Bool.and_eq_true] at h
  rcases h with h | ⟨rfl, h⟩
  · exact absurd (ha.le.trans hv.le) (not_le.mpr h)
  · -- the two bounds meet in one value, which one of the two flags excludes
    cases hiInc with
    | false => exact absurd ha.le (not_le.mpr hv)
    | true =>
      cases loInc with
      | false => exact absurd hv (not_le.mpr ha)
      | true => exact Bool.noConfusion h

theorem not_mem_of_isEmpty (h : I.isEmpty = true) (v : α) : ¬ v ∈ I := by
  rw [isEmpty_eq] at h
  exact fun hv => not_above_of_endsBefore h hv.2 hv.1

theorem above_maxLo {a b : Bound α} : Above (maxLo a b) v ↔ Above a v ∧ Above b v := by
  rcases a with _ | ⟨a, aInc⟩
  · simp [maxLo]
  rcases b with _ | ⟨b, bInc⟩
  · simp [maxLo]
  simp only [maxLo]
  split
  · rename_i h
    refine ⟨fun ha => ⟨ha, ?_⟩, fun ha => ha.1⟩
    rcases h with h | ⟨rfl, rfl, rfl⟩
    · have hb : b < v := lt_of_lt_of_le h ha.le
      cases bInc with
      | true => exact le_of_lt hb
      | false => exact hb
    · exact le_of_lt ha
  · rename_i h
    simp only [not_or, not_lt, not_and] at h
    refine ⟨fun hb => ⟨?_, hb⟩, fun ha => ha.2⟩
    rcases lt_or_eq_of_le h.1 with hab | rfl
    · have ha : a < v := lt_of_lt_of_le hab hb.le
      cases aInc with
      | true => exact le_of_lt ha
      | false => exact ha
    · cases aInc with
      | true => exact hb.le
      | false =>
        cases bInc with
        | true => exact absurd rfl (h.2 rfl rfl)
        | false => exact hb

/-- Upper bounds are the lower bounds of the reversed order. -/
theorem below_minHi {a b : Bound α} : Below (minHi a b) v ↔ Below a v ∧ Below b v := by
  have hdual := above_maxLo (α := αᵒᵈ) (a := a) (b := b) (v := v)
  rcases a with _ | ⟨a, _ | _⟩ <;> rcases b with _ | ⟨b, _ | _⟩ <;> exact hdual

/-- **The intersection is exact.** -/
theorem mem_intersect : v ∈ I.intersect J ↔ v ∈ I ∧ v ∈ J := by
  simp only [mem_def, intersect, above_maxLo, below_minHi]
  exact and_and_and_comm

theorem Above.of_loCovers {a b : Bound α} (h : loCovers a b = true) (hb : Above b v) :
    Above a v := by
  rcases a with _ | ⟨a, aInc⟩
  · trivial
  rcases b with _ | ⟨b, bInc⟩
  · exact Bool.noConfusion h
  simp only [loCovers, Bool.or_eq_true, decide_eq_true_eq, Bool.and_eq_true] at h
  rcases h with h | ⟨rfl, h⟩
  · have ha : a < v := lt_of_lt_of_le h hb.le
    cases aInc with
    | true => exact le_of_lt ha
    | false => exact ha
  · cases aInc with
    | true => exact hb.le
    | false =>
      cases bInc with
      | true => exact absurd h (by decide)
      | false => exact hb

theorem Below.of_hiCovers {a b : Bound α} (h : hiCovers a b = true) (hb : Below b v) :
    Below a v := by
  have hdual := Above.of_loCovers (α := αᵒᵈ) (a := a) (b := b) (v := v)
  rcases a with _ | ⟨a, _ | _⟩ <;> rcases b with _ | ⟨b, _ | _⟩ <;> exact hdual h hb

/-- **Containment never claims too much.** -/
theorem mem_of_contains (h : I.contains J = true) (hv : v ∈ J) : v ∈ I := by
  have hJ : J.isEmpty = false := by
    by_contra hne
    exact not_mem_of_isEmpty (Bool.not_eq_false _ ▸ hne) v hv
  simp only [contains, hJ, Bool.false_eq_true, if_false] at h
  split at h
  · exact Bool.noConfusion h
  · rw [Bool.and_eq_true] at h
    exact ⟨Above.of_loCovers h.1 hv.1, Below.of_hiCovers h.2 hv.2⟩

/-- **Overlap never misses a common point.** -/
theorem overlaps_of_mem (hI : v ∈ I) (hJ : v ∈ J) : I.overlaps J = true := by
  have hne : ∀ K : OptInterval α, v ∈ K → K.isEmpty = false := fun K hK => by
    by_contra hK'
    exact not_mem_of_isEmpty (Bool.not_eq_false _ ▸ hK') v hK
  have hbefore : ∀ {hi lo : Bound α}, Below hi v → Above lo v → endsBefore hi lo = false :=
    fun hb ha => by
      by_contra h
      exact not_above_of_endsBefore (Bool.not_eq_false _ ▸ h) hb ha
  simp [overlaps, hne I hI, hne J hJ, hbefore hI.2 hJ.1, hbefore hJ.2 hI.1]

theorem overlaps_comm (I J : OptInterval α) : I.overlaps J = J.overlaps I := by
  simp only [overlaps, Bool.or_comm, Bool.and_comm]

/-! ## The order that containment puts on bounds -/

theorem loCovers_trans {a b c : Bound α} (hab : loCovers a b = true) (hbc : loCovers b c = true) :
    loCovers a c = true := by
  rcases a with _ | ⟨a, aInc⟩
  · rfl
  rcases b with _ | ⟨b, bInc⟩
  · exact Bool.noConfusion hab
  rcases c with _ | ⟨c, cInc⟩
  · exact Bool.noConfusion hbc
  simp only [loCovers, Bool.or_eq_true, decide_eq_true_eq, Bool.and_eq_true] at hab hbc ⊢
  rcases hab with hab | ⟨rfl, hab⟩
  · rcases hbc with hbc | ⟨rfl, -⟩
    · exact .inl (hab.trans hbc)
    · exact .inl hab
  · rcases hbc with hbc | ⟨rfl, hbc⟩
    · exact .inl hbc
    · refine .inr ⟨rfl, ?_⟩
      revert hab hbc
      cases aInc <;> cases bInc <;> simp

/-- Upper bounds are the lower bounds of the reversed order. -/
theorem hiCovers_dual (a b : Bound α) : hiCovers a b = loCovers (α := αᵒᵈ) a b := by
  rcases a with _ | ⟨-, -⟩ <;> rcases b with _ | ⟨-, -⟩ <;> rfl

theorem hiCovers_trans {a b c : Bound α} (hab : hiCovers a b = true) (hbc : hiCovers b c = true) :
    hiCovers a c = true := by
  rw [hiCovers_dual] at hab hbc ⊢
  exact loCovers_trans (α := αᵒᵈ) hab hbc

/-- **Containment is transitive**, also through intervals that are empty. -/
theorem contains_trans {I J K : OptInterval α} (hIJ : I.contains J = true)
    (hJK : J.contains K = true) : I.contains K = true := by
  rw [contains] at hIJ hJK ⊢
  split
  · rfl
  rename_i hK
  rw [if_neg hK] at hJK
  split at hJK
  · exact Bool.noConfusion hJK
  rename_i hJ
  rw [if_neg hJ] at hIJ
  split at hIJ
  · exact Bool.noConfusion hIJ
  rename_i hI
  rw [if_neg hI]
  rw [Bool.and_eq_true] at hIJ hJK ⊢
  exact ⟨loCovers_trans hIJ.1 hJK.1, hiCovers_trans hIJ.2 hJK.2⟩

/-! ## Where there is room between the bounds -/

/-- The points `S` leave room between the values `B`: some lie between any two of them, and on
either side of each. -/
structure Roomy (B S : Set α) : Prop where
  inhabited : S.Nonempty
  bounds : B ⊆ S
  between : ∀ a ∈ B, ∀ b ∈ B, a < b → ∃ v ∈ S, a < v ∧ v < b
  before : ∀ a ∈ B, ∃ v ∈ S, v < a
  after : ∀ a ∈ B, ∃ v ∈ S, a < v

/-- The values of the bounds an interval has. -/
def BoundsIn (B : Set α) (I : OptInterval α) : Prop :=
  (∀ b inc, I.lo = some (b, inc) → b ∈ B) ∧ ∀ b inc, I.hi = some (b, inc) → b ∈ B

theorem maxLo_choice (a b : Bound α) : maxLo a b = a ∨ maxLo a b = b := by
  rcases a with _ | ⟨-, -⟩
  · exact .inr rfl
  rcases b with _ | ⟨-, -⟩
  · exact .inl rfl
  · rw [maxLo]
    split
    · exact .inl rfl
    · exact .inr rfl

theorem minHi_choice (a b : Bound α) : minHi a b = a ∨ minHi a b = b := by
  rcases a with _ | ⟨-, -⟩
  · exact .inr rfl
  rcases b with _ | ⟨-, -⟩
  · exact .inl rfl
  · rw [minHi]
    split
    · exact .inl rfl
    · exact .inr rfl

theorem BoundsIn.intersect {B : Set α} (hI : I.BoundsIn B) (hJ : J.BoundsIn B) :
    (I.intersect J).BoundsIn B := by
  refine ⟨fun b inc h => ?_, fun b inc h => ?_⟩
  · rcases maxLo_choice I.lo J.lo with heq | heq
    · exact hI.1 b inc (heq.symm.trans h)
    · exact hJ.1 b inc (heq.symm.trans h)
  · rcases minHi_choice I.hi J.hi with heq | heq
    · exact hI.2 b inc (heq.symm.trans h)
    · exact hJ.2 b inc (heq.symm.trans h)

section

variable {B S : Set α}

/-- **With room between the bounds, an interval is empty only when its bounds say so.** -/
theorem isEmpty_eq_false_iff (hroom : Roomy B S) (hI : I.BoundsIn B) :
    I.isEmpty = false ↔ ∃ v ∈ S, v ∈ I := by
  constructor
  · intro hne
    rcases I with ⟨_ | ⟨lo, loInc⟩, _ | ⟨hi, hiInc⟩⟩
    · obtain ⟨v, hv⟩ := hroom.inhabited
      exact ⟨v, hv, trivial, trivial⟩
    · obtain ⟨v, hv, hlt⟩ := hroom.before hi (hI.2 hi hiInc rfl)
      cases hiInc with
      | true => exact ⟨v, hv, trivial, hlt.le⟩
      | false => exact ⟨v, hv, trivial, hlt⟩
    · obtain ⟨v, hv, hlt⟩ := hroom.after lo (hI.1 lo loInc rfl)
      cases loInc with
      | true => exact ⟨v, hv, hlt.le, trivial⟩
      | false => exact ⟨v, hv, hlt, trivial⟩
    · have hlo : lo ∈ B := hI.1 lo loInc rfl
      have hhi : hi ∈ B := hI.2 hi hiInc rfl
      simp only [isEmpty, Bool.or_eq_false_iff, decide_eq_false_iff_not, not_lt] at hne
      rcases lt_or_eq_of_le hne.1 with hlt | rfl
      · obtain ⟨v, hv, hlov, hvhi⟩ := hroom.between lo hlo hi hhi hlt
        refine ⟨v, hv, ?_, ?_⟩
        · cases loInc with
          | true => exact hlov.le
          | false => exact hlov
        · cases hiInc with
          | true => exact hvhi.le
          | false => exact hvhi
      · -- the two bounds meet in one value, which both of them include
        obtain ⟨rfl, rfl⟩ : loInc = true ∧ hiInc = true := by simpa using hne.2
        exact ⟨lo, hroom.bounds hlo, le_refl lo, le_refl lo⟩
  · rintro ⟨v, -, hv⟩
    by_contra hne
    exact not_mem_of_isEmpty (Bool.not_eq_false _ ▸ hne) v hv

variable {a : α}

/-- The points that a lower bound leaves out are those below the same bound turned around. -/
theorem below_turned : Below (some (a, !inc)) v ↔ ¬ Above (some (a, inc)) v := by
  cases inc with
  | true => exact not_le.symm
  | false => exact not_lt.symm

theorem above_turned : Above (some (a, !inc)) v ↔ ¬ Below (some (a, inc)) v := by
  cases inc with
  | true => exact not_le.symm
  | false => exact not_lt.symm

theorem endsBefore_turned_lo (lo : Bound α) :
    endsBefore (some (a, !inc)) lo = loCovers (some (a, inc)) lo := by
  rcases lo with _ | ⟨-, bInc⟩
  · rfl
  · cases inc <;> cases bInc <;> rfl

theorem endsBefore_turned_hi (hi : Bound α) :
    endsBefore hi (some (a, !inc)) = hiCovers (some (a, inc)) hi := by
  rcases hi with _ | ⟨-, bInc⟩
  · rfl
  · cases inc <;> cases bInc <;> simp [endsBefore, hiCovers, eq_comm]

/-- **With room between the bounds, containment is inclusion.** -/
theorem contains_iff_subset (hroom : Roomy B S) (hI : I.BoundsIn B) (hJ : J.BoundsIn B) :
    I.contains J = true ↔ ∀ v ∈ S, v ∈ J → v ∈ I := by
  refine ⟨fun h v _ hv => mem_of_contains h hv, fun h => ?_⟩
  rw [contains]
  split
  · rfl
  rename_i hJne
  rw [Bool.not_eq_true] at hJne
  obtain ⟨v, hvS, hvJ⟩ := (isEmpty_eq_false_iff hroom hJ).mp hJne
  have hIne : I.isEmpty = false := (isEmpty_eq_false_iff hroom hI).mpr ⟨v, hvS, h v hvS hvJ⟩
  rw [if_neg (by simp [hIne]), Bool.and_eq_true]
  -- what `I` leaves out on one side is an interval too; it would meet `J` if `J` reached there
  have hmeets : ∀ K : OptInterval α, K.BoundsIn B → (∀ v, v ∈ K → ¬ v ∈ I) →
      (J.intersect K).isEmpty = true := by
    intro K hK hout
    by_contra hne
    obtain ⟨w, hwS, hw⟩ := (isEmpty_eq_false_iff hroom (hJ.intersect hK)).mp (by simpa using hne)
    obtain ⟨hwJ, hwK⟩ := mem_intersect.mp hw
    exact hout w hwK (h w hwS hwJ)
  rw [isEmpty_eq] at hJne
  constructor
  · rcases hlo : I.lo with _ | ⟨a, inc⟩
    · rfl
    have hempty := hmeets ⟨none, some (a, !inc)⟩
      ⟨fun _ _ hb => (nomatch hb), fun b _ hb => by
        obtain ⟨rfl, -⟩ := Prod.mk.inj (Option.some.inj hb)
        exact hI.1 a inc hlo⟩
      fun w hw hwI => below_turned.mp hw.2 (hlo ▸ hwI.1)
    rw [isEmpty_eq, intersect] at hempty
    have hmax : maxLo J.lo none = J.lo := by rcases J.lo with _ | b <;> rfl
    rw [hmax] at hempty
    rcases minHi_choice J.hi (some (a, !inc)) with heq | heq
    · rw [heq, hJne] at hempty
      exact Bool.noConfusion hempty
    · rw [heq, endsBefore_turned_lo] at hempty
      exact hempty
  · rcases hhi : I.hi with _ | ⟨a, inc⟩
    · rfl
    have hempty := hmeets ⟨some (a, !inc), none⟩
      ⟨fun b _ hb => by
        obtain ⟨rfl, -⟩ := Prod.mk.inj (Option.some.inj hb)
        exact hI.2 a inc hhi, fun _ _ hb => (nomatch hb)⟩
      fun w hw hwI => above_turned.mp hw.1 (hhi ▸ hwI.2)
    rw [isEmpty_eq, intersect] at hempty
    have hmin : minHi J.hi none = J.hi := by rcases J.hi with _ | b <;> rfl
    rw [hmin] at hempty
    rcases maxLo_choice J.lo (some (a, !inc)) with heq | heq
    · rw [heq, hJne] at hempty
      exact Bool.noConfusion hempty
    · rw [heq, endsBefore_turned_hi] at hempty
      exact hempty

/-- **With room between the bounds, overlap is a common point.** -/
theorem overlaps_iff_exists (hroom : Roomy B S) (hI : I.BoundsIn B) (hJ : J.BoundsIn B) :
    I.overlaps J = true ↔ ∃ v ∈ S, v ∈ I ∧ v ∈ J := by
  refine ⟨fun h => ?_, fun ⟨v, _, hvI, hvJ⟩ => overlaps_of_mem hvI hvJ⟩
  rw [overlaps] at h
  split at h
  · exact Bool.noConfusion h
  rename_i hne
  obtain ⟨hIne, hJne⟩ : I.isEmpty = false ∧ J.isEmpty = false := by simpa using hne
  obtain ⟨hIJ, hJI⟩ : endsBefore I.hi J.lo = false ∧ endsBefore J.hi I.lo = false := by
    simpa using h
  rw [isEmpty_eq] at hIne hJne
  have hboth : (I.intersect J).isEmpty = false := by
    rw [isEmpty_eq, intersect]
    rcases minHi_choice I.hi J.hi with hhi | hhi <;> rcases maxLo_choice I.lo J.lo with hlo | hlo <;>
      rw [hhi, hlo] <;> assumption
  obtain ⟨v, hvS, hv⟩ := (isEmpty_eq_false_iff hroom (hI.intersect hJ)).mp hboth
  exact ⟨v, hvS, mem_intersect.mp hv⟩

end

/-! ## Reading an interval in another order -/

section

variable {β : Type*} {f : α → β}

/-- The interval with its bounds mapped. -/
def map (f : α → β) (I : OptInterval α) : OptInterval β :=
  ⟨I.lo.map (Prod.map f id), I.hi.map (Prod.map f id)⟩

omit [LinearOrder α] in
theorem BoundsIn.map {B : Set α} (h : I.BoundsIn B) (f : α → β) : (I.map f).BoundsIn (f '' B) := by
  have hbound : ∀ bound : Bound α, (∀ b inc, bound = some (b, inc) → b ∈ B) →
      ∀ b inc, bound.map (Prod.map f id) = some (b, inc) → b ∈ f '' B := by
    rintro (_ | ⟨a, aInc⟩) hB b inc heq
    · cases heq
    · obtain ⟨rfl, -⟩ := Prod.mk.inj (Option.some.inj heq)
      exact ⟨a, hB a aInc rfl, rfl⟩
  exact ⟨hbound I.lo h.1, hbound I.hi h.2⟩

variable [LinearOrder β] (hf : StrictMono f)
include hf

theorem mem_map : f v ∈ I.map f ↔ v ∈ I := by
  have habove : ∀ b : Bound α, Above (b.map (Prod.map f id)) (f v) ↔ Above b v := by
    rintro (_ | ⟨b, _ | _⟩)
    · exact Iff.rfl
    · exact hf.lt_iff_lt
    · exact hf.le_iff_le
  have hbelow : ∀ b : Bound α, Below (b.map (Prod.map f id)) (f v) ↔ Below b v := by
    rintro (_ | ⟨-, _ | _⟩)
    · exact Iff.rfl
    · exact hf.lt_iff_lt
    · exact hf.le_iff_le
  exact and_congr (habove I.lo) (hbelow I.hi)

theorem endsBefore_map (hi lo : Bound α) :
    endsBefore (hi.map (Prod.map f id)) (lo.map (Prod.map f id)) = endsBefore hi lo := by
  rcases hi with _ | ⟨-, -⟩ <;> rcases lo with _ | ⟨-, -⟩ <;>
    simp [endsBefore, hf.lt_iff_lt, hf.injective.eq_iff]

theorem loCovers_map (a b : Bound α) :
    loCovers (a.map (Prod.map f id)) (b.map (Prod.map f id)) = loCovers a b := by
  rcases a with _ | ⟨-, -⟩ <;> rcases b with _ | ⟨-, -⟩ <;>
    simp [loCovers, hf.lt_iff_lt, hf.injective.eq_iff]

theorem hiCovers_map (a b : Bound α) :
    hiCovers (a.map (Prod.map f id)) (b.map (Prod.map f id)) = hiCovers a b := by
  rcases a with _ | ⟨-, -⟩ <;> rcases b with _ | ⟨-, -⟩ <;>
    simp [hiCovers, hf.lt_iff_lt, hf.injective.eq_iff]

theorem isEmpty_map (I : OptInterval α) : (I.map f).isEmpty = I.isEmpty := by
  rw [isEmpty_eq, isEmpty_eq]
  exact endsBefore_map hf I.hi I.lo

theorem contains_map (I J : OptInterval α) : (I.map f).contains (J.map f) = I.contains J := by
  rw [contains, contains, isEmpty_map hf, isEmpty_map hf]
  simp only [map, loCovers_map hf, hiCovers_map hf]

theorem overlaps_map (I J : OptInterval α) : (I.map f).overlaps (J.map f) = I.overlaps J := by
  rw [overlaps, overlaps, isEmpty_map hf, isEmpty_map hf]
  simp only [map, endsBefore_map hf]

end

end OptInterval
