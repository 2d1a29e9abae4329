import MagicContext.Scope.Predicates

/-!
# Equivalence of scopes

Two scopes are equivalent when each subsumes the other.  The code answers `true` without asking
when the two are structurally equal and hold no placeholder, which is right only as long as a
scope subsumes itself.

## What is here

* `CanonicalScope.same`, `scopeEquivalent` — structural equality, and the test with its fast path.
* `CanonicalScope.Canonical` — the scopes the constructors make; `nonvoid_of_canonical` — their
  sets are not empty, which transitivity needs: a set of no values is subsumed by every set and
  subsumes none.
* `termSubsumes_of_same`, `termSubsumes_trans` — the order on terms, across the kinds of terms.
* `scopeEquivalent_equivalence` — subsumption is a preorder on the scopes without placeholders, and
  equivalence is what it makes of it.
-/

namespace MagicContext.Scope

open CanonicalScope

variable {sv : SemVer}

/-! ## Structural equality -/

/-- Equality of values; version requirements are compared by their text. -/
def TermValue.same : TermValue sv → TermValue sv → Bool
  | .exact u, .exact v => u == v
  | .set s, .set t => decide (s = t)
  | .range start stop, .range start' stop' => start == start' && stop == stop'
  | .versionRange p, .versionRange q => p.raw == q.raw
  | .gitReachable g, .gitReachable h => g == h
  | .redactedPlaceholder, .redactedPlaceholder => true
  | _, _ => false

/-- Equality of optional values. -/
def sameTerm : Option (TermValue sv) → Option (TermValue sv) → Bool
  | none, none => true
  | some t, some u => t.same u
  | _, _ => false

variable {a b : CanonicalScope sv} {oracle : GraphOracle}

namespace CanonicalScope

/-- `a == b`, field by field. -/
def same (a b : CanonicalScope sv) : Bool :=
  Dimension.all.all fun d =>
    sameTerm (a.terms d) (b.terms d) &&
      decide (a.versionRequirements d = b.versionRequirements d) &&
      decide (a.versionIntervals d = b.versionIntervals d) && a.present d == b.present d

/-- `has_placeholder`. -/
def hasPlaceholder (s : CanonicalScope sv) : Bool :=
  Dimension.all.any fun d => match s.terms d with
    | some .redactedPlaceholder => true
    | _ => false

/-- The scope is one that a constructor makes. -/
def Canonical (s : CanonicalScope sv) : Prop :=
  s = unconstrained ∨ ∃ specs, fromTermSpecs specs = .ok s

theorem same_refl (a : CanonicalScope sv) : a.same a = true := by
  have hterm : ∀ t : Option (TermValue sv), sameTerm t t = true := by
    rintro (_ | t)
    · rfl
    · cases t <;> simp [sameTerm, TermValue.same]
  simp [same, hterm]

theorem sameTerm_of_same (h : a.same b = true) (d : Dimension) :
    sameTerm (a.term d) (b.term d) = true := by
  have hd := List.all_eq_true.mp h d (Dimension.mem_all d)
  simp only [Bool.and_eq_true] at hd
  exact hd.1.1.1

theorem hasPlaceholder_eq_false {s : CanonicalScope sv} :
    s.hasPlaceholder = false ↔ ∀ d, s.term d ≠ some .redactedPlaceholder := by
  simp only [hasPlaceholder, List.any_eq_false, term]
  refine ⟨fun h d hd => ?_, fun h d _ => ?_⟩
  · simpa [hd] using h d (Dimension.mem_all d)
  · rcases ht : s.terms d with _ | t
    · simp
    · cases t with
      | redactedPlaceholder => exact absurd ht (h d)
      | exact | set | range | versionRange | gitReachable => simp

end CanonicalScope

/-- Mutual subsumption, with a fast path for scopes that are the same and hold no placeholder. -/
def scopeEquivalent (a b : CanonicalScope sv) (oracle : GraphOracle) : Bool :=
  if a.same b && !a.hasPlaceholder then true
  else scopeSubsumes a b oracle && scopeSubsumes b a oracle

/-! ## What the constructors make -/

/-- Not a set without values. -/
def TermValue.Nonvoid : TermValue sv → Prop
  | .set values => values.Nonempty
  | _ => True

theorem nonvoid_of_decodeTermValue {d : Dimension} {row : ScopeTermSpec} {value : TermValue sv}
    (h : decodeTermValue sv d row = .ok value) : value.Nonvoid := by
  cases value with
  | exact | range | versionRange | gitReachable | redactedPlaceholder => trivial
  | set values =>
    rw [decodeTermValue] at h
    split at h
    case h_2 =>
      split at h
      · cases h
      split at h
      · cases h
      rename_i stored _
      split at h
      · cases h
      rename_i hempty
      split at h
      · cases h
      · obtain rfl : stored.toFinset = values := by simpa using h
        have hne : stored ≠ [] := by
          rintro rfl
          simp at hempty
        exact List.toFinset_nonempty_iff stored |>.mpr hne
    all_goals
      -- the rows of the other operators decode to no set
      repeat' split at h
      all_goals cases h

namespace CanonicalScope

/-- What every decoded value satisfies, every term of a canonical scope satisfies. -/
theorem forall_of_canonical {P : TermValue sv → Prop}
    (hP : ∀ d row value, decodeTermValue sv d row = .ok value → P value) {s : CanonicalScope sv}
    (h : s.Canonical) : ∀ d t, s.term d = some t → P t := by
  have hrun : ∀ (specs : List ScopeTermSpec) (s₀ : CanonicalScope sv),
      (∀ d t, s₀.term d = some t → P t) →
      specs.foldlM pushSpec s₀ = .ok s → ∀ d t, s.term d = some t → P t := by
    intro specs
    induction specs with
    | nil =>
      intro s₀ hs₀ hfold
      obtain rfl := Except.ok.inj hfold
      exact hs₀
    | cons row specs ih =>
      intro s₀ hs₀ hfold
      rw [List.foldlM_cons] at hfold
      rcases hpush : s₀.pushSpec row with e | s₁
      · rw [hpush] at hfold
        cases hfold
      rw [hpush] at hfold
      refine ih s₁ (fun e t ht => ?_) hfold
      rw [pushSpec] at hpush
      split at hpush
      · cases hpush
      rename_i d _
      split at hpush
      · cases hpush
      rename_i value hvalue
      split at hpush
      · obtain rfl := Except.ok.inj hpush
        rw [term, push] at ht
        rcases eq_or_ne e d with rfl | hne
        · obtain rfl : value = t := by simpa using ht
          exact hP _ row value hvalue
        · exact hs₀ e t (by simpa [term, hne] using ht)
      · cases hpush
  rcases h with rfl | ⟨specs, hspecs⟩
  · exact fun d t ht => by cases ht
  · exact hrun specs unconstrained (fun d t ht => by cases ht) hspecs

theorem nonvoid_of_canonical {s : CanonicalScope sv} (h : s.Canonical) :
    ∀ d t, s.term d = some t → t.Nonvoid :=
  forall_of_canonical (fun _ _ _ => nonvoid_of_decodeTermValue) h

end CanonicalScope

/-! ## The order on terms -/

@[simp] theorem rangeBoundLe_self (a : Option String) : rangeBoundLe a a = true := by
  cases a <;> simp [rangeBoundLe]

@[simp] theorem rangeBoundGe_self (a : Option String) : rangeBoundGe a a = true := by
  cases a <;> simp [rangeBoundGe]

theorem rangeBoundLe_trans {a b c : Option String} (hab : rangeBoundLe a b = true)
    (hbc : rangeBoundLe b c = true) : rangeBoundLe a c = true := by
  rcases a with _ | a
  · rfl
  rcases b with _ | b
  · cases hab
  rcases c with _ | c
  · cases hbc
  · simp only [rangeBoundLe, decide_eq_true_eq] at hab hbc ⊢
    exact le_trans hab hbc

theorem rangeBoundGe_trans {a b c : Option String} (hab : rangeBoundGe a b = true)
    (hbc : rangeBoundGe b c = true) : rangeBoundGe a c = true := by
  rcases a with _ | a
  · rfl
  rcases b with _ | b
  · cases hab
  rcases c with _ | c
  · cases hbc
  · simp only [rangeBoundGe, decide_eq_true_eq] at hab hbc ⊢
    exact le_trans hbc hab

/-- A term that is no placeholder subsumes what is the same. -/
theorem termSubsumes_of_same {ta tb : TermValue sv} (h : ta.same tb = true)
    (hta : ta ≠ .redactedPlaceholder) (oracle : GraphOracle) :
    termSubsumes ta tb oracle = some true := by
  rcases ta with u | s | ⟨start, stop⟩ | p | g | _ <;>
    rcases tb with v | t | ⟨start', stop'⟩ | q | g' | _ <;>
    simp only [TermValue.same, beq_iff_eq, decide_eq_true_eq, Bool.and_eq_true, Bool.false_eq_true,
      ne_eq, not_true_eq_false] at h hta
  · simp [termSubsumes, h]
  · simp [termSubsumes, h]
  · simp [termSubsumes, h.1, h.2]
  · simp [termSubsumes, h]
  · simp [termSubsumes, h]

/-- **Subsumption of terms is transitive**, across the kinds of terms. -/
theorem termSubsumes_trans (hsv : sv.Documented) (horacle : oracle.Frozen)
    {ta tb tc : TermValue sv} (hc : tc.Nonvoid) (hab : termSubsumes ta tb oracle = some true)
    (hbc : termSubsumes tb tc oracle = some true) : termSubsumes ta tc oracle = some true := by
  cases tc with
  | redactedPlaceholder => cases tb <;> simp [termSubsumes] at hbc
  | exact v =>
    rw [termSubsumes_exact] at hbc ⊢
    exact holds_of_termSubsumes hsv hab hbc
  | set s =>
    rw [termSubsumes_set hc] at hbc ⊢
    exact fun v hv => holds_of_termSubsumes hsv hab (hbc v hv)
  | range rs re =>
    -- only a range subsumes a range
    cases tb with
    | range qs qe =>
      cases ta with
      | range ps pe =>
        simp only [termSubsumes, Option.some_inj, Bool.and_eq_true] at hab hbc ⊢
        exact ⟨rangeBoundLe_trans hab.1 hbc.1, rangeBoundGe_trans hab.2 hbc.2⟩
      | exact | set | versionRange | gitReachable | redactedPlaceholder =>
        simp [termSubsumes] at hab
    | exact | set | versionRange | gitReachable | redactedPlaceholder => simp [termSubsumes] at hbc
  | versionRange r =>
    cases tb with
    | versionRange q =>
      cases ta with
      | versionRange p =>
        have hinterval : ∀ {p q : VersionSpec sv},
            termSubsumes (.versionRange p) (.versionRange q) oracle = some true ↔
              p.raw = q.raw ∨ ∃ I J, parsedVersionReqInterval p.req = some I ∧
                parsedVersionReqInterval q.req = some J ∧ I.contains J = true := by
          intro p q
          rw [termSubsumes, versionReqInterval_raw, versionReqInterval_raw]
          by_cases hraw : p.raw = q.raw
          · simp [hraw]
          · simp [hraw, Option.bind_eq_some_iff]
        rw [hinterval] at hab hbc ⊢
        rcases hab with hpq | ⟨I, J, hI, hJ, hIJ⟩
        · rcases hbc with hqr | ⟨J, K, hJ, hK, hJK⟩
          · exact .inl (hpq.trans hqr)
          · exact .inr ⟨J, K, VersionSpec.req_eq_of_raw_eq hpq ▸ hJ, hK, hJK⟩
        · rcases hbc with hqr | ⟨J', K, hJ', hK, hJK⟩
          · exact .inr ⟨I, J, hI, VersionSpec.req_eq_of_raw_eq hqr ▸ hJ, hIJ⟩
          · obtain rfl := Option.some.inj (hJ.symm.trans hJ')
            exact .inr ⟨I, K, hI, hK, OptInterval.contains_trans hIJ hJK⟩
      | exact | set | range | gitReachable | redactedPlaceholder => simp [termSubsumes] at hab
    | exact | set | range | gitReachable | redactedPlaceholder => simp [termSubsumes] at hbc
  | gitReachable f =>
    cases tb with
    | gitReachable g =>
      cases ta with
      | gitReachable h =>
        have hreach : ∀ {x y : String},
            @termSubsumes sv (.gitReachable x) (.gitReachable y) oracle = some true ↔
              x = y ∨ oracle.isAncestorOrEqual x y = some true := by
          intro x y
          rw [termSubsumes]
          by_cases hxy : x = y <;> simp [hxy]
        rw [hreach] at hab hbc ⊢
        rcases hab with rfl | hab
        · exact hbc
        rcases hbc with rfl | hbc
        · exact .inr hab
        · exact .inr (horacle.trans hab hbc)
      | exact | set | range | versionRange | redactedPlaceholder => simp [termSubsumes] at hab
    | exact | set | range | versionRange | redactedPlaceholder => simp [termSubsumes] at hbc

/-! ## The order on scopes -/

theorem scopeSubsumes_of_same (h : a.same b = true) (ha : a.hasPlaceholder = false)
    (oracle : GraphOracle) : scopeSubsumes a b oracle = true := by
  rw [scopeSubsumes_eq_true]
  intro d ta hta
  have hd := sameTerm_of_same h d
  rw [hta] at hd
  rcases htb : b.term d with _ | tb
  · rw [htb] at hd
    cases hd
  · rw [htb] at hd
    have hne : ta ≠ .redactedPlaceholder := fun heq =>
      hasPlaceholder_eq_false.mp ha d (heq ▸ hta)
    exact ⟨tb, rfl, termSubsumes_of_same hd hne oracle⟩

theorem same_symm (h : a.same b = true) : b.same a = true := by
  have hterm : ∀ t u : Option (TermValue sv), sameTerm t u = sameTerm u t := by
    rintro (_ | t) (_ | u)
    · rfl
    · rfl
    · rfl
    · cases t <;> cases u <;> simp [sameTerm, TermValue.same, Bool.beq_comm, eq_comm]
  rw [same, List.all_eq_true] at h ⊢
  intro d hd
  have hall := h d hd
  simp only [Bool.and_eq_true, decide_eq_true_eq, beq_iff_eq] at hall ⊢
  obtain ⟨⟨⟨ht, hreq⟩, hint⟩, hpres⟩ := hall
  exact ⟨⟨⟨hterm _ _ ▸ ht, hreq.symm⟩, hint.symm⟩, hpres.symm⟩

theorem hasPlaceholder_of_same (h : a.same b = true) (ha : a.hasPlaceholder = false) :
    b.hasPlaceholder = false := by
  rw [hasPlaceholder_eq_false] at ha ⊢
  intro d hb
  have hd := sameTerm_of_same h d
  rw [hb] at hd
  rcases hta : a.term d with _ | ta
  · rw [hta] at hd
    cases hd
  · rw [hta] at hd
    cases ta with
    | redactedPlaceholder => exact ha d hta
    | exact | set | range | versionRange | gitReachable => simp [sameTerm, TermValue.same] at hd

theorem scopeSubsumes_trans (hsv : sv.Documented) (horacle : oracle.Frozen)
    {a b c : CanonicalScope sv} (hc : c.Canonical) (hab : scopeSubsumes a b oracle = true)
    (hbc : scopeSubsumes b c oracle = true) : scopeSubsumes a c oracle = true := by
  rw [scopeSubsumes_eq_true] at hab hbc ⊢
  intro d ta hta
  obtain ⟨tb, htb, hsub⟩ := hab d ta hta
  obtain ⟨tc, htc, hsub'⟩ := hbc d tb htb
  have hnonvoid := nonvoid_of_canonical hc d tc htc
  exact ⟨tc, htc, termSubsumes_trans hsv horacle hnonvoid hsub hsub'⟩

/-- The fast path does not disagree with the slow one. -/
theorem scopeEquivalent_iff : scopeEquivalent a b oracle = true ↔
      scopeSubsumes a b oracle = true ∧ scopeSubsumes b a oracle = true := by
  rw [scopeEquivalent]
  split
  · rename_i hfast
    obtain ⟨hsame, hplain⟩ : a.same b = true ∧ a.hasPlaceholder = false := by simpa using hfast
    refine iff_of_true rfl ⟨scopeSubsumes_of_same hsame hplain oracle, ?_⟩
    exact scopeSubsumes_of_same (same_symm hsame) (hasPlaceholder_of_same hsame hplain) oracle
  · exact Bool.and_eq_true_iff

/-- A canonical scope without placeholders. -/
def PlainScope (sv : SemVer) : Type :=
  { s : CanonicalScope sv // s.Canonical ∧ s.hasPlaceholder = false }

/-- **Subsumption is a preorder, and equivalence is mutual subsumption**: on the canonical scopes
without placeholders, over one frozen commit graph. -/
theorem scopeEquivalent_equivalence (sv : SemVer) (hsv : sv.Documented) (oracle : GraphOracle)
    (horacle : oracle.Frozen) :
    (∀ a : PlainScope sv, scopeSubsumes a.1 a.1 oracle = true) ∧
      (∀ a b c : PlainScope sv, scopeSubsumes a.1 b.1 oracle = true →
        scopeSubsumes b.1 c.1 oracle = true → scopeSubsumes a.1 c.1 oracle = true) ∧
      (∀ a b : CanonicalScope sv, scopeEquivalent a b oracle = true ↔
        scopeSubsumes a b oracle = true ∧ scopeSubsumes b a oracle = true) ∧
      Equivalence fun a b : PlainScope sv => scopeEquivalent a.1 b.1 oracle = true := by
  have hrefl : ∀ a : PlainScope sv, scopeSubsumes a.1 a.1 oracle = true := fun a =>
    scopeSubsumes_of_same a.1.same_refl a.2.2 oracle
  have htrans : ∀ a b c : PlainScope sv, scopeSubsumes a.1 b.1 oracle = true →
      scopeSubsumes b.1 c.1 oracle = true → scopeSubsumes a.1 c.1 oracle = true := fun _ _ c =>
    scopeSubsumes_trans hsv horacle c.2.1
  refine ⟨hrefl, htrans, fun a b => scopeEquivalent_iff, ?_, ?_, ?_⟩
  · exact fun a => scopeEquivalent_iff.mpr ⟨hrefl a, hrefl a⟩
  · intro a b hab
    exact scopeEquivalent_iff.mpr (scopeEquivalent_iff.mp hab).symm
  · intro a b c hab hbc
    obtain ⟨hab, hba⟩ := scopeEquivalent_iff.mp hab
    obtain ⟨hbc, hcb⟩ := scopeEquivalent_iff.mp hbc
    exact scopeEquivalent_iff.mpr ⟨htrans a b c hab hbc, htrans c b a hcb hba⟩

/-! ### One graph that is known whole -/

/-- **A total ancestor relation**: every question is answered, from one acyclic graph. -/
structure GraphOracle.Total (oracle : GraphOracle) : Prop where
  answers : ∃ ancestorOrEqual : String → String → Prop, IsPartialOrder String ancestorOrEqual ∧
    ∀ x y, ∃ known, oracle.isAncestorOrEqual x y = some known ∧ (known = true ↔ ancestorOrEqual x y)

theorem GraphOracle.Total.frozen (h : oracle.Total) : oracle.Frozen where
  answers := by
    obtain ⟨ancestor, horder, hanswers⟩ := h.answers
    refine ⟨ancestor, horder, fun x y known hknown => ?_⟩
    obtain ⟨known', hknown', hiff⟩ := hanswers x y
    obtain rfl := Option.some.inj (hknown.symm.trans hknown')
    exact hiff
  decides := by
    obtain ⟨ancestor, -, hanswers⟩ := h.answers
    intro x y z _ _
    obtain ⟨known, hknown, -⟩ := hanswers x z
    rw [hknown]
    rfl

/-- Commits of which none is an ancestor of another. -/
def unrelatedGraph : GraphOracle := ⟨fun x y => some (x == y)⟩

theorem unrelatedGraph_total : unrelatedGraph.Total where
  answers := ⟨Eq, isPartialOrder_eq, fun x y => ⟨x == y, rfl, beq_iff_eq⟩⟩

theorem scopeEquivalent_equivalence_unrelated :
    Equivalence fun a b : PlainScope exampleSemVer =>
      scopeEquivalent a.1 b.1 unrelatedGraph = true :=
  (scopeEquivalent_equivalence exampleSemVer exampleSemVer_documented unrelatedGraph
    unrelatedGraph_total.frozen).2.2.2

end MagicContext.Scope
