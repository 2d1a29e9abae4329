import Mathlib.Data.Finset.Insert
import MagicContext.Scope.Version

/-!
# Canonical scopes

A scope says where a claim holds.  It is stored as rows of text (`ScopeTermSpec`) and used in
canonical form (`CanonicalScope`): at most one decoded value for each of ten dimensions.

## What is here

* `decodeTermValue` — the checks a stored row passes, in the source's order, and the error each of
  them ends in (`ScopeFormError`).
* `CanonicalScope` — the canonical form.  The source caches the parsed requirement and its
  interval beside each version term; that the caches agree with the term is a field of the
  structure, so a scope with a stale cache cannot be built.
* `CanonicalScope.fromTermSpecs` — the only way to build a constrained scope: each row is decoded
  and added by `CanonicalScope.push`, which asks for a free dimension.
-/

namespace MagicContext.Scope

/-! ## Dimensions -/

/-- The ten scope dimensions. -/
inductive Dimension where
  | domain | project | entity | branch | environment | region | deployment | requestClass
  | callerClass | platform
  deriving DecidableEq

/-- The dimensions, in index order. -/
def Dimension.all : List Dimension :=
  [.domain, .project, .entity, .branch, .environment, .region, .deployment, .requestClass,
    .callerClass, .platform]

/-- The stored text of a dimension. -/
def Dimension.asStr : Dimension → String
  | .domain => "domain"
  | .project => "project"
  | .entity => "entity"
  | .branch => "branch"
  | .environment => "environment"
  | .region => "region"
  | .deployment => "deployment"
  | .requestClass => "request_class"
  | .callerClass => "caller_class"
  | .platform => "platform"

/-- The dimension stored as `value`. -/
def Dimension.fromStored (value : String) : Option Dimension :=
  Dimension.all.find? fun dimension => dimension.asStr == value

theorem Dimension.mem_all (d : Dimension) : d ∈ Dimension.all := by
  cases d <;> decide

/-! ## Stored terms and decoded values -/

/-- One stored scope term.  The operator selects which of the other columns may be set. -/
structure ScopeTermSpec where
  /-- The stored dimension and operator. -/
  dimension : String
  operator : String
  /-- The value columns. -/
  exactValue : Option String := none
  setValues : Option (List String) := none
  rangeStart : Option String := none
  rangeEnd : Option String := none
  versionRange : Option String := none
  gitOid : Option String := none
  gitStartOid : Option String := none
  gitEndOid : Option String := none
  payload : Option String := none

/-- A parsed version requirement, with its text and its interval. -/
structure VersionSpec (sv : SemVer) where
  /-- The text of the requirement. -/
  raw : String
  /-- The requirement. -/
  req : VersionReq
  /-- The interval of the requirement, where it has one. -/
  interval : Option VersionInterval
  /-- The requirement is what the text parses to. -/
  parsed : sv.parseReq raw = some req
  /-- The interval is that of the requirement. -/
  interval_eq : interval = parsedVersionReqInterval req

def VersionSpec.ofParsed {sv : SemVer} (raw : String) (req : VersionReq)
    (h : sv.parseReq raw = some req) : VersionSpec sv :=
  ⟨raw, req, parsedVersionReqInterval req, h, rfl⟩

/-- `VersionSpec::parse`. -/
def VersionSpec.parse (sv : SemVer) (raw : String) : Option (VersionSpec sv) :=
  match h : sv.parseReq raw with
  | some req => some (.ofParsed raw req h)
  | none => none

theorem VersionSpec.req_eq_of_raw_eq {sv : SemVer} {p q : VersionSpec sv} (h : p.raw = q.raw) :
    p.req = q.req := by
  have hp := p.parsed
  rw [h, q.parsed] at hp
  exact (Option.some.inj hp).symm

/-- One decoded term value. -/
inductive TermValue (sv : SemVer) where
  | exact (value : String)
  | set (values : Finset String)
  /-- Half-open `[start, end)` in the order of the text; `none` is unbounded. -/
  | range (start stop : Option String)
  | versionRange (spec : VersionSpec sv)
  /-- The descendants of a commit. -/
  | gitReachable (oid : String)
  /-- A value the write path replaced by a redaction token. -/
  | redactedPlaceholder

/-- The version requirement of a value. -/
def TermValue.versionSpec {sv : SemVer} : TermValue sv → Option (VersionSpec sv)
  | .versionRange spec => some spec
  | _ => none

/-- Why a scope failed to decode. -/
inductive ScopeFormError where
  | unknownDimension (dimension : String)
  | unknownOperator (operator : String)
  | duplicateDimension (dimension : Dimension)
  | missingValue (dimension : Dimension)
  | conflictingColumns (dimension : Dimension)
  | invalidRange (dimension : Dimension)
  | invalidVersionRange (dimension : Dimension)
  | invalidOid (dimension : Dimension)
  | emptySet (dimension : Dimension)

/-- The text the operator's own redaction leaves behind. -/
def operatorRedactionPlaceholder : String := "[redacted:operator]"

/-- `contains_redaction_token`. -/
def containsRedactionToken (text : String) : Bool :=
  Text.containsText "_REDACTED>".toList text.toList ||
    Text.containsText "<REDACTED:".toList text.toList

/-- The text holds a redaction token of either kind. -/
def containsRedactionPlaceholder (value : String) : Bool :=
  containsRedactionToken value || Text.containsText operatorRedactionPlaceholder.toList value.toList

/-- Which value columns of a term are set. -/
def ScopeTermSpec.present (term : ScopeTermSpec) : List Bool :=
  [term.exactValue.isSome, term.setValues.isSome,
    term.rangeStart.isSome || term.rangeEnd.isSome, term.versionRange.isSome,
    term.gitOid.isSome, term.gitStartOid.isSome || term.gitEndOid.isSome, term.payload.isSome]

/-- A column is set that the operator does not own. -/
def ScopeTermSpec.extraColumns (term : ScopeTermSpec) (allowed : List Bool) : Bool :=
  (term.present.zip allowed).any fun (present, allowed) => present && !allowed

/-- Decodes the value of one stored term. -/
def decodeTermValue (sv : SemVer) (dimension : Dimension) (term : ScopeTermSpec) :
    Except ScopeFormError (TermValue sv) :=
  match term.operator with
  | "exact" =>
    if term.extraColumns [true, false, false, false, false, false, false] then
      .error (.conflictingColumns dimension)
    else match term.exactValue.filter (fun value => !value.isEmpty) with
      | none => .error (.missingValue dimension)
      | some value =>
        if containsRedactionPlaceholder value then .ok .redactedPlaceholder
        else .ok (.exact value)
  | "set" =>
    if term.extraColumns [false, true, false, false, false, false, false] then
      .error (.conflictingColumns dimension)
    else match term.setValues with
      | none => .error (.missingValue dimension)
      | some values =>
        if values.isEmpty || values.any (·.isEmpty) then .error (.emptySet dimension)
        else if values.any containsRedactionPlaceholder then .ok .redactedPlaceholder
        else .ok (.set values.toFinset)
  | "range" =>
    if term.extraColumns [false, false, true, false, false, false, false] then
      .error (.conflictingColumns dimension)
    else if term.rangeStart.isNone && term.rangeEnd.isNone then .error (.missingValue dimension)
    else if term.rangeStart == some "" || term.rangeEnd == some "" then
      .error (.invalidRange dimension)
    else if term.rangeStart.any containsRedactionPlaceholder ||
        term.rangeEnd.any containsRedactionPlaceholder then .ok .redactedPlaceholder
    else match term.rangeStart, term.rangeEnd with
      | some start, some stop =>
        if stop ≤ start then .error (.invalidRange dimension)
        else .ok (.range (some start) (some stop))
      | start, stop => .ok (.range start stop)
  | "version_range" =>
    if term.extraColumns [false, false, false, true, false, false, false] then
      .error (.conflictingColumns dimension)
    else match term.versionRange.filter (fun value => !value.isEmpty) with
      | none => .error (.missingValue dimension)
      | some raw =>
        if containsRedactionPlaceholder raw then .ok .redactedPlaceholder
        else match VersionSpec.parse sv raw with
          | none => .error (.invalidVersionRange dimension)
          | some spec => .ok (.versionRange spec)
  | "git_reachable" =>
    if term.extraColumns [false, false, false, false, true, false, false] then
      .error (.conflictingColumns dimension)
    else match term.gitOid with
      | none => .error (.missingValue dimension)
      | some oid =>
        if !Text.isLowerHexOid oid then .error (.invalidOid dimension)
        else .ok (.gitReachable oid)
  | other => .error (.unknownOperator other)

/-! ## The canonical form -/

/-- A canonical scope: at most one term per dimension, with the version caches of the terms. -/
structure CanonicalScope (sv : SemVer) where
  /-- The term of each dimension. -/
  terms : Dimension → Option (TermValue sv)
  /-- The parsed requirement of each version term. -/
  versionRequirements : Dimension → Option VersionReq
  /-- The interval of each version term that has one. -/
  versionIntervals : Dimension → Option VersionInterval
  /-- The occupied dimensions. -/
  present : Dimension → Bool
  /-- The cached requirements are those of the terms. -/
  versionRequirements_eq : ∀ d,
    versionRequirements d = ((terms d).bind TermValue.versionSpec).map VersionSpec.req
  /-- The cached intervals are those of the terms. -/
  versionIntervals_eq : ∀ d,
    versionIntervals d = ((terms d).bind TermValue.versionSpec).bind VersionSpec.interval
  /-- The occupied dimensions are the ones with a term. -/
  present_eq : ∀ d, present d = (terms d).isSome

namespace CanonicalScope

variable {sv : SemVer}

/-- The empty scope, which constrains nothing. -/
def unconstrained : CanonicalScope sv where
  terms := fun _ => none
  versionRequirements := fun _ => none
  versionIntervals := fun _ => none
  present := fun _ => false
  versionRequirements_eq := fun _ => rfl
  versionIntervals_eq := fun _ => rfl
  present_eq := fun _ => rfl

variable (s : CanonicalScope sv)

/-- Adds the term of a free dimension. -/
def push (d : Dimension) (value : TermValue sv) (hfree : s.terms d = none) : CanonicalScope sv where
  terms := Function.update s.terms d (some value)
  versionRequirements := match value.versionSpec with
    | some spec => Function.update s.versionRequirements d (some spec.req)
    | none => s.versionRequirements
  versionIntervals := match value.versionSpec with
    | some spec => match spec.interval with
      | some interval => Function.update s.versionIntervals d (some interval)
      | none => s.versionIntervals
    | none => s.versionIntervals
  present := Function.update s.present d true
  versionRequirements_eq := by
    intro e
    have hs := s.versionRequirements_eq e
    rcases eq_or_ne e d with rfl | hne
    · rw [hfree] at hs
      cases hv : value.versionSpec <;> simp [hv, hs]
    · cases hv : value.versionSpec <;> simp [hne, hs]
  versionIntervals_eq := by
    intro e
    have hs := s.versionIntervals_eq e
    rcases eq_or_ne e d with rfl | hne
    · rw [hfree] at hs
      rcases hv : value.versionSpec with _ | spec
      · simp [hv, hs]
      · cases hi : spec.interval <;> simp [hv, hi, hs]
    · rcases hv : value.versionSpec with _ | spec
      · simp [hne, hs]
      · cases hi : spec.interval <;> simp [hne, hs, hi]
  present_eq := by
    intro e
    rcases eq_or_ne e d with rfl | hne
    · simp
    · simp [hne, s.present_eq e]

/-- Decodes one stored row and adds it. -/
def pushSpec (term : ScopeTermSpec) : Except ScopeFormError (CanonicalScope sv) :=
  match Dimension.fromStored term.dimension with
  | none => .error (.unknownDimension term.dimension)
  | some dimension => match decodeTermValue sv dimension term with
    | .error e => .error e
    | .ok value =>
      if hfree : s.terms dimension = none then .ok (s.push dimension value hfree)
      else .error (.duplicateDimension dimension)

/-- Decodes stored rows, in any order, into canonical form. -/
def fromTermSpecs (terms : List ScopeTermSpec) : Except ScopeFormError (CanonicalScope sv) :=
  terms.foldlM pushSpec unconstrained

/-- The term of one dimension. -/
def term (d : Dimension) : Option (TermValue sv) := s.terms d

/-- The cached requirement of one dimension. -/
def versionRequirement (d : Dimension) : Option VersionReq :=
  s.versionRequirements d

/-- The cached interval of one dimension. -/
def versionInterval (d : Dimension) : Option VersionInterval :=
  s.versionIntervals d

/-- The present terms, in the order of the dimensions. -/
def termList : List (Dimension × TermValue sv) :=
  Dimension.all.filterMap fun d => if s.present d then (s.terms d).map fun t => (d, t) else none

@[simp] theorem mem_termList {s : CanonicalScope sv} {d : Dimension} {t : TermValue sv} :
    (d, t) ∈ s.termList ↔ s.term d = some t := by
  simp only [termList, List.mem_filterMap, s.present_eq, term]
  constructor
  · rintro ⟨e, -, he⟩
    rcases ht : s.terms e with _ | u
    · simp [ht] at he
    · rw [ht] at he
      obtain ⟨rfl, rfl⟩ : e = d ∧ u = t := by simpa using he
      exact ht
  · intro ht
    exact ⟨d, Dimension.mem_all d, by simp [ht]⟩

theorem versionRequirement_eq {s : CanonicalScope sv} {d : Dimension} {spec : VersionSpec sv}
    (h : s.term d = some (.versionRange spec)) : s.versionRequirement d = some spec.req := by
  rw [versionRequirement, s.versionRequirements_eq, ← term, h]
  rfl

theorem versionInterval_eq {s : CanonicalScope sv} {d : Dimension} {spec : VersionSpec sv}
    (h : s.term d = some (.versionRange spec)) :
    s.versionInterval d = parsedVersionReqInterval spec.req := by
  rw [versionInterval, s.versionIntervals_eq, ← term, h]
  exact spec.interval_eq

end CanonicalScope

end MagicContext.Scope
