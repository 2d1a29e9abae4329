import Mathlib.Data.Prod.Lex
import MagicContext.Lib.Interval
import MagicContext.Text

/-!
# Version requirements and the intervals they denote

Scope terms may constrain a dimension by a version requirement such as `>=1.2, <2`.  Parsing
versions and requirements, and deciding whether a requirement admits a version, belong to the
`semver` crate; everything the kernel computes around it is here.

## What is here

* `SemVer` — the crate's operations as parameters, and `SemVer.Documented`, what its documentation
  says about them: what `parse` produces is well formed, and a requirement without pre-release
  comparators admits a release exactly when every one of its comparators does.  What a single
  comparator admits (`Comparator.Admits`) is stated in the documentation's own terms.
* `VersionReading` — how the kernel reads the text of a query value: a semantic version whose
  pre-release has been moved aside, or a platform version coerced into three numbers.
* `comparatorInterval`, `parsedVersionReqInterval` — the interval a comparator and a requirement
  are read as.
* `mem_parsedVersionReqInterval` — the payoff: where a requirement has an interval at all, the
  interval holds exactly the releases the requirement admits.
-/

namespace MagicContext.Scope

open Text Word

/-! ## What the kernel uses of the crate -/

/-- A version without pre-release and build metadata, ordered component by component.  Every
interval bound is a `Version::new` value, which is one of these. -/
abbrev Release := Nat ×ₗ Nat ×ₗ Nat

/-- `Version::new`, as far as the order of versions is concerned. -/
def release (major minor patch : Nat) : Release := toLex (major, toLex (minor, patch))

/-- A semantic version. -/
structure Version where
  /-- The three numeric components. -/
  major : Nat
  minor : Nat
  patch : Nat
  /-- The pre-release identifiers; empty for a release. -/
  pre : String
  /-- The build metadata, which no requirement looks at. -/
  build : String

/-- The numeric part of a version. -/
def Version.core (v : Version) : Release := release v.major v.minor v.patch

/-- The comparator operators.  The enumeration is open to extension, which `unknown` stands for. -/
inductive Op where
  | exact | greater | greaterEq | less | lessEq | tilde | caret | wildcard | unknown
  deriving DecidableEq

/-- One comparator of a requirement. -/
structure Comparator where
  /-- The operator. -/
  op : Op
  /-- The components, of which the last two may be left out. -/
  major : Nat
  minor : Option Nat
  patch : Option Nat
  /-- The pre-release identifiers; empty when none are named. -/
  pre : String
  deriving DecidableEq

/-- A requirement: the conjunction of its comparators. -/
structure VersionReq where
  /-- The comparators, all of which must admit a version. -/
  comparators : List Comparator
  deriving DecidableEq

/-- The operations of the `semver` crate that the kernel calls. -/
structure SemVer where
  /-- `Version::parse`. -/
  parseVersion : String → Option Version
  /-- `VersionReq::parse`. -/
  parseReq : String → Option VersionReq
  /-- `VersionReq::matches`. -/
  reqMatches : VersionReq → Version → Bool
  /-- `BuildMetadata::new`. -/
  newBuild : String → Option String

/-- What the documentation of the operators says a comparator admits of the releases.  A component
that is left out widens the comparison to everything that agrees on the others. -/
def Comparator.Admits (c : Comparator) (v : Release) : Prop :=
  let least := release c.major (c.minor.getD 0) (c.patch.getD 0)
  -- the first release past the ones that agree with every component given
  let past := match c.minor, c.patch with
    | none, _ => release (c.major + 1) 0 0
    | some minor, none => release c.major (minor + 1) 0
    | some minor, some patch => release c.major minor (patch + 1)
  match c.op with
  | .exact | .wildcard => least ≤ v ∧ v < past
  | .greater => past ≤ v
  | .greaterEq => least ≤ v
  | .less => v < least
  | .lessEq => v < past
  | .tilde => least ≤ v ∧ match c.minor with
    | none => v < release (c.major + 1) 0 0
    | some minor => v < release c.major (minor + 1) 0
  | .caret => least ≤ v ∧ match c.minor, c.patch with
    | none, _ => v < release (c.major + 1) 0 0
    | some minor, none =>
      if 0 < c.major then v < release (c.major + 1) 0 0 else v < release 0 (minor + 1) 0
    | some minor, some patch =>
      if 0 < c.major then v < release (c.major + 1) 0 0
      else if 0 < minor then v < release 0 (minor + 1) 0
      else v < release 0 0 (patch + 1)
  | .unknown => False

instance (c : Comparator) (v : Release) : Decidable (c.Admits v) := by
  rcases c with ⟨_ | _ | _ | _ | _ | _ | _ | _ | _, -, _ | -, _ | -, -⟩ <;>
    (dsimp only [Comparator.Admits]; infer_instance)

/-- A comparator gives a patch only together with a minor component. -/
def Comparator.WellFormed (c : Comparator) : Prop := c.patch.isSome → c.minor.isSome

/-- A requirement names no pre-release. -/
def VersionReq.ReleaseOnly (req : VersionReq) : Prop := ∀ c ∈ req.comparators, c.pre = ""

/-- **The crate's documented behaviour**, as far as the kernel relies on it. -/
structure SemVer.Documented (sv : SemVer) : Prop where
  /-- Parsed requirements are well formed. -/
  parseReq_wellFormed : ∀ {raw : String} {req : VersionReq}, sv.parseReq raw = some req →
    ∀ c ∈ req.comparators, c.WellFormed
  /-- A requirement that names no pre-release admits a release exactly when all its comparators
  do. -/
  reqMatches_release : ∀ {req : VersionReq} {v : Version}, req.ReleaseOnly → v.pre = "" →
    (sv.reqMatches req v = true ↔ ∀ c ∈ req.comparators, c.Admits v.core)

/-! ## Reading the text of a query value -/

/-- The text of a version, read for comparison. -/
structure VersionReading where
  /-- The version with its pre-release moved into the build metadata. -/
  comparable : Version
  /-- The version as written, when it has a pre-release. -/
  prerelease : Option Version

variable (sv : SemVer)

/-- Moves the pre-release of a version in front of its build metadata. -/
def demotePreToBuild (version : Version) : Option Version :=
  if version.pre.isEmpty then some version
  else
    let merged :=
      if version.build.isEmpty then version.pre else version.pre ++ "." ++ version.build
    (sv.newBuild merged).map fun build => { version with build := build, pre := "" }

/-- The numeric components at the front of a platform version, at most `limit`, and what follows
the digits of a component that is not all digits.  `none` when a component has no reading. -/
def platformComponents (limit : Nat) (numeric : List Char) :
    Option (List Nat × Option (List Char)) :=
  match limit with
  | 0 => some ([], none)
  | limit + 1 =>
    if numeric.isEmpty then some ([], none)
    else
      let part := numeric.takeWhile (· != '.')
      match parseU64 part with
      | some value =>
        (platformComponents limit (numeric.drop (part.length + 1))).map
          fun (values, suffix) => (value :: values, suffix)
      | none =>
        let digits := part.takeWhile isAsciiDigit
        if digits.isEmpty || digits.length == part.length then none
        else
          (parseU64 digits).map fun value =>
            ([value], some ((numeric.drop digits.length).dropWhile
              fun c => c == '-' || c == '.' || c == '_'))

/-- A character build metadata may hold. -/
def validBuildChar (c : Char) : Bool := isAsciiAlphanumeric c || c == '-' || c == '.'

/-- Reads text that is no semantic version as a platform version: one to three numbers, and a
suffix kept as build metadata. -/
def coercePlatformVersion (raw : List Char) : Option Version :=
  let core := match splitOnce '+' raw with
    | some (core, _) => core
    | none => raw
  let (numeric, suffix) := match splitOnce '-' core with
    | some (numeric, suffix) => (numeric, some suffix)
    | none => (core, none)
  match platformComponents 3 numeric with
  | none => none
  | some (components, trailingSuffix) =>
    if components.isEmpty then none
    else
      let version (build : String) : Version :=
        { major := components.getD 0 0, minor := components.getD 1 0,
          patch := components.getD 2 0, pre := "", build := build }
      match trailingSuffix.or suffix with
      | some (c :: cs) =>
        let sanitized := (c :: cs).map fun c => if validBuildChar c then c else '-'
        (sv.newBuild (String.ofList sanitized)).map version
      | _ => some (version "")

/-- `VersionReading::parse`. -/
def VersionReading.parse (raw : String) : Option VersionReading :=
  let raw := trim raw.toList
  if raw.isEmpty then none
  else match sv.parseVersion (String.ofList raw) with
    | some version =>
      (demotePreToBuild sv version).map fun comparable =>
        { comparable := comparable
          prerelease := if version.pre.isEmpty then none else some version }
    | none =>
      (coercePlatformVersion sv raw).map fun comparable =>
        { comparable := comparable, prerelease := none }

/-- Some comparator of the requirement names a pre-release. -/
def reqNamesPrerelease (req : VersionReq) : Bool := req.comparators.any fun c => !c.pre.isEmpty

/-- `VersionReading::matches`: pre-releases count only against requirements that name one. -/
def VersionReading.matches (reading : VersionReading) (req : VersionReq) : Bool :=
  match reading.prerelease with
  | some version =>
    if reqNamesPrerelease req then sv.reqMatches req version
    else sv.reqMatches req reading.comparable
  | none => sv.reqMatches req reading.comparable

/-- Whether a parsed requirement admits the text `value`; `none` when the text is no version. -/
def parsedVersionReqMatches (req : VersionReq) (value : String) : Option Bool :=
  (VersionReading.parse sv value).map fun reading => reading.matches sv req

/-- `version_req_matches`: the same, from the text of the requirement. -/
def versionReqMatches (raw value : String) : Option Bool :=
  (sv.parseReq raw).bind fun req => parsedVersionReqMatches sv req value

/-! ## The interval of a requirement -/

/-- A half-open-ish interval of versions; bounds are `(version, inclusive)`. -/
abbrev VersionInterval := OptInterval Release

/-- Maps one comparator to an interval; `none` when it has no interval reading. -/
def comparatorInterval (c : Comparator) : Option VersionInterval :=
  if !c.pre.isEmpty then none
  else
    let loExact := release c.major (c.minor.getD 0) (c.patch.getD 0)
    match c.op with
    | .exact | .wildcard => match c.minor, c.patch with
      | some mi, some pa =>
        some ⟨some (release c.major mi pa, true), some (release c.major mi pa, true)⟩
      | some mi, none => (checkedSucc mi).map fun mi' =>
        ⟨some (release c.major mi 0, true), some (release c.major mi' 0, false)⟩
      | none, _ => (checkedSucc c.major).map fun ma' =>
        ⟨some (release c.major 0 0, true), some (release ma' 0 0, false)⟩
    | .greater => match c.minor, c.patch with
      | some mi, some pa => some ⟨some (release c.major mi pa, false), none⟩
      | some mi, none => (checkedSucc mi).map fun mi' =>
        ⟨some (release c.major mi' 0, true), none⟩
      | none, _ => (checkedSucc c.major).map fun ma' => ⟨some (release ma' 0 0, true), none⟩
    | .greaterEq => some ⟨some (loExact, true), none⟩
    | .less => some ⟨none, some (loExact, false)⟩
    | .lessEq => match c.minor, c.patch with
      | some mi, some pa => some ⟨none, some (release c.major mi pa, true)⟩
      | some mi, none => (checkedSucc mi).map fun mi' =>
        ⟨none, some (release c.major mi' 0, false)⟩
      | none, _ => (checkedSucc c.major).map fun ma' => ⟨none, some (release ma' 0 0, false)⟩
    | .tilde => match c.minor, c.patch with
      | some mi, _ => (checkedSucc mi).map fun mi' =>
        ⟨some (loExact, true), some (release c.major mi' 0, false)⟩
      | none, _ => (checkedSucc c.major).map fun ma' =>
        ⟨some (loExact, true), some (release ma' 0 0, false)⟩
    | .caret =>
      let hi :=
        if 0 < c.major ∨ c.minor.isNone then (checkedSucc c.major).map fun ma' => release ma' 0 0
        else if c.minor ≠ some 0 ∨ c.patch.isNone then
          (c.minor.bind checkedSucc).map fun mi' => release 0 mi' 0
        else (c.patch.bind checkedSucc).map fun pa' => release 0 0 pa'
      hi.map fun hi => ⟨some (loExact, true), some (hi, false)⟩
    | .unknown => none

/-- The interval of a requirement: the intersection of its comparators' intervals. -/
def parsedVersionReqInterval (req : VersionReq) : Option VersionInterval :=
  req.comparators.foldlM (fun interval c => (comparatorInterval c).map interval.intersect)
    OptInterval.full

/-- `version_req_interval`: the same, from the text of the requirement. -/
def versionReqInterval (raw : String) : Option VersionInterval :=
  (sv.parseReq raw).bind parsedVersionReqInterval

/-! ## The interval holds exactly the releases the requirement admits -/

theorem release_le_release {a b c x y z : Nat} :
    release a b c ≤ release x y z ↔ a < x ∨ a = x ∧ (b < y ∨ b = y ∧ c ≤ z) := by
  simp [release, Prod.Lex.toLex_le_toLex]

theorem release_lt_release {a b c x y z : Nat} :
    release a b c < release x y z ↔ a < x ∨ a = x ∧ (b < y ∨ b = y ∧ c < z) := by
  simp [release, Prod.Lex.toLex_lt_toLex]

/-- Nothing lies between a release and the next patch. -/
theorem lt_release_succ {a b c : Nat} {v : Release} :
    v < release a b (c + 1) ↔ v ≤ release a b c := by
  obtain ⟨x, y, z⟩ := v
  change release x y z < _ ↔ release x y z ≤ _
  rw [release_le_release, release_lt_release]
  omega

theorem release_succ_le {a b c : Nat} {v : Release} :
    release a b (c + 1) ≤ v ↔ release a b c < v := by
  rw [← not_lt, lt_release_succ, not_le]

variable {I : VersionInterval} {req : VersionReq}

/-- An interval built from a component increased by one, where the increase did not overflow. -/
theorem eq_of_map_checkedSucc {n : Nat} {f : Nat → VersionInterval}
    (h : (checkedSucc n).map f = some I) : I = f (n + 1) := by
  obtain ⟨m, hm, rfl⟩ := Option.map_eq_some_iff.mp h
  rw [checkedSucc_eq_some hm]

theorem pre_eq_of_comparatorInterval {c : Comparator} (h : comparatorInterval c = some I) :
    c.pre = "" := by
  by_contra hpre
  have hne : c.pre.isEmpty = false := by simpa using hpre
  simp [comparatorInterval, hne] at h

/-- **A comparator's interval holds exactly what the documentation says the comparator admits.** -/
theorem mem_comparatorInterval {c : Comparator} (hc : c.WellFormed)
    (h : comparatorInterval c = some I) (v : Release) : v ∈ I ↔ c.Admits v := by
  have hpre := pre_eq_of_comparatorInterval h
  obtain ⟨op, major, minor, patch, pre⟩ := c
  subst hpre
  have hempty : (!("" : String).isEmpty) = false := by decide
  rw [OptInterval.mem_def]
  cases op with
  | exact | wildcard =>
    rcases minor with _ | minor
    · rw [eq_of_map_checkedSucc h]
      rcases patch with _ | patch
      · rfl
      · exact absurd (hc rfl) (by simp)
    rcases patch with _ | patch
    · rw [eq_of_map_checkedSucc h]
      rfl
    · rw [← Option.some.inj h]
      exact and_congr_right fun _ => lt_release_succ.symm
  | greater =>
    rcases minor with _ | minor
    · rw [eq_of_map_checkedSucc h]
      exact and_iff_left trivial
    rcases patch with _ | patch
    · rw [eq_of_map_checkedSucc h]
      exact and_iff_left trivial
    · rw [← Option.some.inj h]
      exact (and_iff_left trivial).trans release_succ_le.symm
  | greaterEq =>
    rw [← Option.some.inj h]
    exact and_iff_left trivial
  | less =>
    rw [← Option.some.inj h]
    exact and_iff_right trivial
  | lessEq =>
    rcases minor with _ | minor
    · rw [eq_of_map_checkedSucc h]
      exact and_iff_right trivial
    rcases patch with _ | patch
    · rw [eq_of_map_checkedSucc h]
      exact and_iff_right trivial
    · rw [← Option.some.inj h]
      exact (and_iff_right trivial).trans lt_release_succ.symm
  | tilde =>
    rcases minor with _ | minor <;> rw [eq_of_map_checkedSucc h] <;> rfl
  | caret =>
    obtain ⟨hi, hhi, rfl⟩ := Option.map_eq_some_iff.mp h
    refine and_congr_right fun _ => ?_
    rcases minor with _ | minor
    · obtain ⟨ma', hma, rfl⟩ := Option.map_eq_some_iff.mp (by simpa using hhi)
      rw [checkedSucc_eq_some hma]
      rfl
    by_cases hmajor : 0 < major
    · simp only [hmajor, true_or, if_true] at hhi
      obtain ⟨ma', hma, rfl⟩ := Option.map_eq_some_iff.mp hhi
      rw [checkedSucc_eq_some hma]
      rcases patch with _ | patch <;> simp [hmajor]
    rcases patch with _ | patch
    · simp only [hmajor, Option.isNone_some, Option.isNone_none, Option.bind_some,
        Bool.false_eq_true, or_self, or_true, if_false, if_true] at hhi
      obtain ⟨mi', hmi, rfl⟩ := Option.map_eq_some_iff.mp hhi
      rw [checkedSucc_eq_some hmi]
      simp [hmajor]
    · by_cases hminor : 0 < minor
      · have hne : minor ≠ 0 := Nat.pos_iff_ne_zero.mp hminor
        simp [hmajor, hne] at hhi
        obtain ⟨mi', hmi, rfl⟩ := hhi
        rw [checkedSucc_eq_some hmi]
        simp [hmajor, hminor]
      · have hzero : minor = 0 := by omega
        simp [hmajor, hzero] at hhi
        obtain ⟨pa', hpa, rfl⟩ := hhi
        rw [checkedSucc_eq_some hpa]
        simp [hmajor, hminor]
  | unknown => cases h

/-- What folding comparators into an interval narrows it by. -/
theorem mem_foldlM_comparatorInterval {cs : List Comparator} (hcs : ∀ c ∈ cs, c.WellFormed)
    {I₀ I : VersionInterval}
    (h : cs.foldlM (fun interval c => (comparatorInterval c).map interval.intersect) I₀ = some I) :
    (∀ c ∈ cs, c.pre = "") ∧ ∀ v, v ∈ I ↔ v ∈ I₀ ∧ ∀ c ∈ cs, c.Admits v := by
  induction cs generalizing I₀ with
  | nil =>
    obtain rfl := Option.some.inj h
    simp
  | cons c cs ih =>
    rw [List.foldlM_cons] at h
    obtain ⟨I₁, hI₁, h⟩ := Option.bind_eq_some_iff.mp h
    obtain ⟨J, hJ, rfl⟩ := Option.map_eq_some_iff.mp hI₁
    obtain ⟨hpre, hmem⟩ := ih (fun d hd => hcs d (List.mem_cons_of_mem _ hd)) h
    refine ⟨?_, fun v => ?_⟩
    · rw [List.forall_mem_cons]
      exact ⟨pre_eq_of_comparatorInterval hJ, hpre⟩
    · rw [hmem, OptInterval.mem_intersect, mem_comparatorInterval (hcs c List.mem_cons_self) hJ,
        and_assoc, List.forall_mem_cons]

theorem releaseOnly_of_parsedVersionReqInterval (hreq : ∀ c ∈ req.comparators, c.WellFormed)
    (h : parsedVersionReqInterval req = some I) : req.ReleaseOnly :=
  (mem_foldlM_comparatorInterval hreq h).1

/-- **The interval of a requirement holds exactly the releases that all its comparators admit.** -/
theorem mem_parsedVersionReqInterval (hreq : ∀ c ∈ req.comparators, c.WellFormed)
    (h : parsedVersionReqInterval req = some I) (v : Release) :
    v ∈ I ↔ ∀ c ∈ req.comparators, c.Admits v := by
  rw [(mem_foldlM_comparatorInterval hreq h).2 v]
  exact and_iff_right (OptInterval.mem_full v)

variable {sv}

theorem pre_demotePreToBuild {version demoted : Version}
    (h : demotePreToBuild sv version = some demoted) : demoted.pre = "" := by
  unfold demotePreToBuild at h
  split at h
  · rename_i hpre
    obtain rfl := Option.some.inj h
    simpa using hpre
  · obtain ⟨-, -, rfl⟩ := Option.map_eq_some_iff.mp h
    rfl

theorem pre_coercePlatformVersion {raw : List Char} {version : Version}
    (h : coercePlatformVersion sv raw = some version) : version.pre = "" := by
  unfold coercePlatformVersion at h
  simp only at h
  split at h
  · cases h
  split at h
  · cases h
  split at h
  · obtain ⟨-, -, rfl⟩ := Option.map_eq_some_iff.mp h
    rfl
  · obtain rfl := Option.some.inj h
    rfl

/-- The comparable part of a reading is a release. -/
theorem VersionReading.pre_comparable {raw : String} {reading : VersionReading}
    (h : VersionReading.parse sv raw = some reading) : reading.comparable.pre = "" := by
  unfold VersionReading.parse at h
  simp only at h
  split at h
  · cases h
  split at h
  · obtain ⟨comparable, hdemote, rfl⟩ := Option.map_eq_some_iff.mp h
    exact pre_demotePreToBuild hdemote
  · obtain ⟨comparable, hcoerce, rfl⟩ := Option.map_eq_some_iff.mp h
    exact pre_coercePlatformVersion hcoerce

theorem reqNamesPrerelease_eq_false (h : req.ReleaseOnly) : reqNamesPrerelease req = false := by
  rw [reqNamesPrerelease, List.any_eq_false]
  intro c hc
  simp [h c hc]

/-- **Matching a requirement that has an interval is membership in it.** -/
theorem VersionReading.matches_iff_mem (hsv : sv.Documented) {raw : String}
    (hreq : sv.parseReq raw = some req) (hI : parsedVersionReqInterval req = some I)
    {value : String} {reading : VersionReading}
    (hreading : VersionReading.parse sv value = some reading) :
    reading.matches sv req = true ↔ reading.comparable.core ∈ I := by
  have hwf := hsv.parseReq_wellFormed hreq
  have hrelease := releaseOnly_of_parsedVersionReqInterval hwf hI
  have hmatches : reading.matches sv req = sv.reqMatches req reading.comparable := by
    simp only [VersionReading.matches, reqNamesPrerelease_eq_false hrelease, Bool.false_eq_true,
      if_false]
    split <;> rfl
  rw [hmatches, hsv.reqMatches_release hrelease (VersionReading.pre_comparable hreading),
    mem_parsedVersionReqInterval hwf hI]

end MagicContext.Scope
