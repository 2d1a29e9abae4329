import MagicContext.Scope.Predicates

/-!
# How exactly a requirement is read as an interval

An interval of versions is compared with another by its bounds.  Its bounds are releases, but the
order they are compared in is the order of all versions, in which there is always room: between two
releases lies the first of them with build metadata, before a release lie its pre-releases.  Among
the releases alone there is no room between one patch and the next.

## What is here

* `Comparator.Readable` — the comparators that have an interval: those that name no pre-release and
  whose components can be increased; `exists_parsedVersionReqInterval`.
* `VersionOrder` — what the crate documents of the order of versions; `roomy_versions`, the room it
  leaves around the releases.
* `interval_reading` — the interval of a requirement holds the releases that the requirement
  admits, and containment and overlap of intervals are inclusion and intersection of the sets of
  versions between their bounds.
* `interval_reading_not_exact` — neither is so of the releases alone, nor does an interval hold what
  a requirement admits when build metadata is compared too.
-/

namespace MagicContext.Scope

open Word OptInterval

/-! ## The requirements that have an interval -/

/-- Every component given is a `u64`. -/
def Comparator.Fits (c : Comparator) : Prop :=
  c.major < u64Limit ∧ (∀ minor ∈ c.minor, minor < u64Limit) ∧ ∀ patch ∈ c.patch, patch < u64Limit

/-- The component that a bound of the comparator's interval increases, if there is one. -/
def Comparator.increased (c : Comparator) : Option Nat :=
  match c.op with
  | .exact | .wildcard | .greater | .lessEq => match c.minor, c.patch with
    | some _, some _ => none
    | some minor, none => some minor
    | none, _ => some c.major
  | .greaterEq | .less | .unknown => none
  | .tilde => some (c.minor.getD c.major)
  | .caret => match c.minor, c.patch with
    | none, _ => some c.major
    | some minor, none => some (if 0 < c.major then c.major else minor)
    | some minor, some patch =>
      some (if 0 < c.major then c.major else if 0 < minor then minor else patch)

/-- **A comparator that can be read as an interval.** -/
structure Comparator.Readable (c : Comparator) : Prop where
  wellFormed : c.WellFormed
  fits : c.Fits
  known : c.op ≠ .unknown
  release : c.pre = ""
  noOverflow : ∀ n ∈ c.increased, n + 1 < u64Limit

theorem exists_comparatorInterval {c : Comparator} (h : c.Readable) :
    ∃ I, comparatorInterval c = some I := by
  have hsucc : ∀ n, c.increased = some n → checkedSucc n = some (n + 1) := fun n hn =>
    checkedAdd_of_lt (h.noOverflow n hn)
  have hpre : (!c.pre.isEmpty) = false := by simp [h.release]
  have hwf := h.wellFormed
  have hknown := h.known
  rw [comparatorInterval, hpre]
  obtain ⟨op, major, minor, patch, pre⟩ := c
  simp only [Comparator.increased, Comparator.WellFormed] at hsucc hwf hknown
  cases op with
  | exact | wildcard | greater | lessEq =>
    rcases minor with _ | minor
    · simp [hsucc major rfl]
    rcases patch with _ | patch
    · simp [hsucc minor rfl]
    · simp
  | greaterEq | less => simp
  | tilde =>
    rcases minor with _ | minor
    · simp [hsucc major rfl]
    · simp [hsucc minor rfl]
  | caret =>
    rcases minor with _ | minor
    · simp [hsucc major rfl]
    by_cases hmajor : 0 < major
    · have hmajor' : checkedSucc major = some (major + 1) :=
        hsucc major (by rcases patch with _ | patch <;> simp [hmajor])
      simp [hmajor, hmajor']
    rcases patch with _ | patch
    · simp [hmajor, hsucc minor (by simp [hmajor])]
    by_cases hminor : 0 < minor
    · simp [hmajor, hminor.ne', hsucc minor (by simp [hmajor, hminor])]
    · obtain rfl : minor = 0 := by omega
      simp [hmajor, hsucc patch (by simp [hmajor])]
  | unknown => exact absurd rfl hknown

/-- The releases whose components are `u64`s. -/
def releases : Set Release :=
  {r | ∃ major minor patch, r = release major minor patch ∧ major < u64Limit ∧ minor < u64Limit ∧
    patch < u64Limit}

theorem release_mem_releases {major minor patch : Nat} :
    release major minor patch ∈ releases ↔
      major < u64Limit ∧ minor < u64Limit ∧ patch < u64Limit := by
  constructor
  · rintro ⟨x, y, z, heq, h⟩
    obtain ⟨rfl, rfl, rfl⟩ : major = x ∧ minor = y ∧ patch = z := by
      simpa [release, Prod.ext_iff] using heq
    exact h
  · rintro h
    exact ⟨major, minor, patch, rfl, h⟩

theorem lt_of_checkedSucc {n m : Nat} (h : checkedSucc n = some m) : m < u64Limit := by
  obtain ⟨rfl, hlt⟩ := checkedAdd_eq_some.mp h
  exact hlt

/-- The bounds that a comparator's interval has are releases that `u64`s can hold. -/
theorem boundsIn_comparatorInterval {c : Comparator} (hfits : c.Fits) {I : VersionInterval}
    (h : comparatorInterval c = some I) : I.BoundsIn releases := by
  have hpos : 0 < u64Limit := by decide
  have hpre : (!c.pre.isEmpty) = false := by simp [pre_eq_of_comparatorInterval h]
  rw [comparatorInterval, hpre] at h
  obtain ⟨op, major, minor, patch, pre⟩ := c
  obtain ⟨hmajor, hminor, hpatch⟩ := hfits
  -- a bound is the least release, or one of which a component was increased without overflow
  have hminor₀ : minor.getD 0 < u64Limit := by
    rcases minor with _ | minor
    · exact hpos
    · exact hminor minor rfl
  have hpatch₀ : patch.getD 0 < u64Limit := by
    rcases patch with _ | patch
    · exact hpos
    · exact hpatch patch rfl
  have hsucc : ∀ {n : Nat} {f : Nat → VersionInterval},
      (∀ m, m < u64Limit → (f m).BoundsIn releases) → (checkedSucc n).map f = some I →
        I.BoundsIn releases := by
    rintro n f hf hI
    obtain ⟨m, hm, rfl⟩ := Option.map_eq_some_iff.mp hI
    exact hf m (lt_of_checkedSucc hm)
  cases op with
  | unknown => simp at h
  | greaterEq | less =>
    obtain rfl := Option.some.inj h
    simp [BoundsIn, release_mem_releases, hmajor, hminor₀, hpatch₀]
  | tilde =>
    rcases minor with _ | minor
    · refine hsucc (fun m hm => ?_) h
      simp [BoundsIn, release_mem_releases, hm, hpos, hmajor, hpatch₀]
    · refine hsucc (fun m hm => ?_) h
      simp [BoundsIn, release_mem_releases, hm, hpos, hmajor, hminor minor rfl, hpatch₀]
  | exact | wildcard | greater | lessEq =>
    rcases minor with _ | minor
    · refine hsucc (fun m hm => ?_) h
      simp [BoundsIn, release_mem_releases, hm, hpos, hmajor]
    rcases patch with _ | patch
    · refine hsucc (fun m hm => ?_) h
      simp [BoundsIn, release_mem_releases, hm, hpos, hmajor, hminor minor rfl]
    · obtain rfl := Option.some.inj h
      simp [BoundsIn, release_mem_releases, hmajor, hminor minor rfl, hpatch patch rfl]
  | caret =>
    obtain ⟨hi, hhi, rfl⟩ := Option.map_eq_some_iff.mp h
    have hhi' : hi ∈ releases := by
      split at hhi
      · obtain ⟨m, hm, rfl⟩ := Option.map_eq_some_iff.mp hhi
        simp [release_mem_releases, lt_of_checkedSucc hm, hpos]
      split at hhi
      · obtain ⟨m, hm, rfl⟩ := Option.map_eq_some_iff.mp hhi
        obtain ⟨n, -, hn⟩ := Option.bind_eq_some_iff.mp hm
        simp [release_mem_releases, lt_of_checkedSucc hn, hpos]
      · obtain ⟨m, hm, rfl⟩ := Option.map_eq_some_iff.mp hhi
        obtain ⟨n, -, hn⟩ := Option.bind_eq_some_iff.mp hm
        simp [release_mem_releases, lt_of_checkedSucc hn, hpos]
    simp [BoundsIn, release_mem_releases, hmajor, hminor₀, hpatch₀] at hhi' ⊢
    exact hhi'

/-- **A requirement whose comparators can be read has an interval**, with bounds that `u64`s can
hold. -/
theorem exists_parsedVersionReqInterval {req : VersionReq}
    (hreq : ∀ c ∈ req.comparators, c.Readable) :
    ∃ I, parsedVersionReqInterval req = some I ∧ I.BoundsIn releases := by
  have hrun : ∀ (cs : List Comparator) (I₀ : VersionInterval), (∀ c ∈ cs, c.Readable) →
      I₀.BoundsIn releases → ∃ I, cs.foldlM (fun interval c =>
        (comparatorInterval c).map interval.intersect) I₀ = some I ∧ I.BoundsIn releases := by
    intro cs
    induction cs with
    | nil => exact fun I₀ _ hI₀ => ⟨I₀, rfl, hI₀⟩
    | cons c cs ih =>
      intro I₀ hcs hI₀
      obtain ⟨hc, hcs⟩ := List.forall_mem_cons.mp hcs
      obtain ⟨J, hJ⟩ := exists_comparatorInterval hc
      have hbounds := hI₀.intersect (boundsIn_comparatorInterval hc.fits hJ)
      obtain ⟨I, hI, hIbounds⟩ := ih (I₀.intersect J) hcs hbounds
      refine ⟨I, ?_, hIbounds⟩
      rw [List.foldlM_cons, hJ]
      exact hI
  refine hrun req.comparators full hreq ?_
  exact ⟨fun b inc hb => (nomatch hb), fun b inc hb => (nomatch hb)⟩

/-! ## The order of all versions -/

/-- `Version::new`, the version that is a release. -/
def Version.ofRelease (r : Release) : Version where
  major := (ofLex r).1
  minor := (ofLex (ofLex r).2).1
  patch := (ofLex (ofLex r).2).2
  pre := ""
  build := ""

theorem Version.ofRelease_core {v : Version} (hpre : v.pre = "") :
    Version.ofRelease v.core = { v with build := "" } := by
  obtain ⟨major, minor, patch, pre, build⟩ := v
  obtain rfl : pre = "" := hpre
  rfl

/-- **What the crate documents of the order of versions** and of which versions there are: the
numbers count first; a release comes after its pre-releases and before itself with build
metadata. -/
structure VersionOrder (versions : Set Version) [LinearOrder Version] : Prop where
  lt_of_core : ∀ {u v : Version}, u.core < v.core → u < v
  pre_lt : ∀ {u v : Version}, u.core = v.core → u.pre ≠ "" → v.pre = "" → u < v
  lt_build : ∀ {u v : Version}, u.core = v.core → u.pre = "" → u.build = "" → v.pre = "" →
    v.build ≠ "" → u < v
  /-- The versions of a release: itself, a pre-release, and with build metadata. -/
  versions_of : ∀ r ∈ releases, Version.ofRelease r ∈ versions ∧
    { Version.ofRelease r with pre := "0" } ∈ versions ∧
    { Version.ofRelease r with build := "0" } ∈ versions

section

variable [LinearOrder Version] {versions : Set Version}

theorem VersionOrder.strictMono (hord : VersionOrder versions) : StrictMono Version.ofRelease :=
  fun _ _ h => hord.lt_of_core h

/-- **The order of versions leaves room around the releases.** -/
theorem roomy_versions (hord : VersionOrder versions) :
    Roomy (Version.ofRelease '' releases) versions where
  inhabited := by
    have hzero : release 0 0 0 ∈ releases := release_mem_releases.mpr (by decide)
    exact ⟨_, (hord.versions_of _ hzero).1⟩
  bounds := by
    rintro _ ⟨r, hr, rfl⟩
    exact (hord.versions_of r hr).1
  between := by
    rintro _ ⟨r, hr, rfl⟩ _ ⟨s, -, rfl⟩ hlt
    have hrs : r < s := hord.strictMono.lt_iff_lt.mp hlt
    refine ⟨_, (hord.versions_of r hr).2.2, ?_, ?_⟩
    · exact hord.lt_build rfl rfl rfl rfl (by simp)
    · exact hord.lt_of_core hrs
  before := by
    rintro _ ⟨r, hr, rfl⟩
    refine ⟨_, (hord.versions_of r hr).2.1, ?_⟩
    exact hord.pre_lt rfl (by simp) rfl
  after := by
    rintro _ ⟨r, hr, rfl⟩
    refine ⟨_, (hord.versions_of r hr).2.2, ?_⟩
    exact hord.lt_build rfl rfl rfl rfl (by simp)

/-- The versions between the bounds of an interval. -/
def denotes (I : VersionInterval) : Set Version := (I.map Version.ofRelease).toSet

theorem ofRelease_mem_denotes (hord : VersionOrder versions) {I : VersionInterval} {r : Release} :
    Version.ofRelease r ∈ denotes I ↔ r ∈ I :=
  mem_map hord.strictMono

/-- **The reading of requirements as intervals**: the interval of a requirement holds exactly the
releases that the requirement admits, build metadata aside; containment and overlap are inclusion
and intersection of the sets of versions between the bounds, and of the releases alone neither is
ever wrong in the direction that the callers rely on. -/
theorem interval_reading (sv : SemVer) (hsv : sv.Documented) (hord : VersionOrder versions) :
    (∀ req : VersionReq, (∀ c ∈ req.comparators, c.Readable) →
      ∃ I, parsedVersionReqInterval req = some I ∧ I.BoundsIn releases ∧
        ∀ v : Version, v.pre = "" →
          ({ v with build := "" } ∈ denotes I ↔ sv.reqMatches req v = true)) ∧
    ∀ I J : VersionInterval, I.BoundsIn releases → J.BoundsIn releases →
      (I.contains J = true ↔ ∀ v ∈ versions, v ∈ denotes J → v ∈ denotes I) ∧
      (I.overlaps J = true ↔ ∃ v ∈ versions, v ∈ denotes I ∧ v ∈ denotes J) ∧
      (I.contains J = true → ∀ r : Release, r ∈ J → r ∈ I) ∧
      ((∃ r : Release, r ∈ I ∧ r ∈ J) → I.overlaps J = true) := by
  refine ⟨fun req hreq => ?_, fun I J hI hJ => ⟨?_, ?_, ?_, ?_⟩⟩
  · obtain ⟨I, hI, hbounds⟩ := exists_parsedVersionReqInterval hreq
    refine ⟨I, hI, hbounds, fun v hv => ?_⟩
    have hwf : ∀ c ∈ req.comparators, c.WellFormed := fun c hc => (hreq c hc).wellFormed
    have hrelease : req.ReleaseOnly := fun c hc => (hreq c hc).release
    rw [← Version.ofRelease_core hv, ofRelease_mem_denotes hord,
      mem_parsedVersionReqInterval hwf hI, hsv.reqMatches_release hrelease hv]
  · rw [← OptInterval.contains_map hord.strictMono]
    exact OptInterval.contains_iff_subset (roomy_versions hord) (hI.map _) (hJ.map _)
  · rw [← OptInterval.overlaps_map hord.strictMono]
    exact OptInterval.overlaps_iff_exists (roomy_versions hord) (hI.map _) (hJ.map _)
  · exact fun h r hr => OptInterval.mem_of_contains h hr
  · exact fun ⟨r, hrI, hrJ⟩ => OptInterval.overlaps_of_mem hrI hrJ

end

/-! ### One order of the versions -/

/-- What a version is compared by: a release comes after its pre-releases. -/
def versionKey (v : Version) : Release ×ₗ WithTop String ×ₗ String :=
  toLex (v.core, toLex (if v.pre = "" then ⊤ else ↑v.pre, v.build))

theorem versionKey_injective : Function.Injective versionKey := by
  rintro ⟨major, minor, patch, pre, build⟩ ⟨major', minor', patch', pre', build'⟩ h
  simp only [versionKey, Version.core, release, EmbeddingLike.apply_eq_iff_eq, Prod.mk.injEq] at h
  obtain ⟨⟨rfl, rfl, rfl⟩, hpre, rfl⟩ := h
  have hpre' : pre = pre' := by
    split at hpre <;> split at hpre <;> simp_all
  rw [hpre']

theorem empty_lt {s : String} (h : s ≠ "") : "" < s := by
  have hne : s.toList ≠ [] := by simpa using h
  obtain ⟨c, cs, hs⟩ := List.exists_cons_of_ne_nil hne
  rw [String.lt_iff_toList_lt, hs]
  exact List.nil_lt_cons c cs

/-- An order of the versions that agrees with what is documented. -/
abbrev exampleVersionOrder : LinearOrder Version :=
  LinearOrder.lift' versionKey versionKey_injective

theorem versionOrder_example : @VersionOrder Set.univ exampleVersionOrder := by
  let _ := exampleVersionOrder
  have hlt : ∀ {u v : Version}, u < v ↔ versionKey u < versionKey v := Iff.rfl
  refine ⟨fun h => ?_, fun hcore hu hv => ?_, fun {u v} hcore hu hb hv hb' => ?_, fun r _ => ?_⟩
  · exact hlt.mpr (Prod.Lex.toLex_lt_toLex.mpr (Or.inl h))
  · refine hlt.mpr (Prod.Lex.toLex_lt_toLex.mpr (Or.inr ⟨hcore, ?_⟩))
    refine Prod.Lex.toLex_lt_toLex.mpr (Or.inl ?_)
    simp [hu, hv]
  · refine hlt.mpr (Prod.Lex.toLex_lt_toLex.mpr (Or.inr ⟨hcore, ?_⟩))
    refine Prod.Lex.toLex_lt_toLex.mpr (Or.inr ⟨by simp [hu, hv], ?_⟩)
    rw [hb]
    exact empty_lt hb'
  · exact ⟨trivial, trivial, trivial⟩

theorem interval_reading_patches :
    (∃ I, parsedVersionReqInterval ⟨[⟨.caret, 0, some 2, some 3, ""⟩]⟩ = some I ∧
      (release 0 2 9 ∈ I ↔ exampleSemVer.reqMatches ⟨[⟨.caret, 0, some 2, some 3, ""⟩]⟩
        ⟨0, 2, 9, "", "linux"⟩ = true)) ∧
    ∀ v, v ∈ @denotes exampleVersionOrder ⟨some (release 1 2 4, true), none⟩ →
      v ∈ @denotes exampleVersionOrder ⟨some (release 1 2 3, false), none⟩ := by
  let _ := exampleVersionOrder
  have hreading := interval_reading exampleSemVer exampleSemVer_documented versionOrder_example
  have hreadable : ∀ c ∈ [(⟨.caret, 0, some 2, some 3, ""⟩ : Comparator)], c.Readable := by
    intro c hc
    obtain rfl := List.mem_singleton.mp hc
    refine ⟨fun _ => rfl, ?_, by decide, rfl, ?_⟩
    · simp [Comparator.Fits, u64Limit]
    · simp [Comparator.increased, u64Limit]
  refine ⟨?_, fun v hv => ?_⟩
  · obtain ⟨I, hI, -, hmem⟩ := hreading.1 _ hreadable
    refine ⟨I, hI, ?_⟩
    rw [← ofRelease_mem_denotes versionOrder_example]
    exact hmem ⟨0, 2, 9, "", "linux"⟩ rfl
  · have hbounds : ∀ r ∈ releases, ∀ inc,
        (⟨some (r, inc), none⟩ : VersionInterval).BoundsIn releases := by
      intro r hr inc
      simp [OptInterval.BoundsIn, hr]
    have hfour := hbounds (release 1 2 4) (release_mem_releases.mpr (by decide)) true
    have hthree := hbounds (release 1 2 3) (release_mem_releases.mpr (by decide)) false
    exact ((hreading.2 _ _ hthree hfour).1.mp (by decide)) v trivial hv

/-- **The reading is not exact.**  `>1.2.3` admits the releases that `>=1.2.4` admits and is not
contained in it, `>1.2.3` and `<1.2.4` admit no release and overlap; and the interval of `=1.2.3`
does not hold the release with build metadata that the requirement admits. -/
theorem interval_reading_not_exact :
    (¬ ∀ (p q : VersionReq) (I J : VersionInterval), parsedVersionReqInterval p = some I →
      parsedVersionReqInterval q = some J →
      (I.contains J = true ↔ ∀ r : Release, r ∈ J → r ∈ I)) ∧
    (¬ ∀ (p q : VersionReq) (I J : VersionInterval), parsedVersionReqInterval p = some I →
      parsedVersionReqInterval q = some J →
      (I.overlaps J = true ↔ ∃ r : Release, r ∈ I ∧ r ∈ J)) ∧
    ∀ (sv : SemVer), sv.Documented → ∀ [LinearOrder Version] (versions : Set Version),
      VersionOrder versions → ¬ ∀ (req : VersionReq) (I : VersionInterval) (v : Version),
        parsedVersionReqInterval req = some I → v.pre = "" →
        (v ∈ denotes I ↔ sv.reqMatches req v = true) := by
  refine ⟨fun h => ?_, fun h => ?_, fun sv hsv _ versions hord h => ?_⟩
  · have hiff := h ⟨[⟨.greaterEq, 1, some 2, some 4, ""⟩]⟩ ⟨[⟨.greater, 1, some 2, some 3, ""⟩]⟩
      _ _ rfl rfl
    exact absurd (hiff.mpr fun r hr => ⟨release_succ_le.mpr hr.1, trivial⟩) (by decide)
  · have hiff := h ⟨[⟨.greater, 1, some 2, some 3, ""⟩]⟩ ⟨[⟨.less, 1, some 2, some 4, ""⟩]⟩
      _ _ rfl rfl
    obtain ⟨r, hr, hr'⟩ := hiff.mp (by decide)
    exact absurd (lt_release_succ.mp hr'.2) (not_le.mpr hr.1)
  · -- build metadata is compared by the order of versions and not by requirements
    have hiff := h ⟨[⟨.exact, 1, some 2, some 3, ""⟩]⟩ _ ⟨1, 2, 3, "", "0"⟩ rfl rfl
    have hmatches : sv.reqMatches ⟨[⟨.exact, 1, some 2, some 3, ""⟩]⟩ ⟨1, 2, 3, "", "0"⟩ = true :=
      (hsv.reqMatches_release (by simp [VersionReq.ReleaseOnly]) rfl).mpr (by decide)
    have hle := (hiff.mpr hmatches).2
    exact absurd hle (not_le.mpr (hord.lt_build rfl rfl rfl rfl (by decide)))

end MagicContext.Scope
