import Mathlib.Data.Finset.Sort
import MagicContext.Scope.Term

/-!
# Scope predicates: matching, subsumption, overlap

Three questions are asked of canonical scopes.  Does a scope match the resolved values of a query
(`scopeMatches`, three-valued)?  Does one scope cover another (`scopeSubsumes`)?  Can two scopes
meet (`scopeOverlaps`)?  The last two are answered from the terms alone, and this file relates
them to the first.

## What is here

* `termMatches`, `termSubsumes`, `termOverlaps` — the three questions for one dimension, each a
  case split over the pairs of term kinds, and the scope-level predicates over them.  The
  scope-level predicates decide the pairs with a version range themselves, from the cached
  requirements and intervals, and leave the others to the term-level ones.
* `TermValue.Admits` — what a term says about a context, stated without the three-valued verdicts;
  `scopeMatches_eq_matches` — a scope matches exactly when each of its terms admits the context.
* `pairSubsumes_eq`, `pairOverlaps_eq` — the cached path agrees with the plain one.
* `termSubsumes_sound`, `termOverlaps_ne_false` — what an answer for one pair of terms says.
* `scopeSubsumes_sound` and `scopeOverlaps_comm_and_complete` — the two results about scopes.

A commit graph enters through an oracle that may not know an answer.  Subsumption relies on its
answers coming from one frozen graph (`GraphOracle.Frozen`); overlap relies on nothing.
-/

namespace MagicContext.Scope

open CanonicalScope TermValue

variable {sv : SemVer}

/-! ## The commit graph -/

/-- Answers ancestry questions; `none` when the pair cannot be decided. -/
structure GraphOracle where
  /-- Whether the first commit is an ancestor of, or equal to, the second. -/
  isAncestorOrEqual : String → String → Option Bool

/-- The oracle of callers without a graph. -/
def unknownGraph : GraphOracle := ⟨fun _ _ => none⟩

/-- **One frozen commit graph.**  What the oracle decides is the ancestor relation of one acyclic
graph, and it decides an ancestor of an ancestor when it decides the two steps. -/
structure GraphOracle.Frozen (oracle : GraphOracle) : Prop where
  /-- The answers are those of one partial order of commits. -/
  answers : ∃ ancestorOrEqual : String → String → Prop, IsPartialOrder String ancestorOrEqual ∧
    ∀ x y known, oracle.isAncestorOrEqual x y = some known → (known = true ↔ ancestorOrEqual x y)
  /-- Two steps that are decided decide the pair. -/
  decides : ∀ x y z, (oracle.isAncestorOrEqual x y).isSome → (oracle.isAncestorOrEqual y z).isSome →
    (oracle.isAncestorOrEqual x z).isSome

theorem GraphOracle.Frozen.trans {oracle : GraphOracle} (h : oracle.Frozen) {x y z : String}
    (hxy : oracle.isAncestorOrEqual x y = some true)
    (hyz : oracle.isAncestorOrEqual y z = some true) :
    oracle.isAncestorOrEqual x z = some true := by
  obtain ⟨ancestor, horder, hanswers⟩ := h.answers
  obtain ⟨known, hknown⟩ := Option.isSome_iff_exists.mp
    (h.decides x y z (by rw [hxy]; rfl) (by rw [hyz]; rfl))
  have hx : ancestor x y := (hanswers x y true hxy).1 rfl
  have hy : ancestor y z := (hanswers y z true hyz).1 rfl
  have hz : ancestor x z := horder.trans x y z hx hy
  rw [hknown, (hanswers x z known hknown).2 hz]

/-! ## Matching -/

/-- The verdict of a match. -/
inductive MatchOutcome where
  | «matches» | doesNotMatch | uncertain
  deriving DecidableEq

/-- The resolved values of a query.  The version reading of a value is cached when it is set. -/
structure ScopeMatchContext (sv : SemVer) where
  /-- The value of each dimension. -/
  values : Dimension → Option String
  /-- The version reading of each value. -/
  coerced : Dimension → Option VersionReading
  /-- The commit that is checked out. -/
  headCommit : Option String
  /-- The cached readings are those of the values. -/
  coerced_eq : ∀ d, coerced d = (values d).bind (VersionReading.parse sv)

namespace ScopeMatchContext

/-- The context with nothing resolved. -/
def new : ScopeMatchContext sv where
  values := fun _ => none
  coerced := fun _ => none
  headCommit := none
  coerced_eq := fun _ => rfl

variable (ctx : ScopeMatchContext sv)

/-- Sets one value and caches its version reading. -/
def withValue (d : Dimension) (value : String) : ScopeMatchContext sv where
  values := Function.update ctx.values d (some value)
  coerced := Function.update ctx.coerced d (VersionReading.parse sv value)
  headCommit := ctx.headCommit
  coerced_eq := by
    intro e
    rcases eq_or_ne e d with rfl | hne
    · simp
    · simp [hne, ctx.coerced_eq e]

/-- The value of one dimension. -/
def value (d : Dimension) : Option String := ctx.values d

/-- The version reading of one dimension. -/
def coercedVersion (d : Dimension) : Option VersionReading :=
  ctx.coerced d

end ScopeMatchContext

/-- `value` lies in `[start, stop)`. -/
def rangeContains (start stop : Option String) (value : String) : Bool :=
  start.all (fun start => decide (start ≤ value)) && stop.all (fun stop => decide (value < stop))

/-- The verdict of a decided match. -/
def boolOutcome (value : Bool) : MatchOutcome := if value then .matches else .doesNotMatch

/-- Whether one term matches the resolved context. -/
def termMatches (term : TermValue sv) (versionRequirement : Option VersionReq) (d : Dimension)
    (ctx : ScopeMatchContext sv) (oracle : GraphOracle) : MatchOutcome :=
  match term with
  | .redactedPlaceholder => .uncertain
  | .gitReachable oid => match ctx.headCommit with
    | none => .uncertain
    | some head => match oracle.isAncestorOrEqual oid head with
      | some true => .matches
      | some false => .doesNotMatch
      | none => .uncertain
  | .exact expected => match ctx.value d with
    | none => .uncertain
    | some value =>
      if containsRedactionPlaceholder value then .uncertain
      else boolOutcome (expected == value)
  | .set values => match ctx.value d with
    | none => .uncertain
    | some value =>
      if containsRedactionPlaceholder value then .uncertain
      else boolOutcome (decide (value ∈ values))
  | .range start stop => match ctx.value d with
    | none => .uncertain
    | some value =>
      if containsRedactionPlaceholder value then .uncertain
      else boolOutcome (rangeContains start stop value)
  | .versionRange _ => match ctx.value d with
    | none => .uncertain
    | some value =>
      if containsRedactionPlaceholder value then .uncertain
      else match ctx.coercedVersion d, versionRequirement with
        | some reading, some requirement => boolOutcome (reading.matches sv requirement)
        | none, _ => .uncertain
        -- the source panics here; a canonical scope always has the requirement cached
        | some _, none => .uncertain

/-- The conjunction of the terms' verdicts, stopping at the first that does not match. -/
def matchTerms (scope : CanonicalScope sv) (ctx : ScopeMatchContext sv) (oracle : GraphOracle) :
    List (Dimension × TermValue sv) → MatchOutcome → MatchOutcome
  | [], outcome => outcome
  | (d, term) :: rest, outcome =>
    match termMatches term (scope.versionRequirement d) d ctx oracle with
    | .doesNotMatch => .doesNotMatch
    | .uncertain => matchTerms scope ctx oracle rest .uncertain
    | .matches => matchTerms scope ctx oracle rest outcome

/-- Whether a scope matches the resolved context. -/
def scopeMatches (scope : CanonicalScope sv) (ctx : ScopeMatchContext sv) (oracle : GraphOracle) :
    MatchOutcome :=
  matchTerms scope ctx oracle scope.termList .matches

/-! ## Subsumption and overlap of terms -/

/-- `a` starts at or below `b`. -/
def rangeBoundLe : Option String → Option String → Bool
  | none, _ => true
  | some _, none => false
  | some a, some b => decide (a ≤ b)

/-- `a` ends at or above `b`. -/
def rangeBoundGe : Option String → Option String → Bool
  | none, _ => true
  | some _, none => false
  | some a, some b => decide (b ≤ a)

/-- A range that starts at `start` begins before one that stops at `stop` is over. -/
def startsBeforeEnd : Option String → Option String → Bool
  | some start, some stop => decide (start < stop)
  | _, _ => true

/-- Two ranges meet. -/
def rangesOverlap (aStart aEnd bStart bEnd : Option String) : Bool :=
  startsBeforeEnd aStart bEnd && startsBeforeEnd bStart aEnd

/-- All of the values match the requirement; the first that is no version leaves it undecided,
the first that does not match settles it. -/
def allVersionsMatch (sv : SemVer) (raw : String) : List String → Option Bool
  | [] => some true
  | value :: rest => match versionReqMatches sv raw value with
    | some true => allVersionsMatch sv raw rest
    | some false => some false
    | none => none

/-- Some of the values matches the requirement, decided in the same order. -/
def anyVersionMatches (sv : SemVer) (raw : String) : List String → Option Bool
  | [] => some false
  | value :: rest => match versionReqMatches sv raw value with
    | some true => some true
    | some false => anyVersionMatches sv raw rest
    | none => none

/-- Whether every context `b` matches is matched by `a`; `none` when the pair has no decision
procedure. -/
def termSubsumes (a b : TermValue sv) (oracle : GraphOracle) : Option Bool :=
  match a, b with
  | .redactedPlaceholder, _ | _, .redactedPlaceholder => none
  | .exact u, .exact v => some (u == v)
  | .exact u, .set s => some (s.card == 1 && decide (u ∈ s))
  | .exact _, _ => some false
  | .set t, .exact v => some (decide (v ∈ t))
  | .set t, .set s => some (decide (s ⊆ t))
  | .set _, _ => some false
  | .range start stop, .exact v => some (rangeContains start stop v)
  | .range start stop, .set s => some (decide (∀ v ∈ s, rangeContains start stop v = true))
  | .range ps pe, .range rs re => some (rangeBoundLe ps rs && rangeBoundGe pe re)
  | .range _ _, _ => some false
  | .versionRange q, .exact v => versionReqMatches sv q.raw v
  | .versionRange q, .set s => allVersionsMatch sv q.raw (s.sort (· ≤ ·))
  | .versionRange q, .versionRange vr =>
    if q.raw = vr.raw then some true
    else (versionReqInterval sv q.raw).bind fun outer =>
      (versionReqInterval sv vr.raw).map fun inner => outer.contains inner
  | .versionRange _, _ => some false
  | .gitReachable h, .gitReachable g =>
    if h = g then some true else oracle.isAncestorOrEqual h g
  | .gitReachable _, _ => some false

/-- Whether the values of `a` and `b` can meet; `none` when the pair has no decision procedure. -/
def termOverlaps (a b : TermValue sv) (oracle : GraphOracle) : Option Bool :=
  match a, b with
  | .redactedPlaceholder, _ | _, .redactedPlaceholder => none
  | .exact u, .exact v => some (u == v)
  | .exact u, .set s | .set s, .exact u => some (decide (u ∈ s))
  | .exact u, .range start stop | .range start stop, .exact u => some (rangeContains start stop u)
  | .exact u, .versionRange q | .versionRange q, .exact u => versionReqMatches sv q.raw u
  | .set t, .set s => some (!decide (Disjoint t s))
  | .set s, .range start stop | .range start stop, .set s =>
    some (decide (∃ v ∈ s, rangeContains start stop v = true))
  | .set s, .versionRange q | .versionRange q, .set s =>
    anyVersionMatches sv q.raw (s.sort (· ≤ ·))
  | .range ps pe, .range rs re => some (rangesOverlap ps pe rs re)
  | .versionRange q, .versionRange vr =>
    if q.raw = vr.raw then (versionReqInterval sv q.raw).map fun interval => !interval.isEmpty
    else (versionReqInterval sv q.raw).bind fun left =>
      (versionReqInterval sv vr.raw).map fun right => left.overlaps right
  | .gitReachable h, .gitReachable g =>
    if h = g then some true
    -- commits that are no ancestors of each other may still share a descendant
    else if oracle.isAncestorOrEqual h g = some true ∨ oracle.isAncestorOrEqual g h = some true then
      some true
    else none
  | _, _ => none

/-! ## Subsumption and overlap of scopes -/

/-- What `scope_subsumes` asks of one dimension that both scopes constrain. -/
def pairSubsumes (a b : CanonicalScope sv) (d : Dimension) (termA termB : TermValue sv)
    (oracle : GraphOracle) : Bool :=
  match termA, termB with
  | .versionRange _, .exact value =>
    ((a.versionRequirement d).bind fun requirement =>
      parsedVersionReqMatches sv requirement value).getD false
  | .versionRange _, .set values => match a.versionRequirement d with
    | none => false
    | some requirement =>
      decide (∀ v ∈ values, (parsedVersionReqMatches sv requirement v).getD false = true)
  | .versionRange left, .versionRange right =>
    if left.raw = right.raw then true
    else match a.versionInterval d, b.versionInterval d with
      | some outer, some inner => outer.contains inner
      | _, _ => false
  | termA, termB => (termSubsumes termA termB oracle).getD false

/-- Whether every context that `b` matches is matched by `a`. -/
def scopeSubsumes (a b : CanonicalScope sv) (oracle : GraphOracle) : Bool :=
  a.termList.all fun (d, termA) => match b.term d with
    | some termB => pairSubsumes a b d termA termB oracle
    | none => false

/-- What `scope_overlaps` asks of one dimension that both scopes constrain. -/
def pairOverlaps (a b : CanonicalScope sv) (d : Dimension) (termA termB : TermValue sv)
    (oracle : GraphOracle) : Bool :=
  match termA, termB with
  | .versionRange _, .exact value =>
    ((a.versionRequirement d).bind fun requirement =>
      parsedVersionReqMatches sv requirement value).getD true
  | .exact value, .versionRange _ =>
    ((b.versionRequirement d).bind fun requirement =>
      parsedVersionReqMatches sv requirement value).getD true
  | .versionRange _, .set values =>
    ((a.versionRequirement d).map fun requirement =>
      decide (∃ v ∈ values, (parsedVersionReqMatches sv requirement v).getD true = true)).getD true
  | .set values, .versionRange _ =>
    ((b.versionRequirement d).map fun requirement =>
      decide (∃ v ∈ values, (parsedVersionReqMatches sv requirement v).getD true = true)).getD true
  | .versionRange left, .versionRange right =>
    match a.versionInterval d, b.versionInterval d with
    | some leftInterval, some rightInterval =>
      if left.raw = right.raw then !leftInterval.isEmpty else leftInterval.overlaps rightInterval
    | _, _ => true
  | termA, termB => (termOverlaps termA termB oracle).getD true

/-- Whether some context can match both scopes; `false` guarantees that none does. -/
def scopeOverlaps (a b : CanonicalScope sv) (oracle : GraphOracle) : Bool :=
  a.termList.all fun (d, termA) => match b.term d with
    | some termB => pairOverlaps a b d termA termB oracle
    | none => true

/-! ## What a term says about a context -/

/-- The value of a dimension is known, and no redaction hides part of it. -/
def ScopeMatchContext.Resolves (ctx : ScopeMatchContext sv) (d : Dimension) (value : String) :
    Prop :=
  ctx.value d = some value ∧ containsRedactionPlaceholder value = false

/-- What a term says about a context. -/
def TermValue.Admits (oracle : GraphOracle) (ctx : ScopeMatchContext sv) (d : Dimension) :
    TermValue sv → Prop
  | .exact expected => ctx.Resolves d expected
  | .set values => ∃ value, ctx.Resolves d value ∧ value ∈ values
  | .range start stop => ∃ value, ctx.Resolves d value ∧ rangeContains start stop value = true
  | .versionRange spec =>
    ∃ value, ctx.Resolves d value ∧ parsedVersionReqMatches sv spec.req value = some true
  | .gitReachable oid =>
    ∃ head, ctx.headCommit = some head ∧ oracle.isAncestorOrEqual oid head = some true
  | .redactedPlaceholder => False

variable {oracle : GraphOracle} {ctx : ScopeMatchContext sv} {d : Dimension}

theorem ScopeMatchContext.Resolves.unique
    {v w : String} (hv : ctx.Resolves d v) (hw : ctx.Resolves d w) : v = w :=
  Option.some.inj (hv.1.symm.trans hw.1)

@[simp] theorem boolOutcome_eq_matches {b : Bool} : boolOutcome b = .matches ↔ b = true := by
  cases b <;> simp [boolOutcome]

/-- The common part of the verdicts on a value: it has to be resolved first. -/
theorem verdict_eq_matches {verdict : String → MatchOutcome} : (match ctx.value d with
      | none => MatchOutcome.uncertain
      | some value =>
        if containsRedactionPlaceholder value then .uncertain else verdict value) = .matches ↔
      ∃ value, ctx.Resolves d value ∧ verdict value = .matches := by
  simp only [ScopeMatchContext.Resolves]
  rcases hv : ctx.value d with _ | value
  · simp
  · by_cases hp : containsRedactionPlaceholder value = true
    · simp [hp]
    · simp [hp]

variable {t ta tb : TermValue sv} {a b : CanonicalScope sv} {v : String} {scope : CanonicalScope sv}

/-- **A term of a canonical scope matches exactly when it admits the context.** -/
theorem termMatches_eq_matches (ht : scope.term d = some t) :
    termMatches t (scope.versionRequirement d) d ctx oracle = .matches ↔ t.Admits oracle ctx d := by
  cases t with
  | redactedPlaceholder => simp [termMatches, Admits]
  | gitReachable oid =>
    rcases hhead : ctx.headCommit with _ | head
    · simp [termMatches, Admits, hhead]
    · rcases hanc : oracle.isAncestorOrEqual oid head with _ | _ | _ <;>
        simp [termMatches, Admits, hhead, hanc]
  | exact expected =>
    refine verdict_eq_matches.trans ⟨?_, fun h => ⟨expected, h, by simp⟩⟩
    rintro ⟨value, hvalue, heq⟩
    obtain rfl : expected = value := by simpa using heq
    exact hvalue
  | set values => exact verdict_eq_matches.trans (by simp [Admits])
  | range start stop => exact verdict_eq_matches.trans (by simp [Admits])
  | versionRange spec =>
    rw [versionRequirement_eq ht]
    refine verdict_eq_matches.trans (exists_congr fun value => and_congr_right fun hvalue => ?_)
    have hcoerced : ctx.coercedVersion d = VersionReading.parse sv value := by
      rw [ScopeMatchContext.coercedVersion, ctx.coerced_eq, ← ScopeMatchContext.value, hvalue.1]
      rfl
    rw [hcoerced, parsedVersionReqMatches]
    rcases VersionReading.parse sv value with _ | reading <;> simp

/-- Scanning the terms ends in a match exactly when it starts in one and every term matches. -/
theorem matchTerms_eq_matches (l : List (Dimension × TermValue sv)) (outcome : MatchOutcome) :
    matchTerms scope ctx oracle l outcome = .matches ↔ outcome = .matches ∧
      ∀ d t, (d, t) ∈ l → termMatches t (scope.versionRequirement d) d ctx oracle = .matches := by
  induction l generalizing outcome with
  | nil => simp [matchTerms]
  | cons x rest ih =>
    obtain ⟨d, t⟩ := x
    rcases ht : termMatches t (scope.versionRequirement d) d ctx oracle with _ | _ | _
    · rw [matchTerms, ht]
      simp only [ih, List.mem_cons, Prod.mk.injEq]
      refine and_congr_right fun _ => ⟨fun h e u hu => ?_, fun h e u hu => h e u (Or.inr hu)⟩
      rcases hu with ⟨rfl, rfl⟩ | hu
      · exact ht
      · exact h e u hu
    · simp only [matchTerms, ht, false_iff, not_and, reduceCtorEq]
      exact fun _ h => by simpa [ht] using h d t List.mem_cons_self
    · simp only [matchTerms, ht, ih, reduceCtorEq, false_and, false_iff, not_and]
      exact fun _ h => by simpa [ht] using h d t List.mem_cons_self

/-- **A scope matches exactly when each of its terms admits the context.** -/
theorem scopeMatches_eq_matches : scopeMatches scope ctx oracle = .matches ↔
      ∀ d t, scope.term d = some t → t.Admits oracle ctx d := by
  rw [scopeMatches, matchTerms_eq_matches]
  simp only [true_and, mem_termList]
  exact forall_congr' fun d => forall_congr' fun t => forall_congr' fun ht =>
    termMatches_eq_matches ht

/-! ## The cached path agrees with the plain one -/

variable (spec : VersionSpec sv)

/-- Asking for a requirement by its text is asking the parsed requirement. -/
theorem versionReqMatches_raw (value : String) :
    versionReqMatches sv spec.raw value = parsedVersionReqMatches sv spec.req value := by
  rw [versionReqMatches, spec.parsed]
  rfl

theorem versionReqInterval_raw :
    versionReqInterval sv spec.raw = parsedVersionReqInterval spec.req := by
  rw [versionReqInterval, spec.parsed]
  rfl

theorem allVersionsMatch_getD (l : List String) :
    (allVersionsMatch sv spec.raw l).getD false = true ↔
      ∀ v ∈ l, (parsedVersionReqMatches sv spec.req v).getD false = true := by
  induction l with
  | nil => simp [allVersionsMatch]
  | cons v l ih =>
    rw [allVersionsMatch, versionReqMatches_raw, List.forall_mem_cons]
    rcases parsedVersionReqMatches sv spec.req v with _ | _ | _
    · simp
    · simp
    · simpa using ih

theorem anyVersionMatches_getD (l : List String) :
    (anyVersionMatches sv spec.raw l).getD true = true ↔
      ∃ v ∈ l, (parsedVersionReqMatches sv spec.req v).getD true = true := by
  induction l with
  | nil => simp [anyVersionMatches]
  | cons v l ih =>
    rw [anyVersionMatches, versionReqMatches_raw, List.exists_mem_cons_iff]
    rcases parsedVersionReqMatches sv spec.req v with _ | _ | _
    · simp
    · simpa using ih
    · simp

/-- **Subsumption through the caches is subsumption of the terms.** -/
theorem pairSubsumes_eq (ha : a.term d = some ta) (hb : b.term d = some tb) (oracle : GraphOracle) :
    pairSubsumes a b d ta tb oracle = (termSubsumes ta tb oracle).getD false := by
  cases ta with
  | versionRange p =>
    cases tb with
    | exact v =>
      rw [pairSubsumes, termSubsumes, versionRequirement_eq ha, versionReqMatches_raw]
      rfl
    | set s =>
      rw [pairSubsumes, termSubsumes, versionRequirement_eq ha, Bool.eq_iff_iff,
        allVersionsMatch_getD]
      simp
    | versionRange q =>
      rw [pairSubsumes, termSubsumes, versionInterval_eq ha,
        versionInterval_eq hb, versionReqInterval_raw, versionReqInterval_raw]
      by_cases hraw : p.raw = q.raw
      · simp [hraw]
      · rcases parsedVersionReqInterval p.req with _ | I <;>
          rcases parsedVersionReqInterval q.req with _ | J <;> simp [hraw]
    | range | gitReachable | redactedPlaceholder => rfl
  | exact | set | range | gitReachable | redactedPlaceholder => cases tb <;> rfl

/-- **Overlap through the caches is overlap of the terms.** -/
theorem pairOverlaps_eq (ha : a.term d = some ta) (hb : b.term d = some tb) (oracle : GraphOracle) :
    pairOverlaps a b d ta tb oracle = (termOverlaps ta tb oracle).getD true := by
  cases ta with
  | versionRange p =>
    cases tb with
    | exact v =>
      rw [pairOverlaps, termOverlaps, versionRequirement_eq ha, versionReqMatches_raw]
      rfl
    | set s =>
      rw [pairOverlaps, termOverlaps, versionRequirement_eq ha, Bool.eq_iff_iff,
        anyVersionMatches_getD]
      simp
    | versionRange q =>
      rw [pairOverlaps, termOverlaps, versionInterval_eq ha,
        versionInterval_eq hb, versionReqInterval_raw, versionReqInterval_raw]
      by_cases hraw : p.raw = q.raw
      · rw [VersionSpec.req_eq_of_raw_eq hraw]
        rcases parsedVersionReqInterval q.req with _ | I <;> simp [hraw]
      · rcases parsedVersionReqInterval p.req with _ | I <;>
          rcases parsedVersionReqInterval q.req with _ | J <;> simp [hraw]
    | range | gitReachable | redactedPlaceholder => rfl
  | exact u =>
    cases tb with
    | versionRange q =>
      rw [pairOverlaps, termOverlaps, versionRequirement_eq hb, versionReqMatches_raw]
      rfl
    | exact | set | range | gitReachable | redactedPlaceholder => rfl
  | set s =>
    cases tb with
    | versionRange q =>
      rw [pairOverlaps, termOverlaps, versionRequirement_eq hb, Bool.eq_iff_iff,
        anyVersionMatches_getD]
      simp
    | exact | set | range | gitReachable | redactedPlaceholder => rfl
  | range | gitReachable | redactedPlaceholder => cases tb <;> rfl

/-! ## One pair of terms -/

theorem rangeContains_iff {start stop : Option String} : rangeContains start stop v = true ↔
      (∀ s, start = some s → s ≤ v) ∧ ∀ e, stop = some e → v < e := by
  cases start <;> cases stop <;> simp [rangeContains]

/-- A range bounded no more tightly holds every value of the other. -/
theorem rangeContains_of_bounds {ps pe rs re : Option String} (hs : rangeBoundLe ps rs = true)
    (he : rangeBoundGe pe re = true) (hv : rangeContains rs re v = true) :
    rangeContains ps pe v = true := by
  rw [rangeContains_iff] at hv ⊢
  refine ⟨fun s hps => ?_, fun e hpe => ?_⟩
  · subst hps
    rcases rs with _ | r
    · cases hs
    · exact le_trans (of_decide_eq_true hs) (hv.1 r rfl)
  · subst hpe
    rcases re with _ | r
    · cases he
    · exact lt_of_lt_of_le (hv.2 r rfl) (of_decide_eq_true he)

theorem startsBeforeEnd_of_mem {start stop : Option String} (hs : ∀ s, start = some s → s ≤ v)
    (he : ∀ e, stop = some e → v < e) : startsBeforeEnd start stop = true := by
  rcases start with _ | s
  · rfl
  rcases stop with _ | e
  · rfl
  exact decide_eq_true (lt_of_le_of_lt (hs s rfl) (he e rfl))

/-- A value two requirements admit lies in the intervals of both. -/
theorem parsedVersionReqMatches_mem (hsv : sv.Documented) (spec : VersionSpec sv)
    {I : VersionInterval} (hI : parsedVersionReqInterval spec.req = some I) {value : String}
    {reading : VersionReading} (hreading : VersionReading.parse sv value = some reading) :
    parsedVersionReqMatches sv spec.req value = some true ↔ reading.comparable.core ∈ I := by
  rw [← VersionReading.matches_iff_mem hsv spec.parsed hI hreading, parsedVersionReqMatches,
    hreading]
  simp

/-- A value that a term of text holds. -/
def TermValue.Holds (v : String) : TermValue sv → Prop
  | .exact u => u = v
  | .set s => v ∈ s
  | .range start stop => rangeContains start stop v = true
  | .versionRange spec => parsedVersionReqMatches sv spec.req v = some true
  | .gitReachable _ => False
  | .redactedPlaceholder => False

/-- A term of text admits a context that resolves to a value it holds. -/
theorem admits_of_holds (hv : ctx.Resolves d v) (ht : t.Holds v) : t.Admits oracle ctx d := by
  cases t with
  | exact u =>
    obtain rfl : u = v := ht
    exact hv
  | set | range | versionRange => exact ⟨v, hv, ht⟩
  | gitReachable | redactedPlaceholder => exact ht.elim

theorem termSubsumes_exact : termSubsumes t (.exact v) oracle = some true ↔ t.Holds v := by
  cases t with
  | versionRange q => rw [termSubsumes, versionReqMatches_raw, Holds]
  | exact | set | range | gitReachable | redactedPlaceholder =>
    simp [termSubsumes, Holds]

theorem termSubsumes_set {s : Finset String} (hs : s.Nonempty) :
    termSubsumes t (.set s) oracle = some true ↔ ∀ v ∈ s, t.Holds v := by
  cases t with
  | exact u =>
    simp only [termSubsumes, Holds, Option.some_inj, Bool.and_eq_true, beq_iff_eq,
      decide_eq_true_eq, Finset.card_eq_one]
    constructor
    · rintro ⟨⟨w, rfl⟩, hu⟩ v hv
      exact (Finset.mem_singleton.mp hu).trans (Finset.mem_singleton.mp hv).symm
    · intro hall
      obtain ⟨w, hw⟩ := hs
      obtain rfl := hall w hw
      exact ⟨⟨u, Finset.eq_singleton_iff_unique_mem.mpr ⟨hw, fun v hv => (hall v hv).symm⟩⟩, hw⟩
  | versionRange q =>
    have hgetD : ∀ answer : Option Bool, answer.getD false = true ↔ answer = some true := by
      rintro (_ | _ | _) <;> simp
    rw [termSubsumes, ← hgetD, allVersionsMatch_getD]
    simp only [Finset.mem_sort, hgetD, Holds]
  | set | range => simp [termSubsumes, Holds, Finset.subset_iff]
  | gitReachable | redactedPlaceholder =>
    obtain ⟨w, hw⟩ := hs
    simp only [termSubsumes, Holds]
    simpa using ⟨w, hw⟩

/-- What a term subsumes, it subsumes value by value. -/
theorem holds_of_termSubsumes (hsv : sv.Documented)
    (h : termSubsumes ta tb oracle = some true) (hb : tb.Holds v) : ta.Holds v := by
  cases tb with
  | exact u =>
    obtain rfl : u = v := hb
    exact termSubsumes_exact.mp h
  | set s => exact (termSubsumes_set ⟨v, hb⟩).mp h v hb
  | range rs re =>
    cases ta with
    | range ps pe =>
      obtain ⟨hs, he⟩ : rangeBoundLe ps rs = true ∧ rangeBoundGe pe re = true := by
        simpa [termSubsumes] using h
      exact rangeContains_of_bounds hs he hb
    | exact | set | versionRange | gitReachable | redactedPlaceholder => simp [termSubsumes] at h
  | versionRange q =>
    cases ta with
    | versionRange p =>
      rw [termSubsumes] at h
      split at h
      · rename_i hraw
        rw [Holds, VersionSpec.req_eq_of_raw_eq hraw]
        exact hb
      · obtain ⟨I, hI, h⟩ := Option.bind_eq_some_iff.mp h
        obtain ⟨J, hJ, hcontains⟩ := Option.map_eq_some_iff.mp h
        rw [versionReqInterval_raw] at hI hJ
        rw [Holds] at hb ⊢
        obtain ⟨reading, hreading, -⟩ := Option.map_eq_some_iff.mp hb
        rw [parsedVersionReqMatches_mem hsv q hJ hreading] at hb
        rw [parsedVersionReqMatches_mem hsv p hI hreading]
        exact OptInterval.mem_of_contains hcontains hb
    | exact | set | range | gitReachable | redactedPlaceholder => simp [termSubsumes] at h
  | gitReachable | redactedPlaceholder => exact hb.elim

/-- **A pair that subsumes is sound**: what `b` admits, `a` admits. -/
theorem termSubsumes_sound (hsv : sv.Documented) (horacle : oracle.Frozen)
    (h : termSubsumes ta tb oracle = some true)
    (hb : tb.Admits oracle ctx d) : ta.Admits oracle ctx d := by
  cases tb with
  | redactedPlaceholder => exact hb.elim
  | exact v => exact admits_of_holds hb (holds_of_termSubsumes hsv h rfl)
  | set | range | versionRange =>
    obtain ⟨v, hv, hmem⟩ := hb
    exact admits_of_holds hv (holds_of_termSubsumes hsv h hmem)
  | gitReachable g =>
    obtain ⟨head, hhead, hg⟩ := hb
    cases ta with
    | gitReachable f =>
      refine ⟨head, hhead, ?_⟩
      rw [termSubsumes] at h
      split at h
      · rename_i heq
        rw [heq]
        exact hg
      · exact horacle.trans h hg
    | exact | set | range | versionRange | redactedPlaceholder => simp [termSubsumes] at h

/-- Overlap of terms does not depend on their order. -/
theorem termOverlaps_comm (ta tb : TermValue sv) (oracle : GraphOracle) :
    termOverlaps ta tb oracle = termOverlaps tb ta oracle := by
  cases ta with
  | exact u =>
    cases tb with
    | exact v => simp [termOverlaps, Bool.beq_comm]
    | set | range | versionRange | gitReachable | redactedPlaceholder => rfl
  | set s =>
    cases tb with
    | set t => simp [termOverlaps, disjoint_comm]
    | exact | range | versionRange | gitReachable | redactedPlaceholder => rfl
  | range ps pe =>
    cases tb with
    | range rs re => simp [termOverlaps, rangesOverlap, Bool.and_comm]
    | exact | set | versionRange | gitReachable | redactedPlaceholder => rfl
  | versionRange p =>
    cases tb with
    | versionRange q =>
      rw [termOverlaps, termOverlaps]
      by_cases hraw : p.raw = q.raw
      · simp [hraw]
      · rw [if_neg hraw, if_neg (Ne.symm hraw)]
        rcases versionReqInterval sv p.raw with _ | I <;>
          rcases versionReqInterval sv q.raw with _ | J <;> simp [OptInterval.overlaps_comm]
    | exact | set | range | gitReachable | redactedPlaceholder => rfl
  | gitReachable h =>
    cases tb with
    | gitReachable g => simp only [termOverlaps, eq_comm, or_comm]
    | exact | set | range | versionRange | redactedPlaceholder => rfl
  | redactedPlaceholder => cases tb <;> rfl

section Overlap

theorem termOverlaps_exact_ne_false {u : String} (ha : ctx.Resolves d u)
    (hb : tb.Admits oracle ctx d) : termOverlaps (.exact u) tb oracle ≠ some false := by
  cases tb with
  | exact v =>
    obtain rfl := ha.unique hb
    simp [termOverlaps]
  | set s | range start stop =>
    obtain ⟨v, hv, hmem⟩ := hb
    obtain rfl := ha.unique hv
    simp [termOverlaps, hmem]
  | versionRange q =>
    obtain ⟨v, hv, hmatch⟩ := hb
    obtain rfl := ha.unique hv
    simp [termOverlaps, versionReqMatches_raw, hmatch]
  | gitReachable | redactedPlaceholder => simp [termOverlaps]

theorem termOverlaps_set_ne_false {s : Finset String} (ha : (set s).Admits oracle ctx d)
    (hb : tb.Admits oracle ctx d) : termOverlaps (.set s) tb oracle ≠ some false := by
  obtain ⟨u, hu, hus⟩ := ha
  cases tb with
  | exact v =>
    rw [termOverlaps_comm]
    exact termOverlaps_exact_ne_false hb ⟨u, hu, hus⟩
  | set t =>
    obtain ⟨v, hv, hmem⟩ := hb
    obtain rfl := hu.unique hv
    have hmeet : ¬ Disjoint s t := Finset.not_disjoint_iff.mpr ⟨u, hus, hmem⟩
    simp [termOverlaps, hmeet]
  | range start stop =>
    obtain ⟨v, hv, hmem⟩ := hb
    obtain rfl := hu.unique hv
    have hex : ∃ v ∈ s, rangeContains start stop v = true := ⟨u, hus, hmem⟩
    simp [termOverlaps, hex]
  | versionRange q =>
    obtain ⟨v, hv, hmatch⟩ := hb
    obtain rfl := hu.unique hv
    intro hfalse
    rw [termOverlaps] at hfalse
    have hany := (anyVersionMatches_getD q (s.sort (· ≤ ·))).mpr
      ⟨u, by simpa using hus, by simp [hmatch]⟩
    simp [hfalse] at hany
  | gitReachable | redactedPlaceholder => simp [termOverlaps]

/-- **Two terms that admit one context are never reported disjoint.** -/
theorem termOverlaps_ne_false (hsv : sv.Documented) (ha : ta.Admits oracle ctx d)
    (hb : tb.Admits oracle ctx d) : termOverlaps ta tb oracle ≠ some false := by
  cases ta with
  | redactedPlaceholder => exact ha.elim
  | exact u => exact termOverlaps_exact_ne_false ha hb
  | set s => exact termOverlaps_set_ne_false ha hb
  | range ps pe =>
    cases tb with
    | exact v =>
      rw [termOverlaps_comm]
      exact termOverlaps_exact_ne_false hb ha
    | set s =>
      rw [termOverlaps_comm]
      exact termOverlaps_set_ne_false hb ha
    | range rs re =>
      obtain ⟨u, hu, hmem⟩ := ha
      obtain ⟨v, hv, hmem'⟩ := hb
      obtain rfl := hu.unique hv
      rw [rangeContains_iff] at hmem hmem'
      simp [termOverlaps, rangesOverlap, startsBeforeEnd_of_mem hmem.1 hmem'.2,
        startsBeforeEnd_of_mem hmem'.1 hmem.2]
    | versionRange | gitReachable | redactedPlaceholder => simp [termOverlaps]
  | versionRange p =>
    cases tb with
    | exact v =>
      rw [termOverlaps_comm]
      exact termOverlaps_exact_ne_false hb ha
    | set s =>
      rw [termOverlaps_comm]
      exact termOverlaps_set_ne_false hb ha
    | versionRange q =>
      obtain ⟨u, hu, hp⟩ := ha
      obtain ⟨v, hv, hq⟩ := hb
      obtain rfl := hu.unique hv
      obtain ⟨reading, hreading, -⟩ := Option.map_eq_some_iff.mp hp
      rw [termOverlaps, versionReqInterval_raw, versionReqInterval_raw]
      rcases hI : parsedVersionReqInterval p.req with _ | I
      · simp
      have hpI := (parsedVersionReqMatches_mem hsv p hI hreading).mp hp
      split
      · have hne : I.isEmpty = false := by
          by_contra hempty
          exact OptInterval.not_mem_of_isEmpty (Bool.not_eq_false _ ▸ hempty) _ hpI
        simp [hne]
      · rcases hJ : parsedVersionReqInterval q.req with _ | J
        · simp
        have hqJ := (parsedVersionReqMatches_mem hsv q hJ hreading).mp hq
        simp [OptInterval.overlaps_of_mem hpI hqJ]
    | range | gitReachable | redactedPlaceholder => simp [termOverlaps]
  | gitReachable f =>
    cases tb with
    | gitReachable g =>
      rw [termOverlaps]
      split
      · simp
      · split <;> simp
    | exact | set | range | versionRange | redactedPlaceholder => simp [termOverlaps]

end Overlap

/-! ## Whole scopes -/

theorem scopeSubsumes_eq_true {oracle : GraphOracle} :
    scopeSubsumes a b oracle = true ↔ ∀ d ta, a.term d = some ta →
      ∃ tb, b.term d = some tb ∧ termSubsumes ta tb oracle = some true := by
  simp only [scopeSubsumes, List.all_eq_true, Prod.forall, mem_termList]
  refine forall_congr' fun d => forall_congr' fun ta => forall_congr' fun ha => ?_
  rcases hb : b.term d with _ | tb
  · simp
  · change pairSubsumes a b d ta tb oracle = true ↔ _
    rw [pairSubsumes_eq ha hb]
    rcases hsub : termSubsumes ta tb oracle with _ | _ | _ <;> simp [hsub]

theorem scopeOverlaps_eq_true {oracle : GraphOracle} :
    scopeOverlaps a b oracle = true ↔ ∀ d ta tb, a.term d = some ta → b.term d = some tb →
      termOverlaps ta tb oracle ≠ some false := by
  simp only [scopeOverlaps, List.all_eq_true, Prod.forall, mem_termList]
  refine forall_congr' fun d => forall_congr' fun ta => ?_
  rcases hb : b.term d with _ | tb
  · simp
  · refine ⟨fun h tb' ha htb => ?_, fun h ha => ?_⟩
    · obtain rfl := Option.some.inj htb
      have htrue : pairOverlaps a b d ta tb oracle = true := h ha
      rw [pairOverlaps_eq ha hb] at htrue
      rcases hov : termOverlaps ta tb oracle with _ | _ | _ <;> simp [hov] at htrue ⊢
    · have hne := h tb ha rfl
      change pairOverlaps a b d ta tb oracle = true
      rw [pairOverlaps_eq ha hb]
      rcases hov : termOverlaps ta tb oracle with _ | _ | _ <;> simp [hov] at hne ⊢

/-- **Subsumption is sound.**  Where one scope subsumes another over one frozen commit graph, every
context the narrower one matches is matched by the wider one. -/
theorem scopeSubsumes_sound (sv : SemVer) (hsv : sv.Documented) (oracle : GraphOracle)
    (horacle : oracle.Frozen) (a b : CanonicalScope sv) (ctx : ScopeMatchContext sv)
    (h : scopeSubsumes a b oracle = true) (hb : scopeMatches b ctx oracle = .matches) :
    scopeMatches a ctx oracle = .matches := by
  rw [scopeMatches_eq_matches] at hb ⊢
  intro d ta ha
  obtain ⟨tb, htb, hsub⟩ := scopeSubsumes_eq_true.mp h d ta ha
  exact termSubsumes_sound hsv horacle hsub (hb d tb htb)

/-- The crate's operations on the texts of the examples below. -/
def exampleSemVer : SemVer where
  parseVersion
    | "1.3.0" => some ⟨1, 3, 0, "", ""⟩
    | _ => none
  parseReq
    | ">=1.0.0" => some ⟨[⟨.greaterEq, 1, some 0, some 0, ""⟩]⟩
    | ">=1.2.0" => some ⟨[⟨.greaterEq, 1, some 2, some 0, ""⟩]⟩
    | "<1.0.0" => some ⟨[⟨.less, 1, some 0, some 0, ""⟩]⟩
    | _ => none
  reqMatches req v := decide (∀ c ∈ req.comparators, c.Admits v.core)
  newBuild := some

theorem exampleSemVer_documented : exampleSemVer.Documented where
  parseReq_wellFormed := by
    intro raw req h c hc
    simp only [exampleSemVer] at h
    split at h
    all_goals
      cases h <;>
        · obtain rfl := List.mem_singleton.mp hc
          exact fun _ => rfl
  reqMatches_release := by
    intro req v _ _
    exact decide_eq_true_iff

theorem isPartialOrder_eq : IsPartialOrder String Eq where
  refl := fun _ => rfl
  trans := fun _ _ _ h h' => h.trans h'
  antisymm := fun _ _ h _ => h

theorem unknownGraph_frozen : unknownGraph.Frozen where
  answers := ⟨Eq, isPartialOrder_eq, fun _ _ _ h => by cases h⟩
  decides := fun _ _ _ h => by cases h

/-- A scope that holds of the versions that a requirement admits. -/
def scopeFrom (raw : String) (req : VersionReq) (h : exampleSemVer.parseReq raw = some req) :
    CanonicalScope exampleSemVer :=
  CanonicalScope.unconstrained.push .platform (.versionRange (.ofParsed raw req h)) rfl

theorem scopeSubsumes_sound_from_one :
    scopeMatches (scopeFrom ">=1.0.0" _ rfl)
      (ScopeMatchContext.new.withValue .platform "1.3.0") unknownGraph = .matches :=
  scopeSubsumes_sound exampleSemVer exampleSemVer_documented unknownGraph unknownGraph_frozen
    (scopeFrom ">=1.0.0" _ rfl) (scopeFrom ">=1.2.0" _ rfl) _ (by decide) (by decide)

/-- **Overlap is symmetric and never misses a conflict.**  Two scopes that are reported not to
overlap have no context that both of them match. -/
theorem scopeOverlaps_comm_and_complete (sv : SemVer) (hsv : sv.Documented) (oracle : GraphOracle)
    (a b : CanonicalScope sv) :
    scopeOverlaps a b oracle = scopeOverlaps b a oracle ∧
      (scopeOverlaps a b oracle = false → ∀ ctx : ScopeMatchContext sv,
        ¬ (scopeMatches a ctx oracle = .matches ∧ scopeMatches b ctx oracle = .matches)) := by
  refine ⟨?_, ?_⟩
  · rw [Bool.eq_iff_iff, scopeOverlaps_eq_true, scopeOverlaps_eq_true]
    refine ⟨fun h d tb ta hb ha => ?_, fun h d ta tb ha hb => ?_⟩
    · rw [termOverlaps_comm]
      exact h d ta tb ha hb
    · rw [termOverlaps_comm]
      exact h d tb ta hb ha
  · rintro hfalse ctx ⟨ha, hb⟩
    rw [scopeMatches_eq_matches] at ha hb
    have htrue : scopeOverlaps a b oracle = true := scopeOverlaps_eq_true.mpr
      fun d ta tb hta htb => termOverlaps_ne_false hsv (ha d ta hta) (hb d tb htb)
    exact absurd htrue (by simp [hfalse])

theorem scopeOverlaps_comm_and_complete_from_one :
    scopeOverlaps (scopeFrom ">=1.0.0" _ rfl) (scopeFrom ">=1.2.0" _ rfl) unknownGraph =
      scopeOverlaps (scopeFrom ">=1.2.0" _ rfl) (scopeFrom ">=1.0.0" _ rfl) unknownGraph ∧
    ∀ ctx, ¬ (scopeMatches (scopeFrom "<1.0.0" _ rfl) ctx unknownGraph = .matches ∧
      scopeMatches (scopeFrom ">=1.2.0" _ rfl) ctx unknownGraph = .matches) :=
  ⟨(scopeOverlaps_comm_and_complete exampleSemVer exampleSemVer_documented unknownGraph
    (scopeFrom ">=1.0.0" _ rfl) (scopeFrom ">=1.2.0" _ rfl)).1,
    (scopeOverlaps_comm_and_complete exampleSemVer exampleSemVer_documented unknownGraph
      (scopeFrom "<1.0.0" _ rfl) (scopeFrom ">=1.2.0" _ rfl)).2 (by decide)⟩

end MagicContext.Scope
