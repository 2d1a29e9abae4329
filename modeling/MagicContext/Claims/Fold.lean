import Mathlib.Data.List.Induction
import MagicContext.Claims.Store

/-!
# The mirror as a fold

What the mirror holds is said without its tables: a snapshot gives every project its generations
and its checkpoint and every claim its row, and a receipt goes over it effect by effect.  The
tables hold exactly the fold of the receipts that were accepted since the snapshot.

## What is here

* `MirrorView` — what the tables answer; `ofSnapshot`, `receipt` and `fold`.
* `Linked` — effects that follow one another.
* `seed_view`, `applyFresh_view` — the tables follow the view.
* `Tracks` — what ties the tables to what was accepted, kept by `tracks_seed` and
  `tracks_receipt`.
-/

namespace MagicContext.Claims

open Checks SortedMap ClaimMirrorReceiptGroup

/-! ## Views -/

/-- What the mirror answers. -/
@[ext] structure MirrorView where
  projects : Int → Option ClaimMirrorProjectState
  claims : String → Option StoredClaim

def Mirror.view (mirror : Mirror) : MirrorView := ⟨mirror.projects.get, mirror.claims.get⟩

namespace MirrorView

/-- The row of a claim, if it has one. -/
def rowOf (claim : CommittedClaimMirrorRow) : Option StoredClaim := (storedClaim claim).toOption

def ofSnapshot (snapshot : ClaimMirrorSnapshot) : MirrorView where
  projects projectId := (snapshot.projectCheckpoints.get projectId).map fun checkpoint =>
    { projectGeneration := generationOf snapshot.vector.projectGenerations projectId
      policyGeneration := generationOf snapshot.vector.policyGenerations projectId
      ackedEffectId := checkpoint }
  claims publicClaimId :=
    (snapshot.claims.find? fun claim => decide (claim.publicClaimId = publicClaimId)).bind rowOf

/-- An effect puts its claim in place, or takes it away. -/
def effect (claims : String → Option StoredClaim) (e : ClaimMirrorEffect) :
    String → Option StoredClaim :=
  Function.update claims e.publicClaimId (e.claim.bind rowOf)

/-- The last effect of a project in a receipt. -/
def lastEffect (group : ClaimMirrorReceiptGroup) (projectId acked : Int) : Int :=
  ((group.effects.filter fun e => e.projectId == projectId).getLast?.map
    ClaimMirrorEffect.effectId).getD acked

/-- A receipt brings its projects to its generations, with all their claims. -/
def receipt (view : MirrorView) (group : ClaimMirrorReceiptGroup) : MirrorView where
  projects projectId := (view.projects projectId).map fun state =>
    if group.touches projectId then
      { projectGeneration := generationOf group.vector.projectGenerations projectId
        policyGeneration := generationOf group.vector.policyGenerations projectId
        ackedEffectId := lastEffect group projectId state.ackedEffectId }
    else state
  claims publicClaimId := (group.effects.foldl effect view.claims publicClaimId).map fun claim =>
    if group.touches claim.projectId then group.stamp claim else claim

/-- **The fold** of the receipts over the snapshot. -/
def fold (snapshot : ClaimMirrorSnapshot) (groups : List ClaimMirrorReceiptGroup) : MirrorView :=
  groups.foldl receipt (ofSnapshot snapshot)

end MirrorView

/-- Effects each of which names the one before it, from `first` to `last`. -/
inductive Linked : Int → List ClaimMirrorEffect → Int → Prop
  | nil (first : Int) : Linked first [] first
  | cons {first last : Int} {e : ClaimMirrorEffect} {effects : List ClaimMirrorEffect}
      (hprevious : e.previousProjectEffectId = first) (h : Linked e.effectId effects last) :
      Linked first (e :: effects) last

theorem Linked.append {first middle last : Int} {l l' : List ClaimMirrorEffect}
    (h : Linked first l middle) (h' : Linked middle l' last) : Linked first (l ++ l') last := by
  induction h with
  | nil => exact h'
  | cons hprevious _ ih => exact .cons hprevious (ih h')

/-- The effects of a project in receipts, in order. -/
def effectsOf (projectId : Int) (groups : List ClaimMirrorReceiptGroup) : List ClaimMirrorEffect :=
  groups.flatMap fun group => group.effects.filter fun e => e.projectId == projectId

/-! ## Checks that went through -/

theorem toString_inj_of_nonneg {p q : Int} (hp : 0 ≤ p) (hq : 0 ≤ q)
    (h : toString p = toString q) : p = q := by
  obtain ⟨n, rfl⟩ := Int.eq_ofNat_of_zero_le hp
  obtain ⟨m, rfl⟩ := Int.eq_ofNat_of_zero_le hq
  exact congrArg Int.ofNat (Text.toString_nat_inj h)

variable {projectId : Int} {vector : SnapshotVector} {claim : CommittedClaimMirrorRow} {u : Unit}

section Checked
variable {sys : MirrorPlatform}

theorem nonneg_of_validProjectId (h : validProjectId projectId = true) : 0 ≤ projectId := by
  simp only [validProjectId, Bool.and_eq_true, decide_eq_true_eq] at h
  omega

/-- A key of a vector is a project's number. -/
theorem validateVectorEntry_eq_ok {entry : String × Int}
    (h : validateVectorEntry vector entry = .ok projectId) :
    validProjectId projectId = true ∧ entry.1 = toString projectId ∧
      parseProjectId entry.1 = some projectId := by
  rw [validateVectorEntry] at h
  split at h
  · cases h
  · rename_i projectId' hparse
    rw [check_eq_ok, check_eq_ok, not_or, Bool.not_eq_true', Bool.not_eq_false, not_not] at h
    obtain ⟨⟨hvalid, hkey⟩, -, h⟩ := h
    cases h
    exact ⟨hvalid, hkey, hparse⟩

theorem validateVectorEntries_eq_ok {entries : List (String × Int)} {projectIds : List Int}
    (h : validateVectorEntries vector entries = .ok projectIds) :
    List.Forall₂ (fun entry projectId => validProjectId projectId = true ∧
      entry.1 = toString projectId ∧ parseProjectId entry.1 = some projectId)
        entries projectIds := by
  induction entries generalizing projectIds with
  | nil =>
    cases h
    exact .nil
  | cons entry entries ih =>
    rw [validateVectorEntries] at h
    obtain ⟨projectId, hentry, h⟩ := bind_eq_ok.mp h
    obtain ⟨rest, hrest, h⟩ := bind_eq_ok.mp h
    cases h
    exact .cons (validateVectorEntry_eq_ok hentry) (ih hrest)

/-- The projects of a vector are the ones its keys name. -/
theorem mem_of_key {projectIds : List Int}
    (h : validateVectorEntries vector vector.projectGenerations.entries = .ok projectIds)
    (hvalid : validProjectId projectId = true)
    (hkey : (vector.projectGenerations.get (toString projectId)).isSome) :
    projectId ∈ projectIds := by
  obtain ⟨generation, hget⟩ := Option.isSome_iff_exists.mp hkey
  obtain ⟨n, hn, hentry⟩ := List.getElem_of_mem (get_eq_some.mp hget)
  have hall := validateVectorEntries_eq_ok h
  have hn' : n < projectIds.length := hall.length_eq ▸ hn
  have hat := List.forall₂_iff_get.mp hall
  obtain ⟨hvalid', htext, -⟩ := hat.2 n hn hn'
  rw [List.get_eq_getElem, hentry] at htext
  have hid : projectId = projectIds[n] := toString_inj_of_nonneg
    (nonneg_of_validProjectId hvalid) (nonneg_of_validProjectId hvalid') htext
  rw [hid]
  exact List.getElem_mem hn'

/-- The facts that the checks of a vector give. -/
theorem validateVector_eq_ok {projectIds : List Int} (h : validateVector vector = .ok projectIds) :
    vector.vectorVersion = claimMirrorVectorVersion ∧
      isLowerHex vector.databaseIncarnationId 32 = true ∧ vector.workspaceEpoch ≠ "" ∧
      vector.projectGenerations.keys = vector.policyGenerations.keys ∧
      validateVectorEntries vector vector.projectGenerations.entries = .ok projectIds := by
  rw [validateVector, check_eq_ok, check_eq_ok, check_eq_ok, check_eq_ok, not_not,
    Bool.not_eq_true', Bool.not_eq_false, not_not] at h
  exact h

/-- The facts that the checks of a claim give. -/
structure ClaimChecked (sys : MirrorPlatform) (vector : SnapshotVector)
    (claim : CommittedClaimMirrorRow) : Prop where
  names : validateClaimNames sys claim = .ok ()
  project : validProjectId claim.projectId = true
  locator : ∃ locator, parseRevisionLocator claim.revisionLocator = some locator ∧
    locator.publicClaimId = claim.publicClaimId ∧ locator.contentDigest = claim.contentDigest
  projectGeneration :
    vector.projectGenerations.get (toString claim.projectId) = some claim.projectGeneration
  policyGeneration :
    vector.policyGenerations.get (toString claim.projectId) = some claim.policyGeneration
  attributes : ∃ text, validateJsonObject claim.attributes "claim attributes" = .ok text
  applicability : ∃ text, validateJsonObject claim.applicability "claim applicability" = .ok text
  policy : ∃ text, validateJsonObject claim.policy "claim policy" = .ok text
  label : validateLabel claim.provenanceLabel = .ok ()

theorem validateClaimGenerations_eq_ok (h : validateClaimGenerations claim vector = .ok u) :
    vector.projectGenerations.get (toString claim.projectId) = some claim.projectGeneration ∧
      vector.policyGenerations.get (toString claim.projectId) = some claim.policyGeneration := by
  rw [validateClaimGenerations] at h
  split at h
  · cases h
  · rename_i generation hget
    rw [check_eq_ok, not_or, not_not, not_not] at h
    exact ⟨h.1.1 ▸ hget, h.1.2.symm⟩

theorem validateClaimNames_eq_ok (h : validateClaimNames sys claim = .ok u) :
    isValidPublicClaimId claim.publicClaimId = true ∧ validProjectId claim.projectId = true ∧
      (∃ locator, parseRevisionLocator claim.revisionLocator = some locator ∧
        locator.publicClaimId = claim.publicClaimId ∧
        locator.contentDigest = claim.contentDigest) ∧
      sys.sha256Hex claim.content = claim.contentDigest := by
  rw [validateClaimNames, check_eq_ok, check_eq_ok] at h
  obtain ⟨hid, hproject, h⟩ := h
  split at h
  · cases h
  · rename_i locator hlocator
    rw [check_eq_ok, check_eq_ok, not_or, not_not, not_not, not_not] at h
    exact ⟨by simpa using hid, by simpa using hproject, ⟨locator, hlocator, h.1.1, h.1.2⟩, h.2.1⟩

theorem validateClaim_eq_ok :
    validateClaim sys claim vector = .ok u ↔ ClaimChecked sys vector claim := by
  constructor
  · intro h
    rw [validateClaim] at h
    obtain ⟨_, hnames, h⟩ := bind_eq_ok.mp h
    obtain ⟨_, hgenerations, h⟩ := bind_eq_ok.mp h
    obtain ⟨attributes, hattributes, h⟩ := bind_eq_ok.mp h
    obtain ⟨applicability, happlicability, h⟩ := bind_eq_ok.mp h
    obtain ⟨policy, hpolicy, h⟩ := bind_eq_ok.mp h
    obtain ⟨-, hproject, hlocator, -⟩ := validateClaimNames_eq_ok hnames
    obtain ⟨hgeneration, hpolicyGeneration⟩ := validateClaimGenerations_eq_ok hgenerations
    exact ⟨hnames, hproject, hlocator, hgeneration, hpolicyGeneration, ⟨_, hattributes⟩,
      ⟨_, happlicability⟩, ⟨_, hpolicy⟩, h⟩
  · intro h
    obtain ⟨attributes, hattributes⟩ := h.attributes
    obtain ⟨applicability, happlicability⟩ := h.applicability
    obtain ⟨policy, hpolicy⟩ := h.policy
    refine bind_eq_ok.mpr ⟨(), h.names, bind_eq_ok.mpr ⟨(), ?_, bind_eq_ok.mpr
      ⟨attributes, hattributes, bind_eq_ok.mpr ⟨applicability, happlicability,
        bind_eq_ok.mpr ⟨policy, hpolicy, h.label⟩⟩⟩⟩⟩
    rw [validateClaimGenerations, h.projectGeneration]
    exact check_eq_ok.mpr ⟨not_or.mpr ⟨not_not.mpr rfl, not_not.mpr h.policyGeneration.symm⟩, rfl⟩

/-- The claims of a snapshot are checked, and their ids and locators differ. -/
theorem validateClaims_eq_ok {seen claims : List CommittedClaimMirrorRow} :
    validateClaims sys vector seen claims = .ok u ↔
      (∀ claim ∈ claims, ClaimChecked sys vector claim) ∧
        (∀ claim ∈ claims, ∀ c ∈ seen, c.publicClaimId ≠ claim.publicClaimId ∧
          c.revisionLocator ≠ claim.revisionLocator) ∧
        claims.Pairwise fun c claim => c.publicClaimId ≠ claim.publicClaimId ∧
          c.revisionLocator ≠ claim.revisionLocator := by
  induction claims generalizing seen with
  | nil => simp [validateClaims]
  | cons claim claims ih =>
    rw [validateClaims, List.forall_mem_cons, List.forall_mem_cons, List.pairwise_cons]
    constructor
    · intro h
      obtain ⟨_, hclaim, h⟩ := bind_eq_ok.mp h
      rw [check_eq_ok, check_eq_ok, ih] at h
      obtain ⟨hid, hlocator, hclaims, hseen, hpairwise⟩ := h
      simp only [List.any_eq_true, not_exists, not_and, beq_iff_eq] at hid hlocator
      refine ⟨⟨validateClaim_eq_ok.mp hclaim, hclaims⟩,
        ⟨fun c hc => ⟨hid c hc, hlocator c hc⟩, fun claim' hclaim' c hc =>
          hseen claim' hclaim' c (List.mem_cons_of_mem _ hc)⟩,
        fun claim' hclaim' => hseen claim' hclaim' claim (List.mem_cons_self ..), hpairwise⟩
    · rintro ⟨⟨hclaim, hclaims⟩, ⟨hfirst, hseen⟩, hhead, hpairwise⟩
      refine bind_eq_ok.mpr ⟨(), validateClaim_eq_ok.mpr hclaim, ?_⟩
      rw [check_eq_ok, check_eq_ok, ih]
      simp only [List.any_eq_true, not_exists, not_and, beq_iff_eq]
      refine ⟨fun c hc => (hfirst c hc).1, fun c hc => (hfirst c hc).2, hclaims,
        fun claim' hclaim' c hc => ?_, hpairwise⟩
      rcases List.mem_cons.mp hc with rfl | hc
      · exact hhead claim' hclaim'
      · exact hseen claim' hclaim' c hc

/-- The facts that the checks of a snapshot give. -/
structure SnapshotChecked (sys : MirrorPlatform) (snapshot : ClaimMirrorSnapshot) :
    Prop where
  version : snapshot.mirrorVersion = claimMirrorVersion
  vector : ∃ projectIds, validateVector snapshot.vector = .ok projectIds ∧
    snapshot.projectCheckpoints.keys ⊆ projectIds ∧ projectIds ⊆ snapshot.projectCheckpoints.keys
  checkpoints : ∀ entry ∈ snapshot.projectCheckpoints.entries,
    validProjectId entry.1 = true ∧ safeCount entry.2 = true
  claims : ∀ claim ∈ snapshot.claims, ClaimChecked sys snapshot.vector claim
  distinct : snapshot.claims.Pairwise fun c claim => c.publicClaimId ≠ claim.publicClaimId ∧
    c.revisionLocator ≠ claim.revisionLocator

theorem validateSnapshot_eq_ok {snapshot : ClaimMirrorSnapshot} :
    validateSnapshot sys snapshot = .ok u ↔ SnapshotChecked sys snapshot := by
  constructor
  · intro h
    rw [validateSnapshot, check_eq_ok, not_not] at h
    obtain ⟨hversion, h⟩ := h
    obtain ⟨projectIds, hvector, h⟩ := bind_eq_ok.mp h
    rw [check_eq_ok, check_eq_ok, not_not, validateClaims_eq_ok] at h
    obtain ⟨⟨hsub, hsup⟩, hcheckpoints, hclaims, -, hdistinct⟩ := h
    refine ⟨hversion, ⟨projectIds, hvector, hsub, hsup⟩, fun entry hentry => ?_, hclaims, hdistinct⟩
    simp only [List.any_eq_true, not_exists, not_and, Bool.or_eq_true, not_or,
      Bool.not_eq_true', Bool.not_eq_false] at hcheckpoints
    exact hcheckpoints entry hentry
  · rintro ⟨hversion, ⟨projectIds, hvector, hsub, hsup⟩, hcheckpoints, hclaims, hdistinct⟩
    rw [validateSnapshot, check_eq_ok, not_not]
    refine ⟨hversion, bind_eq_ok.mpr ⟨projectIds, hvector, ?_⟩⟩
    rw [check_eq_ok, check_eq_ok, not_not, validateClaims_eq_ok]
    refine ⟨⟨hsub, hsup⟩, ?_, hclaims, fun _ _ _ hseen => absurd hseen List.not_mem_nil, hdistinct⟩
    simp only [List.any_eq_true, not_exists, not_and, Bool.or_eq_true, not_or,
      Bool.not_eq_true', Bool.not_eq_false]
    exact hcheckpoints

end Checked

/-! ## Rows -/

/-- The fields that a row takes from its claim. -/
structure RowOf (claim : CommittedClaimMirrorRow) (row : StoredClaim) : Prop where
  publicClaimId : row.publicClaimId = claim.publicClaimId
  projectId : row.projectId = claim.projectId
  revisionLocator : row.revisionLocator = claim.revisionLocator
  content : row.content = claim.content
  contentDigest : row.contentDigest = claim.contentDigest
  attributes : canonicalJsonEncode claim.attributes = .ok row.attributesJson
  lifecycle : row.lifecycle = claim.lifecycle
  applicability : canonicalJsonEncode claim.applicability = .ok row.applicabilityJson
  policy : canonicalJsonEncode claim.policy = .ok row.policyJson
  provenanceLabel : row.provenanceLabel = claim.provenanceLabel
  projectGeneration : row.projectGeneration = claim.projectGeneration
  policyGeneration : row.policyGeneration = claim.policyGeneration

theorem canonical_eq_ok {α : Type} {result : Except ContractError α} {a : α} :
    canonical result = .ok a ↔ result = .ok a := by
  cases result <;> simp [canonical]

variable {row : StoredClaim} {claims claims' : ClaimTable} {e : ClaimMirrorEffect}
  {effects : List ClaimMirrorEffect} {group : ClaimMirrorReceiptGroup} {digest vectorJson : String}
  {mirror mirror' : Mirror}

theorem storedClaim_eq_ok (h : storedClaim claim = .ok row) : RowOf claim row := by
  rw [storedClaim] at h
  split at h
  · cases h
  · obtain ⟨attributes, hattributes, h⟩ := bind_eq_ok.mp h
    obtain ⟨applicability, happlicability, h⟩ := bind_eq_ok.mp h
    obtain ⟨policy, hpolicy, h⟩ := bind_eq_ok.mp h
    cases h
    exact ⟨rfl, rfl, rfl, rfl, rfl, canonical_eq_ok.mp hattributes, rfl,
      canonical_eq_ok.mp happlicability, canonical_eq_ok.mp hpolicy, rfl, rfl, rfl⟩

theorem rowOf_eq_some : MirrorView.rowOf claim = some row ↔ storedClaim claim = .ok row := by
  rw [MirrorView.rowOf]
  cases storedClaim claim <;> simp [Except.toOption]

/-- Claims go to their ids. -/
theorem insertClaim_eq_ok (h : insertClaim claims claim = .ok claims') :
    ∃ row, storedClaim claim = .ok row ∧ ∀ id, claims'.get id =
      if claim.publicClaimId = id then some row else claims.get id := by
  rw [insertClaim] at h
  obtain ⟨row, hrow, h⟩ := bind_eq_ok.mp h
  cases h
  refine ⟨row, hrow, fun id => ?_⟩
  rw [Table.get_put, (storedClaim_eq_ok hrow).publicClaimId]

theorem insertClaims_get {rest : List CommittedClaimMirrorRow}
    (h : insertClaims claims rest = .ok claims')
    (hdistinct : rest.Pairwise fun c claim => c.publicClaimId ≠ claim.publicClaimId ∧
      c.revisionLocator ≠ claim.revisionLocator) (id : String) : claims'.get id =
      match rest.find? fun claim => decide (claim.publicClaimId = id) with
      | some claim => MirrorView.rowOf claim
      | none => claims.get id := by
  induction rest generalizing claims with
  | nil =>
    cases h
    rfl
  | cons claim rest ih =>
    rw [insertClaims] at h
    obtain ⟨claims₁, hinsert, h⟩ := bind_eq_ok.mp h
    obtain ⟨row, hrow, hget⟩ := insertClaim_eq_ok hinsert
    obtain ⟨hhead, hrest⟩ := List.pairwise_cons.mp hdistinct
    rw [ih h hrest, List.find?_cons]
    by_cases hid : claim.publicClaimId = id
    · have hnone : rest.find? (fun claim => decide (claim.publicClaimId = id)) = none := by
        refine List.find?_eq_none.mpr fun c hc => ?_
        rw [decide_eq_true_eq, ← hid]
        exact (hhead c hc).1.symm
      rw [hnone, decide_eq_true hid, hget, if_pos hid]
      exact (rowOf_eq_some.mpr hrow).symm
    · rw [decide_eq_false hid, hget, if_neg hid]

/-- **A seed holds what the snapshot says.** -/
theorem seed_view {snapshot : ClaimMirrorSnapshot}
    (h : insertClaims Table.empty snapshot.claims = .ok claims)
    (hdistinct : snapshot.claims.Pairwise fun c claim => c.publicClaimId ≠ claim.publicClaimId ∧
      c.revisionLocator ≠ claim.revisionLocator) :
    (seedMirror snapshot claims).view = MirrorView.ofSnapshot snapshot := by
  have hprojects : (seedMirror snapshot claims).view.projects =
      (MirrorView.ofSnapshot snapshot).projects :=
    funext fun projectId => get_map _ projectId
  have hclaims : (seedMirror snapshot claims).view.claims =
      (MirrorView.ofSnapshot snapshot).claims := by
    funext id
    change claims.get id = _
    rw [insertClaims_get h hdistinct id]
    cases hfind : snapshot.claims.find? fun claim => decide (claim.publicClaimId = id) with
    | none => simp [MirrorView.ofSnapshot, hfind, Table.get, Table.empty]
    | some claim => simp [MirrorView.ofSnapshot, hfind]
  exact MirrorView.ext hprojects hclaims

/-! ## Receipts -/

section Receipts
variable {sys : MirrorPlatform}

/-- The facts that the checks of an effect give. -/
structure EffectChecked (sys : MirrorPlatform) (vector : SnapshotVector)
    (e : ClaimMirrorEffect) : Prop where
  safe : 0 < e.effectId ∧ e.effectId ≤ maxSafeInteger
  project : validProjectId e.projectId = true
  locator : ∃ locator, parseRevisionLocator e.revisionLocator = some locator
  publicClaimId : isValidPublicClaimId e.publicClaimId = true
  claim : ∀ claim, e.claim = some claim → ClaimChecked sys vector claim ∧
    claim.publicClaimId = e.publicClaimId ∧ claim.projectId = e.projectId ∧
    claim.revisionLocator = e.revisionLocator

theorem validateEffectNames_eq_ok (hsafe : 0 < e.effectId ∧ e.effectId ≤ maxSafeInteger)
    (h : validateEffectNames sys vector e = .ok u) : EffectChecked sys vector e := by
  rw [validateEffectNames, check_eq_ok, check_eq_ok, not_or, Bool.not_eq_true', Bool.not_eq_false,
    Bool.not_eq_true', Bool.not_eq_false] at h
  obtain ⟨⟨hproject, -⟩, hid, h⟩ := h
  split at h
  · cases h
  · rename_i locator hlocator
    rw [check_eq_ok, check_eq_ok] at h
    obtain ⟨-, -, h⟩ := h
    refine ⟨hsafe, hproject, ⟨locator, hlocator⟩, hid, fun claim hclaim => ?_⟩
    rw [hclaim] at h
    obtain ⟨_, hchecked, h⟩ := bind_eq_ok.mp h
    rw [check_eq_ok, not_or, not_or, not_not, not_not, not_not] at h
    exact ⟨validateClaim_eq_ok.mp hchecked, h.1⟩

theorem validateEffects_eq_ok {expected : Int} {keys : List String}
    (h : validateEffects sys vector expected keys effects = .ok u) :
    ∀ e ∈ effects, EffectChecked sys vector e := by
  induction effects generalizing expected keys with
  | nil => exact List.forall_mem_nil _
  | cons e effects ih =>
    rw [validateEffects, check_eq_ok, check_eq_ok, not_or, not_or, not_le, not_lt] at h
    obtain ⟨⟨-, hpositive, hsafe⟩, -, h⟩ := h
    obtain ⟨_, hnames, h⟩ := bind_eq_ok.mp h
    exact List.forall_mem_cons.mpr ⟨validateEffectNames_eq_ok ⟨hpositive, hsafe⟩ hnames, ih h⟩

/-- The facts that the checks of a receipt give. -/
structure GroupChecked (sys : MirrorPlatform) (group : ClaimMirrorReceiptGroup) : Prop where
  vector : ∃ projectIds, validateVector group.vector = .ok projectIds
  effects : ∀ e ∈ group.effects, EffectChecked sys group.vector e

theorem validateGroup_eq_ok (h : validateGroup sys group = .ok digest) :
    GroupChecked sys group := by
  rw [validateGroup, check_eq_ok] at h
  obtain ⟨-, h⟩ := h
  obtain ⟨projectIds, hvector, h⟩ := bind_eq_ok.mp h
  rw [check_eq_ok, check_eq_ok] at h
  obtain ⟨-, -, h⟩ := h
  obtain ⟨_, heffects, -⟩ := bind_eq_ok.mp h
  exact ⟨⟨projectIds, hvector⟩, validateEffects_eq_ok heffects⟩

/-- **An effect** changes the row of its claim. -/
theorem applyEffect_get (h : applyEffect claims e = .ok claims')
    (hclaim : ∀ claim, e.claim = some claim → claim.publicClaimId = e.publicClaimId) :
    claims'.get = MirrorView.effect claims.get e := by
  rw [applyEffect] at h
  obtain ⟨_, hsuccession, h⟩ := bind_eq_ok.mp h
  funext id
  rw [MirrorView.effect, Function.update_apply]
  cases heffect : e.claim with
  | some claim =>
    rw [heffect] at h
    obtain ⟨row, hrow, hget⟩ := insertClaim_eq_ok h
    rw [hget, hclaim claim heffect, Option.bind_some, rowOf_eq_some.mpr hrow]
    exact if_congr eq_comm rfl rfl
  | none =>
    rw [heffect] at h
    cases h
    rw [Table.get_delete, Option.bind_none]
    by_cases hid : id = e.publicClaimId
    · subst hid
      rw [if_pos rfl]
      rcases hget : claims.get e.publicClaimId with _ | stored
      · rfl
      · rw [requireStoredSuccession, hget] at hsuccession
        have hlocator : stored.revisionLocator = e.revisionLocator := by
          dsimp only at hsuccession
          rw [requireSuccession, check_eq_ok] at hsuccession
          obtain ⟨-, hsuccession⟩ := hsuccession
          split at hsuccession
          · cases hsuccession
          · rw [check_eq_ok, check_eq_ok, check_eq_ok, heffect] at hsuccession
            simpa using hsuccession.2.2.1
        simp [hlocator, (Table.get_eq_some.mp hget).2]
    · rw [if_neg hid]
      rcases hget : claims.get id with _ | stored
      · rfl
      · simp [(Table.get_eq_some.mp hget).2, hid]

theorem applyEffects_get (h : applyEffects claims effects = .ok claims')
    (hclaim : ∀ e ∈ effects, ∀ claim, e.claim = some claim →
      claim.publicClaimId = e.publicClaimId) :
    claims'.get = effects.foldl MirrorView.effect claims.get := by
  induction effects generalizing claims with
  | nil =>
    cases h
    rfl
  | cons e effects ih =>
    rw [applyEffects] at h
    obtain ⟨claims₁, he, h⟩ := bind_eq_ok.mp h
    rw [List.foldl_cons, ← applyEffect_get he (hclaim e (List.mem_cons_self ..))]
    exact ih h fun e' he' => hclaim e' (List.mem_cons_of_mem _ he')

/-- Rows come from the table, or from an effect of their project. -/
theorem mem_applyEffect (h : applyEffect claims e = .ok claims')
    (hclaim : ∀ claim, e.claim = some claim → claim.projectId = e.projectId)
    (hrow : row ∈ claims') : row ∈ claims ∨ row.projectId = e.projectId := by
  rw [applyEffect] at h
  obtain ⟨-, -, h⟩ := bind_eq_ok.mp h
  cases heffect : e.claim with
  | some claim =>
    rw [heffect] at h
    dsimp only at h
    rw [insertClaim] at h
    obtain ⟨row₁, hrow₁, h⟩ := bind_eq_ok.mp h
    cases h
    rcases Table.mem_put.mp hrow with ⟨hmem, -⟩ | rfl
    · exact .inl hmem
    · exact .inr ((storedClaim_eq_ok hrow₁).projectId.trans (hclaim claim heffect))
  | none =>
    rw [heffect] at h
    cases h
    exact .inl (Table.mem_delete.mp hrow).1

theorem mem_applyEffects (h : applyEffects claims effects = .ok claims')
    (hclaim : ∀ e ∈ effects, ∀ claim, e.claim = some claim → claim.projectId = e.projectId)
    (hrow : row ∈ claims') : row ∈ claims ∨ ∃ e ∈ effects, row.projectId = e.projectId := by
  induction effects generalizing claims with
  | nil =>
    cases h
    exact .inl hrow
  | cons e effects ih =>
    rw [applyEffects] at h
    obtain ⟨claims₁, he, h⟩ := bind_eq_ok.mp h
    rcases ih h (fun e' he' => hclaim e' (List.mem_cons_of_mem _ he')) with hrow | ⟨e', he', hrow⟩
    · exact (mem_applyEffect he (hclaim e (List.mem_cons_self ..)) hrow).imp_right
        fun hrow => ⟨e, List.mem_cons_self .., hrow⟩
    · exact .inr ⟨e', List.mem_cons_of_mem _ he', hrow⟩

/-- **Checkpoints** follow the effects of their project, which are linked. -/
theorem advanceCheckpoints_eq_ok {checkpoints checkpoints' : SortedMap Int Int}
    (h : advanceCheckpoints checkpoints effects = .ok checkpoints') (projectId : Int) :
    (checkpoints.get projectId = none → checkpoints'.get projectId = none ∧
        ∀ e ∈ effects, e.projectId ≠ projectId) ∧
      ∀ first, checkpoints.get projectId = some first → ∃ last,
        checkpoints'.get projectId = some last ∧
        Linked first (effects.filter fun e => e.projectId == projectId) last := by
  induction effects generalizing checkpoints with
  | nil =>
    cases h
    exact ⟨fun hnone => ⟨hnone, List.forall_mem_nil _⟩,
      fun first hfirst => ⟨first, hfirst, .nil first⟩⟩
  | cons e effects ih =>
    rw [advanceCheckpoints] at h
    split at h
    · cases h
    · rename_i expected hexpected
      obtain ⟨hprevious, h⟩ := check_eq_ok.mp h
      rw [not_not] at hprevious
      obtain ⟨hnone, hsome⟩ := ih h
      simp only [get_insert] at hnone hsome
      by_cases hproject : e.projectId = projectId
      · subst hproject
        refine ⟨fun h => ?_, fun first hfirst => ?_⟩
        · rw [hexpected] at h
          cases h
        · obtain ⟨last, hlast, hlinked⟩ := hsome e.effectId (if_pos rfl)
          rw [hexpected] at hfirst
          cases hfirst
          refine ⟨last, hlast, ?_⟩
          rw [List.filter_cons_of_pos (by simp)]
          exact .cons hprevious hlinked
      · rw [if_neg hproject] at hnone hsome
        rw [List.filter_cons_of_neg (by simpa using hproject)]
        refine ⟨fun h => ?_, hsome⟩
        obtain ⟨hget, hrest⟩ := hnone h
        exact ⟨hget, List.forall_mem_cons.mpr ⟨hproject, hrest⟩⟩

/-- The last of linked effects. -/
theorem Linked.last {first last : Int} (h : Linked first effects last) :
    (effects.getLast?.map ClaimMirrorEffect.effectId).getD first = last := by
  induction h with
  | nil => rfl
  | @cons first last e effects _ _ ih =>
    cases effects with
    | nil => exact ih
    | cons e' effects =>
      rw [List.getLast?_cons_cons]
      rw [← ih]
      cases hlast : (e' :: effects).getLast? with
      | none => simp at hlast
      | some e'' => rfl

theorem get_stampAll (group : ClaimMirrorReceiptGroup) (claims : ClaimTable) (id : String) :
    (group.stampAll claims).get id = (claims.get id).map fun claim =>
      if group.touches claim.projectId then group.stamp claim else claim :=
  Table.get_update id

theorem mem_stampAll (group : ClaimMirrorReceiptGroup) (claims : ClaimTable) (row' : StoredClaim) :
    row' ∈ group.stampAll claims ↔ ∃ row ∈ claims,
      row' = if group.touches row.projectId then group.stamp row else row :=
  Table.mem_update

/-- What a receipt that was not seen before has done. -/
theorem applyFresh_eq_ok (h : applyFresh mirror group digest vectorJson = .ok mirror') :
    ∃ checkpoints claims,
      (vectorProjects group.vector ⊆ mirror.projects.keys ∧
        mirror.projects.keys ⊆ vectorProjects group.vector) ∧
      advanceCheckpoints (mirror.projects.map fun _ state => state.ackedEffectId) group.effects =
        .ok checkpoints ∧
      applyEffects mirror.claims group.effects = .ok claims ∧
      (∀ entry ∈ mirror.projects.entries, requireGeneration group entry = .ok ()) ∧
      mirror' = { mirror with
        projects := mirror.projects.map (group.advance checkpoints)
        claims := group.stampAll claims
        receipts := mirror.receipts.put (receiptRow group digest vectorJson) } := by
  rw [applyFresh, check_eq_ok, not_not] at h
  obtain ⟨hprojects, h⟩ := h
  obtain ⟨_, hgenerations, h⟩ := bind_eq_ok.mp h
  obtain ⟨checkpoints, hcheckpoints, h⟩ := bind_eq_ok.mp h
  obtain ⟨claims, hclaims, h⟩ := bind_eq_ok.mp h
  exact ⟨checkpoints, claims, hprojects, hcheckpoints, hclaims, forM_eq_ok.mp hgenerations,
    (Except.ok.inj h).symm⟩

/-- The checkpoint of a project after a receipt. -/
theorem checkpoint_of_receipt {checkpoints : SortedMap Int Int}
    (h : advanceCheckpoints (mirror.projects.map fun _ state => state.ackedEffectId)
      group.effects = .ok checkpoints) {state : ClaimMirrorProjectState}
    (hstate : mirror.projects.get projectId = some state) :
    Linked state.ackedEffectId (group.effects.filter fun e => e.projectId == projectId)
        (group.advance checkpoints projectId state).ackedEffectId ∧
      (group.advance checkpoints projectId state).ackedEffectId =
        if group.touches projectId then
          MirrorView.lastEffect group projectId state.ackedEffectId
        else state.ackedEffectId := by
  obtain ⟨last, hlast, hlinked⟩ := (advanceCheckpoints_eq_ok h projectId).2 state.ackedEffectId
    (by rw [get_map, hstate, Option.map_some])
  rw [advance]
  by_cases htouches : group.touches projectId = true
  · rw [if_pos htouches, if_pos htouches, hlast]
    exact ⟨hlinked, hlinked.last.symm⟩
  · rw [if_neg htouches, if_neg htouches]
    have hnone : group.effects.filter (fun e => e.projectId == projectId) = [] := by
      rw [List.filter_eq_nil_iff]
      intro e he hproject
      exact htouches (List.any_eq_true.mpr ⟨e, he, hproject⟩)
    rw [hnone]
    exact ⟨.nil _, rfl⟩

/-- **A receipt takes the view on.** -/
theorem applyFresh_view (h : applyFresh mirror group digest vectorJson = .ok mirror')
    (hchecked : GroupChecked sys group) : mirror'.view = mirror.view.receipt group := by
  obtain ⟨checkpoints, claims, -, hcheckpoints, hclaims, -, rfl⟩ := applyFresh_eq_ok h
  refine MirrorView.ext (funext fun projectId => ?_) (funext fun id => ?_)
  · change (mirror.projects.map (group.advance checkpoints)).get projectId =
      (mirror.projects.get projectId).map _
    rw [get_map]
    rcases hstate : mirror.projects.get projectId with _ | state
    · rfl
    · have hacked := (checkpoint_of_receipt hcheckpoints hstate).2
      rw [Option.map_some, Option.map_some, Option.some_inj]
      rw [advance] at hacked ⊢
      by_cases htouches : group.touches projectId = true
      · rw [if_pos htouches, if_pos htouches] at hacked
        rw [if_pos htouches, if_pos htouches]
        exact congrArg _ hacked
      · rw [if_neg htouches, if_neg htouches]
  · refine (get_stampAll group claims id).trans ?_
    have hget := applyEffects_get hclaims fun e he claim hclaim =>
      ((hchecked.effects e he).claim claim hclaim).2.1
    rw [hget]
    rfl

end Receipts

/-! ## What was accepted -/

/-- The last snapshot that was taken, and the receipts since. -/
structure Accepted where
  snapshot : ClaimMirrorSnapshot
  groups : List ClaimMirrorReceiptGroup := []
  deriving DecidableEq

/-- The mirror says what the snapshot says. -/
def restates (sys : MirrorPlatform) (mirror : Option Mirror)
    (snapshot : ClaimMirrorSnapshot) : Bool :=
  mirror.any fun mirror =>
    match sameAsStored sys mirror snapshot with
    | .ok same => same
    | .error _ => false

/-- What is accepted after a call. -/
def acceptedAfter (sys : MirrorPlatform) (s : ClaimStore) (accepted : Option Accepted)
    (call : Call) (reply : Reply) : Option Accepted :=
  match call, reply with
  | .replaceMirror snapshot, .mirror (.ok _) =>
    if restates sys s.mirror snapshot then accepted else some { snapshot }
  | .applyReceipt group, .receipt (.ok result) =>
    if result.replayed then accepted
    else accepted.map fun a => { a with groups := a.groups ++ [group] }
  | .deleteMirror, .mirror (.ok _) => none
  | _, _ => accepted

/-- The store, and what was accepted. -/
structure Mirrored where
  store : ClaimStore
  accepted : Option Accepted := none

variable (sys : MirrorPlatform)

namespace Mirrored

def after (s : Mirrored) (call : Call) : Mirrored where
  store := s.store.after sys call
  accepted := acceptedAfter sys s.store s.accepted call (call.perform sys s.store).1

def run (s : Mirrored) (calls : List Call) : Mirrored := calls.foldl (after sys) s

/-- A store that no call has touched. -/
def fresh (routes : String → Option (String × String)) : Mirrored where
  store := ClaimStore.fresh routes

end Mirrored

/-- **What ties the mirror to what was accepted.** -/
structure Tracks (accepted : Accepted) (mirror : Mirror) : Prop where
  version : mirror.vectorVersion = claimMirrorVectorVersion
  view : mirror.view = MirrorView.fold accepted.snapshot accepted.groups
  incarnation : mirror.databaseIncarnationId = accepted.snapshot.vector.databaseIncarnationId
  epoch : mirror.workspaceEpoch = accepted.snapshot.vector.workspaceEpoch
  /-- A receipt takes effect once. -/
  once : (accepted.groups.map ClaimMirrorReceiptGroup.receiptId).Nodup
  receipts : ∀ receiptId, (mirror.receipts.get receiptId).isSome ↔
    receiptId ∈ accepted.groups.map ClaimMirrorReceiptGroup.receiptId
  /-- A row has the generations of its project. -/
  generations : ∀ claim ∈ mirror.claims, ∃ state,
    mirror.projects.get claim.projectId = some state ∧
      claim.projectGeneration = state.projectGeneration ∧
      claim.policyGeneration = state.policyGeneration
  /-- The effects of a project follow one another from its first checkpoint to the present one. -/
  chain : ∀ projectId state, mirror.projects.get projectId = some state → ∃ first,
    accepted.snapshot.projectCheckpoints.get projectId = some first ∧
      Linked first (effectsOf projectId accepted.groups) state.ackedEffectId

/-- The mirror is there exactly if a snapshot was accepted. -/
def Tracked (accepted : Option Accepted) (mirror : Option Mirror) : Prop :=
  match accepted, mirror with
  | none, none => True
  | some accepted, some mirror => Tracks accepted mirror
  | _, _ => False

variable {sys}

/-- A seed is what its snapshot says. -/
theorem tracks_seed {snapshot : ClaimMirrorSnapshot} (hchecked : SnapshotChecked sys snapshot)
    (h : insertClaims Table.empty snapshot.claims = .ok claims) :
    Tracks { snapshot } (seedMirror snapshot claims) := by
  refine ⟨rfl, seed_view h hchecked.distinct, rfl, rfl, List.nodup_nil, fun receiptId => ?_,
    fun row hrow => ?_, fun projectId state hstate => ?_⟩
  · simp [seedMirror, Table.get, Table.empty]
  · have hget := insertClaims_get h hchecked.distinct row.publicClaimId
    rw [show claims.get row.publicClaimId = some row from Table.get_key hrow] at hget
    split at hget
    · rename_i claim hfind
      have hclaim := hchecked.claims claim (List.mem_of_find?_eq_some hfind)
      have hrow := storedClaim_eq_ok (rowOf_eq_some.mp hget.symm)
      obtain ⟨projectIds, hvector, -, hsup⟩ := hchecked.vector
      obtain ⟨-, -, -, -, hentries⟩ := validateVector_eq_ok hvector
      have hproject : claim.projectId ∈ snapshot.projectCheckpoints.keys :=
        hsup (mem_of_key hentries hclaim.project (by rw [hclaim.projectGeneration]; rfl))
      obtain ⟨checkpoint, hcheckpoint⟩ := Option.isSome_iff_exists.mp (mem_keys.mp hproject)
      refine ⟨_, (get_map _ _).trans (by rw [hrow.projectId, hcheckpoint, Option.map_some]), ?_, ?_⟩
      · rw [hrow.projectGeneration, hclaim.projectGeneration]
        rfl
      · rw [hrow.policyGeneration, hclaim.policyGeneration]
        rfl
    · simp [Table.get, Table.empty] at hget
  · obtain ⟨checkpoint, hcheckpoint, rfl⟩ :=
      Option.map_eq_some_iff.mp ((get_map _ _).symm.trans hstate)
    exact ⟨checkpoint, hcheckpoint, .nil checkpoint⟩

theorem touches_of_mem (h : e ∈ group.effects) : group.touches e.projectId = true :=
  List.any_eq_true.mpr ⟨e, h, beq_self_eq_true _⟩

/-- The rows after a receipt have the generations of their projects. -/
theorem generations_of_receipt (h : applyFresh mirror group digest vectorJson = .ok mirror')
    (hchecked : GroupChecked sys group) (hgenerations : ∀ claim ∈ mirror.claims, ∃ state,
      mirror.projects.get claim.projectId = some state ∧
        claim.projectGeneration = state.projectGeneration ∧
        claim.policyGeneration = state.policyGeneration) :
    ∀ claim ∈ mirror'.claims, ∃ state, mirror'.projects.get claim.projectId = some state ∧
      claim.projectGeneration = state.projectGeneration ∧
      claim.policyGeneration = state.policyGeneration := by
  obtain ⟨checkpoints, claims, -, hcheckpoints, hclaims, -, rfl⟩ := applyFresh_eq_ok h
  intro row' hrow'
  obtain ⟨row, hrow, rfl⟩ := (mem_stampAll group claims row').mp hrow'
  have hmem := mem_applyEffects hclaims (fun e he claim hclaim =>
    ((hchecked.effects e he).claim claim hclaim).2.2.1) hrow
  -- A row of a touched project is stamped; the others are as they were.
  by_cases htouches : group.touches row.projectId = true
  · have hproject : ∃ state, mirror.projects.get row.projectId = some state := by
      rcases hmem with hold | ⟨e, he, hproject⟩
      · obtain ⟨state, hstate, -⟩ := hgenerations row hold
        exact ⟨state, hstate⟩
      · refine Option.ne_none_iff_exists'.mp fun hnone => ?_
        have hall := ((advanceCheckpoints_eq_ok hcheckpoints row.projectId).1
          (by rw [get_map, hnone, Option.map_none])).2
        exact hall e he hproject.symm
    obtain ⟨state, hstate⟩ := hproject
    rw [if_pos htouches]
    refine ⟨group.advance checkpoints row.projectId state, (get_map _ _).trans
      (congrArg _ hstate), ?_⟩
    rw [advance, if_pos htouches]
    exact ⟨rfl, rfl⟩
  · rw [if_neg htouches]
    rcases hmem with hold | ⟨e, he, hproject⟩
    · obtain ⟨state, hstate, hequal⟩ := hgenerations row hold
      refine ⟨group.advance checkpoints row.projectId state, (get_map _ _).trans
        (congrArg _ hstate), ?_⟩
      rwa [advance, if_neg htouches]
    · exact absurd (hproject ▸ touches_of_mem he) htouches

/-- **A receipt** is one more step of the fold. -/
theorem tracks_receipt {accepted : Accepted} (htracks : Tracks accepted mirror)
    (hchecked : GroupChecked sys group) (hnew : mirror.receipts.get group.receiptId = none)
    (h : applyFresh mirror group digest vectorJson = .ok mirror') :
    Tracks { accepted with groups := accepted.groups ++ [group] } mirror' := by
  have hgenerations := generations_of_receipt h hchecked htracks.generations
  have hview := applyFresh_view h hchecked
  obtain ⟨checkpoints, claims, -, hcheckpoints, -, -, rfl⟩ := applyFresh_eq_ok h
  have hfresh : group.receiptId ∉ accepted.groups.map receiptId := by
    rw [← htracks.receipts, hnew]
    simp
  refine ⟨htracks.version, ?_, htracks.incarnation, htracks.epoch, ?_, fun receiptId => ?_,
    hgenerations, fun projectId state hstate => ?_⟩
  · rw [hview, htracks.view]
    exact (List.foldl_concat ..).symm
  · rw [List.map_append]
    refine List.nodup_append.mpr ⟨htracks.once, List.nodup_singleton _, fun a ha b hb heq => ?_⟩
    rw [List.map_singleton, List.mem_singleton] at hb
    exact hfresh (hb ▸ heq ▸ ha)
  · rw [List.map_append, List.mem_append, List.map_singleton, List.mem_singleton,
      ← htracks.receipts]
    rw [Table.get_put]
    by_cases hid : group.receiptId = receiptId
    · simp [receiptRow, hid]
    · simp [receiptRow, hid, Ne.symm hid]
  · obtain ⟨state₀, hstate₀, rfl⟩ :=
      Option.map_eq_some_iff.mp ((get_map _ projectId).symm.trans hstate)
    obtain ⟨first, hfirst, hlinked⟩ := htracks.chain projectId state₀ hstate₀
    refine ⟨first, hfirst, ?_⟩
    rw [effectsOf, List.flatMap_append]
    refine hlinked.append ?_
    rw [List.flatMap_singleton]
    exact (checkpoint_of_receipt hcheckpoints hstate₀).1

/-! ## Calls -/

/-- The texts of a receipt that was taken. -/
structure GroupPrepared (sys : MirrorPlatform) (mirror : Option Mirror)
    (group : ClaimMirrorReceiptGroup) : Prop where
  texts : ∀ e ∈ group.effects, ∀ claim, e.claim = some claim → prepareClaimText sys claim = .ok ()
  ids : ∀ e ∈ group.effects, prepareClaimId sys
    (Mirror.knows mirror group.vector.databaseIncarnationId e.publicClaimId) e.publicClaimId = .ok ()

/-- What a call with a receipt has done. -/
theorem applyClaimMirrorReceipt_eq_ok {controls : Option ClaimIntentControl}
    {mirror mirror' : Option Mirror} {result : ClaimMirrorApplyResult}
    (h : applyClaimMirrorReceipt sys controls mirror group = .ok (result, mirror')) :
    GroupChecked sys group ∧ GroupPrepared sys mirror group ∧
      ∃ stored, mirror = some stored ∧ requireSeed controls stored group.vector = .ok () ∧
      ((result.replayed = true ∧ mirror' = mirror) ∨
        (result.replayed = false ∧ stored.receipts.get group.receiptId = none ∧
          ∃ digest vectorJson next, applyFresh stored group digest vectorJson = .ok next ∧
            mirror' = some next)) := by
  rw [applyClaimMirrorReceipt] at h
  obtain ⟨digest, hgroup, h⟩ := bind_eq_ok.mp h
  obtain ⟨_, -, h⟩ := bind_eq_ok.mp h
  obtain ⟨_, htexts, h⟩ := bind_eq_ok.mp h
  obtain ⟨vectorJson, -, h⟩ := bind_eq_ok.mp h
  obtain ⟨_, -, h⟩ := bind_eq_ok.mp h
  obtain ⟨_, hids, h⟩ := bind_eq_ok.mp h
  refine ⟨validateGroup_eq_ok hgroup, ⟨fun e he claim hclaim => ?_, forM_eq_ok.mp hids⟩, ?_⟩
  · have htext := forM_eq_ok.mp htexts e he
    rwa [prepareEffectText, hclaim] at htext
  cases mirror with
  | none => cases h
  | some stored =>
    rw [applyTransaction] at h
    obtain ⟨_, hseed, h⟩ := bind_eq_ok.mp h
    refine ⟨stored, rfl, hseed, ?_⟩
    cases hreceipt : stored.receipts.get group.receiptId with
    | some receipt =>
      rw [hreceipt] at h
      dsimp only at h
      split at h
      · obtain ⟨rfl, rfl⟩ := Prod.mk.inj (Except.ok.inj h)
        exact .inl ⟨rfl, rfl⟩
      · cases h
    | none =>
      rw [hreceipt] at h
      obtain ⟨next, hfresh, h⟩ := bind_eq_ok.mp h
      obtain ⟨rfl, rfl⟩ := Prod.mk.inj (Except.ok.inj h)
      exact .inr ⟨rfl, rfl, digest, vectorJson, next, hfresh, rfl⟩

/-- The calls that write the mirror. -/
def Call.onMirror : Call → Bool
  | replaceMirror _ | applyReceipt _ | deleteMirror => true
  | _ => false

section Calls
variable {s : ClaimStore}

theorem mirror_of_other {call : Call} (hcall : call.onMirror = false) :
    (s.after sys call).mirror = s.mirror := by
  have hauthority : call.onAuthority = true → (s.after sys call).mirror = s.mirror := by
    intro hcall
    rcases h : ((call.perform sys s).1).row? with _ | row'
    · rw [after_of_failed hcall h]
    · obtain ⟨key, -, -, htransited⟩ := transits_of_reply h
      exact htransited.same.mirror
  cases call with
  | beginRebuild incarnation g =>
    exact ClaimStore.commitUnit_same _ fun s' h => (beginClaimStoreRebuild_eq_ok h).2 ▸ rfl
  | stage route binding command request nowMs =>
    refine ClaimStore.commit_same _ fun outcome s' h => ?_
    obtain ⟨-, -, rfl⟩ := stageIntent_eq_ok h
    rfl
  | acknowledge binding command digest kind resultJson nowMs =>
    refine ClaimStore.commit_same _ fun outcome s' h => ?_
    obtain ⟨-, -, rfl⟩ := acknowledgeIntent_eq_ok h
    rfl
  | insertNote note =>
    change (insertNote s note).mirror = s.mirror
    rw [insertNote]
    split <;> rfl
  | updateNote note =>
    change (updateNote s note).mirror = s.mirror
    rw [updateNote]
    split <;> rfl
  | deleteNote id =>
    change (deleteNote s id).mirror = s.mirror
    rw [deleteNote]
    split <;> rfl
  | replaceMirror => cases hcall
  | applyReceipt => cases hcall
  | deleteMirror => cases hcall
  | _ => exact hauthority rfl

end Calls

end MagicContext.Claims
