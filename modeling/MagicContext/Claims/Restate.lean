import MagicContext.Claims.Fold

/-!
# Presenting the state of the mirror again

The host may send a snapshot of the state the mirror already has: the accepted snapshot, or what
the receipts since have made of it.  The claims are followed here as the host gave them, not as
the rows hold them, and such a snapshot is found to say what is stored.

## What is here

* `Accepted.claims`, `Accepted.vector` — the state the host has come to.
* `Vetted` — the checks that the accepted inputs went through still hold of that state.
* `Presents` — a snapshot of that state; `replaceMirror_presents` takes it without a change.
* `claimMirror_folds` — the mirror over whole runs.
-/

namespace MagicContext.Claims

open Checks MirrorView SortedMap CommittedClaimMirrorRow Accepted ClaimStore

/-! ## The state the host has come to -/

def CommittedClaimMirrorRow.stamp (group : ClaimMirrorReceiptGroup)
    (claim : CommittedClaimMirrorRow) : CommittedClaimMirrorRow :=
  { claim with
    projectGeneration := generationOf group.vector.projectGenerations claim.projectId
    policyGeneration := generationOf group.vector.policyGenerations claim.projectId }

def CommittedClaimMirrorRow.restamp (group : ClaimMirrorReceiptGroup)
    (claim : CommittedClaimMirrorRow) : CommittedClaimMirrorRow :=
  if group.touches claim.projectId then claim.stamp group else claim

/-- The claims by their ids. -/
abbrev ClaimsById := String → Option CommittedClaimMirrorRow

def claimsOf (snapshot : ClaimMirrorSnapshot) : ClaimsById := fun publicClaimId =>
  snapshot.claims.find? fun claim => decide (claim.publicClaimId = publicClaimId)

def claimEffect (claims : ClaimsById) (e : ClaimMirrorEffect) : ClaimsById :=
  Function.update claims e.publicClaimId e.claim

def claimReceipt (claims : ClaimsById) (group : ClaimMirrorReceiptGroup) : ClaimsById :=
  fun publicClaimId =>
    (group.effects.foldl claimEffect claims publicClaimId).map (·.restamp group)

namespace Accepted

def claims (accepted : Accepted) : ClaimsById :=
  accepted.groups.foldl claimReceipt (claimsOf accepted.snapshot)

/-- The generations that were sent last. -/
def vector (accepted : Accepted) : SnapshotVector :=
  (accepted.groups.getLast?.map ClaimMirrorReceiptGroup.vector).getD accepted.snapshot.vector

def view (accepted : Accepted) : MirrorView := MirrorView.fold accepted.snapshot accepted.groups

/-- One more receipt. -/
def push (accepted : Accepted) (group : ClaimMirrorReceiptGroup) : Accepted :=
  { accepted with groups := accepted.groups ++ [group] }

section Push
variable (accepted : Accepted) (group : ClaimMirrorReceiptGroup)

@[simp] theorem claims_push :
    (accepted.push group).claims = claimReceipt accepted.claims group :=
  List.foldl_concat ..

@[simp] theorem vector_push : (accepted.push group).vector = group.vector := by
  simp [vector, push]

@[simp] theorem view_push : (accepted.push group).view = accepted.view.receipt group :=
  List.foldl_concat ..

end Push

end Accepted

/-! ### Rows of the claims -/

theorem rowOf_stamp (group : ClaimMirrorReceiptGroup) (claim : CommittedClaimMirrorRow) :
    rowOf (claim.stamp group) = (rowOf claim).map group.stamp := by
  rw [rowOf, rowOf, storedClaim, storedClaim, stamp]
  cases parseRevisionLocator claim.revisionLocator with
  | none => rfl
  | some locator =>
    cases canonical (canonicalJsonEncode claim.attributes) <;>
      cases canonical (canonicalJsonEncode claim.applicability) <;>
        cases canonical (canonicalJsonEncode claim.policy) <;> rfl

theorem rowOf_restamp (group : ClaimMirrorReceiptGroup) (claim : CommittedClaimMirrorRow) :
    rowOf (claim.restamp group) = (rowOf claim).map fun row =>
      if group.touches row.projectId then group.stamp row else row := by
  rw [restamp]
  cases hrow : rowOf claim with
  | none =>
    split
    · rw [rowOf_stamp, hrow]
      rfl
    · exact hrow
  | some row =>
    rw [Option.map_some, (storedClaim_eq_ok (rowOf_eq_some.mp hrow)).projectId]
    split
    · rw [rowOf_stamp, hrow]
      rfl
    · exact hrow

theorem bind_claimEffect (claims : ClaimsById) (effects : List ClaimMirrorEffect) :
    effects.foldl effect (fun id => (claims id).bind rowOf) =
      fun id => (effects.foldl claimEffect claims id).bind rowOf := by
  induction effects generalizing claims with
  | nil => rfl
  | cons e effects ih =>
    rw [List.foldl_cons, List.foldl_cons, ← ih]
    congr 1
    funext id
    rw [effect, claimEffect, Function.update_apply, Function.update_apply]
    split <;> rfl

/-- **The rows of the fold** are those of the claims. -/
theorem Accepted.view_claims (accepted : Accepted) :
    accepted.view.claims = fun id => (accepted.claims id).bind rowOf := by
  obtain ⟨snapshot, groups⟩ := accepted
  induction groups using List.reverseRecOn with
  | nil => rfl
  | append_singleton groups group ih =>
    change ((mk snapshot groups).push group).view.claims =
      fun id => (((mk snapshot groups).push group).claims id).bind rowOf
    rw [view_push, claims_push, receipt]
    funext id
    rw [ih, bind_claimEffect, claimReceipt]
    dsimp only
    cases group.effects.foldl claimEffect (mk snapshot groups).claims id with
    | none => rfl
    | some claim => exact (rowOf_restamp group claim).symm

/-! ## Vectors -/

variable {group : ClaimMirrorReceiptGroup} {vector : SnapshotVector} {projectIds : List Int}

/-- The keys of a vector are the numbers of its projects. -/
theorem keys_of_validated {entries : List (String × Int)}
    (h : validateVectorEntries vector entries = .ok projectIds) :
    entries.map Prod.fst = projectIds.map toString ∧
      (entries.map Prod.fst).filterMap parseProjectId = projectIds ∧
      ∀ projectId ∈ projectIds, validProjectId projectId = true := by
  have hall := validateVectorEntries_eq_ok h
  clear h
  induction hall with
  | nil => exact ⟨rfl, rfl, List.forall_mem_nil _⟩
  | @cons entry projectId entries projectIds hentry _ ih =>
    obtain ⟨hvalid, hkey, hparse⟩ := hentry
    obtain ⟨hkeys, hprojects, hall⟩ := ih
    refine ⟨?_, ?_, List.forall_mem_cons.mpr ⟨hvalid, hall⟩⟩
    · rw [List.map_cons, List.map_cons, hkey, hkeys]
    · rw [List.map_cons, List.filterMap_cons_some hparse, hprojects]

/-- The generations of the projects, by their numbers, are the ones of a vector. -/
theorem ofList_generations {projects : SortedMap Int ClaimMirrorProjectState}
    {generations : SortedMap String Int}
    {f : ClaimMirrorProjectState → Int} (hkeys : generations.keys = projectIds.map toString)
    (hvalid : ∀ projectId ∈ projectIds, validProjectId projectId = true)
    (hprojects : ∀ projectId, projectId ∈ projectIds ↔ (projects.get projectId).isSome)
    (hvalues : ∀ projectId state, projects.get projectId = some state →
      generationOf generations projectId = f state) :
    ofList (projects.entries.map fun entry => (toString entry.1, f entry.2)) = generations := by
  have hmem : ∀ {entry}, entry ∈ projects.entries → entry.1 ∈ projectIds := fun hentry => by
    rw [hprojects, get_eq_some.mpr hentry]
    rfl
  have hnodup : ((projects.entries.map fun entry =>
      (toString entry.1, f entry.2)).map Prod.fst).Nodup := by
    rw [List.map_map]
    refine List.Nodup.map_on (fun entry hentry entry' hentry' heq => ?_) projects.nodup
    have hid : entry.1 = entry'.1 := toString_inj_of_nonneg
      (nonneg_of_validProjectId (hvalid _ (hmem hentry)))
      (nonneg_of_validProjectId (hvalid _ (hmem hentry'))) heq
    have hget := get_eq_some.mpr hentry
    rw [hid, get_eq_some.mpr hentry', Option.some_inj] at hget
    exact Prod.ext hid hget.symm
  refine ext_get fun key => Option.ext fun v => ?_
  have hvalue : ∀ {projectId state}, projects.get projectId = some state →
      generations.get (toString projectId) = some (f state) := fun {projectId state} hstate => by
    have hkey : toString projectId ∈ generations.keys := by
      rw [hkeys]
      exact List.mem_map_of_mem ((hprojects projectId).mpr (by rw [hstate]; rfl))
    obtain ⟨v, hv⟩ := Option.isSome_iff_exists.mp (mem_keys.mp hkey)
    rw [← hvalues projectId state hstate, generationOf, hv]
    rfl
  rw [get_ofList hnodup, List.mem_map]
  constructor
  · rintro ⟨entry, hentry, heq⟩
    cases heq
    exact hvalue (get_eq_some.mpr hentry)
  · intro hv
    have hkey : key ∈ generations.keys := mem_keys.mpr (by rw [hv]; rfl)
    rw [hkeys] at hkey
    obtain ⟨projectId, hprojectId, rfl⟩ := List.mem_map.mp hkey
    obtain ⟨state, hstate⟩ := Option.isSome_iff_exists.mp ((hprojects projectId).mp hprojectId)
    rw [hvalue hstate, Option.some_inj] at hv
    exact ⟨(projectId, state), get_eq_some.mp hstate, by rw [hv]⟩

/-- The generations of the projects are those of a vector. -/
def Follows (projects : Int → Option ClaimMirrorProjectState) (vector : SnapshotVector) : Prop :=
  ∀ projectId state, projects projectId = some state →
    generationOf vector.projectGenerations projectId = state.projectGeneration ∧
      generationOf vector.policyGenerations projectId = state.policyGeneration

/-- **The vector that is read back** is the one that was sent. -/
theorem Mirror.vector_eq {mirror : Mirror}
    (hversion : mirror.vectorVersion = claimMirrorVectorVersion)
    (hincarnation : mirror.databaseIncarnationId = vector.databaseIncarnationId)
    (hepoch : mirror.workspaceEpoch = vector.workspaceEpoch)
    (hvector : validateVector vector = .ok projectIds)
    (hprojects : ∀ projectId, projectId ∈ projectIds ↔ (mirror.projects.get projectId).isSome)
    (hfollows : Follows mirror.projects.get vector) : mirror.vector = vector := by
  obtain ⟨hversion', -, -, hkeys, hentries⟩ := validateVector_eq_ok hvector
  obtain ⟨hkeys', -, hvalid⟩ := keys_of_validated hentries
  have hproject := ofList_generations (f := ClaimMirrorProjectState.projectGeneration) hkeys'
    hvalid hprojects fun projectId state hstate => (hfollows projectId state hstate).1
  have hpolicy := ofList_generations (f := ClaimMirrorProjectState.policyGeneration)
    (hkeys.symm.trans hkeys') hvalid hprojects
    fun projectId state hstate => (hfollows projectId state hstate).2
  rw [Mirror.vector, hproject, hpolicy, hversion, hincarnation, hepoch, ← hversion']

/-- The generations of a project that a vector names. -/
theorem get_of_project (hvector : validateVector vector = .ok projectIds) {projectId : Int}
    (hproject : projectId ∈ projectIds) : vector.projectGenerations.get (toString projectId) =
        some (generationOf vector.projectGenerations projectId) ∧
      vector.policyGenerations.get (toString projectId) =
        some (generationOf vector.policyGenerations projectId) := by
  obtain ⟨-, -, -, hkeys, hentries⟩ := validateVector_eq_ok hvector
  have hmem : toString projectId ∈ vector.projectGenerations.keys := by
    rw [keys, (keys_of_validated hentries).1]
    exact List.mem_map_of_mem hproject
  have hget : ∀ {generations : SortedMap String Int}, toString projectId ∈ generations.keys →
      generations.get (toString projectId) = some (generationOf generations projectId) :=
    fun hkey => by
      obtain ⟨generation, h⟩ := Option.isSome_iff_exists.mp (mem_keys.mp hkey)
      rw [generationOf, h]
      rfl
  exact ⟨hget hmem, hget (hkeys ▸ hmem)⟩

/-! ## What was checked -/

section Vetting
variable {sys : MirrorPlatform}

@[simp] theorem stored_eq_ok {α : Type} {result : Except StoreError α} {a : α} :
    stored result = .ok a ↔ result = .ok a := by
  cases result <;> simp [stored]

/-- A claim's own checks do not see its generations. -/
theorem ClaimChecked.regenerate {vector' : SnapshotVector}
    {claim : CommittedClaimMirrorRow} (h : ClaimChecked sys vector claim)
    {generation policyGeneration : Int}
    (hproject : vector'.projectGenerations.get (toString claim.projectId) = some generation)
    (hpolicy : vector'.policyGenerations.get (toString claim.projectId) = some policyGeneration) :
    ClaimChecked sys vector'
      { claim with projectGeneration := generation, policyGeneration := policyGeneration } where
  names := h.names
  project := h.project
  locator := h.locator
  projectGeneration := hproject
  policyGeneration := hpolicy
  attributes := h.attributes
  applicability := h.applicability
  policy := h.policy
  label := h.label

/-- A claim as it was taken. -/
structure ClaimVetted (sys : MirrorPlatform) (vector : SnapshotVector)
    (publicClaimId : String) (claim : CommittedClaimMirrorRow) : Prop where
  id : claim.publicClaimId = publicClaimId
  checked : ClaimChecked sys vector claim
  text : prepareClaimText sys claim = .ok ()
  bound : ensureDurableTextBound publicClaimId = .ok ()

/-- **The checks hold** of the state the host has come to. -/
structure Vetted (sys : MirrorPlatform) (accepted : Accepted) : Prop where
  incarnation : sys.identity accepted.vector.databaseIncarnationId = .ok ()
  epoch : sys.identity accepted.vector.workspaceEpoch = .ok ()
  sameIncarnation :
    accepted.vector.databaseIncarnationId = accepted.snapshot.vector.databaseIncarnationId
  sameEpoch : accepted.vector.workspaceEpoch = accepted.snapshot.vector.workspaceEpoch
  vector : ∃ projectIds, validateVector accepted.vector = .ok projectIds ∧
    ∀ projectId, projectId ∈ projectIds ↔ (accepted.view.projects projectId).isSome
  follows : Follows accepted.view.projects accepted.vector
  checkpoints : ∀ projectId state, accepted.view.projects projectId = some state →
    safeCount state.ackedEffectId = true
  claims : ∀ id claim, accepted.claims id = some claim → ClaimVetted sys accepted.vector id claim
  version : accepted.snapshot.mirrorVersion = claimMirrorVersion
  distinct : (accepted.snapshot.claims.map CommittedClaimMirrorRow.publicClaimId).Nodup

/-- The checks that a snapshot goes through before its transaction. -/
structure SnapshotPrepared (sys : MirrorPlatform) (mirror : Option Mirror)
    (snapshot : ClaimMirrorSnapshot) : Prop where
  checked : SnapshotChecked sys snapshot
  epoch : sys.identity snapshot.vector.workspaceEpoch = .ok ()
  incarnation : sys.identity snapshot.vector.databaseIncarnationId = .ok ()
  texts : ∀ claim ∈ snapshot.claims, prepareClaimText sys claim = .ok ()
  ids : ∀ claim ∈ snapshot.claims, prepareClaimId sys
    (Mirror.knows mirror snapshot.vector.databaseIncarnationId claim.publicClaimId)
      claim.publicClaimId = .ok ()

theorem replaceClaimMirrorSnapshot_iff {unresolved : Nat} {controls : Option ClaimIntentControl}
    {mirror : Option Mirror} {snapshot : ClaimMirrorSnapshot}
    {result : Option ClaimIntentControl × Option Mirror} :
    replaceClaimMirrorSnapshot sys unresolved controls mirror snapshot = .ok result ↔
      SnapshotPrepared sys mirror snapshot ∧
        replaceTransaction sys unresolved controls mirror snapshot = .ok result := by
  rw [replaceClaimMirrorSnapshot]
  constructor
  · intro h
    obtain ⟨_, hchecked, h⟩ := bind_eq_ok.mp h
    obtain ⟨_, hepoch, h⟩ := bind_eq_ok.mp h
    obtain ⟨_, hincarnation, h⟩ := bind_eq_ok.mp h
    obtain ⟨_, htexts, h⟩ := bind_eq_ok.mp h
    obtain ⟨_, hids, h⟩ := bind_eq_ok.mp h
    exact ⟨⟨validateSnapshot_eq_ok.mp hchecked, stored_eq_ok.mp hepoch,
      stored_eq_ok.mp hincarnation, forM_eq_ok.mp htexts, forM_eq_ok.mp hids⟩, h⟩
  · rintro ⟨hprepared, h⟩
    exact bind_eq_ok.mpr ⟨(), validateSnapshot_eq_ok.mpr hprepared.checked,
      bind_eq_ok.mpr ⟨(), stored_eq_ok.mpr hprepared.epoch,
        bind_eq_ok.mpr ⟨(), stored_eq_ok.mpr hprepared.incarnation,
          bind_eq_ok.mpr ⟨(), forM_eq_ok.mpr hprepared.texts,
            bind_eq_ok.mpr ⟨(), forM_eq_ok.mpr hprepared.ids, h⟩⟩⟩⟩⟩

theorem bound_of_prepareClaimId {known : Bool} {id : String}
    (h : prepareClaimId sys known id = .ok ()) : ensureDurableTextBound id = .ok () := by
  rw [prepareClaimId] at h
  split at h
  · rw [stored_eq_ok, existingIdentities, forM_eq_ok] at h
    exact h id (List.mem_singleton_self _)
  · rw [stored_eq_ok, Platform.identity] at h
    obtain ⟨_, hbound, -⟩ := bind_eq_ok.mp h
    exact hbound

/-- A snapshot that was taken is checked. -/
theorem vetted_seed {mirror : Option Mirror} {snapshot : ClaimMirrorSnapshot}
    (h : SnapshotPrepared sys mirror snapshot) : Vetted sys { snapshot } := by
  obtain ⟨projectIds, hvector, hsub, hsup⟩ := h.checked.vector
  have hdistinct : (snapshot.claims.map publicClaimId).Nodup :=
    List.pairwise_map.mpr (h.checked.distinct.imp fun h => h.1)
  have hproject : ∀ projectId state, (ofSnapshot snapshot).projects projectId =
      some state → ∃ checkpoint, snapshot.projectCheckpoints.get projectId = some checkpoint ∧
        state = ⟨generationOf snapshot.vector.projectGenerations projectId,
          generationOf snapshot.vector.policyGenerations projectId, checkpoint⟩ :=
    fun projectId state hstate => by
      obtain ⟨checkpoint, hcheckpoint, rfl⟩ := Option.map_eq_some_iff.mp hstate
      exact ⟨checkpoint, hcheckpoint, rfl⟩
  refine ⟨h.incarnation, h.epoch, rfl, rfl, ⟨projectIds, hvector, fun projectId => ?_⟩,
    fun projectId state hstate => ?_, fun projectId state hstate => ?_, fun id claim hclaim => ?_,
    h.checked.version, hdistinct⟩
  · change projectId ∈ projectIds ↔ ((snapshot.projectCheckpoints.get projectId).map _).isSome
    rw [Option.isSome_map, ← mem_keys]
    exact ⟨fun h => hsup h, fun h => hsub h⟩
  · obtain ⟨checkpoint, -, rfl⟩ := hproject projectId state hstate
    exact ⟨rfl, rfl⟩
  · obtain ⟨checkpoint, hcheckpoint, rfl⟩ := hproject projectId state hstate
    exact (h.checked.checkpoints _ (get_eq_some.mp hcheckpoint)).2
  · have hmem : claim ∈ snapshot.claims := List.mem_of_find?_eq_some hclaim
    have hid : claim.publicClaimId = id := by simpa using List.find?_some hclaim
    exact ⟨hid, h.checked.claims claim hmem, h.texts claim hmem,
      hid ▸ bound_of_prepareClaimId (h.ids claim hmem)⟩

/-- What is left after some effects: a claim from before, or from an effect. -/
theorem of_foldl_claimEffect {claims : ClaimsById} {effects : List ClaimMirrorEffect} {id : String}
    {claim : CommittedClaimMirrorRow} (h : effects.foldl claimEffect claims id = some claim) :
    claims id = some claim ∨ ∃ e ∈ effects, e.publicClaimId = id ∧ e.claim = some claim := by
  induction effects generalizing claims with
  | nil => exact .inl h
  | cons e effects ih =>
    rcases ih h with hclaim | ⟨e', he', h⟩
    · rw [claimEffect, Function.update_apply] at hclaim
      split at hclaim
      · rename_i hid
        exact .inr ⟨e, List.mem_cons_self .., hid.symm, hclaim⟩
      · exact .inl hclaim
    · exact .inr ⟨e', List.mem_cons_of_mem _ he', h⟩

theorem lastEffect_safe (h : GroupChecked sys group) (projectId : Int) {acked : Int}
    (hacked : safeCount acked = true) : safeCount (lastEffect group projectId acked) = true := by
  rw [lastEffect]
  cases hlast : (group.effects.filter fun e => e.projectId == projectId).getLast? with
  | none => exact hacked
  | some e =>
    have hmem := List.mem_of_mem_filter (List.mem_of_getLast? hlast)
    obtain ⟨hpositive, hsafe⟩ := (h.effects e hmem).safe
    exact (Bool.and_eq_true ..).mpr ⟨decide_eq_true hpositive.le, decide_eq_true hsafe⟩

/-- The projects of a receipt are those of the mirror. -/
theorem projects_of_receipt {mirror : Mirror}
    (hvector : validateVector group.vector = .ok projectIds)
    (hprojects : vectorProjects group.vector ⊆ mirror.projects.keys ∧
      mirror.projects.keys ⊆ vectorProjects group.vector) (projectId : Int) :
    projectId ∈ projectIds ↔ (mirror.projects.get projectId).isSome := by
  obtain ⟨-, -, -, -, hentries⟩ := validateVector_eq_ok hvector
  have heq : vectorProjects group.vector = projectIds := (keys_of_validated hentries).2.1
  rw [heq] at hprojects
  rw [← mem_keys]
  exact ⟨fun h => hprojects.1 h, fun h => hprojects.2 h⟩

/-- What a receipt is checked against. -/
structure ReceiptAccepted (sys : MirrorPlatform) (mirror : Mirror)
    (group : ClaimMirrorReceiptGroup) : Prop where
  checked : GroupChecked sys group
  prepared : GroupPrepared sys (some mirror) group
  incarnation : mirror.databaseIncarnationId = group.vector.databaseIncarnationId
  epoch : mirror.workspaceEpoch = group.vector.workspaceEpoch
  projects : vectorProjects group.vector ⊆ mirror.projects.keys ∧
    mirror.projects.keys ⊆ vectorProjects group.vector
  generations : ∀ entry ∈ mirror.projects.entries, requireGeneration group entry = .ok ()

theorem requireGeneration_of_untouched {projectId : Int}
    {state : ClaimMirrorProjectState} (htouches : ¬ group.touches projectId = true)
    (h : requireGeneration group (projectId, state) = .ok ()) :
    generationOf group.vector.projectGenerations projectId = state.projectGeneration ∧
      generationOf group.vector.policyGenerations projectId = state.policyGeneration := by
  rw [requireGeneration] at h
  rw [if_neg htouches, check_eq_ok, check_eq_ok, not_not, not_not, Int.add_zero, Int.add_zero] at h
  exact ⟨h.1, h.2.1⟩

/-- The generations after a receipt are those it sent. -/
theorem follows_receipt {accepted : Accepted} {mirror : Mirror}
    (hview : mirror.view = accepted.view) (h : ReceiptAccepted sys mirror group) :
    Follows (accepted.push group).view.projects group.vector := by
  intro projectId state hstate
  rw [view_push] at hstate
  obtain ⟨state₀, hstate₀, rfl⟩ := Option.map_eq_some_iff.mp hstate
  by_cases htouches : group.touches projectId = true
  · rw [if_pos htouches]
    exact ⟨rfl, rfl⟩
  · rw [if_neg htouches]
    rw [← hview] at hstate₀
    exact requireGeneration_of_untouched htouches (h.generations _ (get_eq_some.mp hstate₀))

/-- **The claims after a receipt** are checked against its vector. -/
theorem claims_receipt {accepted : Accepted} {mirror : Mirror} (hview : mirror.view = accepted.view)
    (hvetted : Vetted sys accepted) (h : ReceiptAccepted sys mirror group)
    (hvector : validateVector group.vector = .ok projectIds) {id : String}
    {claim : CommittedClaimMirrorRow} (hclaim : (accepted.push group).claims id = some claim) :
    ClaimVetted sys group.vector id claim := by
  rw [claims_push] at hclaim
  obtain ⟨claim₀, hclaim₀, rfl⟩ := Option.map_eq_some_iff.mp hclaim
  rcases of_foldl_claimEffect hclaim₀ with hold | ⟨e, he, rfl, heffect⟩
  · obtain ⟨hid, hchecked, htext, hbound⟩ := hvetted.claims id claim₀ hold
    -- The project of an old claim is one of the mirror's, so the receipt names it.
    obtain ⟨projectIds₀, hvector₀, hprojects₀⟩ := hvetted.vector
    obtain ⟨-, -, -, -, hentries₀⟩ := validateVector_eq_ok hvector₀
    have hproject : claim₀.projectId ∈ projectIds₀ :=
      mem_of_key hentries₀ hchecked.project (by rw [hchecked.projectGeneration]; rfl)
    obtain ⟨state, hstate⟩ := Option.isSome_iff_exists.mp ((hprojects₀ _).mp hproject)
    have hmirror : mirror.projects.get claim₀.projectId = some state := by
      rw [← hstate, ← hview]
      rfl
    obtain ⟨hgeneration, hpolicy⟩ := get_of_project hvector
      ((projects_of_receipt hvector h.projects _).mpr (by rw [hmirror]; rfl))
    rw [restamp]
    by_cases htouches : group.touches claim₀.projectId = true
    · rw [if_pos htouches]
      exact ⟨hid, hchecked.regenerate hgeneration hpolicy, htext, hbound⟩
    · rw [if_neg htouches]
      refine ⟨hid, ?_, htext, hbound⟩
      obtain ⟨hold₁, hold₂⟩ := hvetted.follows _ _ hstate
      obtain ⟨hnew₁, hnew₂⟩ := requireGeneration_of_untouched htouches
        (h.generations _ (get_eq_some.mp hmirror))
      have hequal₁ : claim₀.projectGeneration = state.projectGeneration := by
        rw [← hold₁, generationOf, hchecked.projectGeneration, Option.getD_some]
      have hequal₂ : claim₀.policyGeneration = state.policyGeneration := by
        rw [← hold₂, generationOf, hchecked.policyGeneration, Option.getD_some]
      have hkept := hchecked.regenerate hgeneration hpolicy
      rwa [hnew₁, hnew₂, ← hequal₁, ← hequal₂] at hkept
  · obtain ⟨hchecked, hid, hproject, -⟩ := (h.checked.effects e he).claim claim₀ heffect
    have htouches : group.touches claim₀.projectId = true := hproject ▸ touches_of_mem he
    rw [restamp, if_pos htouches]
    refine ⟨hid, hchecked.regenerate ?_ ?_, h.prepared.texts e he claim₀ heffect,
      bound_of_prepareClaimId (h.prepared.ids e he)⟩
    · rw [generationOf, hchecked.projectGeneration, Option.getD_some]
    · rw [generationOf, hchecked.policyGeneration, Option.getD_some]

/-- **A receipt** keeps the checks. -/
theorem vetted_receipt {accepted : Accepted} {mirror : Mirror}
    (htracks : Tracks accepted mirror) (hvetted : Vetted sys accepted)
    (h : ReceiptAccepted sys mirror group) : Vetted sys (accepted.push group) := by
  have hview : mirror.view = accepted.view := htracks.view
  have hincarnation : group.vector.databaseIncarnationId =
      accepted.snapshot.vector.databaseIncarnationId := h.incarnation.symm.trans htracks.incarnation
  have hepoch : group.vector.workspaceEpoch = accepted.snapshot.vector.workspaceEpoch :=
    h.epoch.symm.trans htracks.epoch
  obtain ⟨projectIds, hvector⟩ := h.checked.vector
  refine ⟨?_, ?_, ?_, ?_, ⟨projectIds, ?_, fun projectId => ?_⟩, ?_, fun projectId state hstate => ?_,
    fun id claim hclaim => ?_, hvetted.version, hvetted.distinct⟩
  · rw [vector_push, hincarnation, ← hvetted.sameIncarnation]
    exact hvetted.incarnation
  · rw [vector_push, hepoch, ← hvetted.sameEpoch]
    exact hvetted.epoch
  · rw [vector_push]
    exact hincarnation
  · rw [vector_push]
    exact hepoch
  · rw [vector_push]
    exact hvector
  · rw [projects_of_receipt hvector h.projects, view_push, ← hview]
    change _ ↔ ((mirror.projects.get projectId).map _).isSome = true
    rw [Option.isSome_map]
  · rw [vector_push]
    exact follows_receipt hview h
  · rw [view_push] at hstate
    obtain ⟨state₀, hstate₀, rfl⟩ := Option.map_eq_some_iff.mp hstate
    have hsafe := hvetted.checkpoints projectId state₀ hstate₀
    split
    · exact lastEffect_safe h.checked projectId hsafe
    · exact hsafe
  · rw [vector_push]
    exact claims_receipt hview hvetted h hvector hclaim

end Vetting

/-! ## Runs -/

/-- What a call can do to the mirror. -/
inductive MirrorStep (sys : MirrorPlatform) (accepted : Option Accepted)
    (mirror : Option Mirror) : Option Accepted → Option Mirror → Prop
  | same : MirrorStep sys accepted mirror accepted mirror
  | seed {snapshot : ClaimMirrorSnapshot} {claims : ClaimTable}
      (hprepared : SnapshotPrepared sys mirror snapshot)
      (hclaims : insertClaims Table.empty snapshot.claims = .ok claims) :
      MirrorStep sys accepted mirror (some { snapshot }) (some (seedMirror snapshot claims))
  | receipt {stored next : Mirror} {group : ClaimMirrorReceiptGroup} {digest vectorJson : String}
      (hmirror : mirror = some stored) (haccepted : ReceiptAccepted sys stored group)
      (hnew : stored.receipts.get group.receiptId = none)
      (hfresh : applyFresh stored group digest vectorJson = .ok next) :
      MirrorStep sys accepted mirror (accepted.map (·.push group)) (some next)
  | delete : MirrorStep sys accepted mirror none none

/-- The mirror is tied to what was accepted, and the checks hold. -/
def Settled (sys : MirrorPlatform) (accepted : Option Accepted) (mirror : Option Mirror) :
    Prop :=
  match accepted, mirror with
  | none, none => True
  | some accepted, some mirror => Tracks accepted mirror ∧ Vetted sys accepted
  | _, _ => False

section Runs
variable {sys : MirrorPlatform}

theorem Settled.tracked {accepted : Option Accepted} {mirror : Option Mirror}
    (h : Settled sys accepted mirror) : Tracked accepted mirror := by
  cases accepted <;> cases mirror
  · trivial
  · exact h
  · exact h
  · exact h.1

theorem Settled.vetted {accepted : Option Accepted} {mirror : Option Mirror}
    (h : Settled sys accepted mirror) {a : Accepted} (haccepted : accepted = some a) :
    Vetted sys a := by
  subst haccepted
  cases mirror with
  | none => exact h.elim
  | some mirror => exact h.2

theorem Settled.step {accepted accepted' : Option Accepted} {mirror mirror' : Option Mirror}
    (h : Settled sys accepted mirror)
    (hstep : MirrorStep sys accepted mirror accepted' mirror') :
    Settled sys accepted' mirror' := by
  cases hstep with
  | same => exact h
  | seed hprepared hclaims =>
    exact ⟨tracks_seed hprepared.checked hclaims, vetted_seed hprepared⟩
  | receipt hmirror haccepted hnew hfresh =>
    subst hmirror
    cases accepted with
    | none => exact h.elim
    | some accepted =>
      exact ⟨tracks_receipt h.1 haccepted.checked hnew hfresh, vetted_receipt h.1 h.2 haccepted⟩
  | delete => trivial

theorem requireSeed_eq_ok {controls : Option ClaimIntentControl} {mirror : Mirror} {u : Unit}
    (h : requireSeed controls mirror vector = .ok u) :
    mirror.databaseIncarnationId = vector.databaseIncarnationId ∧
      mirror.workspaceEpoch = vector.workspaceEpoch := by
  rw [requireSeed, check_eq_ok, check_eq_ok, not_not, not_not] at h
  exact ⟨h.1, h.2.1⟩

theorem perform_replaceMirror (t : Mirrored) (snapshot : ClaimMirrorSnapshot) :
    (t.after sys (.replaceMirror snapshot)) = match replaceMirror sys t.store snapshot with
      | .error _ => t
      | .ok s' => ⟨s', if restates sys t.store.mirror snapshot then t.accepted
          else some { snapshot }⟩ := by
  rcases h : replaceMirror sys t.store snapshot with e | s' <;>
    simp [Mirrored.after, after, Call.perform, h, commitUnit, commit, acceptedAfter, Except.map]

theorem perform_applyReceipt (t : Mirrored) (group : ClaimMirrorReceiptGroup) :
    (t.after sys (.applyReceipt group)) = match applyReceipt sys t.store group with
      | .error _ => t
      | .ok (result, s') =>
        ⟨s', if result.replayed then t.accepted else t.accepted.map (·.push group)⟩ := by
  rcases h : applyReceipt sys t.store group with e | ⟨result, s'⟩ <;>
    simp [Mirrored.after, after, Call.perform, h, commit, acceptedAfter, push]

theorem perform_deleteMirror (t : Mirrored) :
    (t.after sys .deleteMirror) = match deleteMirror t.store with
      | .error _ => t
      | .ok s' => ⟨s', none⟩ := by
  rcases h : deleteMirror t.store with e | s' <;>
    simp [Mirrored.after, after, Call.perform, h, commitUnit, commit, acceptedAfter, Except.map]

/-- **One call** takes one of the steps. -/
theorem mirrorStep_after (t : Mirrored) (call : Call) :
    MirrorStep sys t.accepted t.store.mirror (t.after sys call).accepted
      (t.after sys call).store.mirror := by
  cases call with
  | replaceMirror snapshot =>
    rw [perform_replaceMirror]
    rcases hreplace : replaceMirror sys t.store snapshot with e | s'
    · exact .same
    · obtain ⟨controls, mirror, hresult, rfl⟩ := replaceMirror_eq_ok hreplace
      rcases replaceStored_eq_ok (replaceClaimMirrorSnapshot_eq_ok hresult).2 with
        ⟨stored, hstored, hsame, -, rfl⟩ | ⟨hsame, -, hseed⟩
      · rw [if_pos (by rw [restates, hstored, Option.any_some, hsame])]
        exact .same
      · obtain ⟨claims, hclaims, -, rfl⟩ := seed_eq_ok hseed
        rw [if_neg]
        · exact .seed (replaceClaimMirrorSnapshot_iff.mp hresult).1 hclaims
        · rw [restates, Option.any_eq_true]
          rintro ⟨stored, hstored, htrue⟩
          rw [hsame stored hstored] at htrue
          cases htrue
  | applyReceipt group =>
    rw [perform_applyReceipt]
    rcases happly : applyReceipt sys t.store group with e | ⟨result, s'⟩
    · exact .same
    · obtain ⟨mirror, hresult, rfl⟩ := applyReceipt_eq_ok happly
      dsimp only
      obtain ⟨hchecked, hprepared, stored, hstored, hseed, ⟨hreplayed, rfl⟩ |
        ⟨hreplayed, hnew, digest, vectorJson, next, hfresh, rfl⟩⟩ :=
          applyClaimMirrorReceipt_eq_ok hresult
      · rw [if_pos hreplayed]
        exact .same
      · rw [if_neg (by rw [hreplayed]; decide)]
        obtain ⟨hincarnation, hepoch⟩ := requireSeed_eq_ok hseed
        obtain ⟨-, -, hprojects, -, -, hgenerations, -⟩ := applyFresh_eq_ok hfresh
        exact .receipt hstored ⟨hchecked, hstored ▸ hprepared, hincarnation, hepoch, hprojects,
          hgenerations⟩ hnew hfresh
  | deleteMirror =>
    rw [perform_deleteMirror]
    rcases hdelete : deleteMirror t.store with e | s'
    · exact .same
    · obtain ⟨mirror, hmirror, rfl⟩ := deleteMirror_eq_ok hdelete
      rw [deleteClaimMirror, check_eq_ok, check_eq_ok] at hmirror
      cases hmirror.2.2
      exact .delete
  | _ =>
    change MirrorStep sys t.accepted t.store.mirror t.accepted (t.store.after sys _).mirror
    rw [mirror_of_other rfl]
    exact .same

/-- **Runs** keep the mirror tied to what was accepted. -/
theorem settled_run (routes : String → Option (String × String)) (calls : List Call) :
    Settled sys ((Mirrored.fresh routes).run sys calls).accepted
      ((Mirrored.fresh routes).run sys calls).store.mirror := by
  induction calls using List.reverseRecOn with
  | nil => trivial
  | append_singleton calls call ih =>
    rw [Mirrored.run, List.foldl_concat]
    exact ih.step (mirrorStep_after _ call)

end Runs

/-! ## Presenting the state -/

/-- A snapshot of the state the host has come to. -/
structure Presents (accepted : Accepted) (snapshot : ClaimMirrorSnapshot) : Prop where
  version : snapshot.mirrorVersion = claimMirrorVersion
  vector : snapshot.vector = accepted.vector
  checkpoints : ∀ projectId, snapshot.projectCheckpoints.get projectId =
    (accepted.view.projects projectId).map ClaimMirrorProjectState.ackedEffectId
  distinct : (snapshot.claims.map CommittedClaimMirrorRow.publicClaimId).Nodup
  claims : claimsOf snapshot = accepted.claims

/-- The value is read from its canonical text as it was. -/
def ReadsBack (sys : MirrorPlatform) (value : Json) : Prop :=
  ∀ text, canonicalJsonEncode value = .ok text → sys.parse text = .ok value

structure CommittedClaimMirrorRow.ReadsBack (sys : MirrorPlatform)
    (claim : CommittedClaimMirrorRow) : Prop where
  attributes : Claims.ReadsBack sys claim.attributes
  applicability : Claims.ReadsBack sys claim.applicability
  policy : Claims.ReadsBack sys claim.policy

section Presenting
variable {sys : MirrorPlatform} {accepted : Accepted} {snapshot : ClaimMirrorSnapshot}

theorem claimsOf_eq_some (h : (snapshot.claims.map publicClaimId).Nodup)
    {id : String} {claim : CommittedClaimMirrorRow} :
    claimsOf snapshot id = some claim ↔ claim ∈ snapshot.claims ∧ claim.publicClaimId = id :=
  Table.get_eq_some (t := ⟨snapshot.claims, h⟩)

theorem Presents.claim (h : Presents accepted snapshot) (hvetted : Vetted sys accepted)
    {claim : CommittedClaimMirrorRow} (hclaim : claim ∈ snapshot.claims) :
    accepted.claims claim.publicClaimId = some claim ∧
      ClaimVetted sys snapshot.vector claim.publicClaimId claim := by
  have hof := (claimsOf_eq_some h.distinct).mpr ⟨hclaim, rfl⟩
  rw [h.claims] at hof
  exact ⟨hof, h.vector ▸ hvetted.claims _ _ hof⟩

/-- **The snapshot is valid.** -/
theorem Presents.checked (h : Presents accepted snapshot) (hvetted : Vetted sys accepted) :
    SnapshotChecked sys snapshot := by
  obtain ⟨projectIds, hvector, hprojects⟩ := hvetted.vector
  have hkeys : ∀ projectId, projectId ∈ snapshot.projectCheckpoints.keys ↔
      projectId ∈ projectIds := fun projectId => by
    rw [mem_keys, h.checkpoints, Option.isSome_map, hprojects]
  refine ⟨h.version, ⟨projectIds, h.vector ▸ hvector, fun p hp => (hkeys p).mp hp,
    fun p hp => (hkeys p).mpr hp⟩, fun entry hentry => ?_,
    fun claim hclaim => (h.claim hvetted hclaim).2.checked, ?_⟩
  · have hget := get_eq_some.mpr hentry
    obtain ⟨-, -, -, -, hentries⟩ := validateVector_eq_ok hvector
    refine ⟨(keys_of_validated hentries).2.2 _ ((hkeys _).mp ?_), ?_⟩
    · exact mem_keys.mpr (by rw [hget]; rfl)
    · rw [h.checkpoints] at hget
      obtain ⟨state, hstate, hacked⟩ := Option.map_eq_some_iff.mp hget
      exact hacked ▸ hvetted.checkpoints _ state hstate
  · -- A locator names its claim, so claims with different ids have different locators.
    refine (List.pairwise_map.mp h.distinct).imp_of_mem fun {c d} hc hd hne => ⟨hne, fun heq => ?_⟩
    obtain ⟨locator, hlocator, hid, -⟩ := (h.claim hvetted hc).2.checked.locator
    obtain ⟨locator', hlocator', hid', -⟩ := (h.claim hvetted hd).2.checked.locator
    rw [heq, hlocator', Option.some_inj] at hlocator
    exact hne (hid.symm.trans (hlocator ▸ hid'))

theorem rowOf_of_checked {claim : CommittedClaimMirrorRow}
    (h : ClaimChecked sys vector claim) : ∃ row, rowOf claim = some row := by
  have hencodes : ∀ {value : Json} {field : String},
      (∃ text, validateJsonObject value field = .ok text) →
        ∃ text, canonical (canonicalJsonEncode value) = .ok text :=
    fun {value field} ⟨text, htext⟩ => by
      rw [validateJsonObject, check_eq_ok] at htext
      exact ⟨text, htext.2⟩
  obtain ⟨locator, hlocator, -⟩ := h.locator
  obtain ⟨attributes, hattributes⟩ := hencodes h.attributes
  obtain ⟨applicability, happlicability⟩ := hencodes h.applicability
  obtain ⟨policy, hpolicy⟩ := hencodes h.policy
  rw [rowOf, storedClaim, hlocator]
  rw [hattributes, happlicability, hpolicy]
  exact ⟨_, rfl⟩

variable {mirror : Mirror}

/-- The rows of the mirror are those of the claims presented. -/
theorem Presents.mem_claims (h : Presents accepted snapshot) (htracks : Tracks accepted mirror)
    {row : StoredClaim} :
    row ∈ mirror.claims.rows ↔ ∃ claim ∈ snapshot.claims, rowOf claim = some row := by
  have hget : mirror.claims.get row.publicClaimId =
      (claimsOf snapshot row.publicClaimId).bind rowOf := by
    have hview : mirror.view.claims = accepted.view.claims := congrArg _ htracks.view
    rw [h.claims, ← congrFun accepted.view_claims, ← hview]
    rfl
  constructor
  · intro hrow
    rw [Table.get_key hrow, eq_comm, Option.bind_eq_some_iff] at hget
    obtain ⟨claim, hclaim, hrowOf⟩ := hget
    exact ⟨claim, ((claimsOf_eq_some h.distinct).mp hclaim).1, hrowOf⟩
  · rintro ⟨claim, hclaim, hrowOf⟩
    have hid := (storedClaim_eq_ok (rowOf_eq_some.mp hrowOf)).publicClaimId
    rw [(claimsOf_eq_some h.distinct).mpr ⟨hclaim, hid.symm⟩, Option.bind_some, hrowOf] at hget
    exact (Table.get_eq_some.mp hget).1

/-- **The snapshot passes** the checks before the transaction. -/
theorem Presents.prepared (h : Presents accepted snapshot) (htracks : Tracks accepted mirror)
    (hvetted : Vetted sys accepted) :
    SnapshotPrepared sys (some mirror) snapshot := by
  refine ⟨h.checked hvetted, h.vector ▸ hvetted.epoch, h.vector ▸ hvetted.incarnation,
    fun claim hclaim => (h.claim hvetted hclaim).2.text, fun claim hclaim => ?_⟩
  obtain ⟨-, hclaimVetted⟩ := h.claim hvetted hclaim
  obtain ⟨row, hrow⟩ := rowOf_of_checked hclaimVetted.checked
  have hmem := (h.mem_claims htracks).mpr ⟨claim, hclaim, hrow⟩
  have hget := Table.get_key (t := mirror.claims) hmem
  rw [(storedClaim_eq_ok (rowOf_eq_some.mp hrow)).publicClaimId] at hget
  have hincarnation : mirror.databaseIncarnationId = snapshot.vector.databaseIncarnationId := by
    rw [h.vector, hvetted.sameIncarnation, htracks.incarnation]
  rw [prepareClaimId, Mirror.knows, Option.any_some, hget, decide_eq_true hincarnation]
  rw [Option.isSome_some, Bool.and_self, if_pos rfl, stored_eq_ok, existingIdentities, forM_eq_ok]
  intro id hid
  rw [List.mem_singleton.mp hid]
  exact hclaimVetted.bound

/-! ### Rows in order -/

theorem sorted_claims {α : Type} (f : α → Int × String) (l : List α) :
    (l.insertionSort fun c d => claimBefore (f c) (f d)).Pairwise
      fun c d => claimBefore (f c) (f d) := by
  have htotal : Std.Total fun c d => claimBefore (f c) (f d) := ⟨fun c d => by
    rcases lt_trichotomy (f c).1 (f d).1 with h | h | h
    · exact .inl (.inl h)
    · exact (le_total (f c).2 (f d).2).imp (fun h' => .inr ⟨h, h'⟩) fun h' => .inr ⟨h.symm, h'⟩
    · exact .inr (.inl h)⟩
  have htrans : IsTrans α fun c d => claimBefore (f c) (f d) := ⟨fun c d e h h' => by
    rcases h with h | ⟨h, hid⟩ <;> rcases h' with h' | ⟨h', hid'⟩
    · exact .inl (h.trans h')
    · exact .inl (h.trans_eq h')
    · exact .inl (h.trans_lt h')
    · exact .inr ⟨h.trans h', hid.trans hid'⟩⟩
  exact List.pairwise_insertionSort _ l

theorem claimBefore_antisymm {p q : Int × String} (h : claimBefore p q) (h' : claimBefore q p) :
    p.2 = q.2 := by
  rcases h with h | ⟨h, hid⟩ <;> rcases h' with h' | ⟨h', hid'⟩
  · exact absurd (h.trans h') (lt_irrefl _)
  · exact absurd (h.trans_eq h') (lt_irrefl _)
  · exact absurd (h.trans_lt h') (lt_irrefl _)
  · exact le_antisymm hid hid'

/-- The rows in order are those of the claims in order. -/
theorem Presents.sorted_rows (h : Presents accepted snapshot) (htracks : Tracks accepted mirror) :
    (mirror.claims.rows.insertionSort fun c d =>
        claimBefore (c.projectId, c.publicClaimId) (d.projectId, d.publicClaimId)) =
      (sortClaims snapshot.claims).filterMap rowOf := by
  have hrow : ∀ {claim row}, rowOf claim = some row →
      row.projectId = claim.projectId ∧ row.publicClaimId = claim.publicClaimId :=
    fun hrowOf => ⟨(storedClaim_eq_ok (rowOf_eq_some.mp hrowOf)).projectId,
      (storedClaim_eq_ok (rowOf_eq_some.mp hrowOf)).publicClaimId⟩
  have hids : ((sortClaims snapshot.claims).map publicClaimId).Nodup :=
    ((List.perm_insertionSort _ _).map _).nodup_iff.mpr h.distinct
  have hnodup : ((sortClaims snapshot.claims).filterMap rowOf).Nodup :=
    List.pairwise_filterMap.mpr ((List.pairwise_map.mp hids).imp
      fun hne row hc row' hd heq => hne (by rw [← (hrow hc).2, heq, (hrow hd).2]))
  have hmem : ∀ row, row ∈ mirror.claims.rows ↔
      row ∈ (sortClaims snapshot.claims).filterMap rowOf := fun row => by
    rw [h.mem_claims htracks, List.mem_filterMap]
    exact exists_congr fun claim => and_congr_left' (List.mem_insertionSort _).symm
  refine List.Perm.eq_of_pairwise (fun row row' hrow hrow' hle hle' => ?_)
    (sorted_claims (fun row : StoredClaim => (row.projectId, row.publicClaimId)) _) ?_
    ((List.perm_insertionSort _ _).trans
      ((List.perm_ext_iff_of_nodup mirror.claims.unique.of_map hnodup).mpr hmem))
  · have hid := claimBefore_antisymm hle hle'
    rw [List.mem_insertionSort] at hrow
    exact Table.eq_of_key hrow ((hmem row').mpr hrow') hid
  · refine List.pairwise_filterMap.mpr ((sorted_claims (fun claim : CommittedClaimMirrorRow =>
      (claim.projectId, claim.publicClaimId)) _).imp fun {c d} hcd row hc row' hd => ?_)
    rw [(hrow hc).1, (hrow hc).2, (hrow hd).1, (hrow hd).2]
    exact hcd

/-- A row is read back as its claim. -/
theorem readClaim_rowOf {claim : CommittedClaimMirrorRow} {row : StoredClaim}
    (hreads : claim.ReadsBack sys) (hrow : rowOf claim = some row) :
    readClaim sys row = .ok claim := by
  have h := storedClaim_eq_ok (rowOf_eq_some.mp hrow)
  rw [readClaim, parseColumn, parseColumn, parseColumn, hreads.attributes _ h.attributes,
    hreads.applicability _ h.applicability, hreads.policy _ h.policy]
  change Except.ok _ = _
  rw [h.publicClaimId, h.projectId, h.revisionLocator, h.content, h.contentDigest, h.lifecycle,
    h.provenanceLabel, h.projectGeneration, h.policyGeneration]

theorem readClaimList_rowOf {claims : List CommittedClaimMirrorRow}
    (hrows : ∀ claim ∈ claims, ∃ row, rowOf claim = some row)
    (hreads : ∀ claim ∈ claims, claim.ReadsBack sys) :
    readClaimList sys (claims.filterMap rowOf) = .ok claims := by
  induction claims with
  | nil => rfl
  | cons claim claims ih =>
    obtain ⟨hrow, hrows⟩ := List.forall_mem_cons.mp hrows
    obtain ⟨hread, hreads⟩ := List.forall_mem_cons.mp hreads
    obtain ⟨row, hrow⟩ := hrow
    rw [List.filterMap_cons_some hrow, readClaimList, readClaim_rowOf hread hrow, ih hrows hreads]
    rfl

/-- **The mirror says** what the snapshot says. -/
theorem Presents.same (h : Presents accepted snapshot) (htracks : Tracks accepted mirror)
    (hvetted : Vetted sys accepted)
    (hreads : ∀ claim ∈ snapshot.claims, claim.ReadsBack sys) :
    sameAsStored sys mirror snapshot = .ok true := by
  have hview : mirror.view = accepted.view := htracks.view
  obtain ⟨projectIds, hvector, hprojects⟩ := hvetted.vector
  rw [← hview] at hprojects
  have hvectors : mirror.vector = snapshot.vector := by
    rw [h.vector]
    refine Mirror.vector_eq htracks.version (htracks.incarnation.trans hvetted.sameIncarnation.symm)
      (htracks.epoch.trans hvetted.sameEpoch.symm) hvector hprojects ?_
    have hfollows := hvetted.follows
    rw [← hview] at hfollows
    exact hfollows
  have hcheckpoints : checkpointsMatch mirror snapshot = true := by
    refine List.all_eq_true.mpr fun entry hentry => ?_
    have hget : accepted.view.projects entry.1 = some entry.2 := by
      rw [← hview]
      exact get_eq_some.mpr hentry
    rw [h.checkpoints, hget]
    exact beq_self_eq_true _
  have hread : readClaims sys mirror = .ok (sortClaims snapshot.claims) := by
    rw [readClaims, h.sorted_rows htracks]
    have hmem : ∀ claim, claim ∈ sortClaims snapshot.claims → claim ∈ snapshot.claims :=
      fun claim hclaim => (List.mem_insertionSort _).mp hclaim
    exact readClaimList_rowOf
      (fun claim hclaim => rowOf_of_checked (h.claim hvetted (hmem claim hclaim)).2.checked)
      fun claim hclaim => hreads claim (hmem claim hclaim)
  rw [sameAsStored, if_pos ⟨hvectors, hcheckpoints⟩, hread]
  exact congrArg Except.ok (decide_eq_true rfl)

/-- **Presenting the state again** succeeds and changes nothing. -/
theorem replaceMirror_presents {t : Mirrored} (hsettled : Settled sys t.accepted t.store.mirror)
    (haccepted : t.accepted = some accepted) (h : Presents accepted snapshot)
    (hreads : ∀ claim ∈ snapshot.claims, claim.ReadsBack sys)
    (hunresolved : t.store.unresolved = 0)
    (hcontrol : ∀ control, t.store.controls = some control →
      control.databaseIncarnationId = accepted.snapshot.vector.databaseIncarnationId) :
    replaceMirror sys t.store snapshot = .ok t.store ∧
      t.after sys (.replaceMirror snapshot) = t := by
  obtain ⟨store, acceptedOption⟩ := t
  subst haccepted
  cases hmirror : store.mirror with
  | none =>
    rw [hmirror] at hsettled
    exact hsettled.elim
  | some mirror =>
    rw [hmirror] at hsettled
    obtain ⟨htracks, hvetted⟩ := hsettled
    have hsame := h.same htracks hvetted hreads
    have hincarnation : requireIncarnation store.controls snapshot.vector.databaseIncarnationId =
        .ok () := by
      cases hcontrols : store.controls with
      | none => rfl
      | some control =>
        refine check_eq_ok.mpr ⟨not_not.mpr ?_, rfl⟩
        rw [hcontrol control hcontrols, h.vector, hvetted.sameIncarnation]
    have htransaction : replaceTransaction sys store.unresolved store.controls store.mirror
        snapshot = .ok (store.controls, store.mirror) := by
      rw [replaceTransaction, hunresolved, if_neg (Nat.lt_irrefl 0), hincarnation, hmirror]
      rw [replaceStored, hsame]
      rfl
    have hreplace : replaceMirror sys store snapshot = .ok store := by
      refine bind_eq_ok.mpr ⟨(store.controls, store.mirror), ?_, rfl⟩
      exact replaceClaimMirrorSnapshot_iff.mpr ⟨hmirror ▸ h.prepared htracks hvetted, htransaction⟩
    refine ⟨hreplace, ?_⟩
    rw [perform_replaceMirror, hreplace]
    rw [if_pos (by rw [restates, hmirror, Option.any_some, hsame])]

/-- The snapshot that was accepted is of the state, as long as there were no receipts. -/
theorem Vetted.presents (hvetted : Vetted sys accepted) (hgroups : accepted.groups = []) :
    Presents accepted accepted.snapshot := by
  obtain ⟨snapshot, groups⟩ := accepted
  subst hgroups
  refine ⟨hvetted.version, rfl, fun projectId => ?_, hvetted.distinct, rfl⟩
  change _ = ((snapshot.projectCheckpoints.get projectId).map _).map _
  rw [Option.map_map]
  exact Option.map_id'.symm

/-- A receipt that was taken is not taken again. -/
theorem after_of_taken {t : Mirrored} (hsettled : Settled sys t.accepted t.store.mirror)
    (haccepted : t.accepted = some accepted)
    (htaken : group.receiptId ∈ accepted.groups.map ClaimMirrorReceiptGroup.receiptId) :
    t.after sys (.applyReceipt group) = t := by
  rw [perform_applyReceipt]
  rcases happly : applyReceipt sys t.store group with e | ⟨result, s'⟩
  · rfl
  · obtain ⟨mirror, hresult, rfl⟩ := applyReceipt_eq_ok happly
    obtain ⟨-, -, stored, hstored, -, ⟨hreplayed, rfl⟩ | ⟨-, hnew, -⟩⟩ :=
      applyClaimMirrorReceipt_eq_ok hresult
    · dsimp only
      rw [if_pos hreplayed]
    · rw [haccepted, hstored] at hsettled
      have hsome := (hsettled.1.receipts group.receiptId).mpr htaken
      rw [hnew] at hsome
      cases hsome

end Presenting

/-! ## The mirror over runs -/

/-- **The mirror is the fold of what was accepted.**  Along every run the tables are tied to the
last snapshot that was taken and to the receipts since; a call that is refused changes nothing,
and a receipt is taken once.  A snapshot of the state the host has come to is taken without a
change, if no intent is unresolved, the control row is of the same incarnation, and the claims'
JSON is read from its canonical texts as it was. -/
theorem claimMirror_folds (sys : MirrorPlatform) (routes : String → Option (String × String))
    (calls : List Call) :
    let t := (Mirrored.fresh routes).run sys calls
    Tracked t.accepted t.store.mirror ∧
    (∀ snapshot e, replaceMirror sys t.store snapshot = .error e →
      t.after sys (.replaceMirror snapshot) = t) ∧
    (∀ group e, applyReceipt sys t.store group = .error e → t.after sys (.applyReceipt group) = t) ∧
    ∀ accepted, t.accepted = some accepted →
      (∀ group, group.receiptId ∈ accepted.groups.map ClaimMirrorReceiptGroup.receiptId →
        t.after sys (.applyReceipt group) = t) ∧
      (accepted.groups = [] → Presents accepted accepted.snapshot) ∧
      ∀ snapshot, Presents accepted snapshot → (∀ claim ∈ snapshot.claims, claim.ReadsBack sys) →
        t.store.unresolved = 0 →
        (∀ control, t.store.controls = some control →
          control.databaseIncarnationId = accepted.snapshot.vector.databaseIncarnationId) →
        replaceMirror sys t.store snapshot = .ok t.store ∧
          t.after sys (.replaceMirror snapshot) = t := by
  intro t
  have hsettled : Settled sys t.accepted t.store.mirror := settled_run routes calls
  refine ⟨hsettled.tracked, fun snapshot e h => ?_, fun group e h => ?_,
    fun accepted haccepted => ⟨fun group => after_of_taken hsettled haccepted,
      (hsettled.vetted haccepted).presents, fun snapshot => ?_⟩⟩
  · rw [perform_replaceMirror, h]
  · rw [perform_applyReceipt, h]
  · exact replaceMirror_presents hsettled haccepted

/-! ### A snapshot that is sent twice -/

/-- The digest and the parser, on the texts of the samples. -/
def samplePlatform : MirrorPlatform :=
  { plainPlatform with
    sha256Hex := fun text =>
      if text = "Use tabs." then
        "3daa6bb31940f085636347a3b35f70c917d89e6cde3ed69c46d31e148a607df1"
      else "75abfad70bdfe43295e0ca49180dcd79f5e14da0d550ce17d391d627dfe72d8f"
    parse := fun text =>
      if text = "\x7b\x7d" then .ok (.object [])
      else if text = "\x7b\"weight\":1\x7d" then .ok (.object [("weight", jsonInteger 1)])
      else .error "no JSON" }

/-- A snapshot with one claim. -/
def sampleSnapshot (attributes : Json) : ClaimMirrorSnapshot where
  mirrorVersion := 1
  vector :=
    { vectorVersion := 1
      databaseIncarnationId := (sampleKey .memories).contextStoreUuid
      workspaceEpoch := "epoch"
      projectGenerations := .ofList [("1", 1)]
      policyGenerations := .ofList [("1", 1)] }
  projectCheckpoints := .ofList [(1, 0)]
  claims :=
    [{ publicClaimId := "mcm_0123456789abcdef0123456789abcdef"
       projectId := 1
       revisionLocator := "mcm_0123456789abcdef0123456789abcdef/r1/" ++
         "3daa6bb31940f085636347a3b35f70c917d89e6cde3ed69c46d31e148a607df1"
       content := "Use tabs."
       contentDigest := "3daa6bb31940f085636347a3b35f70c917d89e6cde3ed69c46d31e148a607df1"
       attributes := attributes
       lifecycle := .active
       applicability := .object []
       policy := .object []
       provenanceLabel := none
       projectGeneration := 1
       policyGeneration := 1 }]

/-- A snapshot that is sent again. -/
theorem claimMirror_folds_sample :
    let t := (Mirrored.fresh sampleRoutes).run samplePlatform
      [.replaceMirror (sampleSnapshot (.object []))]
    t.after samplePlatform (.replaceMirror (sampleSnapshot (.object []))) = t := by
  intro t
  obtain ⟨-, -, -, hpresented⟩ := claimMirror_folds samplePlatform sampleRoutes
    [.replaceMirror (sampleSnapshot (.object []))]
  have haccepted : t.accepted = some { snapshot := sampleSnapshot (.object []) } := by
    decide +kernel
  obtain ⟨-, hpresents, hagain⟩ := hpresented _ haccepted
  have hempty : ReadsBack samplePlatform (.object []) := fun text htext => by
    cases htext
    rfl
  refine (hagain _ (hpresents rfl) (fun claim hclaim => ?_) ?_ ?_).2
  · cases List.mem_singleton.mp hclaim
    exact ⟨hempty, hempty, hempty⟩
  · decide +kernel
  · rw [show t.store.controls = none by decide +kernel]
    nofun

/-- A store whose memories are the module's. -/
def managed : List Call :=
  [.beginPrepare (sampleKey .memories), .finishPrepare (sampleKey .memories) 1 "hash" "hash" true]

/-- The answer to a snapshot that is sent again after some calls. -/
def sentAgain (attributes : Json) (calls : List Call) : Except ClaimMirrorError Unit :=
  (replaceMirror samplePlatform
    ((ClaimStore.fresh sampleRoutes).run samplePlatform
      (managed ++ .replaceMirror (sampleSnapshot attributes) :: calls))
    (sampleSnapshot attributes)).map fun _ => ()

/-- A staged intent. -/
def stageSample : Call :=
  .stage "route" ⟨(sampleKey .memories).contextStoreUuid, 1, "project", 2⟩ ⟨"producer", "key"⟩
    (.object []) 0

/-- **A snapshot equal to the accepted one is refused** while an intent is unresolved, for a
rebuild of another incarnation, and when a number of it is written in another way. -/
theorem sentAgain_refused :
    sentAgain (.object []) [] = .ok () ∧
      sentAgain (.object []) [stageSample] = .error (.resetBlocked 1) ∧
      sentAgain (.object []) [.beginRebuild "ffffffffffffffffffffffffffffffff" 0] =
        .error (.incarnationMismatch "ffffffffffffffffffffffffffffffff"
          (sampleKey .memories).contextStoreUuid) ∧
      sentAgain (.object [("weight", .number (.float 1))]) [] = .error .resetRequired :=
  ⟨by decide +kernel, by decide +kernel, by decide +kernel, by decide +kernel⟩

end MagicContext.Claims
