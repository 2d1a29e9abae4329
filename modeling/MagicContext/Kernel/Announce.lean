import MagicContext.Kernel.Backlog

/-!
# Registration and announcement

A method that registers an object pushes a change about it before it returns.  So a call that
succeeds leaves no object in the registry that was not there before and that no pending change
tells of.  A call that fails half-way may.

## What is here

* `registry_step` — what a statement does to the registry.
* `Leaves g m` — what a successful run of `m` may leave registered and untold.
* `Announces` — a method that tells of an object.
* `leaves_call` — a call that succeeds leaves nothing untold.
-/

namespace MagicContext.Kernel

open Transaction Evolves

variable {α β : Type}

/-! ## The registry -/

section Registry
variable {ρ κ : Type} {key : ρ → κ} [HasLifetime ρ]

theorem invalidateRows_eq_ok {t t' : Table key} {hit : ρ → Bool} {seq n : Nat}
    {hkey : ∀ r : ρ, key (endLife seq r) = key r}
    (h : invalidateRows t hit seq hkey = .ok (t', n)) :
    t' = t.update (liveRow hit) (endLife seq) hkey := by
  rw [invalidateRows] at h
  split at h
  · cases h
  · cases h
    rfl

theorem succeedOnce_eq_ok {t t' : Table key} {hit : ρ → Bool} {successor : String} {n : Nat}
    {hkey : ∀ r : ρ, key (succeed successor r) = key r}
    (h : succeedOnce t hit successor hkey = .ok (t', n)) :
    t' = t.update hit (succeed successor) hkey := by
  rw [succeedOnce] at h
  split at h
  · cases h
  · cases h
    rfl

end Registry

/-- The registry after a statement: as it was, with a new row, or with rows that ended or got a
successor. -/
inductive RegistryStep (t : Table fun r : ObjectRow => r.objectId) :
    Write → (Table fun r : ObjectRow => r.objectId) → Prop
  | same (w : Write) : RegistryStep t w t
  | insert (row : ObjectRow) (t' : Table fun r : ObjectRow => r.objectId)
      (hinsert : t.insert row = some t') : RegistryStep t (.insertRegistry row) t'
  | invalidate (w : Write) (p : ObjectRow → Bool) (seq : Nat) :
      RegistryStep t w (t.update p (endLife seq) fun _ => rfl)
  | succeed (w : Write) (p : ObjectRow → Bool) (successor : String) :
      RegistryStep t w (t.update p (succeed successor) fun _ => rfl)

theorem registry_of_changesOnly {db db' : Db} {t : TableName} (h : db.ChangesOnly t db')
    (ht : t ≠ .registry) : db'.registry = db.registry := by
  cases h with
  | registry => exact absurd rfl ht
  | _ => rfl

/-- **What a statement does to the registry.** -/
theorem registry_step {w : Write} {db db' : Db} {rows : Nat} (h : w.apply db = .ok (db', rows)) :
    RegistryStep db.registry w db'.registry := by
  by_cases ht : w.target = .registry
  · cases w with
    | insertRegistry row =>
      obtain ⟨t, hinsert, heq⟩ := Checks.bind_eq_ok.mp h
      cases heq
      exact .insert row t (insertRow_eq_ok.mp hinsert).2
    | invalidateRegistry id kind seq =>
      obtain ⟨⟨t, n⟩, hinvalidate, heq⟩ := Checks.bind_eq_ok.mp h
      cases heq
      rw [invalidateRows_eq_ok hinvalidate]
      exact .invalidate _ _ _
    | succeedRegistry id kind successor =>
      obtain ⟨⟨t, n⟩, hsucceed, heq⟩ := Checks.bind_eq_ok.mp h
      cases heq
      rw [succeedOnce_eq_ok hsucceed]
      exact .succeed _ _ _
    | invalidateTyped table | succeedTyped table => cases table <;> cases ht
    | _ => cases ht
  · rw [registry_of_changesOnly (Write.apply_changesOnly h) ht]
    exact .same w

/-- The registry has a row for the object. -/
def Db.Registered (db : Db) (objectId : String) : Prop := ∃ r ∈ db.registry, r.objectId = objectId

theorem exists_mem_update {t : Table fun r : ObjectRow => r.objectId} {p : ObjectRow → Bool}
    {f : ObjectRow → ObjectRow} {hf : ∀ r, (f r).objectId = r.objectId} {objectId : String} :
    (∃ r ∈ t.update p f hf, r.objectId = objectId) ↔ ∃ r ∈ t, r.objectId = objectId := by
  rw [← Table.isSome_get, ← Table.isSome_get, Table.get_update, Option.isSome_map]

/-- Only an insertion registers an object. -/
theorem registered_of_step {w : Write} {db db' : Db} {rows : Nat} {objectId : String}
    (h : w.apply db = .ok (db', rows)) (hreg : db'.Registered objectId) :
    db.Registered objectId ∨ ∃ row, w = .insertRegistry row ∧ row.objectId = objectId := by
  rw [Db.Registered] at hreg
  have hstep := registry_step h
  generalize db'.registry = t' at hstep hreg
  cases hstep with
  | same => exact .inl hreg
  | insert row t' hinsert =>
    obtain ⟨r, hr, hid⟩ := hreg
    rcases (Table.mem_insert hinsert).mp hr with hr | rfl
    · exact .inl ⟨r, hr, hid⟩
    · exact .inr ⟨r, rfl, hid⟩
  | invalidate | succeed => exact .inl (exists_mem_update.mp hreg)

/-! ## Registered and told -/

/-- A pending change tells of the object. -/
def Envelope.Tells (env : Envelope) (objectId : String) : Prop :=
  ∃ o ∈ env.told, o.objectId = objectId

/-- What is told stays told, and what is newly registered is told or among the exceptions. -/
structure Registers (except : List String) (s s' : Session) : Prop where
  told : s.envelope.told ⊆ s'.envelope.told
  registered : ∀ id, s'.envelope.tx.Registered id →
    s.envelope.tx.Registered id ∨ id ∈ except ∨ s'.envelope.Tells id

variable {id : String} {ids : List String}

theorem tells_mono {s s' : Session} (h : s.envelope.told ⊆ s'.envelope.told)
    (htells : s.envelope.Tells id) : s'.envelope.Tells id := by
  obtain ⟨o, ho, hid⟩ := htells
  exact ⟨o, h ho, hid⟩

theorem Registers.refl (except : List String) (s : Session) : Registers except s s :=
  ⟨fun _ h => h, fun _ h => .inl h⟩

theorem Registers.trans {except : List String} {s s' s'' : Session} (h : Registers except s s')
    (h' : Registers except s' s'') : Registers except s s'' where
  told := List.Subset.trans h.told h'.told
  registered id hid := by
    rcases h'.registered id hid with hid | hid | hid
    · rcases h.registered id hid with hid | hid | hid
      · exact .inl hid
      · exact .inr (.inl hid)
      · exact .inr (.inr (tells_mono h'.told hid))
    · exact .inr (.inl hid)
    · exact .inr (.inr hid)

/-- An exception that is told of later is none. -/
theorem Registers.settle {s s' : Session} (h : Registers [id] s s')
    (htells : s'.envelope.Tells id) : Registers [] s s' where
  told := h.told
  registered id' hid := by
    rcases h.registered id' hid with hid | hid | hid
    · exact .inl hid
    · rw [List.mem_singleton.mp hid]
      exact .inr (.inr htells)
    · exact .inr (.inr hid)

theorem Registers.mono {except : List String} {s s' : Session} (h : Registers [] s s') :
    Registers except s s' where
  told := h.told
  registered id hid := by
    rcases h.registered id hid with hid | hid | hid
    · exact .inl hid
    · cases hid
    · exact .inr (.inr hid)

/-! ## Methods -/

/-- What a successful run may leave registered and untold, by its result. -/
def Leaves (g : α → List String) (m : M α) : Prop :=
  ∀ s a s', m s = .ok a s' → Registers (g a) s s'

/-- A successful run leaves nothing untold. -/
abbrev LeavesNone (m : M α) : Prop := Leaves (fun _ => []) m

/-- A successful run leaves nothing untold and tells of the object. -/
structure Announces (objectId : String) (m : M α) : Prop where
  leaves : LeavesNone m
  tells : ∀ s a s', m s = .ok a s' → s'.envelope.Tells objectId

section Rules
variable {m : M α} {f : α → M β}

theorem leaves_bind (hm : Leaves (fun _ => ids) m) (hf : ∀ a, Leaves (fun _ => ids) (f a)) :
    Leaves (fun _ => ids) (m >>= f) := by
  intro s b s' h
  obtain ⟨a, s₁, hfirst, hsecond⟩ := bind_eq_ok.mp h
  exact (hm _ _ _ hfirst).trans (hf a _ _ _ hsecond)

/-- A registration is followed by the announcement. -/
theorem leaves_settle {g : α → String} (hm : Leaves (fun a => [g a]) m)
    (hf : ∀ a, Announces (g a) (f a)) : LeavesNone (m >>= f) := by
  intro s b s' h
  obtain ⟨a, s₁, hfirst, hsecond⟩ := bind_eq_ok.mp h
  exact ((hm _ _ _ hfirst).trans ((hf a).leaves _ _ _ hsecond).mono).settle
    ((hf a).tells _ _ _ hsecond)

theorem leaves_guarded (hm : LeavesNone m) : LeavesNone (guarded m) :=
  fun _ _ _ h => hm _ _ _ (guarded_eq_ok.mp h).2

theorem leaves_map {γ : Type} {g : α → γ} (hm : LeavesNone m) : LeavesNone (g <$> m) := by
  intro s b s' h
  obtain ⟨a, hrun, -⟩ := map_eq_ok.mp h
  exact hm _ _ _ hrun

/-- The statements that register nothing. -/
def Unregistering (_ : Nat) (w : Write) : Prop := ∀ row, w ≠ .insertRegistry row

/-- A method that registers nothing leaves nothing untold. -/
theorem quiet (h : Keeps (Evolves Unregistering) m) : Leaves (fun _ => ids) m := by
  intro s a s' hm
  have hevolves := h.ok hm
  refine ⟨hevolves.told, fun id hid => .inl ?_⟩
  refine hevolves.rel (R := fun tx tx' => tx'.Registered id → tx.Registered id) (fun _ h => h)
    (fun _ _ _ h h' => h ∘ h') (fun w tx tx' rows hw happly hreg => ?_) hid
  rcases registered_of_step happly hreg with hreg | ⟨row, rfl, -⟩
  · exact hreg
  · exact absurd rfl (hw row)

theorem quiet_of {P : Nat → Write → Prop} (hP : ∀ seq row, ¬ P seq (.insertRegistry row))
    (h : Keeps (Evolves P) m) : Leaves (fun _ => ids) m :=
  quiet (h.mono fun _ _ h => h.mono fun seq _ hw row heq => hP seq row (heq ▸ hw))

theorem leaves_query_bind {q : Envelope → Except KernelError α}
    (hf : ∀ a, Leaves (fun _ => ids) (f a)) : Leaves (fun _ => ids) (query q >>= f) :=
  leaves_bind (quiet (evolves_query q)) hf

theorem leaves_check_bind {r : Except KernelError α} (hf : ∀ a, Leaves (fun _ => ids) (f a)) :
    Leaves (fun _ => ids) (check r >>= f) := leaves_bind (quiet (evolves_check r)) hf

theorem leaves_insertRegistry (row : ObjectRow) :
    Leaves (fun _ => [row.objectId]) (exec (.insertRegistry row)) := by
  intro s n s' h
  refine ⟨((evolves_exec (P := fun _ _ => True) fun _ => trivial).ok h).told, fun id hid => ?_⟩
  obtain ⟨-, tx, happly, rfl⟩ := exec_eq_ok.mp h
  rcases registered_of_step happly hid with hid | ⟨row', heq, rfl⟩
  · exact .inl hid
  · rw [Write.insertRegistry.inj heq]
    exact .inr (.inl (List.mem_singleton_self _))

theorem announces_bind (hm : LeavesNone m) (hf : ∀ a, Announces id (f a)) :
    Announces id (m >>= f) where
  leaves := leaves_bind hm fun a => (hf a).leaves
  tells := by
    intro s b s' h
    obtain ⟨a, s₁, -, hsecond⟩ := bind_eq_ok.mp h
    exact (hf a).tells _ _ _ hsecond

theorem announces_pushChange {change : PendingChange} (hid : change.object.objectId = id) :
    Announces id (pushChange change) where
  leaves := quiet (evolves_pushChange change)
  tells := by
    intro s u s' h
    obtain ⟨-, rfl⟩ := EStateM.Result.ok.inj h
    refine ⟨change.object, ?_, hid⟩
    exact List.mem_map_of_mem (List.mem_append_right _ (List.mem_singleton_self change))

theorem announces_then (hm : Announces id m) (hf : ∀ a, LeavesNone (f a)) :
    Announces id (m >>= f) where
  leaves := leaves_bind hm.leaves hf
  tells := by
    intro s b s' h
    obtain ⟨a, s₁, hfirst, hsecond⟩ := bind_eq_ok.mp h
    exact tells_mono (hf a _ _ _ hsecond).told (hm.tells _ _ _ hfirst)

end Rules

/-! ## Domains -/

section Methods
variable {sys : Platform}

theorem leaves_insertDomainRows (spec : RedactedDomain) :
    Leaves (fun _ => [spec.objectId]) (insertDomainRows spec) :=
  leaves_bind (quiet fun s => refl _ s) fun _ =>
    leaves_bind (quiet (evolves_exec fun _ _ => nofun)) fun _ =>
    leaves_bind (leaves_insertRegistry _) fun _ => quiet (evolves_pure _)

theorem leaves_insertDomainInner (spec : DomainSpec) : LeavesNone (insertDomainInner sys spec) :=
  leaves_check_bind fun _ => leaves_settle (leaves_insertDomainRows _) fun _ =>
    announces_bind (quiet fun s => refl _ s) fun _ => announces_pushChange rfl

theorem quiet_invalidateDomain (objectId : String) :
    Leaves (fun _ => ids) (invalidateDomain objectId) :=
  quiet (evolves_bind (fun s => refl _ s) fun _ => evolves_query_bind fun _ =>
    evolves_require_bind fun _ =>
    evolves_exec_bind (fun _ _ => nofun) fun _ =>
    evolves_exec_bind (fun _ _ => nofun) fun _ =>
    evolves_require_bind fun _ => evolves_pure _)

theorem quiet_setDomainSuccessor (replaced successor : String) :
    Leaves (fun _ => ids) (setDomainSuccessor replaced successor) :=
  quiet (evolves_exec_bind (fun _ _ => nofun) fun _ =>
    evolves_exec_bind (fun _ _ => nofun) fun _ => evolves_require _ _)

theorem leaves_correctDomainInner (replaced : String) (replacement : DomainSpec) :
    LeavesNone (correctDomainInner sys replaced replacement) :=
  leaves_check_bind fun _ => leaves_check_bind fun _ =>
    leaves_bind (quiet_invalidateDomain _) fun _ =>
    leaves_settle (leaves_insertDomainRows _) fun _ =>
    announces_bind (quiet_setDomainSuccessor _ _) fun _ =>
    announces_bind (quiet fun s => refl _ s) fun _ => announces_pushChange rfl

theorem leaves_retireDomainInner (objectId : String) :
    LeavesNone (retireDomainInner sys objectId) :=
  leaves_check_bind fun _ => leaves_bind (quiet_invalidateDomain _) fun _ =>
    quiet (evolves_bind (fun s => refl _ s) fun _ => evolves_pushChange _)

theorem leaves_remediateTextInner (objectId operatorId : String) (remediatedAt : Int) :
    LeavesNone (remediateTextInner sys objectId operatorId remediatedAt) :=
  quiet (evolves_require_bind fun _ => evolves_check_bind fun _ =>
    evolves_check_bind fun _ => evolves_query_bind fun _ =>
    evolves_require_bind fun _ =>
    evolves_exec_bind (fun _ _ => nofun) fun _ =>
    evolves_bind (evolves_ite (evolves_query _) (evolves_pure _)) fun _ =>
    evolves_require_bind fun _ => evolves_pushChange _)

/-! ## Decisions, observations and scopes -/

theorem quiet_recordFields (ownerKind ownerId : String) (fields : List (String × RedactedField)) :
    Leaves (fun _ => ids) (recordFields ownerKind ownerId fields) :=
  quiet (evolves_recordFields (fun _ _ _ => nofun) _ _ _)

theorem quiet_invalidate (table : TypedTable) (objectId : String) :
    Leaves (fun _ => ids) (invalidate table objectId) :=
  quiet (evolves_bind (fun s => refl _ s) fun _ =>
    evolves_exec_bind (fun _ _ => nofun) fun _ =>
    evolves_require_bind fun _ =>
    evolves_exec_bind (fun _ _ => nofun) fun _ => evolves_require _ _)

theorem quiet_setSuccessor (table : TypedTable) (old new : String) :
    Leaves (fun _ => ids) (setSuccessor table old new) :=
  quiet (evolves_exec_bind (fun _ _ => nofun) fun _ =>
    evolves_exec_bind (fun _ _ => nofun) fun _ => evolves_pure _)

theorem AdmissionWrites.unregistering {seq : Nat} {row : ObjectRow} :
    ¬ AdmissionWrites seq (.insertRegistry row) := nofun

theorem quiet_cascadeIfGranted (granted : Bool) (objectId reason : String) :
    Leaves (fun _ => ids) (cascadeIfGranted sys granted objectId reason) := by
  cases granted with
  | true =>
    exact quiet_of (fun _ _ => AdmissionWrites.unregistering)
      (evolves_demoteDependentsIfAuthorityLost _ _)
  | false => exact quiet (evolves_pure _)

theorem leaves_insertDecisionRows (spec : RedactedDecision) :
    Leaves (fun _ => [spec.objectId.text]) (insertDecisionRows spec) :=
  leaves_bind (quiet fun s => refl _ s) fun _ => leaves_query_bind fun _ =>
    leaves_bind (leaves_insertRegistry _) fun _ => leaves_bind (quiet_recordFields _ _ _) fun _ =>
    leaves_bind (quiet (evolves_exec fun _ _ => nofun)) fun _ => quiet_recordFields _ _ _

theorem leaves_insertDecision (spec : DecisionSpec) : LeavesNone (insertDecision sys spec) :=
  leaves_check_bind fun _ => leaves_settle (leaves_insertDecisionRows _) fun _ =>
    announces_bind (quiet fun s => refl _ s) fun _ =>
    announces_then (announces_pushChange rfl) fun _ => quiet (evolves_pure _)

theorem leaves_appendDecisionEvent (decisionId : String) (spec : EventSpec) :
    LeavesNone (appendDecisionEvent sys decisionId spec) :=
  quiet (evolves_check_bind fun _ => evolves_query_bind fun _ =>
    evolves_query_bind fun _ => evolves_query_bind fun _ =>
    evolves_bind (fun s => refl _ s) fun _ =>
    evolves_exec_bind (fun _ _ => nofun) fun _ =>
    evolves_bind (evolves_recordFields (fun _ _ _ => nofun) _ _ _) fun _ =>
    evolves_bind (evolves_pushChange _) fun _ => evolves_pure _)

/-- A survivor is registered already. -/
theorem leaves_replaceDecision (replacement : RedactedDecision)
    (survivor : Option (ObjectRow × String)) :
    Leaves (fun r => [r.1.objectId]) (replaceDecision replacement survivor) := by
  intro s r s' h
  cases survivor with
  | some survivor =>
    obtain ⟨-, rfl⟩ := EStateM.Result.ok.inj h
    exact Registers.refl _ s
  | none =>
    obtain ⟨_, s₁, hrows, h⟩ := bind_eq_ok.mp h
    obtain ⟨rfl, rfl⟩ := EStateM.Result.ok.inj h
    exact leaves_insertDecisionRows replacement _ _ _ hrows

theorem leaves_correctDecision (replaced : String) (replacement : DecisionSpec) :
    LeavesNone (correctDecision sys replaced replacement) :=
  leaves_query_bind fun _ => leaves_query_bind fun _ =>
    leaves_check_bind fun _ => leaves_check_bind fun _ =>
    leaves_query_bind fun _ => leaves_check_bind fun _ =>
    leaves_bind (quiet_invalidate _ _) fun _ => leaves_settle (leaves_replaceDecision _ _) fun _ =>
    announces_bind (quiet_setSuccessor _ _ _) fun _ =>
    announces_then (announces_pushChange rfl) fun _ =>
    leaves_bind (quiet_cascadeIfGranted _ _ _) fun _ => quiet (evolves_pure _)

theorem leaves_insertObservationRows (spec : RedactedObservation) :
    Leaves (fun _ => [spec.objectId.text]) (insertObservationRows spec) :=
  leaves_bind (quiet fun s => refl _ s) fun _ =>
    leaves_query_bind fun _ => leaves_query_bind fun _ =>
    leaves_bind (leaves_insertRegistry _) fun _ => leaves_bind (quiet_recordFields _ _ _) fun _ =>
    leaves_bind (quiet (evolves_exec fun _ _ => nofun)) fun _ =>
    leaves_bind (quiet_recordFields _ _ _) fun _ =>
    quiet (evolves_forM (fun _ => evolves_exec_bind (fun _ _ => nofun) fun _ =>
      evolves_pure _) _)

theorem leaves_insertObservation (spec : ObservationSpec) :
    LeavesNone (insertObservation sys spec) :=
  leaves_check_bind fun _ => leaves_settle (leaves_insertObservationRows _) fun _ =>
    announces_bind (quiet fun s => refl _ s) fun _ =>
    announces_then (announces_pushChange rfl) fun _ => quiet (evolves_pure _)

theorem leaves_correctObservation (replaced : String) (replacement : ObservationSpec) :
    LeavesNone (correctObservation sys replaced replacement) :=
  leaves_query_bind fun _ => leaves_check_bind fun _ =>
    leaves_check_bind fun _ => leaves_bind (quiet_invalidate _ _) fun _ =>
    leaves_settle (leaves_insertObservationRows _) fun _ =>
    announces_bind (quiet_setSuccessor _ _ _) fun _ =>
    announces_bind (quiet fun s => refl _ s) fun _ =>
    announces_then (announces_pushChange rfl) fun _ => quiet (evolves_pure _)

theorem leaves_retireSliceObject (objectId objectKind : String) (table : TypedTable)
    (kind : String) :
    LeavesNone (retireSliceObject sys objectId objectKind table kind) :=
  leaves_query_bind fun _ => leaves_query_bind fun _ => leaves_bind (quiet_invalidate _ _) fun _ =>
    leaves_bind (quiet fun s => refl _ s) fun _ =>
    leaves_bind (quiet (evolves_pushChange _)) fun _ =>
    leaves_bind (quiet_cascadeIfGranted _ _ _) fun _ => quiet (evolves_pure _)

theorem leaves_insertScope (spec : ScopeSpec) : LeavesNone (insertScope sys spec) :=
  leaves_check_bind fun _ => leaves_query_bind fun _ =>
    leaves_bind (quiet fun s => refl _ s) fun _ => leaves_settle (leaves_insertRegistry _) fun _ =>
    announces_bind (quiet_recordFields _ _ _) fun _ =>
    announces_bind (quiet (evolves_exec fun _ _ => nofun)) fun _ =>
    announces_bind (quiet (evolves_forM (fun _ => evolves_exec_bind (fun _ _ => nofun)
      fun _ => evolves_pure _) _)) fun _ =>
    announces_bind (quiet_recordFields _ _ _) fun _ =>
    announces_then (announces_pushChange rfl) fun _ => quiet (evolves_pure _)

/-! ## Admissions, successions and revocations -/

theorem quiet_admission {m : M α} (h : Keeps (Evolves AdmissionWrites) m) :
    Leaves (fun _ => ids) m :=
  quiet_of (fun _ _ => AdmissionWrites.unregistering) h

theorem leaves_admitDomainCandidateInner (request : AdmissionRequest)
    (domain : AdmissionDomainSpec) :
    LeavesNone (admitDomainCandidateInner sys request domain) := by
  refine leaves_bind (quiet (evolves_require _ _)) fun _ =>
    leaves_bind (quiet (evolves_queryAt _)) fun prepared => leaves_check_bind fun _ => ?_
  cases prepared.promotes with
  | true =>
    exact leaves_bind (quiet (evolves_require _ _)) fun _ =>
      leaves_bind (quiet fun s => refl _ s) fun _ =>
      leaves_bind (leaves_guarded (leaves_insertDomainInner _)) fun _ =>
      quiet_admission (evolves_writeAdmission _ _)
  | false =>
    exact quiet_admission (evolves_withAuthorityCascade (fun _ _ => id) _ _ _
      (evolves_writeAdmission _ _))

theorem leaves_supersedeDomainInner (request : AdmissionRequest)
    (replacement : AdmissionDomainSpec) :
    LeavesNone (supersedeDomainInner sys request replacement) :=
  leaves_bind (quiet (evolves_queryAt _)) fun _ => leaves_check_bind fun _ =>
    leaves_query_bind fun _ => leaves_bind (leaves_guarded (leaves_correctDomainInner _ _)) fun _ =>
    quiet_admission (evolves_bind (evolves_publishAsReplace _) fun _ =>
      evolves_withAuthorityCascade (fun _ _ => id) _ _ _ (evolves_writeAdmission _ _))

theorem leaves_supersedeDecisionInner (replaced : String) (replacement : DecisionSpec) :
    LeavesNone (supersedeDecisionInner sys replaced replacement) :=
  leaves_query_bind fun _ => leaves_query_bind fun _ =>
    leaves_query_bind fun _ => leaves_correctDecision _ _

theorem leaves_revokeApprovalInner (approval reason : String) :
    LeavesNone (revokeApprovalInner sys approval reason) :=
  leaves_bind (quiet (evolves_require _ _)) fun _ => leaves_check_bind fun _ =>
    leaves_query_bind fun _ => leaves_bind (quiet_invalidate _ _) fun _ =>
    quiet_admission (evolves_check_bind fun _ =>
      evolves_bind (fun s => refl _ s) fun _ =>
      evolves_bind (fun s => refl _ s) fun _ =>
      evolves_bind (evolves_pushChange _) fun _ =>
      evolves_bind (evolves_demoteAuthorityDependents _ _) fun _ =>
      evolves_bind (evolves_update (fun _ => rfl) fun env _ h =>
        (map_object_modify (f := amendRevocation _ _) (fun _ => rfl) _ env.changes).symm.subst h)
        fun _ => evolves_pure _)

/-! ## Consumers and artifacts -/

theorem quiet_control {m : M α} (h : Keeps (Evolves ControlWrites) m) : LeavesNone m :=
  quiet_of (fun _ _ => nofun) h

theorem leaves_insertReference (a : PreparedArtifact) : LeavesNone (insertReference sys a) := by
  refine leaves_bind (quiet fun s => refl _ s) fun _ => leaves_query_bind fun _ => ?_
  refine leaves_bind (quiet (evolves_query_bind fun _ =>
    evolves_execIo_bind (fun _ _ => nofun) fun _ => evolves_pure _)) fun _ => ?_
  refine leaves_check_bind fun _ => leaves_check_bind fun _ => leaves_check_bind fun _ =>
    leaves_check_bind fun _ => leaves_check_bind fun _ => leaves_check_bind fun _ => ?_
  exact leaves_settle (leaves_insertRegistry _) fun _ =>
    announces_bind (quiet (evolves_exec fun _ _ => nofun)) fun _ =>
    announces_bind (quiet (evolves_record (fun _ _ _ => nofun) _ _ _ _)) fun _ =>
    announces_bind (quiet (evolves_record (fun _ _ _ => nofun) _ _ _ _)) fun _ =>
    announces_bind (quiet (evolves_record (fun _ _ _ => nofun) _ _ _ _)) fun _ =>
    announces_bind (quiet (evolves_execIo fun _ _ => nofun)) fun _ =>
    announces_bind (quiet (evolves_require _ _)) fun _ =>
    announces_then (announces_pushChange rfl) fun _ => quiet (evolves_pure _)

theorem leaves_deleteArtifact (d : ArtifactDeletion) : LeavesNone (deleteArtifact d) :=
  leaves_bind (quiet fun s => refl _ s) fun _ => leaves_query_bind fun _ =>
    leaves_bind (quiet (evolves_forM (fun _ =>
      evolves_execIo_bind (fun _ _ => nofun) fun _ =>
      evolves_execIo_bind (fun _ _ => nofun) fun _ => evolves_pure _) _)) fun _ =>
    leaves_bind (quiet (evolves_bind (fun s => refl _ s) fun _ =>
      evolves_execIo_bind (fun _ _ => nofun) fun _ =>
      evolves_execIo_bind (fun _ _ => nofun) fun _ =>
      evolves_execIo_bind (fun _ _ => nofun) fun _ => evolves_pure _)) fun _ =>
    leaves_bind (quiet_of (fun _ _ => nofun) (evolves_purgeRows _)) fun _ =>
    quiet (evolves_forM (fun _ => evolves_pushChange _) _)

/-! ## Calls -/

/-- **A call that succeeds** leaves no object registered and untold. -/
theorem leaves_call (c : Call) : LeavesNone (c.run sys) := by
  cases c with
  | insertDomain => exact leaves_map (leaves_guarded (leaves_insertDomainInner _))
  | correctDomain => exact leaves_map (leaves_guarded (leaves_correctDomainInner _ _))
  | retireDomain => exact leaves_map (leaves_guarded (leaves_retireDomainInner _))
  | remediateText => exact leaves_map (leaves_guarded (leaves_remediateTextInner _ _ _))
  | insertScope => exact leaves_map (leaves_insertScope _)
  | insertDecision => exact leaves_map (leaves_insertDecision _)
  | insertObservation => exact leaves_map (leaves_insertObservation _)
  | appendDecisionEvent => exact leaves_map (leaves_appendDecisionEvent _ _)
  | correctDecision => exact leaves_map (leaves_correctDecision _ _)
  | correctObservation => exact leaves_map (leaves_correctObservation _ _)
  | retireDecision => exact leaves_map (leaves_retireSliceObject _ _ _ _)
  | retireObservation => exact leaves_map (leaves_retireSliceObject _ _ _ _)
  | recordAdmission =>
    exact leaves_map (leaves_guarded (quiet_admission (evolves_recordAdmissionInner _)))
  | admitDomainCandidate =>
    exact leaves_map (leaves_guarded (leaves_admitDomainCandidateInner _ _))
  | supersedeDomain => exact leaves_map (leaves_guarded (leaves_supersedeDomainInner _ _))
  | supersedeDecision => exact leaves_map (leaves_guarded (leaves_supersedeDecisionInner _ _))
  | revokeApproval => exact leaves_map (leaves_guarded (leaves_revokeApprovalInner _ _))
  | registerOutboxConsumer =>
    exact leaves_map (leaves_guarded (quiet_control (evolves_registerOutboxConsumerInner _ _)))
  | deregisterOutboxConsumer =>
    exact leaves_map (leaves_guarded (quiet_control (evolves_deregisterOutboxConsumerInner _ _)))
  | abandonOutboxConsumer =>
    exact leaves_map (leaves_guarded (quiet_control (evolves_abandonOutboxConsumerInner _ _ _)))
  | abandonDeletionBarrier =>
    exact leaves_map (leaves_guarded (quiet_control (evolves_abandonDeletionBarrierInner _ _ _ _)))
  | insertReference => exact leaves_map (leaves_insertReference _)
  | deleteArtifact => exact leaves_map (leaves_deleteArtifact _)

end Methods

end MagicContext.Kernel
