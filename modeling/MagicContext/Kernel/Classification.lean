import MagicContext.Kernel.Clearing
import MagicContext.Kernel.Ingest

/-!
# Classes of artifacts

The references to one digest share a class.  Sensitivity and egress are ordered by strictness, an
evidence row is a labelled copy of its digest, and what the transactions of the store do to the rows
is what `Labelled` has rules for: a new reference raises the live ones and comes with the same
class, a deletion ends lifetimes, and nothing else touches them.

## What is here

* The order of the classes, with `restrictive` as its join.
* `evidenceClass` — evidence rows as labelled copies.
* `Referenced` — what a new reference does to the rows.
* `reference_case` and `fades_of_issued` — what the commit of an ingest does, and that every other
  one at most ends lifetimes.
-/

namespace MagicContext.Kernel

open Transaction Labelled.Fades

/-! ## The order of the classes -/

instance : SemilatticeSup Sensitivity :=
  letI : Max Sensitivity := ⟨Sensitivity.restrictive⟩
  SemilatticeSup.mk' (by rintro ⟨⟩ ⟨⟩ <;> rfl) (by rintro ⟨⟩ ⟨⟩ ⟨⟩ <;> rfl) (by rintro ⟨⟩ <;> rfl)

instance : SemilatticeSup ProviderEgress :=
  letI : Max ProviderEgress := ⟨ProviderEgress.restrictive⟩
  SemilatticeSup.mk' (by rintro ⟨⟩ ⟨⟩ <;> rfl) (by rintro ⟨⟩ ⟨⟩ ⟨⟩ <;> rfl) (by rintro ⟨⟩ <;> rfl)

/-- How strictly bytes must be handled. -/
abbrev ArtifactClass := Sensitivity × ProviderEgress

/-- The class that restricts nothing. -/
def leastClass : ArtifactClass := (.normal, .remoteAllowed)

theorem leastClass_le (c : ArtifactClass) : leastClass ≤ c := by
  rcases c with ⟨⟨⟩, ⟨⟩⟩ <;> exact ⟨rfl, rfl⟩

/-! ## Evidence rows -/

/-- Evidence rows are copies of their digests, labelled with their classes. -/
def evidenceClass : Labelled EvidenceRow String ArtifactClass where
  key := EvidenceRow.artifactDigest
  live r := r.live
  label r := (r.sensitivity, r.providerEgress)
  relabel l r := { r with sensitivity := l.1, providerEgress := l.2 }
  key_relabel _ _ := rfl
  live_relabel _ _ := rfl
  label_relabel _ _ := rfl

theorem mergedClassification_eq (db : Db) (digest : String) (s : Sensitivity) (e : ProviderEgress) :
    mergedClassification db digest s e = evidenceClass.join digest (s, e) db.evidence.rows := by
  rw [mergedClassification, Table.select, Labelled.join]
  congr 1

/-- **Writing a class to the live references** raises them. -/
theorem rows_update_class (db : Db) (digest : String) (s : Sensitivity) (e : ProviderEgress)
    (hkey : ∀ r : EvidenceRow, ({ r with sensitivity := s, providerEgress := e } :
      EvidenceRow).evidenceId = r.evidenceId) :
    (db.evidence.update (fun r => r.artifactDigest == digest && r.live)
      (fun r => { r with sensitivity := s, providerEgress := e }) hkey).rows =
      evidenceClass.raise digest (s, e) db.evidence.rows := by
  refine List.map_congr_left fun r _ => ?_
  simp only [Bool.and_eq_true, beq_iff_eq]
  rfl

/-! ## Statements that write no class -/

/-- The statement gives a row a class. -/
def Write.classifies : Write → Bool
  | .insertEvidence _ | .classifyEvidence .. => true
  | _ => false

/-- The references are as before, but for those that were ended. -/
def FadesTo (s s' : Session) : Prop :=
  evidenceClass.Fades s.envelope.tx.evidence.rows s'.envelope.tx.evidence.rows

theorem evidence_of_changesOnly {db db' : Db} {t : TableName} (h : db.ChangesOnly t db')
    (ht : t ≠ .evidence) : db'.evidence = db.evidence := by
  cases h <;> first | rfl | exact absurd rfl ht

theorem fades_update (t : Table EvidenceRow.evidenceId) (hit : EvidenceRow → Bool)
    (f : EvidenceRow → EvidenceRow) (hkey : ∀ r, (f r).evidenceId = r.evidenceId)
    (hdigest : ∀ r, evidenceClass.key (f r) = evidenceClass.key r)
    (hclass : ∀ r, evidenceClass.label (f r) = evidenceClass.label r)
    (hlive : ∀ r, evidenceClass.live (f r) = true → evidenceClass.live r = true) :
    evidenceClass.Fades t.rows (t.update hit f hkey).rows := by
  refine of_map (fun r => ?_) (fun r => ?_) (fun r => ?_) _
  · split
    · exact hdigest r
    · rfl
  · split
    · exact hclass r
    · rfl
  · split
    · exact hlive r
    · exact id

/-- **A statement that gives no class** at most ends references. -/
theorem fades_of_apply {w : Write} (hw : w.classifies = false) {db db' : Db} {rows : Nat}
    (h : w.apply db = .ok (db', rows)) :
    evidenceClass.Fades db.evidence.rows db'.evidence.rows := by
  by_cases ht : w.target = .evidence
  · cases w with
    | insertEvidence | classifyEvidence => cases hw
    | invalidateTyped table objectId seq =>
      cases table with
      | evidence =>
        obtain ⟨⟨t, n⟩, hrows, heq⟩ := Checks.bind_eq_ok.mp h
        cases heq
        unfold invalidateRows at hrows
        split at hrows
        · cases hrows
        · cases hrows
          exact fades_update db.evidence (liveRow (ofObject objectId)) (endLife seq) (fun _ => rfl)
            (fun _ => rfl) (fun _ => rfl) fun _ hlive => Bool.noConfusion hlive
      | domains | decisions | observations => cases ht
    | succeedTyped table objectId successor =>
      cases table with
      | evidence =>
        cases h
        exact fades_update db.evidence (ofObject objectId) (succeed successor) (fun _ => rfl)
          (fun _ => rfl) (fun _ => rfl) fun _ hlive => hlive
      | domains | decisions | observations => cases ht
    | _ => cases ht
  · rw [evidence_of_changesOnly (Write.apply_changesOnly h) ht]
    exact refl _

theorem fadesTo_of_attempts {P : Nat → Write → Prop} {s s' : Session} (h : Attempts P s s')
    (hP : ∀ seq w, P seq w → w.classifies = false) : FadesTo s s' :=
  h.rel (R := fun tx tx' => evidenceClass.Fades tx.evidence.rows tx'.evidence.rows)
    (fun _ => refl _) (fun _ _ _ h h' => h.trans h')
    fun w _ _ _ hw happly => fades_of_apply (hP _ w hw) happly

/-! ## Calls that write no class -/

variable {sys : Platform}

/-- Statements that give no class. -/
def Unclassified (_ : Nat) (w : Write) : Prop := w.classifies = false

theorem unclassified_deleteArtifact (d : ArtifactDeletion) :
    Keeps (Evolves Unclassified) (deleteArtifact d) := by
  have hbarrier : Keeps (Evolves Unclassified) (upsertBarrier d) :=
    evolves_commitSeq_bind fun _ => evolves_execIo_bind (fun _ _ => rfl) fun _ =>
      evolves_execIo_bind (fun _ _ => rfl) fun _ =>
      evolves_execIo_bind (fun _ _ => rfl) fun _ => evolves_pure _
  have hpurge := (evolves_purgeRows d).mono fun _ _ h => h.mono (Q := Unclassified) fun _ _ hw => by
    cases hw <;> rfl
  have hends : ∀ (seq : Nat) (r : EvidenceRow), Keeps (Evolves Unclassified) (do
      let _ ← execIo (.invalidateTyped .evidence r.objectId seq)
      let _ ← execIo (.invalidateRegistry r.objectId none seq)) := fun _ _ =>
    evolves_execIo_bind (fun _ => rfl) fun _ =>
      evolves_execIo_bind (fun _ => rfl) fun _ => evolves_pure _
  exact evolves_bind (fun s => Evolves.refl _ s) fun seq => evolves_query_bind fun _ =>
    evolves_bind (evolves_forM (hends seq) _) fun _ =>
    evolves_bind hbarrier fun _ => evolves_bind hpurge fun _ =>
    evolves_forM (fun _ => evolves_pushChange _) _

theorem unclassified_slice {seq : Nat} {w : Write} (h : SliceWrites seq w) :
    w.classifies = false := by
  cases h with
  | admission w hw => cases hw <;> rfl
  | _ => rfl

theorem unclassified_domain {seq : Nat} {w : Write} (h : DomainWrites seq w) :
    w.classifies = false := by
  cases h <;> rfl

/-- **A call that is not an ingest** gives no class. -/
theorem fadesTo_call {c : Call} (h : ∀ a, c ≠ .insertReference a) (s : Session) :
    FadesTo s (final (c.run sys) s) := by
  have hattempts := @attempts_call sys c s
  cases c with
  | insertReference a => exact absurd rfl (h a)
  | deleteArtifact d =>
    exact fadesTo_of_attempts (evolves_map _ (unclassified_deleteArtifact d) s).toAttempts
      fun _ _ hw => hw
  | insertDomain | correctDomain | retireDomain | remediateText =>
    exact fadesTo_of_attempts hattempts fun _ _ hw => unclassified_domain hw
  | recordAdmission | admitDomainCandidate | supersedeDomain =>
    refine fadesTo_of_attempts hattempts fun _ _ hw => ?_
    cases hw with
    | domain hw => exact unclassified_domain hw
    | slice hw => exact unclassified_slice hw
  | registerOutboxConsumer | deregisterOutboxConsumer | abandonOutboxConsumer
  | abandonDeletionBarrier =>
    exact fadesTo_of_attempts hattempts fun _ _ hw => by cases hw <;> rfl
  | _ => exact fadesTo_of_attempts hattempts fun _ _ hw => unclassified_slice hw

/-- An operation without ingests gives no class. -/
theorem fadesTo_operation {operation : Operation} {s : Session}
    (h : ∀ k ∈ operation.calls sys s, ∀ a, k.call ≠ .insertReference a) :
    FadesTo s (final (operation.run sys) s) :=
  calls_rel (R := FadesTo) (fun _ => refl _) (fun _ _ _ h h' => h.trans h')
    operation s fun k hk => fadesTo_call (h k hk) k.before

/-! ## References -/

/-- What a new reference does to the rows: the live references to its digest rise, and it comes with
their class. -/
def Referenced (a : PreparedArtifact) (rows rows' : List EvidenceRow) : Prop :=
  let joined := evidenceClass.join a.digest (a.sensitivity, a.providerEgress) rows
  ∃ row, rows' = evidenceClass.raise a.digest joined rows ++ [row] ∧
    evidenceClass.key row = a.digest ∧ evidenceClass.live row = true ∧
    evidenceClass.label row = joined

/-- Statements about other tables. -/
def OffEvidence (_ : Nat) (w : Write) : Prop := w.target ≠ .evidence

theorem evidence_of_evolves {s s' : Session} (h : Evolves OffEvidence s s') :
    s'.envelope.tx.evidence = s.envelope.tx.evidence :=
  h.agree Db.evidence fun _ _ _ hw hdb => evidence_of_changesOnly hdb hw

theorem mergeStoredClassification_eq_ok {digest : String} {c : Sensitivity} {e : ProviderEgress}
    {s s' : Session} {merged : ArtifactClass}
    (h : mergeStoredClassification digest c e s = .ok merged s') :
    merged = evidenceClass.join digest (c, e) s.envelope.tx.evidence.rows ∧
      s'.envelope.tx.evidence.rows =
        evidenceClass.raise digest merged s.envelope.tx.evidence.rows := by
  obtain ⟨m, hmerged, h⟩ := query_bind_eq_ok h
  obtain ⟨n, s₂, hclassify, h⟩ := bind_eq_ok.mp h
  obtain ⟨-, tx, happly, rfl⟩ := exec_eq_ok.mp (execIo_eq_ok.mp hclassify)
  cases happly
  obtain ⟨rfl, rfl⟩ := EStateM.Result.ok.inj h
  refine ⟨?_, rows_update_class _ _ _ _ fun _ => rfl⟩
  rw [← Except.ok.inj hmerged, mergedClassification_eq]

/-- **An ingest that succeeds** adds its reference. -/
theorem insertReference_eq_ok {a : PreparedArtifact} {s s' : Session} {reply : Reply}
    (h : (Call.insertReference a).run sys s = .ok reply s') :
    Referenced a s.envelope.tx.evidence.rows s'.envelope.tx.evidence.rows := by
  obtain ⟨evidenceId, h, -⟩ := map_eq_ok.mp h
  rw [insertReference, commitSeq_bind] at h
  obtain ⟨_, -, h⟩ := query_bind_eq_ok h
  obtain ⟨⟨sensitivity, egress⟩, s₃, hmerge, h⟩ := bind_eq_ok.mp h
  obtain ⟨hmerged, hrows⟩ := mergeStoredClassification_eq_ok hmerge
  obtain ⟨evidenceId, -, h⟩ := check_bind_eq_ok.mp h
  obtain ⟨objectId, -, h⟩ := check_bind_eq_ok.mp h
  obtain ⟨objectKind, -, h⟩ := check_bind_eq_ok.mp h
  obtain ⟨domainId, -, h⟩ := check_bind_eq_ok.mp h
  obtain ⟨sourceKind, -, h⟩ := check_bind_eq_ok.mp h
  obtain ⟨sourceId, -, h⟩ := check_bind_eq_ok.mp h
  obtain ⟨_, s₄, hregistry, h⟩ := bind_eq_ok.mp h
  have hregistered := evidence_of_evolves ((evolves_exec fun _ h => nomatch h).ok hregistry)
  obtain ⟨tx, _, happly, h⟩ := exec_bind_eq_ok h
  obtain ⟨t, hinsert, heq⟩ := Checks.bind_eq_ok.mp happly
  cases heq
  have hrest := evidence_of_evolves ((evolves_bind
    (evolves_record (fun _ _ h => nomatch h) _ _ _ _) fun _ =>
    evolves_bind (evolves_record (fun _ _ h => nomatch h) _ _ _ _) fun _ =>
    evolves_bind (evolves_record (fun _ _ h => nomatch h) _ _ _ _) fun _ =>
    evolves_execIo_bind (fun _ h => nomatch h) fun _ => evolves_require_bind fun _ =>
    evolves_bind (evolves_pushChange _) fun _ => evolves_pure _).ok h)
  have hrows' := insertRow_rows hinsert
  rw [hregistered, hrows, hmerged] at hrows'
  exact ⟨_, (congrArg Table.rows hrest).trans hrows', rfl, rfl, hmerged⟩

/-! ## Commits -/

/-- The references that a projection is built from are the same in another projection. -/
theorem SameButProjection.evidence {db db' : Db} (h : SameButProjection db db') :
    db'.evidence = db.evidence := by
  have hsame : db'.withoutProjection = db.withoutProjection := h
  exact (congrArg Db.evidence hsame :)

/-- Only the operation of a commit reaches the references. -/
theorem evidence_of_applied {call : CommitCall} {db : Db} {intent : RedactedIntent}
    {recordedAt : Int} {s s₁ s₂ : Session} {result : String} {receipt : CommitReceipt}
    (hopened : call.opened sys db = some (intent, recordedAt, s))
    (hpublish : publish sys intent (intent.operationIdentity sys) recordedAt
      call.afterEvents result s₁ = .ok receipt s₂) :
    s.envelope.tx.evidence = db.evidence ∧ s₂.envelope.tx.evidence = s₁.envelope.tx.evidence :=
  ⟨(opened_eq_some hopened).1.frame Db.evidence fun _ _ _ => rfl,
    publish_frame Db.evidence (fun _ _ _ hdb ht => by cases hdb <;> trivial) hpublish⟩

/-- What the commit of an ingest leaves of the references. -/
inductive ReferenceCase (a : PreparedArtifact) (db : Db) :
    Except KernelError CommitReceipt → Db → Prop
  | failed (e : KernelError) : ReferenceCase a db (.error e) db
  | replayed (receipt : CommitReceipt) (after : Db) (hreplayed : receipt.replayed = true)
      (hsame : after.evidence = db.evidence) : ReferenceCase a db (.ok receipt) after
  | referenced (receipt : CommitReceipt) (after : Db) (hfresh : receipt.replayed = false)
      (hreferenced : Referenced a db.evidence.rows after.evidence.rows) :
      ReferenceCase a db (.ok receipt) after

/-- **The commit of an ingest** fails, is a retry, or adds the reference. -/
theorem reference_case {call : CommitCall} {a : PreparedArtifact} {f : Reply → String}
    (hoperation : call.operation = bodyOperation (.insertReference a) f) (db : Db) :
    ReferenceCase a db (call.run sys db).1 (call.run sys db).2 := by
  have hphases := commit_phases sys call db
  generalize (call.run sys db).1 = result at hphases ⊢
  generalize (call.run sys db).2 = after at hphases ⊢
  cases hphases with
  | failed e => exact .failed e
  | replayed receipt _ hreplayed hsame => exact .replayed _ _ hreplayed hsame.evidence
  | applied intent recordedAt s s₁ s₂ result receipt hfresh hopened hrun hpublish =>
    obtain ⟨hbefore, hafter⟩ := evidence_of_applied hopened hpublish
    rw [hoperation] at hrun
    obtain ⟨reply, hbody⟩ := bodyOperation_eq_ok hrun
    refine .referenced _ _ hfresh ?_
    rw [hafter, ← hbefore]
    exact insertReference_eq_ok hbody

/-- **Every other commit of the program** at most ends references. -/
theorem fades_of_issued {call : CommitCall} {db : Db} (h : call.Issued db)
    (hingest : ∀ a f, call.operation ≠ bodyOperation (.insertReference a) f) :
    evidenceClass.Fades db.evidence.rows (call.run sys db).2.evidence.rows := by
  have hphases := commit_phases sys call db
  generalize (call.run sys db).1 = result at hphases
  generalize (call.run sys db).2 = after at hphases ⊢
  cases hphases with
  | failed e => exact refl _
  | replayed receipt _ hreplayed hsame =>
    rw [hsame.evidence]
    exact refl _
  | applied intent recordedAt s s₁ s₂ result receipt hfresh hopened hrun hpublish =>
    obtain ⟨hbefore, hafter⟩ := evidence_of_applied hopened hpublish
    have hnone : ∀ k ∈ call.operation.calls sys s, ∀ a, k.call ≠ .insertReference a := by
      intro k hk a hcall
      cases h with
      | closure hpublic =>
        have hk := hpublic.calls hk
        rw [hcall] at hk
        cases hk
      | ingest a' f hoperation => exact hingest a' f hoperation
      | deletion d f unique hbarrier hoperation =>
        rw [hoperation, calls_bodyOperation] at hk
        rw [List.mem_singleton.mp hk] at hcall
        cases hcall
    have hfades := fadesTo_operation hnone
    rw [final_of_ok hrun, FadesTo, hbefore] at hfades
    rw [hafter]
    exact hfades

end MagicContext.Kernel
