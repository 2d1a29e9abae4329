import MagicContext.Kernel.Classification

/-!
# Classes over runs

Artifacts are ingested, deleted and purged in any order, and ingests are retried.  The live
references to a digest always have one class.  It is at least as strict as every ingest of the
digest that was accepted, unless a retry was accepted while no reference was live: a retry writes
its class to the live references only, so a class that no row had yet is lost.

## What is here

* `ArtifactEvent` and `Cas` — what happens to the store, and what has been accepted.
* `Forgets` — the retries whose class is lost.
* `Fits` — the invariant, and `artifact_classes` about runs.
-/

namespace MagicContext.Kernel

variable (sys : Platform) (scanner : PayloadScanner)

/-! ## Classes that are accepted -/

namespace ArtifactIngestRequest

variable (request : ArtifactIngestRequest)

/-- What inspection, detection and provenance imply for a payload. -/
def impliedSensitivity (scanned : Scanned) : Sensitivity :=
  (if !scanned.detections.isEmpty || request.metadataDetected sys then .secret else .normal) ⊔
    (if scanned.inspected then .normal else .sensitive) ⊔
    (if request.affirmativeProvenance then .normal else .sensitive)

/-- The class of an ingest is what was asserted, joined with what is implied. -/
theorem sensitivity_eq (scanned : Scanned) : request.sensitivity sys scanned =
    request.assertedSensitivity ⊔ request.impliedSensitivity sys scanned := by
  rw [sensitivity, impliedSensitivity]
  rcases (!scanned.detections.isEmpty || request.metadataDetected sys) with _ | _ <;>
    rcases scanned.inspected with _ | _ <;> rcases request.affirmativeProvenance with _ | _ <;>
    rcases request.assertedSensitivity with _ | _ | _ <;> rfl

/-- The class an ingest stands for. -/
def effectiveClass : ArtifactClass :=
  match scanPayload scanner request.payload with
  | .ok scanned => (request.assertedSensitivity ⊔ request.impliedSensitivity sys scanned,
      request.providerEgress)
  | .error _ => (request.assertedSensitivity, request.providerEgress)

end ArtifactIngestRequest

theorem class_of_new {request : ArtifactIngestRequest} {unique : String} {a : PreparedArtifact}
    (h : PreparedArtifact.new sys scanner request unique = .ok a) :
    (a.sensitivity, a.providerEgress) = request.effectiveClass sys scanner := by
  obtain ⟨_, -, h⟩ := Checks.bind_eq_ok.mp h
  obtain ⟨scanned, hscanned, h⟩ := Checks.bind_eq_ok.mp h
  rw [ArtifactIngestRequest.effectiveClass, hscanned]
  split at h
  · cases h
  · cases h
    rw [request.sensitivity_eq sys scanned]

/-! ## Runs -/

/-- An ingest, or another transaction of the writer. -/
inductive ArtifactEvent where
  | ingest (leaseEpoch : Nat) (request : ArtifactIngestRequest) (answers : IngestAnswers)
  | transaction (a : Action)

/-- The store, and the digests and classes of the ingests that were accepted. -/
structure Cas where
  db : Db := .fresh
  accepted : List (String × ArtifactClass) := []

/-- What an ingest adds to the accepted ones. -/
def acceptedClass (request : ArtifactIngestRequest) :
    Except ArtifactErrorKind ArtifactHandle → List (String × ArtifactClass)
  | .ok handle => [(handle.digest, request.effectiveClass sys scanner)]
  | .error _ => []

def Cas.step (s : Cas) : ArtifactEvent → Cas
  | .ingest leaseEpoch request answers =>
    let (result, db) := ingestArtifact sys scanner leaseEpoch request answers s.db
    { db := db, accepted := acceptedClass sys scanner request result ++ s.accepted }
  | .transaction a => { s with db := a.run sys s.db }

def Cas.run (s : Cas) (events : List ArtifactEvent) : Cas :=
  events.foldl (Cas.step sys scanner) s

/-- A commit is one the program makes. -/
def ArtifactEvent.Issued (db : Db) : ArtifactEvent → Prop
  | .transaction (.commit call) => call.Issued db
  | _ => True

/-! ## Retries whose class is lost -/

/-- Nothing outside the database stands in the way of an ingest. -/
def IngestAnswers.calm (answers : IngestAnswers) : Bool :=
  !answers.closed && answers.staged.toBool && answers.published.toBool &&
    (answers.commit.headD {}).fault.isNone && answers.read && answers.merged

/-- The intent has a receipt for a reference to the digest. -/
def retries (intent : CommitIntent) (digest : String) (db : Db) : Bool :=
  (findReceipt intent.producer intent.operationKey db).any fun receipt =>
    receipt.requestDigest == intent.requestDigest &&
      committedDigest receipt.resultPayload db == some digest

/-- The strictest class any reference to the digest has, or had when it ended. -/
def storedClass (digest : String) (db : Db) : ArtifactClass :=
  mergedClassification db digest .normal .remoteAllowed

/-- The retry of an ingest, while no reference to its digest is live, with a class that is stricter
than the references had. -/
def Forgets (leaseEpoch : Nat) (request : ArtifactIngestRequest) (answers : IngestAnswers)
    (db : Db) : Prop :=
  ∃ a, PreparedArtifact.new sys scanner request answers.unique = .ok a ∧
    answers.calm = true ∧ (reserve leaseEpoch a answers db).toBool = true ∧
    retries request.intent a.digest db = true ∧
    (∀ r ∈ db.evidence, r.artifactDigest = a.digest → r.live = false) ∧
    ¬ request.effectiveClass sys scanner ≤ storedClass a.digest db

/-- The event is no such retry. -/
def ArtifactEvent.Remembers (db : Db) : ArtifactEvent → Prop
  | .ingest leaseEpoch request answers =>
    ¬ Forgets sys scanner leaseEpoch request answers db
  | .transaction _ => True

/-- What holds of the events of a run, each in the state it finds. -/
def Along (P : ArtifactEvent → Db → Prop) : List ArtifactEvent → Cas → Prop
  | [], _ => True
  | event :: rest, s => P event s.db ∧ Along P rest (s.step sys scanner event)

variable {sys scanner} in
theorem along_append {P : ArtifactEvent → Db → Prop} {rest : List ArtifactEvent} :
    ∀ {events : List ArtifactEvent} {s : Cas}, Along sys scanner P events s →
      Along sys scanner P rest (s.run sys scanner events) → Along sys scanner P (events ++ rest) s
  | [], _, _, h => h
  | _ :: _, _, hs, h => ⟨hs.1, along_append hs.2 h⟩

/-! ## The claim -/

/-- **Classes never weaken.**  The live references to a digest have one class, which is at least as
strict as every ingest of the digest that was accepted. -/
def ArtifactClasses (s : Cas) : Prop :=
  (∀ r ∈ s.db.evidence, ∀ r' ∈ s.db.evidence, r.live = true → r'.live = true →
    r.artifactDigest = r'.artifactDigest →
      r.sensitivity = r'.sensitivity ∧ r.providerEgress = r'.providerEgress) ∧
  ∀ digest c, (digest, c) ∈ s.accepted → ∀ r ∈ s.db.evidence, r.artifactDigest = digest →
    r.live = true → c ≤ (r.sensitivity, r.providerEgress)

/-- The live references are level, and the accepted classes are known. -/
structure Cas.Fits (s : Cas) : Prop where
  level : evidenceClass.Level s.db.evidence.rows
  known : ∀ digest c, (digest, c) ∈ s.accepted → evidenceClass.Known digest c s.db.evidence.rows

theorem Cas.Fits.classes {s : Cas} (h : s.Fits) : ArtifactClasses s := by
  refine ⟨fun r hr r' hr' hlive hlive' hdigest => ?_, fun digest c hc r hr hdigest hlive => ?_⟩
  · exact Prod.mk.inj (h.level.eq hr hr' hlive hlive' hdigest)
  · exact h.level.le_of_known (hdigest ▸ h.known digest c hc :) hr hlive

/-! ## What an ingest does -/

variable {sys scanner} {leaseEpoch : Nat} {request : ArtifactIngestRequest}
  {a : PreparedArtifact} {answers : IngestAnswers} {db : Db}

theorem reserve_eq_ok {reserved : Db} (h : reserve leaseEpoch a answers db = .ok reserved) :
    ∃ reservations, reserved = { db with reservations := reservations } := by
  unfold reserve at h
  split at h
  · cases h
  · split at h
    · cases h
    · split at h
      · cases h
      · split at h
        · cases h
        · split at h
          · cases h
          · cases h
            exact ⟨_, rfl⟩

theorem evidence_releaseReservation :
    (releaseReservation leaseEpoch a answers db).evidence = db.evidence := by
  rw [releaseReservation]
  split <;> rfl

/-- A commit that goes through met no fault at its start. -/
theorem fault_of_run_ok {call : CommitCall} {receipt : CommitReceipt}
    (h : (call.run sys db).1 = .ok receipt) : (call.answers.headD {}).fault = none := by
  rw [CommitCall.run, commit] at h
  split at h
  · cases h
  · rw [commitPrepared] at h
    split at h
    · cases h
    · rename_i hfault
      cases hanswer : call.answers.headD {} with
      | mk fault now =>
        cases fault with
        | none => rfl
        | some fault => exact absurd hanswer (hfault fault now)

/-- What an ingest returns, and what it leaves of the references. -/
inductive IngestCase (sys : Platform) (scanner : PayloadScanner) (leaseEpoch : Nat)
    (request : ArtifactIngestRequest) (answers : IngestAnswers) (db : Db) :
    Except ArtifactErrorKind ArtifactHandle → Db → Prop
  | refused (e : ArtifactErrorKind) (after : Db) (hsame : after.evidence = db.evidence) :
      IngestCase sys scanner leaseEpoch request answers db (.error e) after
  | referenced (a : PreparedArtifact) (evidenceId : String) (after : Db)
      (hnew : PreparedArtifact.new sys scanner request answers.unique = .ok a)
      (hreferenced : Referenced a db.evidence.rows after.evidence.rows) :
      IngestCase sys scanner leaseEpoch request answers db (.ok ⟨a.digest, evidenceId⟩) after
  | merged (a : PreparedArtifact) (evidenceId : String) (after : Db)
      (hnew : PreparedArtifact.new sys scanner request answers.unique = .ok a)
      (hcalm : answers.calm = true)
      (hreserve : (reserve leaseEpoch a answers db).toBool = true)
      (hretries : retries request.intent a.digest db = true)
      (hrows : after.evidence.rows = evidenceClass.raise a.digest
        (evidenceClass.join a.digest (a.sensitivity, a.providerEgress) db.evidence.rows)
        db.evidence.rows) :
      IngestCase sys scanner leaseEpoch request answers db (.ok ⟨a.digest, evidenceId⟩) after

/-- The merge of a retry raises the live references. -/
theorem evidence_mergeReplayed {merged : Db}
    (h : mergeReplayedClassification sys leaseEpoch a answers db = .ok merged) :
    answers.merged = true ∧ merged.evidence.rows = evidenceClass.raise a.digest
      (evidenceClass.join a.digest (a.sensitivity, a.providerEgress) db.evidence.rows)
      db.evidence.rows := by
  rw [mergeReplayedClassification] at h
  split at h
  · rename_i hgoes
    cases h
    refine ⟨(Bool.and_eq_true_iff.mp hgoes).1, ?_⟩
    rw [← mergedClassification_eq]
    exact rows_update_class db a.digest _ _ fun _ => rfl
  · cases h

/-- Everything that has to go well before the commit. -/
structure Reaches (sys : Platform) (scanner : PayloadScanner) (leaseEpoch : Nat)
    (request : ArtifactIngestRequest) (answers : IngestAnswers) (a : PreparedArtifact)
    (db reserved : Db) : Prop where
  new : PreparedArtifact.new sys scanner request answers.unique = .ok a
  opened : answers.closed = false
  staged : answers.staged = .ok ()
  reserved : reserve leaseEpoch a answers db = .ok reserved
  published : answers.published = .ok ()

theorem finishReplay_cases {reserved after : Db}
    (h : Reaches sys scanner leaseEpoch request answers a db reserved)
    (hafter : after.evidence = db.evidence) (hfault : (answers.commit.headD {}).fault = none)
    {receipt : ReceiptRow}
    (hfind : findReceipt request.intent.producer request.intent.operationKey db = some receipt)
    (hdigest : receipt.requestDigest = request.intent.requestDigest) :
    IngestCase sys scanner leaseEpoch request answers db
      (finishReplay sys leaseEpoch a answers receipt.resultPayload after).1
      (finishReplay sys leaseEpoch a answers receipt.resultPayload after).2 := by
  rw [finishReplay]
  split
  · exact .refused _ _ (evidence_releaseReservation.trans hafter)
  · rename_i hread
    split
    · rename_i hcommitted
      split
      · rename_i merged hmerge
        obtain ⟨hmerged, hrows⟩ := evidence_mergeReplayed hmerge
        refine .merged a _ _ h.new ?_ ?_ ?_ ?_
        · simp only [Bool.not_eq_true, Bool.not_eq_false'] at hread
          rw [IngestAnswers.calm, h.opened, h.staged, h.published, hfault, hread, hmerged]
          rfl
        · rw [h.reserved]
          rfl
        · rw [committedDigest, hafter] at hcommitted
          rw [retries, hfind, Option.any_some, hdigest, committedDigest, hcommitted]
          simp
        · rw [evidence_releaseReservation, hrows, hafter]
      · exact .refused _ _ (evidence_releaseReservation.trans hafter)
    · exact .refused _ _ (evidence_releaseReservation.trans hafter)

/-- What the commit of an ingest makes of it. -/
theorem commitReference_cases {reserved : Db}
    (h : Reaches sys scanner leaseEpoch request answers a db reserved) :
    IngestCase sys scanner leaseEpoch request answers db
      (commitReference sys leaseEpoch request a answers reserved).1
      (commitReference sys leaseEpoch request a answers reserved).2 := by
  obtain ⟨reservations, heq⟩ := reserve_eq_ok h.reserved
  have hsame : reserved.evidence = db.evidence := by rw [heq]
  unfold commitReference
  dsimp only
  have hcase := @reference_case sys (ingestCommit leaseEpoch request a answers) a evidenceOf rfl
    reserved
  have hcommit := commit_cases sys (ingestCommit leaseEpoch request a answers) reserved
  have hfault := @fault_of_run_ok sys reserved (ingestCommit leaseEpoch request a answers)
  generalize (ingestCommit leaseEpoch request a answers).run sys reserved = outcome
    at hcase hcommit hfault ⊢
  obtain ⟨result, after⟩ := outcome
  cases hcase with
  | failed e => exact .refused _ _ (evidence_releaseReservation.trans hsame)
  | replayed receipt _ hreplayed hafter =>
    cases hcommit with
    | replayed row _ hfind hdigest =>
      rw [CommitCall.receiptIn, heq] at hfind
      exact finishReplay_cases h (hafter.trans hsame) (hfault rfl) hfind hdigest
    | applied => cases hreplayed
  | referenced receipt _ hfresh hreferenced =>
    dsimp only
    rw [hfresh]
    rw [hsame] at hreferenced
    exact .referenced a _ _ h.new hreferenced

/-- **Every ingest** is refused, adds a reference, or merges the class of a retry. -/
theorem ingest_cases : IngestCase sys scanner leaseEpoch request answers db
    (ingestArtifact sys scanner leaseEpoch request answers db).1
    (ingestArtifact sys scanner leaseEpoch request answers db).2 := by
  unfold ingestArtifact
  split
  · exact .refused _ _ rfl
  · rename_i hopen
    split
    · exact .refused _ _ rfl
    · rename_i a hnew
      split
      · exact .refused _ _ rfl
      · rename_i hstaged
        split
        · exact .refused _ _ rfl
        · rename_i reserved hreserve
          obtain ⟨reservations, rfl⟩ := reserve_eq_ok hreserve
          split
          · exact .refused _ _ evidence_releaseReservation
          · rename_i hpublished
            exact commitReference_cases
              ⟨hnew, Bool.not_eq_true _ ▸ hopen, hstaged, hreserve, hpublished⟩

/-! ## The invariant -/

/-- With a live reference, or a class that some row had, the class of a retry is not lost. -/
theorem known_merged {c : ArtifactClass} {digest : String} {rows : List EvidenceRow}
    (h : (∃ r ∈ rows, r.artifactDigest = digest ∧ r.live = true) ∨
      evidenceClass.Known digest c rows) :
    evidenceClass.Known digest c
      (evidenceClass.raise digest (evidenceClass.join digest c rows) rows) := by
  rcases h with ⟨r, hr, hdigest, hlive⟩ | hknown
  · rw [← hdigest]
    exact Labelled.known_raise (c := evidenceClass) hr hlive Labelled.le_join
  · exact hknown.raise Labelled.bounded_join

theorem known_of_not_forgets
    (hnew : PreparedArtifact.new sys scanner request answers.unique = .ok a)
    (hcalm : answers.calm = true) (hreserve : (reserve leaseEpoch a answers db).toBool = true)
    (hretries : retries request.intent a.digest db = true)
    (h : ¬ Forgets sys scanner leaseEpoch request answers db) :
    (∃ r ∈ db.evidence.rows, r.artifactDigest = a.digest ∧ r.live = true) ∨
      evidenceClass.Known a.digest (a.sensitivity, a.providerEgress) db.evidence.rows := by
  by_contra hnone
  push Not at hnone
  refine h ⟨a, hnew, hcalm, hreserve, hretries, fun r hr hdigest => ?_, fun hle => ?_⟩
  · exact Bool.not_eq_true _ ▸ hnone.1 r hr hdigest
  · rw [← class_of_new sys scanner hnew, storedClass, mergedClassification_eq] at hle
    exact hnone.2 (Labelled.known_of_le_join leastClass_le hle)

section Fits
variable {s : Cas} (h : s.Fits)
include h

theorem Cas.Fits.fade {db : Db} (hfades : evidenceClass.Fades s.db.evidence.rows db.evidence.rows) :
    ({ s with db := db } : Cas).Fits :=
  ⟨h.level.fade hfades, fun digest c hc => (h.known digest c hc).fade hfades⟩

theorem Cas.Fits.same {db : Db} (hsame : db.evidence = s.db.evidence) :
    ({ s with db := db } : Cas).Fits :=
  h.fade (hsame ▸ Labelled.Fades.refl _)

/-- A known class may be accepted. -/
theorem Cas.Fits.accept {digest : String} {c : ArtifactClass}
    (hknown : evidenceClass.Known digest c s.db.evidence.rows) :
    ({ s with accepted := (digest, c) :: s.accepted } : Cas).Fits := by
  refine ⟨h.level, fun digest' c' hc => ?_⟩
  rcases List.mem_cons.mp hc with heq | hc
  · obtain ⟨rfl, rfl⟩ := Prod.mk.inj heq
    exact hknown
  · exact h.known digest' c' hc

/-- Raising the live references to a bound keeps the invariant. -/
theorem Cas.Fits.raise {db : Db} {digest : String} {u : ArtifactClass}
    (hbound : evidenceClass.Bounded digest u s.db.evidence.rows)
    (hrows : db.evidence.rows = evidenceClass.raise digest u s.db.evidence.rows) :
    ({ s with db := db } : Cas).Fits := by
  refine ⟨?_, fun digest' c hc => ?_⟩
  · rw [hrows]
    exact h.level.raise hbound
  · rw [hrows]
    exact (h.known digest' c hc).raise hbound

/-- A new reference keeps the invariant. -/
theorem Cas.Fits.reference {db : Db}
    (hreferenced : Referenced a s.db.evidence.rows db.evidence.rows) :
    ({ s with db := db } : Cas).Fits := by
  obtain ⟨row, hrows, hdigest, -, hlabel⟩ := hreferenced
  rw [← hdigest] at hrows hlabel
  refine ⟨?_, fun digest c hc => ?_⟩
  · rw [hrows]
    exact h.level.add Labelled.bounded_join hlabel
  · rw [hrows]
    exact ((h.known digest c hc).raise Labelled.bounded_join).append

/-- **An ingest** keeps the invariant. -/
theorem Cas.Fits.ingest (hremembers : ¬ Forgets sys scanner leaseEpoch request answers s.db) :
    (s.step sys scanner (.ingest leaseEpoch request answers)).Fits := by
  have hcase := @ingest_cases sys scanner leaseEpoch request answers s.db
  rw [Cas.step]
  generalize ingestArtifact sys scanner leaseEpoch request answers s.db = outcome at hcase ⊢
  obtain ⟨result, after⟩ := outcome
  cases hcase with
  | refused e _ hsame => exact h.same hsame
  | referenced a evidenceId _ hnew hreferenced =>
    refine (h.reference hreferenced).accept ?_
    rw [← class_of_new sys scanner hnew]
    obtain ⟨row, hrows, hdigest, -, hlabel⟩ := hreferenced
    rw [hrows, ← hdigest]
    exact Labelled.known_append (hlabel ▸ hdigest ▸ Labelled.le_join)
  | merged a evidenceId _ hnew hcalm hreserve hretries hrows =>
    refine (h.raise Labelled.bounded_join hrows).accept ?_
    rw [← class_of_new sys scanner hnew, hrows]
    exact known_merged (known_of_not_forgets hnew hcalm hreserve hretries hremembers)

/-- The transactions that are not commits raise references, or leave them alone. -/
theorem Cas.Fits.upkeep (u : Upkeep) : ({ s with db := u.run sys s.db } : Cas).Fits := by
  cases u with
  | mergeReplayedClassification digest c e =>
    refine h.raise ?_ (rows_update_class s.db digest _ _ fun _ => rfl)
    rw [← Prod.eta (mergedClassification s.db digest c e), mergedClassification_eq]
    exact Labelled.bounded_join
  | acknowledgeOutbox id checkpoint time =>
    refine h.same ?_
    rw [Upkeep.run, acknowledgeOutbox]
    split <;> rfl
  | pruneOutbox =>
    refine h.same ?_
    rw [Upkeep.run, pruneOutbox]
    split <;> rfl
  | rebuildAlignment leaseEpoch answers =>
    exact h.same (sameButProjection_repair sys leaseEpoch s.db answers).evidence
  | stampWriterFence | markOutboxPublishedThrough | reserve | stage => exact h.same rfl

/-- **Every step** keeps the invariant, unless it is a retry whose class is lost. -/
theorem Cas.Fits.step {event : ArtifactEvent}
    (hissued : event.Issued s.db) (hremembers : event.Remembers sys scanner s.db) :
    (s.step sys scanner event).Fits := by
  cases event with
  | ingest leaseEpoch request answers => exact h.ingest hremembers
  | transaction action =>
    cases action with
    | upkeep u => exact h.upkeep u
    | commit call =>
      by_cases hingest : ∃ a f, call.operation = bodyOperation (.insertReference a) f
      · obtain ⟨a, f, hoperation⟩ := hingest
        have hcase := @reference_case sys call a f hoperation s.db
        rw [Cas.step, Action.run]
        generalize call.run sys s.db = outcome at hcase ⊢
        obtain ⟨result, after⟩ := outcome
        cases hcase with
        | failed => exact h
        | replayed receipt _ hreplayed hsame => exact h.same hsame
        | referenced receipt _ hfresh hreferenced => exact h.reference hreferenced
      · push Not at hingest
        exact h.fade (fades_of_issued hissued hingest)

end Fits

variable (sys scanner) in
/-- **Artifact classes do not weaken**, in any run without a retry whose class is lost: a retry that
is accepted while no reference to its digest is live, with a class that no row had. -/
theorem artifact_classes (events : List ArtifactEvent)
    (hissued : Along sys scanner (fun event db => event.Issued db) events {})
    (hremembers : Along sys scanner (fun event db => event.Remembers sys scanner db)
      events {}) : ArtifactClasses (Cas.run sys scanner {} events) := by
  have hrun : ∀ (events : List ArtifactEvent) (s : Cas), s.Fits →
      Along sys scanner (fun event db => event.Issued db) events s →
      Along sys scanner (fun event db => event.Remembers sys scanner db) events s →
      (s.run sys scanner events).Fits := by
    intro events
    induction events with
    | nil => exact fun s h _ _ => h
    | cons event rest ih =>
      intro s h hissued hremembers
      exact ih _ (h.step hissued.1 hremembers.1) hissued.2 hremembers.2
  refine (hrun events {} ⟨?_, ?_⟩ hissued hremembers).classes
  · exact fun r hr => absurd hr List.not_mem_nil
  · exact fun digest c hc => absurd hc List.not_mem_nil

/-! ## A class that is kept, and one that is lost -/

namespace Sample

/-- The digests of the operations below. -/
def ingestDigests : List (String × String) :=
  [("domain", "4403d03caf1b3dc6cdd08154126ff207feefd4f8c239b23a9f04d4db953ce71c"),
    ("first", "6adb68047004801ecac30a1d3507a8aeb23b2f203013bb37886ee545f6b6786d"),
    ("delete", "7c93c517bde91c43be818188bc3d8e9a831b9400d940be2f6f0e5bf9b3b59226"),
    ("second", "76f31e291513803f727bb8c3700e4c4eebb5ac39de1fbd5099215509f7bb664e")]

/-- The digest of the payload, which is one letter. -/
def letterDigest : String := "2d711642b726b04401627ca9fbac32f5c8530fb1903cc4db02258717921a4881"

/-- The digests of the operations and of the payload. -/
def ingestPlatform : Platform where
  redactDurableText value := ⟨value, []⟩
  clean := clean_plain
  sha256 bytes := if bytes = [120] then letterDigest else (plainPlatform ingestDigests).sha256 bytes

/-- A scanner that finds no secret. -/
def emptyScanner : PayloadScanner where
  redactPayload text _ := .ok (text.bytes, [])
  payloadHasSecret _ := .ok false

/-- The letter, under an id of its own and with an asserted class. -/
def letter (operationKey : String) (asserted : Sensitivity) : ArtifactIngestRequest where
  intent := intent operationKey
  payload := [120]
  evidenceId := operationKey
  objectId := operationKey
  objectKind := "artifact"
  domainId := "d"
  sourceKind := "file"
  sourceId := operationKey
  sourceRevision := 1
  mediaType := "text"
  retentionClass := "short"
  retainUntil := none
  assertedSensitivity := asserted
  providerEgress := .remoteAllowed
  provenance := some ⟨"repository", "revision"⟩

/-- The letter is ingested as normal. -/
def ingested : List ArtifactEvent :=
  [.transaction (.upkeep (.stampWriterFence 1)),
    .transaction (.commit (call "domain" (.insertDomain domain))),
    .ingest 1 (letter "first" .normal) { unique := "1" }]

/-- The retry of the ingest, which now asserts a secret. -/
def retry : ArtifactEvent := .ingest 1 (letter "first" .secret) { unique := "2" }

def deletion : ArtifactDeletion where
  kind := .delete
  digest := letterDigest
  artifactReference := objectPath letterDigest
  barrierId := s!"artifact-deletion-{letterDigest}-1"
  operatorId := ⟨"", []⟩
  reason := ⟨"", []⟩
  targetLocator := ⟨"", []⟩
  deletedAt := 0

def deletionCommit : CommitCall :=
  { call "delete" (.deleteArtifact deletion) with
    operation := bodyOperation (.deleteArtifact deletion) fun _ => "deleted" }

/-- The letter is deleted before the retry, and ingested again as normal. -/
def forgotten : List ArtifactEvent :=
  ingested ++ [.transaction (.commit deletionCommit), retry,
    .ingest 1 (letter "second" .normal) { unique := "3" }]

theorem issued_ingested {rest : List ArtifactEvent}
    (h : Along ingestPlatform emptyScanner (fun event db => event.Issued db) rest
      (Cas.run ingestPlatform emptyScanner {} ingested)) :
    Along ingestPlatform emptyScanner (fun event db => event.Issued db) (ingested ++ rest) {} :=
  along_append ⟨trivial, .closure (.call _ _ rfl fun _ => .ret _), trivial, trivial⟩ h

end Sample

variable (sys scanner) in
/-- An ingest whose intent has no receipt is no retry. -/
theorem not_forgets_of_findReceipt
    (h : findReceipt request.intent.producer request.intent.operationKey db = none) :
    ¬ Forgets sys scanner leaseEpoch request answers db := by
  rintro ⟨a, -, -, -, hretries, -⟩
  rw [retries, h] at hretries
  cases hretries

/-- The class of a retry is kept while the first reference is live. -/
theorem retry_raises_class :
    ArtifactClasses (Cas.run Sample.ingestPlatform Sample.emptyScanner {}
      (Sample.ingested ++ [Sample.retry])) ∧
    ((Cas.run Sample.ingestPlatform Sample.emptyScanner {}
      (Sample.ingested ++ [Sample.retry])).db.evidence.any fun r =>
        r.live && r.sensitivity == .secret) = true := by
  refine ⟨artifact_classes Sample.ingestPlatform Sample.emptyScanner _
    (Sample.issued_ingested ⟨trivial, trivial⟩)
    (along_append ⟨trivial, trivial, ?_, trivial⟩ ⟨?_, trivial⟩), by decide +kernel⟩
  · exact not_forgets_of_findReceipt _ _ (by decide +kernel)
  · rintro ⟨a, hnew, -, -, -, hdead, -⟩
    have hdigest : (PreparedArtifact.new Sample.ingestPlatform Sample.emptyScanner
        (Sample.letter "first" .secret) "2").map PreparedArtifact.digest =
        .ok Sample.letterDigest := by decide +kernel
    rw [hnew] at hdigest
    have hlive : ((Cas.run Sample.ingestPlatform Sample.emptyScanner {}
        Sample.ingested).db.evidence.any fun r =>
          decide (r.artifactDigest = Sample.letterDigest) && r.live) = true := by decide +kernel
    obtain ⟨r, hr, hboth⟩ := Table.any_iff.mp hlive
    obtain ⟨hof, hlive⟩ := Bool.and_eq_true_iff.mp hboth
    have hdead := hdead r hr ((of_decide_eq_true hof).trans (Except.ok.inj hdigest).symm)
    rw [hlive] at hdead
    cases hdead

/-- **The class of an accepted retry is lost.**  The letter is ingested as normal, deleted, and the
ingest is retried with a secret; it is accepted, and the next reference is normal. -/
theorem retried_class_is_lost :
    ¬ ∀ events, Along Sample.ingestPlatform Sample.emptyScanner
        (fun event db => event.Issued db) events {} →
      ArtifactClasses (Cas.run Sample.ingestPlatform Sample.emptyScanner {} events) := by
  intro h
  have hissued : Along Sample.ingestPlatform Sample.emptyScanner
      (fun event db => event.Issued db) Sample.forgotten {} := by
    refine Sample.issued_ingested ⟨?_, trivial, trivial, trivial⟩
    exact .deletion Sample.deletion (fun _ => "deleted") "1" (by decide +kernel) rfl
  have haccepted : (Sample.letterDigest, (Sensitivity.secret, ProviderEgress.remoteAllowed)) ∈
      (Cas.run Sample.ingestPlatform Sample.emptyScanner {} Sample.forgotten).accepted := by
    decide +kernel
  have hlive : ((Cas.run Sample.ingestPlatform Sample.emptyScanner {}
      Sample.forgotten).db.evidence.any fun r =>
        decide (r.artifactDigest = Sample.letterDigest) && r.live &&
          decide (r.sensitivity = .normal)) = true := by decide +kernel
  obtain ⟨r, hr, hall⟩ := Table.any_iff.mp hlive
  simp only [Bool.and_eq_true, decide_eq_true_eq] at hall
  have hle := (h Sample.forgotten hissued).2 _ _ haccepted r hr hall.1.1 hall.1.2
  rw [hall.2] at hle
  cases hle.1

end MagicContext.Kernel
