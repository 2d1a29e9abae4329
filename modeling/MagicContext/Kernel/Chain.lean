import MagicContext.Kernel.Approval
import MagicContext.Lib.Following

/-!
# Chains of authority

An approval holds authority when it and the approvals behind it all qualify.  The recursive query
that decides this numbers the members of a chain by their depth, stops at the first that does not
qualify, and goes one step further than a chain may be long, so that a chain that is too long or
runs in a circle has one row too many.

## What is here

* `filedApproval` and `latestApproval` — the link from an object to its approval, as the query
  follows it and as it is when every decision about an object is of its lineage (`OwnLedger`).
* `validateApproval_iff`.
-/

namespace MagicContext.Kernel

open Following AdmissionRow

section Ledger
variable (db : Db)

/-! ## The latest decision about a subject -/

theorem AdmissionRow.newerThan_iff {a b : AdmissionRow} :
    a.newerThan b = true ↔
      b.commitSeq < a.commitSeq ∨ a.commitSeq = b.commitSeq ∧ b.ordinal < a.ordinal := by
  simp [newerThan]

/-- Of two decisions neither of which is newer there is one key. -/
theorem AdmissionRow.key_eq {a b : AdmissionRow} (h : a.newerThan b = false)
    (h' : b.newerThan a = false) : (a.commitSeq, a.ordinal) = (b.commitSeq, b.ordinal) := by
  rw [← Bool.not_eq_true, newerThan_iff] at h h'
  have hseq : a.commitSeq = b.commitSeq := by omega
  rw [Prod.mk.injEq]
  exact ⟨hseq, by omega⟩

theorem newest_spec {rows : List AdmissionRow} {a : AdmissionRow} (h : newest rows = some a) :
    a ∈ rows ∧ ∀ b ∈ rows, b.newerThan a = false := by
  induction rows generalizing a with
  | nil => cases h
  | cons r rows ih =>
    rw [newest] at h
    have hirrefl : ∀ b : AdmissionRow, b.newerThan b = false := fun b => by
      rw [← Bool.not_eq_true, newerThan_iff]
      omega
    cases hrest : newest rows with
    | none =>
      rw [hrest] at h
      obtain rfl := Option.some_inj.mp h
      have hnil : rows = [] := by
        cases rows with
        | nil => rfl
        | cons r' rows =>
          rw [newest] at hrest
          split at hrest
          · cases hrest
          · split at hrest <;> cases hrest
      rw [hnil]
      exact ⟨List.mem_singleton.mpr rfl, fun b hb => List.mem_singleton.mp hb ▸ hirrefl _⟩
    | some r' =>
      rw [hrest] at h
      obtain ⟨hmem, hnewest⟩ := ih hrest
      dsimp only at h
      split at h
      · rename_i hnewer
        obtain rfl := Option.some_inj.mp h
        refine ⟨List.mem_cons_of_mem r hmem, fun b hb => ?_⟩
        rcases List.mem_cons.mp hb with rfl | hb
        · rw [newerThan_iff] at hnewer
          rw [← Bool.not_eq_true, newerThan_iff]
          omega
        · exact hnewest b hb
      · rename_i hnewer
        obtain rfl := Option.some_inj.mp h
        refine ⟨List.mem_cons_self .., fun b hb => ?_⟩
        rcases List.mem_cons.mp hb with rfl | hb
        · exact hirrefl _
        · have hb := hnewest b hb
          rw [newerThan_iff] at hnewer
          rw [← Bool.not_eq_true, newerThan_iff] at hb ⊢
          omega

/-- The latest decision about a subject is one that no other is newer than. -/
theorem latestOfSubject_eq_some {db : Db} {objectId : String} {a : AdmissionRow} :
    latestOfSubject db objectId = some a ↔ a ∈ db.admissions ∧
      a.subjectObjectId = some objectId ∧ isLatestOfSubject db a = true := by
  have hlatest : ∀ {b}, isLatestOfSubject db b = true → ∀ c ∈ db.admissions,
      c.subjectObjectId = b.subjectObjectId → c.newerThan b = false := by
    intro b hb c hc hsubject
    rw [isLatestOfSubject, Bool.not_eq_true', Table.any_eq_false] at hb
    have := hb c hc
    rwa [hsubject, beq_self_eq_true, Bool.true_and] at this
  constructor
  · intro h
    have hfound := List.find?_some h
    rw [Bool.and_eq_true, beq_iff_eq] at hfound
    exact ⟨List.mem_of_find?_eq_some h, hfound⟩
  · rintro ⟨hmem, hsubject, hlast⟩
    have hsome : (latestOfSubject db objectId).isSome :=
      List.find?_isSome.mpr ⟨a, hmem, by rw [hsubject, hlast, beq_self_eq_true]; rfl⟩
    obtain ⟨b, hb⟩ := Option.isSome_iff_exists.mp hsome
    have hfound := List.find?_some hb
    rw [Bool.and_eq_true, beq_iff_eq] at hfound
    have hmem' : b ∈ db.admissions := List.mem_of_find?_eq_some hb
    have hkey := key_eq (hlatest hfound.2 a hmem (hsubject.trans hfound.1.symm))
      (hlatest hlast b hmem' (hfound.1.trans hsubject.symm))
    rw [hb, Table.eq_of_key hmem hmem' hkey]

/-! ## The rows of the query -/

theorem authorityChain_eq_unroll (approval : String) (hops : Nat) :
    authorityChain db approval hops = unroll (nextAuthority db) hops approval := by
  induction hops generalizing approval with
  | zero => rfl
  | succ hops ih =>
    rw [authorityChain, unroll]
    cases nextAuthority db approval with
    | none => rfl
    | some next => rw [Option.elim_some, Option.elim_some, ih]

/-! ## Chains that hold -/

/-- The approval recorded on the latest decision about an object, when it was made under the
current policy. -/
def filedApproval (objectId : String) : Option String :=
  ((latestOfSubject db objectId).filter fun a => a.policyRevision == policyRevision).bind
    AdmissionRow.approvalObjectId

/-- The approval recorded on the latest decision about an object. -/
def latestApproval (objectId : String) : Option String :=
  (latestOfSubject db objectId).bind AdmissionRow.approvalObjectId

/-- A path of approvals on which the authority of the first one rests, apart from the subject. -/
structure Authorizes (next : String → Option String) (approval : String)
    (subject : Option String) (path : List String) : Prop where
  isPath : Path next approval path
  acyclic : path.Nodup
  short : path.length ≤ maxAuthorityChainDepth + 1
  apart : ∀ member ∈ path, some member ≠ subject
  qualify : ∀ member ∈ path, approvalQualifies db member = true

variable {db}

theorem chainHolds_iff (approval : String) (subject : Option String) :
    chainHolds db approval subject = true ↔
      ∃ path, Authorizes db (filedApproval db) approval subject path := by
  have hsame : ∀ {path : List String}, (∀ member ∈ path, approvalQualifies db member = true) →
      ∀ member ∈ path, nextAuthority db member = filedApproval db member :=
    fun h member hmember => if_pos (h member hmember)
  rw [chainHolds, authorityChain_eq_unroll]
  simp only [Bool.and_eq_true, decide_eq_true_eq, List.all_eq_true, Bool.not_eq_true',
    List.any_eq_false, beq_iff_eq]
  constructor
  · rintro ⟨⟨hlength, hqualify⟩, happart⟩
    have hpath := path_unroll hlength
    exact ⟨_, hpath.congr (hsame hqualify), hpath.nodup, hlength, happart, hqualify⟩
  · rintro ⟨path, hpath, -, hlength, happart, hqualify⟩
    have hpath := hpath.congr fun member hmember => (hsame hqualify member hmember).symm
    rw [unroll_of_path hpath (hlength.trans (Nat.le_succ _))]
    exact ⟨⟨hlength, hqualify⟩, happart⟩

/-- Every decision about an object is of its lineage, and not older than it. -/
def OwnLedger (db : Db) : Prop :=
  ∀ a ∈ db.admissions, ∀ objectId, a.subjectObjectId = some objectId →
    ∀ o, db.registry.get objectId = some o →
      sameLineage a o = true ∧ o.createdCommitSeq ≤ a.commitSeq

/-- In such a ledger the latest decision about an approval that qualifies is its own latest one. -/
theorem latestOfSubject_of_own (hown : OwnLedger db) {objectId : String}
    (h : approvalQualifies db objectId = true) :
    ∃ a, latestOfSubject db objectId = some a ∧ a.policyRevision = policyRevision := by
  rw [approvalQualifies, Bool.and_eq_true, Option.any_eq_true] at h
  obtain ⟨-, o, ho, h⟩ := h
  rw [Option.any_eq_true] at h
  obtain ⟨a, ha, hfields⟩ := h
  simp only [approvalRowFields, Bool.and_eq_true, beq_iff_eq] at hfields
  obtain ⟨hmem, hnewest⟩ := newest_spec ha
  have hobject : o.objectId = objectId := (Table.get_eq_some.mp ho).2
  have hownDecision : ∀ b, b ∈ db.admissions → b.subjectObjectId = some objectId →
      b ∈ db.admissions.select (ownDecision everyCommit o) := by
    intro b hb hsubject
    obtain ⟨hlineage, hcreated⟩ := hown b hb objectId hsubject o ho
    refine Table.mem_select.mpr ⟨hb, ?_⟩
    simp [ownDecision, hsubject, hobject, hlineage, hcreated, everyCommit]
  obtain ⟨hrow, hdecision⟩ := Table.mem_select.mp hmem
  simp only [ownDecision, Bool.and_eq_true, beq_iff_eq] at hdecision
  have hsubject : a.subjectObjectId = some objectId := hobject ▸ hdecision.1.1.1
  refine ⟨a, latestOfSubject_eq_some.mpr ⟨hrow, hsubject, ?_⟩, ?_⟩
  · rw [isLatestOfSubject, Bool.not_eq_true', Table.any_eq_false]
    intro b hb
    by_cases hsame : b.subjectObjectId = a.subjectObjectId
    · rw [hnewest b (hownDecision b hb (hsame.trans hsubject)), Bool.and_false]
    · rw [beq_eq_false_iff_ne.mpr hsame, Bool.false_and]
  · tauto

theorem filedApproval_of_own (hown : OwnLedger db) {objectId : String}
    (h : approvalQualifies db objectId = true) :
    filedApproval db objectId = latestApproval db objectId := by
  obtain ⟨a, hlatest, hrevision⟩ := latestOfSubject_of_own hown h
  rw [filedApproval, latestApproval, hlatest, Option.filter_some, if_pos]
  exact beq_iff_eq.mpr hrevision

theorem authorizes_congr {next next' : String → Option String} {approval : String}
    {subject : Option String} {path : List String}
    (hsame : ∀ member, approvalQualifies db member = true → next member = next' member)
    (h : Authorizes db next approval subject path) : Authorizes db next' approval subject path :=
  ⟨h.isPath.congr fun member hmember => hsame member (h.qualify member hmember), h.acyclic,
    h.short, h.apart, h.qualify⟩

end Ledger

/-- **An approval is valid exactly when the path of approvals from it, each recorded on the latest
decision about the one before under the current policy, ends within the permitted depth, does not
meet the subject, and every member of it qualifies.  Where every decision about an object is of its
lineage, the policy under which an approval was recorded need not be looked at.** -/
theorem validateApproval_iff (sys : Platform) (approval subject : Option String) (env : Envelope) :
    (validateApproval sys approval subject env = .ok true ↔
      ∃ named start path, approval = some named ∧ sys.identity named = .ok start ∧
        Authorizes env.tx (filedApproval env.tx) start subject path) ∧
    (OwnLedger env.tx →
      (validateApproval sys approval subject env = .ok true ↔
        ∃ named start path, approval = some named ∧ sys.identity named = .ok start ∧
          Authorizes env.tx (latestApproval env.tx) start subject path)) := by
  have hvalid : validateApproval sys approval subject env = .ok true ↔
      ∃ named start path, approval = some named ∧ sys.identity named = .ok start ∧
        Authorizes env.tx (filedApproval env.tx) start subject path := by
    cases approval with
    | none => exact ⟨nofun, fun ⟨_, _, _, h, _⟩ => nomatch h⟩
    | some named =>
      rw [validateApproval]
      cases hstart : sys.identity named with
      | error e =>
        refine ⟨nofun, fun ⟨_, _, _, hnamed, h, _⟩ => ?_⟩
        rw [← Option.some_inj.mp hnamed, hstart] at h
        cases h
      | ok start =>
        have hok : (chainHolds env.tx · subject) <$> (Except.ok start : Except KernelError String) =
            .ok (chainHolds env.tx start subject) := rfl
        rw [hok, Except.ok.injEq, chainHolds_iff]
        constructor
        · rintro ⟨path, hpath⟩
          exact ⟨named, start, path, rfl, hstart, hpath⟩
        · rintro ⟨named', start', path, hnamed, hstart', hpath⟩
          rw [← Option.some_inj.mp hnamed, hstart] at hstart'
          cases hstart'
          exact ⟨path, hpath⟩
  refine ⟨hvalid, fun hown => hvalid.trans ?_⟩
  constructor
  · rintro ⟨named, start, path, hnamed, hstart, hpath⟩
    exact ⟨named, start, path, hnamed, hstart,
      authorizes_congr (fun _ h => filedApproval_of_own hown h) hpath⟩
  · rintro ⟨named, start, path, hnamed, hstart, hpath⟩
    exact ⟨named, start, path, hnamed, hstart,
      authorizes_congr (fun _ h => (filedApproval_of_own hown h).symm) hpath⟩

/-! ### A ledger with a decision of another lineage -/

/-- No text is taken for a secret. -/
def openPlatform : Platform where
  redactDurableText value := { text := value, detections := [] }
  clean _ _ := rfl
  sha256 _ := ""

/-- An approval by the user, under the lineage of the object. -/
def userApproval (objectId : String) : AdmissionRow where
  commitSeq := 1
  ordinal := 0
  candidateId := none
  candidateRef := none
  candidateKind := none
  candidatePayloadDigest := none
  subjectObjectId := some objectId
  sourceKind := "file"
  sourceId := objectId
  sourceRevision := 1
  sourceClass := .explicitUser
  taintClass := .userExplicit
  eventKind := .approve
  maturity := .approved
  effectiveMaturity := .approved
  disposition := .active
  visibility := .automatic
  outcome := .promote
  sensitivity := .normal
  policyRevision := policyRevision
  reason := "approved"
  evidenceId := none
  approvalObjectId := none
  elevatedSupport := false
  decidedAt := 0

/-- An object from a file of its own. -/
def fileObject (objectId : String) : ObjectRow where
  objectId := objectId
  createdCommitSeq := 1
  objectKind := "decision"
  domainId := "project"
  sourceKind := "file"
  sourceId := objectId
  sourceRevision := 1
  sensitivity := .normal

def acceptedAdr (objectId : String) : DecisionRow where
  objectId := objectId
  createdCommitSeq := 1
  decisionId := objectId
  propositionId := none
  scopeId := none
  anchorId := none
  evidenceId := none
  decisionKind := "adr_accepted"
  payload := ⟨"", ""⟩
  sensitivity := .normal

/-- A store of two accepted decisions and an object that is none, with what the ledger says. -/
def twoAdrs (rows : Table fun r : AdmissionRow => (r.commitSeq, r.ordinal)) : Db :=
  { Db.fresh with
    registry := ⟨[fileObject "base", fileObject "adr", fileObject "gone"], by decide⟩
    decisions := ⟨[acceptedAdr "base", acceptedAdr "adr"], by decide⟩
    admissions := rows }

/-- The approval of one decision rests on the other one. -/
def approvedAdr : Envelope where
  tx := twoAdrs ⟨[userApproval "base", { userApproval "adr" with
    commitSeq := 2, approvalObjectId := some "base" }], by decide⟩
  commitSeq := 3

/-- An approved decision, with a later decision of an older policy about another revision of its
source, whose approval is an object that is no decision. -/
def foreignAdr : Envelope where
  tx := twoAdrs ⟨[userApproval "adr", { userApproval "adr" with
    commitSeq := 2, sourceRevision := 2, policyRevision := 0
    approvalObjectId := some "gone" }], by decide⟩
  commitSeq := 3

theorem validateApproval_adr :
    OwnLedger approvedAdr.tx ∧ latestApproval approvedAdr.tx "adr" = some "base" ∧
      validateApproval openPlatform (some "adr") none approvedAdr = .ok true ∧
      (validateApproval openPlatform (some "adr") none approvedAdr = .ok true ↔
        ∃ named start path, some "adr" = some named ∧ openPlatform.identity named = .ok start ∧
          Authorizes approvedAdr.tx (latestApproval approvedAdr.tx) start none path) := by
  have hown : OwnLedger approvedAdr.tx := by
    intro a ha objectId hsubject o ho
    rcases List.mem_pair.mp ha with rfl | rfl <;>
      · obtain rfl := Option.some_inj.mp hsubject
        obtain rfl := Option.some_inj.mp ho
        decide
  exact ⟨hown, by decide +kernel, by decide +kernel,
    (validateApproval_iff openPlatform (some "adr") none approvedAdr).2 hown⟩

/-- **An approval can be valid though the path of latest decisions leads on to nothing.** -/
theorem foreign_decision_ends_chain :
    ¬ ∀ (sys : Platform) (approval subject : Option String) (env : Envelope),
      validateApproval sys approval subject env = .ok true ↔
        ∃ named start path, approval = some named ∧ sys.identity named = .ok start ∧
          Authorizes env.tx (latestApproval env.tx) start subject path := by
  intro h
  have hvalid : validateApproval openPlatform (some "adr") none foreignAdr = .ok true := by
    decide +kernel
  obtain ⟨named, start, path, hnamed, hstart, hpath⟩ := (h ..).mp hvalid
  rw [← Option.some_inj.mp hnamed] at hstart
  obtain rfl : "adr" = start := Except.ok.inj hstart
  have hnext : latestApproval foreignAdr.tx "adr" = some "gone" := by decide +kernel
  have hqualifies := hpath.qualify
  cases hpath.isPath with
  | stop hnone => cases hnone.symm.trans hnext
  | hop hsome hrest =>
    cases hsome.symm.trans hnext
    have hgone := hqualifies "gone" (List.mem_cons_of_mem _ hrest.head_mem)
    revert hgone
    decide +kernel

end MagicContext.Kernel
