import MagicContext.Historian.Coverage
import MagicContext.Historian.Firings
import MagicContext.Historian.Publication

/-!
# Firings and re-cuts

A firing reads the history, and its output is published minutes later.  A truncation or a reset in
between, a *cut*, takes away what the firing built on.  The generation of the compartments alone
would not tell: rows that were dropped can be made up for by others.  But every cut raises the
session's epoch, and without a cut the history only grows.

## What is here

* `assembleFiring` — what a firing reads.
* `HistorianOp.cuts`, `runOps`, `WritesBack` — runs of the transactions, in any order.
* `steps_exec`, `steps_run` — what a transaction, and a run, do to the epoch and the
  compartments.
* `publication_sees_firing` — what is published is what the firing was about.
-/

namespace MagicContext.Historian

/-! ## What a firing reads -/

structure HistorianAssemblySnapshot where
  compartments : List Compartment
  revertEpoch : Nat
  compartmentSetGeneration : CompartmentSetGeneration

/-- The epoch of the session; a session without a row is in its first. -/
def SessionStore.revertEpoch (s : SessionStore) : Nat := s.load.moduleMeta.revertEpoch

/-- `load_historian_assembly_snapshot`. -/
def loadAssemblySnapshot (s : SessionStore) : HistorianAssemblySnapshot where
  compartments := s.compartments
  revertEpoch := s.revertEpoch
  compartmentSetGeneration := s.generation

/-- The number of the next compartment, for a firing that reads these. -/
def sequenceOffset (compartments : List Compartment) : Nat :=
  saturatingSucc ((compartments.map fun c => c.sequence.toNat).max?.getD 0)

/-- The same, for a firing that is picked up after a restart. -/
def reattachSequenceOffset (compartments : List Compartment) : Nat := compartments.length + 1

/-- The identities of the selected messages; the first that has none stops the firing. -/
def selectIdentities (identityByMid : List (String × List String)) :
    List String → Except String (List HistorianSelectedMessageIdentity)
  | [] => .ok []
  | mid :: mids =>
    match identityByMid.find? fun entry => entry.1 == mid with
    | none => .error mid
    | some entry => do
      let selected ← selectIdentities identityByMid mids
      return ⟨mid, entry.2⟩ :: selected

/-- The fences of a firing, and the number of its first compartment. -/
structure AssembledFiring where
  selectedRangeIdentities : List HistorianSelectedMessageIdentity
  expectedRevertEpoch : Nat
  compartmentSetGeneration : CompartmentSetGeneration
  sequenceOffset : Nat
  deriving DecidableEq

/-- `assemble_historian_firing`, for the messages that it selects. -/
def assembleFiring (identityByMid : List (String × List String)) (mids : List String)
    (s : SessionStore) : Except String AssembledFiring := do
  let snapshot := loadAssemblySnapshot s
  let selected ← selectIdentities identityByMid mids
  return {
    selectedRangeIdentities := selected
    expectedRevertEpoch := snapshot.revertEpoch
    compartmentSetGeneration := snapshot.compartmentSetGeneration
    sequenceOffset := Historian.sequenceOffset snapshot.compartments }

variable {s s' : SessionStore} {next : Int} {cs : List Compartment} {st st' : HistorianStore}

theorem assembleFiring_eq_ok {identityByMid : List (String × List String)} {mids : List String}
    {firing : AssembledFiring} (h : assembleFiring identityByMid mids s = .ok firing) :
    selectIdentities identityByMid mids = .ok firing.selectedRangeIdentities ∧
      firing.expectedRevertEpoch = s.revertEpoch ∧
      firing.compartmentSetGeneration = s.generation ∧
      firing.sequenceOffset = Historian.sequenceOffset s.compartments := by
  rw [assembleFiring] at h
  obtain ⟨selected, hselected, h⟩ := Checks.bind_eq_ok.mp h
  cases h
  exact ⟨hselected, rfl, rfl, rfl⟩

/-! ## Compartments -/

/-- No message is in both. -/
def Compartment.Disjoint (a b : Compartment) : Prop :=
  ∀ message, a.startMessage ≤ message → message ≤ a.endMessage →
    b.startMessage ≤ message → b.endMessage < message

/-- Ranges as compartments with the numbers from `next` on. -/
def numbered : Int → List (Int × Int) → List Compartment
  | _, [] => []
  | next, (startMessage, endMessage) :: ranges =>
    ⟨next, startMessage, endMessage⟩ :: numbered (next + 1) ranges

/-- The compartments have the numbers from `next` on. -/
def NumberedFrom : Int → List Compartment → Prop
  | _, [] => True
  | next, c :: rest => c.sequence = next ∧ NumberedFrom (next + 1) rest

theorem numberedFrom_numbered (next : Int) (ranges : List (Int × Int)) :
    NumberedFrom next (numbered next ranges) := by
  induction ranges generalizing next with
  | nil => trivial
  | cons range ranges ih => exact ⟨rfl, ih (next + 1)⟩

theorem numberedFrom_append {cs ds : List Compartment} :
    NumberedFrom next (cs ++ ds) ↔ NumberedFrom next cs ∧ NumberedFrom (next + cs.length) ds := by
  induction cs generalizing next with
  | nil => simp [NumberedFrom]
  | cons c cs ih =>
    rw [List.cons_append, NumberedFrom, NumberedFrom, ih, List.length_cons, and_assoc]
    refine and_congr_right fun _ => and_congr_right fun _ => ?_
    rw [show next + 1 + (cs.length : Int) = next + ((cs.length + 1 : Nat) : Int) by omega]

theorem NumberedFrom.le (h : NumberedFrom next cs) :
    ∀ c ∈ cs, next ≤ c.sequence ∧ c.sequence < next + cs.length := by
  induction cs generalizing next with
  | nil => exact fun c hc => absurd hc List.not_mem_nil
  | cons d cs ih =>
    intro c hc
    have hlength : (d :: cs).length = cs.length + 1 := rfl
    rcases List.mem_cons.mp hc with rfl | hc
    · have hseq := h.1
      omega
    · have hle := ih h.2 c hc
      omega

theorem NumberedFrom.getElem? (h : NumberedFrom next cs) {k : Nat} {c : Compartment}
    (hc : cs[k]? = some c) : c.sequence = next + k := by
  induction cs generalizing next k with
  | nil => cases hc
  | cons d cs ih =>
    cases k with
    | zero =>
      cases hc
      rw [h.1, Int.natCast_zero, Int.add_zero]
    | succ k =>
      rw [ih h.2 hc]
      omega

/-- What is kept of numbered compartments is their front. -/
theorem NumberedFrom.filter (h : NumberedFrom next cs) (keep : Int) :
    NumberedFrom next (cs.filter fun c => decide (c.sequence ≤ keep)) := by
  induction cs generalizing next with
  | nil => trivial
  | cons d cs ih =>
    by_cases hkeep : d.sequence ≤ keep
    · rw [List.filter_cons_of_pos (by simpa using hkeep)]
      exact ⟨h.1, ih h.2⟩
    · have hall : ∀ c ∈ d :: cs, ¬ decide (c.sequence ≤ keep) = true := by
        intro c hc
        have hle := (h.le c hc).1
        have hseq := h.1
        rw [decide_eq_true_eq]
        omega
      rw [List.filter_eq_nil_iff.mpr hall]
      trivial

/-- The number of the last is how many there are. -/
theorem NumberedFrom.exists_last (h : NumberedFrom 1 cs) (hne : cs ≠ []) :
    ∃ c ∈ cs, c.sequence = cs.length := by
  obtain ⟨front, last, rfl⟩ := (List.eq_nil_or_concat cs).resolve_left hne
  rw [List.concat_eq_append] at h ⊢
  refine ⟨last, List.mem_append_right _ (List.mem_singleton_self last), ?_⟩
  have hget := h.getElem? (k := front.length) (c := last) (by simp)
  rw [hget, List.length_append, List.length_singleton]
  omega

theorem max?_getD_eq {α : Type} [LinearOrder α] {xs : List α} {a b : α} (hmem : b ∈ xs)
    (hle : ∀ x ∈ xs, x ≤ b) : xs.max?.getD a = b := by
  rw [List.max?_eq_some_iff.mpr ⟨hmem, hle⟩, Option.getD_some]

/-- The largest number is how many there are. -/
theorem NumberedFrom.maxSequence (h : NumberedFrom 1 s.compartments) :
    s.generation.maxSequence = s.compartments.length := by
  rw [SessionStore.generation]
  by_cases hne : s.compartments = []
  · rw [hne]
    rfl
  · obtain ⟨c, hc, hlast⟩ := h.exists_last hne
    refine max?_getD_eq (List.mem_map.mpr ⟨c, hc, hlast⟩) fun sequence hmem => ?_
    obtain ⟨d, hd, rfl⟩ := List.mem_map.mp hmem
    have := (h.le d hd).2
    omega

theorem NumberedFrom.sequenceOffset (h : NumberedFrom 1 cs) (hfits : cs.length < u64Max) :
    sequenceOffset cs = cs.length + 1 := by
  have hmax : (cs.map fun c => c.sequence.toNat).max?.getD 0 = cs.length := by
    by_cases hne : cs = []
    · rw [hne]
      rfl
    · obtain ⟨c, hc, hlast⟩ := h.exists_last hne
      refine max?_getD_eq (List.mem_map.mpr ⟨c, hc, by rw [hlast]; rfl⟩) fun sequence hmem => ?_
      obtain ⟨d, hd, rfl⟩ := List.mem_map.mp hmem
      have := (h.le d hd).2
      omega
  rw [Historian.sequenceOffset, hmax]
  exact Nat.min_eq_left hfits

/-- **An append** adds the ranges under the next numbers, and none overlaps. -/
theorem appendCompartments_eq_ok {existing all : List Compartment} {ranges : List (Int × Int)}
    (h : appendCompartments existing next ranges = .ok all) :
    all = existing ++ numbered next ranges ∧
      (existing.Pairwise Compartment.Disjoint → all.Pairwise Compartment.Disjoint) := by
  induction ranges generalizing existing next with
  | nil =>
    cases h
    exact ⟨(List.append_nil _).symm, id⟩
  | cons range ranges ih =>
    rw [appendCompartments] at h
    split at h
    · cases h
    · rename_i hnone
      obtain ⟨hall, hdisjoint⟩ := ih h
      refine ⟨by rw [hall, List.append_assoc]; rfl, fun hexisting => hdisjoint ?_⟩
      refine List.pairwise_append.mpr ⟨hexisting, List.pairwise_singleton .., ?_⟩
      intro c hc d hd message hstart hstop hstart'
      obtain rfl := List.mem_singleton.mp hd
      have hno := List.find?_eq_none.mp hnone c hc
      simp only [Bool.and_eq_true, decide_eq_true_eq, not_and] at hno
      dsimp only at hstart' ⊢
      exact Int.lt_of_not_ge fun hle => hno (by omega) (by omega)

/-! ## Runs -/

section Runs
variable (scanner : Scanner) (scanItem : SideChannelPayload → SideChannelPayload)

/-- The transaction drops rows of the history. -/
def HistorianOp.cuts (st : HistorianStore) : HistorianOp → Bool
  | truncate keepThroughSeq recut expected =>
    (truncateForRevert scanner keepThroughSeq recut expected st).1.isOk &&
      st.session.dropsAfter keepThroughSeq
  | reset expected => (resetForRecomp expected st).1.isOk
  | _ => false

/-- Whoever writes a row back keeps the epoch that it read. -/
def HistorianOp.WritesBack (st : HistorianStore) : HistorianOp → Prop
  | commit expected _ m => st.session.version = expected → m.revertEpoch = st.session.revertEpoch
  | _ => True

/-- The transactions, one after the other. -/
def runOps : List HistorianOp → HistorianStore → HistorianStore
  | [], st => st
  | op :: ops, st => runOps ops (op.exec scanner scanItem st)

/-- Every transaction of a run writes back what it read. -/
def WritesBack : List HistorianOp → HistorianStore → Prop
  | [], _ => True
  | op :: ops, st => op.WritesBack st ∧ WritesBack ops (op.exec scanner scanItem st)

/-- How many transactions of a run cut the history. -/
def cutCount : List HistorianOp → HistorianStore → Nat
  | [], _ => 0
  | op :: ops, st => (op.cuts scanner st).toNat + cutCount ops (op.exec scanner scanItem st)

variable {scanner scanItem}

theorem runOps_append (ops ops' : List HistorianOp) (st : HistorianStore) :
    runOps scanner scanItem (ops ++ ops') st =
      runOps scanner scanItem ops' (runOps scanner scanItem ops st) := by
  induction ops generalizing st with
  | nil => rfl
  | cons op ops ih => exact ih (op.exec scanner scanItem st)

theorem writesBack_append {ops ops' : List HistorianOp} :
    WritesBack scanner scanItem (ops ++ ops') st ↔
      WritesBack scanner scanItem ops st ∧
        WritesBack scanner scanItem ops' (runOps scanner scanItem ops st) := by
  induction ops generalizing st with
  | nil => simp [WritesBack, runOps]
  | cons op ops ih => rw [List.cons_append, WritesBack, ih, WritesBack, runOps, and_assoc]

theorem cutCount_append (ops ops' : List HistorianOp) (st : HistorianStore) :
    cutCount scanner scanItem (ops ++ ops') st =
      cutCount scanner scanItem ops st +
        cutCount scanner scanItem ops' (runOps scanner scanItem ops st) := by
  induction ops generalizing st with
  | nil => exact (Nat.zero_add _).symm
  | cons op ops ih => rw [List.cons_append, cutCount, ih, cutCount, runOps, Nat.add_assoc]

/-- A run without a cut has no transaction that cuts. -/
theorem cuts_of_cutCount {ops : List HistorianOp} (h : cutCount scanner scanItem ops st = 0)
    {before after : List HistorianOp} {op : HistorianOp} (hops : ops = before ++ op :: after) :
    op.cuts scanner (runOps scanner scanItem before st) = false := by
  induction before generalizing ops st with
  | nil =>
    subst hops
    rw [List.nil_append, cutCount] at h
    exact Bool.toNat_eq_zero.mp (Nat.eq_zero_of_add_eq_zero_right h)
  | cons first before ih =>
    subst hops
    rw [List.cons_append, cutCount] at h
    exact ih (Nat.eq_zero_of_add_eq_zero_left h) rfl

/-! ### What a transaction does -/

/-- The version of the row, or zero before there is one. -/
def SessionStore.rowVersion (s : SessionStore) : Nat := (s.row.map CacheRow.rowVersion).getD 0

/-- The ranges are disjoint, and numbered from one on. -/
structure SessionStore.Ordered (s : SessionStore) : Prop where
  disjoint : s.compartments.Pairwise Compartment.Disjoint
  numbered : NumberedFrom 1 s.compartments

/-- What some transactions with `cuts` cuts among them do to a session. -/
structure Steps (cuts : Nat) (s s' : SessionStore) : Prop where
  epoch : s.revertEpoch + cuts ≤ u64Max → s'.revertEpoch = s.revertEpoch + cuts
  version : s.rowVersion + cuts ≤ s'.rowVersion
  grows : cuts = 0 → s.compartments <+: s'.compartments
  ordered : s.Ordered → s'.Ordered

theorem Steps.refl (s : SessionStore) : Steps 0 s s where
  epoch _ := rfl
  version := Nat.le_refl _
  grows _ := List.prefix_refl _
  ordered := id

theorem Steps.trans {cuts cuts' : Nat} {s s' s'' : SessionStore} (h : Steps cuts s s')
    (h' : Steps cuts' s' s'') : Steps (cuts + cuts') s s'' where
  epoch hle := by
    have h₁ := h.epoch (by omega)
    rw [h'.epoch (by omega), h₁, Nat.add_assoc]
  version := by
    have h₁ := h.version
    have h₂ := h'.version
    omega
  grows hcuts := (h.grows (by omega)).trans (h'.grows (by omega))
  ordered hs := h'.ordered (h.ordered hs)

/-- A write of the row that keeps the epoch, or raises it as a cut does. -/
theorem Steps.of_row {cuts : Nat} {r r' : CacheRow}
    (hrow : s.row = some r) (hrow' : s'.row = some r')
    (hepoch : r.moduleMeta.revertEpoch + cuts ≤ u64Max →
      r'.moduleMeta.revertEpoch = r.moduleMeta.revertEpoch + cuts)
    (hversion : r'.rowVersion = r.rowVersion + 1) (hcuts : cuts ≤ 1)
    (hgrows : cuts = 0 → s.compartments <+: s'.compartments) (hordered : s.Ordered → s'.Ordered) :
    Steps cuts s s' where
  epoch := by
    rw [SessionStore.revertEpoch, SessionStore.revertEpoch, SessionStore.load, SessionStore.load,
      hrow, hrow']
    exact hepoch
  version := by
    rw [SessionStore.rowVersion, SessionStore.rowVersion, hrow, hrow', Option.map_some,
      Option.map_some, Option.getD_some, Option.getD_some, hversion]
    omega
  grows := hgrows
  ordered := hordered

/-- A write of the row's metadata that keeps the epoch. -/
theorem steps_writeMeta {r : CacheRow} {m : ModuleMeta} (hrow : s.row = some r)
    (hepoch : m.revertEpoch = r.moduleMeta.revertEpoch) :
    Steps 0 s (writeMeta scanner r m s).2 := by
  refine .of_row hrow rfl ?_ rfl (Nat.zero_le _) (fun _ => List.prefix_refl _)
    fun h => ⟨h.disjoint, h.numbered⟩
  intro _
  rw [scanner.scan_revertEpoch, hepoch, Nat.add_zero]

theorem steps_commit {expected : Option Nat} {core : String} {m : ModuleMeta}
    (hback : s.version = expected → m.revertEpoch = s.revertEpoch) :
    Steps 0 s (commit scanner expected core m s).2 := by
  rw [commit]
  split
  · exact .refl s
  · rename_i hversion
    have hexpected := not_not.mp hversion
    refine ⟨?_, ?_, fun _ => List.prefix_refl _, fun h => ⟨h.disjoint, h.numbered⟩⟩
    · intro _
      change (scanner.scan m).revertEpoch = _
      rw [scanner.scan_revertEpoch, hback hexpected, Nat.add_zero]
    · rw [← hexpected]
      exact Nat.le_succ _

theorem steps_abandonIfMatching {predicate : HistorianPublishPredicate} {backoff : Option Int}
    {detail : Option String} {count : Bool} :
    Steps 0 s (abandonIfMatching scanner predicate backoff detail count s).2 := by
  rw [abandonIfMatching]
  split
  · exact .refl s
  · rename_i r hrow
    dsimp only
    split
    · exact .refl s
    · exact steps_writeMeta hrow rfl

theorem steps_recordPublishFailure {predicate : HistorianPublishPredicate} :
    Steps 0 s (recordPublishFailure scanner predicate s).2 := by
  rw [recordPublishFailure]
  split
  · exact .refl s
  · rename_i r hrow
    dsimp only
    split
    · exact .refl s
    · exact steps_writeMeta hrow rfl

/-- What a publication finds, and what it leaves. -/
structure ChunkPublished (scanner : Scanner) (request : PublishRequest) (s s' : SessionStore)
    (r : CacheRow) : Prop where
  row : s.row = some r
  version : request.expectedRowVersion = some r.rowVersion
  live : r.moduleMeta.historian.Live
  matching : request.predicate.matches r.moduleMeta.historian = true
  identities : ∀ selected ∈ request.predicate.selectedRangeIdentities,
    selected.changed r.moduleMeta = false
  epoch : r.moduleMeta.revertEpoch = request.expectedRevertEpoch
  generation : s.generation = request.predicate.compartmentSetGeneration
  appended : appendCompartments s.compartments (s.generation.maxSequence + 1)
    request.compartments = .ok s'.compartments
  stored : s'.row = some ⟨r.rowVersion + 1, r.core, scanner.scan { r.moduleMeta with
    publicationFloorOrdinal := some (max (r.moduleMeta.publicationFloorOrdinal.getD 1)
      (max request.publicationFloorOrdinal 1))
    historian := idleAfterSuccess r.moduleMeta.historian.firingSeq }⟩

/-- **A publication that succeeds** got past every fence. -/
theorem publishChunk_eq_ok {request : PublishRequest} {version : Nat}
    (h : publishChunk scanner request s = (.ok version, s')) :
    ∃ r, ChunkPublished scanner request s s' r ∧ version = r.rowVersion + 1 := by
  rw [publishChunk] at h
  split at h
  · cases h
  rename_i r hrow
  dsimp only at h
  split at h
  · cases h
  rename_i hversion
  split at h
  · cases h
  rename_i hphase
  split at h
  · cases h
  rename_i hmatches
  split at h
  · cases h
  split at h
  · cases h
  rename_i hidentities
  split at h
  · cases h
  rename_i hepoch
  split at h
  · cases h
  rename_i hgeneration
  split at h
  · cases h
  rename_i compartments happended
  cases h
  refine ⟨r, ⟨hrow, (not_not.mp hversion).symm, ?_, by simpa using hmatches, ?_,
    not_not.mp hepoch, not_not.mp hgeneration, happended, rfl⟩, rfl⟩
  · intro hidle
    exact hphase ⟨by rw [hidle]; rintro ⟨⟩, by rw [hidle]; rintro ⟨⟩⟩
  · intro selected hselected
    simpa using List.find?_eq_none.mp hidentities selected hselected

theorem ordered_append {ranges : List (Int × Int)}
    (h : appendCompartments s.compartments (s.generation.maxSequence + 1) ranges =
      .ok s'.compartments) (hs : s.Ordered) : s'.Ordered := by
  obtain ⟨hall, hdisjoint⟩ := appendCompartments_eq_ok h
  refine ⟨hdisjoint hs.disjoint, ?_⟩
  rw [hall, hs.numbered.maxSequence, numberedFrom_append, Int.add_comm 1]
  exact ⟨hs.numbered, numberedFrom_numbered _ _⟩

theorem steps_publishChunk {request : PublishRequest} {version : Nat}
    (h : publishChunk scanner request s = (.ok version, s')) : Steps 0 s s' := by
  obtain ⟨r, hpublished, -⟩ := publishChunk_eq_ok h
  refine .of_row hpublished.row hpublished.stored ?_ rfl (Nat.zero_le _) (fun _ => ?_)
    (ordered_append hpublished.appended)
  · intro _
    rw [scanner.scan_revertEpoch, Nat.add_zero]
  · rw [(appendCompartments_eq_ok hpublished.appended).1]
    exact List.prefix_append ..

/-- An item that is queued changes nothing but the queue. -/
theorem enqueue_eq_some {items : List PendingItem} (h : enqueue items st = some st') :
    st'.session = st.session := by
  induction items generalizing st with
  | nil =>
    cases h
    rfl
  | cons item items ih =>
    rw [enqueue] at h
    split at h
    · cases h
    · have hsession := ih h
      exact hsession

/-- A publication is one of the chunk, with the items queued, or writes nothing. -/
theorem publishHistorianChunk_cases {request : HistorianPublishRequest} {nowMs : Int}
    {result : Except HistorianPublishError Nat}
    (h : publishHistorianChunk scanner scanItem request nowMs st = (result, st')) :
    (∃ e, result = .error e ∧ st' = st) ∨
      ∃ version, result = .ok version ∧
        publishChunk scanner request.chunk st.session = (.ok version, st'.session) := by
  rw [publishHistorianChunk] at h
  split at h
  · cases h
    exact .inl ⟨_, rfl, rfl⟩
  · rename_i version session hchunk
    split at h
    · cases h
      exact .inl ⟨_, rfl, rfl⟩
    · rename_i st'' hqueued
      cases h
      exact .inr ⟨version, rfl, by rw [enqueue_eq_some hqueued, hchunk]⟩

theorem steps_truncateForRevert {keepThroughSeq : Int} {recut : String} {expected : Option Nat}
    {result : Except StoreError Nat}
    (h : truncateForRevert scanner keepThroughSeq recut expected st = (result, st')) :
    Steps (result.isOk && st.session.dropsAfter keepThroughSeq).toNat st.session st'.session := by
  rw [truncateForRevert] at h
  split at h
  · cases h
    exact .refl _
  rename_i version session htruncated
  split at h
  · rename_i hnone
    cases h
    rw [Bool.not_eq_true'] at hnone
    rw [hnone]
    exact .refl _
  · rename_i hdrops
    cases h
    rw [Bool.not_eq_true', Bool.not_eq_false] at hdrops
    rw [hdrops]
    rw [truncateCompartments] at htruncated
    split at htruncated
    · cases htruncated
    rename_i r hrow
    split at htruncated
    · cases htruncated
    split at htruncated
    · rename_i hnone
      rw [SessionStore.dropsAfter] at hdrops
      rw [hdrops] at hnone
      cases hnone
    · cases htruncated
      refine .of_row hrow rfl ?_ rfl (Nat.le_refl _) (by rintro ⟨⟩) fun hs =>
        ⟨hs.disjoint.filter _, hs.numbered.filter _⟩
      intro hle
      rw [scanner.scan_revertEpoch]
      exact Nat.min_eq_left hle

theorem steps_resetForRecomp {expected : Option Nat} {result : Except StoreError Nat}
    (h : resetForRecomp expected st = (result, st')) :
    Steps result.isOk.toNat st.session st'.session := by
  rw [resetForRecomp] at h
  split at h
  · cases h
    exact .refl _
  rename_i version session hreset
  cases h
  rw [resetSessionForRecomp] at hreset
  split at hreset
  · cases hreset
  rename_i r hrow
  split at hreset
  · cases hreset
  cases hreset
  exact .of_row hrow rfl (fun hle => Nat.min_eq_left hle) rfl (Nat.le_refl _) (by rintro ⟨⟩)
    fun _ => ⟨List.Pairwise.nil, trivial⟩

theorem steps_exec {op : HistorianOp} (hback : op.WritesBack st) :
    Steps (op.cuts scanner st).toNat st.session (op.exec scanner scanItem st).session := by
  cases op with
  | commit expected core m => exact steps_commit hback
  | abandonIfMatching predicate backoff detail count => exact steps_abandonIfMatching
  | recordPublishFailure predicate => exact steps_recordPublishFailure
  | publish request nowMs =>
    rcases hpublish : publishHistorianChunk scanner scanItem request nowMs st with ⟨result, st'⟩
    rw [HistorianOp.exec, hpublish]
    rcases publishHistorianChunk_cases hpublish with ⟨-, -, rfl⟩ | ⟨version, -, hchunk⟩
    · exact .refl _
    · exact steps_publishChunk hchunk
  | append ranges =>
    rw [HistorianOp.exec, appendAtTail]
    split
    · exact .refl _
    · rename_i compartments happended
      refine ⟨fun _ => rfl, Nat.le_refl _, fun _ => ?_, ordered_append happended⟩
      rw [(appendCompartments_eq_ok happended).1]
      exact List.prefix_append ..
  | truncate keepThroughSeq recut expected => exact steps_truncateForRevert rfl
  | reset expected => exact steps_resetForRecomp rfl

/-- **A run** raises the epoch once for each cut, and without a cut the history only grows. -/
theorem steps_run {ops : List HistorianOp} (hback : WritesBack scanner scanItem ops st) :
    Steps (cutCount scanner scanItem ops st) st.session
      (runOps scanner scanItem ops st).session := by
  induction ops generalizing st with
  | nil => exact .refl _
  | cons op ops ih => exact (steps_exec hback.1).trans (ih hback.2)

end Runs

/-! ## Numbers of an output -/

theorem sequence_of_map {chunk : HistorianChunk} {sequence : Nat} {cs : List ParsedCompartment}
    {vs : List ValidatedCompartment} (h : mapParsedCompartmentsToChunk chunk sequence cs = .ok vs)
    {k : Nat} {v : ValidatedCompartment} (hv : vs[k]? = some v) : v.sequence = sequence + k := by
  induction cs generalizing sequence vs k with
  | nil =>
    cases h
    cases hv
  | cons c cs ih =>
    rw [mapParsedCompartmentsToChunk] at h
    obtain ⟨mapped, hmapped, h⟩ := Checks.bind_eq_ok.mp h
    obtain ⟨rest, hrest, h⟩ := Checks.bind_eq_ok.mp h
    cases h
    cases k with
    | zero =>
      cases hv
      rw [mapParsedCompartment] at hmapped
      split at hmapped
      · split at hmapped
        · cases hmapped
        · cases hmapped
          rfl
      · cases hmapped
    | succ k =>
      rw [ih hrest hv]
      omega

/-- **The compartments of an output** are numbered from the offset on. -/
theorem sequence_of_validate {regexes : Regexes} {text : String} {chunk : HistorianChunk}
    {priorCompartments : List StoredCompartmentRange} {options : ValidateOptions}
    {validated : ValidatedOutput}
    (h : validateHistorianOutput regexes text chunk priorCompartments options = .ok validated)
    {k : Nat} {v : ValidatedCompartment} (hv : validated.compartments[k]? = some v) :
    v.sequence = options.sequenceOffset + k := by
  rw [validateHistorianOutput] at h
  split at h
  · cases h
  split at h
  · cases h
  obtain ⟨-, -, h⟩ := Checks.bind_eq_ok.mp h
  obtain ⟨parsed, -, h⟩ := Checks.bind_eq_ok.mp h
  split at h
  · cases h
  obtain ⟨emitted, hemitted, h⟩ := Checks.bind_eq_ok.mp h
  rw [(publishPlan_eq_ok h).1] at hv
  have hmap : ∃ cs, mapParsedCompartmentsToChunk chunk options.sequenceOffset cs = .ok emitted := by
    rw [checkHealed] at hemitted
    split at hemitted
    · cases hemitted
    rename_i hmap
    split at hemitted
    · cases hemitted
    split at hemitted
    · cases hemitted
    · cases hemitted
      exact ⟨_, hmap⟩
  obtain ⟨cs, hmap⟩ := hmap
  refine sequence_of_map hmap (k := k) ?_
  split at hv
  · rw [List.getElem?_dropLast] at hv
    split at hv
    · exact hv
    · cases hv
  · exact hv

/-- The compartment with which an event is stored. -/
theorem event_of_request {context : PublishContext} {expectedRowVersion : Option Nat}
    {expectedRevertEpoch : Nat} {predicate : HistorianPublishPredicate}
    {validated : ValidatedOutput} {event : HistorianEventCandidate} {sequence : Nat}
    (hevent : event ∈ (validatedRequest context expectedRowVersion expectedRevertEpoch predicate
      validated).events) (hsequence : event.compartmentId = some sequence) :
    ∃ k c, event.atCompartment = some (k + 1) ∧ validated.compartments[k]? = some c ∧
      c.sequence = sequence := by
  obtain ⟨parsed, -, rfl⟩ := List.mem_map.mp hevent
  rw [toStoreEvent, Option.map_eq_some_iff] at hsequence
  obtain ⟨c, hc, rfl⟩ := hsequence
  rw [sourceCompartment, Option.bind_eq_some_iff] at hc
  obtain ⟨index, hindex, hc⟩ := hc
  split at hc
  · cases hc
  · rename_i hne
    obtain ⟨k, rfl⟩ := Nat.exists_eq_succ_of_ne_zero hne
    exact ⟨k, c, hindex, hc, rfl⟩

/-! ## What is published -/

/-- The numbers are ones that the columns hold. -/
structure SessionStore.Fits (s : SessionStore) : Prop where
  version : s.rowVersion < 2 ^ 63
  sequence : ∀ c ∈ s.compartments, c.sequence < 2 ^ 63

/-- The stored identities of a message. -/
def SessionStore.blockIdentities (s : SessionStore) (mid : String) : Option (List String) :=
  (s.load.moduleMeta.blockIdentityByMid.find? fun entry => entry.1 == mid).map Prod.snd

/-- A publication for a firing that saw `st₁`, which found `st₂` and left `st₃`. -/
structure SeesFiring (scanner : Scanner) (scanItem : SideChannelPayload → SideChannelPayload)
    (firing : AssembledFiring) (validated : ValidatedOutput) (request : HistorianPublishRequest)
    (between : List HistorianOp) (st₁ st₂ st₃ : HistorianStore) : Prop where
  uncut : ∀ {ops op ops'}, between = ops ++ op :: ops' →
    op.cuts scanner (runOps scanner scanItem ops st₁) = false
  compartments : st₂.session.compartments = st₁.session.compartments
  identities : ∀ selected ∈ firing.selectedRangeIdentities,
    st₂.session.blockIdentities selected.mid = some selected.blockIdentities
  appended : st₃.session.compartments = st₂.session.compartments ++
    numbered (st₂.session.compartments.length + 1) request.chunk.compartments
  ordered : st₃.session.Ordered
  events : ∀ event ∈ request.events, ∀ sequence, event.compartmentId = some sequence →
    ∃ k c, event.atCompartment = some (k + 1) ∧ validated.compartments[k]? = some c ∧
      st₃.session.compartments[st₂.session.compartments.length + k]? =
        some ⟨sequence, c.startMessage, c.endMessage⟩
  floor : ∀ floor ∈ st₂.session.load.moduleMeta.publicationFloorOrdinal,
    ∃ floor' ∈ st₃.session.load.moduleMeta.publicationFloorOrdinal, floor ≤ floor'
  core : st₃.session.load.core = st₂.session.load.core
  marks : st₃.session.load.moduleMeta.marks = st₂.session.load.moduleMeta.marks

theorem getElem?_numbered (next : Int) (ranges : List (Int × Int)) (k : Nat) :
    (numbered next ranges)[k]? = ranges[k]?.map fun range => ⟨next + k, range.1, range.2⟩ := by
  induction ranges generalizing next k with
  | nil => rfl
  | cons range ranges ih =>
    cases k with
    | zero => simp [numbered]
    | succ k =>
      rw [numbered, List.getElem?_cons_succ, ih, List.getElem?_cons_succ]
      have hnext : next + 1 + (k : Int) = next + ((k + 1 : Nat) : Int) := by omega
      rw [hnext]

section Publishing
variable {scanner : Scanner} {scanItem : SideChannelPayload → SideChannelPayload}
  {before between : List HistorianOp} {st₁ st₂ : HistorianStore}

theorem ordered_empty : (SessionStore.Ordered {}) := ⟨List.Pairwise.nil, trivial⟩

/-- An epoch that is the same again was never raised. -/
theorem cutCount_eq_zero (hbefore : WritesBack scanner scanItem before {})
    (hst₁ : runOps scanner scanItem before {} = st₁)
    (hbetween : WritesBack scanner scanItem between st₁)
    (hst₂ : runOps scanner scanItem between st₁ = st₂) (hfits : st₂.session.rowVersion < 2 ^ 63)
    (hepoch : st₂.session.revertEpoch = st₁.session.revertEpoch) :
    cutCount scanner scanItem between st₁ = 0 := by
  have hsteps₁ := steps_run hbefore
  have hsteps₂ := steps_run hbetween
  rw [hst₁] at hsteps₁
  rw [hst₂] at hsteps₂
  have hversion₁ := hsteps₁.version
  have hversion₂ := hsteps₂.version
  have hzero : (HistorianStore.session {}).revertEpoch = 0 := rfl
  have hmax : (2 : Nat) ^ 63 ≤ u64Max := by decide
  have hepoch₁ := hsteps₁.epoch (by omega)
  have hepoch₂ := hsteps₂.epoch (by omega)
  omega

/-- **What is published is what the firing was about.**  The firing read `st₁`; its output was
validated with the number that the next compartment had in `stᵣ`. -/
theorem publication_sees_firing {toRead toPublish : List HistorianOp} {stᵣ : HistorianStore}
    {identityByMid : List (String × List String)} {mids : List String} {firing : AssembledFiring}
    {regexes : Regexes} {text : String} {chunk : HistorianChunk}
    {priorCompartments : List StoredCompartmentRange} {options : ValidateOptions}
    {validated : ValidatedOutput} (context : PublishContext) (expectedRowVersion : Option Nat)
    (predicate : HistorianPublishPredicate) (nowMs : Int)
    (hbefore : WritesBack scanner scanItem before {})
    (hst₁ : runOps scanner scanItem before {} = st₁)
    (hassembled : assembleFiring identityByMid mids st₁.session = .ok firing)
    (hidentities : predicate.selectedRangeIdentities = firing.selectedRangeIdentities)
    (hgeneration : predicate.compartmentSetGeneration = firing.compartmentSetGeneration)
    (hread : WritesBack scanner scanItem toRead st₁)
    (hstᵣ : runOps scanner scanItem toRead st₁ = stᵣ)
    (hoffset : options.sequenceOffset = sequenceOffset stᵣ.session.compartments ∨
      options.sequenceOffset = reattachSequenceOffset stᵣ.session.compartments)
    (hvalidated : validateHistorianOutput regexes text chunk priorCompartments options =
      .ok validated)
    (hpublish : WritesBack scanner scanItem toPublish stᵣ)
    (hst₂ : runOps scanner scanItem toPublish stᵣ = st₂) (hfits : st₂.session.Fits)
    {request : HistorianPublishRequest} (hrequest : validatedRequest context expectedRowVersion
      firing.expectedRevertEpoch predicate validated = request)
    {result : Except HistorianPublishError Nat} {st₃ : HistorianStore}
    (hresult : publishHistorianChunk scanner scanItem request nowMs st₂ = (result, st₃)) :
    (∃ e, result = .error e ∧ st₃ = st₂) ∨
      ∃ version, result = .ok version ∧
        SeesFiring scanner scanItem firing validated request (toRead ++ toPublish) st₁ st₂ st₃ := by
  obtain ⟨-, hepoch, hsetGeneration, -⟩ := assembleFiring_eq_ok hassembled
  have hbetween : WritesBack scanner scanItem (toRead ++ toPublish) st₁ :=
    writesBack_append.mpr ⟨hread, by rw [hstᵣ]; exact hpublish⟩
  have hst : runOps scanner scanItem (toRead ++ toPublish) st₁ = st₂ := by
    rw [runOps_append, hstᵣ, hst₂]
  rcases publishHistorianChunk_cases hresult with hrejected | ⟨version, hversion, hchunk⟩
  · exact .inl hrejected
  refine .inr ⟨version, hversion, ?_⟩
  obtain ⟨r, hpublished, -⟩ := publishChunk_eq_ok hchunk
  have hload₂ : st₂.session.load = ⟨r.core, r.moduleMeta, some r.rowVersion⟩ := by
    rw [SessionStore.load, hpublished.row]
  have hload₃ : st₃.session.load.core = r.core ∧
      st₃.session.load.moduleMeta.marks = r.moduleMeta.marks ∧
      st₃.session.load.moduleMeta.publicationFloorOrdinal =
        some (max (r.moduleMeta.publicationFloorOrdinal.getD 1)
          (max request.chunk.publicationFloorOrdinal 1)) := by
    rw [SessionStore.load, hpublished.stored]
    exact ⟨rfl, scanner.scan_marks _, scanner.scan_publicationFloorOrdinal _⟩
  -- The epoch is the one that the firing read, so nothing was cut.
  have hsame : st₂.session.revertEpoch = st₁.session.revertEpoch := by
    rw [SessionStore.revertEpoch, hload₂, ← hepoch]
    exact hpublished.epoch.trans (hrequest ▸ rfl)
  have huncut := cutCount_eq_zero hbefore hst₁ hbetween hst hfits.version hsame
  have hgrows := (steps_run hbetween).grows huncut
  rw [hst] at hgrows
  -- The count is the one that the firing read, so nothing was appended.
  have hcount : st₂.session.generation = st₁.session.generation := by
    rw [hpublished.generation, ← hsetGeneration, ← hgeneration, ← hrequest]
    rfl
  have hlength : st₁.session.compartments.length = st₂.session.compartments.length :=
    Int.ofNat.inj (congrArg CompartmentSetGeneration.count hcount).symm
  have hcompartments : st₂.session.compartments = st₁.session.compartments :=
    (hgrows.eq_of_length hlength).symm
  have hordered : st₂.session.Ordered := by
    have hsteps := (steps_run hbefore).ordered ordered_empty
    rw [hst₁] at hsteps
    exact hst ▸ (steps_run hbetween).ordered hsteps
  have happended : st₃.session.compartments = st₂.session.compartments ++
      numbered (st₂.session.compartments.length + 1) request.chunk.compartments := by
    rw [(appendCompartments_eq_ok hpublished.appended).1, hordered.numbered.maxSequence]
  refine ⟨cuts_of_cutCount huncut, hcompartments, fun selected hselected => ?_, happended,
    ordered_append hpublished.appended hordered, fun event hevent sequence hsequence => ?_,
    fun floor hfloor => ?_, hload₃.1.trans (by rw [hload₂]), hload₃.2.1.trans (by rw [hload₂])⟩
  · rw [← hidentities] at hselected
    have hchanged := hpublished.identities selected (hrequest ▸ hselected)
    rw [SessionStore.blockIdentities, hload₂]
    simpa [HistorianSelectedMessageIdentity.changed] using hchanged
  · rw [← hrequest] at hevent
    obtain ⟨k, c, hat, hc, rfl⟩ := event_of_request hevent hsequence
    refine ⟨k, c, hat, hc, ?_⟩
    -- The offset was read from the same compartments.
    have hreadLength : stᵣ.session.compartments.length = st₂.session.compartments.length := by
      rw [cutCount_append, hstᵣ] at huncut
      have hgrows₁ := ((steps_run hread).grows (by omega)).length_le
      have hgrows₂ := ((steps_run hpublish).grows (by omega)).length_le
      rw [hstᵣ] at hgrows₁
      rw [hst₂] at hgrows₂
      omega
    have hlt : st₂.session.compartments.length < u64Max := by
      have hmax : (2 : Nat) ^ 63 ≤ u64Max := by decide
      by_cases hne : st₂.session.compartments = []
      · rw [hne]
        decide
      · obtain ⟨last, hlast, hnumber⟩ := hordered.numbered.exists_last hne
        have := hfits.sequence last hlast
        omega
    have hnumberedᵣ : NumberedFrom 1 stᵣ.session.compartments := by
      have hordered₁ := (steps_run hbefore).ordered ordered_empty
      rw [hst₁] at hordered₁
      exact hstᵣ ▸ ((steps_run hread).ordered hordered₁).numbered
    have hsequence : c.sequence = st₂.session.compartments.length + 1 + k := by
      rw [sequence_of_validate hvalidated hc]
      rcases hoffset with hoffset | hoffset
      · rw [hoffset, hnumberedᵣ.sequenceOffset (by omega), hreadLength]
      · rw [hoffset, reattachSequenceOffset, hreadLength]
    rw [happended, List.getElem?_append_right (Nat.le_add_right ..), Nat.add_sub_cancel_left,
      getElem?_numbered, ← hrequest]
    simp [HistorianPublishRequest.chunk, validatedRequest, toStoredCompartment, hc, hsequence]
  · rw [hload₂] at hfloor
    refine ⟨_, hload₃.2.2, ?_⟩
    rw [Option.mem_def.mp hfloor, Option.getD_some]
    exact Nat.le_max_left ..

end Publishing

/-! ## A firing that is published -/

namespace Sample

def identities : List (String × List String) := [("a#0", ["text"])]

def minted : HistorianOp := .commit none "core" { blockIdentityByMid := identities }

/-- The record of a firing whose output is about to be published. -/
def publishing : HistorianDurableState where
  state := .publishing
  firingSeq := 1
  chunkFingerprint := "fp"
  selectedRangeIdentities := [⟨"a#0", ["text"]⟩]
  producerRunId := some "run"

def recorded : HistorianOp :=
  .commit (some 1) "core" { blockIdentityByMid := identities, historian := publishing }

def predicate : HistorianPublishPredicate where
  firingSeq := 1
  producerRunId := "run"
  chunkFingerprint := "fp"
  selectedRangeIdentities := [⟨"a#0", ["text"]⟩]
  compartmentSetGeneration := {}

def assembled : AssembledFiring where
  selectedRangeIdentities := [⟨"a#0", ["text"]⟩]
  expectedRevertEpoch := 0
  compartmentSetGeneration := {}
  sequenceOffset := 1

/-- The output of the sample chunk, for a session without compartments. -/
def validated : ValidatedOutput :=
  { sampleValidated with
    compartments := sampleValidated.compartments.map fun c => { c with sequence := 1 } }

def context : PublishContext := ⟨"ses", "project", false, 7⟩

/-- The session that the firing reads, and the one that its publication finds. -/
def seen : HistorianStore := runOps unscanned id [minted] {}

def found : HistorianStore := runOps unscanned id [recorded] seen

def publishRequest : HistorianPublishRequest :=
  validatedRequest context (some 2) assembled.expectedRevertEpoch predicate validated

theorem assembled_seen : assembleFiring identities ["a#0"] seen.session = .ok assembled := by
  decide

theorem validate_numbered :
    validateHistorianOutput sampleRegexes sampleText sampleChunk []
      { sampleOptions with sequenceOffset := 1 } = .ok validated := by
  decide +kernel

theorem published_sees_firing :
    ∃ version st₃, publishHistorianChunk unscanned id publishRequest 7 found = (.ok version, st₃) ∧
      SeesFiring unscanned id assembled validated publishRequest [recorded] seen found st₃ := by
  have hminted : WritesBack unscanned id [minted] {} := ⟨fun _ => rfl, trivial⟩
  have hrecorded : WritesBack unscanned id [recorded] seen := ⟨fun _ => rfl, trivial⟩
  have hnone : WritesBack unscanned id [] seen := trivial
  have hfits : found.session.Fits := ⟨by decide, nofun⟩
  have hok : (publishHistorianChunk unscanned id publishRequest 7 found).1.isOk = true := by
    decide +kernel
  rcases hresult : publishHistorianChunk unscanned id publishRequest 7 found with ⟨result, st₃⟩
  rcases publication_sees_firing context (some 2) predicate 7 hminted rfl assembled_seen rfl rfl
    hnone rfl (.inl (by decide)) validate_numbered hrecorded rfl hfits rfl hresult with
    ⟨e, rfl, -⟩ | ⟨version, rfl, hsees⟩
  · rw [hresult] at hok
    cases hok
  · exact ⟨version, st₃, rfl, hsees⟩

end Sample

end MagicContext.Historian
