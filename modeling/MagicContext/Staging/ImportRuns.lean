import MagicContext.Staging.StateImports

/-!
# What state imports keep

An operation of the coordinator changes one session, except that a batch first evicts what is
stale.  The counters follow the sessions, a session holds what its attempt delivered first under
each sequence number, and the compartments it holds are in order.

## What is here

* `Ordered` — compartments with increasing sequences and disjoint ascending ranges.
* `Accounted`, `Collected` — the counters, and the compartments of a session.
* `Staged`, `stage_cases` — all that a batch can come to, once what is stale is evicted.
* `Held` — what every operation keeps of the counters.
-/

namespace MagicContext.StateImports

open StateImportCoordinator Entries

/-! ## Order -/

/-- One compartment before another. -/
def Before (a b : StoredCompartment) : Prop :=
  a.sequence < b.sequence ∧ a.endMessage < b.startMessage

structure Ordered (compartments : List StoredCompartment) : Prop where
  pairwise : compartments.Pairwise Before
  proper : ∀ a ∈ compartments, a.startMessage ≤ a.endMessage

theorem ordered_nil : Ordered [] := ⟨.nil, fun _ h => absurd h List.not_mem_nil⟩

theorem Before.trans {a b c : StoredCompartment} (hab : Before a b)
    (hb : b.startMessage ≤ b.endMessage) (hbc : Before b c) : Before a c :=
  ⟨hab.1.trans hbc.1, lt_of_lt_of_le hab.2 (hb.trans hbc.2.le)⟩

theorem borderError_eq_none {a b : StoredCompartment} (h : borderError a b = none) :
    Before a b := by
  unfold borderError at h
  split at h
  · cases h
  · rename_i hsequence
    split at h
    · cases h
    · rename_i hrange
      exact ⟨not_le.mp hsequence, not_le.mp hrange⟩

theorem compartmentError_eq_none {a : StoredCompartment} (h : compartmentError a = none) :
    a.startMessage ≤ a.endMessage := by
  unfold compartmentError at h
  split at h
  · cases h
  · rename_i hrange
    exact not_lt.mp hrange

variable {compartments : List StoredCompartment} {phase : StateImportPhase}

/-- Put after compartments in order, a compartment that comes after the last. -/
theorem Ordered.cons {a : StoredCompartment} (ha : a.startMessage ≤ a.endMessage)
    (h : Ordered compartments) (hhead : ∀ b ∈ compartments.head?, Before a b) :
    Ordered (a :: compartments) where
  pairwise := by
    refine List.pairwise_cons.mpr ⟨fun c hc => ?_, h.pairwise⟩
    cases compartments with
    | nil => cases hc
    | cons b compartments =>
      have hab := hhead b rfl
      rcases List.mem_cons.mp hc with rfl | hc
      · exact hab
      · exact hab.trans (h.proper b (List.mem_cons_self ..))
          ((List.pairwise_cons.mp h.pairwise).1 c hc)
  proper b hb := by
    rcases List.mem_cons.mp hb with rfl | hb
    · exact ha
    · exact h.proper b hb

theorem ordered_of_validateAfter {previous : Option StoredCompartment}
    (h : validateAfter previous compartments = none) :
    Ordered compartments ∧ ∀ p ∈ previous, ∀ b ∈ compartments.head?, Before p b := by
  induction compartments generalizing previous with
  | nil => exact ⟨ordered_nil, fun p _ b hb => by cases hb⟩
  | cons a compartments ih =>
    rw [validateAfter, Option.or_eq_none_iff, Option.or_eq_none_iff] at h
    obtain ⟨hself, hborder, hrest⟩ := h
    obtain ⟨hordered, hhead⟩ := ih hrest
    refine ⟨hordered.cons (compartmentError_eq_none hself) (hhead a rfl), ?_⟩
    rintro p hp b hb
    cases hb
    rw [hp, Option.bind_some] at hborder
    exact borderError_eq_none hborder

theorem ordered_of_validate (h : validateStateImportCompartments compartments = none) :
    Ordered compartments :=
  (ordered_of_validateAfter h).1

/-- Two stretches in order whose border is in order. -/
theorem Ordered.append {staged next : List StoredCompartment} (hstaged : Ordered staged)
    (hnext : Ordered next) (hseam : seamError staged next = none) :
    Ordered (staged ++ next) := by
  induction staged with
  | nil => exact hnext
  | cons a staged ih =>
    have hproper := hstaged.proper a (List.mem_cons_self ..)
    have htail : Ordered staged :=
      ⟨(List.pairwise_cons.mp hstaged.pairwise).2,
        fun b hb => hstaged.proper b (List.mem_cons_of_mem _ hb)⟩
    cases staged with
    | nil =>
      refine hnext.cons hproper fun b hb => ?_
      have hb : next.head? = some b := hb
      rw [seamError, hb] at hseam
      exact borderError_eq_none hseam
    | cons b staged =>
      rw [seamError, List.getLast?_cons_cons] at hseam
      refine (ih htail hseam).cons hproper fun b' hb' => ?_
      cases hb'
      exact (List.pairwise_cons.mp hstaged.pairwise).1 b (List.mem_cons_self ..)

/-! ## The counters -/

/-- The counters are the number and the bytes of the imports in the map. -/
structure Accounted (c : StateImportCoordinator) : Prop where
  pending : c.pendingImportCount = c.sessions.size fun _ => true
  bytes : c.totalStagedBytes = c.sessions.load phaseBytes

/-- One session with another import, and other counters. -/
def StateImportCoordinator.replace (c : StateImportCoordinator) (session : String)
    (phase : StateImportPhase) (pendingImportCount totalStagedBytes : Nat) :
    StateImportCoordinator :=
  { c with sessions := c.sessions.set session phase, pendingImportCount, totalStagedBytes }

section Counters
variable {c : StateImportCoordinator} {session : String}

/-- What a session with an import counts for. -/
def slots (phase : Option StateImportPhase) : Nat := (phase.map fun _ => 1).getD 0

def stagedBytes (phase : Option StateImportPhase) : Nat := (phase.map phaseBytes).getD 0

theorem Accounted.count (h : Accounted c) : c.pendingImportCount = c.sessions.load fun _ => 1 :=
  h.pending.trans (size_eq_load _ _)

theorem Accounted.replace (h : Accounted c) {n b : Nat}
    (hn : n + slots (c.sessions.find session) = c.pendingImportCount + 1)
    (hb : b + stagedBytes (c.sessions.find session) = c.totalStagedBytes + phaseBytes phase) :
    Accounted (c.replace session phase n b) := by
  have hcount := h.count
  have hbytes := h.bytes
  constructor
  · have hload := c.sessions.load_set session phase fun _ => 1
    rw [size_eq_load]
    change n = (c.sessions.set session phase).load fun _ => 1
    unfold slots at hn
    omega
  · have hload := c.sessions.load_set session phase phaseBytes
    change b = (c.sessions.set session phase).load phaseBytes
    unfold stagedBytes at hb
    omega

theorem Accounted.drop (h : Accounted c) (hfind : c.sessions.find session = some phase) :
    Accounted ((c.remove session).release (phaseBytes phase)) := by
  have hcount := h.count
  have hbytes := h.bytes
  have hslot := c.sessions.load_erase session fun _ => 1
  have hload := c.sessions.load_erase session phaseBytes
  rw [hfind] at hslot hload
  simp only [Option.map_some, Option.getD_some] at hslot hload
  constructor
  · rw [size_eq_load]
    change c.pendingImportCount - 1 = (c.sessions.erase session).load fun _ => 1
    omega
  · change c.totalStagedBytes - phaseBytes phase = (c.sessions.erase session).load phaseBytes
    omega

theorem Accounted.discard (h : Accounted c) : Accounted (c.discard session) := by
  unfold StateImportCoordinator.discard
  cases hfind : c.sessions.find session with
  | none => exact h
  | some phase => exact h.drop hfind

end Counters

/-! ## Discards and evictions -/

theorem find_discard (c : StateImportCoordinator) (session other : String) :
    (c.discard session).sessions.find other =
      if session = other then none else c.sessions.find other := by
  unfold StateImportCoordinator.discard
  cases hfind : c.sessions.find session with
  | none =>
    dsimp only
    split
    · rename_i h
      rw [← h, hfind]
    · rfl
  | some phase => exact find_erase ..

theorem find_foldl_discard (sessions : List String) (c : StateImportCoordinator) (other : String) :
    (sessions.foldl discard c).sessions.find other =
      if other ∈ sessions then none else c.sessions.find other := by
  induction sessions generalizing c with
  | nil => rfl
  | cons session sessions ih =>
    rw [List.foldl_cons, ih, find_discard]
    by_cases hmem : other ∈ sessions
    · simp [hmem]
    · by_cases heq : session = other
      · simp [heq]
      · have heq' : other ≠ session := fun h => heq h.symm
        simp [hmem, heq, heq']

variable {now : Nat} {b : Batch} {pending : PendingStateImport} {accepted : List Batch}
  {log : List Record} {outcome : Except StateImportStageError StateImportStageOutcome}

variable {c c' : StateImportCoordinator} {session : String}

theorem mem_staleSessions : session ∈ c.staleSessions now ↔
      ∃ phase, c.sessions.find session = some phase ∧ c.Stale now phase := by
  rw [staleSessions, List.mem_filterMap]
  constructor
  · rintro ⟨⟨session', phase⟩, hmem, hstale⟩
    split at hstale
    · rename_i h
      cases hstale
      exact ⟨phase, find_eq_some.mpr hmem, h⟩
    · cases hstale
  · rintro ⟨phase, hfind, hstale⟩
    exact ⟨(session, phase), find_eq_some.mp hfind, if_pos hstale⟩

/-- What is stale goes, and the rest stays. -/
theorem find_evictStale (c : StateImportCoordinator) (now : Nat) (session : String) :
    (c.evictStale now).sessions.find session = c.sessions.find session ∨
      (c.evictStale now).sessions.find session = none ∧
        ∃ phase, c.sessions.find session = some phase ∧ c.Stale now phase := by
  rw [evictStale, find_foldl_discard]
  split
  · rename_i h
    exact .inr ⟨rfl, mem_staleSessions.mp h⟩
  · exact .inl rfl

/-! ## One batch -/

def PendingStateImport.add (pending : PendingStateImport) (b : Batch) (now : Nat) :
    PendingStateImport :=
  { pending with
    bytes := pending.bytes + b.bytes
    nextSeq := pending.nextSeq + 1
    digests := pending.digests ++ [b.digest]
    compartments := pending.compartments ++ b.compartments
    lastActivity := now }

def Batch.opening (b : Batch) (now : Nat) : PendingStateImport where
  importId := b.importId
  batchCount := b.batchCount
  nextSeq := 1
  digests := [b.digest]
  compartments := b.compartments
  bytes := b.bytes
  lastActivity := now

def SameAttempt (pending : PendingStateImport) (b : Batch) : Prop :=
  pending.importId = b.importId ∧ pending.batchCount = b.batchCount

/-- All that staging a batch can come to, once what is stale is evicted. -/
inductive Staged (c : StateImportCoordinator) (b : Batch) (now : Nat) :
    Except StateImportStageError StateImportStageOutcome → StateImportCoordinator → Prop where
  | refused {error : StateImportStageError} (hnone : c.sessions.find b.session = none) :
      Staged c b now (.error error) c
  | busy {id : String} {bytes : Nat}
      (hfind : c.sessions.find b.session = some (.applying id bytes)) :
      Staged c b now (.error StateImportCoordinator.inProgress)
        (c.replace b.session (.applying id bytes) c.pendingImportCount c.totalStagedBytes)
  | dropped {error : StateImportStageError} {pending : PendingStateImport}
      (hfind : c.sessions.find b.session = some (.collecting pending))
      (herror : error ≠ StateImportCoordinator.inProgress) :
      Staged c b now (.error error) ((c.remove b.session).release pending.bytes)
  | began (hnone : c.sessions.find b.session = none) (hseq : b.batchSeq = 0)
      (hcap : c.pendingImportCount < c.maxPendingImports)
      (hfits : c.totalStagedBytes + b.bytes ≤ c.maxStagedBytes) :
      Staged c b now (.ok (.staged b.compartments.length))
        (c.replace b.session (.collecting (b.opening now)) (c.pendingImportCount + 1)
          (c.totalStagedBytes + b.bytes))
  | whole (hnone : c.sessions.find b.session = none) (hseq : b.batchSeq = 0)
      (hcap : c.pendingImportCount < c.maxPendingImports)
      (hfits : c.totalStagedBytes + b.bytes ≤ c.maxStagedBytes) (hlast : b.batchCount = 1) :
      Staged c b now (.ok (.apply b.importId b.compartments))
        (c.replace b.session (.applying b.importId b.bytes) (c.pendingImportCount + 1)
          (c.totalStagedBytes + b.bytes))
  | redelivered {pending : PendingStateImport}
      (hfind : c.sessions.find b.session = some (.collecting pending))
      (hsame : SameAttempt pending b) (hseq : b.batchSeq < pending.nextSeq) :
      Staged c b now (.ok (.staged pending.compartments.length))
        (c.replace b.session (.collecting { pending with lastActivity := now })
          c.pendingImportCount c.totalStagedBytes)
  | added {pending : PendingStateImport}
      (hfind : c.sessions.find b.session = some (.collecting pending))
      (hsame : SameAttempt pending b) (hseq : b.batchSeq = pending.nextSeq)
      (hseam : StateImportCoordinator.seamError pending.compartments b.compartments = none)
      (hfits : c.totalStagedBytes + b.bytes ≤ c.maxStagedBytes) :
      Staged c b now (.ok (.staged (pending.add b now).compartments.length))
        (c.replace b.session (.collecting (pending.add b now)) c.pendingImportCount
          (c.totalStagedBytes + b.bytes))
  | completed {pending : PendingStateImport}
      (hfind : c.sessions.find b.session = some (.collecting pending))
      (hsame : SameAttempt pending b) (hseq : b.batchSeq = pending.nextSeq)
      (hseam : StateImportCoordinator.seamError pending.compartments b.compartments = none)
      (hfits : c.totalStagedBytes + b.bytes ≤ c.maxStagedBytes)
      (hlast : b.batchSeq + 1 = b.batchCount) :
      Staged c b now (.ok (.apply b.importId (pending.add b now).compartments))
        (c.replace b.session (.applying b.importId (pending.add b now).bytes)
          c.pendingImportCount (c.totalStagedBytes + b.bytes))

theorem stageFirst_cases (now : Nat) (hnone : c.sessions.find b.session = none) :
    Staged c b now (c.stageFirst b now).1 (c.stageFirst b now).2 := by
  unfold stageFirst
  by_cases hseq : b.batchSeq ≠ 0
  · rw [if_pos hseq]
    exact .refused hnone
  rw [if_neg hseq]
  by_cases hcap : c.maxPendingImports ≤ c.pendingImportCount
  · rw [if_pos hcap]
    exact .refused hnone
  rw [if_neg hcap]
  by_cases hover : c.Overflows 0 b.bytes
  · rw [if_pos hover]
    exact .refused hnone
  rw [if_neg hover]
  have hfits : c.totalStagedBytes + b.bytes ≤ c.maxStagedBytes :=
    Nat.le_of_not_lt fun hlt => hover (.inr hlt)
  by_cases hlast : b.batchCount = 1
  · rw [if_pos hlast]
    exact .whole hnone (not_not.mp hseq) (Nat.lt_of_not_le hcap) hfits hlast
  · rw [if_neg hlast]
    exact .began hnone (not_not.mp hseq) (Nat.lt_of_not_le hcap) hfits

theorem replace_of_remove (c : StateImportCoordinator) (session : String)
    (phase : StateImportPhase) :
    (c.remove session).insert session phase =
      c.replace session phase c.pendingImportCount c.totalStagedBytes := by
  simp [StateImportCoordinator.remove, StateImportCoordinator.insert,
    StateImportCoordinator.replace, set_erase]

theorem stageNext_cases (now : Nat)
    (hfind : c.sessions.find b.session = some (.collecting pending)) :
    Staged c b now (c.stageNext pending b now).1 (c.stageNext pending b now).2 := by
  have hdropped : ∀ error, error ≠ StateImportCoordinator.inProgress →
      Staged c b now (.error error) ((c.remove b.session).release pending.bytes) :=
    fun error herror => .dropped hfind herror
  unfold StateImportCoordinator.stageNext
  by_cases hother : pending.importId ≠ b.importId ∨ pending.batchCount ≠ b.batchCount
  · rw [if_pos hother]
    exact hdropped _ (by decide)
  rw [if_neg hother]
  have hsame : SameAttempt pending b := by
    rw [not_or, not_not, not_not] at hother
    exact hother
  by_cases hbefore : b.batchSeq < pending.nextSeq
  · rw [if_pos hbefore]
    by_cases hdigest : pending.digests[b.batchSeq]? = some b.digest
    · rw [if_pos hdigest, replace_of_remove]
      exact .redelivered hfind hsame hbefore
    · rw [if_neg hdigest]
      exact hdropped _ (by decide)
  rw [if_neg hbefore]
  by_cases hafter : pending.nextSeq < b.batchSeq
  · rw [if_pos hafter]
    exact hdropped _ (by decide)
  rw [if_neg hafter]
  have hseq : b.batchSeq = pending.nextSeq := by omega
  cases hseam : StateImportCoordinator.seamError pending.compartments b.compartments with
  | some error => exact hdropped _ nofun
  | none =>
    by_cases hover : (c.remove b.session).Overflows pending.bytes b.bytes
    · rw [if_pos hover]
      exact hdropped _ (by decide)
    rw [if_neg hover]
    have hfits : c.totalStagedBytes + b.bytes ≤ c.maxStagedBytes :=
      Nat.le_of_not_lt fun hlt => hover (.inr hlt)
    by_cases hlast : b.batchSeq + 1 = b.batchCount
    · rw [if_pos hlast]
      have h := @Staged.completed c b now _ hfind hsame hseq hseam hfits hlast
      simpa [StateImportCoordinator.replace, StateImportCoordinator.remove,
        StateImportCoordinator.insert, set_erase, PendingStateImport.add] using h
    · rw [if_neg hlast]
      have h := @Staged.added c b now _ hfind hsame hseq hseam hfits
      simpa [StateImportCoordinator.replace, StateImportCoordinator.remove,
        StateImportCoordinator.insert, set_erase, PendingStateImport.add] using h

theorem stage_cases (c : StateImportCoordinator) (b : Batch) (now : Nat) :
    Staged (c.evictStale now) b now (c.stage b now).1 (c.stage b now).2 := by
  unfold stage
  dsimp only
  cases hfind : (c.evictStale now).sessions.find b.session with
  | none => exact stageFirst_cases now hfind
  | some phase =>
    cases phase with
    | collecting pending => exact stageNext_cases now hfind
    | applying id bytes =>
      dsimp only
      rw [replace_of_remove]
      exact .busy hfind

/-! ## Attempts -/

/-- The batches a session accepted since it last had nothing staged. -/
def attempt (session : String) : List Record → List Batch
  | [] => []
  | .staged b outcome :: log =>
    if b.session = session then
      match outcome with
      | .ok _ => attempt session log ++ [b]
      | .error error =>
        if error = StateImportCoordinator.inProgress then attempt session log else []
    else attempt session log
  | .dropped other :: log => if other = session then [] else attempt session log

/-- The first batch of an attempt with a sequence number. -/
def firstAt (accepted : List Batch) (k : Nat) : Option Batch :=
  accepted.find? fun b => decide (b.batchSeq = k)

/-- These batches came first in the attempt under the sequence numbers from 0 on. -/
def FirstOf (batches accepted : List Batch) : Prop :=
  ∀ k < batches.length, firstAt accepted k = batches[k]?

theorem firstAt_append {k : Nat} {b b' : Batch} (h : firstAt accepted k = some b) :
    firstAt (accepted ++ [b']) k = some b := by
  rw [firstAt, List.find?_append]
  change (firstAt accepted k).or _ = _
  rw [h, Option.some_or]

theorem FirstOf.append {batches accepted : List Batch} (h : FirstOf batches accepted) (b : Batch) :
    FirstOf batches (accepted ++ [b]) := by
  intro k hk
  rw [List.getElem?_eq_getElem hk]
  exact firstAt_append ((h k hk).trans (List.getElem?_eq_getElem hk))

theorem FirstOf.add {batches accepted : List Batch} (h : FirstOf batches accepted)
    (hseq : b.batchSeq = batches.length) (hbelow : ∀ b' ∈ accepted, b'.batchSeq < batches.length) :
    FirstOf (batches ++ [b]) (accepted ++ [b]) := by
  intro k hk
  rw [List.length_append, List.length_singleton] at hk
  by_cases hlast : k < batches.length
  · rw [List.getElem?_append_left hlast]
    exact h.append b k hlast
  · have hk : k = batches.length := by omega
    subst hk
    have hnone : accepted.find? (fun b' => decide (b'.batchSeq = batches.length)) = none := by
      refine List.find?_eq_none.mpr fun b' hb' heq => ?_
      have hlt := hbelow b' hb'
      have := of_decide_eq_true heq
      omega
    rw [firstAt, List.find?_append, hnone]
    simp [hseq]

/-- What is pending of an attempt: the compartments of the batches that came first, in order. -/
structure Collected (pending : PendingStateImport) (accepted : List Batch) : Prop where
  batches : ∃ batches : List Batch, batches.length = pending.nextSeq ∧ FirstOf batches accepted ∧
    (∀ b ∈ batches, SameAttempt pending b) ∧
    pending.compartments = batches.flatMap Batch.compartments
  below : ∀ b ∈ accepted, b.batchSeq < pending.nextSeq
  ordered : Ordered pending.compartments

theorem collected_opening (hseq : b.batchSeq = 0) (hordered : Ordered b.compartments) (now : Nat) :
    Collected (b.opening now) [b] where
  batches := by
    refine ⟨[b], rfl, ?_, ?_, ?_⟩
    · have hnil : FirstOf [] [] := fun k hk => absurd hk (Nat.not_lt_zero k)
      exact hnil.add hseq fun b' hb' => absurd hb' List.not_mem_nil
    · intro b' hb'
      rw [List.mem_singleton.mp hb']
      exact ⟨rfl, rfl⟩
    · simp [Batch.opening]
  below b' hb' := by
    rw [List.mem_singleton.mp hb', hseq]
    exact Nat.one_pos
  ordered := hordered

theorem Collected.redelivered (h : Collected pending accepted)
    (hseq : b.batchSeq < pending.nextSeq) (now : Nat) :
    Collected { pending with lastActivity := now } (accepted ++ [b]) where
  batches := by
    obtain ⟨batches, hlength, hfirst, hsame, hcompartments⟩ := h.batches
    exact ⟨batches, hlength, hfirst.append b, hsame, hcompartments⟩
  below b' hb' := by
    rcases List.mem_append.mp hb' with hb' | hb'
    · exact h.below b' hb'
    · rw [List.mem_singleton.mp hb']
      exact hseq
  ordered := h.ordered

theorem Collected.add (h : Collected pending accepted) (hsame : SameAttempt pending b)
    (hseq : b.batchSeq = pending.nextSeq) (hordered : Ordered b.compartments)
    (hseam : seamError pending.compartments b.compartments = none)
    (now : Nat) : Collected (pending.add b now) (accepted ++ [b]) where
  batches := by
    obtain ⟨batches, hlength, hfirst, hbatches, hcompartments⟩ := h.batches
    refine ⟨batches ++ [b], ?_, hfirst.add (hseq.trans hlength.symm) (hlength ▸ h.below), ?_, ?_⟩
    · rw [List.length_append, hlength]
      rfl
    · intro b' hb'
      rcases List.mem_append.mp hb' with hb' | hb'
      · exact hbatches b' hb'
      · rw [List.mem_singleton.mp hb']
        exact hsame
    · rw [List.flatMap_append, ← hcompartments]
      simp [PendingStateImport.add]
  below b' hb' := by
    change b'.batchSeq < pending.nextSeq + 1
    rcases List.mem_append.mp hb' with hb' | hb'
    · exact Nat.lt_succ_of_lt (h.below b' hb')
    · rw [List.mem_singleton.mp hb']
      omega
  ordered := h.ordered.append hordered hseam

/-- The compartments are those of the batches from 0 to the count of one import, each as the attempt
first had it, and in order. -/
def HandsOver (compartments : List StoredCompartment) (importId : String)
    (accepted : List Batch) : Prop :=
  ∃ batches : List Batch, FirstOf batches accepted ∧
    (∀ b ∈ batches, b.importId = importId ∧ b.batchCount = batches.length) ∧
    compartments = batches.flatMap Batch.compartments ∧ Ordered compartments

/-- What a batch passed before it is staged. -/
def Batch.Valid (b : Batch) : Prop :=
  b.batchSeq < b.batchCount ∧ validateStateImportCompartments b.compartments = none

theorem Collected.handsOver (h : Collected pending accepted)
    (hall : pending.nextSeq = pending.batchCount) :
    HandsOver pending.compartments pending.importId accepted := by
  obtain ⟨batches, hlength, hfirst, hsame, hcompartments⟩ := h.batches
  refine ⟨batches, hfirst, fun b hb => ?_, hcompartments, h.ordered⟩
  obtain ⟨hid, hcount⟩ := hsame b hb
  exact ⟨hid.symm, by rw [← hcount, hlength, hall]⟩

/-! ## The invariant -/

/-- The counters are right and within their caps. -/
structure Held (c : StateImportCoordinator) : Prop where
  pending : c.pendingImportCount = c.sessions.size fun _ => true
  pendingCap : c.pendingImportCount ≤ c.maxPendingImports
  bytes : c.totalStagedBytes = c.sessions.load phaseBytes
  bytesCap : c.totalStagedBytes ≤ c.maxStagedBytes

theorem Held.accounted (h : Held c) : Accounted c :=
  ⟨h.pending, h.bytes⟩

/-- What a session has staged is what its attempt delivered. -/
structure Collects (c : StateImportCoordinator) (log : List Record) : Prop where
  absent : ∀ session, c.sessions.find session = none → attempt session log = []
  collected : ∀ session pending, c.sessions.find session = some (.collecting pending) →
    Collected pending (attempt session log)

theorem Collects.of_session {log log' : List Record} (h : Collects c log) (session : String)
    (hother : ∀ other, other ≠ session →
      c'.sessions.find other = c.sessions.find other ∧ attempt other log' = attempt other log)
    (habsent : c'.sessions.find session = none → attempt session log' = [])
    (hcollected : ∀ pending, c'.sessions.find session = some (.collecting pending) →
      Collected pending (attempt session log')) : Collects c' log' where
  absent other hfind := by
    by_cases heq : other = session
    · exact heq ▸ habsent (heq ▸ hfind)
    · obtain ⟨hsame, hattempt⟩ := hother other heq
      rw [hattempt]
      exact h.absent other (hsame ▸ hfind)
  collected other pending hfind := by
    by_cases heq : other = session
    · exact heq ▸ hcollected pending (heq ▸ hfind)
    · obtain ⟨hsame, hattempt⟩ := hother other heq
      rw [hattempt]
      exact h.collected other pending (hsame ▸ hfind)

variable {other : String}

theorem attempt_dropped_of_ne (h : other ≠ session) :
    attempt other (.dropped session :: log) = attempt other log :=
  if_neg h.symm

theorem attempt_dropped : attempt session (.dropped session :: log) = [] :=
  if_pos rfl

theorem Collects.discard (h : Collects c log) (session : String) :
    Collects (c.discard session) (.dropped session :: log) := by
  refine h.of_session session ?_ (fun _ => attempt_dropped) ?_
  · intro other hne
    rw [find_discard, if_neg hne.symm]
    exact ⟨rfl, attempt_dropped_of_ne hne⟩
  · intro pending hfind
    rw [find_discard, if_pos rfl] at hfind
    cases hfind

theorem Collects.foldl_discard (sessions : List String) (h : Collects c log) :
    Collects (sessions.foldl StateImportCoordinator.discard c)
      ((sessions.map Record.dropped).reverse ++ log) := by
  induction sessions generalizing c log with
  | nil => exact h
  | cons session sessions ih =>
    rw [List.map_cons, List.reverse_cons, List.append_assoc, List.foldl_cons]
    exact ih (h.discard session)

theorem Held.discard (h : Held c) (session : String) : Held (c.discard session) := by
  have haccounted : Accounted (c.discard session) := h.accounted.discard
  refine ⟨haccounted.pending, ?_, haccounted.bytes, ?_⟩
  · unfold StateImportCoordinator.discard
    cases c.sessions.find session with
    | none => exact h.pendingCap
    | some phase => exact Nat.le_trans (Nat.sub_le ..) h.pendingCap
  · unfold StateImportCoordinator.discard
    cases c.sessions.find session with
    | none => exact h.bytesCap
    | some phase => exact Nat.le_trans (Nat.sub_le ..) h.bytesCap

theorem Held.foldl_discard (sessions : List String) (h : Held c) :
    Held (sessions.foldl StateImportCoordinator.discard c) := by
  induction sessions generalizing c with
  | nil => exact h
  | cons session sessions ih => exact ih (h.discard session)

theorem Held.staged (h : Held c) (hstaged : Staged c b now outcome c') : Held c' := by
  have hput : ∀ phase n t, n + slots (c.sessions.find b.session) = c.pendingImportCount + 1 →
      t + stagedBytes (c.sessions.find b.session) = c.totalStagedBytes + phaseBytes phase →
      n ≤ c.maxPendingImports → t ≤ c.maxStagedBytes →
      Held (c.replace b.session phase n t) := by
    intro phase n t hn ht hcap hroom
    have haccounted : Accounted (c.replace b.session phase n t) := h.accounted.replace hn ht
    exact ⟨haccounted.pending, hcap, haccounted.bytes, hroom⟩
  cases hstaged with
  | refused => exact h
  | busy hfind | redelivered hfind =>
    exact hput _ _ _ (by rw [hfind]; rfl) (by rw [hfind]; rfl) h.pendingCap h.bytesCap
  | dropped hfind =>
    have haccounted := h.accounted.drop hfind
    exact ⟨haccounted.pending, Nat.le_trans (Nat.sub_le ..) h.pendingCap, haccounted.bytes,
      Nat.le_trans (Nat.sub_le ..) h.bytesCap⟩
  | began hnone hseq hcap hfits | whole hnone hseq hcap hfits =>
    exact hput _ _ _ (by rw [hnone]; rfl) (by rw [hnone]; rfl) hcap hfits
  | @added pending hfind hsame hseq hseam hfits
  | @completed pending hfind hsame hseq hseam hfits =>
    refine hput _ _ _ (by rw [hfind]; rfl) ?_ h.pendingCap hfits
    rw [hfind]
    simp only [stagedBytes, Option.map_some, Option.getD_some, phaseBytes, PendingStateImport.add]
    omega

theorem attempt_staged {outcome : StateImportStageOutcome} :
    attempt b.session (.staged b (.ok outcome) :: log) = attempt b.session log ++ [b] := by
  simp [attempt]

theorem attempt_refused {error : StateImportStageError} (h : error ≠ inProgress) :
    attempt b.session (.staged b (.error error) :: log) = [] := by
  simp [attempt, h]

theorem attempt_staged_of_ne (h : other ≠ b.session) :
    attempt other (.staged b outcome :: log) = attempt other log :=
  if_neg h.symm

theorem find_replace_of_ne {n t : Nat} (h : other ≠ session) :
    (c.replace session phase n t).sessions.find other = c.sessions.find other :=
  find_set_of_ne h.symm

theorem find_replace_self {n t : Nat} :
    (c.replace session phase n t).sessions.find session = some phase :=
  find_set_self ..

theorem find_drop_of_ne {bytes : Nat} (h : other ≠ session) :
    ((c.remove session).release bytes).sessions.find other = c.sessions.find other :=
  find_erase_of_ne h.symm

/-- Only the session of the batch changes. -/
theorem Staged.find_of_ne (h : Staged c b now outcome c') (hne : other ≠ b.session) :
    c'.sessions.find other = c.sessions.find other := by
  cases h with
  | refused => rfl
  | dropped => exact find_drop_of_ne hne
  | _ => exact find_replace_of_ne hne

theorem Collects.staged (h : Collects c log) (hvalid : b.Valid)
    (hstaged : Staged c b now outcome c') : Collects c' (.staged b outcome :: log) := by
  have hordered := ordered_of_validate hvalid.2
  refine h.of_session b.session
    (fun other hne => ⟨hstaged.find_of_ne hne, attempt_staged_of_ne hne⟩) ?_ ?_
  · intro hfind
    cases hstaged with
    | @refused error hnone =>
      by_cases herror : error = inProgress
      · simp [attempt, herror, h.absent b.session hnone]
      · exact attempt_refused herror
    | dropped hold herror => exact attempt_refused herror
    | _ => cases find_replace_self.symm.trans hfind
  · intro pending hfind
    cases hstaged with
    | refused hnone => cases hnone.symm.trans hfind
    | dropped hold =>
      change (c.sessions.erase b.session).find b.session = _ at hfind
      rw [find_erase_self] at hfind
      cases hfind
    | busy | whole | completed => cases find_replace_self.symm.trans hfind
    | began hnone hseq =>
      cases find_replace_self.symm.trans hfind
      rw [attempt_staged, h.absent b.session hnone]
      exact collected_opening hseq hordered now
    | redelivered hold hsame hseq =>
      cases find_replace_self.symm.trans hfind
      rw [attempt_staged]
      exact (h.collected b.session _ hold).redelivered hseq now
    | added hold hsame hseq hseam =>
      cases find_replace_self.symm.trans hfind
      rw [attempt_staged]
      exact (h.collected b.session _ hold).add hsame hseq hordered hseam now

/-- An apply hands over the attempt that its batch completes. -/
theorem Collects.handsOver {importId : String} (h : Collects c log) (hvalid : b.Valid)
    (hstaged : Staged c b now (.ok (.apply importId compartments)) c') :
    HandsOver compartments importId (attempt b.session log ++ [b]) := by
  have hordered := ordered_of_validate hvalid.2
  cases hstaged with
  | whole hnone hseq hcap hfits hlast =>
    rw [h.absent b.session hnone]
    exact (collected_opening hseq hordered now).handsOver hlast.symm
  | @completed pending hold hsame hseq hseam hfits hlast =>
    have hadded := (h.collected b.session _ hold).add hsame hseq hordered hseam now
    rw [← hsame.1]
    refine hadded.handsOver ?_
    change pending.nextSeq + 1 = pending.batchCount
    rw [hsame.2]
    omega

end MagicContext.StateImports
