import MagicContext.Staging.TransformPages

/-!
# What transform pages keep

Every operation of the coordinator moves one session to another phase, and the counters follow the
phases.  What a session has collected is what its attempt delivered first under each index, so an
apply hands over an attempt.

## What is here

* `Accounted`, `Collected` — the counters, and the pages of a session.
* `Staged`, `stage_cases` — all that a page can do.
* `HandsOver` — what an apply gives out.
* `Consistent` — the invariant, and that every operation keeps it.
-/

namespace MagicContext.TransformPages

namespace TransformPageCoordinator

def phaseOf (c : TransformPageCoordinator) (session : String) : TransformPagePhase :=
  ((c.sessions.find session).getD {}).phase

/-- One session replaced, and other counters. -/
def replace (c : TransformPageCoordinator) (session : String) (found : TransformPageSession)
    (pendingTransformCount totalStagedBytes : Nat) : TransformPageCoordinator :=
  { c with sessions := c.sessions.set session found, pendingTransformCount, totalStagedBytes }

/-- One session in another phase. -/
def move (c : TransformPageCoordinator) (session : String) (phase : TransformPagePhase)
    (pendingTransformCount totalStagedBytes : Nat) : TransformPageCoordinator :=
  c.replace session { (c.sessions.find session).getD {} with phase } pendingTransformCount
    totalStagedBytes

section
variable (c : TransformPageCoordinator)
include c

theorem phaseOf_replace (session other : String) (found : TransformPageSession) (n b : Nat) :
    (c.replace session found n b).phaseOf other =
      if session = other then found.phase else c.phaseOf other := by
  rw [phaseOf, replace, Entries.find_set]
  split <;> rfl

theorem completed_replace (session other transformId : String)
    (found : TransformPageSession) (n b : Nat) :
    (c.replace session found n b).completed other transformId = if session = other then
        found.completed.filter fun completed => completed.transformId = transformId
      else c.completed other transformId := by
  rw [completed, replace, Entries.find_set]
  split <;> rfl

@[simp] theorem completed_move (session other transformId : String)
    (phase : TransformPagePhase) (n b : Nat) :
    (c.move session phase n b).completed other transformId = c.completed other transformId := by
  rw [move, completed_replace]
  split
  · rename_i h
    subst h
    cases hfind : c.sessions.find session <;> simp [completed, hfind]
  · rfl

@[simp] theorem setPhase_setPhase (session : String) (phase phase' : TransformPagePhase) :
    (c.setPhase session phase).setPhase session phase' = c.setPhase session phase' := by
  simp [setPhase]

end

end TransformPageCoordinator

/-! ## The counters -/

/-- The counters are the number and the bytes of the phases that are not idle. -/
structure Accounted (c : TransformPageCoordinator) : Prop where
  pending : c.pendingTransformCount = c.sessions.size fun session => isPending session.phase
  bytes : c.totalStagedBytes = c.sessions.load fun session => phaseBytes session.phase

/-- What a phase counts for. -/
def slots (phase : TransformPagePhase) : Nat := if isPending phase then 1 else 0

variable {found : TransformPageSession}

section Counters
variable {c : TransformPageCoordinator} {session : String}

theorem load_replace {f : TransformPagePhase → Nat} (hidle : f .idle = 0)
    (found : TransformPageSession) (n b : Nat) :
    (c.replace session found n b).sessions.load (fun s => f s.phase) + f (c.phaseOf session) =
      c.sessions.load (fun s => f s.phase) + f found.phase := by
  have h := c.sessions.load_set session found fun s => f s.phase
  rw [← h]
  cases hfind : c.sessions.find session <;>
    simp [TransformPageCoordinator.replace, TransformPageCoordinator.phaseOf, hfind, hidle]

theorem le_load_phaseOf {f : TransformPagePhase → Nat} (hidle : f .idle = 0) :
    f (c.phaseOf session) ≤ c.sessions.load fun s => f s.phase := by
  cases hfind : c.sessions.find session with
  | none => simp [TransformPageCoordinator.phaseOf, hfind, hidle]
  | some found =>
    simpa [TransformPageCoordinator.phaseOf, hfind] using Entries.le_load hfind fun s => f s.phase

theorem Accounted.count (h : Accounted c) :
    c.pendingTransformCount = c.sessions.load fun s => slots s.phase :=
  h.pending.trans (Entries.size_eq_load _ _)

theorem Accounted.slots_le (h : Accounted c) : slots
    (c.phaseOf session) ≤ c.pendingTransformCount :=
  h.count ▸ le_load_phaseOf rfl

theorem Accounted.bytes_le (h : Accounted c) :
    phaseBytes (c.phaseOf session) ≤ c.totalStagedBytes :=
  h.bytes ▸ le_load_phaseOf rfl

/-- Counters that follow the phase stay right. -/
theorem Accounted.replace (h : Accounted c) {n b : Nat}
    (hn : n + slots (c.phaseOf session) = c.pendingTransformCount + slots found.phase)
    (hb : b + phaseBytes (c.phaseOf session) = c.totalStagedBytes + phaseBytes found.phase) :
    Accounted (c.replace session found n b) := by
  have hcount := h.count
  have hbytes := h.bytes
  constructor
  · have hload := @load_replace c session slots rfl found n b
    rw [Entries.size_eq_load]
    change n = (c.replace session found n b).sessions.load fun s => slots s.phase
    omega
  · have hload := @load_replace c session phaseBytes rfl found n b
    change b = (c.replace session found n b).sessions.load fun s => phaseBytes s.phase
    omega

/-- A phase given up, with what it was charged. -/
theorem Accounted.release (h : Accounted c) (hfound : found.phase = .idle) :
    Accounted (c.replace session found (c.pendingTransformCount - slots (c.phaseOf session))
      (c.totalStagedBytes - phaseBytes (c.phaseOf session))) := by
  have hslots := @Accounted.slots_le c session h
  have hbytes := @Accounted.bytes_le c session h
  have hidle : slots found.phase = 0 ∧ phaseBytes found.phase = 0 := by rw [hfound]; exact ⟨rfl, rfl⟩
  exact h.replace (by omega) (by omega)

end Counters

/-! ## One page -/

def PendingTransformPage.add (pending : PendingTransformPage) (q : TransformPage) :
    PendingTransformPage :=
  { pending with
    bytes := pending.bytes + q.pageBytes
    nextIndex := pending.nextIndex + 1
    digests := pending.digests ++ [q.pageDigest]
    pages := pending.pages ++ [q.page] }

def TransformPage.opening (q : TransformPage) (queuedAtMs : Nat) : PendingTransformPage where
  transformId := q.transformId
  generation := q.generation
  total := q.pageTotal
  nextIndex := 1
  digests := [q.pageDigest]
  pages := [q.page]
  bytes := q.pageBytes
  queuedAtMs := queuedAtMs

/-- A page of the attempt that is being collected. -/
def SameAttempt (pending : PendingTransformPage) (q : TransformPage) : Prop :=
  pending.transformId = q.transformId ∧ pending.generation = q.generation ∧
    pending.total = q.pageTotal

/-- All that staging a page can come to. -/
inductive Staged (c : TransformPageCoordinator) (q : TransformPage) (queuedAtMs : Nat) :
    Except TransformPageStageError TransformPageStageAction → TransformPageCoordinator → Prop where
  | full (hfull : c.maxPendingTransforms ≤ c.pendingTransformCount)
      (hnone : c.sessions.find q.session = none) :
      Staged c q queuedAtMs (.error .bufferOverflow) c
  | refused {error : TransformPageStageError} (herror : error ≠ .inProgress)
      (hphase : ∀ id bytes, c.phaseOf q.session ≠ .applying id bytes) :
      Staged c q queuedAtMs (.error error)
        (c.move q.session .idle (c.pendingTransformCount - slots (c.phaseOf q.session))
          (c.totalStagedBytes - phaseBytes (c.phaseOf q.session)))
  | busy {id : String} {bytes : Nat} (hphase : c.phaseOf q.session = .applying id bytes) :
      Staged c q queuedAtMs (.error .inProgress)
        (c.move q.session (.applying id bytes) c.pendingTransformCount c.totalStagedBytes)
  | began (hroom : c.pendingTransformCount < c.maxPendingTransforms ∨
        (c.sessions.find q.session).isSome)
      (hphase : c.phaseOf q.session = .idle) (hindex : q.pageIndex = 0)
      (hfits : c.Fits q.pageBytes) (hlast : q.pageComplete = false) :
      Staged c q queuedAtMs (.ok (.ack 1))
        (c.move q.session (.collecting (q.opening queuedAtMs)) (c.pendingTransformCount + 1)
          (c.totalStagedBytes + q.pageBytes))
  | whole (hroom : c.pendingTransformCount < c.maxPendingTransforms ∨
        (c.sessions.find q.session).isSome)
      (hphase : c.phaseOf q.session = .idle) (hindex : q.pageIndex = 0)
      (hfits : c.Fits q.pageBytes) (hlast : q.pageComplete = true) :
      Staged c q queuedAtMs
        (.ok (.apply [q.page] q.transformId q.generation q.pageDigest q.pageBytes))
        (c.move q.session (.applying q.transformId q.pageBytes) (c.pendingTransformCount + 1)
          (c.totalStagedBytes + q.pageBytes))
  | redelivered {pending : PendingTransformPage} (hphase : c.phaseOf q.session = .collecting pending)
      (hsame : SameAttempt pending q) (hindex : q.pageIndex < pending.nextIndex) :
      Staged c q queuedAtMs (.ok (.ack pending.nextIndex))
        (c.move q.session (.collecting pending) c.pendingTransformCount c.totalStagedBytes)
  | added {pending : PendingTransformPage} (hphase : c.phaseOf q.session = .collecting pending)
      (hsame : SameAttempt pending q) (hindex : q.pageIndex = pending.nextIndex)
      (hfits : c.totalStagedBytes + q.pageBytes ≤ c.maxStagedBytes)
      (hlast : q.pageComplete = false) :
      Staged c q queuedAtMs (.ok (.ack (pending.add q).nextIndex))
        (c.move q.session (.collecting (pending.add q)) c.pendingTransformCount
          (c.totalStagedBytes + q.pageBytes))
  | completed {pending : PendingTransformPage} (hphase : c.phaseOf q.session = .collecting pending)
      (hsame : SameAttempt pending q) (hindex : q.pageIndex = pending.nextIndex)
      (hfits : c.totalStagedBytes + q.pageBytes ≤ c.maxStagedBytes)
      (hlast : q.pageComplete = true) :
      Staged c q queuedAtMs
        (.ok (.apply (pending.add q).pages pending.transformId pending.generation q.pageDigest
          (pending.add q).bytes))
        (c.move q.session (.applying pending.transformId (pending.add q).bytes)
          c.pendingTransformCount (c.totalStagedBytes + q.pageBytes))

theorem stage_cases (c : TransformPageCoordinator) (q : TransformPage) (queuedAtMs : Nat) :
    Staged c q queuedAtMs (c.stage q queuedAtMs).1 (c.stage q queuedAtMs).2 := by
  unfold TransformPageCoordinator.stage
  by_cases hfull : c.maxPendingTransforms ≤ c.pendingTransformCount ∧
      c.sessions.find q.session = none
  · rw [if_pos hfull]
    exact .full hfull.1 hfull.2
  rw [if_neg hfull]
  have hroom : c.pendingTransformCount < c.maxPendingTransforms ∨
      (c.sessions.find q.session).isSome := by
    rw [Option.isSome_iff_ne_none]
    by_cases h : c.maxPendingTransforms ≤ c.pendingTransformCount
    · exact .inr fun hnone => hfull ⟨h, hnone⟩
    · exact .inl (by omega)
  have hfits : ∀ n, (c.setPhase q.session .idle).Fits n ↔ c.Fits n := fun n => Iff.rfl
  simp only [hfits]
  cases hphase : ((c.sessions.find q.session).getD {}).phase with
  | idle =>
    have hidle : c.phaseOf q.session = .idle := hphase
    have hrefused : ∀ error, error ≠ .inProgress →
        Staged c q queuedAtMs (.error error) (c.setPhase q.session .idle) := by
      intro error herror
      have h := @Staged.refused c q queuedAtMs _ herror
        fun id bytes h => by rw [hidle] at h; cases h
      rwa [hidle] at h
    by_cases hindex : q.pageIndex ≠ 0
    · rw [if_pos hindex]
      exact hrefused _ (by rintro ⟨⟩)
    rw [if_neg hindex]
    by_cases hroomy : c.Fits q.pageBytes
    · rw [if_neg (not_not.mpr hroomy)]
      cases hlast : q.pageComplete with
      | false =>
        have h := @Staged.began c q queuedAtMs hroom hidle (not_not.mp hindex) hroomy hlast
        simpa [TransformPageCoordinator.move, TransformPageCoordinator.replace,
          TransformPageCoordinator.setPhase, TransformPage.opening] using h
      | true =>
        have h := @Staged.whole c q queuedAtMs hroom hidle (not_not.mp hindex) hroomy hlast
        simpa [TransformPageCoordinator.move, TransformPageCoordinator.replace,
          TransformPageCoordinator.setPhase] using h
    · rw [if_pos hroomy]
      exact hrefused _ (by rintro ⟨⟩)
  | applying id bytes =>
    dsimp only
    rw [TransformPageCoordinator.setPhase_setPhase]
    exact .busy hphase
  | collecting pending =>
    have hcollecting : c.phaseOf q.session = .collecting pending := hphase
    have hrefused : ∀ error, error ≠ .inProgress →
        Staged c q queuedAtMs (.error error)
          ((c.setPhase q.session .idle).releasePhase (.collecting pending)) := by
      intro error herror
      have h := @Staged.refused c q queuedAtMs _ herror
        fun id bytes h => by rw [hcollecting] at h; cases h
      rwa [hcollecting] at h
    dsimp only
    by_cases hother : pending.transformId ≠ q.transformId ∨ pending.generation ≠ q.generation ∨
        pending.total ≠ q.pageTotal
    · rw [if_pos hother]
      exact hrefused _ (by rintro ⟨⟩)
    rw [if_neg hother]
    have hsame : SameAttempt pending q := by
      simp only [not_or, not_not] at hother
      exact hother
    by_cases hbefore : q.pageIndex < pending.nextIndex
    · rw [if_pos hbefore]
      by_cases hdigest : pending.digests[q.pageIndex]? = some q.pageDigest
      · rw [if_pos hdigest, TransformPageCoordinator.setPhase_setPhase]
        exact .redelivered hcollecting hsame hbefore
      · rw [if_neg hdigest]
        exact hrefused _ (by rintro ⟨⟩)
    rw [if_neg hbefore]
    by_cases hafter : pending.nextIndex < q.pageIndex
    · rw [if_pos hafter]
      exact hrefused _ (by rintro ⟨⟩)
    rw [if_neg hafter]
    have hindex : q.pageIndex = pending.nextIndex := by omega
    by_cases hover : c.maxStagedBytes < pending.bytes + q.pageBytes ∨
        c.maxStagedBytes < c.totalStagedBytes + q.pageBytes
    · exact (if_pos hover).symm ▸ hrefused _ (by rintro ⟨⟩)
    rw [show (c.setPhase q.session .idle).maxStagedBytes = c.maxStagedBytes from rfl,
      show (c.setPhase q.session .idle).totalStagedBytes = c.totalStagedBytes from rfl,
      if_neg hover]
    have hfits' : c.totalStagedBytes + q.pageBytes ≤ c.maxStagedBytes := by
      omega
    cases hlast : q.pageComplete with
    | false =>
      have h := @Staged.added c q queuedAtMs _ hcollecting hsame hindex hfits' hlast
      simpa [TransformPageCoordinator.move, TransformPageCoordinator.replace,
        TransformPageCoordinator.setPhase, PendingTransformPage.add] using h
    | true =>
      have h := @Staged.completed c q queuedAtMs _ hcollecting hsame hindex hfits' hlast
      simpa [TransformPageCoordinator.move, TransformPageCoordinator.replace,
        TransformPageCoordinator.setPhase, PendingTransformPage.add] using h

/-! ## Discards and settlements -/

theorem discard_cases (c : TransformPageCoordinator) (session : String) :
    c.sessions.find session = none ∧ c.discard session = c ∨
      c.discard session = c.replace session {} (c.pendingTransformCount - slots (c.phaseOf session))
        (c.totalStagedBytes - phaseBytes (c.phaseOf session)) := by
  unfold TransformPageCoordinator.discard
  cases hfind : c.sessions.find session with
  | none => exact .inl ⟨rfl, rfl⟩
  | some found =>
    right
    have hphase : c.phaseOf session = found.phase := by
      simp [TransformPageCoordinator.phaseOf, hfind]
    rw [hphase]
    dsimp only
    generalize found.phase = phase
    cases phase <;> rfl

/-- The phase that `settle` looks for. -/
def Owns (c : TransformPageCoordinator) (session transformId : String) : Prop :=
  ∃ bytes, c.phaseOf session = .applying transformId bytes

/-- The session after its transform was settled. -/
def settledSession (c : TransformPageCoordinator) (session transformId : String) (generation : Nat)
    (finalDigest : String) : Option PreparedOutput → TransformPageSession
  | none => { (c.sessions.find session).getD {} with phase := .idle }
  | some result =>
    { phase := .idle, completed := some { transformId, generation, finalDigest, result } }

variable {c c' : TransformPageCoordinator}

theorem settle_of_owns {session transformId : String}
    (h : Owns c session transformId) (generation : Nat) (finalDigest : String)
    (result : Option PreparedOutput) : c.settle session transformId generation finalDigest result =
      c.replace session (settledSession c session transformId generation finalDigest result)
        (c.pendingTransformCount - slots (c.phaseOf session))
        (c.totalStagedBytes - phaseBytes (c.phaseOf session)) := by
  obtain ⟨bytes, hphase⟩ := h
  have hphase' : ((c.sessions.find session).getD {}).phase = .applying transformId bytes := hphase
  rw [hphase]
  unfold TransformPageCoordinator.settle
  dsimp only
  rw [hphase']
  dsimp only
  rw [if_pos rfl]
  cases result with
  | none => rfl
  | some result =>
    simp [TransformPageCoordinator.replace, TransformPageCoordinator.releasePhase,
      TransformPageCoordinator.setPhase, isPending, slots, settledSession]

theorem settle_of_not_owns {session transformId : String}
    (h : ¬ Owns c session transformId) (generation : Nat) (finalDigest : String)
    (result : Option PreparedOutput) : c.settle session transformId generation finalDigest result =
      c.move session (c.phaseOf session) c.pendingTransformCount c.totalStagedBytes := by
  unfold TransformPageCoordinator.settle
  dsimp only
  cases hphase : ((c.sessions.find session).getD {}).phase with
  | applying id bytes =>
    have hid : id ≠ transformId := by
      rintro rfl
      exact h ⟨bytes, hphase⟩
    dsimp only
    rw [if_neg hid, TransformPageCoordinator.phaseOf, hphase]
    rfl
  | idle | collecting pending =>
    rw [TransformPageCoordinator.phaseOf, hphase]
    rfl

/-! ## Attempts -/

/-- The pages a session accepted since it was last idle. -/
def attempt (session : String) : List Record → List TransformPage
  | [] => []
  | .staged q outcome :: log =>
    if q.session = session then
      match outcome with
      | .ok _ => attempt session log ++ [q]
      | .error .inProgress => attempt session log
      | .error _ => []
    else attempt session log
  | .discarded other :: log => if other = session then [] else attempt session log
  | .settled other released :: log =>
    if other = session ∧ released then [] else attempt session log

/-- The first page of an attempt under an index. -/
def firstAt (pages : List TransformPage) (k : Nat) : Option TransformPage :=
  pages.find? fun q => decide (q.pageIndex = k)

variable {pages : List TransformPage} {q : TransformPage} {s : State}

theorem firstAt_append {k : Nat} {q q' : TransformPage} (h : firstAt pages k = some q) :
    firstAt (pages ++ [q']) k = some q := by
  rw [firstAt, List.find?_append]
  change (firstAt pages k).or _ = _
  rw [h, Option.some_or]

theorem firstAt_append_new (h : ∀ q' ∈ pages, q'.pageIndex < q.pageIndex) :
    firstAt (pages ++ [q]) q.pageIndex = some q := by
  have hnone : pages.find? (fun q' => decide (q'.pageIndex = q.pageIndex)) = none := by
    refine List.find?_eq_none.mpr fun q' hq' heq => ?_
    have hlt := h q' hq'
    have := of_decide_eq_true heq
    omega
  rw [firstAt, List.find?_append, hnone]
  simp

/-- What is pending of an attempt: under each index below the next, the page that came first. -/
structure Collected (pending : PendingTransformPage) (pages : List TransformPage) : Prop where
  length : pending.pages.length = pending.nextIndex
  first : ∀ k < pending.nextIndex, ∃ q, firstAt pages k = some q ∧
    pending.pages[k]? = some q.page ∧ SameAttempt pending q
  below : ∀ q ∈ pages, q.pageIndex < pending.nextIndex

theorem collected_opening (hindex : q.pageIndex = 0) (queuedAtMs : Nat) :
    Collected (q.opening queuedAtMs) [q] where
  length := rfl
  first k hk := by
    have hk : k < 1 := hk
    have hk0 : k = 0 := by omega
    subst hk0
    exact ⟨q, by simp [firstAt, hindex], rfl, rfl, rfl, rfl⟩
  below q' hq' := by
    rw [List.mem_singleton.mp hq', hindex]
    exact Nat.one_pos

variable {pending : PendingTransformPage}

theorem Collected.redelivered (h : Collected pending pages)
    (hindex : q.pageIndex < pending.nextIndex) : Collected pending (pages ++ [q]) where
  length := h.length
  first k hk := by
    obtain ⟨q', hfirst, hrest⟩ := h.first k hk
    exact ⟨q', firstAt_append hfirst, hrest⟩
  below q' hq' := by
    rcases List.mem_append.mp hq' with hq' | hq'
    · exact h.below q' hq'
    · rw [List.mem_singleton.mp hq']
      exact hindex

theorem Collected.add (h : Collected pending pages)
    (hsame : SameAttempt pending q) (hindex : q.pageIndex = pending.nextIndex) :
    Collected (pending.add q) (pages ++ [q]) where
  length := by
    change (pending.pages ++ [q.page]).length = pending.nextIndex + 1
    rw [List.length_append, h.length, List.length_singleton]
  first k hk := by
    have hk : k < pending.nextIndex + 1 := hk
    by_cases hlast : k < pending.nextIndex
    · obtain ⟨q', hfirst, hpage, hsame'⟩ := h.first k hlast
      refine ⟨q', firstAt_append hfirst, ?_, hsame'⟩
      change (pending.pages ++ [q.page])[k]? = _
      rw [List.getElem?_append_left (by rw [h.length]; exact hlast), hpage]
    · have hk : k = q.pageIndex := by omega
      subst hk
      refine ⟨q, firstAt_append_new fun q' hq' => hindex ▸ h.below q' hq', ?_, hsame⟩
      change (pending.pages ++ [q.page])[q.pageIndex]? = _
      have hlength := h.length
      rw [List.getElem?_append_right (by omega), h.length, hindex]
      simp
  below q' hq' := by
    change q'.pageIndex < pending.nextIndex + 1
    rcases List.mem_append.mp hq' with hq' | hq'
    · exact Nat.lt_succ_of_lt (h.below q' hq')
    · rw [List.mem_singleton.mp hq']
      omega

/-- The pages are those of one attempt under the indices from 0 to its total, each as the attempt
first had it. -/
def HandsOver (pages : List Json) (transformId : String) (generation : Nat)
    (accepted : List TransformPage) : Prop :=
  ∃ total, pages.length = total ∧ ∀ k < total, ∃ q, firstAt accepted k = some q ∧
    pages[k]? = some q.page ∧ q.transformId = transformId ∧ q.generation = generation ∧
      q.pageTotal = total

/-- A page with the last index of its transform, and no other, is the complete one. -/
def TransformPage.Valid (q : TransformPage) : Prop :=
  q.pageIndex < q.pageTotal ∧ (q.pageComplete = true ↔ q.pageIndex + 1 = q.pageTotal)

theorem Collected.handsOver (h : Collected pending pages)
    (hall : pending.nextIndex = pending.total) :
    HandsOver pending.pages pending.transformId pending.generation pages := by
  refine ⟨pending.total, h.length.trans hall, fun k hk => ?_⟩
  obtain ⟨q, hfirst, hpage, hid, hgeneration, htotal⟩ := h.first k (hall ▸ hk)
  exact ⟨q, hfirst, hpage, hid.symm, hgeneration.symm, htotal.symm⟩

/-! ## What holds of every state -/

structure Consistent (s : State) : Prop where
  accounted : Accounted s.coordinator
  room : s.coordinator.totalStagedBytes ≤ s.coordinator.maxStagedBytes
  idle : ∀ session, s.coordinator.phaseOf session = .idle → attempt session s.log = []
  collected : ∀ session pending, s.coordinator.phaseOf session = .collecting pending →
    Collected pending (attempt session s.log)

/-- An operation on one session leaves the others, and their attempts, as they were. -/
theorem Consistent.of_session {s s' : State} (h : Consistent s) (session : String)
    (haccounted : Accounted s'.coordinator)
    (hroom : s'.coordinator.totalStagedBytes ≤ s'.coordinator.maxStagedBytes)
    (hother : ∀ other, other ≠ session →
      s'.coordinator.phaseOf other = s.coordinator.phaseOf other ∧
        attempt other s'.log = attempt other s.log)
    (hidle : s'.coordinator.phaseOf session = .idle → attempt session s'.log = [])
    (hcollected : ∀ pending, s'.coordinator.phaseOf session = .collecting pending →
      Collected pending (attempt session s'.log)) : Consistent s' where
  accounted := haccounted
  room := hroom
  idle other hphase := by
    by_cases heq : other = session
    · exact heq ▸ hidle (heq ▸ hphase)
    · obtain ⟨hsame, hattempt⟩ := hother other heq
      rw [hattempt]
      exact h.idle other (hsame ▸ hphase)
  collected other pending hphase := by
    by_cases heq : other = session
    · exact heq ▸ hcollected pending (heq ▸ hphase)
    · obtain ⟨hsame, hattempt⟩ := hother other heq
      rw [hattempt]
      exact h.collected other pending (hsame ▸ hphase)

theorem phaseOf_replace_of_ne {session other : String} {n b : Nat}
    (h : other ≠ session) : (c.replace session found n b).phaseOf other = c.phaseOf other := by
  rw [TransformPageCoordinator.phaseOf_replace, if_neg h.symm]

theorem phaseOf_replace_self {session : String} {n b : Nat} :
    (c.replace session found n b).phaseOf session = found.phase := by
  rw [TransformPageCoordinator.phaseOf_replace, if_pos rfl]

/-- One session replaced, with counters that follow its phase. -/
theorem Consistent.replaced (h : Consistent s) {session : String} {record : Record} {n b : Nat}
    (hn : n + slots (s.coordinator.phaseOf session) =
      s.coordinator.pendingTransformCount + slots found.phase)
    (hb : b + phaseBytes (s.coordinator.phaseOf session) =
      s.coordinator.totalStagedBytes + phaseBytes found.phase)
    (hroom : b ≤ s.coordinator.maxStagedBytes)
    (hother : ∀ other, other ≠ session → attempt other (record :: s.log) = attempt other s.log)
    (hidle : found.phase = .idle → attempt session (record :: s.log) = [])
    (hcollected : ∀ pending, found.phase = .collecting pending →
      Collected pending (attempt session (record :: s.log))) :
    Consistent ⟨s.coordinator.replace session found n b, record :: s.log⟩ := by
  refine h.of_session session (h.accounted.replace hn hb) hroom
    (fun other hne => ⟨phaseOf_replace_of_ne hne, hother other hne⟩) (fun hphase => ?_)
    fun pending hphase => ?_
  · exact hidle (phaseOf_replace_self.symm.trans hphase)
  · exact hcollected pending (phaseOf_replace_self.symm.trans hphase)

/-- A session that goes back to idle, and its attempt with it. -/
theorem Consistent.released (h : Consistent s) {session : String} {record : Record}
    (hfound : found.phase = .idle)
    (hother : ∀ other, other ≠ session → attempt other (record :: s.log) = attempt other s.log)
    (hattempt : attempt session (record :: s.log) = []) :
    Consistent ⟨s.coordinator.replace session found
      (s.coordinator.pendingTransformCount - slots (s.coordinator.phaseOf session))
      (s.coordinator.totalStagedBytes - phaseBytes (s.coordinator.phaseOf session)),
      record :: s.log⟩ := by
  refine h.of_session session (h.accounted.release hfound) (Nat.le_trans (Nat.sub_le ..) h.room)
    (fun other hne => ⟨phaseOf_replace_of_ne hne, hother other hne⟩) (fun _ => hattempt) ?_
  intro pending hphase
  cases hfound.symm.trans (phaseOf_replace_self.symm.trans hphase)

theorem Consistent.discard (h : Consistent s) (session : String) :
    Consistent (Op.exec {} (.discard session) s).2 := by
  change Consistent ⟨s.coordinator.discard session, .discarded session :: s.log⟩
  have hattempt : attempt session (.discarded session :: s.log) = [] := if_pos rfl
  have hothers : ∀ other, other ≠ session →
      attempt other (.discarded session :: s.log) = attempt other s.log :=
    fun other hne => if_neg hne.symm
  rcases discard_cases s.coordinator session with ⟨hnone, heq⟩ | heq
  · rw [heq]
    refine h.of_session session h.accounted h.room
      (fun other hne => ⟨rfl, hothers other hne⟩) (fun _ => hattempt) ?_
    intro pending hphase
    simp [TransformPageCoordinator.phaseOf, hnone] at hphase
  · rw [heq]
    exact h.released rfl hothers hattempt

theorem Consistent.settle (h : Consistent s) (outside : Outside)
    (session transformId : String) (generation : Nat) (finalDigest : String)
    (result : Option PreparedOutput) :
    Consistent (Op.exec outside (.settle session transformId generation finalDigest result) s).2 := by
  by_cases howns : Owns s.coordinator session transformId
  · have hlog : (Op.exec outside (.settle session transformId generation finalDigest result) s).2 =
        ⟨s.coordinator.settle session transformId generation finalDigest result,
          .settled session true :: s.log⟩ := by
      obtain ⟨bytes, hphase⟩ := howns
      have hphase' : ((s.coordinator.sessions.find session).getD {}).phase =
        .applying transformId bytes := hphase
      simp [Op.exec, hphase']
    rw [hlog, settle_of_owns howns]
    refine h.released ?_ (fun other hne => if_neg fun heq => hne heq.1.symm) (if_pos ⟨rfl, rfl⟩)
    cases result <;> rfl
  · have hlog : (Op.exec outside (.settle session transformId generation finalDigest result) s).2 =
        ⟨s.coordinator.settle session transformId generation finalDigest result,
          .settled session false :: s.log⟩ := by
      cases hphase : ((s.coordinator.sessions.find session).getD {}).phase with
      | applying id bytes =>
        have hid : id ≠ transformId := fun hid => howns ⟨bytes, hid ▸ hphase⟩
        simp [Op.exec, hphase, hid]
      | idle => simp [Op.exec, hphase]
      | collecting pending => simp [Op.exec, hphase]
    rw [hlog, settle_of_not_owns howns]
    have hattempt : ∀ other, attempt other (.settled session false :: s.log) = attempt other s.log :=
      fun other => if_neg fun heq => Bool.false_ne_true heq.2
    refine h.replaced rfl rfl h.room (fun other _ => hattempt other) ?_ ?_ <;> rw [hattempt]
    · exact h.idle session
    · exact h.collected session

/-- What a page comes to for the attempt of its session. -/
theorem attempt_staged {log : List Record} {action : TransformPageStageAction} :
    attempt q.session (.staged q (.ok action) :: log) = attempt q.session log ++ [q] := by
  simp [attempt]

theorem attempt_refused {log : List Record} {error : TransformPageStageError}
    (h : error ≠ .inProgress) : attempt q.session (.staged q (.error error) :: log) = [] := by
  cases error <;> simp_all [attempt]

theorem attempt_staged_of_ne {log : List Record} {other : String}
    {outcome : Except TransformPageStageError TransformPageStageAction} (h : other ≠ q.session) :
    attempt other (.staged q outcome :: log) = attempt other log :=
  if_neg h.symm

theorem Consistent.staged (h : Consistent s) {queuedAtMs : Nat}
    {outcome : Except TransformPageStageError TransformPageStageAction}
    (hstaged : Staged s.coordinator q queuedAtMs outcome c) :
    Consistent ⟨c, .staged q outcome :: s.log⟩ := by
  have hothers : ∀ other, other ≠ q.session →
      attempt other (.staged q outcome :: s.log) = attempt other s.log :=
    fun other hne => attempt_staged_of_ne hne
  cases hstaged with
  | full hfull hnone =>
    refine h.of_session q.session h.accounted h.room
      (fun other hne => ⟨rfl, hothers other hne⟩) (fun _ => attempt_refused nofun) ?_
    intro pending hphase
    simp [TransformPageCoordinator.phaseOf, hnone] at hphase
  | refused herror hphase => exact h.released rfl hothers (attempt_refused herror)
  | busy hphase =>
    refine h.replaced (by rw [hphase]) (by rw [hphase]) h.room hothers ?_ ?_
    · rintro ⟨⟩
    · rintro pending ⟨⟩
  | began hspace hphase hindex hfits hlast =>
    refine h.replaced (by rw [hphase]; rfl) (by rw [hphase]; rfl) hfits.2 hothers ?_ ?_
    · rintro ⟨⟩
    · rintro pending ⟨⟩
      rw [attempt_staged, h.idle q.session hphase]
      exact collected_opening hindex queuedAtMs
  | whole hspace hphase hindex hfits hlast =>
    refine h.replaced (by rw [hphase]; rfl) (by rw [hphase]; rfl) hfits.2 hothers ?_ ?_
    · rintro ⟨⟩
    · rintro pending ⟨⟩
  | redelivered hphase hsame hindex =>
    refine h.replaced (by rw [hphase]) (by rw [hphase]) h.room hothers ?_ ?_
    · rintro ⟨⟩
    · rintro pending ⟨⟩
      rw [attempt_staged]
      exact (h.collected q.session _ hphase).redelivered hindex
  | added hphase hsame hindex hfits hlast =>
    refine h.replaced (by rw [hphase]; rfl) ?_ hfits hothers ?_ ?_
    · rw [hphase]
      simp only [phaseBytes, PendingTransformPage.add]
      omega
    · rintro ⟨⟩
    · rintro pending ⟨⟩
      rw [attempt_staged]
      exact (h.collected q.session _ hphase).add hsame hindex
  | completed hphase hsame hindex hfits hlast =>
    refine h.replaced (by rw [hphase]; rfl) ?_ hfits hothers ?_ ?_
    · rw [hphase]
      simp only [phaseBytes, PendingTransformPage.add]
      omega
    · rintro ⟨⟩
    · rintro pending ⟨⟩

/-- An apply hands over the attempt that its page completes. -/
theorem Consistent.handsOver (h : Consistent s)
    (hvalid : q.Valid) {queuedAtMs : Nat} {pages : List Json} {transformId finalDigest : String}
    {generation inboundBytes : Nat} (hstaged : Staged s.coordinator q queuedAtMs
      (.ok (.apply pages transformId generation finalDigest inboundBytes)) c) :
    transformId = q.transformId ∧
      HandsOver pages transformId generation (attempt q.session s.log ++ [q]) := by
  cases hstaged with
  | whole hspace hphase hindex hfits hlast =>
    refine ⟨rfl, ?_⟩
    rw [h.idle q.session hphase]
    have htotal : q.pageIndex + 1 = q.pageTotal := hvalid.2.mp hlast
    refine (collected_opening hindex queuedAtMs).handsOver ?_
    change 1 = q.pageTotal
    omega
  | @completed pending hphase hsame hindex hfits hlast =>
    refine ⟨hsame.1, ((h.collected q.session pending hphase).add hsame hindex).handsOver ?_⟩
    have htotal : q.pageIndex + 1 = q.pageTotal := hvalid.2.mp hlast
    change pending.nextIndex + 1 = pending.total
    rw [hsame.2.2]
    omega

end MagicContext.TransformPages
