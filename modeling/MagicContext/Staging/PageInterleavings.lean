import MagicContext.Staging.PageRuns

/-!
# Interleavings of page requests

Any number of requests take turns at the coordinator's lock, and sessions are discarded at any
time.  Between the lookup of a retained result and the staging of a page the lock is free, and a
session that was used once keeps its entry; the interleavings in which neither is met are the
orderly ones.

## What is here

* `Held`, `StepHolds` — what holds of every state, and of every step.
* `Readmits`, `Orderly` — the two ways to leave the coordinator's bounds, and runs without them.
* `transform_pages_held` — along every orderly run both hold.
-/

namespace MagicContext.TransformPages

open TransformPageCoordinator World

/-! ## What holds -/

/-- The counters are the number and the bytes of the phases that are not idle, within the caps. -/
structure Held (c : TransformPageCoordinator) : Prop where
  pending : c.pendingTransformCount = c.sessions.size fun session => isPending session.phase
  pendingCap : c.pendingTransformCount ≤ c.maxPendingTransforms
  bytes : c.totalStagedBytes = c.sessions.load fun session => phaseBytes session.phase
  bytesCap : c.totalStagedBytes ≤ c.maxStagedBytes

abbrev PageWorld := World Op Op.Reply State PreparedOutcome

/-- Sessions are discarded from elsewhere. -/
abbrev PageEvent := World.Event Op Op.Reply Outside String PreparedOutcome

def discardBy (session : String) (s : State) : State := (Op.exec {} (.discard session) s).2

/-- What holds of the step of an operation: an apply hands over the attempt its page completes,
of a transform with no retained result; an error leaves the session idle, with its charge
returned; and a retained result answers the final page of its transform. -/
def StepHolds (outside : Outside) (op : Op) (s : State) : Prop :=
  match op with
  | .lookup q =>
    (Op.exec outside (.lookup q) s).2 = s ∧
      ∀ found, s.coordinator.completed q.session q.transformId = some found →
        found.generation = q.generation → q.pageComplete = true →
        found.finalDigest = q.pageDigest →
        (Op.exec outside (.lookup q) s).1 = some (.response found.result)
  | .stage q =>
    let outcome := (s.coordinator.stage q outside.nowMs).1
    let c := (s.coordinator.stage q outside.nowMs).2
    (∀ pages transformId generation finalDigest inboundBytes,
      outcome = .ok (.apply pages transformId generation finalDigest inboundBytes) →
        HandsOver pages transformId generation (attempt q.session s.log ++ [q]) ∧
          s.coordinator.completed q.session transformId = none) ∧
    ∀ error, outcome = .error error → error ≠ .inProgress →
      c.phaseOf q.session = .idle ∧
        c.pendingTransformCount + slots (s.coordinator.phaseOf q.session) =
          s.coordinator.pendingTransformCount ∧
        c.totalStagedBytes + phaseBytes (s.coordinator.phaseOf q.session) =
          s.coordinator.totalStagedBytes
  | _ => True

/-- A session that was idle since its last attempt is let in over the cap, for its entry. -/
def Readmits (c : TransformPageCoordinator) (q : TransformPage) : Prop :=
  c.maxPendingTransforms ≤ c.pendingTransformCount ∧ (c.sessions.find q.session).isSome ∧
    c.phaseOf q.session = .idle ∧ q.pageIndex = 0 ∧ c.Fits q.pageBytes

/-- No idle session is let in over the cap, and no result is retained while a page of its
transform, looked up before, waits to be staged. -/
def Orderly (w : PageWorld) : PageEvent → Prop
  | .drive i _ =>
    (∀ q, w.turn i = some (.stage q) → ¬ Readmits w.state.coordinator q) ∧
    ∀ session transformId generation finalDigest result,
      w.turn i = some (.settle session transformId generation finalDigest (some result)) →
      Owns w.state.coordinator session transformId →
      ∀ j q, j ≠ i → w.turn j = some (.stage q) → q.session = session → q.transformId ≠ transformId
  | _ => True

/-- Every process is the handler of a request. -/
def FromHandler (text : JsonText) : PageEvent → Prop
  | .spawn p => ∃ session request, p = handleTransformPageValue text session request
  | _ => True

/-! ## Retained results -/

variable {c c' : TransformPageCoordinator} {q : TransformPage}

theorem Staged.completed_eq
    {queuedAtMs : Nat} {outcome : Except TransformPageStageError TransformPageStageAction}
    (h : Staged c q queuedAtMs outcome c') (session transformId : String) :
    c'.completed session transformId = c.completed session transformId := by
  cases h with
  | full => rfl
  | _ => exact completed_move ..

theorem completed_discard {session other transformId : String}
    (h : c.completed session transformId = none) :
    (c.discard other).completed session transformId = none := by
  rcases discard_cases c other with ⟨-, heq⟩ | heq
  · rw [heq]
    exact h
  · rw [heq, completed_replace]
    split
    · rfl
    · exact h

/-- A settlement retains a result of its own transform at most. -/
theorem completed_settle {session other transformId otherId : String}
    {generation : Nat} {finalDigest : String} {result : Option PreparedOutput}
    (h : c.completed session transformId = none)
    (hother : Owns c other otherId → result.isSome → session = other → transformId ≠ otherId) :
    (c.settle other otherId generation finalDigest result).completed session transformId = none := by
  by_cases howns : Owns c other otherId
  · rw [settle_of_owns howns, completed_replace]
    split
    · rename_i heq
      subst heq
      cases result with
      | none =>
        cases hfind : c.sessions.find other with
        | none => simp [settledSession, hfind]
        | some found =>
          simpa [settledSession, hfind, completed] using h
      | some result =>
        have hne := hother howns rfl rfl
        simp [settledSession, hne.symm]
    · exact h
  · rw [settle_of_not_owns howns, completed_move]
    exact h

/-! ## Outlines -/

/-- A page waits to be staged while its transform has no retained result. -/
def Needs : Op → State → Prop
  | .stage q, s => q.Valid ∧ s.coordinator.completed q.session q.transformId = none
  | _, _ => True

def discipline : Discipline Op Op.Reply State Outside where
  exec := Op.exec
  invariant := Consistent
  needs := Needs
  may _ _ s' := Consistent s'
  spares op s s' := Needs op s → Needs op s'
  stable hneeds hspares := hspares hneeds
  invariant_of_may _ hmay := hmay

theorem consistent_exec {s : State} (h : Consistent s) (outside : Outside) (op : Op) :
    Consistent (op.exec outside s).2 := by
  cases op with
  | discard session => exact h.discard session
  | lookup q => exact h
  | stage q => exact h.staged (stage_cases s.coordinator q outside.nowMs)
  | transform assembled inboundBytes => exact h
  | settle session transformId generation finalDigest result =>
    exact h.settle outside session transformId generation finalDigest result

theorem step_triple {op : Op} {next : op.Reply → Handler} {P : State → Prop}
    (hneeds : ∀ s, P s → Needs op s)
    (hnext : ∀ r, discipline.Triple
      (fun s' => ∃ outside s, Consistent s ∧ Needs op s ∧ Op.exec outside op s = (r, s'))
      (next r) fun _ _ => True) :
    discipline.Triple P (.step op next) fun _ _ => True :=
  Discipline.triple_step hneeds (fun outside _ hinv _ => consistent_exec hinv outside _) hnext

theorem done_triple {P : State → Prop} (outcome : PreparedOutcome) :
    discipline.Triple P (.done outcome) fun _ _ => True :=
  Discipline.triple_done fun _ _ => trivial

variable {text : JsonText}

theorem checkPage_eq_ok {session : String} {request : Json}
    (h : checkPage text session request = .ok q) : q.Valid := by
  unfold checkPage at h
  split at h
  · cases h
  split at h
  · cases h
  split at h
  · cases h
  split at h <;> [skip; cases h]
  split at h <;> [skip; cases h]
  split at h <;> [skip; cases h]
  split at h <;> [skip; cases h]
  split at h <;> [skip; cases h]
  split at h
  · cases h
  rename_i hindex
  split at h
  · cases h
  rename_i hcomplete
  split at h
  · cases h
  split at h
  · cases h
  split at h
  · cases h
  cases h
  rw [not_or, Nat.not_le] at hindex
  refine ⟨hindex.2, ?_⟩
  rw [not_not.mp hcomplete, decide_eq_true_iff]

theorem handler_triple (text : JsonText) (session : String) (request : Json) :
    discipline.Triple (fun _ => True) (handleTransformPageValue text session request)
      fun _ _ => True := by
  unfold handleTransformPageValue
  cases hcheck : checkPage text session request with
  | error outcome => exact step_triple (fun _ _ => trivial) fun _ => done_triple _
  | ok q =>
    refine step_triple (fun _ _ => trivial) fun found => ?_
    cases found with
    | some outcome => exact done_triple _
    | none =>
      refine step_triple ?_ fun outcome => ?_
      · rintro s' ⟨outside, s, -, -, hexec⟩
        have hreply := congrArg Prod.fst hexec
        cases congrArg Prod.snd hexec
        exact ⟨checkPage_eq_ok hcheck, Option.map_eq_none_iff.mp hreply⟩
      · rcases outcome with error | nextIndex | ⟨pages, -, -, -, -⟩
        · exact done_triple _
        · exact done_triple _
        · dsimp only
          cases assembleTransformPages text pages with
          | error message => exact step_triple (fun _ _ => trivial) fun _ => done_triple _
          | ok assembled =>
            exact step_triple (fun _ _ => trivial) fun _ =>
              step_triple (fun _ _ => trivial) fun _ => done_triple _

/-! ## Runs -/

/-- In an orderly step a page that waits to be staged goes on to have no retained result. -/
theorem spares_of_orderly {w : PageWorld} {e : PageEvent} (h : Orderly w e) :
    Spares discipline discardBy w e := by
  intro j op hj hturn hneeds
  cases op with
  | stage q =>
    obtain ⟨hvalid, hnone⟩ := hneeds
    refine ⟨hvalid, ?_⟩
    cases e with
    | spawn p => exact hnone
    | restart => exact hnone
    | other session => exact completed_discard hnone
    | drive i outside =>
      cases hi : w.turn i with
      | none =>
        rw [happen_of_no_turn hi]
        exact hnone
      | some op =>
        rw [happen_of_turn hi]
        cases op with
        | discard session => exact completed_discard hnone
        | lookup q' => exact hnone
        | transform assembled inboundBytes => exact hnone
        | stage q' =>
          exact ((stage_cases w.state.coordinator q' outside.nowMs).completed_eq ..).trans hnone
        | settle session transformId generation finalDigest result =>
          refine completed_settle hnone fun howns hresult hsession => ?_
          obtain ⟨result, rfl⟩ := Option.isSome_iff_exists.mp hresult
          exact h.2 session transformId generation finalDigest result hi howns j q
            (fun heq => hj (congrArg some heq)) hturn hsession
  | _ => trivial

theorem Staged.pendingCap
    {queuedAtMs : Nat} {outcome : Except TransformPageStageError TransformPageStageAction}
    (h : Staged c q queuedAtMs outcome c') (hreadmits : ¬ Readmits c q)
    (hcap : c.pendingTransformCount ≤ c.maxPendingTransforms) :
    c'.pendingTransformCount ≤ c'.maxPendingTransforms := by
  have hroomy : (c.pendingTransformCount < c.maxPendingTransforms ∨
      (c.sessions.find q.session).isSome) → c.phaseOf q.session = .idle → q.pageIndex = 0 →
      c.Fits q.pageBytes → c.pendingTransformCount < c.maxPendingTransforms := by
    rintro (hlt | hsome) hphase hindex hfits
    · exact hlt
    · exact Nat.lt_of_not_le fun hfull => hreadmits ⟨hfull, hsome, hphase, hindex, hfits⟩
  cases h with
  | began hspace hphase hindex hfits => exact hroomy hspace hphase hindex hfits
  | whole hspace hphase hindex hfits => exact hroomy hspace hphase hindex hfits
  | refused => exact Nat.le_trans (Nat.sub_le ..) hcap
  | _ => exact hcap

theorem pendingCap_discard (session : String)
    (hcap : c.pendingTransformCount ≤ c.maxPendingTransforms) :
    (c.discard session).pendingTransformCount ≤ (c.discard session).maxPendingTransforms := by
  rcases discard_cases c session with ⟨-, heq⟩ | heq
  · rw [heq]
    exact hcap
  · rw [heq]
    exact Nat.le_trans (Nat.sub_le ..) hcap

theorem pendingCap_settle (session transformId : String)
    (generation : Nat) (finalDigest : String) (result : Option PreparedOutput)
    (hcap : c.pendingTransformCount ≤ c.maxPendingTransforms) :
    (c.settle session transformId generation finalDigest result).pendingTransformCount ≤
      (c.settle session transformId generation finalDigest result).maxPendingTransforms := by
  by_cases howns : Owns c session transformId
  · rw [settle_of_owns howns]
    exact Nat.le_trans (Nat.sub_le ..) hcap
  · rw [settle_of_not_owns howns]
    exact hcap

/-- One orderly step stays within the cap. -/
theorem pendingCap_happen {w : PageWorld} {e : PageEvent} (h : Orderly w e)
    (hcap : w.state.coordinator.pendingTransformCount ≤ w.state.coordinator.maxPendingTransforms) :
    (happen discipline discardBy w e).state.coordinator.pendingTransformCount ≤
      (happen discipline discardBy w e).state.coordinator.maxPendingTransforms := by
  cases e with
  | spawn p => exact hcap
  | restart => exact hcap
  | other session => exact pendingCap_discard session hcap
  | drive i outside =>
    cases hi : w.turn i with
    | none =>
      rw [happen_of_no_turn hi]
      exact hcap
    | some op =>
      rw [happen_of_turn hi]
      cases op with
      | discard session => exact pendingCap_discard session hcap
      | lookup q => exact hcap
      | transform assembled inboundBytes => exact hcap
      | stage q =>
        exact (stage_cases w.state.coordinator q outside.nowMs).pendingCap (h.1 q hi) hcap
      | settle session transformId generation finalDigest result =>
        exact pendingCap_settle session transformId generation finalDigest result hcap

/-- The module as it starts. -/
def start : PageWorld := { state := {}, processes := [] }

abbrev run (es : List PageEvent) : PageWorld := World.run discipline discardBy start es

theorem consistent_start : Consistent start.state where
  accounted := ⟨rfl, rfl⟩
  room := Nat.zero_le _
  idle _ _ := rfl
  collected _ _ h := by cases h

/-- Every event of a run is orderly where it happens. -/
def OrderlyRun (es : List PageEvent) : Prop :=
  ∀ before e after, es = before ++ e :: after → Orderly (run before) e

theorem guarded_of_orderly {es : List PageEvent} (hhandler : ∀ e ∈ es, FromHandler text e)
    (h : OrderlyRun es) : Guarded discipline (run es) := by
  refine guarded_run (fun session s hs => hs.discard session) ⟨consistent_start, ?_⟩
    (fun before e after hes =>
      ⟨spares_of_orderly (h before e after hes), Event.admitted fun _ _ _ => trivial⟩) ?_
  · intro i p hp
    cases hp
  · intro e he
    cases e with
    | spawn p =>
      obtain ⟨session, request, rfl⟩ := hhandler _ he
      exact handler_triple text session request
    | _ => trivial

theorem OrderlyRun.initial {es fs : List PageEvent} (h : OrderlyRun (es ++ fs)) :
    OrderlyRun es := by
  intro before e after hes
  exact h before e (after ++ fs) (by rw [hes, List.append_assoc, List.cons_append])

theorem pendingCap_run {es : List PageEvent} (h : OrderlyRun es) :
    (run es).state.coordinator.pendingTransformCount ≤
      (run es).state.coordinator.maxPendingTransforms := by
  induction es using List.reverseRecOn with
  | nil => exact Nat.zero_le _
  | append_singleton es e ih =>
    rw [run, run_concat]
    exact pendingCap_happen (h es e [] rfl) (ih h.initial)

theorem stepHolds_of_needs {s : State} (h : Consistent s) {op : Op} (hneeds : Needs op s)
    (outside : Outside) : StepHolds outside op s := by
  cases op with
  | lookup q =>
    refine ⟨rfl, fun found hfound hgeneration hlast hdigest => ?_⟩
    change (s.coordinator.completed q.session q.transformId).map _ = _
    rw [hfound, Option.map_some, answer, if_pos ⟨hgeneration, hlast, hdigest⟩]
  | stage q =>
    have hstaged := stage_cases s.coordinator q outside.nowMs
    refine ⟨fun pages transformId generation finalDigest inboundBytes hok => ?_,
      fun error herror hbusy => ?_⟩
    · rw [hok] at hstaged
      obtain ⟨hid, hpages⟩ := h.handsOver hneeds.1 hstaged
      exact ⟨hpages, hid ▸ hneeds.2⟩
    · have hslots := @Accounted.slots_le _ q.session h.accounted
      have hbytes := @Accounted.bytes_le _ q.session h.accounted
      rw [herror] at hstaged
      generalize (s.coordinator.stage q outside.nowMs).2 = c at hstaged ⊢
      cases hstaged with
      | full hfull hnone =>
        have hidle : s.coordinator.phaseOf q.session = .idle := by
          simp [phaseOf, hnone]
        exact ⟨hidle, by rw [hidle]; rfl, by rw [hidle]; rfl⟩
      | refused =>
        exact ⟨phaseOf_replace_self, Nat.sub_add_cancel hslots, Nat.sub_add_cancel hbytes⟩
      | busy => exact absurd rfl hbusy
  | _ => trivial

/-- The counters hold after a run, and what should hold of each of its steps does. -/
def HeldAlong (es : List PageEvent) : Prop :=
  Held (run es).state.coordinator ∧
    ∀ before i outside after, es = before ++ .drive i outside :: after →
      ∀ op, (run before).turn i = some op → StepHolds outside op (run before).state

/-- **Staging holds along every orderly run.**  In every state the counters are right and within
their caps, and every step does what it should. -/
theorem transform_pages_held (text : JsonText) (es : List PageEvent)
    (hhandler : ∀ e ∈ es, FromHandler text e) (h : OrderlyRun es) : HeldAlong es := by
  constructor
  · have hinv := (guarded_of_orderly hhandler h).invariant
    exact ⟨hinv.accounted.pending, pendingCap_run h, hinv.accounted.bytes, hinv.room⟩
  · rintro before i outside after rfl op hturn
    have hguarded := guarded_of_orderly
      (fun e he => hhandler e (List.mem_append_left _ he)) h.initial
    exact stepHolds_of_needs hguarded.invariant (World.needs_of_guarded hguarded hturn) outside

/-! ## Two requests without messages -/

namespace Sample

def digest : String := "44136fa355b3678a1146ad16f7e8649e94fb4fc21fe77e8310c060f61caaff8a"

def pageRequest (transformId : String) (index total : Nat) : Json :=
  .object
    [("transform_generation", .number (.posInt 1)),
      ("transform_page_complete", .bool (index + 1 == total)),
      ("transform_page_digest", .string digest), ("transform_page_id", .string transformId),
      ("transform_page_index", .number (.posInt index)),
      ("transform_page_total", .number (.posInt total))]

/-- Neither has an array of messages. -/
def jsonText : JsonText where
  size v := if (v.get? "transform_page_complete").bind Json.asBool = some true then 222 else 223
  contentDigest _ := digest
  parse _ := .error "no continuation"

/-- A transform in one page, from its request to its result. -/
def whole (i : Nat) (session transformId : String) : List PageEvent :=
  [.spawn (handleTransformPageValue jsonText session (pageRequest transformId 0 1)), .drive i {},
    .drive i {}, .drive i { outcome := .response ⟨[111]⟩ }, .drive i {}]

/-- The first of two pages, looked up and staged. -/
def first (i : Nat) (session transformId : String) : List PageEvent :=
  [.spawn (handleTransformPageValue jsonText session (pageRequest transformId 0 2)), .drive i {},
    .drive i {}]

/-- A session is used once, every slot is taken by others, and the session starts again. -/
def readmitted : List PageEvent :=
  whole 0 "s" "t" ++ (List.range 64).flatMap (fun k => first (k + 1) (toString k) "t") ++
    first 65 "s" "u"

/-- The same page twice; the second is looked up before the first has its result. -/
def overtaken : List PageEvent :=
  (whole 0 "s" "t").take 3 ++
    [.spawn (handleTransformPageValue jsonText "s" (pageRequest "t" 0 1)), .drive 1 {}] ++
    (whole 0 "s" "t").drop 3 ++ [.drive 1 {}]

theorem fromHandler_whole {i : Nat} {session transformId : String} :
    ∀ e ∈ whole i session transformId, FromHandler jsonText e := by
  intro e he
  simp only [whole, List.mem_cons, List.not_mem_nil, or_false] at he
  rcases he with rfl | rfl | rfl | rfl | rfl
  · exact ⟨_, _, rfl⟩
  all_goals trivial

theorem fromHandler_first {i : Nat} {session transformId : String} :
    ∀ e ∈ first i session transformId, FromHandler jsonText e := by
  intro e he
  simp only [first, List.mem_cons, List.not_mem_nil, or_false] at he
  rcases he with rfl | rfl | rfl
  · exact ⟨_, _, rfl⟩
  all_goals trivial

theorem fromHandler_readmitted : ∀ e ∈ readmitted, FromHandler jsonText e := by
  intro e he
  rcases List.mem_append.mp he with he | he
  · rcases List.mem_append.mp he with he | he
    · exact fromHandler_whole e he
    · obtain ⟨k, -, he⟩ := List.mem_flatMap.mp he
      exact fromHandler_first e he
  · exact fromHandler_first e he

theorem fromHandler_overtaken : ∀ e ∈ overtaken, FromHandler jsonText e := by
  intro e he
  rcases List.mem_append.mp he with he | he
  · rcases List.mem_append.mp he with he | he
    · rcases List.mem_append.mp he with he | he
      · exact fromHandler_whole e (List.mem_of_mem_take he)
      · simp only [List.mem_cons, List.not_mem_nil, or_false] at he
        rcases he with rfl | rfl
        · exact ⟨_, _, rfl⟩
        · trivial
    · exact fromHandler_whole e (List.mem_of_mem_drop he)
  · rw [List.mem_singleton.mp he]
    trivial

/-- The page of the overtaken request. -/
def overtakenPage : TransformPage where
  session := "s"
  transformId := "t"
  generation := 1
  pageIndex := 0
  pageTotal := 1
  pageDigest := digest
  page := pageRequest "t" 0 1
  pageBytes := 222
  pageComplete := true

/-- Between the two pages of one session another one starts and is discarded. -/
def around : List PageEvent :=
  first 0 "s" "t" ++ first 1 "o" "u" ++ [.other "o"] ++
    [.spawn (handleTransformPageValue jsonText "s" (pageRequest "t" 1 2)), .drive 2 {}, .drive 2 {},
      .drive 2 { outcome := .response ⟨[111]⟩ }, .drive 2 {}]

theorem fromHandler_around : ∀ e ∈ around, FromHandler jsonText e := by
  intro e he
  simp only [around, first, List.cons_append, List.nil_append, List.mem_cons, List.not_mem_nil,
    or_false] at he
  rcases he with rfl | rfl | rfl | rfl | rfl | rfl | rfl | rfl | rfl | rfl | rfl | rfl
  all_goals first | trivial | exact ⟨_, _, rfl⟩

/-- A run below the cap, in which one process at a time has a turn, is orderly. -/
theorem orderlyRun_of_alone {es : List PageEvent}
    (h : ∀ n < es.length, (∀ i < (run (es.take n)).processes.length,
      ∀ j < (run (es.take n)).processes.length, ((run (es.take n)).turn i).isSome = true →
        ((run (es.take n)).turn j).isSome = true → j = i) ∧
      (run (es.take n)).state.coordinator.pendingTransformCount <
        (run (es.take n)).state.coordinator.maxPendingTransforms) : OrderlyRun es := by
  rintro before e after rfl
  have hat := h before.length (by simp)
  rw [List.take_left] at hat
  obtain ⟨halone, hcap⟩ := hat
  cases e with
  | drive i outside =>
    refine ⟨fun q _ hreadmits => absurd hreadmits.1 (Nat.not_le.mpr hcap), ?_⟩
    intro session transformId generation finalDigest result hi _ j q hj hturn
    have hplace : ∀ k op, (run before).turn k = some op → k < (run before).processes.length := by
      intro k op hk
      obtain ⟨next, hprocess⟩ := process_of_turn hk
      by_contra hle
      rw [process, List.getElem?_eq_none (by omega)] at hprocess
      cases hprocess
    exact absurd (halone i (hplace i _ hi) j (hplace j _ hturn) (by rw [hi]; rfl)
      (by rw [hturn]; rfl)) hj
  | _ => trivial

end Sample

theorem whole_transform_held : HeldAlong Sample.around :=
  transform_pages_held Sample.jsonText _ Sample.fromHandler_around
    (Sample.orderlyRun_of_alone (by decide +kernel))

/-- The 65th pending transform, and the second apply of a transform that has its result. -/
theorem staging_not_held :
    (∃ es, (∀ e ∈ es, FromHandler Sample.jsonText e) ∧
      (run es).state.coordinator.maxPendingTransforms <
        (run es).state.coordinator.pendingTransformCount) ∧
    ∃ es, (∀ e ∈ es, FromHandler Sample.jsonText e) ∧ ¬ HeldAlong es := by
  refine ⟨⟨Sample.readmitted, Sample.fromHandler_readmitted, by decide +kernel⟩,
    Sample.overtaken, Sample.fromHandler_overtaken, fun h => ?_⟩
  have hstep := h.2 Sample.overtaken.dropLast 1 {} [] rfl (.stage Sample.overtakenPage)
    (by decide +kernel)
  have hretained := (hstep.1 [Sample.pageRequest "t" 0 1] "t" 1 Sample.digest 222
    (by decide +kernel)).2
  revert hretained
  decide +kernel

end MagicContext.TransformPages
