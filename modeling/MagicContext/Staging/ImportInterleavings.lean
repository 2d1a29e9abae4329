import MagicContext.Staging.ImportRuns

/-!
# Interleavings of state imports

Requests on any routes take turns with the binding and unbinding of routes.  A request drops what
the session it names has staged whenever it is refused, and most of the checks that refuse it are
made before its route is looked up, so a route without any binding can drop the import of another
session.

## What is here

* `Allowed` — who may change what a session has staged.
* `StepHolds`, `HeldAlong` — what should hold of every step, and of a run.
* `Proper` — a request that is refused before its binding is known drops nothing of a session that
  its route is not bound to.
* `state_imports_held_iff` — a run holds exactly when each of its steps is proper.
-/

namespace MagicContext.StateImports

open Host (RouteHandle)

/-! ## What should hold -/

abbrev ImportWorld := World Op Op.Reply State PreparedOutcome

/-- Nothing changes but by the programs. -/
abbrev ImportEvent := World.Event Op Op.Reply Outside Empty PreparedOutcome

/-- A request works for a session when it found its route bound to it, or when its route is bound
to it now. -/
def WorksFor (op : Op) (s : State) (session : String) : Prop :=
  (op.resolved = some session ∧ (op.route, session) ∈ s.resolved) ∨
    s.bindings.find op.route = some session

/-- What a session has staged is changed by a request that works for it, by its teardown, or by an
eviction once it is stale. -/
def Allowed (outside : Outside) (op : Op) (s : State) (session : String) : Prop :=
  match op.action with
  | .teardown other => other = session
  | .stage batch => batch.session = session ∧ WorksFor op s session ∨
      ∃ phase, s.coordinator.sessions.find session = some phase ∧
        s.coordinator.Stale outside.instant phase ∧
        (op.exec outside s).2.coordinator.sessions.find session = none
  | .discard other => other = session ∧ WorksFor op s session
  | .complete other _ => other = session ∧ WorksFor op s session
  | _ => False

structure StepHolds (outside : Outside) (op : Op) (s : State) : Prop where
  allowed : ∀ session, (op.exec outside s).2.coordinator.sessions.find session ≠
    s.coordinator.sessions.find session → Allowed outside op s session
  handsOver : ∀ batch, op.action = .stage batch →
    ∀ importId compartments, (s.coordinator.stage batch outside.instant).1 =
      .ok (.apply importId compartments) →
    ∃ accepted, attempt batch.session (op.exec outside s).2.log = accepted ++ [batch] ∧
      HandsOver compartments importId (accepted ++ [batch])

/-- A request that does not know its binding yet drops nothing of a session that its route is not
bound to. -/
def Proper (op : Op) (s : State) : Prop :=
  match op.action with
  | .discard session => op.resolved = none →
      s.coordinator.sessions.find session = none ∨ s.bindings.find op.route = some session
  | _ => True

/-! ## The invariant -/

/-- No import is committed twice. -/
structure Receipts (s : State) : Prop where
  once : (s.committed.map Prod.fst).Nodup
  recorded : ∀ e ∈ s.committed, s.imports.find e.1 ≠ none

structure Consistent (s : State) : Prop where
  held : Held s.coordinator
  collects : Collects s.coordinator s.log
  receipts : Receipts s

variable {s : State} {op : Op} {P : State → Prop}

theorem Consistent.drop (h : Consistent s) (session : String) : Consistent (s.drop session) where
  held := h.held.discard session
  collects := h.collects.discard session
  receipts := ⟨h.receipts.once, h.receipts.recorded⟩

theorem complete_cases (c : StateImportCoordinator) (session importId : String) :
    c.complete session importId = c ∨
      (c.sessions.find session).isSome ∧ c.complete session importId = c.discard session := by
  unfold StateImportCoordinator.complete
  split
  · rename_i active bytes hfind
    split
    · right
      rw [hfind]
      exact ⟨rfl, rfl⟩
    · exact .inl rfl
  · exact .inl rfl

/-- A step of a request whose batch is in order, for a session that it found its route bound to. -/
structure Needs (op : Op) (s : State) : Prop where
  resolved : ∀ session ∈ op.resolved, (op.route, session) ∈ s.resolved
  batch : ∀ b, op.action = .stage b → b.Valid ∧ op.resolved = some b.session
  completes : ∀ session importId, op.action = .complete session importId →
    op.resolved = some session
  discards : ∀ session, op.action = .discard session → ∀ other ∈ op.resolved, other = session

theorem Receipts.commit (h : Receipts s) (outside : Outside) (session importId : String)
    (compartments : List StoredCompartment) :
    Receipts (commitStateImport outside session importId compartments s).2 := by
  unfold commitStateImport preflightStateImport
  cases hfind : s.imports.find session with
  | some found =>
    dsimp only
    split_ifs <;> exact h
  | none =>
    split_ifs
    · exact h
    · dsimp only
      split
      · exact h
      · constructor
        · rw [List.map_cons]
          refine List.nodup_cons.mpr ⟨fun hmem => ?_, h.once⟩
          obtain ⟨e, he, heq⟩ := List.mem_map.mp hmem
          exact h.recorded e he (heq ▸ hfind)
        · intro e he
          rw [Entries.find_set]
          split
          · rintro ⟨⟩
          · rename_i hne
            rcases List.mem_cons.mp he with rfl | he
            · exact absurd rfl hne
            · exact h.recorded e he

theorem commit_coordinator (outside : Outside) (session importId : String)
    (compartments : List StoredCompartment) (s : State) :
    (commitStateImport outside session importId compartments s).2.coordinator = s.coordinator ∧
      (commitStateImport outside session importId compartments s).2.log = s.log ∧
      (commitStateImport outside session importId compartments s).2.resolved = s.resolved ∧
      (commitStateImport outside session importId compartments s).2.bindings = s.bindings := by
  unfold commitStateImport
  split
  · exact ⟨rfl, rfl, rfl, rfl⟩
  · exact ⟨rfl, rfl, rfl, rfl⟩
  · dsimp only
    split <;> exact ⟨rfl, rfl, rfl, rfl⟩

theorem consistent_exec (h : Consistent s) (hneeds : Needs op s) (outside : Outside) :
    Consistent (op.exec outside s).2 := by
  obtain ⟨route, resolved, action⟩ := op
  cases action with
  | bind session | unbind => exact ⟨h.held, h.collects, h.receipts.once, h.receipts.recorded⟩
  | teardown session => exact h.drop session
  | discard session => exact h.drop session
  | resolve session =>
    unfold Op.exec
    dsimp only
    split
    · exact h
    · split
      · exact ⟨h.held, h.collects, h.receipts.once, h.receipts.recorded⟩
      · exact h
  | openStore => exact h
  | preflight session importId => exact h
  | nowMs => exact h
  | stage batch =>
    have hstaged := stage_cases s.coordinator batch outside.instant
    have hvalid := (hneeds.batch batch rfl).1
    exact
      { held := (h.held.foldl_discard _).staged hstaged
        collects := (h.collects.foldl_discard _).staged hvalid hstaged
        receipts := ⟨h.receipts.once, h.receipts.recorded⟩ }
  | commit session importId compartments =>
    unfold Op.exec
    split
    · exact h
    · obtain ⟨hcoordinator, hlog, -⟩ := commit_coordinator outside session importId compartments s
      exact
        { held := hcoordinator ▸ h.held
          collects := hcoordinator ▸ hlog ▸ h.collects
          receipts := h.receipts.commit outside session importId compartments }
  | complete session importId =>
    unfold Op.exec
    dsimp only
    rcases complete_cases s.coordinator session importId with heq | ⟨hsome, heq⟩
    · rw [heq]
      cases s.coordinator.sessions.find session <;>
        exact ⟨h.held, h.collects, h.receipts.once, h.receipts.recorded⟩
    · rw [heq, find_discard, if_pos rfl, hsome]
      exact h.drop session

/-! ## Outlines -/

def discipline : Discipline Op Op.Reply State Outside where
  exec := Op.exec
  invariant := Consistent
  needs := Needs
  may _ s s' := Consistent s' ∧ s.resolved ⊆ s'.resolved
  spares _ s s' := s.resolved ⊆ s'.resolved
  stable hneeds hspares :=
    ⟨fun session hsession => hspares (hneeds.resolved session hsession), hneeds.batch,
      hneeds.completes, hneeds.discards⟩
  invariant_of_may _ hmay := hmay.1

/-- What was resolved stays known. -/
theorem resolved_exec (outside : Outside) (op : Op) (s : State) :
    s.resolved ⊆ (op.exec outside s).2.resolved := by
  obtain ⟨-, -, action⟩ := op
  cases action with
  | resolve session =>
    unfold Op.exec
    dsimp only
    split
    · exact List.Subset.refl _
    · split
      · exact List.subset_cons_self ..
      · exact List.Subset.refl _
  | commit session importId compartments =>
    unfold Op.exec
    split
    · exact List.Subset.refl _
    · rw [(commit_coordinator outside session importId compartments s).2.2.1]
      exact List.Subset.refl _
  | _ => exact List.Subset.refl _

abbrev run (es : List ImportEvent) : ImportWorld :=
  World.run discipline (fun e _ => nomatch e) { state := {}, processes := [] } es

theorem step_triple {next : op.Reply → Handler} (hneeds : ∀ s, P s → Needs op s)
    (hnext : ∀ r, discipline.Triple
      (fun s' => ∃ outside s, Consistent s ∧ Needs op s ∧ Op.exec outside op s = (r, s'))
      (next r) fun _ _ => True) : discipline.Triple P (.step op next) fun _ _ => True :=
  Discipline.triple_step hneeds
    (fun outside s hinv h => ⟨consistent_exec hinv h outside, resolved_exec outside op s⟩) hnext

theorem done_triple (outcome : PreparedOutcome) :
    discipline.Triple P (.done outcome) fun _ _ => True :=
  Discipline.triple_done fun _ _ => trivial

/-- A request that works for the session from here on. -/
def Knows (route : RouteHandle) (session : String) (s : State) : Prop :=
  (route, session) ∈ s.resolved

/-- A step of a request that found its binding. -/
theorem known_triple {route : RouteHandle} {session : String} {action : Action}
    {next : action.Reply → Handler}
    (hbatch : ∀ b, action = .stage b → b.Valid ∧ b.session = session)
    (hcompletes : ∀ other importId, action = .complete other importId → other = session)
    (hdiscards : ∀ other, action = .discard other → session = other)
    (hnext : ∀ r, discipline.Triple (Knows route session) (next r) fun _ _ => True) :
    discipline.Triple (Knows route session) (.step ⟨route, some session, action⟩ next)
      fun _ _ => True := by
  refine step_triple (fun _ hknows => ⟨?_, ?_, ?_, ?_⟩) fun r => ?_
  · rintro other ⟨⟩
    exact hknows
  · intro b hb
    obtain ⟨hvalid, hsession⟩ := hbatch b hb
    exact ⟨hvalid, congrArg some hsession.symm⟩
  · intro other importId hop
    exact congrArg some (hcompletes other importId hop).symm
  · rintro other hop _ ⟨⟩
    exact hdiscards other hop
  · refine Discipline.triple_mono (hnext r) ?_
    rintro s' ⟨outside, s, -, hneeds, hexec⟩
    have hs' : (Op.exec outside ⟨route, some session, action⟩ s).2 = s' := congrArg Prod.snd hexec
    exact hs' ▸ resolved_exec outside _ s (hneeds.resolved session rfl)

theorem importBatch_triple (text : JsonText) (route : RouteHandle) (request : Json)
    {parsed : StateImportWire} (henvelope : envelopeError parsed = none) :
    discipline.Triple (Knows route parsed.sessionId) (importBatch text route request parsed)
      fun _ _ => True := by
  have hseq : parsed.batchSeq < parsed.batchCount := by
    unfold envelopeError at henvelope
    split_ifs at henvelope with h1 h2 h3 h4
    omega
  have hrefuse : ∀ outcome, discipline.Triple (Knows route parsed.sessionId)
      (refuse route (some parsed.sessionId) parsed.sessionId outcome) fun _ _ => True := by
    intro outcome
    refine known_triple nofun nofun (fun other h => ?_) fun _ => done_triple outcome
    cases h
    rfl
  refine known_triple nofun nofun nofun fun storeOpen => ?_
  cases storeOpen with
  | false => exact hrefuse _
  | true =>
    refine known_triple nofun nofun nofun fun preflight => ?_
    rcases preflight with (message | _ | error) | (_ | imported)
    · exact hrefuse _
    · exact hrefuse _
    · exact hrefuse _
    · refine known_triple nofun nofun nofun fun createdAt => ?_
      dsimp only
      cases hvalidate : validateStateImportCompartments
          (parsed.compartments.map fun w => w.intoStored createdAt) with
      | some error => exact hrefuse _
      | none =>
        refine known_triple (fun b hb => ?_) nofun nofun fun outcome => ?_
        · cases hb
          exact ⟨⟨hseq, hvalidate⟩, rfl⟩
        · rcases outcome with (⟨-, -⟩ | error) | (staged | ⟨importId, -⟩)
          · exact done_triple _
          · exact done_triple _
          · exact done_triple _
          · refine known_triple nofun nofun nofun fun committed => ?_
            refine known_triple nofun (fun other importId h => ?_) nofun fun _ => done_triple _
            cases h
            rfl
    · exact hrefuse _

/-- A step that knows no binding, and is none of those that need one. -/
theorem free_triple {route : RouteHandle} {action : Action} {next : action.Reply → Handler}
    (hbatch : ∀ b, action ≠ .stage b)
    (hcompletes : ∀ other importId, action ≠ .complete other importId)
    (hnext : ∀ r, discipline.Triple
      (fun s' => ∃ outside s, Consistent s ∧ Needs ⟨route, none, action⟩ s ∧
        Op.exec outside ⟨route, none, action⟩ s = (r, s')) (next r) fun _ _ => True) :
    discipline.Triple P (.step ⟨route, none, action⟩ next) fun _ _ => True :=
  step_triple (fun _ _ => ⟨nofun, fun b h => absurd h (hbatch b),
    fun other importId h => absurd h (hcompletes other importId), nofun⟩) hnext

theorem refuse_triple (route : RouteHandle) (session : String) (outcome : PreparedOutcome) :
    discipline.Triple P (refuse route none session outcome) fun _ _ => True :=
  free_triple nofun nofun fun _ => done_triple outcome

theorem handler_triple (text : JsonText) (route : RouteHandle) (request : Json) :
    discipline.Triple (fun _ => True) (handleStateImportValue text route request)
      fun _ _ => True := by
  unfold handleStateImportValue
  dsimp only
  split_ifs
  · split
    · exact refuse_triple _ _ _
    · exact done_triple _
  · split
    · split
      · exact refuse_triple _ _ _
      · exact done_triple _
    · rename_i parsed hparsed
      cases henvelope : envelopeError parsed with
      | some outcome => exact refuse_triple _ _ _
      | none =>
        refine free_triple (by rintro _ ⟨⟩) (by rintro _ _ ⟨⟩) fun bound => ?_
        cases bound with
        | error error => cases error <;> exact refuse_triple _ _ _
        | ok u =>
          refine Discipline.triple_mono (importBatch_triple text route request henvelope) ?_
          rintro s' ⟨outside, s, -, -, hexec⟩
          unfold Op.exec at hexec
          dsimp only at hexec
          split at hexec
          · cases hexec
          · split at hexec
            · cases hexec
              exact List.mem_cons_self ..
            · cases hexec

theorem teardown_triple (route : RouteHandle) (session : Option String) :
    discipline.Triple P (teardown route session) fun _ _ => True := by
  cases session with
  | none => exact done_triple _
  | some session => exact free_triple nofun nofun fun _ => done_triple _

/-! ## Runs -/

/-- The programs are requests, and bindings and unbindings of routes. -/
def FromHandler (text : JsonText) : ImportEvent → Prop
  | .spawn p => (∃ route request, p = handleStateImportValue text route request) ∨
      (∃ route session, p = bindRoute route session) ∨ ∃ route, p = unbindRoute route
  | _ => True

theorem consistent_start : Consistent {} where
  held := ⟨rfl, Nat.zero_le _, rfl, Nat.zero_le _⟩
  collects := ⟨fun _ _ => rfl, fun _ _ h => by cases h⟩
  receipts := ⟨List.nodup_nil, fun _ h => absurd h List.not_mem_nil⟩

variable {text : JsonText}

theorem guarded_run {es : List ImportEvent} (hhandler : ∀ e ∈ es, FromHandler text e) :
    World.Guarded discipline (run es) := by
  refine World.guarded_run (fun e => nomatch e) ⟨consistent_start, fun i p hp => by cases hp⟩ ?_ ?_
  · refine fun before e after _ => ⟨fun j op _ _ => ?_, World.Event.admitted fun _ _ _ => trivial⟩
    cases e with
    | spawn p => exact List.Subset.refl _
    | restart => exact List.Subset.refl _
    | other e => exact nomatch e
    | drive i outside =>
      cases hi : (run before).turn i with
      | none =>
        rw [World.happen_of_no_turn hi]
        exact List.Subset.refl _
      | some op' =>
        rw [World.happen_of_turn hi]
        exact resolved_exec outside op' _
  · intro e he
    cases e with
    | spawn p =>
      rcases hhandler _ he with ⟨route, request, rfl⟩ | ⟨route, -, rfl⟩ | ⟨route, rfl⟩
      · exact handler_triple text route request
      · exact free_triple nofun nofun fun _ => teardown_triple _ _
      · exact free_triple nofun nofun fun _ => teardown_triple _ _
    | _ => trivial

/-! ## Who changes what -/

theorem find_ne_of_discard {c : StateImportCoordinator} {session other : String}
    (h : (c.discard other).sessions.find session ≠ c.sessions.find session) :
    other = session ∧ c.sessions.find session ≠ none := by
  rw [find_discard] at h
  by_cases heq : other = session
  · rw [if_pos heq] at h
    exact ⟨heq, h.symm⟩
  · rw [if_neg heq] at h
    exact absurd rfl h

theorem worksFor_of_needs {session : String} (hneeds : Needs op s)
    (h : op.resolved = some session) : WorksFor op s session :=
  .inl ⟨h, hneeds.resolved session h⟩

theorem allowed_of_proper (hneeds : Needs op s) (hproper : Proper op s)
    (outside : Outside) (session : String)
    (hchange : (op.exec outside s).2.coordinator.sessions.find session ≠
      s.coordinator.sessions.find session) : Allowed outside op s session := by
  obtain ⟨route, resolved, action⟩ := op
  cases action with
  | teardown other => exact (find_ne_of_discard hchange).1
  | discard other =>
    obtain ⟨rfl, hsome⟩ := find_ne_of_discard hchange
    refine ⟨rfl, ?_⟩
    cases resolved with
    | some known =>
      cases hneeds.discards _ rfl known rfl
      exact worksFor_of_needs hneeds rfl
    | none => exact .inr ((hproper rfl).resolve_left hsome)
  | stage batch =>
    by_cases heq : batch.session = session
    · subst heq
      exact .inl ⟨rfl, worksFor_of_needs hneeds (hneeds.batch batch rfl).2⟩
    · right
      have hsame := (stage_cases s.coordinator batch outside.instant).find_of_ne (Ne.symm heq)
      have hafter : (Op.exec outside ⟨route, resolved, .stage batch⟩ s).2.coordinator.sessions.find
          session = (s.coordinator.evictStale outside.instant).sessions.find session := hsame
      rcases find_evictStale s.coordinator outside.instant session with hkept | ⟨hnone, hstale⟩
      · exact absurd (hafter.trans hkept) hchange
      · obtain ⟨phase, hfind, hstale⟩ := hstale
        exact ⟨phase, hfind, hstale, hafter.trans hnone⟩
  | complete other importId =>
    rcases complete_cases s.coordinator other importId with heq | ⟨-, heq⟩
    · refine absurd ?_ hchange
      change (s.coordinator.complete other importId).sessions.find session = _
      rw [heq]
    · change (s.coordinator.complete other importId).sessions.find session ≠ _ at hchange
      rw [heq] at hchange
      obtain ⟨rfl, -⟩ := find_ne_of_discard hchange
      exact ⟨rfl, worksFor_of_needs hneeds (hneeds.completes _ importId rfl)⟩
  | commit other importId compartments =>
    refine absurd ?_ hchange
    unfold Op.exec
    split
    · rfl
    · rw [(commit_coordinator outside other importId compartments s).1]
  | resolve other =>
    refine absurd ?_ hchange
    unfold Op.exec
    dsimp only
    split
    · rfl
    · split <;> rfl
  | bind other | unbind | openStore | preflight other importId | nowMs => exact absurd rfl hchange

/-- A request that drops another's import without knowing its binding is not allowed to. -/
theorem proper_of_allowed {outside : Outside}
    (h : ∀ session, (op.exec outside s).2.coordinator.sessions.find session ≠
      s.coordinator.sessions.find session → Allowed outside op s session) : Proper op s := by
  obtain ⟨route, resolved, action⟩ := op
  cases action with
  | discard session =>
    intro hresolved
    subst hresolved
    by_contra hnot
    rw [not_or] at hnot
    obtain ⟨-, hworks⟩ := h session (by
      change (s.coordinator.discard session).sessions.find session ≠ _
      rw [find_discard, if_pos rfl]
      exact fun heq => hnot.1 heq.symm)
    rcases hworks with ⟨hsome, -⟩ | hbound
    · cases hsome
    · exact hnot.2 hbound
  | _ => trivial

theorem stepHolds_of_proper (h : Consistent s) (hneeds : Needs op s) (hproper : Proper op s)
    (outside : Outside) : StepHolds outside op s where
  allowed := allowed_of_proper hneeds hproper outside
  handsOver := by
    intro batch hop importId compartments happly
    obtain ⟨route, resolved, action⟩ := op
    cases hop
    have hstaged := stage_cases s.coordinator batch outside.instant
    have hattempt : attempt batch.session
        (Op.exec outside ⟨route, resolved, .stage batch⟩ s).2.log =
          attempt batch.session
            (((s.coordinator.staleSessions outside.instant).map Record.dropped).reverse ++ s.log) ++
            [batch] := by
      change attempt batch.session
        (.staged batch (s.coordinator.stage batch outside.instant).1 :: _) = _
      rw [happly]
      exact attempt_staged
    refine ⟨_, hattempt, ?_⟩
    rw [happly] at hstaged
    exact (h.collects.foldl_discard _).handsOver (hneeds.batch batch rfl).1 hstaged

/-- The counters hold after a run, no import was committed twice, and what should hold of each of
its steps does. -/
structure HeldAlong (es : List ImportEvent) : Prop where
  counters : Held (run es).state.coordinator
  once : (run es).state.committed.Nodup
  steps : ∀ before i outside after, es = before ++ .drive i outside :: after →
    ∀ op, (run before).turn i = some op → StepHolds outside op (run before).state

/-- Every step of a run is proper. -/
def ProperRun (es : List ImportEvent) : Prop :=
  ∀ before i outside after, es = before ++ .drive i outside :: after →
    ∀ op, (run before).turn i = some op → Proper op (run before).state

/-- **A run of imports holds exactly when its steps are proper.** -/
theorem state_imports_held_iff (text : JsonText) (es : List ImportEvent)
    (hhandler : ∀ e ∈ es, FromHandler text e) : HeldAlong es ↔ ProperRun es := by
  constructor
  · intro h before i outside after hes op hturn
    exact proper_of_allowed (h.steps before i outside after hes op hturn).allowed
  · intro h
    have hconsistent := (guarded_run hhandler).invariant
    refine ⟨hconsistent.held, List.Nodup.of_map _ hconsistent.receipts.once, ?_⟩
    rintro before i outside after rfl op hturn
    have hbefore : ∀ e ∈ before, FromHandler text e := fun e he =>
      hhandler e (List.mem_append_left _ he)
    have hguarded := guarded_run hbefore
    exact stepHolds_of_proper hguarded.invariant (World.needs_of_guarded hguarded hturn)
      (h before i outside after rfl op hturn) outside

/-! ## A session's import, dropped from a route that is not its own -/

namespace Sample

/-- A batch of two, with the compartment of one message. -/
def batchOf (batchSeq message : Nat) (messageId : String) : Json :=
  .object
    [("batch_count", .number (.posInt 2)), ("batch_seq", .number (.posInt batchSeq)),
      ("compartments", .array [.object
        [("end_message", .number (.posInt message)), ("end_message_id", .string messageId),
          ("p1", .string "first"), ("seq", .number (.posInt message)),
          ("start_message", .number (.posInt message)), ("title", .string "t")]]),
      ("import_id", .string "i"), ("session_id", .string "s"), ("v", .number (.posInt 1))]

/-- The first of two batches. -/
def firstBatch : Json := batchOf 0 1 "m1#0"

/-- A request that names the session, and nothing else. -/
def malformed : Json := .object [("session_id", .string "s")]

def jsonText : JsonText where
  size v := if v = malformed then 18 else 180
  digest _ := "124baef68c1aa17930cb97b6a9049c699f7911f3047d79f388a5feb1d3b79793"
  parseError _ := "missing field `v`"

def ownRoute : RouteHandle := ⟨1, 1⟩
def otherRoute : RouteHandle := ⟨2, 1⟩

/-- The session's route is bound and its first batch staged. -/
def stagedFirst : List ImportEvent :=
  [.spawn (bindRoute ownRoute "s"), .drive 0 {},
    .spawn (handleStateImportValue jsonText ownRoute firstBatch),
    .drive 1 {}, .drive 1 {}, .drive 1 {}, .drive 1 {}, .drive 1 {}]

/-- Then a route without a binding sends a malformed request. -/
def intruded : List ImportEvent :=
  stagedFirst ++ [.spawn (handleStateImportValue jsonText otherRoute malformed), .drive 2 {}]

theorem fromHandler_stagedFirst : ∀ e ∈ stagedFirst, FromHandler jsonText e := by
  intro e he
  simp only [stagedFirst, List.mem_cons, List.not_mem_nil, or_false] at he
  rcases he with rfl | rfl | rfl | rfl | rfl | rfl | rfl | rfl
  · exact .inr (.inl ⟨_, _, rfl⟩)
  · trivial
  · exact .inl ⟨_, _, rfl⟩
  all_goals trivial

/-- The final batch comes too. -/
def stagedBoth : List ImportEvent :=
  stagedFirst ++ .spawn (handleStateImportValue jsonText ownRoute (batchOf 1 2 "m2#0")) ::
    List.replicate 7 (.drive 2 {})

theorem fromHandler_stagedBoth : ∀ e ∈ stagedBoth, FromHandler jsonText e := by
  intro e he
  rcases List.mem_append.mp he with he | he
  · exact fromHandler_stagedFirst e he
  · rcases List.mem_cons.mp he with rfl | he
    · exact .inl ⟨_, _, rfl⟩
    · rw [List.eq_of_mem_replicate he]
      trivial

def discards : Op → Bool
  | ⟨_, _, .discard _⟩ => true
  | _ => false

/-- A run in which no request is refused. -/
theorem properRun_of_quiet {es : List ImportEvent}
    (h : ∀ n < es.length, ((run (es.take n)).processes.all fun p =>
      ((p.bind Process.next?).all fun op => !discards op)) = true) : ProperRun es := by
  rintro before i outside after rfl op hturn
  have hat := h before.length (by simp)
  rw [List.take_left, List.all_eq_true] at hat
  obtain ⟨next, hprocess⟩ := World.process_of_turn hturn
  rw [World.process, Option.join_eq_some_iff] at hprocess
  have hquiet := hat _ (List.mem_of_getElem? hprocess)
  obtain ⟨route, resolved, action⟩ := op
  cases action with
  | discard session => cases hquiet
  | _ => trivial

end Sample

/-- Another route's malformed request drops the session's first batch. -/
theorem intruder_drops_import :
    (run Sample.stagedFirst).state.coordinator.sessions.find "s" ≠ none ∧
      (run Sample.intruded).state.coordinator.sessions.find "s" = none ∧
      (run Sample.intruded).state.bindings.find Sample.otherRoute = none ∧
      ¬ HeldAlong Sample.intruded := by
  refine ⟨by decide +kernel, by decide +kernel, by decide +kernel, fun h => ?_⟩
  have hstep := h.steps Sample.intruded.dropLast 2 {} [] rfl
    ⟨Sample.otherRoute, none, .discard "s"⟩ (by decide +kernel)
  have hworks := (hstep.allowed "s" (by decide +kernel)).2
  rcases hworks with ⟨hresolved, -⟩ | hbound
  · cases hresolved
  · revert hbound
    decide +kernel

/-- The import of both batches holds, and is committed. -/
theorem both_batches_held :
    HeldAlong Sample.stagedBoth ∧ (run Sample.stagedBoth).state.committed.length = 1 :=
  ⟨(state_imports_held_iff Sample.jsonText _ Sample.fromHandler_stagedBoth).mpr
    (Sample.properRun_of_quiet (by decide +kernel)), by decide +kernel⟩

end MagicContext.StateImports
