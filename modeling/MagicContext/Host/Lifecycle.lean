import MagicContext.Host.Registry

/-!
# The lifecycle of routes

Bind tasks and close tasks share the registry, and whatever else the host does comes between their
steps: clients close routes, a generation closes all of its routes, twice, dispatches register, and
shutdown freezes admission and then claims what is left.  A close task that does not get to start
the route-gone callback goes on to finalise the route, whether or not the callback has ended.

## What is here

* `Stage`, `Task` — what a bind task or a close task does next.
* `World.step` — one step of a task, or of anyone else; `World.run` — runs.
* `RouteLifecycle` — what holds of the log of a run, and of the registry after it.
* `Coherent` — what carries it: what every task finds, and that before the freeze no route has two
  tasks.
* `route_lifecycle` — it holds after every run.
-/

namespace MagicContext.Host

open Registry

/-! ## Tasks -/

/-- What a task waits for, or does when it is driven. -/
inductive Stage where
  /-- The bind callback. -/
  | binding
  | installing
  | rejecting
  /-- The dispatch tasks of the route. -/
  | settling
  | marking
  /-- The route-gone callback, which this task has started. -/
  | joining
  | finalizing
  | finished
  deriving DecidableEq

structure Task where
  handle : RouteHandle
  stage : Stage
  /-- Forced shutdown does not abort bind tasks. -/
  exempt : Bool

inductive BindResult where
  | accept | reject
  /-- The callback panicked, or its deadline expired and it was dropped. -/
  | stopped
  /-- The wait was given up and the callback may still run. -/
  | lost

/-- What is decided outside the registry. -/
structure Outside where
  bind : BindResult
  /-- What the task waits for has stopped. -/
  stopped : Bool

inductive Notice where
  | reserved (handle : RouteHandle)
  | bindEnded (handle : RouteHandle)
  /-- A close of the route began. -/
  | closing (handle : RouteHandle)
  | registered (handle : RouteHandle)
  | goneStarted (handle : RouteHandle)
  | goneEnded (handle : RouteHandle)
  deriving DecidableEq

/-! ## Runs -/

structure World where
  registry : Registry
  /-- The generations whose token is cancelled. -/
  retired : Nat → Bool := fun _ => false
  tasks : List Task := []
  /-- Generations that close their routes, each with the routes that it has not come to. -/
  sweeps : List (Nat × List RouteHandle) := []
  log : List Notice := []
  panicked : Bool := false

inductive Event where
  | openRoute (gen : Nat) (class_ : RouteClass)
  | drive (i : Nat) (outside : Outside)
  | callbackEnds (handle : RouteHandle)
  /-- A close by a client, who names its generation, or by shutdown. -/
  | beginClose (handle : RouteHandle) (owner : Option Nat)
  /-- A generation looks up its routes, which come in any order. -/
  | beginSweep (gen : Nat) (order : List RouteHandle)
  /-- A sweep closes the next route that it found; the route may have changed since. -/
  | sweep (k : Nat)
  | registerDispatch (handle : RouteHandle) (gen : Nat) (task : Nat) (finished : Nat → Bool)
  | freezeAdmission
  | forceDrain
  | abort (i : Nat)
  | retire (gen : Nat)

namespace World

def note (w : World) (notice : Notice) : World := { w with log := w.log ++ [notice] }

def advance (w : World) (i : Nat) (t : Task) (stage : Stage) : World :=
  { w with tasks := w.tasks.set i { t with stage } }

def spawn (w : World) (t : Task) : World := { w with tasks := w.tasks ++ [t] }

/-- `open_route`, `settle_route_work`, `run_route_gone` and what follows them, from one wait to the
next. -/
def drive (w : World) (i : Nat) (t : Task) (outside : Outside) : World :=
  match t.stage with
  | .binding =>
    match outside.bind with
    | .accept => (w.advance i t .installing).note (.bindEnded t.handle)
    | .reject => (w.advance i t .rejecting).note (.bindEnded t.handle)
    | .stopped => (w.advance i t .rejecting).note (.bindEnded t.handle)
    | .lost => w.advance i t .finished
  | .installing =>
    match w.registry.installBound t.handle with
    | none => { w.advance i t .finished with panicked := true }
    | some (.installed, registry) => { w.advance i t .finished with registry }
    | some (.closeWins, registry) => { w.advance i t .marking with registry }
  | .rejecting =>
    { (w.advance i t .marking).note (.closing t.handle) with
      registry := w.registry.takeRejectedBind t.handle }
  | .settling => w.advance i t (if outside.stopped then .marking else .finished)
  | .marking =>
    match w.registry.markGoneStarted t.handle with
    | (true, registry) =>
      { (w.advance i t .joining).note (.goneStarted t.handle) with registry }
    | (false, registry) => { w.advance i t .finalizing with registry }
  | .joining =>
    if !outside.stopped then w.advance i t .finished
    else if .goneEnded t.handle ∈ w.log then w.advance i t .finalizing
    else w
  | .finalizing => { w.advance i t .finished with registry := w.registry.finalizeClose t.handle }
  | .finished => w

/-- The routes that forced shutdown begins to close, binds in flight included. -/
def drainNotices (among : List Channel) (r : Registry) : List Notice :=
  among.filterMap fun channel =>
    ((r.occupant channel).filter fun o => !o.goneStarted).map fun o => .closing ⟨channel, o.epoch⟩

def beginClose (w : World) (handle : RouteHandle) (owner : Option Nat) : World :=
  match w.registry.beginCloseFor handle owner with
  | (.owner _ _, registry) =>
    { (w.spawn ⟨handle, .settling, false⟩).note (.closing handle) with registry }
  | (.deferredToBind, registry) => { w.note (.closing handle) with registry }
  | (.alreadyGone, registry) => { w with registry }

def step (w : World) : Event → World
  | .openRoute gen class_ =>
    match w.registry.reserve gen (w.retired gen) class_ with
    | none => w
    | some (handle, registry) =>
      { (w.spawn ⟨handle, .binding, true⟩).note (.reserved handle) with registry }
  | .drive i outside =>
    match w.tasks[i]? with
    | none => w
    | some t => w.drive i t outside
  | .callbackEnds handle =>
    if .goneStarted handle ∈ w.log then w.note (.goneEnded handle) else w
  | .beginClose handle owner => w.beginClose handle owner
  | .beginSweep gen order =>
    if order.Perm (w.registry.routesOfGeneration gen) then
      { w with sweeps := w.sweeps ++ [(gen, order)] }
    else w
  | .sweep k =>
    match w.sweeps[k]? with
    | some (gen, handle :: rest) =>
      { w with sweeps := w.sweeps.set k (gen, rest) }.beginClose handle (some gen)
    | _ => w
  | .registerDispatch handle gen task finished =>
    match w.registry.registerDispatch handle gen task finished with
    | none => w
    | some registry => { w.note (.registered handle) with registry }
  | .freezeAdmission => { w with registry := w.registry.freezeAdmission }
  | .forceDrain =>
    -- shutdown freezes admission before it comes to this
    if w.registry.accepting then w
    else
      { w with
        registry := w.registry.forceDrain.2
        tasks := w.tasks ++ w.registry.forceDrain.1.map fun claimed => ⟨claimed.1, .settling, false⟩
        log := w.log ++ drainNotices channels w.registry }
  | .abort i =>
    match w.tasks[i]? with
    | none => w
    | some t =>
      if !t.exempt && (t.stage == .settling || t.stage == .joining) then w.advance i t .finished
      else w
  | .retire gen => { w with retired := Function.update w.retired gen true }

def fresh (maxRoutes : Nat) : World where
  registry := { maxRoutes }

def run (maxRoutes : Nat) (events : List Event) : World := events.foldl step (fresh maxRoutes)

end World

/-! ## What holds -/

/-- A notice that comes before every notice of another kind. -/
def Precedes (log : List Notice) (first later : Notice) : Prop :=
  ∀ before after, log = before ++ later :: after → first ∈ before

structure RouteLifecycle (w : World) : Prop where
  live : w.registry.live = w.registry.occupied.card
  bounded : w.registry.live ≤ w.registry.maxRoutes
  membership : ∀ gen channel epoch, w.registry.membership gen channel = some epoch ↔
    ∃ o, w.registry.occupant channel = some o ∧ o.gen = gen ∧ o.epoch = epoch ∧ o.state = .live
  increasing : w.log.Pairwise fun earlier later => ∀ h h', earlier = .reserved h →
    later = .reserved h' → h.channel = h'.channel → h.epoch < h'.epoch
  goneOnce : ∀ h, w.log.count (.goneStarted h) ≤ 1
  goneAfterBind : ∀ h, Precedes w.log (.bindEnded h) (.goneStarted h)
  reused : ∀ before h h' after, w.log = before ++ .reserved h' :: after → .reserved h ∈ before →
    h.channel = h'.channel → .goneEnded h ∈ before
  registers : w.log.Pairwise fun earlier later => ∀ h, earlier = .closing h → later ≠ .registered h
  installs : w.panicked = false

/-! ## What tasks find -/

def Notice.handle : Notice → RouteHandle
  | reserved handle => handle
  | bindEnded handle => handle
  | closing handle => handle
  | registered handle => handle
  | goneStarted handle => handle
  | goneEnded handle => handle

def Stage.binds : Stage → Bool
  | binding => true
  | installing => true
  | rejecting => true
  | _ => false

variable {r : Registry}

namespace Registry

def InBind (r : Registry) (handle : RouteHandle) : Prop :=
  ∃ o, r.occupantAt handle = some o ∧ ∃ b, o.state = .binding b

/-- A close has an owner, or is over. -/
def Shut (r : Registry) (handle : RouteHandle) : Prop :=
  ∀ o, r.occupantAt handle = some o → o.state = .closing

/-- The route-gone callback has not started. -/
def Awaits (r : Registry) (handle : RouteHandle) : Prop :=
  ∃ o, r.occupantAt handle = some o ∧ o.goneStarted = false

theorem InBind.not_shut {handle : RouteHandle} (h : r.InBind handle) : ¬ r.Shut handle := by
  obtain ⟨o, ho, b, hstate⟩ := h
  intro hshut
  rw [hshut o ho] at hstate
  cases hstate

end Registry

/-- What a task relies on. -/
def Task.Fits (w : World) (t : Task) : Prop :=
  match t.stage with
  | .binding => w.registry.InBind t.handle
  | .installing => w.registry.InBind t.handle ∧ .bindEnded t.handle ∈ w.log
  | .rejecting => w.registry.InBind t.handle ∧ .bindEnded t.handle ∈ w.log
  | .settling => w.registry.Shut t.handle ∧ .bindEnded t.handle ∈ w.log ∧
      (w.registry.accepting = true → w.registry.Awaits t.handle)
  | .marking => w.registry.Shut t.handle ∧ .bindEnded t.handle ∈ w.log ∧
      (w.registry.accepting = true → w.registry.Awaits t.handle)
  | .joining => w.registry.Shut t.handle ∧ .bindEnded t.handle ∈ w.log
  | .finalizing => w.registry.Shut t.handle ∧ .bindEnded t.handle ∈ w.log ∧
      (w.registry.accepting = true → .goneEnded t.handle ∈ w.log)
  | .finished => True

/-- What the log tells about an occupant. -/
structure Occupant.Fits (w : World) (handle : RouteHandle) (o : Occupant) : Prop where
  reserved : .reserved handle ∈ w.log
  bindEnded : (∀ b, o.state ≠ .binding b) → .bindEnded handle ∈ w.log
  gone : .goneStarted handle ∈ w.log → o.goneStarted = true
  closing : .closing handle ∈ w.log → o.state = .closing ∨ o.state = .binding true
  started : o.goneStarted = true → o.state = .closing

/-- Two tasks of one route: only one of them binds, and before the freeze one of them is over. -/
def Exclude (w : World) (t u : Task) : Prop :=
  ¬ (t.stage.binds = true ∧ u.stage.binds = true) ∧
    (w.registry.accepting = true → t.stage = .finished ∨ u.stage = .finished)

structure Coherent (w : World) : Prop where
  sound : w.registry.Sound
  fits : ∀ (i : Nat) (t : Task), w.tasks[i]? = some t → t.Fits w
  exclusive : ∀ (i j : Nat) (t u : Task), w.tasks[i]? = some t → w.tasks[j]? = some u → i ≠ j →
    t.handle = u.handle → Exclude w t u
  occupants : ∀ h o, w.registry.occupantAt h = some o → o.Fits w h
  noticed : ∀ n ∈ w.log, n.handle.epoch ≤ w.registry.lastEpoch n.handle.channel
  named : ∀ (i : Nat) (t : Task), w.tasks[i]? = some t →
    t.handle.epoch ≤ w.registry.lastEpoch t.handle.channel
  past : ∀ h, .reserved h ∈ w.log → w.registry.accepting = true →
    w.registry.occupantAt h = none → .goneEnded h ∈ w.log
  increasing : w.log.Pairwise fun earlier later => ∀ h h', earlier = .reserved h →
    later = .reserved h' → h.channel = h'.channel → h.epoch < h'.epoch
  goneOnce : ∀ h, w.log.count (.goneStarted h) ≤ 1
  goneAfterBind : ∀ h, Precedes w.log (.bindEnded h) (.goneStarted h)
  reused : ∀ before h h' after, w.log = before ++ .reserved h' :: after → .reserved h ∈ before →
    h.channel = h'.channel → .goneEnded h ∈ before
  registers : w.log.Pairwise fun earlier later => ∀ h, earlier = .closing h → later ≠ .registered h
  installs : w.panicked = false

variable {w w' : World} {handle : RouteHandle} {i : Nat} {t : Task}

theorem Coherent.lifecycle (h : Coherent w) : RouteLifecycle w :=
  ⟨h.sound.live, h.sound.bounded, h.sound.membership, h.increasing, h.goneOnce, h.goneAfterBind,
    h.reused, h.registers, h.installs⟩

/-- A task stays with what it relies on, if that is there still. -/
theorem Task.Fits.mono (h : t.Fits w)
    (hat : w'.registry.occupantAt t.handle = w.registry.occupantAt t.handle)
    (haccepting : w'.registry.accepting = true → w.registry.accepting = true)
    (hlog : ∀ n ∈ w.log, n ∈ w'.log) : t.Fits w' := by
  obtain ⟨handle, stage, exempt⟩ := t
  cases stage <;> simp only [Task.Fits, InBind, Shut, Awaits, hat] at h ⊢
  case binding => exact h
  case installing => exact ⟨h.1, hlog _ h.2⟩
  case rejecting => exact ⟨h.1, hlog _ h.2⟩
  case settling => exact ⟨h.1, hlog _ h.2.1, fun ha => h.2.2 (haccepting ha)⟩
  case marking => exact ⟨h.1, hlog _ h.2.1, fun ha => h.2.2 (haccepting ha)⟩
  case joining => exact ⟨h.1, hlog _ h.2⟩
  case finalizing => exact ⟨h.1, hlog _ h.2.1, fun ha => hlog _ (h.2.2 (haccepting ha))⟩

theorem Task.Fits.inBind (h : t.Fits w) (hbinds : t.stage.binds = true) :
    w.registry.InBind t.handle := by
  obtain ⟨handle, stage, exempt⟩ := t
  cases stage <;> simp only [Stage.binds, Bool.false_eq_true] at hbinds
  case binding => exact h
  case installing => exact h.1
  case rejecting => exact h.1

theorem Task.Fits.shut (h : t.Fits w) (hbinds : t.stage.binds = false)
    (hover : t.stage ≠ .finished) :
    w.registry.Shut t.handle ∧ .bindEnded t.handle ∈ w.log := by
  obtain ⟨handle, stage, exempt⟩ := t
  cases stage <;> simp only [Stage.binds, Bool.true_eq_false] at hbinds
  case settling => exact ⟨h.1, h.2.1⟩
  case marking => exact ⟨h.1, h.2.1⟩
  case joining => exact h
  case finalizing => exact ⟨h.1, h.2.1⟩
  case finished => exact absurd rfl hover

/-! ## A step about one route -/

/-- A step that changes one route: its occupant, its tasks, and what the log tells about it. -/
structure Touches (w w' : World) (handle : RouteHandle) (notice : Option Notice) : Prop where
  occupantAt : ∀ g, g ≠ handle → w'.registry.occupantAt g = w.registry.occupantAt g
  lastEpoch : ∀ channel, w'.registry.lastEpoch channel = w.registry.lastEpoch channel
  accepting : w'.registry.accepting = w.registry.accepting
  tasks : ∀ (j : Nat) (u : Task), w'.tasks[j]? = some u → w.tasks[j]? = some u ∨ u.handle = handle
  log : w'.log = w.log ++ notice.toList
  about : ∀ n ∈ notice, n.handle = handle ∧ ∀ h, n ≠ .reserved h
  panicked : w'.panicked = w.panicked

/-- The notice may be appended. -/
structure Tells (w : World) (handle : RouteHandle) (notice : Option Notice) : Prop where
  named : notice ≠ none → handle.epoch ≤ w.registry.lastEpoch handle.channel
  gone : notice = some (.goneStarted handle) →
    .goneStarted handle ∉ w.log ∧ .bindEnded handle ∈ w.log
  registers : notice = some (.registered handle) → .closing handle ∉ w.log

variable {notice : Option Notice}

theorem Touches.subset (h : Touches w w' handle notice) : ∀ n ∈ w.log, n ∈ w'.log := fun n hn => by
  rw [h.log]
  exact List.mem_append_left _ hn

/-- What holds of the log alone. -/
structure Chronicle (log : List Notice) : Prop where
  increasing : log.Pairwise fun earlier later => ∀ h h', earlier = .reserved h →
    later = .reserved h' → h.channel = h'.channel → h.epoch < h'.epoch
  goneOnce : ∀ h, log.count (.goneStarted h) ≤ 1
  goneAfterBind : ∀ h, Precedes log (.bindEnded h) (.goneStarted h)
  reused : ∀ before h h' after, log = before ++ .reserved h' :: after → .reserved h ∈ before →
    h.channel = h'.channel → .goneEnded h ∈ before
  registers : log.Pairwise fun earlier later => ∀ h, earlier = .closing h → later ≠ .registered h

theorem Coherent.chronicle (h : Coherent w) : Chronicle w.log :=
  ⟨h.increasing, h.goneOnce, h.goneAfterBind, h.reused, h.registers⟩

theorem split_append_singleton {α : Type} {l before after : List α} {a b : α}
    (h : l ++ [b] = before ++ a :: after) :
    (∃ rest, l = before ++ a :: rest) ∨ (before = l ∧ b = a) := by
  rcases List.eq_nil_or_concat after with rfl | ⟨rest, c, rfl⟩
  · obtain ⟨hl, hb⟩ := List.append_inj' h rfl
    exact .inr ⟨hl.symm, List.singleton_inj.mp hb⟩
  · rw [List.concat_eq_append, ← List.cons_append, ← List.append_assoc] at h
    exact .inl ⟨rest, (List.append_inj' h rfl).1⟩

/-- What a notice needs of those before it. -/
theorem Chronicle.append {log : List Notice} (h : Chronicle log) (n : Notice)
    (hreserved : ∀ g, n = .reserved g → ∀ g', .reserved g' ∈ log → g'.channel = g.channel →
      g'.epoch < g.epoch ∧ .goneEnded g' ∈ log)
    (hgone : ∀ g, n = .goneStarted g → .goneStarted g ∉ log ∧ .bindEnded g ∈ log)
    (hregisters : ∀ g, n = .registered g → .closing g ∉ log) : Chronicle (log ++ [n]) := by
  refine ⟨List.pairwise_append.mpr ⟨h.increasing, List.pairwise_singleton .., ?_⟩, fun g => ?_,
    fun g before after heq => ?_, fun before g g' after heq hg hchannel => ?_,
    List.pairwise_append.mpr ⟨h.registers, List.pairwise_singleton .., ?_⟩⟩
  · rintro earlier hearlier later hlater g g' rfl rfl hchannel
    exact (hreserved g' (List.mem_singleton.mp hlater).symm g hearlier hchannel).1
  · rw [List.count_append, List.count_singleton]
    split
    · rename_i hn
      rw [List.count_eq_zero.mpr (hgone g (beq_iff_eq.mp hn)).1]
    · exact h.goneOnce g
  · rcases split_append_singleton heq with ⟨l, hold⟩ | ⟨rfl, hn⟩
    · exact h.goneAfterBind g before l hold
    · exact (hgone g hn).2
  · rcases split_append_singleton heq with ⟨l, hold⟩ | ⟨rfl, hn⟩
    · exact h.reused before g g' l hold hg hchannel
    · exact (hreserved g' hn g hg hchannel).2
  · rintro earlier hearlier later hlater g rfl rfl
    exact hregisters g (List.mem_singleton.mp hlater).symm hearlier

/-- What such a step has to keep is what concerns the route. -/
theorem Coherent.touch (h : Coherent w) (ht : Touches w w' handle notice)
    (htells : Tells w handle notice) (hsound : w'.registry.Sound)
    (hfits : ∀ (j : Nat) (u : Task), w'.tasks[j]? = some u → u.handle = handle → u.Fits w')
    (hexclude : ∀ (i j : Nat) (t u : Task), w'.tasks[i]? = some t → w'.tasks[j]? = some u → i ≠ j →
      t.handle = handle → u.handle = handle → Exclude w' t u)
    (hoccupant : ∀ o, w'.registry.occupantAt handle = some o → o.Fits w' handle)
    (hnamed : handle.epoch ≤ w.registry.lastEpoch handle.channel)
    (hpast : .reserved handle ∈ w.log → w.registry.accepting = true →
      w'.registry.occupantAt handle = none → .goneEnded handle ∈ w'.log) : Coherent w' := by
  have hmem : ∀ n, n ∈ w'.log → n ∈ w.log ∨ n.handle = handle ∧ ∀ h, n ≠ .reserved h := by
    intro n hn
    rw [ht.log, List.mem_append] at hn
    exact hn.imp id fun hn => ht.about n (Option.mem_toList.mp hn)
  have hback : ∀ n, n.handle ≠ handle → n ∈ w'.log → n ∈ w.log := fun n hne hn =>
    (hmem n hn).resolve_right fun habout => hne habout.1
  have hreserved : ∀ g, .reserved g ∈ w'.log → .reserved g ∈ w.log := fun g hg =>
    (hmem _ hg).resolve_right fun habout => habout.2 g rfl
  have hlog : Chronicle w'.log := by
    rw [ht.log]
    cases notice with
    | none => exact (List.append_nil _).symm ▸ h.chronicle
    | some n =>
      obtain ⟨rfl, hreserved⟩ := ht.about n rfl
      refine h.chronicle.append n (fun g hn => absurd hn (hreserved g)) ?_ ?_
      · rintro g rfl
        exact htells.gone rfl
      · rintro g rfl
        exact htells.registers rfl
  refine ⟨hsound, ?_, ?_, ?_, ?_, ?_, ?_, hlog.increasing, hlog.goneOnce, hlog.goneAfterBind,
    hlog.reused, hlog.registers, ht.panicked.trans h.installs⟩
  · intro j u hu
    by_cases hhandle : u.handle = handle
    · exact hfits j u hu hhandle
    · exact (h.fits j u ((ht.tasks j u hu).resolve_right hhandle)).mono
        (ht.occupantAt _ hhandle) (fun ha => ht.accepting ▸ ha) ht.subset
  · intro i j t u hi hj hij heq
    by_cases hhandle : t.handle = handle
    · exact hexclude i j t u hi hj hij hhandle (heq ▸ hhandle)
    · have hold := h.exclusive i j t u ((ht.tasks i t hi).resolve_right hhandle)
        ((ht.tasks j u hj).resolve_right fun hu => hhandle (heq.trans hu)) hij heq
      exact ⟨hold.1, fun ha => hold.2 (ht.accepting ▸ ha)⟩
  · intro g o ho
    by_cases hg : g = handle
    · rw [hg] at ho ⊢
      exact hoccupant o ho
    · rw [ht.occupantAt g hg] at ho
      have hold := h.occupants g o ho
      exact ⟨ht.subset _ hold.reserved, fun hb => ht.subset _ (hold.bindEnded hb),
        fun hn => hold.gone (hback _ hg hn), fun hn => hold.closing (hback _ hg hn), hold.started⟩
  · intro n hn
    rw [ht.lastEpoch]
    rcases hmem n hn with hold | ⟨habout, -⟩
    · exact h.noticed n hold
    · rw [habout]
      exact hnamed
  · intro j u hu
    rw [ht.lastEpoch]
    rcases ht.tasks j u hu with hold | habout
    · exact h.named j u hold
    · rw [habout]
      exact hnamed
  · intro g hg ha hnone
    by_cases hgh : g = handle
    · rw [hgh] at hg hnone ⊢
      exact hpast (hreserved _ hg) (ht.accepting ▸ ha) hnone
    · rw [ht.occupantAt g hgh] at hnone
      exact ht.subset _ (h.past g (hreserved g hg) (ht.accepting ▸ ha) hnone)

/-! ## A task goes on -/

variable {u : Task} {o : Occupant}

theorem getElem?_advance {stage : Stage} {j : Nat} (hi : w.tasks[i]? = some t)
    (hu : (w.tasks.set i { t with stage })[j]? = some u) :
    (j = i ∧ u = { t with stage }) ∨ (j ≠ i ∧ w.tasks[j]? = some u) := by
  by_cases hj : j = i
  · subst hj
    have hlt : j < w.tasks.length := (List.getElem?_eq_some_iff.mp hi).1
    rw [List.getElem?_set_self hlt] at hu
    exact .inl ⟨rfl, (Option.some.inj hu).symm⟩
  · rw [List.getElem?_set_ne (Ne.symm hj)] at hu
    exact .inr ⟨hj, hu⟩

theorem Exclude.symm (h : Exclude w t u) : Exclude w u t :=
  ⟨fun hb => h.1 hb.symm, fun ha => (h.2 ha).symm⟩

/-- One task of a route goes on, and what it does leaves the others of the route what they rely
on. -/
theorem Coherent.advance (stage : Stage) (notice : Option Notice) (h : Coherent w)
    (hi : w.tasks[i]? = some t) (hover : t.stage ≠ .finished)
    (hbinds : stage.binds = true → t.stage.binds = true)
    (htasks : w'.tasks = w.tasks.set i { t with stage })
    (htouches : (∀ (j : Nat) (u : Task), w'.tasks[j]? = some u →
      w.tasks[j]? = some u ∨ u.handle = t.handle) → Touches w w' t.handle notice)
    (htells : Tells w t.handle notice) (hsound : w'.registry.Sound)
    (hnew : Task.Fits w' { t with stage })
    (hrest : ∀ u, u.Fits w → Exclude w t u → u.handle = t.handle → u.Fits w')
    (hoccupant : ∀ o, w'.registry.occupantAt t.handle = some o → o.Fits w' t.handle)
    (hpast : .reserved t.handle ∈ w.log → w.registry.accepting = true →
      w'.registry.occupantAt t.handle = none → .goneEnded t.handle ∈ w'.log) : Coherent w' := by
  have ht := htouches fun j u hu => by
    rw [htasks] at hu
    rcases getElem?_advance hi hu with ⟨-, rfl⟩ | ⟨-, hold⟩
    · exact .inr rfl
    · exact .inl hold
  refine h.touch ht htells hsound ?_ ?_ hoccupant (h.named i t hi) hpast
  · intro j u hu hhandle
    rw [htasks] at hu
    rcases getElem?_advance hi hu with ⟨-, rfl⟩ | ⟨hj, hold⟩
    · exact hnew
    · have hex := h.exclusive i j t u hi hold (Ne.symm hj) hhandle.symm
      exact hrest u (h.fits j u hold) hex hhandle
  · have hone : ∀ j u, w.tasks[j]? = some u → j ≠ i → u.handle = t.handle →
        Exclude w' { t with stage } u := by
      intro j u hu hj hhandle
      have hold := h.exclusive i j t u hi hu (Ne.symm hj) hhandle.symm
      refine ⟨fun hb => hold.1 ⟨hbinds hb.1, hb.2⟩, fun ha => .inr ?_⟩
      exact (hold.2 (ht.accepting ▸ ha)).resolve_left hover
    intro j k u v hj hk hjk hu hv
    rw [htasks] at hj hk
    rcases getElem?_advance hi hj with ⟨hji, rfl⟩ | ⟨hji, hjold⟩
    · rcases getElem?_advance hi hk with ⟨hki, -⟩ | ⟨hki, hkold⟩
      · exact absurd (hji.trans hki.symm) hjk
      · exact hone k v hkold hki hv
    · rcases getElem?_advance hi hk with ⟨-, rfl⟩ | ⟨-, hkold⟩
      · exact (hone j u hjold hji hu).symm
      · have hold := h.exclusive j k u v hjold hkold hjk (hu.trans hv.symm)
        exact ⟨hold.1, fun ha => hold.2 (ht.accepting ▸ ha)⟩

theorem Occupant.Fits.mono (h : o.Fits w handle)
    (hlog : w'.log = w.log ++ notice.toList) (hgone : notice ≠ some (.goneStarted handle))
    (hclosing : notice ≠ some (.closing handle)) : o.Fits w' handle := by
  have hmem : ∀ n, n ∈ w'.log ↔ n ∈ w.log ∨ notice = some n := by
    intro n
    rw [hlog, List.mem_append, Option.mem_toList]
  refine ⟨(hmem _).mpr (.inl h.reserved), fun hb => (hmem _).mpr (.inl (h.bindEnded hb)),
    fun hn => ?_, fun hn => ?_, h.started⟩
  · exact h.gone (((hmem _).mp hn).resolve_right hgone)
  · exact h.closing (((hmem _).mp hn).resolve_right hclosing)

/-- A task goes on and the registry stays as it is. -/
theorem Coherent.advance_same (stage : Stage) (notice : Option Notice) (h : Coherent w)
    (hi : w.tasks[i]? = some t) (hover : t.stage ≠ .finished)
    (hbinds : stage.binds = true → t.stage.binds = true)
    (hw' : w' = { w.advance i t stage with log := w.log ++ notice.toList })
    (hnotice : notice = none ∨ notice = some (.bindEnded t.handle))
    (hnew : Task.Fits w' { t with stage }) : Coherent w' := by
  subst hw'
  have hsub : ∀ n ∈ w.log, n ∈ w.log ++ notice.toList := fun n hn => List.mem_append_left _ hn
  refine h.advance stage notice hi hover hbinds rfl (fun htasks => ?_) ?_ h.sound hnew ?_ ?_ ?_
  · refine ⟨fun _ _ => rfl, fun _ => rfl, rfl, htasks, rfl, ?_, rfl⟩
    rcases hnotice with rfl | rfl
    · nofun
    · rintro n ⟨⟩
      exact ⟨rfl, nofun⟩
  · refine ⟨fun _ => h.named i t hi, ?_, ?_⟩ <;> rcases hnotice with rfl | rfl <;> nofun
  · exact fun u hu _ _ => hu.mono rfl id hsub
  · intro o ho
    refine (h.occupants _ o ho).mono rfl ?_ ?_ <;> rcases hnotice with rfl | rfl <;> nofun
  · exact fun hr ha hnone => hsub _ (h.past _ hr ha hnone)

theorem fits_of_over (h : u.stage = .finished) : u.Fits w' := by
  rw [Task.Fits, h]
  trivial

/-- A task goes on and changes the occupant of its route. -/
theorem Coherent.advance_replace (stage : Stage) (notice : Option Notice) {new : Occupant}
    (h : Coherent w) (hi : w.tasks[i]? = some t) (hover : t.stage ≠ .finished)
    (hbinds : stage.binds = true → t.stage.binds = true)
    (htasks : w'.tasks = w.tasks.set i { t with stage })
    (hlog : w'.log = w.log ++ notice.toList)
    (habout : ∀ n ∈ notice, n.handle = t.handle ∧ ∀ h, n ≠ .reserved h)
    (hpanicked : w'.panicked = w.panicked)
    (haccepting : w'.registry.accepting = w.registry.accepting)
    (hlast : ∀ channel, w'.registry.lastEpoch channel = w.registry.lastEpoch channel)
    (hat : ∀ g, w'.registry.occupantAt g =
      if g = t.handle then some new else w.registry.occupantAt g)
    (htells : Tells w t.handle notice) (hsound : w'.registry.Sound)
    (hnew : Task.Fits w' { t with stage })
    (hrest : ∀ u, u.Fits w → Exclude w t u → u.handle = t.handle → u.Fits w')
    (hoccupant : new.Fits w' t.handle) : Coherent w' := by
  refine h.advance stage notice hi hover hbinds htasks (fun hsub => ?_) htells hsound hnew hrest
    ?_ ?_
  · exact ⟨fun g hg => by rw [hat, if_neg hg], hlast, haccepting, hsub, hlog, habout, hpanicked⟩
  · intro p hp
    rw [hat, if_pos rfl] at hp
    cases hp
    exact hoccupant
  · intro _ _ hnone
    rw [hat, if_pos rfl] at hnone
    cases hnone

/-- While a route is bound or live, every task of it but the binding one is over. -/
theorem over_of_open (hu : u.Fits w) (hbinds : u.stage.binds = false)
    (ho : w.registry.occupantAt u.handle = some o) (hstate : o.state ≠ .closing) :
    u.stage = .finished := by
  by_contra hover
  exact hstate ((hu.shut hbinds hover).1 o ho)

/-- Beside the task that binds a route there is none. -/
theorem over_of_bind (ht : t.Fits w) (hbinds : t.stage.binds = true) (hu : u.Fits w)
    (hex : Exclude w t u) (hhandle : u.handle = t.handle) : u.stage = .finished := by
  obtain ⟨o, ho, b, hstate⟩ := ht.inBind hbinds
  refine over_of_open hu ?_ (hhandle ▸ ho) (by rw [hstate]; nofun)
  by_contra hu
  exact hex.1 ⟨hbinds, by simpa using hu⟩

theorem Occupant.Fits.idle (h : o.Fits w handle) (hstate : o.state ≠ .closing) :
    o.goneStarted = false :=
  Bool.eq_false_iff.mpr fun hgone => hstate (h.started hgone)

/-- After the freeze a task that closes relies on little. -/
theorem fits_of_frozen (hbinds : u.stage.binds = false) (hshut : w.registry.Shut u.handle)
    (hended : .bindEnded u.handle ∈ w.log) (hfrozen : ¬ w.registry.accepting = true) :
    u.Fits w := by
  obtain ⟨handle, stage, exempt⟩ := u
  cases stage <;> simp only [Stage.binds, Bool.true_eq_false] at hbinds
  case settling => exact ⟨hshut, hended, fun ha => absurd ha hfrozen⟩
  case marking => exact ⟨hshut, hended, fun ha => absurd ha hfrozen⟩
  case joining => exact ⟨hshut, hended⟩
  case finalizing => exact ⟨hshut, hended, fun ha => absurd ha hfrozen⟩
  case finished => trivial

theorem Task.Fits.not_binds (h : t.Fits w) (hshut : w.registry.Shut t.handle) :
    t.stage.binds = false :=
  Bool.eq_false_iff.mpr fun hbinds => (h.inBind hbinds).not_shut hshut

/-! ## The steps of a task -/

/-- Where the task of a bind goes when its route is shut. -/
theorem Coherent.shut (notice : Option Notice) (new : Occupant) (h : Coherent w)
    (hi : w.tasks[i]? = some t) (hbinds : t.stage.binds = true)
    (hended : .bindEnded t.handle ∈ w.log) (ho : w.registry.occupantAt t.handle = some o)
    (hepoch : new.epoch = o.epoch) (hgen : new.gen = o.gen) (hstate : new.state = .closing)
    (hgone : new.goneStarted = o.goneStarted)
    (hnotice : notice = none ∨ notice = some (.closing t.handle)) :
    Coherent { w.advance i t .marking with
      registry := w.registry.setOccupant t.handle.channel (some new)
      log := w.log ++ notice.toList } := by
  obtain ⟨p, hp, b, hbinding⟩ := (h.fits i t hi).inBind hbinds
  cases ho.symm.trans hp
  have hocc := occupantAt_eq_some.mp ho
  have hold := h.occupants _ o ho
  have hopen : o.state ≠ .closing := by
    rw [hbinding]
    nofun
  have hat := occupantAt_replace new ho hepoch
  have hsub : ∀ n ∈ w.log, n ∈ w.log ++ notice.toList := fun n hn => List.mem_append_left _ hn
  have hnew : new.Fits { w.advance i t .marking with
      registry := w.registry.setOccupant t.handle.channel (some new)
      log := w.log ++ notice.toList } t.handle := by
    refine ⟨hsub _ hold.reserved, fun _ => hsub _ hended, fun hn => ?_, fun _ => .inl hstate,
      fun _ => hstate⟩
    rw [hgone]
    refine hold.gone ((List.mem_append.mp hn).resolve_right ?_)
    rcases hnotice with rfl | rfl <;> simp
  refine h.advance_replace .marking notice hi (fun hover => ?_) nofun rfl rfl ?_ rfl rfl
    (fun _ => by simp) hat ?_ ?_ ?_ ?_ hnew
  · rw [hover] at hbinds
    cases hbinds
  · rcases hnotice with rfl | rfl
    · nofun
    · rintro n ⟨⟩
      exact ⟨rfl, nofun⟩
  · refine ⟨fun _ => h.named i t hi, ?_, ?_⟩ <;> rcases hnotice with rfl | rfl <;> nofun
  · refine h.sound.replace hocc.1 hepoch hgen ?_
    rw [hstate, hbinding]
    simp
  · refine ⟨fun p hp => ?_, hsub _ hended, fun _ => ⟨new, ?_, hgone.trans (hold.idle hopen)⟩⟩
    · rw [hat, if_pos rfl] at hp
      cases hp
      exact hstate
    · rw [hat, if_pos rfl]
  · exact fun u hu hex hhandle => fits_of_over (over_of_bind (h.fits i t hi) hbinds hu hex hhandle)

theorem coherent_installing (h : Coherent w) (hi : w.tasks[i]? = some t)
    (hstage : t.stage = .installing) (outside : Outside) : Coherent (w.drive i t outside) := by
  have hbinds : t.stage.binds = true := by
    rw [hstage]
    rfl
  have hfits := h.fits i t hi
  obtain ⟨o, ho, closeRequested, hstate⟩ := hfits.inBind hbinds
  have hended : .bindEnded t.handle ∈ w.log := by
    rw [Task.Fits, hstage] at hfits
    exact hfits.2
  have hocc := occupantAt_eq_some.mp ho
  have hold := h.occupants _ o ho
  have hinstall : w.drive i t outside = match w.registry.installBound t.handle with
      | none => { w.advance i t .finished with panicked := true }
      | some (.installed, registry) => { w.advance i t .finished with registry }
      | some (.closeWins, registry) => { w.advance i t .marking with registry } := by
    rw [World.drive, hstage]
  rw [hinstall, installBound, ho]
  cases closeRequested with
  | false =>
    simp only [hstate]
    have hat := occupantAt_replace { o with state := .live } ho rfl
    refine h.advance_replace .finished none hi (by rw [hstage]; nofun) nofun rfl
      (List.append_nil _).symm nofun rfl rfl (fun _ => by simp) hat ⟨nofun, nofun, nofun⟩ ?_ trivial
      (fun u hu hex hhandle => fits_of_over (over_of_bind hfits hbinds hu hex hhandle)) ?_
    · have hpublish := h.sound.publish { o with state := .live } hocc.1 rfl rfl
      rw [if_pos rfl] at hpublish
      rw [← hocc.2]
      exact hpublish
    · refine ⟨hold.reserved, fun _ => hended, hold.gone, fun hn => ?_, fun hg => ?_⟩
      · have hshut := hold.closing hn
        rw [hstate] at hshut
        simp at hshut
      · rw [hold.idle (by rw [hstate]; nofun)] at hg
        cases hg
  | true =>
    simp only [hstate]
    have hshut := h.shut none { o with state := .closing } hi hbinds hended ho rfl rfl rfl rfl
      (.inl rfl)
    rwa [Option.toList_none, List.append_nil] at hshut

theorem coherent_rejecting (h : Coherent w) (hi : w.tasks[i]? = some t)
    (hstage : t.stage = .rejecting) (outside : Outside) : Coherent (w.drive i t outside) := by
  have hbinds : t.stage.binds = true := by
    rw [hstage]
    rfl
  have hfits := h.fits i t hi
  obtain ⟨o, ho, -⟩ := hfits.inBind hbinds
  rw [Task.Fits, hstage] at hfits
  have hshut := h.shut (some (.closing t.handle))
    { o with cancelled := true, state := .closing } hi hbinds hfits.2 ho rfl rfl rfl rfl
    (.inr rfl)
  rw [World.drive, hstage]
  simp only [takeRejectedBind, ho]
  exact hshut

theorem coherent_marking (h : Coherent w) (hi : w.tasks[i]? = some t)
    (hstage : t.stage = .marking) (outside : Outside) : Coherent (w.drive i t outside) := by
  have hfits := h.fits i t hi
  simp only [Task.Fits, hstage] at hfits
  obtain ⟨hshut, hended, hawaits⟩ := hfits
  have hmark : w.drive i t outside = match w.registry.markGoneStarted t.handle with
      | (true, registry) =>
        { (w.advance i t .joining).note (.goneStarted t.handle) with registry }
      | (false, registry) => { w.advance i t .finalizing with registry } := by
    rw [World.drive, hstage]
  -- the callback was started by another, which is so after the freeze only
  have hloser : ¬ w.registry.Awaits t.handle → Coherent (w.advance i t .finalizing) := by
    intro hnot
    refine h.advance_same .finalizing none hi (by rw [hstage]; nofun) nofun
      ?_ (.inl rfl) ⟨hshut, hended, fun ha => absurd (hawaits ha) hnot⟩
    rw [Option.toList_none, List.append_nil]
    rfl
  rw [hmark, markGoneStarted]
  cases ho : w.registry.occupantAt t.handle with
  | none =>
    refine hloser ?_
    rintro ⟨o, hsome, -⟩
    rw [ho] at hsome
    cases hsome
  | some o =>
    have hocc := occupantAt_eq_some.mp ho
    have hold := h.occupants _ o ho
    cases hgone : o.goneStarted with
    | true =>
      simp only [hgone, if_true]
      refine hloser ?_
      rintro ⟨p, hp, hidle⟩
      cases ho.symm.trans hp
      rw [hgone] at hidle
      cases hidle
    | false =>
      simp only [hgone, Bool.false_eq_true, if_false]
      have hat := occupantAt_replace { o with goneStarted := true } ho rfl
      have hsub : ∀ n ∈ w.log, n ∈ w.log ++ [.goneStarted t.handle] :=
        fun n hn => List.mem_append_left _ hn
      have hstill : (w.registry.setOccupant t.handle.channel
          (some { o with goneStarted := true })).Shut t.handle := by
        intro p hp
        rw [hat, if_pos rfl] at hp
        cases hp
        exact hshut o ho
      refine h.advance_replace .joining (some (.goneStarted t.handle)) hi
        (by rw [hstage]; nofun) nofun rfl rfl ?_ rfl rfl (fun _ => by simp) hat ?_ ?_
        ⟨hstill, hsub _ hended⟩ ?_ ?_
      · rintro n ⟨⟩
        exact ⟨rfl, nofun⟩
      · refine ⟨fun _ => h.named i t hi, fun _ => ⟨fun hn => ?_, hended⟩, nofun⟩
        rw [hold.gone hn] at hgone
        cases hgone
      · exact h.sound.replace hocc.1 rfl rfl Iff.rfl
      · intro u hu hex hhandle
        by_cases hover : u.stage = .finished
        · exact fits_of_over hover
        · refine fits_of_frozen (hu.not_binds (hhandle ▸ hshut)) (hhandle ▸ hstill)
            (hhandle ▸ hsub _ hended) fun ha => hover ((hex.2 ha).resolve_left ?_)
          rw [hstage]
          nofun
      · exact ⟨hsub _ hold.reserved, fun hb => hsub _ (hold.bindEnded hb), fun _ => rfl,
          fun hn => .inl (hshut o ho), fun _ => hshut o ho⟩

theorem coherent_finalizing (h : Coherent w) (hi : w.tasks[i]? = some t)
    (hstage : t.stage = .finalizing) (outside : Outside) : Coherent (w.drive i t outside) := by
  have hfits := h.fits i t hi
  simp only [Task.Fits, hstage] at hfits
  obtain ⟨hshut, hended, hgone⟩ := hfits
  have hover : t.stage ≠ .finished := by
    rw [hstage]
    nofun
  have hfinal : w.drive i t outside =
      { w.advance i t .finished with registry := w.registry.finalizeClose t.handle } := by
    rw [World.drive, hstage]
  rw [hfinal, finalizeClose]
  cases ho : w.registry.occupantAt t.handle with
  | none =>
    refine h.advance_same .finished none hi hover nofun ?_ (.inl rfl) trivial
    rw [Option.toList_none, List.append_nil]
    rfl
  | some o =>
    have hat := occupantAt_freed ho
    have hnone : (w.registry.freed t.handle.channel).occupantAt t.handle = none := by
      rw [hat, if_pos rfl]
    refine h.advance .finished none hi hover nofun rfl (fun hsub => ?_)
      ⟨nofun, nofun, nofun⟩ ?_ trivial ?_ ?_ fun _ ha _ => hgone ha
    · exact ⟨fun g hg => by rw [hat, if_neg hg], fun _ => lastEpoch_freed _, rfl, hsub,
        (List.append_nil _).symm, nofun, rfl⟩
    · refine h.sound.freed (occupantAt_eq_some.mp ho).1 ?_
      rw [hshut o ho]
      nofun
    · intro u hu hex hhandle
      by_cases hoverU : u.stage = .finished
      · exact fits_of_over hoverU
      · refine fits_of_frozen (hu.not_binds (hhandle ▸ hshut)) (fun p hp => ?_) (hhandle ▸ hended)
          fun ha => hoverU ((hex.2 ha).resolve_left hover)
        rw [hhandle, hnone] at hp
        cases hp
    · intro p hp
      rw [hnone] at hp
      cases hp

theorem coherent_drive (h : Coherent w) (hi : w.tasks[i]? = some t) (outside : Outside) :
    Coherent (w.drive i t outside) := by
  have hfits := h.fits i t hi
  -- what a task does without the registry
  have goes : ∀ stage, t.stage ≠ .finished → (stage.binds = true → t.stage.binds = true) →
      Task.Fits (w.advance i t stage) { t with stage } → Coherent (w.advance i t stage) :=
    fun stage hover hbinds hnew => h.advance_same stage none hi hover hbinds
      (by rw [Option.toList_none, List.append_nil]; rfl) (.inl rfl) hnew
  cases hstage : t.stage with
  | binding =>
    have hbind : w.registry.InBind t.handle := by
      rwa [Task.Fits, hstage] at hfits
    have hended : ∀ stage, stage = .installing ∨ stage = .rejecting →
        Coherent ((w.advance i t stage).note (.bindEnded t.handle)) := by
      intro stage hs
      refine h.advance_same stage (some (.bindEnded t.handle)) hi
        (by rw [hstage]; nofun) (fun _ => by rw [hstage]; rfl) rfl (.inr rfl) ?_
      have hmem : Notice.bindEnded t.handle ∈ w.log ++ [.bindEnded t.handle] := by simp
      rcases hs with rfl | rfl <;> exact ⟨hbind, hmem⟩
    rw [World.drive, hstage]
    cases outside.bind with
    | accept => exact hended _ (.inl rfl)
    | reject => exact hended _ (.inr rfl)
    | stopped => exact hended _ (.inr rfl)
    | lost => exact goes .finished (by rw [hstage]; nofun) nofun trivial
  | installing => exact coherent_installing h hi hstage outside
  | rejecting => exact coherent_rejecting h hi hstage outside
  | settling =>
    have hover : t.stage ≠ .finished := by
      rw [hstage]
      nofun
    rw [Task.Fits, hstage] at hfits
    rw [World.drive, hstage]
    cases outside.stopped with
    | true => exact goes .marking hover nofun hfits
    | false => exact goes .finished hover nofun trivial
  | marking => exact coherent_marking h hi hstage outside
  | joining =>
    have hover : t.stage ≠ .finished := by
      rw [hstage]
      nofun
    rw [Task.Fits, hstage] at hfits
    rw [World.drive, hstage]
    cases outside.stopped with
    | false => exact goes .finished hover nofun trivial
    | true =>
      by_cases hgone : Notice.goneEnded t.handle ∈ w.log
      · simp only [hgone, Bool.not_true, Bool.false_eq_true, if_false, if_true]
        exact goes .finalizing hover nofun ⟨hfits.1, hfits.2, fun _ => hgone⟩
      · simp only [hgone, Bool.not_true, Bool.false_eq_true, if_false]
        exact h
  | finalizing => exact coherent_finalizing h hi hstage outside
  | finished =>
    rw [World.drive, hstage]
    exact h

/-! ## The steps of others -/

theorem getElem?_spawn {j : Nat} (hu : (w.tasks ++ [t])[j]? = some u) :
    w.tasks[j]? = some u ∨ (j = w.tasks.length ∧ u = t) := by
  rcases Nat.lt_trichotomy j w.tasks.length with hlt | rfl | hgt
  · rw [List.getElem?_append_left hlt] at hu
    exact .inl hu
  · rw [List.getElem?_concat_length] at hu
    exact .inr ⟨rfl, (Option.some.inj hu).symm⟩
  · rw [List.getElem?_eq_none (by simpa using Nat.succ_le_of_lt hgt)] at hu
    cases hu

/-- Nobody's step changes an occupant that is not closing; the tasks of the route stay, or are
over. -/
theorem Coherent.replace (notice : Option Notice) (new : Occupant) (h : Coherent w)
    (ho : w.registry.occupantAt handle = some o) (hstate : o.state ≠ .closing)
    (htasks : w'.tasks = w.tasks) (hlog : w'.log = w.log ++ notice.toList)
    (habout : ∀ n ∈ notice, n.handle = handle ∧ ∀ h, n ≠ .reserved h)
    (hgone : notice ≠ some (.goneStarted handle)) (hpanicked : w'.panicked = w.panicked)
    (hregisters : notice = some (.registered handle) → .closing handle ∉ w.log)
    (haccepting : w'.registry.accepting = w.registry.accepting)
    (hlast : ∀ channel, w'.registry.lastEpoch channel = w.registry.lastEpoch channel)
    (hat : ∀ g, w'.registry.occupantAt g =
      if g = handle then some new else w.registry.occupantAt g) (hsound : w'.registry.Sound)
    (hbinding : (∃ b, o.state = .binding b) → ∃ b, new.state = .binding b)
    (hoccupant : new.Fits w' handle) : Coherent w' := by
  have hsub : ∀ n ∈ w.log, n ∈ w'.log := fun n hn => by
    rw [hlog]
    exact List.mem_append_left _ hn
  have hnamed : handle.epoch ≤ w.registry.lastEpoch handle.channel :=
    h.noticed _ (h.occupants handle o ho).reserved
  refine @Coherent.touch w _ handle notice h ⟨fun g hg => by rw [hat, if_neg hg], hlast, haccepting,
    fun j u hu => .inl (htasks ▸ hu), hlog, habout, hpanicked⟩
    ⟨fun _ => hnamed, fun hn => absurd hn hgone, hregisters⟩ hsound ?_ ?_ ?_ hnamed ?_
  · intro j u hu hhandle
    rw [htasks] at hu
    have hfits := h.fits j u hu
    have hbind : w.registry.InBind u.handle → w'.registry.InBind u.handle := by
      rintro ⟨p, hp, hb⟩
      rw [hhandle] at hp ⊢
      cases ho.symm.trans hp
      exact ⟨new, by rw [hat, if_pos rfl], hbinding hb⟩
    by_cases hbinds : u.stage.binds = true
    · obtain ⟨g, stage, exempt⟩ := u
      cases stage <;> simp only [Stage.binds, Bool.false_eq_true] at hbinds
      case binding => exact hbind hfits
      case installing => exact ⟨hbind hfits.1, hsub _ hfits.2⟩
      case rejecting => exact ⟨hbind hfits.1, hsub _ hfits.2⟩
    · exact fits_of_over (over_of_open hfits (by simpa using hbinds) (hhandle ▸ ho) hstate)
  · intro j k u v hj hk hjk hu hv
    rw [htasks] at hj hk
    have hold := h.exclusive j k u v hj hk hjk (hu.trans hv.symm)
    exact ⟨hold.1, fun ha => hold.2 (haccepting ▸ ha)⟩
  · intro p hp
    rw [hat, if_pos rfl] at hp
    cases hp
    exact hoccupant
  · intro _ _ hnone
    rw [hat, if_pos rfl] at hnone
    cases hnone

theorem coherent_registerDispatch (h : Coherent w) (handle : RouteHandle) (gen task : Nat)
    (finished : Nat → Bool) : Coherent (w.step (.registerDispatch handle gen task finished)) := by
  rw [World.step, registerDispatch]
  by_cases hopen : (!w.registry.accepting) = true
  · rw [if_pos hopen]
    exact h
  · rw [if_neg hopen]
    cases ho : w.registry.occupantAt handle with
    | none => exact h
    | some o =>
      by_cases hother : o.gen ≠ gen ∨ o.state ≠ .live
      · simp only [if_pos hother]
        exact h
      · simp only [if_neg hother]
        have hlive : o.state = .live := by
          by_contra hne
          exact hother (.inr hne)
        have hold := h.occupants handle o ho
        have hnever : .closing handle ∉ w.log := by
          intro hn
          have hshut := hold.closing hn
          rw [hlive] at hshut
          simp at hshut
        refine h.replace (some (.registered handle))
          { o with aborts := o.aborts.filter (fun t => !finished t) ++ [task] } ho
          (by rw [hlive]; nofun) rfl rfl ?_ nofun rfl
          (fun _ => hnever) rfl (fun _ => by simp) ?_ ?_ (fun hb => hb) ?_
        · rintro n ⟨⟩
          exact ⟨rfl, nofun⟩
        · exact occupantAt_replace _ ho rfl
        · exact h.sound.replace (occupantAt_eq_some.mp ho).1 rfl rfl Iff.rfl
        · have hsame : Occupant.Fits w handle { o with
              aborts := o.aborts.filter (fun t => !finished t) ++ [task] } :=
            ⟨hold.reserved, hold.bindEnded, hold.gone, hold.closing, hold.started⟩
          exact @Occupant.Fits.mono w _ handle (some (.registered handle)) _ hsame rfl nofun nofun

theorem coherent_beginClose (h : Coherent w) (handle : RouteHandle) (owner : Option Nat) :
    Coherent (w.beginClose handle owner) := by
  rw [World.beginClose, beginCloseFor]
  cases ho : w.registry.occupantAt handle with
  | none => exact h
  | some o =>
    by_cases hforeign : (owner.any fun gen => o.gen ≠ gen) = true
    · simp only [hforeign, if_true]
      exact h
    · simp only [hforeign, Bool.false_eq_true, if_false]
      have hocc := occupantAt_eq_some.mp ho
      have hold := h.occupants handle o ho
      have hsub : ∀ n ∈ w.log, n ∈ w.log ++ [.closing handle] :=
        fun n hn => List.mem_append_left _ hn
      have hback : ∀ n, n ≠ .closing handle → n ∈ w.log ++ [.closing handle] → n ∈ w.log :=
        fun n hne hn => (List.mem_append.mp hn).resolve_right fun hlast =>
          hne (List.mem_singleton.mp hlast)
      cases hstate : o.state with
      | binding closeRequested =>
        have hidle := hold.idle (by rw [hstate]; nofun)
        refine h.replace (some (.closing handle))
          { o with cancelled := true, state := .binding true } ho (by rw [hstate]; nofun) rfl rfl ?_
          nofun rfl nofun
          rfl (fun _ => by simp) (occupantAt_replace _ ho rfl) ?_ (fun _ => ⟨true, rfl⟩) ?_
        · rintro n ⟨⟩
          exact ⟨rfl, nofun⟩
        · refine h.sound.replace hocc.1 rfl rfl ?_
          rw [hstate]
          simp
        · refine ⟨hsub _ hold.reserved, fun hb => absurd rfl (hb true), fun hn => ?_,
            fun _ => .inr rfl, fun hg => ?_⟩
          · exact hold.gone (hback _ nofun hn)
          · rw [show o.goneStarted = true from hg] at hidle
            cases hidle
      | live =>
        have hidle := hold.idle (by rw [hstate]; nofun)
        have hended := hold.bindEnded (by rw [hstate]; nofun)
        have hnamed : handle.epoch ≤ w.registry.lastEpoch handle.channel :=
          h.noticed _ hold.reserved
        have hat := occupantAt_replace
          { o with state := .closing, cancelled := true, aborts := [] } ho rfl
        -- no task of the route is left
        have hover : ∀ (j : Nat) (u : Task), w.tasks[j]? = some u → u.handle = handle →
            u.stage = .finished := by
          intro j u hu hhandle
          have hfits := h.fits j u hu
          refine over_of_open hfits ?_ (hhandle ▸ ho) (by rw [hstate]; nofun)
          refine Bool.eq_false_iff.mpr fun hbinds => ?_
          obtain ⟨p, hp, b, hb⟩ := hfits.inBind hbinds
          rw [hhandle] at hp
          cases ho.symm.trans hp
          rw [hstate] at hb
          cases hb
        refine @Coherent.touch w _ handle (some (.closing handle)) h ⟨?_, fun _ => by simp, rfl,
          fun j u hu => ?_, rfl, ?_, rfl⟩ ⟨fun _ => hnamed, nofun, nofun⟩ ?_ ?_ ?_ ?_ hnamed ?_
        · intro g hg
          rw [occupantAt_setMembership, hat, if_neg hg]
        · exact (getElem?_spawn hu).imp id fun hnew => by rw [hnew.2]
        · rintro n ⟨⟩
          exact ⟨rfl, nofun⟩
        · have hpublish := h.sound.publish
            { o with state := .closing, cancelled := true, aborts := [] } hocc.1 rfl rfl
          rw [if_neg nofun] at hpublish
          exact hpublish
        · intro j u hu hhandle
          rcases getElem?_spawn hu with hold | ⟨-, rfl⟩
          · exact fits_of_over (hover j u hold hhandle)
          · refine ⟨fun p hp => ?_, hsub _ hended, fun _ =>
              ⟨{ o with state := .closing, cancelled := true, aborts := [] }, ?_, hidle⟩⟩
            · rw [occupantAt_setMembership, hat, if_pos rfl] at hp
              cases hp
              rfl
            · rw [occupantAt_setMembership, hat, if_pos rfl]
        · intro j k u v hj hk hjk hu hv
          rcases getElem?_spawn hj with hj' | ⟨hjl, -⟩
          · have huover := hover j u hj' hu
            refine ⟨fun hb => ?_, fun _ => .inl huover⟩
            rw [huover] at hb
            cases hb.1
          · rcases getElem?_spawn hk with hk' | ⟨hkl, -⟩
            · have hvover := hover k v hk' hv
              refine ⟨fun hb => ?_, fun _ => .inr hvover⟩
              rw [hvover] at hb
              cases hb.2
            · exact absurd (hjl.trans hkl.symm) hjk
        · intro p hp
          rw [occupantAt_setMembership, hat, if_pos rfl] at hp
          cases hp
          exact ⟨hsub _ hold.reserved, fun _ => hsub _ hended,
            fun hn => hold.gone (hback _ nofun hn), fun _ => .inl rfl, fun _ => rfl⟩
        · intro _ _ hnone
          rw [occupantAt_setMembership, hat, if_pos rfl] at hnone
          cases hnone
      | closing =>
        exact h

theorem coherent_openRoute (h : Coherent w) (gen : Nat) (class_ : RouteClass) :
    Coherent (w.step (.openRoute gen class_)) := by
  rw [World.step]
  cases hr : w.registry.reserve gen (w.retired gen) class_ with
  | none => exact h
  | some result =>
    obtain ⟨handle, registry⟩ := result
    obtain ⟨hopen, hroom, hfree, hepoch, rfl⟩ := reserve_eq_some hr
    have hnotAt : ∀ g : RouteHandle, g.channel = handle.channel →
        w.registry.occupantAt g = none := by
      intro g hg
      rw [occupantAt, hg, hfree]
      rfl
    -- nothing is known by the new handle yet
    have hnew : ∀ g : RouteHandle, g.epoch ≤ w.registry.lastEpoch g.channel → g ≠ handle := by
      rintro g hg rfl
      omega
    have hlast : ∀ channel, w.registry.lastEpoch channel ≤
        (w.registry.admitted gen class_ handle.channel).lastEpoch channel := by
      intro channel
      rw [lastEpoch_admitted]
      by_cases hc : channel = handle.channel
      · rw [if_pos hc, hc]
        exact Nat.le_succ _
      · rw [if_neg hc]
    have hat : ∀ g : RouteHandle, g ≠ handle →
        (w.registry.admitted gen class_ handle.channel).occupantAt g = w.registry.occupantAt g := by
      intro g hg
      by_cases hc : g.channel = handle.channel
      · rw [hnotAt g hc, Option.eq_none_iff_forall_not_mem]
        intro p hp
        obtain ⟨hocc, hpe⟩ := occupantAt_eq_some.mp hp
        rw [occupant_admitted, if_pos hc] at hocc
        cases hocc
        obtain ⟨channel', epoch'⟩ := handle
        cases hc
        cases hepoch.trans hpe
        exact hg rfl
      · rw [occupantAt, occupantAt, occupant_admitted, if_neg hc]
    have hself : (w.registry.admitted gen class_ handle.channel).occupantAt handle = some
        { epoch := w.registry.lastEpoch handle.channel + 1, gen, state := .binding false,
          class_ } := by
      rw [occupantAt_eq_some, occupant_admitted, if_pos rfl]
      exact ⟨rfl, hepoch.symm⟩
    have hsub : ∀ n ∈ w.log, n ∈ w.log ++ [.reserved handle] :=
      fun n hn => List.mem_append_left _ hn
    have hmem : ∀ n, n ∈ w.log ++ [.reserved handle] → n ∈ w.log ∨ n = .reserved handle :=
      fun n hn => (List.mem_append.mp hn).imp id List.mem_singleton.mp
    have hnamed : handle.epoch ≤
        (w.registry.admitted gen class_ handle.channel).lastEpoch handle.channel := by
      rw [lastEpoch_admitted, if_pos rfl]
      exact Nat.le_of_eq hepoch
    have hunknown : ∀ n ∈ w.log, n.handle ≠ handle := fun n hn => hnew _ (h.noticed n hn)
    have hlog : Chronicle (w.log ++ [.reserved handle]) := by
      refine h.chronicle.append _ ?_ (by rintro _ ⟨⟩) (by rintro _ ⟨⟩)
      rintro _ ⟨⟩ g hg hchannel
      have hle : g.epoch ≤ w.registry.lastEpoch g.channel := h.noticed _ hg
      rw [hchannel] at hle
      exact ⟨by omega, h.past g hg hopen (hnotAt g hchannel)⟩
    refine ⟨h.sound.admitted gen class_ hroom hfree, ?_, ?_, ?_, ?_, ?_, ?_, hlog.increasing,
      hlog.goneOnce, hlog.goneAfterBind, hlog.reused, hlog.registers, h.installs⟩
    · intro j u hu
      rcases getElem?_spawn hu with hold | ⟨-, rfl⟩
      · exact (h.fits j u hold).mono (hat _ (hnew _ (h.named j u hold))) (fun _ => hopen) hsub
      · exact ⟨_, hself, false, rfl⟩
    · intro j k u v hj hk hjk hhandle
      rcases getElem?_spawn hj with hj' | ⟨hjl, rfl⟩
      · rcases getElem?_spawn hk with hk' | ⟨-, rfl⟩
        · have hold := h.exclusive j k u v hj' hk' hjk hhandle
          exact ⟨hold.1, fun _ => hold.2 hopen⟩
        · exact absurd hhandle (hnew _ (h.named j u hj'))
      · rcases getElem?_spawn hk with hk' | ⟨hkl, -⟩
        · exact absurd hhandle.symm (hnew _ (h.named k v hk'))
        · exact absurd (hjl.trans hkl.symm) hjk
    · intro g o ho
      by_cases hg : g = handle
      · subst hg
        cases hself.symm.trans ho
        refine ⟨List.mem_append_right _ (List.mem_singleton.mpr rfl),
          fun hb => absurd rfl (hb false), fun hn => ?_, fun hn => ?_, by rintro ⟨⟩⟩
        · exact absurd rfl (hunknown _ ((hmem _ hn).resolve_right (by rintro ⟨⟩)))
        · exact absurd rfl (hunknown _ ((hmem _ hn).resolve_right (by rintro ⟨⟩)))
      · have hold := h.occupants g o ((hat g hg).symm.trans ho)
        refine ⟨hsub _ hold.reserved, fun hb => hsub _ (hold.bindEnded hb), fun hn => ?_,
          fun hn => ?_, hold.started⟩
        · exact hold.gone ((hmem _ hn).resolve_right (by rintro ⟨⟩))
        · exact hold.closing ((hmem _ hn).resolve_right (by rintro ⟨⟩))
    · intro n hn
      rcases hmem n hn with hold | rfl
      · exact (h.noticed n hold).trans (hlast _)
      · exact hnamed
    · intro j u hu
      rcases getElem?_spawn hu with hold | ⟨-, rfl⟩
      · exact (h.named j u hold).trans (hlast _)
      · exact hnamed
    · intro g hg _ hnone
      have hne : g ≠ handle := by
        rintro rfl
        rw [hself] at hnone
        cases hnone
      refine hsub _ (h.past g ((hmem _ hg).resolve_right fun heq => hne ?_) hopen
        ((hat g hne).symm.trans hnone))
      exact Notice.reserved.inj heq

/-! ## Forced shutdown -/

namespace Registry

theorem drainOccupant_state (o : Occupant) :
    (drainOccupant o).state = .closing ∨ (drainOccupant o).state = .binding true ∨
      o.goneStarted = true ∧ (drainOccupant o).state = o.state := by
  rw [drainOccupant]
  split
  · rename_i hgone
    exact .inr (.inr ⟨hgone, rfl⟩)
  · split
    · exact .inr (.inl rfl)
    · exact .inl rfl

theorem drainOccupant_binding {b : Bool} (h : o.state = .binding b) :
    ∃ b', (drainOccupant o).state = .binding b' := by
  rw [drainOccupant]
  split
  · exact ⟨b, h⟩
  · rw [h]
    exact ⟨true, rfl⟩

theorem drainOccupant_closing (h : ∀ b, o.state ≠ .binding b)
    (hgone : o.goneStarted = true → o.state = .closing) : (drainOccupant o).state = .closing := by
  rw [drainOccupant]
  split
  · rename_i hg
    exact hgone hg
  · split
    · rename_i b hb
      exact absurd hb (h b)
    · rfl

theorem drainOccupant_goneStarted (o : Occupant) :
    (drainOccupant o).goneStarted = o.goneStarted := by
  rw [drainOccupant]
  split
  · rfl
  · split <;> rfl

theorem occupantAt_forceDrain (r : Registry) (handle : RouteHandle) :
    r.forceDrain.2.occupantAt handle = (r.occupantAt handle).map drainOccupant := by
  rw [occupantAt, occupant_forceDrain, occupantAt]
  cases r.occupant handle.channel with
  | none => rfl
  | some o =>
    rw [Option.map_some, Option.filter_some, Option.filter_some, drainOccupant_epoch]
    split <;> rfl

theorem mem_claims {among : List Channel} {claimed : RouteHandle × List Nat}
    (h : claimed ∈ r.claims among) :
    ∃ o, r.occupantAt claimed.1 = some o ∧ ∀ b, o.state ≠ .binding b := by
  obtain ⟨channel, -, hclaimed⟩ := List.mem_filterMap.mp h
  obtain ⟨o, ho, rfl⟩ := Option.map_eq_some_iff.mp hclaimed
  rw [Option.filter_eq_some_iff] at ho
  refine ⟨o, occupantAt_eq_some.mpr ⟨ho.1, rfl⟩, fun b hb => ?_⟩
  rw [drained, hb, Bool.and_false] at ho
  exact Bool.false_ne_true ho.2

end Registry

theorem mem_drainNotices {among : List Channel} {n : Notice} (h : n ∈ World.drainNotices among r) :
    ∃ handle o, n = .closing handle ∧ r.occupantAt handle = some o := by
  obtain ⟨channel, -, hn⟩ := List.mem_filterMap.mp h
  obtain ⟨o, ho, rfl⟩ := Option.map_eq_some_iff.mp hn
  rw [Option.filter_eq_some_iff] at ho
  exact ⟨⟨channel, o.epoch⟩, o, rfl, occupantAt_eq_some.mpr ⟨ho.1, rfl⟩⟩

theorem coherent_forceDrain (h : Coherent w) : Coherent (w.step .forceDrain) := by
  rw [World.step]
  by_cases hfrozen : w.registry.accepting = true
  · rw [if_pos hfrozen]
    exact h
  · rw [if_neg hfrozen]
    have hsub : ∀ n ∈ w.log, n ∈ w.log ++ World.drainNotices channels w.registry :=
      fun n hn => List.mem_append_left _ hn
    have hmem : ∀ n, n ∈ w.log ++ World.drainNotices channels w.registry →
        n ∈ w.log ∨ ∃ g o, n = .closing g ∧ w.registry.occupantAt g = some o :=
      fun n hn => (List.mem_append.mp hn).imp id mem_drainNotices
    have hback : ∀ n, (∀ g, n ≠ .closing g) →
        n ∈ w.log ++ World.drainNotices channels w.registry → n ∈ w.log := by
      intro n hne hn
      refine (hmem n hn).resolve_right ?_
      rintro ⟨g, -, heq, -⟩
      exact hne g heq
    have hshut : ∀ g, w.registry.Shut g → w.registry.forceDrain.2.Shut g := by
      intro g hg o ho
      rw [occupantAt_forceDrain, Option.map_eq_some_iff] at ho
      obtain ⟨p, hp, rfl⟩ := ho
      exact drainOccupant_closing (by rw [hg p hp]; nofun) fun _ => hg p hp
    have htask : ∀ (j : Nat) (u : Task), (w.tasks ++ w.registry.forceDrain.1.map
        fun claimed => (⟨claimed.1, .settling, false⟩ : Task))[j]? = some u →
        w.tasks[j]? = some u ∨ ∃ claimed ∈ w.registry.forceDrain.1,
          u = ⟨claimed.1, .settling, false⟩ := by
      intro j u hu
      rw [List.getElem?_append] at hu
      split at hu
      · exact .inl hu
      · obtain ⟨claimed, hclaimed, rfl⟩ := List.mem_map.mp (List.mem_of_getElem? hu)
        exact .inr ⟨claimed, hclaimed, rfl⟩
    have hlog : ∀ new : List Notice, (∀ n ∈ new, ∃ g, n = .closing g) →
        Chronicle (w.log ++ new) := by
      intro new hnew
      induction new using List.reverseRecOn with
      | nil => exact (List.append_nil _).symm ▸ h.chronicle
      | append_singleton new n ih =>
        obtain ⟨g, rfl⟩ := hnew n (List.mem_append_right _ List.mem_cons_self)
        rw [← List.append_assoc]
        exact (ih fun n hn => hnew n (List.mem_append_left _ hn)).append _ nofun nofun nofun
    have hlog := hlog (World.drainNotices channels w.registry) fun n hn => by
      obtain ⟨g, -, heq, -⟩ := mem_drainNotices hn
      exact ⟨g, heq⟩
    refine ⟨h.sound.forceDrain fun channel o ho hgone hlive => ?_, ?_, ?_, ?_, ?_, ?_, ?_,
      hlog.increasing, hlog.goneOnce, hlog.goneAfterBind, hlog.reused, hlog.registers, h.installs⟩
    · have hold := h.occupants ⟨channel, o.epoch⟩ o (occupantAt_eq_some.mpr ⟨ho, rfl⟩)
      rw [hold.started hgone] at hlive
      cases hlive
    · intro j u hu
      rcases htask j u hu with hold | ⟨claimed, hclaimed, rfl⟩
      · have hfits := h.fits j u hold
        cases hbinds : u.stage.binds with
        | false =>
          by_cases hover : u.stage = .finished
          · exact fits_of_over hover
          · obtain ⟨hs, hended⟩ := hfits.shut hbinds hover
            exact fits_of_frozen hbinds (hshut _ hs) (hsub _ hended) hfrozen
        | true =>
          have hbind : w.registry.forceDrain.2.InBind u.handle := by
            obtain ⟨o, ho, b, hb⟩ := hfits.inBind hbinds
            refine ⟨drainOccupant o, ?_, drainOccupant_binding hb⟩
            rw [occupantAt_forceDrain, ho]
            rfl
          obtain ⟨g, stage, exempt⟩ := u
          cases stage <;> simp only [Stage.binds, Bool.false_eq_true] at hbinds
          case binding => exact hbind
          case installing => exact ⟨hbind, hsub _ hfits.2⟩
          case rejecting => exact ⟨hbind, hsub _ hfits.2⟩
      · obtain ⟨o, ho, hstate⟩ := mem_claims hclaimed
        have hold := h.occupants _ o ho
        refine ⟨fun p hp => ?_, hsub _ (hold.bindEnded hstate), fun ha => absurd ha hfrozen⟩
        rw [occupantAt_forceDrain, ho] at hp
        cases hp
        exact drainOccupant_closing hstate hold.started
    · intro j k u v hj hk hjk hhandle
      refine ⟨?_, fun ha => absurd ha hfrozen⟩
      rcases htask j u hj with hj | ⟨claimed, -, rfl⟩
      · rcases htask k v hk with hk | ⟨claimed, -, rfl⟩
        · exact (h.exclusive j k u v hj hk hjk hhandle).1
        · exact fun hb => Bool.false_ne_true hb.2
      · exact fun hb => Bool.false_ne_true hb.1
    · intro g o ho
      rw [occupantAt_forceDrain, Option.map_eq_some_iff] at ho
      obtain ⟨p, hp, rfl⟩ := ho
      have hold := h.occupants g p hp
      have hstate := drainOccupant_state p
      refine ⟨hsub _ hold.reserved, fun hb => ?_, fun hn => ?_, fun _ => ?_, fun hgone => ?_⟩
      · refine hsub _ (hold.bindEnded fun b hp => ?_)
        obtain ⟨b', hb'⟩ := drainOccupant_binding hp
        exact hb b' hb'
      · rw [drainOccupant_goneStarted]
        exact hold.gone (hback _ nofun hn)
      · rcases hstate with hc | hb | ⟨hgone, hsame⟩
        · exact .inl hc
        · exact .inr hb
        · exact .inl (hsame.trans (hold.started hgone))
      · rw [drainOccupant_goneStarted] at hgone
        refine drainOccupant_closing ?_ hold.started
        rw [hold.started hgone]
        nofun
    · intro n hn
      rcases hmem n hn with hold | ⟨g, o, rfl, ho⟩
      · exact h.noticed n hold
      · exact h.noticed (.reserved g) (h.occupants g o ho).reserved
    · intro j u hu
      rcases htask j u hu with hold | ⟨claimed, hclaimed, rfl⟩
      · exact h.named j u hold
      · obtain ⟨o, ho, -⟩ := mem_claims hclaimed
        exact h.noticed _ (h.occupants _ o ho).reserved
    · exact fun g _ ha => absurd ha hfrozen

/-! ## Runs -/

theorem coherent_fresh (maxRoutes : Nat) : Coherent (World.fresh maxRoutes) where
  sound := sound_fresh maxRoutes
  fits := by simp [World.fresh]
  exclusive := by simp [World.fresh]
  occupants := nofun
  noticed := nofun
  named := by simp [World.fresh]
  past := nofun
  increasing := List.Pairwise.nil
  goneOnce := fun _ => Nat.zero_le _
  goneAfterBind := fun g before after h => by simp [World.fresh] at h
  reused := fun before g g' after h => by simp [World.fresh] at h
  registers := List.Pairwise.nil
  installs := rfl

/-- The end of a callback is told of. -/
theorem coherent_callbackEnds (h : Coherent w) (handle : RouteHandle) :
    Coherent (w.step (.callbackEnds handle)) := by
  rw [World.step]
  by_cases hstarted : Notice.goneStarted handle ∈ w.log
  · rw [if_pos hstarted]
    have hnamed : handle.epoch ≤ w.registry.lastEpoch handle.channel := h.noticed _ hstarted
    have hsub : ∀ n ∈ w.log, n ∈ w.log ++ [.goneEnded handle] :=
      fun n hn => List.mem_append_left _ hn
    refine @Coherent.touch w _ handle (some (.goneEnded handle)) h
      ⟨fun _ _ => rfl, fun _ => rfl, rfl, fun j u hu => .inl hu, rfl, ?_, rfl⟩
      ⟨fun _ => hnamed, nofun, nofun⟩ h.sound ?_ ?_ ?_ hnamed ?_
    · rintro n ⟨⟩
      exact ⟨rfl, nofun⟩
    · exact fun j u hu _ => (h.fits j u hu).mono rfl id hsub
    · exact fun j k u v hj hk hjk hu hv => h.exclusive j k u v hj hk hjk (hu.trans hv.symm)
    · intro o ho
      have hold := h.occupants handle o ho
      exact @Occupant.Fits.mono w _ handle (some (.goneEnded handle)) o hold rfl nofun nofun
    · exact fun _ _ _ => List.mem_append_right _ (List.mem_singleton.mpr rfl)
  · rw [if_neg hstarted]
    exact h

theorem Registry.Sound.freezeAdmission (h : r.Sound) : r.freezeAdmission.Sound :=
  ⟨h.live, h.bounded, h.epoch, h.membership⟩

/-- After a freeze less is relied on. -/
theorem coherent_freezeAdmission (h : Coherent w) : Coherent (w.step .freezeAdmission) where
  sound := h.sound.freezeAdmission
  fits j u hu := (h.fits j u hu).mono rfl nofun fun _ hn => hn
  exclusive j k u v hj hk hjk hhandle := ⟨(h.exclusive j k u v hj hk hjk hhandle).1, nofun⟩
  occupants g o ho :=
    have hold := h.occupants g o ho
    ⟨hold.reserved, hold.bindEnded, hold.gone, hold.closing, hold.started⟩
  noticed := h.noticed
  named := h.named
  past := nofun
  increasing := h.increasing
  goneOnce := h.goneOnce
  goneAfterBind := h.goneAfterBind
  reused := h.reused
  registers := h.registers
  installs := h.installs

/-- What is not mentioned may change. -/
theorem Coherent.congr (h : Coherent w) (hregistry : w'.registry = w.registry)
    (htasks : w'.tasks = w.tasks) (hlog : w'.log = w.log) (hpanicked : w'.panicked = w.panicked) :
    Coherent w' := by
  obtain ⟨registry, retired, tasks, sweeps, log, panicked⟩ := w'
  cases hregistry
  cases htasks
  cases hlog
  cases hpanicked
  refine ⟨h.sound, fun j u hu => ?_, h.exclusive, fun g o ho => ?_, h.noticed, h.named, h.past,
    h.increasing, h.goneOnce, h.goneAfterBind, h.reused, h.registers, h.installs⟩
  · exact (h.fits j u hu).mono rfl id fun _ hn => hn
  · have hold := h.occupants g o ho
    exact ⟨hold.reserved, hold.bindEnded, hold.gone, hold.closing, hold.started⟩

theorem coherent_step (h : Coherent w) (e : Event) : Coherent (w.step e) := by
  cases e with
  | openRoute gen class_ => exact coherent_openRoute h gen class_
  | drive i outside =>
    rw [World.step]
    cases hi : w.tasks[i]? with
    | none => exact h
    | some t => exact coherent_drive h hi outside
  | callbackEnds handle => exact coherent_callbackEnds h handle
  | beginClose handle owner => exact coherent_beginClose h handle owner
  | beginSweep gen order =>
    rw [World.step]
    split
    · exact h.congr rfl rfl rfl rfl
    · exact h
  | sweep k =>
    rw [World.step]
    split
    · rename_i gen handle rest _
      have hset : Coherent { w with sweeps := w.sweeps.set k (gen, rest) } :=
        h.congr rfl rfl rfl rfl
      exact coherent_beginClose hset handle (some gen)
    · exact h
  | registerDispatch handle gen task finished =>
    exact coherent_registerDispatch h handle gen task finished
  | freezeAdmission => exact coherent_freezeAdmission h
  | forceDrain => exact coherent_forceDrain h
  | abort i =>
    rw [World.step]
    cases hi : w.tasks[i]? with
    | none => exact h
    | some t =>
      by_cases hawaits : (!t.exempt && (t.stage == .settling || t.stage == .joining)) = true
      · simp only [if_pos hawaits]
        refine h.advance_same .finished none hi ?_ nofun ?_ (.inl rfl) trivial
        · intro hover
          rw [hover] at hawaits
          simp at hawaits
        · rw [Option.toList_none, List.append_nil]
          rfl
      · simp only [if_neg hawaits]
        exact h
  | retire gen => exact h.congr rfl rfl rfl rfl

theorem coherent_run (maxRoutes : Nat) (events : List Event) :
    Coherent (World.run maxRoutes events) := by
  induction events using List.reverseRecOn with
  | nil => exact coherent_fresh maxRoutes
  | append_singleton events e ih =>
    rw [World.run, List.foldl_append]
    exact coherent_step ih e

/-- Whatever the order of the steps: the registry counts its routes and stays within its bound, no
handle is given out twice, the membership maps hold the live routes, the route-gone callback of a
route starts once and after its bind, no channel is given out again before it has ended, no dispatch
registers behind a close, and no bind completes twice. -/
theorem route_lifecycle (maxRoutes : Nat) (events : List Event) :
    RouteLifecycle (World.run maxRoutes events) :=
  (coherent_run maxRoutes events).lifecycle

end MagicContext.Host
