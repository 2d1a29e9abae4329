import Mathlib.Tactic.Common

/-!
# Processes on a shared state

A process is a program whose steps are operations on a state that others change too.  Between two
of its steps anything may happen, so what a step finds is what the process can rely on others to
keep.  A proof outline says for every operation what must hold of the state when its turn comes,
and what it may then do; the rules build outlines along the program.

## What is here

* `Process` — programs, as trees of operations; a monad.
* `Discipline` — what each operation needs, what it may do, and what others must leave alone.
* `Discipline.Triple` — outlines with a condition before and after, with `triple_bind`.
* `World` — processes that take turns, started and stopped at any time.
* `World.guarded_run` — along a run in which nobody disturbs what another relies on, every
  operation finds what it needs and does what it may.
-/

namespace MagicContext

/-- A program that has returned, or whose next step is an operation. -/
inductive Process (Op : Type) (Reply : Op → Type) (α : Type) where
  | done (result : α)
  | step (op : Op) (next : Reply op → Process Op Reply α)

namespace Process

variable {Op : Type} {Reply : Op → Type} {α β : Type}

def bind : Process Op Reply α → (α → Process Op Reply β) → Process Op Reply β
  | done a, f => f a
  | step op next, f => step op fun r => (next r).bind f

instance : Monad (Process Op Reply) where
  pure := done
  bind := bind

/-- The process that carries out one operation. -/
def perform (op : Op) : Process Op Reply (Reply op) := step op done

/-- The operation whose turn is next. -/
def next? : Process Op Reply α → Option Op
  | done _ => none
  | step op _ => some op

end Process

/-! ## Outlines -/

/-- Operations on a shared state.  `Outside` is what decides the replies that the state does not. -/
structure Discipline (Op : Type) (Reply : Op → Type) (State Outside : Type) where
  exec : Outside → (op : Op) → State → Reply op × State
  /-- The answers from outside that programs count on. -/
  admits : Outside → Op → State → Prop := fun _ _ _ => True
  /-- What holds of every state. -/
  invariant : State → Prop
  /-- What an operation needs when its turn comes. -/
  needs : Op → State → Prop
  /-- What it may then do. -/
  may : Op → State → State → Prop
  /-- What the steps of others leave alone until then. -/
  spares : Op → State → State → Prop
  stable : ∀ {op s s'}, needs op s → spares op s s' → needs op s'
  invariant_of_may : ∀ {op s s'}, invariant s → may op s s' → invariant s'

namespace Discipline

variable {Op : Type} {Reply : Op → Type} {State Outside α β : Type}
variable (D : Discipline Op Reply State Outside)

/-- The next operation has what it needs, or the result is as it should be. -/
def Ready (Q : α → State → Prop) : Process Op Reply α → State → Prop
  | .done a, s => Q a s
  | .step op _, s => D.needs op s

/-- From a state that has what it needs every operation does what it may, and leaves the process
ready, if the answers are ones that programs count on. -/
def Outlined (Q : α → State → Prop) : Process Op Reply α → Prop
  | .done _ => True
  | .step op next => ∀ outside s, D.invariant s → D.needs op s → D.admits outside op s →
      D.may op s (D.exec outside op s).2 ∧
      D.Ready Q (next (D.exec outside op s).1) (D.exec outside op s).2 ∧
      Outlined Q (next (D.exec outside op s).1)

/-- Started where `P` holds, the process is ready and goes on to be, and ends where `Q` holds. -/
def Triple (P : State → Prop) (p : Process Op Reply α) (Q : α → State → Prop) : Prop :=
  ∀ s, D.invariant s → P s → D.Ready Q p s ∧ D.Outlined Q p

variable {D}

variable {P : State → Prop} {Q : α → State → Prop} {p : Process Op Reply α}

theorem triple_done {a : α} (h : ∀ s, P s → Q a s) :
    D.Triple P (.done a) Q := fun s _ hP => ⟨h s hP, trivial⟩

theorem triple_mono {P P' : State → Prop} (h : D.Triple P p Q) (hP : ∀ s, P' s → P s) :
    D.Triple P' p Q :=
  fun s hinv hP' => h s hinv (hP s hP')

/-- A step's outline is one about its operation and one about every way to go on. -/
theorem triple_admitted {op : Op} {next : Reply op → Process Op Reply α}
    (hneeds : ∀ s, P s → D.needs op s)
    (hmay : ∀ outside s, D.invariant s → D.needs op s → D.may op s (D.exec outside op s).2)
    (hnext : ∀ r, D.Triple
      (fun s' => ∃ outside s, D.invariant s ∧ D.needs op s ∧ D.admits outside op s ∧
        D.exec outside op s = (r, s')) (next r) Q) : D.Triple P (.step op next) Q := by
  intro s _ hP
  refine ⟨hneeds s hP, fun outside t hinv ht hadmits => ?_⟩
  have hdone := hmay outside t hinv ht
  exact ⟨hdone, hnext _ _ (D.invariant_of_may hinv hdone) ⟨outside, t, hinv, ht, hadmits, rfl⟩⟩

/-- A step's outline, where nothing is counted on. -/
theorem triple_step {op : Op} {next : Reply op → Process Op Reply α}
    (hneeds : ∀ s, P s → D.needs op s)
    (hmay : ∀ outside s, D.invariant s → D.needs op s → D.may op s (D.exec outside op s).2)
    (hnext : ∀ r, D.Triple
      (fun s' => ∃ outside s, D.invariant s ∧ D.needs op s ∧ D.exec outside op s = (r, s'))
      (next r) Q) : D.Triple P (.step op next) Q :=
  triple_admitted hneeds hmay fun r => triple_mono (hnext r) fun _ ⟨outside, s, hinv, hs, _, h⟩ =>
    ⟨outside, s, hinv, hs, h⟩

theorem ready_mono {Q R : α → State → Prop} (hQR : ∀ a s, Q a s → R a s) {s : State}
    (h : D.Ready Q p s) : D.Ready R p s := by
  cases p with
  | done a => exact hQR a s h
  | step op next => exact h

theorem outlined_mono {Q R : α → State → Prop} (hQR : ∀ a s, Q a s → R a s) (h : D.Outlined Q p) :
    D.Outlined R p := by
  induction p with
  | done a => trivial
  | step op next ih =>
    intro outside s hinv hs hadmits
    obtain ⟨hmay, hready, hnext⟩ := h outside s hinv hs hadmits
    exact ⟨hmay, ready_mono hQR hready, ih _ hnext⟩

theorem triple_conseq {Q R : α → State → Prop} (h : D.Triple P p Q) (hQR : ∀ a s, Q a s → R a s) :
    D.Triple P p R :=
  fun s hinv hP => ⟨ready_mono hQR (h s hinv hP).1, outlined_mono hQR (h s hinv hP).2⟩

theorem outlined_bind {f : α → Process Op Reply β} {R : β → State → Prop}
    (hf : ∀ a, D.Triple (Q a) (f a) R) (hp : D.Outlined Q p) :
    ∀ s, D.invariant s → D.Ready Q p s → D.Ready R (p >>= f) s ∧ D.Outlined R (p >>= f) := by
  induction p with
  | done a => exact hf a
  | step op next ih =>
    refine fun s _ hs => ⟨hs, fun outside t hinv ht hadmits => ?_⟩
    obtain ⟨hmay, hready, hnext⟩ := hp outside t hinv ht hadmits
    exact ⟨hmay, ih _ hnext _ (D.invariant_of_may hinv hmay) hready⟩

/-- One program after another. -/
theorem triple_bind {f : α → Process Op Reply β} {R : β → State → Prop} (hp : D.Triple P p Q)
    (hf : ∀ a, D.Triple (Q a) (f a) R) : D.Triple P (p >>= f) R :=
  fun s hinv hP => outlined_bind hf (hp s hinv hP).2 s hinv (hp s hinv hP).1

end Discipline

/-! ## Worlds -/

/-- Processes on one state; the list only grows, and a stopped process has no place in it. -/
structure World (Op : Type) (Reply : Op → Type) (State α : Type) where
  state : State
  processes : List (Option (Process Op Reply α))

inductive World.Event (Op : Type) (Reply : Op → Type) (Outside Other α : Type) where
  | spawn (p : Process Op Reply α)
  | drive (i : Nat) (outside : Outside)
  /-- A change that no process makes. -/
  | other (e : Other)
  | restart

namespace World

variable {Op : Type} {Reply : Op → Type} {State Outside Other α : Type}
variable (D : Discipline Op Reply State Outside) (change : Other → State → State)

/-- The process at a place, while it runs. -/
def process (w : World Op Reply State α) (i : Nat) : Option (Process Op Reply α) :=
  w.processes[i]?.join

/-- The operation whose turn is next at a place. -/
def turn (w : World Op Reply State α) (i : Nat) : Option Op := (w.process i).bind Process.next?

/-- A restart stops every process and keeps the state. -/
def happen (w : World Op Reply State α) : Event Op Reply Outside Other α → World Op Reply State α
  | .spawn p => { w with processes := w.processes ++ [some p] }
  | .drive i outside =>
    match w.process i with
    | some (.step op next) =>
      let (r, s) := D.exec outside op w.state
      { state := s, processes := w.processes.set i (some (next r)) }
    | _ => w
  | .other e => { w with state := change e w.state }
  | .restart => { w with processes := w.processes.map fun _ => none }

/-- Whom an event is a step of. -/
def Event.actor : Event Op Reply Outside Other α → Option Nat
  | .drive i _ => some i
  | _ => none

def run (w : World Op Reply State α) (es : List (Event Op Reply Outside Other α)) :
    World Op Reply State α := es.foldl (happen D change) w

variable {D change}

section
variable (w : World Op Reply State α)
include w

theorem run_append (es fs : List (Event Op Reply Outside Other α)) :
    run D change w (es ++ fs) = run D change (run D change w es) fs := List.foldl_append

theorem run_concat (es : List (Event Op Reply Outside Other α))
    (e : Event Op Reply Outside Other α) :
    run D change w (es ++ [e]) = happen D change (run D change w es) e := run_append w es [e]

end

variable (D change)

/-- An event leaves alone what every other process relies on. -/
def Spares (w : World Op Reply State α) (e : Event Op Reply Outside Other α) : Prop :=
  ∀ j op, some j ≠ e.actor → w.turn j = some op → D.spares op w.state (happen D change w e).state

/-- Programs count on the answers that the event brings. -/
def Event.Admitted (w : World Op Reply State α) : Event Op Reply Outside Other α → Prop
  | .drive i outside => ∀ op, w.turn i = some op → D.admits outside op w.state
  | _ => True

/-- Only processes with an outline are started. -/
def Event.Startable : Event Op Reply Outside Other α → Prop
  | .spawn p => D.Triple (fun _ => True) p fun _ _ => True
  | _ => True

/-- The invariant holds, and every process is ready now and at each of its later steps. -/
structure Guarded (w : World Op Reply State α) : Prop where
  invariant : D.invariant w.state
  process : ∀ i p, w.process i = some p →
    D.Ready (fun _ _ => True) p w.state ∧ D.Outlined (fun _ _ => True) p

variable {D change}

variable {w : World Op Reply State α} {i : Nat} {op : Op}

theorem process_set_self {p q : Process Op Reply α} {s : State} (h : w.process i = some p) :
    process { state := s, processes := w.processes.set i (some q) } i = some q := by
  have hi : i < w.processes.length := by
    by_contra hi
    rw [process, List.getElem?_eq_none (Nat.le_of_not_lt hi)] at h
    cases h
  rw [process, List.getElem?_set_self hi]
  rfl

theorem process_set_ne {i j : Nat} {q : Process Op Reply α} {s : State} (h : i ≠ j) :
    process { state := s, processes := w.processes.set i (some q) } j = w.process j := by
  rw [process, List.getElem?_set_ne h, process]

/-- Nothing is counted on. -/
theorem Event.admitted {e : Event Op Reply Outside Other α}
    (h : ∀ outside op s, D.admits outside op s) : e.Admitted D w := by
  cases e with
  | drive i outside => exact fun op _ => h outside op w.state
  | _ => trivial

/-- A process that spares a step of another stays ready. -/
theorem ready_of_spares {p : Process Op Reply α} {s' : State}
    (hready : D.Ready (fun _ _ => True) p w.state)
    (hspares : ∀ op, p.next? = some op → D.spares op w.state s') :
    D.Ready (fun _ _ => True) p s' := by
  cases p with
  | done a => trivial
  | step op next => exact D.stable hready (hspares op rfl)

theorem turn_eq {p : Process Op Reply α} (h : w.process i = some p) : w.turn i = p.next? := by
  rw [turn, h]
  rfl

theorem happen_of_no_turn {outside : Outside} (h : w.turn i = none) :
    happen D change w (.drive i outside) = w := by
  rw [happen]
  split
  · rename_i op next hproc
    rw [turn_eq hproc] at h
    cases h
  · rfl

/-- A process whose turn it is, with the rest of its program. -/
theorem process_of_turn (h : w.turn i = some op) : ∃ next, w.process i = some (.step op next) := by
  rw [turn, Option.bind_eq_some_iff] at h
  obtain ⟨p, hp, hop⟩ := h
  cases p with
  | done a => cases hop
  | step op' next =>
    cases hop
    exact ⟨next, hp⟩

theorem happen_of_turn {outside : Outside} (h : w.turn i = some op) :
    (happen D change w (.drive i outside)).state = (D.exec outside op w.state).2 := by
  obtain ⟨next, hp⟩ := process_of_turn h
  rw [happen, hp]

/-- What a driven operation finds, when its process is ready. -/
theorem needs_of_guarded (h : Guarded D w) (hturn : w.turn i = some op) : D.needs op w.state := by
  obtain ⟨next, hp⟩ := process_of_turn hturn
  exact (h.process i _ hp).1

/-- What it does. -/
theorem may_of_guarded (h : Guarded D w) {outside : Outside} (hturn : w.turn i = some op)
    (hadmits : D.admits outside op w.state) :
    D.may op w.state (happen D change w (.drive i outside)).state := by
  obtain ⟨next, hp⟩ := process_of_turn hturn
  obtain ⟨hready, houtlined⟩ := h.process i _ hp
  rw [happen_of_turn hturn]
  exact (houtlined outside w.state h.invariant hready hadmits).1

/-- One step keeps the invariant and all processes ready. -/
theorem guarded_happen {e : Event Op Reply Outside Other α}
    (hchange : ∀ e s, D.invariant s → D.invariant (change e s)) (h : Guarded D w)
    (hspares : Spares D change w e) (hadmitted : e.Admitted D w) (hstart : e.Startable D) :
    Guarded D (happen D change w e) := by
  have hinv : D.invariant (happen D change w e).state := by
    cases e with
    | spawn q => exact h.invariant
    | drive i outside =>
      cases hturn : w.turn i with
      | none =>
        rw [happen_of_no_turn hturn]
        exact h.invariant
      | some op => exact D.invariant_of_may h.invariant (may_of_guarded h hturn (hadmitted op hturn))
    | other e => exact hchange e _ h.invariant
    | restart => exact h.invariant
  refine ⟨hinv, fun j p hp => ?_⟩
  -- a process that another's step leaves in place
  have hkept : some j ≠ e.actor → w.process j = some p →
      D.Ready (fun _ _ => True) p (happen D change w e).state ∧ D.Outlined (fun _ _ => True) p := by
    intro hj hold
    obtain ⟨hready, houtlined⟩ := h.process j p hold
    refine ⟨ready_of_spares hready fun op hop => hspares j op hj ?_, houtlined⟩
    rw [turn_eq hold, hop]
  cases e with
  | spawn q =>
    rw [happen, process, List.getElem?_append] at hp
    split at hp
    · exact hkept nofun hp
    · cases hi : j - w.processes.length with
      | zero =>
        rw [hi] at hp
        cases hp
        exact hstart w.state h.invariant trivial
      | succ i =>
        rw [hi] at hp
        cases hp
  | drive i outside =>
    by_cases hij : i = j
    · subst hij
      cases hproc : w.process i with
      | none =>
        rw [happen, hproc] at hp
        exact absurd (hproc.symm.trans hp) nofun
      | some q =>
        cases q with
        | done a =>
          rw [happen, hproc] at hp
          cases hproc.symm.trans hp
          exact ⟨trivial, trivial⟩
        | step op next =>
          rw [happen, hproc] at hp
          cases (process_set_self hproc).symm.trans hp
          obtain ⟨hready, houtlined⟩ := h.process i _ hproc
          rw [happen, hproc]
          exact (houtlined outside w.state h.invariant hready (hadmitted op (turn_eq hproc))).2
    · refine hkept (fun hactor => hij (Option.some.inj hactor).symm) ?_
      rw [happen] at hp
      split at hp
      · rwa [process_set_ne hij] at hp
      · exact hp
  | other e => exact hkept nofun hp
  | restart =>
    rw [happen, process, List.getElem?_map] at hp
    cases hget : w.processes[j]? with
    | none =>
      rw [hget] at hp
      cases hp
    | some q =>
      rw [hget] at hp
      cases hp

/-- A whole run keeps them ready. -/
theorem guarded_run {es : List (Event Op Reply Outside Other α)}
    (hchange : ∀ e s, D.invariant s → D.invariant (change e s)) (h : Guarded D w)
    (hspares : ∀ before e after, es = before ++ e :: after →
      Spares D change (run D change w before) e ∧ e.Admitted D (run D change w before))
    (hstart : ∀ e ∈ es, e.Startable D) : Guarded D (run D change w es) := by
  induction es generalizing w with
  | nil => exact h
  | cons e es ih =>
    obtain ⟨hspared, hadmitted⟩ := hspares [] e es rfl
    refine ih (guarded_happen hchange h hspared hadmitted (hstart e (List.mem_cons_self ..)))
      ?_ fun f hf => hstart f (List.mem_cons_of_mem e hf)
    intro before f after hes
    exact hspares (e :: before) f after (congrArg (e :: ·) hes)

end World

end MagicContext
