import MagicContext.Host.Lifecycle

/-!
# Dispatch of requests

One generation of a connection: its reader, the task of each request, the handlers' stream sends,
the tasks that answer without dispatch, and the tasks that close routes.  They take turns at their
waits, and meet in the order lock of a request's settlement and in the writer's queue.

The events are finer than the source's waits where another thread could look in between.  The
answers of the egress budget, of the writer's queue, of the permit pools and of the handler come
from outside, and so does what the host does to routes, which is a run of `World`.

## What is here

* `Settlement`, `Outer`, `Send`, `Request` — what belongs to one dispatched request.
* `Reply` — a task that answers a correlation that has no settlement.
* `State.emit`, `State.settle` — emission, from one wait to the next, and the settlement.
* `State.step`, `run` — one event, and runs.
-/

namespace MagicContext.Host
namespace Dispatch

/-! ## Frames and outcomes -/

inductive FrameType where
  | response | streamData | streamEnd | error | ping | goodbye
  deriving DecidableEq

def FrameType.isTerminal : FrameType → Bool
  | response => true
  | streamEnd => true
  | error => true
  | _ => false

structure Frame where
  ty : FrameType
  route : RouteHandle
  corr : Nat

/-- The route of control frames. -/
def control : RouteHandle := ⟨0, 0⟩

inductive Terminal where
  | response | error | streamEnd
  deriving DecidableEq

/-- What the join of the handler's task gives. -/
inductive Joined where
  /-- A unary response, within the frame limit or not. -/
  | response (fits : Bool)
  | error
  | streamed
  | panicked
  /-- The task was aborted. -/
  | stopped

/-- The terminal that a dispatch settles with. -/
def Joined.terminal (streamed : Bool) : Joined → Option Terminal
  | response fits => some (if streamed then .error else if fits then .response else .error)
  | error => some .error
  | Joined.streamed => some .streamEnd
  | panicked => some .error
  | stopped => none

/-! ## The state -/

/-- Who has the order lock. -/
inductive Holder where
  | settle
  | send (call : Nat)
  deriving DecidableEq

/-- `won` flips when a terminal is chosen, and `streamed` once the queue has taken an item. -/
structure Settlement where
  won : Bool := false
  streamed : Bool := false
  order : Option Holder := none

/-- What an emission waits for. -/
inductive Emission where
  /-- The egress budget. -/
  | charging
  /-- Room in the writer's queue. -/
  | admitting
  deriving DecidableEq

/-- What the task of a request waits for. -/
inductive Outer where
  /-- The start signal. -/
  | waiting
  /-- The handler, or a cancellation. -/
  | running
  /-- The handler that it has aborted. -/
  | stopping
  /-- The order lock. -/
  | locking (terminal : Terminal)
  | emitting (ty : FrameType) (e : Emission)
  | finished
  deriving DecidableEq

/-- What a call of `send` waits for. -/
inductive Send where
  | idle
  | locking
  | admitting
  /-- Nothing: the queue has taken the item, and `streamed` is about to be stored. -/
  | accepted
  | finished
  deriving DecidableEq

inductive AbortCause where
  | routeClose
  /-- `abort_all` of a shutdown that is out of time. -/
  | shutdown
  deriving DecidableEq

structure Request where
  route : RouteHandle
  settlement : Settlement := {}
  cancel : Bool := false
  /-- The entry by which frames and closes find the request. -/
  pending : Bool := true
  /-- A close has collected the entry. -/
  collected : Bool := false
  /-- The start signal: sent, or its sender dropped. -/
  start : Option Bool := none
  outer : Outer := .waiting
  /-- The handler has got its context, and with it the sink. -/
  served : Bool := false
  /-- The calls of `send`, by number. -/
  sends : Nat → Send := fun _ => .idle
  aborted : Option AbortCause := none

/-- The frame type of a terminal: a unary response is an error once the request has streamed. -/
def Terminal.frameType (streamed : Bool) : Terminal → FrameType
  | .response => if streamed then .error else .response
  | .error => .error
  | .streamEnd => .streamEnd

/-- The bodies of errors are charged; those of responses are charged before, and a stream's end has
none. -/
def FrameType.firstWait (ty : FrameType) : Emission := if ty = .error then .charging else .admitting

namespace Request

/-- The task has returned from `settle`, and removes its entry. -/
def settled (r : Request) : Request :=
  { r with settlement := { r.settlement with order := none }, outer := .finished, pending := false }

def setSend (r : Request) (call : Nat) (send : Send) : Request :=
  { r with sends := Function.update r.sends call send }

/-- A call is over, and gives the order lock back if it has it. -/
def endSend (r : Request) (call : Nat) : Request :=
  { r.setSend call .finished with
    settlement := { r.settlement with
      order := if r.settlement.order = some (.send call) then none else r.settlement.order } }

end Request

inductive ControlAction where
  | reject | catalogList | hostShutdown | hostStatus | routeOpen
  deriving DecidableEq

inductive ReplyKind where
  | rejection
  /-- For a frame that the transport has rejected. -/
  | authoritative
  | control (action : ControlAction)
  deriving DecidableEq

/-- The frames that such a task may emit, of which it emits one. -/
def ReplyKind.frames : ReplyKind → List FrameType
  | rejection => [.error]
  | authoritative => [.error]
  | control .reject => [.error]
  | control .catalogList => [.response]
  | control .hostShutdown => [.response]
  | control .hostStatus => [.response]
  | control .routeOpen => [.response, .error]

/-- It may end without one. -/
def ReplyKind.silent : ReplyKind → Bool
  | control .hostShutdown => true
  | control .routeOpen => true
  | _ => false

/-- A failed emission cancels the generation. -/
def ReplyKind.cancels : ReplyKind → Bool
  | authoritative => false
  | control .hostShutdown => false
  | _ => true

inductive ReplyStage where
  | working
  | emitting (ty : FrameType) (e : Emission)
  | finished

structure Reply where
  kind : ReplyKind
  route : RouteHandle
  stage : ReplyStage := .working

inductive CloseStage where
  /-- About to cancel the pending entries of the route. -/
  | collecting
  | waiting
  /-- Waiting again, after the abort. -/
  | stopping
  /-- A forced close is about to abort, and then waits. -/
  | forcing
  | joining
  | finished

structure Close where
  route : RouteHandle
  aborts : List Nat
  stage : CloseStage

inductive Reader where
  | idle
  /-- A request is visible as pending and about to be registered. -/
  | registering (corr : Nat)
  | exited
  deriving DecidableEq

structure State where
  host : World
  /-- The number of the generation. -/
  gen : Nat
  /-- The host drains, or is shut down. -/
  draining : Bool := false
  /-- The generation's token. -/
  cancelled : Bool := false
  /-- The writer takes no more frames. -/
  retired : Bool := false
  /-- Shutdown has aborted every task. -/
  forced : Bool := false
  /-- What the writer's queue has taken, in order. -/
  queue : List Frame := []
  watermark : Nat := 0
  reader : Reader := .idle
  requests : Nat → Option Request := fun _ => none
  replies : Nat → Option Reply := fun _ => none
  closes : List Close := []

namespace State

def cancelToken (s : State) : State :=
  { s with cancelled := true, host := s.host.step (.retire s.gen) }

def setRequest (s : State) (corr : Nat) (r : Request) : State :=
  { s with requests := Function.update s.requests corr (some r) }

def setReply (s : State) (corr : Nat) (r : Reply) : State :=
  { s with replies := Function.update s.replies corr (some r) }

def mapRequests (s : State) (f : Nat → Request → Request) : State :=
  { s with requests := fun corr => (s.requests corr).map (f corr) }

/-! ## Emission -/

end State

/-- What is answered to an emission that waits. -/
inductive Answer where
  | accepted
  /-- Its generation or its writer is gone. -/
  | refused
  /-- The deadline of the admission has passed. -/
  | expired

inductive Progress where
  | waits (e : Emission)
  | done (queued : Bool)

namespace State

variable (s : State)

/-- An emission starts, or goes on to the writer, with a look at the generation. -/
def begin (e : Emission) : Progress :=
  if s.retired || s.cancelled then .done false else .waits e

def emit (frame : Frame) : Emission → Answer → Progress × State
  | .charging, .accepted => (s.begin .admitting, s)
  | .charging, .refused => (if s.cancelled then .done false else .waits .charging, s)
  | .charging, .expired => (.done false, s.cancelToken)
  -- the token may be cancelled between the look at it and this
  | .admitting, .accepted => (.done true, { s with queue := s.queue ++ [frame] })
  | .admitting, .refused => (.done false, s)
  | .admitting, .expired => (.done false, { s.cancelToken with retired := true })

/-! ## Settlement -/

/-- The order lock is free, and `settle` takes it. -/
def settle (s : State) (corr : Nat) (r : Request) (t : Terminal) : State :=
  if r.settlement.won then s.setRequest corr r.settled
  else
    let r := { r with settlement := { r.settlement with won := true } }
    let ty := t.frameType r.settlement.streamed
    match s.begin ty.firstWait with
    | .waits e => s.setRequest corr { r with
        settlement := { r.settlement with order := some .settle }, outer := .emitting ty e }
    | .done _ => s.cancelToken.setRequest corr r.settled

variable (corr : Nat)

/-- The task of a request goes on.  `joined` is `none` where the cancellation is seen first. -/
def driveOuter (r : Request) (joined : Option Joined) (answer : Answer) : State :=
  match r.outer with
  | .waiting =>
    match r.start with
    | none => s
    | some false => s.setRequest corr { r with outer := .finished, pending := false }
    | some true =>
      if r.cancel then s.setRequest corr { r with outer := .locking .error }
      else s.setRequest corr { r with outer := .running, served := true }
  | .running =>
    match joined with
    | none => if r.cancel then s.setRequest corr { r with outer := .stopping } else s
    | some joined =>
      match joined.terminal r.settlement.streamed with
      | none => s.setRequest corr { r with outer := .finished, pending := false }
      | some t => s.setRequest corr { r with outer := .locking t }
  | .stopping => s.setRequest corr { r with outer := .locking .error }
  | .locking t => if r.settlement.order = none then s.settle corr r t else s
  | .emitting ty e =>
    match s.emit ⟨ty, r.route, corr⟩ e answer with
    | (.waits e, s) => s.setRequest corr { r with outer := .emitting ty e }
    | (.done true, s) => s.setRequest corr r.settled
    | (.done false, s) => s.cancelToken.setRequest corr r.settled
  | .finished => s

/-- An aborted task is dropped at its wait, and with it what it holds. -/
def dropOuter (r : Request) : State :=
  if r.aborted.isNone || r.outer == .finished then s
  else
    s.setRequest corr { r with
      outer := .finished
      settlement := { r.settlement with
        order := if r.settlement.order = some .settle then none else r.settlement.order } }

/-! ## Streams -/

/-- A new call of `send`, by whoever has a clone of the sink. -/
def send (r : Request) (call : Nat) : State :=
  if !r.served || r.sends call != .idle then s
  else s.setRequest corr (r.setSend call (if r.cancel then .finished else .locking))

/-- A call goes on.  `cancelSeen` is where the cancellation is seen first. -/
def driveSend (r : Request) (call : Nat) (cancelSeen : Bool) (answer : Answer) : State :=
  match r.sends call with
  | .idle => s
  | .locking =>
    if r.settlement.order ≠ none then s
    else if r.settlement.won || r.cancel then s.setRequest corr (r.endSend call)
    else
      match s.begin .admitting with
      | .waits _ => s.setRequest corr { r.setSend call .admitting with
          settlement := { r.settlement with order := some (.send call) } }
      | .done _ => s.setRequest corr (r.endSend call)
  | .admitting =>
    if cancelSeen && r.cancel then s.setRequest corr (r.endSend call)
    else
      match s.emit ⟨.streamData, r.route, corr⟩ .admitting answer with
      | (.waits _, s) => s
      | (.done true, s) => s.setRequest corr (r.setSend call .accepted)
      | (.done false, s) => s.setRequest corr (r.endSend call)
  | .accepted =>
    s.setRequest corr { r.endSend call with
      settlement := { (r.endSend call).settlement with streamed := true } }
  | .finished => s

/-- The future of a call is dropped, which it can be only where it waits. -/
def dropSend (r : Request) (call : Nat) : State :=
  match r.sends call with
  | .locking => s.setRequest corr (r.endSend call)
  | .admitting => s.setRequest corr (r.endSend call)
  | _ => s

/-! ## Answers without dispatch -/

def driveReply (r : Reply) (choice : Option FrameType) (answer : Answer) : State :=
  let failed := fun (s : State) =>
    (if r.kind.cancels then s.cancelToken else s).setReply corr { r with stage := .finished }
  match r.stage with
  | .working =>
    match choice with
    | none => if r.kind.silent then s.setReply corr { r with stage := .finished } else s
    | some ty =>
      if ty ∈ r.kind.frames then
        match s.begin .charging with
        | .waits e => s.setReply corr { r with stage := .emitting ty e }
        | .done _ => failed s
      else s
  | .emitting ty e =>
    match s.emit ⟨ty, r.route, corr⟩ e answer with
    | (.waits e, s) => s.setReply corr { r with stage := .emitting ty e }
    | (.done true, s) => s.setReply corr { r with stage := .finished }
    | (.done false, s) => failed s
  | .finished => s

/-- `emit_rejection`; `busy` tells whether a permit is left. -/
def emitRejection (route : RouteHandle) (busy : Bool) : State :=
  if busy then s.setReply corr { kind := .rejection, route }
  else s.cancelToken

/-! ## The reader -/

end State

/-- The answers of the permit pools. -/
structure Permits where
  pending : Bool
  task : Bool
  /-- One of the permits for rejections. -/
  busy : Bool

inductive Inbound where
  /-- A request on a route, that is, not on the control channel. -/
  | request (route : RouteHandle) (corr : Nat)
  | control (corr : Nat) (action : ControlAction)
  | rejected (corr : Nat)
  | cancel (route : RouteHandle) (corr : Nat)
  | goodbye (route : RouteHandle)
  /-- A frame that ends the connection, or the end of the input. -/
  | last

namespace State

/-- The routes that an event of the host begins to close for this task, with their tasks. -/
def beginsClose (w : World) : Host.Event → List Close
  | .beginClose handle owner =>
    match (w.registry.beginCloseFor handle owner).1 with
    | .owner _ aborts => [⟨handle, aborts, .collecting⟩]
    | _ => []
  | .sweep k =>
    match w.sweeps[k]? with
    | some (gen, handle :: _) =>
      match (w.registry.beginCloseFor handle (some gen)).1 with
      | .owner _ aborts => [⟨handle, aborts, .collecting⟩]
      | _ => []
    | _ => []
  | .forceDrain =>
    if w.registry.accepting then []
    else w.registry.forceDrain.1.map fun claimed => ⟨claimed.1, claimed.2, .forcing⟩
  | _ => []

variable (s : State)

def hostStep (e : Host.Event) : State :=
  { s with host := s.host.step e, closes := s.closes ++ beginsClose s.host e }

/-- `dispatch_request`, up to the registration. -/
def dispatchRequest (route : RouteHandle) (corr : Nat) (permits : Permits) : State :=
  if s.draining then s.emitRejection corr route permits.busy
  else
    match s.host.registry.routeTracker route s.gen with
    | none => s.emitRejection corr route permits.busy
    | some _ =>
      if !permits.pending || !permits.task then s.emitRejection corr route permits.busy
      else { s.setRequest corr { route } with reader := .registering corr }

def handleControl (corr : Nat) (action : ControlAction) (permits : Permits) : State :=
  if permits.pending then s.setReply corr { kind := .control action, route := control }
  else s.emitRejection corr control permits.busy

def handleCancel (route : RouteHandle) (corr : Nat) : State :=
  match s.requests corr with
  | none => s
  | some r =>
    if r.route = route ∧ r.pending = true ∧ r.settlement.won = false then
      s.setRequest corr { r with cancel := true }
    else s

def exit : State := { s with reader := .exited }

def receive (inbound : Inbound) (permits : Permits) : State :=
  if s.reader ≠ .idle then s
  else
    match inbound with
    | .request route corr =>
      if corr ≤ s.watermark then s.exit
      else
        let s := { s with watermark := corr }
        if route.epoch = 0 then s.exit else s.dispatchRequest route corr permits
    | .control corr action =>
      if corr ≤ s.watermark then s.exit
      else handleControl { s with watermark := corr } corr action permits
    | .rejected corr =>
      if corr ≤ s.watermark then s.exit
      else
        let s := { s with watermark := corr }
        if permits.busy then s.setReply corr { kind := .authoritative, route := control }
        else s.cancelToken.exit
    | .cancel route corr =>
      if route.channel = 0 ∨ route.epoch = 0 ∨ corr = 0 then s.exit else s.handleCancel route corr
    | .goodbye route =>
      if route.channel = 0 ∨ route.epoch = 0 then s.exit
      else s.hostStep (.beginClose route (some s.gen))
    | .last => s.exit

/-- The registration of the task, and its start signal. -/
def register (finished : Nat → Bool) (busy : Bool) : State :=
  match s.reader with
  | .registering corr =>
    match s.requests corr with
    | none => s
    | some r =>
      let s := { s with reader := .idle }
      match s.host.registry.registerDispatch r.route s.gen corr finished with
      | some _ =>
        (s.hostStep (.registerDispatch r.route s.gen corr finished)).setRequest corr
          { r with start := some true }
      | none => (s.setRequest corr { r with start := some false }).emitRejection corr r.route busy
  | _ => s

/-! ## Closes -/

def abortTasks (aborts : List Nat) : State :=
  s.mapRequests fun corr r =>
    if corr ∈ aborts then { r with aborted := r.aborted.or (some .routeClose) } else r

/-- `settle_route_work`, or a forced close; `stopped` tells whether the tasks have stopped within
their time. -/
def driveClose (k : Nat) (c : Close) (stopped : Bool) : State :=
  let goes := fun (s : State) stage => { s with closes := s.closes.set k { c with stage } }
  let removed := s.mapRequests fun _ r =>
    if r.route = c.route ∧ r.collected then { r with pending := false } else r
  match c.stage with
  | .collecting =>
    goes (s.mapRequests fun _ r =>
      if r.route = c.route ∧ r.pending = true then { r with cancel := true, collected := true }
      else r) .waiting
  | .waiting => if stopped then goes removed .finished else goes (s.abortTasks c.aborts) .stopping
  | .stopping => if stopped then goes removed .finished else goes s .finished
  | .forcing => goes (s.abortTasks c.aborts) .joining
  | .joining => goes s .finished
  | .finished => s

end State

/-! ## Runs -/

inductive Event where
  | receive (inbound : Inbound) (permits : Permits)
  | register (finished : Nat → Bool) (busy : Bool)
  | outer (corr : Nat) (joined : Option Joined) (answer : Answer)
  | dropOuter (corr : Nat)
  | send (corr : Nat) (call : Nat)
  | driveSend (corr : Nat) (call : Nat) (cancelSeen : Bool) (answer : Answer)
  | dropSend (corr : Nat) (call : Nat)
  | reply (corr : Nat) (choice : Option FrameType) (answer : Answer)
  | dropReply (corr : Nat)
  | close (k : Nat) (stopped : Bool)
  | host (e : Host.Event)
  /-- A ping, whose numbers are its own, or the goodbye of the connection. -/
  | notify (goodbye : Bool) (corr : Nat)
  | drain
  /-- The connection is lost, a probe is not answered, or shutdown has sent its goodbyes. -/
  | cancelGeneration
  | retireWriter
  /-- A shutdown that is out of time aborts every task. -/
  | abortAll

namespace State

/-- An event of the task of a request. -/
def ofRequest (s : State) (corr : Nat) (f : Request → State) : State :=
  match s.requests corr with
  | none => s
  | some r => f r

def step (s : State) : Event → State
  | .receive inbound permits => s.receive inbound permits
  | .register finished busy => s.register finished busy
  | .outer corr joined answer => s.ofRequest corr fun r => s.driveOuter corr r joined answer
  | .dropOuter corr => s.ofRequest corr fun r => s.dropOuter corr r
  | .send corr call => s.ofRequest corr fun r => s.send corr r call
  | .driveSend corr call cancelSeen answer =>
    s.ofRequest corr fun r => s.driveSend corr r call cancelSeen answer
  | .dropSend corr call => s.ofRequest corr fun r => s.dropSend corr r call
  | .reply corr choice answer =>
    match s.replies corr with
    | none => s
    | some r => s.driveReply corr r choice answer
  | .dropReply corr =>
    match s.replies corr with
    | none => s
    | some r =>
      -- the task that opens a route is never aborted
      if s.forced && r.kind != .control .routeOpen then s.setReply corr { r with stage := .finished }
      else s
  | .close k stopped =>
    match s.closes[k]? with
    | none => s
    | some c => s.driveClose k c stopped
  | .host e => s.hostStep e
  | .notify goodbye corr =>
    { s with queue := s.queue ++ [⟨if goodbye then .goodbye else .ping, control, corr⟩] }
  | .drain => { s with draining := true }
  | .cancelGeneration => s.cancelToken
  | .retireWriter => { s with retired := true }
  | .abortAll =>
    if s.draining then
      { s.mapRequests fun _ r => { r with aborted := r.aborted.or (some .shutdown) } with
        forced := true }
    else s

def fresh (maxRoutes gen : Nat) : State where
  host := World.fresh maxRoutes
  gen := gen

end State

def run (maxRoutes gen : Nat) (events : List Event) : State :=
  events.foldl State.step (State.fresh maxRoutes gen)

end Dispatch
end MagicContext.Host
