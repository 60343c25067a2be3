import OppexSdk.Lib.SlotQueue
import OppexSdk.Lib.Transition
import OppexSdk.Node.IncidentClient

/-! # The Node dispatcher over a whole run

`internal/async/AsyncDispatcher.ts` in the event loop. One thread runs everything, but it runs
code of the host in the middle of two operations: `run` calls the task, which executes up to its
first `await`, and `dropOldest` may call the logger. Both may call `submit` and `close` before
they return. The stack says whose code is running; the callbacks and timers of the loop wait until
it is empty.

A task is named by the `submit` call it is an argument of. -/
namespace OppexSdk.Node
open OppexSdk.Lib OppexSdk.Lib.Transition

namespace AsyncDispatcher
variable {τ : Type} (d : AsyncDispatcher τ)

/-- `queue.slice(queueHead)`, as tasks. -/
def contents : List τ := SlotQueue.live d.queue d.queueHead

def dequeue : Option τ × AsyncDispatcher τ :=
  if d.queue.length ≤ d.queueHead then (none, d)
  else
    let task := d.queue[d.queueHead]?.join
    let queue := clearSlot d.queue d.queueHead
    let queueHead := d.queueHead + 1
    if queue.length ≤ queueHead then (task, { d with queue := [], queueHead := 0 })
    else if d.capacity < queueHead then
      (task, { d with queue := queue.drop queueHead, queueHead := 0 })
    else (task, { d with queue := queue, queueHead := queueHead })

/-- `dropLogger.recordDrop()` without the line it may log. -/
def recordDrop (now : Nat) : AsyncDispatcher τ :=
  if d.logDue now then
    { d with dropLogger := { d.dropLogger with droppedInInterval := 0, intervalStartedAt := now } }
  else
    { d with dropLogger := { d.dropLogger with
        droppedInInterval := d.dropLogger.droppedInInterval + 1 } }

def dropOldest (now : Nat) : AsyncDispatcher τ :=
  recordDrop { d with
    queue := clearSlot d.queue d.queueHead
    queueHead := d.queueHead + 1 } now

/-- `queue.push(task)` -/
def push (task : τ) : AsyncDispatcher τ := { d with queue := d.queue ++ [some task] }

/-- `this.active--` -/
def release : AsyncDispatcher τ := { d with active := d.active - 1 }

/-- `this.active === 0 && this.queueLength === 0` -/
def idle : Bool := d.active == 0 && d.queueLength == 0

end AsyncDispatcher

abbrev TaskId := Nat

/-- The arguments of the constructor; `maxConcurrency` and `capacity` are at least one. -/
structure DispatcherConfig where
  maxConcurrency : Nat
  capacity : Nat
  maxConcurrency_pos : 0 < maxConcurrency
  capacity_pos : 0 < capacity
  dropLogger : RateLimitedDropLogger

/-- One slot and room for one task, with the interval of `DROP_LOG_INTERVAL_MS`. -/
def DispatcherConfig.smallest : DispatcherConfig where
  maxConcurrency := 1
  capacity := 1
  maxConcurrency_pos := Nat.one_pos
  capacity_pos := Nat.one_pos
  dropLogger := ⟨60000, 0, 0⟩

/-- Code of the host that is running. -/
inductive Frame
  /-- The task, before its first `await`. -/
  | task (k : TaskId)
  /-- The logger, called for an eviction; `submit` of this task will push when it returns. -/
  | logger (k : TaskId)
  deriving DecidableEq

def Frame.pending : Frame → Option TaskId
  | .task _ => none
  | .logger k => some k

inductive ClosePc
  | outside
  /-- At the `await`; whether the promise of `waitUntilIdle` is resolved. -/
  | waiting (notified : Bool)
  /-- `finish` was called; the rest of `close` is still to come. -/
  | resolved
  | returned
  deriving DecidableEq

/-- The dispatcher, the stack, the close calls, and the history: what was submitted, refused
(because the dispatcher was closed or the logger threw), started at once, pushed, taken from the
queue, evicted and force-dropped, each list in the order of the events. Among the started tasks,
those whose promise has settled and those whose completion callback has run. -/
structure EventLoop where
  dispatcher : AsyncDispatcher TaskId
  stack : List Frame
  idleWaiters : List Nat
  closes : Nat → ClosePc
  submitted : List TaskId
  refused : List TaskId
  direct : List TaskId
  pushed : List TaskId
  dequeued : List TaskId
  evicted : List TaskId
  forceDropped : List TaskId
  started : List TaskId
  settled : List TaskId
  completed : List TaskId

namespace EventLoop

def new (cfg : DispatcherConfig) : EventLoop where
  dispatcher :=
    { maxConcurrency := cfg.maxConcurrency
      capacity := cfg.capacity
      active := 0
      closed := false
      queue := []
      queueHead := 0
      dropLogger := cfg.dropLogger }
  stack := []
  idleWaiters := []
  closes := fun _ => .outside
  submitted := []
  refused := []
  direct := []
  pushed := []
  dequeued := []
  evicted := []
  forceDropped := []
  started := []
  settled := []
  completed := []

variable (s : EventLoop)

/-- `run` up to the call of the task. -/
def run (k : TaskId) : EventLoop :=
  { s with
    dispatcher := { s.dispatcher with active := s.dispatcher.active + 1 }
    stack := .task k :: s.stack
    started := s.started ++ [k] }

def push (k : TaskId) : EventLoop :=
  { s with
    dispatcher := s.dispatcher.push k
    pushed := s.pushed ++ [k] }

/-- `dropOldest` up to the call of the logger. -/
def dropOldest (now : Nat) : EventLoop :=
  { s with
    dispatcher := s.dispatcher.dropOldest now
    evicted := s.evicted ++ s.dispatcher.queue[s.dispatcher.queueHead]?.join.toList }

/-- `submit`, up to the code of the host it calls. -/
def submit (k : TaskId) (now : Nat) : Option EventLoop :=
  if k ∈ s.submitted then none
  else
    let s := { s with submitted := s.submitted ++ [k] }
    let d := s.dispatcher
    if d.closed then some { s with refused := s.refused ++ [k] }
    else if d.active < d.maxConcurrency then some { s.run k with direct := s.direct ++ [k] }
    else if (d.capacity : Int) ≤ d.queueLength then
      if d.logDue now then some { s.dropOldest now with stack := .logger k :: s.stack }
      else some ((s.dropOldest now).push k)
    else some (s.push k)

/-- The code of the host returns. -/
def hostReturn : Option EventLoop :=
  match s.stack with
  | .task _ :: stack => some { s with stack := stack }
  | .logger k :: stack => some (push { s with stack := stack } k)
  | [] => none

/-- The logger throws through `submit`: reading `warn` off it may. -/
def hostThrow : Option EventLoop :=
  match s.stack with
  | .logger k :: stack => some { s with stack := stack, refused := s.refused ++ [k] }
  | _ => none

/-- The promise of a task is fulfilled or rejected. -/
def settle (k : TaskId) : Option EventLoop :=
  if k ∈ s.started ∧ k ∉ s.settled then some { s with settled := s.settled ++ [k] } else none

/-- `waiters.forEach((resolve) => resolve())` -/
def resolveWaiters : EventLoop :=
  { s with
    idleWaiters := []
    closes := fun c =>
      if c ∈ s.idleWaiters then
        match s.closes c with
        | .waiting _ => .waiting true
        | pc => pc
      else s.closes c }

/-- The completion callback of a settled task. -/
def callback (k : TaskId) : Option EventLoop :=
  if s.stack = [] ∧ k ∈ s.settled ∧ k ∉ s.completed then
    match s.dispatcher.release.dequeue with
    | (some task, d) =>
      let s := { s with dispatcher := d, completed := s.completed ++ [k] }
      some { s.run task with dequeued := s.dequeued ++ [task] }
    | (none, d) =>
      let s := { s with dispatcher := d, completed := s.completed ++ [k] }
      if d.idle then some s.resolveWaiters else some s
  else none

/-- `close` up to its `await`, with `waitUntilIdle`. -/
def close (c : Nat) : Option EventLoop :=
  match s.closes c with
  | .outside =>
    if s.dispatcher.closed then some { s with closes := Function.update s.closes c .returned }
    else
      let s := { s with dispatcher := { s.dispatcher with closed := true } }
      if s.dispatcher.idle then
        some { s with closes := Function.update s.closes c (.waiting true) }
      else
        some { s with
          closes := Function.update s.closes c (.waiting false)
          idleWaiters := s.idleWaiters ++ [c] }
  | _ => none

/-- `finish`, called for idleness. -/
def finish (c : Nat) : Option EventLoop :=
  if s.stack = [] ∧ s.closes c = .waiting true then
    some { s with closes := Function.update s.closes c .resolved }
  else none

/-- `finish`, called by the timer. -/
def timeout (c : Nat) : Option EventLoop :=
  match s.closes c with
  | .waiting _ =>
    if s.stack = [] then some { s with closes := Function.update s.closes c .resolved } else none
  | _ => none

/-- The rest of `close`: what is still queued is dropped. -/
def forceDrop (c : Nat) : Option EventLoop :=
  if s.stack = [] ∧ s.closes c = .resolved then
    let s' := { s with closes := Function.update s.closes c .returned }
    if 0 < s.dispatcher.queueLength then
      some { s' with
        dispatcher := { s.dispatcher with queue := [], queueHead := 0 }
        forceDropped := s.forceDropped ++ s.dispatcher.contents }
    else some s'
  else none

end EventLoop

inductive LoopLabel
  | submit (k : TaskId) (now : Nat)
  | hostReturn
  | hostThrow
  | settle (k : TaskId)
  | callback (k : TaskId)
  | close (c : Nat)
  | finish (c : Nat)
  | timeout (c : Nat)
  | forceDrop (c : Nat)
  deriving DecidableEq

def EventLoop.step (s : EventLoop) : LoopLabel → Option EventLoop
  | .submit k now => s.submit k now
  | .hostReturn => s.hostReturn
  | .hostThrow => s.hostThrow
  | .settle k => s.settle k
  | .callback k => s.callback k
  | .close c => s.close c
  | .finish c => s.finish c
  | .timeout c => s.timeout c
  | .forceDrop c => s.forceDrop c

end OppexSdk.Node
