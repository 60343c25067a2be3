import OppexSdk.Lib.Lifecycle
import OppexSdk.Lib.ThreadPool
import OppexSdk.Lib.Transition

/-! # The Java dispatcher

`AsyncDispatcher`, `DropOldestRejectedExecutionHandler` and `TrackedTask` of
`java/sdk-http/src/main/java/dev/oppex/sdk/internal/async`, over a `ThreadPoolExecutor`. The atomic
steps are the calls on the pool and its queue, on an atomic variable and on a counter. The `k`-th
call of `submit` brings task `k`; there is one call of `close`. -/
namespace OppexSdk.Java
open OppexSdk.Lib OppexSdk.Lib.Transition

structure Config where
  workerCount : Nat
  queueCapacity : Nat
  /-- A `ThreadPoolExecutor` has at least one thread, an `ArrayBlockingQueue` room for one task. -/
  workerCount_pos : 0 < workerCount
  queueCapacity_pos : 0 < queueCapacity

/-- Where `TrackedTask.run` is. -/
inductive RunPc
  | claiming (task : Nat)
  | decrementing (task : Nat)
  | calling (task : Nat)
  | running (task : Nat)
  deriving DecidableEq

/-- Where `TrackedTask.drop` is. -/
inductive DropPc
  | claim | decrement | count | record
  deriving DecidableEq

inductive SubmitPc
  | outside
  /-- `closed` was not set; before `incrementQueued`. -/
  | registering
  | executing
  /-- In `rejectedExecution`, before the first `isShutdown`. -/
  | rejected
  | polling
  | dropping (oldest : Nat) (pc : DropPc)
  /-- Before the second `isShutdown`. -/
  | rechecking
  | offering
  | droppingSelf (pc : DropPc)
  | returned
  | raised
  deriving DecidableEq

inductive ClosePc
  | outside
  | shuttingDown
  | awaiting
  | stopping
  /-- In `dropPending`, with the tasks to come. -/
  | pending (tasks : List Nat)
  | dropping (task : Nat) (pc : DropPc) (tasks : List Nat)
  | returned
  deriving DecidableEq

structure AsyncDispatcher (cfg : Config) where
  closed : Bool
  executor : ThreadPool cfg.workerCount Nat RunPc
  /-- `startedOrDropped` of each task. -/
  startedOrDropped : Nat → Bool
  /-- The metrics `queued` and `dropped`. -/
  queued : Int
  dropped : Int
  /-- Calls of `recordDrop`. -/
  recorded : Nat
  submits : Nat → SubmitPc
  close : ClosePc
  /-- History: the tasks counted by `incrementQueued`, those that were claimed, and those taken
  out of the count by `decrementQueued`. -/
  registered : List Nat
  claims : List Nat
  released : List Nat
  /-- History: the tasks whose delegate was called, and those counted as dropped. -/
  ran : List Nat
  dropLog : List Nat

inductive Label (cfg : Config)
  /-- `submit` up to the look at `closed`. -/
  | submit (k : Nat) (isNull : Bool)
  | incrementQueued (k : Nat)
  | execute (k : Nat)
  | isShutdown (k : Nat)
  | poll (k : Nat)
  | submitDrop (k : Nat)
  | recheck (k : Nat)
  | offer (k : Nat)
  /-- The worker takes a task from the queue. -/
  | take (w : Fin cfg.workerCount)
  | exit (w : Fin cfg.workerCount)
  | claim (w : Fin cfg.workerCount)
  | decrement (w : Fin cfg.workerCount)
  | call (w : Fin cfg.workerCount)
  /-- The delegate is done. -/
  | finish (w : Fin cfg.workerCount) (threw : Bool)
  | close
  | shutdown
  /-- `awaitTermination` returns or throws; `expired` when it does so before the pool is
  terminated. -/
  | awaitTermination (expired : Bool)
  | shutdownNow
  /-- `dropPending` goes to the next task. -/
  | nextPending
  | closeDrop

namespace AsyncDispatcher
variable {cfg : Config}

def new (cfg : Config) : AsyncDispatcher cfg where
  closed := false
  executor := .new cfg.workerCount cfg.queueCapacity
  startedOrDropped _ := false
  queued := 0
  dropped := 0
  recorded := 0
  submits _ := .outside
  close := .outside
  registered := []
  claims := []
  released := []
  ran := []
  dropLog := []

def setSubmit (s : AsyncDispatcher cfg) (k : Nat) (pc : SubmitPc) : AsyncDispatcher cfg :=
  { s with submits := Function.update s.submits k pc }

def setExecutor (s : AsyncDispatcher cfg) (p : ThreadPool cfg.workerCount Nat RunPc) :
    AsyncDispatcher cfg :=
  { s with executor := p }

/-- The worker goes on with its task. -/
def setRun (s : AsyncDispatcher cfg) (w : Fin cfg.workerCount) (pc : RunPc) : AsyncDispatcher cfg :=
  s.setExecutor (s.executor.setWorker w (.executing pc))

def setClose (s : AsyncDispatcher cfg) (pc : ClosePc) : AsyncDispatcher cfg :=
  { s with close := pc }

/-- `startedOrDropped.compareAndSet(false, true)`, with its result. -/
def claim (s : AsyncDispatcher cfg) (task : Nat) : AsyncDispatcher cfg × Bool :=
  if s.startedOrDropped task then (s, false)
  else ({ s with
    startedOrDropped := Function.update s.startedOrDropped task true
    claims := s.claims ++ [task] }, true)

/-- `decrementQueued` for the task. -/
def decrementQueued (s : AsyncDispatcher cfg) (task : Nat) : AsyncDispatcher cfg :=
  { s with queued := s.queued - 1, released := s.released ++ [task] }

/-- One step of `TrackedTask.drop`, with where it is next. -/
def drop (s : AsyncDispatcher cfg) (task : Nat) : DropPc → AsyncDispatcher cfg × Option DropPc
  | .claim =>
    let (s, claimed) := s.claim task
    (s, if claimed then some .decrement else none)
  | .decrement => (s.decrementQueued task, some .count)
  | .count => ({ s with dropped := s.dropped + 1, dropLog := s.dropLog ++ [task] }, some .record)
  | .record => ({ s with recorded := s.recorded + 1 }, none)

def step (s : AsyncDispatcher cfg) : Label cfg → Option (AsyncDispatcher cfg)
  | .submit k isNull =>
    match s.submits k with
    | .outside => some (s.setSubmit k (if isNull || s.closed then .raised else .registering))
    | _ => none
  | .incrementQueued k =>
    match s.submits k with
    | .registering =>
      some { s.setSubmit k .executing with
        queued := s.queued + 1, registered := s.registered ++ [k] }
    | _ => none
  | .execute k =>
    match s.submits k with
    | .executing =>
      match s.executor.execute k (.claiming k) with
      | some p => some ((s.setExecutor p).setSubmit k .returned)
      | none => some (s.setSubmit k .rejected)
    | _ => none
  | .isShutdown k =>
    match s.submits k with
    | .rejected =>
      some (s.setSubmit k (if s.executor.isShutdown then .droppingSelf .claim else .polling))
    | _ => none
  | .poll k =>
    match s.submits k, s.executor.queue with
    | .polling, [] => some (s.setSubmit k .rechecking)
    | .polling, oldest :: rest =>
      some ((s.setExecutor { s.executor with queue := rest }).setSubmit k (.dropping oldest .claim))
    | _, _ => none
  | .submitDrop k =>
    match s.submits k with
    | .dropping oldest pc =>
      let (s, next) := s.drop oldest pc
      some (s.setSubmit k (next.elim .rechecking (.dropping oldest)))
    | .droppingSelf pc =>
      let (s, next) := s.drop k pc
      some (s.setSubmit k (next.elim .returned .droppingSelf))
    | _ => none
  | .recheck k =>
    match s.submits k with
    | .rechecking =>
      some (s.setSubmit k (if s.executor.isShutdown then .droppingSelf .claim else .offering))
    | _ => none
  | .offer k =>
    match s.submits k with
    | .offering =>
      match s.executor.offer k with
      | some p => some ((s.setExecutor p).setSubmit k .returned)
      | none => some (s.setSubmit k (.droppingSelf .claim))
    | _ => none
  | .take w => (s.executor.take w .claiming).map s.setExecutor
  | .exit w => (s.executor.exit w).map s.setExecutor
  | .claim w =>
    match s.executor.workers w with
    | .executing (.claiming task) =>
      let (s, claimed) := s.claim task
      some (if claimed then s.setRun w (.decrementing task)
        else s.setExecutor (s.executor.finish w false))
    | _ => none
  | .decrement w =>
    match s.executor.workers w with
    | .executing (.decrementing task) => some ((s.decrementQueued task).setRun w (.calling task))
    | _ => none
  | .call w =>
    match s.executor.workers w with
    | .executing (.calling task) =>
      some { s.setRun w (.running task) with ran := s.ran ++ [task] }
    | _ => none
  | .finish w threw =>
    match s.executor.workers w with
    | .executing (.running _) => some (s.setExecutor (s.executor.finish w threw))
    | _ => none
  | .close =>
    match s.close with
    | .outside => some { s.setClose .shuttingDown with closed := true }
    | _ => none
  | .shutdown =>
    match s.close with
    | .shuttingDown => some ((s.setExecutor s.executor.shutdown).setClose .awaiting)
    | _ => none
  | .awaitTermination expired =>
    match s.close with
    | .awaiting =>
      if expired then some (s.setClose .stopping)
      else if s.executor.isTerminated then some (s.setClose .returned)
      else none
    | _ => none
  | .shutdownNow =>
    match s.close with
    | .stopping =>
      some ((s.setExecutor s.executor.shutdownNow).setClose (.pending s.executor.queue))
    | _ => none
  | .nextPending =>
    match s.close with
    | .pending [] => some (s.setClose .returned)
    | .pending (task :: rest) => some (s.setClose (.dropping task .claim rest))
    | _ => none
  | .closeDrop =>
    match s.close with
    | .dropping task pc rest =>
      let (s, next) := s.drop task pc
      some (s.setClose (next.elim (.pending rest) (.dropping task · rest)))
    | _ => none

end AsyncDispatcher

end OppexSdk.Java
