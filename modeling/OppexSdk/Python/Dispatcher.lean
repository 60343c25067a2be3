import OppexSdk.Lib.Lifecycle
import OppexSdk.Lib.Transition

/-! # The Python dispatcher

`_TrackedTask` and `AsyncDispatcher` of `python/src/oppex_sdk/_internal/dispatcher.py`. The atomic
steps are the operations that take a lock of their own: a look at an event, a queue operation, a
counter, a claim. The `k`-th call of `submit` brings task `k`; there is one call of `close`. -/
namespace OppexSdk.Python.Dispatcher
open OppexSdk.Lib.Lifecycle OppexSdk.Lib.Transition

structure Config where
  workerCount : Nat
  /-- `maxsize` of the queue; zero is no limit. -/
  queueCapacity : Nat

/-- Where `_TrackedTask.drop` is. -/
inductive DropPc
  | claim | decrement | count | record
  deriving DecidableEq

inductive SubmitPc
  | outside
  /-- `_stopping` was not set; before `increment_queued`. -/
  | registering
  | acquiring
  /-- It holds `_submit_lock`; before the first `_offer`. -/
  | offering
  | polling
  | dropping (oldest : Nat) (pc : DropPc)
  | rechecking
  | reoffering
  | droppingSelf (pc : DropPc)
  | releasing
  | returned
  | raised
  deriving DecidableEq

inductive WorkerPc
  /-- In `queue.get` with its timeout. -/
  | getting
  /-- `Empty` was raised; before the look at `_stopping`. -/
  | empty
  | claiming (task : Nat)
  | decrementing (task : Nat)
  | calling (task : Nat)
  | running (task : Nat)
  | exited
  deriving DecidableEq

inductive ClosePc
  | outside
  | stopping
  /-- Before `join` of the worker. -/
  | joining (worker : Nat)
  | signalling
  /-- In `_drain_pending`, before `_poll`. -/
  | draining
  | dropping (task : Nat) (pc : DropPc)
  | forcedJoining (worker : Nat)
  | returned
  deriving DecidableEq

structure AsyncDispatcher (cfg : Config) where
  queue : List Nat
  stopping : Bool
  closed : Bool
  shutdownSignal : Bool
  /-- Who holds `_submit_lock`. -/
  submitLock : Option Nat
  /-- `_started_or_dropped` of each task. -/
  claimed : Nat → Bool
  /-- The metrics `queued` and `dropped`. -/
  queued : Int
  dropped : Int
  submits : Nat → SubmitPc
  workers : Fin cfg.workerCount → WorkerPc
  close : ClosePc
  /-- Calls of `record_drop`. -/
  recorded : Nat
  /-- History: the tasks counted by `increment_queued`, those claimed by `run` and by `drop`, and
  those taken out of the count by `decrement_queued`. -/
  registered : List Nat
  runClaims : List Nat
  dropClaims : List Nat
  released : List Nat
  /-- History: the tasks whose delegate was called, and those counted as dropped. -/
  ran : List Nat
  dropLog : List Nat
  /-- History: the workers whose graceful and whose forced join ran out of time. -/
  joinExpired : Fin cfg.workerCount → Bool
  forcedExpired : Fin cfg.workerCount → Bool

namespace AsyncDispatcher
variable {cfg : Config}

def new (cfg : Config) : AsyncDispatcher cfg where
  queue := []
  stopping := false
  closed := false
  shutdownSignal := false
  submitLock := none
  claimed _ := false
  queued := 0
  dropped := 0
  submits _ := .outside
  workers _ := .getting
  close := .outside
  recorded := 0
  registered := []
  runClaims := []
  dropClaims := []
  released := []
  ran := []
  dropLog := []
  joinExpired _ := false
  forcedExpired _ := false

def setSubmit (s : AsyncDispatcher cfg) (k : Nat) (pc : SubmitPc) : AsyncDispatcher cfg :=
  { s with submits := Function.update s.submits k pc }

def setWorker (s : AsyncDispatcher cfg) (w : Fin cfg.workerCount) (pc : WorkerPc) :
    AsyncDispatcher cfg :=
  { s with workers := Function.update s.workers w pc }

def setClose (s : AsyncDispatcher cfg) (pc : ClosePc) : AsyncDispatcher cfg :=
  { s with close := pc }

/-- `put_nowait` raises `Full`. -/
def full (s : AsyncDispatcher cfg) : Bool :=
  decide (0 < cfg.queueCapacity ∧ cfg.queueCapacity ≤ s.queue.length)

/-- `_claim`, with its result. -/
def claim (s : AsyncDispatcher cfg) (task : Nat) : AsyncDispatcher cfg × Bool :=
  if s.claimed task then (s, false)
  else ({ s with claimed := Function.update s.claimed task true }, true)

/-- The claim of `_TrackedTask.run`. -/
def runClaim (s : AsyncDispatcher cfg) (task : Nat) : AsyncDispatcher cfg × Bool :=
  let (s, claimed) := s.claim task
  (if claimed then { s with runClaims := s.runClaims ++ [task] } else s, claimed)

/-- One step of `_TrackedTask.drop`, with where it is next. -/
def drop (s : AsyncDispatcher cfg) (task : Nat) : DropPc → AsyncDispatcher cfg × Option DropPc
  | .claim =>
    let (s, claimed) := s.claim task
    if claimed then ({ s with dropClaims := s.dropClaims ++ [task] }, some .decrement)
    else (s, none)
  | .decrement =>
    ({ s with queued := s.queued - 1, released := s.released ++ [task] }, some .count)
  | .count => ({ s with dropped := s.dropped + 1, dropLog := s.dropLog ++ [task] }, some .record)
  | .record => ({ s with recorded := s.recorded + 1 }, none)

end AsyncDispatcher

inductive Label (cfg : Config)
  /-- `submit` up to the look at `_stopping`. -/
  | submit (k : Nat) (isNone : Bool)
  | incrementQueued (k : Nat)
  | acquire (k : Nat)
  | offer (k : Nat)
  | poll (k : Nat)
  | submitDrop (k : Nat)
  | recheck (k : Nat)
  | reoffer (k : Nat)
  | release (k : Nat)
  /-- `queue.get` returns a task. -/
  | get (w : Fin cfg.workerCount)
  /-- `queue.get` times out. -/
  | timeout (w : Fin cfg.workerCount)
  | checkStopping (w : Fin cfg.workerCount)
  | claim (w : Fin cfg.workerCount)
  | decrement (w : Fin cfg.workerCount)
  | call (w : Fin cfg.workerCount)
  /-- The delegate is done; `fatal` when it raised what is not an `Exception`. -/
  | finish (w : Fin cfg.workerCount) (fatal : Bool)
  | close
  | setStopping
  /-- `join` returns: the worker has exited, or the time is up. -/
  | join (w : Fin cfg.workerCount) (expired : Bool)
  | joined
  | signal
  | drainPoll
  | closeDrop
  | forcedJoin (w : Fin cfg.workerCount) (expired : Bool)
  | forcedJoined

namespace AsyncDispatcher
variable {cfg : Config}

/-- `_offer` of the task of submit `k`, and where the submit is when the queue is full. -/
def offerOr (s : AsyncDispatcher cfg) (k : Nat) (pc : SubmitPc) : AsyncDispatcher cfg :=
  if s.full then s.setSubmit k pc
  else { s.setSubmit k .releasing with queue := s.queue ++ [k] }

def anyAlive (s : AsyncDispatcher cfg) : Prop := ∃ w, s.workers w ≠ .exited

instance (s : AsyncDispatcher cfg) : Decidable s.anyAlive := inferInstanceAs (Decidable (∃ _, _))

def step (s : AsyncDispatcher cfg) : Label cfg → Option (AsyncDispatcher cfg)
  | .submit k isNone =>
    match s.submits k with
    | .outside => some (s.setSubmit k (if isNone || s.stopping then .raised else .registering))
    | _ => none
  | .incrementQueued k =>
    match s.submits k with
    | .registering =>
      some { s.setSubmit k .acquiring with
        queued := s.queued + 1, registered := s.registered ++ [k] }
    | _ => none
  | .acquire k =>
    match s.submits k, s.submitLock with
    | .acquiring, none => some { s.setSubmit k .offering with submitLock := some k }
    | _, _ => none
  | .offer k =>
    match s.submits k with
    | .offering => some (s.offerOr k .polling)
    | _ => none
  | .poll k =>
    match s.submits k, s.queue with
    | .polling, [] => some (s.setSubmit k .rechecking)
    | .polling, oldest :: rest =>
      some { s.setSubmit k (.dropping oldest .claim) with queue := rest }
    | _, _ => none
  | .submitDrop k =>
    match s.submits k with
    | .dropping oldest pc =>
      let (s, next) := s.drop oldest pc
      some (s.setSubmit k (next.elim .rechecking (.dropping oldest)))
    | .droppingSelf pc =>
      let (s, next) := s.drop k pc
      some (s.setSubmit k (next.elim .releasing .droppingSelf))
    | _ => none
  | .recheck k =>
    match s.submits k with
    | .rechecking =>
      some (s.setSubmit k (if s.stopping then .droppingSelf .claim else .reoffering))
    | _ => none
  | .reoffer k =>
    match s.submits k with
    | .reoffering => some (s.offerOr k (.droppingSelf .claim))
    | _ => none
  | .release k =>
    match s.submits k with
    | .releasing => some { s.setSubmit k .returned with submitLock := none }
    | _ => none
  | .get w =>
    match s.workers w, s.queue with
    | .getting, task :: rest => some { s.setWorker w (.claiming task) with queue := rest }
    | _, _ => none
  | .timeout w =>
    match s.workers w, s.queue with
    | .getting, [] => some (s.setWorker w .empty)
    | _, _ => none
  | .checkStopping w =>
    match s.workers w with
    | .empty => some (s.setWorker w (if s.stopping then .exited else .getting))
    | _ => none
  | .claim w =>
    match s.workers w with
    | .claiming task =>
      let (s, claimed) := s.runClaim task
      some (s.setWorker w (if claimed then .decrementing task else .getting))
    | _ => none
  | .decrement w =>
    match s.workers w with
    | .decrementing task =>
      some { s.setWorker w (.calling task) with
        queued := s.queued - 1, released := s.released ++ [task] }
    | _ => none
  | .call w =>
    match s.workers w with
    | .calling task => some { s.setWorker w (.running task) with ran := s.ran ++ [task] }
    | _ => none
  | .finish w fatal =>
    match s.workers w with
    | .running _ => some (s.setWorker w (if fatal then .exited else .getting))
    | _ => none
  | .close =>
    match s.close with
    | .outside => some { s.setClose .stopping with closed := true }
    | _ => none
  | .setStopping =>
    match s.close with
    | .stopping => some { s.setClose (.joining 0) with stopping := true }
    | _ => none
  | .join w expired =>
    match s.close with
    | .joining i =>
      if i = w ∧ (s.workers w = .exited ∨ expired) then
        some { s.setClose (.joining (i + 1)) with
          joinExpired := Function.update s.joinExpired w expired }
      else none
    | _ => none
  | .joined =>
    match s.close with
    | .joining i =>
      if i = cfg.workerCount then
        some (s.setClose (if s.anyAlive then .signalling else .draining))
      else none
    | _ => none
  | .signal =>
    match s.close with
    | .signalling => some { s.setClose .draining with shutdownSignal := true }
    | _ => none
  | .drainPoll =>
    match s.close, s.queue with
    | .draining, [] => some (s.setClose (.forcedJoining 0))
    | .draining, task :: rest => some { s.setClose (.dropping task .claim) with queue := rest }
    | _, _ => none
  | .closeDrop =>
    match s.close with
    | .dropping task pc =>
      let (s, next) := s.drop task pc
      some (s.setClose (next.elim .draining (.dropping task)))
    | _ => none
  | .forcedJoin w expired =>
    match s.close with
    | .forcedJoining i =>
      if i = w ∧ (s.workers w = .exited ∨ expired) then
        some { s.setClose (.forcedJoining (i + 1)) with
          forcedExpired := Function.update s.forcedExpired w expired }
      else none
    | _ => none
  | .forcedJoined =>
    match s.close with
    | .forcedJoining i => if i = cfg.workerCount then some (s.setClose .returned) else none
    | _ => none

end AsyncDispatcher

end OppexSdk.Python.Dispatcher
