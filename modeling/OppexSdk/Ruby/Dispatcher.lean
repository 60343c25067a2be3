import OppexSdk.Lib.Condvar
import OppexSdk.Lib.Transition

/-! # The Ruby dispatcher

`AsyncDispatcher` of `ruby/lib/oppex_sdk/internal/async_dispatcher.rb`, with its mutex: a thread
acquires it, does the statements of its critical section one by one, and releases it or waits on
`@changed`. Tasks return normally. Any number of threads submit and close. -/
namespace OppexSdk.Ruby.Dispatcher
open OppexSdk.Lib OppexSdk.Lib.Transition

/-- A `submit` call, and the task it was given. -/
abbrev TaskId := Nat

structure Config where
  workerCount : Nat
  capacity : Nat
  workerCount_pos : 0 < workerCount

inductive Thread (n : Nat)
  | submit (k : TaskId)
  | worker (w : Fin n)
  | close (c : Nat)
  deriving DecidableEq

/-- `RateLimitedDropLogger`, without its clock. -/
structure RateLimitedDropLogger where
  dropped : Nat

def RateLimitedDropLogger.recordDrop (logger : RateLimitedDropLogger) (elapsed : Bool) :
    Option Nat × RateLimitedDropLogger :=
  if elapsed then (some (logger.dropped + 1), ⟨0⟩) else (none, ⟨logger.dropped + 1⟩)

inductive Warning
  | dropped (count : Nat)
  | forceDropped (count : Nat)
  deriving DecidableEq

inductive SubmitPc
  | outside
  | checking
  | pushing (dropped : Option Nat)
  /-- The task is pushed, the broadcast still to come. -/
  | broadcasting (dropped : Option Nat)
  | releasing (accepted : Bool) (dropped : Option Nat)
  /-- Out of the critical section. -/
  | reporting (accepted : Bool) (dropped : Option Nat)
  | returned (accepted : Bool)
  deriving DecidableEq

inductive WorkerPc
  /-- At the head of the loop. -/
  | starting
  /-- At the test of `while @tasks.empty?`. -/
  | checking
  /-- In `@changed.wait`. -/
  | waiting
  /-- It has shifted the task. -/
  | starts (task : TaskId)
  | running (task : TaskId)
  /-- In `ensure`, before the mutex. -/
  | finishing
  | decrementing
  | broadcasting
  | releasing
  | exiting
  | exited
  deriving DecidableEq

inductive ClosePc
  | outside
  | marking
  | marked (wasAccepting : Bool)
  /-- Before `drain_until`. -/
  | entering
  /-- At the test of the `until` loop. -/
  | checking
  /-- In `@changed.wait` with the remaining time. -/
  | waiting
  | stopping
  /-- `@draining` is false, the broadcast still to come. -/
  | broadcasting
  | clearing
  | releasing (abandoned : Nat)
  /-- Before the joins and the warning. -/
  | joining (abandoned : Nat)
  | returned
  deriving DecidableEq

/-- The program counters at which a thread has the mutex. -/
def SubmitPc.inside : SubmitPc → Bool
  | outside | reporting .. | returned _ => false
  | checking | pushing _ | broadcasting _ | releasing .. => true

def WorkerPc.inside : WorkerPc → Bool
  | starting | waiting | running _ | finishing | exited => false
  | checking | starts _ | decrementing | broadcasting | releasing | exiting => true

def ClosePc.inside : ClosePc → Bool
  | outside | entering | waiting | joining _ | returned => false
  | marking | marked _ | checking | stopping | broadcasting | clearing | releasing _ => true

structure AsyncDispatcher (cfg : Config) where
  /-- Who has `@mutex`. -/
  mutex : Option (Thread cfg.workerCount)
  changed : Condvar (Thread cfg.workerCount)
  tasks : List TaskId
  accepting : Bool
  draining : Bool
  active : Nat
  dropLogger : RateLimitedDropLogger
  log : List Warning
  submits : TaskId → SubmitPc
  workers : Fin cfg.workerCount → WorkerPc
  closes : Nat → ClosePc

inductive Label (cfg : Config)
  | acquire (t : Thread cfg.workerCount)
  | release (t : Thread cfg.workerCount)
  /-- A thread leaves `@changed.wait` by itself, for a timeout or for nothing. -/
  | wake (t : Thread cfg.workerCount)
  | submitCheck (k : TaskId) (elapsed : Bool)
  | push (k : TaskId)
  | submitBroadcast (k : TaskId)
  | report (k : TaskId)
  | workerCheck (w : Fin cfg.workerCount)
  /-- The task returns. -/
  | finish (w : Fin cfg.workerCount)
  | decrement (w : Fin cfg.workerCount)
  | workerBroadcast (w : Fin cfg.workerCount)
  | mark (c : Nat)
  | closeCheck (c : Nat) (expired : Bool)
  | stop (c : Nat)
  | closeBroadcast (c : Nat)
  | clear (c : Nat)
  | join (c : Nat)

namespace AsyncDispatcher
variable {cfg : Config}

def new (cfg : Config) : AsyncDispatcher cfg where
  mutex := none
  changed := .new
  tasks := []
  accepting := true
  draining := true
  active := 0
  dropLogger := ⟨0⟩
  log := []
  submits _ := .outside
  workers _ := .starting
  closes _ := .outside

def setSubmit (s : AsyncDispatcher cfg) (k : TaskId) (pc : SubmitPc) : AsyncDispatcher cfg :=
  { s with submits := Function.update s.submits k pc }

def setWorker (s : AsyncDispatcher cfg) (w : Fin cfg.workerCount) (pc : WorkerPc) :
    AsyncDispatcher cfg :=
  { s with workers := Function.update s.workers w pc }

def setClose (s : AsyncDispatcher cfg) (c : Nat) (pc : ClosePc) : AsyncDispatcher cfg :=
  { s with closes := Function.update s.closes c pc }

/-- The thread is ready for the mutex, and where it goes with it. A thread in `@changed.wait` comes
back to the mutex when it is no longer parked. -/
def acquired (s : AsyncDispatcher cfg) : Thread cfg.workerCount → Option (AsyncDispatcher cfg)
  | .submit k =>
    match s.submits k with
    | .outside => some (s.setSubmit k .checking)
    | _ => none
  | .worker w =>
    match s.workers w with
    | .starting => some (s.setWorker w .checking)
    | .waiting => if s.changed.Parked (.worker w) then none else some (s.setWorker w .checking)
    | .finishing => some (s.setWorker w .decrementing)
    | _ => none
  | .close c =>
    match s.closes c with
    | .outside => some (s.setClose c .marking)
    | .entering => some (s.setClose c .checking)
    | .waiting => if s.changed.Parked (.close c) then none else some (s.setClose c .checking)
    | _ => none

/-- The thread is at the end of its critical section, and where it goes from there. -/
def released (s : AsyncDispatcher cfg) : Thread cfg.workerCount → Option (AsyncDispatcher cfg)
  | .submit k =>
    match s.submits k with
    | .releasing accepted dropped => some (s.setSubmit k (.reporting accepted dropped))
    | _ => none
  | .worker w =>
    match s.workers w with
    | .starts task => some (s.setWorker w (.running task))
    | .releasing => some (s.setWorker w .starting)
    | .exiting => some (s.setWorker w .exited)
    | _ => none
  | .close c =>
    match s.closes c with
    | .marked wasAccepting => some (s.setClose c (if wasAccepting then .entering else .returned))
    | .releasing abandoned => some (s.setClose c (.joining abandoned))
    | _ => none

def step (s : AsyncDispatcher cfg) : Label cfg → Option (AsyncDispatcher cfg)
  | .acquire t =>
    match s.mutex with
    | none => (s.acquired t).map fun s => { s with mutex := some t }
    | some _ => none
  | .release t => (s.released t).map fun s => { s with mutex := none }
  | .wake t =>
    if s.changed.Parked t then some { s with changed := s.changed.wake t } else none
  | .submitCheck k elapsed =>
    match s.submits k with
    | .checking =>
      if !s.accepting then some (s.setSubmit k (.releasing false none))
      else if s.tasks.length ≥ cfg.capacity then
        let (dropped, dropLogger) := s.dropLogger.recordDrop elapsed
        some { s.setSubmit k (.pushing dropped) with
          tasks := s.tasks.tail, dropLogger := dropLogger }
      else some (s.setSubmit k (.pushing none))
    | _ => none
  | .push k =>
    match s.submits k with
    | .pushing dropped =>
      some { s.setSubmit k (.broadcasting dropped) with tasks := s.tasks ++ [k] }
    | _ => none
  | .submitBroadcast k =>
    match s.submits k with
    | .broadcasting dropped =>
      some { s.setSubmit k (.releasing true dropped) with changed := s.changed.notifyAll }
    | _ => none
  | .report k =>
    match s.submits k with
    | .reporting accepted dropped =>
      some { s.setSubmit k (.returned accepted) with
        log := s.log ++ (dropped.map Warning.dropped).toList }
    | _ => none
  | .workerCheck w =>
    match s.workers w with
    | .checking =>
      match s.tasks with
      | [] =>
        if s.draining then
          -- the wait gives the mutex back
          some { s.setWorker w .waiting with
            changed := s.changed.wait (.worker w), mutex := none }
        else some (s.setWorker w .exiting)
      | task :: rest =>
        some { s.setWorker w (.starts task) with active := s.active + 1, tasks := rest }
    | _ => none
  | .finish w =>
    match s.workers w with
    | .running _ => some (s.setWorker w .finishing)
    | _ => none
  | .decrement w =>
    match s.workers w with
    | .decrementing => some { s.setWorker w .broadcasting with active := s.active - 1 }
    | _ => none
  | .workerBroadcast w =>
    match s.workers w with
    | .broadcasting =>
      some { s.setWorker w .releasing with changed := s.changed.notifyAll }
    | _ => none
  | .mark c =>
    match s.closes c with
    | .marking => some { s.setClose c (.marked s.accepting) with accepting := false }
    | _ => none
  | .closeCheck c expired =>
    match s.closes c with
    | .checking =>
      if s.tasks = [] ∧ s.active = 0 ∨ expired then some (s.setClose c .stopping)
      else
        some { s.setClose c .waiting with
          changed := s.changed.wait (.close c), mutex := none }
    | _ => none
  | .stop c =>
    match s.closes c with
    | .stopping => some { s.setClose c .broadcasting with draining := false }
    | _ => none
  | .closeBroadcast c =>
    match s.closes c with
    | .broadcasting =>
      some { s.setClose c .clearing with changed := s.changed.notifyAll }
    | _ => none
  | .clear c =>
    match s.closes c with
    | .clearing => some { s.setClose c (.releasing s.tasks.length) with tasks := [] }
    | _ => none
  | .join c =>
    match s.closes c with
    | .joining abandoned =>
      some { s.setClose c .returned with
        log := s.log ++ if 0 < abandoned then [Warning.forceDropped abandoned] else [] }
    | _ => none

end AsyncDispatcher

end OppexSdk.Ruby.Dispatcher
