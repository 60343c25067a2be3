import OppexSdk.Lib.Condvar
import OppexSdk.Lib.Transition

/-! # The C++ `AsyncDispatcher`

The monitor of `cpp/src/async_dispatcher.cpp`. It has the Rust dispatcher's shape, with one
difference in its locking: `Close` clears `accepting_` and makes the first check of its wait
predicate under one hold of the mutex. -/
namespace OppexSdk.Cpp.AsyncDispatcher
open OppexSdk.Lib OppexSdk.Lib.Transition

/-- A `Submit` call, and the task it was given. -/
abbrev TaskId := Nat

structure Config where
  workerCount : Nat
  capacity : Nat
  /-- Whether the host installed a `LogSink`. -/
  logSink : Bool
  workerCount_pos : 0 < workerCount
  capacity_pos : 0 < capacity

inductive Thread (n : Nat)
  | worker (w : Fin n)
  | closer (c : Nat)
  deriving DecidableEq

/-- `RateLimitedDropLogger`, without its clock. -/
structure RateLimitedDropLogger where
  dropped : Nat

def RateLimitedDropLogger.recordDrop (logger : RateLimitedDropLogger) (elapsed : Bool) :
    Option Nat × RateLimitedDropLogger :=
  if elapsed then (some (logger.dropped + 1), ⟨0⟩) else (none, ⟨logger.dropped + 1⟩)

inductive Warning
  | dropped (count : Nat)
  | forceDropped (count : Nat)

inductive SubmitPc
  | outside
  /-- Pushed, `notify_one` still to come. -/
  | notifying (dropped : Option Nat)
  | returned (accepted : Bool)
  deriving DecidableEq

inductive WorkerPc
  /-- In the predicate loop of `changed_.wait`. -/
  | polling
  | running (task : TaskId)
  /-- `active_` is decremented, `notify_all` still to come. -/
  | notifying
  | exited

inductive ClosePc
  | outside
  /-- In the predicate loop of `changed_.wait_for`. -/
  | draining
  /-- Out of the critical section, `notify_all` still to come. -/
  | stopped (abandoned : Nat)
  | returned (abandoned : Option Nat)
  deriving DecidableEq

structure Dispatcher (cfg : Config) where
  tasks : List TaskId
  accepting : Bool
  draining : Bool
  active : Nat
  changed : Condvar (Thread cfg.workerCount)
  dropLogger : RateLimitedDropLogger
  log : List Warning
  submits : TaskId → SubmitPc
  workers : Fin cfg.workerCount → WorkerPc
  closes : Nat → ClosePc

variable {cfg : Config}

def new (cfg : Config) : Dispatcher cfg where
  tasks := []
  accepting := true
  draining := true
  active := 0
  changed := .new
  dropLogger := ⟨0⟩
  log := []
  submits := fun _ => .outside
  workers := fun _ => .polling
  closes := fun _ => .outside

/-- A line for the host's log sink, if there is one. -/
def report (cfg : Config) (line : Option Warning) : List Warning :=
  if cfg.logSink then line.toList else []

namespace Dispatcher

/-- The critical section of `Submit`. -/
def submit (s : Dispatcher cfg) (k : TaskId) (elapsed : Bool) : Option (Dispatcher cfg) :=
  match s.submits k with
  | .outside =>
    if !s.accepting then
      some { s with submits := Function.update s.submits k (.returned false) }
    else if s.tasks.length ≥ cfg.capacity then
      let (dropped, dropLogger) := s.dropLogger.recordDrop elapsed
      some { s with
        tasks := s.tasks.tail ++ [k]
        dropLogger := dropLogger
        submits := Function.update s.submits k (.notifying dropped) }
    else
      some { s with
        tasks := s.tasks ++ [k]
        submits := Function.update s.submits k (.notifying none) }
  | _ => none

/-- The rest of `Submit`: `notify_one`, the overflow warning, `true`. -/
def submitNotify (s : Dispatcher cfg) (k : TaskId) (target : Option (Thread cfg.workerCount)) :
    Option (Dispatcher cfg) :=
  match s.submits k with
  | .notifying dropped => (s.changed.notifyOne target).map fun changed =>
    { s with
      changed := changed
      submits := Function.update s.submits k (.returned true)
      log := s.log ++ report cfg (dropped.map Warning.dropped) }
  | _ => none

/-- One evaluation of `Work`'s wait predicate, and what follows it under the same lock. -/
def poll (s : Dispatcher cfg) (w : Fin cfg.workerCount) : Option (Dispatcher cfg) :=
  match s.workers w with
  | .polling =>
    if s.changed.Parked (.worker w) then none
    else match s.tasks with
      | task :: rest =>
        some { s with
          tasks := rest
          active := s.active + 1
          workers := Function.update s.workers w (.running task) }
      | [] =>
        if !s.draining then some { s with workers := Function.update s.workers w .exited }
        else some { s with changed := s.changed.wait (.worker w) }
  | _ => none

def finish (s : Dispatcher cfg) (w : Fin cfg.workerCount) : Option (Dispatcher cfg) :=
  match s.workers w with
  | .running _ =>
    some { s with
      active := s.active - 1
      workers := Function.update s.workers w .notifying }
  | _ => none

def workerNotify (s : Dispatcher cfg) (w : Fin cfg.workerCount) : Option (Dispatcher cfg) :=
  match s.workers w with
  | .notifying =>
    some { s with
      changed := s.changed.notifyAll
      workers := Function.update s.workers w .polling }
  | _ => none

/-- `Close`'s wait predicate. -/
def Drained (s : Dispatcher cfg) : Prop := s.tasks = [] ∧ s.active = 0

instance (s : Dispatcher cfg) : Decidable s.Drained := inferInstanceAs (Decidable (_ ∧ _))

/-- What `Close` does under the lock once `wait_for` has returned. -/
def stop (s : Dispatcher cfg) (c : Nat) : Dispatcher cfg :=
  { s with
    draining := false
    tasks := []
    closes := Function.update s.closes c (.stopped s.tasks.length) }

/-- `wait_for` has to wait. -/
def drainWait (s : Dispatcher cfg) (c : Nat) : Dispatcher cfg :=
  { s with
    changed := s.changed.wait (.closer c)
    closes := Function.update s.closes c .draining }

/-- `Close` up to the first evaluation of its wait predicate. -/
def close (s : Dispatcher cfg) (c : Nat) : Option (Dispatcher cfg) :=
  match s.closes c with
  | .outside =>
    if !s.accepting then some { s with closes := Function.update s.closes c (.returned none) }
    else
      let s := { s with accepting := false }
      some (if s.Drained then s.stop c else s.drainWait c)
  | _ => none

/-- `wait_for` after a wake-up: a timeout ends it whatever the predicate says. -/
def drain (s : Dispatcher cfg) (c : Nat) (timedOut : Bool) : Option (Dispatcher cfg) :=
  match s.closes c with
  | .draining =>
    if s.changed.Parked (.closer c) then none
    else some (if s.Drained ∨ timedOut then s.stop c else s.drainWait c)
  | _ => none

/-- The rest of `Close`: `notify_all` and the warning. -/
def closeNotify (s : Dispatcher cfg) (c : Nat) : Option (Dispatcher cfg) :=
  match s.closes c with
  | .stopped abandoned =>
    some { s with
      changed := s.changed.notifyAll
      closes := Function.update s.closes c (.returned (some abandoned))
      log := s.log ++
        report cfg (if 0 < abandoned then some (.forceDropped abandoned) else none) }
  | _ => none

/-- A wait ends without a notification: a timeout or a spurious wake-up. -/
def wake (s : Dispatcher cfg) (t : Thread cfg.workerCount) : Option (Dispatcher cfg) :=
  if s.changed.Parked t then some { s with changed := s.changed.wake t } else none

end Dispatcher

inductive Label (cfg : Config)
  | submit (k : TaskId) (elapsed : Bool)
  | submitNotify (k : TaskId) (target : Option (Thread cfg.workerCount))
  | poll (w : Fin cfg.workerCount)
  | finish (w : Fin cfg.workerCount)
  | workerNotify (w : Fin cfg.workerCount)
  | close (c : Nat)
  | drain (c : Nat) (timedOut : Bool)
  | closeNotify (c : Nat)
  | wake (t : Thread cfg.workerCount)

def step (s : Dispatcher cfg) : Label cfg → Option (Dispatcher cfg)
  | .submit k elapsed => s.submit k elapsed
  | .submitNotify k target => s.submitNotify k target
  | .poll w => s.poll w
  | .finish w => s.finish w
  | .workerNotify w => s.workerNotify w
  | .close c => s.close c
  | .drain c timedOut => s.drain c timedOut
  | .closeNotify c => s.closeNotify c
  | .wake t => s.wake t

end OppexSdk.Cpp.AsyncDispatcher
