import OppexSdk.Lib.Condvar
import OppexSdk.Lib.Transition

/-! # The Rust `AsyncDispatcher`

The monitor of `rust/src/internal/dispatcher.rs`: any number of `submit` and `close` calls, the
workers `new` spawned, and the mutex and condition variable they meet on. A step is one critical
section, or one of the actions between two of them that another thread can observe: a
notification, the end of a task, a thread leaving the wait set.

A task is a `Box<dyn FnOnce()>`, moved into one `submit` call and nowhere else, so the call's
number names the task as well. -/
namespace OppexSdk.Rust.Dispatcher
open OppexSdk.Lib OppexSdk.Lib.Transition

abbrev TaskId := Nat

/-- The arguments of `AsyncDispatcher::new`. -/
structure Config where
  workerCount : Nat
  capacity : Nat
  workerCount_pos : 0 < workerCount
  capacity_pos : 0 < capacity

/-- One worker and room for one task: the smallest dispatcher that can evict. -/
def smallest : Config := ⟨1, 1, Nat.one_pos, Nat.one_pos⟩

def smallestWorker : Fin smallest.workerCount := ⟨0, Nat.one_pos⟩

/-- Whoever can be parked on `changed`. -/
inductive Thread (n : Nat)
  | worker (w : Fin n)
  | closer (c : Nat)
  deriving DecidableEq

/-- `RateLimitedDropLogger`, without its clock: whether the interval has elapsed comes with the
step. -/
structure RateLimitedDropLogger where
  dropped : Nat
  deriving DecidableEq

def RateLimitedDropLogger.recordDrop (logger : RateLimitedDropLogger) (elapsed : Bool) :
    Option Nat × RateLimitedDropLogger :=
  if elapsed then (some (logger.dropped + 1), ⟨0⟩) else (none, ⟨logger.dropped + 1⟩)

/-- The two `log::warn!` lines. -/
inductive Warning
  | dropped (count : Nat)
  | forceDropped (count : Nat)
  deriving DecidableEq

inductive SubmitPc
  | outside
  /-- Pushed and out of the critical section, `notify_one` still to come. -/
  | notifying (dropped : Option Nat)
  | returned (accepted : Bool)
  deriving DecidableEq

inductive WorkerPc
  /-- In the inner loop of `work`: about to take the lock, or in `changed.wait`. -/
  | polling
  | running (task : TaskId)
  /-- `active` is decremented, `notify_all` still to come. -/
  | notifying
  | exited
  /-- The task panicked and took the thread with it. -/
  | panicked
  deriving DecidableEq

/-- The task a worker is executing. -/
def WorkerPc.task : WorkerPc → Multiset TaskId
  | .running t => {t}
  | _ => 0

inductive ClosePc
  | outside
  /-- In the loop of `drain_until`: about to take the lock, or in `changed.wait_timeout`. -/
  | draining
  /-- `drain_until` has returned, `notify_all` still to come. -/
  | stopped (abandoned : Nat)
  /-- `none` when the call found the dispatcher closed already. -/
  | returned (abandoned : Option Nat)
  deriving DecidableEq

/-- `State` behind its mutex, the condition variable, where every thread is, and the history the
properties speak about: the tasks pushed, evicted, popped, finished, lost to a panic and cleared
by `drain_until`, each list in the order of the events. -/
structure AsyncDispatcher (cfg : Config) where
  tasks : List TaskId
  accepting : Bool
  draining : Bool
  active : Nat
  changed : Condvar (Thread cfg.workerCount)
  dropLogger : RateLimitedDropLogger
  log : List Warning
  submits : TaskId → SubmitPc
  workers : Fin cfg.workerCount → WorkerPc
  closes : Nat → ClosePc
  accepted : List TaskId
  evicted : List TaskId
  started : List TaskId
  finished : List TaskId
  panicked : List TaskId
  abandoned : List TaskId

variable {cfg : Config}

def new (cfg : Config) : AsyncDispatcher cfg where
  tasks := []
  accepting := true
  draining := true
  active := 0
  changed := .new
  dropLogger := ⟨0⟩
  log := []
  submits := fun _ => .outside
  workers := fun _ => .polling
  closes := fun _ => .outside
  accepted := []
  evicted := []
  started := []
  finished := []
  panicked := []
  abandoned := []

/-! ## The steps -/

namespace AsyncDispatcher

/-- The critical section of `submit`. -/
def submit (s : AsyncDispatcher cfg) (k : TaskId) (elapsed : Bool) : Option (AsyncDispatcher cfg) :=
  match s.submits k with
  | .outside =>
    if !s.accepting then
      some { s with submits := Function.update s.submits k (.returned false) }
    else if s.tasks.length ≥ cfg.capacity then
      let (dropped, dropLogger) := s.dropLogger.recordDrop elapsed
      some { s with
        tasks := s.tasks.tail ++ [k]
        dropLogger := dropLogger
        submits := Function.update s.submits k (.notifying dropped)
        accepted := s.accepted ++ [k]
        evicted := s.evicted ++ s.tasks.head?.toList }
    else
      some { s with
        tasks := s.tasks ++ [k]
        submits := Function.update s.submits k (.notifying none)
        accepted := s.accepted ++ [k] }
  | _ => none

/-- The rest of `submit`: `notify_one`, the overflow warning, `true`. -/
def submitNotify (s : AsyncDispatcher cfg) (k : TaskId) (target : Option (Thread cfg.workerCount)) :
    Option (AsyncDispatcher cfg) :=
  match s.submits k with
  | .notifying dropped => (s.changed.notifyOne target).map fun changed =>
    { s with
      changed := changed
      submits := Function.update s.submits k (.returned true)
      log := s.log ++ (dropped.map Warning.dropped).toList }
  | _ => none

/-- One pass of the inner loop of `work`: pop a task, leave, or wait. -/
def poll (s : AsyncDispatcher cfg) (w : Fin cfg.workerCount) : Option (AsyncDispatcher cfg) :=
  match s.workers w with
  | .polling =>
    if s.changed.Parked (.worker w) then none
    else match s.tasks with
      | task :: rest =>
        some { s with
          tasks := rest
          active := s.active + 1
          workers := Function.update s.workers w (.running task)
          started := s.started ++ [task] }
      | [] =>
        if !s.draining then some { s with workers := Function.update s.workers w .exited }
        else some { s with changed := s.changed.wait (.worker w) }
  | _ => none

/-- `task()` has returned; `active` is decremented under the lock. -/
def finish (s : AsyncDispatcher cfg) (w : Fin cfg.workerCount) : Option (AsyncDispatcher cfg) :=
  match s.workers w with
  | .running task =>
    some { s with
      active := s.active - 1
      workers := Function.update s.workers w .notifying
      finished := s.finished ++ [task] }
  | _ => none

/-- `task()` unwinds: nothing in `work` catches it, so the decrement is skipped. -/
def panic (s : AsyncDispatcher cfg) (w : Fin cfg.workerCount) : Option (AsyncDispatcher cfg) :=
  match s.workers w with
  | .running task =>
    some { s with
      workers := Function.update s.workers w .panicked
      panicked := s.panicked ++ [task] }
  | _ => none

def workerNotify (s : AsyncDispatcher cfg) (w : Fin cfg.workerCount) : Option (AsyncDispatcher cfg) :=
  match s.workers w with
  | .notifying =>
    some { s with
      changed := s.changed.notifyAll
      workers := Function.update s.workers w .polling }
  | _ => none

/-- The first critical section of `close`. -/
def close (s : AsyncDispatcher cfg) (c : Nat) : Option (AsyncDispatcher cfg) :=
  match s.closes c with
  | .outside =>
    if !s.accepting then some { s with closes := Function.update s.closes c (.returned none) }
    else some { s with
      accepting := false
      closes := Function.update s.closes c .draining }
  | _ => none

/-- The condition of `drain_until`'s loop. -/
def Pending (s : AsyncDispatcher cfg) : Prop := s.tasks ≠ [] ∨ 0 < s.active

instance (s : AsyncDispatcher cfg) : Decidable s.Pending :=
  inferInstanceAs (Decidable (_ ∨ _))

/-- One pass of `drain_until`'s loop: wait again, or, when nothing is pending or the deadline has
passed, stop the workers and clear the queue. -/
def drainUntil (s : AsyncDispatcher cfg) (c : Nat) (expired : Bool) : Option (AsyncDispatcher cfg) :=
  match s.closes c with
  | .draining =>
    if s.changed.Parked (.closer c) then none
    else if s.Pending ∧ !expired then
      some { s with changed := s.changed.wait (.closer c) }
    else
      some { s with
        draining := false
        tasks := []
        closes := Function.update s.closes c (.stopped s.tasks.length)
        abandoned := s.abandoned ++ s.tasks }
  | _ => none

/-- The rest of `close`: `notify_all` and the warning. -/
def closeNotify (s : AsyncDispatcher cfg) (c : Nat) : Option (AsyncDispatcher cfg) :=
  match s.closes c with
  | .stopped abandoned =>
    some { s with
      changed := s.changed.notifyAll
      closes := Function.update s.closes c (.returned (some abandoned))
      log := s.log ++ if 0 < abandoned then [Warning.forceDropped abandoned] else [] }
  | _ => none

/-- A wait ends without a notification: a timeout or a spurious wake-up. -/
def wake (s : AsyncDispatcher cfg) (t : Thread cfg.workerCount) : Option (AsyncDispatcher cfg) :=
  if s.changed.Parked t then some { s with changed := s.changed.wake t } else none

end AsyncDispatcher

/-- Which thread moves, and what the clock or the scheduler decided. -/
inductive Label (cfg : Config)
  | submit (k : TaskId) (elapsed : Bool)
  | submitNotify (k : TaskId) (target : Option (Thread cfg.workerCount))
  | poll (w : Fin cfg.workerCount)
  | finish (w : Fin cfg.workerCount)
  | panic (w : Fin cfg.workerCount)
  | workerNotify (w : Fin cfg.workerCount)
  | close (c : Nat)
  | drainUntil (c : Nat) (expired : Bool)
  | closeNotify (c : Nat)
  | wake (t : Thread cfg.workerCount)
  deriving DecidableEq

def step (s : AsyncDispatcher cfg) : Label cfg → Option (AsyncDispatcher cfg)
  | .submit k elapsed => s.submit k elapsed
  | .submitNotify k target => s.submitNotify k target
  | .poll w => s.poll w
  | .finish w => s.finish w
  | .panic w => s.panic w
  | .workerNotify w => s.workerNotify w
  | .close c => s.close c
  | .drainUntil c expired => s.drainUntil c expired
  | .closeNotify c => s.closeNotify c
  | .wake t => s.wake t

/-! ## What a step does

One constructor for each way through the sections above, with the guards that lead there. Every
invariant is proved by cases on this relation. -/

inductive Moves : AsyncDispatcher cfg → Label cfg → AsyncDispatcher cfg → Prop
  | refuse {s k elapsed} : s.submits k = .outside → s.accepting = false →
      Moves s (.submit k elapsed)
        { s with submits := Function.update s.submits k (.returned false) }
  | push {s k elapsed} : s.submits k = .outside → s.accepting = true →
      s.tasks.length < cfg.capacity →
      Moves s (.submit k elapsed) { s with
        tasks := s.tasks ++ [k]
        submits := Function.update s.submits k (.notifying none)
        accepted := s.accepted ++ [k] }
  | evict {s k elapsed oldest rest} : s.submits k = .outside → s.accepting = true →
      s.tasks = oldest :: rest → cfg.capacity ≤ s.tasks.length →
      Moves s (.submit k elapsed) { s with
        tasks := rest ++ [k]
        dropLogger := (s.dropLogger.recordDrop elapsed).2
        submits := Function.update s.submits k (.notifying (s.dropLogger.recordDrop elapsed).1)
        accepted := s.accepted ++ [k]
        evicted := s.evicted ++ [oldest] }
  | submitNotify {s k dropped target changed} : s.submits k = .notifying dropped →
      s.changed.notifyOne target = some changed →
      Moves s (.submitNotify k target) { s with
        changed := changed
        submits := Function.update s.submits k (.returned true)
        log := s.log ++ (dropped.map Warning.dropped).toList }
  | pop {s w task rest} : s.workers w = .polling → ¬ s.changed.Parked (.worker w) →
      s.tasks = task :: rest →
      Moves s (.poll w) { s with
        tasks := rest
        active := s.active + 1
        workers := Function.update s.workers w (.running task)
        started := s.started ++ [task] }
  | exit {s w} : s.workers w = .polling → ¬ s.changed.Parked (.worker w) → s.tasks = [] →
      s.draining = false →
      Moves s (.poll w) { s with workers := Function.update s.workers w .exited }
  | park {s w} : s.workers w = .polling → ¬ s.changed.Parked (.worker w) → s.tasks = [] →
      s.draining = true →
      Moves s (.poll w) { s with changed := s.changed.wait (.worker w) }
  | finish {s w task} : s.workers w = .running task →
      Moves s (.finish w) { s with
        active := s.active - 1
        workers := Function.update s.workers w .notifying
        finished := s.finished ++ [task] }
  | panic {s w task} : s.workers w = .running task →
      Moves s (.panic w) { s with
        workers := Function.update s.workers w .panicked
        panicked := s.panicked ++ [task] }
  | workerNotify {s w} : s.workers w = .notifying →
      Moves s (.workerNotify w) { s with
        changed := s.changed.notifyAll
        workers := Function.update s.workers w .polling }
  | closeAgain {s c} : s.closes c = .outside → s.accepting = false →
      Moves s (.close c) { s with closes := Function.update s.closes c (.returned none) }
  | close {s c} : s.closes c = .outside → s.accepting = true →
      Moves s (.close c) { s with
        accepting := false
        closes := Function.update s.closes c .draining }
  | drainWait {s c} : s.closes c = .draining → ¬ s.changed.Parked (.closer c) → s.Pending →
      Moves s (.drainUntil c false) { s with changed := s.changed.wait (.closer c) }
  | drainStop {s c expired} : s.closes c = .draining → ¬ s.changed.Parked (.closer c) →
      (s.Pending → expired = true) →
      Moves s (.drainUntil c expired) { s with
        draining := false
        tasks := []
        closes := Function.update s.closes c (.stopped s.tasks.length)
        abandoned := s.abandoned ++ s.tasks }
  | closeNotify {s c abandoned} : s.closes c = .stopped abandoned →
      Moves s (.closeNotify c) { s with
        changed := s.changed.notifyAll
        closes := Function.update s.closes c (.returned (some abandoned))
        log := s.log ++ if 0 < abandoned then [Warning.forceDropped abandoned] else [] }
  | wake {s t} : s.changed.Parked t →
      Moves s (.wake t) { s with changed := s.changed.wake t }

theorem submit_moves {s t : AsyncDispatcher cfg} {k elapsed} (h : s.submit k elapsed = some t) :
    Moves s (.submit k elapsed) t := by
  unfold AsyncDispatcher.submit at h
  split at h
  · rename_i hk
    split at h
    · rename_i ha
      cases h; exact .refuse hk (by simpa using ha)
    · rename_i ha
      have ha : s.accepting = true := by simpa using ha
      split at h
      · rename_i hcap
        cases htasks : s.tasks with
        | nil => rw [htasks] at hcap; exact absurd hcap (by simpa using cfg.capacity_pos.ne')
        | cons oldest rest =>
          rw [htasks] at h
          exact Option.some.inj h ▸ .evict hk ha htasks hcap
      · rename_i hcap
        cases h; exact .push hk ha (by omega)
  · cases h

theorem poll_moves {s t : AsyncDispatcher cfg} {w} (h : s.poll w = some t) :
    Moves s (.poll w) t := by
  unfold AsyncDispatcher.poll at h
  split at h
  · rename_i hw
    split at h
    · cases h
    · rename_i hp
      split at h
      · rename_i htasks
        cases h; exact .pop hw hp htasks
      · rename_i htasks
        split at h
        · rename_i hd
          cases h; exact .exit hw hp htasks (by simpa using hd)
        · rename_i hd
          cases h; exact .park hw hp htasks (by simpa using hd)
  · cases h

theorem close_moves {s t : AsyncDispatcher cfg} {c} (h : s.close c = some t) :
    Moves s (.close c) t := by
  unfold AsyncDispatcher.close at h
  split at h
  · rename_i hc
    split at h
    · rename_i ha
      cases h; exact .closeAgain hc (by simpa using ha)
    · rename_i ha
      cases h; exact .close hc (by simpa using ha)
  · cases h

theorem drainUntil_moves {s t : AsyncDispatcher cfg} {c expired}
    (h : s.drainUntil c expired = some t) : Moves s (.drainUntil c expired) t := by
  unfold AsyncDispatcher.drainUntil at h
  split at h
  · rename_i hc
    split at h
    · cases h
    · rename_i hp
      split at h
      · rename_i hpend
        have he : expired = false := by simpa using hpend.2
        cases h; subst he; exact .drainWait hc hp hpend.1
      · rename_i hpend
        cases h
        exact .drainStop hc hp fun hp => by
          cases expired with
          | true => rfl
          | false => exact absurd ⟨hp, rfl⟩ hpend
  · cases h

/-- **Every enabled step is one of the moves.** -/
theorem step_moves {s t : AsyncDispatcher cfg} {l : Label cfg} (h : step s l = some t) :
    Moves s l t := by
  cases l with
  | submit k elapsed => exact submit_moves h
  | poll w => exact poll_moves h
  | close c => exact close_moves h
  | drainUntil c expired => exact drainUntil_moves h
  | submitNotify k target =>
    simp only [step, AsyncDispatcher.submitNotify] at h
    split at h
    · rename_i hk
      obtain ⟨changed, hn, rfl⟩ := Option.map_eq_some_iff.mp h
      exact .submitNotify hk hn
    · cases h
  | finish w =>
    simp only [step, AsyncDispatcher.finish] at h
    split at h
    · rename_i hw; cases h; exact .finish hw
    · cases h
  | panic w =>
    simp only [step, AsyncDispatcher.panic] at h
    split at h
    · rename_i hw; cases h; exact .panic hw
    · cases h
  | workerNotify w =>
    simp only [step, AsyncDispatcher.workerNotify] at h
    split at h
    · rename_i hw; cases h; exact .workerNotify hw
    · cases h
  | closeNotify c =>
    simp only [step, AsyncDispatcher.closeNotify] at h
    split at h
    · rename_i hc; cases h; exact .closeNotify hc
    · cases h
  | wake t =>
    simp only [step, AsyncDispatcher.wake] at h
    split at h
    · rename_i hp; cases h; exact .wake hp
    · cases h

end OppexSdk.Rust.Dispatcher
