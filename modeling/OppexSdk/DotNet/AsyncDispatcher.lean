import OppexSdk.Lib.Transition

/-! # The .NET dispatcher

`AsyncDispatcher` of `dotnet/src/Oppex.Integration.Sdk/Internal/AsyncDispatcher.cs`, over a bounded
channel that drops its oldest entry. What is done under `_lifecycle` is one step. `ReadAllAsync`
looks at its token only when it has to wait for data. The `k`-th call of `Submit` brings task `k`;
calls of `DisposeAsync`, which calls `CloseAsync`, are numbered too.

A task swallows the exceptions of a failed and of a cancelled delivery; any other exception that it
throws ends its worker. -/
namespace OppexSdk.DotNet
open OppexSdk.Lib.Transition

structure Config where
  workerCount : Nat
  capacity : Nat
  workerCount_pos : 0 < workerCount
  /-- `BoundedChannelOptions` wants room for one task. -/
  capacity_pos : 0 < capacity

inductive SubmitPc
  | outside | accepted | refused
  deriving DecidableEq

/-- Where `WorkAsync` is. -/
inductive WorkerPc
  /-- Before it reads the token for `ReadAllAsync`. -/
  | starting
  | reading
  /-- It has the task from the channel, and has still to read the token and call it. -/
  | taken (task : Nat)
  | running (task : Nat)
  | exited
  | faulted
  deriving DecidableEq

def WorkerPc.ended : WorkerPc → Bool
  | exited | faulted => true
  | _ => false

/-- Where a call of `DisposeAsync` is. -/
inductive ClosePc
  | outside
  /-- In `WhenAny`. -/
  | draining
  /-- The delay has won, and `abandoned` was read. -/
  | timedOut (abandoned : Nat)
  /-- The token is cancelled; `CancelAsync` has not completed. -/
  | cancelling (abandoned : Nat)
  | cancelled (abandoned : Nat)
  /-- `CloseAsync` has returned; `forced` after the branch of the timeout. -/
  | closed (forced : Bool)
  | disposed (forced : Bool)
  | raised
  deriving DecidableEq

structure AsyncDispatcher (cfg : Config) where
  queue : List Nat
  /-- `_closed`; the writer is completed with it. -/
  closed : Bool
  /-- The state of `_abandon`. -/
  cancelled : Bool
  disposed : Bool
  submits : Nat → SubmitPc
  workers : Fin cfg.workerCount → WorkerPc
  closes : Nat → ClosePc
  /-- The numbers that `IncidentsForceDropped` logged. -/
  log : List Nat
  /-- History: the tasks that were accepted, and those that the channel dropped. -/
  accepted : List Nat
  evicted : List Nat
  /-- History: the tasks that were called, those called when `CancelAsync` had completed, those
  that ended, and those whose worker faulted before it called them. -/
  invoked : List Nat
  late : List Nat
  finished : List Nat
  lost : List Nat
  /-- History: `CancelAsync` has completed, and the call that drains has returned or thrown. -/
  cancelCompleted : Bool
  drainOver : Bool

inductive Label (cfg : Config)
  | submit (k : Nat)
  | start (w : Fin cfg.workerCount)
  /-- `ReadAllAsync` gives the next task. -/
  | read (w : Fin cfg.workerCount)
  /-- `ReadAllAsync` ends, or throws because it was cancelled. -/
  | exit (w : Fin cfg.workerCount)
  /-- The worker reads the token and calls its task. -/
  | invoke (w : Fin cfg.workerCount)
  | finish (w : Fin cfg.workerCount) (throws : Bool)
  /-- `CloseAsync` under the lock. -/
  | close (d : Nat)
  /-- `WhenAny` returns `drained`. -/
  | drained (d : Nat)
  /-- `WhenAny` returns the delay, and `Reader.Count` is read. -/
  | timeout (d : Nat)
  | cancel (d : Nat)
  | cancelDone (d : Nat)
  | log (d : Nat)
  /-- `_abandon.Dispose()`. -/
  | dispose (d : Nat)

namespace AsyncDispatcher
variable {cfg : Config}

def new (cfg : Config) : AsyncDispatcher cfg where
  queue := []
  closed := false
  cancelled := false
  disposed := false
  submits _ := .outside
  workers _ := .starting
  closes _ := .outside
  log := []
  accepted := []
  evicted := []
  invoked := []
  late := []
  finished := []
  lost := []
  cancelCompleted := false
  drainOver := false

def setSubmit (s : AsyncDispatcher cfg) (k : Nat) (pc : SubmitPc) : AsyncDispatcher cfg :=
  { s with submits := Function.update s.submits k pc }

def setWorker (s : AsyncDispatcher cfg) (w : Fin cfg.workerCount) (pc : WorkerPc) :
    AsyncDispatcher cfg :=
  { s with workers := Function.update s.workers w pc }

def setClose (s : AsyncDispatcher cfg) (d : Nat) (pc : ClosePc) : AsyncDispatcher cfg :=
  { s with closes := Function.update s.closes d pc }

/-- `TryWrite` to a channel that is open. -/
def tryWrite (s : AsyncDispatcher cfg) (k : Nat) : AsyncDispatcher cfg :=
  if s.queue.length < cfg.capacity then
    { s with queue := s.queue ++ [k], accepted := s.accepted ++ [k] }
  else
    { s with
      queue := s.queue.drop 1 ++ [k]
      accepted := s.accepted ++ [k]
      evicted := s.evicted ++ s.queue.take 1 }

def allEnded (s : AsyncDispatcher cfg) : Prop := ∀ w, (s.workers w).ended = true

instance (s : AsyncDispatcher cfg) : Decidable s.allEnded :=
  inferInstanceAs (Decidable (∀ _, _))

def step (s : AsyncDispatcher cfg) : Label cfg → Option (AsyncDispatcher cfg)
  | .submit k =>
    match s.submits k with
    | .outside =>
      some (if s.closed then s.setSubmit k .refused else (s.tryWrite k).setSubmit k .accepted)
    | _ => none
  | .start w =>
    match s.workers w with
    | .starting => some (s.setWorker w (if s.disposed then .faulted else .reading))
    | _ => none
  | .read w =>
    match s.workers w, s.queue with
    | .reading, task :: rest => some { s.setWorker w (.taken task) with queue := rest }
    | _, _ => none
  | .exit w =>
    match s.workers w, s.queue with
    | .reading, [] => if s.closed || s.cancelled then some (s.setWorker w .exited) else none
    | _, _ => none
  | .invoke w =>
    match s.workers w with
    | .taken task =>
      some (if s.disposed then { s.setWorker w .faulted with lost := s.lost ++ [task] }
        else { s.setWorker w (.running task) with
          invoked := s.invoked ++ [task]
          late := if s.cancelCompleted then s.late ++ [task] else s.late })
    | _ => none
  | .finish w throws =>
    match s.workers w with
    | .running task =>
      some { s.setWorker w (if throws then .faulted else .reading) with
        finished := s.finished ++ [task] }
    | _ => none
  | .close d =>
    match s.closes d with
    | .outside =>
      some (if s.closed then s.setClose d (.closed false)
        else { s.setClose d .draining with closed := true })
    | _ => none
  | .drained d =>
    match s.closes d with
    | .draining =>
      if s.allEnded then some { s.setClose d (.closed false) with drainOver := true } else none
    | _ => none
  | .timeout d =>
    match s.closes d with
    | .draining => some (s.setClose d (.timedOut s.queue.length))
    | _ => none
  | .cancel d =>
    match s.closes d with
    | .timedOut n =>
      some (if s.disposed then { s.setClose d .raised with drainOver := true }
        else { s.setClose d (.cancelling n) with cancelled := true })
    | _ => none
  | .cancelDone d =>
    match s.closes d with
    | .cancelling n => some { s.setClose d (.cancelled n) with cancelCompleted := true }
    | _ => none
  | .log d =>
    match s.closes d with
    | .cancelled n =>
      some { s.setClose d (.closed true) with
        log := if 0 < n then s.log ++ [n] else s.log
        drainOver := true }
    | _ => none
  | .dispose d =>
    match s.closes d with
    | .closed forced => some { s.setClose d (.disposed forced) with disposed := true }
    | _ => none

/-- What a step can be, with its guards. -/
inductive Moves (s : AsyncDispatcher cfg) : Label cfg → AsyncDispatcher cfg → Prop
  | refuse {k : Nat} : s.submits k = .outside → s.closed = true →
      Moves s (.submit k) (s.setSubmit k .refused)
  | accept {k : Nat} : s.submits k = .outside → s.closed = false →
      Moves s (.submit k) ((s.tryWrite k).setSubmit k .accepted)
  | startFails {w} : s.workers w = .starting → s.disposed = true →
      Moves s (.start w) (s.setWorker w .faulted)
  | start {w} : s.workers w = .starting → s.disposed = false →
      Moves s (.start w) (s.setWorker w .reading)
  | read {w} {task : Nat} {rest : List Nat} : s.workers w = .reading → s.queue = task :: rest →
      Moves s (.read w) { s.setWorker w (.taken task) with queue := rest }
  | exit {w} : s.workers w = .reading → s.queue = [] → (s.closed || s.cancelled) = true →
      Moves s (.exit w) (s.setWorker w .exited)
  | invokeFails {w} {task : Nat} : s.workers w = .taken task → s.disposed = true →
      Moves s (.invoke w) { s.setWorker w .faulted with lost := s.lost ++ [task] }
  | invoke {w} {task : Nat} : s.workers w = .taken task → s.disposed = false →
      Moves s (.invoke w) { s.setWorker w (.running task) with
        invoked := s.invoked ++ [task]
        late := if s.cancelCompleted then s.late ++ [task] else s.late }
  | finish {w} {task : Nat} (throws : Bool) : s.workers w = .running task →
      Moves s (.finish w throws) { s.setWorker w (if throws then .faulted else .reading) with
        finished := s.finished ++ [task] }
  | closeAgain {d : Nat} : s.closes d = .outside → s.closed = true →
      Moves s (.close d) (s.setClose d (.closed false))
  | close {d : Nat} : s.closes d = .outside → s.closed = false →
      Moves s (.close d) { s.setClose d .draining with closed := true }
  | drained {d : Nat} : s.closes d = .draining → s.allEnded →
      Moves s (.drained d) { s.setClose d (.closed false) with drainOver := true }
  | timeout {d : Nat} : s.closes d = .draining →
      Moves s (.timeout d) (s.setClose d (.timedOut s.queue.length))
  | cancelFails {d n : Nat} : s.closes d = .timedOut n → s.disposed = true →
      Moves s (.cancel d) { s.setClose d .raised with drainOver := true }
  | cancel {d n : Nat} : s.closes d = .timedOut n → s.disposed = false →
      Moves s (.cancel d) { s.setClose d (.cancelling n) with cancelled := true }
  | cancelDone {d n : Nat} : s.closes d = .cancelling n →
      Moves s (.cancelDone d) { s.setClose d (.cancelled n) with cancelCompleted := true }
  | log {d n : Nat} : s.closes d = .cancelled n →
      Moves s (.log d) { s.setClose d (.closed true) with
        log := if 0 < n then s.log ++ [n] else s.log
        drainOver := true }
  | dispose {d : Nat} {forced : Bool} : s.closes d = .closed forced →
      Moves s (.dispose d) { s.setClose d (.disposed forced) with disposed := true }

theorem step_moves {s t : AsyncDispatcher cfg} {l : Label cfg} (h : step s l = some t) :
    Moves s l t := by
  cases l with
  | submit k =>
    simp only [step] at h
    split at h <;> cases h
    rename_i hk
    cases hc : s.closed with
    | true => exact .refuse hk hc
    | false => exact .accept hk hc
  | start w =>
    simp only [step] at h
    split at h <;> cases h
    rename_i hw
    cases hd : s.disposed with
    | true => exact .startFails hw hd
    | false => exact .start hw hd
  | read w =>
    simp only [step] at h
    split at h <;> cases h
    rename_i hw hq
    exact .read hw hq
  | exit w =>
    simp only [step] at h
    split at h
    · rename_i hw hq
      split at h <;> cases h
      rename_i hclosed
      exact .exit hw hq hclosed
    · cases h
  | invoke w =>
    simp only [step] at h
    split at h <;> cases h
    rename_i hw
    cases hd : s.disposed with
    | true => exact .invokeFails hw hd
    | false => exact .invoke hw hd
  | finish w throws =>
    simp only [step] at h
    split at h <;> cases h
    rename_i hw
    exact .finish throws hw
  | close d =>
    simp only [step] at h
    split at h <;> cases h
    rename_i hd
    cases hc : s.closed with
    | true => exact .closeAgain hd hc
    | false => exact .close hd hc
  | drained d =>
    simp only [step] at h
    split at h
    · rename_i hd
      split at h <;> cases h
      rename_i hall
      exact .drained hd hall
    · cases h
  | timeout d =>
    simp only [step] at h
    split at h <;> cases h
    rename_i hd
    exact .timeout hd
  | cancel d =>
    simp only [step] at h
    split at h <;> cases h
    rename_i n hd
    cases hdisp : s.disposed with
    | true => exact .cancelFails hd hdisp
    | false => exact .cancel hd hdisp
  | cancelDone d =>
    simp only [step] at h
    split at h <;> cases h
    rename_i hd
    exact .cancelDone hd
  | log d =>
    simp only [step] at h
    split at h <;> cases h
    rename_i hd
    exact .log hd
  | dispose d =>
    simp only [step] at h
    split at h <;> cases h
    rename_i hd
    exact .dispose hd

end AsyncDispatcher

/-- One worker and room for one task. -/
def smallest : Config := ⟨1, 1, Nat.one_pos, Nat.one_pos⟩

/-- The one worker of the smallest dispatcher. -/
def onlyWorker : Fin smallest.workerCount := ⟨0, Nat.one_pos⟩

end OppexSdk.DotNet
