import OppexSdk.Lib.Channel
import OppexSdk.Lib.Transition

/-! # The Go dispatcher

`golang/oppex/dispatcher.go`. Submissions and closes are serialized by the mutex `mu`; the
workers receive from the channel without it, so a step is one channel operation, one lock or
unlock, or the actions under the lock between two of them. A task is named by the `submit` call
it is an argument of. -/
namespace OppexSdk.Go
open OppexSdk.Lib OppexSdk.Lib.Transition

abbrev TaskId := Nat

/-- The arguments of `newDispatcher`; the channel has room for at least one task. -/
structure Config where
  workers : Nat
  capacity : Nat
  capacity_pos : 0 < capacity

/-- Who holds the mutex. -/
inductive Holder
  | submit (k : TaskId)
  | close (c : Nat)
  deriving DecidableEq

inductive SubmitPc
  | outside
  /-- The mutex is held, `closed` still to be read. -/
  | locked
  /-- At the first `select`. -/
  | sending
  /-- At the second `select`. -/
  | evicting
  /-- At the third `select`. -/
  | resending
  /-- Returning; the deferred unlock is still to come. -/
  | returning (accepted : Bool)
  | returned (accepted : Bool)
  deriving DecidableEq

inductive WorkerPc
  /-- In `range d.queue`. -/
  | receiving
  /-- With a task, before `d.ctx.Err()` is read. -/
  | received (task : TaskId)
  | running (task : TaskId)
  | exited
  deriving DecidableEq

inductive ClosePc
  | outside
  | locked
  /-- The dispatcher was closed already; the unlock is still to come. -/
  | refused
  /-- `closed` is set and the channel closed; the unlock is still to come. -/
  | marked
  /-- At the `select` of `drained` and the timeout. -/
  | waiting
  /-- The timeout won, and `len(d.queue)` was read. -/
  | counted (abandoned : Nat)
  /-- The context is cancelled; the warning is still to come. -/
  | abandoned (abandoned : Nat)
  | returned
  deriving DecidableEq

/-- `rateLimitedDropLogger`, without its clock: whether the interval has elapsed comes with the
step. -/
structure RateLimitedDropLogger where
  dropped : Nat

inductive Warning
  | dropped (count : Nat)
  | abandoned (count : Nat)
  deriving DecidableEq

/-- The dispatcher, where every call and worker is, and the history: the tasks sent into the
channel, those the workers received, called and discarded, each eviction with the call that made
it, the calls that called `recordDrop`, and the calls that lost their own task in the last
`default`. -/
structure Dispatcher (cfg : Config) where
  queue : Chan TaskId
  /-- `ctx` is cancelled. -/
  cancelled : Bool
  dropLogger : RateLimitedDropLogger
  log : List Warning
  mu : Option Holder
  closed : Bool
  submits : TaskId → SubmitPc
  workers : Fin cfg.workers → WorkerPc
  closes : Nat → ClosePc
  accepted : List TaskId
  received : List TaskId
  called : List TaskId
  discarded : List TaskId
  evicted : List (TaskId × TaskId)
  recordDrops : List TaskId
  lost : List TaskId
  /-- A send or a close hit a closed channel. -/
  panicked : Bool

variable {cfg : Config}

def newDispatcher (cfg : Config) : Dispatcher cfg where
  queue := .make cfg.capacity
  cancelled := false
  dropLogger := ⟨0⟩
  log := []
  mu := none
  closed := false
  submits := fun _ => .outside
  workers := fun _ => .receiving
  closes := fun _ => .outside
  accepted := []
  received := []
  called := []
  discarded := []
  evicted := []
  recordDrops := []
  lost := []
  panicked := false

namespace Dispatcher
variable (d : Dispatcher cfg)

def setSubmit (k : TaskId) (pc : SubmitPc) : Dispatcher cfg :=
  { d with submits := Function.update d.submits k pc }

/-- `d.dropLogger.recordDrop()` in the call `k`. -/
def recordDrop (k : TaskId) (elapsed : Bool) : Dispatcher cfg :=
  if elapsed then
    { d with
      dropLogger := ⟨0⟩
      log := d.log ++ [.dropped (d.dropLogger.dropped + 1)]
      recordDrops := d.recordDrops ++ [k] }
  else
    { d with
      dropLogger := ⟨d.dropLogger.dropped + 1⟩
      recordDrops := d.recordDrops ++ [k] }

/-! ## submit -/

def lock (k : TaskId) : Option (Dispatcher cfg) :=
  match d.submits k, d.mu with
  | .outside, none => some { d.setSubmit k .locked with mu := some (.submit k) }
  | _, _ => none

def check (k : TaskId) : Option (Dispatcher cfg) :=
  match d.submits k with
  | .locked => some (d.setSubmit k (if d.closed then .returning false else .sending))
  | _ => none

/-- The first `select`. -/
def send (k : TaskId) : Option (Dispatcher cfg) :=
  match d.submits k with
  | .sending =>
    match d.queue.send k with
    | .sent queue => some { d.setSubmit k (.returning true) with
        queue := queue, accepted := d.accepted ++ [k] }
    | .full => some (d.setSubmit k .evicting)
    | .panicked => some { d with panicked := true }
  | _ => none

/-- The second `select`. -/
def evict (k : TaskId) (elapsed : Bool) : Option (Dispatcher cfg) :=
  match d.submits k with
  | .evicting =>
    match d.queue.receive with
    | .value oldest queue =>
      some { (d.setSubmit k .resending).recordDrop k elapsed with
        queue := queue, evicted := d.evicted ++ [(k, oldest)] }
    | .closed => some ((d.setSubmit k .resending).recordDrop k elapsed)
    | .empty => some (d.setSubmit k .resending)
  | _ => none

/-- The third `select`. -/
def resend (k : TaskId) (elapsed : Bool) : Option (Dispatcher cfg) :=
  match d.submits k with
  | .resending =>
    match d.queue.send k with
    | .sent queue => some { d.setSubmit k (.returning true) with
        queue := queue, accepted := d.accepted ++ [k] }
    | .full => some { (d.setSubmit k (.returning true)).recordDrop k elapsed with
        lost := d.lost ++ [k] }
    | .panicked => some { d with panicked := true }
  | _ => none

def unlock (k : TaskId) : Option (Dispatcher cfg) :=
  match d.submits k with
  | .returning accepted => some { d.setSubmit k (.returned accepted) with mu := none }
  | _ => none

/-! ## work -/

def setWorker (w : Fin cfg.workers) (pc : WorkerPc) : Dispatcher cfg :=
  { d with workers := Function.update d.workers w pc }

/-- `range d.queue`: a task, the end of the loop, or nothing yet. -/
def receive (w : Fin cfg.workers) : Option (Dispatcher cfg) :=
  match d.workers w with
  | .receiving =>
    match d.queue.receive with
    | .value task queue => some { d.setWorker w (.received task) with
        queue := queue, received := d.received ++ [task] }
    | .closed => some (d.setWorker w .exited)
    | .empty => none
  | _ => none

def start (w : Fin cfg.workers) : Option (Dispatcher cfg) :=
  match d.workers w with
  | .received task =>
    if d.cancelled then some { d.setWorker w .exited with discarded := d.discarded ++ [task] }
    else some { d.setWorker w (.running task) with called := d.called ++ [task] }
  | _ => none

def finish (w : Fin cfg.workers) : Option (Dispatcher cfg) :=
  match d.workers w with
  | .running _ => some (d.setWorker w .receiving)
  | _ => none

/-! ## close -/

def setClose (c : Nat) (pc : ClosePc) : Dispatcher cfg :=
  { d with closes := Function.update d.closes c pc }

def lockClose (c : Nat) : Option (Dispatcher cfg) :=
  match d.closes c, d.mu with
  | .outside, none => some { d.setClose c .locked with mu := some (.close c) }
  | _, _ => none

def markClosed (c : Nat) : Option (Dispatcher cfg) :=
  match d.closes c with
  | .locked =>
    if d.closed then some (d.setClose c .refused)
    else
      match d.queue.close with
      | some queue => some { d.setClose c .marked with closed := true, queue := queue }
      | none => some { d with panicked := true }
  | _ => none

def unlockClose (c : Nat) : Option (Dispatcher cfg) :=
  match d.closes c with
  | .refused => some { d.setClose c .returned with mu := none }
  | .marked => some { d.setClose c .waiting with mu := none }
  | _ => none

/-- `case <-drained`: every worker has left. -/
def drained (c : Nat) : Option (Dispatcher cfg) :=
  match d.closes c with
  | .waiting =>
    if ∀ w, d.workers w = .exited then some { d.setClose c .returned with cancelled := true }
    else none
  | _ => none

/-- `case <-time.After(timeout)`, up to the read of `len(d.queue)`. -/
def timeout (c : Nat) : Option (Dispatcher cfg) :=
  match d.closes c with
  | .waiting => some (d.setClose c (.counted d.queue.buffer.length))
  | _ => none

/-- `d.abandon()` after the timeout. -/
def abandon (c : Nat) : Option (Dispatcher cfg) :=
  match d.closes c with
  | .counted n => some { d.setClose c (.abandoned n) with cancelled := true }
  | _ => none

/-- `d.logger.Warn` -/
def warn (c : Nat) : Option (Dispatcher cfg) :=
  match d.closes c with
  | .abandoned n => some { d.setClose c .returned with log := d.log ++ [.abandoned n] }
  | _ => none

end Dispatcher

inductive Label (cfg : Config)
  | lock (k : TaskId)
  | check (k : TaskId)
  | send (k : TaskId)
  | evict (k : TaskId) (elapsed : Bool)
  | resend (k : TaskId) (elapsed : Bool)
  | unlock (k : TaskId)
  | receive (w : Fin cfg.workers)
  | start (w : Fin cfg.workers)
  | finish (w : Fin cfg.workers)
  | lockClose (c : Nat)
  | markClosed (c : Nat)
  | unlockClose (c : Nat)
  | drained (c : Nat)
  | timeout (c : Nat)
  | abandon (c : Nat)
  | warn (c : Nat)
  deriving DecidableEq

def step (d : Dispatcher cfg) : Label cfg → Option (Dispatcher cfg)
  | .lock k => d.lock k
  | .check k => d.check k
  | .send k => d.send k
  | .evict k elapsed => d.evict k elapsed
  | .resend k elapsed => d.resend k elapsed
  | .unlock k => d.unlock k
  | .receive w => d.receive w
  | .start w => d.start w
  | .finish w => d.finish w
  | .lockClose c => d.lockClose c
  | .markClosed c => d.markClosed c
  | .unlockClose c => d.unlockClose c
  | .drained c => d.drained c
  | .timeout c => d.timeout c
  | .abandon c => d.abandon c
  | .warn c => d.warn c

/-! ## What a step does -/

inductive Moves : Dispatcher cfg → Label cfg → Dispatcher cfg → Prop
  | lock {d k} : d.submits k = .outside → d.mu = none →
      Moves d (.lock k) { d.setSubmit k .locked with mu := some (.submit k) }
  | refuse {d k} : d.submits k = .locked → d.closed = true →
      Moves d (.check k) (d.setSubmit k (.returning false))
  | proceed {d k} : d.submits k = .locked → d.closed = false →
      Moves d (.check k) (d.setSubmit k .sending)
  | send {d k queue} : d.submits k = .sending → d.queue.send k = .sent queue →
      Moves d (.send k) { d.setSubmit k (.returning true) with
        queue := queue, accepted := d.accepted ++ [k] }
  | full {d k} : d.submits k = .sending → d.queue.send k = .full →
      Moves d (.send k) (d.setSubmit k .evicting)
  | sendPanic {d k} : d.submits k = .sending → d.queue.send k = .panicked →
      Moves d (.send k) { d with panicked := true }
  | evict {d k elapsed oldest queue} : d.submits k = .evicting →
      d.queue.receive = .value oldest queue →
      Moves d (.evict k elapsed) { (d.setSubmit k .resending).recordDrop k elapsed with
        queue := queue, evicted := d.evicted ++ [(k, oldest)] }
  | evictClosed {d k elapsed} : d.submits k = .evicting → d.queue.receive = .closed →
      Moves d (.evict k elapsed) ((d.setSubmit k .resending).recordDrop k elapsed)
  | evictNone {d k elapsed} : d.submits k = .evicting → d.queue.receive = .empty →
      Moves d (.evict k elapsed) (d.setSubmit k .resending)
  | resend {d k elapsed queue} : d.submits k = .resending → d.queue.send k = .sent queue →
      Moves d (.resend k elapsed) { d.setSubmit k (.returning true) with
        queue := queue, accepted := d.accepted ++ [k] }
  | lose {d k elapsed} : d.submits k = .resending → d.queue.send k = .full →
      Moves d (.resend k elapsed)
        { (d.setSubmit k (.returning true)).recordDrop k elapsed with lost := d.lost ++ [k] }
  | resendPanic {d k elapsed} : d.submits k = .resending → d.queue.send k = .panicked →
      Moves d (.resend k elapsed) { d with panicked := true }
  | unlock {d k accepted} : d.submits k = .returning accepted →
      Moves d (.unlock k) { d.setSubmit k (.returned accepted) with mu := none }
  | receive {d w task queue} : d.workers w = .receiving → d.queue.receive = .value task queue →
      Moves d (.receive w) { d.setWorker w (.received task) with
        queue := queue, received := d.received ++ [task] }
  | exit {d w} : d.workers w = .receiving → d.queue.receive = .closed →
      Moves d (.receive w) (d.setWorker w .exited)
  | start {d w task} : d.workers w = .received task → d.cancelled = false →
      Moves d (.start w) { d.setWorker w (.running task) with called := d.called ++ [task] }
  | discard {d w task} : d.workers w = .received task → d.cancelled = true →
      Moves d (.start w) { d.setWorker w .exited with discarded := d.discarded ++ [task] }
  | finish {d w task} : d.workers w = .running task →
      Moves d (.finish w) (d.setWorker w .receiving)
  | lockClose {d c} : d.closes c = .outside → d.mu = none →
      Moves d (.lockClose c) { d.setClose c .locked with mu := some (.close c) }
  | closeAgain {d c} : d.closes c = .locked → d.closed = true →
      Moves d (.markClosed c) (d.setClose c .refused)
  | markClosed {d c queue} : d.closes c = .locked → d.closed = false →
      d.queue.close = some queue →
      Moves d (.markClosed c) { d.setClose c .marked with closed := true, queue := queue }
  | closePanic {d c} : d.closes c = .locked → d.closed = false → d.queue.close = none →
      Moves d (.markClosed c) { d with panicked := true }
  | unlockRefused {d c} : d.closes c = .refused →
      Moves d (.unlockClose c) { d.setClose c .returned with mu := none }
  | unlockMarked {d c} : d.closes c = .marked →
      Moves d (.unlockClose c) { d.setClose c .waiting with mu := none }
  | drained {d c} : d.closes c = .waiting → (∀ w, d.workers w = .exited) →
      Moves d (.drained c) { d.setClose c .returned with cancelled := true }
  | timeout {d c} : d.closes c = .waiting →
      Moves d (.timeout c) (d.setClose c (.counted d.queue.buffer.length))
  | abandon {d c n} : d.closes c = .counted n →
      Moves d (.abandon c) { d.setClose c (.abandoned n) with cancelled := true }
  | warn {d c n} : d.closes c = .abandoned n →
      Moves d (.warn c) { d.setClose c .returned with log := d.log ++ [.abandoned n] }

section
variable {d t : Dispatcher cfg}

theorem send_moves {k : TaskId} (h : d.send k = some t) : Moves d (.send k) t := by
  unfold Dispatcher.send at h
  split at h
  · rename_i hk
    split at h
    · rename_i hsend; cases h; exact .send hk hsend
    · rename_i hsend; cases h; exact .full hk hsend
    · rename_i hsend; cases h; exact .sendPanic hk hsend
  · cases h

theorem evict_moves {k : TaskId} {elapsed : Bool} (h : d.evict k elapsed = some t) :
    Moves d (.evict k elapsed) t := by
  unfold Dispatcher.evict at h
  split at h
  · rename_i hk
    split at h
    · rename_i hreceive; cases h; exact .evict hk hreceive
    · rename_i hreceive; cases h; exact .evictClosed hk hreceive
    · rename_i hreceive; cases h; exact .evictNone hk hreceive
  · cases h

theorem resend_moves {k : TaskId} {elapsed : Bool} (h : d.resend k elapsed = some t) :
    Moves d (.resend k elapsed) t := by
  unfold Dispatcher.resend at h
  split at h
  · rename_i hk
    split at h
    · rename_i hsend; cases h; exact .resend hk hsend
    · rename_i hsend; cases h; exact .lose hk hsend
    · rename_i hsend; cases h; exact .resendPanic hk hsend
  · cases h

theorem receive_moves {w : Fin cfg.workers} (h : d.receive w = some t) :
    Moves d (.receive w) t := by
  unfold Dispatcher.receive at h
  split at h
  · rename_i hw
    split at h
    · rename_i hreceive; cases h; exact .receive hw hreceive
    · rename_i hreceive; cases h; exact .exit hw hreceive
    · cases h
  · cases h

theorem markClosed_moves {c : Nat} (h : d.markClosed c = some t) : Moves d (.markClosed c) t := by
  unfold Dispatcher.markClosed at h
  split at h
  · rename_i hc
    split at h
    · rename_i hclosed; cases h; exact .closeAgain hc hclosed
    · rename_i hclosed
      have hclosed : d.closed = false := by simpa using hclosed
      split at h
      · rename_i hclose; cases h; exact .markClosed hc hclosed hclose
      · rename_i hclose; cases h; exact .closePanic hc hclosed hclose
  · cases h

/-- **Every enabled step is one of the moves.** -/
theorem step_moves {l : Label cfg} (h : step d l = some t) : Moves d l t := by
  cases l with
  | send k => exact send_moves h
  | evict k elapsed => exact evict_moves h
  | resend k elapsed => exact resend_moves h
  | receive w => exact receive_moves h
  | markClosed c => exact markClosed_moves h
  | lock k =>
    simp only [step, Dispatcher.lock] at h
    split at h
    · rename_i hk hmu; cases h; exact .lock hk hmu
    · cases h
  | check k =>
    simp only [step, Dispatcher.check] at h
    split at h
    · rename_i hk
      split at h
      · rename_i hclosed; cases h; exact .refuse hk hclosed
      · rename_i hclosed; cases h; exact .proceed hk (by simpa using hclosed)
    · cases h
  | unlock k =>
    simp only [step, Dispatcher.unlock] at h
    split at h
    · rename_i hk; cases h; exact .unlock hk
    · cases h
  | start w =>
    simp only [step, Dispatcher.start] at h
    split at h
    · rename_i hw
      split at h
      · rename_i hcancelled; cases h; exact .discard hw hcancelled
      · rename_i hcancelled; cases h; exact .start hw (by simpa using hcancelled)
    · cases h
  | finish w =>
    simp only [step, Dispatcher.finish] at h
    split at h
    · rename_i hw; cases h; exact .finish hw
    · cases h
  | lockClose c =>
    simp only [step, Dispatcher.lockClose] at h
    split at h
    · rename_i hc hmu; cases h; exact .lockClose hc hmu
    · cases h
  | unlockClose c =>
    simp only [step, Dispatcher.unlockClose] at h
    split at h
    · rename_i hc; cases h; exact .unlockRefused hc
    · rename_i hc; cases h; exact .unlockMarked hc
    · cases h
  | drained c =>
    simp only [step, Dispatcher.drained] at h
    split at h
    · rename_i hc
      split at h
      · rename_i hw; cases h; exact .drained hc hw
      · cases h
    · cases h
  | timeout c =>
    simp only [step, Dispatcher.timeout] at h
    split at h
    · rename_i hc; cases h; exact .timeout hc
    · cases h
  | abandon c =>
    simp only [step, Dispatcher.abandon] at h
    split at h
    · rename_i hc; cases h; exact .abandon hc
    · cases h
  | warn c =>
    simp only [step, Dispatcher.warn] at h
    split at h
    · rename_i hc; cases h; exact .warn hc
    · cases h

end

end OppexSdk.Go
