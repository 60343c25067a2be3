import OppexSdk.Node.AsyncDispatcher
import Mathlib.Data.Multiset.AddSub
import Mathlib.Tactic.Abel

/-! # The queue of the Node dispatcher is a FIFO

The abstract scheduler has a plain list where the code has an array with a head index. Under
`queue.slice(queueHead)` every step of the code is a step of the scheduler: the lazy advance of
the head, the reset and the compaction are invisible, a dequeue takes the oldest task, and only
`dropOldest` and the end of `close` take tasks away otherwise. -/
namespace OppexSdk.Node
open OppexSdk.Lib OppexSdk.Lib.Transition OppexSdk.Lib.SlotQueue

/-! ## The operations -/

namespace AsyncDispatcher
variable {τ : Type} {d : AsyncDispatcher τ} {xs : List τ}

/-- The dispatcher's array and head stand for this list. -/
def Queues (d : AsyncDispatcher τ) (xs : List τ) : Prop := Holds d.queue d.queueHead xs

theorem Queues.contents_eq (h : d.Queues xs) : d.contents = xs := Holds.live_eq h

theorem Queues.queueLength_eq (h : d.Queues xs) : d.queueLength = xs.length := by
  have hlen := Holds.length h
  unfold queueLength
  omega

theorem Queues.push (h : d.Queues xs) (task : τ) : (d.push task).Queues (xs ++ [task]) :=
  Holds.push h task

theorem Queues.clearSlot {x : τ} (h : d.Queues (x :: xs)) :
    Holds (AsyncDispatcher.clearSlot d.queue d.queueHead) (d.queueHead + 1) xs := by
  have hlt : d.queueHead < d.queue.length := by
    rw [Holds.length h, List.length_cons]
    omega
  unfold AsyncDispatcher.clearSlot
  rw [if_pos hlt]
  exact Holds.clear h

theorem recordDrop_queues {now : Nat} : (d.recordDrop now).Queues xs ↔ d.Queues xs := by
  unfold AsyncDispatcher.recordDrop
  split <;> rfl

theorem Queues.dropOldest {x : τ} (h : d.Queues (x :: xs)) (now : Nat) :
    (d.dropOldest now).Queues xs := by
  unfold AsyncDispatcher.dropOldest
  rw [recordDrop_queues]
  exact h.clearSlot

theorem Queues.dequeue_nil (h : d.Queues []) : d.dequeue = (none, d) := by
  have hlen : d.queue.length ≤ d.queueHead := by rw [Holds.length h]; simp
  unfold AsyncDispatcher.dequeue
  rw [if_pos hlen]

/-- A dequeue returns the oldest task, and reset and compaction leave the others. -/
theorem Queues.dequeue_cons {x : τ} (h : d.Queues (x :: xs)) :
    ∃ queue queueHead, d.dequeue = (some x, { d with queue := queue, queueHead := queueHead }) ∧
      Holds queue queueHead xs := by
  have hlt : ¬ d.queue.length ≤ d.queueHead := by
    rw [Holds.length h, List.length_cons]
    omega
  have htask : d.queue[d.queueHead]?.join = some x := Holds.oldest h
  have hrest := h.clearSlot
  unfold AsyncDispatcher.dequeue
  rw [if_neg hlt, htask]
  dsimp only
  split
  · rename_i hdrained
    refine ⟨[], 0, rfl, ?_⟩
    have hnil : xs = [] := by
      rw [Holds.length hrest] at hdrained
      exact List.length_eq_zero_iff.mp (by omega)
    rw [hnil]
    exact holds_empty
  · split
    · exact ⟨_, 0, rfl, Holds.compact hrest⟩
    · exact ⟨_, _, rfl, hrest⟩

@[simp] theorem push_active (task : τ) : (d.push task).active = d.active := rfl
@[simp] theorem push_closed (task : τ) : (d.push task).closed = d.closed := rfl
@[simp] theorem push_capacity (task : τ) : (d.push task).capacity = d.capacity := rfl
@[simp] theorem push_maxConcurrency (task : τ) :
    (d.push task).maxConcurrency = d.maxConcurrency := rfl
@[simp] theorem push_queueHead (task : τ) : (d.push task).queueHead = d.queueHead := rfl

@[simp] theorem dropOldest_active (now : Nat) : (d.dropOldest now).active = d.active := by
  unfold AsyncDispatcher.dropOldest AsyncDispatcher.recordDrop; split <;> rfl

@[simp] theorem dropOldest_closed (now : Nat) : (d.dropOldest now).closed = d.closed := by
  unfold AsyncDispatcher.dropOldest AsyncDispatcher.recordDrop; split <;> rfl

@[simp] theorem dropOldest_capacity (now : Nat) : (d.dropOldest now).capacity = d.capacity := by
  unfold AsyncDispatcher.dropOldest AsyncDispatcher.recordDrop; split <;> rfl

@[simp] theorem dropOldest_maxConcurrency (now : Nat) :
    (d.dropOldest now).maxConcurrency = d.maxConcurrency := by
  unfold AsyncDispatcher.dropOldest AsyncDispatcher.recordDrop; split <;> rfl

@[simp] theorem dropOldest_queueHead (now : Nat) :
    (d.dropOldest now).queueHead = d.queueHead + 1 := by
  unfold AsyncDispatcher.dropOldest AsyncDispatcher.recordDrop; split <;> rfl

end AsyncDispatcher

/-! ## The scheduler -/

/-- The event loop with a list of tasks. -/
structure Scheduler where
  maxConcurrency : Nat
  capacity : Nat
  active : Nat
  closed : Bool
  tasks : List TaskId
  stack : List Frame
  idleWaiters : List Nat
  closes : Nat → ClosePc
  submitted : List TaskId
  refused : List TaskId
  direct : List TaskId
  pushed : List TaskId
  dequeued : List TaskId
  evicted : List TaskId
  forceDropped : List TaskId
  started : List TaskId
  settled : List TaskId
  completed : List TaskId

def EventLoop.scheduler (s : EventLoop) : Scheduler where
  maxConcurrency := s.dispatcher.maxConcurrency
  capacity := s.dispatcher.capacity
  active := s.dispatcher.active
  closed := s.dispatcher.closed
  tasks := s.dispatcher.contents
  stack := s.stack
  idleWaiters := s.idleWaiters
  closes := s.closes
  submitted := s.submitted
  refused := s.refused
  direct := s.direct
  pushed := s.pushed
  dequeued := s.dequeued
  evicted := s.evicted
  forceDropped := s.forceDropped
  started := s.started
  settled := s.settled
  completed := s.completed

/-- The close calls that wait for idleness are told. -/
def notify (waiters : List Nat) (closes : Nat → ClosePc) (c : Nat) : ClosePc :=
  if c ∈ waiters then
    match closes c with
    | .waiting _ => .waiting true
    | pc => pc
  else closes c

inductive Scheduler.Moves : Scheduler → LoopLabel → Scheduler → Prop
  | refuse {a k} (now) : k ∉ a.submitted → a.closed = true →
      Moves a (.submit k now)
        { a with submitted := a.submitted ++ [k], refused := a.refused ++ [k] }
  | start {a k} (now) : k ∉ a.submitted → a.closed = false → a.active < a.maxConcurrency →
      Moves a (.submit k now) { a with
        submitted := a.submitted ++ [k]
        active := a.active + 1
        stack := .task k :: a.stack
        started := a.started ++ [k]
        direct := a.direct ++ [k] }
  | push {a k} (now) : k ∉ a.submitted → a.closed = false → a.maxConcurrency ≤ a.active →
      a.tasks.length < a.capacity →
      Moves a (.submit k now) { a with
        submitted := a.submitted ++ [k]
        tasks := a.tasks ++ [k]
        pushed := a.pushed ++ [k] }
  | evict {a k oldest rest} (now) : k ∉ a.submitted → a.closed = false →
      a.maxConcurrency ≤ a.active → a.tasks = oldest :: rest → a.capacity ≤ a.tasks.length →
      Moves a (.submit k now) { a with
        submitted := a.submitted ++ [k]
        tasks := rest ++ [k]
        evicted := a.evicted ++ [oldest]
        pushed := a.pushed ++ [k] }
  | evictLog {a k oldest rest} (now) : k ∉ a.submitted → a.closed = false →
      a.maxConcurrency ≤ a.active → a.tasks = oldest :: rest → a.capacity ≤ a.tasks.length →
      Moves a (.submit k now) { a with
        submitted := a.submitted ++ [k]
        tasks := rest
        evicted := a.evicted ++ [oldest]
        stack := .logger k :: a.stack }
  | taskReturns {a k stack} : a.stack = .task k :: stack →
      Moves a .hostReturn { a with stack := stack }
  | loggerReturns {a k stack} : a.stack = .logger k :: stack →
      Moves a .hostReturn { a with
        stack := stack
        tasks := a.tasks ++ [k]
        pushed := a.pushed ++ [k] }
  | loggerThrows {a k stack} : a.stack = .logger k :: stack →
      Moves a .hostThrow { a with stack := stack, refused := a.refused ++ [k] }
  | settle {a k} : k ∈ a.started → k ∉ a.settled →
      Moves a (.settle k) { a with settled := a.settled ++ [k] }
  | next {a k task rest} : a.stack = [] → k ∈ a.settled → k ∉ a.completed →
      a.tasks = task :: rest →
      Moves a (.callback k) { a with
        active := a.active - 1 + 1
        tasks := rest
        stack := [.task task]
        completed := a.completed ++ [k]
        dequeued := a.dequeued ++ [task]
        started := a.started ++ [task] }
  | idle {a k} : a.stack = [] → k ∈ a.settled → k ∉ a.completed → a.tasks = [] →
      a.active - 1 = 0 →
      Moves a (.callback k) { a with
        active := a.active - 1
        completed := a.completed ++ [k]
        idleWaiters := []
        closes := notify a.idleWaiters a.closes }
  | pause {a k} : a.stack = [] → k ∈ a.settled → k ∉ a.completed → a.tasks = [] →
      a.active - 1 ≠ 0 →
      Moves a (.callback k) { a with
        active := a.active - 1
        completed := a.completed ++ [k] }
  | closeAgain {a c} : a.closes c = .outside → a.closed = true →
      Moves a (.close c) { a with closes := Function.update a.closes c .returned }
  | closeIdle {a c} : a.closes c = .outside → a.closed = false → a.active = 0 → a.tasks = [] →
      Moves a (.close c) { a with
        closed := true
        closes := Function.update a.closes c (.waiting true) }
  | closeWait {a c} : a.closes c = .outside → a.closed = false → (a.active = 0 → a.tasks ≠ []) →
      Moves a (.close c) { a with
        closed := true
        closes := Function.update a.closes c (.waiting false)
        idleWaiters := a.idleWaiters ++ [c] }
  | finish {a c} : a.stack = [] → a.closes c = .waiting true →
      Moves a (.finish c) { a with closes := Function.update a.closes c .resolved }
  | timeout {a c notified} : a.stack = [] → a.closes c = .waiting notified →
      Moves a (.timeout c) { a with closes := Function.update a.closes c .resolved }
  | forceDrop {a c} : a.stack = [] → a.closes c = .resolved →
      Moves a (.forceDrop c) { a with
        tasks := []
        forceDropped := a.forceDropped ++ a.tasks
        closes := Function.update a.closes c .returned }

/-! ## Every step of the code is a step of the scheduler -/

/-- The queue is well formed and the configuration is the one of the constructor. -/
structure Represents (cfg : DispatcherConfig) (s : EventLoop) : Prop where
  queues : s.dispatcher.Queues s.dispatcher.contents
  capacity : s.dispatcher.capacity = cfg.capacity
  maxConcurrency : s.dispatcher.maxConcurrency = cfg.maxConcurrency

theorem represents_new (cfg : DispatcherConfig) : Represents cfg (.new cfg) where
  queues := holds_empty
  capacity := rfl
  maxConcurrency := rfl

section
variable {cfg : DispatcherConfig} {s t : EventLoop}

/-- What a step does, to the representation and as a step of the scheduler. -/
def Refines (cfg : DispatcherConfig) (s : EventLoop) (l : LoopLabel) (t : EventLoop) : Prop :=
  Represents cfg t ∧ s.scheduler.Moves l t.scheduler

theorem Represents.with_queue (h : Represents cfg s) {d : AsyncDispatcher TaskId} {xs : List TaskId}
    (hd : d.Queues xs) (hcapacity : d.capacity = s.dispatcher.capacity)
    (hmax : d.maxConcurrency = s.dispatcher.maxConcurrency) (ht : t.dispatcher = d) :
    Represents cfg t := by
  refine ⟨?_, ?_, ?_⟩
  · rw [ht, hd.contents_eq]; exact hd
  · rw [ht, hcapacity]; exact h.capacity
  · rw [ht, hmax]; exact h.maxConcurrency

/-- A full queue is not empty. -/
theorem Represents.full (h : Represents cfg s)
    (hfull : (s.dispatcher.capacity : Int) ≤ s.dispatcher.queueLength) :
    ∃ oldest rest, s.dispatcher.contents = oldest :: rest ∧
      s.dispatcher.capacity ≤ s.dispatcher.contents.length := by
  rw [h.queues.queueLength_eq] at hfull
  have hle : s.dispatcher.capacity ≤ s.dispatcher.contents.length := by exact_mod_cast hfull
  cases hxs : s.dispatcher.contents with
  | nil =>
    rw [hxs, h.capacity, List.length_nil] at hle
    exact absurd cfg.capacity_pos (Nat.not_lt.mpr hle)
  | cons oldest rest => exact ⟨oldest, rest, rfl, hxs ▸ hle⟩

theorem submit_refines {k : TaskId} {now : Nat} (h : Represents cfg s)
    (hstep : s.submit k now = some t) : Refines cfg s (.submit k now) t := by
  unfold EventLoop.submit at hstep
  split at hstep
  · cases hstep
  · rename_i hk
    dsimp only at hstep
    split at hstep
    · rename_i hclosed
      cases hstep
      exact ⟨⟨h.queues, h.capacity, h.maxConcurrency⟩, .refuse now hk hclosed⟩
    · rename_i hopen
      have hopen : s.dispatcher.closed = false := by simpa using hopen
      split at hstep
      · rename_i hfree
        cases hstep
        exact ⟨⟨h.queues, h.capacity, h.maxConcurrency⟩, .start now hk hopen hfree⟩
      · rename_i hbusy
        have hbusy : s.dispatcher.maxConcurrency ≤ s.dispatcher.active := Nat.le_of_not_lt hbusy
        split at hstep
        · rename_i hfull
          obtain ⟨oldest, rest, hcontents, hle⟩ := h.full hfull
          have hqueues := h.queues
          rw [hcontents] at hqueues
          have hdrop := hqueues.dropOldest now
          have hevicted : s.dispatcher.queue[s.dispatcher.queueHead]?.join.toList = [oldest] := by
            rw [Holds.oldest hqueues]
            rfl
          split at hstep
          · cases hstep
            refine ⟨h.with_queue hdrop (by simp) (by simp) rfl, ?_⟩
            have hmove := Scheduler.Moves.evictLog (a := s.scheduler) now hk hopen hbusy
              hcontents hle
            simpa [EventLoop.scheduler, EventLoop.dropOldest, hdrop.contents_eq, hevicted]
              using hmove
          · cases hstep
            have hpush := hdrop.push k
            refine ⟨h.with_queue hpush (by simp) (by simp) rfl, ?_⟩
            have hmove := Scheduler.Moves.evict (a := s.scheduler) now hk hopen hbusy
              hcontents hle
            simpa [EventLoop.scheduler, EventLoop.dropOldest, EventLoop.push, hpush.contents_eq,
              hevicted] using hmove
        · rename_i hroom
          have hlt : s.dispatcher.contents.length < s.dispatcher.capacity := by
            rw [h.queues.queueLength_eq] at hroom
            omega
          cases hstep
          have hpush := h.queues.push k
          refine ⟨h.with_queue hpush rfl rfl rfl, ?_⟩
          have hmove := Scheduler.Moves.push (a := s.scheduler) now hk hopen hbusy hlt
          simpa [EventLoop.scheduler, EventLoop.push, hpush.contents_eq] using hmove

theorem hostReturn_refines (h : Represents cfg s) (hstep : s.hostReturn = some t) :
    Refines cfg s .hostReturn t := by
  unfold EventLoop.hostReturn at hstep
  split at hstep
  · rename_i hstack
    cases hstep
    exact ⟨⟨h.queues, h.capacity, h.maxConcurrency⟩, .taskReturns hstack⟩
  · rename_i k stack hstack
    cases hstep
    have hpush := h.queues.push k
    refine ⟨h.with_queue hpush rfl rfl rfl, ?_⟩
    have hmove := Scheduler.Moves.loggerReturns (a := s.scheduler) hstack
    simpa [EventLoop.scheduler, EventLoop.push, hpush.contents_eq] using hmove
  · cases hstep

theorem callback_refines {k : TaskId} (h : Represents cfg s) (hstep : s.callback k = some t) :
    Refines cfg s (.callback k) t := by
  unfold EventLoop.callback at hstep
  split at hstep
  · rename_i hguard
    obtain ⟨hstack, hsettled, hcompleted⟩ := hguard
    have hqueues : s.dispatcher.release.Queues s.dispatcher.contents := h.queues
    cases hcontents : s.dispatcher.contents with
    | nil =>
      rw [hcontents] at hqueues
      rw [hqueues.dequeue_nil] at hstep
      dsimp only at hstep
      split at hstep
      · rename_i hidle
        cases hstep
        refine ⟨⟨h.queues, h.capacity, h.maxConcurrency⟩, ?_⟩
        simp only [AsyncDispatcher.idle, Bool.and_eq_true, beq_iff_eq] at hidle
        exact .idle hstack hsettled hcompleted hcontents hidle.1
      · rename_i hidle
        cases hstep
        refine ⟨⟨h.queues, h.capacity, h.maxConcurrency⟩, ?_⟩
        refine .pause hstack hsettled hcompleted hcontents fun hzero => hidle ?_
        simp only [AsyncDispatcher.idle, Bool.and_eq_true, beq_iff_eq]
        exact ⟨hzero, hqueues.queueLength_eq⟩
    | cons task rest =>
      rw [hcontents] at hqueues
      obtain ⟨queue, queueHead, hdequeue, hrest⟩ := hqueues.dequeue_cons
      rw [hdequeue] at hstep
      cases hstep
      have hqueues' : AsyncDispatcher.Queues
          ({ s.dispatcher with
            active := s.dispatcher.release.active + 1
            queue := queue
            queueHead := queueHead } : AsyncDispatcher TaskId) rest := hrest
      refine ⟨h.with_queue hqueues' rfl rfl rfl, ?_⟩
      have hmove := Scheduler.Moves.next (a := s.scheduler) hstack hsettled hcompleted hcontents
      simpa [EventLoop.scheduler, EventLoop.run, AsyncDispatcher.release, AsyncDispatcher.contents,
        Holds.live_eq hrest, hstack] using hmove
  · cases hstep

theorem close_refines {c : Nat} (h : Represents cfg s) (hstep : s.close c = some t) :
    Refines cfg s (.close c) t := by
  have hlength := h.queues.queueLength_eq
  unfold EventLoop.close at hstep
  split at hstep
  · rename_i hc
    split at hstep
    · rename_i hclosed
      cases hstep
      exact ⟨⟨h.queues, h.capacity, h.maxConcurrency⟩, .closeAgain hc hclosed⟩
    · rename_i hopen
      have hopen : s.dispatcher.closed = false := by simpa using hopen
      dsimp only at hstep
      split at hstep
      · rename_i hidle
        cases hstep
        simp only [AsyncDispatcher.idle, Bool.and_eq_true, beq_iff_eq] at hidle
        have hempty : s.dispatcher.contents = [] := by
          have hzero : s.dispatcher.queueLength = 0 := hidle.2
          rw [hlength] at hzero
          exact List.length_eq_zero_iff.mp (by exact_mod_cast hzero)
        exact ⟨⟨h.queues, h.capacity, h.maxConcurrency⟩, .closeIdle hc hopen hidle.1 hempty⟩
      · rename_i hidle
        cases hstep
        refine ⟨⟨h.queues, h.capacity, h.maxConcurrency⟩, .closeWait hc hopen ?_⟩
        intro hzero hempty
        apply hidle
        simp only [AsyncDispatcher.idle, Bool.and_eq_true, beq_iff_eq]
        refine ⟨hzero, hlength.trans ?_⟩
        have hnil : s.dispatcher.contents = [] := hempty
        rw [hnil]
        rfl
  · cases hstep

theorem forceDrop_refines {c : Nat} (h : Represents cfg s) (hstep : s.forceDrop c = some t) :
    Refines cfg s (.forceDrop c) t := by
  unfold EventLoop.forceDrop at hstep
  split at hstep
  · rename_i hguard
    obtain ⟨hstack, hc⟩ := hguard
    have hmove := Scheduler.Moves.forceDrop (a := s.scheduler) hstack hc
    dsimp only at hstep
    split at hstep
    · cases hstep
      have hqueues : AsyncDispatcher.Queues
          ({ s.dispatcher with queue := [], queueHead := 0 } : AsyncDispatcher TaskId) [] :=
        holds_empty
      exact ⟨h.with_queue hqueues rfl rfl rfl, hmove⟩
    · rename_i hempty
      have hnil : s.dispatcher.contents = [] := by
        rw [h.queues.queueLength_eq] at hempty
        exact List.length_eq_zero_iff.mp (by omega)
      cases hstep
      refine ⟨⟨h.queues, h.capacity, h.maxConcurrency⟩, ?_⟩
      simpa [EventLoop.scheduler, hnil] using hmove
  · cases hstep

/-- **The code refines the scheduler.** -/
theorem step_refines {l : LoopLabel} (h : Represents cfg s) (hstep : s.step l = some t) :
    Refines cfg s l t := by
  cases l with
  | submit k now => exact submit_refines h hstep
  | hostReturn => exact hostReturn_refines h hstep
  | callback k => exact callback_refines h hstep
  | close c => exact close_refines h hstep
  | forceDrop c => exact forceDrop_refines h hstep
  | hostThrow =>
    simp only [EventLoop.step, EventLoop.hostThrow] at hstep
    split at hstep
    · rename_i hstack
      cases hstep
      exact ⟨⟨h.queues, h.capacity, h.maxConcurrency⟩, .loggerThrows hstack⟩
    · cases hstep
  | settle k =>
    simp only [EventLoop.step, EventLoop.settle] at hstep
    split at hstep
    · rename_i hk
      cases hstep
      exact ⟨⟨h.queues, h.capacity, h.maxConcurrency⟩, .settle hk.1 hk.2⟩
    · cases hstep
  | finish c =>
    simp only [EventLoop.step, EventLoop.finish] at hstep
    split at hstep
    · rename_i hc
      cases hstep
      exact ⟨⟨h.queues, h.capacity, h.maxConcurrency⟩, .finish hc.1 hc.2⟩
    · cases hstep
  | timeout c =>
    simp only [EventLoop.step, EventLoop.timeout] at hstep
    split at hstep
    · rename_i hc
      split at hstep
      · rename_i hstack
        cases hstep
        exact ⟨⟨h.queues, h.capacity, h.maxConcurrency⟩, .timeout hstack hc⟩
      · cases hstep
    · cases hstep

end

/-! ## No task is lost, duplicated or reordered -/

/-- The tasks whose `submit` is inside the logger. -/
def pendingTasks (stack : List Frame) : List TaskId := stack.filterMap Frame.pending

structure Scheduler.Ledger (a : Scheduler) : Prop where
  nodup : a.submitted.Nodup
  submitted : (a.submitted : Multiset TaskId) =
    a.refused + a.direct + a.pushed + pendingTasks a.stack
  pushed : (a.pushed : Multiset TaskId) = a.dequeued + a.evicted + a.forceDropped + a.tasks
  started : (a.started : Multiset TaskId) = a.direct + a.dequeued
  order : (a.dequeued ++ a.tasks).Sublist a.pushed

theorem ledger_new (cfg : DispatcherConfig) : (EventLoop.new cfg).scheduler.Ledger where
  nodup := List.nodup_nil
  submitted := rfl
  pushed := rfl
  started := rfl
  order := List.Sublist.refl _

section
variable {a b : Scheduler} {l : LoopLabel}

theorem Scheduler.Ledger.nodup_submit (h : a.Ledger) {k : TaskId} (hk : k ∉ a.submitted) :
    (a.submitted ++ [k]).Nodup := by
  rw [← List.concat_eq_append]
  exact h.nodup.concat hk

theorem coe_concat (xs : List TaskId) (k : TaskId) :
    ((xs ++ [k] : List TaskId) : Multiset TaskId) = xs + {k} := by
  rw [← Multiset.coe_add, Multiset.coe_singleton]

theorem coe_cons (k : TaskId) (xs : List TaskId) :
    ((k :: xs : List TaskId) : Multiset TaskId) = {k} + xs := by
  rw [← Multiset.cons_coe, Multiset.singleton_add]

/-- A push lengthens the queue and the history by the same task. -/
theorem kept_push {pushed tasks : List TaskId} {gone : Multiset TaskId}
    (h : (pushed : Multiset TaskId) = gone + tasks) (k : TaskId) :
    ((pushed ++ [k] : List TaskId) : Multiset TaskId) = gone + (tasks ++ [k] : List TaskId) := by
  rw [coe_concat, coe_concat, h]
  abel

theorem order_push {dequeued tasks pushed : List TaskId} (h : (dequeued ++ tasks).Sublist pushed)
    (k : TaskId) : (dequeued ++ (tasks ++ [k])).Sublist (pushed ++ [k]) := by
  rw [← List.append_assoc]
  exact h.append (List.Sublist.refl _)

/-- The oldest task goes to the evicted ones. -/
theorem Scheduler.Ledger.pushed_evict (h : a.Ledger) {oldest : TaskId} {rest : List TaskId}
    (htasks : a.tasks = oldest :: rest) :
    (a.pushed : Multiset TaskId) =
      a.dequeued + (a.evicted ++ [oldest] : List TaskId) + a.forceDropped + rest := by
  rw [h.pushed, htasks, coe_concat, coe_cons]
  abel

theorem Scheduler.Ledger.order_evict (h : a.Ledger) {oldest : TaskId} {rest : List TaskId}
    (htasks : a.tasks = oldest :: rest) : (a.dequeued ++ rest).Sublist a.pushed := by
  have horder := h.order
  rw [htasks] at horder
  exact ((List.sublist_cons_self oldest rest).append_left _).trans horder

/-- A submitted task that is pushed at once. -/
theorem Scheduler.Ledger.submitted_push (h : a.Ledger) (k : TaskId) :
    ((a.submitted ++ [k] : List TaskId) : Multiset TaskId) =
      a.refused + a.direct + (a.pushed ++ [k] : List TaskId) + pendingTasks a.stack := by
  rw [coe_concat, coe_concat, h.submitted]
  abel

theorem ledger_step (h : a.Ledger) (hmove : a.Moves l b) : b.Ledger := by
  have hsubmitted := h.submitted
  have hstarted := h.started
  cases hmove with
  | refuse now hk _ =>
    refine ⟨h.nodup_submit hk, ?_, h.pushed, hstarted, h.order⟩
    simp only [coe_concat]
    rw [hsubmitted]
    abel
  | start now hk _ _ =>
    refine ⟨h.nodup_submit hk, ?_, h.pushed, ?_, h.order⟩
    · simp only [coe_concat]
      rw [hsubmitted]
      simp only [pendingTasks, List.filterMap_cons, Frame.pending]
      abel
    · simp only [coe_concat]
      rw [hstarted]
      abel
  | @push k now hk _ _ _ =>
    exact ⟨h.nodup_submit hk, h.submitted_push k, kept_push h.pushed k, hstarted,
      order_push h.order k⟩
  | @evict k oldest rest now hk _ _ htasks _ =>
    exact ⟨h.nodup_submit hk, h.submitted_push k, kept_push (h.pushed_evict htasks) k, hstarted,
      order_push (h.order_evict htasks) k⟩
  | @evictLog k oldest rest now hk _ _ htasks _ =>
    refine ⟨h.nodup_submit hk, ?_, h.pushed_evict htasks, hstarted, h.order_evict htasks⟩
    simp only [coe_concat, pendingTasks, List.filterMap_cons, Frame.pending, coe_cons]
    rw [hsubmitted]
    simp only [pendingTasks]
    abel
  | taskReturns hstack =>
    rw [hstack] at hsubmitted
    exact ⟨h.nodup, hsubmitted, h.pushed, hstarted, h.order⟩
  | @loggerReturns k stack hstack =>
    rw [hstack] at hsubmitted
    refine ⟨h.nodup, ?_, kept_push h.pushed k, hstarted, order_push h.order k⟩
    simp only [coe_concat]
    rw [hsubmitted]
    simp only [pendingTasks, List.filterMap_cons, Frame.pending, coe_cons]
    abel
  | loggerThrows hstack =>
    rw [hstack] at hsubmitted
    refine ⟨h.nodup, ?_, h.pushed, hstarted, h.order⟩
    simp only [coe_concat]
    rw [hsubmitted]
    simp only [pendingTasks, List.filterMap_cons, Frame.pending, coe_cons]
    abel
  | next hstack _ _ htasks =>
    have hpushed := h.pushed
    have horder := h.order
    rw [htasks] at hpushed horder
    rw [hstack] at hsubmitted
    refine ⟨h.nodup, hsubmitted, ?_, ?_, ?_⟩
    · simp only [coe_concat]
      rw [hpushed, coe_cons]
      abel
    · simp only [coe_concat]
      rw [hstarted]
      abel
    · simpa using horder
  | forceDrop _ _ =>
    refine ⟨h.nodup, hsubmitted, ?_, hstarted, ?_⟩
    · simp only [← Multiset.coe_add, Multiset.coe_nil]
      rw [h.pushed]
      abel
    · rw [List.append_nil]
      exact (List.sublist_append_left _ _).trans h.order
  | _ => exact ⟨h.nodup, hsubmitted, h.pushed, hstarted, h.order⟩

end

/-- The representation and the ledger hold in every state of every run. -/
theorem run_refines {cfg : DispatcherConfig} {ok : EventLoop → LoopLabel → Prop} {s : EventLoop}
    {ls : List LoopLabel} (h : Run EventLoop.step ok (.new cfg) ls s) :
    Represents cfg s ∧ s.scheduler.Ledger := by
  refine h.invariant (I := fun s => Represents cfg s ∧ s.scheduler.Ledger) ?_
    ⟨represents_new cfg, ledger_new cfg⟩
  intro s l t _ hstep hs
  obtain ⟨hrep, hmove⟩ := step_refines hs.1 hstep
  exact ⟨hrep, ledger_step hs.2 hmove⟩

end OppexSdk.Node
