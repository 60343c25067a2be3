import OppexSdk.Node.DispatcherRefinement

/-! # The bounds of the Node dispatcher's queue

`submit` makes room before it pushes, so the queue should never hold more than `capacity` tasks,
and the array is compacted once its dead prefix has grown past `capacity`. Two paths escape. The
logger that reports an eviction runs between the eviction and the push, and what it submits takes
the place that was made. And only `dequeue` compacts: an eviction advances the head without
looking at it. Runs that avoid these two are bounded. -/
namespace OppexSdk.Node
open OppexSdk.Lib OppexSdk.Lib.Transition OppexSdk.Lib.SlotQueue

/-! ## The operations on the list -/

namespace AsyncDispatcher
variable {τ : Type} {d : AsyncDispatcher τ} {xs : List τ}

theorem Queues.dequeue_fst (h : d.Queues xs) : d.dequeue.1 = xs.head? := by
  cases xs with
  | nil => rw [h.dequeue_nil]; rfl
  | cons x xs =>
    obtain ⟨queue, queueHead, heq, -⟩ := h.dequeue_cons
    rw [heq]
    rfl

/-- Neither the reset nor the compaction changes what is queued behind the oldest task. -/
theorem Queues.dequeue_snd (h : d.Queues xs) : d.dequeue.2.Queues xs.tail := by
  cases xs with
  | nil => rw [h.dequeue_nil]; exact h
  | cons x xs =>
    obtain ⟨queue, queueHead, heq, hrest⟩ := h.dequeue_cons
    rw [heq]
    exact hrest

theorem Queues.dropOldest_tail (h : d.Queues xs) (now : Nat) :
    (d.dropOldest now).Queues xs.tail := by
  cases xs with
  | cons x xs => exact h.dropOldest now
  | nil =>
    -- the assignment past the end makes the array longer by the slot it clears
    have hlen : d.queue.length = d.queueHead := Holds.length h
    unfold AsyncDispatcher.dropOldest
    rw [recordDrop_queues]
    show Holds (AsyncDispatcher.clearSlot d.queue d.queueHead) (d.queueHead + 1) []
    unfold AsyncDispatcher.clearSlot
    rw [if_neg (by omega), hlen, Nat.add_sub_cancel_left]
    exact Holds.clear_empty h

/-- Where a dequeue leaves the head. -/
theorem dequeue_queueHead : d.dequeue.2.queueHead = d.queueHead ∨
    d.dequeue.2.queueHead ≤ d.capacity := by
  unfold AsyncDispatcher.dequeue
  split
  · exact .inl rfl
  · dsimp only
    split
    · exact .inr (Nat.zero_le _)
    · split
      · exact .inr (Nat.zero_le _)
      · rename_i hle
        exact .inr (Nat.le_of_not_lt hle)

end AsyncDispatcher

/-! ## At most `capacity` tasks -/

/-- The host's code on top of the stack is the logger. -/
def EventLoop.inLogger (s : EventLoop) : Bool :=
  match s.stack with
  | .logger _ :: _ => true
  | _ => false

/-- The logger that reported an eviction returns to a queue that still has the place which the
eviction made. -/
def loggerLeavesRoom (s : EventLoop) : LoopLabel → Prop
  | .hostReturn => s.inLogger = true → s.dispatcher.queueLength < s.dispatcher.capacity
  | _ => True

instance loggerLeavesRoom.decidable (s : EventLoop) : ∀ l, Decidable (loggerLeavesRoom s l)
  | .hostReturn => inferInstanceAs (Decidable (_ → _))
  | .submit _ _ => inferInstanceAs (Decidable True)
  | .hostThrow => inferInstanceAs (Decidable True)
  | .settle _ => inferInstanceAs (Decidable True)
  | .callback _ => inferInstanceAs (Decidable True)
  | .close _ => inferInstanceAs (Decidable True)
  | .finish _ => inferInstanceAs (Decidable True)
  | .timeout _ => inferInstanceAs (Decidable True)
  | .forceDrop _ => inferInstanceAs (Decidable True)

section
variable {cfg : DispatcherConfig} {s t : EventLoop} {l : LoopLabel}

theorem length_step (hrep : Represents cfg s) (hok : loggerLeavesRoom s l)
    (hle : s.dispatcher.contents.length ≤ s.dispatcher.capacity)
    (hmove : s.scheduler.Moves l t.scheduler) :
    t.dispatcher.contents.length ≤ s.dispatcher.capacity := by
  generalize hb : t.scheduler = b at hmove
  have htasks : t.dispatcher.contents = b.tasks := by rw [← hb]; rfl
  rw [htasks]
  cases hmove with
  | push now _ _ _ hlt =>
    show (s.dispatcher.contents ++ [_]).length ≤ s.dispatcher.capacity
    rw [List.length_append]
    exact hlt
  | evict now _ _ _ hcontents hfull =>
    have hcontents : s.dispatcher.contents = _ := hcontents
    rw [hcontents, List.length_cons] at hle
    show (_ ++ [_]).length ≤ s.dispatcher.capacity
    rw [List.length_append]
    exact hle
  | evictLog now _ _ _ hcontents hfull =>
    have hcontents : s.dispatcher.contents = _ := hcontents
    rw [hcontents, List.length_cons] at hle
    exact Nat.le_of_succ_le hle
  | @loggerReturns k stack hstack =>
    have hlogger : s.inLogger = true := by
      have hstack : s.stack = .logger k :: stack := hstack
      rw [EventLoop.inLogger, hstack]
    have hroom := hok hlogger
    rw [hrep.queues.queueLength_eq] at hroom
    show (s.dispatcher.contents ++ [k]).length ≤ s.dispatcher.capacity
    rw [List.length_append, List.length_singleton]
    omega
  | next _ _ _ hcontents =>
    have hcontents : s.dispatcher.contents = _ := hcontents
    rw [hcontents, List.length_cons] at hle
    exact Nat.le_of_succ_le hle
  | forceDrop _ _ => exact Nat.zero_le _
  | _ => exact hle

end

theorem run_length {cfg : DispatcherConfig} {ok : EventLoop → LoopLabel → Prop}
    (hok : ∀ s l, ok s l → loggerLeavesRoom s l) {s : EventLoop} {ls : List LoopLabel}
    (h : Run EventLoop.step ok (.new cfg) ls s) :
    Represents cfg s ∧ s.dispatcher.contents.length ≤ cfg.capacity := by
  refine h.invariant
    (I := fun s => Represents cfg s ∧ s.dispatcher.contents.length ≤ cfg.capacity) ?_
    ⟨represents_new cfg, Nat.zero_le _⟩
  intro s l t hl hstep hs
  obtain ⟨hrep, hmove⟩ := step_refines hs.1 hstep
  refine ⟨hrep, ?_⟩
  have hle := hs.2
  rw [← hs.1.capacity] at hle ⊢
  exact length_step hs.1 (hok s l hl) hle hmove

/-- The array and its head are a FIFO list: what is in the slots, what the operations do to the
list, that every step is one of the scheduler's, and where the tasks that were pushed have gone. -/
structure Fifo (cfg : DispatcherConfig) (s : EventLoop) : Prop where
  head_le : s.dispatcher.queueHead ≤ s.dispatcher.queue.length
  dead : ∀ i < s.dispatcher.queueHead, s.dispatcher.queue[i]? = some none
  alive : ∀ i, s.dispatcher.queueHead ≤ i → i < s.dispatcher.queue.length →
    ∃ task, s.dispatcher.queue[i]? = some (some task)
  queueLength_eq : s.dispatcher.queueLength = s.dispatcher.contents.length
  queueLength_le : s.dispatcher.queueLength ≤ cfg.capacity
  dequeue : s.dispatcher.dequeue.1 = s.dispatcher.contents.head? ∧
    s.dispatcher.dequeue.2.contents = s.dispatcher.contents.tail
  dropOldest : ∀ now, (s.dispatcher.dropOldest now).contents = s.dispatcher.contents.tail
  push : ∀ task, (s.dispatcher.push task).contents = s.dispatcher.contents ++ [task]
  simulates : ∀ l t, s.step l = some t → s.scheduler.Moves l t.scheduler
  pushedOnce : s.pushed.Nodup
  kept : (s.pushed : Multiset TaskId) =
    s.dequeued + s.evicted + s.forceDropped + s.dispatcher.contents
  order : (s.dequeued ++ s.dispatcher.contents).Sublist s.pushed

theorem Scheduler.Ledger.pushed_nodup {a : Scheduler} (h : a.Ledger) : a.pushed.Nodup := by
  have hle : (a.pushed : Multiset TaskId) ≤ a.submitted := by
    rw [h.submitted]
    exact (Multiset.le_add_left _ _).trans (Multiset.le_add_right _ _)
  exact Multiset.nodup_of_le hle h.nodup

/-- **The queue is a FIFO of at most `capacity` tasks** in every run in which the logger that
reports an eviction does not take the place for itself. -/
theorem queue_is_fifo {cfg : DispatcherConfig} {s : EventLoop} {ls : List LoopLabel}
    (h : Run EventLoop.step loggerLeavesRoom (.new cfg) ls s) : Fifo cfg s := by
  obtain ⟨hrep, hle⟩ := run_length (fun _ _ hl => hl) h
  obtain ⟨_, hledger⟩ := run_refines h
  have hlength := hrep.queues.queueLength_eq
  refine
    { head_le := ?_
      dead := fun i hi => Holds.dead hrep.queues hi
      alive := ?_
      queueLength_eq := hlength
      queueLength_le := ?_
      dequeue := ⟨hrep.queues.dequeue_fst, hrep.queues.dequeue_snd.contents_eq⟩
      dropOldest := fun now => (hrep.queues.dropOldest_tail now).contents_eq
      push := fun task => (hrep.queues.push task).contents_eq
      simulates := fun l t hstep => (step_refines hrep hstep).2
      pushedOnce := hledger.pushed_nodup
      kept := hledger.pushed
      order := hledger.order }
  · rw [Holds.length hrep.queues]
    exact Nat.le_add_right _ _
  · intro i hi hlt
    obtain ⟨task, -, htask⟩ := Holds.alive hrep.queues hi hlt
    exact ⟨task, htask⟩
  · rw [hlength]
    exact_mod_cast hle

/-- The third task evicts the second and has it logged; the third is the one that runs next. -/
def loggedEviction : List LoopLabel :=
  [.submit 0 0, .hostReturn, .submit 1 0, .submit 2 60000, .hostReturn, .settle 0, .callback 0]

theorem queue_is_fifo_evicting : ∃ s,
    Run EventLoop.step loggerLeavesRoom (.new .smallest) loggedEviction s ∧
      (s.evicted = [1] ∧ s.dequeued = [2]) ∧ Fifo .smallest s := by
  obtain ⟨s, hrun, hs⟩ := exists_run_of_exec EventLoop.step loggerLeavesRoom (.new .smallest)
    loggedEviction (fun s => s.evicted = [1] ∧ s.dequeued = [2]) rfl
  exact ⟨s, hrun, of_decide_eq_true hs, queue_is_fifo hrun⟩

/-- The logger that is told of the eviction submits a task of its own, which takes the place. -/
theorem logger_overfills_the_queue : ∃ s,
    Run EventLoop.step anyStep (.new .smallest)
      [.submit 0 0, .hostReturn, .submit 1 0, .submit 2 60000, .submit 3 60000, .hostReturn] s ∧
      s.dispatcher.contents = [3, 2] ∧
      ¬ s.dispatcher.queueLength ≤ DispatcherConfig.smallest.capacity := by
  obtain ⟨s, hrun, hs⟩ := exists_run_of_exec EventLoop.step anyStep (.new .smallest)
    [.submit 0 0, .hostReturn, .submit 1 0, .submit 2 60000, .submit 3 60000, .hostReturn]
    (fun s => s.dispatcher.contents = [3, 2] ∧
      ¬ s.dispatcher.queueLength ≤ DispatcherConfig.smallest.capacity) rfl
  exact ⟨s, hrun, of_decide_eq_true hs⟩

/-! ## The dead prefix -/

/-- An eviction finds a dead prefix that is shorter than the capacity. -/
def evictsEarly (s : EventLoop) : LoopLabel → Prop
  | .submit _ _ => s.dispatcher.overflows = true → s.dispatcher.queueHead < s.dispatcher.capacity
  | _ => True

instance evictsEarly.decidable (s : EventLoop) : ∀ l, Decidable (evictsEarly s l)
  | .submit _ _ => inferInstanceAs (Decidable (_ → _))
  | .hostReturn => inferInstanceAs (Decidable True)
  | .hostThrow => inferInstanceAs (Decidable True)
  | .settle _ => inferInstanceAs (Decidable True)
  | .callback _ => inferInstanceAs (Decidable True)
  | .close _ => inferInstanceAs (Decidable True)
  | .finish _ => inferInstanceAs (Decidable True)
  | .timeout _ => inferInstanceAs (Decidable True)
  | .forceDrop _ => inferInstanceAs (Decidable True)

section
variable {s t : EventLoop} {l : LoopLabel}

theorem submit_queueHead {k : TaskId} {now : Nat} (hstep : s.submit k now = some t) :
    t.dispatcher.queueHead = s.dispatcher.queueHead ∨
      s.dispatcher.overflows = true ∧ t.dispatcher.queueHead = s.dispatcher.queueHead + 1 := by
  unfold EventLoop.submit at hstep
  split at hstep
  · cases hstep
  · dsimp only at hstep
    split at hstep
    · cases hstep
      exact .inl rfl
    · rename_i hopen
      split at hstep
      · cases hstep
        exact .inl rfl
      · rename_i hbusy
        split at hstep
        · rename_i hfull
          have hoverflows : s.dispatcher.overflows = true := by
            simp only [AsyncDispatcher.overflows, Bool.and_eq_true, decide_eq_true_eq]
            exact ⟨⟨by simpa using hopen, Nat.le_of_not_lt hbusy⟩, hfull⟩
          split at hstep
          · cases hstep
            exact .inr ⟨hoverflows, by simp [EventLoop.dropOldest]⟩
          · cases hstep
            exact .inr ⟨hoverflows, by simp [EventLoop.dropOldest, EventLoop.push]⟩
        · cases hstep
          exact .inl rfl

theorem callback_queueHead {k : TaskId} (hstep : s.callback k = some t) :
    t.dispatcher.queueHead = s.dispatcher.queueHead ∨
      t.dispatcher.queueHead ≤ s.dispatcher.capacity := by
  have hdequeue := AsyncDispatcher.dequeue_queueHead (d := s.dispatcher.release)
  unfold EventLoop.callback at hstep
  split at hstep
  · split at hstep
    · rename_i task d hd
      rw [hd] at hdequeue
      cases hstep
      exact hdequeue
    · rename_i d hd
      rw [hd] at hdequeue
      dsimp only at hstep
      split at hstep
      · cases hstep
        exact hdequeue
      · cases hstep
        exact hdequeue
  · cases hstep

/-- Where one step leaves the head: only an eviction may take it past the capacity. -/
theorem step_queueHead (hstep : s.step l = some t) :
    t.dispatcher.queueHead = s.dispatcher.queueHead ∨
      t.dispatcher.queueHead ≤ s.dispatcher.capacity ∨
      (∃ k now, l = .submit k now) ∧ s.dispatcher.overflows = true ∧
        t.dispatcher.queueHead = s.dispatcher.queueHead + 1 := by
  cases l with
  | submit k now =>
    rcases submit_queueHead hstep with hsame | hevict
    · exact .inl hsame
    · exact .inr (.inr ⟨⟨k, now, rfl⟩, hevict⟩)
  | callback k =>
    rcases callback_queueHead hstep with hsame | hle
    · exact .inl hsame
    · exact .inr (.inl hle)
  | hostReturn =>
    simp only [EventLoop.step, EventLoop.hostReturn] at hstep
    split at hstep <;> cases hstep <;> exact .inl rfl
  | hostThrow =>
    simp only [EventLoop.step, EventLoop.hostThrow] at hstep
    split at hstep <;> cases hstep
    exact .inl rfl
  | settle k =>
    simp only [EventLoop.step, EventLoop.settle] at hstep
    split at hstep <;> cases hstep
    exact .inl rfl
  | close c =>
    simp only [EventLoop.step, EventLoop.close] at hstep
    split at hstep
    · split at hstep
      · cases hstep
        exact .inl rfl
      · split at hstep <;> cases hstep <;> exact .inl rfl
    · cases hstep
  | finish c =>
    simp only [EventLoop.step, EventLoop.finish] at hstep
    split at hstep <;> cases hstep
    exact .inl rfl
  | timeout c =>
    simp only [EventLoop.step, EventLoop.timeout] at hstep
    split at hstep
    · split at hstep <;> cases hstep
      exact .inl rfl
    · cases hstep
  | forceDrop c =>
    simp only [EventLoop.step, EventLoop.forceDrop] at hstep
    split at hstep
    · split at hstep <;> cases hstep
      · exact .inr (.inl (Nat.zero_le _))
      · exact .inl rfl
    · cases hstep

theorem queueHead_step (hok : evictsEarly s l)
    (hle : s.dispatcher.queueHead ≤ s.dispatcher.capacity) (hstep : s.step l = some t) :
    t.dispatcher.queueHead ≤ s.dispatcher.capacity := by
  rcases step_queueHead hstep with hsame | hcut | ⟨⟨k, now, rfl⟩, hoverflows, hnext⟩
  · rw [hsame]
    exact hle
  · exact hcut
  · rw [hnext]
    exact hok hoverflows

end

/-- No eviction at a dead prefix of full length, and no logger that refills the queue. -/
def staysCompact (s : EventLoop) (l : LoopLabel) : Prop := evictsEarly s l ∧ loggerLeavesRoom s l

instance staysCompact.decidable (s : EventLoop) (l : LoopLabel) : Decidable (staysCompact s l) :=
  inferInstanceAs (Decidable (_ ∧ _))

/-- **The memory of the queue is bounded** in every run whose evictions find the dead prefix
shorter than the capacity and whose loggers leave the place an eviction made. -/
theorem memory_is_bounded {cfg : DispatcherConfig} {s : EventLoop} {ls : List LoopLabel}
    (h : Run EventLoop.step staysCompact (.new cfg) ls s) :
    s.dispatcher.queueHead ≤ cfg.capacity ∧ s.dispatcher.queue.length ≤ 2 * cfg.capacity := by
  obtain ⟨hrep, hle⟩ := run_length (fun _ _ hl => hl.2) h
  have hhead : Represents cfg s ∧ s.dispatcher.queueHead ≤ cfg.capacity := by
    refine h.invariant (I := fun s => Represents cfg s ∧ s.dispatcher.queueHead ≤ cfg.capacity) ?_
      ⟨represents_new cfg, Nat.zero_le _⟩
    intro s l t hl hstep hs
    refine ⟨(step_refines hs.1 hstep).1, ?_⟩
    have hle := hs.2
    rw [← hs.1.capacity] at hle ⊢
    exact queueHead_step hl.1 hle hstep
  refine ⟨hhead.2, ?_⟩
  calc s.dispatcher.queue.length
      = s.dispatcher.queueHead + s.dispatcher.contents.length := Holds.length hrep.queues
    _ ≤ cfg.capacity + cfg.capacity := Nat.add_le_add hhead.2 hle
    _ = 2 * cfg.capacity := (Nat.two_mul _).symm

theorem memory_is_bounded_evicting : ∃ s,
    Run EventLoop.step staysCompact (.new .smallest) loggedEviction s ∧ s.evicted = [1] ∧
      s.dispatcher.queueHead ≤ DispatcherConfig.smallest.capacity ∧
      s.dispatcher.queue.length ≤ 2 * DispatcherConfig.smallest.capacity := by
  obtain ⟨s, hrun, hs⟩ := exists_run_of_exec EventLoop.step staysCompact (.new .smallest)
    loggedEviction (fun s => s.evicted = [1]) rfl
  exact ⟨s, hrun, of_decide_eq_true hs, memory_is_bounded hrun⟩

/-- Overload without a completion: each eviction leaves one more dead slot. -/
theorem overload_grows_the_array : ∃ s,
    Run EventLoop.step loggerLeavesRoom (.new .smallest)
      [.submit 0 0, .hostReturn, .submit 1 0, .submit 2 0, .submit 3 0] s ∧
      s.dispatcher.queue = [none, none, some 3] ∧
      ¬ s.dispatcher.queueHead ≤ DispatcherConfig.smallest.capacity ∧
      ¬ s.dispatcher.queue.length ≤ 2 * DispatcherConfig.smallest.capacity := by
  obtain ⟨s, hrun, hs⟩ := exists_run_of_exec EventLoop.step loggerLeavesRoom (.new .smallest)
    [.submit 0 0, .hostReturn, .submit 1 0, .submit 2 0, .submit 3 0]
    (fun s => s.dispatcher.queue = [none, none, some 3] ∧
      ¬ s.dispatcher.queueHead ≤ DispatcherConfig.smallest.capacity ∧
      ¬ s.dispatcher.queue.length ≤ 2 * DispatcherConfig.smallest.capacity) rfl
  exact ⟨s, hrun, of_decide_eq_true hs⟩

end OppexSdk.Node
