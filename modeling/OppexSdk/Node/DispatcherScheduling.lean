import OppexSdk.Node.DispatcherRefinement

/-! # The concurrency counter of the Node dispatcher

`active` is changed by `run` and by the completion callback, with code of the host in between that
may call `submit` and `close`. In every state of every run it counts the started tasks whose
callback has not run, work is queued only while all slots are taken, and a `close` waits for
idleness only while some task is still to complete. -/
namespace OppexSdk.Node
open OppexSdk.Lib OppexSdk.Lib.Transition

/-! ## Started and not completed -/

/-- The started tasks whose completion callback has not run. -/
def Scheduler.running (a : Scheduler) : List TaskId := a.started.filter (· ∉ a.completed)

theorem filter_mem_perm {started completed : List TaskId} (hstarted : started.Nodup)
    (hcompleted : completed.Nodup) (hsub : ∀ k ∈ completed, k ∈ started) :
    (started.filter (· ∈ completed)).Perm completed := by
  rw [List.perm_ext_iff_of_nodup (hstarted.filter _) hcompleted]
  intro k
  rw [List.mem_filter, decide_eq_true_iff]
  exact ⟨fun h => h.2, fun h => ⟨hsub k h, h⟩⟩

theorem length_running {a : Scheduler} (hstarted : a.started.Nodup) (hcompleted : a.completed.Nodup)
    (hsub : ∀ k ∈ a.completed, k ∈ a.started) :
    a.running.length + a.completed.length = a.started.length := by
  have hlen := (filter_mem_perm hstarted hcompleted hsub).length_eq
  have hsplit := List.length_eq_length_filter_add (l := a.started) (· ∈ a.completed)
  have hrunning : a.running = a.started.filter (fun k => !decide (k ∈ a.completed)) := by
    simp only [Scheduler.running, decide_not]
  rw [hrunning, hsplit, hlen]
  omega

/-- What is started was submitted, so nothing is started twice. -/
theorem Scheduler.Ledger.started_nodup {a : Scheduler} (h : a.Ledger) : a.started.Nodup := by
  have hle : (a.started : Multiset TaskId) ≤ a.submitted := by
    rw [h.started, h.submitted, h.pushed]
    calc (a.direct : Multiset TaskId) + a.dequeued
        ≤ a.direct + a.dequeued + (a.refused + a.evicted + a.forceDropped + a.tasks +
            pendingTasks a.stack) := Multiset.le_add_right _ _
      _ = a.refused + a.direct + (a.dequeued + a.evicted + a.forceDropped + a.tasks) +
            pendingTasks a.stack := by abel
  exact Multiset.nodup_of_le hle h.nodup

/-! ## The invariant -/

structure Scheduler.Paced (a : Scheduler) : Prop where
  slots : 0 < a.maxConcurrency
  once : a.completed.Nodup
  settled : ∀ k ∈ a.completed, k ∈ a.settled
  started : ∀ k ∈ a.settled, k ∈ a.started
  balance : a.active + a.completed.length = a.started.length
  limit : a.active ≤ a.maxConcurrency
  saturated : a.tasks ≠ [] → a.active = a.maxConcurrency
  /-- A `submit` that is inside the logger will still push. -/
  evicting : ∀ k, .logger k ∈ a.stack → a.active = a.maxConcurrency
  waiting : a.idleWaiters ≠ [] → 0 < a.active
  unresolved : ∀ c, a.closes c = .waiting false → c ∈ a.idleWaiters

theorem paced_new (cfg : DispatcherConfig) : (EventLoop.new cfg).scheduler.Paced where
  slots := cfg.maxConcurrency_pos
  once := List.nodup_nil
  settled := nofun
  started := nofun
  balance := rfl
  limit := Nat.zero_le _
  saturated h := absurd rfl h
  evicting := nofun
  waiting h := absurd rfl h
  unresolved := nofun

section
variable {a b : Scheduler} {l : LoopLabel}

/-- The callback of a task finds the task among the active ones. -/
theorem Scheduler.Paced.active_pos (h : a.Paced) {k : TaskId} (hsettled : k ∈ a.settled)
    (hcompleted : k ∉ a.completed) : 0 < a.active := by
  have hnodup : (k :: a.completed).Nodup := List.nodup_cons.mpr ⟨hcompleted, h.once⟩
  have hsub : k :: a.completed ⊆ a.started := by
    intro j hj
    rcases List.mem_cons.mp hj with rfl | hj
    · exact h.started j hsettled
    · exact h.started j (h.settled j hj)
  have hlen := (hnodup.subperm hsub).length_le
  have hbalance := h.balance
  rw [List.length_cons] at hlen
  omega

theorem Scheduler.Paced.completes (h : a.Paced) {k : TaskId} (hcompleted : k ∉ a.completed) :
    (a.completed ++ [k]).Nodup := by
  rw [← List.concat_eq_append]
  exact h.once.concat hcompleted

theorem Scheduler.Paced.completed_settled (h : a.Paced) {k : TaskId} (hsettled : k ∈ a.settled) :
    ∀ j ∈ a.completed ++ [k], j ∈ a.settled := by
  rw [List.forall_mem_append, List.forall_mem_singleton]
  exact ⟨h.settled, hsettled⟩

/-- One task less is active and one more is completed. -/
theorem Scheduler.Paced.release_balance (h : a.Paced) {k : TaskId} (hsettled : k ∈ a.settled)
    (hcompleted : k ∉ a.completed) :
    a.active - 1 + (a.completed ++ [k]).length = a.started.length := by
  have hpos := h.active_pos hsettled hcompleted
  have hbalance := h.balance
  rw [List.length_append, List.length_singleton]
  omega

theorem Scheduler.Paced.full (h : a.Paced) (hbusy : a.maxConcurrency ≤ a.active) :
    a.active = a.maxConcurrency := Nat.le_antisymm h.limit hbusy

/-- A close call that moves on from where it is waiting, or does not wait. -/
theorem Scheduler.Paced.unresolved_update (h : a.Paced) {c : Nat} {pc : ClosePc}
    (hpc : pc ≠ .waiting false) (x : Nat)
    (hx : Function.update a.closes c pc x = .waiting false) : x ∈ a.idleWaiters := by
  by_cases hxc : x = c
  · subst hxc
    rw [Function.update_self] at hx
    exact absurd hx hpc
  · rw [Function.update_of_ne hxc] at hx
    exact h.unresolved x hx

/-- After the waiters are told, no close call waits unresolved. -/
theorem Scheduler.Paced.notify_resolves (h : a.Paced) (c : Nat) :
    notify a.idleWaiters a.closes c ≠ .waiting false := by
  intro hc
  unfold notify at hc
  split at hc
  · split at hc
    · cases hc
    · rename_i hnot
      exact hnot false hc
  · rename_i hout
    exact hout (h.unresolved c hc)

/-- A dispatcher that is not idle has something running. -/
theorem Scheduler.Paced.busy_pos (h : a.Paced) (hbusy : a.active = 0 → a.tasks ≠ []) :
    0 < a.active := by
  apply Nat.pos_of_ne_zero
  intro hzero
  have hfull := h.saturated (hbusy hzero)
  have hslots := h.slots
  omega

/-- A close call that starts to wait. -/
theorem Scheduler.Paced.unresolved_wait (h : a.Paced) {c : Nat} (x : Nat)
    (hx : Function.update a.closes c (.waiting false) x = .waiting false) :
    x ∈ a.idleWaiters ++ [c] := by
  by_cases hxc : x = c
  · exact List.mem_append_right _ (List.mem_singleton.mpr hxc)
  · rw [Function.update_of_ne hxc] at hx
    exact List.mem_append_left _ (h.unresolved x hx)

/-- The slot of a completed task is taken at once by the oldest one that waits. -/
theorem Scheduler.Paced.slot_taken (h : a.Paced) {k task : TaskId} {rest : List TaskId}
    (hsettled : k ∈ a.settled) (hcompleted : k ∉ a.completed) (htasks : a.tasks = task :: rest) :
    a.active - 1 + 1 = a.maxConcurrency := by
  have hpos := h.active_pos hsettled hcompleted
  have hfull : a.active = a.maxConcurrency := by
    refine h.saturated ?_
    rw [htasks]
    exact List.cons_ne_nil task rest
  omega

theorem mem_settled_append {k : TaskId} {xs ys : List TaskId} (h : ∀ j ∈ xs, j ∈ ys) :
    ∀ j ∈ xs, j ∈ ys ++ [k] := fun j hj => List.mem_append_left _ (h j hj)

theorem paced_step (h : a.Paced) (hmove : a.Moves l b) : b.Paced := by
  cases hmove with
  | refuse now _ _ => exact { h with }
  | start now _ _ hfree =>
    refine { h with
      started := mem_settled_append h.started
      balance := ?_
      limit := hfree
      saturated := fun htasks => absurd (h.saturated htasks) (Nat.ne_of_lt hfree)
      evicting := ?_
      waiting := fun _ => Nat.succ_pos _ }
    · have hbalance := h.balance
      show a.active + 1 + a.completed.length = (a.started ++ [_]).length
      rw [List.length_append, List.length_singleton]
      omega
    · intro k hk
      rcases List.mem_cons.mp hk with hk | hk
      · cases hk
      · exact absurd (h.evicting k hk) (Nat.ne_of_lt hfree)
  | push now _ _ hbusy _ => exact { h with saturated := fun _ => h.full hbusy }
  | evict now _ _ hbusy _ _ => exact { h with saturated := fun _ => h.full hbusy }
  | evictLog now _ _ hbusy _ _ =>
    exact { h with
      saturated := fun _ => h.full hbusy
      evicting := fun _ _ => h.full hbusy }
  | taskReturns hstack =>
    refine { h with evicting := fun k hk => h.evicting k ?_ }
    rw [hstack]
    exact List.mem_cons_of_mem _ hk
  | @loggerReturns k stack hstack =>
    have hfull : a.active = a.maxConcurrency := by
      refine h.evicting k ?_
      rw [hstack]
      exact List.mem_cons_self
    exact { h with saturated := fun _ => hfull, evicting := fun _ _ => hfull }
  | loggerThrows hstack =>
    refine { h with evicting := fun k hk => h.evicting k ?_ }
    rw [hstack]
    exact List.mem_cons_of_mem _ hk
  | settle hstarted hsettled =>
    refine { h with settled := mem_settled_append h.settled, started := ?_ }
    show ∀ j ∈ a.settled ++ [_], j ∈ a.started
    rw [List.forall_mem_append, List.forall_mem_singleton]
    exact ⟨h.started, hstarted⟩
  | @next k task rest hstack hsettled hcompleted htasks =>
    have hfull := h.slot_taken hsettled hcompleted htasks
    refine { h with
      once := h.completes hcompleted
      settled := h.completed_settled hsettled
      started := mem_settled_append h.started
      balance := ?_
      limit := Nat.le_of_eq hfull
      saturated := fun _ => hfull
      evicting := fun _ _ => hfull
      waiting := fun _ => Nat.succ_pos _ }
    have hbalance := h.release_balance hsettled hcompleted
    have hlen : (a.started ++ [task]).length = a.started.length + 1 := by simp
    show a.active - 1 + 1 + (a.completed ++ [k]).length = (a.started ++ [task]).length
    omega
  | @idle k hstack hsettled hcompleted htasks hzero =>
    exact { h with
      once := h.completes hcompleted
      settled := h.completed_settled hsettled
      balance := h.release_balance hsettled hcompleted
      limit := Nat.le_trans (Nat.sub_le _ _) h.limit
      saturated := fun hne => absurd htasks hne
      evicting := fun j hj => by rw [hstack] at hj; cases hj
      waiting := fun hne => absurd rfl hne
      unresolved := fun c hc => absurd hc (h.notify_resolves c) }
  | @pause k hstack hsettled hcompleted htasks hbusy =>
    exact { h with
      once := h.completes hcompleted
      settled := h.completed_settled hsettled
      balance := h.release_balance hsettled hcompleted
      limit := Nat.le_trans (Nat.sub_le _ _) h.limit
      saturated := fun hne => absurd htasks hne
      evicting := fun j hj => by rw [hstack] at hj; cases hj
      waiting := fun _ => Nat.pos_of_ne_zero hbusy }
  | closeAgain _ _ => exact { h with unresolved := h.unresolved_update nofun }
  | closeIdle _ _ _ _ => exact { h with unresolved := h.unresolved_update nofun }
  | @closeWait c _ _ hbusy =>
    exact { h with waiting := fun _ => h.busy_pos hbusy, unresolved := h.unresolved_wait }
  | finish _ _ => exact { h with unresolved := h.unresolved_update nofun }
  | timeout _ _ => exact { h with unresolved := h.unresolved_update nofun }
  | forceDrop _ _ =>
    exact { h with
      saturated := fun hne => absurd rfl hne
      unresolved := h.unresolved_update nofun }

theorem Scheduler.Paced.callback_pos (h : a.Paced) {k : TaskId} (hmove : a.Moves (.callback k) b) :
    0 < a.active := by
  cases hmove with
  | next _ hsettled hcompleted _ => exact h.active_pos hsettled hcompleted
  | idle _ hsettled hcompleted _ _ => exact h.active_pos hsettled hcompleted
  | pause _ hsettled hcompleted _ _ => exact h.active_pos hsettled hcompleted

/-- The task is completed, and its slot is free again unless the oldest queued task takes it. -/
theorem Scheduler.Paced.callback_completes (h : a.Paced) {k : TaskId}
    (hmove : a.Moves (.callback k) b) :
    b.completed = a.completed ++ [k] ∧
      ((a.tasks = [] ∧ b.active + 1 = a.active ∧ b.started = a.started) ∨
        ∃ task, a.tasks = task :: b.tasks ∧ b.active = a.active ∧
          b.started = a.started ++ [task]) := by
  have hpos := h.callback_pos hmove
  cases hmove with
  | @next _ task _ _ _ _ htasks =>
    exact ⟨rfl, Or.inr ⟨task, htasks, Nat.sub_add_cancel hpos, rfl⟩⟩
  | idle _ _ _ htasks _ => exact ⟨rfl, Or.inl ⟨htasks, Nat.sub_add_cancel hpos, rfl⟩⟩
  | pause _ _ _ htasks _ => exact ⟨rfl, Or.inl ⟨htasks, Nat.sub_add_cancel hpos, rfl⟩⟩

/-- The callback that leaves nothing active is the one that tells every waiting close. -/
theorem Scheduler.Paced.last_callback (h : a.Paced) {k c : Nat} (hmove : a.Moves (.callback k) b)
    (hidle : b.active = 0) (hc : a.closes c = .waiting false) : b.closes c = .waiting true := by
  cases hmove with
  | next _ _ _ _ => exact absurd hidle (Nat.succ_ne_zero _)
  | pause _ _ _ _ hbusy => exact absurd hidle hbusy
  | idle _ _ _ _ _ =>
    show notify a.idleWaiters a.closes c = .waiting true
    rw [notify, if_pos (h.unresolved c hc), hc]

end

theorem run_paced {cfg : DispatcherConfig} {ok : EventLoop → LoopLabel → Prop} {s : EventLoop}
    {ls : List LoopLabel} (h : Run EventLoop.step ok (.new cfg) ls s) :
    Represents cfg s ∧ s.scheduler.Paced := by
  refine h.invariant (I := fun s => Represents cfg s ∧ s.scheduler.Paced) ?_
    ⟨represents_new cfg, paced_new cfg⟩
  intro s l t _ hstep hs
  obtain ⟨hrep, hmove⟩ := step_refines hs.1 hstep
  exact ⟨hrep, paced_step hs.2 hmove⟩

/-! ## Scheduling -/

/-- No slot idles while work is queued, and a close that waits for idleness is resolved by the
callback that makes the dispatcher idle. -/
structure Scheduling (cfg : DispatcherConfig) (s : EventLoop) : Prop where
  active_eq : s.dispatcher.active = (s.started.filter (· ∉ s.completed)).length
  active_le : s.dispatcher.active ≤ cfg.maxConcurrency
  /-- `active--` never makes the counter negative. -/
  active_pos : ∀ k t, s.step (.callback k) = some t → 0 < s.dispatcher.active
  /-- A callback completes its task, and frees the slot or starts the oldest queued task in it. -/
  completes : ∀ k t, s.step (.callback k) = some t → t.completed = s.completed ++ [k] ∧
    ((s.dispatcher.contents = [] ∧ t.dispatcher.active + 1 = s.dispatcher.active ∧
        t.started = s.started) ∨
      ∃ task, s.dispatcher.contents = task :: t.dispatcher.contents ∧
        t.dispatcher.active = s.dispatcher.active ∧ t.started = s.started ++ [task])
  saturated : 0 < s.dispatcher.queueLength → s.dispatcher.active = cfg.maxConcurrency
  waiters : s.idleWaiters ≠ [] → 0 < s.dispatcher.active
  waiting : ∀ c, s.closes c = .waiting false → c ∈ s.idleWaiters
  resolves : ∀ k t, s.step (.callback k) = some t → t.dispatcher.active = 0 →
    t.idleWaiters = [] ∧ ∀ c, s.closes c = .waiting false → t.closes c = .waiting true

/-- **Scheduling.** In every state of every run, the code of the host may be running or not. -/
theorem scheduling_invariant {cfg : DispatcherConfig} {s : EventLoop} {ls : List LoopLabel}
    (h : Run EventLoop.step anyStep (.new cfg) ls s) : Scheduling cfg s := by
  obtain ⟨hrep, hpaced⟩ := run_paced h
  obtain ⟨_, hledger⟩ := run_refines h
  have hcompleted : ∀ k ∈ s.completed, k ∈ s.started := fun k hk =>
    hpaced.started k (hpaced.settled k hk)
  refine ⟨?_, ?_, ?_, ?_, ?_, hpaced.waiting, hpaced.unresolved, ?_⟩
  · have hlen := length_running hledger.started_nodup hpaced.once hcompleted
    have hbalance := hpaced.balance
    show s.scheduler.active = s.scheduler.running.length
    omega
  · have hlimit : s.dispatcher.active ≤ s.dispatcher.maxConcurrency := hpaced.limit
    exact hrep.maxConcurrency ▸ hlimit
  · intro k t hstep
    exact hpaced.callback_pos (step_refines hrep hstep).2
  · intro k t hstep
    exact hpaced.callback_completes (step_refines hrep hstep).2
  · intro hqueue
    rw [← hrep.maxConcurrency]
    refine hpaced.saturated ?_
    intro hnil
    have hcontents : s.dispatcher.contents = [] := hnil
    rw [hrep.queues.queueLength_eq, hcontents] at hqueue
    exact absurd hqueue (by decide)
  · intro k t hstep hidle
    have hmove := (step_refines hrep hstep).2
    refine ⟨?_, fun c hc => hpaced.last_callback hmove hidle hc⟩
    by_contra hne
    have hwaiting := (paced_step hpaced hmove).waiting hne
    exact absurd hidle (Nat.pos_iff_ne_zero.mp hwaiting)

/-- The first task submits the second before it waits; the close is called while one runs and one
is queued. The callback of the first starts the second, which is settled at the end. -/
def closeWhileBusy : List LoopLabel :=
  [.submit 0 0, .submit 1 0, .hostReturn, .close 0, .settle 0, .callback 0, .hostReturn, .settle 1]

/-- The callback of the second task is the one that lets the close go on. -/
theorem scheduling_invariant_while_closing : ∃ s t,
    Run EventLoop.step anyStep (.new .smallest) closeWhileBusy s ∧ Scheduling .smallest s ∧
      s.closes 0 = .waiting false ∧ s.step (.callback 1) = some t ∧ t.closes 0 = .waiting true := by
  obtain ⟨s, hrun, hs⟩ := exists_run_of_exec EventLoop.step anyStep (.new .smallest) closeWhileBusy
    (fun s => s.closes 0 = .waiting false ∧
      (s.step (.callback 1)).any fun t => t.dispatcher.active = 0) rfl
  obtain ⟨hclose, hstep⟩ := of_decide_eq_true hs
  obtain ⟨t, ht, hidle⟩ := (Option.any_eq_true _ _).mp hstep
  have hscheduling := scheduling_invariant hrun
  have hresolved := (hscheduling.resolves 1 t ht (of_decide_eq_true hidle)).2 0 hclose
  exact ⟨s, t, hrun, hscheduling, hclose, ht, hresolved⟩

end OppexSdk.Node
