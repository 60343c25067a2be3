import OppexSdk.Rust.Dispatcher
import Mathlib.Tactic.Abel

/-! # Every task of the Rust dispatcher is accounted for

One invariant relates the queue, the workers and the history: the tasks pushed are, as a multiset,
the ones evicted, queued, abandoned and popped, and the ones popped are those finished, lost to a
panic and executing. With the numbers of the `submit` calls distinct, each accepted task is then
in exactly one place. -/
namespace OppexSdk.Rust.Dispatcher
open OppexSdk.Lib OppexSdk.Lib.Transition

variable {cfg : Config}

/-- The tasks the workers are executing, together. -/
def executing {n : Nat} (workers : Fin n → WorkerPc) : Multiset TaskId :=
  ∑ w, (workers w).task

/-- The call got past the critical section with its task pushed. -/
def SubmitPc.Pushed : SubmitPc → Prop
  | .notifying _ => True
  | .returned accepted => accepted = true
  | .outside => False

structure Accounted (s : AsyncDispatcher cfg) : Prop where
  nodup : s.accepted.Nodup
  entered : ∀ k ∈ s.accepted, s.submits k ≠ .outside
  pushed : ∀ k, (s.submits k).Pushed → k ∈ s.accepted
  placed : (s.accepted : Multiset TaskId) = s.evicted + s.tasks + s.abandoned + s.started
  popped : (s.started : Multiset TaskId) = s.finished + s.panicked + executing s.workers
  order : (s.started ++ s.tasks).Sublist s.accepted
  bounded : s.tasks.length ≤ cfg.capacity
  active : s.active = (executing s.workers).card + s.panicked.length

section
variable {n : Nat} {f : Fin n → WorkerPc} {w : Fin n} {task : TaskId} {pc : WorkerPc}

theorem executing_update (x : WorkerPc) :
    executing (Function.update f w x) + (f w).task = executing f + x.task :=
  sum_update WorkerPc.task f w x

/-- A worker takes a task out of the queue. -/
theorem executing_take (task : TaskId) (hw : f w = .polling) :
    executing (Function.update f w (.running task)) = executing f + {task} := by
  simpa [hw, WorkerPc.task] using executing_update (f := f) (w := w) (.running task)

/-- A worker stops executing, because the task returned or panicked. -/
theorem executing_release (pc : WorkerPc) (hw : f w = .running task) (hpc : pc.task = 0) :
    executing f = executing (Function.update f w pc) + {task} := by
  have h := executing_update (f := f) (w := w) pc
  rw [hw, hpc, add_zero] at h
  exact h.symm

/-- A worker moves that holds no task before and after. -/
theorem executing_idle (hw : (f w).task = 0) (hpc : pc.task = 0) :
    executing (Function.update f w pc) = executing f := by
  have h := executing_update (f := f) (w := w) pc
  rwa [hw, hpc, add_zero, add_zero] at h

end

theorem Accounted.init : Accounted (new cfg) where
  nodup := List.nodup_nil
  entered := by intro k hk; cases hk
  pushed := by intro k hk; exact hk.elim
  placed := rfl
  popped := by simp [new, executing, WorkerPc.task]
  order := List.Sublist.refl _
  bounded := Nat.zero_le _
  active := by simp [new, executing, WorkerPc.task]

section
variable {s : AsyncDispatcher cfg}

/-- A call that moves on without pushing: a refusal, or the return after the notification. -/
theorem Accounted.submits_update (h : Accounted s) {k : TaskId} (pc : SubmitPc)
    (hpc : pc ≠ .outside) (hk : pc.Pushed → (s.submits k).Pushed) :
    (∀ j ∈ s.accepted, Function.update s.submits k pc j ≠ .outside) ∧
      ∀ j, (Function.update s.submits k pc j).Pushed → j ∈ s.accepted := by
  constructor
  · exact (Function.forall_update_iff s.submits fun j pc => j ∈ s.accepted → pc ≠ .outside).mpr
      ⟨fun _ => hpc, fun j _ => h.entered j⟩
  · exact (Function.forall_update_iff s.submits fun j pc => pc.Pushed → j ∈ s.accepted).mpr
      ⟨fun hp => h.pushed k (hk hp), fun j _ => h.pushed j⟩

/-- A call that pushes: its number is new to the history. -/
theorem Accounted.accepted_push (h : Accounted s) {k : TaskId} (dropped : Option Nat)
    (hk : s.submits k = .outside) :
    (s.accepted ++ [k]).Nodup ∧
      (∀ j ∈ s.accepted ++ [k], Function.update s.submits k (.notifying dropped) j ≠ .outside) ∧
      ∀ j, (Function.update s.submits k (.notifying dropped) j).Pushed →
        j ∈ s.accepted ++ [k] := by
  have hnew : k ∉ s.accepted := fun hm => h.entered k hm hk
  refine ⟨?_, ?_, ?_⟩
  · rw [← List.concat_eq_append]
    exact h.nodup.concat hnew
  · refine (Function.forall_update_iff s.submits fun j pc =>
      j ∈ s.accepted ++ [k] → pc ≠ .outside).mpr ⟨by simp, fun j he hj => ?_⟩
    exact h.entered j (by simpa [he] using hj)
  · exact (Function.forall_update_iff s.submits fun j pc =>
      pc.Pushed → j ∈ s.accepted ++ [k]).mpr
      ⟨by simp, fun j _ hp => List.mem_append_left _ (h.pushed j hp)⟩

theorem Accounted.push (h : Accounted s) {k : TaskId} (hk : s.submits k = .outside)
    (hcap : s.tasks.length < cfg.capacity) :
    Accounted { s with
      tasks := s.tasks ++ [k]
      submits := Function.update s.submits k (.notifying none)
      accepted := s.accepted ++ [k] } := by
  obtain ⟨hn, he, hp⟩ := h.accepted_push none hk
  refine ⟨hn, he, hp, ?_, h.popped, ?_, ?_, h.active⟩
  · simp only [← Multiset.coe_add, h.placed]; abel
  · rw [← List.append_assoc]; exact h.order.append (List.Sublist.refl _)
  · simp only [List.length_append, List.length_singleton]; omega

theorem Accounted.evict (h : Accounted s) {k oldest : TaskId} {rest : List TaskId}
    {dropped : Option Nat} {dropLogger : RateLimitedDropLogger} (hk : s.submits k = .outside)
    (htasks : s.tasks = oldest :: rest) :
    Accounted { s with
      tasks := rest ++ [k]
      dropLogger := dropLogger
      submits := Function.update s.submits k (.notifying dropped)
      accepted := s.accepted ++ [k]
      evicted := s.evicted ++ [oldest] } := by
  obtain ⟨hn, he, hp⟩ := h.accepted_push dropped hk
  refine ⟨hn, he, hp, ?_, h.popped, ?_, ?_, h.active⟩
  · simp only [← Multiset.coe_add, h.placed, htasks, ← Multiset.singleton_add,
      ← Multiset.cons_coe]
    abel
  · -- evicting drops the head of the queue, and a sublist may skip an element
    have hskip : (s.started ++ rest).Sublist s.accepted :=
      ((List.sublist_cons_self oldest rest).append_left s.started).trans (htasks ▸ h.order)
    rw [← List.append_assoc]; exact hskip.append (List.Sublist.refl _)
  · have := h.bounded
    simpa [htasks] using this

theorem Accounted.pop (h : Accounted s) {w : Fin cfg.workerCount} {task : TaskId}
    {rest : List TaskId} (hw : s.workers w = .polling) (htasks : s.tasks = task :: rest) :
    Accounted { s with
      tasks := rest
      active := s.active + 1
      workers := Function.update s.workers w (.running task)
      started := s.started ++ [task] } := by
  have hex := executing_take task hw
  refine ⟨h.nodup, h.entered, h.pushed, ?_, ?_, ?_, ?_, ?_⟩
  · simp only [h.placed, htasks, ← Multiset.coe_add, ← Multiset.singleton_add,
      ← Multiset.cons_coe]
    abel
  · simp only [← Multiset.coe_add, h.popped, Multiset.coe_singleton, hex]
    abel
  · rw [List.append_assoc, List.singleton_append, ← htasks]; exact h.order
  · have := h.bounded; rw [htasks, List.length_cons] at this; exact Nat.le_of_succ_le this
  · simp only [hex, Multiset.card_add, Multiset.card_singleton, h.active]
    omega

theorem Accounted.finish (h : Accounted s) {w : Fin cfg.workerCount} {task : TaskId}
    (hw : s.workers w = .running task) :
    Accounted { s with
      active := s.active - 1
      workers := Function.update s.workers w .notifying
      finished := s.finished ++ [task] } := by
  have hex := executing_release .notifying hw rfl
  refine ⟨h.nodup, h.entered, h.pushed, h.placed, ?_, h.order, h.bounded, ?_⟩
  · rw [h.popped, hex]
    simp only [← Multiset.coe_add, Multiset.coe_singleton]
    abel
  · have ha := h.active
    rw [hex, Multiset.card_add, Multiset.card_singleton] at ha
    simp only [ha]
    omega

theorem Accounted.panic (h : Accounted s) {w : Fin cfg.workerCount} {task : TaskId}
    (hw : s.workers w = .running task) :
    Accounted { s with
      workers := Function.update s.workers w .panicked
      panicked := s.panicked ++ [task] } := by
  have hex := executing_release .panicked hw rfl
  refine ⟨h.nodup, h.entered, h.pushed, h.placed, ?_, h.order, h.bounded, ?_⟩
  · rw [h.popped, hex]
    simp only [← Multiset.coe_add, Multiset.coe_singleton]
    abel
  · have ha := h.active
    rw [hex, Multiset.card_add, Multiset.card_singleton] at ha
    simp only [ha, List.length_append, List.length_singleton]
    omega

theorem Accounted.idle (h : Accounted s) {w : Fin cfg.workerCount} {pc : WorkerPc}
    (changed : Condvar (Thread cfg.workerCount)) (hw : (s.workers w).task = 0)
    (hpc : pc.task = 0) :
    Accounted { s with changed := changed, workers := Function.update s.workers w pc } := by
  have hex := executing_idle hw hpc
  exact ⟨h.nodup, h.entered, h.pushed, h.placed, by simpa only [hex] using h.popped, h.order,
    h.bounded, by simpa only [hex] using h.active⟩

/-- `drain_until` abandons the whole queue at once. -/
theorem Accounted.abandon (h : Accounted s) {closes : Nat → ClosePc} :
    Accounted { s with
      draining := false
      tasks := []
      closes := closes
      abandoned := s.abandoned ++ s.tasks } := by
  refine ⟨h.nodup, h.entered, h.pushed, ?_, h.popped, ?_, Nat.zero_le _, h.active⟩
  · simp only [h.placed, ← Multiset.coe_add, Multiset.coe_nil]; abel
  · simpa using (List.sublist_append_left s.started s.tasks).trans h.order

end

theorem accounted_step {s t : AsyncDispatcher cfg} {l : Label cfg} (hstep : step s l = some t)
    (h : Accounted s) : Accounted t := by
  cases step_moves hstep with
  | refuse hk =>
    obtain ⟨he, hp⟩ := h.submits_update (.returned false) (by simp)
      (fun hf => absurd hf (by simp [SubmitPc.Pushed]))
    exact ⟨h.nodup, he, hp, h.placed, h.popped, h.order, h.bounded, h.active⟩
  | push hk _ hcap => exact h.push hk hcap
  | evict hk _ htasks => exact h.evict hk htasks
  | submitNotify hk =>
    obtain ⟨he, hp⟩ := h.submits_update (.returned true) (by simp)
      (fun _ => by rw [hk]; trivial)
    exact ⟨h.nodup, he, hp, h.placed, h.popped, h.order, h.bounded, h.active⟩
  | pop hw _ htasks => exact h.pop hw htasks
  | exit hw => exact h.idle s.changed (by rw [hw]; rfl) rfl
  | finish hw => exact h.finish hw
  | panic hw => exact h.panic hw
  | workerNotify hw => exact h.idle _ (by rw [hw]; rfl) rfl
  | drainStop => exact h.abandon
  | park | closeAgain | close | drainWait | closeNotify | wake =>
    exact ⟨h.nodup, h.entered, h.pushed, h.placed, h.popped, h.order, h.bounded, h.active⟩

theorem accounted_run {ok : AsyncDispatcher cfg → Label cfg → Prop} {s : AsyncDispatcher cfg}
    {ls : List (Label cfg)} (h : Run step ok (new cfg) ls s) : Accounted s :=
  h.invariant (fun _ => accounted_step) .init

/-- A task a worker executes was accepted. -/
theorem Accounted.executing_accepted {s : AsyncDispatcher cfg} (h : Accounted s)
    {w : Fin cfg.workerCount} {k : TaskId} (hw : s.workers w = .running k) : k ∈ s.accepted := by
  have hexec : k ∈ executing s.workers := by
    rw [executing, Multiset.mem_sum]
    exact ⟨w, Finset.mem_univ w, by rw [hw]; exact Multiset.mem_singleton_self k⟩
  have hstarted : k ∈ (s.started : Multiset TaskId) := by
    rw [h.popped]
    exact Multiset.mem_add.mpr (.inr hexec)
  have haccepted : k ∈ (s.accepted : Multiset TaskId) := by
    rw [h.placed]
    exact Multiset.mem_add.mpr (.inr hstarted)
  exact Multiset.mem_coe.mp haccepted

/-- A call moves in its own critical section, and then from the notification to its return. -/
theorem submits_step {s t : AsyncDispatcher cfg} {l : Label cfg} (hstep : step s l = some t)
    (k : TaskId) :
    t.submits k = s.submits k ∨
      ((∃ elapsed, l = .submit k elapsed) ∧ s.submits k = .outside) ∨
      (∃ dropped, s.submits k = .notifying dropped) ∧ t.submits k = .returned true := by
  have henter : ∀ j pc elapsed, s.submits j = .outside →
      Function.update s.submits j pc k = s.submits k ∨
        (∃ e, (Label.submit j elapsed : Label cfg) = .submit k e) ∧ s.submits k = .outside := by
    intro j pc elapsed hj
    by_cases he : k = j
    · exact .inr ⟨⟨elapsed, by rw [he]⟩, by rw [he]; exact hj⟩
    · exact .inl (Function.update_of_ne he _ _)
  cases step_moves hstep with
  | refuse hj => exact (henter _ _ _ hj).imp_right .inl
  | push hj => exact (henter _ _ _ hj).imp_right .inl
  | evict hj => exact (henter _ _ _ hj).imp_right .inl
  | @submitNotify j dropped _ _ hj =>
    by_cases he : k = j
    · subst he
      exact .inr (.inr ⟨⟨dropped, hj⟩, Function.update_self _ _ _⟩)
    · exact .inl (Function.update_of_ne he _ _)
  | _ => exact .inl rfl

/-- Only a call that pushed its task is in the history of accepted ones. -/
theorem accepted_pushed_step {s t : AsyncDispatcher cfg} {l : Label cfg}
    (hstep : step s l = some t) (h : ∀ k ∈ s.accepted, (s.submits k).Pushed) :
    ∀ k ∈ t.accepted, (t.submits k).Pushed := by
  have hpush : ∀ j dropped, ∀ k ∈ s.accepted ++ [j],
      (Function.update s.submits j (.notifying dropped) k).Pushed := by
    intro j dropped
    refine (Function.forall_update_iff s.submits fun k pc =>
      k ∈ s.accepted ++ [j] → pc.Pushed).mpr ⟨fun _ => trivial, fun k he hk => ?_⟩
    exact h k (by simpa [he] using hk)
  have hkeep : ∀ j pc, ((s.submits j).Pushed → pc.Pushed) → ∀ k ∈ s.accepted,
      (Function.update s.submits j pc k).Pushed := by
    intro j pc hpc
    exact (Function.forall_update_iff s.submits fun k pc => k ∈ s.accepted → pc.Pushed).mpr
      ⟨fun hk => hpc (h j hk), fun k _ => h k⟩
  cases step_moves hstep with
  | push => exact hpush _ _
  | evict => exact hpush _ _
  | refuse hj => exact hkeep _ _ fun hp => by rw [hj] at hp; exact hp.elim
  | submitNotify => exact hkeep _ _ fun _ => rfl
  | _ => exact h

/-! ## Where an accepted task is -/

/-- Runs in which every task returns normally. -/
def returnsNormally (_ : AsyncDispatcher cfg) : Label cfg → Prop
  | .panic _ => False
  | _ => True

instance returnsNormally.decidable (s : AsyncDispatcher cfg) (l : Label cfg) :
    Decidable (returnsNormally s l) := by
  cases l <;> unfold returnsNormally <;> infer_instance

theorem panicked_nil {s : AsyncDispatcher cfg} {ls : List (Label cfg)}
    (h : Run step returnsNormally (new cfg) ls s) : s.panicked = [] := by
  refine h.invariant (I := fun s => s.panicked = []) ?_ rfl
  intro s l t hok hstep hs
  cases step_moves hstep with
  | panic _ => exact hok.elim
  | _ => exact hs

inductive Place (n : Nat)
  | queued
  | executing (w : Fin n)
  | finished
  | evicted
  | abandoned

def AsyncDispatcher.At (s : AsyncDispatcher cfg) (k : TaskId) : Place cfg.workerCount → Prop
  | .queued => k ∈ s.tasks
  | .executing w => s.workers w = .running k
  | .finished => k ∈ s.finished
  | .evicted => k ∈ s.evicted
  | .abandoned => k ∈ s.abandoned

def WorkerPc.isRunning : WorkerPc → Bool
  | .running _ => true
  | _ => false

theorem card_executing {n : Nat} (f : Fin n → WorkerPc) :
    (executing f).card = (Finset.univ.filter fun w => (f w).isRunning).card := by
  rw [executing, Multiset.card_sum, Finset.card_filter]
  refine Finset.sum_congr rfl ?_
  intro w _
  cases f w <;> simp [WorkerPc.task, WorkerPc.isRunning]

theorem count_executing {n : Nat} (f : Fin n → WorkerPc) (k : TaskId) :
    (executing f).count k = (Finset.univ.filter fun w => f w = .running k).card := by
  rw [executing, Multiset.count_sum', Finset.card_filter]
  refine Finset.sum_congr rfl ?_
  intro w _
  cases f w with
  | running t => simp [WorkerPc.task, Multiset.count_singleton, eq_comm]
  | _ => simp [WorkerPc.task]

/-- An accepted task occurs once in the lists and the workers' hands taken together. -/
theorem Accounted.count_one {s : AsyncDispatcher cfg} (h : Accounted s) (hp : s.panicked = [])
    {k : TaskId} (hk : k ∈ s.accepted) :
    s.evicted.count k + s.tasks.count k + s.abandoned.count k + s.finished.count k +
      (executing s.workers).count k = 1 := by
  have hone : (s.accepted : Multiset TaskId).count k = 1 := by
    rw [Multiset.coe_count]; exact List.count_eq_one_of_mem h.nodup hk
  rw [h.placed, h.popped, hp] at hone
  simpa [Multiset.count_add, add_assoc] using hone

theorem Accounted.place_unique {s : AsyncDispatcher cfg} (h : Accounted s)
    (hnp : s.panicked = []) {k : TaskId} (hk : k ∈ s.accepted) {p q : Place cfg.workerCount}
    (hp : s.At k p) (hq : s.At k q) : p = q := by
  have hone := h.count_one hnp hk
  rw [count_executing] at hone
  have hrun : ∀ w, s.workers w = .running k →
      0 < (Finset.univ.filter fun w => s.workers w = .running k).card :=
    fun w hw => Finset.card_pos.mpr ⟨w, by simp [hw]⟩
  cases p <;> cases q <;> simp only [AsyncDispatcher.At, ← List.count_pos_iff (a := k)] at hp hq
  case executing.executing v w =>
    have hle : (Finset.univ.filter fun w => s.workers w = .running k).card ≤ 1 := by omega
    rw [Finset.card_le_one.mp hle v (by simp [hp]) w (by simp [hq])]
  all_goals
    first
    | rfl
    | omega
    | (have hpos := hrun _ hp; omega)
    | (have hpos := hrun _ hq; omega)

theorem Accounted.place_exists {s : AsyncDispatcher cfg} (h : Accounted s)
    (hnp : s.panicked = []) {k : TaskId} (hk : k ∈ s.accepted) : ∃ p, s.At k p := by
  by_contra hno
  have hno : ∀ p, ¬ s.At k p := fun p hp => hno ⟨p, hp⟩
  have hone := h.count_one hnp hk
  have hidle : (executing s.workers).count k = 0 := by
    rw [count_executing, Finset.card_eq_zero, Finset.filter_eq_empty_iff]
    exact fun w _ => hno (.executing w)
  rw [List.count_eq_zero.mpr (hno .evicted), List.count_eq_zero.mpr (hno .queued),
    List.count_eq_zero.mpr (hno .abandoned), List.count_eq_zero.mpr (hno .finished), hidle] at hone
  omega

/-! ## What one `submit` evicts -/

theorem submit_evicts {s t : AsyncDispatcher cfg} (h : Accounted s) {k : TaskId} {elapsed : Bool}
    (hstep : step s (.submit k elapsed) = some t) :
    t.evicted = s.evicted ∨ ∃ oldest rest, s.tasks = oldest :: rest ∧
      s.tasks.length = cfg.capacity ∧ oldest ≠ k ∧ t.evicted = s.evicted ++ [oldest] ∧
      t.tasks = rest ++ [k] := by
  cases step_moves hstep with
  | refuse | push => exact .inl rfl
  | @evict _ _ oldest rest hk _ htasks hcap =>
    refine .inr ⟨oldest, rest, htasks, Nat.le_antisymm h.bounded hcap, ?_, rfl, rfl⟩
    -- a queued task was accepted, and the call submitting `k` has only just entered
    intro he
    have hm : oldest ∈ s.accepted := h.order.subset (by simp [htasks])
    exact h.entered oldest hm (he ▸ hk)

theorem evicts_only_submit {s t : AsyncDispatcher cfg} {l : Label cfg} (hstep : step s l = some t)
    (hl : ∀ k elapsed, l ≠ .submit k elapsed) : t.evicted = s.evicted := by
  cases step_moves hstep with
  | evict => exact absurd rfl (hl _ _)
  | _ => rfl

theorem active_eq_running {s : AsyncDispatcher cfg} {ls : List (Label cfg)}
    (h : Run step returnsNormally (new cfg) ls s) :
    s.active = (Finset.univ.filter fun w => (s.workers w).isRunning).card := by
  rw [(accounted_run h).active, card_executing, panicked_nil h, List.length_nil, Nat.add_zero]

/-- **No accepted task is lost, doubled or reordered.** In every state of every run in which tasks
return normally: a task whose `submit` returned `true` is in exactly one place and was started at
most once; tasks were started in the order they were accepted; a step that evicts is a `submit`
that finds `capacity` tasks queued, and it evicts the oldest of them, never its own; the queue
stays within its capacity; and `active` counts the executing workers. -/
theorem accepted_tasks_accounted {s : AsyncDispatcher cfg} {ls : List (Label cfg)}
    (h : Run step returnsNormally (new cfg) ls s) :
    (∀ k, s.submits k = .returned true → (∃! p, s.At k p) ∧ s.started.count k ≤ 1) ∧
    (s.accepted.Nodup ∧ s.started.Sublist s.accepted) ∧
    (∀ l t, step s l = some t → t.evicted = s.evicted ∨
      ∃ k elapsed oldest rest, l = .submit k elapsed ∧ s.tasks = oldest :: rest ∧
        s.tasks.length = cfg.capacity ∧ oldest ≠ k ∧ t.evicted = s.evicted ++ [oldest] ∧
        t.tasks = rest ++ [k]) ∧
    s.tasks.length ≤ cfg.capacity ∧
    s.active = (Finset.univ.filter fun w => (s.workers w).isRunning).card := by
  have hacc := accounted_run h
  have hnp := panicked_nil h
  have hsub : s.started.Sublist s.accepted :=
    (List.sublist_append_left s.started s.tasks).trans hacc.order
  refine ⟨?_, ⟨hacc.nodup, hsub⟩, ?_, hacc.bounded, active_eq_running h⟩
  · intro k hk
    have hm : k ∈ s.accepted := hacc.pushed k (by rw [hk]; rfl)
    obtain ⟨p, hp⟩ := hacc.place_exists hnp hm
    refine ⟨⟨p, hp, fun q hq => hacc.place_unique hnp hm hq hp⟩, ?_⟩
    exact List.nodup_iff_count_le_one.mp (hacc.nodup.sublist hsub) k
  · intro l t hstep
    by_cases hl : ∃ k elapsed, l = .submit k elapsed
    · obtain ⟨k, elapsed, rfl⟩ := hl
      rcases submit_evicts hacc hstep with he | ⟨oldest, rest, hev⟩
      · exact .inl he
      · exact .inr ⟨k, elapsed, oldest, rest, rfl, hev⟩
    · exact .inl (evicts_only_submit hstep fun k elapsed he => hl ⟨k, elapsed, he⟩)

/-- The worker is busy with task 0 when 1 and 2 arrive: 1 is evicted, and that is its one place. -/
theorem accepted_tasks_accounted_overflow : ∃ s,
    Run step returnsNormally (new smallest) [.submit 0 false, .submitNotify 0 none,
      .poll smallestWorker, .submit 1 false, .submitNotify 1 none, .submit 2 false] s ∧
    s.evicted = [1] ∧ s.tasks = [2] ∧ (∃! p, s.At 1 p) ∧ s.active = 1 := by
  obtain ⟨s, hrun, hs⟩ := exists_run_of_exec step returnsNormally (new smallest)
    [.submit 0 false, .submitNotify 0 none, .poll smallestWorker, .submit 1 false,
      .submitNotify 1 none, .submit 2 false]
    (fun s => s.evicted = [1] ∧ s.tasks = [2] ∧ s.submits 1 = .returned true ∧ s.active = 1)
    (by decide)
  obtain ⟨hev, htasks, h1, hact⟩ := of_decide_eq_true hs
  exact ⟨s, hrun, hev, htasks, ((accepted_tasks_accounted hrun).1 1 h1).1, hact⟩

end OppexSdk.Rust.Dispatcher
