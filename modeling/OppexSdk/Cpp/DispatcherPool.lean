import OppexSdk.Cpp.QueuedDelivery
import OppexSdk.Lib.BoundedPool

/-! # The C++ dispatcher is a bounded task pool

The monitor of `cpp/src/async_dispatcher.cpp`, step by step, against the pool it is for: the steps
that notify, park and wake are invisible, a critical section is one event, and `Close` is two. The
accounts of the pool are then those of the dispatcher. -/
namespace OppexSdk.Cpp.AsyncDispatcher
open OppexSdk.Lib OppexSdk.Lib.Transition OppexSdk.Lib.Simulation OppexSdk.Lib.BoundedPool

variable {cfg : Config}

/-- The task a worker executes. -/
def WorkerPc.task : WorkerPc → Option TaskId
  | .running task => some task
  | .polling | .notifying | .exited => none

/-- The dispatcher as a pool. -/
def Dispatcher.pool (s : Dispatcher cfg) : Pool TaskId (Fin cfg.workerCount) where
  queue := s.tasks
  holding w := (s.workers w).task
  admitting := s.accepting
  serving := s.draining

/-- What the pool does in a step of the dispatcher. -/
def events (s : Dispatcher cfg) : Label cfg → List (Event TaskId (Fin cfg.workerCount))
  | .submit k _ => if s.accepting then [.accept k (s.pool.displaced cfg.capacity)] else [.refuse k]
  | .poll w => s.tasks.head?.toList.map (.start w)
  | .finish w => (s.workers w).task.toList.map (.finish w)
  | .close _ =>
    if s.accepting then .shut :: if s.Drained then [.abandon s.tasks] else [] else []
  | .drain _ timedOut => if s.Drained ∨ timedOut then [.abandon s.tasks] else []
  | .submitNotify .. | .workerNotify _ | .closeNotify _ | .wake _ => []

/-- The events of a run. -/
def history (cfg : Config) (ls : List (Label cfg)) :
    List (Event TaskId (Fin cfg.workerCount)) := trace step events (new cfg) ls

/-- What a step of the dispatcher does. -/
inductive Does (s : Dispatcher cfg) : Label cfg → Dispatcher cfg → Prop
  | refuse {k : TaskId} {elapsed : Bool} : s.submits k = .outside → s.accepting = false →
      Does s (.submit k elapsed)
        { s with submits := Function.update s.submits k (.returned false) }
  | displace {k : TaskId} {elapsed : Bool} : s.submits k = .outside → s.accepting = true →
      cfg.capacity ≤ s.tasks.length → Does s (.submit k elapsed)
        { s with
          tasks := s.tasks.tail ++ [k]
          dropLogger := (s.dropLogger.recordDrop elapsed).2
          submits := Function.update s.submits k (.notifying (s.dropLogger.recordDrop elapsed).1) }
  | push {k : TaskId} {elapsed : Bool} : s.submits k = .outside → s.accepting = true →
      s.tasks.length < cfg.capacity → Does s (.submit k elapsed)
        { s with
          tasks := s.tasks ++ [k]
          submits := Function.update s.submits k (.notifying none) }
  | submitNotify {k : TaskId} {target : Option (Thread cfg.workerCount)} {dropped : Option Nat}
      {changed : Condvar (Thread cfg.workerCount)} : s.submits k = .notifying dropped →
      s.changed.notifyOne target = some changed → Does s (.submitNotify k target)
        { s with
          changed := changed
          submits := Function.update s.submits k (.returned true)
          log := s.log ++ report cfg (dropped.map Warning.dropped) }
  | take {w : Fin cfg.workerCount} {task : TaskId} {rest : List TaskId} :
      s.workers w = .polling → s.tasks = task :: rest → Does s (.poll w)
        { s with
          tasks := rest
          active := s.active + 1
          workers := Function.update s.workers w (.running task) }
  | exit {w : Fin cfg.workerCount} : s.workers w = .polling → s.tasks = [] →
      s.draining = false → Does s (.poll w)
        { s with workers := Function.update s.workers w .exited }
  | park {w : Fin cfg.workerCount} : s.workers w = .polling → s.tasks = [] →
      Does s (.poll w) { s with changed := s.changed.wait (.worker w) }
  | finish {w : Fin cfg.workerCount} {task : TaskId} : s.workers w = .running task →
      Does s (.finish w)
        { s with
          active := s.active - 1
          workers := Function.update s.workers w .notifying }
  | workerNotify {w : Fin cfg.workerCount} : s.workers w = .notifying → Does s (.workerNotify w)
      { s with
        changed := s.changed.notifyAll
        workers := Function.update s.workers w .polling }
  | closeAgain {c : Nat} : s.closes c = .outside → s.accepting = false → Does s (.close c)
      { s with closes := Function.update s.closes c (.returned none) }
  | closeStop {c : Nat} : s.closes c = .outside → s.accepting = true → s.Drained →
      Does s (.close c) (Dispatcher.stop { s with accepting := false } c)
  | closeWait {c : Nat} : s.closes c = .outside → s.accepting = true → ¬ s.Drained →
      Does s (.close c) (Dispatcher.drainWait { s with accepting := false } c)
  | drainStop {c : Nat} {timedOut : Bool} : s.closes c = .draining →
      (s.Drained ∨ timedOut = true) → Does s (.drain c timedOut) (s.stop c)
  | drainWait {c : Nat} {timedOut : Bool} : s.closes c = .draining →
      ¬ (s.Drained ∨ timedOut = true) → Does s (.drain c timedOut) (s.drainWait c)
  | closeNotify {c abandoned : Nat} : s.closes c = .stopped abandoned → Does s (.closeNotify c)
      { s with
        changed := s.changed.notifyAll
        closes := Function.update s.closes c (.returned (some abandoned))
        log := s.log ++
          report cfg (if 0 < abandoned then some (.forceDropped abandoned) else none) }
  | wake {t : Thread cfg.workerCount} : Does s (.wake t)
      { s with changed := s.changed.wake t }

section
variable {s t : Dispatcher cfg}

theorem submit_does {k : TaskId} {elapsed : Bool} (h : s.submit k elapsed = some t) :
    Does s (.submit k elapsed) t := by
  unfold Dispatcher.submit at h
  split at h
  · rename_i hk
    split at h
    · rename_i hacc
      cases h
      exact .refuse hk (by simpa using hacc)
    · rename_i hacc
      have hacc : s.accepting = true := by simpa using hacc
      split at h
      · rename_i hfull
        cases h
        exact .displace hk hacc hfull
      · rename_i hfull
        cases h
        exact .push hk hacc (Nat.lt_of_not_le hfull)
  · cases h

theorem poll_does {w : Fin cfg.workerCount} (h : s.poll w = some t) : Does s (.poll w) t := by
  unfold Dispatcher.poll at h
  split at h
  · rename_i hw
    split at h
    · cases h
    · split at h
      · rename_i htasks
        cases h
        exact .take hw htasks
      · rename_i htasks
        split at h
        · rename_i hdraining
          cases h
          exact .exit hw htasks (by simpa using hdraining)
        · cases h
          exact .park hw htasks
  · cases h

theorem close_does {c : Nat} (h : s.close c = some t) : Does s (.close c) t := by
  unfold Dispatcher.close at h
  split at h
  · rename_i hc
    split at h
    · rename_i hacc
      cases h
      exact .closeAgain hc (by simpa using hacc)
    · rename_i hacc
      have hacc : s.accepting = true := by simpa using hacc
      dsimp only at h
      split at h
      · rename_i hdrained
        cases h
        exact .closeStop hc hacc hdrained
      · rename_i hdrained
        cases h
        exact .closeWait hc hacc hdrained
  · cases h

theorem drain_does {c : Nat} {timedOut : Bool} (h : s.drain c timedOut = some t) :
    Does s (.drain c timedOut) t := by
  unfold Dispatcher.drain at h
  split at h
  · rename_i hc
    split at h
    · cases h
    · split at h
      · rename_i hend
        cases h
        exact .drainStop hc hend
      · rename_i hend
        cases h
        exact .drainWait hc hend
  · cases h

theorem step_does {l : Label cfg} (h : step s l = some t) : Does s l t := by
  cases l with
  | submit k elapsed => exact submit_does h
  | poll w => exact poll_does h
  | close c => exact close_does h
  | drain c timedOut => exact drain_does h
  | submitNotify k target =>
    simp only [step, Dispatcher.submitNotify] at h
    split at h
    · rename_i hk
      obtain ⟨changed, hn, rfl⟩ := Option.map_eq_some_iff.mp h
      exact .submitNotify hk hn
    · cases h
  | finish w =>
    simp only [step, Dispatcher.finish] at h
    split at h
    · rename_i hw
      cases h
      exact .finish hw
    · cases h
  | workerNotify w =>
    simp only [step, Dispatcher.workerNotify] at h
    split at h
    · rename_i hw
      cases h
      exact .workerNotify hw
    · cases h
  | closeNotify c =>
    simp only [step, Dispatcher.closeNotify] at h
    split at h
    · rename_i hc
      cases h
      exact .closeNotify hc
    · cases h
  | wake th =>
    simp only [step, Dispatcher.wake] at h
    split at h
    · cases h
      exact .wake
    · cases h

end

/-! ## Closing -/

/-- The call that cleared `accepting_`. -/
def ClosePc.Winner : ClosePc → Prop
  | .draining | .stopped _ | .returned (some _) => True
  | .outside | .returned none => False

/-- One call clears `accepting_`, and while it waits it finds the flags as it left them. -/
structure Closing (s : Dispatcher cfg) : Prop where
  waiting : ∀ c, s.closes c = .draining → s.accepting = false ∧ s.draining = true
  one : ∀ c d, (s.closes c).Winner → (s.closes d).Winner → c = d
  accepting : s.accepting = true → s.draining = true ∧ ∀ c, ¬ (s.closes c).Winner

theorem Closing.init : Closing (new cfg) where
  waiting c hc := by cases hc
  one c _ hc := hc.elim
  accepting _ := ⟨rfl, fun _ hc => hc⟩

section
variable {s t : Dispatcher cfg} {l : Label cfg}

/-- What a call that moves on says of itself and of the others. -/
theorem Closing.closes_update (h : Closing s) {c : Nat} (pc : ClosePc)
    (hc : pc.Winner → (s.closes c).Winner) :
    (∀ d, (Function.update s.closes c pc d).Winner → (s.closes d).Winner) ∧
      ∀ d e, (Function.update s.closes c pc d).Winner → (Function.update s.closes c pc e).Winner →
        d = e := by
  have hback : ∀ d, (Function.update s.closes c pc d).Winner → (s.closes d).Winner :=
    (Function.forall_update_iff s.closes fun d pc => pc.Winner → (s.closes d).Winner).mpr
      ⟨hc, fun _ _ hd => hd⟩
  exact ⟨hback, fun d e hd he => h.one d e (hback d hd) (hback e he)⟩

/-- A call that does not come to wait. -/
theorem Closing.leave (h : Closing s) {c : Nat} {pc : ClosePc} (hpc : pc ≠ .draining)
    (hc : pc.Winner → (s.closes c).Winner) {changed : Condvar (Thread cfg.workerCount)}
    {log : List Warning} :
    Closing { s with
      changed := changed
      closes := Function.update s.closes c pc
      log := log } := by
  obtain ⟨hback, hone⟩ := h.closes_update pc hc
  refine ⟨?_, hone, fun ha => ⟨(h.accepting ha).1, fun d hd => (h.accepting ha).2 d (hback d hd)⟩⟩
  exact (Function.forall_update_iff s.closes fun _ pc =>
    pc = .draining → s.accepting = false ∧ s.draining = true).mpr
    ⟨fun he => absurd he hpc, fun d _ => h.waiting d⟩

/-- The call that finds `accepting_` set finds no other that did. -/
theorem Closing.enter (h : Closing s) (hacc : s.accepting = true) {c : Nat} {pc : ClosePc} :
    ∀ d, (Function.update s.closes c pc d).Winner → d = c := by
  intro d hd
  by_contra hne
  rw [Function.update_of_ne hne] at hd
  exact (h.accepting hacc).2 d hd

theorem closing_step (hstep : step s l = some t) (h : Closing s) : Closing t := by
  cases step_does hstep with
  | closeAgain => exact h.leave (by simp) (fun hw => by cases hw)
  | closeNotify hc => exact h.leave (by simp) (fun _ => by rw [hc]; trivial)
  | @closeStop c hc hacc =>
    have honly : ∀ d, (Function.update s.closes c (.stopped s.tasks.length) d).Winner → d = c :=
      h.enter hacc
    refine ⟨?_, ?_, fun ha => absurd ha Bool.false_ne_true⟩
    · intro d hd
      have hwin : (Function.update s.closes c (.stopped s.tasks.length) d).Winner := by
        rw [show Function.update s.closes c (.stopped s.tasks.length) d = .draining from hd]
        trivial
      obtain rfl := honly d hwin
      simp [Dispatcher.stop] at hd
    · intro d e hd he
      rw [honly d hd, honly e he]
  | @closeWait c hc hacc =>
    have honly : ∀ d, (Function.update s.closes c .draining d).Winner → d = c := h.enter hacc
    refine ⟨fun _ _ => ⟨rfl, (h.accepting hacc).1⟩, ?_, fun ha => absurd ha Bool.false_ne_true⟩
    intro d e hd he
    rw [honly d hd, honly e he]
  | @drainStop c timedOut hc =>
    obtain ⟨-, hone⟩ := h.closes_update (c := c) (.stopped s.tasks.length)
      (fun _ => by rw [hc]; trivial)
    have hacc := (h.waiting c hc).1
    refine ⟨?_, hone, fun ha => absurd (hacc.symm.trans ha) Bool.false_ne_true⟩
    intro d hd
    by_cases he : d = c
    · subst he
      simp [Dispatcher.stop] at hd
    · have hd : s.closes d = .draining := (Function.update_of_ne he _ _).symm.trans hd
      exact absurd (h.one d c (by rw [hd]; trivial) (by rw [hc]; trivial)) he
  | @drainWait c timedOut hc =>
    have hsame : Function.update s.closes c .draining = s.closes := by
      rw [← hc, Function.update_eq_self]
    have hsame : (s.drainWait c).closes = s.closes := hsame
    refine ⟨?_, ?_, ?_⟩
    · rw [hsame]
      exact h.waiting
    · rw [hsame]
      exact h.one
    · rw [hsame]
      exact h.accepting
  | _ => exact { h with }

/-! ## The simulation -/

theorem holding_update {w : Fin cfg.workerCount} (pc : WorkerPc) :
    (fun v => (Function.update s.workers w pc v).task) =
      Function.update s.pool.holding w pc.task :=
  Function.comp_update WorkerPc.task s.workers w pc

/-- A worker moves that holds no task before and after. -/
theorem holding_idle {w : Fin cfg.workerCount} {pc : WorkerPc} (hw : (s.workers w).task = none)
    (hpc : pc.task = none) :
    (fun v => (Function.update s.workers w pc v).task) = s.pool.holding := by
  rw [holding_update, hpc, ← hw]
  exact Function.update_eq_self w s.pool.holding

/-- A run of the pool ends in the dispatcher's own state. -/
theorem run_to {es : List (Event TaskId (Fin cfg.workerCount))}
    {p q : Pool TaskId (Fin cfg.workerCount)}
    (h : Run (BoundedPool.step cfg.capacity) anyStep p es q) (hqueue : t.tasks = q.queue)
    (hholding : (fun w => (t.workers w).task) = q.holding) (hadmitting : t.accepting = q.admitting)
    (hserving : t.draining = q.serving) :
    Run (BoundedPool.step cfg.capacity) anyStep p es t.pool := by
  rw [Dispatcher.pool, hqueue, hholding, hadmitting, hserving]
  exact h

theorem stop_run {c : Nat} (hacc : s.accepting = false) (hdraining : s.draining = true) :
    Run (BoundedPool.step cfg.capacity) anyStep s.pool [.abandon s.tasks] (s.stop c).pool :=
  (BoundedPool.Moves.abandon (p := s.pool) hacc hdraining).run

/-- A step of the dispatcher is what the pool does meanwhile. -/
theorem pool_step (hstep : step s l = some t) (h : Closing s) :
    Run (BoundedPool.step cfg.capacity) anyStep s.pool (events s l) t.pool := by
  cases step_does hstep with
  | refuse hk hacc =>
    rw [events, if_neg (by rw [hacc]; exact Bool.false_ne_true)]
    exact (BoundedPool.Moves.refuse (p := s.pool) hacc).run
  | @displace k _ hk hacc hfull =>
    rw [events, if_pos hacc]
    have hadmit : BoundedPool.Moves cfg.capacity s.pool _ _ := .accept (k := k) hacc
    rw [Pool.remaining, if_pos (show cfg.capacity ≤ s.pool.queue.length from hfull)] at hadmit
    exact hadmit.run
  | @push k _ hk hacc hfull =>
    rw [events, if_pos hacc]
    have hadmit : BoundedPool.Moves cfg.capacity s.pool _ _ := .accept (k := k) hacc
    have hfull : ¬ cfg.capacity ≤ s.pool.queue.length := Nat.not_le.mpr hfull
    rw [Pool.remaining, if_neg hfull] at hadmit
    exact hadmit.run
  | @take w task rest hw htasks =>
    have hfree : s.pool.holding w = none := congrArg WorkerPc.task hw
    have hstart : BoundedPool.Moves cfg.capacity s.pool _ _ := .start htasks hfree
    rw [events, htasks]
    exact run_to hstart.run rfl (holding_update _) rfl rfl
  | exit hw htasks =>
    rw [events, htasks]
    exact run_to (.nil s.pool) htasks.symm (holding_idle (congrArg WorkerPc.task hw) rfl) rfl rfl
  | park hw htasks =>
    rw [events, htasks]
    exact run_to (.nil s.pool) htasks.symm rfl rfl rfl
  | @finish w task hw =>
    have hheld : s.pool.holding w = some task := congrArg WorkerPc.task hw
    have hfinish : BoundedPool.Moves cfg.capacity s.pool _ _ := .finish hheld
    rw [events, hw]
    exact run_to hfinish.run rfl (holding_update _) rfl rfl
  | workerNotify hw =>
    exact run_to (.nil s.pool) rfl (holding_idle (congrArg WorkerPc.task hw) rfl) rfl rfl
  | closeAgain hc hacc =>
    rw [events, if_neg (by rw [hacc]; exact Bool.false_ne_true)]
    exact .nil _
  | @closeStop c hc hacc hdrained =>
    have hshut : BoundedPool.Moves cfg.capacity s.pool _ _ := .shut hacc
    rw [events, if_pos hacc, if_pos hdrained]
    exact hshut.run.append (stop_run (s := { s with accepting := false }) rfl (h.accepting hacc).1)
  | closeWait hc hacc hdrained =>
    have hshut : BoundedPool.Moves cfg.capacity s.pool _ _ := .shut hacc
    rw [events, if_pos hacc, if_neg hdrained]
    exact hshut.run
  | @drainStop c timedOut hc hend =>
    rw [events, if_pos hend]
    exact stop_run (h.waiting c hc).1 (h.waiting c hc).2
  | drainWait hc hend =>
    rw [events, if_neg hend]
    exact .nil _
  | submitNotify => exact .nil _
  | closeNotify => exact .nil _
  | wake => exact .nil _

/-- The dispatcher simulates the pool, whatever the run. -/
theorem simulates (cfg : Config) :
    Simulates (step : Dispatcher cfg → Label cfg → Option (Dispatcher cfg)) anyStep
      (BoundedPool.step cfg.capacity) events Closing (fun s p => p = s.pool) where
  keeps _ hstep h := closing_step hstep h
  matched _ hstep h hp := ⟨_, hp ▸ pool_step hstep h, rfl⟩

/-- The events of a run are a run of the pool, up to the dispatcher's own state. -/
theorem pool_run {ls : List (Label cfg)} (h : Run step anyStep (new cfg) ls s) :
    Run (BoundedPool.step cfg.capacity) anyStep BoundedPool.new (history cfg ls) s.pool ∧
      Closing s := by
  obtain ⟨p, hrun, hclosing, rfl⟩ := (simulates cfg).run h .init (a := BoundedPool.new) rfl
  exact ⟨hrun, hclosing⟩

/-! ## What the calls know of their tasks -/

/-- What the call has been told, or is about to be told, of its task. -/
def SubmitPc.verdict : SubmitPc → Option Bool
  | .outside => none
  | .notifying _ => some true
  | .returned accepted => some accepted

def Dispatcher.verdicts (s : Dispatcher cfg) (k : TaskId) : Option Bool := (s.submits k).verdict

theorem verdicts_update {k : TaskId} {pc : SubmitPc}
    (ht : t.submits = Function.update s.submits k pc) :
    t.verdicts = Function.update s.verdicts k pc.verdict := by
  unfold Dispatcher.verdicts
  rw [ht]
  exact Function.comp_update SubmitPc.verdict s.submits k pc

theorem verdicts_step {es : List (Event TaskId (Fin cfg.workerCount))}
    (hstep : step s l = some t) (h : Verdicts es s.verdicts) :
    Verdicts (es ++ events s l) t.verdicts := by
  cases step_does hstep with
  | refuse hk hacc =>
    rw [events, if_neg (by rw [hacc]; exact Bool.false_ne_true), verdicts_update (s := s) rfl]
    exact h.refuse (congrArg SubmitPc.verdict hk)
  | displace hk hacc =>
    rw [events, if_pos hacc, verdicts_update (s := s) rfl]
    exact h.accept (congrArg SubmitPc.verdict hk) _
  | push hk hacc =>
    rw [events, if_pos hacc, verdicts_update (s := s) rfl]
    exact h.accept (congrArg SubmitPc.verdict hk) _
  | @submitNotify k _ _ _ hk =>
    have hsame : s.verdicts k = some true := congrArg SubmitPc.verdict hk
    rw [verdicts_update (s := s) rfl, SubmitPc.verdict, ← hsame, Function.update_eq_self]
    exact h.quiet rfl rfl
  | take hw htasks =>
    exact h.quiet (by simp [events, htasks, Event.admits]) (by simp [events, htasks, Event.refuses])
  | exit hw htasks => exact h.quiet (by simp [events, htasks]) (by simp [events, htasks])
  | park hw htasks => exact h.quiet (by simp [events, htasks]) (by simp [events, htasks])
  | finish hw =>
    exact h.quiet (by simp [events, hw, WorkerPc.task, Event.admits])
      (by simp [events, hw, WorkerPc.task, Event.refuses])
  | closeAgain hc hacc => exact h.quiet (by simp [events, hacc]) (by simp [events, hacc])
  | closeStop hc hacc hd =>
    exact h.quiet (by simp [events, hacc, hd, Event.admits])
      (by simp [events, hacc, hd, Event.refuses])
  | closeWait hc hacc hd =>
    exact h.quiet (by simp [events, hacc, hd, Event.admits])
      (by simp [events, hacc, hd, Event.refuses])
  | drainStop hc hend =>
    exact h.quiet (by rw [events, if_pos hend]; rfl) (by rw [events, if_pos hend]; rfl)
  | drainWait hc hend =>
    exact h.quiet (by rw [events, if_neg hend]; rfl) (by rw [events, if_neg hend]; rfl)
  | workerNotify | closeNotify | wake => exact h.quiet rfl rfl

theorem verdicts_run {ls : List (Label cfg)} (h : Run step anyStep (new cfg) ls s) :
    Verdicts (history cfg ls) s.verdicts := by
  unfold history
  exact trace_history (I := fun es s => Verdicts es s.verdicts) (fun _ => verdicts_step) h .init

theorem Balanced.init : Balanced (new cfg) := (Finset.sum_eq_zero fun _ _ => rfl).symm

theorem balanced_run {ls : List (Label cfg)} (h : Run step anyStep (new cfg) ls s) : Balanced s :=
  h.invariant (fun _ hstep => (step_moves hstep).balanced) .init

theorem Balanced.active_eq (h : Balanced s) :
    s.active = (Finset.univ.filter fun w => (s.workers w).isRunning).card := by
  rw [h, Finset.card_filter]
  refine Finset.sum_congr rfl fun w _ => ?_
  cases (s.workers w).isRunning <;> rfl

/-- **The C++ dispatcher is the bounded pool it is for.** The events of any run, with any number of
threads in `Submit` and `Close`, are a run of the pool that ends in the dispatcher's own state. So
a task whose `Submit` returned `true` is in exactly one place and was started at most once, one
whose `Submit` returned `false` is in none and the dispatcher was closed; tasks start in the order
they were accepted; a task gives way only when `capacity_` tasks are queued, and then the oldest
does; the queue stays within `capacity_`; and `active_` counts the executing workers. -/
theorem every_submit_accounted {ls : List (Label cfg)} (h : Run step anyStep (new cfg) ls s) :
    Run (BoundedPool.step cfg.capacity) anyStep BoundedPool.new (history cfg ls) s.pool ∧
    (∀ k, s.submits k = .returned true →
      (∃! place, At (history cfg ls) s.pool k place) ∧ (started (history cfg ls)).count k ≤ 1) ∧
    (∀ k, s.submits k = .returned false →
      s.accepting = false ∧ ∀ place, ¬ At (history cfg ls) s.pool k place) ∧
    (admitted (history cfg ls)).Nodup ∧
    (started (history cfg ls)).Sublist (admitted (history cfg ls)) ∧
    (∀ before k oldest after, history cfg ls = before ++ .accept k (some oldest) :: after →
      ∃ p, Run (BoundedPool.step cfg.capacity) anyStep BoundedPool.new before p ∧
        p.queue.length = cfg.capacity ∧ p.queue.head? = some oldest) ∧
    s.tasks.length ≤ cfg.capacity ∧
    s.active = (Finset.univ.filter fun w => (s.workers w).isRunning).card := by
  obtain ⟨hpool, -⟩ := pool_run h
  have hacc := accounted_run hpool
  have hverdicts := verdicts_run h
  have hmax : max cfg.capacity 1 = cfg.capacity := Nat.max_eq_left cfg.capacity_pos
  refine ⟨hpool, ?_, ?_, hverdicts.nodup, hacc.started_sublist, ?_, ?_,
    (balanced_run h).active_eq⟩
  · intro k hk
    have hin := (hverdicts.admitted k).mpr (congrArg SubmitPc.verdict hk)
    refine ⟨hacc.one_place hverdicts.nodup hin, ?_⟩
    exact List.nodup_iff_count_le_one.mp (hverdicts.nodup.sublist hacc.started_sublist) k
  · intro k hk
    have hverdict : s.verdicts k = some false := congrArg SubmitPc.verdict hk
    have hout := (hverdicts.refused k).mpr hverdict
    refine ⟨?_, fun place hplace => ?_⟩
    · by_contra ha
      have ha : s.accepting = true := by simpa using ha
      rw [hacc.refusing ha] at hout
      cases hout
    · have hin := (hverdicts.admitted k).mp (hacc.at_admitted hplace)
      rw [hverdict] at hin
      cases hin
  · intro before k oldest after hsplit
    obtain ⟨p, hp, hfull, holdest⟩ := displaced_oldest (hsplit ▸ hpool)
    exact ⟨p, hp, Nat.le_antisymm (hmax ▸ (accounted_run hp).bounded) hfull, holdest⟩
  · exact hmax ▸ hacc.bounded

def loggingWorker : Fin logging.workerCount := ⟨0, Nat.one_pos⟩

/-- The worker executes task 0 when 1 and 2 arrive: 1 gives way, and that is its one place. -/
theorem every_submit_accounted_overflow : ∃ s,
    Run step anyStep (new logging) [.submit 0 false, .submitNotify 0 none, .poll loggingWorker,
      .submit 1 false, .submitNotify 1 none, .submit 2 false] s ∧
    (∃! place, At (history logging [.submit 0 false, .submitNotify 0 none, .poll loggingWorker,
      .submit 1 false, .submitNotify 1 none, .submit 2 false]) s.pool 1 place) ∧
    s.tasks.length ≤ 1 := by
  obtain ⟨s, hrun, hs⟩ := exists_run_of_exec step anyStep (new logging)
    [.submit 0 false, .submitNotify 0 none, .poll loggingWorker, .submit 1 false,
      .submitNotify 1 none, .submit 2 false] (fun s => s.submits 1 = .returned true) (by decide)
  obtain ⟨-, hplace, -, -, -, -, hbounded, -⟩ := every_submit_accounted hrun
  exact ⟨s, hrun, (hplace 1 (of_decide_eq_true hs)).1, hbounded⟩

end

end OppexSdk.Cpp.AsyncDispatcher
