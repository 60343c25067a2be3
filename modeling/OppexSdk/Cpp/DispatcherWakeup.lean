import OppexSdk.Cpp.AsyncDispatcher
import OppexSdk.Rust.DispatcherWakeup

/-! # Wake-ups in the C++ dispatcher, and in both

`Close` waits on the condition variable the workers wait on, as in Rust, and `Submit` notifies
one of them outside the lock: the argument and the one condition it needs are the same. -/
namespace OppexSdk.Cpp.AsyncDispatcher
open OppexSdk.Lib OppexSdk.Lib.Transition

variable {cfg : Config}

/-- Some `Submit` is between its `push_back` and its `notify_one`. -/
def Dispatcher.Notifying (s : Dispatcher cfg) : Prop :=
  ∃ k dropped, s.submits k = .notifying dropped

def Dispatcher.wakeView (s : Dispatcher cfg) : WakeView (Fin cfg.workerCount) where
  work := s.tasks ≠ [] ∧ s.draining = true
  parked w := s.changed.Parked (.worker w)
  pending := s.Notifying

def Dispatcher.LostWakeup (s : Dispatcher cfg) : Prop := s.wakeView.Missed

/-- A `notify_one` does not wake a closing thread while every worker is parked. -/
def reachesWorker (s : Dispatcher cfg) : Label cfg → Prop
  | .submitNotify _ (some (.closer _)) => ∃ w, ¬ s.changed.Parked (.worker w)
  | _ => True

instance reachesWorker.decidable (s : Dispatcher cfg) (l : Label cfg) :
    Decidable (reachesWorker s l) :=
  match l with
  | .submitNotify _ (some (.closer _)) =>
    inferInstanceAs (Decidable (∃ w, ¬ s.changed.Parked (.worker w)))
  | .submitNotify _ (some (.worker _)) | .submitNotify _ none | .submit .. | .poll _ | .finish _
  | .workerNotify _ | .close _ | .drain .. | .closeNotify _ | .wake _ => .isTrue trivial

def someWorker (cfg : Config) : Fin cfg.workerCount := ⟨0, cfg.workerCount_pos⟩

section
variable {s t : Dispatcher cfg}

theorem submit_keeps {k : TaskId} {elapsed : Bool} (hstep : s.submit k elapsed = some t)
    (h : ¬ s.LostWakeup) : ¬ t.LostWakeup := by
  unfold Dispatcher.submit at hstep
  split at hstep
  · rename_i hk
    split at hstep
    · cases hstep
      refine WakeView.not_missed_of_frame h id (fun _ => id) ?_
      intro hex
      obtain ⟨j, dropped, hj⟩ := hex
      have hne : j ≠ k := by intro he; subst he; rw [hk] at hj; cases hj
      exact ⟨j, dropped, (Function.update_of_ne hne _ _).trans hj⟩
    · split at hstep <;> cases hstep <;>
        exact WakeView.not_missed_of_pending ⟨k, _, Function.update_self k _ _⟩
  · cases hstep

theorem submitNotify_keeps {k : TaskId} {target : Option (Thread cfg.workerCount)}
    (hok : reachesWorker s (.submitNotify k target))
    (hstep : s.submitNotify k target = some t) : ¬ t.LostWakeup := by
  unfold Dispatcher.submitNotify at hstep
  split at hstep
  · obtain ⟨changed, hn, rfl⟩ := Option.map_eq_some_iff.mp hstep
    rcases Condvar.notifyOne_cases hn with ⟨_, hnone, rfl⟩ | ⟨th, rfl, _, rfl⟩
    · exact WakeView.not_missed_of_awake (i := someWorker cfg) (hnone _)
    · cases th with
      | worker w => exact WakeView.not_missed_of_awake (i := w) fun hp =>
          ((Condvar.parked_wake _ _ _).mp hp).2 rfl
      | closer c =>
        obtain ⟨w, hw⟩ := hok
        exact WakeView.not_missed_of_awake (i := w) fun hp =>
          hw ((Condvar.parked_wake _ _ _).mp hp).1
  · cases hstep

theorem poll_keeps {w : Fin cfg.workerCount} (hstep : s.poll w = some t) : ¬ t.LostWakeup := by
  unfold Dispatcher.poll at hstep
  split at hstep
  · split at hstep
    · cases hstep
    · rename_i hp
      split at hstep
      · cases hstep; exact WakeView.not_missed_of_awake (i := w) hp
      · rename_i htasks
        split at hstep <;> cases hstep <;>
          exact WakeView.not_missed_of_idle fun hw => hw.1 htasks
  · cases hstep

/-- Both ways `Close` leaves its critical section: with the queue cleared, or parked itself. -/
theorem stop_keeps (c : Nat) : ¬ (s.stop c).LostWakeup :=
  WakeView.not_missed_of_idle fun hw => hw.1 rfl

theorem drainWait_keeps (c : Nat) (h : ¬ s.LostWakeup) : ¬ (s.drainWait c).LostWakeup := by
  refine WakeView.not_missed_of_frame h id ?_ id
  intro w hp
  simpa [Dispatcher.wakeView, Dispatcher.drainWait] using hp

theorem close_keeps {c : Nat} (hstep : s.close c = some t) (h : ¬ s.LostWakeup) :
    ¬ t.LostWakeup := by
  unfold Dispatcher.close at hstep
  split at hstep
  · split at hstep
    · cases hstep; exact h
    · dsimp only at hstep
      split at hstep <;> cases hstep
      · exact stop_keeps c
      · exact drainWait_keeps (s := { s with accepting := false }) c h
  · cases hstep

theorem drain_keeps {c : Nat} {timedOut : Bool} (hstep : s.drain c timedOut = some t)
    (h : ¬ s.LostWakeup) : ¬ t.LostWakeup := by
  unfold Dispatcher.drain at hstep
  split at hstep
  · split at hstep
    · cases hstep
    · split at hstep <;> cases hstep
      · exact stop_keeps c
      · exact drainWait_keeps c h
  · cases hstep

theorem lostWakeup_step {l : Label cfg} (hok : reachesWorker s l) (hstep : step s l = some t)
    (h : ¬ s.LostWakeup) : ¬ t.LostWakeup := by
  cases l with
  | submit k elapsed => exact submit_keeps hstep h
  | submitNotify k target => exact submitNotify_keeps hok hstep
  | poll w => exact poll_keeps hstep
  | close c => exact close_keeps hstep h
  | drain c timedOut => exact drain_keeps hstep h
  | finish w =>
    simp only [step, Dispatcher.finish] at hstep
    split at hstep
    · cases hstep; exact h
    · cases hstep
  | workerNotify w =>
    simp only [step, Dispatcher.workerNotify] at hstep
    split at hstep
    · cases hstep
      exact WakeView.not_missed_of_awake (i := w) (s.changed.parked_notifyAll _)
    · cases hstep
  | closeNotify c =>
    simp only [step, Dispatcher.closeNotify] at hstep
    split at hstep
    · cases hstep
      exact WakeView.not_missed_of_awake (i := someWorker cfg) (s.changed.parked_notifyAll _)
    · cases hstep
  | wake th =>
    simp only [step, Dispatcher.wake] at hstep
    split at hstep
    · cases hstep
      exact WakeView.not_missed_of_frame h id
        (fun w hp => ((Condvar.parked_wake _ _ _).mp hp).1) id
    · cases hstep

end

theorem no_lost_wakeup {s : Dispatcher cfg} {ls : List (Label cfg)}
    (h : Run step reachesWorker (new cfg) ls s) : ¬ s.LostWakeup :=
  h.invariant lostWakeup_step
    (WakeView.not_missed_of_idle (v := (new cfg).wakeView) fun hw => hw.1 rfl)

/-! ## The wake-up that goes astray -/

def smallest : Config := ⟨1, 1, false, Nat.one_pos, Nat.one_pos⟩

def smallestWorker : Fin smallest.workerCount := ⟨0, Nat.one_pos⟩

def strayTrace : List (Label smallest) :=
  [.poll smallestWorker, .submit 0 false, .close 0, .submitNotify 0 (some (.closer 0))]

def strayState : Dispatcher smallest :=
  { new smallest with
    tasks := [0]
    accepting := false
    changed := ⟨[.worker smallestWorker]⟩
    submits := Function.update (Function.update (fun _ => .outside) 0 (.notifying none)) 0
      (.returned true)
    closes := Function.update (fun _ => .outside) 0 .draining }

theorem strayTrace_run : Run step anyStep (new smallest) strayTrace strayState :=
  run_of_exec _ rfl

theorem strayState_lostWakeup : strayState.LostWakeup := by
  have hparked : ∀ w, strayState.changed.Parked (.worker w) := by decide
  refine ⟨⟨by decide, rfl⟩, hparked, ?_⟩
  intro hex
  obtain ⟨k, dropped, hk⟩ := hex
  by_cases he : k = 0
  · subst he; cases hk
  · simp [strayState, he] at hk

/-! ## Both dispatchers -/

/-- **No wake-up is lost while notifications reach the workers.** For every dispatcher of either
SDK and every run of any number of submits, workers and closes in which no `notify_one` wakes a
closing thread while every worker is parked: no state has a task queued, the workers draining, all
of them parked and no submit left to notify. -/
theorem notified_workers_miss_no_wakeup (rust : Rust.Dispatcher.Config) (cpp : Config)
    (ls : List (Rust.Dispatcher.Label rust)) (ms : List (Label cpp)) :
    (∀ s, Run Rust.Dispatcher.step Rust.Dispatcher.reachesWorker (Rust.Dispatcher.new rust) ls s →
      ¬ s.LostWakeup) ∧
    (∀ s, Run step reachesWorker (new cpp) ms s → ¬ s.LostWakeup) :=
  ⟨fun _ h => Rust.Dispatcher.no_lost_wakeup h, fun _ h => no_lost_wakeup h⟩

/-- The same race with the notification reaching the worker, in both dispatchers. -/
theorem notified_workers_miss_no_wakeup_race :
    (∃ s, Run Rust.Dispatcher.step Rust.Dispatcher.reachesWorker
      (Rust.Dispatcher.new Rust.Dispatcher.smallest)
      [.poll Rust.Dispatcher.smallestWorker, .submit 0 false, .close 0, .drainUntil 0 false,
        .submitNotify 0 (some (.worker Rust.Dispatcher.smallestWorker))] s ∧ ¬ s.LostWakeup) ∧
    (∃ s, Run step reachesWorker (new smallest)
      [.poll smallestWorker, .submit 0 false, .close 0,
        .submitNotify 0 (some (.worker smallestWorker))] s ∧ ¬ s.LostWakeup) := by
  obtain ⟨s, hs, -⟩ := exists_run_of_exec Rust.Dispatcher.step
    Rust.Dispatcher.reachesWorker (Rust.Dispatcher.new Rust.Dispatcher.smallest)
    [.poll Rust.Dispatcher.smallestWorker, .submit 0 false, .close 0, .drainUntil 0 false,
      .submitNotify 0 (some (.worker Rust.Dispatcher.smallestWorker))] (fun _ => true) (by decide)
  obtain ⟨t, ht, -⟩ := exists_run_of_exec step reachesWorker (new smallest)
    [.poll smallestWorker, .submit 0 false, .close 0,
      .submitNotify 0 (some (.worker smallestWorker))] (fun _ => true) (by decide)
  have hboth := notified_workers_miss_no_wakeup Rust.Dispatcher.smallest smallest
    [.poll Rust.Dispatcher.smallestWorker, .submit 0 false, .close 0, .drainUntil 0 false,
      .submitNotify 0 (some (.worker Rust.Dispatcher.smallestWorker))]
    [.poll smallestWorker, .submit 0 false, .close 0,
      .submitNotify 0 (some (.worker smallestWorker))]
  exact ⟨⟨s, hs, hboth.1 s hs⟩, ⟨t, ht, hboth.2 t ht⟩⟩

/-- **Without the condition a wake-up can be lost,** in either dispatcher: the notification of an
accepted task wakes the closing thread, which parks again. -/
theorem close_can_swallow_the_wakeup :
    (∃ ls s, Run Rust.Dispatcher.step anyStep (Rust.Dispatcher.new Rust.Dispatcher.smallest) ls s ∧
      s.LostWakeup) ∧
    (∃ ls s, Run step anyStep (new smallest) ls s ∧ s.LostWakeup) :=
  ⟨⟨_, _, Rust.Dispatcher.strayTrace_run, Rust.Dispatcher.strayState_lostWakeup⟩,
    ⟨_, _, strayTrace_run, strayState_lostWakeup⟩⟩

end OppexSdk.Cpp.AsyncDispatcher
