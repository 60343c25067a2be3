import OppexSdk.Rust.Dispatcher

/-! # Wake-ups in the Rust dispatcher

Workers and the closing thread wait on one condition variable for different conditions, and
`submit` notifies one of them after it has released the lock. The one notification is enough as
long as it reaches a worker whenever all of them sleep; the closing thread, woken in a worker's
place, only re-checks its own condition and parks again. -/
namespace OppexSdk.Rust.Dispatcher
open OppexSdk.Lib OppexSdk.Lib.Transition

variable {cfg : Config}

/-- Some `submit` is between its `push_back` and its `notify_one`. -/
def AsyncDispatcher.Notifying (s : AsyncDispatcher cfg) : Prop :=
  ∃ k dropped, s.submits k = .notifying dropped

/-- The dispatcher as a monitor: a queued task is work while the workers drain. -/
def AsyncDispatcher.wakeView (s : AsyncDispatcher cfg) : WakeView (Fin cfg.workerCount) where
  work := s.tasks ≠ [] ∧ s.draining = true
  parked w := s.changed.Parked (.worker w)
  pending := s.Notifying

/-- A task is queued and the workers should drain it, all of them are parked, and no `submit` is
about to notify. -/
def AsyncDispatcher.LostWakeup (s : AsyncDispatcher cfg) : Prop := s.wakeView.Missed

/-- The side condition: a `notify_one` does not wake a closing thread while every worker is
parked. -/
def reachesWorker (s : AsyncDispatcher cfg) : Label cfg → Prop
  | .submitNotify _ (some (.closer _)) => ∃ w, ¬ s.changed.Parked (.worker w)
  | _ => True

instance reachesWorker.decidable (s : AsyncDispatcher cfg) (l : Label cfg) :
    Decidable (reachesWorker s l) :=
  match l with
  | .submitNotify _ (some (.closer _)) =>
    inferInstanceAs (Decidable (∃ w, ¬ s.changed.Parked (.worker w)))
  | .submitNotify _ (some (.worker _)) | .submitNotify _ none | .submit .. | .poll _ | .finish _
  | .panic _ | .workerNotify _ | .close _ | .drainUntil .. | .closeNotify _ | .wake _ =>
    .isTrue trivial

/-- Any worker will do: there is one. -/
def someWorker (cfg : Config) : Fin cfg.workerCount := ⟨0, cfg.workerCount_pos⟩

/-- A `submit` call that was not notifying leaves whoever was. -/
theorem notifying_update {s : AsyncDispatcher cfg} {k : TaskId} {pc : SubmitPc}
    (hk : s.submits k = .outside) (h : s.Notifying) :
    ∃ j dropped, Function.update s.submits k pc j = .notifying dropped := by
  obtain ⟨j, dropped, hj⟩ := h
  have hne : j ≠ k := by intro he; subst he; rw [hk] at hj; cases hj
  exact ⟨j, dropped, by rw [Function.update_of_ne hne]; exact hj⟩

/-- What a notification does for the workers: one of them is awake afterwards. -/
theorem notifyOne_awake {s : AsyncDispatcher cfg} {k : TaskId}
    {target : Option (Thread cfg.workerCount)} {changed : Condvar (Thread cfg.workerCount)}
    (hok : reachesWorker s (.submitNotify k target))
    (h : s.changed.notifyOne target = some changed) : ∃ w, ¬ changed.Parked (.worker w) := by
  rcases Condvar.notifyOne_cases h with ⟨_, hnone, rfl⟩ | ⟨t, rfl, _, rfl⟩
  · exact ⟨someWorker cfg, hnone _⟩
  · cases t with
    | worker w => exact ⟨w, by simp⟩
    | closer c =>
      obtain ⟨w, hw⟩ := hok
      exact ⟨w, fun hp => hw ((Condvar.parked_wake _ _ _).mp hp).1⟩

theorem lostWakeup_step {s t : AsyncDispatcher cfg} {l : Label cfg} (hok : reachesWorker s l)
    (hstep : step s l = some t) (h : ¬ s.LostWakeup) : ¬ t.LostWakeup := by
  cases step_moves hstep with
  | refuse hk =>
    exact WakeView.not_missed_of_frame h id (fun _ => id) (notifying_update hk)
  | @push k _ | @evict k _ =>
    exact WakeView.not_missed_of_pending ⟨k, _, Function.update_self k _ _⟩
  | submitNotify _ hn =>
    obtain ⟨w, hw⟩ := notifyOne_awake hok hn
    exact WakeView.not_missed_of_awake (i := w) hw
  | @pop w _ _ _ hp => exact WakeView.not_missed_of_awake (i := w) hp
  | exit _ _ htasks _ | park _ _ htasks _ =>
    exact WakeView.not_missed_of_idle fun hw => hw.1 htasks
  | workerNotify | closeNotify =>
    exact WakeView.not_missed_of_awake (i := someWorker cfg) (s.changed.parked_notifyAll _)
  | drainStop => exact WakeView.not_missed_of_idle fun hw => hw.1 rfl
  | drainWait =>
    refine WakeView.not_missed_of_frame h id ?_ id
    intro w hp
    simpa [AsyncDispatcher.wakeView] using hp
  | wake =>
    exact WakeView.not_missed_of_frame h id (fun w hp => ((Condvar.parked_wake _ _ _).mp hp).1) id
  | finish | panic | closeAgain | close => exact h

/-- **No wake-up is lost while notifications reach the workers.** In every run, with any number of
`submit` and `close` calls, in which no `notify_one` wakes a closing thread while every worker is
parked, no state has a task queued, the workers draining, all of them parked and no `submit` left
to notify. -/
theorem no_lost_wakeup {s : AsyncDispatcher cfg} {ls : List (Label cfg)}
    (h : Run step reachesWorker (new cfg) ls s) : ¬ s.LostWakeup :=
  h.invariant lostWakeup_step
    (WakeView.not_missed_of_idle (v := (new cfg).wakeView) fun hw => hw.1 rfl)

/-! ## The wake-up that goes astray

The worker parks, a task is pushed, and `close` gets the lock before the `notify_one`: it finds a
task queued and waits on the same condition variable. The notification may then pick it. -/

def strayTrace : List (Label smallest) :=
  [.poll smallestWorker, .submit 0 false, .close 0, .drainUntil 0 false,
    .submitNotify 0 (some (.closer 0))]

def strayState : AsyncDispatcher smallest :=
  { new smallest with
    tasks := [0]
    accepting := false
    changed := ⟨[.worker smallestWorker]⟩
    submits := Function.update (Function.update (fun _ => .outside) 0 (.notifying none)) 0
      (.returned true)
    closes := Function.update (fun _ => .outside) 0 .draining
    accepted := [0] }

theorem strayTrace_run : Run step anyStep (new smallest) strayTrace strayState :=
  run_of_exec _ rfl

theorem strayState_lostWakeup : strayState.LostWakeup := by
  have hparked : ∀ w, strayState.changed.Parked (.worker w) := by decide
  refine ⟨⟨by decide, rfl⟩, hparked, ?_⟩
  intro hex
  obtain ⟨k, dropped, hk⟩ := hex
  by_cases he : k = 0
  · subst he; cases hk
  · simp [strayState, he] at hk

end OppexSdk.Rust.Dispatcher
