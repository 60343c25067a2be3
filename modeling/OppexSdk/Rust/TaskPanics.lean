import OppexSdk.Rust.DispatcherSafety

/-! # What a panicking task does to the Rust dispatcher

`Shared::lock` recovers from a poisoned mutex, so that "one bad task" does not wedge the
dispatcher. A task does not run under the mutex, though: its panic unwinds through `work`, which
ends the thread and skips the decrement of `active`. -/
namespace OppexSdk.Rust.Dispatcher
open OppexSdk.Lib OppexSdk.Lib.Transition

variable {cfg : Config} {s t : AsyncDispatcher cfg} {l : Label cfg} {ls : List (Label cfg)}

/-- The thread is still in the loop of `work`. -/
def WorkerPc.inLoop : WorkerPc → Bool
  | .polling | .running _ | .notifying => true
  | .exited | .panicked => false

/-- Tasks that went wrong have done no damage: every worker is there as long as it is wanted, and
`active` counts the tasks being executed. -/
structure AsyncDispatcher.Unharmed (s : AsyncDispatcher cfg) : Prop where
  workers : s.draining = true →
    (Finset.univ.filter fun w => (s.workers w).inLoop).card = cfg.workerCount
  active : s.active = (Finset.univ.filter fun w => (s.workers w).isRunning).card

/-- The label of a panicking task. -/
def Label.isPanic : Label cfg → Bool
  | .panic _ => true
  | _ => false

/-! ## The history of panics -/

theorem panicked_step (hstep : step s l = some t) :
    t.panicked.length = s.panicked.length + if l.isPanic then 1 else 0 := by
  cases step_moves hstep with
  | panic hw => simp [Label.isPanic]
  | _ => rfl

theorem panicked_run {ok : AsyncDispatcher cfg → Label cfg → Prop} (h : Run step ok s ls t) :
    t.panicked.length = s.panicked.length + ls.countP Label.isPanic := by
  induction h with
  | nil s => rfl
  | cons _ hstep _ ih =>
    rw [ih, panicked_step hstep, List.countP_cons]
    omega

/-- A run without panics is one in which every task returns. -/
theorem returnsNormally_of_notMem (h : Run step anyStep (new cfg) ls s)
    (hno : ∀ w, Label.panic w ∉ ls) : Run step returnsNormally (new cfg) ls s := by
  refine h.of_labels (p := fun l => returnsNormally s l) ?_
  intro l hl
  cases l with
  | panic w => exact hno w hl
  | _ => trivial

/-! ## Workers -/

/-- Workers leave only when the dispatcher no longer drains. -/
def Staffed (s : AsyncDispatcher cfg) : Prop :=
  ∀ w, (s.workers w).inLoop = true ∨ s.draining = false

theorem Staffed.update (h : Staffed s) {w : Fin cfg.workerCount} {pc : WorkerPc}
    (hpc : pc.inLoop = true ∨ s.draining = false) :
    ∀ v, (Function.update s.workers w pc v).inLoop = true ∨ s.draining = false := by
  intro v
  by_cases hv : v = w
  · subst hv
    rwa [Function.update_self]
  · rw [Function.update_of_ne hv]
    exact h v

theorem staffed_step (hok : returnsNormally s l) (hstep : step s l = some t) (h : Staffed s) :
    Staffed t := by
  cases step_moves hstep with
  | pop => exact h.update (.inl rfl)
  | exit _ _ _ hd => exact h.update (.inr hd)
  | finish => exact h.update (.inl rfl)
  | panic => exact hok.elim
  | workerNotify => exact h.update (.inl rfl)
  | drainStop => exact fun _ => .inr rfl
  | _ => exact h

theorem staffed_run (h : Run step returnsNormally (new cfg) ls s) : Staffed s :=
  h.invariant staffed_step fun _ => .inl rfl

/-! ## The damage -/

/-- **The dispatcher is unharmed exactly as long as no task has panicked.** -/
theorem unharmed_iff_no_panic (h : Run step anyStep (new cfg) ls s) :
    s.Unharmed ↔ ∀ w, Label.panic w ∉ ls := by
  constructor
  · intro hs w hw
    -- the panicked task is still counted in `active`
    have hactive := (accounted_run h).active
    rw [hs.active, card_executing] at hactive
    have hpanics := panicked_run h
    have hpos : 0 < ls.countP Label.isPanic := List.countP_pos_iff.mpr ⟨_, hw, rfl⟩
    simp only [new, List.length_nil] at hpanics
    omega
  · intro hno
    have hnormal := returnsNormally_of_notMem h hno
    refine ⟨?_, active_eq_running hnormal⟩
    intro hd
    have hall : (Finset.univ.filter fun w => (s.workers w).inLoop = true) = Finset.univ := by
      refine Finset.filter_true_of_mem ?_
      intro w _
      refine (staffed_run hnormal w).resolve_right ?_
      rw [hd]
      exact Bool.noConfusion
    rw [hall, Finset.card_fin]

/-- The one worker executes a task, another waits in the queue, and `close` has begun. -/
theorem unharmed_iff_no_panic_draining : ∃ s, Run step anyStep (new smallest)
    [.submit 0 false, .submitNotify 0 none, .poll smallestWorker, .submit 1 false, .close 0] s ∧
    s.Unharmed := by
  obtain ⟨s, hrun, -⟩ := exists_run_of_exec step anyStep (new smallest)
    [.submit 0 false, .submitNotify 0 none, .poll smallestWorker, .submit 1 false, .close 0]
    (fun _ => true) (by decide)
  exact ⟨s, hrun, (unharmed_iff_no_panic hrun).mpr (by decide)⟩

/-- The only worker is gone with a task in the queue, and `close` waits for a task that no longer
runs. -/
theorem panic_leaks_active : ∃ s, Run step anyStep (new smallest)
    [.submit 0 false, .submitNotify 0 none, .poll smallestWorker, .submit 1 false,
      .submitNotify 1 none, .panic smallestWorker] s ∧
    s.draining = true ∧ s.tasks = [1] ∧ s.active = 1 ∧ (∀ w, s.workers w = .panicked) ∧
    ¬ s.Unharmed := by
  obtain ⟨s, hrun, hs⟩ := exists_run_of_exec step anyStep (new smallest)
    [.submit 0 false, .submitNotify 0 none, .poll smallestWorker, .submit 1 false,
      .submitNotify 1 none, .panic smallestWorker]
    (fun s => s.draining = true ∧ s.tasks = [1] ∧ s.active = 1 ∧
      (∀ w, s.workers w = .panicked) ∧
      s.active ≠ (Finset.univ.filter fun w => (s.workers w).isRunning).card) (by decide)
  obtain ⟨hd, htasks, hactive, hworkers, hne⟩ := of_decide_eq_true hs
  exact ⟨s, hrun, hd, htasks, hactive, hworkers, fun hu => hne hu.active⟩

end OppexSdk.Rust.Dispatcher
