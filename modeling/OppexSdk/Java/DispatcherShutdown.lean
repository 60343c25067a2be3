import OppexSdk.Java.DispatcherAccounting

/-! # Shutting the Java dispatcher down

`rejectedExecution` looks at the pool and then puts its task into the queue behind the pool's back.
Between the two the pool may be shut down and the last worker may go, or `shutdownNow` may empty the
queue; the task then stays in the queue for good. Whenever the offer comes in time, every task is
run or dropped. -/
namespace OppexSdk.Java
open OppexSdk.Lib OppexSdk.Lib.Lifecycle OppexSdk.Lib.Transition

/-- The submit is in `rejectedExecution`, past the first look at the pool. -/
def SubmitPc.handling : SubmitPc → Bool
  | polling | dropping .. | rechecking | offering => true
  | _ => false

/-- Close has emptied the queue or has seen that nobody is left to do so. -/
def ClosePc.past : ClosePc → Bool
  | pending _ | dropping .. | returned => true
  | _ => false

namespace AsyncDispatcher
variable {cfg : Config} {s t : AsyncDispatcher cfg}

/-- The step offers a rejected task to a queue that has room, and to which nobody comes any more:
the pool was stopped, or it is terminated. -/
def late (s : AsyncDispatcher cfg) : Label cfg → Bool
  | .offer _ => !s.executor.full && !s.executor.serving
  | _ => false

def inTime (s : AsyncDispatcher cfg) (l : Label cfg) : Prop := s.late l = false

instance (s : AsyncDispatcher cfg) (l : Label cfg) : Decidable (s.inTime l) :=
  inferInstanceAs (Decidable (s.late l = false))

/-- A submit is in the handler when every worker was started, and nobody comes to the queue after
close. -/
structure Shut (s : AsyncDispatcher cfg) : Prop where
  served : s.executor.Served
  rejected : ∀ k, s.submits k = .rejected → s.executor.state = .running →
    ∀ w, s.executor.workers w ≠ .unstarted
  handling : ∀ k, (s.submits k).handling = true → ∀ w, s.executor.workers w ≠ .unstarted
  drained : s.close.past = true → s.executor.serving = false

theorem Shut.setSubmit (h : s.Shut) {k : Nat} {p : SubmitPc}
    (hrejected : p = .rejected → s.executor.state = .running →
      ∀ w, s.executor.workers w ≠ .unstarted)
    (hhandling : p.handling = true → ∀ w, s.executor.workers w ≠ .unstarted) :
    (s.setSubmit k p).Shut := by
  refine ⟨h.served, ?_, ?_, h.drained⟩
  · intro j hj
    by_cases hk : j = k
    · subst hk
      exact hrejected ((Function.update_self ..).symm.trans hj)
    · exact h.rejected j ((Function.update_of_ne hk ..).symm.trans hj)
  · intro j hj
    by_cases hk : j = k
    · subst hk
      simp only [AsyncDispatcher.setSubmit, Function.update_self] at hj
      exact hhandling hj
    · simp only [AsyncDispatcher.setSubmit, Function.update_of_ne hk] at hj
      exact h.handling j hj

theorem Shut.setExecutor (h : s.Shut) {p : ThreadPool cfg.workerCount Nat RunPc}
    (hserved : p.Served) (hadv : s.executor.Advances p) : (s.setExecutor p).Shut :=
  ⟨hserved, fun k hk hrun w => hadv.started w (h.rejected k hk (hadv.running hrun) w),
    fun k hk w => hadv.started w (h.handling k hk w), fun hp => hadv.unserved (h.drained hp)⟩

theorem Shut.setClose (h : s.Shut) {p : ClosePc}
    (hdrained : p.past = true → s.executor.serving = false) : (s.setClose p).Shut :=
  ⟨h.served, h.rejected, h.handling, hdrained⟩

/-- What does not touch the submits, the pool and close. -/
theorem Shut.frame (h : s.Shut) (hsubmits : t.submits = s.submits)
    (hexecutor : t.executor = s.executor) (hclose : t.close = s.close) : t.Shut := by
  refine ⟨hexecutor ▸ h.served, ?_, ?_, ?_⟩
  · rw [hsubmits, hexecutor]
    exact h.rejected
  · rw [hsubmits, hexecutor]
    exact h.handling
  · rw [hclose, hexecutor]
    exact h.drained

theorem Shut.drop (h : s.Shut) (i : Nat) (pc : DropPc) : (s.drop i pc).1.Shut :=
  h.frame (drop_frame s i pc).1 (drop_frame s i pc).2.1 (drop_frame s i pc).2.2

theorem execute_shut {k : Nat} (hstep : step s (.execute k) = some t) (h : s.Shut) : t.Shut := by
  simp only [step] at hstep
  split at hstep
  · split at hstep
    · rename_i p hex
      cases hstep
      have hset := h.setExecutor (h.served.execute hex) (ThreadPool.advances_execute hex)
      exact hset.setSubmit (by rintro ⟨⟩) (by rintro ⟨⟩)
    · rename_i hex
      cases hstep
      exact h.setSubmit (fun _ hrun => ThreadPool.execute_eq_none hex hrun) (by rintro ⟨⟩)
  · cases hstep

theorem isShutdown_shut {k : Nat} (hstep : step s (.isShutdown k) = some t) (h : s.Shut) :
    t.Shut := by
  simp only [step] at hstep
  split at hstep
  · rename_i hpc
    cases hstep
    split
    · exact h.setSubmit (by rintro ⟨⟩) (by rintro ⟨⟩)
    · rename_i hrun
      refine h.setSubmit (by rintro ⟨⟩) fun _ => h.rejected k hpc ?_
      simpa [ThreadPool.isShutdown] using hrun
  · cases hstep

theorem poll_shut {k : Nat} (hstep : step s (.poll k) = some t) (h : s.Shut) : t.Shut := by
  simp only [step] at hstep
  split at hstep
  · rename_i hpc _
    cases hstep
    exact h.setSubmit (by rintro ⟨⟩) fun _ => h.handling k (by rw [hpc]; rfl)
  · rename_i oldest rest hpc hq
    cases hstep
    have hpolled := h.setExecutor (h.served.poll hq) (ThreadPool.advances_queue _ rest)
    exact hpolled.setSubmit (by rintro ⟨⟩) fun _ => h.handling k (by rw [hpc]; rfl)
  · cases hstep

theorem submitDrop_shut {k : Nat} (hstep : step s (.submitDrop k) = some t) (h : s.Shut) :
    t.Shut := by
  simp only [step] at hstep
  split at hstep
  · rename_i oldest pc hpc
    cases hstep
    have hall := h.handling k (by rw [hpc]; rfl)
    refine (h.drop oldest pc).setSubmit ?_ ?_
    · intro hr
      cases hnext : (s.drop oldest pc).2 <;> rw [hnext] at hr <;> cases hr
    · intro _
      rw [(drop_frame s oldest pc).2.1]
      exact hall
  · rename_i pc hpc
    cases hstep
    refine (h.drop k pc).setSubmit ?_ ?_
    · intro hr
      cases hnext : (s.drop k pc).2 <;> rw [hnext] at hr <;> cases hr
    · intro hh
      cases hnext : (s.drop k pc).2 <;> rw [hnext] at hh <;> cases hh
  · cases hstep

theorem recheck_shut {k : Nat} (hstep : step s (.recheck k) = some t) (h : s.Shut) :
    t.Shut := by
  simp only [step] at hstep
  split at hstep
  · rename_i hpc
    cases hstep
    split
    · exact h.setSubmit (by rintro ⟨⟩) (by rintro ⟨⟩)
    · exact h.setSubmit (by rintro ⟨⟩) fun _ => h.handling k (by rw [hpc]; rfl)
  · cases hstep

/-- The offer behind the pool's back. -/
theorem offer_shut {k : Nat} (hok : s.inTime (.offer k)) (hstep : step s (.offer k) = some t)
    (h : s.Shut) : t.Shut := by
  simp only [step] at hstep
  split at hstep
  · rename_i hpc
    have hall := h.handling k (by rw [hpc]; rfl)
    split at hstep
    · rename_i p hoffer
      cases hstep
      have hroom : s.executor.full = false := by
        cases hfull : s.executor.full with
        | false => rfl
        | true =>
          rw [ThreadPool.offer, if_pos hfull] at hoffer
          cases hoffer
      have hserving : s.executor.serving = true := by simpa [inTime, late, hroom] using hok
      have hserved := h.served.offer hall hserving hoffer
      rw [ThreadPool.offer, if_neg (by simp [hroom])] at hoffer
      cases hoffer
      have hset := h.setExecutor hserved (ThreadPool.advances_queue _ _)
      exact hset.setSubmit (by rintro ⟨⟩) (by rintro ⟨⟩)
    · cases hstep
      exact h.setSubmit (by rintro ⟨⟩) (by rintro ⟨⟩)
  · cases hstep

/-- A worker that executes a task goes on with it. -/
theorem Shut.setRun (h : s.Shut) {w : Fin cfg.workerCount} {e : RunPc}
    (hw : s.executor.workers w = .executing e) (pc : RunPc) : (s.setRun w pc).Shut := by
  have hstarted : s.executor.workers w ≠ .unstarted := by
    rw [hw]
    nofun
  exact h.setExecutor (h.served.executing hstarted pc) (ThreadPool.advances_executing hw nofun)

theorem Shut.finish (h : s.Shut) {w : Fin cfg.workerCount} {e : RunPc}
    (hw : s.executor.workers w = .executing e) (threw : Bool) :
    (s.setExecutor (s.executor.finish w threw)).Shut := by
  have hstarted : s.executor.workers w ≠ .unstarted := by
    rw [hw]
    nofun
  exact h.setExecutor (h.served.finish hstarted threw) (ThreadPool.advances_finish hw threw)

theorem claim_shut {w : Fin cfg.workerCount} (hstep : step s (.claim w) = some t) (h : s.Shut) :
    t.Shut := by
  simp only [step] at hstep
  split at hstep
  · rename_i task hw
    cases hstep
    have hclaimed : (s.claim task).1.Shut ∧ (s.claim task).1.executor = s.executor := by
      unfold claim
      split
      · exact ⟨h, rfl⟩
      · exact ⟨h.frame rfl rfl rfl, rfl⟩
    obtain ⟨hclaim, hexecutor⟩ := hclaimed
    rw [← hexecutor] at hw
    split
    · exact hclaim.setRun hw _
    · exact hclaim.finish hw false
  · cases hstep

theorem close_shut {l : Label cfg} (hl : l = .close ∨ l = .shutdown ∨
      (∃ expired, l = .awaitTermination expired) ∨ l = .shutdownNow ∨ l = .nextPending ∨
      l = .closeDrop)
    (hstep : step s l = some t) (h : s.Shut) : t.Shut := by
  rcases hl with rfl | rfl | ⟨expired, rfl⟩ | rfl | rfl | rfl <;>
    simp only [step] at hstep <;> split at hstep
  all_goals first | (cases hstep; done) | rename_i hpc
  · cases hstep
    have hset := h.setClose (p := .shuttingDown) (by rintro ⟨⟩)
    exact hset.frame rfl rfl rfl
  · cases hstep
    have hset := h.setExecutor (h.served.shutdown ⟨0, cfg.workerCount_pos⟩)
      (ThreadPool.advances_shutdown _)
    exact hset.setClose (by rintro ⟨⟩)
  · split at hstep
    · cases hstep
      exact h.setClose (by rintro ⟨⟩)
    · split at hstep <;> cases hstep
      rename_i hterm
      exact h.setClose fun _ => ThreadPool.serving_eq_false_iff.mpr (.inr hterm)
  · cases hstep
    have hset := h.setExecutor (ThreadPool.served_shutdownNow _) (ThreadPool.advances_shutdownNow _)
    exact hset.setClose fun _ => rfl
  · cases hstep
    exact h.setClose fun _ => h.drained (by rw [hpc]; rfl)
  · cases hstep
    exact h.setClose fun _ => h.drained (by rw [hpc]; rfl)
  · rename_i task pc rest
    cases hstep
    refine (h.drop task pc).setClose ?_
    intro _
    rw [(drop_frame s task pc).2.1]
    exact h.drained (by rw [hpc]; rfl)

theorem shut_step {l : Label cfg} (hok : s.inTime l) (hstep : step s l = some t) (h : s.Shut) :
    t.Shut := by
  cases l with
  | submit k isNull =>
    simp only [step] at hstep
    split at hstep <;> cases hstep
    refine h.setSubmit ?_ ?_
    · intro hr
      split at hr <;> cases hr
    · intro hh
      split at hh <;> cases hh
  | incrementQueued k =>
    simp only [step] at hstep
    split at hstep <;> cases hstep
    have hset := h.setSubmit (k := k) (p := .executing) (by rintro ⟨⟩) (by rintro ⟨⟩)
    exact hset.frame rfl rfl rfl
  | execute k => exact execute_shut hstep h
  | isShutdown k => exact isShutdown_shut hstep h
  | poll k => exact poll_shut hstep h
  | submitDrop k => exact submitDrop_shut hstep h
  | recheck k => exact recheck_shut hstep h
  | offer k => exact offer_shut hok hstep h
  | take w =>
    obtain ⟨p, htake, rfl⟩ := Option.map_eq_some_iff.mp hstep
    exact h.setExecutor (h.served.take htake) (ThreadPool.advances_take htake)
  | exit w =>
    obtain ⟨p, hexit, rfl⟩ := Option.map_eq_some_iff.mp hstep
    exact h.setExecutor (h.served.exit hexit) (ThreadPool.advances_exit hexit)
  | claim w => exact claim_shut hstep h
  | decrement w =>
    simp only [step] at hstep
    split at hstep <;> cases hstep
    rename_i task hw
    have hdec : (s.decrementQueued task).Shut := h.frame rfl rfl rfl
    exact hdec.setRun hw _
  | call w =>
    simp only [step] at hstep
    split at hstep <;> cases hstep
    rename_i task hw
    exact (h.setRun hw (.running task)).frame rfl rfl rfl
  | finish w threw =>
    simp only [step] at hstep
    split at hstep <;> cases hstep
    rename_i hw
    exact h.finish hw threw
  | _ => exact close_shut (by simp) hstep h

theorem shut_new (cfg : Config) : (new cfg).Shut :=
  ⟨ThreadPool.served_new _ _, nofun, nofun, nofun⟩

theorem run_shut {ls : List (Label cfg)} (h : Run step inTime (new cfg) ls s) : s.Shut :=
  h.invariant shut_step (shut_new cfg)

/-! ## After the shutdown -/

/-- Close and all submits have returned, and no worker is executing a task. -/
structure Quiet (s : AsyncDispatcher cfg) : Prop where
  close : s.close = .returned
  submits : ∀ k, s.submits k = .outside ∨ s.submits k = .returned ∨ s.submits k = .raised
  workers : ∀ w e, s.executor.workers w ≠ .executing e

/-- Nobody holds a task. -/
theorem Quiet.holding (hq : s.Quiet) (h : Holder cfg) : s.view.holding h = none := by
  cases h with
  | worker w =>
    show held (s.executor.workers w) = none
    cases hw : s.executor.workers w with
    | executing e => exact absurd hw (hq.workers w e)
    | _ => rfl
  | submit k =>
    show (s.submits k).holding k = none
    rcases hq.submits k with hk | hk | hk <;> rw [hk] <;> rfl
  | closer =>
    show s.close.holding = none
    rw [hq.close]
    rfl

/-- A task was never counted, or is done with. -/
theorem Quiet.place (hq : s.Quiet) (hempty : s.executor.queue = [])
    {place : Nat → Place (Holder cfg)} (hplace : s.view.Placed place) (k : Nat) :
    (place k = .fresh ∧ s.submits k ≠ .returned) ∨ place k = .settled := by
  have hat := (hplace.at_iff k (place k)).mpr rfl
  have hstatus : (s.submits k).status = (none : Option (Place (Holder cfg))) ∨
      ((s.submits k).status = some (Place.fresh (η := Holder cfg)) ∧ s.submits k ≠ .returned) := by
    rcases hq.submits k with hk | hk | hk <;> rw [hk]
    · exact .inr ⟨rfl, nofun⟩
    · exact .inl rfl
    · exact .inr ⟨rfl, nofun⟩
  cases hp : place k with
  | settled => exact .inr rfl
  | fresh =>
    rw [hp] at hat
    rcases hstatus with hs | hs
    · exact absurd (hs.symm.trans hat) nofun
    · exact .inl ⟨rfl, hs.2⟩
  | queued =>
    rw [hp] at hat
    have hmem : k ∈ s.close.waiting ++ s.executor.queue := hat
    rw [hq.close, hempty] at hmem
    cases hmem
  | held h stage =>
    rw [hp] at hat
    exact absurd ((hq.holding h).symm.trans hat) nofun
  | created | own =>
    rw [hp] at hat
    rcases hstatus with hs | hs
    · exact absurd (hs.symm.trans hat) nofun
    · exact absurd (hs.1.symm.trans hat) nofun

/-- **Every submitted task is accounted for across the shutdown** when each offer of a rejected task
comes in time: in every state of such a run in which close and all submits have returned and no
worker executes a task, a task whose submit returned has been run or dropped, once, and the metric
`queued` is zero. -/
theorem submitted_tasks_accounted {ls : List (Label cfg)} (h : Run step inTime (new cfg) ls s)
    (hq : s.Quiet) :
    (∀ k, s.submits k = .returned → s.ran.count k + s.dropLog.count k = 1) ∧ s.queued = 0 := by
  have hshut := run_shut h
  have hempty : s.executor.queue = [] := by
    refine hshut.served.served (hshut.drained ?_)
    rw [hq.close]
    rfl
  obtain ⟨place, hplace⟩ := run_accounted h
  constructor
  · intro k hk
    have hcount : s.view.done.count k = _ := hplace.done k
    rcases hq.place hempty hplace k with ⟨-, hne⟩ | hsettled
    · exact absurd hk hne
    · rw [hsettled] at hcount
      exact (List.count_append ..).symm.trans hcount
  · have hperm : s.registered.Perm s.released := by
      refine hplace.registered.perm_of_agree hplace.released ?_
      intro k
      rcases hq.place hempty hplace k with ⟨hfresh, -⟩ | hsettled
      · rw [hfresh]
        rfl
      · rw [hsettled]
        rfl
    have hdepth : s.queued = s.registered.length - s.released.length := hplace.depth
    rw [hdepth, hperm.length_eq]
    omega

def smallest : Config := ⟨1, 1, Nat.one_pos, Nat.one_pos⟩

/-- The one worker of the smallest dispatcher. -/
def onlyWorker : Fin smallest.workerCount := ⟨0, Nat.one_pos⟩

/-- A task is with the worker, and the third submit has dropped the second one's and is about to
offer its own. -/
def overflowing : List (Label smallest) :=
  [.submit 0 false, .incrementQueued 0, .execute 0, .submit 1 false, .incrementQueued 1, .execute 1,
    .submit 2 false, .incrementQueued 2, .execute 2, .isShutdown 2, .poll 2, .submitDrop 2,
    .submitDrop 2, .submitDrop 2, .submitDrop 2, .recheck 2]

def running : List (Label smallest) :=
  [.claim onlyWorker, .decrement onlyWorker, .call onlyWorker, .finish onlyWorker false]

def closing : List (Label smallest) :=
  [.close, .shutdown, .exit onlyWorker, .awaitTermination false]

theorem submitted_tasks_accounted_evicted : ∃ s,
    Run step inTime (new smallest)
      (overflowing ++ [.offer 2] ++ running ++ [.take onlyWorker] ++ running ++ closing) s ∧
    s.Quiet ∧ s.ran = [0, 2] ∧ s.dropLog = [1] ∧
    (∀ k, s.submits k = .returned → s.ran.count k + s.dropLog.count k = 1) ∧ s.queued = 0 := by
  have hex : ∃ s, Run step inTime (new smallest)
      (overflowing ++ [.offer 2] ++ running ++ [.take onlyWorker] ++ running ++ closing) s ∧
      s.Quiet ∧ s.ran = [0, 2] ∧ s.dropLog = [1] := by
    refine ⟨_, run_of_exec _ rfl, ⟨rfl, ?_, ?_⟩, rfl, rfl⟩
    · intro k
      match k with
      | 0 | 1 | 2 => exact .inr (.inl rfl)
      | _ + 3 => exact .inl rfl
    · intro w e
      match w with
      | ⟨0, _⟩ => nofun
  obtain ⟨s, hrun, hq, hran, hdropped⟩ := hex
  exact ⟨s, hrun, hq, hran, hdropped, submitted_tasks_accounted hrun hq⟩

/-- The worker goes and close returns before the offer: the task stays in the queue, neither run nor
dropped, and stays counted. -/
theorem late_offer_is_lost : ∃ s,
    Run step anyStep (new smallest) (overflowing ++ running ++ closing ++ [.offer 2]) s ∧
    s.Quiet ∧ s.submits 2 = .returned ∧ s.ran.count 2 + s.dropLog.count 2 = 0 ∧ s.queued = 1 := by
  refine ⟨_, run_of_exec _ rfl, ⟨rfl, ?_, ?_⟩, rfl, rfl, rfl⟩
  · intro k
    match k with
    | 0 | 1 | 2 => exact .inr (.inl rfl)
    | _ + 3 => exact .inl rfl
  · intro w e
    match w with
    | ⟨0, _⟩ => nofun

end AsyncDispatcher

end OppexSdk.Java
