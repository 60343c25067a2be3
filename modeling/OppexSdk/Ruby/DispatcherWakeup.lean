import OppexSdk.Ruby.Dispatcher

/-! # Wake-ups in the Ruby dispatcher

A worker parks when it finds no task while the dispatcher drains. What would give it something to do
is announced by a broadcast in the same critical section, and so a parked worker has nothing to do
whenever the mutex is free. -/
namespace OppexSdk.Ruby.Dispatcher
open OppexSdk.Lib OppexSdk.Lib.Transition

namespace AsyncDispatcher
variable {cfg : Config} {s t : AsyncDispatcher cfg} {l : Label cfg}

/-- The worker is parked in `@changed.wait`. -/
def WorkerParked (s : AsyncDispatcher cfg) (w : Fin cfg.workerCount) : Prop :=
  s.changed.Parked (.worker w)

/-! ## The mutex -/

/-- The thread is in a critical section. -/
def inside (s : AsyncDispatcher cfg) : Thread cfg.workerCount → Bool
  | .submit k => (s.submits k).inside
  | .worker w => (s.workers w).inside
  | .close c => (s.closes c).inside

/-- Who is in a critical section has the mutex. -/
def Excludes (s : AsyncDispatcher cfg) : Prop := ∀ u, s.inside u = true → s.mutex = some u

theorem inside_setSubmit (s : AsyncDispatcher cfg) (k : TaskId) (pc : SubmitPc) :
    (s.setSubmit k pc).inside = Function.update s.inside (.submit k) pc.inside := by
  funext u
  cases u with
  | submit j =>
    by_cases hj : j = k
    · subst hj
      simp [inside, setSubmit]
    · simp [inside, setSubmit, hj]
  | _ => rfl

theorem inside_setWorker (s : AsyncDispatcher cfg) (w : Fin cfg.workerCount) (pc : WorkerPc) :
    (s.setWorker w pc).inside = Function.update s.inside (.worker w) pc.inside := by
  funext u
  cases u with
  | worker v =>
    by_cases hv : v = w
    · subst hv
      simp [inside, setWorker]
    · simp [inside, setWorker, hv]
  | _ => rfl

theorem inside_setClose (s : AsyncDispatcher cfg) (c : Nat) (pc : ClosePc) :
    (s.setClose c pc).inside = Function.update s.inside (.close c) pc.inside := by
  funext u
  cases u with
  | close d =>
    by_cases hd : d = c
    · subst hd
      simp [inside, setClose]
    · simp [inside, setClose, hd]
  | _ => rfl

section
variable {u : Thread cfg.workerCount} {b : Bool}

/-- A thread goes on inside its critical section, or outside of one. -/
theorem Excludes.stay (hs : s.Excludes) (hinside : t.inside = Function.update s.inside u b)
    (hmutex : t.mutex = s.mutex) (hb : b = true → s.inside u = true) : t.Excludes := by
  intro v hv
  rw [hmutex]
  rw [hinside] at hv
  by_cases huv : v = u
  · subst huv
    rw [Function.update_self] at hv
    exact hs v (hb hv)
  · rw [Function.update_of_ne huv] at hv
    exact hs v hv

/-- A thread leaves its critical section. -/
theorem Excludes.leave (hs : s.Excludes) (hinside : t.inside = Function.update s.inside u false)
    (hu : s.inside u = true) : t.Excludes := by
  intro v hv
  rw [hinside] at hv
  by_cases huv : v = u
  · subst huv
    rw [Function.update_self] at hv
    cases hv
  · rw [Function.update_of_ne huv] at hv
    have hsame : some u = some v := (hs u hu).symm.trans (hs v hv)
    cases hsame
    exact absurd rfl huv

/-- A thread takes the free mutex. -/
theorem Excludes.enter (hs : s.Excludes) (hinside : t.inside = Function.update s.inside u b)
    (hfree : s.mutex = none) (hmutex : t.mutex = some u) : t.Excludes := by
  intro v hv
  rw [hinside] at hv
  by_cases huv : v = u
  · rw [huv, hmutex]
  · rw [Function.update_of_ne huv] at hv
    have hnone := hs v hv
    rw [hfree] at hnone
    cases hnone

end

/-- The thread that acquires is the only one that moves. -/
theorem acquired_inside {u : Thread cfg.workerCount} (h : s.acquired u = some t) :
    ∃ b, t.inside = Function.update s.inside u b := by
  cases u with
  | submit k =>
    simp only [acquired] at h
    split at h <;> cases h
    exact ⟨_, inside_setSubmit s k _⟩
  | worker w =>
    simp only [acquired] at h
    split at h
    · cases h
      exact ⟨_, inside_setWorker s w _⟩
    · split at h <;> cases h
      exact ⟨_, inside_setWorker s w _⟩
    · cases h
      exact ⟨_, inside_setWorker s w _⟩
    · cases h
  | close c =>
    simp only [acquired] at h
    split at h
    · cases h
      exact ⟨_, inside_setClose s c _⟩
    · cases h
      exact ⟨_, inside_setClose s c _⟩
    · split at h <;> cases h
      exact ⟨_, inside_setClose s c _⟩
    · cases h

theorem released_inside {u : Thread cfg.workerCount} (h : s.released u = some t) :
    s.inside u = true ∧ t.inside = Function.update s.inside u false := by
  cases u with
  | submit k =>
    simp only [released] at h
    split at h <;> cases h
    rename_i hpc
    exact ⟨by simp [inside, hpc, SubmitPc.inside], inside_setSubmit s k _⟩
  | worker w =>
    simp only [released] at h
    split at h <;> cases h
    all_goals
      rename_i hpc
      exact ⟨by simp [inside, hpc, WorkerPc.inside], inside_setWorker s w _⟩
  | close c =>
    simp only [released] at h
    split at h <;> cases h
    · rename_i wasAccepting hpc
      refine ⟨by simp [inside, hpc, ClosePc.inside], ?_⟩
      rw [inside_setClose]
      split <;> rfl
    · rename_i hpc
      exact ⟨by simp [inside, hpc, ClosePc.inside], inside_setClose s c _⟩

theorem excludes_step (h : step s l = some t) (hs : s.Excludes) : t.Excludes := by
  cases l with
  | acquire u =>
    simp only [step] at h
    split at h
    · rename_i hfree
      obtain ⟨v, hv, rfl⟩ := Option.map_eq_some_iff.mp h
      obtain ⟨b, hinside⟩ := acquired_inside hv
      exact hs.enter (u := u) (b := b) hinside hfree rfl
    · cases h
  | release u =>
    obtain ⟨v, hv, rfl⟩ := Option.map_eq_some_iff.mp h
    obtain ⟨hu, hinside⟩ := released_inside hv
    exact hs.leave (u := u) hinside hu
  | wake u =>
    simp only [step] at h
    split at h <;> cases h
    exact hs
  | submitCheck k elapsed =>
    simp only [step] at h
    split at h
    · rename_i hpc
      have hin : s.inside (.submit k) = true := by simp [inside, hpc, SubmitPc.inside]
      split at h
      · cases h
        exact hs.stay (inside_setSubmit s k _) rfl fun _ => hin
      · split at h <;> cases h <;> exact hs.stay (inside_setSubmit s k _) rfl fun _ => hin
    · cases h
  | push k | submitBroadcast k | report k =>
    simp only [step] at h
    split at h <;> cases h
    rename_i hpc
    refine hs.stay (inside_setSubmit s k _) rfl ?_
    intro hb
    first | cases hb; done | simp [inside, hpc, SubmitPc.inside]
  | workerCheck w =>
    simp only [step] at h
    split at h
    · rename_i hpc
      have hin : s.inside (.worker w) = true := by simp [inside, hpc, WorkerPc.inside]
      split at h
      · split at h <;> cases h
        · exact hs.leave (inside_setWorker s w _) hin
        · exact hs.stay (inside_setWorker s w _) rfl fun _ => hin
      · cases h
        exact hs.stay (inside_setWorker s w _) rfl fun _ => hin
    · cases h
  | finish w | decrement w | workerBroadcast w =>
    simp only [step] at h
    split at h <;> cases h
    rename_i hpc
    refine hs.stay (inside_setWorker s w _) rfl ?_
    intro hb
    first | cases hb; done | simp [inside, hpc, WorkerPc.inside]
  | closeCheck c expired =>
    simp only [step] at h
    split at h
    · rename_i hpc
      have hin : s.inside (.close c) = true := by simp [inside, hpc, ClosePc.inside]
      split at h <;> cases h
      · exact hs.stay (inside_setClose s c _) rfl fun _ => hin
      · exact hs.leave (inside_setClose s c _) hin
    · cases h
  | mark c | stop c | closeBroadcast c | clear c | join c =>
    simp only [step] at h
    split at h <;> cases h
    rename_i hpc
    refine hs.stay (inside_setClose s c _) rfl ?_
    intro hb
    first | cases hb; done | simp [inside, hpc, ClosePc.inside]

/-! ## What is announced -/

/-- A task is pushed and its broadcast still to come. -/
def Pushed (s : AsyncDispatcher cfg) : Prop := ∃ k dropped, s.submits k = .broadcasting dropped

/-- The drain is over and its broadcast still to come. -/
def Stopped (s : AsyncDispatcher cfg) : Prop := ∃ c, s.closes c = .broadcasting

/-- A parked worker has nothing to do, or a broadcast is on its way. -/
def Announced (s : AsyncDispatcher cfg) : Prop := ∀ w, s.WorkerParked w →
  (s.tasks = [] ∨ s.Pushed) ∧ (s.draining = true ∨ s.Stopped)

theorem Announced.frame (hs : s.Announced) (hparked : ∀ w, t.WorkerParked w → s.WorkerParked w)
    (htasks : s.tasks = [] → t.tasks = []) (hdraining : t.draining = s.draining)
    (hpushed : s.Pushed → t.Pushed) (hstopped : s.Stopped → t.Stopped) : t.Announced := by
  intro w hw
  obtain ⟨htask, hdrain⟩ := hs w (hparked w hw)
  rw [hdraining]
  exact ⟨htask.imp htasks hpushed, hdrain.imp id hstopped⟩

/-- A broadcast leaves nobody parked. -/
theorem announced_of_broadcast (hchanged : t.changed = s.changed.notifyAll) : t.Announced := by
  intro w hw
  rw [WorkerParked, hchanged] at hw
  exact absurd hw (s.changed.parked_notifyAll _)

theorem pushed_setSubmit {k : TaskId} {pc : SubmitPc}
    (hk : ∀ dropped, s.submits k ≠ .broadcasting dropped) (hs : s.Pushed) :
    (s.setSubmit k pc).Pushed := by
  obtain ⟨j, dropped, hj⟩ := hs
  have hne : j ≠ k := fun hjk => hk dropped (hjk ▸ hj)
  exact ⟨j, dropped, (Function.update_of_ne hne ..).trans hj⟩

theorem stopped_setClose {c : Nat} {pc : ClosePc} (hc : s.closes c ≠ .broadcasting)
    (hs : s.Stopped) : (s.setClose c pc).Stopped := by
  obtain ⟨d, hd⟩ := hs
  have hne : d ≠ c := fun hdc => hc (hdc ▸ hd)
  exact ⟨d, (Function.update_of_ne hne ..).trans hd⟩

/-- A submit that does not broadcast next moves on. -/
theorem Announced.setSubmit {k : TaskId} {pc : SubmitPc} (hs : s.Announced)
    (hk : ∀ dropped, s.submits k ≠ .broadcasting dropped) : (s.setSubmit k pc).Announced :=
  hs.frame (fun _ => id) id rfl (pushed_setSubmit hk) id

theorem Announced.setWorker {w : Fin cfg.workerCount} {pc : WorkerPc} (hs : s.Announced) :
    (s.setWorker w pc).Announced :=
  hs.frame (fun _ => id) id rfl id id

theorem Announced.setClose {c : Nat} {pc : ClosePc} (hs : s.Announced)
    (hc : s.closes c ≠ .broadcasting) : (s.setClose c pc).Announced :=
  hs.frame (fun _ => id) id rfl id (stopped_setClose hc)

theorem acquired_announced {u : Thread cfg.workerCount} (h : s.acquired u = some t)
    (hs : s.Announced) : t.Announced := by
  cases u with
  | submit k =>
    simp only [acquired] at h
    split at h <;> cases h
    rename_i hpc
    exact hs.setSubmit (by simp [hpc])
  | worker w =>
    simp only [acquired] at h
    split at h
    · cases h
      exact hs.setWorker
    · split at h <;> cases h
      exact hs.setWorker
    · cases h
      exact hs.setWorker
    · cases h
  | close c =>
    simp only [acquired] at h
    split at h
    · rename_i hpc
      cases h
      exact hs.setClose (by simp [hpc])
    · rename_i hpc
      cases h
      exact hs.setClose (by simp [hpc])
    · rename_i hpc
      split at h <;> cases h
      exact hs.setClose (by simp [hpc])
    · cases h

theorem released_announced {u : Thread cfg.workerCount} (h : s.released u = some t)
    (hs : s.Announced) : t.Announced := by
  cases u with
  | submit k =>
    simp only [released] at h
    split at h <;> cases h
    rename_i hpc
    exact hs.setSubmit (by simp [hpc])
  | worker w =>
    simp only [released] at h
    split at h <;> cases h <;> exact hs.setWorker
  | close c =>
    simp only [released] at h
    split at h <;> cases h
    all_goals
      rename_i hpc
      exact hs.setClose (by simp [hpc])

theorem submit_announced {k : TaskId} (hl : (∃ elapsed, l = .submitCheck k elapsed) ∨ l = .push k ∨
      l = .submitBroadcast k ∨ l = .report k)
    (h : step s l = some t) (hs : s.Announced) : t.Announced := by
  rcases hl with ⟨elapsed, rfl⟩ | rfl | rfl | rfl <;> simp only [step] at h <;> split at h
  all_goals first | (cases h; done) | rename_i hpc
  · split at h
    · cases h
      exact hs.setSubmit (by simp [hpc])
    · split at h <;> cases h
      · refine Announced.frame (s := s) hs (fun _ => id) ?_ rfl
          (pushed_setSubmit (by simp [hpc])) id
        intro htasks
        show s.tasks.tail = []
        rw [htasks]
        rfl
      · exact hs.setSubmit (by simp [hpc])
  · cases h
    -- the worker that finds out is told by the broadcast to come
    intro w hw
    exact ⟨.inr ⟨k, _, Function.update_self ..⟩, (hs w hw).2⟩
  · cases h
    exact announced_of_broadcast (s := s) rfl
  · cases h
    exact hs.frame (fun _ => id) id rfl (pushed_setSubmit (by simp [hpc])) id

theorem worker_announced {w : Fin cfg.workerCount} (hl : l = .workerCheck w ∨ l = .finish w ∨
      l = .decrement w ∨ l = .workerBroadcast w)
    (h : step s l = some t) (hs : s.Announced) : t.Announced := by
  rcases hl with rfl | rfl | rfl | rfl <;> simp only [step] at h <;> split at h
  all_goals first | (cases h; done) | skip
  · split at h
    · rename_i htasks
      split at h <;> cases h
      · rename_i hdraining
        -- it parks, and has seen that there is nothing to do
        intro v _
        exact ⟨.inl htasks, .inl hdraining⟩
      · exact hs.setWorker
    · rename_i htasks
      cases h
      refine Announced.frame (s := s) hs (fun _ => id) ?_ rfl id id
      intro hempty
      rw [hempty] at htasks
      cases htasks
  · cases h
    exact hs.setWorker
  · cases h
    exact hs.frame (fun _ => id) id rfl id id
  · cases h
    exact announced_of_broadcast (s := s) rfl

theorem close_announced {c : Nat} (hl : l = .mark c ∨ (∃ expired, l = .closeCheck c expired) ∨
      l = .stop c ∨ l = .closeBroadcast c ∨ l = .clear c ∨ l = .join c)
    (h : step s l = some t) (hs : s.Announced) : t.Announced := by
  rcases hl with rfl | ⟨expired, rfl⟩ | rfl | rfl | rfl | rfl <;> simp only [step] at h <;>
    split at h
  all_goals first | (cases h; done) | rename_i hpc
  · cases h
    exact hs.frame (fun _ => id) id rfl id (stopped_setClose (by simp [hpc]))
  · split at h <;> cases h
    · exact hs.setClose (by simp [hpc])
    · refine hs.frame ?_ id rfl id (stopped_setClose (by simp [hpc]))
      intro w hw
      simpa [WorkerParked] using hw
  · cases h
    intro w hw
    exact ⟨(hs w hw).1, .inr ⟨c, Function.update_self ..⟩⟩
  · cases h
    exact announced_of_broadcast (s := s) rfl
  · cases h
    exact hs.frame (fun _ => id) (fun _ => rfl) rfl id (stopped_setClose (by simp [hpc]))
  · cases h
    exact hs.frame (fun _ => id) id rfl id (stopped_setClose (by simp [hpc]))

theorem announced_step (h : step s l = some t) (hs : s.Announced) : t.Announced := by
  cases l with
  | acquire u =>
    simp only [step] at h
    split at h
    · obtain ⟨v, hv, rfl⟩ := Option.map_eq_some_iff.mp h
      have hann := acquired_announced hv hs
      exact hann
    · cases h
  | release u =>
    obtain ⟨v, hv, rfl⟩ := Option.map_eq_some_iff.mp h
    have hann := released_announced hv hs
    exact hann
  | wake u =>
    simp only [step] at h
    split at h <;> cases h
    exact hs.frame (fun w hw => ((Condvar.parked_wake _ _ _).mp hw).1) id rfl id id
  | submitCheck k | push k | submitBroadcast k | report k =>
    exact submit_announced (k := k) (by simp) h hs
  | workerCheck w | finish w | decrement w | workerBroadcast w =>
    exact worker_announced (w := w) (by simp) h hs
  | mark c | closeCheck c | stop c | closeBroadcast c | clear c | join c =>
    exact close_announced (c := c) (by simp) h hs

/-! ## Runs -/

theorem run_inv {ls : List (Label cfg)} (h : Run step anyStep (new cfg) ls s) :
    s.Excludes ∧ s.Announced := by
  refine h.invariant (I := fun s => s.Excludes ∧ s.Announced)
    (fun _ hstep hs => ⟨excludes_step hstep hs.1, announced_step hstep hs.2⟩) ⟨?_, ?_⟩
  · intro u hu
    cases u <;> cases hu
  · intro w hw
    exact absurd hw (Condvar.parked_new _)

/-- Outside of critical sections a parked worker has nothing to do. -/
theorem nothing_to_do (hexcl : s.Excludes) (hann : s.Announced) (hfree : s.mutex = none)
    {w : Fin cfg.workerCount} (hw : s.WorkerParked w) : s.tasks = [] ∧ s.draining = true := by
  have hnobody : ∀ u, ¬ s.inside u = true := by
    intro u hu
    have hheld := hexcl u hu
    rw [hfree] at hheld
    cases hheld
  obtain ⟨htasks, hdraining⟩ := hann w hw
  constructor
  · rcases htasks with htasks | ⟨k, dropped, hk⟩
    · exact htasks
    · exact absurd (by simp [inside, hk, SubmitPc.inside]) (hnobody (.submit k))
  · rcases hdraining with hdraining | ⟨c, hc⟩
    · exact hdraining
    · exact absurd (by simp [inside, hc, ClosePc.inside]) (hnobody (.close c))

/-- **No wake-up is lost.** Whenever the mutex is free, no task is queued while every worker is
parked, and no worker is parked once the drain is over. -/
theorem broadcasts_reach_the_workers {ls : List (Label cfg)}
    (h : Run step anyStep (new cfg) ls s) (hfree : s.mutex = none) :
    ¬ (s.tasks ≠ [] ∧ ∀ w, s.WorkerParked w) ∧ ¬ (s.draining = false ∧ ∃ w, s.WorkerParked w) := by
  obtain ⟨hexcl, hann⟩ := run_inv h
  constructor
  · intro hboth
    obtain ⟨htasks, hall⟩ := hboth
    exact htasks (nothing_to_do hexcl hann hfree (hall ⟨0, cfg.workerCount_pos⟩)).1
  · intro hboth
    obtain ⟨hdraining, w, hw⟩ := hboth
    rw [(nothing_to_do hexcl hann hfree hw).2] at hdraining
    cases hdraining

/-- One worker, room for one task. -/
def smallest : Config := ⟨1, 1, Nat.one_pos⟩

/-- A task is pushed while the one worker is parked, and the close that comes next waits for it. -/
theorem broadcasts_reach_the_workers_pushed : ∃ ls s, Run step anyStep (new smallest) ls s ∧
    s.mutex = none ∧ s.tasks = [0] ∧ s.closes 0 = .waiting ∧
    ¬ (s.tasks ≠ [] ∧ ∀ w, s.WorkerParked w) ∧ ¬ (s.draining = false ∧ ∃ w, s.WorkerParked w) := by
  have hex : ∃ ls s, Run step anyStep (new smallest) ls s ∧ s.mutex = none ∧ s.tasks = [0] ∧
      s.closes 0 = .waiting := by
    refine ⟨_, _, run_of_exec [.acquire (.worker (0 : Fin 1)), .workerCheck (0 : Fin 1),
      .acquire (.submit 0), .submitCheck 0 false, .push 0, .submitBroadcast 0,
      .release (.submit 0), .report 0, .acquire (.close 0), .mark 0, .release (.close 0),
      .acquire (.close 0), .closeCheck 0 false] rfl, rfl, rfl, rfl⟩
  obtain ⟨ls, s, hrun, hfree, hfacts⟩ := hex
  exact ⟨ls, s, hrun, hfree, hfacts.1, hfacts.2, broadcasts_reach_the_workers hrun hfree⟩

end AsyncDispatcher

end OppexSdk.Ruby.Dispatcher
