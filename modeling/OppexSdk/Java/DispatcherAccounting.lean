import OppexSdk.Java.AsyncDispatcher

/-! # Every task of the Java dispatcher is in one place

What the program counters, the pool and the histories say of the tasks is read as a view. The tasks
that `shutdownNow` has handed to `close` are still waiting, and so belong to the view's queue. -/
namespace OppexSdk.Java
open OppexSdk.Lib OppexSdk.Lib.Lifecycle OppexSdk.Lib.Transition

inductive Holder (cfg : Config)
  | worker (w : Fin cfg.workerCount)
  | submit (k : Nat)
  | closer
  deriving DecidableEq

def DropPc.stage : DropPc → Option Stage
  | claim => some .claim
  | decrement => some .decrement
  | count => some .act
  | record => none

/-- What a submit says about its own task. -/
def SubmitPc.status {η : Type} : SubmitPc → Option (Place η)
  | outside | raised => some .fresh
  | registering => some .created
  | executing | rejected | polling | dropping .. | rechecking | offering => some .own
  | droppingSelf _ | returned => none

/-- The task a submit is dropping. -/
def SubmitPc.holding (k : Nat) : SubmitPc → Option (Nat × Stage)
  | dropping oldest pc => pc.stage.map (oldest, ·)
  | droppingSelf pc => pc.stage.map (k, ·)
  | _ => none

def RunPc.holding : RunPc → Option (Nat × Stage)
  | claiming task => some (task, .claim)
  | decrementing task => some (task, .decrement)
  | calling task => some (task, .act)
  | running _ => none

def held : ThreadPool.Worker RunPc → Option (Nat × Stage)
  | .executing pc => pc.holding
  | _ => none

def ClosePc.holding : ClosePc → Option (Nat × Stage)
  | dropping task pc _ => pc.stage.map (task, ·)
  | _ => none

/-- The tasks that close has still to drop. -/
def ClosePc.waiting : ClosePc → List Nat
  | pending tasks | dropping _ _ tasks => tasks
  | _ => []

namespace AsyncDispatcher
variable {cfg : Config} {s t : AsyncDispatcher cfg}

def holding (s : AsyncDispatcher cfg) : Holder cfg → Option (Nat × Stage)
  | .worker w => held (s.executor.workers w)
  | .submit k => (s.submits k).holding k
  | .closer => s.close.holding

def view (s : AsyncDispatcher cfg) : View Nat (Holder cfg) where
  status i := (s.submits i).status
  queue := s.close.waiting ++ s.executor.queue
  holding := s.holding
  claimed := s.startedOrDropped
  depth := s.queued
  registered := s.registered
  claims := s.claims
  released := s.released
  done := s.ran ++ s.dropLog

/-- Every task is in one place, counted and acted on as its place says. -/
def Accounted (s : AsyncDispatcher cfg) : Prop := s.view.Accounted

/-! ## What a change of one program counter says -/

theorem view_setSubmit (k : Nat) (pc : SubmitPc) : (s.setSubmit k pc).view =
    (s.view.setStatus k pc.status).setHolding (.submit k) (pc.holding k) := by
  have hstatus : (s.setSubmit k pc).view.status = Function.update s.view.status k pc.status := by
    refine Function.eq_update_iff.mpr ⟨?_, ?_⟩
    · simp [view, setSubmit]
    · intro i hi
      simp [view, setSubmit, hi]
  have hholding : (s.setSubmit k pc).view.holding =
      Function.update s.view.holding (.submit k) (pc.holding k) := by
    refine Function.eq_update_iff.mpr ⟨?_, ?_⟩
    · simp [view, holding, setSubmit]
    · intro h hne
      cases h with
      | submit j =>
        have hj : j ≠ k := fun hj => hne (congrArg Holder.submit hj)
        simp [view, holding, setSubmit, hj]
      | _ => rfl
  rw [View.setStatus, View.setHolding, ← hstatus, ← hholding]
  rfl

/-- One worker of the pool moves on, and the queue may change with it. -/
theorem view_setWorker {p : ThreadPool cfg.workerCount Nat RunPc} (w : Fin cfg.workerCount)
    (pc : ThreadPool.Worker RunPc) (hp : p.workers = Function.update s.executor.workers w pc) :
    (s.setExecutor p).view = { s.view.setHolding (.worker w) (held pc) with
      queue := s.close.waiting ++ p.queue } := by
  have hholding : (s.setExecutor p).view.holding =
      Function.update s.view.holding (.worker w) (held pc) := by
    refine Function.eq_update_iff.mpr ⟨?_, ?_⟩
    · simp [view, holding, setExecutor, hp]
    · intro h hne
      cases h with
      | worker v =>
        have hv : v ≠ w := fun hv => hne (congrArg Holder.worker hv)
        simp [view, holding, setExecutor, hp, hv]
      | _ => rfl
  rw [View.setHolding, ← hholding]
  rfl

/-- Only the queue of the pool changes. -/
theorem view_setExecutor {p : ThreadPool cfg.workerCount Nat RunPc}
    (hp : p.workers = s.executor.workers) :
    (s.setExecutor p).view = { s.view with queue := s.close.waiting ++ p.queue } := by
  have hholding : (s.setExecutor p).holding = s.holding := by
    funext h
    cases h with
    | worker v => simp [holding, setExecutor, hp]
    | _ => rfl
  rw [view, hholding]
  rfl

theorem view_setClose (pc : ClosePc) : (s.setClose pc).view =
    { s.view.setHolding .closer pc.holding with queue := pc.waiting ++ s.executor.queue } := by
  have hholding : (s.setClose pc).view.holding =
      Function.update s.view.holding .closer pc.holding := by
    funext h
    cases h <;> rfl
  rw [View.setHolding, ← hholding]
  rfl

section
variable {k : Nat} {pc₀ : SubmitPc}

/-- A submit that holds what it did before. -/
theorem view_setSubmit_status (pc : SubmitPc) (hpc : s.submits k = pc₀)
    (h : pc₀.holding k = pc.holding k) :
    (s.setSubmit k pc).view = s.view.setStatus k pc.status := by
  rw [view_setSubmit, View.setHolding_self]
  simp [View.setStatus, view, holding, hpc, h]

/-- A submit that says of its own task what it did before. -/
theorem view_setSubmit_holding (pc : SubmitPc) (hpc : s.submits k = pc₀)
    (h : pc₀.status (η := Holder cfg) = pc.status) :
    (s.setSubmit k pc).view = s.view.setHolding (.submit k) (pc.holding k) := by
  rw [view_setSubmit, View.setStatus_self]
  simp [view, hpc, h]

theorem view_setSubmit_same (pc : SubmitPc) (hpc : s.submits k = pc₀)
    (hstatus : pc₀.status (η := Holder cfg) = pc.status)
    (hholding : pc₀.holding k = pc.holding k) : (s.setSubmit k pc).view = s.view := by
  rw [view_setSubmit_status pc hpc hholding, View.setStatus_self]
  simp [view, hpc, hstatus]

end

theorem view_setClose_same (pc : ClosePc) {pc₀ : ClosePc} (hpc : s.close = pc₀)
    (hholding : pc₀.holding = pc.holding) (hwaiting : pc₀.waiting = pc.waiting) :
    (s.setClose pc).view = s.view := by
  rw [view_setClose, View.setHolding_self]
  · simp [view, hpc, hwaiting]
  · simp [view, holding, hpc, hholding]

/-- What a worker holds is what its place in the pool says. -/
theorem view_worker {w : Fin cfg.workerCount} {pc : ThreadPool.Worker RunPc}
    (hpc : s.executor.workers w = pc) : s.view.holding (.worker w) = held pc := by
  simp [view, holding, hpc]

/-- A worker that holds what it did before, with the queue unchanged. -/
theorem view_setWorker_same {p : ThreadPool cfg.workerCount Nat RunPc} {w : Fin cfg.workerCount}
    {pc pc₀ : ThreadPool.Worker RunPc} (hpc : s.executor.workers w = pc₀)
    (hp : p.workers = Function.update s.executor.workers w pc) (hqueue : p.queue = s.executor.queue)
    (hheld : held pc₀ = held pc) : (s.setExecutor p).view = s.view := by
  rw [view_setWorker w pc hp, hqueue, View.setHolding_self]
  · rfl
  · rw [view_worker hpc, hheld]

/-! ## Claims -/

section
variable {h : Holder cfg} {i : Nat}

/-- The holder of an unclaimed task is the one who claims it. -/
theorem claim_of_holding (hs : s.Accounted) (hh : s.holding h = some (i, .claim)) :
    s.claim i = ({ s with
      startedOrDropped := Function.update s.startedOrDropped i true
      claims := s.claims ++ [i] }, true) := by
  have hnot : s.startedOrDropped i = false := hs.claimed_of_at (p := .held h .claim) hh
  simp [claim, hnot]

/-- A step of `TrackedTask.drop` moves nobody. -/
theorem drop_frame (s : AsyncDispatcher cfg) (i : Nat) (pc : DropPc) :
    (s.drop i pc).1.submits = s.submits ∧ (s.drop i pc).1.executor = s.executor ∧
      (s.drop i pc).1.close = s.close := by
  cases pc with
  | claim =>
    simp only [drop, claim]
    split <;> exact ⟨rfl, rfl, rfl⟩
  | _ => exact ⟨rfl, rfl, rfl⟩

/-- One step of `TrackedTask.drop`, whoever calls it. -/
theorem drop_accounted (pc : DropPc) (hs : s.Accounted)
    (hh : s.holding h = pc.stage.map (i, ·)) :
    ((s.drop i pc).1.view.setHolding h
      ((s.drop i pc).2.bind fun pc => pc.stage.map (i, ·))).Accounted := by
  cases pc with
  | claim =>
    simp only [drop, claim_of_holding hs hh, if_true]
    exact View.Accounted.claim (v := s.view) hs hh (List.Perm.refl _)
  | decrement => exact View.Accounted.decrement (v := s.view) hs hh rfl (List.Perm.refl _)
  | count =>
    have happ : s.ran ++ (s.dropLog ++ [i]) = s.view.done ++ [i] := (List.append_assoc ..).symm
    exact View.Accounted.act (v := s.view) hs hh (happ ▸ List.Perm.refl _)
  | record =>
    have hsame : s.view.setHolding h none = s.view := View.setHolding_self hh
    exact (congrArg View.Accounted hsame).mpr hs

end

/-! ## Submits -/

section
variable {k : Nat}

theorem submit_accounted {isNull : Bool} (h : step s (.submit k isNull) = some t)
    (hs : s.Accounted) : t.Accounted := by
  simp only [step] at h
  split at h
  · rename_i hpc
    cases h
    by_cases hraise : (isNull || s.closed) = true
    · rw [if_pos hraise, Accounted, view_setSubmit_same .raised hpc rfl rfl]
      exact hs
    · rw [if_neg hraise, Accounted, view_setSubmit_status .registering hpc rfl]
      exact hs.create (by simp [view, hpc, SubmitPc.status])
  · cases h

theorem incrementQueued_accounted (h : step s (.incrementQueued k) = some t)
    (hs : s.Accounted) : t.Accounted := by
  simp only [step] at h
  split at h
  · rename_i hpc
    cases h
    have hview := view_setSubmit_status (s := s) .executing hpc rfl
    have hk : s.view.status k = some .created := by simp [view, hpc, SubmitPc.status]
    have hcount := hs.count hk rfl (List.Perm.refl _)
    rw [← show SubmitPc.executing.status = some (Place.own (η := Holder cfg)) from rfl,
      ← hview] at hcount
    exact hcount
  · cases h

/-- The submit gives its task up. -/
theorem giveUp_accounted {pc₀ : SubmitPc} (hpc : s.submits k = pc₀) (hs : s.Accounted)
    (hown : pc₀.status (η := Holder cfg) = some .own) (hno : pc₀.holding k = none) :
    (s.setSubmit k (.droppingSelf .claim)).Accounted := by
  rw [Accounted, view_setSubmit]
  refine hs.hand (h := .submit k) ?_ ?_
  · simp [view, hpc, hown]
  · simp [view, holding, hpc, hno]

/-- The task of the submit is put into the queue of the pool. -/
theorem enqueue_accounted {pc₀ : SubmitPc} (hpc : s.submits k = pc₀) (hs : s.Accounted)
    (hown : pc₀.status (η := Holder cfg) = some .own) (hno : pc₀.holding k = none) :
    ((s.setExecutor { s.executor with queue := s.executor.queue ++ [k] }).setSubmit k
      .returned).Accounted := by
  have hk : s.view.status k = some .own := by simp [view, hpc, hown]
  have hqueue : (s.close.waiting ++ (s.executor.queue ++ [k])).Perm (s.view.queue ++ [k]) :=
    .of_eq (List.append_assoc ..).symm
  have henq := hs.enqueue hk hqueue
  rw [Accounted, view_setSubmit_status, view_setExecutor]
  · exact henq
  · rfl
  · exact hpc
  · exact hno

theorem execute_accounted (h : step s (.execute k) = some t) (hs : s.Accounted) :
    t.Accounted := by
  simp only [step] at h
  split at h
  · rename_i hpc
    split at h
    · rename_i p hex
      cases h
      rcases (ThreadPool.execute_eq_some hex).2 with ⟨w, hw, rfl⟩ | ⟨-, rfl⟩
      · -- A new worker begins with the task.
        have hk : s.view.status k = some .own := by simp [view, hpc, SubmitPc.status]
        have hhand := hs.hand (h := .worker w) hk (view_worker hw)
        rw [Accounted, view_setSubmit_status, view_setWorker w (.executing (.claiming k))]
        · exact hhand
        · rfl
        · exact hpc
        · rfl
      · exact enqueue_accounted hpc hs rfl rfl
    · cases h
      rw [Accounted, view_setSubmit_same .rejected hpc rfl rfl]
      exact hs
  · cases h

theorem offer_accounted (h : step s (.offer k) = some t) (hs : s.Accounted) : t.Accounted := by
  simp only [step] at h
  split at h
  · rename_i hpc
    split at h
    · rename_i p hoffer
      cases h
      unfold ThreadPool.offer at hoffer
      split at hoffer <;> cases hoffer
      exact enqueue_accounted hpc hs rfl rfl
    · cases h
      exact giveUp_accounted hpc hs rfl rfl
  · cases h

/-- A look at the pool: the submit gives its task up, or goes on. -/
theorem look_accounted {pc pc₀ : SubmitPc} {gives : Bool} (hpc : s.submits k = pc₀)
    (hs : s.Accounted) (hown : pc₀.status (η := Holder cfg) = some .own)
    (hno : pc₀.holding k = none) (hstatus : pc.status (η := Holder cfg) = some .own)
    (hholding : pc.holding k = none) :
    (s.setSubmit k (if gives then .droppingSelf .claim else pc)).Accounted := by
  cases gives with
  | true => exact giveUp_accounted hpc hs hown hno
  | false =>
    have hsame := view_setSubmit_same pc hpc (hown.trans hstatus.symm) (hno.trans hholding.symm)
    exact (congrArg View.Accounted hsame).mpr hs

theorem isShutdown_accounted (h : step s (.isShutdown k) = some t) (hs : s.Accounted) :
    t.Accounted := by
  simp only [step] at h
  split at h
  · rename_i hpc
    cases h
    exact look_accounted hpc hs rfl rfl rfl rfl
  · cases h

theorem recheck_accounted (h : step s (.recheck k) = some t) (hs : s.Accounted) :
    t.Accounted := by
  simp only [step] at h
  split at h
  · rename_i hpc
    cases h
    exact look_accounted hpc hs rfl rfl rfl rfl
  · cases h

theorem poll_accounted (h : step s (.poll k) = some t) (hs : s.Accounted) : t.Accounted := by
  simp only [step] at h
  split at h
  · rename_i hpc _
    cases h
    rw [Accounted, view_setSubmit_same .rechecking hpc rfl rfl]
    exact hs
  · rename_i oldest rest hpc hq
    cases h
    have hh : s.view.holding (.submit k) = none := by simp [view, holding, hpc, SubmitPc.holding]
    have hqueue : s.view.queue.Perm (oldest :: (s.close.waiting ++ rest)) := by
      rw [view, hq]
      exact List.perm_middle
    have htake := hs.take hh hqueue
    rw [Accounted, view_setSubmit_holding, view_setExecutor]
    · exact htake
    · rfl
    · exact hpc
    · rfl
  · cases h

theorem submitDrop_accounted (h : step s (.submitDrop k) = some t) (hs : s.Accounted) :
    t.Accounted := by
  simp only [step] at h
  split at h
  · rename_i oldest pc hpc
    cases h
    have hdrop := drop_accounted (h := .submit k) (i := oldest) pc hs
      (by simp [holding, hpc, SubmitPc.holding])
    have hsubmits : (s.drop oldest pc).1.submits k = .dropping oldest pc := by
      rw [(drop_frame s oldest pc).1, hpc]
    rw [Accounted, view_setSubmit_holding _ hsubmits (by cases (s.drop oldest pc).2 <;> rfl)]
    cases hnext : (s.drop oldest pc).2 <;> rw [hnext] at hdrop <;> exact hdrop
  · rename_i pc hpc
    cases h
    have hdrop := drop_accounted (h := .submit k) (i := k) pc hs
      (by simp [holding, hpc, SubmitPc.holding])
    have hsubmits : (s.drop k pc).1.submits k = .droppingSelf pc := by
      rw [(drop_frame s k pc).1, hpc]
    rw [Accounted, view_setSubmit_holding _ hsubmits (by cases (s.drop k pc).2 <;> rfl)]
    cases hnext : (s.drop k pc).2 <;> rw [hnext] at hdrop <;> exact hdrop
  · cases h

end

/-! ## Workers -/

section
variable {w : Fin cfg.workerCount}

theorem take_accounted (h : step s (.take w) = some t) (hs : s.Accounted) : t.Accounted := by
  obtain ⟨p, htake, rfl⟩ := Option.map_eq_some_iff.mp h
  obtain ⟨hw, -, task, rest, hq, rfl⟩ := ThreadPool.take_eq_some htake
  have hqueue : s.view.queue.Perm (task :: (s.close.waiting ++ rest)) := by
    rw [view, hq]
    exact List.perm_middle
  have htaken := hs.take (view_worker hw) hqueue
  rw [Accounted, view_setWorker w (.executing (.claiming task)) rfl]
  exact htaken

theorem exit_accounted (h : step s (.exit w) = some t) (hs : s.Accounted) : t.Accounted := by
  obtain ⟨p, hexit, rfl⟩ := Option.map_eq_some_iff.mp h
  obtain ⟨hw, -, rfl⟩ := ThreadPool.exit_eq_some hexit
  have hsame := view_setWorker_same (p := s.executor.setWorker w .exited) hw rfl rfl rfl
  exact (congrArg View.Accounted hsame).mpr hs

theorem claim_accounted (h : step s (.claim w) = some t) (hs : s.Accounted) : t.Accounted := by
  simp only [step] at h
  split at h
  · rename_i task hw
    have hh : s.view.holding (.worker w) = some (task, .claim) := view_worker hw
    simp only [claim_of_holding (h := .worker w) hs hh] at h
    cases h
    have hclaim := hs.claim hh (List.Perm.refl _)
    rw [if_pos trivial, Accounted, setRun, view_setWorker w (.executing (.decrementing task)) rfl]
    exact hclaim
  · cases h

theorem decrement_accounted (h : step s (.decrement w) = some t) (hs : s.Accounted) :
    t.Accounted := by
  simp only [step] at h
  split at h
  · rename_i task hw
    cases h
    have hdec := hs.decrement (view_worker hw) rfl (List.Perm.refl _)
    rw [Accounted, setRun, view_setWorker w (.executing (.calling task)) rfl]
    exact hdec
  · cases h

theorem call_accounted (h : step s (.call w) = some t) (hs : s.Accounted) : t.Accounted := by
  simp only [step] at h
  split at h
  · rename_i task hw
    cases h
    have hdone : ((s.ran ++ [task]) ++ s.dropLog).Perm (s.view.done ++ [task]) := by
      rw [view, List.append_assoc, List.append_assoc]
      exact (List.perm_append_singleton task s.dropLog).symm.append_left s.ran
    have hact := hs.act (view_worker hw) hdone
    have hview := view_setWorker (s := s) (p := s.executor.setWorker w (.executing (.running task)))
      w (.executing (.running task)) rfl
    exact (congrArg (fun v => View.Accounted { v with done := (s.ran ++ [task]) ++ s.dropLog })
      hview).mpr hact
  · cases h

theorem finish_accounted {threw : Bool} (h : step s (.finish w threw) = some t)
    (hs : s.Accounted) : t.Accounted := by
  simp only [step] at h
  split at h
  · rename_i hw
    cases h
    have hsame := view_setWorker_same (p := s.executor.finish w threw) hw rfl rfl
      (by split <;> rfl)
    exact (congrArg View.Accounted hsame).mpr hs
  · cases h

end

/-! ## Close -/

theorem shutdown_accounted (h : step s .shutdown = some t) (hs : s.Accounted) : t.Accounted := by
  simp only [step] at h
  split at h
  · rename_i hpc
    cases h
    have hworkers : s.executor.shutdown.workers = s.executor.workers := by
      unfold ThreadPool.shutdown
      split <;> rfl
    have hqueue : s.executor.shutdown.queue = s.executor.queue := by
      unfold ThreadPool.shutdown
      split <;> rfl
    have hclose : (s.setExecutor s.executor.shutdown).close = .shuttingDown := hpc
    rw [Accounted, view_setClose_same .awaiting hclose rfl rfl, view_setExecutor hworkers, hqueue]
    exact hs
  · cases h

/-- The tasks of the queue go to close. -/
theorem shutdownNow_accounted (h : step s .shutdownNow = some t) (hs : s.Accounted) :
    t.Accounted := by
  simp only [step] at h
  split at h
  · rename_i hpc
    cases h
    have hqueue : s.executor.queue ++ [] = s.view.queue := by
      simp [view, hpc, ClosePc.waiting]
    have hheld : s.view.holding .closer = none := by simp [view, holding, hpc, ClosePc.holding]
    have hview : ((s.setExecutor s.executor.shutdownNow).setClose
        (.pending s.executor.queue)).view = s.view := by
      rw [view_setClose, view_setExecutor]
      · exact hqueue ▸ View.setHolding_self hheld
      · rfl
    exact (congrArg View.Accounted hview).mpr hs
  · cases h

theorem nextPending_accounted (h : step s .nextPending = some t) (hs : s.Accounted) :
    t.Accounted := by
  simp only [step] at h
  split at h
  · rename_i hpc
    cases h
    rw [Accounted, view_setClose_same .returned hpc rfl rfl]
    exact hs
  · rename_i task rest hpc
    cases h
    have hh : s.view.holding .closer = none := by simp [view, holding, hpc, ClosePc.holding]
    have hqueue : s.view.queue.Perm (task :: (rest ++ s.executor.queue)) := by
      rw [view, hpc]
      exact List.Perm.refl _
    have htake := hs.take hh hqueue
    rw [Accounted, view_setClose]
    exact htake
  · cases h

theorem closeDrop_accounted (h : step s .closeDrop = some t) (hs : s.Accounted) :
    t.Accounted := by
  simp only [step] at h
  split at h
  · rename_i task pc rest hpc
    cases h
    have hdrop := drop_accounted (h := .closer) (i := task) pc hs
      (by simp [holding, hpc, ClosePc.holding])
    obtain ⟨-, hexecutor, hclose⟩ := drop_frame s task pc
    have hqueue : rest ++ (s.drop task pc).1.executor.queue = (s.drop task pc).1.view.queue := by
      rw [view, hclose, hpc]
      rfl
    rw [Accounted, view_setClose]
    cases hnext : (s.drop task pc).2 <;> rw [hnext] at hdrop
    · exact (congrArg (fun q => View.Accounted
        { (s.drop task pc).1.view.setHolding .closer none with queue := q }) hqueue).mpr hdrop
    · exact (congrArg (fun q => View.Accounted
        { (s.drop task pc).1.view.setHolding .closer _ with queue := q }) hqueue).mpr hdrop
  · cases h

theorem awaitTermination_accounted {expired : Bool}
    (h : step s (.awaitTermination expired) = some t) (hs : s.Accounted) : t.Accounted := by
  simp only [step] at h
  split at h
  · rename_i hpc
    split at h
    · cases h
      rw [Accounted, view_setClose_same .stopping hpc rfl rfl]
      exact hs
    · split at h <;> cases h
      rw [Accounted, view_setClose_same .returned hpc rfl rfl]
      exact hs
  · cases h

theorem close_accounted (h : step s .close = some t) (hs : s.Accounted) : t.Accounted := by
  simp only [step] at h
  split at h
  · rename_i hpc
    cases h
    exact (congrArg View.Accounted (view_setClose_same .shuttingDown hpc rfl rfl)).mpr hs
  · cases h

/-! ## Runs -/

theorem accounted_step {l : Label cfg} (h : step s l = some t) (hs : s.Accounted) :
    t.Accounted := by
  cases l with
  | submit k isNull => exact submit_accounted h hs
  | incrementQueued k => exact incrementQueued_accounted h hs
  | execute k => exact execute_accounted h hs
  | isShutdown k => exact isShutdown_accounted h hs
  | poll k => exact poll_accounted h hs
  | submitDrop k => exact submitDrop_accounted h hs
  | recheck k => exact recheck_accounted h hs
  | offer k => exact offer_accounted h hs
  | take w => exact take_accounted h hs
  | exit w => exact exit_accounted h hs
  | claim w => exact claim_accounted h hs
  | decrement w => exact decrement_accounted h hs
  | call w => exact call_accounted h hs
  | finish w threw => exact finish_accounted h hs
  | close => exact close_accounted h hs
  | shutdown => exact shutdown_accounted h hs
  | awaitTermination expired => exact awaitTermination_accounted h hs
  | shutdownNow => exact shutdownNow_accounted h hs
  | nextPending => exact nextPending_accounted h hs
  | closeDrop => exact closeDrop_accounted h hs

theorem view_new (cfg : Config) : (new cfg).view = View.new := by
  have hholding : (new cfg).holding = fun _ => none := by
    funext h
    cases h <;> rfl
  rw [view, hholding]
  rfl

/-- Every state that a run reaches is accounted for, whatever the order of its steps. -/
theorem run_accounted {ok : AsyncDispatcher cfg → Label cfg → Prop} {ls : List (Label cfg)}
    (h : Run step ok (new cfg) ls s) : s.Accounted := by
  refine h.invariant (fun _ hstep hs => accounted_step hstep hs) ?_
  rw [Accounted, view_new]
  exact View.accounted_new

end AsyncDispatcher

end OppexSdk.Java
