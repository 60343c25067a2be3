import OppexSdk.Python.Dispatcher

/-! # Every task of the Python dispatcher is in one place

The program counters, the queue and the histories are read as a view of the tasks. Every step is a
move of one task in it, or none, and so the view is accounted for in every reachable state. -/
namespace OppexSdk.Python.Dispatcher
open OppexSdk.Lib.Lifecycle OppexSdk.Lib.Transition

inductive Holder (cfg : Config)
  | worker (w : Fin cfg.workerCount)
  | submit (k : Nat)
  | closer
  deriving DecidableEq

def DropPc.stage : DropPc → Option Stage
  | claim => some .claim
  | decrement => some .decrement
  | count => some .act
  | record => none

/-- What a submit says about its own task. -/
def SubmitPc.status {η : Type} : SubmitPc → Option (Place η)
  | outside | raised => some .fresh
  | registering => some .created
  | acquiring | offering | polling | dropping .. | rechecking | reoffering => some .own
  | droppingSelf _ | releasing | returned => none

/-- The task a submit is dropping. -/
def SubmitPc.holding (k : Nat) : SubmitPc → Option (Nat × Stage)
  | dropping oldest pc => pc.stage.map (oldest, ·)
  | droppingSelf pc => pc.stage.map (k, ·)
  | _ => none

def WorkerPc.holding : WorkerPc → Option (Nat × Stage)
  | claiming task => some (task, .claim)
  | decrementing task => some (task, .decrement)
  | calling task => some (task, .act)
  | _ => none

def ClosePc.holding : ClosePc → Option (Nat × Stage)
  | dropping task pc => pc.stage.map (task, ·)
  | _ => none

namespace AsyncDispatcher
variable {cfg : Config} {s t : AsyncDispatcher cfg}

def holding (s : AsyncDispatcher cfg) : Holder cfg → Option (Nat × Stage)
  | .worker w => (s.workers w).holding
  | .submit k => (s.submits k).holding k
  | .closer => s.close.holding

/-- What the program counters, the queue and the histories say of the tasks. -/
def view (s : AsyncDispatcher cfg) : View Nat (Holder cfg) where
  status i := (s.submits i).status
  queue := s.queue
  holding := s.holding
  claimed := s.claimed
  depth := s.queued
  registered := s.registered
  claims := s.runClaims ++ s.dropClaims
  released := s.released
  done := s.ran ++ s.dropLog

/-- Every task is in one place, counted and acted on as its place says. -/
def Accounted (s : AsyncDispatcher cfg) : Prop := s.view.Accounted

/-! ## What a change of one program counter says -/

/-- A submit that moves on changes what it says of its own task and of the task it holds. -/
theorem view_setSubmit (k : Nat) (pc : SubmitPc) : (s.setSubmit k pc).view =
    (s.view.setStatus k pc.status).setHolding (.submit k) (pc.holding k) := by
  have hstatus : (s.setSubmit k pc).view.status = Function.update s.view.status k pc.status := by
    refine Function.eq_update_iff.mpr ⟨?_, ?_⟩
    · simp [view, setSubmit]
    · intro i hi
      simp [view, setSubmit, hi]
  have hholding : (s.setSubmit k pc).view.holding =
      Function.update s.view.holding (.submit k) (pc.holding k) := by
    refine Function.eq_update_iff.mpr ⟨?_, ?_⟩
    · simp [view, holding, setSubmit]
    · intro h hne
      cases h with
      | submit j =>
        have hj : j ≠ k := fun hj => hne (congrArg Holder.submit hj)
        simp [view, holding, setSubmit, hj]
      | _ => rfl
  rw [View.setStatus, View.setHolding, ← hstatus, ← hholding]
  rfl

theorem view_setWorker (w : Fin cfg.workerCount) (pc : WorkerPc) :
    (s.setWorker w pc).view = s.view.setHolding (.worker w) pc.holding := by
  have hholding : (s.setWorker w pc).view.holding =
      Function.update s.view.holding (.worker w) pc.holding := by
    refine Function.eq_update_iff.mpr ⟨?_, ?_⟩
    · simp [view, holding, setWorker]
    · intro h hne
      cases h with
      | worker v =>
        have hv : v ≠ w := fun hv => hne (congrArg Holder.worker hv)
        simp [view, holding, setWorker, hv]
      | _ => rfl
  rw [View.setHolding, ← hholding]
  rfl

theorem view_setClose (pc : ClosePc) :
    (s.setClose pc).view = s.view.setHolding .closer pc.holding := by
  have hholding : (s.setClose pc).view.holding =
      Function.update s.view.holding .closer pc.holding := by
    funext h
    cases h <;> rfl
  rw [View.setHolding, ← hholding]
  rfl

section
variable {k : Nat} {pc pc₀ : SubmitPc}

/-- A submit that holds what it did before. -/
theorem view_setSubmit_status (pc : SubmitPc) (hpc : s.submits k = pc₀)
    (h : pc₀.holding k = pc.holding k) :
    (s.setSubmit k pc).view = s.view.setStatus k pc.status := by
  rw [view_setSubmit, View.setHolding_self]
  simp [View.setStatus, view, holding, hpc, h]

/-- A submit that says of its own task what it did before. -/
theorem view_setSubmit_holding (pc : SubmitPc) (hpc : s.submits k = pc₀)
    (h : pc₀.status (η := Holder cfg) = pc.status) :
    (s.setSubmit k pc).view = s.view.setHolding (.submit k) (pc.holding k) := by
  rw [view_setSubmit, View.setStatus_self]
  simp [view, hpc, h]

/-- A submit that moves on and says of its task, and holds, what it did before. -/
theorem view_setSubmit_same (pc : SubmitPc) (hpc : s.submits k = pc₀)
    (hstatus : pc₀.status (η := Holder cfg) = pc.status)
    (hholding : pc₀.holding k = pc.holding k) : (s.setSubmit k pc).view = s.view := by
  rw [view_setSubmit_status pc hpc hholding, View.setStatus_self]
  simp [view, hpc, hstatus]

end

/-- A worker that moves on and holds what it did before. -/
theorem view_setWorker_same {w : Fin cfg.workerCount} (pc : WorkerPc) {pc₀ : WorkerPc}
    (hpc : s.workers w = pc₀) (hholding : pc₀.holding = pc.holding) :
    (s.setWorker w pc).view = s.view := by
  rw [view_setWorker, View.setHolding_self]
  simp [view, holding, hpc, hholding]

theorem view_setClose_same (pc : ClosePc) {pc₀ : ClosePc} (hpc : s.close = pc₀)
    (hholding : pc₀.holding = pc.holding) : (s.setClose pc).view = s.view := by
  rw [view_setClose, View.setHolding_self]
  simp [view, holding, hpc, hholding]

/-! ## Claims -/

section
variable {h : Holder cfg} {i : Nat}

/-- The holder of an unclaimed task is the one who claims it. -/
theorem claim_of_holding (hs : s.Accounted) (hh : s.holding h = some (i, .claim)) :
    s.claim i = ({ s with claimed := Function.update s.claimed i true }, true) := by
  have hnot : s.claimed i = false := hs.claimed_of_at (p := .held h .claim) hh
  simp [claim, hnot]

theorem drop_submits (s : AsyncDispatcher cfg) (i : Nat) (pc : DropPc) :
    (s.drop i pc).1.submits = s.submits := by
  cases pc with
  | claim =>
    simp only [drop, claim]
    split <;> split <;> rfl
  | _ => rfl

/-- One step of `_TrackedTask.drop`, whoever calls it. -/
theorem drop_accounted (pc : DropPc) (hs : s.Accounted)
    (hh : s.holding h = pc.stage.map (i, ·)) :
    ((s.drop i pc).1.view.setHolding h
      ((s.drop i pc).2.bind fun pc => pc.stage.map (i, ·))).Accounted := by
  cases pc with
  | claim =>
    simp only [drop, claim_of_holding hs hh, if_true]
    have happ : s.runClaims ++ (s.dropClaims ++ [i]) = s.view.claims ++ [i] :=
      (List.append_assoc ..).symm
    exact View.Accounted.claim (v := s.view) hs hh (happ ▸ List.Perm.refl _)
  | decrement => exact View.Accounted.decrement (v := s.view) hs hh rfl (List.Perm.refl _)
  | count =>
    have happ : s.ran ++ (s.dropLog ++ [i]) = s.view.done ++ [i] := (List.append_assoc ..).symm
    exact View.Accounted.act (v := s.view) hs hh (happ ▸ List.Perm.refl _)
  | record =>
    have hsame : s.view.setHolding h none = s.view := View.setHolding_self hh
    exact (congrArg View.Accounted hsame).mpr hs

end

/-! ## Submits -/

section
variable {k : Nat}

theorem submit_accounted {isNone : Bool} (h : step s (.submit k isNone) = some t)
    (hs : s.Accounted) : t.Accounted := by
  simp only [step] at h
  split at h
  · rename_i hpc
    cases h
    by_cases hraise : (isNone || s.stopping) = true
    · rw [if_pos hraise, Accounted, view_setSubmit_same .raised hpc rfl rfl]
      exact hs
    · rw [if_neg hraise, Accounted, view_setSubmit_status .registering hpc rfl]
      exact hs.create (by simp [view, hpc, SubmitPc.status])
  · cases h

theorem incrementQueued_accounted (h : step s (.incrementQueued k) = some t)
    (hs : s.Accounted) : t.Accounted := by
  simp only [step] at h
  split at h
  · rename_i hpc
    cases h
    have hview := view_setSubmit_status (s := s) .acquiring hpc rfl
    have hk : s.view.status k = some .created := by simp [view, hpc, SubmitPc.status]
    have hcount := hs.count hk rfl (List.Perm.refl _)
    rw [← show SubmitPc.acquiring.status = some (Place.own (η := Holder cfg)) from rfl,
      ← hview] at hcount
    exact hcount
  · cases h

/-- `_offer` from a place where the submit owns its task. -/
theorem offerOr_accounted {pc pc₀ : SubmitPc} (hpc : s.submits k = pc₀) (hs : s.Accounted)
    (hown : pc₀.status (η := Holder cfg) = some .own) (hno : pc₀.holding k = none)
    (hfull : (s.setSubmit k pc).Accounted) : (s.offerOr k pc).Accounted := by
  unfold offerOr
  split
  · exact hfull
  · have hview := view_setSubmit_status (s := s) .releasing hpc hno
    have hk : s.view.status k = some .own := by simp [view, hpc, hown]
    have henq := hs.enqueue hk (List.Perm.refl _)
    rw [← show SubmitPc.releasing.status = (none : Option (Place (Holder cfg))) from rfl,
      ← hview] at henq
    exact henq

/-- The submit gives its task up. -/
theorem giveUp_accounted {pc₀ : SubmitPc} (hpc : s.submits k = pc₀) (hs : s.Accounted)
    (hown : pc₀.status (η := Holder cfg) = some .own) (hno : pc₀.holding k = none) :
    (s.setSubmit k (.droppingSelf .claim)).Accounted := by
  rw [Accounted, view_setSubmit]
  refine hs.hand (h := .submit k) ?_ ?_
  · simp [view, hpc, hown]
  · simp [view, holding, hpc, hno]

/-- The steps of one submit after `increment_queued`. -/
theorem acquire_accounted (h : step s (.acquire k) = some t) (hs : s.Accounted) :
    t.Accounted := by
  simp only [step] at h
  split at h
  · rename_i hpc _
    cases h
    exact (congrArg View.Accounted (view_setSubmit_same .offering hpc rfl rfl)).mpr hs
  · cases h

theorem offer_accounted (h : step s (.offer k) = some t) (hs : s.Accounted) : t.Accounted := by
  simp only [step] at h
  split at h
  · rename_i hpc
    cases h
    refine offerOr_accounted hpc hs rfl rfl ?_
    rw [Accounted, view_setSubmit_same .polling hpc rfl rfl]
    exact hs
  · cases h

theorem reoffer_accounted (h : step s (.reoffer k) = some t) (hs : s.Accounted) :
    t.Accounted := by
  simp only [step] at h
  split at h
  · rename_i hpc
    cases h
    exact offerOr_accounted hpc hs rfl rfl (giveUp_accounted hpc hs rfl rfl)
  · cases h

theorem poll_accounted (h : step s (.poll k) = some t) (hs : s.Accounted) : t.Accounted := by
  simp only [step] at h
  split at h
  · rename_i hpc _
    cases h
    rw [Accounted, view_setSubmit_same .rechecking hpc rfl rfl]
    exact hs
  · rename_i oldest rest hpc hq
    cases h
    have hview := view_setSubmit_holding (s := s) (.dropping oldest .claim) hpc rfl
    have hh : s.view.holding (.submit k) = none := by simp [view, holding, hpc, SubmitPc.holding]
    have htake := hs.take (i := oldest) (q := rest) hh (hq ▸ List.Perm.refl _)
    rw [← show (SubmitPc.dropping oldest .claim).holding k = some (oldest, .claim) from rfl,
      ← hview] at htake
    exact htake
  · cases h

theorem submitDrop_accounted (h : step s (.submitDrop k) = some t) (hs : s.Accounted) :
    t.Accounted := by
  simp only [step] at h
  split at h
  · rename_i oldest pc hpc
    cases h
    have hdrop := drop_accounted (h := .submit k) (i := oldest) pc hs
      (by simp [holding, hpc, SubmitPc.holding])
    have hsubmits : (s.drop oldest pc).1.submits k = .dropping oldest pc := by
      rw [drop_submits, hpc]
    rw [Accounted, view_setSubmit_holding _ hsubmits (by cases (s.drop oldest pc).2 <;> rfl)]
    cases hnext : (s.drop oldest pc).2 <;> rw [hnext] at hdrop <;> exact hdrop
  · rename_i pc hpc
    cases h
    have hdrop := drop_accounted (h := .submit k) (i := k) pc hs
      (by simp [holding, hpc, SubmitPc.holding])
    have hsubmits : (s.drop k pc).1.submits k = .droppingSelf pc := by
      rw [drop_submits, hpc]
    rw [Accounted, view_setSubmit_holding _ hsubmits (by cases (s.drop k pc).2 <;> rfl)]
    cases hnext : (s.drop k pc).2 <;> rw [hnext] at hdrop <;> exact hdrop
  · cases h

theorem recheck_accounted (h : step s (.recheck k) = some t) (hs : s.Accounted) :
    t.Accounted := by
  simp only [step] at h
  split at h
  · rename_i hpc
    cases h
    split
    · exact giveUp_accounted hpc hs rfl rfl
    · rw [Accounted, view_setSubmit_same .reoffering hpc rfl rfl]
      exact hs
  · cases h

theorem release_accounted (h : step s (.release k) = some t) (hs : s.Accounted) :
    t.Accounted := by
  simp only [step] at h
  split at h
  · rename_i hpc
    cases h
    exact (congrArg View.Accounted (view_setSubmit_same .returned hpc rfl rfl)).mpr hs
  · cases h

end

/-! ## Workers -/

section
variable {w : Fin cfg.workerCount}

/-- What a worker holds is what its program counter says. -/
theorem view_worker {pc : WorkerPc} (hpc : s.workers w = pc) :
    s.view.holding (.worker w) = pc.holding := by
  simp [view, holding, hpc]

theorem get_accounted (h : step s (.get w) = some t) (hs : s.Accounted) : t.Accounted := by
  simp only [step] at h
  split at h
  · rename_i task rest hpc hq
    cases h
    have htake := hs.take (i := task) (q := rest) (view_worker hpc) (hq ▸ List.Perm.refl _)
    rw [← show (WorkerPc.claiming task).holding = some (task, .claim) from rfl,
      ← view_setWorker] at htake
    exact htake
  · cases h

theorem timeout_accounted (h : step s (.timeout w) = some t) (hs : s.Accounted) :
    t.Accounted := by
  simp only [step] at h
  split at h
  · rename_i hpc _
    cases h
    rw [Accounted, view_setWorker_same .empty hpc rfl]
    exact hs
  · cases h

theorem checkStopping_accounted (h : step s (.checkStopping w) = some t) (hs : s.Accounted) :
    t.Accounted := by
  simp only [step] at h
  split at h
  · rename_i hpc
    cases h
    rw [Accounted, view_setWorker_same _ hpc (by split <;> rfl)]
    exact hs
  · cases h

theorem claim_accounted (h : step s (.claim w) = some t) (hs : s.Accounted) : t.Accounted := by
  simp only [step] at h
  split at h
  · rename_i task hpc
    have hh : s.view.holding (.worker w) = some (task, .claim) := view_worker hpc
    simp only [runClaim, claim_of_holding (h := .worker w) hs hh] at h
    cases h
    have hclaims : ((s.runClaims ++ [task]) ++ s.dropClaims).Perm (s.view.claims ++ [task]) := by
      rw [view, List.append_assoc, List.append_assoc]
      exact (List.perm_append_singleton task s.dropClaims).symm.append_left s.runClaims
    have hclaim := hs.claim hh hclaims
    rw [← show (WorkerPc.decrementing task).holding = some (task, .decrement) from rfl,
      ← view_setWorker] at hclaim
    exact hclaim
  · cases h

theorem decrement_accounted (h : step s (.decrement w) = some t) (hs : s.Accounted) :
    t.Accounted := by
  simp only [step] at h
  split at h
  · rename_i task hpc
    cases h
    have hdec := hs.decrement (view_worker hpc) rfl (List.Perm.refl _)
    rw [← show (WorkerPc.calling task).holding = some (task, .act) from rfl,
      ← view_setWorker] at hdec
    exact hdec
  · cases h

theorem call_accounted (h : step s (.call w) = some t) (hs : s.Accounted) : t.Accounted := by
  simp only [step] at h
  split at h
  · rename_i task hpc
    cases h
    have hdone : ((s.ran ++ [task]) ++ s.dropLog).Perm (s.view.done ++ [task]) := by
      rw [view, List.append_assoc, List.append_assoc]
      exact (List.perm_append_singleton task s.dropLog).symm.append_left s.ran
    have hact := hs.act (view_worker hpc) hdone
    rw [← show (WorkerPc.running task).holding = none from rfl, ← view_setWorker] at hact
    exact hact
  · cases h

theorem finish_accounted {fatal : Bool} (h : step s (.finish w fatal) = some t)
    (hs : s.Accounted) : t.Accounted := by
  simp only [step] at h
  split at h
  · rename_i hpc
    cases h
    rw [Accounted, view_setWorker_same _ hpc (by split <;> rfl)]
    exact hs
  · cases h

end

/-! ## Close -/

theorem drainPoll_accounted (h : step s .drainPoll = some t) (hs : s.Accounted) :
    t.Accounted := by
  simp only [step] at h
  split at h
  · rename_i hpc _
    cases h
    rw [Accounted, view_setClose_same (.forcedJoining 0) hpc rfl]
    exact hs
  · rename_i task rest hpc hq
    cases h
    have hh : s.view.holding .closer = none := by simp [view, holding, hpc, ClosePc.holding]
    have htake := hs.take (i := task) (q := rest) hh (hq ▸ List.Perm.refl _)
    rw [← show (ClosePc.dropping task .claim).holding = some (task, .claim) from rfl,
      ← view_setClose] at htake
    exact htake
  · cases h

theorem closeDrop_accounted (h : step s .closeDrop = some t) (hs : s.Accounted) :
    t.Accounted := by
  simp only [step] at h
  split at h
  · rename_i task pc hpc
    cases h
    have hdrop := drop_accounted (h := .closer) (i := task) pc hs
      (by simp [holding, hpc, ClosePc.holding])
    rw [Accounted, view_setClose]
    cases hnext : (s.drop task pc).2 <;> rw [hnext] at hdrop <;> exact hdrop
  · cases h

/-- The other steps of close touch no task. -/
theorem close_accounted {l : Label cfg} (hl : l = .close ∨ l = .setStopping ∨
      (∃ w expired, l = .join w expired ∨ l = .forcedJoin w expired) ∨ l = .joined ∨
      l = .signal ∨ l = .forcedJoined)
    (h : step s l = some t) (hs : s.Accounted) : t.Accounted := by
  have hview : ∀ (pc : ClosePc) {pc₀ : ClosePc}, s.close = pc₀ → pc₀.holding = pc.holding →
      (s.setClose pc).view.Accounted := fun pc _ hpc hholding => by
    rw [view_setClose_same _ hpc hholding]
    exact hs
  rcases hl with rfl | rfl | ⟨w, expired, rfl | rfl⟩ | rfl | rfl | rfl <;>
    simp only [step] at h <;> split at h
  all_goals first | (cases h; done) | rename_i hpc
  · cases h
    exact hview .stopping hpc rfl
  · cases h
    exact hview (.joining 0) hpc rfl
  · rename_i i
    split at h
    · cases h
      exact hview (.joining (i + 1)) hpc rfl
    · cases h
  · rename_i i
    split at h
    · cases h
      exact hview (.forcedJoining (i + 1)) hpc rfl
    · cases h
  · split at h
    · cases h
      exact hview _ hpc (by split <;> rfl)
    · cases h
  · cases h
    exact hview .draining hpc rfl
  · split at h
    · cases h
      exact hview _ hpc rfl
    · cases h

/-! ## Runs -/

theorem accounted_step {l : Label cfg} (h : step s l = some t) (hs : s.Accounted) :
    t.Accounted := by
  cases l with
  | submit k isNone => exact submit_accounted h hs
  | incrementQueued k => exact incrementQueued_accounted h hs
  | acquire k => exact acquire_accounted h hs
  | offer k => exact offer_accounted h hs
  | poll k => exact poll_accounted h hs
  | submitDrop k => exact submitDrop_accounted h hs
  | recheck k => exact recheck_accounted h hs
  | reoffer k => exact reoffer_accounted h hs
  | release k => exact release_accounted h hs
  | get w => exact get_accounted h hs
  | timeout w => exact timeout_accounted h hs
  | checkStopping w => exact checkStopping_accounted h hs
  | claim w => exact claim_accounted h hs
  | decrement w => exact decrement_accounted h hs
  | call w => exact call_accounted h hs
  | finish w fatal => exact finish_accounted h hs
  | drainPoll => exact drainPoll_accounted h hs
  | closeDrop => exact closeDrop_accounted h hs
  | _ => exact close_accounted (by simp) h hs

theorem view_new (cfg : Config) : (new cfg).view = View.new := by
  have hholding : (new cfg).holding = fun _ => none := by
    funext h
    cases h <;> rfl
  rw [view, hholding]
  rfl

/-- Every state that a run reaches is accounted for, whatever the order of its steps. -/
theorem run_accounted {ok : AsyncDispatcher cfg → Label cfg → Prop} {ls : List (Label cfg)}
    (h : Run step ok (new cfg) ls s) : s.Accounted := by
  refine h.invariant (fun _ hstep hs => accounted_step hstep hs) ?_
  rw [Accounted, view_new]
  exact View.accounted_new

end AsyncDispatcher

end OppexSdk.Python.Dispatcher
