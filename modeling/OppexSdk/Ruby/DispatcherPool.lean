import OppexSdk.Ruby.WorkerSurvival
import OppexSdk.Lib.BoundedPool

/-! # The Ruby dispatcher is a bounded task pool

`AsyncDispatcher` of `ruby/lib/oppex_sdk/internal/async_dispatcher.rb`, statement by statement,
against the pool it is for. A critical section takes many steps and is one event: `submit` shifts
and pushes in two, `drain_until` clears `@draining` and `@tasks` in two, and in between the mutex
keeps everybody else away. What a section has begun and not finished is read off its owner's
program counter. -/
namespace OppexSdk.Ruby.Dispatcher
open OppexSdk.Lib OppexSdk.Lib.Transition OppexSdk.Lib.Simulation OppexSdk.Lib.BoundedPool

variable {cfg : Config}

/-! ## What a step does -/

namespace AsyncDispatcher

/-- What a step of the dispatcher does. -/
inductive Does (s : AsyncDispatcher cfg) : Label cfg → AsyncDispatcher cfg → Prop
  | enterSubmit {k : TaskId} : s.mutex = none → s.submits k = .outside →
      Does s (.acquire (.submit k)) { s.setSubmit k .checking with mutex := some (.submit k) }
  | enterWork {w : Fin cfg.workerCount} : s.mutex = none →
      (s.workers w = .starting ∨ s.workers w = .waiting) →
      Does s (.acquire (.worker w)) { s.setWorker w .checking with mutex := some (.worker w) }
  | enterEnsure {w : Fin cfg.workerCount} : s.mutex = none → s.workers w = .finishing →
      Does s (.acquire (.worker w)) { s.setWorker w .decrementing with mutex := some (.worker w) }
  | enterClose {c : Nat} : s.mutex = none → s.closes c = .outside →
      Does s (.acquire (.close c)) { s.setClose c .marking with mutex := some (.close c) }
  | enterDrain {c : Nat} : s.mutex = none → (s.closes c = .entering ∨ s.closes c = .waiting) →
      Does s (.acquire (.close c)) { s.setClose c .checking with mutex := some (.close c) }
  | leaveSubmit {k : TaskId} {accepted : Bool} {dropped : Option Nat} :
      s.submits k = .releasing accepted dropped →
      Does s (.release (.submit k)) { s.setSubmit k (.reporting accepted dropped) with mutex := none }
  | leaveStarting {w : Fin cfg.workerCount} {task : TaskId} : s.workers w = .starts task →
      Does s (.release (.worker w)) { s.setWorker w (.running task) with mutex := none }
  | leaveEnsure {w : Fin cfg.workerCount} : s.workers w = .releasing →
      Does s (.release (.worker w)) { s.setWorker w .starting with mutex := none }
  | leaveWork {w : Fin cfg.workerCount} : s.workers w = .exiting →
      Does s (.release (.worker w)) { s.setWorker w .exited with mutex := none }
  | leaveMark {c : Nat} {wasAccepting : Bool} : s.closes c = .marked wasAccepting →
      Does s (.release (.close c))
        { s.setClose c (if wasAccepting then .entering else .returned) with mutex := none }
  | leaveDrain {c abandoned : Nat} : s.closes c = .releasing abandoned →
      Does s (.release (.close c)) { s.setClose c (.joining abandoned) with mutex := none }
  | wake {u : Thread cfg.workerCount} : Does s (.wake u) { s with changed := s.changed.wake u }
  | refuse {k : TaskId} {elapsed : Bool} : s.submits k = .checking → s.accepting = false →
      Does s (.submitCheck k elapsed) (s.setSubmit k (.releasing false none))
  | displace {k : TaskId} {elapsed : Bool} : s.submits k = .checking → s.accepting = true →
      cfg.capacity ≤ s.tasks.length → Does s (.submitCheck k elapsed)
        { s.setSubmit k (.pushing (s.dropLogger.recordDrop elapsed).1) with
          tasks := s.tasks.tail
          dropLogger := (s.dropLogger.recordDrop elapsed).2 }
  | accept {k : TaskId} {elapsed : Bool} : s.submits k = .checking → s.accepting = true →
      s.tasks.length < cfg.capacity →
      Does s (.submitCheck k elapsed) (s.setSubmit k (.pushing none))
  | push {k : TaskId} {dropped : Option Nat} : s.submits k = .pushing dropped →
      Does s (.push k) { s.setSubmit k (.broadcasting dropped) with tasks := s.tasks ++ [k] }
  | submitBroadcast {k : TaskId} {dropped : Option Nat} : s.submits k = .broadcasting dropped →
      Does s (.submitBroadcast k)
        { s.setSubmit k (.releasing true dropped) with changed := s.changed.notifyAll }
  | report {k : TaskId} {accepted : Bool} {dropped : Option Nat} :
      s.submits k = .reporting accepted dropped →
      Does s (.report k) { s.setSubmit k (.returned accepted) with
        log := s.log ++ (dropped.map Warning.dropped).toList }
  | park {w : Fin cfg.workerCount} : s.workers w = .checking → s.tasks = [] →
      Does s (.workerCheck w) { s.setWorker w .waiting with
        changed := s.changed.wait (.worker w), mutex := none }
  | exit {w : Fin cfg.workerCount} : s.workers w = .checking → s.tasks = [] →
      s.draining = false → Does s (.workerCheck w) (s.setWorker w .exiting)
  | shift {w : Fin cfg.workerCount} {task : TaskId} {rest : List TaskId} :
      s.workers w = .checking → s.tasks = task :: rest → Does s (.workerCheck w)
        { s.setWorker w (.starts task) with active := s.active + 1, tasks := rest }
  | finish {w : Fin cfg.workerCount} {task : TaskId} : s.workers w = .running task →
      Does s (.finish w) (s.setWorker w .finishing)
  | decrement {w : Fin cfg.workerCount} : s.workers w = .decrementing →
      Does s (.decrement w) { s.setWorker w .broadcasting with active := s.active - 1 }
  | workerBroadcast {w : Fin cfg.workerCount} : s.workers w = .broadcasting →
      Does s (.workerBroadcast w)
        { s.setWorker w .releasing with changed := s.changed.notifyAll }
  | mark {c : Nat} : s.closes c = .marking →
      Does s (.mark c) { s.setClose c (.marked s.accepting) with accepting := false }
  | drained {c : Nat} {expired : Bool} : s.closes c = .checking →
      (s.tasks = [] ∧ s.active = 0 ∨ expired = true) →
      Does s (.closeCheck c expired) (s.setClose c .stopping)
  | drainWait {c : Nat} {expired : Bool} : s.closes c = .checking →
      ¬ (s.tasks = [] ∧ s.active = 0 ∨ expired = true) →
      Does s (.closeCheck c expired) { s.setClose c .waiting with
        changed := s.changed.wait (.close c), mutex := none }
  | stop {c : Nat} : s.closes c = .stopping →
      Does s (.stop c) { s.setClose c .broadcasting with draining := false }
  | closeBroadcast {c : Nat} : s.closes c = .broadcasting →
      Does s (.closeBroadcast c) { s.setClose c .clearing with changed := s.changed.notifyAll }
  | clear {c : Nat} : s.closes c = .clearing →
      Does s (.clear c) { s.setClose c (.releasing s.tasks.length) with tasks := [] }
  | join {c abandoned : Nat} : s.closes c = .joining abandoned →
      Does s (.join c) { s.setClose c .returned with
        log := s.log ++ if 0 < abandoned then [Warning.forceDropped abandoned] else [] }

variable {s t : AsyncDispatcher cfg}

theorem acquire_does {u : Thread cfg.workerCount} (h : s.step (.acquire u) = some t) :
    Does s (.acquire u) t := by
  simp only [step] at h
  split at h
  · rename_i hfree
    obtain ⟨v, hv, rfl⟩ := Option.map_eq_some_iff.mp h
    cases u with
    | submit k =>
      simp only [acquired] at hv
      split at hv <;> cases hv
      rename_i hk
      exact .enterSubmit hfree hk
    | worker w =>
      simp only [acquired] at hv
      split at hv
      · rename_i hw
        cases hv
        exact .enterWork hfree (.inl hw)
      · rename_i hw
        split at hv <;> cases hv
        exact .enterWork hfree (.inr hw)
      · rename_i hw
        cases hv
        exact .enterEnsure hfree hw
      · cases hv
    | close c =>
      simp only [acquired] at hv
      split at hv
      · rename_i hc
        cases hv
        exact .enterClose hfree hc
      · rename_i hc
        cases hv
        exact .enterDrain hfree (.inl hc)
      · rename_i hc
        split at hv <;> cases hv
        exact .enterDrain hfree (.inr hc)
      · cases hv
  · cases h

theorem release_does {u : Thread cfg.workerCount} (h : s.step (.release u) = some t) :
    Does s (.release u) t := by
  obtain ⟨v, hv, rfl⟩ := Option.map_eq_some_iff.mp h
  cases u with
  | submit k =>
    simp only [released] at hv
    split at hv <;> cases hv
    rename_i hk
    exact .leaveSubmit hk
  | worker w =>
    simp only [released] at hv
    split at hv
    · rename_i hw
      cases hv
      exact .leaveStarting hw
    · rename_i hw
      cases hv
      exact .leaveEnsure hw
    · rename_i hw
      cases hv
      exact .leaveWork hw
    · cases hv
  | close c =>
    simp only [released] at hv
    split at hv
    · rename_i hc
      cases hv
      exact .leaveMark hc
    · rename_i hc
      cases hv
      exact .leaveDrain hc
    · cases hv

theorem submitCheck_does {k : TaskId} {elapsed : Bool}
    (h : s.step (.submitCheck k elapsed) = some t) : Does s (.submitCheck k elapsed) t := by
  simp only [step] at h
  split at h
  · rename_i hk
    split at h
    · rename_i hacc
      cases h
      exact .refuse hk (by simpa using hacc)
    · rename_i hacc
      have hacc : s.accepting = true := by simpa using hacc
      split at h
      · rename_i hfull
        cases h
        exact .displace hk hacc hfull
      · rename_i hfull
        cases h
        exact .accept hk hacc (Nat.lt_of_not_le hfull)
  · cases h

theorem workerCheck_does {w : Fin cfg.workerCount} (h : s.step (.workerCheck w) = some t) :
    Does s (.workerCheck w) t := by
  simp only [step] at h
  split at h
  · rename_i hw
    split at h
    · rename_i htasks
      split at h
      · cases h
        exact .park hw htasks
      · rename_i hd
        cases h
        exact .exit hw htasks (by simpa using hd)
    · rename_i htasks
      cases h
      exact .shift hw htasks
  · cases h

theorem closeCheck_does {c : Nat} {expired : Bool} (h : s.step (.closeCheck c expired) = some t) :
    Does s (.closeCheck c expired) t := by
  simp only [step] at h
  split at h
  · rename_i hc
    split at h
    · rename_i hend
      cases h
      exact .drained hc hend
    · rename_i hend
      cases h
      exact .drainWait hc hend
  · cases h

theorem step_does {l : Label cfg} (h : s.step l = some t) : Does s l t := by
  cases l with
  | acquire u => exact acquire_does h
  | release u => exact release_does h
  | submitCheck k elapsed => exact submitCheck_does h
  | workerCheck w => exact workerCheck_does h
  | closeCheck c expired => exact closeCheck_does h
  | wake u =>
    simp only [step] at h
    split at h <;> cases h
    exact .wake
  | push k =>
    simp only [step] at h
    split at h <;> cases h
    rename_i hk
    exact .push hk
  | submitBroadcast k =>
    simp only [step] at h
    split at h <;> cases h
    rename_i hk
    exact .submitBroadcast hk
  | report k =>
    simp only [step] at h
    split at h <;> cases h
    rename_i hk
    exact .report hk
  | finish w =>
    simp only [step] at h
    split at h <;> cases h
    rename_i hw
    exact .finish hw
  | decrement w =>
    simp only [step] at h
    split at h <;> cases h
    rename_i hw
    exact .decrement hw
  | workerBroadcast w =>
    simp only [step] at h
    split at h <;> cases h
    rename_i hw
    exact .workerBroadcast hw
  | mark c =>
    simp only [step] at h
    split at h <;> cases h
    rename_i hc
    exact .mark hc
  | stop c =>
    simp only [step] at h
    split at h <;> cases h
    rename_i hc
    exact .stop hc
  | closeBroadcast c =>
    simp only [step] at h
    split at h <;> cases h
    rename_i hc
    exact .closeBroadcast hc
  | clear c =>
    simp only [step] at h
    split at h <;> cases h
    rename_i hc
    exact .clear hc
  | join c =>
    simp only [step] at h
    split at h <;> cases h
    rename_i hc
    exact .join hc

end AsyncDispatcher

/-! ## Closing -/

/-- The call found `@accepting` set and has yet to clear `@draining`. -/
def ClosePc.Waiting : ClosePc → Prop
  | .marked true | .entering | .checking | .waiting | .stopping => True
  | _ => False

/-- The call has cleared `@draining`, and has not returned. -/
def ClosePc.Stopped : ClosePc → Prop
  | .broadcasting | .clearing | .releasing _ | .joining _ => True
  | _ => False

/-- One call finds `@accepting` set, and the flags are as it left them until it returns. -/
structure Closing (s : AsyncDispatcher cfg) : Prop where
  waiting : ∀ c, (s.closes c).Waiting → s.accepting = false ∧ s.draining = true
  stopped : ∀ c, (s.closes c).Stopped → s.accepting = false ∧ s.draining = false
  one : ∀ c d, (s.closes c).Waiting → (s.closes d).Waiting → c = d
  lone : ∀ c d, (s.closes c).Stopped → (s.closes d).Stopped → c = d
  accepting : s.accepting = true → s.draining = true

theorem Closing.init : Closing (AsyncDispatcher.new cfg) where
  waiting _ hc := hc.elim
  stopped _ hc := hc.elim
  one _ _ hc := hc.elim
  lone _ _ hc := hc.elim
  accepting _ := rfl

section
open AsyncDispatcher
variable {s t : AsyncDispatcher cfg} {l : Label cfg}

/-- A call moves on without coming into a class: the class has no new members. -/
theorem class_update {P : ClosePc → Prop} {c : Nat} {pc : ClosePc} (hpc : P pc → P (s.closes c)) :
    ∀ d, P (Function.update s.closes c pc d) → P (s.closes d) :=
  (Function.forall_update_iff s.closes fun d pc => P pc → P (s.closes d)).mpr
    ⟨hpc, fun _ _ hd => hd⟩

/-- A call moves on within its class, or out of both. -/
theorem Closing.move (h : Closing s) {c : Nat} {pc : ClosePc}
    (hwaiting : pc.Waiting → (s.closes c).Waiting) (hstopped : pc.Stopped → (s.closes c).Stopped)
    (hcloses : t.closes = Function.update s.closes c pc) (hacc : t.accepting = s.accepting)
    (hdraining : t.draining = s.draining) : Closing t := by
  have hw := class_update (P := ClosePc.Waiting) hwaiting
  have hs := class_update (P := ClosePc.Stopped) hstopped
  rw [← hcloses] at hw hs
  refine ⟨?_, ?_, ?_, ?_, ?_⟩
  · intro d hd
    rw [hacc, hdraining]
    exact h.waiting d (hw d hd)
  · intro d hd
    rw [hacc, hdraining]
    exact h.stopped d (hs d hd)
  · intro d e hd he
    exact h.one d e (hw d hd) (hw e he)
  · intro d e hd he
    exact h.lone d e (hs d hd) (hs e he)
  · rw [hacc, hdraining]
    exact h.accepting

/-- A step in which no call of `close` has a part. -/
theorem Closing.frame (h : Closing s) (hcloses : t.closes = s.closes)
    (hacc : t.accepting = s.accepting) (hdraining : t.draining = s.draining) : Closing t := by
  obtain ⟨hwaiting, hstopped, hone, hlone, haccepting⟩ := h
  rw [← hcloses, ← hacc, ← hdraining] at hwaiting hstopped
  rw [← hcloses] at hone hlone
  rw [← hacc, ← hdraining] at haccepting
  exact ⟨hwaiting, hstopped, hone, hlone, haccepting⟩

theorem Closing.mark (h : Closing s) {c : Nat} :
    Closing { s.setClose c (.marked s.accepting) with accepting := false } := by
  cases hacc : s.accepting with
  | true =>
    -- nobody else has found the flag set
    have hnone : ∀ d, ¬ (s.closes d).Waiting := fun d hd =>
      absurd ((h.waiting d hd).1.symm.trans hacc) Bool.false_ne_true
    have hgone : ∀ d, ¬ (s.closes d).Stopped := fun d hd =>
      absurd ((h.stopped d hd).1.symm.trans hacc) Bool.false_ne_true
    have honly : ∀ d, (Function.update s.closes c (.marked true) d).Waiting → d = c := by
      intro d hd
      by_contra hne
      rw [Function.update_of_ne hne] at hd
      exact hnone d hd
    have hlost : ∀ d, ¬ (Function.update s.closes c (.marked true) d).Stopped := fun d hd =>
      hgone d (class_update (P := ClosePc.Stopped) (fun hm => by cases hm) d hd)
    refine ⟨fun _ _ => ⟨rfl, h.accepting hacc⟩, fun d hd => absurd hd (hlost d), ?_,
      fun d _ hd => absurd hd (hlost d), fun ha => absurd ha Bool.false_ne_true⟩
    intro d e hd he
    rw [honly d hd, honly e he]
  | false =>
    have hclosing : Closing { s with accepting := false } :=
      ⟨fun d hd => ⟨rfl, (h.waiting d hd).2⟩, fun d hd => ⟨rfl, (h.stopped d hd).2⟩, h.one, h.lone,
        fun ha => absurd ha Bool.false_ne_true⟩
    exact hclosing.move (fun hm => by cases hm) (fun hm => by cases hm)
      rfl rfl rfl

theorem Closing.stop (h : Closing s) {c : Nat} (hc : s.closes c = .stopping) :
    Closing { s.setClose c .broadcasting with draining := false } := by
  have hin : (s.closes c).Waiting := by
    rw [hc]
    trivial
  obtain ⟨hacc, hdraining⟩ := h.waiting c hin
  have hnone : ∀ d, ¬ (Function.update s.closes c .broadcasting d).Waiting := by
    refine (Function.forall_update_iff s.closes fun _ pc => ¬ pc.Waiting).mpr ⟨id, ?_⟩
    intro d hne hd
    exact hne (h.one d c hd hin)
  have honly : ∀ d, (Function.update s.closes c .broadcasting d).Stopped → d = c := by
    intro d hd
    by_contra hne
    rw [Function.update_of_ne hne] at hd
    exact absurd ((h.stopped d hd).2.symm.trans hdraining) Bool.false_ne_true
  refine ⟨fun d hd => absurd hd (hnone d), fun _ _ => ⟨hacc, rfl⟩,
    fun d _ hd => absurd hd (hnone d), ?_, fun ha => ?_⟩
  · intro d e hd he
    rw [honly d hd, honly e he]
  · exact absurd (hacc.symm.trans ha) Bool.false_ne_true

theorem closing_step (hstep : s.step l = some t) (h : Closing s) : Closing t := by
  cases step_does hstep with
  | mark => exact h.mark
  | stop hc => exact h.stop hc
  | enterClose _ hc => exact h.move (fun hm => by cases hm) (fun hm => by cases hm) rfl rfl rfl
  | enterDrain _ hc =>
    refine h.move (fun _ => ?_) (fun hm => by cases hm) rfl rfl rfl
    rcases hc with hc | hc <;> rw [hc] <;> trivial
  | @leaveMark c wasAccepting hc =>
    cases wasAccepting with
    | true => exact h.move (fun _ => by rw [hc]; trivial) (fun hm => by cases hm) rfl rfl rfl
    | false => exact h.move (fun hm => by cases hm) (fun hm => by cases hm) rfl rfl rfl
  | leaveDrain hc =>
    exact h.move (fun hm => by cases hm) (fun _ => by rw [hc]; trivial) rfl rfl rfl
  | drained hc => exact h.move (fun _ => by rw [hc]; trivial) (fun hm => by cases hm) rfl rfl rfl
  | drainWait hc => exact h.move (fun _ => by rw [hc]; trivial) (fun hm => by cases hm) rfl rfl rfl
  | closeBroadcast hc =>
    exact h.move (fun hm => by cases hm) (fun _ => by rw [hc]; trivial) rfl rfl rfl
  | clear hc => exact h.move (fun hm => by cases hm) (fun _ => by rw [hc]; trivial) rfl rfl rfl
  | join hc => exact h.move (fun hm => by cases hm) (fun hm => by cases hm) rfl rfl rfl
  | _ => exact h.frame rfl rfl rfl

end

/-! ## The simulation -/

/-- The task a call of `submit` has made room for, and not yet pushed. -/
def SubmitPc.pending (k : TaskId) : SubmitPc → List TaskId
  | .pushing _ => [k]
  | _ => []

/-- The call of `close` has stopped the workers, and not yet cleared the queue. -/
def ClosePc.clears : ClosePc → Bool
  | .broadcasting | .clearing => true
  | _ => false

/-- The task a worker has shifted, until it has returned. -/
def WorkerPc.task : WorkerPc → Option TaskId
  | .starts task | .running task => some task
  | _ => none

namespace AsyncDispatcher

/-- What the owner of the mutex has still to push. -/
def pending (s : AsyncDispatcher cfg) : List TaskId :=
  match s.mutex with
  | some (.submit k) => (s.submits k).pending k
  | _ => []

/-- The owner of the mutex has the queue still to clear. -/
def clears (s : AsyncDispatcher cfg) : Bool :=
  match s.mutex with
  | some (.close c) => (s.closes c).clears
  | _ => false

/-- The dispatcher as a pool. -/
def pool (s : AsyncDispatcher cfg) : BoundedPool.Pool TaskId (Fin cfg.workerCount) where
  queue := s.tasks ++ s.pending
  holding w := (s.workers w).task
  admitting := s.accepting
  serving := s.draining || s.clears

/-- What the pool does in a step of the dispatcher. -/
def events (s : AsyncDispatcher cfg) : Label cfg → List (Event TaskId (Fin cfg.workerCount))
  | .submitCheck k _ =>
    if s.accepting then [.accept k (s.pool.displaced cfg.capacity)] else [.refuse k]
  | .workerCheck w => s.tasks.head?.toList.map (.start w)
  | .finish w => (s.workers w).task.toList.map (.finish w)
  | .mark _ => if s.accepting then [.shut] else []
  | .clear _ => [.abandon s.tasks]
  | _ => []

/-- The events of a run. -/
def history (cfg : Config) (ls : List (Label cfg)) :
    List (Event TaskId (Fin cfg.workerCount)) := trace step events (new cfg) ls

variable {s t : AsyncDispatcher cfg} {l : Label cfg}

/-- Nothing is begun when nobody has the mutex. -/
theorem begun_of_free (hfree : s.mutex = none) : s.pending = [] ∧ s.clears = false := by
  unfold pending clears
  rw [hfree]
  exact ⟨rfl, rfl⟩

/-- What is begun is its owner's. -/
theorem begun_of_owner {u : Thread cfg.workerCount} (hmutex : s.mutex = some u)
    (hsubmit : ∀ k, u = .submit k → (s.submits k).pending k = [])
    (hclose : ∀ c, u = .close c → (s.closes c).clears = false) :
    s.pending = [] ∧ s.clears = false := by
  unfold pending clears
  rw [hmutex]
  cases u with
  | submit k => exact ⟨hsubmit k rfl, rfl⟩
  | worker w => exact ⟨rfl, rfl⟩
  | close c => exact ⟨rfl, hclose c rfl⟩

/-- Nothing is begun or finished. -/
theorem begun_of_frame (hmutex : t.mutex = s.mutex)
    (hsubmits : ∀ k, (t.submits k).pending k = (s.submits k).pending k)
    (hcloses : ∀ c, (t.closes c).clears = (s.closes c).clears) :
    t.pending = s.pending ∧ t.clears = s.clears := by
  unfold pending clears
  rw [hmutex]
  cases s.mutex with
  | none => exact ⟨rfl, rfl⟩
  | some u =>
    cases u with
    | submit k => exact ⟨hsubmits k, rfl⟩
    | worker w => exact ⟨rfl, rfl⟩
    | close c => exact ⟨rfl, hcloses c⟩

theorem submits_pending {k : TaskId} {pc : SubmitPc}
    (hpc : pc.pending k = (s.submits k).pending k) :
    ∀ j, (Function.update s.submits k pc j).pending j = (s.submits j).pending j :=
  (Function.forall_update_iff s.submits fun j pc => pc.pending j = (s.submits j).pending j).mpr
    ⟨hpc, fun _ _ => rfl⟩

theorem closes_clears {c : Nat} {pc : ClosePc} (hpc : pc.clears = (s.closes c).clears) :
    ∀ d, (Function.update s.closes c pc d).clears = (s.closes d).clears :=
  (Function.forall_update_iff s.closes fun d pc => pc.clears = (s.closes d).clears).mpr
    ⟨hpc, fun _ _ => rfl⟩

theorem submits_self (k : TaskId) (pc : SubmitPc) :
    (Function.update s.submits k pc k).pending k = pc.pending k := by
  rw [Function.update_self]

theorem closes_self (c : Nat) (pc : ClosePc) :
    (Function.update s.closes c pc c).clears = pc.clears := by
  rw [Function.update_self]

theorem holding_update {w : Fin cfg.workerCount} (pc : WorkerPc) :
    (fun v => (Function.update s.workers w pc v).task) =
      Function.update s.pool.holding w pc.task :=
  Function.comp_update WorkerPc.task s.workers w pc

/-- A worker moves that holds the same before and after. -/
theorem holding_idle {w : Fin cfg.workerCount} {pc : WorkerPc}
    (hpc : pc.task = (s.workers w).task) :
    (fun v => (Function.update s.workers w pc v).task) = s.pool.holding := by
  rw [holding_update, hpc]
  exact Function.update_eq_self w s.pool.holding

/-- A run of the pool ends in the dispatcher's own state. -/
theorem run_to {es : List (Event TaskId (Fin cfg.workerCount))}
    {p q : BoundedPool.Pool TaskId (Fin cfg.workerCount)}
    (h : Run (BoundedPool.step cfg.capacity) anyStep p es q)
    (hqueue : t.tasks ++ t.pending = q.queue)
    (hholding : (fun w => (t.workers w).task) = q.holding) (hadmitting : t.accepting = q.admitting)
    (hserving : (t.draining || t.clears) = q.serving) :
    Run (BoundedPool.step cfg.capacity) anyStep p es t.pool := by
  rw [pool, hqueue, hholding, hadmitting, hserving]
  exact h

/-- The pool does nothing. -/
theorem quiet (htasks : t.tasks = s.tasks)
    (hworkers : (fun w => (t.workers w).task) = s.pool.holding)
    (hacc : t.accepting = s.accepting) (hdraining : t.draining = s.draining)
    (hbegun : t.pending = s.pending ∧ t.clears = s.clears) :
    Run (BoundedPool.step cfg.capacity) anyStep s.pool [] t.pool :=
  run_to (.nil s.pool) (by rw [htasks, hbegun.1]; rfl) hworkers hacc
    (by rw [hdraining, hbegun.2]; rfl)

/-- Nothing is begun before and after. -/
theorem begun_of_none (hs : s.pending = [] ∧ s.clears = false)
    (ht : t.pending = [] ∧ t.clears = false) : t.pending = s.pending ∧ t.clears = s.clears :=
  ⟨ht.1.trans hs.1.symm, ht.2.trans hs.2.symm⟩

/-- A thread takes the free mutex, and has begun nothing. -/
theorem begun_of_enter {u : Thread cfg.workerCount} (hfree : s.mutex = none)
    (hmutex : t.mutex = some u) (hsubmit : ∀ k, u = .submit k → (t.submits k).pending k = [])
    (hclose : ∀ c, u = .close c → (t.closes c).clears = false) :
    t.pending = s.pending ∧ t.clears = s.clears :=
  begun_of_none (begun_of_free hfree) (begun_of_owner hmutex hsubmit hclose)

/-- A thread gives the mutex back, and has nothing left to finish. -/
theorem begun_of_leave {u : Thread cfg.workerCount} (hmutex : s.mutex = some u)
    (hfree : t.mutex = none) (hsubmit : ∀ k, u = .submit k → (s.submits k).pending k = [])
    (hclose : ∀ c, u = .close c → (s.closes c).clears = false) :
    t.pending = s.pending ∧ t.clears = s.clears :=
  begun_of_none (begun_of_owner hmutex hsubmit hclose) (begun_of_free hfree)

theorem submitCheck_pool {k : TaskId} {elapsed : Bool}
    (hstep : Does s (.submitCheck k elapsed) t) (hmutex : s.submits k = .checking →
      s.mutex = some (.submit k)) :
    Run (BoundedPool.step cfg.capacity) anyStep s.pool (s.events (.submitCheck k elapsed))
      t.pool := by
  have hnone : s.submits k = .checking → s.pending = [] ∧ s.clears = false := by
    intro hk
    refine begun_of_owner (hmutex hk) ?_ ?_
    · intro j hj
      cases hj
      rw [hk]
      rfl
    · rintro c ⟨⟩
  have hmine : ∀ dropped, s.submits k = .checking → t.mutex = s.mutex →
      t.submits = Function.update s.submits k (.pushing dropped) →
      t.pending = [k] ∧ t.clears = false := by
    intro dropped hk hsame hsubmits
    unfold pending clears
    rw [hsame, hmutex hk, hsubmits]
    exact ⟨submits_self k _, rfl⟩
  cases hstep with
  | refuse hk hacc =>
    rw [events, if_neg (by rw [hacc]; exact Bool.false_ne_true)]
    have hrefuse : BoundedPool.Moves cfg.capacity s.pool _ _ := .refuse (k := k) hacc
    have hbegun : (s.setSubmit k (.releasing false none)).pending = s.pending ∧
        (s.setSubmit k (.releasing false none)).clears = s.clears :=
      begun_of_frame rfl (submits_pending (by rw [hk]; rfl)) fun _ => rfl
    exact run_to hrefuse.run (by rw [hbegun.1]; rfl) rfl rfl (by rw [hbegun.2]; rfl)
  | displace hk hacc hfull =>
    obtain ⟨hpending, hclears⟩ := hnone hk
    have hqueue : s.pool.queue = s.tasks := by rw [pool, hpending, List.append_nil]
    have hadmit : BoundedPool.Moves cfg.capacity s.pool _ _ := .accept (k := k) hacc
    rw [Pool.remaining, hqueue, if_pos hfull] at hadmit
    rw [events, if_pos hacc]
    refine run_to hadmit.run ?_ rfl rfl ?_
    · exact congrArg (s.tasks.tail ++ ·) (hmine _ hk rfl rfl).1
    · exact congrArg (s.draining || ·) ((hmine _ hk rfl rfl).2.trans hclears.symm)
  | accept hk hacc hfull =>
    obtain ⟨hpending, hclears⟩ := hnone hk
    have hqueue : s.pool.queue = s.tasks := by rw [pool, hpending, List.append_nil]
    have hadmit : BoundedPool.Moves cfg.capacity s.pool _ _ := .accept (k := k) hacc
    rw [Pool.remaining, hqueue, if_neg (Nat.not_le.mpr hfull)] at hadmit
    rw [events, if_pos hacc]
    refine run_to hadmit.run ?_ rfl rfl ?_
    · exact congrArg (s.tasks ++ ·) (hmine _ hk rfl rfl).1
    · exact congrArg (s.draining || ·) ((hmine _ hk rfl rfl).2.trans hclears.symm)

/-- The steps of `drain_until` between its loop and its end. -/
theorem drain_pool {c : Nat} (hl : l = .stop c ∨ l = .closeBroadcast c ∨ l = .clear c)
    (hstep : Does s l t) (hexcl : s.Excludes) (hclosing : Closing s) :
    Run (BoundedPool.step cfg.capacity) anyStep s.pool (s.events l) t.pool := by
  have hself : (s.closes c).inside = true → s.pending = [] ∧ s.clears = (s.closes c).clears := by
    intro hin
    unfold pending clears
    rw [hexcl (.close c) hin]
    exact ⟨rfl, rfl⟩
  have hbegun : ∀ pc, (s.closes c).inside = true → t.mutex = s.mutex →
      t.closes = Function.update s.closes c pc → t.pending = [] ∧ t.clears = pc.clears := by
    intro pc hin hsame hcloses
    unfold pending clears
    rw [hsame, hexcl (.close c) hin, hcloses]
    exact ⟨rfl, closes_self c pc⟩
  rcases hl with rfl | rfl | rfl
  · cases hstep with
    | stop hc =>
      have hin : (s.closes c).inside = true := by rw [hc]; rfl
      obtain ⟨hpending, -⟩ := hself hin
      obtain ⟨hpending', hclears'⟩ := hbegun _ hin rfl rfl
      have hdraining : s.draining = true := (hclosing.waiting c (by rw [hc]; trivial)).2
      refine run_to (.nil s.pool) (congrArg (s.tasks ++ ·) (hpending'.trans hpending.symm))
        rfl rfl ?_
      have hserving : s.pool.serving = true := by
        rw [pool, hdraining]
        rfl
      exact hclears'.trans hserving.symm
  · cases hstep with
    | closeBroadcast hc =>
      exact quiet rfl rfl rfl rfl
        (begun_of_frame rfl (fun _ => rfl) (closes_clears (by rw [hc]; rfl)))
  · cases hstep with
    | clear hc =>
      have hin : (s.closes c).inside = true := by rw [hc]; rfl
      obtain ⟨hpending, hclears⟩ := hself hin
      obtain ⟨hpending', hclears'⟩ := hbegun _ hin rfl rfl
      obtain ⟨hacc, hdraining⟩ := hclosing.stopped c (by rw [hc]; trivial)
      have hserving : s.pool.serving = true := by
        rw [pool, hclears, hc]
        exact Bool.or_true _
      have hqueue : s.pool.queue = s.tasks := by rw [pool, hpending, List.append_nil]
      have habandon : BoundedPool.Moves cfg.capacity s.pool _ _ := .abandon hacc hserving
      rw [hqueue] at habandon
      refine run_to habandon.run hpending' rfl rfl ?_
      rw [hclears']
      exact congrArg (· || false) hdraining

/-- A step of the dispatcher is what the pool does meanwhile. -/
theorem pool_step (hstep : s.step l = some t) (hexcl : s.Excludes) (hclosing : Closing s) :
    Run (BoundedPool.step cfg.capacity) anyStep s.pool (s.events l) t.pool := by
  have howner : ∀ u, s.inside u = true → s.mutex = some u := hexcl
  cases step_does hstep with
  | refuse hk | displace hk | accept hk =>
    exact submitCheck_pool (step_does hstep) fun hk =>
      howner (.submit _) (by rw [inside, hk]; rfl)
  | stop => exact drain_pool (.inl rfl) (step_does hstep) hexcl hclosing
  | closeBroadcast => exact drain_pool (.inr (.inl rfl)) (step_does hstep) hexcl hclosing
  | clear => exact drain_pool (.inr (.inr rfl)) (step_does hstep) hexcl hclosing
  | enterSubmit hfree hk =>
    refine quiet rfl rfl rfl rfl (begun_of_enter hfree rfl ?_ (by rintro c ⟨⟩))
    rintro j ⟨⟩
    exact submits_self _ _
  | enterWork hfree hw =>
    refine quiet rfl (holding_idle ?_) rfl rfl
      (begun_of_enter hfree rfl (by rintro k ⟨⟩) (by rintro c ⟨⟩))
    rcases hw with hw | hw <;> rw [hw] <;> rfl
  | enterEnsure hfree hw =>
    exact quiet rfl (holding_idle (by rw [hw]; rfl)) rfl rfl
      (begun_of_enter hfree rfl (by rintro k ⟨⟩) (by rintro c ⟨⟩))
  | enterClose hfree hc =>
    refine quiet rfl rfl rfl rfl (begun_of_enter hfree rfl (by rintro k ⟨⟩) ?_)
    rintro d ⟨⟩
    exact closes_self _ _
  | enterDrain hfree hc =>
    refine quiet rfl rfl rfl rfl (begun_of_enter hfree rfl (by rintro k ⟨⟩) ?_)
    rintro d ⟨⟩
    exact closes_self _ _
  | leaveSubmit hk =>
    refine quiet rfl rfl rfl rfl (begun_of_leave (howner (.submit _) (by rw [inside, hk]; rfl)) rfl
      ?_ (by rintro c ⟨⟩))
    rintro j ⟨⟩
    rw [hk]
    rfl
  | leaveStarting hw | leaveEnsure hw | leaveWork hw =>
    exact quiet rfl (holding_idle (by rw [hw]; rfl)) rfl rfl
      (begun_of_leave (howner (.worker _) (by rw [inside, hw]; rfl)) rfl
        (by rintro k ⟨⟩) (by rintro c ⟨⟩))
  | leaveMark hc | leaveDrain hc =>
    refine quiet rfl rfl rfl rfl (begun_of_leave (howner (.close _) (by rw [inside, hc]; rfl)) rfl
      (by rintro k ⟨⟩) ?_)
    rintro d ⟨⟩
    rw [hc]
    rfl
  | wake => exact quiet rfl rfl rfl rfl ⟨rfl, rfl⟩
  | @push k dropped hk =>
    have hmutex : s.mutex = some (.submit k) := howner (.submit k) (by rw [inside, hk]; rfl)
    have hpending : s.pending = [k] := by
      unfold pending
      rw [hmutex]
      exact congrArg (SubmitPc.pending k) hk
    have hclears : s.clears = false := by
      unfold clears
      rw [hmutex]
    obtain ⟨hpending', hclears'⟩ := begun_of_owner
      (s := { s.setSubmit k (.broadcasting dropped) with tasks := s.tasks ++ [k] }) hmutex
      (by rintro j ⟨⟩; exact submits_self _ _)
      (by rintro c ⟨⟩)
    refine run_to (.nil s.pool) ?_ rfl rfl ?_
    · rw [hpending', pool, hpending, List.append_nil]
    · exact congrArg (s.draining || ·) (hclears'.trans hclears.symm)
  | submitBroadcast hk | report hk =>
    exact quiet rfl rfl rfl rfl
      (begun_of_frame rfl (submits_pending (by rw [hk]; rfl)) fun _ => rfl)
  | park hw htasks =>
    rw [events, htasks]
    exact quiet rfl (holding_idle (by rw [hw]; rfl)) rfl rfl
      (begun_of_leave (howner (.worker _) (by rw [inside, hw]; rfl)) rfl
        (by rintro k ⟨⟩) (by rintro c ⟨⟩))
  | exit hw htasks =>
    rw [events, htasks]
    exact quiet rfl (holding_idle (by rw [hw]; rfl)) rfl rfl
      (begun_of_frame rfl (fun _ => rfl) fun _ => rfl)
  | @shift w task rest hw htasks =>
    have hpending : s.pending = [] := by
      unfold pending
      rw [howner (.worker w) (by rw [inside, hw]; rfl)]
    have hqueue : s.pool.queue = task :: rest := by rw [pool, hpending, List.append_nil, htasks]
    have hfree : s.pool.holding w = none := congrArg WorkerPc.task hw
    have hstart : BoundedPool.Moves cfg.capacity s.pool _ _ := .start hqueue hfree
    have hbegun : s.pending = [] := hpending
    rw [events, htasks]
    exact run_to hstart.run ((congrArg (rest ++ ·) hbegun).trans (List.append_nil rest))
      (holding_update _) rfl rfl
  | @finish w task hw =>
    have hheld : s.pool.holding w = some task := congrArg WorkerPc.task hw
    have hfinish : BoundedPool.Moves cfg.capacity s.pool _ _ := .finish hheld
    rw [events, hw]
    exact run_to hfinish.run rfl (holding_update _) rfl rfl
  | decrement hw | workerBroadcast hw =>
    exact quiet rfl (holding_idle (by rw [hw]; rfl)) rfl rfl
      (begun_of_frame rfl (fun _ => rfl) fun _ => rfl)
  | @mark c hc =>
    have hframe : (s.setClose c (.marked s.accepting)).pending = s.pending ∧
        (s.setClose c (.marked s.accepting)).clears = s.clears :=
      begun_of_frame rfl (fun _ => rfl) (closes_clears (by rw [hc]; rfl))
    rw [events]
    split
    · rename_i hacc
      have hshut : BoundedPool.Moves cfg.capacity s.pool _ _ := .shut hacc
      exact run_to hshut.run (congrArg (s.tasks ++ ·) hframe.1) rfl rfl
        (congrArg (s.draining || ·) hframe.2)
    · rename_i hacc
      have hacc : s.accepting = false := by simpa using hacc
      exact quiet rfl rfl hacc.symm rfl hframe
  | drained hc | join hc =>
    exact quiet rfl rfl rfl rfl
      (begun_of_frame rfl (fun _ => rfl) (closes_clears (by rw [hc]; rfl)))
  | drainWait hc =>
    refine quiet rfl rfl rfl rfl (begun_of_leave (howner (.close _) (by rw [inside, hc]; rfl)) rfl
      (by rintro k ⟨⟩) ?_)
    rintro d ⟨⟩
    rw [hc]
    rfl

theorem excludes_init : (new cfg).Excludes := by
  intro u hu
  cases u <;> cases hu

/-- The dispatcher simulates the pool, whatever the run. -/
theorem simulates (cfg : Config) :
    Simulates (step : AsyncDispatcher cfg → Label cfg → Option (AsyncDispatcher cfg)) anyStep
      (BoundedPool.step cfg.capacity) events (fun s => s.Excludes ∧ Closing s)
      (fun s p => p = s.pool) where
  keeps _ hstep h := ⟨excludes_step hstep h.1, closing_step hstep h.2⟩
  matched _ hstep h hp := ⟨_, hp ▸ pool_step hstep h.1 h.2, rfl⟩

/-- The events of a run are a run of the pool, up to the dispatcher's own state. -/
theorem pool_run {ls : List (Label cfg)} (h : Run step anyStep (new cfg) ls s) :
    Run (BoundedPool.step cfg.capacity) anyStep BoundedPool.new (history cfg ls) s.pool ∧
      s.Excludes ∧ Closing s := by
  obtain ⟨p, hrun, hinv, rfl⟩ := (simulates cfg).run h ⟨excludes_init, .init⟩
    (a := BoundedPool.new) rfl
  exact ⟨hrun, hinv⟩

end AsyncDispatcher

/-! ## What the calls know of their tasks -/

/-- What has been decided of the call's task. -/
def SubmitPc.verdict : SubmitPc → Option Bool
  | .outside | .checking => none
  | .pushing _ | .broadcasting _ => some true
  | .releasing accepted _ | .reporting accepted _ | .returned accepted => some accepted

namespace AsyncDispatcher
variable {s t : AsyncDispatcher cfg} {l : Label cfg}

def verdicts (s : AsyncDispatcher cfg) (k : TaskId) : Option Bool := (s.submits k).verdict

theorem verdicts_update {k : TaskId} {pc : SubmitPc}
    (ht : t.submits = Function.update s.submits k pc) :
    t.verdicts = Function.update s.verdicts k pc.verdict := by
  unfold verdicts
  rw [ht]
  exact Function.comp_update SubmitPc.verdict s.submits k pc

theorem verdicts_same {k : TaskId} {pc : SubmitPc}
    (ht : t.submits = Function.update s.submits k pc)
    (hpc : pc.verdict = (s.submits k).verdict) : t.verdicts = s.verdicts := by
  rw [verdicts_update ht, hpc]
  exact Function.update_eq_self k s.verdicts

theorem verdicts_step {es : List (Event TaskId (Fin cfg.workerCount))}
    (hstep : s.step l = some t) (h : Verdicts es s.verdicts) :
    Verdicts (es ++ s.events l) t.verdicts := by
  cases step_does hstep with
  | refuse hk hacc =>
    rw [events, if_neg (by rw [hacc]; exact Bool.false_ne_true), verdicts_update (s := s) rfl]
    exact h.refuse (congrArg SubmitPc.verdict hk)
  | displace hk hacc =>
    rw [events, if_pos hacc, verdicts_update (s := s) rfl]
    exact h.accept (congrArg SubmitPc.verdict hk) _
  | accept hk hacc =>
    rw [events, if_pos hacc, verdicts_update (s := s) rfl]
    exact h.accept (congrArg SubmitPc.verdict hk) _
  | enterSubmit _ hk | leaveSubmit hk | push hk | submitBroadcast hk | report hk =>
    rw [verdicts_same (s := s) rfl (by rw [hk]; rfl)]
    exact h.quiet rfl rfl
  | shift hw htasks =>
    exact h.quiet (by simp [events, htasks, Event.admits]) (by simp [events, htasks, Event.refuses])
  | park hw htasks => exact h.quiet (by simp [events, htasks]) (by simp [events, htasks])
  | exit hw htasks => exact h.quiet (by simp [events, htasks]) (by simp [events, htasks])
  | finish hw =>
    exact h.quiet (by simp [events, hw, WorkerPc.task, Event.admits])
      (by simp [events, hw, WorkerPc.task, Event.refuses])
  | mark =>
    refine h.quiet ?_ ?_
    · rw [events]
      split <;> rfl
    · rw [events]
      split <;> rfl
  | _ => exact h.quiet rfl rfl

theorem verdicts_run {ls : List (Label cfg)} (h : Run step anyStep (new cfg) ls s) :
    Verdicts (history cfg ls) s.verdicts := by
  unfold history
  exact trace_history (I := fun es s => Verdicts es s.verdicts) (fun _ => verdicts_step) h .init

/-- **The Ruby dispatcher is the bounded pool it is for.** The events of any run, statement by
statement and with any number of threads in `submit` and `close`, are a run of the pool, and
whenever the mutex is free the pool's state is the dispatcher's own. So a task whose `submit`
returned `true` is in exactly one place and was started at most once, one whose `submit` returned
`false` is in none and the dispatcher was closed; tasks start in the order they were accepted; a
task gives way only when `@capacity` tasks are queued, and then the oldest does; and whenever the
mutex is free the queue is within the capacity. -/
theorem submitted_tasks_in_one_place {ls : List (Label cfg)}
    (h : Run step anyStep (new cfg) ls s) :
    Run (BoundedPool.step cfg.capacity) anyStep BoundedPool.new (history cfg ls) s.pool ∧
    (s.mutex = none → s.pool.queue = s.tasks ∧ s.pool.serving = s.draining) ∧
    (∀ k, s.submits k = .returned true →
      (∃! place, At (history cfg ls) s.pool k place) ∧ (started (history cfg ls)).count k ≤ 1) ∧
    (∀ k, s.submits k = .returned false →
      s.accepting = false ∧ ∀ place, ¬ At (history cfg ls) s.pool k place) ∧
    (admitted (history cfg ls)).Nodup ∧
    (started (history cfg ls)).Sublist (admitted (history cfg ls)) ∧
    (∀ before k oldest after, history cfg ls = before ++ .accept k (some oldest) :: after →
      ∃ p, Run (BoundedPool.step cfg.capacity) anyStep BoundedPool.new before p ∧
        cfg.capacity ≤ p.queue.length ∧ p.queue.head? = some oldest) ∧
    (s.mutex = none → s.tasks.length ≤ max cfg.capacity 1) := by
  obtain ⟨hpool, -⟩ := pool_run h
  have hacc := accounted_run hpool
  have hverdicts := verdicts_run h
  have hfree : s.mutex = none → s.pool.queue = s.tasks ∧ s.pool.serving = s.draining := by
    intro hfree
    obtain ⟨hpending, hclears⟩ := begun_of_free hfree
    rw [pool, hpending, hclears]
    exact ⟨List.append_nil _, Bool.or_false _⟩
  refine ⟨hpool, hfree, ?_, ?_, hverdicts.nodup, hacc.started_sublist, ?_, ?_⟩
  · intro k hk
    have hin := (hverdicts.admitted k).mpr (congrArg SubmitPc.verdict hk)
    refine ⟨hacc.one_place hverdicts.nodup hin, ?_⟩
    exact List.nodup_iff_count_le_one.mp (hverdicts.nodup.sublist hacc.started_sublist) k
  · intro k hk
    have hverdict : s.verdicts k = some false := congrArg SubmitPc.verdict hk
    have hout := (hverdicts.refused k).mpr hverdict
    refine ⟨?_, fun place hplace => ?_⟩
    · by_contra ha
      have ha : s.accepting = true := by simpa using ha
      rw [hacc.refusing ha] at hout
      cases hout
    · have hin := (hverdicts.admitted k).mp (hacc.at_admitted hplace)
      rw [hverdict] at hin
      cases hin
  · intro before k oldest after hsplit
    exact displaced_oldest (hsplit ▸ hpool)
  · intro hnone
    rw [← (hfree hnone).1]
    exact hacc.bounded

/-- A call of `submit` from its entry to its return. -/
def submitTrace (k : TaskId) (elapsed : Bool) : List (Label smallest) :=
  [.acquire (.submit k), .submitCheck k elapsed, .push k, .submitBroadcast k, .release (.submit k),
    .report k]

def overflowTrace : List (Label smallest) :=
  submitTrace 0 false ++ [.acquire (.worker ⟨0, Nat.one_pos⟩), .workerCheck ⟨0, Nat.one_pos⟩,
    .release (.worker ⟨0, Nat.one_pos⟩)] ++ submitTrace 1 false ++ submitTrace 2 false

/-- The worker executes task 0 when 1 and 2 arrive: 1 gives way, and that is its one place. -/
theorem submitted_tasks_in_one_place_overflow : ∃ ls s,
    Run step anyStep (new smallest) ls s ∧ displaced (history smallest ls) = [1] ∧
    (∃! place, At (history smallest ls) s.pool 1 place) := by
  obtain ⟨s, hrun, hs⟩ := exists_run_of_exec step anyStep (new smallest) overflowTrace
    (fun s => s.submits 1 = .returned true) (by decide)
  exact ⟨overflowTrace, s, hrun, by decide,
    ((submitted_tasks_in_one_place hrun).2.2.1 1 (of_decide_eq_true hs)).1⟩

end AsyncDispatcher

end OppexSdk.Ruby.Dispatcher
