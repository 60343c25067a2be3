import OppexSdk.Cpp.AsyncDispatcher
import OppexSdk.Cpp.WireCodec

/-! # Exceptions in queued C++ deliveries

The closure that `Client::Impl::Submit` of `cpp/src/client.cpp` queues, and what becomes of an
exception that leaves it. `Work` calls the task without a handler, so the exception leaves the
thread's function and `std::terminate` ends the process. The dispatcher's own warnings are written
on the threads of its callers and are not in question here. -/
namespace OppexSdk.Cpp.AsyncDispatcher
open OppexSdk.Lib OppexSdk.Lib.Transition
open OppexSdk.Cpp.Wire (IncidentResponse)

/-- A thrown object. `ε` are the exceptions that are not `IncidentError`s: `std::bad_alloc`,
`std::length_error`, whatever a host's sink throws. -/
inductive Thrown (ε : Type)
  | incidentError (failure : IncidentError)
  | other (exception : ε)

inductive LogLevel
  | kDebug
  | kWarning

/-- What the queued deliveries meet. -/
structure Surroundings (ε : Type) where
  /-- `Delivery::Deliver` for the task's request. -/
  deliver : TaskId → Except (Thrown ε) IncidentResponse
  /-- The host's log sink, as it behaves when the task calls it. -/
  logSink : TaskId → LogLevel → Bytes → Except (Thrown ε) Unit

variable {cfg : Config} {ε : Type}

/-- The line a task writes about its failed delivery. -/
def failureLine (failure : IncidentError) : Bytes :=
  bytes "oppex: queued incident delivery failed: " ++ failure.what

/-- The closure that `Client::Impl::Submit` queues. -/
def Surroundings.task (cfg : Config) (b : Surroundings ε) (k : TaskId) : Except (Thrown ε) Unit :=
  match b.deliver k with
  | .ok _ => .ok ()
  | .error (.incidentError failure) =>
    if cfg.logSink then b.logSink k .kDebug (failureLine failure) else .ok ()
  | .error (.other exception) => .error (.other exception)

/-- The host's process, as far as the dispatcher goes. -/
structure Process (cfg : Config) where
  dispatcher : Dispatcher cfg
  /-- An exception has left `Work`. -/
  terminated : Bool

def start (cfg : Config) : Process cfg := ⟨new cfg, false⟩

/-- A step of the dispatcher, in which `finish w` is the end of the task that `w` executes. -/
def Process.step (b : Surroundings ε) (s : Process cfg) (l : Label cfg) : Option (Process cfg) :=
  if s.terminated then none
  else
    match l with
    | .finish w =>
      match s.dispatcher.workers w with
      | .running k =>
        match b.task cfg k with
        | .ok _ => (s.dispatcher.finish w).map fun d => { s with dispatcher := d }
        | .error _ => some { s with terminated := true }
      | _ => none
    | l => (AsyncDispatcher.step s.dispatcher l).map fun d => { s with dispatcher := d }

/-! ## What is promised -/

def WorkerPc.inLoop : WorkerPc → Bool
  | .polling | .running _ | .notifying => true
  | .exited => false

def WorkerPc.isRunning : WorkerPc → Bool
  | .running _ => true
  | .polling | .notifying | .exited => false

/-- No exception has reached `Work`, the workers are in their loop as long as they are wanted, and
every task that was started and has ended is no longer counted in `active_`. -/
structure Process.Undisturbed (s : Process cfg) : Prop where
  terminated : s.terminated = false
  workers : s.dispatcher.draining = true → ∀ w, (s.dispatcher.workers w).inLoop = true
  active : s.dispatcher.active =
    (Finset.univ.filter fun w => (s.dispatcher.workers w).isRunning).card

/-- The queued tasks contain every exception. -/
structure Surroundings.Contained (cfg : Config) (b : Surroundings ε) : Prop where
  returns : ∀ k, b.task cfg k = .ok ()
  runs : ∀ ls s, Run (Process.step b) anyStep (start cfg) ls s → s.Undisturbed

/-- The delivery returns or fails with an `IncidentError`, and then the sink, if there is one,
takes the line. -/
def Surroundings.Handled (cfg : Config) (b : Surroundings ε) (k : TaskId) : Prop :=
  (∃ response, b.deliver k = .ok response) ∨
  ∃ failure, b.deliver k = .error (.incidentError failure) ∧
    (cfg.logSink = true → b.logSink k .kDebug (failureLine failure) = .ok ())

variable {b : Surroundings ε}

theorem task_ok_iff (k : TaskId) : b.task cfg k = .ok () ↔ b.Handled cfg k := by
  unfold Surroundings.task Surroundings.Handled
  cases b.deliver k with
  | ok response => simp
  | error thrown =>
    cases thrown with
    | other exception => simp
    | incidentError failure => by_cases h : cfg.logSink = true <;> simp [h]

/-! ## What a step does to the workers -/

/-- What a step of the dispatcher does to the workers, to `active_` and to `draining_`. -/
inductive Moves (s t : Dispatcher cfg) : Prop
  | idle : t.workers = s.workers → t.active = s.active →
      (t.draining = true → s.draining = true) → Moves s t
  | pop (w : Fin cfg.workerCount) (task : TaskId) : s.workers w = .polling →
      t.workers = Function.update s.workers w (.running task) → t.active = s.active + 1 →
      t.draining = s.draining → Moves s t
  | exit (w : Fin cfg.workerCount) : s.workers w = .polling → s.draining = false →
      t.workers = Function.update s.workers w .exited → t.active = s.active →
      t.draining = s.draining → Moves s t
  | finish (w : Fin cfg.workerCount) (task : TaskId) : s.workers w = .running task →
      t.workers = Function.update s.workers w .notifying → t.active = s.active - 1 →
      t.draining = s.draining → Moves s t
  | notify (w : Fin cfg.workerCount) : s.workers w = .notifying →
      t.workers = Function.update s.workers w .polling → t.active = s.active →
      t.draining = s.draining → Moves s t

section
variable {s t : Dispatcher cfg}

theorem poll_moves {w : Fin cfg.workerCount} (h : s.poll w = some t) : Moves s t := by
  unfold Dispatcher.poll at h
  split at h
  · rename_i hw
    split at h
    · cases h
    · split at h
      · cases h; exact .pop w _ hw rfl rfl rfl
      · split at h
        · rename_i hd
          cases h
          exact .exit w hw (by simpa using hd) rfl rfl rfl
        · cases h; exact .idle rfl rfl id
  · cases h

theorem stop_moves (c : Nat) : Moves s (s.stop c) :=
  .idle rfl rfl fun h => (nomatch h)

theorem submit_moves {k : TaskId} {elapsed : Bool} (h : s.submit k elapsed = some t) :
    Moves s t := by
  unfold Dispatcher.submit at h
  split at h
  · split at h
    · cases h; exact .idle rfl rfl id
    · split at h <;> cases h <;> exact .idle rfl rfl id
  · cases h

theorem close_moves {c : Nat} (h : s.close c = some t) : Moves s t := by
  unfold Dispatcher.close at h
  split at h
  · split at h
    · cases h; exact .idle rfl rfl id
    · dsimp only at h
      split at h <;> cases h
      · exact .idle rfl rfl fun h => (nomatch h)
      · exact .idle rfl rfl id
  · cases h

theorem drain_moves {c : Nat} {timedOut : Bool} (h : s.drain c timedOut = some t) :
    Moves s t := by
  unfold Dispatcher.drain at h
  split at h
  · split at h
    · cases h
    · split at h <;> cases h
      · exact stop_moves c
      · exact .idle rfl rfl id
  · cases h

theorem step_moves {l : Label cfg} (h : AsyncDispatcher.step s l = some t) : Moves s t := by
  cases l with
  | submit k elapsed => exact submit_moves h
  | poll w => exact poll_moves h
  | close c => exact close_moves h
  | drain c timedOut => exact drain_moves h
  | submitNotify k target =>
    simp only [step, Dispatcher.submitNotify] at h
    split at h
    · obtain ⟨changed, -, rfl⟩ := Option.map_eq_some_iff.mp h
      exact .idle rfl rfl id
    · cases h
  | finish w =>
    simp only [step, Dispatcher.finish] at h
    split at h
    · rename_i hw
      cases h
      exact .finish w _ hw rfl rfl rfl
    · cases h
  | workerNotify w =>
    simp only [step, Dispatcher.workerNotify] at h
    split at h
    · rename_i hw
      cases h
      exact .notify w hw rfl rfl rfl
    · cases h
  | closeNotify c =>
    simp only [step, Dispatcher.closeNotify] at h
    split at h
    · cases h; exact .idle rfl rfl id
    · cases h
  | wake th =>
    simp only [step, Dispatcher.wake] at h
    split at h
    · cases h; exact .idle rfl rfl id
    · cases h

/-- Workers leave only when the dispatcher no longer drains. -/
def Staffed (s : Dispatcher cfg) : Prop :=
  ∀ w, (s.workers w).inLoop = true ∨ s.draining = false

/-- `active_` as a sum over the workers. -/
def Balanced (s : Dispatcher cfg) : Prop :=
  s.active = ∑ w, (s.workers w).isRunning.toNat

theorem Staffed.update (h : Staffed s) {w : Fin cfg.workerCount} {pc : WorkerPc}
    (hworkers : t.workers = Function.update s.workers w pc) (hd : t.draining = s.draining)
    (hpc : pc.inLoop = true ∨ s.draining = false) : Staffed t := by
  unfold Staffed
  rw [hworkers, hd]
  exact (Function.forall_update_iff s.workers fun _ pc =>
    pc.inLoop = true ∨ s.draining = false).mpr ⟨hpc, fun v _ => h v⟩

theorem Moves.staffed (hm : Moves s t) (h : Staffed s) : Staffed t := by
  cases hm with
  | idle hworkers _ hd =>
    intro w
    rw [hworkers]
    refine (h w).imp id fun hs => ?_
    cases ht : t.draining with
    | false => rfl
    | true => rw [hd ht] at hs; cases hs
  | pop w task _ hworkers _ hd => exact h.update hworkers hd (.inl rfl)
  | exit w _ hs hworkers _ hd => exact h.update hworkers hd (.inr hs)
  | finish w task _ hworkers _ hd => exact h.update hworkers hd (.inl rfl)
  | notify w _ hworkers _ hd => exact h.update hworkers hd (.inl rfl)

theorem Balanced.update (h : Balanced s) {w : Fin cfg.workerCount} {pc : WorkerPc}
    (hworkers : t.workers = Function.update s.workers w pc)
    (hactive : t.active = s.active + pc.isRunning.toNat - (s.workers w).isRunning.toNat) :
    Balanced t := by
  have hsum := sum_update (fun pc : WorkerPc => pc.isRunning.toNat) s.workers w pc
  unfold Balanced at h ⊢
  rw [hworkers]
  omega

theorem Moves.balanced (hm : Moves s t) (h : Balanced s) : Balanced t := by
  cases hm with
  | idle hworkers hactive _ =>
    unfold Balanced
    rw [hworkers, hactive, h]
  | pop w task hw hworkers hactive _ => exact h.update hworkers (by rw [hw]; exact hactive)
  | exit w hw _ hworkers hactive _ => exact h.update hworkers (by rw [hw]; exact hactive)
  | finish w task hw hworkers hactive _ => exact h.update hworkers (by rw [hw]; exact hactive)
  | notify w hw hworkers hactive _ => exact h.update hworkers (by rw [hw]; exact hactive)

end

/-! ## The process -/

/-- What holds of a process in which no exception has left a task. -/
structure Process.Sound (s : Process cfg) : Prop where
  terminated : s.terminated = false
  staffed : Staffed s.dispatcher
  balanced : Balanced s.dispatcher

theorem Process.Sound.undisturbed {s : Process cfg} (h : s.Sound) : s.Undisturbed := by
  refine ⟨h.terminated, ?_, ?_⟩
  · intro hd w
    refine (h.staffed w).resolve_right ?_
    rw [hd]
    exact Bool.noConfusion
  · rw [h.balanced, Finset.card_filter]
    refine Finset.sum_congr rfl fun w _ => ?_
    cases (s.dispatcher.workers w).isRunning <;> rfl

theorem Process.Sound.moves {s : Process cfg} (h : s.Sound) {d : Dispatcher cfg}
    (hm : Moves s.dispatcher d) : Process.Sound { s with dispatcher := d } :=
  ⟨h.terminated, hm.staffed h.staffed, hm.balanced h.balanced⟩

theorem sound_step (hreturns : ∀ k, b.task cfg k = .ok ()) {s t : Process cfg} {l : Label cfg}
    (hstep : s.step b l = some t) (h : s.Sound) : t.Sound := by
  unfold Process.step at hstep
  rw [if_neg (by rw [h.terminated]; exact Bool.false_ne_true)] at hstep
  split at hstep
  · rename_i w
    split at hstep
    · rename_i k _
      rw [hreturns k] at hstep
      obtain ⟨d, hd, rfl⟩ := Option.map_eq_some_iff.mp hstep
      exact h.moves (step_moves (l := .finish w) hd)
    · cases hstep
  · obtain ⟨d, hd, rfl⟩ := Option.map_eq_some_iff.mp hstep
    exact h.moves (step_moves hd)

theorem sound_run (hreturns : ∀ k, b.task cfg k = .ok ()) {s : Process cfg}
    {ls : List (Label cfg)} (h : Run (Process.step b) anyStep (start cfg) ls s) : s.Sound := by
  refine h.invariant (fun _ => sound_step hreturns) ⟨rfl, fun _ => .inl rfl, ?_⟩
  exact (Finset.sum_eq_zero fun _ _ => rfl).symm

/-- A task that lets an exception through ends the process, whatever worker executes it. -/
theorem terminates_of_not_handled {k : TaskId} (hk : ¬ b.Handled cfg k)
    (w : Fin cfg.workerCount) : ∃ s, Run (Process.step b) anyStep (start cfg)
      [.submit k false, .submitNotify k none, .poll w, .finish w] s ∧ s.terminated = true := by
  obtain ⟨thrown, hthrown⟩ : ∃ thrown, b.task cfg k = .error thrown := by
    cases h : b.task cfg k with
    | ok u => exact absurd ((task_ok_iff k).mp h) hk
    | error thrown => exact ⟨thrown, rfl⟩
  have hroom : ¬ cfg.capacity = 0 := Nat.pos_iff_ne_zero.mp cfg.capacity_pos
  -- the task is queued, its notification finds nobody waiting, and `w` takes it
  let queued : Dispatcher cfg :=
    { new cfg with tasks := [k], submits := Function.update (fun _ => .outside) k (.notifying none) }
  have hqueued : Process.step b (start cfg) (.submit k false) = some ⟨queued, false⟩ := by
    simp [Process.step, start, AsyncDispatcher.step, Dispatcher.submit, new, hroom, queued]
  let notified : Dispatcher cfg :=
    { queued with submits := Function.update queued.submits k (.returned true) }
  have hnotified : Process.step b ⟨queued, false⟩ (.submitNotify k none) =
      some ⟨notified, false⟩ := by
    simp [Process.step, AsyncDispatcher.step, Dispatcher.submitNotify, queued, notified, new,
      Condvar.notifyOne, Condvar.new, report]
  let running : Dispatcher cfg :=
    { notified with
      tasks := [], active := 1, workers := Function.update notified.workers w (.running k) }
  have hrunning : Process.step b ⟨notified, false⟩ (.poll w) = some ⟨running, false⟩ := by
    simp [Process.step, AsyncDispatcher.step, Dispatcher.poll, running, notified, queued, new,
      Condvar.new, Condvar.Parked]
  have hended : Process.step b ⟨running, false⟩ (.finish w) = some ⟨running, true⟩ := by
    simp [Process.step, running, hthrown]
  exact ⟨⟨running, true⟩, .cons trivial hqueued (.cons trivial hnotified
    (.cons trivial hrunning (.cons trivial hended (.nil _)))), rfl⟩

/-- **Queued deliveries contain every exception exactly when there is none that they let
through**: every delivery returns or fails with an `IncidentError`, whose line the host's sink
takes. -/
theorem contained_iff_handled (cfg : Config) (b : Surroundings ε) :
    b.Contained cfg ↔ ∀ k, b.Handled cfg k := by
  constructor
  · intro h k
    exact (task_ok_iff k).mp (h.returns k)
  · intro h
    have hreturns : ∀ k, b.task cfg k = .ok () := fun k => (task_ok_iff k).mpr (h k)
    exact ⟨hreturns, fun _ _ hrun => (sound_run hreturns hrun).undisturbed⟩

/-- One worker, room for one task, and a host that installed a sink. -/
def logging : Config := ⟨1, 1, true, Nat.one_pos, Nat.one_pos⟩

/-- The exceptions of the two examples. -/
inductive HostException
  | badAlloc
  | sinkFailure

/-- `Deliver` runs out of memory while it builds the payload. -/
def outOfMemory : Surroundings HostException where
  deliver _ := .error (.other .badAlloc)
  logSink _ _ _ := .ok ()

/-- A delivery fails as it may, and the host's sink throws when it is told. -/
def throwingSink : Surroundings HostException where
  deliver _ := .error (.incidentError (.new .kDelivery (bytes "Oppex returned HTTP 503") 503 true))
  logSink _ _ _ := .error (.other .sinkFailure)

/-- Both exceptions pass the closure's handler, and the process ends. -/
theorem exception_leaves_the_task :
    (¬ outOfMemory.Contained logging ∧ ∃ ls s,
      Run (Process.step outOfMemory) anyStep (start logging) ls s ∧ s.terminated = true) ∧
    (¬ throwingSink.Contained logging ∧ ∃ ls s,
      Run (Process.step throwingSink) anyStep (start logging) ls s ∧ s.terminated = true) := by
  have hescape : ∀ {b : Surroundings HostException}, ¬ b.Handled logging 0 →
      ¬ b.Contained logging ∧
      ∃ ls s, Run (Process.step b) anyStep (start logging) ls s ∧ s.terminated = true := by
    intro b hk
    obtain ⟨s, hrun, hs⟩ := terminates_of_not_handled hk ⟨0, Nat.one_pos⟩
    exact ⟨fun h => hk ((task_ok_iff 0).mp (h.returns 0)), _, s, hrun, hs⟩
  constructor
  · refine hescape fun h => ?_
    have htask := (task_ok_iff 0).mpr h
    cases htask
  · refine hescape fun h => ?_
    have htask := (task_ok_iff 0).mpr h
    cases htask

end OppexSdk.Cpp.AsyncDispatcher
