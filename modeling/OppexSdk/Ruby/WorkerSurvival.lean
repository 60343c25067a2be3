import Mathlib.Data.Finset.Card
import OppexSdk.Lib.Bytes
import OppexSdk.Ruby.DispatcherWakeup

/-! # Raising deliveries and the workers of the Ruby dispatcher

The block that `IncidentClient#submit` of `ruby/lib/oppex_sdk/incident_client.rb` queues rescues
`IncidentError` and nothing else. What it lets through passes `work`'s `ensure`, which takes the
task out of `@active`, and then ends `work`'s loop and with it the worker's thread. -/
namespace OppexSdk.Ruby.Dispatcher
open OppexSdk.Lib OppexSdk.Lib.Transition

/-- A `StandardError`. `ε` are those that are not `IncidentError`s, such as the
`JSON::GeneratorError` of a payload that is not UTF-8. -/
inductive Raised (ε : Type)
  | incidentError (message : Bytes)
  | other (error : ε)

/-- How the queued deliveries end. -/
structure Deliveries (ε : Type) where
  /-- `deliver` for the task's request. -/
  deliver : TaskId → Except (Raised ε) Unit
  /-- The host's `@logger.debug`, as it behaves when the task calls it. -/
  debug : TaskId → Bytes → Except (Raised ε) Unit

variable {cfg : Config} {ε : Type}

def failureLine (message : Bytes) : Bytes :=
  bytes "oppex: asynchronous incident delivery failed: " ++ message

/-- The block that `IncidentClient#submit` queues. -/
def Deliveries.block (b : Deliveries ε) (k : TaskId) : Except (Raised ε) Unit :=
  match b.deliver k with
  | .ok _ => .ok ()
  | .error (.incidentError message) => b.debug k (failureLine message)
  | .error (.other error) => .error (.other error)

/-- The dispatcher and the errors on their way out of it. -/
structure Pool (cfg : Config) where
  dispatcher : AsyncDispatcher cfg
  /-- The worker's last block has raised. -/
  raised : Fin cfg.workerCount → Bool

def start (cfg : Config) : Pool cfg := ⟨.new cfg, fun _ => false⟩

/-- A step of the dispatcher, in which `finish w` is the end of the block that `w` executes. -/
def Pool.step (b : Deliveries ε) (s : Pool cfg) : Label cfg → Option (Pool cfg)
  | .finish w =>
    match s.dispatcher.workers w with
    | .running k =>
      some ⟨s.dispatcher.setWorker w .finishing,
        Function.update s.raised w (b.block k matches .error _)⟩
    | _ => none
  | .release (.worker w) =>
    match s.dispatcher.workers w with
    | .releasing =>
      -- the end of `ensure`: an error goes on and leaves the loop
      let pc := if s.raised w then .exited else .starting
      some { s with dispatcher := { s.dispatcher.setWorker w pc with mutex := none } }
    | _ => (s.dispatcher.step (.release (.worker w))).map fun d => { s with dispatcher := d }
  | l => (s.dispatcher.step l).map fun d => { s with dispatcher := d }

/-! ## What is promised -/

/-- The thread is in the loop of `work`. -/
def WorkerPc.inLoop : WorkerPc → Bool
  | .exiting | .exited => false
  | .starting | .checking | .waiting | .starts _ | .running _ | .finishing | .decrementing
  | .broadcasting | .releasing => true

/-- A block is the worker's, from the statement that takes it to the one that counts it out. -/
def WorkerPc.executing : WorkerPc → Bool
  | .starts _ | .running _ | .finishing | .decrementing => true
  | .starting | .checking | .waiting | .broadcasting | .releasing | .exiting | .exited => false

/-- The deliveries so far have left the dispatcher as it should be. -/
structure Pool.Staffed (b : Deliveries ε) (s : Pool cfg) : Prop where
  workers : s.dispatcher.draining = true →
    (Finset.univ.filter fun w => (s.dispatcher.workers w).inLoop).card = cfg.workerCount
  active : s.dispatcher.active =
    (Finset.univ.filter fun w => (s.dispatcher.workers w).executing).card
  /-- Every queued incident can still be started. -/
  starts : s.dispatcher.mutex = none → s.dispatcher.draining = true →
    ∀ k ∈ s.dispatcher.tasks, ∃ ls t w, Run (Pool.step b) anyStep s ls t ∧
      t.dispatcher.workers w = .running k

/-- The delivery returns, or raises an `IncidentError` that the logger takes. -/
def Deliveries.Rescued (b : Deliveries ε) (k : TaskId) : Prop :=
  b.deliver k = .ok () ∨
  ∃ message, b.deliver k = .error (.incidentError message) ∧ b.debug k (failureLine message) = .ok ()

variable {b : Deliveries ε}

theorem block_ok_iff (k : TaskId) : b.block k = .ok () ↔ b.Rescued k := by
  unfold Deliveries.block Deliveries.Rescued
  cases b.deliver k with
  | ok _ => simp
  | error raised => cases raised <;> simp

/-! ## What a step does to the workers -/

/-- What a step of the dispatcher does to the workers, to `@active` and to `@draining`. -/
inductive Moves (s t : AsyncDispatcher cfg) : Prop
  | idle : t.workers = s.workers → t.active = s.active →
      (t.draining = true → s.draining = true) → Moves s t
  | worker (w : Fin cfg.workerCount) (pc : WorkerPc) :
      t.workers = Function.update s.workers w pc → t.draining = s.draining →
      t.active = s.active + pc.executing.toNat - (s.workers w).executing.toNat →
      (pc.inLoop = true ∨ s.draining = false ∨ (s.workers w).inLoop = false) → Moves s t

section
variable {s t : AsyncDispatcher cfg}

theorem acquired_moves {u : Thread cfg.workerCount} (h : s.acquired u = some t) :
    Moves s t := by
  cases u with
  | submit k =>
    simp only [AsyncDispatcher.acquired] at h
    split at h <;> cases h
    exact .idle rfl rfl id
  | worker w =>
    simp only [AsyncDispatcher.acquired] at h
    split at h
    · rename_i hw
      cases h
      exact .worker w _ rfl rfl (by rw [hw]; rfl) (.inl rfl)
    · rename_i hw
      split at h <;> cases h
      exact .worker w _ rfl rfl (by rw [hw]; rfl) (.inl rfl)
    · rename_i hw
      cases h
      exact .worker w _ rfl rfl (by rw [hw]; rfl) (.inl rfl)
    · cases h
  | close c =>
    simp only [AsyncDispatcher.acquired] at h
    split at h
    · cases h; exact .idle rfl rfl id
    · cases h; exact .idle rfl rfl id
    · split at h <;> cases h
      exact .idle rfl rfl id
    · cases h

theorem released_moves {u : Thread cfg.workerCount} (h : s.released u = some t) :
    Moves s t := by
  cases u with
  | submit k =>
    simp only [AsyncDispatcher.released] at h
    split at h <;> cases h
    exact .idle rfl rfl id
  | worker w =>
    simp only [AsyncDispatcher.released] at h
    split at h <;> cases h <;> rename_i hw
    · exact .worker w _ rfl rfl (by rw [hw]; rfl) (.inl rfl)
    · exact .worker w _ rfl rfl (by rw [hw]; rfl) (.inl rfl)
    · exact .worker w _ rfl rfl (by rw [hw]; rfl) (.inr (.inr (by rw [hw]; rfl)))
  | close c =>
    simp only [AsyncDispatcher.released] at h
    split at h <;> cases h <;> exact .idle rfl rfl id

theorem workerCheck_moves {w : Fin cfg.workerCount} (h : s.step (.workerCheck w) = some t) :
    Moves s t := by
  simp only [AsyncDispatcher.step] at h
  split at h
  · rename_i hw
    split at h
    · split at h <;> cases h
      · exact .worker w _ rfl rfl (by rw [hw]; rfl) (.inl rfl)
      · rename_i hd
        refine .worker w _ rfl rfl (by rw [hw]; rfl) (.inr (.inl ?_))
        simpa using hd
    · cases h
      exact .worker w _ rfl rfl (by rw [hw]; rfl) (.inl rfl)
  · cases h

theorem step_moves {l : Label cfg} (h : s.step l = some t) : Moves s t := by
  cases l with
  | acquire u =>
    simp only [AsyncDispatcher.step] at h
    split at h
    · obtain ⟨v, hv, rfl⟩ := Option.map_eq_some_iff.mp h
      cases acquired_moves hv with
      | idle hworkers hactive hd => exact .idle hworkers hactive hd
      | worker w pc hworkers hd hactive hin => exact .worker w pc hworkers hd hactive hin
    · cases h
  | release u =>
    obtain ⟨v, hv, rfl⟩ := Option.map_eq_some_iff.mp h
    cases released_moves hv with
    | idle hworkers hactive hd => exact .idle hworkers hactive hd
    | worker w pc hworkers hd hactive hin => exact .worker w pc hworkers hd hactive hin
  | workerCheck w => exact workerCheck_moves h
  | finish w | decrement w | workerBroadcast w =>
    simp only [AsyncDispatcher.step] at h
    split at h <;> cases h
    rename_i hw
    exact .worker w _ rfl rfl (by rw [hw]; rfl) (.inl rfl)
  | submitCheck k elapsed =>
    simp only [AsyncDispatcher.step] at h
    split at h
    · split at h
      · cases h; exact .idle rfl rfl id
      · split at h <;> cases h <;> exact .idle rfl rfl id
    · cases h
  | closeCheck c expired =>
    simp only [AsyncDispatcher.step] at h
    split at h
    · split at h <;> cases h <;> exact .idle rfl rfl id
    · cases h
  | stop c =>
    simp only [AsyncDispatcher.step] at h
    split at h <;> cases h
    exact .idle rfl rfl (by rintro ⟨⟩)
  | wake _ | push _ | submitBroadcast _ | report _ | mark _ | closeBroadcast _ | clear _ | join _ =>
    simp only [AsyncDispatcher.step] at h
    split at h <;> cases h
    exact .idle rfl rfl id

/-- Workers leave only when the dispatcher no longer drains. -/
def Manned (s : AsyncDispatcher cfg) : Prop :=
  ∀ w, (s.workers w).inLoop = true ∨ s.draining = false

/-- `@active` as a sum over the workers. -/
def Balanced (s : AsyncDispatcher cfg) : Prop :=
  s.active = ∑ w, (s.workers w).executing.toNat

theorem Moves.manned (hm : Moves s t) (h : Manned s) : Manned t := by
  cases hm with
  | idle hworkers _ hd =>
    intro w
    rw [hworkers]
    refine (h w).imp id fun hs => ?_
    cases ht : t.draining with
    | false => rfl
    | true => rw [hd ht] at hs; cases hs
  | worker w pc hworkers hd _ hpc =>
    unfold Manned
    rw [hworkers, hd]
    refine (Function.forall_update_iff s.workers fun _ pc =>
      pc.inLoop = true ∨ s.draining = false).mpr ⟨?_, fun v _ => h v⟩
    rcases hpc with hpc | hpc | hpc
    · exact .inl hpc
    · exact .inr hpc
    · exact .inr ((h w).resolve_left (by rw [hpc]; exact Bool.false_ne_true))

theorem Moves.balanced (hm : Moves s t) (h : Balanced s) : Balanced t := by
  unfold Balanced at h ⊢
  cases hm with
  | idle hworkers hactive _ => rw [hworkers, hactive, h]
  | worker w pc hworkers _ hactive _ =>
    have hsum := sum_update (fun pc : WorkerPc => pc.executing.toNat) s.workers w pc
    rw [hworkers]
    omega

end

/-! ## Runs without errors let through -/

/-- What holds as long as every block returns. -/
structure Pool.Sound (s : Pool cfg) : Prop where
  raised : ∀ w, s.raised w = false
  excludes : s.dispatcher.Excludes
  manned : Manned s.dispatcher
  balanced : Balanced s.dispatcher

/-- As long as every block returns, the pool takes the dispatcher's steps. -/
theorem step_dispatcher (hreturns : ∀ k, b.block k = .ok ()) {s t : Pool cfg} {l : Label cfg}
    (hstep : s.step b l = some t) (hs : ∀ w, s.raised w = false) :
    s.dispatcher.step l = some t.dispatcher ∧ ∀ w, t.raised w = false := by
  unfold Pool.step at hstep
  split at hstep
  · rename_i w
    split at hstep
    · rename_i k hw
      cases hstep
      refine ⟨by simp [AsyncDispatcher.step, hw], ?_⟩
      intro v
      rw [hreturns k]
      by_cases hv : v = w
      · subst hv
        exact Function.update_self ..
      · exact (Function.update_of_ne hv ..).trans (hs v)
    · cases hstep
  · rename_i w
    split at hstep
    · rename_i hw
      cases hstep
      refine ⟨?_, hs⟩
      simp [AsyncDispatcher.step, AsyncDispatcher.released, hw, hs w]
    · obtain ⟨d, hd, rfl⟩ := Option.map_eq_some_iff.mp hstep
      exact ⟨hd, hs⟩
  · obtain ⟨d, hd, rfl⟩ := Option.map_eq_some_iff.mp hstep
    exact ⟨hd, hs⟩

theorem sound_step (hreturns : ∀ k, b.block k = .ok ()) {s t : Pool cfg} {l : Label cfg}
    (hstep : s.step b l = some t) (h : s.Sound) : t.Sound := by
  obtain ⟨hd, hraised⟩ := step_dispatcher hreturns hstep h.raised
  have hm := step_moves hd
  exact ⟨hraised, AsyncDispatcher.excludes_step hd h.excludes, hm.manned h.manned,
    hm.balanced h.balanced⟩

theorem sound_run (hreturns : ∀ k, b.block k = .ok ()) {s : Pool cfg} {ls : List (Label cfg)}
    (h : Run (Pool.step b) anyStep (start cfg) ls s) : s.Sound := by
  refine h.invariant (fun _ => sound_step hreturns) ⟨fun _ => rfl, ?_, fun _ => .inl rfl, ?_⟩
  · intro u hu
    cases u <;> cases hu
  · exact (Finset.sum_eq_zero fun _ _ => rfl).symm

/-! ## How a worker gets to a task

The mutex is free and one worker alone moves, from block to block. -/

/-- The dispatcher drains, the mutex is free, the worker is at `pc` and `tasks` are queued. -/
structure Pool.At (s : Pool cfg) (w : Fin cfg.workerCount) (pc : WorkerPc) (tasks : List TaskId) :
    Prop where
  pc : s.dispatcher.workers w = pc
  tasks : s.dispatcher.tasks = tasks
  free : s.dispatcher.mutex = none
  draining : s.dispatcher.draining = true

section
variable {s : Pool cfg} {w : Fin cfg.workerCount} {tasks : List TaskId}

theorem Pool.At.finish {k : TaskId} (h : s.At w (.running k) tasks) :
    ∃ t, Run (Pool.step b) anyStep s [.finish w] t ∧ t.At w .finishing tasks ∧
      t.raised w = (b.block k matches .error _) := by
  refine ⟨_, .cons trivial (by simp only [Pool.step, h.pc]; rfl) (.nil _), ⟨?_, ?_, ?_, ?_⟩, ?_⟩
  · exact Function.update_self ..
  · exact h.tasks
  · exact h.free
  · exact h.draining
  · exact Function.update_self ..

/-- `ensure`, and what comes after it. -/
theorem Pool.At.ensure (h : s.At w .finishing tasks) :
    ∃ ls t, Run (Pool.step b) anyStep s ls t ∧
      t.At w (if s.raised w then .exited else .starting) tasks := by
  let d := s.dispatcher
  let locked : Pool cfg :=
    { s with dispatcher := { d.setWorker w .decrementing with mutex := some (.worker w) } }
  have hlocked : s.step b (.acquire (.worker w)) = some locked := by
    simp [Pool.step, AsyncDispatcher.step, AsyncDispatcher.acquired, h.free, h.pc, locked, d]
  let counted : Pool cfg :=
    { s with
      dispatcher := { locked.dispatcher.setWorker w .broadcasting with active := d.active - 1 } }
  have hcounted : locked.step b (.decrement w) = some counted := by
    simp [Pool.step, AsyncDispatcher.step, AsyncDispatcher.setWorker, locked, counted]
  let announced : Pool cfg :=
    { s with
      dispatcher := { counted.dispatcher.setWorker w .releasing with
        changed := d.changed.notifyAll } }
  have hannounced : counted.step b (.workerBroadcast w) = some announced := by
    simp [Pool.step, AsyncDispatcher.step, AsyncDispatcher.setWorker, locked, counted, announced]
  let pc : WorkerPc := if s.raised w then .exited else .starting
  have hreleased : announced.step b (.release (.worker w)) =
      some { s with dispatcher := { announced.dispatcher.setWorker w pc with mutex := none } } := by
    simp [Pool.step, AsyncDispatcher.setWorker, announced, pc]
  refine ⟨_, _, .cons trivial hlocked (.cons trivial hcounted (.cons trivial hannounced
    (.cons trivial hreleased (.nil _)))), Function.update_self .., h.tasks, rfl, h.draining⟩

/-- A worker that can have the mutex takes the first task. -/
theorem Pool.At.takes {pc : WorkerPc} {k : TaskId} (h : s.At w pc (k :: tasks))
    (hready : s.dispatcher.acquired (.worker w) = some (s.dispatcher.setWorker w .checking)) :
    ∃ ls t, Run (Pool.step b) anyStep s ls t ∧ t.At w (.running k) tasks := by
  let d := s.dispatcher
  let locked : Pool cfg :=
    { s with dispatcher := { d.setWorker w .checking with mutex := some (.worker w) } }
  have hlocked : s.step b (.acquire (.worker w)) = some locked := by
    simp [Pool.step, AsyncDispatcher.step, hready, h.free, locked, d]
  let taken : Pool cfg :=
    { s with
      dispatcher := { locked.dispatcher.setWorker w (.starts k) with
        active := d.active + 1, tasks := tasks } }
  have htaken : locked.step b (.workerCheck w) = some taken := by
    simp [Pool.step, AsyncDispatcher.step, AsyncDispatcher.setWorker, h.tasks, locked, taken, d]
  have hreleased : taken.step b (.release (.worker w)) =
      some { s with dispatcher := { taken.dispatcher.setWorker w (.running k) with
        mutex := none } } := by
    simp [Pool.step, AsyncDispatcher.step, AsyncDispatcher.released, AsyncDispatcher.setWorker,
      locked, taken]
  refine ⟨_, _, .cons trivial hlocked (.cons trivial htaken (.cons trivial hreleased (.nil _))),
    Function.update_self .., rfl, rfl, h.draining⟩

theorem Pool.At.takes_starting {k : TaskId} (h : s.At w .starting (k :: tasks)) :
    ∃ ls t, Run (Pool.step b) anyStep s ls t ∧ t.At w (.running k) tasks :=
  h.takes (by simp [AsyncDispatcher.acquired, h.pc])

/-- A waiting worker may be parked; it can wake up for nothing. -/
theorem Pool.At.takes_waiting {k : TaskId} (h : s.At w .waiting (k :: tasks)) :
    ∃ ls t, Run (Pool.step b) anyStep s ls t ∧ t.At w (.running k) tasks := by
  by_cases hparked : s.dispatcher.changed.Parked (.worker w)
  · let awake : Pool cfg :=
      { s with dispatcher := { s.dispatcher with changed := s.dispatcher.changed.wake (.worker w) } }
    have hawake : s.step b (.wake (.worker w)) = some awake := by
      simp [Pool.step, AsyncDispatcher.step, hparked, awake]
    have hat : awake.At w .waiting (k :: tasks) := ⟨h.pc, h.tasks, h.free, h.draining⟩
    have hnot : ¬ awake.dispatcher.changed.Parked (.worker w) :=
      fun hp => ((Condvar.parked_wake _ _ _).mp hp).2 rfl
    obtain ⟨ls, t, hrun, ht⟩ := hat.takes (b := b) (by
      simp only [AsyncDispatcher.acquired, hat.pc, if_neg hnot])
    exact ⟨_, t, .cons trivial hawake hrun, ht⟩
  · exact h.takes (by simp only [AsyncDispatcher.acquired, h.pc, if_neg hparked])

/-- When blocks return, a worker gets to the first task from wherever it is. -/
theorem Pool.At.starts_head (hreturns : ∀ k, b.block k = .ok ()) (hs : s.Sound) {pc : WorkerPc}
    {k : TaskId} (h : s.At w pc (k :: tasks)) :
    ∃ ls t, Run (Pool.step b) anyStep s ls t ∧ t.At w (.running k) tasks := by
  have hin : pc.inLoop = true := by
    refine h.pc ▸ (hs.manned w).resolve_right ?_
    rw [h.draining]
    exact Bool.noConfusion
  have hout : pc.inside = false := by
    by_contra hpc
    have hheld := hs.excludes (.worker w) (by simpa [AsyncDispatcher.inside, h.pc] using hpc)
    rw [h.free] at hheld
    cases hheld
  have hensure : ∀ {s : Pool cfg}, s.raised w = false → s.At w .finishing (k :: tasks) →
      ∃ ls t, Run (Pool.step b) anyStep s ls t ∧ t.At w (.running k) tasks := by
    intro s hraised h
    obtain ⟨ls, t, hrun, ht⟩ := h.ensure (b := b)
    rw [hraised, if_neg Bool.false_ne_true] at ht
    obtain ⟨ls', u, hrun', hu⟩ := ht.takes_starting (b := b)
    exact ⟨_, u, hrun.append hrun', hu⟩
  cases pc with
  | starting => exact h.takes_starting
  | waiting => exact h.takes_waiting
  | finishing => exact hensure (hs.raised w) h
  | running j =>
    obtain ⟨t, hrun, ht, hraised⟩ := h.finish (b := b)
    rw [hreturns j] at hraised
    obtain ⟨ls, u, hrun', hu⟩ := hensure hraised ht
    exact ⟨_, u, hrun.append hrun', hu⟩
  | checking | starts _ | decrementing | broadcasting | releasing => cases hout
  | exiting | exited => cases hin

/-- ... and to every other one behind it. -/
theorem Pool.At.starts (hreturns : ∀ k, b.block k = .ok ()) (hs : s.Sound) {pc : WorkerPc}
    {k : TaskId} (h : s.At w pc tasks) (hk : k ∈ tasks) :
    ∃ ls t, Run (Pool.step b) anyStep s ls t ∧ t.dispatcher.workers w = .running k := by
  induction tasks generalizing s pc with
  | nil => cases hk
  | cons head rest ih =>
    obtain ⟨ls, t, hrun, ht⟩ := h.starts_head hreturns hs
    rcases List.mem_cons.mp hk with rfl | hrest
    · exact ⟨ls, t, hrun, ht.pc⟩
    · have hsound : t.Sound := hrun.invariant (fun _ => sound_step hreturns) hs
      obtain ⟨ls', u, hrun', hu⟩ := ih hsound ht hrest
      exact ⟨_, u, hrun.append hrun', hu⟩

end

/-! ## Runs in which an error is let through -/

/-- An incident is submitted to the new client. -/
theorem queued (k : TaskId) (w : Fin cfg.workerCount) :
    ∃ ls s, Run (Pool.step b) anyStep (start cfg) ls s ∧ s.At w .starting [k] := by
  let d : AsyncDispatcher cfg := .new cfg
  let locked : Pool cfg :=
    { start cfg with dispatcher := { d.setSubmit k .checking with mutex := some (.submit k) } }
  have hlocked : (start cfg).step b (.acquire (.submit k)) = some locked := rfl
  -- without any room the queue is full from the start, and there is nothing to drop
  let logger : RateLimitedDropLogger := if cfg.capacity = 0 then ⟨1⟩ else ⟨0⟩
  let checked : Pool cfg :=
    { start cfg with
      dispatcher := { locked.dispatcher.setSubmit k (.pushing none) with dropLogger := logger } }
  have hchecked : locked.step b (.submitCheck k false) = some checked := by
    by_cases hcap : cfg.capacity = 0 <;>
      simp [Pool.step, AsyncDispatcher.step, AsyncDispatcher.setSubmit, AsyncDispatcher.new,
        RateLimitedDropLogger.recordDrop, locked, checked, logger, d, hcap]
  let pushed : Pool cfg :=
    { start cfg with
      dispatcher := { checked.dispatcher.setSubmit k (.broadcasting none) with tasks := [k] } }
  have hpushed : checked.step b (.push k) = some pushed := by
    simp [Pool.step, AsyncDispatcher.step, AsyncDispatcher.setSubmit, AsyncDispatcher.new,
      checked, pushed, locked, d]
  let announced : Pool cfg :=
    { start cfg with
      dispatcher := { pushed.dispatcher.setSubmit k (.releasing true none) with
        changed := d.changed.notifyAll } }
  have hannounced : pushed.step b (.submitBroadcast k) = some announced := by
    simp [Pool.step, AsyncDispatcher.step, AsyncDispatcher.setSubmit, pushed, announced, checked,
      locked]
  have hreleased : announced.step b (.release (.submit k)) = some
      { start cfg with
        dispatcher := { announced.dispatcher.setSubmit k (.reporting true none) with
          mutex := none } } := by
    simp [Pool.step, AsyncDispatcher.step, AsyncDispatcher.released, AsyncDispatcher.setSubmit,
      announced]
  exact ⟨_, _, .cons trivial hlocked (.cons trivial hchecked (.cons trivial hpushed
    (.cons trivial hannounced (.cons trivial hreleased (.nil _))))), rfl, rfl, rfl, rfl⟩

/-- A block that lets an error through costs the dispatcher the worker that executed it. -/
theorem exits_of_not_rescued {k : TaskId} (hk : ¬ b.Rescued k) (w : Fin cfg.workerCount) :
    ∃ ls s, Run (Pool.step b) anyStep (start cfg) ls s ∧ s.At w .exited [] := by
  obtain ⟨ls₁, s₁, hrun₁, hs₁⟩ := queued (b := b) k w
  obtain ⟨ls₂, s₂, hrun₂, hs₂⟩ := hs₁.takes_starting (b := b)
  obtain ⟨s₃, hrun₃, hs₃, hraised⟩ := hs₂.finish (b := b)
  obtain ⟨ls₄, s₄, hrun₄, hs₄⟩ := hs₃.ensure (b := b)
  have herror : s₃.raised w = true := by
    rw [hraised]
    cases h : b.block k with
    | ok _ => exact absurd ((block_ok_iff k).mp h) hk
    | error _ => rfl
  rw [herror, if_pos rfl] at hs₄
  exact ⟨_, s₄, ((hrun₁.append hrun₂).append hrun₃).append hrun₄, hs₄⟩

theorem not_staffed_of_exited {s : Pool cfg} {w : Fin cfg.workerCount} {tasks : List TaskId}
    (h : s.At w .exited tasks) : ¬ s.Staffed b := by
  intro hs
  have hcard := (hs.workers h.draining).trans (Finset.card_fin cfg.workerCount).symm
  have hin := Finset.card_filter_eq_iff.mp hcard w (Finset.mem_univ w)
  rw [h.pc] at hin
  cases hin

theorem Pool.Sound.staffed (hreturns : ∀ k, b.block k = .ok ()) {s : Pool cfg} (h : s.Sound) :
    s.Staffed b := by
  refine ⟨?_, ?_, ?_⟩
  · intro hd
    have hall : ∀ w ∈ Finset.univ, (s.dispatcher.workers w).inLoop = true := by
      intro w _
      refine (h.manned w).resolve_right ?_
      rw [hd]
      exact Bool.noConfusion
    rw [Finset.filter_true_of_mem hall, Finset.card_fin]
  · rw [h.balanced, Finset.card_filter]
    refine Finset.sum_congr rfl fun w _ => ?_
    cases (s.dispatcher.workers w).executing <;> rfl
  · intro hfree hd k hk
    have hat : s.At ⟨0, cfg.workerCount_pos⟩ _ s.dispatcher.tasks := ⟨rfl, rfl, hfree, hd⟩
    obtain ⟨ls, t, hrun, ht⟩ := hat.starts hreturns h hk
    exact ⟨ls, t, _, hrun, ht⟩

/-- **The workers survive exactly the deliveries whose errors the block rescues**: in every run the
dispatcher keeps its workers while it drains, `@active` counts the blocks being executed and every
queued incident can be started, if and only if no delivery raises anything but an `IncidentError`
that the logger takes. -/
theorem staffed_iff_rescued (cfg : Config) (b : Deliveries ε) :
    (∀ ls s, Run (Pool.step b) anyStep (start cfg) ls s → s.Staffed b) ↔ ∀ k, b.Rescued k := by
  constructor
  · intro h k
    by_contra hk
    obtain ⟨ls, s, hrun, hs⟩ := exits_of_not_rescued hk ⟨0, cfg.workerCount_pos⟩
    exact not_staffed_of_exited hs (h ls s hrun)
  · intro h ls s hrun
    have hreturns : ∀ k, b.block k = .ok () := fun k => (block_ok_iff k).mpr (h k)
    exact (sound_run hreturns hrun).staffed hreturns

/-- The one error of the example. -/
inductive GeneratorError
  | malformedUtf8

/-- The first incident has a title that is not UTF-8, and later ones are in order. -/
def binaryTitle : Deliveries GeneratorError where
  deliver k := if k = 0 then .error (.other .malformedUtf8) else .ok ()
  debug _ _ := .ok ()

/-- After it the dispatcher has no worker left for the incident that comes next. -/
theorem error_ends_the_worker :
    ∃ ls s, Run (Pool.step binaryTitle) anyStep (start AsyncDispatcher.smallest) ls s ∧
      s.dispatcher.accepting = true ∧ s.dispatcher.tasks = [1] ∧
      (∀ w, s.dispatcher.workers w = .exited) ∧ ¬ s.Staffed binaryTitle := by
  have hex : ∃ ls s, Run (Pool.step binaryTitle) anyStep (start AsyncDispatcher.smallest) ls s ∧
      s.dispatcher.accepting = true ∧ s.dispatcher.draining = true ∧ s.dispatcher.mutex = none ∧
      s.dispatcher.tasks = [1] ∧ ∀ w, s.dispatcher.workers w = .exited := by
    refine ⟨_, _, run_of_exec [.acquire (.submit 0), .submitCheck 0 false, .push 0,
      .submitBroadcast 0, .release (.submit 0), .acquire (.worker (0 : Fin 1)),
      .workerCheck (0 : Fin 1), .release (.worker (0 : Fin 1)), .finish (0 : Fin 1),
      .acquire (.worker (0 : Fin 1)), .decrement (0 : Fin 1), .workerBroadcast (0 : Fin 1),
      .release (.worker (0 : Fin 1)), .acquire (.submit 1), .submitCheck 1 false, .push 1,
      .submitBroadcast 1, .release (.submit 1)] rfl, rfl, rfl, rfl, rfl, by decide⟩
  obtain ⟨ls, s, hrun, haccepting, hdraining, hfree, htasks, hworkers⟩ := hex
  exact ⟨ls, s, hrun, haccepting, htasks, hworkers,
    not_staffed_of_exited ⟨hworkers ⟨0, Nat.one_pos⟩, htasks, hfree, hdraining⟩⟩

end OppexSdk.Ruby.Dispatcher
