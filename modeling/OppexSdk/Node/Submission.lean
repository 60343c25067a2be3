import OppexSdk.Node.AsyncDispatcher
import OppexSdk.Node.NeverThrows

/-! # A call of `sendIncidentAsync` in the event loop

The client's calls and the event loop model the same dispatcher: the calls with the tasks
themselves and with what the host is asked, the loop with names of the tasks and with a stack of
the host's code. A call on an open client makes one `submit` step of the loop, whose task is the
one of its input and callbacks, and the return of a logger makes the step that ends it. -/
namespace OppexSdk.Node
open OppexSdk.Lib.Interaction OppexSdk.Lib.JavaScript

/-! ## Tasks and their names -/

namespace AsyncDispatcher
variable {τ υ : Type} (f : τ → υ) (d : AsyncDispatcher τ)

/-- The dispatcher with the tasks that its names stand for. -/
def map : AsyncDispatcher υ where
  maxConcurrency := d.maxConcurrency
  capacity := d.capacity
  active := d.active
  closed := d.closed
  queue := d.queue.map (Option.map f)
  queueHead := d.queueHead
  dropLogger := d.dropLogger

@[simp] theorem map_maxConcurrency : (d.map f).maxConcurrency = d.maxConcurrency := rfl
@[simp] theorem map_capacity : (d.map f).capacity = d.capacity := rfl
@[simp] theorem map_active : (d.map f).active = d.active := rfl
@[simp] theorem map_closed : (d.map f).closed = d.closed := rfl
@[simp] theorem map_queueHead : (d.map f).queueHead = d.queueHead := rfl
@[simp] theorem map_dropLogger : (d.map f).dropLogger = d.dropLogger := rfl
@[simp] theorem map_logDue (now : Nat) : (d.map f).logDue now = d.logDue now := rfl

@[simp] theorem map_queueLength : (d.map f).queueLength = d.queueLength := by
  simp [queueLength, map]

theorem clearSlot_map (queue : List (Option τ)) (i : Nat) :
    clearSlot (queue.map (Option.map f)) i = (clearSlot queue i).map (Option.map f) := by
  unfold clearSlot
  rw [List.length_map]
  split
  · rw [List.map_set]; rfl
  · rw [List.map_append, List.map_replicate]; rfl

theorem map_push (task : τ) : (d.push task).map f = (d.map f).push (f task) := by
  simp [push, map]

theorem map_recordDrop (now : Nat) : (d.recordDrop now).map f = (d.map f).recordDrop now := by
  unfold recordDrop
  rw [map_logDue]
  split <;> rfl

theorem map_dropOldest (now : Nat) : (d.dropOldest now).map f = (d.map f).dropOldest now := by
  unfold dropOldest
  rw [map_recordDrop, map_queueHead]
  simp only [map, clearSlot_map]

end AsyncDispatcher

/-! ## The thread -/

section
variable (now : Nat)
  (host : (q : Query Shared) → Shared → (hostSignature Shared).Answer q × Shared)

/-- The clients share their state and the clock shows `now`. The host answers the rest, and changes
the shared state where it uses the client itself. -/
def serve (q : Query Shared) (s : Shared) : (hostSignature Shared).Answer q × Shared :=
  match q with
  | .read => (s, s)
  | .write s' => ((), s')
  | .now => (now, s)
  | q => host q s

/-- The program run on the thread, with the shared state it starts from. -/
def execute {α : Type} (m : Js Shared α) (sh : Shared) : Except Value α × Shared :=
  m.run (serve now host) sh

variable (engine : Engine) (client : IncidentClient) (tasks : TaskId → Task)

def dropLine (dropped : Nat) : JsString :=
  js s!"[oppex-sdk] Dropped {dropped} incidents in the last minute."

/-- What runs on a frame of the stack: the task up to where it first waits, or the logger and then
the push. -/
def resume (dropped : Nat) : Frame → Js Shared Unit
  | .task k => (runTask engine client (tasks k)).start Query.suspends
  | .logger k => do
    Logger.warn (dropLine dropped)
    let s ← shared
    setDispatcher (s.dispatcher.push (tasks k))

/-- From `sh₀` the program makes this step of the loop, after which the shared state is `sh`. It
has returned, or goes on with what the step put on the stack. -/
def Follows (m : Js Shared Unit) (sh₀ : Shared) (s t : EventLoop) (sh : Shared) : Prop :=
  (t.stack = s.stack ∧ execute now host m sh₀ = (.ok (), sh)) ∨
    ∃ frame, t.stack = frame :: s.stack ∧ execute now host m sh₀ = execute now host
      (resume engine client tasks (s.dispatcher.dropLogger.droppedInInterval + 1) frame) sh

/-- The shared state with the dispatcher of the loop. -/
def Shared.within (sh : Shared) (s : EventLoop) : Shared :=
  { sh with dispatcher := s.dispatcher.map tasks }

end

section
variable {now : Nat} {host : (q : Query Shared) → Shared → (hostSignature Shared).Answer q × Shared}
variable {engine : Engine} {client : IncidentClient} {tasks : TaskId → Task}
variable {s t : EventLoop} {k : TaskId} {sh sh₀ : Shared}

theorem execute_bind {α β : Type} (m : Js Shared α) (f : α → Js Shared β) :
    execute now host (m >>= f) = fun sh =>
      Program.andThen (execute now host m sh) fun a => execute now host (f a) :=
  funext fun sh => Program.run_bind _ m f sh

/-- The drop, up to the line it may log. -/
theorem execute_dropOldest (d : AsyncDispatcher Task) (sh : Shared) :
    execute now host (dropOldest d) sh =
      if d.logDue now then
        execute now host (Logger.warn (dropLine (d.dropLogger.droppedInInterval + 1)))
          { sh with dispatcher := d.dropOldest now }
      else (.ok (), { sh with dispatcher := d.dropOldest now }) := by
  have hlater : AsyncDispatcher.logDue { d with
      queue := AsyncDispatcher.clearSlot d.queue d.queueHead
      queueHead := d.queueHead + 1 } now = d.logDue now := rfl
  unfold AsyncDispatcher.dropOldest AsyncDispatcher.recordDrop
  rw [hlater]
  show execute now host (ite _ _ _) sh = _
  split <;> rfl

/-- The push at the end of `submit` looks at the shared state again. -/
theorem execute_push (task : Task) (m : Js Shared Unit) (sh : Shared) :
    execute now host (do m; let s ← shared; setDispatcher (s.dispatcher.push task)) sh =
      Program.andThen (execute now host m sh) fun _ sh =>
        (.ok (), { sh with dispatcher := sh.dispatcher.push task }) :=
  congrFun (execute_bind _ _) sh

theorem execute_submit (task : Task) (sh : Shared) :
    execute now host (submit engine client task) sh =
      let d := sh.dispatcher
      if d.closed then (.ok (), sh)
      else if d.active < d.maxConcurrency then execute now host (run engine client d task) sh
      else
        Program.andThen (execute now host
          (if (d.capacity : Int) ≤ d.queueLength then dropOldest d else pure ()) sh) fun _ sh =>
          (.ok (), { sh with dispatcher := sh.dispatcher.push task }) := by
  simp only [← execute_push]
  show execute now host (ite _ _ _) sh = _
  split
  · rfl
  · split
    · rfl
    · split <;> rfl

theorem pushed_within (s : EventLoop) (k : TaskId) (sh : Shared) :
    ((.ok (), { sh with dispatcher := (s.dispatcher.map tasks).push (tasks k) }) :
      Except Value Unit × Shared) = (.ok (), sh.within tasks (s.push k)) := by
  rw [← AsyncDispatcher.map_push]
  rfl

/-- **A call of `submit` makes the step of the loop.** -/
theorem submit_follows (hstep : s.submit k now = some t) (sh : Shared) :
    Follows now host engine client tasks (submit engine client (tasks k)) (sh.within tasks s) s t
      (sh.within tasks t) := by
  rw [Follows, execute_submit]
  simp only [Shared.within, AsyncDispatcher.map_closed, AsyncDispatcher.map_active,
    AsyncDispatcher.map_maxConcurrency, AsyncDispatcher.map_capacity,
    AsyncDispatcher.map_queueLength]
  unfold EventLoop.submit at hstep
  split at hstep
  · cases hstep
  · dsimp only at hstep
    split at hstep
    · rename_i hclosed
      cases hstep
      rw [if_pos hclosed]
      exact Or.inl ⟨rfl, rfl⟩
    · rename_i hopen
      rw [if_neg hopen]
      split at hstep
      · rename_i hfree
        cases hstep
        rw [if_pos hfree]
        exact Or.inr ⟨.task k, rfl, rfl⟩
      · rename_i hbusy
        rw [if_neg hbusy]
        split at hstep
        · rename_i hfull
          rw [if_pos hfull, execute_dropOldest, AsyncDispatcher.map_logDue,
            ← AsyncDispatcher.map_dropOldest]
          split at hstep
          · rename_i hdue
            cases hstep
            rw [if_pos hdue]
            exact Or.inr ⟨.logger k, rfl, (execute_push (tasks k) _ _).symm⟩
          · rename_i hquiet
            cases hstep
            rw [if_neg hquiet]
            exact Or.inl ⟨rfl, pushed_within (s.dropOldest now) k sh⟩
        · rename_i hroom
          cases hstep
          rw [if_neg hroom]
          exact Or.inl ⟨rfl, pushed_within _ k sh⟩

/-- **The logger of a `submit`**, when it has returned or thrown: the loop steps with it. -/
theorem logger_follows {stack : List Frame} {dropped : Nat} {r : Except Value Unit}
    (hstack : s.stack = .logger k :: stack)
    (hline : execute now host (Logger.warn (dropLine dropped)) sh₀ = (r, sh.within tasks s)) :
    match r with
    | .ok _ => ∃ t, s.step .hostReturn = some t ∧
        execute now host (resume engine client tasks dropped (.logger k)) sh₀ =
          (.ok (), sh.within tasks t)
    | .error e => ∃ t, s.step .hostThrow = some t ∧
        execute now host (resume engine client tasks dropped (.logger k)) sh₀ =
          (.error e, sh.within tasks t) := by
  have hresume : execute now host (resume engine client tasks dropped (.logger k)) sh₀ =
      Program.andThen (r, sh.within tasks s) fun _ sh =>
        (.ok (), { sh with dispatcher := sh.dispatcher.push (tasks k) }) := by
    rw [← hline]
    exact execute_push (tasks k) _ sh₀
  cases r with
  | ok _ =>
    refine ⟨({ s with stack := stack } : EventLoop).push k, ?_, ?_⟩
    · rw [EventLoop.step, EventLoop.hostReturn, hstack]
    · rw [hresume]
      exact pushed_within { s with stack := stack } k sh
  | error e =>
    refine ⟨{ s with stack := stack, refused := s.refused ++ [k] }, ?_, hresume⟩
    rw [EventLoop.step, EventLoop.hostThrow, hstack]

/-! ## The call -/

/-- The title is read and the line is logged before the submit. -/
def announce (engine : Engine) (input : Value) : Js Shared Unit := do
  let title ← if input.truthy then getProp input "title" else pure input
  let text ← toText engine title
  Logger.debug (js "[oppex-sdk] Incident queued for async delivery: " ++ text)

theorem execute_sendIncidentAsync (input callbacks : Value) {sh : Shared}
    (hopen : sh.closed = false) :
    execute now host (sendIncidentAsync engine client input callbacks) sh =
      Program.andThen (execute now host (announce engine input) sh) fun _ =>
        execute now host (submit engine client ⟨input, callbacksOr callbacks⟩) := by
  show execute now host (ite _ _ _) sh = _
  rw [if_neg (by rw [hopen]; exact Bool.false_ne_true)]
  unfold announce
  split <;> simp only [execute_bind, Program.andThen_assoc]

/-- **A call on an open client** submits the task of its input and callbacks, and no other. -/
theorem sendIncidentAsync_follows {input callbacks : Value} (hopen : sh₀.closed = false)
    (hannounce : execute now host (announce engine input) sh₀ = (.ok (), sh.within tasks s))
    (htask : tasks k = ⟨input, callbacksOr callbacks⟩) (hstep : s.step (.submit k now) = some t) :
    Follows now host engine client tasks (sendIncidentAsync engine client input callbacks) sh₀ s t
      (sh.within tasks t) := by
  rw [Follows, execute_sendIncidentAsync input callbacks hopen, hannounce, ← htask]
  exact submit_follows hstep sh

end

/-- The task of a call without arguments, whatever its name. -/
def noArguments (_ : TaskId) : Task := ⟨.undefined, .record []⟩

/-- The client is new and logs to the console. -/
def openShared : Shared := ⟨.record [], false, (EventLoop.new .smallest).dispatcher.map noArguments⟩

/-- The first call finds a free slot. -/
theorem sendIncidentAsync_follows_first : ∃ t,
    (EventLoop.new .smallest).step (.submit 0 1) = some t ∧ t.stack = [.task 0] ∧
      Follows 1 (fun q sh => (bareHost q, sh)) bareEngine bareClient noArguments
        (sendIncidentAsync bareEngine bareClient .undefined .undefined) openShared
        (.new .smallest) t (openShared.within noArguments t) :=
  ⟨_, rfl, rfl, sendIncidentAsync_follows rfl rfl rfl rfl⟩

end OppexSdk.Node
