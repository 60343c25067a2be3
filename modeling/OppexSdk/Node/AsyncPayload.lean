import OppexSdk.Node.DispatcherRefinement
import OppexSdk.Node.Questions

/-! # What a queued incident reports

The task of `sendIncidentAsync` builds its request when the dispatcher calls it. In every run of
the dispatcher, with the world at every step as the host has left it, the payload of a task is the
one that `sendIncident` would have serialized in the world in which the task is started: the world
of the call when a slot is free, and that of the completion callback which takes it from the queue
otherwise. -/
namespace OppexSdk.Node
open OppexSdk.Lib.Interaction OppexSdk.Lib.JavaScript OppexSdk.Lib.Transition

/-! ## Requests on the wire -/

def sentBody : Query Shared → Option JsString
  | .send _ _ body => some body
  | _ => none

/-- The question is not a request. -/
def Silent (q : Query Shared) : Prop := sentBody q = none

/-- The question is not a request with another body. -/
def Sends (body : JsString) (q : Query Shared) : Prop := Silent q ∨ sentBody q = some body

section
variable {α : Type} {m : Js Shared α}

theorem silent_of_ordinary (h : Asks Ordinary m) : Asks Silent m := by
  refine h.mono ?_
  intro q hq
  cases q with
  | send url headers body => exact hq.elim
  | _ => rfl

theorem sends_of_silent {body : JsString} (h : Asks Silent m) : Asks (Sends body) m :=
  h.mono fun _ hq => .inl hq

theorem sends_of_ordinary {body : JsString} (h : Asks Ordinary m) : Asks (Sends body) m :=
  sends_of_silent (silent_of_ordinary h)

end

section
variable (engine : Engine) (client : IncidentClient) (request : IncidentRequest)

theorem asks_attemptDelivery :
    Asks (Sends (payload engine client request)) (attemptDelivery engine client request) := by
  have hsend : Asks (Sends (payload engine client request))
      (sendRequest endpointUrl (payload engine client request) (headers client)) := by
    refine ⟨.inr rfl, ?_⟩
    intro r
    cases r <;> trivial
  refine Asks.bind (hsend.tryCatch ?_) fun response =>
    Asks.ite (asks_throw _) (asks_pure _)
  intro err
  exact (sends_of_ordinary (ordinary_describeError engine err)).bind fun _ =>
    asks_throw _

theorem ordinary_isRetryableError (err : Value) : Asks Ordinary (isRetryableError err) :=
  (ordinary_isDeliveryFailure err).bind fun _ =>
    Asks.ite ((ordinary_getProp err).bind fun _ => asks_pure _) (asks_pure _)

theorem ordinary_withAttemptCount (err : Value) (attempts : Nat) :
    Asks Ordinary (withAttemptCountIfNetworkFailure engine err attempts) := by
  refine Asks.ite (asks_pure _) ((ordinary_getProp err).bind ?_)
  intro _
  refine Asks.ite (asks_pure _) ((ordinary_getProp err).bind ?_)
  intro _
  refine Asks.ite (asks_pure _) ((ordinary_spread err).bind ?_)
  intro _
  exact (ordinary_getProp err).bind fun _ => (ordinary_toText engine _).bind
    fun _ => asks_pure _

/-- The retries ask what the operation asks. -/
theorem asks_executeWithRetry {α : Type} {body : JsString} {operation : Js Shared α}
    (h : Asks (Sends body) operation) (attempt : Nat) (delays : List Nat) :
    Asks (Sends body) (executeWithRetry engine operation isRetryableError attempt delays) := by
  have hretryable (err : Value) : Asks (Sends body) (isRetryableError err) :=
    sends_of_ordinary (ordinary_isRetryableError err)
  induction delays generalizing attempt with
  | nil =>
    refine h.tryCatch fun err => (hretryable err).bind fun _ => Asks.ite (asks_throw _) ?_
    exact (sends_of_ordinary (ordinary_withAttemptCount engine err _)).bind
      fun _ => asks_throw _
  | cons delay delays ih =>
    refine h.tryCatch fun err => (hretryable err).bind fun _ => Asks.ite (asks_throw _) ?_
    exact ⟨.inl rfl, fun _ => ih (attempt + 1)⟩

theorem asks_deliver :
    Asks (Sends (payload engine client request)) (deliver engine client request) := by
  have hretry := asks_executeWithRetry engine (asks_attemptDelivery engine client request) 0
    retryDelaysMs
  refine hretry.tryCatch ?_
  intro err
  have hhandler : Asks Ordinary (do
      if ← isDeliveryFailure err then
        let code ← getProp err "code"
        let message ← getProp err "message"
        return failedResponse code message
      else .throw err : Js Shared IncidentResponse) := by
    refine (ordinary_isDeliveryFailure err).bind fun _ => Asks.ite ?_ (asks_throw _)
    exact (ordinary_getProp err).bind fun _ =>
      (ordinary_getProp err).bind fun _ => asks_pure _
  exact sends_of_ordinary hhandler

/-- The callbacks may be read and called, but the SDK sends nothing there. -/
theorem silent_invoke (callbacks : Value) (name : String) (arg : Value) :
    Asks Silent (invoke engine callbacks name arg) := by
  have hobserve : Asks Silent (observe callbacks name arg) := by
    refine (asks_getProp callbacks fun _ => rfl).bind fun fn => Asks.ite (asks_pure _) ?_
    exact (silent_of_ordinary (ordinary_callValue fn _)).map _
  refine hobserve.tryCatch ?_
  intro err
  exact (silent_of_ordinary (ordinary_logMessage engine err)).bind fun _ =>
    silent_of_ordinary (ordinary_log .warn _)

theorem silent_logAndInvokeOnError (level : Level) (callbacks err : Value) :
    Asks Silent (logAndInvokeOnError engine level callbacks err) :=
  (silent_of_ordinary (ordinary_logMessage engine err)).bind fun _ =>
    (silent_of_ordinary (ordinary_log level _)).bind fun _ =>
      silent_invoke engine callbacks "onError" err

theorem asks_deliverAsync (callbacks : Value) :
    Asks (Sends (payload engine client request))
      (deliverAsync engine client request callbacks) := by
  refine (asks_deliver engine client request).bind fun response => Asks.ite ?_ ?_
  · exact (sends_of_ordinary (ordinary_logCreated engine "async" request response)).bind
      fun _ => sends_of_silent (silent_invoke engine callbacks "onSuccess" _)
  · refine (sends_of_ordinary (ordinary_newError engine _ _)).bind ?_
    intro err
    exact (sends_of_ordinary (ordinary_logMessage engine err)).bind fun _ =>
      (sends_of_ordinary (ordinary_log .error _)).bind fun _ =>
        sends_of_silent (silent_invoke engine callbacks "onError" _)

theorem asks_deliverSync :
    Asks (Sends (payload engine client request)) (deliverSync engine client request) :=
  (asks_deliver engine client request).bind fun response =>
    (sends_of_ordinary (ordinary_logCreated engine "sync" request response)).bind
      fun _ => asks_pure _

end

/-! ## The world of a call -/

/-- The host as a machine with a state: objects and their getters, the clock, the network, and the
shared fields of the client. What happens while the SDK waits is part of the answer. -/
structure Machine (ω : Type) where
  handler : (q : (hostSignature Shared).Query) → ω → (hostSignature Shared).Answer q × ω
  fields : ω → Shared
  /-- Looking at a field changes nothing. -/
  read : ∀ w, handler (.read : Query Shared) w = (fields w, w)

namespace Machine
variable {ω α : Type} (machine : Machine ω)

/-- The bodies of the requests, in the order in which they are sent. -/
def sent (m : Js Shared α) (w : ω) : List JsString :=
  (m.asked machine.handler w).filterMap sentBody

/-- The payload of the input as it is in this world. -/
def serialized (engine : Engine) (client : IncidentClient) (input : Value) (w : ω) :
    Option JsString :=
  match ((buildIncidentRequest engine input).run machine.handler w).1 with
  | .ok request => some (payload engine client request)
  | .error _ => none

/-- The program, run in this world, sends this payload and no other; without a payload it sends
nothing. -/
structure Posts (m : Js Shared α) (w : ω) (body : Option JsString) : Prop where
  only : ∀ b ∈ machine.sent m w, body = some b
  none_iff : machine.sent m w = [] ↔ body = none

variable {machine}

theorem posts_none {m : Js Shared α} (h : Asks Silent m) (w : ω) : machine.Posts m w none := by
  have hnil : machine.sent m w = [] := by
    apply List.filterMap_eq_nil_iff.mpr
    exact h.asked w
  refine ⟨?_, iff_of_true hnil rfl⟩
  intro b hb
  rw [hnil] at hb
  cases hb

/-- A program that begins with a request and sends no other body. -/
theorem posts_some {m : Js Shared α} {body : JsString} (h : Asks (Sends body) m)
    (hfirst : ∃ url headers k, m = .ask (.send url headers body : Query Shared) k) (w : ω) :
    machine.Posts m w (some body) := by
  refine ⟨?_, iff_of_false ?_ nofun⟩
  · intro b hb
    obtain ⟨q, hq, hbody⟩ := List.mem_filterMap.mp hb
    rcases h.asked w q hq with hsilent | hsends
    · rw [Silent, hbody] at hsilent
      cases hsilent
    · exact hsends.symm.trans hbody
  · obtain ⟨url, headers, k, rfl⟩ := hfirst
    exact List.cons_ne_nil _ _

/-- Building the request sends nothing, so what is sent is what the rest sends, in the world that
reading the input leaves. -/
theorem sent_build {engine : Engine} {input : Value}
    (rest : Except Value IncidentRequest → Js Shared α) (w : ω) :
    machine.sent ((buildIncidentRequest engine input).attempt >>= rest) w =
      machine.sent (rest ((buildIncidentRequest engine input).run machine.handler w).1)
        ((buildIncidentRequest engine input).run machine.handler w).2 := by
  have hbuild : (((buildIncidentRequest engine input).asked machine.handler w).filterMap
      sentBody) = [] := by
    apply List.filterMap_eq_nil_iff.mpr
    exact (silent_of_ordinary (ordinary_buildIncidentRequest engine input)).asked w
  unfold sent
  rw [asked_bind, asked_attempt, run_attempt]
  exact (List.filterMap_append ..).trans (by rw [hbuild, List.nil_append])

/-- A call that builds the request and, if that returns, sends its payload. -/
theorem posts_build {engine : Engine} {client : IncidentClient} {input : Value}
    {rest : Except Value IncidentRequest → Js Shared α}
    (herror : ∀ err, Asks Silent (rest (.error err)))
    (hok : ∀ request, Asks (Sends (payload engine client request)) (rest (.ok request)))
    (hfirst : ∀ request, ∃ url headers k, rest (.ok request) =
      .ask (.send url headers (payload engine client request) : Query Shared) k) (w : ω) :
    machine.Posts ((buildIncidentRequest engine input).attempt >>= rest) w
      (machine.serialized engine client input w) := by
  have hposts : machine.Posts
      (rest ((buildIncidentRequest engine input).run machine.handler w).1)
      ((buildIncidentRequest engine input).run machine.handler w).2
      (machine.serialized engine client input w) := by
    unfold serialized
    cases ((buildIncidentRequest engine input).run machine.handler w).1 with
    | error err => exact posts_none (herror err) _
    | ok request => exact posts_some (hok request) (hfirst request) _
  refine ⟨?_, ?_⟩
  · rw [sent_build]
    exact hposts.only
  · rw [sent_build]
    exact hposts.none_iff

variable {engine : Engine} {client : IncidentClient}

theorem posts_runTask (task : Task) (w : ω) :
    machine.Posts (runTask engine client task) w
      (machine.serialized engine client task.input w) := by
  refine posts_build ?_ ?_ ?_ w
  · intro err
    exact silent_logAndInvokeOnError engine .warn task.callbacks err
  · intro request
    exact (asks_deliverAsync engine client request task.callbacks).tryCatch fun err =>
      sends_of_silent (silent_logAndInvokeOnError engine .error task.callbacks err)
  · intro request
    exact ⟨_, _, _, rfl⟩

/-- The first thing the call asks is whether the client is closed. -/
theorem posts_shared {rest : Shared → Js Shared α} {w : ω} {body : Option JsString}
    (h : machine.Posts (rest (machine.fields w)) w body) :
    machine.Posts (shared >>= rest) w body := by
  have hsent : machine.sent (shared >>= rest) w = machine.sent (rest (machine.fields w)) w := by
    show (Program.asked machine.handler (rest (machine.handler (.read : Query Shared) w).1)
      (machine.handler (.read : Query Shared) w).2).filterMap sentBody = _
    rw [machine.read]
    rfl
  exact ⟨hsent ▸ h.only, hsent ▸ h.none_iff⟩

theorem posts_sendIncident {input : Value} {w : ω} (hopen : (machine.fields w).closed = false) :
    machine.Posts (sendIncident engine client input) w
      (machine.serialized engine client input w) := by
  refine posts_shared ?_
  rw [hopen]
  refine posts_build ?_ ?_ ?_ w
  · intro err
    exact silent_of_ordinary (ordinary_reportFailure engine .warn err)
  · intro request
    exact (asks_deliverSync engine client request).tryCatch fun err =>
      sends_of_ordinary (ordinary_reportFailure engine .error err)
  · intro request
    exact ⟨_, _, _, rfl⟩

end Machine

/-! ## The step that starts a task -/

/-- The step of the event loop that calls the task: its own `submit`, or the completion callback
that finds it at the head of the queue. -/
inductive StartedBy (s : EventLoop) : LoopLabel → TaskId → Prop
  | call {k : TaskId} (now : Nat) : s.dispatcher.closed = false →
      s.dispatcher.active < s.dispatcher.maxConcurrency → StartedBy s (.submit k now) k
  | completion {j k : TaskId} {rest : List TaskId} : s.dispatcher.contents = k :: rest →
      StartedBy s (.callback j) k

theorem startedBy_of_moves {s : EventLoop} {b : Scheduler} {l : LoopLabel} {k : TaskId}
    (hmove : s.scheduler.Moves l b) (hbefore : k ∉ s.started) (hafter : k ∈ b.started) :
    StartedBy s l k := by
  have hnew {j : TaskId} (hj : k ∈ s.started ++ [j]) : k = j := by
    rcases List.mem_append.mp hj with hk | hk
    · exact absurd hk hbefore
    · exact List.mem_singleton.mp hk
  cases hmove with
  | start now _ hopen hfree =>
    cases hnew hafter
    exact .call now hopen hfree
  | next _ _ _ htasks =>
    cases hnew hafter
    exact .completion htasks
  | _ => exact absurd hafter hbefore

/-- **A task reports what is true when it starts.** For every run of the dispatcher, with the world
that the host has made at each step, every task that was started has the step that started it, and
posts what `sendIncident` with the same input would post in the world of that step. -/
theorem payload_as_of_the_start {ω : Type} (machine : Machine ω) (engine : Engine)
    (client : IncidentClient) (tasks : TaskId → Task) {cfg : DispatcherConfig}
    {history : List (LoopLabel × ω)} {s : EventLoop}
    (h : Run EventLoop.step anyStep (.new cfg) (history.map Prod.fst) s) {k : TaskId}
    (hk : k ∈ s.started) :
    ∃ before l w after u, history = before ++ (l, w) :: after ∧
      Run EventLoop.step anyStep (.new cfg) (before.map Prod.fst) u ∧ StartedBy u l k ∧
      machine.Posts (runTask engine client (tasks k)) w
        (machine.serialized engine client (tasks k).input w) ∧
      ((machine.fields w).closed = false →
        machine.Posts (sendIncident engine client (tasks k).input) w
          (machine.serialized engine client (tasks k).input w)) := by
  have hnone : ¬ k ∈ (EventLoop.new cfg).started := List.not_mem_nil
  obtain ⟨before, l, after, u, v, hlabels, hbefore, hout, hstep, hin⟩ :=
    h.arises (p := fun s => k ∈ s.started) hnone hk
  obtain ⟨before, rest, rfl, rfl, hrest⟩ := List.map_eq_append_iff.mp hlabels
  obtain ⟨⟨l, w⟩, after, rfl, rfl, rfl⟩ := List.map_eq_cons_iff.mp hrest
  have hmove := (step_refines (run_refines hbefore).1 hstep).2
  exact ⟨before, l, w, after, u, rfl, hbefore, startedBy_of_moves hmove hout hin,
    Machine.posts_runTask (tasks k) w, Machine.posts_sendIncident⟩

/-! ## A title that is changed while the task is queued -/

/-- The world is whether the caller has changed the title of its object. -/
def retitled : Machine Bool where
  handler := fun (q : Query Shared) (renamed : Bool) => match q with
    | .get _ key =>
      (.ok (if key = "title" then .string (js (if renamed then "after" else "before"))
        else if key = "source" then .string (js "node") else .undefined), renamed)
    | .has .. | .isError _ => (.ok false, renamed)
    | .toText _ => (.ok (js "[object Object]"), renamed)
    | .toNumber _ => (.ok .nan, renamed)
    | .call .. => (.ok .undefined, renamed)
    | .spread _ => (.ok [], renamed)
    | .console .. => (.ok (), renamed)
    | .now => ((1 : Nat), renamed)
    | .sleep _ | .write _ => ((), renamed)
    | .send .. => (.ok (201, []), renamed)
    | .read => (⟨.record [], false, ⟨1, 1, 0, false, [], 0, ⟨60000, 0, 0⟩⟩⟩, renamed)
  fields _ := ⟨.record [], false, ⟨1, 1, 0, false, [], 0, ⟨60000, 0, 0⟩⟩⟩
  read _ := rfl

/-- An engine whose texts are the titles. -/
def titleEngine : Engine where
  numberText _ := js "0"
  textNumber _ := .nan
  parse _ := none
  stringify fields := match Value.own fields "title" with
    | .string s => s
    | _ => []

def titledTask (_ : TaskId) : Task := ⟨.object 0 false, .record []⟩

def reporter : IncidentClient := ⟨js "key", none⟩

/-- The second task is queued, the title is changed, and the first task completes. -/
def lateStart : List (LoopLabel × Bool) :=
  [(.submit 0 0, false), (.hostReturn, false), (.submit 1 0, false), (.settle 0, true),
    (.callback 0, true)]

theorem payload_as_of_the_start_queued : ∃ before l w after u,
    lateStart = before ++ (l, w) :: after ∧
      Run EventLoop.step anyStep (.new .smallest) (before.map Prod.fst) u ∧ StartedBy u l 1 ∧
      retitled.Posts (runTask titleEngine reporter (titledTask 1)) w
        (retitled.serialized titleEngine reporter (titledTask 1).input w) ∧
      ((retitled.fields w).closed = false →
        retitled.Posts (sendIncident titleEngine reporter (titledTask 1).input) w
          (retitled.serialized titleEngine reporter (titledTask 1).input w)) := by
  obtain ⟨s, hrun, hs⟩ := exists_run_of_exec EventLoop.step anyStep (.new .smallest)
    (lateStart.map Prod.fst) (fun s => 1 ∈ s.started) rfl
  exact payload_as_of_the_start retitled titleEngine reporter titledTask hrun
    (of_decide_eq_true hs)

/-- The call finds the title `before`; the task is started with the title `after` and sends it. -/
theorem queued_task_sees_the_mutation :
    (∃ s, Run EventLoop.step anyStep (.new .smallest) (lateStart.map Prod.fst) s ∧
      s.dequeued = [1]) ∧
      lateStart[2]? = some (.submit 1 0, false) ∧ lateStart[4]? = some (.callback 0, true) ∧
      retitled.serialized titleEngine reporter (titledTask 1).input false = some (js "before") ∧
      retitled.sent (runTask titleEngine reporter (titledTask 1)) true = [js "after"] ∧
      js "before" ≠ js "after" := by
  refine ⟨?_, rfl, rfl, ?_, ?_, ?_⟩
  · obtain ⟨s, hrun, hs⟩ := exists_run_of_exec EventLoop.step anyStep (.new .smallest)
      (lateStart.map Prod.fst) (fun s => s.dequeued = [1]) rfl
    exact ⟨s, hrun, of_decide_eq_true hs⟩
  · decide +kernel
  · decide +kernel
  · decide +kernel

end OppexSdk.Node
