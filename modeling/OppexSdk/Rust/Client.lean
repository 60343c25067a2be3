import OppexSdk.Rust.DispatcherSafety
import OppexSdk.Rust.Wire

/-! # The Rust client

`rust/src/client.rs` with the parts it puts together: the wire codec, the retry loop, the
interrupt and the dispatcher. Any number of threads call the four post methods and `close`; a
step is what one thread does between two points at which another can interfere. The loop of
`execute_with_retry` is here spread over the steps of a delivery, since `close` may signal the
interrupt anywhere in it.

A call's number also names the delivery it makes and the task it submits. -/
namespace OppexSdk.Rust.Client
open OppexSdk.Lib OppexSdk.Lib.Transition OppexSdk.Rust.Dispatcher
open OppexSdk.Rust.Transport (trimIsEmpty Attempt IncidentResponse)
open OppexSdk.Rust.Retry (Duration defaultRetryDelays withAttemptCount interruptedFailure)

/-! ## Configuration -/

/-- The fields of `Transport` but its agent. -/
structure Transport where
  apiKey : String
  endpoint : String

def defaultEndpoint : String := "https://api.oppex.ai/api/v1/incident/post"

/-- `endpoint()`, with what the environment holds in `OPPEX_TEST_ENDPOINT_URL`. -/
def endpoint (env : Option String) : String :=
  (env.filter fun url => !url.isEmpty).getD defaultEndpoint

/-- `Inner`; its interrupt is among the client's shared state below. -/
structure Inner where
  serviceKey : Option String
  transport : Transport
  retryDelays : List Duration

structure IncidentClientBuilder where
  apiKey : Option String
  serviceKey : Option String
  endpoint : Option String
  retryDelays : Option (List Duration)

/-- `WORKER_COUNT` and `QUEUE_CAPACITY`. -/
def dispatcherConfig : Config := ⟨2, 5000, by decide, by decide⟩

/-! ## Calls and deliveries -/

inductive Method
  | post
  | postWithServiceRouting
  | postAsync
  | postAsyncWithServiceRouting
  deriving DecidableEq

namespace Method

def routed : Method → Bool
  | post | postAsync => false
  | postWithServiceRouting | postAsyncWithServiceRouting => true

def queued : Method → Bool
  | post | postWithServiceRouting => false
  | postAsync | postAsyncWithServiceRouting => true

end Method

/-- A call of a post method. Its request came out of a builder, as every request does. -/
structure Call (κ : Type) where
  method : Method
  builder : IncidentRequestBuilder
  clock : Option Nat
  request : IncidentRequest
  built : builder.build (κ := κ) clock = .ok request

/-- A call with the least a builder accepts. -/
def Call.outage (method : Method) : Call Unit where
  method := method
  builder := { IncidentRequestBuilder.default with
    title := some "outage"
    source := some "api"
    severity := some .high
    srcTimestamp := some 1700000000000 }
  clock := none
  request := ⟨none, "outage", "api", .high, 1, 1700000000000, none, none, none, none⟩
  built := rfl

/-- The arguments of `Inner::deliver`; for a queued call, what the closure captured. -/
structure Arguments where
  request : IncidentRequest
  defaultServiceKey : Option String

/-- `request.service_key().or(default_service_key)`. -/
def Arguments.serviceKey (args : Arguments) : Option String :=
  args.request.serviceKey.or args.defaultServiceKey

def Arguments.payload (render : String → Bytes) (args : Arguments) : Bytes :=
  Wire.serializeRequest render args.request args.serviceKey

inductive CallPc (κ : Type)
  | outside
  /-- Inside `Inner::deliver`, on the calling thread. -/
  | delivering (call : Call κ)
  /-- Inside `AsyncDispatcher::submit`, the closure boxed. -/
  | submitting (call : Call κ)
  | returned (call : Call κ) (result : Except (IncidentError κ) (Option IncidentResponse))
  /-- A panic of the transport went through the call. -/
  | unwound (call : Call κ)

namespace CallPc
variable {κ : Type}

def call : CallPc κ → Option (Call κ)
  | .outside => none
  | .delivering call | .submitting call | .returned call _ | .unwound call => some call

def isDelivering : CallPc κ → Bool
  | .delivering _ => true
  | _ => false

def isSubmitting : CallPc κ → Bool
  | .submitting _ => true
  | _ => false

end CallPc

/-- Where `Inner::deliver` is, with its payload and the variable `attempt` of the loop. -/
inductive DeliveryPc (κ : Type)
  | outside
  /-- At the head of the loop, `operation()` still to be called. -/
  | calling (payload : Bytes) (attempt : Nat)
  /-- In `Transport::send`. -/
  | sending (payload : Bytes) (attempt : Nat)
  /-- In `Interrupt::wait`. -/
  | waiting (payload : Bytes) (attempt : Nat)
  | returned (result : Except (IncidentError κ) IncidentResponse)
  | panicked

namespace DeliveryPc
variable {κ : Type}

def hasReturned : DeliveryPc κ → Bool
  | .returned _ => true
  | _ => false

def hasPanicked : DeliveryPc κ → Bool
  | .panicked => true
  | _ => false

end DeliveryPc

inductive ClosePc
  | outside
  /-- The swap found the client open; the signal is still to come. -/
  | swapped
  /-- Signalled: `dispatcher.close` is called next, or has been. -/
  | signalled
  /-- The swap found the client closed. -/
  | returned
  deriving DecidableEq

/-- The client, where every call and delivery is, and what was handed to `Transport::send`, each
payload with the number of its delivery, in the order of the attempts. -/
structure IncidentClient (cfg : Config) (κ : Type) where
  inner : Inner
  dispatcher : AsyncDispatcher cfg
  closed : Bool
  /-- The flag of the interrupt. -/
  signalled : Bool
  calls : Nat → CallPc κ
  closes : Nat → ClosePc
  /-- What a call that passed its checks goes on to deliver. -/
  arguments : Nat → Option Arguments
  deliveries : Nat → DeliveryPc κ
  sent : List (Nat × Bytes)

variable {cfg : Config} {κ : Type}

def IncidentClient.new (cfg : Config) (inner : Inner) : IncidentClient cfg κ where
  inner := inner
  dispatcher := Dispatcher.new cfg
  closed := false
  signalled := false
  calls := fun _ => .outside
  closes := fun _ => .outside
  arguments := fun _ => none
  deliveries := fun _ => .outside
  sent := []

def IncidentClientBuilder.build (self : IncidentClientBuilder) (env : Option String) :
    Except (IncidentError κ) (IncidentClient dispatcherConfig κ) :=
  match self.apiKey with
  | some apiKey =>
    if !trimIsEmpty apiKey then
      .ok (.new dispatcherConfig
        { serviceKey := self.serviceKey.filter fun key => !trimIsEmpty key
          transport := ⟨apiKey, self.endpoint.getD (Client.endpoint env)⟩
          retryDelays := self.retryDelays.getD defaultRetryDelays })
    else .error (.invalid "apiKey must not be blank")
  | none => .error (.invalid "apiKey must be set")

/-! ## The post methods

Each of them up to the call of `Inner::deliver` or of `submit`. -/

section
variable (inner : Inner) (closed : Bool)

def ensureOpen : Except (IncidentError κ) Unit :=
  if closed then .error .clientClosed else .ok ()

def requireServiceKey (request : IncidentRequest) : Except (IncidentError κ) Unit :=
  if inner.serviceKey.isNone && request.serviceKey.isNone then
    .error (.invalid ("no serviceKey is configured on the client or the request; " ++
      "supply one or use post_with_service_routing"))
  else .ok ()

def requireServiceRoutable (request : IncidentRequest) : Except (IncidentError κ) Unit :=
  if request.serviceKey.isSome then
    .error (.invalid "request must not carry a serviceKey when service routing is used")
  else .ok ()

def post (request : IncidentRequest) : Except (IncidentError κ) Arguments := do
  ensureOpen closed
  requireServiceKey inner request
  return ⟨request, inner.serviceKey⟩

def postWithServiceRouting (request : IncidentRequest) : Except (IncidentError κ) Arguments := do
  ensureOpen closed
  requireServiceRoutable request
  return ⟨request, none⟩

def postAsync (request : IncidentRequest) : Except (IncidentError κ) Arguments := do
  ensureOpen closed
  requireServiceKey inner request
  let serviceKey := inner.serviceKey
  return ⟨request, serviceKey⟩

def postAsyncWithServiceRouting (request : IncidentRequest) :
    Except (IncidentError κ) Arguments := do
  ensureOpen closed
  requireServiceRoutable request
  return ⟨request, none⟩

def Call.enter (call : Call κ) : Except (IncidentError κ) Arguments :=
  match call.method with
  | .post => post inner closed call.request
  | .postWithServiceRouting => postWithServiceRouting closed call.request
  | .postAsync => postAsync inner closed call.request
  | .postAsyncWithServiceRouting => postAsyncWithServiceRouting closed call.request

end

/-! ## The steps -/

namespace IncidentClient

/-- A post method is called: `ensure_open` loads the flag, the checks run. -/
def call (s : IncidentClient cfg κ) (c : Nat) (call : Call κ) : Option (IncidentClient cfg κ) :=
  match s.calls c with
  | .outside =>
    match call.enter s.inner s.closed with
    | .error e => some { s with calls := Function.update s.calls c (.returned call (.error e)) }
    | .ok args => some { s with
        calls := Function.update s.calls c
          (if call.method.queued then .submitting call else .delivering call)
        arguments := Function.update s.arguments c (some args) }
  | _ => none

/-- `deliver` or `submit` has returned, and with it the call. -/
def callReturn (s : IncidentClient cfg κ) (c : Nat) : Option (IncidentClient cfg κ) :=
  match s.calls c with
  | .delivering call =>
    match s.deliveries c with
    | .returned result =>
      some { s with calls := Function.update s.calls c (.returned call (result.map some)) }
    | .panicked => some { s with calls := Function.update s.calls c (.unwound call) }
    | _ => none
  | .submitting call =>
    match s.dispatcher.submits c with
    | .returned accepted =>
      let result := if accepted then .ok none else .error .clientClosed
      some { s with calls := Function.update s.calls c (.returned call result) }
    | _ => none
  | _ => none

/-- A worker has popped the task and is executing it. -/
def executes (s : IncidentClient cfg κ) (d : Nat) : Bool :=
  decide (∃ w, s.dispatcher.workers w = .running d)

/-- `deliver` is entered, by the caller or by a worker, and the payload serialized. -/
def begin (render : String → Bytes) (s : IncidentClient cfg κ) (d : Nat) :
    Option (IncidentClient cfg κ) :=
  match s.deliveries d, s.arguments d with
  | .outside, some args =>
    if (s.calls d).isDelivering || s.executes d then
      some { s with
        deliveries := Function.update s.deliveries d (.calling (args.payload render) 0) }
    else none
  | _, _ => none

/-- `operation()` is called: the payload is handed to `Transport::send`. -/
def attempt (s : IncidentClient cfg κ) (d : Nat) : Option (IncidentClient cfg κ) :=
  match s.deliveries d with
  | .calling payload attempt =>
    some { s with
      deliveries := Function.update s.deliveries d (.sending payload attempt)
      sent := s.sent ++ [(d, payload)] }
  | _ => none

/-- `Transport::send` returns what it makes of the network, or panics. -/
def complete (fromStr : String → Except κ Transport.Value) (s : IncidentClient cfg κ) (d : Nat)
    (network : Option (Attempt κ)) : Option (IncidentClient cfg κ) :=
  match s.deliveries d with
  | .sending payload attempt =>
    let pc := match network with
      | none => .panicked
      | some network =>
        match Transport.send fromStr network with
        | .ok value => .returned (.ok value)
        | .error failure =>
          if !failure.isRetryable || attempt ≥ s.inner.retryDelays.length then
            .returned (.error (withAttemptCount failure (attempt + 1)))
          else .waiting payload attempt
    some { s with deliveries := Function.update s.deliveries d pc }
  | _ => none

/-- `Interrupt::wait` returns the flag, because it is set or because the delay has elapsed. -/
def wait (s : IncidentClient cfg κ) (d : Nat) (elapsed : Bool) : Option (IncidentClient cfg κ) :=
  match s.deliveries d with
  | .waiting payload attempt =>
    if s.signalled then
      let result := .error (.delivery interruptedFailure)
      some { s with deliveries := Function.update s.deliveries d (.returned result) }
    else if elapsed then
      some { s with deliveries := Function.update s.deliveries d (.calling payload (attempt + 1)) }
    else none
  | _ => none

/-- `closed.swap(true)`. -/
def close (s : IncidentClient cfg κ) (k : Nat) : Option (IncidentClient cfg κ) :=
  match s.closes k with
  | .outside => some { s with
      closed := true
      closes := Function.update s.closes k (if s.closed then .returned else .swapped) }
  | _ => none

/-- `interrupt.signal()`. -/
def signal (s : IncidentClient cfg κ) (k : Nat) : Option (IncidentClient cfg κ) :=
  match s.closes k with
  | .swapped => some { s with
      signalled := true
      closes := Function.update s.closes k .signalled }
  | _ => none

/-- Which steps of the dispatcher the client is ready for: tasks and closes come from the client,
and a worker's task ends when its delivery does. -/
def ready (s : IncidentClient cfg κ) : Dispatcher.Label cfg → Bool
  | .submit k _ => (s.calls k).isSubmitting
  | .finish w =>
    match s.dispatcher.workers w with
    | .running d => (s.deliveries d).hasReturned
    | _ => false
  | .panic w =>
    match s.dispatcher.workers w with
    | .running d => (s.deliveries d).hasPanicked
    | _ => false
  | .close k => s.closes k = .signalled
  | _ => true

def dispatch (s : IncidentClient cfg κ) (l : Dispatcher.Label cfg) :
    Option (IncidentClient cfg κ) :=
  if s.ready l then (Dispatcher.step s.dispatcher l).map fun dispatcher =>
    { s with dispatcher := dispatcher }
  else none

end IncidentClient

inductive Label (cfg : Config) (κ : Type)
  | call (c : Nat) (call : Call κ)
  | callReturn (c : Nat)
  | begin (d : Nat)
  | attempt (d : Nat)
  | complete (d : Nat) (network : Option (Attempt κ))
  | wait (d : Nat) (elapsed : Bool)
  | close (k : Nat)
  | signal (k : Nat)
  | dispatch (l : Dispatcher.Label cfg)

def step (render : String → Bytes) (fromStr : String → Except κ Transport.Value)
    (s : IncidentClient cfg κ) : Label cfg κ → Option (IncidentClient cfg κ)
  | .call c call => s.call c call
  | .callReturn c => s.callReturn c
  | .begin d => s.begin render d
  | .attempt d => s.attempt d
  | .complete d network => s.complete fromStr d network
  | .wait d elapsed => s.wait d elapsed
  | .close k => s.close k
  | .signal k => s.signal k
  | .dispatch l => s.dispatch l

/-! ## What a step does -/

section
variable {render : String → Bytes} {fromStr : String → Except κ Transport.Value}

inductive Moves (render : String → Bytes) (fromStr : String → Except κ Transport.Value) :
    IncidentClient cfg κ → Label cfg κ → IncidentClient cfg κ → Prop
  | refuse {s c call e} : s.calls c = .outside → call.enter s.inner s.closed = .error e →
      Moves render fromStr s (.call c call)
        { s with calls := Function.update s.calls c (.returned call (.error e)) }
  | enter {s c call args} : s.calls c = .outside → call.enter s.inner s.closed = .ok args →
      Moves render fromStr s (.call c call) { s with
        calls := Function.update s.calls c
          (if call.method.queued then .submitting call else .delivering call)
        arguments := Function.update s.arguments c (some args) }
  | deliverReturn {s c call result} : s.calls c = .delivering call →
      s.deliveries c = .returned result →
      Moves render fromStr s (.callReturn c)
        { s with calls := Function.update s.calls c (.returned call (result.map some)) }
  | deliverUnwind {s c call} : s.calls c = .delivering call → s.deliveries c = .panicked →
      Moves render fromStr s (.callReturn c)
        { s with calls := Function.update s.calls c (.unwound call) }
  | submitReturn {s c call accepted} : s.calls c = .submitting call →
      s.dispatcher.submits c = .returned accepted →
      Moves render fromStr s (.callReturn c) { s with
        calls := Function.update s.calls c
          (.returned call (if accepted then .ok none else .error .clientClosed)) }
  | begin {s d args} : s.deliveries d = .outside → s.arguments d = some args →
      (s.calls d).isDelivering = true ∨ s.executes d = true →
      Moves render fromStr s (.begin d) { s with
        deliveries := Function.update s.deliveries d (.calling (args.payload render) 0) }
  | attempt {s d payload i} : s.deliveries d = .calling payload i →
      Moves render fromStr s (.attempt d) { s with
        deliveries := Function.update s.deliveries d (.sending payload i)
        sent := s.sent ++ [(d, payload)] }
  | panic {s d payload i} : s.deliveries d = .sending payload i →
      Moves render fromStr s (.complete d none)
        { s with deliveries := Function.update s.deliveries d .panicked }
  | succeed {s d payload i network value} : s.deliveries d = .sending payload i →
      Transport.send fromStr network = .ok value →
      Moves render fromStr s (.complete d (some network))
        { s with deliveries := Function.update s.deliveries d (.returned (.ok value)) }
  | fail {s d payload i network failure} : s.deliveries d = .sending payload i →
      Transport.send fromStr network = .error failure →
      failure.isRetryable = false ∨ s.inner.retryDelays.length ≤ i →
      Moves render fromStr s (.complete d (some network)) { s with
        deliveries := Function.update s.deliveries d
          (.returned (.error (withAttemptCount failure (i + 1)))) }
  | retry {s d payload i network failure} : s.deliveries d = .sending payload i →
      Transport.send fromStr network = .error failure → failure.isRetryable = true →
      i < s.inner.retryDelays.length →
      Moves render fromStr s (.complete d (some network))
        { s with deliveries := Function.update s.deliveries d (.waiting payload i) }
  | interrupted {s d payload i elapsed} : s.deliveries d = .waiting payload i →
      s.signalled = true →
      Moves render fromStr s (.wait d elapsed) { s with
        deliveries := Function.update s.deliveries d
          (.returned (.error (.delivery interruptedFailure))) }
  | elapsed {s d payload i} : s.deliveries d = .waiting payload i → s.signalled = false →
      Moves render fromStr s (.wait d true)
        { s with deliveries := Function.update s.deliveries d (.calling payload (i + 1)) }
  | close {s k} : s.closes k = .outside →
      Moves render fromStr s (.close k) { s with
        closed := true
        closes := Function.update s.closes k (if s.closed then .returned else .swapped) }
  | signal {s k} : s.closes k = .swapped →
      Moves render fromStr s (.signal k) { s with
        signalled := true
        closes := Function.update s.closes k .signalled }
  | dispatch {s l dispatcher} : s.ready l = true →
      Dispatcher.step s.dispatcher l = some dispatcher →
      Moves render fromStr s (.dispatch l) { s with dispatcher := dispatcher }

variable {s t : IncidentClient cfg κ}

theorem call_moves {c : Nat} {call : Call κ} (h : s.call c call = some t) :
    Moves render fromStr s (.call c call) t := by
  unfold IncidentClient.call at h
  split at h
  · rename_i hc
    split at h
    · rename_i he
      cases h; exact .refuse hc he
    · rename_i he
      cases h; exact .enter hc he
  · cases h

theorem callReturn_moves {c : Nat} (h : s.callReturn c = some t) :
    Moves render fromStr s (.callReturn c) t := by
  unfold IncidentClient.callReturn at h
  split at h
  · rename_i hc
    split at h
    · rename_i hd
      cases h; exact .deliverReturn hc hd
    · rename_i hd
      cases h; exact .deliverUnwind hc hd
    · cases h
  · rename_i hc
    split at h
    · rename_i hd
      cases h; exact .submitReturn hc hd
    · cases h
  · cases h

theorem complete_moves {d : Nat} {network : Option (Attempt κ)}
    (h : s.complete fromStr d network = some t) :
    Moves render fromStr s (.complete d network) t := by
  unfold IncidentClient.complete at h
  split at h
  · rename_i hd
    cases network with
    | none => cases h; exact .panic hd
    | some network =>
      cases hsend : Transport.send fromStr network with
      | ok value =>
        simp only [hsend] at h
        cases h; exact .succeed hd hsend
      | error failure =>
        simp only [hsend] at h
        split at h
        · rename_i hend
          cases h; exact .fail hd hsend (by simpa using hend)
        · rename_i hgo
          simp only [Bool.or_eq_true, Bool.not_eq_true', decide_eq_true_eq, not_or,
            Bool.not_eq_false, not_le] at hgo
          cases h; exact .retry hd hsend hgo.1 hgo.2
  · cases h

theorem wait_moves {d : Nat} {elapsed : Bool} (h : s.wait d elapsed = some t) :
    Moves render fromStr s (.wait d elapsed) t := by
  unfold IncidentClient.wait at h
  split at h
  · rename_i hd
    split at h
    · rename_i hs
      cases h; exact .interrupted hd hs
    · rename_i hs
      split at h
      · rename_i he
        cases h; subst he; exact .elapsed hd (by simpa using hs)
      · cases h
  · cases h

/-- **Every enabled step of the client is one of the moves.** -/
theorem step_moves {l : Label cfg κ} (h : step render fromStr s l = some t) :
    Moves render fromStr s l t := by
  cases l with
  | call c call => exact call_moves h
  | callReturn c => exact callReturn_moves h
  | complete d network => exact complete_moves h
  | wait d elapsed => exact wait_moves h
  | begin d =>
    simp only [step, IncidentClient.begin] at h
    split at h
    · rename_i hd hargs
      split at h
      · rename_i hcall
        cases h; exact .begin hd hargs (by simpa using hcall)
      · cases h
    · cases h
  | attempt d =>
    simp only [step, IncidentClient.attempt] at h
    split at h
    · rename_i hd; cases h; exact .attempt hd
    · cases h
  | close k =>
    simp only [step, IncidentClient.close] at h
    split at h
    · rename_i hk; cases h; exact .close hk
    · cases h
  | signal k =>
    simp only [step, IncidentClient.signal] at h
    split at h
    · rename_i hk; cases h; exact .signal hk
    · cases h
  | dispatch l =>
    simp only [step, IncidentClient.dispatch] at h
    split at h
    · rename_i hready
      obtain ⟨dispatcher, hstep, rfl⟩ := Option.map_eq_some_iff.mp h
      exact .dispatch hready hstep
    · cases h

end

end OppexSdk.Rust.Client
