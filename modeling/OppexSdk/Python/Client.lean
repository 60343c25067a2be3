import OppexSdk.Python.DispatcherJoins

/-! # Closing the Python client

`IncidentClient` of `python/src/oppex_sdk/client.py` with the `Lifecycle` that guards it and the
dispatcher it owns. Any number of threads post, queue deliveries and call `close`. A step is a
critical section of the lifecycle, from one acquisition of its condition to the next `wait` or
release, or a step of the dispatcher. The checks of the request before `_post` and `_submit` touch
nothing that is shared, and are left out. -/
namespace OppexSdk.Python.Client
open OppexSdk.Lib.Transition
open OppexSdk.Python.Dispatcher (Config AsyncDispatcher)

/-! ## Lifecycle -/

structure Lifecycle where
  active : Int
  closed : Bool

namespace Lifecycle

def begin (self : Lifecycle) : Lifecycle × Bool :=
  if self.closed then (self, false) else ({ self with active := self.active + 1 }, true)

/-- `end`; whom it notifies looks at `_active` again by itself. -/
def endOne (self : Lifecycle) : Lifecycle := { self with active := self.active - 1 }

/-- `begin_close` leaves its loop. -/
def drained (self : Lifecycle) (expired : Bool) : Bool := decide (self.active ≤ 0) || expired

end Lifecycle

/-! ## The client -/

/-- Where a call of `_post` is. -/
inductive PostPc
  | outside
  /-- `begin` returned `True`; in `_deliver`. -/
  | delivering
  /-- `end` was called, and the call returned or raised. -/
  | ended (raised : Bool)
  /-- `begin` returned `False`. -/
  | refused
  deriving DecidableEq

/-- Where a call of `_submit` is, up to the call of `AsyncDispatcher.submit`. -/
inductive AsyncPc
  | outside
  | checked
  | refused
  deriving DecidableEq

/-- Where a call of `close` is. -/
inductive ClosePc
  | outside
  /-- `begin_close` returned `False`. -/
  | refused
  /-- It set the closed flag and waits in `begin_close`. -/
  | draining
  /-- `begin_close` returned `True`. -/
  | owning
  /-- In `AsyncDispatcher.close`. -/
  | joining
  /-- Before `HttpExecutor.close`. -/
  | releasing
  | returned
  deriving DecidableEq

structure IncidentClient (cfg : Config) where
  lifecycle : Lifecycle
  dispatcher : AsyncDispatcher cfg
  posts : Nat → PostPc
  submits : Nat → AsyncPc
  closes : Nat → ClosePc
  /-- History: the posts that `begin` admitted. -/
  admitted : List Nat
  /-- History: the close that set the closed flag, and those whose `begin_close` returned `True`. -/
  closedBy : Option Nat
  granted : List Nat
  /-- History: the loop of `begin_close` ran out of time. -/
  drainExpired : Bool
  /-- History: the closes that called `HttpExecutor.close`. -/
  executorCloses : List Nat

inductive Label (cfg : Config)
  /-- `_post` up to the return of `begin`. -/
  | post (k : Nat)
  /-- `_deliver` is over; `end` and the end of the call. -/
  | endPost (k : Nat) (raised : Bool)
  /-- `_submit` up to the look at `closed`. -/
  | postAsync (k : Nat)
  /-- `begin_close` up to its first `wait` or its return; `expired` when `remaining <= 0`. -/
  | beginClose (c : Nat) (expired : Bool)
  /-- `wait` returns, for whatever reason. -/
  | wake (c : Nat) (expired : Bool)
  | closeDispatcher (c : Nat)
  /-- `AsyncDispatcher.close` returns. -/
  | dispatcherClosed (c : Nat)
  | closeExecutor (c : Nat)
  /-- A step of the dispatcher: of a submit, a worker or its close. -/
  | dispatch (l : Dispatcher.Label cfg)

namespace IncidentClient
variable {cfg : Config}

def new (cfg : Config) : IncidentClient cfg where
  lifecycle := ⟨0, false⟩
  dispatcher := .new cfg
  posts _ := .outside
  submits _ := .outside
  closes _ := .outside
  admitted := []
  closedBy := none
  granted := []
  drainExpired := false
  executorCloses := []

def setPost (s : IncidentClient cfg) (k : Nat) (pc : PostPc) : IncidentClient cfg :=
  { s with posts := Function.update s.posts k pc }

def setSubmit (s : IncidentClient cfg) (k : Nat) (pc : AsyncPc) : IncidentClient cfg :=
  { s with submits := Function.update s.submits k pc }

def setClose (s : IncidentClient cfg) (c : Nat) (pc : ClosePc) : IncidentClient cfg :=
  { s with closes := Function.update s.closes c pc }

/-- The test of the loop of `begin_close` by close `c`. -/
def drain (s : IncidentClient cfg) (c : Nat) (expired : Bool) : IncidentClient cfg :=
  if s.lifecycle.drained expired then
    { s.setClose c .owning with
      granted := s.granted ++ [c]
      drainExpired := s.drainExpired || (expired && decide (0 < s.lifecycle.active)) }
  else s.setClose c .draining

/-- Which steps of the dispatcher need no step of a caller: not its `close`, and a submit only by
a call that has found the client open. -/
def free (s : IncidentClient cfg) : Dispatcher.Label cfg → Bool
  | .close => false
  | .submit k isNone => s.submits k == .checked && !isNone
  | _ => true

def step (s : IncidentClient cfg) : Label cfg → Option (IncidentClient cfg)
  | .post k =>
    match s.posts k with
    | .outside =>
      let (lifecycle, admitted) := s.lifecycle.begin
      some (if admitted then
        { s.setPost k .delivering with lifecycle := lifecycle, admitted := s.admitted ++ [k] }
      else s.setPost k .refused)
    | _ => none
  | .endPost k raised =>
    match s.posts k with
    | .delivering => some { s.setPost k (.ended raised) with lifecycle := s.lifecycle.endOne }
    | _ => none
  | .postAsync k =>
    match s.submits k with
    | .outside => some (s.setSubmit k (if s.lifecycle.closed then .refused else .checked))
    | _ => none
  | .beginClose c expired =>
    match s.closes c with
    | .outside =>
      if s.lifecycle.closed then some (s.setClose c .refused)
      else
        let s : IncidentClient cfg :=
          { s with lifecycle := { s.lifecycle with closed := true }, closedBy := some c }
        some (s.drain c expired)
    | _ => none
  | .wake c expired =>
    match s.closes c with
    | .draining => some (s.drain c expired)
    | _ => none
  | .closeDispatcher c =>
    match s.closes c with
    | .owning =>
      -- a second `close` of the dispatcher returns at once
      if s.dispatcher.closed then some (s.setClose c .releasing)
      else (s.dispatcher.step .close).map fun d => { s.setClose c .joining with dispatcher := d }
    | _ => none
  | .dispatcherClosed c =>
    match s.closes c, s.dispatcher.close with
    | .joining, .returned => some (s.setClose c .releasing)
    | _, _ => none
  | .closeExecutor c =>
    match s.closes c with
    | .releasing =>
      some { s.setClose c .returned with executorCloses := s.executorCloses ++ [c] }
    | _ => none
  | .dispatch l =>
    if s.free l then (s.dispatcher.step l).map fun d => { s with dispatcher := d } else none

end IncidentClient

end OppexSdk.Python.Client
