import OppexSdk.Go.Dispatcher
import OppexSdk.Lib.RWMutex

/-! # The lifecycle lock of the Go client

`Client` of `golang/oppex/client.go`: the four post methods and `Close`, with the dispatcher they
share. A step is an operation of the lock, what is done between two of them, or a step of the
dispatcher. Whether a request passes its checks, and how a delivery goes, comes with the step. -/
namespace OppexSdk.Go
open OppexSdk.Lib OppexSdk.Lib.Transition

inductive Method
  | post
  | postWithServiceRouting
  | postAsync
  | postAsyncWithServiceRouting
  deriving DecidableEq

/-- The method queues its delivery. -/
def Method.async : Method → Bool
  | .post | .postWithServiceRouting => false
  | .postAsync | .postAsyncWithServiceRouting => true

/-- Where a call of a post method is. -/
inductive CallPc
  | outside
  /-- At the `RLock` of `isClosed`. -/
  | entering (m : Method)
  /-- In `isClosed` with the read lock. -/
  | reading (m : Method)
  /-- The client was open; the request is still to be checked. -/
  | prepared (m : Method)
  /-- At the `RLock` of `postSynchronously`. -/
  | locking (m : Method)
  | locked (m : Method)
  /-- In `deliver` with the read lock. -/
  | delivering (m : Method)
  /-- At the deferred `RUnlock` of `postSynchronously`. -/
  | unlocking (m : Method)
  /-- In `dispatcher.submit`. -/
  | submitting (m : Method)
  | returned
  deriving DecidableEq

/-- Where a call of `Close` is. -/
inductive CloserPc
  | outside
  /-- At `Lock`. -/
  | waiting
  | locked
  /-- In `dispatcher.close`. -/
  | draining
  /-- Before `transport.close`. -/
  | releasing
  /-- At the deferred `Unlock`. -/
  | unlocking
  | returned
  deriving DecidableEq

/-- The call of `Close` has the lifecycle lock. -/
def CloserPc.holds : CloserPc → Bool
  | locked | draining | releasing | unlocking => true
  | _ => false

/-- The call of `Close` waits for the lifecycle lock or has it. -/
def CloserPc.wants (pc : CloserPc) : Bool := pc == waiting || pc.holds

structure Client (cfg : Config) where
  lifecycle : RWMutex Nat Nat
  closed : Bool
  transportClosed : Bool
  dispatcher : Dispatcher cfg
  calls : Nat → CallPc
  closes : Nat → CloserPc

inductive ClientLabel (cfg : Config)
  | call (k : Nat) (m : Method)
  /-- The `RLock` that a call is at. -/
  | rlock (k : Nat)
  /-- `isClosed` reads the flag and releases the read lock. -/
  | isClosed (k : Nat)
  /-- The checks of the request. -/
  | validate (k : Nat) (valid : Bool)
  /-- `postSynchronously` reads the flag. -/
  | checkClosed (k : Nat)
  /-- `deliver` returns. -/
  | delivered (k : Nat)
  | runlock (k : Nat)
  /-- `dispatcher.submit` has returned. -/
  | submitted (k : Nat)
  | close (c : Nat)
  | lock (c : Nat)
  | checkClose (c : Nat)
  /-- `dispatcher.close` has returned. -/
  | drained (c : Nat)
  | closeTransport (c : Nat)
  | unlock (c : Nat)
  /-- A step of the dispatcher. -/
  | dispatch (l : Label cfg)

namespace Client
variable {cfg : Config}

def new (cfg : Config) : Client cfg where
  lifecycle := .new
  closed := false
  transportClosed := false
  dispatcher := newDispatcher cfg
  calls _ := .outside
  closes _ := .outside

def setCall (s : Client cfg) (k : Nat) (pc : CallPc) : Client cfg :=
  { s with calls := Function.update s.calls k pc }

def setClose (s : Client cfg) (c : Nat) (pc : CloserPc) : Client cfg :=
  { s with closes := Function.update s.closes c pc }

/-- A submission enters the dispatcher from its call, a close from its `Close`; what they and the
workers do then is the dispatcher's own. -/
def entitled (s : Client cfg) : Label cfg → Bool
  | .lock k => match s.calls k with
    | .submitting _ => true
    | _ => false
  | .lockClose c => s.closes c == .draining
  | _ => true

def step (s : Client cfg) : ClientLabel cfg → Option (Client cfg)
  | .call k m =>
    match s.calls k with
    | .outside => some (s.setCall k (.entering m))
    | _ => none
  | .rlock k =>
    match s.calls k with
    | .entering m => (s.lifecycle.rlock k).map fun lifecycle =>
        { s.setCall k (.reading m) with lifecycle := lifecycle }
    | .locking m => (s.lifecycle.rlock k).map fun lifecycle =>
        { s.setCall k (.locked m) with lifecycle := lifecycle }
    | _ => none
  | .isClosed k =>
    match s.calls k with
    | .reading m =>
      some { s.setCall k (if s.closed then .returned else .prepared m) with
        lifecycle := s.lifecycle.runlock k }
    | _ => none
  | .validate k valid =>
    match s.calls k with
    | .prepared m =>
      some (s.setCall k (if !valid then .returned
        else if m.async then .submitting m else .locking m))
    | _ => none
  | .checkClosed k =>
    match s.calls k with
    | .locked m => some (s.setCall k (if s.closed then .unlocking m else .delivering m))
    | _ => none
  | .delivered k =>
    match s.calls k with
    | .delivering m => some (s.setCall k (.unlocking m))
    | _ => none
  | .runlock k =>
    match s.calls k with
    | .unlocking _ =>
      some { s.setCall k .returned with lifecycle := s.lifecycle.runlock k }
    | _ => none
  | .submitted k =>
    match s.calls k, s.dispatcher.submits k with
    | .submitting _, .returned _ => some (s.setCall k .returned)
    | _, _ => none
  | .close c =>
    match s.closes c with
    | .outside => some { s.setClose c .waiting with lifecycle := s.lifecycle.request c }
    | _ => none
  | .lock c =>
    match s.closes c with
    | .waiting => (s.lifecycle.lock c).map fun lifecycle =>
        { s.setClose c .locked with lifecycle := lifecycle }
    | _ => none
  | .checkClose c =>
    match s.closes c with
    | .locked =>
      some (if s.closed then s.setClose c .unlocking
        else { s.setClose c .draining with closed := true })
    | _ => none
  | .drained c =>
    match s.closes c, s.dispatcher.closes c with
    | .draining, .returned => some (s.setClose c .releasing)
    | _, _ => none
  | .closeTransport c =>
    match s.closes c with
    | .releasing => some { s.setClose c .unlocking with transportClosed := true }
    | _ => none
  | .unlock c =>
    match s.closes c with
    | .unlocking => some { s.setClose c .returned with lifecycle := s.lifecycle.unlock }
    | _ => none
  | .dispatch l =>
    if s.entitled l then (Go.step s.dispatcher l).map fun d => { s with dispatcher := d } else none

end Client

end OppexSdk.Go
