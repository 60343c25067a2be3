import OppexSdk.DotNet.AsyncDispatcher

/-! # Disposing the .NET client

`IncidentClient` of `dotnet/src/Oppex.Integration.Sdk/IncidentClient.cs`: `Enqueue` and
`EnqueueWithServiceRouting`, and the calls of `DisposeAsync`, which `Dispose` waits for. The flag
`_disposed` is read and set without a lock, in two steps. A call of the client's `DisposeAsync` has
the number of the call of the dispatcher's that it makes. -/
namespace OppexSdk.DotNet
open OppexSdk.Lib.Transition

inductive EnqueuePc
  | outside
  /-- The request passed its checks and the client was not disposed. -/
  | prepared
  | returned
  | raised
  deriving DecidableEq

inductive DisposePc
  | outside
  /-- `_disposed` was not set. -/
  | checked
  /-- In `_dispatcher.DisposeAsync`. -/
  | disposing
  | returned
  deriving DecidableEq

structure IncidentClient (cfg : Config) where
  disposed : Bool
  transportDisposed : Bool
  dispatcher : AsyncDispatcher cfg
  enqueues : Nat → EnqueuePc
  disposers : Nat → DisposePc

inductive ClientLabel (cfg : Config)
  /-- `Prepare` and the checks of the service key. -/
  | enqueue (k : Nat) (valid : Bool)
  | submit (k : Nat)
  /-- `DisposeAsync` reads `_disposed`. -/
  | dispose (d : Nat)
  | mark (d : Nat)
  | disposeTransport (d : Nat)
  /-- A step of the dispatcher. -/
  | dispatch (l : Label cfg)

namespace IncidentClient
variable {cfg : Config}

def new (cfg : Config) : IncidentClient cfg where
  disposed := false
  transportDisposed := false
  dispatcher := .new cfg
  enqueues _ := .outside
  disposers _ := .outside

def setEnqueue (s : IncidentClient cfg) (k : Nat) (pc : EnqueuePc) : IncidentClient cfg :=
  { s with enqueues := Function.update s.enqueues k pc }

def setDisposer (s : IncidentClient cfg) (d : Nat) (pc : DisposePc) : IncidentClient cfg :=
  { s with disposers := Function.update s.disposers d pc }

/-- A task comes through `submit`, and a call of the dispatcher's `DisposeAsync` from the client's;
the rest is the dispatcher's own. -/
def entitled (s : IncidentClient cfg) : Label cfg → Bool
  | .submit _ => false
  | .close d => s.disposers d == .disposing
  | _ => true

def step (s : IncidentClient cfg) : ClientLabel cfg → Option (IncidentClient cfg)
  | .enqueue k valid =>
    match s.enqueues k with
    | .outside => some (s.setEnqueue k (if s.disposed || !valid then .raised else .prepared))
    | _ => none
  | .submit k =>
    match s.enqueues k with
    | .prepared => (AsyncDispatcher.step s.dispatcher (.submit k)).map fun dispatcher =>
        { s.setEnqueue k (if s.dispatcher.closed then .raised else .returned) with
          dispatcher := dispatcher }
    | _ => none
  | .dispose d =>
    match s.disposers d with
    | .outside => some (s.setDisposer d (if s.disposed then .returned else .checked))
    | _ => none
  | .mark d =>
    match s.disposers d with
    | .checked => some { s.setDisposer d .disposing with disposed := true }
    | _ => none
  | .disposeTransport d =>
    match s.disposers d, s.dispatcher.closes d with
    | .disposing, .disposed _ => some { s.setDisposer d .returned with transportDisposed := true }
    | _, _ => none
  | .dispatch l =>
    if s.entitled l then
      (AsyncDispatcher.step s.dispatcher l).map fun dispatcher =>
        { s with dispatcher := dispatcher }
    else none

end IncidentClient

end OppexSdk.DotNet
