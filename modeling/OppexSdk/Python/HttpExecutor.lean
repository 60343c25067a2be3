import OppexSdk.Lib.Places
import OppexSdk.Lib.Transition

/-! # The connection pool of the Python transport

`HttpExecutor` of `python/src/oppex_sdk/_internal/http_executor.py`. Any number of calls of
`execute` and of `close` run at once. The critical sections of `_lock` are atomic steps. Connections
are numbered in the order in which `_open_connection` returned them. -/
namespace OppexSdk.Python.Http
open OppexSdk.Lib.Transition

def maxPooledConnections : Nat := 20

/-- What came of `request`, `getresponse` and `read`, and of parsing what was read. -/
inductive Exchange
  /-- One of `_TRANSPORT_ERRORS` was raised. -/
  | transportError
  /-- Anything else was raised before the response was read. -/
  | otherError
  | answered (status : Nat) (willClose : Bool) (parses : Bool)

/-- Where `execute` goes when `_exchange` has let go of its connection. -/
inductive After
  /-- It returns, or raises. -/
  | leave (raised : Bool)
  /-- A pooled connection failed, and a fresh one is tried. -/
  | reopen
  deriving DecidableEq

/-- What `_exchange` makes of an exchange: whether the connection is reusable, and where `execute`
goes after. -/
def Exchange.result (pooled : Bool) : Exchange → Bool × After
  | .transportError => (false, if pooled then .reopen else .leave true)
  | .otherError => (false, .leave true)
  | .answered status willClose parses =>
    (!willClose, .leave (!(decide (200 ≤ status ∧ status < 300) && parses)))

/-- Where a call of `execute` is. -/
inductive ExecutePc
  | outside
  /-- Before `_take_pooled`. -/
  | taking
  /-- Before `_open_connection`. -/
  | opening
  /-- In `_exchange`. -/
  | exchanging (connection : Nat) (pooled : Bool)
  /-- In the `finally` of `_exchange`, before `_offer`. -/
  | offering (connection : Nat) (after : After)
  /-- Before `_close_quietly`. -/
  | closing (connection : Nat) (after : After)
  | leaving (raised : Bool)
  | returned (raised : Bool)
  deriving DecidableEq

def After.pc : After → ExecutePc
  | leave raised => .leaving raised
  | reopen => .opening

/-- Where a call of `close` is. -/
inductive ClosePc
  | outside
  /-- It has let go of the lock; `pending` is still to be closed. -/
  | closing (pending : List Nat)
  | returned
  deriving DecidableEq

structure HttpExecutor where
  /-- Connections are appended at the end and taken from there. -/
  pool : List Nat
  closed : Bool
  executes : Nat → ExecutePc
  closes : Nat → ClosePc
  /-- How many connections `_open_connection` has returned. -/
  opened : Nat
  /-- The connections that were closed. -/
  shut : List Nat
  /-- History: the connections that a call of `execute` got, put into the pool and closed. -/
  got : Nat → List Nat
  pooled : Nat → List Nat
  disposed : Nat → List Nat

inductive Label
  /-- `execute` up to the serialized body, or its failure. -/
  | execute (e : Nat) (serializes : Bool)
  | takePooled (e : Nat)
  | openConnection (e : Nat) (connects : Bool)
  | exchange (e : Nat) (outcome : Exchange)
  | offer (e : Nat)
  | closeQuietly (e : Nat)
  | leave (e : Nat)
  /-- `close` up to its release of the lock. -/
  | close (c : Nat)
  | closeNext (c : Nat)

namespace HttpExecutor

def new : HttpExecutor where
  pool := []
  closed := false
  executes _ := .outside
  closes _ := .outside
  opened := 0
  shut := []
  got _ := []
  pooled _ := []
  disposed _ := []

def setExecute (s : HttpExecutor) (e : Nat) (pc : ExecutePc) : HttpExecutor :=
  { s with executes := Function.update s.executes e pc }

def setClose (s : HttpExecutor) (c : Nat) (pc : ClosePc) : HttpExecutor :=
  { s with closes := Function.update s.closes c pc }

/-- A history of one call gets one more entry. -/
def note (history : Nat → List Nat) (e connection : Nat) : Nat → List Nat :=
  Function.update history e (history e ++ [connection])

/-- The call of `execute` has a connection. -/
def acquire (s : HttpExecutor) (e connection : Nat) (pooled : Bool) : HttpExecutor :=
  { s.setExecute e (.exchanging connection pooled) with got := note s.got e connection }

def step (s : HttpExecutor) : Label → Option HttpExecutor
  | .execute e serializes =>
    match s.executes e with
    | .outside =>
      some (s.setExecute e (if s.closed || !serializes then .returned true else .taking))
    | _ => none
  | .takePooled e =>
    match s.executes e with
    | .taking =>
      match s.closed, s.pool.getLast? with
      | false, some connection =>
        some { s.acquire e connection true with pool := s.pool.dropLast }
      | _, _ => some (s.setExecute e .opening)
    | _ => none
  | .openConnection e connects =>
    match s.executes e with
    | .opening =>
      if connects then some { s.acquire e s.opened false with opened := s.opened + 1 }
      else some (s.setExecute e (.leaving true))
    | _ => none
  | .exchange e outcome =>
    match s.executes e with
    | .exchanging connection pooled =>
      let (reusable, after) := outcome.result pooled
      some (s.setExecute e (if reusable then .offering connection after
        else .closing connection after))
    | _ => none
  | .offer e =>
    match s.executes e with
    | .offering connection after =>
      if !s.closed && decide (s.pool.length < maxPooledConnections) then
        some { s.setExecute e after.pc with
          pool := s.pool ++ [connection], pooled := note s.pooled e connection }
      else some (s.setExecute e (.closing connection after))
    | _ => none
  | .closeQuietly e =>
    match s.executes e with
    | .closing connection after =>
      some { s.setExecute e after.pc with
        shut := s.shut ++ [connection], disposed := note s.disposed e connection }
    | _ => none
  | .leave e =>
    match s.executes e with
    | .leaving raised => some (s.setExecute e (.returned raised))
    | _ => none
  | .close c =>
    match s.closes c with
    | .outside =>
      if s.closed then some (s.setClose c .returned)
      else some { s.setClose c (.closing s.pool) with closed := true, pool := [] }
    | _ => none
  | .closeNext c =>
    match s.closes c with
    | .closing (connection :: pending) =>
      some { s.setClose c (.closing pending) with shut := s.shut ++ [connection] }
    | .closing [] => some (s.setClose c .returned)
    | _ => none

end HttpExecutor

end OppexSdk.Python.Http
