import OppexSdk.Lib.Backoff
import OppexSdk.Lib.Bytes

/-! # The Ruby retry loop

`RetryExecutor` of `ruby/lib/oppex_sdk/internal/retry_executor.rb` and `IncidentError` of
`errors.rb`. `ε` are the other `StandardError`s, which the loop does not rescue; `interrupt k` is
what the `k`-th `interrupt.wait` returns. -/
namespace OppexSdk.Ruby.RetryExecutor
open OppexSdk.Lib
open OppexSdk.Lib.Retry (Report)

variable {α ε : Type}

/-- A duration in milliseconds. -/
abbrev Duration := Nat

def noStatusCode : Int := -1

structure IncidentError (ε : Type) where
  message : Bytes
  statusCode : Int
  retryable : Bool
  causeError : Option ε

def IncidentError.httpStatus (e : IncidentError ε) : Bool := e.statusCode != noStatusCode

inductive Raised (ε : Type)
  | incident (error : IncidentError ε)
  | other (error : ε)

def interruptedMessage : Bytes := bytes "incident delivery was interrupted during retry"

def annotate (error : IncidentError ε) (attempts : Nat) : IncidentError ε :=
  if error.httpStatus || attempts < 2 then error
  else { error with
    message := error.message ++ bytes " (after " ++ decimal attempts ++ bytes " attempts)" }

/-- `IncidentError.new(INTERRUPTED_MESSAGE)`. -/
def interruptedError : IncidentError ε := ⟨interruptedMessage, noStatusCode, false, none⟩

/-- The `loop` of `execute`, with the waits requested so far. -/
def loop (delays : List Duration) (block : Nat → Except (Raised ε) α) (interrupt : Nat → Bool)
    (attempt : Nat) (waits : List Duration) : Report α (Raised ε) Duration :=
  match block attempt with
  | .ok value => ⟨attempt + 1, waits, .ok value⟩
  | .error (.other error) => ⟨attempt + 1, waits, .error (.other error)⟩
  | .error (.incident error) =>
    if h : !error.retryable || attempt ≥ delays.length then
      ⟨attempt + 1, waits, .error (.incident (annotate error (attempt + 1)))⟩
    else
      have hlt : attempt < delays.length := by simp at h; exact h.2
      if interrupt attempt then
        ⟨attempt + 1, waits ++ [delays[attempt]], .error (.incident interruptedError)⟩
      else loop delays block interrupt (attempt + 1) (waits ++ [delays[attempt]])
termination_by delays.length - attempt

def execute (delays : List Duration) (block : Nat → Except (Raised ε) α)
    (interrupt : Nat → Bool) : Report α (Raised ε) Duration :=
  loop delays block interrupt 0 []

/-- How the loop reads what is raised. -/
def policy : Backoff.Policy (Raised ε) (Raised ε) where
  retryable
    | .incident error => error.retryable
    | .other _ => false
  final
    | .incident error, attempts => .incident (annotate error attempts)
    | .other error, _ => .other error
  interrupted := .incident interruptedError

theorem loop_implements (delays : List Duration) (block : Nat → Except (Raised ε) α)
    (interrupt : Nat → Bool) :
    Backoff.Implements policy delays block interrupt
      fun i => loop delays block interrupt i (delays.take i) where
  ok i value h := by rw [loop, h]
  fail i raised h hend := by
    rw [loop, h]
    cases raised with
    | other error => rfl
    | incident error =>
      have hstop : (!error.retryable || decide (i ≥ delays.length)) = true := by
        simpa [policy] using hend
      simp only [hstop, dite_true, policy]
  stop i raised h hr hi hw := by
    cases raised with
    | other error => cases hr
    | incident error =>
      have hr : error.retryable = true := hr
      have hgo : ¬ (!error.retryable || decide (i ≥ delays.length)) = true := by
        simpa using And.intro hr hi
      rw [loop, h]
      dsimp only
      rw [dif_neg hgo, hw, if_pos rfl, List.take_append_getElem hi]
      rfl
  next i raised h hr hi hw := by
    cases raised with
    | other error => cases hr
    | incident error =>
      have hr : error.retryable = true := hr
      have hgo : ¬ (!error.retryable || decide (i ≥ delays.length)) = true := by
        simpa using And.intro hr hi
      rw [loop, h]
      dsimp only
      rw [dif_neg hgo, hw, if_neg Bool.false_ne_true, List.take_append_getElem hi]

theorem execute_reference (delays : List Duration) (block : Nat → Except (Raised ε) α)
    (interrupt : Nat → Bool) :
    execute delays block interrupt = policy.reference block interrupt delays 0 :=
  (loop_implements delays block interrupt).eq_reference

end OppexSdk.Ruby.RetryExecutor
