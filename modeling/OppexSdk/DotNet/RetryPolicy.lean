import OppexSdk.Lib.Backoff
import OppexSdk.Lib.Bytes

/-! # The .NET retry loop

`Internal/RetryPolicy.cs` and `IncidentException.cs`. `ε` are the exceptions of other types, an
`OperationCanceledException` among them; `interrupt k` says whether the token cancels the `k`-th
`Task.Delay`. The loop has two filtered handlers, and a failure that is not retryable passes both
of them as it is. -/
namespace OppexSdk.DotNet.RetryPolicy
open OppexSdk.Lib
open OppexSdk.Lib.Retry (Report)

variable {α ε : Type}

/-- A time span in milliseconds. -/
abbrev TimeSpan := Nat

def noStatusCode : Int := -1

structure IncidentException (ε : Type) where
  message : Bytes
  statusCode : Int
  retryable : Bool
  innerException : Option ε

def IncidentException.hasHttpStatus (e : IncidentException ε) : Bool :=
  e.statusCode != noStatusCode

inductive Thrown (ε : Type)
  | incident (failure : IncidentException ε)
  | other (exception : ε)

def withAttemptCount (failure : IncidentException ε) (attempts : Nat) : IncidentException ε :=
  if failure.hasHttpStatus || attempts < 2 then failure
  else { failure with
    message := failure.message ++ bytes " (after " ++ decimal attempts ++ bytes " attempts)" }

/-- The `for` loop of `ExecuteAsync`, with the delays requested so far. `canceled` is what a
cancelled `Task.Delay` throws. -/
def loop (canceled : ε) (delays : List TimeSpan) (operation : Nat → Except (Thrown ε) α)
    (interrupt : Nat → Bool) (attempt : Nat) (waits : List TimeSpan) :
    Report α (Thrown ε) TimeSpan :=
  match operation attempt with
  | .ok value => ⟨attempt + 1, waits, .ok value⟩
  | .error (.other exception) => ⟨attempt + 1, waits, .error (.other exception)⟩
  | .error (.incident failure) =>
    if h : failure.retryable && attempt < delays.length then
      have hlt : attempt < delays.length := by simp at h; exact h.2
      if interrupt attempt then
        ⟨attempt + 1, waits ++ [delays[attempt]], .error (.other canceled)⟩
      else loop canceled delays operation interrupt (attempt + 1) (waits ++ [delays[attempt]])
    else if failure.retryable then
      ⟨attempt + 1, waits, .error (.incident (withAttemptCount failure (attempt + 1)))⟩
    else ⟨attempt + 1, waits, .error (.incident failure)⟩
termination_by delays.length - attempt

def executeAsync (canceled : ε) (delays : List TimeSpan) (operation : Nat → Except (Thrown ε) α)
    (interrupt : Nat → Bool) : Report α (Thrown ε) TimeSpan :=
  loop canceled delays operation interrupt 0 []

/-- How the loop reads an exception. Only a retryable failure is annotated. -/
def policy (canceled : ε) : Backoff.Policy (Thrown ε) (Thrown ε) where
  retryable
    | .incident failure => failure.retryable
    | .other _ => false
  final
    | .incident failure, attempts =>
      .incident (if failure.retryable then withAttemptCount failure attempts else failure)
    | .other exception, _ => .other exception
  interrupted := .other canceled

theorem loop_implements (canceled : ε) (delays : List TimeSpan)
    (operation : Nat → Except (Thrown ε) α) (interrupt : Nat → Bool) :
    Backoff.Implements (policy canceled) delays operation interrupt
      fun i => loop canceled delays operation interrupt i (delays.take i) where
  ok i value h := by rw [loop, h]
  fail i thrown h hend := by
    rw [loop, h]
    cases thrown with
    | other exception => rfl
    | incident failure =>
      have hstop : ¬ (failure.retryable && decide (i < delays.length)) = true := by
        simp only [Bool.and_eq_true, decide_eq_true_eq, not_and, Nat.not_lt]
        intro hr
        have hr : (policy canceled).retryable (.incident failure) = true := hr
        exact hend.resolve_left (by rw [hr]; exact Bool.noConfusion)
      dsimp only
      rw [dif_neg hstop]
      cases hr : failure.retryable <;> simp [policy, hr]
  stop i thrown h hr hi hw := by
    cases thrown with
    | other exception => cases hr
    | incident failure =>
      have hr : failure.retryable = true := hr
      have hgo : (failure.retryable && decide (i < delays.length)) = true := by
        simpa using And.intro hr hi
      rw [loop, h]
      dsimp only
      rw [dif_pos hgo, hw, if_pos rfl, List.take_append_getElem hi]
      rfl
  next i thrown h hr hi hw := by
    cases thrown with
    | other exception => cases hr
    | incident failure =>
      have hr : failure.retryable = true := hr
      have hgo : (failure.retryable && decide (i < delays.length)) = true := by
        simpa using And.intro hr hi
      rw [loop, h]
      dsimp only
      rw [dif_pos hgo, hw, if_neg Bool.false_ne_true, List.take_append_getElem hi]

theorem executeAsync_reference (canceled : ε) (delays : List TimeSpan)
    (operation : Nat → Except (Thrown ε) α) (interrupt : Nat → Bool) :
    executeAsync canceled delays operation interrupt =
      (policy canceled).reference operation interrupt delays 0 :=
  (loop_implements canceled delays operation interrupt).eq_reference

end OppexSdk.DotNet.RetryPolicy
