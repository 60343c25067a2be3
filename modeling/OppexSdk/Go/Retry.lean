import OppexSdk.Lib.Backoff
import OppexSdk.Lib.Bytes

/-! # The Go retry loop

`golang/oppex/retry.go`, with `IncidentError` and what `errors.As` finds in a chain of wrapped
errors. `ε` are the errors that are not of this package; `interrupt k` says whether the context
ends the `k`-th sleep. -/
namespace OppexSdk.Go.Retry
open OppexSdk.Lib
open OppexSdk.Lib.Retry (Report)

variable {α ε : Type}

/-- A duration in milliseconds. -/
abbrev Duration := Nat

def noStatusCode : Int := -1

structure IncidentError (ε : Type) where
  message : Bytes
  statusCode : Int
  retryable : Bool
  err : Option ε

inductive Err (ε : Type)
  | incident (failure : IncidentError ε)
  /-- What `fmt.Errorf` makes with `%w`. -/
  | wrapped (text : Bytes) (err : Err ε)
  | other (err : ε)

/-- `errors.As` with a target of type `*IncidentError`. -/
def errorsAs : Err ε → Option (IncidentError ε)
  | .incident failure => some failure
  | .wrapped _ err => errorsAs err
  | .other _ => none

def withAttemptCount (err : Err ε) (attempts : Nat) : Err ε :=
  if attempts < 2 then err
  else
    match errorsAs err with
    | none => err
    | some failure =>
      if failure.statusCode ≠ noStatusCode then err
      else .incident { failure with
        message := failure.message ++ bytes " (after " ++ decimal attempts ++ bytes " attempts)" }

/-- What `sleep` returns when the context ended with this error. -/
def cancelled (ctxErr : ε) : Err ε :=
  .incident ⟨bytes "incident delivery was cancelled during retry", noStatusCode, false, some ctxErr⟩

/-- The `for` loop of `retry`, with the sleeps requested so far. -/
def loop (ctxErr : ε) (delays : List Duration) (operation : Nat → Except (Err ε) α)
    (interrupt : Nat → Bool) (attempt : Nat) (waits : List Duration) :
    Report α (Err ε) Duration :=
  match operation attempt with
  | .ok result => ⟨attempt + 1, waits, .ok result⟩
  | .error err =>
    match errorsAs err with
    | none => ⟨attempt + 1, waits, .error (withAttemptCount err (attempt + 1))⟩
    | some failure =>
      if h : !failure.retryable || attempt ≥ delays.length then
        ⟨attempt + 1, waits, .error (withAttemptCount err (attempt + 1))⟩
      else
        have hlt : attempt < delays.length := by simp at h; exact h.2
        if interrupt attempt then
          ⟨attempt + 1, waits ++ [delays[attempt]], .error (cancelled ctxErr)⟩
        else loop ctxErr delays operation interrupt (attempt + 1) (waits ++ [delays[attempt]])
termination_by delays.length - attempt

def retry (ctxErr : ε) (delays : List Duration) (operation : Nat → Except (Err ε) α)
    (interrupt : Nat → Bool) : Report α (Err ε) Duration :=
  loop ctxErr delays operation interrupt 0 []

/-- How the loop reads an error: what is not an `IncidentError`, wrapped or not, is not retried. -/
def policy (ctxErr : ε) : Backoff.Policy (Err ε) (Err ε) where
  retryable err := (errorsAs err).any (·.retryable)
  final := withAttemptCount
  interrupted := cancelled ctxErr

theorem loop_implements (ctxErr : ε) (delays : List Duration)
    (operation : Nat → Except (Err ε) α) (interrupt : Nat → Bool) :
    Backoff.Implements (policy ctxErr) delays operation interrupt
      fun i => loop ctxErr delays operation interrupt i (delays.take i) where
  ok i value h := by rw [loop, h]
  fail i err h hend := by
    rw [loop, h]
    cases hfailure : errorsAs err with
    | none => simp only [hfailure, policy]
    | some failure =>
      have hstop : (!failure.retryable || decide (i ≥ delays.length)) = true := by
        simpa [policy, hfailure] using hend
      simp only [hfailure, hstop, dite_true, policy]
  stop i err h hr hi hw := by
    obtain ⟨failure, hfailure, hr⟩ := (Option.any_eq_true _ _).mp hr
    have hgo : ¬ (!failure.retryable || decide (i ≥ delays.length)) = true := by
      simpa using And.intro hr hi
    rw [loop, h]
    simp only [hfailure]
    rw [dif_neg hgo, hw, if_pos rfl, List.take_append_getElem hi]
    rfl
  next i err h hr hi hw := by
    obtain ⟨failure, hfailure, hr⟩ := (Option.any_eq_true _ _).mp hr
    have hgo : ¬ (!failure.retryable || decide (i ≥ delays.length)) = true := by
      simpa using And.intro hr hi
    rw [loop, h]
    simp only [hfailure]
    rw [dif_neg hgo, hw, if_neg Bool.false_ne_true, List.take_append_getElem hi]

theorem retry_reference (ctxErr : ε) (delays : List Duration)
    (operation : Nat → Except (Err ε) α) (interrupt : Nat → Bool) :
    retry ctxErr delays operation interrupt =
      (policy ctxErr).reference operation interrupt delays 0 :=
  (loop_implements ctxErr delays operation interrupt).eq_reference

end OppexSdk.Go.Retry
