import OppexSdk.Lib.Backoff
import OppexSdk.Java.JsonCodec

/-! # The Java retry loop

`internal/retry/RetryExecutor.java`. An attempt fails with an `IncidentException` or with an
`IOException`, and the two have handlers of their own: the second also looks at the thread's
interrupt flag. `interrupt k` says whether the `k`-th sleep throws `InterruptedException`; the
metric is counted before each sleep. -/
namespace OppexSdk.Java.RetryExecutor
open OppexSdk.Lib
open OppexSdk.Lib.Retry (Report)
open OppexSdk.Java.JsonCodec (IncidentException)

variable {α ε : Type}

/-- What an attempt throws. `ε` are the unchecked exceptions. -/
inductive Thrown (ε : Type)
  | incident (failure : IncidentException)
  /-- An `IOException`, and whether the thread's interrupt flag is set when it is handled. -/
  | io (isInterrupted : Bool)
  | unchecked (exception : ε)

/-- What `execute` throws. -/
inductive Failure (ε : Type)
  | incident (failure : IncidentException)
  | unchecked (exception : ε)

/-- What an `IOException` becomes, with `retry` retries made. -/
def exhausted (retry : Nat) : IncidentException :=
  ⟨bytes "Incident delivery failed after " ++ decimal (retry + 1) ++ bytes " attempts", -1, false⟩

def interrupted : IncidentException :=
  ⟨bytes "Incident delivery interrupted during retry", -1, false⟩

/-- The `while` loop of `execute`, with the sleeps requested so far and the metric. -/
def loop (delaysMillis : List Nat) (operation : Nat → Except (Thrown ε) α)
    (interrupt : Nat → Bool) (retry : Nat) (waits : List Nat) (retried : Nat) :
    Report α (Failure ε) Nat × Nat :=
  match operation retry with
  | .ok value => (⟨retry + 1, waits, .ok value⟩, retried)
  | .error (.unchecked exception) =>
    (⟨retry + 1, waits, .error (.unchecked exception)⟩, retried)
  | .error (.incident failure) =>
    if h : !failure.retryable || retry ≥ delaysMillis.length then
      (⟨retry + 1, waits, .error (.incident failure)⟩, retried)
    else
      have hlt : retry < delaysMillis.length := by simp at h; exact h.2
      if interrupt retry then
        (⟨retry + 1, waits ++ [delaysMillis[retry]], .error (.incident interrupted)⟩, retried + 1)
      else
        loop delaysMillis operation interrupt (retry + 1) (waits ++ [delaysMillis[retry]])
          (retried + 1)
  | .error (.io isInterrupted) =>
    if h : isInterrupted || retry ≥ delaysMillis.length then
      (⟨retry + 1, waits, .error (.incident (exhausted retry))⟩, retried)
    else
      have hlt : retry < delaysMillis.length := by simp at h; exact h.2
      if interrupt retry then
        (⟨retry + 1, waits ++ [delaysMillis[retry]], .error (.incident interrupted)⟩, retried + 1)
      else
        loop delaysMillis operation interrupt (retry + 1) (waits ++ [delaysMillis[retry]])
          (retried + 1)
termination_by delaysMillis.length - retry

def execute (delaysMillis : List Nat) (operation : Nat → Except (Thrown ε) α)
    (interrupt : Nat → Bool) (retried : Nat) : Report α (Failure ε) Nat × Nat :=
  loop delaysMillis operation interrupt 0 [] retried

/-- How the loop reads what is thrown. -/
def policy : Backoff.Policy (Thrown ε) (Failure ε) where
  retryable
    | .incident failure => failure.retryable
    | .io isInterrupted => !isInterrupted
    | .unchecked _ => false
  final
    | .incident failure, _ => .incident failure
    | .io _, attempts => .incident (exhausted (attempts - 1))
    | .unchecked exception, _ => .unchecked exception
  interrupted := .incident interrupted

/-- Each sleep is counted. -/
theorem loop_retried (delaysMillis : List Nat) (operation : Nat → Except (Thrown ε) α)
    (interrupt : Nat → Bool) (retry : Nat) (waits : List Nat) (retried : Nat) :
    (loop delaysMillis operation interrupt retry waits retried).2 + waits.length =
      retried + (loop delaysMillis operation interrupt retry waits retried).1.waits.length := by
  fun_induction loop delaysMillis operation interrupt retry waits retried with
  | case5 retry waits retried failure hop hgo hlt hw ih =>
    rw [List.length_append, List.length_singleton] at ih
    omega
  | case8 retry waits retried isInterrupted hop hgo hlt hw ih =>
    rw [List.length_append, List.length_singleton] at ih
    omega
  | case4 | case7 =>
    rw [List.length_append, List.length_singleton]
    omega
  | case1 | case2 | case3 | case6 => rfl

theorem loop_implements (delaysMillis : List Nat) (operation : Nat → Except (Thrown ε) α)
    (interrupt : Nat → Bool) (retried : Nat) :
    Backoff.Implements policy delaysMillis operation interrupt fun i =>
      (loop delaysMillis operation interrupt i (delaysMillis.take i) (retried + i)).1 where
  ok i value h := by rw [loop, h]
  fail i thrown h hend := by
    rw [loop, h]
    cases thrown with
    | unchecked exception => rfl
    | incident failure =>
      have hstop : (!failure.retryable || decide (i ≥ delaysMillis.length)) = true := by
        simpa [policy] using hend
      simp only [hstop, dite_true, policy]
    | io isInterrupted =>
      have hstop : (isInterrupted || decide (i ≥ delaysMillis.length)) = true := by
        simpa [policy] using hend
      simp only [hstop, dite_true, policy, Nat.add_sub_cancel]
  stop i thrown h hr hi hw := by
    rw [loop, h]
    cases thrown with
    | unchecked exception => cases hr
    | incident failure =>
      have hr : failure.retryable = true := hr
      have hgo : ¬ (!failure.retryable || decide (i ≥ delaysMillis.length)) = true := by
        simpa using And.intro hr hi
      dsimp only
      rw [dif_neg hgo, hw, if_pos rfl, List.take_append_getElem hi]
      rfl
    | io isInterrupted =>
      have hr : (!isInterrupted) = true := hr
      have hgo : ¬ (isInterrupted || decide (i ≥ delaysMillis.length)) = true := by
        simpa using And.intro hr hi
      dsimp only
      rw [dif_neg hgo, hw, if_pos rfl, List.take_append_getElem hi]
      rfl
  next i thrown h hr hi hw := by
    rw [loop, h]
    cases thrown with
    | unchecked exception => cases hr
    | incident failure =>
      have hr : failure.retryable = true := hr
      have hgo : ¬ (!failure.retryable || decide (i ≥ delaysMillis.length)) = true := by
        simpa using And.intro hr hi
      dsimp only
      rw [dif_neg hgo, hw, if_neg Bool.false_ne_true, List.take_append_getElem hi, Nat.add_assoc]
    | io isInterrupted =>
      have hr : (!isInterrupted) = true := hr
      have hgo : ¬ (isInterrupted || decide (i ≥ delaysMillis.length)) = true := by
        simpa using And.intro hr hi
      dsimp only
      rw [dif_neg hgo, hw, if_neg Bool.false_ne_true, List.take_append_getElem hi, Nat.add_assoc]

/-- The loop is the reference, and the metric counts its waits. -/
theorem execute_reference (delaysMillis : List Nat) (operation : Nat → Except (Thrown ε) α)
    (interrupt : Nat → Bool) (retried : Nat) :
    execute delaysMillis operation interrupt retried =
      (policy.reference operation interrupt delaysMillis 0,
        retried + (policy.reference operation interrupt delaysMillis 0).waits.length) := by
  have href : (execute delaysMillis operation interrupt retried).1 = _ :=
    (loop_implements delaysMillis operation interrupt retried).eq_reference
  have hretried : (execute delaysMillis operation interrupt retried).2 = _ :=
    loop_retried delaysMillis operation interrupt 0 [] retried
  refine Prod.ext href ?_
  rw [hretried, ← href]
  rfl

end OppexSdk.Java.RetryExecutor
