import OppexSdk.Lib.Backoff
import OppexSdk.Python.Posting

/-! # The Python retry loop

`RetryExecutor.execute` of `python/src/oppex_sdk/_internal/retry.py`, as it stands among the parts
of `_deliver`, against the reference. -/
namespace OppexSdk.Python.Posting.RetryExecutor
open OppexSdk.Lib OppexSdk.Python.JsonCodec

/-- How the loop reads what is raised. -/
def policy : Backoff.Policy Raised Raised where
  retryable
    | .incident failure => failure.retryable
    | .transportError => true
    | .builtin _ => false
  final
    | .transportError, attempts => .incident (exhausted (attempts - 1))
    | e, _ => e
  interrupted := .incident interrupted

/-- The metric after so many more waits. -/
def counted (m : Metrics) (waits : Nat) : Metrics := { m with retried := m.retried + waits }

theorem loop_implements (delays : List Duration) (operation : Nat → Except Raised IncidentResponse)
    (sleeper : Nat → Bool) (m : Metrics) :
    Backoff.Implements policy delays operation sleeper fun i =>
      (loop delays operation sleeper i (delays.take i) (counted m i)).1 where
  ok i value h := by rw [loop, h]
  fail i raised h hend := by
    rw [loop, h]
    cases raised with
    | builtin e => rfl
    | incident failure =>
      have hstop : (!failure.retryable || decide (i ≥ delays.length)) = true := by
        simpa [policy] using hend
      simp only [hstop, dite_true, policy]
    | transportError =>
      have hstop : i ≥ delays.length := by simpa [policy] using hend
      simp only [hstop, dite_true, policy, Nat.add_sub_cancel]
  stop i raised h hr hi hw := by
    rw [loop, h]
    cases raised with
    | builtin e => cases hr
    | incident failure =>
      have hr : failure.retryable = true := hr
      have hgo : ¬ (!failure.retryable || decide (i ≥ delays.length)) = true := by
        simpa using And.intro hr hi
      dsimp only
      rw [dif_neg hgo, hw, if_pos rfl, List.take_append_getElem hi]
      rfl
    | transportError =>
      dsimp only
      rw [dif_neg (Nat.not_le.mpr hi), hw, if_pos rfl, List.take_append_getElem hi]
      rfl
  next i raised h hr hi hw := by
    rw [loop, h]
    cases raised with
    | builtin e => cases hr
    | incident failure =>
      have hr : failure.retryable = true := hr
      have hgo : ¬ (!failure.retryable || decide (i ≥ delays.length)) = true := by
        simpa using And.intro hr hi
      dsimp only
      rw [dif_neg hgo, hw, if_neg Bool.false_ne_true, List.take_append_getElem hi]
      rfl
    | transportError =>
      dsimp only
      rw [dif_neg (Nat.not_le.mpr hi), hw, if_neg Bool.false_ne_true, List.take_append_getElem hi]
      rfl

/-- The loop is the reference, and `retried` counts its waits. -/
theorem execute_reference (delays : List Duration)
    (operation : Nat → Except Raised IncidentResponse) (sleeper : Nat → Bool) (m : Metrics) :
    execute delays operation sleeper m =
      (policy.reference operation sleeper delays 0,
        counted m (policy.reference operation sleeper delays 0).waits.length) := by
  have href : (execute delays operation sleeper m).1 = _ :=
    (loop_implements delays operation sleeper m).eq_reference
  obtain ⟨n, hn, hm⟩ := loop_metrics operation sleeper delays 0 [] m
  rw [List.length_nil, Nat.add_zero] at hn
  subst hn
  refine Prod.ext href ?_
  rw [← href]
  exact hm

end OppexSdk.Python.Posting.RetryExecutor
