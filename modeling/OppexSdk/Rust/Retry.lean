import OppexSdk.Lib.Retry

/-! # The Rust error type and retry loop

`rust/src/error.rs` and `rust/src/internal/retry.rs`. The operation and the interrupt are read as
streams: `outcome k` is what the `k`-th call of the operation returns, `interrupt k` what the
`k`-th `Interrupt::wait` returns. -/
namespace OppexSdk.Rust
open OppexSdk.Lib

/-- `NO_STATUS_CODE`. -/
def noStatusCode : Int := -1

/-- The fields of `IncidentError::Delivery`. What kind of thing caused the failure is left open. -/
structure DeliveryFailure (κ : Type) where
  message : String
  statusCode : Int
  retryable : Bool
  source : Option κ

inductive IncidentError (κ : Type)
  | invalidRequest (message : String)
  | clientClosed
  | delivery (failure : DeliveryFailure κ)

namespace IncidentError
variable {κ : Type}

/-- `IncidentError::delivery`. -/
def ofDelivery (message : String) (statusCode : Int) (retryable : Bool) : IncidentError κ :=
  .delivery ⟨message, statusCode, retryable, none⟩

/-- `IncidentError::delivery_caused_by`. -/
def deliveryCausedBy (message : String) (statusCode : Int) (retryable : Bool) (source : κ) :
    IncidentError κ :=
  .delivery ⟨message, statusCode, retryable, some source⟩

/-- `IncidentError::status_code`. -/
def statusCode : IncidentError κ → Option Int
  | .delivery failure => if failure.statusCode ≠ noStatusCode then some failure.statusCode else none
  | _ => none

def isRetryable : IncidentError κ → Bool
  | .delivery failure => failure.retryable
  | _ => false

end IncidentError

namespace Retry
variable {α κ : Type}

/-- A duration in milliseconds. -/
abbrev Duration := Nat

def defaultRetryDelays : List Duration := [500, 1000, 2000, 4000, 8000]

def isRetryableStatus (status : Int) : Bool :=
  status == 429 || status == 500 || status == 502 || status == 503 || status == 504

def withAttemptCount (failure : IncidentError κ) (attempts : Nat) : IncidentError κ :=
  match failure with
  | .delivery f =>
    if f.statusCode = noStatusCode ∧ attempts > 1 then
      .delivery { f with message := s!"{f.message} (after {attempts} attempts)" }
    else .delivery f
  | other => other

def interruptedFailure : DeliveryFailure κ :=
  ⟨"incident delivery was interrupted during retry", noStatusCode, false, none⟩

/-- The loop of `execute_with_retry`, with the calls made and the waits requested so far. -/
def loop (delays : List Duration) (outcome : Nat → Except (IncidentError κ) α)
    (interrupt : Nat → Bool) (attempt calls : Nat) (waits : List Duration) :
    Lib.Retry.Report α (IncidentError κ) Duration :=
  match outcome calls with
  | .ok value => ⟨calls + 1, waits, .ok value⟩
  | .error failure =>
    if h : !failure.isRetryable || attempt ≥ delays.length then
      ⟨calls + 1, waits, .error (withAttemptCount failure (attempt + 1))⟩
    else
      have hlt : attempt < delays.length := by simp at h; exact h.2
      if interrupt waits.length then
        ⟨calls + 1, waits ++ [delays[attempt]], .error (.delivery interruptedFailure)⟩
      else loop delays outcome interrupt (attempt + 1) (calls + 1) (waits ++ [delays[attempt]])
termination_by delays.length - attempt

def executeWithRetry (delays : List Duration) (outcome : Nat → Except (IncidentError κ) α)
    (interrupt : Nat → Bool) : Lib.Retry.Report α (IncidentError κ) Duration :=
  loop delays outcome interrupt 0 0 []

/-! ## The loop is the reference -/

/-- Rust failures as the reference reads them. -/
def failures (κ : Type) : Lib.Retry.Failures (IncidentError κ) where
  retryable := IncidentError.isRetryable
  hasStatus
    | .delivery f => f.statusCode != noStatusCode
    | _ => true
  annotate
    | .delivery f, attempts =>
      .delivery { f with message := f.message ++ s!" (after {attempts} attempts)" }
    | other, _ => other
  interrupted := .delivery interruptedFailure

theorem withAttemptCount_eq_final (e : IncidentError κ) (i : Nat) :
    withAttemptCount e (i + 1) = (failures κ).final e i := by
  cases e with
  | invalidRequest message => simp [withAttemptCount, Lib.Retry.Failures.final, failures]
  | clientClosed => simp [withAttemptCount, Lib.Retry.Failures.final, failures]
  | delivery f =>
    simp only [withAttemptCount, Lib.Retry.Failures.final, failures, bne_eq_false_iff_eq,
      Nat.succ_le_iff, gt_iff_lt, Nat.lt_add_left_iff_pos]
    split
    · simp [toString, String.append_assoc]
    · rfl

/-- The loop as it arrives at attempt `i`, every earlier attempt retried after its delay. -/
def loopFrom (delays : List Duration) (outcome : Nat → Except (IncidentError κ) α)
    (interrupt : Nat → Bool) (i : Nat) : Lib.Retry.Report α (IncidentError κ) Duration :=
  loop delays outcome interrupt i i (delays.take i)

theorem loop_implements (delays : List Duration) (outcome : Nat → Except (IncidentError κ) α)
    (interrupt : Nat → Bool) :
    Lib.Retry.Implements (failures κ) delays outcome interrupt
      (loopFrom delays outcome interrupt) where
  ok i value h := by rw [loopFrom, loop, h]
  fail i e h hend := by
    have hstop : (!e.isRetryable || decide (i ≥ delays.length)) = true := by
      simpa [failures] using hend
    rw [loopFrom, loop, h]
    simp only [hstop, dite_true, withAttemptCount_eq_final]
  stop i e h hr hi hw := by
    have hgo : ¬ (!e.isRetryable || decide (i ≥ delays.length)) = true := by
      simpa [failures] using And.intro hr hi
    rw [loopFrom, loop, h]
    dsimp only
    rw [dif_neg hgo, List.length_take_of_le hi.le, hw, if_pos rfl, List.take_append_getElem hi]
    rfl
  next i e h hr hi hw := by
    have hgo : ¬ (!e.isRetryable || decide (i ≥ delays.length)) = true := by
      simpa [failures] using And.intro hr hi
    rw [loopFrom, loop, h]
    dsimp only
    rw [dif_neg hgo, List.length_take_of_le hi.le, hw, if_neg Bool.false_ne_true,
      List.take_append_getElem hi]
    rfl

theorem executeWithRetry_eq_reference (delays : List Duration)
    (outcome : Nat → Except (IncidentError κ) α) (interrupt : Nat → Bool) :
    executeWithRetry delays outcome interrupt =
      Lib.Retry.reference (failures κ) delays outcome interrupt :=
  (loop_implements delays outcome interrupt).eq_reference

end Retry
end OppexSdk.Rust
