import Mathlib.Data.List.TakeWhile
import OppexSdk.Lib.Bytes
import OppexSdk.Rust.Retry

/-! # The C++ error type and retry loop

`IncidentError` of `cpp/include/oppex/oppex.hpp` and `cpp/src/retry_policy.cpp`. A throwing
function returns `Except IncidentError`. The text of a `std::runtime_error` can only be read
through `what()`, a C string, so the model keeps that string: a message ends at its first NUL. -/
namespace OppexSdk.Cpp
open OppexSdk.Lib

/-- The bytes before the first NUL. -/
def cString (s : Bytes) : Bytes := s.takeWhile (· ≠ 0)

theorem zero_notMem_cString (s : Bytes) : 0 ∉ cString s := fun h => by
  simpa using List.mem_takeWhile_imp h

theorem cString_eq_self {s : Bytes} (h : 0 ∉ s) : cString s = s :=
  List.takeWhile_eq_self_iff.mpr fun b hb => by
    have hne : b ≠ 0 := fun he => h (he ▸ hb)
    simpa using hne

inductive ErrorKind
  | kInvalidRequest
  | kClientClosed
  | kDelivery
  deriving DecidableEq

def kNoStatusCode : Int := -1

structure IncidentError where
  kind : ErrorKind
  /-- What `what()` returns. -/
  what : Bytes
  statusCode : Int
  retryable : Bool
  /-- It is a C string. -/
  noNul : 0 ∉ what
  deriving DecidableEq

namespace IncidentError

/-- The constructor. Without a status and a retryable flag its defaults apply. -/
def new (kind : ErrorKind) (message : Bytes) (statusCode : Int := kNoStatusCode)
    (retryable : Bool := false) : IncidentError :=
  ⟨kind, cString message, statusCode, retryable, zero_notMem_cString message⟩

def hasHttpStatus (e : IncidentError) : Bool := e.statusCode != kNoStatusCode

end IncidentError

namespace Retry

/-- A delay in milliseconds. -/
abbrev Milliseconds := Nat

def defaultDelays : List Milliseconds := [500, 1000, 2000, 4000, 8000]

def isRetryableStatus (status : Int) : Bool :=
  status == 429 || status == 500 || status == 502 || status == 503 || status == 504

/-- `RethrowWithAttemptCount`: the error it throws. -/
def rethrowWithAttemptCount (failure : IncidentError) (attempts : Nat) : IncidentError :=
  if failure.hasHttpStatus || attempts < 2 then failure
  else .new failure.kind
    (failure.what ++ bytes " (after " ++ decimal attempts ++ bytes " attempts)")
    failure.statusCode failure.retryable

def interruptedError : IncidentError :=
  .new .kDelivery (bytes "incident delivery was interrupted during retry")

variable {α : Type}

/-- The `for` loop of `Execute`, with the waits requested so far. It calls the operation once for
each value of `attempt`. -/
def loop (delays : List Milliseconds) (outcome : Nat → Except IncidentError α)
    (interrupt : Nat → Bool) (attempt : Nat) (waits : List Milliseconds) :
    Lib.Retry.Report α IncidentError Milliseconds :=
  match outcome attempt with
  | .ok response => ⟨attempt + 1, waits, .ok response⟩
  | .error failure =>
    if h : !failure.retryable || attempt ≥ delays.length then
      ⟨attempt + 1, waits, .error (rethrowWithAttemptCount failure (attempt + 1))⟩
    else
      have hlt : attempt < delays.length := by simp at h; exact h.2
      if interrupt waits.length then
        ⟨attempt + 1, waits ++ [delays[attempt]], .error interruptedError⟩
      else loop delays outcome interrupt (attempt + 1) (waits ++ [delays[attempt]])
termination_by delays.length - attempt

def execute (delays : List Milliseconds) (outcome : Nat → Except IncidentError α)
    (interrupt : Nat → Bool) : Lib.Retry.Report α IncidentError Milliseconds :=
  loop delays outcome interrupt 0 []

/-! ## The loop is the reference -/

/-- The note on a failure that took several attempts. -/
def attemptNote (attempts : Nat) : Bytes :=
  bytes " (after " ++ decimal attempts ++ bytes " attempts)"

theorem zero_notMem_attemptNote (attempts : Nat) : 0 ∉ attemptNote attempts := by
  have hopen : (0 : UInt8) ∉ bytes " (after " := by decide
  have hclose : (0 : UInt8) ∉ bytes " attempts)" := by decide
  simp only [attemptNote, List.mem_append, not_or]
  exact ⟨⟨hopen, zero_notMem_decimal attempts⟩, hclose⟩

/-- C++ failures as the reference reads them. -/
def failures : Lib.Retry.Failures IncidentError where
  retryable e := e.retryable
  hasStatus := IncidentError.hasHttpStatus
  annotate e attempts :=
    { e with
      what := e.what ++ attemptNote attempts
      noNul := by simp [e.noNul, zero_notMem_attemptNote] }
  interrupted := interruptedError

theorem rethrowWithAttemptCount_eq_final (e : IncidentError) (i : Nat) :
    rethrowWithAttemptCount e (i + 1) = failures.final e i := by
  unfold rethrowWithAttemptCount Lib.Retry.Failures.final
  by_cases hnote : e.hasHttpStatus = false ∧ 1 ≤ i
  · have hwhat : 0 ∉ e.what ++ attemptNote (i + 1) := by
      simp [e.noNul, zero_notMem_attemptNote]
    have hno : ¬ (e.hasHttpStatus || decide (i + 1 < 2)) = true := by
      simp only [hnote.1, Bool.false_or, decide_eq_true_eq]; omega
    have htext : e.what ++ bytes " (after " ++ decimal (i + 1) ++ bytes " attempts)" =
        e.what ++ attemptNote (i + 1) := by simp [attemptNote]
    rw [if_neg hno, if_pos (show failures.hasStatus e = false ∧ 1 ≤ i from hnote), htext]
    simp [IncidentError.new, failures, cString_eq_self hwhat]
  · have hyes : (e.hasHttpStatus || decide (i + 1 < 2)) = true := by
      simp only [Bool.or_eq_true, decide_eq_true_eq]
      by_contra h
      simp only [not_or, Bool.not_eq_true] at h
      exact hnote ⟨h.1, by omega⟩
    rw [if_pos hyes]
    exact (if_neg hnote).symm

/-- The loop as it arrives at attempt `i`, every earlier attempt retried after its delay. -/
def loopFrom (delays : List Milliseconds) (outcome : Nat → Except IncidentError α)
    (interrupt : Nat → Bool) (i : Nat) : Lib.Retry.Report α IncidentError Milliseconds :=
  loop delays outcome interrupt i (delays.take i)

theorem loop_implements (delays : List Milliseconds) (outcome : Nat → Except IncidentError α)
    (interrupt : Nat → Bool) :
    Lib.Retry.Implements failures delays outcome interrupt
      (loopFrom delays outcome interrupt) where
  ok i value h := by rw [loopFrom, loop, h]
  fail i e h hend := by
    have hstop : (!e.retryable || decide (i ≥ delays.length)) = true := by
      simpa [failures] using hend
    rw [loopFrom, loop, h]
    simp only [hstop, dite_true, rethrowWithAttemptCount_eq_final]
  stop i e h hr hi hw := by
    have hgo : ¬ (!e.retryable || decide (i ≥ delays.length)) = true := by
      simpa [failures] using And.intro hr hi
    rw [loopFrom, loop, h]
    dsimp only
    rw [dif_neg hgo, List.length_take_of_le hi.le, hw, if_pos rfl, List.take_append_getElem hi]
    rfl
  next i e h hr hi hw := by
    have hgo : ¬ (!e.retryable || decide (i ≥ delays.length)) = true := by
      simpa [failures] using And.intro hr hi
    rw [loopFrom, loop, h]
    dsimp only
    rw [dif_neg hgo, List.length_take_of_le hi.le, hw, if_neg Bool.false_ne_true,
      List.take_append_getElem hi]
    rfl

theorem execute_eq_reference (delays : List Milliseconds)
    (outcome : Nat → Except IncidentError α) (interrupt : Nat → Bool) :
    execute delays outcome interrupt =
      Lib.Retry.reference failures delays outcome interrupt :=
  (loop_implements delays outcome interrupt).eq_reference

/-- **Both retry loops are the reference,** for every list of delays, every stream of attempts and
every stream of wait results: what they call, what they wait for and what they return. -/
theorem retry_loops_equal_reference {κ : Type} (delays : List Nat) (interrupt : Nat → Bool)
    (rustOutcome : Nat → Except (Rust.IncidentError κ) α)
    (cppOutcome : Nat → Except IncidentError α) :
    Rust.Retry.executeWithRetry delays rustOutcome interrupt =
        Lib.Retry.reference (Rust.Retry.failures κ) delays rustOutcome interrupt ∧
      execute delays cppOutcome interrupt =
        Lib.Retry.reference failures delays cppOutcome interrupt :=
  ⟨Rust.Retry.executeWithRetry_eq_reference delays rustOutcome interrupt,
    execute_eq_reference delays cppOutcome interrupt⟩

end Retry
end OppexSdk.Cpp
