import OppexSdk.Cpp.RetryPolicy
import OppexSdk.DotNet.RetryPolicy
import OppexSdk.Go.Retry
import OppexSdk.Java.RetryExecutor
import OppexSdk.Python.RetryExecutor
import OppexSdk.Ruby.RetryExecutor

/-! # The retry loops of the SDKs, side by side

Each SDK has a retry loop in its own idiom: an error value, an exception, two kinds of exception,
and a context, a token or an interrupt flag that cuts a wait short. They are one reference with a
policy each, and what a policy decides about errors does not show in how often they call and how
long they wait. -/
namespace OppexSdk.Parity.Retries
open OppexSdk.Lib
open OppexSdk.Lib.Backoff (Kind plan ofFailures)
open OppexSdk.Lib.Retry (Report)
open OppexSdk.Python.JsonCodec (Raised)

variable {α ε κ : Type}

/-- **Five more loops are one reference.** For every schedule, every stream of attempts and every
stream of wait results, what the retry loops of Go, .NET, Ruby, Java and Python call, wait for and
return is the reference under the policy of the language; the metric of Java and Python counts the
waits. -/
theorem more_retry_loops_equal_reference (delays : List Nat) (interrupt : Nat → Bool) :
    (∀ (ctxErr : ε) (operation : Nat → Except (Go.Retry.Err ε) α),
      Go.Retry.retry ctxErr delays operation interrupt =
        (Go.Retry.policy ctxErr).reference operation interrupt delays 0) ∧
    (∀ (canceled : ε) (operation : Nat → Except (DotNet.RetryPolicy.Thrown ε) α),
      DotNet.RetryPolicy.executeAsync canceled delays operation interrupt =
        (DotNet.RetryPolicy.policy canceled).reference operation interrupt delays 0) ∧
    (∀ block : Nat → Except (Ruby.RetryExecutor.Raised ε) α,
      Ruby.RetryExecutor.execute delays block interrupt =
        Ruby.RetryExecutor.policy.reference block interrupt delays 0) ∧
    (∀ (operation : Nat → Except (Java.RetryExecutor.Thrown ε) α) (retried : Nat),
      Java.RetryExecutor.execute delays operation interrupt retried =
        (Java.RetryExecutor.policy.reference operation interrupt delays 0, retried +
          (Java.RetryExecutor.policy.reference operation interrupt delays 0).waits.length)) ∧
    (∀ (operation : Nat → Except Raised Python.JsonCodec.IncidentResponse)
      (m : Python.Posting.Metrics),
      Python.Posting.RetryExecutor.execute delays operation interrupt m =
        (Python.Posting.RetryExecutor.policy.reference operation interrupt delays 0,
          { m with retried := m.retried +
              (Python.Posting.RetryExecutor.policy.reference operation interrupt delays
                0).waits.length })) :=
  ⟨fun ctxErr operation => Go.Retry.retry_reference ctxErr delays operation interrupt,
    fun canceled operation =>
      DotNet.RetryPolicy.executeAsync_reference canceled delays operation interrupt,
    fun block => Ruby.RetryExecutor.execute_reference delays block interrupt,
    fun operation retried =>
      Java.RetryExecutor.execute_reference delays operation interrupt retried,
    fun operation m =>
      Python.Posting.RetryExecutor.execute_reference delays operation interrupt m⟩

theorem rust_reference (delays : List Nat) (outcome : Nat → Except (Rust.IncidentError κ) α)
    (interrupt : Nat → Bool) :
    Rust.Retry.executeWithRetry delays outcome interrupt =
      (ofFailures (Rust.Retry.failures κ)).reference outcome interrupt delays 0 :=
  (Backoff.Implements.ofRetry (Rust.Retry.loop_implements delays outcome interrupt)).eq_reference

theorem cpp_reference (delays : List Nat) (outcome : Nat → Except Cpp.IncidentError α)
    (interrupt : Nat → Bool) :
    Cpp.Retry.execute delays outcome interrupt =
      (ofFailures Cpp.Retry.failures).reference outcome interrupt delays 0 :=
  (Backoff.Implements.ofRetry (Cpp.Retry.loop_implements delays outcome interrupt)).eq_reference

/-- What a report shows of a plan: the calls, the waits, and whether the last call succeeded. -/
def Follows {ε : Type} (kinds : Nat → Kind) (p : Nat × List Nat) (r : Report α ε Nat) : Prop :=
  r.calls = p.1 ∧ r.waits = p.2 ∧ r.result.isOk = decide (kinds (p.1 - 1) = .success)

/-- Where every attempt has this kind, the reference follows the plan. -/
theorem reference_follows {ε ε' : Type} (P : Backoff.Policy ε ε') {outcome : Nat → Except ε α}
    {kinds : Nat → Kind} (hkinds : ∀ k, P.kind (outcome k) = kinds k) (interrupt : Nat → Bool)
    (delays : List Nat) :
    Follows kinds (plan kinds interrupt delays 0) (P.reference outcome interrupt delays 0) := by
  have hsame : (fun k => P.kind (outcome k)) = kinds := funext hkinds
  have hplan := Backoff.reference_plan P outcome interrupt delays 0
  rw [hsame] at hplan
  refine ⟨congrArg Prod.fst hplan, congrArg Prod.snd hplan, ?_⟩
  rw [Backoff.reference_isOk, ← hplan, hkinds]

/-- **The SDKs retry alike.** Give seven SDKs attempts of the same kinds (success, a failure that
may be retried, one that may not), the same schedule and the same interruptions. They make the same
number of calls, at most one more than the schedule is long; they wait for the same delays, the
first ones of the schedule; and all of them succeed or none does, as the last call did. -/
theorem sdks_retry_alike (delays : List Nat) (interrupt : Nat → Bool) (kinds : Nat → Kind)
    (rust : Nat → Except (Rust.IncidentError κ) α) (cpp : Nat → Except Cpp.IncidentError α)
    (ctxErr : ε) (go : Nat → Except (Go.Retry.Err ε) α)
    (dotnet : Nat → Except (DotNet.RetryPolicy.Thrown ε) α)
    (ruby : Nat → Except (Ruby.RetryExecutor.Raised ε) α)
    (java : Nat → Except (Java.RetryExecutor.Thrown ε) α) (retried : Nat)
    (python : Nat → Except Raised Python.JsonCodec.IncidentResponse) (m : Python.Posting.Metrics)
    (hrust : ∀ k, (ofFailures (Rust.Retry.failures κ)).kind (rust k) = kinds k)
    (hcpp : ∀ k, (ofFailures Cpp.Retry.failures).kind (cpp k) = kinds k)
    (hgo : ∀ k, (Go.Retry.policy ctxErr).kind (go k) = kinds k)
    (hdotnet : ∀ k, (DotNet.RetryPolicy.policy ctxErr).kind (dotnet k) = kinds k)
    (hruby : ∀ k, Ruby.RetryExecutor.policy.kind (ruby k) = kinds k)
    (hjava : ∀ k, Java.RetryExecutor.policy.kind (java k) = kinds k)
    (hpython : ∀ k, Python.Posting.RetryExecutor.policy.kind (python k) = kinds k) :
    ∃ p : Nat × List Nat, p.1 ≤ delays.length + 1 ∧ p.2 <+: delays ∧
      Follows kinds p (Rust.Retry.executeWithRetry delays rust interrupt) ∧
      Follows kinds p (Cpp.Retry.execute delays cpp interrupt) ∧
      Follows kinds p (Go.Retry.retry ctxErr delays go interrupt) ∧
      Follows kinds p (DotNet.RetryPolicy.executeAsync ctxErr delays dotnet interrupt) ∧
      Follows kinds p (Ruby.RetryExecutor.execute delays ruby interrupt) ∧
      Follows kinds p (Java.RetryExecutor.execute delays java interrupt retried).1 ∧
      (Java.RetryExecutor.execute delays java interrupt retried).2 = retried + p.2.length ∧
      Follows kinds p (Python.Posting.RetryExecutor.execute delays python interrupt m).1 ∧
      (Python.Posting.RetryExecutor.execute delays python interrupt m).2 =
        { m with retried := m.retried + p.2.length } := by
  have hle := Backoff.plan_calls_le kinds interrupt delays 0
  rw [Nat.zero_add] at hle
  refine ⟨plan kinds interrupt delays 0, hle, Backoff.plan_waits_prefix kinds interrupt delays 0,
    ?_, ?_, ?_, ?_, ?_, ?_, ?_, ?_, ?_⟩
  · rw [rust_reference]
    exact reference_follows _ hrust interrupt delays
  · rw [cpp_reference]
    exact reference_follows _ hcpp interrupt delays
  · rw [Go.Retry.retry_reference]
    exact reference_follows _ hgo interrupt delays
  · rw [DotNet.RetryPolicy.executeAsync_reference]
    exact reference_follows _ hdotnet interrupt delays
  · rw [Ruby.RetryExecutor.execute_reference]
    exact reference_follows _ hruby interrupt delays
  · rw [Java.RetryExecutor.execute_reference]
    exact reference_follows _ hjava interrupt delays
  · rw [Java.RetryExecutor.execute_reference, ← (reference_follows _ hjava interrupt delays).2.1]
  · rw [Python.Posting.RetryExecutor.execute_reference]
    exact reference_follows _ hpython interrupt delays
  · rw [Python.Posting.RetryExecutor.execute_reference,
      ← (reference_follows _ hpython interrupt delays).2.1]
    rfl

/-- A first attempt that may be retried and a second that succeeds. -/
def onceMore : Nat → Kind
  | 0 => .transient
  | _ => .success

/-- Attempts of these kinds. -/
def attempts {ε : Type} (failure : ε) (value : α) : Nat → Except ε α
  | 0 => .error failure
  | _ => .ok value

theorem attempts_onceMore {ε ε' : Type} (P : Backoff.Policy ε ε') {failure : ε} {value : α}
    (h : P.retryable failure = true) (k : Nat) : P.kind (attempts failure value k) = onceMore k := by
  cases k with
  | zero => exact if_pos h
  | succ k => rfl

/-- With two delays, every SDK calls twice and waits once. -/
theorem sdks_retry_alike_once_more : ∃ p : Nat × List Nat, p.1 ≤ 3 ∧ p.2 <+: [500, 1000] ∧
    Follows onceMore p (Rust.Retry.executeWithRetry [500, 1000]
      (attempts (.delivery ⟨"connection refused", -1, true, none⟩ : Rust.IncidentError Unit) ())
      fun _ => false) ∧
    Follows onceMore p (Java.RetryExecutor.execute [500, 1000]
      (attempts (.io false : Java.RetryExecutor.Thrown Unit) ()) (fun _ => false) 0).1 ∧
    Follows onceMore p (Python.Posting.RetryExecutor.execute [500, 1000]
      (attempts .transportError ⟨true, 200, none, none⟩) (fun _ => false) ⟨0, 0, 0, 0⟩).1 := by
  obtain ⟨p, hcalls, hwaits, hrust, -, -, -, -, hjava, -, hpython, -⟩ :=
    sdks_retry_alike [500, 1000] (fun _ => false) onceMore
      (attempts (.delivery ⟨"connection refused", -1, true, none⟩ : Rust.IncidentError Unit) ())
      (attempts (.new .kDelivery (bytes "timed out") (-1) true) ())
      () (attempts (.incident ⟨bytes "timed out", -1, true, none⟩) ())
      (attempts (.incident ⟨bytes "timed out", -1, true, none⟩) ())
      (attempts (.incident ⟨bytes "timed out", -1, true, none⟩) ())
      (attempts (.io false) ()) 0
      (attempts .transportError ⟨true, 200, none, none⟩)
      ⟨0, 0, 0, 0⟩
      (attempts_onceMore _ rfl) (attempts_onceMore _ rfl) (attempts_onceMore _ rfl)
      (attempts_onceMore _ rfl) (attempts_onceMore _ rfl) (attempts_onceMore _ rfl)
      (attempts_onceMore _ rfl)
  exact ⟨p, hcalls, hwaits, hrust, hjava, hpython⟩

end OppexSdk.Parity.Retries
