import OppexSdk.Lib.Retry

/-! # Bounded retries with any two error types

The retry loop of a language with exceptions: what an attempt throws need not be what the caller
gets, and whether the loop goes on is decided by what was thrown. The schedule is consumed one
delay at a time. `plan` is what all such loops have in common when everything else is forgotten:
from the kind of each outcome and the result of each wait, how often the operation is called and
which waits are requested. -/
namespace OppexSdk.Lib.Backoff
open OppexSdk.Lib.Retry (Report)

variable {α ε ε' δ : Type}

/-- How a loop reads what an attempt throws. -/
structure Policy (ε ε' : Type) where
  retryable : ε → Bool
  /-- What the caller gets when this was the last attempt of so many. -/
  final : ε → Nat → ε'
  /-- What the caller gets when a wait is cut short. -/
  interrupted : ε'

/-- The kinds of outcome. -/
inductive Kind
  | success
  | transient
  | permanent
  deriving DecidableEq

namespace Policy

def kind (P : Policy ε ε') : Except ε α → Kind
  | .ok _ => .success
  | .error e => if P.retryable e then .transient else .permanent

/-- The loop from attempt `i` on, with the delays that are left. -/
def reference (P : Policy ε ε') (outcome : Nat → Except ε α) (interrupt : Nat → Bool) :
    List δ → Nat → Report α ε' δ
  | delays, i =>
    match outcome i, delays with
    | .ok value, _ => ⟨i + 1, [], .ok value⟩
    | .error e, [] => ⟨i + 1, [], .error (P.final e (i + 1))⟩
    | .error e, delay :: rest =>
      if P.retryable e then
        if interrupt i then ⟨i + 1, [delay], .error P.interrupted⟩
        else
          let report := reference P outcome interrupt rest (i + 1)
          { report with waits := delay :: report.waits }
      else ⟨i + 1, [], .error (P.final e (i + 1))⟩

end Policy

/-- The calls made and the waits requested, from attempt `i` on. -/
def plan (kinds : Nat → Kind) (interrupt : Nat → Bool) : List δ → Nat → Nat × List δ
  | [], i => (i + 1, [])
  | delay :: rest, i =>
    if kinds i = .transient then
      if interrupt i then (i + 1, [delay])
      else ((plan kinds interrupt rest (i + 1)).1, delay :: (plan kinds interrupt rest (i + 1)).2)
    else (i + 1, [])

/-! ## Loops that implement the reference -/

/-- What a loop does on arriving at attempt `i` with every earlier attempt retried: `run i` is the
report of the whole loop, as it ends from there. -/
structure Implements (P : Policy ε ε') (delays : List δ) (outcome : Nat → Except ε α)
    (interrupt : Nat → Bool) (run : Nat → Report α ε' δ) : Prop where
  ok : ∀ i value, outcome i = .ok value → run i = ⟨i + 1, delays.take i, .ok value⟩
  fail : ∀ i e, outcome i = .error e → P.retryable e = false ∨ delays.length ≤ i →
    run i = ⟨i + 1, delays.take i, .error (P.final e (i + 1))⟩
  stop : ∀ i e, outcome i = .error e → P.retryable e = true → i < delays.length →
    interrupt i = true → run i = ⟨i + 1, delays.take (i + 1), .error P.interrupted⟩
  next : ∀ i e, outcome i = .error e → P.retryable e = true → i < delays.length →
    interrupt i = false → run i = run (i + 1)

/-- The failures of a loop that returns what it was given, as a policy. -/
def ofFailures (F : Retry.Failures ε) : Policy ε ε where
  retryable := F.retryable
  final e attempts := F.final e (attempts - 1)
  interrupted := F.interrupted

section
variable {P : Policy ε ε'} {delays : List δ} {outcome : Nat → Except ε α} {interrupt : Nat → Bool}
  {run : Nat → Report α ε' δ}

theorem Implements.ofRetry {F : Retry.Failures ε} {run : Nat → Report α ε δ}
    (h : Retry.Implements F delays outcome interrupt run) :
    Implements (ofFailures F) delays outcome interrupt run :=
  ⟨h.ok, h.fail, h.stop, h.next⟩

/-- From attempt `i` on the loop does what the reference does with the delays that are left. -/
theorem Implements.from_attempt (h : Implements P delays outcome interrupt run) {i : Nat}
    {rest : List δ} (hrest : delays.drop i = rest) (hi : i ≤ delays.length) :
    run i = ⟨(P.reference outcome interrupt rest i).calls,
      delays.take i ++ (P.reference outcome interrupt rest i).waits,
      (P.reference outcome interrupt rest i).result⟩ := by
  induction rest generalizing i with
  | nil =>
    have hlen : delays.length ≤ i := List.drop_eq_nil_iff.mp hrest
    cases ho : outcome i with
    | ok value => simp [h.ok i value ho, Policy.reference, ho]
    | error e => simp [h.fail i e ho (.inr hlen), Policy.reference, ho]
  | cons delay rest ih =>
    have hlt : i < delays.length := by
      rw [← List.drop_eq_nil_iff.not.trans Nat.not_le, hrest]
      exact List.cons_ne_nil _ _
    have hdrop := List.drop_eq_getElem_cons hlt
    rw [hrest] at hdrop
    obtain ⟨hdelay, hrest'⟩ := List.cons.inj hdrop
    have htake : delays.take (i + 1) = delays.take i ++ [delay] := by
      rw [hdelay, List.take_append_getElem hlt]
    cases ho : outcome i with
    | ok value => simp [h.ok i value ho, Policy.reference, ho]
    | error e =>
      cases hr : P.retryable e with
      | false => simp [h.fail i e ho (.inl hr), Policy.reference, ho, hr]
      | true =>
        cases hw : interrupt i with
        | true => simp [h.stop i e ho hr hlt hw, Policy.reference, ho, hr, hw, htake]
        | false =>
          rw [h.next i e ho hr hlt hw, ih hrest'.symm hlt, htake]
          simp [Policy.reference, ho, hr, hw]

/-- **An implementation of the four equations is the reference.** -/
theorem Implements.eq_reference (h : Implements P delays outcome interrupt run) :
    run 0 = P.reference outcome interrupt delays 0 := by
  rw [h.from_attempt (List.drop_zero) (Nat.zero_le _), List.take_zero, List.nil_append]

/-- The loop under a policy that reads a wrapped error as another reads what is in it. -/
theorem reference_mapError {η η' : Type} {Q : Policy η η'} {f : η → ε} {f' : η' → ε'}
    (hretryable : ∀ e, P.retryable (f e) = Q.retryable e)
    (hfinal : ∀ e i, P.final (f e) (i + 1) = f' (Q.final e (i + 1)))
    (hinterrupted : P.interrupted = f' Q.interrupted) {inner : Nat → Except η α}
    (houtcome : ∀ k, outcome k = (inner k).mapError f) (delays : List δ) (i : Nat) :
    P.reference outcome interrupt delays i =
      (Q.reference inner interrupt delays i).mapError f' := by
  induction delays generalizing i with
  | nil =>
    cases ho : inner i with
    | ok value => simp [Policy.reference, houtcome, ho, Except.mapError, Report.mapError]
    | error e => simp [Policy.reference, houtcome, ho, Except.mapError, Report.mapError, hfinal]
  | cons delay rest ih =>
    cases ho : inner i with
    | ok value => simp [Policy.reference, houtcome, ho, Except.mapError, Report.mapError]
    | error e =>
      have hsame := hretryable e
      have hout : outcome i = .error (f e) := by rw [houtcome, ho]; rfl
      cases hr : Q.retryable e with
      | false =>
        rw [hr] at hsame
        simp [Policy.reference, hout, ho, Except.mapError, Report.mapError, hr, hsame, hfinal]
      | true =>
        rw [hr] at hsame
        cases hw : interrupt i with
        | true =>
          simp [Policy.reference, hout, ho, Except.mapError, Report.mapError, hr, hsame, hw,
            hinterrupted]
        | false =>
          have hrest := ih (i + 1)
          simp [Policy.reference, hout, ho, Report.mapError, hr, hsame, hw, hrest]

/-! ## The plan -/

/-- What the reference calls and waits for is the plan. -/
theorem reference_plan (P : Policy ε ε') (outcome : Nat → Except ε α) (interrupt : Nat → Bool)
    (delays : List δ) (i : Nat) :
    ((P.reference outcome interrupt delays i).calls, (P.reference outcome interrupt delays i).waits) =
      plan (fun k => P.kind (outcome k)) interrupt delays i := by
  induction delays generalizing i with
  | nil => cases ho : outcome i <;> simp [Policy.reference, plan, ho]
  | cons delay rest ih =>
    cases ho : outcome i with
    | ok value => simp [Policy.reference, plan, Policy.kind, ho]
    | error e =>
      cases hr : P.retryable e with
      | false => simp [Policy.reference, plan, Policy.kind, ho, hr]
      | true =>
        cases hw : interrupt i with
        | true => simp [Policy.reference, plan, Policy.kind, ho, hr, hw]
        | false =>
          have hkind : P.kind (outcome i) = .transient := by
            rw [ho, Policy.kind, hr, if_pos rfl]
          rw [plan, if_pos hkind, hw, if_neg Bool.false_ne_true, ← ih (i + 1)]
          simp [Policy.reference, ho, hr, hw]

/-- The result of the reference is decided by the last call. -/
theorem reference_result (P : Policy ε ε') (outcome : Nat → Except ε α) (interrupt : Nat → Bool)
    (delays : List δ) (i : Nat) :
    ∃ last, (P.reference outcome interrupt delays i).calls = last + 1 ∧ i ≤ last ∧
      (P.reference outcome interrupt delays i).result =
        match outcome last with
        | .ok value => .ok value
        | .error e =>
          if P.retryable e = true ∧ last < i + delays.length then .error P.interrupted
          else .error (P.final e (last + 1)) := by
  induction delays generalizing i with
  | nil =>
    refine ⟨i, ?_, Nat.le_refl i, ?_⟩
    · cases ho : outcome i <;> simp [Policy.reference, ho]
    · cases ho : outcome i <;> simp [Policy.reference, ho]
  | cons delay rest ih =>
    cases ho : outcome i with
    | ok value => exact ⟨i, by simp [Policy.reference, ho], Nat.le_refl i, by simp [Policy.reference, ho]⟩
    | error e =>
      cases hr : P.retryable e with
      | false =>
        exact ⟨i, by simp [Policy.reference, ho, hr], Nat.le_refl i,
          by simp [Policy.reference, ho, hr]⟩
      | true =>
        cases hw : interrupt i with
        | true =>
          exact ⟨i, by simp [Policy.reference, ho, hr, hw], Nat.le_refl i,
            by simp [Policy.reference, ho, hr, hw]⟩
        | false =>
          obtain ⟨last, hcalls, hle, hresult⟩ := ih (i + 1)
          refine ⟨last, ?_, Nat.le_of_succ_le hle, ?_⟩
          · simpa [Policy.reference, ho, hr, hw] using hcalls
          · have hlen : i + 1 + rest.length = i + (delay :: rest).length := by
              rw [List.length_cons]
              omega
            rw [hlen] at hresult
            simpa [Policy.reference, ho, hr, hw] using hresult

/-- The loop succeeds when its last call does. -/
theorem reference_isOk (P : Policy ε ε') (outcome : Nat → Except ε α) (interrupt : Nat → Bool)
    (delays : List δ) :
    (P.reference outcome interrupt delays 0).result.isOk =
      decide (P.kind (outcome ((P.reference outcome interrupt delays 0).calls - 1)) = .success) := by
  obtain ⟨last, hcalls, -, hresult⟩ := reference_result P outcome interrupt delays 0
  rw [hresult, hcalls, Nat.add_sub_cancel]
  cases ho : outcome last with
  | ok value => rfl
  | error e =>
    have herror : ∀ x y : ε', (if P.retryable e = true ∧ last < 0 + delays.length then
        (Except.error x : Except ε' α) else .error y).isOk = false := by
      intro x y
      split <;> rfl
    simp only [herror, Policy.kind]
    split <;> rfl

end

section
variable (kinds : Nat → Kind) (interrupt : Nat → Bool) (delays : List δ) (i : Nat)

/-- A schedule of `n` delays allows `n + 1` calls. -/
theorem plan_calls_le : (plan kinds interrupt delays i).1 ≤ i + delays.length + 1 := by
  induction delays generalizing i with
  | nil => simp [plan]
  | cons delay rest ih =>
    have hnext := ih (i + 1)
    simp only [plan, List.length_cons]
    split
    · split
      · omega
      · omega
    · omega

/-- The waits are those of the schedule, from its start. -/
theorem plan_waits_prefix : (plan kinds interrupt delays i).2 <+: delays := by
  induction delays generalizing i with
  | nil => exact List.prefix_rfl
  | cons delay rest ih =>
    simp only [plan]
    split
    · split
      · exact ⟨rest, rfl⟩
      · exact (List.prefix_cons_inj delay).mpr (ih (i + 1))
    · exact List.nil_prefix

end

end OppexSdk.Lib.Backoff
