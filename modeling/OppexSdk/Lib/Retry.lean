import Mathlib.Order.Nat
import Mathlib.Data.Nat.Find

/-! # Bounded retries, as a reference

What a retry loop over a list of delays is for, said without a loop: the attempts and the waits
between them are two streams, and the first index at which there is a reason to stop decides
everything the loop does. `eq_reference` is the rule for an implementation: four equations that
say what its loop does when it arrives at attempt `i`. -/
namespace OppexSdk.Lib.Retry

variable {α ε δ : Type}

/-- How a failure type reads to a retry loop. -/
structure Failures (ε : Type) where
  retryable : ε → Bool
  hasStatus : ε → Bool
  /-- The failure with a note of how many attempts were made. -/
  annotate : ε → Nat → ε
  /-- What the caller gets when a wait was interrupted. -/
  interrupted : ε

/-- What a loop did: how often it called the operation, the waits it requested, its result. -/
structure Report (α ε δ : Type) where
  calls : Nat
  waits : List δ
  result : Except ε α

/-- The report to a caller who sees the error otherwise. -/
def Report.mapError {η : Type} (f : ε → η) (r : Report α ε δ) : Report α η δ :=
  ⟨r.calls, r.waits, r.result.mapError f⟩

section
variable (F : Failures ε) (delays : List δ) (outcome : Nat → Except ε α) (interrupt : Nat → Bool)

/-- There is a reason to stop at attempt `i`: it succeeded, its failure is not retryable, the
delays are used up, or the wait after it was interrupted. -/
def Stops (i : Nat) : Prop :=
  (outcome i).isOk = true ∨ (∃ e, outcome i = .error e ∧ F.retryable e = false) ∨
    i = delays.length ∨ interrupt i = true

instance Stops.decidable (i : Nat) : Decidable (Stops F delays outcome interrupt i) :=
  have : Decidable (∃ e, outcome i = .error e ∧ F.retryable e = false) :=
    match h : outcome i with
    | .ok _ => .isFalse fun ⟨_, he, _⟩ => by cases he
    | .error e => decidable_of_iff (F.retryable e = false)
        ⟨fun hr => ⟨e, rfl, hr⟩, fun ⟨_, he, hr⟩ => by cases he; exact hr⟩
  inferInstanceAs (Decidable (_ ∨ _ ∨ _ ∨ _))

theorem exists_stops : ∃ i, Stops F delays outcome interrupt i :=
  ⟨delays.length, .inr (.inr (.inl rfl))⟩

/-- The least index at which there is a reason to stop. -/
def lastAttempt : Nat := Nat.find (exists_stops F delays outcome interrupt)

/-- The failure as the caller sees it: annotated when no status arrived and there was more than
one attempt. -/
def Failures.final (e : ε) (i : Nat) : ε :=
  if F.hasStatus e = false ∧ 1 ≤ i then F.annotate e (i + 1) else e

/-- The result after the last attempt `i`, and whether the wait after it was requested. -/
def resultAt (i : Nat) : Except ε α × Bool :=
  match outcome i with
  | .ok value => (.ok value, false)
  | .error e =>
    if F.retryable e = true ∧ i < delays.length ∧ interrupt i = true then
      (.error F.interrupted, true)
    else (.error (F.final e i), false)

def reference : Report α ε δ :=
  let i := lastAttempt F delays outcome interrupt
  let (result, waited) := resultAt F delays outcome interrupt i
  { calls := i + 1
    waits := if waited then delays.take (i + 1) else delays.take i
    result := result }

end

section
variable {F : Failures ε} {delays : List δ} {outcome : Nat → Except ε α} {interrupt : Nat → Bool}

theorem lastAttempt_eq {i : Nat} (hi : Stops F delays outcome interrupt i)
    (hlt : ∀ j < i, ¬ Stops F delays outcome interrupt j) :
    lastAttempt F delays outcome interrupt = i :=
  (Nat.find_eq_iff _).mpr ⟨hi, hlt⟩

/-- With a reason to stop at `i` and none before, the reference is what happens at `i`. -/
theorem reference_eq {i : Nat} (hi : Stops F delays outcome interrupt i)
    (hlt : ∀ j < i, ¬ Stops F delays outcome interrupt j) :
    reference F delays outcome interrupt =
      { calls := i + 1
        waits := if (resultAt F delays outcome interrupt i).2 then delays.take (i + 1)
          else delays.take i
        result := (resultAt F delays outcome interrupt i).1 } := by
  unfold reference
  rw [lastAttempt_eq hi hlt]

/-- Once there is a reason to stop, the operation is not called again. -/
theorem reference_calls_le {i : Nat} (hi : Stops F delays outcome interrupt i) :
    (reference F delays outcome interrupt).calls ≤ i + 1 :=
  Nat.succ_le_succ (Nat.find_min' _ hi)

/-- What a loop does on arriving at attempt `i` with every earlier attempt retried: `run i` is the
report of the whole loop, as it ends from there. -/
structure Implements (F : Failures ε) (delays : List δ) (outcome : Nat → Except ε α)
    (interrupt : Nat → Bool) (run : Nat → Report α ε δ) : Prop where
  ok : ∀ i value, outcome i = .ok value → run i = ⟨i + 1, delays.take i, .ok value⟩
  fail : ∀ i e, outcome i = .error e → F.retryable e = false ∨ delays.length ≤ i →
    run i = ⟨i + 1, delays.take i, .error (F.final e i)⟩
  stop : ∀ i e, outcome i = .error e → F.retryable e = true → i < delays.length →
    interrupt i = true → run i = ⟨i + 1, delays.take (i + 1), .error F.interrupted⟩
  next : ∀ i e, outcome i = .error e → F.retryable e = true → i < delays.length →
    interrupt i = false → run i = run (i + 1)

variable {run : Nat → Report α ε δ}

/-- Where there is a reason to stop, the loop stops with the reference's report. -/
theorem Implements.at_stop (h : Implements F delays outcome interrupt run) {i : Nat}
    (hi : Stops F delays outcome interrupt i) :
    run i =
      { calls := i + 1
        waits := if (resultAt F delays outcome interrupt i).2 then delays.take (i + 1)
          else delays.take i
        result := (resultAt F delays outcome interrupt i).1 } := by
  cases ho : outcome i with
  | ok value => simp [h.ok i value ho, resultAt, ho]
  | error e =>
    by_cases hint : F.retryable e = true ∧ i < delays.length ∧ interrupt i = true
    · simp [h.stop i e ho hint.1 hint.2.1 hint.2.2, resultAt, ho, hint]
    · have hend : F.retryable e = false ∨ delays.length ≤ i := by
        rcases hi with hok | ⟨e', he', hr⟩ | heq | hw
        · rw [ho] at hok; cases hok
        · rw [ho] at he'; cases he'; exact .inl hr
        · exact .inr heq.ge
        · by_contra hno
          rw [not_or, Bool.not_eq_false, Nat.not_le] at hno
          exact hint ⟨hno.1, hno.2, hw⟩
      simp [h.fail i e ho hend, resultAt, ho, hint]

/-- Where there is none, it goes on. -/
theorem Implements.at_next (h : Implements F delays outcome interrupt run) {i : Nat}
    (hi : ¬ Stops F delays outcome interrupt i) (hle : i ≤ delays.length) :
    i < delays.length ∧ run i = run (i + 1) := by
  simp only [Stops, not_or] at hi
  obtain ⟨hok, herr, hne, hw⟩ := hi
  have hlt : i < delays.length := Nat.lt_of_le_of_ne hle hne
  cases ho : outcome i with
  | ok value => rw [ho] at hok; exact absurd rfl hok
  | error e =>
    have hr : F.retryable e = true := by
      by_contra hr; exact herr ⟨e, ho, by simpa using hr⟩
    exact ⟨hlt, h.next i e ho hr hlt (by simpa using hw)⟩

/-- **An implementation of the four equations is the reference.** -/
theorem Implements.eq_reference (h : Implements F delays outcome interrupt run) :
    run 0 = reference F delays outcome interrupt := by
  -- from any attempt with none of the earlier ones a reason to stop, by the delays left
  have go : ∀ k i, delays.length - i = k → i ≤ delays.length →
      (∀ j < i, ¬ Stops F delays outcome interrupt j) →
      run i = reference F delays outcome interrupt := by
    intro k
    induction k with
    | zero =>
      intro i hk hle hlt
      have hi : Stops F delays outcome interrupt i := .inr (.inr (.inl (by omega)))
      rw [h.at_stop hi, reference_eq hi hlt]
    | succ k ih =>
      intro i hk hle hlt
      by_cases hi : Stops F delays outcome interrupt i
      · rw [h.at_stop hi, reference_eq hi hlt]
      · obtain ⟨hlen, hnext⟩ := h.at_next hi hle
        rw [hnext]
        refine ih (i + 1) (by omega) hlen ?_
        intro j hj
        rcases Nat.lt_succ_iff_lt_or_eq.mp hj with hj | rfl
        · exact hlt j hj
        · exact hi
  exact go delays.length 0 rfl (Nat.zero_le _) fun j hj => absurd hj (Nat.not_lt_zero j)

end
end OppexSdk.Lib.Retry
