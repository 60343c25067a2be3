import OppexSdk.Lib.Backoff
import OppexSdk.Lib.Simulation

/-! # Retry loops around a one-way latch

Any number of loops, each making attempts under one policy and one schedule, and a latch that
somebody sets and nobody clears. Between two attempts a loop waits for the delay or for the latch.
Of a loop the machine keeps only where it is; what it has met is read off the events of a run.
Whatever the interleaving, a loop that has ended reports what `Policy.reference` computes from what
it met, and once the latch is set a loop begins one more attempt at most. -/
namespace OppexSdk.Lib.Latch
open OppexSdk.Lib.Backoff OppexSdk.Lib.Transition OppexSdk.Lib.Simulation
open OppexSdk.Lib.Retry (Report)

variable {ι α ε ε' δ : Type} [DecidableEq ι]

inductive Phase (ρ : Type)
  | outside
  | calling (attempt : Nat)
  | sending (attempt : Nat)
  | waiting (attempt : Nat)
  | ended (result : ρ)

structure Loops (ι ρ : Type) where
  signalled : Bool
  phase : ι → Phase ρ

def new {ρ : Type} : Loops ι ρ := ⟨false, fun _ => .outside⟩

def Loops.set {ρ : Type} (s : Loops ι ρ) (d : ι) (p : Phase ρ) : Loops ι ρ :=
  { s with phase := Function.update s.phase d p }

@[simp] theorem Loops.set_signalled {ρ : Type} (s : Loops ι ρ) (d : ι) (p : Phase ρ) :
    (s.set d p).signalled = s.signalled := rfl

@[simp] theorem Loops.set_phase {ρ : Type} (s : Loops ι ρ) (d : ι) (p : Phase ρ) :
    (s.set d p).phase = Function.update s.phase d p := rfl

inductive Event (ι ε α δ : Type)
  | signal
  | begin (d : ι)
  | attempt (d : ι)
  | complete (d : ι) (outcome : Except ε α)
  /-- A wait for `delay` has come to an end. -/
  | wait (d : ι) (delay : δ) (interrupted : Bool)

/-- Where a loop is when its attempt `i` has come to an end. -/
def after (P : Policy ε ε') (delays : List δ) (i : Nat) : Except ε α → Phase (Except ε' α)
  | .ok value => .ended (.ok value)
  | .error e =>
    if P.retryable e = true ∧ i < delays.length then .waiting i
    else .ended (.error (P.final e (i + 1)))

/-- Where a loop is when the wait after attempt `i` has come to an end. -/
def resumed (P : Policy ε ε') (i : Nat) (interrupted : Bool) : Phase (Except ε' α) :=
  if interrupted then .ended (.error P.interrupted) else .calling (i + 1)

def step [DecidableEq δ] (P : Policy ε ε') (delays : List δ) (s : Loops ι (Except ε' α)) :
    Event ι ε α δ → Option (Loops ι (Except ε' α))
  | .signal => some { s with signalled := true }
  | .begin d =>
    match s.phase d with
    | .outside => some (s.set d (.calling 0))
    | _ => none
  | .attempt d =>
    match s.phase d with
    | .calling i => some (s.set d (.sending i))
    | _ => none
  | .complete d outcome =>
    match s.phase d with
    | .sending i => some (s.set d (after P delays i outcome))
    | _ => none
  | .wait d delay interrupted =>
    match s.phase d with
    | .waiting i =>
      if delays[i]? = some delay ∧ interrupted = s.signalled then
        some (s.set d (resumed P i interrupted))
      else none
    | _ => none

/-- All that a step can do. -/
inductive Moves (P : Policy ε ε') (delays : List δ) (s : Loops ι (Except ε' α)) :
    Event ι ε α δ → Loops ι (Except ε' α) → Prop
  | signal : Moves P delays s .signal { s with signalled := true }
  | begin {d} : s.phase d = .outside → Moves P delays s (.begin d) (s.set d (.calling 0))
  | attempt {d i} : s.phase d = .calling i → Moves P delays s (.attempt d) (s.set d (.sending i))
  | complete {d i} (outcome) : s.phase d = .sending i →
      Moves P delays s (.complete d outcome) (s.set d (after P delays i outcome))
  | wait {d i} {delay : δ} : s.phase d = .waiting i → delays[i]? = some delay →
      Moves P delays s (.wait d delay s.signalled) (s.set d (resumed P i s.signalled))

section
variable [DecidableEq δ] {P : Policy ε ε'} {delays : List δ} {s t : Loops ι (Except ε' α)}
  {e : Event ι ε α δ}

theorem step_moves (h : step P delays s e = some t) : Moves P delays s e t := by
  cases e with
  | signal => cases h; exact .signal
  | begin d =>
    simp only [step] at h
    split at h
    · rename_i hd
      cases h; exact .begin hd
    · cases h
  | attempt d =>
    simp only [step] at h
    split at h
    · rename_i hd
      cases h; exact .attempt hd
    · cases h
  | complete d outcome =>
    simp only [step] at h
    split at h
    · rename_i hd
      cases h; exact .complete outcome hd
    · cases h
  | wait d delay interrupted =>
    simp only [step] at h
    split at h
    · rename_i hd
      split at h
      · rename_i hboth
        cases h
        obtain ⟨hdelay, rfl⟩ := hboth
        exact .wait hd hdelay
      · cases h
    · cases h

/-- And a step can do all of it. -/
theorem step_of_moves (h : Moves P delays s e t) : step P delays s e = some t := by
  cases h with
  | signal => rfl
  | begin hd => simp only [step, hd]
  | attempt hd => simp only [step, hd]
  | complete _ hd => simp only [step, hd]
  | wait hd hdelay => simp only [step, hd, hdelay, and_self, if_true]

theorem signalled_step (h : step P delays s e = some t) (hs : s.signalled = true) :
    t.signalled = true := by
  cases step_moves h with
  | signal => rfl
  | _ => exact hs

end

/-! ## What a loop has met -/

/-- The outcomes of the attempts of `d`, in their order. -/
def outcomes (es : List (Event ι ε α δ)) (d : ι) : List (Except ε α) :=
  es.filterMap fun
    | .complete e outcome => if e = d then some outcome else none
    | _ => none

/-- What the waits of `d` returned, in their order. -/
def waits (es : List (Event ι ε α δ)) (d : ι) : List Bool :=
  es.filterMap fun
    | .wait e _ interrupted => if e = d then some interrupted else none
    | _ => none

/-- What the waits of `d` were for, in their order. -/
def requested (es : List (Event ι ε α δ)) (d : ι) : List δ :=
  es.filterMap fun
    | .wait e delay _ => if e = d then some delay else none
    | _ => none

def Event.isAttemptOf (d : ι) : Event ι ε α δ → Bool
  | .attempt e => decide (e = d)
  | _ => false

/-- How many attempts `d` has begun. -/
def attempts (es : List (Event ι ε α δ)) (d : ι) : Nat := es.countP (Event.isAttemptOf d)

theorem attempts_append (es fs : List (Event ι ε α δ)) (d : ι) :
    attempts (es ++ fs) d = attempts es d + attempts fs d := List.countP_append

theorem outcomes_append (es fs : List (Event ι ε α δ)) (d : ι) :
    outcomes (es ++ fs) d = outcomes es d ++ outcomes fs d := List.filterMap_append

theorem requested_append (es fs : List (Event ι ε α δ)) (d : ι) :
    requested (es ++ fs) d = requested es d ++ requested fs d := List.filterMap_append

theorem waits_append (es fs : List (Event ι ε α δ)) (d : ι) :
    waits (es ++ fs) d = waits es d ++ waits fs d := List.filterMap_append

/-- A stream that begins with a list. -/
def Extends {β : Type} (l : List β) (f : Nat → β) : Prop := ∀ i x, l[i]? = some x → f i = x

theorem extends_const {β : Type} {l : List β} {x : β} (h : ∀ y ∈ l, y = x) :
    Extends l fun _ => x := fun _ y hy => (h y (List.mem_of_getElem? hy)).symm

theorem Extends.snoc {β : Type} {l : List β} {x : β} {f : Nat → β} (h : Extends (l ++ [x]) f) :
    Extends l f ∧ f l.length = x := by
  refine ⟨fun i y hy => h i y ?_, h l.length x ?_⟩
  · rw [List.getElem?_append_left (List.getElem?_eq_some_iff.mp hy).1]
    exact hy
  · rw [List.getElem?_append_right (Nat.le_refl _), Nat.sub_self]
    rfl

/-- The report of a loop that arrives at attempt `i` after all the waits before it. -/
def arriving (P : Policy ε ε') (delays : List δ) (outcome : Nat → Except ε α)
    (interrupt : Nat → Bool) (i : Nat) : Report α ε' δ :=
  let report := P.reference outcome interrupt (delays.drop i) i
  { report with waits := delays.take i ++ report.waits }

section
variable {P : Policy ε ε'} {delays : List δ} {outcome : Nat → Except ε α} {interrupt : Nat → Bool}

theorem arriving_implements : Implements P delays outcome interrupt
    (arriving P delays outcome interrupt) where
  ok i value h := by
    unfold arriving
    cases hrest : delays.drop i with
    | nil => simp [Policy.reference, h]
    | cons delay rest => simp [Policy.reference, h]
  fail i e h hend := by
    unfold arriving
    cases hrest : delays.drop i with
    | nil => simp [Policy.reference, h]
    | cons delay rest =>
      have hlt : i < delays.length := by
        rw [← List.drop_eq_nil_iff.not.trans Nat.not_le, hrest]
        exact List.cons_ne_nil _ _
      have hr := hend.resolve_right (Nat.not_le.mpr hlt)
      simp [Policy.reference, h, hr]
  stop i e h hr hi hw := by
    rw [arriving, List.drop_eq_getElem_cons hi, ← List.take_append_getElem hi]
    generalize delays[i] = delay
    simp [Policy.reference, h, hr, hw]
  next i e h hr hi hw := by
    rw [arriving, arriving, List.drop_eq_getElem_cons hi, ← List.take_append_getElem hi]
    generalize delays[i] = delay
    simp [Policy.reference, h, hr, hw]

end

/-- A loop that has gone through `i` attempts and the `i` waits after them. -/
structure Arrives (P : Policy ε ε') (delays : List δ) (os : List (Except ε α)) (ws : List Bool)
    (i : Nat) : Prop where
  outcomes : os.length = i
  waits : ws.length = i
  scheduled : i ≤ delays.length
  reference : ∀ outcome interrupt, Extends os outcome → Extends ws interrupt →
    P.reference outcome interrupt delays 0 = arriving P delays outcome interrupt i

/-- What a loop has met, by where it is: the outcomes, the results of the waits and the number of
attempts begun. Whatever would have come next, the reference agrees so far. -/
inductive Follows (P : Policy ε ε') (delays : List δ) :
    Phase (Except ε' α) → List (Except ε α) → List Bool → Nat → Prop
  | outside : Follows P delays .outside [] [] 0
  | calling {os ws i} : Arrives P delays os ws i → Follows P delays (.calling i) os ws i
  | sending {os ws i} : Arrives P delays os ws i → Follows P delays (.sending i) os ws (i + 1)
  | waiting {os ws i e} : Arrives P delays os ws i → P.retryable e = true → i < delays.length →
      Follows P delays (.waiting i) (os ++ [.error e]) ws (i + 1)
  | ended {os ws r} : (∀ outcome interrupt, Extends os outcome → Extends ws interrupt →
      P.reference outcome interrupt delays 0 = ⟨os.length, delays.take ws.length, r⟩) →
      Follows P delays (.ended r) os ws os.length

section
variable {P : Policy ε ε'} {delays : List δ} {os : List (Except ε α)} {ws : List Bool} {i n : Nat}

theorem Follows.begin : Follows (α := α) P delays (.calling 0) [] [] 0 :=
  .calling ⟨rfl, rfl, Nat.zero_le _, fun _ _ _ _ => rfl⟩

/-- An attempt comes to an end. -/
theorem Arrives.complete (h : Arrives P delays os ws i) (outcome : Except ε α) :
    Follows P delays (after P delays i outcome) (os ++ [outcome]) ws (i + 1) := by
  have hlen : (os ++ [outcome]).length = i + 1 := by rw [List.length_append, h.outcomes]; rfl
  cases outcome with
  | ok value =>
    rw [← hlen]
    refine .ended fun outcome interrupt ho hw => ?_
    obtain ⟨ho, hi⟩ := ho.snoc
    rw [h.outcomes] at hi
    rw [h.reference _ _ ho hw, arriving_implements.ok i value hi, hlen, h.waits]
  | error e =>
    simp only [after]
    split
    · rename_i hgo
      exact .waiting h hgo.1 hgo.2
    · rename_i hstop
      rw [← hlen]
      refine .ended fun outcome interrupt ho hw => ?_
      obtain ⟨ho, hi⟩ := ho.snoc
      rw [h.outcomes] at hi
      have hend : P.retryable e = false ∨ delays.length ≤ i := by
        rw [not_and_or, Bool.not_eq_true, Nat.not_lt] at hstop
        exact hstop
      rw [h.reference _ _ ho hw, arriving_implements.fail i e hi hend, hlen, h.waits]

/-- A wait comes to an end. -/
theorem Arrives.wait {e : ε} (h : Arrives P delays os ws i) (hr : P.retryable e = true)
    (hi : i < delays.length) (interrupted : Bool) :
    Follows (α := α) P delays (resumed P i interrupted) (os ++ [.error e]) (ws ++ [interrupted])
      (i + 1) := by
  have hos : (os ++ [(.error e : Except ε α)]).length = i + 1 := by
    rw [List.length_append, h.outcomes]; rfl
  have hws : (ws ++ [interrupted]).length = i + 1 := by rw [List.length_append, h.waits]; rfl
  cases interrupted with
  | true =>
    rw [← hos]
    refine .ended fun outcome interrupt ho hw => ?_
    obtain ⟨ho, hoi⟩ := ho.snoc
    obtain ⟨hw, hwi⟩ := hw.snoc
    rw [h.outcomes] at hoi
    rw [h.waits] at hwi
    rw [h.reference _ _ ho hw, arriving_implements.stop i e hoi hr hi hwi, hos, hws]
  | false =>
    refine .calling ⟨hos, hws, hi, fun outcome interrupt ho hw => ?_⟩
    obtain ⟨ho, hoi⟩ := ho.snoc
    obtain ⟨hw, hwi⟩ := hw.snoc
    rw [h.outcomes] at hoi
    rw [h.waits] at hwi
    rw [h.reference _ _ ho hw, arriving_implements.next i e hoi hr hi hwi]

end

section
variable [DecidableEq δ] {P : Policy ε ε'} {delays : List δ} {s t : Loops ι (Except ε' α)}
  {e : Event ι ε α δ} {es : List (Event ι ε α δ)}

theorem follows_step (h : step P delays s e = some t)
    (hs : ∀ d, Follows P delays (s.phase d) (outcomes es d) (waits es d) (attempts es d)) (d : ι) :
    Follows P delays (t.phase d) (outcomes (es ++ [e]) d) (waits (es ++ [e]) d)
      (attempts (es ++ [e]) d) := by
  have hd := hs d
  rw [outcomes_append, waits_append, attempts_append]
  cases step_moves h with
  | signal => simpa [outcomes, waits, attempts, Event.isAttemptOf] using hd
  | @begin e he =>
    by_cases hde : e = d
    · subst hde
      rw [he] at hd
      generalize outcomes es e = os at hd ⊢
      generalize waits es e = ws at hd ⊢
      generalize attempts es e = n at hd ⊢
      cases hd with
      | outside => simpa [outcomes, waits, attempts, Event.isAttemptOf] using Follows.begin
    · have hne : d ≠ e := fun h => hde h.symm
      simpa [outcomes, waits, attempts, Event.isAttemptOf, hne] using hd
  | @attempt e i he =>
    by_cases hde : e = d
    · subst hde
      rw [he] at hd
      generalize outcomes es e = os at hd ⊢
      generalize waits es e = ws at hd ⊢
      generalize attempts es e = n at hd ⊢
      cases hd with
      | calling harrives =>
        simpa [outcomes, waits, attempts, Event.isAttemptOf] using Follows.sending harrives
    · have hne : d ≠ e := fun h => hde h.symm
      simpa [outcomes, waits, attempts, Event.isAttemptOf, hne, hde] using hd
  | @complete e i outcome he =>
    by_cases hde : e = d
    · subst hde
      rw [he] at hd
      generalize outcomes es e = os at hd ⊢
      generalize waits es e = ws at hd ⊢
      generalize attempts es e = n at hd ⊢
      cases hd with
      | sending harrives =>
        simpa [outcomes, waits, attempts, Event.isAttemptOf] using harrives.complete outcome
    · have hne : d ≠ e := fun h => hde h.symm
      simpa [outcomes, waits, attempts, Event.isAttemptOf, hne, hde] using hd
  | @wait e i delay he hdelay =>
    by_cases hde : e = d
    · subst hde
      rw [he] at hd
      generalize outcomes es e = os at hd ⊢
      generalize waits es e = ws at hd ⊢
      generalize attempts es e = n at hd ⊢
      cases hd with
      | waiting harrives hr hi =>
        simpa [outcomes, waits, attempts, Event.isAttemptOf] using
          harrives.wait hr hi s.signalled
    · have hne : d ≠ e := fun h => hde h.symm
      simpa [outcomes, waits, attempts, Event.isAttemptOf, hne, hde] using hd

/-- **Every loop follows the reference,** in every run. -/
theorem follows_run (h : Run (step P delays) anyStep new es t) (d : ι) :
    Follows P delays (t.phase d) (outcomes es d) (waits es d) (attempts es d) :=
  run_history (I := fun es (s : Loops ι (Except ε' α)) =>
      ∀ d, Follows P delays (s.phase d) (outcomes es d) (waits es d) (attempts es d))
    (fun _ hstep hs d => follows_step hstep hs d) h (fun _ => .outside) d

/-- The waits are for the delays of the schedule. -/
theorem requested_step (h : step P delays s e = some t)
    (hs : ∀ d, Follows P delays (s.phase d) (outcomes es d) (waits es d) (attempts es d))
    (hr : ∀ d, requested es d = delays.take (waits es d).length) (d : ι) :
    requested (es ++ [e]) d = delays.take (waits (es ++ [e]) d).length := by
  have hd := hr d
  rw [requested_append, waits_append]
  cases step_moves h with
  | @wait e i delay he hdelay =>
    by_cases hde : e = d
    · subst hde
      have hfollows := hs e
      rw [he] at hfollows
      generalize hn : attempts es e = n at hfollows
      generalize ho : outcomes es e = os at hfollows
      cases hfollows with
      | waiting harrives _ hi =>
        have hsome : delays[i] = delay :=
          Option.some.inj ((List.getElem?_eq_getElem hi).symm.trans hdelay)
        have htake := List.take_append_getElem hi
        rw [hsome] at htake
        rw [harrives.waits] at hd
        have hrequested : requested [(.wait e delay s.signalled : Event ι ε α δ)] e = [delay] := by
          simp [requested]
        have hlength : (waits es e ++
            waits [(.wait e delay s.signalled : Event ι ε α δ)] e).length = i + 1 := by
          rw [List.length_append, harrives.waits]
          simp [waits]
        rw [hlength, hd, hrequested, htake]
    · simpa [requested, waits, hde] using hd
  | _ => simpa [requested, waits] using hd

theorem requested_run (h : Run (step P delays) anyStep new es t) (d : ι) :
    requested es d = delays.take (waits es d).length := by
  have hboth := run_history (I := fun es (s : Loops ι (Except ε' α)) =>
      (∀ d, Follows P delays (s.phase d) (outcomes es d) (waits es d) (attempts es d)) ∧
        ∀ d, requested es d = delays.take (waits es d).length)
    (fun _ hstep hs => ⟨follows_step hstep hs.1, requested_step hstep hs.1 hs.2⟩) h
    ⟨fun _ => .outside, fun _ => rfl⟩
  exact hboth.2 d

/-- A loop that has ended reports what the reference computes from what it met. -/
theorem result_eq_reference (h : Run (step P delays) anyStep new es t) {d : ι}
    {result : Except ε' α} (hd : t.phase d = .ended result) {outcome : Nat → Except ε α}
    {interrupt : Nat → Bool} (ho : Extends (outcomes es d) outcome)
    (hw : Extends (waits es d) interrupt) :
    P.reference outcome interrupt delays 0 = ⟨attempts es d, requested es d, result⟩ := by
  have hfollows := follows_run h d
  rw [requested_run h d]
  rw [hd] at hfollows
  generalize hn : attempts es d = n at hfollows
  generalize outcomes es d = os at hfollows ho
  cases hfollows with
  | ended hreference => exact hreference outcome interrupt ho hw

end

/-! ## After the signal -/

namespace Phase
variable {ρ : Type}

/-- The loop may still begin an attempt without waiting first. -/
def pending : Phase ρ → Nat
  | .outside | .calling _ => 1
  | .sending _ | .waiting _ | .ended _ => 0

@[simp] theorem pending_outside : (outside : Phase ρ).pending = 1 := rfl
@[simp] theorem pending_calling (i : Nat) : (calling i : Phase ρ).pending = 1 := rfl
@[simp] theorem pending_sending (i : Nat) : (sending i : Phase ρ).pending = 0 := rfl
@[simp] theorem pending_waiting (i : Nat) : (waiting i : Phase ρ).pending = 0 := rfl
@[simp] theorem pending_ended (r : ρ) : (ended r).pending = 0 := rfl

end Phase

theorem pending_after (P : Policy ε ε') (delays : List δ) (i : Nat) (outcome : Except ε α) :
    (after P delays i outcome).pending = 0 := by
  cases outcome with
  | ok value => rfl
  | error e =>
    simp only [after]
    split
    · rfl
    · rfl

section
variable [DecidableEq δ] {P : Policy ε ε'} {delays : List δ} {s t : Loops ι (Except ε' α)}
  {e : Event ι ε α δ} {es : List (Event ι ε α δ)}

theorem pending_step (h : step P delays s e = some t) (hs : s.signalled = true) (d : ι) :
    attempts [e] d + (t.phase d).pending = (s.phase d).pending := by
  cases step_moves h with
  | signal => simp [attempts, Event.isAttemptOf]
  | @begin e he =>
    by_cases hde : d = e
    · subst hde
      simp [attempts, Event.isAttemptOf, he]
    · simp [attempts, Event.isAttemptOf, hde]
  | @attempt e i he =>
    by_cases hde : d = e
    · subst hde
      simp [attempts, Event.isAttemptOf, he]
    · have hne : ¬ e = d := fun h => hde h.symm
      simp [attempts, Event.isAttemptOf, hde, hne]
  | @complete e i outcome he =>
    by_cases hde : d = e
    · subst hde
      simp [attempts, Event.isAttemptOf, he, pending_after]
    · simp [attempts, Event.isAttemptOf, hde]
  | @wait e i delay he hdelay =>
    by_cases hde : d = e
    · subst hde
      -- the latch is set, so the wait ends the loop
      simp [attempts, Event.isAttemptOf, he, hs, resumed]
    · simp [attempts, Event.isAttemptOf, hde]

/-- **Once the latch is set, the attempt a loop has before it is its last.** -/
theorem attempts_after_signal (h : Run (step P delays) anyStep s es t) (hs : s.signalled = true)
    (d : ι) : attempts es d + (t.phase d).pending = (s.phase d).pending := by
  induction h with
  | nil s => simp [attempts]
  | @cons s u t e es _ hstep _ ih =>
    have hfirst := pending_step hstep hs d
    have hrest := ih (signalled_step hstep hs)
    have hsplit := attempts_append [e] es d
    rw [List.singleton_append] at hsplit
    omega

end

end OppexSdk.Lib.Latch
