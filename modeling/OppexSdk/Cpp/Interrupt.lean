import OppexSdk.Cpp.QueuedDelivery
import OppexSdk.Lib.Latch

/-! # The C++ interrupt and the deliveries that wait on it

`cpp/src/interrupt.hpp`, the loop of `retry::Execute` around it and `Client::Impl::Close`, with any
number of deliveries and of calls of `Close`. A step is a critical section or what a thread does
between two of them. `Signal` sets the flag under the lock and notifies after it has let go of it;
`wait_for` tests the flag before it blocks and whenever it has the lock again. A delivery begins on
the thread of a `Post` or of a worker, at any time: a `Post` may have read `closed_` long ago, and a
queued task does not read it. -/
namespace OppexSdk.Cpp.Interrupt
open OppexSdk.Lib OppexSdk.Lib.Transition OppexSdk.Lib.Simulation
open OppexSdk.Lib.Latch (Event Extends Loops Phase attempts outcomes requested waits)
open OppexSdk.Cpp.AsyncDispatcher (Thrown)
open OppexSdk.Cpp.Wire (IncidentResponse)

variable {ε : Type}

/-- How `Execute` reads what an attempt throws: it catches `IncidentError` only. -/
def policy : Backoff.Policy (Thrown ε) (Thrown ε) where
  retryable
    | .incidentError failure => failure.retryable
    | .other _ => false
  final
    | .incidentError failure, attempts =>
      .incidentError (Retry.rethrowWithAttemptCount failure attempts)
    | .other exception, _ => .other exception
  interrupted := .incidentError Retry.interruptedError

/-- Where a delivery is. -/
inductive DeliveryPc (ε : Type)
  | outside
  /-- About to call the operation. -/
  | calling (attempt : Nat)
  | sending (attempt : Nat)
  /-- In `Wait`, before the lock. -/
  | entering (attempt : Nat) (duration : Retry.Milliseconds)
  /-- In `wait_for`: in the wait set, or taken out of it and without the lock. -/
  | blocked (attempt : Nat) (duration : Retry.Milliseconds)
  | ended (result : Except (Thrown ε) IncidentResponse)

/-- Where a call of `Close` is. -/
inductive ClosePc
  | outside
  /-- It has exchanged `closed_` and is about to set the flag. -/
  | signalling
  | notifying
  /-- Past `Signal`, or returned at once. -/
  | done
  deriving DecidableEq

structure State (ε : Type) where
  signalled : Bool
  changed : Condvar Nat
  closed : Bool
  deliveries : Nat → DeliveryPc ε
  closes : Nat → ClosePc

def new : State ε := ⟨false, .new, false, fun _ => .outside, fun _ => .outside⟩

inductive Label (ε : Type)
  | begin (d : Nat)
  | attempt (d : Nat)
  | complete (d : Nat) (outcome : Except (Thrown ε) IncidentResponse)
  | enter (d : Nat)
  /-- A delivery is taken out of the wait set: its time is up, or for no reason. -/
  | wake (d : Nat)
  /-- It has the lock again; the inner wait says whether its time was up. -/
  | resume (d : Nat) (timedOut : Bool)
  | exchange (c : Nat)
  | signal (c : Nat)
  | notify (c : Nat)

namespace State

def setDelivery (s : State ε) (d : Nat) (pc : DeliveryPc ε) : State ε :=
  { s with deliveries := Function.update s.deliveries d pc }

def begin (s : State ε) (d : Nat) : Option (State ε) :=
  match s.deliveries d with
  | .outside => some (s.setDelivery d (.calling 0))
  | _ => none

def attempt (s : State ε) (d : Nat) : Option (State ε) :=
  match s.deliveries d with
  | .calling i => some (s.setDelivery d (.sending i))
  | _ => none

/-- The `catch` clause of `Execute`, up to the call of `Wait`. -/
def caught (delays : List Retry.Milliseconds) (i : Nat) :
    Except (Thrown ε) IncidentResponse → DeliveryPc ε
  | .ok response => .ended (.ok response)
  | .error (.other exception) => .ended (.error (.other exception))
  | .error (.incidentError failure) =>
    if h : !failure.retryable || i ≥ delays.length then
      .ended (.error (.incidentError (Retry.rethrowWithAttemptCount failure (i + 1))))
    else
      have hlt : i < delays.length := by
        rw [Bool.or_eq_true, not_or, decide_eq_true_eq] at h
        exact Nat.lt_of_not_le h.2
      .entering i delays[i]

def complete (delays : List Retry.Milliseconds) (s : State ε) (d : Nat)
    (outcome : Except (Thrown ε) IncidentResponse) : Option (State ε) :=
  match s.deliveries d with
  | .sending i => some (s.setDelivery d (caught delays i outcome))
  | _ => none

/-- `Wait` returned `true`. -/
def interrupted (s : State ε) (d : Nat) : State ε :=
  s.setDelivery d (.ended (.error (.incidentError Retry.interruptedError)))

/-- The predicate is false, so the thread joins the wait set and lets go of the lock. -/
def block (s : State ε) (d i : Nat) (duration : Retry.Milliseconds) : State ε :=
  { s with
    changed := s.changed.wait d
    deliveries := Function.update s.deliveries d (.blocked i duration) }

def enter (s : State ε) (d : Nat) : Option (State ε) :=
  match s.deliveries d with
  | .entering i duration =>
    some (if s.signalled then s.interrupted d else s.block d i duration)
  | _ => none

def wake (s : State ε) (d : Nat) : Option (State ε) :=
  if s.changed.Parked d then some { s with changed := s.changed.wake d } else none

def resume (s : State ε) (d : Nat) (timedOut : Bool) : Option (State ε) :=
  match s.deliveries d with
  | .blocked i duration =>
    if s.changed.Parked d then none
    else if s.signalled then some (s.interrupted d)
    else if timedOut then some (s.setDelivery d (.calling (i + 1)))
    else some (s.block d i duration)
  | _ => none

def setClose (s : State ε) (c : Nat) (pc : ClosePc) : State ε :=
  { s with closes := Function.update s.closes c pc }

/-- `closed_.exchange(true)`. -/
def exchange (s : State ε) (c : Nat) : Option (State ε) :=
  match s.closes c with
  | .outside =>
    some { s.setClose c (if s.closed then .done else .signalling) with closed := true }
  | _ => none

def signal (s : State ε) (c : Nat) : Option (State ε) :=
  match s.closes c with
  | .signalling => some { s.setClose c .notifying with signalled := true }
  | _ => none

def notify (s : State ε) (c : Nat) : Option (State ε) :=
  match s.closes c with
  | .notifying => some { s.setClose c .done with changed := s.changed.notifyAll }
  | _ => none

end State

def step (delays : List Retry.Milliseconds) (s : State ε) : Label ε → Option (State ε)
  | .begin d => s.begin d
  | .attempt d => s.attempt d
  | .complete d outcome => s.complete delays d outcome
  | .enter d => s.enter d
  | .wake d => s.wake d
  | .resume d timedOut => s.resume d timedOut
  | .exchange c => s.exchange c
  | .signal c => s.signal c
  | .notify c => s.notify c

/-- What a step does. -/
inductive Does (delays : List Retry.Milliseconds) (s : State ε) : Label ε → State ε → Prop
  | begin {d} : s.deliveries d = .outside → Does delays s (.begin d) (s.setDelivery d (.calling 0))
  | attempt {d i} : s.deliveries d = .calling i →
      Does delays s (.attempt d) (s.setDelivery d (.sending i))
  | complete {d i} (outcome) : s.deliveries d = .sending i →
      Does delays s (.complete d outcome) (s.setDelivery d (State.caught delays i outcome))
  | enterSignalled {d i duration} : s.deliveries d = .entering i duration → s.signalled = true →
      Does delays s (.enter d) (s.interrupted d)
  | block {d i duration} : s.deliveries d = .entering i duration → s.signalled = false →
      Does delays s (.enter d) (s.block d i duration)
  | wake {d} : s.changed.Parked d →
      Does delays s (.wake d) { s with changed := s.changed.wake d }
  | resumeSignalled {d i duration} (timedOut) : s.deliveries d = .blocked i duration →
      ¬ s.changed.Parked d → s.signalled = true →
      Does delays s (.resume d timedOut) (s.interrupted d)
  | elapsed {d i duration} : s.deliveries d = .blocked i duration → ¬ s.changed.Parked d →
      s.signalled = false →
      Does delays s (.resume d true) (s.setDelivery d (.calling (i + 1)))
  | again {d i duration} : s.deliveries d = .blocked i duration → ¬ s.changed.Parked d →
      s.signalled = false → Does delays s (.resume d false) (s.block d i duration)
  | exchange {c} : s.closes c = .outside →
      Does delays s (.exchange c)
        { s.setClose c (if s.closed then .done else .signalling) with closed := true }
  | signal {c} : s.closes c = .signalling →
      Does delays s (.signal c) { s.setClose c .notifying with signalled := true }
  | notify {c} : s.closes c = .notifying →
      Does delays s (.notify c) { s.setClose c .done with changed := s.changed.notifyAll }

section
variable {delays : List Retry.Milliseconds} {s t : State ε} {l : Label ε}

theorem step_does (h : step delays s l = some t) : Does delays s l t := by
  cases l with
  | begin d =>
    simp only [step, State.begin] at h
    split at h
    · rename_i hd
      cases h; exact .begin hd
    · cases h
  | attempt d =>
    simp only [step, State.attempt] at h
    split at h
    · rename_i hd
      cases h; exact .attempt hd
    · cases h
  | complete d outcome =>
    simp only [step, State.complete] at h
    split at h
    · rename_i hd
      cases h; exact .complete outcome hd
    · cases h
  | enter d =>
    simp only [step, State.enter] at h
    split at h
    · rename_i hd
      cases hs : s.signalled with
      | true =>
        rw [hs, if_pos rfl] at h
        cases h; exact .enterSignalled hd hs
      | false =>
        rw [hs, if_neg Bool.false_ne_true] at h
        cases h; exact .block hd hs
    · cases h
  | wake d =>
    simp only [step, State.wake] at h
    split at h
    · rename_i hd
      cases h; exact .wake hd
    · cases h
  | resume d timedOut =>
    simp only [step, State.resume] at h
    split at h
    · rename_i hd
      split at h
      · cases h
      · rename_i hfree
        cases hs : s.signalled with
        | true =>
          rw [hs, if_pos rfl] at h
          cases h; exact .resumeSignalled timedOut hd hfree hs
        | false =>
          rw [hs, if_neg Bool.false_ne_true] at h
          cases timedOut with
          | true => cases h; exact .elapsed hd hfree hs
          | false => cases h; exact .again hd hfree hs
    · cases h
  | exchange c =>
    simp only [step, State.exchange] at h
    split at h
    · rename_i hc
      cases h; exact .exchange hc
    · cases h
  | signal c =>
    simp only [step, State.signal] at h
    split at h
    · rename_i hc
      cases h; exact .signal hc
    · cases h
  | notify c =>
    simp only [step, State.notify] at h
    split at h
    · rename_i hc
      cases h; exact .notify hc
    · cases h

end

/-! ## The loops around the latch -/

def DeliveryPc.phase : DeliveryPc ε → Phase (Except (Thrown ε) IncidentResponse)
  | .outside => .outside
  | .calling i => .calling i
  | .sending i => .sending i
  | .entering i _ | .blocked i _ => .waiting i
  | .ended result => .ended result

def State.loops (s : State ε) : Loops Nat (Except (Thrown ε) IncidentResponse) where
  signalled := s.signalled
  phase := DeliveryPc.phase ∘ s.deliveries

/-- What the loops do in a step: a wait comes to an end where `wait_for` returns. -/
def events (s : State ε) : Label ε →
    List (Event Nat (Thrown ε) IncidentResponse Retry.Milliseconds)
  | .begin d => [.begin d]
  | .attempt d => [.attempt d]
  | .complete d outcome => [.complete d outcome]
  | .enter d =>
    match s.deliveries d with
    | .entering _ duration => if s.signalled then [.wait d duration true] else []
    | _ => []
  | .resume d timedOut =>
    match s.deliveries d with
    | .blocked _ duration =>
      if s.signalled ∨ timedOut then [.wait d duration s.signalled] else []
    | _ => []
  | .signal _ => [.signal]
  | .wake _ | .exchange _ | .notify _ => []

/-- The events of a run. -/
def history (delays : List Retry.Milliseconds) (ls : List (Label ε)) :
    List (Event Nat (Thrown ε) IncidentResponse Retry.Milliseconds) :=
  trace (step delays) events new ls

/-- Who waits after attempt `i` waits for the delay of that attempt. -/
def DeliveryPc.Scheduled (delays : List Retry.Milliseconds) : DeliveryPc ε → Prop
  | .entering i duration | .blocked i duration => delays[i]? = some duration
  | _ => True

def Scheduled (delays : List Retry.Milliseconds) (s : State ε) : Prop :=
  ∀ d, (s.deliveries d).Scheduled delays

section
variable {delays : List Retry.Milliseconds} {s t : State ε} {l : Label ε}

theorem loops_setDelivery (d : Nat) (pc : DeliveryPc ε) :
    (s.setDelivery d pc).loops = s.loops.set d pc.phase := by
  unfold State.setDelivery State.loops Loops.set
  rw [Function.comp_update]

/-- A delivery that stays where it is, as far as the loops go. -/
theorem loops_block {d i : Nat} {duration : Retry.Milliseconds}
    (hd : (s.deliveries d).phase = .waiting i) : (s.block d i duration).loops = s.loops := by
  have hsame : Function.update (DeliveryPc.phase ∘ s.deliveries) d (.waiting i) =
      DeliveryPc.phase ∘ s.deliveries := by
    rw [← hd]
    exact Function.update_eq_self d _
  unfold State.block State.loops
  rw [Function.comp_update]
  exact congrArg (Loops.mk s.signalled) hsame

theorem caught_phase (i : Nat) (outcome : Except (Thrown ε) IncidentResponse) :
    (State.caught delays i outcome).phase = Latch.after policy delays i outcome := by
  cases outcome with
  | ok response => rfl
  | error thrown =>
    cases thrown with
    | other exception => rfl
    | incidentError failure =>
      by_cases hgo : failure.retryable = true ∧ i < delays.length
      · have hnot : ¬ (!failure.retryable || decide (i ≥ delays.length)) = true := by
          simpa using hgo
        have hretry : policy.retryable (.incidentError failure : Thrown ε) = true ∧
            i < delays.length := hgo
        rw [State.caught, dif_neg hnot, Latch.after, if_pos hretry]
        rfl
      · have hstop : (!failure.retryable || decide (i ≥ delays.length)) = true := by
          rw [not_and_or, Bool.not_eq_true, Nat.not_lt] at hgo
          simpa using hgo
        have hretry : ¬ (policy.retryable (.incidentError failure : Thrown ε) = true ∧
            i < delays.length) := hgo
        rw [State.caught, dif_pos hstop, Latch.after, if_neg hretry]
        rfl

theorem caught_scheduled (i : Nat) (outcome : Except (Thrown ε) IncidentResponse) :
    (State.caught delays i outcome).Scheduled delays := by
  unfold State.caught
  split
  · trivial
  · trivial
  · split
    · trivial
    · exact List.getElem?_eq_getElem _

theorem Scheduled.update (hs : Scheduled delays s) {d : Nat} (pc : DeliveryPc ε)
    (hpc : pc.Scheduled delays) (ht : t.deliveries = Function.update s.deliveries d pc) :
    Scheduled delays t := by
  intro e
  rw [ht]
  by_cases hed : e = d
  · rw [hed, Function.update_self]
    exact hpc
  · rw [Function.update_of_ne hed]
    exact hs e

theorem scheduled_step (h : step delays s l = some t) (hs : Scheduled delays s) :
    Scheduled delays t := by
  have hkeep : ∀ {d pc}, s.deliveries d = pc → pc.Scheduled delays := fun hd => hd ▸ hs _
  cases step_does h with
  | @begin d hd => exact hs.update (.calling 0) trivial rfl
  | @attempt d i hd => exact hs.update (.sending i) trivial rfl
  | complete outcome _ => exact hs.update _ (caught_scheduled _ outcome) rfl
  | enterSignalled _ _ | resumeSignalled _ _ _ _ =>
    exact hs.update (.ended (.error (.incidentError Retry.interruptedError))) trivial rfl
  | @elapsed d i duration _ _ _ => exact hs.update (.calling (i + 1)) trivial rfl
  | @block d i duration hd _ =>
    have hdelay : (DeliveryPc.entering i duration : DeliveryPc ε).Scheduled delays := hkeep hd
    exact hs.update (.blocked i duration) hdelay rfl
  | @again d i duration hd _ _ => exact hs.update (.blocked i duration) (hkeep hd) rfl
  | wake _ | exchange _ | signal _ | notify _ => exact hs

theorem scheduled_run {ls : List (Label ε)} (h : Run (step delays) anyStep new ls s) :
    Scheduled delays s :=
  h.invariant (I := Scheduled delays) (fun _ hstep hs => scheduled_step hstep hs)
    fun _ => trivial

/-- Each step of the deliveries is none of the loops, or one. -/
theorem loops_step (h : step delays s l = some t) (hs : Scheduled delays s) :
    Run (Latch.step policy delays) anyStep s.loops (events s l) t.loops := by
  have hmove : ∀ {d pc e}, Latch.Moves policy delays s.loops e (s.loops.set d (DeliveryPc.phase pc)) →
      Run (Latch.step policy delays) anyStep s.loops [e] (s.setDelivery d pc).loops := by
    intro d pc e hmoves
    rw [loops_setDelivery]
    exact run_one (Latch.step_of_moves hmoves)
  have hphase : ∀ {d pc}, s.deliveries d = pc → s.loops.phase d = pc.phase :=
    fun hd => congrArg DeliveryPc.phase hd
  have hdelay : ∀ {d pc}, s.deliveries d = pc → pc.Scheduled delays := fun hd => hd ▸ hs _
  cases step_does h with
  | begin hd => exact hmove (.begin (hphase hd))
  | attempt hd => exact hmove (.attempt (hphase hd))
  | @complete d i outcome hd =>
    have hmoves : Latch.Moves policy delays s.loops (.complete d outcome) _ :=
      .complete outcome (hphase hd)
    rw [← caught_phase] at hmoves
    exact hmove hmoves
  | @enterSignalled d i duration hd hs =>
    have hmoves : Latch.Moves policy delays s.loops (.wait d duration s.loops.signalled) _ :=
      .wait (hphase hd) (hdelay hd)
    have hlatch : s.loops.signalled = true := hs
    rw [hlatch] at hmoves
    simp only [events, hd, hs, if_true]
    exact hmove hmoves
  | @block d i duration hd hs =>
    simp only [events, hd, hs, Bool.false_eq_true, if_false]
    rw [loops_block (congrArg DeliveryPc.phase hd)]
    exact .nil _
  | wake _ => exact .nil _
  | @resumeSignalled d i duration timedOut hd _ hs =>
    have hmoves : Latch.Moves policy delays s.loops (.wait d duration s.loops.signalled) _ :=
      .wait (hphase hd) (hdelay hd)
    have hlatch : s.loops.signalled = true := hs
    rw [hlatch] at hmoves
    simp only [events, hd, hs, true_or, if_true]
    exact hmove hmoves
  | @elapsed d i duration hd _ hs =>
    have hmoves : Latch.Moves policy delays s.loops (.wait d duration s.loops.signalled) _ :=
      .wait (hphase hd) (hdelay hd)
    have hlatch : s.loops.signalled = false := hs
    rw [hlatch] at hmoves
    simp only [events, hd, hs, or_true, if_true]
    exact hmove hmoves
  | @again d i duration hd _ hs =>
    simp only [events, hd, hs, Bool.false_eq_true, or_self, if_false]
    rw [loops_block (congrArg DeliveryPc.phase hd)]
    exact .nil _
  | exchange _ => exact .nil _
  | signal _ => exact run_one rfl
  | notify _ => exact .nil _

/-- The deliveries simulate the loops. -/
theorem simulates : Simulates (step (ε := ε) delays) anyStep (Latch.step policy delays) events
    (Scheduled delays) (fun s a => a = s.loops) where
  keeps _ hstep hs := scheduled_step hstep hs
  matched := by
    intro s l t a _ hstep hs ha
    subst ha
    exact ⟨t.loops, loops_step hstep hs, rfl⟩

theorem loops_run {ls : List (Label ε)} (h : Run (step delays) anyStep s ls t)
    (hs : Scheduled delays s) :
    Run (Latch.step policy delays) anyStep s.loops (trace (step delays) events s ls) t.loops := by
  obtain ⟨a, hrun, -, ha⟩ := simulates.run h hs rfl
  rwa [ha] at hrun

end

/-! ## What a delivery reports -/

/-- Where every failure is an `IncidentError`, the policy is that of `Retry.execute`. -/
theorem reference_eq_execute (delays : List Retry.Milliseconds)
    (outcome : Nat → Except IncidentError IncidentResponse) (interrupt : Nat → Bool) :
    policy.reference (fun k => (outcome k).mapError (Thrown.incidentError (ε := ε))) interrupt
        delays 0 =
      (Retry.execute delays outcome interrupt).mapError Thrown.incidentError := by
  have hexecute : Retry.execute delays outcome interrupt =
      (Backoff.ofFailures Retry.failures).reference outcome interrupt delays 0 :=
    (Backoff.Implements.ofRetry (Retry.loop_implements delays outcome interrupt)).eq_reference
  rw [hexecute]
  refine Backoff.reference_mapError (P := policy) (Q := Backoff.ofFailures Retry.failures)
    (f := Thrown.incidentError) (fun _ => rfl) ?_ rfl (fun _ => rfl) delays 0
  intro failure i
  exact congrArg Thrown.incidentError (Retry.rethrowWithAttemptCount_eq_final failure i)

/-- **A delivery reports what `Execute` computes,** in every interleaving with other deliveries and
with `Close`: from the outcomes of its attempts and the results of its waits, whatever streams they
are the beginnings of, the reference makes the same attempts, waits as long and has the same result.
Where the attempts throw nothing but `IncidentError`, that is what `Execute` computes. -/
theorem delivery_reports_reference {delays : List Retry.Milliseconds} {ls : List (Label ε)}
    {s : State ε} (h : Run (step delays) anyStep new ls s) {d : Nat}
    {result : Except (Thrown ε) IncidentResponse} (hd : s.deliveries d = .ended result)
    {outcome : Nat → Except (Thrown ε) IncidentResponse} {interrupt : Nat → Bool}
    (ho : Extends (outcomes (history delays ls) d) outcome)
    (hw : Extends (waits (history delays ls) d) interrupt) :
    policy.reference outcome interrupt delays 0 =
        ⟨attempts (history delays ls) d, requested (history delays ls) d, result⟩ ∧
      ∀ operation : Nat → Except IncidentError IncidentResponse,
        (∀ k, outcome k = (operation k).mapError Thrown.incidentError) →
        (Retry.execute delays operation interrupt).mapError Thrown.incidentError =
          ⟨attempts (history delays ls) d, requested (history delays ls) d, result⟩ := by
  have href := Latch.result_eq_reference (loops_run h fun _ => trivial)
    (congrArg DeliveryPc.phase hd) ho hw
  refine ⟨href, ?_⟩
  intro operation hoperation
  rw [← reference_eq_execute delays operation interrupt, ← funext hoperation]
  exact href

/-- A failure that may be retried. -/
def refused : Thrown Unit := .incidentError (.new .kDelivery (bytes "refused") (-1) true)

/-- One delivery waits when `Close` comes. -/
def interruptedRun : List (Label Unit) :=
  [.begin 0, .attempt 0, .complete 0 (.error refused), .enter 0, .exchange 1, .signal 1,
    .notify 1, .resume 0 false]

theorem delivery_reports_reference_interrupted : ∃ s : State Unit,
    Run (step [500, 1000]) anyStep new interruptedRun s ∧
    policy.reference (fun _ => (.error refused : Except (Thrown Unit) IncidentResponse))
        (fun _ => true) [500, 1000] 0 =
      ⟨1, [500], .error (.incidentError Retry.interruptedError)⟩ := by
  refine ⟨_, run_of_exec interruptedRun rfl, ?_⟩
  refine (delivery_reports_reference (run_of_exec interruptedRun rfl) (d := 0) rfl ?_ ?_).1
  · exact Latch.extends_const fun _ hy => List.mem_singleton.mp hy
  · exact Latch.extends_const fun _ hy => List.mem_singleton.mp hy

/-! ## After the signal -/

namespace ClosePc

/-- Inside `Signal`. -/
def busy : ClosePc → Bool
  | .signalling | .notifying => true
  | .outside | .done => false

end ClosePc

/-- What holds of the wait set and of the calls of `Close`. -/
structure Orderly (s : State ε) : Prop where
  parked : ∀ d, s.changed.Parked d → ∃ i duration, s.deliveries d = .blocked i duration
  one : ∀ c e, (s.closes c).busy = true → (s.closes e).busy = true → c = e
  closed : ∀ c, (s.closes c).busy = true → s.closed = true

/-- What holds since the call `c` set the flag: nobody blocks any more, and who is still blocked
will be notified by `c`. -/
structure Since (c : Nat) (s : State ε) : Prop where
  parked : ∀ d, s.changed.Parked d → ∃ i duration, s.deliveries d = .blocked i duration
  signalled : s.signalled = true
  closed : s.closed = true
  others : ∀ e, e ≠ c → (s.closes e).busy = false
  notified : s.closes c = .notifying ∨ (s.closes c = .done ∧ ∀ d, ¬ s.changed.Parked d)

section
variable {delays : List Retry.Milliseconds} {s t : State ε} {l : Label ε} {c : Nat}

theorem parked_setDelivery {d : Nat} {pc : DeliveryPc ε}
    (h : ∀ e, s.changed.Parked e → ∃ i duration, s.deliveries e = .blocked i duration)
    (hd : ¬ s.changed.Parked d) (e : Nat) (he : (s.setDelivery d pc).changed.Parked e) :
    ∃ i duration, (s.setDelivery d pc).deliveries e = .blocked i duration := by
  have hne : e ≠ d := by
    intro hed
    rw [hed] at he
    exact hd he
  obtain ⟨i, duration, hi⟩ := h e he
  exact ⟨i, duration, (Function.update_of_ne hne _ _).trans hi⟩

theorem parked_block {d i : Nat} {duration : Retry.Milliseconds}
    (h : ∀ e, s.changed.Parked e → ∃ i duration, s.deliveries e = .blocked i duration) (e : Nat)
    (he : (s.block d i duration).changed.Parked e) :
    ∃ j duration', (s.block d i duration).deliveries e = .blocked j duration' := by
  by_cases hed : e = d
  · subst hed
    exact ⟨i, duration, Function.update_self _ _ _⟩
  · rcases (Condvar.parked_wait _ _ _).mp he with he | he
    · exact absurd he hed
    · obtain ⟨j, duration', hj⟩ := h e he
      exact ⟨j, duration', (Function.update_of_ne hed _ _).trans hj⟩

/-- A thread that is not blocked is not in the wait set. -/
theorem not_parked {d : Nat} {pc : DeliveryPc ε}
    (h : ∀ e, s.changed.Parked e → ∃ i duration, s.deliveries e = .blocked i duration)
    (hd : s.deliveries d = pc) (hpc : ∀ i duration, pc ≠ .blocked i duration) :
    ¬ s.changed.Parked d := by
  intro hparked
  obtain ⟨i, duration, hi⟩ := h d hparked
  exact hpc i duration (hd.symm.trans hi)

/-- Whoever is in the wait set is blocked. -/
theorem parked_step (h : step delays s l = some t)
    (hs : ∀ d, s.changed.Parked d → ∃ i duration, s.deliveries d = .blocked i duration) :
    ∀ d, t.changed.Parked d → ∃ i duration, t.deliveries d = .blocked i duration := by
  cases step_does h with
  | begin hd => exact parked_setDelivery hs (not_parked hs hd (by simp))
  | attempt hd => exact parked_setDelivery hs (not_parked hs hd (by simp))
  | complete _ hd => exact parked_setDelivery hs (not_parked hs hd (by simp))
  | enterSignalled hd _ => exact parked_setDelivery hs (not_parked hs hd (by simp))
  | block _ _ => exact parked_block hs
  | wake _ => exact fun d hd => hs d ((Condvar.parked_wake _ _ _).mp hd).1
  | resumeSignalled _ _ hfree _ => exact parked_setDelivery hs hfree
  | elapsed _ hfree _ => exact parked_setDelivery hs hfree
  | again _ _ _ => exact parked_block hs
  | exchange _ => exact hs
  | signal _ => exact hs
  | notify _ => exact fun d hd => absurd hd (Condvar.parked_notifyAll s.changed d)

theorem busy_update {f : Nat → ClosePc} {pc : ClosePc} (h : pc.busy = true → (f c).busy = true)
    {e : Nat} (he : (Function.update f c pc e).busy = true) : (f e).busy = true := by
  by_cases hec : e = c
  · subst hec
    rw [Function.update_self] at he
    exact h he
  · rwa [Function.update_of_ne hec] at he

/-- A step in which no call of `Close` comes to be inside `Signal`, or the first one does. -/
theorem busy_step (h : step delays s l = some t) :
    (∀ e, (t.closes e).busy = true → (s.closes e).busy = true) ∨
      ∃ c, s.closed = false ∧ t.closed = true ∧
        t.closes = Function.update s.closes c .signalling := by
  cases step_does h with
  | @exchange c hc =>
    cases hclosed : s.closed with
    | true => exact .inl fun e he => busy_update (fun hpc => by cases hpc) he
    | false => exact .inr ⟨c, rfl, rfl, rfl⟩
  | @signal c hc => exact .inl fun e he => busy_update (fun _ => by rw [hc]; rfl) he
  | @notify c hc => exact .inl fun e he => busy_update (fun hpc => by cases hpc) he
  | _ => exact .inl fun _ he => he

theorem closed_step (h : step delays s l = some t) (hs : s.closed = true) : t.closed = true := by
  cases step_does h with
  | exchange _ => rfl
  | _ => exact hs

theorem orderly_step (h : step delays s l = some t) (hs : Orderly s) : Orderly t := by
  refine ⟨parked_step h hs.parked, ?_, ?_⟩
  · rcases busy_step h with hold | ⟨c, hclosed, -, hnew⟩
    · exact fun d e hd he => hs.one d e (hold d hd) (hold e he)
    · -- nobody was inside `Signal` before
      have hnone : ∀ e, e ≠ c → ¬ (t.closes e).busy = true := by
        intro e hne he
        rw [hnew, Function.update_of_ne hne] at he
        rw [hs.closed e he] at hclosed
        cases hclosed
      intro d e hd he
      by_cases hdc : d = c
      · by_cases hec : e = c
        · exact hdc.trans hec.symm
        · exact absurd he (hnone e hec)
      · exact absurd hd (hnone d hdc)
  · intro e he
    rcases busy_step h with hold | ⟨c, -, hclosed, -⟩
    · exact closed_step h (hs.closed e (hold e he))
    · exact hclosed

theorem orderly_run {ls : List (Label ε)} (h : Run (step delays) anyStep new ls s) :
    Orderly s := by
  refine h.invariant (fun _ hstep hs => orderly_step hstep hs) ⟨?_, ?_, ?_⟩
  · exact fun d hd => absurd hd (Condvar.parked_new d)
  · intro c e hc
    cases hc
  · intro c hc
    cases hc

/-- The call that sets the flag. -/
theorem Since.init (hs : Orderly s) (h : step delays s (.signal c) = some t) : Since c t := by
  cases step_does h with
  | signal hc =>
    have hbusy : (s.closes c).busy = true := by rw [hc]; rfl
    refine ⟨hs.parked, rfl, hs.closed c hbusy, ?_, .inl (Function.update_self _ _ _)⟩
    intro e hne
    have hcloses : (s.setClose c .notifying).closes e = s.closes e := Function.update_of_ne hne _ _
    rw [← Bool.not_eq_true]
    intro he
    exact hne (hs.one e c (hcloses ▸ he) hbusy)

/-- After the flag was set no thread joins the wait set. -/
theorem parked_mono (h : step delays s l = some t) (hs : s.signalled = true) {d : Nat}
    (hd : t.changed.Parked d) : s.changed.Parked d := by
  cases step_does h with
  | block _ hfalse => rw [hs] at hfalse; cases hfalse
  | again _ _ hfalse => rw [hs] at hfalse; cases hfalse
  | wake _ => exact ((Condvar.parked_wake _ _ _).mp hd).1
  | notify _ => exact absurd hd (Condvar.parked_notifyAll s.changed d)
  | _ => exact hd

/-- Another call of `Close` moves `c` nowhere. -/
theorem closes_update {f : Nat → ClosePc} {pc pc' q : ClosePc} {e : Nat} (he : f e = pc')
    (hc : f c = q) (hne : pc' ≠ q) : Function.update f e pc c = q := by
  rw [Function.update_of_ne, hc]
  intro hce
  rw [hce, he] at hc
  exact hne hc

theorem since_step (h : step delays s l = some t) (hs : Since c s) : Since c t := by
  have hothers : ∀ e, e ≠ c → (t.closes e).busy = false := by
    rcases busy_step h with hold | ⟨d, hopen, -, -⟩
    · intro e hne
      rw [← Bool.not_eq_true]
      intro he
      exact Bool.false_ne_true ((hs.others e hne).symm.trans (hold e he))
    · rw [hs.closed] at hopen
      cases hopen
  refine ⟨parked_step h hs.parked, ?_, closed_step h hs.closed, hothers, ?_⟩
  · cases step_does h with
    | signal _ => rfl
    | _ => exact hs.signalled
  · rcases hs.notified with hc | ⟨hc, hnone⟩
    · cases step_does h with
      | @exchange e he => exact .inl (closes_update he hc (by simp))
      | @signal e he => exact .inl (closes_update he hc (by simp))
      | @notify e he =>
        -- only `c` is inside `Signal`
        have hec : e = c := by
          by_contra hne
          have hidle := hs.others e hne
          rw [he] at hidle
          cases hidle
        subst hec
        exact .inr ⟨Function.update_self _ _ _, Condvar.parked_notifyAll s.changed⟩
      | _ => exact .inl hc
    · refine .inr ⟨?_, fun d hd => hnone d (parked_mono h hs.signalled hd)⟩
      cases step_does h with
      | exchange he => exact closes_update he hc (by simp)
      | signal he => exact closes_update he hc (by simp)
      | notify he => exact closes_update he hc (by simp)
      | _ => exact hc

/-! ## How many steps are left -/

/-- The steps in which a delivery moves. -/
def Label.isOf (d : Nat) : Label ε → Bool
  | .begin e | .attempt e | .complete e _ | .enter e | .wake e | .resume e _ => decide (e = d)
  | .exchange _ | .signal _ | .notify _ => false

/-- How many steps a delivery has before it, at most, once the flag is set. -/
def DeliveryPc.rank (parked : Bool) : DeliveryPc ε → Nat
  | .outside => 4
  | .calling _ => 3
  | .sending _ => 2
  | .entering .. => 1
  | .blocked .. => 1 + parked.toNat
  | .ended _ => 0

def State.rank (s : State ε) (d : Nat) : Nat :=
  (s.deliveries d).rank (decide (s.changed.Parked d))

theorem DeliveryPc.rank_le (pc : DeliveryPc ε) (parked : Bool) : pc.rank parked ≤ 4 := by
  cases pc with
  | blocked i duration => cases parked <;> simp [rank]
  | _ => simp [rank]

theorem DeliveryPc.rank_mono (pc : DeliveryPc ε) {p q : Prop} [Decidable p] [Decidable q]
    (h : p → q) : pc.rank (decide p) ≤ pc.rank (decide q) := by
  cases pc with
  | blocked i duration =>
    by_cases hp : p
    · simp [rank, hp, h hp]
    · simp [rank, hp]
  | _ => exact Nat.le_refl _

theorem caught_rank (i : Nat) (outcome : Except (Thrown ε) IncidentResponse) (parked : Bool) :
    (State.caught delays i outcome).rank parked ≤ 1 := by
  cases outcome with
  | ok response => exact Nat.zero_le 1
  | error thrown =>
    cases thrown with
    | other exception => exact Nat.zero_le 1
    | incidentError failure =>
      simp only [State.caught]
      split
      · exact Nat.zero_le 1
      · exact Nat.le_refl 1

/-- A delivery moves. -/
theorem rank_setDelivery {e : Nat} {pc : DeliveryPc ε}
    (h : pc.rank (decide (s.changed.Parked e)) + 1 ≤ s.rank e) (d : Nat) :
    (s.setDelivery e pc).rank d + (decide (e = d)).toNat ≤ s.rank d := by
  by_cases hed : e = d
  · subst hed
    have hself : (s.setDelivery e pc).rank e = pc.rank (decide (s.changed.Parked e)) :=
      congrArg (DeliveryPc.rank _) (Function.update_self _ _ _)
    rw [hself]
    simpa using h
  · have hother : (s.setDelivery e pc).rank d = s.rank d :=
      congrArg (DeliveryPc.rank _) (Function.update_of_ne (Ne.symm hed) _ _)
    rw [hother]
    simp [hed]

/-- **Once the flag is set every step of a delivery brings it closer to its end.** -/
theorem rank_step (h : step delays s l = some t) (hs : Since c s) (d : Nat) :
    t.rank d + (l.isOf d).toNat ≤ s.rank d := by
  have hrank : ∀ {e pc}, s.deliveries e = pc → s.rank e = pc.rank (decide (s.changed.Parked e)) :=
    fun he => congrArg (DeliveryPc.rank _) he
  cases step_does h with
  | begin he => exact rank_setDelivery (by rw [hrank he]; exact Nat.le_refl 4) d
  | attempt he => exact rank_setDelivery (by rw [hrank he]; exact Nat.le_refl 3) d
  | complete outcome he =>
    refine rank_setDelivery ?_ d
    rw [hrank he]
    exact Nat.succ_le_succ (caught_rank _ outcome _)
  | enterSignalled he _ => exact rank_setDelivery (by rw [hrank he]; exact Nat.le_refl 1) d
  | block _ hfalse => rw [hs.signalled] at hfalse; cases hfalse
  | @wake e he =>
    by_cases hed : e = d
    · subst hed
      obtain ⟨i, duration, hi⟩ := hs.parked e he
      rw [hrank hi, State.rank, hi]
      simp [DeliveryPc.rank, he, Label.isOf]
    · have hmono := (s.deliveries d).rank_mono (p := (s.changed.wake e).Parked d)
        (q := s.changed.Parked d) (fun hd => ((Condvar.parked_wake _ _ _).mp hd).1)
      have hown : (Label.wake e : Label ε).isOf d = false := decide_eq_false hed
      rw [hown]
      exact hmono
  | resumeSignalled _ he _ _ =>
    refine rank_setDelivery ?_ d
    rw [hrank he]
    exact Nat.le_add_right 1 _
  | elapsed _ _ hfalse => rw [hs.signalled] at hfalse; cases hfalse
  | again _ _ hfalse => rw [hs.signalled] at hfalse; cases hfalse
  | exchange _ => exact Nat.le_refl _
  | signal _ => exact Nat.le_refl _
  | notify _ =>
    exact (s.deliveries d).rank_mono (fun hd => absurd hd (Condvar.parked_notifyAll s.changed d))

namespace DeliveryPc

/-- The delivery has begun and is not over. -/
def running : DeliveryPc ε → Bool
  | .outside | .ended _ => false
  | .calling _ | .sending _ | .entering .. | .blocked .. => true

end DeliveryPc

/-- A delivery that has begun and is not over can always move. -/
theorem delivery_enabled (delays : List Retry.Milliseconds) (s : State ε) {d : Nat}
    (hd : (s.deliveries d).running = true) :
    ∃ l, l.isOf d = true ∧ (step delays s l).isSome = true := by
  cases hpc : s.deliveries d with
  | outside => rw [hpc] at hd; cases hd
  | calling i => exact ⟨.attempt d, by simp [Label.isOf], by simp [step, State.attempt, hpc]⟩
  | sending i =>
    exact ⟨.complete d (.ok ⟨true, .value 200, none, none⟩), by simp [Label.isOf],
      by simp [step, State.complete, hpc]⟩
  | entering i duration => exact ⟨.enter d, by simp [Label.isOf], by simp [step, State.enter, hpc]⟩
  | blocked i duration =>
    by_cases hparked : s.changed.Parked d
    · exact ⟨.wake d, by simp [Label.isOf], by simp [step, State.wake, hparked]⟩
    · refine ⟨.resume d true, by simp [Label.isOf], ?_⟩
      cases hs : s.signalled with
      | true => simp [step, State.resume, hpc, hparked, hs]
      | false => simp [step, State.resume, hpc, hparked, hs]
  | ended result => rw [hpc] at hd; cases hd

/-- What a delivery does after the step from `s` in which the call `c` of `Close` set the flag, on
the way `post` to `t`. -/
structure StopsRetrying (delays : List Retry.Milliseconds) (c : Nat) (s a : State ε)
    (post : List (Label ε)) (t : State ε) (d : Nat) : Prop where
  /-- It begins the attempt it had before it, and no other. -/
  attempts : attempts (trace (step delays) events a post) d + (t.deliveries d).phase.pending =
    (s.deliveries d).phase.pending
  /-- It takes four steps at most, spurious wake-ups counted. -/
  steps : post.countP (Label.isOf d) ≤ 4
  /-- It is not left blocked behind the notification. -/
  notified : t.closes c = .done → ¬ t.changed.Parked d
  /-- And until it is over it is not stuck. -/
  goesOn : (t.deliveries d).running = true →
    ∃ l : Label ε, l.isOf d = true ∧ (step delays t l).isSome = true

/-- **After the signal no delivery keeps retrying,** in every run, with any number of deliveries
and of calls of `Close`: a delivery that has an attempt before it makes that one, one that is in an
attempt or waits makes none, and each is over after four more steps at most. -/
theorem deliveries_stop_after_signal {pre post : List (Label ε)} {a : State ε}
    (hpre : Run (step delays) anyStep new pre s) (hsignal : step delays s (.signal c) = some a)
    (hpost : Run (step delays) anyStep a post t) (d : Nat) :
    StopsRetrying delays c s a post t d := by
  have hsince : Since c a := .init (orderly_run hpre) hsignal
  have ht : Since c t := hpost.invariant (fun _ hstep hs => since_step hstep hs) hsince
  have hsame : a.deliveries = s.deliveries := by
    cases step_does hsignal with
    | signal _ => rfl
  refine ⟨?_, ?_, ?_, delivery_enabled delays t⟩
  · have hscheduled : Scheduled delays a := scheduled_step hsignal (scheduled_run hpre)
    have hattempts := Latch.attempts_after_signal (loops_run hpost hscheduled) hsince.signalled d
    rw [← hsame]
    exact hattempts
  · have hcount := @Run.countP_add_rank_le _ _ (step delays) anyStep (Since c) (Label.isOf d)
      (fun s => s.rank d) (fun _ hstep hs => since_step hstep hs)
      (fun _ hstep hs => rank_step hstep hs d) _ _ _ hpost hsince
    have hle : a.rank d ≤ 4 := DeliveryPc.rank_le _ _
    omega
  · intro hdone
    rcases ht.notified with hc | ⟨-, hnone⟩
    · rw [hdone] at hc
      cases hc
    · exact hnone d

end

theorem deliveries_stop_after_signal_interrupted : ∃ s a t : State Unit,
    Run (step [500, 1000]) anyStep new (interruptedRun.take 5) s ∧
    step [500, 1000] s (.signal 1) = some a ∧
    Run (step [500, 1000]) anyStep a (interruptedRun.drop 6) t ∧
    StopsRetrying [500, 1000] 1 s a (interruptedRun.drop 6) t 0 :=
  ⟨_, _, _, run_of_exec _ rfl, rfl, run_of_exec _ rfl,
    deliveries_stop_after_signal (run_of_exec (interruptedRun.take 5) rfl) rfl
      (run_of_exec (interruptedRun.drop 6) rfl) 0⟩

end OppexSdk.Cpp.Interrupt
