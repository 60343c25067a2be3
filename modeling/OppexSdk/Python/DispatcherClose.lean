import OppexSdk.Python.DispatcherAccounting

/-! # What a closed Python dispatcher leaves behind

`close` drains the queue once, and looks at it no more. As long as no submit that got past the
look at `_stopping` puts its task in after that, nothing stays queued. -/
namespace OppexSdk.Python.Dispatcher
open OppexSdk.Lib.Lifecycle OppexSdk.Lib.Transition

/-- `_drain_pending` has returned. -/
def ClosePc.drained : ClosePc → Bool
  | forcedJoining _ | returned => true
  | _ => false

/-- The call is over, or has not begun. -/
def SubmitPc.idle : SubmitPc → Bool
  | outside | returned | raised => true
  | _ => false

/-- The worker has a task that it took from the queue. -/
def WorkerPc.executing : WorkerPc → Bool
  | claiming _ | decrementing _ | calling _ | running _ => true
  | _ => false

namespace AsyncDispatcher
variable {cfg : Config} {s t : AsyncDispatcher cfg}

/-- `close` and all submits have returned, and no worker is executing a task. -/
structure Quiet (s : AsyncDispatcher cfg) : Prop where
  close : s.close = .returned
  submits : ∀ k, (s.submits k).idle = true
  workers : ∀ w, (s.workers w).executing = false

/-- No `_offer` begins once `_drain_pending` has returned. -/
def offersInTime (s : AsyncDispatcher cfg) : Label cfg → Prop
  | .offer _ | .reoffer _ => s.close.drained = false
  | _ => True

instance offersInTime.decidable (s : AsyncDispatcher cfg) :
    (l : Label cfg) → Decidable (s.offersInTime l)
  | .offer _ | .reoffer _ => inferInstanceAs (Decidable (_ = _))
  | .submit .. | .incrementQueued _ | .acquire _ | .poll _ | .submitDrop _ | .recheck _
  | .release _ | .get _ | .timeout _ | .checkStopping _ | .claim _ | .decrement _ | .call _
  | .finish .. | .close | .setStopping | .join .. | .joined | .signal | .drainPoll | .closeDrop
  | .forcedJoin .. | .forcedJoined => inferInstanceAs (Decidable True)

/-! ## The drained queue -/

/-- A step of `drop` leaves the queue and `close` alone. -/
theorem drop_queue (s : AsyncDispatcher cfg) (i : Nat) (pc : DropPc) :
    (s.drop i pc).1.queue = s.queue ∧ (s.drop i pc).1.close = s.close := by
  cases pc with
  | claim =>
    simp only [drop, AsyncDispatcher.claim]
    split <;> split <;> exact ⟨rfl, rfl⟩
  | _ => exact ⟨rfl, rfl⟩

theorem runClaim_queue (s : AsyncDispatcher cfg) (i : Nat) :
    (s.runClaim i).1.queue = s.queue ∧ (s.runClaim i).1.close = s.close := by
  simp only [runClaim, AsyncDispatcher.claim]
  split <;> split <;> exact ⟨rfl, rfl⟩

/-- A step adds to the queue only by an `_offer`. -/
theorem step_queue {l : Label cfg} (h : step s l = some t) :
    t.queue <:+ s.queue ∨ ∃ k, l = .offer k ∨ l = .reoffer k := by
  cases l with
  | offer k => exact .inr ⟨k, .inl rfl⟩
  | reoffer k => exact .inr ⟨k, .inr rfl⟩
  | poll k | get w | drainPoll =>
    left
    simp only [step] at h
    split at h <;> cases h <;> rename_i hq <;> simp [hq, setSubmit, setClose]
  | submitDrop k | closeDrop =>
    left
    simp only [step] at h
    split at h <;> cases h <;> simp [setSubmit, setClose, drop_queue]
  | claim w =>
    left
    simp only [step] at h
    split at h <;> cases h
    simp [setWorker, runClaim_queue]
  | join w expired | forcedJoin w expired | joined | forcedJoined =>
    left
    simp only [step] at h
    split at h
    · split at h <;> cases h
      exact List.suffix_refl _
    · cases h
  | _ =>
    left
    simp only [step] at h
    split at h <;> cases h
    exact List.suffix_refl _

/-- The drain is over when it finds the queue empty. -/
theorem step_close {l : Label cfg} (h : step s l = some t) (ht : t.close.drained = true) :
    s.close.drained = true ∨ l = .drainPoll ∧ s.queue = [] := by
  cases l with
  | drainPoll =>
    simp only [step] at h
    split at h <;> cases h
    · rename_i hq
      exact .inr ⟨rfl, hq⟩
    · cases ht
  | offer k | reoffer k =>
    left
    simp only [step] at h
    split at h <;> cases h
    simp only [offerOr] at ht
    split at ht <;> exact ht
  | submitDrop k =>
    left
    simp only [step] at h
    split at h <;> cases h <;> simpa [setSubmit, drop_queue] using ht
  | claim w =>
    left
    simp only [step] at h
    split at h <;> cases h
    simpa [setWorker, runClaim_queue] using ht
  | closeDrop =>
    simp only [step] at h
    split at h <;> cases h
    rename_i task pc _
    simp only [setClose] at ht
    cases hd : (s.drop task pc).2 <;> simp [hd, ClosePc.drained] at ht
  | join w expired =>
    simp only [step] at h
    split at h
    · split at h <;> cases h
      cases ht
    · cases h
  | joined =>
    simp only [step] at h
    split at h
    · split at h <;> cases h
      simp only [setClose] at ht
      split at ht <;> cases ht
    · cases h
  | close | setStopping | signal =>
    simp only [step] at h
    split at h <;> cases h
    cases ht
  | forcedJoin w expired | forcedJoined =>
    left
    simp only [step] at h
    split at h
    · rename_i hpc
      simp [hpc, ClosePc.drained]
    · cases h
  | _ =>
    left
    simp only [step] at h
    split at h <;> cases h <;> exact ht

/-- Once the drain is over the queue stays empty. -/
theorem drained_step {l : Label cfg} (hok : s.offersInTime l) (h : step s l = some t)
    (hs : s.close.drained = true → s.queue = []) (ht : t.close.drained = true) :
    t.queue = [] := by
  have hempty : s.queue = [] := (step_close h ht).elim hs And.right
  rcases step_queue h with hsuf | ⟨k, hl⟩
  · rw [hempty] at hsuf
    exact List.suffix_nil.mp hsuf
  · -- an `_offer` found the drain not over, and does not end it
    have hnot : s.close.drained = false := by obtain rfl | rfl := hl <;> exact hok
    rcases step_close h ht with hd | ⟨rfl, -⟩
    · rw [hnot] at hd; cases hd
    · simp at hl

theorem run_drained {ls : List (Label cfg)} (h : Run step offersInTime (new cfg) ls s) :
    s.close.drained = true → s.queue = [] :=
  h.invariant (I := fun s => s.close.drained = true → s.queue = [])
    (fun hok hstep hs => drained_step hok hstep hs) fun _ => rfl

/-! ## Tasks of a quiet dispatcher -/

theorem Quiet.holding (hq : s.Quiet) (h : Holder cfg) : s.holding h = none := by
  cases h with
  | worker w =>
    have hw := hq.workers w
    simp only [AsyncDispatcher.holding]
    cases hpc : s.workers w <;> simp_all [WorkerPc.executing, WorkerPc.holding]
  | submit k =>
    have hk := hq.submits k
    simp only [AsyncDispatcher.holding]
    cases hpc : s.submits k <;> simp_all [SubmitPc.idle, SubmitPc.holding]
  | closer => simp [AsyncDispatcher.holding, hq.close, ClosePc.holding]

/-- A quiet dispatcher with an empty queue has every task untouched or settled. -/
theorem Quiet.place (hq : s.Quiet) (hempty : s.queue = []) {i : Nat} {p : Place (Holder cfg)}
    (hp : s.view.At i p) : p = .settled ∨ p = .fresh ∧ s.submits i ≠ .returned := by
  cases p with
  | settled => exact .inl rfl
  | queued =>
    have hmem : i ∈ s.queue := hp
    rw [hempty] at hmem
    cases hmem
  | held h stage =>
    have hh : s.holding h = some (i, stage) := hp
    rw [hq.holding h] at hh
    cases hh
  | _ =>
    have hi := hq.submits i
    simp only [View.At, view] at hp
    cases hpc : s.submits i <;> simp_all [SubmitPc.idle, SubmitPc.status]

/-- **Nothing stays queued once close has returned**, if every `_offer` comes before the end of
the drain: the queue is empty, every accepted task was run or dropped once, the count is zero. -/
theorem nothing_stays_queued {ls : List (Label cfg)}
    (h : Run step offersInTime (new cfg) ls s) (hq : s.Quiet) :
    s.queue = [] ∧ (∀ k, s.submits k = .returned → (s.ran ++ s.dropLog).count k = 1) ∧
      s.queued = 0 := by
  have hempty : s.queue = [] := run_drained h (by rw [hq.close]; rfl)
  obtain ⟨place, hplaced⟩ := run_accounted h
  have hplace (k : Nat) := hq.place hempty ((hplaced.at_iff k _).mpr rfl)
  refine ⟨hempty, ?_, ?_⟩
  · intro k hk
    rcases hplace k with hset | ⟨-, hne⟩
    · have hcount := hplaced.done k
      rw [hset] at hcount
      exact hcount
    · exact absurd hk hne
  · -- what was counted has been taken out of the count
    have hall := hplaced.registered.perm_of_agree hplaced.released fun k => by
      rcases hplace k with hset | ⟨hset, -⟩ <;> rw [hset] <;> rfl
    have hdepth : s.queued = s.registered.length - s.released.length := hplaced.depth
    have hlen : s.registered.length = s.released.length := hall.length_eq
    omega

/-- The default configuration. -/
def standard : Config := ⟨2, 5000⟩

/-- One task is run and one is dropped by the drain. -/
theorem nothing_stays_queued_standard : ∃ ls s, Run step offersInTime (new standard) ls s ∧
    s.Quiet ∧ s.submits 0 = .returned ∧ s.submits 1 = .returned ∧
    s.queue = [] ∧ (∀ k, s.submits k = .returned → (s.ran ++ s.dropLog).count k = 1) ∧
      s.queued = 0 := by
  have hex : ∃ ls s, Run step offersInTime (new standard) ls s ∧ s.Quiet ∧
      s.submits 0 = .returned ∧ s.submits 1 = .returned := by
    refine ⟨_, _, run_of_exec [
      .submit 0 false, .incrementQueued 0, .acquire 0, .offer 0, .release 0,
      .submit 1 false, .incrementQueued 1, .acquire 1, .offer 1, .release 1,
      .get (0 : Fin 2), .claim (0 : Fin 2), .decrement (0 : Fin 2), .call (0 : Fin 2),
      .close, .setStopping, .join (0 : Fin 2) true, .join (1 : Fin 2) true, .joined, .signal,
      .drainPoll, .closeDrop, .closeDrop, .closeDrop, .closeDrop, .drainPoll,
      .forcedJoin (0 : Fin 2) true, .forcedJoin (1 : Fin 2) true, .forcedJoined,
      .finish (0 : Fin 2) false] rfl,
      ⟨rfl, ?_, by decide⟩, rfl, rfl⟩
    intro k
    rcases k with _ | _ | k <;> rfl
  obtain ⟨ls, s, hrun, hq, h0, h1⟩ := hex
  exact ⟨ls, s, hrun, hq, h0, h1, nothing_stays_queued hrun hq⟩

/-- A submit that passed the look at `_stopping` offers its task to a dispatcher that has closed. -/
theorem late_offer_stays_queued : ∃ ls s, Run step anyStep (new standard) ls s ∧
    s.Quiet ∧ s.submits 0 = .returned ∧ s.queue = [0] ∧ (s.ran ++ s.dropLog).count 0 = 0 ∧
      s.queued = 1 := by
  refine ⟨_, _, run_of_exec [.submit 0 false, .incrementQueued 0, .acquire 0,
    .close, .setStopping, .timeout (0 : Fin 2), .checkStopping (0 : Fin 2), .timeout (1 : Fin 2),
    .checkStopping (1 : Fin 2), .join (0 : Fin 2) false, .join (1 : Fin 2) false, .joined,
    .drainPoll, .forcedJoin (0 : Fin 2) false, .forcedJoin (1 : Fin 2) false, .forcedJoined,
    .offer 0, .release 0] rfl,
    ⟨rfl, ?_, by decide⟩, rfl, rfl, rfl, rfl⟩
  intro k
  cases k <;> rfl

end AsyncDispatcher

end OppexSdk.Python.Dispatcher
