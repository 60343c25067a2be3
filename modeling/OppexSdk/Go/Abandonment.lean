import OppexSdk.Go.DispatcherSubmission
import OppexSdk.Lib.Ledger

/-! # What the Go dispatcher abandons, and what it says it did

When the drain times out, `close` reads the length of the channel, cancels the context and logs the
number, in three steps with no lock in common with the workers. A worker that has received a task
and not yet looked at the context is not in the number; it calls the task or discards it. -/
namespace OppexSdk.Go
open OppexSdk.Lib OppexSdk.Lib.Transition
open OppexSdk.Lib.Ledger (unsettled length_unsettled)

variable {cfg : Config}

/-- The task that a worker has received and neither called nor discarded. -/
def WorkerPc.held : WorkerPc → Multiset TaskId
  | .received task => {task}
  | _ => 0

/-- The worker is between its receive and its look at the context. -/
def WorkerPc.undecided : WorkerPc → Bool
  | .received _ => true
  | _ => false

namespace Dispatcher

def held (d : Dispatcher cfg) : Multiset TaskId := ∑ w, (d.workers w).held

def undecided (d : Dispatcher cfg) : Finset (Fin cfg.workers) :=
  Finset.univ.filter fun w => (d.workers w).undecided = true

/-- The accepted tasks that were never evicted and whose function was never called. -/
def neverCalled (d : Dispatcher cfg) : List TaskId :=
  unsettled d.accepted d.called (d.evicted.map Prod.snd)

/-- The tasks that are left over. -/
def left (d : Dispatcher cfg) : Nat :=
  d.discarded.length + Multiset.card d.held + d.queue.buffer.length

end Dispatcher

/-- The step calls a task, as long as the context is not cancelled. -/
def Label.isCall : Label cfg → Bool
  | .start _ => true
  | _ => false

section
variable {d t : Dispatcher cfg} {l : Label cfg}

/-! ## The tasks that workers have received -/

theorem card_held (d : Dispatcher cfg) : Multiset.card d.held = d.undecided.card := by
  rw [Dispatcher.held, Multiset.card_sum, Dispatcher.undecided, Finset.card_filter]
  refine Finset.sum_congr rfl ?_
  intro w _
  cases d.workers w <;> rfl

/-- A worker with nothing in its hands moves. -/
theorem held_take {w : Fin cfg.workers} (pc : WorkerPc) (hw : (d.workers w).held = 0) :
    (d.setWorker w pc).held = d.held + pc.held :=
  sum_update_gain hw

theorem held_stay {w : Fin cfg.workers} {pc : WorkerPc} (hw : (d.workers w).held = 0)
    (hpc : pc.held = 0) : (d.setWorker w pc).held = d.held :=
  sum_update_stay hw hpc

/-- A worker calls or discards its task. -/
theorem held_drop {w : Fin cfg.workers} {task : TaskId} (pc : WorkerPc)
    (hw : d.workers w = .received task) (hpc : pc.held = 0) :
    (d.setWorker w pc).held + {task} = d.held := by
  have hsum : (d.setWorker w pc).held + (d.workers w).held = d.held := sum_update_lose hpc
  rw [hw] at hsum
  exact hsum

section
variable (d) (k : TaskId) (elapsed : Bool)

@[simp] theorem recordDrop_workers : (d.recordDrop k elapsed).workers = d.workers := by
  unfold Dispatcher.recordDrop; split <;> rfl

@[simp] theorem recordDrop_called : (d.recordDrop k elapsed).called = d.called := by
  unfold Dispatcher.recordDrop; split <;> rfl

@[simp] theorem recordDrop_discarded : (d.recordDrop k elapsed).discarded = d.discarded := by
  unfold Dispatcher.recordDrop; split <;> rfl

@[simp] theorem recordDrop_cancelled : (d.recordDrop k elapsed).cancelled = d.cancelled := by
  unfold Dispatcher.recordDrop; split <;> rfl

end

/-- What a worker has received it called, discarded or still has. -/
def Tallied (d : Dispatcher cfg) : Prop :=
  (d.received : Multiset TaskId) = d.called + d.discarded + d.held

theorem tallied_step (hstep : step d l = some t) (hguard : Guarded d) (h : Tallied d) :
    Tallied t := by
  have hsnoc (xs : List TaskId) (task : TaskId) :
      ((xs ++ [task] : List TaskId) : Multiset TaskId) = xs + {task} :=
    (Multiset.coe_add xs [task]).symm
  unfold Tallied at h
  cases step_moves hstep with
  | @receive w task queue hw _ =>
    have hheld := held_take (d := d) (w := w) (.received task) (by rw [hw]; rfl)
    show ((d.received ++ [task] : List TaskId) : Multiset TaskId) =
      d.called + d.discarded + (d.setWorker w (.received task)).held
    rw [hsnoc, h, hheld, WorkerPc.held]
    abel
  | @start w task hw _ =>
    have hheld := held_drop (.running task) hw rfl
    show (d.received : Multiset TaskId) = ((d.called ++ [task] : List TaskId) : Multiset TaskId) +
      d.discarded + (d.setWorker w (.running task)).held
    rw [hsnoc, h, ← hheld]
    abel
  | @discard w task hw _ =>
    have hheld := held_drop .exited hw rfl
    show (d.received : Multiset TaskId) = d.called +
      ((d.discarded ++ [task] : List TaskId) : Multiset TaskId) + (d.setWorker w .exited).held
    rw [hsnoc, h, ← hheld]
    abel
  | @exit w hw _ =>
    show (d.received : Multiset TaskId) = d.called + d.discarded + (d.setWorker w .exited).held
    rw [h, held_stay (by rw [hw]; rfl) rfl]
  | @finish w task hw =>
    show (d.received : Multiset TaskId) = d.called + d.discarded + (d.setWorker w .receiving).held
    rw [h, held_stay (by rw [hw]; rfl) rfl]
  | evict _ _ =>
    simp only [Tallied, Dispatcher.held, recordDrop_received, recordDrop_called,
      recordDrop_discarded, recordDrop_workers, Dispatcher.setSubmit]
    exact h
  | evictClosed hk hreceive => exact absurd hreceive (hguard.not_evictClosed hk)
  | lose hk hsend => exact absurd hsend (hguard.not_lose hk)
  | _ => exact h

/-- The tasks never called are the ones that are left over. -/
theorem length_neverCalled (hledger : Ledger d) (htally : Tallied d) :
    d.neverCalled.length = d.left := by
  have hplaced : (d.accepted : Multiset TaskId) =
      d.called + (d.evicted.map Prod.snd : List TaskId) + (d.discarded + d.held + d.queue.buffer) := by
    rw [hledger.placed, htally]
    abel
  rw [Dispatcher.neverCalled, length_unsettled hplaced hledger.nodup, Dispatcher.left]
  simp

/-! ## Closing -/

/-- The close has closed the channel and not yet cancelled the context. -/
def ClosePc.draining : ClosePc → Bool
  | .marked | .waiting | .counted _ => true
  | _ => false

/-- One close drains at a time, with the channel closed and the context not cancelled. -/
structure Closing (d : Dispatcher cfg) : Prop where
  cancelled : d.cancelled = true → d.closed = true
  draining : ∀ c, (d.closes c).draining = true → d.closed = true ∧ d.cancelled = false
  unique : ∀ c c', (d.closes c).draining = true → (d.closes c').draining = true → c = c'

theorem Closing.init : Closing (newDispatcher cfg) where
  cancelled := by intro h; cases h
  draining := by intro c hc; cases hc
  unique := by intro c c' hc; cases hc

/-- A close that does not begin to drain moves. -/
theorem Closing.closeMoves (h : Closing d) {c : Nat} {pc : ClosePc}
    (hcloses : t.closes = Function.update d.closes c pc) (hclosed : t.closed = d.closed)
    (hcancelled : t.cancelled = d.cancelled)
    (hpc : pc.draining = true → (d.closes c).draining = true) : Closing t := by
  have hback : ∀ j, (t.closes j).draining = true → (d.closes j).draining = true := by
    intro j hj
    rw [hcloses] at hj
    by_cases he : j = c
    · subst he
      rw [Function.update_self] at hj
      exact hpc hj
    · rw [Function.update_of_ne he] at hj
      exact hj
  refine ⟨?_, ?_, ?_⟩
  · rw [hcancelled, hclosed]
    exact h.cancelled
  · intro j hj
    rw [hclosed, hcancelled]
    exact h.draining j (hback j hj)
  · intro j j' hj hj'
    exact h.unique j j' (hback j hj) (hback j' hj')

/-- The draining close cancels the context: nobody drains any more. -/
theorem Closing.cancel (h : Closing d) {c : Nat} {pc : ClosePc}
    (hc : (d.closes c).draining = true) (hpc : pc.draining = false)
    (hcloses : t.closes = Function.update d.closes c pc) (hclosed : t.closed = d.closed) :
    Closing t := by
  have hnone : ∀ j, ¬ (t.closes j).draining = true := by
    intro j hj
    rw [hcloses] at hj
    by_cases he : j = c
    · subst he
      rw [Function.update_self, hpc] at hj
      cases hj
    · rw [Function.update_of_ne he] at hj
      exact he (h.unique j c hj hc)
  refine ⟨?_, ?_, ?_⟩
  · intro _
    rw [hclosed]
    exact (h.draining c hc).1
  · intro j hj
    exact absurd hj (hnone j)
  · intro j j' hj
    exact absurd hj (hnone j)

theorem Closing.mark (h : Closing d) {c : Nat} (hopen : d.closed = false)
    (hcloses : t.closes = Function.update d.closes c .marked) (hclosed : t.closed = true)
    (hcancelled : t.cancelled = d.cancelled) : Closing t := by
  have hfresh : d.cancelled = false := by
    cases hcancelled : d.cancelled with
    | false => rfl
    | true =>
      have hwas := h.cancelled hcancelled
      rw [hopen] at hwas
      cases hwas
  have honly : ∀ j, (t.closes j).draining = true → j = c := by
    intro j hj
    rw [hcloses] at hj
    by_contra he
    rw [Function.update_of_ne he] at hj
    have hwas := (h.draining j hj).1
    rw [hopen] at hwas
    cases hwas
  refine ⟨fun _ => hclosed, fun j hj => ⟨hclosed, hcancelled.trans hfresh⟩, ?_⟩
  intro j j' hj hj'
  rw [honly j hj, honly j' hj']

theorem closing_step (hstep : step d l = some t) (hguard : Guarded d) (h : Closing d) :
    Closing t := by
  cases step_moves hstep with
  | evict _ _ =>
    refine ⟨?_, ?_, ?_⟩ <;> simp only [recordDrop_closes, recordDrop_closed, recordDrop_cancelled,
      Dispatcher.setSubmit]
    · exact h.cancelled
    · exact h.draining
    · exact h.unique
  | evictClosed hk hreceive => exact absurd hreceive (hguard.not_evictClosed hk)
  | lose hk hsend => exact absurd hsend (hguard.not_lose hk)
  | lockClose hc _ | closeAgain hc _ | unlockRefused hc =>
    exact h.closeMoves rfl rfl rfl fun hpc => by cases hpc
  | unlockMarked hc | timeout hc => exact h.closeMoves rfl rfl rfl fun _ => by rw [hc]; rfl
  | warn hc => exact h.closeMoves rfl rfl rfl fun hpc => by cases hpc
  | markClosed _ hopen _ => exact h.mark hopen rfl rfl rfl
  | drained hc _ => exact h.cancel (by rw [hc]; rfl) rfl rfl rfl
  | abandon hc => exact h.cancel (by rw [hc]; rfl) rfl rfl rfl
  | _ => exact ⟨h.cancelled, h.draining, h.unique⟩

/-! ## The tasks that are left over -/

/-- How many tasks a step calls. -/
def calls (d : Dispatcher cfg) (l : Label cfg) : Nat := if l.isCall && !d.cancelled then 1 else 0

/-- Once the channel is closed, a task that is left over is called, or stays left over. -/
theorem left_step (hstep : step d l = some t) (hguard : Guarded d) (hclosed : d.closed = true) :
    t.left + calls d l = d.left := by
  have hshut : d.queue.closed = true := hguard.closed.trans hclosed
  cases step_moves hstep with
  | @receive w task queue hw hreceive =>
    obtain ⟨rest, hbuffer, rfl⟩ := Chan.receive_eq_value hreceive
    have hheld := held_take (d := d) (w := w) (.received task) (by rw [hw]; rfl)
    show d.discarded.length + Multiset.card (d.setWorker w (.received task)).held +
      rest.length + 0 = d.discarded.length + Multiset.card d.held + d.queue.buffer.length
    rw [hheld, hbuffer, Multiset.card_add, List.length_cons, WorkerPc.held,
      Multiset.card_singleton]
    omega
  | @start w task hw hlive =>
    have hheld := congrArg Multiset.card (held_drop (.running task) hw rfl)
    rw [Multiset.card_add, Multiset.card_singleton] at hheld
    have hone : calls d (.start w) = 1 := by simp [calls, Label.isCall, hlive]
    show d.discarded.length + Multiset.card (d.setWorker w (.running task)).held +
      d.queue.buffer.length + _ = d.discarded.length + Multiset.card d.held + d.queue.buffer.length
    omega
  | @discard w task hw hcancelled =>
    have hheld := congrArg Multiset.card (held_drop .exited hw rfl)
    rw [Multiset.card_add, Multiset.card_singleton] at hheld
    have hnone : calls d (.start w) = 0 := by simp [calls, hcancelled]
    show (d.discarded ++ [task]).length + Multiset.card (d.setWorker w .exited).held +
      d.queue.buffer.length + _ = d.discarded.length + Multiset.card d.held + d.queue.buffer.length
    rw [List.length_append, List.length_singleton]
    omega
  | @exit w hw _ =>
    show d.discarded.length + Multiset.card (d.setWorker w .exited).held + _ + 0 = d.left
    rw [held_stay (by rw [hw]; rfl) rfl]
    rfl
  | @finish w task hw =>
    show d.discarded.length + Multiset.card (d.setWorker w .receiving).held + _ + 0 = d.left
    rw [held_stay (by rw [hw]; rfl) rfl]
    rfl
  | send hk _ => cases (hguard.sending_open hk).symm.trans hshut
  | evict hk _ => cases (hguard.evicting_open hk).symm.trans hshut
  | resend hk _ => cases (hguard.resending_room hk).1.symm.trans hshut
  | evictClosed hk hreceive => exact absurd hreceive (hguard.not_evictClosed hk)
  | lose hk hsend => exact absurd hsend (hguard.not_lose hk)
  | markClosed _ hopen _ => cases hopen.symm.trans hclosed
  | _ => rfl

/-- Neither flag is taken back. -/
theorem flags_step (hstep : step d l = some t) (hguard : Guarded d) :
    (d.closed = true → t.closed = true) ∧ (d.cancelled = true → t.cancelled = true) := by
  cases step_moves hstep with
  | evict _ _ =>
    simp only [recordDrop_closed, recordDrop_cancelled, Dispatcher.setSubmit]
    exact ⟨id, id⟩
  | evictClosed hk hreceive => exact absurd hreceive (hguard.not_evictClosed hk)
  | lose hk hsend => exact absurd hsend (hguard.not_lose hk)
  | markClosed _ _ _ => exact ⟨fun _ => rfl, id⟩
  | drained _ _ => exact ⟨id, fun _ => rfl⟩
  | abandon _ => exact ⟨id, fun _ => rfl⟩
  | _ => exact ⟨id, id⟩

theorem cancelled_run {ls : List (Label cfg)} (h : Run step anyStep d ls t) (hguard : Guarded d)
    (hlive : t.cancelled = false) : d.cancelled = false := by
  cases hcancelled : d.cancelled with
  | false => rfl
  | true =>
    have hend := (h.invariant (I := fun d => Guarded d ∧ d.cancelled = true)
      (fun _ hstep hs => ⟨guarded_step hstep hs.1, (flags_step hstep hs.1).2 hs.2⟩)
      ⟨hguard, hcancelled⟩).2
    cases hlive.symm.trans hend

/-- Up to the cancellation, every call is one task less. -/
theorem left_before_cancel {ls : List (Label cfg)} (h : Run step anyStep d ls t)
    (hguard : Guarded d) (hclosed : d.closed = true) (hlive : t.cancelled = false) :
    t.left + ls.countP Label.isCall = d.left := by
  induction h with
  | nil _ => rfl
  | @cons s u t l ls _ hstep hrest ih =>
    have hu := guarded_step hstep hguard
    have hrun : Run step anyStep s (l :: ls) t := .cons trivial hstep hrest
    have hstart := cancelled_run hrun hguard hlive
    have hone := left_step hstep hguard hclosed
    have hrest := ih hu ((flags_step hstep hguard).1 hclosed) hlive
    rw [calls, hstart] at hone
    rw [List.countP_cons]
    cases hcall : l.isCall <;> simp only [hcall] at hone ⊢ <;> simp at hone ⊢ <;> omega

/-- From the cancellation on, nothing is called. -/
theorem left_after_cancel {ls : List (Label cfg)} (h : Run step anyStep d ls t)
    (hguard : Guarded d) (hclosed : d.closed = true) (hcancelled : d.cancelled = true) :
    t.left = d.left := by
  induction h with
  | nil _ => rfl
  | cons _ hstep _ ih =>
    have hone := left_step hstep hguard hclosed
    rw [calls, hcancelled] at hone
    obtain ⟨hclosed', hcancelled'⟩ := flags_step hstep hguard
    rw [ih (guarded_step hstep hguard) (hclosed' hclosed) (hcancelled' hcancelled), ← hone]
    simp

/-! ## The number that is logged -/

/-- The close has read the number, and nothing changes it. -/
def ClosePc.Reports (n : Nat) (pc : ClosePc) : Prop :=
  pc = .counted n ∨ pc = .abandoned n ∨ pc = .returned

theorem reports_step {c n : Nat} (hstep : step d l = some t) (hguard : Guarded d)
    (h : (d.closes c).Reports n) : (t.closes c).Reports n := by
  have hother : ∀ c' pc, (c' = c → pc.Reports n) →
      (Function.update d.closes c' pc c).Reports n := by
    intro c' pc hpc
    by_cases he : c = c'
    · subst he
      rw [Function.update_self]
      exact hpc rfl
    · rw [Function.update_of_ne he]
      exact h
  have hnot : ∀ {c' pc}, d.closes c' = pc → ¬ pc.Reports n → c' ≠ c := by
    intro c' pc hpc hno he
    subst he
    exact hno (hpc ▸ h)
  cases step_moves hstep with
  | evict _ _ => simpa only [recordDrop_closes, Dispatcher.setSubmit] using h
  | evictClosed hk hreceive => exact absurd hreceive (hguard.not_evictClosed hk)
  | lose hk hsend => exact absurd hsend (hguard.not_lose hk)
  | lockClose hc _ | closeAgain hc _ | markClosed hc _ _ | unlockMarked hc | timeout hc =>
    exact hother _ _ fun he => absurd he (hnot hc (by simp [ClosePc.Reports]))
  | unlockRefused hc => exact hother _ _ fun _ => .inr (.inr rfl)
  | drained hc _ => exact hother _ _ fun _ => .inr (.inr rfl)
  | @abandon c' m hc =>
    refine hother _ _ ?_
    intro he
    subst he
    rw [hc] at h
    rcases h with h | h | h <;> cases h
    exact .inr (.inl rfl)
  | warn hc => exact hother _ _ fun _ => .inr (.inr rfl)
  | _ => exact h

/-- Nothing is discarded before the cancellation. -/
theorem discarded_step (hstep : step d l = some t) (hguard : Guarded d)
    (h : d.cancelled = false → d.discarded = []) : t.cancelled = false → t.discarded = [] := by
  cases step_moves hstep with
  | evict _ _ =>
    simpa only [recordDrop_cancelled, recordDrop_discarded, Dispatcher.setSubmit] using h
  | evictClosed hk hreceive => exact absurd hreceive (hguard.not_evictClosed hk)
  | lose hk hsend => exact absurd hsend (hguard.not_lose hk)
  | discard _ hcancelled => intro hlive; cases hlive.symm.trans hcancelled
  | drained _ _ => intro hlive; cases hlive
  | abandon _ => intro hlive; cases hlive
  | _ => exact h

/-- Everything that holds in every state. -/
structure Inv (d : Dispatcher cfg) : Prop where
  guarded : Guarded d
  ledger : Ledger d
  tallied : Tallied d
  closing : Closing d
  discarded : d.cancelled = false → d.discarded = []

theorem inv_step (hstep : step d l = some t) (h : Inv d) : Inv t :=
  ⟨guarded_step hstep h.guarded, ledger_step hstep h.guarded h.ledger,
    tallied_step hstep h.guarded h.tallied, closing_step hstep h.guarded h.closing,
    discarded_step hstep h.guarded h.discarded⟩

theorem Inv.run {ls : List (Label cfg)} (h : Inv d) (hrun : Run step anyStep d ls t) : Inv t :=
  hrun.invariant (fun _ hstep hs => inv_step hstep hs) h

theorem Inv.init : Inv (newDispatcher cfg) := by
  refine ⟨.init, .init, ?_, .init, fun _ => rfl⟩
  simp [Tallied, newDispatcher, Dispatcher.held, WorkerPc.held]

theorem Inv.reports {c n : Nat} {ls : List (Label cfg)} (h : Inv d)
    (hrun : Run step anyStep d ls t) (hc : (d.closes c).Reports n) : (t.closes c).Reports n :=
  (hrun.invariant (I := fun d => Inv d ∧ (d.closes c).Reports n)
    (fun _ hstep hs => ⟨inv_step hstep hs.1, reports_step hstep hs.1.guarded hs.2⟩) ⟨h, hc⟩).2

/-- What the three steps of the timeout branch do, and what is left over at the end. -/
theorem left_at_end {c : Nat} {mid rest : List (Label cfg)} {u v e : Dispatcher cfg} (h : Inv d)
    (hread : step d (.timeout c) = some u) (hmid : Run step anyStep u mid v)
    (hcancel : step v (.abandon c) = some t) (hrest : Run step anyStep t rest e) :
    e.left + mid.countP Label.isCall = d.left ∧ t.closes c = .abandoned d.queue.buffer.length := by
  have hu := inv_step hread h
  have hv := hu.run hmid
  have ht := inv_step hcancel hv
  cases step_moves hread with
  | timeout hc =>
    have hclosed := (h.closing.draining c (by rw [hc]; rfl)).1
    have hreports : ((d.setClose c (.counted d.queue.buffer.length)).closes c).Reports
        d.queue.buffer.length := .inl (Function.update_self ..)
    have hv' := hu.reports hmid hreports
    cases step_moves hcancel with
    | @abandon _ n hn =>
      have hlive := (hv.closing.draining c (by rw [hn]; rfl)).2
      have hbefore := left_before_cancel hmid hu.guarded hclosed hlive
      have hafter := left_after_cancel hrest ht.guarded (ht.closing.cancelled rfl) rfl
      rw [hn] at hv'
      rcases hv' with hv' | hv' | hv' <;> cases hv'
      refine ⟨?_, Function.update_self ..⟩
      rw [hafter]
      exact hbefore

/-- **When the number is right.** What `close` logs is the number of accepted, never evicted tasks
that are never called, exactly when between its read and its cancellation as many tasks are called
as workers stood before the call of a received task at the read. -/
theorem abandoned_count_right_iff {c : Nat} {pre mid rest post : List (Label cfg)}
    {e : Dispatcher cfg} (hpre : Run step anyStep (newDispatcher cfg) pre d)
    (hrun : Run step anyStep d
      (.timeout c :: (mid ++ .abandon c :: (rest ++ .warn c :: post))) e) :
    ∃ u v n, Run step anyStep d (.timeout c :: (mid ++ .abandon c :: rest)) u ∧
      step u (.warn c) = some v ∧ v.log = u.log ++ [.abandoned n] ∧
      (n = e.neverCalled.length ↔ mid.countP Label.isCall = d.undecided.card) := by
  have hd : Inv d := Inv.init.run hpre
  cases hrun with
  | @cons _ u _ _ _ _ hread hrun =>
    obtain ⟨v, hmid, hrun⟩ := hrun.split
    cases hrun with
    | @cons _ w _ _ _ _ hcancel hrest =>
      obtain ⟨hleft, hw⟩ := left_at_end hd hread hmid hcancel hrest
      have hwInv : Inv w := inv_step hcancel ((inv_step hread hd).run hmid)
      have he : Inv e := hwInv.run hrest
      obtain ⟨x, hrest, hrun⟩ := hrest.split
      cases hrun with
      | @cons _ y _ _ _ _ hwarn _ =>
        refine ⟨x, y, d.queue.buffer.length, ?_, hwarn, ?_, ?_⟩
        · exact .cons trivial hread (hmid.append (.cons trivial hcancel hrest))
        · have hx := hwInv.reports hrest (.inr (.inl hw))
          cases step_moves hwarn with
          | warn hn =>
            rw [hn] at hx
            rcases hx with hx | hx | hx <;> cases hx
            rfl
        · have hstart : d.left = d.undecided.card + d.queue.buffer.length := by
            cases step_moves hread with
            | timeout hc =>
              have hlive := (hd.closing.draining c (by rw [hc]; rfl)).2
              rw [Dispatcher.left, hd.discarded hlive, card_held, List.length_nil, Nat.zero_add]
          rw [length_neverCalled he.ledger he.tallied]
          omega

end

/-- The one worker of the smallest dispatcher. -/
def onlyWorker : Fin smallest.workers := ⟨0, Nat.one_pos⟩

/-- A task is with the worker when the close begins to wait, and `queued` more are in the
channel. -/
def closingOn (queued : List (Label smallest)) : List (Label smallest) :=
  [.lock 0, .check 0, .send 0, .unlock 0, .receive onlyWorker] ++ queued ++
    [.lockClose 0, .markClosed 0, .unlockClose 0]

/-- The worker calls its task after the read, and the task in the channel is the one not called. -/
theorem abandoned_count_right_iff_called : ∃ pre d mid rest post e,
    Run step anyStep (newDispatcher smallest) pre d ∧
    Run step anyStep d (.timeout 0 :: (mid ++ .abandon 0 :: (rest ++ .warn 0 :: post))) e ∧
    mid.countP Label.isCall = d.undecided.card ∧ e.neverCalled = [1] ∧
    ∃ u v n, Run step anyStep d (.timeout 0 :: (mid ++ .abandon 0 :: rest)) u ∧
      step u (.warn 0) = some v ∧ v.log = u.log ++ [.abandoned n] ∧
      (n = e.neverCalled.length ↔ mid.countP Label.isCall = d.undecided.card) := by
  have hex : ∃ d e, Run step anyStep (newDispatcher smallest)
      (closingOn [.lock 1, .check 1, .send 1, .unlock 1]) d ∧
      Run step anyStep d (.timeout 0 :: ([.start onlyWorker] ++ .abandon 0 :: ([] ++ .warn 0 ::
        [.finish onlyWorker, .receive onlyWorker, .start onlyWorker]))) e ∧
      d.undecided.card = 1 ∧ e.neverCalled = [1] :=
    ⟨_, _, run_of_exec _ rfl, run_of_exec _ rfl, rfl, rfl⟩
  obtain ⟨d, e, hpre, hrun, hundecided, hnever⟩ := hex
  exact ⟨_, d, _, _, _, e, hpre, hrun, hundecided.symm, hnever, abandoned_count_right_iff hpre hrun⟩

/-- A task that the worker has received is not in the number, and the worker discards it. -/
theorem discarded_task_is_not_logged : ∃ e,
    Run step anyStep (newDispatcher smallest)
      (closingOn [] ++ [.timeout 0, .abandon 0, .warn 0, .start onlyWorker]) e ∧
    e.log = [.abandoned 0] ∧ e.neverCalled = [0] ∧ ∀ w, e.workers w = .exited :=
  ⟨_, run_of_exec _ rfl, rfl, rfl, by decide⟩

end OppexSdk.Go
