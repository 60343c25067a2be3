import Mathlib.Tactic.Abel
import OppexSdk.DotNet.AsyncDispatcher
import OppexSdk.Lib.Ledger

/-! # The tasks of the .NET dispatcher

Every accepted task was dropped by the channel, was called, waits in the channel, is in the hands of
a worker that has not called it, or was lost when that worker read a disposed token. What was called
has ended or runs. The calls of `CloseAsync` are told apart: one of them drains. -/
namespace OppexSdk.DotNet
open OppexSdk.Lib.Transition
open OppexSdk.Lib.Ledger (unsettled length_unsettled)

def WorkerPc.taking : WorkerPc → Multiset Nat
  | taken task => {task}
  | _ => 0

def WorkerPc.calling : WorkerPc → Multiset Nat
  | running task => {task}
  | _ => 0

/-- The call of `CloseAsync` closed the dispatcher and has not found it drained. -/
def ClosePc.active : ClosePc → Bool
  | draining | timedOut _ | cancelling _ | cancelled _ | raised => true
  | closed forced | disposed forced => forced
  | outside => false

/-- The call has cancelled the token. -/
def ClosePc.hasCancelled : ClosePc → Bool
  | cancelling _ | cancelled _ => true
  | closed forced | disposed forced => forced
  | _ => false

/-- `CancelAsync` has completed in the call. -/
def ClosePc.hasCompleted : ClosePc → Bool
  | cancelled _ => true
  | closed forced | disposed forced => forced
  | _ => false

/-- The call has returned after the branch of the timeout. -/
def ClosePc.forced : ClosePc → Bool
  | closed forced | disposed forced => forced
  | _ => false

namespace AsyncDispatcher
variable {cfg : Config} {s t : AsyncDispatcher cfg} {l : Label cfg}

/-- The tasks in the hands of workers that have not called them. -/
def taken (s : AsyncDispatcher cfg) : Multiset Nat := ∑ w, (s.workers w).taking

def running (s : AsyncDispatcher cfg) : Multiset Nat := ∑ w, (s.workers w).calling

/-- The accepted tasks that were never evicted and never called. -/
def neverInvoked (s : AsyncDispatcher cfg) : List Nat := unsettled s.accepted s.invoked s.evicted

structure Ledger (s : AsyncDispatcher cfg) : Prop where
  nodup : s.accepted.Nodup
  fresh : ∀ k ∈ s.accepted, s.submits k = .accepted
  accepted : (s.accepted : Multiset Nat) = s.invoked + s.evicted + (s.queue + s.taken + s.lost)
  invoked : (s.invoked : Multiset Nat) = s.finished + s.running
  lost : s.disposed = false → s.lost = []

theorem coe_snoc (xs : List Nat) (k : Nat) :
    ((xs ++ [k] : List Nat) : Multiset Nat) = xs + {k} :=
  (Multiset.coe_add xs [k]).symm

/-- The channel drops its oldest task to take another. -/
theorem tryWrite_coe (s : AsyncDispatcher cfg) (k : Nat) :
    ((s.tryWrite k).evicted : Multiset Nat) + (s.tryWrite k).queue = s.evicted + s.queue + {k} := by
  unfold tryWrite
  split
  · show (s.evicted : Multiset Nat) + ((s.queue ++ [k] : List Nat) : Multiset Nat) = _
    rw [coe_snoc, add_assoc]
  · have hsplit : ((s.queue.take 1 : List Nat) : Multiset Nat) + s.queue.drop 1 = s.queue := by
      rw [Multiset.coe_add, List.take_append_drop]
    show ((s.evicted ++ s.queue.take 1 : List Nat) : Multiset Nat) +
      ((s.queue.drop 1 ++ [k] : List Nat) : Multiset Nat) = _
    rw [← Multiset.coe_add, coe_snoc, ← hsplit]
    abel

theorem tryWrite_frame (s : AsyncDispatcher cfg) (k : Nat) :
    (s.tryWrite k).accepted = s.accepted ++ [k] ∧ (s.tryWrite k).invoked = s.invoked ∧
      (s.tryWrite k).workers = s.workers ∧ (s.tryWrite k).lost = s.lost ∧
      (s.tryWrite k).finished = s.finished ∧ (s.tryWrite k).disposed = s.disposed ∧
      (s.tryWrite k).closes = s.closes ∧ (s.tryWrite k).submits = s.submits := by
  unfold tryWrite
  split <;> exact ⟨rfl, rfl, rfl, rfl, rfl, rfl, rfl, rfl⟩

theorem Ledger.accept (h : s.Ledger) {k : Nat} (hk : s.submits k = .outside) :
    ((s.tryWrite k).setSubmit k .accepted).Ledger := by
  obtain ⟨haccepted, hinvoked, hworkers, hlost, hfinished, hdisposed, -, hsubmits⟩ :=
    tryWrite_frame s k
  have hcoe := tryWrite_coe s k
  have hnew : k ∉ s.accepted := by
    intro hmem
    have hk' := h.fresh k hmem
    rw [hk] at hk'
    cases hk'
  refine ⟨?_, ?_, ?_, ?_, ?_⟩
  · show (s.tryWrite k).accepted.Nodup
    rw [haccepted, ← List.concat_eq_append]
    exact h.nodup.concat hnew
  · show ∀ j ∈ (s.tryWrite k).accepted, Function.update (s.tryWrite k).submits k .accepted j = _
    intro j hj
    rw [haccepted, List.mem_append, List.mem_singleton] at hj
    rw [hsubmits]
    rcases hj with hj | rfl
    · have hne : j ≠ k := fun hjk => hnew (hjk ▸ hj)
      rw [Function.update_of_ne hne]
      exact h.fresh j hj
    · rw [Function.update_self]
  · show ((s.tryWrite k).accepted : Multiset Nat) = (s.tryWrite k).invoked +
      (s.tryWrite k).evicted + ((s.tryWrite k).queue + ∑ w, ((s.tryWrite k).workers w).taking +
        (s.tryWrite k).lost)
    rw [haccepted, hinvoked, hworkers, hlost, coe_snoc, h.accepted]
    calc (s.invoked + s.evicted + (s.queue + s.taken + s.lost) + {k} : Multiset Nat)
        = s.invoked + (s.evicted + s.queue + {k}) + s.taken + s.lost := by abel
      _ = s.invoked + ((s.tryWrite k).evicted + (s.tryWrite k).queue) + s.taken + s.lost := by
        rw [hcoe]
      _ = _ := by rw [taken]; abel
  · show ((s.tryWrite k).invoked : Multiset Nat) = (s.tryWrite k).finished +
      ∑ w, ((s.tryWrite k).workers w).calling
    rw [hinvoked, hfinished, hworkers]
    exact h.invoked
  · show (s.tryWrite k).disposed = false → (s.tryWrite k).lost = []
    rw [hdisposed, hlost]
    exact h.lost

theorem ledger_step (hstep : step s l = some t) (h : s.Ledger) : t.Ledger := by
  cases step_moves hstep with
  | @refuse k hk _ =>
    refine ⟨h.nodup, ?_, h.accepted, h.invoked, h.lost⟩
    intro j hj
    have hne : j ≠ k := by
      rintro rfl
      rw [h.fresh j hj] at hk
      cases hk
    exact (Function.update_of_ne hne ..).trans (h.fresh j hj)
  | accept hk _ => exact h.accept hk
  | @startFails w hw _ =>
    have htaken : (s.setWorker w .faulted).taken = s.taken := sum_update_stay (by rw [hw]; rfl) rfl
    have hrunning : (s.setWorker w .faulted).running = s.running :=
      sum_update_stay (by rw [hw]; rfl) rfl
    exact ⟨h.nodup, h.fresh, htaken ▸ h.accepted, hrunning ▸ h.invoked, h.lost⟩
  | @start w hw _ =>
    have htaken : (s.setWorker w .reading).taken = s.taken := sum_update_stay (by rw [hw]; rfl) rfl
    have hrunning : (s.setWorker w .reading).running = s.running :=
      sum_update_stay (by rw [hw]; rfl) rfl
    exact ⟨h.nodup, h.fresh, htaken ▸ h.accepted, hrunning ▸ h.invoked, h.lost⟩
  | @exit w hw _ _ =>
    have htaken : (s.setWorker w .exited).taken = s.taken := sum_update_stay (by rw [hw]; rfl) rfl
    have hrunning : (s.setWorker w .exited).running = s.running :=
      sum_update_stay (by rw [hw]; rfl) rfl
    exact ⟨h.nodup, h.fresh, htaken ▸ h.accepted, hrunning ▸ h.invoked, h.lost⟩
  | @read w task rest hw hq =>
    have htaken : (s.setWorker w (.taken task)).taken = s.taken + {task} :=
      sum_update_gain (by rw [hw]; rfl)
    have hrunning : (s.setWorker w (.taken task)).running = s.running :=
      sum_update_stay (by rw [hw]; rfl) rfl
    refine ⟨h.nodup, h.fresh, ?_, hrunning ▸ h.invoked, h.lost⟩
    show (s.accepted : Multiset Nat) =
      s.invoked + s.evicted + (rest + (s.setWorker w (.taken task)).taken + s.lost)
    rw [h.accepted, htaken, hq, ← Multiset.cons_coe, ← Multiset.singleton_add]
    abel
  | @invokeFails w task hw hd =>
    have htaken : (s.setWorker w .faulted).taken + (s.workers w).taking = s.taken :=
      sum_update_lose rfl
    have hrunning : (s.setWorker w .faulted).running = s.running :=
      sum_update_stay (by rw [hw]; rfl) rfl
    refine ⟨h.nodup, h.fresh, ?_, hrunning ▸ h.invoked, ?_⟩
    · show (s.accepted : Multiset Nat) = s.invoked + s.evicted +
        (s.queue + (s.setWorker w .faulted).taken + ((s.lost ++ [task] : List Nat) : Multiset Nat))
      rw [hw, WorkerPc.taking] at htaken
      rw [h.accepted, coe_snoc, ← htaken]
      abel
    · intro hno
      exact absurd (hd.symm.trans hno) nofun
  | @invoke w task hw _ =>
    have htaken : (s.setWorker w (.running task)).taken + (s.workers w).taking = s.taken :=
      sum_update_lose rfl
    have hrunning : (s.setWorker w (.running task)).running = s.running + {task} :=
      sum_update_gain (by rw [hw]; rfl)
    refine ⟨h.nodup, h.fresh, ?_, ?_, h.lost⟩
    · show (s.accepted : Multiset Nat) = ((s.invoked ++ [task] : List Nat) : Multiset Nat) +
        s.evicted + (s.queue + (s.setWorker w (.running task)).taken + s.lost)
      rw [hw, WorkerPc.taking] at htaken
      rw [h.accepted, coe_snoc, ← htaken]
      abel
    · show ((s.invoked ++ [task] : List Nat) : Multiset Nat) =
        s.finished + (s.setWorker w (.running task)).running
      rw [coe_snoc, h.invoked, hrunning, add_assoc]
  | @finish w task throws hw =>
    have htaken : (s.setWorker w (if throws then .faulted else .reading)).taken = s.taken :=
      sum_update_stay (by rw [hw]; rfl) (by cases throws <;> rfl)
    have hrunning : (s.setWorker w (if throws then .faulted else .reading)).running +
        (s.workers w).calling = s.running := sum_update_lose (by cases throws <;> rfl)
    refine ⟨h.nodup, h.fresh, htaken ▸ h.accepted, ?_, h.lost⟩
    show (s.invoked : Multiset Nat) = ((s.finished ++ [task] : List Nat) : Multiset Nat) +
      (s.setWorker w (if throws then .faulted else .reading)).running
    rw [hw, WorkerPc.calling] at hrunning
    rw [h.invoked, coe_snoc, ← hrunning]
    abel
  | dispose _ => exact ⟨h.nodup, h.fresh, h.accepted, h.invoked, nofun⟩
  | _ => exact ⟨h.nodup, h.fresh, h.accepted, h.invoked, h.lost⟩

theorem ledger_new (cfg : Config) : (new cfg).Ledger := by
  have htaken : (new cfg).taken = 0 := Finset.sum_eq_zero fun _ _ => rfl
  have hrunning : (new cfg).running = 0 := Finset.sum_eq_zero fun _ _ => rfl
  refine ⟨List.nodup_nil, nofun, ?_, ?_, fun _ => rfl⟩
  · rw [htaken]
    rfl
  · rw [hrunning]
    rfl

/-- What is never called is what waits, is in the hands of a worker, or was lost. -/
theorem Ledger.length_neverInvoked (h : s.Ledger) :
    s.neverInvoked.length = s.queue.length + Multiset.card s.taken + s.lost.length := by
  rw [neverInvoked, length_unsettled h.accepted h.nodup]
  simp only [Multiset.card_add, Multiset.coe_card]

/-! ## The one call that drains -/

/-- At most one call of `CloseAsync` goes past the lock, and what was cancelled, completed and
logged is its doing. -/
structure Closing (s : AsyncDispatcher cfg) : Prop where
  closed : ∀ d, (s.closes d).active = true → s.closed = true
  unique : ∀ d d', (s.closes d).active = true → (s.closes d').active = true → d = d'
  cancelled : s.cancelled = true → ∃ d, (s.closes d).hasCancelled = true
  completed : s.cancelCompleted = true → ∃ d, (s.closes d).hasCompleted = true
  late : s.cancelCompleted = false → s.late = []
  log : (∀ d, (s.closes d).forced = false) → s.log = []

theorem active_of_hasCancelled {pc : ClosePc} (h : pc.hasCancelled = true) : pc.active = true := by
  cases pc with
  | closed forced | disposed forced => exact h
  | cancelling | cancelled => rfl
  | _ => cases h

theorem hasCancelled_of_hasCompleted {pc : ClosePc} (h : pc.hasCompleted = true) :
    pc.hasCancelled = true := by
  cases pc with
  | closed forced | disposed forced => exact h
  | cancelled => rfl
  | _ => cases h

theorem hasCompleted_of_forced {pc : ClosePc} (h : pc.forced = true) : pc.hasCompleted = true := by
  cases pc with
  | closed forced | disposed forced => exact h
  | _ => cases h

theorem active_of_forced {pc : ClosePc} (h : pc.forced = true) : pc.active = true :=
  active_of_hasCancelled (hasCancelled_of_hasCompleted (hasCompleted_of_forced h))

/-- What a call has done, it has done where it is next. -/
structure Keeps (pc pc' : ClosePc) : Prop where
  cancelled : pc.hasCancelled = true → pc'.hasCancelled = true
  completed : pc.hasCompleted = true → pc'.hasCompleted = true
  forced : pc.forced = true → pc'.forced = true

theorem keeps_of_not_cancelled {p : ClosePc} (hnot : p.hasCancelled = false) (pc : ClosePc) :
    Keeps p pc := by
  have hno : ¬ p.hasCancelled = true := by
    rw [hnot]
    nofun
  refine ⟨?_, ?_, ?_⟩
  · intro h
    exact absurd h hno
  · intro h
    exact absurd (hasCancelled_of_hasCompleted h) hno
  · intro h
    exact absurd (hasCancelled_of_hasCompleted (hasCompleted_of_forced h)) hno

/-- A step of a submit or of a worker. -/
theorem Closing.frame (h : s.Closing) (hcloses : t.closes = s.closes)
    (hclosed : t.closed = s.closed) (hcancelled : t.cancelled = s.cancelled)
    (hcompleted : t.cancelCompleted = s.cancelCompleted)
    (hlate : s.cancelCompleted = false → t.late = s.late) (hlog : t.log = s.log) : t.Closing := by
  refine ⟨?_, ?_, ?_, ?_, ?_, ?_⟩
  · rw [hcloses, hclosed]
    exact h.closed
  · rw [hcloses]
    exact h.unique
  · rw [hcloses, hcancelled]
    exact h.cancelled
  · rw [hcloses, hcompleted]
    exact h.completed
  · rw [hcompleted]
    intro hno
    rw [hlate hno]
    exact h.late hno
  · rw [hcloses, hlog]
    exact h.log

/-- What one call was is still there when the call `d` moves on to where it keeps it. -/
theorem exists_closes {c : ClosePc → Bool} {d : Nat} {pc : ClosePc}
    (hkeeps : c (s.closes d) = true → c pc = true) (h : ∃ d', c (s.closes d') = true) :
    ∃ d', c (Function.update s.closes d pc d') = true := by
  obtain ⟨d', hd'⟩ := h
  by_cases hd : d' = d
  · subst hd
    exact ⟨d', by rw [Function.update_self]; exact hkeeps hd'⟩
  · exact ⟨d', by rw [Function.update_of_ne hd]; exact hd'⟩

/-- The call `d` of `CloseAsync` moves on. -/
theorem Closing.move (h : s.Closing) {d : Nat} {pc : ClosePc}
    (hcloses : t.closes = Function.update s.closes d pc)
    (hclosed : s.closed = true → t.closed = true)
    (hactive : pc.active = true → t.closed = true ∧
      ((s.closes d).active = true ∨ s.closed = false))
    (hkeeps : Keeps (s.closes d) pc)
    (hcancelled : t.cancelled = true → s.cancelled = true ∨ pc.hasCancelled = true)
    (hcompleted : t.cancelCompleted = true → s.cancelCompleted = true ∨ pc.hasCompleted = true)
    (hlate : t.late = s.late) (hmono : s.cancelCompleted = true → t.cancelCompleted = true)
    (hlog : t.log = s.log ∨ pc.forced = true) : t.Closing := by
  have hother : ∀ {j}, j ≠ d → t.closes j = s.closes j := fun hj => by
    rw [hcloses, Function.update_of_ne hj]
  have hself : t.closes d = pc := by rw [hcloses, Function.update_self]
  have hnew : ∀ j, j ≠ d → (t.closes j).active = true → pc.active = true → False := by
    intro j hj hactive' hpc
    rw [hother hj] at hactive'
    rcases (hactive hpc).2 with hd | hopen
    · exact hj (h.unique j d hactive' hd)
    · rw [h.closed j hactive'] at hopen
      cases hopen
  refine ⟨?_, ?_, ?_, ?_, ?_,
    ?_⟩
  · intro j hj
    by_cases hd : j = d
    · rw [hd, hself] at hj
      exact (hactive hj).1
    · rw [hother hd] at hj
      exact hclosed (h.closed j hj)
  · intro j j' hj hj'
    by_cases hd : j = d <;> by_cases hd' : j' = d
    · rw [hd, hd']
    · rw [hd, hself] at hj
      exact (hnew j' hd' hj' hj).elim
    · rw [hd', hself] at hj'
      exact (hnew j hd hj hj').elim
    · rw [hother hd] at hj
      rw [hother hd'] at hj'
      exact h.unique j j' hj hj'
  · intro hc
    rw [hcloses]
    rcases hcancelled hc with hc | hpc
    · exact exists_closes hkeeps.cancelled (h.cancelled hc)
    · exact ⟨d, by rw [Function.update_self]; exact hpc⟩
  · intro hc
    rw [hcloses]
    rcases hcompleted hc with hc | hpc
    · exact exists_closes hkeeps.completed (h.completed hc)
    · exact ⟨d, by rw [Function.update_self]; exact hpc⟩
  · intro hno
    rw [hlate]
    refine h.late ?_
    cases hc : s.cancelCompleted with
    | false => rfl
    | true => exact (hmono hc).symm.trans hno
  · intro hno
    rcases hlog with hlog | hpc
    · rw [hlog]
      refine h.log ?_
      intro j
      by_contra hj
      rw [Bool.not_eq_false] at hj
      obtain ⟨j', hj'⟩ := exists_closes (c := ClosePc.forced) hkeeps.forced ⟨j, hj⟩
      rw [← hcloses, hno j'] at hj'
      cases hj'
    · rw [← hself, hno d] at hpc
      cases hpc

/-- The call that is past the lock moves on. -/
theorem Closing.advance (h : s.Closing) {d : Nat} {pc : ClosePc}
    (hactive : (s.closes d).active = true) (hcloses : t.closes = Function.update s.closes d pc)
    (hclosed : t.closed = s.closed) (hkeeps : Keeps (s.closes d) pc)
    (hcancelled : t.cancelled = true → s.cancelled = true ∨ pc.hasCancelled = true)
    (hcompleted : t.cancelCompleted = true → s.cancelCompleted = true ∨ pc.hasCompleted = true)
    (hlate : t.late = s.late) (hmono : s.cancelCompleted = true → t.cancelCompleted = true)
    (hlog : t.log = s.log ∨ pc.forced = true) : t.Closing := by
  have hshut : t.closed = true := hclosed.trans (h.closed d hactive)
  exact h.move hcloses (fun _ => hshut) (fun _ => ⟨hshut, .inl hactive⟩) hkeeps hcancelled hcompleted
    hlate hmono hlog

theorem closing_step (hstep : step s l = some t) (h : s.Closing) : t.Closing := by
  cases step_moves hstep with
  | @accept k _ _ =>
    unfold tryWrite
    split <;> exact h.frame rfl rfl rfl rfl (fun _ => rfl) rfl
  | @invoke w task hw _ =>
    refine h.frame rfl rfl rfl rfl ?_ rfl
    intro hno
    show (if s.cancelCompleted then s.late ++ [task] else s.late) = s.late
    rw [hno]
    rfl
  | @closeAgain d hd hc =>
    have hkeeps := keeps_of_not_cancelled (p := s.closes d) (by rw [hd]; rfl) (.closed false)
    exact h.move rfl id nofun hkeeps .inl .inl rfl id (.inl rfl)
  | @close d hd hc =>
    have hkeeps := keeps_of_not_cancelled (p := s.closes d) (by rw [hd]; rfl) .draining
    exact h.move rfl (fun _ => rfl) (fun _ => ⟨rfl, .inr hc⟩) hkeeps .inl .inl rfl id (.inl rfl)
  | @drained d hd _ =>
    have hkeeps := keeps_of_not_cancelled (p := s.closes d) (by rw [hd]; rfl) (.closed false)
    exact h.move rfl id nofun hkeeps .inl .inl rfl id (.inl rfl)
  | @timeout d hd =>
    have hkeeps := keeps_of_not_cancelled (p := s.closes d) (by rw [hd]; rfl)
      (.timedOut s.queue.length)
    exact h.advance (by rw [hd]; rfl) rfl rfl hkeeps .inl .inl rfl id (.inl rfl)
  | @cancelFails d n hd _ =>
    have hkeeps := keeps_of_not_cancelled (p := s.closes d) (by rw [hd]; rfl) .raised
    exact h.advance (by rw [hd]; rfl) rfl rfl hkeeps .inl .inl rfl id (.inl rfl)
  | @cancel d n hd _ =>
    have hkeeps := keeps_of_not_cancelled (p := s.closes d) (by rw [hd]; rfl) (.cancelling n)
    exact h.advance (by rw [hd]; rfl) rfl rfl hkeeps (fun _ => .inr rfl) .inl rfl id (.inl rfl)
  | @cancelDone d n hd =>
    have hkeeps : Keeps (s.closes d) (.cancelled n) := by
      rw [hd]
      exact ⟨fun _ => rfl, nofun, nofun⟩
    exact h.advance (by rw [hd]; rfl) rfl rfl hkeeps .inl (fun _ => .inr rfl) rfl (fun _ => rfl)
      (.inl rfl)
  | @log d n hd =>
    have hkeeps : Keeps (s.closes d) (.closed true) := ⟨fun _ => rfl, fun _ => rfl, fun _ => rfl⟩
    exact h.advance (by rw [hd]; rfl) rfl rfl hkeeps .inl .inl rfl id (.inr rfl)
  | @dispose d forced hd =>
    have hkeeps : Keeps (s.closes d) (.disposed forced) := by
      rw [hd]
      exact ⟨id, id, id⟩
    refine h.move rfl id ?_ hkeeps .inl .inl rfl id (.inl rfl)
    intro hpc
    have hactive : (s.closes d).active = true := by
      rw [hd]
      exact hpc
    exact ⟨h.closed d hactive, .inl hactive⟩
  | _ => exact h.frame rfl rfl rfl rfl (fun _ => rfl) rfl

theorem closing_new (cfg : Config) : (new cfg).Closing :=
  ⟨nofun, nofun, nofun, nofun, fun _ => rfl, fun _ => rfl⟩

/-- While a call drains or has just timed out, nothing was cancelled. -/
theorem Closing.not_cancelled (h : s.Closing) {d : Nat} (hactive : (s.closes d).active = true)
    (hnot : (s.closes d).hasCancelled = false) :
    s.cancelled = false ∧ s.cancelCompleted = false := by
  have hnone : ¬ ∃ j, (s.closes j).hasCancelled = true := by
    intro hex
    obtain ⟨j, hj⟩ := hex
    have hjd := h.unique j d (active_of_hasCancelled hj) hactive
    rw [hjd, hnot] at hj
    cases hj
  constructor
  · cases hc : s.cancelled with
    | false => rfl
    | true => exact (hnone (h.cancelled hc)).elim
  · cases hc : s.cancelCompleted with
    | false => rfl
    | true =>
      obtain ⟨j, hj⟩ := h.completed hc
      exact (hnone ⟨j, hasCancelled_of_hasCompleted hj⟩).elim

end AsyncDispatcher

end OppexSdk.DotNet
