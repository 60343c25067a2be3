import OppexSdk.DotNet.DispatcherLedger

/-! # What the .NET dispatcher abandons

When the delay wins, `CloseAsync` reads the number of tasks in the channel and cancels the token. A
task that is cancelled swallows the exception, its worker goes on to the next task of the channel,
and nothing stops it there: the token is looked at only when there is no task to read. What was
counted as abandoned is then called after all. -/
namespace OppexSdk.DotNet
open OppexSdk.Lib.Transition

/-- Where a call is that read the number `n` when the delay won, and what was logged by then. -/
def ClosePc.Reports (n : Nat) (log : List Nat) : ClosePc → Prop
  | timedOut m | cancelling m | cancelled m => m = n ∧ log = []
  | closed forced | disposed forced => forced = true ∧ log.sum = n
  | raised => n = 0 ∧ log = []
  | outside | draining => False

/-- `CloseAsync` has ended in the branch of the timeout: it has returned, or `CancelAsync` threw. -/
def ClosePc.gaveUp : ClosePc → Bool
  | closed forced | disposed forced => forced
  | raised => true
  | _ => false

theorem active_of_gaveUp {pc : ClosePc} (h : pc.gaveUp = true) : pc.active = true := by
  cases pc with
  | closed forced | disposed forced => exact h
  | raised => rfl
  | _ => cases h

namespace AsyncDispatcher
variable {cfg : Config} {s t e : AsyncDispatcher cfg} {l : Label cfg} {d n : Nat}

/-- What was abandoned stays so: no task was called when `CancelAsync` had completed, and once
`CloseAsync` has ended in the branch of the timeout, the number it logged is that of the accepted
tasks that were never evicted and never called. -/
structure StaysAbandoned (s : AsyncDispatcher cfg) : Prop where
  notCalled : s.late = []
  counted : ∀ d, (s.closes d).gaveUp = true → s.log.sum = s.neverInvoked.length

/-- Every task that was accepted and not evicted was called: none is in the channel, none is in the
hands of a worker that has not called it, and none was lost with one. -/
structure NothingLeft (s : AsyncDispatcher cfg) : Prop where
  queue : s.queue = []
  taken : ∀ w task, s.workers w ≠ .taken task
  lost : s.lost = []

/-- No call of `DisposeAsync` but `d` disposes the token. -/
def undisturbed (d : Nat) (_ : AsyncDispatcher cfg) (l : Label cfg) : Prop :=
  ∀ j, l = .dispose j → j = d

/-- Nobody will call a task: none is left, or no worker is. -/
def Idle (s : AsyncDispatcher cfg) : Prop :=
  (s.queue = [] ∧ ∀ w task, s.workers w ≠ .taken task) ∨ s.allEnded

theorem Idle.taken (h : s.Idle) : s.taken = 0 := by
  refine Finset.sum_eq_zero ?_
  intro w _
  rcases h with ⟨-, hnone⟩ | hall
  · cases hw : s.workers w with
    | taken task => exact absurd hw (hnone w task)
    | _ => rfl
  · have hw := hall w
    cases hpc : s.workers w with
    | taken task =>
      rw [hpc] at hw
      cases hw
    | _ => rfl

/-- A worker that is still there moves, and takes nothing. -/
theorem Idle.setWorker (h : s.Idle) {w : Fin cfg.workerCount} {pc : WorkerPc}
    (hw : (s.workers w).ended = false) (hpc : ∀ task, pc ≠ .taken task) :
    (s.setWorker w pc).Idle := by
  rcases h with ⟨hq, hnone⟩ | hall
  · refine .inl ⟨hq, ?_⟩
    intro v task
    by_cases hv : v = w
    · subst hv
      simpa only [AsyncDispatcher.setWorker, Function.update_self] using hpc task
    · simpa only [AsyncDispatcher.setWorker, Function.update_of_ne hv] using hnone v task
  · rw [hall w] at hw
    cases hw

/-! ## When nobody calls a task -/

/-- Nobody calls a task any more, and the call `d` reports the number that is left. If it is not
zero, the token is there until the call has logged it. -/
structure Frozen (d n : Nat) (s : AsyncDispatcher cfg) : Prop where
  closed : s.closed = true
  idle : s.Idle
  queue : s.queue.length = n
  lost : s.lost = []
  late : s.late = []
  active : (s.closes d).active = true
  reports : (s.closes d).Reports n s.log
  token : n ≠ 0 → s.disposed = true → (s.closes d).forced = true

/-- A step of a submit or of a worker. -/
theorem Frozen.frame (h : s.Frozen d n) (hclosed : t.closed = s.closed) (hidle : t.Idle)
    (hqueue : t.queue = s.queue) (hlost : t.lost = s.lost) (hlate : t.late = s.late)
    (hcloses : t.closes = s.closes) (hlog : t.log = s.log) (hdisposed : t.disposed = s.disposed) :
    t.Frozen d n := by
  refine ⟨hclosed.trans h.closed, hidle, ?_, hlost.trans h.lost, hlate.trans h.late, ?_, ?_, ?_⟩
  · rw [hqueue]
    exact h.queue
  · rw [hcloses]
    exact h.active
  · rw [hcloses, hlog]
    exact h.reports
  · rw [hcloses, hdisposed]
    exact h.token

/-- A call of `CloseAsync` moves on. -/
theorem Frozen.move (h : s.Frozen d n) {j : Nat} {pc : ClosePc}
    (hcloses : t.closes = Function.update s.closes j pc) (hclosed : t.closed = true)
    (hworkers : t.workers = s.workers) (hqueue : t.queue = s.queue) (hlost : t.lost = s.lost)
    (hlate : t.late = s.late)
    (hother : j ≠ d → t.log = s.log ∧ (n ≠ 0 → t.disposed = s.disposed))
    (hself : j = d → pc.active = true ∧ pc.Reports n t.log ∧
      (n ≠ 0 → t.disposed = true → pc.forced = true)) : t.Frozen d n := by
  have hidle : t.Idle := by
    unfold Idle allEnded
    rw [hworkers, hqueue]
    exact h.idle
  have hlength : t.queue.length = n := hqueue ▸ h.queue
  by_cases hj : j = d
  · have hd : t.closes d = pc := by rw [hcloses, hj, Function.update_self]
    obtain ⟨hactive, hreports, htoken⟩ := hself hj
    refine ⟨hclosed, hidle, hlength, hlost.trans h.lost, hlate.trans h.late, ?_, ?_, ?_⟩ <;> rw [hd]
    · exact hactive
    · exact hreports
    · exact htoken
  · have hd : t.closes d = s.closes d := by rw [hcloses, Function.update_of_ne (Ne.symm hj)]
    obtain ⟨hlog, hdisposed⟩ := hother hj
    refine ⟨hclosed, hidle, hlength, hlost.trans h.lost, hlate.trans h.late, ?_, ?_, ?_⟩ <;> rw [hd]
    · exact h.active
    · rw [hlog]
      exact h.reports
    · intro hn hyes
      exact h.token hn ((hdisposed hn).symm.trans hyes)

theorem frozen_step (hstep : step s l = some t)
    (hothers : n ≠ 0 → undisturbed d s l) (hclosing : s.Closing) (h : s.Frozen d n) :
    t.Frozen d n := by
  -- Who is past the lock is the call `d`.
  have hself : ∀ {j}, (s.closes j).active = true → j = d := fun hj =>
    hclosing.unique _ _ hj h.active
  cases step_moves hstep with
  | refuse _ _ => exact h.frame rfl h.idle rfl rfl rfl rfl rfl rfl
  | accept _ hopen => exact absurd (h.closed.symm.trans hopen) nofun
  | startFails hw _ =>
    exact h.frame rfl (h.idle.setWorker (by rw [hw]; rfl) nofun) rfl rfl rfl rfl rfl rfl
  | start hw _ =>
    exact h.frame rfl (h.idle.setWorker (by rw [hw]; rfl) nofun) rfl rfl rfl rfl rfl rfl
  | exit hw _ _ =>
    exact h.frame rfl (h.idle.setWorker (by rw [hw]; rfl) nofun) rfl rfl rfl rfl rfl rfl
  | @finish w task throws hw =>
    have hidle : (s.setWorker w (if throws then .faulted else .reading)).Idle :=
      h.idle.setWorker (by rw [hw]; rfl) (by cases throws <;> nofun)
    exact h.frame rfl hidle rfl rfl rfl rfl rfl rfl
  | @read w task rest hw hq =>
    rcases h.idle with ⟨hnil, -⟩ | hall
    · rw [hnil] at hq
      cases hq
    · have hended := hall w
      rw [hw] at hended
      cases hended
  | @invokeFails w task hw _ | @invoke w task hw _ =>
    rcases h.idle with ⟨-, hnone⟩ | hall
    · exact absurd hw (hnone w task)
    · have hended := hall w
      rw [hw] at hended
      cases hended
  | @closeAgain j hj _ =>
    refine h.move rfl h.closed rfl rfl rfl rfl (fun _ => ⟨rfl, fun _ => rfl⟩) ?_
    intro hjd
    have hactive := h.active
    rw [← hjd, hj] at hactive
    cases hactive
  | @close j hj hopen => exact absurd (h.closed.symm.trans hopen) nofun
  | @drained j hj _ =>
    have hreports := h.reports
    rw [← hself (j := j) (by rw [hj]; rfl), hj] at hreports
    exact hreports.elim
  | @timeout j hj =>
    have hreports := h.reports
    rw [← hself (j := j) (by rw [hj]; rfl), hj] at hreports
    exact hreports.elim
  | @cancelFails j m hj hdisposed =>
    refine h.move rfl h.closed rfl rfl rfl rfl (fun _ => ⟨rfl, fun _ => rfl⟩) fun hjd => ?_
    have hreports := h.reports
    have htoken := h.token
    rw [← hjd, hj] at hreports htoken
    have hzero : n = 0 := by
      by_contra hn
      cases htoken hn hdisposed
    exact ⟨rfl, ⟨hzero, hreports.2⟩, fun hn => absurd hzero hn⟩
  | @cancel j m hj hdisposed =>
    refine h.move rfl h.closed rfl rfl rfl rfl (fun _ => ⟨rfl, fun _ => rfl⟩) fun hjd => ?_
    have hreports := h.reports
    rw [← hjd, hj] at hreports
    exact ⟨rfl, hreports, fun _ hyes => absurd (hyes.symm.trans hdisposed) nofun⟩
  | @cancelDone j m hj =>
    refine h.move rfl h.closed rfl rfl rfl rfl (fun _ => ⟨rfl, fun _ => rfl⟩) fun hjd => ?_
    have hreports := h.reports
    have htoken := h.token
    rw [← hjd, hj] at hreports htoken
    exact ⟨rfl, hreports, htoken⟩
  | @log j m hj =>
    have hjd := hself (j := j) (by rw [hj]; rfl)
    have hreports := h.reports
    rw [← hjd, hj] at hreports
    obtain ⟨rfl, hlog⟩ := hreports
    refine h.move rfl h.closed rfl rfl rfl rfl (fun hne => absurd hjd hne) fun _ =>
      ⟨rfl, ⟨rfl, ?_⟩, fun _ _ => rfl⟩
    show (if 0 < m then s.log ++ [m] else s.log).sum = m
    rw [hlog]
    split
    · simp
    · simp only [List.sum_nil]
      omega
  | @dispose j forced hj =>
    refine h.move rfl h.closed rfl rfl rfl rfl ?_ ?_
    · intro hne
      exact ⟨rfl, fun hn => absurd (hothers hn j rfl) hne⟩
    · intro hjd
      have hreports := h.reports
      have hactive := h.active
      rw [← hjd, hj] at hreports hactive
      exact ⟨hactive, hreports, fun _ _ => hreports.1⟩

theorem Frozen.staysAbandoned (h : s.Frozen d n) (hclosing : s.Closing) (hledger : s.Ledger) :
    s.StaysAbandoned := by
  refine ⟨h.late, ?_⟩
  intro j hj
  have hjd : j = d := hclosing.unique j d (active_of_gaveUp hj) h.active
  subst hjd
  have hsum : s.log.sum = n := by
    have hreports := h.reports
    cases hpc : s.closes j with
    | closed forced | disposed forced =>
      rw [hpc] at hreports
      exact hreports.2
    | raised =>
      rw [hpc] at hreports
      rw [hreports.1, hreports.2, List.sum_nil]
    | _ =>
      rw [hpc] at hj
      cases hj
  rw [hsum, hledger.length_neverInvoked, h.idle.taken, h.lost, h.queue]
  rfl

/-! ## When the token is disposed first -/

theorem NothingLeft.of_neverInvoked (hledger : s.Ledger) (h : s.neverInvoked = []) :
    s.NothingLeft := by
  have hlength := hledger.length_neverInvoked
  rw [h, List.length_nil] at hlength
  have htaken : s.taken = 0 := Multiset.card_eq_zero.mp (by omega)
  refine ⟨List.length_eq_zero_iff.mp (by omega), ?_, List.length_eq_zero_iff.mp (by omega)⟩
  intro w task hw
  have hmem : task ∈ s.taken := by
    refine Multiset.mem_sum.mpr ⟨w, Finset.mem_univ w, ?_⟩
    rw [hw]
    exact Multiset.mem_singleton_self task
  rw [htaken] at hmem
  exact Multiset.notMem_zero task hmem

/-- `CancelAsync` throws, and what is left goes unreported. -/
theorem not_staysAbandoned_of_raised (hclosing : s.Closing) (hledger : s.Ledger)
    (hleft : ¬ s.NothingLeft) (hd : s.closes d = .raised) : ¬ s.StaysAbandoned := by
  intro hstays
  have hnone : ∀ j, (s.closes j).forced = false := by
    intro j
    cases hj : (s.closes j).forced with
    | false => rfl
    | true =>
      rw [hclosing.unique j d (active_of_forced hj) (by rw [hd]; rfl), hd] at hj
      cases hj
  have hcount := hstays.counted d (by rw [hd]; rfl)
  rw [hclosing.log hnone, List.sum_nil] at hcount
  exact hleft (.of_neverInvoked hledger (List.length_eq_zero_iff.mp hcount.symm))

/-- The step in which it throws. -/
theorem cancel_raises (hclosing : s.Closing) (hledger : s.Ledger) (hleft : ¬ s.NothingLeft)
    (hd : s.closes d = .timedOut n) (hdisposed : s.disposed = true) :
    ∃ e, step s (.cancel d) = some e ∧ ¬ e.StaysAbandoned := by
  have hstep : step s (.cancel d) = some { s.setClose d .raised with drainOver := true } := by
    simp only [step, hd, hdisposed]
    rfl
  refine ⟨_, hstep, ?_⟩
  exact not_staysAbandoned_of_raised (closing_step hstep hclosing) (ledger_step hstep hledger)
    (fun h => hleft ⟨h.queue, h.taken, h.lost⟩) (Function.update_self ..)

/-- Calls of `DisposeAsync` that have not been made. -/
theorem exists_outside {ls : List (Label cfg)} (h : Run step anyStep (new cfg) ls s) :
    ∃ bound, ∀ j, bound ≤ j → s.closes j = .outside := by
  refine h.invariant (I := fun s => ∃ bound, ∀ j, bound ≤ j → s.closes j = .outside) ?_
    ⟨0, fun _ _ => rfl⟩
  intro s l t _ hstep hs
  obtain ⟨bound, hbound⟩ := hs
  have hupdate : ∀ d pc, t.closes = Function.update s.closes d pc →
      ∃ bound, ∀ j, bound ≤ j → t.closes j = .outside := by
    intro d pc ht
    refine ⟨max bound (d + 1), fun j hj => ?_⟩
    rw [ht, Function.update_of_ne (by omega)]
    exact hbound j (by omega)
  cases step_moves hstep with
  | @accept k _ _ =>
    obtain ⟨-, -, -, -, -, -, hcloses, -⟩ := tryWrite_frame s k
    exact ⟨bound, fun j hj => (congrFun hcloses j).trans (hbound j hj)⟩
  | closeAgain _ _ | close _ _ | drained _ _ | timeout _ | cancelFails _ _ | cancel _ _
  | cancelDone _ | log _ | dispose _ => exact hupdate _ _ rfl
  | _ => exact ⟨bound, hbound⟩

/-- Another call of `DisposeAsync` comes between: it returns from `CloseAsync` at once and disposes
the token. -/
theorem exists_raised {j : Nat} (hj : s.closes j = .outside) (hclosing : s.Closing)
    (hledger : s.Ledger) (hleft : ¬ s.NothingLeft) (hd : s.closes d = .timedOut n) :
    ∃ ms e, Run step anyStep s ms e ∧ ¬ e.StaysAbandoned := by
  have hclosed := hclosing.closed d (by rw [hd]; rfl)
  have hne : d ≠ j := by
    rintro rfl
    rw [hd] at hj
    cases hj
  have hclose : step s (.close j) = some (s.setClose j (.closed false)) := by
    simp only [step, hj, hclosed]
    rfl
  have hdispose : step (s.setClose j (.closed false)) (.dispose j) =
      some { (s.setClose j (.closed false)).setClose j (.disposed false) with
        disposed := true } := by
    simp only [step, AsyncDispatcher.setClose, Function.update_self]
  have hpending : ({ (s.setClose j (.closed false)).setClose j (.disposed false) with
      disposed := true } : AsyncDispatcher cfg).closes d = .timedOut n := by
    simp only [AsyncDispatcher.setClose, Function.update_of_ne hne, hd]
  obtain ⟨e, hcancel, he⟩ := cancel_raises
    (closing_step hdispose (closing_step hclose hclosing))
    (ledger_step hdispose (ledger_step hclose hledger))
    (fun h => hleft ⟨h.queue, h.taken, h.lost⟩) hpending rfl
  exact ⟨_, e, .cons trivial hclose (.cons trivial hdispose (.cons trivial hcancel (.nil _))), he⟩

/-! ## When something is left -/

section
variable {w : Fin cfg.workerCount}

theorem late_of_taken (hdisposed : s.disposed = false) (hcompleted : s.cancelCompleted = true)
    {task : Nat} (hw : s.workers w = .taken task) :
    ∃ ms e, Run step (undisturbed d) s ms e ∧ e.late ≠ [] := by
  have hstep : step s (.invoke w) = some { s.setWorker w (.running task) with
      invoked := s.invoked ++ [task]
      late := if s.cancelCompleted then s.late ++ [task] else s.late } := by
    simp only [step, hw, hdisposed]
    rfl
  refine ⟨[.invoke w], _, .cons (fun _ h => by cases h) hstep (.nil _), ?_⟩
  show (if s.cancelCompleted then s.late ++ [task] else s.late) ≠ []
  rw [hcompleted]
  simp

theorem late_of_reading (hdisposed : s.disposed = false) (hcompleted : s.cancelCompleted = true)
    (hw : s.workers w = .reading) (hq : s.queue ≠ []) :
    ∃ ms e, Run step (undisturbed d) s ms e ∧ e.late ≠ [] := by
  obtain ⟨task, rest, hqueue⟩ := List.exists_cons_of_ne_nil hq
  have hstep : step s (.read w) = some { s.setWorker w (.taken task) with queue := rest } := by
    simp only [step, hw, hqueue]
  obtain ⟨ms, e, hrun, hlate⟩ := late_of_taken
    (s := { s.setWorker w (.taken task) with queue := rest }) (w := w) hdisposed hcompleted
    (Function.update_self ..)
  exact ⟨_, e, .cons (fun _ h => by cases h) hstep hrun, hlate⟩

/-- A worker that is still there comes to the next task of the channel. -/
theorem late_of_alive (hdisposed : s.disposed = false) (hcompleted : s.cancelCompleted = true)
    (hw : (s.workers w).ended = false) (hq : s.queue ≠ []) :
    ∃ ms e, Run step (undisturbed d) s ms e ∧ e.late ≠ [] := by
  cases hpc : s.workers w with
  | starting =>
    have hstep : step s (.start w) = some (s.setWorker w .reading) := by
      simp only [step, hpc, hdisposed]
      rfl
    obtain ⟨ms, e, hrun, hlate⟩ := late_of_reading (s := s.setWorker w .reading) (w := w) hdisposed
      hcompleted (Function.update_self ..) hq
    exact ⟨_, e, .cons (fun _ h => by cases h) hstep hrun, hlate⟩
  | reading => exact late_of_reading hdisposed hcompleted hpc hq
  | taken task => exact late_of_taken hdisposed hcompleted hpc
  | running task =>
    -- The task swallows its exception, and the worker goes on.
    have hstep : step s (.finish w false) = some { s.setWorker w .reading with
        finished := s.finished ++ [task] } := by
      simp only [step, hpc]
      rfl
    obtain ⟨ms, e, hrun, hlate⟩ := late_of_reading
      (s := { s.setWorker w .reading with finished := s.finished ++ [task] }) (w := w) hdisposed
      hcompleted (Function.update_self ..) hq
    exact ⟨_, e, .cons (fun _ h => by cases h) hstep hrun, hlate⟩
  | exited | faulted =>
    rw [hpc] at hw
    cases hw

end

/-- When something is left, with a worker to call it, a task is called after the cancellation. -/
theorem exists_late (hd : s.closes d = .timedOut n) (hdisposed : s.disposed = false)
    (hbusy : ¬ s.Idle) : ∃ ms e, Run step (undisturbed d) s ms e ∧ e.late ≠ [] := by
  have hcancel : step s (.cancel d) = some { s.setClose d (.cancelling n) with
      cancelled := true } := by
    simp only [step, hd, hdisposed]
    rfl
  have hdone : step { s.setClose d (.cancelling n) with cancelled := true } (.cancelDone d) =
      some { ({ s.setClose d (.cancelling n) with
          cancelled := true } : AsyncDispatcher cfg).setClose d (.cancelled n) with
        cancelCompleted := true } := by
    simp only [step, AsyncDispatcher.setClose, Function.update_self]
  obtain ⟨hleft, hsome⟩ := not_or.mp hbusy
  have hlate : ∃ ms e, Run step (undisturbed d)
      { ({ s.setClose d (.cancelling n) with cancelled := true } : AsyncDispatcher cfg).setClose d
        (.cancelled n) with cancelCompleted := true } ms e ∧ e.late ≠ [] := by
    by_cases hq : s.queue = []
    · have htaken : ∃ w task, s.workers w = .taken task := by
        by_contra hno
        exact hleft ⟨hq, fun w task hw => hno ⟨w, task, hw⟩⟩
      obtain ⟨w, task, hw⟩ := htaken
      exact late_of_taken (w := w) hdisposed rfl hw
    · have halive : ∃ w, (s.workers w).ended = false := by
        by_contra hno
        exact hsome fun w => Bool.not_eq_false _ ▸ fun hw => hno ⟨w, hw⟩
      obtain ⟨w, hw⟩ := halive
      exact late_of_alive (w := w) hdisposed rfl hw hq
  obtain ⟨ms, e, hrun, he⟩ := hlate
  exact ⟨_, e, .cons (fun _ h => by cases h) hcancel (.cons (fun _ h => by cases h) hdone hrun), he⟩

/-! ## The claim about every continuation -/

theorem run_closing {ls : List (Label cfg)} (h : Run step anyStep (new cfg) ls s) : s.Closing :=
  h.invariant (fun _ hstep hs => closing_step hstep hs) (closing_new cfg)

theorem run_ledger {ls : List (Label cfg)} (h : Run step anyStep (new cfg) ls s) : s.Ledger :=
  h.invariant (fun _ hstep hs => ledger_step hstep hs) (ledger_new cfg)

/-- When the delay wins in such a state, the call `d` reports what is left. -/
theorem frozen_timeout (hclosing : s.Closing) (hledger : s.Ledger)
    (ht : step s (.timeout d) = some t) (h : s.NothingLeft ∨ (s.allEnded ∧ s.disposed = false)) :
    t.Frozen d s.queue.length := by
  cases step_moves ht with
  | timeout hd =>
    have hactive : (s.closes d).active = true := by rw [hd]; rfl
    have hpending := (hclosing.not_cancelled hactive (by rw [hd]; rfl)).2
    have hnone : ∀ j, (s.closes j).forced = false := by
      intro j
      cases hj : (s.closes j).forced with
      | false => rfl
      | true =>
        rw [hclosing.unique j d (active_of_forced hj) hactive, hd] at hj
        cases hj
    have hidle : s.Idle := h.imp (fun hleft => ⟨hleft.queue, hleft.taken⟩) And.left
    have hlost : s.lost = [] := by
      rcases h with hleft | ⟨-, hdisposed⟩
      · exact hleft.lost
      · exact hledger.lost hdisposed
    have hself : (s.setClose d (.timedOut s.queue.length)).closes d = .timedOut s.queue.length :=
      Function.update_self ..
    refine ⟨hclosing.closed d hactive, hidle, rfl, hlost, hclosing.late hpending, ?_, ?_, ?_⟩
    · rw [hself]
      rfl
    · rw [hself]
      exact ⟨rfl, hclosing.log hnone⟩
    · intro hn hyes
      rcases h with hleft | ⟨-, hdisposed⟩
      · rw [hleft.queue] at hn
        exact absurd rfl hn
      · cases hyes.symm.trans hdisposed

theorem Frozen.run_staysAbandoned {ok : AsyncDispatcher cfg → Label cfg → Prop}
    {ls : List (Label cfg)} (hothers : ∀ {s l}, ok s l → n ≠ 0 → undisturbed d s l)
    (h : s.Frozen d n) (hclosing : s.Closing) (hledger : s.Ledger) (hrun : Run step ok s ls e) :
    e.StaysAbandoned := by
  have hall := hrun.invariant (I := fun e => (e.Closing ∧ e.Ledger) ∧ e.Frozen d n)
    (fun hok hstep hs => ⟨⟨closing_step hstep hs.1.1, ledger_step hstep hs.1.2⟩,
      frozen_step hstep (hothers hok) hs.1.1 hs.2⟩)
    ⟨⟨hclosing, hledger⟩, h⟩
  exact hall.2.staysAbandoned hall.1.1 hall.1.2

/-- **When what is abandoned stays abandoned.** Take the delay to win and the number to be read in
any reachable state. While no other call disposes the token, no task is called after `CancelAsync`
has completed and the number logged is that of the tasks never called, exactly when every task had
been called by then, or no worker is left and the token is not disposed. With other calls of
`DisposeAsync` in between it is so exactly when every task had been called. -/
theorem abandoned_stays_abandoned_iff {ls : List (Label cfg)}
    (h : Run step anyStep (new cfg) ls s) (ht : step s (.timeout d) = some t) :
    ((∀ ms e, Run step (undisturbed d) t ms e → e.StaysAbandoned) ↔
      s.NothingLeft ∨ (s.allEnded ∧ s.disposed = false)) ∧
    ((∀ ms e, Run step anyStep t ms e → e.StaysAbandoned) ↔ s.NothingLeft) := by
  have hclosing := run_closing h
  have hledger := run_ledger h
  have hclosing' := closing_step ht hclosing
  have hledger' := ledger_step ht hledger
  have hd : t.closes d = .timedOut s.queue.length := by
    cases step_moves ht with
    | timeout hd => exact Function.update_self ..
  have hleft : t.NothingLeft → s.NothingLeft := by
    intro hleft
    cases step_moves ht with
    | timeout hd => exact ⟨hleft.queue, hleft.taken, hleft.lost⟩
  have hsame : t.workers = s.workers ∧ t.disposed = s.disposed := by
    cases step_moves ht with
    | timeout hd => exact ⟨rfl, rfl⟩
  refine ⟨⟨?_, ?_⟩, ?_, ?_⟩
  · intro hall
    by_contra hcond
    obtain ⟨hsome, hcond⟩ := not_or.mp hcond
    have hsome' : ¬ t.NothingLeft := fun hyes => hsome (hleft hyes)
    cases hdisposed : s.disposed with
    | true =>
      obtain ⟨e, hcancel, he⟩ := cancel_raises hclosing' hledger' hsome' hd
        (hsame.2.trans hdisposed)
      exact he (hall _ e (.cons (fun _ h => by cases h) hcancel (.nil _)))
    | false =>
      have hbusy : ¬ t.Idle := by
        intro hidle
        rcases hidle with ⟨hq, htaken⟩ | hended
        · exact hsome' ⟨hq, htaken, hledger'.lost (hsame.2.trans hdisposed)⟩
        · refine hcond ⟨fun w => ?_, hdisposed⟩
          rw [← hsame.1]
          exact hended w
      obtain ⟨ms, e, hrun, hlate⟩ := exists_late hd (hsame.2.trans hdisposed) hbusy
      exact hlate (hall ms e hrun).notCalled
  · intro hcond ms e hrun
    exact (frozen_timeout hclosing hledger ht hcond).run_staysAbandoned (fun hok _ => hok) hclosing'
      hledger' hrun
  · intro hall
    by_contra hsome
    obtain ⟨bound, hbound⟩ := exists_outside (h.snoc trivial ht)
    obtain ⟨ms, e, hrun, he⟩ := exists_raised (hbound bound le_rfl) hclosing' hledger'
      (fun hyes => hsome (hleft hyes)) hd
    exact he (hall ms e hrun)
  · intro hnothing ms e hrun
    have hzero : s.queue.length = 0 := by rw [hnothing.queue, List.length_nil]
    exact (frozen_timeout hclosing hledger ht (.inl hnothing)).run_staysAbandoned
      (fun _ hn => absurd hzero hn) hclosing' hledger' hrun

/-- A task runs when the close begins, and `queued` more are in the channel. -/
def closingOn (queued : List (Label smallest)) : List (Label smallest) :=
  [.start onlyWorker, .submit 0, .read onlyWorker, .invoke onlyWorker] ++ queued ++ [.close 0]

theorem abandoned_stays_abandoned_iff_running : ∃ s t : AsyncDispatcher smallest,
    Run step anyStep (new smallest) (closingOn []) s ∧ step s (.timeout 0) = some t ∧
    s.workers onlyWorker = .running 0 ∧ s.NothingLeft ∧
    ((∀ ms e, Run step (undisturbed 0) t ms e → e.StaysAbandoned) ↔
      s.NothingLeft ∨ (s.allEnded ∧ s.disposed = false)) ∧
    ((∀ ms e, Run step anyStep t ms e → e.StaysAbandoned) ↔ s.NothingLeft) := by
  have hex : ∃ s t : AsyncDispatcher smallest, Run step anyStep (new smallest) (closingOn []) s ∧
      step s (.timeout 0) = some t ∧ s.workers onlyWorker = .running 0 ∧ s.queue = [] ∧
      s.lost = [] := ⟨_, _, run_of_exec _ rfl, rfl, rfl, rfl, rfl⟩
  obtain ⟨s, t, hrun, ht, hworker, hqueue, hlost⟩ := hex
  have htaken : ∀ w task, s.workers w ≠ .taken task := by
    intro w task hw
    have hw' : w = onlyWorker := Subsingleton.elim (α := Fin 1) w onlyWorker
    rw [hw', hworker] at hw
    cases hw
  exact ⟨s, t, hrun, ht, hworker, ⟨hqueue, htaken, hlost⟩, abandoned_stays_abandoned_iff hrun ht⟩

/-- The worker whose task was cancelled goes on to the task that was counted and logged as
force-dropped, and calls it. -/
theorem force_dropped_task_is_called : ∃ e : AsyncDispatcher smallest,
    Run step anyStep (new smallest) (closingOn [.submit 1] ++ [.timeout 0, .cancel 0, .cancelDone 0,
      .finish onlyWorker false, .read onlyWorker, .invoke onlyWorker, .log 0]) e ∧
    e.late = [1] ∧ e.log = [1] ∧ e.neverInvoked = [] ∧ ¬ e.StaysAbandoned := by
  refine ⟨_, run_of_exec _ rfl, rfl, rfl, rfl, ?_⟩
  intro hstays
  cases hstays.notCalled

end AsyncDispatcher

end OppexSdk.DotNet
