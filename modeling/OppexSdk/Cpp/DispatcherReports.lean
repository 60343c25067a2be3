import OppexSdk.Cpp.DispatcherPool

/-! # What the C++ dispatcher tells the host of lost incidents

Two lines of the log sink speak of tasks that are lost: the rate-limited one of `Submit`, about
tasks that gave way to others, and the one of `Close`, about tasks that were still queued when it
stopped waiting. Both are held against the history of the run. -/
namespace OppexSdk.Cpp.AsyncDispatcher
open OppexSdk.Lib OppexSdk.Lib.Transition OppexSdk.Lib.Simulation OppexSdk.Lib.BoundedPool

variable {cfg : Config}

section
variable {s t : Dispatcher cfg} {l : Label cfg}

/-! ## What `Close` reports -/

/-- The call has cleared the queue of this many tasks. -/
def ClosePc.Settled (n : Nat) : ClosePc → Prop
  | .stopped m | .returned (some m) => m = n
  | .outside | .draining | .returned none => False

theorem ClosePc.Settled.winner {pc : ClosePc} {n : Nat} (h : pc.Settled n) : pc.Winner := by
  rcases pc with _ | _ | m | (_ | m)
  · exact h
  · trivial
  · trivial
  · exact h
  · trivial

/-- The numbers in the shutdown warnings. -/
def Warning.forced : Warning → Option Nat
  | .forceDropped count => some count
  | .dropped _ => none

/-- The warning a call that cleared the queue of `n` tasks writes. -/
def forcedLine (cfg : Config) (n : Nat) : List Nat := if cfg.logSink ∧ 0 < n then [n] else []

theorem forced_dropped (line : Option Nat) :
    (report cfg (line.map Warning.dropped)).filterMap Warning.forced = [] := by
  unfold report
  split
  · cases line <;> rfl
  · rfl

theorem forced_forceDropped (cfg : Config) (n : Nat) :
    (report cfg (if 0 < n then some (.forceDropped n) else none)).filterMap Warning.forced =
      forcedLine cfg n := by
  unfold report forcedLine
  by_cases hsink : cfg.logSink = true
  · by_cases hn : 0 < n
    · simp [hsink, hn, Warning.forced]
    · simp [hn]
  · simp [hsink]

/-- A call that cleared the queue did it in one event of the history, and has reported it when it
has returned. -/
structure Reported (es : List (Event TaskId (Fin cfg.workerCount))) (s : Dispatcher cfg) :
    Prop where
  settled : ∀ c n, (s.closes c).Settled n →
    s.draining = false ∧ ∃ before left after, es = before ++ .abandon left :: after ∧
      left.length = n
  silent : (∀ c n, s.closes c ≠ .returned (some n)) → s.log.filterMap Warning.forced = []
  line : ∀ c n, s.closes c = .returned (some n) →
    s.log.filterMap Warning.forced = forcedLine cfg n

theorem Reported.init : Reported [] (new cfg) where
  settled c n hc := hc.elim
  silent _ := rfl
  line c n hc := by cases hc

section
variable {es fs : List (Event TaskId (Fin cfg.workerCount))}

/-- A step of which no `Close` call takes note. -/
theorem Reported.frame (h : Reported es s) (hcloses : t.closes = s.closes)
    (hdraining : t.draining = s.draining)
    (hlog : t.log.filterMap Warning.forced = s.log.filterMap Warning.forced) :
    Reported (es ++ fs) t := by
  refine ⟨?_, ?_, ?_⟩
  · intro c n hc
    rw [hcloses] at hc
    obtain ⟨hd, before, left, after, rfl, hleft⟩ := h.settled c n hc
    exact ⟨hdraining.trans hd, before, left, after ++ fs, by simp, hleft⟩
  · rw [hcloses, hlog]
    exact h.silent
  · rw [hcloses, hlog]
    exact h.line

/-- A call moves on that has cleared no queue, and clears none. -/
theorem Reported.pass (h : Reported es s) {c : Nat} {pc : ClosePc}
    (hc : ∀ n, ¬ (s.closes c).Settled n) (hpc : ∀ n, ¬ pc.Settled n)
    (hcloses : t.closes = Function.update s.closes c pc) (hdraining : t.draining = s.draining)
    (hlog : t.log = s.log) : Reported (es ++ fs) t := by
  have hback : ∀ d n, (t.closes d).Settled n → (s.closes d).Settled n := by
    rw [hcloses]
    exact (Function.forall_update_iff s.closes fun d pc => ∀ n, pc.Settled n →
      (s.closes d).Settled n).mpr ⟨fun n hn => absurd hn (hpc n), fun _ _ _ => id⟩
  refine ⟨?_, ?_, ?_⟩
  · intro d n hd
    obtain ⟨hs, before, left, after, rfl, hleft⟩ := h.settled d n (hback d n hd)
    exact ⟨hdraining.trans hs, before, left, after ++ fs, by simp, hleft⟩
  · intro hnone
    rw [hlog]
    refine h.silent fun d n hd => ?_
    have hne : d ≠ c := by
      rintro rfl
      exact hc n (by rw [hd]; rfl)
    exact hnone d n (by rw [hcloses, Function.update_of_ne hne, hd])
  · intro d n hd
    rw [hlog]
    have hne : d ≠ c := by
      rintro rfl
      rw [hcloses, Function.update_self] at hd
      exact hpc n (by rw [hd]; rfl)
    rw [hcloses, Function.update_of_ne hne] at hd
    exact h.line d n hd

/-- A call clears the queue while no other has. -/
theorem Reported.stop (h : Reported es s) (fs : List (Event TaskId (Fin cfg.workerCount)))
    {c : Nat} (hnone : ∀ d n, ¬ (s.closes d).Settled n) :
    Reported (es ++ (fs ++ [.abandon s.tasks])) (s.stop c) := by
  have hreturned : ∀ d n, Function.update s.closes c (.stopped s.tasks.length) d ≠
      .returned (some n) := by
    refine (Function.forall_update_iff s.closes fun d pc => ∀ n, pc ≠ .returned (some n)).mpr
      ⟨by simp, fun d _ n hd => ?_⟩
    exact hnone d n (by rw [hd]; rfl)
  refine ⟨?_, ?_, fun d n hd => absurd hd (hreturned d n)⟩
  · refine (Function.forall_update_iff s.closes fun d pc => ∀ n, pc.Settled n →
      false = false ∧ ∃ before left after, es ++ (fs ++ [.abandon s.tasks]) =
        before ++ .abandon left :: after ∧ left.length = n).mpr ⟨?_, ?_⟩
    · intro n hn
      exact ⟨rfl, es ++ fs, s.tasks, [], by simp, hn⟩
    · intro d _ n hd
      exact absurd hd (hnone d n)
  · intro _
    exact h.silent fun d n hd => hnone d n (by rw [hd]; rfl)

end

theorem reported_step {es : List (Event TaskId (Fin cfg.workerCount))}
    (hstep : step s l = some t) (hclosing : Closing s) (h : Reported es s) :
    Reported (es ++ events s l) t := by
  cases step_does hstep with
  | submitNotify =>
    exact h.frame rfl rfl (by rw [List.filterMap_append, forced_dropped, List.append_nil])
  | closeAgain hc =>
    exact h.pass (by simp [hc, ClosePc.Settled]) (by simp [ClosePc.Settled]) rfl rfl rfl
  | @closeStop c hc hacc hdrained =>
    rw [events, if_pos hacc, if_pos hdrained]
    have hnone : ∀ d n, ¬ (s.closes d).Settled n := fun d n hd =>
      (hclosing.accepting hacc).2 d hd.winner
    have hshut : Reported es { s with accepting := false } := ⟨h.settled, h.silent, h.line⟩
    exact hshut.stop [.shut] hnone
  | closeWait hc hacc =>
    exact h.pass (s := s) (by simp [hc, ClosePc.Settled]) (by simp [ClosePc.Settled]) rfl rfl rfl
  | @drainStop c timedOut hc hend =>
    rw [events, if_pos hend]
    have hnone : ∀ d n, ¬ (s.closes d).Settled n := by
      intro d n hd
      have he := hclosing.one d c hd.winner (by rw [hc]; trivial)
      rw [he, hc] at hd
      exact hd
    exact h.stop [] hnone
  | drainWait hc =>
    exact h.pass (by simp [hc, ClosePc.Settled]) (by simp [ClosePc.Settled]) rfl rfl rfl
  | @closeNotify c n hc =>
    have hwin : (s.closes c).Winner := by
      rw [hc]
      trivial
    have hsilent : s.log.filterMap Warning.forced = [] := by
      refine h.silent fun d m hd => ?_
      have he := hclosing.one d c (by rw [hd]; trivial) hwin
      rw [he, hc] at hd
      cases hd
    rw [events, List.append_nil]
    refine ⟨?_, ?_, ?_⟩
    · refine (Function.forall_update_iff s.closes fun d pc => ∀ m, pc.Settled m →
        s.draining = false ∧ ∃ before left after, es = before ++ .abandon left :: after ∧
          left.length = m).mpr ⟨fun m hm => ?_, fun d _ => h.settled d⟩
      exact h.settled c m (by rw [hc]; exact hm)
    · intro hnone
      exact absurd (Function.update_self c _ s.closes) (hnone c n)
    · have hlog := forced_forceDropped cfg n
      refine (Function.forall_update_iff s.closes fun d pc => ∀ m, pc = .returned (some m) →
        (s.log ++ report cfg _).filterMap Warning.forced = forcedLine cfg m).mpr ⟨?_, ?_⟩
      · intro m hm
        cases hm
        rw [List.filterMap_append, hsilent, hlog, List.nil_append]
      · intro d hne m hd
        exact absurd (hclosing.one d c (by rw [hd]; trivial) hwin) hne
  | _ => exact h.frame rfl rfl rfl

theorem reported_run {ls : List (Label cfg)} (h : Run step anyStep (new cfg) ls s) :
    Reported (history cfg ls) s := by
  unfold history
  have hboth := trace_history (I := fun es s => Closing s ∧ Reported es s)
    (fun _ hstep hs => ⟨closing_step hstep hs.1, reported_step hstep hs.1 hs.2⟩) h
    ⟨.init, .init⟩
  exact hboth.2

/-! ## A drain within the deadline -/

/-- Runs in which no `wait_for` times out. -/
def inTime (_ : Dispatcher cfg) : Label cfg → Prop
  | .drain _ timedOut => timedOut = false
  | _ => True

instance inTime.decidable (s : Dispatcher cfg) (l : Label cfg) : Decidable (inTime s l) := by
  cases l <;> unfold inTime <;> infer_instance

/-- The workers were stopped when nothing was queued or executing. -/
def Idle (es : List (Event TaskId (Fin cfg.workerCount))) (s : Dispatcher cfg) : Prop :=
  s.draining = false → s.tasks = [] ∧ s.accepting = false ∧ abandoned es = [] ∧
    ∀ w, (s.workers w).task = none

/-- `active_` is zero when no worker executes. -/
theorem Balanced.idle (h : Balanced s) (hactive : s.active = 0) (w : Fin cfg.workerCount) :
    (s.workers w).task = none := by
  have hcard := h.active_eq
  rw [hactive, eq_comm, Finset.card_eq_zero, Finset.filter_eq_empty_iff] at hcard
  have hw := hcard (Finset.mem_univ w)
  cases hpc : s.workers w with
  | running task => exact absurd (by rw [hpc]; rfl) hw
  | _ => rfl

theorem idle_step {es : List (Event TaskId (Fin cfg.workerCount))} (hok : inTime s l)
    (hstep : step s l = some t) (hclosing : Closing s) (hbalanced : Balanced s)
    (hkept : s.draining = true → abandoned es = []) (h : Idle es s) :
    Idle (es ++ events s l) t := by
  have hworkers : ∀ {w : Fin cfg.workerCount} {pc : WorkerPc}, pc.task = none →
      (∀ v, (s.workers v).task = none) → ∀ v, (Function.update s.workers w pc v).task = none := by
    intro w pc hpc hall
    exact (Function.forall_update_iff s.workers fun _ pc => pc.task = none).mpr
      ⟨hpc, fun v _ => hall v⟩
  cases step_does hstep with
  | refuse hk hacc =>
    intro hd
    simpa [events, hacc, Event.abandons] using h hd
  | displace hk hacc =>
    intro hd
    exact absurd ((h hd).2.1.symm.trans hacc) Bool.false_ne_true
  | push hk hacc =>
    intro hd
    exact absurd ((h hd).2.1.symm.trans hacc) Bool.false_ne_true
  | take hw htasks =>
    intro hd
    have hnil := (h hd).1
    rw [htasks] at hnil
    cases hnil
  | exit hw htasks =>
    intro hd
    obtain ⟨hqueue, hacc, hnone, hall⟩ := h hd
    exact ⟨hqueue, hacc, by simpa [events, htasks] using hnone, hworkers rfl hall⟩
  | park hw htasks =>
    intro hd
    simpa [events, htasks] using h hd
  | @finish w task hw =>
    intro hd
    have hbusy := (h hd).2.2.2 w
    rw [hw] at hbusy
    cases hbusy
  | workerNotify hw =>
    intro hd
    obtain ⟨hqueue, hacc, hnone, hall⟩ := h hd
    exact ⟨hqueue, hacc, by simpa [events] using hnone, hworkers rfl hall⟩
  | closeAgain hc hacc =>
    intro hd
    simpa [events, hacc] using h hd
  | closeStop hc hacc hdrained =>
    intro _
    refine ⟨rfl, rfl, ?_, hbalanced.idle hdrained.2⟩
    rw [events, if_pos hacc, if_pos hdrained, hdrained.1]
    simpa [Event.abandons] using hkept (hclosing.accepting hacc).1
  | closeWait hc hacc =>
    intro hd
    exact absurd (hd.symm.trans (hclosing.accepting hacc).1) Bool.false_ne_true
  | @drainStop c timedOut hc hend =>
    intro _
    obtain ⟨hacc, hdraining⟩ := hclosing.waiting c hc
    have hok : timedOut = false := hok
    have hdrained : s.Drained := hend.resolve_right (by simp [hok])
    refine ⟨rfl, hacc, ?_, hbalanced.idle hdrained.2⟩
    rw [events, if_pos hend, hdrained.1]
    simpa [Event.abandons] using hkept hdraining
  | @drainWait c timedOut hc hend =>
    intro hd
    exact absurd (hd.symm.trans (hclosing.waiting c hc).2) Bool.false_ne_true
  | submitNotify | closeNotify | wake =>
    intro hd
    simpa [events] using h hd

theorem idle_run {ls : List (Label cfg)} (h : Run step inTime (new cfg) ls s) :
    Idle (history cfg ls) s := by
  unfold history
  have hall := trace_history (I := fun es s => (Closing s ∧ Balanced s) ∧
    Accounted cfg.capacity es s.pool ∧ Idle es s) (fun hok hstep hs => by
      obtain ⟨⟨hclosing, hbalanced⟩, hacc, hidle⟩ := hs
      exact ⟨⟨closing_step hstep hclosing, (step_moves hstep).balanced hbalanced⟩,
        hacc.run (pool_step hstep hclosing),
        idle_step hok hstep hclosing hbalanced hacc.kept hidle⟩) h
    ⟨⟨.init, .init⟩, .init, fun hd => by cases hd⟩
  exact hall.2.2

/-- A run under a condition is a run. -/
theorem anyStep_of_inTime {ls : List (Label cfg)} (h : Run step inTime (new cfg) ls s) :
    Run step anyStep (new cfg) ls s :=
  h.of_labels fun _ _ => trivial

/-- **`Close` reports what is left, once.** When the call `c` has returned after clearing the queue
of `n` tasks, the history has one event that gave them up: of the tasks accepted before it, they
are those that had neither given way nor been started, and nothing is accepted or started after
it. The queue stays empty, the flags stay cleared, every other `Close` is outside or returned at
once, and the one shutdown warning in the log, there exactly when the host has a sink and `n` is
positive, says `n`. -/
theorem close_reports_what_is_left {ls : List (Label cfg)} (h : Run step anyStep (new cfg) ls s)
    {c n : Nat} (hc : s.closes c = .returned (some n)) :
    (∃ (left : List TaskId) (before after : List (Event TaskId (Fin cfg.workerCount))),
      history cfg ls = before ++ .abandon left :: after ∧ left.length = n ∧
      (admitted before : Multiset TaskId) = displaced before + started before + left ∧
      admitted after = [] ∧ displaced after = [] ∧ started after = []) ∧
    s.tasks = [] ∧ s.accepting = false ∧ s.draining = false ∧
    (∀ d, d ≠ c → s.closes d = .outside ∨ s.closes d = .returned none) ∧
    s.log.filterMap Warning.forced = forcedLine cfg n := by
  obtain ⟨hpool, hclosing⟩ := pool_run h
  have hreported := reported_run h
  have hsettled : (s.closes c).Settled n := by
    rw [hc]
    rfl
  obtain ⟨hdraining, before, left, after, hsplit, hleft⟩ := hreported.settled c n hsettled
  obtain ⟨hqueue, hacc⟩ := (accounted_run hpool).stopped hdraining
  obtain ⟨hplaced, -, a, -, hfinal⟩ := abandon_accounts (hsplit ▸ hpool)
  refine ⟨⟨left, before, after, hsplit, hleft, hplaced, hfinal.admitted, hfinal.displaced,
    hfinal.started⟩, hqueue, hacc, hdraining, ?_, hreported.line c n hc⟩
  intro d hne
  have hlost : ¬ (s.closes d).Winner := fun hd => hne (hclosing.one d c hd hsettled.winner)
  rcases hd : s.closes d with _ | _ | m | (_ | m)
  · exact .inl rfl
  · exact absurd (by rw [hd]; trivial) hlost
  · exact absurd (by rw [hd]; trivial) hlost
  · exact .inr rfl
  · exact absurd (by rw [hd]; trivial) hlost

/-- The worker executes task 0 when the only `Close` times out, and task 1 is left. -/
theorem close_reports_what_is_left_deadline : ∃ s,
    Run step anyStep (new logging) [.submit 0 false, .submitNotify 0 none, .poll loggingWorker,
      .submit 1 false, .close 0, .wake (.closer 0), .drain 0 true, .closeNotify 0] s ∧
    s.closes 0 = .returned (some 1) ∧ s.tasks = [] ∧ s.log.filterMap Warning.forced = [1] := by
  obtain ⟨s, hrun, hs⟩ := exists_run_of_exec step anyStep (new logging)
    [.submit 0 false, .submitNotify 0 none, .poll loggingWorker, .submit 1 false, .close 0,
      .wake (.closer 0), .drain 0 true, .closeNotify 0]
    (fun s => s.closes 0 = .returned (some 1)) (by decide)
  have hc : s.closes 0 = .returned (some 1) := of_decide_eq_true hs
  obtain ⟨-, hqueue, -, -, -, hlog⟩ := close_reports_what_is_left hrun hc
  exact ⟨s, hrun, hc, hqueue, hlog⟩

/-- **A drain within the deadline loses nothing.** Where no `wait_for` times out, a `Close` that
has stopped the workers reports no loss, and every task that was accepted has given way to a newer
one or has been executed to its end. -/
theorem drain_in_time_loses_nothing {ls : List (Label cfg)} (h : Run step inTime (new cfg) ls s)
    (hdraining : s.draining = false) :
    (admitted (history cfg ls) : Multiset TaskId) =
      displaced (history cfg ls) + finished (history cfg ls) ∧
    (∀ c n, s.closes c = .returned (some n) → n = 0) ∧ s.log.filterMap Warning.forced = [] := by
  have hany := anyStep_of_inTime h
  have hacc := accounted_run (pool_run hany).1
  obtain ⟨hqueue, -, hnone, hall⟩ := idle_run h hdraining
  have hidle : executing s.pool.holding = 0 := Finset.sum_eq_zero fun w _ => by
    have hw : s.pool.holding w = none := hall w
    rw [hw]
    rfl
  have hreported := reported_run hany
  have hzero : ∀ c n, s.closes c = .returned (some n) → n = 0 := by
    intro c n hc
    obtain ⟨-, before, left, after, hsplit, rfl⟩ := hreported.settled c n (by rw [hc]; rfl)
    rw [hsplit] at hnone
    have hleft : left = [] := by
      simp only [abandoned_append, abandoned_cons, List.append_eq_nil_iff] at hnone
      exact hnone.2.1
    rw [hleft, List.length_nil]
  refine ⟨?_, hzero, ?_⟩
  · have hplaced := hacc.placed
    have hqueue : s.pool.queue = [] := hqueue
    rw [hnone, hacc.popped, hidle, hqueue] at hplaced
    simpa using hplaced
  · by_cases hsome : ∃ c n, s.closes c = .returned (some n)
    · obtain ⟨c, n, hc⟩ := hsome
      rw [hreported.line c n hc, hzero c n hc]
      simp [forcedLine]
    · exact hreported.silent fun c n hc => hsome ⟨c, n, hc⟩

/-- Task 1 gives way to task 2, and the `Close` that follows waits for 0 and 2. -/
theorem drain_in_time_loses_nothing_overflow : ∃ s,
    Run step inTime (new logging) [.submit 0 false, .poll loggingWorker, .submit 1 false,
      .submit 2 true, .close 0, .finish loggingWorker, .workerNotify loggingWorker,
      .poll loggingWorker, .finish loggingWorker, .workerNotify loggingWorker, .drain 0 false] s ∧
    s.draining = false ∧ s.log.filterMap Warning.forced = [] := by
  obtain ⟨s, hrun, hs⟩ := exists_run_of_exec step inTime (new logging)
    [.submit 0 false, .poll loggingWorker, .submit 1 false, .submit 2 true, .close 0,
      .finish loggingWorker, .workerNotify loggingWorker, .poll loggingWorker,
      .finish loggingWorker, .workerNotify loggingWorker, .drain 0 false]
    (fun s => !s.draining) (by decide)
  have hd : s.draining = false := by simpa using hs
  exact ⟨s, hrun, hd, (drain_in_time_loses_nothing hrun hd).2.2⟩

/-! ## The overflow warnings -/

/-- The numbers in the overflow warnings. -/
def Warning.overflow : Warning → Option Nat
  | .dropped count => some count
  | .forceDropped _ => none

/-- The number a call has taken from the drop logger and not yet written. -/
def SubmitPc.inHand : SubmitPc → Nat
  | .notifying dropped => dropped.getD 0
  | .outside | .returned _ => 0

/-- What the log says was dropped. -/
def Dispatcher.reported (s : Dispatcher cfg) : Nat := (s.log.filterMap Warning.overflow).sum

/-- What the calls of these tasks are about to say was dropped. -/
def Dispatcher.unreported (s : Dispatcher cfg) (calls : List TaskId) : Nat :=
  (calls.map fun k => (s.submits k).inHand).sum

theorem overflow_dropped (hsink : cfg.logSink = true) (line : Option Nat) :
    ((report cfg (line.map Warning.dropped)).filterMap Warning.overflow).sum = line.getD 0 := by
  rw [report, if_pos hsink]
  cases line <;> simp [Warning.overflow]

theorem overflow_forceDropped (n : Nat) :
    (report cfg (if 0 < n then some (.forceDropped n) else none)).filterMap Warning.overflow =
      [] := by
  unfold report
  split
  · split <;> rfl
  · rfl

/-- A drop is counted: what the logger hands out and what it keeps are one more than it had. -/
theorem RateLimitedDropLogger.recordDrop_sum (logger : RateLimitedDropLogger) (elapsed : Bool) :
    (logger.recordDrop elapsed).1.getD 0 + (logger.recordDrop elapsed).2.dropped =
      logger.dropped + 1 := by
  unfold RateLimitedDropLogger.recordDrop
  split
  · rfl
  · simp

/-- Every task that gave way is reported, about to be reported, or still counted. -/
def Counted (es : List (Event TaskId (Fin cfg.workerCount))) (s : Dispatcher cfg) : Prop :=
  (displaced es).length = s.reported + s.unreported (admitted es) + s.dropLogger.dropped

theorem counted_step {es : List (Event TaskId (Fin cfg.workerCount))}
    (hsink : cfg.logSink = true) (hstep : step s l = some t) (hverdicts : Verdicts es s.verdicts)
    (h : Counted es s) : Counted (es ++ events s l) t := by
  have hpush : ∀ {k : TaskId} (dropped : Option Nat), s.submits k = .outside →
      ((admitted es ++ [k]).map fun j =>
        (Function.update s.submits k (.notifying dropped) j).inHand).sum =
        s.unreported (admitted es) + dropped.getD 0 := by
    intro k dropped hk
    have hnew : k ∉ admitted es := by
      have hnone : s.verdicts k = none := congrArg SubmitPc.verdict hk
      rw [hverdicts.admitted k, hnone]
      simp
    rw [List.map_append, List.sum_append,
      sum_map_update_of_not_mem SubmitPc.inHand s.submits _ hnew]
    simp [Dispatcher.unreported, SubmitPc.inHand]
  have hquiet : ∀ {fs : List (Event TaskId (Fin cfg.workerCount))}, displaced fs = [] →
      admitted fs = [] → t.reported = s.reported → t.submits = s.submits →
      t.dropLogger = s.dropLogger → Counted (es ++ fs) t := by
    intro fs hdisplaced hadmitted hreported hsubmits hlogger
    unfold Counted Dispatcher.unreported
    rw [displaced_append, admitted_append, hdisplaced, hadmitted, List.append_nil, List.append_nil,
      hreported, hsubmits, hlogger]
    exact h
  unfold Counted at h
  cases step_does hstep with
  | @refuse k _ hk hacc =>
    rw [events, if_neg (by rw [hacc]; exact Bool.false_ne_true)]
    have hout : k ∉ admitted es := by
      have hnone : s.verdicts k = none := congrArg SubmitPc.verdict hk
      rw [hverdicts.admitted k, hnone]
      simp
    have hsum := sum_map_update_of_not_mem SubmitPc.inHand s.submits (.returned false) hout
    simpa [Counted, Dispatcher.unreported, Dispatcher.reported, Event.displaces, Event.admits,
      hsum] using h
  | @displace k elapsed hk hacc hfull =>
    have hdisplaced : (s.pool.displaced cfg.capacity).toList.length = 1 := by
      have hpos : 0 < s.tasks.length := Nat.lt_of_lt_of_le cfg.capacity_pos hfull
      obtain ⟨oldest, rest, htasks⟩ := List.exists_cons_of_length_pos hpos
      unfold Pool.displaced
      rw [if_pos (show cfg.capacity ≤ s.pool.queue.length from hfull)]
      simp [Dispatcher.pool, htasks]
    have hlogger := s.dropLogger.recordDrop_sum elapsed
    have hsum := hpush (s.dropLogger.recordDrop elapsed).1 hk
    rw [events, if_pos hacc]
    simp only [Counted, Dispatcher.unreported, displaced_append, displaced_cons, displaced_nil,
      admitted_append, admitted_cons, admitted_nil, Event.displaces, Event.admits,
      List.append_nil, List.length_append, hdisplaced]
    rw [hsum]
    simp only [Dispatcher.reported] at h ⊢
    omega
  | @push k elapsed hk hacc hfull =>
    have hdisplaced : s.pool.displaced cfg.capacity = none := by
      unfold Pool.displaced
      rw [if_neg (show ¬ cfg.capacity ≤ s.pool.queue.length from Nat.not_le.mpr hfull)]
    have hsum := hpush none hk
    rw [events, if_pos hacc, hdisplaced]
    simp only [Counted, Dispatcher.unreported, displaced_append, displaced_cons, displaced_nil,
      admitted_append, admitted_cons, admitted_nil, Event.displaces, Event.admits,
      List.append_nil, Option.toList_none]
    rw [hsum]
    exact h
  | @submitNotify k target dropped changed hk =>
    have hin : k ∈ admitted es := (hverdicts.admitted k).mpr (congrArg SubmitPc.verdict hk)
    have hsum := sum_map_update SubmitPc.inHand s.submits (.returned true) hverdicts.nodup hin
    have hline := overflow_dropped hsink dropped
    rw [hk] at hsum
    change _ + dropped.getD 0 = _ + 0 at hsum
    simp only [Counted, Dispatcher.unreported, Dispatcher.reported, events, List.append_nil,
      List.filterMap_append, List.sum_append, hline] at h ⊢
    omega
  | take hw htasks =>
    exact hquiet (by simp [events, htasks, Event.displaces]) (by simp [events, htasks, Event.admits])
      rfl rfl rfl
  | exit hw htasks => exact hquiet (by simp [events, htasks]) (by simp [events, htasks]) rfl rfl rfl
  | park hw htasks => exact hquiet (by simp [events, htasks]) (by simp [events, htasks]) rfl rfl rfl
  | finish hw =>
    exact hquiet (by simp [events, hw, WorkerPc.task, Event.displaces])
      (by simp [events, hw, WorkerPc.task, Event.admits]) rfl rfl rfl
  | closeAgain hc hacc => exact hquiet (by simp [events, hacc]) (by simp [events, hacc]) rfl rfl rfl
  | closeStop hc hacc hd =>
    exact hquiet (by simp [events, hacc, hd, Event.displaces])
      (by simp [events, hacc, hd, Event.admits]) rfl rfl rfl
  | closeWait hc hacc hd =>
    exact hquiet (by simp [events, hacc, hd, Event.displaces])
      (by simp [events, hacc, hd, Event.admits]) rfl rfl rfl
  | drainStop hc hend =>
    exact hquiet (by rw [events, if_pos hend]; rfl) (by rw [events, if_pos hend]; rfl) rfl rfl rfl
  | drainWait hc hend =>
    exact hquiet (by rw [events, if_neg hend]; rfl) (by rw [events, if_neg hend]; rfl) rfl rfl rfl
  | @closeNotify c n hc =>
    refine hquiet rfl rfl ?_ rfl rfl
    rw [Dispatcher.reported, List.filterMap_append, overflow_forceDropped, List.append_nil]
    rfl
  | workerNotify | wake => exact hquiet rfl rfl rfl rfl rfl

/-- **No drop goes uncounted, none is counted twice.** With a log sink, in every state of every
run the numbers in the overflow warnings, those that calls of `Submit` have taken from the drop
logger and are about to write, and the one the drop logger still holds add up to the number of
tasks that gave way to others. -/
theorem overflow_warnings_account {ls : List (Label cfg)} (h : Run step anyStep (new cfg) ls s)
    (hsink : cfg.logSink = true) :
    (displaced (history cfg ls)).length =
      s.reported + s.unreported (admitted (history cfg ls)) + s.dropLogger.dropped := by
  unfold history
  have hboth := trace_history (I := fun es s => Verdicts es s.verdicts ∧ Counted es s)
    (fun _ hstep hs => ⟨verdicts_step hstep hs.1, counted_step hsink hstep hs.1 hs.2⟩) h
    ⟨.init, rfl⟩
  exact hboth.2

/-- Tasks 1 and 2 give way; the first is still counted when the second is reported with it. -/
theorem overflow_warnings_account_summary : ∃ s,
    Run step anyStep (new logging) [.submit 0 false, .poll loggingWorker, .submit 1 false,
      .submit 2 false, .submit 3 true, .submitNotify 3 none] s ∧ s.reported = 2 ∧
    2 = s.reported + s.unreported [0, 1, 2, 3] + s.dropLogger.dropped := by
  obtain ⟨s, hrun, hs⟩ := exists_run_of_exec step anyStep (new logging)
    [.submit 0 false, .poll loggingWorker, .submit 1 false, .submit 2 false, .submit 3 true,
      .submitNotify 3 none] (fun s => s.reported = 2) (by decide)
  exact ⟨s, hrun, of_decide_eq_true hs, overflow_warnings_account hrun rfl⟩

end

end OppexSdk.Cpp.AsyncDispatcher
