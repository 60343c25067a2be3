import OppexSdk.Rust.DispatcherSafety

/-! # Shutdown of the Rust dispatcher

One `close` call finds `accepting` set and goes on to drain; it is the *winner*, every other call
returns at once. The step in which its `drain_until` clears `draining` ends the dispatcher's
history: nothing is accepted, evicted or started afterwards, so the number it returns is what the
history leaves over. -/
namespace OppexSdk.Rust.Dispatcher
open OppexSdk.Lib OppexSdk.Lib.Transition

variable {cfg : Config}

/-- The call that cleared `accepting`. -/
def ClosePc.Winner : ClosePc → Prop
  | .draining | .stopped _ | .returned (some _) => True
  | .outside | .returned none => False

/-- `drain_until` has returned `n` to this call. -/
def ClosePc.Drained (n : Nat) : ClosePc → Prop
  | .stopped m | .returned (some m) => m = n
  | .draining | .outside | .returned none => False

structure Closing (s : AsyncDispatcher cfg) : Prop where
  outside : s.accepting = true → ∀ c, s.closes c = .outside
  accepting_draining : s.accepting = true → s.draining = true
  one : ∀ c c', (s.closes c).Winner → (s.closes c').Winner → c = c'
  parked : ∀ c, s.changed.Parked (.closer c) → s.closes c = .draining
  live : ∀ c, s.closes c = .draining → s.draining = true
  kept : s.draining = true → s.abandoned = []

theorem Closing.init : Closing (new cfg) where
  outside := fun _ _ => rfl
  accepting_draining := fun _ => rfl
  one := by intro c c' hc; exact hc.elim
  parked := by intro c hc; exact absurd hc (Condvar.parked_new _)
  live := by intro c hc; cases hc
  kept := fun _ => rfl

/-- The winner's own progress changes none of the three facts about who has won. -/
theorem Closing.closes_update {s : AsyncDispatcher cfg} (h : Closing s) {c : Nat} {pc : ClosePc}
    (hc : (s.closes c).Winner) :
    ∀ d d', (Function.update s.closes c pc d).Winner → (Function.update s.closes c pc d').Winner →
      d = d' := by
  have hw : ∀ d, (Function.update s.closes c pc d).Winner → d = c := by
    intro d hd
    by_cases he : d = c
    · exact he
    · rw [Function.update_of_ne he] at hd; exact h.one d c hd hc
  intro d d' hd hd'
  rw [hw d hd, hw d' hd']

theorem closing_step {s t : AsyncDispatcher cfg} {l : Label cfg} (hstep : step s l = some t)
    (h : Closing s) : Closing t := by
  cases step_moves hstep with
  | refuse | push | evict | pop | exit | finish | panic => exact { h with }
  | submitNotify _ hn =>
    refine { h with parked := fun c hc => h.parked c ?_ }
    rcases Condvar.notifyOne_cases hn with ⟨_, _, rfl⟩ | ⟨th, _, _, rfl⟩
    · exact hc
    · exact ((Condvar.parked_wake _ _ _).mp hc).1
  | park =>
    exact { h with parked := fun c hc => h.parked c (by simpa using hc) }
  | workerNotify =>
    exact { h with parked := fun c hc => absurd hc (s.changed.parked_notifyAll _) }
  | wake =>
    exact { h with parked := fun c hc => h.parked c ((Condvar.parked_wake _ _ _).mp hc).1 }
  | @closeAgain c hc hacc =>
    have hne : ∀ d, s.closes d ≠ .outside → d ≠ c := fun d hd he => hd (he ▸ hc)
    have hback : ∀ d, (Function.update s.closes c (.returned none) d).Winner →
        (s.closes d).Winner := by
      intro d hd
      by_cases he : d = c
      · subst he; rw [Function.update_self] at hd; exact hd.elim
      · rwa [Function.update_of_ne he] at hd
    refine ⟨?_, h.accepting_draining, ?_, ?_, ?_, h.kept⟩
    · intro ha
      exact absurd (hacc.symm.trans ha) Bool.false_ne_true
    · intro d d' hd hd'
      exact h.one d d' (hback d hd) (hback d' hd')
    · intro d hd
      have hdr := h.parked d hd
      exact (Function.update_of_ne (hne d (by rw [hdr]; simp)) _ _).trans hdr
    · intro d hd
      by_cases he : d = c
      · subst he; simp at hd
      · exact h.live d (by simpa only [Function.update_of_ne he] using hd)
  | @close c hc hacc =>
    -- the call that wins finds every other one still outside
    have hout := h.outside hacc
    have hwin : ∀ d, (Function.update s.closes c .draining d).Winner → d = c := by
      intro d hd
      by_cases he : d = c
      · exact he
      · rw [Function.update_of_ne he, hout d] at hd; exact hd.elim
    refine ⟨fun ha => absurd ha Bool.false_ne_true, h.accepting_draining ∘ fun _ => hacc,
      ?_, ?_, ?_, h.kept⟩
    · intro d d' hd hd'
      rw [hwin d hd, hwin d' hd']
    · intro d hd
      have hdr := h.parked d hd
      rw [hout d] at hdr; cases hdr
    · intro _ _; exact h.accepting_draining hacc
  | @drainWait c hc =>
    refine { h with parked := ?_ }
    intro d hd
    rcases (Condvar.parked_wait _ _ _).mp hd with he | hp
    · cases he; exact hc
    · exact h.parked d hp
  | @drainStop c _ hc hnp =>
    have hacc : ∀ {p : Prop}, s.accepting = true → p := fun ha => by
      have := h.outside ha c; rw [hc] at this; cases this
    refine ⟨hacc, hacc, h.closes_update (by rw [hc]; trivial), ?_, ?_, ?_⟩
    · intro d hd
      have hne : d ≠ c := fun he => hnp (he ▸ hd)
      exact (Function.update_of_ne hne _ _).trans (h.parked d hd)
    · -- the one call that was draining has just stopped
      intro d hd
      by_cases he : d = c
      · subst he; simp at hd
      · simp only [Function.update_of_ne he] at hd
        exact absurd (h.one d c (by rw [hd]; trivial) (by rw [hc]; trivial)) he
    · intro hd
      exact absurd hd Bool.false_ne_true
  | @closeNotify c n hc =>
    refine ⟨?_, h.accepting_draining, h.closes_update (by rw [hc]; trivial), ?_,
      ?_, h.kept⟩
    · intro ha
      have := h.outside ha c; rw [hc] at this; cases this
    · intro d hd; exact absurd hd (s.changed.parked_notifyAll _)
    · intro d hd
      by_cases he : d = c
      · subst he; simp at hd
      · exact h.live d (by simpa only [Function.update_of_ne he] using hd)

theorem closing_keeps {ok : AsyncDispatcher cfg → Label cfg → Prop} {s t : AsyncDispatcher cfg}
    {ls : List (Label cfg)} (h : Run step ok s ls t) (hs : Closing s) : Closing t :=
  h.invariant (fun _ => closing_step) hs

theorem closing_run {ok : AsyncDispatcher cfg → Label cfg → Prop} {s : AsyncDispatcher cfg}
    {ls : List (Label cfg)} (h : Run step ok (new cfg) ls s) : Closing s :=
  closing_keeps h .init

/-! ## The other calls -/

/-- The `close` call a label belongs to. -/
def Label.closeCall : Label cfg → Option Nat
  | .close c | .drainUntil c _ | .closeNotify c | .wake (.closer c) => some c
  | _ => none

/-- A call that has not won after its step has only found the dispatcher closed. -/
theorem loser_changes_nothing {s t : AsyncDispatcher cfg} {l : Label cfg} {c : Nat}
    (h : Closing s) (hstep : step s l = some t) (hl : l.closeCall = some c)
    (hc : ¬ (t.closes c).Winner) :
    t = { s with closes := Function.update s.closes c (.returned none) } := by
  cases step_moves hstep with
  | closeAgain => cases hl; rfl
  | close | drainStop | closeNotify => cases hl; simp [ClosePc.Winner] at hc
  | drainWait hd => cases hl; exact absurd trivial (by rw [hd] at hc; exact hc)
  | @wake th hp =>
    cases th with
    | worker w => cases hl
    | closer d => cases hl; exact absurd trivial (by rw [h.parked _ hp] at hc; exact hc)
  | _ => cases hl

theorem winner_step {s t : AsyncDispatcher cfg} {l : Label cfg} {c : Nat}
    (hstep : step s l = some t) (hc : (s.closes c).Winner) : (t.closes c).Winner := by
  cases step_moves hstep with
  | @closeAgain d hd | @close d hd =>
    have hne : c ≠ d := by intro he; rw [he, hd] at hc; exact hc
    simpa only [Function.update_of_ne hne] using hc
  | @drainStop d | @closeNotify d =>
    by_cases he : c = d
    · subst he; simp [ClosePc.Winner]
    · simpa only [Function.update_of_ne he] using hc
  | _ => exact hc

theorem winner_run {ok : AsyncDispatcher cfg → Label cfg → Prop} {s t : AsyncDispatcher cfg}
    {ls : List (Label cfg)} {c : Nat} (h : Run step ok s ls t) (hc : (s.closes c).Winner) :
    (t.closes c).Winner :=
  h.invariant (I := fun s => (s.closes c).Winner) (fun _ => winner_step) hc

/-! ## The warning -/

/-- The numbers that were logged as force-dropped. -/
def forceDrops (log : List Warning) : List Nat :=
  log.filterMap fun
    | .forceDropped n => some n
    | .dropped _ => none

/-- What a `close` that has returned has logged. -/
structure Logged (s : AsyncDispatcher cfg) : Prop where
  before : (∀ c n, s.closes c ≠ .returned (some n)) → forceDrops s.log = []
  after : ∀ c n, s.closes c = .returned (some n) →
    forceDrops s.log = if 0 < n then [n] else []

theorem Logged.init : Logged (new cfg) :=
  ⟨fun _ => rfl, by intro c n hc; cases hc⟩

/-- A `close` that moves without returning its number. -/
theorem Logged.closes_update {s t : AsyncDispatcher cfg} (h : Logged s) {c : Nat} {pc : ClosePc}
    (hlog : t.log = s.log) (hcloses : t.closes = Function.update s.closes c pc)
    (hold : ∀ n, s.closes c ≠ .returned (some n)) (hnew : ∀ n, pc ≠ .returned (some n)) :
    Logged t := by
  have hsame : ∀ d n, t.closes d = .returned (some n) ↔ s.closes d = .returned (some n) := by
    intro d n
    rw [hcloses]
    by_cases hd : d = c
    · rw [hd, Function.update_self]
      exact iff_of_false (hnew n) (hold n)
    · rw [Function.update_of_ne hd]
  refine ⟨?_, ?_⟩
  · intro hnone
    rw [hlog]
    exact h.before fun d n hd => hnone d n ((hsame d n).mpr hd)
  · intro d n hd
    rw [hlog]
    exact h.after d n ((hsame d n).mp hd)

theorem logged_step {s t : AsyncDispatcher cfg} {l : Label cfg} (hclosing : Closing s)
    (hstep : step s l = some t) (h : Logged s) : Logged t := by
  cases step_moves hstep with
  | @submitNotify _ dropped _ _ _ _ =>
    have hlog : forceDrops (s.log ++ (dropped.map Warning.dropped).toList) = forceDrops s.log := by
      cases dropped <;> simp [forceDrops]
    exact ⟨fun hnone => hlog.trans (h.before hnone), fun c n hc => hlog.trans (h.after c n hc)⟩
  | closeAgain hc =>
    exact h.closes_update rfl rfl (by simp [hc]) (by simp)
  | close hc =>
    exact h.closes_update rfl rfl (by simp [hc]) (by simp)
  | drainStop hc =>
    exact h.closes_update rfl rfl (by simp [hc]) (by simp)
  | @closeNotify c abandoned hc =>
    have hwin : (s.closes c).Winner := by rw [hc]; trivial
    have hnone : forceDrops s.log = [] := by
      refine h.before ?_
      intro d n hd
      have hdc : d = c := hclosing.one d c (by rw [hd]; trivial) hwin
      rw [hdc, hc] at hd
      cases hd
    have hlog : forceDrops (s.log ++ if 0 < abandoned then [Warning.forceDropped abandoned] else [])
        = if 0 < abandoned then [abandoned] else [] := by
      unfold forceDrops at hnone ⊢
      rw [List.filterMap_append, hnone]
      split_ifs <;> rfl
    refine ⟨fun hall => absurd (Function.update_self ..) (hall c abandoned), ?_⟩
    intro d n hd
    replace hd : Function.update s.closes c (.returned (some abandoned)) d =
        .returned (some n) := hd
    by_cases hdc : d = c
    · rw [hdc, Function.update_self] at hd
      cases hd
      exact hlog
    · rw [Function.update_of_ne hdc] at hd
      exact absurd (hclosing.one d c (by rw [hd]; trivial) hwin) hdc
  | _ => exact ⟨h.before, h.after⟩

theorem logged_run {ok : AsyncDispatcher cfg → Label cfg → Prop} {s : AsyncDispatcher cfg}
    {ls : List (Label cfg)} (h : Run step ok (new cfg) ls s) : Logged s := by
  have hboth : Closing s ∧ Logged s :=
    h.invariant (I := fun s => Closing s ∧ Logged s)
      (fun _ hstep hs => ⟨closing_step hstep hs.1, logged_step hs.1 hstep hs.2⟩)
      ⟨.init, .init⟩
  exact hboth.2

/-- Until the winner returns nothing is logged as force-dropped. -/
theorem forceDrops_of_stopped {s : AsyncDispatcher cfg} (hclosing : Closing s) (h : Logged s)
    {c n : Nat} (hc : s.closes c = .stopped n) : forceDrops s.log = [] := by
  refine h.before ?_
  intro d m hd
  have hdc : d = c := hclosing.one d c (by rw [hd]; trivial) (by rw [hc]; trivial)
  rw [hdc, hc] at hd
  cases hd

/-! ## After the drain -/

/-- What the step that clears `draining` leaves behind, and every later step keeps: `a` is the
state it leads to. -/
structure Stopped (a : AsyncDispatcher cfg) (c n : Nat) (t : AsyncDispatcher cfg) : Prop where
  accepting : t.accepting = false
  draining : t.draining = false
  tasks : t.tasks = []
  accepted : t.accepted = a.accepted
  evicted : t.evicted = a.evicted
  started : t.started = a.started
  drained : (t.closes c).Drained n
  /-- A `submit` that had not entered yet is refused. -/
  refused : ∀ k, a.submits k = .outside → t.submits k = .outside ∨ t.submits k = .returned false
  /-- Whoever executes a task had it before. -/
  running : ∀ w, (t.workers w).isRunning = true → a.workers w = t.workers w

theorem ClosePc.Drained.cases {pc : ClosePc} {n : Nat} (h : pc.Drained n) :
    pc = .stopped n ∨ pc = .returned (some n) := by
  unfold ClosePc.Drained at h
  split at h
  · exact .inl (by rw [h])
  · exact .inr (by rw [h])
  all_goals exact h.elim

theorem drained_ne_outside {pc : ClosePc} {n : Nat} (h : pc.Drained n) :
    pc ≠ .outside ∧ pc ≠ .draining := by
  constructor <;> (rintro rfl; exact h)

theorem stopped_step {a s t : AsyncDispatcher cfg} {c n : Nat} {l : Label cfg}
    (hstep : step s l = some t) (h : Stopped a c n s) : Stopped a c n t := by
  obtain ⟨hacc, hdr, htasks, ha, he, hs, hc, href, hrun⟩ := h
  obtain ⟨hout, hnd⟩ := drained_ne_outside hc
  have hidle : ∀ {w : Fin cfg.workerCount} {pc : WorkerPc}, pc.isRunning = false →
      ∀ v, (Function.update s.workers w pc v).isRunning = true →
        a.workers v = Function.update s.workers w pc v := by
    intro w pc hpc v hv
    by_cases hvw : v = w
    · subst hvw; rw [Function.update_self, hpc] at hv; cases hv
    · rw [Function.update_of_ne hvw] at hv ⊢; exact hrun v hv
  cases step_moves hstep with
  | @refuse k _ hk =>
    refine ⟨hacc, hdr, htasks, ha, he, hs, hc, ?_, hrun⟩
    intro j hj
    by_cases hjk : j = k
    · subst hjk; exact .inr (Function.update_self _ _ _)
    · simpa only [Function.update_of_ne hjk] using href j hj
  | push _ hacc' | evict _ hacc' | close _ hacc' =>
    rw [hacc] at hacc'; cases hacc'
  | @submitNotify k _ _ _ hk _ =>
    refine ⟨hacc, hdr, htasks, ha, he, hs, hc, ?_, hrun⟩
    intro j hj
    have hjk : j ≠ k := by
      rintro rfl
      rcases href j hj with hj' | hj' <;> rw [hk] at hj' <;> cases hj'
    simpa only [Function.update_of_ne hjk] using href j hj
  | pop _ _ htasks' => rw [htasks] at htasks'; cases htasks'
  | park _ _ _ hdr' => rw [hdr] at hdr'; cases hdr'
  | exit | finish | panic | workerNotify =>
    exact ⟨hacc, hdr, htasks, ha, he, hs, hc, href, hidle rfl⟩
  | @closeAgain d hd =>
    have hne : c ≠ d := fun hcd => hout (hcd ▸ hd)
    exact ⟨hacc, hdr, htasks, ha, he, hs, by simpa only [Function.update_of_ne hne] using hc,
      href, hrun⟩
  | @drainStop d _ hd =>
    have hne : c ≠ d := fun hcd => hnd (hcd ▸ hd)
    exact ⟨hacc, rfl, rfl, ha, he, hs, by simpa only [Function.update_of_ne hne] using hc,
      href, hrun⟩
  | @closeNotify d m hd =>
    refine ⟨hacc, hdr, htasks, ha, he, hs, ?_, href, hrun⟩
    by_cases hcd : c = d
    · subst hcd; rw [hd] at hc; simp only [Function.update_self]; exact hc
    · simpa only [Function.update_of_ne hcd] using hc
  | drainWait | wake => exact ⟨hacc, hdr, htasks, ha, he, hs, hc, href, hrun⟩

/-- The step itself: `drain_until` returns the length of the queue it clears. -/
theorem stopped_init {s a : AsyncDispatcher cfg} {c n : Nat} {expired : Bool} (h : Closing s)
    (hstep : step s (.drainUntil c expired) = some a) (hn : a.closes c = .stopped n) :
    Stopped a c n a ∧ n = s.tasks.length ∧ a.abandoned = s.abandoned ++ s.tasks ∧
      s.closes c = .draining ∧ s.accepted = a.accepted ∧ s.evicted = a.evicted ∧
      s.started = a.started ∧ s.workers = a.workers := by
  cases step_moves hstep with
  | drainWait hc => simp only [hc] at hn; cases hn
  | drainStop hc =>
    have hacc : s.accepting = false := by
      by_contra hacc
      have hout := h.outside (by simpa using hacc) c
      rw [hc] at hout; cases hout
    have hlen : s.tasks.length = n := by simpa using hn
    refine ⟨⟨hacc, rfl, rfl, rfl, rfl, rfl, ?_, fun _ hk => .inl hk, fun _ _ => rfl⟩, hlen.symm,
      rfl, hc, rfl, rfl, rfl, rfl⟩
    simp [ClosePc.Drained, hlen]

theorem stopped_run {ok : AsyncDispatcher cfg → Label cfg → Prop} {a s t : AsyncDispatcher cfg}
    {c n : Nat} {ls : List (Label cfg)} (h : Run step ok s ls t) (hs : Stopped a c n s) :
    Stopped a c n t :=
  h.invariant (fun _ => stopped_step) hs

/-- A `close` call other than the winner: at each of its steps, before the drain ends and after. -/
def AsyncDispatcher.Unchanged (s t : AsyncDispatcher cfg) (c : Nat) : Prop :=
  t = { s with closes := Function.update s.closes c (.returned none) }

/-- Where nothing is pending, nothing is queued and no worker executes a task. -/
theorem idle_of_not_pending {pre : List (Label cfg)} {s : AsyncDispatcher cfg}
    (hpre : Run step returnsNormally (new cfg) pre s) (hnp : ¬ s.Pending) :
    s.tasks = [] ∧ ∀ w, (s.workers w).isRunning = false := by
  have hempty : s.tasks = [] := by
    by_contra hne; exact hnp (.inl hne)
  have hactive : s.active = 0 := by
    by_contra hne; exact hnp (.inr (Nat.pos_of_ne_zero hne))
  have hcard := active_eq_running hpre
  rw [hactive] at hcard
  refine ⟨hempty, ?_⟩
  intro w
  by_contra hw
  have hin : w ∈ Finset.univ.filter fun w => (s.workers w).isRunning := by simpa using hw
  exact Finset.notMem_empty w (Finset.card_eq_zero.mp hcard.symm ▸ hin)

/-- **Shutdown accounts for every task.** Take any run in which tasks return normally and the step
of it in which the `drain_until` of call `c` clears `draining` and returns `n`. From then on
`accepting` is false, the queue is empty, no `submit` is accepted (one that enters its critical
section from then on is refused) and no task starts; `n` is the number of tasks accepted, less
those evicted, less those ever started, and unless it is 0 it is what was logged as force-dropped
once the call has returned; if the loop ended because its condition was false, `n` is 0 and nothing
executes any more; and the steps of every other `close` call, earlier or later, only record that it
returned. -/
theorem drain_returns_what_is_left {pre : List (Label cfg)} {s a : AsyncDispatcher cfg}
    {c n : Nat} {expired : Bool} (hpre : Run step returnsNormally (new cfg) pre s)
    (hstep : step s (.drainUntil c expired) = some a) (hn : a.closes c = .stopped n) :
    (∀ post t, Run step returnsNormally a post t →
      t.accepting = false ∧ t.tasks = [] ∧ t.accepted = a.accepted ∧ t.started = s.started ∧
      (t.closes c = .stopped n ∧ forceDrops t.log = [] ∨
        t.closes c = .returned (some n) ∧ forceDrops t.log = if 0 < n then [n] else []) ∧
      (∀ k, a.submits k = .outside → t.submits k = .outside ∨ t.submits k = .returned false) ∧
      n = t.accepted.length - t.evicted.length - t.started.length ∧
      t.evicted.length + t.started.length ≤ t.accepted.length ∧
      (¬ s.Pending → n = 0 ∧ ∀ w, (t.workers w).isRunning = false) ∧
      ∀ l u d, step t l = some u → l.closeCall = some d → d ≠ c → t.Unchanged u d) ∧
    (∀ p l q t u d, pre = p ++ l :: q → Run step returnsNormally (new cfg) p t →
      step t l = some u → l.closeCall = some d → d ≠ c → t.Unchanged u d) := by
  obtain ⟨hstopped, hlen, habandoned, hc, hacc, hev, hst, hwk⟩ :=
    stopped_init (closing_run hpre) hstep hn
  have hwin : (s.closes c).Winner := by rw [hc]; trivial
  have hrun_a : Run step returnsNormally (new cfg) (pre ++ [.drainUntil c expired]) a :=
    hpre.snoc trivial hstep
  have hwin_a : (a.closes c).Winner := by rw [hn]; trivial
  have hnone : s.abandoned = [] := (closing_run hpre).kept ((closing_run hpre).live c hc)
  refine ⟨?_, ?_⟩
  · intro post t hpost
    obtain ⟨tacc, -, ttasks, ta, te, ts, tc, tref, trun⟩ := stopped_run hpost hstopped
    -- at `s` nothing has been abandoned, and the history does not grow any more
    have hplaced := congrArg Multiset.card (accounted_run hpre).placed
    simp only [hnone, hacc, hev, hst, Multiset.card_add, Multiset.coe_card,
      List.length_nil] at hplaced
    have hlogged := logged_run (hrun_a.append hpost)
    refine ⟨tacc, ttasks, ta, ts.trans hst.symm, ?_, tref, ?_, ?_, ?_, ?_⟩
    · rcases tc.cases with hc' | hc'
      · have hclosing := closing_keeps hpost (closing_run hrun_a)
        exact .inl ⟨hc', forceDrops_of_stopped hclosing hlogged hc'⟩
      · exact .inr ⟨hc', hlogged.after c n hc'⟩
    · rw [ta, te, ts]; omega
    · rw [ta, te, ts]; omega
    · intro hnp
      obtain ⟨hempty, hidle⟩ := idle_of_not_pending hpre hnp
      refine ⟨by rw [hlen, hempty]; rfl, ?_⟩
      intro w
      by_contra hw
      -- what executes at `t` was executing at `s`
      have hw : (t.workers w).isRunning = true := by simpa using hw
      have hsame : (s.workers w).isRunning = true := by
        rw [hwk, trun w hw]
        exact hw
      rw [hidle w] at hsame
      cases hsame
    · intro l u d hu hl hd
      have hclosing := closing_keeps hpost (closing_run hrun_a)
      refine loser_changes_nothing hclosing hu hl fun hw => hd ?_
      exact (closing_step hu hclosing).one d c hw
        (winner_step hu (winner_run hpost hwin_a))
  · intro p l q t u d hpq hp hu hl hd
    refine loser_changes_nothing (closing_run hp) hu hl fun hw => hd ?_
    -- a winner at this point would still be one at `s`
    subst hpq
    obtain ⟨t', hp', hrest⟩ := hpre.split
    obtain rfl := hp.det hp'
    cases hrest with
    | cons _ hu' hq =>
      rw [hu] at hu'; cases hu'
      exact (closing_run hpre).one d c (winner_run hq hw) hwin

/-- The worker is busy with task 0 and task 1 is queued when the deadline passes: 1 of 2 is left. -/
theorem drain_returns_what_is_left_deadline : ∃ s a,
    Run step returnsNormally (new smallest) [.submit 0 false, .submitNotify 0 none,
      .poll smallestWorker, .submit 1 false, .submitNotify 1 none, .close 0] s ∧
    step s (.drainUntil 0 true) = some a ∧ a.closes 0 = .stopped 1 ∧
    1 = a.accepted.length - a.evicted.length - a.started.length := by
  obtain ⟨s, hs, hstop⟩ := exists_run_of_exec step returnsNormally (new smallest)
    [.submit 0 false, .submitNotify 0 none, .poll smallestWorker, .submit 1 false,
      .submitNotify 1 none, .close 0]
    (fun s => (step s (.drainUntil 0 true)).any fun a => a.closes 0 = .stopped 1) (by decide)
  obtain ⟨a, ha, hn⟩ := (Option.any_eq_true _ _).mp hstop
  have hn : a.closes 0 = .stopped 1 := of_decide_eq_true hn
  obtain ⟨-, -, -, -, -, -, hcount, -⟩ := (drain_returns_what_is_left hs ha hn).1 [] a (.nil a)
  exact ⟨s, a, hs, ha, hn, hcount⟩

/-- **A `submit` may return `true` after the drain.** It was accepted before, and on its way out of
the lock `close` ran to the end of its drain. -/
theorem submit_may_return_after_the_drain : ∃ pre s a t,
    Run step returnsNormally (new smallest) pre s ∧ s.draining = true ∧
    step s (.drainUntil 0 true) = some a ∧ a.draining = false ∧ a.submits 0 ≠ .returned true ∧
    step a (.submitNotify 0 none) = some t ∧ t.submits 0 = .returned true := by
  obtain ⟨s, hs, hstop⟩ := exists_run_of_exec step returnsNormally (new smallest)
    [.submit 0 false, .close 0]
    (fun s => s.draining = true ∧ (step s (.drainUntil 0 true)).any (fun a =>
      a.draining = false ∧ a.submits 0 ≠ .returned true ∧
        (step a (.submitNotify 0 none)).any (fun t => t.submits 0 = .returned true)) = true)
    (by decide)
  obtain ⟨hd, hstop⟩ := of_decide_eq_true hstop
  obtain ⟨a, ha, hrest⟩ := (Option.any_eq_true _ _).mp hstop
  obtain ⟨had, hasub, hlast⟩ := of_decide_eq_true hrest
  obtain ⟨t, ht, hret⟩ := (Option.any_eq_true _ _).mp hlast
  exact ⟨_, s, a, t, hs, hd, ha, had, hasub, ht, of_decide_eq_true hret⟩

end OppexSdk.Rust.Dispatcher
