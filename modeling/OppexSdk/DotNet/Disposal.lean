import OppexSdk.DotNet.DispatcherLedger
import OppexSdk.DotNet.IncidentClient

/-! # Concurrent disposal of the .NET client

Two calls of `DisposeAsync` can both find `_disposed` unset. The second finds the dispatcher closed,
returns from `CloseAsync` at once and disposes the token and the transport while the first still
drains. When the second comes after the drain, and the last worker does not fault with tasks left to
it, the transport and the token outlive the deliveries. -/
namespace OppexSdk.DotNet
open OppexSdk.Lib.Transition

/-- The call waits for the drain or abandons what is left of it. -/
def ClosePc.drains : ClosePc → Bool
  | draining | timedOut _ | cancelling _ | cancelled _ => true
  | _ => false

/-- `CloseAsync` has returned in the call. -/
def ClosePc.returned : ClosePc → Bool
  | closed _ | disposed _ => true
  | _ => false

namespace AsyncDispatcher
variable {cfg : Config} {s t : AsyncDispatcher cfg} {l : Label cfg}

/-- Two kinds of steps that disturb a drain: a call of `CloseAsync` that finds the dispatcher closed
while another still drains it; and a task that throws something else than it swallows, in the last
worker, when the drain is not over and there are tasks in the channel or tasks may still come. -/
def disturbs (s : AsyncDispatcher cfg) : Label cfg → Bool
  | .close _ => s.closed && !s.drainOver
  | .finish w throws => throws && decide (∀ v, v ≠ w → (s.workers v).ended = true) &&
      !(s.closed && (s.queue.isEmpty || s.drainOver))
  | _ => false

def orderly (s : AsyncDispatcher cfg) (l : Label cfg) : Prop := s.disturbs l = false

instance (s : AsyncDispatcher cfg) (l : Label cfg) : Decidable (s.orderly l) :=
  inferInstanceAs (Decidable (s.disturbs l = false))

/-- Every accepted task that the channel did not drop has ended. -/
def Delivered (s : AsyncDispatcher cfg) : Prop :=
  ∀ k ∈ s.accepted, k ∈ s.evicted ∨ k ∈ s.finished

/-- Somebody reads the channel, or nothing of it is needed any more. -/
def Served (s : AsyncDispatcher cfg) : Prop :=
  (∃ w, (s.workers w).ended = false) ∨ s.closed = true ∧ (s.queue = [] ∨ s.drainOver = true)

structure Drained (s : AsyncDispatcher cfg) : Prop where
  drains : ∀ d, (s.closes d).drains = true → s.closed = true ∧ s.drainOver = false
  returned : ∀ d, (s.closes d).returned = true → s.drainOver = true
  cancels : ∀ d, (s.closes d).hasCancelled = true → s.cancelled = true
  token : s.drainOver = false → s.disposed = false
  settled : s.drainOver = true → s.closed = true ∧ (s.cancelled = true ∨ s.Delivered)
  served : s.Served

/-- When all workers have ended and nothing was lost, an empty channel means that all is
delivered. -/
theorem Ledger.delivered (h : s.Ledger) (hall : s.allEnded) (hq : s.queue = [])
    (hdisposed : s.disposed = false) : s.Delivered := by
  have htaken : s.taken = 0 := Finset.sum_eq_zero fun w _ => by
    have hw := hall w
    cases hpc : s.workers w with
    | taken task =>
      rw [hpc] at hw
      cases hw
    | _ => rfl
  have hrunning : s.running = 0 := Finset.sum_eq_zero fun w _ => by
    have hw := hall w
    cases hpc : s.workers w with
    | running task =>
      rw [hpc] at hw
      cases hw
    | _ => rfl
  intro k hk
  have hmem : k ∈ (s.accepted : Multiset Nat) := hk
  rw [h.accepted, h.invoked, hq, htaken, hrunning, h.lost hdisposed] at hmem
  simp only [Multiset.mem_add, Multiset.coe_nil, Multiset.notMem_zero, or_false,
    Multiset.mem_coe] at hmem
  exact hmem.symm

/-- A step of a worker. -/
theorem Drained.work (h : s.Drained) (hcloses : t.closes = s.closes) (hclosed : t.closed = s.closed)
    (hover : t.drainOver = s.drainOver) (hdisposed : t.disposed = s.disposed)
    (hcancelled : t.cancelled = s.cancelled) (haccepted : t.accepted = s.accepted)
    (hevicted : t.evicted = s.evicted) (hfinished : s.finished ⊆ t.finished) (hserved : t.Served) :
    t.Drained := by
  refine ⟨?_, ?_, ?_, ?_, ?_, hserved⟩
  · rw [hcloses, hclosed, hover]
    exact h.drains
  · rw [hcloses, hover]
    exact h.returned
  · rw [hcloses, hcancelled]
    exact h.cancels
  · rw [hover, hdisposed]
    exact h.token
  · intro ht
    obtain ⟨hc, hdone⟩ := h.settled (hover ▸ ht)
    refine ⟨hclosed.trans hc, ?_⟩
    rcases hdone with hdone | hdone
    · exact .inl (hcancelled.trans hdone)
    · refine .inr ?_
      intro k hk
      rw [haccepted] at hk
      rw [hevicted]
      exact (hdone k hk).imp_right fun hf => hfinished hf

/-- A worker that is there after the step. -/
theorem served_of_alive {w : Fin cfg.workerCount} {pc : WorkerPc}
    (ht : t.workers = Function.update s.workers w pc) (hpc : pc.ended = false) : t.Served := by
  refine .inl ⟨w, ?_⟩
  rw [ht, Function.update_self]
  exact hpc

/-- A step of a call of `CloseAsync` or `DisposeAsync`. -/
theorem Drained.move (h : s.Drained) {d : Nat} {pc : ClosePc}
    (hcloses : t.closes = Function.update s.closes d pc) (hworkers : t.workers = s.workers)
    (hqueue : t.queue = s.queue)
    (hdrains : ∀ j, (t.closes j).drains = true → t.closed = true ∧ t.drainOver = false)
    (hreturned : pc.returned = true → t.drainOver = true)
    (hclosed : s.closed = true → t.closed = true)
    (hover : s.drainOver = true → t.drainOver = true)
    (hcancels : pc.hasCancelled = true → t.cancelled = true)
    (hcancelled : s.cancelled = true → t.cancelled = true)
    (htoken : t.drainOver = false → t.disposed = false)
    (hdone : t.drainOver = true → t.closed = true ∧ (t.cancelled = true ∨ t.Delivered)) :
    t.Drained := by
  refine ⟨hdrains, ?_, ?_, htoken, hdone, ?_⟩
  · intro j hj
    by_cases hd : j = d
    · rw [hcloses, hd, Function.update_self] at hj
      exact hreturned hj
    · rw [hcloses, Function.update_of_ne hd] at hj
      exact hover (h.returned j hj)
  · intro j hj
    by_cases hd : j = d
    · rw [hcloses, hd, Function.update_self] at hj
      exact hcancels hj
    · rw [hcloses, Function.update_of_ne hd] at hj
      exact hcancelled (h.cancels j hj)
  · unfold Served
    rw [hworkers, hqueue]
    exact h.served.imp_right fun hs => ⟨hclosed hs.1, hs.2.imp_right hover⟩

theorem active_of_drains {pc : ClosePc} (h : pc.drains = true) : pc.active = true := by
  cases pc with
  | draining | timedOut | cancelling | cancelled => rfl
  | _ => cases h

/-- Nobody drains when the call that did has moved on. -/
theorem Closing.none_drains (h : s.Closing) {d : Nat} {pc : ClosePc}
    (hd : (s.closes d).drains = true) (hpc : pc.drains = false) (j : Nat) :
    (Function.update s.closes d pc j).drains = false := by
  by_cases hj : j = d
  · rw [hj, Function.update_self]
    exact hpc
  · rw [Function.update_of_ne hj]
    cases hdrains : (s.closes j).drains with
    | false => rfl
    | true => exact absurd (h.unique j d (active_of_drains hdrains) (active_of_drains hd)) hj

/-- The call that drains moves on, and the drain is not over. -/
theorem Drained.goesOn (h : s.Drained) {d : Nat} {pc : ClosePc}
    (hd : (s.closes d).drains = true) (hcloses : t.closes = Function.update s.closes d pc)
    (hpc : pc.drains = true) (hworkers : t.workers = s.workers) (hqueue : t.queue = s.queue)
    (hclosed : t.closed = s.closed) (hover : t.drainOver = s.drainOver)
    (hdisposed : t.disposed = s.disposed) (hcancels : pc.hasCancelled = true → t.cancelled = true)
    (hcancelled : s.cancelled = true → t.cancelled = true) : t.Drained := by
  obtain ⟨hc, ho⟩ := h.drains d hd
  have hopen : t.drainOver = false := hover.trans ho
  refine h.move hcloses hworkers hqueue (fun _ _ => ⟨hclosed.trans hc, hopen⟩) ?_
    (fun _ => hclosed.trans hc) (fun hyes => absurd (ho.symm.trans hyes) nofun) hcancels hcancelled
    (fun _ => hdisposed.trans (h.token ho)) fun hyes => absurd (hopen.symm.trans hyes) nofun
  intro hr
  cases pc with
  | draining | timedOut | cancelling | cancelled => cases hr
  | _ => cases hpc

/-- The call that drains returns, with the token cancelled or everything delivered. -/
theorem Drained.ends (h : s.Drained) (hclosing : s.Closing) {d : Nat} {pc : ClosePc}
    (hd : (s.closes d).drains = true) (hcloses : t.closes = Function.update s.closes d pc)
    (hpc : pc.drains = false) (hworkers : t.workers = s.workers) (hqueue : t.queue = s.queue)
    (hclosed : t.closed = s.closed) (hover : t.drainOver = true)
    (hcancelled : t.cancelled = s.cancelled)
    (hcancels : pc.hasCancelled = true → s.cancelled = true)
    (hdone : t.cancelled = true ∨ t.Delivered) : t.Drained := by
  have hc : t.closed = true := hclosed.trans (h.drains d hd).1
  refine h.move hcloses hworkers hqueue ?_ (fun _ => hover) (fun _ => hc)
    (fun _ => hover) (fun hpc => hcancelled.trans (hcancels hpc)) (fun hs => hcancelled.trans hs)
    (fun hno => absurd (hover.symm.trans hno) nofun) fun _ => ⟨hc, hdone⟩
  intro j hj
  rw [hcloses, hclosing.none_drains hd hpc j] at hj
  cases hj

theorem Drained.accept (h : s.Drained) {k : Nat} (hopen : s.closed = false) :
    ((s.tryWrite k).setSubmit k .accepted).Drained := by
  have hover : s.drainOver = false := by
    cases hyes : s.drainOver with
    | false => rfl
    | true => exact absurd (hopen.symm.trans (h.settled hyes).1) nofun
  have halive : ∃ w, (s.workers w).ended = false := by
    rcases h.served with halive | ⟨hc, -⟩
    · exact halive
    · exact absurd (hopen.symm.trans hc) nofun
  unfold tryWrite
  split <;> exact ⟨h.drains, h.returned, h.cancels, h.token,
    fun hyes => absurd (hover.symm.trans hyes) nofun, .inl halive⟩

/-- A worker that reads a disposed token comes too late for the drain. -/
theorem Drained.fault (h : s.Drained) (hdisposed : s.disposed = true) :
    s.closed = true ∧ s.drainOver = true := by
  cases hyes : s.drainOver with
  | true => exact ⟨(h.settled hyes).1, rfl⟩
  | false => exact absurd ((h.token hyes).symm.trans hdisposed) nofun

theorem finish_drained {w : Fin cfg.workerCount} {task : Nat} {throws : Bool}
    (hok : s.orderly (.finish w throws)) (h : s.Drained) :
    Drained { s.setWorker w (if throws then .faulted else .reading) with
      finished := s.finished ++ [task] } := by
  refine h.work rfl rfl rfl rfl rfl rfl rfl (List.subset_append_left _ _) ?_
  cases throws with
  | false => exact served_of_alive rfl rfl
  | true =>
    by_cases hlast : ∀ v, v ≠ w → (s.workers v).ended = true
    · have hno : s.disturbs (.finish w true) = false := hok
      simp only [disturbs, decide_eq_true hlast, Bool.true_and, Bool.not_eq_false'] at hno
      have hrest : s.closed = true ∧ (s.queue = [] ∨ s.drainOver = true) := by simpa using hno
      exact .inr hrest
    · obtain ⟨v, hv⟩ := not_forall.mp hlast
      rw [Classical.not_imp, Bool.not_eq_true] at hv
      refine .inl ⟨v, ?_⟩
      show (Function.update s.workers w _ v).ended = false
      rw [Function.update_of_ne hv.1]
      exact hv.2

theorem drained_step (hok : s.orderly l) (hstep : step s l = some t) (hclosing : s.Closing)
    (hledger : s.Ledger) (h : s.Drained) : t.Drained := by
  cases step_moves hstep with
  | refuse _ _ => exact h.work rfl rfl rfl rfl rfl rfl rfl (fun _ hk => hk) h.served
  | accept _ hopen => exact h.accept hopen
  | startFails _ hdisposed =>
    obtain ⟨hc, ho⟩ := h.fault hdisposed
    exact h.work rfl rfl rfl rfl rfl rfl rfl (fun _ hk => hk) (.inr ⟨hc, .inr ho⟩)
  | invokeFails _ hdisposed =>
    obtain ⟨hc, ho⟩ := h.fault hdisposed
    exact h.work rfl rfl rfl rfl rfl rfl rfl (fun _ hk => hk) (.inr ⟨hc, .inr ho⟩)
  | start _ _ =>
    exact h.work rfl rfl rfl rfl rfl rfl rfl (fun _ hk => hk) (served_of_alive rfl rfl)
  | read _ _ =>
    exact h.work rfl rfl rfl rfl rfl rfl rfl (fun _ hk => hk) (served_of_alive rfl rfl)
  | invoke _ _ =>
    exact h.work rfl rfl rfl rfl rfl rfl rfl (fun _ hk => hk) (served_of_alive rfl rfl)
  | exit _ hq hc =>
    have hclosed : s.closed = true := by
      rcases Bool.or_eq_true_iff.mp hc with hc | hc
      · exact hc
      · obtain ⟨d, hd⟩ := hclosing.cancelled hc
        exact hclosing.closed d (active_of_hasCancelled hd)
    exact h.work rfl rfl rfl rfl rfl rfl rfl (fun _ hk => hk) (.inr ⟨hclosed, .inl hq⟩)
  | finish throws _ => exact finish_drained hok h
  | @closeAgain d hd hc =>
    have hover : s.drainOver = true := by simpa [orderly, disturbs, hc] using hok
    refine h.move rfl rfl rfl ?_ (fun _ => hover) id id nofun id h.token h.settled
    intro j hj
    by_cases hjd : j = d
    · rw [hjd] at hj
      exact absurd hj (by simp [setClose, ClosePc.drains])
    · exact h.drains j (by simpa [setClose, hjd] using hj)
  | @close d hd hopen =>
    have hover : s.drainOver = false := by
      cases hyes : s.drainOver with
      | false => rfl
      | true => exact absurd (hopen.symm.trans (h.settled hyes).1) nofun
    exact h.move rfl rfl rfl (fun _ _ => ⟨rfl, hover⟩) nofun (fun _ => rfl) id nofun id h.token
      fun hyes => absurd (hover.symm.trans hyes) nofun
  | @drained d hd hall =>
    have hdrains : (s.closes d).drains = true := by rw [hd]; rfl
    obtain ⟨-, hover⟩ := h.drains d hdrains
    have hempty : s.queue = [] := by
      rcases h.served with ⟨w, hw⟩ | ⟨-, hq | hyes⟩
      · exact absurd ((hall w).symm.trans hw) nofun
      · exact hq
      · exact absurd (hover.symm.trans hyes) nofun
    have hdelivered := hledger.delivered hall hempty (h.token hover)
    exact h.ends hclosing hdrains rfl rfl rfl rfl rfl rfl rfl nofun (.inr hdelivered)
  | @timeout d hd =>
    exact h.goesOn (by rw [hd]; rfl) rfl rfl rfl rfl rfl rfl rfl nofun id
  | @cancelFails d n hd hdisposed =>
    have hover := (h.drains d (by rw [hd]; rfl)).2
    exact absurd ((h.token hover).symm.trans hdisposed) nofun
  | @cancel d n hd _ =>
    exact h.goesOn (by rw [hd]; rfl) rfl rfl rfl rfl rfl rfl rfl (fun _ => rfl) fun _ => rfl
  | @cancelDone d n hd =>
    have hcancelled := h.cancels d (by rw [hd]; rfl)
    exact h.goesOn (by rw [hd]; rfl) rfl rfl rfl rfl rfl rfl rfl (fun _ => hcancelled) id
  | @log d n hd =>
    have hcancelled := h.cancels d (by rw [hd]; rfl)
    exact h.ends hclosing (by rw [hd]; rfl) rfl rfl rfl rfl rfl rfl rfl (fun _ => hcancelled)
      (.inl hcancelled)
  | @dispose d forced hd =>
    have hover := h.returned d (by rw [hd]; rfl)
    refine h.move rfl rfl rfl ?_ (fun _ => hover) id id ?_ id
      (fun hno => absurd (hover.symm.trans hno) nofun) h.settled
    · intro j hj
      by_cases hjd : j = d
      · rw [hjd] at hj
        exact absurd hj (by simp [setClose, ClosePc.drains])
      · exact h.drains j (by simpa [setClose, hjd] using hj)
    · intro hc
      exact h.cancels d (by rw [hd]; exact hc)

theorem drained_new (cfg : Config) : (new cfg).Drained :=
  ⟨nofun, nofun, nofun, fun _ => rfl, nofun, .inl ⟨⟨0, cfg.workerCount_pos⟩, rfl⟩⟩

end AsyncDispatcher

namespace IncidentClient
variable {cfg : Config} {s t : IncidentClient cfg} {l : ClientLabel cfg}

/-- The step of the client disturbs the dispatcher's drain. -/
def disturbs (s : IncidentClient cfg) : ClientLabel cfg → Bool
  | .dispatch l => s.dispatcher.disturbs l
  | _ => false

def orderly (s : IncidentClient cfg) (l : ClientLabel cfg) : Prop := s.disturbs l = false

instance (s : IncidentClient cfg) (l : ClientLabel cfg) : Decidable (s.orderly l) :=
  inferInstanceAs (Decidable (s.disturbs l = false))

/-- What holds of the client: of its dispatcher, and that the transport was disposed after the
drain. -/
structure Inv (s : IncidentClient cfg) : Prop where
  closing : s.dispatcher.Closing
  ledger : s.dispatcher.Ledger
  drained : s.dispatcher.Drained
  transport : s.transportDisposed = true → s.dispatcher.drainOver = true

/-- The drain stays over. -/
theorem drainOver_step {d d' : AsyncDispatcher cfg} {l : Label cfg}
    (hstep : AsyncDispatcher.step d l = some d') (h : d.drainOver = true) :
    d'.drainOver = true := by
  cases AsyncDispatcher.step_moves hstep with
  | accept _ _ =>
    unfold AsyncDispatcher.tryWrite
    split <;> exact h
  | drained _ _ | cancelFails _ _ | log _ => rfl
  | _ => exact h

/-- A step of the dispatcher, with nothing new said of the transport. -/
theorem Inv.dispatch (h : s.Inv) {d : AsyncDispatcher cfg} {l : Label cfg}
    (hok : s.dispatcher.orderly l) (hstep : AsyncDispatcher.step s.dispatcher l = some d)
    (hdispatcher : t.dispatcher = d) (htransport : t.transportDisposed = s.transportDisposed) :
    t.Inv := by
  subst hdispatcher
  refine ⟨AsyncDispatcher.closing_step hstep h.closing, AsyncDispatcher.ledger_step hstep h.ledger,
    AsyncDispatcher.drained_step hok hstep h.closing h.ledger h.drained, ?_⟩
  intro ht
  exact drainOver_step hstep (h.transport (htransport.symm.trans ht))

theorem inv_step (hok : s.orderly l) (hstep : step s l = some t) (h : s.Inv) : t.Inv := by
  cases l with
  | submit k =>
    simp only [step] at hstep
    split at hstep
    · obtain ⟨d, hd, rfl⟩ := Option.map_eq_some_iff.mp hstep
      have hsubmit : s.dispatcher.orderly (.submit k) := rfl
      exact h.dispatch hsubmit hd rfl rfl
    · cases hstep
  | dispatch l =>
    simp only [step] at hstep
    split at hstep
    · obtain ⟨d, hd, rfl⟩ := Option.map_eq_some_iff.mp hstep
      exact h.dispatch hok hd rfl rfl
    · cases hstep
  | disposeTransport d =>
    simp only [step] at hstep
    split at hstep <;> cases hstep
    rename_i forced _ hd
    have hover := h.drained.returned d (by rw [hd]; rfl)
    exact ⟨h.closing, h.ledger, h.drained, fun _ => hover⟩
  | enqueue k valid | dispose d | mark d =>
    simp only [step] at hstep
    split at hstep <;> cases hstep
    exact ⟨h.closing, h.ledger, h.drained, h.transport⟩

theorem inv_new (cfg : Config) : (new cfg).Inv :=
  ⟨AsyncDispatcher.closing_new cfg, AsyncDispatcher.ledger_new cfg, AsyncDispatcher.drained_new cfg,
    nofun⟩

/-- **Concurrent disposal is safe** when no step disturbs the drain: in every state of such a run,
with any number of calls of `DisposeAsync` and `Enqueue`, the transport was disposed only after
every accepted delivery that the channel did not drop had ended, or after the drain had timed out
and cancelled the token; and while the drain is in progress, the token is not disposed, so that nobody
cancels or reads a disposed one. -/
theorem disposal_is_safe {ls : List (ClientLabel cfg)} (h : Run step orderly (new cfg) ls s) :
    (s.transportDisposed = true → s.dispatcher.Delivered ∨ s.dispatcher.cancelled = true) ∧
    (s.dispatcher.closed = true → s.dispatcher.drainOver = false →
      s.dispatcher.disposed = false) := by
  have hinv : s.Inv := h.invariant inv_step (inv_new cfg)
  constructor
  · intro htransport
    exact (hinv.drained.settled (hinv.transport htransport)).2.symm
  · intro _ hopen
    exact hinv.drained.token hopen

/-- A task runs, `queued` more are enqueued, and two calls of `DisposeAsync` have both found the
client not disposed when the first of them closes the dispatcher. -/
def disposingTwice (queued : List (ClientLabel smallest)) : List (ClientLabel smallest) :=
  [.dispatch (.start onlyWorker), .enqueue 0 true, .submit 0, .dispatch (.read onlyWorker),
    .dispatch (.invoke onlyWorker)] ++ queued ++
    [.dispose 0, .dispose 1, .mark 0, .mark 1, .dispatch (.close 0)]

/-- What the second call does. -/
def overtaking : List (ClientLabel smallest) :=
  [.dispatch (.close 1), .dispatch (.dispose 1), .disposeTransport 1]

/-- The second call comes after the drain. -/
theorem disposal_is_safe_in_turn : ∃ s,
    Run step orderly (new smallest) (disposingTwice [] ++ [.dispatch (.finish onlyWorker false),
      .dispatch (.exit onlyWorker), .dispatch (.drained 0)] ++ overtaking) s ∧
    s.transportDisposed = true ∧ s.dispatcher.finished = [0] ∧
    (s.transportDisposed = true → s.dispatcher.Delivered ∨ s.dispatcher.cancelled = true) ∧
    (s.dispatcher.closed = true → s.dispatcher.drainOver = false →
      s.dispatcher.disposed = false) := by
  have hex : ∃ s, Run step orderly (new smallest) (disposingTwice [] ++
      [.dispatch (.finish onlyWorker false), .dispatch (.exit onlyWorker),
        .dispatch (.drained 0)] ++ overtaking) s ∧
      s.transportDisposed = true ∧ s.dispatcher.finished = [0] :=
    ⟨_, run_of_exec _ rfl, rfl, rfl⟩
  obtain ⟨s, hrun, htransport, hfinished⟩ := hex
  exact ⟨s, hrun, htransport, hfinished, disposal_is_safe hrun⟩

/-- The second call overtakes the drain: the transport is disposed with a task in the channel and
nothing cancelled, and the worker reads the disposed token and loses the task. -/
theorem second_disposer_overtakes_the_drain : ∃ s,
    Run step anyStep (new smallest) (disposingTwice [.enqueue 1 true, .submit 1] ++ overtaking ++
      [.dispatch (.finish onlyWorker false), .dispatch (.read onlyWorker),
        .dispatch (.invoke onlyWorker)]) s ∧
    s.transportDisposed = true ∧ s.dispatcher.cancelled = false ∧
    ¬ s.dispatcher.Delivered ∧ s.dispatcher.closed = true ∧ s.dispatcher.drainOver = false ∧
    s.dispatcher.disposed = true ∧ s.dispatcher.lost = [1] := by
  refine ⟨_, run_of_exec _ rfl, rfl, rfl, ?_, rfl, rfl, rfl, rfl⟩
  intro hdelivered
  rcases hdelivered 1 (.tail _ (.head _)) with hmem | hmem
  · cases hmem
  · cases hmem with
    | tail _ hmem => cases hmem

end IncidentClient

end OppexSdk.DotNet
