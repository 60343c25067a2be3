import OppexSdk.Python.DispatcherClose

/-! # What the Python dispatcher drops, and what its metrics say

A task can be reached by a worker, by a submit that evicts it, by its own submit and by `close`.
One of them claims it. The counters are moved in steps of their own after the claim, and agree with
the claims when nobody is between two of these steps. -/
namespace OppexSdk.Python.Dispatcher
open OppexSdk.Lib.Lifecycle OppexSdk.Lib.Transition

namespace AsyncDispatcher
variable {cfg : Config} {s t : AsyncDispatcher cfg}

/-- No submit is under way, and nobody has taken a task and not yet called or counted it. -/
structure AtRest (s : AsyncDispatcher cfg) : Prop where
  submits : ∀ k, (s.submits k).idle = true
  holding : ∀ h, s.holding h = none

/-- The counted tasks that nobody has claimed. -/
def unclaimed (s : AsyncDispatcher cfg) : List Nat := s.registered.filter fun k => !s.claimed k

/-- Tasks, claims, calls and counters agree. -/
structure DropsAccounted (s : AsyncDispatcher cfg) : Prop where
  claimed_once : (s.runClaims ++ s.dropClaims).Nodup
  done_once : (s.ran ++ s.dropLog).Nodup
  ran_claimed : s.ran ⊆ s.runClaims
  dropped_claimed : s.dropLog ⊆ s.dropClaims
  registered_once : s.registered.Nodup
  released_once : s.released.Nodup
  released_claimed : s.released ⊆ s.runClaims ++ s.dropClaims
  queued : s.queued = s.registered.length - s.released.length
  queued_nonneg : 0 ≤ s.queued
  submitted : s.AtRest → ∀ k, k ∈ s.registered ↔ s.submits k = .returned
  adds_up : s.AtRest →
    s.registered.length = s.ran.length + s.dropLog.length + s.unclaimed.length
  dropped : s.AtRest → s.dropped = s.dropClaims.length

/-! ## Which of the two claims a holder has made -/

/-- The claims that a holder adds to. -/
def claimsOf (s : AsyncDispatcher cfg) : Holder cfg → List Nat
  | .worker _ => s.runClaims
  | .submit _ | .closer => s.dropClaims

structure Sided (s : AsyncDispatcher cfg) : Prop where
  ran : s.ran ⊆ s.runClaims
  dropLog : s.dropLog ⊆ s.dropClaims
  dropped : s.dropped = s.dropLog.length
  held : ∀ h i stage, s.holding h = some (i, stage) → stage ≠ .claim → i ∈ s.claimsOf h

/-- What touches neither the claims nor what was done and is held. -/
theorem Sided.frame (hs : s.Sided) (hran : t.ran = s.ran) (hdropLog : t.dropLog = s.dropLog)
    (hdropped : t.dropped = s.dropped) (hrunClaims : t.runClaims = s.runClaims)
    (hdropClaims : t.dropClaims = s.dropClaims) (hholding : t.holding = s.holding) : t.Sided := by
  refine ⟨?_, ?_, ?_, ?_⟩
  · rw [hran, hrunClaims]
    exact hs.ran
  · rw [hdropLog, hdropClaims]
    exact hs.dropLog
  · rw [hdropped, hdropLog]
    exact hs.dropped
  · intro h i stage hh hne
    have hclaims : t.claimsOf h = s.claimsOf h := by
      cases h with
      | worker w => exact hrunClaims
      | submit k | closer => exact hdropClaims
    rw [hholding] at hh
    rw [hclaims]
    exact hs.held h i stage hh hne

theorem Sided.setSubmit (hs : s.Sided) {k : Nat} (pc : SubmitPc)
    (hheld : ∀ i stage, pc.holding k = some (i, stage) → stage ≠ .claim → i ∈ s.dropClaims) :
    (s.setSubmit k pc).Sided := by
  refine ⟨hs.ran, hs.dropLog, hs.dropped, ?_⟩
  intro h i stage hh hne
  cases h with
  | submit j =>
    by_cases hj : j = k
    · subst hj
      simp only [holding, AsyncDispatcher.setSubmit, Function.update_self] at hh
      exact hheld i stage hh hne
    · simp only [holding, AsyncDispatcher.setSubmit, Function.update_of_ne hj] at hh
      exact hs.held (.submit j) i stage hh hne
  | worker w => exact hs.held (.worker w) i stage hh hne
  | closer => exact hs.held .closer i stage hh hne

theorem Sided.setWorker (hs : s.Sided) {w : Fin cfg.workerCount} (pc : WorkerPc)
    (hheld : ∀ i stage, pc.holding = some (i, stage) → stage ≠ .claim → i ∈ s.runClaims) :
    (s.setWorker w pc).Sided := by
  refine ⟨hs.ran, hs.dropLog, hs.dropped, ?_⟩
  intro h i stage hh hne
  cases h with
  | worker v =>
    by_cases hv : v = w
    · subst hv
      simp only [holding, AsyncDispatcher.setWorker, Function.update_self] at hh
      exact hheld i stage hh hne
    · simp only [holding, AsyncDispatcher.setWorker, Function.update_of_ne hv] at hh
      exact hs.held (.worker v) i stage hh hne
  | submit k => exact hs.held (.submit k) i stage hh hne
  | closer => exact hs.held .closer i stage hh hne

theorem Sided.setClose (hs : s.Sided) (pc : ClosePc)
    (hheld : ∀ i stage, pc.holding = some (i, stage) → stage ≠ .claim → i ∈ s.dropClaims) :
    (s.setClose pc).Sided := by
  refine ⟨hs.ran, hs.dropLog, hs.dropped, ?_⟩
  intro h i stage hh hne
  cases h with
  | closer => exact hheld i stage hh hne
  | worker w => exact hs.held (.worker w) i stage hh hne
  | submit k => exact hs.held (.submit k) i stage hh hne

/-- The claims only grow. -/
theorem Sided.grow (hs : s.Sided) {runClaims dropClaims : List Nat}
    (hrun : s.runClaims ⊆ runClaims) (hdrop : s.dropClaims ⊆ dropClaims) :
    Sided { s with runClaims := runClaims, dropClaims := dropClaims } := by
  refine ⟨fun i hi => hrun (hs.ran hi), fun i hi => hdrop (hs.dropLog hi), hs.dropped,
    ?_⟩
  intro h i stage hh hne
  have hi := hs.held h i stage hh hne
  cases h with
  | worker w => exact hrun hi
  | submit k => exact hdrop hi
  | closer => exact hdrop hi

/-- A step of `drop` by one who is no worker: what it goes on with is a task of its claims. -/
theorem Sided.drop (hs : s.Sided) {h : Holder cfg} (hside : s.claimsOf h = s.dropClaims) {i : Nat}
    (pc : DropPc) (hh : s.holding h = pc.stage.map (i, ·)) :
    (s.drop i pc).1.Sided ∧ ∀ pc', (s.drop i pc).2 = some pc' → i ∈ (s.drop i pc).1.dropClaims := by
  have hmem : ∀ stage, pc.stage = some stage → stage ≠ .claim → i ∈ s.dropClaims := by
    intro stage hstage hne
    rw [hstage] at hh
    exact hside ▸ hs.held h i stage hh hne
  cases pc with
  | claim =>
    simp only [AsyncDispatcher.drop, AsyncDispatcher.claim]
    split
    · exact ⟨hs, by rintro pc' ⟨⟩⟩
    · refine ⟨?_, fun _ _ => List.mem_append_right _ List.mem_cons_self⟩
      have hgrow := hs.grow (List.Subset.refl _) (List.subset_append_left s.dropClaims [i])
      exact hgrow.frame rfl rfl rfl rfl rfl rfl
  | decrement =>
    exact ⟨⟨hs.ran, hs.dropLog, hs.dropped, hs.held⟩, fun _ _ => hmem .decrement rfl (by rintro ⟨⟩)⟩
  | count =>
    have hi : i ∈ s.dropClaims := hmem .act rfl (by rintro ⟨⟩)
    refine ⟨⟨hs.ran, ?_, ?_, hs.held⟩, fun _ _ => hi⟩
    · intro j hj
      rcases List.mem_append.mp hj with hj | hj
      · exact hs.dropLog hj
      · exact List.mem_singleton.mp hj ▸ hi
    · simp only [AsyncDispatcher.drop, hs.dropped, List.length_append, List.length_singleton]
      omega
  | record => exact ⟨⟨hs.ran, hs.dropLog, hs.dropped, hs.held⟩, by rintro pc' ⟨⟩⟩

/-- A program counter that holds nothing, or a task that is not yet claimed. -/
theorem nothing_claimed {x : Option (Nat × Stage)} (hx : x = none ∨ ∃ i, x = some (i, .claim))
    {claims : List Nat} (i : Nat) (stage : Stage) (hh : x = some (i, stage))
    (hne : stage ≠ .claim) : i ∈ claims := by
  rcases hx with rfl | ⟨j, rfl⟩
  · cases hh
  · cases hh
    exact absurd rfl hne

theorem Sided.offerOr (hs : s.Sided) {k : Nat} {pc : SubmitPc}
    (hpc : pc.holding k = none ∨ ∃ i, pc.holding k = some (i, .claim)) :
    (s.offerOr k pc).Sided := by
  unfold AsyncDispatcher.offerOr
  split
  · exact hs.setSubmit _ (nothing_claimed hpc)
  · have hset := hs.setSubmit (k := k) .releasing nofun
    exact hset.frame rfl rfl rfl rfl rfl rfl

theorem submit_sided {l : Label cfg} {k : Nat}
    (hl : (∃ isNone, l = .submit k isNone) ∨ l = .incrementQueued k ∨ l = .acquire k ∨
      l = .offer k ∨ l = .poll k ∨ l = .recheck k ∨ l = .reoffer k ∨ l = .release k)
    (h : step s l = some t) (hs : s.Sided) : t.Sided := by
  rcases hl with ⟨isNone, rfl⟩ | rfl | rfl | rfl | rfl | rfl | rfl | rfl <;>
    simp only [step] at h <;> split at h <;> cases h
  · refine hs.setSubmit _ (nothing_claimed (.inl ?_))
    split <;> rfl
  · have hset := hs.setSubmit (k := k) .acquiring (nothing_claimed (.inl rfl))
    exact hset.frame rfl rfl rfl rfl rfl rfl
  · have hset := hs.setSubmit (k := k) .offering (nothing_claimed (.inl rfl))
    exact hset.frame rfl rfl rfl rfl rfl rfl
  · exact hs.offerOr (.inl rfl)
  · exact hs.setSubmit _ (nothing_claimed (.inl rfl))
  · rename_i oldest rest _ _
    have hset := hs.setSubmit (k := k) (.dropping oldest .claim)
      (nothing_claimed (.inr ⟨oldest, rfl⟩))
    exact hset.frame rfl rfl rfl rfl rfl rfl
  · refine hs.setSubmit _ (nothing_claimed ?_)
    split
    · exact .inr ⟨k, rfl⟩
    · exact .inl rfl
  · exact hs.offerOr (.inr ⟨k, rfl⟩)
  · have hset := hs.setSubmit (k := k) .returned (nothing_claimed (.inl rfl))
    exact hset.frame rfl rfl rfl rfl rfl rfl

/-- What is held after a step of `drop`. -/
theorem held_after_drop {i j : Nat} (stage : Stage) {next : Option DropPc} {claims : List Nat}
    (hnext : ∀ pc, next = some pc → i ∈ claims)
    (hh : (next.bind fun pc => pc.stage.map (i, ·)) = some (j, stage)) : j ∈ claims := by
  cases hpc : next with
  | none =>
    rw [hpc] at hh
    cases hh
  | some pc =>
    have hi := hnext pc hpc
    rw [hpc] at hh
    cases pc <;> cases hh <;> exact hi

theorem submitDrop_sided {k : Nat} (h : step s (.submitDrop k) = some t) (hs : s.Sided) :
    t.Sided := by
  simp only [step] at h
  split at h
  · rename_i oldest pc hpc
    cases h
    obtain ⟨hdrop, hnext⟩ := hs.drop (h := .submit k) (i := oldest) rfl pc
      (by simp [holding, hpc, SubmitPc.holding])
    refine hdrop.setSubmit _ fun i stage hh _ => held_after_drop stage hnext ?_
    rw [← hh]
    cases (s.drop oldest pc).2 <;> rfl
  · rename_i pc hpc
    cases h
    obtain ⟨hdrop, hnext⟩ := hs.drop (h := .submit k) (i := k) rfl pc
      (by simp [holding, hpc, SubmitPc.holding])
    refine hdrop.setSubmit _ fun i stage hh _ => held_after_drop stage hnext ?_
    rw [← hh]
    cases (s.drop k pc).2 <;> rfl
  · cases h

theorem closeDrop_sided (h : step s .closeDrop = some t) (hs : s.Sided) : t.Sided := by
  simp only [step] at h
  split at h
  · rename_i task pc hpc
    cases h
    obtain ⟨hdrop, hnext⟩ := hs.drop (h := .closer) (i := task) rfl pc
      (by simp [holding, hpc, ClosePc.holding])
    refine hdrop.setClose _ fun i stage hh _ => held_after_drop stage hnext ?_
    rw [← hh]
    cases (s.drop task pc).2 <;> rfl
  · cases h

theorem worker_sided {l : Label cfg} {w : Fin cfg.workerCount}
    (hl : l = .get w ∨ l = .timeout w ∨ l = .checkStopping w ∨ l = .claim w ∨ l = .decrement w ∨
      l = .call w ∨ ∃ fatal, l = .finish w fatal)
    (h : step s l = some t) (hs : s.Sided) : t.Sided := by
  have hclaimed : ∀ i stage, (s.workers w).holding = some (i, stage) → stage ≠ .claim →
      i ∈ s.runClaims := hs.held (.worker w)
  rcases hl with rfl | rfl | rfl | rfl | rfl | rfl | ⟨fatal, rfl⟩ <;> simp only [step] at h <;>
    split at h <;> cases h
  · rename_i task rest _ _
    have hset := hs.setWorker (w := w) (.claiming task)
      (nothing_claimed (.inr ⟨task, rfl⟩))
    exact hset.frame rfl rfl rfl rfl rfl rfl
  · exact hs.setWorker _ (nothing_claimed (.inl rfl))
  · refine hs.setWorker _ (nothing_claimed (.inl ?_))
    split <;> rfl
  · rename_i task _
    simp only [runClaim, AsyncDispatcher.claim]
    split
    · exact hs.setWorker _ (nothing_claimed (.inl rfl))
    · have hgrow := hs.grow (List.subset_append_left s.runClaims [task]) (List.Subset.refl _)
      have hset := hgrow.setWorker (w := w) (.decrementing task) fun i stage hh _ => by
        cases hh
        exact List.mem_append_right _ List.mem_cons_self
      exact hset.frame rfl rfl rfl rfl rfl rfl
  · rename_i task hpc
    rw [hpc] at hclaimed
    have hset := hs.setWorker (w := w) (.calling task) fun i stage hh _ => by
      cases hh
      exact hclaimed task .decrement rfl (by rintro ⟨⟩)
    exact hset.frame rfl rfl rfl rfl rfl rfl
  · rename_i task hpc
    rw [hpc] at hclaimed
    have hset := hs.setWorker (w := w) (.running task) (nothing_claimed (.inl rfl))
    refine ⟨?_, hset.dropLog, hset.dropped, hset.held⟩
    intro i hi
    rcases List.mem_append.mp hi with hi | hi
    · exact hs.ran hi
    · exact List.mem_singleton.mp hi ▸ hclaimed task .act rfl (by rintro ⟨⟩)
  · refine hs.setWorker _ (nothing_claimed (.inl ?_))
    split <;> rfl

theorem close_sided {l : Label cfg} (hl : l = .close ∨ l = .setStopping ∨ l = .joined ∨
      (∃ w expired, l = .join w expired ∨ l = .forcedJoin w expired) ∨
      l = .signal ∨ l = .drainPoll ∨ l = .forcedJoined)
    (h : step s l = some t) (hs : s.Sided) : t.Sided := by
  rcases hl with rfl | rfl | rfl | ⟨w, expired, rfl | rfl⟩ | rfl | rfl | rfl <;>
    simp only [step] at h <;> split at h
  all_goals first | (cases h; done) | skip
  · cases h
    have hset := hs.setClose .stopping (nothing_claimed (.inl rfl))
    exact hset.frame rfl rfl rfl rfl rfl rfl
  · cases h
    have hset := hs.setClose (.joining 0) (nothing_claimed (.inl rfl))
    exact hset.frame rfl rfl rfl rfl rfl rfl
  · split at h <;> cases h
    refine hs.setClose _ (nothing_claimed (.inl ?_))
    split <;> rfl
  · rename_i i _
    split at h <;> cases h
    have hset := hs.setClose (.joining (i + 1)) (nothing_claimed (.inl rfl))
    exact hset.frame rfl rfl rfl rfl rfl rfl
  · rename_i i _
    split at h <;> cases h
    have hset := hs.setClose (.forcedJoining (i + 1)) (nothing_claimed (.inl rfl))
    exact hset.frame rfl rfl rfl rfl rfl rfl
  · cases h
    have hset := hs.setClose .draining (nothing_claimed (.inl rfl))
    exact hset.frame rfl rfl rfl rfl rfl rfl
  · cases h
    exact hs.setClose _ (nothing_claimed (.inl rfl))
  · rename_i task rest _ _
    cases h
    have hset := hs.setClose (.dropping task .claim) (nothing_claimed (.inr ⟨task, rfl⟩))
    exact hset.frame rfl rfl rfl rfl rfl rfl
  · split at h <;> cases h
    exact hs.setClose _ (nothing_claimed (.inl rfl))

theorem sided_step {l : Label cfg} (h : step s l = some t) (hs : s.Sided) : t.Sided := by
  cases l with
  | submitDrop k => exact submitDrop_sided h hs
  | closeDrop => exact closeDrop_sided h hs
  | submit k | incrementQueued k | acquire k | offer k | poll k | recheck k | reoffer k
  | release k => exact submit_sided (k := k) (by simp) h hs
  | get w | timeout w | checkStopping w | claim w | decrement w | call w | finish w =>
    exact worker_sided (w := w) (by simp) h hs
  | _ => exact close_sided (by simp) h hs

theorem run_sided {ls : List (Label cfg)} (h : Run step anyStep (new cfg) ls s) : s.Sided := by
  refine h.invariant (fun _ hstep hs => sided_step hstep hs) ?_
  refine ⟨List.Subset.refl _, List.Subset.refl _, rfl, ?_⟩
  intro h i stage hh
  cases h <;> cases hh

/-! ## At rest -/

/-- At rest a task is untouched, in the queue or settled. -/
theorem AtRest.place (hrest : s.AtRest) {i : Nat} {p : Place (Holder cfg)} (hp : s.view.At i p) :
    p = .fresh ∨ p = .queued ∨ p = .settled := by
  cases p with
  | fresh => exact .inl rfl
  | queued => exact .inr (.inl rfl)
  | settled => exact .inr (.inr rfl)
  | held h stage =>
    have hh : s.holding h = some (i, stage) := hp
    rw [hrest.holding h] at hh
    cases hh
  | _ =>
    have hi := hrest.submits i
    simp only [View.At, view] at hp
    cases hpc : s.submits i <;> simp_all [SubmitPc.idle, SubmitPc.status]

theorem AtRest.fresh_iff (hrest : s.AtRest) (i : Nat) :
    s.view.At i .fresh ↔ s.submits i ≠ .returned := by
  have hi := hrest.submits i
  simp only [View.At, view]
  cases hpc : s.submits i <;> simp_all [SubmitPc.idle, SubmitPc.status]

theorem AtRest.submitted (hrest : s.AtRest) {place : Nat → Place (Holder cfg)}
    (hs : s.view.Placed place) (k : Nat) : k ∈ s.registered ↔ s.submits k = .returned := by
  have hmem : k ∈ s.registered ↔ (place k).registered = true := hs.registered.mem_iff
  have hfresh : place k = .fresh ↔ ¬ s.submits k = .returned :=
    (hs.at_iff k .fresh).symm.trans (hrest.fresh_iff k)
  rw [hmem, ← not_iff_not, ← hfresh]
  rcases hrest.place ((hs.at_iff k _).mpr rfl) with hp | hp | hp <;> rw [hp] <;>
    simp [Place.registered]

/-- At rest the claimed tasks are the ones that were called or counted as dropped. -/
theorem AtRest.claimed (hrest : s.AtRest) {place : Nat → Place (Holder cfg)}
    (hs : s.view.Placed place) :
    (s.registered.filter s.claimed).Perm (s.ran ++ s.dropLog) := by
  refine (List.perm_ext_iff_of_nodup (hs.registered.nodup.filter _) hs.done.nodup).mpr ?_
  intro k
  have hclaimed : s.claimed k = (place k).claimed := hs.claimed k
  have hdone : k ∈ s.ran ++ s.dropLog ↔ (place k).isSettled = true := hs.done.mem_iff
  have hreg : k ∈ s.registered ↔ (place k).registered = true := hs.registered.mem_iff
  refine (List.mem_filter.trans (and_congr_left' hreg)).trans (Iff.trans ?_ hdone.symm)
  rw [hclaimed]
  rcases hrest.place ((hs.at_iff k _).mpr rfl) with hp | hp | hp <;> rw [hp] <;>
    simp [Place.registered, Place.claimed, Place.isSettled]

theorem AtRest.adds_up (hrest : s.AtRest) {place : Nat → Place (Holder cfg)}
    (hs : s.view.Placed place) :
    s.registered.length = s.ran.length + s.dropLog.length + s.unclaimed.length := by
  have hsplit := List.length_eq_length_filter_add (l := s.registered) s.claimed
  have hlen := (hrest.claimed hs).length_eq
  rw [List.length_append] at hlen
  rw [hsplit, hlen, unclaimed]

theorem AtRest.dropped (hrest : s.AtRest) {place : Nat → Place (Holder cfg)}
    (hs : s.view.Placed place) (hside : s.Sided) : s.dropped = s.dropClaims.length := by
  have hall : (s.runClaims ++ s.dropClaims).Perm (s.ran ++ s.dropLog) :=
    hs.claims.perm_of_agree hs.done fun k => by
      rcases hrest.place ((hs.at_iff k _).mpr rfl) with hp | hp | hp <;> rw [hp] <;> rfl
  have hnodup : (s.ran ++ s.dropLog).Nodup := hs.done.nodup
  have hran := (List.subperm_of_subset hnodup.of_append_left hside.ran).length_le
  have hdrop := (List.subperm_of_subset hnodup.of_append_right hside.dropLog).length_le
  have hlen := hall.length_eq
  rw [List.length_append, List.length_append] at hlen
  rw [hside.dropped]
  omega

/-- **Claims, calls and counters agree** in every state that a run reaches. -/
theorem drops_accounted {ls : List (Label cfg)} (h : Run step anyStep (new cfg) ls s) :
    s.DropsAccounted := by
  have hside := run_sided h
  have hacc := run_accounted h
  obtain ⟨place, hs⟩ := hacc
  exact {
    claimed_once := hs.claims.nodup
    done_once := hs.done.nodup
    ran_claimed := hside.ran
    dropped_claimed := hside.dropLog
    registered_once := hs.registered.nodup
    released_once := hs.released.nodup
    released_claimed := hs.released.subset hs.claims fun p hp => by
      cases p with
      | held h stage => cases stage <;> first | rfl | cases hp
      | settled => rfl
      | _ => cases hp
    queued := hs.depth
    queued_nonneg := View.Accounted.depth_nonneg ⟨place, hs⟩
    submitted := fun hrest => hrest.submitted hs
    adds_up := fun hrest => hrest.adds_up hs
    dropped := fun hrest => hrest.dropped hs hside }

/-- One task is run, one is evicted by the next, which is still in the queue. -/
theorem drops_accounted_evicted : ∃ ls s, Run step anyStep (new ⟨1, 1⟩) ls s ∧ s.AtRest ∧
    s.DropsAccounted ∧ s.ran = [0] ∧ s.dropLog = [1] ∧ s.unclaimed = [2] ∧ s.queued = 1 := by
  have hex : ∃ ls s, Run step anyStep (new ⟨1, 1⟩) ls s ∧ s.AtRest ∧ s.ran = [0] ∧
      s.dropLog = [1] ∧ s.unclaimed = [2] ∧ s.queued = 1 := by
    refine ⟨_, _, run_of_exec [
      .submit 0 false, .incrementQueued 0, .acquire 0, .offer 0, .release 0,
      .get (0 : Fin 1), .claim (0 : Fin 1), .decrement (0 : Fin 1), .call (0 : Fin 1),
      .submit 1 false, .incrementQueued 1, .acquire 1, .offer 1, .release 1,
      .submit 2 false, .incrementQueued 2, .acquire 2, .offer 2, .poll 2, .submitDrop 2,
      .submitDrop 2, .submitDrop 2, .submitDrop 2, .recheck 2, .reoffer 2, .release 2] rfl,
      ⟨?_, ?_⟩, rfl, rfl, rfl, rfl⟩
    · intro k
      rcases k with _ | _ | _ | k <;> rfl
    · intro h
      cases h with
      | worker w =>
        revert w
        decide
      | submit k => obtain _ | _ | _ | k := k <;> rfl
      | closer => rfl
  obtain ⟨ls, s, hrun, hrest, hfacts⟩ := hex
  exact ⟨ls, s, hrun, hrest, drops_accounted hrun, hfacts⟩

end AsyncDispatcher

end OppexSdk.Python.Dispatcher
