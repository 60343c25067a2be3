import Mathlib.Data.Fintype.Basic
import Mathlib.Data.List.FinRange

/-! # Thread pools of fixed size

A Java `ThreadPoolExecutor` whose core and maximum sizes are one number, as far as it is specified:
threads are started one by one until the pool has its size, then tasks go into a bounded queue,
and a full queue or a pool that was shut down rejects them. A pool that was shut down goes on until
its queue is empty; one that was stopped takes no more. The queue is open to others through
`getQueue`, and nothing keeps them from putting a task into it after the last worker has gone. -/
namespace OppexSdk.Lib

namespace ThreadPool

inductive State
  | running | shutdown | stop
  deriving DecidableEq

/-- A worker; `ε` says how far it is with its task. -/
inductive Worker (ε : Type)
  | unstarted
  | idle
  | executing (e : ε)
  | exited
  deriving DecidableEq

def Worker.live {ε : Type} : Worker ε → Bool
  | idle | executing _ => true
  | unstarted | exited => false

end ThreadPool

open ThreadPool

structure ThreadPool (n : Nat) (τ ε : Type) where
  capacity : Nat
  state : State
  queue : List τ
  workers : Fin n → Worker ε

namespace ThreadPool
variable {n : Nat} {τ ε : Type} {p p' : ThreadPool n τ ε} {task : τ} {e : ε} {w : Fin n}

def new (n capacity : Nat) : ThreadPool n τ ε := ⟨capacity, .running, [], fun _ => .unstarted⟩

def full (p : ThreadPool n τ ε) : Bool := decide (p.capacity ≤ p.queue.length)

def isShutdown (p : ThreadPool n τ ε) : Bool := p.state != .running

/-- The pool was shut down and its last worker has gone. -/
def isTerminated (p : ThreadPool n τ ε) : Bool :=
  p.isShutdown && decide (∀ w, (p.workers w).live = false)

/-- Workers still come to the queue. -/
def serving (p : ThreadPool n τ ε) : Bool := p.state != .stop && !p.isTerminated

def setWorker (p : ThreadPool n τ ε) (w : Fin n) (pc : Worker ε) : ThreadPool n τ ε :=
  { p with workers := Function.update p.workers w pc }

/-- A worker that has not been started. -/
def spare (p : ThreadPool n τ ε) : Option (Fin n) :=
  (List.finRange n).find? fun w => match p.workers w with
    | .unstarted => true
    | _ => false

/-- `execute`; `none` when the task is rejected. A new worker begins with the task, at `e`. -/
def execute (p : ThreadPool n τ ε) (task : τ) (e : ε) : Option (ThreadPool n τ ε) :=
  if p.isShutdown then none
  else match p.spare with
    | some w => some (p.setWorker w (.executing e))
    | none => if p.full then none else some { p with queue := p.queue ++ [task] }

/-- `getQueue().offer`; `none` when the queue is full. -/
def offer (p : ThreadPool n τ ε) (task : τ) : Option (ThreadPool n τ ε) :=
  if p.full then none else some { p with queue := p.queue ++ [task] }

/-- An idle worker takes the next task, unless the pool was stopped. -/
def take (p : ThreadPool n τ ε) (w : Fin n) (begin : τ → ε) : Option (ThreadPool n τ ε) :=
  match p.workers w, p.state, p.queue with
  | .idle, .running, task :: rest | .idle, .shutdown, task :: rest =>
    some { p.setWorker w (.executing (begin task)) with queue := rest }
  | _, _, _ => none

/-- Nothing is left to a worker: the pool was stopped, or shut down and the queue is empty. -/
def finished (p : ThreadPool n τ ε) : Bool :=
  match p.state with
  | .running => false
  | .shutdown => p.queue.isEmpty
  | .stop => true

def exit (p : ThreadPool n τ ε) (w : Fin n) : Option (ThreadPool n τ ε) :=
  match p.workers w with
  | .idle => if p.finished then some (p.setWorker w .exited) else none
  | _ => none

/-- The worker is done with its task. A task that threw ends the thread, and another takes its
place while something is left to do. -/
def finish (p : ThreadPool n τ ε) (w : Fin n) (threw : Bool) : ThreadPool n τ ε :=
  p.setWorker w (if threw && p.finished then .exited else .idle)

def shutdown (p : ThreadPool n τ ε) : ThreadPool n τ ε :=
  match p.state with
  | .running => { p with state := .shutdown }
  | _ => p

/-- `shutdownNow`, without the list of tasks that it returns: the queue as it was. -/
def shutdownNow (p : ThreadPool n τ ε) : ThreadPool n τ ε := { p with state := .stop, queue := [] }

/-! ## Workers come to the queue for as long as it has tasks -/

/-- No worker of a running pool has gone, the queue is used once all are started, and it is empty
when nobody comes to it. -/
structure Served (p : ThreadPool n τ ε) : Prop where
  stays : p.state = .running → ∀ w, p.workers w ≠ .exited
  started : p.queue ≠ [] → ∀ w, p.workers w ≠ .unstarted
  served : p.serving = false → p.queue = []

theorem served_new (n capacity : Nat) : (new n capacity : ThreadPool n τ ε).Served :=
  ⟨fun _ _ => nofun, fun h => absurd rfl h, fun _ => rfl⟩

theorem serving_eq_false_iff : p.serving = false ↔ p.state = .stop ∨ p.isTerminated = true := by
  cases hterm : p.isTerminated <;> simp [serving, hterm]

theorem serving_of_live (hstop : p.state ≠ .stop) (hlive : (p.workers w).live = true) :
    p.serving = true := by
  rw [← Bool.not_eq_false, serving_eq_false_iff, not_or]
  refine ⟨hstop, ?_⟩
  intro hterm
  simp only [isTerminated, Bool.and_eq_true, decide_eq_true_eq] at hterm
  rw [hterm.2 w] at hlive
  cases hlive

theorem serving_of_running (h : p.state = .running) : p.serving = true := by
  simp [serving, isTerminated, isShutdown, h]

theorem spare_eq_none (h : p.spare = none) (w : Fin n) : p.workers w ≠ .unstarted := by
  intro hw
  have hnone := List.find?_eq_none.mp h w (List.mem_finRange w)
  rw [hw] at hnone
  exact hnone rfl

theorem spare_eq_some (h : p.spare = some w) : p.workers w = .unstarted := by
  have hsome := List.find?_some h
  split at hsome
  · assumption
  · cases hsome

/-- What a rejection by a running pool says. -/
theorem execute_eq_none (h : p.execute task e = none) (hrun : p.state = .running) (w : Fin n) :
    p.workers w ≠ .unstarted := by
  unfold execute at h
  simp only [isShutdown, hrun, bne_self_eq_false, Bool.false_eq_true, if_false] at h
  split at h
  · cases h
  · rename_i hspare
    exact spare_eq_none hspare w

/-- What an accepted task does to the pool. -/
theorem execute_eq_some (h : p.execute task e = some p') : p.state = .running ∧
    ((∃ w, p.workers w = .unstarted ∧ p' = p.setWorker w (.executing e)) ∨
      ((∀ w, p.workers w ≠ .unstarted) ∧ p' = { p with queue := p.queue ++ [task] })) := by
  unfold execute at h
  split at h
  · cases h
  · rename_i hrun
    refine ⟨by simpa [isShutdown] using hrun, ?_⟩
    split at h
    · rename_i w hspare
      exact .inl ⟨w, spare_eq_some hspare, (Option.some.inj h).symm⟩
    · rename_i hspare
      split at h
      · cases h
      · exact .inr ⟨spare_eq_none hspare, (Option.some.inj h).symm⟩

theorem take_eq_some {begin : τ → ε} (h : p.take w begin = some p') :
    p.workers w = .idle ∧ p.state ≠ .stop ∧ ∃ task rest, p.queue = task :: rest ∧
      p' = { p.setWorker w (.executing (begin task)) with queue := rest } := by
  unfold take at h
  split at h
  · rename_i task rest hw hstate hq
    refine ⟨hw, ?_, task, rest, hq, (Option.some.inj h).symm⟩
    rw [hstate]
    nofun
  · rename_i task rest hw hstate hq
    refine ⟨hw, ?_, task, rest, hq, (Option.some.inj h).symm⟩
    rw [hstate]
    nofun
  · cases h

theorem exit_eq_some (h : p.exit w = some p') :
    p.workers w = .idle ∧ p.finished = true ∧ p' = p.setWorker w .exited := by
  unfold exit at h
  split at h
  · rename_i hw
    split at h
    · rename_i hfin
      exact ⟨hw, hfin, (Option.some.inj h).symm⟩
    · cases h
  · cases h

/-- A change of one worker to another that comes to the queue as it did. -/
theorem Served.setWorker (h : p.Served) {pc : Worker ε} (hlive : pc.live = true)
    {q : List τ} (hold : p.workers w = .unstarted → q = []) (hqueue : p.queue = [] → q = []) :
    Served { p.setWorker w pc with queue := q } := by
  have hother : ∀ {v}, v ≠ w → (Function.update p.workers w pc) v = p.workers v := fun hv =>
    Function.update_of_ne hv _ _
  refine ⟨?_, ?_, ?_⟩
  · intro hrun v
    by_cases hv : v = w
    · subst hv
      simp only [ThreadPool.setWorker, Function.update_self]
      rintro rfl
      cases hlive
    · exact fun hex => h.stays hrun v ((hother hv).symm.trans hex)
  · intro hne v
    by_cases hv : v = w
    · subst hv
      simp only [ThreadPool.setWorker, Function.update_self]
      rintro rfl
      cases hlive
    · exact fun hun => h.started (fun hq => hne (hqueue hq)) v ((hother hv).symm.trans hun)
  · intro hno
    rcases serving_eq_false_iff.mp hno with hstop | hterm
    · exact hqueue (h.served (serving_eq_false_iff.mpr (.inl hstop)))
    · simp only [isTerminated, Bool.and_eq_true, decide_eq_true_eq] at hterm
      have hw := hterm.2 w
      simp only [ThreadPool.setWorker, Function.update_self] at hw
      rw [hlive] at hw
      cases hw

/-- A worker goes when nothing is left to it. -/
theorem Served.gone (h : p.Served) (hfin : p.finished = true) : (p.setWorker w .exited).Served := by
  have hqueue : p.queue ≠ [] → p.state = .stop := by
    intro hne
    unfold finished at hfin
    split at hfin
    · cases hfin
    · exact absurd (List.isEmpty_iff.mp hfin) hne
    · assumption
  refine ⟨?_, ?_, ?_⟩
  · intro hrun
    rw [finished, show p.state = .running from hrun] at hfin
    cases hfin
  · intro hne v
    exact absurd (h.served (serving_eq_false_iff.mpr (.inl (hqueue hne)))) hne
  · intro _
    by_contra hne
    exact hne (h.served (serving_eq_false_iff.mpr (.inl (hqueue hne))))

theorem Served.execute (h : p.Served) (hex : p.execute task e = some p') : p'.Served := by
  obtain ⟨hrun, ⟨w, hw, rfl⟩ | ⟨hall, rfl⟩⟩ := execute_eq_some hex
  · have hempty : p.queue = [] := by
      by_contra hne
      exact h.started hne w hw
    exact h.setWorker (q := p.queue) rfl (fun _ => hempty) id
  · refine ⟨h.stays, fun _ => hall, ?_⟩
    intro hno
    rw [serving_of_running (p := { p with queue := p.queue ++ [task] }) hrun] at hno
    cases hno

/-- A task that is put into the queue is served when workers still come to it. -/
theorem Served.offer (h : p.Served) (hall : ∀ w, p.workers w ≠ .unstarted)
    (hserving : p.serving = true) (hoffer : p.offer task = some p') : p'.Served := by
  unfold ThreadPool.offer at hoffer
  split at hoffer <;> cases hoffer
  refine ⟨h.stays, fun _ => hall, ?_⟩
  intro hno
  exact absurd (hserving.symm.trans hno) nofun

/-- A task that is taken out of the queue. -/
theorem Served.poll (h : p.Served) {rest : List τ} (hq : p.queue = task :: rest) :
    Served { p with queue := rest } := by
  have hne : p.queue ≠ [] := by
    rw [hq]
    nofun
  exact ⟨h.stays, fun _ => h.started hne, fun hno => absurd (h.served hno) hne⟩

theorem Served.take (h : p.Served) {begin : τ → ε} (ht : p.take w begin = some p') :
    p'.Served := by
  obtain ⟨hw, -, task, rest, hq, rfl⟩ := take_eq_some ht
  refine h.setWorker rfl ?_ ?_
  · intro hun
    rw [hw] at hun
    cases hun
  · intro hnil
    rw [hq] at hnil
    cases hnil

theorem Served.exit (h : p.Served) (he : p.exit w = some p') : p'.Served := by
  obtain ⟨-, hfin, rfl⟩ := exit_eq_some he
  exact h.gone hfin

/-- A worker that goes on with its task. -/
theorem Served.executing (h : p.Served) (hw : p.workers w ≠ .unstarted) (e : ε) :
    (p.setWorker w (.executing e)).Served :=
  h.setWorker (q := p.queue) rfl (fun hun => absurd hun hw) id

theorem Served.finish (h : p.Served) (hw : p.workers w ≠ .unstarted) (threw : Bool) :
    (p.finish w threw).Served := by
  unfold ThreadPool.finish
  split
  · rename_i hthrew
    exact h.gone (Bool.and_eq_true_iff.mp hthrew).2
  · exact h.setWorker (q := p.queue) rfl (fun hun => absurd hun hw) id

theorem Served.shutdown (h : p.Served) (w : Fin n) : p.shutdown.Served := by
  unfold ThreadPool.shutdown
  split
  · rename_i hrun
    refine ⟨nofun, h.started, ?_⟩
    intro hno
    by_contra hne
    have hlive : (p.workers w).live = true := by
      have hstarted := h.started hne w
      have hstays := h.stays hrun w
      cases hw : p.workers w with
      | unstarted => exact absurd hw hstarted
      | exited => exact absurd hw hstays
      | _ => rfl
    rw [serving_of_live (p := { p with state := .shutdown }) nofun hlive] at hno
    cases hno
  · exact h

theorem served_shutdownNow (p : ThreadPool n τ ε) : p.shutdownNow.Served :=
  ⟨nofun, fun hne => absurd rfl hne, fun _ => rfl⟩

/-! ## What does not come back -/

/-- A worker that was started stays started, a pool does not run again, and nobody comes back to a
queue that is not served. -/
structure Advances (p p' : ThreadPool n τ ε) : Prop where
  started : ∀ w, p.workers w ≠ .unstarted → p'.workers w ≠ .unstarted
  running : p'.state = .running → p.state = .running
  unserved : p.serving = false → p'.serving = false

/-- Only the queue changes. -/
theorem advances_queue (p : ThreadPool n τ ε) (queue : List τ) :
    p.Advances { p with queue := queue } :=
  ⟨fun _ h => h, id, id⟩

/-- One worker moves that is there, or nobody else needs to be. -/
theorem advances_setWorker {pc : Worker ε} (hpc : pc ≠ .unstarted)
    (hlive : (p.workers w).live = true ∨ p.state = .running) : p.Advances (p.setWorker w pc) := by
  refine ⟨?_, id, ?_⟩
  · intro v hv
    by_cases hw : v = w
    · subst hw
      simpa only [setWorker, Function.update_self] using hpc
    · simpa only [setWorker, Function.update_of_ne hw] using hv
  · intro hno
    by_cases hstop : p.state = .stop
    · exact serving_eq_false_iff.mpr (.inl hstop)
    · rcases hlive with hlive | hrun
      · rw [serving_of_live hstop hlive] at hno
        cases hno
      · rw [serving_of_running hrun] at hno
        cases hno

theorem Advances.trans {p'' : ThreadPool n τ ε} (h : p.Advances p') (h' : p'.Advances p'') :
    p.Advances p'' :=
  ⟨fun w hw => h'.started w (h.started w hw), fun hrun => h.running (h'.running hrun),
    fun hno => h'.unserved (h.unserved hno)⟩

theorem advances_execute (h : p.execute task e = some p') : p.Advances p' := by
  obtain ⟨hrun, ⟨w, -, rfl⟩ | ⟨-, rfl⟩⟩ := execute_eq_some h
  · exact advances_setWorker nofun (.inr hrun)
  · exact advances_queue p _

theorem advances_take {begin : τ → ε} (h : p.take w begin = some p') : p.Advances p' := by
  obtain ⟨hw, -, task, rest, -, rfl⟩ := take_eq_some h
  have hlive : (p.workers w).live = true := by rw [hw]; rfl
  have hmoved : p.Advances (p.setWorker w (.executing (begin task))) :=
    advances_setWorker nofun (.inl hlive)
  exact hmoved.trans (advances_queue _ rest)

theorem advances_exit (h : p.exit w = some p') : p.Advances p' := by
  obtain ⟨hw, -, rfl⟩ := exit_eq_some h
  exact advances_setWorker nofun (.inl (by rw [hw]; rfl))

theorem advances_executing (hw : p.workers w = .executing e) {pc : Worker ε}
    (hpc : pc ≠ .unstarted) : p.Advances (p.setWorker w pc) :=
  advances_setWorker hpc (.inl (by rw [hw]; rfl))

theorem advances_finish (hw : p.workers w = .executing e) (threw : Bool) :
    p.Advances (p.finish w threw) := by
  refine advances_executing hw ?_
  split <;> nofun

theorem advances_shutdown (p : ThreadPool n τ ε) : p.Advances p.shutdown := by
  unfold shutdown
  split
  · rename_i hrun
    refine ⟨fun _ h => h, nofun, ?_⟩
    intro hno
    rw [serving_of_running hrun] at hno
    cases hno
  · exact ⟨fun _ h => h, id, id⟩

theorem advances_shutdownNow (p : ThreadPool n τ ε) : p.Advances p.shutdownNow := by
  refine ⟨fun _ h => h, ?_, fun _ => rfl⟩
  intro hrun
  cases show State.stop = .running from hrun

end ThreadPool

end OppexSdk.Lib
