import OppexSdk.Go.Client
import OppexSdk.Go.DispatcherSubmission

/-! # When an asynchronous post of the Go client waits

`PostAsync` looks at the closed flag under the read lock. A `Close` that waits for the lock, behind
a synchronous post that is delivering, or has it, for as long as the drain takes, keeps it out;
nothing else does. -/
namespace OppexSdk.Go
open OppexSdk.Lib OppexSdk.Lib.Transition

namespace Client
variable {cfg : Config} {s t : Client cfg} {l : ClientLabel cfg}

/-- The lock says of the closes what their program counters say. -/
structure Locks (s : Client cfg) : Prop where
  writer : ∀ c, s.lifecycle.writer = some c ↔ (s.closes c).holds = true
  waiting : ∀ c, c ∈ s.lifecycle.waiting ↔ s.closes c = .waiting

/-- A step of a call, or of the dispatcher. -/
theorem Locks.frame (h : s.Locks) (hcloses : t.closes = s.closes)
    (hwriter : t.lifecycle.writer = s.lifecycle.writer)
    (hwaiting : t.lifecycle.waiting = s.lifecycle.waiting) : t.Locks := by
  refine ⟨?_, ?_⟩
  · intro c
    rw [hwriter, hcloses]
    exact h.writer c
  · intro c
    rw [hwaiting, hcloses]
    exact h.waiting c

/-- A close moves on: to what the lock says of it, and leaving the others. -/
theorem Locks.closeMoves (h : s.Locks) {c : Nat} {pc : CloserPc}
    (hcloses : t.closes = Function.update s.closes c pc)
    (hwriter : t.lifecycle.writer = some c ↔ pc.holds = true)
    (hwaiting : c ∈ t.lifecycle.waiting ↔ pc = .waiting)
    (hothers : ∀ c', c' ≠ c → (t.lifecycle.writer = some c' ↔ s.lifecycle.writer = some c') ∧
      (c' ∈ t.lifecycle.waiting ↔ c' ∈ s.lifecycle.waiting)) : t.Locks := by
  refine ⟨fun c' => ?_, fun c' => ?_⟩ <;> rw [hcloses] <;> by_cases hc : c' = c
  · subst hc
    rw [Function.update_self]
    exact hwriter
  · rw [Function.update_of_ne hc]
    exact (hothers c' hc).1.trans (h.writer c')
  · subst hc
    rw [Function.update_self]
    exact hwaiting
  · rw [Function.update_of_ne hc]
    exact (hothers c' hc).2.trans (h.waiting c')

/-- A close that holds the lock goes on with it. -/
theorem Locks.closeStays (h : s.Locks) {c : Nat} (pc : CloserPc)
    (hold : (s.closes c).holds = true) (hpc : pc.holds = true)
    (hcloses : t.closes = Function.update s.closes c pc)
    (hlifecycle : t.lifecycle = s.lifecycle) : t.Locks := by
  have hnot : c ∉ s.lifecycle.waiting := by
    intro hmem
    rw [(h.waiting c).mp hmem] at hold
    cases hold
  refine h.closeMoves hcloses ?_ ?_ fun c' _ => by rw [hlifecycle]; exact ⟨Iff.rfl, Iff.rfl⟩
  · rw [hlifecycle]
    exact iff_of_true ((h.writer c).mpr hold) hpc
  · rw [hlifecycle]
    refine iff_of_false hnot ?_
    intro hw
    rw [hw] at hpc
    cases hpc

theorem close_locks {c : Nat} (hstep : step s (.close c) = some t) (h : s.Locks) : t.Locks := by
  simp only [step] at hstep
  split at hstep <;> cases hstep
  rename_i hc
  refine h.closeMoves rfl ?_ ?_ fun c' hne => ⟨Iff.rfl, ?_⟩
  · refine iff_of_false ?_ nofun
    intro hw
    have hheld := (h.writer c).mp hw
    rw [hc] at hheld
    cases hheld
  · exact iff_of_true (List.mem_append_right _ List.mem_cons_self) rfl
  · simp [RWMutex.request, hne]

theorem lock_locks {c : Nat} (hstep : step s (.lock c) = some t) (h : s.Locks) : t.Locks := by
  simp only [step] at hstep
  split at hstep
  · obtain ⟨lifecycle, hlock, rfl⟩ := Option.map_eq_some_iff.mp hstep
    obtain ⟨hfree, -, -, rfl⟩ := RWMutex.lock_eq_some hlock
    refine h.closeMoves rfl (iff_of_true rfl rfl) ?_ fun c' hne => ⟨?_, ?_⟩
    · exact iff_of_false (by simp) nofun
    · rw [hfree]
      exact iff_of_false (fun hw => hne (Option.some.inj hw).symm) nofun
    · simp [hne]
  · cases hstep

theorem unlock_locks {c : Nat} (hstep : step s (.unlock c) = some t) (h : s.Locks) : t.Locks := by
  simp only [step] at hstep
  split at hstep <;> cases hstep
  rename_i hc
  have hheld : s.lifecycle.writer = some c := (h.writer c).mpr (by rw [hc]; rfl)
  refine h.closeMoves rfl (iff_of_false nofun nofun) ?_ fun c' hne => ⟨?_, Iff.rfl⟩
  · refine iff_of_false ?_ nofun
    intro hmem
    have hw := (h.waiting c).mp hmem
    rw [hc] at hw
    cases hw
  · rw [hheld]
    exact iff_of_false nofun fun hw => hne (Option.some.inj hw).symm

theorem locks_step (hstep : step s l = some t) (h : s.Locks) : t.Locks := by
  cases l with
  | close c => exact close_locks hstep h
  | lock c => exact lock_locks hstep h
  | unlock c => exact unlock_locks hstep h
  | rlock k =>
    simp only [step] at hstep
    split at hstep
    · obtain ⟨lifecycle, hlock, rfl⟩ := Option.map_eq_some_iff.mp hstep
      exact h.frame rfl (RWMutex.rlock_writers hlock).1 (RWMutex.rlock_writers hlock).2
    · obtain ⟨lifecycle, hlock, rfl⟩ := Option.map_eq_some_iff.mp hstep
      exact h.frame rfl (RWMutex.rlock_writers hlock).1 (RWMutex.rlock_writers hlock).2
    · cases hstep
  | checkClose c =>
    simp only [step] at hstep
    split at hstep <;> cases hstep
    rename_i hc
    have hold : (s.closes c).holds = true := by rw [hc]; rfl
    split
    · exact h.closeStays .unlocking hold rfl rfl rfl
    · exact h.closeStays .draining hold rfl rfl rfl
  | drained c =>
    simp only [step] at hstep
    split at hstep <;> cases hstep
    rename_i hc _
    exact h.closeStays .releasing (by rw [hc]; rfl) rfl rfl rfl
  | closeTransport c =>
    simp only [step] at hstep
    split at hstep <;> cases hstep
    rename_i hc
    exact h.closeStays .unlocking (by rw [hc]; rfl) rfl rfl rfl
  | dispatch l =>
    simp only [step] at hstep
    split at hstep
    · obtain ⟨d, -, rfl⟩ := Option.map_eq_some_iff.mp hstep
      exact h.frame rfl rfl rfl
    · cases hstep
  | call k | isClosed k | validate k | checkClosed k | delivered k | runlock k | submitted k =>
    simp only [step] at hstep
    split at hstep <;> cases hstep
    exact h.frame rfl rfl rfl

theorem locks_new (cfg : Config) : (new cfg).Locks :=
  ⟨fun _ => iff_of_false nofun nofun, fun _ => iff_of_false nofun nofun⟩

theorem run_locks {ls : List (ClientLabel cfg)} (h : Run step anyStep (new cfg) ls s) : s.Locks :=
  h.invariant (fun _ hstep hs => locks_step hstep hs) (locks_new cfg)

/-- The lock is open to readers when no close wants it. -/
theorem Locks.open_iff (h : s.Locks) :
    s.lifecycle.Open ↔ ∀ c, (s.closes c).wants = false := by
  constructor
  · rintro ⟨hwriter, hwaiting⟩ c
    have hnot : s.closes c ≠ .waiting := by
      intro hc
      have hmem := (h.waiting c).mpr hc
      rw [hwaiting] at hmem
      cases hmem
    have hfree : (s.closes c).holds = false := by
      cases hholds : (s.closes c).holds with
      | false => rfl
      | true =>
        have hw := (h.writer c).mpr hholds
        rw [hwriter] at hw
        cases hw
    simp [CloserPc.wants, hnot, hfree]
  · intro hnone
    refine ⟨Option.eq_none_iff_forall_ne_some.mpr ?_, ?_⟩
    · intro c hw
      have hwants := hnone c
      simp [CloserPc.wants, (h.writer c).mp hw] at hwants
    · refine List.eq_nil_iff_forall_not_mem.mpr ?_
      intro c hmem
      have hwants := hnone c
      simp [CloserPc.wants, (h.waiting c).mp hmem] at hwants

/-- **When an asynchronous post can go on.** In every reachable state, with any posts, deliveries
and closes in progress, a call at the lifecycle check of a post method, of `PostAsync` and
`PostAsyncWithServiceRouting` as of the others, can take that step exactly when no `Close` waits
for the lifecycle lock or has it. -/
theorem lifecycle_check_enabled_iff {ls : List (ClientLabel cfg)}
    (h : Run step anyStep (new cfg) ls s) {k : Nat} {m : Method} (hk : s.calls k = .entering m) :
    (step s (.rlock k)).isSome = true ↔ ∀ c, (s.closes c).wants = false := by
  have hstep : (step s (.rlock k)).isSome = (s.lifecycle.rlock k).isSome := by
    simp only [step, hk, Option.isSome_map]
  rw [hstep, RWMutex.rlock_isSome_iff]
  exact (run_locks h).open_iff

/-- A synchronous post is delivering when an asynchronous one comes to its check. -/
def postingBoth : List (ClientLabel smallest) :=
  [.call 0 .post, .rlock 0, .isClosed 0, .validate 0 true, .rlock 0, .checkClosed 0,
    .call 1 .postAsync]

/-- The delivery alone does not keep the asynchronous post out. -/
theorem lifecycle_check_enabled_iff_delivering : ∃ s : Client smallest,
    Run step anyStep (new smallest) postingBoth s ∧ s.calls 0 = .delivering .post ∧
    s.calls 1 = .entering .postAsync ∧ (∀ c, (s.closes c).wants = false) ∧
    ((step s (.rlock 1)).isSome = true ↔ ∀ c, (s.closes c).wants = false) := by
  have hex : ∃ s : Client smallest, Run step anyStep (new smallest) postingBoth s ∧
      s.calls 0 = .delivering .post ∧ s.calls 1 = .entering .postAsync ∧
      ∀ c, (s.closes c).wants = false :=
    ⟨_, run_of_exec _ rfl, rfl, rfl, fun _ => rfl⟩
  obtain ⟨s, hrun, hpost, hasync, hnone⟩ := hex
  exact ⟨s, hrun, hpost, hasync, hnone, lifecycle_check_enabled_iff hrun hasync⟩

/-- With a `Close` waiting for that delivery, the asynchronous post waits for it too. -/
theorem postAsync_waits_for_delivery : ∃ s : Client smallest,
    Run step anyStep (new smallest) (postingBoth ++ [.close 0]) s ∧
    s.calls 0 = .delivering .post ∧ s.closes 0 = .waiting ∧ s.calls 1 = .entering .postAsync ∧
    step s (.rlock 1) = none :=
  ⟨_, run_of_exec _ rfl, rfl, rfl, rfl, rfl⟩

end Client

end OppexSdk.Go
