import OppexSdk.Python.DispatcherClose

/-! # Whom the Python dispatcher has waited for

`close` joins every worker twice, each time for a bounded period. When it returns, a worker has
exited or both waits for it ran out of time. -/
namespace OppexSdk.Python.Dispatcher
open OppexSdk.Lib.Transition

/-- How many workers the graceful joins are over for, of `n`. -/
def ClosePc.graceful (n : Nat) : ClosePc → Nat
  | outside | stopping => 0
  | joining i => i
  | signalling | draining | dropping .. | forcedJoining _ | returned => n

/-- How many workers the forced joins are over for. -/
def ClosePc.forced (n : Nat) : ClosePc → Nat
  | forcedJoining i => i
  | returned => n
  | _ => 0

namespace AsyncDispatcher
variable {cfg : Config} {s t : AsyncDispatcher cfg} {l : Label cfg}

/-- What is over for a worker is over because it has exited, or the time was up. -/
structure Joined (s : AsyncDispatcher cfg) : Prop where
  closed : s.closed = true ↔ s.close ≠ .outside
  graceful : ∀ w : Fin cfg.workerCount, w < s.close.graceful cfg.workerCount →
    s.workers w = .exited ∨ s.joinExpired w = true
  forced : ∀ w : Fin cfg.workerCount, w < s.close.forced cfg.workerCount →
    s.workers w = .exited ∨ s.forcedExpired w = true

/-- The worker has exited, or the bounded waits for it have expired. -/
def WaitedFor (s : AsyncDispatcher cfg) (w : Fin cfg.workerCount) : Prop :=
  s.workers w = .exited ∨ s.joinExpired w = true ∧ s.forcedExpired w = true

theorem Joined.waitedFor (hs : s.Joined) (hret : s.close = .returned) (w : Fin cfg.workerCount) :
    s.WaitedFor w := by
  have hgraceful := hs.graceful w
  have hforced := hs.forced w
  rw [hret] at hgraceful hforced
  rcases hgraceful w.isLt with hex | hgraceful
  · exact .inl hex
  · rcases hforced w.isLt with hex | hforced
    · exact .inl hex
    · exact .inr ⟨hgraceful, hforced⟩

/-- What a step of one who is not closing leaves alone. -/
structure SameClose (s t : AsyncDispatcher cfg) : Prop where
  close : t.close = s.close
  closed : t.closed = s.closed
  joinExpired : t.joinExpired = s.joinExpired
  forcedExpired : t.forcedExpired = s.forcedExpired

theorem drop_sameClose (s : AsyncDispatcher cfg) (i : Nat) (pc : DropPc) :
    SameClose s (s.drop i pc).1 ∧ (s.drop i pc).1.workers = s.workers := by
  cases pc with
  | claim =>
    simp only [drop, AsyncDispatcher.claim]
    split <;> split <;> exact ⟨⟨rfl, rfl, rfl, rfl⟩, rfl⟩
  | _ => exact ⟨⟨rfl, rfl, rfl, rfl⟩, rfl⟩

theorem runClaim_sameClose (s : AsyncDispatcher cfg) (i : Nat) :
    SameClose s (s.runClaim i).1 ∧ (s.runClaim i).1.workers = s.workers := by
  simp only [runClaim, AsyncDispatcher.claim]
  split <;> split <;> exact ⟨⟨rfl, rfl, rfl, rfl⟩, rfl⟩

/-- The steps of `close`. -/
def ofClose : Label cfg → Bool
  | .close | .setStopping | .join .. | .joined | .signal | .drainPoll | .closeDrop
  | .forcedJoin .. | .forcedJoined => true
  | _ => false

theorem sameClose_step (h : step s l = some t) (hl : ofClose l = false) : SameClose s t := by
  cases l with
  | offer k | reoffer k =>
    simp only [step] at h
    split at h <;> cases h
    unfold offerOr
    split <;> exact ⟨rfl, rfl, rfl, rfl⟩
  | submitDrop k =>
    simp only [step] at h
    split at h <;> cases h
    · obtain ⟨hsame, -⟩ := drop_sameClose s _ _
      exact ⟨hsame.close, hsame.closed, hsame.joinExpired, hsame.forcedExpired⟩
    · obtain ⟨hsame, -⟩ := drop_sameClose s _ _
      exact ⟨hsame.close, hsame.closed, hsame.joinExpired, hsame.forcedExpired⟩
  | claim w =>
    simp only [step] at h
    split at h <;> cases h
    obtain ⟨hsame, -⟩ := runClaim_sameClose s _
    exact ⟨hsame.close, hsame.closed, hsame.joinExpired, hsame.forcedExpired⟩
  | submit k | incrementQueued k | acquire k | poll k | recheck k | release k | get w | timeout w
  | checkStopping w | decrement w | call w | finish w =>
    simp only [step] at h
    split at h <;> cases h <;> exact ⟨rfl, rfl, rfl, rfl⟩
  | _ => cases hl

/-- A worker that has exited does not come back. -/
theorem exited_step {w : Fin cfg.workerCount} (h : step s l = some t)
    (hw : s.workers w = .exited) : t.workers w = .exited := by
  have hother : ∀ {v pc}, s.workers v ≠ .exited → (s.setWorker v pc).workers w = .exited := by
    intro v pc hv
    have hne : w ≠ v := fun hwv => hv (hwv ▸ hw)
    exact (Function.update_of_ne hne pc s.workers).trans hw
  cases l with
  | get v | timeout v =>
    simp only [step] at h
    split at h <;> cases h
    rename_i hpc _
    exact hother (by simp [hpc])
  | checkStopping v | decrement v | call v | finish v =>
    simp only [step] at h
    split at h <;> cases h
    rename_i hpc
    exact hother (by simp [hpc])
  | claim v =>
    simp only [step] at h
    split at h <;> cases h
    rename_i task hpc
    have hne : w ≠ v := fun hwv => by rw [hwv, hpc] at hw; cases hw
    refine (Function.update_of_ne hne _ _).trans ?_
    rw [(runClaim_sameClose s task).2, hw]
  | submitDrop k | closeDrop =>
    simp only [step] at h
    split at h <;> cases h <;> exact (congrFun (drop_sameClose s _ _).2 w).trans hw
  | offer k | reoffer k =>
    simp only [step] at h
    split at h <;> cases h
    unfold offerOr
    split <;> exact hw
  | join v expired | forcedJoin v expired | joined | forcedJoined =>
    simp only [step] at h
    split at h
    · split at h <;> cases h
      exact hw
    · cases h
  | _ =>
    simp only [step] at h
    split at h <;> cases h <;> exact hw

/-- One more worker is waited for. -/
theorem waited_succ {n : Nat} {expired : Fin n → Bool} {exited : Fin n → Prop} {i : Nat}
    {w : Fin n} {b : Bool} (hi : i = w) (hw : exited w ∨ b = true)
    (hbefore : ∀ v : Fin n, v < i → exited v ∨ expired v = true) (v : Fin n) (hv : v < i + 1) :
    exited v ∨ Function.update expired w b v = true := by
  by_cases hvw : v = w
  · subst hvw
    rw [Function.update_self]
    exact hw
  · have hlt : v < i := by
      have hne : v.val ≠ w.val := fun h => hvw (Fin.ext h)
      omega
    rw [Function.update_of_ne hvw]
    exact hbefore v hlt

/-- A step of `close` that waits for nobody. -/
theorem Joined.keep (hs : s.Joined) (hclosed : t.closed = true) (hpc : t.close ≠ .outside)
    (hgraceful : t.close.graceful cfg.workerCount ≤ s.close.graceful cfg.workerCount)
    (hforced : t.close.forced cfg.workerCount ≤ s.close.forced cfg.workerCount)
    (hworkers : t.workers = s.workers) (hjoin : t.joinExpired = s.joinExpired)
    (hexpired : t.forcedExpired = s.forcedExpired) : t.Joined := by
  refine ⟨iff_of_true hclosed hpc, ?_, ?_⟩
  · intro w hw
    rw [hworkers, hjoin]
    exact hs.graceful w (Nat.lt_of_lt_of_le hw hgraceful)
  · intro w hw
    rw [hworkers, hexpired]
    exact hs.forced w (Nat.lt_of_lt_of_le hw hforced)

theorem joined_close {l : Label cfg} (hl : ofClose l = true) (h : step s l = some t)
    (hs : s.Joined) : t.Joined := by
  have hclosed : s.close ≠ .outside → s.closed = true := hs.closed.mpr
  cases l with
  | close =>
    simp only [step] at h
    split at h <;> cases h
    exact hs.keep rfl (by rintro ⟨⟩) (Nat.zero_le _) (Nat.zero_le _) rfl rfl rfl
  | setStopping =>
    simp only [step] at h
    split at h <;> cases h
    rename_i hpc
    exact hs.keep (hclosed (by simp [hpc])) (by rintro ⟨⟩) (Nat.zero_le _) (Nat.zero_le _)
      rfl rfl rfl
  | join w expired =>
    simp only [step] at h
    split at h
    · rename_i i hpc
      split at h <;> cases h
      rename_i hguard
      have hbefore := hs.graceful
      rw [hpc] at hbefore
      exact ⟨iff_of_true (hclosed (by simp [hpc])) (by rintro ⟨⟩),
        waited_succ hguard.1 hguard.2 hbefore, by rintro w ⟨⟩⟩
    · cases h
  | joined =>
    simp only [step] at h
    split at h
    · rename_i i hpc
      split at h <;> cases h
      rename_i hi
      refine hs.keep (hclosed (by simp [hpc])) ?_ ?_ ?_ rfl rfl rfl
      · simp only [setClose]
        split <;> rintro ⟨⟩
      · rw [hpc]
        simp only [setClose]
        split <;> exact hi.ge
      · simp only [setClose]
        split <;> exact Nat.zero_le _
    · cases h
  | signal =>
    simp only [step] at h
    split at h <;> cases h
    rename_i hpc
    exact hs.keep (hclosed (by simp [hpc])) (by rintro ⟨⟩) (by rw [hpc]; rfl) (Nat.zero_le _)
      rfl rfl rfl
  | drainPoll =>
    simp only [step] at h
    split at h <;> cases h
    · rename_i hpc _
      exact hs.keep (hclosed (by simp [hpc])) (by rintro ⟨⟩) (by rw [hpc]; rfl) (Nat.zero_le _)
        rfl rfl rfl
    · rename_i hpc _
      exact hs.keep (hclosed (by simp [hpc])) (by rintro ⟨⟩) (by rw [hpc]; rfl) (Nat.zero_le _)
        rfl rfl rfl
  | closeDrop =>
    simp only [step] at h
    split at h <;> cases h
    rename_i task pc hpc
    obtain ⟨hsame, hworkers⟩ := drop_sameClose s task pc
    have hnext : (s.drop task pc).2.elim ClosePc.draining (.dropping task) = .draining ∨
        ∃ pc', (s.drop task pc).2.elim ClosePc.draining (.dropping task) = .dropping task pc' := by
      cases (s.drop task pc).2 with
      | none => exact .inl rfl
      | some pc' => exact .inr ⟨pc', rfl⟩
    refine hs.keep (hsame.closed.trans (hclosed (by simp [hpc]))) ?_ ?_ ?_ hworkers
      hsame.joinExpired hsame.forcedExpired <;> simp only [setClose] <;>
      rcases hnext with hnext | ⟨pc', hnext⟩ <;> rw [hnext]
    · rintro ⟨⟩
    · rintro ⟨⟩
    · rw [hpc]; rfl
    · rw [hpc]; rfl
    · exact Nat.zero_le _
    · exact Nat.zero_le _
  | forcedJoin w expired =>
    simp only [step] at h
    split at h
    · rename_i i hpc
      split at h <;> cases h
      rename_i hguard
      have hgraceful := hs.graceful
      have hbefore := hs.forced
      rw [hpc] at hgraceful hbefore
      exact ⟨iff_of_true (hclosed (by simp [hpc])) (by rintro ⟨⟩), hgraceful,
        waited_succ hguard.1 hguard.2 hbefore⟩
    · cases h
  | forcedJoined =>
    simp only [step] at h
    split at h
    · rename_i i hpc
      split at h <;> cases h
      rename_i hi
      exact hs.keep (hclosed (by simp [hpc])) (by rintro ⟨⟩) (by rw [hpc]; rfl)
        (by rw [hpc]; exact hi.ge) rfl rfl rfl
    · cases h
  | _ => cases hl

theorem joined_step (h : step s l = some t) (hs : s.Joined) : t.Joined := by
  cases hl : ofClose l with
  | true => exact joined_close hl h hs
  | false =>
    have hsame := sameClose_step h hl
    refine ⟨by rw [hsame.closed, hsame.close]; exact hs.closed, ?_, ?_⟩
    · intro w hw
      rw [hsame.close] at hw
      rw [hsame.joinExpired]
      exact (hs.graceful w hw).imp_left (exited_step h)
    · intro w hw
      rw [hsame.close] at hw
      rw [hsame.forcedExpired]
      exact (hs.forced w hw).imp_left (exited_step h)

/-- Only `close` itself sets the closed flag. -/
theorem closed_step (h : step s l = some t) (hl : l ≠ .close) : t.closed = s.closed := by
  cases hof : ofClose l with
  | false => exact (sameClose_step h hof).closed
  | true =>
    cases l with
    | close => exact absurd rfl hl
    | closeDrop =>
      simp only [step] at h
      split at h <;> cases h
      exact (drop_sameClose s _ _).1.closed
    | setStopping | signal | drainPoll =>
      simp only [step] at h
      split at h <;> cases h <;> rfl
    | join w expired | joined | forcedJoin w expired | forcedJoined =>
      simp only [step] at h
      split at h
      · split at h <;> cases h
        rfl
      · cases h
    | _ => cases hof

theorem returned_step (h : step s l = some t) (hs : s.close = .returned) :
    t.close = .returned := by
  cases hof : ofClose l with
  | false => exact (sameClose_step h hof).close.trans hs
  | true => cases l <;> first | (cases hof; done) | simp [step, hs] at h

theorem joined_new (cfg : Config) : (new cfg).Joined :=
  ⟨iff_of_false nofun fun h => h rfl, nofun, nofun⟩

end AsyncDispatcher

end OppexSdk.Python.Dispatcher
