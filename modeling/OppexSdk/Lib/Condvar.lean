import Mathlib.Data.List.Basic

/-! # Condition variables as wait sets

Waiting releases the mutex and joins the set in one step, so it belongs to the critical section
that decides to wait. A thread in the set is parked; one that a notification, a timeout or a
spurious wake-up has removed can be scheduled again and re-checks its condition under the mutex. -/
namespace OppexSdk.Lib

structure Condvar (τ : Type) where
  waiting : List τ
  deriving DecidableEq

namespace Condvar

variable {τ : Type}

def new : Condvar τ := ⟨[]⟩

def Parked (c : Condvar τ) (t : τ) : Prop := t ∈ c.waiting

instance [DecidableEq τ] (c : Condvar τ) (t : τ) : Decidable (c.Parked t) :=
  inferInstanceAs (Decidable (t ∈ c.waiting))

def wait (c : Condvar τ) (t : τ) : Condvar τ := ⟨t :: c.waiting⟩

def notifyAll (_ : Condvar τ) : Condvar τ := ⟨[]⟩

@[simp] theorem parked_new (t : τ) : ¬ (new : Condvar τ).Parked t := by simp [new, Parked]

@[simp] theorem parked_wait (c : Condvar τ) (t u : τ) :
    (c.wait t).Parked u ↔ u = t ∨ c.Parked u := by simp [wait, Parked]

@[simp] theorem parked_notifyAll (c : Condvar τ) (t : τ) : ¬ c.notifyAll.Parked t := by
  simp [notifyAll, Parked]

variable [DecidableEq τ]

/-- One thread leaves the set: notified, timed out or woken spuriously. -/
def wake (c : Condvar τ) (t : τ) : Condvar τ := ⟨c.waiting.filter (· ≠ t)⟩

/-- `notify_one` with the member the scheduler picked: any parked thread, and none only when
nobody is parked. -/
def notifyOne (c : Condvar τ) : Option τ → Option (Condvar τ)
  | none => if c.waiting = [] then some c else none
  | some t => if c.Parked t then some (c.wake t) else none

@[simp] theorem parked_wake (c : Condvar τ) (t u : τ) :
    (c.wake t).Parked u ↔ c.Parked u ∧ u ≠ t := by simp [wake, Parked]

/-- What a `notify_one` does: it finds the set empty, or it wakes one parked thread. -/
theorem notifyOne_cases {c d : Condvar τ} {target : Option τ}
    (h : c.notifyOne target = some d) :
    (target = none ∧ (∀ t, ¬ c.Parked t) ∧ d = c) ∨
      ∃ t, target = some t ∧ c.Parked t ∧ d = c.wake t := by
  cases target with
  | none =>
    simp only [notifyOne] at h
    split at h
    · rename_i he
      exact .inl ⟨rfl, by simp [Parked, he], (Option.some.inj h).symm⟩
    · cases h
  | some t =>
    simp only [notifyOne] at h
    split at h
    · rename_i hp
      exact .inr ⟨t, rfl, hp, (Option.some.inj h).symm⟩
    · cases h

end Condvar

/-! ## Missed wake-ups

What the question is about, in any monitor: is there work, which consumers are parked, and is a
producer still on its way to notify. The four rules say why a step cannot end in a missed
wake-up; a proof about a monitor picks one of them for each of its steps. -/

structure WakeView (ι : Type) where
  work : Prop
  parked : ι → Prop
  pending : Prop

namespace WakeView

variable {ι : Type} {v v' : WakeView ι}

/-- Work waits, every consumer sleeps, and nobody is left to wake one. -/
def Missed (v : WakeView ι) : Prop := v.work ∧ (∀ i, v.parked i) ∧ ¬ v.pending

theorem not_missed_of_idle (h : ¬ v.work) : ¬ v.Missed := fun hm => h hm.1

theorem not_missed_of_awake {i : ι} (h : ¬ v.parked i) : ¬ v.Missed := fun hm => h (hm.2.1 i)

theorem not_missed_of_pending (h : v.pending) : ¬ v.Missed := fun hm => hm.2.2 h

/-- A step that brings no work, parks no consumer and drops no notification misses nothing that
was not missed before. -/
theorem not_missed_of_frame (h : ¬ v.Missed) (hwork : v'.work → v.work)
    (hparked : ∀ i, v'.parked i → v.parked i) (hpending : v.pending → v'.pending) :
    ¬ v'.Missed := fun ⟨hw, hp, hn⟩ =>
  h ⟨hwork hw, fun i => hparked i (hp i), fun hpend => hn (hpending hpend)⟩

end WakeView
end OppexSdk.Lib
