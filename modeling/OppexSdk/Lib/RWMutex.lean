import Mathlib.Data.List.Basic

/-! # Readers-writer locks with waiting writers

A Go `sync.RWMutex`. A writer that waits keeps new readers out, so that the readers in front of it
run out; the writer waits for them, and the new readers wait for the writer. -/
namespace OppexSdk.Lib

structure RWMutex (ρ ω : Type) where
  readers : List ρ
  waiting : List ω
  writer : Option ω

namespace RWMutex
variable {ρ ω : Type}

def new : RWMutex ρ ω := ⟨[], [], none⟩

/-- No writer holds the lock or waits for it. -/
def Open (m : RWMutex ρ ω) : Prop := m.writer = none ∧ m.waiting = []

def rlock (m : RWMutex ρ ω) (r : ρ) : Option (RWMutex ρ ω) :=
  match m.writer, m.waiting with
  | none, [] => some { m with readers := r :: m.readers }
  | _, _ => none

/-- A writer calls `Lock`. -/
def request (m : RWMutex ρ ω) (w : ω) : RWMutex ρ ω := { m with waiting := m.waiting ++ [w] }

def unlock (m : RWMutex ρ ω) : RWMutex ρ ω := { m with writer := none }

theorem rlock_isSome_iff {m : RWMutex ρ ω} {r : ρ} : (m.rlock r).isSome = true ↔ m.Open := by
  unfold rlock Open
  split
  · rename_i hwriter hwaiting
    exact iff_of_true rfl ⟨hwriter, hwaiting⟩
  · rename_i hno
    exact iff_of_false nofun fun hopen => hno hopen.1 hopen.2

/-- Reading changes nothing about the writers. -/
theorem rlock_writers {m m' : RWMutex ρ ω} {r : ρ} (h : m.rlock r = some m') :
    m'.writer = m.writer ∧ m'.waiting = m.waiting := by
  unfold rlock at h
  split at h <;> cases h
  exact ⟨rfl, rfl⟩

def runlock [DecidableEq ρ] (m : RWMutex ρ ω) (r : ρ) : RWMutex ρ ω :=
  { m with readers := m.readers.erase r }

variable [DecidableEq ω]

/-- A waiting writer gets the lock when nobody has it. -/
def lock (m : RWMutex ρ ω) (w : ω) : Option (RWMutex ρ ω) :=
  match m.writer, m.readers with
  | none, [] =>
    if w ∈ m.waiting then
      some { m with waiting := m.waiting.filter (· ≠ w), writer := some w }
    else none
  | _, _ => none

theorem lock_eq_some {m m' : RWMutex ρ ω} {w : ω} (h : m.lock w = some m') :
    m.writer = none ∧ m.readers = [] ∧ w ∈ m.waiting ∧
      m' = { m with waiting := m.waiting.filter (· ≠ w), writer := some w } := by
  unfold lock at h
  split at h
  · rename_i hwriter hreaders
    split at h
    · rename_i hmem
      exact ⟨hwriter, hreaders, hmem, (Option.some.inj h).symm⟩
    · cases h
  · cases h

end RWMutex

end OppexSdk.Lib
