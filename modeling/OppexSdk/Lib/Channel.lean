import Mathlib.Data.List.Basic

/-! # Buffered Go channels

A channel is a bounded FIFO. A send on a closed channel panics, whether or not a `default` stands
beside it; a receive takes what is buffered first and only then sees that the channel is
closed. -/
namespace OppexSdk.Lib

structure Chan (α : Type) where
  capacity : Nat
  buffer : List α
  closed : Bool

namespace Chan
variable {α : Type}

/-- `make(chan α, capacity)` -/
def make (capacity : Nat) : Chan α := ⟨capacity, [], false⟩

/-- How `select { case ch <- v: default: }` goes. -/
inductive Send (α : Type)
  | sent (ch : Chan α)
  | full
  | panicked

def send (ch : Chan α) (v : α) : Send α :=
  if ch.closed then .panicked
  else if ch.buffer.length < ch.capacity then .sent { ch with buffer := ch.buffer ++ [v] }
  else .full

/-- What a receive finds. On a closed channel it succeeds without a value. -/
inductive Receive (α : Type)
  | value (v : α) (ch : Chan α)
  | closed
  | empty

def receive (ch : Chan α) : Receive α :=
  match ch.buffer with
  | v :: rest => .value v { ch with buffer := rest }
  | [] => if ch.closed then .closed else .empty

/-- `close(ch)`; closing twice panics. -/
def close (ch : Chan α) : Option (Chan α) :=
  if ch.closed then none else some { ch with closed := true }

section
variable {ch ch' : Chan α} {v : α}

theorem send_eq_sent (h : ch.send v = .sent ch') :
    ch.closed = false ∧ ch.buffer.length < ch.capacity ∧
      ch' = { ch with buffer := ch.buffer ++ [v] } := by
  unfold send at h
  split at h
  · cases h
  · rename_i hopen
    split at h
    · rename_i hlt
      cases h
      exact ⟨by simpa using hopen, hlt, rfl⟩
    · cases h

theorem send_eq_full (h : ch.send v = .full) :
    ch.closed = false ∧ ch.capacity ≤ ch.buffer.length := by
  unfold send at h
  split at h
  · cases h
  · rename_i hopen
    split at h
    · cases h
    · rename_i hlt
      exact ⟨by simpa using hopen, Nat.le_of_not_lt hlt⟩

theorem send_eq_panicked (h : ch.send v = .panicked) : ch.closed = true := by
  unfold send at h
  split at h
  · assumption
  · split at h <;> cases h

theorem receive_eq_value (h : ch.receive = .value v ch') :
    ∃ rest, ch.buffer = v :: rest ∧ ch' = { ch with buffer := rest } := by
  unfold receive at h
  split at h
  · rename_i rest hbuffer
    cases h
    exact ⟨rest, hbuffer, rfl⟩
  · split at h <;> cases h

theorem receive_eq_closed (h : ch.receive = .closed) : ch.buffer = [] ∧ ch.closed = true := by
  unfold receive at h
  split at h
  · cases h
  · rename_i hbuffer
    split at h
    · exact ⟨hbuffer, ‹_›⟩
    · cases h

theorem receive_eq_empty (h : ch.receive = .empty) : ch.buffer = [] ∧ ch.closed = false := by
  unfold receive at h
  split at h
  · cases h
  · rename_i hbuffer
    split at h
    · cases h
    · rename_i hopen
      exact ⟨hbuffer, by simpa using hopen⟩

end

end Chan
end OppexSdk.Lib
