import Mathlib.Data.List.Basic

/-! # Queues with a dead prefix

A FIFO kept in an array and a head index. Taking the oldest element clears its slot and advances
the head, so the slots below the head are dead; now and then the array is cut down to the live
ones. The list a queue stands for is what lies from the head on. -/
namespace OppexSdk.Lib.SlotQueue

variable {α : Type}

/-- The slots hold exactly these elements from the head on, and nothing below it. -/
def Holds (slots : List (Option α)) (head : Nat) (xs : List α) : Prop :=
  slots = List.replicate head none ++ xs.map some

/-- What lies from the head on. -/
def live (slots : List (Option α)) (head : Nat) : List α := (slots.drop head).filterMap id

theorem holds_empty : Holds ([] : List (Option α)) 0 [] := rfl

section
variable {slots : List (Option α)} {head : Nat} {x : α} {xs : List α}

theorem Holds.length (h : Holds slots head xs) : slots.length = head + xs.length := by
  rw [h, List.length_append, List.length_replicate, List.length_map]

theorem Holds.drop (h : Holds slots head xs) : slots.drop head = xs.map some := by
  rw [h, List.drop_append_of_le_length (by simp), List.drop_replicate, Nat.sub_self]
  rfl

theorem Holds.live_eq (h : Holds slots head xs) : live slots head = xs := by
  rw [live, h.drop, List.filterMap_map]
  exact List.filterMap_some

theorem Holds.dead (h : Holds slots head xs) {i : Nat} (hi : i < head) :
    slots[i]? = some none := by
  rw [h, List.getElem?_append_left (by simpa using hi), List.getElem?_replicate, if_pos hi]

theorem Holds.alive (h : Holds slots head xs) {i : Nat} (hi : head ≤ i) (hlt : i < slots.length) :
    ∃ x ∈ xs, slots[i]? = some (some x) := by
  have hlen := h.length
  have hin : i - head < xs.length := by omega
  refine ⟨xs[i - head], List.getElem_mem hin, ?_⟩
  rw [h, List.getElem?_append_right (by simpa using hi), List.length_replicate, List.getElem?_map,
    List.getElem?_eq_getElem hin]
  rfl

/-- The slot at the head holds the oldest element. -/
theorem Holds.oldest (h : Holds slots head xs) : slots[head]?.join = xs.head? := by
  rw [h, List.getElem?_append_right (by simp), List.length_replicate, Nat.sub_self]
  cases xs with
  | nil => rfl
  | cons x xs => rfl

theorem Holds.push (h : Holds slots head xs) (x : α) :
    Holds (slots ++ [some x]) head (xs ++ [x]) := by
  unfold Holds
  rw [h, List.append_assoc, List.map_append]
  rfl

/-- The oldest element is taken: its slot joins the dead ones. -/
theorem Holds.clear (h : Holds slots head (x :: xs)) :
    Holds (slots.set head none) (head + 1) xs := by
  unfold Holds
  rw [h, List.set_append_right _ _ (by simp), List.length_replicate, Nat.sub_self,
    List.replicate_succ']
  simp

/-- Clearing the slot after the last one of an empty queue. -/
theorem Holds.clear_empty (h : Holds slots head []) : Holds (slots ++ [none]) (head + 1) [] := by
  unfold Holds
  rw [h, List.replicate_succ', List.map_nil, List.append_nil, List.append_nil]

/-- The array is cut down to what is live. -/
theorem Holds.compact (h : Holds slots head xs) : Holds (slots.drop head) 0 xs := by
  rw [h.drop]
  rfl

end

end OppexSdk.Lib.SlotQueue
