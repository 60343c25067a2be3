import Mathlib.Logic.Function.Basic

/-! # Who owns what is allocated

A heap of blocks and any number of slots that may each hold a pointer. The heap refuses what is
undefined: to free a block that is not allocated. `Owns` says that every slot that holds a pointer
holds a block of its own, and `Covers` that every block is held; a slot may be overwritten without
being freed, which loses its block but spoils no other. -/
namespace OppexSdk.Lib.Ownership

variable {π γ κ : Type} [DecidableEq π] [DecidableEq κ]

structure Heap (π γ : Type) where
  block : π → Option γ

namespace Heap

def empty : Heap π γ := ⟨fun _ => none⟩

def Live (h : Heap π γ) (p : π) : Prop := (h.block p).isSome = true

instance Live.decidable (h : Heap π γ) (p : π) : Decidable (h.Live p) :=
  inferInstanceAs (Decidable ((h.block p).isSome = true))

/-- An allocation, with what is copied into the block. No allocator returns a block in use. -/
def store (h : Heap π γ) (p : π) (content : γ) : Option (Heap π γ) :=
  if h.Live p then none else some ⟨Function.update h.block p (some content)⟩

/-- What frees a pointer, where it is defined. Null may be freed. -/
def free (h : Heap π γ) : Option π → Option (Heap π γ)
  | none => some h
  | some p => if h.Live p then some ⟨Function.update h.block p none⟩ else none

variable {h h' : Heap π γ} {p q : π} {c : γ}

theorem store_eq_some (hs : h.store p c = some h') :
    ¬ h.Live p ∧ h' = ⟨Function.update h.block p (some c)⟩ := by
  simp only [store] at hs
  split at hs
  · cases hs
  · cases hs
    exact ⟨‹_›, rfl⟩

theorem live_store (hs : h.store p c = some h') : h'.Live q ↔ q = p ∨ h.Live q := by
  obtain ⟨-, rfl⟩ := store_eq_some hs
  by_cases hq : q = p
  · subst hq
    simp [Live]
  · simp [Live, hq]

theorem free_eq_some (hs : h.free (some p) = some h') :
    h.Live p ∧ h' = ⟨Function.update h.block p none⟩ := by
  simp only [free] at hs
  split at hs
  · cases hs
    exact ⟨‹_›, rfl⟩
  · cases hs

/-- What is left is what was not freed. -/
theorem live_free {o : Option π} (hs : h.free o = some h') : h'.Live q ↔ o ≠ some q ∧ h.Live q := by
  cases o with
  | none => cases hs; simp
  | some p =>
    obtain ⟨-, rfl⟩ := free_eq_some hs
    by_cases hq : q = p
    · subst hq
      simp [Live]
    · have hne : p ≠ q := fun h => hq h.symm
      simp [Live, hq, hne]

end Heap

/-- Every block has the property. -/
def AllBlocks (P : γ → Prop) (h : Heap π γ) : Prop := ∀ p c, h.block p = some c → P c

/-- Every slot that is not null holds a block, and no two slots hold the same one. -/
structure Owns (h : Heap π γ) (slot : κ → Option π) : Prop where
  live : ∀ x p, slot x = some p → h.Live p
  apart : ∀ x y p, slot x = some p → slot y = some p → x = y

/-- Every block is in a slot. -/
def Covers (h : Heap π γ) (slot : κ → Option π) : Prop := ∀ p, h.Live p → ∃ x, slot x = some p

section
variable {h h' : Heap π γ} {P : γ → Prop}

theorem AllBlocks.store {p : π} {c : γ} (ha : AllBlocks P h) (hs : h.store p c = some h')
    (hc : P c) : AllBlocks P h' := by
  obtain ⟨-, rfl⟩ := Heap.store_eq_some hs
  intro q d hq
  dsimp only at hq
  by_cases hqp : q = p
  · subst hqp
    rw [Function.update_self] at hq
    cases hq
    exact hc
  · rw [Function.update_of_ne hqp] at hq
    exact ha q d hq

theorem AllBlocks.free {p : Option π} (ha : AllBlocks P h) (hs : h.free p = some h') :
    AllBlocks P h' := by
  cases p with
  | none => cases hs; exact ha
  | some p =>
    obtain ⟨-, rfl⟩ := Heap.free_eq_some hs
    intro q d hq
    dsimp only at hq
    by_cases hqp : q = p
    · subst hqp
      rw [Function.update_self] at hq
      cases hq
    · rw [Function.update_of_ne hqp] at hq
      exact ha q d hq

end

section
variable {h h' : Heap π γ} {slot : κ → Option π} {x : κ} {p : π} {c : γ}

omit [DecidableEq π] in
theorem update_some {v : Option π} {y : κ} {q : π} (hy : Function.update slot x v y = some q) :
    (y = x ∧ v = some q) ∨ (y ≠ x ∧ slot y = some q) := by
  by_cases hyx : y = x
  · subst hyx
    rw [Function.update_self] at hy
    exact .inl ⟨rfl, hy⟩
  · rw [Function.update_of_ne hyx] at hy
    exact .inr ⟨hyx, hy⟩

omit [DecidableEq π] in
/-- A slot is overwritten with null. -/
theorem Owns.clear (ho : Owns h slot) (x : κ) : Owns h (Function.update slot x none) := by
  refine ⟨?_, ?_⟩
  · intro y q hy
    rcases update_some hy with ⟨-, hv⟩ | ⟨-, hy⟩
    · cases hv
    · exact ho.live y q hy
  · intro y z q hy hz
    rcases update_some hy with ⟨-, hv⟩ | ⟨-, hy⟩
    · cases hv
    · rcases update_some hz with ⟨-, hv⟩ | ⟨-, hz⟩
      · cases hv
      · exact ho.apart y z q hy hz

/-- A slot is overwritten with a new block. -/
theorem Owns.store (ho : Owns h slot) (hs : h.store p c = some h') (x : κ) :
    Owns h' (Function.update slot x (some p)) := by
  have hfresh : ∀ {y}, slot y ≠ some p := fun hy => (Heap.store_eq_some hs).1 (ho.live _ p hy)
  refine ⟨?_, ?_⟩
  · intro y q hy
    rw [Heap.live_store hs]
    rcases update_some hy with ⟨-, hv⟩ | ⟨-, hy⟩
    · exact .inl (Option.some.inj hv).symm
    · exact .inr (ho.live y q hy)
  · intro y z q hy hz
    rcases update_some hy with ⟨hyx, hv⟩ | ⟨-, hy⟩
    · rcases update_some hz with ⟨hzx, -⟩ | ⟨-, hz⟩
      · exact hyx.trans hzx.symm
      · exact absurd (hz.trans hv.symm) hfresh
    · rcases update_some hz with ⟨-, hv⟩ | ⟨-, hz⟩
      · exact absurd (hy.trans hv.symm) hfresh
      · exact ho.apart y z q hy hz

omit [DecidableEq κ] in
/-- What a slot holds can be freed. -/
theorem Owns.free_isSome (ho : Owns h slot) (x : κ) : (h.free (slot x)).isSome = true := by
  cases hx : slot x with
  | none => rfl
  | some p => rw [Heap.free, if_pos (ho.live x p hx)]; rfl

/-- And the others are not affected. -/
theorem Owns.free (ho : Owns h slot) (hs : h.free (slot x) = some h') :
    Owns h' (Function.update slot x none) := by
  have hclear := ho.clear x
  cases hx : slot x with
  | none =>
    rw [hx] at hs
    cases hs
    exact hclear
  | some p =>
    rw [hx] at hs
    refine ⟨?_, hclear.apart⟩
    intro y q hy
    rw [Heap.live_free hs]
    refine ⟨?_, hclear.live y q hy⟩
    intro hqp
    cases hqp
    rcases update_some hy with ⟨-, hv⟩ | ⟨hne, hy⟩
    · cases hv
    · exact hne (ho.apart y x p hy hx)

theorem Covers.store (hc : Covers h slot) (hs : h.store p c = some h') (hx : slot x = none) :
    Covers h' (Function.update slot x (some p)) := by
  intro q hq
  rcases (Heap.live_store hs).mp hq with rfl | hq
  · exact ⟨x, Function.update_self ..⟩
  · obtain ⟨y, hy⟩ := hc q hq
    have hyx : y ≠ x := by
      intro he
      rw [he, hx] at hy
      cases hy
    exact ⟨y, (Function.update_of_ne hyx ..).trans hy⟩

theorem Covers.free (hc : Covers h slot) (hs : h.free (slot x) = some h') :
    Covers h' (Function.update slot x none) := by
  cases hx : slot x with
  | none =>
    rw [hx] at hs
    cases hs
    have hsame : Function.update slot x none = slot := by
      rw [← hx]
      exact Function.update_eq_self x slot
    rwa [hsame]
  | some p =>
    rw [hx] at hs
    intro q hq
    obtain ⟨hne, hlive⟩ := (Heap.live_free hs).mp hq
    obtain ⟨y, hy⟩ := hc q hlive
    have hyx : y ≠ x := by
      intro he
      rw [he, hx] at hy
      exact hne hy
    exact ⟨y, (Function.update_of_ne hyx ..).trans hy⟩

end

end OppexSdk.Lib.Ownership
