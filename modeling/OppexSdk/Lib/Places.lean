import Mathlib.Logic.Function.Basic

/-! # Things that are in one place each

The parts of a system say of a thing that it is here or there. Together they locate it when they
agree with one function. A thing that moves leaves its place for another, and whatever is said of
the other things and places stays. -/
namespace OppexSdk.Lib.Places

variable {ρ π : Type} {At At' : ρ → π → Prop} {place : ρ → π} {r : ρ} {p q : π}

def Located (At : ρ → π → Prop) (place : ρ → π) : Prop := ∀ r p, At r p ↔ place r = p

theorem Located.unique (h : Located At place) (hp : At r p) (hq : At r q) : p = q :=
  ((h r p).mp hp).symm.trans ((h r q).mp hq)

/-- One thing moves. -/
theorem Located.move [DecidableEq ρ] (h : Located At place) {k : ρ} (hp : At k p)
    (hnew : At' k q) (hgone : ¬ At' k p)
    (hat : ∀ i x, ¬ (i = k ∧ (x = p ∨ x = q)) → (At' i x ↔ At i x)) :
    Located At' (Function.update place k q) := by
  intro i x
  have hpk : place k = p := (h k p).mp hp
  by_cases hi : i = k
  · subst hi
    rw [Function.update_self]
    by_cases hxq : x = q
    · subst hxq
      exact iff_of_true hnew rfl
    · by_cases hxp : x = p
      · subst hxp
        exact iff_of_false hgone (Ne.symm hxq)
      · refine ((hat i x fun hor => hor.2.elim hxp hxq).trans (h i x)).trans ?_
        rw [hpk]
        exact iff_of_false (Ne.symm hxp) (Ne.symm hxq)
  · rw [Function.update_of_ne hi]
    exact (hat i x fun hor => hi hor.1).trans (h i x)

/-- Everything in some places moves at once. -/
theorem Located.moveAll (h : Located At place) (f : π → π)
    (hat : ∀ i x, At' i x ↔ ∃ p, At i p ∧ f p = x) : Located At' fun r => f (place r) := by
  intro i x
  rw [hat i x]
  constructor
  · intro hex
    obtain ⟨p, hp, rfl⟩ := hex
    exact congrArg f ((h i p).mp hp)
  · intro hx
    exact ⟨place i, (h i _).mpr rfl, hx⟩

end OppexSdk.Lib.Places
