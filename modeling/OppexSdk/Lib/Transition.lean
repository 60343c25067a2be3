import Mathlib.Algebra.BigOperators.Fin
import Mathlib.Algebra.BigOperators.Group.Finset.Piecewise

/-! # Labelled transition systems with a partial step function

A system is a function `step : σ → ℓ → Option σ`. The label names the thread that moves and how
the scheduler resolved every choice the move leaves open; `none` says the move is not enabled.
A run is a list of labels, each of them taken in a state that meets the side condition `ok`, so
that "every run in which no task panics" and "every run that avoids this branch" are runs under
a condition and share one induction rule. -/
namespace OppexSdk.Lib.Transition

variable {σ ℓ : Type}

/-- `Run step ok s ls t`: the labels `ls` lead from `s` to `t`, every step meeting `ok` in the
state it is taken from. -/
inductive Run (step : σ → ℓ → Option σ) (ok : σ → ℓ → Prop) : σ → List ℓ → σ → Prop
  | nil (s : σ) : Run step ok s [] s
  | cons {s t u : σ} {l : ℓ} {ls : List ℓ} :
      ok s l → step s l = some t → Run step ok t ls u → Run step ok s (l :: ls) u

/-- The side condition that restricts nothing. -/
def anyStep (_ : σ) (_ : ℓ) : Prop := True

instance anyStep.decidable (s : σ) (l : ℓ) : Decidable (anyStep s l) :=
  inferInstanceAs (Decidable True)

section
variable {step : σ → ℓ → Option σ} {ok : σ → ℓ → Prop}

/-- **The invariant rule.** What every step keeps, every run keeps. -/
theorem Run.invariant {I : σ → Prop}
    (keeps : ∀ {s l t}, ok s l → step s l = some t → I s → I t)
    {s t : σ} {ls : List ℓ} (h : Run step ok s ls t) (hs : I s) : I t := by
  induction h with
  | nil _ => exact hs
  | cons hok hstep _ ih => exact ih (keeps hok hstep hs)

theorem Run.snoc {s t u : σ} {l : ℓ} {ls : List ℓ} (h : Run step ok s ls t)
    (hok : ok t l) (hstep : step t l = some u) : Run step ok s (ls ++ [l]) u := by
  induction h with
  | nil _ => exact .cons hok hstep (.nil _)
  | cons hok' hstep' _ ih => exact .cons hok' hstep' (ih hok hstep)

theorem Run.append {s t u : σ} {ls ms : List ℓ} (h : Run step ok s ls t)
    (h' : Run step ok t ms u) : Run step ok s (ls ++ ms) u := by
  induction h with
  | nil _ => exact h'
  | cons hok hstep _ ih => exact .cons hok hstep (ih h')

/-- The labels determine where a run ends. -/
theorem Run.det {s t u : σ} {ls : List ℓ} (h : Run step ok s ls t) (h' : Run step ok s ls u) :
    t = u := by
  induction h with
  | nil _ => cases h'; rfl
  | cons _ hstep _ ih =>
    cases h' with
    | cons _ hstep' rest =>
      rw [hstep] at hstep'; cases hstep'
      exact ih rest

/-- A run over a concatenation passes through a state between the two parts. -/
theorem Run.split {s u : σ} {ls ms : List ℓ} (h : Run step ok s (ls ++ ms) u) :
    ∃ t, Run step ok s ls t ∧ Run step ok t ms u := by
  induction ls generalizing s with
  | nil => exact ⟨s, .nil s, h⟩
  | cons l ls ih =>
    cases h with
    | cons hok hstep rest =>
      obtain ⟨t, h₁, h₂⟩ := ih rest
      exact ⟨t, .cons hok hstep h₁, h₂⟩

/-- What comes to hold in the course of a run is made to hold by one of its steps. -/
theorem Run.arises {p : σ → Prop} {s t : σ} {ls : List ℓ} (h : Run step ok s ls t) (hs : ¬ p s)
    (ht : p t) : ∃ before l after u v, ls = before ++ l :: after ∧ Run step ok s before u ∧
      ¬ p u ∧ step u l = some v ∧ p v := by
  induction h with
  | nil _ => exact absurd ht hs
  | @cons s v t l ls hok hstep _ ih =>
    by_cases hv : p v
    · exact ⟨[], l, ls, s, v, rfl, .nil s, hs, hstep, hv⟩
    · obtain ⟨before, l', after, u, v', rfl, hbefore, hu, hstep', hv'⟩ := ih hv ht
      exact ⟨l :: before, l', after, u, v', rfl, .cons hok hstep hbefore, hu, hstep', hv'⟩

/-- A condition on the labels alone is met along the whole run when every label meets it. -/
theorem Run.of_labels {p : ℓ → Prop} {s t : σ} {ls : List ℓ} (h : Run step ok s ls t)
    (hls : ∀ l ∈ ls, p l) : Run step (fun _ l => p l) s ls t := by
  induction h with
  | nil s => exact .nil s
  | cons _ hstep _ ih =>
    rw [List.forall_mem_cons] at hls
    exact .cons hls.1 hstep (ih hls.2)

/-- Steps that lower a rank which no step raises are no more than it can fall. -/
theorem Run.countP_add_rank_le {I : σ → Prop} {own : ℓ → Bool} {rank : σ → Nat}
    (keeps : ∀ {s l t}, ok s l → step s l = some t → I s → I t)
    (falls : ∀ {s l t}, ok s l → step s l = some t → I s → rank t + (own l).toNat ≤ rank s)
    {s t : σ} {ls : List ℓ} (h : Run step ok s ls t) (hs : I s) :
    ls.countP own + rank t ≤ rank s := by
  induction h with
  | nil s => simp
  | @cons s u t l ls hok hstep _ ih =>
    have hfirst := falls hok hstep hs
    have hrest := ih (keeps hok hstep hs)
    have hcount : (l :: ls).countP own = ls.countP own + (own l).toNat := by
      rw [List.countP_cons]
      cases own l <;> rfl
    omega

/-- A run read as a computation: the state it ends in, if every label is allowed and enabled. -/
def exec (step : σ → ℓ → Option σ) (ok : σ → ℓ → Prop) [∀ s l, Decidable (ok s l)] :
    σ → List ℓ → Option σ
  | s, [] => some s
  | s, l :: ls => if ok s l then (step s l).bind (exec step ok · ls) else none

theorem run_of_exec [∀ s l, Decidable (ok s l)] (ls : List ℓ) {s t : σ}
    (h : exec step ok s ls = some t) : Run step ok s ls t := by
  induction ls generalizing s with
  | nil => cases h; exact .nil _
  | cons l ls ih =>
    simp only [exec] at h
    split at h
    · rename_i hok
      obtain ⟨u, hu, hrest⟩ := Option.bind_eq_some_iff.mp h
      exact .cons hok hu (ih hrest)
    · cases h

/-- A computed run, with a property of its last state checked by evaluation. -/
theorem exists_run_of_exec (step : σ → ℓ → Option σ) (ok : σ → ℓ → Prop)
    [∀ s l, Decidable (ok s l)] (s : σ) (ls : List ℓ) (p : σ → Bool)
    (h : (exec step ok s ls).any p = true) : ∃ t, Run step ok s ls t ∧ p t = true := by
  cases ht : exec step ok s ls with
  | none => rw [ht] at h; cases h
  | some t => rw [ht] at h; exact ⟨t, run_of_exec ls ht, h⟩

end

/-! ## Sums over threads

What the threads hold together is a sum over their program counters; one thread's move changes
one summand. -/

theorem sum_update {ι α M : Type} [Fintype ι] [DecidableEq ι] [AddCommMonoid M]
    (g : α → M) (p : ι → α) (i : ι) (x : α) :
    ∑ j, g (Function.update p i x j) + g (p i) = ∑ j, g (p j) + g x := by
  have hrest : ∑ j ∈ Finset.univ.erase i, g (Function.update p i x j) =
      ∑ j ∈ Finset.univ.erase i, g (p j) :=
    Finset.sum_congr rfl fun j hj => by
      rw [Function.update_of_ne (Finset.ne_of_mem_erase hj)]
  rw [← Finset.add_sum_erase _ _ (Finset.mem_univ i), ← Finset.add_sum_erase _ _
    (Finset.mem_univ i), hrest, Function.update_self]
  ac_rfl

section
variable {ι α M : Type} [Fintype ι] [DecidableEq ι] [AddCommMonoid M] {g : α → M} {p : ι → α}
  {i : ι} {x : α}

/-- A thread that held nothing comes to hold something. -/
theorem sum_update_gain (h : g (p i) = 0) :
    ∑ j, g (Function.update p i x j) = ∑ j, g (p j) + g x := by
  rw [← sum_update, h, add_zero]

/-- A thread lets go of what it held. -/
theorem sum_update_lose (h : g x = 0) :
    ∑ j, g (Function.update p i x j) + g (p i) = ∑ j, g (p j) := by
  rw [sum_update, h, add_zero]

theorem sum_update_stay (h : g (p i) = 0) (hx : g x = 0) :
    ∑ j, g (Function.update p i x j) = ∑ j, g (p j) := by
  rw [sum_update_gain h, hx, add_zero]

end

/-- The same over a list of calls, in which the one that moves occurs once. -/
theorem sum_map_update {ι α : Type} [DecidableEq ι] (g : α → Nat) (p : ι → α) (x : α) {i : ι}
    {calls : List ι} (hnodup : calls.Nodup) (hi : i ∈ calls) :
    (calls.map fun j => g (Function.update p i x j)).sum + g (p i) =
      (calls.map fun j => g (p j)).sum + g x := by
  induction calls with
  | nil => cases hi
  | cons j calls ih =>
    rw [List.nodup_cons] at hnodup
    simp only [List.map_cons, List.sum_cons]
    by_cases he : j = i
    · subst he
      have hrest : calls.map (fun l => g (Function.update p j x l)) = calls.map fun l => g (p l) :=
        List.map_congr_left fun l hl => by
          rw [Function.update_of_ne (fun h : l = j => hnodup.1 (h ▸ hl))]
      rw [hrest, Function.update_self]
      omega
    · have hrest := ih hnodup.2 ((List.mem_cons.mp hi).resolve_left (Ne.symm he))
      rw [Function.update_of_ne he]
      omega

theorem sum_map_update_of_not_mem {ι α : Type} [DecidableEq ι] (g : α → Nat) (p : ι → α) (x : α)
    {i : ι} {calls : List ι} (hi : i ∉ calls) :
    (calls.map fun j => g (Function.update p i x j)).sum = (calls.map fun j => g (p j)).sum := by
  refine congrArg List.sum (List.map_congr_left fun l hl => ?_)
  rw [Function.update_of_ne (fun h : l = i => hi (h ▸ hl))]

end OppexSdk.Lib.Transition
