import OppexSdk.Lib.Transition

/-! # Simulation with observed events

A concrete step is read as the events an abstract system performs meanwhile: none for a step the
abstract system does not see, several for one that does the work of several. Where every step of
the concrete system is matched so, the events of a whole run are a run of the abstract one. -/
namespace OppexSdk.Lib.Simulation
open OppexSdk.Lib.Transition

variable {σ ℓ α ε : Type}

/-- The events of the steps `ls`, taken from `s` on. -/
def trace (step : σ → ℓ → Option σ) (observe : σ → ℓ → List ε) : σ → List ℓ → List ε
  | _, [] => []
  | s, l :: ls => observe s l ++ (step s l).elim [] fun t => trace step observe t ls

section
variable {step : σ → ℓ → Option σ} {observe : σ → ℓ → List ε} {ok : σ → ℓ → Prop} {s t : σ}
  {l : ℓ} {ls : List ℓ}

@[simp] theorem trace_nil : trace step observe s [] = [] := rfl

theorem trace_cons (h : step s l = some t) :
    trace step observe s (l :: ls) = observe s l ++ trace step observe t ls := by
  rw [trace, h]
  rfl

end

/-- Every step taken in a state with the invariant is matched, and the states stay related. -/
structure Simulates (step : σ → ℓ → Option σ) (ok : σ → ℓ → Prop) (astep : α → ε → Option α)
    (observe : σ → ℓ → List ε) (I : σ → Prop) (R : σ → α → Prop) : Prop where
  keeps : ∀ {s l t}, ok s l → step s l = some t → I s → I t
  matched : ∀ {s l t a}, ok s l → step s l = some t → I s → R s a →
    ∃ b, Run astep anyStep a (observe s l) b ∧ R t b

/-- **The simulation rule.** The observed events of a run are a run of the abstract system. -/
theorem Simulates.run {step : σ → ℓ → Option σ} {ok : σ → ℓ → Prop} {astep : α → ε → Option α}
    {observe : σ → ℓ → List ε} {I : σ → Prop} {R : σ → α → Prop}
    (hsim : Simulates step ok astep observe I R) {s t : σ} {ls : List ℓ} {a : α}
    (h : Run step ok s ls t) (hs : I s) (hr : R s a) :
    ∃ b, Run astep anyStep a (trace step observe s ls) b ∧ I t ∧ R t b := by
  induction h generalizing a with
  | nil s => exact ⟨a, .nil a, hs, hr⟩
  | cons hok hstep _ ih =>
    obtain ⟨b, hrun, hb⟩ := hsim.matched hok hstep hs hr
    obtain ⟨c, hrest, hc⟩ := ih (hsim.keeps hok hstep hs) hb
    rw [trace_cons hstep]
    exact ⟨c, hrun.append hrest, hc⟩

/-- One abstract event. -/
theorem run_one {astep : α → ε → Option α} {a b : α} {e : ε} (h : astep a e = some b) :
    Run astep anyStep a [e] b := .cons trivial h (.nil b)

/-- What is said of the events observed so far and of the state they lead to. -/
theorem trace_history {step : σ → ℓ → Option σ} {ok : σ → ℓ → Prop} {observe : σ → ℓ → List ε}
    {I : List ε → σ → Prop}
    (keeps : ∀ {es s l t}, ok s l → step s l = some t → I es s → I (es ++ observe s l) t)
    {s t : σ} {ls : List ℓ} (h : Run step ok s ls t) (hs : I [] s) :
    I (trace step observe s ls) t := by
  suffices hgen : ∀ before, I before s → I (before ++ trace step observe s ls) t from hgen [] hs
  clear hs
  induction h with
  | nil s =>
    intro before hs
    rwa [trace_nil, List.append_nil]
  | cons hok hstep _ ih =>
    intro before hs
    have hnext := ih _ (keeps hok hstep hs)
    rwa [List.append_assoc, ← trace_cons hstep] at hnext

/-- The labels of a run are what one observes who sees every label. -/
theorem trace_labels {step : σ → ℓ → Option σ} {ok : σ → ℓ → Prop} {s t : σ} {ls : List ℓ}
    (h : Run step ok s ls t) : trace step (fun _ l => [l]) s ls = ls := by
  induction h with
  | nil s => rfl
  | cons _ hstep _ ih => rw [trace_cons hstep, ih, List.singleton_append]

/-- What is said of the labels taken so far and of the state they lead to. -/
theorem run_history {step : σ → ℓ → Option σ} {ok : σ → ℓ → Prop} {I : List ℓ → σ → Prop}
    (keeps : ∀ {ls s l t}, ok s l → step s l = some t → I ls s → I (ls ++ [l]) t)
    {s t : σ} {ls : List ℓ} (h : Run step ok s ls t) (hs : I [] s) : I ls t := by
  have hhistory : I (trace step (fun _ l => [l]) s ls) t := trace_history keeps h hs
  rwa [trace_labels h] at hhistory

end OppexSdk.Lib.Simulation
