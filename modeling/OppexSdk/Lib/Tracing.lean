import Mathlib.Tactic.Basic

/-! # Programs that leave a trace

A program over a state `σ` that reports events `ε`. It may run out of the fuel of its loops, and
then has no result. `Safely` says that it returns, that every event it has reported is allowed, and
what holds of its result; the rules below take a program apart along its text. -/
namespace OppexSdk.Lib.Tracing

variable {σ ε α β : Type}

structure Outcome (σ ε α : Type) where
  value : α
  state : σ
  events : List ε

/-- `none` when the fuel does not suffice. -/
def Prog (σ ε α : Type) : Type := σ → Option (Outcome σ ε α)

namespace Prog

def pure (a : α) : Prog σ ε α := fun s => some ⟨a, s, []⟩

def bind (m : Prog σ ε α) (f : α → Prog σ ε β) : Prog σ ε β := fun s =>
  (m s).bind fun r => (f r.value r.state).map fun r' => { r' with events := r.events ++ r'.events }

instance : Monad (Prog σ ε) where
  pure := Prog.pure
  bind := Prog.bind

/-- There is no fuel left. -/
def exhausted : Prog σ ε α := fun _ => none

def emit (e : ε) : Prog σ ε Unit := fun s => some ⟨(), s, [e]⟩

def get : Prog σ ε σ := fun s => some ⟨s, s, []⟩

def modify (f : σ → σ) : Prog σ ε Unit := fun s => some ⟨(), f s, []⟩

end Prog

/-- From `s` the program returns with `Q`, and reports only events that are `ok`. -/
def Safely (ok : ε → Prop) (m : Prog σ ε α) (s : σ) (Q : α → σ → Prop) : Prop :=
  ∃ r, m s = some r ∧ (∀ e ∈ r.events, ok e) ∧ Q r.value r.state

section
variable {ok : ε → Prop} {s : σ} {Q : α → σ → Prop}

theorem Safely.mono {m : Prog σ ε α} {P : α → σ → Prop} (h : Safely ok m s P)
    (himp : ∀ a s', P a s' → Q a s') : Safely ok m s Q := by
  obtain ⟨r, hr, hevents, hP⟩ := h
  exact ⟨r, hr, hevents, himp _ _ hP⟩

theorem safely_pure {a : α} (h : Q a s) : Safely ok (pure a) s Q :=
  ⟨⟨a, s, []⟩, rfl, List.forall_mem_nil _, h⟩

theorem Safely.bind {m : Prog σ ε β} {f : β → Prog σ ε α} {P : β → σ → Prop}
    (h : Safely ok m s P) (hf : ∀ b s', P b s' → Safely ok (f b) s' Q) :
    Safely ok (m >>= f) s Q := by
  obtain ⟨r, hr, hevents, hP⟩ := h
  obtain ⟨r', hr', hevents', hQ⟩ := hf _ _ hP
  refine ⟨{ r' with events := r.events ++ r'.events }, ?_, ?_, hQ⟩
  · show (m s).bind _ = _
    rw [hr, Option.bind_some, hr']
    rfl
  · intro e he
    exact (List.mem_append.mp he).elim (hevents e) (hevents' e)

end

/-! ## Programs with one result -/

/-- From `s` the program returns `a` in the state `t`, and reports only events that are `ok`. -/
def Does (ok : ε → Prop) (m : Prog σ ε α) (s : σ) (a : α) (t : σ) : Prop :=
  Safely ok m s fun b u => b = a ∧ u = t

section
variable {ok : ε → Prop} {s t : σ} {a : α}

theorem Does.safely {m : Prog σ ε α} {Q : α → σ → Prop} (h : Does ok m s a t) (hQ : Q a t) :
    Safely ok m s Q := by
  refine h.mono ?_
  rintro _ _ ⟨rfl, rfl⟩
  exact hQ

theorem Does.bind {m : Prog σ ε α} {f : α → Prog σ ε β} {Q : β → σ → Prop} (h : Does ok m s a t)
    (hf : Safely ok (f a) t Q) : Safely ok (m >>= f) s Q := by
  refine Safely.bind h ?_
  rintro _ _ ⟨rfl, rfl⟩
  exact hf

theorem does_pure : Does ok (pure a) s a s := safely_pure ⟨rfl, rfl⟩

theorem does_emit {e : ε} (he : ok e) : Does ok (Prog.emit e) s () s :=
  ⟨⟨(), s, [e]⟩, rfl, List.forall_mem_singleton.mpr he, rfl, rfl⟩

theorem does_get : Does ok (Prog.get : Prog σ ε σ) s s s :=
  ⟨⟨s, s, []⟩, rfl, List.forall_mem_nil _, rfl, rfl⟩

theorem does_modify {f : σ → σ} : Does ok (Prog.modify f) s () (f s) :=
  ⟨⟨(), f s, []⟩, rfl, List.forall_mem_nil _, rfl, rfl⟩

end

/-! ## Loops -/

/-- How one execution of a loop's body ends. -/
inductive Turn (β α : Type)
  | again (b : β)
  /-- The function that the loop is in returns. -/
  | leave (a : α)

/-- `while (cond) body; rest`, with the variables `b` of the loop. -/
def loop (cond : Prog σ ε Bool) (body : β → Prog σ ε (Turn β α)) (rest : β → Prog σ ε α) :
    Nat → β → Prog σ ε α
  | 0, _ => Prog.exhausted
  | fuel + 1, b => do
    if ← cond then
      match ← body b with
      | .again b' => loop cond body rest fuel b'
      | .leave a => pure a
    else rest b

/-- **The loop rule.** An invariant that every iteration keeps while a measure goes down. -/
theorem safely_loop {ok : ε → Prop} {cond : Prog σ ε Bool} {body : β → Prog σ ε (Turn β α)}
    {rest : β → Prog σ ε α} {Q : α → σ → Prop} (I : β → σ → Prop) (measure : σ → Nat)
    (hturn : ∀ b s, I b s → Safely ok cond s fun more s' =>
      if more then
        Safely ok (body b) s' fun turn s'' =>
          match turn with
          | .again b' => I b' s'' ∧ measure s'' < measure s
          | .leave a => Q a s''
      else Safely ok (rest b) s' Q)
    {fuel : Nat} {b : β} {s : σ} (hs : I b s) (hfuel : measure s < fuel) :
    Safely ok (loop cond body rest fuel b) s Q := by
  induction fuel generalizing b s with
  | zero => omega
  | succ fuel ih =>
    rw [loop]
    refine (hturn b s hs).bind ?_
    intro more s' hmore
    cases more with
    | false => simpa using hmore
    | true =>
      rw [if_pos rfl] at hmore
      refine hmore.bind ?_
      intro turn s'' hbody
      cases turn with
      | again b' => exact ih hbody.1 (by have := hbody.2; omega)
      | leave a => exact safely_pure hbody

end OppexSdk.Lib.Tracing
