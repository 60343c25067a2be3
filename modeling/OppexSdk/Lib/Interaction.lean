import Mathlib.Logic.Basic

/-! # Programs that ask their environment

A program returns, throws, or asks a question and goes on with the answer. What its environment
may answer is a relation, so that an environment with a state of its own is one that may answer
differently each time. `Always` is the weakest precondition for both ways to end. -/
namespace OppexSdk.Lib.Interaction

structure Signature where
  Query : Type
  Answer : Query → Type

inductive Program (S : Signature) (ε α : Type)
  | pure (a : α)
  | throw (e : ε)
  | ask (q : S.Query) (k : S.Answer q → Program S ε α)

namespace Program
variable {S : Signature} {ε α β : Type}

protected def bind : Program S ε α → (α → Program S ε β) → Program S ε β
  | pure a, f => f a
  | throw e, _ => throw e
  | ask q k, f => ask q fun r => (k r).bind f

def tryCatch : Program S ε α → (ε → Program S ε α) → Program S ε α
  | pure a, _ => pure a
  | throw e, handler => handler e
  | ask q k, handler => ask q fun r => (k r).tryCatch handler

/-- The outcome as a value. -/
def attempt : Program S ε α → Program S ε (Except ε α)
  | pure a => pure (.ok a)
  | throw e => pure (.error e)
  | ask q k => ask q fun r => (k r).attempt

instance : Monad (Program S ε) where
  pure := pure
  bind := Program.bind

def query (q : S.Query) : Program S ε (S.Answer q) := ask q pure

def ofExcept : Except ε α → Program S ε α
  | .ok a => pure a
  | .error e => throw e

/-- What a call of an asynchronous function does before it first suspends. Its exceptions go into
the promise. -/
def start (suspends : S.Query → Bool) : Program S ε α → Program S ε Unit
  | pure _ => pure ()
  | throw _ => pure ()
  | ask q k => if suspends q then pure () else ask q fun r => (k r).start suspends

/-- Run against an environment that keeps a state. -/
def run {σ : Type} (handler : (q : S.Query) → σ → S.Answer q × σ) :
    Program S ε α → σ → Except ε α × σ
  | pure a, s => (.ok a, s)
  | throw e, s => (.error e, s)
  | ask q k, s => let (r, s) := handler q s; (k r).run handler s

/-- A return goes on, an exception stays. -/
def andThen {σ : Type} : Except ε α × σ → (α → σ → Except ε β × σ) → Except ε β × σ
  | (.ok a, s), f => f a s
  | (.error e, s), _ => (.error e, s)

theorem andThen_assoc {σ γ : Type} (x : Except ε α × σ) (f : α → σ → Except ε β × σ)
    (g : β → σ → Except ε γ × σ) :
    andThen (andThen x f) g = andThen x fun a s => andThen (f a s) g := by
  obtain ⟨r, s⟩ := x
  cases r <;> rfl

theorem run_bind {σ : Type} (handler : (q : S.Query) → σ → S.Answer q × σ) (m : Program S ε α)
    (f : α → Program S ε β) (s : σ) :
    (m >>= f).run handler s = andThen (m.run handler s) fun a => (f a).run handler := by
  show (m.bind f).run handler s = _
  induction m generalizing s with
  | pure a => rfl
  | throw e => rfl
  | ask q k ih => exact ih _ _

end Program

/-- What the environment may answer; it always answers. -/
structure Host (S : Signature) where
  allows : (q : S.Query) → S.Answer q → Prop
  answers : ∀ q, ∃ r, allows q r

/-- An environment with one answer to each question. -/
def Host.of {S : Signature} (answer : (q : S.Query) → S.Answer q) : Host S where
  allows q r := r = answer q
  answers q := ⟨answer q, rfl⟩

section
variable {S : Signature} {ε α β : Type} (host : Host S)

/-- Whatever the environment answers, a return meets `P` and an exception meets `Q`. -/
def Always (P : α → Prop) (Q : ε → Prop) : Program S ε α → Prop
  | .pure a => P a
  | .throw e => Q e
  | .ask q k => ∀ r, host.allows q r → Always P Q (k r)

/-- It returns, with a result that meets `P`. -/
def Returns (P : α → Prop) (m : Program S ε α) : Prop := Always host P (fun _ => False) m

/-- It never throws. -/
def Safe (m : Program S ε α) : Prop := Returns host (fun _ => True) m

/-- An exception, if it throws, meets `Q`. -/
def ThrowsOnly (Q : ε → Prop) (m : Program S ε α) : Prop := Always host (fun _ => True) Q m

/-- The environment can answer so that the program returns `a`. -/
def MayReturn (a : α) : Program S ε α → Prop
  | .pure b => b = a
  | .throw _ => False
  | .ask q k => ∃ r, host.allows q r ∧ MayReturn a (k r)

end

section
variable {S : Signature} {ε α β : Type} {host : Host S}
variable {P P' : α → Prop} {Q Q' : ε → Prop} {m : Program S ε α}

/-! ## The rules -/

@[simp] theorem always_pure (a : α) :
    Always host P Q (pure a : Program S ε α) ↔ P a := Iff.rfl

@[simp] theorem always_throw (e : ε) : Always host P Q (.throw e) ↔ Q e := Iff.rfl

@[simp] theorem always_query (q : S.Query) {P : S.Answer q → Prop} :
    Always host P Q (Program.query q) ↔ ∀ r, host.allows q r → P r := Iff.rfl

@[simp] theorem always_bind {P : β → Prop} (m : Program S ε α) (f : α → Program S ε β) :
    Always host P Q (m >>= f) ↔ Always host (fun a => Always host P Q (f a)) Q m := by
  show Always host P Q (m.bind f) ↔ _
  induction m with
  | pure a => rfl
  | throw e => rfl
  | ask q k ih => exact forall_congr' fun r => imp_congr Iff.rfl (ih r)

@[simp] theorem always_map {P : β → Prop} (m : Program S ε α) (f : α → β) :
    Always host P Q (f <$> m) ↔ Always host (fun a => P (f a)) Q m :=
  always_bind m _

@[simp] theorem always_tryCatch (m : Program S ε α) (handler : ε → Program S ε α) :
    Always host P Q (m.tryCatch handler) ↔
      Always host P (fun e => Always host P Q (handler e)) m := by
  induction m with
  | pure a => rfl
  | throw e => rfl
  | ask q k ih => exact forall_congr' fun r => imp_congr Iff.rfl (ih r)

@[simp] theorem always_attempt {P : Except ε α → Prop} (m : Program S ε α) :
    Always host P Q m.attempt ↔
      Always host (fun a => P (.ok a)) (fun e => P (.error e)) m := by
  induction m with
  | pure a => rfl
  | throw e => rfl
  | ask q k ih => exact forall_congr' fun r => imp_congr Iff.rfl (ih r)

@[simp] theorem always_ofExcept (x : Except ε α) :
    Always host P Q (Program.ofExcept x) ↔ (∀ a, x = .ok a → P a) ∧ ∀ e, x = .error e → Q e := by
  cases x <;> simp [Program.ofExcept, Always]

@[simp] theorem always_ite (c : Prop) [Decidable c] (m n : Program S ε α) :
    Always host P Q (if c then m else n) ↔
      if c then Always host P Q m else Always host P Q n := by
  split <;> rfl

theorem safe_start (suspends : S.Query → Bool) (m : Program S ε α) :
    Always host (fun _ => True) (fun _ => False) (m.start suspends) := by
  induction m with
  | pure a => trivial
  | throw e => trivial
  | ask q k ih =>
    simp only [Program.start]
    split
    · trivial
    · exact fun r _ => ih r

theorem Always.mono (h : Always host P Q m) (hP : ∀ a, P a → P' a) (hQ : ∀ e, Q e → Q' e) :
    Always host P' Q' m := by
  induction m with
  | pure a => exact hP a h
  | throw e => exact hQ e h
  | ask q k ih => exact fun r hr => ih r (h r hr)

theorem always_congr (hP : ∀ a, P a ↔ P' a) (hQ : ∀ e, Q e ↔ Q' e) :
    Always host P Q m ↔ Always host P' Q' m :=
  ⟨fun h => h.mono (fun a => (hP a).mp) fun e => (hQ e).mp,
    fun h => h.mono (fun a => (hP a).mpr) fun e => (hQ e).mpr⟩

theorem always_and : Always host (fun a => P a ∧ P' a) (fun e => Q e ∧ Q' e) m ↔
    Always host P Q m ∧ Always host P' Q' m := by
  induction m with
  | pure a => rfl
  | throw e => rfl
  | ask q k ih => simp only [Always, ih, forall_and]

/-- A program ends in some way. -/
theorem not_always_false : ¬ Always host (fun _ => False) (fun _ => False) m := by
  induction m with
  | pure a => exact id
  | throw e => exact id
  | ask q k ih =>
    intro h
    obtain ⟨r, hr⟩ := host.answers q
    exact ih r (h r hr)

theorem always_true : Always host (fun _ => True) (fun _ => True) m := by
  induction m with
  | pure a => trivial
  | throw e => trivial
  | ask q k ih => exact fun r _ => ih r

/-- What is returned is what may be returned. -/
theorem always_mayReturn : Always host (fun a => MayReturn host a m) (fun _ => True) m := by
  induction m with
  | pure a => rfl
  | throw e => trivial
  | ask q k ih =>
    intro r hr
    exact (ih r).mono (fun _ ha => ⟨r, hr, ha⟩) fun _ _ => trivial

/-- A postcondition of returns that every result meets. -/
theorem always_of_forall (h : ∀ a, P a) : Always host P (fun _ => True) m :=
  always_true.mono (fun a _ => h a) fun _ _ => trivial

/-- What does not depend on the outcome. -/
theorem always_const {c : Prop} : Always host (fun _ => c) (fun _ => c) m ↔ c := by
  by_cases hc : c
  · simp only [hc, iff_true]; exact always_true
  · simp only [hc, iff_false]; exact not_always_false

/-- A part of the postcondition that does not depend on the result. -/
theorem returns_and_const {c : Prop} :
    Returns host (fun a => P a ∧ c) m ↔ Returns host P m ∧ c := by
  constructor
  · intro h
    exact ⟨Always.mono h (fun _ h => h.1) fun _ h => h,
      always_const.mp (Always.mono h (fun _ h => h.2) fun _ => False.elim)⟩
  · intro ⟨h, hc⟩
    exact Always.mono h (fun _ h => ⟨h, hc⟩) fun _ h => h

/-- After a program that never throws. -/
theorem Safe.always_const (h : Safe host m) {c : Prop} : Always host (fun _ => c) Q m ↔ c := by
  constructor
  · intro hc
    have hboth := always_and.mpr ⟨hc, h⟩
    exact Interaction.always_const.mp (hboth.mono (fun _ h => h.1) fun _ h => h.2.elim)
  · intro hc
    exact Always.mono h (fun _ _ => hc) fun _ => False.elim

theorem returns_const {c : Prop} : Returns host (fun _ => c) m ↔ Safe host m ∧ c := by
  rw [Safe, ← returns_and_const]
  simp only [true_and]

/-- The two ways to end, one at a time. -/
theorem always_iff : Always host P Q m ↔
    Always host P (fun _ => True) m ∧ ThrowsOnly host Q m := by
  rw [ThrowsOnly, ← always_and]
  simp only [and_true, true_and]

theorem always_of {answer : (q : S.Query) → S.Answer q} :
    Always (Host.of answer) P Q m ↔
      match (m.run (fun q (_ : Unit) => (answer q, ())) ()).1 with
      | .ok a => P a
      | .error e => Q e := by
  induction m with
  | pure a => rfl
  | throw e => rfl
  | ask q k ih =>
    refine ⟨fun h => (ih _).mp (h _ rfl), ?_⟩
    intro h r hr
    subst hr
    exact (ih _).mpr h

end

end OppexSdk.Lib.Interaction
