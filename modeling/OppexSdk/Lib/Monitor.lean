import OppexSdk.Lib.Interaction

/-! # What a program asks while it runs

A monitor sees the questions and answers of a run and keeps a state. `Watches` is the weakest
precondition with that state beside the outcome; a part whose questions leave the state as it is
falls back on the rules for `Always`. `Asks` bounds the questions of a program, whatever the
answers, and `asked` lists those of one run. -/
namespace OppexSdk.Lib.Interaction

variable {S : Signature} {ε α β τ σ : Type}

abbrev Monitor (S : Signature) (τ : Type) := τ → (q : S.Query) → S.Answer q → τ

/-- Whatever the environment answers, a return meets `P` and an exception meets `Q`, each with the
state that the monitor has then. -/
def Watches (host : Host S) (monitor : Monitor S τ) (P : τ → α → Prop) (Q : τ → ε → Prop) :
    Program S ε α → τ → Prop
  | .pure a, t => P t a
  | .throw e, t => Q t e
  | .ask q k, t => ∀ r, host.allows q r → Watches host monitor P Q (k r) (monitor t q r)

/-- Every question that the program may ask. -/
def Asks (p : S.Query → Prop) : Program S ε α → Prop
  | .pure _ => True
  | .throw _ => True
  | .ask q k => p q ∧ ∀ r, Asks p (k r)

/-- The questions of one run. -/
def Program.asked (handler : (q : S.Query) → σ → S.Answer q × σ) :
    Program S ε α → σ → List S.Query
  | pure _, _ => []
  | throw _, _ => []
  | ask q k, s => q :: (k (handler q s).1).asked handler (handler q s).2

/-! ## Monitors -/

section
variable {host : Host S} {monitor : Monitor S τ} {P P' : τ → α → Prop} {Q Q' : τ → ε → Prop}
variable {m : Program S ε α} {t : τ}

@[simp] theorem watches_pure (a : α) :
    Watches host monitor P Q (pure a : Program S ε α) t ↔ P t a := Iff.rfl

@[simp] theorem watches_throw (e : ε) : Watches host monitor P Q (.throw e) t ↔ Q t e := Iff.rfl

@[simp] theorem watches_bind {P : τ → β → Prop} (m : Program S ε α) (f : α → Program S ε β)
    (t : τ) : Watches host monitor P Q (m >>= f) t ↔
      Watches host monitor (fun t a => Watches host monitor P Q (f a) t) Q m t := by
  show Watches host monitor P Q (m.bind f) t ↔ _
  induction m generalizing t with
  | pure a => rfl
  | throw e => rfl
  | ask q k ih => exact forall_congr' fun r => imp_congr Iff.rfl (ih r _)

@[simp] theorem watches_tryCatch (m : Program S ε α) (handler : ε → Program S ε α) (t : τ) :
    Watches host monitor P Q (m.tryCatch handler) t ↔
      Watches host monitor P (fun t e => Watches host monitor P Q (handler e) t) m t := by
  induction m generalizing t with
  | pure a => rfl
  | throw e => rfl
  | ask q k ih => exact forall_congr' fun r => imp_congr Iff.rfl (ih r _)

@[simp] theorem watches_attempt {P : τ → Except ε α → Prop} (m : Program S ε α) (t : τ) :
    Watches host monitor P Q m.attempt t ↔
      Watches host monitor (fun t a => P t (.ok a)) (fun t e => P t (.error e)) m t := by
  induction m generalizing t with
  | pure a => rfl
  | throw e => rfl
  | ask q k ih => exact forall_congr' fun r => imp_congr Iff.rfl (ih r _)

@[simp] theorem watches_ite (c : Prop) [Decidable c] (m n : Program S ε α) :
    Watches host monitor P Q (if c then m else n) t ↔
      if c then Watches host monitor P Q m t else Watches host monitor P Q n t := by
  split <;> rfl

/-- A program whose questions leave the state as it is. -/
theorem Asks.watches (h : Asks (fun q => ∀ r, monitor t q r = t) m) :
    Watches host monitor P Q m t ↔ Always host (P t) (Q t) m := by
  induction m with
  | pure a => rfl
  | throw e => rfl
  | ask q k ih =>
    refine forall_congr' fun r => imp_congr Iff.rfl ?_
    rw [h.1 r]
    exact ih r (h.2 r)

/-- Against an environment with one answer to each question, the run decides. -/
theorem watches_of {answer : (q : S.Query) → S.Answer q} :
    Watches (Host.of answer) monitor P Q m t ↔
      match m.run (fun q t => (answer q, monitor t q (answer q))) t with
      | (.ok a, t) => P t a
      | (.error e, t) => Q t e := by
  induction m generalizing t with
  | pure a => rfl
  | throw e => rfl
  | ask q k ih =>
    refine ⟨fun h => (ih _).mp (h _ rfl), ?_⟩
    intro h r hr
    subst hr
    exact (ih _).mpr h

end

/-! ## Questions -/

section
variable {p p' : S.Query → Prop} {m : Program S ε α}

@[simp] theorem asks_pure (a : α) : Asks p (pure a : Program S ε α) := trivial

@[simp] theorem asks_throw (e : ε) : Asks p (.throw e : Program S ε α) := trivial

theorem Asks.bind {f : α → Program S ε β} (h : Asks p m) (hf : ∀ a, Asks p (f a)) :
    Asks p (m >>= f) := by
  show Asks p (m.bind f)
  induction m with
  | pure a => exact hf a
  | throw e => trivial
  | ask q k ih => exact ⟨h.1, fun r => ih r (h.2 r)⟩

theorem Asks.map (h : Asks p m) (f : α → β) : Asks p (f <$> m) := h.bind fun _ => trivial

theorem Asks.tryCatch {handler : ε → Program S ε α} (h : Asks p m)
    (hh : ∀ e, Asks p (handler e)) : Asks p (m.tryCatch handler) := by
  induction m with
  | pure a => trivial
  | throw e => exact hh e
  | ask q k ih => exact ⟨h.1, fun r => ih r (h.2 r)⟩

theorem Asks.ite {c : Prop} [Decidable c] {n : Program S ε α} (h : Asks p m) (h' : Asks p n) :
    Asks p (if c then m else n) := by
  split
  · exact h
  · exact h'

/-- Two branches that go on in the same way. -/
theorem Asks.ite_bind {c : Prop} [Decidable c] {n : Program S ε α} {f : α → Program S ε β}
    (h : Asks p m) (h' : Asks p n) (hf : ∀ a, Asks p (f a)) :
    Asks p (if c then m >>= f else n >>= f) := Asks.ite (h.bind hf) (h'.bind hf)

@[simp] theorem asks_ofExcept (x : Except ε α) : Asks p (Program.ofExcept x : Program S ε α) := by
  cases x <;> trivial

theorem Asks.mono (h : Asks p m) (hp : ∀ q, p q → p' q) : Asks p' m := by
  induction m with
  | pure a => trivial
  | throw e => trivial
  | ask q k ih => exact ⟨hp q h.1, fun r => ih r (h.2 r)⟩

variable {handler : (q : S.Query) → σ → S.Answer q × σ}

theorem Asks.asked (h : Asks p m) (s : σ) : ∀ q ∈ m.asked handler s, p q := by
  induction m generalizing s with
  | pure a => intro q hq; cases hq
  | throw e => intro q hq; cases hq
  | ask q k ih =>
    intro x hx
    rcases List.mem_cons.mp hx with rfl | hx
    · exact h.1
    · exact ih _ (h.2 _) _ x hx

/-- What is asked in a sequence: the first part, and the second if the first returns. -/
theorem asked_bind (m : Program S ε α) (f : α → Program S ε β) (s : σ) :
    (m >>= f).asked handler s = m.asked handler s ++
      match m.run handler s with
      | (.ok a, s) => (f a).asked handler s
      | (.error _, _) => [] := by
  show (m.bind f).asked handler s = _
  induction m generalizing s with
  | pure a => rfl
  | throw e => rfl
  | ask q k ih => exact congrArg (q :: ·) (ih _ _)

@[simp] theorem asked_attempt (m : Program S ε α) (s : σ) :
    m.attempt.asked handler s = m.asked handler s := by
  induction m generalizing s with
  | pure a => rfl
  | throw e => rfl
  | ask q k ih => exact congrArg (q :: ·) (ih _ _)

@[simp] theorem run_attempt (m : Program S ε α) (s : σ) :
    m.attempt.run handler s = (.ok (m.run handler s).1, (m.run handler s).2) := by
  induction m generalizing s with
  | pure a => rfl
  | throw e => rfl
  | ask q k ih => exact ih _ _

end

end OppexSdk.Lib.Interaction
