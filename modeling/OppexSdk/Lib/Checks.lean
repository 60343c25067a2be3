import Mathlib.Logic.Function.Basic

/-! # Chains of checks

A validator runs its checks in order and throws at the first that fails. `Decides` says of such a
computation when it returns, what it returns then, and what it throws otherwise; the rules follow
the `do` block, so that the condition of a validator is the conjunction of those of its checks.
`Yields` is for validators whose results carry what was checked: it says which values a computation
can return, and a validator built from such checks returns what all of them can. -/
namespace OppexSdk.Lib.Checks

variable {ε α β : Type}

/-- It returns `r` where `p` holds and throws an error of the kind `E` elsewhere. -/
structure Decides (x : Except ε α) (p : Prop) (r : α) (E : ε → Prop) : Prop where
  returns : p → x = .ok r
  throws : ¬ p → ∃ e, E e ∧ x = .error e

variable {x : Except ε α} {f : α → Except ε β} {p q : Prop} {a : α} {r : β} {E E' : ε → Prop}

theorem Decides.pure (a : α) : Decides (pure a : Except ε α) True a E :=
  ⟨fun _ => rfl, fun h => absurd trivial h⟩

/-- A check that guards the rest. -/
theorem Decides.ite [Decidable p] {e : ε} (he : E e) :
    Decides (if p then .ok () else .error e : Except ε Unit) p () E :=
  ⟨fun h => if_pos h, fun h => ⟨e, he, if_neg h⟩⟩

theorem Decides.bind (hx : Decides x p a E) (hf : Decides (f a) q r E) :
    Decides (x >>= f) (p ∧ q) r E := by
  refine ⟨?_, ?_⟩
  · intro h
    obtain ⟨hp, hq⟩ := h
    rw [hx.returns hp]
    exact hf.returns hq
  · intro h
    by_cases hp : p
    · have hq : ¬ q := fun hq => h ⟨hp, hq⟩
      obtain ⟨e, he, hthrow⟩ := hf.throws hq
      rw [hx.returns hp]
      exact ⟨e, he, hthrow⟩
    · obtain ⟨e, he, hthrow⟩ := hx.throws hp
      rw [hthrow]
      exact ⟨e, he, rfl⟩

theorem Decides.congr (h : Decides x p a E) (hpq : p ↔ q) : Decides x q a E :=
  ⟨fun hq => h.returns (hpq.mpr hq), fun hq => h.throws fun hp => hq (hpq.mp hp)⟩

/-! ## Checks that return what they checked -/

/-- The value with the proof that it passes, or the error. -/
def checked (p : α → Prop) [DecidablePred p] (e : ε) (a : α) : Except ε { a // p a } :=
  if h : p a then .ok ⟨a, h⟩ else .error e

/-- It returns exactly the values that satisfy `P`, and what it throws is of the kind `E`. -/
structure Yields (x : Except ε α) (P : α → Prop) (E : ε → Prop) : Prop where
  eq_ok : ∀ a, x = .ok a ↔ P a
  kind : ∀ e, x = .error e → E e

variable {P Q : α → Prop} {R : α → β → Prop}

theorem Yields.ok (a : α) : Yields (.ok a : Except ε α) (a = ·) E := by
  refine ⟨?_, ?_⟩
  · intro b
    exact Except.ok.injEq a b ▸ Iff.rfl
  · intro e h
    cases h

/-- It throws where nothing can be returned. -/
theorem Yields.error {e : ε} (he : E e) (hP : ∀ a, ¬ P a) : Yields (.error e : Except ε α) P E := by
  refine ⟨?_, ?_⟩
  · intro a
    exact ⟨fun h => (by cases h), fun h => absurd h (hP a)⟩
  · intro e' h
    cases h
    exact he

/-- The value is read off where it came from. -/
theorem Yields.checked {γ : Type} {p : α → Prop} [DecidablePred p] {e : ε} (he : E e) (a : α)
    {c : α → γ} (hc : Function.Injective c) :
    Yields (checked p e a) (fun t => c a = c t.val) E := by
  by_cases h : p a
  · rw [Checks.checked, dif_pos h]
    refine ⟨?_, ?_⟩
    · intro t
      rw [Except.ok.injEq, hc.eq_iff]
      exact Subtype.ext_iff
    · intro e' h
      cases h
  · rw [Checks.checked, dif_neg h]
    refine ⟨?_, ?_⟩
    · intro t
      constructor
      · intro ht
        cases ht
      · intro ht
        exact absurd (hc ht ▸ t.property) h
    · intro e' he'
      cases he'
      exact he

theorem Yields.guard [Decidable p] {e : ε} (he : E e) :
    Yields (if p then .ok () else .error e : Except ε Unit) (fun _ => p) E := by
  by_cases h : p
  · rw [if_pos h]
    exact ⟨fun _ => ⟨fun _ => h, fun _ => rfl⟩, fun _ he' => by cases he'⟩
  · rw [if_neg h]
    exact ⟨fun _ => ⟨fun hok => (by cases hok), fun hp => absurd hp h⟩,
      fun _ he' => by cases he'; exact he⟩

/-- A check that throws when its condition holds. -/
theorem Yields.unless [Decidable p] {e : ε} (he : E e) :
    Yields (if p then .error e else .ok () : Except ε Unit) (fun _ => ¬ p) E := by
  have hguard := Yields.guard (p := ¬ p) he
  rwa [ite_not] at hguard

theorem Yields.bind (hx : Yields x P E) (hf : ∀ a, P a → Yields (f a) (R a) E) :
    Yields (x >>= f) (fun b => ∃ a, P a ∧ R a b) E := by
  cases hxa : x with
  | error e =>
    refine ⟨?_, ?_⟩
    · intro b
      constructor
      · intro h
        cases h
      · rintro ⟨a, hp, -⟩
        rw [← hx.eq_ok, hxa] at hp
        cases hp
    · intro e' he
      cases he
      exact hx.kind e hxa
  | ok a =>
    have hp : P a := (hx.eq_ok a).mp hxa
    refine ⟨?_, (hf a hp).kind⟩
    intro b
    refine ((hf a hp).eq_ok b).trans ⟨fun hb => ⟨a, hp, hb⟩, ?_⟩
    rintro ⟨a', hp', hb⟩
    rw [← hx.eq_ok, hxa] at hp'
    cases hp'
    exact hb

/-- A check, and then the value it guards. -/
theorem Yields.thenReturn {x : Except ε Unit} (hx : Yields x (fun _ => p) E) (b : β) :
    Yields (do x; return b) (fun b' => p ∧ b' = b) E := by
  have hbind := Yields.bind hx fun _ _ => Yields.ok b
  refine ⟨?_, hbind.kind⟩
  intro b'
  refine (hbind.eq_ok b').trans ⟨?_, ?_⟩
  · rintro ⟨_, hp, rfl⟩
    exact ⟨hp, rfl⟩
  · rintro ⟨hp, rfl⟩
    exact ⟨(), hp, rfl⟩

theorem Yields.congr (h : Yields x P E) (hPQ : ∀ a, P a ↔ Q a) : Yields x Q E :=
  ⟨fun a => (h.eq_ok a).trans (hPQ a), h.kind⟩

end OppexSdk.Lib.Checks
