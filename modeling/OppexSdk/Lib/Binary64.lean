import Mathlib.Data.Nat.Log
import Mathlib.Algebra.Order.Field.Rat
import Mathlib.Tactic.FieldSimp
import OppexSdk.Lib.Bytes

/-! # IEEE 754 binary64

A finite double is a significand below `2 ^ 53` times a power of two, in units of the smallest
subnormal. Rounding a ratio of natural numbers is to the nearest double, ties to an even
significand. -/
namespace OppexSdk.Lib.Binary64

/-- The value is `± significand * 2 ^ exponent` units of `2 ^ -1074`. -/
structure Finite where
  negative : Bool
  significand : Nat
  exponent : Nat
  below : significand < 2 ^ 53
  /-- Only the smallest exponent goes with a short significand. -/
  normal : 2 ^ 52 ≤ significand ∨ exponent = 0
  inRange : exponent ≤ 2045
  deriving DecidableEq

inductive Double
  | finite (x : Finite)
  | infinite (negative : Bool)
  | nan
  deriving DecidableEq

/-- How many units of `2 ^ -1074` the magnitude is. -/
def Finite.units (x : Finite) : Nat := x.significand * 2 ^ x.exponent

@[irreducible] def unitsPerOne : Nat := 2 ^ 1074

theorem unitsPerOne_eq : unitsPerOne = 2 ^ 1074 := by
  unfold unitsPerOne
  rfl

/-- The exact number. -/
def Finite.toRat (x : Finite) : ℚ :=
  (if x.negative then -1 else 1) * ((x.units : ℚ) / (unitsPerOne : ℚ))

/-- The number truncated toward zero. -/
def Finite.trunc (x : Finite) : Int :=
  (if x.negative then -1 else 1) * ((x.units / unitsPerOne : Nat) : Int)

def zero : Finite := ⟨false, 0, 0, by decide, .inr rfl, by decide⟩

/-- The normal double `2 ^ (52 + exponent)` units large. -/
def powerOfTwo (exponent : Nat) (h : exponent ≤ 2045) : Finite :=
  ⟨false, 2 ^ 52, exponent, by decide, .inl le_rfl, h⟩

@[simp] theorem negative_powerOfTwo {exponent : Nat} (h : exponent ≤ 2045) :
    (powerOfTwo exponent h).negative = false := rfl

theorem units_powerOfTwo {k exponent : Nat} (h : exponent ≤ 2045) (hk : 52 + exponent = k + 1074) :
    (powerOfTwo exponent h).units = 2 ^ k * unitsPerOne := by
  rw [unitsPerOne_eq, ← Nat.pow_add, ← hk, Nat.pow_add]
  rfl

/-- `n / d` to the nearest integer, ties to even. -/
def roundHalfEven (n d : Nat) : Nat :=
  let k := n / d
  let r := n % d
  if d < 2 * r ∨ (2 * r = d ∧ k % 2 = 1) then k + 1 else k

theorem roundHalfEven_mul (k : Nat) {d : Nat} (hd : 0 < d) : roundHalfEven (k * d) d = k := by
  unfold roundHalfEven
  simp only [Nat.mul_div_cancel k hd, Nat.mul_mod_left, Nat.mul_zero]
  rw [if_neg]
  omega

/-- The double nearest to `± a / b`; `none` when the rounded magnitude is not finite. -/
def ofRatio (negative : Bool) (a b : Nat) : Option Finite :=
  let n := a * unitsPerOne
  let exponent := Nat.log 2 (n / b) - 52
  let significand := roundHalfEven n (b * 2 ^ exponent)
  if h : significand < 2 ^ 53 ∧ (2 ^ 52 ≤ significand ∨ exponent = 0) ∧ exponent ≤ 2045 then
    some ⟨negative, significand, exponent, h.1, h.2.1, h.2.2⟩
  else if h : exponent < 2045 then
    -- the significand was rounded up to `2 ^ 53`
    some ⟨negative, 2 ^ 52, exponent + 1, by decide, .inl le_rfl, h⟩
  else none

/-! ## What is a double is exact -/

theorem log_mul_two_pow {n : Nat} (h : n ≠ 0) (k : Nat) :
    Nat.log 2 (n * 2 ^ k) = Nat.log 2 n + k := by
  refine Nat.log_eq_of_pow_le_of_lt_pow ?_ ?_
  · rw [Nat.pow_add]
    exact Nat.mul_le_mul_right _ (Nat.pow_log_le_self 2 h)
  · rw [Nat.add_right_comm, Nat.pow_add]
    exact Nat.mul_lt_mul_of_pos_right (Nat.lt_pow_succ_log_self (by decide) n)
      (Nat.two_pow_pos k)

/-- A ratio that is a double is rounded to it. -/
theorem ofRatio_exact (x : Finite) {a b : Nat} (hb : 0 < b) (h : a * unitsPerOne = x.units * b) :
    ofRatio x.negative a b = some x := by
  have hquot : a * unitsPerOne / b = x.units := by rw [h, Nat.mul_div_cancel _ hb]
  have hexp : Nat.log 2 x.units - 52 = x.exponent := by
    rcases Nat.eq_zero_or_pos x.significand with hzero | hpos
    · have hsub : x.exponent = 0 := x.normal.resolve_left (by rw [hzero]; decide)
      rw [Finite.units, hzero, Nat.zero_mul, Nat.log_zero_right, hsub]
    · have hlog : Nat.log 2 x.significand ≤ 52 :=
        Nat.le_of_lt_succ (Nat.log_lt_of_lt_pow hpos.ne' x.below)
      rw [Finite.units, log_mul_two_pow hpos.ne']
      rcases x.normal with hnormal | hsub
      · have hfull : Nat.log 2 x.significand = 52 :=
          Nat.log_eq_of_pow_le_of_lt_pow hnormal x.below
        omega
      · omega
  have hround : roundHalfEven (a * unitsPerOne) (b * 2 ^ x.exponent) = x.significand := by
    rw [h, Finite.units, Nat.mul_assoc, Nat.mul_comm (2 ^ x.exponent)]
    exact roundHalfEven_mul _ (Nat.mul_pos hb (Nat.two_pow_pos _))
  unfold ofRatio
  simp only [hquot, hexp, hround]
  rw [dif_pos ⟨x.below, x.normal, x.inRange⟩]

/-- A ratio that is a significand of full length at the exponent of its magnitude is exact. -/
theorem ofRatio_of_units {negative : Bool} {n m e : Nat} (hn : n * unitsPerOne = m * 2 ^ e)
    (hlow : 2 ^ 52 ≤ m) (hhigh : m < 2 ^ 53) (he : e ≤ 2045) :
    ofRatio negative n 1 = some ⟨negative, m, e, hhigh, .inl hlow, he⟩ :=
  ofRatio_exact ⟨negative, m, e, hhigh, .inl hlow, he⟩ Nat.one_pos (hn.trans (Nat.mul_one _).symm)

theorem ofRatio_nat (negative : Bool) {n : Nat} (h : n ≤ 2 ^ 53) :
    ∃ x, ofRatio negative n 1 = some x ∧ x.negative = negative ∧ x.units = n * unitsPerOne := by
  rcases Nat.eq_zero_or_pos n with rfl | hpos
  · refine ⟨⟨negative, 0, 0, by decide, .inr rfl, by decide⟩, ?_, rfl, by simp [Finite.units]⟩
    simp [ofRatio, roundHalfEven]
  rcases Nat.lt_or_eq_of_le h with hlt | rfl
  · have hne : n ≠ 0 := hpos.ne'
    have hlog : Nat.log 2 n ≤ 52 := Nat.le_of_lt_succ (Nat.log_lt_of_lt_pow hne hlt)
    have hscale : n * unitsPerOne =
        n * 2 ^ (52 - Nat.log 2 n) * 2 ^ (Nat.log 2 n + 1022) := by
      have hexp : 52 - Nat.log 2 n + (Nat.log 2 n + 1022) = 1074 := by omega
      rw [Nat.mul_assoc, ← Nat.pow_add, hexp, unitsPerOne_eq]
    have hlow : 2 ^ 52 ≤ n * 2 ^ (52 - Nat.log 2 n) := by
      calc 2 ^ 52 = 2 ^ Nat.log 2 n * 2 ^ (52 - Nat.log 2 n) := by
            rw [← Nat.pow_add, Nat.add_sub_cancel' hlog]
        _ ≤ _ := Nat.mul_le_mul_right _ (Nat.pow_log_le_self 2 hne)
    have hhigh : n * 2 ^ (52 - Nat.log 2 n) < 2 ^ 53 := by
      calc n * 2 ^ (52 - Nat.log 2 n)
          < 2 ^ (Nat.log 2 n + 1) * 2 ^ (52 - Nat.log 2 n) :=
            Nat.mul_lt_mul_of_pos_right (Nat.lt_pow_succ_log_self (by decide) n)
              (Nat.two_pow_pos _)
        _ = 2 ^ 53 := by
            have hexp : Nat.log 2 n + 1 + (52 - Nat.log 2 n) = 53 := by omega
            rw [← Nat.pow_add, hexp]
    exact ⟨_, ofRatio_of_units hscale hlow hhigh (by omega), rfl, hscale.symm⟩
  · have hscale : 2 ^ 53 * unitsPerOne = 2 ^ 52 * 2 ^ 1075 := by
      have hexp : 53 + 1074 = 52 + 1075 := rfl
      rw [unitsPerOne_eq, ← Nat.pow_add, hexp, Nat.pow_add]
    exact ⟨_, ofRatio_of_units hscale le_rfl (by decide) (by decide), rfl, hscale.symm⟩

theorem unitsPerOne_pos : 0 < unitsPerOne := by
  unfold unitsPerOne
  exact Nat.pow_pos Nat.two_pos

theorem Finite.trunc_of_units {x : Finite} {n : Nat} (h : x.units = n * unitsPerOne) :
    x.trunc = (if x.negative then -1 else 1) * (n : Int) := by
  rw [Finite.trunc, h, Nat.mul_div_cancel n unitsPerOne_pos]

/-- From `2 ^ 53` on there is nothing after the point. -/
theorem Finite.whole_of_large {x : Finite} (h : 2 ^ 53 * unitsPerOne ≤ x.units) :
    ∃ n, x.units = n * unitsPerOne := by
  have hexp : 1074 ≤ x.exponent := by
    refine Nat.le_of_not_lt fun hlt => ?_
    have hle : 2 ^ x.exponent ≤ unitsPerOne := by
      rw [unitsPerOne_eq]
      exact Nat.pow_le_pow_right Nat.two_pos hlt.le
    have hsmall : x.units < 2 ^ 53 * unitsPerOne :=
      calc x.units < 2 ^ 53 * 2 ^ x.exponent :=
            Nat.mul_lt_mul_of_pos_right x.below (Nat.two_pow_pos _)
        _ ≤ 2 ^ 53 * unitsPerOne := Nat.mul_le_mul_left _ hle
    exact Nat.not_le.mpr hsmall h
  refine ⟨x.significand * 2 ^ (x.exponent - 1074), ?_⟩
  rw [Finite.units, unitsPerOne_eq, Nat.mul_assoc, ← Nat.pow_add, Nat.sub_add_cancel hexp]

/-- A whole number is its own truncation. -/
theorem Finite.toRat_of_units {x : Finite} {n : Nat} (h : x.units = n * unitsPerOne) :
    x.toRat = (x.trunc : ℚ) := by
  have hne : (unitsPerOne : ℚ) ≠ 0 := by exact_mod_cast unitsPerOne_pos.ne'
  rw [Finite.trunc_of_units h, Finite.toRat, h, Nat.cast_mul, mul_div_cancel_right₀ _ hne]
  split <;> push_cast <;> rfl

/-! ## How far rounding can go -/

theorem roundHalfEven_le {n d k : Nat} (hd : 0 < d) (h : n ≤ k * d) : roundHalfEven n d ≤ k := by
  have hle : n / d ≤ k := Nat.div_le_of_le_mul (by rwa [Nat.mul_comm])
  have hsplit := Nat.div_add_mod n d
  unfold roundHalfEven
  dsimp only
  split
  · rename_i hup
    -- rounding up from `k` itself would need a remainder
    refine Nat.succ_le_of_lt (Nat.lt_of_le_of_ne hle ?_)
    intro heq
    rw [heq, Nat.mul_comm] at hsplit
    omega
  · exact hle

theorem ofRatio_negative {negative : Bool} {a b : Nat} {x : Finite}
    (h : ofRatio negative a b = some x) : x.negative = negative := by
  unfold ofRatio at h
  dsimp only at h
  split at h
  · cases h; rfl
  · split at h
    · cases h; rfl
    · cases h

/-- A rounded quotient that is no significand at the exponent of its magnitude was rounded up to
`2 ^ 53`. -/
theorem rounded_up {n b e : Nat} (he : e = Nat.log 2 (n / b) - 52) (hlt : e < 2045)
    (hno : ¬ (roundHalfEven n (b * 2 ^ e) < 2 ^ 53 ∧
      (2 ^ 52 ≤ roundHalfEven n (b * 2 ^ e) ∨ e = 0) ∧ e ≤ 2045)) :
    2 ^ 53 ≤ roundHalfEven n (b * 2 ^ e) := by
  by_contra hshort
  refine hno ⟨Nat.lt_of_not_le hshort, ?_, hlt.le⟩
  by_cases hzero : e = 0
  · exact .inr hzero
  · -- above the smallest exponent the quotient has 53 binary digits before it is rounded
    have hlog : Nat.log 2 (n / b) = e + 52 := by omega
    have hne : n / b ≠ 0 := by
      intro hz
      rw [hz, Nat.log_zero_right] at hlog
      omega
    have hpow : 2 ^ (e + 52) ≤ n / b := hlog ▸ Nat.pow_log_le_self 2 hne
    have hdiv : 2 ^ 52 ≤ n / (b * 2 ^ e) := by
      rw [← Nat.div_div_eq_div_mul, Nat.le_div_iff_mul_le (Nat.two_pow_pos e),
        ← Nat.pow_add, Nat.add_comm 52 e]
      exact hpow
    refine .inl (hdiv.trans ?_)
    unfold roundHalfEven
    dsimp only
    split <;> omega

theorem ofRatio_units_le {negative : Bool} {a b : Nat} {x : Finite}
    (h : ofRatio negative a b = some x) :
    x.units ≤ roundHalfEven (a * unitsPerOne)
        (b * 2 ^ (Nat.log 2 (a * unitsPerOne / b) - 52)) *
      2 ^ (Nat.log 2 (a * unitsPerOne / b) - 52) := by
  have hunits (e : Nat) : (2 : Nat) ^ 52 * 2 ^ (e + 1) = 2 ^ 53 * 2 ^ e := by
    rw [← Nat.pow_add, ← Nat.pow_add, Nat.add_comm e 1, ← Nat.add_assoc]
  unfold ofRatio at h
  dsimp only at h
  split at h
  · cases h
    exact le_rfl
  · rename_i hno
    split at h
    · rename_i hlt
      cases h
      rw [Finite.units, hunits]
      exact Nat.mul_le_mul_right _ (rounded_up rfl hlt hno)
    · cases h

/-- A ratio of at most an integer below `2 ^ 53` is rounded to no more than that. -/
theorem units_le_of_ratio_le {negative : Bool} {a b k : Nat} {x : Finite} (hb : 0 < b)
    (hk : k < 2 ^ 53) (h : ofRatio negative a b = some x) (hle : a ≤ k * b) :
    x.units ≤ k * unitsPerOne := by
  have hquot : a * unitsPerOne / b ≤ k * unitsPerOne := by
    refine Nat.div_le_of_le_mul ?_
    calc a * unitsPerOne ≤ k * b * unitsPerOne := Nat.mul_le_mul_right _ hle
      _ = b * (k * unitsPerOne) := by ring
  have hexp : Nat.log 2 (a * unitsPerOne / b) - 52 ≤ 1074 := by
    have hlt : a * unitsPerOne / b < 2 ^ 1127 := by
      refine Nat.lt_of_le_of_lt hquot ?_
      rw [unitsPerOne_eq]
      calc k * 2 ^ 1074 < 2 ^ 53 * 2 ^ 1074 :=
            Nat.mul_lt_mul_of_pos_right hk (Nat.two_pow_pos _)
        _ = 2 ^ 1127 := by rw [← Nat.pow_add]
    have hlog : Nat.log 2 (a * unitsPerOne / b) < 1127 :=
      Nat.log_lt_of_lt_pow' (by decide) hlt
    omega
  generalize hd : Nat.log 2 (a * unitsPerOne / b) - 52 = e at hexp
  have hsplit : k * unitsPerOne = k * 2 ^ (1074 - e) * 2 ^ e := by
    rw [Nat.mul_assoc, ← Nat.pow_add, Nat.sub_add_cancel hexp, unitsPerOne_eq]
  refine (ofRatio_units_le h).trans ?_
  rw [hd, hsplit]
  refine Nat.mul_le_mul_right _ (roundHalfEven_le (Nat.mul_pos hb (Nat.two_pow_pos e)) ?_)
  calc a * unitsPerOne ≤ k * b * unitsPerOne := Nat.mul_le_mul_right _ hle
    _ = k * unitsPerOne * b := by ring
    _ = k * 2 ^ (1074 - e) * (b * 2 ^ e) := by rw [hsplit]; ring

/-- A ratio that is out of range is at least one. -/
theorem le_of_ofRatio_none {negative : Bool} {a b : Nat} (h : ofRatio negative a b = none) :
    b ≤ a := by
  unfold ofRatio at h
  dsimp only at h
  split at h
  · cases h
  · split at h
    · cases h
    · rename_i hexp
      have hlog : 2097 ≤ Nat.log 2 (a * unitsPerOne / b) := by omega
      have hne : a * unitsPerOne / b ≠ 0 := by
        intro hz
        rw [hz, Nat.log_zero_right] at hlog
        omega
      have hpow : 2 ^ 2097 ≤ a * unitsPerOne / b :=
        (Nat.pow_le_pow_right Nat.two_pos hlog).trans (Nat.pow_log_le_self 2 hne)
      have hone : unitsPerOne ≤ a * unitsPerOne / b := by
        rw [unitsPerOne_eq] at hpow ⊢
        exact (Nat.pow_le_pow_right Nat.two_pos (by decide)).trans hpow
      have hb : 0 < b := by
        by_contra hz
        rw [Nat.eq_zero_of_not_pos hz, Nat.div_zero] at hne
        exact hne rfl
      have hmul := (Nat.le_div_iff_mul_le hb).mp hone
      rw [Nat.mul_comm] at hmul
      exact Nat.le_of_mul_le_mul_right hmul unitsPerOne_pos

end OppexSdk.Lib.Binary64
