import Mathlib.Algebra.Order.Floor.Ring
import Mathlib.Data.Rat.Floor
import OppexSdk.Lib.FromChars

/-! # The exact number of a literal

What a literal denotes before anything is rounded, and what is left of it when it is truncated
toward zero. -/
namespace OppexSdk.Lib.FromChars
open OppexSdk.Lib.Binary64

/-- Without what comes after the point. -/
def truncate (q : ℚ) : Int := if 0 ≤ q then ⌊q⌋ else ⌈q⌉

/-- `-1` for a literal with a minus sign. -/
def sign (negative : Bool) : Int := if negative then -1 else 1

/-- The exact number of a literal. -/
def Decimal.toRat (d : Decimal) : ℚ :=
  sign d.negative * (digitsValue (d.whole ++ d.frac) * (10 : ℚ) ^ (d.exponent - d.frac.length))

/-- The exact number that a text stands for; zero when it does not start with a literal. -/
def literalValue (lit : Bytes) : ℚ := ((scan lit).map fun r => r.1.toRat).getD 0

/-- The double that `from_chars` stores for a literal; `none` when it is out of range. -/
def nearestDouble (lit : Bytes) : Option Finite := (scan lit).bind fun r => r.1.toDouble

/-! ## Truncation of ratios -/

theorem truncate_ratio (negative : Bool) (a b : Nat) :
    truncate (sign negative * ((a : ℚ) / b)) = sign negative * ((a / b : Nat) : Int) := by
  have hfloor : ⌊(a : ℚ) / b⌋ = ((a / b : Nat) : Int) := by
    rw [Int.natCast_div]
    exact Rat.floor_natCast_div_natCast a b
  have hnonneg : (0 : ℚ) ≤ (a : ℚ) / b := by positivity
  cases negative with
  | false => simp [truncate, sign, hnonneg, hfloor]
  | true =>
    simp only [truncate, sign, if_true]
    split
    · rename_i hle
      have hzero : (a : ℚ) / b = 0 := by push_cast at hle; linarith
      have hdiv : a / b = 0 := by
        have := hfloor
        rw [hzero, Int.floor_zero] at this
        exact_mod_cast this.symm
      simp [hzero, hdiv]
    · push_cast
      rw [neg_one_mul, Int.ceil_neg, hfloor, neg_one_mul]
      rfl

/-- A literal is rounded as a ratio of natural numbers. -/
theorem Decimal.exists_ratio (d : Decimal) : ∃ a b : Nat, 0 < b ∧
    d.toDouble = ofRatio d.negative a b ∧ d.toRat = sign d.negative * ((a : ℚ) / b) := by
  unfold Decimal.toDouble Decimal.toRat
  dsimp only
  split
  · rename_i hle
    refine ⟨_, 1, Nat.one_pos, rfl, ?_⟩
    obtain ⟨k, hk⟩ := Int.eq_ofNat_of_zero_le hle
    rw [hk]
    simp
  · rename_i hlt
    refine ⟨_, _, Nat.pow_pos (by decide), rfl, ?_⟩
    obtain ⟨k, hk⟩ := Int.eq_ofNat_of_zero_le (a := -(d.exponent - d.frac.length)) (by omega)
    have hexp : d.exponent - d.frac.length = -(k : Int) := by omega
    rw [hexp]
    simp [div_eq_mul_inv]

/-! ## Writing a double -/

theorem nearestDouble_written {negative : Bool} {n : Nat} {exp : Bytes}
    (hexp : Json.Exponent exp) :
    nearestDouble (writtenNumber negative n exp) =
      Decimal.toDouble ⟨negative, decimal n, [], (scanExponent exp).1⟩ := by
  rw [nearestDouble, scan_written negative n hexp, Option.bind_some]

/-- A whole number in decimal, which has no exponent. -/
theorem nearestDouble_whole {x : Finite} {n : Nat} (h : x.units = n * unitsPerOne) :
    nearestDouble (writtenNumber x.negative n []) = some x := by
  have hunits : n * unitsPerOne = x.units * 1 := by rw [h, Nat.mul_one]
  rw [nearestDouble_written (.inl rfl), ← ofRatio_exact x Nat.one_pos hunits]
  exact (toDouble_integer _ _).trans (by rw [digitsValue_decimal])

/-- All digits of a double: `2 ^ -1074` is `5 ^ 1074 * 10 ^ -1074`. -/
def allDigits (x : Finite) : Bytes := writtenNumber x.negative (x.units * 5 ^ 1074) (bytes "e-1074")

theorem exponent_smallest : Json.Exponent (bytes "e-1074") := by
  have hdigits : Json.Digits (bytes "1074") := List.all_eq_true.mp (by decide)
  exact .inr ⟨0x65, [0x2D], bytes "1074", by decide, .inl rfl, .inr (.inr rfl), hdigits, by decide⟩

theorem nearestDouble_allDigits (x : Finite) : nearestDouble (allDigits x) = some x := by
  have hexp : (scanExponent (bytes "e-1074")).1 = -((1074 : Nat) : Int) := by decide
  have hunits : x.units * 5 ^ 1074 * unitsPerOne = x.units * 10 ^ 1074 := by
    have hten : (10 : Nat) ^ 1074 = 5 ^ 1074 * 2 ^ 1074 := by rw [← Nat.mul_pow]
    rw [unitsPerOne_eq, Nat.mul_assoc, hten]
  have hexact := ofRatio_exact x (Nat.pow_pos (by decide)) hunits
  rw [allDigits, nearestDouble_written exponent_smallest, hexp]
  unfold Decimal.toDouble
  dsimp only
  rw [if_neg (by decide), List.append_nil, digitsValue_decimal]
  exact hexact

end OppexSdk.Lib.FromChars
