import OppexSdk.Cpp.ResponseCode

/-! # The limits of `AsInt`

The guard of `Value::AsInt` compares with the two limits of `std::int64_t` as doubles. The lower
one is exact. The upper one is `2 ^ 63 - 1`, which no double is: rounded to nearest it is `2 ^ 63`,
and that very number passes the guard. -/
namespace OppexSdk.Cpp.Wire
open OppexSdk.Lib OppexSdk.Lib.Binary64 OppexSdk.Lib.FromChars OppexSdk.Cpp.Json
open OppexSdk.Cpp.Json.Value (Cast castInt64)

/-- The range of `std::int64_t`. -/
def FitsInt64 (i : Int) : Prop := -2 ^ 63 ≤ i ∧ i ≤ 2 ^ 63 - 1

/-- `AsInt` returns something exactly for the doubles whose integer part is in range, and then the
integer part. -/
structure AsIntExact (x : Finite) : Prop where
  returns : (∃ c, (Value.number (.finite x)).asInt = some c) ↔ FitsInt64 (truncate x.toRat)
  exact : ∀ c, (Value.number (.finite x)).asInt = some c → c = .value (truncate x.toRat)

section
variable {x : Finite}

theorem truncate_toRat (x : Finite) : truncate x.toRat = x.trunc := by
  rw [toRat_eq, truncate_ratio, trunc_eq]

theorem abs_toRat (x : Finite) : |x.toRat| = (x.units : ℚ) / unitsPerOne := by
  have hnonneg : (0 : ℚ) ≤ (x.units : ℚ) / unitsPerOne := by positivity
  rw [toRat_eq, sign]
  split <;> simp [abs_of_nonneg hnonneg]

/-- No double lies between a limit and the next integer, so that what the guard refuses has an
integer part out of range. -/
theorem not_fits_of_beyond (h : 2 ^ 63 < |x.toRat|) : ¬ FitsInt64 x.trunc := by
  have hpos : (0 : ℚ) < unitsPerOne := by exact_mod_cast unitsPerOne_pos
  rw [abs_toRat, lt_div_iff₀ hpos] at h
  have hbeyond : 2 ^ 63 * unitsPerOne < x.units := by exact_mod_cast h
  have hlarge : 2 ^ 53 * unitsPerOne ≤ x.units :=
    (Nat.mul_le_mul_right _ (by decide)).trans hbeyond.le
  obtain ⟨n, hn⟩ := Finite.whole_of_large hlarge
  have hlt : 2 ^ 63 < n := by
    rw [hn] at hbeyond
    exact Nat.lt_of_mul_lt_mul_right hbeyond
  rw [Finite.trunc_of_units hn, FitsInt64]
  split <;> omega

theorem fits_of_guard (h : |x.toRat| ≤ 2 ^ 63) (hne : x.toRat ≠ 2 ^ 63) : FitsInt64 x.trunc := by
  have hcast := castInt64_of_guard h hne
  unfold castInt64 at hcast
  split at hcast
  · rename_i hfits
    exact hfits
  · cases hcast

end

/-- The double that `ParseNumber` stores for any literal. -/
theorem fromChars_finite (lit : Bytes) :
    (fromChars lit (.finite zero)).2 = .finite ((nearestDouble lit).getD zero) := by
  cases hscan : scan lit with
  | none => rw [fromChars, nearestDouble, hscan]; rfl
  | some r => exact fromChars_stored hscan

theorem asIntExact_of_ne {x : Finite} (hne : x.toRat ≠ 2 ^ 63) : AsIntExact x := by
  by_cases hbig : 2 ^ 63 < |x.toRat|
  · have hnone : (Value.number (.finite x)).asInt = none := by rw [asInt_finite, if_pos hbig]
    have hno := not_fits_of_beyond hbig
    rw [← truncate_toRat] at hno
    refine ⟨iff_of_false ?_ hno, ?_⟩
    · intro hex
      obtain ⟨c, hc⟩ := hex
      rw [hnone] at hc
      cases hc
    · intro c hc
      rw [hnone] at hc
      cases hc
  · have hguard := not_lt.mp hbig
    have hsome : (Value.number (.finite x)).asInt = some (.value (truncate x.toRat)) := by
      rw [asInt_finite, if_neg hbig, castInt64_of_guard hguard hne, truncate_toRat]
    have hfits := fits_of_guard hguard hne
    rw [← truncate_toRat] at hfits
    refine ⟨iff_of_true ⟨_, hsome⟩ hfits, ?_⟩
    intro c hc
    rw [hsome] at hc
    exact (Option.some.inj hc).symm

theorem asInt_of_limit {x : Finite} (h : x.toRat = 2 ^ 63) :
    (Value.number (.finite x)).asInt = some .undefined := by
  have habs : |x.toRat| = 2 ^ 63 := by rw [h, abs_of_pos (by norm_num)]
  rw [asInt_finite, if_neg (by rw [habs]; exact lt_irrefl _), castInt64_of_limit h]

/-- **`AsInt` is exact for every double but `2 ^ 63`**, and the cast is undefined for no number of
a body but the literals that are rounded to it. -/
theorem asInt_exact_iff (x : Finite) (lit : Bytes) :
    (AsIntExact x ↔ x.toRat ≠ 2 ^ 63) ∧
    ((Value.number (fromChars lit (.finite zero)).2).asInt ≠ some .undefined ↔
      (nearestDouble lit).map Finite.toRat ≠ some (2 ^ 63)) := by
  refine ⟨⟨?_, asIntExact_of_ne⟩, ?_⟩
  · intro h heq
    cases h.exact _ (asInt_of_limit heq)
  · rw [fromChars_finite]
    cases hx : nearestDouble lit with
    | none =>
      have hzero : zero.toRat = 0 := by simp [zero, Finite.toRat, Finite.units]
      have hexact : AsIntExact zero := asIntExact_of_ne (by rw [hzero]; norm_num)
      refine iff_of_true ?_ (by simp)
      intro h
      cases hexact.exact _ h
    | some x =>
      simp only [Option.getD_some, Option.map_some, ne_eq, Option.some.injEq]
      constructor
      · intro h heq
        exact h (asInt_of_limit heq)
      · intro hne h
        cases (asIntExact_of_ne hne).exact _ h

/-- `2 ^ 63` as a double. -/
def limit : Finite := powerOfTwo 1085 (by decide)

theorem limit_units : limit.units = 2 ^ 63 * unitsPerOne := units_powerOfTwo _ rfl

theorem fromChars_limit :
    fromChars (signedDecimal (2 ^ 63)) (.finite zero) = ([], .finite limit) := by
  have hdouble : Decimal.toDouble
      ⟨decide ((2 ^ 63 : Int) < 0), decimal (2 ^ 63 : Int).natAbs, [], 0⟩ = some limit := by
    rw [toDouble_integer, digitsValue_decimal]
    exact ofRatio_of_units limit_units.symm le_rfl (by decide) (by decide)
  exact fromChars_of_scan (scan_signedDecimal (2 ^ 63)) hdouble _

/-- A body with the code `2 ^ 63` takes the cast out of its range. -/
theorem limit_passes_the_guard : ¬ AsIntExact limit ∧
    ∃ response, parseResponse 200 (codeBody (2 ^ 63)) = .ok response ∧
      response.code = .undefined := by
  have hrat : limit.toRat = 2 ^ 63 := by
    rw [Finite.toRat_of_units limit_units, Finite.trunc_of_units limit_units]
    norm_num [limit]
  refine ⟨fun h => ?_, ?_⟩
  · cases h.exact _ (asInt_of_limit hrat)
  · obtain ⟨v, hv⟩ := codeBody_parses (2 ^ 63)
    obtain ⟨response, hresponse, hcode⟩ := parseResponse_of_code 200 hv
      (codeBody_document (2 ^ 63)) rfl
    refine ⟨response, hresponse, ?_⟩
    rw [hcode, codeOf, fromChars_limit, asInt_of_limit hrat]
    rfl

end OppexSdk.Cpp.Wire
