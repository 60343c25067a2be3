import OppexSdk.Cpp.ErrorText
import OppexSdk.Lib.DecimalValue

/-! # The code of a C++ response

A `code` in the body goes through `std::from_chars`, `AsInt` and a cast to `int`. The first leaves
a zero behind when the number is out of the range of a double, the second lets `2 ^ 63` through,
and the third drops all but 32 bits. -/
namespace OppexSdk.Cpp.Wire
open OppexSdk.Lib OppexSdk.Lib.Binary64 OppexSdk.Lib.FromChars OppexSdk.Cpp.Json
open OppexSdk.Cpp.Json.Value (Cast castInt64)
open OppexSdk.Lib.Json (Item Tree Document AllMembers)

/-- The range of `int`. -/
def FitsInt (i : Int) : Prop := -2 ^ 31 ≤ i ∧ i ≤ 2 ^ 31 - 1

/-- The code is the HTTP status or the number of the body truncated toward zero, and the status
when the latter is no `int`. -/
structure CodeOf (httpStatus : Int) (q : ℚ) (code : Cast) : Prop where
  known : code = .value httpStatus ∨ code = .value (truncate q)
  outside : ¬ FitsInt (truncate q) → code = .value httpStatus

/-- Which numbers are read right. With `x` the double nearest to the literal: `AsInt` gives up on
`x`, or `x` has the integer part of the number and it fits. For some status the bits that are left
of another number happen to be the status itself. -/
def ReadsRight (httpStatus : Int) (lit : Bytes) : Prop :=
  match nearestDouble lit with
  | none => httpStatus = 0
  | some x => 2 ^ 63 < |x.toRat| ∨ x.toRat ≠ 2 ^ 63 ∧
      (x.trunc.bmod (2 ^ 32) = httpStatus ∨
        FitsInt x.trunc ∧ x.trunc = truncate (literalValue lit))

/-! ## Doubles and the guard of `AsInt` -/

section
variable {x : Finite}

theorem trunc_eq (x : Finite) :
    x.trunc = sign x.negative * ((x.units / unitsPerOne : Nat) : Int) := rfl

theorem toRat_eq (x : Finite) :
    x.toRat = sign x.negative * ((x.units : ℚ) / (unitsPerOne : ℚ)) := by
  unfold Finite.toRat sign
  split <;> simp

theorem units_le_of_toRat {k : Nat} (h : |x.toRat| ≤ k) : x.units / unitsPerOne ≤ k := by
  have hpos : (0 : ℚ) < unitsPerOne := by exact_mod_cast unitsPerOne_pos
  have hsign : |(sign x.negative : ℚ)| = 1 := by
    unfold sign
    split <;> simp
  rw [toRat_eq, abs_mul, hsign, one_mul, abs_of_nonneg (by positivity), div_le_iff₀ hpos] at h
  exact Nat.div_le_of_le_mul (by rw [Nat.mul_comm]; exact_mod_cast h)

/-- Inside the guard the cast is defined, except at the upper limit. -/
theorem castInt64_of_guard (h : |x.toRat| ≤ 2 ^ 63) (hne : x.toRat ≠ 2 ^ 63) :
    castInt64 x = .value x.trunc := by
  have hle : x.units / unitsPerOne ≤ 2 ^ 63 := units_le_of_toRat (by exact_mod_cast h)
  refine if_pos ?_
  rw [trunc_eq]
  cases hneg : x.negative with
  | true =>
    generalize x.units / unitsPerOne = part at hle
    simp only [sign, if_true]
    omega
  | false =>
    have hlt : x.units / unitsPerOne < 2 ^ 63 := by
      refine Nat.lt_of_le_of_ne hle ?_
      intro heq
      -- the integer part is the limit already, so that there is nothing after the point
      refine hne (le_antisymm ((le_abs_self _).trans h) ?_)
      have hpos : (0 : ℚ) < unitsPerOne := by exact_mod_cast unitsPerOne_pos
      have hmul : 2 ^ 63 * unitsPerOne ≤ x.units := heq ▸ Nat.div_mul_le_self _ _
      rw [toRat_eq, hneg]
      simp only [sign, if_false, Bool.false_eq_true, Int.cast_one, one_mul]
      rw [le_div_iff₀ hpos]
      exact_mod_cast hmul
    generalize x.units / unitsPerOne = part at hlt
    simp only [sign, if_false, Bool.false_eq_true, one_mul]
    omega

theorem castInt64_of_limit (h : x.toRat = 2 ^ 63) : castInt64 x = .undefined := by
  have hpos : (0 : ℚ) < unitsPerOne := by exact_mod_cast unitsPerOne_pos
  have hneg : x.negative = false := by
    by_contra hneg
    rw [Bool.not_eq_false] at hneg
    rw [toRat_eq, hneg] at h
    have hnonneg : (0 : ℚ) ≤ (x.units : ℚ) / unitsPerOne := by positivity
    simp only [sign, if_true, Int.cast_neg, Int.cast_one, neg_one_mul] at h
    linarith
  rw [toRat_eq, hneg] at h
  simp only [sign, if_false, Bool.false_eq_true, Int.cast_one, one_mul] at h
  rw [div_eq_iff hpos.ne'] at h
  have hunits : x.units = 2 ^ 63 * unitsPerOne := by exact_mod_cast h
  refine if_neg ?_
  rw [Finite.trunc_of_units hunits, hneg]
  simp

theorem asInt_finite (x : Finite) :
    (Value.number (.finite x)).asInt = if 2 ^ 63 < |x.toRat| then none else some (castInt64 x) := by
  have hguard : (x.toRat < -2 ^ 63 ∨ x.toRat > 2 ^ 63) ↔ 2 ^ 63 < |x.toRat| := by
    rw [lt_abs, gt_iff_lt, or_comm]
    exact or_congr_right ⟨fun h => by linarith, fun h => by linarith⟩
  simp only [Value.asInt, hguard]

end

/-! ## Narrowing -/

theorem bmod_of_fits {i : Int} (h : FitsInt i) : i.bmod (2 ^ 32) = i := by
  unfold FitsInt at h
  exact Int.bmod_eq_of_le (by omega) (by omega)

theorem fits_bmod (i : Int) : FitsInt (i.bmod (2 ^ 32)) := by
  have hlow := Int.le_bmod (x := i) (m := 2 ^ 32) (by decide)
  have hhigh := Int.bmod_lt (x := i) (m := 2 ^ 32) (by decide)
  unfold FitsInt
  omega

/-- What narrowing leaves of an integer part that is no `int` is not the integer part of the
literal: rounding takes a number by at most one past the limits. -/
theorem bmod_ne_of_not_fits {lit : Bytes} {x : Finite} (hx : nearestDouble lit = some x)
    (hfits : ¬ FitsInt x.trunc) : x.trunc.bmod (2 ^ 32) ≠ truncate (literalValue lit) := by
  obtain ⟨⟨d, rest⟩, hscan, hd⟩ := Option.bind_eq_some_iff.mp hx
  obtain ⟨a, b, hb, hdouble, hrat⟩ := d.exists_ratio
  dsimp only at hd
  rw [hdouble] at hd
  have hvalue : truncate (literalValue lit) = sign x.negative * ((a / b : Nat) : Int) := by
    rw [literalValue, hscan, Option.map_some, Option.getD_some, hrat, truncate_ratio,
      ofRatio_negative hd]
  have hbound {k : Nat} (hk : k < 2 ^ 53) (hle : a / b < k) : x.units / unitsPerOne ≤ k := by
    have hmul : a ≤ k * b := by
      have := Nat.lt_mul_of_div_lt hle hb
      omega
    exact Nat.div_le_of_le_mul (by
      rw [Nat.mul_comm]; exact units_le_of_ratio_le hb hk hd hmul)
  intro heq
  have hrange := fits_bmod x.trunc
  rw [heq, hvalue] at hrange
  rw [hvalue] at heq
  rw [trunc_eq] at hfits heq
  generalize x.units / unitsPerOne = part at hbound hfits heq
  generalize a / b = whole at hbound hrange heq
  unfold FitsInt at hfits hrange
  cases hneg : x.negative with
  | false =>
    simp only [hneg, sign, if_false, Bool.false_eq_true, one_mul] at hfits hrange heq
    have hle := hbound (k := 2 ^ 31) (by decide) (by omega)
    have hpart : (part : Int) = 2 ^ 31 := by omega
    rw [hpart, show Int.bmod (2 ^ 31) (2 ^ 32) = -2 ^ 31 by decide] at heq
    omega
  | true =>
    simp only [hneg, sign, if_true, neg_one_mul] at hfits hrange heq
    have hle := hbound (k := 2 ^ 31 + 1) (by decide) (by omega)
    have hpart : (part : Int) = 2 ^ 31 + 1 := by omega
    rw [hpart, show Int.bmod (-(2 ^ 31 + 1)) (2 ^ 32) = 2 ^ 31 - 1 by decide] at heq
    omega

/-! ## The code of a response -/

/-- The code that `ParseResponse` makes of a number literal. -/
def codeOf (httpStatus : Int) (lit : Bytes) : Cast :=
  (((Value.number (fromChars lit (.finite zero)).2).asInt).map castInt).getD (.value httpStatus)

theorem fromChars_stored {lit : Bytes} {d : Decimal} {rest : Bytes}
    (hscan : scan lit = some (d, rest)) :
    (fromChars lit (.finite zero)).2 = .finite ((nearestDouble lit).getD zero) := by
  rw [nearestDouble, hscan, Option.bind_some, fromChars, hscan]
  dsimp only
  cases d.toDouble <;> rfl

theorem codeOf_of_none {httpStatus : Int} {lit : Bytes} {d : Decimal} {rest : Bytes}
    (hscan : scan lit = some (d, rest)) (hx : nearestDouble lit = none) :
    codeOf httpStatus lit = .value 0 := by
  have hzero : zero.toRat = 0 := by simp [zero, Finite.toRat, Finite.units]
  have htrunc : zero.trunc = 0 := by simp [zero, Finite.trunc, Finite.units]
  have hcast : castInt64 zero = .value 0 := by
    rw [castInt64_of_guard (by rw [hzero]; norm_num) (by rw [hzero]; norm_num), htrunc]
  rw [codeOf, fromChars_stored hscan, hx, Option.getD_none, asInt_finite, hzero, if_neg (by norm_num),
    hcast]
  rfl

theorem codeOf_of_some {httpStatus : Int} {lit : Bytes} {d : Decimal} {rest : Bytes} {x : Finite}
    (hscan : scan lit = some (d, rest)) (hx : nearestDouble lit = some x) :
    codeOf httpStatus lit =
      if 2 ^ 63 < |x.toRat| then .value httpStatus else castInt (castInt64 x) := by
  rw [codeOf, fromChars_stored hscan, hx, Option.getD_some, asInt_finite]
  split <;> rfl

/-- A number out of the range of a double is at least one. -/
theorem truncate_ne_zero_of_none {lit : Bytes} {d : Decimal} {rest : Bytes}
    (hscan : scan lit = some (d, rest)) (hx : nearestDouble lit = none) :
    truncate (literalValue lit) ≠ 0 := by
  obtain ⟨a, b, hb, hdouble, hrat⟩ := d.exists_ratio
  rw [nearestDouble, hscan, Option.bind_some, hdouble] at hx
  have hle := le_of_ofRatio_none hx
  have hdiv : 0 < a / b := Nat.div_pos hle hb
  rw [literalValue, hscan, Option.map_some, Option.getD_some, hrat, truncate_ratio]
  unfold sign
  split <;> omega

theorem codeOf_right_iff {httpStatus : Int} {lit : Bytes} (hlit : StrtodNumber lit) :
    CodeOf httpStatus (literalValue lit) (codeOf httpStatus lit) ↔ ReadsRight httpStatus lit := by
  obtain ⟨d, hscan⟩ := scan_complete hlit
  unfold ReadsRight
  cases hx : nearestDouble lit with
  | none =>
    rw [codeOf_of_none hscan hx]
    have hne := truncate_ne_zero_of_none hscan hx
    constructor
    · rintro ⟨hstatus | htrunc, -⟩
      · exact (Cast.value.inj hstatus).symm
      · exact absurd (Cast.value.inj htrunc).symm hne
    · rintro rfl
      exact ⟨.inl rfl, fun _ => rfl⟩
  | some x =>
    rw [codeOf_of_some hscan hx]
    dsimp only
    by_cases hbig : 2 ^ 63 < |x.toRat|
    · rw [if_pos hbig]
      exact iff_of_true ⟨.inl rfl, fun _ => rfl⟩ (.inl hbig)
    rw [if_neg hbig]
    by_cases hlimit : x.toRat = 2 ^ 63
    · rw [castInt64_of_limit hlimit]
      refine iff_of_false ?_ ?_
      · rintro ⟨hstatus | htrunc, -⟩ <;> contradiction
      · rintro (hlt | ⟨hne, -⟩)
        · exact hbig hlt
        · exact hne hlimit
    rw [castInt64_of_guard (not_lt.mp hbig) hlimit]
    constructor
    · rintro ⟨hstatus | htrunc, -⟩
      · exact .inr ⟨hlimit, .inl (Cast.value.inj hstatus)⟩
      · have hmod := Cast.value.inj htrunc
        by_cases hfits : FitsInt x.trunc
        · rw [bmod_of_fits hfits] at hmod
          exact .inr ⟨hlimit, .inr ⟨hfits, hmod⟩⟩
        · exact absurd hmod (bmod_ne_of_not_fits hx hfits)
    · rintro (hlt | ⟨-, hstatus | ⟨hfits, htrunc⟩⟩)
      · exact absurd hlt hbig
      · rw [castInt, hstatus]
        exact ⟨.inl rfl, fun _ => rfl⟩
      · rw [castInt, bmod_of_fits hfits, htrunc]
        rw [htrunc] at hfits
        exact ⟨.inr rfl, fun hno => absurd hfits hno⟩

/-! ## From the body -/

theorem mem_allMembers {p : Bytes → Prop} {ms : List (List Item × Tree)} (h : AllMembers p ms)
    {m : List Item × Tree} (hm : m ∈ ms) : m.2.AllNumbers p := by
  induction ms with
  | nil => cases hm
  | cons m' ms ih =>
    rcases List.mem_cons.mp hm with rfl | hm
    · exact h.1
    · exact ih h.2 hm

/-- The response to a body with a numeric code. -/
theorem parseResponse_of_code (httpStatus : Int) {body lit : Bytes} {v : Value}
    {ms : List (List Item × Tree)} (hparse : parse body = some v)
    (hdoc : Document StrtodNumber (.obj ms) body)
    (hcode : lastMember ms (bytes "code") = some (.num lit)) :
    ∃ response, parseResponse httpStatus body = .ok response ∧
      response.code = codeOf httpStatus lit := by
  obtain ⟨t, hdoc', -, rfl⟩ := parse_eq_some_iff.mp hparse
  obtain rfl := hdoc.unique strtodNumber_numberBytes hdoc'
  have hblank : (body.isEmpty || isBlank body) = false := by
    by_contra hblank
    rw [Bool.not_eq_false, Bool.or_eq_true] at hblank
    have hnone : parse body = none := by
      rcases hblank with hempty | hblank
      · rw [List.isEmpty_iff.mp hempty]
        exact HttpTransport.parse_of_isBlank rfl
      · exact HttpTransport.parse_of_isBlank hblank
    rw [hnone] at hparse
    cases hparse
  have hfind : Object.find (memberValues [] ms) (bytes "code") =
      some (.number (fromChars lit (.finite zero)).2) := by
    rw [find_memberValues, hcode]
    rfl
  refine ⟨_, by rw [parseResponse, hblank, if_neg Bool.false_ne_true, hparse]; rfl, ?_⟩
  dsimp only
  rw [hfind]
  rfl

/-- An integer that a double holds is narrowed and not otherwise changed. -/
theorem codeOf_integer (httpStatus : Int) {i : Int} (h : i.natAbs ≤ 2 ^ 53) :
    codeOf httpStatus (signedDecimal i) = .value (i.bmod (2 ^ 32)) := by
  obtain ⟨x, hread, hneg, hunits⟩ := fromChars_signedDecimal h (.finite zero)
  have htrunc : x.trunc = i := by
    rw [Finite.trunc_of_units hunits, hneg]
    by_cases hi : i < 0
    · rw [if_pos (decide_eq_true hi)]
      omega
    · rw [if_neg (by simpa using hi)]
      omega
  have hrat : x.toRat = (i : ℚ) := by rw [Finite.toRat_of_units hunits, htrunc]
  have hle : |x.toRat| ≤ (2 ^ 53 : ℚ) := by
    rw [hrat, ← Int.cast_abs, Int.abs_eq_natAbs]
    exact_mod_cast h
  have hlt : (2 : ℚ) ^ 53 < 2 ^ 63 := by norm_num
  have hcast : castInt64 x = .value i := by
    rw [castInt64_of_guard (hle.trans hlt.le) (fun he => ?_), htrunc]
    rw [he, abs_of_pos (by norm_num)] at hle
    exact absurd hle (not_le.mpr hlt)
  rw [codeOf, hread, asInt_finite, if_neg (not_lt.mpr (hle.trans hlt.le)), hcast]
  rfl

theorem strtodNumber_signedDecimal (i : Int) : StrtodNumber (signedDecimal i) :=
  (scan_whole _).mp ⟨_, scan_signedDecimal i⟩

theorem literalValue_signedDecimal (i : Int) : literalValue (signedDecimal i) = i := by
  rw [literalValue, scan_signedDecimal]
  simp only [Option.map_some, Option.getD_some, Decimal.toRat, List.append_nil, digitsValue_decimal]
  by_cases hneg : i < 0
  · simp only [hneg, sign, decide_true, if_true]
    rw [← Int.cast_natCast, Int.ofNat_natAbs_of_nonpos hneg.le]
    simp
  · simp only [hneg, sign, decide_false, if_false, Bool.false_eq_true]
    rw [← Int.cast_natCast, Int.natAbs_of_nonneg (not_lt.mp hneg)]
    simp

/-- A body with a code and nothing else. -/
def codeBody (i : Int) : Bytes := bytes "\x7b\"code\":" ++ (signedDecimal i ++ bytes "\x7d")

def codeName : List Item := [.raw 0x63 rfl, .raw 0x6F rfl, .raw 0x64 rfl, .raw 0x65 rfl]

theorem codeBody_document (i : Int) :
    Document StrtodNumber (.obj [(codeName, .num (signedDecimal i))]) (codeBody i) := by
  have hws : Lib.Json.Ws [] := List.forall_mem_nil _
  refine ⟨[], _, [], hws, .obj (.membersOne hws hws hws (.num (strtodNumber_signedDecimal i)) hws),
    hws, ?_⟩
  have hopen : bytes "\x7b\"code\":" = 0x7B :: Lib.Json.stringText codeName ++ [0x3A] := by decide
  have hclose : bytes "\x7d" = [0x7D] := by decide
  rw [codeBody, hopen, hclose]
  simp

theorem codeBody_parses (i : Int) : ∃ v, parse (codeBody i) = some v :=
  ⟨_, parse_eq_some_iff.mpr ⟨_, codeBody_document i, (by decide : 1 ≤ kMaxDepth), rfl⟩⟩

/-- **A response never invents a code, exactly when the number is read right.** The body is one
that `json::Parse` accepts as an object whose `code` is a number literal. -/
theorem code_not_invented_iff {httpStatus : Int} {body lit : Bytes} {v : Value}
    {ms : List (List Item × Tree)} (hparse : parse body = some v)
    (hdoc : Document StrtodNumber (.obj ms) body)
    (hcode : lastMember ms (bytes "code") = some (.num lit)) :
    (∃ response, parseResponse httpStatus body = .ok response ∧
      CodeOf httpStatus (literalValue lit) response.code) ↔ ReadsRight httpStatus lit := by
  have hlit : StrtodNumber lit := by
    obtain ⟨k, hk⟩ := lastMember_mem hcode
    exact mem_allMembers (show AllMembers StrtodNumber ms from hdoc.allNumbers) hk
  obtain ⟨response, hresponse, hread⟩ := parseResponse_of_code httpStatus hparse hdoc hcode
  rw [← codeOf_right_iff hlit, ← hread]
  constructor
  · intro hex
    obtain ⟨response', hresponse', hright⟩ := hex
    rw [hresponse] at hresponse'
    cases hresponse'
    exact hright
  · intro hright
    exact ⟨response, hresponse, hright⟩

/-- The code of an ordinary response. -/
theorem code_not_invented_iff_created : ∃ response,
    parseResponse 200 (codeBody 201) = .ok response ∧
      CodeOf 200 (literalValue (signedDecimal 201)) response.code := by
  obtain ⟨v, hv⟩ := codeBody_parses 201
  refine (code_not_invented_iff hv (codeBody_document 201) rfl).mpr ?_
  rw [← codeOf_right_iff (strtodNumber_signedDecimal 201), codeOf_integer 200 (by decide),
    literalValue_signedDecimal]
  refine ⟨.inr ?_, fun hno => absurd ?_ hno⟩
  · simp [truncate]
  · simp [truncate, FitsInt]

/-- `2 ^ 32 + 201` comes out as 201. -/
theorem large_code_is_narrowed : ∃ response,
    parseResponse 500 (codeBody 4294967497) = .ok response ∧ response.code = .value 201 ∧
      ¬ CodeOf 500 (literalValue (signedDecimal 4294967497)) response.code := by
  obtain ⟨v, hv⟩ := codeBody_parses 4294967497
  obtain ⟨response, hresponse, hcode⟩ := parseResponse_of_code 500 hv
    (codeBody_document 4294967497) rfl
  rw [codeOf_integer 500 (by decide),
    show Int.bmod 4294967497 (2 ^ 32) = 201 by decide] at hcode
  refine ⟨response, hresponse, hcode, ?_⟩
  rw [hcode, literalValue_signedDecimal]
  rintro ⟨hstatus | htrunc, -⟩
  · exact absurd (Cast.value.inj hstatus) (by decide)
  · simp [truncate] at htrunc

end OppexSdk.Cpp.Wire
