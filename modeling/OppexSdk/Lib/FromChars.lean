import Mathlib.Data.Nat.Digits.Lemmas
import OppexSdk.Lib.Binary64
import OppexSdk.Lib.JsonParser

/-! # `std::from_chars`

The overload for `double` matches the longest prefix of the form `strtod` expects in decimal,
without a plus sign: digits with or without a point among them, then an exponent. It rounds to the
nearest double and leaves its output unmodified when nothing matches or the result is out of
range. The overload for unsigned integers in base 16 matches a run of hexadecimal digits. -/
namespace OppexSdk.Lib.FromChars
open OppexSdk.Lib.Json OppexSdk.Lib.Binary64

/-- The number a run of digits stands for. -/
def digitsValue (ds : Bytes) : Nat := ds.foldl (fun acc d => acc * 10 + digitValue d) 0

/-- A matched literal, part by part. -/
structure Decimal where
  negative : Bool
  whole : Bytes
  frac : Bytes
  exponent : Int
  deriving DecidableEq

/-- The double of a literal, when it is in range. -/
def Decimal.toDouble (d : Decimal) : Option Finite :=
  let coefficient := digitsValue (d.whole ++ d.frac)
  let exponent := d.exponent - d.frac.length
  if 0 ≤ exponent then ofRatio d.negative (coefficient * 10 ^ exponent.toNat) 1
  else ofRatio d.negative coefficient (10 ^ (-exponent).toNat)

def scanMinus : Bytes → Bool × Bytes
  | [] => (false, [])
  | b :: s => if b = 0x2D then (true, s) else (false, b :: s)

/-- The digits after a point. Without a point there are none. -/
def scanFraction : Bytes → Bytes × Bytes
  | [] => ([], [])
  | b :: s => if b = 0x2E then (s.takeWhile isDigit, s.dropWhile isDigit) else ([], b :: s)

/-- The sign of an exponent. -/
def scanSign : Bytes → Bool × Bytes
  | [] => (false, [])
  | b :: s => if b = 0x2D then (true, s) else if b = 0x2B then (false, s) else (false, b :: s)

/-- An exponent counts only when it has a digit. -/
def scanExponent : Bytes → Int × Bytes
  | [] => (0, [])
  | b :: s =>
    if b = 0x65 ∨ b = 0x45 then
      let (negative, s') := scanSign s
      let ds := s'.takeWhile isDigit
      if ds = [] then (0, b :: s)
      else (if negative then -(digitsValue ds : Int) else digitsValue ds, s'.dropWhile isDigit)
    else (0, b :: s)

/-- The longest literal that starts the text, and what follows it. -/
def scan (s : Bytes) : Option (Decimal × Bytes) :=
  let (negative, s₁) := scanMinus s
  let whole := s₁.takeWhile isDigit
  let (frac, s₂) := scanFraction (s₁.dropWhile isDigit)
  if whole = [] ∧ frac = [] then none
  else
    let (exponent, s₃) := scanExponent s₂
    some (⟨negative, whole, frac, exponent⟩, s₃)

/-- `from_chars(first, last, number)`: the characters from `ptr` on, and `number` afterwards. -/
def fromChars (s : Bytes) (number : Double) : Bytes × Double :=
  match scan s with
  | none => (s, number)
  | some (d, rest) =>
    match d.toDouble with
    | some x => (rest, .finite x)
    | none => (rest, number)

/-- `from_chars(first, last, value, 16)` for an unsigned `value`. -/
def fromCharsHex (s : Bytes) : Bytes × Nat :=
  (s.dropWhile isHexDigit, (s.takeWhile isHexDigit).foldl (fun acc d => acc * 16 + hexValue d) 0)

/-! ## What it matches -/

/-- A literal taken apart: sign, digits before the point, the point with the digits after it,
exponent. -/
structure Split (lit minus whole frac exp : Bytes) : Prop where
  eq : lit = minus ++ (whole ++ (frac ++ exp))
  minus : Minus minus
  whole : Digits whole
  frac : frac = [] ∨ ∃ ds, frac = 0x2E :: ds ∧ Digits ds
  exp : Exponent exp

/-- The decimal form of `strtod` without a plus sign: there is a digit before the exponent. -/
def StrtodNumber (lit : Bytes) : Prop :=
  ∃ minus whole frac exp, Split lit minus whole frac exp ∧
    (whole ≠ [] ∨ ∃ d ds, frac = 0x2E :: d :: ds)

theorem digits_takeWhile (s : Bytes) : Digits (s.takeWhile isDigit) :=
  fun _ hb => List.mem_takeWhile_imp hb

theorem scanMinus_spec (s : Bytes) : ∃ m, s = m ++ (scanMinus s).2 ∧ Minus m := by
  cases s with
  | nil => exact ⟨[], rfl, .inl rfl⟩
  | cons b s =>
    by_cases hb : b = 0x2D
    · exact ⟨[b], by simp [scanMinus, hb], .inr (by rw [hb])⟩
    · exact ⟨[], by simp [scanMinus, hb], .inl rfl⟩

theorem scanFraction_spec (s : Bytes) :
    ∃ f, s = f ++ (scanFraction s).2 ∧ Digits (scanFraction s).1 ∧
      (f = [] ∧ (scanFraction s).1 = [] ∨ f = 0x2E :: (scanFraction s).1) := by
  cases s with
  | nil => exact ⟨[], rfl, List.forall_mem_nil _, .inl ⟨rfl, rfl⟩⟩
  | cons b s =>
    by_cases hb : b = 0x2E
    · refine ⟨b :: s.takeWhile isDigit, ?_, ?_, .inr ?_⟩
      · simp [scanFraction, hb]
      · simpa [scanFraction, hb] using digits_takeWhile s
      · simp [scanFraction, hb]
    · exact ⟨[], by simp [scanFraction, hb], by simp [scanFraction, hb, Digits],
        .inl ⟨rfl, by simp [scanFraction, hb]⟩⟩

theorem scanSign_spec (s : Bytes) :
    ∃ sign, s = sign ++ (scanSign s).2 ∧ (sign = [] ∨ sign = [0x2B] ∨ sign = [0x2D]) := by
  cases s with
  | nil => exact ⟨[], rfl, .inl rfl⟩
  | cons b s =>
    by_cases hm : b = 0x2D
    · exact ⟨[b], by simp [scanSign, hm], .inr (.inr (by rw [hm]))⟩
    · by_cases hp : b = 0x2B
      · exact ⟨[b], by simp [scanSign, hp], .inr (.inl (by rw [hp]))⟩
      · exact ⟨[], by simp [scanSign, hm, hp], .inl rfl⟩

theorem scanExponent_spec (s : Bytes) : ∃ e, s = e ++ (scanExponent s).2 ∧ Exponent e := by
  cases s with
  | nil => exact ⟨[], rfl, .inl rfl⟩
  | cons b s =>
    by_cases hb : b = 0x65 ∨ b = 0x45
    · obtain ⟨sign, hs, hsign⟩ := scanSign_spec s
      by_cases hds : (scanSign s).2.takeWhile isDigit = []
      · exact ⟨[], by simp [scanExponent, hb, hds], .inl rfl⟩
      · refine ⟨b :: sign ++ (scanSign s).2.takeWhile isDigit, ?_,
          .inr ⟨b, sign, _, rfl, hb, hsign, digits_takeWhile _, hds⟩⟩
        simp only [scanExponent, hb, if_true, hds, if_false]
        rw [List.append_assoc, List.takeWhile_append_dropWhile, List.cons_append, ← hs]
    · exact ⟨[], by simp [scanExponent, hb], .inl rfl⟩

theorem scan_sound {s rest : Bytes} {d : Decimal} (h : scan s = some (d, rest)) :
    ∃ lit, s = lit ++ rest ∧ StrtodNumber lit := by
  unfold scan at h
  dsimp only at h
  split at h
  · cases h
  · rename_i hdigit
    cases h
    obtain ⟨m, hs, hm⟩ := scanMinus_spec s
    obtain ⟨f, hf, hfd, hfrac⟩ := scanFraction_spec ((scanMinus s).2.dropWhile isDigit)
    obtain ⟨e, he, hexp⟩ :=
      scanExponent_spec (scanFraction ((scanMinus s).2.dropWhile isDigit)).2
    refine ⟨m ++ ((scanMinus s).2.takeWhile isDigit ++ (f ++ e)), ?_, m, _, f, e,
      ⟨rfl, hm, digits_takeWhile _, ?_, hexp⟩, ?_⟩
    · have hsplit := (List.takeWhile_append_dropWhile (p := isDigit) (l := (scanMinus s).2)).symm
      rw [hf, he] at hsplit
      calc s = m ++ (scanMinus s).2 := hs
        _ = _ := by rw [hsplit]; simp [← hsplit]
    · rcases hfrac with ⟨hnil, -⟩ | hcons
      · exact .inl hnil
      · exact .inr ⟨_, hcons, hfd⟩
    · rcases not_and_or.mp hdigit with hw | hfr
      · exact .inl hw
      · obtain ⟨b, ds, hb⟩ := List.exists_cons_of_ne_nil hfr
        rcases hfrac with ⟨-, hnil⟩ | hcons
        · exact absurd hnil hfr
        · exact .inr ⟨b, ds, by rw [hcons, hb]⟩

/-- What can follow the digits of a literal: an exponent or nothing. -/
theorem Exponent.head_not_digit {e : Bytes} (h : Exponent e) : ∀ b ∈ e.head?, isDigit b = false := by
  rcases h with rfl | ⟨b, sign, ds, rfl, hb, -⟩
  · intro b hb; cases hb
  · intro c hc
    cases hc
    rcases hb with rfl | rfl <;> decide

theorem fraction_head_not_digit {frac e : Bytes}
    (hf : frac = [] ∨ ∃ ds, frac = 0x2E :: ds ∧ Digits ds) (he : Exponent e) :
    ∀ b ∈ (frac ++ e).head?, isDigit b = false := by
  rcases hf with rfl | ⟨ds, rfl, -⟩
  · exact Exponent.head_not_digit he
  · intro b hb; cases hb; decide

theorem scanExponent_complete {e : Bytes} (h : Exponent e) : (scanExponent e).2 = [] := by
  rcases h with rfl | ⟨b, sign, ds, rfl, hb, hsign, hds, hne⟩
  · rfl
  · obtain ⟨d, ds, rfl⟩ := List.exists_cons_of_ne_nil hne
    have hd : isDigit d = true := hds d List.mem_cons_self
    have hd₁ : d ≠ 0x2D := ne_of_class hd rfl
    have hd₂ : d ≠ 0x2B := ne_of_class hd rfl
    have hscan : (scanSign (sign ++ d :: ds)).2 = d :: ds := by
      rcases hsign with rfl | rfl | rfl
      · simp [scanSign, hd₁, hd₂]
      · simp [scanSign]
      · simp [scanSign]
    have htake : (d :: ds).takeWhile isDigit = d :: ds := by
      simpa using takeWhile_run (r := []) hds (by simp)
    have hdrop : (d :: ds).dropWhile isDigit = [] := by
      simpa using dropWhile_run (r := []) hds (by simp)
    simp [scanExponent, hb, hscan, htake, hdrop]

theorem scanFraction_complete {frac e : Bytes} (hf : frac = [] ∨ ∃ ds, frac = 0x2E :: ds ∧ Digits ds)
    (he : Exponent e) :
    (scanFraction (frac ++ e)).2 = e ∧ (frac = [] ∨ frac = 0x2E :: (scanFraction (frac ++ e)).1) := by
  rcases hf with rfl | ⟨ds, rfl, hds⟩
  · refine ⟨?_, .inl rfl⟩
    rcases he with rfl | ⟨b, sign, ds, rfl, hb, -⟩
    · rfl
    · rcases hb with rfl | rfl <;> rfl
  · have hstop := Exponent.head_not_digit he
    simp [scanFraction, takeWhile_run hds hstop, dropWhile_run hds hstop]

theorem scan_complete {lit : Bytes} (h : StrtodNumber lit) : ∃ d, scan lit = some (d, []) := by
  obtain ⟨m, whole, frac, e, ⟨rfl, hm, hwhole, hfrac, he⟩, hdigit⟩ := h
  have hbytes (d : UInt8) (hd : isDigit d = true) : d ≠ 0x2D := ne_of_class hd rfl
  -- without a minus sign the literal starts with a digit or a point
  have hminus : (scanMinus (m ++ (whole ++ (frac ++ e)))).2 = whole ++ (frac ++ e) := by
    rcases hm with rfl | rfl
    · cases whole with
      | cons d ds => simp [scanMinus, hbytes d (hwhole d List.mem_cons_self)]
      | nil =>
        obtain ⟨d, ds, rfl⟩ := hdigit.resolve_left (fun hne => hne rfl)
        rfl
    · rfl
  have hstop := fraction_head_not_digit hfrac he
  obtain ⟨hrest, hds⟩ := scanFraction_complete hfrac he
  unfold scan
  simp only [hminus, takeWhile_run hwhole hstop, dropWhile_run hwhole hstop]
  rw [if_neg]
  · exact ⟨_, by rw [hrest, scanExponent_complete he]⟩
  · intro hboth
    obtain ⟨hw, hf⟩ := hboth
    obtain ⟨d, ds, rfl⟩ := hdigit.resolve_left (fun hne => hne hw)
    rcases hds with hnil | hcons
    · cases hnil
    · rw [hf] at hcons; cases hcons

/-- **A literal is matched whole exactly when it has the form.** -/
theorem scan_whole (lit : Bytes) : (∃ d, scan lit = some (d, [])) ↔ StrtodNumber lit := by
  refine ⟨fun ⟨d, hd⟩ => ?_, scan_complete⟩
  obtain ⟨lit', rfl, hlit⟩ := scan_sound hd
  rwa [List.append_nil]

instance : DecidablePred StrtodNumber := fun lit =>
  decidable_of_iff (((scan lit).map Prod.snd) = some []) (by
    rw [← scan_whole, Option.map_eq_some_iff]
    constructor
    · rintro ⟨⟨d, rest⟩, h, rfl⟩; exact ⟨d, h⟩
    · rintro ⟨d, h⟩; exact ⟨_, h, rfl⟩)

theorem fromChars_whole {lit : Bytes} (hne : lit ≠ []) (number : Double) :
    (fromChars lit number).1 = [] ↔ StrtodNumber lit := by
  rw [← scan_whole]
  unfold fromChars
  cases hs : scan lit with
  | none => simpa using hne
  | some r =>
    obtain ⟨d, rest⟩ := r
    cases hd : d.toDouble <;> simp [hd]

/-! ## JSON numbers have the form -/

theorem strtodNumber_numberBytes : NumberBytes StrtodNumber := by
  rintro lit ⟨m, whole, frac, e, ⟨rfl, hm, hwhole, hfrac, he⟩, hdigit⟩
  have hd (b : UInt8) (hb : isDigit b = true) : isNumberByte b = true := by
    simp [isNumberByte, hb]
  constructor
  · rcases hdigit with hw | ⟨d, ds, rfl⟩
    · simp [hw]
    · simp
  · intro b hb
    simp only [List.mem_append] at hb
    rcases hb with hb | hb | hb | hb
    · rcases hm with rfl | rfl
      · cases hb
      · rw [List.mem_singleton.mp hb]; rfl
    · exact hd b (hwhole b hb)
    · rcases hfrac with rfl | ⟨ds, rfl, hds⟩
      · cases hb
      · rcases List.mem_cons.mp hb with rfl | hb
        · rfl
        · exact hd b (hds b hb)
    · rcases he with rfl | ⟨c, sign, ds, rfl, hc, hsign, hds, -⟩
      · cases hb
      · simp only [List.cons_append, List.mem_cons, List.mem_append] at hb
        rcases hb with rfl | hb | hb
        · rcases hc with rfl | rfl <;> rfl
        · rcases hsign with rfl | rfl | rfl
          · cases hb
          · rw [List.mem_singleton.mp hb]; rfl
          · rw [List.mem_singleton.mp hb]; rfl
        · exact hd b (hds b hb)

theorem JsonNumber.split {lit : Bytes} (h : JsonNumber lit) :
    ∃ minus whole frac exp, Split lit minus whole frac exp ∧ whole ≠ [] ∧
      (∀ d ds, whole ≠ 0x30 :: d :: ds) ∧ frac ≠ [0x2E] := by
  obtain ⟨m, int, frac, e, rfl, hm, hint, hfrac, he⟩ := h
  refine ⟨m, int, frac, e, ⟨by simp, hm, ?_, ?_, he⟩, ?_, ?_, ?_⟩
  · rcases hint with rfl | ⟨d, ds, rfl, hd, -, hds⟩
    · simp [Digits, isDigit]
    · exact List.forall_mem_cons.mpr ⟨hd, hds⟩
  · rcases hfrac with rfl | ⟨ds, rfl, hds, -⟩
    · exact .inl rfl
    · exact .inr ⟨ds, rfl, hds⟩
  · rcases hint with rfl | ⟨d, ds, rfl, -⟩ <;> simp
  · rintro d' ds' rfl
    rcases hint with hint | ⟨d, ds, hint, -, hne, -⟩
    · cases hint
    · cases hint; exact hne rfl
  · rintro rfl
    rcases hfrac with hfrac | ⟨ds, hfrac, -, hne⟩
    · cases hfrac
    · cases hfrac; exact hne rfl

theorem JsonNumber.strtod {lit : Bytes} (h : JsonNumber lit) : StrtodNumber lit := by
  obtain ⟨m, whole, frac, e, hsplit, hne, -⟩ := JsonNumber.split h
  exact ⟨m, whole, frac, e, hsplit, .inl hne⟩

/-- The part after the sign does not start with one. -/
theorem body_ne_minus {whole frac e : Bytes} (hw : Digits whole)
    (hf : frac = [] ∨ ∃ ds, frac = 0x2E :: ds ∧ Digits ds) (he : Exponent e) (r : Bytes) :
    whole ++ (frac ++ e) ≠ 0x2D :: r := by
  intro heq
  cases whole with
  | cons d ds =>
    cases heq
    exact absurd (hw 0x2D List.mem_cons_self) (by decide)
  | nil =>
    rcases hf with rfl | ⟨ds, rfl, -⟩
    · rcases he with rfl | ⟨b, sign, ds, rfl, hb, -⟩
      · cases heq
      · cases heq; rcases hb with hb | hb <;> cases hb
    · cases heq

/-- A literal comes apart in one way only. -/
theorem Split.unique {lit m whole frac e m' whole' frac' e' : Bytes}
    (h : Split lit m whole frac e) (h' : Split lit m' whole' frac' e') :
    whole = whole' ∧ frac = frac' := by
  have hbody : whole ++ (frac ++ e) = whole' ++ (frac' ++ e') := by
    have heq := h.eq.symm.trans h'.eq
    rcases h.minus with rfl | rfl <;> rcases h'.minus with rfl | rfl
    · exact heq
    · exact absurd heq (body_ne_minus h.whole h.frac h.exp _)
    · exact absurd heq.symm (body_ne_minus h'.whole h'.frac h'.exp _)
    · exact (List.cons.inj heq).2
  have hstop := fraction_head_not_digit h.frac h.exp
  have hstop' := fraction_head_not_digit h'.frac h'.exp
  have hwhole : whole = whole' := by
    rw [← takeWhile_run h.whole hstop, hbody, takeWhile_run h'.whole hstop']
  refine ⟨hwhole, ?_⟩
  have hrest : frac ++ e = frac' ++ e' := by
    rw [← dropWhile_run h.whole hstop, hbody, dropWhile_run h'.whole hstop']
  have hnopoint : ∀ {e ds r : Bytes}, Exponent e → e ≠ 0x2E :: ds ++ r := by
    intro e ds r he heq
    rcases he with rfl | ⟨b, sign, ds', rfl, hb, -⟩
    · cases heq
    · have hpoint : b = 0x2E := (List.cons.inj heq).1
      subst hpoint
      rcases hb with hb | hb <;> cases hb
  rcases h.frac with rfl | ⟨ds, rfl, hds⟩ <;> rcases h'.frac with rfl | ⟨ds', rfl, hds'⟩
  · rfl
  · exact absurd hrest (hnopoint h.exp)
  · exact absurd hrest.symm (hnopoint h'.exp)
  · have hds_eq : ds ++ e = ds' ++ e' := (List.cons.inj hrest).2
    rw [← takeWhile_run hds (Exponent.head_not_digit h.exp), hds_eq,
      takeWhile_run hds' (Exponent.head_not_digit h'.exp)]

/-- A literal that JSON does not have: no digit before the point, a zero before another digit, or
no digit after the point. -/
def LooseNumber (lit : Bytes) : Prop :=
  ∃ minus whole frac exp, Split lit minus whole frac exp ∧
    (whole = [] ∨ (∃ d ds, whole = 0x30 :: d :: ds) ∨ frac = [0x2E])

/-- **The `strtod` literals that are JSON numbers are those that are not loose.** -/
theorem jsonNumber_iff_not_loose {lit : Bytes} (h : StrtodNumber lit) :
    JsonNumber lit ↔ ¬ LooseNumber lit := by
  constructor
  · rintro hj ⟨m, whole, frac, e, hsplit, hloose⟩
    obtain ⟨m', whole', frac', e', hsplit', hne, hzero, hpoint⟩ := JsonNumber.split hj
    obtain ⟨rfl, rfl⟩ := hsplit.unique hsplit'
    rcases hloose with hnil | ⟨d, ds, hds⟩ | hp
    · exact hne hnil
    · exact hzero d ds hds
    · exact hpoint hp
  · intro hnot
    obtain ⟨m, whole, frac, e, hsplit, -⟩ := h
    refine ⟨m, whole, frac, e, by rw [hsplit.eq]; simp, hsplit.minus, ?_, ?_, hsplit.exp⟩
    · cases whole with
      | nil => exact absurd ⟨m, [], frac, e, hsplit, .inl rfl⟩ hnot
      | cons d ds =>
        obtain ⟨hd, hds⟩ := List.forall_mem_cons.mp hsplit.whole
        by_cases hd0 : d = 0x30
        · subst hd0
          cases ds with
          | nil => exact .inl rfl
          | cons d' ds' => exact absurd ⟨m, _, frac, e, hsplit, .inr (.inl ⟨d', ds', rfl⟩)⟩ hnot
        · exact .inr ⟨d, ds, rfl, hd, hd0, hds⟩
    · rcases hsplit.frac with hnil | ⟨ds, hds, hdigits⟩
      · exact .inl hnil
      · refine .inr ⟨ds, hds, hdigits, ?_⟩
        rintro rfl
        exact hnot ⟨m, whole, frac, e, hsplit, .inr (.inr hds)⟩

/-! ## Written integers are read back -/

theorem digits_decimal (n : Nat) : Digits (decimal n) := by
  have hdigit : ∀ d < 10, isDigit (digitByte d) = true := by decide
  intro b hb
  obtain ⟨d, hd, rfl⟩ := mem_decimal hb
  exact hdigit d hd

theorem decimal_ne_nil (n : Nat) : decimal n ≠ [] := by
  unfold decimal
  split
  · exact List.cons_ne_nil _ _
  · rename_i hn
    simpa using Nat.digits_ne_nil_iff_ne_zero.mpr hn

theorem digitsValue_decimal (n : Nat) : digitsValue (decimal n) = n := by
  have hdigit : ∀ d < 10, digitValue (digitByte d) = d := by decide
  unfold decimal
  split
  · rename_i hn
    rw [hn]
    rfl
  · have hfold : ∀ ds : List Nat, (∀ d ∈ ds, d < 10) →
        digitsValue (ds.reverse.map digitByte) = Nat.ofDigits 10 ds := by
      intro ds hds
      induction ds with
      | nil => rfl
      | cons d ds ih =>
        have hcons := List.forall_mem_cons.mp hds
        have htail := ih hcons.2
        unfold digitsValue at htail ⊢
        rw [List.reverse_cons, List.map_append, List.foldl_append, htail, Nat.ofDigits_cons]
        simp only [List.map_cons, List.map_nil, List.foldl_cons, List.foldl_nil,
          hdigit d hcons.1]
        omega
    rw [hfold _ fun d hd => Nat.digits_lt_base (by decide) hd, Nat.ofDigits_digits]

/-- The leading digit of a number other than zero is not zero. -/
theorem decimal_leading {n : Nat} (hn : n ≠ 0) :
    ∃ d ds, decimal n = d :: ds ∧ isDigit d = true ∧ d ≠ 0x30 ∧ Digits ds := by
  have hne : Nat.digits 10 n ≠ [] := Nat.digits_ne_nil_iff_ne_zero.mpr hn
  have hlast := Nat.getLast_digit_ne_zero 10 hn
  have hlt : (Nat.digits 10 n).getLast hne < 10 :=
    Nat.digits_lt_base (by decide) (List.getLast_mem hne)
  have hbytes : ∀ d < 10, d ≠ 0 → digitByte d ≠ 0x30 := by decide
  have hform : decimal n = digitByte ((Nat.digits 10 n).getLast hne) ::
      ((Nat.digits 10 n).dropLast.reverse.map digitByte) := by
    unfold decimal
    rw [if_neg hn, ← List.map_cons, ← List.reverse_concat,
      List.dropLast_append_getLast hne]
  have hdigits := digits_decimal n
  rw [hform] at hdigits ⊢
  exact ⟨_, _, rfl, hdigits _ List.mem_cons_self, hbytes _ hlt hlast,
    fun b hb => hdigits b (List.mem_cons_of_mem _ hb)⟩

/-- A sign, the digits of a natural number and an exponent. -/
def writtenNumber (negative : Bool) (n : Nat) (exp : Bytes) : Bytes :=
  (if negative then [0x2D] else []) ++ (decimal n ++ exp)

theorem signedDecimal_eq (i : Int) :
    signedDecimal i = writtenNumber (decide (i < 0)) i.natAbs [] := by
  unfold signedDecimal writtenNumber
  split
  · rename_i hneg
    simp [hneg]
  · rename_i hneg
    simp [hneg]

theorem jsonNumber_written (negative : Bool) (n : Nat) {exp : Bytes} (hexp : Exponent exp) :
    JsonNumber (writtenNumber negative n exp) := by
  have hint : decimal n = [0x30] ∨ ∃ d ds, decimal n = d :: ds ∧ isDigit d = true ∧ d ≠ 0x30 ∧
      Digits ds := by
    by_cases hn : n = 0
    · exact .inl (by rw [hn]; rfl)
    · exact .inr (decimal_leading hn)
  cases negative with
  | true => exact ⟨[0x2D], _, [], exp, by simp [writtenNumber], .inr rfl, hint, .inl rfl, hexp⟩
  | false => exact ⟨[], _, [], exp, by simp [writtenNumber], .inl rfl, hint, .inl rfl, hexp⟩

theorem scan_written (negative : Bool) (n : Nat) {exp : Bytes} (hexp : Exponent exp) :
    scan (writtenNumber negative n exp) =
      some (⟨negative, decimal n, [], (scanExponent exp).1⟩, []) := by
  have hhead := Exponent.head_not_digit hexp
  have htake := takeWhile_run (digits_decimal n) hhead
  have hdrop := dropWhile_run (digits_decimal n) hhead
  have hfrac : scanFraction exp = ([], exp) := by
    rcases hexp with rfl | ⟨e, sign, ds, rfl, rfl | rfl, -⟩
    · rfl
    · rfl
    · rfl
  have hminus : scanMinus (writtenNumber negative n exp) = (negative, decimal n ++ exp) := by
    cases negative with
    | true => rfl
    | false =>
      have hdigits := digits_decimal n
      obtain ⟨d, ds, hd⟩ := List.exists_cons_of_ne_nil (decimal_ne_nil n)
      rw [hd] at hdigits
      have hne : d ≠ 0x2D := ne_of_class (hdigits d List.mem_cons_self) rfl
      simp [writtenNumber, hd, scanMinus, hne]
  simp [scan, hminus, htake, hdrop, hfrac, scanExponent_complete hexp, decimal_ne_nil]

theorem jsonNumber_signedDecimal (i : Int) : JsonNumber (signedDecimal i) := by
  rw [signedDecimal_eq]
  exact jsonNumber_written _ _ (.inl rfl)

theorem scan_signedDecimal (i : Int) :
    scan (signedDecimal i) = some (⟨decide (i < 0), decimal i.natAbs, [], 0⟩, []) := by
  rw [signedDecimal_eq]
  exact scan_written _ _ (.inl rfl)

theorem fromChars_of_scan {s rest : Bytes} {d : Decimal} {x : Finite}
    (hs : scan s = some (d, rest)) (hd : d.toDouble = some x) (number : Double) :
    fromChars s number = (rest, .finite x) := by
  unfold fromChars
  rw [hs]
  simp only [hd]

theorem toDouble_integer (negative : Bool) (whole : Bytes) :
    Decimal.toDouble ⟨negative, whole, [], 0⟩ = ofRatio negative (digitsValue whole) 1 := by
  unfold Decimal.toDouble
  simp only [List.append_nil, List.length_nil, Nat.cast_zero, Int.sub_zero, le_refl, if_true,
    Int.toNat_zero, pow_zero, Nat.mul_one]

/-- **An integer of at most `2 ^ 53` is written and read exactly.** -/
theorem fromChars_signedDecimal {i : Int} (h : i.natAbs ≤ 2 ^ 53) (number : Double) :
    ∃ x, fromChars (signedDecimal i) number = ([], .finite x) ∧ x.negative = decide (i < 0) ∧
      x.units = i.natAbs * unitsPerOne := by
  obtain ⟨x, hx, hneg, hunits⟩ := ofRatio_nat (decide (i < 0)) h
  have hdouble := toDouble_integer (decide (i < 0)) (decimal i.natAbs)
  rw [digitsValue_decimal, hx] at hdouble
  exact ⟨x, fromChars_of_scan (scan_signedDecimal i) hdouble number, hneg, hunits⟩

end OppexSdk.Lib.FromChars
