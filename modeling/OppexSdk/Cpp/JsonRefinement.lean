import OppexSdk.Cpp.Json
import OppexSdk.Lib.JsonUtf8

/-! # The C++ parser refines the reference parser

A position stands for what is left of the text. Read so, each function of the C++ parser returns
what the reference parser returns on what is left, with the tree replaced by its value. -/
namespace OppexSdk.Cpp.Json
open OppexSdk.Lib OppexSdk.Lib.Binary64 OppexSdk.Lib.FromChars
open OppexSdk.Lib.Json (Item Tree ShortEscape isWs isNumberByte isHexDigit skipWs expect expectText
  parseBody decode utf8 isHighSurrogate isLowSurrogate)

/-! ## The value of a tree -/

mutual

/-- The value the parser builds for a tree. -/
def treeValue : Tree → Value
  | .null => .null
  | .bool b => .bool b
  | .num lit => .number (fromChars lit (.finite zero)).2
  | .str items => .string (decode items)
  | .arr ts => .array (elemValues ts)
  | .obj ms => .object (memberValues [] ms)

def elemValues : List Tree → List Value
  | [] => []
  | t :: ts => treeValue t :: elemValues ts

/-- Members are entered one after the other into the object so far. -/
def memberValues (object : Object) : List (List Item × Tree) → Object
  | [] => object
  | (k, t) :: ms => memberValues (object.insertOrAssign (decode k) (treeValue t)) ms

end

/-! ## Positions and what is left -/

section
variable {text : Bytes} {p : Nat} {α β γ : Type}

/-- A result as the reference states it: the value and what is left of the text. -/
def view (o : Option (Parsed text p α)) : Option (α × Bytes) :=
  o.map fun r => (r.value, text.drop r.next)

theorem view_eq_some {o : Option (Parsed text p α)} {a : α} {s : Bytes} :
    view o = some (a, s) ↔ ∃ r, o = some r ∧ r.value = a ∧ text.drop r.next = s := by
  simp [view, Option.map_eq_some_iff]

@[simp] theorem view_none : view (none : Option (Parsed text p α)) = none := rfl

@[simp] theorem view_some (r : Parsed text p α) :
    view (some r) = some (r.value, text.drop r.next) := rfl

@[simp] theorem view_since {q : Nat} (o : Option (Parsed text q α)) (h : p ≤ q) :
    view (o.map (·.since h)) = view o := by
  cases o <;> rfl

@[simp] theorem view_map (o : Option (Parsed text p α)) (f : α → β) :
    view (o.map (·.map f)) = (view o).map fun r => (f r.1, r.2) := by
  cases o <;> rfl

theorem view_eq_none {o : Option (Parsed text p α)} : view o = none ↔ o = none := by
  simp [view]

theorem drop_of_lt (h : p < text.length) : text.drop p = text[p] :: text.drop (p + 1) :=
  List.drop_eq_getElem_cons h

theorem drop_of_not_lt (h : ¬ p < text.length) : text.drop p = [] :=
  List.drop_eq_nil_of_le (Nat.le_of_not_lt h)

end

theorem drop_scanWhile (accept : UInt8 → Bool) (text : Bytes) (position : Nat) :
    text.drop (scanWhile accept text position) = (text.drop position).dropWhile accept := by
  fun_induction scanWhile accept text position with
  | case1 position h hacc ih => rw [ih, drop_of_lt h, List.dropWhile_cons_of_pos hacc]
  | case2 position h hacc => rw [drop_of_lt h, List.dropWhile_cons_of_neg hacc]
  | case3 position h => rw [drop_of_not_lt h, List.dropWhile_nil]

theorem take_scanWhile (accept : UInt8 → Bool) (text : Bytes) (position : Nat) :
    (text.drop position).take (scanWhile accept text position - position) =
      (text.drop position).takeWhile accept := by
  fun_induction scanWhile accept text position with
  | case1 position h hacc ih =>
    have hle := le_scanWhile accept text (position + 1)
    obtain ⟨k, hk⟩ := Nat.exists_eq_add_of_le hle
    rw [hk] at ih ⊢
    rw [drop_of_lt h, List.takeWhile_cons_of_pos hacc, ← ih]
    have h₁ : position + 1 + k - position = k + 1 := by omega
    have h₂ : position + 1 + k - (position + 1) = k := by omega
    rw [h₁, h₂, List.take_succ_cons]
  | case2 position h hacc =>
    rw [drop_of_lt h, List.takeWhile_cons_of_neg hacc, Nat.sub_self, List.take_zero]
  | case3 position h => rw [drop_of_not_lt h, List.take_nil, List.takeWhile_nil]

theorem drop_skipWhitespace (text : Bytes) (position : Nat) :
    text.drop (skipWhitespace text position) = skipWs (text.drop position) :=
  drop_scanWhile isWs text position

theorem consume_view (expected : UInt8) (text : Bytes) (position : Nat) :
    view (consume expected text position) =
      (expect expected (text.drop position)).map fun s => ((), s) := by
  unfold consume
  split
  · rename_i h
    rw [drop_of_lt h, Json.expect_cons]
    split <;> rfl
  · rename_i h
    rw [drop_of_not_lt h]
    rfl

theorem compareAt_eq_true {text : Bytes} {position : Nat} {expected : Bytes} :
    compareAt text position expected = true ↔ expected <+: text.drop position := by
  rw [compareAt, beq_iff_eq, List.prefix_iff_eq_take, eq_comm]

theorem parseLiteral_view (text : Bytes) (position : Nat) (literal : Bytes) (t : Tree)
    (hne : literal ≠ []) :
    view (parseLiteral text position literal (treeValue t) hne) =
      ((expectText literal (text.drop position)).map fun s => (t, s)).map
        fun r => (treeValue r.1, r.2) := by
  unfold parseLiteral expectText
  by_cases h : literal <+: text.drop position
  · rw [dif_pos (compareAt_eq_true.mpr h), if_pos (List.isPrefixOf_iff_prefix.mpr h)]
    simp [List.drop_drop]
  · rw [dif_neg (mt compareAt_eq_true.mp h), if_neg (mt List.isPrefixOf_iff_prefix.mp h)]
    rfl

theorem parseNumber_view {text : Bytes} {position : Nat} (h : position < text.length) :
    view (parseNumber text position h) =
      (Lib.Json.parseNumber StrtodNumber (text.drop position)).map
        fun r => (treeValue r.1, r.2) := by
  have hlast : scanWhile isNumberByte text
      (if text[position] = 0x2D then position + 1 else position) =
        scanWhile isNumberByte text position := by
    split
    · rename_i hminus
      rw [scanWhile.eq_def isNumberByte text position, dif_pos h, hminus]
      rfl
    · rfl
  unfold parseNumber Lib.Json.parseNumber
  simp only [hlast, take_scanWhile]
  by_cases hend : scanWhile isNumberByte text position = position
  · have hlit : (text.drop position).takeWhile isNumberByte = [] := by
      rw [← take_scanWhile, hend, Nat.sub_self, List.take_zero]
    rw [dif_pos hend, hlit, if_neg fun hn => (strtodNumber_numberBytes _ hn).1 rfl]
    rfl
  · have hlit : (text.drop position).takeWhile isNumberByte ≠ [] := by
      intro hnil
      have hdrop := drop_scanWhile isNumberByte text position
      have hsplit := List.takeWhile_append_dropWhile (p := isNumberByte) (l := text.drop position)
      rw [hnil, List.nil_append] at hsplit
      rw [hsplit] at hdrop
      have hlen := congrArg List.length hdrop
      simp only [List.length_drop] at hlen
      have := scanWhile_le isNumberByte h.le
      omega
    rw [dif_neg hend]
    by_cases hn : StrtodNumber ((text.drop position).takeWhile isNumberByte)
    · rw [if_neg (not_not.mpr ((fromChars_whole hlit _).mpr hn)), if_pos hn]
      simp [treeValue, drop_scanWhile]
    · rw [if_pos (mt (fromChars_whole hlit _).mp hn), if_neg hn]
      rfl

/-! ## Strings -/

/-- Four hexadecimal digits as a number, and what follows them. -/
def quad : Bytes → Option (Nat × Bytes)
  | a :: b :: c :: d :: s =>
    if [a, b, c, d].all isHexDigit then some (Item.unit a b c d, s) else none
  | _ => none

theorem fromCharsHex_quad (a b c d : UInt8) :
    (fromCharsHex [a, b, c, d]).1 = [] ↔ [a, b, c, d].all isHexDigit = true := by
  rw [fromCharsHex, List.dropWhile_eq_nil_iff, List.all_eq_true]

theorem fromCharsHex_unit {a b c d : UInt8} (h : [a, b, c, d].all isHexDigit = true) :
    (fromCharsHex [a, b, c, d]).2 = Item.unit a b c d := by
  have htake : [a, b, c, d].takeWhile isHexDigit = [a, b, c, d] :=
    List.takeWhile_eq_self_iff.mpr (List.all_eq_true.mp h)
  simp [fromCharsHex, htake, Item.unit]

theorem readHexQuad_view (text : Bytes) (position : Nat) :
    view (readHexQuad text position) = quad (text.drop position) := by
  have hlen : (text.drop position).length = text.length - position := List.length_drop
  unfold readHexQuad
  rcases hs : text.drop position with _ | ⟨a, _ | ⟨b, _ | ⟨c, _ | ⟨d, s⟩⟩⟩⟩
  case cons.cons.cons.cons =>
    rw [hs] at hlen
    have hin : position + 4 ≤ text.length := by simp only [List.length_cons] at hlen; omega
    have hnext : text.drop (position + 4) = s := by rw [← List.drop_drop, hs]; rfl
    rw [dif_pos hin]
    dsimp only
    split
    · rename_i hx
      rw [quad, if_neg (mt (fromCharsHex_quad a b c d).mpr hx)]
      rfl
    · rename_i hx
      have hhex := (fromCharsHex_quad a b c d).mp (not_not.mp hx)
      rw [quad, if_pos hhex, view_some, hnext, ← fromCharsHex_unit hhex]
      rfl
  all_goals
    rw [hs] at hlen
    rw [dif_neg (by simp only [List.length_cons, List.length_nil] at hlen; omega)]
    rfl

/-- A marker whose low bits are zero, combined with bits that fit there. -/
theorem or_eq_add (marker n i a : Nat) (hm : 2 ^ i * a = marker) (hn : n < 2 ^ i) :
    marker ||| n = n + marker := by
  rw [← hm, Nat.add_comm]
  exact (Nat.two_pow_add_eq_or_of_lt hn a).symm

/-- The bytes of `AppendUtf8` are the encoding of a scalar value. -/
theorem appendUtf8_eq {codePoint : Nat} (hlt : codePoint < 0x110000)
    (hs : (isHighSurrogate codePoint || isLowSurrogate codePoint) = false) :
    appendUtf8 codePoint = utf8 codePoint := by
  have hvalid : codePoint.isValidChar := by
    simp only [isHighSurrogate, isLowSurrogate, Bool.or_eq_false_iff, Bool.and_eq_false_iff,
      decide_eq_false_iff_not] at hs
    rw [Nat.isValidChar]
    omega
  have hval := Utf8.val_ofNat hvalid
  have hmask : ∀ n : Nat, n &&& 0x3F = n % 64 := fun n => Nat.and_two_pow_sub_one_eq_mod n 6
  have htail : ∀ n : Nat, 0x80 ||| n % 64 = n % 64 + 128 :=
    fun n => or_eq_add 0x80 (n % 64) 7 1 rfl (by omega)
  rw [utf8, hs, if_neg Bool.false_ne_true]
  simp only [String.utf8EncodeChar, hval, appendUtf8, Nat.shiftRight_eq_div_pow, hmask, htail]
  by_cases h1 : codePoint < 0x80
  · rw [if_pos h1, if_pos (Nat.le_of_lt_succ h1)]
  rw [if_neg h1, if_neg (fun h => h1 (Nat.lt_succ_of_le h))]
  by_cases h2 : codePoint < 0x800
  · rw [if_pos h2, if_pos (Nat.le_of_lt_succ h2),
      or_eq_add 0xC0 (codePoint / 2 ^ 6) 6 3 rfl (by omega),
      Nat.mod_eq_of_lt (a := codePoint / 64) (b := 32) (by omega)]
  rw [if_neg h2, if_neg (fun h => h2 (Nat.lt_succ_of_le h))]
  by_cases h3 : codePoint < 0x10000
  · rw [if_pos h3, if_pos (Nat.le_of_lt_succ h3),
      or_eq_add 0xE0 (codePoint / 2 ^ 12) 4 14 rfl (by omega),
      Nat.mod_eq_of_lt (a := codePoint / 4096) (b := 16) (by omega)]
  · rw [if_neg h3, if_neg (fun h => h3 (Nat.lt_succ_of_le h)),
      or_eq_add 0xF0 (codePoint / 2 ^ 18) 4 15 rfl (by omega),
      Nat.mod_eq_of_lt (a := codePoint / 262144) (b := 8) (by omega)]

theorem hexValue_lt {b : UInt8} (h : isHexDigit b = true) : Lib.Json.hexValue b < 16 := by
  simp only [isHexDigit, Lib.Json.isDigit, Bool.or_eq_true, Bool.and_eq_true, decide_eq_true_eq,
    UInt8.le_iff_toNat_le] at h
  simp only [Lib.Json.hexValue, Lib.Json.digitValue, Lib.Json.isDigit, Bool.and_eq_true,
    decide_eq_true_eq, UInt8.le_iff_toNat_le]
  simp only [UInt8.reduceToNat] at h ⊢
  split
  · omega
  · split <;> omega

theorem unit_lt {a b c d : UInt8} (h : [a, b, c, d].all isHexDigit = true) :
    Item.unit a b c d < 0x10000 := by
  simp only [List.all_cons, List.all_nil, Bool.and_true, Bool.and_eq_true] at h
  have ha := hexValue_lt h.1
  have hb := hexValue_lt h.2.1
  have hc := hexValue_lt h.2.2.1
  have hd := hexValue_lt h.2.2.2
  unfold Item.unit
  omega

theorem quad_lt {s rest : Bytes} {u : Nat} (h : quad s = some (u, rest)) : u < 0x10000 := by
  unfold quad at h
  split at h
  · split at h
    · rename_i hx
      cases h
      exact unit_lt hx
    · cases h
  · cases h

/-- A unicode escape after its `u`: the bytes it denotes and what follows it. A high surrogate
looks ahead for a low one. -/
def unicodeEscape (s : Bytes) : Option (Bytes × Bytes) :=
  (quad s).bind fun first =>
    match (expectText (bytes "\\u") first.2).bind quad with
    | some low =>
      if isHighSurrogate first.1 && isLowSurrogate low.1 then
        some (utf8 (Lib.Json.combine first.1 low.1), low.2)
      else some (utf8 first.1, first.2)
    | none => some (utf8 first.1, first.2)

theorem appendUtf8_replacement {u : Nat} (h : (isHighSurrogate u || isLowSurrogate u) = true) :
    appendUtf8 0xFFFD = utf8 u := by
  rw [appendUtf8_eq (by decide) (by decide), utf8, utf8, h, if_pos rfl]
  rfl

theorem combine_eq {high low : Nat} (hh : isHighSurrogate high = true)
    (hl : isLowSurrogate low = true) :
    appendUtf8 (0x10000 + ((high - 0xD800) <<< 10) + (low - 0xDC00)) =
      utf8 (Lib.Json.combine high low) := by
  have hshift : (high - 0xD800) <<< 10 = (high - 0xD800) * 0x400 := Nat.shiftLeft_eq _ _
  simp only [isHighSurrogate, isLowSurrogate, Bool.and_eq_true, decide_eq_true_eq] at hh hl
  rw [hshift]
  refine appendUtf8_eq ?_ ?_
  · omega
  · simp only [isHighSurrogate, isLowSurrogate, Bool.or_eq_false_iff, Bool.and_eq_false_iff,
      decide_eq_false_iff_not]
    omega

theorem isHighSurrogate_iff {u : Nat} : isHighSurrogate u = true ↔ 0xD800 ≤ u ∧ u ≤ 0xDBFF := by
  simp [isHighSurrogate]

theorem isLowSurrogate_iff {u : Nat} : isLowSurrogate u = true ↔ 0xDC00 ≤ u ∧ u ≤ 0xDFFF := by
  simp [isLowSurrogate]

/-- What the C++ parser appends for a unit that stands alone. -/
theorem appendUtf8_alone {u : Nat} (h : u < 0x10000) :
    (if 0xD800 ≤ u ∧ u ≤ 0xDFFF then appendUtf8 0xFFFD else appendUtf8 u) = utf8 u := by
  have hsurrogate : (isHighSurrogate u || isLowSurrogate u) = true ↔ 0xD800 ≤ u ∧ u ≤ 0xDFFF := by
    rw [Bool.or_eq_true, isHighSurrogate_iff, isLowSurrogate_iff]
    omega
  split
  · rename_i hsur
    exact appendUtf8_replacement (hsurrogate.mpr hsur)
  · rename_i hsur
    refine appendUtf8_eq (by omega) ?_
    rwa [← hsurrogate, Bool.not_eq_true] at hsur

theorem unicodeEscape_alone {s rest : Bytes} {u : Nat} (hq : quad s = some (u, rest))
    (hpair : ∀ low, (expectText (bytes "\\u") rest).bind quad = some low →
      (isHighSurrogate u && isLowSurrogate low.1) = false) :
    unicodeEscape s = some (utf8 u, rest) := by
  rw [unicodeEscape, hq, Option.bind_some]
  dsimp only
  split
  · rename_i low hl
    rw [hpair low hl, if_neg Bool.false_ne_true]
  · rfl

theorem unicodeEscape_pair {s rest s' rest' : Bytes} {u v : Nat} (hq : quad s = some (u, rest))
    (hexpect : expectText (bytes "\\u") rest = some s') (hq' : quad s' = some (v, rest'))
    (hhigh : isHighSurrogate u = true) (hlow : isLowSurrogate v = true) :
    unicodeEscape s = some (utf8 (Lib.Json.combine u v), rest') := by
  simp only [unicodeEscape, hq, hexpect, hq', Option.bind_some, hhigh, hlow, Bool.and_self, if_true]

theorem parseUnicodeEscape_view (text : Bytes) (position : Nat) :
    view (parseUnicodeEscape text position) = unicodeEscape (text.drop position) := by
  have hfirst := readHexQuad_view text position
  cases hq : quad (text.drop position) with
  | none =>
    rw [hq, view_eq_none] at hfirst
    simp [parseUnicodeEscape, unicodeEscape, hfirst, hq]
  | some q =>
    obtain ⟨u, s⟩ := q
    rw [hq] at hfirst
    obtain ⟨first, hread, rfl, hs⟩ := view_eq_some.mp hfirst
    simp only [parseUnicodeEscape, hread, Option.bind_eq_bind, Option.bind_some]
    by_cases hbranch : 0xD800 ≤ first.value ∧ first.value ≤ 0xDBFF ∧
        compareAt text first.next (bytes "\\u") = true
    · have hhigh := isHighSurrogate_iff.mpr ⟨hbranch.1, hbranch.2.1⟩
      have hrep := appendUtf8_replacement (u := first.value) (by rw [hhigh]; rfl)
      obtain ⟨s', hs'⟩ := compareAt_eq_true.mp hbranch.2.2
      have hexpect : expectText (bytes "\\u") s = some s' :=
        Lib.Json.expectText_eq_some.mpr (by rw [← hs, ← hs'])
      have hnext : text.drop (first.next + 2) = s' := by
        rw [← List.drop_drop, ← hs']; rfl
      have hlow := readHexQuad_view text (first.next + 2)
      rw [hnext] at hlow
      rw [if_pos hbranch]
      cases hq' : quad s' with
      | none =>
        rw [hq', view_eq_none] at hlow
        rw [hlow, unicodeEscape_alone hq (by simp [hexpect, hq'])]
        simp [Parsed.map, hrep, hs]
      | some q' =>
        obtain ⟨v, s''⟩ := q'
        rw [hq'] at hlow
        obtain ⟨low, hread', rfl, hs''⟩ := view_eq_some.mp hlow
        rw [hread']
        dsimp only
        by_cases hl : 0xDC00 ≤ low.value ∧ low.value ≤ 0xDFFF
        · have hl' := isLowSurrogate_iff.mpr hl
          rw [if_pos hl, unicodeEscape_pair hq hexpect hq' hhigh hl', ← combine_eq hhigh hl']
          simp [Parsed.map, Parsed.since, hs'']
        · have hl' : isLowSurrogate low.value = false := by
            rwa [← isLowSurrogate_iff, Bool.not_eq_true] at hl
          rw [if_neg hl, unicodeEscape_alone hq (by simp [hexpect, hq', hl'])]
          simp [Parsed.map, hrep, hs]
    · -- no pair: the unit stands alone
      have hpair : ∀ low, (expectText (bytes "\\u") s).bind quad = some low →
          (isHighSurrogate first.value && isLowSurrogate low.1) = false := by
        intro low hl
        by_contra hboth
        simp only [Bool.not_eq_false, Bool.and_eq_true] at hboth
        obtain ⟨hlo, hhi⟩ := isHighSurrogate_iff.mp hboth.1
        obtain ⟨s', hexpect, -⟩ := Option.bind_eq_some_iff.mp hl
        have hcmp : compareAt text first.next (bytes "\\u") = true := by
          rw [compareAt_eq_true, hs]
          exact ⟨s', (Lib.Json.expectText_eq_some.mp hexpect).symm⟩
        exact hbranch ⟨hlo, hhi, hcmp⟩
      rw [if_neg hbranch, unicodeEscape_alone hq hpair, ← appendUtf8_alone (quad_lt hq)]
      split
      · simp [Parsed.map, hs]
      · simp [Parsed.map, hs]

theorem quad_eq_some {s rest : Bytes} {u : Nat} (h : quad s = some (u, rest)) :
    ∃ a b c d, [a, b, c, d].all isHexDigit = true ∧ s = a :: b :: c :: d :: rest ∧
      u = Item.unit a b c d := by
  unfold quad at h
  split at h
  · rename_i a b c d s'
    split at h
    · rename_i hx
      cases h
      exact ⟨a, b, c, d, hx, rfl, rfl⟩
    · cases h
  · cases h

theorem parseBody_no_quad {s : Bytes} (hq : quad s = none) :
    parseBody (0x5C :: 0x75 :: s) = none := by
  cases hb : parseBody (0x5C :: 0x75 :: s) with
  | none => rfl
  | some r =>
    exfalso
    rcases s with _ | ⟨a, _ | ⟨b, _ | ⟨c, _ | ⟨d, s⟩⟩⟩⟩
    case cons.cons.cons.cons =>
      have hx : ¬ [a, b, c, d].all isHexDigit = true := by
        intro hx
        rw [quad, if_pos hx] at hq; cases hq
      rw [Lib.Json.parseBody.eq_def] at hb
      simp [hx] at hb
    all_goals rw [Lib.Json.parseBody.eq_def] at hb; simp at hb

/-- One unicode escape and the rest of the body, as the C++ parser takes them apart. -/
theorem parseBody_unicodeEscape (s : Bytes) :
    (parseBody (0x5C :: 0x75 :: s)).map (fun r => (decode r.1, r.2)) =
      (unicodeEscape s).bind fun e => (parseBody e.2).map fun r => (e.1 ++ decode r.1, r.2) := by
  unfold unicodeEscape
  cases hq : quad s with
  | none =>
    rw [parseBody_no_quad hq]
    rfl
  | some q =>
    obtain ⟨u, s₁⟩ := q
    obtain ⟨a, b, c, d, hx, rfl, rfl⟩ := quad_eq_some hq
    rw [Lib.Json.parseBody_unicode hx, Option.map_map, Option.bind_some]
    dsimp only
    split
    · rename_i low hl
      obtain ⟨v, s₂⟩ := low
      obtain ⟨s', hexpect, hq'⟩ := Option.bind_eq_some_iff.mp hl
      obtain ⟨a', b', c', d', hx', rfl, rfl⟩ := quad_eq_some hq'
      obtain rfl := Lib.Json.expectText_eq_some.mp hexpect
      have hbody : parseBody (bytes "\\u" ++ a' :: b' :: c' :: d' :: s₂) =
          (parseBody s₂).map fun r => (.unicode a' b' c' d' hx' :: r.1, r.2) :=
        Lib.Json.parseBody_unicode hx' s₂
      rw [hbody, Option.map_map]
      by_cases hpair : (isHighSurrogate (Item.unit a b c d) &&
          isLowSurrogate (Item.unit a' b' c' d')) = true
      · rw [if_pos hpair, Option.bind_some]
        refine congrFun (congrArg Option.map (funext ?_)) _
        intro r
        simp only [Function.comp_apply, decode, hpair, if_true]
      · rw [if_neg hpair, Option.bind_some, hbody, Option.map_map]
        refine congrFun (congrArg Option.map (funext ?_)) _
        intro r
        simp only [Function.comp_apply]
        rw [Lib.Json.decode_alone hx]
        intro x hx y hy u hu v hv
        cases hx; cases hy; cases hu; cases hv
        simpa using hpair
    · rename_i hnone
      rw [Option.bind_some]
      cases hb : parseBody s₁ with
      | none => rfl
      | some r =>
        obtain ⟨items, rest⟩ := r
        simp only [Option.map_some, Function.comp_apply]
        rw [Lib.Json.decode_alone hx]
        -- a second escape in the items would have been seen by the look-ahead
        intro x _ y hy u _ v hv
        exfalso
        obtain ⟨a', b', c', d', h', rfl, -⟩ := Lib.Json.escapeUnit_eq_some hv
        obtain ⟨items', he⟩ := List.head?_eq_some_iff.mp hy
        have hs₁ : s₁ = bytes "\\u" ++ a' :: b' :: c' :: d' ::
            (Lib.Json.bodyText items' ++ 0x22 :: rest) := by
          have hsound := Lib.Json.parseBody_sound hb
          have hu : bytes "\\u" = [0x5C, 0x75] := by decide
          rw [he] at hsound
          rw [hu]
          simpa [Lib.Json.bodyText, Item.text] using hsound
        rw [Lib.Json.expectText_eq_some.mpr hs₁, Option.bind_some, quad, if_pos h'] at hnone
        cases hnone

theorem parseEscape_view {text : Bytes} {position : Nat} (h : position < text.length) :
    view (parseEscape text position) =
      if text[position] = 0x75 then unicodeEscape (text.drop (position + 1))
      else (ShortEscape.ofLetter text[position]).map
        fun e => ([e.meaning], text.drop (position + 1)) := by
  unfold parseEscape ShortEscape.ofLetter
  rw [dif_pos h]
  generalize text[position] = escape
  by_cases hu : escape = 0x75
  · subst hu
    simp [parseUnicodeEscape_view]
  · rw [if_neg hu]
    by_cases h₁ : escape = 0x22
    · subst h₁; simp [ShortEscape.meaning]
    by_cases h₂ : escape = 0x5C
    · subst h₂; simp [ShortEscape.meaning]
    by_cases h₃ : escape = 0x2F
    · subst h₃; simp [ShortEscape.meaning]
    by_cases h₄ : escape = 0x62
    · subst h₄; simp [ShortEscape.meaning]
    by_cases h₅ : escape = 0x66
    · subst h₅; simp [ShortEscape.meaning]
    by_cases h₆ : escape = 0x6E
    · subst h₆; simp [ShortEscape.meaning]
    by_cases h₇ : escape = 0x72
    · subst h₇; simp [ShortEscape.meaning]
    by_cases h₈ : escape = 0x74
    · subst h₈; simp [ShortEscape.meaning]
    · simp [h₁, h₂, h₃, h₄, h₅, h₆, h₇, h₈, hu]

/-- The rest of a body, after bytes already decoded. -/
def bodyAfter (out : Bytes) (s : Bytes) : Option (Bytes × Bytes) :=
  (parseBody s).map fun r => (out ++ decode r.1, r.2)

/-- An escape and the rest of the body. -/
theorem bodyAfter_escape (out : Bytes) (c : UInt8) (s : Bytes) :
    bodyAfter out (0x5C :: c :: s) =
      (if c = 0x75 then unicodeEscape s
        else (ShortEscape.ofLetter c).map fun e => ([e.meaning], s)).bind
          fun e => bodyAfter (out ++ e.1) e.2 := by
  by_cases hu : c = 0x75
  · subst hu
    have h := congrArg (Option.map fun r : Bytes × Bytes => (out ++ r.1, r.2)) (parseBody_unicodeEscape s)
    rw [Option.map_map] at h
    rw [if_pos rfl]
    refine h.trans ?_
    cases unicodeEscape s with
    | none => rfl
    | some e => simp [bodyAfter, Function.comp_def]
  · rw [if_neg hu, bodyAfter, Lib.Json.parseBody.eq_def]
    simp only [if_neg hu]
    cases ShortEscape.ofLetter c with
    | none => rfl
    | some e => simp [bodyAfter, Function.comp_def, decode]

theorem parseStringLoop_view (text : Bytes) (position : Nat) (out : Bytes) :
    view (parseStringLoop text position out) = bodyAfter out (text.drop position) := by
  fun_induction parseStringLoop text position out with
  | case1 position out h character hq =>
    rw [drop_of_lt h, bodyAfter, Lib.Json.parseBody.eq_def]
    simp [character, hq, decode]
  | case2 position out h character hq hb hctl =>
    have hraw : Lib.Json.isUnescaped text[position] = false := by
      have hlt : ¬ (0x20 : UInt8) ≤ text[position] := UInt8.not_le.mpr hctl
      simp [Lib.Json.isUnescaped, hlt]
    rw [drop_of_lt h, bodyAfter, Lib.Json.parseBody.eq_def]
    simp [show text[position] ≠ 0x22 from hq, show text[position] ≠ 0x5C from hb, hraw]
  | case3 position out h character hq hb hctl ih =>
    have hraw : Lib.Json.isUnescaped text[position] = true := by
      have hle : (0x20 : UInt8) ≤ text[position] := UInt8.not_lt.mp hctl
      simp [Lib.Json.isUnescaped, hle, show text[position] ≠ 0x22 from hq,
        show text[position] ≠ 0x5C from hb]
    rw [view_since, ih, drop_of_lt h, bodyAfter, bodyAfter, Lib.Json.parseBody_raw hraw]
    simp [Function.comp_def, decode, character]
  | case4 position out h character hq hb ih =>
    have hslash : text[position] = 0x5C := not_not.mp hb
    rw [drop_of_lt h, hslash]
    by_cases hnext : position + 1 < text.length
    · rw [drop_of_lt hnext, bodyAfter_escape, ← parseEscape_view hnext]
      cases parseEscape text (position + 1) with
      | none => rfl
      | some escape => simpa using ih escape
    · have hnone : parseEscape text (position + 1) = none := dif_neg hnext
      rw [drop_of_not_lt hnext, hnone]
      rfl
  | case5 position out h =>
    rw [drop_of_not_lt h]
    rfl

theorem parseString_view (text : Bytes) (position : Nat) :
    view (parseString text position) =
      (Lib.Json.parseString (text.drop position)).map fun r => (decode r.1, r.2) := by
  have hquote := consume_view 0x22 text position
  unfold parseString Lib.Json.parseString
  cases he : expect 0x22 (text.drop position) with
  | none =>
    rw [he, Option.map_none, view_eq_none] at hquote
    rw [hquote]
    rfl
  | some s =>
    rw [he] at hquote
    obtain ⟨quote, hq, -, hs⟩ := view_eq_some.mp hquote
    rw [hq, Option.bind_some, view_since, parseStringLoop_view, hs, Option.bind_some]
    simp [bodyAfter]

/-! ## Containers and values -/

section
variable {text : Bytes} {pv : (position : Nat) → Option (Parsed text position Value)}
  {rpv : Bytes → Option (Tree × Bytes)}

/-- The closing byte of a container, which makes its value. -/
theorem close_view (b : UInt8) (v : Value) {p q : Nat} (h : p ≤ q) :
    view ((consume b text q).map fun close => (close.map fun _ => v).since h) =
      (expect b (text.drop q)).map fun s => (v, s) := by
  have hclose := consume_view b text q
  cases he : expect b (text.drop q) with
  | none =>
    rw [he, Option.map_none, view_eq_none] at hclose
    rw [hclose]
    rfl
  | some s =>
    rw [he] at hclose
    obtain ⟨close, hc, -, hs⟩ := view_eq_some.mp hclose
    rw [hc]
    simp [Parsed.map, Parsed.since, hs]

/-- A parser of values that refines a reference one. -/
def Refines (pv : (position : Nat) → Option (Parsed text position Value))
    (rpv : Bytes → Option (Tree × Bytes)) : Prop :=
  ∀ p, view (pv p) = (rpv (text.drop p)).map fun r => (treeValue r.1, r.2)

theorem parseElements_view (hpv : Refines pv rpv) (fuel position : Nat) (array : List Value)
    (hfuel : text.length - position < fuel) :
    view (parseElements text pv position array) =
      (Lib.Json.parseElems rpv fuel (text.drop position)).map
        fun r => (.array (array ++ elemValues r.1), r.2) := by
  induction fuel generalizing position array with
  | zero => omega
  | succ fuel ih =>
    have hv := hpv (skipWhitespace text position)
    rw [drop_skipWhitespace] at hv
    rw [parseElements, Lib.Json.parseElems]
    cases hr : rpv (skipWs (text.drop position)) with
    | none =>
      rw [hr, Option.map_none, view_eq_none] at hv
      rw [hv]
      rfl
    | some r =>
      obtain ⟨t, s₁⟩ := r
      rw [hr] at hv
      obtain ⟨value, hval, hvt, hs₁⟩ := view_eq_some.mp hv
      have hcomma := consume_view 0x2C text (skipWhitespace text value.next)
      rw [drop_skipWhitespace, hs₁] at hcomma
      simp only [hval, Option.bind_some, Option.bind_eq_bind]
      cases hc : expect 0x2C (skipWs s₁) with
      | some s₂ =>
        rw [hc] at hcomma
        obtain ⟨comma, hcm, -, hs₂⟩ := view_eq_some.mp hcomma
        have hrest := ih comma.next (array ++ [value.value]) (by
          have := le_skipWhitespace text position; have := value.advances
          have := le_skipWhitespace text value.next; have := comma.advances
          have := comma.inside
          omega)
        simp only [hcm]
        rw [view_since, hrest, hs₂, Option.map_map]
        simp [Function.comp_def, elemValues, hvt]
      | none =>
        rw [hc, Option.map_none, view_eq_none] at hcomma
        simp only [hcomma]
        rw [close_view, drop_skipWhitespace, hs₁, Option.map_map]
        simp [Function.comp_def, elemValues, hvt]

theorem parseMembers_view (hpv : Refines pv rpv) (fuel position : Nat) (object : Object)
    (hfuel : text.length - position < fuel) :
    view (parseMembers text pv position object) =
      (Lib.Json.parseMembers rpv fuel (text.drop position)).map
        fun r => (.object (memberValues object r.1), r.2) := by
  induction fuel generalizing position object with
  | zero => omega
  | succ fuel ih =>
    have hk := parseString_view text (skipWhitespace text position)
    rw [drop_skipWhitespace] at hk
    rw [parseMembers, Lib.Json.parseMembers]
    cases hr : Lib.Json.parseString (skipWs (text.drop position)) with
    | none =>
      rw [hr, Option.map_none, view_eq_none] at hk
      rw [hk]
      rfl
    | some r =>
    obtain ⟨k, s₁⟩ := r
    rw [hr] at hk
    obtain ⟨key, hkey, hkv, hs₁⟩ := view_eq_some.mp hk
    have hcolon := consume_view 0x3A text (skipWhitespace text key.next)
    rw [drop_skipWhitespace, hs₁] at hcolon
    simp only [hkey, Option.bind_some, Option.bind_eq_bind]
    cases hc : expect 0x3A (skipWs s₁) with
    | none =>
      rw [hc, Option.map_none, view_eq_none] at hcolon
      simp [hcolon]
    | some s₂ =>
    rw [hc] at hcolon
    obtain ⟨colon, hcol, -, hs₂⟩ := view_eq_some.mp hcolon
    have hv := hpv (skipWhitespace text colon.next)
    rw [drop_skipWhitespace, hs₂] at hv
    simp only [hcol, Option.bind_some]
    cases hr' : rpv (skipWs s₂) with
    | none =>
      rw [hr', Option.map_none, view_eq_none] at hv
      simp [hv]
    | some r' =>
    obtain ⟨t, s₃⟩ := r'
    rw [hr'] at hv
    obtain ⟨value, hval, hvt, hs₃⟩ := view_eq_some.mp hv
    have hcomma := consume_view 0x2C text (skipWhitespace text value.next)
    rw [drop_skipWhitespace, hs₃] at hcomma
    simp only [hval, Option.bind_some]
    cases hcm : expect 0x2C (skipWs s₃) with
    | some s₄ =>
      rw [hcm] at hcomma
      obtain ⟨comma, hcom, -, hs₄⟩ := view_eq_some.mp hcomma
      have hrest := ih comma.next (object.insertOrAssign key.value value.value) (by
        have := le_skipWhitespace text position; have := key.advances
        have := le_skipWhitespace text key.next; have := colon.advances
        have := le_skipWhitespace text colon.next; have := value.advances
        have := le_skipWhitespace text value.next; have := comma.advances
        have := comma.inside
        omega)
      simp only [hcom]
      rw [view_since, hrest, hs₄, Option.map_map]
      simp [Function.comp_def, memberValues, hvt, hkv]
    | none =>
      rw [hcm, Option.map_none, view_eq_none] at hcomma
      simp only [hcomma]
      rw [close_view, drop_skipWhitespace, hs₃, Option.map_map]
      simp [Function.comp_def, memberValues, hvt, hkv]

theorem parseArray_view (hpv : Refines pv rpv) (position : Nat) :
    view (parseArray text pv position) =
      (Lib.Json.parseArray rpv (text.drop (position + 1))).map
        fun r => (treeValue r.1, r.2) := by
  have hclose := consume_view 0x5D text (skipWhitespace text (position + 1))
  rw [drop_skipWhitespace] at hclose
  unfold parseArray Lib.Json.parseArray
  cases hc : expect 0x5D (skipWs (text.drop (position + 1))) with
  | some s =>
    rw [hc] at hclose
    obtain ⟨close, hcl, -, hs⟩ := view_eq_some.mp hclose
    simp [hcl, Parsed.map, Parsed.since, hs, treeValue, elemValues]
  | none =>
    rw [hc, Option.map_none, view_eq_none] at hclose
    have hlen := le_skipWhitespace text (position + 1)
    have helems := parseElements_view hpv ((text.drop (position + 1)).length + 1)
      (skipWhitespace text (position + 1)) [] (by rw [List.length_drop]; omega)
    simp only [hclose]
    rw [view_since, helems, drop_skipWhitespace, Option.map_map]
    simp [Function.comp_def, treeValue]

theorem parseObject_view (hpv : Refines pv rpv) (position : Nat) :
    view (parseObject text pv position) =
      (Lib.Json.parseObject rpv (text.drop (position + 1))).map
        fun r => (treeValue r.1, r.2) := by
  have hclose := consume_view 0x7D text (skipWhitespace text (position + 1))
  rw [drop_skipWhitespace] at hclose
  unfold parseObject Lib.Json.parseObject
  cases hc : expect 0x7D (skipWs (text.drop (position + 1))) with
  | some s =>
    rw [hc] at hclose
    obtain ⟨close, hcl, -, hs⟩ := view_eq_some.mp hclose
    simp [hcl, Parsed.map, Parsed.since, hs, treeValue, memberValues]
  | none =>
    rw [hc, Option.map_none, view_eq_none] at hclose
    have hlen := le_skipWhitespace text (position + 1)
    have hmembers := parseMembers_view hpv ((text.drop (position + 1)).length + 1)
      (skipWhitespace text (position + 1)) [] (by rw [List.length_drop]; omega)
    simp only [hclose]
    rw [view_since, hmembers, drop_skipWhitespace, Option.map_map]
    simp [Function.comp_def, treeValue]

end

theorem parseValue_refines (text : Bytes) (levels : Nat) :
    Refines (parseValue text levels) (Lib.Json.parseValue StrtodNumber levels) := by
  induction levels with
  | zero => intro p; rfl
  | succ levels ih =>
    intro p
    by_cases h : p < text.length
    · rw [drop_of_lt h]
      unfold parseValue Lib.Json.parseValue
      rw [dif_pos h]
      by_cases h₁ : text[p] = 0x7B
      · rw [if_pos h₁, if_pos h₁]; exact parseObject_view ih p
      rw [if_neg h₁, if_neg h₁]
      by_cases h₂ : text[p] = 0x5B
      · rw [if_pos h₂, if_pos h₂]; exact parseArray_view ih p
      rw [if_neg h₂, if_neg h₂]
      by_cases h₃ : text[p] = 0x22
      · rw [if_pos h₃, if_pos h₃, view_map, parseString_view, drop_of_lt h, h₃]
        simp [Lib.Json.parseString, Function.comp_def, treeValue]
      rw [if_neg h₃, if_neg h₃, ← drop_of_lt h]
      by_cases h₄ : text[p] = 0x74
      · rw [if_pos h₄, if_pos h₄]; exact parseLiteral_view text p _ (.bool true) _
      rw [if_neg h₄, if_neg h₄]
      by_cases h₅ : text[p] = 0x66
      · rw [if_pos h₅, if_pos h₅]; exact parseLiteral_view text p _ (.bool false) _
      rw [if_neg h₅, if_neg h₅]
      by_cases h₆ : text[p] = 0x6E
      · rw [if_pos h₆, if_pos h₆]; exact parseLiteral_view text p _ .null _
      rw [if_neg h₆, if_neg h₆]
      exact parseNumber_view h
    · rw [drop_of_not_lt h]
      unfold parseValue
      rw [dif_neg h]
      rfl

/-- **`json::Parse` is the reference parser with `strtod`'s numbers and `kMaxDepth`,** followed by
the value of the tree. -/
theorem parse_eq_reference (text : Bytes) :
    parse text = (Lib.Json.parse StrtodNumber (kMaxDepth + 1) text).map treeValue := by
  have hv := parseValue_refines text (kMaxDepth + 1) (skipWhitespace text 0)
  rw [drop_skipWhitespace, List.drop_zero] at hv
  unfold parse parseDocument Lib.Json.parse
  cases hr : Lib.Json.parseValue StrtodNumber (kMaxDepth + 1) (skipWs text) with
  | none =>
    rw [hr, Option.map_none, view_eq_none] at hv
    rw [hv]
    rfl
  | some r =>
    obtain ⟨t, s⟩ := r
    rw [hr] at hv
    obtain ⟨value, hval, hvt, hs⟩ := view_eq_some.mp hv
    dsimp only at hvt hs
    have hend : skipWs s = [] ↔ skipWhitespace text value.next = text.length := by
      rw [← hs, ← drop_skipWhitespace, List.drop_eq_nil_iff]
      exact ⟨fun hle => le_antisymm (scanWhile_le isWs value.inside) hle, fun he => he.ge⟩
    rw [hval, Option.bind_some]
    dsimp only
    by_cases h : skipWs s = []
    · rw [if_pos (hend.mp h), if_pos h, hvt]
      rfl
    · rw [if_neg (mt hend.mpr h), if_neg h]
      rfl

end OppexSdk.Cpp.Json
