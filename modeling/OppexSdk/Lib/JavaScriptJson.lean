import OppexSdk.Lib.DecimalValue
import OppexSdk.Lib.JavaScript
import OppexSdk.Lib.JsonReader

/-! # JSON in JavaScript

`JSON.parse`, and `JSON.stringify` of a plain object whose properties are primitive values, as
ECMAScript has them. Both are about UTF-16 units and the grammar is about bytes: a unit outside of
ASCII is taken by two or three bytes of its own, which are raw bytes to the grammar. -/
namespace OppexSdk.Lib.JavaScript
open OppexSdk.Lib.Binary64 OppexSdk.Lib.FromChars
open OppexSdk.Lib.Json (Item Tree ShortEscape unitBytes isUnescaped isHexDigit hexValue bodyText
  stringText isHighSurrogate isLowSurrogate Derives Document JsonNumber Ws)

/-! ## Units as bytes -/

/-- A text by the bytes of its units. -/
def unitsBytes (s : JsString) : Bytes := s.flatMap fun u => unitBytes u.toNat

/-- The units that bytes stand for; the first byte says how many belong to a unit. -/
def unitsOf : Bytes → JsString
  | [] => []
  | a :: rest =>
    if a < 0x80 then a.toUInt16 :: unitsOf rest
    else match rest with
      | [] => []
      | b :: rest =>
        if a < 0xE0 then
          UInt16.ofNat ((a.toNat - 0xC0) * 0x40 + (b.toNat - 0x80)) :: unitsOf rest
        else match rest with
          | [] => []
          | c :: rest =>
            UInt16.ofNat ((a.toNat - 0xE0) * 0x1000 + (b.toNat - 0x80) * 0x40 +
              (c.toNat - 0x80)) :: unitsOf rest

@[simp] theorem unitsBytes_nil : unitsBytes [] = [] := rfl

@[simp] theorem unitsBytes_cons (u : UInt16) (s : JsString) :
    unitsBytes (u :: s) = unitBytes u.toNat ++ unitsBytes s := rfl

@[simp] theorem unitsBytes_append (s s' : JsString) :
    unitsBytes (s ++ s') = unitsBytes s ++ unitsBytes s' := List.flatMap_append

theorem unitsBytes_intercalate (sep : JsString) (texts : List JsString) :
    unitsBytes (sep.intercalate texts) = (unitsBytes sep).intercalate (texts.map unitsBytes) := by
  induction texts with
  | nil => rfl
  | cons text texts ih =>
    cases texts with
    | nil => simp
    | cons text' texts => simpa using ih

theorem unitsOf_one {a : UInt8} (h : a < 0x80) (rest : Bytes) :
    unitsOf (a :: rest) = a.toUInt16 :: unitsOf rest := by
  rw [unitsOf.eq_def]
  simp only [h, if_true]

theorem unitsOf_two {a : UInt8} (h : ¬ a < 0x80) (h' : a < 0xE0) (b : UInt8) (rest : Bytes) :
    unitsOf (a :: b :: rest) =
      UInt16.ofNat ((a.toNat - 0xC0) * 0x40 + (b.toNat - 0x80)) :: unitsOf rest := by
  rw [unitsOf.eq_def]
  simp only [h, h', if_true, if_false]

theorem unitsOf_three {a : UInt8} (h : ¬ a < 0xE0) (b c : UInt8) (rest : Bytes) :
    unitsOf (a :: b :: c :: rest) =
      UInt16.ofNat ((a.toNat - 0xE0) * 0x1000 + (b.toNat - 0x80) * 0x40 + (c.toNat - 0x80)) ::
        unitsOf rest := by
  have h' : ¬ a < 0x80 := fun hlt => h (UInt8.lt_trans hlt (by decide))
  rw [unitsOf.eq_def]
  simp only [h, h', if_false]

theorem toNat_ofNat_of_lt {n : Nat} (h : n < 256) : (UInt8.ofNat n).toNat = n := by
  rw [UInt8.toNat_ofNat']
  exact Nat.mod_eq_of_lt h

theorem unitsOf_unitBytes (u : UInt16) (rest : Bytes) :
    unitsOf (unitBytes u.toNat ++ rest) = u :: unitsOf rest := by
  have hlt : u.toNat < 65536 := u.toNat_lt
  have hlow (n : Nat) : (UInt8.ofNat (0x80 + n % 0x40)).toNat = 0x80 + n % 0x40 :=
    toNat_ofNat_of_lt (by omega)
  unfold unitBytes
  by_cases h₁ : u.toNat < 0x80
  · have hbyte : (UInt8.ofNat u.toNat).toNat = u.toNat := toNat_ofNat_of_lt (by omega)
    have hone : UInt8.ofNat u.toNat < 0x80 := by
      rw [UInt8.lt_iff_toNat_lt, hbyte]
      exact h₁
    have hunit : (UInt8.ofNat u.toNat).toUInt16 = u := by
      rw [← UInt16.toNat_inj, UInt8.toNat_toUInt16, hbyte]
    rw [if_pos h₁, List.singleton_append, unitsOf_one hone, hunit]
  rw [if_neg h₁]
  by_cases h₂ : u.toNat < 0x800
  · have hbyte : (UInt8.ofNat (0xC0 + u.toNat / 0x40)).toNat = 0xC0 + u.toNat / 0x40 :=
      toNat_ofNat_of_lt (by omega)
    have hnot : ¬ UInt8.ofNat (0xC0 + u.toNat / 0x40) < 0x80 := by
      simp only [UInt8.lt_iff_toNat_lt, hbyte, UInt8.reduceToNat]
      omega
    have htwo : UInt8.ofNat (0xC0 + u.toNat / 0x40) < 0xE0 := by
      simp only [UInt8.lt_iff_toNat_lt, hbyte, UInt8.reduceToNat]
      omega
    have hunit : UInt16.ofNat ((0xC0 + u.toNat / 0x40 - 0xC0) * 0x40 +
        (0x80 + u.toNat % 0x40 - 0x80)) = u := by
      rw [← UInt16.toNat_inj, UInt16.toNat_ofNat']
      omega
    rw [if_pos h₂, List.cons_append, List.singleton_append, unitsOf_two hnot htwo, hbyte, hlow,
      hunit]
  · have hbyte : (UInt8.ofNat (0xE0 + u.toNat / 0x1000)).toNat = 0xE0 + u.toNat / 0x1000 :=
      toNat_ofNat_of_lt (by omega)
    have hthree : ¬ UInt8.ofNat (0xE0 + u.toNat / 0x1000) < 0xE0 := by
      simp only [UInt8.lt_iff_toNat_lt, hbyte, UInt8.reduceToNat]
      omega
    have hunit : UInt16.ofNat ((0xE0 + u.toNat / 0x1000 - 0xE0) * 0x1000 +
        (0x80 + u.toNat / 0x40 % 0x40 - 0x80) * 0x40 + (0x80 + u.toNat % 0x40 - 0x80)) = u := by
      rw [← UInt16.toNat_inj, UInt16.toNat_ofNat']
      omega
    rw [if_neg h₂, List.cons_append, List.cons_append, List.singleton_append,
      unitsOf_three hthree, hbyte, hlow, hlow, hunit]

@[simp] theorem unitsOf_unitsBytes (s : JsString) : unitsOf (unitsBytes s) = s := by
  induction s with
  | nil => rfl
  | cons u s ih => rw [unitsBytes_cons, unitsOf_unitBytes, ih]

/-! ## `JSON.parse` -/

inductive Json
  | null
  | bool (b : Bool)
  | number (x : Double)
  | string (s : JsString)
  | array (elems : List Json)
  | object (members : List (JsString × Json))

/-- The bytes of the unit or the part of a unit that an item stands for. -/
def itemBytes : Item → Bytes
  | .raw b _ => [b]
  | .short e => [e.meaning]
  | .unicode a b c d _ => unitBytes (Item.unit a b c d)

/-- What a string literal denotes. An unpaired surrogate is a unit like any other. -/
def stringValue (items : List Item) : JsString := unitsOf (items.flatMap itemBytes)

/-- What a number literal denotes: the nearest double, or an infinity. -/
def numberValue (lit : Bytes) : Double :=
  match nearestDouble lit with
  | some x => .finite x
  | none => .infinite (scanMinus lit).1

/-- A member that comes again replaces the value and keeps the place. -/
def defineProperty : List (JsString × Json) → JsString → Json → List (JsString × Json)
  | [], key, value => [(key, value)]
  | (k, v) :: rest, key, value =>
    if k = key then (k, value) :: rest else (k, v) :: defineProperty rest key value

mutual

def treeJson : Tree → Json
  | .null => .null
  | .bool b => .bool b
  | .num lit => .number (numberValue lit)
  | .str items => .string (stringValue items)
  | .arr ts => .array (elemsJson ts)
  | .obj ms => .object (membersJson [] ms)

def elemsJson : List Tree → List Json
  | [] => []
  | t :: ts => treeJson t :: elemsJson ts

def membersJson (members : List (JsString × Json)) :
    List (List Item × Tree) → List (JsString × Json)
  | [] => members
  | (k, t) :: ms => membersJson (defineProperty members (stringValue k) (treeJson t)) ms

end

/-- `JSON.parse`, `none` when it throws. Members come in the order of the text, as they do in the
object unless a name is an array index. -/
def parse (text : JsString) : Option Json :=
  (Lib.Json.parse JsonNumber ((unitsBytes text).length + 1) (unitsBytes text)).map treeJson

theorem parse_eq_some {text : JsString} {v : Json} :
    parse text = some v ↔ ∃ t, Document JsonNumber t (unitsBytes text) ∧ treeJson t = v := by
  rw [parse, Option.map_eq_some_iff]
  simp only [Lib.Json.parse_of_length]

/-! ## `JSON.stringify` -/

/-- The lower-case hexadecimal digit of a number below sixteen. -/
def hexUnit (n : Nat) : UInt16 := UInt16.ofNat (if n < 10 then 0x30 + n else 0x57 + n)

/-- `UnicodeEscape`. -/
def unicodeEscape (u : UInt16) : JsString :=
  [0x5C, 0x75, hexUnit (u.toNat / 0x1000), hexUnit (u.toNat / 0x100 % 0x10),
    hexUnit (u.toNat / 0x10 % 0x10), hexUnit (u.toNat % 0x10)]

/-- What `QuoteJSONString` writes for a unit that is no half of a pair. -/
def quoteUnit (u : UInt16) : JsString :=
  if u = 0x08 then [0x5C, 0x62]
  else if u = 0x09 then [0x5C, 0x74]
  else if u = 0x0A then [0x5C, 0x6E]
  else if u = 0x0C then [0x5C, 0x66]
  else if u = 0x0D then [0x5C, 0x72]
  else if u = 0x22 then [0x5C, 0x22]
  else if u = 0x5C then [0x5C, 0x5C]
  else if u < 0x20 || isHighSurrogate u.toNat || isLowSurrogate u.toNat then unicodeEscape u
  else [u]

def quoteUnits : JsString → JsString
  | [] => []
  | [u] => quoteUnit u
  | u :: v :: rest =>
    if isHighSurrogate u.toNat && isLowSurrogate v.toNat then u :: v :: quoteUnits rest
    else quoteUnit u ++ quoteUnits (v :: rest)

/-- `QuoteJSONString`. -/
def quote (s : JsString) : JsString := 0x22 :: quoteUnits s ++ [0x22]

/-- The primitive values but symbols and big integers. -/
def Value.isPlain : Value → Bool
  | undefined | null | boolean _ | number _ | string _ => true
  | _ => false

section
variable (numberText : Double → JsString)

/-- `SerializeJSONProperty` of a plain value; `none` when the property is left out. -/
def propertyText : Value → Option JsString
  | .null => some (js "null")
  | .boolean b => some (js (if b then "true" else "false"))
  | .number (.finite x) => some (numberText (.finite x))
  | .number _ => some (js "null")
  | .string s => some (quote s)
  | _ => none

def memberText (name value : JsString) : JsString := quote name ++ 0x3A :: value

/-- `JSON.stringify` of an object with these properties. -/
def stringify (fields : List (String × Value)) : JsString :=
  0x7B :: [0x2C].intercalate (fields.filterMap fun f =>
    (propertyText numberText f.2).map (memberText (js f.1))) ++ [0x7D]

end

/-! ## A quoted string denotes itself -/

/-- The text is the body of a string literal that denotes the string. -/
def Writes (text s : JsString) : Prop :=
  ∃ items, bodyText items = unitsBytes text ∧ items.flatMap itemBytes = unitsBytes s

theorem Writes.append {text text' s s' : JsString} (h : Writes text s) (h' : Writes text' s') :
    Writes (text ++ text') (s ++ s') := by
  obtain ⟨items, htext, hs⟩ := h
  obtain ⟨items', htext', hs'⟩ := h'
  refine ⟨items ++ items', ?_, ?_⟩
  · rw [bodyText, List.flatMap_append, ← bodyText, ← bodyText, htext, htext', unitsBytes_append]
  · rw [List.flatMap_append, hs, hs', unitsBytes_append]

/-- Raw items are their bytes, whichever way they are read. -/
theorem flatMap_rawItems {f : Item → Bytes} (hf : ∀ b h, f (.raw b h) = [b]) {s : Bytes}
    (h : ∀ b ∈ s, isUnescaped b = true) : (Lib.Json.rawItems s).flatMap f = s := by
  induction s with
  | nil => rfl
  | cons b s ih =>
    rw [List.forall_mem_cons] at h
    have htail := ih h.2
    rw [Lib.Json.rawItems] at htail ⊢
    rw [List.filterMap_cons_some (dif_pos h.1), List.flatMap_cons, htail, hf]
    rfl

theorem writes_self {s : JsString} (h : ∀ b ∈ unitsBytes s, isUnescaped b = true) : Writes s s :=
  ⟨Lib.Json.rawItems (unitsBytes s), flatMap_rawItems (fun _ _ => rfl) h,
    flatMap_rawItems (fun _ _ => rfl) h⟩

theorem unescaped_of_high {n : Nat} (h : 0x80 ≤ n) (hlt : n < 0x100) :
    isUnescaped (UInt8.ofNat n) = true := by
  have hall : ∀ b : UInt8, 0x80 ≤ b.toNat → isUnescaped b = true := byte_cases (by decide +kernel)
  exact hall _ (by rwa [toNat_ofNat_of_lt hlt])

/-- A unit that needs no escape stands for itself. -/
theorem writes_raw {u : UInt16} (hctl : ¬ u < 0x20) (hquote : u ≠ 0x22) (hslash : u ≠ 0x5C) :
    Writes [u] [u] := by
  refine writes_self ?_
  have hlt : u.toNat < 65536 := u.toNat_lt
  rw [unitsBytes_cons, unitsBytes_nil, List.append_nil, unitBytes]
  split
  · rename_i h
    have hall : ∀ n < 0x80, ¬ n < 0x20 → n ≠ 0x22 → n ≠ 0x5C →
        isUnescaped (UInt8.ofNat n) = true := by decide
    intro c hc
    rw [List.mem_singleton.mp hc]
    refine hall _ h hctl ?_ ?_
    · exact fun he => hquote (UInt16.toNat_inj.mp he)
    · exact fun he => hslash (UInt16.toNat_inj.mp he)
  · split
    · intro c hc
      simp only [List.mem_cons, List.not_mem_nil, or_false] at hc
      rcases hc with rfl | rfl
      · exact unescaped_of_high (by omega) (by omega)
      · exact unescaped_of_high (by omega) (by omega)
    · intro c hc
      simp only [List.mem_cons, List.not_mem_nil, or_false] at hc
      rcases hc with rfl | rfl | rfl
      · exact unescaped_of_high (by omega) (by omega)
      · exact unescaped_of_high (by omega) (by omega)
      · exact unescaped_of_high (by omega) (by omega)

theorem writes_short (e : ShortEscape) {text s : JsString}
    (htext : unitsBytes text = [0x5C, e.letter]) (hs : unitsBytes s = [e.meaning]) :
    Writes text s :=
  ⟨[.short e], by rw [htext]; rfl, by rw [hs]; rfl⟩

/-- The byte of a hexadecimal digit. -/
theorem hexUnit_byte : ∀ n < 16, ∃ b : UInt8, unitBytes (hexUnit n).toNat = [b] ∧
    isHexDigit b = true ∧ hexValue b = n := by
  intro n hn
  refine ⟨UInt8.ofNat (hexUnit n).toNat, ?_⟩
  revert n
  decide

theorem writes_unicodeEscape (u : UInt16) : Writes (unicodeEscape u) [u] := by
  have hlt : u.toNat < 65536 := u.toNat_lt
  obtain ⟨a, ha, hxa, hva⟩ := hexUnit_byte (u.toNat / 0x1000) (by omega)
  obtain ⟨b, hb, hxb, hvb⟩ := hexUnit_byte (u.toNat / 0x100 % 0x10) (by omega)
  obtain ⟨c, hc, hxc, hvc⟩ := hexUnit_byte (u.toNat / 0x10 % 0x10) (by omega)
  obtain ⟨d, hd, hxd, hvd⟩ := hexUnit_byte (u.toNat % 0x10) (by omega)
  have hex : [a, b, c, d].all isHexDigit = true := by simp [hxa, hxb, hxc, hxd]
  have hunit : Item.unit a b c d = u.toNat := by
    rw [Item.unit, hva, hvb, hvc, hvd]
    omega
  have hslash : unitBytes (0x5C : UInt16).toNat = [0x5C] := rfl
  have hletter : unitBytes (0x75 : UInt16).toNat = [0x75] := rfl
  refine ⟨[.unicode a b c d hex], ?_, ?_⟩
  · simp only [unicodeEscape, unitsBytes_cons, unitsBytes_nil, ha, hb, hc, hd, hslash, hletter]
    rfl
  · simp [itemBytes, hunit]

theorem writes_quoteUnit (u : UInt16) : Writes (quoteUnit u) [u] := by
  unfold quoteUnit
  split_ifs with h₁ h₂ h₃ h₄ h₅ h₆ h₇ h₈
  · exact writes_short .backspace rfl (by rw [h₁]; rfl)
  · exact writes_short .tab rfl (by rw [h₂]; rfl)
  · exact writes_short .lineFeed rfl (by rw [h₃]; rfl)
  · exact writes_short .formFeed rfl (by rw [h₄]; rfl)
  · exact writes_short .carriageReturn rfl (by rw [h₅]; rfl)
  · exact writes_short .quote rfl (by rw [h₆]; rfl)
  · exact writes_short .backslash rfl (by rw [h₇]; rfl)
  · exact writes_unicodeEscape u
  · simp only [Bool.or_eq_true, decide_eq_true_eq, not_or] at h₈
    exact writes_raw h₈.1.1 h₆ h₇

/-- The halves of a pair are written as they are. -/
theorem writes_surrogate {u : UInt16}
    (h : (isHighSurrogate u.toNat || isLowSurrogate u.toNat) = true) : Writes [u] [u] := by
  have hge : 0xD800 ≤ u.toNat := by
    simp only [isHighSurrogate, isLowSurrogate, Bool.or_eq_true, Bool.and_eq_true,
      decide_eq_true_eq] at h
    omega
  refine writes_raw ?_ ?_ ?_
  · rw [UInt16.lt_iff_toNat_lt]
    simp only [UInt16.reduceToNat]
    omega
  · rintro rfl
    exact absurd hge (by decide)
  · rintro rfl
    exact absurd hge (by decide)

theorem writes_quoteUnits (s : JsString) : Writes (quoteUnits s) s := by
  induction s using quoteUnits.induct with
  | case1 => exact ⟨[], rfl, rfl⟩
  | case2 u => exact writes_quoteUnit u
  | case3 u v rest hpair ih =>
    rw [quoteUnits, if_pos hpair]
    rw [Bool.and_eq_true] at hpair
    have hu := writes_surrogate (u := u) (by rw [hpair.1, Bool.true_or])
    have hv := writes_surrogate (u := v) (by rw [hpair.2, Bool.or_true])
    exact hu.append (hv.append ih)
  | case4 u v rest hpair ih =>
    rw [quoteUnits, if_neg hpair]
    exact (writes_quoteUnit u).append ih

theorem exists_literal (s : JsString) :
    ∃ items, stringText items = unitsBytes (quote s) ∧ stringValue items = s := by
  obtain ⟨items, htext, hs⟩ := writes_quoteUnits s
  have hquote : unitBytes (0x22 : UInt16).toNat = [0x22] := rfl
  refine ⟨items, ?_, ?_⟩
  · simp only [quote, List.cons_append, unitsBytes_cons, unitsBytes_append, unitsBytes_nil, hquote]
    rw [stringText, htext]
    rfl
  · rw [stringValue, hs, unitsOf_unitsBytes]

/-! ## A written object reads as its properties -/

section
variable {numberText : Double → JsString}

/-- What a property reads as. -/
def propertyJson (numberText : Double → JsString) : Value → Option Json
  | .null => some .null
  | .boolean b => some (.bool b)
  | .number (.finite x) => some (.number (numberValue (unitsBytes (numberText (.finite x)))))
  | .number _ => some .null
  | .string s => some (.string s)
  | _ => none

/-- The text of a value that reads as `v`. -/
def ReadsValue (text : JsString) (v : Json) : Prop :=
  ∃ t, Derives JsonNumber (.value t) (unitsBytes text) ∧ treeJson t = v

variable (hnumber : ∀ x : Finite, JsonNumber (unitsBytes (numberText (.finite x))))
include hnumber

/-- A property is left out, or is written as a text that reads as its value. -/
theorem propertyText_reads (v : Value) :
    (propertyText numberText v = none ∧ propertyJson numberText v = none) ∨
      ∃ text w, propertyText numberText v = some text ∧ propertyJson numberText v = some w ∧
        ReadsValue text w := by
  have hnull : ReadsValue (js "null") .null := ⟨.null, .nullLit, rfl⟩
  cases v with
  | null => exact .inr ⟨_, _, rfl, rfl, hnull⟩
  | boolean b =>
    cases b with
    | false => exact .inr ⟨_, _, rfl, rfl, .bool false, .falseLit, rfl⟩
    | true => exact .inr ⟨_, _, rfl, rfl, .bool true, .trueLit, rfl⟩
  | number x =>
    cases x with
    | finite x => exact .inr ⟨_, _, rfl, rfl, .num _, .num (hnumber x), rfl⟩
    | infinite _ => exact .inr ⟨_, _, rfl, rfl, hnull⟩
    | nan => exact .inr ⟨_, _, rfl, rfl, hnull⟩
  | string s =>
    obtain ⟨items, htext, hvalue⟩ := exists_literal s
    refine .inr ⟨_, _, rfl, rfl, .str items, htext ▸ .str items, ?_⟩
    rw [treeJson, hvalue]
  | _ => exact .inl ⟨rfl, rfl⟩

omit hnumber in
theorem exists_properties {written : List (JsString × JsString)} {members : List (JsString × Json)}
    (h : List.Forall₂ (fun w m => w.1 = m.1 ∧ ReadsValue w.2 m.2) written members)
    (hne : written ≠ []) :
    ∃ ms, Derives JsonNumber (.members ms)
        (unitsBytes ([0x2C].intercalate (written.map fun w => memberText w.1 w.2))) ∧
      ms.map (fun m => (stringValue m.1, treeJson m.2)) = members := by
  have htexts : List.Forall₂ (fun text m => ∃ k t s, Derives JsonNumber (.value t) s ∧
      text = stringText k ++ 0x3A :: s ∧ (stringValue k, treeJson t) = m)
      (written.map fun w => unitsBytes (memberText w.1 w.2)) members := by
    refine List.forall₂_map_left_iff.mpr (h.imp ?_)
    intro w m hw
    obtain ⟨hname, t, ht, hv⟩ := hw
    obtain ⟨items, hitems, hvalue⟩ := exists_literal w.1
    refine ⟨items, t, _, ht, ?_, Prod.ext (hvalue.trans hname) hv⟩
    rw [memberText, unitsBytes_append, unitsBytes_cons, hitems]
    rfl
  obtain ⟨ms, hms, hread⟩ := Json.exists_members (R := fun m p =>
    (stringValue m.1, treeJson m.2) = p) htexts (by simpa using hne)
  refine ⟨ms, ?_, ?_⟩
  · rwa [unitsBytes_intercalate, List.map_map]
  · rw [← List.forall₂_eq_eq_eq]
    exact List.forall₂_map_left_iff.mpr hread

theorem forall₂_fields (fields : List (String × Value)) :
    List.Forall₂ (fun w m => w.1 = m.1 ∧ ReadsValue w.2 m.2)
      (fields.filterMap fun f => (propertyText numberText f.2).map (Prod.mk (js f.1)))
      (fields.filterMap fun f => (propertyJson numberText f.2).map (Prod.mk (js f.1))) := by
  induction fields with
  | nil => exact .nil
  | cons f fields ih =>
    rcases propertyText_reads hnumber f.2 with ⟨htext, hjson⟩ | ⟨text, w, htext, hjson, hreads⟩
    · simpa [List.filterMap_cons, htext, hjson] using ih
    · simpa [List.filterMap_cons, htext, hjson, hreads] using ih

omit hnumber in
theorem names_sublist (fields : List (String × Value)) :
    ((fields.filterMap fun f => (propertyJson numberText f.2).map (Prod.mk (js f.1))).map
      Prod.fst).Sublist (fields.map fun f => js f.1) := by
  induction fields with
  | nil => exact .slnil
  | cons f fields ih =>
    cases hjson : propertyJson numberText f.2 with
    | none => simpa [List.filterMap_cons, hjson] using ih.cons _
    | some w => simpa [List.filterMap_cons, hjson] using ih

omit hnumber in
theorem defineProperty_new {members : List (JsString × Json)} {key : JsString} {v : Json}
    (h : key ∉ members.map Prod.fst) : defineProperty members key v = members ++ [(key, v)] := by
  induction members with
  | nil => rfl
  | cons m members ih =>
    obtain ⟨k, w⟩ := m
    simp only [List.map_cons, List.mem_cons, not_or] at h
    rw [defineProperty, if_neg (Ne.symm h.1), ih h.2]
    rfl

omit hnumber in
/-- Members with different names are defined one after the other. -/
theorem membersJson_eq {members : List (JsString × Json)} {ms : List (List Item × Tree)}
    (h : (members.map Prod.fst ++ ms.map fun m => stringValue m.1).Nodup) :
    membersJson members ms = members ++ ms.map fun m => (stringValue m.1, treeJson m.2) := by
  induction ms generalizing members with
  | nil => simp [membersJson]
  | cons m ms ih =>
    obtain ⟨k, t⟩ := m
    have hkey : stringValue k ∉ members.map Prod.fst := by
      intro hmem
      exact (List.nodup_append.mp h).2.2 _ hmem _ List.mem_cons_self rfl
    rw [membersJson, defineProperty_new hkey, ih (by simpa using h)]
    simp

/-- **What is written reads as the properties that were not left out**, in their order. -/
theorem parse_stringify {fields : List (String × Value)}
    (hkeys : (fields.map fun f => js f.1).Nodup) :
    parse (stringify numberText fields) = some (.object (fields.filterMap fun f =>
      (propertyJson numberText f.2).map (Prod.mk (js f.1)))) := by
  have hopen : unitBytes 0x7B = [0x7B] := rfl
  have hclose : unitBytes 0x7D = [0x7D] := rfl
  have hws : Ws [] := List.forall_mem_nil _
  have hfields := forall₂_fields hnumber fields
  have htext : stringify numberText fields = 0x7B :: [0x2C].intercalate
      ((fields.filterMap fun f => (propertyText numberText f.2).map (Prod.mk (js f.1))).map
        fun w => memberText w.1 w.2) ++ [0x7D] := by
    rw [stringify, List.map_filterMap]
    simp only [Option.map_map]
    rfl
  have hnodup : ((fields.filterMap fun f => (propertyJson numberText f.2).map
      (Prod.mk (js f.1))).map Prod.fst).Nodup := hkeys.sublist (names_sublist fields)
  rw [htext, parse_eq_some]
  generalize fields.filterMap (fun f => (propertyText numberText f.2).map (Prod.mk (js f.1))) =
    written at hfields
  generalize fields.filterMap (fun f => (propertyJson numberText f.2).map (Prod.mk (js f.1))) =
    members at hfields hnodup
  cases written with
  | nil =>
    cases hfields
    exact ⟨.obj [], ⟨[], _, [], hws, .objEmpty hws, hws, rfl⟩, rfl⟩
  | cons w written =>
    obtain ⟨ms, hms, hread⟩ := exists_properties hfields (List.cons_ne_nil _ _)
    refine ⟨.obj ms, ⟨[], _, [], hws, .obj hms, hws, ?_⟩, ?_⟩
    · simp [hopen, hclose]
    · have hnames : (ms.map fun m => stringValue m.1) = members.map Prod.fst := by
        rw [← hread, List.map_map]
        rfl
      rw [treeJson, membersJson_eq (by simpa [hnames] using hnodup), List.nil_append, hread]

end

/-! ## Engines -/

/-- An array index starts with a digit. -/
def isNamed (key : String) : Bool := (key.toList.head?.map Char.isDigit) == some false

/-- What ECMAScript says of the text of an object and of a number. Properties come in the order in
which they were made unless a name is an array index, and the text of a finite number is a literal
that reads as the same number. -/
structure Engine.Conforms (engine : Engine) : Prop where
  stringify : ∀ fields : List (String × Value), (∀ f ∈ fields, f.2.isPlain = true) →
    (∀ f ∈ fields, isNamed f.1 = true) → (fields.map Prod.fst).Nodup →
    engine.stringify fields = JavaScript.stringify engine.numberText fields
  literal : ∀ x : Finite, JsonNumber (unitsBytes (engine.numberText (.finite x)))
  readsBack : ∀ x : Finite, ∃ y : Finite,
    nearestDouble (unitsBytes (engine.numberText (.finite x))) = some y ∧ y.toRat = x.toRat

/-- Text in ASCII, unit by unit. -/
def asciiText (s : Bytes) : JsString := s.map UInt8.toUInt16

theorem unitsBytes_asciiText {s : Bytes} (h : ∀ b ∈ s, b.toNat < 0x80) :
    unitsBytes (asciiText s) = s := by
  induction s with
  | nil => rfl
  | cons b s ih =>
    rw [List.forall_mem_cons] at h
    have hunit : unitBytes b.toUInt16.toNat = [b] := by
      rw [UInt8.toNat_toUInt16, unitBytes, if_pos h.1, UInt8.ofNat_toNat]
    have htail := ih h.2
    rw [asciiText] at htail ⊢
    rw [List.map_cons, unitsBytes_cons, hunit, htail, List.singleton_append]

theorem unitsBytes_literal {lit : Bytes} (h : JsonNumber lit) :
    unitsBytes (asciiText lit) = lit := by
  have hall : ∀ b, Lib.Json.isNumberByte b = true → b.toNat < 0x80 := byte_cases (by decide +kernel)
  exact unitsBytes_asciiText fun b hb => hall b ((Lib.Json.jsonNumber_numberBytes lit h).2 b hb)

/-- A whole number in decimal, any other one by all its digits. -/
def finiteLiteral (x : Finite) : Bytes :=
  if x.units % unitsPerOne = 0 then writtenNumber x.negative (x.units / unitsPerOne) []
  else allDigits x

theorem jsonNumber_finiteLiteral (x : Finite) : JsonNumber (finiteLiteral x) := by
  unfold finiteLiteral
  split
  · exact jsonNumber_written _ _ (.inl rfl)
  · exact jsonNumber_written _ _ exponent_smallest

theorem nearestDouble_finiteLiteral (x : Finite) : nearestDouble (finiteLiteral x) = some x := by
  unfold finiteLiteral
  split
  · rename_i h
    exact nearestDouble_whole (Nat.div_mul_cancel (Nat.dvd_of_mod_eq_zero h)).symm
  · exact nearestDouble_allDigits x

def digitsText : Double → JsString
  | .finite x => asciiText (finiteLiteral x)
  | .infinite negative => js (if negative then "-Infinity" else "Infinity")
  | .nan => js "NaN"

/-- An engine that writes every digit. It reads no text as a number, and no JSON. -/
def digitsEngine : Engine where
  numberText := digitsText
  textNumber _ := .nan
  parse _ := none
  stringify := stringify digitsText

theorem digitsEngine_conforms : digitsEngine.Conforms where
  stringify _ _ _ _ := rfl
  literal x := by
    have hlit := jsonNumber_finiteLiteral x
    exact (unitsBytes_literal hlit).symm ▸ hlit
  readsBack x := by
    refine ⟨x, ?_, rfl⟩
    have hbytes := unitsBytes_literal (jsonNumber_finiteLiteral x)
    exact hbytes.symm ▸ nearestDouble_finiteLiteral x

end OppexSdk.Lib.JavaScript
