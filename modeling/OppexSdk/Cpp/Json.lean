import OppexSdk.Lib.FromChars

/-! # The C++ JSON reader and writer

`cpp/src/json.hpp` and `cpp/src/json.cpp`. A member function of `Parser` becomes a function of the
text and the position; one that consumes input returns `Parsed`, whose position lies beyond the
one it started from and inside the text, and `none` where the source returns `nullopt` or `false`.
Every `text[position]` carries the bound the source checks before it reads. -/
namespace OppexSdk.Cpp.Json
open OppexSdk.Lib OppexSdk.Lib.Binary64 OppexSdk.Lib.FromChars
open OppexSdk.Lib.Json (isWs isNumberByte)

/-- The alternatives of `Value::Storage`. An object is a `std::map`; it is only ever asked for a
key, so the model lists its members in the order in which the keys came. -/
inductive Value
  | null
  | bool (b : Bool)
  | number (d : Double)
  | string (s : Bytes)
  | array (elems : List Value)
  | object (members : List (Bytes × Value))

abbrev Object := List (Bytes × Value)

namespace Object

/-- `std::map::find`. -/
def find (object : Object) (key : Bytes) : Option Value := object.lookup key

def insertOrAssign : Object → Bytes → Value → Object
  | [], key, value => [(key, value)]
  | (k, v) :: rest, key, value =>
    if k = key then (k, value) :: rest else (k, v) :: insertOrAssign rest key value

end Object

namespace Value

def asObject : Value → Option Object
  | object members => some members
  | _ => none

def asBool : Value → Option Bool
  | bool b => some b
  | _ => none

def asString : Value → Option Bytes
  | string s => some s
  | _ => none

/-- What `static_cast<std::int64_t>` of a double yields. -/
inductive Cast
  | value (i : Int)
  /-- The truncated value does not fit: undefined behaviour. -/
  | undefined
  deriving DecidableEq

def castInt64 (x : Finite) : Cast :=
  if -2 ^ 63 ≤ x.trunc ∧ x.trunc ≤ 2 ^ 63 - 1 then .value x.trunc else .undefined

/-- `AsInt`. The two limits as doubles are `-2 ^ 63` and, rounded to nearest, `2 ^ 63`. -/
def asInt : Value → Option Cast
  | number (.finite x) =>
    if x.toRat < -2 ^ 63 ∨ x.toRat > 2 ^ 63 then none else some (castInt64 x)
  | _ => none

end Value

/-! ## The parser -/

/-- What a member function returns when it has consumed input from `position`. -/
structure Parsed (text : Bytes) (position : Nat) (α : Type) where
  value : α
  /-- `position_` on return. -/
  next : Nat
  advances : position < next
  inside : next ≤ text.length

namespace Parsed
variable {text : Bytes} {p q : Nat} {α β : Type}

/-- The same, as seen from an earlier position. -/
def since (r : Parsed text q α) (h : p ≤ q) : Parsed text p α :=
  ⟨r.value, r.next, Nat.lt_of_le_of_lt h r.advances, r.inside⟩

def map (f : α → β) (r : Parsed text p α) : Parsed text p β :=
  ⟨f r.value, r.next, r.advances, r.inside⟩

end Parsed

/-- `while (position_ < text_.size() && accept(text_[position_])) ++position_`. -/
def scanWhile (accept : UInt8 → Bool) (text : Bytes) (position : Nat) : Nat :=
  if h : position < text.length then
    if accept text[position] then scanWhile accept text (position + 1) else position
  else position
termination_by text.length - position

theorem le_scanWhile (accept : UInt8 → Bool) (text : Bytes) (position : Nat) :
    position ≤ scanWhile accept text position := by
  fun_induction scanWhile accept text position with
  | case1 position _ _ ih => omega
  | case2 => exact le_rfl
  | case3 => exact le_rfl

theorem scanWhile_le (accept : UInt8 → Bool) {text : Bytes} {position : Nat}
    (h : position ≤ text.length) : scanWhile accept text position ≤ text.length := by
  fun_induction scanWhile accept text position with
  | case1 position hlt _ ih => exact ih hlt
  | case2 => exact h
  | case3 => exact h

def skipWhitespace (text : Bytes) (position : Nat) : Nat := scanWhile isWs text position

theorem le_skipWhitespace (text : Bytes) (position : Nat) :
    position ≤ skipWhitespace text position := le_scanWhile isWs text position

def consume (expected : UInt8) (text : Bytes) (position : Nat) :
    Option (Parsed text position Unit) :=
  if h : position < text.length then
    if text[position] = expected then some ⟨(), position + 1, Nat.lt_succ_self _, h⟩ else none
  else none

/-- `text_.compare(position_, expected.size(), expected) == 0`. -/
def compareAt (text : Bytes) (position : Nat) (expected : Bytes) : Bool :=
  (text.drop position).take expected.length == expected

theorem compareAt_inside {text : Bytes} {position : Nat} {expected : Bytes} (hne : expected ≠ [])
    (h : compareAt text position expected = true) :
    position < position + expected.length ∧ position + expected.length ≤ text.length := by
  have hlen := congrArg List.length (eq_of_beq h)
  have hpos : 0 < expected.length := List.length_pos_iff.mpr hne
  simp only [List.length_take, List.length_drop] at hlen
  omega

def parseLiteral (text : Bytes) (position : Nat) (literal : Bytes) (value : Value)
    (hne : literal ≠ []) : Option (Parsed text position Value) :=
  if h : compareAt text position literal then
    some ⟨value, position + literal.length, (compareAt_inside hne h).1, (compareAt_inside hne h).2⟩
  else none

def parseNumber (text : Bytes) (position : Nat) (hpos : position < text.length) :
    Option (Parsed text position Value) :=
  let afterMinus := if text[position] = 0x2D then position + 1 else position
  let last := scanWhile isNumberByte text afterMinus
  have hminus : position ≤ afterMinus ∧ afterMinus ≤ text.length := by
    simp only [afterMinus]; split <;> omega
  if h : last = position then none
  else
    let result := fromChars ((text.drop position).take (last - position)) (.finite zero)
    if result.1 ≠ [] then none
    else some
      { value := .number result.2
        next := last
        advances := Nat.lt_of_le_of_ne
          (hminus.1.trans (le_scanWhile isNumberByte text afterMinus)) (Ne.symm h)
        inside := scanWhile_le isNumberByte hminus.2 }

def readHexQuad (text : Bytes) (position : Nat) : Option (Parsed text position Nat) :=
  if h : position + 4 ≤ text.length then
    let result := fromCharsHex ((text.drop position).take 4)
    if result.1 ≠ [] then none else some ⟨result.2, position + 4, by omega, h⟩
  else none

/-- The bytes `AppendUtf8` appends. -/
def appendUtf8 (codePoint : Nat) : Bytes :=
  if codePoint < 0x80 then [UInt8.ofNat codePoint]
  else if codePoint < 0x800 then
    [UInt8.ofNat (0xC0 ||| (codePoint >>> 6)), UInt8.ofNat (0x80 ||| (codePoint &&& 0x3F))]
  else if codePoint < 0x10000 then
    [UInt8.ofNat (0xE0 ||| (codePoint >>> 12)),
      UInt8.ofNat (0x80 ||| ((codePoint >>> 6) &&& 0x3F)),
      UInt8.ofNat (0x80 ||| (codePoint &&& 0x3F))]
  else
    [UInt8.ofNat (0xF0 ||| (codePoint >>> 18)),
      UInt8.ofNat (0x80 ||| ((codePoint >>> 12) &&& 0x3F)),
      UInt8.ofNat (0x80 ||| ((codePoint >>> 6) &&& 0x3F)),
      UInt8.ofNat (0x80 ||| (codePoint &&& 0x3F))]

/-- `ParseUnicodeEscape`, with the bytes it appends. -/
def parseUnicodeEscape (text : Bytes) (position : Nat) : Option (Parsed text position Bytes) := do
  let first ← readHexQuad text position
  let codePoint := first.value
  if 0xD800 ≤ codePoint ∧ codePoint ≤ 0xDBFF ∧ compareAt text first.next (bytes "\\u") then
    let replaced := first.map fun _ => appendUtf8 0xFFFD
    match readHexQuad text (first.next + 2) with
    | some low =>
      if 0xDC00 ≤ low.value ∧ low.value ≤ 0xDFFF then
        let combined := 0x10000 + ((codePoint - 0xD800) <<< 10) + (low.value - 0xDC00)
        some ((low.map fun _ => appendUtf8 combined).since
          (first.advances.le.trans (Nat.le_add_right _ 2)))
      else some replaced
    | none => some replaced
  else if 0xD800 ≤ codePoint ∧ codePoint ≤ 0xDFFF then some (first.map fun _ => appendUtf8 0xFFFD)
  else some (first.map fun _ => appendUtf8 codePoint)

/-- `ParseEscape`, with the bytes it appends. -/
def parseEscape (text : Bytes) (position : Nat) : Option (Parsed text position Bytes) :=
  if h : position < text.length then
    let escape := text[position]
    let appended (b : UInt8) : Option (Parsed text position Bytes) :=
      some ⟨[b], position + 1, Nat.lt_succ_self _, h⟩
    if escape = 0x22 ∨ escape = 0x5C ∨ escape = 0x2F then appended escape
    else if escape = 0x62 then appended 0x08
    else if escape = 0x66 then appended 0x0C
    else if escape = 0x6E then appended 0x0A
    else if escape = 0x72 then appended 0x0D
    else if escape = 0x74 then appended 0x09
    else if escape = 0x75 then
      (parseUnicodeEscape text (position + 1)).map (·.since (Nat.le_succ _))
    else none
  else none

/-- The loop of `ParseString` after the opening quote. -/
def parseStringLoop (text : Bytes) (position : Nat) (out : Bytes) :
    Option (Parsed text position Bytes) :=
  if h : position < text.length then
    let character := text[position]
    if character = 0x22 then some ⟨out, position + 1, Nat.lt_succ_self _, h⟩
    else if character ≠ 0x5C then
      if character < 0x20 then none
      else (parseStringLoop text (position + 1) (out ++ [character])).map (·.since (Nat.le_succ _))
    else
      (parseEscape text (position + 1)).bind fun escape =>
        (parseStringLoop text escape.next (out ++ escape.value)).map
          (·.since ((Nat.le_succ _).trans escape.advances.le))
  else none
termination_by text.length - position
decreasing_by
  · omega
  · have := escape.advances; have := escape.inside; omega

def parseString (text : Bytes) (position : Nat) : Option (Parsed text position Bytes) :=
  (consume 0x22 text position).bind fun quote =>
    (parseStringLoop text quote.next []).map (·.since quote.advances.le)

section
variable (text : Bytes) (parseValue : (position : Nat) → Option (Parsed text position Value))

/-- The loop of `ParseObject`. -/
def parseMembers (position : Nat) (object : Object) : Option (Parsed text position Value) :=
  (parseString text (skipWhitespace text position)).bind fun key =>
  (consume 0x3A text (skipWhitespace text key.next)).bind fun colon =>
  (parseValue (skipWhitespace text colon.next)).bind fun value =>
    have hadvances : position ≤ skipWhitespace text value.next := by
      have := le_skipWhitespace text position; have := key.advances
      have := le_skipWhitespace text key.next; have := colon.advances
      have := le_skipWhitespace text colon.next; have := value.advances
      have := le_skipWhitespace text value.next
      omega
    let object := object.insertOrAssign key.value value.value
    match consume 0x2C text (skipWhitespace text value.next) with
    | some comma =>
      (parseMembers comma.next object).map (·.since (hadvances.trans comma.advances.le))
    | none =>
      (consume 0x7D text (skipWhitespace text value.next)).map fun close =>
        (close.map fun _ => .object object).since hadvances
termination_by text.length - position
decreasing_by
  have := comma.advances; have := comma.inside; omega

def parseObject (position : Nat) : Option (Parsed text position Value) :=
  have hstart : position ≤ skipWhitespace text (position + 1) :=
    (Nat.le_succ _).trans (le_skipWhitespace text _)
  match consume 0x7D text (skipWhitespace text (position + 1)) with
  | some close => some ((close.map fun _ => .object []).since hstart)
  | none =>
    (parseMembers text parseValue (skipWhitespace text (position + 1)) []).map (·.since hstart)

/-- The loop of `ParseArray`. -/
def parseElements (position : Nat) (array : List Value) : Option (Parsed text position Value) :=
  (parseValue (skipWhitespace text position)).bind fun value =>
    have hadvances : position ≤ skipWhitespace text value.next := by
      have := le_skipWhitespace text position; have := value.advances
      have := le_skipWhitespace text value.next
      omega
    let array := array ++ [value.value]
    match consume 0x2C text (skipWhitespace text value.next) with
    | some comma =>
      (parseElements comma.next array).map (·.since (hadvances.trans comma.advances.le))
    | none =>
      (consume 0x5D text (skipWhitespace text value.next)).map fun close =>
        (close.map fun _ => .array array).since hadvances
termination_by text.length - position
decreasing_by
  have := comma.advances; have := comma.inside; omega

def parseArray (position : Nat) : Option (Parsed text position Value) :=
  have hstart : position ≤ skipWhitespace text (position + 1) :=
    (Nat.le_succ _).trans (le_skipWhitespace text _)
  match consume 0x5D text (skipWhitespace text (position + 1)) with
  | some close => some ((close.map fun _ => .array []).since hstart)
  | none =>
    (parseElements text parseValue (skipWhitespace text (position + 1)) []).map (·.since hstart)

end

def kMaxDepth : Nat := 64

/-- `ParseValue`, by the levels left: `kMaxDepth + 1 - depth`. -/
def parseValue (text : Bytes) : (levels position : Nat) → Option (Parsed text position Value)
  | 0, _ => none
  | levels + 1, position =>
    if h : position < text.length then
      if text[position] = 0x7B then parseObject text (parseValue text levels) position
      else if text[position] = 0x5B then parseArray text (parseValue text levels) position
      else if text[position] = 0x22 then (parseString text position).map (·.map .string)
      else if text[position] = 0x74 then
        parseLiteral text position (bytes "true") (.bool true) (by decide)
      else if text[position] = 0x66 then
        parseLiteral text position (bytes "false") (.bool false) (by decide)
      else if text[position] = 0x6E then
        parseLiteral text position (bytes "null") .null (by decide)
      else parseNumber text position h
    else none

def parseDocument (text : Bytes) : Option Value :=
  (parseValue text (kMaxDepth + 1) (skipWhitespace text 0)).bind fun value =>
    if skipWhitespace text value.next = text.length then some value.value else none

/-- `json::Parse`. -/
def parse (text : Bytes) : Option Value := parseDocument text

/-! ## The writer -/

/-- The lower-case hexadecimal digit of a number below sixteen. -/
def hexDigit (n : Nat) : UInt8 := UInt8.ofNat (if n < 10 then 0x30 + n else 0x57 + n)

/-- The bytes `AppendEscaped` appends for one character. -/
def escaped (character : UInt8) : Bytes :=
  if character = 0x22 then bytes "\\\""
  else if character = 0x5C then bytes "\\\\"
  else if character = 0x08 then bytes "\\b"
  else if character = 0x0C then bytes "\\f"
  else if character = 0x0A then bytes "\\n"
  else if character = 0x0D then bytes "\\r"
  else if character = 0x09 then bytes "\\t"
  else if character < 0x20 then
    -- `\u%04x`
    bytes "\\u00" ++ [hexDigit (character.toNat / 16), hexDigit (character.toNat % 16)]
  else [character]

/-- `AppendEscaped`: the bytes it appends. -/
def appendEscaped (value : Bytes) : Bytes := 0x22 :: value.flatMap escaped ++ [0x22]

end OppexSdk.Cpp.Json
