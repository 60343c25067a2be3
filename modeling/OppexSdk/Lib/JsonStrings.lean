import OppexSdk.Lib.JsonUtf8
import OppexSdk.Lib.JsonWriter
import OppexSdk.Lib.Runes

/-! # Strings written character by character

An encoder writes each character raw, as a two-character escape, or as the unicode escapes of its
UTF-16 units. Whatever it chooses for which character, its string literals denote what was to be
written; `Spells` is what has to be shown of each choice. -/
namespace OppexSdk.Lib.Json

/-- The text is a run of items that denotes the bytes, and pairs with nothing behind it. -/
def Spells (text denoted : Bytes) : Prop :=
  ∃ items, bodyText items = text ∧ decode items = denoted ∧ ∀ rest, Apart items rest

theorem Spells.append {s t d e : Bytes} (h : Spells s d) (h' : Spells t e) :
    Spells (s ++ t) (d ++ e) := by
  obtain ⟨items, rfl, rfl, hapart⟩ := h
  obtain ⟨items', rfl, rfl, hapart'⟩ := h'
  refine ⟨items ++ items', List.flatMap_append, decode_append (hapart _), ?_⟩
  intro rest
  cases items' with
  | nil => rw [List.append_nil]; exact hapart rest
  | cons item items' =>
    intro x hx
    rw [List.getLast?_append_of_ne_nil _ (List.cons_ne_nil _ _)] at hx
    exact hapart' rest x hx

/-- A character that may stand for itself. -/
def standsAlone (c : Char) : Bool := 0x20 ≤ c.toNat && c.toNat != 0x22 && c.toNat != 0x5C

/-- Hexadecimal digits for the numbers below sixteen. -/
structure HexDigits (digit : Nat → UInt8) : Prop where
  isHexDigit : ∀ d < 16, isHexDigit (digit d) = true
  value : ∀ d < 16, hexValue (digit d) = d

/-- The unicode escape of a UTF-16 unit. -/
def unitEscape (digit : Nat → UInt8) (u : Nat) : Bytes :=
  [0x5C, 0x75, digit (u / 4096), digit (u / 256 % 16), digit (u / 16 % 16), digit (u % 16)]

/-- How an encoder writes characters: which have a two-character escape, which of the others are
written as they are, and the hexadecimal digits for the rest. -/
structure Style where
  short : List ShortEscape
  raw : Char → Bool
  digit : Nat → UInt8

namespace Style

def shortOf (style : Style) (c : Char) : Option ShortEscape :=
  style.short.find? fun e => e.meaning.toNat == c.toNat

def write (style : Style) (c : Char) : Bytes :=
  match style.shortOf c with
  | some e => [0x5C, e.letter]
  | none =>
    if style.raw c then String.utf8EncodeChar c else (charUnits c).flatMap (unitEscape style.digit)

/-- The literal of a text. -/
def render (style : Style) (s : String) : Bytes := 0x22 :: s.toList.flatMap style.write ++ [0x22]

/-- What is written raw may be, and the digits are digits. -/
structure Sound (style : Style) : Prop where
  raw : ∀ c, style.shortOf c = none → style.raw c = true → standsAlone c = true
  digits : HexDigits style.digit

end Style

/-- `0123456789abcdef` -/
def lowerDigit (d : Nat) : UInt8 := UInt8.ofNat (if d < 10 then 0x30 + d else 0x57 + d)

/-- `0123456789ABCDEF` -/
def upperDigit (d : Nat) : UInt8 := UInt8.ofNat (if d < 10 then 0x30 + d else 0x37 + d)

end OppexSdk.Lib.Json
