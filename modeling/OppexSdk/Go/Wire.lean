import OppexSdk.Cpp.WireRoundTrip
import OppexSdk.Lib.JsonWriter
import OppexSdk.Lib.Runes

/-! # The Go wire codec

`IncidentRequest` of `golang/oppex/request.go` and `serializeRequest` of `golang/oppex/wire.go`,
with the encoder of `encoding/json` for a struct of strings and integers. A Go string is a list of
bytes that need not be UTF-8; the encoder writes U+FFFD for what is invalid in it. -/
namespace OppexSdk.Go.Wire
open OppexSdk.Lib OppexSdk.Lib.Json OppexSdk.Lib.Runes

/-- `ErrInvalidRequest` with its text, and `ErrClientClosed`. -/
inductive Error
  | invalidRequest (message : String)
  | clientClosed

def invalidf (message : String) : Error :=
  .invalidRequest ("oppex: invalid request: " ++ message)

structure IncidentRequest where
  title : Bytes
  source : Bytes
  severity : Int64
  priority : Int64
  srcTimestamp : Int64
  serviceKey : Bytes
  component : Bytes
  group : Bytes
  type : Bytes
  details : Bytes

def maxSourceLength : Nat := 255

/-- `Severity.Valid`. -/
def validSeverity (s : Int64) : Bool := 1 ≤ s && s ≤ 5

/-- `IncidentRequest.normalize` at the time `now`, in milliseconds. -/
def IncidentRequest.normalize (now : Int64) (r : IncidentRequest) :
    Except Error IncidentRequest :=
  if trimSpace r.title = [] then .error (invalidf "title must not be blank")
  else if trimSpace r.source = [] then .error (invalidf "source must not be blank")
  else if (runes r.source).length > maxSourceLength then
    .error (invalidf "source must not exceed 255 characters")
  else if !validSeverity r.severity then .error (invalidf "severity must be between 1 and 5")
  else
    let normalized := if r.priority = 0 then { r with priority := 1 } else r
    if normalized.priority < 1 || normalized.priority > 5 then
      .error (invalidf "priority must be between 1 and 5")
    else
      let normalized :=
        if normalized.srcTimestamp = 0 then { normalized with srcTimestamp := now } else normalized
      if normalized.srcTimestamp ≤ 0 then
        .error (invalidf "srcTimestamp must be greater than zero")
      else .ok normalized

/-- Normalizing leaves the service key as it is. -/
theorem normalize_serviceKey {now : Int64} {r normalized : IncidentRequest}
    (h : r.normalize now = .ok normalized) : normalized.serviceKey = r.serviceKey := by
  unfold IncidentRequest.normalize at h
  dsimp only at h
  repeat' split at h
  all_goals first | (cases h; done) | (cases h; rfl)

/-! ## The encoder -/

/-- The letter of a two-character escape. -/
def escapeLetter (b : UInt8) : Option UInt8 :=
  if b = 0x22 then some 0x22 else if b = 0x5C then some 0x5C
  else if b = 0x08 then some 0x62 else if b = 0x0C then some 0x66
  else if b = 0x0A then some 0x6E else if b = 0x0D then some 0x72
  else if b = 0x09 then some 0x74 else none

/-- `0123456789abcdef` -/
def hexLetter (d : Nat) : UInt8 := if d < 10 then UInt8.ofNat (0x30 + d) else UInt8.ofNat (0x57 + d)

def escapeByte (b : UInt8) : Bytes :=
  match escapeLetter b with
  | some letter => [0x5C, letter]
  | none =>
    if b < 0x20 then [0x5C, 0x75, 0x30, 0x30, hexLetter (b.toNat / 16), hexLetter (b.toNat % 16)]
    else [b]

/-- One rune of a string. The line separators are escaped for JavaScript's sake. -/
def appendRune : Rune → Bytes
  | .invalid _ => String.utf8EncodeChar (Char.ofNat 0xFFFD)
  | .char c =>
    if c.toNat = 0x2028 then bytes "\\u2028"
    else if c.toNat = 0x2029 then bytes "\\u2029"
    else (String.utf8EncodeChar c).flatMap escapeByte

/-- `appendString` of `encoding/json` without the escaping of HTML. -/
def appendString (s : Bytes) : Bytes := 0x22 :: (runes s).flatMap appendRune ++ [0x22]

/-- A string field with `omitempty`. -/
def omitEmpty (name : String) (v : Bytes) : List (Bytes × Scalar Bytes) :=
  if v = [] then [] else [(bytes name, .text v)]

/-- The fields of `wireRequest` that are written. -/
def wireRequest (request : IncidentRequest) (resolvedServiceKey : Bytes) :
    List (Bytes × Scalar Bytes) :=
  omitEmpty "serviceKey" resolvedServiceKey ++
    [(bytes "title", .text request.title), (bytes "source", .text request.source),
      (bytes "severity", .number request.severity.toInt),
      (bytes "priority", .number request.priority.toInt),
      (bytes "srcTimestamp", .number request.srcTimestamp.toInt)] ++
    omitEmpty "component" request.component ++ omitEmpty "group" request.group ++
    omitEmpty "type" request.type ++ omitEmpty "detailsJSON" request.details

/-- `serializeRequest`. `Encode` writes a line feed behind the object. -/
def serializeRequest (request : IncidentRequest) (resolvedServiceKey : Bytes) : Bytes :=
  openObject appendString (wireRequest request resolvedServiceKey) ++ [0x7D] ++ [0x0A]

/-! ## The payload is an object -/

/-- The text is a run of string items that denotes the bytes, whatever items follow. -/
def Writes (text denoted : Bytes) : Prop :=
  ∃ items, bodyText items = text ∧ ∀ rest, decode (items ++ rest) = denoted ++ decode rest

theorem writes_nil : Writes [] [] := ⟨[], rfl, fun _ => rfl⟩

theorem Writes.append {t t' d d' : Bytes} (h : Writes t d) (h' : Writes t' d') :
    Writes (t ++ t') (d ++ d') := by
  obtain ⟨items, rfl, hd⟩ := h
  obtain ⟨items', rfl, hd'⟩ := h'
  refine ⟨items ++ items', List.flatMap_append, ?_⟩
  intro rest
  rw [List.append_assoc, hd, hd', List.append_assoc]

theorem escapeByte_eq_escaped (b : UInt8) : escapeByte b = Cpp.Json.escaped b := by
  have h : ∀ b, escapeByte b = Cpp.Json.escaped b := byte_cases (by decide +kernel)
  exact h b

theorem writes_bytes (s : Bytes) : Writes (s.flatMap escapeByte) s := by
  induction s with
  | nil => exact writes_nil
  | cons b s ih =>
    obtain ⟨item, hitem, hdecode⟩ := Cpp.Wire.exists_item b
    rw [← escapeByte_eq_escaped] at hitem
    exact Writes.append (d := [b]) ⟨[item], by simpa [bodyText] using hitem, hdecode⟩ ih

/-- A unicode escape that is no surrogate. -/
theorem writes_unicode {a b c d : UInt8} (hhex : [a, b, c, d].all isHexDigit = true)
    (hhigh : isHighSurrogate (Item.unit a b c d) = false) :
    Writes [0x5C, 0x75, a, b, c, d] (utf8 (Item.unit a b c d)) := by
  refine ⟨[.unicode a b c d hhex], rfl, ?_⟩
  intro rest
  exact Lib.Json.decode_alone hhex (Lib.Json.apart_of_not_high [] hhex hhigh rest)

theorem writes_appendRune (r : Rune) : Writes (appendRune r) (String.utf8EncodeChar r.toChar) := by
  cases r with
  | invalid b =>
    -- no byte of U+FFFD is escaped
    have hraw : (String.utf8EncodeChar (Char.ofNat 0xFFFD)).flatMap escapeByte =
        String.utf8EncodeChar (Char.ofNat 0xFFFD) := rfl
    exact hraw ▸ writes_bytes (String.utf8EncodeChar (Char.ofNat 0xFFFD))
  | char c =>
    simp only [appendRune, Rune.toChar]
    split_ifs with h h'
    · have hc : c = Char.ofNat 0x2028 := by rw [← h, Char.ofNat_toNat]
      rw [hc]
      exact writes_unicode (a := 0x32) (b := 0x30) (c := 0x32) (d := 0x38) rfl rfl
    · have hc : c = Char.ofNat 0x2029 := by rw [← h', Char.ofNat_toNat]
      rw [hc]
      exact writes_unicode (a := 0x32) (b := 0x30) (c := 0x32) (d := 0x39) rfl rfl
    · exact writes_bytes _

/-- The encoder renders a string as a literal that denotes it, with what is invalid replaced. -/
theorem renders_appendString : Renders toValid appendString := by
  intro s
  have hbody : ∀ rs : List Rune,
      Writes (rs.flatMap appendRune) (Utf8.encode (rs.map Rune.toChar)) := by
    intro rs
    induction rs with
    | nil => exact writes_nil
    | cons r rs ih => exact (writes_appendRune r).append ih
  obtain ⟨items, htext, hdecode⟩ := hbody (runes s)
  refine ⟨items, by rw [stringText, htext, appendString], ?_⟩
  have hall := hdecode []
  rwa [List.append_nil, decode, List.append_nil] at hall

/-- The payload is the object of the fields that are written. -/
theorem isObjectOf_serializeRequest (request : IncidentRequest) (key : Bytes) :
    IsObjectOf toValid (wireRequest request key) (serializeRequest request key) := by
  obtain ⟨ms, ⟨w, s, w', hw, hs, hw', heq⟩, hreads⟩ :=
    isObjectOf_written renders_appendString (wireRequest request key)
  refine ⟨ms, ⟨w, s, w' ++ [0x0A], hw, hs, hw'.append (by simp [Ws, isWs]), ?_⟩, hreads⟩
  rw [serializeRequest, heq]
  simp

end OppexSdk.Go.Wire
