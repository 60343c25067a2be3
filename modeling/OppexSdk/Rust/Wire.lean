import OppexSdk.Cpp.WireRoundTrip
import OppexSdk.Lib.JsonWriter
import OppexSdk.Rust.Request

/-! # The Rust wire codec

`serialize_request` of `rust/src/internal/wire.rs`. A Rust `String` is its UTF-8 bytes on the
wire; `render` is `Value::from(s).to_string()`, which `serde_json` provides. The payload is the
JSON object of the request's fields for every correct rendering, and for the rendering
`serde_json` has it is the payload of the C++ codec byte for byte. -/
namespace OppexSdk.Rust.Wire
open OppexSdk.Lib OppexSdk.Lib.Json

/-- The variables `payload` and `first` of `serialize_request`. -/
structure Payload where
  payload : Bytes
  first : Bool

section
variable (render : String → Bytes)

def pushSeparator (p : Payload) : Payload :=
  if p.first then { p with first := false } else { p with payload := p.payload ++ [0x2C] }

def pushString (p : Payload) (name value : String) : Payload :=
  let p := pushSeparator p
  { p with payload := p.payload ++ render name ++ [0x3A] ++ render value }

def pushOptionalString (p : Payload) (name : String) : Option String → Payload
  | some value => pushString render p name value
  | none => p

def pushNumber (p : Payload) (name : String) (value : Int) : Payload :=
  let p := pushSeparator p
  { p with payload := p.payload ++ render name ++ [0x3A] ++ signedDecimal value }

def serializeRequest (request : IncidentRequest) (resolvedServiceKey : Option String) : Bytes :=
  let p : Payload := ⟨[0x7B], true⟩
  let p := pushOptionalString render p "serviceKey" resolvedServiceKey
  let p := pushString render p "title" request.title
  let p := pushString render p "source" request.source
  let p := pushNumber render p "severity" request.severity.value.toNat
  let p := pushNumber render p "priority" request.priority.toNat
  let p := pushNumber render p "srcTimestamp" request.srcTimestamp.toInt
  let p := pushOptionalString render p "component" request.component
  let p := pushOptionalString render p "group" request.group
  let p := pushOptionalString render p "type" request.incidentType
  let p := pushOptionalString render p "detailsJSON" request.details
  p.payload ++ [0x7D]

/-! ## The payload is an object -/

/-- A field that is present when it has a value. -/
def optional (name : String) (v : Option String) : List (String × Scalar String) :=
  (v.map fun s => (name, Scalar.text s)).toList

/-- The members of a payload, in the agreed wire order. -/
def fields (request : IncidentRequest) (key : Option String) : List (String × Scalar String) :=
  optional "serviceKey" key ++
    [("title", .text request.title), ("source", .text request.source),
      ("severity", .number request.severity.value.toNat),
      ("priority", .number request.priority.toNat),
      ("srcTimestamp", .number request.srcTimestamp.toInt)] ++
    optional "component" request.component ++ optional "group" request.group ++
    optional "type" request.incidentType ++ optional "detailsJSON" request.details

/-- The payload after some fields. -/
def written (fs : List (String × Scalar String)) : Payload :=
  ⟨openObject render fs, fs.isEmpty⟩

variable {render}

theorem pushString_written (fs : List (String × Scalar String)) (name value : String) :
    pushString render (written render fs) name value =
      written render (fs ++ [(name, .text value)]) := by
  unfold pushString pushSeparator written
  rw [openObject_concat]
  cases fs with
  | nil => simp [memberText, Scalar.written]
  | cons f fs => simp [memberText, Scalar.written]

theorem pushNumber_written (fs : List (String × Scalar String)) (name : String) (value : Int) :
    pushNumber render (written render fs) name value =
      written render (fs ++ [(name, .number value)]) := by
  unfold pushNumber pushSeparator written
  rw [openObject_concat]
  cases fs with
  | nil => simp [memberText, Scalar.written]
  | cons f fs => simp [memberText, Scalar.written]

theorem pushOptionalString_written (fs : List (String × Scalar String)) (name : String)
    (v : Option String) :
    pushOptionalString render (written render fs) name v =
      written render (fs ++ optional name v) := by
  cases v with
  | none => simp [pushOptionalString, optional]
  | some value => exact pushString_written fs name value

theorem serializeRequest_eq (request : IncidentRequest) (key : Option String) :
    serializeRequest render request key = openObject render (fields request key) ++ [0x7D] := by
  have hstart : (⟨[0x7B], true⟩ : Payload) = written render [] := rfl
  unfold serializeRequest
  simp only [hstart, pushOptionalString_written, pushString_written, pushNumber_written]
  simp [fields, written]

/-- A correct rendering makes the payload the object of the request's fields. -/
theorem isObjectOf_serializeRequest (hr : Renders bytes render) (request : IncidentRequest)
    (key : Option String) :
    IsObjectOf bytes (fields request key) (serializeRequest render request key) := by
  rw [serializeRequest_eq]
  exact isObjectOf_written hr (fields request key)

end

/-! ## The rendering of `serde_json` -/

/-- The letter of a two-character escape. -/
def escapeLetter (b : UInt8) : Option UInt8 :=
  if b = 0x22 then some 0x22 else if b = 0x5C then some 0x5C
  else if b = 0x08 then some 0x62 else if b = 0x0C then some 0x66
  else if b = 0x0A then some 0x6E else if b = 0x0D then some 0x72
  else if b = 0x09 then some 0x74 else none

/-- `0123456789abcdef` -/
def hexLetter (d : Nat) : UInt8 := if d < 10 then UInt8.ofNat (0x30 + d) else UInt8.ofNat (0x57 + d)

def serdeEscape (b : UInt8) : Bytes :=
  match escapeLetter b with
  | some letter => [0x5C, letter]
  | none =>
    if b < 0x20 then [0x5C, 0x75, 0x30, 0x30, hexLetter (b.toNat / 16), hexLetter (b.toNat % 16)]
    else [b]

/-- What `serde_json` makes of a string, by its documentation. -/
def serdeRender (s : String) : Bytes := 0x22 :: (bytes s).flatMap serdeEscape ++ [0x22]

theorem serdeEscape_eq_escaped (b : UInt8) : serdeEscape b = Cpp.Json.escaped b := by
  have h : ∀ b, serdeEscape b = Cpp.Json.escaped b := byte_cases (by decide +kernel)
  exact h b

theorem serdeRender_eq_appendEscaped (s : String) :
    serdeRender s = Cpp.Json.appendEscaped (bytes s) := by
  have h : serdeEscape = Cpp.Json.escaped := funext serdeEscape_eq_escaped
  rw [serdeRender, Cpp.Json.appendEscaped, h]

theorem renders_serdeRender : Renders bytes serdeRender := by
  intro s
  obtain ⟨items, htext, hdecode⟩ := Cpp.Wire.exists_items (bytes s)
  exact ⟨items, htext.trans (serdeRender_eq_appendEscaped s).symm, hdecode⟩

/-! ## The same bytes as C++ -/

/-- The C++ request has the field values of the Rust one. -/
structure SameFields (r : IncidentRequest) (n : Cpp.Wire.NormalizedRequest) : Prop where
  title : n.title = bytes r.title
  source : n.source = bytes r.source
  severity : n.severity.toInt = r.severity.value.toNat
  priority : n.priority.toInt = r.priority.toNat
  srcTimestamp : n.srcTimestamp = r.srcTimestamp
  serviceKey : n.serviceKey = r.serviceKey.map bytes
  component : n.component = r.component.map bytes
  group : n.group = r.group.map bytes
  type : n.type = r.incidentType.map bytes
  details : n.details = r.details.map bytes

/-- The C++ variables `out` and `first` in the same state. -/
def Payload.toCpp (p : Payload) : Cpp.Wire.Payload := ⟨p.payload, p.first⟩

theorem toCpp_pushString (p : Payload) (name value : String) :
    (pushString serdeRender p name value).toCpp =
      Cpp.Wire.appendString p.toCpp (bytes name) (bytes value) := by
  unfold pushString pushSeparator Cpp.Wire.appendString Cpp.Wire.appendField Payload.toCpp
  rw [serdeRender_eq_appendEscaped, serdeRender_eq_appendEscaped]
  cases hfirst : p.first with
  | true => simp
  | false => simp

theorem toCpp_pushNumber (p : Payload) (name : String) (value : Int) :
    (pushNumber serdeRender p name value).toCpp =
      Cpp.Wire.appendNumber p.toCpp (bytes name) value := by
  unfold pushNumber pushSeparator Cpp.Wire.appendNumber Cpp.Wire.appendField Payload.toCpp
  rw [serdeRender_eq_appendEscaped]
  cases hfirst : p.first with
  | true => simp
  | false => simp

theorem toCpp_pushOptionalString (p : Payload) (name : String) (v : Option String) :
    (pushOptionalString serdeRender p name v).toCpp =
      Cpp.Wire.appendOptionalString p.toCpp (bytes name) (v.map bytes) := by
  cases v with
  | none => rfl
  | some value => exact toCpp_pushString p name value

/-- **Rust and C++ put the same bytes on the wire** when the rendering is that of `serde_json`. -/
theorem same_bytes_on_the_wire {render : String → Bytes} (hrender : ∀ s, render s = serdeRender s)
    {r : IncidentRequest} {n : Cpp.Wire.NormalizedRequest} (h : SameFields r n)
    (key : Option String) :
    serializeRequest render r key = Cpp.Wire.serializeRequest n (key.map bytes) := by
  obtain rfl : render = serdeRender := funext hrender
  have hstart : (⟨[0x7B], true⟩ : Cpp.Wire.Payload) = Payload.toCpp ⟨[0x7B], true⟩ := rfl
  have hout : ∀ p : Payload, p.toCpp.out = p.payload := fun _ => rfl
  unfold serializeRequest Cpp.Wire.serializeRequest
  rw [h.title, h.source, h.severity, h.priority, h.srcTimestamp, h.component, h.group, h.type,
    h.details]
  simp only [hstart, ← toCpp_pushOptionalString, ← toCpp_pushString, ← toCpp_pushNumber, hout]

theorem same_bytes_for_an_outage :
    serializeRequest serdeRender
        ⟨none, "é\n", "api", .high, 2, 1700000000000, none, none, none, some "\x7b\x7d"⟩
        (some "key") =
      Cpp.Wire.serializeRequest
        ⟨bytes "é\n", bytes "api", 4, 2, 1700000000000, none, none, none, none,
          some (bytes "\x7b\x7d")⟩
        (some (bytes "key")) :=
  same_bytes_on_the_wire (fun _ => rfl) ⟨rfl, rfl, rfl, rfl, rfl, rfl, rfl, rfl, rfl, rfl⟩
    (some "key")

end OppexSdk.Rust.Wire
