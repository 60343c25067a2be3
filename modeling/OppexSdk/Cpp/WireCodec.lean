import OppexSdk.Cpp.Json
import OppexSdk.Cpp.RetryPolicy

/-! # The C++ wire codec

`cpp/src/wire_codec.cpp`: the payload of a normalized request and the decoding of a response. -/
namespace OppexSdk.Cpp.Wire
open OppexSdk.Lib OppexSdk.Cpp.Json

/-- `IsBlank`: no character other than `" \t\n\r\f\v"`. -/
def isBlank (value : Bytes) : Bool :=
  value.all fun c =>
    c == 0x20 || c == 0x09 || c == 0x0A || c == 0x0D || c == 0x0C || c == 0x0B

structure NormalizedRequest where
  title : Bytes
  source : Bytes
  severity : Int32
  priority : Int32
  srcTimestamp : Int64
  serviceKey : Option Bytes
  component : Option Bytes
  group : Option Bytes
  type : Option Bytes
  details : Option Bytes

/-! ## The payload -/

/-- The variables `out` and `first` of `SerializeRequest`. -/
structure Payload where
  out : Bytes
  first : Bool

def appendField (p : Payload) (name : Bytes) : Payload :=
  let out := if p.first then p.out else p.out ++ [0x2C]
  ⟨out ++ appendEscaped name ++ [0x3A], false⟩

/-- A field and its value as a string literal. -/
def appendString (p : Payload) (name value : Bytes) : Payload :=
  let p := appendField p name
  { p with out := p.out ++ appendEscaped value }

def appendOptionalString (p : Payload) (name : Bytes) : Option Bytes → Payload
  | none => p
  | some value => appendString p name value

def appendNumber (p : Payload) (name : Bytes) (value : Int) : Payload :=
  let p := appendField p name
  { p with out := p.out ++ signedDecimal value }

def serializeRequest (request : NormalizedRequest) (resolvedServiceKey : Option Bytes) : Bytes :=
  let p : Payload := ⟨[0x7B], true⟩
  let p := appendOptionalString p (bytes "serviceKey") resolvedServiceKey
  let p := appendString p (bytes "title") request.title
  let p := appendString p (bytes "source") request.source
  let p := appendNumber p (bytes "severity") request.severity.toInt
  let p := appendNumber p (bytes "priority") request.priority.toInt
  let p := appendNumber p (bytes "srcTimestamp") request.srcTimestamp.toInt
  let p := appendOptionalString p (bytes "component") request.component
  let p := appendOptionalString p (bytes "group") request.group
  let p := appendOptionalString p (bytes "type") request.type
  let p := appendOptionalString p (bytes "detailsJSON") request.details
  p.out ++ [0x7D]

/-! ## The response -/

structure IncidentResponse where
  successful : Bool
  /-- The `int` code, unless it comes out of an undefined conversion. -/
  code : Value.Cast
  message : Option Bytes
  incidentId : Option Bytes

/-- `static_cast<int>` of an `int64_t`, modulo `2 ^ 32`. -/
def castInt : Value.Cast → Value.Cast
  | .value i => .value (i.bmod (2 ^ 32))
  | .undefined => .undefined

def parseResponse (httpStatus : Int) (body : Bytes) : Except IncidentError IncidentResponse :=
  let response : IncidentResponse :=
    ⟨decide (200 ≤ httpStatus ∧ httpStatus < 300), .value httpStatus, none, none⟩
  if body.isEmpty || isBlank body then .ok response
  else
    match (parse body).bind Value.asObject with
    | none => .error (.new .kDelivery
        (bytes "Oppex returned a non-JSON response (status " ++ signedDecimal httpStatus ++
          bytes ")") httpStatus)
    | some envelope => .ok
        { successful :=
            ((envelope.find (bytes "success")).bind Value.asBool).getD response.successful
          code :=
            (((envelope.find (bytes "code")).bind Value.asInt).map castInt).getD response.code
          message := (envelope.find (bytes "message")).bind Value.asString
          incidentId := (envelope.find (bytes "data")).bind Value.asString }

end OppexSdk.Cpp.Wire
