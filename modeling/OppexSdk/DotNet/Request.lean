import OppexSdk.Lib.Checks
import OppexSdk.Lib.JsonStrings

/-! # Posting an incident in .NET

`IncidentRequest.cs`, `Severity.cs`, `SerializeRequest` of `Internal/WireCodec.cs` and the post
methods of `IncidentClient.cs` in `dotnet/src/Oppex.Integration.Sdk`, up to the payload that a
delivery sends. A text has no unpaired surrogate. -/
namespace OppexSdk.DotNet.Request
open OppexSdk.Lib OppexSdk.Lib.Json OppexSdk.Lib.Checks

/-! ## Requests -/

/-- An `ArgumentException` with the name of its parameter, or an `ObjectDisposedException`. -/
inductive Thrown
  | argument (message paramName : String)
  | objectDisposed
  deriving DecidableEq

/-- `string.IsNullOrWhiteSpace` of a text. No character outside of the plane is white space. -/
def isWhiteSpace (s : String) : Bool := s.toList.all Runes.isSpace

abbrev Text := { s : String // isWhiteSpace s = false }

/-- `Length`, in UTF-16 units. -/
def length (s : String) : Nat := (s.toList.flatMap charUnits).length

def maxSourceLength : Nat := 255

abbrev Source := { t : Text // length t.val ≤ maxSourceLength }

/-- `IsDefinedValue`: an enum may have any value of its type. -/
def isDefinedValue (severity : Int32) : Bool := 1 ≤ severity && severity ≤ 5

abbrev Severity := { s : Int32 // isDefinedValue s = true }

abbrev Priority := { p : Int32 // ¬ (p < 1 ∨ 5 < p) }

abbrev Timestamp := { t : Int64 // ¬ t ≤ 0 }

structure IncidentRequest where
  title : Option String
  source : Option String
  severity : Int32
  priority : Int32 := 1
  srcTimestamp : Option Int64 := none
  serviceKey : Option String := none
  component : Option String := none
  group : Option String := none
  type : Option String := none
  details : Option String := none

structure NormalizedRequest where
  title : Text
  source : Source
  severity : Severity
  priority : Priority
  srcTimestamp : Timestamp
  serviceKey : Option Text
  component : Option Text
  group : Option Text
  type : Option Text
  details : Option Text

def requireNonBlank (value : Option String) (name : String) : Except Thrown Text :=
  match value with
  | none => .error (.argument s!"{name} must not be blank" name)
  | some value =>
    checked (fun s => isWhiteSpace s = false) (.argument s!"{name} must not be blank" name) value

def rejectBlank (value : Option String) (name : String) : Except Thrown (Option Text) :=
  match value with
  | none => .ok none
  | some value => do
    return some (← checked (fun s => isWhiteSpace s = false)
      (.argument s!"{name} must not be blank when supplied" name) value)

/-- `Normalize`, where the time is `now` in milliseconds. -/
def IncidentRequest.normalize (request : IncidentRequest) (now : Int64) :
    Except Thrown NormalizedRequest := do
  let title ← requireNonBlank request.title "Title"
  let source ← requireNonBlank request.source "Source"
  let source ← checked (fun source => length source.val ≤ maxSourceLength)
    (.argument s!"Source must not exceed {maxSourceLength} characters" "Source") source
  let severity ← checked (fun s => isDefinedValue s = true)
    (.argument "Severity must be between 1 and 5" "Severity") request.severity
  let priority ← checked (fun p => ¬ (p < 1 ∨ 5 < p))
    (.argument "Priority must be between 1 and 5" "Priority") request.priority
  let timestamp ← checked (fun t => ¬ t ≤ 0)
    (.argument "SrcTimestamp must be greater than zero" "SrcTimestamp")
    (request.srcTimestamp.getD now)
  let serviceKey ← rejectBlank request.serviceKey "ServiceKey"
  let component ← rejectBlank request.component "Component"
  let group ← rejectBlank request.group "Group"
  let type ← rejectBlank request.type "Type"
  let details ← rejectBlank request.details "Details"
  return ⟨title, source, severity, priority, timestamp, serviceKey, component, group, type, details⟩

/-! ## The payload -/

/-- The members that the `Utf8JsonWriter` was given so far. -/
abbrev Members := List (String × Scalar String)

def writeString (json : Members) (name value : String) : Members := json ++ [(name, .text value)]

def writeNumber (json : Members) (name : String) (value : Int) : Members :=
  json ++ [(name, .number value)]

def writeOptionalString (json : Members) (name : String) : Option Text → Members
  | some value => writeString json name value.val
  | none => json

/-- What is written between the start and the end of the object. -/
def members (request : NormalizedRequest) (resolvedServiceKey : Option Text) : Members :=
  let json : Members := []
  let json := writeOptionalString json "serviceKey" resolvedServiceKey
  let json := writeString json "title" request.title.val
  let json := writeString json "source" request.source.val.val
  let json := writeNumber json "severity" request.severity.val.toInt
  let json := writeNumber json "priority" request.priority.val.toInt
  let json := writeNumber json "srcTimestamp" request.srcTimestamp.val.toInt
  let json := writeOptionalString json "component" request.component
  let json := writeOptionalString json "group" request.group
  let json := writeOptionalString json "type" request.type
  writeOptionalString json "detailsJSON" request.details

/-- The characters of Basic Latin that may mean something in HTML. -/
def htmlSensitive : List Nat := [0x22, 0x26, 0x27, 0x2B, 0x3C, 0x3E, 0x60]

/-- The default encoder of the writer. -/
def defaultStyle : Style where
  short := [.backslash, .backspace, .tab, .lineFeed, .formFeed, .carriageReturn]
  raw c := 0x20 ≤ c.toNat && c.toNat ≤ 0x7E && !htmlSensitive.contains c.toNat
  digit := upperDigit

def serializeRequest (request : NormalizedRequest) (resolvedServiceKey : Option Text) : Bytes :=
  openObject defaultStyle.render (members request resolvedServiceKey) ++ [0x7D]

/-! ## The client -/

/-- What the constructor keeps of its options. -/
structure IncidentClient where
  apiKey : Text
  serviceKey : Option Text

/-- A blank key counts as none. -/
def nonBlank (value : Option String) : Option Text :=
  value.bind fun s => if h : isWhiteSpace s = false then some ⟨s, h⟩ else none

def IncidentClient.new (apiKey serviceKey : Option String) : Except Thrown IncidentClient :=
  match nonBlank apiKey with
  | some apiKey => .ok ⟨apiKey, nonBlank serviceKey⟩
  | none => .error (.argument "ApiKey must not be blank" "options")

/-- What a delivery is of: the arguments of `DeliverAsync`, and what `Submit` closes over. -/
structure Delivery where
  request : NormalizedRequest
  defaultServiceKey : Option Text

/-- The payload that `DeliverAsync` serializes before its first attempt. -/
def Delivery.payload (d : Delivery) : Bytes :=
  serializeRequest d.request (d.request.serviceKey.or d.defaultServiceKey)

/-- The post methods. -/
inductive Method
  | postAsync
  | postWithServiceRoutingAsync
  | enqueue
  | enqueueWithServiceRouting
  deriving DecidableEq

def Method.routed : Method → Bool
  | .postAsync | .enqueue => false
  | .postWithServiceRoutingAsync | .enqueueWithServiceRouting => true

namespace IncidentClient

/-- `Prepare`. -/
def prepare (disposed : Bool) (now : Int64) (request : IncidentRequest) :
    Except Thrown NormalizedRequest :=
  if disposed then .error .objectDisposed else request.normalize now

/-- `PrepareForServiceRouting`. -/
def prepareForServiceRouting (disposed : Bool) (now : Int64) (request : IncidentRequest) :
    Except Thrown NormalizedRequest := do
  let normalized ← prepare disposed now request
  if normalized.serviceKey.isNone then return normalized
  else
    .error (.argument "Request must not carry a ServiceKey when service routing is used" "request")

/-- The check of `PostAsync` and `Enqueue`; the message names the method to use instead. -/
def requireServiceKey (client : IncidentClient) (normalized : NormalizedRequest)
    (alternative : String) : Except Thrown Unit :=
  if normalized.serviceKey.isNone && client.serviceKey.isNone then
    .error (.argument ("No ServiceKey is configured on the client or the request; supply one or " ++
      s!"use {alternative}") "request")
  else .ok ()

/-- What the methods do before they deliver or submit. -/
def enter (client : IncidentClient) (disposed : Bool) (now : Int64) (request : IncidentRequest) :
    Method → Except Thrown Delivery
  | .postAsync => do
    let normalized ← prepare disposed now request
    client.requireServiceKey normalized "PostWithServiceRoutingAsync"
    return ⟨normalized, client.serviceKey⟩
  | .postWithServiceRoutingAsync => do
    return ⟨← prepareForServiceRouting disposed now request, none⟩
  | .enqueue => do
    let normalized ← prepare disposed now request
    client.requireServiceKey normalized "EnqueueWithServiceRouting"
    return ⟨normalized, client.serviceKey⟩
  | .enqueueWithServiceRouting => do
    return ⟨← prepareForServiceRouting disposed now request, none⟩

end IncidentClient

/-! ## Which requests pass -/

/-- The normalized request holds what the caller gave, and the time of the call where no time
was. -/
structure NormalizedRequest.Holds (r : NormalizedRequest) (now : Int64)
    (request : IncidentRequest) : Prop where
  title : request.title = some r.title.val
  source : request.source = some r.source.val.val
  severity : request.severity = r.severity.val
  priority : request.priority = r.priority.val
  srcTimestamp : request.srcTimestamp.getD now = r.srcTimestamp.val
  serviceKey : request.serviceKey = r.serviceKey.map Subtype.val
  component : request.component = r.component.map Subtype.val
  group : request.group = r.group.map Subtype.val
  type : request.type = r.type.map Subtype.val
  details : request.details = r.details.map Subtype.val

/-- An error of a check. -/
def Thrown.IsMisuse : Thrown → Prop
  | .argument _ _ => True
  | .objectDisposed => False

theorem isMisuse_argument (message paramName : String) :
    (Thrown.argument message paramName).IsMisuse := trivial

section
variable (value : Option String) (name : String)

end

/-- A key that a client was configured with: a blank one counts as none. -/
def Configured (value : Option String) (key : Option Text) : Prop :=
  key.map Subtype.val = value.filter fun s => !isWhiteSpace s

namespace IncidentClient
variable (client : IncidentClient) (now : Int64) (request : IncidentRequest) (m : Method)

/-- The method can be used for the request: it has a key to send, or may not have one. -/
def Routes (r : NormalizedRequest) : Prop :=
  if m.routed then r.serviceKey = none else r.serviceKey ≠ none ∨ client.serviceKey ≠ none

/-- What the method hands to `DeliverAsync` or to the dispatcher. -/
def delivery (r : NormalizedRequest) : Delivery := ⟨r, if m.routed then none else client.serviceKey⟩

theorem requireServiceKey_yields (r : NormalizedRequest) (alternative : String) :
    Yields (client.requireServiceKey r alternative)
      (fun _ => r.serviceKey ≠ none ∨ client.serviceKey ≠ none) Thrown.IsMisuse :=
  .congr (.unless (isMisuse_argument _ _)) fun _ => by
    cases client.serviceKey <;> cases r.serviceKey <;> simp

end IncidentClient

/-! ## The payload is an object -/

/-- What the payload of a request says, with the time of the call where the request has none. -/
def IncidentRequest.wire (request : IncidentRequest) (now : Int64) (key : Option String) :
    List (String × Option (Scalar String)) :=
  [("serviceKey", key.map .text),
    ("title", request.title.map .text),
    ("source", request.source.map .text),
    ("severity", some (.number request.severity.toInt)),
    ("priority", some (.number request.priority.toInt)),
    ("srcTimestamp", some (.number (request.srcTimestamp.getD now).toInt)),
    ("component", request.component.map .text),
    ("group", request.group.map .text),
    ("type", request.type.map .text),
    ("detailsJSON", request.details.map .text)]

/-- The key that goes with a request: the request's own before the client's. -/
def resolvedKey (serviceKey : Option String) (request : IncidentRequest) (m : Method) :
    Option String :=
  if m.routed then none else request.serviceKey.or (serviceKey.filter fun s => !isWhiteSpace s)

/-- What comes of the options of a client and of a call on it. -/
structure EndToEnd (apiKey serviceKey : Option String) (now : Int64) (request : IncidentRequest)
    (m : Method) : Prop where
  /-- There is a client when there is an API key, and a blank service key counts as none. -/
  creates : ∀ client, IncidentClient.new apiKey serviceKey = .ok client ↔
    apiKey = some client.apiKey.val ∧ Configured serviceKey client.serviceKey
  misconfigured : ∀ e, IncidentClient.new apiKey serviceKey = .error e → e.IsMisuse
  disposed : ∀ client : IncidentClient, client.enter true now request m = .error .objectDisposed
  refuses : ∀ client : IncidentClient, ∀ e, client.enter false now request m = .error e → e.IsMisuse
  /-- The call passes when every value does and there is a key just where one is wanted. -/
  accepts : ∀ client, IncidentClient.new apiKey serviceKey = .ok client →
    ((∃ d, client.enter false now request m = .ok d) ↔
      (∃ r : NormalizedRequest, r.Holds now request) ∧
        if m.routed then request.serviceKey = none
        else resolvedKey serviceKey request m ≠ none)
  /-- The payload says what the caller said, in this order and nothing else. -/
  sends : ∀ client d, IncidentClient.new apiKey serviceKey = .ok client →
    client.enter false now request m = .ok d →
      IsObjectOf bytes (present (request.wire now (resolvedKey serviceKey request m))) d.payload

section
variable {serviceKey : Option String} {client : IncidentClient} {r : NormalizedRequest}
  {now : Int64} {request : IncidentRequest} {m : Method} (hkey : Configured serviceKey client.serviceKey)
  (h : r.Holds now request)
include hkey h

end

end OppexSdk.DotNet.Request
