import OppexSdk.Lib.Checks
import OppexSdk.Lib.JsonStrings

/-! # Posting an incident in Java

`Severity` and `IncidentRequest.Builder.build` of `java/sdk-core`, and `JsonCodec.serialize` and
`IncidentClient` of `java/sdk-http`, up to the payload that an attempt sends. `render` is how the
generator of Jackson writes a string. A text has no unpaired surrogate. -/
namespace OppexSdk.Java.Client
open OppexSdk.Lib OppexSdk.Lib.Json OppexSdk.Lib.Checks

/-! ## Requests -/

inductive Raised
  | illegalArgument (message : String)
  | illegalState (message : String)
  | incident (message : String)
  deriving DecidableEq

inductive Severity
  | lowest | low | medium | high | critical
  deriving DecidableEq

/-- `getValue`. -/
def Severity.value : Severity → Int32
  | lowest => 1
  | low => 2
  | medium => 3
  | high => 4
  | critical => 5

/-- `Severity.fromValue`, over `values()`. -/
def Severity.fromValue (value : Int32) : Except Raised Severity :=
  match [lowest, low, medium, high, critical].find? fun s => s.value == value with
  | some s => .ok s
  | none => .error (.illegalArgument "severity must be between 1 and 5")

/-- `trim().length() == 0` -/
def trimEmpty (s : String) : Bool := s.toList.all fun c => c.toNat ≤ 0x20

abbrev Text := { s : String // trimEmpty s = false }

/-- `length()`, in UTF-16 units. -/
def length (s : String) : Nat := (s.toList.flatMap charUnits).length

/-- `MAX_SOURCE_LENGTH`. -/
def maxSourceLength : Nat := 255

abbrev Source := { t : Text // length t.val ≤ maxSourceLength }

abbrev Priority := { p : Int32 // 1 ≤ p ∧ p ≤ 5 }

abbrev Timestamp := { t : Int64 // 0 < t }

structure IncidentRequest where
  serviceKey : Option Text
  title : Text
  source : Source
  severity : Severity
  priority : Priority
  srcTimestamp : Timestamp
  component : Option Text
  group : Option Text
  type : Option Text
  details : Option Text

/-- The fields of the builder. Its two setters of a severity clear what the other one set. -/
structure Builder where
  serviceKey : Option String := none
  title : Option String := none
  source : Option String := none
  severity : Option Severity := none
  severityValue : Option Int32 := none
  priority : Int32 := 1
  srcTimestamp : Option Int64 := none
  component : Option String := none
  group : Option String := none
  type : Option String := none
  details : Option String := none

def requireNonBlank (value : Option String) (name : String) : Except Raised Text :=
  match value with
  | none => .error (.illegalArgument s!"{name} must not be null")
  | some value =>
    checked (fun s => trimEmpty s = false) (.illegalArgument s!"{name} must not be blank") value

def validateOptional (value : Option String) (name : String) : Except Raised (Option Text) :=
  match value with
  | none => .ok none
  | some value => do
    return some (← checked (fun s => trimEmpty s = false)
      (.illegalArgument s!"{name} must not be blank") value)

/-- The severity of a builder, by the setter that was used last. -/
def Builder.validatedSeverity (b : Builder) : Except Raised Severity :=
  match b.severityValue with
  | some value => Severity.fromValue value
  | none =>
    match b.severity with
    | some severity => .ok severity
    | none => .error (.illegalArgument "severity must not be null")

/-- `build`, where `System.currentTimeMillis()` returns `now`. -/
def Builder.build (b : Builder) (now : Int64) : Except Raised IncidentRequest := do
  let title ← requireNonBlank b.title "title"
  let source ← requireNonBlank b.source "source"
  let source ← checked (fun source => length source.val ≤ maxSourceLength)
    (.illegalArgument "source must not exceed 255 characters") source
  let serviceKey ← validateOptional b.serviceKey "serviceKey"
  let component ← validateOptional b.component "component"
  let group ← validateOptional b.group "group"
  let type ← validateOptional b.type "type"
  let details ← validateOptional b.details "details"
  let priority ← checked (fun p => 1 ≤ p ∧ p ≤ 5)
    (.illegalArgument "priority must be between 1 and 5") b.priority
  let severity ← b.validatedSeverity
  let timestamp ← checked (fun t => 0 < t)
    (.illegalArgument "srcTimestamp must be greater than zero") (b.srcTimestamp.getD now)
  return ⟨serviceKey, title, source, severity, priority, timestamp, component, group, type, details⟩

/-! ## The payload -/

/-- The members that the generator was given so far. -/
abbrev Members := List (String × Scalar String)

def writeStringField (json : Members) (name value : String) : Members :=
  json ++ [(name, .text value)]

def writeNumberField (json : Members) (name : String) (value : Int) : Members :=
  json ++ [(name, .number value)]

def writeOptionalString (json : Members) (name : String) : Option Text → Members
  | some value => writeStringField json name value.val
  | none => json

/-- What `serialize` writes between the start and the end of the object. -/
def members (request : IncidentRequest) (serviceKey : Option Text) : Members :=
  let json : Members := []
  let json := writeOptionalString json "serviceKey" serviceKey
  let json := writeStringField json "title" request.title.val
  let json := writeStringField json "source" request.source.val.val
  let json := writeNumberField json "severity" request.severity.value.toInt
  let json := writeNumberField json "priority" request.priority.val.toInt
  let json := writeNumberField json "srcTimestamp" request.srcTimestamp.val.toInt
  let json := writeOptionalString json "component" request.component
  let json := writeOptionalString json "group" request.group
  let json := writeOptionalString json "type" request.type
  writeOptionalString json "detailsJSON" request.details

def serialize (render : String → Bytes) (request : IncidentRequest)
    (defaultServiceKey : Option Text) : Bytes :=
  openObject render (members request (request.serviceKey.or defaultServiceKey)) ++ [0x7D]

/-! ## The client -/

/-- What the constructor keeps of its arguments. -/
structure IncidentClient where
  apiKey : Text
  serviceKey : Option Text

/-- A blank key counts as none. -/
def blankToNull (value : Option String) : Option Text :=
  value.bind fun s => if h : trimEmpty s = false then some ⟨s, h⟩ else none

def IncidentClient.new (apiKey serviceKey : Option String) : Except Raised IncidentClient := do
  let apiKey ← requireNonBlank apiKey "apiKey"
  return ⟨apiKey, blankToNull serviceKey⟩

/-- What a delivery is of: the arguments of `deliver`. -/
structure Delivery where
  request : IncidentRequest
  defaultServiceKey : Option Text

/-- The payload, which every attempt serializes again. -/
def Delivery.payload (render : String → Bytes) (d : Delivery) : Bytes :=
  serialize render d.request d.defaultServiceKey

/-- The post methods. -/
inductive Method
  | post
  | postWithServiceRouting
  | postAsync
  | postAsyncWithServiceRouting
  deriving DecidableEq

def Method.routed : Method → Bool
  | .post | .postAsync => false
  | .postWithServiceRouting | .postAsyncWithServiceRouting => true

namespace IncidentClient

/-- `ensureOpen`, under the read lock. -/
def ensureOpen (closed : Bool) : Except Raised Unit :=
  if closed then .error (.incident "IncidentClient is closed") else .ok ()

def ensureOpenUnchecked (closed : Bool) : Except Raised Unit :=
  if closed then .error (.illegalState "IncidentClient is closed") else .ok ()

def requireServiceKey (client : IncidentClient) (request : IncidentRequest) : Except Raised Unit :=
  if client.serviceKey.isNone && request.serviceKey.isNone then
    .error (.illegalState ("No serviceKey is configured on the client or the request; " ++
      "supply one or use postWithServiceRouting"))
  else .ok ()

def requireServiceRoutable (request : IncidentRequest) : Except Raised Unit :=
  if request.serviceKey.isNone then .ok ()
  else .error (.illegalArgument
    "request must not carry a serviceKey when service routing is used")

/-- What the methods do before they deliver or submit. -/
def prepare (client : IncidentClient) (closed : Bool) (request : IncidentRequest) :
    Method → Except Raised Delivery
  | .post => do
    client.requireServiceKey request
    ensureOpen closed
    return ⟨request, client.serviceKey⟩
  | .postWithServiceRouting => do
    requireServiceRoutable request
    ensureOpen closed
    return ⟨request, none⟩
  | .postAsync => do
    client.requireServiceKey request
    ensureOpenUnchecked closed
    return ⟨request, client.serviceKey⟩
  | .postAsyncWithServiceRouting => do
    requireServiceRoutable request
    ensureOpenUnchecked closed
    return ⟨request, none⟩

end IncidentClient

/-! ## Which requests there are -/

/-- The severity is the one that was set last. -/
def Builder.Sets (b : Builder) (severity : Severity) : Prop :=
  match b.severityValue with
  | some value => severity.value = value
  | none => b.severity = some severity

/-- The request holds what the builder was given, and the time of the call where no time was. -/
structure IncidentRequest.Holds (r : IncidentRequest) (now : Int64) (b : Builder) : Prop where
  title : b.title = some r.title.val
  source : b.source = some r.source.val.val
  severity : b.Sets r.severity
  priority : b.priority = r.priority.val
  srcTimestamp : b.srcTimestamp.getD now = r.srcTimestamp.val
  serviceKey : b.serviceKey = r.serviceKey.map Subtype.val
  component : b.component = r.component.map Subtype.val
  group : b.group = r.group.map Subtype.val
  type : b.type = r.type.map Subtype.val
  details : b.details = r.details.map Subtype.val

/-- An error of a check. -/
def Raised.IsMisuse : Raised → Prop
  | .illegalArgument _ | .illegalState _ => True
  | .incident _ => False

theorem isMisuse_illegalArgument (message : String) :
    (Raised.illegalArgument message).IsMisuse := trivial

theorem isMisuse_illegalState (message : String) : (Raised.illegalState message).IsMisuse := trivial

section
variable (value : Option String) (name : String)

end

/-- A key that a client was configured with: a blank one counts as none. -/
def Configured (value : Option String) (key : Option Text) : Prop :=
  key.map Subtype.val = value.filter fun s => !trimEmpty s

namespace IncidentClient
variable (client : IncidentClient) (r : IncidentRequest) (m : Method)

/-- The method can be used for the request: it has a key to send, or may not have one. -/
def Routes : Prop :=
  if m.routed then r.serviceKey = none else r.serviceKey ≠ none ∨ client.serviceKey ≠ none

/-- What the method hands to `deliver` or to the dispatcher. -/
def delivery : Delivery := ⟨r, if m.routed then none else client.serviceKey⟩

/-- What a call on a closed client throws, which is checked last. -/
def closedError : Raised :=
  match m with
  | .post | .postWithServiceRouting => .incident "IncidentClient is closed"
  | .postAsync | .postAsyncWithServiceRouting => .illegalState "IncidentClient is closed"

theorem requireServiceKey_yields :
    Yields (client.requireServiceKey r)
      (fun _ => r.serviceKey ≠ none ∨ client.serviceKey ≠ none) Raised.IsMisuse :=
  .congr (.unless (isMisuse_illegalState _)) fun _ => by
    cases client.serviceKey <;> cases r.serviceKey <;> simp

theorem requireServiceRoutable_yields :
    Yields (requireServiceRoutable r) (fun _ => r.serviceKey = none) Raised.IsMisuse :=
  .congr (.guard (isMisuse_illegalArgument _)) fun _ => Option.isNone_iff_eq_none

theorem prepare_open :
    Yields (client.prepare false r m)
      (fun d => client.Routes r m ∧ d = client.delivery r m) Raised.IsMisuse := by
  cases m with
  | post => exact .thenReturn (client.requireServiceKey_yields r) _
  | postAsync => exact .thenReturn (client.requireServiceKey_yields r) _
  | postWithServiceRouting => exact .thenReturn (requireServiceRoutable_yields r) _
  | postAsyncWithServiceRouting => exact .thenReturn (requireServiceRoutable_yields r) _

end IncidentClient

/-! ## The payload is an object -/

/-- What the payload of a built request says, with the time of `build` where none was set. -/
def Builder.wire (b : Builder) (now : Int64) (severity : Severity) (key : Option String) :
    List (String × Option (Scalar String)) :=
  [("serviceKey", key.map .text),
    ("title", b.title.map .text),
    ("source", b.source.map .text),
    ("severity", some (.number severity.value.toInt)),
    ("priority", some (.number b.priority.toInt)),
    ("srcTimestamp", some (.number (b.srcTimestamp.getD now).toInt)),
    ("component", b.component.map .text),
    ("group", b.group.map .text),
    ("type", b.type.map .text),
    ("detailsJSON", b.details.map .text)]

/-- The key that goes with a request: the request's own before the client's. -/
def resolvedKey (serviceKey : Option String) (b : Builder) (m : Method) : Option String :=
  if m.routed then none else b.serviceKey.or (serviceKey.filter fun s => !trimEmpty s)

/-- What comes of the arguments of a client, of a builder and of a call. -/
structure EndToEnd (render : String → Bytes) (apiKey serviceKey : Option String) (now : Int64)
    (b : Builder) (m : Method) : Prop where
  /-- There is a client when there is an API key, and a blank service key counts as none. -/
  creates : ∀ client, IncidentClient.new apiKey serviceKey = .ok client ↔
    apiKey = some client.apiKey.val ∧ Configured serviceKey client.serviceKey
  misconfigured : ∀ e, IncidentClient.new apiKey serviceKey = .error e → e.IsMisuse
  builds : ∀ r, b.build now = .ok r ↔ r.Holds now b
  invalid : ∀ e, b.build now = .error e → e.IsMisuse
  /-- The call passes when there is a key just where one is wanted. -/
  accepts : ∀ client r, IncidentClient.new apiKey serviceKey = .ok client → b.build now = .ok r →
    ((∃ d, client.prepare false r m = .ok d) ↔
      if m.routed then b.serviceKey = none else resolvedKey serviceKey b m ≠ none)
  refuses : ∀ (client : IncidentClient) r e, client.prepare false r m = .error e → e.IsMisuse
  /-- A closed client refuses what an open one would take. -/
  closed : ∀ (client : IncidentClient) r d, client.prepare false r m = .ok d →
    client.prepare true r m = .error (IncidentClient.closedError m)
  /-- The payload says what the builder was given, in this order and nothing else. -/
  sends : ∀ client r d, IncidentClient.new apiKey serviceKey = .ok client → b.build now = .ok r →
    client.prepare false r m = .ok d →
      IsObjectOf bytes (present (b.wire now r.severity (resolvedKey serviceKey b m)))
        (d.payload render)

section
variable {r : IncidentRequest} {now : Int64} {b : Builder} (h : r.Holds now b)
include h

variable {serviceKey : Option String} {client : IncidentClient} {m : Method}
  (hkey : Configured serviceKey client.serviceKey)
include hkey

end

end OppexSdk.Java.Client
