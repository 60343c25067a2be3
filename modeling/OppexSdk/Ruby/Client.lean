import OppexSdk.Lib.Checks
import OppexSdk.Lib.JsonStrings

/-! # Posting an incident in Ruby

`severity.rb`, `incident_request.rb`, `incident_client.rb` and `serialize_request` of
`internal/wire_codec.rb` in `ruby/lib/oppex_sdk`, up to the payload that a delivery sends. A request
is checked in its constructor, so what it holds has passed: the checks return values that carry
their condition. A text is valid in its encoding. -/
namespace OppexSdk.Ruby.Client
open OppexSdk.Lib OppexSdk.Lib.Json OppexSdk.Lib.Checks

/-! ## Requests -/

/-- What a caller may pass for a keyword. -/
inductive Value
  | nil
  | string (s : String)
  | integer (i : Int)
  | other

inductive Raised
  | typeError (message : String)
  | argumentError (message : String)
  | clientClosedError
  deriving DecidableEq

/-- The characters that `strip` takes away. -/
def isSpace (c : Char) : Bool :=
  c.toNat == 0 || (0x09 ≤ c.toNat && c.toNat ≤ 0x0D) || c.toNat == 0x20

/-- `strip.empty?` -/
def stripEmpty (s : String) : Bool := s.toList.all isSpace

abbrev Text := { s : String // stripEmpty s = false }

/-- `Severity::ALL`. -/
def severities : List Int := [1, 2, 3, 4, 5]

abbrev Severity := { i : Int // severities.contains i = true }

abbrev Priority := { i : Int // 1 ≤ i ∧ i ≤ 5 }

/-- `MAX_SOURCE_LENGTH`, in characters. -/
def maxSourceLength : Nat := 255

abbrev Source := { t : Text // t.val.length ≤ maxSourceLength }

structure IncidentRequest where
  title : Text
  source : Source
  severity : Severity
  priority : Priority
  srcTimestamp : Int
  serviceKey : Option Text
  component : Option Text
  group : Option Text
  type : Option Text
  details : Option Text

/-- The keywords of the constructor. -/
structure Arguments where
  title : Value
  source : Value
  severity : Value
  priority : Value := .integer 1
  srcTimestamp : Value := .nil
  serviceKey : Value := .nil
  component : Value := .nil
  group : Value := .nil
  type : Value := .nil
  details : Value := .nil

def requireNonBlank (value : Value) (field : String) : Except Raised Text :=
  match value with
  | .string s =>
    checked (fun s => stripEmpty s = false) (.argumentError s!"{field} must not be blank") s
  | _ => .error (.typeError s!"{field} must be a String")

def requireSource (value : Value) : Except Raised Source := do
  let source ← requireNonBlank value "source"
  checked (fun source => source.val.length ≤ maxSourceLength)
    (.argumentError s!"source must not exceed {maxSourceLength} characters") source

def rejectBlank (value : Value) (field : String) : Except Raised (Option Text) :=
  match value with
  | .nil => .ok none
  | value => do return some (← requireNonBlank value field)

/-- `Severity.validate!`. -/
def validateSeverity (value : Value) : Except Raised Severity :=
  match value with
  | .integer i =>
    checked (fun i => severities.contains i = true)
      (.argumentError "severity must be between 1 and 5") i
  | _ => .error (.typeError "severity must be an Integer")

def validatePriority (value : Value) : Except Raised Priority :=
  match value with
  | .integer i =>
    checked (fun i => 1 ≤ i ∧ i ≤ 5) (.argumentError "priority must be between 1 and 5") i
  | _ => .error (.typeError "priority must be an Integer")

/-- `validate_timestamp` at the time `now`, which is taken as it is. -/
def validateTimestamp (now : Int) (value : Value) : Except Raised Int :=
  match value with
  | .nil => .ok now
  | .integer i =>
    if 0 < i then .ok i
    else .error (.argumentError "src_timestamp must be greater than zero")
  | _ => .error (.typeError "src_timestamp must be an Integer")

/-- `IncidentRequest#initialize`. -/
def IncidentRequest.new (now : Int) (args : Arguments) : Except Raised IncidentRequest := do
  let title ← requireNonBlank args.title "title"
  let source ← requireSource args.source
  let severity ← validateSeverity args.severity
  let priority ← validatePriority args.priority
  let srcTimestamp ← validateTimestamp now args.srcTimestamp
  let serviceKey ← rejectBlank args.serviceKey "service_key"
  let component ← rejectBlank args.component "component"
  let group ← rejectBlank args.group "group"
  let type ← rejectBlank args.type "type"
  let details ← rejectBlank args.details "details"
  return ⟨title, source, severity, priority, srcTimestamp, serviceKey, component, group, type,
    details⟩

/-! ## The payload -/

/-- `JSON.generate` of a string: two-character escapes where there are any, and lower-case digits
for the other control characters. -/
def generateStyle : Style where
  short := [.quote, .backslash, .lineFeed, .carriageReturn, .tab, .formFeed, .backspace]
  raw c := 0x20 ≤ c.toNat
  digit := lowerDigit

/-- `Hash#compact`: what is `nil` is left out. -/
def compact (fields : List (String × Option (Scalar String))) : List (String × Scalar String) :=
  fields.filterMap fun f => f.2.map (Prod.mk f.1)

/-- `JSON.generate` of a hash with texts and integers. -/
def generate (fields : List (String × Scalar String)) : Bytes :=
  openObject generateStyle.render fields ++ [0x7D]

/-- The hash of `serialize_request` before it is compacted. -/
def fields (request : IncidentRequest) (resolvedServiceKey : Option Text) :
    List (String × Option (Scalar String)) :=
  [("serviceKey", resolvedServiceKey.map fun t => .text t.val),
    ("title", some (.text request.title.val)),
    ("source", some (.text request.source.val.val)),
    ("severity", some (.number request.severity.val)),
    ("priority", some (.number request.priority.val)),
    ("srcTimestamp", some (.number request.srcTimestamp)),
    ("component", request.component.map fun t => .text t.val),
    ("group", request.group.map fun t => .text t.val),
    ("type", request.type.map fun t => .text t.val),
    ("detailsJSON", request.details.map fun t => .text t.val)]

def serializeRequest (request : IncidentRequest) (resolvedServiceKey : Option Text) : Bytes :=
  generate (compact (fields request resolvedServiceKey))

/-! ## The client -/

/-- What `initialize` keeps of its arguments. -/
structure IncidentClient where
  apiKey : Text
  serviceKey : Option Text

def validateApiKey (apiKey : Value) : Except Raised Text := requireNonBlank apiKey "api_key"

/-- A blank key counts as none. -/
def blankToNil (value : Value) (field : String) : Except Raised (Option Text) :=
  match value with
  | .nil => .ok none
  | .string s => .ok (if h : stripEmpty s = false then some ⟨s, h⟩ else none)
  | _ => .error (.typeError s!"{field} must be a String")

def IncidentClient.new (apiKey serviceKey : Value) : Except Raised IncidentClient := do
  let apiKey ← validateApiKey apiKey
  let serviceKey ← blankToNil serviceKey "service_key"
  return ⟨apiKey, serviceKey⟩

/-- What a delivery is of: the arguments of `deliver`, and what the block of `submit` closes
over. -/
structure Delivery where
  request : IncidentRequest
  defaultServiceKey : Option Text

/-- The payload that `deliver` serializes before its first attempt. -/
def Delivery.payload (d : Delivery) : Bytes :=
  serializeRequest d.request (d.request.serviceKey.or d.defaultServiceKey)

/-- The post methods. -/
inductive Method
  | post
  | postWithServiceRouting
  | postAsync
  | postAsyncWithServiceRouting
  deriving DecidableEq

def Method.routed : Method → Bool
  | .post | .postAsync => false
  | .postWithServiceRouting | .postAsyncWithServiceRouting => true

def Method.queued : Method → Bool
  | .post | .postWithServiceRouting => false
  | .postAsync | .postAsyncWithServiceRouting => true

namespace IncidentClient

def ensureOpen (closed : Bool) : Except Raised Unit :=
  if closed then .error .clientClosedError else .ok ()

def requireServiceKey (client : IncidentClient) (request : IncidentRequest) : Except Raised Unit :=
  if client.serviceKey.isNone && request.serviceKey.isNone then
    .error (.argumentError ("no service_key is configured on the client or the request; " ++
      "supply one or use post_with_service_routing"))
  else .ok ()

def requireServiceRoutable (request : IncidentRequest) : Except Raised Unit :=
  if request.serviceKey.isNone then .ok ()
  else .error (.argumentError
    "request must not carry a service_key when service routing is used")

/-- What the methods do before they deliver or submit. -/
def prepare (client : IncidentClient) (closed : Bool) (request : IncidentRequest) :
    Method → Except Raised Delivery
  | .post | .postAsync => do
    ensureOpen closed
    client.requireServiceKey request
    return ⟨request, client.serviceKey⟩
  | .postWithServiceRouting | .postAsyncWithServiceRouting => do
    ensureOpen closed
    requireServiceRoutable request
    return ⟨request, none⟩

/-- `submit`, by whether the dispatcher takes the task. -/
def submit (delivery : Delivery) (accepted : Bool) : Except Raised Delivery :=
  if accepted then .ok delivery else .error .clientClosedError

/-- A call, with what it delivers or has submitted. -/
def call (client : IncidentClient) (closed accepted : Bool) (request : IncidentRequest)
    (m : Method) : Except Raised Delivery := do
  let delivery ← client.prepare closed request m
  if m.queued then submit delivery accepted else return delivery

end IncidentClient

/-! ## Which requests there are -/

/-- An argument that may be left out. -/
def given : Option Text → Value
  | none => .nil
  | some t => .string t.val

/-- The request holds what the caller gave, and the time of the call where no time was given. -/
structure IncidentRequest.Holds (r : IncidentRequest) (now : Int) (args : Arguments) : Prop where
  title : args.title = .string r.title.val
  source : args.source = .string r.source.val.val
  severity : args.severity = .integer r.severity.val
  priority : args.priority = .integer r.priority.val
  srcTimestamp : args.srcTimestamp = .nil ∧ r.srcTimestamp = now ∨
    args.srcTimestamp = .integer r.srcTimestamp ∧ 0 < r.srcTimestamp
  serviceKey : args.serviceKey = given r.serviceKey
  component : args.component = given r.component
  group : args.group = given r.group
  type : args.type = given r.type
  details : args.details = given r.details

/-- An error of a check. -/
def Raised.IsMisuse : Raised → Prop
  | .typeError _ | .argumentError _ => True
  | .clientClosedError => False

theorem isMisuse_argumentError (message : String) : (Raised.argumentError message).IsMisuse :=
  trivial

section
variable (value : Value) (field : String)

end

/-- A key that a client was configured with: a blank one counts as none. -/
def Configured (value : Value) (key : Option Text) : Prop :=
  match value with
  | .nil => key = none
  | .string s => key.map Subtype.val = if stripEmpty s then none else some s
  | _ => False

namespace IncidentClient
variable (client : IncidentClient) (r : IncidentRequest) (m : Method)

/-- The method can be used for the request: it has a key to send, or may not have one. -/
def Routes : Prop :=
  if m.routed then r.serviceKey = none else r.serviceKey ≠ none ∨ client.serviceKey ≠ none

/-- What the method hands to `deliver` or to the dispatcher. -/
def delivery : Delivery := ⟨r, if m.routed then none else client.serviceKey⟩

theorem requireServiceKey_yields :
    Yields (client.requireServiceKey r)
      (fun _ => r.serviceKey ≠ none ∨ client.serviceKey ≠ none) Raised.IsMisuse :=
  .congr (.unless (isMisuse_argumentError _)) fun _ => by
    cases client.serviceKey <;> cases r.serviceKey <;> simp

theorem requireServiceRoutable_yields :
    Yields (requireServiceRoutable r) (fun _ => r.serviceKey = none) Raised.IsMisuse :=
  .congr (.guard (isMisuse_argumentError _)) fun _ => Option.isNone_iff_eq_none

theorem prepare_open :
    Yields (client.prepare false r m)
      (fun d => client.Routes r m ∧ d = client.delivery r m) Raised.IsMisuse := by
  cases m with
  | post => exact .thenReturn (client.requireServiceKey_yields r) _
  | postAsync => exact .thenReturn (client.requireServiceKey_yields r) _
  | postWithServiceRouting => exact .thenReturn (requireServiceRoutable_yields r) _
  | postAsyncWithServiceRouting => exact .thenReturn (requireServiceRoutable_yields r) _

end IncidentClient

/-! ## The payload is an object -/

def Value.asText : Value → Option String
  | .string s => some s
  | _ => none

/-- What is generated of a text or an integer. -/
def Value.scalar : Value → Option (Scalar String)
  | .string s => some (.text s)
  | .integer i => some (.number i)
  | _ => none

/-- What the payload says, with the time of the constructor where none was given. -/
def Arguments.wire (args : Arguments) (now : Int) (key : Option String) :
    List (String × Option (Scalar String)) :=
  [("serviceKey", key.map .text),
    ("title", args.title.scalar),
    ("source", args.source.scalar),
    ("severity", args.severity.scalar),
    ("priority", args.priority.scalar),
    ("srcTimestamp", args.srcTimestamp.scalar.or (some (.number now))),
    ("component", args.component.scalar),
    ("group", args.group.scalar),
    ("type", args.type.scalar),
    ("detailsJSON", args.details.scalar)]

/-- The key that goes with a request: the request's own before the client's. -/
def resolvedKey (serviceKey : Value) (args : Arguments) (m : Method) : Option String :=
  if m.routed then none
  else args.serviceKey.asText.or (serviceKey.asText.filter fun s => !stripEmpty s)

/-- What comes of the arguments of a client, of a request and of a call. -/
structure EndToEnd (apiKey serviceKey : Value) (now : Int) (args : Arguments) (m : Method) :
    Prop where
  /-- There is a client when there is an API key, and a blank service key counts as none. -/
  creates : ∀ client, IncidentClient.new apiKey serviceKey = .ok client ↔
    apiKey = .string client.apiKey.val ∧ Configured serviceKey client.serviceKey
  misconfigured : ∀ e, IncidentClient.new apiKey serviceKey = .error e → e.IsMisuse
  builds : ∀ r, IncidentRequest.new now args = .ok r ↔ r.Holds now args
  invalid : ∀ e, IncidentRequest.new now args = .error e → e.IsMisuse
  closed : ∀ (client : IncidentClient) accepted r,
    client.call true accepted r m = .error .clientClosedError
  /-- The call passes when there is a key just where one is wanted. -/
  accepts : ∀ client r, IncidentClient.new apiKey serviceKey = .ok client →
    IncidentRequest.new now args = .ok r →
      ((∃ d, client.call false true r m = .ok d) ↔
        if m.routed then args.serviceKey = .nil else resolvedKey serviceKey args m ≠ none)
  refuses : ∀ (client : IncidentClient) r e, client.call false true r m = .error e → e.IsMisuse
  /-- A task that the dispatcher does not take is refused as by a closed client. -/
  rejected : ∀ (client : IncidentClient) r d, client.call false true r m = .ok d →
    client.call false false r m = if m.queued then .error .clientClosedError else .ok d
  /-- The payload says what the caller said, in this order and nothing else. -/
  sends : ∀ client r d, IncidentClient.new apiKey serviceKey = .ok client →
    IncidentRequest.new now args = .ok r → client.call false true r m = .ok d →
      IsObjectOf bytes (present (args.wire now (resolvedKey serviceKey args m))) d.payload

section
variable {r : IncidentRequest} {now : Int} {args : Arguments} (h : r.Holds now args)
include h

variable {serviceKey : Value} {client : IncidentClient} {m : Method}
  (hkey : Configured serviceKey client.serviceKey)
include hkey

end

end OppexSdk.Ruby.Client
