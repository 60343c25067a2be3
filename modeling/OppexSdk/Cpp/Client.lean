import OppexSdk.Cpp.HttpTransport
import OppexSdk.Lib.Backoff
import OppexSdk.Cpp.WireRoundTrip
import OppexSdk.Lib.Checks

/-! # The C++ client

`cpp/src/client.cpp` and `Normalize` of `cpp/src/wire_codec.cpp`: what the post methods check, and
what they hand to the transport or capture for a worker. Whether `closed_` is set when a method
reads it, what `NowMillis` returns and whether the dispatcher takes a task are inputs. -/
namespace OppexSdk.Cpp
open OppexSdk.Lib
open OppexSdk.Cpp.Wire (IncidentResponse NormalizedRequest isBlank)

structure IncidentRequest where
  title : Bytes
  source : Bytes
  severity : Int32
  priority : Int32
  srcTimestamp : Int64
  serviceKey : Option Bytes
  component : Option Bytes
  group : Option Bytes
  type : Option Bytes
  details : Option Bytes

def kMaxSourceLength : Nat := 255

/-- `IsValidSeverity`. -/
def isValidSeverity (severity : Int32) : Bool := 1 ≤ severity && severity ≤ 5

def invalidRequest (message : Bytes) : IncidentError := .new .kInvalidRequest message

namespace Wire

def requireNonBlank (value field : Bytes) : Except IncidentError Unit :=
  if isBlank value then .error (invalidRequest (field ++ bytes " must not be blank")) else .ok ()

def rejectBlank (value : Option Bytes) (field : Bytes) : Except IncidentError (Option Bytes) :=
  if value.any isBlank then
    .error (invalidRequest (field ++ bytes " must not be blank when supplied"))
  else .ok value

/-- A check that throws when it fails. -/
def require (holds : Bool) (message : Bytes) : Except IncidentError Unit :=
  if holds then .ok () else .error (invalidRequest message)

/-- `Normalize`, where `NowMillis` returns `now`. -/
def normalize (now : Int64) (request : IncidentRequest) :
    Except IncidentError NormalizedRequest := do
  requireNonBlank request.title (bytes "title")
  requireNonBlank request.source (bytes "source")
  require (request.source.length ≤ kMaxSourceLength)
    (bytes "source must not exceed " ++ decimal kMaxSourceLength ++ bytes " bytes")
  require (isValidSeverity request.severity) (bytes "severity must be between 1 and 5")
  let priority := if request.priority = 0 then 1 else request.priority
  require (!(priority < 1 || priority > 5)) (bytes "priority must be between 1 and 5")
  let timestamp := if request.srcTimestamp = 0 then now else request.srcTimestamp
  require (!(timestamp ≤ 0)) (bytes "srcTimestamp must be greater than zero")
  let serviceKey ← rejectBlank request.serviceKey (bytes "serviceKey")
  let component ← rejectBlank request.component (bytes "component")
  let group ← rejectBlank request.group (bytes "group")
  let type ← rejectBlank request.type (bytes "type")
  let details ← rejectBlank request.details (bytes "details")
  return {
    title := request.title
    source := request.source
    severity := request.severity
    priority := priority
    srcTimestamp := timestamp
    serviceKey := serviceKey
    component := component
    group := group
    type := type
    details := details }

end Wire

/-! ## The client -/

structure ClientOptions where
  apiKey : Bytes
  serviceKey : Option Bytes

/-- What the constructor of `Client` keeps. -/
structure Client where
  apiKey : Bytes
  serviceKey : Option Bytes
  apiKey_nonBlank : isBlank apiKey = false
  serviceKey_nonBlank : ∀ key ∈ serviceKey, isBlank key = false

namespace Client

/-- `service_key_`: a blank key counts as none. -/
def configuredKey (options : ClientOptions) : Option Bytes :=
  options.serviceKey.filter fun key => !isBlank key

theorem configuredKey_nonBlank (options : ClientOptions) :
    ∀ key ∈ configuredKey options, isBlank key = false := by
  intro key hkey
  have hkeep := (Option.mem_filter_iff.mp hkey).2
  simpa using hkeep

/-- The constructor. -/
def new (options : ClientOptions) : Except IncidentError Client :=
  if h : isBlank options.apiKey = true then
    .error (invalidRequest (bytes "apiKey must not be blank"))
  else .ok ⟨options.apiKey, configuredKey options, by simpa using h, configuredKey_nonBlank options⟩

def closedError : IncidentError :=
  .new .kClientClosed (bytes "the incident client is closed")

def ensureOpen (closed : Bool) : Except IncidentError Unit :=
  if closed then .error closedError else .ok ()

/-- The check of `Post` and `PostAsync`; the message names the method to use instead. -/
def requireServiceKey (client : Client) (request : NormalizedRequest) (alternative : Bytes) :
    Except IncidentError Unit :=
  Wire.require (request.serviceKey.isSome || client.serviceKey.isSome)
    (bytes "no serviceKey is configured on the client or the request; supply one or use " ++
      alternative)

def requireServiceRoutable (request : NormalizedRequest) : Except IncidentError Unit :=
  Wire.require (!request.serviceKey.isSome)
    (bytes "request must not carry a serviceKey when service routing is used")

/-- What a delivery is of: the arguments of `Deliver`, and what `Submit` captures. -/
structure Delivery where
  request : NormalizedRequest
  defaultServiceKey : Option Bytes

/-- The payload that `Deliver` serializes once, before the first attempt. -/
def Delivery.payload (d : Delivery) : Bytes :=
  Wire.serializeRequest d.request (d.request.serviceKey.or d.defaultServiceKey)

/-- What a delivery meets: how its attempts go and what the waits between them return. -/
structure Network where
  strerror : HttpTransport.CurlError → Bytes
  attempt : Bytes → Nat → HttpTransport.Attempt
  interrupt : Nat → Bool

/-- `Delivery::Deliver`. -/
def Delivery.deliver (d : Delivery) (net : Network) : Except IncidentError IncidentResponse :=
  (Retry.execute Retry.defaultDelays
    (fun k => HttpTransport.send net.strerror (net.attempt d.payload k)) net.interrupt).result

/-- The post methods. -/
inductive Method
  | post
  | postWithServiceRouting
  | postAsync
  | postAsyncWithServiceRouting
  deriving DecidableEq

def Method.routed : Method → Bool
  | .post | .postAsync => false
  | .postWithServiceRouting | .postAsyncWithServiceRouting => true

/-- What the methods do before they deliver or queue. -/
def prepare (client : Client) (closed : Bool) (now : Int64) (request : IncidentRequest) :
    Method → Except IncidentError Delivery
  | .post => do
    ensureOpen closed
    let normalized ← Wire.normalize now request
    requireServiceKey client normalized (bytes "PostWithServiceRouting")
    return ⟨normalized, client.serviceKey⟩
  | .postWithServiceRouting => do
    ensureOpen closed
    let normalized ← Wire.normalize now request
    requireServiceRoutable normalized
    return ⟨normalized, none⟩
  | .postAsync => do
    ensureOpen closed
    let normalized ← Wire.normalize now request
    requireServiceKey client normalized (bytes "PostAsyncWithServiceRouting")
    return ⟨normalized, client.serviceKey⟩
  | .postAsyncWithServiceRouting => do
    ensureOpen closed
    let normalized ← Wire.normalize now request
    requireServiceRoutable normalized
    return ⟨normalized, none⟩

/-- `Post` and `PostWithServiceRouting`. -/
def deliverNow (client : Client) (closed : Bool) (now : Int64) (request : IncidentRequest)
    (m : Method) (net : Network) : Except IncidentError IncidentResponse := do
  let delivery ← client.prepare closed now request m
  delivery.deliver net

/-- `Submit`: the task that is queued, if the dispatcher takes it. -/
def submit (delivery : Delivery) (accepted : Bool) : Except IncidentError Delivery :=
  if accepted then .ok delivery else .error closedError

/-- `PostAsync` and `PostAsyncWithServiceRouting`. -/
def enqueue (client : Client) (closed : Bool) (now : Int64) (request : IncidentRequest)
    (m : Method) (accepted : Bool) : Except IncidentError Delivery := do
  let delivery ← client.prepare closed now request m
  submit delivery accepted

end Client

/-! ## Which requests pass -/

open OppexSdk.Lib.Checks (Decides)

/-- The error of a check: nothing was sent, and nothing is to be tried again. -/
structure IncidentError.IsInvalid (e : IncidentError) : Prop where
  kind : e.kind = .kInvalidRequest
  statusCode : e.statusCode = kNoStatusCode
  retryable : e.retryable = false

def NonBlank (value : Option Bytes) : Prop := ∀ v ∈ value, isBlank v = false

namespace IncidentRequest

def resolvedPriority (r : IncidentRequest) : Int32 := if r.priority = 0 then 1 else r.priority

def resolvedTimestamp (r : IncidentRequest) (now : Int64) : Int64 :=
  if r.srcTimestamp = 0 then now else r.srcTimestamp

/-- What `Normalize` asks of a request. -/
structure Valid (r : IncidentRequest) (now : Int64) : Prop where
  title : isBlank r.title = false
  source : isBlank r.source = false
  source_length : r.source.length ≤ kMaxSourceLength
  severity : isValidSeverity r.severity = true
  priority : isValidSeverity r.resolvedPriority = true
  timestamp : 0 < r.resolvedTimestamp now
  serviceKey : NonBlank r.serviceKey
  component : NonBlank r.component
  group : NonBlank r.group
  type : NonBlank r.type
  details : NonBlank r.details

/-- The request with its defaults. -/
def normalized (r : IncidentRequest) (now : Int64) : NormalizedRequest where
  title := r.title
  source := r.source
  severity := r.severity
  priority := r.resolvedPriority
  srcTimestamp := r.resolvedTimestamp now
  serviceKey := r.serviceKey
  component := r.component
  group := r.group
  type := r.type
  details := r.details

end IncidentRequest

section
variable (value : Bytes) (optional : Option Bytes) (field message : Bytes)

end

namespace Client
open OppexSdk.Cpp.Json (Object Value)

variable (client : Client) (now : Int64) (r : IncidentRequest) (m : Method)

/-- The key the payload carries: none where the service is routed, else the request's own before
the client's. -/
def resolvedKey : Option Bytes := if m.routed then none else r.serviceKey.or client.serviceKey

/-- What an open client asks of a call. -/
def Accepts : Prop :=
  r.Valid now ∧
    if m.routed then r.serviceKey = none else client.resolvedKey r m ≠ none

/-- What the call delivers. -/
def delivery : Delivery := ⟨r.normalized now, if m.routed then none else client.serviceKey⟩

/-- What the payload says under a name. -/
def member (k : Bytes) : Option Value :=
  if k = bytes "serviceKey" then (client.resolvedKey r m).map .string
  else if k = bytes "title" then some (.string r.title)
  else if k = bytes "source" then some (.string r.source)
  else if k = bytes "severity" then some (Wire.Field.number r.severity.toInt).value
  else if k = bytes "priority" then some (Wire.Field.number r.resolvedPriority.toInt).value
  else if k = bytes "srcTimestamp" then
    some (Wire.Field.number (r.resolvedTimestamp now).toInt).value
  else if k = bytes "component" then r.component.map .string
  else if k = bytes "group" then r.group.map .string
  else if k = bytes "type" then r.type.map .string
  else if k = bytes "detailsJSON" then r.details.map .string
  else none

/-- What a call of `m` does that reads `closed_` as `closed`. -/
structure EndToEnd (closed : Bool) : Prop where
  refusesClosed : closed = true → client.prepare closed now r m = .error closedError
  refuses : closed = false → ¬ client.Accepts now r m →
    ∃ e, e.IsInvalid ∧ client.prepare closed now r m = .error e
  /-- What the caller said is what the payload says, under the names of the wire and no others. -/
  delivers : closed = false → client.Accepts now r m →
    ∃ (d : Delivery) (o : Object), client.prepare closed now r m = .ok d ∧
      Json.parse d.payload = some (.object o) ∧ (∀ k, o.find k = client.member now r m k) ∧
      Wire.intOf o "severity" = some (.value r.severity.toInt) ∧
      Wire.intOf o "priority" = some (.value r.resolvedPriority.toInt)

end Client

end OppexSdk.Cpp
