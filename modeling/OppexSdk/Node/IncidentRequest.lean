import OppexSdk.Lib.JavaScript

/-! # Requests and responses of the Node client

`model/IncidentRequest.ts`, `model/errors.ts`, `internal/wire/wireCodec.ts` and
`internal/http/retryableStatus.ts` of `node/src`. A property of the input is read as often as the
source reads it. -/
namespace OppexSdk.Node
open OppexSdk.Lib.Binary64 OppexSdk.Lib.Interaction OppexSdk.Lib.JavaScript

variable {σ : Type}

def invalidRequestError (message : String) : Value := .error (js "InvalidRequestError") (js message)

def clientClosedError : Value := .error (js "ClientClosedError") (js "IncidentClient is closed")

def maxSourceLength : Nat := 255

structure IncidentRequest where
  title : JsString
  source : JsString
  severity : Option Double
  priority : Finite
  srcTimestamp : Finite
  /-- `none` is undefined, `some none` is null. -/
  serviceKey : Option (Option JsString)
  component : Option JsString
  group : Option JsString
  type : Option JsString
  details : Option JsString

def requireNonBlank (value : Value) (field : String) : Js σ JsString :=
  match value with
  | .string s =>
    if (trim s).length = 0 then
      .throw (invalidRequestError s!"{field} is required and must be non-blank")
    else pure s
  | _ => .throw (invalidRequestError s!"{field} is required and must be non-blank")

def optionalNonBlank (value : Value) (field : String) : Js σ (Option JsString) :=
  match value with
  | .undefined | .null => pure none
  | .string s =>
    if (trim s).length = 0 then
      .throw (invalidRequestError s!"{field} must be non-blank when supplied")
    else pure (some s)
  | _ => .throw (invalidRequestError s!"{field} must be non-blank when supplied")

def nullableString (value : Value) (field : String) : Js σ (Option (Option JsString)) :=
  match value with
  | .undefined => pure none
  | .null => pure (some none)
  | .string s => pure (some (some s))
  | _ => .throw (invalidRequestError s!"{field} must be a string, null, or omitted")

/-- `input.key === undefined ? default : input.key` -/
def getOr (input : Value) (key : String) (default : Js σ Value) : Js σ Value := do
  if (← getProp input key).isUndefined then default else getProp input key

/-- `Number.isFinite(value)` and the range, or the error. -/
def requireFinite (value : Value) (inRange : Finite → Bool) (message : String) : Js σ Finite :=
  match value with
  | .number (.finite x) => if inRange x then pure x else .throw (invalidRequestError message)
  | _ => .throw (invalidRequestError message)

def buildIncidentRequest (engine : Engine) (input : Value) : Js σ IncidentRequest :=
  if !input.isObject then .throw (invalidRequestError "request must be an object") else do
  let title ← requireNonBlank (← getProp input "title") "title"
  let source ← requireNonBlank (← getProp input "source") "source"
  if maxSourceLength < source.length then
    .throw (invalidRequestError s!"source must be at most {maxSourceLength} characters")
  else do
  let severity ← if (← getProp input "severity").isUndefined then pure none
    else some <$> (getProp input "severity" >>= numberOf engine)
  let priority ← getOr input "priority" (pure (.number (numberOfInt 1)))
  let priority ← requireFinite priority (fun x => !(x.toRat < 1 || 5 < x.toRat))
    "priority must be between 1 and 5"
  let srcTimestamp ← getOr input "srcTimestamp"
    (.ask (.now : Query σ) fun (ms : Nat) => pure (.number (numberOfInt ms)))
  let srcTimestamp ← requireFinite srcTimestamp (fun x => !(x.toRat ≤ 0))
    "srcTimestamp must be greater than zero"
  let serviceKey ← nullableString (← getProp input "serviceKey") "serviceKey"
  let component ← optionalNonBlank (← getProp input "component") "component"
  let group ← optionalNonBlank (← getProp input "group") "group"
  let type ← optionalNonBlank (← getProp input "type") "type"
  let details ← optionalNonBlank (← getProp input "details") "details"
  return ⟨title, source, severity, priority, srcTimestamp, serviceKey, component, group, type,
    details⟩

/-- The fields in their order on the wire; `JSON.stringify` leaves out an undefined one. -/
def serializeRequest (engine : Engine) (request : IncidentRequest) : JsString :=
  let serviceKey := match request.serviceKey with
    | none => Value.undefined
    | some none => .null
    | some (some s) => .string s
  let ordered := [("serviceKey", serviceKey), ("title", .string request.title),
    ("source", .string request.source),
    ("severity", (request.severity.map Value.number).getD .undefined),
    ("priority", .number (.finite request.priority)),
    ("srcTimestamp", .number (.finite request.srcTimestamp))]
  let optional (key : String) (field : Option JsString) : List (String × Value) :=
    (field.map fun s => (key, Value.string s)).toList
  engine.stringify (ordered ++ optional "component" request.component ++
    optional "group" request.group ++ optional "type" request.type ++
    optional "detailsJSON" request.details)

/-- What the client resolves with. The types are the interface's; at run time `code` and `message`
may be any value. -/
structure IncidentResponse where
  successful : Bool
  code : Value
  message : Value
  incidentId : Value

/-- The values are of the interface's types. -/
def IncidentResponse.WellTyped (r : IncidentResponse) : Prop :=
  r.code.isNumber = true ∧ r.message.isNullableString = true ∧ r.incidentId.isNullableString = true

def parseResponse (engine : Engine) (httpStatus : Nat) (body : JsString) : IncidentResponse :=
  let successfulDefault := decide (200 ≤ httpStatus ∧ httpStatus < 300)
  let status := Value.number (numberOfInt httpStatus)
  if (trim body).length = 0 then ⟨successfulDefault, status, .null, .null⟩
  else match engine.parse body with
    | some (.record obj) =>
      { successful := match Value.own obj "success" with
          | .boolean b => b
          | _ => successfulDefault
        code := match Value.own obj "code" with
          | .number x => .number x
          | _ => status
        message := match Value.own obj "message" with
          | .string s => .string s
          | _ => .null
        incidentId := match Value.own obj "data" with
          | .string s => .string s
          | _ => .null }
    | _ => ⟨successfulDefault, status,
        .string (js s!"Received a non-JSON response (status {httpStatus})"), .null⟩

def isRetryableStatus (statusCode : Nat) : Bool := statusCode ∈ [429, 500, 502, 503, 504]

theorem parseResponse_wellTyped (engine : Engine) (httpStatus : Nat) (body : JsString) :
    (parseResponse engine httpStatus body).WellTyped := by
  simp only [parseResponse]
  split
  · exact ⟨rfl, rfl, rfl⟩
  · split
    · refine ⟨?_, ?_, ?_⟩ <;> dsimp only <;> split <;> rfl
    · exact ⟨rfl, rfl, rfl⟩

end OppexSdk.Node
