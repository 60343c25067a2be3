import OppexSdk.Node.IncidentRequest

/-! # The Node client

`IncidentClient.ts`, `Logger.ts`, `internal/retry/RetryExecutor.ts` and what a call of `submit`
does of `internal/async/AsyncDispatcher.ts` and `RateLimitedDropLogger.ts`. The fields that other
calls change are read where the source reads them, since code of the host may have run in between:
a getter, a logger or a callback may itself use the client. -/
namespace OppexSdk.Node
open OppexSdk.Lib.Binary64 OppexSdk.Lib.Interaction OppexSdk.Lib.JavaScript

structure RateLimitedDropLogger where
  intervalMs : Nat
  droppedInInterval : Nat
  intervalStartedAt : Nat

structure AsyncDispatcher (τ : Type) where
  maxConcurrency : Nat
  capacity : Nat
  active : Nat
  closed : Bool
  /-- The backing array; a slot may be undefined. -/
  queue : List (Option τ)
  queueHead : Nat
  dropLogger : RateLimitedDropLogger

/-- What the task of one `sendIncidentAsync` has in its closure. -/
structure Task where
  input : Value
  callbacks : Value

structure Shared where
  /-- `impl` of the central logger. -/
  impl : Value
  /-- `closed` of the client. -/
  closed : Bool
  dispatcher : AsyncDispatcher Task

structure IncidentClient where
  apiKey : JsString
  serviceKey : Option (Option JsString)

def shared : Js Shared Shared := .ask (.read : Query Shared) fun (s : Shared) => pure s

def setDispatcher (d : AsyncDispatcher Task) : Js Shared Unit := do
  let s ← shared
  .ask (.write { s with dispatcher := d } : Query Shared) fun _ => pure ()

/-! ## Logger -/

inductive Level
  | error | warn | info | debug
  deriving DecidableEq

def Level.key : Level → String
  | error => "error"
  | warn => "warn"
  | info => "info"
  | debug => "debug"

namespace Logger

/-- What the target throws is swallowed. -/
def call (fn : Value) (level : Level) (message : JsString) : Js Shared Unit :=
  Program.tryCatch
    (if fn.isFunction then (fun _ => ()) <$> callValue fn [.string message]
      else .ask (.console level.key message : Query Shared) .ofExcept)
    fun _ => pure ()

/-- The level is read off the logger before `call` guards anything. -/
def log (level : Level) (message : JsString) : Js Shared Unit := do
  let s ← shared
  let fn ← getProp s.impl level.key
  call fn level message

def error (message : JsString) : Js Shared Unit := log .error message
def warn (message : JsString) : Js Shared Unit := log .warn message
def info (message : JsString) : Js Shared Unit := log .info message
def debug (message : JsString) : Js Shared Unit := log .debug message

end Logger

/-! ## Errors -/

def isDeliveryFailure (err : Value) : Js Shared Bool := do
  if !err.isObject then return false
  if !(← hasProp err "retryable") then return false
  hasProp err "code"

section
variable (engine : Engine)

/-- The `message` of an `Error` is whatever the property holds. -/
def describeError (err : Value) : Js Shared Value := do
  if ← instanceofError err then getProp err "message"
  else .string <$> stringOf engine err

def logMessage (err : Value) : Js Shared JsString := do
  let description ← describeError engine err
  let text ← toText engine description
  return js "[oppex-sdk] " ++ text

def failedResponse (code message : Value) : IncidentResponse := ⟨false, code, message, .null⟩

def toFailedResponse (err : Value) : Js Shared IncidentResponse := do
  if ← isDeliveryFailure err then
    let code ← getProp err "code"
    let message ← getProp err "message"
    return failedResponse code message
  else
    let message ← describeError engine err
    return failedResponse (.number (numberOfInt (-1))) message

/-! ## Retries -/

/-- `code === -1` -/
def isMinusOne : Value → Bool
  | .number x => x = numberOfInt (-1)
  | _ => false

def withAttemptCountIfNetworkFailure (err : Value) (attempts : Nat) : Js Shared Value := do
  if !err.isObject then return err
  if !isMinusOne (← getProp err "code") then return err
  if !(← getProp err "message").isString then return err
  let fields ← spread err
  let text ← toText engine (← getProp err "message")
  return .record (fields ++ [("message", .string (text ++ js s!" (after {attempts} attempts)"))])

/-- The loop, with the delays that are left. -/
def executeWithRetry {α : Type} (operation : Js Shared α) (isRetryable : Value → Js Shared Bool)
    (attempt : Nat) : List Nat → Js Shared α
  | [] => Program.tryCatch operation fun err => do
    if !(← isRetryable err) then .throw err
    else
      let err ← withAttemptCountIfNetworkFailure engine err (attempt + 1)
      .throw err
  | delay :: delays => Program.tryCatch operation fun err => do
    if !(← isRetryable err) then .throw err
    else
      .ask (.sleep delay : Query Shared) fun _ =>
        executeWithRetry operation isRetryable (attempt + 1) delays

def retryDelaysMs : List Nat := [500, 1000, 2000]

/-! ## Delivery -/

def endpointUrl : JsString := js "https://api.oppex.ai/api/v1/incident/post"

def deliveryFailure (retryable : Bool) (code message : Value) : Value :=
  .record [("retryable", .boolean retryable), ("code", code), ("message", message)]

def sendRequest (url payload : JsString) (headers : List (String × JsString)) :
    Js Shared (Nat × JsString) :=
  .ask (.send url headers payload : Query Shared) fun
    | .ok response => pure response
    | .error (name, message) => .throw (.error name message)

variable (client : IncidentClient)

def headers : List (String × JsString) :=
  [("Content-Type", js "application/json"), ("Accept", js "application/json"),
    ("X-API-KEY", client.apiKey)]

/-- The text that is sent for a request. -/
def payload (request : IncidentRequest) : JsString :=
  let serviceKey := match request.serviceKey with
    | none => client.serviceKey
    | some key => some key
  serializeRequest engine { request with serviceKey }

/-- One attempt. -/
def attemptDelivery (request : IncidentRequest) : Js Shared IncidentResponse := do
  let response ← Program.tryCatch
    (sendRequest endpointUrl (payload engine client request) (headers client)) fun networkErr => do
      let message ← describeError engine networkErr
      .throw (deliveryFailure true (.number (numberOfInt (-1))) message)
  if isRetryableStatus response.1 then
    .throw (deliveryFailure true (.number (numberOfInt response.1))
      (.string (js s!"HTTP {response.1}")))
  else return parseResponse engine response.1 response.2

def isRetryableError (err : Value) : Js Shared Bool := do
  if ← isDeliveryFailure err then return (← getProp err "retryable").truthy else return false

def deliver (request : IncidentRequest) : Js Shared IncidentResponse :=
  Program.tryCatch
    (executeWithRetry engine (attemptDelivery engine client request) isRetryableError 0
      retryDelaysMs)
    fun err => do
      if ← isDeliveryFailure err then
        let code ← getProp err "code"
        let message ← getProp err "message"
        return failedResponse code message
      else .throw err

/-! ## The two calls -/

/-- Oppex confirmed the incident with an id. -/
def IncidentResponse.created (r : IncidentResponse) : Bool := r.successful && r.incidentId.truthy

def createdMessage (mode : String) (request : IncidentRequest) (incidentId : JsString) :
    JsString :=
  js s!"[oppex-sdk] Incident created ({mode}): " ++ request.title ++ js " (incidentId=" ++
    incidentId ++ js ")"

def logCreated (mode : String) (request : IncidentRequest) (response : IncidentResponse) :
    Js Shared Unit :=
  if response.created then do
    let id ← toText engine response.incidentId
    Logger.info (createdMessage mode request id)
  else pure ()

/-- What both `catch` blocks of `sendIncident` do. -/
def reportFailure (level : Level) (err : Value) : Js Shared IncidentResponse := do
  let message ← logMessage engine err
  Logger.log level message
  toFailedResponse engine err

/-- The second `try` block of `sendIncident`. -/
def deliverSync (request : IncidentRequest) : Js Shared IncidentResponse := do
  let response ← deliver engine client request
  logCreated engine "sync" request response
  return response

def sendIncident (input : Value) : Js Shared IncidentResponse := do
  let s ← shared
  if s.closed then reportFailure engine .warn clientClosedError
  else
    match ← (buildIncidentRequest engine input).attempt with
    | .error err => reportFailure engine .warn err
    | .ok request =>
      (deliverSync engine client request).tryCatch (reportFailure engine .error)

/-- `callbacks.name?.(arg)` -/
def observe (callbacks : Value) (name : String) (arg : Value) : Js Shared Unit := do
  let fn ← getProp callbacks name
  if fn.isNullish then return () else (fun _ => ()) <$> callValue fn [arg]

/-- A callback that throws is logged. -/
def invoke (callbacks : Value) (name : String) (arg : Value) : Js Shared Unit :=
  Program.tryCatch (observe callbacks name arg) fun callbackErr => do
    let message ← logMessage engine callbackErr
    Logger.warn message

def invokeOnError (callbacks err : Value) : Js Shared Unit := invoke engine callbacks "onError" err

def IncidentResponse.toValue (r : IncidentResponse) : Value :=
  .record [("successful", .boolean r.successful), ("code", r.code), ("message", r.message),
    ("incidentId", r.incidentId)]

/-- `new Error(message ?? fallback)` -/
def newError (message : Value) (fallback : String) : Js Shared Value := do
  if message.isNullish then return .error (js "Error") (js fallback)
  let text ← toText engine message
  return .error (js "Error") text

/-- The second `try` block of the task. -/
def deliverAsync (request : IncidentRequest) (callbacks : Value) : Js Shared Unit := do
  let response ← deliver engine client request
  if response.successful then
    logCreated engine "async" request response
    invoke engine callbacks "onSuccess" response.toValue
  else
    let err ← newError engine response.message "incident delivery failed"
    let message ← logMessage engine err
    Logger.error message
    invokeOnError engine callbacks response.toValue

def logAndInvokeOnError (level : Level) (callbacks err : Value) : Js Shared Unit := do
  let message ← logMessage engine err
  Logger.log level message
  invokeOnError engine callbacks err

/-- The task that the dispatcher runs. -/
def runTask (task : Task) : Js Shared Unit := do
  match ← (buildIncidentRequest engine task.input).attempt with
  | .error err => logAndInvokeOnError engine .warn task.callbacks err
  | .ok request =>
    (deliverAsync engine client request task.callbacks).tryCatch
      (logAndInvokeOnError engine .error task.callbacks)

/-! ## Dispatcher -/

namespace AsyncDispatcher
variable {τ : Type} (d : AsyncDispatcher τ)

def queueLength : Int := (d.queue.length : Int) - d.queueHead

/-- `queue[i] = undefined`, which makes the array longer when there is no such slot. -/
def clearSlot (queue : List (Option τ)) (i : Nat) : List (Option τ) :=
  if i < queue.length then queue.set i none
  else queue ++ List.replicate (i + 1 - queue.length) none

/-- The drop is the one that logs the interval. -/
def logDue (now : Nat) : Bool :=
  (d.dropLogger.intervalMs : Int) ≤ (now : Int) - d.dropLogger.intervalStartedAt

/-- The queue is full when `submit` gets there. -/
def overflows : Bool :=
  !d.closed && d.maxConcurrency ≤ d.active && decide ((d.capacity : Int) ≤ d.queueLength)

end AsyncDispatcher

/-- `dropOldest`, with `recordDrop`. -/
def dropOldest (d : AsyncDispatcher Task) : Js Shared Unit :=
  .ask (.now : Query Shared) fun (now : Nat) => do
    let count := d.dropLogger.droppedInInterval + 1
    let d' := { d with
      queue := AsyncDispatcher.clearSlot d.queue d.queueHead, queueHead := d.queueHead + 1 }
    if d.logDue now then
      setDispatcher { d' with
        dropLogger := { d.dropLogger with droppedInInterval := 0, intervalStartedAt := now } }
      Logger.warn (js s!"[oppex-sdk] Dropped {count} incidents in the last minute.")
    else
      setDispatcher { d' with dropLogger := { d.dropLogger with droppedInInterval := count } }

/-- `run` up to where the task first waits. -/
def run (d : AsyncDispatcher Task) (task : Task) : Js Shared Unit := do
  setDispatcher { d with active := d.active + 1 }
  (runTask engine client task).start Query.suspends

def submit (task : Task) : Js Shared Unit := do
  let s ← shared
  let d := s.dispatcher
  if d.closed then return ()
  else if d.active < d.maxConcurrency then run engine client d task
  else
    if (d.capacity : Int) ≤ d.queueLength then dropOldest d else pure ()
    -- the logger may have used the client
    let s ← shared
    let d := s.dispatcher
    setDispatcher { d with queue := d.queue ++ [some task] }

/-- `callbacks = {}` when the argument is left out. -/
def callbacksOr (callbacks : Value) : Value :=
  if callbacks.isUndefined then .record [] else callbacks

def sendIncidentAsync (input callbacks : Value) : Js Shared Unit := do
  let callbacks := callbacksOr callbacks
  let s ← shared
  if s.closed then logAndInvokeOnError engine .warn callbacks clientClosedError
  else
    let title ← if input.truthy then getProp input "title" else pure input
    let text ← toText engine title
    Logger.debug (js "[oppex-sdk] Incident queued for async delivery: " ++ text)
    submit engine client ⟨input, callbacks⟩

end

end OppexSdk.Node
