import OppexSdk.Node.IncidentClient

/-! # Logging, describing and delivering in the Node client

What each part asks of the host so as not to throw. The helpers of the client are read off as
conditions on the values they are given; delivery itself asks nothing. -/
namespace OppexSdk.Node
open OppexSdk.Lib.Binary64 OppexSdk.Lib.Interaction OppexSdk.Lib.JavaScript

section
variable (host : Host (hostSignature Shared)) (engine : Engine)

/-- The state that the call may find. -/
def May (s : Shared) : Prop := host.allows (.read : Query Shared) s

/-- What reading the level off whatever logger is installed may throw. -/
def LevelThrowsOnly (level : Level) (Q : Value → Prop) : Prop :=
  ∀ s, May host s → ThrowsOnly host Q (getProp s.impl level.key)

def LevelReadable (level : Level) : Prop := LevelThrowsOnly host level fun _ => False

/-- No logger lets the level be read. -/
def LevelUnreadable (level : Level) : Prop :=
  ∀ s, May host s → Always host (fun _ => False) (fun _ => True) (getProp s.impl level.key)

/-- A template can hold the value. -/
def Printable (v : Value) : Prop := Safe host (toText engine v)

/-- The value can be asked whether it is an `Error`; then its message can be read and printed, and
otherwise `String` makes a string of it. -/
def Describable (v : Value) : Prop :=
  Returns host (fun isError =>
    if isError then Returns host (Printable host engine) (getProp v "message")
    else Safe host (stringOf engine v)) (instanceofError v)

/-- The same with a message that is a string or null. -/
def DescribedByText (v : Value) : Prop :=
  Returns host (fun isError =>
    if isError then Returns host (fun m => m.isNullableString = true) (getProp v "message")
    else Safe host (stringOf engine v)) (instanceofError v)

/-- An object with `retryable` and `code` has a number for the code and a string or null for the
message; any other value is described by a text. -/
def Convertible (v : Value) : Prop :=
  if v.isObject then
    Returns host (fun hasRetryable =>
      if hasRetryable then
        Returns host (fun hasCode =>
          if hasCode then
            Returns host (fun c => c.isNumber = true) (getProp v "code") ∧
              Returns host (fun m => m.isNullableString = true) (getProp v "message")
          else DescribedByText host engine v) (hasProp v "code")
      else DescribedByText host engine v) (hasProp v "retryable")
  else DescribedByText host engine v

/-- A `catch` block can log the value and make a response of it. -/
structure Reportable (level : Level) (v : Value) : Prop where
  describable : Describable host engine v
  readable : LevelReadable host level
  convertible : Convertible host engine v

/-- What is parsed of an answer that is not retried meets `P`. -/
def Delivered (client : IncidentClient) (request : IncidentRequest)
    (P : IncidentResponse → Prop) : Prop :=
  ∀ status body, host.allows
      (.send endpointUrl (headers client) (payload engine client request) : Query Shared)
      (.ok (status, body)) →
    isRetryableStatus status = false → P (parseResponse engine status body)

end

section
variable {host : Host (hostSignature Shared)} {engine : Engine} {client : IncidentClient}
variable {request : IncidentRequest} {P : IncidentResponse → Prop}

/-! ## The parts -/

theorem always_shared {P : Shared → Prop} {Q : Value → Prop} :
    Always host P Q shared ↔ ∀ s, May host s → P s := Iff.rfl

theorem safe_call (fn : Value) (level : Level) (message : JsString) :
    Safe host (Logger.call fn level message) := by
  simp only [Safe, Returns, Logger.call, always_tryCatch, always_pure]
  exact always_true

/-- What a log line throws is what reading its level throws. -/
theorem throwsOnly_log {Q : Value → Prop} (level : Level) (message : JsString) :
    ThrowsOnly host Q (Logger.log level message) ↔ LevelThrowsOnly host level Q := by
  simp only [ThrowsOnly, Logger.log, always_bind, always_shared, (safe_call _ _ _).always_const]
  rfl

/-- A log line, with what comes after it. -/
theorem always_log {c : Prop} {Q : Value → Prop} (level : Level) (message : JsString) :
    Always host (fun _ => c) Q (Logger.log level message) ↔
      LevelThrowsOnly host level Q ∧ (LevelUnreadable host level ∨ c) := by
  have hread : Always host (fun _ => c) Q (Logger.log level message) ↔
      ∀ s, May host s → Always host (fun _ => c) Q (getProp s.impl level.key) := by
    simp only [Logger.log, always_bind, always_shared, (safe_call _ _ _).always_const]
  rw [hread]
  by_cases hc : c
  · simp only [hc, or_true, and_true]
    rfl
  · simp only [hc, or_false, always_iff (P := fun _ => False) (Q := Q)]
    exact ⟨fun h => ⟨fun s hs => (h s hs).2, fun s hs => (h s hs).1⟩,
      fun h s hs => ⟨h.2 s hs, h.1 s hs⟩⟩

theorem levelThrowsOnly_congr {Q Q' : Value → Prop} (level : Level) (h : ∀ v, Q v ↔ Q' v) :
    LevelThrowsOnly host level Q ↔ LevelThrowsOnly host level Q' :=
  forall_congr' fun _ => forall_congr' fun _ => always_congr (fun _ => Iff.rfl) h

theorem returns_log {c : Prop} (level : Level) (message : JsString) :
    Returns host (fun _ => c) (Logger.log level message) ↔ LevelReadable host level ∧ c := by
  rw [returns_const]
  exact and_congr_left fun _ => throwsOnly_log level message

theorem toText_string (s : JsString) : toText (σ := Shared) engine (.string s) = pure s := rfl

theorem safe_logMessage (v : Value) :
    Safe host (logMessage engine v) ↔ Describable host engine v := by
  simp only [Safe, Returns, logMessage, describeError, always_bind, always_ite, always_map,
    always_pure, toText_string]
  rfl

theorem wellTyped_failedResponse (code message : Value) :
    (failedResponse code message).WellTyped ↔
      message.isNullableString = true ∧ code.isNumber = true := by
  simp [failedResponse, IncidentResponse.WellTyped, Value.isNullableString, and_comm]

theorem returns_describeError (v : Value) :
    Returns host (fun m => m.isNullableString = true) (describeError engine v) ↔
      DescribedByText host engine v := by
  simp only [Returns, describeError, always_bind, always_ite, always_map, Value.isNullableString]
  rfl

theorem returns_toFailedResponse (v : Value) :
    Returns host IncidentResponse.WellTyped (toFailedResponse engine v) ↔
      Convertible host engine v := by
  have hrest : Always host (fun m => (failedResponse (.number (numberOfInt (-1))) m).WellTyped)
      (fun _ => False) (describeError engine v) ↔ DescribedByText host engine v := by
    simp only [wellTyped_failedResponse, Value.isNumber, and_true]
    exact returns_describeError v
  have hcode : Always host (fun c => Always host (fun m => (failedResponse c m).WellTyped)
        (fun _ => False) (getProp v "message")) (fun _ => False) (getProp v "code") ↔
      Returns host (fun c => c.isNumber = true) (getProp v "code") ∧
        Returns host (fun m => m.isNullableString = true) (getProp v "message") := by
    have hmessage (c : Value) : Always host (fun m => (failedResponse c m).WellTyped)
        (fun _ => False) (getProp v "message") ↔ c.isNumber = true ∧
          Returns host (fun m => m.isNullableString = true) (getProp v "message") := by
      simp only [wellTyped_failedResponse, and_comm (a := c.isNumber = true)]
      exact returns_and_const
    simp only [hmessage]
    exact returns_and_const
  simp only [Returns, toFailedResponse, isDeliveryFailure, always_bind, always_ite, always_pure,
    hrest, hcode, Convertible]
  cases v.isObject <;> simp

theorem returns_reportFailure (level : Level) (v : Value) :
    Returns host IncidentResponse.WellTyped (reportFailure engine level v) ↔
      Reportable host engine level v := by
  have hlog (message : JsString) : Always host (fun _ => Always host IncidentResponse.WellTyped
      (fun _ => False) (toFailedResponse engine v)) (fun _ => False)
      (Logger.log level message) ↔ LevelReadable host level ∧ Convertible host engine v :=
    (returns_log level message).trans (and_congr_right fun _ => returns_toFailedResponse v)
  simp only [Returns, reportFailure, always_bind, hlog]
  refine (returns_const.trans (and_congr_left fun _ => safe_logMessage v)).trans ?_
  exact ⟨fun h => ⟨h.1, h.2.1, h.2.2⟩, fun h => ⟨h.describable, h.readable, h.convertible⟩⟩

theorem string_of_created {r : IncidentResponse} (hr : r.WellTyped) (hc : r.created = true) :
    ∃ s, r.incidentId = .string s := by
  obtain ⟨-, -, hid⟩ := hr
  cases h : r.incidentId <;>
    simp_all [Value.isNullableString, IncidentResponse.created, Value.truthy]

/-- The line for an incident that was created, with what comes after it. -/
theorem always_created {c : Prop} {Q : Value → Prop} {r : IncidentResponse} (hr : r.WellTyped)
    (mode : String) : Always host (fun _ => c) Q (logCreated engine mode request r) ↔
      (r.created = true → LevelThrowsOnly host .info Q) ∧
        ((r.created = true ∧ LevelUnreadable host .info) ∨ c) := by
  simp only [logCreated, always_ite]
  by_cases hc : r.created = true
  · obtain ⟨s, hs⟩ := string_of_created hr hc
    simp only [hc, if_true, hs, toText_string, always_bind, always_pure, true_imp_iff, true_and]
    exact always_log .info _
  · simp [hc]

/-! ## Delivery -/

/-- The failures that an attempt throws. -/
def IsFailure (v : Value) : Prop := ∃ x s, v = deliveryFailure true (.number x) (.string s)

/-- A record that `deliver` takes for a failure and can make a response of. -/
structure FailureRecord (fields : List (String × Value)) : Prop where
  retryable : fields.any (·.1 == "retryable") = true
  code : fields.any (·.1 == "code") = true
  number : (Value.own fields "code").isNumber = true
  message : (Value.own fields "message").isNullableString = true

theorem isRetryableError_failure (x : Double) (s : JsString) :
    isRetryableError (deliveryFailure true (.number x) (.string s)) = pure true := rfl

/-- The attempt count goes into the message of a network failure. -/
theorem withAttemptCount_failure (x : Double) (s : JsString) (n : Nat) :
    withAttemptCountIfNetworkFailure engine (deliveryFailure true (.number x) (.string s)) n =
      pure (if isMinusOne (.number x) then
        .record [("retryable", .boolean true), ("code", .number x), ("message", .string s),
          ("message", .string (s ++ js s!" (after {n} attempts)"))]
      else deliveryFailure true (.number x) (.string s)) := by
  change (if (!isMinusOne (.number x)) = true then (pure _ : Js Shared Value) else _) = _
  cases isMinusOne (.number x) <;> rfl

theorem always_attemptDelivery (hP : Delivered host engine client request P) :
    Always host P IsFailure (attemptDelivery engine client request) := by
  simp only [attemptDelivery, sendRequest, always_bind, always_tryCatch, always_ite, always_throw,
    always_pure]
  intro r hr
  rcases r with ⟨name, message⟩ | ⟨status, body⟩
  · exact ⟨_, _, rfl⟩
  · show if isRetryableStatus status = true then _ else _
    cases hstatus : isRetryableStatus status with
    | true => exact ⟨_, _, rfl⟩
    | false => exact hP status body hr hstatus

theorem always_withAttemptCount {v : Value} (hv : IsFailure v) (n : Nat) :
    Always host (fun e => ∃ fields, e = .record fields ∧ FailureRecord fields) (fun _ => False)
      (withAttemptCountIfNetworkFailure engine v n) := by
  obtain ⟨x, s, rfl⟩ := hv
  rw [withAttemptCount_failure, always_pure]
  split
  · exact ⟨_, rfl, rfl, rfl, rfl, rfl⟩
  · exact ⟨_, rfl, rfl, rfl, rfl, rfl⟩

theorem always_executeWithRetry {operation : Js Shared IncidentResponse}
    (hop : Always host P IsFailure operation) (attempt : Nat) (delays : List Nat) :
    Always host P (fun e => ∃ fields, e = .record fields ∧ FailureRecord fields)
      (executeWithRetry engine operation isRetryableError attempt delays) := by
  induction delays generalizing attempt with
  | nil =>
    simp only [executeWithRetry, always_tryCatch]
    refine hop.mono (fun _ h => h) ?_
    intro e he
    have hlast : Always host _ _ (withAttemptCountIfNetworkFailure engine e (attempt + 1)) :=
      always_withAttemptCount he (attempt + 1)
    obtain ⟨x, s, rfl⟩ := he
    rw [isRetryableError_failure]
    simpa using hlast.mono (fun _ h => h) fun _ h => h.elim
  | cons delay delays ih =>
    simp only [executeWithRetry, always_tryCatch]
    refine hop.mono (fun _ h => h) ?_
    intro e he
    obtain ⟨x, s, rfl⟩ := he
    rw [isRetryableError_failure]
    exact fun _ _ => ih (attempt + 1)

/-- `deliver` returns what an attempt parsed or a failed response, and does not throw. -/
theorem returns_deliver (hP : Delivered host engine client request P)
    (hfail : ∀ code message : Value, code.isNumber = true → message.isNullableString = true →
      P (failedResponse code message)) : Returns host P (deliver engine client request) := by
  simp only [Returns, deliver, always_tryCatch]
  refine (always_executeWithRetry (always_attemptDelivery hP) 0 retryDelaysMs).mono
    (fun _ h => h) ?_
  intro e he
  obtain ⟨fields, rfl, hf⟩ := he
  have hdf : isDeliveryFailure (.record fields) = pure true := by
    show (if !(fields.any (·.1 == "retryable")) then _ else _) = _
    rw [hf.retryable]
    show pure (fields.any (·.1 == "code")) = _
    rw [hf.code]
  rw [hdf]
  exact hfail _ _ hf.number hf.message

/-- Every response of an attempt that is not retried is one that `deliver` may return. -/
theorem delivered_of_always {Q : Value → Prop}
    (h : Always host P Q (deliver engine client request)) :
    Delivered host engine client request P := by
  simp only [deliver, always_tryCatch, retryDelaysMs, executeWithRetry, attemptDelivery,
    sendRequest, always_bind, always_ite] at h
  intro status body hr hstatus
  have h := h (.ok (status, body)) hr
  change if isRetryableStatus status = true then _ else _ at h
  rw [hstatus] at h
  exact h

end

end OppexSdk.Node
