import OppexSdk.Lib.Monitor
import OppexSdk.Node.IncidentClient

/-! # What the parts of the Node client ask the host

Only `attemptDelivery` sends, always the payload of its request, and only `observe` reads the names
of the callbacks. Everything else asks ordinary questions. -/
namespace OppexSdk.Node
open OppexSdk.Lib.Binary64 OppexSdk.Lib.Interaction OppexSdk.Lib.JavaScript

/-- Neither a request nor the read of a callback. -/
def Ordinary : Query Shared → Prop
  | .send .. => False
  | .get _ key => key ≠ "onSuccess" ∧ key ≠ "onError"
  | _ => True

section
variable {p : Query Shared → Prop}

/-! ## The operations of the language -/

theorem asks_getProp (v : Value) {key : String} (h : ∀ ref, p (.get ref key)) :
    Asks p (getProp v key : Js Shared Value) := by
  cases v with
  | object ref callable => exact ⟨h ref, fun r => asks_ofExcept r⟩
  | _ => trivial

theorem ordinary_getProp (v : Value) {key : String}
    (h : key ≠ "onSuccess" ∧ key ≠ "onError" := by decide) :
    Asks Ordinary (getProp v key : Js Shared Value) := asks_getProp v fun _ => h

theorem ordinary_hasProp (v : Value) (key : String) :
    Asks Ordinary (hasProp v key : Js Shared Bool) := by
  cases v with
  | object ref callable => exact ⟨trivial, fun r => asks_ofExcept r⟩
  | _ => trivial

theorem ordinary_instanceofError (v : Value) :
    Asks Ordinary (instanceofError v : Js Shared Bool) := by
  cases v with
  | object ref callable => exact ⟨trivial, fun r => asks_ofExcept r⟩
  | _ => trivial

theorem ordinary_spread (v : Value) :
    Asks Ordinary (spread v : Js Shared (List (String × Value))) := by
  cases v with
  | object ref callable => exact ⟨trivial, fun r => asks_ofExcept r⟩
  | _ => trivial

theorem ordinary_callValue (f : Value) (args : List Value) :
    Asks Ordinary (callValue f args : Js Shared Value) := by
  unfold callValue
  split
  · exact ⟨trivial, fun r => asks_ofExcept r⟩
  · trivial

variable (engine : Engine)

theorem ordinary_toText (v : Value) : Asks Ordinary (toText engine v : Js Shared JsString) := by
  cases v with
  | object ref callable => exact ⟨trivial, fun r => asks_ofExcept r⟩
  | _ => trivial

theorem ordinary_stringOf (v : Value) :
    Asks Ordinary (stringOf engine v : Js Shared JsString) := by
  unfold stringOf
  split
  · trivial
  · exact ordinary_toText engine _

theorem ordinary_numberOf (v : Value) :
    Asks Ordinary (numberOf engine v : Js Shared Double) := by
  cases v with
  | object ref callable => exact ⟨trivial, fun r => asks_ofExcept r⟩
  | _ => trivial

/-! ## The request -/

theorem asks_requireNonBlank (value : Value) (field : String) :
    Asks p (requireNonBlank value field : Js Shared JsString) := by
  unfold requireNonBlank
  split
  · exact Asks.ite (asks_throw _) (asks_pure _)
  · trivial

theorem asks_optionalNonBlank (value : Value) (field : String) :
    Asks p (optionalNonBlank value field : Js Shared (Option JsString)) := by
  unfold optionalNonBlank
  split
  · trivial
  · trivial
  · exact Asks.ite (asks_throw _) (asks_pure _)
  · trivial

theorem asks_nullableString (value : Value) (field : String) :
    Asks p (nullableString value field : Js Shared (Option (Option JsString))) := by
  unfold nullableString
  split <;> trivial

theorem asks_requireFinite (value : Value) (inRange : Finite → Bool) (message : String) :
    Asks p (requireFinite value inRange message : Js Shared Finite) := by
  unfold requireFinite
  split
  · exact Asks.ite (asks_pure _) (asks_throw _)
  · trivial

theorem ordinary_getOr (input : Value) {key : String} {default : Js Shared Value}
    (hdefault : Asks Ordinary default)
    (h : key ≠ "onSuccess" ∧ key ≠ "onError" := by decide) :
    Asks Ordinary (getOr input key default) :=
  (ordinary_getProp input h).bind fun _ => Asks.ite hdefault (ordinary_getProp input h)

theorem ordinary_buildIncidentRequest (input : Value) :
    Asks Ordinary (buildIncidentRequest engine input : Js Shared IncidentRequest) := by
  unfold buildIncidentRequest
  refine Asks.ite (asks_throw _) ?_
  refine (ordinary_getProp input).bind fun _ => (asks_requireNonBlank _ _).bind ?_
  intro _
  refine (ordinary_getProp input).bind fun _ => (asks_requireNonBlank _ _).bind ?_
  intro source
  refine Asks.ite (asks_throw _) ?_
  have hseverity : Asks Ordinary (some <$> (getProp input "severity" >>= numberOf engine) :
      Js Shared (Option Double)) :=
    ((ordinary_getProp input).bind fun _ => ordinary_numberOf engine _).map _
  refine (ordinary_getProp input).bind ?_
  intro v
  refine Asks.ite_bind (asks_pure _) hseverity ?_
  intro _
  refine (ordinary_getOr input (asks_pure _)).bind fun _ =>
    (asks_requireFinite _ _ _).bind ?_
  intro _
  have hnow : Asks Ordinary (.ask (.now : Query Shared) fun (ms : Nat) =>
      pure (.number (numberOfInt ms)) : Js Shared Value) := ⟨trivial, fun _ => trivial⟩
  refine (ordinary_getOr input hnow).bind fun _ =>
    (asks_requireFinite _ _ _).bind ?_
  intro _
  refine (ordinary_getProp input).bind fun _ => (asks_nullableString _ _).bind ?_
  intro _
  refine (ordinary_getProp input).bind fun _ => (asks_optionalNonBlank _ _).bind ?_
  intro _
  refine (ordinary_getProp input).bind fun _ => (asks_optionalNonBlank _ _).bind ?_
  intro _
  refine (ordinary_getProp input).bind fun _ => (asks_optionalNonBlank _ _).bind ?_
  intro _
  exact (ordinary_getProp input).bind fun _ => (asks_optionalNonBlank _ _).bind fun _ => asks_pure _

/-! ## Logging -/

theorem asks_shared (h : p .read) : Asks p shared := ⟨h, fun _ => trivial⟩

theorem ordinary_levelKey (level : Level) :
    level.key ≠ "onSuccess" ∧ level.key ≠ "onError" := by
  cases level <;> decide

theorem ordinary_describeError (err : Value) : Asks Ordinary (describeError engine err) := by
  refine (ordinary_instanceofError err).bind ?_
  intro isError
  exact Asks.ite (ordinary_getProp err) ((ordinary_stringOf engine err).map _)

theorem ordinary_logMessage (err : Value) : Asks Ordinary (logMessage engine err) :=
  (ordinary_describeError engine err).bind fun _ => (ordinary_toText engine _).bind fun _ =>
    asks_pure _

theorem ordinary_call (fn : Value) (level : Level) (message : JsString) :
    Asks Ordinary (Logger.call fn level message) := by
  have hconsole : Asks Ordinary (.ask (.console level.key message : Query Shared) .ofExcept :
      Js Shared Unit) := ⟨trivial, fun r => asks_ofExcept r⟩
  exact Asks.tryCatch (Asks.ite ((ordinary_callValue fn _).map _) hconsole) fun _ => asks_pure _

theorem ordinary_log (level : Level) (message : JsString) :
    Asks Ordinary (Logger.log level message) :=
  (asks_shared trivial).bind fun s => (ordinary_getProp s.impl (ordinary_levelKey level)).bind
    fun fn => ordinary_call fn level message

theorem ordinary_isDeliveryFailure (err : Value) : Asks Ordinary (isDeliveryFailure err) := by
  refine Asks.ite (asks_pure _) ((ordinary_hasProp err _).bind ?_)
  intro _
  exact Asks.ite (asks_pure _) (ordinary_hasProp err _)

theorem ordinary_toFailedResponse (err : Value) :
    Asks Ordinary (toFailedResponse engine err) := by
  refine (ordinary_isDeliveryFailure err).bind fun _ => Asks.ite ?_ ?_
  · exact (ordinary_getProp err).bind fun _ =>
      (ordinary_getProp err).bind fun _ => asks_pure _
  · exact (ordinary_describeError engine err).bind fun _ => asks_pure _

theorem ordinary_reportFailure (level : Level) (err : Value) :
    Asks Ordinary (reportFailure engine level err) :=
  (ordinary_logMessage engine err).bind fun _ => (ordinary_log level _).bind fun _ =>
    ordinary_toFailedResponse engine err

theorem ordinary_logCreated (mode : String) (request : IncidentRequest)
    (response : IncidentResponse) : Asks Ordinary (logCreated engine mode request response) :=
  Asks.ite ((ordinary_toText engine _).bind fun _ => ordinary_log .info _) (asks_pure _)

theorem ordinary_newError (message : Value) (fallback : String) :
    Asks Ordinary (newError engine message fallback) :=
  Asks.ite (asks_pure _) ((ordinary_toText engine message).bind fun _ => asks_pure _)

end

end OppexSdk.Node
