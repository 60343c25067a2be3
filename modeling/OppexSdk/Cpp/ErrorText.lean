import OppexSdk.Cpp.HttpTransport
import OppexSdk.Cpp.JsonMeaning

/-! # What an error text tells of the response

A proxy may answer with a page that repeats the request headers, the API key among them. Two
bodies without a message of their own lead to the same error: of a body that fails to decode, or
that comes with a failed status, an error carries the `message` string and nothing else. -/
namespace OppexSdk.Cpp.HttpTransport
open OppexSdk.Lib OppexSdk.Cpp.Wire OppexSdk.Cpp.Json
open OppexSdk.Cpp.Retry (isRetryableStatus)

/-- The `message` of the object the body parses to, if it is a string and not empty. -/
def decodedMessage (body : Bytes) : Option Bytes :=
  let envelope := (parse body).bind Value.asObject
  let message := (envelope.bind fun object => object.find (bytes "message")).bind Value.asString
  message.filter fun text => !text.isEmpty

/-- An error of the decoding step tells of the body only its message. -/
structure TellsOnlyMessage (httpStatus : Int) : Prop where
  /-- Two bodies without a message cannot be told apart by the errors they lead to. -/
  unparsed : ∀ body body' e e', decodedMessage body = none → decodedMessage body' = none →
    decodeResponse httpStatus body = .error e → decodeResponse httpStatus body' = .error e' →
    e.what = e'.what ∧ e.statusCode = e'.statusCode ∧ e.retryable = e'.retryable
  /-- A failed status leads to an error that the status and the message determine. -/
  failed : ¬ (200 ≤ httpStatus ∧ httpStatus < 300) → ∃ failure : Option Bytes → IncidentError,
    ∀ body, decodeResponse httpStatus body = .error (failure (decodedMessage body))

/-! ## Blank bodies -/

theorem not_startsValue_of_blank {b : UInt8}
    (h : (b == 0x20 || b == 0x09 || b == 0x0A || b == 0x0D || b == 0x0C || b == 0x0B) = true) :
    Lib.Json.startsValue b = false := by
  simp only [Bool.or_eq_true, beq_iff_eq, or_assoc] at h
  rcases h with rfl | rfl | rfl | rfl | rfl | rfl <;> rfl

/-- A text that parses has a byte that starts a value. -/
theorem parse_of_isBlank {body : Bytes} (h : isBlank body = true) : parse body = none := by
  cases hparse : parse body with
  | none => rfl
  | some v =>
    obtain ⟨t, ⟨w, s, w', -, hs, -, rfl⟩, -, -⟩ := parse_eq_some_iff.mp hparse
    obtain ⟨b, s', rfl, hb⟩ := hs.starts FromChars.strtodNumber_numberBytes
    have hblank := List.all_eq_true.mp h b (by simp)
    rw [not_startsValue_of_blank hblank] at hb
    cases hb

/-! ## The errors -/

/-- The error of a successful status whose body is no object. -/
def nonJson (httpStatus : Int) : IncidentError :=
  .new .kDelivery (bytes "Oppex returned a non-JSON response (status " ++
    signedDecimal httpStatus ++ bytes ")") httpStatus

theorem parseResponse_error_eq {httpStatus : Int} {body : Bytes} {e : IncidentError}
    (h : parseResponse httpStatus body = .error e) : e = nonJson httpStatus := by
  unfold parseResponse at h
  dsimp only at h
  split at h
  · cases h
  · split at h
    · cases h; rfl
    · cases h

/-- What `parseResponse` finds as the message, when it is not empty. -/
theorem parseResponse_message (httpStatus : Int) (body : Bytes) :
    ((parseResponse httpStatus body).toOption.bind fun response => response.message).filter
      (fun text => !text.isEmpty) = decodedMessage body := by
  have hblank : (body.isEmpty || isBlank body) = true → parse body = none := by
    intro h
    rw [Bool.or_eq_true] at h
    rcases h with h | h
    · rw [List.isEmpty_iff.mp h]
      exact parse_of_isBlank rfl
    · exact parse_of_isBlank h
  unfold parseResponse decodedMessage
  dsimp only
  split
  · rename_i h
    rw [hblank h]
    rfl
  · cases (parse body).bind Value.asObject with
    | none => rfl
    | some envelope => rfl

/-- The error of a failed status, from what its body says. -/
def describedFailure (httpStatus : Int) (message : Option Bytes) : IncidentError :=
  let text := bytes "Oppex returned HTTP " ++ signedDecimal httpStatus
  .new .kDelivery (message.elim text fun detail => text ++ (bytes ": " ++ detail)) httpStatus
    (isRetryableStatus httpStatus)

theorem statusFailure_eq (httpStatus : Int) (body : Bytes) :
    statusFailure httpStatus body = describedFailure httpStatus (decodedMessage body) := by
  rw [← parseResponse_message httpStatus body]
  unfold statusFailure describedFailure
  cases parseResponse httpStatus body with
  | error e => rfl
  | ok response =>
    obtain ⟨successful, code, message, incidentId⟩ := response
    cases message with
    | none => rfl
    | some detail =>
      simp only [Except.toOption, Option.bind_some, Option.filter]
      by_cases hempty : detail.isEmpty = true
      · rw [if_pos hempty, if_neg (by simp [hempty])]
        rfl
      · rw [if_neg hempty, if_pos (by simpa using hempty)]
        rfl

/-- **An error text never leaks an unparsed body.** -/
theorem error_tells_only_the_message (httpStatus : Int) : TellsOnlyMessage httpStatus := by
  constructor
  · intro body body' e e' hnone hnone' h h'
    have heq : e = e' := by
      unfold decodeResponse at h h'
      split at h
      · rename_i h2xx
        rw [if_pos h2xx] at h'
        rw [parseResponse_error_eq h, parseResponse_error_eq h']
      · rename_i h2xx
        rw [if_neg h2xx] at h'
        cases h
        cases h'
        rw [statusFailure_eq, statusFailure_eq, hnone, hnone']
    rw [heq]
    exact ⟨rfl, rfl, rfl⟩
  · intro h2xx
    refine ⟨describedFailure httpStatus, ?_⟩
    intro body
    rw [decodeResponse, if_neg h2xx, statusFailure_eq]

end OppexSdk.Cpp.HttpTransport
