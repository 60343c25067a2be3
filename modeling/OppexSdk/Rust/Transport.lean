import Mathlib.Algebra.Group.Int.Defs
import Mathlib.Algebra.Group.Nat.Defs
import OppexSdk.Rust.Retry

/-! # The Rust transport

`Transport::send` and `status_failure` of `rust/src/internal/transport.rs` with `parse_response`
of `rust/src/internal/wire.rs`. What the HTTP agent does in one attempt is the input: no status
line arrives, or one does and the agent gives the response up, or hands it over and then its body.
`serde_json::from_str` is a parameter. -/
namespace OppexSdk.Rust.Transport
open OppexSdk.Rust.Retry (isRetryableStatus)

/-- `char::is_whitespace`: the Unicode property White_Space. -/
def isWhitespace (c : Char) : Bool :=
  let n := c.toNat
  (0x09 ≤ n && n ≤ 0x0D) || n == 0x20 || n == 0x85 || n == 0xA0 || n == 0x1680 ||
    (0x2000 ≤ n && n ≤ 0x200A) || n == 0x2028 || n == 0x2029 || n == 0x202F || n == 0x205F ||
    n == 0x3000

/-- `s.trim().is_empty()`. -/
def trimIsEmpty (s : String) : Bool := s.toList.all isWhitespace

/-- `serde_json::Number`: an integer of 64 bits, signed or not, or a float. -/
inductive Number
  | integer (i : Int)
  | float

/-- `serde_json::Value`. -/
inductive Value
  | null
  | bool (b : Bool)
  | number (n : Number)
  | string (s : String)
  | array (elems : List Value)
  | object (members : List (String × Value))

namespace Value

def asObject : Value → Option (List (String × Value))
  | object members => some members
  | _ => none

def asBool : Value → Option Bool
  | bool b => some b
  | _ => none

def asI64 : Value → Option Int
  | number (.integer i) => if -2 ^ 63 ≤ i ∧ i < 2 ^ 63 then some i else none
  | _ => none

def asStr : Value → Option String
  | string s => some s
  | _ => none

end Value

structure IncidentResponse where
  successful : Bool
  code : Int
  message : Option String
  incidentId : Option String

/-- `i32::try_from(code).ok()`. -/
def tryI32 (i : Int) : Option Int := if -2 ^ 31 ≤ i ∧ i < 2 ^ 31 then some i else none

/-- What reading the body of a response produced, under the limit of `MAX_RESPONSE_BYTES`. -/
inductive Body (κ : Type)
  | text (s : String)
  | exceeded (cause : κ)
  | failed (cause : κ)

/-- What the agent sees of one attempt. The agent follows redirects, so that its `send` can also
fail on a response that has arrived, such as a 302 that names no location. -/
inductive Attempt (κ : Type)
  | noStatusLine (cause : κ)
  | givenUp (status : UInt16) (cause : κ)
  | responded (status : UInt16) (body : Body κ)

/-- The status line of the attempt. -/
def Attempt.statusLine {κ : Type} : Attempt κ → Option UInt16
  | .noStatusLine _ => none
  | .givenUp status _ => some status
  | .responded status _ => some status

section
variable {κ : Type} (fromStr : String → Except κ Value)

def parseResponse (httpStatus : Int) (body : String) :
    Except (IncidentError κ) IncidentResponse :=
  let successful := decide (200 ≤ httpStatus ∧ httpStatus < 300)
  if trimIsEmpty body then .ok ⟨successful, httpStatus, none, none⟩
  else
    match fromStr body with
    | .error cause => .error (.deliveryCausedBy
        s!"Oppex returned a non-JSON response (status {httpStatus})" httpStatus false cause)
    | .ok parsed =>
      match parsed.asObject with
      | none => .error (.ofDelivery
          s!"Oppex returned a non-object JSON response (status {httpStatus})" httpStatus false)
      | some object => .ok
          { successful := ((object.lookup "success").bind Value.asBool).getD successful
            code := (((object.lookup "code").bind Value.asI64).bind tryI32).getD httpStatus
            message := (object.lookup "message").bind Value.asStr
            incidentId := (object.lookup "data").bind Value.asStr }

def statusFailure (status : Int) (body : String) : IncidentError κ :=
  let message := s!"Oppex returned HTTP {status}"
  let message :=
    match parseResponse fromStr status body with
    | .ok parsed =>
      match parsed.message with
      | some detail => if trimIsEmpty detail then message else s!"{message}: {detail}"
      | none => message
    | .error _ => message
  .ofDelivery message status (isRetryableStatus status)

def send : Attempt κ → Except (IncidentError κ) IncidentResponse
  -- one `map_err` for everything the agent's `send` fails with
  | .noStatusLine cause | .givenUp _ cause => .error (.deliveryCausedBy
      "incident delivery failed before a response was received" noStatusCode true cause)
  | .responded status body =>
    let status : Int := status.toNat
    match body with
    | .exceeded cause | .failed cause => .error (.deliveryCausedBy
        "reading the Oppex response body" noStatusCode true cause)
    | .text body =>
      if 200 ≤ status ∧ status < 300 then parseResponse fromStr status body
      else .error (statusFailure fromStr status body)

/-! ## Which attempts are tried again -/

/-- The attempts that are worth another one: no status line, or one of five statuses. -/
def Attempt.Transient (attempt : Attempt κ) : Prop :=
  ∀ status ∈ attempt.statusLine, status.toNat ∈ [429, 500, 502, 503, 504]

/-- The response was handed over and its body read, if there was one. -/
def Attempt.BodyRead : Attempt κ → Prop
  | .noStatusLine _ => True
  | .responded _ (.text _) => True
  | _ => False

/-- Only transient attempts are tried again: a failure says so and carries the status that
arrived, and no retry loop calls again after another attempt. -/
structure OnlyTransientRetried (attempt : Attempt κ) : Prop where
  retryable : ∀ e, send fromStr attempt = .error e → (e.isRetryable = true ↔ attempt.Transient)
  status : ∀ e s, send fromStr attempt = .error e → attempt.statusLine = some s →
    e.statusCode = some (s.toNat : Int)
  calls : ¬ attempt.Transient → ∀ delays outcome interrupt i, outcome i = send fromStr attempt →
    (Retry.executeWithRetry delays outcome interrupt).calls ≤ i + 1

variable {fromStr}

/-- Errors of the decoding step carry the status and are not retryable. -/
theorem parseResponse_error {httpStatus : Int} {body : String} {e : IncidentError κ}
    (h : parseResponse fromStr httpStatus body = .error e) :
    ∃ f, e = .delivery f ∧ f.statusCode = httpStatus ∧ f.retryable = false := by
  unfold parseResponse at h
  dsimp only at h
  split at h
  · cases h
  · split at h
    · cases h; exact ⟨_, rfl, rfl, rfl⟩
    · split at h
      · cases h; exact ⟨_, rfl, rfl, rfl⟩
      · cases h

theorem isRetryableStatus_iff (status : Nat) :
    isRetryableStatus status = true ↔ status ∈ [429, 500, 502, 503, 504] := by
  simp only [isRetryableStatus, Bool.or_eq_true, beq_iff_eq, List.mem_cons, List.not_mem_nil,
    or_false]
  omega

/-- With the body read, a failure carries the status and is retryable when the status is listed. -/
theorem send_text_error {s : UInt16} {body : String} {e : IncidentError κ}
    (h : send fromStr (.responded s (.text body)) = .error e) :
    ∃ f, e = .delivery f ∧ f.statusCode = s.toNat ∧
      (f.retryable = true ↔ s.toNat ∈ [429, 500, 502, 503, 504]) := by
  unfold send at h
  dsimp only at h
  split at h
  · rename_i h2xx
    obtain ⟨f, rfl, hs, hr⟩ := parseResponse_error h
    refine ⟨f, rfl, hs, ?_⟩
    rw [hr]
    simp only [List.mem_cons, List.not_mem_nil, or_false, Bool.false_eq_true, false_iff]
    omega
  · cases h
    exact ⟨_, rfl, rfl, isRetryableStatus_iff s.toNat⟩

theorem statusCode_of_nat {f : DeliveryFailure κ} {n : Nat} (h : f.statusCode = n) :
    (IncidentError.delivery f).statusCode = some (n : Int) := by
  have hne : f.statusCode ≠ noStatusCode := by
    unfold noStatusCode
    omega
  rw [IncidentError.statusCode, if_pos hne, h]

/-- A result that is not a retryable failure ends the loop. -/
theorem calls_le_of_not_retryable {α : Type} {result : Except (IncidentError κ) α}
    (h : ∀ e, result = .error e → e.isRetryable = false) (delays : List Retry.Duration)
    (outcome : Nat → Except (IncidentError κ) α) (interrupt : Nat → Bool) (i : Nat)
    (hi : outcome i = result) :
    (Retry.executeWithRetry delays outcome interrupt).calls ≤ i + 1 := by
  rw [Retry.executeWithRetry_eq_reference]
  refine Lib.Retry.reference_calls_le ?_
  cases hr : result with
  | ok value => exact .inl (by rw [hi, hr]; rfl)
  | error e => exact .inr (.inl ⟨e, by rw [hi, hr], h e hr⟩)

/-- A failure that has lost its status is not what is promised of an attempt with a status line. -/
theorem not_onlyTransientRetried {attempt : Attempt κ} {e : IncidentError κ} {s : UInt16}
    (hsend : send fromStr attempt = .error e) (hs : attempt.statusLine = some s)
    (he : e.statusCode = none) : ¬ OnlyTransientRetried fromStr attempt := by
  intro h
  have hstatus := h.status e s hsend hs
  rw [he] at hstatus
  cases hstatus

/-- **Only transient attempts are tried again exactly when the body could be read.** -/
theorem onlyTransientRetried_iff (attempt : Attempt κ) :
    OnlyTransientRetried fromStr attempt ↔ attempt.BodyRead := by
  cases attempt with
  | noStatusLine cause =>
    refine ⟨fun _ => trivial, fun _ => ⟨?_, ?_, ?_⟩⟩
    · intro e he
      cases he
      refine ⟨fun _ => ?_, fun _ => rfl⟩
      intro status hs
      cases hs
    · intro e s he hs
      cases hs
    · intro hno
      refine absurd ?_ hno
      intro status hs
      cases hs
  | givenUp s cause => exact ⟨fun h => not_onlyTransientRetried rfl rfl rfl h, False.elim⟩
  | responded s body =>
    cases body with
    -- the failure of an unread body has lost its status
    | exceeded cause => exact ⟨fun h => not_onlyTransientRetried rfl rfl rfl h, False.elim⟩
    | failed cause => exact ⟨fun h => not_onlyTransientRetried rfl rfl rfl h, False.elim⟩
    | text body =>
      have hretry : ∀ e, send fromStr (.responded s (.text body)) = .error e →
          (e.isRetryable = true ↔ (Attempt.responded (κ := κ) s (.text body)).Transient) := by
        intro e he
        obtain ⟨f, rfl, -, hr⟩ := send_text_error he
        refine hr.trans ⟨fun h status hs => ?_, fun h => h s rfl⟩
        cases hs
        exact h
      refine ⟨fun _ => trivial, fun _ => ⟨hretry, ?_, ?_⟩⟩
      · intro e s' he hs
        cases hs
        obtain ⟨f, rfl, hs, -⟩ := send_text_error he
        exact statusCode_of_nat hs
      · intro hno
        refine calls_le_of_not_retryable ?_
        intro e he
        rw [← Bool.not_eq_true]
        exact mt (hretry e he).mp hno

end

end OppexSdk.Rust.Transport
