import OppexSdk.Cpp.WireCodec
import OppexSdk.Rust.Transport

/-! # The C++ transport

`AppendBody`, `StatusFailure` and `HttpTransport::Send` of `cpp/src/http_transport.cpp`. What
libcurl sees of one attempt is the input: whether there is a handle, the status line, the chunks
of the body in the order in which they arrive, and how the transfer ends. -/
namespace OppexSdk.Cpp.HttpTransport
open OppexSdk.Lib OppexSdk.Cpp.Wire
open OppexSdk.Cpp.Retry (isRetryableStatus)

def kMaxResponseBytes : Nat := 1024 * 1024

/-- A `CURLcode` other than `CURLE_OK`. -/
structure CurlError where
  code : Nat
  failed : code ≠ 0

/-- `CURLE_WRITE_ERROR`, for a write callback that returns short. -/
def writeError : CurlError := ⟨23, by decide⟩

/-- `AppendBody`: the body with the chunk, or `none` when it returns short. -/
def appendBody (body chunk : Bytes) : Option Bytes :=
  if body.length + chunk.length > kMaxResponseBytes then none else some (body ++ chunk)

inductive Attempt
  /-- `curl_easy_init` returned null. -/
  | noHandle
  | noStatusLine (error : CurlError)
  /-- The status line arrived, then chunks, then the end or an error. -/
  | responded (status : UInt16) (chunks : List Bytes) (ending : Option CurlError)

/-- `curl_easy_perform` once the status line is there: the body, or the error it returns. -/
def receive (chunks : List Bytes) (ending : Option CurlError) : Except CurlError Bytes :=
  match chunks.foldlM appendBody [] with
  | none => .error writeError
  | some body =>
    match ending with
    | none => .ok body
    | some error => .error error

def statusFailure (status : Int) (body : Bytes) : IncidentError :=
  let message := bytes "Oppex returned HTTP " ++ signedDecimal status
  let message :=
    match parseResponse status body with
    | .ok parsed =>
      match parsed.message with
      | some detail => if detail.isEmpty then message else message ++ (bytes ": " ++ detail)
      | none => message
    | .error _ => message
  .new .kDelivery message status (isRetryableStatus status)

section
variable (strerror : CurlError → Bytes)

/-- What `Send` throws when `curl_easy_perform` fails. -/
def transferFailure (error : CurlError) : IncidentError :=
  .new .kDelivery
    (bytes "incident delivery failed before a response was received: " ++ strerror error)
    kNoStatusCode true

/-- The decoding step of `Send`, once the status and the body are there. -/
def decodeResponse (httpStatus : Int) (body : Bytes) : Except IncidentError IncidentResponse :=
  if 200 ≤ httpStatus ∧ httpStatus < 300 then parseResponse httpStatus body
  else .error (statusFailure httpStatus body)

/-- `HttpTransport::Send`. -/
def send : Attempt → Except IncidentError IncidentResponse
  | .noHandle => .error (.new .kDelivery (bytes "could not create an HTTP handle"))
  | .noStatusLine error => .error (transferFailure strerror error)
  | .responded status chunks ending =>
    match receive chunks ending with
    | .error error => .error (transferFailure strerror error)
    | .ok body => decodeResponse status.toNat body

/-! ## Which attempts are tried again -/

/-- The attempts that are worth another one: no status line, or one of five statuses. -/
def Attempt.Transient : Attempt → Prop
  | .noHandle => True
  | .noStatusLine _ => True
  | .responded status _ _ => status.toNat ∈ [429, 500, 502, 503, 504]

/-- There was a handle and, after a status line, the whole body arrived and kept to the cap. -/
def Attempt.BodyRead : Attempt → Prop
  | .noHandle => False
  | .noStatusLine _ => True
  | .responded _ chunks ending => chunks.flatten.length ≤ kMaxResponseBytes ∧ ending = none

/-- Only transient attempts are tried again: a failure says so and carries the status that
arrived, and no retry loop calls again after another attempt. -/
structure OnlyTransientRetried (attempt : Attempt) : Prop where
  retryable : ∀ e, send strerror attempt = .error e → (e.retryable = true ↔ attempt.Transient)
  status : ∀ e s chunks ending, send strerror attempt = .error e →
    attempt = .responded s chunks ending → e.statusCode = (s.toNat : Int)
  calls : ¬ attempt.Transient → ∀ delays outcome interrupt i, outcome i = send strerror attempt →
    (Retry.execute delays outcome interrupt).calls ≤ i + 1

end

/-- The chunks are taken when together they keep to the cap. -/
theorem foldlM_appendBody (chunks : List Bytes) (body : Bytes)
    (hbody : body.length ≤ kMaxResponseBytes) :
    chunks.foldlM appendBody body =
      if body.length + chunks.flatten.length ≤ kMaxResponseBytes
      then some (body ++ chunks.flatten) else none := by
  induction chunks generalizing body with
  | nil => simp [hbody]
  | cons chunk chunks ih =>
    rw [List.foldlM_cons, appendBody, List.flatten_cons, List.length_append]
    by_cases hfit : body.length + chunk.length > kMaxResponseBytes
    · rw [if_pos hfit, if_neg (by omega)]
      rfl
    · have hlen : (body ++ chunk).length = body.length + chunk.length := List.length_append
      rw [if_neg hfit, Option.bind_eq_bind, Option.bind_some, ih _ (by omega), hlen,
        List.append_assoc, Nat.add_assoc]

theorem receive_ok_iff (chunks : List Bytes) (ending : Option CurlError) :
    (∃ body, receive chunks ending = .ok body) ↔
      chunks.flatten.length ≤ kMaxResponseBytes ∧ ending = none := by
  have hfold := foldlM_appendBody chunks [] (Nat.zero_le _)
  rw [List.length_nil, Nat.zero_add, List.nil_append] at hfold
  unfold receive
  rw [hfold]
  by_cases hfit : chunks.flatten.length ≤ kMaxResponseBytes
  · rw [if_pos hfit]
    cases ending with
    | none => exact ⟨fun _ => ⟨hfit, rfl⟩, fun _ => ⟨_, rfl⟩⟩
    | some error => exact ⟨fun ⟨_, h⟩ => (nomatch h), fun h => (nomatch h.2)⟩
  · rw [if_neg hfit]
    exact ⟨fun ⟨_, h⟩ => (nomatch h), fun h => absurd h.1 hfit⟩

theorem parseResponse_error {httpStatus : Int} {body : Bytes} {e : IncidentError}
    (h : parseResponse httpStatus body = .error e) :
    e.statusCode = httpStatus ∧ e.retryable = false := by
  unfold parseResponse at h
  dsimp only at h
  split at h
  · cases h
  · split at h
    · cases h; exact ⟨rfl, rfl⟩
    · cases h

theorem isRetryableStatus_iff (status : Nat) :
    isRetryableStatus status = true ↔ status ∈ [429, 500, 502, 503, 504] := by
  simp only [isRetryableStatus, Bool.or_eq_true, beq_iff_eq, List.mem_cons, List.not_mem_nil,
    or_false]
  omega

section
variable {strerror : CurlError → Bytes}

theorem send_read_error {s : UInt16} {chunks : List Bytes} {ending : Option CurlError}
    {body : Bytes} {e : IncidentError} (hread : receive chunks ending = .ok body)
    (h : send strerror (.responded s chunks ending) = .error e) :
    e.statusCode = s.toNat ∧ (e.retryable = true ↔ s.toNat ∈ [429, 500, 502, 503, 504]) := by
  simp only [send, hread, decodeResponse] at h
  split at h
  · rename_i h2xx
    obtain ⟨hs, hr⟩ := parseResponse_error h
    refine ⟨hs, ?_⟩
    rw [hr]
    simp only [List.mem_cons, List.not_mem_nil, or_false, Bool.false_eq_true, false_iff]
    omega
  · cases h
    exact ⟨rfl, isRetryableStatus_iff s.toNat⟩

theorem calls_le_of_not_retryable {α : Type} {result : Except IncidentError α}
    (h : ∀ e, result = .error e → e.retryable = false) (delays : List Retry.Milliseconds)
    (outcome : Nat → Except IncidentError α) (interrupt : Nat → Bool) (i : Nat)
    (hi : outcome i = result) : (Retry.execute delays outcome interrupt).calls ≤ i + 1 := by
  rw [Retry.execute_eq_reference]
  refine Lib.Retry.reference_calls_le ?_
  cases hr : result with
  | ok value => exact .inl (by rw [hi, hr]; rfl)
  | error e => exact .inr (.inl ⟨e, by rw [hi, hr], h e hr⟩)

theorem onlyTransientRetried_iff (attempt : Attempt) :
    OnlyTransientRetried strerror attempt ↔ attempt.BodyRead := by
  cases attempt with
  | noHandle => exact ⟨fun h => (nomatch (h.retryable _ rfl).mpr trivial), False.elim⟩
  | noStatusLine error =>
    refine ⟨fun _ => trivial, fun _ => ⟨?_, ?_, ?_⟩⟩
    · intro e he
      cases he
      exact ⟨fun _ => trivial, fun _ => rfl⟩
    · intro e s c n he hs
      cases hs
    · intro hno
      exact absurd trivial hno
  | responded s chunks ending =>
    rw [Attempt.BodyRead, ← receive_ok_iff]
    cases hread : receive chunks ending with
    | error error =>
      -- the failure of an unread body has lost its status
      have hsend : send strerror (.responded s chunks ending) =
          .error (transferFailure strerror error) := by simp only [send, hread]
      refine ⟨?_, fun ⟨_, h⟩ => (nomatch h)⟩
      intro h
      have hstatus := h.status _ _ _ _ hsend rfl
      have hno : (transferFailure strerror error).statusCode = -1 := rfl
      omega
    | ok body =>
      have hretry : ∀ e, send strerror (.responded s chunks ending) = .error e →
          (e.retryable = true ↔ (Attempt.responded s chunks ending).Transient) :=
        fun e he => (send_read_error hread he).2
      refine ⟨fun _ => ⟨body, rfl⟩, fun _ => ⟨hretry, ?_, ?_⟩⟩
      · intro e s' c n he hs
        cases hs
        exact (send_read_error hread he).1
      · intro hno
        refine calls_le_of_not_retryable ?_
        intro e he
        rw [← Bool.not_eq_true]
        exact mt (hretry e he).mp hno

end

/-! ## Both transports -/

/-- **Only transient attempts are tried again exactly when the response could be read.** For every
attempt of the Rust transport the agent must have handed the response over and its body been read;
for every attempt of the C++ transport there must also have been a handle, and the chunks must have
kept to the cap. -/
theorem only_transient_attempts_retried_iff {κ : Type}
    (fromStr : String → Except κ Rust.Transport.Value) (strerror : CurlError → Bytes)
    (rustAttempt : Rust.Transport.Attempt κ) (cppAttempt : Attempt) :
    (Rust.Transport.OnlyTransientRetried fromStr rustAttempt ↔ rustAttempt.BodyRead) ∧
      (OnlyTransientRetried strerror cppAttempt ↔ cppAttempt.BodyRead) :=
  ⟨Rust.Transport.onlyTransientRetried_iff rustAttempt, onlyTransientRetried_iff cppAttempt⟩

/-- A `201` whose body breaks off is sent again by both transports. -/
theorem created_incident_is_sent_again :
    ¬ Rust.Transport.OnlyTransientRetried (fun _ => .error ()) (.responded 201 (.failed ())) ∧
      ¬ OnlyTransientRetried (fun _ => []) (.responded 201 [] (some ⟨56, by decide⟩)) := by
  have hstatus : (201 : UInt16).toNat ∉ [429, 500, 502, 503, 504] := by decide
  exact ⟨fun h => hstatus ((h.retryable _ rfl).mp rfl 201 rfl),
    fun h => hstatus ((h.retryable _ rfl).mp rfl)⟩

end OppexSdk.Cpp.HttpTransport
