import OppexSdk.Lib.Retry
import OppexSdk.Python.JsonCodec

/-! # Posting an incident in Python

What `HttpExecutor.execute`, `RetryExecutor.execute` and `IncidentClient._deliver` return and raise,
and what they count. An attempt is given by what its connections make of the request; where the
connections come from and go to is left to the model of the pool. -/
namespace OppexSdk.Python.Posting
open OppexSdk.Lib OppexSdk.Lib.Json OppexSdk.Python.JsonCodec
open OppexSdk.Lib.Retry (Report)

/-! ## `HttpExecutor` -/

/-- What a connection makes of the request. -/
inductive Answer
  /-- One of `_TRANSPORT_ERRORS` was raised, by opening it or by using it. -/
  | transportError
  /-- The status and the decoded body, which is `None` when it is empty. -/
  | response (status : Int) (text : Option Bytes)

def retryableStatus : List Int := [429, 500, 502, 503, 504]

def errorMessage (limits : Limits) (text : Option Bytes) (status : Int) : Except Raised Bytes :=
  let message := bytes "Oppex returned HTTP " ++ signedDecimal status
  match text with
  | none => .ok message
  | some text =>
    if blank text then .ok message
    else
      match parseResponse limits (some text) status with
      | .error (.incident _) => .ok message
      | .error e => .error e
      | .ok error =>
        match error.message with
        | some m => .ok (if blank m then message else message ++ bytes ": " ++ m)
        | none => .ok message

def exchange (limits : Limits) : Answer → Except Raised IncidentResponse
  | .transportError => .error .transportError
  | .response status text =>
    if 200 ≤ status ∧ status < 300 then parseResponse limits text status
    else
      match errorMessage limits text status with
      | .error e => .error e
      | .ok message => .error (.incident
          { message := message, statusCode := status, retryable := status ∈ retryableStatus })

/-- One call of `execute`: whether the executor is closed, what the pooled connection does if there
is one, and what a fresh one does. -/
structure Attempt where
  closed : Bool
  pooled : Option Answer
  fresh : Answer

def execute (limits : Limits) (a : Attempt) : Except Raised IncidentResponse :=
  if a.closed then .error (.incident { message := bytes "IncidentClient is closed" })
  else
    match a.pooled with
    | none => exchange limits a.fresh
    | some answer =>
      match exchange limits answer with
      | .error .transportError => exchange limits a.fresh
      | result => result

/-- A connection delivers this response. -/
def Attempt.Delivers (a : Attempt) (status : Int) (text : Option Bytes) : Prop :=
  a.closed = false ∧ (a.pooled = some (.response status text) ∨
    (a.pooled = none ∨ a.pooled = some .transportError) ∧ a.fresh = .response status text)

/-! ## `RetryExecutor` and `IncidentClient` -/

structure Metrics where
  processed : Nat
  successful : Nat
  failed : Nat
  retried : Nat

namespace RetryExecutor

/-- A duration in milliseconds. -/
abbrev Duration := Nat

/-- What a `TransportError` becomes, with `retry` retries made. -/
def exhausted (retry : Nat) : IncidentException :=
  { message := bytes "Incident delivery failed after " ++ decimal (retry + 1) ++ bytes " attempts" }

def interrupted : IncidentException :=
  { message := bytes "Incident delivery interrupted during retry" }

/-- The `while` loop of `execute`, with the waits requested so far. `sleeper k` says whether the
`k`-th wait is cut short; each wait is counted before it begins. -/
def loop (delays : List Duration) (operation : Nat → Except Raised IncidentResponse)
    (sleeper : Nat → Bool) (retry : Nat) (waits : List Duration) (m : Metrics) :
    Report IncidentResponse Raised Duration × Metrics :=
  match operation retry with
  | .ok response => (⟨retry + 1, waits, .ok response⟩, m)
  | .error (.builtin e) => (⟨retry + 1, waits, .error (.builtin e)⟩, m)
  | .error (.incident failure) =>
    if h : !failure.retryable || retry ≥ delays.length then
      (⟨retry + 1, waits, .error (.incident failure)⟩, m)
    else
      have hlt : retry < delays.length := by simp at h; exact h.2
      let m := { m with retried := m.retried + 1 }
      if sleeper retry then
        (⟨retry + 1, waits ++ [delays[retry]], .error (.incident interrupted)⟩, m)
      else loop delays operation sleeper (retry + 1) (waits ++ [delays[retry]]) m
  | .error .transportError =>
    if h : retry ≥ delays.length then
      (⟨retry + 1, waits, .error (.incident (exhausted retry))⟩, m)
    else
      have hlt : retry < delays.length := Nat.lt_of_not_le h
      let m := { m with retried := m.retried + 1 }
      if sleeper retry then
        (⟨retry + 1, waits ++ [delays[retry]], .error (.incident interrupted)⟩, m)
      else loop delays operation sleeper (retry + 1) (waits ++ [delays[retry]]) m
termination_by delays.length - retry

def execute (delays : List Duration) (operation : Nat → Except Raised IncidentResponse)
    (sleeper : Nat → Bool) (m : Metrics) : Report IncidentResponse Raised Duration × Metrics :=
  loop delays operation sleeper 0 [] m

end RetryExecutor

structure Delivery where
  attempts : Nat → Attempt
  sleeper : Nat → Bool

/-- What `_deliver` counts. -/
def Metrics.count (m : Metrics) : Except Raised IncidentResponse → Metrics
  | .ok _ => { m with processed := m.processed + 1, successful := m.successful + 1 }
  | .error (.incident _) => { m with processed := m.processed + 1, failed := m.failed + 1 }
  | .error _ => { m with processed := m.processed + 1 }

/-- `_deliver` with the delays of the retry executor. -/
def deliver (limits : Limits) (delays : List Nat) (d : Delivery) (m : Metrics) :
    Except Raised IncidentResponse × Metrics :=
  let (report, m) :=
    RetryExecutor.execute delays (fun k => execute limits (d.attempts k)) d.sleeper m
  (report.result, m.count report.result)

/-- `_post`, by whether `begin` admits it. -/
def post (limits : Limits) (delays : List Nat) (admitted : Bool) (d : Delivery) (m : Metrics) :
    Except Raised IncidentResponse × Metrics :=
  if admitted then deliver limits delays d m
  else (.error (.incident { message := bytes "IncidentClient is closed" }), m)

/-- The counters after deliveries of any outcome. -/
def deliverAll (limits : Limits) (delays : List Nat) (ds : List Delivery) : Metrics :=
  ds.foldl (fun m d => (deliver limits delays d m).2) ⟨0, 0, 0, 0⟩

/-! ## What is promised -/

/-- A response or an `IncidentException`. -/
def Expected : Except Raised IncidentResponse → Prop
  | .ok _ | .error (.incident _) => True
  | .error _ => False

/-- An attempt ends in the documented ways. -/
structure Documented (status : Int) (result : Except Raised IncidentResponse) : Prop where
  expected : Expected result
  returns : ∀ r, result = .ok r → 200 ≤ status ∧ status < 300
  raises : ¬ (200 ≤ status ∧ status < 300) → ∃ e, result = .error (.incident e) ∧
    e.statusCode = status ∧ (e.retryable = true ↔ status ∈ retryableStatus)

def Metrics.Balanced (m : Metrics) : Prop := m.processed = m.successful + m.failed

/-- The body is blank, or it is decoded or refused with a `ValueError`, and an object that it is
decoded to has no code that is infinite or not a number. -/
def Handled (limits : Limits) : Option Bytes → Prop
  | none => True
  | some text => blank text = true ∨
    match loads limits text with
    | .ok (.obj payload) =>
      ∀ lit, get payload (bytes "code") = some (.num lit) → (number lit).IsFinite
    | .ok _ | .error .valueError => True
    | .error _ => False

def Attempt.Handled (limits : Limits) (a : Attempt) : Prop :=
  ∀ status text, a.Delivers status text → Posting.Handled limits text

/-! ## One attempt -/

section
variable (limits : Limits)

theorem intOr_isOk (value : Option Tree) (fallback : Int) :
    (∃ n, intOr value fallback = .ok n) ↔
      ∀ lit, value = some (.num lit) → (number lit).IsFinite := by
  unfold intOr
  split
  · rename_i lit
    have honly : (∀ l, some (Tree.num lit) = some (.num l) → (number l).IsFinite) ↔
        (number lit).IsFinite := by
      refine ⟨fun h => h lit rfl, fun h l hl => ?_⟩
      cases hl
      exact h
    rw [honly]
    rcases number lit with n | x | b | _ <;> simp [Number.toInt, Number.IsFinite]
  · rename_i hnum
    exact iff_of_true ⟨_, rfl⟩ fun lit h => absurd h (hnum lit)

/-- `parse_response` returns or raises an `IncidentException` for the bodies that are handled, and
for no other. -/
theorem parseResponse_expected (text : Option Bytes) (status : Int) :
    Expected (parseResponse limits text status) ↔ Handled limits text := by
  unfold parseResponse Handled
  cases text with
  | none => exact iff_of_true trivial trivial
  | some text =>
    dsimp only
    by_cases hblank : blank text = true
    · rw [if_pos hblank]
      exact iff_of_true trivial (.inl hblank)
    · rw [if_neg hblank, or_iff_right hblank]
      cases loads limits text with
      | error e => cases e <;> exact Iff.rfl
      | ok t =>
        cases t with
        | obj payload =>
          dsimp only
          rw [← intOr_isOk _ status]
          cases intOr (get payload (bytes "code")) status with
          | error e => exact iff_of_false id (by rintro ⟨_, h⟩; cases h)
          | ok code => exact iff_of_true trivial ⟨code, rfl⟩
        | _ => exact Iff.rfl

theorem errorMessage_isOk (text : Option Bytes) (status : Int) :
    (∃ message, errorMessage limits text status = .ok message) ↔ Handled limits text := by
  rw [← parseResponse_expected limits text status]
  unfold errorMessage
  cases text with
  | none => exact iff_of_true ⟨_, rfl⟩ trivial
  | some text =>
    dsimp only
    by_cases hblank : blank text = true
    · rw [if_pos hblank, parseResponse_expected]
      exact iff_of_true ⟨_, rfl⟩ (.inl hblank)
    · rw [if_neg hblank]
      cases parseResponse limits (some text) status with
      | error e => cases e <;> simp [Expected]
      | ok r =>
        refine iff_of_true ?_ trivial
        dsimp only
        cases r.message with
        | none => exact ⟨_, rfl⟩
        | some m => exact ⟨_, rfl⟩

theorem parseResponse_error {text : Option Bytes} {status : Int} {e : Raised}
    (h : parseResponse limits text status = .error e) :
    e = .incident malformed ∨ ∃ b, e = .builtin b := by
  unfold parseResponse at h
  dsimp only at h
  split at h
  · cases h
  · split_ifs at h
    split at h
    · cases h
      exact .inl rfl
    · cases h
      exact .inr ⟨_, rfl⟩
    · split at h
      · cases h
        exact .inr ⟨_, rfl⟩
      · cases h
    · cases h
      exact .inl rfl

/-- `_error_message` lets through only what is not an `IncidentException`. -/
theorem errorMessage_error {text : Option Bytes} {status : Int} {e : Raised}
    (h : errorMessage limits text status = .error e) : ∃ b, e = .builtin b := by
  unfold errorMessage at h
  split at h
  · cases h
  · split_ifs at h
    split at h
    · cases h
    · rename_i hother hparse
      cases h
      rcases parseResponse_error limits hparse with rfl | hb
      · exact absurd rfl (hother malformed)
      · exact hb
    · split at h <;> cases h

/-- **An attempt with a response ends as documented exactly when the body is handled.** -/
theorem exchange_documented (status : Int) (text : Option Bytes) :
    Documented status (exchange limits (.response status text)) ↔ Handled limits text := by
  unfold exchange
  by_cases hok : 200 ≤ status ∧ status < 300
  · simp only [if_pos hok]
    rw [← parseResponse_expected limits text status]
    exact ⟨fun h => h.expected, fun h => ⟨h, fun _ _ => hok, fun hno => absurd hok hno⟩⟩
  · simp only [if_neg hok]
    rw [← errorMessage_isOk limits text status]
    cases hmessage : errorMessage limits text status with
    | error e =>
      refine iff_of_false ?_ (by rintro ⟨_, h⟩; cases h)
      obtain ⟨b, rfl⟩ := errorMessage_error limits hmessage
      exact fun h => h.expected
    | ok message =>
      refine iff_of_true ⟨trivial, fun _ h => (by cases h), fun _ => ⟨_, rfl, rfl, ?_⟩⟩ ⟨_, rfl⟩
      exact decide_eq_true_iff

theorem exchange_ne_transportError (status : Int) (text : Option Bytes) :
    exchange limits (.response status text) ≠ .error .transportError := by
  intro h
  unfold exchange at h
  dsimp only at h
  split_ifs at h
  · rcases parseResponse_error limits h with he | ⟨b, he⟩ <;> cases he
  · split at h
    · rename_i hmessage
      cases h
      obtain ⟨b, hb⟩ := errorMessage_error limits hmessage
      cases hb
    · cases h

theorem execute_of_delivers {a : Attempt} {status : Int} {text : Option Bytes}
    (h : a.Delivers status text) : execute limits a = exchange limits (.response status text) := by
  obtain ⟨hclosed, hpooled | ⟨hpooled | hpooled, hfresh⟩⟩ := h
  · simp only [execute, hclosed, hpooled, Bool.false_eq_true, if_false]
    split
    · rename_i heq
      exact absurd heq (exchange_ne_transportError limits status text)
    · rfl
  · simp [execute, hclosed, hpooled, hfresh]
  · simp [execute, hclosed, hpooled, hfresh, exchange]

end

/-! ## Retries and counters -/

/-- What the retry loop can tell apart. -/
def Seen (result : Except Raised IncidentResponse) : Prop :=
  Expected result ∨ result = .error .transportError

theorem execute_seen {limits : Limits} {a : Attempt} (h : a.Handled limits) :
    Seen (execute limits a) := by
  have hresponse : ∀ {status text}, a.Delivers status text → Seen (execute limits a) := by
    intro status text hd
    rw [execute_of_delivers limits hd]
    exact .inl ((exchange_documented limits status text).mpr (h status text hd)).expected
  cases hclosed : a.closed with
  | true =>
    simp only [execute, hclosed, if_true]
    exact .inl trivial
  | false =>
    have hfresh (hpooled : a.pooled = none ∨ a.pooled = some .transportError) :
        Seen (execute limits a) := by
      cases hf : a.fresh with
      | response status text => exact hresponse ⟨hclosed, .inr ⟨hpooled, hf⟩⟩
      | transportError =>
        refine .inr ?_
        rcases hpooled with hpooled | hpooled <;> simp [execute, hclosed, hpooled, hf, exchange]
    cases hpooled : a.pooled with
    | none => exact hfresh (.inl hpooled)
    | some answer =>
      cases answer with
      | transportError => exact hfresh (.inr hpooled)
      | response status text => exact hresponse ⟨hclosed, .inl hpooled⟩

section
variable (operation : Nat → Except Raised IncidentResponse) (sleeper : Nat → Bool)

/-- The loop raises nothing but `IncidentException` when the attempts raise nothing else that it
does not know. -/
theorem RetryExecutor.loop_expected (h : ∀ k, Seen (operation k)) (delays : List Duration)
    (retry : Nat) (waits : List Duration) (m : Metrics) :
    Expected (loop delays operation sleeper retry waits m).1.result := by
  fun_induction loop delays operation sleeper retry waits m with
  | case2 retry waits m e hop =>
    rcases h retry with hexpected | htransport
    · rw [hop] at hexpected
      exact hexpected
    · rw [hop] at htransport
      cases htransport
  | case5 _ _ _ _ _ _ _ _ _ ih => exact ih
  | case8 _ _ _ _ _ _ _ _ ih => exact ih
  | case1 | case3 | case4 | case6 | case7 => trivial

/-- The loop counts its waits and nothing else. -/
theorem RetryExecutor.loop_metrics (delays : List Duration) (retry : Nat) (waits : List Duration)
    (m : Metrics) : ∃ n, n + waits.length =
        m.retried + (loop delays operation sleeper retry waits m).1.waits.length ∧
      (loop delays operation sleeper retry waits m).2 = { m with retried := n } := by
  fun_induction loop delays operation sleeper retry waits m with
  | case5 retry waits m failure hop hgo hlt m' hw ih =>
    obtain ⟨n, hn, hm⟩ := ih
    refine ⟨n, ?_, hm⟩
    have hm' : m'.retried = m.retried + 1 := rfl
    rw [List.length_append, List.length_singleton] at hn
    omega
  | case8 retry waits m hop hgo hlt m' hw ih =>
    obtain ⟨n, hn, hm⟩ := ih
    refine ⟨n, ?_, hm⟩
    have hm' : m'.retried = m.retried + 1 := rfl
    rw [List.length_append, List.length_singleton] at hn
    omega
  | case4 | case7 =>
    refine ⟨_, ?_, rfl⟩
    rw [List.length_append, List.length_singleton]
    omega
  | case1 | case2 | case3 | case6 => exact ⟨_, rfl, rfl⟩

end

theorem count_balanced {m : Metrics} (hm : m.Balanced) (result : Except Raised IncidentResponse) :
    (m.count result).Balanced ↔ Expected result := by
  unfold Metrics.Balanced at hm
  rcases result with (e | _ | b) | r
  · refine iff_of_true ?_ trivial
    simp only [Metrics.Balanced, Metrics.count]
    omega
  · refine iff_of_false ?_ id
    simp only [Metrics.Balanced, Metrics.count]
    omega
  · refine iff_of_false ?_ id
    simp only [Metrics.Balanced, Metrics.count]
    omega
  · refine iff_of_true ?_ trivial
    simp only [Metrics.Balanced, Metrics.count]
    omega

/-- The counters stay balanced exactly when nothing but an `IncidentException` escapes. -/
theorem deliver_balanced (limits : Limits) (delays : List Nat) (d : Delivery) {m : Metrics}
    (hm : m.Balanced) :
    (deliver limits delays d m).2.Balanced ↔ Expected (deliver limits delays d m).1 := by
  obtain ⟨n, -, hn⟩ :=
    RetryExecutor.loop_metrics (fun k => execute limits (d.attempts k)) d.sleeper delays 0 [] m
  unfold deliver RetryExecutor.execute
  dsimp only
  rw [hn]
  exact count_balanced (m := { m with retried := n }) hm _

theorem deliver_expected {limits : Limits} (delays : List Nat) {d : Delivery}
    (h : ∀ k, (d.attempts k).Handled limits) (m : Metrics) :
    Expected (deliver limits delays d m).1 :=
  RetryExecutor.loop_expected _ _ (fun k => execute_seen (h k)) delays 0 [] m

theorem post_expected {limits : Limits} (delays : List Nat) (admitted : Bool) {d : Delivery}
    (h : ∀ k, (d.attempts k).Handled limits) (m : Metrics) :
    Expected (post limits delays admitted d m).1 := by
  unfold post
  split_ifs
  · exact deliver_expected delays h m
  · trivial

theorem deliverAll_balanced {limits : Limits} (delays : List Nat) {ds : List Delivery}
    (h : ∀ d ∈ ds, ∀ k, (d.attempts k).Handled limits) :
    (deliverAll limits delays ds).Balanced := by
  induction ds using List.reverseRecOn with
  | nil => rfl
  | append_singleton ds d ih =>
    rw [List.forall_mem_append, List.forall_mem_singleton] at h
    rw [deliverAll, List.foldl_append]
    exact (deliver_balanced limits delays d (ih h.1)).mpr (deliver_expected delays h.2 _)

/-- **Every attempt ends as documented exactly when its body is handled**, and then the callers see
nothing but `IncidentException` and the counters add up: a code that is infinite or not a number
makes `int` raise where nobody catches it. -/
theorem attempts_end_as_documented (limits : Limits) (delays : List Nat) :
    (∀ (a : Attempt) (status : Int) (text : Option Bytes), a.Delivers status text →
      (Documented status (execute limits a) ↔ Handled limits text)) ∧
    ∀ ds : List Delivery, (∀ d ∈ ds, ∀ k, (d.attempts k).Handled limits) →
      (deliverAll limits delays ds).Balanced ∧
      ∀ d ∈ ds, ∀ admitted m, Expected (post limits delays admitted d m).1 := by
  refine ⟨fun a status text hd => ?_, fun ds h => ⟨deliverAll_balanced delays h, ?_⟩⟩
  · rw [execute_of_delivers limits hd]
    exact exchange_documented limits status text
  · exact fun d hd admitted m => post_expected delays admitted (h d hd) m

/-- An attempt over a fresh connection that gets the same response whenever it is made. -/
def answered (status : Int) (text : Bytes) : Attempt := ⟨false, none, .response status (some text)⟩

/-- A service that is unavailable and says so in JSON. -/
theorem attempts_end_as_documented_unavailable :
    Documented 503 (execute (fun _ => none) (answered 503 (bytes "\x7b\"code\":201\x7d"))) ∧
    (deliverAll (fun _ => none) [500, 1000]
      [⟨fun _ => answered 503 (bytes "\x7b\"code\":201\x7d"), fun _ => false⟩]).Balanced := by
  have hread : parseResponse (fun _ => none) (some (bytes "\x7b\"code\":201\x7d")) 200 =
      .ok ⟨true, 201, none, none⟩ := by
    decide +kernel
  have hhandled : Handled (fun _ => none) (some (bytes "\x7b\"code\":201\x7d")) := by
    rw [← parseResponse_expected _ _ 200, hread]
    trivial
  obtain ⟨hattempt, hrun⟩ := attempts_end_as_documented (fun _ => none) [500, 1000]
  refine ⟨(hattempt _ 503 _ ⟨rfl, .inr ⟨.inl rfl, rfl⟩⟩).mpr hhandled, (hrun _ ?_).1⟩
  intro d hd k status text hdelivers
  rw [List.mem_singleton] at hd
  subst hd
  obtain ⟨-, hpooled | ⟨-, hfresh⟩⟩ := hdelivers
  · cases hpooled
  · cases hfresh
    exact hhandled

/-- An infinite code makes an `OverflowError` of a response that would be retried, and a delivery
that is counted as neither successful nor failed. -/
theorem infinite_code_escapes :
    ¬ Documented 503 (execute (fun _ => none)
      (answered 503 (bytes "\x7b\"code\":Infinity\x7d"))) ∧
    ¬ (deliverAll (fun _ => none) [500, 1000]
      [⟨fun _ => answered 503 (bytes "\x7b\"code\":Infinity\x7d"), fun _ => false⟩]).Balanced := by
  have hread : execute (fun _ => none) (answered 503 (bytes "\x7b\"code\":Infinity\x7d")) =
      .error (.builtin .overflowError) := by
    decide +kernel
  refine ⟨fun h => ?_, fun h => ?_⟩
  · have hexpected := h.expected
    rw [hread] at hexpected
    exact hexpected
  · have hexpected := (deliver_balanced (fun _ => none) [500, 1000]
      ⟨fun _ => answered 503 (bytes "\x7b\"code\":Infinity\x7d"), fun _ => false⟩
      (m := ⟨0, 0, 0, 0⟩) rfl).mp h
    simp only [deliver, RetryExecutor.execute, RetryExecutor.loop, hread] at hexpected
    exact hexpected

end OppexSdk.Python.Posting
