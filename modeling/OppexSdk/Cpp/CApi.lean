import OppexSdk.Cpp.Client
import OppexSdk.Lib.Ownership
import OppexSdk.Lib.Transition

/-! # The C interface

`cpp/src/c_api.cpp` over the C++ client. A pointer that a host passes is null or points to what
the header says; a string ends at its first NUL. The heap is that of `malloc` and `free`: which
block an allocation returns, or that it returns none, is an input, and a `free` of what is not
allocated is undefined. -/
namespace OppexSdk.Cpp.CApi
open OppexSdk.Lib OppexSdk.Lib.Transition
open OppexSdk.Lib.Ownership (Covers Owns)
open OppexSdk.Cpp.Wire (IncidentResponse)

/-- What a `const char*` that is not null points to. -/
structure CString where
  text : Bytes
  noNul : 0 ∉ text

/-- `oppex_status`. -/
inductive Status
  | ok
  | errorInvalidRequest
  | errorClientClosed
  | errorDelivery
  deriving DecidableEq

def errorMessageCapacity : Nat := 512

/-- `oppex_error`. -/
structure CError where
  statusCode : Int
  retryable : Int
  message : Bytes
  size : message.length = errorMessageCapacity

/-- `oppex_incident_request`. -/
structure CIncidentRequest where
  title : Option CString
  source : Option CString
  severity : Int32
  priority : Int32
  srcTimestamp : Int64
  serviceKey : Option CString
  component : Option CString
  group : Option CString
  type : Option CString
  details : Option CString

/-- `oppex_client_options`. -/
structure CClientOptions where
  apiKey : Option CString
  serviceKey : Option CString

abbrev Pointer := Nat

/-- `oppex_incident_response`. -/
structure CIncidentResponse where
  successful : Int
  code : Json.Value.Cast
  message : Option Pointer
  incidentId : Option Pointer

/-- What is thrown: an `IncidentError`, another `std::exception`, or anything else. -/
inductive Exception
  | incidentError (failure : IncidentError)
  | standard (what : CString)
  | unknown

/-! ## The error struct -/

def clear (error : Option CError) : Option CError :=
  error.map fun e =>
    { statusCode := kNoStatusCode
      retryable := 0
      message := e.message.set 0 0
      size := by rw [List.length_set]; exact e.size }

/-- What `Fill` leaves in the buffer: the message, cut where it does not fit, a NUL, and behind it
what was there before. -/
def overwrite (buffer message : Bytes) : Bytes :=
  let length := min message.length (errorMessageCapacity - 1)
  message.take length ++ 0 :: buffer.drop (length + 1)

theorem length_overwrite {buffer : Bytes} (h : buffer.length = errorMessageCapacity)
    (message : Bytes) : (overwrite buffer message).length = errorMessageCapacity := by
  have hcapacity : errorMessageCapacity = 512 := rfl
  simp only [overwrite, List.length_append, List.length_take, List.length_cons, List.length_drop]
  omega

def fill (error : Option CError) (message : Bytes) (statusCode retryable : Int) : Option CError :=
  error.map fun e => ⟨statusCode, retryable, overwrite e.message message, length_overwrite e.size _⟩

def statusFor : ErrorKind → Status
  | .kInvalidRequest => .errorInvalidRequest
  | .kClientClosed => .errorClientClosed
  | .kDelivery => .errorDelivery

/-- `Guard`, whose operation returns a status, what it leaves in the error struct and what else it
leaves behind; when it throws, that is as it was. -/
def guard {β : Type} (error : Option CError) (unchanged : β)
    (operation : Option CError → Except Exception (Status × Option CError × β)) :
    Status × Option CError × β :=
  let error := clear error
  match operation error with
  | .ok result => result
  | .error (.incidentError failure) =>
    (statusFor failure.kind,
      fill error failure.what failure.statusCode (if failure.retryable then 1 else 0), unchanged)
  | .error (.standard what) => (.errorDelivery, fill error what.text kNoStatusCode 0, unchanged)
  | .error .unknown =>
    (.errorDelivery, fill error (bytes "unknown failure") kNoStatusCode 0, unchanged)

/-! ## The response struct -/

/-- The heap of `malloc` and `free`, which holds the strings of responses. -/
abbrev Heap := Ownership.Heap Pointer Bytes

/-- `Duplicate`, where `malloc` returns `p`: the string with its terminator. -/
def duplicate (h : Heap) (value : Option Bytes) (p : Option Pointer) :
    Option (Heap × Option Pointer) :=
  match value, p with
  | some text, some p => (h.store p (text ++ [0])).map fun h => (h, some p)
  | some _, none => some (h, none)
  | none, _ => some (h, none)

/-- `ToCResponse`, with what `malloc` returns for the two strings. -/
def toCResponse (h : Heap) (source : IncidentResponse) (message incidentId : Option Pointer) :
    Option (Heap × CIncidentResponse) := do
  let (h, message) ← duplicate h source.message message
  let (h, incidentId) ← duplicate h source.incidentId incidentId
  return (h, ⟨if source.successful then 1 else 0, source.code, message, incidentId⟩)

/-- The heap, and the struct that the pointer for the response points to if it is not null. -/
structure Memory where
  heap : Heap
  response : Option CIncidentResponse

/-- What `malloc` returns for the two strings of a response. -/
structure Allocation where
  message : Option Pointer
  incidentId : Option Pointer

/-- `ToCResponse` with the pointer it is given. -/
def Memory.toCResponse (memory : Memory) (a : Allocation) (source : IncidentResponse) :
    Option Memory :=
  match memory.response with
  | none => some memory
  | some _ => (CApi.toCResponse memory.heap source a.message a.incidentId).map fun out =>
      ⟨out.1, some out.2⟩

/-! ## The calls -/

def toCppRequest (request : CIncidentRequest) : IncidentRequest where
  title := request.title.elim [] CString.text
  source := request.source.elim [] CString.text
  severity := request.severity
  priority := request.priority
  srcTimestamp := request.srcTimestamp
  serviceKey := request.serviceKey.map CString.text
  component := request.component.map CString.text
  group := request.group.map CString.text
  type := request.type.map CString.text
  details := request.details.map CString.text

def nullMessage : Bytes := bytes "client and request must not be null"

/-- What a post method of the C++ client meets: whether `closed_` is set, the time, the network,
whether the dispatcher takes the task, and what else is thrown on the way, if anything is. -/
structure Surroundings where
  closed : Bool
  now : Int64
  net : Client.Network
  accepted : Bool
  failure : Option Exception

/-- A call of the C++ client. -/
def Surroundings.calls {β : Type} (env : Surroundings) (result : Except IncidentError β) :
    Except Exception β :=
  match env.failure with
  | some failure => .error failure
  | none => result.mapError .incidentError

/-- `PostThrough`; the last component is the memory, if `malloc` returned no block in use. -/
def postThrough (client : Option Client) (request : Option CIncidentRequest) (memory : Memory)
    (error : Option CError) (m : Client.Method) (env : Surroundings) (a : Allocation) :
    Status × Option CError × Option Memory :=
  guard error (some memory) fun error =>
    match client, request with
    | some client, some request => do
      let result ← env.calls (client.deliverNow env.closed env.now (toCppRequest request) m env.net)
      return (.ok, error, memory.toCResponse a result)
    | _, _ => .ok (.errorInvalidRequest, fill error nullMessage kNoStatusCode 0, some memory)

/-- The C++ client is made from the options, unless something else is thrown on the way. -/
def CClientOptions.create (options : CClientOptions) (failure : Option Exception) :
    Except Exception Client :=
  match failure with
  | some failure => .error failure
  | none =>
    let converted : ClientOptions :=
      ⟨options.apiKey.elim [] CString.text, options.serviceKey.map CString.text⟩
    (Client.new converted).mapError .incidentError

/-- What the outcome of an operation is to a host. -/
structure Report where
  status : Status
  statusCode : Int
  retryable : Bool
  text : Bytes

def Exception.report : Exception → Report
  | .incidentError failure =>
    ⟨statusFor failure.kind, failure.statusCode, failure.retryable, failure.what⟩
  | .standard what => ⟨.errorDelivery, kNoStatusCode, false, what.text⟩
  | .unknown => ⟨.errorDelivery, kNoStatusCode, false, bytes "unknown failure"⟩

/-- Nothing went wrong. -/
def Report.none : Report := ⟨.ok, kNoStatusCode, false, []⟩

/-- A null handle or a null request. -/
def Report.null : Report := ⟨.errorInvalidRequest, kNoStatusCode, false, nullMessage⟩

/-- The struct says it: the message is the text, as far as it fits. -/
structure CError.Shows (e : CError) (r : Report) : Prop where
  statusCode : e.statusCode = r.statusCode
  retryable : e.retryable = if r.retryable then 1 else 0
  message : cString e.message = r.text.take (errorMessageCapacity - 1)

/-- What a call leaves in the error struct, if the host passed one. -/
def Shown (before after : Option CError) (r : Report) : Prop :=
  (after.isSome = before.isSome) ∧ ∀ e ∈ after, e.Shows r

theorem Exception.noNul (x : Exception) : 0 ∉ x.report.text := by
  cases x with
  | incidentError failure => exact failure.noNul
  | standard what => exact what.noNul
  | unknown => decide

theorem cString_terminated {text : Bytes} (h : 0 ∉ text) (rest : Bytes) :
    cString (text ++ 0 :: rest) = text := by
  have hpos : ∀ b ∈ text, decide (b ≠ 0) = true := by
    intro b hb
    have hne : b ≠ 0 := fun he => h (he ▸ hb)
    simpa using hne
  rw [cString, List.takeWhile_append_of_pos hpos]
  simp

theorem cString_overwrite (buffer : Bytes) {message : Bytes} (h : 0 ∉ message) :
    cString (overwrite buffer message) = message.take (errorMessageCapacity - 1) := by
  have htake : message.take (min message.length (errorMessageCapacity - 1)) =
      message.take (errorMessageCapacity - 1) := by
    rw [List.take_eq_take_iff]
    omega
  unfold overwrite
  dsimp only
  rw [htake]
  exact cString_terminated (fun hmem => h (List.mem_of_mem_take hmem)) _

theorem cString_set_zero (buffer : Bytes) : cString (buffer.set 0 0) = [] := by
  cases buffer with
  | nil => rfl
  | cons b bs => rfl

theorem shown_clear (error : Option CError) : Shown error (clear error) .none := by
  refine ⟨Option.isSome_map .., ?_⟩
  intro e he
  obtain ⟨before, -, rfl⟩ := Option.mem_map.mp he
  exact ⟨rfl, rfl, cString_set_zero before.message⟩

theorem shown_fill (error : Option CError) (r : Report) (h : 0 ∉ r.text) :
    Shown error (fill (clear error) r.text r.statusCode (if r.retryable then 1 else 0)) r := by
  unfold fill clear
  rw [Option.map_map]
  refine ⟨Option.isSome_map .., ?_⟩
  intro e he
  obtain ⟨before, -, rfl⟩ := Option.mem_map.mp he
  exact ⟨rfl, rfl, cString_overwrite _ h⟩

/-- What the operation throws is what the host reads. -/
theorem guard_throws {β : Type} {error : Option CError} {unchanged : β}
    {operation : Option CError → Except Exception (Status × Option CError × β)}
    {x : Exception} (h : operation (clear error) = .error x) :
    (guard error unchanged operation).1 = x.report.status ∧
      Shown error (guard error unchanged operation).2.1 x.report ∧
      (guard error unchanged operation).2.2 = unchanged := by
  have hshown := shown_fill error x.report x.noNul
  simp only [guard, h]
  cases x with
  | incidentError failure => exact ⟨rfl, hshown, rfl⟩
  | standard what => exact ⟨rfl, hshown, rfl⟩
  | unknown => exact ⟨rfl, hshown, rfl⟩

theorem guard_returns {β : Type} {error : Option CError} {unchanged : β}
    {operation : Option CError → Except Exception (Status × Option CError × β)}
    {result : Status × Option CError × β} (h : operation (clear error) = .ok result) :
    guard error unchanged operation = result := by
  simp only [guard, h]

/-- What became of a call of the C++ client, as the interface says it, and what it leaves behind. -/
def outcome {α β : Type} (leaves : α → β) (unchanged : β) : Except Exception α → Report × β
  | .ok result => (.none, leaves result)
  | .error x => (x.report, unchanged)

/-- A call says what became of the operation: by its status, in the error struct, and by what else
it leaves behind. -/
def Says {β : Type} (before : Option CError) (result : Status × Option CError × β)
    (r : Report × β) : Prop :=
  result.1 = r.1.status ∧ Shown before result.2.1 r.1 ∧ result.2.2 = r.2

/-- What a call through the interface is to a host: of the C++ client, unless a pointer is null. -/
def through {α β : Type} (client : Option Client) (request : Option CIncidentRequest)
    (leaves : α → β) (unchanged : β) (call : Client → IncidentRequest → Except Exception α) :
    Report × β :=
  match client, request with
  | some client, some request => outcome leaves unchanged (call client (toCppRequest request))
  | _, _ => (.null, unchanged)

section
variable (error : Option CError) (m : Client.Method) (env : Surroundings)

/-- The part that both kinds of calls share. -/
theorem guard_reports {α β : Type} (leaves : α → β) (unchanged : β)
    (operation : Except Exception α) :
    Says error (guard error unchanged fun error => do
      let result ← operation
      return (.ok, error, leaves result)) (outcome leaves unchanged operation) := by
  cases operation with
  | ok result =>
    rw [guard_returns rfl]
    exact ⟨rfl, shown_clear error, rfl⟩
  | error x => exact guard_throws rfl

theorem guard_null {β : Type} (unchanged : β) :
    Says error (guard error unchanged fun error =>
      .ok (.errorInvalidRequest, fill error nullMessage kNoStatusCode 0, unchanged))
      (.null, unchanged) := by
  rw [guard_returns rfl]
  exact ⟨rfl, shown_fill error .null (by decide), rfl⟩

theorem postThrough_reports (client : Option Client) (request : Option CIncidentRequest)
    (memory : Memory) (a : Allocation) :
    Says error (postThrough client request memory error m env a)
      (through client request (memory.toCResponse a) (some memory) fun client r =>
        env.calls (client.deliverNow env.closed env.now r m env.net)) := by
  cases client with
  | none => exact guard_null error _
  | some client =>
    cases request with
    | none => exact guard_null error _
    | some request => exact guard_reports error _ _ _

/-- What a host finds behind a pointer to a string: null where there is none or no memory for it,
and else a block with the string and its terminator. -/
def Holds (h : Heap) (value : Option Bytes) (allocated pointer : Option Pointer) : Prop :=
  match value, allocated with
  | some text, some p => pointer = some p ∧ h.block p = some (text ++ [0])
  | _, _ => pointer = none

/-- The struct says what the C++ response does. -/
structure CIncidentResponse.Shows (out : CIncidentResponse) (h : Heap) (a : Allocation)
    (source : IncidentResponse) : Prop where
  successful : out.successful = if source.successful then 1 else 0
  code : out.code = source.code
  message : Holds h source.message a.message out.message
  incidentId : Holds h source.incidentId a.incidentId out.incidentId

/-- What later allocations leave alone. -/
theorem Holds.keep {h h' : Heap} {value : Option Bytes} {p q : Option Pointer}
    (hh : Holds h value p q) (hkeep : ∀ x, h.Live x → h'.block x = h.block x) :
    Holds h' value p q := by
  cases value with
  | none => exact hh
  | some text =>
    cases p with
    | none => exact hh
    | some p =>
      obtain ⟨hq, hblock⟩ := hh
      have hlive : h.Live p := Option.isSome_iff_exists.mpr ⟨_, hblock⟩
      exact ⟨hq, (hkeep p hlive).trans hblock⟩

variable (client : Client) (r : IncidentRequest)

end

/-- What the C++ client returns to a post, if it is called and throws nothing. -/
def posted (client : Option Client) (request : Option CIncidentRequest) (m : Client.Method)
    (env : Surroundings) : Option IncidentResponse :=
  (through client request some none fun client r =>
    env.calls (client.deliverNow env.closed env.now r m env.net)).2

/-- Behind a call of the C++ client is what became of it. -/
theorem through_leaves {α : Type} {memory : Memory} (client : Option Client)
    (request : Option CIncidentRequest) (call : Client → IncidentRequest → Except Exception α)
    (written : α → Option Memory) :
    ((through client request some none call).2 = none ∧
        (through client request written (some memory) call).2 = some memory) ∨
      ∃ result, (through client request some none call).2 = some result ∧
        (through client request written (some memory) call).2 = written result := by
  cases client with
  | none => exact .inl ⟨rfl, rfl⟩
  | some client =>
    cases request with
    | none => exact .inl ⟨rfl, rfl⟩
    | some request =>
      unfold through
      dsimp only
      cases call client (toCppRequest request) with
      | ok result => exact .inr ⟨result, rfl, rfl⟩
      | error x => exact .inl ⟨rfl, rfl⟩

/-- `oppex_incident_response_free`. -/
def incidentResponseFree (h : Heap) (response : CIncidentResponse) :
    Option (Heap × CIncidentResponse) := do
  let h ← h.free response.message
  let h ← h.free response.incidentId
  return (h, ⟨0, .value 0, none, none⟩)

/-- A host with its response structs. -/
structure Host where
  heap : Heap
  responses : Nat → CIncidentResponse

/-- All structs are zeroed. -/
def Host.new : Host := ⟨.empty, fun _ => ⟨0, .value 0, none, none⟩⟩

inductive Label
  /-- A post into the struct `r`, and what `malloc` returns meanwhile. -/
  | post (r : Nat) (result : Option IncidentResponse) (message incidentId : Option Pointer)
  | free (r : Nat)

def step (s : Host) : Label → Option Host
  | .post _ none _ _ => some s
  | .post r (some source) message incidentId => do
    let (heap, response) ← toCResponse s.heap source message incidentId
    return ⟨heap, Function.update s.responses r response⟩
  | .free r => do
    let (heap, response) ← incidentResponseFree s.heap (s.responses r)
    return ⟨heap, Function.update s.responses r response⟩

/-- A call of a post method into the struct `r` is such a step, with what the C++ client
returned. -/
theorem postThrough_step {s : Host} {r : Nat} {client : Option Client}
    {request : Option CIncidentRequest} {error : Option CError} {m : Client.Method}
    {env : Surroundings} {a : Allocation} {after : Memory}
    (h : (postThrough client request ⟨s.heap, some (s.responses r)⟩ error m env a).2.2 =
      some after) :
    ∃ out ∈ after.response, step s (.post r (posted client request m env) a.message a.incidentId) =
      some ⟨after.heap, Function.update s.responses r out⟩ := by
  rw [(postThrough_reports error m env client request _ a).2.2] at h
  rw [posted]
  rcases through_leaves client request
      (fun client r => env.calls (client.deliverNow env.closed env.now r m env.net))
      (Memory.toCResponse ⟨s.heap, some (s.responses r)⟩ a) with
    ⟨hnone, hsame⟩ | ⟨result, hsome, hwritten⟩
  · rw [hsame] at h
    cases h
    refine ⟨s.responses r, rfl, ?_⟩
    rw [hnone, Function.update_eq_self]
    rfl
  · rw [hwritten] at h
    obtain ⟨⟨heap, out⟩, hto, heq⟩ := Option.map_eq_some_iff.mp h
    cases heq
    refine ⟨out, rfl, ?_⟩
    rw [hsome]
    simp only [step, hto]
    rfl

/-- The pointers of the host's structs. -/
def slots (responses : Nat → CIncidentResponse) : Nat × Bool → Option Pointer
  | (r, false) => (responses r).message
  | (r, true) => (responses r).incidentId

theorem slots_update (responses : Nat → CIncidentResponse) (r : Nat)
    (response : CIncidentResponse) :
    slots (Function.update responses r response) =
      Function.update (Function.update (slots responses) (r, false) response.message) (r, true)
        response.incidentId := by
  funext x
  obtain ⟨e, second⟩ := x
  by_cases he : e = r
  · subst he
    cases second with
    | false => simp [slots]
    | true => simp [slots]
  · cases second with
    | false => simp [slots, he]
    | true => simp [slots, he]

/-- Every block is a C string: it ends with a NUL. -/
def Terminated : Heap → Prop := Ownership.AllBlocks fun c => ∃ text, c = text ++ [0]

section
variable {h h' : Heap} {slot : Nat × Bool → Option Pointer} {value : Option Bytes}
  {p q : Option Pointer} {x : Nat × Bool}

/-- What `Duplicate` returns goes into a slot. -/
theorem duplicate_owns (ho : Owns h slot) (ht : Terminated h)
    (hd : duplicate h value p = some (h', q)) :
    Owns h' (Function.update slot x q) ∧ Terminated h' ∧
      (Covers h slot → slot x = none → Covers h' (Function.update slot x q)) := by
  have hsame : slot x = none → Function.update slot x none = slot := by
    intro hx
    rw [← hx]
    exact Function.update_eq_self x slot
  have hnull : h' = h → q = none → Owns h' (Function.update slot x q) ∧ Terminated h' ∧
      (Covers h slot → slot x = none → Covers h' (Function.update slot x q)) := by
    rintro rfl rfl
    exact ⟨ho.clear x, ht, fun hc hx => by rwa [hsame hx]⟩
  cases value with
  | none => cases hd; exact hnull rfl rfl
  | some text =>
    cases p with
    | none => cases hd; exact hnull rfl rfl
    | some p =>
      obtain ⟨h'', hs, heq⟩ := Option.map_eq_some_iff.mp hd
      cases heq
      exact ⟨ho.store hs x, ht.store hs ⟨text, rfl⟩, fun hc hx => hc.store hs hx⟩

end

/-- The memory of a host is in order: every pointer in its structs is null or has a live block of
its own, and every block is terminated. -/
structure Orderly (s : Host) : Prop where
  owns : Owns s.heap (slots s.responses)
  terminated : Terminated s.heap

/-- A response is released before its struct is used again. -/
def released (s : Host) : Label → Prop
  | .post r (some _) _ _ => (s.responses r).message = none ∧ (s.responses r).incidentId = none
  | .post _ none _ _ | .free _ => True

instance released.decidable (s : Host) : (l : Label) → Decidable (released s l)
  | .post r (some _) _ _ => inferInstanceAs
      (Decidable ((s.responses r).message = none ∧ (s.responses r).incidentId = none))
  | .post _ none _ _ => .isTrue trivial
  | .free _ => .isTrue trivial

section
variable {s t : Host} {l : Label}

theorem orderly_step (h : step s l = some t) (hs : Orderly s) :
    Orderly t ∧ (released s l → Covers s.heap (slots s.responses) →
      Covers t.heap (slots t.responses)) := by
  cases l with
  | post r result message incidentId =>
    cases result with
    | none =>
      cases h
      exact ⟨hs, fun _ hc => hc⟩
    | some source =>
      obtain ⟨⟨heap, response⟩, hto, heq⟩ := Option.bind_eq_some_iff.mp h
      cases heq
      obtain ⟨⟨heap₁, message⟩, hmessage, hto⟩ := Option.bind_eq_some_iff.mp hto
      obtain ⟨⟨heap₂, incidentId⟩, hincident, hto⟩ := Option.bind_eq_some_iff.mp hto
      cases hto
      obtain ⟨howns₁, hterm₁, hcover₁⟩ :=
        duplicate_owns (x := (r, false)) hs.owns hs.terminated hmessage
      obtain ⟨howns₂, hterm₂, hcover₂⟩ :=
        duplicate_owns (x := (r, true)) howns₁ hterm₁ hincident
      dsimp only
      rw [slots_update]
      refine ⟨⟨?_, hterm₂⟩, ?_⟩
      · dsimp only
        rw [slots_update]
        exact howns₂
      · intro hreleased hc
        refine hcover₂ (hcover₁ hc hreleased.1) ?_
        rw [Function.update_of_ne (by simp)]
        exact hreleased.2
  | free r =>
    obtain ⟨⟨heap, response⟩, hfree, heq⟩ := Option.bind_eq_some_iff.mp h
    cases heq
    obtain ⟨heap₁, hmessage, hfree⟩ := Option.bind_eq_some_iff.mp hfree
    obtain ⟨heap₂, hincident, hfree⟩ := Option.bind_eq_some_iff.mp hfree
    cases hfree
    have howns₁ := hs.owns.free (x := (r, false)) hmessage
    have hslot : Function.update (slots s.responses) (r, false) none (r, true) =
        (s.responses r).incidentId := Function.update_of_ne (by simp) _ _
    have hincident' : heap₁.free (Function.update (slots s.responses) (r, false) none (r, true)) =
        some heap := by rw [hslot]; exact hincident
    dsimp only
    rw [slots_update]
    refine ⟨⟨?_, (hs.terminated.free hmessage).free hincident⟩, ?_⟩
    · dsimp only
      rw [slots_update]
      exact howns₁.free hincident'
    · intro _ hc
      exact (hc.free (x := (r, false)) hmessage).free hincident'

/-- A struct can always be released: neither of its pointers was freed before. -/
theorem free_enabled (hs : Orderly s) (r : Nat) : (step s (.free r)).isSome = true := by
  obtain ⟨heap₁, hmessage⟩ := Option.isSome_iff_exists.mp (hs.owns.free_isSome (r, false))
  have howns₁ := hs.owns.free hmessage
  obtain ⟨heap₂, hincident⟩ := Option.isSome_iff_exists.mp (howns₁.free_isSome (r, true))
  have hslot : Function.update (slots s.responses) (r, false) none (r, true) =
      (s.responses r).incidentId := Function.update_of_ne (by simp) _ _
  rw [hslot] at hincident
  have hmessage : s.heap.free (s.responses r).message = some heap₁ := hmessage
  simp [step, incidentResponseFree, hmessage, hincident]

theorem orderly_new : Orderly .new := by
  refine ⟨⟨?_, ?_⟩, ?_⟩
  · rintro ⟨r, _ | _⟩ p hx <;> cases hx
  · rintro ⟨r, _ | _⟩ y p hx <;> cases hx
  · intro p c hp
    cases hp

/-- **A host frees nothing twice and reads no string past its end,** whatever it posts and
releases, in whatever order, if its structs are in order at the start: every struct can be released
at any time, what its pointers point to is a C string of its own, and a release leaves it zeroed. -/
theorem response_memory_safe {s₀ : Host} (hstart : Orderly s₀) {ls : List Label}
    (h : Run step anyStep s₀ ls s) (r : Nat) :
    (step s (.free r)).isSome = true ∧
    (∀ x p, slots s.responses x = some p → ∃ text, s.heap.block p = some (text ++ [0])) ∧
    (∀ x y p, slots s.responses x = some p → slots s.responses y = some p → x = y) ∧
    ∀ t, step s (.free r) = some t → t.responses r = ⟨0, .value 0, none, none⟩ ∧
      ∀ p, t.heap.Live p ↔ s.heap.Live p ∧ ∀ second, slots s.responses (r, second) ≠ some p := by
  have hs : Orderly s :=
    h.invariant (I := Orderly) (fun _ hstep hs => (orderly_step hstep hs).1) hstart
  refine ⟨free_enabled hs r, ?_, hs.owns.apart, ?_⟩
  · intro x p hx
    obtain ⟨c, hc⟩ := Option.isSome_iff_exists.mp (hs.owns.live x p hx)
    obtain ⟨text, rfl⟩ := hs.terminated p c hc
    exact ⟨text, hc⟩
  · intro t ht
    obtain ⟨⟨heap, response⟩, hfree, heq⟩ := Option.bind_eq_some_iff.mp ht
    cases heq
    obtain ⟨heap₁, hmessage, hfree⟩ := Option.bind_eq_some_iff.mp hfree
    obtain ⟨heap₂, hincident, hfree⟩ := Option.bind_eq_some_iff.mp hfree
    cases hfree
    refine ⟨Function.update_self .., fun p => ?_⟩
    rw [Ownership.Heap.live_free hincident, Ownership.Heap.live_free hmessage, Bool.forall_bool]
    constructor
    · rintro ⟨hincident, hmessage, hlive⟩
      exact ⟨hlive, hmessage, hincident⟩
    · rintro ⟨hlive, hmessage, hincident⟩
      exact ⟨hincident, hmessage, hlive⟩

/-- **A host that releases each response before it reuses the struct leaks nothing:** every block
is in one of its structs. -/
theorem released_responses_leak_nothing {ls : List Label} (h : Run step released .new ls s)
    (p : Pointer) : s.heap.Live p ↔ ∃ x, slots s.responses x = some p := by
  have hboth : Orderly s ∧ Covers s.heap (slots s.responses) := by
    refine h.invariant (I := fun s => Orderly s ∧ Covers s.heap (slots s.responses)) ?_
      ⟨orderly_new, fun p hp => by cases hp⟩
    intro s l t hreleased hstep hs
    obtain ⟨ht, hcovers⟩ := orderly_step hstep hs.1
    exact ⟨ht, hcovers hreleased hs.2⟩
  exact ⟨hboth.2 p, fun ⟨x, hx⟩ => hboth.1.owns.live x p hx⟩

end

/-- Two posts into one struct, the first response released in between, and a second release. -/
def reused : List Label :=
  [.post 0 (some ⟨true, .value 200, some (bytes "ok"), some (bytes "inc-1")⟩) (some 1) (some 2),
    .free 0, .post 0 (some ⟨true, .value 200, some (bytes "ok"), none⟩) (some 1) none, .free 0,
    .free 0]

theorem response_memory_safe_reused : ∃ s : Host, Run step anyStep .new reused s ∧
    (step s (.free 0)).isSome = true := by
  refine ⟨_, run_of_exec reused rfl, ?_⟩
  exact (response_memory_safe orderly_new (run_of_exec reused rfl) 0).1

theorem released_responses_leak_nothing_reused : ∃ s : Host, Run step released .new
    (reused.take 3) s ∧ (s.heap.Live 1 ↔ ∃ x, slots s.responses x = some 1) := by
  refine ⟨_, run_of_exec (reused.take 3) rfl, ?_⟩
  exact released_responses_leak_nothing (run_of_exec (reused.take 3) rfl) 1

end OppexSdk.Cpp.CApi
