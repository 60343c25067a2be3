import OppexSdk.Go.Client
import OppexSdk.Go.Wire

/-! # The service key on the wire

How `golang/oppex/client.go` finds the service key of a post. Blankness is decided in several
places: `New` trims the client's key, `Post` and `PostAsync` refuse when both keys are empty,
`deliver` prefers a request's key that is not empty, and `omitempty` leaves out an empty one.
Nothing trims the key of a request. -/
namespace OppexSdk.Go.ServiceKey
open OppexSdk.Lib OppexSdk.Lib.Json OppexSdk.Lib.Runes OppexSdk.Go.Wire

/-- `Config`, without the logger. -/
structure Config where
  apiKey : Bytes
  serviceKey : Bytes

/-- What the posts of a `Client` read of it. Its lifecycle is the subject of another module. -/
structure Client where
  serviceKey : Bytes
  closed : Bool

/-- `New`. -/
def new (config : Config) : Except Error Client :=
  if trimSpace config.apiKey = [] then .error (invalidf "apiKey must not be blank")
  else .ok ⟨trimSpace config.serviceKey, false⟩

/-- The method leaves the service to Oppex. -/
def routed : Method → Bool
  | .postWithServiceRouting | .postAsyncWithServiceRouting => true
  | .post | .postAsync => false

namespace Client

def prepare (c : Client) (now : Int64) (request : IncidentRequest) : Except Error IncidentRequest :=
  if c.closed then .error .clientClosed else request.normalize now

def prepareForServiceRouting (c : Client) (now : Int64) (request : IncidentRequest) :
    Except Error IncidentRequest :=
  match c.prepare now request with
  | .error e => .error e
  | .ok normalized =>
    if normalized.serviceKey ≠ [] then
      .error (invalidf "request must not carry a serviceKey when service routing is used")
    else .ok normalized

/-- `deliver` up to the payload it hands to the transport. -/
def deliver (request : IncidentRequest) (defaultServiceKey : Bytes) : Bytes :=
  let serviceKey := if request.serviceKey = [] then defaultServiceKey else request.serviceKey
  serializeRequest request serviceKey

def postSynchronously (c : Client) (request : IncidentRequest) (defaultServiceKey : Bytes) :
    Except Error Bytes :=
  if c.closed then .error .clientClosed else .ok (deliver request defaultServiceKey)

/-- `submit`, and what the task it queues delivers. The dispatcher refuses once the client is
closed. -/
def submit (c : Client) (request : IncidentRequest) (defaultServiceKey : Bytes) :
    Except Error Bytes :=
  if c.closed then .error .clientClosed else .ok (deliver request defaultServiceKey)

def post (c : Client) (now : Int64) (request : IncidentRequest) : Except Error Bytes :=
  match c.prepare now request with
  | .error e => .error e
  | .ok normalized =>
    if normalized.serviceKey = [] ∧ c.serviceKey = [] then
      .error (invalidf ("no serviceKey is configured on the client or the request; " ++
        "supply one or use PostWithServiceRouting"))
    else c.postSynchronously normalized c.serviceKey

def postWithServiceRouting (c : Client) (now : Int64) (request : IncidentRequest) :
    Except Error Bytes :=
  match c.prepareForServiceRouting now request with
  | .error e => .error e
  | .ok normalized => c.postSynchronously normalized []

def postAsync (c : Client) (now : Int64) (request : IncidentRequest) : Except Error Bytes :=
  match c.prepare now request with
  | .error e => .error e
  | .ok normalized =>
    if normalized.serviceKey = [] ∧ c.serviceKey = [] then
      .error (invalidf ("no serviceKey is configured on the client or the request; " ++
        "supply one or use PostAsyncWithServiceRouting"))
    else c.submit normalized c.serviceKey

def postAsyncWithServiceRouting (c : Client) (now : Int64) (request : IncidentRequest) :
    Except Error Bytes :=
  match c.prepareForServiceRouting now request with
  | .error e => .error e
  | .ok normalized => c.submit normalized []

/-- The payload of a call, or the error it returns at once. -/
def call (c : Client) (now : Int64) (request : IncidentRequest) : Method → Except Error Bytes
  | .post => c.post now request
  | .postWithServiceRouting => c.postWithServiceRouting now request
  | .postAsync => c.postAsync now request
  | .postAsyncWithServiceRouting => c.postAsyncWithServiceRouting now request

end Client

/-! ## What is promised -/

/-- The values of the members with the name `serviceKey`. -/
def serviceKeys (ms : List (List Item × Tree)) : List Tree :=
  (ms.filter fun m => decode m.1 = bytes "serviceKey").map Prod.snd

/-- The payload is an object with this service key, or with none. -/
def Carries (payload : Bytes) (key : Option Bytes) : Prop :=
  ∃ ms, Document JsonNumber (.obj ms) payload ∧
    match key with
    | none => serviceKeys ms = []
    | some key => ∃ items, serviceKeys ms = [.str items] ∧ decode items = toValid key

def Blank (key : Bytes) : Prop := trimSpace key = []

instance (key : Bytes) : Decidable (Blank key) := inferInstanceAs (Decidable (_ = _))

/-- The key a post should carry: the request's unless it is blank, then the client's unless that
is. -/
def resolvedKey (config : Config) (request : IncidentRequest) : Option Bytes :=
  if ¬ Blank request.serviceKey then some request.serviceKey
  else if ¬ Blank config.serviceKey then some (trimSpace config.serviceKey)
  else none

/-- Blank keys stay off the wire. -/
structure KeepsBlankKeysOff (config : Config) (c : Client) (now : Int64)
    (request : IncidentRequest) (m : Method) : Prop where
  carries : ∀ payload, c.call now request m = .ok payload →
    Carries payload (if routed m then none else resolvedKey config request)
  refused : routed m = false →
    ((∃ message, c.call now request m = .error (.invalidRequest message)) ↔
      Blank request.serviceKey ∧ Blank config.serviceKey)

/-! ## The keys of a payload -/

/-- The fields that are service keys. -/
theorem serviceKeys_reads {ms : List (List Item × Tree)} {fs : List (Bytes × Scalar Bytes)}
    (h : List.Forall₂ (Reads toValid) ms fs) :
    List.Forall₂ (fun t f => Tree.Holds toValid t f.2) (serviceKeys ms)
      (fs.filter fun f => toValid f.1 = bytes "serviceKey") := by
  induction h with
  | nil => exact .nil
  | @cons m f ms fs hm _ ih =>
    unfold serviceKeys at ih ⊢
    by_cases hname : toValid f.1 = bytes "serviceKey"
    · rw [List.filter_cons_of_pos (by simpa using hm.1.trans hname),
        List.filter_cons_of_pos (by simpa using hname), List.map_cons]
      exact .cons hm.2 ih
    · rw [List.filter_cons_of_neg (by simpa [hm.1] using hname),
        List.filter_cons_of_neg (by simpa using hname)]
      exact ih

theorem filter_omitEmpty (name : String) (hname : bytes name ≠ bytes "serviceKey") (v : Bytes) :
    (omitEmpty name v).filter (fun f => toValid f.1 = bytes "serviceKey") = [] := by
  unfold omitEmpty
  split
  · rfl
  · simp [toValid_bytes, hname]

theorem filter_wireRequest (request : IncidentRequest) (key : Bytes) :
    (wireRequest request key).filter (fun f => toValid f.1 = bytes "serviceKey") =
      omitEmpty "serviceKey" key := by
  have hkey : (omitEmpty "serviceKey" key).filter (fun f => toValid f.1 = bytes "serviceKey") =
      omitEmpty "serviceKey" key := by
    unfold omitEmpty
    split
    · rfl
    · simp [toValid_bytes]
  have hrequired : ([(bytes "title", .text request.title), (bytes "source", .text request.source),
      (bytes "severity", .number request.severity.toInt),
      (bytes "priority", .number request.priority.toInt),
      (bytes "srcTimestamp", .number request.srcTimestamp.toInt)] :
        List (Bytes × Scalar Bytes)).filter (fun f => toValid f.1 = bytes "serviceKey") = [] := by
    simp only [List.filter_eq_nil_iff, List.forall_mem_cons, toValid_bytes, decide_eq_true_eq]
    decide
  rw [wireRequest]
  simp only [List.filter_append, hkey, hrequired, List.append_nil,
    filter_omitEmpty "component" (by decide), filter_omitEmpty "group" (by decide),
    filter_omitEmpty "type" (by decide), filter_omitEmpty "detailsJSON" (by decide)]

/-- An empty key is left out, and any other is written. -/
theorem carries_serializeRequest (request : IncidentRequest) (key : Bytes) :
    Carries (serializeRequest request key) (if key = [] then none else some key) := by
  obtain ⟨ms, hdoc, hreads⟩ := isObjectOf_serializeRequest request key
  have hkeys := serviceKeys_reads hreads
  rw [filter_wireRequest, omitEmpty] at hkeys
  refine ⟨ms, hdoc, ?_⟩
  split_ifs at hkeys ⊢
  · exact List.forall₂_nil_right_iff.mp hkeys
  · obtain ⟨t, ts, ht, hts, hms⟩ := List.forall₂_cons_right_iff.mp hkeys
    rw [List.forall₂_nil_right_iff] at hts
    rw [hts] at hms
    cases t with
    | str items => exact ⟨items, hms, ht⟩
    | _ => exact ht.elim

theorem Carries.unique {payload : Bytes} {key key' : Option Bytes} (h : Carries payload key)
    (h' : Carries payload key') : key.map toValid = key'.map toValid := by
  obtain ⟨ms, hdoc, hkeys⟩ := h
  obtain ⟨ms', hdoc', hkeys'⟩ := h'
  have hsame := (hdoc.mono fun _ => FromChars.JsonNumber.strtod).unique
    FromChars.strtodNumber_numberBytes (hdoc'.mono fun _ => FromChars.JsonNumber.strtod)
  cases hsame
  cases key with
  | none =>
    cases key' with
    | none => rfl
    | some key' =>
      obtain ⟨items, hitems, -⟩ := hkeys'
      rw [hkeys] at hitems
      cases hitems
  | some key =>
    obtain ⟨items, hitems, hdecode⟩ := hkeys
    cases key' with
    | none => rw [hkeys'] at hitems; cases hitems
    | some key' =>
      obtain ⟨items', hitems', hdecode'⟩ := hkeys'
      rw [hitems] at hitems'
      cases hitems'
      exact congrArg some (hdecode.symm.trans hdecode')

/-! ## The calls -/

section
variable {config : Config} {c : Client} {now : Int64} {request normalized : IncidentRequest}

theorem new_eq_ok (h : new config = .ok c) : c = ⟨trimSpace config.serviceKey, false⟩ := by
  unfold new at h
  split at h
  · cases h
  · cases h; rfl

theorem prepare_open (hopen : c.closed = false) (hnorm : request.normalize now = .ok normalized) :
    c.prepare now request = .ok normalized := by
  simp [Client.prepare, hopen, hnorm]

/-- Without a key both methods refuse, and with one they deliver. -/
theorem call_unrouted (hopen : c.closed = false)
    (hnorm : request.normalize now = .ok normalized) {m : Method} (hm : routed m = false) :
    (normalized.serviceKey = [] ∧ c.serviceKey = [] ∧
      ∃ message, c.call now request m = .error (.invalidRequest message)) ∨
    (¬ (normalized.serviceKey = [] ∧ c.serviceKey = []) ∧
      c.call now request m = .ok (Client.deliver normalized c.serviceKey)) := by
  have hprepare := prepare_open hopen hnorm
  by_cases hkeys : normalized.serviceKey = [] ∧ c.serviceKey = []
  · refine .inl ⟨hkeys.1, hkeys.2, ?_⟩
    cases m with
    | post =>
      rw [Client.call, Client.post, hprepare]
      exact ⟨_, if_pos hkeys⟩
    | postAsync =>
      rw [Client.call, Client.postAsync, hprepare]
      exact ⟨_, if_pos hkeys⟩
    | _ => cases hm
  · refine .inr ⟨hkeys, ?_⟩
    cases m with
    | post => simp [Client.call, Client.post, hprepare, hkeys, Client.postSynchronously, hopen]
    | postAsync => simp [Client.call, Client.postAsync, hprepare, hkeys, Client.submit, hopen]
    | _ => cases hm

/-- A routed call delivers only a request without a key. -/
theorem call_routed (hopen : c.closed = false) (hnorm : request.normalize now = .ok normalized)
    {m : Method} (hm : routed m = true) {payload : Bytes}
    (h : c.call now request m = .ok payload) : payload = serializeRequest normalized [] := by
  have hprepare := prepare_open hopen hnorm
  by_cases hkey : normalized.serviceKey = []
  · cases m with
    | postWithServiceRouting =>
      simp only [Client.call, Client.postWithServiceRouting, Client.prepareForServiceRouting,
        hprepare, hkey, ne_eq, not_true, if_false, Client.postSynchronously, hopen,
        Bool.false_eq_true, Client.deliver, if_true, Except.ok.injEq] at h
      exact h.symm
    | postAsyncWithServiceRouting =>
      simp only [Client.call, Client.postAsyncWithServiceRouting, Client.prepareForServiceRouting,
        hprepare, hkey, ne_eq, not_true, if_false, Client.submit, hopen,
        Bool.false_eq_true, Client.deliver, if_true, Except.ok.injEq] at h
      exact h.symm
    | _ => cases hm
  · cases m with
    | postWithServiceRouting =>
      simp [Client.call, Client.postWithServiceRouting, Client.prepareForServiceRouting, hprepare,
        hkey] at h
    | postAsyncWithServiceRouting =>
      simp [Client.call, Client.postAsyncWithServiceRouting, Client.prepareForServiceRouting,
        hprepare, hkey] at h
    | _ => cases hm

theorem blank_nil : Blank [] := rfl

/-- What `deliver` puts into the payload. -/
theorem carries_deliver (request : IncidentRequest) (key : Bytes) :
    Carries (Client.deliver request key)
      (if request.serviceKey ≠ [] then some request.serviceKey
        else if key ≠ [] then some key else none) := by
  have h := carries_serializeRequest request
    (if request.serviceKey = [] then key else request.serviceKey)
  unfold Client.deliver
  by_cases hrequest : request.serviceKey = []
  · by_cases hkey : key = [] <;> simpa [hrequest, hkey] using h
  · simpa [hrequest] using h

/-- A blank key that is not empty is taken for a key: it is carried in place of the client's. -/
theorem not_keepsBlankKeysOff (hnew : new config = .ok c)
    (hnorm : request.normalize now = .ok normalized) {m : Method} (hm : routed m = false)
    (hne : request.serviceKey ≠ []) (hblank : Blank request.serviceKey) :
    ¬ KeepsBlankKeysOff config c now request m := by
  intro h
  have hc := new_eq_ok hnew
  have hkey := normalize_serviceKey hnorm
  rcases call_unrouted (c := c) (by rw [hc]) hnorm hm with ⟨hnone, -⟩ | ⟨-, hcall⟩
  · exact hne (hkey ▸ hnone)
  · have hcarried := carries_deliver normalized c.serviceKey
    rw [hkey, if_pos hne] at hcarried
    have hpromised := h.carries _ hcall
    rw [hm, if_neg Bool.false_ne_true, resolvedKey, if_neg (not_not.mpr hblank)] at hpromised
    by_cases hconfig : Blank config.serviceKey
    · rw [if_neg (not_not.mpr hconfig)] at hpromised
      cases hcarried.unique hpromised
    · -- the two keys differ, since the client's was trimmed
      rw [if_pos hconfig] at hpromised
      have hsame := Option.some.inj (hcarried.unique hpromised)
      exact hconfig (eq_nil_of_trimSpace_trimSpace (trimSpace_eq_nil_of_toValid hsame hblank))

/-- **Blank keys stay off the wire exactly when the request's own key is empty or not blank**, or
the call is routed. -/
theorem keepsBlankKeysOff_iff (hnew : new config = .ok c)
    (hnorm : request.normalize now = .ok normalized) (m : Method) :
    KeepsBlankKeysOff config c now request m ↔
      routed m = true ∨ request.serviceKey = [] ∨ ¬ Blank request.serviceKey := by
  have hc := new_eq_ok hnew
  have hopen : c.closed = false := by rw [hc]
  have hclient : c.serviceKey = trimSpace config.serviceKey := by rw [hc]
  have hkey := normalize_serviceKey hnorm
  cases hm : routed m with
  | true =>
    refine iff_of_true ⟨?_, ?_⟩ (.inl rfl)
    · intro payload hpayload
      rw [call_routed hopen hnorm hm hpayload, if_pos hm]
      exact carries_serializeRequest normalized []
    · intro h
      rw [hm] at h
      cases h
  | false =>
    constructor
    · intro h
      by_contra hnot
      simp only [Bool.false_eq_true, false_or, not_or, not_not] at hnot
      exact not_keepsBlankKeysOff hnew hnorm hm hnot.1 hnot.2 h
    · intro hor
      replace hor := hor.resolve_left Bool.false_ne_true
      -- an empty key is the only blank one
      have hiff : request.serviceKey = [] ↔ Blank request.serviceKey :=
        ⟨fun he => he ▸ blank_nil, fun hb => hor.resolve_right (not_not.mpr hb)⟩
      rcases call_unrouted hopen hnorm hm with ⟨hnone, hnokey, hrefused⟩ | ⟨hsome, hcall⟩
      · obtain ⟨message, hmessage⟩ := hrefused
        refine ⟨?_, fun _ => iff_of_true ⟨message, hmessage⟩
          ⟨hiff.mp (hkey ▸ hnone), hclient.symm.trans hnokey⟩⟩
        intro payload hpayload
        rw [hmessage] at hpayload
        cases hpayload
      · refine ⟨?_, fun _ => iff_of_false ?_ ?_⟩
        · intro payload hpayload
          rw [hcall] at hpayload
          cases hpayload
          have hcarried := carries_deliver normalized c.serviceKey
          have hblank : trimSpace config.serviceKey = [] ↔ Blank config.serviceKey := Iff.rfl
          rw [hkey, hclient] at hcarried
          rw [hm, if_neg Bool.false_ne_true, resolvedKey, hclient]
          simpa only [ne_eq, hiff, hblank] using hcarried
        · intro hex
          obtain ⟨message, hmessage⟩ := hex
          rw [hcall] at hmessage
          cases hmessage
        · intro hboth
          obtain ⟨hrequest, hconfig⟩ := hboth
          exact hsome ⟨hkey.trans (hiff.mpr hrequest), hclient.trans hconfig⟩

end

/-! ## Two requests -/

def someRequest (serviceKey : Bytes) : IncidentRequest where
  title := bytes "disk full"
  source := bytes "db1"
  severity := 4
  priority := 0
  srcTimestamp := 1700000000000
  serviceKey := serviceKey
  component := []
  group := []
  type := []
  details := []

/-- A client whose key comes with spaces around it. -/
def someConfig : Config := ⟨bytes "secret", bytes " svc-1 "⟩

theorem new_someConfig : new someConfig = .ok ⟨bytes "svc-1", false⟩ := by
  have hapi : trimSpace someConfig.apiKey ≠ [] := by decide +kernel
  have hkey : trimSpace someConfig.serviceKey = bytes "svc-1" := by decide +kernel
  rw [new, if_neg hapi, hkey]

theorem normalize_someRequest (serviceKey : Bytes) : ∃ normalized,
    (someRequest serviceKey).normalize 1 = .ok normalized := by
  have htitle : trimSpace (bytes "disk full") ≠ [] := by decide +kernel
  have hsource : trimSpace (bytes "db1") ≠ [] := by decide +kernel
  have hlength : ¬ (runes (bytes "db1")).length > maxSourceLength := by decide +kernel
  simp only [IncidentRequest.normalize, someRequest, htitle, hsource, hlength, if_false]
  exact ⟨_, rfl⟩

/-- The client's key is used for a request without one. -/
theorem keepsBlankKeysOff_iff_empty :
    KeepsBlankKeysOff someConfig ⟨bytes "svc-1", false⟩ 1 (someRequest []) .post := by
  obtain ⟨normalized, hnorm⟩ := normalize_someRequest []
  exact (keepsBlankKeysOff_iff new_someConfig hnorm .post).mpr (.inr (.inl rfl))

/-- Two spaces for a key go on the wire, in place of the client's key. -/
theorem blank_key_is_sent :
    (∃ payload, Client.call ⟨bytes "svc-1", false⟩ 1 (someRequest (bytes "  ")) .post =
      .ok payload ∧ Carries payload (some (bytes "  "))) ∧
    ¬ KeepsBlankKeysOff someConfig ⟨bytes "svc-1", false⟩ 1 (someRequest (bytes "  ")) .post := by
  obtain ⟨normalized, hnorm⟩ := normalize_someRequest (bytes "  ")
  have hkey := normalize_serviceKey hnorm
  have hne : (someRequest (bytes "  ")).serviceKey ≠ [] := by decide
  refine ⟨?_, not_keepsBlankKeysOff new_someConfig hnorm rfl hne (by decide +kernel)⟩
  obtain ⟨hnone, -⟩ | ⟨-, hcall⟩ :=
    call_unrouted (c := ⟨bytes "svc-1", false⟩) rfl hnorm (m := .post) rfl
  · exact absurd (hkey ▸ hnone) hne
  · have hcarried := carries_deliver normalized (bytes "svc-1")
    rw [hkey, if_pos hne] at hcarried
    exact ⟨_, hcall, hcarried⟩

end OppexSdk.Go.ServiceKey
