import OppexSdk.Node.TaskOutcome

/-! # A failed HTTP status and what the Node client reports for it

Only the statuses that are retried are failures for `deliver`; any other goes to `parseResponse`,
where `success` of the body overrides what the status says. So a failed status is reported as a
success when its body says so, unless the line that announces the incident throws on the way. -/
namespace OppexSdk.Node
open OppexSdk.Lib.Binary64 OppexSdk.Lib.Interaction OppexSdk.Lib.JavaScript

/-- The last HTTP status was outside of 200 to 299. -/
def FailedStatus (last : Option Nat) : Prop :=
  ∃ status, last = some status ∧ ¬ (200 ≤ status ∧ status < 300)

section
variable (engine : Engine) (body : JsString)

/-- The object that the body is the JSON text of. -/
def envelope : Option (List (String × Value)) :=
  if (trim body).length = 0 then none
  else match engine.parse body with
    | some (.record obj) => some obj
    | _ => none

/-- The body is a JSON object with `success: true`. -/
def saysSuccess : Bool :=
  match (envelope engine body).map (Value.own · "success") with
  | some (.boolean b) => b
  | _ => false

/-- The body is a JSON object with an incident id. -/
def namesIncident : Bool :=
  match (envelope engine body).map (Value.own · "data") with
  | some (.string s) => !s.isEmpty
  | _ => false

end

section
variable (host : Host (hostSignature Shared)) (engine : Engine) (client : IncidentClient)

/-- A failed status whose body says success is not reported as one by `sendIncident`, because the
line that announces the incident throws. -/
def OverriddenSync (body : JsString) : Prop :=
  namesIncident engine body = true ∧ LevelUnreadable host .info

/-- The same for the task, where what the line throws has to be logged before `onError`. -/
def OverriddenAsync (body : JsString) : Prop :=
  OverriddenSync host engine body ∧ LevelThrowsOnly host .info (Loggable host engine .error)

/-- What the two calls need of the transport and the logger. -/
structure ReportsFailures (input : Value) : Prop where
  sync : ∀ s, May host s → s.closed = false → Always host (fun request => ∀ status body,
      MayAnswer host engine client request (.ok (status, body)) →
      ¬ (200 ≤ status ∧ status < 300) → isRetryableStatus status = false →
      saysSuccess engine body = true → OverriddenSync host engine body)
    (fun _ => True) (buildIncidentRequest engine input)
  async : Always host (fun request => ∀ status body,
      MayAnswer host engine client request (.ok (status, body)) →
      ¬ (200 ≤ status ∧ status < 300) →
      if isRetryableStatus status = false ∧ saysSuccess engine body = true then
        OverriddenAsync host engine body
      else LevelReadable host .error)
    (fun _ => True) (buildIncidentRequest engine input)

end

/-- `sendIncident` resolves with a failure when the last status was one. -/
def HonestResponse (t : Observed) (r : IncidentResponse) : Prop :=
  FailedStatus t.lastStatus → r.successful = false

/-- The task has invoked `onError` and not `onSuccess` when the last status was a failure. -/
def HonestCallbacks (t : Observed) : Prop :=
  FailedStatus t.lastStatus → .onError ∈ t.invoked ∧ .onSuccess ∉ t.invoked

/-! ## What is parsed of a failed status -/

section
variable {engine : Engine} {status : Nat} {body : JsString}

/-- The two fields of the response that decide what is reported. -/
theorem parseResponse_envelope (engine : Engine) (status : Nat) (body : JsString) :
    match envelope engine body with
    | none => (parseResponse engine status body).successful =
          decide (200 ≤ status ∧ status < 300) ∧
        (parseResponse engine status body).incidentId = .null
    | some obj => (parseResponse engine status body).successful =
          (match Value.own obj "success" with
            | .boolean b => b
            | _ => decide (200 ≤ status ∧ status < 300)) ∧
        (parseResponse engine status body).incidentId =
          (match Value.own obj "data" with
            | .string s => .string s
            | _ => .null) := by
  by_cases hblank : (trim body).length = 0
  · simp only [envelope, parseResponse, hblank, if_true, and_self]
  · simp only [envelope, parseResponse, hblank, if_false]
    cases engine.parse body with
    | none => exact ⟨rfl, rfl⟩
    | some v => cases v <;> exact ⟨rfl, rfl⟩

theorem successful_parseResponse (hstatus : ¬ (200 ≤ status ∧ status < 300)) :
    (parseResponse engine status body).successful = saysSuccess engine body := by
  have hparse := parseResponse_envelope engine status body
  rw [decide_eq_false hstatus] at hparse
  unfold saysSuccess
  cases henvelope : envelope engine body with
  | none =>
    rw [henvelope] at hparse
    exact hparse.1
  | some obj =>
    rw [henvelope] at hparse
    refine hparse.1.trans ?_
    simp only [Option.map_some]
    cases Value.own obj "success" <;> rfl

theorem created_parseResponse (hstatus : ¬ (200 ≤ status ∧ status < 300)) :
    (parseResponse engine status body).created =
      (saysSuccess engine body && namesIncident engine body) := by
  have hparse := parseResponse_envelope engine status body
  have hid : (parseResponse engine status body).incidentId.truthy = namesIncident engine body := by
    unfold namesIncident
    cases henvelope : envelope engine body with
    | none =>
      rw [henvelope] at hparse
      rw [hparse.2]
      rfl
    | some obj =>
      rw [henvelope] at hparse
      rw [hparse.2]
      simp only [Option.map_some]
      cases Value.own obj "data" <;> rfl
  rw [IncidentResponse.created, successful_parseResponse hstatus, hid]

theorem failed_of_retryable (h : isRetryableStatus status = true) :
    ¬ (200 ≤ status ∧ status < 300) := by
  simp only [isRetryableStatus, decide_eq_true_eq, List.mem_cons, List.not_mem_nil, or_false] at h
  omega

end

/-! ## `sendIncident` -/

section
variable {host : Host (hostSignature Shared)} {engine : Engine} {client : IncidentClient}
variable {request : IncidentRequest} {input : Value} {cb : Nat} {last : Option Nat}

theorem not_failedStatus_none : ¬ FailedStatus none := nofun

theorem always_reportFailure (level : Level) (err : Value) :
    Always host (fun r => r.successful = false) (fun _ => True)
      (reportFailure engine level err) := by
  simp only [reportFailure, toFailedResponse, always_bind, always_ite, always_pure]
  refine always_of_forall fun _ => always_of_forall fun _ => always_of_forall ?_
  intro _
  split
  · exact always_of_forall fun _ => always_of_forall fun _ => rfl
  · exact always_of_forall fun _ => rfl

/-- A failed status is answered with a success only if the body overrides it. -/
theorem resolves_honest {r : IncidentResponse}
    (hr : Resolves host engine client request none last r) (hlast : FailedStatus last) :
    r.successful = false ∨ ∃ status body,
      MayAnswer host engine client request (.ok (status, body)) ∧
      ¬ (200 ≤ status ∧ status < 300) ∧ isRetryableStatus status = false ∧
      r = parseResponse engine status body ∧ saysSuccess engine body = true := by
  cases hr with
  | refused _ _ => exact .inl rfl
  | unreachable _ => exact .inl rfl
  | lost _ _ _ => exact .inl rfl
  | @parsed status body hanswer hstatus =>
    obtain ⟨_, hsome, hfailed⟩ := hlast
    cases hsome
    cases hbody : saysSuccess engine body with
    | false => exact .inl ((successful_parseResponse hfailed).trans hbody)
    | true => exact .inr ⟨status, body, hanswer, hfailed, hstatus, rfl, hbody⟩

theorem watches_reportFailure (level : Level) (err : Value) (t : Observed)
    (ht : t.ready = none) : Watches host (Observed.see cb) HonestResponse (fun _ _ => True)
      (reportFailure engine level err) t := by
  obtain ⟨last, ready, invoked⟩ := t
  cases ht
  rw [watches_ordinary (ordinary_reportFailure engine level err)]
  exact (always_reportFailure level err).mono (fun _ h _ => h) fun _ h => h

theorem watches_deliverSync :
    Watches host (Observed.see cb) HonestResponse (fun t err => Watches host (Observed.see cb)
        HonestResponse (fun _ _ => True) (reportFailure engine .error err) t)
        (deliverSync engine client request) Observed.start ↔
      ∀ status body, MayAnswer host engine client request (.ok (status, body)) →
        ¬ (200 ≤ status ∧ status < 300) → isRetryableStatus status = false →
        saysSuccess engine body = true → OverriddenSync host engine body := by
  -- the response stands unless the line about it throws
  have hline (last : Option Nat) (r : IncidentResponse) (hr : r.WellTyped) :
      Watches host (Observed.see cb) HonestResponse (fun t err => Watches host (Observed.see cb)
        HonestResponse (fun _ _ => True) (reportFailure engine .error err) t)
        (logCreated engine "sync" request r >>= fun _ => pure r) ⟨last, none, []⟩ ↔
      (r.created = true ∧ LevelUnreadable host .info) ∨ HonestResponse ⟨last, none, []⟩ r := by
    rw [watches_bind, watches_ordinary (ordinary_logCreated engine "sync" request r)]
    refine (always_created hr "sync").trans (and_iff_right ?_)
    intro _ s _
    exact always_true.mono (fun _ h => h) fun err _ => watches_reportFailure .error err _ rfl
  rw [deliverSync, watches_bind, Observed.start, watches_deliver]
  constructor
  · intro h status body hanswer hfailed hstatus hbody
    have hr : Resolves host engine client request none (some status)
        (parseResponse engine status body) := .parsed hanswer hstatus
    rcases (hline _ _ hr.wellTyped).mp (h _ _ hr) with ⟨hcreated, hinfo⟩ | hhonest
    · rw [created_parseResponse hfailed, Bool.and_eq_true] at hcreated
      exact ⟨hcreated.2, hinfo⟩
    · have hfalse := hhonest ⟨status, rfl, hfailed⟩
      rw [successful_parseResponse hfailed, hbody] at hfalse
      cases hfalse
  · intro h last r hr
    refine (hline last r hr.wellTyped).mpr ?_
    by_cases hlast : FailedStatus last
    · rcases resolves_honest hr hlast with
        hfalse | ⟨status, body, hanswer, hfailed, hstatus, rfl, hbody⟩
      · exact .inr fun _ => hfalse
      · obtain ⟨hnames, hinfo⟩ := h status body hanswer hfailed hstatus hbody
        refine .inl ⟨?_, hinfo⟩
        rw [created_parseResponse hfailed, hbody, hnames]
        rfl
    · exact .inr fun hl => absurd hl hlast

theorem watches_sendIncident :
    Watches host (Observed.see cb) HonestResponse (fun _ _ => True)
        (sendIncident engine client input) Observed.start ↔
      ∀ s, May host s → s.closed = false → Always host (fun request => ∀ status body,
          MayAnswer host engine client request (.ok (status, body)) →
          ¬ (200 ≤ status ∧ status < 300) → isRetryableStatus status = false →
          saysSuccess engine body = true → OverriddenSync host engine body)
        (fun _ => True) (buildIncidentRequest engine input) := by
  rw [sendIncident, watches_bind, Observed.start, watches_ordinary (asks_shared trivial),
    always_shared]
  refine forall_congr' fun s => forall_congr' ?_
  intro _
  rw [watches_ite]
  cases s.closed with
  | true =>
    simp only [if_true, reduceCtorEq, false_imp_iff, iff_true]
    exact watches_reportFailure .warn _ _ rfl
  | false =>
    simp only [Bool.false_eq_true, if_false, true_imp_iff]
    rw [watches_bind, watches_attempt,
      watches_ordinary (ordinary_buildIncidentRequest engine input)]
    refine always_congr ?_ ?_
    · intro request
      exact (watches_tryCatch _ _ _).trans watches_deliverSync
    · intro err
      exact iff_true_intro (watches_reportFailure .warn err _ rfl)

/-! ## The task of `sendIncidentAsync` -/

theorem honest_of_not_failed (h : ¬ FailedStatus last) (invoked : List Callback) :
    HonestCallbacks ⟨last, none, invoked⟩ := fun hl => absurd hl h

/-- Without a failed status there is nothing to show. -/
theorem concludes_of_not_failed (callbacks : Value) (r : IncidentResponse)
    (h : ¬ FailedStatus last) : Concludes host engine HonestCallbacks callbacks last r := by
  have hrescued (level : Level) (invoked : List Callback) (err : Value) :
      Rescued host engine HonestCallbacks level last invoked err :=
    always_const.mpr trivial |>.mono (fun _ _ => honest_of_not_failed h _)
      fun _ _ => honest_of_not_failed h _
  have htold (c : Callback) (arg : Value) :
      Told host engine HonestCallbacks callbacks last c arg := by
    refine always_true.mono (fun _ _ => honest_of_not_failed h _) ?_
    intro err _
    exact always_true.mono (fun _ _ => honest_of_not_failed h _) fun err _ => hrescued _ _ err
  have hthrows (level : Level) :
      LevelThrowsOnly host level (Rescued host engine HonestCallbacks .error last []) :=
    fun s _ => always_true.mono (fun _ h => h) fun err _ => hrescued _ _ err
  unfold Concludes
  split
  · exact ⟨fun _ => hthrows .info, .inr (htold .onSuccess _)⟩
  · exact ⟨hthrows .error, .inr (htold .onError _)⟩

theorem honest_iff (hlast : FailedStatus last) (invoked : List Callback) :
    HonestCallbacks ⟨last, none, invoked⟩ ↔ .onError ∈ invoked ∧ .onSuccess ∉ invoked :=
  ⟨fun h => h hlast, fun h _ => h⟩

theorem rescued_honest (hlast : FailedStatus last) (level : Level) (err : Value) :
    Rescued host engine HonestCallbacks level last [] err ↔ Loggable host engine level err := by
  rw [← safe_logLine]
  refine always_congr ?_ ?_
  · intro _
    rw [honest_iff hlast]
    exact iff_true_intro (by decide)
  · intro _
    rw [honest_iff hlast]
    exact iff_false_intro (by decide)

/-- Once `onSuccess` was invoked, nothing makes up for it. -/
theorem not_told_success (hlast : FailedStatus last) (callbacks arg : Value) :
    ¬ Told host engine HonestCallbacks callbacks last .onSuccess arg := by
  have hone : ¬ HonestCallbacks ⟨last, none, [.onSuccess]⟩ := by
    rw [honest_iff hlast]
    decide
  have htwo : ¬ HonestCallbacks ⟨last, none, [.onSuccess, .onError]⟩ := by
    rw [honest_iff hlast]
    decide
  have hrescued (err : Value) :
      ¬ Rescued host engine HonestCallbacks .error last [.onSuccess] err :=
    fun h => not_always_false (Always.mono h (fun _ h => htwo h) fun _ h => hone h)
  refine fun h => not_always_false (Always.mono h (fun _ h => hone h) ?_)
  intro err herr
  exact not_always_false (Always.mono herr (fun _ h => hone h) fun err h => hrescued err h)

theorem told_failure (hlast : FailedStatus last) (callbacks arg : Value) :
    Told host engine HonestCallbacks callbacks last .onError arg := by
  have hone : HonestCallbacks ⟨last, none, [.onError]⟩ := by
    rw [honest_iff hlast]
    decide
  have htwo : HonestCallbacks ⟨last, none, [.onError, .onError]⟩ := by
    rw [honest_iff hlast]
    decide
  refine always_true.mono (fun _ _ => hone) ?_
  intro err _
  refine always_true.mono (fun _ _ => hone) ?_
  intro err _
  exact always_true.mono (fun _ _ => htwo) fun _ _ => hone

theorem concludes_honest (hlast : FailedStatus last) (callbacks : Value) (r : IncidentResponse) :
    Concludes host engine HonestCallbacks callbacks last r ↔
      if r.successful = true then
        (r.created = true ∧ LevelUnreadable host .info) ∧
          LevelThrowsOnly host .info (Loggable host engine .error)
      else LevelReadable host .error := by
  unfold Concludes
  simp only [levelThrowsOnly_congr _ (rescued_honest hlast .error), levelThrowsOnly_loggable,
    not_told_success hlast, told_failure hlast, or_false, or_true, and_true]
  split
  · exact ⟨fun h => ⟨h.2, h.1 h.2.1⟩, fun h => ⟨fun _ => h.2, h.1⟩⟩
  · rfl

theorem ends_honest (hs : Supplied host cb) (callable : Bool) :
    Ends host cb HonestCallbacks (runTask engine client ⟨input, .object cb callable⟩)
        Observed.start ↔
      Always host (fun request => ∀ status body,
          MayAnswer host engine client request (.ok (status, body)) →
          ¬ (200 ≤ status ∧ status < 300) →
          if isRetryableStatus status = false ∧ saysSuccess engine body = true then
            OverriddenAsync host engine body
          else LevelReadable host .error)
        (fun _ => True) (buildIncidentRequest engine input) := by
  rw [ends_runTask hs]
  refine always_congr ?_ (fun err => iff_true_intro ?_)
  · intro request
    constructor
    · intro h status body hanswer hfailed
      have hlast : FailedStatus (some status) := ⟨status, rfl, hfailed⟩
      cases hretryable : isRetryableStatus status with
      | true =>
        have hconcludes := (concludes_honest hlast _ _).mp (h _ _ (.refused hanswer hretryable))
        rw [if_neg (by simp)]
        exact hconcludes
      | false =>
        have hconcludes := (concludes_honest hlast _ _).mp (h _ _ (.parsed hanswer hretryable))
        rw [successful_parseResponse hfailed, created_parseResponse hfailed] at hconcludes
        cases hbody : saysSuccess engine body with
        | false => simpa [hbody] using hconcludes
        | true =>
          rw [hbody, if_pos rfl] at hconcludes
          rw [if_pos ⟨rfl, rfl⟩]
          exact hconcludes
    · intro h last r hr
      by_cases hlast : FailedStatus last
      · refine (concludes_honest hlast _ _).mpr ?_
        cases hr with
        | unreachable _ => exact absurd hlast not_failedStatus_none
        | @refused status body hanswer hretryable =>
          have hcase := h status body hanswer (failed_of_retryable hretryable)
          rw [if_neg (by simp [hretryable])] at hcase
          exact hcase
        | @lost _ _ status body _ hanswer hretryable =>
          have hcase := h status body hanswer (failed_of_retryable hretryable)
          rw [if_neg (by simp [hretryable])] at hcase
          exact hcase
        | @parsed status body hanswer hretryable =>
          obtain ⟨_, hsome, hfailed⟩ := hlast
          cases hsome
          have hcase := h status body hanswer hfailed
          rw [successful_parseResponse hfailed, created_parseResponse hfailed]
          cases hbody : saysSuccess engine body with
          | false => simpa [hbody] using hcase
          | true =>
            rw [if_pos ⟨hretryable, hbody⟩] at hcase
            exact hcase
      · exact concludes_of_not_failed _ r hlast
  · exact always_true.mono (fun _ _ => honest_of_not_failed not_failedStatus_none _)
      fun _ _ => honest_of_not_failed not_failedStatus_none _

/-- **A failed status is reported as a failure**, by `sendIncident` and to the callbacks, exactly
when no body overrides it and the failure can be logged. -/
theorem failed_status_reported_iff (host : Host (hostSignature Shared)) (engine : Engine)
    (client : IncidentClient) (input : Value) (cb : Nat) (callable : Bool)
    (hs : Supplied host cb) :
    Watches host (Observed.see cb) HonestResponse (fun _ _ => True)
        (sendIncident engine client input) Observed.start ∧
      Ends host cb HonestCallbacks (runTask engine client ⟨input, .object cb callable⟩)
        Observed.start ↔
    ReportsFailures host engine client input := by
  rw [watches_sendIncident, ends_honest hs]
  exact ⟨fun h => ⟨h.1, h.2⟩, fun h => ⟨h.sync, h.async⟩⟩

end

/-- The JSON text of an object whose `success` is true. -/
def successBody : JsString := js "\x7b\"success\":true\x7d"

/-- A 404 with a page of a proxy. -/
def proxyHost : (q : Query Shared) → (hostSignature Shared).Answer q :=
  callbackHost (404, js "not found") (.ok .undefined)

theorem failed_status_reported_iff_proxy :
    Supplied (Host.of proxyHost) 7 ∧
      ReportsFailures (Host.of proxyHost) (envelopeEngine successBody) callbackClient
        plainInput := by
  have hs : Supplied (Host.of proxyHost) 7 := supplied_callbackHost _ _
  refine ⟨hs, (failed_status_reported_iff _ _ _ _ 7 false hs).mp ⟨?_, ?_⟩⟩
  · refine watches_of.mpr ?_
    have hfalse : (match (sendIncident (envelopeEngine successBody) callbackClient plainInput).run
        (fun q t => (proxyHost q, Observed.see 7 t q (proxyHost q))) Observed.start with
      | (.ok r, _) => !r.successful
      | (.error _, _) => true) = true := by decide +kernel
    split
    · rename_i heq
      rw [heq] at hfalse
      exact fun _ => by simpa using hfalse
    · trivial
  · refine ends_of.mpr ?_
    intro _
    decide +kernel

/-- A 404 whose body says `success: true`. -/
def contradictoryHost : (q : Query Shared) → (hostSignature Shared).Answer q :=
  callbackHost (404, successBody) (.ok .undefined)

/-- `sendIncident` resolves with a success, and the task invokes `onSuccess`. -/
theorem not_found_is_a_success :
    Supplied (Host.of contradictoryHost) 7 ∧
      ¬ Watches (Host.of contradictoryHost) (Observed.see 7) HonestResponse (fun _ _ => True)
        (sendIncident (envelopeEngine successBody) callbackClient plainInput) Observed.start ∧
      ¬ Ends (Host.of contradictoryHost) 7 HonestCallbacks
        (runTask (envelopeEngine successBody) callbackClient ⟨plainInput, .object 7 false⟩)
        Observed.start := by
  refine ⟨supplied_callbackHost _ _, ?_, ?_⟩
  · intro h
    have hrun : (match (sendIncident (envelopeEngine successBody) callbackClient plainInput).run
        (fun q t => (contradictoryHost q, Observed.see 7 t q (contradictoryHost q)))
        Observed.start with
      | (.ok r, t) => r.successful && decide (t.lastStatus = some 404)
      | (.error _, _) => false) = true := by decide +kernel
    have h := watches_of.mp h
    split at h
    · rename_i heq
      rw [heq, Bool.and_eq_true, decide_eq_true_iff] at hrun
      have hfalse := h ⟨404, hrun.2, by decide⟩
      rw [hrun.1] at hfalse
      cases hfalse
    · rename_i heq
      rw [heq] at hrun
      cases hrun
  · intro h
    have hlast : ((runTask (envelopeEngine successBody) callbackClient
        ⟨plainInput, .object 7 false⟩).run (fun q t => (contradictoryHost q,
          Observed.see 7 t q (contradictoryHost q))) Observed.start).2.lastStatus = some 404 := by
      decide +kernel
    have hinvoked : ((runTask (envelopeEngine successBody) callbackClient
        ⟨plainInput, .object 7 false⟩).run (fun q t => (contradictoryHost q,
          Observed.see 7 t q (contradictoryHost q))) Observed.start).2.invoked =
          [.onSuccess] := by
      decide +kernel
    have hhonest := ends_of.mp h ⟨404, hlast, by decide⟩
    rw [hinvoked] at hhonest
    exact absurd hhonest (by decide)

end OppexSdk.Node
