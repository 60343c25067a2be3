import OppexSdk.Node.Delivery
import OppexSdk.Node.Questions

/-! # How often the callbacks of `sendIncidentAsync` are called

The task calls `onSuccess` or `onError` inside nested `try` blocks whose handlers log what was
thrown, so an exception of a handler ends in the outer handler, which calls `onError`. A monitor
notes the HTTP statuses and the calls of the two callbacks while the task runs. -/
namespace OppexSdk.Node
open OppexSdk.Lib.Binary64 OppexSdk.Lib.Interaction OppexSdk.Lib.JavaScript

inductive Callback
  | onSuccess | onError
  deriving DecidableEq

def Callback.key : Callback → String
  | onSuccess => "onSuccess"
  | onError => "onError"

def Callback.ofKey (key : String) : Option Callback :=
  if key = "onSuccess" then some .onSuccess else if key = "onError" then some .onError else none

/-- What the monitor has seen. -/
structure Observed where
  /-- The last HTTP status. -/
  lastStatus : Option Nat
  /-- The callback that the last question read, and the function it is. -/
  ready : Option (Callback × Nat)
  invoked : List Callback

/-- A callback of object `cb` is invoked when the function just read off it is called. -/
def Observed.see (cb : Nat) : Monitor (hostSignature Shared) Observed :=
  fun t (q : Query Shared) => match q with
    | .send .. => fun
      | .ok (status, _) => { t with lastStatus := some status, ready := none }
      | .error _ => { t with ready := none }
    | .get ref key => fun
      | .ok (.object f true) =>
        { t with ready := if ref = cb then (Callback.ofKey key).map (·, f) else none }
      | _ => { t with ready := none }
    | .call f _ => fun _ =>
      match t.ready with
      | some (callback, g) =>
        { t with ready := none, invoked := if f = g then t.invoked ++ [callback] else t.invoked }
      | none => t
    | _ => fun _ => { t with ready := none }

def Observed.start : Observed := ⟨none, none, []⟩

section
variable (host : Host (hostSignature Shared)) (engine : Engine) (client : IncidentClient)

/-- The object has a function for each callback. -/
def Supplied (cb : Nat) : Prop :=
  ∀ (c : Callback) r, host.allows (.get cb c.key : Query Shared) r → ∃ f, r = .ok (.object f true)

/-- However the program ends, the monitor is in such a state. -/
def Ends {α : Type} (cb : Nat) (N : Observed → Prop) (m : Js Shared α) (t : Observed) : Prop :=
  Watches host (Observed.see cb) (fun t _ => N t) (fun t _ => N t) m t

/-- Describe the error and log it. -/
def logLine (level : Level) (err : Value) : Js Shared Unit := do
  let message ← logMessage engine err
  Logger.log level message

/-- The error can be logged. -/
structure Loggable (level : Level) (err : Value) : Prop where
  describable : Describable host engine err
  readable : LevelReadable host level

/-- Logging the error always throws. -/
def Unloggable (level : Level) (err : Value) : Prop :=
  Always host (fun _ => False) (fun _ => True) (logLine engine level err)

/-- What the callback throws is logged, or the exception of the attempt cannot be logged in its
turn. -/
def Contained (callbacks : Value) (c : Callback) (arg : Value) : Prop :=
  ThrowsOnly host (fun err => ThrowsOnly host (Unloggable host engine .error)
    (logLine engine .warn err)) (observe callbacks c.key arg)

/-- An answer that a request of this payload may get. -/
def MayAnswer (request : IncidentRequest)
    (answer : Except (JsString × JsString) (Nat × JsString)) : Prop :=
  host.allows (.send endpointUrl (headers client) (payload engine client request) : Query Shared)
    answer

end

/-- The response after the last attempt, whose failure has this code and message. -/
def exhausted (code : Double) (message : JsString) : IncidentResponse :=
  failedResponse (.number code) (.string (if isMinusOne (.number code)
    then message ++ js s!" (after {4} attempts)" else message))

/-- What `deliver` may resolve with, and the last HTTP status then. -/
inductive Resolves (host : Host (hostSignature Shared)) (engine : Engine) (client : IncidentClient)
    (request : IncidentRequest) (before : Option Nat) : Option Nat → IncidentResponse → Prop
  | parsed {status body} : MayAnswer host engine client request (.ok (status, body)) →
      isRetryableStatus status = false →
      Resolves host engine client request before (some status) (parseResponse engine status body)
  | refused {status body} : MayAnswer host engine client request (.ok (status, body)) →
      isRetryableStatus status = true →
      Resolves host engine client request before (some status)
        (exhausted (numberOfInt status) (js s!"HTTP {status}"))
  | unreachable {name message} : MayAnswer host engine client request (.error (name, message)) →
      Resolves host engine client request before before (exhausted (numberOfInt (-1)) message)
  /-- The network failed after a status that is retried. -/
  | lost {name message status body} :
      MayAnswer host engine client request (.error (name, message)) →
      MayAnswer host engine client request (.ok (status, body)) →
      isRetryableStatus status = true →
      Resolves host engine client request before (some status)
        (exhausted (numberOfInt (-1)) message)

section
variable {host : Host (hostSignature Shared)} {engine : Engine} {client : IncidentClient}
variable {request : IncidentRequest} {cb : Nat} {last : Option Nat} {invoked : List Callback}

/-! ## The monitor -/

theorem ofKey_ordinary {key : String} (h : key ≠ "onSuccess" ∧ key ≠ "onError") :
    Callback.ofKey key = none := by
  rw [Callback.ofKey, if_neg h.1, if_neg h.2]

theorem ofKey_key (c : Callback) : Callback.ofKey c.key = some c := by
  cases c <;> rfl

theorem see_ordinary {q : Query Shared} (h : Ordinary q) (r : (hostSignature Shared).Answer q) :
    Observed.see cb ⟨last, none, invoked⟩ q r = ⟨last, none, invoked⟩ := by
  cases q with
  | send url headers body => exact h.elim
  | get ref key =>
    show (match r with
      | .ok (.object f true) => (⟨last, _, invoked⟩ : Observed)
      | _ => ⟨last, none, invoked⟩) = _
    split
    · rw [ofKey_ordinary h]
      simp
    · rfl
  | _ => rfl

/-- Between two calls of callbacks the rules for `Always` apply. -/
theorem watches_ordinary {α : Type} {P : Observed → α → Prop} {Q : Observed → Value → Prop}
    {m : Js Shared α} (h : Asks Ordinary m) :
    Watches host (Observed.see cb) P Q m ⟨last, none, invoked⟩ ↔
      Always host (P ⟨last, none, invoked⟩) (Q ⟨last, none, invoked⟩) m :=
  Asks.watches (h.mono fun _ hq r => see_ordinary hq r)

theorem watches_observe {P : Observed → Unit → Prop} {Q : Observed → Value → Prop}
    (hs : Supplied host cb) (callable : Bool) (c : Callback) (arg : Value) :
    Watches host (Observed.see cb) P Q (observe (.object cb callable) c.key arg)
        ⟨last, none, invoked⟩ ↔
      Always host (P ⟨last, none, invoked ++ [c]⟩) (Q ⟨last, none, invoked ++ [c]⟩)
        (observe (.object cb callable) c.key arg) := by
  refine forall_congr' fun r => forall_congr' ?_
  intro hr
  obtain ⟨f, rfl⟩ := hs c r hr
  have hready : Observed.see cb ⟨last, none, invoked⟩ (.get cb c.key : Query Shared)
      (.ok (.object f true)) = ⟨last, some (c, f), invoked⟩ := by
    show (⟨last, if cb = cb then (Callback.ofKey c.key).map (·, f) else none, invoked⟩ :
      Observed) = _
    rw [if_pos rfl, ofKey_key]
    rfl
  rw [hready]
  refine forall_congr' fun r => forall_congr' ?_
  intro _
  have hcalled : Observed.see cb ⟨last, some (c, f), invoked⟩ (.call f [arg] : Query Shared) r =
      ⟨last, none, invoked ++ [c]⟩ := by
    show (⟨last, none, if f = f then invoked ++ [c] else invoked⟩ : Observed) = _
    rw [if_pos rfl]
  rw [hcalled]
  cases r <;> rfl

/-- Against a host with one answer to each question, the run decides. -/
theorem ends_of {α : Type}
    {answer : (q : (hostSignature Shared).Query) → (hostSignature Shared).Answer q}
    {N : Observed → Prop} {m : Js Shared α} {t : Observed} :
    Ends (Host.of answer) cb N m t ↔
      N (m.run (fun q t => (answer q, Observed.see cb t q (answer q))) t).2 := by
  refine watches_of.trans ?_
  split
  · rename_i heq
    rw [heq]
  · rename_i heq
    rw [heq]

/-! ## Logging -/

theorem ordinary_logLine (level : Level) (err : Value) :
    Asks Ordinary (logLine engine level err) :=
  (ordinary_logMessage engine err).bind fun _ => ordinary_log level _

theorem safe_logLine (level : Level) (err : Value) :
    Safe host (logLine engine level err) ↔ Loggable host engine level err := by
  have hlog (message : JsString) : Always host (fun _ => True) (fun _ => False)
      (Logger.log level message) ↔ LevelReadable host level := throwsOnly_log level message
  simp only [Safe, Returns, logLine, always_bind, hlog]
  refine (returns_const.trans (and_congr_left fun _ => safe_logMessage err)).trans ?_
  exact ⟨fun h => ⟨h.1, h.2⟩, fun h => ⟨h.describable, h.readable⟩⟩

/-- A level whose exceptions could be logged at the level itself does not throw. -/
theorem levelThrowsOnly_loggable (level : Level) :
    LevelThrowsOnly host level (Loggable host engine level) ↔ LevelReadable host level := by
  constructor
  · intro h
    by_contra hnot
    refine hnot ?_
    intro s hs
    exact Always.mono (h s hs) (fun _ h => h) fun _ hl => hnot hl.readable
  · exact fun h s hs => Always.mono (h s hs) (fun _ h => h) fun _ => False.elim

theorem not_levelUnreadable {level : Level} (h : LevelReadable host level) :
    ¬ LevelUnreadable host level := by
  intro hnot
  obtain ⟨s, hs⟩ := host.answers (.read : Query Shared)
  have hboth := always_and.mpr ⟨h s hs, hnot s hs⟩
  exact not_always_false (hboth.mono (fun _ h => h.2) fun _ h => h.1)

/-! ## Invoking a callback -/

theorem watches_invoke {P : Observed → Unit → Prop} {Q : Observed → Value → Prop}
    (hs : Supplied host cb) (callable : Bool) (c : Callback) (arg : Value) :
    Watches host (Observed.see cb) P Q (invoke engine (.object cb callable) c.key arg)
        ⟨last, none, invoked⟩ ↔
      Always host (P ⟨last, none, invoked ++ [c]⟩)
        (fun err => Always host (P ⟨last, none, invoked ++ [c]⟩)
          (Q ⟨last, none, invoked ++ [c]⟩) (logLine engine .warn err))
        (observe (.object cb callable) c.key arg) := by
  rw [invoke, watches_tryCatch, watches_observe hs]
  have hhandler (err : Value) : Watches host (Observed.see cb) P Q
      (logLine engine .warn err) ⟨last, none, invoked ++ [c]⟩ ↔ _ :=
    watches_ordinary (ordinary_logLine .warn err)
  simp only [← hhandler]
  rfl

/-- However the callback ends, it has been called. -/
theorem ends_invoke {N : Observed → Prop} (hs : Supplied host cb) (callable : Bool) (c : Callback)
    (arg : Value) : Ends host cb N (invoke engine (.object cb callable) c.key arg)
        ⟨last, none, invoked⟩ ↔ N ⟨last, none, invoked ++ [c]⟩ := by
  rw [Ends, watches_invoke hs]
  simp only [always_const]

theorem ends_logAndInvokeOnError {N : Observed → Prop} (hs : Supplied host cb) (callable : Bool)
    (level : Level) (err : Value) :
    Ends host cb N (logAndInvokeOnError engine level (.object cb callable) err)
        ⟨last, none, invoked⟩ ↔
      Always host (fun _ => N ⟨last, none, invoked ++ [.onError]⟩)
        (fun _ => N ⟨last, none, invoked⟩) (logLine engine level err) := by
  have hinvoke : Watches host (Observed.see cb) (fun t _ => N t) (fun t _ => N t)
      (invokeOnError engine (.object cb callable) err) ⟨last, none, invoked⟩ ↔ _ :=
    ends_invoke hs callable .onError err
  simp only [Ends, logAndInvokeOnError, logLine, watches_bind, always_bind, hinvoke,
    watches_ordinary (ordinary_logMessage engine err), watches_ordinary (ordinary_log level _)]

/-! ## Delivery -/

/-- The `catch` block of `deliver`. -/
def failureResponse (err : Value) : Js Shared IncidentResponse := do
  if ← isDeliveryFailure err then
    let code ← getProp err "code"
    let message ← getProp err "message"
    return failedResponse code message
  else .throw err

/-- The last failure, as the retries leave it. -/
theorem failureResponse_counted (x : Double) (s : JsString) :
    failureResponse (if isMinusOne (.number x) then
        .record [("retryable", .boolean true), ("code", .number x), ("message", .string s),
          ("message", .string (s ++ js s!" (after {4} attempts)"))]
      else deliveryFailure true (.number x) (.string s)) = pure (exhausted x s) := by
  unfold exhausted
  cases isMinusOne (.number x) <;> rfl

/-- Whatever one attempt comes to: a status and a body that are parsed, a status that is retried,
or no answer. -/
structure AttemptEnds (host : Host (hostSignature Shared)) (engine : Engine)
    (client : IncidentClient) (request : IncidentRequest) (P : Nat → IncidentResponse → Prop)
    (R : Nat → Prop) (F : JsString → Prop) : Prop where
  parsed : ∀ status body, MayAnswer host engine client request (.ok (status, body)) →
    isRetryableStatus status = false → P status (parseResponse engine status body)
  refused : ∀ status body, MayAnswer host engine client request (.ok (status, body)) →
    isRetryableStatus status = true → R status
  failed : ∀ name message, MayAnswer host engine client request (.error (name, message)) →
    F message

theorem attemptEnds_congr {P : Nat → IncidentResponse → Prop} {R R' : Nat → Prop}
    {F F' : JsString → Prop} (hR : ∀ status, R status ↔ R' status)
    (hF : ∀ message, F message ↔ F' message) :
    AttemptEnds host engine client request P R F ↔
      AttemptEnds host engine client request P R' F' := by
  rw [funext fun status => propext (hR status), funext fun message => propext (hF message)]

theorem watches_attemptDelivery {P : Observed → IncidentResponse → Prop}
    {Q : Observed → Value → Prop} :
    Watches host (Observed.see cb) P Q (attemptDelivery engine client request)
        ⟨last, none, invoked⟩ ↔
      AttemptEnds host engine client request (fun status => P ⟨some status, none, invoked⟩)
        (fun status => Q ⟨some status, none, invoked⟩ (deliveryFailure true
          (.number (numberOfInt status)) (.string (js s!"HTTP {status}"))))
        (fun message => Q ⟨last, none, invoked⟩ (deliveryFailure true
          (.number (numberOfInt (-1))) (.string message))) := by
  simp only [attemptDelivery, sendRequest, watches_bind, watches_tryCatch, watches_ite,
    watches_throw, watches_pure]
  constructor
  · intro h
    have hanswer (status : Nat) (body : JsString)
        (hr : MayAnswer host engine client request (.ok (status, body))) :
        if isRetryableStatus status = true then
          Q ⟨some status, none, invoked⟩ (deliveryFailure true (.number (numberOfInt status))
            (.string (js s!"HTTP {status}")))
        else P ⟨some status, none, invoked⟩ (parseResponse engine status body) :=
      h (.ok (status, body)) hr
    refine ⟨?_, ?_,
      fun name message hr => h (.error (name, message)) hr⟩
    · intro status body hr hstatus
      have hparsed := hanswer status body hr
      rw [hstatus] at hparsed
      exact hparsed
    · intro status body hr hstatus
      have hrefused := hanswer status body hr
      rw [if_pos hstatus] at hrefused
      exact hrefused
  · intro h r hr
    rcases r with ⟨name, message⟩ | ⟨status, body⟩
    · exact h.failed name message hr
    · show if isRetryableStatus status = true then _ else _
      split
      · rename_i hstatus
        exact h.refused status body hr hstatus
      · rename_i hstatus
        exact h.parsed status body hr (Bool.eq_false_of_not_eq_true hstatus)

/-- The last status that an attempt may find. -/
inductive Seen (host : Host (hostSignature Shared)) (engine : Engine) (client : IncidentClient)
    (request : IncidentRequest) (before : Option Nat) : Option Nat → Prop
  | before : Seen host engine client request before before
  | status {status body} : MayAnswer host engine client request (.ok (status, body)) →
      isRetryableStatus status = true → Seen host engine client request before (some status)

section
variable {P : Observed → IncidentResponse → Prop} {Q : Observed → Value → Prop}

/-- What comes after a failure that is retried. -/
theorem watches_sleep {m : Js Shared IncidentResponse} (delay : Nat) :
    Watches host (Observed.see cb) P Q (.ask (.sleep delay : Query Shared) fun _ => m)
        ⟨last, none, invoked⟩ ↔
      Watches host (Observed.see cb) P Q m ⟨last, none, invoked⟩ := by
  constructor
  · intro h
    obtain ⟨r, hr⟩ := host.answers (.sleep delay : Query Shared)
    exact h r hr
  · exact fun h _ _ => h

theorem watches_retry (attempt delay : Nat) (delays : List Nat) :
    Watches host (Observed.see cb) P Q (executeWithRetry engine
        (attemptDelivery engine client request) isRetryableError attempt (delay :: delays))
        ⟨last, none, invoked⟩ ↔
      AttemptEnds host engine client request (fun status => P ⟨some status, none, invoked⟩)
        (fun status => Watches host (Observed.see cb) P Q (executeWithRetry engine
          (attemptDelivery engine client request) isRetryableError (attempt + 1) delays)
          ⟨some status, none, invoked⟩)
        (fun _ => Watches host (Observed.see cb) P Q (executeWithRetry engine
          (attemptDelivery engine client request) isRetryableError (attempt + 1) delays)
          ⟨last, none, invoked⟩) := by
  rw [executeWithRetry, watches_tryCatch, watches_attemptDelivery]
  exact attemptEnds_congr (fun _ => watches_sleep delay) fun _ => watches_sleep delay

/-- The last attempt. -/
theorem watches_lastAttempt {attempt : Nat} (hattempt : attempt = 3) :
    Watches host (Observed.see cb) P (fun t err => Watches host (Observed.see cb) P Q
        (failureResponse err) t) (executeWithRetry engine
        (attemptDelivery engine client request) isRetryableError attempt []) ⟨last, none, invoked⟩ ↔
      AttemptEnds host engine client request (fun status => P ⟨some status, none, invoked⟩)
        (fun status => P ⟨some status, none, invoked⟩
          (exhausted (numberOfInt status) (js s!"HTTP {status}")))
        (fun message => P ⟨last, none, invoked⟩ (exhausted (numberOfInt (-1)) message)) := by
  subst hattempt
  -- the handler of the last attempt, and then the one of `deliver`
  have hlast (x : Double) (s : JsString) (t : Observed) :
      Watches host (Observed.see cb) P (fun t err => Watches host (Observed.see cb) P Q
        (failureResponse err) t) (do
          if !(← isRetryableError (deliveryFailure true (.number x) (.string s))) then
            .throw (deliveryFailure true (.number x) (.string s))
          else
            let err ← withAttemptCountIfNetworkFailure engine
              (deliveryFailure true (.number x) (.string s)) (3 + 1)
            .throw err) t ↔ P t (exhausted x s) := by
    rw [isRetryableError_failure, withAttemptCount_failure]
    show Watches host (Observed.see cb) P Q (failureResponse _) t ↔ _
    rw [failureResponse_counted]
    rfl
  rw [executeWithRetry, watches_tryCatch, watches_attemptDelivery]
  exact attemptEnds_congr (fun _ => hlast _ _ _) fun _ => hlast _ _ _

/-- **What `deliver` resolves with.** -/
theorem watches_deliver :
    Watches host (Observed.see cb) P Q (deliver engine client request) ⟨last, none, invoked⟩ ↔
      ∀ last' r, Resolves host engine client request last last' r →
        P ⟨last', none, invoked⟩ r := by
  have hdeliver : deliver engine client request = (executeWithRetry engine
      (attemptDelivery engine client request) isRetryableError 0 [500, 1000, 2000]).tryCatch
      failureResponse := rfl
  rw [hdeliver, watches_tryCatch]
  simp only [watches_retry, watches_lastAttempt (Eq.refl 3)]
  constructor
  · intro h last' r hr
    cases hr with
    | parsed hanswer hstatus => exact h.parsed _ _ hanswer hstatus
    | refused hanswer hstatus =>
      have hsecond := h.refused _ _ hanswer hstatus
      have hthird := hsecond.refused _ _ hanswer hstatus
      have hlast := hthird.refused _ _ hanswer hstatus
      exact hlast.refused _ _ hanswer hstatus
    | unreachable herror =>
      have hsecond := h.failed _ _ herror
      have hthird := hsecond.failed _ _ herror
      have hlast := hthird.failed _ _ herror
      exact hlast.failed _ _ herror
    | lost herror hanswer hstatus =>
      have hsecond := h.refused _ _ hanswer hstatus
      have hthird := hsecond.failed _ _ herror
      have hlast := hthird.failed _ _ herror
      exact hlast.failed _ _ herror
  · intro h
    -- an attempt ends, or the next one finds the same or another status
    have hstep {X : Option Nat → Prop} (hX : ∀ last', Seen host engine client request last last' →
        X last') (last' : Option Nat) (hseen : Seen host engine client request last last') :
        AttemptEnds host engine client request (fun status => P ⟨some status, none, invoked⟩)
          (fun status => X (some status)) (fun _ => X last') :=
      ⟨fun status body hanswer hstatus => h _ _ (.parsed hanswer hstatus),
        fun status body hanswer hstatus => hX _ (.status hanswer hstatus),
        fun _ _ _ => hX last' hseen⟩
    have hend (last' : Option Nat) (hseen : Seen host engine client request last last') :
        AttemptEnds host engine client request (fun status => P ⟨some status, none, invoked⟩)
          (fun status => P ⟨some status, none, invoked⟩
            (exhausted (numberOfInt status) (js s!"HTTP {status}")))
          (fun message => P ⟨last', none, invoked⟩ (exhausted (numberOfInt (-1)) message)) := by
      refine ⟨fun status body hanswer hstatus => h _ _ (.parsed hanswer hstatus),
        fun status body hanswer hstatus => h _ _ (.refused hanswer hstatus),
        ?_⟩
      intro name message herror
      cases hseen with
      | before => exact h _ _ (.unreachable herror)
      | status hanswer hstatus => exact h _ _ (.lost herror hanswer hstatus)
    exact hstep (hstep (hstep hend)) last .before

end

end

end OppexSdk.Node
