import OppexSdk.Node.Callbacks

/-! # What a task has told its callbacks when it settles

The task as a whole, for any property of what the monitor has seen at its end. From it, exactly when
one callback is invoked, once: nothing that the outer handler catches after a callback was
invoked may be logged, since what follows the log line is `onError`. -/
namespace OppexSdk.Node
open OppexSdk.Lib.Binary64 OppexSdk.Lib.Interaction OppexSdk.Lib.JavaScript

/-! ## The task -/

section
variable (host : Host (hostSignature Shared)) (engine : Engine) (N : Observed → Prop)

/-- An error that reaches a handler is logged and `onError` is invoked, or the log line throws. -/
def Rescued (level : Level) (last : Option Nat) (invoked : List Callback) (err : Value) : Prop :=
  Always host (fun _ => N ⟨last, none, invoked ++ [.onError]⟩)
    (fun _ => N ⟨last, none, invoked⟩) (logLine engine level err)

/-- The callback is invoked; what it throws is logged, and what that throws is rescued. -/
def Told (callbacks : Value) (last : Option Nat) (c : Callback) (arg : Value) : Prop :=
  Always host (fun _ => N ⟨last, none, [c]⟩)
    (fun err => Always host (fun _ => N ⟨last, none, [c]⟩)
      (Rescued host engine N .error last [c]) (logLine engine .warn err))
    (observe callbacks c.key arg)

/-- What the task does about a response. -/
def Concludes (callbacks : Value) (last : Option Nat) (r : IncidentResponse) : Prop :=
  if r.successful = true then
    (r.created = true → LevelThrowsOnly host .info (Rescued host engine N .error last [])) ∧
      ((r.created = true ∧ LevelUnreadable host .info) ∨
        Told host engine N callbacks last .onSuccess r.toValue)
  else
    LevelThrowsOnly host .error (Rescued host engine N .error last []) ∧
      (LevelUnreadable host .error ∨ Told host engine N callbacks last .onError r.toValue)

end

section
variable {host : Host (hostSignature Shared)} {engine : Engine} {client : IncidentClient}
variable {request : IncidentRequest} {cb : Nat} {last last' : Option Nat} {N : Observed → Prop}

theorem wellTyped_exhausted (code : Double) (message : JsString) :
    (exhausted code message).WellTyped :=
  (wellTyped_failedResponse _ _).mpr ⟨rfl, rfl⟩

theorem Resolves.wellTyped {r : IncidentResponse}
    (h : Resolves host engine client request last last' r) : r.WellTyped := by
  cases h with
  | parsed _ _ => exact parseResponse_wellTyped engine _ _
  | refused _ _ => exact wellTyped_exhausted _ _
  | unreachable _ => exact wellTyped_exhausted _ _
  | lost _ _ _ => exact wellTyped_exhausted _ _

/-- The message of a response makes an `Error` without asking anything. -/
theorem newError_text (engine : Engine) {message : Value} (h : message.isNullableString = true)
    (fallback : String) :
    ∃ text, newError engine message fallback = pure (.error (js "Error") text) := by
  cases message with
  | null => exact ⟨js fallback, rfl⟩
  | string s => exact ⟨s, rfl⟩
  | _ => cases h

theorem watches_invoke_told (hs : Supplied host cb) (callable : Bool) (c : Callback) (arg : Value) :
    Watches host (Observed.see cb) (fun t _ => N t) (fun t err => Ends host cb N
        (logAndInvokeOnError engine .error (.object cb callable) err) t)
        (invoke engine (.object cb callable) c.key arg) ⟨last, none, []⟩ ↔
      Told host engine N (.object cb callable) last c arg := by
  rw [watches_invoke hs]
  simp only [ends_logAndInvokeOnError hs]
  rfl

theorem watches_deliverAsync (hs : Supplied host cb) (callable : Bool) :
    Watches host (Observed.see cb) (fun t _ => N t) (fun t err => Ends host cb N
        (logAndInvokeOnError engine .error (.object cb callable) err) t)
        (deliverAsync engine client request (.object cb callable)) Observed.start ↔
      ∀ last r, Resolves host engine client request none last r →
        Concludes host engine N (.object cb callable) last r := by
  rw [deliverAsync, watches_bind, Observed.start, watches_deliver]
  refine forall_congr' fun last => forall_congr' fun r => forall_congr' ?_
  intro hr
  have hrescue (err : Value) : Ends host cb N
      (logAndInvokeOnError engine .error (.object cb callable) err) ⟨last, none, []⟩ ↔
      Rescued host engine N .error last [] err := ends_logAndInvokeOnError hs callable .error err
  unfold Concludes
  rw [watches_ite]
  split
  · rw [watches_bind, watches_ordinary (ordinary_logCreated engine "async" request r)]
    have htold : Watches host (Observed.see cb) (fun t _ => N t) (fun t err => Ends host cb N
        (logAndInvokeOnError engine .error (.object cb callable) err) t)
        (invoke engine (.object cb callable) "onSuccess" r.toValue) ⟨last, none, []⟩ ↔ _ :=
      watches_invoke_told hs callable .onSuccess r.toValue
    simp only [htold, hrescue]
    exact always_created hr.wellTyped "async"
  · obtain ⟨text, htext⟩ := newError_text engine hr.wellTyped.2.1 "incident delivery failed"
    rw [htext]
    show Watches host (Observed.see cb) _ _ (Logger.log .error (js "[oppex-sdk] " ++ text) >>=
      fun _ => invokeOnError engine (.object cb callable) r.toValue) ⟨last, none, []⟩ ↔ _
    rw [watches_bind, watches_ordinary (ordinary_log .error _)]
    have htold : Watches host (Observed.see cb) (fun t _ => N t) (fun t err => Ends host cb N
        (logAndInvokeOnError engine .error (.object cb callable) err) t)
        (invokeOnError engine (.object cb callable) r.toValue) ⟨last, none, []⟩ ↔ _ :=
      watches_invoke_told hs callable .onError r.toValue
    simp only [htold, hrescue]
    exact always_log .error _

/-- **The task**, whatever is asked of what its callbacks have seen. -/
theorem ends_runTask (hs : Supplied host cb) (callable : Bool) (input : Value) :
    Ends host cb N (runTask engine client ⟨input, .object cb callable⟩) Observed.start ↔
      Always host (fun request => ∀ last r, Resolves host engine client request none last r →
          Concludes host engine N (.object cb callable) last r)
        (Rescued host engine N .warn none []) (buildIncidentRequest engine input) := by
  rw [Ends, runTask, watches_bind, watches_attempt, Observed.start,
    watches_ordinary (ordinary_buildIncidentRequest engine input)]
  refine always_congr ?_ ?_
  · intro request
    exact (watches_tryCatch _ _ _).trans (watches_deliverAsync hs callable)
  · intro err
    exact ends_logAndInvokeOnError hs callable .warn err

end

/-! ## One callback, once -/

/-- One of the callbacks has been invoked, once. -/
def Observed.Once (t : Observed) : Prop := ∃ c, t.invoked = [c]

/-- What the task needs of the host. -/
structure TellsOnce (host : Host (hostSignature Shared)) (engine : Engine)
    (client : IncidentClient) (input callbacks : Value) : Prop where
  /-- What reading and checking the input throws can be logged. -/
  invalid : ThrowsOnly host (Loggable host engine .warn) (buildIncidentRequest engine input)
  /-- When an incident is created, what reading `info` throws can be logged; unless that keeps
  `onSuccess` from being invoked, what it throws is contained. -/
  successful : Always host (fun request => ∀ last r,
      Resolves host engine client request none last r → r.successful = true →
      (r.created = true → LevelThrowsOnly host .info (Loggable host engine .error)) ∧
        ((r.created = true ∧ LevelUnreadable host .info) ∨
          Contained host engine callbacks .onSuccess r.toValue))
    (fun _ => True) (buildIncidentRequest engine input)
  /-- After a failure, `error` can be read and what `onError` throws is contained. -/
  failed : Always host (fun request => ∀ last r,
      Resolves host engine client request none last r → r.successful = false →
      LevelReadable host .error ∧ Contained host engine callbacks .onError r.toValue)
    (fun _ => True) (buildIncidentRequest engine input)

section
variable {host : Host (hostSignature Shared)} {engine : Engine} {client : IncidentClient}
variable {last : Option Nat}

theorem once_nil : ¬ Observed.Once ⟨last, none, []⟩ := nofun

theorem once_single (c : Callback) : Observed.Once ⟨last, none, [c]⟩ := ⟨c, rfl⟩

theorem not_once_double (c d : Callback) : ¬ Observed.Once ⟨last, none, [c, d]⟩ := nofun

/-- With no callback invoked so far, the handler has to get to `onError`. -/
theorem rescued_first (level : Level) (err : Value) :
    Rescued host engine Observed.Once level last [] err ↔ Loggable host engine level err := by
  rw [← safe_logLine]
  exact always_congr (fun _ => iff_true_intro (once_single .onError))
    fun _ => iff_false_intro once_nil

/-- After a callback was invoked, the handler must not get there. -/
theorem rescued_second (level : Level) (c : Callback) (err : Value) :
    Rescued host engine Observed.Once level last [c] err ↔ Unloggable host engine level err :=
  always_congr (fun _ => iff_false_intro (not_once_double c .onError))
    fun _ => iff_true_intro (once_single c)

theorem told_once (callbacks : Value) (c : Callback) (arg : Value) :
    Told host engine Observed.Once callbacks last c arg ↔
      Contained host engine callbacks c arg :=
  always_congr (fun _ => iff_true_intro (once_single c)) fun _ =>
    always_congr (fun _ => iff_true_intro (once_single c)) fun err => rescued_second .error c err

theorem concludes_once (callbacks : Value) (r : IncidentResponse) :
    Concludes host engine Observed.Once callbacks last r ↔
      (r.successful = true →
        (r.created = true → LevelThrowsOnly host .info (Loggable host engine .error)) ∧
          ((r.created = true ∧ LevelUnreadable host .info) ∨
            Contained host engine callbacks .onSuccess r.toValue)) ∧
      (r.successful = false →
        LevelReadable host .error ∧ Contained host engine callbacks .onError r.toValue) := by
  unfold Concludes
  simp only [levelThrowsOnly_congr _ (rescued_first .error), told_once, levelThrowsOnly_loggable]
  cases r.successful with
  | true => simp
  | false =>
    simp only [Bool.false_eq_true, if_false, false_imp_iff, true_and, true_imp_iff]
    refine and_congr_right ?_
    intro hreadable
    exact or_iff_right (not_levelUnreadable hreadable)

/-- **One callback is invoked, once**, exactly when the host lets every handler do its work. -/
theorem one_callback_iff (host : Host (hostSignature Shared)) (engine : Engine)
    (client : IncidentClient) (input : Value) (cb : Nat) (callable : Bool)
    (hs : Supplied host cb) :
    Ends host cb Observed.Once (runTask engine client ⟨input, .object cb callable⟩)
        Observed.start ↔
      TellsOnce host engine client input (.object cb callable) := by
  rw [ends_runTask hs, always_iff]
  simp only [concludes_once]
  constructor
  · intro ⟨hdelivered, hinvalid⟩
    refine ⟨?_, ?_, ?_⟩
    · exact Always.mono hinvalid (fun _ h => h) fun err => (rescued_first .warn err).mp
    · exact hdelivered.mono (fun _ h last r hr => (h last r hr).1) fun _ h => h
    · exact hdelivered.mono (fun _ h last r hr => (h last r hr).2) fun _ h => h
  · intro h
    refine ⟨?_, ?_⟩
    · exact (always_and.mpr ⟨h.successful, h.failed⟩).mono
        (fun _ h last r hr => ⟨h.1 last r hr, h.2 last r hr⟩) fun _ _ => trivial
    · exact Always.mono h.invalid (fun _ h => h) fun err => (rescued_first .warn err).mpr

end

/-- The callbacks of object 7 are functions 8 and 9. Object 1 has no prototype. Every request gets
this response, the client is open and logs to the console. -/
def callbackHost (response : Nat × JsString) (onSuccess : Except Value Value) :
    (q : Query Shared) → (hostSignature Shared).Answer q
  | .get ref key =>
    .ok (if ref = 7 ∧ key = "onSuccess" then .object 8 true
      else if ref = 7 ∧ key = "onError" then .object 9 true else .undefined)
  | .has .. | .isError _ => .ok false
  | .toText ref =>
    if ref = 1 then .error (typeError "Cannot convert object to primitive value")
    else .ok (js "[object Object]")
  | .toNumber _ => .ok .nan
  | .call ref _ => if ref = 8 then onSuccess else .ok .undefined
  | .spread _ => .ok []
  | .console .. => .ok ()
  | .now => (1 : Nat)
  | .sleep _ | .write _ => ()
  | .send .. => .ok response
  | .read => ⟨.record [], false, ⟨2, 5000, 0, false, [], 0, ⟨60000, 0, 0⟩⟩⟩

theorem supplied_callbackHost (response : Nat × JsString) (onSuccess : Except Value Value) :
    Supplied (Host.of (callbackHost response onSuccess)) 7 := by
  intro c r hr
  cases c with
  | onSuccess => exact ⟨8, hr⟩
  | onError => exact ⟨9, hr⟩

/-- An engine for texts without numbers, and for one JSON text. -/
def envelopeEngine (body : JsString) : Engine where
  numberText _ := js "0"
  textNumber _ := .nan
  parse text := if text = body then some (.record [("success", .boolean true)]) else none
  stringify _ := []

def callbackClient : IncidentClient := ⟨js "key", none⟩

def plainInput : Value :=
  .record [("title", .string (js "Outage")), ("source", .string (js "node"))]

theorem one_callback_iff_created :
    Supplied (Host.of (callbackHost (201, []) (.ok .undefined))) 7 ∧
      TellsOnce (Host.of (callbackHost (201, []) (.ok .undefined))) (envelopeEngine [])
        callbackClient plainInput (.object 7 false) := by
  have hs := supplied_callbackHost (201, []) (.ok .undefined)
  refine ⟨hs, (one_callback_iff _ _ _ _ 7 false hs).mp (ends_of.mpr ⟨.onSuccess, ?_⟩)⟩
  decide +kernel

/-- `onSuccess` throws an object that has no string; describing it throws, and the outer handler
reports that to `onError`. -/
theorem both_callbacks_are_invoked :
    Supplied (Host.of (callbackHost (201, []) (.error (.object 1 false)))) 7 ∧
      Ends (Host.of (callbackHost (201, []) (.error (.object 1 false)))) 7
        (fun t => t.invoked = [.onSuccess, .onError])
        (runTask (envelopeEngine []) callbackClient ⟨plainInput, .object 7 false⟩)
        Observed.start ∧
      ¬ Ends (Host.of (callbackHost (201, []) (.error (.object 1 false)))) 7 Observed.Once
        (runTask (envelopeEngine []) callbackClient ⟨plainInput, .object 7 false⟩)
        Observed.start := by
  have htwice : Ends (Host.of (callbackHost (201, []) (.error (.object 1 false)))) 7
      (fun t => t.invoked = [.onSuccess, .onError])
      (runTask (envelopeEngine []) callbackClient ⟨plainInput, .object 7 false⟩)
      Observed.start := by
    refine ends_of.mpr ?_
    decide +kernel
  refine ⟨supplied_callbackHost _ _, htwice, ?_⟩
  intro honce
  obtain ⟨c, hc⟩ := ends_of.mp honce
  have htwice := ends_of.mp htwice
  rw [htwice] at hc
  cases hc

end OppexSdk.Node
