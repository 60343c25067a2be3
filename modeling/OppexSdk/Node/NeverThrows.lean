import OppexSdk.Node.Delivery

/-! # When the two calls of the Node client keep from throwing

The calls are run against a host that may answer anything. Each exception that reaches the caller
comes from host code that runs outside of every `try` block, or in a `catch` block. -/
namespace OppexSdk.Node
open OppexSdk.Lib.Binary64 OppexSdk.Lib.Interaction OppexSdk.Lib.JavaScript

section
variable (host : Host (hostSignature Shared)) (engine : Engine) (client : IncidentClient)
variable (input callbacks : Value)

/-- What `sendIncident` needs of the host. -/
structure Reports : Prop where
  closed : ∀ s, May host s → s.closed = true → LevelReadable host .warn
  /-- What reading and checking the input throws can be reported. -/
  invalid : ∀ s, May host s → s.closed = false →
    ThrowsOnly host (Reportable host engine .warn) (buildIncidentRequest engine input)
  /-- When an incident is created, what reading `info` throws can be reported. -/
  created : ∀ s, May host s → s.closed = false →
    Always host (fun request => Delivered host engine client request fun r => r.created = true →
      LevelThrowsOnly host .info (Reportable host engine .error)) (fun _ => True)
      (buildIncidentRequest engine input)

/-- What `sendIncidentAsync` needs of the host. -/
structure Accepts : Prop where
  closed : ∀ s, May host s → s.closed = true → LevelReadable host .warn ∧
    ThrowsOnly host (Describable host engine)
      (observe (callbacksOr callbacks) "onError" clientClosedError)
  title : ∀ s, May host s → s.closed = false → input.truthy = true →
    Returns host (Printable host engine) (getProp input "title")
  debug : ∀ s, May host s → s.closed = false → LevelReadable host .debug
  /-- The submit that drops a task logs the drops of the interval. -/
  overflow : ∀ s, May host s → s.closed = false → ∀ s' now, May host s' →
    host.allows (.now : Query Shared) now → s'.dispatcher.overflows = true →
    s'.dispatcher.logDue now = true → LevelReadable host .warn

end

section
variable {host : Host (hostSignature Shared)} {engine : Engine} {client : IncidentClient}
variable {input callbacks : Value} {request : IncidentRequest} {Q : Value → Prop}

theorem always_logCreated {r : IncidentResponse} (hr : r.WellTyped) (mode : String) :
    Always host (fun _ => r.WellTyped) Q (logCreated engine mode request r) ↔
      (r.created = true → LevelThrowsOnly host .info Q) := by
  rw [always_created hr mode]
  simp only [hr, or_true, and_true]

theorem always_deliverSync :
    Always host IncidentResponse.WellTyped Q (deliverSync engine client request) ↔
      Delivered host engine client request fun r =>
        r.created = true → LevelThrowsOnly host .info Q := by
  simp only [deliverSync, always_bind, always_pure]
  constructor
  · intro h status body hr hstatus
    exact (always_logCreated (parseResponse_wellTyped ..) _).mp
      (delivered_of_always h status body hr hstatus)
  · intro h
    refine (returns_deliver (P := fun r => r.WellTyped ∧
      (r.created = true → LevelThrowsOnly host .info Q)) ?_ ?_).mono ?_ fun _ => False.elim
    · exact fun status body hr hstatus =>
        ⟨parseResponse_wellTyped .., h status body hr hstatus⟩
    · exact fun code message hc hm =>
        ⟨(wellTyped_failedResponse code message).mpr ⟨hm, hc⟩, fun hcr => by cases hcr⟩
    · exact fun r h => (always_logCreated h.1 _).mpr h.2

/-- An error of the SDK or the engine can be reported wherever the level can be read. -/
theorem reportable_error {level : Level} {name message : JsString} :
    Reportable host engine level (.error name message) ↔ LevelReadable host level := by
  have hconv : Convertible host engine (.error name message) := by
    simp [Convertible, Value.isObject, hasProp, Returns, DescribedByText, instanceofError, getProp,
      Value.isNullableString]
  exact ⟨fun h => h.readable, fun h => ⟨trivial, h, hconv⟩⟩

/-- `sendIncident` resolves with a response. -/
theorem returns_sendIncident :
    Returns host IncidentResponse.WellTyped (sendIncident engine client input) ↔
      Reports host engine client input := by
  have hreport (level : Level) (v : Value) : Always host IncidentResponse.WellTyped
      (fun _ => False) (reportFailure engine level v) ↔ Reportable host engine level v :=
    returns_reportFailure level v
  have hclosed : Reportable host engine .warn clientClosedError ↔ LevelReadable host .warn :=
    reportable_error
  -- after the look at `closed`
  have hcall : Returns host IncidentResponse.WellTyped (sendIncident engine client input) ↔
      ∀ s, May host s → if s.closed = true then LevelReadable host .warn
        else Always host (fun request => Delivered host engine client request fun r =>
          r.created = true → LevelThrowsOnly host .info (Reportable host engine .error))
          (Reportable host engine .warn) (buildIncidentRequest engine input) := by
    simp only [Returns, sendIncident, shared, always_bind, Always, always_ite, always_attempt,
      always_tryCatch, hreport, hclosed, always_deliverSync]
    rfl
  rw [hcall]
  constructor
  · intro h
    refine ⟨fun s hs hc => ?_, fun s hs hc => ?_, fun s hs hc => ?_⟩ <;>
      have hs := h s hs <;> simp only [hc, if_true, Bool.false_eq_true, if_false] at hs
    · exact hs
    · exact (always_iff.mp hs).2
    · exact (always_iff.mp hs).1
  · intro h s hs
    split
    · rename_i hc
      exact h.closed s hs hc
    · rename_i hc
      have hc := Bool.eq_false_of_not_eq_true hc
      exact always_iff.mpr ⟨h.created s hs hc, h.invalid s hs hc⟩

/-! ## `sendIncidentAsync` -/

theorem safe_setDispatcher (d : AsyncDispatcher Task) : Safe host (setDispatcher d) :=
  fun _ _ _ _ => trivial

theorem safe_dropOldest (d : AsyncDispatcher Task) :
    Safe host (dropOldest d) ↔
      ∀ now, host.allows (.now : Query Shared) now → d.logDue now = true →
        LevelReadable host .warn := by
  have hset {c : Prop} (d : AsyncDispatcher Task) : Always host (fun _ => c) (fun _ => False)
      (setDispatcher d) ↔ c := (safe_setDispatcher d).always_const
  simp only [Safe, Returns, dropOldest, Always, always_ite, always_bind, hset]
  refine forall_congr' fun now => imp_congr Iff.rfl ?_
  cases d.logDue now with
  | true =>
    simp only [if_true, true_imp_iff]
    exact throwsOnly_log .warn _
  | false => simp

theorem safe_run (d : AsyncDispatcher Task) (task : Task) :
    Safe host (run engine client d task) := by
  simp only [Safe, Returns, run, always_bind, (safe_setDispatcher _).always_const]
  exact safe_start _ _

/-- After the drop, the push. -/
theorem safe_submit (task : Task) : Safe host (submit engine client task) ↔
    ∀ s now, May host s → host.allows (.now : Query Shared) now →
      s.dispatcher.overflows = true → s.dispatcher.logDue now = true →
      LevelReadable host .warn := by
  have hrun (d : AsyncDispatcher Task) : Always host (fun _ => True) (fun _ => False)
      (run engine client d task) ↔ True := iff_true_intro (safe_run d task)
  have hset (d : AsyncDispatcher Task) : Always host (fun _ => True) (fun _ => False)
      (setDispatcher d) ↔ True := iff_true_intro (safe_setDispatcher d)
  have hdrop (d : AsyncDispatcher Task) : Always host (fun _ => True) (fun _ => False)
      (dropOldest d) ↔ _ := safe_dropOldest d
  simp only [Safe, Returns, submit, always_shared, always_bind, always_ite, always_pure, hrun,
    hset, implies_true]
  refine ⟨?_, ?_⟩
  · intro h s now hs hnow hover hdue
    have hs := h s hs
    simp only [AsyncDispatcher.overflows, Bool.and_eq_true, Bool.not_eq_true', decide_eq_true_eq]
      at hover
    rw [hover.1.1, if_neg Bool.false_ne_true, if_neg (by omega), if_pos hover.2] at hs
    exact (hdrop _).mp hs now hnow hdue
  · intro h s hs
    split
    · trivial
    · rename_i hclosed
      split
      · trivial
      · rename_i hactive
        split
        · rename_i hfull
          refine (hdrop _).mpr fun now hnow hdue => h s now hs hnow ?_ hdue
          simp only [AsyncDispatcher.overflows, Bool.and_eq_true, Bool.not_eq_true',
            decide_eq_true_eq]
          exact ⟨⟨Bool.eq_false_of_not_eq_true hclosed, by omega⟩, hfull⟩
        · trivial

theorem printable_of_falsy {v : Value} (h : v.truthy = false) : Printable host engine v := by
  cases v <;> trivial

/-- A callback that throws what can be described. -/
theorem safe_invokeOnError (err : Value) (hwarn : LevelReadable host .warn) :
    Safe host (invokeOnError engine callbacks err) ↔
      ThrowsOnly host (Describable host engine) (observe callbacks "onError" err) := by
  have hlog (v : Value) : Always host (fun message => Always host (fun _ => True)
      (fun _ => False) (Logger.warn message)) (fun _ => False) (logMessage engine v) ↔
      Describable host engine v := by
    have hsafe (message : JsString) : Always host (fun _ => True) (fun _ => False)
        (Logger.warn message) ↔ True := iff_true_intro ((throwsOnly_log .warn message).mpr hwarn)
    simp only [hsafe]
    exact safe_logMessage v
  simp only [Safe, Returns, invokeOnError, invoke, always_tryCatch, always_bind, hlog]
  rfl

/-- A call on a closed client. -/
theorem safe_closed : Safe host (logAndInvokeOnError engine .warn callbacks clientClosedError) ↔
    LevelReadable host .warn ∧
      ThrowsOnly host (Describable host engine) (observe callbacks "onError" clientClosedError) := by
  have hlog (message : JsString) : Always host
      (fun _ => Safe host (invokeOnError engine callbacks clientClosedError)) (fun _ => False)
      (Logger.log .warn message) ↔ LevelReadable host .warn ∧
        Safe host (invokeOnError engine callbacks clientClosedError) := returns_log .warn message
  simp only [Safe, Returns] at hlog
  simp only [Safe, Returns, logAndInvokeOnError, always_bind, hlog]
  have hmessage : Safe host (logMessage engine clientClosedError) :=
    (safe_logMessage clientClosedError).mpr trivial
  refine returns_const.trans ((and_iff_right hmessage).trans ?_)
  exact and_congr_right fun hwarn => safe_invokeOnError clientClosedError hwarn

/-- A call on an open client. -/
theorem safe_open (task : Task) {prefixText : JsString} :
    Safe host (do
      let title ← if input.truthy then getProp input "title" else pure input
      let text ← toText engine title
      Logger.debug (prefixText ++ text)
      submit engine client task) ↔
    (input.truthy = true → Returns host (Printable host engine) (getProp input "title")) ∧
      LevelReadable host .debug ∧ Safe host (submit engine client task) := by
  have hdebug (message : JsString) : Always host
      (fun _ => Always host (fun _ => True) (fun _ => False) (submit engine client task))
      (fun _ => False) (Logger.debug message) ↔ LevelReadable host .debug ∧
        Safe host (submit engine client task) := returns_log .debug message
  have htext (title : Value) : Always host (fun _ => LevelReadable host .debug ∧
      Safe host (submit engine client task)) (fun _ => False) (toText engine title) ↔
      Printable host engine title ∧ LevelReadable host .debug ∧
        Safe host (submit engine client task) := returns_const
  rw [Safe, Returns]
  simp only [always_bind, hdebug, htext, always_ite, always_pure]
  cases htruthy : input.truthy with
  | true =>
    simp only [if_true, true_imp_iff]
    exact returns_and_const
  | false => simp [printable_of_falsy htruthy]

/-- `sendIncidentAsync` returns. -/
theorem safe_sendIncidentAsync :
    Safe host (sendIncidentAsync engine client input callbacks) ↔
      Accepts host engine input callbacks := by
  have hcall : Safe host (sendIncidentAsync engine client input callbacks) ↔
      ∀ s, May host s → if s.closed = true
        then Safe host (logAndInvokeOnError engine .warn (callbacksOr callbacks) clientClosedError)
        else Safe host (do
          let title ← if input.truthy then getProp input "title" else pure input
          let text ← toText engine title
          Logger.debug (js "[oppex-sdk] Incident queued for async delivery: " ++ text)
          submit engine client ⟨input, callbacksOr callbacks⟩) := by
    simp only [Safe, Returns, sendIncidentAsync, always_bind, always_shared, always_ite]
  simp only [hcall, safe_closed, safe_open, safe_submit]
  constructor
  · intro h
    refine ⟨fun s hs hc => ?_, fun s hs hc => ?_, fun s hs hc => ?_, fun s hs hc => ?_⟩ <;>
      have hs := h s hs <;> simp only [hc, if_true, Bool.false_eq_true, if_false] at hs
    · exact hs
    · exact hs.1
    · exact hs.2.1
    · exact hs.2.2
  · intro h s hs
    split
    · rename_i hc
      exact h.closed s hs hc
    · rename_i hc
      have hc := Bool.eq_false_of_not_eq_true hc
      exact ⟨h.title s hs hc, h.debug s hs hc, h.overflow s hs hc⟩

/-- **The two calls keep from throwing exactly when the host keeps them from it.** -/
theorem calls_never_throw_iff (host : Host (hostSignature Shared)) (engine : Engine)
    (client : IncidentClient) (input callbacks : Value) :
    Returns host IncidentResponse.WellTyped (sendIncident engine client input) ∧
      Safe host (sendIncidentAsync engine client input callbacks) ↔
    Reports host engine client input ∧ Accepts host engine input callbacks :=
  and_congr returns_sendIncident safe_sendIncidentAsync

end

/-! ## A title that throws -/

/-- Reading the title of object 0 throws object 1, which has no prototype. The client is open, idle
and logs to the console. -/
def bareHost : (q : Query Shared) → (hostSignature Shared).Answer q
  | .get ref key =>
    if ref = 0 ∧ key = "title" then .error (.object 1 false) else .ok .undefined
  | .has .. | .isError _ => .ok false
  | .toText ref =>
    if ref = 1 then .error (typeError "Cannot convert object to primitive value")
    else .ok (js "[object Object]")
  | .toNumber _ => .ok .nan
  | .call .. => .ok .undefined
  | .spread _ => .ok []
  | .console .. => .ok ()
  | .now => (1 : Nat)
  | .sleep _ | .write _ => ()
  | .send .. => .ok (201, [])
  | .read => ⟨.record [], false, ⟨2, 5000, 0, false, [], 0, ⟨60000, 0, 0⟩⟩⟩

/-- An engine for calls that convert no number and parse nothing. -/
def bareEngine : Engine := ⟨fun _ => js "0", fun _ => .nan, fun _ => none, fun _ => []⟩

def bareClient : IncidentClient := ⟨js "key", none⟩

/-- The thrown object cannot be described, and a symbol cannot be part of a template. -/
theorem titles_that_throw :
    ¬ Returns (Host.of bareHost) IncidentResponse.WellTyped
        (sendIncident bareEngine bareClient (.object 0 false)) ∧
      ¬ Safe (Host.of bareHost)
        (sendIncidentAsync bareEngine bareClient (.object 0 false) .undefined) ∧
      ¬ Safe (Host.of bareHost)
        (sendIncidentAsync bareEngine bareClient (.record [("title", .symbol 0 (js "t"))])
          .undefined) := by
  refine ⟨?_, ?_, ?_⟩
  · intro h
    exact always_of.mp h
  · intro h
    exact always_of.mp h
  · intro h
    exact always_of.mp h

end OppexSdk.Node
