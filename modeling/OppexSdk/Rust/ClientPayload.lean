import OppexSdk.Rust.Client

/-! # What the Rust client puts on the wire

End to end: from the builders of a client and of its requests, through whichever post method and
whichever thread, to the payloads handed to `Transport::send`. A call goes through a few phases
that fix where its arguments, its delivery and its task are; every step keeps every call in a
phase, and the payloads are read off it. -/
namespace OppexSdk.Rust.Client
open OppexSdk.Lib OppexSdk.Lib.Transition OppexSdk.Lib.Json OppexSdk.Rust.Dispatcher
open OppexSdk.Rust.Transport (trimIsEmpty Attempt IncidentResponse)
open OppexSdk.Rust.Retry (withAttemptCount defaultRetryDelays)

variable {cfg : Config} {κ : Type}

/-- The errors that say the call did nothing. -/
def isRefusal : IncidentError κ → Bool
  | .invalidRequest _ | .clientClosed => true
  | .delivery _ => false

/-! ## The checks of a call -/

/-- The call is refused for its service key. -/
def KeyRefused (inner : Inner) (call : Call κ) : Prop :=
  if call.method.routed then call.request.serviceKey ≠ none
  else inner.serviceKey = none ∧ call.request.serviceKey = none

instance (inner : Inner) (call : Call κ) : Decidable (KeyRefused inner call) := by
  unfold KeyRefused; infer_instance

/-- What a call delivers once it is past its checks. -/
def Call.arguments (inner : Inner) (call : Call κ) : Arguments :=
  ⟨call.request, if call.method.routed then none else inner.serviceKey⟩

theorem enter_closed (inner : Inner) (call : Call κ) :
    call.enter inner true = .error .clientClosed := by
  unfold Call.enter
  cases call.method <;> rfl

theorem enter_open (inner : Inner) (call : Call κ) :
    (KeyRefused inner call ∧ ∃ message, call.enter inner false = .error (.invalidRequest message)) ∨
      (¬ KeyRefused inner call ∧ call.enter inner false = .ok (call.arguments inner)) := by
  have hkey : ∀ request : IncidentRequest,
      (inner.serviceKey = none ∧ request.serviceKey = none) ∧
          (∃ message, post inner false request =
            (.error (.invalidRequest message) : Except (IncidentError κ) Arguments)) ∨
        ¬ (inner.serviceKey = none ∧ request.serviceKey = none) ∧
          post inner false request =
            (.ok ⟨request, inner.serviceKey⟩ : Except (IncidentError κ) Arguments) := by
    intro request
    unfold post requireServiceKey
    cases inner.serviceKey with
    | none =>
      cases request.serviceKey with
      | none => exact .inl ⟨⟨rfl, rfl⟩, _, rfl⟩
      | some key => exact .inr ⟨by simp, rfl⟩
    | some key => exact .inr ⟨by simp, rfl⟩
  have hroute : ∀ request : IncidentRequest,
      request.serviceKey ≠ none ∧
          (∃ message, postWithServiceRouting false request =
            (.error (.invalidRequest message) : Except (IncidentError κ) Arguments)) ∨
        ¬ request.serviceKey ≠ none ∧
          postWithServiceRouting false request =
            (.ok ⟨request, none⟩ : Except (IncidentError κ) Arguments) := by
    intro request
    unfold postWithServiceRouting requireServiceRoutable
    cases request.serviceKey with
    | none => exact .inr ⟨by simp, rfl⟩
    | some key => exact .inl ⟨by simp, _, rfl⟩
  unfold KeyRefused Call.enter Call.arguments
  cases call.method with
  | post => exact hkey call.request
  | postWithServiceRouting => exact hroute call.request
  | postAsync => exact hkey call.request
  | postAsyncWithServiceRouting => exact hroute call.request

theorem enter_eq_ok {inner : Inner} {closed : Bool} {call : Call κ} {args : Arguments}
    (h : call.enter inner closed = .ok args) :
    ¬ KeyRefused inner call ∧ args = call.arguments inner := by
  cases closed with
  | true => rw [enter_closed] at h; cases h
  | false =>
    rcases enter_open inner call with ⟨-, message, he⟩ | ⟨hkey, he⟩
    · rw [he] at h; cases h
    · rw [he] at h; cases h
      exact ⟨hkey, rfl⟩

theorem enter_eq_error {inner : Inner} {closed : Bool} {call : Call κ} {e : IncidentError κ}
    (h : call.enter inner closed = .error e) : isRefusal e = true := by
  cases closed with
  | true => rw [enter_closed] at h; cases h; rfl
  | false =>
    rcases enter_open inner call with ⟨-, message, he⟩ | ⟨-, he⟩
    · rw [he] at h; cases h; rfl
    · rw [he] at h; cases h

/-! ## Failures of a delivery -/

theorem send_error {fromStr : String → Except κ Transport.Value} {network : Attempt κ}
    {e : IncidentError κ} (h : Transport.send fromStr network = .error e) :
    isRefusal e = false := by
  cases network with
  | noStatusLine cause => cases h; rfl
  | givenUp status cause => cases h; rfl
  | responded status body =>
    cases body with
    | exceeded cause => cases h; rfl
    | failed cause => cases h; rfl
    | text body =>
      obtain ⟨f, rfl, -⟩ := Transport.send_text_error h
      rfl

theorem isRefusal_withAttemptCount (e : IncidentError κ) (n : Nat) :
    isRefusal (withAttemptCount e n) = isRefusal e := by
  cases e with
  | delivery f => unfold withAttemptCount; dsimp only; split <;> rfl
  | _ => rfl

/-! ## The phases of a call -/

/-- The delivery works on this payload, and a failure it returns is no refusal. -/
def DeliveryPc.WorksOn (payload : Bytes) : DeliveryPc κ → Prop
  | .calling p _ | .sending p _ | .waiting p _ => p = payload
  | .returned (.error e) => isRefusal e = false
  | _ => True

/-- The call, what it delivers, its delivery and its `submit`, in every combination that occurs. -/
inductive Phase (render : String → Bytes) (inner : Inner) :
    CallPc κ → Option Arguments → DeliveryPc κ → SubmitPc → Prop
  | outside : Phase render inner .outside none .outside .outside
  | refused {call e} : isRefusal e = true →
      Phase render inner (.returned call (.error e)) none .outside .outside
  | delivering {call d} : ¬ KeyRefused inner call → call.method.queued = false →
      d.WorksOn ((call.arguments inner).payload render) →
      Phase render inner (.delivering call) (some (call.arguments inner)) d .outside
  | delivered {call result} : ¬ KeyRefused inner call →
      (∀ e, result = .error e → isRefusal e = false) →
      Phase render inner (.returned call (result.map some)) (some (call.arguments inner))
        (.returned result) .outside
  | unwound {call} : ¬ KeyRefused inner call →
      Phase render inner (.unwound call) (some (call.arguments inner)) .panicked .outside
  | submitting {call d submit} : ¬ KeyRefused inner call →
      d.WorksOn ((call.arguments inner).payload render) → (d ≠ .outside → submit.Pushed) →
      Phase render inner (.submitting call) (some (call.arguments inner)) d submit
  | accepted {call d} : ¬ KeyRefused inner call →
      d.WorksOn ((call.arguments inner).payload render) →
      Phase render inner (.returned call (.ok none)) (some (call.arguments inner)) d
        (.returned true)
  | dropped {call} : ¬ KeyRefused inner call →
      Phase render inner (.returned call (.error .clientClosed)) (some (call.arguments inner))
        .outside (.returned false)

namespace Phase
variable {render : String → Bytes} {inner : Inner} {pc : CallPc κ} {args : Option Arguments}
variable {d d' : DeliveryPc κ} {submit : SubmitPc}

theorem refuse {call : Call κ} {e : IncidentError κ}
    (h : Phase render inner .outside args d submit) (he : isRefusal e = true) :
    Phase render inner (.returned call (.error e)) args d submit := by
  cases h with
  | outside => exact .refused he

theorem enter {call : Call κ} (h : Phase render inner .outside args d submit)
    (hkey : ¬ KeyRefused inner call) :
    Phase render inner (if call.method.queued then .submitting call else .delivering call)
      (some (call.arguments inner)) d submit := by
  cases h with
  | outside =>
    cases hq : call.method.queued with
    | true => exact .submitting hkey trivial fun hout => absurd rfl hout
    | false => exact .delivering hkey hq trivial

theorem deliverReturn {call : Call κ} {result : Except (IncidentError κ) IncidentResponse}
    (h : Phase render inner (.delivering call) args (.returned result) submit) :
    Phase render inner (.returned call (result.map some)) args (.returned result) submit := by
  cases h with
  | delivering hkey _ hw =>
    refine .delivered hkey ?_
    intro e he
    subst he
    exact hw

theorem deliverUnwind {call : Call κ}
    (h : Phase render inner (.delivering call) args .panicked submit) :
    Phase render inner (.unwound call) args .panicked submit := by
  cases h with
  | delivering hkey _ _ => exact .unwound hkey

theorem submitReturn {call : Call κ} {accepted : Bool}
    (h : Phase render inner (.submitting call) args d (.returned accepted)) :
    Phase render inner (.returned call (if accepted then .ok none else .error .clientClosed)) args d
      (.returned accepted) := by
  cases h with
  | submitting hkey hw hp =>
    cases accepted with
    | true => exact .accepted hkey hw
    | false =>
      -- a task that was not pushed is never executed
      have hd : d = .outside := by
        by_contra hout
        cases hp hout
      subst hd
      exact .dropped hkey

/-- A delivery in the middle of its loop goes on. -/
theorem deliver (h : Phase render inner pc args d submit) (hout : d ≠ .outside)
    (hreturned : d.hasReturned = false) (hpanicked : d.hasPanicked = false)
    (hd : ∀ payload, d.WorksOn payload → d'.WorksOn payload) :
    Phase render inner pc args d' submit := by
  cases h with
  | outside => exact absurd rfl hout
  | refused _ => exact absurd rfl hout
  | delivering hkey hsync hw => exact .delivering hkey hsync (hd _ hw)
  | delivered _ _ => cases hreturned
  | unwound _ => cases hpanicked
  | submitting hkey hw hp => exact .submitting hkey (hd _ hw) fun _ => hp hout
  | accepted hkey hw => exact .accepted hkey (hd _ hw)
  | dropped _ => exact absurd rfl hout

/-- A delivery begins inside its call, or by a worker that popped its task. -/
theorem begin {arguments : Arguments}
    (h : Phase render inner pc (some arguments) .outside submit)
    (hwho : pc.isDelivering = true ∨ submit.Pushed) :
    Phase render inner pc (some arguments) (.calling (arguments.payload render) 0) submit := by
  cases h with
  | delivering hkey hsync _ => exact .delivering hkey hsync rfl
  | submitting hkey _ _ =>
    have hp : submit.Pushed := hwho.resolve_left Bool.false_ne_true
    exact .submitting hkey rfl fun _ => hp
  | accepted hkey _ => exact .accepted hkey rfl
  | dropped _ =>
    have hp : (SubmitPc.returned false).Pushed := hwho.resolve_left Bool.false_ne_true
    cases hp

/-- The `submit` of a call enters its critical section. -/
theorem enterSubmit {submit' : SubmitPc} (h : Phase render inner pc args d .outside)
    (hpc : pc.isSubmitting = true) : Phase render inner pc args d submit' := by
  cases h with
  | submitting hkey hw hp => exact .submitting hkey hw fun hout => (hp hout).elim
  | _ => cases hpc

/-- The notification is done and `submit` returns. -/
theorem leaveSubmit {dropped : Option Nat}
    (h : Phase render inner pc args d (.notifying dropped)) :
    Phase render inner pc args d (.returned true) := by
  cases h with
  | submitting hkey hw _ => exact .submitting hkey hw fun _ => rfl

end Phase

/-! ## Every step keeps every call in a phase -/

/-- The dispatcher's own bookkeeping, the phases, and where the payloads came from. -/
structure Consistent (render : String → Bytes) (inner : Inner) (s : IncidentClient cfg κ) :
    Prop where
  inner_eq : s.inner = inner
  accounted : Accounted s.dispatcher
  pushed : ∀ k ∈ s.dispatcher.accepted, (s.dispatcher.submits k).Pushed
  phase : ∀ c, Phase render inner (s.calls c) (s.arguments c) (s.deliveries c)
    (s.dispatcher.submits c)
  sent : ∀ entry ∈ s.sent, s.deliveries entry.1 ≠ .outside ∧
    ∃ args, s.arguments entry.1 = some args ∧ entry.2 = args.payload render

theorem Consistent.init (render : String → Bytes) (inner : Inner) :
    Consistent render inner (.new cfg inner : IncidentClient cfg κ) where
  inner_eq := rfl
  accounted := .init
  pushed := fun k hk => by cases hk
  phase := fun c => .outside
  sent := fun entry hentry => by cases hentry

section
variable {render : String → Bytes} {fromStr : String → Except κ Transport.Value} {inner : Inner}
variable {s t : IncidentClient cfg κ} {l : Label cfg κ}

/-- One call moves on. -/
theorem Consistent.callMoves (h : Consistent render inner s) {c : Nat} {pc : CallPc κ}
    (hpc : Phase render inner pc (s.arguments c) (s.deliveries c) (s.dispatcher.submits c)) :
    Consistent render inner { s with calls := Function.update s.calls c pc } := by
  refine ⟨h.inner_eq, h.accounted, h.pushed, ?_, h.sent⟩
  exact (Function.forall_update_iff s.calls fun e pc =>
    Phase render inner pc (s.arguments e) (s.deliveries e) (s.dispatcher.submits e)).mpr
    ⟨hpc, fun e _ => h.phase e⟩

/-- One delivery moves on, possibly by handing its payload to the transport. -/
theorem Consistent.deliveryMoves (h : Consistent render inner s) {e : Nat} {d : DeliveryPc κ}
    {sent : List (Nat × Bytes)} (hd : d ≠ .outside)
    (hphase : Phase render inner (s.calls e) (s.arguments e) d (s.dispatcher.submits e))
    (hsent : ∀ entry ∈ sent, entry ∈ s.sent ∨ entry.1 = e ∧
      ∃ args, s.arguments e = some args ∧ entry.2 = args.payload render) :
    Consistent render inner { s with
      deliveries := Function.update s.deliveries e d
      sent := sent } := by
  refine ⟨h.inner_eq, h.accounted, h.pushed, ?_, ?_⟩
  · exact (Function.forall_update_iff s.deliveries fun c d =>
      Phase render inner (s.calls c) (s.arguments c) d (s.dispatcher.submits c)).mpr
      ⟨hphase, fun c _ => h.phase c⟩
  · intro entry hentry
    dsimp only
    by_cases hc : entry.1 = e
    · rw [hc, Function.update_self]
      refine ⟨hd, ?_⟩
      rcases hsent entry hentry with hold | ⟨-, hnew⟩
      · rw [← hc]; exact (h.sent entry hold).2
      · exact hnew
    · rw [Function.update_of_ne hc]
      rcases hsent entry hentry with hold | ⟨heq, -⟩
      · exact h.sent entry hold
      · exact absurd heq hc

/-- A delivery with a payload works on the payload of its call. -/
theorem Phase.payload {pc : CallPc κ} {args : Option Arguments} {payload : Bytes} {i : Nat}
    {submit : SubmitPc} (h : Phase render inner pc args (.calling payload i) submit) :
    ∃ arguments, args = some arguments ∧ payload = arguments.payload render := by
  cases h with
  | delivering _ _ hw => exact ⟨_, rfl, hw⟩
  | submitting _ hw _ => exact ⟨_, rfl, hw⟩
  | accepted _ hw => exact ⟨_, rfl, hw⟩

theorem consistent_dispatch (h : Consistent render inner s) {l : Dispatcher.Label cfg}
    {dispatcher : AsyncDispatcher cfg} (hready : s.ready l = true)
    (hstep : Dispatcher.step s.dispatcher l = some dispatcher) :
    Consistent render inner { s with dispatcher := dispatcher } := by
  refine ⟨h.inner_eq, accounted_step hstep h.accounted, accepted_pushed_step hstep h.pushed,
    ?_, h.sent⟩
  intro c
  have hphase := h.phase c
  dsimp only
  rcases submits_step hstep c with hsame | ⟨⟨elapsed, rfl⟩, hout⟩ | ⟨⟨dropped, hnotify⟩, hreturned⟩
  · rw [hsame]; exact hphase
  · rw [hout] at hphase
    exact hphase.enterSubmit hready
  · rw [hnotify] at hphase
    rw [hreturned]
    exact hphase.leaveSubmit

/-- One call enters. -/
theorem Consistent.callEnters (h : Consistent render inner s) {c : Nat} {call : Call κ}
    (hc : s.calls c = .outside) (hkey : ¬ KeyRefused inner call) :
    Consistent render inner { s with
      calls := Function.update s.calls c
        (if call.method.queued then .submitting call else .delivering call)
      arguments := Function.update s.arguments c (some (call.arguments inner)) } := by
  have hphase := h.phase c
  rw [hc] at hphase
  refine ⟨h.inner_eq, h.accounted, h.pushed, ?_, ?_⟩
  · intro e
    dsimp only
    by_cases he : e = c
    · subst he
      rw [Function.update_self, Function.update_self]
      exact hphase.enter hkey
    · rw [Function.update_of_ne he, Function.update_of_ne he]
      exact h.phase e
  · intro entry hentry
    obtain ⟨hout, args, hargs, hpayload⟩ := h.sent entry hentry
    refine ⟨hout, args, ?_, hpayload⟩
    have he : entry.1 ≠ c := by
      intro heq
      rw [heq] at hargs
      rw [hargs] at hphase
      cases hphase
    dsimp only
    rw [Function.update_of_ne he]
    exact hargs

theorem consistent_step (hstep : step render fromStr s l = some t)
    (h : Consistent render inner s) : Consistent render inner t := by
  have hkeep : ∀ e : Nat, ∀ entry ∈ s.sent, entry ∈ s.sent ∨ entry.1 = e ∧
      ∃ args, s.arguments e = some args ∧ entry.2 = args.payload render :=
    fun e entry hentry => .inl hentry
  -- the delivery is in its loop and stays with its payload
  have hloop : ∀ {e : Nat} {d d' : DeliveryPc κ}, s.deliveries e = d → d ≠ .outside →
      d.hasReturned = false → d.hasPanicked = false →
      (∀ payload, d.WorksOn payload → d'.WorksOn payload) →
      Phase render inner (s.calls e) (s.arguments e) d' (s.dispatcher.submits e) :=
    fun he hout hr hp hw => (he ▸ h.phase _).deliver hout hr hp hw
  cases step_moves hstep with
  | refuse hc he => exact h.callMoves ((hc ▸ h.phase _).refuse (enter_eq_error he))
  | enter hc he =>
    rw [h.inner_eq] at he
    obtain ⟨hkey, rfl⟩ := enter_eq_ok he
    exact h.callEnters hc hkey
  | @deliverReturn c call result hc hd =>
    have hphase := h.phase c
    rw [hc, hd] at hphase
    exact h.callMoves (hd ▸ hphase.deliverReturn)
  | @deliverUnwind c call hc hd =>
    have hphase := h.phase c
    rw [hc, hd] at hphase
    exact h.callMoves (hd ▸ hphase.deliverUnwind)
  | @submitReturn c call accepted hc hd =>
    have hphase := h.phase c
    rw [hc, hd] at hphase
    exact h.callMoves (hd ▸ hphase.submitReturn)
  | @begin e args hd hargs hwho =>
    have hphase := h.phase e
    rw [hd, hargs] at hphase
    have hwho' : (s.calls e).isDelivering = true ∨ (s.dispatcher.submits e).Pushed := by
      refine hwho.imp_right ?_
      intro hexec
      obtain ⟨w, hw⟩ := of_decide_eq_true hexec
      exact h.pushed e (h.accounted.executing_accepted hw)
    exact h.deliveryMoves (by simp) (hargs ▸ hphase.begin hwho') (hkeep e)
  | @attempt e payload i hd =>
    have hphase := h.phase e
    rw [hd] at hphase
    refine h.deliveryMoves (by simp) (hloop hd (by simp) rfl rfl fun _ hw => hw) ?_
    intro entry hentry
    rcases List.mem_append.mp hentry with hold | hnew
    · exact .inl hold
    · rw [List.mem_singleton] at hnew
      subst hnew
      exact .inr ⟨rfl, hphase.payload⟩
  | @panic e payload i hd =>
    exact h.deliveryMoves (by simp) (hloop hd (by simp) rfl rfl fun _ _ => trivial) (hkeep e)
  | @succeed e payload i network value hd hsend =>
    exact h.deliveryMoves (by simp) (hloop hd (by simp) rfl rfl fun _ _ => trivial) (hkeep e)
  | @fail e payload i network failure hd hsend _ =>
    refine h.deliveryMoves (by simp) (hloop hd (by simp) rfl rfl ?_) (hkeep e)
    intro _ _
    exact (isRefusal_withAttemptCount failure (i + 1)).trans (send_error hsend)
  | @retry e payload i network failure hd hsend _ _ =>
    exact h.deliveryMoves (by simp) (hloop hd (by simp) rfl rfl fun _ hw => hw) (hkeep e)
  | @interrupted e payload i elapsed hd _ =>
    exact h.deliveryMoves (by simp) (hloop hd (by simp) rfl rfl fun _ _ => rfl) (hkeep e)
  | @elapsed e payload i hd _ =>
    exact h.deliveryMoves (by simp) (hloop hd (by simp) rfl rfl fun _ hw => hw) (hkeep e)
  | close _ => exact ⟨h.inner_eq, h.accounted, h.pushed, h.phase, h.sent⟩
  | signal _ => exact ⟨h.inner_eq, h.accounted, h.pushed, h.phase, h.sent⟩
  | dispatch hready hdispatch => exact consistent_dispatch h hready hdispatch

end

/-! ## End to end -/

/-- There is a key and it is not blank. -/
def HasKey (key : Option String) : Prop := ∃ v ∈ key, trimIsEmpty v = false

/-- The client's own key: the builder's, unless that one is blank. -/
def IncidentClientBuilder.key (cb : IncidentClientBuilder) : Option String :=
  cb.serviceKey.filter fun key => !trimIsEmpty key

/-- The key of a payload: none under service routing, else the request's before the client's. -/
def resolvedKey (cb : IncidentClientBuilder) (call : Call κ) : Option String :=
  if call.method.routed then none else call.builder.serviceKey.or cb.key

/-- The payload is the JSON object of what the builders were given. -/
structure Carries (cb : IncidentClientBuilder) (call : Call κ) (payload : Bytes) : Prop where
  /-- The members, in order and no others. -/
  object : IsObjectOf bytes (Wire.fields call.request (resolvedKey cb call)) payload
  sets : call.builder.Sets call.clock call.request
  valid : call.request.Valid
  severity : 1 ≤ call.request.severity.value ∧ call.request.severity.value ≤ 5
  key_iff : (resolvedKey cb call).isSome = true ↔ call.method.routed = false
  key_nonBlank : NonBlank (resolvedKey cb call)

theorem key_nonBlank (cb : IncidentClientBuilder) : NonBlank cb.key := by
  intro v hv
  obtain ⟨-, hfilter⟩ := Option.mem_filter_iff.mp hv
  simpa using hfilter

theorem hasKey_iff {key : Option String} (h : NonBlank key) : HasKey key ↔ key ≠ none := by
  cases key with
  | none => simp [HasKey]
  | some v => exact ⟨fun _ => by simp, fun _ => ⟨v, rfl, h v rfl⟩⟩

theorem hasKey_key (cb : IncidentClientBuilder) : HasKey cb.serviceKey ↔ cb.key ≠ none := by
  rw [← hasKey_iff (key_nonBlank cb)]
  unfold HasKey IncidentClientBuilder.key
  constructor
  · intro hex
    obtain ⟨v, hv, hblank⟩ := hex
    exact ⟨v, Option.mem_filter_iff.mpr ⟨hv, by simpa using hblank⟩, hblank⟩
  · intro hex
    obtain ⟨v, hv, hblank⟩ := hex
    exact ⟨v, (Option.mem_filter_iff.mp hv).1, hblank⟩

/-- A key is refused: any under service routing, the lack of one otherwise. -/
def LacksKey (cb : IncidentClientBuilder) (call : Call κ) : Prop :=
  if call.method.routed then call.builder.serviceKey ≠ none
  else ¬ HasKey call.builder.serviceKey ∧ ¬ HasKey cb.serviceKey

theorem keyRefused_iff {cb : IncidentClientBuilder} {inner : Inner}
    (hinner : inner.serviceKey = cb.key) (call : Call κ) :
    KeyRefused inner call ↔ LacksKey cb call := by
  obtain ⟨hvalid, hsets⟩ := IncidentRequestBuilder.build_eq_ok call.built
  unfold KeyRefused LacksKey
  rw [hasKey_key, hsets.serviceKey, hasKey_iff hvalid.serviceKey, hinner, not_not, not_not,
    and_comm]

theorem carries_payload {render : String → Bytes} (hr : Renders bytes render)
    {cb : IncidentClientBuilder} {inner : Inner} (hinner : inner.serviceKey = cb.key)
    {call : Call κ} (hkey : ¬ KeyRefused inner call) :
    Carries cb call ((call.arguments inner).payload render) := by
  obtain ⟨hvalid, hsets⟩ := IncidentRequestBuilder.build_eq_ok call.built
  unfold KeyRefused at hkey
  have hresolved : (call.arguments inner).serviceKey = resolvedKey cb call := by
    unfold Call.arguments Arguments.serviceKey resolvedKey
    rw [hsets.serviceKey, hinner]
    cases hrouted : call.method.routed with
    | false => rfl
    | true =>
      rw [if_pos hrouted, not_not] at hkey
      simp [hkey]
  have hblank : NonBlank (resolvedKey cb call) := by
    intro v hv
    unfold resolvedKey at hv
    split at hv
    · cases hv
    · rw [hsets.serviceKey, Option.mem_def, Option.or_eq_some_iff] at hv
      rcases hv with hv | ⟨-, hv⟩
      · exact hvalid.serviceKey v hv
      · exact key_nonBlank cb v hv
  have hiff : (resolvedKey cb call).isSome = true ↔ call.method.routed = false := by
    unfold resolvedKey
    cases hrouted : call.method.routed with
    | true => simp
    | false =>
      rw [if_neg (by simp [hrouted]), hinner] at hkey
      simp only [Bool.false_eq_true, if_false, iff_true]
      rw [hsets.serviceKey, Option.isSome_or, Bool.or_eq_true, Option.isSome_iff_ne_none,
        Option.isSome_iff_ne_none]
      by_cases hreq : call.request.serviceKey = none
      · exact .inr fun hcb => hkey ⟨hcb, hreq⟩
      · exact .inl hreq
  refine ⟨?_, hsets, hvalid, call.request.severity.value_range, hiff, hblank⟩
  unfold Arguments.payload
  rw [hresolved]
  exact Wire.isObjectOf_serializeRequest hr call.request (resolvedKey cb call)

/-- What the client guarantees of one call, in one state of a run. -/
structure EndToEnd (render : String → Bytes) (fromStr : String → Except κ Transport.Value)
    (cb : IncidentClientBuilder) (t : IncidentClient cfg κ) (c : Nat) : Prop where
  /-- A call that returned `InvalidRequest` or `ClientClosed` has sent and queued nothing. -/
  refused : ∀ call e, t.calls c = .returned call (.error e) → isRefusal e = true →
    (∀ payload, (c, payload) ∉ t.sent) ∧ c ∉ t.dispatcher.accepted
  payloads : ∀ payload, (c, payload) ∈ t.sent →
    ∃ call, (t.calls c).call = some call ∧ Carries cb call payload
  /-- A call that finds the client open is refused for its key, and exactly then. -/
  keys : ∀ call t', step render fromStr t (.call c call) = some t' →
    ((∃ message, t'.calls c = .returned call (.error (.invalidRequest message))) ↔
      t.closed = false ∧ LacksKey cb call)

section
variable {render : String → Bytes} {fromStr : String → Except κ Transport.Value}
variable {t : IncidentClient cfg κ}

theorem Consistent.refused {inner : Inner} (h : Consistent render inner t) {c : Nat}
    {call : Call κ} {e : IncidentError κ} (hc : t.calls c = .returned call (.error e))
    (he : isRefusal e = true) :
    (∀ payload, (c, payload) ∉ t.sent) ∧ c ∉ t.dispatcher.accepted := by
  have hphase := h.phase c
  rw [hc] at hphase
  have hquiet : t.deliveries c = .outside ∧ ¬ (t.dispatcher.submits c).Pushed := by
    generalize t.arguments c = args at hphase
    generalize t.deliveries c = d at hphase ⊢
    generalize t.dispatcher.submits c = submit at hphase ⊢
    generalize hpc : CallPc.returned call (.error e) = pc at hphase
    cases hphase with
    | refused _ => exact ⟨rfl, id⟩
    | @delivered _ result _ hresult =>
      cases result with
      | ok value => cases hpc
      | error failure =>
        cases hpc
        rw [hresult _ rfl] at he
        cases he
    | dropped _ => exact ⟨rfl, Bool.false_ne_true⟩
    | _ => cases hpc
  refine ⟨?_, fun haccepted => hquiet.2 (h.pushed c haccepted)⟩
  intro payload hsent
  exact (h.sent _ hsent).1 hquiet.1

theorem Consistent.payloads {inner : Inner} (h : Consistent render inner t) {c : Nat}
    {payload : Bytes} (hsent : (c, payload) ∈ t.sent) :
    ∃ call, (t.calls c).call = some call ∧ ¬ KeyRefused inner call ∧
      payload = (call.arguments inner).payload render := by
  obtain ⟨hout, args, hargs, rfl⟩ := h.sent _ hsent
  have hphase := h.phase c
  dsimp only at hargs
  rw [hargs] at hphase
  generalize t.calls c = pc at hphase ⊢
  generalize t.deliveries c = d at hphase
  generalize t.dispatcher.submits c = submit at hphase
  cases hphase with
  | delivering hkey _ _ => exact ⟨_, rfl, hkey, rfl⟩
  | delivered hkey _ => exact ⟨_, rfl, hkey, rfl⟩
  | unwound hkey => exact ⟨_, rfl, hkey, rfl⟩
  | submitting hkey _ _ => exact ⟨_, rfl, hkey, rfl⟩
  | accepted hkey _ => exact ⟨_, rfl, hkey, rfl⟩
  | dropped hkey => exact ⟨_, rfl, hkey, rfl⟩

theorem call_invalid_iff {t' : IncidentClient cfg κ} {c : Nat} {call : Call κ}
    (hstep : step render fromStr t (.call c call) = some t') :
    (∃ message, t'.calls c = .returned call (.error (.invalidRequest message))) ↔
      t.closed = false ∧ KeyRefused t.inner call := by
  cases step_moves hstep with
  | @refuse _ _ e hc he =>
    dsimp only
    rw [Function.update_self]
    cases hclosed : t.closed with
    | true =>
      rw [hclosed, enter_closed] at he
      cases he
      simp
    | false =>
      rw [hclosed] at he
      rcases enter_open t.inner call with ⟨hkey, message, hm⟩ | ⟨-, hok⟩
      · rw [hm] at he
        cases he
        exact ⟨fun _ => ⟨rfl, hkey⟩, fun _ => ⟨message, rfl⟩⟩
      · rw [hok] at he; cases he
  | @enter _ _ args hc he =>
    obtain ⟨hkey, -⟩ := enter_eq_ok he
    dsimp only
    rw [Function.update_self]
    constructor
    · intro hex
      obtain ⟨message, hm⟩ := hex
      split at hm <;> cases hm
    · intro hboth
      obtain ⟨-, hrefused⟩ := hboth
      exact absurd hrefused hkey

end

/-- **Every payload says what was built,** in every run of every client, by every post method. -/
theorem payloads_say_what_was_built {render : String → Bytes} (hr : Renders bytes render)
    {fromStr : String → Except κ Transport.Value} {cb : IncidentClientBuilder}
    {env : Option String} {client t : IncidentClient dispatcherConfig κ}
    (hbuild : cb.build env = .ok client) {ls : List (Label dispatcherConfig κ)}
    (hrun : Run (step render fromStr) anyStep client ls t) (c : Nat) :
    EndToEnd render fromStr cb t c := by
  obtain ⟨inner, hinner, rfl⟩ : ∃ inner : Inner, inner.serviceKey = cb.key ∧
      client = .new dispatcherConfig inner := by
    unfold IncidentClientBuilder.build at hbuild
    split at hbuild
    · split at hbuild
      · cases hbuild; exact ⟨_, rfl, rfl⟩
      · cases hbuild
    · cases hbuild
  have hcons : Consistent render inner t :=
    hrun.invariant (fun _ hstep h => consistent_step hstep h) (.init render inner)
  refine ⟨fun call e hc he => hcons.refused hc he, ?_, ?_⟩
  · intro payload hsent
    obtain ⟨call, hcall, hkey, rfl⟩ := hcons.payloads hsent
    exact ⟨call, hcall, carries_payload hr hinner hkey⟩
  · intro call t' hstep
    rw [call_invalid_iff hstep, hcons.inner_eq, keyRefused_iff hinner]

/-- A queued call under a client that has a key, up to the second attempt of its delivery. -/
def retriedPost : List (Label dispatcherConfig Unit) :=
  [.call 0 (.outage .postAsync), .dispatch (.submit 0 false), .dispatch (.poll ⟨0, by decide⟩),
    .begin 0, .attempt 0, .complete 0 (some (.noStatusLine ())), .wait 0 true, .attempt 0]

theorem payloads_say_what_was_built_retried :
    ∃ t, Run (step Wire.serdeRender fun _ => .error ()) anyStep
        (.new dispatcherConfig ⟨some "key", ⟨"api-key", defaultEndpoint⟩, defaultRetryDelays⟩)
        retriedPost t ∧
      t.sent.length = 2 ∧
      EndToEnd Wire.serdeRender (fun _ => .error ()) ⟨some "api-key", some "key", none, none⟩
        t 0 := by
  obtain ⟨t, hrun, ht⟩ := exists_run_of_exec (step Wire.serdeRender fun _ => .error ()) anyStep
    (.new dispatcherConfig ⟨some "key", ⟨"api-key", defaultEndpoint⟩, defaultRetryDelays⟩)
    retriedPost (fun t => t.sent.length == 2) rfl
  have hbuild : IncidentClientBuilder.build ⟨some "api-key", some "key", none, none⟩ none =
      .ok (.new dispatcherConfig ⟨some "key", ⟨"api-key", defaultEndpoint⟩, defaultRetryDelays⟩ :
        IncidentClient dispatcherConfig Unit) := rfl
  exact ⟨t, hrun, beq_iff_eq.mp ht,
    payloads_say_what_was_built Wire.renders_serdeRender hbuild hrun 0⟩

end OppexSdk.Rust.Client
