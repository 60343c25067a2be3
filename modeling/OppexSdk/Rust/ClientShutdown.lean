import OppexSdk.Rust.Client

/-! # No delivery keeps retrying after the signal

Once `close` has set the flag of the interrupt, no wait of a retry loop lets the loop go on. A
delivery then begins one more attempt at most: the one it was about to begin. What a delivery can
do in one step is said once, in `Progress`; both bounds are invariants of it. -/
namespace OppexSdk.Rust.Client
open OppexSdk.Lib OppexSdk.Lib.Transition OppexSdk.Rust.Dispatcher
open OppexSdk.Rust.Transport (Attempt)

variable {cfg : Config} {κ : Type}

/-- How many attempts a delivery has begun. -/
def IncidentClient.attempts (s : IncidentClient cfg κ) (d : Nat) : Nat :=
  s.sent.countP fun entry => entry.1 == d

namespace DeliveryPc

/-- The delivery is over. -/
def ended : DeliveryPc κ → Bool
  | .returned _ | .panicked => true
  | _ => false

/-- The next thing the delivery does to the network is to begin an attempt. -/
def atHead : DeliveryPc κ → Bool
  | .outside | .calling _ _ => true
  | _ => false

end DeliveryPc

/-! ## One delivery in one step -/

/-- What a step makes of one delivery and of the number of its attempts. -/
inductive Progress (signalled : Bool) : DeliveryPc κ → Nat → DeliveryPc κ → Nat → Prop
  | stay (pc n) : Progress signalled pc n pc n
  | begin (payload n) : Progress signalled .outside n (.calling payload 0) n
  | attempt (payload i n) : Progress signalled (.calling payload i) n (.sending payload i) (n + 1)
  | complete (payload i n) {pc} : pc.atHead = false →
      Progress signalled (.sending payload i) n pc n
  | interrupted (payload i n result) : Progress signalled (.waiting payload i) n (.returned result) n
  | elapsed (payload i n) : signalled = false →
      Progress signalled (.waiting payload i) n (.calling payload (i + 1)) n

theorem progress_update {signalled : Bool} {f : Nat → DeliveryPc κ} {n : Nat → Nat}
    {d : Nat} {pc : DeliveryPc κ} (h : Progress signalled (f d) (n d) pc (n d)) (e : Nat) :
    Progress signalled (f e) (n e) (Function.update f d pc e) (n e) := by
  by_cases he : e = d
  · subst he
    rw [Function.update_self]
    exact h
  · rw [Function.update_of_ne he]
    exact .stay _ _

section
variable {render : String → Bytes} {fromStr : String → Except κ Transport.Value}
variable {s a t : IncidentClient cfg κ} {l : Label cfg κ}

theorem attempts_append (sent : List (Nat × Bytes)) (d : Nat) (payload : Bytes) (e : Nat) :
    (sent ++ [(d, payload)]).countP (fun entry => entry.1 == e) =
      sent.countP (fun entry => entry.1 == e) + if e = d then 1 else 0 := by
  by_cases he : e = d
  · subst he; simp
  · have hne : ¬ d = e := fun h => he h.symm
    simp [he, hne]

/-- **What a step of the client can do to a delivery.** -/
theorem delivery_progress (h : step render fromStr s l = some t) (d : Nat) :
    Progress s.signalled (s.deliveries d) (s.attempts d) (t.deliveries d) (t.attempts d) := by
  cases step_moves h with
  | refuse _ _ => exact .stay _ _
  | enter _ _ => exact .stay _ _
  | deliverReturn _ _ => exact .stay _ _
  | deliverUnwind _ _ => exact .stay _ _
  | submitReturn _ _ => exact .stay _ _
  | close _ => exact .stay _ _
  | signal _ => exact .stay _ _
  | dispatch _ _ => exact .stay _ _
  | begin hd _ _ => exact progress_update (by rw [hd]; exact .begin _ _) d
  | panic hd => exact progress_update (by rw [hd]; exact .complete _ _ _ rfl) d
  | succeed hd _ => exact progress_update (by rw [hd]; exact .complete _ _ _ rfl) d
  | fail hd _ _ => exact progress_update (by rw [hd]; exact .complete _ _ _ rfl) d
  | retry hd _ _ _ => exact progress_update (by rw [hd]; exact .complete _ _ _ rfl) d
  | interrupted hd _ => exact progress_update (by rw [hd]; exact .interrupted _ _ _ _) d
  | elapsed hd hs => exact progress_update (by rw [hd]; exact .elapsed _ _ _ hs) d
  | @attempt e payload i he =>
    unfold IncidentClient.attempts
    simp only [attempts_append]
    by_cases hde : d = e
    · subst hde
      rw [he, Function.update_self, if_pos rfl]
      exact .attempt _ _ _
    · rw [Function.update_of_ne hde, if_neg hde]
      exact .stay _ _

/-- The flag is never cleared. -/
theorem signalled_step (h : step render fromStr s l = some t) (hs : s.signalled = true) :
    t.signalled = true := by
  cases step_moves h with
  | signal _ => rfl
  | _ => exact hs

/-! ## Invariants -/

/-- A delivery that has not begun has made no attempt. -/
theorem unbegun_step (h : step render fromStr s l = some t)
    (hs : ∀ d, s.deliveries d = .outside → s.attempts d = 0) (d : Nat)
    (hd : t.deliveries d = .outside) : t.attempts d = 0 := by
  have hprogress := delivery_progress h d
  rw [hd] at hprogress
  generalize hpc : s.deliveries d = pc at hprogress
  generalize hn : s.attempts d = n at hprogress
  generalize ht : t.attempts d = m at hprogress
  cases hprogress with
  | stay => rw [← hn]; exact hs d hpc
  | complete _ _ _ hhead => cases hhead

/-- What holds of the deliveries since the flag was set in `a`. -/
structure Since (a s : IncidentClient cfg κ) : Prop where
  signalled : s.signalled = true
  /-- No attempt since, for a delivery that is about to begin one. -/
  pending : ∀ d, (s.deliveries d).atHead = true → s.attempts d = a.attempts d
  atMostOne : ∀ d, s.attempts d ≤ a.attempts d + 1
  exactlyOne : ∀ d, a.deliveries d = .outside → (s.deliveries d).atHead = false →
    s.attempts d = a.attempts d + 1

theorem Since.init (ha : a.signalled = true) : Since a a where
  signalled := ha
  pending := fun d _ => rfl
  atMostOne := fun d => Nat.le_succ _
  exactlyOne := fun d hout hhead => by rw [hout] at hhead; cases hhead

theorem since_step (h : step render fromStr s l = some t) (hs : Since a s) : Since a t := by
  have hkeeps : ∀ d, ((t.deliveries d).atHead = true → t.attempts d = a.attempts d) ∧
      t.attempts d ≤ a.attempts d + 1 ∧
      (a.deliveries d = .outside → (t.deliveries d).atHead = false →
        t.attempts d = a.attempts d + 1) := by
    intro d
    have hprogress := delivery_progress h d
    have hpending := hs.pending d
    have hmost := hs.atMostOne d
    have hexactly := hs.exactlyOne d
    rw [hs.signalled] at hprogress
    generalize s.deliveries d = pc at hprogress hpending hexactly
    generalize s.attempts d = n at hprogress hpending hmost hexactly
    generalize t.deliveries d = pc' at hprogress ⊢
    generalize t.attempts d = n' at hprogress ⊢
    cases hprogress with
    | stay => exact ⟨hpending, hmost, hexactly⟩
    | begin payload => exact ⟨fun _ => hpending rfl, hmost, fun _ hhead => by cases hhead⟩
    | attempt payload i =>
      have hn := hpending rfl
      refine ⟨?_, by omega, fun _ _ => by omega⟩
      intro hhead
      cases hhead
    | complete payload i _ hhead' =>
      refine ⟨?_, hmost, fun hout _ => hexactly hout rfl⟩
      intro hhead
      rw [hhead'] at hhead; cases hhead
    | interrupted payload i _ result =>
      refine ⟨?_, hmost, fun hout _ => hexactly hout rfl⟩
      intro hhead
      cases hhead
    -- the flag is set, so no wait ends with the delay
    | elapsed payload i _ hfalse => cases hfalse
  exact
    { signalled := signalled_step h hs.signalled
      pending := fun d => (hkeeps d).1
      atMostOne := fun d => (hkeeps d).2.1
      exactlyOne := fun d => (hkeeps d).2.2 }

/-! ## The bound -/

/-- The steps in which a delivery that has begun moves. -/
def Label.delivers (d : Nat) : Label cfg κ → Prop
  | .attempt e | .complete e _ | .wait e _ => e = d
  | _ => False

/-- A delivery that is not over can always move. -/
theorem delivery_enabled (s : IncidentClient cfg κ) {d : Nat} (hout : s.deliveries d ≠ .outside)
    (hend : (s.deliveries d).ended = false) :
    ∃ l, Label.delivers d l ∧ (step render fromStr s l).isSome = true := by
  cases hd : s.deliveries d with
  | outside => exact absurd hd hout
  | calling payload i =>
    exact ⟨.attempt d, rfl, by simp [step, IncidentClient.attempt, hd]⟩
  | sending payload i =>
    exact ⟨.complete d none, rfl, by simp [step, IncidentClient.complete, hd]⟩
  | waiting payload i =>
    refine ⟨.wait d true, rfl, ?_⟩
    simp only [step, IncidentClient.wait, hd]
    split <;> rfl
  | returned result => rw [hd] at hend; cases hend
  | panicked => rw [hd] at hend; cases hend

/-- What a delivery does after the step from `s` in which the flag was set, up to `t`. -/
structure StopsRetrying (render : String → Bytes) (fromStr : String → Except κ Transport.Value)
    (s t : IncidentClient cfg κ) (d : Nat) : Prop where
  atMostOne : t.attempts d ≤ s.attempts d + 1
  /-- A delivery that begins after the signal makes no second attempt. -/
  noSecond : s.deliveries d = .outside → t.attempts d ≤ 1
  /-- When it is over it has made its attempt, whatever came of it. -/
  exactlyOne : s.deliveries d = .outside → (t.deliveries d).ended = true → t.attempts d = 1
  /-- And until then it is not stuck. -/
  goesOn : t.deliveries d ≠ .outside → (t.deliveries d).ended = false →
    ∃ l, Label.delivers d l ∧ (step render fromStr t l).isSome = true

/-- **After the signal no delivery keeps retrying,** in every run of the client. -/
theorem no_delivery_keeps_retrying {inner : Inner} {pre post : List (Label cfg κ)} {k : Nat}
    (hpre : Run (step render fromStr) anyStep (.new cfg inner) pre s)
    (hsignal : step render fromStr s (.signal k) = some a)
    (hpost : Run (step render fromStr) anyStep a post t) (d : Nat) :
    StopsRetrying render fromStr s t d := by
  have hunbegun : ∀ d, s.deliveries d = .outside → s.attempts d = 0 :=
    hpre.invariant (fun _ hstep hs => unbegun_step hstep hs) fun _ _ => rfl
  have ha : a.signalled = true ∧ a.deliveries = s.deliveries ∧ a.sent = s.sent := by
    cases step_moves hsignal with
    | signal _ => exact ⟨rfl, rfl, rfl⟩
  have hsame : a.attempts d = s.attempts d := by
    unfold IncidentClient.attempts
    rw [ha.2.2]
  have hsince : Since a t :=
    hpost.invariant (fun _ hstep hs => since_step hstep hs) (.init ha.1)
  have hmost := hsince.atMostOne d
  rw [hsame] at hmost
  refine ⟨hmost, ?_, ?_, delivery_enabled t⟩
  · intro hout
    rw [hunbegun d hout] at hmost
    exact hmost
  · intro hout hend
    have hhead : (t.deliveries d).atHead = false := by
      cases hpc : t.deliveries d with
      | outside => rw [hpc] at hend; cases hend
      | calling payload i => rw [hpc] at hend; cases hend
      | _ => rfl
    have hone := hsince.exactlyOne d (by rw [ha.2.1]; exact hout) hhead
    rw [hone, hsame, hunbegun d hout]

end

/-- Two posts of a client with a retry to make; only the first delivery begins before the signal. -/
def interruptedBefore : List (Label smallest Unit) :=
  [.call 0 (.outage .post), .call 1 (.outage .post), .begin 0, .attempt 0, .close 0]

def interruptedAfter : List (Label smallest Unit) :=
  [.complete 0 (some (.noStatusLine ())), .wait 0 false, .begin 1, .attempt 1,
    .complete 1 (some (.noStatusLine ())), .wait 1 false]

theorem no_delivery_keeps_retrying_interrupted :
    ∃ s a t : IncidentClient smallest Unit,
      Run (step Wire.serdeRender fun _ => .error ()) anyStep
        (.new smallest ⟨some "key", ⟨"api-key", defaultEndpoint⟩, [500]⟩) interruptedBefore s ∧
      step Wire.serdeRender (fun _ => .error ()) s (.signal 0) = some a ∧
      Run (step Wire.serdeRender fun _ => .error ()) anyStep a interruptedAfter t ∧
      (t.deliveries 1).ended = true ∧
      StopsRetrying Wire.serdeRender (fun _ => .error ()) s t 1 := by
  obtain ⟨t, hrun, ht⟩ := exists_run_of_exec (step Wire.serdeRender fun _ => .error ()) anyStep
    (.new smallest ⟨some "key", ⟨"api-key", defaultEndpoint⟩, [500]⟩)
    (interruptedBefore ++ .signal 0 :: interruptedAfter) (fun t => (t.deliveries 1).ended) rfl
  obtain ⟨s, hpre, hrest⟩ := hrun.split
  cases hrest with
  | cons _ hsignal hpost =>
    exact ⟨s, _, t, hpre, hsignal, hpost, ht, no_delivery_keeps_retrying hpre hsignal hpost 1⟩

end OppexSdk.Rust.Client
