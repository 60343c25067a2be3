import OppexSdk.Go.Dispatcher
import Mathlib.Data.Multiset.AddSub
import Mathlib.Tactic.Abel

/-! # Submission to the Go dispatcher

Sends happen under the mutex and receives by workers do not, so between two `select`s of a
`submit` the channel can only get emptier. The call that evicted or found the channel empty
therefore finds room in its third `select`, and `close`, which takes the same mutex, never closes
the channel under a call that is about to send. -/
namespace OppexSdk.Go
open OppexSdk.Lib OppexSdk.Lib.Transition

variable {cfg : Config}

section
variable (d : Dispatcher cfg) (k : TaskId) (elapsed : Bool)

@[simp] theorem recordDrop_submits : (d.recordDrop k elapsed).submits = d.submits := by
  unfold Dispatcher.recordDrop; split <;> rfl

@[simp] theorem recordDrop_closes : (d.recordDrop k elapsed).closes = d.closes := by
  unfold Dispatcher.recordDrop; split <;> rfl

@[simp] theorem recordDrop_mu : (d.recordDrop k elapsed).mu = d.mu := by
  unfold Dispatcher.recordDrop; split <;> rfl

@[simp] theorem recordDrop_closed : (d.recordDrop k elapsed).closed = d.closed := by
  unfold Dispatcher.recordDrop; split <;> rfl

@[simp] theorem recordDrop_accepted : (d.recordDrop k elapsed).accepted = d.accepted := by
  unfold Dispatcher.recordDrop; split <;> rfl

@[simp] theorem recordDrop_received : (d.recordDrop k elapsed).received = d.received := by
  unfold Dispatcher.recordDrop; split <;> rfl

@[simp] theorem recordDrop_panicked : (d.recordDrop k elapsed).panicked = d.panicked := by
  unfold Dispatcher.recordDrop; split <;> rfl

@[simp] theorem recordDrop_lost : (d.recordDrop k elapsed).lost = d.lost := by
  unfold Dispatcher.recordDrop; split <;> rfl

@[simp] theorem recordDrop_recordDrops :
    (d.recordDrop k elapsed).recordDrops = d.recordDrops ++ [k] := by
  unfold Dispatcher.recordDrop; split <;> rfl

end

/-! ## The mutex -/

/-- The call holds the mutex. -/
def SubmitPc.inside : SubmitPc → Bool
  | .outside | .returned _ => false
  | _ => true

def ClosePc.inside : ClosePc → Bool
  | .locked | .refused | .marked => true
  | _ => false

/-- What a call relies on while it holds the mutex. -/
def Holding (queue : Chan TaskId) (received : List TaskId) (k : TaskId) : SubmitPc → Prop
  | .sending | .evicting => queue.closed = false
  | .resending => queue.closed = false ∧ queue.buffer.length < queue.capacity
  | .returning accepted => accepted = true → k ∈ queue.buffer ∨ k ∈ received
  | _ => True

structure Guarded (d : Dispatcher cfg) : Prop where
  capacity : d.queue.capacity = cfg.capacity
  bounded : d.queue.buffer.length ≤ cfg.capacity
  closed : d.queue.closed = d.closed
  submits : ∀ k, (d.submits k).inside = true → d.mu = some (.submit k)
  closes : ∀ c, (d.closes c).inside = true → d.mu = some (.close c)
  holding : ∀ k, Holding d.queue d.received k (d.submits k)
  panicked : d.panicked = false
  lost : d.lost = []

theorem Guarded.init : Guarded (newDispatcher cfg) where
  capacity := rfl
  bounded := Nat.zero_le _
  closed := rfl
  submits := by intro k hk; cases hk
  closes := by intro c hc; cases hc
  holding := by intro k; trivial
  panicked := rfl
  lost := rfl

theorem holding_of_outside {queue : Chan TaskId} {received : List TaskId} {k : TaskId}
    {pc : SubmitPc} (h : pc.inside = false) : Holding queue received k pc := by
  cases pc with
  | outside => trivial
  | returned accepted => trivial
  | _ => cases h

section
variable {d t : Dispatcher cfg} {l : Label cfg}

theorem Guarded.sending_open (h : Guarded d) {k : TaskId} (hk : d.submits k = .sending) :
    d.queue.closed = false := by
  have hold := h.holding k
  rw [hk] at hold
  exact hold

theorem Guarded.evicting_open (h : Guarded d) {k : TaskId} (hk : d.submits k = .evicting) :
    d.queue.closed = false := by
  have hold := h.holding k
  rw [hk] at hold
  exact hold

theorem Guarded.resending_room (h : Guarded d) {k : TaskId} (hk : d.submits k = .resending) :
    d.queue.closed = false ∧ d.queue.buffer.length < d.queue.capacity := by
  have hold := h.holding k
  rw [hk] at hold
  exact hold

/-- The second `select` does not find the channel closed. -/
theorem Guarded.not_evictClosed (h : Guarded d) {k : TaskId} (hk : d.submits k = .evicting) :
    d.queue.receive ≠ .closed := by
  intro hreceive
  cases (h.evicting_open hk).symm.trans (Chan.receive_eq_closed hreceive).2

/-- The third `select` finds room. -/
theorem Guarded.not_lose (h : Guarded d) {k task : TaskId} (hk : d.submits k = .resending) :
    d.queue.send task ≠ .full := by
  intro hsend
  exact absurd (h.resending_room hk).2 (Nat.not_lt.mpr (Chan.send_eq_full hsend).2)

/-- The holder of the mutex moves inside, or releases it. -/
theorem Guarded.submitMoves (h : Guarded d) {k : TaskId} {pc : SubmitPc}
    (hk : (d.submits k).inside = true) (hsubmits : t.submits = Function.update d.submits k pc)
    (hcloses : t.closes = d.closes) (hmu : t.mu = if pc.inside then d.mu else none)
    (hclosed : t.closed = d.closed) (hcapacity : t.queue.capacity = cfg.capacity)
    (hbounded : t.queue.buffer.length ≤ cfg.capacity) (hqueue : t.queue.closed = d.closed)
    (hpc : Holding t.queue t.received k pc)
    (hpanicked : t.panicked = d.panicked) (hlost : t.lost = d.lost) : Guarded t := by
  have hown := h.submits k hk
  have hothers : ∀ j, j ≠ k → (d.submits j).inside = false := by
    intro j hj
    by_contra hin
    have hother := h.submits j (by simpa using hin)
    rw [hown] at hother
    cases hother
    exact hj rfl
  refine ⟨hcapacity, hbounded, hqueue.trans hclosed.symm, ?_, ?_, ?_, hpanicked.trans h.panicked,
    hlost.trans h.lost⟩
  · intro j hj
    rw [hsubmits] at hj
    by_cases he : j = k
    · subst he
      rw [Function.update_self] at hj
      rw [hmu, if_pos hj, hown]
    · rw [Function.update_of_ne he, hothers j he] at hj
      cases hj
  · intro c hc
    rw [hcloses] at hc
    have hheld := h.closes c hc
    rw [hown] at hheld
    cases hheld
  · rw [hsubmits]
    exact (Function.forall_update_iff d.submits (Holding t.queue t.received)).mpr
      ⟨hpc, fun j hj => holding_of_outside (hothers j hj)⟩

/-- A close moves that holds the mutex: no call does. -/
theorem Guarded.closeMoves (h : Guarded d) {c : Nat} {pc : ClosePc}
    (hc : (d.closes c).inside = true) (hcloses : t.closes = Function.update d.closes c pc)
    (hsubmits : t.submits = d.submits) (hmu : t.mu = if pc.inside then d.mu else none)
    (hcapacity : t.queue.capacity = cfg.capacity)
    (hbounded : t.queue.buffer.length ≤ cfg.capacity) (hqueue : t.queue.closed = t.closed)
    (hpanicked : t.panicked = d.panicked) (hlost : t.lost = d.lost) : Guarded t := by
  have hown := h.closes c hc
  have hnone : ∀ k, (d.submits k).inside = false := by
    intro k
    by_contra hin
    have hother := h.submits k (by simpa using hin)
    rw [hown] at hother
    cases hother
  refine ⟨hcapacity, hbounded, hqueue, ?_, ?_, ?_, hpanicked.trans h.panicked, hlost.trans h.lost⟩
  · intro k hk
    rw [hsubmits, hnone k] at hk
    cases hk
  · intro j hj
    rw [hcloses] at hj
    by_cases he : j = c
    · subst he
      rw [Function.update_self] at hj
      rw [hmu, if_pos hj, hown]
    · rw [Function.update_of_ne he] at hj
      have hother := h.closes j hj
      rw [hown] at hother
      cases hother
      exact absurd rfl he
  · intro k
    rw [hsubmits]
    exact holding_of_outside (hnone k)

/-- The mutex is free, so nothing is inside. -/
theorem Guarded.free (h : Guarded d) (hmu : d.mu = none) :
    (∀ k, (d.submits k).inside = false) ∧ ∀ c, (d.closes c).inside = false := by
  constructor
  · intro k
    by_contra hin
    have hheld := h.submits k (by simpa using hin)
    rw [hmu] at hheld
    cases hheld
  · intro c
    by_contra hin
    have hheld := h.closes c (by simpa using hin)
    rw [hmu] at hheld
    cases hheld

theorem Guarded.lock (h : Guarded d) {k : TaskId} (hmu : d.mu = none) :
    Guarded { d.setSubmit k .locked with mu := some (.submit k) } := by
  obtain ⟨hsubmits, hcloses⟩ := h.free hmu
  refine ⟨h.capacity, h.bounded, h.closed, ?_, ?_, ?_, h.panicked, h.lost⟩
  · intro j hj
    by_cases he : j = k
    · rw [he]
    · simp only [Dispatcher.setSubmit, Function.update_of_ne he, hsubmits j] at hj
      cases hj
  · intro c hc
    have hin := hcloses c
    simp only [Dispatcher.setSubmit] at hc
    rw [hin] at hc
    cases hc
  · exact (Function.forall_update_iff d.submits (Holding d.queue d.received)).mpr
      ⟨trivial, fun j _ => h.holding j⟩

theorem Guarded.lockClose (h : Guarded d) {c : Nat} (hmu : d.mu = none) :
    Guarded { d.setClose c .locked with mu := some (.close c) } := by
  obtain ⟨hsubmits, hcloses⟩ := h.free hmu
  refine ⟨h.capacity, h.bounded, h.closed, ?_, ?_, h.holding, h.panicked, h.lost⟩
  · intro k hk
    have hin := hsubmits k
    simp only [Dispatcher.setClose] at hk
    rw [hin] at hk
    cases hk
  · intro j hj
    by_cases he : j = c
    · rw [he]
    · simp only [Dispatcher.setClose, Function.update_of_ne he, hcloses j] at hj
      cases hj

/-- A worker takes the oldest task: the channel gets emptier and nothing is lost. -/
theorem Guarded.receive (h : Guarded d) {w : Fin cfg.workers} {task : TaskId}
    {queue : Chan TaskId} (hreceive : d.queue.receive = .value task queue) :
    Guarded { d.setWorker w (.received task) with
      queue := queue, received := d.received ++ [task] } := by
  obtain ⟨rest, hbuffer, rfl⟩ := Chan.receive_eq_value hreceive
  have hbounded := h.bounded
  rw [hbuffer, List.length_cons] at hbounded
  refine ⟨h.capacity, Nat.le_of_succ_le hbounded, h.closed, h.submits, h.closes, ?_, h.panicked,
    h.lost⟩
  intro k
  have hold := h.holding k
  simp only [Dispatcher.setWorker]
  cases hpc : d.submits k with
  | resending =>
    rw [hpc] at hold
    obtain ⟨hopen, hlt⟩ := hold
    refine ⟨hopen, ?_⟩
    rw [hbuffer, List.length_cons] at hlt
    exact Nat.lt_of_succ_lt hlt
  | returning accepted =>
    rw [hpc] at hold
    intro haccepted
    rcases hold haccepted with hin | hout
    · rw [hbuffer, List.mem_cons] at hin
      rcases hin with rfl | hrest
      · exact .inr (List.mem_append_right _ (List.mem_singleton_self _))
      · exact .inl hrest
    · exact .inr (List.mem_append_left _ hout)
  | sending => rw [hpc] at hold; exact hold
  | evicting => rw [hpc] at hold; exact hold
  | outside => trivial
  | locked => trivial
  | returned accepted => trivial

/-- A close that no longer holds the mutex goes on. -/
theorem Guarded.closeEnds (h : Guarded d) {c : Nat} {pc : ClosePc} (hpc : pc.inside = false)
    {cancelled : Bool} {log : List Warning} :
    Guarded { d.setClose c pc with cancelled := cancelled, log := log } := by
  refine ⟨h.capacity, h.bounded, h.closed, h.submits, ?_, h.holding, h.panicked, h.lost⟩
  intro j hj
  simp only [Dispatcher.setClose] at hj
  by_cases he : j = c
  · subst he
    rw [Function.update_self, hpc] at hj
    cases hj
  · rw [Function.update_of_ne he] at hj
    exact h.closes j hj

theorem guarded_step (hstep : step d l = some t) (h : Guarded d) : Guarded t := by
  have hroom : ∀ k, d.queue.buffer.length < d.queue.capacity →
      (d.queue.buffer ++ [k]).length ≤ cfg.capacity := by
    intro k hlt
    rw [h.capacity] at hlt
    rw [List.length_append, List.length_singleton]
    exact hlt
  cases step_moves hstep with
  | lock hk hmu => exact h.lock hmu
  | refuse hk _ =>
    exact h.submitMoves (by rw [hk]; rfl) rfl rfl rfl rfl h.capacity h.bounded h.closed
      (fun hfalse => by cases hfalse) rfl rfl
  | proceed hk hopen =>
    exact h.submitMoves (by rw [hk]; rfl) rfl rfl rfl rfl h.capacity h.bounded h.closed
      (h.closed.trans hopen) rfl rfl
  | send hk hsend =>
    obtain ⟨hopen, hlt, rfl⟩ := Chan.send_eq_sent hsend
    exact h.submitMoves (by rw [hk]; rfl) rfl rfl rfl rfl h.capacity (hroom _ hlt) h.closed
      (fun _ => .inl (List.mem_append_right _ (List.mem_singleton_self _))) rfl rfl
  | full hk hsend =>
    exact h.submitMoves (by rw [hk]; rfl) rfl rfl rfl rfl h.capacity h.bounded h.closed
      (Chan.send_eq_full hsend).1 rfl rfl
  | @sendPanic k hk hsend =>
    cases (h.sending_open hk).symm.trans (Chan.send_eq_panicked hsend)
  | @evict k elapsed oldest queue hk hreceive =>
    obtain ⟨rest, hbuffer, rfl⟩ := Chan.receive_eq_value hreceive
    have hbounded := h.bounded
    rw [hbuffer, List.length_cons] at hbounded
    refine h.submitMoves (k := k) (by rw [hk]; rfl) (recordDrop_submits _ _ _)
      (recordDrop_closes _ _ _) (recordDrop_mu _ _ _) (recordDrop_closed _ _ _) h.capacity
      (Nat.le_of_succ_le hbounded) h.closed ⟨h.evicting_open hk, ?_⟩ (recordDrop_panicked _ _ _)
      (recordDrop_lost _ _ _)
    show rest.length < d.queue.capacity
    rw [h.capacity]
    exact hbounded
  | evictClosed hk hreceive => exact absurd hreceive (h.not_evictClosed hk)
  | @evictNone k elapsed hk hreceive =>
    obtain ⟨hempty, hopen⟩ := Chan.receive_eq_empty hreceive
    refine h.submitMoves (by rw [hk]; rfl) rfl rfl rfl rfl h.capacity h.bounded h.closed
      ⟨hopen, ?_⟩ rfl rfl
    show d.queue.buffer.length < d.queue.capacity
    rw [hempty, h.capacity]
    exact cfg.capacity_pos
  | resend hk hsend =>
    obtain ⟨hopen, hlt, rfl⟩ := Chan.send_eq_sent hsend
    exact h.submitMoves (by rw [hk]; rfl) rfl rfl rfl rfl h.capacity (hroom _ hlt) h.closed
      (fun _ => .inl (List.mem_append_right _ (List.mem_singleton_self _))) rfl rfl
  | lose hk hsend => exact absurd hsend (h.not_lose hk)
  | @resendPanic k elapsed hk hsend =>
    cases (h.resending_room hk).1.symm.trans (Chan.send_eq_panicked hsend)
  | unlock hk =>
    exact h.submitMoves (by rw [hk]; rfl) rfl rfl rfl rfl h.capacity h.bounded h.closed trivial
      rfl rfl
  | receive _ hreceive => exact h.receive hreceive
  | exit _ _ => exact { h with }
  | start _ _ => exact { h with }
  | discard _ _ => exact { h with }
  | finish _ => exact { h with }
  | lockClose _ hmu => exact h.lockClose hmu
  | closeAgain hc _ =>
    exact h.closeMoves (by rw [hc]; rfl) rfl rfl rfl h.capacity h.bounded h.closed rfl rfl
  | markClosed hc _ hclose =>
    unfold Chan.close at hclose
    split at hclose
    · cases hclose
    · cases hclose
      exact h.closeMoves (by rw [hc]; rfl) rfl rfl rfl h.capacity h.bounded rfl rfl rfl
  | closePanic _ hopen hclose =>
    unfold Chan.close at hclose
    rw [h.closed, hopen] at hclose
    cases hclose
  | unlockRefused hc =>
    exact h.closeMoves (by rw [hc]; rfl) rfl rfl rfl h.capacity h.bounded h.closed rfl rfl
  | unlockMarked hc =>
    exact h.closeMoves (by rw [hc]; rfl) rfl rfl rfl h.capacity h.bounded h.closed rfl rfl
  | drained _ _ | timeout _ | abandon _ | warn _ => exact h.closeEnds rfl

/-! ## The ledger -/

/-- The task of the call has been sent. -/
def SubmitPc.sent : SubmitPc → Bool
  | .returning accepted | .returned accepted => accepted
  | _ => false

/-- The call is past its second `select`. -/
def SubmitPc.pastEviction : SubmitPc → Bool
  | .resending => true
  | pc => pc.sent

structure Ledger (d : Dispatcher cfg) : Prop where
  nodup : d.accepted.Nodup
  sent : ∀ k, k ∈ d.accepted ↔ (d.submits k).sent = true
  placed : (d.accepted : Multiset TaskId) =
    d.received + d.evicted.map Prod.snd + d.queue.buffer
  order : (d.received ++ d.queue.buffer).Sublist d.accepted
  evictors : (d.evicted.map Prod.fst).Nodup
  past : ∀ k ∈ d.evicted.map Prod.fst, (d.submits k).pastEviction = true
  drops : d.recordDrops = d.evicted.map Prod.fst

theorem Ledger.init : Ledger (newDispatcher cfg) where
  nodup := List.nodup_nil
  sent := by intro k; simp [newDispatcher, SubmitPc.sent]
  placed := rfl
  order := List.Sublist.refl _
  evictors := List.nodup_nil
  past := by intro k hk; cases hk
  drops := rfl

theorem Ledger.past_update (h : Ledger d) {k : TaskId} {pc : SubmitPc}
    (hpc : k ∈ d.evicted.map Prod.fst → pc.pastEviction = true) :
    ∀ j ∈ d.evicted.map Prod.fst, (Function.update d.submits k pc j).pastEviction = true :=
  (Function.forall_update_iff d.submits fun j pc =>
    j ∈ d.evicted.map Prod.fst → pc.pastEviction = true).mpr ⟨hpc, fun j _ => h.past j⟩

/-- A call moves and the channel does not change. -/
theorem Ledger.submitMoves (h : Ledger d) {k : TaskId} {pc : SubmitPc}
    (hsent : pc.sent = (d.submits k).sent)
    (hpast : (d.submits k).pastEviction = true → pc.pastEviction = true) {mu : Option Holder} :
    Ledger { d.setSubmit k pc with mu := mu } := by
  refine ⟨h.nodup, ?_, h.placed, h.order, h.evictors, ?_, h.drops⟩
  · refine (Function.forall_update_iff d.submits fun j pc => j ∈ d.accepted ↔ pc.sent = true).mpr
      ⟨?_, fun j _ => h.sent j⟩
    rw [hsent]
    exact h.sent k
  · exact h.past_update fun hk => hpast (h.past k hk)

/-- A call sends its task. -/
theorem Ledger.send (h : Ledger d) {k : TaskId} {queue : Chan TaskId}
    (hk : (d.submits k).sent = false) (hsend : d.queue.send k = .sent queue) :
    Ledger { d.setSubmit k (.returning true) with
      queue := queue, accepted := d.accepted ++ [k] } := by
  obtain ⟨-, -, rfl⟩ := Chan.send_eq_sent hsend
  have hnew : k ∉ d.accepted := by
    intro hmem
    rw [h.sent k, hk] at hmem
    cases hmem
  refine ⟨?_, ?_, ?_, ?_, h.evictors, ?_, h.drops⟩
  · show (d.accepted ++ [k]).Nodup
    rw [← List.concat_eq_append]
    exact h.nodup.concat hnew
  · refine (Function.forall_update_iff d.submits fun j pc =>
      j ∈ d.accepted ++ [k] ↔ pc.sent = true).mpr ⟨?_, fun j hj => ?_⟩
    · simp [SubmitPc.sent]
    · simp [hj, h.sent j]
  · show ((d.accepted ++ [k] : List TaskId) : Multiset TaskId) =
      d.received + d.evicted.map Prod.snd +
        ((d.queue.buffer ++ [k] : List TaskId) : Multiset TaskId)
    rw [← Multiset.coe_add, ← Multiset.coe_add, h.placed]
    abel
  · show (d.received ++ (d.queue.buffer ++ [k])).Sublist (d.accepted ++ [k])
    rw [← List.append_assoc]
    exact h.order.append (List.Sublist.refl _)
  · exact h.past_update fun _ => rfl

/-- A call evicts the oldest task and records the drop. -/
theorem Ledger.evict (h : Ledger d) {k oldest : TaskId} {elapsed : Bool} {queue : Chan TaskId}
    (hk : d.submits k = .evicting) (hreceive : d.queue.receive = .value oldest queue) :
    Ledger { (d.setSubmit k .resending).recordDrop k elapsed with
      queue := queue, evicted := d.evicted ++ [(k, oldest)] } := by
  obtain ⟨rest, hbuffer, rfl⟩ := Chan.receive_eq_value hreceive
  have hplaced := h.placed
  have horder := h.order
  rw [hbuffer] at hplaced horder
  refine ⟨?_, ?_, ?_, ?_, ?_, ?_, ?_⟩
  · simpa [Dispatcher.setSubmit] using h.nodup
  · simp only [recordDrop_accepted, recordDrop_submits, Dispatcher.setSubmit]
    refine (Function.forall_update_iff d.submits fun j pc => j ∈ d.accepted ↔ pc.sent = true).mpr
      ⟨?_, fun j _ => h.sent j⟩
    rw [h.sent k, hk]
    rfl
  · simp only [recordDrop_accepted, recordDrop_received, Dispatcher.setSubmit, List.map_append,
      List.map_cons, List.map_nil]
    rw [hplaced, ← Multiset.coe_add, ← Multiset.cons_coe, ← Multiset.singleton_add,
      Multiset.coe_singleton]
    abel
  · simp only [recordDrop_accepted, recordDrop_received, Dispatcher.setSubmit]
    exact ((List.sublist_cons_self oldest rest).append_left d.received).trans horder
  · have hnew : k ∉ d.evicted.map Prod.fst := by
      intro hmem
      have hpast := h.past k hmem
      rw [hk] at hpast
      cases hpast
    rw [List.map_append, List.map_singleton, ← List.concat_eq_append]
    exact h.evictors.concat hnew
  · intro j hj
    simp only [recordDrop_submits, Dispatcher.setSubmit]
    by_cases he : j = k
    · subst he
      rw [Function.update_self]
      rfl
    · rw [Function.update_of_ne he]
      exact h.past j (by simpa [he] using hj)
  · simp only [recordDrop_recordDrops, Dispatcher.setSubmit, List.map_append, List.map_cons,
      List.map_nil]
    rw [h.drops]

/-- A worker receives the oldest task. -/
theorem Ledger.receive (h : Ledger d) {w : Fin cfg.workers} {task : TaskId}
    {queue : Chan TaskId} (hreceive : d.queue.receive = .value task queue) :
    Ledger { d.setWorker w (.received task) with
      queue := queue, received := d.received ++ [task] } := by
  obtain ⟨rest, hbuffer, rfl⟩ := Chan.receive_eq_value hreceive
  have hplaced := h.placed
  have horder := h.order
  rw [hbuffer] at hplaced horder
  refine ⟨h.nodup, h.sent, ?_, ?_, h.evictors, h.past, h.drops⟩
  · show (d.accepted : Multiset TaskId) =
      ((d.received ++ [task] : List TaskId) : Multiset TaskId) + d.evicted.map Prod.snd + rest
    rw [hplaced, ← Multiset.coe_add, ← Multiset.cons_coe, ← Multiset.singleton_add,
      Multiset.coe_singleton]
    abel
  · show (d.received ++ [task] ++ rest).Sublist d.accepted
    simpa using horder

theorem ledger_step (hstep : step d l = some t) (hguard : Guarded d) (h : Ledger d) :
    Ledger t := by
  cases step_moves hstep with
  | lock hk _ => exact h.submitMoves (by rw [hk]; rfl) (by rw [hk]; exact id)
  | refuse hk _ => exact h.submitMoves (by rw [hk]; rfl) (by rw [hk]; exact id)
  | proceed hk _ => exact h.submitMoves (by rw [hk]; rfl) (by rw [hk]; exact id)
  | full hk _ => exact h.submitMoves (by rw [hk]; rfl) (by rw [hk]; exact id)
  | evictNone hk _ => exact h.submitMoves (by rw [hk]; rfl) (by rw [hk]; exact fun _ => rfl)
  | unlock hk => exact h.submitMoves (by rw [hk]; rfl) (by rw [hk]; exact id)
  | send hk hsend => exact h.send (by rw [hk]; rfl) hsend
  | resend hk hsend => exact h.send (by rw [hk]; rfl) hsend
  | evict hk hreceive => exact h.evict hk hreceive
  | receive _ hreceive => exact h.receive hreceive
  | evictClosed hk hreceive => exact absurd hreceive (hguard.not_evictClosed hk)
  | lose hk hsend => exact absurd hsend (hguard.not_lose hk)
  | markClosed _ _ hclose =>
    unfold Chan.close at hclose
    split at hclose
    · cases hclose
    · cases hclose
      exact ⟨h.nodup, h.sent, h.placed, h.order, h.evictors, h.past, h.drops⟩
  | _ => exact ⟨h.nodup, h.sent, h.placed, h.order, h.evictors, h.past, h.drops⟩

/-! ## Submission -/

/-- What holds of submissions in a state, whatever the order of the steps that led there. -/
structure Submission (d : Dispatcher cfg) : Prop where
  noPanic : d.panicked = false
  /-- A call that is about to send finds the channel open. -/
  sendsWhileOpen : ∀ k, d.submits k = .sending ∨ d.submits k = .resending →
    d.queue.closed = false
  /-- A call that is returning `true` has its task in the channel or with a worker. -/
  keepsNewest : ∀ k, d.submits k = .returning true → k ∈ d.queue.buffer ∨ k ∈ d.received
  /-- The last `default` is never taken. -/
  roomToResend : ∀ k, d.submits k = .resending → d.queue.buffer.length < d.queue.capacity
  nothingLost : d.lost = []
  evictsOnce : (d.evicted.map Prod.fst).Nodup
  evictsOldest : ∀ l t, step d l = some t → t.evicted = d.evicted ∨
    ∃ k elapsed oldest rest, l = .evict k elapsed ∧ d.queue.buffer = oldest :: rest ∧
      t.queue.buffer = rest ∧ t.evicted = d.evicted ++ [(k, oldest)]
  /-- `recordDrop` is called by the calls that evict, once each. -/
  drops : d.recordDrops = d.evicted.map Prod.fst
  acceptedOnce : d.accepted.Nodup ∧ ∀ k, k ∈ d.accepted ↔ (d.submits k).sent = true
  receivedOnce : d.received.Nodup
  /-- Received and queued in the order of acceptance. -/
  inOrder : (d.received ++ d.queue.buffer).Sublist d.accepted

theorem evicts_oldest (hguard : Guarded d) (hstep : step d l = some t) :
    t.evicted = d.evicted ∨
      ∃ k elapsed oldest rest, l = .evict k elapsed ∧ d.queue.buffer = oldest :: rest ∧
        t.queue.buffer = rest ∧ t.evicted = d.evicted ++ [(k, oldest)] := by
  cases step_moves hstep with
  | evict _ hreceive =>
    obtain ⟨rest, hbuffer, rfl⟩ := Chan.receive_eq_value hreceive
    exact .inr ⟨_, _, _, rest, rfl, hbuffer, rfl, rfl⟩
  | evictClosed hk hreceive => exact absurd hreceive (hguard.not_evictClosed hk)
  | lose hk hsend => exact absurd hsend (hguard.not_lose hk)
  | _ => exact .inl rfl

/-- **Submission is safe under every interleaving** of submissions, workers and closes. -/
theorem submission_is_safe {ls : List (Label cfg)}
    (hrun : Run step anyStep (newDispatcher cfg) ls d) : Submission d := by
  obtain ⟨hguard, hledger⟩ : Guarded d ∧ Ledger d := by
    refine hrun.invariant (I := fun d => Guarded d ∧ Ledger d) ?_ ⟨.init, .init⟩
    intro s l t _ hstep hs
    exact ⟨guarded_step hstep hs.1, ledger_step hstep hs.1 hs.2⟩
  refine
    { noPanic := hguard.panicked
      sendsWhileOpen := ?_
      keepsNewest := ?_
      roomToResend := ?_
      nothingLost := hguard.lost
      evictsOnce := hledger.evictors
      evictsOldest := ?_
      drops := hledger.drops
      acceptedOnce := ⟨hledger.nodup, hledger.sent⟩
      receivedOnce := ?_
      inOrder := hledger.order }
  · intro k hk
    rcases hk with hk | hk
    · exact hguard.sending_open hk
    · exact (hguard.resending_room hk).1
  · intro k hk
    have hold := hguard.holding k
    rw [hk] at hold
    exact hold rfl
  · intro k hk
    exact (hguard.resending_room hk).2
  · intro l t hstep
    exact evicts_oldest hguard hstep
  · exact hledger.nodup.sublist ((List.sublist_append_left _ _).trans hledger.order)

end

/-- One worker and room for one task. -/
def smallest : Config := ⟨1, 1, Nat.one_pos⟩

/-- The second submission evicts the task of the first; the worker receives the newer one. -/
def overflowing : List (Label smallest) :=
  [.lock 0, .check 0, .send 0, .unlock 0, .lock 1, .check 1, .send 1, .evict 1 false,
    .resend 1 false, .receive ⟨0, Nat.one_pos⟩, .unlock 1]

theorem submission_is_safe_overflowing : ∃ d,
    Run step anyStep (newDispatcher smallest) overflowing d ∧
    (d.evicted = [(1, 0)] ∧ d.received = [1]) ∧ Submission d := by
  obtain ⟨d, hrun, hd⟩ := exists_run_of_exec step anyStep (newDispatcher smallest) overflowing
    (fun d => d.evicted = [(1, 0)] ∧ d.received = [1]) rfl
  exact ⟨d, hrun, of_decide_eq_true hd, submission_is_safe hrun⟩

end OppexSdk.Go
