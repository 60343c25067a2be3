import OppexSdk.Lib.Simulation
import Mathlib.Algebra.BigOperators.Group.Multiset.Basic
import Mathlib.Algebra.Order.BigOperators.Group.Finset
import Mathlib.Tactic.Abel

/-! # Bounded task pools

What a pool of workers with a bounded queue is for, without threads, locks or wake-ups. A task is
admitted, and the oldest queued one gives way to it when the queue is full; a free worker starts
the oldest queued task and finishes it; the pool stops admitting, and later gives up what is still
queued. What became of the tasks is read from the events of a run. -/
namespace OppexSdk.Lib.BoundedPool
open OppexSdk.Lib.Transition OppexSdk.Lib.Simulation

structure Pool (τ ω : Type) where
  queue : List τ
  holding : ω → Option τ
  admitting : Bool
  serving : Bool

inductive Event (τ ω : Type)
  | accept (k : τ) (displaced : Option τ)
  | refuse (k : τ)
  | start (w : ω) (k : τ)
  | finish (w : ω) (k : τ)
  | shut
  | abandon (left : List τ)
  deriving DecidableEq

variable {τ ω : Type}

def new : Pool τ ω := ⟨[], fun _ => none, true, true⟩

namespace Pool

/-- The task that gives way to the next one. -/
def displaced (capacity : Nat) (p : Pool τ ω) : Option τ :=
  if capacity ≤ p.queue.length then p.queue.head? else none

/-- The queue the next task is appended to. -/
def remaining (capacity : Nat) (p : Pool τ ω) : List τ :=
  if capacity ≤ p.queue.length then p.queue.tail else p.queue

end Pool

section
variable [DecidableEq τ] [DecidableEq ω]

def step (capacity : Nat) (p : Pool τ ω) : Event τ ω → Option (Pool τ ω)
  | .accept k displaced =>
    if p.admitting = true ∧ displaced = p.displaced capacity then
      some { p with queue := p.remaining capacity ++ [k] }
    else none
  | .refuse _ => if p.admitting = false then some p else none
  | .start w k =>
    if p.queue.head? = some k ∧ p.holding w = none then
      some { p with queue := p.queue.tail, holding := Function.update p.holding w (some k) }
    else none
  | .finish w k =>
    if p.holding w = some k then some { p with holding := Function.update p.holding w none }
    else none
  | .shut => if p.admitting = true then some { p with admitting := false } else none
  | .abandon left =>
    if p.admitting = false ∧ p.serving = true ∧ left = p.queue then
      some { p with queue := [], serving := false }
    else none

/-- What an event of the pool does. -/
inductive Moves (capacity : Nat) (p : Pool τ ω) : Event τ ω → Pool τ ω → Prop
  | accept {k : τ} : p.admitting = true → Moves capacity p (.accept k (p.displaced capacity))
      { p with queue := p.remaining capacity ++ [k] }
  | refuse {k : τ} : p.admitting = false → Moves capacity p (.refuse k) p
  | start {w : ω} {k : τ} {rest : List τ} : p.queue = k :: rest → p.holding w = none →
      Moves capacity p (.start w k)
        { p with queue := rest, holding := Function.update p.holding w (some k) }
  | finish {w : ω} {k : τ} : p.holding w = some k → Moves capacity p (.finish w k)
      { p with holding := Function.update p.holding w none }
  | shut : p.admitting = true → Moves capacity p .shut { p with admitting := false }
  | abandon : p.admitting = false → p.serving = true → Moves capacity p (.abandon p.queue)
      { p with queue := [], serving := false }

theorem step_moves {capacity : Nat} {p q : Pool τ ω} {e : Event τ ω}
    (h : step capacity p e = some q) : Moves capacity p e q := by
  cases e with
  | accept k displaced =>
    simp only [step] at h
    split at h
    · rename_i hc
      obtain ⟨hadm, rfl⟩ := hc
      cases h
      exact .accept hadm
    · cases h
  | refuse k =>
    simp only [step] at h
    split at h
    · rename_i hc
      cases h
      exact .refuse hc
    · cases h
  | start w k =>
    simp only [step] at h
    split at h
    · rename_i hc
      obtain ⟨hhead, hw⟩ := hc
      obtain ⟨rest, hrest⟩ := List.head?_eq_some_iff.mp hhead
      cases h
      rw [hrest, List.tail_cons]
      exact .start hrest hw
    · cases h
  | finish w k =>
    simp only [step] at h
    split at h
    · rename_i hc
      cases h
      exact .finish hc
    · cases h
  | shut =>
    simp only [step] at h
    split at h
    · rename_i hc
      cases h
      exact .shut hc
    · cases h
  | abandon left =>
    simp only [step] at h
    split at h
    · rename_i hc
      obtain ⟨hadm, hserving, rfl⟩ := hc
      cases h
      exact .abandon hadm hserving
    · cases h

theorem Moves.step {capacity : Nat} {p q : Pool τ ω} {e : Event τ ω} (h : Moves capacity p e q) :
    step capacity p e = some q := by
  cases h with
  | accept hadm => simp [BoundedPool.step, hadm]
  | refuse hadm => simp [BoundedPool.step, hadm]
  | start hqueue hw => simp [BoundedPool.step, hqueue, hw]
  | finish hw => simp [BoundedPool.step, hw]
  | shut hadm => simp [BoundedPool.step, hadm]
  | abandon hadm hserving => simp [BoundedPool.step, hadm, hserving]

/-- An event as a run of its own. -/
theorem Moves.run {capacity : Nat} {p q : Pool τ ω} {e : Event τ ω} (h : Moves capacity p e q) :
    Run (BoundedPool.step capacity) anyStep p [e] q := run_one h.step

end

/-! ## What became of the tasks -/

namespace Event

def admits : Event τ ω → List τ
  | accept k _ => [k]
  | _ => []

def displaces : Event τ ω → List τ
  | accept _ displaced => displaced.toList
  | _ => []

def refuses : Event τ ω → List τ
  | refuse k => [k]
  | _ => []

def starts : Event τ ω → List τ
  | start _ k => [k]
  | _ => []

def finishes : Event τ ω → List τ
  | finish _ k => [k]
  | _ => []

def abandons : Event τ ω → List τ
  | abandon left => left
  | _ => []

end Event

/-- The tasks that a history of events admitted, and what else it did with tasks. -/
def admitted (es : List (Event τ ω)) : List τ := es.flatMap Event.admits
def displaced (es : List (Event τ ω)) : List τ := es.flatMap Event.displaces
def refused (es : List (Event τ ω)) : List τ := es.flatMap Event.refuses
def started (es : List (Event τ ω)) : List τ := es.flatMap Event.starts
def finished (es : List (Event τ ω)) : List τ := es.flatMap Event.finishes
def abandoned (es : List (Event τ ω)) : List τ := es.flatMap Event.abandons

section
variable {es fs : List (Event τ ω)} {e : Event τ ω}

@[simp] theorem admitted_append : admitted (es ++ fs) = admitted es ++ admitted fs :=
  List.flatMap_append

@[simp] theorem displaced_append : displaced (es ++ fs) = displaced es ++ displaced fs :=
  List.flatMap_append

@[simp] theorem refused_append : refused (es ++ fs) = refused es ++ refused fs :=
  List.flatMap_append

@[simp] theorem started_append : started (es ++ fs) = started es ++ started fs :=
  List.flatMap_append

@[simp] theorem finished_append : finished (es ++ fs) = finished es ++ finished fs :=
  List.flatMap_append

@[simp] theorem abandoned_append : abandoned (es ++ fs) = abandoned es ++ abandoned fs :=
  List.flatMap_append

@[simp] theorem admitted_cons : admitted (e :: es) = e.admits ++ admitted es := List.flatMap_cons
@[simp] theorem displaced_cons : displaced (e :: es) = e.displaces ++ displaced es :=
  List.flatMap_cons
@[simp] theorem refused_cons : refused (e :: es) = e.refuses ++ refused es := List.flatMap_cons
@[simp] theorem started_cons : started (e :: es) = e.starts ++ started es := List.flatMap_cons
@[simp] theorem finished_cons : finished (e :: es) = e.finishes ++ finished es :=
  List.flatMap_cons
@[simp] theorem abandoned_cons : abandoned (e :: es) = e.abandons ++ abandoned es :=
  List.flatMap_cons

@[simp] theorem admitted_nil : admitted ([] : List (Event τ ω)) = [] := rfl
@[simp] theorem displaced_nil : displaced ([] : List (Event τ ω)) = [] := rfl
@[simp] theorem refused_nil : refused ([] : List (Event τ ω)) = [] := rfl
@[simp] theorem started_nil : started ([] : List (Event τ ω)) = [] := rfl
@[simp] theorem finished_nil : finished ([] : List (Event τ ω)) = [] := rfl
@[simp] theorem abandoned_nil : abandoned ([] : List (Event τ ω)) = [] := rfl

end

/-! ## Accounting -/

section
variable {capacity : Nat} {p : Pool τ ω}

/-- What gives way and what remains are the queue. -/
theorem displaced_add_remaining (capacity : Nat) (p : Pool τ ω) :
    ((p.displaced capacity).toList : Multiset τ) + p.remaining capacity = p.queue := by
  unfold Pool.displaced Pool.remaining
  split
  · cases p.queue with
    | nil => rfl
    | cons k rest => simp
  · simp

theorem remaining_sublist : (p.remaining capacity).Sublist p.queue := by
  unfold Pool.remaining
  split
  · exact List.tail_sublist _
  · exact List.Sublist.refl _

theorem length_remaining (h : p.queue.length ≤ max capacity 1) :
    (p.remaining capacity).length + 1 ≤ max capacity 1 := by
  unfold Pool.remaining
  split
  · rw [List.length_tail]
    omega
  · omega

end

section
variable [Fintype ω]

/-- What the workers hold, together. -/
def executing (holding : ω → Option τ) : Multiset τ := ∑ w, (holding w).elim 0 fun k => {k}

section
variable [DecidableEq ω] {holding : ω → Option τ} {w : ω} {k : τ}

theorem executing_take (hw : holding w = none) :
    executing (Function.update holding w (some k)) = executing holding + {k} :=
  sum_update_gain (g := fun x : Option τ => x.elim (0 : Multiset τ) fun k => {k})
    (by rw [hw]; rfl)

theorem executing_release (hw : holding w = some k) :
    executing holding = executing (Function.update holding w none) + {k} := by
  have h := sum_update_lose (g := fun x : Option τ => x.elim (0 : Multiset τ) fun k => {k})
    (p := holding) (i := w) (x := none) rfl
  rw [hw] at h
  exact h.symm

end

/-- The admitted tasks are those displaced, queued, abandoned and started, the started ones are
those finished and those still held, and tasks are started in the order they were admitted. -/
structure Accounted (capacity : Nat) (es : List (Event τ ω)) (p : Pool τ ω) : Prop where
  placed : (admitted es : Multiset τ) =
    displaced es + p.queue + abandoned es + started es
  popped : (started es : Multiset τ) = finished es + executing p.holding
  order : (started es ++ p.queue).Sublist (admitted es)
  bounded : p.queue.length ≤ max capacity 1
  kept : p.serving = true → abandoned es = []
  stopped : p.serving = false → p.queue = [] ∧ p.admitting = false
  refusing : p.admitting = true → refused es = []

theorem Accounted.init {capacity : Nat} : Accounted capacity [] (new : Pool τ ω) where
  placed := rfl
  popped := by simp [new, executing]
  order := List.Sublist.refl _
  bounded := Nat.zero_le _
  kept _ := rfl
  stopped h := absurd h.symm Bool.false_ne_true
  refusing _ := rfl

section
variable [DecidableEq τ] [DecidableEq ω] {capacity : Nat} {p q : Pool τ ω}
  {es : List (Event τ ω)} {e : Event τ ω}

theorem Accounted.step (hstep : step capacity p e = some q) (h : Accounted capacity es p) :
    Accounted capacity (es ++ [e]) q := by
  cases step_moves hstep with
  | @accept k hadm =>
    refine ⟨?_, ?_, ?_, ?_, ?_, ?_, ?_⟩
    · simp only [admitted_append, displaced_append, abandoned_append, started_append,
        admitted_cons, displaced_cons, abandoned_cons, started_cons, Event.admits,
        Event.displaces, Event.abandons, Event.starts, admitted_nil, displaced_nil,
        abandoned_nil, started_nil, List.append_nil, ← Multiset.coe_add, h.placed]
      rw [← displaced_add_remaining capacity p]
      abel
    · simpa [Event.starts, Event.finishes] using h.popped
    · have hqueue : (started es ++ p.remaining capacity).Sublist (admitted es) :=
        (remaining_sublist.append_left _).trans h.order
      simpa [Event.starts, Event.admits] using hqueue.append (List.Sublist.refl [k])
    · simpa using length_remaining h.bounded
    · intro hs
      simpa [Event.abandons] using h.kept hs
    · intro hs
      exact absurd ((h.stopped hs).2.symm.trans hadm) Bool.false_ne_true
    · intro _
      simpa [Event.refuses] using h.refusing hadm
  | refuse hadm =>
    refine ⟨?_, ?_, ?_, h.bounded, ?_, h.stopped, ?_⟩
    · simpa [Event.admits, Event.displaces, Event.abandons, Event.starts] using h.placed
    · simpa [Event.starts, Event.finishes] using h.popped
    · simpa [Event.starts, Event.admits] using h.order
    · intro hs
      simpa [Event.abandons] using h.kept hs
    · intro ha
      exact absurd (hadm.symm.trans ha) Bool.false_ne_true
  | @start w k rest hqueue hw =>
    refine ⟨?_, ?_, ?_, ?_, ?_, ?_, ?_⟩
    · simp only [admitted_append, displaced_append, abandoned_append, started_append,
        admitted_cons, displaced_cons, abandoned_cons, started_cons, Event.admits,
        Event.displaces, Event.abandons, Event.starts, admitted_nil, displaced_nil,
        abandoned_nil, started_nil, List.append_nil, ← Multiset.coe_add, h.placed, hqueue,
        ← Multiset.cons_coe, ← Multiset.singleton_add, Multiset.coe_nil]
      abel
    · simp only [started_append, finished_append, started_cons, finished_cons, Event.starts,
        Event.finishes, started_nil, finished_nil, List.append_nil, ← Multiset.coe_add, h.popped,
        executing_take hw, Multiset.coe_singleton]
      abel
    · simpa [Event.starts, Event.admits, hqueue] using h.order
    · have hlen := h.bounded
      rw [hqueue, List.length_cons] at hlen
      exact (Nat.le_succ _).trans hlen
    · intro hs
      simpa [Event.abandons] using h.kept hs
    · intro hs
      have hnil := (h.stopped hs).1
      rw [hqueue] at hnil
      cases hnil
    · intro ha
      simpa [Event.refuses] using h.refusing ha
  | @finish w k hw =>
    refine ⟨?_, ?_, ?_, h.bounded, ?_, h.stopped, ?_⟩
    · simpa [Event.admits, Event.displaces, Event.abandons, Event.starts] using h.placed
    · have hpopped := h.popped
      rw [executing_release hw] at hpopped
      simp only [started_append, finished_append, started_cons, finished_cons, Event.starts,
        Event.finishes, started_nil, finished_nil, List.append_nil, ← Multiset.coe_add, hpopped,
        Multiset.coe_singleton]
      abel
    · simpa [Event.starts, Event.admits] using h.order
    · intro hs
      simpa [Event.abandons] using h.kept hs
    · intro ha
      simpa [Event.refuses] using h.refusing ha
  | shut hadm =>
    refine ⟨?_, ?_, ?_, h.bounded, ?_, ?_, ?_⟩
    · simpa [Event.admits, Event.displaces, Event.abandons, Event.starts] using h.placed
    · simpa [Event.starts, Event.finishes] using h.popped
    · simpa [Event.starts, Event.admits] using h.order
    · intro hs
      simpa [Event.abandons] using h.kept hs
    · intro hs
      exact ⟨(h.stopped hs).1, rfl⟩
    · intro ha
      exact absurd ha Bool.false_ne_true
  | abandon hadm hserving =>
    refine ⟨?_, ?_, ?_, Nat.zero_le _, ?_, ?_, ?_⟩
    · simp only [admitted_append, displaced_append, abandoned_append, started_append,
        admitted_cons, displaced_cons, abandoned_cons, started_cons, Event.admits,
        Event.displaces, Event.abandons, Event.starts, admitted_nil, displaced_nil,
        abandoned_nil, started_nil, List.append_nil, ← Multiset.coe_add, h.placed,
        Multiset.coe_nil]
      abel
    · simpa [Event.starts, Event.finishes] using h.popped
    · simpa [Event.starts, Event.admits] using
        (List.sublist_append_left (started es) p.queue).trans h.order
    · intro hs
      exact absurd hs Bool.false_ne_true
    · intro _
      exact ⟨rfl, hadm⟩
    · intro ha
      exact absurd (hadm.symm.trans ha) Bool.false_ne_true

theorem Accounted.run {fs : List (Event τ ω)} (h : Accounted capacity es p)
    (hrun : Run (BoundedPool.step capacity) anyStep p fs q) : Accounted capacity (es ++ fs) q := by
  refine run_history (I := fun fs q => Accounted capacity (es ++ fs) q) ?_ hrun ?_
  · intro fs p e q _ hstep hp
    rw [← List.append_assoc]
    exact hp.step hstep
  · rwa [List.append_nil]

theorem accounted_run (h : Run (BoundedPool.step capacity) anyStep new es p) :
    Accounted capacity es p := Accounted.init.run h

end

/-! ## Where an admitted task is -/

inductive Place (ω : Type)
  | queued
  | executing (w : ω)
  | finished
  | displaced
  | abandoned

/-- The history and the pool say that the task is there. -/
def At (es : List (Event τ ω)) (p : Pool τ ω) (k : τ) : Place ω → Prop
  | .queued => k ∈ p.queue
  | .executing w => p.holding w = some k
  | .finished => k ∈ finished es
  | .displaced => k ∈ displaced es
  | .abandoned => k ∈ abandoned es

section
variable [DecidableEq τ] {capacity : Nat} {p : Pool τ ω} {es : List (Event τ ω)} {k : τ}

theorem count_executing (holding : ω → Option τ) (k : τ) :
    (executing holding).count k = (Finset.univ.filter fun w => holding w = some k).card := by
  rw [executing, Multiset.count_sum', Finset.card_filter]
  refine Finset.sum_congr rfl ?_
  intro w _
  cases holding w with
  | none => simp
  | some t => simp [Multiset.count_singleton, eq_comm]

/-- A task admitted once occurs once in the lists and the workers' hands taken together. -/
theorem Accounted.count_one (h : Accounted capacity es p) (hn : (admitted es).Nodup)
    (hk : k ∈ admitted es) :
    (displaced es).count k + p.queue.count k + (abandoned es).count k + (finished es).count k +
      (executing p.holding).count k = 1 := by
  have hone : (admitted es : Multiset τ).count k = 1 := by
    rw [Multiset.coe_count]
    exact List.count_eq_one_of_mem hn hk
  rw [h.placed, h.popped] at hone
  simpa [Multiset.count_add, add_assoc] using hone

theorem Accounted.place_unique (h : Accounted capacity es p) (hn : (admitted es).Nodup)
    (hk : k ∈ admitted es) {x y : Place ω} (hx : At es p k x) (hy : At es p k y) : x = y := by
  have hone := h.count_one hn hk
  rw [count_executing] at hone
  have hheld : ∀ w, p.holding w = some k →
      0 < (Finset.univ.filter fun w => p.holding w = some k).card := by
    intro w hw
    exact Finset.card_pos.mpr ⟨w, by simp [hw]⟩
  cases x <;> cases y <;> simp only [At, ← List.count_pos_iff (a := k)] at hx hy
  case executing.executing v w =>
    have hle : (Finset.univ.filter fun w => p.holding w = some k).card ≤ 1 := by omega
    rw [Finset.card_le_one.mp hle v (by simp [hx]) w (by simp [hy])]
  all_goals
    first
    | rfl
    | omega
    | (have hpos := hheld _ hx; omega)
    | (have hpos := hheld _ hy; omega)

theorem Accounted.place_exists (h : Accounted capacity es p) (hn : (admitted es).Nodup)
    (hk : k ∈ admitted es) : ∃ x, At es p k x := by
  by_contra hno
  have hno : ∀ x, ¬ At es p k x := fun x hx => hno ⟨x, hx⟩
  have hone := h.count_one hn hk
  have hidle : (executing p.holding).count k = 0 := by
    rw [count_executing, Finset.card_eq_zero, Finset.filter_eq_empty_iff]
    exact fun w _ => hno (.executing w)
  rw [List.count_eq_zero.mpr (hno .displaced), List.count_eq_zero.mpr (hno .queued),
    List.count_eq_zero.mpr (hno .abandoned), List.count_eq_zero.mpr (hno .finished), hidle] at hone
  omega

/-- **A task admitted once is in one place.** -/
theorem Accounted.one_place (h : Accounted capacity es p) (hn : (admitted es).Nodup)
    (hk : k ∈ admitted es) : ∃! x, At es p k x := by
  obtain ⟨x, hx⟩ := h.place_exists hn hk
  exact ⟨x, hx, fun y hy => h.place_unique hn hk hy hx⟩

omit [DecidableEq τ] in
/-- The started tasks are a part of the admitted ones, in the same order. -/
theorem Accounted.started_sublist (h : Accounted capacity es p) :
    (started es).Sublist (admitted es) :=
  (List.sublist_append_left _ _).trans h.order

omit [DecidableEq τ] in
/-- What is anywhere was admitted. -/
theorem Accounted.at_admitted (h : Accounted capacity es p) {x : Place ω} (hx : At es p k x) :
    k ∈ admitted es := by
  have hin : (k : τ) ∈ (displaced es : Multiset τ) + p.queue + abandoned es +
      (finished es + executing p.holding) := by
    simp only [Multiset.mem_add, Multiset.mem_coe]
    cases x with
    | queued => exact .inl (.inl (.inr hx))
    | displaced => exact .inl (.inl (.inl hx))
    | abandoned => exact .inl (.inr hx)
    | finished => exact .inr (.inl hx)
    | executing w =>
      refine .inr (.inr ?_)
      rw [executing, Multiset.mem_sum]
      have hw : p.holding w = some k := hx
      exact ⟨w, Finset.mem_univ w, by rw [hw]; exact Multiset.mem_singleton_self k⟩
  rw [← h.popped, ← h.placed] at hin
  exact Multiset.mem_coe.mp hin

end

end

/-! ## What the submitters were told -/

/-- A task has no verdict yet, or the one the history gives it. -/
structure Verdicts (es : List (Event τ ω)) (verdict : τ → Option Bool) : Prop where
  nodup : (admitted es).Nodup
  admitted : ∀ k, k ∈ BoundedPool.admitted es ↔ verdict k = some true
  refused : ∀ k, k ∈ BoundedPool.refused es ↔ verdict k = some false

theorem Verdicts.init : Verdicts ([] : List (Event τ ω)) fun _ => none where
  nodup := List.nodup_nil
  admitted k := iff_of_false List.not_mem_nil (by simp)
  refused k := iff_of_false List.not_mem_nil (by simp)

section
variable {es fs : List (Event τ ω)} {verdict : τ → Option Bool} {k : τ}

/-- Nothing is admitted or refused. -/
theorem Verdicts.quiet (h : Verdicts es verdict) (hadmitted : BoundedPool.admitted fs = [])
    (hrefused : BoundedPool.refused fs = []) : Verdicts (es ++ fs) verdict where
  nodup := by simpa [hadmitted] using h.nodup
  admitted := by simpa [hadmitted] using h.admitted
  refused := by simpa [hrefused] using h.refused

variable [DecidableEq τ]

theorem Verdicts.accept (h : Verdicts es verdict) (hk : verdict k = none) (displaced : Option τ) :
    Verdicts (es ++ [.accept k displaced]) (Function.update verdict k (some true)) := by
  have hnew : k ∉ BoundedPool.admitted es := by
    rw [h.admitted k, hk]
    simp
  refine ⟨?_, ?_, ?_⟩
  · have hnodup := h.nodup.concat hnew
    rw [List.concat_eq_append] at hnodup
    simpa [Event.admits] using hnodup
  · simp only [admitted_append, admitted_cons, admitted_nil, Event.admits, List.append_nil,
      List.mem_append, List.mem_singleton]
    refine (Function.forall_update_iff verdict fun j v => j ∈ BoundedPool.admitted es ∨ j = k ↔
      v = some true).mpr ⟨by simp, fun j hj => ?_⟩
    rw [or_iff_left hj]
    exact h.admitted j
  · simp only [refused_append, refused_cons, refused_nil, Event.refuses, List.append_nil]
    refine (Function.forall_update_iff verdict fun j v => j ∈ BoundedPool.refused es ↔
      v = some false).mpr ⟨?_, fun j _ => h.refused j⟩
    rw [h.refused k, hk]
    simp

theorem Verdicts.refuse (h : Verdicts es verdict) (hk : verdict k = none) :
    Verdicts (es ++ [.refuse k]) (Function.update verdict k (some false)) := by
  refine ⟨?_, ?_, ?_⟩
  · simpa [Event.admits] using h.nodup
  · simp only [admitted_append, admitted_cons, admitted_nil, Event.admits, List.append_nil]
    refine (Function.forall_update_iff verdict fun j v => j ∈ BoundedPool.admitted es ↔
      v = some true).mpr ⟨?_, fun j _ => h.admitted j⟩
    rw [h.admitted k, hk]
    simp
  · simp only [refused_append, refused_cons, refused_nil, Event.refuses, List.append_nil,
      List.mem_append, List.mem_singleton]
    refine (Function.forall_update_iff verdict fun j v => j ∈ BoundedPool.refused es ∨ j = k ↔
      v = some false).mpr ⟨by simp, fun j hj => ?_⟩
    rw [or_iff_left hj]
    exact h.refused j

end

/-! ## The end of the service -/

section
variable [DecidableEq τ] [DecidableEq ω] {capacity : Nat} {p q : Pool τ ω}
  {es fs : List (Event τ ω)}

/-- The pool has given up its queue. -/
def Stopped (p : Pool τ ω) : Prop :=
  p.queue = [] ∧ p.admitting = false ∧ p.serving = false

/-- Nothing but the end of what is held, and refusals, follows. -/
structure Final (p : Pool τ ω) (es : List (Event τ ω)) (q : Pool τ ω) : Prop where
  stopped : Stopped q
  admitted : admitted es = []
  displaced : displaced es = []
  started : started es = []
  abandoned : abandoned es = []
  held : ∀ w k, q.holding w = some k → p.holding w = some k

theorem final_run (h : Run (step capacity) anyStep p es q) (hp : Stopped p) : Final p es q := by
  refine run_history (I := Final p) ?_ h ⟨hp, rfl, rfl, rfl, rfl, fun _ _ => id⟩
  intro ls s l t _ hstep hs
  obtain ⟨hqueue, hadm, hserving⟩ := hs.stopped
  cases step_moves hstep with
  | accept ha => exact absurd (hadm.symm.trans ha) Bool.false_ne_true
  | shut ha => exact absurd (hadm.symm.trans ha) Bool.false_ne_true
  | abandon _ hs => exact absurd (hserving.symm.trans hs) Bool.false_ne_true
  | start hne =>
    rw [hqueue] at hne
    cases hne
  | refuse =>
    refine ⟨hs.stopped, ?_, ?_, ?_, ?_, hs.held⟩
    · simpa [Event.admits] using hs.admitted
    · simpa [Event.displaces] using hs.displaced
    · simpa [Event.starts] using hs.started
    · simpa [Event.abandons] using hs.abandoned
  | @finish w k hw =>
    refine ⟨hs.stopped, ?_, ?_, ?_, ?_, ?_⟩
    · simpa [Event.admits] using hs.admitted
    · simpa [Event.displaces] using hs.displaced
    · simpa [Event.starts] using hs.started
    · simpa [Event.abandons] using hs.abandoned
    · exact (Function.forall_update_iff s.holding fun v x => ∀ j, x = some j →
        p.holding v = some j).mpr ⟨fun _ hj => (by cases hj), fun v _ => hs.held v⟩

/-- **What the pool gives up is what it has left over,** and the history ends there. -/
theorem abandon_accounts [Fintype ω] {left : List τ}
    (h : Run (step capacity) anyStep new (es ++ .abandon left :: fs) p) :
    (admitted es : Multiset τ) = displaced es + started es + left ∧ abandoned es = [] ∧
      ∃ a, Run (step capacity) anyStep new (es ++ [.abandon left]) a ∧ Final a fs p := by
  obtain ⟨s, hs, hrest⟩ := h.split
  have hacc := accounted_run hs
  cases hrest with
  | cons hok hstep hfs =>
    have hrun := hs.snoc hok hstep
    cases step_moves hstep with
    | abandon hadm hserving =>
      have hkept := hacc.kept hserving
      refine ⟨?_, hkept, _, hrun, final_run hfs ⟨rfl, hadm, rfl⟩⟩
      rw [hacc.placed, hkept, Multiset.coe_nil]
      abel

/-- A task gives way only in a full queue, whose oldest it is. -/
theorem displaced_oldest {k oldest : τ}
    (h : Run (step capacity) anyStep new (es ++ .accept k (some oldest) :: fs) p) :
    ∃ s, Run (step capacity) anyStep new es s ∧ capacity ≤ s.queue.length ∧
      s.queue.head? = some oldest := by
  obtain ⟨s, hs, hrest⟩ := h.split
  refine ⟨s, hs, ?_⟩
  cases hrest with
  | cons _ hstep _ =>
    simp only [step] at hstep
    split at hstep
    · rename_i hc
      have hdisplaced := hc.2
      unfold Pool.displaced at hdisplaced
      split at hdisplaced
      · rename_i hfull
        exact ⟨hfull, hdisplaced.symm⟩
      · cases hdisplaced
    · cases hstep

end

end OppexSdk.Lib.BoundedPool
