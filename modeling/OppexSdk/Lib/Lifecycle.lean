import Mathlib.Data.List.Nodup
import Mathlib.Data.List.Perm.Subperm
import Mathlib.Data.Int.Basic
import OppexSdk.Lib.Places

/-! # The life of a task

A task is created and counted, waits in a queue, and is taken by a holder who claims it, takes it
out of the count and acts on it, once. A dispatcher with threads says many things about its tasks:
the submitter of a task about its own, the queue about those in it, every thread about the one it
holds. They are read together as a view. A view is accounted for when each task is in one place,
and its histories have each task once or not at all, as the place says. The moves of one task keep
this, so that a dispatcher only has to show which move each of its steps is. -/
namespace OppexSdk.Lib.Lifecycle

/-- What the holder of a task does next. -/
inductive Stage
  | claim | decrement | act
  deriving DecidableEq

inductive Place (η : Type)
  | fresh
  /-- It exists and is not yet counted. -/
  | created
  /-- Counted, in the hands of whoever submits it. -/
  | own
  | queued
  | held (holder : η) (stage : Stage)
  | settled
  deriving DecidableEq

namespace Place
variable {η : Type}

/-- The task has been counted. -/
def registered : Place η → Bool
  | fresh | created => false
  | _ => true

/-- Somebody has claimed the task. -/
def claimed : Place η → Bool
  | held _ .decrement | held _ .act | settled => true
  | _ => false

/-- The task has been taken out of the count. -/
def released : Place η → Bool
  | held _ .act | settled => true
  | _ => false

def isSettled : Place η → Bool
  | settled => true
  | _ => false

end Place

open OppexSdk.Lib.Places (Located)

variable {τ η : Type} [DecidableEq τ]

/-! ## Histories -/

/-- The list has each task once that is in a place of the class, and no other. -/
def Counts (c : Place η → Bool) (xs : List τ) (place : τ → Place η) : Prop :=
  ∀ k, xs.count k = if c (place k) then 1 else 0

section
variable {c : Place η → Bool} {xs ys : List τ} {place : τ → Place η} {k : τ}

theorem Counts.mem_iff (h : Counts c xs place) : k ∈ xs ↔ c (place k) = true := by
  rw [← List.count_pos_iff, h k]
  split <;> simp_all

theorem Counts.nodup (h : Counts c xs place) : xs.Nodup := by
  refine List.nodup_iff_count_le_one.mpr ?_
  intro k
  rw [h k]
  split <;> decide

/-- A history of a smaller class has no task that the history of a larger class has not. -/
theorem Counts.subset {c' : Place η → Bool} (h : Counts c xs place) (h' : Counts c' ys place)
    (himp : ∀ p, c p = true → c' p = true) : xs ⊆ ys := by
  intro k hk
  exact h'.mem_iff.mpr (himp _ (h.mem_iff.mp hk))

/-- Two histories of classes that agree on every task are one. -/
theorem Counts.perm_of_agree {c' : Place η → Bool} (h : Counts c xs place)
    (h' : Counts c' ys place) (hagree : ∀ k, c (place k) = c' (place k)) : xs.Perm ys :=
  List.perm_iff_count.mpr fun k => by rw [h k, h' k, hagree k]

/-- How a history follows a task from one place to another: it notes the task when the task comes
into the class. -/
inductive Follows (c : Place η → Bool) (k : τ) (p q : Place η) (xs : List τ) : List τ → Prop
  | keep : c q = c p → Follows c k p q xs xs
  | enter {ys : List τ} : c p = false → c q = true → ys.Perm (xs ++ [k]) → Follows c k p q xs ys

theorem Counts.follow (h : Counts c xs place) {q : Place η}
    (hfollows : Follows c k (place k) q xs ys) : Counts c ys (Function.update place k q) := by
  intro i
  cases hfollows with
  | keep hq =>
    by_cases hi : i = k
    · subst hi
      rw [Function.update_self, hq, h i]
    · rw [Function.update_of_ne hi, h i]
  | enter hp hq hys =>
    rw [hys.count_eq, List.count_append]
    by_cases hi : i = k
    · subst hi
      rw [Function.update_self, hq, h i, hp]
      simp
    · rw [Function.update_of_ne hi, h i, List.count_singleton]
      simp [Ne.symm hi]

end

/-! ## Views -/

structure View (τ η : Type) where
  /-- What a submit says about its own task; `none` when it has let go of it. -/
  status : τ → Option (Place η)
  queue : List τ
  holding : η → Option (τ × Stage)
  claimed : τ → Bool
  /-- The count. -/
  depth : Int
  registered : List τ
  claims : List τ
  released : List τ
  done : List τ

namespace View

/-- The view says that the task is in the place. -/
def At (v : View τ η) (i : τ) : Place η → Prop
  | .queued => i ∈ v.queue
  | .held h stage => v.holding h = some (i, stage)
  | .settled => i ∈ v.done
  | p => v.status i = some p

/-- The view agrees with the places of the tasks. -/
structure Placed (v : View τ η) (place : τ → Place η) : Prop where
  at_iff : Located v.At place
  nodup : v.queue.Nodup
  claimed : ∀ i, v.claimed i = (place i).claimed
  depth : v.depth = v.registered.length - v.released.length
  registered : Counts Place.registered v.registered place
  claims : Counts Place.claimed v.claims place
  released : Counts Place.released v.released place
  done : Counts Place.isSettled v.done place

/-- Every task is in one place. -/
def Accounted (v : View τ η) : Prop := ∃ place, v.Placed place

/-- Nothing has been submitted. -/
def new : View τ η := ⟨fun _ => some .fresh, [], fun _ => none, fun _ => false, 0, [], [], [], []⟩

theorem accounted_new : (new : View τ η).Accounted := by
  refine ⟨fun _ => .fresh, ?_, List.nodup_nil, fun _ => rfl, rfl, fun _ => rfl,
    fun _ => rfl, fun _ => rfl, fun _ => rfl⟩
  intro i p
  cases p <;> simp [At, new]

section
variable {v w : View τ η} {place : τ → Place η} {k : τ} {p q : Place η}

/-- A task is in one place only. -/
theorem Accounted.at_unique (hv : v.Accounted) (hp : v.At k p) (hq : v.At k q) : p = q := by
  obtain ⟨place, hplace⟩ := hv
  exact hplace.at_iff.unique hp hq

theorem Accounted.claimed_of_at (hv : v.Accounted) (hp : v.At k p) :
    v.claimed k = p.claimed := by
  obtain ⟨place, hplace⟩ := hv
  rw [hplace.claimed k, (hplace.at_iff k p).mp hp]

theorem Accounted.nodup (hv : v.Accounted) : v.queue.Nodup := by
  obtain ⟨place, hplace⟩ := hv
  exact hplace.nodup

/-- The count is never negative. -/
theorem Accounted.depth_nonneg (hv : v.Accounted) : 0 ≤ v.depth := by
  obtain ⟨place, hplace⟩ := hv
  have hsub : v.released ⊆ v.registered := hplace.released.subset hplace.registered fun p hp => by
    cases p <;> first | rfl | cases hp
  have hlen := (List.subperm_of_subset hplace.released.nodup hsub).length_le
  rw [hplace.depth]
  omega

theorem Placed.claimed_move (hv : v.Placed place) (hw : w.claimed = Function.update v.claimed k
    q.claimed) (i : τ) : w.claimed i = (Function.update place k q i).claimed := by
  rw [hw]
  by_cases hi : i = k
  · subst hi
    rw [Function.update_self, Function.update_self]
  · rw [Function.update_of_ne hi, Function.update_of_ne hi]
    exact hv.claimed i

/-- **One task moves,** and everything the view says follows. -/
theorem Accounted.move (hv : v.Accounted) (hp : v.At k p) (hnew : w.At k q) (hgone : ¬ w.At k p)
    (hat : ∀ i r, ¬ (i = k ∧ (r = p ∨ r = q)) → (w.At i r ↔ v.At i r)) (hnodup : w.queue.Nodup)
    (hclaimed : w.claimed = Function.update v.claimed k q.claimed)
    (hdepth : w.depth = v.depth + (w.registered.length - v.registered.length) -
      (w.released.length - v.released.length))
    (hregistered : Follows Place.registered k p q v.registered w.registered)
    (hclaims : Follows Place.claimed k p q v.claims w.claims)
    (hreleased : Follows Place.released k p q v.released w.released)
    (hdone : Follows Place.isSettled k p q v.done w.done) : w.Accounted := by
  obtain ⟨place, hplace⟩ := hv
  have hpk : place k = p := (hplace.at_iff k p).mp hp
  subst hpk
  refine ⟨Function.update place k q, hplace.at_iff.move hp hnew hgone hat, hnodup,
    hplace.claimed_move hclaimed, ?_, hplace.registered.follow hregistered,
    hplace.claims.follow hclaims, hplace.released.follow hreleased, hplace.done.follow hdone⟩
  rw [hdepth, hplace.depth]
  omega

/-- The claim of a task that is not claimed by its move stays as it is. -/
theorem Accounted.claimed_same (hv : v.Accounted) (hp : v.At k p) (hq : q.claimed = p.claimed) :
    v.claimed = Function.update v.claimed k q.claimed := by
  rw [hq, ← hv.claimed_of_at hp, Function.update_eq_self]

end

/-! ## The moves -/

def setStatus (v : View τ η) (k : τ) (x : Option (Place η)) : View τ η :=
  { v with status := Function.update v.status k x }

theorem setStatus_self {v : View τ η} {k : τ} {x : Option (Place η)} (h : v.status k = x) :
    v.setStatus k x = v := by
  subst h
  rw [setStatus, Function.update_eq_self]

/-- Nothing is said differently of a place that a submit does not speak of. -/
theorem at_setStatus {v : View τ η} {k j : τ} {r : Place η} {x : Option (Place η)}
    (hx : j = k → (x = some r ↔ v.status k = some r)) :
    (v.setStatus k x).At j r ↔ v.At j r := by
  by_cases hj : j = k
  · subst hj
    cases r with
    | queued | held | settled => rfl
    | _ =>
      simp only [At, setStatus, Function.update_self]
      exact hx rfl
  · cases r with
    | queued | held | settled => rfl
    | _ => simp only [At, setStatus, Function.update_of_ne hj]

omit [DecidableEq τ] in
theorem at_queue {v : View τ η} {j : τ} {r : Place η} {queue : List τ} (hr : r ≠ .queued) :
    View.At { v with queue := queue } j r ↔ v.At j r := by
  cases r with
  | queued => exact absurd rfl hr
  | _ => rfl

omit [DecidableEq τ] in
theorem at_done {v : View τ η} {j : τ} {r : Place η} {done : List τ} (hr : r ≠ .settled) :
    View.At { v with done := done } j r ↔ v.At j r := by
  cases r with
  | settled => exact absurd rfl hr
  | _ => rfl

section
variable {v : View τ η} {k : τ}

theorem Accounted.create (hv : v.Accounted) (hk : v.status k = some .fresh) :
    (v.setStatus k (some .created)).Accounted := by
  refine hv.move (k := k) (p := .fresh) (q := .created) hk ?_ ?_ ?_ hv.nodup
    (hv.claimed_same (p := .fresh) hk rfl) (by simp [setStatus]) (.keep rfl) (.keep rfl)
    (.keep rfl) (.keep rfl)
  · simp [At, setStatus]
  · simp [At, setStatus]
  · intro i r hne
    refine at_setStatus ?_
    intro hi
    have hne : ¬ (r = .fresh ∨ r = .created) := fun h => hne ⟨hi, h⟩
    rw [hk]
    simp [eq_comm (b := r), not_or.mp hne]

/-- The task is counted. -/
theorem Accounted.count (hv : v.Accounted) (hk : v.status k = some .created) {depth : Int}
    (hdepth : depth = v.depth + 1) {registered : List τ}
    (hregistered : registered.Perm (v.registered ++ [k])) :
    Accounted { v.setStatus k (some .own) with
      depth := depth, registered := registered } := by
  have hlen := hregistered.length_eq
  rw [List.length_append, List.length_singleton] at hlen
  refine hv.move (k := k) (p := .created) (q := .own) hk ?_ ?_ ?_ hv.nodup
    (hv.claimed_same (p := .created) hk rfl) ?_ (.enter rfl rfl hregistered) (.keep rfl)
    (.keep rfl) (.keep rfl)
  · simp [At, setStatus]
  · simp [At, setStatus]
  · intro i r hne
    refine at_setStatus (v := v) ?_
    intro hi
    have hne : ¬ (r = .created ∨ r = .own) := fun h => hne ⟨hi, h⟩
    rw [hk]
    simp [eq_comm (b := r), not_or.mp hne]
  · simp only [setStatus, hdepth, hlen]
    omega

/-- The task is put into the queue. -/
theorem Accounted.enqueue (hv : v.Accounted) (hk : v.status k = some .own) {queue : List τ}
    (hqueue : queue.Perm (v.queue ++ [k])) :
    Accounted { v.setStatus k none with queue := queue } := by
  have hnew : k ∉ v.queue := by
    intro hmem
    cases hv.at_unique (p := .own) (q := .queued) hk hmem
  have hmem : ∀ i, i ∈ queue ↔ i ∈ v.queue ∨ i = k := by
    intro i
    rw [hqueue.mem_iff, List.mem_append, List.mem_singleton]
  refine hv.move (k := k) (p := .own) (q := .queued) hk ?_ ?_ ?_ ?_
    (hv.claimed_same (p := .own) hk rfl) (by simp [setStatus]) (.keep rfl) (.keep rfl)
    (.keep rfl) (.keep rfl)
  · exact (hmem k).mpr (.inr rfl)
  · simp [At, setStatus]
  · intro i r hne
    by_cases hr : r = .queued
    · subst hr
      have hi : i ≠ k := fun hi => hne ⟨hi, .inr rfl⟩
      exact (hmem i).trans (or_iff_left hi)
    · refine (at_queue hr).trans (at_setStatus ?_)
      intro hi
      have hown : Place.own ≠ r := fun h => hne ⟨hi, .inl h.symm⟩
      rw [hk]
      simpa using hown
  · refine hqueue.nodup_iff.mpr ?_
    rw [← List.concat_eq_append]
    exact hv.nodup.concat hnew

end

section
variable [DecidableEq η]

def setHolding (v : View τ η) (h : η) (x : Option (τ × Stage)) : View τ η :=
  { v with holding := Function.update v.holding h x }

omit [DecidableEq τ] in
theorem setHolding_self {v : View τ η} {h : η} {x : Option (τ × Stage)} (hx : v.holding h = x) :
    v.setHolding h x = v := by
  subst hx
  rw [setHolding, Function.update_eq_self]

omit [DecidableEq τ] in
theorem at_setHolding {v : View τ η} {h : η} {j : τ} {r : Place η} {x : Option (τ × Stage)}
    (hx : ∀ stage, r = .held h stage → (x = some (j, stage) ↔ v.holding h = some (j, stage))) :
    (v.setHolding h x).At j r ↔ v.At j r := by
  cases r with
  | held g stage =>
    by_cases hg : g = h
    · subst hg
      simp only [At, setHolding, Function.update_self]
      exact hx stage rfl
    · simp only [At, setHolding, Function.update_of_ne hg]
  | _ => rfl

variable {v : View τ η} {k i : τ} {h : η}

/-- The submitter hands its task to a holder. -/
theorem Accounted.hand (hv : v.Accounted) (hk : v.status k = some .own)
    (hh : v.holding h = none) :
    ((v.setStatus k none).setHolding h (some (k, .claim))).Accounted := by
  refine hv.move (k := k) (p := .own) (q := .held h .claim) hk ?_ ?_ ?_ hv.nodup
    (hv.claimed_same (p := .own) hk rfl) (by simp [setStatus, setHolding]) (.keep rfl) (.keep rfl)
    (.keep rfl) (.keep rfl)
  · simp [At, setHolding]
  · simp [At, setStatus, setHolding]
  · intro i r hne
    refine (at_setHolding ?_).trans (at_setStatus ?_)
    · intro stage hr
      have hstage : ¬ (k = i ∧ Stage.claim = stage) := fun ⟨hi, hst⟩ =>
        hne ⟨hi.symm, .inr (hst ▸ hr)⟩
      have hnone : (v.setStatus k none).holding h = none := hh
      rw [hnone]
      simpa using hstage
    · intro hi
      have hown : Place.own ≠ r := fun h => hne ⟨hi, .inl h.symm⟩
      rw [hk]
      simpa using hown

/-- A holder takes a task from the queue. -/
theorem Accounted.take (hv : v.Accounted) (hh : v.holding h = none) {q : List τ}
    (hqueue : v.queue.Perm (i :: q)) :
    Accounted { v.setHolding h (some (i, .claim)) with queue := q } := by
  have hnodup := hqueue.nodup_iff.mp hv.nodup
  rw [List.nodup_cons] at hnodup
  have hi : v.At i .queued := hqueue.mem_iff.mpr List.mem_cons_self
  refine hv.move (k := i) (p := .queued) (q := .held h .claim) hi ?_ hnodup.1
    ?_ hnodup.2 (hv.claimed_same hi rfl) (by simp [setHolding]) (.keep rfl)
    (.keep rfl) (.keep rfl) (.keep rfl)
  · simp [At, setHolding]
  · intro j r hne
    by_cases hr : r = .queued
    · subst hr
      have hj : j ≠ i := fun hj => hne ⟨hj, .inl rfl⟩
      simp [At, hqueue.mem_iff, hj]
    · refine (at_queue hr).trans (at_setHolding ?_)
      intro stage hr
      have hstage : ¬ (i = j ∧ Stage.claim = stage) := fun ⟨hj, hst⟩ =>
        hne ⟨hj.symm, .inr (hst ▸ hr)⟩
      rw [hh]
      simpa using hstage

omit [DecidableEq τ] in
/-- A holder goes from one stage of its task to the next. -/
theorem at_advance {stage stage' : Stage} (hh : v.holding h = some (i, stage)) {j : τ}
    {r : Place η} (hne : ¬ (j = i ∧ (r = .held h stage ∨ r = .held h stage'))) :
    (v.setHolding h (some (i, stage'))).At j r ↔ v.At j r := by
  refine at_setHolding ?_
  intro st hr
  subst hr
  rw [hh]
  simp only [Option.some.injEq, Prod.mk.injEq]
  exact iff_of_false (fun ⟨hj, hst⟩ => hne ⟨hj.symm, .inr (hst ▸ rfl)⟩)
    fun ⟨hj, hst⟩ => hne ⟨hj.symm, .inl (hst ▸ rfl)⟩

theorem Accounted.claim (hv : v.Accounted) (hh : v.holding h = some (i, .claim))
    {claims : List τ} (hclaims : claims.Perm (v.claims ++ [i])) :
    Accounted { v.setHolding h (some (i, .decrement)) with
      claimed := Function.update v.claimed i true, claims := claims } := by
  refine hv.move (k := i) (p := .held h .claim) (q := .held h .decrement) hh ?_ ?_
    (fun j r hne => at_advance (v := v) hh hne) hv.nodup rfl (by simp [setHolding]) (.keep rfl)
    (.enter rfl rfl hclaims) (.keep rfl) (.keep rfl)
  · simp [At, setHolding]
  · simp [At, setHolding]

/-- The holder of a claimed task takes it out of the count. -/
theorem Accounted.decrement (hv : v.Accounted) (hh : v.holding h = some (i, .decrement))
    {depth : Int} (hdepth : depth = v.depth - 1) {released : List τ}
    (hreleased : released.Perm (v.released ++ [i])) :
    Accounted { v.setHolding h (some (i, .act)) with
      depth := depth, released := released } := by
  have hlen := hreleased.length_eq
  rw [List.length_append, List.length_singleton] at hlen
  refine hv.move (k := i) (p := .held h .decrement) (q := .held h .act) hh ?_ ?_
    (fun j r hne => at_advance (v := v) hh hne) hv.nodup
    (hv.claimed_same (p := .held h .decrement) hh rfl) ?_ (.keep rfl) (.keep rfl)
    (.enter rfl rfl hreleased) (.keep rfl)
  · simp [At, setHolding]
  · simp [At, setHolding]
  · simp only [setHolding, hdepth, hlen]
    omega

/-- The holder acts on its task and lays it down. -/
theorem Accounted.act (hv : v.Accounted) (hh : v.holding h = some (i, .act)) {done : List τ}
    (hdone : done.Perm (v.done ++ [i])) :
    Accounted { v.setHolding h none with done := done } := by
  have hmem : ∀ j, j ∈ done ↔ j ∈ v.done ∨ j = i := by
    intro j
    rw [hdone.mem_iff, List.mem_append, List.mem_singleton]
  refine hv.move (k := i) (p := .held h .act) (q := .settled) hh ?_ ?_ ?_ hv.nodup
    (hv.claimed_same (p := .held h .act) hh rfl) (by simp [setHolding]) (.keep rfl) (.keep rfl)
    (.keep rfl) (.enter rfl rfl hdone)
  · exact (hmem i).mpr (.inr rfl)
  · simp [At, setHolding]
  · intro j r hne
    by_cases hr : r = .settled
    · subst hr
      have hj : j ≠ i := fun hj => hne ⟨hj, .inr rfl⟩
      exact (hmem j).trans (or_iff_left hj)
    · refine (at_done hr).trans (at_setHolding ?_)
      intro stage hr
      have hstage : ¬ (i = j ∧ Stage.act = stage) := fun ⟨hj, hst⟩ =>
        hne ⟨hj.symm, .inl (hst ▸ hr)⟩
      rw [hh]
      simpa using hstage

end

end View

end OppexSdk.Lib.Lifecycle
