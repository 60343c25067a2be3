import Mathlib.Data.Int.ModEq
import Mathlib.Data.List.Chain
import OppexSdk.Lib.Transition

/-! # The Java drop logger

`RateLimitedDropLogger` of `java/sdk-http/src/main/java/dev/oppex/sdk/internal/async`. `recordDrop`
works on two atomic variables, with any number of calls under way at once; its atomic steps are the
calls on these variables, on the clock and on the logger. A `long` is an `Int64`, whose sums and
differences wrap around as Java's do. The `k`-th call of `recordDrop` brings drop `k`: a
`TrackedTask` makes one call at most. -/
namespace OppexSdk.Java
open OppexSdk.Lib.Transition

namespace DropLogger

/-- What a call took out of the counter: `count`, which stands for these drops. -/
structure Summary where
  call : Nat
  count : Int64
  drops : List Nat
  deriving DecidableEq

/-- Where a call of `recordDrop` is. -/
inductive RecordPc
  | outside
  | readingClock
  | readingStart (now : Int64)
  | swapping (now started : Int64)
  | taking
  | logging (summary : Summary)
  | returned
  deriving DecidableEq

end DropLogger

open DropLogger

structure RateLimitedDropLogger where
  intervalMillis : Int64
  intervalStartedAt : Int64
  droppedInInterval : Int64
  /-- The last reading of the clock, by anyone. -/
  clock : Int64
  calls : Nat → RecordPc
  /-- History: the drops that were counted, and those counted since the counter was last taken. -/
  increments : List Nat
  pending : List Nat
  /-- History: who installed which value in `intervalStartedAt`. -/
  installed : List (Nat × Int64)
  /-- History: what `getAndSet` returned, and what the logger was given. -/
  taken : List Summary
  logged : List Summary

namespace RateLimitedDropLogger

/-- The constructor, with what it reads from the clock. -/
def new (intervalMillis start : Int64) : RateLimitedDropLogger where
  intervalMillis := intervalMillis
  intervalStartedAt := start
  droppedInInterval := 0
  clock := start
  calls _ := .outside
  increments := []
  pending := []
  installed := []
  taken := []
  logged := []

def setCall (s : RateLimitedDropLogger) (k : Nat) (pc : RecordPc) : RateLimitedDropLogger :=
  { s with calls := Function.update s.calls k pc }

/-- What a call would take out of the counter now. -/
def summary (s : RateLimitedDropLogger) (k : Nat) : Summary := ⟨k, s.droppedInInterval, s.pending⟩

end RateLimitedDropLogger

namespace DropLogger

inductive Label
  | incrementAndGet (k : Nat)
  /-- The clock says `now`. -/
  | currentTimeMillis (k : Nat) (now : Int64)
  /-- The read of `intervalStartedAt` and the comparison with it. -/
  | get (k : Nat)
  | compareAndSet (k : Nat)
  | getAndSet (k : Nat)
  | log (k : Nat)

/-- One atomic step. The clock does not go back. -/
def step (s : RateLimitedDropLogger) : Label → Option RateLimitedDropLogger
  | .incrementAndGet k =>
    match s.calls k with
    | .outside => some (
        { s with
          droppedInInterval := s.droppedInInterval + 1
          increments := s.increments ++ [k]
          pending := s.pending ++ [k] }.setCall k .readingClock)
    | _ => none
  | .currentTimeMillis k now =>
    match s.calls k with
    | .readingClock =>
      if s.clock ≤ now then some ({ s with clock := now }.setCall k (.readingStart now)) else none
    | _ => none
  | .get k =>
    match s.calls k with
    | .readingStart now =>
      let started := s.intervalStartedAt
      if now - started < s.intervalMillis then some (s.setCall k .returned)
      else some (s.setCall k (.swapping now started))
    | _ => none
  | .compareAndSet k =>
    match s.calls k with
    | .swapping now started =>
      if s.intervalStartedAt = started then some (
        { s with
          intervalStartedAt := now
          installed := s.installed ++ [(k, now)] }.setCall k .taking)
      else some (s.setCall k .returned)
    | _ => none
  | .getAndSet k =>
    match s.calls k with
    | .taking => some (
        { s with
          droppedInInterval := 0
          pending := []
          taken := s.taken ++ [s.summary k] }.setCall k (.logging (s.summary k)))
    | _ => none
  | .log k =>
    match s.calls k with
    | .logging summary =>
      if 0 < summary.count then
        some ({ s with logged := s.logged ++ [summary] }.setCall k .returned)
      else some (s.setCall k .returned)
    | _ => none

/-! ## What a step can do -/

/-- The step of a call, by where the call is. -/
inductive Moves (s : RateLimitedDropLogger) (k : Nat) : RateLimitedDropLogger → Prop
  | increment (hpc : s.calls k = .outside) : Moves s k (
      { s with
        droppedInInterval := s.droppedInInterval + 1
        increments := s.increments ++ [k]
        pending := s.pending ++ [k] }.setCall k .readingClock)
  | readClock {now : Int64} (hpc : s.calls k = .readingClock) (hnow : s.clock ≤ now) :
      Moves s k ({ s with clock := now }.setCall k (.readingStart now))
  | tooEarly {now : Int64} (hpc : s.calls k = .readingStart now)
      (hearly : now - s.intervalStartedAt < s.intervalMillis) : Moves s k (s.setCall k .returned)
  | due {now : Int64} (hpc : s.calls k = .readingStart now)
      (hdue : s.intervalMillis ≤ now - s.intervalStartedAt) :
      Moves s k (s.setCall k (.swapping now s.intervalStartedAt))
  | install {now : Int64} (hpc : s.calls k = .swapping now s.intervalStartedAt) : Moves s k (
      { s with
        intervalStartedAt := now
        installed := s.installed ++ [(k, now)] }.setCall k .taking)
  | overtaken {now started : Int64} (hpc : s.calls k = .swapping now started)
      (hother : s.intervalStartedAt ≠ started) : Moves s k (s.setCall k .returned)
  | take (hpc : s.calls k = .taking) : Moves s k (
      { s with
        droppedInInterval := 0
        pending := []
        taken := s.taken ++ [s.summary k] }.setCall k (.logging (s.summary k)))
  | log {summary : Summary} (hpc : s.calls k = .logging summary) (hpos : 0 < summary.count) :
      Moves s k ({ s with logged := s.logged ++ [summary] }.setCall k .returned)
  | silent {summary : Summary} (hpc : s.calls k = .logging summary)
      (hnone : ¬ 0 < summary.count) : Moves s k (s.setCall k .returned)

theorem step_moves {s t : RateLimitedDropLogger} {l : Label} (h : step s l = some t) :
    ∃ k, Moves s k t := by
  cases l with
  | incrementAndGet k =>
    simp only [step] at h
    split at h <;> cases h
    rename_i hpc
    exact ⟨k, .increment hpc⟩
  | currentTimeMillis k now =>
    simp only [step] at h
    split at h
    · rename_i hpc
      split at h <;> cases h
      rename_i hnow
      exact ⟨k, .readClock hpc hnow⟩
    · cases h
  | get k =>
    simp only [step] at h
    split at h
    · rename_i now hpc
      split at h <;> cases h
      · rename_i hearly
        exact ⟨k, .tooEarly hpc hearly⟩
      · rename_i hdue
        exact ⟨k, .due hpc (Int64.not_lt.mp hdue)⟩
    · cases h
  | compareAndSet k =>
    simp only [step] at h
    split at h
    · rename_i now started hpc
      split at h <;> cases h
      · rename_i hsame
        subst hsame
        exact ⟨k, .install hpc⟩
      · rename_i hother
        exact ⟨k, .overtaken hpc hother⟩
    · cases h
  | getAndSet k =>
    simp only [step] at h
    split at h <;> cases h
    rename_i hpc
    exact ⟨k, .take hpc⟩
  | log k =>
    simp only [step] at h
    split at h
    · rename_i summary hpc
      split at h <;> cases h
      · rename_i hpos
        exact ⟨k, .log hpc hpos⟩
      · rename_i hnone
        exact ⟨k, .silent hpc hnone⟩
    · cases h

/-! ## Where the calls are -/

/-- The call is past `getAndSet`, or is not going to come to it. -/
def RecordPc.past : RecordPc → Bool
  | .logging _ | .returned => true
  | _ => false

/-- The reading of the clock that the call may install. -/
def RecordPc.now : RecordPc → Option Int64
  | .readingStart now | .swapping now _ => some now
  | _ => none

section
open RateLimitedDropLogger (setCall summary)
variable {s t : RateLimitedDropLogger} {k : Nat}

/-- The other calls stay where they are. -/
theorem Moves.other (h : Moves s k t) {j : Nat} (hj : j ≠ k) : t.calls j = s.calls j := by
  cases h with
  | _ => exact Function.update_of_ne hj _ _

/-- What holds of a call after the step and not of the one that moved held of it before. -/
theorem Moves.before (h : Moves s k t) {P : RecordPc → Prop} {j : Nat} (hk : ¬ P (t.calls k))
    (hj : P (t.calls j)) : P (s.calls j) := by
  have hne : j ≠ k := by
    rintro rfl
    exact hk hj
  rwa [h.other hne] at hj

theorem Moves.not_outside (h : Moves s k t) : t.calls k ≠ .outside := by
  cases h with
  | _ =>
    simp only [setCall, Function.update_self]
    nofun

/-- A call that is past `getAndSet` stays there. -/
theorem Moves.past (h : Moves s k t) {j : Nat} (hj : (s.calls j).past = true) :
    (t.calls j).past = true := by
  by_cases hk : j = k
  · subst hk
    cases h with
    | increment hpc | readClock hpc _ | due hpc _ | install hpc =>
      rw [hpc] at hj
      cases hj
    | _ =>
      simp only [setCall, Function.update_self]
      rfl
  · rwa [h.other hk]

/-! ## The counter -/

/-- The counter and the counts taken out of it stand for the drops counted, batch by batch. -/
structure Counted (s : RateLimitedDropLogger) : Prop where
  increments : s.increments = s.taken.flatMap Summary.drops ++ s.pending
  counter : s.droppedInInterval.toInt ≡ s.pending.length [ZMOD 2 ^ 64]
  counts : ∀ summary ∈ s.taken, summary.count.toInt ≡ summary.drops.length [ZMOD 2 ^ 64]

theorem Moves.counted (h : Moves s k t) (hs : Counted s) : Counted t := by
  cases h with
  | increment hpc =>
    refine ⟨?_, ?_, hs.counts⟩
    · simp only [setCall, hs.increments, List.append_assoc]
    · simp only [setCall, Int64.toInt_add, List.length_append, List.length_singleton]
      exact Int.ModEq.trans Int.bmod_emod (hs.counter.add_right 1)
  | take hpc =>
    refine ⟨?_, rfl, ?_⟩
    · simp [setCall, hs.increments, summary]
    · intro summary hmem
      rcases List.mem_append.mp hmem with hmem | hmem
      · exact hs.counts summary hmem
      · rw [List.mem_singleton.mp hmem]
        exact hs.counter
  | _ => exact ⟨hs.increments, hs.counter, hs.counts⟩

/-! ## Once each -/

theorem mem_map_snoc {α β : Type} {f : α → β} {xs : List α} {x : α} {b : β} :
    b ∈ (xs ++ [x]).map f ↔ b ∈ xs.map f ∨ b = f x := by
  rw [List.map_append, List.mem_append, List.map_singleton, List.mem_singleton]

theorem nodup_map_snoc {α β : Type} {f : α → β} {xs : List α} {x : α} (h : (xs.map f).Nodup)
    (hx : f x ∉ xs.map f) : ((xs ++ [x]).map f).Nodup := by
  rw [List.map_append, List.map_singleton, ← List.concat_eq_append]
  exact h.concat hx

/-- A call counts its drop once and takes the counter once, after it has won an interval. -/
structure TakenOnce (s : RateLimitedDropLogger) : Prop where
  increments : s.increments.Nodup
  outside : ∀ j, s.calls j = .outside → j ∉ s.increments
  taken : (s.taken.map Summary.call).Nodup
  past : ∀ j ∈ s.taken.map Summary.call, (s.calls j).past = true
  taking : ∀ j, s.calls j = .taking → j ∈ s.installed.map Prod.fst
  won : s.taken.map Summary.call ⊆ s.installed.map Prod.fst

theorem Moves.takenOnce (h : Moves s k t) (hs : TakenOnce s) : TakenOnce t := by
  have houtside := fun j (hj : t.calls j = .outside) =>
    hs.outside j (h.before (P := (· = .outside)) h.not_outside hj)
  have hpast := fun j (hj : j ∈ s.taken.map Summary.call) => h.past (hs.past j hj)
  have htaking := fun (hk : t.calls k ≠ .taking) j (hj : t.calls j = .taking) =>
    hs.taking j (h.before (P := (· = .taking)) hk hj)
  have hother := fun j (hne : j ≠ k) (hj : t.calls j = .taking) =>
    hs.taking j ((h.other hne).symm.trans hj)
  have hnot := h.not_outside
  cases h with
  | increment hpc =>
    refine ⟨?_, ?_, hs.taken, hpast, htaking (by simp [setCall]), hs.won⟩
    · have hnew := hs.increments.concat (hs.outside k hpc)
      rwa [List.concat_eq_append] at hnew
    · intro j hj hmem
      rcases List.mem_append.mp hmem with hmem | hmem
      · exact houtside j hj hmem
      · rw [List.mem_singleton.mp hmem] at hj
        exact hnot hj
  | install hpc =>
    refine ⟨hs.increments, houtside, hs.taken, hpast, ?_, ?_⟩
    · intro j hj
      refine mem_map_snoc.mpr ?_
      by_cases hk : j = k
      · exact .inr hk
      · exact .inl (hother j hk hj)
    · exact fun j hj => mem_map_snoc.mpr (.inl (hs.won hj))
  | take hpc =>
    have hk : k ∉ s.taken.map Summary.call := by
      intro hmem
      have hlate := hs.past k hmem
      rw [hpc] at hlate
      cases hlate
    refine ⟨hs.increments, houtside, nodup_map_snoc hs.taken hk, ?_,
      htaking (by simp [setCall]), ?_⟩
    · intro j hj
      rcases mem_map_snoc.mp hj with hj | rfl
      · exact hpast j hj
      · simp only [setCall, summary, Function.update_self]
        rfl
    · intro j hj
      rcases mem_map_snoc.mp hj with hj | rfl
      · exact hs.won hj
      · exact hs.taking _ hpc
  | _ => exact ⟨hs.increments, houtside, hs.taken, hpast, htaking (by simp [setCall]), hs.won⟩

/-- What is logged was taken, and by a call that logs nothing else. -/
structure LoggedOnce (s : RateLimitedDropLogger) : Prop where
  logging : ∀ j summary, s.calls j = .logging summary →
    summary ∈ s.taken ∧ summary.call = j ∧ j ∉ s.logged.map Summary.call
  logged : s.logged ⊆ s.taken
  once : (s.logged.map Summary.call).Nodup
  taken : ∀ j ∈ s.logged.map Summary.call, j ∈ s.taken.map Summary.call

theorem Moves.loggedOnce (h : Moves s k t) (htaken : TakenOnce s) (hs : LoggedOnce s) :
    LoggedOnce t := by
  have hother := fun j summary (hne : j ≠ k) (hj : t.calls j = .logging summary) =>
    hs.logging j summary ((h.other hne).symm.trans hj)
  have hlogging := fun (hk : ∀ summary, t.calls k ≠ .logging summary) j summary
      (hj : t.calls j = .logging summary) =>
    hs.logging j summary (h.before (P := (· = .logging summary)) (hk summary) hj)
  cases h with
  | take hpc =>
    have hk : k ∉ s.logged.map Summary.call := by
      intro hmem
      have hlate := htaken.past k (hs.taken k hmem)
      rw [hpc] at hlate
      cases hlate
    refine ⟨?_, fun _ hmem => List.mem_append_left _ (hs.logged hmem), hs.once,
      fun j hj => mem_map_snoc.mpr (.inl (hs.taken j hj))⟩
    intro j summary hj
    by_cases hne : j = k
    · subst hne
      simp only [setCall, Function.update_self] at hj
      cases hj
      exact ⟨List.mem_append_right _ List.mem_cons_self, rfl, hk⟩
    · obtain ⟨hmem, hcall, hnot⟩ := hother j summary hne hj
      exact ⟨List.mem_append_left _ hmem, hcall, hnot⟩
  | @log summary hpc hpos =>
    obtain ⟨hmem, hcall, hnot⟩ := hs.logging k summary hpc
    refine ⟨?_, ?_, nodup_map_snoc hs.once (hcall ▸ hnot), ?_⟩
    · intro j summary' hj
      have hne : j ≠ k := by
        rintro rfl
        simp [setCall] at hj
      obtain ⟨hmem', hcall', hnot'⟩ := hother j summary' hne hj
      refine ⟨hmem', hcall', fun hlogged => ?_⟩
      rcases mem_map_snoc.mp hlogged with hold | hnew
      · exact hnot' hold
      · exact hne (hnew.trans hcall)
    · intro summary' hmem'
      rcases List.mem_append.mp hmem' with hmem' | hmem'
      · exact hs.logged hmem'
      · rwa [List.mem_singleton.mp hmem']
    · intro j hj
      rcases mem_map_snoc.mp hj with hj | rfl
      · exact hs.taken j hj
      · exact List.mem_map_of_mem hmem
  | _ => exact ⟨hlogging (by simp [setCall]), hs.logged, hs.once, hs.taken⟩

/-! ## The clock -/

/-- The values `intervalStartedAt` has had. -/
def starts (start : Int64) (s : RateLimitedDropLogger) : List Int64 :=
  start :: s.installed.map Prod.snd

/-- Each value installed is a reading of the clock that was due, in the arithmetic of `long`, when
it was compared with the value before. -/
structure Timed (intervalMillis start : Int64) (s : RateLimitedDropLogger) : Prop where
  interval : s.intervalMillis = intervalMillis
  last : (starts start s).getLast? = some s.intervalStartedAt
  due : (starts start s).IsChain fun a b => intervalMillis ≤ b - a
  range : ∀ v ∈ starts start s, start ≤ v ∧ v ≤ s.clock
  held : ∀ j, ∀ now ∈ (s.calls j).now, start ≤ now ∧ now ≤ s.clock
  swapping : ∀ j now started, s.calls j = .swapping now started → intervalMillis ≤ now - started

theorem Moves.timed {intervalMillis start : Int64} (h : Moves s k t)
    (hs : Timed intervalMillis start s) : Timed intervalMillis start t := by
  have hother := fun j (hne : j ≠ k) now (hnow : now ∈ (t.calls j).now) =>
    hs.held j now (h.other hne ▸ hnow)
  have hswap := fun j (hne : j ≠ k) now started (hj : t.calls j = .swapping now started) =>
    hs.swapping j now started ((h.other hne).symm.trans hj)
  have hheld := fun (hk : ∀ now, now ∉ (t.calls k).now) j now (hnow : now ∈ (t.calls j).now) =>
    hs.held j now (h.before (P := (now ∈ ·.now)) (hk now) hnow)
  have hswapping := fun (hk : ∀ now started, t.calls k ≠ .swapping now started) j now started
      (hj : t.calls j = .swapping now started) =>
    hs.swapping j now started (h.before (P := (· = .swapping now started)) (hk now started) hj)
  cases h with
  | @readClock now hpc hnow =>
    have hlater : ∀ {v}, v ≤ s.clock → v ≤ now := fun hv => Int64.le_trans hv hnow
    have hstart : start ≤ now := hlater (hs.range start List.mem_cons_self).2
    refine ⟨hs.interval, hs.last, hs.due, ?_, ?_, hswapping (by simp [setCall])⟩
    · intro v hv
      exact ⟨(hs.range v hv).1, hlater (hs.range v hv).2⟩
    · intro j v hv
      by_cases hne : j = k
      · subst hne
        simp only [setCall, Function.update_self] at hv
        cases hv
        exact ⟨hstart, Int64.le_refl _⟩
      · exact ⟨(hother j hne v hv).1, hlater (hother j hne v hv).2⟩
  | @due now hpc hdue =>
    refine ⟨hs.interval, hs.last, hs.due, hs.range, ?_, ?_⟩
    · intro j v hv
      by_cases hne : j = k
      · subst hne
        simp only [setCall, Function.update_self] at hv
        refine hs.held j v ?_
        rw [hpc]
        exact hv
      · exact hother j hne v hv
    · intro j v started hj
      by_cases hne : j = k
      · subst hne
        simp only [setCall, Function.update_self] at hj
        cases hj
        exact hs.interval ▸ hdue
      · exact hswap j hne v started hj
  | @install now hpc =>
    have hnow := hs.held k now (by rw [hpc]; rfl)
    have hdue := hs.swapping k now _ hpc
    have hstarts : start :: (s.installed ++ [(k, now)]).map Prod.snd = starts start s ++ [now] := by
      simp [starts]
    refine ⟨hs.interval, ?_, ?_, ?_, hheld (by simp [setCall, RecordPc.now]),
      hswapping (by simp [setCall])⟩
    · rw [starts, setCall, hstarts]
      exact List.getLast?_concat
    · rw [starts, setCall, hstarts]
      refine List.IsChain.append hs.due (List.isChain_singleton _) ?_
      intro a ha b hb
      rw [hs.last] at ha
      cases ha
      cases hb
      exact hdue
    · intro v hv
      rw [starts, setCall, hstarts] at hv
      rcases List.mem_append.mp hv with hv | hv
      · exact hs.range v hv
      · exact List.mem_singleton.mp hv ▸ hnow
  | _ =>
    exact ⟨hs.interval, hs.last, hs.due, hs.range, hheld (by simp [setCall, RecordPc.now]),
      hswapping (by simp [setCall])⟩

/-! ## Whole runs -/

structure Invariant (intervalMillis start : Int64) (s : RateLimitedDropLogger) : Prop where
  counted : Counted s
  takenOnce : TakenOnce s
  loggedOnce : LoggedOnce s
  timed : Timed intervalMillis start s

theorem invariant_new (intervalMillis start : Int64) :
    Invariant intervalMillis start (.new intervalMillis start) where
  counted := ⟨rfl, rfl, List.forall_mem_nil _⟩
  takenOnce := ⟨List.nodup_nil, fun _ _ => List.not_mem_nil, List.nodup_nil, List.forall_mem_nil _,
    nofun, List.Subset.refl _⟩
  loggedOnce := ⟨nofun, List.Subset.refl _, List.nodup_nil, List.forall_mem_nil _⟩
  timed := by
    refine ⟨rfl, rfl, List.isChain_singleton _, ?_, nofun, nofun⟩
    intro v hv
    rw [List.mem_singleton.mp hv]
    exact ⟨Int64.le_refl _, Int64.le_refl _⟩

theorem run_invariant {intervalMillis start : Int64} {ls : List Label}
    (h : Run step anyStep (.new intervalMillis start) ls s) : Invariant intervalMillis start s := by
  refine h.invariant ?_ (invariant_new intervalMillis start)
  intro s l t _ hstep hs
  obtain ⟨k, hmoves⟩ := step_moves hstep
  exact ⟨hmoves.counted hs.counted, hmoves.takenOnce hs.takenOnce,
    hmoves.loggedOnce hs.takenOnce hs.loggedOnce, hmoves.timed hs.timed⟩

/-! ## Nothing is lost -/

/-- What the counts of these summaries add up to. -/
def total (summaries : List Summary) : Int := (summaries.map fun y => y.count.toInt).sum

/-- The counts add up to the drops, modulo whatever they agree modulo; modulo zero is equality. -/
theorem total_modEq {n : Int} {summaries : List Summary}
    (h : ∀ y ∈ summaries, y.count.toInt ≡ y.drops.length [ZMOD n]) :
    total summaries ≡ (summaries.flatMap Summary.drops).length [ZMOD n] := by
  induction summaries with
  | nil => rfl
  | cons y summaries ih =>
    rw [List.forall_mem_cons] at h
    simpa [total] using h.1.add (ih h.2)

/-- A counter that has not wrapped around. -/
theorem toInt_of_modEq {x : Int64} {n : Nat} (h : x.toInt ≡ n [ZMOD 2 ^ 64]) (hn : n < 2 ^ 63) :
    x.toInt = n := by
  have hlow := x.le_toInt
  have hhigh := x.toInt_lt
  unfold Int.ModEq at h
  omega

/-- A difference of readings that lie less than `2 ^ 63` apart. -/
theorem toInt_sub_of_near {a b start clock : Int64} (ha : start ≤ a ∧ a ≤ clock)
    (hb : start ≤ b ∧ b ≤ clock) (hspan : clock.toInt - start.toInt < 2 ^ 63) :
    (b - a).toInt = b.toInt - a.toInt := by
  simp only [Int64.le_iff_toInt_le] at ha hb
  rw [Int64.toInt_sub]
  exact Int.bmod_eq_of_le (by omega) (by omega)

/-- What the drop logger keeps to in a state. Counts are of type `long`: they add up modulo
`2 ^ 64`, and exactly as long as no batch reaches `2 ^ 63` drops. So are times: installed values
are an interval apart as long as the clock has not advanced by `2 ^ 63`. -/
structure LosesNothing (intervalMillis start : Int64) (s : RateLimitedDropLogger) : Prop where
  conserved : total s.taken + s.droppedInInterval.toInt ≡ s.increments.length [ZMOD 2 ^ 64]
  conserved_exactly : (∀ y ∈ s.taken, y.drops.length < 2 ^ 63) → s.pending.length < 2 ^ 63 →
    total s.taken + s.droppedInInterval.toInt = s.increments.length
  counted_once : s.increments.Nodup
  logged_taken : s.logged ⊆ s.taken
  logged_counts : ∀ y ∈ s.logged, y.count.toInt ≡ y.drops.length [ZMOD 2 ^ 64]
  logged_drops : s.logged.flatMap Summary.drops ⊆ s.increments
  logged_once : (s.logged.flatMap Summary.drops).Nodup
  spaced : s.clock.toInt - start.toInt < 2 ^ 63 →
    (starts start s).IsChain fun a b => a.toInt + intervalMillis.toInt ≤ b.toInt
  taken_once : (s.taken.map Summary.call).Nodup
  taken_by_winner : s.taken.map Summary.call ⊆ s.installed.map Prod.fst

theorem Counted.conserved_exactly (hs : Counted s) (htaken : ∀ y ∈ s.taken, y.drops.length < 2 ^ 63)
    (hpending : s.pending.length < 2 ^ 63) :
    total s.taken + s.droppedInInterval.toInt = s.increments.length := by
  have hexact : ∀ y ∈ s.taken, y.count.toInt ≡ y.drops.length [ZMOD 0] := fun y hy =>
    Int.modEq_zero_iff.mpr (toInt_of_modEq (hs.counts y hy) (htaken y hy))
  have htotal := Int.modEq_zero_iff.mp (total_modEq hexact)
  rw [htotal, toInt_of_modEq hs.counter hpending, hs.increments]
  simp

/-- What is logged is part of what was counted, in some order. -/
theorem Invariant.logged_subperm {intervalMillis start : Int64}
    (hs : Invariant intervalMillis start s) :
    (s.logged.flatMap Summary.drops).Subperm s.increments := by
  have hnodup : s.logged.Nodup := hs.loggedOnce.once.of_map _
  obtain ⟨l, hperm, hsub⟩ := hnodup.subperm hs.loggedOnce.logged
  rw [hs.counted.increments]
  exact ⟨l.flatMap Summary.drops, hperm.flatMap_right _,
    (hsub.flatMap _).trans (List.sublist_append_left _ _)⟩

theorem Timed.spaced {intervalMillis start : Int64} (hs : Timed intervalMillis start s)
    (hspan : s.clock.toInt - start.toInt < 2 ^ 63) :
    (starts start s).IsChain fun a b => a.toInt + intervalMillis.toInt ≤ b.toInt := by
  refine hs.due.imp_of_mem_imp ?_
  intro a b ha hb hdue
  rw [Int64.le_iff_toInt_le, toInt_sub_of_near (hs.range a ha) (hs.range b hb) hspan] at hdue
  omega

/-- **Drops are summed up once, and at most once an interval**, in every state that any number of
calls reach in any order on any clock that does not go back. -/
theorem drops_are_summed_once {intervalMillis start : Int64} {ls : List Label}
    (h : Run step anyStep (.new intervalMillis start) ls s) :
    LosesNothing intervalMillis start s := by
  have hs := run_invariant h
  obtain ⟨l, hperm, hsub⟩ := hs.logged_subperm
  have hconserved : total s.taken + s.droppedInInterval.toInt ≡ s.increments.length
      [ZMOD 2 ^ 64] := by
    rw [hs.counted.increments, List.length_append, Nat.cast_add]
    exact (total_modEq hs.counted.counts).add hs.counted.counter
  exact ⟨hconserved, hs.counted.conserved_exactly, hs.takenOnce.increments, hs.loggedOnce.logged,
    fun y hy => hs.counted.counts y (hs.loggedOnce.logged hy),
    List.Subset.trans hperm.symm.subset hsub.subset,
    hperm.nodup_iff.mp (hsub.nodup hs.takenOnce.increments), hs.timed.spaced, hs.takenOnce.taken,
    hs.takenOnce.won⟩

/-- Three calls, as in the test of one summary an interval: the third one logs all three. -/
def threeDrops : List Label :=
  [.incrementAndGet 0, .currentTimeMillis 0 1000, .get 0,
    .incrementAndGet 1, .currentTimeMillis 1 1000, .get 1,
    .incrementAndGet 2, .currentTimeMillis 2 61000, .get 2, .compareAndSet 2, .getAndSet 2, .log 2]

theorem drops_are_summed_once_three :
    ∃ s, Run step anyStep (.new 60000 1000) threeDrops s ∧ s.logged = [⟨2, 3, [0, 1, 2]⟩] ∧
      LosesNothing 60000 1000 s := by
  obtain ⟨s, hrun, hlogged⟩ := exists_run_of_exec step anyStep (.new 60000 1000) threeDrops
    (fun s => s.logged == [⟨2, 3, [0, 1, 2]⟩]) (by decide +kernel)
  exact ⟨s, hrun, eq_of_beq hlogged, drops_are_summed_once hrun⟩

/-! ## The limits of `long` -/

/-- Any number of calls may have counted their drop and done nothing else. -/
theorem run_increments (intervalMillis start : Int64) (n : Nat) :
    ∃ s, Run step anyStep (.new intervalMillis start) ((List.range n).map .incrementAndGet) s ∧
      s.increments.length = n ∧ s.taken = [] ∧ ∀ j, n ≤ j → s.calls j = .outside := by
  induction n with
  | zero => exact ⟨_, .nil _, rfl, rfl, fun _ _ => rfl⟩
  | succ n ih =>
    obtain ⟨s, hrun, hlength, htaken, houtside⟩ := ih
    have hpc := houtside n (Nat.le_refl n)
    have hstep : step s (.incrementAndGet n) = some (
        { s with
          droppedInInterval := s.droppedInInterval + 1
          increments := s.increments ++ [n]
          pending := s.pending ++ [n] }.setCall n .readingClock) := by
      simp only [step, hpc]
    rw [List.range_succ, List.map_append]
    refine ⟨_, hrun.snoc trivial hstep, ?_, htaken, ?_⟩
    · simp [setCall, hlength]
    · intro j hj
      have hne : j ≠ n := by omega
      simp only [setCall, Function.update_of_ne hne]
      exact houtside j (by omega)

/-- A call that reads the clock, and is overtaken by two winners before it goes on. -/
def overtakenReader : List Label :=
  [.incrementAndGet 0, .currentTimeMillis 0 (-2 ^ 63),
    .incrementAndGet 1, .currentTimeMillis 1 (-1), .get 1, .compareAndSet 1,
    .incrementAndGet 2, .currentTimeMillis 2 (2 ^ 62), .get 2, .compareAndSet 2,
    .get 0, .compareAndSet 0]

/-- On a clock that runs from `-2 ^ 63` to `2 ^ 62`, an old reading is taken for a later one, and
the interval starts anew in the past; and `2 ^ 63` drops make the counter negative. -/
theorem long_wraps_around :
    (¬ ∀ (ls : List Label) (s : RateLimitedDropLogger),
      Run step anyStep (.new 60000 (-2 ^ 63)) ls s →
        (starts (-2 ^ 63) s).IsChain fun a b => a.toInt + 60000 ≤ b.toInt) ∧
    (¬ ∀ (ls : List Label) (s : RateLimitedDropLogger),
      Run step anyStep (.new 60000 1000) ls s →
        total s.taken + s.droppedInInterval.toInt = s.increments.length) := by
  constructor
  · intro hspaced
    obtain ⟨s, hrun, hstarts⟩ := exists_run_of_exec step anyStep (.new 60000 (-2 ^ 63))
      overtakenReader (fun s => starts (-2 ^ 63) s == [-2 ^ 63, -1, 2 ^ 62, -2 ^ 63])
      (by decide +kernel)
    have hchain := hspaced _ s hrun
    rw [eq_of_beq hstarts] at hchain
    exact absurd hchain (by decide +kernel)
  · intro hconserved
    obtain ⟨s, hrun, hlength, htaken, -⟩ := run_increments 60000 1000 (2 ^ 63)
    have hsum := hconserved _ s hrun
    have hhigh := s.droppedInInterval.toInt_lt
    rw [htaken, hlength] at hsum
    simp only [total, List.map_nil, List.sum_nil, Nat.cast_pow, Nat.cast_ofNat] at hsum
    omega

end

end DropLogger

end OppexSdk.Java
