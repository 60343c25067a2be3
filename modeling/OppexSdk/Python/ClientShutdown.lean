import Mathlib.Data.List.Nodup
import OppexSdk.Python.Client

/-! # In which order the Python client shuts down

The close that sets the closed flag owns the shutdown. It goes past `begin_close` when the posts in
flight have ended or the drain is out of time, past the dispatcher when the workers are gone or the
waits for them are out of time, and only then to the transport. -/
namespace OppexSdk.Python.Client
open OppexSdk.Lib.Transition
open OppexSdk.Python.Dispatcher (Config AsyncDispatcher)

namespace IncidentClient
variable {cfg : Config} {s t : IncidentClient cfg} {l : Label cfg}

/-- The admitted posts that have not yet ended. -/
def inFlight (s : IncidentClient cfg) : List Nat :=
  s.admitted.filter fun k => decide (s.posts k = .delivering)

/-- Every admitted post has ended, or the drain of the lifecycle timed out. -/
def Drained (s : IncidentClient cfg) : Prop :=
  s.drainExpired = true ∨ ∀ k ∈ s.admitted, ∃ raised, s.posts k = .ended raised

/-! ## The posts -/

/-- `_active` counts the posts in flight. -/
structure Counted (s : IncidentClient cfg) : Prop where
  nodup : s.admitted.Nodup
  admitted : ∀ k, k ∈ s.admitted ↔ s.posts k = .delivering ∨ ∃ raised, s.posts k = .ended raised
  active : s.lifecycle.active = s.inFlight.length

theorem Counted.frame (hs : s.Counted) (hposts : t.posts = s.posts)
    (hadmitted : t.admitted = s.admitted) (hactive : t.lifecycle.active = s.lifecycle.active) :
    t.Counted := by
  refine ⟨hadmitted ▸ hs.nodup, ?_, ?_⟩
  · intro k
    rw [hadmitted, hposts]
    exact hs.admitted k
  · rw [hactive, inFlight, hadmitted, hposts]
    exact hs.active

/-- A post that is not among the admitted ones may be anywhere. -/
theorem inFlight_setPost {k : Nat} (pc : PostPc) (hk : k ∉ s.admitted) :
    (s.setPost k pc).inFlight = s.inFlight := by
  refine List.filter_congr ?_
  intro j hj
  have hne : j ≠ k := fun h => hk (h ▸ hj)
  rw [setPost]
  simp only [Function.update_of_ne hne]

theorem post_counted {k : Nat} (h : step s (.post k) = some t) (hs : s.Counted) : t.Counted := by
  simp only [step] at h
  split at h
  · rename_i hpc
    have hk : k ∉ s.admitted := by rw [hs.admitted k, hpc]; simp
    have hsame := inFlight_setPost (s := s) .delivering hk
    cases h
    unfold Lifecycle.begin
    split
    · have hsame := inFlight_setPost (s := s) .refused hk
      refine ⟨hs.nodup, ?_, hs.active.trans (congrArg _ (congrArg _ hsame.symm))⟩
      intro j
      by_cases hj : j = k
      · subst hj
        simp [setPost, hk]
      · simpa [setPost, hj] using hs.admitted j
    · have hsame := inFlight_setPost (s := s) .delivering hk
      refine ⟨?_, ?_, ?_⟩
      · rw [← List.concat_eq_append]
        exact hs.nodup.concat hk
      · intro j
        by_cases hj : j = k
        · subst hj
          simp [setPost]
        · simpa [setPost, hj] using hs.admitted j
      · have hflight : (s.admitted ++ [k]).filter (fun j =>
            decide ((s.setPost k .delivering).posts j = .delivering)) = s.inFlight ++ [k] := by
          rw [List.filter_append]
          exact congrArg₂ _ hsame (by simp [setPost])
        have hlen := congrArg List.length hflight
        rw [List.length_append, List.length_singleton] at hlen
        have hactive := hs.active
        show s.lifecycle.active + 1 = _
        rw [hactive]
        exact_mod_cast hlen.symm
  · cases h

theorem endPost_counted {k : Nat} {raised : Bool} (h : step s (.endPost k raised) = some t)
    (hs : s.Counted) : t.Counted := by
  simp only [step] at h
  split at h
  · rename_i hpc
    cases h
    have hk : k ∈ s.inFlight := by
      rw [inFlight, List.mem_filter, hs.admitted k]
      simp [hpc]
    refine ⟨hs.nodup, ?_, ?_⟩
    · intro j
      by_cases hj : j = k
      · subst hj
        have hmem : j ∈ s.admitted := (List.mem_filter.mp hk).1
        simp [setPost, hmem]
      · simpa [setPost, hj] using hs.admitted j
    · have hflight : (s.setPost k (.ended raised)).inFlight = s.inFlight.erase k := by
        have hnodup : s.inFlight.Nodup := hs.nodup.filter _
        rw [hnodup.erase_eq_filter, inFlight, inFlight, List.filter_filter]
        refine List.filter_congr ?_
        intro j _
        by_cases hj : j = k
        · subst hj
          simp [setPost]
        · simp [setPost, hj]
      have hlen := List.length_erase_of_mem hk
      have hpos := List.length_pos_of_mem hk
      have hactive := hs.active
      show s.lifecycle.active - 1 = ((s.setPost k (.ended raised)).inFlight.length : Int)
      rw [hflight, hlen, hactive]
      omega
  · cases h

/-- The other steps touch no post. -/
theorem counted_step (h : step s l = some t) (hs : s.Counted) : t.Counted := by
  cases l with
  | post k => exact post_counted h hs
  | endPost k raised => exact endPost_counted h hs
  | beginClose c expired =>
    simp only [step] at h
    split at h
    · split at h <;> cases h
      · exact hs.frame rfl rfl rfl
      · unfold drain
        split <;> exact hs.frame rfl rfl rfl
    · cases h
  | wake c expired =>
    simp only [step] at h
    split at h <;> cases h
    unfold drain
    split <;> exact hs.frame rfl rfl rfl
  | closeDispatcher c =>
    simp only [step] at h
    split at h
    · split at h
      · cases h
        exact hs.frame rfl rfl rfl
      · obtain ⟨d, -, rfl⟩ := Option.map_eq_some_iff.mp h
        exact hs.frame rfl rfl rfl
    · cases h
  | dispatch l =>
    simp only [step] at h
    split at h
    · obtain ⟨d, -, rfl⟩ := Option.map_eq_some_iff.mp h
      exact hs.frame rfl rfl rfl
    · cases h
  | postAsync k | dispatcherClosed c | closeExecutor c =>
    simp only [step] at h
    split at h <;> cases h
    exact hs.frame rfl rfl rfl

/-! ## The owner of the shutdown -/

/-- What holds of the client while the owner of its shutdown is at a place. -/
def OwnerAt (s : IncidentClient cfg) (c : Nat) : ClosePc → Prop
  | .outside | .refused => False
  | .draining => s.granted = [] ∧ s.executorCloses = [] ∧ s.dispatcher.closed = false
  | .owning =>
    s.granted = [c] ∧ s.executorCloses = [] ∧ s.dispatcher.closed = false ∧ s.Drained
  | .joining => s.granted = [c] ∧ s.executorCloses = [] ∧ s.Drained
  | .releasing =>
    s.granted = [c] ∧ s.executorCloses = [] ∧ s.dispatcher.close = .returned ∧ s.Drained
  | .returned => s.granted = [c] ∧ s.executorCloses = [c]

/-- The close that set the closed flag is the one that shuts the client down. -/
structure Owned (s : IncidentClient cfg) : Prop where
  closed : s.lifecycle.closed = s.closedBy.isSome
  others : ∀ c, s.closedBy ≠ some c → s.closes c = .outside ∨ s.closes c = .refused
  owner : ∀ c, s.closedBy = some c → s.OwnerAt c (s.closes c)
  nobody : s.closedBy = none →
    s.granted = [] ∧ s.executorCloses = [] ∧ s.dispatcher.closed = false

/-- A close that has got past the closed flag is the owner. -/
theorem Owned.eq_owner (hs : s.Owned) {c : Nat} (hout : s.closes c ≠ .outside)
    (href : s.closes c ≠ .refused) : s.closedBy = some c := by
  by_contra hne
  exact (hs.others c hne).elim hout href

/-- The shutdown is where it was; only what the owner has behind it may have moved on. -/
theorem OwnerAt.frame {c : Nat} {pc : ClosePc} (hs : s.OwnerAt c pc)
    (hgranted : t.granted = s.granted) (hexec : t.executorCloses = s.executorCloses)
    (hclosed : s.dispatcher.closed = false → t.dispatcher.closed = false)
    (hreturned : s.dispatcher.close = .returned → t.dispatcher.close = .returned)
    (hdrained : s.Drained → t.Drained) : t.OwnerAt c pc := by
  cases pc with
  | outside | refused => exact hs
  | draining => exact ⟨hgranted.trans hs.1, hexec.trans hs.2.1, hclosed hs.2.2⟩
  | owning =>
    exact ⟨hgranted.trans hs.1, hexec.trans hs.2.1, hclosed hs.2.2.1, hdrained hs.2.2.2⟩
  | joining => exact ⟨hgranted.trans hs.1, hexec.trans hs.2.1, hdrained hs.2.2⟩
  | releasing =>
    exact ⟨hgranted.trans hs.1, hexec.trans hs.2.1, hreturned hs.2.2.1, hdrained hs.2.2.2⟩
  | returned => exact ⟨hgranted.trans hs.1, hexec.trans hs.2⟩

/-- A step that is none of a close. -/
theorem Owned.frame (hs : s.Owned) (hcloses : t.closes = s.closes)
    (hby : t.closedBy = s.closedBy) (hlife : t.lifecycle.closed = s.lifecycle.closed)
    (hgranted : t.granted = s.granted) (hexec : t.executorCloses = s.executorCloses)
    (hclosed : s.dispatcher.closed = false → t.dispatcher.closed = false)
    (hreturned : s.dispatcher.close = .returned → t.dispatcher.close = .returned)
    (hdrained : s.lifecycle.closed = true → s.Drained → t.Drained) : t.Owned := by
  refine ⟨by rw [hlife, hby]; exact hs.closed, ?_, ?_, ?_⟩
  · intro c hc
    rw [hcloses]
    exact hs.others c (hby ▸ hc)
  · intro c hc
    rw [hby] at hc
    rw [hcloses]
    have hset : s.lifecycle.closed = true := by rw [hs.closed, hc]; rfl
    exact (hs.owner c hc).frame hgranted hexec hclosed hreturned (hdrained hset)
  · intro hnone
    obtain ⟨hg, he, hd⟩ := hs.nobody (hby ▸ hnone)
    exact ⟨hgranted.trans hg, hexec.trans he, hclosed hd⟩

/-- The owner moves on. -/
theorem Owned.advance (hs : s.Owned) {c : Nat} {pc : ClosePc} (hc : s.closedBy = some c)
    (hcloses : t.closes = Function.update s.closes c pc) (hby : t.closedBy = s.closedBy)
    (hlife : t.lifecycle.closed = s.lifecycle.closed) (hat : t.OwnerAt c pc) : t.Owned := by
  refine ⟨by rw [hlife, hby]; exact hs.closed, ?_, ?_, ?_⟩
  · intro c' hc'
    have hne : c' ≠ c := fun h => hc' (by rw [hby, hc, h])
    rw [hcloses, Function.update_of_ne hne]
    exact hs.others c' (hby ▸ hc')
  · intro c' hc'
    rw [hby, hc] at hc'
    cases hc'
    rw [hcloses, Function.update_self]
    exact hat
  · intro hnone
    rw [hby, hc] at hnone
    cases hnone

/-- The loop of `begin_close` is left when nothing is in flight, or out of time. -/
theorem drain_owner {c : Nat} (expired : Bool) (hs : s.Counted)
    (hat : s.OwnerAt c .draining) :
    ∃ pc, (s.drain c expired).closes = Function.update s.closes c pc ∧
      (s.drain c expired).OwnerAt c pc := by
  obtain ⟨hgranted, hexec, hclosed⟩ := hat
  unfold drain
  split
  · rename_i hleft
    refine ⟨.owning, rfl, ?_, hexec, hclosed, ?_⟩
    · show s.granted ++ [c] = [c]
      rw [hgranted]
      rfl
    · by_cases hactive : 0 < s.lifecycle.active
      · -- with posts in flight the loop is left only out of time
        have hexpired : expired = true := by
          simpa [Lifecycle.drained, Int.not_le.mpr hactive] using hleft
        exact .inl (by simp [hexpired, hactive])
      · refine .inr ?_
        intro k hk
        have hnone : s.inFlight = [] := by
          rw [hs.active] at hactive
          exact List.length_eq_zero_iff.mp (by omega)
        rcases (hs.admitted k).mp hk with hdel | hend
        · have hmem : k ∈ s.inFlight := List.mem_filter.mpr ⟨hk, by simpa using hdel⟩
          rw [hnone] at hmem
          cases hmem
        · exact hend
  · exact ⟨.draining, rfl, hgranted, hexec, hclosed⟩

theorem drain_frame (s : IncidentClient cfg) (c : Nat) (expired : Bool) :
    (s.drain c expired).closedBy = s.closedBy ∧ (s.drain c expired).lifecycle = s.lifecycle := by
  unfold drain
  split <;> exact ⟨rfl, rfl⟩

theorem post_owned {k : Nat} (h : step s (.post k) = some t) (hc : s.Counted) (hs : s.Owned) :
    t.Owned := by
  simp only [step] at h
  split at h
  · rename_i hpc
    have hk : k ∉ s.admitted := by rw [hc.admitted k, hpc]; simp
    cases h
    unfold Lifecycle.begin
    split
    · refine hs.frame rfl rfl rfl rfl rfl id id ?_
      intro _ hd
      refine hd.imp id ?_
      intro hall j hj
      have hne : j ≠ k := fun hjk => hk (hjk ▸ hj)
      simpa [setPost, hne] using hall j hj
    · rename_i hopen
      exact hs.frame rfl rfl rfl rfl rfl id id fun hclosed _ => absurd hclosed hopen
  · cases h

theorem endPost_owned {k : Nat} {raised : Bool} (h : step s (.endPost k raised) = some t)
    (hs : s.Owned) : t.Owned := by
  simp only [step] at h
  split at h <;> cases h
  refine hs.frame rfl rfl rfl rfl rfl id id fun _ hd => hd.imp id ?_
  intro hall j hj
  by_cases hjk : j = k
  · subst hjk
    exact ⟨raised, by simp [setPost]⟩
  · simpa [setPost, hjk] using hall j hj

theorem beginClose_owned {c : Nat} {expired : Bool} (h : step s (.beginClose c expired) = some t)
    (hc : s.Counted) (hs : s.Owned) : t.Owned := by
  simp only [step] at h
  split at h
  · rename_i hpc
    split at h <;> cases h
    · rename_i hclosed
      refine ⟨hs.closed, ?_, ?_, hs.nobody⟩
      · intro c' hc'
        by_cases hcc : c' = c
        · subst hcc
          exact .inr (by simp [setClose])
        · simpa [setClose, hcc] using hs.others c' hc'
      · intro c' hc'
        have hown := hs.owner c' hc'
        have hcc : c' ≠ c := by
          intro hcc
          rw [hcc, hpc] at hown
          exact hown
        simp only [setClose, Function.update_of_ne hcc]
        exact hown.frame rfl rfl id id id
    · rename_i hopen
      have hnone : s.closedBy = none := by
        have hclosed := hs.closed
        cases hby : s.closedBy with
        | none => rfl
        | some c' =>
          rw [hby] at hclosed
          exact absurd hclosed hopen
      let u : IncidentClient cfg :=
        { s with lifecycle := { s.lifecycle with closed := true }, closedBy := some c }
      have hu : u.Counted := hc.frame rfl rfl rfl
      have hat : u.OwnerAt c .draining := hs.nobody hnone
      obtain ⟨pc, hcloses, hat'⟩ := drain_owner expired hu hat
      obtain ⟨hby, hlife⟩ := drain_frame u c expired
      refine ⟨by rw [hby, hlife]; rfl, ?_, ?_, ?_⟩
      · intro c' hc'
        rw [hby] at hc'
        have hne : c' ≠ c := fun hcc => hc' (by rw [hcc])
        rw [hcloses, Function.update_of_ne hne]
        exact hs.others c' (by rw [hnone]; nofun)
      · intro c' hc'
        rw [hby] at hc'
        cases hc'
        rw [hcloses, Function.update_self]
        exact hat'
      · intro hno
        rw [hby] at hno
        cases hno
  · cases h

theorem wake_owned {c : Nat} {expired : Bool} (h : step s (.wake c expired) = some t)
    (hc : s.Counted) (hs : s.Owned) : t.Owned := by
  simp only [step] at h
  split at h <;> cases h
  rename_i hpc
  have hby := hs.eq_owner (c := c) (by simp [hpc]) (by simp [hpc])
  have hat := hs.owner c hby
  rw [hpc] at hat
  obtain ⟨pc, hcloses, hat'⟩ := drain_owner expired hc hat
  obtain ⟨hby', hlife⟩ := drain_frame s c expired
  exact hs.advance hby hcloses hby' (by rw [hlife]) hat'

theorem closeDispatcher_owned {c : Nat} (h : step s (.closeDispatcher c) = some t)
    (hs : s.Owned) : t.Owned := by
  simp only [step] at h
  split at h
  · rename_i hpc
    have hby := hs.eq_owner (c := c) (by simp [hpc]) (by simp [hpc])
    have hat := hs.owner c hby
    rw [hpc] at hat
    obtain ⟨hgranted, hexec, hclosed, hdrained⟩ := hat
    rw [hclosed, if_neg Bool.false_ne_true] at h
    obtain ⟨d, -, rfl⟩ := Option.map_eq_some_iff.mp h
    exact hs.advance hby rfl rfl rfl ⟨hgranted, hexec, hdrained⟩
  · cases h

theorem dispatcherClosed_owned {c : Nat} (h : step s (.dispatcherClosed c) = some t)
    (hs : s.Owned) : t.Owned := by
  simp only [step] at h
  split at h
  · rename_i hpc hret
    cases h
    have hby := hs.eq_owner (c := c) (by simp [hpc]) (by simp [hpc])
    have hat := hs.owner c hby
    rw [hpc] at hat
    obtain ⟨hgranted, hexec, hdrained⟩ := hat
    exact hs.advance hby rfl rfl rfl ⟨hgranted, hexec, hret, hdrained⟩
  · cases h

theorem closeExecutor_owned {c : Nat} (h : step s (.closeExecutor c) = some t)
    (hs : s.Owned) : t.Owned := by
  simp only [step] at h
  split at h
  · rename_i hpc
    cases h
    have hby := hs.eq_owner (c := c) (by simp [hpc]) (by simp [hpc])
    have hat := hs.owner c hby
    rw [hpc] at hat
    obtain ⟨hgranted, hexec, -, -⟩ := hat
    refine hs.advance hby rfl rfl rfl ⟨hgranted, ?_⟩
    show s.executorCloses ++ [c] = [c]
    rw [hexec]
    rfl
  · cases h

theorem dispatch_owned {l : Dispatcher.Label cfg} (h : step s (.dispatch l) = some t)
    (hs : s.Owned) : t.Owned := by
  simp only [step] at h
  split at h
  · rename_i hfree
    obtain ⟨d, hd, rfl⟩ := Option.map_eq_some_iff.mp h
    have hl : l ≠ .close := by
      intro hl
      rw [hl] at hfree
      cases hfree
    exact hs.frame rfl rfl rfl rfl rfl
      (fun hclosed => (AsyncDispatcher.closed_step hd hl).trans hclosed)
      (AsyncDispatcher.returned_step hd) fun _ hdrained => hdrained
  · cases h

/-! ## Runs -/

structure Inv (s : IncidentClient cfg) : Prop where
  counted : s.Counted
  owned : s.Owned
  joined : s.dispatcher.Joined

theorem owned_step (h : step s l = some t) (hc : s.Counted) (hs : s.Owned) : t.Owned := by
  cases l with
  | post k => exact post_owned h hc hs
  | endPost k raised => exact endPost_owned h hs
  | postAsync k =>
    simp only [step] at h
    split at h <;> cases h
    exact hs.frame rfl rfl rfl rfl rfl id id fun _ hd => hd
  | beginClose c expired => exact beginClose_owned h hc hs
  | wake c expired => exact wake_owned h hc hs
  | closeDispatcher c => exact closeDispatcher_owned h hs
  | dispatcherClosed c => exact dispatcherClosed_owned h hs
  | closeExecutor c => exact closeExecutor_owned h hs
  | dispatch l => exact dispatch_owned h hs

/-- A step of the client is at most one step of its dispatcher. -/
theorem step_dispatcher (h : step s l = some t) :
    t.dispatcher = s.dispatcher ∨ ∃ m, s.dispatcher.step m = some t.dispatcher := by
  cases l with
  | post k =>
    left
    simp only [step] at h
    split at h <;> cases h
    split <;> rfl
  | beginClose c expired =>
    left
    simp only [step] at h
    split at h
    · split at h <;> cases h
      · rfl
      · unfold drain
        split <;> rfl
    · cases h
  | wake c expired =>
    left
    simp only [step] at h
    split at h <;> cases h
    unfold drain
    split <;> rfl
  | closeDispatcher c =>
    simp only [step] at h
    split at h
    · split at h
      · cases h
        exact .inl rfl
      · obtain ⟨d, hd, rfl⟩ := Option.map_eq_some_iff.mp h
        exact .inr ⟨.close, hd⟩
    · cases h
  | dispatch m =>
    simp only [step] at h
    split at h
    · obtain ⟨d, hd, rfl⟩ := Option.map_eq_some_iff.mp h
      exact .inr ⟨m, hd⟩
    · cases h
  | endPost k raised | postAsync k | dispatcherClosed c | closeExecutor c =>
    left
    simp only [step] at h
    split at h <;> cases h
    rfl

theorem inv_step (h : step s l = some t) (hs : s.Inv) : t.Inv := by
  refine ⟨counted_step h hs.counted, owned_step h hs.counted hs.owned, ?_⟩
  rcases step_dispatcher h with hsame | ⟨m, hm⟩
  · rw [hsame]
    exact hs.joined
  · exact AsyncDispatcher.joined_step hm hs.joined

theorem run_inv {ls : List (Label cfg)} (h : Run step anyStep (new cfg) ls s) : s.Inv := by
  refine h.invariant (fun _ hstep hs => inv_step hstep hs) ⟨⟨List.nodup_nil, ?_, rfl⟩,
    ⟨rfl, fun _ _ => .inl rfl, nofun, fun _ => ⟨rfl, rfl, rfl⟩⟩, AsyncDispatcher.joined_new cfg⟩
  intro k
  simp [new]

/-- A closed client stays closed and admits no post. -/
theorem closed_step (h : step s l = some t) (hs : s.lifecycle.closed = true) :
    t.lifecycle.closed = true ∧ t.admitted = s.admitted := by
  cases l with
  | post k =>
    simp only [step, Lifecycle.begin, hs] at h
    split at h <;> cases h
    exact ⟨hs, rfl⟩
  | beginClose c expired =>
    simp only [step, hs] at h
    split at h <;> cases h
    exact ⟨hs, rfl⟩
  | wake c expired =>
    simp only [step] at h
    split at h <;> cases h
    unfold drain
    split <;> exact ⟨hs, rfl⟩
  | closeDispatcher c =>
    simp only [step] at h
    split at h
    · split at h
      · cases h
        exact ⟨hs, rfl⟩
      · obtain ⟨d, -, rfl⟩ := Option.map_eq_some_iff.mp h
        exact ⟨hs, rfl⟩
    · cases h
  | dispatch m =>
    simp only [step] at h
    split at h
    · obtain ⟨d, -, rfl⟩ := Option.map_eq_some_iff.mp h
      exact ⟨hs, rfl⟩
    · cases h
  | endPost k raised | postAsync k | dispatcherClosed c | closeExecutor c =>
    simp only [step] at h
    split at h <;> cases h
    exact ⟨hs, rfl⟩

theorem closed_run {ls : List (Label cfg)} (h : Run step anyStep s ls t)
    (hs : s.lifecycle.closed = true) : t.admitted = s.admitted := by
  refine (h.invariant (I := fun u => u.lifecycle.closed = true ∧ u.admitted = s.admitted)
    (fun _ hstep hu => ?_) ⟨hs, rfl⟩).2
  obtain ⟨hclosed, hadmitted⟩ := closed_step hstep hu.1
  exact ⟨hclosed, hadmitted.trans hu.2⟩

/-- What the shutdown of a client keeps to, in a state and from it on. -/
structure ShutdownOrder (s : IncidentClient cfg) : Prop where
  /-- At most one `begin_close` has returned `True`, that of the call that set the closed flag. -/
  one_owner : s.granted.length ≤ 1 ∧ ∀ c ∈ s.granted, s.closedBy = some c
  /-- No `begin` succeeds once the flag is set. -/
  refuses : s.lifecycle.closed = true →
    ∀ ls t, Run step anyStep s ls t → t.admitted = s.admitted
  active : s.lifecycle.active = s.inFlight.length ∧ 0 ≤ s.lifecycle.active
  /-- `HttpExecutor.close` is called once, when the posts and the workers are waited for. -/
  executor_once : s.executorCloses.length ≤ 1
  executor_last : ∀ c t, step s (.closeExecutor c) = some t →
    s.executorCloses = [] ∧ s.Drained ∧ ∀ w, s.dispatcher.WaitedFor w

theorem Owned.granted (hs : s.Owned) :
    s.granted.length ≤ 1 ∧ ∀ c ∈ s.granted, s.closedBy = some c := by
  cases hby : s.closedBy with
  | none =>
    rw [(hs.nobody hby).1]
    exact ⟨Nat.zero_le 1, nofun⟩
  | some o =>
    have hone : s.granted = [] ∨ s.granted = [o] := by
      have hat := hs.owner o hby
      cases hpc : s.closes o <;> rw [hpc] at hat
      · exact hat.elim
      · exact hat.elim
      · exact .inl hat.1
      all_goals exact .inr hat.1
    rcases hone with hone | hone <;> rw [hone]
    · exact ⟨Nat.zero_le 1, nofun⟩
    · exact ⟨Nat.le_refl 1, fun c hc => by rw [List.mem_singleton.mp hc]⟩

theorem Owned.executorCloses (hs : s.Owned) : s.executorCloses.length ≤ 1 := by
  cases hby : s.closedBy with
  | none => simp [(hs.nobody hby).2.1]
  | some o =>
    have hat := hs.owner o hby
    cases hpc : s.closes o <;> rw [hpc] at hat
    · exact hat.elim
    · exact hat.elim
    · simp [hat.2.1]
    · simp [hat.2.1]
    · simp [hat.2.1]
    · simp [hat.2.1]
    · simp [hat.2]

/-- **The client shuts down in order**, whatever posts, queued deliveries and closes do. -/
theorem shutdown_in_order {ls : List (Label cfg)} (h : Run step anyStep (new cfg) ls s) :
    s.ShutdownOrder := by
  have hs := run_inv h
  refine ⟨hs.owned.granted, fun hclosed ms u hrun => closed_run hrun hclosed,
    ⟨hs.counted.active, ?_⟩, hs.owned.executorCloses, ?_⟩
  · rw [hs.counted.active]
    exact Int.natCast_nonneg _
  · intro c t hstep
    simp only [step] at hstep
    split at hstep
    · rename_i hpc
      have hby := hs.owned.eq_owner (c := c) (by simp [hpc]) (by simp [hpc])
      have hat := hs.owned.owner c hby
      rw [hpc] at hat
      obtain ⟨-, hexec, hret, hdrained⟩ := hat
      exact ⟨hexec, hdrained, hs.joined.waitedFor hret⟩
    · cases hstep

/-- A close waits for a post, joins the one worker in vain and closes the transport; another close
and a late post are turned away. -/
theorem shutdown_in_order_contended : ∃ ls s, Run step anyStep (new ⟨1, 1⟩) ls s ∧
    s.ShutdownOrder ∧ s.granted = [0] ∧ s.admitted = [0] ∧ s.executorCloses = [0] ∧
    s.closes 1 = .refused ∧ s.posts 1 = .refused ∧ s.dispatcher.ran = [0] := by
  have hex : ∃ ls s, Run step anyStep (new ⟨1, 1⟩) ls s ∧ s.granted = [0] ∧ s.admitted = [0] ∧
      s.executorCloses = [0] ∧ s.closes 1 = .refused ∧ s.posts 1 = .refused ∧
      s.dispatcher.ran = [0] := by
    refine ⟨_, _, run_of_exec [.post 0, .postAsync 0, .dispatch (.submit 0 false),
      .dispatch (.incrementQueued 0), .dispatch (.acquire 0), .dispatch (.offer 0),
      .dispatch (.release 0), .dispatch (.get (0 : Fin 1)), .dispatch (.claim (0 : Fin 1)),
      .dispatch (.decrement (0 : Fin 1)), .dispatch (.call (0 : Fin 1)), .beginClose 0 false,
      .beginClose 1 false, .post 1, .endPost 0 false, .wake 0 false, .closeDispatcher 0,
      .dispatch .setStopping, .dispatch (.join (0 : Fin 1) true), .dispatch .joined,
      .dispatch .signal, .dispatch .drainPoll, .dispatch (.forcedJoin (0 : Fin 1) true),
      .dispatch .forcedJoined, .dispatcherClosed 0, .closeExecutor 0] rfl,
      rfl, rfl, rfl, rfl, rfl, rfl⟩
  obtain ⟨ls, s, hrun, hfacts⟩ := hex
  exact ⟨ls, s, hrun, shutdown_in_order hrun, hfacts⟩

end IncidentClient

end OppexSdk.Python.Client
