import Mathlib.Data.List.Nodup
import OppexSdk.Python.HttpExecutor

/-! # Who has a connection of the Python transport

A connection is with one call of `execute`, in the pool, with the call of `close` that has taken
it out of the pool, or closed. -/
namespace OppexSdk.Python.Http
open OppexSdk.Lib.Places OppexSdk.Lib.Transition

inductive Holder
  | execute (e : Nat)
  | close (c : Nat)
  deriving DecidableEq

inductive Place
  /-- `_open_connection` has not returned it yet. -/
  | unopened
  | held (holder : Holder)
  | pooled
  | closed
  deriving DecidableEq

def ExecutePc.connection : ExecutePc → Option Nat
  | exchanging connection _ | offering connection _ | closing connection _ => some connection
  | _ => none

def ClosePc.pending : ClosePc → List Nat
  | closing pending => pending
  | _ => []

namespace HttpExecutor
variable {s t : HttpExecutor}

/-- The state says that the connection is in the place. -/
def At (s : HttpExecutor) (connection : Nat) : Place → Prop
  | .unopened => s.opened ≤ connection
  | .held (.execute e) => (s.executes e).connection = some connection
  | .held (.close c) => connection ∈ (s.closes c).pending
  | .pooled => connection ∈ s.pool
  | .closed => connection ∈ s.shut

/-- Every connection is in one place, and the calls have let go of what they are not holding. -/
structure Inv (s : HttpExecutor) : Prop where
  located : ∃ place, Located s.At place
  pool_nodup : s.pool.Nodup
  pending_nodup : ∀ c, (s.closes c).pending.Nodup
  bounded : s.pool.length ≤ maxPooledConnections
  emptied : s.closed = true → s.pool = []
  let_go : ∀ e, (s.got e).Perm (s.pooled e ++ s.disposed e ++ (s.executes e).connection.toList)

/-! ## What a step says of the places it does not touch -/

theorem at_congr {c : Nat} {x : Place}
    (hopened : x = .unopened → (t.opened ≤ c ↔ s.opened ≤ c))
    (hexecute : ∀ e, x = .held (.execute e) →
      ((t.executes e).connection = some c ↔ (s.executes e).connection = some c))
    (hclose : ∀ k, x = .held (.close k) →
      (c ∈ (t.closes k).pending ↔ c ∈ (s.closes k).pending))
    (hpool : x = .pooled → (c ∈ t.pool ↔ c ∈ s.pool))
    (hshut : x = .closed → (c ∈ t.shut ↔ c ∈ s.shut)) : t.At c x ↔ s.At c x := by
  cases x with
  | unopened => exact hopened rfl
  | held h =>
    cases h with
    | execute e => exact hexecute e rfl
    | close k => exact hclose k rfl
  | pooled => exact hpool rfl
  | closed => exact hshut rfl

/-- The call `e` is the only one that says something else. -/
theorem connection_update {executes : Nat → ExecutePc} {e e' c : Nat} {pc : ExecutePc}
    (h : e' = e → (pc.connection = some c ↔ (executes e).connection = some c)) :
    (Function.update executes e pc e').connection = some c ↔
      (executes e').connection = some c := by
  by_cases he : e' = e
  · subst he
    rw [Function.update_self]
    exact h rfl
  · rw [Function.update_of_ne he]

theorem pending_update {closes : Nat → ClosePc} {k k' c : Nat} {pc : ClosePc}
    (h : k' = k → (c ∈ pc.pending ↔ c ∈ (closes k).pending)) :
    c ∈ (Function.update closes k pc k').pending ↔ c ∈ (closes k').pending := by
  by_cases hk : k' = k
  · subst hk
    rw [Function.update_self]
    exact h rfl
  · rw [Function.update_of_ne hk]

/-- A member of a list with one more entry. -/
theorem mem_snoc_of_ne (xs : List Nat) {c d : Nat} (h : c ≠ d) : c ∈ xs ++ [d] ↔ c ∈ xs := by
  simp [h]

/-- What a call has let go of, when it is the only one that moves. -/
theorem let_go_update {e : Nat} (hs : s.Inv)
    (hgot : ∀ e', e' ≠ e → t.got e' = s.got e') (hpooled : ∀ e', e' ≠ e → t.pooled e' = s.pooled e')
    (hdisposed : ∀ e', e' ≠ e → t.disposed e' = s.disposed e')
    (hexecutes : ∀ e', e' ≠ e → t.executes e' = s.executes e')
    (hself : (t.got e).Perm (t.pooled e ++ t.disposed e ++ (t.executes e).connection.toList))
    (e' : Nat) :
    (t.got e').Perm (t.pooled e' ++ t.disposed e' ++ (t.executes e').connection.toList) := by
  by_cases he : e' = e
  · subst he
    exact hself
  · rw [hgot e' he, hpooled e' he, hdisposed e' he, hexecutes e' he]
    exact hs.let_go e'

theorem note_self (history : Nat → List Nat) (e connection : Nat) :
    note history e connection e = history e ++ [connection] := Function.update_self ..

theorem note_of_ne {e e' : Nat} (history : Nat → List Nat) (connection : Nat) (h : e' ≠ e) :
    note history e connection e' = history e' := Function.update_of_ne h ..

/-! ## Calls of execute -/

section
variable {e connection : Nat}

/-- A call that goes on with the connection it has, or with none. -/
theorem Inv.setExecute (hs : s.Inv) {pc : ExecutePc}
    (hpc : pc.connection = (s.executes e).connection) : (s.setExecute e pc).Inv := by
  obtain ⟨place, hplace⟩ := hs.located
  refine ⟨⟨place, fun c x => Iff.trans (b := s.At c x) (at_congr (fun _ => Iff.rfl)
    ?_ (fun _ _ => Iff.rfl) (fun _ => Iff.rfl) fun _ => Iff.rfl) (hplace c x)⟩,
    hs.pool_nodup, hs.pending_nodup, hs.bounded, hs.emptied, ?_⟩
  · intro e' _
    exact connection_update fun _ => by rw [hpc]
  · refine let_go_update (e := e) hs (fun _ _ => rfl) (fun _ _ => rfl) (fun _ _ => rfl)
      (fun e' he => Function.update_of_ne he ..) ?_
    simp only [HttpExecutor.setExecute, Function.update_self, hpc]
    exact hs.let_go e

/-- The call gets a connection from a place that is no call's. -/
theorem Inv.acquire (hs : s.Inv) {pooled : Bool} {p : Place}
    (hnone : (s.executes e).connection = none) (hp : s.At connection p)
    (hexecutes : t.executes = Function.update s.executes e (.exchanging connection pooled))
    (hcloses : t.closes = s.closes) (hgone : ¬ t.At connection p)
    (hopened : ∀ c, ¬ (c = connection ∧ p = .unopened) → (t.opened ≤ c ↔ s.opened ≤ c))
    (hpool : ∀ c, ¬ (c = connection ∧ p = .pooled) → (c ∈ t.pool ↔ c ∈ s.pool))
    (hshut : t.shut = s.shut) (hgot : t.got = note s.got e connection)
    (hpooled : t.pooled = s.pooled) (hdisposed : t.disposed = s.disposed)
    (hnodup : t.pool.Nodup) (hbounded : t.pool.length ≤ maxPooledConnections)
    (hemptied : t.closed = true → t.pool = []) : t.Inv := by
  obtain ⟨place, hplace⟩ := hs.located
  refine ⟨⟨_, hplace.move (k := connection) (p := p) (q := .held (.execute e)) hp ?_ hgone
    fun c x hne => at_congr ?_ ?_ ?_ ?_
      ?_⟩, hnodup, ?_, hbounded, hemptied, ?_⟩
  · show (t.executes e).connection = some connection
    rw [hexecutes, Function.update_self]
    rfl
  · intro hx
    exact hopened c fun hor => hne ⟨hor.1, .inl (hx.trans hor.2.symm)⟩
  · intro e' hx
    rw [hexecutes]
    refine connection_update ?_
    intro he
    rw [hnone]
    refine iff_of_false (fun hc => hne ⟨?_, .inr (he ▸ hx)⟩) nofun
    cases hc
    rfl
  · intro k _
    rw [hcloses]
  · intro hx
    exact hpool c fun hor => hne ⟨hor.1, .inl (hx.trans hor.2.symm)⟩
  · intro _
    rw [hshut]
  · intro k
    rw [hcloses]
    exact hs.pending_nodup k
  · refine let_go_update (e := e) hs ?_ (fun e' _ => by rw [hpooled])
      (fun e' _ => by rw [hdisposed]) ?_ ?_
    · intro e' he
      rw [hgot, note_of_ne _ _ he]
    · intro e' he
      rw [hexecutes, Function.update_of_ne he]
    · have hold := hs.let_go e
      rw [hnone, Option.toList_none, List.append_nil] at hold
      rw [hgot, note_self, hpooled, hdisposed, hexecutes, Function.update_self]
      exact hold.append_right [connection]

theorem takePooled_inv (h : step s (.takePooled e) = some t) (hs : s.Inv) : t.Inv := by
  simp only [step] at h
  split at h
  · rename_i hpc
    have hnone : (s.executes e).connection = none := by rw [hpc]; rfl
    split at h
    · rename_i connection hopen hlast
      cases h
      have hpool : s.pool = s.pool.dropLast ++ [connection] :=
        (List.dropLast_append_getLast? connection hlast).symm
      have hnodup : (s.pool.dropLast ++ [connection]).Nodup := hpool ▸ hs.pool_nodup
      have hgone : connection ∉ s.pool.dropLast := fun hmem =>
        List.disjoint_of_nodup_append hnodup hmem List.mem_cons_self
      refine hs.acquire (p := .pooled) hnone (List.mem_of_getLast? hlast) rfl rfl hgone
        (fun _ _ => Iff.rfl) ?_ rfl rfl rfl rfl hnodup.of_append_left ?_ ?_
      · intro c hne
        have hc : c ≠ connection := fun hc => hne ⟨hc, rfl⟩
        have hmem := mem_snoc_of_ne s.pool.dropLast hc
        rw [← hpool] at hmem
        exact hmem.symm
      · exact Nat.le_trans (List.dropLast_sublist s.pool).length_le hs.bounded
      · intro hclosed
        have hclosed : s.closed = true := hclosed
        rw [hopen] at hclosed
        cases hclosed
    · cases h
      exact hs.setExecute (by rw [hpc]; rfl)
  · cases h

theorem openConnection_inv {connects : Bool} (h : step s (.openConnection e connects) = some t)
    (hs : s.Inv) : t.Inv := by
  simp only [step] at h
  split at h
  · rename_i hpc
    have hnone : (s.executes e).connection = none := by rw [hpc]; rfl
    split at h <;> cases h
    · refine hs.acquire (p := .unopened) hnone (Nat.le_refl s.opened) rfl
        rfl ?_ ?_ (fun _ _ => Iff.rfl) rfl rfl rfl rfl hs.pool_nodup hs.bounded
        hs.emptied
      · simp [At]
      · intro c hne
        have hc : c ≠ s.opened := fun hc => hne ⟨hc, rfl⟩
        show s.opened + 1 ≤ c ↔ s.opened ≤ c
        omega
    · exact hs.setExecute (by rw [hpc]; rfl)
  · cases h

/-- The call lets its connection go. -/
theorem Inv.letGo (hs : s.Inv) {after : After} {q : Place}
    (hconn : (s.executes e).connection = some connection) (hq : t.At connection q)
    (hexecutes : t.executes = Function.update s.executes e after.pc)
    (hcloses : t.closes = s.closes) (hopened : t.opened = s.opened)
    (hpool : ∀ c, ¬ (c = connection ∧ q = .pooled) → (c ∈ t.pool ↔ c ∈ s.pool))
    (hshut : ∀ c, ¬ (c = connection ∧ q = .closed) → (c ∈ t.shut ↔ c ∈ s.shut))
    (hgot : t.got = s.got) (hpooled : ∀ e', e' ≠ e → t.pooled e' = s.pooled e')
    (hdisposed : ∀ e', e' ≠ e → t.disposed e' = s.disposed e')
    (hself : (s.pooled e ++ s.disposed e ++ [connection]).Perm (t.pooled e ++ t.disposed e))
    (hnodup : t.pool.Nodup) (hbounded : t.pool.length ≤ maxPooledConnections)
    (hemptied : t.closed = true → t.pool = []) : t.Inv := by
  have hafter : after.pc.connection = none := by cases after <;> rfl
  have hnone : (t.executes e).connection = none := by
    rw [hexecutes, Function.update_self, hafter]
  have hheld : s.At connection (.held (.execute e)) := hconn
  obtain ⟨place, hplace⟩ := hs.located
  refine ⟨⟨_, hplace.move hheld hq ?_
    fun c x hne => at_congr (fun _ => by rw [hopened]) ?_ (fun k _ => by rw [hcloses])
      ?_ ?_⟩, hnodup, ?_, hbounded, hemptied, ?_⟩
  · show ¬ (t.executes e).connection = some connection
    rw [hnone]
    nofun
  · intro e' hx
    rw [hexecutes]
    refine connection_update ?_
    intro he
    rw [hafter, hconn]
    refine iff_of_false nofun fun hc => hne ⟨?_, .inl (he ▸ hx)⟩
    cases hc
    rfl
  · intro hx
    exact hpool c fun hor => hne ⟨hor.1, .inr (hx.trans hor.2.symm)⟩
  · intro hx
    exact hshut c fun hor => hne ⟨hor.1, .inr (hx.trans hor.2.symm)⟩
  · intro k
    rw [hcloses]
    exact hs.pending_nodup k
  · refine let_go_update (e := e) hs (fun e' _ => by rw [hgot]) hpooled hdisposed
      (fun e' he => by rw [hexecutes, Function.update_of_ne he]) ?_
    have hold := hs.let_go e
    rw [hconn] at hold
    rw [hgot, hnone, Option.toList_none, List.append_nil]
    exact hold.trans hself

theorem offer_inv (h : step s (.offer e) = some t) (hs : s.Inv) : t.Inv := by
  simp only [step] at h
  split at h
  · rename_i connection after hpc
    have hconn : (s.executes e).connection = some connection := by rw [hpc]; rfl
    split at h <;> cases h
    · rename_i hkeep
      rw [Bool.and_eq_true, Bool.not_eq_true', decide_eq_true_iff] at hkeep
      obtain ⟨place, hplace⟩ := hs.located
      have hfresh : connection ∉ s.pool := by
        intro hmem
        have hexecute : s.At connection (.held (.execute e)) := hconn
        have hpooled : s.At connection .pooled := hmem
        cases hplace.unique hexecute hpooled
      refine hs.letGo (q := .pooled) hconn (List.mem_append_right _ List.mem_cons_self) rfl rfl rfl
        (fun c hne => mem_snoc_of_ne _ fun hc => hne ⟨hc, rfl⟩) (fun _ _ => Iff.rfl) rfl
        (fun e' he => note_of_ne _ _ he) (fun _ _ => rfl) ?_ ?_ ?_ ?_
      · show (s.pooled e ++ s.disposed e ++ [connection]).Perm (note s.pooled e connection e ++ _)
        rw [note_self, List.append_assoc, List.append_assoc]
        exact (List.perm_append_singleton connection (s.disposed e)).append_left (s.pooled e)
      · rw [← List.concat_eq_append]
        exact hs.pool_nodup.concat hfresh
      · simp only [List.length_append, List.length_singleton]
        exact hkeep.2
      · intro hclosed
        have hclosed : s.closed = true := hclosed
        rw [hkeep.1] at hclosed
        cases hclosed
    · exact hs.setExecute (by rw [hpc]; rfl)
  · cases h

theorem closeQuietly_inv (h : step s (.closeQuietly e) = some t) (hs : s.Inv) : t.Inv := by
  simp only [step] at h
  split at h
  · rename_i connection after hpc
    cases h
    have hconn : (s.executes e).connection = some connection := by rw [hpc]; rfl
    refine hs.letGo (q := .closed) hconn (List.mem_append_right _ List.mem_cons_self) rfl rfl rfl
      (fun _ _ => Iff.rfl) (fun c hne => mem_snoc_of_ne _ fun hc => hne ⟨hc, rfl⟩) rfl
      (fun _ _ => rfl) (fun e' he => note_of_ne _ _ he) ?_ hs.pool_nodup hs.bounded hs.emptied
    show (s.pooled e ++ s.disposed e ++ [connection]).Perm (_ ++ note s.disposed e connection e)
    rw [note_self, List.append_assoc]
    exact List.Perm.refl _
  · cases h

end

/-! ## Calls of close -/

section
variable {c : Nat}

theorem pending_nodup_update (hs : s.Inv) {pc : ClosePc} (hpc : pc.pending.Nodup) (k : Nat) :
    (Function.update s.closes c pc k).pending.Nodup :=
  (Function.forall_update_iff s.closes fun _ pc => pc.pending.Nodup).mpr
    ⟨hpc, fun k _ => hs.pending_nodup k⟩ k

/-- A close that goes on with what it has still to close. -/
theorem Inv.setClose (hs : s.Inv) {pc : ClosePc} (hpc : pc.pending = (s.closes c).pending) :
    (s.setClose c pc).Inv := by
  obtain ⟨place, hplace⟩ := hs.located
  refine ⟨⟨place, fun i x => Iff.trans (b := s.At i x) (at_congr (fun _ => Iff.rfl)
    (fun _ _ => Iff.rfl) ?_ (fun _ => Iff.rfl) fun _ => Iff.rfl) (hplace i x)⟩,
    hs.pool_nodup, ?_, hs.bounded, hs.emptied, hs.let_go⟩
  · intro k _
    exact pending_update fun _ => by rw [hpc]
  · exact pending_nodup_update hs (hpc ▸ hs.pending_nodup c)

/-- What is pooled goes to the close. -/
def toClose (c : Nat) (x : Place) : Place := if x = .pooled then .held (.close c) else x

theorem at_taken (hnone : (s.closes c).pending = []) (i : Nat) (x : Place) :
    At { s.setClose c (.closing s.pool) with closed := true, pool := [] } i x ↔
      ∃ p, s.At i p ∧ toClose c p = x := by
  by_cases hx : x = .held (.close c)
  · subst hx
    have hpending : At { s.setClose c (.closing s.pool) with closed := true, pool := [] } i
        (.held (.close c)) ↔ i ∈ s.pool := by
      simp [At, HttpExecutor.setClose, ClosePc.pending]
    rw [hpending]
    constructor
    · intro hmem
      exact ⟨.pooled, hmem, if_pos rfl⟩
    · intro hex
      obtain ⟨p, hp, hto⟩ := hex
      by_cases hpp : p = .pooled
      · subst hpp
        exact hp
      · rw [toClose, if_neg hpp] at hto
        subst hto
        have hmem : i ∈ (s.closes c).pending := hp
        rw [hnone] at hmem
        cases hmem
  · by_cases hpx : x = .pooled
    · subst hpx
      refine iff_of_false nofun ?_
      intro hex
      obtain ⟨p, -, hto⟩ := hex
      by_cases hpp : p = .pooled
      · rw [toClose, if_pos hpp] at hto
        cases hto
      · rw [toClose, if_neg hpp] at hto
        exact hpp hto
    · have hsame : At { s.setClose c (.closing s.pool) with closed := true, pool := [] } i x ↔
          s.At i x := by
        refine at_congr (fun _ => Iff.rfl) (fun _ _ => Iff.rfl) ?_
          (fun hp => absurd hp hpx) fun _ => Iff.rfl
        intro k hk
        exact pending_update fun hkc => absurd (hkc ▸ hk) hx
      rw [hsame]
      constructor
      · intro hat
        exact ⟨x, hat, if_neg hpx⟩
      · intro hex
        obtain ⟨p, hp, hto⟩ := hex
        by_cases hpp : p = .pooled
        · rw [toClose, if_pos hpp] at hto
          exact absurd hto.symm hx
        · rw [toClose, if_neg hpp] at hto
          exact hto ▸ hp

/-- `close` takes the pool. -/
theorem close_inv (h : step s (.close c) = some t) (hs : s.Inv) : t.Inv := by
  simp only [step] at h
  split at h
  · rename_i hpc
    have hnone : (s.closes c).pending = [] := by rw [hpc]; rfl
    split at h <;> cases h
    · exact hs.setClose (by rw [hpc]; rfl)
    · obtain ⟨place, hplace⟩ := hs.located
      exact ⟨⟨_, hplace.moveAll (toClose c) (at_taken hnone)⟩, List.nodup_nil,
        pending_nodup_update hs hs.pool_nodup, Nat.zero_le _, fun _ => rfl, hs.let_go⟩
  · cases h

theorem closeNext_inv (h : step s (.closeNext c) = some t) (hs : s.Inv) : t.Inv := by
  simp only [step] at h
  split at h
  · rename_i connection pending hpc
    cases h
    have hpending : (s.closes c).pending = connection :: pending := by rw [hpc]; rfl
    have hnodup := hs.pending_nodup c
    rw [hpending, List.nodup_cons] at hnodup
    have hheld : s.At connection (.held (.close c)) := by simp [At, hpending]
    obtain ⟨place, hplace⟩ := hs.located
    refine ⟨⟨_, hplace.move (q := .closed) hheld (List.mem_append_right _ List.mem_cons_self) ?_
      fun i x hne => at_congr (fun _ => Iff.rfl) (fun _ _ => Iff.rfl) ?_
        (fun _ => Iff.rfl) ?_⟩, hs.pool_nodup, ?_, hs.bounded, hs.emptied,
      hs.let_go⟩
    · simpa [At, HttpExecutor.setClose, ClosePc.pending] using hnodup.1
    · intro k hx
      refine pending_update ?_
      intro hk
      have hi : i ≠ connection := fun hi => hne ⟨hi, .inl (hk ▸ hx)⟩
      rw [hpending]
      simp [ClosePc.pending, hi]
    · intro hx
      exact mem_snoc_of_ne _ fun hi => hne ⟨hi, .inr hx⟩
    · exact pending_nodup_update hs hnodup.2
  · rename_i hpc
    cases h
    exact hs.setClose (by rw [hpc]; rfl)
  · cases h

end

/-! ## Runs -/

theorem inv_step {l : Label} (h : step s l = some t) (hs : s.Inv) : t.Inv := by
  cases l with
  | takePooled e => exact takePooled_inv h hs
  | openConnection e connects => exact openConnection_inv h hs
  | offer e => exact offer_inv h hs
  | closeQuietly e => exact closeQuietly_inv h hs
  | close c => exact close_inv h hs
  | closeNext c => exact closeNext_inv h hs
  | execute e serializes =>
    simp only [step] at h
    split at h <;> cases h
    rename_i hpc
    refine hs.setExecute ?_
    rw [hpc]
    split <;> rfl
  | exchange e outcome =>
    simp only [step] at h
    split at h <;> cases h
    rename_i hpc
    refine hs.setExecute ?_
    rw [hpc]
    split <;> rfl
  | leave e =>
    simp only [step] at h
    split at h <;> cases h
    rename_i hpc
    exact hs.setExecute (by rw [hpc]; rfl)

theorem inv_new : new.Inv := by
  refine ⟨⟨fun _ => .unopened, ?_⟩, List.nodup_nil, fun _ => List.nodup_nil,
    Nat.zero_le _, nofun, fun _ => List.Perm.refl _⟩
  intro c x
  cases x with
  | held h => cases h <;> simp [At, new, ExecutePc.connection, ClosePc.pending]
  | _ => simp [At, new]

theorem run_inv {ls : List Label} (h : Run step anyStep new ls s) : s.Inv :=
  h.invariant (fun _ hstep hs => inv_step hstep hs) inv_new

/-- The place of an open connection is with one call, in the pool, or closed. -/
structure PoolOwned (s : HttpExecutor) : Prop where
  one_place : ∀ c < s.opened, ∃! p, p ≠ .unopened ∧ s.At c p
  pooled_once : s.pool.Nodup
  bounded : s.pool.length ≤ 20
  emptied : s.closed = true → s.pool = []
  /-- A call that is over holds nothing; what it got it has put into the pool or closed. -/
  let_go : ∀ e raised, s.executes e = .returned raised →
    (∀ c, ¬ s.At c (.held (.execute e))) ∧ (s.got e).Perm (s.pooled e ++ s.disposed e)

/-- **Every connection has one owner**, whatever the exchanges come to and whenever `close` runs. -/
theorem connections_owned {ls : List Label} (h : Run step anyStep new ls s) : s.PoolOwned := by
  have hs := run_inv h
  obtain ⟨place, hplace⟩ := hs.located
  refine ⟨?_, hs.pool_nodup, hs.bounded, hs.emptied, fun e raised he => ⟨?_,
    ?_⟩⟩
  · intro c hc
    have hopen : place c ≠ .unopened := by
      intro hp
      have hle : s.opened ≤ c := (hplace c .unopened).mpr hp
      omega
    exact ⟨place c, ⟨hopen, (hplace c _).mpr rfl⟩, fun p hp => ((hplace c p).mp hp.2).symm⟩
  · intro c hat
    have hconn : (s.executes e).connection = some c := hat
    rw [he] at hconn
    cases hconn
  · have hnone : (s.executes e).connection = none := by rw [he]; rfl
    have hgot := hs.let_go e
    rw [hnone, Option.toList_none, List.append_nil] at hgot
    exact hgot

/-- A pooled connection turns out stale and is closed, a fresh one is pooled and closed by
`close`. -/
theorem connections_owned_stale : ∃ ls s, Run step anyStep new ls s ∧ s.PoolOwned ∧
    s.shut = [0, 1] ∧ s.closed = true ∧ s.executes 1 = .returned false ∧ s.got 1 = [0, 1] := by
  have hex : ∃ ls s, Run step anyStep new ls s ∧ s.shut = [0, 1] ∧ s.closed = true ∧
      s.executes 1 = .returned false ∧ s.got 1 = [0, 1] := by
    refine ⟨_, _, run_of_exec [.execute 0 true, .takePooled 0, .openConnection 0 true,
      .exchange 0 (.answered 503 false true), .offer 0, .leave 0,
      .execute 1 true, .takePooled 1, .exchange 1 .transportError, .closeQuietly 1,
      .openConnection 1 true, .exchange 1 (.answered 201 false true), .offer 1, .leave 1,
      .close 0, .closeNext 0, .closeNext 0] rfl, rfl, rfl, rfl, rfl⟩
  obtain ⟨ls, s, hrun, hfacts⟩ := hex
  exact ⟨ls, s, hrun, connections_owned hrun, hfacts⟩

/-- While `close` closes what it took, a connection is with no call of `execute`, not pooled and not
closed; and when a call of `execute` returns, the connection that it pooled may be with another. -/
theorem close_holds_connections :
    (∃ ls s, Run step anyStep new ls s ∧ 0 < s.opened ∧ (∀ e, ¬ s.At 0 (.held (.execute e))) ∧
      ¬ s.At 0 .pooled ∧ ¬ s.At 0 .closed) ∧
    ∃ ls s t, Run step anyStep new ls s ∧ step s (.leave 0) = some t ∧
      t.executes 0 = .returned false ∧ 0 ∈ t.got 0 ∧ ¬ t.At 0 .pooled ∧ ¬ t.At 0 .closed := by
  constructor
  · refine ⟨_, _, run_of_exec [.execute 0 true, .takePooled 0, .openConnection 0 true,
      .exchange 0 (.answered 200 false true), .offer 0, .leave 0, .close 0] rfl, Nat.zero_lt_one,
      ?_, nofun, nofun⟩
    intro e
    cases e <;> nofun
  · refine ⟨_, _, _, run_of_exec [.execute 0 true, .takePooled 0, .openConnection 0 true,
      .exchange 0 (.answered 200 false true), .offer 0, .execute 1 true, .takePooled 1] rfl, rfl,
      rfl, List.mem_cons_self, nofun, nofun⟩

end HttpExecutor

end OppexSdk.Python.Http
