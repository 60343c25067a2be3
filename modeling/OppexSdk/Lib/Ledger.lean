import Mathlib.Data.Multiset.AddSub
import Mathlib.Data.Multiset.Filter
import Mathlib.Data.Multiset.UnionInter

/-! # What a ledger leaves open

Entries are taken in once each. Some are settled in one of two ways, and the rest is what the
system still has. The entries that were settled in neither way are counted by what it has. -/
namespace OppexSdk.Lib.Ledger

variable {α : Type} [DecidableEq α]

/-- The entries that are in neither of the two lists. -/
def unsettled (entries first second : List α) : List α :=
  entries.filter fun k => k ∉ first ∧ k ∉ second

theorem coe_unsettled {entries first second : List α} {rest : Multiset α}
    (h : (entries : Multiset α) = first + second + rest) (hnodup : entries.Nodup) :
    (unsettled entries first second : Multiset α) = rest := by
  have hall : ((first : Multiset α) + second + rest).Nodup := h ▸ Multiset.coe_nodup.mpr hnodup
  have hdisj : Disjoint ((first : Multiset α) + second) rest :=
    Multiset.disjoint_of_nodup_add hall
  have hsettled : ((first : Multiset α) + second).filter (fun k => k ∉ first ∧ k ∉ second) = 0 := by
    refine Multiset.filter_eq_nil.mpr ?_
    intro k hk hnot
    rcases Multiset.mem_add.mp hk with hk | hk
    · exact hnot.1 hk
    · exact hnot.2 hk
  have hopen : rest.filter (fun k => k ∉ first ∧ k ∉ second) = rest := by
    refine Multiset.filter_eq_self.mpr fun k hk => ⟨?_, ?_⟩
    · intro hmem
      exact Multiset.disjoint_left.mp hdisj (Multiset.mem_add.mpr (.inl hmem)) hk
    · intro hmem
      exact Multiset.disjoint_left.mp hdisj (Multiset.mem_add.mpr (.inr hmem)) hk
  rw [unsettled, ← Multiset.filter_coe, h, Multiset.filter_add, hsettled, hopen, Multiset.zero_add]

theorem length_unsettled {entries first second : List α} {rest : Multiset α}
    (h : (entries : Multiset α) = first + second + rest) (hnodup : entries.Nodup) :
    (unsettled entries first second).length = Multiset.card rest := by
  rw [← coe_unsettled h hnodup, Multiset.coe_card]

end OppexSdk.Lib.Ledger
