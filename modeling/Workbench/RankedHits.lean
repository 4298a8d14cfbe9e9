import Mathlib.Data.List.Basic
import Mathlib.Data.List.Nodup
import Mathlib.Data.Nat.Notation

namespace Workbench.RankedHits

variable {α : Type} (score : α → ℕ)

/-- The first `k` of the items that score, the best first; what scores the same keeps its order. -/
structure IsTop (k : ℕ) (xs hits : List α) : Prop where
  scored : ∀ x ∈ hits, x ∈ xs ∧ 0 < score x
  distinct : hits.Nodup
  sorted : hits.Pairwise fun a b => score b ≤ score a
  bounded : hits.length ≤ k
  best : ∀ x ∈ xs, x ∉ hits → 0 < score x → hits.length = k ∧ ∀ hit ∈ hits, score x ≤ score hit
  stable : ∀ a b, [a, b].Sublist xs → score b ≤ score a → b ∈ hits → [a, b].Sublist hits

variable {score} {xs ranked : List α} {a b : α}

theorem pair_sublist_take {k : ℕ} (hnodup : ranked.Nodup) (h : [a, b].Sublist ranked)
    (hb : b ∈ ranked.take k) : [a, b].Sublist (ranked.take k) := by
  rw [← List.take_append_drop k ranked] at h
  obtain ⟨front, back, hpair, hfront, hback⟩ := List.sublist_append_iff.mp h
  rcases List.eq_nil_or_concat' back with rfl | ⟨back, last, rfl⟩
  · rw [List.append_nil] at hpair
    rwa [hpair]
  · exfalso
    have hlast : last = b := by
      have hends := congrArg List.getLast? hpair
      rw [← List.append_assoc, List.getLast?_concat] at hends
      exact (Option.some.inj hends).symm
    have hdrop : b ∈ ranked.drop k := by
      apply hback.mem
      rw [hlast]
      exact List.mem_append_right _ List.mem_cons_self
    rw [← List.take_append_drop k ranked] at hnodup
    exact (List.disjoint_of_nodup_append hnodup) hb hdrop

theorem isTop_take (k : ℕ) (hxs : xs.Nodup)
    (hperm : ranked.Perm (xs.filter fun x => 0 < score x))
    (hsorted : ranked.Pairwise fun a b => score b ≤ score a)
    (hstable : ∀ a b, [a, b].Sublist (xs.filter fun x => 0 < score x) → score b ≤ score a →
      [a, b].Sublist ranked) : IsTop score k xs (ranked.take k) := by
  have hmem : ∀ x, x ∈ ranked ↔ x ∈ xs ∧ 0 < score x := by
    intro x
    rw [hperm.mem_iff, List.mem_filter, decide_eq_true_eq]
  have hnodup : ranked.Nodup := hperm.nodup_iff.mpr (hxs.filter _)
  constructor
  · intro x hx
    exact (hmem x).mp (List.mem_of_mem_take hx)
  · exact hnodup.sublist (List.take_sublist k ranked)
  · exact hsorted.sublist (List.take_sublist k ranked)
  · exact List.length_take_le k ranked
  · intro x hx hout hpos
    have hranked : x ∈ ranked := (hmem x).mpr ⟨hx, hpos⟩
    have hdrop : x ∈ ranked.drop k := by
      rw [← List.take_append_drop k ranked, List.mem_append] at hranked
      exact hranked.resolve_left hout
    constructor
    · have hlt := List.length_pos_of_mem hdrop
      rw [List.length_drop] at hlt
      rw [List.length_take]
      omega
    · intro hit hhit
      rw [← List.take_append_drop k ranked] at hsorted
      exact (List.pairwise_append.mp hsorted).2.2 hit hhit x hdrop
  · intro a b hpair hle hb
    have hboth : 0 < score b := ((hmem b).mp (List.mem_of_mem_take hb)).2
    have hfiltered := hpair.filter fun x => decide (0 < score x)
    rw [List.filter_cons_of_pos (by simpa using Nat.lt_of_lt_of_le hboth hle),
      List.filter_cons_of_pos (by simpa using hboth), List.filter_nil] at hfiltered
    exact pair_sublist_take hnodup (hstable a b hfiltered hle) hb

section Sorted

theorem byScore_trans (score : α → ℕ) (a b c : α) (hab : decide (score b ≤ score a) = true)
    (hbc : decide (score c ≤ score b) = true) : decide (score c ≤ score a) = true := by
  rw [decide_eq_true_eq] at *
  exact Nat.le_trans hbc hab

theorem byScore_total (a b : α) :
    (decide (score b ≤ score a) || decide (score a ≤ score b)) = true := by
  rw [Bool.or_eq_true, decide_eq_true_eq, decide_eq_true_eq]
  exact Nat.le_total _ _

theorem sorted_mergeSort (xs : List α) :
    (xs.mergeSort fun a b => score b ≤ score a).Pairwise fun a b => score b ≤ score a :=
  (List.pairwise_mergeSort (byScore_trans score) byScore_total xs).imp of_decide_eq_true

theorem pair_mergeSort (h : [a, b].Sublist xs) (hle : score b ≤ score a) :
    [a, b].Sublist (xs.mergeSort fun a b => score b ≤ score a) :=
  List.pair_sublist_mergeSort (byScore_trans score) byScore_total (decide_eq_true hle) h

theorem isTop_filter_sort (k : ℕ) (hxs : xs.Nodup) :
    IsTop score k xs
      (((xs.mergeSort fun a b => score b ≤ score a).filter fun x => 0 < score x).take k) := by
  apply isTop_take k hxs
  · exact (List.mergeSort_perm xs _).filter _
  · exact (sorted_mergeSort xs).filter _
  · intro a b hpair hle
    have hfiltered := (pair_mergeSort (hpair.trans List.filter_sublist) hle).filter
      fun x => decide (0 < score x)
    have hall : ∀ x ∈ [a, b], decide (0 < score x) = true :=
      fun x hx => (List.mem_filter.mp (hpair.mem hx)).2
    rwa [List.filter_eq_self.mpr hall] at hfiltered

theorem isTop_sort_filter (k : ℕ) (hxs : xs.Nodup) :
    IsTop score k xs
      (((xs.filter fun x => 0 < score x).mergeSort fun a b => score b ≤ score a).take k) := by
  apply isTop_take k hxs
  · exact List.mergeSort_perm _ _
  · exact sorted_mergeSort _
  · intro a b hpair hle
    exact pair_mergeSort hpair hle

end Sorted

end Workbench.RankedHits
