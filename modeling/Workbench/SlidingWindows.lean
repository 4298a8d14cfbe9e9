import Mathlib.Algebra.Order.Group.Defs
import Mathlib.Algebra.Order.Group.Unbundled.Basic
import Mathlib.Algebra.Order.Sub.Defs
import Mathlib.Data.List.Basic
import Mathlib.Data.List.Induction
import Mathlib.Tactic.SplitIfs

namespace Workbench.SlidingWindows

variable {T : Type} [AddCommGroup T] [LinearOrder T] [IsOrderedAddMonoid T] {width now later : T}
  {hits : List T}

def recent (width : T) (hits : List T) (now : T) : List T := hits.filter fun t => now - t ≤ width

def Limited (limit : ℕ) (width : T) (hits : List T) : Prop :=
  ∀ front t back, hits = front ++ t :: back → (recent width front t).length < limit

omit [IsOrderedAddMonoid T] in
theorem recent_append (xs ys : List T) :
    recent width (xs ++ ys) now = recent width xs now ++ recent width ys now := List.filter_append ..

theorem old_of_le (hlater : now ≤ later) {t : T} (h : later - t ≤ width) : now - t ≤ width :=
  (sub_le_sub_right hlater t).trans h

theorem recent_recent (hlater : now ≤ later) :
    recent width (recent width hits now) later = recent width hits later := by
  unfold recent
  rw [List.filter_filter]
  apply List.filter_congr
  intro t _
  by_cases h : later - t ≤ width
  · simp [h, old_of_le hlater h]
  · simp [h]

theorem dropWhile_eq_recent (h : hits.Pairwise (· ≤ ·)) :
    hits.dropWhile (fun t => width < now - t) = recent width hits now := by
  induction hits with
  | nil => rfl
  | cons t rest ih =>
    obtain ⟨hfirst, hrest⟩ := List.pairwise_cons.mp h
    by_cases hold : width < now - t
    · rw [List.dropWhile_cons_of_pos (by simpa using hold), ih hrest, recent, recent,
        List.filter_cons_of_neg (by rwa [decide_eq_true_eq, not_le])]
    · rw [List.dropWhile_cons_of_neg (by simpa using hold)]
      apply Eq.symm
      apply List.filter_eq_self.mpr
      intro u hu
      have hle : t ≤ u := by
        rcases List.mem_cons.mp hu with rfl | hin
        · exact le_refl _
        · exact hfirst u hin
      exact decide_eq_true ((sub_le_sub_left hle now).trans (not_lt.mp hold))

theorem recent_eq_nil (h : hits.Pairwise (· ≤ ·)) (hlast : ∀ t ∈ hits.getLast?, width < now - t) :
    recent width hits now = [] := by
  apply List.filter_eq_nil_iff.mpr
  intro t ht
  obtain ⟨front, last, rfl⟩ := (List.eq_nil_or_concat' hits).resolve_left (List.ne_nil_of_mem ht)
  have hold := hlast last (by simp)
  have hle : t ≤ last := by
    rcases List.mem_append.mp ht with hin | hin
    · exact (List.pairwise_append.mp h).2.2 t hin last (by simp)
    · rw [List.mem_singleton.mp hin]
  rw [decide_eq_true_eq, not_le]
  exact hold.trans_le (sub_le_sub_left hle now)

omit [IsOrderedAddMonoid T] in
theorem Limited.nil (limit : ℕ) : Limited limit width ([] : List T) := by
  intro front t back h
  cases front <;> cases h

omit [IsOrderedAddMonoid T] in
theorem Limited.concat {limit : ℕ} {t : T} (h : Limited limit width hits)
    (ht : (recent width hits t).length < limit) : Limited limit width (hits ++ [t]) := by
  intro front u back heq
  rcases List.eq_nil_or_concat' back with rfl | ⟨back, last, rfl⟩
  · obtain ⟨rfl, hu⟩ := List.append_inj' heq rfl
    cases hu
    exact ht
  · rw [← List.cons_append, ← List.append_assoc] at heq
    obtain ⟨rfl, -⟩ := List.append_inj' heq rfl
    exact h front u back rfl

theorem Limited.interval {limit : ℕ} (h : Limited limit width hits) (ho : hits.Pairwise (· ≤ ·))
    (start : T) :
    (hits.filter fun t => start ≤ t ∧ t ≤ start + width).length ≤ limit := by
  induction hits using List.reverseRecOn with
  | nil => exact Nat.zero_le limit
  | append_singleton front t ih =>
    have hbefore := List.pairwise_append.mp ho
    have hfront : Limited limit width front := by
      intro xs u ys heq
      exact h xs u (ys ++ [t]) (by rw [heq, List.append_assoc, List.cons_append])
    rw [List.filter_append, List.length_append]
    by_cases hin : start ≤ t ∧ t ≤ start + width
    · -- what the interval holds before `t` is still recent at `t`
      have hsub : (front.filter fun u => start ≤ u ∧ u ≤ start + width).Sublist
          (recent width front t) := by
        apply List.monotone_filter_right
        intro u hu
        have hstart : start ≤ u := (of_decide_eq_true hu).1
        apply decide_eq_true
        apply sub_le_iff_le_add'.mpr
        exact hin.2.trans (add_le_add_left hstart width)
      have hlen := hsub.length_le
      have hless := h front t [] rfl
      rw [List.filter_cons_of_pos (by simpa using hin), List.filter_nil, List.length_singleton]
      omega
    · rw [List.filter_cons_of_neg (by simpa using hin), List.filter_nil, List.length_nil]
      exact ih hfront hbefore.1

end Workbench.SlidingWindows
