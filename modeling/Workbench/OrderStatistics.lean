import Mathlib.Data.List.Sort
import Mathlib.Order.Bounds.Basic
import Mathlib.Tactic.Linarith

namespace Workbench.OrderStatistics

variable {α : Type*} [LinearOrder α]

/-- The smallest element that at least `num / den` of the elements do not exceed. -/
def IsNearestRank (num den : ℕ) (values : List α) (v : α) : Prop :=
  IsLeast {w | w ∈ values ∧ num * values.length ≤ den * values.countP (· ≤ w)} v

theorem isNearestRank_unique {num den : ℕ} {values : List α} {v w : α}
    (hv : IsNearestRank num den values v) (hw : IsNearestRank num den values w) : v = w :=
  IsLeast.unique hv hw

theorem isNearestRank_perm {num den : ℕ} {xs ys : List α} (hperm : xs.Perm ys) {v : α} :
    IsNearestRank num den xs v ↔ IsNearestRank num den ys v := by
  have hset : {w | w ∈ xs ∧ num * xs.length ≤ den * xs.countP (· ≤ w)} =
      {w | w ∈ ys ∧ num * ys.length ≤ den * ys.countP (· ≤ w)} := by
    ext w
    simp only [Set.mem_ofPred_eq, hperm.mem_iff, hperm.length_eq, hperm.countP_eq]
  unfold IsNearestRank
  rw [hset]

theorem countP_eq_zero_of_lt {xs : List α} {v : α} (h : ∀ x ∈ xs, v < x) :
    xs.countP (· ≤ v) = 0 := by
  apply List.countP_eq_zero.mpr
  intro x hx
  simpa using h x hx

theorem lt_countP_iff {xs : List α} (hsorted : xs.Pairwise (· ≤ ·)) (v : α) (i : ℕ)
    (hi : i < xs.length) : i < xs.countP (· ≤ v) ↔ xs[i] ≤ v := by
  induction xs generalizing i with
  | nil => simp at hi
  | cons x xs ih =>
    obtain ⟨hhead, htail⟩ := List.pairwise_cons.mp hsorted
    by_cases hx : x ≤ v
    · have hcount : (x :: xs).countP (· ≤ v) = xs.countP (· ≤ v) + 1 := by
        simp [hx]
      rw [hcount]
      cases i with
      | zero => simpa using hx
      | succ i =>
        have hi' : i < xs.length := by simpa using hi
        have hrest := ih htail i hi'
        simp only [List.getElem_cons_succ]
        rw [← hrest]
        omega
    · have hlt : v < x := not_le.mp hx
      have hcount : (x :: xs).countP (· ≤ v) = 0 := by
        apply countP_eq_zero_of_lt
        intro y hy
        rcases List.mem_cons.mp hy with rfl | hy
        · exact hlt
        · exact hlt.trans_le (hhead y hy)
      rw [hcount]
      constructor
      · intro h
        omega
      · intro h
        have hfirst : x ≤ (x :: xs)[i] := by
          rcases List.mem_cons.mp (List.getElem_mem hi) with he | hmem
          · exact he.ge
          · exact hhead _ hmem
        exact absurd (hfirst.trans h) hx

theorem isNearestRank_getElem {num den : ℕ} {xs : List α} (hsorted : xs.Pairwise (· ≤ ·))
    {i : ℕ} (hi : i < xs.length) (hbelow : den * i < num * xs.length)
    (henough : num * xs.length ≤ den * (i + 1)) : IsNearestRank num den xs xs[i] := by
  constructor
  · refine ⟨List.getElem_mem hi, ?_⟩
    have hcount : i + 1 ≤ xs.countP (· ≤ xs[i]) :=
      (lt_countP_iff hsorted xs[i] i hi).mpr le_rfl
    exact henough.trans (Nat.mul_le_mul_left den hcount)
  · rintro w ⟨_, hshare⟩
    by_contra hlt
    have hcount : xs.countP (· ≤ w) ≤ i := by
      have h := (lt_countP_iff hsorted w i hi).not.mpr hlt
      omega
    have hfew := Nat.mul_le_mul_left den hcount
    omega

end Workbench.OrderStatistics
