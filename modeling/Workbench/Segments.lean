import Mathlib.Algebra.BigOperators.Group.List.Basic
import Mathlib.Algebra.GroupWithZero.Nat
import Mathlib.Algebra.Order.Group.Nat

namespace Workbench.Segments

def start (lens : List ℕ) (i : ℕ) : ℕ := (lens.take i).sum

def locate : List ℕ → ℕ → Option (ℕ × ℕ)
  | [], _ => none
  | len :: lens, n =>
    if n < len then some (0, n) else (locate lens (n - len)).map fun place => (place.1 + 1, place.2)

@[simp] theorem start_zero (lens : List ℕ) : start lens 0 = 0 := rfl

@[simp] theorem start_cons_succ (len : ℕ) (lens : List ℕ) (i : ℕ) :
    start (len :: lens) (i + 1) = len + start lens i := by
  rw [start, List.take_succ_cons, List.sum_cons]
  rfl

variable {lens : List ℕ} {i j r r' : ℕ}

theorem start_add_le (h : i < j) : start lens i + lens.getD i 0 ≤ start lens j := by
  induction lens generalizing i j with
  | nil => simp [start]
  | cons len lens ih =>
    obtain ⟨j, rfl⟩ : ∃ k, j = k + 1 := ⟨j - 1, by omega⟩
    rw [start_cons_succ]
    cases i with
    | zero => simp
    | succ i =>
      have hle := ih (Nat.lt_of_succ_lt_succ h)
      rw [start_cons_succ, List.getD_cons_succ]
      omega

theorem start_add_lt_iff (hr : r < lens.getD i 0) (hr' : r' < lens.getD j 0) :
    start lens i + r < start lens j + r' ↔ i < j ∨ i = j ∧ r < r' := by
  constructor
  · intro h
    by_contra hn
    rcases Nat.lt_trichotomy i j with hlt | rfl | hgt
    · exact hn (.inl hlt)
    · exact hn (.inr ⟨rfl, by omega⟩)
    · have hle : start lens j + lens.getD j 0 ≤ start lens i := start_add_le hgt
      omega
  · rintro (hlt | ⟨rfl, hlt⟩)
    · have hle : start lens i + lens.getD i 0 ≤ start lens j := start_add_le hlt
      omega
    · omega

theorem lt_length (hr : r < lens.getD i 0) : i < lens.length := by
  by_contra hge
  rw [List.getD_eq_getElem?_getD, List.getElem?_eq_none (by omega)] at hr
  exact Nat.not_lt_zero r hr

theorem start_add_lt_sum (hr : r < lens.getD i 0) : start lens i + r < lens.sum := by
  have hle : start lens i + lens.getD i 0 ≤ start lens lens.length := start_add_le (lt_length hr)
  rw [show start lens lens.length = lens.sum from by rw [start, List.take_length]] at hle
  omega

theorem locate_eq_some {n : ℕ} :
    locate lens n = some (i, r) ↔ r < lens.getD i 0 ∧ n = start lens i + r := by
  induction lens generalizing n i with
  | nil => simp [locate]
  | cons len lens ih =>
    unfold locate
    split_ifs with hlt
    · cases i with
      | zero =>
        simp only [Option.some.injEq, Prod.mk.injEq, List.getD_cons_zero, start_zero, true_and]
        omega
      | succ i =>
        simp only [Option.some.injEq, Prod.mk.injEq, start_cons_succ]
        omega
    · cases i with
      | zero =>
        simp only [Option.map_eq_some_iff, Prod.mk.injEq, List.getD_cons_zero, start_zero]
        constructor
        · rintro ⟨place, -, hz, -⟩
          omega
        · omega
      | succ i =>
        rw [List.getD_cons_succ, start_cons_succ]
        have hrest : (locate lens (n - len)).map (fun place => (place.1 + 1, place.2)) =
            some (i + 1, r) ↔ locate lens (n - len) = some (i, r) := by
          simp [Option.map_eq_some_iff, Prod.ext_iff]
        rw [hrest, ih]
        constructor
        · rintro ⟨hr, he⟩
          exact ⟨hr, by omega⟩
        · rintro ⟨hr, he⟩
          exact ⟨hr, by omega⟩

end Workbench.Segments
