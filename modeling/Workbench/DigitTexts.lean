import Mathlib.Data.List.Forall2
import Mathlib.Algebra.Group.Nat.Defs
import Mathlib.Algebra.GroupWithZero.Nat
import Mathlib.Algebra.Order.Group.Nat

namespace Workbench.DigitTexts

section Lists

variable {α : Type}

theorem append_lt_append_iff [LT α] {xs ys : List α} (h : xs.length = ys.length)
    (xs' ys' : List α) : xs ++ xs' < ys ++ ys' ↔ xs < ys ∨ xs = ys ∧ xs' < ys' := by
  induction xs generalizing ys with
  | nil =>
    obtain rfl := List.eq_nil_of_length_eq_zero h.symm
    simp
  | cons x xs ih =>
    cases ys with
    | nil => cases h
    | cons y ys =>
      simp only [List.cons_append, List.cons_lt_cons_iff, ih (Nat.succ.inj h), List.cons.injEq]
      constructor
      · rintro (hlt | ⟨he, hlt | ⟨ht, hlt⟩⟩)
        · exact .inl (.inl hlt)
        · exact .inl (.inr ⟨he, hlt⟩)
        · exact .inr ⟨⟨he, ht⟩, hlt⟩
      · rintro ((hlt | ⟨he, hlt⟩) | ⟨⟨he, ht⟩, hlt⟩)
        · exact .inl hlt
        · exact .inr ⟨he, .inl hlt⟩
        · exact .inr ⟨he, .inr ⟨ht, hlt⟩⟩

end Lists

theorem digitChar_lt_iff {i j : ℕ} (hi : i < 10) (hj : j < 10) :
    Nat.digitChar i < Nat.digitChar j ↔ i < j := by
  rw [Char.lt_def, UInt32.lt_iff_toNat_lt]
  change (Nat.digitChar i).toNat < (Nat.digitChar j).toNat ↔ _
  rw [Nat.toNat_digitChar_of_lt_ten hi, Nat.toNat_digitChar_of_lt_ten hj]
  omega

theorem digitChar_eq_iff {i j : ℕ} (hi : i < 10) (hj : j < 10) :
    Nat.digitChar i = Nat.digitChar j ↔ i = j := by
  rw [← Char.toNat_inj, Nat.toNat_digitChar_of_lt_ten hi, Nat.toNat_digitChar_of_lt_ten hj]
  omega

/-- The last `width` decimal digits of `n`, which are all of it, zero-padded, if it has no more. -/
def digits : ℕ → ℕ → List Char
  | 0, _ => []
  | width + 1, n => digits width (n / 10) ++ [Nat.digitChar (n % 10)]

theorem length_digits (width n : ℕ) : (digits width n).length = width := by
  induction width generalizing n with
  | zero => rfl
  | succ width ih => rw [digits, List.length_append, ih, List.length_singleton]

theorem length_digits_eq (width m n : ℕ) : (digits width m).length = (digits width n).length := by
  rw [length_digits, length_digits]

theorem digits_inj {width m n : ℕ} (hm : m < 10 ^ width) (hn : n < 10 ^ width)
    (h : digits width m = digits width n) : m = n := by
  induction width generalizing m n with
  | zero =>
    rw [Nat.pow_zero] at hm hn
    omega
  | succ width ih =>
    rw [Nat.pow_succ] at hm hn
    obtain ⟨hhigh, hlow⟩ := List.append_inj h (length_digits_eq width _ _)
    have hdiv : m / 10 = n / 10 := ih (by omega) (by omega) hhigh
    have hmod : m % 10 = n % 10 :=
      (digitChar_eq_iff (by omega) (by omega)).mp (List.singleton_inj.mp hlow)
    omega

theorem digits_lt_iff {width m n : ℕ} (hm : m < 10 ^ width) (hn : n < 10 ^ width) :
    digits width m < digits width n ↔ m < n := by
  induction width generalizing m n with
  | zero =>
    rw [Nat.pow_zero] at hm hn
    simp only [digits, List.not_lt_nil, false_iff]
    omega
  | succ width ih =>
    rw [Nat.pow_succ] at hm hn
    have hm' : m / 10 < 10 ^ width := by omega
    have hn' : n / 10 < 10 ^ width := by omega
    have hlow : [Nat.digitChar (m % 10)] < [Nat.digitChar (n % 10)] ↔ m % 10 < n % 10 := by
      simp only [List.cons_lt_cons_iff, List.not_lt_nil, and_false, or_false]
      exact digitChar_lt_iff (by omega) (by omega)
    rw [digits, digits, append_lt_append_iff (length_digits_eq width _ _), ih hm' hn', hlow]
    constructor
    · rintro (hlt | ⟨he, hlt⟩)
      · omega
      · have hdiv := digits_inj hm' hn' he
        omega
    · intro hlt
      by_cases he : m / 10 = n / 10
      · exact .inr ⟨by rw [he], by omega⟩
      · exact .inl (by omega)

theorem toDigits_eq_digits {width n : ℕ} (hle : 10 ^ width ≤ n) (hlt : n < 10 ^ (width + 1)) :
    Nat.toDigits 10 n = digits (width + 1) n := by
  induction width generalizing n with
  | zero =>
    rw [Nat.pow_succ, Nat.pow_zero, Nat.one_mul] at hlt
    rw [Nat.toDigits_of_lt_base hlt]
    change _ = [Nat.digitChar (n % 10)]
    rw [Nat.mod_eq_of_lt hlt]
  | succ width ih =>
    rw [Nat.pow_succ] at hle hlt
    have hpos : 0 < 10 ^ width := Nat.pow_pos (by omega)
    rw [Nat.toDigits_of_base_le (by omega) (by omega), ih (by omega) (by omega)]
    rfl

def render : List (ℕ × Char) → List ℕ → List Char
  | (width, mark) :: fields, n :: ns => digits width n ++ mark :: render fields ns
  | _, _ => []

def Fits : List (ℕ × Char) → List ℕ → Prop := List.Forall₂ fun field n => n < 10 ^ field.1

theorem length_render {fields : List (ℕ × Char)} {ns : List ℕ} (h : Fits fields ns) :
    (render fields ns).length = (fields.map fun field => field.1 + 1).sum := by
  induction h with
  | nil => rfl
  | cons _ _ ih =>
    rw [render, List.length_append, length_digits, List.length_cons, ih, List.map_cons,
      List.sum_cons]
    omega

theorem render_lt_iff {fields : List (ℕ × Char)} {ms ns : List ℕ} (hm : Fits fields ms)
    (hn : Fits fields ns) : render fields ms < render fields ns ↔ ms < ns := by
  induction hm generalizing ns with
  | nil =>
    cases hn
    simp only [render, List.not_lt_nil]
  | @cons field m fields ms hfield _ ih =>
    cases hn with
    | @cons _ n _ ns hfield' hrest' =>
      rw [render, render, append_lt_append_iff (length_digits_eq field.1 m n),
        digits_lt_iff hfield hfield', List.cons_lt_cons_iff, List.cons_lt_cons_iff, ih hrest']
      constructor
      · rintro (hlt | ⟨he, hlt | ⟨-, hlt⟩⟩)
        · exact .inl hlt
        · exact absurd hlt (Char.lt_irrefl field.2)
        · exact .inr ⟨digits_inj hfield hfield' he, hlt⟩
      · rintro (hlt | ⟨rfl, hlt⟩)
        · exact .inl hlt
        · exact .inr ⟨rfl, .inr ⟨rfl, hlt⟩⟩

end Workbench.DigitTexts
