import Mathlib.Algebra.Group.Nat.Defs
import Mathlib.Algebra.Order.Floor.Ring
import Mathlib.Data.Int.Log
import Mathlib.Data.Rat.Floor
import Mathlib.Tactic.FieldSimp
import Mathlib.Tactic.Linarith
import Mathlib.Tactic.NormNum
import Mathlib.Tactic.Ring

namespace Workbench.Doubles

/-- A half goes to the even integer. -/
def nearestEven (q : ℚ) : ℤ :=
  if q - ⌊q⌋ < 1 / 2 then ⌊q⌋
  else if 1 / 2 < q - ⌊q⌋ then ⌊q⌋ + 1
  else if ⌊q⌋ % 2 = 0 then ⌊q⌋
  else ⌊q⌋ + 1

def powTwo (e : ℤ) : ℚ :=
  if 0 ≤ e then ((2 ^ e.toNat : ℕ) : ℚ) else 1 / ((2 ^ (-e).toNat : ℕ) : ℚ)

/-- The exponent of the last of the 53 bits, subnormals included. -/
def lastPlace (q : ℚ) : ℤ := max (Int.log 2 |q| - 52) (-1074)

def round64 (q : ℚ) : ℚ := nearestEven (q / powTwo (lastPlace q)) * powTwo (lastPlace q)

def sub (a b : ℚ) : ℚ := round64 (a - b)

theorem le_nearestEven {m : ℤ} {q : ℚ} (h : (m : ℚ) ≤ q) : m ≤ nearestEven q := by
  have hfloor : m ≤ ⌊q⌋ := Int.le_floor.mpr h
  unfold nearestEven
  split_ifs <;> omega

theorem nearestEven_le {m : ℤ} {q : ℚ} (h : q ≤ m) : nearestEven q ≤ m := by
  have hbelow : ((⌊q⌋ : ℤ) : ℚ) ≤ q := Int.floor_le q
  by_cases heq : ⌊q⌋ = m
  · -- the integer itself
    have hq : q = m := le_antisymm h (heq ▸ hbelow)
    unfold nearestEven
    rw [heq, hq, sub_self, if_pos (by norm_num)]
  · have hlt : ⌊q⌋ < m := by
      apply lt_of_le_of_ne _ heq
      exact_mod_cast hbelow.trans h
    unfold nearestEven
    split_ifs <;> omega

theorem lt_nearestEven {m : ℤ} (hm : m % 2 = 0) (q : ℚ) :
    m < nearestEven q ↔ (m : ℚ) + 1 / 2 < q := by
  have hbelow : ((⌊q⌋ : ℤ) : ℚ) ≤ q := Int.floor_le q
  have habove : q < ⌊q⌋ + 1 := Int.lt_floor_add_one q
  rcases lt_trichotomy ⌊q⌋ m with hlt | heq | hgt
  · have hcast : ((⌊q⌋ : ℤ) : ℚ) + 1 ≤ m := by exact_mod_cast hlt
    have hle : nearestEven q ≤ m := nearestEven_le (by linarith)
    exact iff_of_false (by omega) (by linarith)
  · unfold nearestEven
    rw [heq] at hbelow habove ⊢
    split_ifs with hdown hup
    · exact iff_of_false (by omega) (by linarith)
    · exact iff_of_true (by omega) (by linarith)
    · exact iff_of_false (by omega) (by linarith)
  · have hcast : (m : ℚ) + 1 ≤ ⌊q⌋ := by exact_mod_cast hgt
    have hle : ⌊q⌋ ≤ nearestEven q := le_nearestEven hbelow
    exact iff_of_true (by omega) (by linarith)

theorem powTwo_eq (e : ℤ) : powTwo e = (2 : ℚ) ^ e := by
  unfold powTwo
  split_ifs with h
  · obtain ⟨n, rfl⟩ := Int.eq_ofNat_of_zero_le h
    simp
  · obtain ⟨n, hn⟩ := Int.eq_ofNat_of_zero_le (a := -e) (by omega)
    obtain rfl : e = -n := by omega
    simp

theorem powTwo_pos (e : ℤ) : 0 < powTwo e := by
  rw [powTwo_eq]
  exact zpow_pos (by norm_num) e

theorem powTwo_le {d e : ℤ} (h : d ≤ e) : powTwo d ≤ powTwo e := by
  rw [powTwo_eq, powTwo_eq]
  exact zpow_le_zpow_right₀ (by norm_num) h

theorem powTwo_add (d e : ℤ) : powTwo (d + e) = powTwo d * powTwo e := by
  rw [powTwo_eq, powTwo_eq, powTwo_eq, zpow_add₀ (by norm_num)]

theorem powTwo_multiple {u e : ℤ} (h : u ≤ e) : ∃ m : ℤ, powTwo e = m * powTwo u := by
  refine ⟨2 ^ (e - u).toNat, ?_⟩
  have hsplit : e = (e - u) + u := by omega
  have hnonneg : 0 ≤ e - u := by omega
  conv_lhs => rw [hsplit, powTwo_add]
  unfold powTwo
  rw [if_pos hnonneg]
  push_cast
  rfl

theorem round64_le {m : ℤ} {q : ℚ} (h : q ≤ m * powTwo (lastPlace q)) :
    round64 q ≤ m * powTwo (lastPlace q) := by
  have hpos := powTwo_pos (lastPlace q)
  apply mul_le_mul_of_nonneg_right _ hpos.le
  exact_mod_cast nearestEven_le ((div_le_iff₀ hpos).mpr h)

theorem le_round64 {m : ℤ} {q : ℚ} (h : m * powTwo (lastPlace q) ≤ q) :
    m * powTwo (lastPlace q) ≤ round64 q := by
  have hpos := powTwo_pos (lastPlace q)
  apply mul_le_mul_of_nonneg_right _ hpos.le
  exact_mod_cast le_nearestEven ((le_div_iff₀ hpos).mpr h)

theorem lt_round64 {m e : ℤ} (hm : m % 2 = 0) (hlow : 2 ^ 52 ≤ m) (hhigh : m < 2 ^ 53)
    (he : -1074 ≤ e) (q : ℚ) :
    m * powTwo e < round64 q ↔ m * powTwo e + powTwo e / 2 < q := by
  have hpos := powTwo_pos e
  have hlow' : powTwo (52 + e) ≤ m * powTwo e := by
    rw [powTwo_add]
    apply mul_le_mul_of_nonneg_right _ hpos.le
    change ((2 ^ 52 : ℕ) : ℚ) ≤ m
    exact_mod_cast hlow
  have hhigh' : m * powTwo e + powTwo e ≤ powTwo (53 + e) := by
    have hsucc : (m : ℚ) + 1 ≤ ((2 ^ 53 : ℕ) : ℚ) := by exact_mod_cast hhigh
    have hmul := mul_le_mul_of_nonneg_right hsucc hpos.le
    rw [powTwo_add]
    change _ ≤ ((2 ^ 53 : ℕ) : ℚ) * powTwo e
    linarith
  rcases le_or_gt q 0 with hq | hq
  · have hround : round64 q ≤ 0 := by
      have hzero : q ≤ ((0 : ℤ) : ℚ) * powTwo (lastPlace q) := by simpa using hq
      simpa using round64_le hzero
    have hbig := powTwo_pos (52 + e)
    exact iff_of_false (by linarith) (by linarith)
  · have hbase : powTwo (Int.log 2 q) ≤ q := by
      rw [powTwo_eq]
      exact_mod_cast Int.zpow_log_le_self (b := 2) (by norm_num) hq
    have hnext : q < powTwo (Int.log 2 q + 1) := by
      rw [powTwo_eq]
      exact_mod_cast Int.lt_zpow_succ_log_self (b := 2) (by norm_num) q
    have hlast : lastPlace q = max (Int.log 2 q - 52) (-1074) := by
      rw [lastPlace, abs_of_pos hq]
    rcases lt_trichotomy (Int.log 2 q) (52 + e) with hlt | heq | hgt
    · -- below the value's binade
      obtain ⟨n, hn⟩ := powTwo_multiple (u := lastPlace q) (e := 52 + e) (by omega)
      have hle : q ≤ powTwo (52 + e) := hnext.le.trans (powTwo_le (by omega))
      have hround : round64 q ≤ powTwo (52 + e) := by
        rw [hn] at hle ⊢
        exact round64_le hle
      exact iff_of_false (by linarith) (by linarith)
    · have hplace : lastPlace q = e := by omega
      unfold round64
      rw [hplace, mul_lt_mul_iff_of_pos_right hpos, Int.cast_lt, lt_nearestEven hm, lt_div_iff₀ hpos]
      constructor <;> intro h <;> linarith
    · -- above it
      obtain ⟨n, hn⟩ := powTwo_multiple (u := lastPlace q) (e := Int.log 2 q) (by omega)
      have hle : powTwo (53 + e) ≤ powTwo (Int.log 2 q) := powTwo_le (by omega)
      have hround : powTwo (Int.log 2 q) ≤ round64 q := by
        rw [hn] at hbase ⊢
        exact le_round64 hbase
      exact iff_of_true (by linarith) (by linarith)

end Workbench.Doubles
