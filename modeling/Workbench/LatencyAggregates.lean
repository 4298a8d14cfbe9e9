import Workbench.OrderStatistics
import Mathlib.Algebra.Order.Floor.Ring
import Mathlib.Data.List.GetD
import Mathlib.Data.Rat.Floor
import Mathlib.Tactic.FieldSimp
import Mathlib.Tactic.NormNum
import Mathlib.Tactic.Ring

namespace Workbench.Observability

open OrderStatistics

def sorted (values : List ℕ) : List ℕ := values.insertionSort (· ≤ ·)

def p95 (values : List ℕ) : ℕ :=
  if values = [] then 0
  else
    let ordered := sorted values
    let idx := min ((ordered.length : ℤ) - 1) (⌈(95 / 100 : ℚ) * ordered.length⌉ - 1)
    ordered.getD idx.toNat 0

/-- Python's `int` of a fraction, towards zero. -/
def int (q : ℚ) : ℤ := if 0 ≤ q then ⌊q⌋ else ⌈q⌉

/-- `percentile_cont` of the SQL standard: linear interpolation between the two rows around
`fraction * (N - 1)`; null on no rows. -/
def percentileCont (fraction : ℚ) (values : List ℕ) : Option ℚ :=
  let rows := sorted values
  if rows = [] then none
  else
    let row := fraction * ((rows.length : ℚ) - 1)
    let below : ℚ := rows.getD ⌊row⌋.toNat 0
    let above : ℚ := rows.getD ⌈row⌉.toNat 0
    some (below + (row - ⌊row⌋) * (above - below))

def aggregatesP95 (values : List ℕ) : ℤ :=
  match percentileCont (95 / 100) values with
  | some p => int p
  | none => 0

/-- Python's `round`: to the nearest integer, a half to the even one. -/
def round (q : ℚ) : ℤ :=
  if q - ⌊q⌋ < 1 / 2 then ⌊q⌋
  else if 1 / 2 < q - ⌊q⌋ then ⌊q⌋ + 1
  else if ⌊q⌋ % 2 = 0 then ⌊q⌋
  else ⌊q⌋ + 1

def percentile (sortedVals : List ℕ) (pct : ℚ) : ℕ :=
  if sortedVals = [] then 0
  else
    let rank := max 1 (round (pct / 100 * sortedVals.length))
    sortedVals.getD (min rank sortedVals.length - 1).toNat 0

theorem sorted_length (values : List ℕ) : (sorted values).length = values.length :=
  List.length_insertionSort _ values

theorem sorted_perm (values : List ℕ) : (sorted values).Perm values :=
  List.perm_insertionSort _ values

theorem sorted_pairwise (values : List ℕ) : (sorted values).Pairwise (· ≤ ·) :=
  List.pairwise_insertionSort _ values

theorem sorted_eq_nil {values : List ℕ} : sorted values = [] ↔ values = [] := by
  rw [← List.length_eq_zero_iff, sorted_length, List.length_eq_zero_iff]

theorem sorted_getD_mono {values : List ℕ} {i j : ℕ} (hij : i ≤ j) (hj : j < values.length) :
    (sorted values).getD i 0 ≤ (sorted values).getD j 0 := by
  have hj' : j < (sorted values).length := by rwa [sorted_length]
  have hi' : i < (sorted values).length := by omega
  rw [List.getD_eq_getElem _ 0 hi', List.getD_eq_getElem _ 0 hj']
  rcases Nat.lt_or_eq_of_le hij with hlt | rfl
  · exact List.pairwise_iff_getElem.mp (sorted_pairwise values) i j hi' hj' hlt
  · exact le_rfl

def nearestIndex (n : ℕ) : ℕ := (19 * n + 19) / 20 - 1

theorem nearestIndex_lt {n : ℕ} (hn : 0 < n) : nearestIndex n < n := by
  unfold nearestIndex
  omega

theorem isNearestRank_nearestIndex {values : List ℕ} (hne : values ≠ []) :
    IsNearestRank 95 100 values ((sorted values).getD (nearestIndex values.length) 0) := by
  have hpos : 0 < values.length := List.length_pos_iff.mpr hne
  have hlt : nearestIndex values.length < (sorted values).length := by
    rw [sorted_length]
    exact nearestIndex_lt hpos
  rw [List.getD_eq_getElem _ 0 hlt, ← isNearestRank_perm (sorted_perm values)]
  apply isNearestRank_getElem (sorted_pairwise values) hlt
  · rw [sorted_length]
    unfold nearestIndex
    omega
  · rw [sorted_length]
    unfold nearestIndex
    omega

theorem ceil_share (n : ℕ) : ⌈(95 / 100 : ℚ) * n⌉ = ((19 * n + 19) / 20 : ℕ) := by
  have hlow : 19 * n ≤ 20 * ((19 * n + 19) / 20) := by omega
  have hhigh : 20 * ((19 * n + 19) / 20) ≤ 19 * n + 19 := by omega
  generalize (19 * n + 19) / 20 = k at hlow hhigh ⊢
  have hlow' : (19 : ℚ) * n ≤ 20 * k := by exact_mod_cast hlow
  have hhigh' : (20 : ℚ) * k ≤ 19 * n + 19 := by exact_mod_cast hhigh
  rw [Int.ceil_eq_iff]
  constructor
  · push_cast
    linarith
  · push_cast
    linarith

theorem floor_share (n : ℕ) : ⌊(95 / 100 : ℚ) * n⌋ = (19 * n / 20 : ℕ) := by
  have hlow : 20 * (19 * n / 20) ≤ 19 * n := by omega
  have hhigh : 19 * n ≤ 20 * (19 * n / 20) + 19 := by omega
  generalize 19 * n / 20 = k at hlow hhigh ⊢
  have hlow' : (20 : ℚ) * k ≤ 19 * n := by exact_mod_cast hlow
  have hhigh' : (19 : ℚ) * n ≤ 20 * k + 19 := by exact_mod_cast hhigh
  rw [Int.floor_eq_iff]
  constructor
  · push_cast
    linarith
  · push_cast
    linarith

theorem p95_eq {values : List ℕ} (hne : values ≠ []) :
    p95 values = (sorted values).getD (nearestIndex values.length) 0 := by
  have hpos : 0 < values.length := List.length_pos_iff.mpr hne
  have hidx : (min ((values.length : ℤ) - 1) (((19 * values.length + 19) / 20 : ℕ) - 1)).toNat =
      nearestIndex values.length := by
    unfold nearestIndex
    omega
  simp only [p95, if_neg hne, sorted_length, ceil_share, hidx]

theorem aggregatesP95_eq {values : List ℕ} (hne : values ≠ []) {below above rest : ℕ}
    (hbelow : below = (sorted values).getD (19 * (values.length - 1) / 20) 0)
    (habove : above = (sorted values).getD ((19 * (values.length - 1) + 19) / 20) 0)
    (hrest : rest = 19 * (values.length - 1) % 20) :
    aggregatesP95 values = ((below + rest * (above - below) / 20 : ℕ) : ℤ) := by
  have hpos : 0 < values.length := List.length_pos_iff.mpr hne
  have hrow : ((values.length : ℚ) - 1) = ((values.length - 1 : ℕ) : ℚ) := by
    push_cast [hpos]
    ring
  have hle : below ≤ above := by
    rw [hbelow, habove]
    apply sorted_getD_mono
    · omega
    · omega
  have hfrac : (95 / 100 : ℚ) * (values.length - 1 : ℕ) - ((19 * (values.length - 1) / 20 : ℕ) : ℤ)
      = rest / 20 := by
    have hsum : 19 * (values.length - 1) = 20 * (19 * (values.length - 1) / 20) + rest := by omega
    have hsum' : (19 : ℚ) * (values.length - 1 : ℕ) =
        20 * (19 * (values.length - 1) / 20 : ℕ) + rest := by exact_mod_cast hsum
    rw [Int.cast_natCast]
    linarith
  simp only [aggregatesP95, percentileCont, sorted_eq_nil, if_neg hne, sorted_length, hrow,
    floor_share, ceil_share, hfrac, Int.toNat_natCast, ← hbelow, ← habove]
  have hvalue : (below : ℚ) + rest / 20 * (above - below) =
      below + ((rest * (above - below) : ℕ) : ℚ) / 20 := by
    push_cast [hle]
    ring
  have hfloor : ⌊((rest * (above - below) : ℕ) : ℚ) / 20⌋ =
      ((rest * (above - below) / 20 : ℕ) : ℤ) := by
    have h := Rat.floor_natCast_div_natCast (rest * (above - below)) 20
    exact_mod_cast h
  rw [hvalue]
  unfold int
  rw [if_pos (by positivity)]
  rw [Int.floor_natCast_add, hfloor]
  push_cast
  rfl

theorem share_rest (n : ℕ) : (19 * n + 19) / 20 = 19 * (n / 20) + n % 20 ∧
    19 * n / 20 = 19 * (n / 20) + (n % 20 - 1) ∧ 19 * n % 20 = (20 - n % 20) % 20 := by
  have hsplit : n = 20 * (n / 20) + n % 20 := by omega
  have hlt : n % 20 < 20 := Nat.mod_lt n (by omega)
  generalize n / 20 = q at hsplit ⊢
  generalize n % 20 = r at hsplit hlt ⊢
  subst hsplit
  cases r with
  | zero => omega
  | succ r =>
    have hup : 19 * (20 * q + (r + 1)) + 19 = 20 * (19 * q + (r + 1)) + (18 - r) := by omega
    have hdown : 19 * (20 * q + (r + 1)) = 20 * (19 * q + r) + (19 - r) := by omega
    rw [hup, hdown]
    refine ⟨?_, ?_, ?_⟩
    · rw [Nat.mul_add_div (by omega), Nat.div_eq_of_lt (by omega), Nat.add_zero]
    · rw [Nat.mul_add_div (by omega), Nat.div_eq_of_lt (by omega), Nat.add_zero, Nat.add_sub_cancel]
    · rw [Nat.mul_add_mod, Nat.mod_eq_of_lt (by omega), Nat.mod_eq_of_lt (by omega)]
      omega

theorem round_share (n : ℕ) : round (95 / 100 * n) =
    if n % 20 < 10 ∨ (n % 20 = 10 ∧ n / 20 % 2 = 0) then ((19 * n + 19) / 20 : ℕ)
    else ((19 * n + 19) / 20 - 1 : ℕ) := by
  have hsum : 19 * n = 20 * (19 * n / 20) + 19 * n % 20 := by omega
  have hsum' : (19 : ℚ) * n = 20 * (19 * n / 20 : ℕ) + (19 * n % 20 : ℕ) := by exact_mod_cast hsum
  have hfrac : (95 / 100 : ℚ) * n - ((19 * n / 20 : ℕ) : ℤ) = (19 * n % 20 : ℕ) / 20 := by
    rw [Int.cast_natCast]
    linarith
  have hlow : ((19 * n % 20 : ℕ) : ℚ) / 20 < 1 / 2 ↔ 19 * n % 20 < 10 := by
    rw [div_lt_iff₀ (by norm_num)]
    norm_num
  have hhigh : 1 / 2 < ((19 * n % 20 : ℕ) : ℚ) / 20 ↔ 10 < 19 * n % 20 := by
    rw [lt_div_iff₀ (by norm_num)]
    norm_num
  have hr : n % 20 < 20 := Nat.mod_lt n (by omega)
  obtain ⟨hup, hdown, hrem⟩ := share_rest n
  simp only [round, floor_share, hfrac, hlow, hhigh]
  clear hsum hsum' hfrac hlow hhigh
  rw [hup, hdown, hrem]
  generalize n / 20 = q
  generalize n % 20 = r at hr ⊢
  cases r with
  | zero => simp
  | succ r =>
    rw [Nat.mod_eq_of_lt (by omega)]
    split_ifs <;> omega

def benchIndex (n : ℕ) : ℕ :=
  if n % 20 < 10 ∨ (n % 20 = 10 ∧ n / 20 % 2 = 0) then nearestIndex n else nearestIndex n - 1

theorem percentile_eq {values : List ℕ} (hne : values ≠ []) :
    percentile (sorted values) 95 = (sorted values).getD (benchIndex values.length) 0 := by
  have hpos : 0 < values.length := List.length_pos_iff.mpr hne
  have hround : (min (max 1 (round (95 / 100 * values.length))) (values.length : ℤ) - 1).toNat =
      benchIndex values.length := by
    rw [round_share]
    unfold benchIndex nearestIndex
    split_ifs <;> omega
  simp only [percentile, sorted_eq_nil, if_neg hne, sorted_length, hround]

/-- `n % 20 = 1` always; `n % 20 = 0` when the next latency is less than 20 ms up; else when the
latency one rank down is the same. -/
def RanksMeet (values : List ℕ) : Prop :=
  let ordered := sorted values
  let k := nearestIndex values.length
  if values.length % 20 = 1 then True
  else if values.length % 20 = 0 then ordered.getD (k + 1) 0 - ordered.getD k 0 < 20
  else ordered.getD (k - 1) 0 = ordered.getD k 0

theorem share_lt {r d : ℕ} (hpos : 0 < r) (hlt : r < 20) :
    r * d / 20 = d ↔ d = 0 := by
  constructor
  · intro h
    by_contra hd
    have hsmall : r * d ≤ 19 * d := Nat.mul_le_mul_right d (by omega)
    omega
  · rintro rfl
    simp

theorem values_agree_iff {values : List ℕ} (hne : values ≠ []) :
    (aggregatesP95 values = (sorted values).getD (nearestIndex values.length) 0 ∧
      percentile (sorted values) 95 = (sorted values).getD (nearestIndex values.length) 0) ↔
    RanksMeet values := by
  have hpos : 0 < values.length := List.length_pos_iff.mpr hne
  have hwhole := share_rest values.length
  have hrest := share_rest (values.length - 1)
  rw [aggregatesP95_eq hne rfl rfl rfl, percentile_eq hne, Int.natCast_inj]
  unfold RanksMeet
  by_cases hone : values.length % 20 = 1
  · have hbelow : 19 * (values.length - 1) / 20 = nearestIndex values.length := by
      unfold nearestIndex
      omega
    have hzero : 19 * (values.length - 1) % 20 = 0 := by omega
    have hbench : benchIndex values.length = nearestIndex values.length := by
      unfold benchIndex
      rw [if_pos (Or.inl (by omega))]
    simp [hone, hbelow, hzero, hbench]
  by_cases hfull : values.length % 20 = 0
  · have hbelow : 19 * (values.length - 1) / 20 = nearestIndex values.length := by
      unfold nearestIndex
      omega
    have habove : (19 * (values.length - 1) + 19) / 20 = nearestIndex values.length + 1 := by
      unfold nearestIndex
      omega
    have hunit : 19 * (values.length - 1) % 20 = 1 := by omega
    have hbench : benchIndex values.length = nearestIndex values.length := by
      unfold benchIndex
      rw [if_pos (Or.inl (by omega))]
    simp only [hfull, hbelow, habove, hunit, hbench, and_true, one_mul, if_true, zero_ne_one,
      if_false]
    omega
  · have hbelow : 19 * (values.length - 1) / 20 = nearestIndex values.length - 1 := by
      unfold nearestIndex
      omega
    have habove : (19 * (values.length - 1) + 19) / 20 = nearestIndex values.length := by
      unfold nearestIndex
      omega
    have hle : (sorted values).getD (nearestIndex values.length - 1) 0 ≤
        (sorted values).getD (nearestIndex values.length) 0 :=
      sorted_getD_mono (Nat.sub_le _ _) (nearestIndex_lt hpos)
    have hbench : (sorted values).getD (nearestIndex values.length - 1) 0 =
        (sorted values).getD (nearestIndex values.length) 0 →
        (sorted values).getD (benchIndex values.length) 0 =
        (sorted values).getD (nearestIndex values.length) 0 := by
      intro he
      unfold benchIndex
      split_ifs
      · rfl
      · exact he
    have hpart := share_lt (r := 19 * (values.length - 1) % 20)
      (d := (sorted values).getD (nearestIndex values.length) 0 -
        (sorted values).getD (nearestIndex values.length - 1) 0) (by omega) (by omega)
    rw [if_neg hone, if_neg hfull, hbelow, habove]
    constructor
    · rintro ⟨he, -⟩
      omega
    · intro he
      refine ⟨?_, hbench he⟩
      omega

theorem p95_one_meaning_iff (values : List ℕ) (hne : values ≠ []) :
    (∃ v, IsNearestRank 95 100 values v ∧ p95 values = v ∧ aggregatesP95 values = v ∧
      percentile (sorted values) 95 = v) ↔ RanksMeet values := by
  rw [← values_agree_iff hne]
  constructor
  · rintro ⟨v, hv, -, hagg, hbench⟩
    have he := isNearestRank_unique (isNearestRank_nearestIndex hne) hv
    rw [he]
    exact ⟨hagg, hbench⟩
  · rintro ⟨hagg, hbench⟩
    exact ⟨_, isNearestRank_nearestIndex hne, p95_eq hne, hagg, hbench⟩

-- forty latencies, 100 to 217 ms, out of order
def loadLatencies : List ℕ := (List.range 40).map fun i => 100 + 3 * (7 * i % 40)

theorem p95_one_meaning_load : loadLatencies ≠ [] ∧ loadLatencies.Nodup ∧
    ∃ v, IsNearestRank 95 100 loadLatencies v ∧ p95 loadLatencies = v ∧
      aggregatesP95 loadLatencies = v ∧ percentile (sorted loadLatencies) 95 = v := by
  have hne : loadLatencies ≠ [] := by decide
  refine ⟨hne, by decide +kernel, ?_⟩
  apply (p95_one_meaning_iff loadLatencies hne).mpr
  have hlen : loadLatencies.length = 40 := rfl
  unfold RanksMeet
  rw [hlen]
  decide +kernel

/-- Eleven latencies: 110 by `_p95`, 60 by interpolation, 10 by the benchmark. -/
theorem p95_meanings_differ : ¬ ∀ values : List ℕ, values ≠ [] →
    ∃ v, IsNearestRank 95 100 values v ∧ p95 values = v ∧ aggregatesP95 values = v ∧
      percentile (sorted values) 95 = v := by
  intro h
  obtain ⟨v, -, hp95, -, hbench⟩ := h [0, 0, 0, 0, 0, 0, 0, 0, 0, 10, 110] (by decide)
  have h95 : p95 [0, 0, 0, 0, 0, 0, 0, 0, 0, 10, 110] = 110 := by
    rw [p95_eq (by decide)]
    decide
  have h10 : percentile (sorted [0, 0, 0, 0, 0, 0, 0, 0, 0, 10, 110]) 95 = 10 := by
    rw [percentile_eq (by decide)]
    decide
  omega

end Workbench.Observability
