import Workbench.DigitTexts
import Workbench.Segments
import Mathlib.Data.List.Lex

namespace Workbench.Timestamps

open DigitTexts Segments

def isLeap (year : ℕ) : Bool := year % 4 = 0 && (year % 100 ≠ 0 || year % 400 = 0)

def monthLengths (year : ℕ) : List ℕ :=
  [31, if isLeap year then 29 else 28, 31, 30, 31, 30, 31, 31, 30, 31, 30, 31]

def yearLengths : List ℕ := (List.range 9999).map fun i => (monthLengths (i + 1)).sum

/-- A `datetime.datetime` with `tzinfo=datetime.UTC`. -/
structure DateTime where
  year : ℕ
  month : ℕ
  day : ℕ
  hour : ℕ
  minute : ℕ
  second : ℕ
  microsecond : ℕ
  year_mem : 1 ≤ year ∧ year ≤ 9999
  month_mem : 1 ≤ month ∧ month ≤ 12
  day_mem : 1 ≤ day ∧ day ≤ (monthLengths year).getD (month - 1) 0
  hour_lt : hour < 24
  minute_lt : minute < 60
  second_lt : second < 60
  microsecond_lt : microsecond < 1000000
  deriving DecidableEq

theorem getD_yearLengths {i : ℕ} (h : i < 9999) :
    yearLengths.getD i 0 = (monthLengths (i + 1)).sum := by
  rw [List.getD_eq_getElem?_getD, yearLengths, List.getElem?_map, List.getElem?_range h]
  rfl

theorem length_yearLengths : yearLengths.length = 9999 := by
  rw [yearLengths, List.length_map, List.length_range]

theorem monthLength_le (year i : ℕ) : (monthLengths year).getD i 0 ≤ 31 := by
  have hfebruary : (if isLeap year then 29 else 28) ≤ 31 := by
    split_ifs
    · omega
    · omega
  have hall : ∀ len ∈ monthLengths year, len ≤ 31 := by
    intro len hlen
    simp only [monthLengths, List.mem_cons, List.not_mem_nil, or_false] at hlen
    omega
  rw [List.getD_eq_getElem?_getD]
  cases hi : (monthLengths year)[i]? with
  | none => exact Nat.zero_le 31
  | some len => exact hall len (List.mem_of_getElem? hi)

namespace DateTime

def days (d : DateTime) : ℕ :=
  start yearLengths (d.year - 1) + (start (monthLengths d.year) (d.month - 1) + (d.day - 1))

def instant (d : DateTime) : ℕ :=
  (((d.days * 24 + d.hour) * 60 + d.minute) * 60 + d.second) * 1000000 + d.microsecond

def date (d : DateTime) : List ℕ := [d.year, d.month, d.day]

def time (d : DateTime) : List ℕ := [d.hour, d.minute, d.second, d.microsecond]

theorem ext_date_time {a b : DateTime} (hd : a.date = b.date) (ht : a.time = b.time) : a = b := by
  cases a
  cases b
  simp only [date, List.cons.injEq, and_true] at hd
  simp only [time, List.cons.injEq, and_true] at ht
  obtain ⟨rfl, rfl, rfl⟩ := hd
  obtain ⟨rfl, rfl, rfl, rfl⟩ := ht
  rfl

theorem day_lt (d : DateTime) : d.day - 1 < (monthLengths d.year).getD (d.month - 1) 0 := by
  have h := d.day_mem
  omega

theorem place_lt (d : DateTime) : start (monthLengths d.year) (d.month - 1) + (d.day - 1) <
    yearLengths.getD (d.year - 1) 0 := by
  have h := d.year_mem
  rw [getD_yearLengths (by omega), Nat.sub_add_cancel h.1]
  exact start_add_lt_sum d.day_lt

theorem days_lt_iff (a b : DateTime) : a.days < b.days ↔ a.date < b.date := by
  have hya := a.year_mem
  have hyb := b.year_mem
  have hma := a.month_mem
  have hmb := b.month_mem
  have hda := a.day_mem
  have hdb := b.day_mem
  unfold days date
  rw [start_add_lt_iff a.place_lt b.place_lt]
  simp only [List.cons_lt_cons_iff, List.not_lt_nil, and_false, or_false]
  by_cases he : a.year = b.year
  · have hday := a.day_lt
    rw [he] at hday
    rw [he, start_add_lt_iff hday b.day_lt]
    omega
  · omega

theorem days_eq {a b : DateTime} (h : a.date = b.date) : a.days = b.days := by
  simp only [date, List.cons.injEq, and_true] at h
  obtain ⟨hy, hm, hd⟩ := h
  rw [days, days, hy, hm, hd]

theorem instant_lt {a b : DateTime} (h : a.date ++ a.time < b.date ++ b.time) :
    a.instant < b.instant := by
  have ha := a.hour_lt
  have hb := b.hour_lt
  have hma := a.minute_lt
  have hmb := b.minute_lt
  have hsa := a.second_lt
  have hsb := b.second_lt
  have hua := a.microsecond_lt
  have hub := b.microsecond_lt
  have hlen : a.date.length = b.date.length := rfl
  unfold instant
  rcases (append_lt_append_iff hlen a.time b.time).mp h with hd | ⟨hd, ht⟩
  · have hdays := (days_lt_iff a b).mpr hd
    omega
  · have hdays := days_eq hd
    simp only [time, List.cons_lt_cons_iff, List.not_lt_nil, and_false, or_false] at ht
    omega

theorem before_same_after (a b : DateTime) :
    a.date ++ a.time < b.date ++ b.time ∨ a = b ∨ b.date ++ b.time < a.date ++ a.time := by
  rcases lt_trichotomy (a.date ++ a.time) (b.date ++ b.time) with hlt | he | hgt
  · exact .inl hlt
  · obtain ⟨hd, ht⟩ := List.append_inj he rfl
    exact .inr (.inl (ext_date_time hd ht))
  · exact .inr (.inr hgt)

theorem instant_lt_iff (a b : DateTime) :
    a.instant < b.instant ↔ a.date ++ a.time < b.date ++ b.time := by
  refine ⟨fun h => ?_, instant_lt⟩
  rcases before_same_after a b with hlt | rfl | hgt
  · exact hlt
  · exact absurd h (lt_irrefl _)
  · exact absurd h (instant_lt hgt).asymm

theorem instant_inj {a b : DateTime} (h : a.instant = b.instant) : a = b := by
  rcases before_same_after a b with hlt | he | hgt
  · exact absurd h (instant_lt hlt).ne
  · exact he
  · exact absurd h (instant_lt hgt).ne'

/-- The datetime at an instant; `none` is past `MAXYEAR`. -/
def ofInstant (t : ℕ) : Option DateTime :=
  match hy : locate yearLengths (t / 86400000000) with
  | none => none
  | some (y, place) =>
    match hm : locate (monthLengths (y + 1)) place with
    | none => none
    | some (m, day) => some {
        year := y + 1
        month := m + 1
        day := day + 1
        hour := t / 3600000000 % 24
        minute := t / 60000000 % 60
        second := t / 1000000 % 60
        microsecond := t % 1000000
        year_mem := ⟨Nat.le_add_left 1 y, (lt_length (locate_eq_some.mp hy).1).trans_eq
          length_yearLengths⟩
        month_mem := ⟨Nat.le_add_left 1 m, lt_length (locate_eq_some.mp hm).1⟩
        day_mem := ⟨Nat.le_add_left 1 day, (locate_eq_some.mp hm).1⟩
        hour_lt := Nat.mod_lt _ (Nat.succ_pos 23)
        minute_lt := Nat.mod_lt _ (Nat.succ_pos 59)
        second_lt := Nat.mod_lt _ (Nat.succ_pos 59)
        microsecond_lt := Nat.mod_lt _ (Nat.succ_pos 999999) }

theorem instant_of_ofInstant {t : ℕ} {d : DateTime} (h : ofInstant t = some d) : d.instant = t := by
  unfold ofInstant at h
  split at h
  · cases h
  · rename_i y place hy
    split at h
    · cases h
    · rename_i m day hm
      cases h
      have hyear := (locate_eq_some.mp hy).2
      have hmonth := (locate_eq_some.mp hm).2
      simp only [instant, days, Nat.add_sub_cancel]
      rw [← hmonth, ← hyear]
      omega

theorem days_of_instant (d : DateTime) : d.instant / 86400000000 = d.days := by
  have hh := d.hour_lt
  have hm := d.minute_lt
  have hs := d.second_lt
  have hu := d.microsecond_lt
  unfold instant
  omega

theorem ofInstant_none {t : ℕ} (h : ofInstant t = none) :
    locate yearLengths (t / 86400000000) = none ∨ ∃ y place,
      locate yearLengths (t / 86400000000) = some (y, place) ∧
        locate (monthLengths (y + 1)) place = none := by
  unfold ofInstant at h
  split at h
  · rename_i hy
    exact .inl hy
  · rename_i y place hy
    split at h
    · rename_i hm
      exact .inr ⟨y, place, hy, hm⟩
    · cases h

theorem ofInstant_instant (d : DateTime) : ofInstant d.instant = some d := by
  have hy : locate yearLengths (d.instant / 86400000000) =
      some (d.year - 1, start (monthLengths d.year) (d.month - 1) + (d.day - 1)) :=
    locate_eq_some.mpr ⟨d.place_lt, d.days_of_instant⟩
  have hm : locate (monthLengths (d.year - 1 + 1))
      (start (monthLengths d.year) (d.month - 1) + (d.day - 1)) = some (d.month - 1, d.day - 1) := by
    rw [Nat.sub_add_cancel d.year_mem.1]
    exact locate_eq_some.mpr ⟨d.day_lt, rfl⟩
  cases h : ofInstant d.instant with
  | none =>
    rcases ofInstant_none h with hnone | ⟨y, place, hsome, hnone⟩
    · rw [hy] at hnone
      cases hnone
    · obtain ⟨rfl, rfl⟩ := Prod.mk.inj (Option.some.inj (hy.symm.trans hsome))
      rw [hm] at hnone
      cases hnone
  | some e => rw [instant_inj (instant_of_ofInstant h)]

/-- `d - timedelta`, given in microseconds; `none` is an `OverflowError`. -/
def minus (d : DateTime) (delta : ℤ) : Option DateTime :=
  match (d.instant : ℤ) - delta with
  | .ofNat t => ofInstant t
  | .negSucc _ => none

theorem minus_eq_some {d e : DateTime} {delta : ℤ} :
    d.minus delta = some e ↔ (e.instant : ℤ) = d.instant - delta := by
  unfold minus
  constructor
  · intro h
    split at h
    · rename_i t ht
      rw [ht, instant_of_ofInstant h]
      rfl
    · cases h
  · intro h
    split
    · rename_i t ht
      rw [← h, Int.ofNat_eq_natCast, Int.natCast_inj] at ht
      rw [← ht, ofInstant_instant]
    · rename_i t ht
      rw [← h] at ht
      cases ht

inductive Directive
  | Y
  | m
  | d
  | H
  | M
  | S
  | f

/-- `%Y` does not pad years of fewer than four digits. -/
def strftime (t : DateTime) : Directive → List Char
  | .Y => Nat.toDigits 10 t.year
  | .m => digits 2 t.month
  | .d => digits 2 t.day
  | .H => digits 2 t.hour
  | .M => digits 2 t.minute
  | .S => digits 2 t.second
  | .f => digits 6 t.microsecond

end DateTime

def tsFormat : List (DateTime.Directive × Char) :=
  [(.Y, '-'), (.m, '-'), (.d, 'T'), (.H, ':'), (.M, ':'), (.S, '.'), (.f, 'Z')]

def fmt (t : DateTime) : String :=
  String.ofList (tsFormat.flatMap fun (directive, mark) => t.strftime directive ++ [mark])

def DateTime.FourDigits (t : DateTime) : Prop := 1000 ≤ t.year

def tsFields : List (ℕ × Char) :=
  [(4, '-'), (2, '-'), (2, 'T'), (2, ':'), (2, ':'), (2, '.'), (6, 'Z')]

theorem toList_fmt {t : DateTime} (h : t.FourDigits) :
    (fmt t).toList = render tsFields (t.date ++ t.time) := by
  have hyear : Nat.toDigits 10 t.year = digits 4 t.year :=
    toDigits_eq_digits h (Nat.lt_succ_of_le t.year_mem.2)
  rw [fmt, String.toList_ofList]
  simp only [tsFormat, List.flatMap_cons, List.flatMap_nil, DateTime.strftime, hyear, DateTime.date,
    DateTime.time, tsFields, render, List.cons_append, List.nil_append, List.append_assoc]

theorem fits_tsFields (t : DateTime) : Fits tsFields (t.date ++ t.time) := by
  have hy := t.year_mem
  have hm := t.month_mem
  have hd := t.day_mem
  have hday := monthLength_le t.year (t.month - 1)
  have hh := t.hour_lt
  have hmin := t.minute_lt
  have hs := t.second_lt
  have hu := t.microsecond_lt
  repeat' apply List.Forall₂.cons
  · change t.year < 10 ^ 4
    omega
  · change t.month < 10 ^ 2
    omega
  · change t.day < 10 ^ 2
    omega
  · change t.hour < 10 ^ 2
    omega
  · change t.minute < 10 ^ 2
    omega
  · change t.second < 10 ^ 2
    omega
  · exact hu
  · exact .nil

theorem length_fmt {t : DateTime} (h : t.FourDigits) : (fmt t).length = 27 := by
  rw [← String.length_toList, toList_fmt h, length_render (fits_tsFields t)]
  rfl

theorem fmt_lt_iff {a b : DateTime} (ha : a.FourDigits) (hb : b.FourDigits) :
    fmt a < fmt b ↔ a.instant < b.instant := by
  rw [String.lt_iff, toList_fmt ha, toList_fmt hb,
    render_lt_iff (fits_tsFields a) (fits_tsFields b), a.instant_lt_iff b]

theorem fmt_inj {a b : DateTime} (ha : a.FourDigits) (hb : b.FourDigits) (h : fmt a = fmt b) :
    a = b := by
  rcases a.before_same_after b with hlt | he | hgt
  · have hfmt := (fmt_lt_iff ha hb).mpr (DateTime.instant_lt hlt)
    rw [h] at hfmt
    exact absurd hfmt (String.lt_irrefl (fmt b))
  · exact he
  · have hfmt := (fmt_lt_iff hb ha).mpr (DateTime.instant_lt hgt)
    rw [h] at hfmt
    exact absurd hfmt (String.lt_irrefl (fmt b))

end Workbench.Timestamps
