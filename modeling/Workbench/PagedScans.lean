import Mathlib.Data.List.Perm.Subperm
import Mathlib.Order.Lattice

namespace Workbench.PagedScans

variable {K R : Type} [LinearOrder K] {key : R → K}

def Ahead (key : R → K) (cursor : Option K) (r : R) : Prop := ∀ k ∈ cursor, k ≤ key r

def IsPage (key : R → K) (rows : List R) (limit : ℕ) (cursor : Option K)
    (page : List R × Option K) : Prop :=
  ∃ rest : List R, (∀ r, r ∈ rest ↔ r ∈ rows ∧ Ahead key cursor r) ∧
    rest.Pairwise (fun a b => key a < key b) ∧ page = (rest.take limit, rest[limit]?.map key)

/-- `cursor` is `none` once the last page is in. -/
structure Scan (K R : Type) where
  collected : List R
  cursor : Option (Option K)
  pages : ℕ

def Scan.start : Scan K R := ⟨[], some none, 0⟩

def Scan.take (s : Scan K R) (page : List R × Option K) : Scan K R :=
  ⟨s.collected ++ page.1, page.2.map some, s.pages + 1⟩

def Behind : Option (Option K) → K → Prop
  | none, _ => True
  | some none, _ => False
  | some (some cursor), k => k < cursor

structure Scanned (key : R → K) (limit : ℕ) (initial : List K) (s : Scan K R) : Prop where
  sorted : s.collected.Pairwise fun a b => key a < key b
  behind : ∀ r ∈ s.collected, Behind s.cursor (key r)
  complete : ∀ k ∈ initial, Behind s.cursor k → k ∈ s.collected.map key
  full : ∀ c, s.cursor = some c → s.collected.length = limit * s.pages
  ended : s.cursor = none → limit * (s.pages - 1) ≤ s.collected.length

theorem scanned_start (limit : ℕ) (initial : List K) : Scanned key limit initial Scan.start where
  sorted := List.Pairwise.nil
  behind _ h := by cases h
  complete _ _ h := h.elim
  full _ _ := rfl
  ended h := by cases h

section Pages

variable {rows : List R} {limit : ℕ} {cursor : Option K} {page : List R × Option K}

theorem behind_ahead {c k : K} {r : R} (h : Behind (some cursor) k) (hr : Ahead key cursor r)
    (hk : k = c) : c < key r := by
  cases cursor with
  | none => exact h.elim
  | some d =>
    subst hk
    exact lt_of_lt_of_le h (hr d rfl)

theorem ahead_of_not_behind {r : R} (h : ¬ Behind (some cursor) (key r)) : Ahead key cursor r := by
  intro k hk
  obtain rfl := Option.mem_def.mp hk
  exact not_lt.mp h

theorem IsPage.mem (h : IsPage key rows limit cursor page) {r : R} (hr : r ∈ page.1) :
    r ∈ rows ∧ Ahead key cursor r := by
  obtain ⟨rest, hmem, -, rfl⟩ := h
  exact (hmem r).mp (List.mem_of_mem_take hr)

theorem IsPage.sorted (h : IsPage key rows limit cursor page) :
    page.1.Pairwise fun a b => key a < key b := by
  obtain ⟨rest, -, hsorted, rfl⟩ := h
  exact hsorted.sublist (List.take_sublist _ _)

theorem IsPage.behind (h : IsPage key rows limit cursor page) {r : R} (hr : r ∈ page.1) :
    Behind (page.2.map some) (key r) := by
  obtain ⟨rest, -, hsorted, rfl⟩ := h
  cases hnext : rest[limit]? with
  | none => trivial
  | some q =>
    obtain ⟨hlimit, rfl⟩ := List.getElem?_eq_some_iff.mp hnext
    obtain ⟨i, hi, rfl⟩ := List.mem_iff_getElem.mp hr
    rw [List.length_take] at hi
    rw [List.getElem_take]
    exact List.pairwise_iff_getElem.mp hsorted i limit (by omega) hlimit (by omega)

theorem IsPage.next (h : IsPage key rows limit cursor page) {k : K} (hk : Behind (some cursor) k) :
    Behind (page.2.map some) k := by
  obtain ⟨rest, hmem, -, rfl⟩ := h
  cases hnext : rest[limit]? with
  | none => trivial
  | some q => exact behind_ahead hk ((hmem q).mp (List.mem_of_getElem? hnext)).2 rfl

theorem IsPage.complete (h : IsPage key rows limit cursor page) {r : R} (hr : r ∈ rows)
    (ha : Ahead key cursor r) (hb : Behind (page.2.map some) (key r)) : r ∈ page.1 := by
  obtain ⟨rest, hmem, hsorted, rfl⟩ := h
  obtain ⟨i, hi, rfl⟩ := List.mem_iff_getElem.mp ((hmem r).mpr ⟨hr, ha⟩)
  apply List.mem_take_iff_getElem.mpr
  refine ⟨i, ?_, rfl⟩
  apply Nat.lt_min.mpr
  refine ⟨?_, hi⟩
  by_contra hlimit
  have hle : limit ≤ i := Nat.le_of_not_lt hlimit
  have hlt : limit < rest.length := Nat.lt_of_le_of_lt hle hi
  have hnext : rest[limit]? = some rest[limit] := List.getElem?_eq_getElem hlt
  simp only [hnext] at hb
  have hbefore : key rest[i] < key rest[limit] := hb
  rcases Nat.eq_or_lt_of_le hle with rfl | hlt'
  · exact lt_irrefl _ hbefore
  · exact lt_asymm hbefore (List.pairwise_iff_getElem.mp hsorted limit i hlt hi hlt')

theorem IsPage.full (h : IsPage key rows limit cursor page) {c : K} (hc : page.2 = some c) :
    page.1.length = limit := by
  obtain ⟨rest, -, -, rfl⟩ := h
  obtain ⟨q, hq, -⟩ := Option.map_eq_some_iff.mp hc
  obtain ⟨hlimit, -⟩ := List.getElem?_eq_some_iff.mp hq
  rw [List.length_take]
  omega

theorem Scanned.take {initial : List K} {s : Scan K R} (h : Scanned key limit initial s)
    (hc : s.cursor = some cursor) (hp : IsPage key rows limit cursor page)
    (hkeys : ∀ k ∈ initial, k ∈ rows.map key) : Scanned key limit initial (s.take page) where
  sorted := by
    apply List.pairwise_append.mpr
    refine ⟨h.sorted, hp.sorted, ?_⟩
    intro a ha b hb
    have hbehind := h.behind a ha
    rw [hc] at hbehind
    exact behind_ahead hbehind (hp.mem hb).2 rfl
  behind := by
    intro r hr
    rcases List.mem_append.mp hr with hr | hr
    · have hbehind := h.behind r hr
      rw [hc] at hbehind
      exact hp.next hbehind
    · exact hp.behind hr
  complete := by
    intro k hk hb
    rw [Scan.take, List.map_append, List.mem_append]
    by_cases hold : Behind s.cursor k
    · exact .inl (h.complete k hk hold)
    · obtain ⟨r, hr, rfl⟩ := List.mem_map.mp (hkeys k hk)
      rw [hc] at hold
      exact .inr (List.mem_map_of_mem (hp.complete hr (ahead_of_not_behind hold) hb))
  full := by
    intro c hnext
    obtain ⟨k, hk, -⟩ := Option.map_eq_some_iff.mp hnext
    rw [Scan.take, List.length_append, h.full cursor hc, hp.full hk, Nat.mul_succ]
  ended := by
    intro _
    rw [Scan.take, List.length_append, h.full cursor hc]
    exact Nat.le_add_right _ _

end Pages

section Ended

variable {limit : ℕ} {initial : List K} {s : Scan K R}

theorem Scanned.keys_nodup (h : Scanned key limit initial s) :
    List.Nodup (s.collected.map key) := by
  rw [List.nodup_iff_pairwise_ne, List.pairwise_map]
  exact h.sorted.imp fun hlt => ne_of_lt hlt

theorem Scanned.mem_keys (h : Scanned key limit initial s) (hend : s.cursor = none) {k : K}
    (hk : k ∈ initial) : k ∈ s.collected.map key := by
  apply h.complete k hk
  rw [hend]
  trivial

theorem Scanned.pages_le (h : Scanned key limit initial s) {rows : List R}
    (hmem : ∀ r ∈ s.collected, key r ∈ rows.map key) : limit * (s.pages - 1) ≤ rows.length := by
  have hle : s.collected.length ≤ rows.length := by
    have hkeys (rs : List R) : (rs.map key).length = rs.length := List.length_map _
    rw [← hkeys, ← hkeys rows]
    apply (h.keys_nodup.subperm ?_).length_le
    intro k hk
    obtain ⟨r, hr, rfl⟩ := List.mem_map.mp hk
    exact hmem r hr
  cases hc : s.cursor with
  | none => exact Nat.le_trans (h.ended hc) hle
  | some c =>
    have hfull := h.full c hc
    have hmono : limit * (s.pages - 1) ≤ limit * s.pages := Nat.mul_le_mul_left limit (Nat.sub_le _ _)
    omega

end Ended

end Workbench.PagedScans
