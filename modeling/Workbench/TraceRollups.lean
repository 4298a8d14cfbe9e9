import Workbench.TraceStore
import Mathlib.Algebra.BigOperators.Group.List.Lemmas
import Mathlib.Algebra.Order.BigOperators.Group.List

namespace Workbench.Observability

open KeyedTable Tallies

variable {A J K : Type} [DecidableEq K]

theorem added_ones (key : Trace A J → K) (rows : List (Trace A J)) (k : K) :
    added (rows.map fun t => (key t, 1)) k = rows.countP fun t => key t = k := by
  induction rows with
  | nil => rfl
  | cons t rows ih =>
    rw [List.map_cons, added_cons, ih, List.countP_cons, Nat.add_comm]
    congr 1
    by_cases h : key t = k
    · simp [h]
    · simp [h]

theorem amount_groupCounts (key : Trace A J → K) (rows : List (Trace A J)) (k : K) :
    amount (groupCounts key rows) k = rows.countP fun t => key t = k := by
  unfold groupCounts
  rw [amount_foldl, added_ones]
  exact Nat.zero_add _

theorem mem_groupCounts_keys (key : Trace A J → K) (rows : List (Trace A J)) (k : K) :
    k ∈ (groupCounts key rows).rows.map Prod.fst ↔ k ∈ rows.map key := by
  unfold groupCounts
  rw [mem_foldl_keys, List.map_map]
  constructor
  · rintro (h | h)
    · exact h
    · cases h
  · intro h
    exact .inl h

theorem mem_groupCounts {key : Trace A J → K} {rows : List (Trace A J)} {e : K × ℕ}
    (h : e ∈ (groupCounts key rows).rows) :
    e.1 ∈ rows.map key ∧ e.2 = rows.countP fun t => key t = e.1 := by
  constructor
  · exact (mem_groupCounts_keys key rows e.1).mp (List.mem_map_of_mem h)
  · rw [← amount_groupCounts, amount_of_mem h]

theorem groupCounts_sum (key : Trace A J → K) (rows : List (Trace A J)) :
    ((groupCounts key rows).rows.map Prod.snd).sum = rows.length := by
  have hcounts : (groupCounts key rows).rows.map Prod.snd =
      ((groupCounts key rows).rows.map Prod.fst).map fun k => (rows.map key).count k := by
    rw [List.map_map]
    apply List.map_congr_left
    intro e he
    rw [(mem_groupCounts he).2, Function.comp_apply, List.count, List.countP_map]
    rfl
  have hkeys : ((groupCounts key rows).rows.map Prod.fst).Perm (rows.map key).dedup := by
    rw [List.perm_ext_iff_of_nodup (groupCounts key rows).unique (List.nodup_dedup _)]
    intro k
    rw [mem_groupCounts_keys, List.mem_dedup]
  rw [hcounts, (hkeys.map _).sum_eq, List.sum_map_count_dedup_eq_length, List.length_map]

def failed (rows : List (Trace A J)) : List (Trace A J) := rows.filter fun t => !isSuccess t

theorem mem_failed {rows : List (Trace A J)} {t : Trace A J} :
    t ∈ failed rows ↔ t ∈ rows ∧ t.status ∉ successStatuses := by
  simp [failed, isSuccess]

theorem length_failed (rows : List (Trace A J)) :
    (failed rows).length + rows.countP isSuccess = rows.length := by
  rw [List.countP_eq_length_filter, Nat.add_comm]
  simpa [failed, List.countP_eq_length_filter] using
    (List.length_eq_countP_add_countP isSuccess (l := rows)).symm

abbrev failureCounts (rows : List (Trace A J)) : Tally (String × String) ℕ :=
  groupCounts (fun t => (t.kind, t.status)) (failed rows)

def bucketOf (e : (String × String) × ℕ) : FailureBucket := ⟨e.1.1, e.1.2, e.2⟩

theorem failures_perm (rows : List (Trace A J)) :
    (aggregates rows).failures.Perm ((failureCounts rows).rows.map bucketOf) :=
  (List.mergeSort_perm _ _).map _

theorem countP_failed (rows : List (Trace A J)) {kind status : String} (h : status ∉ successStatuses) :
    ((failed rows).countP fun t => (t.kind, t.status) = (kind, status)) =
      rows.countP fun t => t.kind = kind ∧ t.status = status := by
  rw [failed, List.countP_filter]
  apply List.countP_congr
  intro t _
  simp only [Prod.mk.injEq, Bool.decide_and, Bool.and_eq_true, decide_eq_true_eq]
  constructor
  · intro ht
    exact ht.1
  · intro ht
    refine ⟨ht, ?_⟩
    rw [isSuccess, ht.2]
    simpa using h

theorem failures_buckets (rows : List (Trace A J)) :
    ∀ b ∈ (aggregates rows).failures, 0 < b.count ∧ b.status ∉ successStatuses ∧
      b.count = rows.countP fun t => t.kind = b.kind ∧ t.status = b.status := by
  intro b hb
  obtain ⟨e, he, rfl⟩ := List.mem_map.mp ((failures_perm rows).mem_iff.mp hb)
  obtain ⟨hkey, hcount⟩ := mem_groupCounts he
  obtain ⟨t, ht, htkey⟩ := List.mem_map.mp hkey
  have hstatus : e.1.2 ∉ successStatuses := by
    rw [← htkey]
    exact (mem_failed.mp ht).2
  refine ⟨?_, hstatus, ?_⟩
  · change 0 < e.2
    rw [hcount, List.countP_pos_iff]
    exact ⟨t, ht, by simpa using htkey⟩
  · change e.2 = _
    rw [hcount]
    exact countP_failed rows hstatus

theorem failures_sum (rows : List (Trace A J)) :
    ((aggregates rows).failures.map FailureBucket.count).sum + rows.countP isSuccess = rows.length := by
  rw [((failures_perm rows).map _).sum_eq, List.map_map]
  have h : ((failureCounts rows).rows.map Prod.snd).sum = (failed rows).length := groupCounts_sum _ _
  have hs := length_failed rows
  change (((failureCounts rows).rows.map Prod.snd).sum + _ = _)
  omega

theorem failures_eq_nil (rows : List (Trace A J)) :
    (aggregates rows).failures = [] ↔ rows.countP isSuccess = rows.length := by
  have hsum := failures_sum rows
  constructor
  · intro h
    rw [h] at hsum
    simpa using hsum
  · intro h
    apply List.eq_nil_iff_forall_not_mem.mpr
    intro b hb
    have hpos := (failures_buckets rows b hb).1
    have hle := List.le_sum_of_mem (List.mem_map_of_mem (f := FailureBucket.count) hb)
    omega

def returned : List (Option (Option String)) → ℕ := List.countP fun r => (r.bind id).isSome

def raised : List (Option (Option String)) → ℕ := List.countP fun r => r.isNone

/-- What a run of `record_trace` may add to a store: each record that returned an id is one row, one
that raised is a row or none, and an unfinished run is never one. -/
structure Grown (before after : Store A J) (results : List (Option (Option String))) : Prop where
  atLeast : before.rows.length + returned results ≤ after.rows.length
  atMost : after.rows.length ≤ before.rows.length + returned results + raised results
  terminal : ∀ t ∈ after.rows, t ∈ before.rows ∨ t.status ∉ nonTerminalStatuses

theorem Grown.refl (store : Store A J) {results : List (Option (Option String))}
    (h : returned results = 0) : Grown store store results where
  atLeast := by omega
  atMost := by omega
  terminal _ ht := .inl ht

theorem Grown.trans {s t u : Store A J} {xs ys : List (Option (Option String))} (h : Grown s t xs)
    (h' : Grown t u ys) : Grown s u (xs ++ ys) where
  atLeast := by
    have := h.atLeast
    have := h'.atLeast
    simp only [returned, List.countP_append] at *
    omega
  atMost := by
    have := h.atMost
    have := h'.atMost
    simp only [returned, raised, List.countP_append] at *
    omega
  terminal := by
    intro t ht
    rcases h'.terminal t ht with hm | hn
    · exact h.terminal t hm
    · exact .inr hn

end Workbench.Observability
