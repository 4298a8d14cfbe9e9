import Workbench.RunStore

namespace Workbench.RunStore

open KeyedTable

variable {P : Type} {t t' : RunTable P}

theorem getByKey_mem {kind key : String} {row : AgentRun P}
    (h : getRunByIdempotencyKey t kind key = some row) :
    row ∈ t.rows ∧ row.kind = kind ∧ row.idempotencyKey = some key ∧ key ≠ "" := by
  unfold getRunByIdempotencyKey at h
  split_ifs at h with hk
  have hmatch := List.find?_some h
  simp only [Bool.and_eq_true, decide_eq_true_eq] at hmatch
  exact ⟨List.mem_of_find?_eq_some h, hmatch.1, hmatch.2, hk⟩

theorem getByKey_none {kind key : String} (hk : key ≠ "")
    (h : getRunByIdempotencyKey t kind key = none) :
    ∀ row ∈ t.rows, row.kind = kind → row.idempotencyKey ≠ some key := by
  intro row hr hkind hkey
  unfold getRunByIdempotencyKey at h
  rw [if_neg hk] at h
  simpa [hkind, hkey] using List.find?_eq_none.mp h row hr

theorem getByKey_insert {row : AgentRun P} (h : insertRow t row = some t') (kind key : String) :
    getRunByIdempotencyKey t' kind key = (getRunByIdempotencyKey t kind key).or
      (if key ≠ "" ∧ row.kind = kind ∧ row.idempotencyKey = some key then some row else none) := by
  unfold insertRow at h
  split_ifs at h
  cases h
  unfold getRunByIdempotencyKey
  by_cases hk : key = ""
  · simp [hk]
  · simp only [hk, if_false, Table.insert, List.find?_append, List.find?_cons, List.find?_nil,
      ne_eq, not_false_eq_true, true_and]
    congr 1
    by_cases hm : row.kind = kind ∧ row.idempotencyKey = some key
    · simp [hm]
    · rw [if_neg hm]
      split
      · rename_i hc
        simp only [Bool.and_eq_true, decide_eq_true_eq] at hc
        exact absurd hc hm
      · rfl

theorem insertRow_mem {row : AgentRun P} (h : insertRow t row = some t') {r : AgentRun P}
    (hr : r ∈ t'.rows) : r ∈ t.rows ∨ r = row := by
  unfold insertRow at h
  split_ifs at h
  cases h
  simpa [Table.insert] using hr

theorem insertRow_isSome {row : AgentRun P} {key : String} (hnone : t.get row.id = none)
    (hk : key ≠ "") (hkey : row.idempotencyKey = some key)
    (hrow : getRunByIdempotencyKey t row.kind key = none) : (insertRow t row).isSome := by
  have hunique : violatesUnique t row = false := by
    simp only [violatesUnique, hkey, Option.isSome_some, Bool.true_and, List.any_eq_false]
    intro r hr
    have hother := getByKey_none hk hrow r hr
    simpa using fun _ => hother
  simp [insertRow, hnone, hunique]

theorem getByKey_upsert_new {runId kind : String} {status : Status} {payload : P}
    {key error : Option String} {now : ℤ} {record : AgentRun P} (hnew : t.get runId = none)
    (h : upsertRun t runId kind status payload key error now = some (t', record))
    (kind' key' : String) :
    getRunByIdempotencyKey t' kind' key' = (getRunByIdempotencyKey t kind' key').or
      (if key' ≠ "" ∧ kind = kind' ∧ key = some key' then some record else none) := by
  simp only [upsertRun, hnew] at h
  obtain ⟨t'', hi, he⟩ := Option.map_eq_some_iff.mp h
  cases he
  exact getByKey_insert hi kind' key'

theorem getByKey_upsert_old {runId kind : String} {status : Status} {payload : P}
    {error : Option String} {now : ℤ} {old record : AgentRun P} (hold : t.get runId = some old)
    (h : upsertRun t runId kind status payload none error now = some (t', record))
    (kind' key' : String) :
    getRunByIdempotencyKey t' kind' key' =
      (getRunByIdempotencyKey t kind' key').map fun r => if r.id = runId then record else r := by
  obtain ⟨t'', hu, _⟩ := upsertRun_existing hold kind status payload error now
  rw [hu] at h
  simp only [upsertRun, hold, Option.none_or, Option.isSome_none, Bool.false_and, Bool.false_eq_true,
    ↓reduceIte] at hu
  cases hu
  cases h
  unfold getRunByIdempotencyKey
  split_ifs
  · rfl
  · have he : ((fun r : AgentRun P => decide (r.kind = kind') && decide (r.idempotencyKey = some key')) ∘
        fun r => if decide (r.id = runId) = true then
          { r with status, payload, error, updatedAt := now } else r) =
        fun r => decide (r.kind = kind') && decide (r.idempotencyKey = some key') := by
      funext r
      by_cases hr : r.id = runId <;> simp [hr]
    simp only [Table.update, List.find?_map]
    rw [he]
    cases hf : t.rows.find? fun r => decide (r.kind = kind') && decide (r.idempotencyKey = some key') with
    | none => rfl
    | some r =>
      have hget := Table.get_of_mem (List.mem_of_find?_eq_some hf)
      by_cases hr : r.id = runId
      · rw [hr, hold] at hget
        cases hget
        simp [hr]
      · simp [hr]

theorem insertRow_unique {row : AgentRun P} {key : String} (h : insertRow t row = some t')
    (hkey : row.idempotencyKey = some key) {k : String} {r : AgentRun P} (hr : t.get k = some r)
    (hkind : r.kind = row.kind) : r.idempotencyKey ≠ some key := by
  intro hrk
  unfold insertRow at h
  split_ifs at h with hnone hv
  apply hv
  simp only [violatesUnique, hkey, Option.isSome_some, Bool.true_and, List.any_eq_true]
  refine ⟨r, Table.mem_of_get hr, ?_⟩
  have hne : r.id ≠ row.id := by
    intro he
    rw [← he, Table.key_of_get hr, hr] at hnone
    cases hnone
  simp [hne, hkind, hrk]

theorem insertRow_conflict {row : AgentRun P} (hnone : t.get row.id = none)
    (h : insertRow t row = none) : ∃ key k r, row.idempotencyKey = some key ∧ t.get k = some r ∧
      r.kind = row.kind ∧ r.idempotencyKey = some key := by
  simp only [insertRow, hnone, dite_true, ite_eq_left_iff, reduceCtorEq, imp_false,
    Bool.not_eq_true, Bool.not_eq_false] at h
  simp only [violatesUnique, Bool.and_eq_true, List.any_eq_true, decide_eq_true_eq] at h
  obtain ⟨hsome, r, hr, ⟨_, hkind⟩, hkey⟩ := h
  obtain ⟨key, hk⟩ := Option.isSome_iff_exists.mp hsome
  exact ⟨key, r.id, r, hk, Table.get_of_mem hr, hkind, hkey.trans hk⟩

end Workbench.RunStore
