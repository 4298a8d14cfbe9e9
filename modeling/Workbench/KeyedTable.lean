import Mathlib.Data.List.Nodup

namespace Workbench.KeyedTable

variable {K R : Type} [DecidableEq K]

structure Table (key : R → K) where
  rows : List R
  unique : (rows.map key).Nodup

namespace Table

variable {key : R → K}

def empty (key : R → K) : Table key := ⟨[], List.nodup_nil⟩

def get (t : Table key) (k : K) : Option R := t.rows.find? fun r => key r = k

/-- `UPDATE … SET f WHERE p`; the primary key is not among the columns set. -/
def update (t : Table key) (p : R → Bool) (f : R → R) (hf : ∀ r, key (f r) = key r) : Table key where
  rows := t.rows.map fun r => if p r then f r else r
  unique := by
    have he : (key ∘ fun r => if p r then f r else r) = key := by
      funext r
      by_cases hp : p r <;> simp [hp, hf]
    rw [List.map_map, he]
    exact t.unique

def rowcount (t : Table key) (p : R → Bool) : ℕ := t.rows.countP p

def insert (t : Table key) (r : R) (h : t.get (key r) = none) : Table key where
  rows := t.rows ++ [r]
  unique := by
    have hk : key r ∉ t.rows.map key := by
      intro hm
      obtain ⟨q, hq, he⟩ := List.mem_map.mp hm
      simpa [he] using List.find?_eq_none.mp h q hq
    rw [List.map_append, List.map_singleton]
    exact List.nodup_append.mpr ⟨t.unique, List.nodup_singleton _, by
      rintro k hmem _ hr rfl
      exact hk (List.mem_singleton.mp hr ▸ hmem)⟩

def put (t : Table key) (r : R) : Table key :=
  match h : t.get (key r) with
  | none => t.insert r h
  | some _ => ⟨t.rows.map fun q => if key q = key r then r else q, by
      have he : (key ∘ fun q => if key q = key r then r else q) = key := by
        funext q
        by_cases hq : key q = key r <;> simp [hq]
      rw [List.map_map, he]
      exact t.unique⟩

def putAll (t : Table key) (rs : List R) : Table key := rs.foldl put t

def drop (t : Table key) (n : ℕ) : Table key where
  rows := t.rows.drop n
  unique := by
    rw [List.map_drop]
    exact t.unique.sublist (List.drop_sublist _ _)

theorem key_of_get {t : Table key} {k : K} {r : R} (h : t.get k = some r) : key r = k := by
  simpa using List.find?_some h

theorem mem_of_get {t : Table key} {k : K} {r : R} (h : t.get k = some r) : r ∈ t.rows :=
  List.mem_of_find?_eq_some h

theorem get_of_mem {t : Table key} {r : R} (h : r ∈ t.rows) : t.get (key r) = some r := by
  obtain ⟨q, hq⟩ : ∃ q, t.get (key r) = some q := by
    cases hf : t.get (key r) with
    | some q => exact ⟨q, rfl⟩
    | none => simpa using List.find?_eq_none.mp hf r h
  have he : q = r := List.inj_on_of_nodup_map t.unique (mem_of_get hq) h (key_of_get hq)
  rw [hq, he]

@[simp] theorem get_empty (k : K) : (empty key).get k = none := rfl

theorem get_update (t : Table key) (p : R → Bool) (f : R → R) (hf : ∀ r, key (f r) = key r) (k : K) :
    (t.update p f hf).get k = (t.get k).map fun r => if p r then f r else r := by
  have he : ((fun r => decide (key r = k)) ∘ fun r => if p r then f r else r) =
      fun r => decide (key r = k) := by
    funext r
    by_cases hp : p r <;> simp [hp, hf]
  rw [get, update, List.find?_map, he]
  rfl

theorem get_insert (t : Table key) (r : R) (h : t.get (key r) = none) (k : K) :
    (t.insert r h).get k = if key r = k then some r else t.get k := by
  simp only [get, insert, List.find?_append, List.find?_cons, List.find?_nil]
  by_cases hk : key r = k
  · subst hk
    simp only [get] at h
    simp [h]
  · simp [hk]

theorem get_put (t : Table key) (r : R) (k : K) :
    (t.put r).get k = if key r = k then some r else t.get k := by
  unfold put
  split
  · rename_i h
    exact get_insert t r h k
  · rename_i old h
    have he : ((fun q => decide (key q = k)) ∘ fun q => if key q = key r then r else q) =
        fun q => decide (key q = k) := by
      funext q
      by_cases hq : key q = key r <;> simp [hq]
    rw [get, List.find?_map, he]
    by_cases hk : key r = k
    · subst hk
      rw [if_pos rfl, show List.find? _ _ = some old from h]
      simp [key_of_get h]
    · rw [if_neg hk]
      change (t.get k).map _ = t.get k
      cases hg : t.get k with
      | none => rfl
      | some q => simp [key_of_get hg, Ne.symm hk]

theorem mem_put {t : Table key} {q r : R} (h : r ∈ (t.put q).rows) : r = q ∨ r ∈ t.rows := by
  have hget := get_of_mem h
  rw [get_put] at hget
  split_ifs at hget with hk
  · exact .inl (Option.some.inj hget).symm
  · exact .inr (mem_of_get hget)

theorem mem_keys {t : Table key} {k : K} : k ∈ t.rows.map key ↔ (t.get k).isSome := by
  constructor
  · intro hk
    obtain ⟨q, hq, rfl⟩ := List.mem_map.mp hk
    rw [get_of_mem hq]
    rfl
  · intro hs
    obtain ⟨q, hq⟩ := Option.isSome_iff_exists.mp hs
    exact List.mem_map.mpr ⟨q, mem_of_get hq, key_of_get hq⟩

theorem mem_keys_put (t : Table key) (r : R) (k : K) :
    k ∈ (t.put r).rows.map key ↔ k = key r ∨ k ∈ t.rows.map key := by
  rw [mem_keys, mem_keys, get_put]
  split_ifs with h
  · simp [h]
  · simp [Ne.symm h]

theorem mem_putAll {t : Table key} {rs : List R} {r : R} (h : r ∈ (t.putAll rs).rows) :
    r ∈ rs ∨ r ∈ t.rows := by
  induction rs generalizing t with
  | nil => exact .inr h
  | cons q rs ih =>
    change r ∈ ((t.put q).putAll rs).rows at h
    rcases ih h with h | h
    · exact .inl (List.mem_cons_of_mem q h)
    · rcases mem_put h with rfl | h
      · exact .inl List.mem_cons_self
      · exact .inr h

theorem get_putAll_of_notMem {t : Table key} {rs : List R} {k : K} (h : k ∉ rs.map key) :
    (t.putAll rs).get k = t.get k := by
  induction rs generalizing t with
  | nil => rfl
  | cons r rs ih =>
    rw [List.map_cons, List.mem_cons, not_or] at h
    change ((t.put r).putAll rs).get k = t.get k
    rw [ih h.2, get_put, if_neg (Ne.symm h.1)]

theorem get_putAll_of_mem {t : Table key} {rs : List R} {r : R} (hrs : (rs.map key).Nodup)
    (h : r ∈ rs) : (t.putAll rs).get (key r) = some r := by
  induction rs generalizing t with
  | nil => cases h
  | cons q rs ih =>
    rw [List.map_cons, List.nodup_cons] at hrs
    change ((t.put q).putAll rs).get (key r) = some r
    rcases List.mem_cons.mp h with rfl | h
    · rw [get_putAll_of_notMem hrs.1, get_put, if_pos rfl]
    · exact ih hrs.2 h

theorem get_drop {t : Table key} {n : ℕ} {k : K} {r : R} (h : (t.drop n).get k = some r) :
    t.get k = some r := by
  obtain rfl := key_of_get h
  exact get_of_mem (List.mem_of_mem_drop (mem_of_get h))

theorem countP_key (rows : List R) (h : (rows.map key).Nodup) (k : K) (q : R → Bool) :
    rows.countP (fun r => key r = k && q r) =
      if (rows.find? fun r => key r = k).any q then 1 else 0 := by
  induction rows with
  | nil => rfl
  | cons r rows ih =>
    simp only [List.map_cons, List.nodup_cons, List.mem_map, not_exists, not_and] at h
    obtain ⟨hr, hrest⟩ := h
    rw [List.countP_cons, List.find?_cons]
    by_cases hk : key r = k
    · have hzero : rows.countP (fun r => key r = k && q r) = 0 := by
        rw [List.countP_eq_zero]
        intro s hs
        simp [hk ▸ hr s hs]
      simp [hk, hzero]
    · simp [hk, ih hrest]

theorem rowcount_key (t : Table key) (k : K) (q : R → Bool) :
    t.rowcount (fun r => key r = k && q r) = if (t.get k).any q then 1 else 0 :=
  countP_key t.rows t.unique k q

end Table

end Workbench.KeyedTable
