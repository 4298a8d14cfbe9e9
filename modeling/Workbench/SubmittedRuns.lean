import Workbench.RunSubmits
import Workbench.Transitions

namespace Workbench.RunSubmits

open KeyedTable RunStore RunLease JobQueue Transitions

variable {C R : Type}

def Pc.own : Pc → Option String
  | .enqueuing runId => some runId
  | .returned handle true => some handle.runId
  | _ => none

def Keyed (s : State C R) (key : Option String) (runId : String) : Prop :=
  ∃ row, s.store.get runId = some row ∧ row.kind = autonomousKind ∧ row.idempotencyKey = key

def Informed (s : State C R) (t : Submit) : Prop :=
  match t.pc with
  | .looking => ∃ k, k ≠ "" ∧ t.key = some k
  | .creating runId => hexId runId = true ∧ s.store.get runId = none
  | .lost runId => hexId runId = true ∧ s.store.get runId = none ∧
      ∃ k id, t.key = some k ∧ Keyed s (some k) id
  | .fetching runId => hexId runId = true ∧ s.store.get runId = none ∧
      t.key = some "" ∧ ∃ id, Keyed s (some "") id
  | .enqueuing runId => hexId runId = true ∧ Keyed s t.key runId
  | .returned handle true => Keyed s t.key handle.runId
  | .returned handle false => ∃ k, k ≠ "" ∧ t.key = some k ∧ Keyed s (some k) handle.runId
  | .raised => t.key = some "" ∧ ∃ id, Keyed s (some "") id

structure Deduplicated (s : State C R) : Prop where
  owner : ∀ id row, s.store.get id = some row → row.kind = autonomousKind →
    ∃ c t, s.submits c = some t ∧ t.pc.own = some id ∧ t.key = row.idempotencyKey
  once : ∀ c c' t t' id, s.submits c = some t → s.submits c' = some t' → t.pc.own = some id →
    t'.pc.own = some id → c = c'
  drawn : ∀ c c' t t' id, s.submits c = some t → s.submits c' = some t' → t.pc.drawn = some id →
    t'.pc.drawn = some id → c = c'
  informed : ∀ c t, s.submits c = some t → Informed s t
  unique : ∀ id id' key, Keyed s (some key) id → Keyed s (some key) id' → id = id'
  jobs : (s.jobs.map Job.runId).Nodup
  enqueued : ∀ id, id ∈ s.jobs.map Job.runId ↔
    ∃ c t handle, s.submits c = some t ∧ t.pc = .returned handle true ∧ handle.runId = id

structure Idempotent (s : State C R) : Prop where
  answered : ∀ c t, s.submits c = some t → ∃ handle fresh, t.pc = .returned handle fresh
  alike : ∀ c c' t t' handle handle' fresh fresh', c ≠ c' → s.submits c = some t →
    s.submits c' = some t' → t.pc = .returned handle fresh → t'.pc = .returned handle' fresh' →
      (handle.runId = handle'.runId ↔ ∃ k, k ≠ "" ∧ t.key = some k ∧ t'.key = some k)
  once : (s.jobs.map Job.runId).Nodup
  enqueued : ∀ id, id ∈ s.jobs.map Job.runId ↔
    ∃ c t handle fresh, s.submits c = some t ∧ t.pc = .returned handle fresh ∧ handle.runId = id

def Settled (s : State C R) : Prop := ∀ c t, s.submits c = some t → t.pc.Ended

def OneEmptyKey (s : State C R) : Prop :=
  ∀ c c' t t', s.submits c = some t → s.submits c' = some t' → t.key = some "" → t'.key = some "" →
    c = c'

theorem Keyed.grow {s s' : State C R} (hget : ∀ k row, s.store.get k = some row →
    s'.store.get k = some row) {key : Option String} {runId : String} (h : Keyed s key runId) :
    Keyed s' key runId := by
  obtain ⟨row, hr, hkind, hkey⟩ := h
  exact ⟨row, hget _ _ hr, hkind, hkey⟩

theorem Informed.grow {s s' : State C R} {t : Submit} (h : Informed s t)
    (hget : ∀ k row, s.store.get k = some row → s'.store.get k = some row)
    (hnew : ∀ id, t.pc.drawn = some id → s'.store.get id = none) : Informed s' t := by
  obtain ⟨goal, key, pc⟩ := t
  cases pc with
  | looking => exact h
  | creating runId => exact ⟨h.1, hnew runId rfl⟩
  | lost runId =>
    obtain ⟨hid, _, k, id, hk, hrow⟩ := h
    exact ⟨hid, hnew runId rfl, k, id, hk, hrow.grow hget⟩
  | fetching runId =>
    obtain ⟨hid, _, hk, id, hrow⟩ := h
    exact ⟨hid, hnew runId rfl, hk, id, hrow.grow hget⟩
  | enqueuing runId => exact ⟨h.1, h.2.grow hget⟩
  | returned handle fresh =>
    cases fresh with
    | true => exact Keyed.grow hget h
    | false =>
      obtain ⟨k, hne, hk, hrow⟩ := h
      exact ⟨k, hne, hk, hrow.grow hget⟩
  | raised =>
    obtain ⟨hk, id, hrow⟩ := h
    exact ⟨hk, id, hrow.grow hget⟩

theorem Informed.drawn {s : State C R} {t : Submit} (h : Informed s t) {id : String}
    (hd : t.pc.drawn = some id) : hexId id = true ∧ s.store.get id = none := by
  obtain ⟨goal, key, pc⟩ := t
  cases pc <;> simp only [Pc.drawn, Option.some.injEq, reduceCtorEq] at hd <;> subst hd
  · exact h
  · exact ⟨h.1, h.2.1⟩
  · exact ⟨h.1, h.2.1⟩

theorem Informed.own {s : State C R} {t : Submit} (h : Informed s t) {id : String}
    (ho : t.pc.own = some id) : Keyed s t.key id := by
  obtain ⟨goal, key, pc⟩ := t
  cases pc with
  | enqueuing runId => cases ho; exact h.2
  | returned handle fresh => cases fresh <;> cases ho; exact h
  | _ => cases ho

theorem Keyed.found {s : State C R} {k id : String} (h : Keyed s (some k) id)
    (hnone : getRunByIdempotencyKey s.store autonomousKind k = none) : k = "" := by
  by_contra hne
  obtain ⟨row, hr, hkind, hkey⟩ := h
  exact getByKey_none hne hnone row (Table.mem_of_get hr) hkind hkey

theorem keyed_of_found {s : State C R} {k : String} {row : AgentRun (AutonomousPayload R)}
    (h : getRunByIdempotencyKey s.store autonomousKind k = some row) :
    k ≠ "" ∧ Keyed s (some k) row.id := by
  obtain ⟨hmem, hkind, hkey, hne⟩ := getByKey_mem h
  exact ⟨hne, row, Table.get_of_mem hmem, hkind, hkey⟩

section Steps

variable [DecidableEq C] {s : State C R} {c : C}

theorem submits_set (s : State C R) (c c' : C) (t : Submit) (pc : Pc) :
    (s.set c t pc).submits c' = if c' = c then some { t with pc } else s.submits c' := by
  simp [State.set, Function.update_apply]

theorem submits_set_of_ne {c' : C} (t : Submit) (pc : Pc) (hne : c' ≠ c) :
    (s.set c t pc).submits c' = s.submits c' := by
  rw [submits_set, if_neg hne]

theorem submits_set_cases {c' : C} {t u : Submit} {pc : Pc} (hu : (s.set c t pc).submits c' = some u) :
    c' = c ∧ u = { t with pc } ∨ c' ≠ c ∧ s.submits c' = some u :=
  update_some_eq_some hu

theorem Deduplicated.moves (h : Deduplicated s) {t : Submit} {pc : Pc}
    (hold : ∀ u, s.submits c = some u → u.pc.own = none) (hown : pc.own = none)
    (hinf : Informed s { t with pc })
    (hdrawn : ∀ id, pc.drawn = some id → ∀ c' u, c' ≠ c → s.submits c' = some u →
      u.pc.drawn ≠ some id) : Deduplicated (s.set c t pc) := by
  have hkeep : ∀ {c' u id}, s.submits c' = some u → u.pc.own = some id →
      (s.set c t pc).submits c' = some u := by
    intro c' u id hu ho
    have hne : c' ≠ c := by
      rintro rfl
      rw [hold u hu] at ho
      cases ho
    rw [submits_set_of_ne t pc hne, hu]
  constructor
  · intro id row hr hkind
    obtain ⟨c', u, hu, ho, hk⟩ := h.owner id row hr hkind
    exact ⟨c', u, hkeep hu ho, ho, hk⟩
  · intro c₁ c₂ t₁ t₂ id h₁ h₂ ho₁ ho₂
    rcases submits_set_cases h₁ with ⟨_, rfl⟩ | ⟨_, hs₁⟩
    · exact absurd ho₁ (by simp [hown])
    · rcases submits_set_cases h₂ with ⟨_, rfl⟩ | ⟨_, hs₂⟩
      · exact absurd ho₂ (by simp [hown])
      · exact h.once c₁ c₂ t₁ t₂ id hs₁ hs₂ ho₁ ho₂
  · intro c₁ c₂ t₁ t₂ id h₁ h₂ hd₁ hd₂
    rcases submits_set_cases h₁ with ⟨he₁, rfl⟩ | ⟨hne₁, hs₁⟩ <;> rcases submits_set_cases h₂ with ⟨he₂, rfl⟩ | ⟨hne₂, hs₂⟩
    · exact he₁.trans he₂.symm
    · exact absurd hd₂ (hdrawn id hd₁ c₂ t₂ hne₂ hs₂)
    · exact absurd hd₁ (hdrawn id hd₂ c₁ t₁ hne₁ hs₁)
    · exact h.drawn c₁ c₂ t₁ t₂ id hs₁ hs₂ hd₁ hd₂
  · intro c' u hu
    rcases submits_set_cases hu with ⟨_, rfl⟩ | ⟨_, hs⟩
    · exact hinf
    · exact h.informed c' u hs
  · exact h.unique
  · exact h.jobs
  · intro id
    apply (h.enqueued id).trans
    constructor
    · rintro ⟨c', u, handle, hu, hp, hid⟩
      exact ⟨c', u, handle, hkeep hu (by rw [hp]; rfl), hp, hid⟩
    · rintro ⟨c', u, handle, hu, hp, hid⟩
      rcases submits_set_cases hu with ⟨_, rfl⟩ | ⟨_, hs⟩
      · rw [show pc = .returned handle true from hp] at hown
        cases hown
      · exact ⟨c', u, handle, hs, hp, hid⟩

omit [DecidableEq C] in
theorem Deduplicated.keepsDrawn (h : Deduplicated s) {t : Submit} (hc : s.submits c = some t)
    {id : String} (hd : t.pc.drawn = some id) (c' : C) (u : Submit) (hne : c' ≠ c)
    (hu : s.submits c' = some u) : u.pc.drawn ≠ some id :=
  fun hd' => hne (h.drawn c' c u t id hu hc hd' hd)

omit [DecidableEq C] in
theorem keyed_insert {s' : State C R} {t : Submit} {now : ℤ} {runId id : String} {key : Option String}
    (hi : insertRow s.store (newRow t runId now) = some s'.store) (hk : Keyed s' key id) :
    id = runId ∧ key = t.key ∨ Keyed s key id := by
  obtain ⟨row, hr, hkind, hkey⟩ := hk
  rw [(get_insertRow hi).2] at hr
  split_ifs at hr with hk
  · cases hr
    exact .inl ⟨hk.symm, hkey.symm⟩
  · exact .inr ⟨row, hr, hkind, hkey⟩

theorem Deduplicated.inserts (h : Deduplicated s) {t : Submit} {now : ℤ} {runId : String}
    {store : RunTable (AutonomousPayload R)} (hc : s.submits c = some t)
    (hp : t.pc = .creating runId) (hi : insertRow s.store (newRow t runId now) = some store) :
    Deduplicated ({ s with store }.set c t (.enqueuing runId)) := by
  obtain ⟨hnone, hget⟩ := get_insertRow hi
  replace hnone : s.store.get runId = none := hnone
  have hdrawn : t.pc.drawn = some runId := by rw [hp]; rfl
  have hnotown : ∀ id, t.pc.own ≠ some id := fun id ho => by rw [hp] at ho; cases ho
  have hgrow : ∀ k row, s.store.get k = some row → store.get k = some row := by
    intro k row hr
    rw [hget, if_neg, hr]
    rintro rfl
    exact absurd (hnone.symm.trans hr) (by simp)
  have hown : store.get runId = some (newRow t runId now) := by rw [hget]; simp [newRow]
  have hkeep : ∀ {c' u}, c' ≠ c → s.submits c' = some u →
      ({ s with store }.set c t (.enqueuing runId)).submits c' = some u :=
    fun hne hu => (submits_set_of_ne t _ hne).trans hu
  have hnew : ∀ {key id}, t.key = some key → ¬ Keyed s (some key) id := by
    rintro key id hk ⟨row, hr, hkind, hkey⟩
    exact insertRow_unique hi hk hr hkind hkey
  have hother : ∀ c' u id, s.submits c' = some u → u.pc.own = some id → id ≠ runId := by
    rintro c' u id hu ho rfl
    obtain ⟨row, hr, _⟩ := (h.informed c' u hu).own ho
    rw [hnone] at hr
    cases hr
  constructor
  · intro id row hr hkind
    replace hr : store.get id = some row := hr
    rw [hget] at hr
    split_ifs at hr with hk
    · cases hr
      exact ⟨c, { t with pc := .enqueuing runId }, by rw [submits_set, if_pos rfl],
        congrArg some hk, rfl⟩
    · obtain ⟨c', u, hu, ho, hkey⟩ := h.owner id row hr hkind
      have hne : c' ≠ c := by
        rintro rfl
        rw [hc] at hu
        cases hu
        exact hnotown id ho
      exact ⟨c', u, hkeep hne hu, ho, hkey⟩
  · intro c₁ c₂ t₁ t₂ id h₁ h₂ ho₁ ho₂
    rcases submits_set_cases h₁ with ⟨he₁, rfl⟩ | ⟨_, hs₁⟩ <;> rcases submits_set_cases h₂ with ⟨he₂, rfl⟩ | ⟨_, hs₂⟩
    · exact he₁.trans he₂.symm
    · exact absurd (Option.some.inj ho₁).symm (hother c₂ t₂ id hs₂ ho₂)
    · exact absurd (Option.some.inj ho₂).symm (hother c₁ t₁ id hs₁ ho₁)
    · exact h.once c₁ c₂ t₁ t₂ id hs₁ hs₂ ho₁ ho₂
  · intro c₁ c₂ t₁ t₂ id h₁ h₂ hd₁ hd₂
    rcases submits_set_cases h₁ with ⟨_, rfl⟩ | ⟨_, hs₁⟩
    · cases hd₁
    · rcases submits_set_cases h₂ with ⟨_, rfl⟩ | ⟨_, hs₂⟩
      · cases hd₂
      · exact h.drawn c₁ c₂ t₁ t₂ id hs₁ hs₂ hd₁ hd₂
  · intro c' u hu
    rcases submits_set_cases hu with ⟨_, rfl⟩ | ⟨hne, hs⟩
    · exact ⟨((h.informed c t hc).drawn hdrawn).1, newRow t runId now, hown, rfl, rfl⟩
    · refine (h.informed c' u hs).grow hgrow (fun id hd => ?_)
      have hid : runId ≠ id := by
        rintro rfl
        exact hne (h.drawn c' c u t runId hs hc hd hdrawn)
      change store.get id = none
      rw [hget, if_neg (show ¬ (newRow (R := R) t runId now).id = id from hid)]
      exact ((h.informed c' u hs).drawn hd).2
  · intro id id' key hk hk'
    rcases keyed_insert hi hk with ⟨rfl, he⟩ | hold <;>
      rcases keyed_insert hi hk' with ⟨rfl, he'⟩ | hold'
    · rfl
    · exact absurd hold' (hnew he.symm)
    · exact absurd hold (hnew he'.symm)
    · exact h.unique id id' key hold hold'
  · exact h.jobs
  · intro id
    apply (h.enqueued id).trans
    constructor
    · rintro ⟨c', u, handle, hu, hret, hid⟩
      have hne : c' ≠ c := by
        rintro rfl
        rw [hc] at hu
        cases hu
        rw [hp] at hret
        cases hret
      exact ⟨c', u, handle, hkeep hne hu, hret, hid⟩
    · rintro ⟨c', u, handle, hu, hret, hid⟩
      rcases submits_set_cases hu with ⟨_, rfl⟩ | ⟨_, hs⟩
      · cases hret
      · exact ⟨c', u, handle, hs, hret, hid⟩

omit [DecidableEq C] in
theorem Deduplicated.unpushed (h : Deduplicated s) {t : Submit} {runId : String}
    (hc : s.submits c = some t) (hp : t.pc = .enqueuing runId) : runId ∉ s.jobs.map Job.runId := by
  rw [h.enqueued]
  rintro ⟨c', u, handle, hu, hret, hr⟩
  obtain rfl := h.once c' c u t runId hu hc (by rw [hret, ← hr]; rfl) (by rw [hp]; rfl)
  rw [hc] at hu
  cases hu
  rw [hp] at hret
  cases hret

theorem Deduplicated.pushes (h : Deduplicated s) {t : Submit} {runId : String}
    {job : Job (AutonomousPayload R)} (hc : s.submits c = some t) (hp : t.pc = .enqueuing runId)
    (hj : newJob autonomousKind runId ⟨t.goal, none⟩ = some job) :
    Deduplicated ({ s with jobs := s.jobs ++ [job] }.set c t (.returned ⟨runId, .pending⟩ true)) := by
  have hid : job.runId = runId := by
    unfold newJob at hj
    split_ifs at hj
    cases hj
    rfl
  have hown : t.pc.own = some runId := by rw [hp]; rfl
  set s' := { s with jobs := s.jobs ++ [job] }.set c t (.returned ⟨runId, .pending⟩ true) with hs'
  have hself : s'.submits c = some { t with pc := .returned ⟨runId, .pending⟩ true } := by
    rw [hs', submits_set, if_pos rfl]
  have hkeep : ∀ {c' u}, c' ≠ c → s.submits c' = some u → s'.submits c' = some u := by
    intro c' u hne hu
    rw [hs', submits_set_of_ne t _ hne]
    exact hu
  -- the submit is seen from outside as it was before: it owns the same run under the same key
  have hback : ∀ {c' u}, s'.submits c' = some u → ∃ v, s.submits c' = some v ∧ v.key = u.key ∧
      v.pc.own = u.pc.own ∧ (c' ≠ c → v = u) := by
    intro c' u hu
    rw [hs', submits_set] at hu
    split_ifs at hu with he
    · cases hu
      exact ⟨t, he ▸ hc, rfl, hown, fun hne => absurd he hne⟩
    · exact ⟨u, hu, rfl, rfl, fun _ => rfl⟩
  constructor
  · intro id row hr hkind
    obtain ⟨c', u, hu, ho, hkey⟩ := h.owner id row hr hkind
    by_cases hne : c' = c
    · subst hne
      rw [hc] at hu
      cases hu
      exact ⟨c', _, hself, hown.symm.trans ho, hkey⟩
    · exact ⟨c', u, hkeep hne hu, ho, hkey⟩
  · intro c₁ c₂ t₁ t₂ id h₁ h₂ ho₁ ho₂
    obtain ⟨u₁, hu₁, _, he₁, _⟩ := hback h₁
    obtain ⟨u₂, hu₂, _, he₂, _⟩ := hback h₂
    exact h.once c₁ c₂ u₁ u₂ id hu₁ hu₂ (he₁.trans ho₁) (he₂.trans ho₂)
  · intro c₁ c₂ t₁ t₂ id h₁ h₂ hd₁ hd₂
    have hne : ∀ {c' u}, s'.submits c' = some u → u.pc.drawn = some id → s.submits c' = some u := by
      intro c' u hu hd
      obtain ⟨v, hv, _, _, hsame⟩ := hback hu
      by_cases he : c' = c
      · subst he
        rw [hself] at hu
        cases hu
        cases hd
      · exact hsame he ▸ hv
    exact h.drawn c₁ c₂ t₁ t₂ id (hne h₁ hd₁) (hne h₂ hd₂) hd₁ hd₂
  · intro c' u hu
    obtain ⟨v, hv, hkey, ho, hsame⟩ := hback hu
    by_cases he : c' = c
    · subst he
      rw [hself] at hu
      cases hu
      exact (h.informed c' t hc).own hown
    · exact hsame he ▸ h.informed c' v hv
  · exact h.unique
  · change ((s.jobs ++ [job]).map Job.runId).Nodup
    rw [List.map_append, List.map_singleton, hid]
    simpa using h.jobs.concat (h.unpushed hc hp)
  · intro id
    change id ∈ (s.jobs ++ [job]).map Job.runId ↔ _
    rw [List.map_append, List.mem_append, h.enqueued id, List.map_singleton, List.mem_singleton, hid]
    constructor
    · rintro (⟨c', u, handle, hu, hret, hr⟩ | rfl)
      · have hne : c' ≠ c := by
          rintro rfl
          rw [hc] at hu
          cases hu
          rw [hp] at hret
          cases hret
        exact ⟨c', u, handle, hkeep hne hu, hret, hr⟩
      · exact ⟨c, _, _, hself, rfl, rfl⟩
    · rintro ⟨c', u, handle, hu, hret, hr⟩
      by_cases he : c' = c
      · subst he
        rw [hself] at hu
        cases hu
        cases hret
        exact .inr hr.symm
      · obtain ⟨v, hv, _, _, hsame⟩ := hback hu
        exact .inl ⟨c', u, handle, hsame he ▸ hv, hret, hr⟩

theorem Deduplicated.step {t : State C R} {a : Action C} (h : Deduplicated s) (hf : Fresh s a)
    (hs : RunSubmits.step s a = some t) : Deduplicated t := by
  have hnew : ∀ {c id}, FreshId s id → ∀ c' u, c' ≠ c → s.submits c' = some u →
      u.pc.drawn ≠ some id := fun hid c' u _ hu => hid.2.2 c' u hu
  have hown : ∀ {c : C} {t : Submit}, s.submits c = some t → t.pc.own = none → ∀ u,
      s.submits c = some u → u.pc.own = none := by
    intro c t hc ho u hu
    rw [hc] at hu
    cases hu
    exact ho
  cases step_cases hs with
  | draws c goal key runId hc hk =>
    have hid := hf hk
    exact h.moves (fun u hu => by rw [hc] at hu; cases hu) rfl ⟨hid.1, hid.2.1⟩
      fun id hd => by cases hd; exact hnew hid
  | begins c goal key runId hc hk =>
    exact h.moves (fun u hu => by rw [hc] at hu; cases hu) rfl ⟨key, hk, rfl⟩ (by simp [Pc.drawn])
  | hits c u runId key row hc hp hk hr =>
    obtain ⟨hne, hkeyed⟩ := keyed_of_found hr
    exact h.moves (hown hc (by rw [hp]; rfl)) rfl ⟨key, hne, hk, hkeyed⟩ (by simp [Pc.drawn])
  | misses c u runId hc hp hk =>
    exact h.moves (hown hc (by rw [hp]; rfl)) rfl ⟨hf.1, hf.2.1⟩
      fun id hd => by cases hd; exact hnew hf
  | inserts c u now runId store hc hp hi => exact h.inserts hc hp hi
  | conflicts c u now runId hc hp hi =>
    have hdrawn : u.pc.drawn = some runId := by rw [hp]; rfl
    obtain ⟨hid, hnone⟩ := (h.informed c u hc).drawn hdrawn
    obtain ⟨key, k, row, hkey, hr, hkind, hrow⟩ := insertRow_conflict hnone hi
    have hk : u.key = some key := hkey
    have hkeyed : Keyed s (some key) k := ⟨row, hr, hkind, hrow⟩
    rw [hk, Option.isSome_some, if_pos rfl]
    exact h.moves (hown hc (by rw [hp]; rfl)) rfl ⟨hid, hnone, key, k, hk, hkeyed⟩
      fun id hd => by cases hd; exact h.keepsDrawn hc hdrawn
  | finds c u runId key row hc hp hk hr =>
    have hdrawn : u.pc.drawn = some runId := by rw [hp]; rfl
    obtain ⟨_, hnone⟩ := (h.informed c u hc).drawn hdrawn
    obtain ⟨hne, hkeyed⟩ := keyed_of_found hr
    have hother : row.id ≠ runId := by
      intro he
      obtain ⟨r, hget, _⟩ := hkeyed
      rw [he, hnone] at hget
      cases hget
    rw [settle, if_pos hother]
    exact h.moves (hown hc (by rw [hp]; rfl)) rfl ⟨key, hne, hk, hkeyed⟩ (by simp [Pc.drawn])
  | findsNone c u runId hc hp hk =>
    have hdrawn : u.pc.drawn = some runId := by rw [hp]; rfl
    have hinf := h.informed c u hc
    rw [Informed, hp] at hinf
    obtain ⟨hid, hnone, key, k, hkey, hkeyed⟩ := hinf
    rw [hkey, Option.bind_some] at hk
    obtain rfl := hkeyed.found hk
    exact h.moves (hown hc (by rw [hp]; rfl)) rfl ⟨hid, hnone, hkey, k, hkeyed⟩
      fun id hd => by cases hd; exact h.keepsDrawn hc hdrawn
  | fetches c u runId row hc hp hr =>
    have hid : u.pc.drawn = some runId := by
      rw [hp]
      rfl
    rw [((h.informed c u hc).drawn hid).2] at hr
    cases hr
  | raises c u runId hc hp hr =>
    have hinf := h.informed c u hc
    rw [Informed, hp] at hinf
    exact h.moves (hown hc (by rw [hp]; rfl)) rfl hinf.2.2 (by simp [Pc.drawn])
  | pushes c u runId job hc hp hj => exact h.pushes hc hp hj
  | rejects c u runId hc hp hj =>
    have hinf := h.informed c u hc
    rw [Informed, hp] at hinf
    have hsome := newJob_hexId hinf.1 (⟨u.goal, none⟩ : AutonomousPayload R)
    rw [hj] at hsome
    cases hsome

end Steps

theorem deduplicated_opened {store : RunTable (AutonomousPayload R)}
    (h : ∀ row ∈ store.rows, row.kind ≠ autonomousKind) : Deduplicated (opened C store) where
  owner id row hr hkind := absurd hkind (h row (Table.mem_of_get hr))
  once c _ _ _ _ hc := by cases hc
  drawn c _ _ _ _ hc := by cases hc
  informed c t hc := by cases hc
  unique id id' key hk := by
    obtain ⟨row, hr, hkind, _⟩ := hk
    exact absurd hkind (h row (Table.mem_of_get hr))
  jobs := List.nodup_nil
  enqueued id := by simp [opened]

theorem Deduplicated.answers {s : State C R} (h : Deduplicated s) (hs : Settled s)
    (hone : OneEmptyKey s) {c : C} {t : Submit} (hc : s.submits c = some t) :
    ∃ handle fresh, t.pc = .returned handle fresh := by
  have hended := hs c t hc
  have hinf := h.informed c t hc
  cases hp : t.pc with
  | returned handle fresh => exact ⟨handle, fresh, rfl⟩
  | raised =>
    rw [Informed, hp] at hinf
    obtain ⟨hkey, id, row, hr, hkind, hrow⟩ := hinf
    obtain ⟨c', u, hu, ho, hk⟩ := h.owner id row hr hkind
    obtain rfl := hone c c' t u hc hu hkey (hk.trans hrow)
    rw [hc] at hu
    cases hu
    rw [hp] at ho
    cases ho
  | _ => simp [hp, Pc.Ended] at hended

theorem Deduplicated.answer {s : State C R} (h : Deduplicated s) {c : C} {t : Submit}
    (hc : s.submits c = some t) {handle : RunHandle} {fresh : Bool}
    (hp : t.pc = .returned handle fresh) : Keyed s t.key handle.runId ∧
      (t.pc.own = some handle.runId ∨ t.pc.own = none ∧ ∃ k, k ≠ "" ∧ t.key = some k) := by
  have hinf := h.informed c t hc
  rw [Informed, hp] at hinf
  cases fresh with
  | true => exact ⟨hinf, .inl (by rw [hp]; rfl)⟩
  | false =>
    obtain ⟨k, hne, hk, hkeyed⟩ := hinf
    exact ⟨hk ▸ hkeyed, .inr ⟨by rw [hp]; rfl, k, hne, hk⟩⟩

theorem Keyed.key {s : State C R} {key key' : Option String} {id : String} (h : Keyed s key id)
    (h' : Keyed s key' id) : key = key' := by
  obtain ⟨row, hr, _, hk⟩ := h
  obtain ⟨row', hr', _, hk'⟩ := h'
  rw [hr] at hr'
  cases hr'
  exact hk.symm.trans hk'

theorem Deduplicated.alike {s : State C R} (h : Deduplicated s) {c c' : C}
    {t t' : Submit} {handle handle' : RunHandle} {fresh fresh' : Bool} (hne : c ≠ c')
    (hc : s.submits c = some t) (hc' : s.submits c' = some t')
    (hp : t.pc = .returned handle fresh) (hp' : t'.pc = .returned handle' fresh') :
    handle.runId = handle'.runId ↔ ∃ k, k ≠ "" ∧ t.key = some k ∧ t'.key = some k := by
  obtain ⟨hkeyed, hown⟩ := h.answer hc hp
  obtain ⟨hkeyed', hown'⟩ := h.answer hc' hp'
  constructor
  · intro he
    rw [← he] at hkeyed' hown'
    have hkeys := hkeyed.key hkeyed'
    rcases hown with hown | ⟨_, k, hk, hkey⟩
    · rcases hown' with hown' | ⟨_, k, hk, hkey⟩
      · exact absurd (h.once c c' t t' _ hc hc' hown hown') hne
      · exact ⟨k, hk, hkeys.trans hkey, hkey⟩
    · exact ⟨k, hk, hkey, hkeys.symm.trans hkey⟩
  · rintro ⟨k, _, hkey, hkey'⟩
    exact h.unique _ _ k (hkey ▸ hkeyed) (hkey' ▸ hkeyed')

theorem Deduplicated.idempotent {s : State C R} (h : Deduplicated s) (hs : Settled s)
    (hone : OneEmptyKey s) : Idempotent s where
  answered _ _ hc := h.answers hs hone hc
  alike _ _ _ _ _ _ _ _ hne hc hc' hp hp' := h.alike hne hc hc' hp hp'
  once := h.jobs
  enqueued id := by
    apply (h.enqueued id).trans
    constructor
    · rintro ⟨c, t, handle, hc, hp, hid⟩
      exact ⟨c, t, handle, true, hc, hp, hid⟩
    · rintro ⟨c, t, handle, fresh, hc, hp, rfl⟩
      obtain ⟨⟨row, hr, hkind, _⟩, _⟩ := h.answer hc hp
      obtain ⟨c', u, hu, ho, _⟩ := h.owner _ row hr hkind
      obtain ⟨handle', fresh', hp'⟩ := h.answers hs hone hu
      cases fresh' with
      | true => exact ⟨c', u, handle', hu, hp', by rw [hp'] at ho; exact Option.some.inj ho⟩
      | false => rw [hp'] at ho; cases ho

theorem Deduplicated.oneEmptyKey {s : State C R} (h : Deduplicated s) (hi : Idempotent s) :
    OneEmptyKey s := by
  have hown : ∀ c t, s.submits c = some t → t.key = some "" →
      ∃ id, t.pc.own = some id ∧ Keyed s (some "") id := by
    intro c t hc hkey
    obtain ⟨handle, fresh, hp⟩ := hi.answered c t hc
    obtain ⟨hkeyed, hown | ⟨_, k, hne, hk⟩⟩ := h.answer hc hp
    · exact ⟨handle.runId, hown, hkey ▸ hkeyed⟩
    · rw [hkey] at hk
      cases hk
      exact absurd rfl hne
  intro c c' t t' hc hc' hkey hkey'
  obtain ⟨id, ho, hk⟩ := hown c t hc hkey
  obtain ⟨id', ho', hk'⟩ := hown c' t' hc' hkey'
  obtain rfl := h.unique id id' "" hk hk'
  exact h.once c c' t t' id hc hc' ho ho'

def Pc.left : Pc → ℕ
  | .looking => 5
  | .creating _ => 4
  | .lost _ => 3
  | .fetching _ => 2
  | .enqueuing _ => 1
  | _ => 0

theorem submit_goes_on [DecidableEq C] {s : State C R} {c : C} {t : Submit}
    (hc : s.submits c = some t) (hn : ¬ t.pc.Ended) : ∃ a s' pc,
      step s a = some s' ∧ s'.submits c = some { t with pc } ∧ pc.left < t.pc.left := by
  have hset : ∀ (s : State C R) pc, (s.set c t pc).submits c = some { t with pc } := by
    intro s pc
    rw [submits_set, if_pos rfl]
  have hsettle : ∀ (row : AgentRun (AutonomousPayload R)) runId, (settle row runId).left ≤ 1 := by
    intro row runId
    unfold settle
    split_ifs <;> simp [Pc.left]
  cases hp : t.pc with
  | looking =>
    cases hr : t.key.bind (getRunByIdempotencyKey s.store autonomousKind) with
    | none => exact ⟨.looks c "", _, _, by simp [step, hc, hp, hr]; rfl, hset _ _, by simp [Pc.left]⟩
    | some row => exact ⟨.looks c "", _, _, by simp [step, hc, hp, hr]; rfl, hset _ _, by simp [Pc.left]⟩
  | creating runId =>
    cases hi : insertRow s.store (newRow t runId 0) with
    | none =>
      refine ⟨.inserts c 0, _, _, by simp [step, hc, hp, hi]; rfl, hset _ _, ?_⟩
      cases t.key <;> simp [Pc.left]
    | some store =>
      exact ⟨.inserts c 0, _, _, by simp [step, hc, hp, hi]; rfl, hset _ _,
        (hsettle _ _).trans_lt (by simp [Pc.left])⟩
  | lost runId =>
    cases hr : t.key.bind (getRunByIdempotencyKey s.store autonomousKind) with
    | none => exact ⟨.finds c, _, _, by simp [step, hc, hp, hr]; rfl, hset _ _, by simp [Pc.left]⟩
    | some row =>
      exact ⟨.finds c, _, _, by simp [step, hc, hp, hr]; rfl, hset _ _,
        (hsettle _ _).trans_lt (by simp [Pc.left])⟩
  | fetching runId =>
    cases hr : getRun s.store runId with
    | none => exact ⟨.fetches c, _, _, by simp [step, hc, hp, hr]; rfl, hset _ _, by simp [Pc.left]⟩
    | some row =>
      exact ⟨.fetches c, _, _, by simp [step, hc, hp, hr]; rfl, hset _ _,
        (hsettle _ _).trans_lt (by simp [Pc.left])⟩
  | enqueuing runId =>
    cases hj : newJob (P := AutonomousPayload R) autonomousKind runId ⟨t.goal, none⟩ with
    | none => exact ⟨.pushes c, _, _, by simp [step, hc, hp, hj]; rfl, hset _ _, by simp [Pc.left]⟩
    | some job => exact ⟨.pushes c, _, _, by simp [step, hc, hp, hj]; rfl, hset _ _, by simp [Pc.left]⟩
  | returned handle fresh => simp [hp, Pc.Ended] at hn
  | raised => simp [hp, Pc.Ended] at hn

theorem submit_ends [DecidableEq C] {s : State C R} {c : C} {t : Submit}
    (hc : s.submits c = some t) :
    ∃ as s' u, exec step s as = some s' ∧ s'.submits c = some u ∧ u.pc.Ended := by
  induction hl : t.pc.left using Nat.strong_induction_on generalizing s t with
  | _ n ih =>
    by_cases hn : t.pc.Ended
    · exact ⟨[], s, t, rfl, hc, hn⟩
    · obtain ⟨a, s', pc, hs, hc', hless⟩ := submit_goes_on hc hn
      obtain ⟨as, s'', u, he, hu, hended⟩ := ih pc.left (hl ▸ hless) hc' rfl
      exact ⟨a :: as, s'', u, by simp [exec, hs, he], hu, hended⟩

theorem idempotent_iff [DecidableEq C] {store : RunTable (AutonomousPayload R)}
    (hstore : ∀ row ∈ store.rows, row.kind ≠ autonomousKind) {s : State C R}
    (hs : Reaches step Fresh (opened C store) s) :
    (∀ c t, s.submits c = some t →
      ∃ as s' u, exec step s as = some s' ∧ s'.submits c = some u ∧ u.pc.Ended) ∧
      (Settled s → (Idempotent s ↔ OneEmptyKey s)) := by
  have h : Deduplicated s := hs.invariant (deduplicated_opened hstore)
    fun _ _ _ hi hf hstep => hi.step hf hstep
  constructor
  · intro c t hc
    exact submit_ends hc
  · intro hsettled
    constructor
    · exact h.oneEmptyKey
    · exact h.idempotent hsettled

def racedSubmits : List (Action Bool) :=
  [.begins false "goal" (some "k") "", .begins true "goal" (some "k") "",
    .looks false "0123456789abcdef", .looks true "0123456789abcde0",
    .inserts false 0, .inserts true 0, .pushes false, .finds true]

def emptyKeySubmits : List (Action Bool) :=
  [.begins false "goal" (some "") "0123456789abcdef", .inserts false 0, .pushes false,
    .begins true "goal" (some "") "0123456789abcde0", .inserts true 0, .finds true, .fetches true]

def points (s : State Bool Unit) : Option Submit × Option Submit := (s.submits false, s.submits true)

theorem settled_two {s : State Bool R} {t u : Submit} (hfalse : s.submits false = some t)
    (htrue : s.submits true = some u) (ht : t.pc.Ended) (hu : u.pc.Ended) : Settled s := by
  intro c v hv
  cases c with
  | false =>
    obtain rfl := Option.some.inj (hfalse.symm.trans hv)
    exact ht
  | true =>
    obtain rfl := Option.some.inj (htrue.symm.trans hv)
    exact hu

theorem raced_key_shares_run : ∃ s : State Bool Unit,
    exec step (opened Bool (Table.empty _)) racedSubmits = some s ∧ Idempotent s := by
  have hpoints : (exec step (opened Bool (Table.empty _)) racedSubmits).map points = some
      (some ⟨"goal", some "k", .returned ⟨"0123456789abcdef", .pending⟩ true⟩,
        some ⟨"goal", some "k", .returned ⟨"0123456789abcdef", .pending⟩ false⟩) := by decide +kernel
  obtain ⟨s, hs, hp⟩ := Option.map_eq_some_iff.mp hpoints
  obtain ⟨hfalse, htrue⟩ := Prod.mk.inj hp
  have hobeys : Obeys step Fresh (opened Bool (Table.empty _) : State Bool Unit) racedSubmits := by
    decide +kernel
  have hsettled : Settled s := settled_two hfalse htrue trivial trivial
  refine ⟨s, hs, ((idempotent_iff (by simp [Table.empty]) (reaches_of_exec hs hobeys)).2
    hsettled).mpr ?_⟩
  intro c c' t t' hc hc' hkey hkey'
  cases c
  · obtain rfl := Option.some.inj (hfalse.symm.trans hc)
    exact absurd hkey (by simp)
  · obtain rfl := Option.some.inj (htrue.symm.trans hc)
    exact absurd hkey (by simp)

theorem empty_key_resubmitted_raises : ∃ s : State Bool Unit,
    exec step (opened Bool (Table.empty _)) emptyKeySubmits = some s ∧
      Obeys step Fresh (opened Bool (Table.empty _) : State Bool Unit) emptyKeySubmits ∧
      Settled s ∧ ¬ Idempotent s := by
  have hpoints : (exec step (opened Bool (Table.empty _)) emptyKeySubmits).map points = some
      (some ⟨"goal", some "", .returned ⟨"0123456789abcdef", .pending⟩ true⟩,
        some ⟨"goal", some "", .raised⟩) := by decide +kernel
  obtain ⟨s, hs, hp⟩ := Option.map_eq_some_iff.mp hpoints
  obtain ⟨hfalse, htrue⟩ := Prod.mk.inj hp
  refine ⟨s, hs, by decide +kernel, settled_two hfalse htrue trivial trivial, ?_⟩
  intro hi
  obtain ⟨handle, fresh, he⟩ := hi.answered true _ htrue
  cases he

end Workbench.RunSubmits
