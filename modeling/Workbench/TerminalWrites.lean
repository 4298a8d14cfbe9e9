import Workbench.RunLease

/-!
Deliveries whose terminal `upsert_run` reads its row and commits at two instants, with the store
calls of others in between.
-/

namespace Workbench.TerminalWrites

open RunStore KeyedTable Transitions RunLease

/-- An `upsert_run` between its `session.get`, which found `seen`, and its commit. -/
structure Pending (R : Type) where
  seen : Option (AgentRun (AutonomousPayload R))
  write : TerminalWrite R
  now : ℤ

structure State (D R : Type) where
  leases : RunLease.State D R
  pending : D → Option (Pending R)

/-- `base` is a step of the leases that is no terminal write. -/
inductive Action (D R : Type)
  | base (a : RunLease.Action D R)
  | look (d : D) (outcome : Outcome R) (now : ℤ)
  | commit (d : D)

variable {D R : Type} [DecidableEq R]

/-- The store once the row of the run is committed; an error of the commit is swallowed. -/
def committed (s : RunLease.State D R) (e : Execution) (p : Pending R) :
    RunTable (AutonomousPayload R) :=
  (commitRun s.store p.seen e.runId autonomousKind p.write.status p.write.payload none p.write.error
    p.now).getD s.store

variable [DecidableEq D]

def step (ttl : ℤ) (s : State D R) : Action D R → Option (State D R)
  | .base (.finish _ _ _) => none
  | .base (.crash dead) => some
      ⟨{ s.leases with executing := fun d => if dead d then none else s.leases.executing d },
        fun d => if dead d then none else s.pending d⟩
  | .base a => (RunLease.step ttl s.leases a).map fun leases => { s with leases }
  | .look d outcome now =>
    match s.leases.executing d with
    | none => none
    | some e =>
      if e.closing = false ∧ (s.pending d).isNone ∧ now ≤ s.leases.clock then
        let p : Pending R := ⟨s.leases.store.get e.runId, terminalWrite e.goal outcome, now⟩
        some { s with pending := Function.update s.pending d (some p) }
      else none
  | .commit d =>
    match s.leases.executing d, s.pending d with
    | some e, some p =>
      if e.closing then none
      else some
        ⟨{ s.leases with
            store := committed s.leases e p
            executing := Function.update s.leases.executing d (some { e with closing := true }) },
          Function.update s.pending d none⟩
    | _, _ => none

structure Idle (s : State D R) : Prop where
  executing : ∀ d, s.leases.executing d = none
  pending : ∀ d, s.pending d = none

section Steps

variable {ttl : ℤ} {s t : State D R} {d : D}

theorem step_base {a : RunLease.Action D R} (h : step ttl s (.base a) = some t) :
    (∀ d outcome now, a ≠ .finish d outcome now) ∧ RunLease.step ttl s.leases a = some t.leases ∧
      (t.pending = s.pending ∨ ∃ dead, a = .crash dead ∧
        t.pending = fun d => if dead d then none else s.pending d) := by
  cases a with
  | finish d outcome now => cases h
  | crash dead =>
    cases h
    exact ⟨nofun, rfl, .inr ⟨dead, rfl, rfl⟩⟩
  | submit _ _ _ _ | claim _ _ _ _ | touch _ _ | release _ | sweep _ | tick _ =>
    obtain ⟨leases, hleases, rfl⟩ := Option.map_eq_some_iff.mp h
    exact ⟨nofun, hleases, .inl rfl⟩

omit [DecidableEq R] in
theorem base_executing {a : RunLease.Action D R} {l l' : RunLease.State D R}
    (hfinish : ∀ d outcome now, a ≠ .finish d outcome now) (h : RunLease.step ttl l a = some l')
    {e' : Execution} (he' : l'.executing d = some e') :
    (∃ e, l.executing d = some e ∧ e.runId = e'.runId ∧ e.closing = e'.closing) ∨
      ∃ goal now, a = .claim d e'.runId goal now ∧ (claimRun l.store e'.runId ttl now).2 = true := by
  cases a with
  | submit runId goal key now =>
    obtain ⟨-, -, -, -, hexec⟩ := step_submit h
    rw [hexec] at he'
    exact .inl ⟨e', he', rfl, rfl⟩
  | claim d₀ runId goal now =>
    obtain ⟨-, -, -, -, hexec⟩ := step_claim h
    rw [hexec] at he'
    split_ifs at he' with hwon
    · rcases update_some_eq_some he' with ⟨rfl, rfl⟩ | ⟨-, he'⟩
      · exact .inr ⟨goal, now, rfl, hwon⟩
      · exact .inl ⟨e', he', rfl, rfl⟩
    · exact .inl ⟨e', he', rfl, rfl⟩
  | touch d₀ now =>
    obtain ⟨e, he, -, -, -, hexec⟩ := step_touch h
    rw [hexec] at he'
    rcases update_some_eq_some he' with ⟨rfl, rfl⟩ | ⟨-, he'⟩
    · exact .inl ⟨e, he, rfl, rfl⟩
    · exact .inl ⟨e', he', rfl, rfl⟩
  | finish d₀ outcome now => exact absurd rfl (hfinish d₀ outcome now)
  | release d₀ =>
    obtain ⟨-, rfl⟩ := step_release h
    exact .inl ⟨e', (update_none_eq_some he').2, rfl, rfl⟩
  | crash dead =>
    rw [step_crash h] at he'
    change (if dead d then none else l.executing d) = some e' at he'
    split_ifs at he'
    exact .inl ⟨e', he', rfl, rfl⟩
  | sweep now =>
    obtain ⟨-, rfl⟩ := step_sweep h
    exact .inl ⟨e', he', rfl, rfl⟩
  | tick now =>
    obtain ⟨-, rfl⟩ := step_tick h
    exact .inl ⟨e', he', rfl, rfl⟩

theorem step_look {outcome : Outcome R} {now : ℤ} (h : step ttl s (.look d outcome now) = some t) :
    ∃ e, s.leases.executing d = some e ∧ e.closing = false ∧ s.pending d = none ∧
      now ≤ s.leases.clock ∧ t.leases = s.leases ∧ t.pending = Function.update s.pending d
        (some ⟨s.leases.store.get e.runId, terminalWrite e.goal outcome, now⟩) := by
  simp only [step] at h
  split at h
  · cases h
  · rename_i e he
    split_ifs at h with hg
    cases h
    exact ⟨e, he, hg.1, Option.isNone_iff_eq_none.mp hg.2.1, hg.2.2, rfl, rfl⟩

theorem step_commit (h : step ttl s (.commit d) = some t) :
    ∃ e p, s.leases.executing d = some e ∧ e.closing = false ∧ s.pending d = some p ∧
      t.leases = { s.leases with
        store := committed s.leases e p
        executing := Function.update s.leases.executing d (some { e with closing := true }) } ∧
      t.pending = Function.update s.pending d none := by
  simp only [step] at h
  split at h
  · rename_i e p he hp
    split_ifs at h with hclosing
    cases h
    exact ⟨e, p, he, (Bool.not_eq_true _).mp hclosing, hp, rfl, rfl⟩
  · cases h

/-- With nothing in between, the two are the terminal write at one instant. -/
theorem look_commit {outcome : Outcome R} {now : ℤ}
    (h : exec (step ttl) s [.look d outcome now, .commit d] = some t) :
    RunLease.step ttl s.leases (.finish d outcome now) = some t.leases ∧ t.pending = s.pending := by
  obtain ⟨u, hu, h⟩ := Option.bind_eq_some_iff.mp h
  obtain ⟨v, hv, h⟩ := Option.bind_eq_some_iff.mp h
  cases h
  obtain ⟨e, he, hopen, hnone, hnow, hleases, hpending⟩ := step_look hu
  obtain ⟨e', p, he', -, hp, hleases', hpending'⟩ := step_commit hv
  rw [hleases, he] at he'
  cases he'
  rw [hpending, Function.update_self] at hp
  cases hp
  have hcommit : (commitRun s.leases.store (s.leases.store.get e.runId) e.runId autonomousKind
      (terminalWrite e.goal outcome).status (terminalWrite e.goal outcome).payload none
      (terminalWrite e.goal outcome).error now).isSome := commitRun_isSome rfl
  obtain ⟨store, hstore⟩ := Option.isSome_iff_exists.mp hcommit
  have hupsert := commitRun_current.symm.trans hstore
  obtain ⟨written, hwritten, rfl⟩ := Option.map_eq_some_iff.mp hupsert
  constructor
  · simp only [RunLease.step, he, hopen, hnow, and_self, if_true, hwritten, Option.map_some]
    rw [hleases', hleases, committed, hstore]
    rfl
  · rw [hpending', hpending, Function.update_idem, Function.update_eq_self_iff]
    exact hnone.symm

def setRow (old : AgentRun (AutonomousPayload R)) (p : Pending R) (r : AgentRun (AutonomousPayload R)) :
    AgentRun (AutonomousPayload R) :=
  { r with
    status := setColumn old.status p.write.status r.status
    payload := setColumn old.payload p.write.payload r.payload
    error := setColumn old.error p.write.error r.error
    updatedAt := setColumn old.updatedAt p.now r.updatedAt
    idempotencyKey := setColumn old.idempotencyKey old.idempotencyKey r.idempotencyKey }

omit [DecidableEq D] in
theorem committed_row {e : Execution} {p : Pending R} {k : String}
    {r : AgentRun (AutonomousPayload R)} (hr : s.leases.store.get k = some r) :
    (committed s.leases e p).get k = some
      (if k = e.runId then (p.seen.map fun old => setRow old p r).getD r else r) := by
  have hid : r.id = k := Table.key_of_get hr
  unfold committed commitRun
  cases p.seen with
  | none =>
    simp only [Option.map_none, Option.getD_none, ite_self]
    cases hinsert : insertRow s.leases.store ⟨e.runId, autonomousKind, p.write.status, none,
        p.write.payload, p.write.error, p.now, p.now⟩ with
    | none => exact hr
    | some store =>
      obtain ⟨hnone, hget⟩ := get_insertRow hinsert
      rw [Option.getD_some, hget, if_neg, hr]
      rintro rfl
      rw [hr] at hnone
      cases hnone
  | some old =>
    cases hrun : s.leases.store.get e.runId with
    | none =>
      have hne : k ≠ e.runId := by
        rintro rfl
        rw [hr] at hrun
        cases hrun
      simp only [Option.getD_none, if_neg hne]
      exact hr
    | some row =>
      simp only [Option.isSome_none, Bool.false_and, Bool.false_eq_true, if_false, Option.getD_some,
        Table.get_update, hr, Option.map_some, hid, decide_eq_true_eq, setRow, Option.none_or]

end Steps

end Workbench.TerminalWrites
