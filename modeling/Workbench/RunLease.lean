import Workbench.RunStore
import Workbench.Transitions
import Mathlib.Logic.Function.Basic

namespace Workbench.RunLease

open RunStore KeyedTable Transitions

def autonomousKind : String := "autonomous"

structure AutonomousPayload (R : Type) where
  goal : String
  result : Option R
  deriving DecidableEq

inductive Outcome (R : Type)
  | raised (exc : String)
  | returned (completed : Bool) (result : R)
  deriving DecidableEq

structure TerminalWrite (R : Type) where
  status : Status
  payload : AutonomousPayload R
  error : Option String
  deriving DecidableEq

variable {D R : Type}

def terminalWrite (goal : String) : Outcome R → TerminalWrite R
  | .raised exc => ⟨.failed, ⟨goal, none⟩, some exc⟩
  | .returned true result => ⟨.completed, ⟨goal, some result⟩, none⟩
  | .returned false result => ⟨.maxStepsReached, ⟨goal, some result⟩, none⟩

theorem terminalWrite_terminal (goal : String) (o : Outcome R) :
    (terminalWrite goal o).status.Terminal := by
  rcases o with exc | ⟨_ | _, result⟩ <;> simp [terminalWrite]

/-- A delivery that won its claim. `stamp` is the timestamp of its latest claim or heartbeat; once
`closing`, its terminal row is written but its heartbeat task is not yet cancelled. -/
structure Execution where
  runId : String
  goal : String
  stamp : ℤ
  closing : Bool
  deriving DecidableEq

structure State (D R : Type) where
  clock : ℤ
  store : RunTable (AutonomousPayload R)
  executing : D → Option Execution

inductive Action (D R : Type)
  | submit (runId goal : String) (key : Option String) (now : ℤ)
  | claim (d : D) (runId goal : String) (now : ℤ)
  | touch (d : D) (now : ℤ)
  | finish (d : D) (outcome : Outcome R) (now : ℤ)
  | release (d : D)
  | crash (dead : D → Bool)
  | sweep (now : ℤ)
  | tick (now : ℤ)

variable [DecidableEq D]

/-- A store call stamps its write with a clock reading made no later than the write. `ttl` is
`run_stuck_ttl_s`, the lease of the claim and the cutoff of the sweep. -/
def step (ttl : ℤ) (s : State D R) : Action D R → Option (State D R)
  | .submit runId goal key now =>
    if now ≤ s.clock then
      (createRun s.store runId autonomousKind .pending ⟨goal, none⟩ key now).map fun created =>
        { s with store := created.1 }
    else none
  | .claim d runId goal now =>
    if (s.executing d).isNone ∧ now ≤ s.clock then
      let claimed := claimRun s.store runId ttl now
      some { s with
        store := claimed.1
        executing :=
          if claimed.2 then Function.update s.executing d (some ⟨runId, goal, now, false⟩)
          else s.executing }
    else none
  | .touch d now =>
    match s.executing d with
    | none => none
    | some e =>
      if now ≤ s.clock then
        some { s with
          store := touchRun s.store e.runId now
          executing := Function.update s.executing d (some { e with stamp := now }) }
      else none
  | .finish d outcome now =>
    match s.executing d with
    | none => none
    | some e =>
      if e.closing = false ∧ now ≤ s.clock then
        let w := terminalWrite e.goal outcome
        (upsertRun s.store e.runId autonomousKind w.status w.payload none w.error now).map
          fun written =>
            { s with
              store := written.1
              executing := Function.update s.executing d (some { e with closing := true }) }
      else none
  | .release d =>
    match s.executing d with
    | none => none
    | some e =>
      if e.closing then some { s with executing := Function.update s.executing d none } else none
  | .crash dead => some { s with executing := fun d => if dead d then none else s.executing d }
  | .sweep now =>
    if now ≤ s.clock then some { s with store := sweepStuckRuns s.store ttl now } else none
  | .tick now => if s.clock ≤ now then some { s with clock := now } else none

def Executes (s : State D R) (d : D) (runId : String) : Prop :=
  ∃ e, s.executing d = some e ∧ e.runId = runId ∧ e.closing = false

variable {ttl : ℤ} {s t : State D R}

theorem step_submit {runId goal : String} {key : Option String} {now : ℤ}
    (h : step ttl s (.submit runId goal key now) = some t) :
    now ≤ s.clock ∧ ∃ record, createRun s.store runId autonomousKind .pending ⟨goal, none⟩ key now =
      some (t.store, record) ∧ t.clock = s.clock ∧ t.executing = s.executing := by
  simp only [step] at h
  split_ifs at h with hnow
  obtain ⟨⟨store, record⟩, hc, rfl⟩ := Option.map_eq_some_iff.mp h
  exact ⟨hnow, record, hc, rfl, rfl⟩

theorem step_claim {d : D} {runId goal : String} {now : ℤ}
    (h : step ttl s (.claim d runId goal now) = some t) :
    s.executing d = none ∧ now ≤ s.clock ∧ t.clock = s.clock ∧
      t.store = (claimRun s.store runId ttl now).1 ∧
      t.executing = if (claimRun s.store runId ttl now).2 then
        Function.update s.executing d (some ⟨runId, goal, now, false⟩) else s.executing := by
  simp only [step] at h
  split_ifs at h with hg
  · cases h
    exact ⟨Option.isNone_iff_eq_none.mp hg.1, hg.2, rfl, rfl, by simp [*]⟩
  · cases h
    exact ⟨Option.isNone_iff_eq_none.mp hg.1, hg.2, rfl, rfl, by simp [*]⟩

theorem step_touch {d : D} {now : ℤ} (h : step ttl s (.touch d now) = some t) :
    ∃ e, s.executing d = some e ∧ now ≤ s.clock ∧ t.clock = s.clock ∧
      t.store = touchRun s.store e.runId now ∧
      t.executing = Function.update s.executing d (some { e with stamp := now }) := by
  simp only [step] at h
  split at h
  · cases h
  · rename_i e he
    split_ifs at h with hnow
    cases h
    exact ⟨e, he, hnow, rfl, rfl, rfl⟩

theorem step_finish {d : D} {outcome : Outcome R} {now : ℤ}
    (h : step ttl s (.finish d outcome now) = some t) :
    ∃ e record, s.executing d = some e ∧ e.closing = false ∧ t.clock = s.clock ∧
      upsertRun s.store e.runId autonomousKind (terminalWrite e.goal outcome).status
        (terminalWrite e.goal outcome).payload none (terminalWrite e.goal outcome).error now =
        some (t.store, record) ∧
      t.executing = Function.update s.executing d (some { e with closing := true }) := by
  simp only [step] at h
  split at h
  · cases h
  · rename_i e he
    split_ifs at h with hg
    obtain ⟨⟨store, record⟩, hu, rfl⟩ := Option.map_eq_some_iff.mp h
    exact ⟨e, record, he, hg.1, rfl, hu, rfl⟩

theorem step_release {d : D} (h : step ttl s (.release d) = some t) :
    (∃ e, s.executing d = some e ∧ e.closing = true) ∧
      t = { s with executing := Function.update s.executing d none } := by
  simp only [step] at h
  split at h
  · cases h
  · rename_i e he
    split_ifs at h with hc
    cases h
    exact ⟨⟨e, he, hc⟩, rfl⟩

theorem step_crash {dead : D → Bool} (h : step ttl s (.crash dead) = some t) :
    t = { s with executing := fun d => if dead d then none else s.executing d } := by
  cases h
  rfl

theorem step_sweep {now : ℤ} (h : step ttl s (.sweep now) = some t) :
    now ≤ s.clock ∧ t = { s with store := sweepStuckRuns s.store ttl now } := by
  simp only [step] at h
  split_ifs at h with hnow
  cases h
  exact ⟨hnow, rfl⟩

theorem step_tick {now : ℤ} (h : step ttl s (.tick now) = some t) :
    s.clock ≤ now ∧ t = { s with clock := now } := by
  simp only [step] at h
  split_ifs at h with hnow
  cases h
  exact ⟨hnow, rfl⟩

inductive RowStep (ttl : ℤ) (s : State D R) (k : String) (r : AgentRun (AutonomousPayload R)) :
    Action D R → AgentRun (AutonomousPayload R) → Prop
  | same (a : Action D R) : RowStep ttl s k r a r
  | claimed (d : D) (goal : String) (now : ℤ) (h : claimable k (now - seconds ttl) r = true) :
      RowStep ttl s k r (.claim d k goal now) { r with status := .running, updatedAt := now }
  | touched (d : D) (e : Execution) (now : ℤ) (h : s.executing d = some e) (hk : e.runId = k) :
      RowStep ttl s k r (.touch d now) { r with updatedAt := now }
  | finished (d : D) (e : Execution) (o : Outcome R) (now : ℤ) (h : s.executing d = some e)
      (hk : e.runId = k) (hc : e.closing = false) :
      RowStep ttl s k r (.finish d o now) { r with
        status := (terminalWrite e.goal o).status
        payload := (terminalWrite e.goal o).payload
        error := (terminalWrite e.goal o).error
        updatedAt := now }
  | swept (now : ℤ) (h : stuck (now - seconds ttl) r = true) :
      RowStep ttl s k r (.sweep now)
        { r with status := .failed, error := some (stuckError ttl), updatedAt := now }

theorem step_row {a : Action D R} {k : String} {r : AgentRun (AutonomousPayload R)}
    (h : step ttl s a = some t) (hr : s.store.get k = some r) :
    ∃ r', t.store.get k = some r' ∧ RowStep ttl s k r a r' := by
  have hid : r.id = k := Table.key_of_get hr
  cases a with
  | submit runId goal key now =>
    obtain ⟨_, record, hc, _, _⟩ := step_submit h
    refine ⟨r, ?_, .same _⟩
    rcases createRun_cases hc with ⟨_, hnone, hget⟩ | he
    · have hne : runId ≠ k := by rintro rfl; simp [hnone] at hr
      rw [hget, if_neg hne, hr]
    · rw [he, hr]
  | claim d runId goal now =>
    obtain ⟨_, _, _, hstore, _⟩ := step_claim h
    rw [hstore, get_claimRun, hr]
    by_cases hc : claimable runId (now - seconds ttl) r = true
    · have hk : runId = k := by
        simp only [claimable, Bool.and_eq_true, decide_eq_true_eq] at hc
        exact hc.1.symm.trans hid
      subst hk
      exact ⟨_, by simp [hc], .claimed d goal now hc⟩
    · exact ⟨r, by simp [hc], .same _⟩
  | touch d now =>
    obtain ⟨e, he, _, _, hstore, _⟩ := step_touch h
    rw [hstore, get_touchRun, hr]
    by_cases hk : e.runId = k
    · exact ⟨_, by simp [hid, hk], .touched d e now he hk⟩
    · exact ⟨r, by simp [hid, Ne.symm hk], .same _⟩
  | finish d outcome now =>
    obtain ⟨e, record, he, hc, _, hu, _⟩ := step_finish h
    by_cases hk : e.runId = k
    · subst hk
      obtain ⟨store, hu', hget⟩ := upsertRun_existing hr autonomousKind
        (terminalWrite e.goal outcome).status (terminalWrite e.goal outcome).payload
        (terminalWrite e.goal outcome).error now
      obtain ⟨rfl, _⟩ := Prod.mk.inj (Option.some.inj (hu.symm.trans hu'))
      exact ⟨_, by rw [hget, if_pos rfl], .finished d e outcome now he rfl hc⟩
    · obtain ⟨_, _, _, _, _, hget⟩ := upsertRun_row hu
      exact ⟨r, by rw [hget, if_neg hk, hr], .same _⟩
  | release d =>
    obtain ⟨_, rfl⟩ := step_release h
    exact ⟨r, hr, .same _⟩
  | crash dead =>
    cases h
    exact ⟨r, hr, .same _⟩
  | sweep now =>
    obtain ⟨_, rfl⟩ := step_sweep h
    simp only [get_sweepStuckRuns, hr, Option.map_some]
    by_cases hs : stuck (now - seconds ttl) r = true
    · exact ⟨_, by rw [if_pos hs], .swept now hs⟩
    · exact ⟨r, by rw [if_neg hs], .same _⟩
  | tick now =>
    obtain ⟨_, rfl⟩ := step_tick h
    exact ⟨r, hr, .same _⟩

omit [DecidableEq D] in
theorem RowStep.terminal {a : Action D R} {k : String} {r r' : AgentRun (AutonomousPayload R)}
    (h : RowStep ttl s k r a r') (hr : r.status.Terminal) : r'.status.Terminal := by
  cases h with
  | same => exact hr
  | claimed d goal now hc =>
    simp only [Status.terminal_iff] at hr
    simp [claimable, hr.1, hr.2] at hc
  | touched => exact hr
  | finished d e o now => exact terminalWrite_terminal e.goal o
  | swept => simp

end Workbench.RunLease
