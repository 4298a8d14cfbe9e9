import Workbench.EngineErrors
import Workbench.RunStore
import Workbench.Services
import Mathlib.Logic.Function.Basic

/-!
`workbench_orchestrator.registry` on gateway replicas that share the durable run store, each
request finishing before the next begins.
-/

namespace Workbench.WorkflowRegistry

open KeyedTable RunStore WorkflowEngine

def workflowKind : String := "workflow"

def maxStoredRuns : ℕ := 200

/-- The payload of a row of `agent_runs`: the dump of a workflow run, or that of another kind. -/
inductive RowPayload (D : Type)
  | workflow (run : WorkflowRun D)
  | other
  deriving DecidableEq

variable {D : Type}

/-- `WorkflowRun.model_validate`; `none` is a `ValidationError`. -/
def modelValidate : RowPayload D → Option (WorkflowRun D)
  | .workflow run => some run
  | .other => none

abbrev Cache (D : Type) := Table (WorkflowRun.id (D := D))

abbrev RunRows (D : Type) := RunTable (RowPayload D)

inductive RegistryError
  | keyError (key : String)
  | approvalError (message : String)
  | validationError
  | raised (exc : Exc)
  deriving DecidableEq

structure Gateway (D : Type) where
  cache : Cache D
  store : RunRows D

/-- What the environment of one request does: the calls its drive makes, and the clock of its
store call. -/
structure Env (D : Type) where
  replies : ℕ → Reply D
  now : ℤ

def rowStatus : RunStatus → Status
  | .running => .running
  | .completed => .completed
  | .failed => .failed
  | .awaitingApproval => .awaitingApproval
  | .rejected => .rejected

/-- What the JSON column gives back of a dumped run; `none` when a dict in it is not serialisable. -/
def roundTrip (json : D → Option D) (run : WorkflowRun D) : Option (WorkflowRun D) :=
  (json run.state).bind fun state =>
    (run.attempts.mapM fun a => (json a.updates).map fun updates => { a with updates }).map
      fun attempts => { run with state, attempts }

/-- The best-effort `upsert_run` of `_store`. -/
def upsertWorkflow (json : D → Option D) (store : RunRows D) (run : WorkflowRun D)
    (key : Option String) (now : ℤ) : RunRows D :=
  match roundTrip json run with
  | none => store
  | some payload =>
    match upsertRun store run.id workflowKind (rowStatus run.status) (.workflow payload) key none now with
    | none => store
    | some written => written.1

def evict (cache : Cache D) : Cache D := cache.drop (cache.rows.length - maxStoredRuns)

def storeRun (json : D → Option D) (g : Gateway D) (run : WorkflowRun D) (key : Option String)
    (now : ℤ) : Gateway D :=
  ⟨evict (g.cache.put run), upsertWorkflow json g.store run key now⟩

def load (g : Gateway D) (runId : String) :
    Gateway D × Except RegistryError (Option (WorkflowRun D)) :=
  match g.cache.get runId with
  | some run => (g, .ok (some run))
  | none =>
    match getRun g.store runId with
    | none => (g, .ok none)
    | some record =>
      match modelValidate record.payload with
      | none => (g, .error .validationError)
      | some run => (⟨g.cache.put run, g.store⟩, .ok (some run))

variable [StateDict D]

/-- `runId` and `createdAt` are what `execute` draws for a new run. -/
def runWorkflow (workflows : Table WorkflowDef.name) (json : D → Option D) (g : Gateway D)
    (name : String) (inputState : D) (key : Option String) (runId createdAt : String) (env : Env D) :
    Gateway D × Except RegistryError (WorkflowRun D) :=
  match key.bind (getRunByIdempotencyKey g.store workflowKind) with
  | some existing =>
    match modelValidate existing.payload with
    | none => (g, .error .validationError)
    | some run => (⟨g.cache.put run, g.store⟩, .ok run)
  | none =>
    match workflows.get name with
    | none => (g, .error (.keyError name))
    | some wf =>
      let d := complete wf env.replies (execute wf runId createdAt inputState)
      match d.point with
      | .raised exc => (g, .error (.raised exc))
      | _ => (storeRun json g d.run key env.now, .ok d.run)

/-- The cached run is the object that `resume` drives: a raise leaves it there as it is then. -/
def resumeRun (workflows : Table WorkflowDef.name) (json : D → Option D) (g : Gateway D)
    (runId : String) (c : Decision) (env : Env D) :
    Gateway D × Except RegistryError (WorkflowRun D) :=
  match load g runId with
  | (g, .error e) => (g, .error e)
  | (g, .ok none) => (g, .error (.keyError runId))
  | (g, .ok (some run)) =>
    match workflows.get run.workflow with
    | none => (g, .error (.keyError run.workflow))
    | some wf =>
      match resume wf run c with
      | .error message => (g, .error (.approvalError message))
      | .ok d =>
        let d := complete wf env.replies d
        match d.point with
        | .raised exc => (⟨g.cache.put d.run, g.store⟩, .error (.raised exc))
        | _ => (storeRun json g d.run none env.now, .ok d.run)

structure Cluster (I D : Type) where
  caches : I → Cache D
  store : RunRows D

inductive Request (I D : Type)
  | runWorkflow (i : I) (name : String) (inputState : D) (key : Option String)
      (runId createdAt : String) (env : Env D)
  | getRun (i : I) (runId : String)
  | resumeRun (i : I) (runId : String) (c : Decision) (env : Env D)
  | restart (i : I)

abbrev Response (D : Type) := Except RegistryError (Option (WorkflowRun D))

variable {I : Type} [DecidableEq I]

def Cluster.gateway (c : Cluster I D) (i : I) : Gateway D := ⟨c.caches i, c.store⟩

def Cluster.set (c : Cluster I D) (i : I) (g : Gateway D) : Cluster I D :=
  ⟨Function.update c.caches i g.cache, g.store⟩

def handle (workflows : Table WorkflowDef.name) (json : D → Option D) (c : Cluster I D) :
    Request I D → Cluster I D × Response D
  | .runWorkflow i name inputState key runId createdAt env =>
    let served := runWorkflow workflows json (c.gateway i) name inputState key runId createdAt env
    (c.set i served.1, served.2.map some)
  | .getRun i runId =>
    let served := load (c.gateway i) runId
    (c.set i served.1, served.2)
  | .resumeRun i runId d env =>
    let served := resumeRun workflows json (c.gateway i) runId d env
    (c.set i served.1, served.2.map some)
  | .restart i => (c.set i ⟨Table.empty _, c.store⟩, .ok none)

def deployed (I : Type) (rows : RunTable Unit) : Cluster I D where
  caches _ := Table.empty _
  store :=
    { rows := rows.rows.map fun r => { r with payload := .other }
      unique := by
        rw [List.map_map]
        exact rows.unique }

def lookup (g : Gateway D) (runId : String) : Option (WorkflowRun D) :=
  (g.cache.get runId).or ((g.store.get runId).bind fun row => modelValidate row.payload)

omit [StateDict D] in
theorem roundTrip_id {json : D → Option D} {run run' : WorkflowRun D}
    (h : roundTrip json run = some run') : ∃ state attempts, run' = { run with state, attempts } := by
  obtain ⟨state, _, h⟩ := Option.bind_eq_some_iff.mp h
  obtain ⟨attempts, _, rfl⟩ := Option.map_eq_some_iff.mp h
  exact ⟨state, attempts, rfl⟩

omit [StateDict D] in
theorem attempts_roundTrip_isSome {json : D → Option D} {attempts : List (StepAttempt D)}
    (h : ∀ a ∈ attempts, (json a.updates).isSome) :
    (attempts.mapM fun a => (json a.updates).map fun updates => { a with updates }).isSome := by
  induction attempts with
  | nil => rfl
  | cons a rest ih =>
    obtain ⟨updates, hupdates⟩ := Option.isSome_iff_exists.mp (h a (by simp))
    obtain ⟨rest', hrest⟩ := Option.isSome_iff_exists.mp (ih fun b hb => h b (by simp [hb]))
    rw [List.mapM_cons, hupdates, hrest]
    rfl

omit [StateDict D] in
theorem get_upsertWorkflow {json : D → Option D} {store : RunRows D} {run : WorkflowRun D}
    {key : Option String} {now : ℤ} {k : String} {row : AgentRun (RowPayload D)}
    (h : (upsertWorkflow json store run key now).get k = some row) : store.get k = some row ∨
      k = run.id ∧ row.status = rowStatus run.status ∧
        ∃ run', roundTrip json run = some run' ∧ row.payload = .workflow run' := by
  unfold upsertWorkflow at h
  split at h
  · exact .inl h
  · rename_i run' hrun'
    split at h
    · exact .inl h
    · rename_i written hw
      obtain ⟨_, hstatus, hpayload, _, _, hget⟩ := upsertRun_row (show _ = some (_, _) from hw)
      rw [hget] at h
      split_ifs at h with hk
      · cases h
        exact .inr ⟨hk.symm, hstatus, run', hrun', hpayload⟩
      · exact .inl h

omit [StateDict D] in
theorem upsertWorkflow_own {json : D → Option D} {store : RunRows D} {run payload : WorkflowRun D}
    {key : Option String} {now : ℤ} {row : AgentRun (RowPayload D)}
    (hp : roundTrip json run = some payload) (hkey : key = none ∨ store.get run.id = none)
    (h : (upsertWorkflow json store run key now).get run.id = some row) :
    row.payload = .workflow payload := by
  simp only [upsertWorkflow, hp] at h
  split at h
  · rename_i hu
    rcases hkey with rfl | hnone
    · cases hold : store.get run.id with
      | none => simp [hold] at h
      | some old =>
        obtain ⟨t', ht, _⟩ := upsertRun_existing hold workflowKind (rowStatus run.status)
          (.workflow payload) none now
        rw [ht] at hu
        cases hu
    · rw [hnone] at h
      cases h
  · rename_i written hw
    obtain ⟨_, _, hpayload, _, _, hget⟩ := upsertRun_row (show _ = some (_, _) from hw)
    rw [hget, if_pos rfl] at h
    cases h
    exact hpayload

omit [StateDict D] in
theorem load_cases (g : Gateway D) (runId : String) :
    (∃ run, load g runId = (g, .ok (some run)) ∧ g.cache.get runId = some run) ∨
      load g runId = (g, .ok none) ∧ g.cache.get runId = none ∧ g.store.get runId = none ∨
      (∃ row, load g runId = (g, .error .validationError) ∧ g.cache.get runId = none ∧
        g.store.get runId = some row ∧ modelValidate row.payload = none) ∨
      ∃ row run, load g runId = (⟨g.cache.put run, g.store⟩, .ok (some run)) ∧
        g.cache.get runId = none ∧ g.store.get runId = some row ∧
        modelValidate row.payload = some run := by
  unfold load
  cases hc : g.cache.get runId with
  | some run => exact .inl ⟨run, rfl, rfl⟩
  | none =>
    cases hs : g.store.get runId with
    | none => exact .inr (.inl ⟨by simp [getRun, hs], rfl, rfl⟩)
    | some row =>
      cases hm : modelValidate row.payload with
      | none => exact .inr (.inr (.inl ⟨row, by simp [getRun, hs, hm], rfl, rfl, hm⟩))
      | some run => exact .inr (.inr (.inr ⟨row, run, by simp [getRun, hs, hm], rfl, rfl, hm⟩))

end Workbench.WorkflowRegistry
