import Workbench.KeyedTable
import Mathlib.Data.Int.Order.Basic
import Mathlib.Data.List.Basic
import Mathlib.Data.Rat.Init

namespace Workbench.WorkflowEngine

open KeyedTable

class StateDict (D : Type) where
  empty : D
  update : D → D → D

abbrev Dict (K V : Type) [DecidableEq K] := Table (Prod.fst : K × V → K)

instance {K V : Type} [DecidableEq K] : StateDict (Dict K V) :=
  ⟨Table.empty _, fun a b => b.rows.foldl Table.put a⟩

instance {K V : Type} [DecidableEq K] [DecidableEq V] : DecidableEq (Dict K V) := fun a b =>
  decidable_of_iff (a.rows = b.rows) ⟨fun h => by cases a; cases b; simp_all, congrArg _⟩

inductive StepStatus
  | succeeded
  | failed
  | retried
  deriving DecidableEq

inductive RunStatus
  | running
  | completed
  | failed
  | awaitingApproval
  | rejected
  deriving DecidableEq

def RunStatus.text : RunStatus → String
  | .running => "running"
  | .completed => "completed"
  | .failed => "failed"
  | .awaitingApproval => "awaiting_approval"
  | .rejected => "rejected"

inductive ApprovalDecision
  | approved
  | rejected
  deriving DecidableEq

structure StepAttempt (D : Type) where
  step : String
  attempt : ℤ
  status : StepStatus
  latencyMs : ℤ
  error : Option String
  updates : D
  deriving DecidableEq

structure ApprovalRecord where
  step : String
  decision : ApprovalDecision
  actor : String
  reason : Option String
  decidedAt : String
  deriving DecidableEq

structure WorkflowRun (D : Type) where
  id : String
  workflow : String
  status : RunStatus
  createdAt : String
  state : D
  attempts : List (StepAttempt D)
  approvals : List ApprovalRecord
  pendingStep : Option String
  approvalPrompt : Option String
  error : Option String
  stepsExecuted : ℕ
  deriving DecidableEq

inductive Next
  | stop
  | goto (name : String)
  | branch
  deriving DecidableEq

/-- What `step.run` and a branch function `step.next` do is up to the replies of the engine's
environment. -/
structure Step where
  name : String
  next : Next
  maxAttempts : ℤ
  retryDelayS : ℚ
  requiresApproval : Bool
  approvalPrompt : Option String
  deriving DecidableEq

/-- A workflow that passes `__post_init__`. -/
structure WorkflowDef where
  name : String
  steps : List Step
  nonempty : steps ≠ []
  unique : (steps.map Step.name).Nodup
  known : ∀ step ∈ steps, ∀ target, step.next = .goto target → target ∈ steps.map Step.name

namespace WorkflowDef

/-- `none` is a `StopIteration`. -/
def step (wf : WorkflowDef) (name : String) : Option Step :=
  Table.get (⟨wf.steps, wf.unique⟩ : Table Step.name) name

def entry (wf : WorkflowDef) : String := (wf.steps.head wf.nonempty).name

theorem step_mem {wf : WorkflowDef} {name : String} {step : Step} (h : wf.step name = some step) :
    step ∈ wf.steps := Table.mem_of_get h

theorem step_name {wf : WorkflowDef} {name : String} {step : Step} (h : wf.step name = some step) :
    step.name = name := Table.key_of_get h

theorem step_of_mem {wf : WorkflowDef} {step : Step} (h : step ∈ wf.steps) :
    wf.step step.name = some step :=
  Table.get_of_mem (t := (⟨wf.steps, wf.unique⟩ : Table Step.name)) h

theorem step_known {wf : WorkflowDef} {name : String} :
    (∃ step, wf.step name = some step) ↔ name ∈ wf.steps.map Step.name := by
  constructor
  · rintro ⟨step, hs⟩
    exact List.mem_map.mpr ⟨step, step_mem hs, step_name hs⟩
  · intro h
    obtain ⟨step, hs, rfl⟩ := List.mem_map.mp h
    exact ⟨step, step_of_mem hs⟩

theorem entry_known (wf : WorkflowDef) : wf.entry ∈ wf.steps.map Step.name :=
  List.mem_map_of_mem (List.head_mem wf.nonempty)

end WorkflowDef

end Workbench.WorkflowEngine
