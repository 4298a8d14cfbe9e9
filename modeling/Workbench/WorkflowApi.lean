import Workbench.EngineFailures
import Workbench.RunDicts
import Mathlib.Algebra.BigOperators.Group.List.Defs

/-!
`workbench_orchestrator.api` over the registry of one gateway, with the trace store that it records
finished runs in. Requests are served one after the other.
-/

namespace Workbench.WorkflowApi

open KeyedTable RunStore WorkflowEngine WorkflowRegistry

variable {D : Type}

structure Trace (D : Type) where
  kind : String
  name : String
  status : String
  latencyMs : ℤ
  costUsd : Option ℚ
  inputTokens : ℤ
  outputTokens : ℤ
  numSteps : ℕ
  error : Option String
  payload : WorkflowRun D

def nonTerminalStatuses : List String := ["running", "awaiting_approval"]

/-- `record_trace`; the JSON column refuses a payload that cannot be serialised, and `safe_record`
swallows that. -/
def recordTrace (json : D → Option D) (traces : List (Trace D)) (trace : Trace D) : List (Trace D) :=
  if trace.status ∈ nonTerminalStatuses then traces
  else match roundTrip json trace.payload with
    | none => traces
    | some payload => traces ++ [{ trace with payload }]

def recordWorkflowRun (json : D → Option D) (traces : List (Trace D)) (run : WorkflowRun D) :
    List (Trace D) :=
  recordTrace json traces ⟨"workflow", run.workflow, run.status.text,
    (run.attempts.map StepAttempt.latencyMs).sum, none, 0, 0, run.stepsExecuted, run.error, run⟩

inductive HttpError
  | unauthorized (detail : String)
  | notFound (detail : String)
  | conflict (detail : String)
  | unavailable (detail : String)
  | internal
  deriving DecidableEq

/-- `_check_approval_token`; `hmac.compare_digest` raises on text that is not ASCII. -/
def checkApprovalToken (required : String) (provided : Option String) : Option HttpError :=
  if required = "" then none
  else if ¬ (required.toList.all Char.isAscii ∧ (provided.getD "").toList.all Char.isAscii) then
    some .internal
  else if provided.getD "" = required then none
  else some (.unauthorized "invalid or missing approval token")

-- a `BaseException` leaves the request without a response, which is `internal` here too
def raisedError (exc : Exc) : HttpError :=
  if exc.typeName = "NoProviderAvailableError" then .unavailable exc.message else .internal

def runError : RegistryError → HttpError
  | .raised exc => raisedError exc
  | _ => .internal

def decideError (runId : String) : RegistryError → HttpError
  | .keyError _ => .notFound ("unknown run: " ++ runId)
  | .approvalError message => .conflict message
  | .validationError => .internal
  | .raised exc =>
    if exc.typeName = "KeyError" then .notFound ("unknown run: " ++ runId)
    else if exc.typeName = "ApprovalError" then .conflict exc.message
    else raisedError exc

structure Settings (D : Type) where
  workflows : Table WorkflowDef.name
  json : D → Option D
  approvalToken : String

structure Desk (D : Type) where
  gateway : Gateway D
  traces : List (Trace D)

inductive Request (D : Type)
  | run (name : String) (inputState : D) (key : Option String) (runId createdAt : String)
      (env : Env D)
  | getRun (runId : String)
  | decide (runId : String) (decision : Decision) (token : Option String) (env : Env D)

abbrev Response (D : Type) := Except HttpError (WorkflowRun D)

variable [StateDict D]

def handle (settings : Settings D) (s : Desk D) : Request D → Desk D × Response D
  | .run name inputState key runId createdAt env =>
    match settings.workflows.get name with
    | none => (s, .error (.notFound ("unknown workflow: " ++ name)))
    | some _ =>
      match runWorkflow settings.workflows settings.json s.gateway name inputState key runId createdAt
        env with
      | (gateway, .error e) => (⟨gateway, s.traces⟩, .error (runError e))
      | (gateway, .ok run) =>
        (⟨gateway, recordWorkflowRun settings.json s.traces run⟩, .ok run)
  | .getRun runId =>
    match load s.gateway runId with
    | (gateway, .error _) => (⟨gateway, s.traces⟩, .error .internal)
    | (gateway, .ok none) => (⟨gateway, s.traces⟩, .error (.notFound ("unknown run: " ++ runId)))
    | (gateway, .ok (some run)) => (⟨gateway, s.traces⟩, .ok run)
  | .decide runId decision token env =>
    match checkApprovalToken settings.approvalToken token with
    | some e => (s, .error e)
    | none =>
      match resumeRun settings.workflows settings.json s.gateway runId decision env with
      | (gateway, .error e) => (⟨gateway, s.traces⟩, .error (decideError runId e))
      | (gateway, .ok run) =>
        (⟨gateway, recordWorkflowRun settings.json s.traces run⟩, .ok run)

def openedDesk (rows : RunTable Unit) : Desk D := ⟨(deployed Unit rows).gateway (), []⟩

def Finished (run : WorkflowRun D) : Prop := run.status.text ∉ nonTerminalStatuses

instance (run : WorkflowRun D) : Decidable (Finished run) := inferInstanceAs (Decidable (_ ∉ _))

omit [StateDict D] in
theorem finished_iff {run : WorkflowRun D} :
    Finished run ↔ run.status ≠ .running ∧ run.status ≠ .awaitingApproval := by
  unfold Finished nonTerminalStatuses
  cases run.status <;> decide

omit [StateDict D] in
theorem finished_congr {run run' : WorkflowRun D} (h : run'.status = run.status) :
    Finished run' ↔ Finished run := by rw [Finished, Finished, h]

omit [StateDict D] in
theorem record_unfinished {json : D → Option D} {traces : List (Trace D)} {run : WorkflowRun D}
    (h : ¬ Finished run) : recordWorkflowRun json traces run = traces := by
  unfold Finished at h
  simp [recordWorkflowRun, recordTrace, not_not.mp h]

omit [StateDict D] in
theorem record_finished {json : D → Option D} {traces : List (Trace D)} {run : WorkflowRun D}
    (h : Finished run) (hj : (roundTrip json run).isSome) (k : String) :
    (recordWorkflowRun json traces run).countP (fun t => t.payload.id = k) =
      traces.countP (fun t => t.payload.id = k) + if run.id = k then 1 else 0 := by
  obtain ⟨payload, hp⟩ := Option.isSome_iff_exists.mp hj
  obtain ⟨state, attempts, rfl⟩ := roundTrip_id hp
  unfold Finished at h
  simp [recordWorkflowRun, recordTrace, h, hp, List.countP_append, List.countP_singleton]

theorem roundTrip_isSome {json : D → Option D} {rule : DictRule D}
    (hrule : ∀ x, rule.holds x ↔ (json x).isSome) {run : WorkflowRun D} (h : RuledRun rule run) :
    (roundTrip json run).isSome := by
  have hupdates : ∀ a ∈ run.attempts, (json a.updates).isSome := by
    intro a ha
    exact (hrule _).mp (h.updates a ha)
  obtain ⟨state, hstate⟩ := Option.isSome_iff_exists.mp ((hrule _).mp h.state)
  obtain ⟨attempts, hmap⟩ := Option.isSome_iff_exists.mp (attempts_roundTrip_isSome hupdates)
  simp [roundTrip, hstate, hmap]

end Workbench.WorkflowApi
