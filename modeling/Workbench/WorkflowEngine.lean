import Workbench.WorkflowTypes
import Workbench.Transitions

/-!
`workbench_orchestrator.engine`: `_drive` as the machine of its suspension points. It stops at
every call out to a step, to `asyncio.sleep` and to a branch function, and a reply of the
environment takes it to the next point.
-/

namespace Workbench.WorkflowEngine

def maxStepsPerRun : ℕ := 25

/-- An exception; its class is known by its name. -/
structure Exc where
  typeName : String
  message : String
  deriving DecidableEq

variable {D : Type}

/-- How a call of `step.run` ends: with its updates, with an `Exception`, or with a `BaseException`
that is none, such as a `CancelledError` or a `SystemExit`. -/
inductive StepResult (D : Type)
  | ok (updates : Option D)
  | error (exc : Exc)
  | escape (exc : Exc)
  deriving DecidableEq

def StepResult.ofExcept : Except Exc D → StepResult D
  | .ok updates => .ok (some updates)
  | .error exc => .error exc

structure StepReply (D : Type) where
  latencyMs : ℤ
  state : D
  result : StepResult D

structure BranchReply (D : Type) where
  state : D
  result : Except Exc (Option String)
  deriving DecidableEq

/-- The reply to the next call, of whichever kind it is. -/
structure Reply (D : Type) where
  step : StepReply D
  branch : BranchReply D

/-- Where `_drive` is suspended, or how it ended. -/
inductive Point
  | running (step : Step) (attempt : ℤ)
  | sleeping (step : Step) (attempt : ℤ)
  | branching (step : Step)
  | returned
  | raised (exc : Exc)
  deriving DecidableEq

structure Drive (D : Type) where
  approved : List String
  run : WorkflowRun D
  point : Point
  deriving DecidableEq

def Point.Ended : Point → Prop
  | .returned => True
  | .raised _ => True
  | _ => False

instance (p : Point) : Decidable p.Ended := by
  cases p <;> unfold Point.Ended <;> infer_instance

/-- A `StopIteration` that leaves a coroutine. -/
def stopIteration : Exc := ⟨"RuntimeError", "coroutine raised StopIteration"⟩

def budgetError : String :=
  "step budget exceeded (" ++ toString maxStepsPerRun ++ ") — branch cycle?"

def attemptsError (step : Step) : String :=
  "step '" ++ step.name ++ "' failed after " ++ toString step.maxAttempts ++ " attempt(s)"

def approvalPrompt (step : Step) : String :=
  match step.approvalPrompt with
  | some prompt => if prompt = "" then "Approve step '" ++ step.name ++ "'?" else prompt
  | none => "Approve step '" ++ step.name ++ "'?"

def approvedSteps (run : WorkflowRun D) : List String :=
  (run.approvals.filter fun a => a.decision = .approved).map ApprovalRecord.step

def finish (approved : List String) (run : WorkflowRun D) : Drive D :=
  ⟨approved, { run with status := if run.status = .running then .completed else run.status },
    .returned⟩

def tryAttempt (approved : List String) (run : WorkflowRun D) (step : Step) (attempt : ℤ) : Drive D :=
  if attempt ≤ step.maxAttempts then ⟨approved, run, .running step attempt⟩
  else finish approved { run with status := .failed, error := some (attemptsError step) }

/-- The head of the `while` loop, up to the next call out. -/
def loopHead (wf : WorkflowDef) (approved : List String) (run : WorkflowRun D) :
    Option String → Drive D
  | none => finish approved run
  | some current =>
    if maxStepsPerRun ≤ run.stepsExecuted then
      finish approved { run with status := .failed, error := some budgetError }
    else match wf.step current with
      | none => ⟨approved, run, .raised stopIteration⟩
      | some step =>
        if step.requiresApproval ∧ step.name ∉ approved then
          ⟨approved, { run with
            status := .awaitingApproval
            pendingStep := some step.name
            approvalPrompt := some (approvalPrompt step) }, .returned⟩
        else tryAttempt approved { run with stepsExecuted := run.stepsExecuted + 1 } step 1

def recordFailure (run : WorkflowRun D) [StateDict D] (step : Step) (attempt : ℤ) (r : StepReply D)
    (exc : Exc) : WorkflowRun D :=
  { run with
    state := r.state
    attempts := run.attempts ++ [⟨step.name, attempt,
      if attempt = step.maxAttempts then .failed else .retried, r.latencyMs,
      some (exc.typeName ++ ": " ++ exc.message), StateDict.empty⟩] }

def recordSuccess (run : WorkflowRun D) [StateDict D] (step : Step) (attempt : ℤ) (r : StepReply D)
    (updates : Option D) : WorkflowRun D :=
  { run with
    state := StateDict.update r.state (updates.getD StateDict.empty)
    attempts := run.attempts ++ [⟨step.name, attempt, .succeeded, r.latencyMs, none,
      updates.getD StateDict.empty⟩] }

def advance (wf : WorkflowDef) (approved : List String) (run : WorkflowRun D) (step : Step) : Drive D :=
  match step.next with
  | .stop => loopHead wf approved run none
  | .goto name => loopHead wf approved run (some name)
  | .branch => ⟨approved, run, .branching step⟩

/-- `_drive` from one call out to the next; `none` once it has ended. -/
def answer [StateDict D] (wf : WorkflowDef) (d : Drive D) (r : Reply D) : Option (Drive D) :=
  match d.point with
  | .running step attempt =>
    match r.step.result with
    | .error exc =>
      let run := recordFailure d.run step attempt r.step exc
      if attempt ≠ step.maxAttempts ∧ step.retryDelayS ≠ 0 then
        some ⟨d.approved, run, .sleeping step attempt⟩
      else some (tryAttempt d.approved run step (attempt + 1))
    | .ok updates => some (advance wf d.approved (recordSuccess d.run step attempt r.step updates) step)
    -- `except Exception` lets it through
    | .escape exc => some ⟨d.approved, { d.run with state := r.step.state }, .raised exc⟩
  | .sleeping step attempt => some (tryAttempt d.approved d.run step (attempt + 1))
  | .branching _ =>
    let run := { d.run with state := r.branch.state }
    match r.branch.result with
    | .error exc => some ⟨d.approved, run, .raised exc⟩
    | .ok current => some (loopHead wf d.approved run current)
  | .returned => none
  | .raised _ => none

def drive (wf : WorkflowDef) (run : WorkflowRun D) (current : String) : Drive D :=
  loopHead wf (approvedSteps run) run (some current)

def newRun (wf : WorkflowDef) (id createdAt : String) (inputState : D) : WorkflowRun D :=
  ⟨id, wf.name, .running, createdAt, inputState, [], [], none, none, none, 0⟩

def execute (wf : WorkflowDef) (id createdAt : String) (inputState : D) : Drive D :=
  drive wf (newRun wf id createdAt inputState) wf.entry

structure Decision where
  decision : ApprovalDecision
  actor : String
  reason : Option String
  decidedAt : String
  deriving DecidableEq

def approvalError (run : WorkflowRun D) : String :=
  "run " ++ run.id ++ " is not awaiting approval (status=" ++ run.status.text ++ ")"

def recordDecision (run : WorkflowRun D) (gate : String) (c : Decision) : WorkflowRun D :=
  { run with
    approvals := run.approvals ++ [⟨gate, c.decision, c.actor, c.reason, c.decidedAt⟩]
    pendingStep := none
    approvalPrompt := none }

/-- The error is an `ApprovalError`, raised before the run is touched. -/
def resume (wf : WorkflowDef) (run : WorkflowRun D) (c : Decision) : Except String (Drive D) :=
  match run.status, run.pendingStep with
  | .awaitingApproval, some gate =>
    let decided := recordDecision run gate c
    match c.decision with
    | .rejected => .ok ⟨[], { decided with
        status := .rejected
        error := some ("step '" ++ gate ++ "' rejected by " ++ c.actor) }, .returned⟩
    | .approved => .ok (drive wf { decided with status := .running } gate)
  | _, _ => .error (approvalError run)

inductive HeadTo (wf : WorkflowDef) (approved : List String) (run : WorkflowRun D) :
    Option String → Drive D → Prop
  | done : HeadTo wf approved run none (finish approved run)
  | exhausted (name : String) (hb : maxStepsPerRun ≤ run.stepsExecuted) :
      HeadTo wf approved run (some name)
        (finish approved { run with status := .failed, error := some budgetError })
  | unknown (name : String) (hb : run.stepsExecuted < maxStepsPerRun) (hs : wf.step name = none) :
      HeadTo wf approved run (some name) ⟨approved, run, .raised stopIteration⟩
  | suspends (name : String) (step : Step) (hb : run.stepsExecuted < maxStepsPerRun)
      (hs : wf.step name = some step) (hr : step.requiresApproval = true)
      (ha : step.name ∉ approved) :
      HeadTo wf approved run (some name) ⟨approved, { run with
        status := .awaitingApproval
        pendingStep := some step.name
        approvalPrompt := some (approvalPrompt step) }, .returned⟩
  | begins (name : String) (step : Step) (hb : run.stepsExecuted < maxStepsPerRun)
      (hs : wf.step name = some step) (ha : step.requiresApproval = true → step.name ∈ approved)
      (hm : 1 ≤ step.maxAttempts) :
      HeadTo wf approved run (some name)
        ⟨approved, { run with stepsExecuted := run.stepsExecuted + 1 }, .running step 1⟩
  | skips (name : String) (step : Step) (hb : run.stepsExecuted < maxStepsPerRun)
      (hs : wf.step name = some step) (ha : step.requiresApproval = true → step.name ∈ approved)
      (hm : step.maxAttempts < 1) :
      HeadTo wf approved run (some name) (finish approved { run with
        stepsExecuted := run.stepsExecuted + 1
        status := .failed
        error := some (attemptsError step) })

theorem loopHead_cases (wf : WorkflowDef) (approved : List String) (run : WorkflowRun D)
    (current : Option String) : HeadTo wf approved run current (loopHead wf approved run current) := by
  cases current with
  | none => exact .done
  | some name =>
    simp only [loopHead]
    split_ifs with hb
    · exact .exhausted name hb
    · have hb := Nat.lt_of_not_le hb
      cases hs : wf.step name with
      | none => exact .unknown name hb hs
      | some step =>
        simp only
        split_ifs with hg
        · exact .suspends name step hb hs hg.1 hg.2
        · have ha : step.requiresApproval = true → step.name ∈ approved := fun hr => by
            by_contra hn
            exact hg ⟨hr, hn⟩
          unfold tryAttempt
          split_ifs with hm
          · exact .begins name step hb hs ha hm
          · exact .skips name step hb hs ha (by omega)

inductive AnswerTo [StateDict D] (wf : WorkflowDef) (d : Drive D) (r : Reply D) : Drive D → Prop
  | sleeps (step : Step) (n : ℤ) (exc : Exc) (hp : d.point = .running step n)
      (hr : r.step.result = .error exc) (hn : n ≠ step.maxAttempts) : AnswerTo wf d r
        ⟨d.approved, recordFailure d.run step n r.step exc, .sleeping step n⟩
  | retries (step : Step) (n : ℤ) (exc : Exc) (hp : d.point = .running step n)
      (hr : r.step.result = .error exc) (hn : n + 1 ≤ step.maxAttempts) : AnswerTo wf d r
        ⟨d.approved, recordFailure d.run step n r.step exc, .running step (n + 1)⟩
  | fails (step : Step) (n : ℤ) (exc : Exc) (hp : d.point = .running step n)
      (hr : r.step.result = .error exc) : AnswerTo wf d r (finish d.approved
        { recordFailure d.run step n r.step exc with
          status := .failed
          error := some (attemptsError step) })
  | branches (step : Step) (n : ℤ) (updates : Option D) (hp : d.point = .running step n)
      (hr : r.step.result = .ok updates) (hn : step.next = .branch) : AnswerTo wf d r
        ⟨d.approved, recordSuccess d.run step n r.step updates, .branching step⟩
  | stops (step : Step) (n : ℤ) (updates : Option D) (hp : d.point = .running step n)
      (hr : r.step.result = .ok updates) (hn : step.next = .stop) : AnswerTo wf d r
        (loopHead wf d.approved (recordSuccess d.run step n r.step updates) none)
  | goes (step : Step) (n : ℤ) (updates : Option D) (name : String)
      (hp : d.point = .running step n) (hr : r.step.result = .ok updates)
      (hn : step.next = .goto name) : AnswerTo wf d r
        (loopHead wf d.approved (recordSuccess d.run step n r.step updates) (some name))
  | wakes (step : Step) (n : ℤ) (hp : d.point = .sleeping step n) (hn : n + 1 ≤ step.maxAttempts) :
      AnswerTo wf d r ⟨d.approved, d.run, .running step (n + 1)⟩
  | oversleeps (step : Step) (n : ℤ) (hp : d.point = .sleeping step n) : AnswerTo wf d r
      (finish d.approved { d.run with status := .failed, error := some (attemptsError step) })
  | escapes (step : Step) (n : ℤ) (exc : Exc) (hp : d.point = .running step n)
      (hr : r.step.result = .escape exc) : AnswerTo wf d r
        ⟨d.approved, { d.run with state := r.step.state }, .raised exc⟩
  | raises (step : Step) (exc : Exc) (hp : d.point = .branching step)
      (hr : r.branch.result = .error exc) : AnswerTo wf d r
        ⟨d.approved, { d.run with state := r.branch.state }, .raised exc⟩
  | chooses (step : Step) (current : Option String) (hp : d.point = .branching step)
      (hr : r.branch.result = .ok current) : AnswerTo wf d r
        (loopHead wf d.approved { d.run with state := r.branch.state } current)

theorem answer_cases [StateDict D] {wf : WorkflowDef} {d t : Drive D} {r : Reply D}
    (h : answer wf d r = some t) : AnswerTo wf d r t := by
  unfold answer at h
  split at h
  · rename_i step n hp
    split at h
    · rename_i exc hr
      simp only at h
      split_ifs at h with hs
      · cases h
        exact .sleeps step n exc hp hr hs.1
      · unfold tryAttempt at h
        split_ifs at h with hn
        · cases h
          exact .retries step n exc hp hr hn
        · cases h
          exact .fails step n exc hp hr
    · rename_i updates hr
      unfold advance at h
      split at h
      · cases h
        exact .stops step n updates hp hr ‹_›
      · cases h
        exact .goes step n updates _ hp hr ‹_›
      · cases h
        exact .branches step n updates hp hr ‹_›
    · cases h
      exact .escapes step n _ hp ‹_›
  · rename_i step n hp
    unfold tryAttempt at h
    split_ifs at h with hn
    · cases h
      exact .wakes step n hp hn
    · cases h
      exact .oversleeps step n hp
  · rename_i step hp
    simp only at h
    split at h
    · cases h
      exact .raises step _ hp ‹_›
    · cases h
      exact .chooses step _ hp ‹_›
  · cases h
  · cases h

theorem answer_eq_none [StateDict D] {wf : WorkflowDef} {d : Drive D} {r : Reply D} :
    answer wf d r = none ↔ d.point.Ended := by
  unfold answer
  cases hp : d.point with
  | running step n =>
    cases hr : r.step.result with
    | error exc =>
      simp only [Point.Ended, iff_false]
      split_ifs <;> simp
    | ok updates => simp [Point.Ended]
    | escape exc => simp [Point.Ended]
  | sleeping step n => simp [Point.Ended]
  | branching step => cases hr : r.branch.result <;> simp [Point.Ended]
  | returned => simp [Point.Ended]
  | raised exc => simp [Point.Ended]

theorem live_of_answer [StateDict D] {wf : WorkflowDef} {d t : Drive D} {r : Reply D}
    (h : answer wf d r = some t) : ¬ d.point.Ended := by
  intro hended
  rw [answer_eq_none.mpr hended] at h
  cases h

theorem resume_cases {wf : WorkflowDef} {run : WorkflowRun D} {c : Decision} {t : Drive D}
    (h : resume wf run c = .ok t) : ∃ gate, run.status = .awaitingApproval ∧
      run.pendingStep = some gate ∧
        (c.decision = .rejected ∧ t = ⟨[], { recordDecision run gate c with
          status := .rejected
          error := some ("step '" ++ gate ++ "' rejected by " ++ c.actor) }, .returned⟩ ∨
        c.decision = .approved ∧
          t = drive wf { recordDecision run gate c with status := .running } gate) := by
  unfold resume at h
  split at h
  · rename_i gate hs hp
    simp only at h
    split at h
    · cases h
      exact ⟨gate, hs, hp, .inl ⟨‹_›, rfl⟩⟩
    · cases h
      exact ⟨gate, hs, hp, .inr ⟨‹_›, rfl⟩⟩
  · cases h

end Workbench.WorkflowEngine
