import Workbench.EngineRuns

namespace Workbench.WorkflowEngine

variable {D : Type}

def StepAttempt.bare (a : StepAttempt D) : String × ℤ × StepStatus × ℤ × Option String :=
  (a.step, a.attempt, a.status, a.latencyMs, a.error)

def Alike (run run' : WorkflowRun D) : Prop :=
  ∃ attempts, run' = { run with attempts } ∧
    attempts.map StepAttempt.bare = run.attempts.map StepAttempt.bare

structure AlikeDrives (d d' : Drive D) : Prop where
  approved : d'.approved = d.approved
  point : d'.point = d.point
  run : Alike d.run d'.run

abbrev Calls (D : Type) := ℕ → Point → D → Reply D

theorem Alike.finish {run run' : WorkflowRun D} (h : Alike run run') (approved : List String) :
    AlikeDrives (finish approved run) (finish approved run') := by
  obtain ⟨attempts, rfl, hattempts⟩ := h
  exact ⟨rfl, rfl, attempts, rfl, hattempts⟩

theorem Alike.fail {run run' : WorkflowRun D} (h : Alike run run') (message : Option String) :
    Alike { run with status := .failed, error := message }
      { run' with status := .failed, error := message } := by
  obtain ⟨attempts, rfl, hattempts⟩ := h
  exact ⟨attempts, rfl, hattempts⟩

theorem Alike.tryAttempt {run run' : WorkflowRun D} (h : Alike run run') (approved : List String)
    (step : Step) (n : ℤ) :
    AlikeDrives (tryAttempt approved run step n) (tryAttempt approved run' step n) := by
  unfold WorkflowEngine.tryAttempt
  split_ifs
  · exact ⟨rfl, rfl, h⟩
  · exact (h.fail _).finish approved

theorem Alike.loopHead {run run' : WorkflowRun D} (h : Alike run run') (wf : WorkflowDef)
    (approved : List String) (current : Option String) :
    AlikeDrives (loopHead wf approved run current) (loopHead wf approved run' current) := by
  obtain ⟨attempts, rfl, hattempts⟩ := h
  have hsame : Alike run { run with attempts } := ⟨attempts, rfl, hattempts⟩
  cases current with
  | none => exact hsame.finish approved
  | some name =>
    simp only [WorkflowEngine.loopHead]
    split_ifs
    · exact (hsame.fail _).finish approved
    · cases wf.step name with
      | none => exact ⟨rfl, rfl, hsame⟩
      | some step =>
        simp only
        split_ifs
        · exact ⟨rfl, rfl, attempts, rfl, hattempts⟩
        · refine Alike.tryAttempt ?_ approved step 1
          exact ⟨attempts, rfl, hattempts⟩

variable [StateDict D]

theorem Alike.recordFailure {run run' : WorkflowRun D} (h : Alike run run') (step : Step) (n : ℤ)
    (r : StepReply D) (exc : Exc) :
    Alike (recordFailure run step n r exc) (recordFailure run' step n r exc) := by
  obtain ⟨attempts, rfl, hattempts⟩ := h
  refine ⟨_, rfl, ?_⟩
  simp [WorkflowEngine.recordFailure, hattempts]

theorem Alike.recordSuccess {run run' : WorkflowRun D} (h : Alike run run') (step : Step) (n : ℤ)
    (r : StepReply D) (updates : Option D) :
    Alike (recordSuccess run step n r updates) (recordSuccess run' step n r updates) := by
  obtain ⟨attempts, rfl, hattempts⟩ := h
  refine ⟨_, rfl, ?_⟩
  simp [WorkflowEngine.recordSuccess, hattempts]

theorem AlikeDrives.answer {d d' : Drive D} (h : AlikeDrives d d') (wf : WorkflowDef)
    (r : Reply D) :
    answer wf d r = none ∧ answer wf d' r = none ∨
      ∃ t t', answer wf d r = some t ∧ answer wf d' r = some t' ∧ AlikeDrives t t' := by
  obtain ⟨happroved, hpoint, hrun⟩ := h
  have hmoved (state : D) : Alike { d.run with state } { d'.run with state } := by
    obtain ⟨attempts, hrun, hattempts⟩ := hrun
    exact ⟨attempts, by rw [hrun], hattempts⟩
  unfold WorkflowEngine.answer
  rw [hpoint, happroved]
  cases d.point with
  | running step n =>
    right
    cases r.step.result with
    | error exc =>
      have hfailure := hrun.recordFailure step n r.step exc
      simp only
      split_ifs
      · exact ⟨_, _, rfl, rfl, rfl, rfl, hfailure⟩
      · exact ⟨_, _, rfl, rfl, hfailure.tryAttempt d.approved step (n + 1)⟩
    | ok updates =>
      have hsuccess := hrun.recordSuccess step n r.step updates
      refine ⟨_, _, rfl, rfl, ?_⟩
      unfold advance
      cases step.next with
      | stop => exact hsuccess.loopHead wf d.approved none
      | goto name => exact hsuccess.loopHead wf d.approved (some name)
      | branch => exact ⟨rfl, rfl, hsuccess⟩
    | escape exc => exact ⟨_, _, rfl, rfl, rfl, rfl, hmoved r.step.state⟩
  | sleeping step n => exact .inr ⟨_, _, rfl, rfl, hrun.tryAttempt d.approved step (n + 1)⟩
  | branching step =>
    right
    cases r.branch.result with
    | error exc => exact ⟨_, _, rfl, rfl, rfl, rfl, hmoved r.branch.state⟩
    | ok current =>
      exact ⟨_, _, rfl, rfl, (hmoved r.branch.state).loopHead wf d.approved current⟩
  | returned => exact .inl ⟨rfl, rfl⟩
  | raised exc => exact .inl ⟨rfl, rfl⟩

theorem AlikeDrives.play {d d' : Drive D} (h : AlikeDrives d d') (wf : WorkflowDef)
    (rs : List (Reply D)) :
    AlikeDrives (play wf d rs) (play wf d' rs) := by
  induction rs generalizing d d' with
  | nil => exact h
  | cons r rs ih =>
    simp only [WorkflowEngine.play]
    rcases h.answer wf r with ⟨ha, ha'⟩ | ⟨t, t', ha, ha', ht⟩
    · rw [ha, ha']
      exact h
    · rw [ha, ha']
      exact ih ht

theorem AlikeDrives.complete {d d' : Drive D} (h : AlikeDrives d d') (wf : WorkflowDef)
    (env : ℕ → Reply D) :
    AlikeDrives (complete wf env d) (complete wf env d') := by
  have hfuel : fuel wf d' = fuel wf d := by
    obtain ⟨_, hpoint, attempts, hrun, _⟩ := h
    simp only [fuel, hpoint, hrun]
  rw [WorkflowEngine.complete, WorkflowEngine.complete, hfuel]
  exact h.play wf _

def after (wf : WorkflowDef) (calls : Calls D) (d : Drive D) : ℕ → Drive D
  | 0 => d
  | n + 1 =>
    let s := after wf calls d n
    (answer wf s (calls n s.point s.run.state)).getD s

def perform (wf : WorkflowDef) (calls : Calls D) (d : Drive D) (n : ℕ) : Reply D :=
  calls n (after wf calls d n).point (after wf calls d n).run.state

theorem AlikeDrives.after {d d' : Drive D} (h : AlikeDrives d d') (wf : WorkflowDef)
    (calls : Calls D) (n : ℕ) :
    AlikeDrives (after wf calls d n) (after wf calls d' n) := by
  induction n with
  | zero => exact h
  | succ n ih =>
    have hstate : (WorkflowEngine.after wf calls d' n).run.state =
        (WorkflowEngine.after wf calls d n).run.state := by
      obtain ⟨attempts, hrun, _⟩ := ih.run
      rw [hrun]
    simp only [WorkflowEngine.after]
    rw [hstate, ih.point]
    rcases ih.answer wf (calls n (WorkflowEngine.after wf calls d n).point
      (WorkflowEngine.after wf calls d n).run.state) with ⟨ha, ha'⟩ | ⟨t, t', ha, ha', ht⟩
    · rw [ha, ha']
      exact ih
    · rw [ha, ha']
      exact ht

theorem AlikeDrives.perform {d d' : Drive D} (h : AlikeDrives d d') (wf : WorkflowDef)
    (calls : Calls D) :
    perform wf calls d' = perform wf calls d := by
  funext n
  have hafter := h.after wf calls n
  have hstate : (WorkflowEngine.after wf calls d' n).run.state =
      (WorkflowEngine.after wf calls d n).run.state := by
    obtain ⟨attempts, hrun, _⟩ := hafter.run
    rw [hrun]
  simp only [WorkflowEngine.perform]
  rw [hstate, hafter.point]

omit [StateDict D] in
theorem Alike.resume {run run' : WorkflowRun D} (h : Alike run run') (wf : WorkflowDef)
    (c : Decision) :
    (∃ message, resume wf run c = .error message ∧ resume wf run' c = .error message) ∨
      ∃ d d', resume wf run c = .ok d ∧ resume wf run' c = .ok d' ∧ AlikeDrives d d' := by
  obtain ⟨attempts, rfl, hattempts⟩ := h
  unfold WorkflowEngine.resume
  simp only
  split
  · rename_i gate hs hp
    right
    cases c.decision with
    | rejected => exact ⟨_, _, rfl, rfl, rfl, rfl, attempts, rfl, hattempts⟩
    | approved =>
      refine ⟨_, _, rfl, rfl, ?_⟩
      have hresumed : Alike { recordDecision run gate c with status := .running }
          { recordDecision { run with attempts } gate c with status := .running } :=
        ⟨attempts, rfl, hattempts⟩
      exact hresumed.loopHead wf (approvedSteps { recordDecision run gate c with status := .running })
        (some gate)
  · exact .inl ⟨_, rfl, rfl⟩

end Workbench.WorkflowEngine
