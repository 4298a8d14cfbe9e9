import Workbench.BriefRuns
import Workbench.EngineErrors

namespace Workbench.DemoWorkflows

open KeyedTable PyJson Verdicts WorkflowEngine Transitions

variable {J : Type} (lib : VerdictLibrary J) (input : State)

structure Requested (s : State) : Prop where
  named : stripped lib input "resource" ≠ "" ∧ stripped lib input "requester" ≠ ""
  resource : item s "resource" = .ok (.str (stripped lib input "resource"))
  requester : item s "requester" = .ok (.str (stripped lib input "requester"))

structure Assessed (s : State) : Prop extends Requested lib input s where
  assessment : ∃ text, item s "risk_assessment" = .ok (.str text)

structure Ungranted (run : WorkflowRun State) : Prop where
  steps : run.stepsExecuted ≤ 2
  idle : executed run "grant" = 0
  approvals : run.approvals = []

def Approved (run : WorkflowRun State) (decision : ApprovalDecision) : Prop :=
  ∃ a, run.approvals = [a] ∧ a.step = "grant" ∧ a.decision = decision

inductive Access (approved : List String) (run : WorkflowRun State) : Point → Prop
  | validating (h : Ungranted run) (hn : approved = []) (hr : run.status = .running)
      (hs : run.state = input) (he : run.stepsExecuted = 1) :
      Access approved run (.running validateAccessDef 1)
  | assessing (n : ℕ) (hlt : n < 2) (h : Ungranted run) (hn : approved = [])
      (hr : run.status = .running) (hs : Requested lib input run.state) :
      Access approved run (.running assessDef (n + 1))
  | awaiting (h : Ungranted run) (hr : run.status = .awaitingApproval)
      (hg : run.pendingStep = some "grant") (hs : Assessed lib input run.state) :
      Access approved run .returned
  | failed (h : Ungranted run) (hr : run.status = .failed) : Access approved run .returned
  | rejected (he : executed run "grant" = 0) (ha : Approved run .rejected)
      (hr : run.status = .rejected) (hs : Assessed lib input run.state) :
      Access approved run .returned
  | granting (he : executed run "grant" = 0) (ha : Approved run .approved)
      (hr : run.status = .running) (hs : Assessed lib input run.state) :
      Access approved run (.running grantDef 1)
  | granted (he : executed run "grant" = 1) (ha : Approved run .approved)
      (hr : run.status = .completed) (hs : Assessed lib input run.state)
      (hgranted : item run.state "granted" = .ok (.bool true))
      (hnote : item run.state "grant_note" = .ok (.str (grantNote (stripped lib input "resource")
        (stripped lib input "requester")))) : Access approved run .returned

variable {lib input} {d t : Drive State} {run : WorkflowRun State} {step : Step} {n : ℤ}

theorem Requested.updated {s : State} {rows : List (String × Json)} (h : Requested lib input s)
    (hresource : Table.get (dict rows) "resource" = none)
    (hrequester : Table.get (dict rows) "requester" = none) :
    Requested lib input (StateDict.update s (dict rows)) := by
  refine ⟨h.named, ?_, ?_⟩
  · rw [item_updated, hresource]
    exact h.resource
  · rw [item_updated, hrequester]
    exact h.requester

theorem Ungranted.failure (h : Ungranted run) (step : Step) (n : ℤ) (hstep : step.name ≠ "grant")
    (c : StepCall) (exc : Exc) :
    Ungranted (recordFailure run step n ⟨c.latencyMs, run.state, .error exc⟩ exc) := by
  refine ⟨h.steps, ?_, h.approvals⟩
  rw [executed_recordFailure, h.idle]
  simp [Point.inFlight, hstep]

theorem Ungranted.success (h : Ungranted run) (step : Step) (n : ℤ) (hstep : step.name ≠ "grant")
    (c : StepCall) (updates : State) : Ungranted
      (recordSuccess run step n ⟨c.latencyMs, run.state, .ok (some updates)⟩ (some updates)) := by
  refine ⟨h.steps, ?_, h.approvals⟩
  rw [executed_recordSuccess, h.idle]
  simp [Point.inFlight, hstep]

theorem Ungranted.gives_up (h : Ungranted run) (approved : List String)
    (hn : ¬n ≤ step.maxAttempts) : Access lib input (tryAttempt approved run step n).approved
      (tryAttempt approved run step n).run (tryAttempt approved run step n).point := by
  unfold tryAttempt
  rw [if_neg hn]
  exact .failed ⟨h.steps, h.idle, h.approvals⟩ rfl

theorem Access.validated (c : StepCall) (h : Ungranted d.run) (hn : d.approved = [])
    (hr : d.run.status = .running) (hs : d.run.state = input) (he : d.run.stepsExecuted = 1)
    (hp : d.point = .running validateAccessDef 1)
    (ht : demoStep (accessBehaviour lib) accessRequest d (.call c) = some t) :
    Access lib input t.approved t.run t.point := by
  rw [demoStep_running hp rfl] at ht
  cases ht
  by_cases hempty : stripped lib input "resource" = "" ∨ stripped lib input "requester" = ""
  · have herror : (accessBehaviour lib).run validateAccessDef.name d.run.state c.complete =
        .error ⟨"ValueError", "input must contain non-empty 'resource' and 'requester'"⟩ := by
      simp [accessBehaviour, validateAccessDef, validateAccess, hs, hempty]
    rw [herror]
    exact (h.failure validateAccessDef 1 (by simp [validateAccessDef]) c _).gives_up d.approved (by simp [validateAccessDef])
  · have hok : (accessBehaviour lib).run validateAccessDef.name d.run.state c.complete =
        .ok (dict [("resource", .str (stripped lib input "resource")),
          ("requester", .str (stripped lib input "requester"))]) := by
      simp [accessBehaviour, validateAccessDef, validateAccess, hs, hempty]
    rw [hok]
    have hnext := h.success validateAccessDef 1 (by simp [validateAccessDef]) c
      (dict [("resource", .str (stripped lib input "resource")),
        ("requester", .str (stripped lib input "requester"))])
    dsimp only
    rw [advance_goto d.approved assessDef rfl rfl (by
      change d.run.stepsExecuted < 25
      omega) rfl (by decide)]
    refine .assessing 0 (by omega) ⟨?_, hnext.idle, hnext.approvals⟩ hn hr ⟨not_or.mp hempty, ?_, ?_⟩
    · change d.run.stepsExecuted + 1 ≤ 2
      omega
    · exact item_updated _ _ _
    · exact item_updated _ _ _

theorem Access.assessed {k : ℕ} (c : StepCall) (hlt : k < 2) (h : Ungranted d.run)
    (hn : d.approved = []) (hr : d.run.status = .running) (hs : Requested lib input d.run.state)
    (hp : d.point = .running assessDef (k + 1))
    (ht : demoStep (accessBehaviour lib) accessRequest d (.call c) = some t) :
    Access lib input t.approved t.run t.point := by
  have hrun : (accessBehaviour lib).run assessDef.name d.run.state c.complete =
      (c.complete ⟨assessPrompt (stripped lib input "requester") (stripped lib input "resource"),
        .standard, 256⟩).map fun text => dict [("risk_assessment", .str text)] := by
    simp only [accessBehaviour, assessDef, assessAccess, hs.requester, hs.resource]
    rfl
  rw [demoStep_running hp rfl, hrun] at ht
  cases ht
  cases c.complete ⟨assessPrompt (stripped lib input "requester") (stripped lib input "resource"),
      .standard, 256⟩ with
  | error exc =>
    have hfailed := h.failure assessDef (k + 1) (by simp [assessDef]) c exc
    by_cases hlast : ((k : ℤ) + 1 + 1) ≤ assessDef.maxAttempts
    · simp only [Except.map, tryAttempt, if_pos hlast]
      have hzero : k = 0 := by
        change (k : ℤ) + 1 + 1 ≤ 2 at hlast
        omega
      subst hzero
      exact .assessing 1 (by omega) hfailed hn hr hs
    · exact hfailed.gives_up d.approved hlast
  | ok text =>
    have hnext := h.success assessDef (k + 1) (by simp [assessDef]) c
      (dict [("risk_assessment", .str text)])
    have hbudget : ¬maxStepsPerRun ≤ d.run.stepsExecuted := by
      have hsteps := h.steps
      unfold maxStepsPerRun
      omega
    have hknown : accessRequest.step "grant" = some grantDef := rfl
    have hgate : grantDef.requiresApproval = true ∧ grantDef.name ∉ d.approved := by
      simp [grantDef, hn]
    simp only [Except.map, advance, assessDef, loopHead, recordSuccess, if_neg hbudget, hknown,
      if_pos hgate]
    exact .awaiting ⟨h.steps, hnext.idle, h.approvals⟩ rfl rfl
      ⟨hs.updated rfl rfl, text, item_updated _ _ _⟩

theorem Access.grants (c : StepCall) (he : executed d.run "grant" = 0)
    (ha : Approved d.run .approved) (hr : d.run.status = .running)
    (hs : Assessed lib input d.run.state) (hp : d.point = .running grantDef 1)
    (ht : demoStep (accessBehaviour lib) accessRequest d (.call c) = some t) :
    Access lib input t.approved t.run t.point := by
  have hrun : (accessBehaviour lib).run grantDef.name d.run.state c.complete =
      .ok (dict [("granted", .bool true), ("grant_note", .str (grantNote
        (stripped lib input "resource") (stripped lib input "requester")))]) := by
    simp only [accessBehaviour, grantDef, grantAccess, hs.requester, hs.resource]
    rfl
  rw [demoStep_running hp rfl, hrun] at ht
  cases ht
  have hdone : ∀ (r : StepReply State) (updates : State), advance accessRequest d.approved
      (recordSuccess d.run grantDef 1 r (some updates)) grantDef =
        ⟨d.approved, { recordSuccess d.run grantDef 1 r (some updates) with status := .completed },
          .returned⟩ := fun r updates => advance_stop d.approved rfl hr
  dsimp only
  rw [hdone]
  obtain ⟨text, htext⟩ := hs.assessment
  refine .granted ?_ ha rfl ⟨hs.toRequested.updated rfl rfl, text, ?_⟩ ?_ ?_
  · change executed (recordSuccess d.run grantDef 1 _ _) "grant" = 1
    rw [executed_recordSuccess, he]
    rfl
  · exact (item_updated _ _ _).trans htext
  · exact item_updated _ _ _
  · exact item_updated _ _ _

theorem Access.decided (c : Decision) (h : Ungranted d.run) (hr : d.run.status = .awaitingApproval)
    (hg : d.run.pendingStep = some "grant") (hs : Assessed lib input d.run.state)
    (ht : demoStep (accessBehaviour lib) accessRequest d (.decide c) = some t) :
    Access lib input t.approved t.run t.point := by
  have happrovals : (recordDecision d.run "grant" c).approvals =
      [⟨"grant", c.decision, c.actor, c.reason, c.decidedAt⟩] := by
    simp [recordDecision, h.approvals]
  simp only [demoStep, gateStep, resume, hr, hg] at ht
  cases hc : c.decision with
  | rejected =>
    rw [hc] at ht happrovals
    cases ht
    exact .rejected h.idle ⟨_, happrovals, rfl, rfl⟩ rfl hs
  | approved =>
    rw [hc] at ht happrovals
    cases ht
    have hknown : accessRequest.step "grant" = some grantDef := rfl
    have hmem : "grant" ∈ approvedSteps { recordDecision d.run "grant" c with status := .running } := by
      simp [approvedSteps, happrovals]
    have hsteps := h.steps
    unfold drive
    rw [loopHead_begins grantDef hknown (by
      change d.run.stepsExecuted < 25
      omega) (fun _ => hmem) (by decide)]
    exact .granting h.idle ⟨_, happrovals, rfl, rfl⟩ rfl hs

theorem refused_decision (c : Decision) (hr : d.run.status ≠ .awaitingApproval) :
    resume accessRequest d.run c = .error (approvalError d.run) := by
  unfold resume
  split
  · rename_i hs _
    exact absurd hs hr
  · rfl

theorem Access.moves {a : DemoAction} (h : Access lib input d.approved d.run d.point)
    (ht : demoStep (accessBehaviour lib) accessRequest d a = some t) :
    Access lib input t.approved t.run t.point := by
  have hkept : ∀ c, a = .decide c → d.run.status ≠ .awaitingApproval → t = d := by
    rintro c rfl hr
    simp only [demoStep, gateStep, refused_decision c hr] at ht
    exact (Option.some.inj ht).symm
  have hended : ∀ c, a = .call c → d.point ≠ .returned := by
    rintro c rfl hp
    simp only [demoStep, gateStep, answer, hp] at ht
    cases ht
  cases a with
  | call c =>
    obtain ⟨approved, run, point⟩ := d
    cases h with
    | validating h hn hr hs he => exact Access.validated c h hn hr hs he rfl ht
    | assessing k hlt h hn hr hs => exact Access.assessed c hlt h hn hr hs rfl ht
    | granting he ha hr hs => exact Access.grants c he ha hr hs rfl ht
    | awaiting | failed | rejected | granted => exact absurd rfl (hended c rfl)
  | decide c =>
    by_cases hr : d.run.status = .awaitingApproval
    · obtain ⟨approved, run, point⟩ := d
      cases h with
      | awaiting h _ hg hs => exact Access.decided c h hr hg hs ht
      | validating _ _ h | assessing _ _ _ _ h | failed _ h | rejected _ _ h | granting _ _ h
      | granted _ _ h =>
        rw [hr] at h
        cases h
    · rw [hkept c rfl hr]
      exact h

theorem access_execute (lib : VerdictLibrary J) (id createdAt : String) (input : State) :
    Access lib input (execute accessRequest id createdAt input).approved
      (execute accessRequest id createdAt input).run
      (execute accessRequest id createdAt input).point :=
  .validating ⟨Nat.le_succ 1, rfl, rfl⟩ rfl rfl rfl rfl

theorem access_granted_as_approved (lib : VerdictLibrary J) (id createdAt : String) (input : State)
    (t : Drive State) (h : Reaches (demoStep (accessBehaviour lib) accessRequest) always
      (execute accessRequest id createdAt input) t) :
    executions t "grant" ≤ 1 ∧ (executions t "grant" = 1 ↔ Approved t.run .approved) ∧
      ¬t.point.Raised ∧ (t.run.status = .awaitingApproval → Assessed lib input t.run.state) ∧
      (t.run.status = .completed → Approved t.run .approved ∧ Assessed lib input t.run.state ∧
        item t.run.state "grant_note" = .ok (.str (grantNote (stripped lib input "resource")
          (stripped lib input "requester")))) := by
  have haccess : Access lib input t.approved t.run t.point :=
    h.invariant (I := fun d => Access lib input d.approved d.run d.point)
      (access_execute lib id createdAt input) fun _ _ _ h _ hs => h.moves hs
  have hcount : executed t.run "grant" + t.point.inFlight "grant" = executions t "grant" := rfl
  rw [← hcount]
  have hother : ∀ {a b : ApprovalDecision}, Approved t.run a → a ≠ b → ¬Approved t.run b := by
    rintro a b ⟨x, hx, -, rfl⟩ hne ⟨y, hy, -, rfl⟩
    rw [hx] at hy
    cases hy
    exact hne rfl
  have hnone : Ungranted t.run → ¬Approved t.run .approved := by
    rintro hun ⟨x, hx, -⟩
    rw [hun.approvals] at hx
    cases hx
  generalize t.point = p at haccess ⊢
  cases haccess with
  | validating h _ hr => simp [h.idle, Point.inFlight, validateAccessDef, hnone h, hr, Point.Raised]
  | assessing n _ h _ hr => simp [h.idle, Point.inFlight, assessDef, hnone h, hr, Point.Raised]
  | awaiting h hr _ hs => simp [h.idle, Point.inFlight, hnone h, hr, hs, Point.Raised]
  | failed h hr => simp [h.idle, Point.inFlight, hnone h, hr, Point.Raised]
  | rejected he ha hr hs =>
    have hne : ApprovalDecision.rejected ≠ .approved := by decide
    simp [he, Point.inFlight, hother ha hne, hr, Point.Raised]
  | granting he ha hr hs => simp [he, Point.inFlight, grantDef, ha, hr, Point.Raised]
  | granted he ha hr hs _ hnote => simp [he, Point.inFlight, ha, hr, hs, hnote, Point.Raised]

def approvedRun : List DemoAction :=
  [.call ⟨0, fun _ => .ok ""⟩, .call ⟨0, fun _ => .ok "low"⟩,
    .decide ⟨.approved, "alice", none, "now"⟩, .call ⟨0, fun _ => .ok ""⟩]

theorem access_granted_as_approved_once : ∃ t : Drive State, t.run.status = .completed ∧
    executions t "grant" ≤ 1 ∧ Approved t.run .approved := by
  have hsome : (exec (demoStep (accessBehaviour sampleLibrary) accessRequest)
      (execute accessRequest "r" "now" (dict [("resource", .str "db"), ("requester", .str "ada")]))
      approvedRun).any (fun t => t.run.status = .completed) = true := by decide
  obtain ⟨hrun, hdone⟩ := (Option.any_eq_true_iff_get _ _).mp hsome
  have hreach := reaches_of_exec (Option.some_get hrun).symm (obeys_always _ approvedRun)
  have hcompleted := of_decide_eq_true hdone
  obtain ⟨hle, -, -, -, hgranted⟩ :=
    access_granted_as_approved sampleLibrary "r" "now" _ _ hreach
  exact ⟨_, hcompleted, hle, (hgranted hcompleted).1⟩

end Workbench.DemoWorkflows
