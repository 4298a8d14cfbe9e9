import Workbench.ApprovalGates
import Workbench.EngineErrors

namespace Workbench.WorkflowEngine

open Transitions

variable {D : Type} {wf : WorkflowDef}

def LastRejected (run : WorkflowRun D) : Prop :=
  ∃ record ∈ run.approvals.getLast?, record.decision = .rejected

structure Coherent (wf : WorkflowDef) (run : WorkflowRun D) : Prop where
  pending : run.status = .awaitingApproval ↔ run.pendingStep.isSome
  prompt : run.pendingStep.isSome ↔ run.approvalPrompt.isSome
  gate : ∀ name ∈ run.pendingStep, Gate wf name ∧ name ∉ approvedSteps run
  attempts : ∀ name, Gate wf name → name ∉ approvedSteps run → ∀ a ∈ run.attempts, a.step ≠ name
  error : run.error.isSome ↔ run.status = .failed ∨ run.status = .rejected
  rejected : run.status = .rejected ↔ LastRejected run

def Settled (run : WorkflowRun D) : Prop :=
  run.status = .completed ∨ run.status = .failed ∨ run.status = .rejected

theorem approvedSteps_congr {run run' : WorkflowRun D} (h : run'.approvals = run.approvals) :
    approvedSteps run' = approvedSteps run := by rw [approvedSteps, approvedSteps, h]

theorem Coherent.idle {run : WorkflowRun D} (h : Coherent wf run) (hs : run.status = .running) :
    run.pendingStep = none ∧ run.approvalPrompt = none ∧ run.error = none ∧ ¬ LastRejected run := by
  have hpending : run.pendingStep = none := by
    by_contra hn
    have hawaiting := h.pending.mpr (Option.isSome_iff_ne_none.mpr hn)
    rw [hs] at hawaiting
    cases hawaiting
  refine ⟨hpending, ?_, ?_, ?_⟩
  · by_contra hn
    have hsome := h.prompt.mpr (Option.isSome_iff_ne_none.mpr hn)
    simp [hpending] at hsome
  · by_contra hn
    have hended := h.error.mp (Option.isSome_iff_ne_none.mpr hn)
    simp [hs] at hended
  · intro hl
    have hrejected := h.rejected.mpr hl
    rw [hs] at hrejected
    cases hrejected

structure Extends (wf : WorkflowDef) (run run' : WorkflowRun D) : Prop where
  status : run'.status = run.status
  pendingStep : run'.pendingStep = run.pendingStep
  approvalPrompt : run'.approvalPrompt = run.approvalPrompt
  approvals : run'.approvals = run.approvals
  error : run'.error = run.error
  attempts : ∀ a ∈ run'.attempts, a ∈ run.attempts ∨
    (Gate wf a.step → a.step ∈ approvedSteps run)

theorem Coherent.extend {run run' : WorkflowRun D} (h : Coherent wf run)
    (he : Extends wf run run') : Coherent wf run' where
  pending := by rw [he.status, he.pendingStep]; exact h.pending
  prompt := by rw [he.pendingStep, he.approvalPrompt]; exact h.prompt
  gate name hn := by
    rw [approvedSteps_congr he.approvals]
    exact h.gate name (he.pendingStep ▸ hn)
  attempts name hg ha a hm hname := by
    rw [approvedSteps_congr he.approvals] at ha
    rcases he.attempts a hm with hold | hnew
    · exact h.attempts name hg ha a hold hname
    · subst hname
      exact ha (hnew hg)
  error := by rw [he.error, he.status]; exact h.error
  rejected := by rw [LastRejected, he.status, he.approvals]; exact h.rejected

theorem Coherent.finish {run : WorkflowRun D} (h : Coherent wf run) (hs : run.status = .running)
    (approved : List String) : Coherent wf (finish approved run).run := by
  obtain ⟨hpending, hprompt, herror, hlast⟩ := h.idle hs
  refine ⟨?_, h.prompt, h.gate, h.attempts, ?_, ?_⟩
  · simp [WorkflowEngine.finish, hs, hpending]
  · simp [WorkflowEngine.finish, hs, herror]
  · refine iff_of_false ?_ hlast
    simp [WorkflowEngine.finish, hs]

theorem Coherent.fail {run : WorkflowRun D} (h : Coherent wf run) (hs : run.status = .running)
    (approved : List String) (message : String) :
    Coherent wf (WorkflowEngine.finish approved
      { run with status := .failed, error := some message }).run := by
  obtain ⟨hpending, hprompt, herror, hlast⟩ := h.idle hs
  refine ⟨?_, h.prompt, h.gate, h.attempts, ?_, ?_⟩
  · simp [WorkflowEngine.finish, hpending]
  · simp [WorkflowEngine.finish]
  · refine iff_of_false ?_ hlast
    simp [WorkflowEngine.finish]

theorem Coherent.suspend {run : WorkflowRun D} (h : Coherent wf run) (hs : run.status = .running)
    {step : Step} (hg : Gate wf step.name) (ha : step.name ∉ approvedSteps run) :
    Coherent wf { run with
      status := .awaitingApproval
      pendingStep := some step.name
      approvalPrompt := some (approvalPrompt step) } := by
  obtain ⟨hpending, hprompt, herror, hlast⟩ := h.idle hs
  refine ⟨by simp, by simp, ?_, h.attempts, by simp [herror], iff_of_false (by simp) hlast⟩
  rintro _ ⟨⟩
  exact ⟨hg, ha⟩

structure Stated (wf : WorkflowDef) (d : Drive D) : Prop where
  coherent : Coherent wf d.run
  sound : Sound wf d ∨ d.point = .returned ∧ d.run.status = .rejected
  approved : ¬ d.point.Ended → d.approved = approvedSteps d.run
  begun : ∀ step ∈ d.point.step?, Gate wf step.name → step.name ∈ approvedSteps d.run

theorem Gate.requires {step : Step} {name : String} (hs : wf.step name = some step) :
    Gate wf name ↔ step.requiresApproval = true := by
  constructor
  · rintro ⟨other, ho, hr⟩
    obtain rfl : step = other := Option.some.inj (hs.symm.trans ho)
    exact hr
  · intro hr
    exact ⟨step, hs, hr⟩

theorem Coherent.head {approved : List String} {run : WorkflowRun D} (h : Coherent wf run)
    (hs : run.status = .running) (ha : approved = approvedSteps run) (current : Option String) :
    Stated wf (loopHead wf approved run current) := by
  have hsound : Sound wf (loopHead wf approved run current) := .loopHead hs current
  have hhead := loopHead_cases wf approved run current
  generalize loopHead wf approved run current = t at hhead hsound ⊢
  refine ⟨?_, .inl hsound, ?_, ?_⟩
  · cases hhead with
    | done => exact h.finish hs approved
    | exhausted name hb => exact h.fail hs approved budgetError
    | unknown name hb hstep => exact h
    | suspends name step hb hstep hr hn =>
      have hname : step.name = name := WorkflowDef.step_name hstep
      refine h.suspend hs ⟨step, ?_, hr⟩ (ha ▸ hn)
      exact hname ▸ hstep
    | begins name step hb hstep hg hm => exact h.extend ⟨rfl, rfl, rfl, rfl, rfl, fun _ => .inl⟩
    | skips name step hb hstep hg hm =>
      have hmore : Coherent wf { run with stepsExecuted := run.stepsExecuted + 1 } :=
        h.extend ⟨rfl, rfl, rfl, rfl, rfl, fun _ => .inl⟩
      exact hmore.fail hs approved (attemptsError step)
  · intro hl
    cases hhead with
    | begins name step hb hstep hg hm => exact ha
    | _ => exact absurd trivial hl
  · cases hhead with
    | begins name step hb hstep hg hm =>
      rintro _ ⟨⟩ hgate
      have hname : step.name = name := WorkflowDef.step_name hstep
      exact ha ▸ hg ((Gate.requires hstep).mp (hname ▸ hgate))
    | _ => simp [WorkflowEngine.finish, Point.step?]

variable [StateDict D]

theorem Stated.reply {d t : Drive D} {r : Reply D} (h : Stated wf d)
    (hstep : answer wf d r = some t) : Stated wf t := by
  have hlive : ¬ d.point.Ended := live_of_answer hstep
  have hsound : Sound wf d := by
    rcases h.sound with hs | ⟨hp, _⟩
    · exact hs
    · exact absurd (hp ▸ trivial) hlive
  have hrun := hsound.live hlive
  have happroved := h.approved hlive
  have hnext : Sound wf t := hsound.answer hstep
  have hquiet : ∀ {run : WorkflowRun D} {p : Point} {step : Step}, Extends wf d.run run →
      p.step? = some step → d.point.step? = some step → Sound wf ⟨d.approved, run, p⟩ →
      Stated wf ⟨d.approved, run, p⟩ := by
    intro run p step he hp hd hs
    refine ⟨h.coherent.extend he, .inl hs, fun _ => ?_, fun other ho => ?_⟩
    · exact happroved.trans (approvedSteps_congr he.approvals).symm
    · obtain rfl : step = other := Option.some.inj (hp.symm.trans ho)
      exact fun hg => (approvedSteps_congr he.approvals).symm ▸ h.begun step hd hg
  have hended : ∀ {t : Drive D}, Coherent wf t.run → t.point.Ended → Sound wf t → Stated wf t := by
    intro t hc he hs
    refine ⟨hc, .inl hs, fun hl => absurd he hl, fun step hstep => ?_⟩
    cases hp : t.point <;> simp [hp, Point.Ended, Point.step?] at he hstep
  have hattempt : ∀ {step n} (a : StepAttempt D), d.point = .running step n → a.step = step.name →
      ∀ b ∈ d.run.attempts ++ [a], b ∈ d.run.attempts ∨
        (Gate wf b.step → b.step ∈ approvedSteps d.run) := by
    intro step n a hp ha b hb
    rcases List.mem_append.mp hb with hold | hnew
    · exact .inl hold
    · obtain rfl := List.mem_singleton.mp hnew
      exact .inr fun hg => ha ▸ h.begun step (by simp [hp, Point.step?]) (ha ▸ hg)
  have hfailure : ∀ step n exc, d.point = .running step n →
      Extends wf d.run (recordFailure d.run step n r.step exc) :=
    fun step n exc hp => ⟨rfl, rfl, rfl, rfl, rfl, hattempt _ hp rfl⟩
  have hsuccess : ∀ step n updates, d.point = .running step n →
      Extends wf d.run (recordSuccess d.run step n r.step updates) :=
    fun step n updates hp => ⟨rfl, rfl, rfl, rfl, rfl, hattempt _ hp rfl⟩
  have hmoved : ∀ state, Extends wf d.run { d.run with state := state } :=
    fun state => ⟨rfl, rfl, rfl, rfl, rfl, fun _ => .inl⟩
  have hhead : ∀ {run : WorkflowRun D}, Extends wf d.run run → ∀ current,
      Stated wf (loopHead wf d.approved run current) := by
    intro run he current
    refine (h.coherent.extend he).head (he.status.trans hrun) ?_ current
    exact happroved.trans (approvedSteps_congr he.approvals).symm
  cases answer_cases hstep with
  | sleeps step n exc hp hr hn =>
    exact hquiet (hfailure step n exc hp) rfl (by simp [hp, Point.step?]) hnext
  | retries step n exc hp hr hn =>
    exact hquiet (hfailure step n exc hp) rfl (by simp [hp, Point.step?]) hnext
  | fails step n exc hp hr =>
    exact hended ((h.coherent.extend (hfailure step n exc hp)).fail hrun _ _) trivial hnext
  | branches step n updates hp hr hn =>
    exact hquiet (hsuccess step n updates hp) rfl (by simp [hp, Point.step?]) hnext
  | stops step n updates hp hr hn => exact hhead (hsuccess step n updates hp) none
  | goes step n updates name hp hr hn => exact hhead (hsuccess step n updates hp) (some name)
  | wakes step n hp hn =>
    exact hquiet (hmoved d.run.state) rfl (by simp [hp, Point.step?]) hnext
  | oversleeps step n hp => exact hended (h.coherent.fail hrun _ _) trivial hnext
  | escapes step n exc hp hr => exact hended (h.coherent.extend (hmoved r.step.state)) trivial hnext
  | raises step exc hp hr => exact hended (h.coherent.extend (hmoved r.branch.state)) trivial hnext
  | chooses step current hp hr => exact hhead (hmoved r.branch.state) current

omit [StateDict D] in
theorem approvedSteps_recordDecision (run : WorkflowRun D) (gate : String) (c : Decision) :
    approvedSteps (recordDecision run gate c) =
      approvedSteps run ++ if c.decision = .approved then [gate] else [] := by
  cases hd : c.decision <;> simp [approvedSteps, recordDecision, List.filter_append, hd]

omit [StateDict D] in
theorem Stated.decide {d t : Drive D} {c : Decision} (h : Stated wf d)
    (hstep : resume wf d.run c = .ok t) : Stated wf t := by
  obtain ⟨gate, hs, hp, ht⟩ := resume_cases hstep
  have hunapproved : ∀ name, name ∉ approvedSteps (recordDecision d.run gate c) →
      name ∉ approvedSteps d.run := fun name hn hm => by
    rw [approvedSteps_recordDecision] at hn
    exact hn (List.mem_append_left _ hm)
  have herror : d.run.error = none := by
    by_contra hn
    have hended := h.coherent.error.mp (Option.isSome_iff_ne_none.mpr hn)
    simp [hs] at hended
  rcases ht with ⟨hd, rfl⟩ | ⟨hd, rfl⟩
  · refine ⟨⟨?_, ?_, ?_, ?_, ?_, ?_⟩, .inr ⟨rfl, rfl⟩, fun hl => absurd trivial hl, ?_⟩
    · simp [recordDecision]
    · simp [recordDecision]
    · simp [recordDecision]
    · intro name hg ha
      exact h.coherent.attempts name hg (hunapproved name ha)
    · simp
    · simp [LastRejected, recordDecision, hd]
    · simp [Point.step?]
  · have hresumed : Coherent wf { recordDecision d.run gate c with status := .running } := by
      refine ⟨?_, ?_, ?_, ?_, ?_, ?_⟩
      · simp [recordDecision]
      · simp [recordDecision]
      · simp [recordDecision]
      · intro name hg ha
        exact h.coherent.attempts name hg (hunapproved name ha)
      · simp [recordDecision, herror]
      · simp [LastRejected, recordDecision, hd]
    exact hresumed.head rfl rfl (some gate)

theorem Stated.step {d t : Drive D} {a : GateAction D} (h : Stated wf d)
    (hstep : gateStep wf d a = some t) : Stated wf t := by
  cases a with
  | reply r => exact h.reply hstep
  | decide c =>
    simp only [gateStep] at hstep
    split at hstep
    · cases hstep
      exact h
    · cases hstep
      exact h.decide ‹_›

/-- Branch functions do not raise, and return `None` or a step of the workflow; what steps raise is
an `Exception`. -/
def Unbroken (wf : WorkflowDef) (d : Drive D) : GateAction D → Prop
  | .reply r => CallAnswers wf d r
  | .decide _ => True

instance (wf : WorkflowDef) (d : Drive D) (a : GateAction D) : Decidable (Unbroken wf d a) :=
  match a with
  | .reply r => inferInstanceAs (Decidable (CallAnswers wf d r))
  | .decide _ => isTrue trivial

structure Answered (wf : WorkflowDef) (d : Drive D) : Prop where
  stated : Stated wf d
  unraised : ¬ d.point.Raised

theorem Answered.step {d t : Drive D} {a : GateAction D} (h : Answered wf d)
    (hb : Unbroken wf d a) (hstep : gateStep wf d a = some t) : Answered wf t := by
  refine ⟨h.stated.step hstep, fun hraised => ?_⟩
  cases a with
  | reply r =>
    rcases h.stated.sound with hs | ⟨hp, _⟩
    · exact (raised_answer hs hstep).mp hraised hb
    · exact live_of_answer hstep (hp ▸ trivial)
  | decide c =>
    simp only [gateStep] at hstep
    split at hstep
    · cases hstep
      exact h.unraised hraised
    · rename_i hresume
      cases hstep
      obtain ⟨gate, hs, hp, ⟨hd, rfl⟩ | ⟨hd, rfl⟩⟩ := resume_cases hresume
      · exact hraised
      · -- a pending gate is a step of the workflow
        obtain ⟨step, hgate, _⟩ := (h.stated.coherent.gate gate hp).1
        obtain ⟨name, hname, hunknown, _⟩ := raised_loopHead.mp hraised
        obtain rfl : gate = name := Option.some.inj hname
        exact hunknown (WorkflowDef.step_known.mp ⟨step, hgate⟩)

omit [StateDict D] in
theorem stated_execute (wf : WorkflowDef) (id createdAt : String) (inputState : D) :
    Stated wf (execute wf id createdAt inputState) := by
  have hnew : Coherent wf (newRun wf id createdAt inputState) := by
    refine ⟨?_, ?_, ?_, ?_, ?_, ?_⟩ <;> simp [newRun, LastRejected]
  exact hnew.head rfl rfl (some wf.entry)

theorem answered_reached {id createdAt : String} {inputState : D} {as : List (GateAction D)}
    {t : Drive D} (h : exec (gateStep wf) (execute wf id createdAt inputState) as = some t)
    (ho : Obeys (gateStep wf) (Unbroken wf) (execute wf id createdAt inputState) as) :
    Answered wf t :=
  (reaches_of_exec h ho).invariant
    ⟨stated_execute wf id createdAt inputState, (sound_execute wf id createdAt inputState).2⟩
    fun _ _ _ hi hg hstep => hi.step hg hstep

omit [StateDict D] in
theorem resume_refused {run : WorkflowRun D} (h : run.status ≠ .awaitingApproval) (c : Decision) :
    resume wf run c = .error (approvalError run) := by
  unfold resume
  split
  · exact absurd ‹_› h
  · rfl

theorem exec_ended {d t : Drive D} (hp : d.point.Ended) (hs : d.run.status ≠ .awaitingApproval)
    {as : List (GateAction D)} (h : exec (gateStep wf) d as = some t) : t = d := by
  induction as with
  | nil => exact (Option.some.inj h).symm
  | cons a as ih =>
    obtain ⟨u, hu, hrest⟩ := Option.bind_eq_some_iff.mp h
    cases a with
    | reply r => exact absurd hp (live_of_answer hu)
    | decide c =>
      rw [gateStep, resume_refused hs] at hu
      cases hu
      exact ih hrest

theorem stated_reached {id createdAt : String} {inputState : D} {as : List (GateAction D)}
    {t : Drive D} (h : exec (gateStep wf) (execute wf id createdAt inputState) as = some t) :
    Stated wf t :=
  (reaches_of_exec h (obeys_always _ as)).invariant (stated_execute wf id createdAt inputState)
    fun _ _ _ hi _ hstep => hi.step hstep

theorem returned_runs_coherent (wf : WorkflowDef) (id createdAt : String) (inputState : D)
    (as : List (GateAction D)) (t : Drive D)
    (h : exec (gateStep wf) (execute wf id createdAt inputState) as = some t)
    (hended : t.point.Ended) :
    (Obeys (gateStep wf) (Unbroken wf) (execute wf id createdAt inputState) as →
        t.point = .returned) ∧
      (t.point = .returned → Settled t.run ∨ t.run.status = .awaitingApproval) ∧
      Coherent wf t.run ∧ (Settled t.run →
        (∀ wf' c, resume wf' t.run c = .error (approvalError t.run)) ∧
        ∀ as' u, exec (gateStep wf) t as' = some u → u = t) := by
  have hstated := stated_reached h
  refine ⟨fun hb => ?_, fun hreturned => ?_, hstated.coherent, fun hsettled => ?_⟩
  · have hunraised := (answered_reached h hb).unraised
    cases hp : t.point with
    | returned => rfl
    | raised exc => exact absurd (hp ▸ trivial) hunraised
    | _ => simp [hp, Point.Ended] at hended
  · rcases hstated.sound with hs | ⟨_, hr⟩
    · rcases hs.settled hreturned with hc | hf | ha
      · exact .inl (.inl hc)
      · exact .inl (.inr (.inl hf))
      · exact .inr ha
    · exact .inl (.inr (.inr hr))
  · have hawaits : t.run.status ≠ .awaitingApproval := by
      rcases hsettled with hs | hs | hs <;> simp [hs]
    exact ⟨fun wf' => resume_refused hawaits, fun as' u => exec_ended hended hawaits⟩

theorem granted_run_coherent : ∃ t, exec (gateStep (grants true))
    (execute (grants true) "r" "now" ()) (approvedOnce none) = some t ∧
      Coherent (grants true) t.run ∧ ∀ c, resume (grants true) t.run c =
        .error "run r is not awaiting approval (status=completed)" := by
  refine ⟨_, rfl, ?_⟩
  obtain ⟨_, _, hcoherent, hfinal⟩ := returned_runs_coherent (grants true) "r" "now" ()
    (approvedOnce none) _ rfl (by decide)
  exact ⟨hcoherent, (hfinal (.inl rfl)).1 (grants true)⟩

end Workbench.WorkflowEngine
