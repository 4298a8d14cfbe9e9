import Workbench.EngineRuns

namespace Workbench.WorkflowEngine

variable {D : Type} [StateDict D] {wf : WorkflowDef}

structure DictRule (D : Type) [StateDict D] where
  holds : D → Prop
  empty : holds StateDict.empty
  update : ∀ a b, holds a → holds b → holds (StateDict.update a b)

variable {rule : DictRule D}

structure RuledRun (rule : DictRule D) (run : WorkflowRun D) : Prop where
  state : rule.holds run.state
  updates : ∀ a ∈ run.attempts, rule.holds a.updates

structure RuledReply (rule : DictRule D) (r : Reply D) : Prop where
  state : rule.holds r.step.state
  updates : ∀ updates, r.step.result = .ok (some updates) → rule.holds updates
  branch : rule.holds r.branch.state

omit [StateDict D] in
theorem loopHead_dicts (wf : WorkflowDef) (approved : List String) (run : WorkflowRun D)
    (current : Option String) : (loopHead wf approved run current).run.state = run.state ∧
      (loopHead wf approved run current).run.attempts = run.attempts := by
  have hhead := loopHead_cases wf approved run current
  generalize loopHead wf approved run current = t at hhead ⊢
  cases hhead <;> exact ⟨rfl, rfl⟩

theorem RuledRun.loopHead {run : WorkflowRun D} (h : RuledRun rule run) (approved : List String)
    (current : Option String) :
    RuledRun rule (WorkflowEngine.loopHead wf approved run current).run := by
  obtain ⟨hstate, hattempts⟩ := loopHead_dicts wf approved run current
  constructor
  · exact hstate ▸ h.state
  · exact hattempts ▸ h.updates

theorem RuledRun.failure {run : WorkflowRun D} (h : RuledRun rule run) {r : Reply D}
    (hr : RuledReply rule r) (step : Step) (n : ℤ) (exc : Exc) :
    RuledRun rule (recordFailure run step n r.step exc) where
  state := hr.state
  updates a ha := by
    rcases List.mem_append.mp ha with hold | hnew
    · exact h.updates a hold
    · obtain rfl := List.mem_singleton.mp hnew
      exact rule.empty

theorem RuledRun.success {run : WorkflowRun D} (h : RuledRun rule run) {r : Reply D}
    (hr : RuledReply rule r) (step : Step) (n : ℤ) {updates : Option D}
    (hu : r.step.result = .ok updates) :
    RuledRun rule (recordSuccess run step n r.step updates) := by
  have hruled : rule.holds (updates.getD StateDict.empty) := by
    cases updates with
    | none => exact rule.empty
    | some u => exact hr.updates u hu
  constructor
  · exact rule.update _ _ hr.state hruled
  · intro a ha
    rcases List.mem_append.mp ha with hold | hnew
    · exact h.updates a hold
    · obtain rfl := List.mem_singleton.mp hnew
      exact hruled

theorem ruled_answer {d t : Drive D} {r : Reply D} (h : RuledRun rule d.run)
    (hr : RuledReply rule r) (hstep : answer wf d r = some t) : RuledRun rule t.run := by
  cases answer_cases hstep with
  | sleeps step n exc hp he hn => exact h.failure hr step n exc
  | retries step n exc hp he hn => exact h.failure hr step n exc
  | fails step n exc hp he =>
    have hfailure := h.failure hr step n exc
    exact ⟨hfailure.state, hfailure.updates⟩
  | branches step n updates hp hu hn => exact h.success hr step n hu
  | stops step n updates hp hu hn => exact (h.success hr step n hu).loopHead _ none
  | goes step n updates name hp hu hn => exact (h.success hr step n hu).loopHead _ (some name)
  | wakes step n hp hn => exact h
  | oversleeps step n hp => exact ⟨h.state, h.updates⟩
  | escapes step n exc hp he => exact ⟨hr.state, h.updates⟩
  | raises step exc hp he => exact ⟨hr.branch, h.updates⟩
  | chooses step current hp he =>
    have hchosen : RuledRun rule { d.run with state := r.branch.state } := ⟨hr.branch, h.updates⟩
    exact hchosen.loopHead _ current

theorem ruled_complete {env : ℕ → Reply D} (henv : ∀ n, RuledReply rule (env n)) {d : Drive D}
    (h : RuledRun rule d.run) : RuledRun rule (complete wf env d).run := by
  have hplay : ∀ rs : List (Reply D), (∀ r ∈ rs, RuledReply rule r) → ∀ d : Drive D,
      RuledRun rule d.run → RuledRun rule (play wf d rs).run := by
    intro rs hrs
    induction rs with
    | nil =>
      intro d hd
      exact hd
    | cons r rs ih =>
      intro d hd
      simp only [play]
      cases ha : answer wf d r with
      | none => exact hd
      | some t =>
        apply ih
        · intro q hq
          exact hrs q (by simp [hq])
        · exact ruled_answer hd (hrs r (by simp)) ha
  apply hplay
  · intro r hr
    obtain ⟨n, _, rfl⟩ := List.mem_map.mp hr
    exact henv n
  · exact h

theorem RuledRun.resume {run : WorkflowRun D} (h : RuledRun rule run) {c : Decision}
    {d : Drive D} (hr : resume wf run c = .ok d) : RuledRun rule d.run := by
  obtain ⟨gate, _, _, ⟨_, rfl⟩ | ⟨_, rfl⟩⟩ := resume_cases hr
  · exact ⟨h.state, h.updates⟩
  · have hdecided : RuledRun rule { recordDecision run gate c with status := .running } :=
      ⟨h.state, h.updates⟩
    exact hdecided.loopHead _ (some gate)

theorem ruled_execute (wf : WorkflowDef) (id createdAt : String) {inputState : D}
    (h : rule.holds inputState) : RuledRun rule (execute wf id createdAt inputState).run := by
  have hnew : RuledRun rule (newRun wf id createdAt inputState) := ⟨h, by simp [newRun]⟩
  exact hnew.loopHead _ (some wf.entry)

end Workbench.WorkflowEngine
