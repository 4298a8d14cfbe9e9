import Workbench.WorkflowEngine
import Mathlib.Order.Basic

namespace Workbench.WorkflowEngine

open Transitions

variable {D : Type} [StateDict D] {wf : WorkflowDef}

inductive GateAction (D : Type)
  | reply (r : Reply D)
  | decide (c : Decision)

/-- A decision on a run that awaits none is refused and changes nothing. -/
def gateStep (wf : WorkflowDef) (d : Drive D) : GateAction D → Option (Drive D)
  | .reply r => answer wf d r
  | .decide c =>
    match resume wf d.run c with
    | .error _ => some d
    | .ok d' => some d'

def executed (run : WorkflowRun D) (name : String) : ℕ :=
  run.attempts.countP fun a => a.step = name && a.attempt = 1

def Point.inFlight (p : Point) (name : String) : ℕ :=
  match p with
  | .running step attempt => if step.name = name ∧ attempt = 1 then 1 else 0
  | _ => 0

def executions (d : Drive D) (name : String) : ℕ := executed d.run name + d.point.inFlight name

def Point.Numbered : Point → Prop
  | .running _ attempt => 1 ≤ attempt
  | .sleeping _ attempt => 1 ≤ attempt
  | _ => True

theorem inFlight_later {step : Step} {n : ℤ} (h : 1 ≤ n) (name : String) :
    (Point.running step (n + 1)).inFlight name = 0 := by
  have hne : n + 1 ≠ 1 := by omega
  simp [Point.inFlight, hne]

def approvalCount (run : WorkflowRun D) (name : String) : ℕ :=
  run.approvals.countP fun a => a.step = name && a.decision = .approved

def Gate (wf : WorkflowDef) (name : String) : Prop :=
  ∃ step ∈ wf.step name, step.requiresApproval = true

instance (wf : WorkflowDef) (name : String) : Decidable (Gate wf name) :=
  inferInstanceAs (Decidable (∃ step ∈ wf.step name, _))

def ApprovalsCover (wf : WorkflowDef) (d : Drive D) : Prop :=
  ∀ name, Gate wf name → executions d name ≤ approvalCount d.run name

def destination (d : Drive D) (r : Reply D) : Option String :=
  match d.point, r.step.result, r.branch.result with
  | .running step _, .ok _, _ => match step.next with
    | .goto name => some name
    | _ => none
  | .branching _, _, .ok current => current
  | _, _, _ => none

/-- No reply sends the run, within its step budget, back to a gate it has executed. -/
def FreshGates (wf : WorkflowDef) (d : Drive D) : GateAction D → Prop
  | .reply r => ∀ name ∈ destination d r, Gate wf name → d.run.stepsExecuted < maxStepsPerRun →
      executions d name = 0
  | .decide _ => True

instance (wf : WorkflowDef) (d : Drive D) (a : GateAction D) : Decidable (FreshGates wf d a) := by
  cases a <;> unfold FreshGates <;> infer_instance

omit [StateDict D] in
theorem mem_approvedSteps {run : WorkflowRun D} {name : String} :
    name ∈ approvedSteps run ↔ 0 < approvalCount run name := by
  simp only [approvedSteps, approvalCount, List.mem_map, List.mem_filter, List.countP_pos_iff,
    Bool.and_eq_true, decide_eq_true_eq]
  constructor
  · rintro ⟨a, ⟨ha, hd⟩, hn⟩
    exact ⟨a, ha, hn, hd⟩
  · rintro ⟨a, ha, hn, hd⟩
    exact ⟨a, ⟨ha, hd⟩, hn⟩

theorem executed_recordFailure (run : WorkflowRun D) (step : Step) (n : ℤ) (r : StepReply D)
    (exc : Exc) (name : String) : executed (recordFailure run step n r exc) name =
      executed run name + (Point.running step n).inFlight name := by
  simp [executed, recordFailure, Point.inFlight, List.countP_append, List.countP_cons]

theorem executed_recordSuccess (run : WorkflowRun D) (step : Step) (n : ℤ) (r : StepReply D)
    (updates : Option D) (name : String) : executed (recordSuccess run step n r updates) name =
      executed run name + (Point.running step n).inFlight name := by
  simp [executed, recordSuccess, Point.inFlight, List.countP_append, List.countP_cons]

omit [StateDict D] in
theorem approvalCount_recordDecision (run : WorkflowRun D) (gate : String) (c : Decision)
    (name : String) : approvalCount (recordDecision run gate c) name =
      approvalCount run name + if gate = name ∧ c.decision = .approved then 1 else 0 := by
  simp [approvalCount, recordDecision, List.countP_append, List.countP_cons]

structure Ready (wf : WorkflowDef) (approved : List String) (run : WorkflowRun D) : Prop where
  running : run.status = .running
  approved : approved = approvedSteps run
  once : ∀ name, approvalCount run name ≤ 1
  backed : ∀ name, Gate wf name → 0 < executed run name → 0 < approvalCount run name
  attempted : ∀ name, ∀ step ∈ wf.step name, 0 < executed run name → 1 ≤ step.maxAttempts

structure Gated (wf : WorkflowDef) (d : Drive D) : Prop where
  live : ¬ d.point.Ended → d.run.status = .running ∧ d.approved = approvedSteps d.run
  numbered : d.point.Numbered
  once : ∀ name, approvalCount d.run name ≤ 1
  backed : ∀ name, Gate wf name → 0 < executions d name → 0 < approvalCount d.run name
  attempted : ∀ name, ∀ step ∈ wf.step name, 0 < executions d name → 1 ≤ step.maxAttempts
  pending : d.run.status = .awaitingApproval → ∀ name ∈ d.run.pendingStep,
    approvalCount d.run name = 0

omit [StateDict D] in
theorem Gated.ready {d : Drive D} (h : Gated wf d) (hl : ¬ d.point.Ended) {run : WorkflowRun D}
    (hs : run.status = d.run.status) (ha : run.approvals = d.run.approvals)
    (he : ∀ name, executed run name ≤ executions d name) : Ready wf d.approved run where
  running := hs.trans (h.live hl).1
  approved := by rw [(h.live hl).2, approvedSteps, approvedSteps, ha]
  once name := by
    have honce := h.once name
    rwa [approvalCount, ← ha] at honce
  backed name hg hx := by
    have hbacked := h.backed name hg (Nat.lt_of_lt_of_le hx (he name))
    rwa [approvalCount, ← ha] at hbacked
  attempted name step hs hx := h.attempted name step hs (Nat.lt_of_lt_of_le hx (he name))

omit [StateDict D] in
theorem Ready.gated {approved : List String} {run : WorkflowRun D} (h : Ready wf approved run)
    {d : Drive D} (hs : d.run.status = .running ∧ d.approved = approved ∨
      d.point.Ended ∧ d.run.status ≠ .awaitingApproval) (hn : d.point.Numbered)
    (ha : d.run.approvals = run.approvals) (he : ∀ name, executions d name = executed run name) :
    Gated wf d where
  live hl := by
    rcases hs with ⟨hrun, happroved⟩ | ⟨hended, _⟩
    · exact ⟨hrun, by rw [happroved, h.approved, approvedSteps, approvedSteps, ha]⟩
    · exact absurd hended hl
  numbered := hn
  once name := by
    have honce := h.once name
    rwa [approvalCount, ← ha] at honce
  backed name hg hx := by
    have hbacked := h.backed name hg (he name ▸ hx)
    rwa [approvalCount, ← ha] at hbacked
  attempted name step hs hx := h.attempted name step hs (he name ▸ hx)
  pending hp := by
    rcases hs with ⟨hrun, _⟩ | ⟨_, hne⟩
    · rw [hrun] at hp
      cases hp
    · exact absurd hp hne

omit [StateDict D] in
theorem Ready.head {approved : List String} {run : WorkflowRun D} (h : Ready wf approved run)
    (current : Option String) : Gated wf (loopHead wf approved run current) := by
  have hhead := loopHead_cases wf approved run current
  generalize loopHead wf approved run current = t at hhead ⊢
  cases hhead with
  | done => exact h.gated (.inr ⟨trivial, by simp [finish, h.running]⟩) trivial rfl fun _ => rfl
  | exhausted name hb =>
    exact h.gated (.inr ⟨trivial, by simp [finish]⟩) trivial rfl fun _ => rfl
  | unknown name hb hs => exact h.gated (.inl ⟨h.running, rfl⟩) trivial rfl fun _ => rfl
  | suspends name step hb hs hr ha =>
    have hnone : approvalCount run step.name = 0 := by
      rw [h.approved, mem_approvedSteps] at ha
      omega
    refine ⟨fun hl => absurd trivial hl, trivial, h.once, h.backed, h.attempted, fun _ n hn => ?_⟩
    obtain rfl : step.name = n := Option.some.inj (Option.mem_def.mp hn)
    exact hnone
  | begins name step hb hs ha hm =>
    have hname : step.name = name := WorkflowDef.step_name hs
    have hother : ∀ n, name ≠ n → (Point.running step 1).inFlight n = 0 := fun n hn => by
      simp [Point.inFlight, hname, hn]
    refine ⟨fun _ => ⟨h.running, h.approved⟩, by simp [Point.Numbered], h.once, fun n hg hx => ?_,
      fun n other ho hx => ?_, fun hp => ?_⟩
    · by_cases hn : name = n
      · obtain ⟨gate, hgate, hr⟩ := hg
        obtain rfl : step = gate := Option.some.inj (hs.symm.trans (hn ▸ hgate))
        have happroved := ha hr
        rwa [h.approved, mem_approvedSteps, hname, hn] at happroved
      · rw [executions, hother n hn] at hx
        exact h.backed n hg hx
    · by_cases hn : name = n
      · obtain rfl : step = other := Option.some.inj (hs.symm.trans (hn ▸ ho))
        exact hm
      · rw [executions, hother n hn] at hx
        exact h.attempted n other ho hx
    · simp [h.running] at hp
  | skips name step hb hs ha hm =>
    exact h.gated (.inr ⟨trivial, by simp [finish]⟩) trivial rfl fun _ => rfl

theorem Gated.reply {d t : Drive D} {r : Reply D} (h : Gated wf d)
    (hstep : answer wf d r = some t) : Gated wf t := by
  have hlive : ¬ d.point.Ended := live_of_answer hstep
  have hrun := (h.live hlive).1
  have hnumbered := h.numbered
  have hfailure : ∀ step n exc, d.point = .running step n →
      Ready wf d.approved (recordFailure d.run step n r.step exc) := fun step n exc hp =>
    h.ready hlive rfl rfl fun name => Nat.le_of_eq (by rw [executed_recordFailure, executions, hp])
  have hsuccess : ∀ step n updates, d.point = .running step n →
      Ready wf d.approved (recordSuccess d.run step n r.step updates) := fun step n updates hp =>
    h.ready hlive rfl rfl fun name => Nat.le_of_eq (by rw [executed_recordSuccess, executions, hp])
  cases answer_cases hstep with
  | sleeps step n exc hp hr hn =>
    rw [hp] at hnumbered
    exact (hfailure step n exc hp).gated (.inl ⟨hrun, rfl⟩) hnumbered rfl fun _ => rfl
  | retries step n exc hp hr hn =>
    rw [hp, Point.Numbered] at hnumbered
    refine (hfailure step n exc hp).gated (.inl ⟨hrun, rfl⟩) ?_ rfl fun name => ?_
    · simp only [Point.Numbered]
      omega
    · rw [executions, inFlight_later hnumbered]
      rfl
  | fails step n exc hp hr =>
    exact (hfailure step n exc hp).gated (.inr ⟨trivial, by simp [finish]⟩) trivial rfl fun _ => rfl
  | branches step n updates hp hr hn =>
    exact (hsuccess step n updates hp).gated (.inl ⟨hrun, rfl⟩) trivial rfl fun _ => rfl
  | stops step n updates hp hr hn => exact (hsuccess step n updates hp).head none
  | goes step n updates name hp hr hn => exact (hsuccess step n updates hp).head (some name)
  | wakes step n hp hn =>
    rw [hp, Point.Numbered] at hnumbered
    have hready : Ready wf d.approved d.run :=
      h.ready hlive rfl rfl fun name => by simp [executions, hp, Point.inFlight]
    refine hready.gated (.inl ⟨hrun, rfl⟩) ?_ rfl fun name => ?_
    · simp only [Point.Numbered]
      omega
    · rw [executions, inFlight_later hnumbered]
      rfl
  | oversleeps step n hp =>
    have hready : Ready wf d.approved d.run :=
      h.ready hlive rfl rfl fun name => by simp [executions, hp, Point.inFlight]
    exact hready.gated (.inr ⟨trivial, by simp [finish]⟩) trivial rfl fun _ => rfl
  | escapes step n exc hp hr =>
    have hready : Ready wf d.approved { d.run with state := r.step.state } :=
      h.ready hlive rfl rfl fun _ => Nat.le_add_right _ _
    exact hready.gated (.inl ⟨hrun, rfl⟩) trivial rfl fun _ => rfl
  | raises step exc hp hr =>
    have hready : Ready wf d.approved d.run :=
      h.ready hlive rfl rfl fun name => by simp [executions, hp, Point.inFlight]
    exact hready.gated (.inl ⟨hrun, rfl⟩) trivial rfl fun _ => rfl
  | chooses step current hp hr =>
    have hready : Ready wf d.approved { d.run with state := r.branch.state } :=
      h.ready hlive rfl rfl fun name => by simp [executions, hp, Point.inFlight, executed]
    exact hready.head current

omit [StateDict D] in
theorem cover_head {approved : List String} {run : WorkflowRun D} (h : Ready wf approved run)
    (hc : ∀ name, Gate wf name → executed run name ≤ approvalCount run name)
    (current : Option String) : ApprovalsCover wf (loopHead wf approved run current) ↔
      ∀ name ∈ current, Gate wf name → run.stepsExecuted < maxStepsPerRun → executed run name = 0 := by
  have hhead := loopHead_cases wf approved run current
  generalize loopHead wf approved run current = t at hhead ⊢
  cases hhead with
  | done =>
    apply iff_of_true hc
    simp
  | exhausted name hb =>
    apply iff_of_true hc
    rintro _ ⟨⟩ _ hlt
    omega
  | unknown name hb hs =>
    apply iff_of_true hc
    rintro _ ⟨⟩ ⟨step, hstep, _⟩
    simp [hs] at hstep
  | suspends name step hb hs hr ha =>
    apply iff_of_true hc
    rintro _ ⟨⟩ hg _
    rw [h.approved, mem_approvedSteps, WorkflowDef.step_name hs] at ha
    have hcover := hc name hg
    omega
  | begins name step hb hs ha hm =>
    have hname : step.name = name := WorkflowDef.step_name hs
    have hhere : (Point.running step 1).inFlight name = 1 := by simp [Point.inFlight, hname]
    constructor
    · rintro hcover _ ⟨⟩ hg _
      have hle := hcover name hg
      have honce := h.once name
      rw [executions, hhere] at hle
      change executed run name + 1 ≤ approvalCount run name at hle
      omega
    · intro hfresh n hg
      by_cases hn : name = n
      · subst hn
        have hzero : executed run name = 0 := hfresh name rfl hg hb
        obtain ⟨gate, hgate, hr⟩ := hg
        obtain rfl : step = gate := Option.some.inj (hs.symm.trans hgate)
        have happroved := ha hr
        rw [h.approved, mem_approvedSteps, hname] at happroved
        rw [executions, hhere]
        change executed run name + 1 ≤ approvalCount run name
        omega
      · have hother : (Point.running step 1).inFlight n = 0 := by simp [Point.inFlight, hname, hn]
        rw [executions, hother]
        exact hc n hg
  | skips name step hb hs ha hm =>
    apply iff_of_true hc
    rintro _ ⟨⟩ _ _
    have hattempted := h.attempted name step hs
    omega

theorem cover_reply {d t : Drive D} {r : Reply D} (h : Gated wf d) (hc : ApprovalsCover wf d)
    (hstep : answer wf d r = some t) :
    ApprovalsCover wf t ↔ FreshGates wf d (.reply r) := by
  have hlive : ¬ d.point.Ended := live_of_answer hstep
  have hnumbered := h.numbered
  have hquiet : ∀ {t : Drive D}, (∀ name, executions t name ≤ executions d name) →
      t.run.approvals = d.run.approvals → ApprovalsCover wf t := by
    intro t he ha name hg
    rw [approvalCount, ha]
    exact Nat.le_trans (he name) (hc name hg)
  have hfailure : ∀ step n exc, d.point = .running step n → ∀ name,
      executed (recordFailure d.run step n r.step exc) name = executions d name :=
    fun step n exc hp name => by rw [executed_recordFailure, executions, hp]
  have hsuccess : ∀ step n updates, d.point = .running step n → ∀ name,
      executed (recordSuccess d.run step n r.step updates) name = executions d name :=
    fun step n updates hp name => by rw [executed_recordSuccess, executions, hp]
  have hstay : destination d r = none → FreshGates wf d (.reply r) := fun hd name hn => by
    rw [hd] at hn
    cases hn
  have hmove : ∀ {run : WorkflowRun D} {current : Option String}, Ready wf d.approved run →
      run.approvals = d.run.approvals → run.stepsExecuted = d.run.stepsExecuted →
      (∀ name, executed run name = executions d name) → destination d r = current →
      (ApprovalsCover wf (loopHead wf d.approved run current) ↔ FreshGates wf d (.reply r)) := by
    intro run current hready ha hb he hd
    have hcover : ∀ name, Gate wf name → executed run name ≤ approvalCount run name := by
      intro name hg
      rw [he, approvalCount, ha]
      exact hc name hg
    rw [cover_head hready hcover, FreshGates, hd, hb]
    simp only [he]
  cases answer_cases hstep with
  | sleeps step n exc hp hr hn =>
    exact iff_of_true (hquiet (fun name => Nat.le_of_eq (hfailure step n exc hp name)) rfl) (hstay (by simp [destination, hp, hr]))
  | retries step n exc hp hr hn =>
    rw [hp, Point.Numbered] at hnumbered
    refine iff_of_true (hquiet (fun name => Nat.le_of_eq ?_) rfl) (hstay (by simp [destination, hp, hr]))
    rw [executions, inFlight_later hnumbered]
    exact hfailure step n exc hp name
  | fails step n exc hp hr =>
    exact iff_of_true (hquiet (fun name => Nat.le_of_eq (hfailure step n exc hp name)) rfl) (hstay (by simp [destination, hp, hr]))
  | branches step n updates hp hr hn =>
    exact iff_of_true (hquiet (fun name => Nat.le_of_eq (hsuccess step n updates hp name)) rfl)
      (hstay (by simp [destination, hp, hr, hn]))
  | stops step n updates hp hr hn =>
    have hsame := hsuccess step n updates hp
    exact hmove (h.ready hlive rfl rfl fun name => Nat.le_of_eq (hsame name)) rfl rfl hsame (by simp [destination, hp, hr, hn])
  | goes step n updates name hp hr hn =>
    have hsame := hsuccess step n updates hp
    exact hmove (h.ready hlive rfl rfl fun name => Nat.le_of_eq (hsame name)) rfl rfl hsame (by simp [destination, hp, hr, hn])
  | wakes step n hp hn =>
    rw [hp, Point.Numbered] at hnumbered
    refine iff_of_true (hquiet (fun name => Nat.le_of_eq ?_) rfl) (hstay (by simp [destination, hp]))
    rw [executions, inFlight_later hnumbered, executions, hp]
    rfl
  | oversleeps step n hp =>
    refine iff_of_true (hquiet (fun name => Nat.le_of_eq ?_) rfl) (hstay (by simp [destination, hp]))
    rw [executions, executions, hp]
    rfl
  | escapes step n exc hp hr =>
    exact iff_of_true (hquiet (fun _ => Nat.le_add_right _ _) rfl) (hstay (by simp [destination, hp, hr]))
  | raises step exc hp hr =>
    refine iff_of_true (hquiet (fun name => Nat.le_of_eq ?_) rfl) (hstay (by simp [destination, hp, hr]))
    rw [executions, executions, hp]
    rfl
  | chooses step current hp hr =>
    have hsame : ∀ name, executed { d.run with state := r.branch.state } name = executions d name :=
      fun name => by rw [executions, hp]; rfl
    exact hmove (h.ready hlive rfl rfl fun name => Nat.le_of_eq (hsame name)) rfl rfl hsame (by simp [destination, hp, hr])

theorem inFlight_ended {p : Point} (h : p.Ended) (name : String) : p.inFlight name = 0 := by
  cases p with
  | running step n => cases h
  | _ => rfl

omit [StateDict D] in
theorem Gated.awaiting_ended {d : Drive D} (h : Gated wf d) (hs : d.run.status = .awaitingApproval) :
    d.point.Ended := by
  by_contra hlive
  rw [(h.live hlive).1] at hs
  cases hs

omit [StateDict D] in
theorem Gated.executions_idle {d : Drive D} (h : Gated wf d)
    (hs : d.run.status = .awaitingApproval) (name : String) :
    executions d name = executed d.run name := by
  rw [executions, inFlight_ended (h.awaiting_ended hs), Nat.add_zero]

omit [StateDict D] in
theorem Gated.approve {d : Drive D} (h : Gated wf d) {gate : String} {c : Decision}
    (hs : d.run.status = .awaitingApproval) (hp : d.run.pendingStep = some gate)
    (hd : c.decision = .approved) :
    Ready wf (approvedSteps { recordDecision d.run gate c with status := .running })
      { recordDecision d.run gate c with status := .running } := by
  have hsum : ∀ name, approvalCount (recordDecision d.run gate c) name =
      approvalCount d.run name + if gate = name then 1 else 0 := fun name => by
    rw [approvalCount_recordDecision, hd]
    simp
  refine ⟨rfl, rfl, fun name => ?_, fun name hg hx => ?_, fun name step hstep hx => ?_⟩
  · change approvalCount (recordDecision d.run gate c) name ≤ 1
    have honce := h.once name
    have hnone := h.pending hs gate hp
    rw [hsum]
    split_ifs with hn
    · subst hn
      omega
    · exact honce
  · change 0 < approvalCount (recordDecision d.run gate c) name
    have hbacked := h.backed name hg (h.executions_idle hs name ▸ hx)
    rw [hsum]
    omega
  · exact h.attempted name step hstep (h.executions_idle hs name ▸ hx)

omit [StateDict D] in
theorem Gated.decide {d t : Drive D} {c : Decision} (h : Gated wf d)
    (hstep : resume wf d.run c = .ok t) : Gated wf t := by
  obtain ⟨gate, hs, hp, ⟨hd, rfl⟩ | ⟨hd, rfl⟩⟩ := resume_cases hstep
  · have hsame : ∀ name, approvalCount (recordDecision d.run gate c) name =
        approvalCount d.run name := fun name => by rw [approvalCount_recordDecision, hd]; simp
    refine ⟨fun hl => absurd trivial hl, trivial, fun name => ?_, fun name hg hx => ?_,
      fun name step hstep hx => ?_, fun hp => by cases hp⟩
    · exact (hsame name).trans_le (h.once name)
    · exact (h.backed name hg (h.executions_idle hs name ▸ hx)).trans_eq (hsame name).symm
    · exact h.attempted name step hstep (h.executions_idle hs name ▸ hx)
  · exact (h.approve hs hp hd).head (some gate)

omit [StateDict D] in
theorem cover_decide {d t : Drive D} {c : Decision} (h : Gated wf d) (hc : ApprovalsCover wf d)
    (hstep : resume wf d.run c = .ok t) : ApprovalsCover wf t := by
  obtain ⟨gate, hs, hp, ht⟩ := resume_cases hstep
  have hmore : ∀ name, Gate wf name →
      executed d.run name ≤ approvalCount (recordDecision d.run gate c) name := fun name hg => by
    have hcover := hc name hg
    rw [h.executions_idle hs] at hcover
    rw [approvalCount_recordDecision]
    omega
  rcases ht with ⟨hd, rfl⟩ | ⟨hd, rfl⟩
  · exact hmore
  · refine (cover_head (h.approve hs hp hd) hmore (some gate)).mpr ?_
    rintro _ ⟨⟩ hg _
    have hzero := hc gate hg
    rw [h.executions_idle hs, h.pending hs gate hp] at hzero
    exact Nat.le_zero.mp hzero

theorem Gated.step {d t : Drive D} {a : GateAction D} (h : Gated wf d)
    (hstep : gateStep wf d a = some t) : Gated wf t := by
  cases a with
  | reply r => exact h.reply hstep
  | decide c =>
    simp only [gateStep] at hstep
    split at hstep
    · cases hstep
      exact h
    · cases hstep
      exact h.decide ‹_›

theorem cover_step {d t : Drive D} {a : GateAction D} (h : Gated wf d) (hc : ApprovalsCover wf d)
    (hstep : gateStep wf d a = some t) : ApprovalsCover wf t ↔ FreshGates wf d a := by
  cases a with
  | reply r => exact cover_reply h hc hstep
  | decide c =>
    simp only [gateStep] at hstep
    refine iff_of_true ?_ trivial
    split at hstep
    · cases hstep
      exact hc
    · cases hstep
      exact cover_decide h hc ‹_›

omit [StateDict D] in
theorem ready_newRun (wf : WorkflowDef) (id createdAt : String) (inputState : D) :
    Ready wf (approvedSteps (newRun wf id createdAt inputState)) (newRun wf id createdAt inputState) := by
  refine ⟨rfl, rfl, fun name => ?_, fun name _ hx => ?_, fun name step _ hx => ?_⟩ <;>
    simp [approvalCount, executed, newRun] at *

omit [StateDict D] in
theorem cover_execute (wf : WorkflowDef) (id createdAt : String) (inputState : D) :
    ApprovalsCover wf (execute wf id createdAt inputState) := by
  refine (cover_head (ready_newRun wf id createdAt inputState) ?_ _).mpr ?_ <;>
    simp [executed, newRun]

def CoveredThroughout (wf : WorkflowDef) (d : Drive D) (as : List (GateAction D)) : Prop :=
  ∀ xs ys u, as = xs ++ ys → exec (gateStep wf) d xs = some u → ApprovalsCover wf u

theorem approvals_cover_iff {id createdAt : String} {inputState : D} {as : List (GateAction D)}
    {t : Drive D} (h : exec (gateStep wf) (execute wf id createdAt inputState) as = some t) :
    CoveredThroughout wf (execute wf id createdAt inputState) as ↔
      Obeys (gateStep wf) (FreshGates wf) (execute wf id createdAt inputState) as := by
  have hstart : Gated wf (execute wf id createdAt inputState) :=
    (ready_newRun wf id createdAt inputState).head (some wf.entry)
  have hgated : ∀ xs u, exec (gateStep wf) (execute wf id createdAt inputState) xs = some u →
      Gated wf u := fun xs u hu =>
    (reaches_of_exec hu (obeys_always _ xs)).invariant hstart fun _ _ _ hi _ hstep => hi.step hstep
  constructor
  · intro hc
    apply obeys_iff.mpr
    intro xs a ys u has hu
    subst has
    obtain ⟨v, hv⟩ := step_of_exec h hu
    have hexec : exec (gateStep wf) (execute wf id createdAt inputState) (xs ++ [a]) = some v := by
      simp [exec_append, hu, exec, hv]
    have hbefore : ApprovalsCover wf u := hc xs (a :: ys) u rfl hu
    exact (cover_step (hgated xs u hu) hbefore hv).mp (hc (xs ++ [a]) ys v (by simp) hexec)
  · rintro ho xs ys u rfl hu
    have hboth : Gated wf u ∧ ApprovalsCover wf u :=
      (reaches_of_exec hu (obeys_append.mp ho).1).invariant
        (I := fun u => Gated wf u ∧ ApprovalsCover wf u)
        ⟨hstart, cover_execute wf id createdAt inputState⟩
        fun _ _ _ hi hg hstep => ⟨hi.1.step hstep, (cover_step hi.1 hi.2 hstep).mpr hg⟩
    exact hboth.2

instance : StateDict Unit := ⟨(), fun _ _ => ()⟩

def grants (gated : Bool) : WorkflowDef where
  name := "grants"
  steps := [⟨"grant", .branch, 1, 0, gated, none⟩]
  nonempty := by simp
  unique := by simp
  known := by simp

def approvedOnce (next : Option String) : List (GateAction Unit) :=
  [.decide ⟨.approved, "alice", none, "now"⟩, .reply ⟨⟨0, (), .ok none⟩, ⟨(), .ok next⟩⟩,
    .reply ⟨⟨0, (), .ok none⟩, ⟨(), .ok next⟩⟩]

theorem revisited_gate_uncovered : ¬ CoveredThroughout (grants true)
    (execute (grants true) "r" "now" ()) (approvedOnce (some "grant")) := by
  intro h
  have htwice := h (approvedOnce (some "grant")) [] _ rfl rfl "grant" (by decide)
  exact absurd htwice (by decide)

theorem visited_gate_covered : CoveredThroughout (grants true)
    (execute (grants true) "r" "now" ()) (approvedOnce none) := by
  have hsome : (exec (gateStep (grants true)) (execute (grants true) "r" "now" ())
      (approvedOnce none)).isSome := by decide
  obtain ⟨t, ht⟩ := Option.isSome_iff_exists.mp hsome
  exact (approvals_cover_iff ht).mpr (by decide)

end Workbench.WorkflowEngine
