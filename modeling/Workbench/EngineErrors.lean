import Workbench.EngineRuns

namespace Workbench.WorkflowEngine

open Transitions

variable {D : Type} {wf : WorkflowDef}

def Point.Raised : Point → Prop
  | .raised _ => True
  | _ => False

instance (p : Point) : Decidable p.Raised :=
  match p with
  | .raised _ => isTrue trivial
  | .running _ _ | .sleeping _ _ | .branching _ | .returned => isFalse id

/-- A branch function returns `None` or a step of the workflow, or the step budget is used up. -/
def BranchAnswers (wf : WorkflowDef) (d : Drive D) (r : Reply D) : Prop :=
  match d.point with
  | .branching _ => match r.branch.result with
    | .error _ => False
    | .ok none => True
    | .ok (some name) => name ∈ wf.steps.map Step.name ∨ maxStepsPerRun ≤ d.run.stepsExecuted
  | _ => True

instance (wf : WorkflowDef) (d : Drive D) (r : Reply D) : Decidable (BranchAnswers wf d r) := by
  unfold BranchAnswers
  split
  · split <;> infer_instance
  · infer_instance

def StepAnswers (d : Drive D) (r : Reply D) : Prop :=
  match d.point, r.step.result with
  | .running _ _, .escape _ => False
  | _, _ => True

instance (d : Drive D) (r : Reply D) : Decidable (StepAnswers d r) := by
  unfold StepAnswers
  split
  · infer_instance
  · infer_instance

def CallAnswers (wf : WorkflowDef) (d : Drive D) (r : Reply D) : Prop :=
  StepAnswers d r ∧ BranchAnswers wf d r

instance (wf : WorkflowDef) (d : Drive D) (r : Reply D) : Decidable (CallAnswers wf d r) :=
  inferInstanceAs (Decidable (_ ∧ _))

def Point.step? : Point → Option Step
  | .running step _ => some step
  | .sleeping step _ => some step
  | .branching step => some step
  | _ => none

structure Sound (wf : WorkflowDef) (d : Drive D) : Prop where
  live : ¬ d.point.Ended → d.run.status = .running
  member : ∀ step ∈ d.point.step?, step ∈ wf.steps
  settled : d.point = .returned →
    d.run.status = .completed ∨ d.run.status = .failed ∨ d.run.status = .awaitingApproval
  pending : d.run.status = .awaitingApproval →
    ∃ gate ∈ d.run.pendingStep, gate ∈ wf.steps.map Step.name
  broken : d.point.Raised → d.run.status = .running

theorem Sound.finish {approved : List String} {run : WorkflowRun D}
    (h : run.status = .running ∨ run.status = .failed) : Sound wf (finish approved run) where
  live hl := absurd trivial hl
  member := by simp [WorkflowEngine.finish, Point.step?]
  settled _ := by rcases h with h | h <;> simp [WorkflowEngine.finish, h]
  pending hp := by rcases h with h | h <;> simp [WorkflowEngine.finish, h] at hp
  broken hr := by cases hr

theorem Sound.loopHead {approved : List String} {run : WorkflowRun D} (h : run.status = .running)
    (current : Option String) : Sound wf (loopHead wf approved run current) := by
  have hhead := loopHead_cases wf approved run current
  generalize WorkflowEngine.loopHead wf approved run current = t at hhead ⊢
  cases hhead with
  | done => exact .finish (.inl h)
  | exhausted name hb => exact .finish (.inr rfl)
  | unknown name hb hs =>
    exact ⟨fun hl => absurd trivial hl, by simp [Point.step?], by simp, by simp [h], fun _ => h⟩
  | suspends name step hb hs hr ha =>
    refine ⟨fun hl => absurd trivial hl, by simp [Point.step?], fun _ => .inr (.inr rfl), fun _ => ?_,
      fun hr => by cases hr⟩
    exact ⟨step.name, rfl, List.mem_map_of_mem (WorkflowDef.step_mem hs)⟩
  | begins name step hb hs ha hm =>
    refine ⟨fun _ => h, ?_, by simp, by simp [h], fun hr => by cases hr⟩
    rintro _ ⟨⟩
    exact WorkflowDef.step_mem hs
  | skips name step hb hs ha hm => exact .finish (.inr rfl)

theorem raised_loopHead {approved : List String} {run : WorkflowRun D} {current : Option String} :
    (loopHead wf approved run current).point.Raised ↔
      ∃ name ∈ current, name ∉ wf.steps.map Step.name ∧ run.stepsExecuted < maxStepsPerRun := by
  have hhead := loopHead_cases wf approved run current
  generalize loopHead wf approved run current = t at hhead ⊢
  have hknown : ∀ {name step}, wf.step name = some step → name ∈ wf.steps.map Step.name :=
    fun hs => WorkflowDef.step_known.mp ⟨_, hs⟩
  cases hhead with
  | done => simp [finish, Point.Raised]
  | exhausted name hb =>
    apply iff_of_false id
    rintro ⟨_, ⟨⟩, _, hlt⟩
    omega
  | unknown name hb hs =>
    refine iff_of_true trivial ⟨name, rfl, fun hn => ?_, hb⟩
    obtain ⟨step, hstep⟩ := WorkflowDef.step_known.mpr hn
    simp [hs] at hstep
  | suspends name step hb hs hr ha =>
    apply iff_of_false id
    rintro ⟨_, ⟨⟩, hn, _⟩
    exact hn (hknown hs)
  | begins name step hb hs ha hm =>
    apply iff_of_false id
    rintro ⟨_, ⟨⟩, hn, _⟩
    exact hn (hknown hs)
  | skips name step hb hs ha hm =>
    apply iff_of_false id
    rintro ⟨_, ⟨⟩, hn, _⟩
    exact hn (hknown hs)

variable [StateDict D]

theorem Sound.answer {d t : Drive D} {r : Reply D} (h : Sound wf d)
    (hstep : answer wf d r = some t) : Sound wf t := by
  have hlive : ¬ d.point.Ended := live_of_answer hstep
  have hrun := h.live hlive
  have hmember := h.member
  have hgoes : ∀ {run : WorkflowRun D} {p : Point} {step : Step}, run.status = .running →
      ¬ p.Ended → p.step? = some step → d.point.step? = some step → Sound wf ⟨d.approved, run, p⟩ := by
    intro run p step hr hp hs hd
    refine ⟨fun _ => hr, fun s hs' => ?_, fun he => ?_, fun hw => ?_, fun _ => hr⟩
    · obtain rfl : step = s := Option.some.inj (hs.symm.trans hs')
      exact h.member step hd
    · change p = .returned at he
      exact absurd (he ▸ trivial) hp
    · change run.status = .awaitingApproval at hw
      rw [hr] at hw
      cases hw
  cases answer_cases hstep with
  | sleeps step n exc hp hr hn => exact hgoes hrun id rfl (by simp [hp, Point.step?])
  | retries step n exc hp hr hn => exact hgoes hrun id rfl (by simp [hp, Point.step?])
  | fails step n exc hp hr => exact .finish (.inr rfl)
  | branches step n updates hp hr hn => exact hgoes hrun id rfl (by simp [hp, Point.step?])
  | stops step n updates hp hr hn =>
    refine .loopHead ?_ none
    exact hrun
  | goes step n updates name hp hr hn =>
    refine .loopHead ?_ (some name)
    exact hrun
  | wakes step n hp hn => exact hgoes hrun id rfl (by simp [hp, Point.step?])
  | oversleeps step n hp => exact .finish (.inr rfl)
  | escapes step n exc hp hr =>
    exact ⟨fun hl => absurd trivial hl, by simp [Point.step?], by simp, by simp [hrun], fun _ => hrun⟩
  | raises step exc hp hr =>
    exact ⟨fun hl => absurd trivial hl, by simp [Point.step?], by simp, by simp [hrun], fun _ => hrun⟩
  | chooses step current hp hr =>
    refine .loopHead ?_ current
    exact hrun

theorem raised_answer {d t : Drive D} {r : Reply D} (h : Sound wf d)
    (hstep : answer wf d r = some t) : t.point.Raised ↔ ¬ CallAnswers wf d r := by
  unfold CallAnswers StepAnswers
  cases answer_cases hstep with
  | sleeps step n exc hp hr hn => simp [Point.Raised, BranchAnswers, hp, hr]
  | retries step n exc hp hr hn => simp [Point.Raised, BranchAnswers, hp, hr]
  | fails step n exc hp hr => simp [Point.Raised, BranchAnswers, hp, hr, finish]
  | branches step n updates hp hr hn => simp [Point.Raised, BranchAnswers, hp, hr]
  | stops step n updates hp hr hn => rw [raised_loopHead]; simp [BranchAnswers, hp, hr]
  | goes step n updates name hp hr hn =>
    have hknown : name ∈ wf.steps.map Step.name :=
      wf.known step (h.member step (by simp [hp, Point.step?])) name hn
    rw [raised_loopHead]
    refine iff_of_false ?_ (by simp [BranchAnswers, hp, hr])
    rintro ⟨_, ⟨⟩, hn, _⟩
    exact hn hknown
  | wakes step n hp hn => simp [Point.Raised, BranchAnswers, hp]
  | oversleeps step n hp => simp [Point.Raised, BranchAnswers, hp, finish]
  | escapes step n exc hp hr => simp [Point.Raised, hp, hr]
  | raises step exc hp hr => simp [Point.Raised, BranchAnswers, hp, hr]
  | chooses step current hp hr =>
    rw [raised_loopHead]
    cases current with
    | none => simp [BranchAnswers, hp, hr]
    | some name =>
      simp only [BranchAnswers, hp, hr, true_and, not_or, not_le]
      constructor
      · rintro ⟨_, ⟨⟩, hn, hlt⟩
        exact ⟨hn, hlt⟩
      · rintro ⟨hn, hlt⟩
        exact ⟨name, rfl, hn, hlt⟩

omit [StateDict D] in
theorem callAnswers_ended {d : Drive D} (h : d.point.Ended) (r : Reply D) : CallAnswers wf d r := by
  unfold CallAnswers StepAnswers BranchAnswers
  cases hp : d.point with
  | running step n => simp [hp, Point.Ended] at h
  | branching step => simp [hp, Point.Ended] at h
  | _ => exact ⟨trivial, trivial⟩

theorem Point.Raised.ended {p : Point} (h : p.Raised) : p.Ended := by
  cases p with
  | raised exc => trivial
  | _ => cases h

theorem play_ended_eq {d : Drive D} (h : d.point.Ended) (rs : List (Reply D)) :
    play wf d rs = d := by
  cases rs with
  | nil => rfl
  | cons r rs => rw [play, answer_eq_none.mpr h]

theorem complete_ended_eq {d : Drive D} (h : d.point.Ended) (env : ℕ → Reply D) :
    complete wf env d = d := play_ended_eq h _

theorem raised_play {d : Drive D} (h : Sound wf d) (hr : ¬ d.point.Raised) (rs : List (Reply D)) :
    (play wf d rs).point.Raised ↔ ¬ Obeys (answer wf) (CallAnswers wf) d rs := by
  induction rs generalizing d with
  | nil => exact iff_of_false hr (by simp [Obeys])
  | cons r rs ih =>
    simp only [play, Obeys]
    cases ha : answer wf d r with
    | none =>
      refine iff_of_false hr fun hn => hn ⟨callAnswers_ended (answer_eq_none.mp ha) r, ?_⟩
      simp
    | some t =>
      have hraised := raised_answer h ha
      simp only [Option.mem_def, Option.some.injEq, forall_eq']
      by_cases ht : t.point.Raised
      · rw [play_ended_eq ht.ended]
        exact iff_of_true ht fun hn => hraised.mp ht hn.1
      · rw [ih (h.answer ha) ht]
        have hanswers : CallAnswers wf d r := by
          by_contra hn
          exact ht (hraised.mpr hn)
        simp [hanswers]

omit [StateDict D] in
theorem running_loopHead {approved : List String} {run : WorkflowRun D} {current : Option String}
    (h : run.status = .running) (hp : ¬ (loopHead wf approved run current).point.Ended ∨
      (loopHead wf approved run current).point.Raised) :
    (loopHead wf approved run current).run.status = .running := by
  have hhead := loopHead_cases wf approved run current
  generalize loopHead wf approved run current = t at hhead hp ⊢
  cases hhead <;> simp [finish, Point.Ended, Point.Raised] at hp <;> exact h

theorem running_complete {d : Drive D}
    (h : ¬ d.point.Ended ∨ d.point.Raised → d.run.status = .running) (env : ℕ → Reply D)
    (hp : (complete wf env d).point.Raised) : (complete wf env d).run.status = .running := by
  have hkeep : ∀ (d : Drive D) (r : Reply D) (t : Drive D),
      (¬ d.point.Ended ∨ d.point.Raised → d.run.status = .running) → answer wf d r = some t →
        ¬ t.point.Ended ∨ t.point.Raised → t.run.status = .running := by
    intro d r t hd hstep ht
    have hrun := hd (.inl (live_of_answer hstep))
    cases answer_cases hstep with
    | stops step n updates hp hr hn => exact running_loopHead hrun ht
    | goes step n updates name hp hr hn => exact running_loopHead hrun ht
    | chooses step current hp hr => exact running_loopHead hrun ht
    | fails step n exc hp hr => simp [finish, Point.Ended, Point.Raised] at ht
    | oversleeps step n hp => simp [finish, Point.Ended, Point.Raised] at ht
    | _ => exact hrun
  have hend := play_invariant (I := fun t => ¬ t.point.Ended ∨ t.point.Raised →
    t.run.status = .running) hkeep h ((List.range (fuel wf d)).map env)
  exact hend (.inr hp)

def CallsAnswer (wf : WorkflowDef) (env : ℕ → Reply D) (d : Drive D) : Prop :=
  Obeys (answer wf) (CallAnswers wf) d ((List.range (fuel wf d)).map env)

instance (wf : WorkflowDef) (env : ℕ → Reply D) (d : Drive D) :
    Decidable (CallsAnswer wf env d) := decidableObeys _ _ _ _

def Settles (d : Drive D) : Prop :=
  d.point = .returned ∧
    (d.run.status = .completed ∨ d.run.status = .failed ∨ d.run.status = .awaitingApproval)

theorem Sound.complete {d : Drive D} (h : Sound wf d) (env : ℕ → Reply D) :
    Sound wf (complete wf env d) :=
  play_invariant (fun _ _ _ hs hstep => hs.answer hstep) h _

theorem raised_complete {d : Drive D} (h : Sound wf d) (hr : ¬ d.point.Raised) (env : ℕ → Reply D) :
    (complete wf env d).point.Raised ↔ ¬ CallsAnswer wf env d := raised_play h hr _

theorem settles_complete {d : Drive D} (h : Sound wf d) (hr : ¬ d.point.Raised)
    (env : ℕ → Reply D) : Settles (complete wf env d) ↔ CallsAnswer wf env d := by
  have hraised := raised_complete h hr env
  have hended := complete_ended wf env d
  have hsound := h.complete env
  constructor
  · rintro ⟨hp, _⟩
    by_contra hn
    have habsurd := hraised.mpr hn
    rw [hp] at habsurd
    exact habsurd
  · intro hb
    cases hp : (complete wf env d).point with
    | returned => exact ⟨hp, hsound.settled hp⟩
    | raised exc =>
      rw [hp] at hraised
      exact absurd hb (hraised.mp trivial)
    | running step n => simp [hp, Point.Ended] at hended
    | sleeping step n => simp [hp, Point.Ended] at hended
    | branching step => simp [hp, Point.Ended] at hended

omit [StateDict D] in
theorem sound_execute (wf : WorkflowDef) (id createdAt : String) (inputState : D) :
    Sound wf (execute wf id createdAt inputState) ∧
      ¬ (execute wf id createdAt inputState).point.Raised := by
  unfold execute drive
  refine ⟨Sound.loopHead ?_ (some wf.entry), ?_⟩
  · rfl
  · rw [raised_loopHead]
    rintro ⟨_, ⟨⟩, hn, _⟩
    exact hn wf.entry_known

end Workbench.WorkflowEngine
