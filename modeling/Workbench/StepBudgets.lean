import Workbench.RunStates
import Mathlib.Tactic.Linarith

namespace Workbench.WorkflowEngine

open Transitions

variable {D : Type} {wf : WorkflowDef}

def largestAttempts (wf : WorkflowDef) : ℤ := (wf.steps.map Step.maxAttempts).max?.getD 0

theorem le_largestAttempts {step : Step} (h : step ∈ wf.steps) :
    step.maxAttempts ≤ largestAttempts wf := by
  have hmem := List.mem_map_of_mem (f := Step.maxAttempts) h
  unfold largestAttempts
  cases hmax : (wf.steps.map Step.maxAttempts).max? with
  | none =>
    rw [List.max?_eq_none_iff.mp hmax] at hmem
    cases hmem
  | some n => exact (List.max?_eq_some_iff.mp hmax).2 _ hmem

def Point.calls : Point → ℕ
  | .running _ _ => 1
  | _ => 0

def Point.Affords (m attempts steps : ℤ) : Point → Prop
  | .running step n => attempts + 1 ≤ m * (steps - 1) + n ∧ n ≤ step.maxAttempts ∧ step.maxAttempts ≤ m
  | .sleeping step n => attempts ≤ m * (steps - 1) + n ∧ n ≤ step.maxAttempts ∧ step.maxAttempts ≤ m
  | _ => attempts ≤ m * steps

structure Metered (wf : WorkflowDef) (d : Drive D) : Prop where
  steps : d.run.stepsExecuted ≤ maxStepsPerRun
  awaiting : d.run.status = .awaitingApproval → d.run.stepsExecuted < maxStepsPerRun
  affords : d.point.Affords (max 0 (largestAttempts wf)) d.run.attempts.length d.run.stepsExecuted

theorem Metered.finish {run : WorkflowRun D} (hs : run.status ≠ .awaitingApproval)
    (hsteps : run.stepsExecuted ≤ maxStepsPerRun)
    (h : (run.attempts.length : ℤ) ≤ max 0 (largestAttempts wf) * run.stepsExecuted)
    (approved : List String) : Metered wf (finish approved run) where
  steps := hsteps
  awaiting hw := by
    simp only [WorkflowEngine.finish] at hw
    split_ifs at hw
    exact absurd hw hs
  affords := h

theorem Metered.fail {run : WorkflowRun D} (hsteps : run.stepsExecuted ≤ maxStepsPerRun)
    (h : (run.attempts.length : ℤ) ≤ max 0 (largestAttempts wf) * run.stepsExecuted)
    (approved : List String) (message : String) : Metered wf
      (WorkflowEngine.finish approved { run with status := .failed, error := some message }) := by
  apply Metered.finish
  · nofun
  · exact hsteps
  · exact h

theorem Metered.loopHead {run : WorkflowRun D} (hs : run.status = .running)
    (hsteps : run.stepsExecuted ≤ maxStepsPerRun)
    (h : (run.attempts.length : ℤ) ≤ max 0 (largestAttempts wf) * run.stepsExecuted)
    (approved : List String) (current : Option String) :
    Metered wf (loopHead wf approved run current) := by
  have hm : 0 ≤ max 0 (largestAttempts wf) := le_max_left _ _
  have hhead := loopHead_cases wf approved run current
  generalize WorkflowEngine.loopHead wf approved run current = t at hhead ⊢
  have hmore : (run.attempts.length : ℤ) ≤
      max 0 (largestAttempts wf) * ((run.stepsExecuted + 1 : ℕ) : ℤ) := by
    push_cast
    linarith
  cases hhead with
  | done => exact .finish (by rw [hs]; nofun) hsteps h approved
  | exhausted name hb => exact .fail hsteps h approved budgetError
  | unknown name hb hstep => exact ⟨hsteps, fun _ => hb, h⟩
  | suspends name step hb hstep hr ha => exact ⟨hsteps, fun _ => hb, h⟩
  | begins name step hb hstep ha hfirst =>
    have hle := le_largestAttempts (WorkflowDef.step_mem hstep)
    refine ⟨hb, fun hw => ?_, ?_, hfirst, hle.trans (le_max_right _ _)⟩
    · change run.status = .awaitingApproval at hw
      rw [hs] at hw
      cases hw
    · push_cast
      linarith
  | skips name step hb hstep ha hnone =>
    let counted : WorkflowRun D := { run with stepsExecuted := run.stepsExecuted + 1 }
    have hcounted : counted.stepsExecuted ≤ maxStepsPerRun := hb
    exact Metered.fail hcounted hmore approved (attemptsError step)

variable [StateDict D]

theorem Metered.answer {d t : Drive D} {r : Reply D} (hrun : d.run.status = .running)
    (h : Metered wf d) (hstep : answer wf d r = some t) : Metered wf t := by
  have hquiet : d.run.status ≠ .awaitingApproval := by
    rw [hrun]
    nofun
  have haffords := h.affords
  have hlogged : ∀ {step n}, d.point = .running step n → ((d.run.attempts.length + 1 : ℕ) : ℤ) ≤
      max 0 (largestAttempts wf) * d.run.stepsExecuted := by
    intro step n hp
    rw [hp] at haffords
    obtain ⟨hspent, hn, hm⟩ := haffords
    push_cast
    linarith
  have hslept : ∀ {step n}, d.point = .sleeping step n → (d.run.attempts.length : ℤ) ≤
      max 0 (largestAttempts wf) * d.run.stepsExecuted := by
    intro step n hp
    rw [hp] at haffords
    obtain ⟨hspent, hn, hm⟩ := haffords
    linarith
  cases answer_cases hstep with
  | sleeps step n exc hp hr hn =>
    rw [hp] at haffords
    obtain ⟨hspent, hle, hm⟩ := haffords
    refine ⟨h.steps, h.awaiting, ?_, hle, hm⟩
    simpa [recordFailure] using hspent
  | retries step n exc hp hr hn =>
    rw [hp] at haffords
    obtain ⟨hspent, hle, hm⟩ := haffords
    refine ⟨h.steps, h.awaiting, ?_, hn, hm⟩
    simp only [recordFailure, List.length_append, List.length_singleton]
    push_cast
    linarith
  | fails step n exc hp hr =>
    apply Metered.fail
    · exact h.steps
    · simpa [recordFailure] using hlogged hp
  | branches step n updates hp hr hn =>
    refine ⟨h.steps, h.awaiting, ?_⟩
    simpa [recordSuccess, Point.Affords] using hlogged hp
  | stops step n updates hp hr hn =>
    apply Metered.loopHead
    · exact hrun
    · exact h.steps
    · simpa [recordSuccess] using hlogged hp
  | goes step n updates name hp hr hn =>
    apply Metered.loopHead
    · exact hrun
    · exact h.steps
    · simpa [recordSuccess] using hlogged hp
  | wakes step n hp hn =>
    rw [hp] at haffords
    obtain ⟨hspent, hle, hm⟩ := haffords
    exact ⟨h.steps, h.awaiting, by linarith, hn, hm⟩
  | oversleeps step n hp => exact .fail h.steps (hslept hp) d.approved (attemptsError step)
  | escapes step n exc hp hr =>
    have hlogged' := hlogged hp
    push_cast at hlogged'
    refine ⟨h.steps, h.awaiting, ?_⟩
    change (d.run.attempts.length : ℤ) ≤ _
    linarith
  | raises step exc hp hr =>
    rw [hp] at haffords
    exact ⟨h.steps, h.awaiting, haffords⟩
  | chooses step current hp hr =>
    rw [hp] at haffords
    apply Metered.loopHead
    · exact hrun
    · exact h.steps
    · exact haffords

omit [StateDict D] in
theorem Metered.decide {d t : Drive D} {c : Decision} (hended : d.point.Ended) (h : Metered wf d)
    (hstep : resume wf d.run c = .ok t) : Metered wf t := by
  have hspent : (d.run.attempts.length : ℤ) ≤ max 0 (largestAttempts wf) * d.run.stepsExecuted := by
    have haffords := h.affords
    cases hp : d.point with
    | returned => rwa [hp] at haffords
    | raised exc => rwa [hp] at haffords
    | _ => simp [hp, Point.Ended] at hended
  obtain ⟨gate, hs, hp, ⟨hd, rfl⟩ | ⟨hd, rfl⟩⟩ := resume_cases hstep
  · constructor
    · exact h.steps
    · intro hawaiting
      cases hawaiting
    · exact hspent
  · apply Metered.loopHead
    · rfl
    · exact h.steps
    · exact hspent

omit [StateDict D] in
theorem Stated.ended_of_awaiting {d : Drive D} (h : Stated wf d)
    (hs : d.run.status = .awaitingApproval) : d.point.Ended := by
  by_contra hlive
  rcases h.sound with hsound | ⟨hp, _⟩
  · rw [hsound.live hlive] at hs
    cases hs
  · exact hlive (hp ▸ trivial)

theorem Stated.running_of_answer {d t : Drive D} {r : Reply D} (h : Stated wf d)
    (hstep : WorkflowEngine.answer wf d r = some t) : d.run.status = .running := by
  have hlive := live_of_answer hstep
  rcases h.sound with hsound | ⟨hp, _⟩
  · exact hsound.live hlive
  · exact absurd (hp ▸ trivial) hlive

theorem Metered.step {d t : Drive D} {a : GateAction D} (hstated : Stated wf d) (h : Metered wf d)
    (hstep : gateStep wf d a = some t) : Metered wf t := by
  cases a with
  | reply r => exact h.answer (hstated.running_of_answer hstep) hstep
  | decide c =>
    simp only [gateStep] at hstep
    split at hstep
    · cases hstep
      exact h
    · rename_i hresume
      cases hstep
      obtain ⟨gate, hs, _⟩ := resume_cases hresume
      exact h.decide (hstated.ended_of_awaiting hs) hresume

def answered (d : Drive D) : GateAction D → ℕ
  | .reply _ => d.point.calls
  | .decide _ => 0

def stepCalls (wf : WorkflowDef) : Drive D → List (GateAction D) → ℕ
  | d, [] => d.point.calls
  | d, a :: as => answered d a + ((gateStep wf d a).elim 0 fun t => stepCalls wf t as)

omit [StateDict D] in
theorem attempts_loopHead (approved : List String) (run : WorkflowRun D) (current : Option String) :
    (loopHead wf approved run current).run.attempts = run.attempts := by
  have hhead := loopHead_cases wf approved run current
  generalize loopHead wf approved run current = t at hhead ⊢
  cases hhead <;> rfl

theorem attempts_gateStep {d t : Drive D} {a : GateAction D} (h : gateStep wf d a = some t) :
    t.run.attempts.length = d.run.attempts.length + answered d a ∨
      t.point.Raised ∧ t.run.status = d.run.status ∧ ∃ r, a = .reply r := by
  cases a with
  | reply r =>
    simp only [answered]
    cases answer_cases h with
    | sleeps step n exc hp hr hn => simp [hp, Point.calls, recordFailure]
    | retries step n exc hp hr hn => simp [hp, Point.calls, recordFailure]
    | fails step n exc hp hr => simp [hp, Point.calls, finish, recordFailure]
    | branches step n updates hp hr hn => simp [hp, Point.calls, recordSuccess]
    | stops step n updates hp hr hn => simp [hp, Point.calls, attempts_loopHead, recordSuccess]
    | goes step n updates name hp hr hn => simp [hp, Point.calls, attempts_loopHead, recordSuccess]
    | wakes step n hp hn => simp [hp, Point.calls]
    | oversleeps step n hp => simp [hp, Point.calls, finish]
    | escapes step n exc hp hr => exact .inr ⟨trivial, rfl, r, rfl⟩
    | raises step exc hp hr => simp [hp, Point.calls]
    | chooses step current hp hr => simp [hp, Point.calls, attempts_loopHead]
  | decide c =>
    left
    simp only [gateStep] at h
    split at h
    · cases h
      rfl
    · rename_i hresume
      cases h
      obtain ⟨gate, hs, hp, ⟨hd, rfl⟩ | ⟨hd, rfl⟩⟩ := resume_cases hresume
      · rfl
      · rw [drive, attempts_loopHead]
        rfl

theorem stepCalls_raised {d : Drive D} (hp : d.point.Raised) (hs : d.run.status = .running)
    (as : List (GateAction D)) : stepCalls wf d as = 0 := by
  have hended := hp.ended
  have hcalls : d.point.calls = 0 := by
    cases hpoint : d.point with
    | running step n => simp [hpoint, Point.Ended] at hended
    | _ => rfl
  induction as with
  | nil => exact hcalls
  | cons a as ih =>
    rw [stepCalls]
    cases a with
    | reply r =>
      rw [answered, hcalls, gateStep, answer_eq_none.mpr hended]
      rfl
    | decide c =>
      rw [answered, gateStep, resume_refused (by rw [hs]; exact RunStatus.noConfusion)]
      simpa using ih

omit [StateDict D] in
theorem Metered.calls {d : Drive D} (h : Metered wf d) :
    ((d.run.attempts.length + d.point.calls : ℕ) : ℤ) ≤
      maxStepsPerRun * max 0 (largestAttempts wf) := by
  have hm : 0 ≤ max 0 (largestAttempts wf) := le_max_left _ _
  have hsteps : max 0 (largestAttempts wf) * d.run.stepsExecuted ≤
      max 0 (largestAttempts wf) * maxStepsPerRun :=
    mul_le_mul_of_nonneg_left (Int.ofNat_le.mpr h.steps) hm
  have haffords := h.affords
  cases hp : d.point with
  | running step n =>
    rw [hp] at haffords
    obtain ⟨hspent, hn, hle⟩ := haffords
    push_cast [Point.calls]
    linarith
  | sleeping step n =>
    rw [hp] at haffords
    obtain ⟨hspent, hn, hle⟩ := haffords
    push_cast [Point.calls]
    linarith
  | _ =>
    rw [hp] at haffords
    simp only [Point.Affords] at haffords
    push_cast [Point.calls]
    linarith

omit [StateDict D] in
theorem answered_le (d : Drive D) (a : GateAction D) : answered d a ≤ d.point.calls := by
  cases a with
  | reply r => exact Nat.le_refl _
  | decide c => exact Nat.zero_le _

theorem stepCalls_le {d : Drive D} (hstated : Stated wf d) (h : Metered wf d)
    (as : List (GateAction D)) : ((d.run.attempts.length + stepCalls wf d as : ℕ) : ℤ) ≤
      maxStepsPerRun * max 0 (largestAttempts wf) := by
  induction as generalizing d with
  | nil => exact h.calls
  | cons a as ih =>
    rw [stepCalls]
    have hcalls := h.calls
    have hanswered := answered_le d a
    cases hstep : gateStep wf d a with
    | none =>
      rw [Option.elim_none]
      push_cast at hcalls ⊢
      omega
    | some t =>
      rw [Option.elim_some]
      rcases attempts_gateStep hstep with hlogged | ⟨hraised, hstatus, r, rfl⟩
      · have hlater := ih (hstated.step hstep) (h.step hstated hstep)
        push_cast [hlogged] at hlater ⊢
        linarith
      · rw [stepCalls_raised hraised (hstatus.trans (hstated.running_of_answer hstep))]
        push_cast at hcalls ⊢
        omega

theorem quoted_ne (text : String) : "step '" ++ text ≠ budgetError := by
  intro h
  have hquote : ("step '" ++ text).toList[5]? = some (Char.ofNat 39) := by
    rw [String.toList_append, List.getElem?_append_left (by decide)]
    decide
  have hletter : budgetError.toList[5]? = some 'b' := by decide +kernel
  rw [h, hletter] at hquote
  exact absurd hquote (by decide)

theorem attemptsError_ne (step : Step) : attemptsError step ≠ budgetError := by
  unfold attemptsError
  rw [String.append_assoc, String.append_assoc, String.append_assoc]
  exact quoted_ne _

theorem rejection_ne (gate actor : String) :
    "step '" ++ gate ++ "' rejected by " ++ actor ≠ budgetError := by
  rw [String.append_assoc, String.append_assoc]
  exact quoted_ne _

def OutOfSteps (run : WorkflowRun D) : Prop :=
  run.status = .failed ∧ run.error = some budgetError

def WithinBudget (d : Drive D) : GateAction D → Prop
  | .reply r => (destination d r).isSome → d.run.stepsExecuted < maxStepsPerRun
  | .decide _ => True

omit [StateDict D] in
theorem outOfSteps_loopHead (approved : List String) {run : WorkflowRun D} (h : run.error = none)
    (current : Option String) :
    OutOfSteps (loopHead wf approved run current).run ↔
      current.isSome ∧ maxStepsPerRun ≤ run.stepsExecuted := by
  have hhead := loopHead_cases wf approved run current
  generalize loopHead wf approved run current = t at hhead ⊢
  cases hhead with
  | done => simp [OutOfSteps, finish, h]
  | exhausted name hb => simp [OutOfSteps, finish, hb]
  | unknown name hb hs => simp [OutOfSteps, h, hb]
  | suspends name step hb hs hr ha => simp [OutOfSteps, h, hb]
  | begins name step hb hs ha hm => simp [OutOfSteps, h, hb]
  | skips name step hb hs ha hm => simp [OutOfSteps, finish, attemptsError_ne, hb]

theorem outOfSteps_answer {d t : Drive D} {r : Reply D} (h : d.run.error = none)
    (hstep : answer wf d r = some t) :
    OutOfSteps t.run ↔ ¬ WithinBudget d (.reply r) := by
  unfold WithinBudget
  cases answer_cases hstep with
  | sleeps step n exc hp hr hn => simp [OutOfSteps, destination, hp, hr, recordFailure, h]
  | retries step n exc hp hr hn => simp [OutOfSteps, destination, hp, hr, recordFailure, h]
  | fails step n exc hp hr => simp [OutOfSteps, destination, hp, hr, finish, attemptsError_ne]
  | branches step n updates hp hr hn => simp [OutOfSteps, destination, hp, hr, hn, recordSuccess, h]
  | stops step n updates hp hr hn =>
    rw [outOfSteps_loopHead]
    · simp [destination, hp, hr, hn]
    · exact h
  | goes step n updates name hp hr hn =>
    rw [outOfSteps_loopHead]
    · simp [destination, hp, hr, hn, recordSuccess]
    · exact h
  | wakes step n hp hn => simp [OutOfSteps, destination, hp, h]
  | oversleeps step n hp => simp [OutOfSteps, destination, hp, finish, attemptsError_ne]
  | escapes step n exc hp hr => simp [OutOfSteps, destination, hp, hr, h]
  | raises step exc hp hr => simp [OutOfSteps, destination, hp, hr, h]
  | chooses step current hp hr =>
    rw [outOfSteps_loopHead]
    · simp [destination, hp, hr]
    · exact h

theorem outOfSteps_gateStep {d t : Drive D} {a : GateAction D} (hstated : Stated wf d)
    (h : Metered wf d) (hstep : gateStep wf d a = some t) : OutOfSteps t.run ↔
      OutOfSteps d.run ∨ ¬ WithinBudget d a := by
  cases a with
  | reply r =>
    obtain ⟨_, _, herror, _⟩ := hstated.coherent.idle (hstated.running_of_answer hstep)
    rw [outOfSteps_answer herror hstep]
    simp [OutOfSteps, herror]
  | decide c =>
    simp only [gateStep] at hstep
    split at hstep
    · cases hstep
      simp [WithinBudget]
    · rename_i hresume
      cases hstep
      obtain ⟨gate, hs, hp, ht⟩ := resume_cases hresume
      have herror : d.run.error = none := by
        by_contra hn
        have hended := hstated.coherent.error.mp (Option.isSome_iff_ne_none.mpr hn)
        simp [hs] at hended
      have hleft := h.awaiting hs
      rcases ht with ⟨hd, rfl⟩ | ⟨hd, rfl⟩
      · simp [OutOfSteps, WithinBudget, herror, rejection_ne]
      · rw [drive, outOfSteps_loopHead]
        · simp [OutOfSteps, WithinBudget, herror, recordDecision, hleft]
        · exact herror

theorem outOfSteps_run {d t : Drive D} {as : List (GateAction D)} (hstated : Stated wf d)
    (h : Metered wf d) (hrun : exec (gateStep wf) d as = some t) :
    OutOfSteps t.run ↔
      OutOfSteps d.run ∨ ¬ Obeys (gateStep wf) WithinBudget d as := by
  induction as generalizing d with
  | nil =>
    cases hrun
    simp [Obeys]
  | cons a as ih =>
    obtain ⟨u, hu, hrest⟩ := Option.bind_eq_some_iff.mp hrun
    rw [ih (hstated.step hu) (h.step hstated hu) hrest, outOfSteps_gateStep hstated h hu]
    simp only [Obeys, hu, Option.mem_def, Option.some.injEq, forall_eq', not_and_or, or_assoc]

omit [StateDict D] in
theorem metered_execute (wf : WorkflowDef) (id createdAt : String) (inputState : D) :
    Metered wf (execute wf id createdAt inputState) := by
  unfold execute drive
  apply Metered.loopHead
  · rfl
  · exact Nat.zero_le _
  · simp [newRun]

omit [StateDict D] in
theorem not_outOfSteps_execute (wf : WorkflowDef) (id createdAt : String) (inputState : D) :
    ¬ OutOfSteps (execute wf id createdAt inputState).run := by
  unfold execute drive
  rw [outOfSteps_loopHead _ rfl]
  simp [newRun, maxStepsPerRun]

theorem metered_reached {id createdAt : String} {inputState : D} {as : List (GateAction D)}
    {d : Drive D} (h : exec (gateStep wf) (execute wf id createdAt inputState) as = some d) :
    Metered wf d := by
  have hboth : Stated wf d ∧ Metered wf d := by
    apply (reaches_of_exec h (obeys_always _ as)).invariant
    · exact ⟨stated_execute wf id createdAt inputState, metered_execute wf id createdAt inputState⟩
    · intro d a t hd _ hstep
      exact ⟨hd.1.step hstep, hd.2.step hd.1 hstep⟩
  exact hboth.2

theorem Answered.returns {d : Drive D} (h : Answered wf d) {env : ℕ → Reply D}
    (hb : CallsAnswer wf env d) : (complete wf env d).point = .returned := by
  rcases h.stated.sound with hsound | ⟨hp, _⟩
  · exact ((settles_complete hsound h.unraised env).mpr hb).1
  · rw [complete_ended_eq (hp ▸ trivial)]
    exact hp

/-- The loop is bounded over the whole life of a run: every drive comes to its end, a run executes
no more than so many steps, at so many attempts each, and fails for want of steps just when one
more is due. -/
theorem step_budget (wf : WorkflowDef) (id createdAt : String) (inputState : D)
    {as : List (GateAction D)} {d : Drive D}
    (h : exec (gateStep wf) (execute wf id createdAt inputState) as = some d) :
    (∀ env, (complete wf env d).point.Ended ∧
        (Obeys (gateStep wf) (Unbroken wf) (execute wf id createdAt inputState) as →
          CallsAnswer wf env d → (complete wf env d).point = .returned)) ∧
      d.run.stepsExecuted ≤ maxStepsPerRun ∧
      (stepCalls wf (execute wf id createdAt inputState) as : ℤ) ≤
        maxStepsPerRun * max 0 (largestAttempts wf) ∧
      (OutOfSteps d.run ↔
        ∃ xs r ys u, as = xs ++ .reply r :: ys ∧
          exec (gateStep wf) (execute wf id createdAt inputState) xs = some u ∧
          (destination u r).isSome ∧ u.run.stepsExecuted = maxStepsPerRun) := by
  have hmetered := metered_reached h
  refine ⟨?_, hmetered.steps, ?_, ?_⟩
  · intro env
    exact ⟨complete_ended wf env d, fun hb => (answered_reached h hb).returns⟩
  · have hcalls := stepCalls_le (stated_execute wf id createdAt inputState)
      (metered_execute wf id createdAt inputState) as
    rwa [show (execute wf id createdAt inputState).run.attempts = [] from attempts_loopHead _ _ _,
      List.length_nil, Nat.zero_add] at hcalls
  · rw [outOfSteps_run (stated_execute wf id createdAt inputState)
      (metered_execute wf id createdAt inputState) h, or_iff_right (not_outOfSteps_execute wf id createdAt inputState),
      obeys_iff]
    constructor
    · intro hover
      push Not at hover
      obtain ⟨xs, a, ys, u, has, hu, hbeyond⟩ := hover
      cases a with
      | decide c => exact absurd trivial hbeyond
      | reply r =>
        obtain ⟨hdue, hspent⟩ := Classical.not_imp.mp hbeyond
        have hsteps := (metered_reached hu).steps
        exact ⟨xs, r, ys, u, has, hu, hdue, by omega⟩
    · rintro ⟨xs, r, ys, u, has, hu, hdue, hsteps⟩ hwithin
      have hless := hwithin xs (.reply r) ys u has hu hdue
      omega

def cycling (maxAttempts : ℤ) : WorkflowDef where
  name := "cycling"
  steps := [⟨"again", .branch, maxAttempts, 0, false, none⟩]
  nonempty := by simp
  unique := by simp
  known := by simp

def answers : Reply Unit := ⟨⟨0, (), .ok none⟩, ⟨(), .ok (some "again")⟩⟩

theorem cycling_runs_out : ∃ d, exec (gateStep (cycling 1)) (execute (cycling 1) "r" "now" ())
    (List.replicate 50 (.reply answers)) = some d ∧ OutOfSteps d.run ∧
      d.run.stepsExecuted ≤ maxStepsPerRun := by
  have hlast : (exec (gateStep (cycling 1)) (execute (cycling 1) "r" "now" ())
      (List.replicate 49 (.reply answers))).map
        (fun u => ((destination u answers).isSome, u.run.stepsExecuted)) = some (true, 25) := by
    decide +kernel
  have hwhole : (exec (gateStep (cycling 1)) (execute (cycling 1) "r" "now" ())
      (List.replicate 50 (.reply answers))).isSome = true := by
    decide +kernel
  obtain ⟨u, hu, hdue⟩ := Option.map_eq_some_iff.mp hlast
  obtain ⟨d, hd⟩ := Option.isSome_iff_exists.mp hwhole
  obtain ⟨-, hsteps, -, hout⟩ := step_budget (cycling 1) "r" "now" () hd
  refine ⟨d, hd, hout.mpr ⟨_, answers, [], u, ?_, hu, ?_, ?_⟩, hsteps⟩
  · rfl
  · exact congrArg Prod.fst hdue
  · exact congrArg Prod.snd hdue

theorem negative_attempts_exceed : ∃ d, exec (gateStep (cycling (-1)))
    (execute (cycling (-1)) "r" "now" ()) [] = some d ∧
      ¬ (stepCalls (cycling (-1)) (execute (cycling (-1)) "r" "now" ()) [] : ℤ) ≤
        maxStepsPerRun * largestAttempts (cycling (-1)) :=
  ⟨_, rfl, by decide +kernel⟩

end Workbench.WorkflowEngine
