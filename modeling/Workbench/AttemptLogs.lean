import Workbench.RunStates

namespace Workbench.WorkflowEngine

open Transitions

variable {D : Type} {wf : WorkflowDef}

def numbers (k : ℕ) : List ℤ := (List.range k).map fun i => (i : ℤ) + 1

theorem numbers_succ (k : ℕ) : numbers (k + 1) = numbers k ++ [(k : ℤ) + 1] := by
  simp [numbers, List.range_succ]

structure Block (wf : WorkflowDef) (D : Type) where
  step : Step
  retried : List (StepAttempt D)
  last : StepAttempt D
  member : step ∈ wf.steps
  named : ∀ a ∈ retried ++ [last], a.step = step.name
  numbered : (retried ++ [last]).map StepAttempt.attempt = numbers (retried.length + 1)
  bounded : (retried.length : ℤ) + 1 ≤ step.maxAttempts
  again : ∀ a ∈ retried, a.status = .retried
  ended : last.status = .succeeded ∨
    last.status = .failed ∧ (retried.length : ℤ) + 1 = step.maxAttempts

def Block.attempts (b : Block wf D) : List (StepAttempt D) := b.retried ++ [b.last]

section Replay

variable [StateDict D]

def merged (input : D) (attempts : List (StepAttempt D)) : D :=
  (attempts.filter fun a => a.status = .succeeded).foldl
    (fun state a => StateDict.update state a.updates) input

/-- Where the loop comes to after these executions, when `choose n name state` is what the branch
function of the step `name` answers on `state` after `n` of them. -/
def comesTo (choose : ℕ → String → D → Option String) (input : D) (blocks : List (Block wf D)) :
    Option String :=
  match blocks.getLast? with
  | none => some wf.entry
  | some b => match b.step.next with
    | .stop => none
    | .goto name => some name
    | .branch =>
      choose blocks.length b.step.name (merged input (blocks.flatMap Block.attempts))

def Path (choose : ℕ → String → D → Option String) (input : D) (blocks : List (Block wf D)) : Prop :=
  ∀ before b after, blocks = before ++ b :: after → comesTo choose input before = some b.step.name

structure Replays (choose : ℕ → String → D → Option String) (input : D) (run : WorkflowRun D)
    (blocks : List (Block wf D)) : Prop where
  attempts : run.attempts = blocks.flatMap Block.attempts
  executed : blocks.length = run.stepsExecuted
  path : Path choose input blocks
  failed : ∀ before b after, blocks = before ++ b :: after → b.last.status = .failed →
    after = [] ∧ run.status = .failed
  state : run.state = merged input run.attempts

end Replay

def StepsKeep (d : Drive D) : GateAction D → Prop
  | .reply r => match d.point with
    | .running _ _ => r.step.state = d.run.state
    | _ => True
  | .decide _ => True

def BranchesChoose (choose : ℕ → String → D → Option String) (d : Drive D) : GateAction D → Prop
  | .reply r => match d.point with
    | .branching step =>
      r.branch = ⟨d.run.state, .ok (choose d.run.stepsExecuted step.name d.run.state)⟩
    | _ => True
  | .decide _ => True

def StepsCaught (d : Drive D) : GateAction D → Prop
  | .reply r => StepAnswers d r
  | .decide _ => True

instance (d : Drive D) (a : GateAction D) : Decidable (StepsCaught d a) :=
  match a with
  | .reply r => inferInstanceAs (Decidable (StepAnswers d r))
  | .decide _ => isTrue trivial

instance [DecidableEq D] (d : Drive D) : ∀ a : GateAction D, Decidable (StepsKeep d a)
  | .reply r =>
    show Decidable (match d.point with
      | .running _ _ => r.step.state = d.run.state
      | _ => True) from
    match d.point with
    | .running _ _ => inferInstanceAs (Decidable (r.step.state = d.run.state))
    | .sleeping _ _ | .branching _ | .returned | .raised _ => isTrue trivial
  | .decide _ => isTrue trivial

instance [DecidableEq D] (choose : ℕ → String → D → Option String) (d : Drive D) :
    ∀ a : GateAction D, Decidable (BranchesChoose choose d a)
  | .reply r =>
    show Decidable (match d.point with
      | .branching step =>
        r.branch = ⟨d.run.state, .ok (choose d.run.stepsExecuted step.name d.run.state)⟩
      | _ => True) from
    match d.point with
    | .branching step => inferInstanceAs (Decidable (r.branch =
        ⟨d.run.state, .ok (choose d.run.stepsExecuted step.name d.run.state)⟩))
    | .running _ _ | .sleeping _ _ | .returned | .raised _ => isTrue trivial
  | .decide _ => isTrue trivial

structure Tried (step : Step) (attempts : List (StepAttempt D)) : Prop where
  named : ∀ a ∈ attempts, a.step = step.name
  numbered : attempts.map StepAttempt.attempt = numbers attempts.length
  again : ∀ a ∈ attempts, a.status = .retried

theorem Tried.nil (step : Step) : Tried step ([] : List (StepAttempt D)) := ⟨by simp, rfl, by simp⟩

theorem Tried.named_append {step : Step} {attempts : List (StepAttempt D)} (h : Tried step attempts)
    {a : StepAttempt D} (hname : a.step = step.name) : ∀ b ∈ attempts ++ [a], b.step = step.name := by
  intro b hb
  rcases List.mem_append.mp hb with hold | hnew
  · exact h.named b hold
  · rw [List.mem_singleton.mp hnew]
    exact hname

theorem Tried.numbered_append {step : Step} {attempts : List (StepAttempt D)}
    (h : Tried step attempts) {a : StepAttempt D} (hnumber : a.attempt = attempts.length + 1) :
    (attempts ++ [a]).map StepAttempt.attempt = numbers (attempts.length + 1) := by
  rw [List.map_append, h.numbered, numbers_succ, List.map_singleton, hnumber]

theorem Tried.retry {step : Step} {attempts : List (StepAttempt D)} (h : Tried step attempts)
    {a : StepAttempt D} (hname : a.step = step.name) (hnumber : a.attempt = attempts.length + 1)
    (hstatus : a.status = .retried) : Tried step (attempts ++ [a]) where
  named := h.named_append hname
  numbered := by
    rw [h.numbered_append hnumber, List.length_append, List.length_singleton]
  again b hb := by
    rcases List.mem_append.mp hb with hold | hnew
    · exact h.again b hold
    · rw [List.mem_singleton.mp hnew]
      exact hstatus

def Tried.close {step : Step} {attempts : List (StepAttempt D)} (h : Tried step attempts)
    (hm : step ∈ wf.steps) (last : StepAttempt D) (hname : last.step = step.name)
    (hnumber : last.attempt = attempts.length + 1)
    (hbound : (attempts.length : ℤ) + 1 ≤ step.maxAttempts)
    (hended : last.status = .succeeded ∨
      last.status = .failed ∧ (attempts.length : ℤ) + 1 = step.maxAttempts) : Block wf D where
  step := step
  retried := attempts
  last := last
  member := hm
  named := h.named_append hname
  numbered := h.numbered_append hnumber
  bounded := hbound
  again := h.again
  ended := hended

variable [StateDict D] {choose : ℕ → String → D → Option String} {input : D}

theorem merged_append (attempts : List (StepAttempt D)) (a : StepAttempt D) :
    merged input (attempts ++ [a]) =
      if a.status = .succeeded then StateDict.update (merged input attempts) a.updates
      else merged input attempts := by
  by_cases hs : a.status = .succeeded <;> simp [merged, List.filter_append, hs]

theorem split_append {α : Type} {xs before after : List α} {x y : α}
    (h : xs ++ [x] = before ++ y :: after) :
    before = xs ∧ y = x ∧ after = [] ∨ ∃ rest, xs = before ++ y :: rest ∧ after = rest ++ [x] := by
  rcases List.eq_nil_or_concat after with rfl | ⟨rest, z, rfl⟩
  · obtain ⟨hxs, hx⟩ := List.append_inj' h rfl
    exact .inl ⟨hxs.symm, (List.singleton_inj.mp hx).symm, rfl⟩
  · have hlonger : xs ++ [x] = (before ++ y :: rest) ++ [z] := by simpa using h
    obtain ⟨hxs, hx⟩ := List.append_inj' hlonger rfl
    rw [List.singleton_inj.mp hx]
    exact .inr ⟨rest, hxs, by simp⟩

theorem Path.append {blocks : List (Block wf D)} (h : Path choose input blocks) {b : Block wf D}
    (hb : comesTo choose input blocks = some b.step.name) : Path choose input (blocks ++ [b]) := by
  intro before c after he
  rcases split_append he with ⟨rfl, rfl, _⟩ | ⟨rest, hrest, _⟩
  · exact hb
  · exact h before c rest hrest

structure Log (choose : ℕ → String → D → Option String) (input : D) (run : WorkflowRun D)
    (blocks : List (Block wf D)) (tried : List (StepAttempt D)) : Prop where
  attempts : run.attempts = blocks.flatMap Block.attempts ++ tried
  path : Path choose input blocks
  succeeded : ∀ b ∈ blocks, b.last.status = .succeeded
  state : run.state = merged input run.attempts

structure Trying (choose : ℕ → String → D → Option String) (input : D) (run : WorkflowRun D)
    (step : Step) (blocks : List (Block wf D)) (tried : List (StepAttempt D)) : Prop where
  log : Log choose input run blocks tried
  tried : Tried step tried
  executed : blocks.length + 1 = run.stepsExecuted
  comes : comesTo choose input blocks = some step.name
  member : step ∈ wf.steps

def Traced (wf : WorkflowDef) (choose : ℕ → String → D → Option String) (input : D) (d : Drive D) :
    Prop :=
  match d.point with
  | .running step n => ∃ (blocks : List (Block wf D)) (tried : List (StepAttempt D)),
      Trying choose input d.run step blocks tried ∧ n = tried.length + 1 ∧ n ≤ step.maxAttempts
  | .sleeping step n => ∃ (blocks : List (Block wf D)) (tried : List (StepAttempt D)),
      Trying choose input d.run step blocks tried ∧ n = tried.length ∧ n < step.maxAttempts
  | .branching step => ∃ (blocks : List (Block wf D)) (b : Block wf D),
      Log choose input d.run (blocks ++ [b]) [] ∧ blocks.length + 1 = d.run.stepsExecuted ∧
        b.step = step ∧ step.next = .branch
  | .returned => ∃ blocks : List (Block wf D), Replays choose input d.run blocks ∧
      (d.run.status = .awaitingApproval → d.run.pendingStep = comesTo choose input blocks ∧
        ∀ b ∈ blocks, b.last.status = .succeeded)
  | .raised _ => True

theorem Log.replays {run run' : WorkflowRun D} {blocks : List (Block wf D)}
    (h : Log choose input run blocks []) (hx : blocks.length = run.stepsExecuted)
    (ha : run'.attempts = run.attempts) (hs : run'.state = run.state)
    (he : run'.stepsExecuted = run.stepsExecuted) : Replays choose input run' blocks where
  attempts := by rw [ha, h.attempts, List.append_nil]
  executed := hx.trans he.symm
  path := h.path
  failed before b after hsplit hfailed := by
    have hsucceeded := h.succeeded b (hsplit ▸ by simp)
    rw [hfailed] at hsucceeded
    cases hsucceeded
  state := by rw [hs, ha]; exact h.state

theorem Log.head {run : WorkflowRun D} {blocks : List (Block wf D)}
    (hmax : ∀ step ∈ wf.steps, 1 ≤ step.maxAttempts) (h : Log choose input run blocks [])
    (hx : blocks.length = run.stepsExecuted) (hs : run.status = .running) (approved : List String) :
    Traced wf choose input (loopHead wf approved run (comesTo choose input blocks)) := by
  have hhead := loopHead_cases wf approved run (comesTo choose input blocks)
  generalize hc : comesTo choose input blocks = current at hhead
  generalize loopHead wf approved run current = t at hhead ⊢
  cases hhead with
  | done => exact ⟨blocks, h.replays hx rfl rfl rfl, by simp [finish, hs]⟩
  | exhausted name hb => exact ⟨blocks, h.replays hx rfl rfl rfl, by simp [finish]⟩
  | unknown name hb hstep => trivial
  | suspends name step hb hstep hr hn =>
    refine ⟨blocks, h.replays hx rfl rfl rfl, fun _ => ⟨?_, h.succeeded⟩⟩
    rw [hc, WorkflowDef.step_name hstep]
  | begins name step hb hstep hg hm =>
    refine ⟨blocks, [], ⟨⟨h.attempts, h.path, h.succeeded, h.state⟩, .nil step, ?_, ?_, ?_⟩, rfl, hm⟩
    · change blocks.length + 1 = run.stepsExecuted + 1
      rw [hx]
    · rw [hc, WorkflowDef.step_name hstep]
    · exact WorkflowDef.step_mem hstep
  | skips name step hb hstep hg hm =>
    have hleast := hmax step (WorkflowDef.step_mem hstep)
    omega

theorem gives_up {d t : Drive D} {r : Reply D} {step : Step} {n : ℤ} (h : answer wf d r = some t)
    (ht : t.point = .returned) (hp : d.point = .sleeping step n ∨
      d.point = .running step n ∧ ∃ exc, r.step.result = .error exc) : step.maxAttempts < n + 1 := by
  by_contra hn
  have hmore : n + 1 ≤ step.maxAttempts := by omega
  rcases hp with hp | ⟨hp, exc, hr⟩
  · simp only [answer, hp, tryAttempt, hmore, ↓reduceIte] at h
    cases h
    cases ht
  · simp only [answer, hp, hr, tryAttempt, hmore, ↓reduceIte] at h
    split_ifs at h <;> (cases h; cases ht)

def failedAttempt (step : Step) (n : ℤ) (r : StepReply D) (exc : Exc) : StepAttempt D :=
  ⟨step.name, n, if n = step.maxAttempts then .failed else .retried, r.latencyMs,
    some (exc.typeName ++ ": " ++ exc.message), StateDict.empty⟩

def succeededAttempt (step : Step) (n : ℤ) (r : StepReply D) (updates : Option D) : StepAttempt D :=
  ⟨step.name, n, .succeeded, r.latencyMs, none, updates.getD StateDict.empty⟩

theorem recordFailure_attempts (run : WorkflowRun D) (step : Step) (n : ℤ) (r : StepReply D)
    (exc : Exc) : (recordFailure run step n r exc).attempts =
      run.attempts ++ [failedAttempt step n r exc] := rfl

theorem recordSuccess_attempts (run : WorkflowRun D) (step : Step) (n : ℤ) (r : StepReply D)
    (updates : Option D) : (recordSuccess run step n r updates).attempts =
      run.attempts ++ [succeededAttempt step n r updates] := rfl

theorem merged_failure {run : WorkflowRun D} {r : StepReply D} (hkeep : r.state = run.state)
    (hlog : run.state = merged input run.attempts) (step : Step) (n : ℤ) (exc : Exc) :
    (recordFailure run step n r exc).state =
      merged input (recordFailure run step n r exc).attempts := by
  have hstatus : (failedAttempt step n r exc).status ≠ .succeeded := by
    unfold failedAttempt
    split_ifs <;> simp
  rw [recordFailure_attempts, merged_append, if_neg hstatus, ← hlog]
  exact hkeep

theorem Trying.failure {run : WorkflowRun D} {step : Step} {blocks : List (Block wf D)}
    {tried : List (StepAttempt D)} (h : Trying choose input run step blocks tried) {r : StepReply D}
    (hkeep : r.state = run.state) (hmore : (tried.length : ℤ) + 1 ≠ step.maxAttempts) (exc : Exc) :
    Trying choose input (recordFailure run step (tried.length + 1) r exc) step blocks
      (tried ++ [failedAttempt step (tried.length + 1) r exc]) := by
  refine ⟨⟨?_, h.log.path, h.log.succeeded, ?_⟩, ?_, h.executed, h.comes, h.member⟩
  · rw [recordFailure_attempts, h.log.attempts, List.append_assoc]
  · exact merged_failure hkeep h.log.state step _ exc
  · exact h.tried.retry rfl rfl (if_neg hmore)

theorem Trying.fail {run : WorkflowRun D} {step : Step} {blocks : List (Block wf D)}
    {tried : List (StepAttempt D)} (h : Trying choose input run step blocks tried) {r : StepReply D}
    (hkeep : r.state = run.state) (hlast : (tried.length : ℤ) + 1 = step.maxAttempts) (exc : Exc)
    (message : Option String) :
    ∃ blocks' : List (Block wf D), Replays choose input
      { recordFailure run step (tried.length + 1) r exc with status := .failed, error := message }
      blocks' := by
  let b : Block wf D := h.tried.close h.member (failedAttempt step (tried.length + 1) r exc) rfl rfl
    hlast.le (.inr ⟨if_pos hlast, hlast⟩)
  have hattempts : (recordFailure run step (tried.length + 1) r exc).attempts =
      (blocks ++ [b]).flatMap Block.attempts := by
    rw [recordFailure_attempts, h.log.attempts]
    simp [b, Block.attempts, Tried.close]
  refine ⟨blocks ++ [b], hattempts, ?_, h.log.path.append h.comes, ?_,
    merged_failure hkeep h.log.state step _ exc⟩
  · rw [List.length_append, List.length_singleton]
    exact h.executed
  · intro before c after he hc
    rcases split_append he with ⟨_, _, rfl⟩ | ⟨rest, hrest, _⟩
    · exact ⟨rfl, rfl⟩
    · have hsucceeded := h.log.succeeded c (hrest ▸ by simp)
      rw [hc] at hsucceeded
      cases hsucceeded

theorem Trying.success {run : WorkflowRun D} {step : Step} {blocks : List (Block wf D)}
    {tried : List (StepAttempt D)} (h : Trying choose input run step blocks tried) {r : StepReply D}
    (hkeep : r.state = run.state) (hbound : (tried.length : ℤ) + 1 ≤ step.maxAttempts)
    (updates : Option D) :
    ∃ b : Block wf D, b.step = step ∧ Log choose input
      (recordSuccess run step (tried.length + 1) r updates) (blocks ++ [b]) [] := by
  let b : Block wf D := h.tried.close h.member (succeededAttempt step (tried.length + 1) r updates)
    rfl rfl hbound (.inl rfl)
  refine ⟨b, rfl, ?_, h.log.path.append h.comes, ?_, ?_⟩
  · rw [recordSuccess_attempts, h.log.attempts]
    simp [b, Block.attempts, Tried.close]
  · intro c hc
    rcases List.mem_append.mp hc with hold | hnew
    · exact h.log.succeeded c hold
    · rw [List.mem_singleton.mp hnew]
      rfl
  · have hstatus : (succeededAttempt step (tried.length + 1) r updates).status = .succeeded := rfl
    rw [recordSuccess_attempts, merged_append, if_pos hstatus, ← h.log.state, ← hkeep]
    rfl

theorem comesTo_append (blocks : List (Block wf D)) (b : Block wf D) :
    comesTo choose input (blocks ++ [b]) = match b.step.next with
      | .stop => none
      | .goto name => some name
      | .branch => choose (blocks.length + 1) b.step.name
          (merged input ((blocks ++ [b]).flatMap Block.attempts)) := by
  simp [comesTo]

theorem Traced.reply {d t : Drive D} {r : Reply D}
    (hmax : ∀ step ∈ wf.steps, 1 ≤ step.maxAttempts) (h : Traced wf choose input d)
    (hrun : d.run.status = .running) (hkeep : StepsKeep d (.reply r))
    (hchoose : BranchesChoose choose d (.reply r)) (hstep : answer wf d r = some t) :
    Traced wf choose input t := by
  unfold Traced at h
  unfold StepsKeep at hkeep
  unfold BranchesChoose at hchoose
  cases answer_cases hstep with
  | sleeps step n exc hp hr hn =>
    simp only [hp] at h hkeep
    obtain ⟨blocks, tried, htry, rfl, hle⟩ := h
    exact ⟨blocks, _, htry.failure hkeep hn exc, by simp, lt_of_le_of_ne hle hn⟩
  | retries step n exc hp hr hn =>
    simp only [hp] at h hkeep
    obtain ⟨blocks, tried, htry, rfl, hle⟩ := h
    exact ⟨blocks, _, htry.failure hkeep (by omega) exc, by simp, hn⟩
  | fails step n exc hp hr =>
    simp only [hp] at h hkeep
    obtain ⟨blocks, tried, htry, rfl, hle⟩ := h
    have hlast := gives_up hstep rfl (.inr ⟨hp, exc, hr⟩)
    obtain ⟨blocks', hreplays⟩ := htry.fail hkeep (by omega) exc (some (attemptsError step))
    exact ⟨blocks', hreplays, by simp [finish]⟩
  | branches step n updates hp hr hn =>
    simp only [hp] at h hkeep
    obtain ⟨blocks, tried, htry, rfl, hle⟩ := h
    obtain ⟨b, hb, hlog⟩ := htry.success hkeep hle updates
    exact ⟨blocks, b, hlog, htry.executed, hb, hn⟩
  | stops step n updates hp hr hn =>
    simp only [hp] at h hkeep
    obtain ⟨blocks, tried, htry, rfl, hle⟩ := h
    obtain ⟨b, hb, hlog⟩ := htry.success hkeep hle updates
    have hnext := hlog.head hmax ((List.length_append ..).trans htry.executed) hrun d.approved
    rwa [comesTo_append, hb, hn] at hnext
  | goes step n updates name hp hr hn =>
    simp only [hp] at h hkeep
    obtain ⟨blocks, tried, htry, rfl, hle⟩ := h
    obtain ⟨b, hb, hlog⟩ := htry.success hkeep hle updates
    have hnext := hlog.head hmax ((List.length_append ..).trans htry.executed) hrun d.approved
    rwa [comesTo_append, hb, hn] at hnext
  | wakes step n hp hn =>
    simp only [hp] at h
    obtain ⟨blocks, tried, htry, rfl, hlt⟩ := h
    exact ⟨blocks, tried, htry, rfl, hn⟩
  | oversleeps step n hp =>
    simp only [hp] at h
    obtain ⟨blocks, tried, htry, rfl, hlt⟩ := h
    have hlast := gives_up hstep rfl (.inl hp)
    omega
  | escapes step n exc hp hr => trivial
  | raises step exc hp hr => trivial
  | chooses step current hp hr =>
    simp only [hp] at h hchoose
    obtain ⟨blocks, b, hlog, hx, rfl, hn⟩ := h
    have hlog' : Log choose input { d.run with state := r.branch.state } (blocks ++ [b]) [] := by
      refine ⟨hlog.attempts, hlog.path, hlog.succeeded, ?_⟩
      rw [hchoose]
      exact hlog.state
    have hnext := hlog'.head hmax ((List.length_append ..).trans hx) hrun d.approved
    have hcurrent : comesTo choose input (blocks ++ [b]) = current := by
      have hattempts : d.run.attempts = (blocks ++ [b]).flatMap Block.attempts := by
        rw [hlog.attempts, List.append_nil]
      rw [hchoose] at hr
      rw [comesTo_append, hn, ← hattempts, ← hlog.state, hx]
      exact Except.ok.inj hr
    rwa [hcurrent] at hnext

theorem Traced.decide {d t : Drive D} {c : Decision}
    (hmax : ∀ step ∈ wf.steps, 1 ≤ step.maxAttempts) (h : Traced wf choose input d)
    (hstated : Stated wf d) (hstep : resume wf d.run c = .ok t) : Traced wf choose input t := by
  obtain ⟨gate, hs, hp, ht⟩ := resume_cases hstep
  have hreturned : d.point = .returned := by
    cases hpoint : d.point with
    | returned => rfl
    | raised exc =>
      rcases hstated.sound with hsound | ⟨hr, _⟩
      · have hbroken := hsound.broken (by rw [hpoint]; trivial)
        rw [hs] at hbroken
        cases hbroken
      · rw [hpoint] at hr
        cases hr
    | _ =>
      rcases hstated.sound with hsound | ⟨hr, _⟩
      · have hlive := hsound.live (by simp [hpoint, Point.Ended])
        rw [hs] at hlive
        cases hlive
      · rw [hpoint] at hr
        cases hr
  simp only [Traced, hreturned] at h
  obtain ⟨blocks, hreplays, hawaits⟩ := h
  obtain ⟨hcomes, hsucceeded⟩ := hawaits hs
  have hlog : Log choose input d.run blocks [] :=
    ⟨by rw [hreplays.attempts, List.append_nil], hreplays.path, hsucceeded, hreplays.state⟩
  rcases ht with ⟨_, rfl⟩ | ⟨_, rfl⟩
  · exact ⟨blocks, hlog.replays hreplays.executed rfl rfl rfl, by simp⟩
  · have hresumed : Log choose input { recordDecision d.run gate c with status := .running } blocks [] :=
      ⟨hlog.attempts, hlog.path, hlog.succeeded, hlog.state⟩
    have hnext := hresumed.head hmax hreplays.executed rfl
      (approvedSteps { recordDecision d.run gate c with status := .running })
    rwa [← hcomes, hp] at hnext

omit [StateDict D] in
theorem unbroken_of_chooses (hknown : ∀ n name state, ∀ target ∈ choose n name state,
    target ∈ wf.steps.map Step.name) {d : Drive D} {a : GateAction D}
    (h : BranchesChoose choose d a) (hcaught : StepsCaught d a) : Unbroken wf d a := by
  cases a with
  | decide c => trivial
  | reply r =>
    refine ⟨hcaught, ?_⟩
    unfold BranchesChoose at h
    unfold BranchAnswers
    cases hp : d.point with
    | branching step =>
      simp only [hp] at h
      simp only [h]
      cases hc : choose d.run.stepsExecuted step.name d.run.state with
      | none => trivial
      | some target => exact .inl (hknown _ _ _ target hc)
    | _ => trivial

theorem Traced.step {d t : Drive D} {a : GateAction D}
    (hmax : ∀ step ∈ wf.steps, 1 ≤ step.maxAttempts) (h : Traced wf choose input d)
    (hstated : Stated wf d) (hkeep : StepsKeep d a) (hchoose : BranchesChoose choose d a)
    (hstep : gateStep wf d a = some t) : Traced wf choose input t := by
  cases a with
  | reply r =>
    rcases hstated.sound with hsound | ⟨hr, _⟩
    · exact h.reply hmax (hsound.live (live_of_answer hstep)) hkeep hchoose hstep
    · exact absurd (hr ▸ trivial) (live_of_answer hstep)
  | decide c =>
    simp only [gateStep] at hstep
    split at hstep
    · cases hstep
      exact h
    · cases hstep
      exact h.decide hmax hstated ‹_›

theorem traced_execute (hmax : ∀ step ∈ wf.steps, 1 ≤ step.maxAttempts) (id createdAt : String)
    (input : D) : Traced wf choose input (execute wf id createdAt input) := by
  have hnew : Log choose input (newRun wf id createdAt input) ([] : List (Block wf D)) [] := by
    refine ⟨rfl, fun before b after he => ?_, by simp, rfl⟩
    simp at he
  exact hnew.head hmax rfl rfl (approvedSteps (newRun wf id createdAt input))

theorem returned_runs_replay (wf : WorkflowDef) (choose : ℕ → String → D → Option String)
    (id createdAt : String) (input : D) (as : List (GateAction D)) (t : Drive D)
    (hmax : ∀ step ∈ wf.steps, 1 ≤ step.maxAttempts)
    (hknown : ∀ n name state, ∀ target ∈ choose n name state, target ∈ wf.steps.map Step.name)
    (h : exec (gateStep wf) (execute wf id createdAt input) as = some t)
    (ho : Obeys (gateStep wf) (fun d a => StepsKeep d a ∧ BranchesChoose choose d a)
      (execute wf id createdAt input) as)
    (hended : t.point.Ended) :
    (Obeys (gateStep wf) StepsCaught (execute wf id createdAt input) as → t.point = .returned) ∧
      (t.point = .returned → ∃ blocks : List (Block wf D), Replays choose input t.run blocks) := by
  have hboth : Stated wf t ∧ Traced wf choose input t := by
    refine (reaches_of_exec h ho).invariant (I := fun u => Stated wf u ∧ Traced wf choose input u)
      ⟨stated_execute wf id createdAt input, traced_execute hmax id createdAt input⟩ ?_
    intro d a u hd hg hstep
    exact ⟨hd.1.step hstep, hd.2.step hmax hd.1 hg.1 hg.2 hstep⟩
  constructor
  · intro hcaught
    have hunbroken : Obeys (gateStep wf) (Unbroken wf) (execute wf id createdAt input) as := by
      apply obeys_iff.mpr
      intro xs a ys u has hu
      exact unbroken_of_chooses hknown (obeys_iff.mp ho xs a ys u has hu).2
        (obeys_iff.mp hcaught xs a ys u has hu)
    have hunraised := (answered_reached h hunbroken).unraised
    cases hp : t.point with
    | returned => rfl
    | raised exc => exact absurd (hp ▸ trivial) hunraised
    | _ => simp [hp, Point.Ended] at hended
  · intro hreturned
    have htraced := hboth.2
    simp only [Traced, hreturned] at htraced
    obtain ⟨blocks, hreplays, _⟩ := htraced
    exact ⟨blocks, hreplays⟩

def publishing : WorkflowDef where
  name := "publishing"
  steps := [⟨"draft", .goto "publish", 2, 0, false, none⟩, ⟨"publish", .branch, 1, 0, true, none⟩]
  nonempty := by simp
  unique := by decide
  known := by simp

def noDict : Dict String ℕ := StateDict.empty

def draftDict : Dict String ℕ := ⟨[("draft", 1)], by simp⟩

def publishedOnce : List (GateAction (Dict String ℕ)) :=
  [.reply ⟨⟨5, noDict, .error ⟨"ValueError", "busy"⟩⟩, ⟨noDict, .ok none⟩⟩,
    .reply ⟨⟨5, noDict, .ok (some draftDict)⟩, ⟨noDict, .ok none⟩⟩,
    .decide ⟨.approved, "alice", none, "now"⟩,
    .reply ⟨⟨5, draftDict, .ok none⟩, ⟨draftDict, .ok none⟩⟩,
    .reply ⟨⟨5, draftDict, .ok none⟩, ⟨draftDict, .ok none⟩⟩]

theorem published_run_replays : ∃ t, exec (gateStep publishing)
    (execute publishing "r" "now" noDict) publishedOnce = some t ∧
      t.run.state = draftDict ∧ ∃ blocks : List (Block publishing (Dict String ℕ)),
        Replays (fun _ _ _ => none) noDict t.run blocks := by
  refine ⟨_, rfl, by decide, ?_⟩
  exact (returned_runs_replay publishing (fun _ _ _ => none) "r" "now" noDict publishedOnce _
    (by decide) (by simp) rfl (by decide) trivial).2 rfl

def markedOnce : List (GateAction (Dict String ℕ)) :=
  publishedOnce.take 4 ++ [.reply ⟨⟨5, draftDict, .ok none⟩, ⟨noDict, .ok none⟩⟩]

theorem marking_branch_unlogged : ∃ t, exec (gateStep publishing)
    (execute publishing "r" "now" noDict) markedOnce = some t ∧
      Obeys (gateStep publishing) StepsKeep (execute publishing "r" "now" noDict) markedOnce ∧
      Obeys (gateStep publishing) (Unbroken publishing)
        (execute publishing "r" "now" noDict) markedOnce ∧
      t.point = .returned ∧ ∀ choose (blocks : List (Block publishing (Dict String ℕ))),
        ¬ Replays choose noDict t.run blocks := by
  refine ⟨_, rfl, by decide, by decide, rfl, fun choose blocks h => ?_⟩
  exact absurd h.state (by decide)

end Workbench.WorkflowEngine
