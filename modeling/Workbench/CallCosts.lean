import Workbench.AgentLoop
import Workbench.Ledgers

namespace Workbench.AgentRuntime

open Ledgers

variable {J : Type}

theorem addCost_eq (a b : Option ℚ) :
    addCost a b = a.bind fun x => b.map fun y => x + y := by
  cases a with
  | none => rfl
  | some x => cases b <;> rfl

def costOf (calls : List (StepOutput J)) : Option ℚ := total (calls.map StepOutput.costUsd)

def usageOfCalls (calls : List (StepOutput J)) : Usage :=
  ⟨(calls.map fun out => out.usage.inputTokens).sum, (calls.map fun out => out.usage.outputTokens).sum⟩

theorem costOf_append (as bs : List (StepOutput J)) :
    costOf (as ++ bs) = addCost (costOf as) (costOf bs) := by
  rw [addCost_eq, costOf, List.map_append, total_append]
  rfl

theorem costOf_singleton (out : StepOutput J) : costOf [out] = out.costUsd := total_singleton _

theorem addCost_zero (cost : Option ℚ) : addCost (some 0) cost = cost := by
  cases cost <;> simp [addCost]

theorem addCost_costOf_nil (cost : Option ℚ) : addCost cost (costOf ([] : List (StepOutput J))) = cost := by
  cases cost <;> simp [addCost, costOf, total]

theorem addCost_assoc (a b c : Option ℚ) : addCost (addCost a b) c = addCost a (addCost b c) := by
  cases a <;> cases b <;> cases c <;> simp [addCost, add_assoc]

theorem usageOfCalls_append (as bs : List (StepOutput J)) :
    usageOfCalls (as ++ bs) = (usageOfCalls as).add (usageOfCalls bs) := by
  simp [usageOfCalls, Usage.add]

theorem usageOfCalls_singleton (out : StepOutput J) : usageOfCalls [out] = out.usage := by
  simp [usageOfCalls]

theorem Usage.add_assoc (u v w : Usage) : (u.add v).add w = u.add (v.add w) := by
  simp [Usage.add, Int.add_assoc]

theorem Usage.zero_add (u : Usage) : Usage.zero.add u = u := by
  simp [Usage.add, Usage.zero]

section Made

variable (dumps : J → String) (agent : Agent) (parts : List ContextPart)

/-- The answers `router.step` gave in a round: that of the summarizer, if it was asked, and that of
the model, if the round came so far. -/
def roundCalls (s : AgentState J) (r : StepReply J) : List (StepOutput J) :=
  match compactionCut dumps agent.contextPolicy s.transcript with
  | none => r.out.toOption.toList
  | some _ =>
    match r.summary with
    | .ok summary => summary :: r.out.toOption.toList
    | .error _ => []

def callsMade (env : ℕ → StepReply J) : ℕ → ℕ → AgentState J → List (StepOutput J)
  | 0, _, _ => []
  | n + 1, index, s => roundCalls dumps agent s (env index) ++
    match takeStep dumps agent parts s index (env index) with
    | (t, none) => callsMade env n (index + 1) t
    | (_, some _) => []

end Made

def AgentState.recorded (s : AgentState J) : ℕ := s.prompts.length + s.exchanges.length

def raisedCalls : Except Exc (AgentRun J) → ℕ
  | .ok _ => 0
  | .error _ => 1

def ToolExecution.key (e : ToolExecution J) : String × String × J := (e.toolCallId, e.name, e.arguments)

def ToolCall.key (c : ToolCall J) : String × String × J := (c.id, c.name, c.arguments)

def Executes (step : AgentStep J) : Prop :=
  step.toolExecutions.map ToolExecution.key = step.output.toolCalls.map ToolCall.key

theorem executes_agentStep (agent : Agent) (out : StepOutput J) (tool : ℕ → ToolOutcome) :
    Executes (agentStep agent out tool) := by
  apply List.ext_getElem?
  intro k
  simp only [agentStep, List.getElem?_map, List.getElem?_mapIdx, Option.map_map]
  rfl

structure Accounts (s t : AgentState J) (calls : List (StepOutput J)) : Prop where
  usage : t.usage = s.usage.add (usageOfCalls calls)
  cost : t.cost = addCost s.cost (costOf calls)
  executes : (∀ step ∈ s.steps, Executes step) → ∀ step ∈ t.steps, Executes step

theorem Accounts.trans {s t u : AgentState J} {as bs : List (StepOutput J)} (h : Accounts s t as)
    (k : Accounts t u bs) : Accounts s u (as ++ bs) where
  usage := by rw [k.usage, h.usage, usageOfCalls_append, Usage.add_assoc]
  cost := by rw [k.cost, h.cost, costOf_append, addCost_assoc]
  executes hs := k.executes (h.executes hs)

section Rounds

variable {dumps : J → String} {agent : Agent} {parts : List ContextPart} {s t : AgentState J}
  {index : ℕ} {r : StepReply J}

theorem accounts_send (parts : List ContextPart) (sent : Transcript J) {event : Option CompactionEvent}
    (hc : maybeCompact dumps agent.contextPolicy s.transcript index r.summary = .ok (sent, event)) :
    ∃ summaries, (∀ out, r.out = .ok out → roundCalls dumps agent s r = summaries ++ [out]) ∧
      (send agent parts (askSummary dumps agent s) sent event).usage =
        s.usage.add (usageOfCalls summaries) ∧
      (send agent parts (askSummary dumps agent s) sent event).cost =
        addCost s.cost (costOf summaries) := by
  unfold maybeCompact at hc
  unfold roundCalls send askSummary
  cases hcut : compactionCut dumps agent.contextPolicy s.transcript with
  | none =>
    simp only [hcut] at hc
    cases hc
    refine ⟨[], ?_, ?_, ?_⟩
    · intro out hout
      rw [hout]
      rfl
    · simp [usageOfCalls, Usage.add]
    · exact (addCost_costOf_nil s.cost).symm
  | some cut =>
    simp only [hcut] at hc
    cases hsummary : r.summary with
    | error exc =>
      rw [hsummary] at hc
      cases hc
    | ok summary =>
      rw [hsummary] at hc
      cases hc
      refine ⟨[summary], ?_, ?_, ?_⟩
      · intro out hout
        rw [hout]
        rfl
      · rw [usageOfCalls_singleton]
        rfl
      · rw [costOf_singleton]
        rfl

theorem accounts_takeStep {ending : Option (Except Exc (AgentRun J))}
    (h : takeStep dumps agent parts s index r = (t, ending))
    (hok : ∀ exc, ending ≠ some (.error exc)) :
    Accounts s t (roundCalls dumps agent s r) ∧
      ∀ run, ending = some (.ok run) → ∃ status text, run = finished agent parts t status text := by
  unfold takeStep at h
  cases hc : maybeCompact dumps agent.contextPolicy s.transcript index r.summary with
  | error exc =>
    simp only [hc] at h
    cases h
    exact absurd rfl (hok exc)
  | ok folded =>
    obtain ⟨sent, event⟩ := folded
    obtain ⟨summaries, hcalls, husage, hcost⟩ := accounts_send parts sent hc
    simp only [hc] at h
    cases hout : r.out with
    | error exc =>
      rw [hout] at h
      cases h
      exact absurd rfl (hok exc)
    | ok out =>
      simp only [hout] at h
      have haccounts : Accounts s
          (receive (send agent parts (askSummary dumps agent s) sent event) (agentStep agent out r.tool))
          (roundCalls dumps agent s r) := by
        rw [hcalls out hout]
        constructor
        · rw [usageOfCalls_append, usageOfCalls_singleton, ← Usage.add_assoc, ← husage]
          rfl
        · rw [costOf_append, costOf_singleton, ← addCost_assoc, ← hcost]
          rfl
        · intro hs step hstep
          rcases List.mem_append.mp hstep with hstep | hstep
          · exact hs step hstep
          · rw [List.mem_singleton.mp hstep]
            exact executes_agentStep agent out r.tool
      split_ifs at h
      · cases h
        refine ⟨haccounts, ?_⟩
        intro run hrun
        cases hrun
        exact ⟨_, _, rfl⟩
      · cases h
        exact ⟨haccounts, nofun⟩

theorem recorded_takeStep {ending : Option (Except Exc (AgentRun J))}
    (h : takeStep dumps agent parts s index r = (t, ending)) :
    t.recorded = s.recorded + (roundCalls dumps agent s r).length + ending.elim 0 raisedCalls := by
  unfold takeStep maybeCompact at h
  unfold roundCalls
  cases hcut : compactionCut dumps agent.contextPolicy s.transcript with
  | none =>
    simp only [hcut] at h
    cases hout : r.out with
    | error exc =>
      rw [hout] at h
      cases h
      simp [AgentState.recorded, send, askSummary, hcut, Except.toOption, raisedCalls]
      omega
    | ok out =>
      simp only [hout] at h
      split_ifs at h
      all_goals
        cases h
        simp [AgentState.recorded, receive, send, askSummary, hcut, Except.toOption, raisedCalls]
        omega
  | some cut =>
    simp only [hcut] at h
    cases hsummary : r.summary with
    | error exc =>
      rw [hsummary] at h
      cases h
      simp [AgentState.recorded, askSummary, hcut, raisedCalls]
      omega
    | ok summary =>
      rw [hsummary] at h
      simp only [Except.map] at h
      cases hout : r.out with
      | error exc =>
        rw [hout] at h
        cases h
        simp [AgentState.recorded, send, askSummary, hcut, Except.toOption, raisedCalls]
        omega
      | ok out =>
        simp only [hout] at h
        split_ifs at h
        all_goals
          cases h
          simp [AgentState.recorded, receive, send, askSummary, hcut, Except.toOption, raisedCalls]
          omega

theorem recorded_rounds (env : ℕ → StepReply J) (n : ℕ) {index : ℕ} {s : AgentState J} :
    (rounds dumps agent parts env n index s).1.recorded =
      s.recorded + (callsMade dumps agent parts env n index s).length +
        raisedCalls (rounds dumps agent parts env n index s).2 := by
  induction n generalizing index s with
  | zero => rfl
  | succ n ih =>
    unfold rounds callsMade
    rcases hstep : takeStep dumps agent parts s index (env index) with ⟨u, _ | result⟩
    · simp only
      rw [ih, recorded_takeStep hstep, List.length_append]
      simp only [Option.elim_none]
      omega
    · simp only [List.append_nil]
      exact recorded_takeStep hstep

theorem accounts_rounds {env : ℕ → StepReply J} {n : ℕ} {run : AgentRun J}
    (h : rounds dumps agent parts env n index s = (t, .ok run)) :
    Accounts s t (callsMade dumps agent parts env n index s) ∧
      ∃ status text, run = finished agent parts t status text := by
  induction n generalizing index s with
  | zero =>
    cases h
    refine ⟨⟨?_, ?_, fun hs => hs⟩, _, _, rfl⟩
    · simp [callsMade, usageOfCalls, Usage.add]
    · exact (addCost_costOf_nil _).symm
  | succ n ih =>
    unfold rounds at h
    unfold callsMade
    rcases hstep : takeStep dumps agent parts s index (env index) with ⟨u, _ | result⟩
    · rw [hstep] at h
      obtain ⟨haccounts, hrun⟩ := ih h
      exact ⟨(accounts_takeStep hstep (by simp)).1.trans haccounts, hrun⟩
    · rw [hstep] at h
      obtain ⟨rfl, rfl⟩ := Prod.mk.inj h
      obtain ⟨haccounts, hrun⟩ := accounts_takeStep hstep (by simp)
      rw [List.append_nil]
      exact ⟨haccounts, hrun run rfl⟩

end Rounds

def runCalls (dumps : J → String) (agent : Agent) (userInput : String)
    (memory retrieved : Option (List String)) (taskState : Option String) (env : ℕ → StepReply J) :
    List (StepOutput J) :=
  callsMade dumps agent (build agent.instructions memory retrieved taskState) env
    agent.maxSteps.toNat 0 (newState userInput)

section Run

variable {dumps : J → String} {agent : Agent} {userInput : String}
  {memory retrieved : Option (List String)} {taskState : Option String} {env : ℕ → StepReply J}

theorem runAgent_accounts {t : AgentState J} {run : AgentRun J}
    (h : runAgent dumps agent userInput memory retrieved taskState env = (t, .ok run)) :
    Accounts (newState userInput) t (runCalls dumps agent userInput memory retrieved taskState env) ∧
      ∃ status text, run = finished agent (build agent.instructions memory retrieved taskState) t
        status text :=
  accounts_rounds h

theorem runAgent_counts {run : AgentRun J}
    (h : (runAgent dumps agent userInput memory retrieved taskState env).2 = .ok run) :
    run.usage = usageOfCalls (runCalls dumps agent userInput memory retrieved taskState env) ∧
      run.costUsd = costOf (runCalls dumps agent userInput memory retrieved taskState env) ∧
      ∀ step ∈ run.steps, Executes step := by
  obtain ⟨haccounts, status, text, rfl⟩ := runAgent_accounts (Prod.ext rfl h)
  refine ⟨?_, ?_, haccounts.executes nofun⟩
  · exact haccounts.usage.trans (Usage.zero_add _)
  · exact haccounts.cost.trans (addCost_zero _)

theorem runAgent_recorded : (runAgent dumps agent userInput memory retrieved taskState env).1.recorded =
    (runCalls dumps agent userInput memory retrieved taskState env).length +
      raisedCalls (runAgent dumps agent userInput memory retrieved taskState env).2 := by
  unfold runAgent
  rw [recorded_rounds env, show (newState (J := J) userInput).recorded = 0 from rfl, Nat.zero_add]
  rfl

end Run

end Workbench.AgentRuntime
