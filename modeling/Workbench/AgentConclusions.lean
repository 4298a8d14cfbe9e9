import Workbench.AgentLoop

namespace Workbench.AgentRuntime

variable {J : Type} {dumps : J → String} {agent : Agent} {parts : List ContextPart}

def EventOf (dumps : J → String) (policy : ContextPolicy) (exchanges : List (Exchange J))
    (e : CompactionEvent) : Prop :=
  ∃ x, exchanges[e.step]? = some x ∧ shouldCompact dumps policy x.before = true ∧
    e.tokensBefore = estimateTokens dumps x.before ∧ e.tokensAfter = estimateTokens dumps x.sent ∧
      (0 ≤ policy.keepRecentItems → 2 ≤ e.summarizedItems) ∧
        x.sent.length + e.summarizedItems = x.before.length + 1

structure Logged (dumps : J → String) (policy : ContextPolicy) (exchanges : List (Exchange J))
    (compactions : List CompactionEvent) : Prop where
  ordered : compactions.Pairwise fun a b => a.step < b.step
  events : ∀ e ∈ compactions, EventOf dumps policy exchanges e
  unchanged : ∀ (i : ℕ) (x : Exchange J), exchanges[i]? = some x → (∀ e ∈ compactions, e.step ≠ i) →
    x.sent = x.before

structure Going (dumps : J → String) (agent : Agent) (s : AgentState J) : Prop where
  sent : s.exchanges.length = s.steps.length
  calls : ∀ step ∈ s.steps, step.output.toolCalls ≠ []
  logged : Logged dumps agent.contextPolicy s.exchanges s.compactions

structure Concluded (dumps : J → String) (agent : Agent) (s : AgentState J) (run : AgentRun J) :
    Prop where
  steps : run.steps.length ≤ agent.maxSteps.toNat
  sent : s.exchanges.length = run.steps.length
  earlier : ∀ step ∈ run.steps.dropLast, step.output.toolCalls ≠ []
  completed : run.status = .completed ↔ ∃ step ∈ run.steps.getLast?, step.output.toolCalls = [] ∧
    run.finalText = step.output.text
  exhausted : run.status = .maxStepsReached ↔ run.finalText = "" ∧
    run.steps.length = agent.maxSteps.toNat ∧ ∀ step ∈ run.steps, step.output.toolCalls ≠ []
  logged : Logged dumps agent.contextPolicy s.exchanges run.compactions

theorem going_new (userInput : String) : Going dumps agent (newState (J := J) userInput) where
  sent := rfl
  calls step h := absurd h List.not_mem_nil
  logged :=
    { ordered := List.Pairwise.nil
      events := fun e h => absurd h List.not_mem_nil
      unchanged := by
        intro i x h
        cases h }

theorem EventOf.append {policy : ContextPolicy} {exchanges : List (Exchange J)} {e : CompactionEvent}
    (h : EventOf dumps policy exchanges e) (x : Exchange J) :
    EventOf dumps policy (exchanges ++ [x]) e := by
  obtain ⟨y, hy, hrest⟩ := h
  refine ⟨y, ?_, hrest⟩
  rw [List.getElem?_append_left (List.getElem?_eq_some_iff.mp hy).1]
  exact hy

theorem EventOf.lt {policy : ContextPolicy} {exchanges : List (Exchange J)} {e : CompactionEvent}
    (h : EventOf dumps policy exchanges e) : e.step < exchanges.length := by
  obtain ⟨y, hy, -⟩ := h
  exact (List.getElem?_eq_some_iff.mp hy).1

theorem Logged.unsummarized {policy : ContextPolicy} {exchanges : List (Exchange J)}
    {compactions : List CompactionEvent} (h : Logged dumps policy exchanges compactions)
    {x : Exchange J} (hx : x.sent = x.before) :
    Logged dumps policy (exchanges ++ [x]) compactions where
  ordered := h.ordered
  events e he := (h.events e he).append _
  unchanged i y hy hnone := by
    rw [List.getElem?_append] at hy
    split_ifs at hy with hi
    · exact h.unchanged i y hy hnone
    · rw [List.mem_singleton.mp (List.mem_of_getElem? hy)]
      exact hx

theorem Logged.summarized {policy : ContextPolicy} {exchanges : List (Exchange J)}
    {compactions : List CompactionEvent} (h : Logged dumps policy exchanges compactions)
    {x : Exchange J} {e : CompactionEvent} (hstep : e.step = exchanges.length)
    (he : EventOf dumps policy (exchanges ++ [x]) e) :
    Logged dumps policy (exchanges ++ [x]) (compactions ++ [e]) where
  ordered := by
    apply List.pairwise_append.mpr
    refine ⟨h.ordered, List.pairwise_singleton _ _, ?_⟩
    intro a ha b hb
    rw [List.mem_singleton.mp hb, hstep]
    exact (h.events a ha).lt
  events a ha := by
    rcases List.mem_append.mp ha with ha | ha
    · exact (h.events a ha).append x
    · rw [List.mem_singleton.mp ha]
      exact he
  unchanged i y hy hnone := by
    rw [List.getElem?_append] at hy
    split_ifs at hy with hi
    · apply h.unchanged i y hy
      intro a ha
      exact hnone a (List.mem_append_left _ ha)
    · have hlt := (List.getElem?_eq_some_iff.mp hy).1
      rw [List.length_singleton] at hlt
      exact absurd (hstep.trans (by omega)) (hnone e (List.mem_append_right _ List.mem_cons_self))

theorem chooseCut_le_length (transcript : Transcript J) {keepRecentItems : ℤ} (h : 0 ≤ keepRecentItems) :
    chooseCut transcript keepRecentItems ≤ transcript.length := by
  unfold chooseCut
  have htake := (List.takeWhile_sublist (p := Message.isToolResult)
    (l := transcript.drop (transcript.length - keepRecentItems).toNat)).length_le
  rw [List.length_drop] at htake
  simp only
  omega

theorem Logged.send {s : AgentState J} (h : Logged dumps agent.contextPolicy s.exchanges s.compactions)
    {index : ℕ} (hindex : s.exchanges.length = index) {summary : Except Exc (StepOutput J)}
    {sent : Transcript J} {event : Option CompactionEvent}
    (hc : maybeCompact dumps agent.contextPolicy s.transcript index summary = .ok (sent, event)) :
    Logged dumps agent.contextPolicy (send agent parts (askSummary dumps agent s) sent event).exchanges
      (send agent parts (askSummary dumps agent s) sent event).compactions := by
  unfold maybeCompact at hc
  cases hcut : compactionCut dumps agent.contextPolicy s.transcript with
  | none =>
    rw [hcut] at hc
    cases hc
    simp only [AgentRuntime.send, Option.toList_none, List.append_nil]
    exact h.unsummarized rfl
  | some cut =>
    rw [hcut] at hc
    cases summary with
    | error exc => cases hc
    | ok out =>
      cases hc
      apply h.summarized hindex.symm
      unfold compactionCut at hcut
      simp only at hcut
      split_ifs at hcut with hshould hcut2
      refine ⟨⟨s.transcript, agentCall agent parts (compacted s.transcript cut out.text)⟩, ?_, hshould, rfl, rfl,
        ?_, ?_⟩
      · rw [← hindex, List.getElem?_append_right (Nat.le_refl _), Nat.sub_self]
        rfl
      · intro hkeep
        have hle := chooseCut_le_length s.transcript hkeep
        cases hcut
        change 2 ≤ (List.take _ s.transcript).length
        rw [List.length_take]
        omega
      · cases hcut
        simp only [Exchange.sent, agentCall, compacted, List.length_cons, List.length_drop, List.length_take]
        omega

section Rounds

variable {s : AgentState J} {sent : Transcript J} {event : Option CompactionEvent}

theorem Going.received (h : Going dumps agent s) {index : ℕ} (hindex : s.steps.length = index)
    {summary : Except Exc (StepOutput J)}
    (hc : maybeCompact dumps agent.contextPolicy s.transcript index summary = .ok (sent, event))
    (step : AgentStep J) :
    Logged dumps agent.contextPolicy (receive (send agent parts (askSummary dumps agent s) sent event) step).exchanges
        (receive (send agent parts (askSummary dumps agent s) sent event) step).compactions ∧
      (receive (send agent parts (askSummary dumps agent s) sent event) step).exchanges.length =
        (receive (send agent parts (askSummary dumps agent s) sent event) step).steps.length := by
  refine ⟨h.logged.send (h.sent.trans hindex) hc, ?_⟩
  simp only [AgentRuntime.receive, AgentRuntime.send, askSummary, List.length_append, List.length_singleton,
    h.sent]

theorem Going.completes (h : Going dumps agent s) {index rounds : ℕ} (hindex : s.steps.length = index)
    (hlt : index < rounds) (hrounds : rounds = agent.maxSteps.toNat) {summary : Except Exc (StepOutput J)}
    (hc : maybeCompact dumps agent.contextPolicy s.transcript index summary = .ok (sent, event))
    (step : AgentStep J) (hcalls : step.output.toolCalls = []) :
    Concluded dumps agent (receive (send agent parts (askSummary dumps agent s) sent event) step)
      (finished agent parts (receive (send agent parts (askSummary dumps agent s) sent event) step) .completed
        step.output.text) := by
  obtain ⟨hlogged, hsent⟩ := h.received hindex hc step
  have hsteps : (receive (send agent parts (askSummary dumps agent s) sent event) step).steps = s.steps ++ [step] :=
    rfl
  refine ⟨?_, hsent, ?_, ?_, ?_, hlogged⟩
  · simp only [finished, hsteps, List.length_append, List.length_singleton]
    omega
  · simp only [finished, hsteps, List.dropLast_concat]
    exact h.calls
  · apply iff_of_true rfl
    simp only [finished, hsteps, List.getLast?_concat]
    exact ⟨step, rfl, hcalls, rfl⟩
  · apply iff_of_false
    · exact fun he => by cases he
    · rintro ⟨-, -, hall⟩
      exact hall step (List.mem_append_right _ List.mem_cons_self) hcalls

theorem Going.exhausts (h : Going dumps agent s) (hrounds : s.steps.length = agent.maxSteps.toNat) :
    Concluded dumps agent s (finished agent parts s .maxStepsReached "") where
  steps := Nat.le_of_eq hrounds
  sent := h.sent
  earlier step hstep := h.calls step (List.dropLast_subset _ hstep)
  completed := by
    apply iff_of_false
    · exact fun he => by cases he
    · rintro ⟨step, hstep, hnone, -⟩
      exact h.calls step (List.mem_of_getLast? hstep) hnone
  exhausted := iff_of_true rfl ⟨rfl, hrounds, h.calls⟩
  logged := h.logged

end Rounds

def Outcome (dumps : J → String) (agent : Agent) (env : ℕ → StepReply J) (s : AgentState J) :
    Except Exc (AgentRun J) → Prop
  | .ok run => Concluded dumps agent s run
  | .error exc => ∃ i < agent.maxSteps.toNat, (env i).summary = .error exc ∨ (env i).out = .error exc

theorem takeStep_error {env : ℕ → StepReply J} {s t : AgentState J} {index : ℕ} {exc : Exc}
    (h : takeStep dumps agent parts s index (env index) = (t, some (.error exc))) :
    (env index).summary = .error exc ∨ (env index).out = .error exc := by
  unfold takeStep at h
  cases hc : maybeCompact dumps agent.contextPolicy s.transcript index (env index).summary with
  | error e =>
    rw [hc] at h
    cases h
    left
    unfold maybeCompact at hc
    cases hcut : compactionCut dumps agent.contextPolicy s.transcript with
    | none =>
      rw [hcut] at hc
      cases hc
    | some cut =>
      rw [hcut] at hc
      cases hsummary : (env index).summary with
      | error e' =>
        rw [hsummary] at hc
        cases hc
        rfl
      | ok out =>
        rw [hsummary] at hc
        cases hc
  | ok folded =>
    rw [hc] at h
    right
    cases hout : (env index).out with
    | error e =>
      rw [hout] at h
      cases h
      rfl
    | ok out =>
      rw [hout] at h
      simp only at h
      split_ifs at h
      all_goals cases h

theorem rounds_outcome (env : ℕ → StepReply J) {n index : ℕ} {s : AgentState J}
    (h : Going dumps agent s) (hindex : s.steps.length = index)
    (hrounds : index + n = agent.maxSteps.toNat) :
    Outcome dumps agent env (rounds dumps agent parts env n index s).1
      (rounds dumps agent parts env n index s).2 := by
  induction n generalizing index s with
  | zero => exact h.exhausts (hindex.trans hrounds)
  | succ n ih =>
    simp only [rounds]
    have hstep := takeStep_cases dumps agent parts s index (env index)
    rcases htake : takeStep dumps agent parts s index (env index) with ⟨t, _ | _ | run⟩
    · rw [htake] at hstep
      cases hstep with
      | goes sent event out hc hcalls =>
        obtain ⟨hlogged, hsent⟩ := h.received hindex hc (agentStep agent out (env index).tool)
        apply ih ⟨hsent, ?_, hlogged⟩
        · simp only [receive, send, askSummary, List.length_append, List.length_singleton, hindex]
        · omega
        · intro step hmem
          rcases List.mem_append.mp hmem with hmem | hmem
          · exact h.calls step hmem
          · rw [List.mem_singleton.mp hmem]
            exact hcalls
    · exact ⟨index, by omega, takeStep_error htake⟩
    · rw [htake] at hstep
      cases hstep with
      | completes sent event out hc hcalls =>
        have hlt : index < index + (n + 1) := by omega
        exact h.completes hindex hlt hrounds hc (agentStep agent out (env index).tool) hcalls

section Steps

variable {env : ℕ → StepReply J} {steps : List (AgentStep J)}

def Answers (agent : Agent) (env : ℕ → StepReply J) (steps : List (AgentStep J)) : Prop :=
  ∀ i step, steps[i]? = some step → ∃ out, (env i).out = .ok out ∧ step = agentStep agent out (env i).tool

theorem Answers.snoc (h : Answers agent env steps) {out : StepOutput J}
    (hout : (env steps.length).out = .ok out) :
    Answers agent env (steps ++ [agentStep agent out (env steps.length).tool]) := by
  intro i step hstep
  rw [List.getElem?_append] at hstep
  split_ifs at hstep with hi
  · exact h i step hstep
  · have hlast : i = steps.length := by
      have hlt := (List.getElem?_eq_some_iff.mp hstep).1
      rw [List.length_singleton] at hlt
      omega
    subst hlast
    rw [Nat.sub_self] at hstep
    cases hstep
    exact ⟨out, hout, rfl⟩

theorem takeStep_received {s t : AgentState J} {index : ℕ} {r : StepReply J}
    {result : Option (Except Exc (AgentRun J))}
    (h : takeStep dumps agent parts s index r = (t, result)) (hok : ∀ exc, result ≠ some (.error exc)) :
    ∃ out, r.out = .ok out ∧ t.steps = s.steps ++ [agentStep agent out r.tool] ∧
      ∀ run, result = some (.ok run) → run.steps = t.steps := by
  unfold takeStep at h
  cases hc : maybeCompact dumps agent.contextPolicy s.transcript index r.summary with
  | error exc =>
    rw [hc] at h
    cases h
    exact absurd rfl (hok exc)
  | ok folded =>
    rw [hc] at h
    cases hout : r.out with
    | error exc =>
      rw [hout] at h
      cases h
      exact absurd rfl (hok exc)
    | ok out =>
      rw [hout] at h
      simp only at h
      split_ifs at h
      · cases h
        refine ⟨out, rfl, rfl, ?_⟩
        rintro run ⟨⟩
        rfl
      · cases h
        refine ⟨out, rfl, rfl, ?_⟩
        rintro run ⟨⟩

theorem rounds_answers {n index : ℕ} {s : AgentState J} {run : AgentRun J}
    (hs : Answers agent env s.steps) (hindex : s.steps.length = index)
    (h : (rounds dumps agent parts env n index s).2 = .ok run) : Answers agent env run.steps := by
  induction n generalizing index s with
  | zero =>
    cases h
    exact hs
  | succ n ih =>
    simp only [rounds] at h
    subst hindex
    rcases htake : takeStep dumps agent parts s s.steps.length (env s.steps.length) with ⟨t, _ | result⟩
    · obtain ⟨out, hout, ht, -⟩ := takeStep_received htake fun exc he => by cases he
      rw [htake] at h
      apply ih _ _ h
      · rw [ht]
        exact hs.snoc hout
      · rw [ht, List.length_append, List.length_singleton]
    · rw [htake] at h
      obtain rfl : result = .ok run := h
      obtain ⟨out, hout, ht, hrun⟩ := takeStep_received htake fun exc he => by cases he
      rw [hrun run rfl, ht]
      exact hs.snoc hout

theorem runAgent_answers {userInput : String} {memory retrieved : Option (List String)}
    {taskState : Option String} {run : AgentRun J}
    (h : (runAgent dumps agent userInput memory retrieved taskState env).2 = .ok run) :
    Answers agent env run.steps := by
  have hnew : Answers agent env (newState (J := J) userInput).steps := by
    intro i step hstep
    cases hstep
  exact rounds_answers hnew rfl h

end Steps

end Workbench.AgentRuntime
