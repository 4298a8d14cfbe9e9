import Workbench.CallCosts

namespace Workbench.AgentRuntime

variable {J : Type}

/-- Every assistant message is followed by one result for each of its calls, in their order, and
no result stands anywhere else. -/
inductive Paired : Transcript J → Prop
  | nil : Paired []
  | user (content : String) {rest : Transcript J} (h : Paired rest) : Paired (.user content :: rest)
  | assistant (content : String) (toolCalls : List (ToolCall J)) (results : List ToolResult)
      {rest : Transcript J} (hids : results.map ToolResult.toolCallId = toolCalls.map ToolCall.id)
      (h : Paired rest) :
      Paired (.assistant content toolCalls :: (results.map Message.toolResult ++ rest))

structure WellFormed (transcript : Transcript J) : Prop where
  starts : ∃ content rest, transcript = .user content :: rest
  ends : ∀ item ∈ transcript.getLast?, item.isAssistant = false
  paired : Paired transcript

theorem Paired.append {t u : Transcript J} (ht : Paired t) (hu : Paired u) : Paired (t ++ u) := by
  induction ht with
  | nil => exact hu
  | user content _ ih => exact .user content ih
  | assistant content toolCalls results hids _ ih =>
    rw [List.cons_append, List.append_assoc]
    exact .assistant content toolCalls results hids ih

theorem Paired.drop {t : Transcript J} (h : Paired t) (n : ℕ)
    (hn : ∀ item ∈ (t.drop n).head?, item.isToolResult = false) : Paired (t.drop n) := by
  induction h generalizing n with
  | nil =>
    rw [List.drop_nil]
    exact .nil
  | user content hrest ih =>
    cases n with
    | zero => exact .user content hrest
    | succ n => exact ih n hn
  | @assistant content toolCalls results rest hids hrest ih =>
    cases n with
    | zero => exact .assistant content toolCalls results hids hrest
    | succ n =>
      rw [List.drop_succ_cons] at hn ⊢
      by_cases hinside : n < results.length
      · -- the cut would land on a result
        have hhead : ((results.map Message.toolResult ++ rest).drop n).head? =
            some (Message.toolResult (results[n])) := by
          rw [List.head?_drop, List.getElem?_append_left (by simpa using hinside)]
          simp [hinside]
        have hresult := hn _ hhead
        cases hresult
      · have hbeyond : (results.map (Message.toolResult (J := J))).length ≤ n := by
          simpa using hinside
        rw [List.drop_append, List.drop_eq_nil_of_le hbeyond, List.nil_append] at hn ⊢
        exact ih _ hn

theorem WellFormed.newState (userInput : String) : WellFormed (J := J) [.user userInput] := by
  refine ⟨⟨userInput, [], rfl⟩, ?_, .user userInput .nil⟩
  rintro _ ⟨⟩
  rfl

theorem WellFormed.compacted {t : Transcript J} (h : WellFormed t) (keepRecentItems : ℤ)
    (summary : String) :
    WellFormed (compacted t (chooseCut t keepRecentItems) summary) := by
  refine ⟨⟨_, _, rfl⟩, ?_, .user _ (h.paired.drop _ (chooseCut_head t keepRecentItems))⟩
  intro item hitem
  rw [AgentRuntime.compacted, List.getLast?_cons, List.getLast?_drop] at hitem
  split_ifs at hitem
  · cases hitem
    rfl
  · cases hlast : t.getLast? with
    | none =>
      rw [hlast] at hitem
      cases hitem
      rfl
    | some last =>
      rw [hlast] at hitem
      cases hitem
      exact h.ends last hlast

theorem paired_messages (agent : Agent) (out : StepOutput J) (tool : ℕ → ToolOutcome) :
    Paired (agentStep agent out tool).messages := by
  let results := (agentStep agent out tool).toolExecutions.map fun e : ToolExecution J =>
    (⟨e.toolCallId, e.name, e.result, e.isError⟩ : ToolResult)
  have hids : results.map ToolResult.toolCallId = out.toolCalls.map ToolCall.id := by
    apply List.ext_getElem (by simp [results, agentStep])
    intro k hk hk'
    simp [results, agentStep, execution]
  have hmessages : (agentStep agent out tool).messages =
      .assistant out.text out.toolCalls :: (results.map Message.toolResult ++ []) := by
    simp only [AgentStep.messages, results, List.map_map, List.append_nil]
    rfl
  rw [hmessages]
  exact .assistant out.text out.toolCalls results hids .nil

theorem WellFormed.append {t : Transcript J} (h : WellFormed t) (agent : Agent)
    {out : StepOutput J} (tool : ℕ → ToolOutcome) (hcalls : out.toolCalls ≠ []) :
    WellFormed (t ++ (agentStep agent out tool).messages) := by
  obtain ⟨content, rest, rfl⟩ := h.starts
  refine ⟨⟨content, _, rfl⟩, ?_, h.paired.append (paired_messages agent out tool)⟩
  intro item hitem
  have hne : (agentStep agent out tool).toolExecutions.map ToolExecution.message ≠ [] := by
    simpa [agentStep] using hcalls
  rw [List.getLast?_append, AgentStep.messages, List.getLast?_cons_of_ne_nil hne,
    List.getLast?_eq_some_getLast hne] at hitem
  cases hitem
  obtain ⟨e, _, he⟩ := List.mem_map.mp (List.getLast_mem hne)
  rw [← he]
  rfl

structure Shaped (s : AgentState J) : Prop where
  transcript : WellFormed s.transcript
  prompts : ∀ prompt ∈ s.prompts, WellFormed prompt.transcript
  sent : ∀ e ∈ s.exchanges, WellFormed e.sent

variable {dumps : J → String} {agent : Agent} {parts : List ContextPart}

theorem takeStep_keeps {P : Transcript J → Prop} (start : ∀ text, P [.user text])
    (fold : ∀ t summary, P t →
      P (compacted t (chooseCut t agent.contextPolicy.keepRecentItems) summary))
    (grow : ∀ t (out : StepOutput J) tool, out.toolCalls ≠ [] → P t →
      P (t ++ (agentStep agent out tool).messages))
    {s t : AgentState J} {index : ℕ} {r : StepReply J} {result : Option (Except Exc (AgentRun J))}
    (hstep : takeStep dumps agent parts s index r = (t, result)) (h : P s.transcript)
    (hp : ∀ prompt ∈ s.prompts, P prompt.transcript) (hs : ∀ e ∈ s.exchanges, P e.sent) :
    (result = none → P t.transcript) ∧ (∀ prompt ∈ t.prompts, P prompt.transcript) ∧
      ∀ e ∈ t.exchanges, P e.sent := by
  have hsends : ∀ {sent event}, maybeCompact dumps agent.contextPolicy s.transcript index r.summary =
      .ok (sent, event) → P sent := by
    intro sent event hc
    rcases maybeCompact_cases hc with ⟨_, rfl, _⟩ | ⟨cut, out, hcut, _, rfl⟩
    · exact h
    · unfold compactionCut at hcut
      simp only at hcut
      split_ifs at hcut
      cases hcut
      exact fold s.transcript out.text h
  have hasks : ∀ prompt ∈ (askSummary dumps agent s).prompts, P prompt.transcript := by
    intro prompt hprompt
    rcases List.mem_append.mp hprompt with hold | hnew
    · exact hp prompt hold
    · obtain ⟨cut, _, rfl⟩ := Option.map_eq_some_iff.mp (Option.mem_toList.mp hnew)
      exact start _
  have happend : ∀ {sent} event, P sent →
      ∀ e ∈ (send agent parts (askSummary dumps agent s) sent event).exchanges, P e.sent := by
    intro sent event hsent e he
    rcases List.mem_append.mp he with hold | hnew
    · exact hs e hold
    · rw [List.mem_singleton.mp hnew]
      exact hsent
  have hto := takeStep_cases dumps agent parts s index r
  rw [hstep] at hto
  cases hto with
  | unsummarized exc => exact ⟨nofun, hasks, hs⟩
  | unanswered sent event exc hc => exact ⟨nofun, hasks, happend event (hsends hc)⟩
  | completes sent event out hc hcalls => exact ⟨nofun, hasks, happend event (hsends hc)⟩
  | goes sent event out hc hcalls =>
    exact ⟨fun _ => grow sent out r.tool hcalls (hsends hc), hasks, happend event (hsends hc)⟩

theorem Shaped.takes {s t : AgentState J} {index : ℕ} {r : StepReply J}
    {result : Option (Except Exc (AgentRun J))} (h : Shaped s)
    (hstep : takeStep dumps agent parts s index r = (t, result)) :
    (result = none → WellFormed t.transcript) ∧
      (∀ prompt ∈ t.prompts, WellFormed prompt.transcript) ∧ ∀ e ∈ t.exchanges, WellFormed e.sent :=
  takeStep_keeps WellFormed.newState (fun _ summary ht => ht.compacted _ summary)
    (fun _ _ tool hcalls ht => ht.append agent tool hcalls) hstep h.transcript h.prompts h.sent

theorem runAgent_shaped (dumps : J → String) (agent : Agent) (userInput : String)
    (memory retrieved : Option (List String)) (taskState : Option String)
    (env : ℕ → StepReply J) :
    (∀ e ∈ (runAgent dumps agent userInput memory retrieved taskState env).1.exchanges,
      WellFormed e.sent) ∧
    ∀ prompt ∈ (runAgent dumps agent userInput memory retrieved taskState env).1.prompts,
      WellFormed prompt.transcript := by
  have hstart : Shaped (newState (J := J) userInput) :=
    ⟨.newState userInput, by simp [newState], by simp [newState]⟩
  refine (rounds_invariant (I := Shaped) (L := fun s =>
    (∀ prompt ∈ s.prompts, WellFormed prompt.transcript) ∧ ∀ e ∈ s.exchanges, WellFormed e.sent)
    env ?_ ?_ ?_ hstart _ _).symm
  · exact fun s h => ⟨h.prompts, h.sent⟩
  · intro s index r t h hstep
    obtain ⟨htranscript, hprompts, hsent⟩ := h.takes hstep
    exact ⟨htranscript rfl, hprompts, hsent⟩
  · intro s index r t result h hstep
    exact (h.takes hstep).2

theorem sent_transcripts_well_formed (dumps : J → String) (agent : Agent) (userInput : String)
    (memory retrieved : Option (List String)) (taskState : Option String)
    (env : ℕ → StepReply J) :
    (∀ e ∈ (runAgent dumps agent userInput memory retrieved taskState env).1.exchanges,
      WellFormed e.sent) ∧
    (∀ prompt ∈ (runAgent dumps agent userInput memory retrieved taskState env).1.prompts,
      WellFormed prompt.transcript) ∧
    (runAgent dumps agent userInput memory retrieved taskState env).1.recorded =
      (runCalls dumps agent userInput memory retrieved taskState env).length +
        raisedCalls (runAgent dumps agent userInput memory retrieved taskState env).2 := by
  obtain ⟨hsent, hprompts⟩ := runAgent_shaped dumps agent userInput memory retrieved taskState env
  exact ⟨hsent, hprompts, runAgent_recorded⟩

end Workbench.AgentRuntime
