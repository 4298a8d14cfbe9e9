import Workbench.AgentLoop
import Mathlib.Data.List.TakeWhile

namespace Workbench.AgentRuntime

variable {J : Type} {dumps : J → String} {agent : Agent} {parts : List ContextPart}

theorem length_takeWhile_append_le {α : Type} (p : α → Bool) (xs : List α) {y : α} (hy : p y = false)
    (ys : List α) : ((xs ++ y :: ys).takeWhile p).length ≤ xs.length := by
  induction xs with
  | nil => simp [hy]
  | cons x xs ih =>
    rw [List.cons_append, List.takeWhile_cons]
    split
    · simpa using ih
    · simp

structure Turn (step : AgentStep J) : Prop where
  executed : step.toolExecutions.length = step.output.toolCalls.length
  called : step.output.toolCalls ≠ []

theorem turn_agentStep (agent : Agent) {out : StepOutput J} (tool : ℕ → ToolOutcome)
    (h : out.toolCalls ≠ []) : Turn (agentStep agent out tool) := ⟨by simp [agentStep], h⟩

theorem length_messages {step : AgentStep J} (h : Turn step) :
    step.messages.length = step.output.toolCalls.length + 1 := by
  simp [AgentStep.messages, h.executed]

theorem chooseCut_le (pre : Transcript J) {step : AgentStep J} (h : Turn step) {keepRecentItems : ℤ}
    (hroom : (step.output.toolCalls.length : ℤ) < keepRecentItems) :
    chooseCut (pre ++ step.messages) keepRecentItems ≤ pre.length := by
  have hlength := length_messages h
  have hcut : ((pre ++ step.messages).length - keepRecentItems).toNat ≤ pre.length := by
    rw [List.length_append, hlength]
    omega
  simp only [chooseCut]
  generalize ((pre ++ step.messages).length - keepRecentItems).toNat = cut at hcut ⊢
  rw [List.drop_append_of_le_length hcut]
  have hresults := length_takeWhile_append_le Message.isToolResult (pre.drop cut)
    (y := .assistant step.output.text step.output.toolCalls) rfl
    (step.toolExecutions.map ToolExecution.message)
  rw [List.length_drop] at hresults
  simp only [AgentStep.messages]
  omega

theorem drop_chooseCut_nil {pre : Transcript J} {step : AgentStep J} (h : Turn step)
    {keepRecentItems : ℤ} (hfull : keepRecentItems ≤ step.output.toolCalls.length) :
    (pre ++ step.messages).drop (chooseCut (pre ++ step.messages) keepRecentItems) = [] := by
  have hlength := length_messages h
  obtain ⟨beyond, hbeyond⟩ : ∃ beyond,
      ((pre ++ step.messages).length - keepRecentItems).toNat = pre.length + (beyond + 1) := by
    refine ⟨((pre ++ step.messages).length - keepRecentItems).toNat - pre.length - 1, ?_⟩
    rw [List.length_append, hlength]
    omega
  rw [drop_chooseCut, hbeyond, ← List.drop_drop, List.drop_left, AgentStep.messages,
    List.drop_succ_cons, List.dropWhile_eq_nil_iff]
  intro item hitem
  obtain ⟨e, _, rfl⟩ := List.mem_map.mp (List.mem_of_mem_drop hitem)
  rfl

theorem two_le_chooseCut {pre : Transcript J} (hpre : pre ≠ []) {step : AgentStep J} (h : Turn step)
    {keepRecentItems : ℤ} (hfull : keepRecentItems ≤ step.output.toolCalls.length) :
    2 ≤ chooseCut (pre ++ step.messages) keepRecentItems := by
  have hlength := length_messages h
  have hpos := List.length_pos_of_ne_nil hpre
  simp only [chooseCut, List.length_append, hlength]
  omega

theorem turn_sent_iff {pre sent : Transcript J} (hpre : pre ≠ []) {step : AgentStep J}
    (h : Turn step) {policy : ContextPolicy} {index : ℕ} {summary : Except Exc (StepOutput J)}
    {event : Option CompactionEvent}
    (hc : maybeCompact dumps policy (pre ++ step.messages) index summary = .ok (sent, event)) :
    step.messages <:+ sent ↔ (shouldCompact dumps policy (pre ++ step.messages) = true →
      (step.output.toolCalls.length : ℤ) < policy.keepRecentItems) := by
  constructor
  · intro hsuffix htrigger
    by_contra hroom
    have hfull : policy.keepRecentItems ≤ step.output.toolCalls.length := by omega
    have hcut : compactionCut dumps policy (pre ++ step.messages) =
        some (chooseCut (pre ++ step.messages) policy.keepRecentItems) := by
      have htwo := two_le_chooseCut hpre h hfull
      simp only [compactionCut, htrigger, ↓reduceIte, ite_eq_right_iff, reduceCtorEq]
      omega
    rcases maybeCompact_cases hc with ⟨hnone, _⟩ | ⟨cut, out, hsome, _, rfl⟩
    · rw [hcut] at hnone
      cases hnone
    · rw [hcut] at hsome
      cases hsome
      have hless := hsuffix.length_le
      rw [compacted, drop_chooseCut_nil h hfull, length_messages h] at hless
      have hpos := List.length_pos_of_ne_nil h.called
      simp only [List.length_cons, List.length_nil] at hless
      omega
  · intro hroom
    rcases maybeCompact_cases hc with ⟨_, rfl, _⟩ | ⟨cut, out, hsome, _, rfl⟩
    · exact List.suffix_append pre step.messages
    · simp only [compactionCut] at hsome
      split_ifs at hsome with htrigger
      cases hsome
      have hcut := chooseCut_le pre h (hroom htrigger)
      rw [compacted, List.drop_append_of_le_length hcut]
      exact ⟨_ :: _, rfl⟩

def Judged (dumps : J → String) (policy : ContextPolicy) (s : AgentState J) : Prop :=
  ∀ k step e, s.steps[k]? = some step → s.exchanges[k + 1]? = some e →
    (step.messages <:+ e.sent ↔ (shouldCompact dumps policy e.before = true →
      (step.output.toolCalls.length : ℤ) < policy.keepRecentItems))

structure Tracked (dumps : J → String) (policy : ContextPolicy) (s : AgentState J) : Prop where
  begun : s.transcript ≠ []
  count : s.exchanges.length = s.steps.length
  last : ∀ step ∈ s.steps.getLast?,
    Turn step ∧ ∃ pre, pre ≠ [] ∧ s.transcript = pre ++ step.messages
  judged : Judged dumps policy s

theorem Tracked.send {s : AgentState J} (h : Tracked dumps agent.contextPolicy s) {index : ℕ}
    {summary : Except Exc (StepOutput J)} {sent : Transcript J} {event : Option CompactionEvent}
    (hc : maybeCompact dumps agent.contextPolicy s.transcript index summary = .ok (sent, event)) :
    Judged dumps agent.contextPolicy (send agent parts (askSummary dumps agent s) sent event) := by
  intro k step e hstep he
  change s.steps[k]? = some step at hstep
  change (s.exchanges ++ [⟨s.transcript, agentCall agent parts sent⟩])[k + 1]? = some e at he
  by_cases hold : k + 1 < s.exchanges.length
  · rw [List.getElem?_append_left hold] at he
    exact h.judged k step e hstep he
  · -- the new exchange is that of the last step
    have hk : k < s.steps.length := (List.getElem?_eq_some_iff.mp hstep).1
    have hcount := h.count
    obtain rfl : k = s.steps.length - 1 := by omega
    rw [← List.getLast?_eq_getElem?] at hstep
    obtain ⟨hturn, pre, hpre, htranscript⟩ := h.last step hstep
    rw [List.getElem?_append_right (by omega), show s.steps.length - 1 + 1 - s.exchanges.length = 0
      by omega] at he
    cases he
    simp only
    rw [htranscript] at hc ⊢
    exact turn_sent_iff hpre hturn hc

theorem Judged.receive {s : AgentState J} (h : Judged dumps agent.contextPolicy s)
    (hcount : s.exchanges.length = s.steps.length + 1) (step : AgentStep J) :
    Judged dumps agent.contextPolicy (receive s step) := by
  intro k other e hstep he
  change (s.steps ++ [step])[k]? = some other at hstep
  change s.exchanges[k + 1]? = some e at he
  have hk : k + 1 < s.exchanges.length := (List.getElem?_eq_some_iff.mp he).1
  rw [List.getElem?_append_left (by omega)] at hstep
  exact h k other e hstep he

theorem Tracked.count_send {s : AgentState J} (h : Tracked dumps agent.contextPolicy s)
    (parts : List ContextPart) (sent : Transcript J) (event : Option CompactionEvent) :
    (AgentRuntime.send agent parts (askSummary dumps agent s) sent event).exchanges.length =
      (AgentRuntime.send agent parts (askSummary dumps agent s) sent event).steps.length + 1 := by
  change (s.exchanges ++ [_]).length = s.steps.length + 1
  rw [List.length_append, h.count]
  rfl

theorem Tracked.step {s t : AgentState J} {index : ℕ} {r : StepReply J}
    (h : Tracked dumps agent.contextPolicy s)
    (hstep : takeStep dumps agent parts s index r = (t, none)) :
    Tracked dumps agent.contextPolicy t := by
  have hto := takeStep_cases dumps agent parts s index r
  rw [hstep] at hto
  cases hto with
  | goes sent event out hc hcalls =>
    have hsent : sent ≠ [] := by
      rcases maybeCompact_cases hc with ⟨_, rfl, _⟩ | ⟨cut, summary, _, _, rfl⟩
      · exact h.begun
      · simp [compacted]
    have hcount := h.count_send parts sent event
    refine ⟨?_, ?_, ?_, (h.send hc).receive hcount _⟩
    · exact List.append_ne_nil_of_left_ne_nil hsent _
    · change (s.exchanges ++ [_]).length = (s.steps ++ [_]).length
      rw [List.length_append, List.length_append, h.count]
      rfl
    · intro step hlast
      rw [AgentRuntime.receive, List.getLast?_concat] at hlast
      cases hlast
      exact ⟨turn_agentStep agent r.tool hcalls, sent, hsent, rfl⟩

theorem Tracked.ends {s t : AgentState J} {index : ℕ} {r : StepReply J}
    {result : Except Exc (AgentRun J)} (h : Tracked dumps agent.contextPolicy s)
    (hstep : takeStep dumps agent parts s index r = (t, some result)) :
    Judged dumps agent.contextPolicy t := by
  have hto := takeStep_cases dumps agent parts s index r
  rw [hstep] at hto
  cases hto with
  | unsummarized exc => exact h.judged
  | unanswered sent event exc hc => exact h.send hc
  | completes sent event out hc hcalls => exact (h.send hc).receive (h.count_send parts sent event) _

theorem unseen_results_iff (dumps : J → String) (agent : Agent) (userInput : String)
    (memory retrieved : Option (List String)) (taskState : Option String) (env : ℕ → StepReply J)
    (k : ℕ) (step : AgentStep J) (e : Exchange J)
    (hstep : (runAgent dumps agent userInput memory retrieved taskState env).1.steps[k]? = some step)
    (he : (runAgent dumps agent userInput memory retrieved taskState env).1.exchanges[k + 1]? =
      some e) :
    step.messages <:+ e.sent ↔ (shouldCompact dumps agent.contextPolicy e.before = true →
      (step.output.toolCalls.length : ℤ) < agent.contextPolicy.keepRecentItems) := by
  have hstart : Tracked dumps agent.contextPolicy (newState (J := J) userInput) :=
    ⟨by simp [newState], rfl, by simp [newState], by simp [Judged, newState]⟩
  refine rounds_invariant (I := Tracked dumps agent.contextPolicy)
    (L := Judged dumps agent.contextPolicy) env ?_ ?_ ?_ hstart _ _ k step e hstep he
  · exact fun s h => h.judged
  · exact fun s index r t h hs => h.step hs
  · exact fun s index r t result h hs => h.ends hs

def echoing (keepRecentItems : ℤ) : Agent :=
  ⟨"test", "You are a test agent.", [⟨"echo"⟩], .standard, 8, 2048, ⟨10, 1 / 2, keepRecentItems, 512⟩⟩

def spoken (text : String) (toolCalls : List (ToolCall Unit)) : Except Exc (StepOutput Unit) :=
  .ok ⟨text, toolCalls, "local", "fake", .zero, none, 0, []⟩

def echoTwice : ℕ → StepReply Unit
  | 0 => ⟨spoken "summary" [], spoken "" [⟨"a", "echo", ()⟩, ⟨"b", "echo", ()⟩],
      fun _ => .returned "echo"⟩
  | _ => ⟨spoken "summary" [], spoken "done" [], fun _ => .returned "echo"⟩

def echoed (keepRecentItems : ℤ) : AgentState Unit :=
  (runAgent (fun _ => "{}") (echoing keepRecentItems) "go" none none none echoTwice).1

theorem parallel_results_folded :
    ¬ ∀ step ∈ (echoed 2).steps[0]?, ∀ e ∈ (echoed 2).exchanges[1]?, step.messages <:+ e.sent := by
  decide +kernel

theorem parallel_results_kept : ∃ step e, (echoed 3).steps[0]? = some step ∧
    (echoed 3).exchanges[1]? = some e ∧ step.messages <:+ e.sent := by
  have hsteps : (echoed 3).steps[0]?.isSome := by decide +kernel
  have hexchanges : (echoed 3).exchanges[1]?.isSome := by decide +kernel
  have hroom : ∀ step ∈ (echoed 3).steps[0]?, (step.output.toolCalls.length : ℤ) < 3 := by
    decide +kernel
  obtain ⟨step, hstep⟩ := Option.isSome_iff_exists.mp hsteps
  obtain ⟨e, he⟩ := Option.isSome_iff_exists.mp hexchanges
  exact ⟨step, e, hstep, he,
    (unseen_results_iff _ _ _ _ _ _ _ 0 step e hstep he).mpr fun _ => hroom step hstep⟩

end Workbench.AgentRuntime
