import Workbench.Transcripts

/-!
`workbench_runtime.agent.run_agent` with its context engine. What the model, the summarizer and
the tools do is up to the replies of the loop's environment, one for each step.
-/

namespace Workbench.AgentRuntime

structure Usage where
  inputTokens : ℤ
  outputTokens : ℤ
  deriving DecidableEq

def Usage.zero : Usage := ⟨0, 0⟩

def Usage.add (u v : Usage) : Usage :=
  ⟨u.inputTokens + v.inputTokens, u.outputTokens + v.outputTokens⟩

def addCost : Option ℚ → Option ℚ → Option ℚ
  | some total, some delta => some (total + delta)
  | _, _ => none

structure Exc where
  typeName : String
  message : String
  deriving DecidableEq

structure StepOutput (J : Type) where
  text : String
  toolCalls : List (ToolCall J)
  provider : String
  model : String
  usage : Usage
  costUsd : Option ℚ
  latencyMs : ℤ
  attempts : List String
  deriving DecidableEq

structure ToolExecution (J : Type) where
  toolCallId : String
  name : String
  arguments : J
  result : String
  isError : Bool
  deriving DecidableEq

structure AgentStep (J : Type) where
  output : StepOutput J
  toolExecutions : List (ToolExecution J)
  deriving DecidableEq

structure ContextPart where
  name : String
  content : String
  deriving DecidableEq

structure CompactionEvent where
  step : ℕ
  tokensBefore : ℕ
  tokensAfter : ℕ
  summarizedItems : ℕ
  usage : Usage
  costUsd : Option ℚ
  deriving DecidableEq

inductive AgentStatus
  | completed
  | maxStepsReached
  deriving DecidableEq

structure AgentRun (J : Type) where
  agent : String
  status : AgentStatus
  finalText : String
  steps : List (AgentStep J)
  usage : Usage
  costUsd : Option ℚ
  parts : List ContextPart
  compactions : List CompactionEvent
  deriving DecidableEq

/-- What a tool's input model and handler do is up to the replies. -/
structure Tool where
  name : String
  deriving DecidableEq

structure Agent where
  name : String
  instructions : String
  tools : List Tool
  complexity : Complexity
  maxSteps : ℤ
  maxTokens : ℤ
  contextPolicy : ContextPolicy

def Agent.tool (agent : Agent) (name : String) : Option Tool :=
  agent.tools.find? fun t => t.name = name

inductive ToolOutcome
  | invalid (error : String)
  | returned (result : String)
  | raised (exc : Exc)

def executeTool (tool : Tool) : ToolOutcome → String × Bool
  | .invalid error => ("Invalid arguments for " ++ tool.name ++ ": " ++ error, true)
  | .returned result => (result, false)
  | .raised exc => ("Tool " ++ tool.name ++ " failed: " ++ exc.typeName ++ ": " ++ exc.message, true)

/-- What the calls of one step do: the two of `router.step`, and that of its `k`-th tool. -/
structure StepReply (J : Type) where
  summary : Except Exc (StepOutput J)
  out : Except Exc (StepOutput J)
  tool : ℕ → ToolOutcome

def build (instructions : String) (memory retrieved : Option (List String))
    (taskState : Option String) : List ContextPart :=
  let part (name separator : String) : Option (List String) → List ContextPart
    | some (text :: texts) => [⟨name, separator.intercalate (text :: texts)⟩]
    | _ => []
  [⟨"instructions", instructions⟩] ++ part "memory" "\n" memory ++
    part "retrieved_context" "\n\n" retrieved ++
    match taskState with
    | some text => if text = "" then [] else [⟨"task_state", text⟩]
    | none => []

def ContextPart.render (p : ContextPart) : String :=
  "<" ++ p.name ++ ">\n" ++ p.content ++ "\n</" ++ p.name ++ ">"

def renderSystem (parts : List ContextPart) : String :=
  "\n\n".intercalate ((parts.filter fun p => p.content ≠ "").map ContextPart.render)

variable {J : Type}

def ToolExecution.message (e : ToolExecution J) : Message J :=
  .toolResult ⟨e.toolCallId, e.name, e.result, e.isError⟩

def AgentStep.messages (step : AgentStep J) : Transcript J :=
  .assistant step.output.text step.output.toolCalls ::
    step.toolExecutions.map ToolExecution.message

def execution (agent : Agent) (call : ToolCall J) (outcome : ToolOutcome) : ToolExecution J :=
  let done := match agent.tool call.name with
    | none => ("Unknown tool: " ++ call.name, true)
    | some tool => executeTool tool outcome
  ⟨call.id, call.name, call.arguments, done.1, done.2⟩

def agentStep (agent : Agent) (out : StepOutput J) (tool : ℕ → ToolOutcome) : AgentStep J :=
  ⟨out, out.toolCalls.mapIdx fun k call => execution agent call (tool k)⟩

def summarySystem : String :=
  "You compress agent conversation history. Produce a dense summary that preserves: the user's " ++
    "goal, decisions made, tool calls with their key results, and any constraints or open " ++
    "questions. Plain text, no preamble."

def summaryMarker : String := "[conversation summary — earlier turns compacted]"

structure RouterCall (J : Type) where
  transcript : Transcript J
  complexity : Complexity
  tools : List Tool
  system : String
  maxTokens : ℤ
  deriving DecidableEq

def agentCall (agent : Agent) (parts : List ContextPart) (transcript : Transcript J) : RouterCall J :=
  ⟨transcript, agent.complexity, agent.tools, renderSystem parts, agent.maxTokens⟩

section Loop

variable (dumps : J → String)

/-- Where `maybe_compact` folds the transcript; `none` if it leaves it alone. -/
def compactionCut (policy : ContextPolicy) (transcript : Transcript J) : Option ℕ :=
  if shouldCompact dumps policy transcript then
    let cut := chooseCut transcript policy.keepRecentItems
    if cut < 2 then none else some cut
  else none

def summaryCall (policy : ContextPolicy) (transcript : Transcript J) (cut : ℕ) : RouterCall J :=
  ⟨[.user (renderTranscript dumps (transcript.take cut))], .simple, [], summarySystem,
    policy.summaryMaxTokens⟩

def compacted (transcript : Transcript J) (cut : ℕ) (summary : String) : Transcript J :=
  .user (summaryMarker ++ "\n" ++ summary) :: transcript.drop cut

def maybeCompact (policy : ContextPolicy) (transcript : Transcript J) (step : ℕ)
    (summary : Except Exc (StepOutput J)) :
    Except Exc (Transcript J × Option CompactionEvent) :=
  match compactionCut dumps policy transcript with
  | none => .ok (transcript, none)
  | some cut => summary.map fun out =>
    (compacted transcript cut out.text, some ⟨step, estimateTokens dumps transcript,
      estimateTokens dumps (compacted transcript cut out.text), (transcript.take cut).length,
      out.usage, out.costUsd⟩)

structure Exchange (J : Type) where
  before : Transcript J
  call : RouterCall J
  deriving DecidableEq

def Exchange.sent (e : Exchange J) : Transcript J := e.call.transcript

/-- The variables of the loop, and a record of its calls of `router.step`: those for a summary, and
those for the agent. -/
structure AgentState (J : Type) where
  transcript : Transcript J
  steps : List (AgentStep J)
  usage : Usage
  cost : Option ℚ
  compactions : List CompactionEvent
  prompts : List (RouterCall J)
  exchanges : List (Exchange J)
  deriving DecidableEq

def newState (userInput : String) : AgentState J := ⟨[.user userInput], [], .zero, some 0, [], [], []⟩

def finished (agent : Agent) (parts : List ContextPart) (s : AgentState J) (status : AgentStatus)
    (finalText : String) : AgentRun J :=
  ⟨agent.name, status, finalText, s.steps, s.usage, s.cost, parts, s.compactions⟩

def askSummary (agent : Agent) (s : AgentState J) : AgentState J :=
  { s with prompts := s.prompts ++
    ((compactionCut dumps agent.contextPolicy s.transcript).map
      (summaryCall dumps agent.contextPolicy s.transcript)).toList }

def send (agent : Agent) (parts : List ContextPart) (s : AgentState J) (transcript : Transcript J)
    (compaction : Option CompactionEvent) : AgentState J :=
  { s with
    transcript
    usage := compaction.elim s.usage fun c => s.usage.add c.usage
    cost := compaction.elim s.cost fun c => addCost s.cost c.costUsd
    compactions := s.compactions ++ compaction.toList
    exchanges := s.exchanges ++ [⟨s.transcript, agentCall agent parts transcript⟩] }

def receive (s : AgentState J) (step : AgentStep J) : AgentState J :=
  { s with
    transcript := s.transcript ++ step.messages
    steps := s.steps ++ [step]
    usage := s.usage.add step.output.usage
    cost := addCost s.cost step.output.costUsd }

def takeStep (agent : Agent) (parts : List ContextPart) (s : AgentState J) (index : ℕ)
    (r : StepReply J) : AgentState J × Option (Except Exc (AgentRun J)) :=
  let asking := askSummary dumps agent s
  match maybeCompact dumps agent.contextPolicy s.transcript index r.summary with
  | .error exc => (asking, some (.error exc))
  | .ok (transcript, compaction) =>
    let sending := send agent parts asking transcript compaction
    match r.out with
    | .error exc => (sending, some (.error exc))
    | .ok out =>
      let received := receive sending (agentStep agent out r.tool)
      if out.toolCalls = [] then
        (received, some (.ok (finished agent parts received .completed out.text)))
      else (received, none)

def rounds (agent : Agent) (parts : List ContextPart) (env : ℕ → StepReply J) :
    ℕ → ℕ → AgentState J → AgentState J × Except Exc (AgentRun J)
  | 0, _, s => (s, .ok (finished agent parts s .maxStepsReached ""))
  | n + 1, index, s =>
    match takeStep dumps agent parts s index (env index) with
    | (s, some result) => (s, result)
    | (s, none) => rounds agent parts env n (index + 1) s

def runAgent (agent : Agent) (userInput : String) (memory retrieved : Option (List String))
    (taskState : Option String) (env : ℕ → StepReply J) :
    AgentState J × Except Exc (AgentRun J) :=
  rounds dumps agent (build agent.instructions memory retrieved taskState) env agent.maxSteps.toNat 0
    (newState userInput)

end Loop

variable {dumps : J → String} {agent : Agent} {parts : List ContextPart}

theorem maybeCompact_cases {policy : ContextPolicy} {transcript sent : Transcript J} {step : ℕ}
    {summary : Except Exc (StepOutput J)} {event : Option CompactionEvent}
    (h : maybeCompact dumps policy transcript step summary = .ok (sent, event)) :
    compactionCut dumps policy transcript = none ∧ sent = transcript ∧ event = none ∨
      ∃ cut out, compactionCut dumps policy transcript = some cut ∧ summary = .ok out ∧
        sent = compacted transcript cut out.text := by
  unfold maybeCompact at h
  cases hcut : compactionCut dumps policy transcript with
  | none =>
    simp only [hcut] at h
    cases h
    exact .inl ⟨rfl, rfl, rfl⟩
  | some cut =>
    simp only [hcut] at h
    cases summary with
    | error exc => cases h
    | ok out =>
      cases h
      exact .inr ⟨cut, out, rfl, rfl, rfl⟩

inductive StepTo (dumps : J → String) (agent : Agent) (parts : List ContextPart) (s : AgentState J)
    (index : ℕ) (r : StepReply J) : AgentState J × Option (Except Exc (AgentRun J)) → Prop
  | unsummarized (exc : Exc) : StepTo dumps agent parts s index r
      (askSummary dumps agent s, some (.error exc))
  | unanswered (sent : Transcript J) (event : Option CompactionEvent) (exc : Exc)
      (hc : maybeCompact dumps agent.contextPolicy s.transcript index r.summary = .ok (sent, event)) :
      StepTo dumps agent parts s index r
        (send agent parts (askSummary dumps agent s) sent event, some (.error exc))
  | completes (sent : Transcript J) (event : Option CompactionEvent) (out : StepOutput J)
      (hc : maybeCompact dumps agent.contextPolicy s.transcript index r.summary = .ok (sent, event))
      (hcalls : out.toolCalls = []) : StepTo dumps agent parts s index r
        (receive (send agent parts (askSummary dumps agent s) sent event) (agentStep agent out r.tool),
          some (.ok (finished agent parts
            (receive (send agent parts (askSummary dumps agent s) sent event) (agentStep agent out r.tool))
            .completed out.text)))
  | goes (sent : Transcript J) (event : Option CompactionEvent) (out : StepOutput J)
      (hc : maybeCompact dumps agent.contextPolicy s.transcript index r.summary = .ok (sent, event))
      (hcalls : out.toolCalls ≠ []) : StepTo dumps agent parts s index r
        (receive (send agent parts (askSummary dumps agent s) sent event) (agentStep agent out r.tool), none)

theorem takeStep_cases (dumps : J → String) (agent : Agent) (parts : List ContextPart)
    (s : AgentState J) (index : ℕ) (r : StepReply J) :
    StepTo dumps agent parts s index r (takeStep dumps agent parts s index r) := by
  unfold takeStep
  cases hc : maybeCompact dumps agent.contextPolicy s.transcript index r.summary with
  | error exc => exact .unsummarized exc
  | ok folded =>
    obtain ⟨sent, event⟩ := folded
    cases r.out with
    | error exc => exact .unanswered sent event exc hc
    | ok out =>
      simp only
      split_ifs with hcalls
      · exact .completes sent event out hc hcalls
      · exact .goes sent event out hc hcalls

theorem rounds_invariant {I L : AgentState J → Prop} (env : ℕ → StepReply J)
    (stop : ∀ s, I s → L s)
    (keep : ∀ s index r t, I s → takeStep dumps agent parts s index r = (t, none) → I t)
    (last : ∀ s index r t result, I s →
      takeStep dumps agent parts s index r = (t, some result) → L t)
    {s : AgentState J} (h : I s) (n index : ℕ) : L (rounds dumps agent parts env n index s).1 := by
  induction n generalizing s index with
  | zero => exact stop s h
  | succ n ih =>
    simp only [rounds]
    rcases hstep : takeStep dumps agent parts s index (env index) with ⟨t, _ | result⟩
    · exact ih (keep s index (env index) t h hstep) (index + 1)
    · exact last s index (env index) t result h hstep

end Workbench.AgentRuntime
