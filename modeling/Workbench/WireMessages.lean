import Workbench.Transcripts

namespace Workbench.AgentRuntime

structure FunctionCall where
  id : String
  name : String
  arguments : String
  deriving DecidableEq

inductive OpenaiMessage
  | system (content : String)
  | user (content : String)
  | assistant (content : Option String) (toolCalls : Option (List FunctionCall))
  | tool (toolCallId content : String)
  deriving DecidableEq

inductive Role
  | user
  | assistant
  deriving DecidableEq

inductive Block (J : Type)
  | text (text : String)
  | toolUse (id name : String) (input : J)
  | toolResult (toolUseId content : String) (isError : Bool)
  deriving DecidableEq

structure AnthropicMessage (J : Type) where
  role : Role
  content : List (Block J)
  deriving DecidableEq

variable {J : Type}

def Message.typeName : Message J → String
  | .user _ => "UserMessage"
  | .assistant _ _ => "AssistantMessage"
  | .toolResult _ => "ToolResultMessage"

def nothingRendered (transcript : Transcript J) : String :=
  "transcript produced no messages; got item types [" ++
    ", ".intercalate (transcript.map fun item => "'" ++ item.typeName ++ "'") ++
    "] (expected UserMessage/AssistantMessage/ToolResultMessage)"

section Openai

variable (dumps : J → String)

def Message.openai : Message J → OpenaiMessage
  | .user content => .user content
  | .assistant content toolCalls => .assistant (if content = "" then none else some content)
      (if toolCalls = [] then none
        else some (toolCalls.map fun c => ⟨c.id, c.name, dumps c.arguments⟩))
  | .toolResult result => .tool result.toolCallId result.content

def systemMessages (system : Option String) : List OpenaiMessage :=
  match system with
  | some content => if content = "" then [] else [.system content]
  | none => []

def toOpenaiMessages (transcript : Transcript J) (system : Option String) :
    Except String (List OpenaiMessage) :=
  let rendered := systemMessages system
  let messages := rendered ++ transcript.map (Message.openai dumps)
  if transcript ≠ [] ∧ messages.length = rendered.length then .error (nothingRendered transcript)
  else .ok messages

end Openai

def emit (messages : List (AnthropicMessage J)) (role : Role) (blocks : List (Block J)) :
    List (AnthropicMessage J) :=
  match messages.getLast? with
  | some last =>
    if last.role = role then messages.dropLast ++ [{ last with content := last.content ++ blocks }]
    else messages ++ [⟨role, blocks⟩]
  | none => messages ++ [⟨role, blocks⟩]

def Message.role : Message J → Role
  | .assistant _ _ => .assistant
  | _ => .user

def Message.blocks : Message J → List (Block J)
  | .user content => [.text content]
  | .assistant content toolCalls => (if content = "" then [] else [.text content]) ++
      toolCalls.map fun c => .toolUse c.id c.name c.arguments
  | .toolResult result => [.toolResult result.toolCallId result.content result.isError]

def toAnthropicMessages (transcript : Transcript J) : Except String (List (AnthropicMessage J)) :=
  let messages := transcript.foldl (fun messages item => emit messages item.role item.blocks) []
  if transcript ≠ [] ∧ messages = [] then .error (nothingRendered transcript) else .ok messages

-- What a conversation consists of, whichever the wire. The arguments of a call are `none` where
-- the text that carries them is no JSON.
inductive Event (J : Type)
  | userText (text : String)
  | assistantText (text : String)
  | toolCall (id name : String) (arguments : Option J)
  | toolResult (callId content : String)
  deriving DecidableEq

def textEvent (role : Role) (text : String) : List (Event J) :=
  if text = "" then [] else
    match role with
    | .user => [.userText text]
    | .assistant => [.assistantText text]

def OpenaiMessage.events (loads : String → Option J) : OpenaiMessage → List (Event J)
  | .system _ => []
  | .user content => textEvent .user content
  | .assistant content toolCalls => textEvent .assistant (content.getD "") ++
      (toolCalls.getD []).map fun c => .toolCall c.id c.name (loads c.arguments)
  | .tool toolCallId content => [.toolResult toolCallId content]

def Block.events (role : Role) : Block J → List (Event J)
  | .text content => textEvent role content
  | .toolUse id name input => [.toolCall id name (some input)]
  | .toolResult toolUseId content _ => [.toolResult toolUseId content]

def AnthropicMessage.events (m : AnthropicMessage J) : List (Event J) :=
  m.content.flatMap (Block.events m.role)

def Message.events : Message J → List (Event J)
  | .user content => textEvent .user content
  | .assistant content toolCalls => textEvent .assistant content ++
      toolCalls.map fun c => .toolCall c.id c.name (some c.arguments)
  | .toolResult result => [.toolResult result.toolCallId result.content]

def Message.toolCalls : Message J → List (ToolCall J)
  | .assistant _ toolCalls => toolCalls
  | _ => []

section Readers

variable {dumps : J → String} {loads : String → Option J}

theorem events_openai {item : Message J}
    (h : ∀ c ∈ item.toolCalls, loads (dumps c.arguments) = some c.arguments) :
    (item.openai dumps).events loads = item.events := by
  cases item with
  | user content => rfl
  | toolResult result => rfl
  | assistant content toolCalls =>
    have htext : (if content = "" then none else some content).getD "" = content := by
      split_ifs with he
      · exact he.symm
      · rfl
    have hcalls : (if toolCalls = [] then none else
        some (toolCalls.map fun c => FunctionCall.mk c.id c.name (dumps c.arguments))).getD [] =
          toolCalls.map fun c => ⟨c.id, c.name, dumps c.arguments⟩ := by
      split_ifs with he
      · rw [he]
        rfl
      · rfl
    simp only [Message.openai, OpenaiMessage.events, Message.events, htext, hcalls, List.map_map]
    congr 1
    apply List.map_congr_left
    intro c hc
    simp only [Function.comp_apply]
    rw [h c hc]

theorem events_blocks (item : Message J) :
    item.blocks.flatMap (Block.events item.role) = item.events := by
  cases item with
  | user content => exact List.append_nil _
  | toolResult result => rfl
  | assistant content toolCalls =>
    have htext : (if content = "" then [] else [Block.text content]).flatMap
        (Block.events (J := J) .assistant) = textEvent .assistant content := by
      split_ifs with he
      · rw [he]
        rfl
      · exact List.append_nil _
    have hcalls : (toolCalls.map fun c => Block.toolUse c.id c.name c.arguments).flatMap
        (Block.events .assistant) =
          toolCalls.map fun c => Event.toolCall c.id c.name (some c.arguments) := by
      rw [List.flatMap_map, List.map_eq_flatMap]
      rfl
    rw [Message.blocks, List.flatMap_append]
    exact congrArg₂ _ htext hcalls

theorem events_emit (messages : List (AnthropicMessage J)) (role : Role) (blocks : List (Block J)) :
    (emit messages role blocks).flatMap AnthropicMessage.events =
      messages.flatMap AnthropicMessage.events ++ blocks.flatMap (Block.events role) := by
  have happend : (messages ++ [AnthropicMessage.mk role blocks]).flatMap AnthropicMessage.events =
      messages.flatMap AnthropicMessage.events ++ blocks.flatMap (Block.events role) := by
    simp [AnthropicMessage.events]
  unfold emit
  cases hlast : messages.getLast? with
  | none => exact happend
  | some last =>
    obtain ⟨front, rfl⟩ := List.getLast?_eq_some_iff.mp hlast
    simp only
    split_ifs with hrole
    · subst hrole
      simp [AnthropicMessage.events]
    · exact happend

theorem emit_ne_nil (messages : List (AnthropicMessage J)) (role : Role) (blocks : List (Block J)) :
    emit messages role blocks ≠ [] := by
  unfold emit
  cases messages.getLast? with
  | none => simp
  | some last =>
    simp only
    split_ifs <;> simp

theorem foldl_emit (messages : List (AnthropicMessage J)) (transcript : Transcript J) :
    (transcript.foldl (fun messages item => emit messages item.role item.blocks) messages).flatMap
        AnthropicMessage.events =
      messages.flatMap AnthropicMessage.events ++ transcript.flatMap Message.events := by
  induction transcript generalizing messages with
  | nil => simp
  | cons item transcript ih =>
    rw [List.foldl_cons, ih, events_emit, events_blocks, List.flatMap_cons, List.append_assoc]

theorem toOpenaiMessages_ok (dumps : J → String) (transcript : Transcript J) (system : Option String) :
    toOpenaiMessages dumps transcript system =
      .ok (systemMessages system ++ transcript.map (Message.openai dumps)) := by
  apply if_neg
  rintro ⟨hne, hlen⟩
  rw [List.length_append, List.length_map] at hlen
  have hpos := List.length_pos_iff.mpr hne
  omega

theorem toAnthropicMessages_ok (transcript : Transcript J) : toAnthropicMessages transcript =
    .ok (transcript.foldl (fun messages item => emit messages item.role item.blocks) []) := by
  apply if_neg
  rintro ⟨hne, hnil⟩
  obtain ⟨front, last, rfl⟩ := (List.eq_nil_or_concat' transcript).resolve_left hne
  rw [List.foldl_concat] at hnil
  exact emit_ne_nil _ _ _ hnil

theorem events_system (system : Option String) :
    (systemMessages system).flatMap (OpenaiMessage.events loads) = [] := by
  unfold systemMessages
  cases system with
  | none => rfl
  | some content => simp only; split_ifs <;> rfl

theorem wires_agree {transcript : Transcript J} (system : Option String)
    (h : ∀ item ∈ transcript, ∀ c ∈ item.toolCalls, loads (dumps c.arguments) = some c.arguments) :
    ∃ openai anthropic, toOpenaiMessages dumps transcript system = .ok openai ∧
      toAnthropicMessages transcript = .ok anthropic ∧
      openai.flatMap (OpenaiMessage.events loads) = anthropic.flatMap AnthropicMessage.events ∧
      anthropic.flatMap AnthropicMessage.events = transcript.flatMap Message.events := by
  have hanthropic := foldl_emit [] transcript
  refine ⟨_, _, toOpenaiMessages_ok dumps transcript system, toAnthropicMessages_ok transcript, ?_,
    hanthropic⟩
  rw [hanthropic, List.flatMap_append, events_system, List.flatMap_map]
  apply List.flatMap_congr
  intro item hitem
  exact events_openai (h item hitem)

end Readers

def dumpsFields (fields : List (String × ℕ)) : String :=
  "\x7b" ++ ", ".intercalate (fields.map fun f => "\"" ++ f.1 ++ "\": " ++ toString f.2) ++ "\x7d"

def loadsPage (text : String) : Option (List (String × ℕ)) :=
  if text = "\x7b\"page\": 2\x7d" then some [("page", 2)]
  else if text = "\x7b\x7d" then some [] else none

def twoCalls : Transcript (List (String × ℕ)) :=
  [.user "go", .user "on", .assistant "" [⟨"a", "search", [("page", 2)]⟩, ⟨"b", "list", []⟩],
    .toolResult ⟨"a", "search", "", true⟩, .toolResult ⟨"b", "list", "none", false⟩, .user ""]

theorem two_calls_agree : ∃ openai anthropic,
    toOpenaiMessages dumpsFields twoCalls (some "Be brief.") = .ok openai ∧
      toAnthropicMessages twoCalls = .ok anthropic ∧
      openai.flatMap (OpenaiMessage.events loadsPage) =
        anthropic.flatMap AnthropicMessage.events ∧
      anthropic.flatMap AnthropicMessage.events = twoCalls.flatMap Message.events :=
  wires_agree (some "Be brief.") (by decide +kernel)

end Workbench.AgentRuntime
