import Mathlib.Data.List.Basic
import Mathlib.Data.Rat.Init
import Mathlib.Algebra.Order.Ring.Unbundled.Rat
import Mathlib.Algebra.GroupWithZero.Nat

/-!
`workbench_runtime.types` and the transcript functions of `workbench_runtime.context`. `J` is the
type of a call's arguments, and `dumps` is `json.dumps` on it.
-/

namespace Workbench.AgentRuntime

inductive Complexity
  | simple
  | standard
  | complex
  | judge
  deriving DecidableEq

structure ToolCall (J : Type) where
  id : String
  name : String
  arguments : J
  deriving DecidableEq

structure ToolResult where
  toolCallId : String
  name : String
  content : String
  isError : Bool
  deriving DecidableEq

inductive Message (J : Type)
  | user (content : String)
  | assistant (content : String) (toolCalls : List (ToolCall J))
  | toolResult (result : ToolResult)
  deriving DecidableEq

abbrev Transcript (J : Type) := List (Message J)

variable {J : Type}

def Message.isToolResult : Message J → Bool
  | .toolResult _ => true
  | _ => false

def Message.isAssistant : Message J → Bool
  | .assistant _ _ => true
  | _ => false

def charsPerToken : ℕ := 4

def perItemOverhead : ℕ := 4

structure ContextPolicy where
  maxContextTokens : ℤ
  compactTriggerRatio : ℚ
  keepRecentItems : ℤ
  summaryMaxTokens : ℤ
  deriving DecidableEq

def defaultPolicy : ContextPolicy := ⟨16000, 4 / 5, 8, 512⟩

section Tokens

variable (dumps : J → String)

def Message.tokens : Message J → ℕ
  | .user content => content.length / charsPerToken
  | .assistant content toolCalls => content.length / charsPerToken +
      (toolCalls.map fun call => (call.name ++ dumps call.arguments).length / charsPerToken).sum
  | .toolResult result => result.content.length / charsPerToken

def estimateTokens (transcript : Transcript J) : ℕ :=
  (transcript.map fun item => perItemOverhead + item.tokens dumps).sum

def Message.lines : Message J → List String
  | .user content => ["user: " ++ content]
  | .assistant content toolCalls =>
    (if content = "" then [] else ["assistant: " ++ content]) ++
      toolCalls.map fun call => "assistant → tool " ++ call.name ++ "(" ++ dumps call.arguments ++ ")"
  | .toolResult result =>
    ["tool " ++ result.name ++ " [" ++ (if result.isError then "error" else "ok") ++ "]: " ++
      result.content]

def renderTranscript (transcript : Transcript J) : String :=
  "\n".intercalate (transcript.flatMap (Message.lines dumps))

def shouldCompact (policy : ContextPolicy) (transcript : Transcript J) : Bool :=
  policy.maxContextTokens * policy.compactTriggerRatio ≤ (estimateTokens dumps transcript : ℚ)

end Tokens

/-- The loop moves the cut past the tool results it lands on. -/
def chooseCut (transcript : Transcript J) (keepRecentItems : ℤ) : ℕ :=
  let cut := (transcript.length - keepRecentItems).toNat
  cut + ((transcript.drop cut).takeWhile Message.isToolResult).length

theorem drop_chooseCut (transcript : Transcript J) (keepRecentItems : ℤ) :
    transcript.drop (chooseCut transcript keepRecentItems) =
      (transcript.drop (transcript.length - keepRecentItems).toNat).dropWhile Message.isToolResult := by
  rw [chooseCut, ← List.drop_drop]
  generalize transcript.drop (transcript.length - keepRecentItems).toNat = rest
  have hleft := @List.drop_left _ (rest.takeWhile Message.isToolResult)
    (rest.dropWhile Message.isToolResult)
  rwa [List.takeWhile_append_dropWhile] at hleft

theorem chooseCut_head (transcript : Transcript J) (keepRecentItems : ℤ) :
    ∀ item ∈ (transcript.drop (chooseCut transcript keepRecentItems)).head?,
      item.isToolResult = false := by
  intro item hitem
  rw [drop_chooseCut] at hitem
  have hhead := List.head?_dropWhile_not Message.isToolResult
    (transcript.drop (transcript.length - keepRecentItems).toNat)
  rw [Option.mem_def.mp hitem] at hhead
  simpa using hhead

end Workbench.AgentRuntime
