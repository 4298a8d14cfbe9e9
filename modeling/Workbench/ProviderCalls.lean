import Workbench.AgentLoop
import Workbench.PyJson
import Workbench.WireMessages

/-!
`step_openai_compatible`. What the server answers is up to `Http`; `json.loads`, `json.dumps` and
the lax `int` of a model are up to the library.
-/

namespace Workbench.ModelRouter

open AgentRuntime PyJson

inductive ProviderKind
  | anthropic
  | openaiCompatible
  deriving DecidableEq

structure Provider where
  name : String
  kind : ProviderKind
  baseUrl : String
  apiKeyEnv : String
  models : List (String × String)
  deriving DecidableEq

inductive Reason
  | transport (text : String)
  | http (status : ℕ) (text : String)
  | malformed (exc : PyError)
  | onlyThought (maxTokens : ℤ)
  | apiError (typeName text : String) (status : Option ℕ)
  deriving DecidableEq

structure ProviderCallError where
  provider : String
  model : String
  reason : Reason
  deriving DecidableEq

def errorText : PyError → String
  | .keyError text => text
  | .indexError text => text
  | _ => ""

def Reason.text : Reason → String
  | .transport text => "transport: " ++ text
  | .http status text => "HTTP " ++ toString status ++ ": " ++ String.ofList (text.toList.take 200)
  | .malformed exc => "malformed response: " ++ errorText exc
  | .onlyThought maxTokens => "only chain-of-thought returned; raise max_tokens (now " ++
      toString maxTokens ++ ") or serve a non-reasoning model"
  | .apiError typeName text _ => typeName ++ ": " ++ text

def ProviderCallError.text (e : ProviderCallError) : String :=
  e.provider ++ "/" ++ e.model ++ ": " ++ e.reason.text

inductive Raised
  | providerCall (e : ProviderCallError)
  | other (e : PyError)
  deriving DecidableEq

structure ClientLibrary where
  dumps : Dict → String
  loads : String → Except LoadsError Json
  toInt : Json → Option ℤ
  environ : String → Option String
  localReadTimeout : ℚ

structure Function where
  name : String
  description : String
  parameters : Json

inductive Timeout
  | granular (connect read : ℚ)
  | plain (seconds : ℚ)

structure Request where
  url : String
  model : String
  messages : List OpenaiMessage
  maxTokens : ℤ
  tools : Option (List Function)
  reasoningEffort : Option String
  authorization : Option String
  timeout : Timeout

structure Response where
  status : ℕ
  text : String
  json : Except LoadsError Json

inductive HttpOutcome
  | transport (text : String)
  | answered (resp : Response)

/-- What the `n`-th request of a call comes to. -/
abbrev Http := ℕ → Request → HttpOutcome

def Provider.apiKey (lib : ClientLibrary) (provider : Provider) : Option String :=
  if provider.apiKeyEnv = "" then none else lib.environ provider.apiKeyEnv

def Provider.enabled (lib : ClientLibrary) (provider : Provider) : Bool :=
  if provider.apiKeyEnv = "" then true else (provider.apiKey lib).getD "" ≠ ""

def timeoutSeconds : ℚ := 120

def localConnectTimeout : ℚ := 2

def retryableStatuses : List ℕ := [429, 503]

def maxRetries : ℕ := 2

def noThinking : String := "none"

def reasoningFields : List String := ["reasoning", "reasoning_content"]

section Client

variable (lib : ClientLibrary) (provider : Provider) (model : String)

def failed (reason : Reason) : Raised := .providerCall ⟨provider.name, model, reason⟩

def postTimeout : Timeout :=
  if provider.apiKeyEnv = "" then .granular localConnectTimeout lib.localReadTimeout
  else .plain timeoutSeconds

def payload (messages : List OpenaiMessage) (tools : List Function) (maxTokens : ℤ) : Request :=
  ⟨provider.baseUrl ++ "/chat/completions", model, messages, maxTokens,
    if tools.isEmpty then none else some tools, none,
    (provider.apiKey lib).bind fun key => if key = "" then none else some ("Bearer " ++ key),
    postTimeout lib provider⟩

def Request.unthinking (body : Request) : Request := { body with reasoningEffort := some noThinking }

def accept (resp : Response) (n : ℕ) : Except Raised (Response × ℕ) :=
  if resp.status ≠ 200 then .error (failed provider model (.http resp.status resp.text))
  else .ok (resp, n + 1)

def post (http : Http) (body : Request) (retries n : ℕ) : Except Raised (Response × ℕ) :=
  match http n body with
  | .transport text => .error (failed provider model (.transport text))
  | .answered resp =>
    match retries with
    | retries + 1 =>
      if resp.status ∈ retryableStatuses then post http body retries (n + 1)
      else accept provider model resp n
    | 0 => accept provider model resp n

def isLookupError : PyError → Bool
  | .keyError _ => true
  | .indexError _ => true
  | _ => false

def messageOf (data : Json) : Except PyError Json :=
  (data.item "choices").bind fun choices => choices.first.bind fun c => c.item "message"

def unwrap (resp : Response) : Except Raised (Json × Json) :=
  match resp.json with
  | .error e => .error (.other e.error)
  | .ok data =>
    match messageOf data with
    | .ok message => .ok (data, message)
    | .error e => .error (if isLookupError e then failed provider model (.malformed e) else .other e)

def silent (message : Json) : Except PyError Bool :=
  (message.get "content" .null).bind fun content => (content.orElse (.str "")).strip.bind fun text =>
    (message.get "tool_calls" .null).map fun calls => text = "" && !calls.truthy

def thoughtOnly (message : Json) : Except PyError Bool :=
  (silent message).bind fun quiet =>
    (reasoningFields.mapM fun key => message.get key .null).map fun values =>
      quiet && values.any Json.truthy

/-- `extract_json`, with `None` as `null`. -/
def extractJson : Json → Except PyError Json
  | .str text =>
    match lib.loads text with
    | .ok value => .ok value
    | .error .recursion => .error .recursionError
    | .error _ => .ok .null
  | _ => .ok .null

def parsedArguments (raw : Json) : Except PyError Json :=
  match (raw.item "function").bind fun function => (function.item "arguments").bind fun arguments =>
    extractJson lib (arguments.orElse (.str "\x7b\x7d")) with
  | .error (.keyError _) => .ok .null
  | result => result

def toolCall (raw : Json) : Except PyError (ToolCall Dict) :=
  (parsedArguments lib raw).bind fun parsed => (raw.get "id" (.str "")).bind fun id =>
    ((raw.item "function").bind fun function => function.item "name").bind fun name =>
      id.asStr.bind fun id => name.asStr.map fun name =>
        ⟨id, name, match parsed with
          | .dict fields => fields
          | _ => []⟩

def usageOf (data : Json) : Except PyError Usage :=
  (data.get "usage" .null).bind fun usage =>
    ((usage.orElse (.dict [])).get "prompt_tokens" (.int 0)).bind fun prompt =>
      ((usage.orElse (.dict [])).get "completion_tokens" (.int 0)).bind fun completion =>
        match lib.toInt prompt, lib.toInt completion with
        | some inputTokens, some outputTokens => .ok ⟨inputTokens, outputTokens⟩
        | _, _ => .error .validationError

def stepOutput (data message : Json) : Except PyError (StepOutput Dict) :=
  (message.get "tool_calls" .null).bind fun calls => ((calls.orElse (.list [])).iter).bind fun raws =>
    (raws.mapM (toolCall lib)).bind fun toolCalls => (usageOf lib data).bind fun usage =>
      (message.get "content" .null).bind fun content => (content.orElse (.str "")).asStr.map fun text =>
        ⟨text, toolCalls, "", "", usage, none, 0, []⟩

def stepOpenaiCompatible (http : Http) (transcript : Transcript Dict) (tools : List Function)
    (system : Option String) (maxTokens : ℤ) : Except Raised (StepOutput Dict) :=
  match toOpenaiMessages lib.dumps transcript system with
  | .error _ => .error (.other .valueError)
  | .ok messages =>
    let body := payload lib provider model messages tools maxTokens
    (post provider model http body maxRetries 0).bind fun (resp, n) =>
      (unwrap provider model resp).bind fun (data, message) =>
        ((thoughtOnly message).mapError .other).bind fun thought =>
          if thought && provider.apiKeyEnv = "" then
            (post provider model http body.unthinking maxRetries n).bind fun (resp, _) =>
              (unwrap provider model resp).bind fun (data, message) =>
                ((silent message).mapError .other).bind fun quiet =>
                  if quiet then .error (failed provider model (.onlyThought maxTokens))
                  else (stepOutput lib data message).mapError .other
          else (stepOutput lib data message).mapError .other

end Client

end Workbench.ModelRouter
