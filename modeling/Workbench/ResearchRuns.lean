import Workbench.NetGuard
import Workbench.PlannerReplies
import Workbench.SequentialCalls

/-!
`run_research`: plan, search and fetch through the tool gateway, and a report from what was fetched.
What the router, the searches and the network answer is up to the environment; a call of the gateway
is named by its sub-question and, from 1 on, its hit.
-/

namespace Workbench.Research

open AgentRuntime KeyedTable NetGuard PyJson ToolGateway

variable {J : Type}

structure Hit where
  title : String
  url : String
  snippet : String
  deriving DecidableEq

structure Page where
  url : String
  title : String
  text : String
  deriving DecidableEq

structure Passage where
  source : String
  text : String
  deriving DecidableEq

inductive Output
  | hits (hits : List Hit)
  | page (page : Page)
  | passages (passages : List Passage)
  deriving DecidableEq

abbrev Place := ℕ × ℕ

abbrev Gateway := State Place Json (Connector Place Json Output) Output

section Connectors

def corpus : List Page :=
  [⟨"https://docs.local/rag", "Retrieval-Augmented Generation",
      "Retrieval-augmented generation (RAG) grounds a language model in " ++
      "external documents. An ingestion pipeline chunks documents and stores " ++
      "embeddings in a vector database; at query time the most relevant chunks " ++
      "are retrieved and added to the prompt. Hybrid search combines dense " ++
      "vector similarity with lexical BM25 for better recall. Quality is " ++
      "measured with retrieval hit rate, context precision, and faithfulness."⟩,
    ⟨"https://docs.local/agents", "Building Effective Agents",
      "An agent is a language model in a loop with tools. Each turn the " ++
      "model may call a tool; the result is fed back and the loop continues " ++
      "until the model answers. Predictable workflows with explicit steps and " ++
      "approval gates are preferred over fully autonomous agents when the cost " ++
      "of error is high. Tool use should go through a gateway with an allowlist " ++
      "and an audit log."⟩,
    ⟨"https://docs.local/observability", "Agent Observability",
      "Observability for agents captures a trace of every run: steps, " ++
      "tool calls, model calls, token usage, latency, cost, and errors. A " ++
      "failure taxonomy groups non-successful runs. A minimal custom trace " ++
      "schema is usually enough; a full third-party clone is rarely worth it."⟩,
    ⟨"https://docs.local/evals", "Evaluating LLM Systems",
      "Evaluation turns 'it seems to work' into measured quality. RAG " ++
      "evals score retrieval hit rate, citation accuracy, and answer " ++
      "faithfulness, often with an LLM judge that must be stronger than the " ++
      "model under test. Synthetic question-answer datasets bootstrap coverage. " ++
      "Regression gates stop quality from silently dropping."⟩,
    ⟨"https://docs.local/routing", "Cost-Aware Model Routing",
      "A model router sends each task to the cheapest model that can " ++
      "handle it: local models for simple tasks, cheap APIs for standard work, " ++
      "frontier models for hard reasoning and judging. Fallback across providers " ++
      "improves reliability. Per-call cost and latency telemetry guides tuning."⟩,
    ⟨"https://docs.local/governance", "AI Governance & Guardrails",
      "Governance for agentic systems means real controls: read-only " ++
      "data access with allowlists, PII detection, human approval gates before " ++
      "risky actions, and an audit log of tool calls. Connectivity through MCP " ++
      "increases the security surface, so the boundary must be in the gateway."⟩]

def argText (key : String) : Json → String
  | .dict fields => match field fields key with
    | some (.str text) => text
    | _ => ""
  | _ => ""

def corpusFetch (args : Json) : Except String Page :=
  let url := argText "url" args
  match corpus.find? fun page => page.url = url with
  | some page => .ok page
  | none => .error ("unknown url: " ++ url)

/-- What a live fetch meets: the hops of `safe_get`, and what `raise_for_status` and `_extract` make
of the response. -/
structure LiveReply where
  hops : ℕ → Hop
  extracted : Except Exc (String × String)

def fetchBlocking (lib : UrlLibrary) (reply : LiveReply) (args : Json) : Page :=
  let url := PyText.strip (argText "url" args)
  if url = "" then ⟨url, "", ""⟩
  else match (safeGet lib reply.hops url maxRedirects).result with
    | .error _ => ⟨url, "", ""⟩
    | .ok _ => match reply.extracted with
      | .error _ => ⟨url, "", ""⟩
      | .ok (title, text) => ⟨url, if title = "" then url else title, text⟩

inductive Family
  | default
  | live (lib : UrlLibrary) (replies : Place → LiveReply)

def Family.fetch : Family → Place → Json → Except String Page
  | default, _, args => corpusFetch args
  | live lib replies, c, args => .ok (fetchBlocking lib (replies c) args)

structure World where
  family : Family
  webSearch : Place → Json → Except String (List Hit)
  kbSearch : Place → Json → Except String (List Passage)
  moments : Place → Moment
  auditSink : Bool

def textSchema (key : String) : Json :=
  .dict [("type", .str "object"), ("properties", .dict [(key, .dict [("type", .str "string")])]),
    ("required", .list [.str key])]

def webSearchSpec : ToolSpec Json :=
  ⟨"web_search", "Search the web for sources. Returns [\x7btitle, url, snippet\x7d]. Call this first.",
    textSchema "query"⟩

def fetchSpec : ToolSpec Json :=
  ⟨"fetch", "Fetch the full text of a source by its url. Returns \x7burl, title, text\x7d.",
    textSchema "url"⟩

def kbSearchSpec : ToolSpec Json :=
  ⟨"kb_search", "Search the internal knowledge base for passages. Returns [\x7bsource, text\x7d].",
    textSchema "query"⟩

variable (w : World)

def buildLiveGateway : Gateway :=
  ((created Place Json (Connector Place Json Output) Output w.auditSink).register webSearchSpec
    fun c args => (w.webSearch c args).map .hits).register fetchSpec
      fun c args => (w.family.fetch c args).map .page

def buildDefaultGateway : Gateway :=
  (buildLiveGateway w).register kbSearchSpec fun c args => (w.kbSearch c args).map .passages

def buildGateway : Gateway :=
  match w.family with
  | .default => buildDefaultGateway w
  | .live _ _ => buildLiveGateway w

end Connectors

structure Source where
  n : ℕ
  url : String
  title : String
  deriving DecidableEq

structure ResearchReport where
  question : String
  subQuestions : List String
  sources : List Source
  report : String
  toolCalls : List (AuditEntry Json)
  provider : String
  model : String
  costUsd : Option ℚ

def defaultAllowlist : Finset String := {"web_search", "fetch", "kb_search"}

def planSystem : String :=
  "You are a research planner. Break the question into up to 3 focused " ++
    "sub-questions. Respond with ONLY JSON: \x7b\"sub_questions\": [\"...\", \"...\"]\x7d"

def reportSystem : String :=
  "You are a research analyst. Write a concise report answering the question " ++
    "using ONLY the numbered sources provided. Cite claims with inline markers " ++
    "like [1], [2]. If the sources do not support an answer, say so explicitly " ++
    "rather than inventing facts."

def urlArgs (url : String) : Json := .dict [("url", .str url)]

def queryArgs (query : String) : Json := .dict [("query", .str query)]

abbrev Bodies := Table (Prod.fst : String × String → String)

structure FetchCall where
  place : Place
  url : String
  result : ToolResult Output

structure Gathering where
  gateway : Gateway
  sources : List Source
  bodies : Bodies
  seen : Finset String
  fetches : List FetchCall

section Loop

variable (w : World) (allowlist : Finset String)

def visit (i : ℕ) (g : Gathering) (x : Hit × ℕ) : Gathering :=
  let url := x.1.url
  if url = "" ∨ url ∈ g.seen then g
  else
    let fetched := g.gateway.call (i, x.2) "fetch" (urlArgs url) (some allowlist) (w.moments (i, x.2))
    let g := { g with gateway := fetched.1, fetches := g.fetches ++ [⟨(i, x.2), url, fetched.2⟩] }
    match fetched.2.output with
    | some (.page page) =>
      if fetched.2.allowed = true ∧ (fetched.2.error = none ∨ fetched.2.error = some "") then
        { g with
          sources := g.sources ++ [⟨g.sources.length + 1, url, page.title⟩]
          bodies := g.bodies.put (url, page.text)
          seen := insert url g.seen }
      else g
    | _ => g

def hitsOf : Option Output → List Hit
  | some (.hits hits) => hits
  | _ => []

def researchOne (g : Gathering) (x : String × ℕ) : Gathering :=
  let search := g.gateway.call (x.2, 0) "web_search" (queryArgs x.1) (some allowlist) (w.moments (x.2, 0))
  (((hitsOf search.2.output).take 2).zipIdx 1).foldl (visit w allowlist x.2)
    { g with gateway := search.1 }

def gather (subQuestions : List String) : Gathering :=
  subQuestions.zipIdx.foldl (researchOne w allowlist) ⟨buildGateway w, [], .empty _, ∅, []⟩

end Loop

def sourceBlock (s : Source) (text : String) : String :=
  "[" ++ toString s.n ++ "] " ++ s.title ++ " (" ++ s.url ++ ")\n" ++ text

def bodyOf (bodies : Bodies) (url : String) : String := (bodies.get url).elim "" Prod.snd

def reportPrompt (question : String) (blocks : List String) : String :=
  "Question: " ++ question ++ "\n\nSources:\n" ++ "\n\n".intercalate blocks

def reportRequest (question : String) (g : Gathering) : StepRequest :=
  ⟨reportPrompt question (g.sources.map fun s => sourceBlock s (bodyOf g.bodies s.url)), .complex,
    reportSystem, 1024⟩

def routerStep (answer : Except Exc (StepOutput J)) (_request : StepRequest) :
    Except Exc (StepOutput J) := answer

structure ResearchRun where
  report : ResearchReport
  request : StepRequest
  fetches : List FetchCall

def runResearch (lib : AutonomousLibrary J) (w : World) (question : String)
    (allowlist : Option (Finset String)) (plan report : Except Exc (StepOutput J)) :
    Except Exc ResearchRun :=
  let allowlist := allowlist.getD defaultAllowlist
  (routerStep plan ⟨question, .complex, planSystem, 512⟩).bind fun plan =>
    ((Planners.parseSubquestions lib plan.text question).mapError pyExc).bind fun subQuestions =>
      let g := gather w allowlist subQuestions
      (routerStep report (reportRequest question g)).map fun out =>
        ⟨⟨question, subQuestions, g.sources, out.text, g.gateway.audit, out.provider, out.model,
          addCost (addCost (some 0) plan.costUsd) out.costUsd⟩, reportRequest question g, g.fetches⟩

end Workbench.Research
