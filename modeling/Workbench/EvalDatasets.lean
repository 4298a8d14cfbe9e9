import Workbench.Chunking
import Workbench.ModelReplies
import Workbench.Tallies
import Mathlib.Data.List.Dedup

/-!
`generate_eval_dataset`: the cases of a synthetic eval set and its card. What the router answers to
each call is up to `step`, which is given the number of the call.
-/

namespace Workbench.Evals

open AgentRuntime PyJson Tallies

variable {M J : Type}

abbrev Chunk := Rag.Chunk

inductive CaseType
  | standard
  | negative
  | multihop
  deriving DecidableEq

structure EvalCase where
  id : String
  question : String
  expectedAnswer : Option String
  relevantSources : List String
  caseType : CaseType
  deriving DecidableEq

structure BenchmarkCard where
  dataset : String
  total : ℕ
  byType : Tally CaseType ℕ
  sourceCoverage : ℕ
  generatorModel : String
  note : String := "Synthetic — calibrate against a human-reviewed subset before trusting " ++
    "absolute scores. Negative cases score refusal accuracy, not retrieval."

structure SyntheticDataset where
  name : String
  cases : List EvalCase
  card : BenchmarkCard

def standardSystem : String :=
  "Write ONE self-contained question answerable from ONLY the given text, plus " ++
    "a short reference answer. Respond with ONLY JSON: \x7b\"question\": \"...\", \"answer\": \"...\"\x7d"

def multihopSystem : String :=
  "Write ONE question that requires combining BOTH given passages to answer " ++
    "(multi-hop). Respond with ONLY JSON: \x7b\"question\": \"...\", \"answer\": \"...\"\x7d"

def negativeSystem : String :=
  "Given the TOPICS a knowledge base covers, write ONE plausible question about " ++
    "a DIFFERENT, related topic that is NOT covered, so a grounded system must " ++
    "refuse. Respond with ONLY JSON: \x7b\"question\": \"...\"\x7d"

/-- `corpus[skip::stride]` -/
def everyNth {α : Type} (stride : ℕ) : ℕ → List α → List α
  | _, [] => []
  | 0, x :: xs => x :: everyNth stride (stride - 1) xs
  | skip + 1, _ :: xs => everyNth stride skip xs

def sampled (corpus : List (Chunk M)) (nStandard : ℕ) : List (Chunk M) :=
  (everyNth (max (corpus.length / max nStandard 1) 1) 0 corpus).take nStandard

/-- The bound is looked at once a pair has been appended. -/
def pairsFrom (n : ℕ) (pairs : List (Chunk M × Chunk M)) : List (Chunk M) → List (Chunk M × Chunk M)
  | a :: b :: rest =>
    let pairs := if a.source ≠ b.source then pairs ++ [(a, b)] else pairs
    if n ≤ pairs.length then pairs else pairsFrom n pairs (b :: rest)
  | _ => pairs

def distinctSourcePairs (corpus : List (Chunk M)) (n : ℕ) : List (Chunk M × Chunk M) :=
  pairsFrom n [] corpus

def topics (corpus : List (Chunk M)) : String :=
  ", ".intercalate ((corpus.map fun c => c.source).dedup.mergeSort fun a b => a ≤ b)

section Calls

variable (lib : ReplyLibrary) (step : ℕ → StepRequest → Except Exc (StepOutput J))

def asked (text : String) : Except PyError (Option (String × Json)) :=
  (loadObject lib.loads text).bind fun data =>
    let data := data.getD .null
    if data.truthy then (data.get "question" .null).bind fun question =>
      if question.truthy then (lib.str question).map fun question => some (question, data)
      else .ok none
    else .ok none

def answerOf (data : Json) : Except PyError (Option String) :=
  (data.get "answer" .null).bind fun answer =>
    (lib.str (answer.orElse (.str ""))).map fun text => if text = "" then none else some text

def refusal (_data : Json) : Except PyError (Option String) :=
  .ok (some "The provided context does not contain the answer.")

def turn (call : ℕ) (request : StepRequest) (id : String) (sources : List String)
    (caseType : CaseType) (expected : Json → Except PyError (Option String)) :
    Except Exc (Option EvalCase × String) :=
  (step call request).bind fun out => ((asked lib out.text).bind fun data =>
    data.elim (.ok (none, out.model)) fun (question, data) => (expected data).map fun answer =>
      (some ⟨id, question, answer, sources, caseType⟩, out.model)).mapError pyExc

def standardTurn (x : Chunk M × ℕ) : Except Exc (Option EvalCase × String) :=
  turn lib step x.2 ⟨x.1.text, .standard, standardSystem, 512⟩ ("std-" ++ toString x.2)
    [x.1.source] .standard (answerOf lib)

def multihopTurn (calls : ℕ) (x : (Chunk M × Chunk M) × ℕ) : Except Exc (Option EvalCase × String) :=
  turn lib step (calls + x.2)
    ⟨"Passage A:\n" ++ x.1.1.text ++ "\n\nPassage B:\n" ++ x.1.2.text, .complex, multihopSystem, 512⟩
    ("multi-" ++ toString x.2) [x.1.1.source, x.1.2.source] .multihop (answerOf lib)

def negativeTurn (calls : ℕ) (topics : String) (i : ℕ) : Except Exc (Option EvalCase × String) :=
  turn lib step (calls + i) ⟨"Topics covered: " ++ topics, .standard, negativeSystem, 256⟩
    ("neg-" ++ toString i) [] .negative refusal

def cardOf (name : String) (cases : List EvalCase) (model : String) : BenchmarkCard where
  dataset := name
  total := cases.length
  byType := (cases.map fun c => (c.caseType, 1)).foldl add (.empty _)
  sourceCoverage := (cases.flatMap fun c => c.relevantSources).dedup.length
  generatorModel := model

def finished (name : String) (turns : List (Option EvalCase × String)) : Except Exc SyntheticDataset :=
  let cases := turns.filterMap Prod.fst
  if cases = [] then .error ⟨"GenerationError", "no synthetic cases could be generated"⟩
  else .ok ⟨name, cases, cardOf name cases ((turns.getLast?.map Prod.snd).getD "")⟩

def generateEvalDataset (collection : String) (corpus : List (Chunk M)) (name : String)
    (nStandard nNegative nMultihop : ℕ) : Except Exc SyntheticDataset :=
  if corpus.isEmpty then .error ⟨"GenerationError", "index " ++ collection ++ " is empty"⟩
  else
    let chunks := sampled corpus nStandard
    let pairs := distinctSourcePairs corpus nMultihop
    (chunks.zipIdx.mapM (standardTurn lib step)).bind fun standard =>
      (pairs.zipIdx.mapM (multihopTurn lib step chunks.length)).bind fun multihop =>
        ((List.range nNegative).mapM
          (negativeTurn lib step (chunks.length + pairs.length) (topics corpus))).bind fun negative =>
            finished name (standard ++ multihop ++ negative)

end Calls

end Workbench.Evals
