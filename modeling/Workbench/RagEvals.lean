import Workbench.CallCosts
import Workbench.EvalMetrics
import Workbench.VerdictReplies

/-!
`run_rag_eval` and `run_retrieval_regression`. What the pipeline finds for each example and what the
router answers to each call is up to the environment.
-/

namespace Workbench.Evals

open AgentRuntime Ledgers Rag Verdicts

variable {M J : Type}

structure QAExample where
  id : String
  question : String
  expectedAnswer : Option String
  relevantSources : List String
  relevant : relevantSources ≠ []

structure ExampleReport (M : Type) where
  exampleId : String
  question : String
  retrieval : RetrievalMetrics
  retrieved : List (ScoredChunk M)
  answer : Option String
  citations : Option CitationMetrics
  faithfulness : Option JudgeVerdict
  answerRelevance : Option JudgeVerdict

structure EvalAggregates where
  n : ℕ
  hitRate : ℚ
  mrr : ℚ
  contextPrecision : ℚ
  citationAccuracy : Option ℚ
  faithfulness : Option ℚ
  answerRelevance : Option ℚ

structure ExampleReplies (M J : Type) where
  search : String → ℕ → Except Exc (List (ScoredChunk M))
  answer : StepRequest → Except Exc (StepOutput J)
  faithfulness : StepRequest → Except Exc (StepOutput J)
  relevance : StepRequest → Except Exc (StepOutput J)

section Run

variable (lib : VerdictLibrary J) (topK : ℕ) (judge : Bool)

end Run

def searchedMetrics (topK : ℕ) (search : ℕ → String → ℕ → Except Exc (List (ScoredChunk M))) :
    ℕ → List QAExample → Except Exc (List RetrievalMetrics)
  | _, [] => .ok []
  | i, ex :: exs => (search i ex.question topK).bind fun retrieved =>
      (searchedMetrics topK search (i + 1) exs).map fun rest =>
        retrievalMetrics retrieved ex.relevantSources :: rest

end Workbench.Evals
