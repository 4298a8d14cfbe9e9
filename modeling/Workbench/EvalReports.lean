import Workbench.RagEvals

namespace Workbench.Evals

open AgentRuntime Ledgers Rag Verdicts

variable {M J : Type} {lib : VerdictLibrary J} {topK : ℕ} {judge : Bool}

def Rate (x : ℚ) : Prop := 0 ≤ x ∧ x ≤ 1

structure Evaluated (topK : ℕ) (env : ExampleReplies M J) (ex : QAExample)
    (report : ExampleReport M) : Prop where
  exampleId : report.exampleId = ex.id
  search : env.search ex.question topK = .ok report.retrieved
  retrieval : report.retrieval = retrievalMetrics report.retrieved ex.relevantSources
  citations : ∃ c, report.citations = some c ∧ Rate c.accuracy
  faithfulness : ∀ v, report.faithfulness = some v → Rate v.score
  relevance : ∀ v, report.answerRelevance = some v → Rate v.score

def EvaluatedFrom (topK : ℕ) (env : ℕ → ExampleReplies M J) : ℕ → List QAExample →
    List (ExampleReport M) → Prop
  | _, [], [] => True
  | i, ex :: exs, report :: reports =>
    Evaluated topK (env i) ex report ∧ EvaluatedFrom topK env (i + 1) exs reports
  | _, _, _ => False

section Evaluated

variable {env : ℕ → ExampleReplies M J} {i : ℕ} {exs : List QAExample}
  {reports : List (ExampleReport M)}

theorem EvaluatedFrom.ids (h : EvaluatedFrom topK env i exs reports) :
    reports.map ExampleReport.exampleId = exs.map QAExample.id := by
  induction exs generalizing i reports with
  | nil =>
    cases reports with
    | nil => rfl
    | cons report reports => exact h.elim
  | cons ex exs ih =>
    cases reports with
    | nil => exact h.elim
    | cons report reports => rw [List.map_cons, List.map_cons, h.1.exampleId, ih h.2]

theorem EvaluatedFrom.searched (h : EvaluatedFrom topK env i exs reports) :
    searchedMetrics topK (fun i => (env i).search) i exs =
      .ok (reports.map ExampleReport.retrieval) := by
  induction exs generalizing i reports with
  | nil =>
    cases reports with
    | nil => rfl
    | cons report reports => exact h.elim
  | cons ex exs ih =>
    cases reports with
    | nil => exact h.elim
    | cons report reports =>
      unfold searchedMetrics
      rw [h.1.search, ih h.2, List.map_cons, h.1.retrieval]
      rfl

theorem EvaluatedFrom.each (h : EvaluatedFrom topK env i exs reports) :
    ∀ report ∈ reports, ∃ j ex, Evaluated topK (env j) ex report := by
  induction exs generalizing i reports with
  | nil =>
    cases reports with
    | nil => exact fun _ hr => by cases hr
    | cons report reports => exact h.elim
  | cons ex exs ih =>
    cases reports with
    | nil => exact h.elim
    | cons report reports =>
      rw [List.forall_mem_cons]
      exact ⟨⟨i, ex, h.1⟩, ih h.2⟩

end Evaluated

structure Sound (topK : ℕ) (a : EvalAggregates) : Prop where
  mrr : 0 ≤ a.mrr ∧ a.mrr ≤ a.hitRate ∧ a.hitRate ≤ topK * a.mrr
  precision : 0 ≤ a.contextPrecision ∧ a.contextPrecision ≤ a.hitRate ∧
    a.hitRate ≤ topK * a.contextPrecision
  hitRate : a.hitRate ≤ 1
  citations : ∃ x, a.citationAccuracy = some x ∧ Rate x
  judges : ∀ x, a.faithfulness = some x ∨ a.answerRelevance = some x → Rate x

end Workbench.Evals
