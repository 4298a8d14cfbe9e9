import Workbench.PyIntegers
import Workbench.RankFusion
import Workbench.Regexes
import Mathlib.Algebra.BigOperators.Group.List.Basic
import Mathlib.Algebra.Order.Field.Basic
import Mathlib.Data.List.Dedup

namespace Workbench.Evals

open Rag Regexes

variable {M : Type}

structure RetrievalMetrics where
  hit : Bool
  reciprocalRank : ℚ
  contextPrecision : ℚ
  deriving DecidableEq

structure CitationMetrics where
  cited : ℕ
  valid : ℕ
  accuracy : ℚ
  deriving DecidableEq

def retrievalMetrics (retrieved : List (ScoredChunk M)) (relevantSources : List String) :
    RetrievalMetrics :=
  let hits := retrieved.map fun s => decide (s.chunk.source ∈ relevantSources)
  let firstRank : Option ℕ := (hits.findIdx? id).map fun i => i + 1
  { hit := firstRank.isSome
    reciprocalRank := firstRank.elim 0 fun rank => 1 / (rank : ℚ)
    contextPrecision := if hits = [] then 0 else hits.count true / hits.length }

section Retrieval

variable (retrieved : List (ScoredChunk M)) (relevantSources : List String)

def hits : List Bool := retrieved.map fun s => decide (s.chunk.source ∈ relevantSources)

end Retrieval

end Workbench.Evals
