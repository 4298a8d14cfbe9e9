import Workbench.LatencyAggregates
import Workbench.Tallies
import Workbench.ToolGateway

namespace Workbench.Observability

open KeyedTable Tallies ToolGateway

inductive Payload (A J : Type)
  | tool (args : A) (atTime : String)
  | run (payload : J)

structure TraceCall (A J : Type) where
  kind : String
  name : String
  status : String
  latencyMs : ℤ
  costUsd : Option ℚ
  inputTokens : ℤ
  outputTokens : ℤ
  numSteps : ℤ
  error : Option String
  payload : Payload A J

structure Trace (A J : Type) extends TraceCall A J where
  id : String
  createdAt : String

abbrev Store (A J : Type) := Table (Trace.id (A := A) (J := J))

/-- How a commit ends: one that raises may have been carried out. -/
inductive Commit
  | done
  | fails (applied : Bool)

def successStatuses : List String := ["completed"]

def nonTerminalStatuses : List String := ["running", "awaiting_approval"]

variable {A J C H V : Type}

/-- `record_trace`, with the id that is drawn; `none` is a raised error, which an id in use is too. -/
def recordTrace (store : Store A J) (call : TraceCall A J) (id now : String) (commit : Commit) :
    Store A J × Option (Option String) :=
  if call.status ∈ nonTerminalStatuses then (store, some none)
  else match h : store.get id with
    | some _ => (store, none)
    | none =>
      let row : Trace A J := { call with id, createdAt := now }
      match commit with
      | .done => (store.insert row h, some (some id))
      | .fails applied => (if applied then store.insert row h else store, none)

def safeRecord (store : Store A J) (call : TraceCall A J) (id now : String) (commit : Commit) :
    Store A J × Option String :=
  let recorded := recordTrace store call id now commit
  (recorded.1, recorded.2.join)

structure Recording (A J : Type) where
  call : TraceCall A J
  id : String
  now : String
  commit : Commit

def recordAll (store : Store A J) :
    List (Recording A J) → Store A J × List (Option (Option String))
  | [] => (store, [])
  | r :: rs =>
    let recorded := recordTrace store r.call r.id r.now r.commit
    let rest := recordAll recorded.1 rs
    (rest.1, recorded.2 :: rest.2)

def auditStatus (entry : AuditEntry A) : String :=
  if entry.allowed = false then "denied"
  else if (entry.error.getD "") ≠ "" then "failed"
  else "completed"

def auditCall (entry : AuditEntry A) : TraceCall A J where
  kind := "tool"
  name := entry.tool
  status := auditStatus entry
  latencyMs := entry.latencyMs
  costUsd := none
  inputTokens := 0
  outputTokens := 0
  numSteps := 0
  error := entry.error
  payload := .tool entry.args entry.atTime

def recordToolAudit (store : Store A J) (entry : AuditEntry A) (id now : String) (commit : Commit) :
    Store A J × Option String :=
  safeRecord store (auditCall entry) id now commit

structure FailureBucket where
  kind : String
  status : String
  count : ℕ
  deriving DecidableEq

structure TraceAggregates where
  total : ℕ
  successRate : ℚ
  totalCostUsd : ℚ
  p95LatencyMs : ℕ
  byKind : Tally String ℕ
  failures : List FailureBucket

def isSuccess (t : Trace A J) : Bool := t.status ∈ successStatuses

def groupCounts {K : Type} [DecidableEq K] (key : Trace A J → K) (rows : List (Trace A J)) : Tally K ℕ :=
  (rows.map fun t => (key t, 1)).foldl Tallies.add (Table.empty _)

def roundMicro (q : ℚ) : ℚ := round (q * 10 ^ 6) / 10 ^ 6

/-- `_aggregates` off Postgres, where the groups of one count come in the order that a stable sort
leaves. Latencies are not negative. -/
def aggregates (rows : List (Trace A J)) : TraceAggregates :=
  let successful := rows.countP isSuccess
  { total := rows.length
    successRate := if rows.length = 0 then 0 else successful / rows.length
    totalCostUsd := roundMicro (rows.map fun t => t.costUsd.getD 0).sum
    p95LatencyMs := p95 (rows.map fun t => t.latencyMs.toNat)
    byKind := groupCounts (fun t => t.kind) rows
    failures := ((groupCounts (fun t => (t.kind, t.status)) (rows.filter fun t => !isSuccess t)).rows
      |>.mergeSort fun a b => b.2 ≤ a.2).map fun row => ⟨row.1.1, row.1.2, row.2⟩ }

end Workbench.Observability
