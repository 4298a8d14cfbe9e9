import Workbench.AgentConclusions
import Workbench.JsonRoundTrips
import Workbench.RunTraces
import Workbench.SqlGuard

/-!
`workbench_app_text2sql`: the agent with its `run_sql` tool over a database, and the endpoint that
reads the tool's results back. The tool ends with the `k`-th call of the `i`-th step at `(i, k)`.
-/

namespace Workbench.TextToSql

open AgentRuntime JsonCodec ModelRouter PyJson RunTraces SqlGuard

/-- A column's value is JSON, or it is written as its `str`. -/
inductive Cell
  | plain (value : Json)
  | other (text : String)

def Cell.json : Cell → Json
  | .plain value => value
  | .other text => .str text

inductive DbError
  | sqlalchemy (orig : String)
  | other (exc : Exc)

/-- `render` is `tree.sql` in the engine's dialect, `parse` is `sqlglot.parse`. -/
structure Database where
  tables : List String
  schema : String
  parse : String → Except String (List (Option Expression))
  render : Expression → String
  run : ℕ × ℕ → String → Except DbError (List String × List (List Cell))

/-- `room` is what the encoder finds of the interpreter's stack, and `readingRoom` what the decoder
finds. The texts are those of exceptions, `toInt` is what an `int` field accepts, and `printable` is
`str.isprintable`. -/
structure SqlLibrary where
  client : ClientLibrary
  lower : String → String
  int : String → Option ℤ
  printable : Char → Bool
  floats : FloatTexts
  room : ℕ
  readingRoom : ℕ
  str : Json → Except PyError String
  toInt : Json → Except PyError ℤ
  literalText : String → String
  errorText : PyError → String
  validationText : Dict → String

section Tool

variable (lib : SqlLibrary) (db : Database)

def guardExc : Failure → Exc
  | .guard e => ⟨"SqlGuardError", e.message lib.printable⟩
  | .valueError literal => ⟨"ValueError", lib.literalText literal⟩

def dbExc : DbError → Exc
  | .sqlalchemy orig => ⟨"SqlGuardError", "execution failed: " ++ orig⟩
  | .other exc => exc

def executeSql (place : ℕ × ℕ) (sql : String) :
    Except Exc (String × List String × List (List Cell)) :=
  ((validateSql lib.lower lib.int (db.parse sql) db.tables).mapError (guardExc lib)).bind fun tree =>
    ((db.run place (db.render tree)).mapError dbExc).map fun result =>
      (db.render tree, result.1, result.2.take maxRows.toNat)

def rowJson (row : List Cell) : Json := .list (row.map Cell.json)

def dumpsText (entries : Dict) : Except PyError String :=
  (encode lib.floats lib.room (.dict entries)).map String.ofList

def runSql (place : ℕ × ℕ) (sql : String) : Except Exc String :=
  (executeSql lib db place sql).bind fun found =>
    (dumpsText lib (runSqlResult found.1 found.2.1 (found.2.2.map rowJson))).mapError fun e =>
      ⟨e.typeName, lib.errorText e⟩

def runSqlTool (place : ℕ × ℕ) (arguments : Dict) : ToolOutcome :=
  match field arguments "sql" with
  | some (.str sql) =>
    match runSql lib db place sql with
    | .ok text => .returned text
    | .error exc => .raised exc
  | _ => .invalid (lib.validationText arguments)

def instructions (schema : String) : String :=
  "You are a BI analyst agent answering business questions over a SQL database.\n\n" ++
    "Rules:\n" ++
    "- Use the run_sql tool for every fact; never invent numbers.\n" ++
    "- Read-only: a single SELECT per call (CTEs allowed). Writes are rejected.\n" ++
    "- Results are capped at 200 rows — aggregate in SQL instead of paging raw rows.\n" ++
    "- Finish with a concise business answer; show the key numbers and mention the SQL used.\n\n" ++
    "Database schema:\n" ++ schema

def runSqlName : String := "run_sql"

def buildAgent : Agent := ⟨"text2sql", instructions db.schema, [⟨runSqlName⟩], .standard, 6, 2048,
  defaultPolicy⟩

structure ModelReply where
  summary : Except Exc (StepOutput Dict)
  out : Except Exc (StepOutput Dict)

def replies (models : ℕ → ModelReply) (i : ℕ) : StepReply Dict where
  summary := (models i).summary
  out := (models i).out
  tool k :=
    match (models i).out with
    | .error _ => .returned ""
    | .ok out =>
      match out.toolCalls[k]? with
      | some call => runSqlTool lib db (i, k) call.arguments
      | none => .returned ""

end Tool

structure SqlCall where
  sql : String
  columns : List String
  rows : List (List Json)
  rowCount : ℤ
  isError : Bool
  error : Option String

structure AskResponse where
  answer : String
  sqlCalls : List SqlCall
  run : AgentRun Dict

inductive AskError
  | http (status : ℕ) (detail : String)
  | raised (exc : Exc)

section Endpoint

variable (lib : SqlLibrary) (db : Database)

def asList : Json → Except PyError (List Json)
  | .list items => .ok items
  | _ => .error .validationError

def failedCall (sql error : String) : SqlCall := ⟨sql, [], [], 0, true, some error⟩

def readCall (data : Json) : Except PyError SqlCall :=
  (data.item "sql").bind fun sql => (data.item "columns").bind fun columns =>
    (data.item "rows").bind fun rows => (data.item "row_count").bind fun rowCount =>
      sql.asStr.bind fun sql =>
        ((asList columns).bind fun items => items.mapM Json.asStr).bind fun columns =>
          ((asList rows).bind fun items => items.mapM asList).bind fun rows =>
            (lib.toInt rowCount).map fun rowCount => ⟨sql, columns, rows, rowCount, false, none⟩

def loadsText (text : String) : Except LoadsError Json := loads lib.floats lib.readingRoom text.toList

def argumentText (arguments : Dict) : Except PyError String :=
  lib.str ((field arguments "sql").getD (.str ""))

def unparseable (e : ToolExecution Dict) : Except PyError SqlCall :=
  (argumentText lib e.arguments).map fun sql => failedCall sql "unparseable tool result"

def extractCall (e : ToolExecution Dict) : Except PyError SqlCall :=
  if e.isError then (argumentText lib e.arguments).map fun sql => failedCall sql e.result
  else
    match loadsText lib e.result with
    | .error .decode => unparseable lib e
    | .error exc => .error exc.error
    | .ok data =>
      match readCall lib data with
      | .error (.keyError _) => unparseable lib e
      | call => call

def extractSqlCalls (run : AgentRun Dict) : Except PyError (List SqlCall) :=
  ((run.steps.flatMap AgentStep.toolExecutions).filter fun e => e.name = runSqlName).mapM
    (extractCall lib)

def traceLibrary : TraceLibrary where
  toClientLibrary := { lib.client with loads := loadsText lib }
  dumpsText entries := ((dumpsText lib entries).toOption).getD ""

def ask (models : ℕ → ModelReply) (question : String) : Except AskError AskResponse :=
  match (runAgent lib.client.dumps (buildAgent db) question none none none (replies lib db models)).2 with
  | .error exc =>
    .error (if exc.typeName = "NoProviderAvailableError" then .http 503 exc.message else .raised exc)
  | .ok run =>
    -- the trace is recorded before the answer is made up
    (((scrubPayload (traceLibrary lib) (modelDump run)).bind fun _ => extractSqlCalls lib run).mapError
      fun e => .raised ⟨e.typeName, lib.errorText e⟩).map fun calls => ⟨run.finalText, calls, run⟩

end Endpoint

end Workbench.TextToSql
