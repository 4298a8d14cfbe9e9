import Workbench.LabelledTrees
import Workbench.PyText
import Mathlib.Data.List.Sort

/-!
`validate_sql` of `workbench_capabilities.sql_guard`, over the expressions that sqlglot parses a
query to. `lower` is `str.lower`, and `int` is `int` of a string, `none` where it raises.
-/

namespace Workbench.SqlGuard

open LabelledTrees

inductive Forbidden
  | insert
  | update
  | delete
  | drop
  | create
  | alter
  | merge
  | truncateTable
  | grant
  | command
  | set
  | transaction
  deriving DecidableEq

/-- The class of an expression, with what the guard reads of it. The `this` of a table is `none`
when it is no identifier, as with a table function. -/
inductive Cls
  | select
  | union
  | forbidden (op : Forbidden)
  | anonymous (name : String)
  | withClause (recursive : Bool)
  | cte (aliasOrName : String)
  | table (this : Option String) (db catalog : String)
  | literal (this : String) (isString : Bool)
  | limit
  | other (name : String)
  deriving DecidableEq

/-- An expression is in its parent under an argument's key. -/
structure Label where
  argKey : String
  cls : Cls
  deriving DecidableEq

abbrev Expression := OrderedTree Label

def Expression.cls (e : Expression) : Cls := e.label.cls

def Expression.arg (e : Expression) (key : String) : Option Expression :=
  e.children.find? fun c => c.label.argKey = key

def maxRows : ℤ := 200

def maxOffset : ℤ := 100000

def forbiddenFunctions : List String :=
  ["load_extension", "writefile", "readfile", "pg_read_file", "pg_read_binary_file", "pg_ls_dir",
    "lo_import", "lo_export", "dblink"]

def Forbidden.name : Forbidden → String
  | .insert => "INSERT"
  | .update => "UPDATE"
  | .delete => "DELETE"
  | .drop => "DROP"
  | .create => "CREATE"
  | .alter => "ALTER"
  | .merge => "MERGE"
  | .truncateTable => "TRUNCATETABLE"
  | .grant => "GRANT"
  | .command => "COMMAND"
  | .set => "SET"
  | .transaction => "TRANSACTION"

inductive SqlGuardError
  | unparsed (exc : String)
  | statements
  | notSelect
  | operation (op : Forbidden)
  | function (name : String)
  | table (name : String) (allowed : List String)
  | offset
  deriving DecidableEq

def SqlGuardError.message (printable : Char → Bool) : SqlGuardError → String
  | .unparsed exc => "SQL does not parse: " ++ exc
  | .statements => "exactly one SQL statement is allowed"
  | .notSelect => "only read-only SELECT queries are allowed"
  | .operation op => "forbidden operation: " ++ op.name
  | .function name => "forbidden function: " ++ name
  | .table name allowed => "table '" ++ name ++ "' is not in the allowlist: [" ++
      ", ".intercalate (allowed.map (PyText.repr printable)) ++ "]"
  | .offset => "OFFSET too large (max 100000)"

/-- What `validate_sql` raises: an `int` of a literal can fail with a `ValueError`. -/
inductive Failure
  | guard (e : SqlGuardError)
  | valueError (literal : String)
  deriving DecidableEq

def statement : Except String (List (Option Expression)) → Except Failure Expression
  | .error exc => .error (.guard (.unparsed exc))
  | .ok statements =>
    match statements.reduceOption with
    | [tree] => .ok tree
    | _ => .error (.guard .statements)

def IsQuery (tree : Expression) : Prop := tree.cls = .select ∨ tree.cls = .union

instance (tree : Expression) : Decidable (IsQuery tree) := inferInstanceAs (Decidable (_ ∨ _))

def requireQuery (tree : Expression) : Except Failure Unit :=
  if IsQuery tree then .ok () else .error (.guard .notSelect)

def refusedOperation (node : Expression) : Option SqlGuardError :=
  match node.cls with
  | .forbidden op => some (.operation op)
  | _ => none

variable (lower : String → String) (int : String → Option ℤ)

def refusedFunction (node : Expression) : Option SqlGuardError :=
  match node.cls with
  | .anonymous name =>
    if name ≠ "" ∧ lower name ∈ forbiddenFunctions then some (.function name) else none
  | _ => none

/-- `{cte.alias_or_name.lower() for cte in tree.find_all(exp.CTE)}`. -/
def cteNames (tree : Expression) : List String :=
  tree.walk.filterMap fun node : Expression =>
    match node.cls with
    | .cte name => some (lower name)
    | _ => none

def tableName (this : Option String) : String := this.getD ""

def refusedTable (allowed ctes : List String) (node : Expression) : Option SqlGuardError :=
  match node.cls with
  | .table this _ _ =>
    let name := lower (tableName this)
    if name ≠ "" ∧ name ∉ allowed ∧ name ∉ ctes then
      some (.table (tableName this) (allowed.dedup.insertionSort (· ≤ ·)))
    else none
  | _ => none

def refuse (check : Expression → Option SqlGuardError) (tree : Expression) : Except Failure Unit :=
  match tree.walk.findSome? check with
  | some e => .error (.guard e)
  | none => .ok ()

def literalOf (node : Expression) : Option String :=
  (node.arg "expression").bind fun e =>
    match e.cls with
    | .literal this _ => some this
    | _ => none

def checkOffset (tree : Expression) : Except Failure Unit :=
  match tree.arg "offset" with
  | none => .ok ()
  | some node =>
    match literalOf node with
    | none => .error (.guard .offset)
    | some this =>
      match int this with
      | none => .error (.valueError this)
      | some n => if maxOffset < n then .error (.guard .offset) else .ok ()

def maxRowsLimit : Expression :=
  .node ⟨"limit", .limit⟩ [.node ⟨"expression", .literal "200" false⟩ []]

def setLimit : Expression → Expression
  | .node label children =>
    if children.any fun c => c.label.argKey = "limit" then
      .node label (children.map fun c => if c.label.argKey = "limit" then maxRowsLimit else c)
    else .node label (children ++ [maxRowsLimit])

def enforceLimit (tree : Expression) : Except Failure Expression :=
  match tree.arg "limit" with
  | none => .ok (setLimit tree)
  | some node =>
    match literalOf node with
    | none => .ok (setLimit tree)
    | some this =>
      match int this with
      | none => .error (.valueError this)
      | some n => if maxRows < n then .ok (setLimit tree) else .ok tree

/-- The expression that is rendered in the end. -/
def validateSql (parsed : Except String (List (Option Expression))) (allowedTables : List String) :
    Except Failure Expression := do
  let tree ← statement parsed
  requireQuery tree
  refuse refusedOperation tree
  refuse (refusedFunction lower) tree
  refuse (refusedTable lower (allowedTables.map lower) (cteNames lower tree)) tree
  checkOffset int tree
  enforceLimit int tree

end Workbench.SqlGuard
