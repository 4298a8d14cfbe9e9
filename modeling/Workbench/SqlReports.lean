import Workbench.SqlAnswers

namespace Workbench.TextToSql

open AgentRuntime JsonCodec ModelRouter PyJson RunTraces SqlGuard

variable {lib : SqlLibrary} {db : Database}

def shown (rows : List (List Cell)) : List (List Json) :=
  (rows.take toolRowsShown).map fun row => row.map Cell.json

inductive Reports (lib : SqlLibrary) (db : Database) (place : ℕ × ℕ) (arguments : Dict) : SqlCall → Prop
  | answered (sql : String) (tree : Expression) (columns : List String) (rows : List (List Cell))
      (harg : field arguments "sql" = some (.str sql))
      (hguard : validateSql lib.lower lib.int (db.parse sql) db.tables = .ok tree)
      (hrun : db.run place (db.render tree) = .ok (columns, rows)) :
      Reports lib db place arguments
        ⟨db.render tree, columns, shown rows, (min 200 rows.length : ℕ), false, none⟩
  | failed (sql error : String)
      (herror : executeTool ⟨runSqlName⟩ (runSqlTool lib db place arguments) = (error, true))
      (hsql : argumentText lib arguments = .ok sql) :
      Reports lib db place arguments (failedCall sql error)

/-- What the endpoint relies on outside the program: the cells of a result are read back as they were
written, the decoder finds as much room as the encoder had, and a number is an `int`. -/
structure Readable (lib : SqlLibrary) (db : Database) : Prop where
  cells : ∀ place sql columns rows, db.run place sql = .ok (columns, rows) →
    ∀ row ∈ rows, ∀ cell ∈ row, Legible lib.floats cell.json
  room : lib.room ≤ lib.readingRoom
  toInt : ∀ n, lib.toInt (.int n) = .ok n

section Tool

variable {place : ℕ × ℕ} {arguments : Dict}

theorem dumpsText_ok {entries : Dict} {text : String} (h : dumpsText lib entries = .ok text) :
    encode lib.floats lib.room (.dict entries) = .ok text.toList := by
  obtain ⟨cs, hcs, rfl⟩ := map_eq_ok.mp h
  rw [hcs, String.toList_ofList]

theorem loadsText_dumpsText (hroom : lib.room ≤ lib.readingRoom) {entries : Dict} {text : String}
    (hentries : Legible lib.floats (.dict entries)) (h : dumpsText lib entries = .ok text) :
    loadsText lib text = .ok (.dict entries) :=
  loads_encode hentries (dumpsText_ok h) hroom

theorem legible_strings (floats : FloatTexts) (texts : List String) : Legible floats (strings texts) := by
  apply Legible.list
  intro v hv
  obtain ⟨text, -, rfl⟩ := List.mem_map.mp hv
  exact .str text

theorem legible_runSqlResult {floats : FloatTexts} (sql : String) (columns : List String)
    {rows : List Json} (hrows : ∀ row ∈ rows, Legible floats row) :
    Legible floats (.dict (runSqlResult sql columns rows)) := by
  apply Legible.dict
  · change ["sql", "columns", "rows", "row_count", "truncated"].Nodup
    decide
  · have hshown : Legible floats (.list (rows.take toolRowsShown)) :=
      .list _ fun row hrow => hrows row (List.mem_of_mem_take hrow)
    intro f hf
    simp only [runSqlResult, List.mem_cons, List.not_mem_nil, or_false] at hf
    rcases hf with rfl | rfl | rfl | rfl | rfl
    · exact .str sql
    · exact legible_strings floats columns
    · exact hshown
    · exact .int _
    · exact .bool _

theorem legible_rowJson {floats : FloatTexts} {row : List Cell}
    (h : ∀ cell ∈ row, Legible floats cell.json) : Legible floats (rowJson row) := by
  apply Legible.list
  intro v hv
  obtain ⟨cell, hcell, rfl⟩ := List.mem_map.mp hv
  exact h cell hcell

theorem mapM_asStr (texts : List String) : (texts.map Json.str).mapM Json.asStr = .ok texts := by
  rw [mapM_eq_ok, List.forall₂_map_left_iff, List.forall₂_same]
  intro text _
  rfl

theorem mapM_asList (rows : List (List Cell)) :
    (rows.map rowJson).mapM asList = .ok (rows.map fun row => row.map Cell.json) := by
  rw [mapM_eq_ok, List.forall₂_map_left_iff, List.forall₂_map_right_iff, List.forall₂_same]
  intro row _
  rfl

theorem readCall_runSqlResult (htoInt : ∀ n, lib.toInt (.int n) = .ok n) (sql : String)
    (columns : List String) (rows : List (List Cell)) :
    readCall lib (.dict (runSqlResult sql columns (rows.map rowJson))) =
      .ok ⟨sql, columns, shown rows, rows.length, false, none⟩ := by
  have hrows : ((rows.map rowJson).take toolRowsShown).mapM asList = .ok (shown rows) := by
    rw [← List.map_take]
    exact mapM_asList (rows.take toolRowsShown)
  change (((columns.map Json.str).mapM Json.asStr).bind fun columns =>
    (((rows.map rowJson).take toolRowsShown).mapM asList).bind fun rows' =>
      (lib.toInt (.int (rows.map rowJson).length)).map fun rowCount =>
        (⟨sql, columns, rows', rowCount, false, none⟩ : SqlCall)) = _
  rw [mapM_asStr, hrows, htoInt, List.length_map]
  rfl

inductive Ran (lib : SqlLibrary) (db : Database) (place : ℕ × ℕ) (arguments : Dict) : String × Bool → Prop
  | answered (sql : String) (tree : Expression) (columns : List String) (rows : List (List Cell))
      (text : String) (harg : field arguments "sql" = some (.str sql))
      (hguard : validateSql lib.lower lib.int (db.parse sql) db.tables = .ok tree)
      (hrun : db.run place (db.render tree) = .ok (columns, rows))
      (htext : dumpsText lib (runSqlResult (db.render tree) columns ((rows.take 200).map rowJson)) =
        .ok text) : Ran lib db place arguments (text, false)
  | failed (error : String) : Ran lib db place arguments (error, true)

theorem runSql_ok {sql text : String} (h : runSql lib db place sql = .ok text) :
    ∃ tree columns rows, validateSql lib.lower lib.int (db.parse sql) db.tables = .ok tree ∧
      db.run place (db.render tree) = .ok (columns, rows) ∧
      dumpsText lib (runSqlResult (db.render tree) columns ((rows.take 200).map rowJson)) = .ok text := by
  obtain ⟨found, hfound, h⟩ := bind_eq_ok.mp h
  obtain ⟨tree, htree, hrun⟩ := bind_eq_ok.mp hfound
  obtain ⟨⟨columns, rows⟩, hresult, rfl⟩ := map_eq_ok.mp hrun
  exact ⟨tree, columns, rows, mapError_eq_ok.mp htree, mapError_eq_ok.mp hresult, mapError_eq_ok.mp h⟩

theorem ran_runSqlTool (place : ℕ × ℕ) (arguments : Dict) :
    Ran lib db place arguments (executeTool ⟨runSqlName⟩ (runSqlTool lib db place arguments)) := by
  unfold runSqlTool
  split
  · rename_i sql harg
    cases h : runSql lib db place sql with
    | ok text =>
      obtain ⟨tree, columns, rows, hguard, hrun, htext⟩ := runSql_ok h
      exact .answered sql tree columns rows text harg hguard hrun htext
    | error exc => exact .failed _
  · exact .failed _

end Tool

section Calls

theorem mapM_related {A B D : Type} {f : B → Except PyError D} {g : A → B} {R : A → D → Prop}
    {xs : List A} (h : ∀ x ∈ xs, ∃ d, f (g x) = .ok d ∧ R x d) :
    ∃ ds, (xs.map g).mapM f = .ok ds ∧ List.Forall₂ R xs ds := by
  induction xs with
  | nil => exact ⟨[], rfl, .nil⟩
  | cons x xs ih =>
    obtain ⟨d, hd, hx⟩ := h x List.mem_cons_self
    obtain ⟨ds, hds, hxs⟩ := ih fun y hy => h y (List.mem_cons_of_mem x hy)
    refine ⟨d :: ds, ?_, .cons hx hxs⟩
    rw [List.map_cons, List.mapM_cons, hd, hds]
    rfl

def asked (run : AgentRun Dict) : List ((ℕ × ℕ) × ToolCall Dict) :=
  run.steps.zipIdx.flatMap fun x =>
    (x.1.output.toolCalls.zipIdx.filter fun y => y.1.name = runSqlName).map fun y => ((x.2, y.2), y.1)

def asExecuted (lib : SqlLibrary) (db : Database) (x : (ℕ × ℕ) × ToolCall Dict) : ToolExecution Dict :=
  execution (buildAgent db) x.2 (runSqlTool lib db x.1 x.2.arguments)

theorem execution_runSql {call : ToolCall Dict} (hname : call.name = runSqlName) (outcome : ToolOutcome) :
    execution (buildAgent db) call outcome = ⟨call.id, runSqlName, call.arguments,
      (executeTool ⟨runSqlName⟩ outcome).1, (executeTool ⟨runSqlName⟩ outcome).2⟩ := by
  have htool : (buildAgent db).tool runSqlName = some ⟨runSqlName⟩ := rfl
  rw [execution, hname, htool]

variable {models : ℕ → ModelReply}

theorem toolExecutions_eq {i : ℕ} {out : StepOutput Dict} (hout : (models i).out = .ok out) :
    (agentStep (buildAgent db) out (replies lib db models i).tool).toolExecutions =
      out.toolCalls.zipIdx.map fun y => execution (buildAgent db) y.1 (runSqlTool lib db (i, y.2) y.1.arguments) := by
  rw [agentStep, List.mapIdx_eq_zipIdx_map]
  apply List.map_congr_left
  rintro ⟨call, k⟩ hmem
  have hcall : out.toolCalls[k]? = some call := List.mem_zipIdx_iff_getElem?.mp hmem
  have htool : (replies lib db models i).tool k = runSqlTool lib db (i, k) call.arguments := by
    simp only [replies, hout, hcall]
  exact congrArg (execution (buildAgent db) call) htool

theorem executions_asked {run : AgentRun Dict}
    (h : Answers (buildAgent db) (replies lib db models) run.steps) :
    (run.steps.flatMap AgentStep.toolExecutions).filter (fun e => e.name = runSqlName) =
      (asked run).map (asExecuted lib db) := by
  have hzip : run.steps.flatMap AgentStep.toolExecutions =
      run.steps.zipIdx.flatMap fun x => x.1.toolExecutions := by
    have hmap := List.flatMap_map Prod.fst AgentStep.toolExecutions run.steps.zipIdx
    rwa [List.zipIdx_map_fst] at hmap
  rw [hzip, List.filter_flatMap, asked, List.map_flatMap]
  apply List.flatMap_congr
  rintro ⟨step, i⟩ hmem
  obtain ⟨out, hout, rfl⟩ := h i step (List.mem_zipIdx_iff_getElem?.mp hmem)
  rw [toolExecutions_eq hout, List.filter_map, List.map_map]
  rfl

theorem legible_result (h : Readable lib db) {place : ℕ × ℕ} {sql : String} {columns : List String}
    {rows : List (List Cell)} (hrun : db.run place sql = .ok (columns, rows)) (n : ℕ) :
    Legible lib.floats (.dict (runSqlResult sql columns ((rows.take n).map rowJson))) := by
  apply legible_runSqlResult
  intro row hrow
  obtain ⟨cells, hcells, rfl⟩ := List.mem_map.mp hrow
  exact legible_rowJson (h.cells place sql columns rows hrun cells (List.mem_of_mem_take hcells))

theorem shown_take (rows : List (List Cell)) : shown (rows.take 200) = shown rows := by
  rw [shown, shown, List.take_take]
  rfl

theorem extractCall_asExecuted (h : Readable lib db) {x : (ℕ × ℕ) × ToolCall Dict}
    (hname : x.2.name = runSqlName) (hargs : Fine (argumentText lib x.2.arguments)) :
    ∃ call, extractCall lib (asExecuted lib db x) = .ok call ∧ Reports lib db x.1 x.2.arguments call := by
  have hran : Ran lib db x.1 x.2.arguments _ := ran_runSqlTool x.1 x.2.arguments
  rw [asExecuted, execution_runSql hname]
  generalize hdone : executeTool ⟨runSqlName⟩ (runSqlTool lib db x.1 x.2.arguments) = done at hran
  cases hran with
  | answered sql tree columns rows text harg hguard hrun htext =>
    refine ⟨_, ?_, .answered sql tree columns rows harg hguard hrun⟩
    have hloads := loadsText_dumpsText h.room (legible_result h hrun 200) htext
    have hread := readCall_runSqlResult h.toInt (db.render tree) columns (rows.take 200)
    rw [shown_take, List.length_take] at hread
    simp only [extractCall, hloads, hread]
    rfl
  | failed error =>
    obtain ⟨sql, hsql⟩ := hargs
    refine ⟨failedCall sql error, ?_, .failed sql error hdone hsql⟩
    simp only [extractCall, if_true, hsql]
    rfl

theorem extractSqlCalls_asked (h : Readable lib db) {run : AgentRun Dict}
    (hanswers : Answers (buildAgent db) (replies lib db models) run.steps)
    (hargs : ∀ x ∈ asked run, Fine (argumentText lib x.2.arguments)) :
    ∃ calls, extractSqlCalls lib run = .ok calls ∧
      List.Forall₂ (fun x call => Reports lib db x.1 x.2.arguments call) (asked run) calls := by
  have hname : ∀ x ∈ asked run, x.2.name = runSqlName := by
    intro x hx
    obtain ⟨y, -, hy⟩ := List.mem_flatMap.mp hx
    obtain ⟨z, hz, rfl⟩ := List.mem_map.mp hy
    exact of_decide_eq_true (List.mem_filter.mp hz).2
  unfold extractSqlCalls
  rw [executions_asked hanswers]
  exact mapM_related fun x hx => extractCall_asExecuted h (hname x hx) (hargs x hx)

end Calls

section Errors

theorem loadsText_error (start : List Char) (hstart : start ∈ [['T'], ['U'], ['I', 'n', 'v']])
    {text : String} (htext : start <+: text.toList) : loadsText lib text = .error .decode := by
  obtain ⟨rest, hrest⟩ := htext
  rw [loadsText, ← hrest]
  have hletter {c : Char} {cs : List Char} (hc : c ∈ ['T', 'U', 'I'])
      (hatom : scanAtom lib.floats (c :: cs) = .error .decode) :
      loads lib.floats lib.readingRoom (c :: cs) = .error .decode := by
    simp only [List.mem_cons, List.not_mem_nil, or_false] at hc
    have hskip : skip (c :: cs) = c :: cs := by
      apply skip_cons
      rcases hc with rfl | rfl | rfl <;> rfl
    have hscan : scanOnce lib.floats lib.readingRoom (c :: cs) = .error .decode := by
      rw [scanOnce_atom _ _, hatom]
      · rcases hc with rfl | rfl | rfl <;> decide
      · rcases hc with rfl | rfl | rfl <;> decide
    rw [loads, hskip, hscan]
    rfl
  simp only [List.mem_cons, List.not_mem_nil, or_false] at hstart
  rcases hstart with rfl | rfl | rfl
  · exact hletter (by decide) rfl
  · exact hletter (by decide) rfl
  · exact hletter (by decide) rfl

end Errors

section Traces

variable {models : ℕ → ModelReply}

def countsOnly (sql : String) (columns : List String) (n : ℕ) : Dict :=
  [("sql", .str sql), ("columns", strings columns),
    ("rows", .str ("[redacted: " ++ toString (min 50 (min 200 n)) ++ " rows]")),
    ("row_count", .int (min 200 n : ℕ)), ("truncated", .bool (50 < min 200 n))]

/-- What the trace keeps of an execution: of a result only the query, the columns and how many rows
there were. -/
inductive Traced (lib : SqlLibrary) (db : Database) (place : ℕ × ℕ) (e : ToolExecution Dict) :
    ToolExecution Dict → Prop
  | failed (herror : e.isError = true) : Traced lib db place e e
  | answered (sql : String) (tree : Expression) (columns : List String) (rows : List (List Cell))
      (text : String) (harg : field e.arguments "sql" = some (.str sql))
      (hguard : validateSql lib.lower lib.int (db.parse sql) db.tables = .ok tree)
      (hrun : db.run place (db.render tree) = .ok (columns, rows))
      (hdumps : dumpsText lib (countsOnly (db.render tree) columns rows.length) = .ok text)
      (hloads : loadsText lib text = .ok (.dict (countsOnly (db.render tree) columns rows.length))) :
      Traced lib db place e { e with result := text }

def StepTraced (lib : SqlLibrary) (db : Database) (x : AgentStep Dict × ℕ) (step : AgentStep Dict) : Prop :=
  step.output = x.1.output ∧
    List.Forall₂ (fun y e => Traced lib db (x.2, y.2) y.1 e) x.1.toolExecutions.zipIdx step.toolExecutions

theorem countsOnly_eq (sql : String) (columns : List String) (rows : List (List Cell)) :
    setField (runSqlResult sql columns ((rows.take 200).map rowJson)) "rows"
        (rowsRedacted (.list (((rows.take 200).map rowJson).take toolRowsShown))) =
      countsOnly sql columns rows.length := by
  simp [setField, runSqlResult, field, rowsRedacted, countsOnly, toolRowsShown]

theorem legible_countsOnly (floats : FloatTexts) (sql : String) (columns : List String) (n : ℕ) :
    Legible floats (.dict (countsOnly sql columns n)) := by
  apply Legible.dict
  · change ["sql", "columns", "rows", "row_count", "truncated"].Nodup
    decide
  · intro f hf
    simp only [countsOnly, List.mem_cons, List.not_mem_nil, or_false] at hf
    rcases hf with rfl | rfl | rfl | rfl | rfl
    · exact .str sql
    · exact legible_strings floats columns
    · exact .str _
    · exact .int _
    · exact .bool _

theorem fine_encode_dict {floats : FloatTexts} {room : ℕ} {fields : Dict} :
    Fine (encode floats (room + 1) (.dict fields)) ↔ ∀ f ∈ fields, Fine (encode floats room f.2) := by
  have hencode : encode floats (room + 1) (.dict fields) = (encodeFields floats room fields).map fun texts =>
      '\x7b' :: (joined texts ++ ['\x7d']) := by
    rw [encode]
  rw [hencode, fine_map, encodeFields_eq, fine_mapM]
  apply forall₂_congr
  intro f _
  exact fine_map

theorem fine_countsOnly {sql : String} {columns : List String} {rows : List (List Cell)}
    (h : Fine (dumpsText lib (runSqlResult sql columns ((rows.take 200).map rowJson)))) :
    Fine (dumpsText lib (countsOnly sql columns rows.length)) := by
  unfold dumpsText at h ⊢
  rw [fine_map] at h ⊢
  cases hroom : lib.room with
  | zero =>
    rw [hroom] at h
    obtain ⟨cs, hcs⟩ := h
    cases hcs
  | succ room =>
    rw [hroom, fine_encode_dict] at h
    rw [fine_encode_dict]
    intro f hf
    simp only [countsOnly, List.mem_cons, List.not_mem_nil, or_false] at hf
    rcases hf with rfl | rfl | rfl | rfl | rfl
    · exact ⟨_, rfl⟩
    · exact h ("columns", strings columns) (by simp [runSqlResult])
    · exact ⟨_, rfl⟩
    · apply h
      simp [runSqlResult]
    · cases decide (50 < min 200 rows.length) with
      | false => exact ⟨_, rfl⟩
      | true => exact ⟨_, rfl⟩

theorem executeTool_error {tool : Tool} {outcome : ToolOutcome}
    (h : (executeTool tool outcome).2 = true) :
    loadsText lib (executeTool tool outcome).1 = .error .decode := by
  cases outcome with
  | invalid error =>
    have hword : "Invalid arguments for ".toList = ['I', 'n', 'v'] ++ "alid arguments for ".toList := by
      decide
    apply loadsText_error ['I', 'n', 'v'] (by decide)
    change _ <+: ("Invalid arguments for " ++ tool.name ++ ": " ++ error).toList
    simp only [String.append_assoc, String.toList_append, hword, List.append_assoc]
    exact List.prefix_append _ _
  | returned result => cases h
  | raised exc =>
    have hword : "Tool ".toList = ['T'] ++ "ool ".toList := by decide
    apply loadsText_error ['T'] (by decide)
    change _ <+: ("Tool " ++ tool.name ++ " failed: " ++ exc.typeName ++ ": " ++ exc.message).toList
    simp only [String.append_assoc, String.toList_append, hword, List.append_assoc]
    exact List.prefix_append _ _

theorem execution_error {call : ToolCall Dict} {outcome : ToolOutcome}
    (h : (execution (buildAgent db) call outcome).isError = true) :
    loadsText lib (execution (buildAgent db) call outcome).result = .error .decode := by
  unfold execution at h ⊢
  cases htool : (buildAgent db).tool call.name with
  | none =>
    have hword : "Unknown tool: ".toList = ['U'] ++ "nknown tool: ".toList := by decide
    apply loadsText_error ['U'] (by decide)
    rw [String.toList_append, hword, List.append_assoc]
    exact List.prefix_append _ _
  | some tool =>
    rw [htool] at h
    exact executeTool_error h

theorem redactExecution_undecoded {e : ToolExecution Dict} (h : loadsText lib e.result = .error .decode) :
    redactExecution (traceLibrary lib) e = .ok e := by
  have hloads : (traceLibrary lib).loads e.result = .error .decode := h
  simp only [redactExecution, redactText, extractJson, hloads]
  rfl

theorem traced_execution (h : Readable lib db) (place : ℕ × ℕ) (call : ToolCall Dict) :
    ∃ e, redactExecution (traceLibrary lib)
        (execution (buildAgent db) call (runSqlTool lib db place call.arguments)) = .ok e ∧
      Traced lib db place (execution (buildAgent db) call (runSqlTool lib db place call.arguments)) e := by
  by_cases herror :
      (execution (buildAgent db) call (runSqlTool lib db place call.arguments)).isError = true
  · exact ⟨_, redactExecution_undecoded (execution_error herror), .failed herror⟩
  · have hname : call.name = runSqlName := by
      by_contra hname
      apply herror
      have hnone : (buildAgent db).tool call.name = none := by
        simp [Agent.tool, buildAgent, Ne.symm hname]
      rw [execution, hnone]
    have hran : Ran lib db place call.arguments _ := ran_runSqlTool place call.arguments
    rw [execution_runSql hname] at herror ⊢
    generalize executeTool ⟨runSqlName⟩ (runSqlTool lib db place call.arguments) = done at hran herror
    cases hran with
    | failed error => exact absurd rfl herror
    | answered sql tree columns rows text harg hguard hrun htext =>
      obtain ⟨kept, hkept⟩ := fine_countsOnly ⟨text, htext⟩
      have hread := loadsText_dumpsText h.room (legible_countsOnly lib.floats _ columns rows.length) hkept
      refine ⟨_, ?_, .answered sql tree columns rows kept harg hguard hrun hkept hread⟩
      have hloads : (traceLibrary lib).loads text = .ok (.dict (runSqlResult (db.render tree) columns
          ((rows.take 200).map rowJson))) :=
        loadsText_dumpsText h.room (legible_result h hrun 200) htext
      have hscrubbed : scrubbedResult (traceLibrary lib) (.dict (runSqlResult (db.render tree) columns
          ((rows.take 200).map rowJson))) = some kept := by
        change some ((traceLibrary lib).dumpsText (setField (runSqlResult (db.render tree) columns
          ((rows.take 200).map rowJson)) "rows"
            (rowsRedacted (.list (((rows.take 200).map rowJson).take toolRowsShown))))) = _
        rw [countsOnly_eq, traceLibrary]
        simp only [hkept]
        rfl
      have hredacted := redactText_dict hloads
      rw [hscrubbed] at hredacted
      simp only [redactExecution, hredacted]
      rfl

theorem traced_steps (h : Readable lib db) {run : AgentRun Dict}
    (hanswers : Answers (buildAgent db) (replies lib db models) run.steps) :
    ∃ steps, run.steps.mapM (redactStep (traceLibrary lib)) = .ok steps ∧
      List.Forall₂ (StepTraced lib db) run.steps.zipIdx steps := by
  have hsteps : ∀ x ∈ run.steps.zipIdx, ∃ step, redactStep (traceLibrary lib) x.1 = .ok step ∧
      StepTraced lib db x step := by
    rintro ⟨step, i⟩ hmem
    obtain ⟨out, hout, rfl⟩ := hanswers i step (List.mem_zipIdx_iff_getElem?.mp hmem)
    have heach : ∀ y ∈ (agentStep (buildAgent db) out (replies lib db models i).tool).toolExecutions.zipIdx,
        ∃ e, redactExecution (traceLibrary lib) y.1 = .ok e ∧ Traced lib db (i, y.2) y.1 e := by
      rintro ⟨e, k⟩ hy
      have he : (agentStep (buildAgent db) out (replies lib db models i).tool).toolExecutions[k]? = some e :=
        List.mem_zipIdx_iff_getElem?.mp hy
      rw [toolExecutions_eq hout, List.getElem?_map, List.getElem?_zipIdx] at he
      obtain ⟨_, hcall, rfl⟩ := Option.map_eq_some_iff.mp he
      obtain ⟨call, -, rfl⟩ := Option.map_eq_some_iff.mp hcall
      rw [Nat.zero_add]
      exact traced_execution h (i, k) call
    obtain ⟨executions, hexecutions, htraced⟩ := mapM_related heach
    rw [List.zipIdx_map_fst] at hexecutions
    refine ⟨{ agentStep (buildAgent db) out (replies lib db models i).tool with
      toolExecutions := executions }, ?_, rfl, htraced⟩
    rw [redactStep, hexecutions]
    rfl
  obtain ⟨steps, hmapM, htraced⟩ := mapM_related hsteps
  rw [List.zipIdx_map_fst] at hmapM
  exact ⟨steps, hmapM, htraced⟩

theorem trace_tells_counts (h : Readable lib db) {question : String} {run : AgentRun Dict}
    (hrun : (runAgent lib.client.dumps (buildAgent db) question none none none
      (replies lib db models)).2 = .ok run) :
    ∃ kept, scrubPayload (traceLibrary lib) (modelDump run) = .ok (modelDump kept) ∧
      kept = { run with steps := kept.steps } ∧
      List.Forall₂ (StepTraced lib db) run.steps.zipIdx kept.steps := by
  obtain ⟨steps, hsteps, htraced⟩ := traced_steps h (runAgent_answers hrun)
  refine ⟨{ run with steps }, ?_, rfl, htraced⟩
  rw [scrubPayload_dump, redactRun, hsteps]
  rfl

theorem sql_calls_reported (h : Readable lib db) {question : String} {run : AgentRun Dict}
    (hrun : (runAgent lib.client.dumps (buildAgent db) question none none none
      (replies lib db models)).2 = .ok run)
    (hargs : ∀ x ∈ asked run, Fine (argumentText lib x.2.arguments)) :
    ∃ calls, ask lib db models question = .ok ⟨run.finalText, calls, run⟩ ∧
      List.Forall₂ (fun x call => Reports lib db x.1 x.2.arguments call) (asked run) calls := by
  have hanswers := runAgent_answers hrun
  obtain ⟨calls, hcalls, hreports⟩ := extractSqlCalls_asked h hanswers hargs
  obtain ⟨steps, hsteps, -⟩ := traced_steps h hanswers
  refine ⟨calls, ?_, hreports⟩
  rw [ask, hrun]
  simp only [scrubPayload_dump, redactRun, hsteps]
  rw [hcalls]
  rfl

theorem answered_completes (lib : SqlLibrary) (db : Database) (models : ℕ → ModelReply) (question : String)
    (hsummary : ∀ i, ∃ out, (models i).summary = .ok out) (hout : ∀ i, ∃ out, (models i).out = .ok out) :
    ∃ run, (runAgent lib.client.dumps (buildAgent db) question none none none
      (replies lib db models)).2 = .ok run := by
  have houtcome : Outcome lib.client.dumps (buildAgent db) (replies lib db models)
      (runAgent lib.client.dumps (buildAgent db) question none none none (replies lib db models)).1
      (runAgent lib.client.dumps (buildAgent db) question none none none (replies lib db models)).2 :=
    rounds_outcome _ (going_new question) rfl (Nat.zero_add _)
  cases hrun : (runAgent lib.client.dumps (buildAgent db) question none none none
      (replies lib db models)).2 with
  | ok run => exact ⟨run, rfl⟩
  | error exc =>
    rw [hrun] at houtcome
    obtain ⟨i, -, hraised | hraised⟩ := houtcome
    · obtain ⟨out, hok⟩ := hsummary i
      cases hok.symm.trans hraised
    · obtain ⟨out, hok⟩ := hout i
      cases hok.symm.trans hraised

end Traces

section Sample

def halfTexts : FloatTexts where
  repr
    | some _ => ['0', '.', '5']
    | none => ['N', 'a', 'N']
  read text := if text = ['0', '.', '5'] then some (1 / 2) else none

def plainSql : SqlLibrary where
  client := plainLibrary
  lower := String.toLower
  int := PyIntegers.int
  printable c := 0x20 ≤ c.toNat && c.toNat < 0x7f
  floats := halfTexts
  room := 10
  readingRoom := 20
  str
    | .str text => .ok text
    | _ => .ok ""
  toInt
    | .int n => .ok n
    | _ => .error .validationError
  literalText literal := "invalid literal for int() with base 10: '" ++ literal ++ "'"
  errorText _ := ""
  validationText _ := "1 validation error for RunSqlInput"

def customersQuery : Expression :=
  .node ⟨"", .select⟩ [.node ⟨"from", .other "From"⟩ [.node ⟨"this", .table (some "customers") "" ""⟩ []]]

def customers : Database where
  tables := ["customers"]
  schema := "TABLE customers (id INTEGER)"
  parse _ := .ok [some customersQuery]
  render _ := "SELECT id, share, since FROM customers LIMIT 200"
  run _ _ := .ok (["id", "share", "since"],
    [[.plain (.int 1), .plain (.float (some (1 / 2))), .other "2026-01-01"]])

def counting (i : ℕ) : ModelReply where
  summary := .ok ⟨"", [], "openai", "gpt-4o-mini", .zero, none, 1, []⟩
  out := .ok ⟨"There is one.", if i = 0 then
    [⟨"c1", "run_sql", [("sql", .str "SELECT id, share, since FROM customers")]⟩, ⟨"c2", "run_sql", []⟩,
      ⟨"c3", "drop_table", []⟩] else [], "openai", "gpt-4o-mini", .zero, none, 1, []⟩

theorem customers_readable : Readable plainSql customers where
  cells := by
    rintro place sql columns rows ⟨⟩ row hrow cell hcell
    obtain rfl := List.mem_singleton.mp hrow
    simp only [List.mem_cons, List.not_mem_nil, or_false] at hcell
    rcases hcell with rfl | rfl | rfl
    · exact .int 1
    · exact .float _ ⟨by decide, by decide, rfl⟩
    · exact .str _
  room := by decide
  toInt _ := rfl

theorem customers_reported : ∃ run calls,
    (runAgent plainSql.client.dumps (buildAgent customers) "How many?" none none none
      (replies plainSql customers counting)).2 = .ok run ∧
    ask plainSql customers counting "How many?" = .ok ⟨run.finalText, calls, run⟩ ∧
    List.Forall₂ (fun x call => Reports plainSql customers x.1 x.2.arguments call) (asked run) calls := by
  obtain ⟨run, hrun⟩ := answered_completes plainSql customers counting "How many?"
    (fun i => ⟨_, rfl⟩) fun i => ⟨_, rfl⟩
  have hargs : ∀ x ∈ asked run, Fine (argumentText plainSql x.2.arguments) := by
    rintro ⟨place, call⟩ -
    unfold argumentText plainSql
    simp only
    split
    · exact fine_ok _
    · exact fine_ok _
  obtain ⟨calls, hask, hreports⟩ := sql_calls_reported customers_readable hrun hargs
  exact ⟨run, calls, hrun, hask, hreports⟩

theorem customers_traced : ∃ run kept,
    (runAgent plainSql.client.dumps (buildAgent customers) "How many?" none none none
      (replies plainSql customers counting)).2 = .ok run ∧
    scrubPayload (traceLibrary plainSql) (modelDump run) = .ok (modelDump kept) ∧
    kept = { run with steps := kept.steps } ∧
    List.Forall₂ (StepTraced plainSql customers) run.steps.zipIdx kept.steps := by
  obtain ⟨run, hrun⟩ := answered_completes plainSql customers counting "How many?"
    (fun i => ⟨_, rfl⟩) fun i => ⟨_, rfl⟩
  obtain ⟨kept, hkept, hsame, htraced⟩ := trace_tells_counts customers_readable hrun
  exact ⟨run, kept, hrun, hkept, hsame, htraced⟩

end Sample

end Workbench.TextToSql
