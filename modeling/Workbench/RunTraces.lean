import Workbench.ProviderFaults
import Mathlib.Data.List.Forall2

namespace Workbench.RunTraces

open AgentRuntime ModelRouter PyJson

structure TraceLibrary extends ClientLibrary where
  dumpsText : Dict → String

section Dump

def float (cost : Option ℚ) : Json := cost.elim .null fun q => .float (some q)

def strings (texts : List String) : Json := .list (texts.map .str)

def dumpUsage (u : Usage) : Json :=
  .dict [("input_tokens", .int u.inputTokens), ("output_tokens", .int u.outputTokens)]

def dumpToolCall (c : ToolCall Dict) : Json :=
  .dict [("id", .str c.id), ("name", .str c.name), ("arguments", .dict c.arguments)]

def dumpOutput (out : StepOutput Dict) : Json :=
  .dict [("text", .str out.text), ("tool_calls", .list (out.toolCalls.map dumpToolCall)),
    ("provider", .str out.provider), ("model", .str out.model), ("usage", dumpUsage out.usage),
    ("cost_usd", float out.costUsd), ("latency_ms", .int out.latencyMs),
    ("attempts", strings out.attempts)]

def dumpExecution (e : ToolExecution Dict) : Json :=
  .dict [("tool_call_id", .str e.toolCallId), ("name", .str e.name),
    ("arguments", .dict e.arguments), ("result", .str e.result), ("is_error", .bool e.isError)]

def dumpStep (step : AgentStep Dict) : Json :=
  .dict [("output", dumpOutput step.output),
    ("tool_executions", .list (step.toolExecutions.map dumpExecution))]

def dumpPart (part : ContextPart) : Json :=
  .dict [("name", .str part.name), ("content", .str part.content)]

def dumpCompaction (event : CompactionEvent) : Json :=
  .dict [("step", .int event.step), ("tokens_before", .int event.tokensBefore),
    ("tokens_after", .int event.tokensAfter), ("summarized_items", .int event.summarizedItems),
    ("usage", dumpUsage event.usage), ("cost_usd", float event.costUsd)]

def statusText : AgentStatus → String
  | .completed => "completed"
  | .maxStepsReached => "max_steps_reached"

def modelDump (run : AgentRun Dict) : Json :=
  .dict [("agent", .str run.agent), ("status", .str (statusText run.status)),
    ("final_text", .str run.finalText), ("steps", .list (run.steps.map dumpStep)),
    ("usage", dumpUsage run.usage), ("cost_usd", float run.costUsd),
    ("context", .dict [("parts", .list (run.parts.map dumpPart)),
      ("compactions", .list (run.compactions.map dumpCompaction))])]

end Dump

def setField (fields : Dict) (key : String) (value : Json) : Dict :=
  if (field fields key).isSome then fields.map fun f => if f.1 = key then (key, value) else f
  else fields ++ [(key, value)]

section Scrub

variable (lib : TraceLibrary)

def rowsRedacted (rows : Json) : Json :=
  let n := match rows with
    | .list items => items.length
    | _ => 0
  .str ("[redacted: " ++ toString n ++ " rows]")

def scrubbedResult (parsed : Json) : Option String :=
  match parsed with
  | .dict entries => (field entries "rows").map fun rows =>
      lib.dumpsText (setField entries "rows" (rowsRedacted rows))
  | _ => none

def scrubExecution : Json → Except PyError Json
  | .dict fields =>
    (extractJson lib.toClientLibrary ((field fields "result").getD .null)).map fun parsed =>
      match scrubbedResult lib parsed with
      | some text => .dict (setField fields "result" (.str text))
      | none => .dict fields
  | _ => .error .attributeError

/-- `for x in v.get(key, [])`, each `x` changed in place. -/
def inEach (key : String) (change : Json → Except PyError Json) : Json → Except PyError Json
  | .dict fields =>
    match field fields key with
    | none => .ok (.dict fields)
    | some (.list items) =>
      (items.mapM change).map fun items => .dict (setField fields key (.list items))
    | some other => other.iter.bind fun items =>
      -- what a string or the keys of a dict give are strings, and no string has a `get`
      if items.isEmpty then .ok (.dict fields) else .error .attributeError
  | _ => .error .attributeError

def scrubPayload : Json → Except PyError Json :=
  inEach "steps" (inEach "tool_executions" (scrubExecution lib))

end Scrub

def toolRowsShown : ℕ := 50

/-- What `run_sql` encodes; `default=str` has made JSON of the cells. -/
def runSqlResult (sql : String) (columns : List String) (rows : List Json) : Dict :=
  [("sql", .str sql), ("columns", strings columns), ("rows", .list (rows.take toolRowsShown)),
    ("row_count", .int rows.length), ("truncated", .bool (toolRowsShown < rows.length))]

section Redact

variable (lib : TraceLibrary)

def redactText (text : String) : Except PyError String :=
  (extractJson lib.toClientLibrary (.str text)).map fun parsed => (scrubbedResult lib parsed).getD text

def redactExecution (e : ToolExecution Dict) : Except PyError (ToolExecution Dict) :=
  (redactText lib e.result).map fun result => { e with result }

def redactStep (step : AgentStep Dict) : Except PyError (AgentStep Dict) :=
  (step.toolExecutions.mapM (redactExecution lib)).map fun toolExecutions =>
    { step with toolExecutions }

def redactRun (run : AgentRun Dict) : Except PyError (AgentRun Dict) :=
  (run.steps.mapM (redactStep lib)).map fun steps => { run with steps }

variable {lib}

theorem map_mapM {α β γ δ : Type} {f : α → Except PyError β} {g : γ → Except PyError δ}
    {dumpIn : α → γ} {dumpOut : β → δ} (h : ∀ a, g (dumpIn a) = (f a).map dumpOut) (as : List α) :
    (as.map dumpIn).mapM g = (as.mapM f).map (List.map dumpOut) := by
  induction as with
  | nil => rfl
  | cons a as ih =>
    rw [List.map_cons, List.mapM_cons, List.mapM_cons, ih, h]
    cases f a with
    | error e => rfl
    | ok b =>
      cases as.mapM f with
      | error e => rfl
      | ok bs => rfl

theorem scrubExecution_dump (e : ToolExecution Dict) :
    scrubExecution lib (dumpExecution e) = (redactExecution lib e).map dumpExecution := by
  unfold redactExecution redactText
  change (extractJson lib.toClientLibrary (.str e.result)).map _ = _
  cases extractJson lib.toClientLibrary (.str e.result) with
  | error err => rfl
  | ok parsed =>
    cases h : scrubbedResult lib parsed with
    | none => simp only [Except.map, h]; rfl
    | some text => simp only [Except.map, h]; rfl

theorem scrubStep_dump (step : AgentStep Dict) :
    inEach "tool_executions" (scrubExecution lib) (dumpStep step) =
      (redactStep lib step).map dumpStep := by
  have hitems := map_mapM (f := redactExecution lib) scrubExecution_dump step.toolExecutions
  change ((step.toolExecutions.map dumpExecution).mapM (scrubExecution lib)).map _ = _
  rw [hitems]
  unfold redactStep
  cases step.toolExecutions.mapM (redactExecution lib) with
  | error e => rfl
  | ok executions => rfl

theorem scrubPayload_dump (run : AgentRun Dict) :
    scrubPayload lib (modelDump run) = (redactRun lib run).map modelDump := by
  have hitems := map_mapM (f := redactStep lib) scrubStep_dump run.steps
  change ((run.steps.map dumpStep).mapM (inEach "tool_executions" (scrubExecution lib))).map _ = _
  rw [hitems]
  unfold redactRun
  cases run.steps.mapM (redactStep lib) with
  | error e => rfl
  | ok steps => rfl

end Redact

section Runs

variable (lib : TraceLibrary)

def RowsDiffer (e e' : ToolExecution Dict) : Prop :=
  e.name = "run_sql" ∧ e.isError = false ∧ ∃ sql columns rows rows', rows.length = rows'.length ∧
    e.result = lib.dumpsText (runSqlResult sql columns rows) ∧
    e' = { e with result := lib.dumpsText (runSqlResult sql columns rows') } ∧
    lib.loads e.result = .ok (.dict (runSqlResult sql columns rows)) ∧
    lib.loads e'.result = .ok (.dict (runSqlResult sql columns rows'))

def StepsApart (step step' : AgentStep Dict) : Prop :=
  step'.output = step.output ∧
    List.Forall₂ (fun e e' => e = e' ∨ RowsDiffer lib e e') step.toolExecutions step'.toolExecutions

def RowsApart (run run' : AgentRun Dict) : Prop :=
  run' = { run with steps := run'.steps } ∧ List.Forall₂ (StepsApart lib) run.steps run'.steps

def RowsObject (text : String) : Prop :=
  ∃ entries rows, lib.loads text = .ok (.dict entries) ∧ field entries "rows" = some rows

def ExecutionKept (e e' : ToolExecution Dict) : Prop :=
  e' = { e with result := e'.result } ∧ (¬RowsObject lib e.result → e'.result = e.result)

def StepKept (step step' : AgentStep Dict) : Prop :=
  step'.output = step.output ∧
    List.Forall₂ (ExecutionKept lib) step.toolExecutions step'.toolExecutions

def RunKept (run run' : AgentRun Dict) : Prop :=
  run' = { run with steps := run'.steps } ∧ List.Forall₂ (StepKept lib) run.steps run'.steps

variable {lib}

theorem mapM_congr {α β : Type} {f : α → Except PyError β} {as bs : List α}
    (h : List.Forall₂ (fun a b => f a = f b) as bs) : as.mapM f = bs.mapM f := by
  induction h with
  | nil => rfl
  | cons hab _ ih => rw [List.mapM_cons, List.mapM_cons, ih, hab]

theorem extractJson_dict {text : String} {entries : Dict} :
    extractJson lib.toClientLibrary (.str text) = .ok (.dict entries) ↔
      lib.loads text = .ok (.dict entries) := by
  cases h : lib.loads text with
  | ok value => simp [extractJson, h]
  | error e => cases e <;> simp [extractJson, h]

theorem redactText_dict {text : String} {entries : Dict} (h : lib.loads text = .ok (.dict entries)) :
    redactText lib text = .ok ((scrubbedResult lib (.dict entries)).getD text) := by
  unfold redactText
  rw [extractJson_dict.mpr h]
  rfl

theorem scrubbedResult_rows (sql : String) (columns : List String) {rows rows' : List Json}
    (h : rows.length = rows'.length) :
    ∃ text, scrubbedResult lib (.dict (runSqlResult sql columns rows)) = some text ∧
      scrubbedResult lib (.dict (runSqlResult sql columns rows')) = some text := by
  have hshown : (rows.take toolRowsShown).length = (rows'.take toolRowsShown).length := by
    rw [List.length_take, List.length_take, h]
  have hsame : setField (runSqlResult sql columns rows) "rows"
      (rowsRedacted (.list (rows.take toolRowsShown))) =
        setField (runSqlResult sql columns rows') "rows"
          (rowsRedacted (.list (rows'.take toolRowsShown))) := by
    simp [setField, runSqlResult, field, rowsRedacted, h, hshown]
  refine ⟨_, rfl, ?_⟩
  change some (lib.dumpsText _) = some (lib.dumpsText _)
  rw [hsame]

theorem redactExecution_apart {e e' : ToolExecution Dict} (h : e = e' ∨ RowsDiffer lib e e') :
    redactExecution lib e = redactExecution lib e' := by
  rcases h with rfl | ⟨-, -, sql, columns, rows, rows', hlength, -, he', hloads, hloads'⟩
  · rfl
  · have hscrubbed : ∃ text, scrubbedResult lib (.dict (runSqlResult sql columns rows)) = some text ∧
        scrubbedResult lib (.dict (runSqlResult sql columns rows')) = some text :=
      scrubbedResult_rows sql columns hlength
    obtain ⟨text, htext, htext'⟩ := hscrubbed
    unfold redactExecution
    rw [redactText_dict hloads, redactText_dict hloads', htext, htext', he']
    rfl

theorem redactRun_apart {run run' : AgentRun Dict} (h : RowsApart lib run run') :
    redactRun lib run = redactRun lib run' := by
  obtain ⟨hrun, hsteps⟩ := h
  have hsame : run.steps.mapM (redactStep lib) = run'.steps.mapM (redactStep lib) := by
    apply mapM_congr
    apply hsteps.imp
    rintro ⟨out, executions⟩ ⟨out', executions'⟩ ⟨hout, hexecutions⟩
    cases hout
    have hmap : executions.mapM (redactExecution lib) = executions'.mapM (redactExecution lib) :=
      mapM_congr (hexecutions.imp fun _ _ h => redactExecution_apart h)
    unfold redactStep
    rw [hmap]
  unfold redactRun
  rw [hsame, hrun]

theorem redactExecution_kept {e e' : ToolExecution Dict} (h : redactExecution lib e = .ok e') :
    ExecutionKept lib e e' := by
  obtain ⟨result, hresult, rfl⟩ := map_eq_ok.mp h
  refine ⟨rfl, ?_⟩
  intro hrows
  obtain ⟨parsed, hparsed, rfl⟩ := map_eq_ok.mp hresult
  have hnone : scrubbedResult lib parsed = none := by
    cases hscrubbed : scrubbedResult lib parsed with
    | none => rfl
    | some text =>
      exfalso
      cases parsed with
      | dict entries =>
        obtain ⟨rows, hfield, -⟩ := Option.map_eq_some_iff.mp hscrubbed
        apply hrows
        exact ⟨entries, rows, extractJson_dict.mp hparsed, hfield⟩
      | _ => cases hscrubbed
  rw [hnone]
  rfl

theorem redactRun_kept {run run' : AgentRun Dict} (h : redactRun lib run = .ok run') :
    RunKept lib run run' := by
  obtain ⟨steps, hsteps, rfl⟩ := map_eq_ok.mp h
  refine ⟨rfl, (mapM_eq_ok.mp hsteps).imp ?_⟩
  intro step step' hstep
  obtain ⟨executions, hexecutions, rfl⟩ := map_eq_ok.mp hstep
  exact ⟨rfl, (mapM_eq_ok.mp hexecutions).imp fun _ _ h => redactExecution_kept h⟩

theorem fine_redactRun {run : AgentRun Dict} (h : ∀ step ∈ run.steps, ∀ e ∈ step.toolExecutions,
    lib.loads e.result ≠ .error .recursion) : Fine (redactRun lib run) := by
  unfold redactRun
  rw [fine_map, fine_mapM]
  intro step hstep
  unfold redactStep
  rw [fine_map, fine_mapM]
  intro e he
  unfold redactExecution redactText
  rw [fine_map, fine_map, fine_extractJson]
  rintro text htext
  cases htext
  exact h step hstep e he

theorem trace_rows_redacted (lib : TraceLibrary) (run run' : AgentRun Dict)
    (h : RowsApart lib run run') :
    scrubPayload lib (modelDump run) = scrubPayload lib (modelDump run') ∧
      (∀ payload, scrubPayload lib (modelDump run) = .ok payload →
        ∃ kept, payload = modelDump kept ∧ RunKept lib run kept ∧ RunKept lib run' kept) ∧
      ((∀ step ∈ run.steps, ∀ e ∈ step.toolExecutions, lib.loads e.result ≠ .error .recursion) →
        Fine (scrubPayload lib (modelDump run))) := by
  have hsame := redactRun_apart h
  rw [scrubPayload_dump, scrubPayload_dump, hsame]
  refine ⟨rfl, ?_, ?_⟩
  · intro payload hpayload
    obtain ⟨kept, hkept, rfl⟩ := map_eq_ok.mp hpayload
    exact ⟨kept, rfl, redactRun_kept (hsame.trans hkept), redactRun_kept hkept⟩
  · intro hloads
    rw [fine_map, ← hsame]
    exact fine_redactRun hloads

end Runs

section Sample

def sampleResult (id : ℤ) : Dict :=
  runSqlResult "SELECT id FROM customers" ["id"] [.list [.int id]]

def sampleText (rows : String) : String :=
  "\x7b\"sql\": \"SELECT id FROM customers\", \"columns\": [\"id\"], \"rows\": " ++ rows ++
    ", \"row_count\": 1, \"truncated\": false\x7d"

def sampleLibrary : TraceLibrary where
  dumps _ := "\x7b\x7d"
  loads text :=
    if text = sampleText "[[1]]" then .ok (.dict (sampleResult 1))
    else if text = sampleText "[[2]]" then .ok (.dict (sampleResult 2))
    else .error .decode
  toInt _ := none
  environ _ := none
  localReadTimeout := 120
  dumpsText entries :=
    match field entries "rows" with
    | some (.list [.list [.int id]]) => sampleText ("[[" ++ toString id ++ "]]")
    | some (.str text) => sampleText ("\"" ++ text ++ "\"")
    | _ => "\x7b\x7d"

def sampleRun (id : ℤ) : AgentRun Dict :=
  ⟨"text2sql", .completed, "There is one customer.",
    [⟨⟨"", [⟨"c1", "run_sql", []⟩], "openai", "gpt-4o-mini", ⟨10, 5⟩, none, 12, []⟩,
      [⟨"c1", "run_sql", [], sampleLibrary.dumpsText (sampleResult id), false⟩]⟩],
    ⟨10, 5⟩, none, [], []⟩

theorem sample_rows_redacted : RowsApart sampleLibrary (sampleRun 1) (sampleRun 2) ∧
    scrubPayload sampleLibrary (modelDump (sampleRun 1)) =
      scrubPayload sampleLibrary (modelDump (sampleRun 2)) := by
  have hfirst : sampleLibrary.loads (sampleLibrary.dumpsText (sampleResult 1)) =
      .ok (.dict (sampleResult 1)) := by
    have htext : sampleLibrary.dumpsText (sampleResult 1) = sampleText "[[1]]" := by decide
    rw [htext]
    simp [sampleLibrary]
  have hsecond : sampleLibrary.loads (sampleLibrary.dumpsText (sampleResult 2)) =
      .ok (.dict (sampleResult 2)) := by
    have htext : sampleLibrary.dumpsText (sampleResult 2) = sampleText "[[2]]" := by decide
    have hne : sampleText "[[2]]" ≠ sampleText "[[1]]" := by decide
    rw [htext]
    simp [sampleLibrary, hne]
  have hrows : RowsDiffer sampleLibrary
      ⟨"c1", "run_sql", [], sampleLibrary.dumpsText (sampleResult 1), false⟩
      ⟨"c1", "run_sql", [], sampleLibrary.dumpsText (sampleResult 2), false⟩ :=
    ⟨rfl, rfl, "SELECT id FROM customers", ["id"], [.list [.int 1]], [.list [.int 2]], rfl, rfl, rfl,
      hfirst, hsecond⟩
  have h : RowsApart sampleLibrary (sampleRun 1) (sampleRun 2) :=
    ⟨rfl, .cons ⟨rfl, .cons (.inr hrows) .nil⟩ .nil⟩
  exact ⟨h, (trace_rows_redacted sampleLibrary (sampleRun 1) (sampleRun 2) h).1⟩

end Sample

end Workbench.RunTraces
