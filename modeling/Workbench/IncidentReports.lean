import Mathlib.Data.List.Infix
import Workbench.ModelReplies

namespace Workbench.Incidents

open AgentRuntime PyJson

variable {J : Type}

inductive RootCause
  | policyRejection
  | loopNoProgress
  | providerUnavailable
  | sqlError
  | toolDenied
  | scenarioFailures
  | lowEvalQuality
  | unknown
  deriving DecidableEq

def RootCause.text : RootCause → String
  | policyRejection => "policy_rejection"
  | loopNoProgress => "loop_no_progress"
  | providerUnavailable => "provider_unavailable"
  | sqlError => "sql_error"
  | toolDenied => "tool_denied"
  | scenarioFailures => "scenario_failures"
  | lowEvalQuality => "low_eval_quality"
  | unknown => "unknown"

structure TraceDetail where
  id : String
  kind : String
  name : String
  status : String
  error : Option String
  payload : Dict

/-- `lower` is `str.lower`, `percent` the format `.0%`, and `oddBelow` tells whether a `float` that
is no finite number is below 0.5. -/
structure IncidentLibrary extends ReplyLibrary where
  lower : String → String
  percent : Json → Except PyError String
  oddBelow : Bool

def orText (text : Option String) (other : String) : String :=
  if text.getD "" = "" then other else text.getD ""

def mentions (err needle : String) : Bool := needle.toList <:+: err.toList

def value (fields : Dict) (key : String) : Json := (field fields key).getD .null

def outOfSteps (status err : String) : Bool :=
  status = "max_steps_reached" || mentions err "max_steps"

def unprovided (err : String) : Bool := mentions err "no provider" || mentions err "no model provider"

def sqlFailed (err : String) : Bool := mentions err "execution failed" || mentions err "sql"

def scenarioFailed (kind err : String) : Bool := kind = "agent" && mentions err "scenario"

def audit (payload : Dict) : Json :=
  ((value payload "tool_calls").orElse (value payload "action_trace")).orElse (.list [])

def isDenied : Json → Bool
  | .dict fields =>
    match field fields "allowed" with
    | some (.bool allowed) => !allowed
    | _ => false
  | _ => false

section Classify

variable (lib : IncidentLibrary)

def stepCount (payload : Dict) : Except PyError String :=
  match field payload "steps" with
  | some (.list steps) => .ok (toString steps.length)
  | _ => lib.str ((field payload "num_steps").getD (.str "?"))

def isLow : Json → Bool
  | .int n => (n : ℚ) < 1 / 2
  | .bool b => !b
  | .float (some q) => q < 1 / 2
  | .float none => lib.oddBelow
  | _ => false

def lowRate (kind : String) (payload : Dict) : Option Json :=
  match value payload "aggregates" with
  | .dict aggregates =>
    if kind = "eval" && isLow lib (value aggregates "hit_rate") then some (value aggregates "hit_rate")
    else none
  | _ => none

def classifyPayload (kind status : String) (payload : Dict) : Except PyError (RootCause × List String) :=
  (audit payload).iter.bind fun calls =>
    let denied := calls.filter isDenied
    if denied ≠ [] then
      .ok (.toolDenied, [toString denied.length ++ " tool call(s) denied by the gateway allowlist"])
    else
      match lowRate lib kind payload with
      | some hit => (lib.percent hit).map fun rate =>
        (.lowEvalQuality, ["retrieval hit rate is low (" ++ rate ++ ")"])
      | none => .ok (.unknown, ["run ended with status '" ++ status ++ "'"])

def classify (kind status : String) (error : Option String) (payload : Dict) :
    Except PyError (RootCause × List String) :=
  let err := lib.lower (error.getD "")
  if status = "rejected" then
    .ok (.policyRejection, ["workflow run rejected by a human at an approval gate"])
  else if outOfSteps status err then
    (stepCount lib payload).map fun n =>
      (.loopNoProgress, ["agent hit the step budget without finishing (" ++ n ++ " steps)"])
  else if unprovided err then
    .ok (.providerUnavailable,
      ["no model provider succeeded — check API keys or the local model endpoint"])
  else if sqlFailed err then .ok (.sqlError, ["a SQL query failed during execution"])
  else if scenarioFailed kind err then .ok (.scenarioFailures, [orText error "QA scenarios failed"])
  else classifyPayload lib kind status payload

end Classify

structure RcaReport where
  traceId : String
  kind : String
  name : String
  status : String
  rootCause : RootCause
  signals : List String
  summary : String
  recommendation : String
  provider : String
  costUsd : Option ℚ
  deriving DecidableEq

def rcaSystem : String :=
  "You are an SRE doing incident response on an AI agent run. Given the failure " ++
    "and its auto-detected root cause, write a brief RCA. Respond with ONLY JSON: " ++
    "\x7b\"summary\": \"<what happened, one or two sentences>\", " ++
    "\"recommendation\": \"<the concrete fix>\"\x7d"

def rcaPrompt (trace : TraceDetail) (found : RootCause × List String) : String :=
  "Run: " ++ trace.name ++ " (kind=" ++ trace.kind ++ ")\n" ++ "Status: " ++ trace.status ++ "\n" ++
    "Error: " ++ orText trace.error "none" ++ "\n" ++ "Auto root cause: " ++ found.1.text ++ "\n" ++
    "Signals: " ++ "; ".intercalate found.2

def foundReport (trace : TraceDetail) (found : RootCause × List String) : RcaReport :=
  ⟨trace.id, trace.kind, trace.name, trace.status, found.1, found.2, "", "", "", none⟩

section Analyze

variable (lib : IncidentLibrary)

def explain (report : RcaReport) (data : Json) : Except PyError RcaReport :=
  (data.get "summary" (.str "")).bind fun summary => (lib.str summary).bind fun summary =>
    (data.get "recommendation" (.str "")).bind fun recommendation =>
      (lib.str recommendation).map fun recommendation => { report with summary, recommendation }

def explained (report : RcaReport) (out : StepOutput J) : Except PyError RcaReport :=
  let report := { report with provider := out.provider, costUsd := out.costUsd }
  (loadObject lib.loads out.text).bind fun data => data.elim (.ok report) (explain lib report)

def analyzeIncident (trace : TraceDetail) (step : StepRequest → Except Exc (StepOutput J)) :
    Except Exc RcaReport :=
  ((classify lib trace.kind trace.status trace.error trace.payload).mapError pyExc).bind fun found =>
    match step ⟨rcaPrompt trace found, .standard, rcaSystem, 512⟩ with
    | .error exc =>
      if exc.typeName = "NoProviderAvailableError" then .ok (foundReport trace found) else .error exc
    | .ok out => (explained lib (foundReport trace found) out).mapError pyExc

def RcaReport.findings (r : RcaReport) : RootCause × List String := (r.rootCause, r.signals)

def RcaStands (trace : TraceDetail) (answer : Option (StepOutput J)) : Prop :=
  ∃ report alone, analyzeIncident lib trace (stepOf answer) = .ok report ∧
    analyzeIncident lib trace (stepOf (none : Option (StepOutput J))) = .ok alone ∧
    report.findings = alone.findings

def Explains (data : Json) : Prop :=
  ∃ fields, data = .dict fields ∧ Fine (lib.str ((field fields "summary").getD (.str ""))) ∧
    Fine (lib.str ((field fields "recommendation").getD (.str "")))

def Audited (trace : TraceDetail) : Prop :=
  let err := lib.lower (trace.error.getD "")
  trace.status ≠ "rejected" ∧ outOfSteps trace.status err = false ∧ unprovided err = false ∧
    sqlFailed err = false ∧ scenarioFailed trace.kind err = false

structure Classifiable (trace : TraceDetail) : Prop where
  steps : trace.status ≠ "rejected" → outOfSteps trace.status (lib.lower (trace.error.getD "")) →
    (∃ steps, field trace.payload "steps" = some (.list steps)) ∨
      Fine (lib.str ((field trace.payload "num_steps").getD (.str "?")))
  calls : Audited lib trace → (audit trace.payload).iterable
  rate : Audited lib trace → ∀ calls, (audit trace.payload).iter = .ok calls →
    (∀ call ∈ calls, isDenied call = false) →
      ∀ hit, lowRate lib trace.kind trace.payload = some hit → Fine (lib.percent hit)

end Analyze

variable {lib : IncidentLibrary} {trace : TraceDetail}

theorem fine_stepCount {payload : Dict} :
    Fine (stepCount lib payload) ↔ (∃ steps, field payload "steps" = some (.list steps)) ∨
      Fine (lib.str ((field payload "num_steps").getD (.str "?"))) := by
  unfold stepCount
  split
  · rename_i steps hsteps
    exact iff_of_true (fine_ok _) (.inl ⟨steps, hsteps⟩)
  · rename_i hsteps
    constructor
    · exact .inr
    · rintro (⟨steps, h⟩ | h)
      · exact absurd h (hsteps steps)
      · exact h

theorem Classifiable.early (h : ¬Audited lib trace)
    (hsteps : trace.status ≠ "rejected" → outOfSteps trace.status (lib.lower (trace.error.getD "")) →
      (∃ steps, field trace.payload "steps" = some (.list steps)) ∨
        Fine (lib.str ((field trace.payload "num_steps").getD (.str "?")))) :
    Classifiable lib trace :=
  ⟨hsteps, fun ha => absurd ha h, fun ha => absurd ha h⟩

theorem fine_classifyPayload {kind status : String} {payload : Dict} :
    Fine (classifyPayload lib kind status payload) ↔ (audit payload).iterable ∧
      ∀ calls, (audit payload).iter = .ok calls → (∀ call ∈ calls, isDenied call = false) →
        ∀ hit, lowRate lib kind payload = some hit → Fine (lib.percent hit) := by
  rw [classifyPayload, fine_bind, ← Json.fine_iter]
  have hnone (calls : List Json) : calls.filter isDenied = [] ↔ ∀ call ∈ calls, isDenied call = false := by
    simp [List.filter_eq_nil_iff]
  constructor
  · rintro ⟨calls, hcalls, h⟩
    refine ⟨⟨calls, hcalls⟩, ?_⟩
    intro others hothers hdenied hit hhit
    cases hcalls.symm.trans hothers
    simp only [(hnone calls).mpr hdenied, hhit] at h
    exact fine_map.mp h
  · rintro ⟨⟨calls, hcalls⟩, h⟩
    refine ⟨calls, hcalls, ?_⟩
    simp only
    split_ifs with hdenied
    · exact fine_ok _
    · rw [not_not, hnone] at hdenied
      cases hhit : lowRate lib kind payload with
      | none => exact fine_ok _
      | some hit => exact fine_map.mpr (h calls hcalls hdenied hit hhit)

theorem fine_classify :
    Fine (classify lib trace.kind trace.status trace.error trace.payload) ↔ Classifiable lib trace := by
  unfold classify
  simp only
  split_ifs with hrejected hsteps hprovider hsql hscenario
  · apply iff_of_true (fine_ok _)
    exact .early (fun ha => ha.1 hrejected) fun h => absurd hrejected h
  · rw [fine_map, fine_stepCount]
    constructor
    · intro h
      exact .early (fun ha => by simp [Audited, hsteps] at ha) fun _ _ => h
    · intro h
      exact h.steps hrejected hsteps
  · apply iff_of_true (fine_ok _)
    exact .early (fun ha => by simp [Audited, hprovider] at ha) fun _ h => absurd h hsteps
  · apply iff_of_true (fine_ok _)
    exact .early (fun ha => by simp [Audited, hsql] at ha) fun _ h => absurd h hsteps
  · apply iff_of_true (fine_ok _)
    exact .early (fun ha => by simp [Audited, hscenario] at ha) fun _ h => absurd h hsteps
  · have haudited : Audited lib trace := by
      simp only [Bool.not_eq_true] at hsteps hprovider hsql hscenario
      exact ⟨hrejected, hsteps, hprovider, hsql, hscenario⟩
    rw [fine_classifyPayload]
    constructor
    · rintro ⟨hcalls, hrate⟩
      exact ⟨fun _ h => absurd h hsteps, fun _ => hcalls, fun _ => hrate⟩
    · intro h
      exact ⟨h.calls haudited, h.rate haudited⟩

theorem fine_explain {report : RcaReport} {data : Json} :
    Fine (explain lib report data) ↔ Explains lib data := by
  rw [explain, Json.fine_get_bind]
  constructor
  · rintro ⟨fields, rfl, h⟩
    obtain ⟨summary, hsummary, h⟩ := fine_bind.mp h
    rw [Json.get_dict_bind, fine_map] at h
    exact ⟨fields, rfl, ⟨summary, hsummary⟩, h⟩
  · rintro ⟨fields, rfl, ⟨summary, hsummary⟩, h⟩
    refine ⟨fields, rfl, fine_bind.mpr ⟨summary, hsummary, ?_⟩⟩
    rw [Json.get_dict_bind]
    exact fine_map.mpr h

theorem explain_findings {report told : RcaReport} {data : Json}
    (h : explain lib report data = .ok told) : told.findings = report.findings := by
  unfold explain at h
  simp only [bind_eq_ok, map_eq_ok] at h
  obtain ⟨-, -, -, -, -, -, -, -, rfl⟩ := h
  rfl

theorem fine_explained {report : RcaReport} {out : StepOutput J} :
    Fine (explained lib report out) ↔ Holds lib.loads out.text (Explains lib) := by
  rw [explained, fine_loadObject]
  exact Holds.congr fun data => fine_explain

theorem explained_findings {report told : RcaReport} {out : StepOutput J}
    (h : explained lib report out = .ok told) : told.findings = report.findings := by
  have hkeeps := loadObject_keeps (fun data told => explain_findings) h
  exact hkeeps

theorem analyzeIncident_eq {found : RootCause × List String}
    (hfound : classify lib trace.kind trace.status trace.error trace.payload = .ok found)
    (answer : Option (StepOutput J)) :
    analyzeIncident lib trace (stepOf answer) =
      match answer with
      | none => .ok (foundReport trace found)
      | some out => (explained lib (foundReport trace found) out).mapError pyExc := by
  rw [analyzeIncident, hfound]
  cases answer with
  | none => rfl
  | some out => rfl

theorem classifiable_of_returns {step : StepRequest → Except Exc (StepOutput J)} {report : RcaReport}
    (h : analyzeIncident lib trace step = .ok report) : Classifiable lib trace := by
  obtain ⟨found, hfound, -⟩ := bind_eq_ok.mp h
  exact fine_classify.mp ⟨found, mapError_eq_ok.mp hfound⟩

theorem rca_stands_iff {answer : Option (StepOutput J)} :
    RcaStands lib trace answer ↔ Classifiable lib trace ∧
      ∀ out, answer = some out → Holds lib.loads out.text (Explains lib) := by
  unfold RcaStands
  constructor
  · rintro ⟨report, alone, h, halone, -⟩
    have hclass := classifiable_of_returns h
    refine ⟨hclass, ?_⟩
    rintro out rfl
    obtain ⟨found, hfound⟩ := fine_classify.mpr hclass
    rw [analyzeIncident_eq hfound] at h
    exact fine_explained.mp ⟨report, mapError_eq_ok.mp h⟩
  · rintro ⟨hclass, hanswer⟩
    obtain ⟨found, hfound⟩ := fine_classify.mpr hclass
    rw [analyzeIncident_eq hfound, analyzeIncident_eq hfound]
    cases answer with
    | none => exact ⟨_, _, rfl, rfl, rfl⟩
    | some out =>
      obtain ⟨report, hreport⟩ := fine_explained.mpr (hanswer out rfl)
      exact ⟨report, _, mapError_eq_ok.mpr hreport, rfl, explained_findings hreport⟩

end Workbench.Incidents
