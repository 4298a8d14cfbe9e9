import Mathlib.Data.List.Infix
import Workbench.CrmSimulation
import Workbench.PyJson
import Workbench.SequentialCalls

namespace Workbench.Crm

open PyJson Services
open ToolGateway (ToolSpec ToolResult AuditEntry Moment)

structure Step where
  action : Action
  expectState : Option String
  expectText : Option String
  expectError : Option Bool

structure Scenario where
  name : String
  description : String
  steps : List Step

structure StepResult where
  description : String
  passed : Bool
  detail : String

structure Bug where
  scenario : String
  expected : String
  actual : String

structure ScenarioResult where
  name : String
  description : String
  passed : Bool
  steps : List StepResult

structure QAReport where
  scenarios : List ScenarioResult
  bugs : List Bug
  passed : ℕ
  failed : ℕ
  actionTrace : List (AuditEntry Dict)
  summary : String
  provider : String
  costUsd : Option ℚ

/-- `str.lower`, and what `str` makes of a value that is no text. -/
structure PyTexts where
  lower : String → String
  repr : Json → String

variable (py : PyTexts)

section Gateway

variable {S : Type}

abbrev Handler (S : Type) := Dict → S → S × Except String Screen

abbrev Gateway (S : Type) := ToolGateway.State ℕ Dict (Handler S) Screen

def PyTexts.str : Json → String
  | .str s => s
  | v => py.repr v

def argument (args : Dict) (key : String) : String := py.str ((field args key).getD (.str ""))

def observeSpec : ToolSpec Dict := ⟨"observe", "Read the current screen.", []⟩

def clickSpec : ToolSpec Dict := ⟨"click", "Click a control by id.",
  [("type", .str "object"), ("properties", .dict [("target", .dict [("type", .str "string")])])]⟩

def typeSpec : ToolSpec Dict := ⟨"type", "Type a value into an input by id.",
  [("type", .str "object"), ("properties", .dict [("target", .dict [("type", .str "string")]),
    ("value", .dict [("type", .str "string")])])]⟩

def buildGateway (serve : S → Call → S × Except String Screen) : Gateway S :=
  (((ToolGateway.created ℕ Dict (Handler S) Screen false).register observeSpec fun _ s =>
    serve s .observe).register clickSpec fun args s =>
    serve s (.act ⟨.click, argument py args "target", ""⟩)).register typeSpec fun args s =>
    serve s (.act ⟨.type, argument py args "target", argument py args "value"⟩)

def buildCuaGateway : Gateway UiSession := buildGateway py UiSession.serve

def buildPlaywrightGateway (raised : String → String) : Gateway Page :=
  buildGateway py (Page.serve raised)

/-- `ToolGateway.call`, whose connector is awaited before anything else happens. -/
def Gateway.call (g : Gateway S) (s : S) (c : ℕ) (tool : String) (args : Dict)
    (allowlist : Option (Finset String)) (m : Moment) : (Gateway S × S) × ToolResult Screen :=
  let call := ToolGateway.begun tool args allowlist
  match g.tools.get tool with
  | none => ((ToolGateway.start g c call m, s), ⟨tool, false, 0, none, some "unknown tool"⟩)
  | some registered =>
    if call.permitted then
      let served := registered.handler args s
      match served.2 with
      | .ok screen =>
        (((ToolGateway.start g c call m).answer c call true (some screen) none m.latencyMs m, served.1),
          ⟨tool, true, m.latencyMs, some screen, none⟩)
      | .error text =>
        (((ToolGateway.start g c call m).answer c call true none (some text) m.latencyMs m, served.1),
          ⟨tool, true, m.latencyMs, none, some text⟩)
    else ((ToolGateway.start g c call m, s), ⟨tool, false, 0, none, some "tool not permitted"⟩)

def allowlist : Finset String := {"observe", "click", "type"}

end Gateway

section Runner

def screenHasText (screen : Screen) (needle : String) : Bool :=
  screen.elements.any fun e => (py.lower needle).toList <:+: (py.lower (e.label ++ e.value)).toList

def Step.describe (step : Step) : String :=
  let a := step.action
  let base := if a.kind = .observe then a.kind.text
    else a.kind.text ++ " " ++ a.target ++ (if a.value = "" then "" else "='" ++ a.value ++ "'")
  let exp := ((step.expectState.toList.filter (· ≠ "")).map fun state => "→ " ++ state) ++
    ((step.expectText.toList.filter (· ≠ "")).map fun text => "shows '" ++ text ++ "'") ++
    (if step.expectError = some true then ["shows error"] else []) ++
    (if step.expectError = some false then ["no error"] else [])
  base ++ (if exp = [] then "" else " (" ++ ", ".intercalate exp ++ ")")

def Step.checks (step : Step) : Option Screen → List (Bool × String)
  | none => [(false, "action " ++ step.action.kind.text ++ " returned nothing")]
  | some screen =>
    (step.expectState.toList.map fun state =>
      (decide (screen.state.text = state), "state=" ++ screen.state.text ++ ", expected " ++ state)) ++
    (step.expectText.toList.map fun text =>
      (screenHasText py screen text, "text '" ++ text ++ "' not found on screen")) ++
    (step.expectError.toList.map fun expected =>
      (screen.error.isSome == expected, "error=" ++ (if screen.error.isSome then "shown" else "none") ++
        ", expected " ++ (if expected then "an error" else "no error")))

def Step.outcome (step : Step) (scenario : String) (output : Option Screen) : StepResult × List Bug :=
  let checks := step.checks py output
  let ok := checks.all fun check => check.1
  let detail := "; ".intercalate ((checks.filter fun check => !check.1).map fun check => check.2)
  (⟨step.describe, ok, detail⟩, if ok then [] else [⟨scenario, step.describe, detail⟩])

variable {S : Type}

structure Bench (S : Type) where
  gateway : Gateway S
  session : S
  calls : ℕ

def Action.args (a : Action) : Dict := [("target", .str a.target), ("value", .str a.value)]

def Bench.call (moments : ℕ → Moment) (b : Bench S) (a : Action) : Bench S × ToolResult Screen :=
  let out := b.gateway.call b.session b.calls a.kind.text a.args (some allowlist) (moments b.calls)
  (⟨out.1.1, out.1.2, b.calls + 1⟩, out.2)

def runStep (moments : ℕ → Moment) (scenario : String) (b : Bench S) (step : Step) :
    Bench S × StepResult × List Bug :=
  let out := b.call moments step.action
  (out.1, step.outcome py scenario out.2.output)

def runScenario (moments : ℕ → Moment) (scenario : Scenario) (b : Bench S) :
    Bench S × ScenarioResult × List Bug :=
  let served := serveAll (runStep py moments scenario.name) b scenario.steps
  let steps := served.2.map fun r => r.1
  (served.1, ⟨scenario.name, scenario.description, steps.all fun s => s.passed, steps⟩,
    served.2.flatMap fun r => r.2)

def runFresh (gateway : Gateway S) (session : S) (moments : ℕ → Moment) (scenario : Scenario) :
    ScenarioResult × List Bug × List (AuditEntry Dict) :=
  let ran := runScenario py moments scenario ⟨gateway, session, 0⟩
  (ran.2.1, ran.2.2, ran.1.gateway.audit)

def QAReport.of (ran : List (ScenarioResult × List Bug × List (AuditEntry Dict))) : QAReport where
  scenarios := ran.map fun r => r.1
  bugs := ran.flatMap fun r => r.2.1
  passed := (ran.filter fun r => r.1.passed).length
  failed := ran.length - (ran.filter fun r => r.1.passed).length
  actionTrace := ran.flatMap fun r => r.2.2
  summary := ""
  provider := ""
  costUsd := none

def runQa (moments : ℕ → ℕ → Moment) (scenarios : List Scenario) : QAReport :=
  .of (scenarios.mapIdx fun i => runFresh py (buildCuaGateway py) .new (moments i))

def runQaPlaywright (raised : String → String) (moments : ℕ → ℕ → Moment) (scenarios : List Scenario) :
    QAReport :=
  .of (scenarios.mapIdx fun i => runFresh py (buildPlaywrightGateway py raised) .loaded (moments i))

end Runner

section Bundled

def Step.plain (a : Action) : Step := ⟨a, none, none, none⟩

def loginSteps (user pw : String) : List Step :=
  [.plain ⟨.type, "username", user⟩, .plain ⟨.type, "password", pw⟩, .plain ⟨.click, "submit", ""⟩]

def bundled : List Scenario :=
  [⟨"login_valid", "Sign in with valid credentials reaches the dashboard.",
      loginSteps "admin" "secret" ++ [⟨⟨.observe, "", ""⟩, some "dashboard", none, none⟩]⟩,
    ⟨"login_invalid_recovers", "Wrong password is rejected with an error (error recovery).",
      loginSteps "admin" "wrong" ++ [⟨⟨.observe, "", ""⟩, some "login", none, some true⟩]⟩,
    ⟨"create_customer_valid", "A customer with a valid email saves successfully.",
      loginSteps "admin" "secret" ++ [.plain ⟨.click, "new_customer", ""⟩,
        .plain ⟨.type, "name", "Acme Corp"⟩, .plain ⟨.type, "email", "ops@acme.com"⟩,
        ⟨⟨.click, "save", ""⟩, some "success", none, none⟩]⟩,
    ⟨"email_validation", "An invalid email (no @) should be rejected at save.",
      loginSteps "admin" "secret" ++ [.plain ⟨.click, "new_customer", ""⟩,
        .plain ⟨.type, "name", "Acme Corp"⟩, .plain ⟨.type, "email", "notanemail"⟩,
        ⟨⟨.click, "save", ""⟩, none, none, some true⟩]⟩,
    ⟨"dashboard_copy", "The dashboard greeting should be spelled 'Welcome'.",
      loginSteps "admin" "secret" ++ [⟨⟨.observe, "", ""⟩, none, some "Welcome", none⟩]⟩]

end Bundled

end Workbench.Crm
