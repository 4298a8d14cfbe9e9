import Workbench.CrmReports

namespace Workbench.Crm

open PyJson Services KeyedTable
open ToolGateway (AuditEntry Moment)

def Call.of (a : Action) : Call :=
  match a.kind with
  | .observe => .observe
  | .click => .act ⟨.click, a.target, ""⟩
  | .type => .act ⟨.type, a.target, a.value⟩

def entry (a : Action) (m : Moment) : Except String Screen → AuditEntry Dict
  | .ok _ => ⟨a.kind.text, a.args, true, none, m.latencyMs, m.atTime⟩
  | .error text => ⟨a.kind.text, a.args, true, some text, m.latencyMs, m.atTime⟩

variable {py : PyTexts} {moments : ℕ → Moment}

section Calls

variable {S : Type} {serve : S → Call → S × Except String Screen}

theorem get_tools (py : PyTexts) (serve : S → Call → S × Except String Screen) (a : Action) :
    ∃ registered, (buildGateway py serve).tools.get a.kind.text = some registered ∧
      ∀ s, registered.handler a.args s = serve s (.of a) := by
  obtain ⟨kind, target, value⟩ := a
  simp only [buildGateway, ToolGateway.State.register, Table.get_put]
  cases kind with
  | observe => exact ⟨_, rfl, fun _ => rfl⟩
  | click => exact ⟨_, rfl, fun _ => rfl⟩
  | type => exact ⟨_, rfl, fun _ => rfl⟩

theorem permitted_kind (a : Action) :
    (ToolGateway.begun (V := Screen) a.kind.text a.args (some allowlist)).permitted = true := by
  change decide (a.kind.text ∈ allowlist) = true
  cases a.kind with
  | observe => decide
  | click => decide
  | type => decide

structure Called (py : PyTexts) (serve : S → Call → S × Except String Screen) (m : Moment) (a : Action)
    (b b' : Bench S) (output : Option Screen) : Prop where
  session : b'.session = (serve b.session (.of a)).1
  calls : b'.calls = b.calls + 1
  tools : b'.gateway.tools = (buildGateway py serve).tools
  audit : b'.gateway.audit = b.gateway.audit ++ [entry a m (serve b.session (.of a)).2]
  output : output = (serve b.session (.of a)).2.toOption

theorem called (moments : ℕ → Moment) {b : Bench S}
    (h : b.gateway.tools = (buildGateway py serve).tools) (a : Action) :
    Called py serve (moments b.calls) a b (b.call moments a).1 (b.call moments a).2.output := by
  obtain ⟨registered, hget, hhandler⟩ := get_tools py serve a
  rw [← h] at hget
  have hstart :=
    ToolGateway.start_permitted (c := b.calls) (m := moments b.calls) hget (permitted_kind a)
  cases ho : (serve b.session (.of a)).2 with
  | ok screen =>
    simp only [Bench.call, Gateway.call, hget, permitted_kind, if_true, hhandler, ho, hstart]
    exact ⟨rfl, rfl, h, by rw [ho]; rfl, by rw [ho]; rfl⟩
  | error text =>
    simp only [Bench.call, Gateway.call, hget, permitted_kind, if_true, hhandler, ho, hstart]
    exact ⟨rfl, rfl, h, by rw [ho]; rfl, by rw [ho]; rfl⟩

theorem admits_session {moments : ℕ → Moment} {scenario : String} {P : S → Call → Prop} {b : Bench S}
    (h : b.gateway.tools = (buildGateway py serve).tools) (steps : List Step) :
    Admits (runStep py moments scenario) (fun b step => P b.session (.of step.action)) b steps ↔
      Admits serve P b.session (steps.map fun step => Call.of step.action) := by
  have htools : ∀ (b : Bench S) (step : Step), b.gateway.tools = (buildGateway py serve).tools →
      (runStep py moments scenario b step).1.gateway.tools = (buildGateway py serve).tools :=
    fun _ step hb => (called moments hb step.action).tools
  have hsession : ∀ (b : Bench S) (step : Step), b.gateway.tools = (buildGateway py serve).tools →
      (runStep py moments scenario b step).1.session = (serve b.session (.of step.action)).1 :=
    fun _ step hb => (called moments hb step.action).session
  exact admits_map (I := fun b => b.gateway.tools = (buildGateway py serve).tools) Bench.session
    (fun step => Call.of step.action) htools hsession h steps

end Calls

section Runs

variable {raised : String → String} {scenario : String}

structure Alike (py : PyTexts) (raised : String → String) (b : Bench UiSession) (b' : Bench Page) :
    Prop where
  tools : b.gateway.tools = (buildCuaGateway py).tools
  pageTools : b'.gateway.tools = (buildPlaywrightGateway py raised).tools
  calls : b.calls = b'.calls
  audit : b.gateway.audit = b'.gateway.audit
  shows : Shows b.session b'.session

theorem alike_fresh : Alike py raised ⟨buildCuaGateway py, .new, 0⟩
    ⟨buildPlaywrightGateway py raised, .loaded, 0⟩ :=
  ⟨rfl, rfl, rfl, rfl, shows_loaded⟩

variable {b : Bench UiSession} {b' : Bench Page}

theorem Alike.runStep_same (h : Alike py raised b b') (moments : ℕ → Moment) (step : Step)
    (ha : Addressed b.session (.of step.action)) (hc : Calm b.session (.of step.action)) :
    Alike py raised (runStep py moments scenario b step).1 (runStep py moments scenario b' step).1 ∧
      (runStep py moments scenario b step).2 = (runStep py moments scenario b' step).2 := by
  have hcua := called moments h.tools step.action
  have hpage := called moments h.pageTools step.action
  obtain ⟨hshows, hsame⟩ := h.shows.serve_same raised _ ha hc
  constructor
  · constructor
    · exact hcua.tools
    · exact hpage.tools
    · exact hcua.calls.trans ((congrArg (· + 1) h.calls).trans hpage.calls.symm)
    · change (b.call moments step.action).1.gateway.audit = (b'.call moments step.action).1.gateway.audit
      rw [hcua.audit, hpage.audit, h.audit, h.calls, hsame]
    · change Shows (b.call moments step.action).1.session (b'.call moments step.action).1.session
      rw [hcua.session, hpage.session]
      exact hshows
  · change step.outcome py scenario (b.call moments step.action).2.output =
      step.outcome py scenario (b'.call moments step.action).2.output
    rw [hcua.output, hpage.output, hsame]

def Step.watch (a : Action) : Step := ⟨a, none, none, some false⟩

theorem passed_watch (a : Action) (outcome : Except String Screen) :
    ((Step.watch a).outcome py scenario outcome.toOption).1.passed = clean outcome := by
  cases outcome with
  | error text => rfl
  | ok screen =>
    obtain ⟨state, elements, error⟩ := screen
    cases error with
    | none => rfl
    | some e => rfl

theorem Alike.runStep_differ (h : Alike py raised b b') (moments : ℕ → Moment) (a : Action)
    (ha : Addressed b.session (.of a)) (hc : ¬ Calm b.session (.of a)) :
    (runStep py moments scenario b (.watch a)).2.1.passed ≠
      (runStep py moments scenario b' (.watch a)).2.1.passed := by
  have hcua := called moments h.tools a
  have hpage := called moments h.pageTools a
  change ((Step.watch a).outcome py scenario (b.call moments a).2.output).1.passed ≠
    ((Step.watch a).outcome py scenario (b'.call moments a).2.output).1.passed
  rw [hcua.output, hpage.output, passed_watch, passed_watch]
  exact h.shows.serve_differ raised _ ha hc

theorem runFresh_same {scenario : Scenario}
    (ha : Admits UiSession.serve Addressed .new (scenario.steps.map fun step => .of step.action))
    (hc : Admits UiSession.serve Calm .new (scenario.steps.map fun step => .of step.action)) :
    runFresh py (buildCuaGateway py) .new moments scenario =
      runFresh py (buildPlaywrightGateway py raised) .loaded moments scenario := by
  have hadmits : Admits (runStep py moments scenario.name)
      (fun b step => Addressed b.session (Call.of step.action) ∧ Calm b.session (Call.of step.action))
      ⟨buildCuaGateway py, .new, 0⟩ scenario.steps :=
    admits_and.mpr ⟨(admits_session rfl _).mpr ha, (admits_session rfl _).mpr hc⟩
  obtain ⟨halike, hserved⟩ := serveAll_simulation (R := Alike py raised)
    (fun _ _ step h hg => h.runStep_same moments step hg.1 hg.2) alike_fresh hadmits
  simp only [runFresh, runScenario]
  rw [halike.audit, hserved]

def watched (plan : List Action) : Scenario := ⟨"", "", plan.map .watch⟩

theorem actions_watched (plan : List Action) :
    ((watched plan).steps.map fun step => step.action) = plan := by
  change (plan.map Step.watch).map _ = plan
  rw [List.map_map]
  exact List.map_id plan

theorem runFresh_watched {plan : List Action}
    (ha : Admits UiSession.serve Addressed .new (plan.map Call.of))
    (h : (runFresh py (buildCuaGateway py) .new moments (watched plan)).1.steps =
      (runFresh py (buildPlaywrightGateway py raised) .loaded moments (watched plan)).1.steps) :
    Admits UiSession.serve Calm .new (plan.map Call.of) := by
  have hcalls : ((plan.map Step.watch).map fun step => Call.of step.action) = plan.map Call.of := by
    rw [List.map_map]
    rfl
  have haddressed : Admits (runStep py moments "")
      (fun b step => Addressed b.session (Call.of step.action)) ⟨buildCuaGateway py, .new, 0⟩
      (plan.map Step.watch) := by
    apply (admits_session rfl _).mpr
    rw [hcalls]
    exact ha
  have hwatch : Admits (runStep py moments "") (fun _ step => ∃ a, step = .watch a)
      (⟨buildCuaGateway py, .new, 0⟩ : Bench UiSession) (plan.map Step.watch) := by
    apply admits_of_forall
    intro step hstep _
    obtain ⟨a, _, rfl⟩ := List.mem_map.mp hstep
    exact ⟨a, rfl⟩
  have hpassed := congrArg (List.map StepResult.passed) h
  simp only [runFresh, runScenario, watched, List.map_map] at hpassed
  have hcalm : Admits (runStep py moments "") (fun b step => Calm b.session (Call.of step.action))
      ⟨buildCuaGateway py, .new, 0⟩ (plan.map Step.watch) := by
    apply (serveAll_agree_iff (R := Alike py raised) (fun r => r.1.passed) _ _ alike_fresh
      (admits_and.mpr ⟨haddressed, hwatch⟩)).mp hpassed
    · intro b b' step h hg hc
      exact h.runStep_same moments step hg.1 hc
    · rintro b b' _ h ⟨hg, a, rfl⟩ hc
      exact h.runStep_differ moments a hg hc
  rw [← hcalls]
  exact (admits_session rfl _).mp hcalm

end Runs

section Reports

variable {raised : String → String}

theorem screens_iff {calls : List Call} (ha : Admits UiSession.serve Addressed .new calls) :
    (serveAll UiSession.serve .new calls).2 = (serveAll (Page.serve raised) .loaded calls).2 ↔
      Admits UiSession.serve Calm .new calls := by
  constructor
  · intro h
    apply (serveAll_agree_iff (R := Shows) clean _ _ shows_loaded ha).mp (congrArg (List.map clean) h)
    · intro s p q hp hg hc
      exact hp.serve_same raised q hg hc
    · intro s p q hp hg hc
      exact hp.serve_differ raised q hg hc
  · intro hc
    exact (serveAll_simulation (R := Shows) (fun s p q hp hg => hp.serve_same raised q hg.1 hg.2)
      shows_loaded (admits_and.mpr ⟨ha, hc⟩)).2

theorem reports_same {moments : ℕ → ℕ → Moment} {scenarios : List Scenario}
    (ha : ∀ scenario ∈ scenarios,
      Admits UiSession.serve Addressed .new (scenario.steps.map fun step => Call.of step.action))
    (hc : ∀ scenario ∈ scenarios,
      Admits UiSession.serve Calm .new (scenario.steps.map fun step => Call.of step.action)) :
    runQa py moments scenarios = runQaPlaywright py raised moments scenarios := by
  apply congrArg QAReport.of
  apply List.mapIdx_eq_mapIdx_iff.mpr
  intro i hi
  have hmem : scenarios[i] ∈ scenarios := List.getElem_mem hi
  exact runFresh_same (ha _ hmem) (hc _ hmem)

theorem calm_of_reports (moments : ℕ → ℕ → Moment) {plans : List (List Action)}
    (ha : ∀ plan ∈ plans, Admits UiSession.serve Addressed .new (plan.map Call.of))
    (h : runQa py moments (plans.map watched) =
      runQaPlaywright py raised moments (plans.map watched)) :
    ∀ plan ∈ plans, Admits UiSession.serve Calm .new (plan.map Call.of) := by
  intro plan hplan
  obtain ⟨i, hi, rfl⟩ := List.getElem_of_mem hplan
  have hsteps := congrArg (fun report => (report.scenarios.map ScenarioResult.steps)[i]?) h
  simp only [runQa, runQaPlaywright, QAReport.of, List.getElem?_map, List.getElem?_mapIdx,
    List.getElem?_eq_getElem hi, Option.map_some, Option.some_inj] at hsteps
  exact runFresh_watched (ha _ hplan) hsteps

theorem crm_iff (py : PyTexts) (raised : String → String) :
    (∀ calls, Admits UiSession.serve Addressed .new calls →
      ((serveAll UiSession.serve .new calls).2 = (serveAll (Page.serve raised) .loaded calls).2 ↔
        Admits UiSession.serve Calm .new calls)) ∧
    ∀ plans : List (List Action),
      (∀ plan ∈ plans, Admits UiSession.serve Addressed .new (plan.map Call.of)) →
      ((∀ scenarios moments,
          (scenarios.map fun scenario => scenario.steps.map fun step => step.action) = plans →
          runQa py moments scenarios = runQaPlaywright py raised moments scenarios) ↔
        ∀ plan ∈ plans, Admits UiSession.serve Calm .new (plan.map Call.of)) := by
  constructor
  · intro calls ha
    exact screens_iff ha
  · intro plans ha
    constructor
    · intro h
      apply calm_of_reports (fun _ _ => ⟨0, "", none⟩) ha
      apply h
      rw [List.map_map]
      exact (List.map_congr_left fun plan _ => actions_watched plan).trans (List.map_id plans)
    · rintro hc scenarios moments rfl
      apply reports_same
      · intro scenario hmem
        have hplan := ha _ (List.mem_map_of_mem hmem)
        rwa [List.map_map] at hplan
      · intro scenario hmem
        have hplan := hc _ (List.mem_map_of_mem hmem)
        rwa [List.map_map] at hplan

def asciiTexts : PyTexts := ⟨String.toLower, fun _ => ""⟩

def savedCustomer : List Action :=
  [⟨.type, "username", "admin"⟩, ⟨.type, "password", "secret"⟩, ⟨.click, "submit", ""⟩,
    ⟨.click, "new_customer", ""⟩, ⟨.type, "name", "Acme Corp"⟩, ⟨.click, "save", ""⟩]

theorem crm_iff_bundled :
    (serveAll UiSession.serve .new (savedCustomer.map Call.act)).2 =
        (serveAll (Page.serve fun _ => "Timeout 30000ms exceeded.") .loaded
          (savedCustomer.map Call.act)).2 ∧
      runQa asciiTexts (fun _ _ => ⟨3, "2026-01-05T10:00:00+00:00", none⟩) bundled =
        runQaPlaywright asciiTexts (fun _ => "Timeout 30000ms exceeded.")
          (fun _ _ => ⟨3, "2026-01-05T10:00:00+00:00", none⟩) bundled :=
  ⟨((crm_iff asciiTexts fun _ => "Timeout 30000ms exceeded.").1 (savedCustomer.map Call.act)
      (by decide)).mpr (by decide),
    ((crm_iff asciiTexts fun _ => "Timeout 30000ms exceeded.").2
      (bundled.map fun scenario => scenario.steps.map fun step => step.action)
      (by decide)).mpr (by decide) bundled _ rfl⟩

def retyped : List Action := [⟨.click, "submit", ""⟩, ⟨.type, "username", "admin"⟩]

theorem retyped_differs : Admits UiSession.serve Addressed .new (retyped.map Call.of) ∧
    ∀ raised, (serveAll UiSession.serve .new (retyped.map Call.of)).2 ≠
        (serveAll (Page.serve raised) .loaded (retyped.map Call.of)).2 ∧
      ∀ py moments, runQa py moments [watched retyped] ≠
        runQaPlaywright py raised moments [watched retyped] := by
  have ha : Admits UiSession.serve Addressed .new (retyped.map Call.of) := by decide
  have hc : ¬ Admits UiSession.serve Calm .new (retyped.map Call.of) := by decide
  refine ⟨ha, fun raised => ⟨fun h => hc ((screens_iff ha).mp h), fun py moments h => ?_⟩⟩
  have hcalm := calm_of_reports moments (List.forall_mem_singleton.mpr ha) h
  exact hc (hcalm retyped (List.mem_singleton.mpr rfl))

end Reports

end Workbench.Crm
