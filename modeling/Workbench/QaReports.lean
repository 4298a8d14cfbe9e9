import Workbench.CrmAgreement

namespace Workbench.Crm

open PyJson Services
open ToolGateway (AuditEntry Moment)

variable (py : PyTexts) {S : Type} (serve : S → Call → S × Except String Screen) (s : S)

def performed (steps : List Step) : List (Step × Except String Screen) :=
  steps.zip (serveAll serve s (steps.map fun step => Call.of step.action)).2

def Step.Met (step : Step) (outcome : Except String Screen) : Prop :=
  ∃ screen, outcome = .ok screen ∧ (∀ state ∈ step.expectState, screen.state.text = state) ∧
    (∀ text ∈ step.expectText, ∃ e ∈ screen.elements,
      (py.lower text).toList <:+: (py.lower (e.label ++ e.value)).toList) ∧
    ∀ expected ∈ step.expectError, screen.error.isSome = expected

structure Judged (p : Step × Except String Screen) (r : StepResult) : Prop where
  description : r.description = p.1.describe
  passed : r.passed = true ↔ p.1.Met py p.2
  detail : r.passed = true → r.detail = ""

structure Reported (scenario : Scenario) (r : ScenarioResult) : Prop where
  name : r.name = scenario.name
  description : r.description = scenario.description
  steps : List.Forall₂ (Judged py) (performed serve s scenario.steps) r.steps
  passed : r.passed = true ↔ ∀ p ∈ performed serve s scenario.steps, p.1.Met py p.2

def ScenarioResult.failures (r : ScenarioResult) : List Bug :=
  (r.steps.filter fun step => !step.passed).map fun step => ⟨r.name, step.description, step.detail⟩

structure Accounts (scenarios : List Scenario) (report : QAReport) : Prop where
  results : List.Forall₂ (Reported py serve s) scenarios report.scenarios
  bugs : report.bugs = report.scenarios.flatMap ScenarioResult.failures
  passed : report.passed = (report.scenarios.filter ScenarioResult.passed).length
  total : report.passed + report.failed = scenarios.length
  clean : report.failed = 0 ↔ report.bugs = []
  trace : List.Forall₂ (fun p e => ∃ m, e = entry p.1.action m p.2)
    (scenarios.flatMap fun scenario => performed serve s scenario.steps) report.actionTrace

variable {py serve s} {b : Bench S} {moments : ℕ → Moment} {scenario : Scenario}

theorem performed_cons (step : Step) (steps : List Step) :
    performed serve s (step :: steps) =
      (step, (serve s (.of step.action)).2) :: performed serve (serve s (.of step.action)).1 steps :=
  rfl

theorem checks_ok {step : Step} {outcome : Except String Screen} :
    (step.checks py outcome.toOption).all (fun check => check.1) = true ↔ step.Met py outcome := by
  unfold Step.Met
  cases outcome with
  | error text => simp [Step.checks, Except.toOption]
  | ok screen =>
    simp only [Except.toOption, Step.checks, screenHasText, List.all_append, List.all_map,
      Bool.and_eq_true, List.all_eq_true, Option.mem_toList, Function.comp_apply, decide_eq_true_eq,
      List.any_eq_true, beq_iff_eq, and_assoc, Except.ok.injEq, exists_eq_left', Option.mem_def]

theorem judged_outcome (step : Step) (name : String) (outcome : Except String Screen) :
    Judged py (step, outcome) (step.outcome py name outcome.toOption).1 where
  description := rfl
  passed := checks_ok
  detail h := by
    have hnone : (step.checks py outcome.toOption).filter (fun check => !check.1) = [] := by
      apply List.filter_eq_nil_iff.mpr
      intro check hcheck
      rw [List.all_eq_true.mp h check hcheck]
      exact Bool.false_ne_true
    change "; ".intercalate (((step.checks py outcome.toOption).filter _).map _) = ""
    rw [hnone]
    rfl

theorem ran_steps (h : b.gateway.tools = (buildGateway py serve).tools) (name : String)
    (steps : List Step) :
    (serveAll (runStep py moments name) b steps).2 =
      (performed serve b.session steps).map fun p => p.1.outcome py name p.2.toOption := by
  induction steps generalizing b with
  | nil => rfl
  | cons step steps ih =>
    have hcalled := called moments h step.action
    rw [performed_cons, List.map_cons, ← hcalled.session, ← ih hcalled.tools]
    simp only [serveAll, runStep, hcalled.output]

theorem ran_audit (b : Bench S) (moments : ℕ → Moment)
    (h : b.gateway.tools = (buildGateway py serve).tools) (name : String) (steps : List Step) :
    ∃ entries, (serveAll (runStep py moments name) b steps).1.gateway.audit =
        b.gateway.audit ++ entries ∧
      List.Forall₂ (fun p e => ∃ m, e = entry p.1.action m p.2) (performed serve b.session steps)
        entries := by
  induction steps generalizing b with
  | nil => exact ⟨[], (List.append_nil _).symm, .nil⟩
  | cons step steps ih =>
    have hcalled := called moments h step.action
    obtain ⟨entries, haudit, hentries⟩ := ih _ hcalled.tools
    rw [hcalled.session] at hentries
    refine ⟨entry step.action (moments b.calls) (serve b.session (.of step.action)).2 :: entries, ?_, ?_⟩
    · change (serveAll (runStep py moments name) (b.call moments step.action).1 steps).1.gateway.audit = _
      rw [haudit, hcalled.audit, List.append_assoc, List.singleton_append]
    · exact .cons ⟨_, rfl⟩ hentries

theorem filter_flatMap {α β γ : Type} {p : β → Bool} {f : α → β} {g : β → γ} (as : List α) :
    (as.flatMap fun a => if p (f a) then [] else [g (f a)]) =
      ((as.map f).filter fun b => !p b).map g := by
  induction as with
  | nil => rfl
  | cons a as ih =>
    rw [List.flatMap_cons, ih, List.map_cons]
    cases hp : p (f a) with
    | true => simp [hp]
    | false => simp [hp]

theorem ran_fresh (py : PyTexts) (serve : S → Call → S × Except String Screen) (s : S)
    (moments : ℕ → Moment) (scenario : Scenario) :
    (serveAll (runStep py moments scenario.name) ⟨buildGateway py serve, s, 0⟩ scenario.steps).2 =
      (performed serve s scenario.steps).map fun p => p.1.outcome py scenario.name p.2.toOption :=
  ran_steps rfl scenario.name scenario.steps

theorem reported_fresh (scenario : Scenario) :
    Reported py serve s scenario (runFresh py (buildGateway py serve) s moments scenario).1 := by
  have hran := ran_fresh py serve s moments scenario
  have hsteps : List.Forall₂ (Judged py) (performed serve s scenario.steps)
      (runFresh py (buildGateway py serve) s moments scenario).1.steps := by
    simp only [runFresh, runScenario, hran, List.map_map]
    apply List.forall₂_map_right_iff.mpr
    apply List.forall₂_same.mpr
    intro p _
    exact judged_outcome p.1 scenario.name p.2
  refine ⟨rfl, rfl, hsteps, ?_⟩
  simp only [runFresh, runScenario, hran, List.map_map, List.all_map, List.all_eq_true,
    Function.comp_apply]
  exact forall₂_congr fun p _ => (judged_outcome p.1 scenario.name p.2).passed

theorem bugs_fresh (scenario : Scenario) :
    (runFresh py (buildGateway py serve) s moments scenario).2.1 =
      (runFresh py (buildGateway py serve) s moments scenario).1.failures := by
  have hran := ran_fresh py serve s moments scenario
  simp only [runFresh, runScenario, ScenarioResult.failures, hran, List.map_map, List.flatMap_map]
  exact filter_flatMap (p := StepResult.passed)
    (f := fun p : Step × Except String Screen => (p.1.outcome py scenario.name p.2.toOption).1)
    (g := fun r => (⟨scenario.name, r.description, r.detail⟩ : Bug)) _

theorem audit_fresh (scenario : Scenario) :
    List.Forall₂ (fun p e => ∃ m, e = entry p.1.action m p.2) (performed serve s scenario.steps)
      (runFresh py (buildGateway py serve) s moments scenario).2.2 := by
  obtain ⟨entries, haudit, hentries⟩ := ran_audit ⟨buildGateway py serve, s, 0⟩ moments rfl
    scenario.name scenario.steps
  change List.Forall₂ _ _ (serveAll (runStep py moments scenario.name)
    ⟨buildGateway py serve, s, 0⟩ scenario.steps).1.gateway.audit
  rw [haudit]
  exact hentries

theorem failures_eq_nil {r : ScenarioResult} (h : Reported py serve s scenario r) :
    r.failures = [] ↔ r.passed = true := by
  rw [h.passed, ScenarioResult.failures, List.map_eq_nil_iff, List.filter_eq_nil_iff]
  have hall := List.forall₂_iff_get.mp h.steps
  constructor
  · intro hnone p hp
    obtain ⟨i, hi, rfl⟩ := List.getElem_of_mem hp
    have hlt : i < r.steps.length := hall.1 ▸ hi
    apply (hall.2 i hi hlt).passed.mp
    simpa using hnone _ (List.get_mem r.steps ⟨i, hlt⟩)
  · intro hmet step hstep
    obtain ⟨i, hi, rfl⟩ := List.getElem_of_mem hstep
    have hlt : i < (performed serve s scenario.steps).length := hall.1.symm ▸ hi
    have hpassed := (hall.2 i hlt hi).passed.mpr (hmet _ (List.get_mem _ ⟨i, hlt⟩))
    simpa using hpassed

variable {ran : List (ScenarioResult × List Bug × List (AuditEntry Dict))} {scenarios : List Scenario}

def Ran (py : PyTexts) (serve : S → Call → S × Except String Screen) (s : S)
    (scenarios : List Scenario) (ran : List (ScenarioResult × List Bug × List (AuditEntry Dict))) :
    Prop :=
  List.Forall₂ (fun scenario r => ∃ m, r = runFresh py (buildGateway py serve) s m scenario) scenarios ran

theorem ran_mapIdx (moments : ℕ → ℕ → Moment) (scenarios : List Scenario) :
    Ran py serve s scenarios
      (scenarios.mapIdx fun i => runFresh py (buildGateway py serve) s (moments i)) := by
  apply List.forall₂_iff_get.mpr
  refine ⟨List.length_mapIdx.symm, fun i hi hi' => ⟨moments i, ?_⟩⟩
  simp only [List.get_eq_getElem, List.getElem_mapIdx]

theorem Ran.reported (h : Ran py serve s scenarios ran) :
    List.Forall₂ (Reported py serve s) scenarios (ran.map fun r => r.1) := by
  apply List.forall₂_map_right_iff.mpr
  apply h.imp
  rintro scenario r ⟨m, rfl⟩
  exact reported_fresh scenario

theorem Ran.bugs (h : Ran py serve s scenarios ran) :
    ran.flatMap (fun r => r.2.1) = (ran.map fun r => r.1).flatMap ScenarioResult.failures := by
  rw [List.flatMap_map]
  apply List.flatMap_congr
  intro r hr
  obtain ⟨scenario, _, m, rfl⟩ := forall₂_right h r hr
  exact bugs_fresh scenario

theorem Ran.trace (h : Ran py serve s scenarios ran) :
    List.Forall₂ (fun p e => ∃ m, e = entry p.1.action m p.2)
      (scenarios.flatMap fun scenario => performed serve s scenario.steps)
      (ran.flatMap fun r => r.2.2) := by
  induction h with
  | nil => exact .nil
  | @cons scenario r scenarios ran hr _ ih =>
    obtain ⟨m, rfl⟩ := hr
    rw [List.flatMap_cons, List.flatMap_cons]
    exact List.rel_append (audit_fresh scenario) ih

theorem Ran.clean (h : Ran py serve s scenarios ran) :
    (∀ r ∈ ran, r.1.passed = true) ↔ ran.flatMap (fun r => r.2.1) = [] := by
  rw [List.flatMap_eq_nil_iff]
  apply forall₂_congr
  intro r hr
  obtain ⟨scenario, _, m, rfl⟩ := forall₂_right h r hr
  rw [bugs_fresh]
  exact (failures_eq_nil (reported_fresh scenario)).symm

theorem Ran.accounts (h : Ran py serve s scenarios ran) : Accounts py serve s scenarios (.of ran) where
  results := h.reported
  bugs := h.bugs
  passed := by
    simp only [QAReport.of, List.filter_map, List.length_map]
    rfl
  total := by
    have hle := List.length_filter_le (fun r => r.1.passed) ran
    have hlength := h.length_eq
    simp only [QAReport.of]
    omega
  clean := by
    have hle := List.length_filter_le (fun r => r.1.passed) ran
    have hclean := h.clean
    rw [← List.length_filter_eq_length_iff] at hclean
    simp only [QAReport.of]
    rw [← hclean]
    omega
  trace := h.trace

theorem qa_reports_account (py : PyTexts) (raised : String → String) (moments : ℕ → ℕ → Moment)
    (scenarios : List Scenario) :
    Accounts py UiSession.serve .new scenarios (runQa py moments scenarios) ∧
      Accounts py (Page.serve raised) .loaded scenarios
        (runQaPlaywright py raised moments scenarios) :=
  ⟨(ran_mapIdx moments scenarios).accounts, (ran_mapIdx moments scenarios).accounts⟩

end Workbench.Crm
