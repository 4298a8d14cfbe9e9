import Workbench.CompliancePolicy
import Workbench.ModelReplies

namespace Workbench.Compliance

open AgentRuntime PyJson

variable {J : Type}

structure RiskReport where
  riskScore : ℕ
  riskBand : RiskBand
  piiFindings : List PiiFinding
  policyViolations : List PolicyViolation
  summary : String
  recommendations : List String
  provider : String
  model : String
  costUsd : Option ℚ
  deriving DecidableEq

def reviewSystem : String :=
  "You are a compliance officer. You are given automated findings (PII matches " ++
    "and policy-rule violations) for a document. Write a short risk summary and " ++
    "concrete remediation recommendations. Do NOT invent findings beyond those " ++
    "given. Respond with ONLY JSON: \x7b\"summary\": \"...\", \"recommendations\": [\"...\"]\x7d"

def orNone (text : String) : String := if text = "" then "none" else text

def findingsBrief (pii : List PiiFinding) (violations : List PolicyViolation) : String :=
  let piiStr := ", ".intercalate (pii.map fun f => toString f.count ++ "× " ++ f.type.text)
  let vioStr := "; ".intercalate (violations.map fun v => "[" ++ v.severity.text ++ "] " ++ v.description)
  "PII detected: " ++ orNone piiStr ++ "\nPolicy violations: " ++ orNone vioStr

def reviewPrompt (pii : List PiiFinding) (violations : List PolicyViolation) : String :=
  let risk := scoreRisk pii violations
  findingsBrief pii violations ++ "\n\nRisk score: " ++ toString risk.1 ++ "/100 (" ++ risk.2.text ++ ")."

def findingsReport (pii : List PiiFinding) (violations : List PolicyViolation) : RiskReport :=
  let risk := scoreRisk pii violations
  ⟨risk.1, risk.2, pii, violations, "", [], "", "", none⟩

section Review

variable (py : PyChars) (lib : ReplyLibrary)

def narrate (report : RiskReport) (data : Json) : Except PyError RiskReport :=
  (data.get "summary" (.str "")).bind fun summary => (lib.str summary).bind fun summary =>
    (data.get "recommendations" (.list [])).bind fun value => value.iter.bind fun items =>
      (items.mapM lib.str).map fun recommendations => { report with summary, recommendations }

def narrated (report : RiskReport) (out : StepOutput J) : Except PyError RiskReport :=
  let report := { report with provider := out.provider, model := out.model, costUsd := out.costUsd }
  (loadObject lib.loads out.text).bind fun data => data.elim (.ok report) (narrate lib report)

def reviewDocument (document : String) (rules : Option (List PolicyRule))
    (step : StepRequest → Except Exc (StepOutput J)) : Except Exc RiskReport :=
  ((scanPii py document).mapError pyExc).bind fun pii =>
    let violations := checkPolicies py document (rules.getD defaultRules)
    let report := findingsReport pii violations
    match step ⟨reviewPrompt pii violations, .standard, reviewSystem, 768⟩ with
    | .error exc => if exc.typeName = "NoProviderAvailableError" then .ok report else .error exc
    | .ok out => (narrated lib report out).mapError pyExc

def RiskReport.findings (r : RiskReport) : ℕ × RiskBand × List PiiFinding × List PolicyViolation :=
  (r.riskScore, r.riskBand, r.piiFindings, r.policyViolations)

def ReviewStands (document : String) (rules : Option (List PolicyRule))
    (answer : Option (StepOutput J)) : Prop :=
  ∃ report alone, reviewDocument py lib document rules (stepOf answer) = .ok report ∧
    reviewDocument py lib document rules (stepOf (none : Option (StepOutput J))) = .ok alone ∧
    report.findings = alone.findings

/-- An object whose recommendations, if it has any, are something to iterate over, and whose texts
`str` can write. -/
def Recommends (data : Json) : Prop :=
  ∃ fields, data = .dict fields ∧ Fine (lib.str ((field fields "summary").getD (.str ""))) ∧
    ((field fields "recommendations").getD (.list [])).iterable ∧
    ∀ items, ((field fields "recommendations").getD (.list [])).iter = .ok items →
      ∀ item ∈ items, Fine (lib.str item)

end Review

variable {py : PyChars} {lib : ReplyLibrary} {document : String} {rules : Option (List PolicyRule)}

theorem fine_narrate {report : RiskReport} {data : Json} :
    Fine (narrate lib report data) ↔ Recommends lib data := by
  rw [narrate, Json.fine_get_bind]
  constructor
  · rintro ⟨fields, rfl, h⟩
    obtain ⟨summary, hsummary, h⟩ := fine_bind.mp h
    rw [Json.get_dict_bind] at h
    obtain ⟨items, hitems, h⟩ := fine_bind.mp h
    rw [fine_map, fine_mapM] at h
    refine ⟨fields, rfl, ⟨summary, hsummary⟩, Json.fine_iter.mp ⟨items, hitems⟩, ?_⟩
    intro others hothers
    cases hitems.symm.trans hothers
    exact h
  · rintro ⟨fields, rfl, ⟨summary, hsummary⟩, hiter, hstr⟩
    obtain ⟨items, hitems⟩ := Json.fine_iter.mpr hiter
    refine ⟨fields, rfl, fine_bind.mpr ⟨summary, hsummary, ?_⟩⟩
    rw [Json.get_dict_bind]
    exact fine_bind.mpr ⟨items, hitems, fine_map.mpr (fine_mapM.mpr (hstr items hitems))⟩

theorem narrate_findings {report told : RiskReport} {data : Json}
    (h : narrate lib report data = .ok told) : told.findings = report.findings := by
  unfold narrate at h
  simp only [bind_eq_ok, map_eq_ok] at h
  obtain ⟨-, -, -, -, -, -, -, -, -, -, rfl⟩ := h
  rfl

theorem fine_narrated {report : RiskReport} {out : StepOutput J} :
    Fine (narrated lib report out) ↔ Holds lib.loads out.text (Recommends lib) := by
  rw [narrated, fine_loadObject]
  exact Holds.congr fun data => fine_narrate

theorem narrated_findings {report told : RiskReport} {out : StepOutput J}
    (h : narrated lib report out = .ok told) : told.findings = report.findings := by
  have hkeeps := loadObject_keeps (fun data told => narrate_findings) h
  exact hkeeps

theorem reviewDocument_eq {pii : List PiiFinding} (hpii : scanPii py document = .ok pii)
    (answer : Option (StepOutput J)) :
    reviewDocument py lib document rules (stepOf answer) =
      match answer with
      | none => .ok (findingsReport pii (checkPolicies py document (rules.getD defaultRules)))
      | some out => (narrated lib
          (findingsReport pii (checkPolicies py document (rules.getD defaultRules))) out).mapError pyExc := by
  rw [reviewDocument, hpii]
  cases answer with
  | none => rfl
  | some out => rfl

theorem review_stands_iff {answer : Option (StepOutput J)} :
    ReviewStands py lib document rules answer ↔
      ∀ out, answer = some out → Holds lib.loads out.text (Recommends lib) := by
  obtain ⟨pii, hpii⟩ := scanPii_fine py document
  unfold ReviewStands
  rw [reviewDocument_eq hpii, reviewDocument_eq hpii]
  cases answer with
  | none => simp
  | some out =>
    simp only [Option.some.injEq, forall_eq', mapError_eq_ok]
    rw [← fine_narrated]
    constructor
    · rintro ⟨report, -, h, -⟩
      exact ⟨report, h⟩
    · rintro ⟨report, h⟩
      exact ⟨report, _, h, rfl, narrated_findings h⟩

end Workbench.Compliance
