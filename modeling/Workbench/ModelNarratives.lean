import Workbench.ComplianceReview
import Workbench.IncidentReports

namespace Workbench.Narratives

open AgentRuntime PyJson Compliance Incidents

theorem findings_stand_iff {J : Type} (py : PyChars) (lib : IncidentLibrary) :
    (∀ (document : String) (rules : Option (List PolicyRule)) (answer : Option (StepOutput J)),
      ReviewStands py lib.toReplyLibrary document rules answer ↔
        ∀ out, answer = some out → Holds lib.loads out.text (Recommends lib.toReplyLibrary)) ∧
    ∀ (trace : TraceDetail) (answer : Option (StepOutput J)),
      RcaStands lib trace answer ↔ Classifiable lib trace ∧
        ∀ out, answer = some out → Holds lib.loads out.text (Explains lib) :=
  ⟨fun _ _ _ => review_stands_iff, fun _ _ => rca_stands_iff⟩

def nullAdvice : StepOutput Unit :=
  ⟨"\x7b\"summary\": \"High risk.\", \"recommendations\": null\x7d", [], "fake", "fake-model", ⟨20, 10⟩,
    none, 5, []⟩

def sampleLibrary : ReplyLibrary where
  loads text :=
    if text = nullAdvice.text then
      .ok (.dict [("summary", .str "High risk."), ("recommendations", .null)])
    else .error .decode
  str
    | .str text => .ok text
    | _ => .ok "None"

/-- Recommendations that are null are iterated over, and there is no report. -/
theorem null_recommendations_raise :
    reviewDocument asciiChars sampleLibrary "Stores SSN 123-45-6789." none
        (stepOf (some nullAdvice)) = .error ⟨"TypeError", ""⟩ ∧
      ¬ReviewStands asciiChars sampleLibrary "Stores SSN 123-45-6789." none (some nullAdvice) := by
  have hraises : reviewDocument asciiChars sampleLibrary "Stores SSN 123-45-6789." none
      (stepOf (some nullAdvice)) = .error ⟨"TypeError", ""⟩ := by decide +kernel
  refine ⟨hraises, ?_⟩
  rintro ⟨report, -, h, -⟩
  rw [hraises] at h
  cases h

end Workbench.Narratives
