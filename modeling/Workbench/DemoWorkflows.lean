import Workbench.ApprovalGates
import Workbench.VerdictReplies

namespace Workbench.DemoWorkflows

open KeyedTable PyJson Verdicts WorkflowEngine

abbrev State := WorkflowEngine.Dict String Json

def dict (rows : List (String × Json)) : State := rows.foldl Table.put (Table.empty _)

/-- `state.get(key, default)` -/
def get (s : State) (key : String) (default : Json) : Json :=
  ((Table.get s key).map Prod.snd).getD default

/-- `state[key]` -/
def item (s : State) (key : String) : Except PyError Json :=
  match Table.get s key with
  | some row => .ok row.2
  | none => .error (.keyError ("'" ++ key ++ "'"))

structure CompletionRequest where
  prompt : String
  complexity : AgentRuntime.Complexity
  maxTokens : ℤ

structure StepCall where
  latencyMs : ℤ
  complete : CompletionRequest → Except Exc String

def excOf (e : PyError) : Exc := ⟨e.typeName, (AgentRuntime.pyExc e).message⟩

section Steps

variable {J : Type} (lib : VerdictLibrary J)

def strOf : Json → String
  | .str text => text
  | v => lib.str v

def stripped (s : State) (key : String) : String := PyText.strip (strOf lib (get s key (.str "")))

/-- `v >= n` -/
def atLeast (n : ℤ) : Json → Except PyError Bool
  | .bool value => .ok (n ≤ value.toNat)
  | .int value => .ok (n ≤ value)
  | .float (some value) => .ok ((n : ℚ) ≤ value)
  | .float none =>
    match lib.nonFinite with
    | .finite q => .ok ((n : ℚ) ≤ q)
    | .posInf => .ok true
    | .negInf => .ok false
    | .nan => .ok false
  | _ => .error .typeError

/-- `v + 1` -/
def plusOne : Json → Except PyError Json
  | .bool value => .ok (.int (value.toNat + 1))
  | .int value => .ok (.int (value + 1))
  | .float value => .ok (.float (value.map (· + 1)))
  | _ => .error .typeError

/-- `text + v` -/
def plusText (text : String) : Json → Except PyError String
  | .str value => .ok (text ++ value)
  | _ => .error .typeError

def PyFloat.json : PyFloat → Json
  | .finite q => .float (some q)
  | _ => .float none

def maxRevisions : ℤ := 1

def validate (s : State) : Except Exc State :=
  let topic := stripped lib s "topic"
  if topic = "" then .error ⟨"ValueError", "input must contain a non-empty 'topic'"⟩
  else .ok (dict [("topic", .str topic), ("revisions", .int 0)])

def draft (s : State) (complete : CompletionRequest → Except Exc String) : Except Exc State :=
  ((item s "topic").mapError excOf).bind fun topic =>
    (complete ⟨"Write a 5-bullet executive brief on: " ++ strOf lib topic, .standard, 1024⟩).map
      fun text => dict [("draft", .str text)]

def reviewPrompt (brief : String) : String :=
  "Review this executive brief for clarity and substance. Respond with " ++
    "ONLY JSON: \x7b\"score\": <0.0-1.0>, \"passed\": <true|false>, " ++
    "\"feedback\": \"<one sentence>\"\x7d\n\nBrief:\n" ++ brief

def reviewStep (s : State) (complete : CompletionRequest → Except Exc String) : Except Exc State :=
  ((item s "draft").mapError excOf).bind fun brief =>
    (complete ⟨reviewPrompt (strOf lib brief), .judge, 512⟩).bind fun text =>
      ((review lib text).mapError excOf).map fun verdict =>
        dict [("review_score", PyFloat.json verdict.reviewScore),
          ("review_passed", .bool verdict.reviewPassed),
          ("review_feedback", .str verdict.reviewFeedback)]

def afterReview (s : State) : Except Exc String :=
  if (get s "review_passed" .null).truthy then .ok "finalize"
  else ((atLeast lib maxRevisions (get s "revisions" (.int 0))).mapError excOf).map fun spent =>
    if spent then "finalize" else "revise"

def revise (s : State) (complete : CompletionRequest → Except Exc String) : Except Exc State :=
  ((item s "draft").mapError excOf).bind fun brief =>
    (complete ⟨"Improve this executive brief. Reviewer feedback: " ++
        strOf lib (get s "review_feedback" (.str "")) ++ "\n\nBrief:\n" ++ strOf lib brief,
      .standard, 1024⟩).bind fun text =>
      ((plusOne (get s "revisions" (.int 0))).mapError excOf).map fun revisions =>
        dict [("draft", .str text), ("revisions", revisions)]

def header (topic : String) : String := "# Executive brief: " ++ topic ++ "\n\n"

def note (passed : Bool) : String := if passed then "" else "\n\n> note: shipped after max revisions"

def finalize (s : State) : Except Exc State :=
  ((item s "topic").mapError excOf).bind fun topic =>
    ((item s "draft").mapError excOf).bind fun brief =>
      ((plusText (header (strOf lib topic)) brief).mapError excOf).map fun text =>
        dict [("brief", .str (text ++ note (get s "review_passed" .null).truthy))]

def validateAccess (s : State) : Except Exc State :=
  let resource := stripped lib s "resource"
  let requester := stripped lib s "requester"
  if resource = "" ∨ requester = "" then
    .error ⟨"ValueError", "input must contain non-empty 'resource' and 'requester'"⟩
  else .ok (dict [("resource", .str resource), ("requester", .str requester)])

def assessPrompt (requester resource : String) : String :=
  "In one sentence, summarize the security risk of granting '" ++ requester ++ "' access to '" ++
    resource ++ "'."

def assessAccess (s : State) (complete : CompletionRequest → Except Exc String) : Except Exc State :=
  ((item s "requester").mapError excOf).bind fun requester =>
    ((item s "resource").mapError excOf).bind fun resource =>
      (complete ⟨assessPrompt (strOf lib requester) (strOf lib resource), .standard, 256⟩).map
        fun text => dict [("risk_assessment", .str text)]

def grantNote (resource requester : String) : String :=
  "Access to '" ++ resource ++ "' granted to '" ++ requester ++ "'."

def grantAccess (s : State) : Except Exc State :=
  ((item s "resource").mapError excOf).bind fun resource =>
    ((item s "requester").mapError excOf).map fun requester =>
      dict [("granted", .bool true),
        ("grant_note", .str (grantNote (strOf lib resource) (strOf lib requester)))]

structure Behaviour where
  run : String → State → (CompletionRequest → Except Exc String) → Except Exc State
  branch : State → Except Exc String

def briefBehaviour : Behaviour where
  run name s complete :=
    match name with
    | "validate" => validate lib s
    | "draft" => draft lib s complete
    | "review" => reviewStep lib s complete
    | "revise" => revise lib s complete
    | _ => finalize lib s
  branch := afterReview lib

def accessBehaviour : Behaviour where
  run name s complete :=
    match name with
    | "validate" => validateAccess lib s
    | "assess" => assessAccess lib s complete
    | _ => grantAccess lib s
  branch _ := .error stopIteration

end Steps

def validateDef : Step := ⟨"validate", .goto "draft", 1, 0, false, none⟩
def draftDef : Step := ⟨"draft", .goto "review", 2, 0, false, none⟩
def reviewDef : Step := ⟨"review", .branch, 2, 0, false, none⟩
def reviseDef : Step := ⟨"revise", .goto "review", 1, 0, false, none⟩
def finalizeDef : Step := ⟨"finalize", .stop, 1, 0, false, none⟩

def contentBrief : WorkflowDef where
  name := "content_brief"
  steps := [validateDef, draftDef, reviewDef, reviseDef, finalizeDef]
  nonempty := by simp
  unique := by simp [validateDef, draftDef, reviewDef, reviseDef, finalizeDef]
  known := by simp [validateDef, draftDef, reviewDef, reviseDef, finalizeDef]

def validateAccessDef : Step := ⟨"validate", .goto "assess", 1, 0, false, none⟩
def assessDef : Step := ⟨"assess", .goto "grant", 2, 0, false, none⟩
def grantDef : Step := ⟨"grant", .stop, 1, 0, true, some
  ("Approve granting this access? Review `risk_assessment` in the run " ++
    "state before deciding.")⟩

def accessRequest : WorkflowDef where
  name := "access_request"
  steps := [validateAccessDef, assessDef, grantDef]
  nonempty := by simp
  unique := by simp [validateAccessDef, assessDef, grantDef]
  known := by simp [validateAccessDef, assessDef, grantDef]

/-- What the next call out of the engine comes to. No step function changes the state it is given. -/
def reply (behaviour : Behaviour) (d : Drive State) (call : StepCall) : Reply State :=
  ⟨⟨call.latencyMs, d.run.state, match d.point with
    | .running step _ => .ofExcept (behaviour.run step.name d.run.state call.complete)
    | _ => .ok none⟩,
    ⟨d.run.state, (behaviour.branch d.run.state).map some⟩⟩

inductive DemoAction
  | call (c : StepCall)
  | decide (c : Decision)

def demoStep (behaviour : Behaviour) (wf : WorkflowDef) (d : Drive State) :
    DemoAction → Option (Drive State)
  | .call c => gateStep wf d (.reply (reply behaviour d c))
  | .decide c => gateStep wf d (.decide c)

end Workbench.DemoWorkflows
