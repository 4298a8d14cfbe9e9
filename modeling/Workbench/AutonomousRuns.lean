import Workbench.CallCosts
import Workbench.ModelReplies

/-!
`run_autonomous`: plan, act, reflect, repeat. What the router and the tools answer is up to the
replies of each round; `json.loads`, `str` of a value it gives, and the check of `remember`'s
arguments are up to the library.
-/

namespace Workbench.AgentRuntime

open Ledgers PyJson

variable {J : Type}

structure AutonomousLibrary (J : Type) where
  dumps : J → String
  loads : String → Except LoadsError Json
  str : Json → String
  rememberInput : J → Except String String

structure RoundReply (J : Type) where
  plan : StepRequest → Except Exc (StepOutput J)
  act : Agent → String → Option (List String) → ℕ → StepReply J
  reflect : StepRequest → Except Exc (StepOutput J)

structure Reflection where
  goalMet : Bool
  missing : String
  nextFocus : String
  deriving DecidableEq

structure Iteration where
  plan : List String
  actions : String
  reflection : Reflection
  deriving DecidableEq

structure AutonomousResult where
  goal : String
  iterations : List Iteration
  memory : List String
  finalAnswer : String
  completed : Bool
  costUsd : Option ℚ
  deriving DecidableEq

def actMaxSteps : ℤ := 12

def maxPlanSteps : ℕ := 6

def planSystem : String :=
  "You are an autonomous planner. Decompose the goal into an ordered list of concrete, " ++
    "actionable steps. Keep it short (<= 6 steps). Respond with ONLY JSON: \x7b\"steps\": " ++
    "[\"...\", \"...\"]\x7d"

def reflectSystem : String :=
  "You are a strict progress judge. Given the goal and what the agent has done so far, " ++
    "decide whether the goal is fully met. Respond with ONLY JSON: \x7b\"goal_met\": " ++
    "true|false, \"missing\": \"what is still missing (empty if met)\", \"next_focus\": " ++
    "\"what to focus on next (empty if met)\"\x7d"

def actInstructions : String :=
  "You are an autonomous execution agent working toward a goal. You have real coworker " ++
    "tools:\n- web_search + fetch_url for live web research (search first, then fetch " ++
    "sources).\n- run_sql to query the read-only sales/BI database (SELECT only; the schema " ++
    "is in the tool description).\n- write_file / read_file / list_files for a sandboxed " ++
    "file workspace.\n- calculator for arithmetic and utc_now for the current time instead " ++
    "of guessing.\n- remember to record any durable fact or result you discover.\nPrefer " ++
    "tools over guessing. When asked to produce a substantial deliverable (report, analysis, " ++
    "dataset), save it to a file with write_file and report the path. Work through the given " ++
    "plan and report concrete results."

def actTools : List String :=
  ["calculator", "utc_now", "remember", "web_search", "fetch_url", "run_sql", "write_file",
    "read_file", "list_files"]

def actAgent : Agent :=
  ⟨"autonomous-actor", actInstructions, actTools.map Tool.mk, .standard, actMaxSteps,
    2048, defaultPolicy⟩

section Parse

variable (lib : AutonomousLibrary J)

def extractObject (text : String) : Except PyError (Option Json) := loadObject lib.loads text

def parsePlan (text goal : String) : Except PyError (List String) :=
  (extractObject lib text).bind fun data =>
    match data with
    | some (.dict fields) => ((field fields "steps").getD (.list [])).iter.map fun raws =>
      let steps := (raws.map fun s => PyText.strip (lib.str s)).filter (· ≠ "")
      if steps = [] then [goal] else steps.take maxPlanSteps
    | _ => .ok [goal]

def parseReflection (text : String) : Except PyError Reflection :=
  (extractObject lib text).map fun data =>
    match data with
    | some (.dict fields) =>
      match field fields "goal_met" with
      | some goalMet => ⟨goalMet.truthy, lib.str ((field fields "missing").getD (.str "")),
          lib.str ((field fields "next_focus").getD (.str ""))⟩
      | none => ⟨false, "could not parse reflect response", ""⟩
    | _ => ⟨false, "could not parse reflect response", ""⟩

end Parse

def planPrompt (goal : String) (focus : Option String) : String :=
  "Goal: " ++ goal ++
    match focus with
    | some text => if text = "" then "" else "\n\nFocus this plan on what is still missing: " ++ text
    | none => ""

def actInput (goal : String) (steps : List String) : String :=
  "Goal: " ++ goal ++ "\n\nPlan for this round:\n" ++
    "\n".intercalate (steps.mapIdx fun i s => toString (i + 1) ++ ". " ++ s) ++
    "\n\nExecute the plan and report concrete results."

def reflectPrompt (goal : String) (memory : List String) (lastActions : String) : String :=
  let mem := "\n".intercalate (memory.map fun m => "- " ++ m)
  "Goal: " ++ goal ++ "\n\nScratchpad memory so far:\n" ++ (if mem = "" then "(empty)" else mem) ++
    "\n\nMost recent actions/result:\n" ++ lastActions

def remember (memory : List String) (note : String) : List String :=
  let note := PyText.strip note
  if note ≠ "" ∧ note ∉ memory then memory ++ [note] else memory

section Remember

variable (lib : AutonomousLibrary J)

def withRemember (r : StepReply J) : StepReply J :=
  { r with tool := fun k =>
    match r.out with
    | .error _ => r.tool k
    | .ok out =>
      match out.toolCalls[k]? with
      | none => r.tool k
      | some call =>
        if call.name = "remember" then
          match lib.rememberInput call.arguments with
          | .ok note => .returned ("remembered: " ++ PyText.strip note)
          | .error error => .invalid error
        else r.tool k }

def rememberAll (memory : List String) (steps : List (AgentStep J)) : List String :=
  (steps.flatMap fun step => step.output.toolCalls).foldl (fun memory call =>
    if call.name = "remember" then
      match lib.rememberInput call.arguments with
      | .ok note => remember memory note
      | .error _ => memory
    else memory) memory

end Remember

structure AutonomousState where
  memory : List String
  iterations : List Iteration
  cost : Option ℚ
  focus : Option String
  finalAnswer : String
  completed : Bool

section Engine

variable (lib : AutonomousLibrary J) (goal : String)

def plan (focus : Option String) (reply : StepRequest → Except Exc (StepOutput J)) :
    Ledger (StepOutput J) Exc (List String × Option ℚ) :=
  (Ledger.ask (reply ⟨planPrompt goal focus, .complex, planSystem, 512⟩)).bind fun out =>
    Ledger.ofExcept (((parsePlan lib out.text goal).mapError pyExc).map fun steps =>
      (steps, out.costUsd))

def reflect (memory : List String) (lastActions : String)
    (reply : StepRequest → Except Exc (StepOutput J)) :
    Ledger (StepOutput J) Exc (Reflection × Option ℚ) :=
  (Ledger.ask (reply ⟨reflectPrompt goal memory lastActions, .complex, reflectSystem, 512⟩)).bind
    fun out => Ledger.ofExcept (((parseReflection lib out.text).mapError pyExc).map fun reflection =>
      (reflection, out.costUsd))

def act (steps memory : List String) (reply : Agent → String → Option (List String) → ℕ → StepReply J) :
    Ledger (StepOutput J) Exc (AgentRun J) :=
  let input := actInput goal steps
  let memory := if memory = [] then none else some memory
  let env := fun index => withRemember lib (reply actAgent input memory index)
  ⟨runCalls lib.dumps actAgent input memory none none env,
    (runAgent lib.dumps actAgent input memory none none env).2⟩

def AutonomousState.result (s : AutonomousState) : AutonomousResult :=
  ⟨goal, s.iterations, s.memory, s.finalAnswer, s.completed, s.cost⟩

def nextFocus (reflection : Reflection) : Option String :=
  if reflection.nextFocus ≠ "" then some reflection.nextFocus
  else if reflection.missing ≠ "" then some reflection.missing else none

def memoryAfter (memory : List String) (run : AgentRun J) : List String :=
  rememberAll lib memory run.steps ++
    if run.finalText = "" then [] else ["Round result: " ++ run.finalText]

def AutonomousState.next (s : AutonomousState) (planned : List String × Option ℚ) (run : AgentRun J)
    (reflected : Reflection × Option ℚ) : AutonomousState where
  memory := memoryAfter lib s.memory run
  iterations := s.iterations ++ [⟨planned.1, run.finalText, reflected.1⟩]
  cost := addCost (addCost (addCost s.cost planned.2) run.costUsd) reflected.2
  focus := if reflected.1.goalMet then s.focus else nextFocus reflected.1
  finalAnswer := if run.finalText = "" then s.finalAnswer else run.finalText
  completed := reflected.1.goalMet

def iterate (env : ℕ → RoundReply J) : ℕ → ℕ → AutonomousState →
    Ledger (StepOutput J) Exc AutonomousResult
  | 0, _, s => .ofExcept (.ok (s.result goal))
  | n + 1, index, s =>
    (plan lib goal s.focus (env index).plan).bind fun planned =>
      (act lib goal planned.1 s.memory (env index).act).bind fun run =>
        (reflect lib goal (memoryAfter lib s.memory run) run.finalText (env index).reflect).bind
          fun reflected =>
            let s := s.next lib planned run reflected
            if reflected.1.goalMet then .ofExcept (.ok (s.result goal))
            else iterate env n (index + 1) s

def runAutonomous (maxIterations : ℤ) (env : ℕ → RoundReply J) :
    Ledger (StepOutput J) Exc AutonomousResult :=
  iterate lib goal env maxIterations.toNat 0 ⟨[], [], some 0, none, "", false⟩

end Engine

section Costs

variable {lib : AutonomousLibrary J} {goal : String}

theorem asked_cost {α : Type} {reply : Except Exc (StepOutput J)}
    {parse : StepOutput J → Except Exc α} {a : α} {cost : Option ℚ}
    (h : ((Ledger.ask reply).bind fun out =>
      Ledger.ofExcept ((parse out).map fun a => (a, out.costUsd))).result = .ok (a, cost)) :
    cost = costOf ((Ledger.ask reply).bind fun out =>
      Ledger.ofExcept ((parse out).map fun a => (a, out.costUsd))).calls := by
  obtain ⟨out, hask, hparse, hcalls⟩ := Ledger.bind_ok h
  rw [hcalls, Ledger.ask_ok hask]
  change cost = costOf ([out] ++ [])
  rw [List.append_nil, costOf_singleton]
  have hmap : (parse out).map (fun a => (a, out.costUsd)) = .ok (a, cost) := hparse
  cases hp : parse out with
  | error e =>
    rw [hp] at hmap
    cases hmap
  | ok a' =>
    rw [hp] at hmap
    cases hmap
    rfl

theorem act_cost {steps memory : List String}
    {reply : Agent → String → Option (List String) → ℕ → StepReply J} {run : AgentRun J}
    (h : (act lib goal steps memory reply).result = .ok run) :
    run.costUsd = costOf (act lib goal steps memory reply).calls :=
  (runAgent_counts h).2.1

theorem iterate_cost {env : ℕ → RoundReply J} {n index : ℕ} {s : AutonomousState}
    {result : AutonomousResult} (h : (iterate lib goal env n index s).result = .ok result) :
    result.costUsd = addCost s.cost (costOf (iterate lib goal env n index s).calls) := by
  induction n generalizing index s with
  | zero =>
    cases h
    exact (addCost_costOf_nil s.cost).symm
  | succ n ih =>
    unfold iterate at h ⊢
    obtain ⟨planned, hplan, h, hcalls⟩ := Ledger.bind_ok h
    rw [hcalls]
    obtain ⟨run, hrun, h, hcalls⟩ := Ledger.bind_ok h
    rw [hcalls]
    obtain ⟨reflected, hreflect, h, hcalls⟩ := Ledger.bind_ok h
    rw [hcalls]
    have hnext : (s.next lib planned run reflected).cost =
        addCost s.cost (costOf ((plan lib goal s.focus (env index).plan).calls ++
          ((act lib goal planned.1 s.memory (env index).act).calls ++
            (reflect lib goal (memoryAfter lib s.memory run) run.finalText
              (env index).reflect).calls))) := by
      have hplanned := asked_cost hplan
      have hreflected := asked_cost hreflect
      rw [costOf_append, costOf_append, ← addCost_assoc, ← addCost_assoc]
      change addCost (addCost (addCost s.cost planned.2) run.costUsd) reflected.2 = _
      rw [act_cost hrun, hplanned, hreflected]
      rfl
    simp only at h ⊢
    split_ifs at h ⊢ with hmet
    · cases h
      rw [Ledger.ofExcept_calls, List.append_nil]
      exact hnext
    · rw [ih h, hnext, addCost_assoc, ← costOf_append, List.append_assoc, List.append_assoc]

theorem accounting_exact :
    (∀ (dumps : J → String) (agent : Agent) (userInput : String)
      (memory retrieved : Option (List String)) (taskState : Option String) (env : ℕ → StepReply J)
      (run : AgentRun J),
      (runAgent dumps agent userInput memory retrieved taskState env).2 = .ok run →
        run.usage = usageOfCalls (runCalls dumps agent userInput memory retrieved taskState env) ∧
        run.costUsd = costOf (runCalls dumps agent userInput memory retrieved taskState env) ∧
        ∀ step ∈ run.steps, Executes step) ∧
    ∀ (lib : AutonomousLibrary J) (goal : String) (maxIterations : ℤ) (env : ℕ → RoundReply J)
      (result : AutonomousResult), (runAutonomous lib goal maxIterations env).result = .ok result →
        result.costUsd = costOf (runAutonomous lib goal maxIterations env).calls := by
  constructor
  · intro dumps agent userInput memory retrieved taskState env run h
    exact runAgent_counts h
  · intro lib goal maxIterations env result h
    have hcost := iterate_cost h
    rw [addCost_zero] at hcost
    exact hcost

def counting : Agent :=
  ⟨"counter", "Count.", [⟨"echo"⟩], .standard, 8, 2048, ⟨10, 1 / 2, 2, 512⟩⟩

def charged (text : String) (toolCalls : List (ToolCall Unit)) (usage : Usage) (cost : Option ℚ) :
    Except Exc (StepOutput Unit) :=
  .ok ⟨text, toolCalls, "mock", "m", usage, cost, 3, []⟩

def countTwice (first second : String) : ℕ → StepReply Unit
  | 0 => ⟨charged "" [] .zero none,
      charged "" [⟨"a", first, ()⟩, ⟨"b", second, ()⟩] ⟨10, 2⟩ (some (1 / 4)), fun _ => .returned "echo"⟩
  | _ => ⟨charged "summary" [] ⟨7, 1⟩ (some (1 / 8)), charged "done" [] ⟨5, 3⟩ (some (1 / 2)),
      fun _ => .returned "echo"⟩

def goalJson (met : String) : String := "\x7b\"goal_met\": " ++ met ++ "\x7d"

def countingLibrary : AutonomousLibrary Unit where
  dumps _ := "\x7b\x7d"
  loads text := .ok (.dict [("goal_met", .bool (text = goalJson "true"))])
  str _ := ""
  rememberInput _ := .ok "a fact"

def countRounds (index : ℕ) : RoundReply Unit where
  plan _ := charged "" [] ⟨1, 1⟩ (some (1 / 4))
  act _ _ _ := countTwice "remember" "calculator"
  reflect _ :=
    if index = 0 then charged (goalJson "false") [] ⟨1, 1⟩ (some 1)
    else charged (goalJson "true") [] ⟨1, 1⟩ none

def countedRun : Except Exc (AgentRun Unit) :=
  (runAgent countingLibrary.dumps counting "Count." none none none (countTwice "echo" "echo")).2

def countedCalls : List (StepOutput Unit) :=
  runCalls countingLibrary.dumps counting "Count." none none none (countTwice "echo" "echo")

theorem met_goal_accounted :
    (∃ run, countedRun = .ok run ∧ run.compactions.length = 1 ∧ run.usage = ⟨22, 6⟩ ∧
      run.usage = usageOfCalls countedCalls ∧ run.costUsd = costOf countedCalls ∧
      ∀ step ∈ run.steps, Executes step) ∧
    ∃ result, (runAutonomous countingLibrary "Count." 3 countRounds).result = .ok result ∧
      result.iterations.length = 2 ∧
      result.costUsd = costOf (runAutonomous countingLibrary "Count." 3 countRounds).calls := by
  constructor
  · have hfacts : countedRun.toOption.map (fun run => (run.compactions.length, run.usage)) =
        some (1, ⟨22, 6⟩) := by decide +kernel
    cases hrun : countedRun with
    | error exc =>
      rw [hrun] at hfacts
      cases hfacts
    | ok run =>
      rw [hrun] at hfacts
      obtain ⟨hfolds, husage⟩ := Prod.mk.inj (Option.some.inj hfacts)
      exact ⟨run, rfl, hfolds, husage, accounting_exact.1 _ counting "Count." none none none _ run hrun⟩
  · have hfacts : (runAutonomous countingLibrary "Count." 3 countRounds).result.toOption.map
        (fun result => result.iterations.length) = some 2 := by decide +kernel
    cases hresult : (runAutonomous countingLibrary "Count." 3 countRounds).result with
    | error exc =>
      rw [hresult] at hfacts
      cases hfacts
    | ok result =>
      rw [hresult] at hfacts
      exact ⟨result, rfl, Option.some.inj hfacts, accounting_exact.2 _ "Count." 3 _ result hresult⟩

end Costs

end Workbench.AgentRuntime
