import Workbench.DemoWorkflows

namespace Workbench.DemoWorkflows

open KeyedTable PyJson Verdicts WorkflowEngine Transitions

theorem item_updated (s : State) (rows : List (String × Json)) (key : String) :
    item (StateDict.update s (dict rows)) key =
      match Table.get (dict rows) key with
      | some row => .ok row.2
      | none => item s key := by
  change item (Table.putAll s (dict rows).rows) key = _
  cases hg : Table.get (dict rows) key with
  | none =>
    have hnot : key ∉ (dict rows).rows.map Prod.fst := by
      rw [Table.mem_keys, hg]
      simp
    unfold item
    rw [Table.get_putAll_of_notMem hnot]
  | some row =>
    obtain rfl := Table.key_of_get hg
    unfold item
    rw [Table.get_putAll_of_mem (dict rows).unique (Table.mem_of_get hg)]

theorem get_of_item {s : State} {key : String} {v : Json} (h : item s key = .ok v) (default : Json) :
    get s key default = v := by
  unfold item at h
  split at h
  · rename_i row hrow
    cases h
    unfold get
    rw [hrow]
    rfl
  · cases h

section Engine

variable {behaviour : Behaviour} {wf : WorkflowDef} {d t : Drive State} {c : StepCall} {step : Step}
  {n : ℤ}

theorem demoStep_running (hp : d.point = .running step n) (hdelay : step.retryDelayS = 0) :
    demoStep behaviour wf d (.call c) =
      some (match behaviour.run step.name d.run.state c.complete with
        | .error exc => tryAttempt d.approved
            (recordFailure d.run step n ⟨c.latencyMs, d.run.state, .error exc⟩ exc) step (n + 1)
        | .ok updates => advance wf d.approved
            (recordSuccess d.run step n ⟨c.latencyMs, d.run.state, .ok (some updates)⟩ (some updates))
            step) := by
  simp only [demoStep, gateStep, answer, hp, reply]
  cases hr : behaviour.run step.name d.run.state c.complete with
  | error exc => simp [StepResult.ofExcept, hdelay]
  | ok updates => simp [StepResult.ofExcept]

theorem demoStep_branching (hp : d.point = .branching step) :
    demoStep behaviour wf d (.call c) =
      some (match behaviour.branch d.run.state with
        | .error exc => ⟨d.approved, d.run, .raised exc⟩
        | .ok current => loopHead wf d.approved d.run (some current)) := by
  simp only [demoStep, gateStep, answer, hp, reply]
  cases hr : behaviour.branch d.run.state with
  | error exc => rfl
  | ok current => rfl

theorem loopHead_begins {approved : List String} {run : WorkflowRun State} {name : String} (step : Step)
    (hs : wf.step name = some step) (hb : run.stepsExecuted < maxStepsPerRun)
    (ha : step.requiresApproval = true → step.name ∈ approved) (hm : 1 ≤ step.maxAttempts) :
    loopHead wf approved run (some name) =
      ⟨approved, { run with stepsExecuted := run.stepsExecuted + 1 }, .running step 1⟩ := by
  have hgate : ¬(step.requiresApproval = true ∧ step.name ∉ approved) := fun h => h.2 (ha h.1)
  simp only [loopHead, if_neg (Nat.not_le.mpr hb), hs, if_neg hgate, tryAttempt, if_pos hm]

end Engine

section Brief

variable {J : Type} (lib : VerdictLibrary J) (input : State)

def Sent (calls : List StepCall) (text : String) : Prop :=
  ∃ call ∈ calls, ∃ request, call.complete request = .ok text

theorem Sent.append {calls : List StepCall} {text : String} (h : Sent calls text) (c : StepCall) :
    Sent (calls ++ [c]) text := by
  obtain ⟨call, hmem, hanswer⟩ := h
  exact ⟨call, List.mem_append_left [c] hmem, hanswer⟩

structure Named (s : State) (revisions : ℕ) : Prop where
  filled : stripped lib input "topic" ≠ ""
  topic : item s "topic" = .ok (.str (stripped lib input "topic"))
  revisions : item s "revisions" = .ok (.int revisions)

structure Drafted (calls : List StepCall) (s : State) (revisions : ℕ) : Prop
    extends Named lib input s revisions where
  draft : ∃ text, Sent calls text ∧ item s "draft" = .ok (.str text)

structure Live (calls : List StepCall) (run : WorkflowRun State) (steps branches most : ℕ) : Prop where
  status : run.status = .running
  error : run.error = none
  executed : run.stepsExecuted = steps
  attempts : run.attempts.length ≤ most
  asked : calls.length = run.attempts.length + branches

def briefOf (topic text : String) (passed : Bool) : String := header topic ++ text ++ note passed

/-- The brief is about the topic that was asked for, its text is the model's, and the note is left
out exactly when the last review passed; one that did not was revised once. -/
structure Delivered (calls : List StepCall) (run : WorkflowRun State) : Prop where
  status : run.status = .completed
  error : run.error = none
  filled : stripped lib input "topic" ≠ ""
  brief : ∃ text passed, ∃ revisions : ℕ, Sent calls text ∧ revisions ≤ 1 ∧ (passed = false → revisions = 1) ∧
    item run.state "draft" = .ok (.str text) ∧ item run.state "revisions" = .ok (.int revisions) ∧
    item run.state "review_passed" = .ok (.bool passed) ∧
    item run.state "brief" = .ok (.str (briefOf (stripped lib input "topic") text passed))

structure Failed (run : WorkflowRun State) : Prop where
  status : run.status = .failed
  error : ∃ step ∈ [validateDef, draftDef, reviewDef, reviseDef],
    run.error = some (attemptsError step) ∧ (step = validateDef ↔ stripped lib input "topic" = "")

structure Ended (calls : List StepCall) (run : WorkflowRun State) : Prop where
  executed : run.stepsExecuted ≤ 6
  attempts : run.attempts.length ≤ 9
  asked : calls.length ≤ 11
  outcome : Delivered lib input calls run ∨ Failed lib input run

inductive Place (calls : List StepCall) (run : WorkflowRun State) : Point → Prop
  | validating (h : Live calls run 1 0 0) (hs : run.state = input) :
      Place calls run (.running validateDef 1)
  | drafting (n : ℕ) (hn : n < 2) (h : Live calls run 2 0 (n + 1)) (hs : Named lib input run.state 0) :
      Place calls run (.running draftDef (n + 1))
  | reviewing (k n : ℕ) (hk : k ≤ 1) (hn : n < 2) (h : Live calls run (3 + 2 * k) k (3 + 3 * k + n))
      (hs : Drafted lib input calls run.state k) : Place calls run (.running reviewDef (n + 1))
  | deciding (k : ℕ) (passed : Bool) (hk : k ≤ 1) (h : Live calls run (3 + 2 * k) k (5 + 3 * k))
      (hs : Drafted lib input calls run.state k)
      (hv : item run.state "review_passed" = .ok (.bool passed)) :
      Place calls run (.branching reviewDef)
  | revising (h : Live calls run 4 1 5) (hs : Drafted lib input calls run.state 0) :
      Place calls run (.running reviseDef 1)
  | finalizing (k : ℕ) (passed : Bool) (hk : k ≤ 1) (hp : passed = false → k = 1)
      (h : Live calls run (4 + 2 * k) (k + 1) (5 + 3 * k)) (hs : Drafted lib input calls run.state k)
      (hv : item run.state "review_passed" = .ok (.bool passed)) :
      Place calls run (.running finalizeDef 1)
  | ended (h : Ended lib input calls run) : Place calls run .returned

variable {lib input} {calls : List StepCall} {run : WorkflowRun State} {c : StepCall} {step : Step}
  {n : ℤ} {steps branches most : ℕ}

theorem Named.updated {s : State} {k : ℕ} {rows : List (String × Json)} (h : Named lib input s k)
    (htopic : Table.get (dict rows) "topic" = none)
    (hrevisions : Table.get (dict rows) "revisions" = none) :
    Named lib input (StateDict.update s (dict rows)) k := by
  constructor
  · exact h.filled
  · rw [item_updated, htopic]
    exact h.topic
  · rw [item_updated, hrevisions]
    exact h.revisions

theorem Drafted.updated {s : State} {k : ℕ} {rows : List (String × Json)}
    (h : Drafted lib input calls s k) (htopic : Table.get (dict rows) "topic" = none)
    (hrevisions : Table.get (dict rows) "revisions" = none)
    (hdraft : Table.get (dict rows) "draft" = none) (c : StepCall) :
    Drafted lib input (calls ++ [c]) (StateDict.update s (dict rows)) k := by
  obtain ⟨text, hsent, htext⟩ := h.draft
  refine ⟨h.toNamed.updated htopic hrevisions, text, hsent.append c, ?_⟩
  rw [item_updated, hdraft]
  exact htext

theorem Drafted.append {s : State} {k : ℕ} (h : Drafted lib input calls s k) (c : StepCall) :
    Drafted lib input (calls ++ [c]) s k := by
  obtain ⟨text, hsent, htext⟩ := h.draft
  exact ⟨h.toNamed, text, hsent.append c, htext⟩

theorem Live.failure (h : Live calls run steps branches most) (step : Step) (n : ℤ) (c : StepCall)
    (exc : Exc) :
    Live (calls ++ [c]) (recordFailure run step n ⟨c.latencyMs, run.state, .error exc⟩ exc)
      steps branches (most + 1) := by
  have hattempts := h.attempts
  have hcalls := h.asked
  refine ⟨h.status, h.error, h.executed, ?_, ?_⟩
  · simp only [recordFailure, List.length_append, List.length_singleton]
    omega
  · simp only [recordFailure, List.length_append, List.length_singleton]
    omega

theorem Live.success (h : Live calls run steps branches most) (step : Step) (n : ℤ) (c : StepCall)
    (updates : State) :
    Live (calls ++ [c])
      (recordSuccess run step n ⟨c.latencyMs, run.state, .ok (some updates)⟩ (some updates))
      steps branches (most + 1) := by
  have hattempts := h.attempts
  have hcalls := h.asked
  refine ⟨h.status, h.error, h.executed, ?_, ?_⟩
  · simp only [recordSuccess, List.length_append, List.length_singleton]
    omega
  · simp only [recordSuccess, List.length_append, List.length_singleton]
    omega

theorem Live.begins (h : Live calls run steps branches most) :
    Live calls { run with stepsExecuted := run.stepsExecuted + 1 } (steps + 1) branches most :=
  ⟨h.status, h.error, congrArg (· + 1) h.executed, h.attempts, h.asked⟩

theorem Live.branched (h : Live calls run steps branches most) (c : StepCall) :
    Live (calls ++ [c]) run steps (branches + 1) most := by
  have hcalls := h.asked
  refine ⟨h.status, h.error, h.executed, h.attempts, ?_⟩
  rw [List.length_append, List.length_singleton]
  omega

theorem Live.mono (h : Live calls run steps branches most) (more : ℕ) (hle : most ≤ more) :
    Live calls run steps branches more :=
  ⟨h.status, h.error, h.executed, h.attempts.trans hle, h.asked⟩

theorem Live.fails (h : Live calls run steps branches most) (hsteps : steps ≤ 6)
    (hmost : most ≤ 9) (hbranches : branches ≤ 2)
    (hstep : step ∈ [validateDef, draftDef, reviewDef, reviseDef])
    (hinput : step = validateDef ↔ stripped lib input "topic" = "") (approved : List String)
    (hn : ¬n ≤ step.maxAttempts) :
    Place lib input calls (tryAttempt approved run step n).run (tryAttempt approved run step n).point := by
  have hattempts := h.attempts
  have hcalls := h.asked
  have hexecuted := h.executed
  unfold tryAttempt
  rw [if_neg hn]
  refine .ended ⟨?_, ?_, ?_, .inr ⟨rfl, step, hstep, rfl, hinput⟩⟩
  · change run.stepsExecuted ≤ 6
    omega
  · change run.attempts.length ≤ 9
    omega
  · omega

theorem advance_goto {wf : WorkflowDef} {name : String} (approved : List String) (next : Step)
    (hnext : step.next = .goto name) (hs : wf.step name = some next)
    (hb : run.stepsExecuted < maxStepsPerRun) (ha : next.requiresApproval = false)
    (hm : 1 ≤ next.maxAttempts) : advance wf approved run step =
      ⟨approved, { run with stepsExecuted := run.stepsExecuted + 1 }, .running next 1⟩ := by
  unfold advance
  rw [hnext]
  exact loopHead_begins next hs hb (fun h => by rw [ha] at h; cases h) hm

theorem advance_stop {wf : WorkflowDef} (approved : List String) (hnext : step.next = .stop)
    (hstatus : run.status = .running) :
    advance wf approved run step = ⟨approved, { run with status := .completed }, .returned⟩ := by
  unfold advance
  rw [hnext]
  simp only [loopHead, finish, if_pos hstatus]

variable {d : Drive State}

theorem Place.validated (h : Live calls d.run 1 0 0) (hs : d.run.state = input)
    (hp : d.point = .running validateDef 1) :
    ∃ t, demoStep (briefBehaviour lib) contentBrief d (.call c) = some t ∧
      Place lib input (calls ++ [c]) t.run t.point := by
  rw [demoStep_running hp rfl]
  refine ⟨_, rfl, ?_⟩
  by_cases htopic : stripped lib input "topic" = ""
  · have herror : (briefBehaviour lib).run validateDef.name d.run.state c.complete =
        .error ⟨"ValueError", "input must contain a non-empty 'topic'"⟩ := by
      simp [briefBehaviour, validateDef, validate, hs, htopic]
    rw [herror]
    exact (h.failure validateDef 1 c _).fails (by omega) (by omega) (by omega) (by simp) (by simp [htopic])
      d.approved (by simp [validateDef])
  · have hok : (briefBehaviour lib).run validateDef.name d.run.state c.complete =
        .ok (dict [("topic", .str (stripped lib input "topic")), ("revisions", .int 0)]) := by
      simp [briefBehaviour, validateDef, validate, hs, htopic]
    rw [hok]
    have hlive := h.success validateDef 1 c
      (dict [("topic", .str (stripped lib input "topic")), ("revisions", .int 0)])
    dsimp only
    rw [advance_goto d.approved draftDef rfl rfl (by rw [hlive.executed]; decide) rfl
      (by decide)]
    refine .drafting 0 (by omega) hlive.begins ⟨htopic, ?_, ?_⟩
    · exact item_updated _ _ _
    · exact item_updated _ _ _

theorem Place.drafted {k : ℕ} (hk : k < 2) (h : Live calls d.run 2 0 (k + 1))
    (hs : Named lib input d.run.state 0) (hp : d.point = .running draftDef (k + 1)) :
    ∃ t, demoStep (briefBehaviour lib) contentBrief d (.call c) = some t ∧
      Place lib input (calls ++ [c]) t.run t.point := by
  have hrun : (briefBehaviour lib).run draftDef.name d.run.state c.complete =
      (c.complete ⟨"Write a 5-bullet executive brief on: " ++ stripped lib input "topic",
        .standard, 1024⟩).map fun text => dict [("draft", .str text)] := by
    simp only [briefBehaviour, draftDef, draft, hs.topic]
    rfl
  rw [demoStep_running hp rfl, hrun]
  refine ⟨_, rfl, ?_⟩
  cases hanswer : c.complete ⟨"Write a 5-bullet executive brief on: " ++ stripped lib input "topic",
      .standard, 1024⟩ with
  | error exc =>
    have hlive := h.failure draftDef (k + 1) c exc
    by_cases hlast : ((k : ℤ) + 1 + 1) ≤ draftDef.maxAttempts
    · simp only [Except.map, tryAttempt, if_pos hlast]
      have hzero : k = 0 := by
        change (k : ℤ) + 1 + 1 ≤ 2 at hlast
        omega
      subst hzero
      exact .drafting 1 (by omega) hlive hs
    · exact hlive.fails (by omega) (by omega) (by omega) (by simp)
        (by simp [hs.filled, draftDef, validateDef]) d.approved hlast
  | ok text =>
    have hlive := h.success draftDef (k + 1) c (dict [("draft", .str text)])
    simp only [Except.map]
    rw [advance_goto d.approved reviewDef rfl rfl (by rw [hlive.executed]; decide) rfl
      (by decide)]
    refine .reviewing 0 0 (by omega) (by omega) (hlive.begins.mono _ (by omega)) ?_
    refine ⟨hs.updated rfl rfl, text, ?_, item_updated _ _ _⟩
    exact ⟨c, by simp, _, hanswer⟩

theorem reviewStep_ok {s updates : State} {complete : CompletionRequest → Except Exc String}
    (h : reviewStep lib s complete = .ok updates) : ∃ verdict : Review, updates =
      dict [("review_score", PyFloat.json verdict.reviewScore),
        ("review_passed", .bool verdict.reviewPassed),
        ("review_feedback", .str verdict.reviewFeedback)] := by
  obtain ⟨brief, -, h⟩ := bind_eq_ok.mp h
  obtain ⟨text, -, h⟩ := bind_eq_ok.mp h
  obtain ⟨verdict, -, rfl⟩ := map_eq_ok.mp h
  exact ⟨verdict, rfl⟩

theorem Place.reviewed {k m : ℕ} (hk : k ≤ 1) (hm : m < 2)
    (h : Live calls d.run (3 + 2 * k) k (3 + 3 * k + m)) (hs : Drafted lib input calls d.run.state k)
    (hp : d.point = .running reviewDef (m + 1)) :
    ∃ t, demoStep (briefBehaviour lib) contentBrief d (.call c) = some t ∧
      Place lib input (calls ++ [c]) t.run t.point := by
  have hrun : (briefBehaviour lib).run reviewDef.name d.run.state c.complete =
      reviewStep lib d.run.state c.complete := rfl
  rw [demoStep_running hp rfl, hrun]
  refine ⟨_, rfl, ?_⟩
  cases hreview : reviewStep lib d.run.state c.complete with
  | error exc =>
    have hlive := h.failure reviewDef (m + 1) c exc
    by_cases hlast : ((m : ℤ) + 1 + 1) ≤ reviewDef.maxAttempts
    · simp only [tryAttempt, if_pos hlast]
      have hzero : m = 0 := by
        change (m : ℤ) + 1 + 1 ≤ 2 at hlast
        omega
      subst hzero
      exact .reviewing k 1 hk (by omega) hlive (hs.append c)
    · exact hlive.fails (by omega) (by omega) (by omega) (by simp)
        (by simp [hs.filled, reviewDef, validateDef]) d.approved hlast
  | ok updates =>
    obtain ⟨verdict, rfl⟩ := reviewStep_ok hreview
    have hlive := (h.success reviewDef (m + 1) c
      (dict [("review_score", PyFloat.json verdict.reviewScore),
        ("review_passed", .bool verdict.reviewPassed),
        ("review_feedback", .str verdict.reviewFeedback)])).mono (5 + 3 * k) (by omega)
    exact .deciding k verdict.reviewPassed hk hlive (hs.updated rfl rfl rfl c) (item_updated _ _ _)

theorem Place.decided {k : ℕ} {passed : Bool} (hk : k ≤ 1)
    (h : Live calls d.run (3 + 2 * k) k (5 + 3 * k)) (hs : Drafted lib input calls d.run.state k)
    (hv : item d.run.state "review_passed" = .ok (.bool passed))
    (hp : d.point = .branching reviewDef) :
    ∃ t, demoStep (briefBehaviour lib) contentBrief d (.call c) = some t ∧
      Place lib input (calls ++ [c]) t.run t.point := by
  have hbranch : (briefBehaviour lib).branch d.run.state =
      .ok (if passed = false ∧ k = 0 then "revise" else "finalize") := by
    simp only [briefBehaviour, afterReview, get_of_item hv, get_of_item hs.revisions, atLeast,
      maxRevisions, Json.truthy]
    cases passed with
    | true => rfl
    | false =>
      have hcases : k = 0 ∨ k = 1 := by omega
      cases hcases with
      | inl hzero => subst hzero; rfl
      | inr hone => subst hone; rfl
  rw [demoStep_branching hp, hbranch]
  refine ⟨_, rfl, ?_⟩
  have hbudget : d.run.stepsExecuted < maxStepsPerRun := by
    rw [h.executed]
    unfold maxStepsPerRun
    omega
  by_cases hagain : passed = false ∧ k = 0
  · rw [if_pos hagain]
    obtain ⟨-, rfl⟩ := hagain
    dsimp only
    rw [loopHead_begins reviseDef rfl hbudget (by simp [reviseDef]) (by decide)]
    exact .revising (h.branched c).begins (hs.append c)
  · rw [if_neg hagain]
    dsimp only
    rw [loopHead_begins finalizeDef rfl hbudget (by simp [finalizeDef]) (by decide)]
    have hlive := (h.branched c).begins
    rw [show 3 + 2 * k + 1 = 4 + 2 * k by omega] at hlive
    exact .finalizing k passed hk (fun hfail => by
      by_contra hne
      exact hagain ⟨hfail, by omega⟩) hlive (hs.append c) hv

theorem Place.revised (h : Live calls d.run 4 1 5) (hs : Drafted lib input calls d.run.state 0)
    (hp : d.point = .running reviseDef 1) :
    ∃ t, demoStep (briefBehaviour lib) contentBrief d (.call c) = some t ∧
      Place lib input (calls ++ [c]) t.run t.point := by
  obtain ⟨brief, -, hbrief⟩ := hs.draft
  have hrun : ∃ request, (briefBehaviour lib).run reviseDef.name d.run.state c.complete =
      (c.complete request).map fun text => dict [("draft", .str text), ("revisions", .int 1)] := by
    refine ⟨⟨"Improve this executive brief. Reviewer feedback: " ++
      strOf lib (get d.run.state "review_feedback" (.str "")) ++ "\n\nBrief:\n" ++ brief,
      .standard, 1024⟩, ?_⟩
    simp only [briefBehaviour, reviseDef, revise, hbrief, get_of_item hs.revisions, plusOne]
    rfl
  obtain ⟨request, hrun⟩ := hrun
  rw [demoStep_running hp rfl, hrun]
  refine ⟨_, rfl, ?_⟩
  cases hanswer : c.complete request with
  | error exc =>
    exact (h.failure reviseDef 1 c exc).fails (by omega) (by omega) (by omega)
      (by simp) (by simp [hs.filled, reviseDef, validateDef]) d.approved (by simp [reviseDef])
  | ok text =>
    have hlive := h.success reviseDef 1 c
      (dict [("draft", .str text), ("revisions", .int 1)])
    simp only [Except.map]
    rw [advance_goto d.approved reviewDef rfl rfl (by rw [hlive.executed]; decide) rfl
      (by decide)]
    refine .reviewing 1 0 (by omega) (by omega) hlive.begins ?_
    refine ⟨⟨hs.filled, ?_, item_updated _ _ _⟩, text, ⟨c, by simp, request, hanswer⟩, item_updated _ _ _⟩
    exact (item_updated _ _ _).trans hs.topic

theorem Place.finalized {k : ℕ} {passed : Bool} (hk : k ≤ 1) (hpassed : passed = false → k = 1)
    (h : Live calls d.run (4 + 2 * k) (k + 1) (5 + 3 * k))
    (hs : Drafted lib input calls d.run.state k)
    (hv : item d.run.state "review_passed" = .ok (.bool passed))
    (hp : d.point = .running finalizeDef 1) :
    ∃ t, demoStep (briefBehaviour lib) contentBrief d (.call c) = some t ∧
      Place lib input (calls ++ [c]) t.run t.point := by
  obtain ⟨text, hsent, htext⟩ := hs.draft
  have hrun : (briefBehaviour lib).run finalizeDef.name d.run.state c.complete =
      .ok (dict [("brief", .str (briefOf (stripped lib input "topic") text passed))]) := by
    simp only [briefBehaviour, finalizeDef, finalize, hs.topic, htext, get_of_item hv, plusText]
    rfl
  rw [demoStep_running hp rfl, hrun]
  refine ⟨_, rfl, ?_⟩
  have hlive := h.success finalizeDef 1 c
    (dict [("brief", .str (briefOf (stripped lib input "topic") text passed))])
  have hexecuted := hlive.executed
  have hattempts := hlive.attempts
  have hasked := hlive.asked
  dsimp only
  rw [advance_stop d.approved rfl hlive.status]
  refine .ended ⟨?_, ?_, ?_, .inl ⟨rfl, hlive.error, hs.filled, text, passed, k, hsent.append c, hk,
    hpassed, ?_, ?_, ?_, item_updated _ _ _⟩⟩
  · dsimp only
    omega
  · dsimp only
    omega
  · omega
  · exact (item_updated _ _ _).trans htext
  · exact (item_updated _ _ _).trans hs.revisions
  · exact (item_updated _ _ _).trans hv

theorem Place.goesOn (h : Place lib input calls d.run d.point) (hlive : ¬d.point.Ended) (c : StepCall) :
    ∃ t, demoStep (briefBehaviour lib) contentBrief d (.call c) = some t ∧
      Place lib input (calls ++ [c]) t.run t.point := by
  obtain ⟨approved, run, point⟩ := d
  cases h with
  | validating h hs => exact Place.validated h hs rfl
  | drafting k hk h hs => exact Place.drafted hk h hs rfl
  | reviewing k m hk hm h hs => exact Place.reviewed hk hm h hs rfl
  | deciding k passed hk h hs hv => exact Place.decided hk h hs hv rfl
  | revising h hs => exact Place.revised h hs rfl
  | finalizing k passed hk hp h hs hv => exact Place.finalized hk hp h hs hv rfl
  | ended h => exact absurd trivial hlive

theorem place_execute (lib : VerdictLibrary J) (id createdAt : String) (input : State) :
    Place lib input [] (execute contentBrief id createdAt input).run
      (execute contentBrief id createdAt input).point :=
  .validating ⟨rfl, rfl, rfl, Nat.le_refl 0, rfl⟩ rfl

theorem Place.asked {p : Point} (h : Place lib input calls run p) : calls.length ≤ 11 := by
  cases h with
  | ended h => exact h.asked
  | validating h | drafting _ _ h | reviewing _ _ _ _ h | deciding _ _ _ h | revising h
  | finalizing _ _ _ _ h =>
    have hasked := h.asked
    have hattempts := h.attempts
    omega

theorem Place.returned {p : Point} (h : Place lib input calls run p) (hp : p.Ended) :
    p = .returned ∧ Ended lib input calls run := by
  cases h with
  | ended h => exact ⟨rfl, h⟩
  | validating | drafting | reviewing | deciding | revising | finalizing => exact absurd hp id

theorem place_run (lib : VerdictLibrary J) (id createdAt : String) (input : State)
    (calls : ℕ → StepCall) (n : ℕ) : ∃ m t, m ≤ n ∧ (t.point.Ended ∨ m = n) ∧
      exec (demoStep (briefBehaviour lib) contentBrief) (execute contentBrief id createdAt input)
        ((List.range m).map fun i => .call (calls i)) = some t ∧
      Place lib input ((List.range m).map calls) t.run t.point := by
  induction n with
  | zero => exact ⟨0, _, Nat.le_refl 0, .inr rfl, rfl, place_execute lib id createdAt input⟩
  | succ n ih =>
    obtain ⟨m, t, hle, hdone, hexec, hplace⟩ := ih
    by_cases hended : t.point.Ended
    · exact ⟨m, t, Nat.le_succ_of_le hle, .inl hended, hexec, hplace⟩
    · obtain rfl : m = n := hdone.resolve_left hended
      obtain ⟨u, hstep, hnext⟩ := hplace.goesOn hended (calls m)
      refine ⟨m + 1, u, Nat.le_refl _, .inr rfl, ?_, ?_⟩
      · rw [List.range_succ, List.map_append, exec_append, hexec]
        simpa [exec] using hstep
      · rw [List.range_succ, List.map_append]
        exact hnext

/-- Whatever the model answers, a `content_brief` run returns after at most eleven calls out of the
engine: with its brief, or failed at the step whose attempts were used up. -/
theorem content_brief_delivers (lib : VerdictLibrary J) (id createdAt : String) (input : State)
    (calls : ℕ → StepCall) : ∃ n t,
      exec (demoStep (briefBehaviour lib) contentBrief) (execute contentBrief id createdAt input)
        ((List.range n).map fun i => .call (calls i)) = some t ∧
      t.point = .returned ∧ Ended lib input ((List.range n).map calls) t.run := by
  obtain ⟨m, t, -, hdone, hexec, hplace⟩ := place_run lib id createdAt input calls 12
  have hasked := hplace.asked
  rw [List.length_map, List.length_range] at hasked
  have hended : t.point.Ended := hdone.resolve_right (by omega)
  obtain ⟨hreturned, hends⟩ := hplace.returned hended
  exact ⟨m, t, hexec, hreturned, hends⟩

end Brief

end Workbench.DemoWorkflows
