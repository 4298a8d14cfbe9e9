import Workbench.AlikeRuns
import Workbench.AttemptLogs
import Workbench.EngineFailures
import Workbench.IdempotencyKeys

namespace Workbench.WorkflowRegistry

open KeyedTable RunStore WorkflowEngine Services

variable {D : Type} [StateDict D] {workflows : Table WorkflowDef.name} {json : D → Option D}

/-- What a caller compares of two runs: the attempts stand for the executed steps. -/
structure RunView (D : Type) where
  status : RunStatus
  approvals : List ApprovalRecord
  attempts : List (String × ℤ)
  state : D
  deriving DecidableEq

def view (run : WorkflowRun D) : RunView D :=
  ⟨run.status, run.approvals, run.attempts.map fun a => (a.step, a.attempt), run.state⟩

def performed (workflows : Table WorkflowDef.name) (calls : Calls D) (c : Decision)
    (run : WorkflowRun D) : ℕ → Reply D :=
  match workflows.get run.workflow with
  | none => fun n => calls n .returned run.state
  | some wf =>
    match resume wf run c with
    | .error _ => fun n => calls n .returned run.state
    | .ok d => perform wf calls d

def restarted (g : Gateway D) : Gateway D := ⟨Table.empty _, g.store⟩

def ResumesAlike (workflows : Table WorkflowDef.name) (json : D → Option D) (g : Gateway D)
    (run : WorkflowRun D) : Prop :=
  ∃ stored, lookup (restarted g) run.id = some stored ∧ ∀ c calls now,
    (resumeRun workflows json (restarted g) run.id c
        ⟨performed workflows calls c stored, now⟩).2.map view =
      (resumeRun workflows json ⟨g.cache.put run, g.store⟩ run.id c
        ⟨performed workflows calls c run, now⟩).2.map view

structure Storable (json : D → Option D) (run : WorkflowRun D) : Prop where
  state : json run.state = some run.state
  updates : ∀ a ∈ run.attempts, (json a.updates).isSome

def outcome (workflows : Table WorkflowDef.name) (c : Decision) (env : ℕ → Reply D)
    (run : WorkflowRun D) : Except RegistryError (RunView D) :=
  match workflows.get run.workflow with
  | none => .error (.keyError run.workflow)
  | some wf =>
    match resume wf run c with
    | .error message => .error (.approvalError message)
    | .ok d =>
      match (complete wf env d).point with
      | .raised exc => .error (.raised exc)
      | _ => .ok (view (complete wf env d).run)

theorem resumeRun_outcome {g g' : Gateway D} {runId : String} {run : WorkflowRun D}
    (hl : load g runId = (g', .ok (some run))) (c : Decision) (env : Env D) :
    (resumeRun workflows json g runId c env).2.map view = outcome workflows c env.replies run := by
  simp only [resumeRun, hl, outcome]
  cases workflows.get run.workflow with
  | none => rfl
  | some wf =>
    simp only
    cases resume wf run c with
    | error message => rfl
    | ok d =>
      simp only
      cases (complete wf env.replies d).point <;> rfl

omit [StateDict D] in
theorem view_alike {run run' : WorkflowRun D} (h : Alike run run') : view run' = view run := by
  obtain ⟨attempts, rfl, hattempts⟩ := h
  have hsteps := congrArg (List.map fun b : String × ℤ × StepStatus × ℤ × Option String =>
    (b.1, b.2.1)) hattempts
  simp only [List.map_map] at hsteps
  rw [view, view, RunView.mk.injEq]
  exact ⟨rfl, rfl, hsteps, rfl⟩

theorem outcome_alike {run run' : WorkflowRun D} (h : Alike run run') (c : Decision)
    (calls : Calls D) :
    outcome workflows c (performed workflows calls c run') run' =
      outcome workflows c (performed workflows calls c run) run := by
  have hworkflow : run'.workflow = run.workflow := by
    obtain ⟨attempts, rfl, _⟩ := h
    rfl
  have hstate : run'.state = run.state := by
    obtain ⟨attempts, rfl, _⟩ := h
    rfl
  simp only [outcome, performed, hworkflow, hstate]
  cases workflows.get run.workflow with
  | none => rfl
  | some wf =>
    simp only
    rcases h.resume wf c with ⟨message, hr, hr'⟩ | ⟨d, d', hr, hr', hd⟩
    · rw [hr, hr']
    · rw [hr, hr']
      have hcomplete := hd.complete wf (perform wf calls d)
      simp only [hd.perform wf calls, hcomplete.point, view_alike hcomplete.run]

omit [StateDict D] in
theorem load_restarted {g : Gateway D} {runId : String} {stored : WorkflowRun D}
    (h : lookup (restarted g) runId = some stored) :
    ∃ g', load (restarted g) runId = (g', .ok (some stored)) := by
  have hrow : (g.store.get runId).bind (fun row => modelValidate row.payload) = some stored := h
  obtain ⟨row, hs, hm⟩ := Option.bind_eq_some_iff.mp hrow
  refine ⟨⟨(restarted g).cache.put stored, g.store⟩, ?_⟩
  simp [load, restarted, getRun, hs, hm]

omit [StateDict D] in
theorem load_cached (cache : Cache D) (store : RunRows D) (run : WorkflowRun D) :
    load ⟨cache.put run, store⟩ run.id = (⟨cache.put run, store⟩, .ok (some run)) := by
  simp [load, Table.get_put]

omit [StateDict D] in
theorem attempts_roundTrip {attempts attempts' : List (StepAttempt D)}
    (h : attempts.mapM (fun a => (json a.updates).map fun updates => { a with updates }) =
      some attempts') :
    attempts'.map StepAttempt.bare = attempts.map StepAttempt.bare ∧
      (∀ a ∈ attempts, (json a.updates).isSome) ∧
      ∀ a ∈ attempts', ∃ updates, json updates = some a.updates := by
  induction attempts generalizing attempts' with
  | nil =>
    cases h
    exact ⟨rfl, by simp, by simp⟩
  | cons a rest ih =>
    rw [List.mapM_cons] at h
    obtain ⟨b, hb, h⟩ := Option.bind_eq_some_iff.mp h
    obtain ⟨rest', hrest, h⟩ := Option.bind_eq_some_iff.mp h
    cases h
    obtain ⟨updates, hupdates, rfl⟩ := Option.map_eq_some_iff.mp hb
    obtain ⟨hbare, hsome, hfrom⟩ := ih hrest
    refine ⟨?_, ?_, ?_⟩
    · rw [List.map_cons, List.map_cons, hbare]
      rfl
    · rintro b (_ | ⟨_, hb⟩)
      · rw [hupdates]
        rfl
      · exact hsome b hb
    · rintro b (_ | ⟨_, hb⟩)
      · exact ⟨a.updates, hupdates⟩
      · exact hfrom b hb

omit [StateDict D] in
theorem storable_iff {run : WorkflowRun D} : Storable json run ↔
    ∃ stored, roundTrip json run = some stored ∧ Alike run stored := by
  constructor
  · rintro ⟨hstate, hupdates⟩
    obtain ⟨attempts, hattempts⟩ := Option.isSome_iff_exists.mp (attempts_roundTrip_isSome hupdates)
    refine ⟨{ run with attempts }, ?_, attempts, rfl, (attempts_roundTrip hattempts).1⟩
    simp [roundTrip, hstate, hattempts]
  · rintro ⟨stored, hstored, attempts, rfl, _⟩
    obtain ⟨state, hstate, hstored⟩ := Option.bind_eq_some_iff.mp hstored
    obtain ⟨attempts', hattempts, he⟩ := Option.map_eq_some_iff.mp hstored
    have hsame : state = run.state := congrArg WorkflowRun.state he
    exact ⟨hsame ▸ hstate, (attempts_roundTrip hattempts).2.1⟩

omit [StateDict D] in
theorem alike_roundTrip {run stored : WorkflowRun D} (h : roundTrip json run = some stored)
    (hs : stored.state = run.state) : Alike run stored := by
  obtain ⟨state, hstate, h⟩ := Option.bind_eq_some_iff.mp h
  obtain ⟨attempts, hattempts, rfl⟩ := Option.map_eq_some_iff.mp h
  obtain rfl : state = run.state := hs
  exact ⟨attempts, rfl, (attempts_roundTrip hattempts).1⟩

def refusal : Decision := ⟨.rejected, "", none, ""⟩

theorem outcome_refused {wf : WorkflowDef} {run : WorkflowRun D} {gate : String}
    (hw : workflows.get run.workflow = some wf) (hs : run.status = .awaitingApproval)
    (hp : run.pendingStep = some gate) (env : ℕ → Reply D) :
    ∃ record, outcome workflows refusal env run = .ok ⟨.rejected, run.approvals ++ [record],
      run.attempts.map fun a => (a.step, a.attempt), run.state⟩ := by
  have hr : resume wf run refusal = .ok ⟨[], { recordDecision run gate refusal with
      status := .rejected
      error := some ("step '" ++ gate ++ "' rejected by " ++ "") }, .returned⟩ := by
    simp [resume, hs, hp, refusal]
  simp only [outcome, hw, hr]
  rw [complete_ended_eq]
  · exact ⟨_, rfl⟩
  · trivial

theorem refused_alike {run stored : WorkflowRun D} (hr : Resumable workflows run)
    (hs : run.status = .awaitingApproval) {env env' : ℕ → Reply D}
    (h : outcome workflows refusal env' stored = outcome workflows refusal env run) :
    stored.state = run.state ∧ stored.approvals.length = run.approvals.length := by
  obtain ⟨wf, hw, hpending⟩ := hr
  obtain ⟨gate, hgate, _⟩ := hpending hs
  obtain ⟨record, hrun⟩ := outcome_refused hw hs hgate env
  rw [hrun] at h
  unfold outcome at h
  split at h
  · cases h
  · split at h
    · cases h
    · rename_i d hd
      obtain ⟨gate', _, _, ⟨_, rfl⟩ | ⟨hdecision, _⟩⟩ := resume_cases hd
      · rw [complete_ended_eq] at h
        · have hview := Except.ok.inj h
          have hstate := congrArg RunView.state hview
          have happrovals := congrArg (List.length ∘ RunView.approvals) hview
          simp only [Function.comp, view, recordDecision, List.length_append,
            List.length_singleton] at happrovals
          exact ⟨hstate, by omega⟩
        · trivial
      · cases hdecision

theorem resumesAlike_written {g : Gateway D} {run stored : WorkflowRun D}
    (hr : Resumable workflows run) (hs : run.status = .awaitingApproval)
    (hl : lookup (restarted g) run.id = some stored) (hstored : roundTrip json run = some stored) :
    ResumesAlike workflows json g run ↔ Storable json run := by
  obtain ⟨g', hload⟩ := load_restarted hl
  rw [storable_iff]
  constructor
  · rintro ⟨found, hfound, hall⟩
    obtain rfl : stored = found := Option.some.inj (hl.symm.trans hfound)
    have hrefused := hall refusal (fun _ _ state => ⟨⟨0, state, .ok none⟩, ⟨state, .ok none⟩⟩) 0
    rw [resumeRun_outcome hload, resumeRun_outcome (load_cached g.cache g.store run)] at hrefused
    exact ⟨stored, hstored, alike_roundTrip hstored (refused_alike hr hs hrefused).1⟩
  · rintro ⟨found, hfound, halike⟩
    obtain rfl : stored = found := Option.some.inj (hstored.symm.trans hfound)
    refine ⟨stored, hl, fun c calls now => ?_⟩
    rw [resumeRun_outcome hload, resumeRun_outcome (load_cached g.cache g.store run)]
    exact outcome_alike halike c calls

theorem resumesAlike_unwritten {g : Gateway D} {run : WorkflowRun D}
    (hr : Resumable workflows run) (hs : run.status = .awaitingApproval)
    (hl : ∀ stored, lookup (restarted g) run.id = some stored →
      stored.approvals.length < run.approvals.length) :
    ¬ ResumesAlike workflows json g run := by
  rintro ⟨stored, hfound, hall⟩
  obtain ⟨g', hload⟩ := load_restarted hfound
  have hrefused := hall refusal (fun _ _ state => ⟨⟨0, state, .ok none⟩, ⟨state, .ok none⟩⟩) 0
  rw [resumeRun_outcome hload, resumeRun_outcome (load_cached g.cache g.store run)] at hrefused
  have hlength := (refused_alike hr hs hrefused).2
  have hless := hl stored hfound
  omega

omit [StateDict D] in
theorem storable_roundTrip (hjson : ∀ x y, json x = some y → json y = some y)
    {run stored : WorkflowRun D} (h : roundTrip json run = some stored) : Storable json stored := by
  obtain ⟨state, hstate, h⟩ := Option.bind_eq_some_iff.mp h
  obtain ⟨attempts, hattempts, rfl⟩ := Option.map_eq_some_iff.mp h
  refine ⟨hjson _ _ hstate, fun a ha => ?_⟩
  obtain ⟨updates, hupdates⟩ := (attempts_roundTrip hattempts).2.2 a ha
  rw [hjson _ _ hupdates]
  rfl

def StorableRows (json : D → Option D) (store : RunRows D) : Prop :=
  ∀ k row stored, store.get k = some row → modelValidate row.payload = some stored →
    Storable json stored

def Lagging (g : Gateway D) : Prop :=
  ∀ k run row stored, g.cache.get k = some run → g.store.get k = some row →
    modelValidate row.payload = some stored → stored.approvals.length ≤ run.approvals.length

def Behind (store : RunRows D) (run : WorkflowRun D) : Prop :=
  ∀ row stored, store.get run.id = some row → modelValidate row.payload = some stored →
    stored.approvals.length ≤ run.approvals.length

omit [StateDict D] in
theorem StorableRows.upsert (hjson : ∀ x y, json x = some y → json y = some y)
    {store : RunRows D} (h : StorableRows json store) (run : WorkflowRun D) (key : Option String)
    (now : ℤ) : StorableRows json (upsertWorkflow json store run key now) := by
  intro k row stored hs hm
  rcases get_upsertWorkflow hs with hold | ⟨_, _, run', hrun', hpayload⟩
  · exact h k row stored hold hm
  · rw [hpayload] at hm
    cases hm
    exact storable_roundTrip hjson hrun'

omit [StateDict D] in
theorem Lagging.put {g : Gateway D} (h : Lagging g) {run : WorkflowRun D}
    (hb : Behind g.store run) : Lagging ⟨g.cache.put run, g.store⟩ := by
  intro k cached row stored hc hs hm
  rw [Table.get_put] at hc
  split_ifs at hc with hk
  · cases hc
    exact hb row stored (hk ▸ hs) hm
  · exact h k cached row stored hc hs hm

omit [StateDict D] in
theorem Lagging.storeRun {g : Gateway D} (h : Lagging g) {run : WorkflowRun D}
    (hb : Behind g.store run) (key : Option String) (now : ℤ) :
    Lagging (storeRun json g run key now) := by
  intro k cached row stored hc hs hm
  have hput := Table.get_drop hc
  rcases get_upsertWorkflow hs with hold | ⟨hk, _, run', hrun', hpayload⟩
  · exact h.put hb k cached row stored hput hold hm
  · rw [Table.get_put, if_pos hk.symm] at hput
    cases hput
    obtain ⟨state, attempts, rfl⟩ := roundTrip_id hrun'
    rw [hpayload] at hm
    cases hm
    exact le_rfl

omit [StateDict D] in
theorem behind_row {store : RunRows D} {run : WorkflowRun D} {row : AgentRun (RowPayload D)}
    (hs : store.get run.id = some row) (hm : modelValidate row.payload = some run) :
    Behind store run := by
  intro row' stored hs' hm'
  obtain rfl : row = row' := Option.some.inj (hs.symm.trans hs')
  obtain rfl : run = stored := Option.some.inj (hm.symm.trans hm')
  exact le_rfl

omit [StateDict D] in
theorem Lagging.loaded {g g' : Gateway D} (h : Lagging g) (hr : Registered workflows g)
    {runId : String} {loaded : Except RegistryError (Option (WorkflowRun D))}
    (hl : load g runId = (g', loaded)) :
    Lagging g' ∧ g'.store = g.store ∧ ∀ run, loaded = .ok (some run) → Behind g.store run := by
  rcases load_cases g runId with ⟨run, hload, hc⟩ | ⟨hload, _⟩ | ⟨row, hload, _⟩ |
    ⟨row, run, hload, _, hs, hm⟩
  · cases hload.symm.trans hl
    refine ⟨h, rfl, ?_⟩
    rintro _ ⟨⟩ row stored hs hm
    exact h runId run row stored hc (Table.key_of_get hc ▸ hs) hm
  · cases hload.symm.trans hl
    exact ⟨h, rfl, by simp⟩
  · cases hload.symm.trans hl
    exact ⟨h, rfl, by simp⟩
  · cases hload.symm.trans hl
    have hbehind : Behind g.store run := behind_row ((hr.stored runId row run hs hm).2 ▸ hs) hm
    refine ⟨h.put hbehind, rfl, ?_⟩
    rintro _ ⟨⟩
    exact hbehind

theorem runWorkflow_returned {g g' : Gateway D} {name : String} {inputState : D}
    {key : Option String} {runId createdAt : String} {env : Env D} {run : WorkflowRun D}
    (h : runWorkflow workflows json g name inputState key runId createdAt env = (g', .ok run)) :
    (∃ existing, key.bind (getRunByIdempotencyKey g.store workflowKind) = some existing ∧
      modelValidate existing.payload = some run ∧ g' = ⟨g.cache.put run, g.store⟩) ∨
    key.bind (getRunByIdempotencyKey g.store workflowKind) = none ∧ ∃ wf,
      workflows.get name = some wf ∧
      run = (complete wf env.replies (execute wf runId createdAt inputState)).run ∧
      g' = storeRun json g run key env.now := by
  unfold runWorkflow at h
  split at h
  · rename_i existing he
    split at h
    · cases h
    · cases h
      exact .inl ⟨existing, he, ‹_›, rfl⟩
  · rename_i hnone
    split at h
    · cases h
    · rename_i wf hw
      simp only at h
      split at h
      · cases h
      · obtain ⟨hg, hrun⟩ := Prod.mk.inj h
        obtain rfl := Except.ok.inj hrun
        exact .inr ⟨hnone, wf, hw, rfl, hg.symm⟩

theorem resumeRun_returned {g g' : Gateway D} {runId : String} {c : Decision} {env : Env D}
    {run : WorkflowRun D} (h : resumeRun workflows json g runId c env = (g', .ok run)) :
    ∃ loaded old wf d, load g runId = (loaded, .ok (some old)) ∧
      workflows.get old.workflow = some wf ∧ resume wf old c = .ok d ∧
      run = (complete wf env.replies d).run ∧ g' = storeRun json loaded run none env.now := by
  unfold resumeRun at h
  split at h
  · cases h
  · cases h
  · rename_i loaded old hl
    split at h
    · cases h
    · rename_i wf hw
      split at h
      · cases h
      · rename_i d hd
        simp only at h
        split at h
        · cases h
        · obtain ⟨hg, hrun⟩ := Prod.mk.inj h
          obtain rfl := Except.ok.inj hrun
          exact ⟨loaded, old, wf, d, hl, hw, hd, rfl, hg.symm⟩

structure Mirrored (workflows : Table WorkflowDef.name) (json : D → Option D) (g : Gateway D) :
    Prop where
  registered : Registered workflows g
  lagging : Lagging g
  storable : StorableRows json g.store

omit [StateDict D] in
theorem Mirrored.storeRun (hjson : ∀ x y, json x = some y → json y = some y) {g : Gateway D}
    (h : Mirrored workflows json g) {run : WorkflowRun D} (hr : Resumable workflows run)
    (hb : Behind g.store run) (key : Option String) (now : ℤ) :
    Mirrored workflows json (storeRun json g run key now) :=
  ⟨h.registered.storeRun hr key now, h.lagging.storeRun hb key now,
    h.storable.upsert hjson run key now⟩

omit [StateDict D] in
theorem Mirrored.put {g : Gateway D} (h : Mirrored workflows json g) {run : WorkflowRun D}
    (hr : Resumable workflows run) (hb : Behind g.store run) :
    Mirrored workflows json ⟨g.cache.put run, g.store⟩ :=
  ⟨h.registered.put hr, h.lagging.put hb, h.storable⟩

theorem resumable_execute {wf : WorkflowDef} {name : String} (hw : workflows.get name = some wf)
    (runId createdAt : String) (inputState : D) (env : ℕ → Reply D) :
    Resumable workflows (complete wf env (execute wf runId createdAt inputState)).run ∧
      (complete wf env (execute wf runId createdAt inputState)).run.id = runId := by
  have hsame := sameRun_loopHead wf (approvedSteps (newRun wf runId createdAt inputState))
    (newRun wf runId createdAt inputState) (some wf.entry)
  refine ⟨resumable_complete ?_ (.inl (sound_execute wf runId createdAt inputState).1) env, ?_⟩
  · rw [execute, drive, hsame.2]
    change workflows.get wf.name = some wf
    rw [Table.key_of_get hw, hw]
  · exact (sameRun_complete wf env _).1.trans hsame.1

theorem resumable_resumed {g loaded : Gateway D} (h : Mirrored workflows json g) {runId : String}
    {old : WorkflowRun D} (hl : load g runId = (loaded, .ok (some old))) {wf : WorkflowDef}
    (hw : workflows.get old.workflow = some wf) {c : Decision} {d : Drive D}
    (hd : resume wf old c = .ok d) (env : ℕ → Reply D) :
    Resumable workflows (complete wf env d).run ∧
      ∀ row stored, g.store.get (complete wf env d).run.id = some row →
        modelValidate row.payload = some stored →
          stored.approvals.length < (complete wf env d).run.approvals.length := by
  obtain ⟨wf', hw', hpending⟩ := (h.registered.loaded runId).2 old (by rw [hl])
  obtain rfl : wf = wf' := Option.some.inj (hw.symm.trans hw')
  obtain ⟨_, hs, _⟩ := resume_cases hd
  have hsame := sameRun_resume hd
  refine ⟨resumable_complete ?_ ((resume_sound hd (hpending hs)).imp_left And.left) env, ?_⟩
  · rw [hsame.2, hw]
  · intro row stored hrow hm
    have hbehind := (h.lagging.loaded h.registered hl).2.2 old rfl row stored ?_ hm
    · rw [approvals_complete, approvals_resume hd]
      omega
    · rw [← hrow, (sameRun_complete wf env d).1, hsame.1]

theorem Mirrored.runWorkflow (hjson : ∀ x y, json x = some y → json y = some y) {g : Gateway D}
    (h : Mirrored workflows json g) (name : String) (inputState : D) (key : Option String)
    {runId : String} (hfresh : g.store.get runId = none) (createdAt : String) (env : Env D) :
    Mirrored workflows json
      (runWorkflow workflows json g name inputState key runId createdAt env).1 := by
  unfold WorkflowRegistry.runWorkflow
  split
  · rename_i existing he
    split
    · exact h
    · rename_i run hm
      obtain ⟨k, _, hfind⟩ := Option.bind_eq_some_iff.mp he
      have hrow := Table.get_of_mem (getByKey_mem hfind).1
      obtain ⟨hr, hid⟩ := h.registered.stored _ existing run hrow hm
      exact h.put hr (behind_row (hid ▸ hrow) hm)
  · split
    · exact h
    · rename_i wf hw
      simp only
      split
      · exact h
      · obtain ⟨hr, hid⟩ := resumable_execute hw runId createdAt inputState env.replies
        refine h.storeRun hjson hr (fun row stored hrow _ => ?_) key env.now
        rw [hid, hfresh] at hrow
        cases hrow

omit [StateDict D] in
theorem Mirrored.loaded {g g' : Gateway D} (h : Mirrored workflows json g) {runId : String}
    {loaded : Except RegistryError (Option (WorkflowRun D))} (hl : load g runId = (g', loaded)) :
    Mirrored workflows json g' := by
  obtain ⟨hlagging, hstore, _⟩ := h.lagging.loaded h.registered hl
  have hregistered := (h.registered.loaded runId).1
  rw [hl] at hregistered
  exact ⟨hregistered, hlagging, hstore ▸ h.storable⟩

theorem Mirrored.resumeRun (hjson : ∀ x y, json x = some y → json y = some y) {g : Gateway D}
    (h : Mirrored workflows json g) (runId : String) (c : Decision) (env : Env D) :
    Mirrored workflows json (resumeRun workflows json g runId c env).1 := by
  rcases hl : load g runId with ⟨g', e | _ | run⟩
  · simpa [WorkflowRegistry.resumeRun, hl] using h.loaded hl
  · simpa [WorkflowRegistry.resumeRun, hl] using h.loaded hl
  · have hload := h.loaded hl
    obtain ⟨wf, hw, _⟩ := (h.registered.loaded runId).2 run (by rw [hl])
    have hstore : g'.store = g.store := (h.lagging.loaded h.registered hl).2.1
    cases hr : resume wf run c with
    | error message => exact resumeRun_refused hl hw hr env ▸ hload
    | ok d =>
      obtain ⟨hresumable, hahead⟩ := resumable_resumed h hl hw hr env.replies
      have hbehind : Behind g'.store (complete wf env.replies d).run := fun row stored hrow hm =>
        (hahead row stored (hstore ▸ hrow) hm).le
      by_cases hp : (complete wf env.replies d).point.Raised
      · cases he : (complete wf env.replies d).point with
        | raised exc => exact resumeRun_raised hl hw hr env he ▸ hload.put hresumable hbehind
        | _ => simp [he, Point.Raised] at hp
      · exact resumeRun_driven hl hw hr env hp ▸ hload.storeRun hjson hresumable hbehind none env.now

def FreshIds (c : Cluster Unit D) : Request Unit D → Prop
  | .runWorkflow _ _ _ _ runId _ _ => c.store.get runId = none
  | _ => True

omit [StateDict D] in
theorem gateway_set (c : Cluster Unit D) (i j : Unit) (g : Gateway D) :
    (c.set i g).gateway j = g := by
  simp [Cluster.gateway, Cluster.set]

theorem Mirrored.handle (hjson : ∀ x y, json x = some y → json y = some y) {c : Cluster Unit D}
    (h : Mirrored workflows json (c.gateway ())) (q : Request Unit D) (hq : FreshIds c q) :
    Mirrored workflows json ((handle workflows json c q).1.gateway ()) := by
  cases q with
  | runWorkflow i name inputState key runId createdAt env =>
    simp only [WorkflowRegistry.handle, gateway_set]
    exact h.runWorkflow hjson name inputState key hq createdAt env
  | getRun i runId =>
    simp only [WorkflowRegistry.handle, gateway_set]
    exact h.loaded rfl
  | resumeRun i runId d env =>
    simp only [WorkflowRegistry.handle, gateway_set]
    exact h.resumeRun hjson runId d env
  | restart i =>
    simp only [WorkflowRegistry.handle, gateway_set]
    refine ⟨⟨fun k run hc => ?_, h.registered.stored⟩, fun k run row stored hc => ?_, h.storable⟩
    · simp [Table.empty, Table.get] at hc
    · simp [Table.empty, Table.get] at hc

omit [StateDict D] in
theorem mirrored_deployed (workflows : Table WorkflowDef.name) (json : D → Option D)
    (rows : RunTable Unit) : Mirrored workflows json ((deployed Unit rows).gateway ()) := by
  refine ⟨allRegistered_deployed workflows rows (), fun k run row stored hc => ?_,
    fun k row stored hs hm => ?_⟩
  · simp [Cluster.gateway, deployed, Table.empty, Table.get] at hc
  · obtain ⟨_, _, rfl⟩ := List.mem_map.mp (Table.mem_of_get hs)
    simp [modelValidate] at hm

/-- The key of a new run is not the empty string, which is stored but never looked up, or no run
has that key. -/
def KeyFree (store : RunRows D) : Request Unit D → Prop
  | .runWorkflow _ _ _ key _ _ _ => key = some "" →
      ∀ row ∈ store.rows, row.kind = workflowKind → row.idempotencyKey ≠ some ""
  | _ => True

omit [StateDict D] in
theorem upsertRun_fresh {store : RunRows D} {run : WorkflowRun D} {key : Option String}
    (hfresh : store.get run.id = none)
    (hk : key.bind (getRunByIdempotencyKey store workflowKind) = none) (stored : WorkflowRun D)
    (now : ℤ) :
    (upsertRun store run.id workflowKind (rowStatus run.status) (.workflow stored) key none
        now).isSome ↔
      (key = some "" → ∀ row ∈ store.rows, row.kind = workflowKind → row.idempotencyKey ≠ some "") := by
  have hunique : (upsertRun store run.id workflowKind (rowStatus run.status) (.workflow stored) key
      none now).isSome = !violatesUnique store ⟨run.id, workflowKind, rowStatus run.status, key,
        RowPayload.workflow stored, none, now, now⟩ := by
    simp only [upsertRun, hfresh, insertRow, Option.isSome_map]
    split_ifs <;> simp_all
  rw [hunique, Bool.not_eq_true', violatesUnique]
  cases key with
  | none => simp
  | some k =>
    by_cases hempty : k = ""
    · subst hempty
      have hids : ∀ row ∈ store.rows, row.id ≠ run.id := by
        intro row hr he
        have hget := Table.get_of_mem hr
        rw [he, hfresh] at hget
        cases hget
      simp only [Option.isSome_some, Bool.true_and, List.any_eq_false, Bool.and_eq_true,
        decide_eq_true_eq, not_and, forall_const]
      exact ⟨fun h row hr hkind hkey => h row hr ⟨hids row hr, hkind⟩ hkey,
        fun h row hr hrow hkey => h row hr hrow.2 hkey⟩
    · refine iff_of_true ?_ (by simp [hempty])
      have hnone := getByKey_none hempty hk
      simp only [Option.isSome_some, Bool.true_and, List.any_eq_false, Bool.and_eq_true,
        decide_eq_true_eq, not_and]
      exact fun row hr hrow hkey => hnone row hr hrow.2 hkey

omit [StateDict D] in
theorem lookup_stored (json : D → Option D) (g : Gateway D) (run : WorkflowRun D)
    (key : Option String) (now : ℤ) :
    (∃ stored, roundTrip json run = some stored ∧
      (upsertRun g.store run.id workflowKind (rowStatus run.status) (.workflow stored) key none
        now).isSome ∧ lookup (restarted (storeRun json g run key now)) run.id = some stored) ∨
    ((∀ stored, roundTrip json run = some stored → upsertRun g.store run.id workflowKind
        (rowStatus run.status) (.workflow stored) key none now = none) ∧
      lookup (restarted (storeRun json g run key now)) run.id = lookup (restarted g) run.id) := by
  simp only [lookup, restarted, storeRun, upsertWorkflow]
  cases hrun : roundTrip json run with
  | none => exact .inr ⟨by simp, rfl⟩
  | some stored =>
    simp only
    cases hw : upsertRun g.store run.id workflowKind (rowStatus run.status) (.workflow stored) key
      none now with
    | none =>
      refine .inr ⟨?_, rfl⟩
      rintro _ ⟨⟩
      exact hw
    | some written =>
      obtain ⟨store', record⟩ := written
      obtain ⟨_, _, hpayload, _, _, hget⟩ := upsertRun_row hw
      refine .inl ⟨stored, rfl, by rw [hw]; rfl, ?_⟩
      simp [hget, hpayload, modelValidate]

theorem resumesAlike_stored {g : Gateway D} {run : WorkflowRun D} {key : Option String} {now : ℤ}
    (hr : Resumable workflows run) (hs : run.status = .awaitingApproval) {written : Prop}
    (hb : ∀ stored, lookup (restarted g) run.id = some stored →
      stored.approvals.length < run.approvals.length)
    (hw : ∀ stored, roundTrip json run = some stored → ((upsertRun g.store run.id workflowKind
      (rowStatus run.status) (.workflow stored) key none now).isSome ↔ written)) :
    ResumesAlike workflows json (storeRun json g run key now) run ↔ Storable json run ∧ written := by
  rcases lookup_stored json g run key now with ⟨stored, hstored, hsome, hl⟩ | ⟨hnone, hl⟩
  · rw [resumesAlike_written hr hs hl hstored]
    exact (and_iff_left ((hw stored hstored).mp hsome)).symm
  · refine iff_of_false (resumesAlike_unwritten hr hs fun stored hfound => ?_) ?_
    · exact hb stored (hl ▸ hfound)
    · rintro ⟨hstorable, hwritten⟩
      obtain ⟨stored, hstored, _⟩ := storable_iff.mp hstorable
      have hsome := (hw stored hstored).mpr hwritten
      rw [hnone stored hstored] at hsome
      cases hsome

theorem resumesAlike_found {g : Gateway D} {run : WorkflowRun D} {row : AgentRun (RowPayload D)}
    (hs : g.store.get run.id = some row) (hm : modelValidate row.payload = some run) :
    ResumesAlike workflows json ⟨g.cache.put run, g.store⟩ run := by
  have hl : lookup (restarted ⟨g.cache.put run, g.store⟩) run.id = some run := by
    simp [lookup, restarted, hs, hm]
  obtain ⟨g', hload⟩ := load_restarted hl
  refine ⟨run, hl, fun c calls now => ?_⟩
  rw [resumeRun_outcome hload, resumeRun_outcome (load_cached _ _ run)]

theorem upsertRun_keyless {P : Type} (t : RunTable P) (runId kind : String) (status : Status)
    (payload : P) (error : Option String) (now : ℤ) :
    (upsertRun t runId kind status payload none error now).isSome := by
  cases ht : t.get runId with
  | none => simp [upsertRun, ht, insertRow, violatesUnique]
  | some row =>
    obtain ⟨t', hw, _⟩ := upsertRun_existing ht kind status payload error now
    rw [hw]
    rfl

theorem Mirrored.resumesAlike_runWorkflow {g g' : Gateway D} (h : Mirrored workflows json g)
    {name : String} {inputState : D} {key : Option String} {runId createdAt : String} {env : Env D}
    {run : WorkflowRun D} (hfresh : g.store.get runId = none)
    (hrun : WorkflowRegistry.runWorkflow workflows json g name inputState key runId createdAt env =
      (g', .ok run)) (hs : run.status = .awaitingApproval) :
    ResumesAlike workflows json g' run ↔ Storable json run ∧ (key = some "" →
      ∀ row ∈ g.store.rows, row.kind = workflowKind → row.idempotencyKey ≠ some "") := by
  rcases runWorkflow_returned hrun with ⟨existing, he, hm, rfl⟩ | ⟨hnone, wf, hw, rfl, rfl⟩
  · -- the run found under its key is the stored one
    obtain ⟨k, hk, hfind⟩ := Option.bind_eq_some_iff.mp he
    obtain ⟨hmem, _, _, hne⟩ := getByKey_mem hfind
    have hrow := Table.get_of_mem hmem
    have hid := (h.registered.stored _ existing run hrow hm).2
    refine iff_of_true (resumesAlike_found (hid ▸ hrow) hm) ⟨h.storable _ existing run hrow hm, ?_⟩
    rintro rfl
    exact absurd (Option.some.inj hk).symm hne
  · obtain ⟨hr, hid⟩ := resumable_execute hw runId createdAt inputState env.replies
    have hnew : g.store.get
        (complete wf env.replies (execute wf runId createdAt inputState)).run.id = none := by
      rw [hid]
      exact hfresh
    refine resumesAlike_stored hr hs (fun stored hfound => ?_)
      fun stored _ => upsertRun_fresh hnew hnone stored env.now
    simp [lookup, restarted, hnew] at hfound

theorem Mirrored.resumesAlike_resumeRun {g g' : Gateway D} (h : Mirrored workflows json g)
    {runId : String} {decision : Decision} {env : Env D} {run : WorkflowRun D}
    (hrun : WorkflowRegistry.resumeRun workflows json g runId decision env = (g', .ok run))
    (hs : run.status = .awaitingApproval) :
    ResumesAlike workflows json g' run ↔ Storable json run := by
  obtain ⟨loaded, old, wf, d, hl, hw, hd, rfl, rfl⟩ := resumeRun_returned hrun
  obtain ⟨hr, hahead⟩ := resumable_resumed h hl hw hd env.replies
  have hstore := (h.lagging.loaded h.registered hl).2.1
  rw [← and_true (Storable json _)]
  refine resumesAlike_stored hr hs (fun stored hfound => ?_) fun stored _ =>
    iff_of_true (upsertRun_keyless ..) trivial
  simp only [lookup, restarted, hstore, Table.get_empty, Option.none_or,
    Option.bind_eq_some_iff] at hfound
  obtain ⟨row, hrow, hm⟩ := hfound
  exact hahead row stored hrow hm

def Request.Drives : Request Unit D → Prop
  | .runWorkflow _ _ _ _ _ _ _ => True
  | .resumeRun _ _ _ _ => True
  | _ => False

theorem rehydrated_run_resumes_iff (workflows : Table WorkflowDef.name) (json : D → Option D)
    (hjson : ∀ x y, json x = some y → json y = some y) (rows : RunTable Unit)
    (qs : List (Request Unit D)) (q : Request Unit D) (run : WorkflowRun D)
    (hfresh : Admits (handle workflows json) FreshIds (deployed Unit rows) (qs ++ [q]))
    (hdrives : q.Drives)
    (hreturned : (handle workflows json
      (serveAll (handle workflows json) (deployed Unit rows) qs).1 q).2 = .ok (some run))
    (hs : run.status = .awaitingApproval) :
    ResumesAlike workflows json ((handle workflows json
        (serveAll (handle workflows json) (deployed Unit rows) qs).1 q).1.gateway ()) run ↔
      Storable json run ∧
        KeyFree (serveAll (handle workflows json) (deployed Unit rows) qs).1.store q := by
  obtain ⟨hbefore, hq, _⟩ := admits_append.mp hfresh
  have hmirrored : Mirrored workflows json
      ((serveAll (handle workflows json) (deployed Unit rows) qs).1.gateway ()) :=
    serveAll_invariant (I := fun c => Mirrored workflows json (c.gateway ()))
      (fun c q h hq => h.handle hjson q hq) (mirrored_deployed workflows json rows) hbefore
  generalize (serveAll (handle workflows json) (deployed Unit rows) qs).1 = c at *
  cases q with
  | runWorkflow i name inputState key runId createdAt env =>
    simp only [handle, gateway_set] at hreturned ⊢
    rcases hrun : runWorkflow workflows json (c.gateway ()) name inputState key runId createdAt env
      with ⟨g', e | found⟩
    · rw [hrun] at hreturned
      cases hreturned
    · rw [hrun] at hreturned
      cases hreturned
      exact hmirrored.resumesAlike_runWorkflow hq hrun hs
  | getRun i runId => cases hdrives
  | resumeRun i runId decision env =>
    simp only [handle, gateway_set] at hreturned ⊢
    rcases hrun : resumeRun workflows json (c.gateway ()) runId decision env with ⟨g', e | found⟩
    · rw [hrun] at hreturned
      cases hreturned
    · rw [hrun] at hreturned
      cases hreturned
      rw [hmirrored.resumesAlike_resumeRun hrun hs]
      exact (and_iff_left trivial).symm
  | restart i => cases hdrives

def publishingOnly : Table WorkflowDef.name := ⟨[publishing], by simp⟩

def drafting {D : Type} (state updates : D) : Env D :=
  ⟨fun _ => ⟨⟨5, state, .ok (some updates)⟩, ⟨state, .ok none⟩⟩, 0⟩

def draftOnce : Request Unit (Dict String ℕ) :=
  .runWorkflow () "publishing" noDict none "r" "now" (drafting noDict draftDict)

theorem drafted_run_resumes_alike : ∃ run,
    (handle publishingOnly some (deployed Unit (Table.empty _)) draftOnce).2 = .ok (some run) ∧
      ResumesAlike publishingOnly some
        ((handle publishingOnly some (deployed Unit (Table.empty _)) draftOnce).1.gateway ()) run := by
  refine ⟨_, rfl, (rehydrated_run_resumes_iff publishingOnly some (fun _ _ _ => rfl) (Table.empty _)
    [] draftOnce _ ⟨rfl, trivial⟩ trivial rfl rfl).mpr ⟨⟨rfl, fun _ _ => rfl⟩, ?_⟩⟩
  rintro ⟨⟩

inductive Key
  | str (text : String)
  | int (n : ℤ)
  deriving DecidableEq

/-- A dict with integer values through the JSON column: every key comes back as a string. -/
def jsonDict (dict : Dict Key ℕ) : Option (Dict Key ℕ) :=
  some (dict.rows.foldl (fun loaded row => match row.1 with
    | .str text => loaded.put (.str text, row.2)
    | .int n => loaded.put (.str (toString n), row.2)) (Table.empty _))

def intKeyed : Cluster Unit (Dict Key ℕ) × Response (Dict Key ℕ) :=
  handle publishingOnly jsonDict (deployed Unit (Table.empty _))
    (.runWorkflow () "publishing" StateDict.empty none "r" "now"
      (drafting StateDict.empty ⟨[(.int 1, 5)], by simp⟩))

theorem int_keyed_run_resumes_otherwise : ∃ run, intKeyed.2 = .ok (some run) ∧
    run.status = .awaitingApproval ∧
      ¬ ResumesAlike publishingOnly jsonDict (intKeyed.1.gateway ()) run := by
  refine ⟨_, rfl, rfl, ?_⟩
  rintro ⟨stored, hl, hall⟩
  obtain rfl := Option.some.inj hl
  have hsame := hall ⟨.approved, "alice", none, "now"⟩
    (fun _ _ state => ⟨⟨5, state, .ok none⟩, ⟨state, .ok none⟩⟩) 0
  exact absurd hsame (by decide)

end Workbench.WorkflowRegistry
