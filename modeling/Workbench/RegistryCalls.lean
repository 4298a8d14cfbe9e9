import Workbench.EngineFailures

/-!
`workbench_orchestrator.registry` in one gateway process. Its calls are tasks that take turns at
their awaits, over one cache of run objects and the durable store.
-/

namespace Workbench.RegistryCalls

open KeyedTable RunStore WorkflowEngine WorkflowRegistry

variable {C D : Type}

inductive Call (D : Type)
  | runWorkflow (name : String) (inputState : D) (key : Option String)
  | getRun (runId : String)
  | resumeRun (runId : String) (decision : Decision)

def Call.key : Call D → Option String
  | .runWorkflow _ _ key => key
  | _ => none

/-- The await a task is suspended at, or how it ended. What a store read gave waits in the task
until the task goes on. -/
inductive Pc (D : Type)
  | looking (key : String)
  | looked (existing : Option (AgentRun (RowPayload D)))
  | loading (runId : String)
  | loaded (record : Option (AgentRun (RowPayload D)))
  | driving (ref : ℕ) (wf : WorkflowDef) (approved : List String) (point : Point)
  | storing (ref : ℕ) (dumped : WorkflowRun D)
  | committing (ref : ℕ) (dumped : WorkflowRun D) (seen : Option (AgentRun (RowPayload D)))
  | returned (ref : Option ℕ)
  | raised (e : RegistryError)
  | lost

structure Task (D : Type) where
  call : Call D
  pc : Pc D

structure Decided (C : Type) where
  task : C
  runId : String
  suspension : ℕ
  decision : ApprovalDecision
  deriving DecidableEq

structure Executed (C : Type) where
  task : C
  key : Option String
  runId : String
  deriving DecidableEq

abbrev RefCache := Table (Prod.fst (α := String) (β := ℕ))

/-- The run objects ever built, `_RUNS` with references to them, the stored rows and the tasks;
`decided` and `executed` record the history. -/
structure Registry (C D : Type) where
  objects : List (WorkflowRun D)
  cache : RefCache
  store : RunRows D
  tasks : C → Option (Task D)
  decided : List (Decided C)
  executed : List (Executed C)

def booted (C : Type) (store : RunRows D) : Registry C D :=
  ⟨[], Table.empty _, store, fun _ => none, [], []⟩

def evictRefs (cache : RefCache) : RefCache := cache.drop (cache.rows.length - maxStoredRuns)

/-- The `upsert_run` of `_store`, best effort, once its `session.get` found `seen`. -/
def commitWorkflow [DecidableEq D] (json : D → Option D) (store : RunRows D)
    (seen : Option (AgentRun (RowPayload D))) (dumped : WorkflowRun D) (key : Option String)
    (now : ℤ) : RunRows D :=
  match roundTrip json dumped with
  | none => store
  | some payload =>
    (commitRun store seen dumped.id workflowKind (rowStatus dumped.status) (.workflow payload) key
      none now).getD store

variable [DecidableEq C]

def Registry.setTask (s : Registry C D) (c : C) (t : Task D) : Registry C D :=
  { s with tasks := Function.update s.tasks c (some t) }

def Registry.adopt (s : Registry C D) (run : WorkflowRun D) : Registry C D :=
  { s with objects := s.objects ++ [run], cache := s.cache.put (run.id, s.objects.length) }

/-- `_drive` got to its next await, or to its end: then `_store` caches and dumps the run. -/
def proceed (s : Registry C D) (c : C) (call : Call D) (ref : ℕ) (wf : WorkflowDef)
    (d : Drive D) : Registry C D :=
  let s := { s with objects := s.objects.set ref d.run }
  match d.point with
  | .returned => { s with cache := evictRefs (s.cache.put (d.run.id, ref)) }.setTask c
      ⟨call, .storing ref d.run⟩
  | .raised exc => s.setTask c ⟨call, .raised (.raised exc)⟩
  | point => s.setTask c ⟨call, .driving ref wf d.approved point⟩

/-- `execute(WORKFLOWS[name], input_state)`, which draws an id and a time. -/
def enterExecute (workflows : Table WorkflowDef.name) (s : Registry C D) (c : C) (name : String)
    (inputState : D) (key : Option String) (runId createdAt : String) : Registry C D :=
  match workflows.get name with
  | none => s.setTask c ⟨.runWorkflow name inputState key, .raised (.keyError name)⟩
  | some wf =>
    proceed { s with
      objects := s.objects ++ [newRun wf runId createdAt inputState]
      executed := s.executed ++ [⟨c, key, runId⟩] } c (.runWorkflow name inputState key)
      s.objects.length wf (execute wf runId createdAt inputState)

def decideOn (workflows : Table WorkflowDef.name) (s : Registry C D) (c : C) (call : Call D)
    (ref : ℕ) (run : WorkflowRun D) (decision : Decision) : Registry C D :=
  match workflows.get run.workflow with
  | none => s.setTask c ⟨call, .raised (.keyError run.workflow)⟩
  | some wf =>
    match resume wf run decision with
    | .error message => s.setTask c ⟨call, .raised (.approvalError message)⟩
    | .ok d => proceed { s with
        decided := s.decided ++ [⟨c, run.id, run.approvals.length, decision.decision⟩] }
        c call ref wf d

/-- The reply to `step.run` or `asyncio.sleep`; a branch function is called without an await. -/
def awaitReply [StateDict D] (wf : WorkflowDef) (d : Drive D) (r : Reply D) : Option (Drive D) :=
  (answer wf d r).bind fun t =>
    match t.point with
    | .branching _ => answer wf t r
    | _ => some t

def Task.lose (t : Task D) : Task D :=
  match t.pc with
  | .returned _ => t
  | .raised _ => t
  | _ => ⟨t.call, .lost⟩

inductive Action (C D : Type)
  | begins (c : C) (call : Call D) (runId createdAt : String)
  | reads (c : C)
  | continues (c : C) (runId createdAt : String)
  | replies (c : C) (r : Reply D)
  | commits (c : C) (now : ℤ)
  | restart

def begin (workflows : Table WorkflowDef.name) (s : Registry C D) (c : C) (runId createdAt : String) :
    Call D → Option (Registry C D)
  | .runWorkflow name inputState (some key) =>
    if key = "" then some (enterExecute workflows s c name inputState (some key) runId createdAt)
    else some (s.setTask c ⟨.runWorkflow name inputState (some key), .looking key⟩)
  | .runWorkflow name inputState none =>
    some (enterExecute workflows s c name inputState none runId createdAt)
  | .getRun id =>
    match s.cache.get id with
    | some (_, ref) => some (s.setTask c ⟨.getRun id, .returned (some ref)⟩)
    | none => some (s.setTask c ⟨.getRun id, .loading id⟩)
  | .resumeRun id decision =>
    match s.cache.get id with
    | some (_, ref) => (s.objects[ref]?).map fun run =>
        decideOn workflows s c (.resumeRun id decision) ref run decision
    | none => some (s.setTask c ⟨.resumeRun id decision, .loading id⟩)

def read (store : RunRows D) : Pc D → Option (Pc D)
  | .looking key => some (.looked (getRunByIdempotencyKey store workflowKind key))
  | .loading runId => some (.loaded (getRun store runId))
  | .storing ref dumped => some (.committing ref dumped (getRun store dumped.id))
  | _ => none

def present (workflows : Table WorkflowDef.name) (s : Registry C D) (c : C) (run : WorkflowRun D) :
    Call D → Registry C D
  | .resumeRun id decision => decideOn workflows (s.adopt run) c (.resumeRun id decision)
      s.objects.length run decision
  | call => (s.adopt run).setTask c ⟨call, .returned (some s.objects.length)⟩

def goOn (workflows : Table WorkflowDef.name) (s : Registry C D) (c : C) (runId createdAt : String) :
    Call D → Option (AgentRun (RowPayload D)) → Registry C D
  | call, some row =>
    match modelValidate row.payload with
    | none => s.setTask c ⟨call, .raised .validationError⟩
    | some run => present workflows s c run call
  | .runWorkflow name inputState key, none =>
    enterExecute workflows s c name inputState key runId createdAt
  | .getRun id, none => s.setTask c ⟨.getRun id, .returned none⟩
  | .resumeRun id decision, none =>
    s.setTask c ⟨.resumeRun id decision, .raised (.keyError id)⟩

def step [StateDict D] [DecidableEq D] (workflows : Table WorkflowDef.name) (json : D → Option D)
    (s : Registry C D) : Action C D → Option (Registry C D)
  | .begins c call runId createdAt =>
    match s.tasks c with
    | some _ => none
    | none => begin workflows s c runId createdAt call
  | .reads c => (s.tasks c).bind fun t =>
      (read s.store t.pc).map fun pc => s.setTask c ⟨t.call, pc⟩
  | .continues c runId createdAt => (s.tasks c).bind fun t =>
      match t.pc with
      | .looked existing => some (goOn workflows s c runId createdAt t.call existing)
      | .loaded record => some (goOn workflows s c runId createdAt t.call record)
      | _ => none
  | .replies c r => (s.tasks c).bind fun t =>
      match t.pc with
      | .driving ref wf approved point => (s.objects[ref]?).bind fun run =>
          (awaitReply wf ⟨approved, run, point⟩ r).map fun d => proceed s c t.call ref wf d
      | _ => none
  | .commits c now => (s.tasks c).bind fun t =>
      match t.pc with
      | .committing ref dumped seen =>
        some ({ s with store := commitWorkflow json s.store seen dumped t.call.key now }.setTask c
          ⟨t.call, .returned (some ref)⟩)
      | _ => none
  | .restart =>
    some { s with cache := Table.empty _, tasks := fun c => (s.tasks c).map Task.lose }

theorem tasks_setTask (s : Registry C D) (c c' : C) (t : Task D) :
    (s.setTask c t).tasks c' = if c' = c then some t else s.tasks c' := by
  simp [Registry.setTask, Function.update_apply]

inductive Opening (s : Registry C D) : Call D → Pc D → Prop
  | looks (name : String) (inputState : D) (key : String) (hk : key ≠ "") :
      Opening s (.runWorkflow name inputState (some key)) (.looking key)
  | shows (id k : String) (ref : ℕ) (hc : s.cache.get id = some (k, ref)) :
      Opening s (.getRun id) (.returned (some ref))
  | loads (call : Call D) (id : String) (hc : s.cache.get id = none)
      (hcall : call = .getRun id ∨ ∃ decision, call = .resumeRun id decision) :
      Opening s call (.loading id)

inductive StepTo [StateDict D] [DecidableEq D] (workflows : Table WorkflowDef.name)
    (json : D → Option D) (s : Registry C D) : Action C D → Registry C D → Prop
  | opens (c : C) (call : Call D) (runId createdAt : String) (pc : Pc D) (hc : s.tasks c = none)
      (ho : Opening s call pc) :
      StepTo workflows json s (.begins c call runId createdAt) (s.setTask c ⟨call, pc⟩)
  | starts (c : C) (name : String) (inputState : D) (key : Option String) (runId createdAt : String)
      (hc : s.tasks c = none) (hk : ∀ k ∈ key, k = "") :
      StepTo workflows json s (.begins c (.runWorkflow name inputState key) runId createdAt)
        (enterExecute workflows s c name inputState key runId createdAt)
  | decides (c : C) (id : String) (decision : Decision) (runId createdAt k : String) (ref : ℕ)
      (run : WorkflowRun D) (hc : s.tasks c = none) (hcache : s.cache.get id = some (k, ref))
      (ho : s.objects[ref]? = some run) :
      StepTo workflows json s (.begins c (.resumeRun id decision) runId createdAt)
        (decideOn workflows s c (.resumeRun id decision) ref run decision)
  | reads (c : C) (t : Task D) (pc : Pc D) (hc : s.tasks c = some t)
      (hr : read s.store t.pc = some pc) :
      StepTo workflows json s (.reads c) (s.setTask c ⟨t.call, pc⟩)
  | goesOn (c : C) (t : Task D) (row : Option (AgentRun (RowPayload D))) (runId createdAt : String)
      (hc : s.tasks c = some t) (hp : t.pc = .looked row ∨ t.pc = .loaded row) :
      StepTo workflows json s (.continues c runId createdAt)
        (goOn workflows s c runId createdAt t.call row)
  | drives (c : C) (t : Task D) (r : Reply D) (ref : ℕ) (wf : WorkflowDef) (approved : List String)
      (point : Point) (run : WorkflowRun D) (d : Drive D) (hc : s.tasks c = some t)
      (hp : t.pc = .driving ref wf approved point) (ho : s.objects[ref]? = some run)
      (hd : awaitReply wf ⟨approved, run, point⟩ r = some d) :
      StepTo workflows json s (.replies c r) (proceed s c t.call ref wf d)
  | commits (c : C) (t : Task D) (now : ℤ) (ref : ℕ) (dumped : WorkflowRun D)
      (seen : Option (AgentRun (RowPayload D))) (hc : s.tasks c = some t)
      (hp : t.pc = .committing ref dumped seen) :
      StepTo workflows json s (.commits c now)
        ({ s with store := commitWorkflow json s.store seen dumped t.call.key now }.setTask c
          ⟨t.call, .returned (some ref)⟩)
  | restarts : StepTo workflows json s .restart
      { s with cache := Table.empty _, tasks := fun c => (s.tasks c).map Task.lose }

theorem step_cases [StateDict D] [DecidableEq D] {workflows : Table WorkflowDef.name}
    {json : D → Option D} {s t : Registry C D} {a : Action C D}
    (h : step workflows json s a = some t) : StepTo workflows json s a t := by
  cases a with
  | begins c call runId createdAt =>
    simp only [step] at h
    cases hc : s.tasks c with
    | some old => simp [hc] at h
    | none =>
      simp only [hc] at h
      cases call with
      | runWorkflow name inputState key =>
        rcases key with _ | key
        · cases h
          exact .starts c name inputState none runId createdAt hc (by simp)
        · simp only [begin] at h
          split_ifs at h with hk
          · cases h
            exact .starts c name inputState (some key) runId createdAt hc (by simpa using hk)
          · cases h
            exact .opens c _ runId createdAt _ hc (.looks name inputState key hk)
      | getRun id =>
        simp only [begin] at h
        split at h
        · rename_i k ref hcache
          cases h
          exact .opens c _ runId createdAt _ hc (.shows id k ref hcache)
        · rename_i hcache
          cases h
          exact .opens c _ runId createdAt _ hc (.loads _ id hcache (.inl rfl))
      | resumeRun id decision =>
        simp only [begin] at h
        split at h
        · rename_i k ref hcache
          obtain ⟨run, ho, rfl⟩ := Option.map_eq_some_iff.mp h
          exact .decides c id decision runId createdAt k ref run hc hcache ho
        · rename_i hcache
          cases h
          exact .opens c _ runId createdAt _ hc (.loads _ id hcache (.inr ⟨decision, rfl⟩))
  | reads c =>
    obtain ⟨task, hc, h⟩ := Option.bind_eq_some_iff.mp h
    obtain ⟨pc, hr, rfl⟩ := Option.map_eq_some_iff.mp h
    exact .reads c task pc hc hr
  | continues c runId createdAt =>
    obtain ⟨task, hc, h⟩ := Option.bind_eq_some_iff.mp h
    split at h
    · rename_i row hp
      cases h
      exact .goesOn c task row runId createdAt hc (.inl hp)
    · rename_i row hp
      cases h
      exact .goesOn c task row runId createdAt hc (.inr hp)
    · cases h
  | replies c r =>
    obtain ⟨task, hc, h⟩ := Option.bind_eq_some_iff.mp h
    split at h
    · rename_i ref wf approved point hp
      obtain ⟨run, ho, h⟩ := Option.bind_eq_some_iff.mp h
      obtain ⟨d, hd, rfl⟩ := Option.map_eq_some_iff.mp h
      exact .drives c task r ref wf approved point run d hc hp ho hd
    · cases h
  | commits c now =>
    obtain ⟨task, hc, h⟩ := Option.bind_eq_some_iff.mp h
    split at h
    · rename_i ref dumped seen hp
      cases h
      exact .commits c task now ref dumped seen hc hp
    · cases h
  | restart =>
    cases h
    exact .restarts

inductive GoOnTo (workflows : Table WorkflowDef.name) (s : Registry C D) (c : C)
    (runId createdAt : String) : Call D → Option (AgentRun (RowPayload D)) → Registry C D → Prop
  | invalid (call : Call D) (row : AgentRun (RowPayload D)) (hv : modelValidate row.payload = none) :
      GoOnTo workflows s c runId createdAt call (some row)
        (s.setTask c ⟨call, .raised .validationError⟩)
  | shows (call : Call D) (row : AgentRun (RowPayload D)) (run : WorkflowRun D)
      (hv : modelValidate row.payload = some run) (hcall : ∀ id d, call ≠ .resumeRun id d) :
      GoOnTo workflows s c runId createdAt call (some row)
        ((s.adopt run).setTask c ⟨call, .returned (some s.objects.length)⟩)
  | decides (id : String) (decision : Decision) (row : AgentRun (RowPayload D))
      (run : WorkflowRun D) (hv : modelValidate row.payload = some run) :
      GoOnTo workflows s c runId createdAt (.resumeRun id decision) (some row)
        (decideOn workflows (s.adopt run) c (.resumeRun id decision) s.objects.length run decision)
  | enters (name : String) (inputState : D) (key : Option String) :
      GoOnTo workflows s c runId createdAt (.runWorkflow name inputState key) none
        (enterExecute workflows s c name inputState key runId createdAt)
  | absent (id : String) : GoOnTo workflows s c runId createdAt (.getRun id) none
      (s.setTask c ⟨.getRun id, .returned none⟩)
  | unknown (id : String) (decision : Decision) :
      GoOnTo workflows s c runId createdAt (.resumeRun id decision) none
        (s.setTask c ⟨.resumeRun id decision, .raised (.keyError id)⟩)

theorem goOn_cases (workflows : Table WorkflowDef.name) (s : Registry C D) (c : C)
    (runId createdAt : String) (call : Call D) (row : Option (AgentRun (RowPayload D))) :
    GoOnTo workflows s c runId createdAt call row (goOn workflows s c runId createdAt call row) := by
  rcases row with _ | row
  · cases call with
    | runWorkflow name inputState key => exact .enters name inputState key
    | getRun id => exact .absent id
    | resumeRun id decision => exact .unknown id decision
  · cases hv : modelValidate row.payload with
    | none =>
      have hgo : goOn workflows s c runId createdAt call (some row) =
          s.setTask c ⟨call, .raised .validationError⟩ := by simp [goOn, hv]
      exact hgo ▸ .invalid call row hv
    | some run =>
      have hgo : goOn workflows s c runId createdAt call (some row) =
          present workflows s c run call := by simp [goOn, hv]
      rw [hgo]
      cases call with
      | runWorkflow name inputState key => exact .shows _ row run hv (by simp)
      | getRun id => exact .shows _ row run hv (by simp)
      | resumeRun id decision => exact .decides id decision row run hv

inductive DecideTo (workflows : Table WorkflowDef.name) (s : Registry C D) (c : C) (call : Call D)
    (ref : ℕ) (run : WorkflowRun D) (decision : Decision) : Registry C D → Prop
  | unregistered (hw : workflows.get run.workflow = none) :
      DecideTo workflows s c call ref run decision
        (s.setTask c ⟨call, .raised (.keyError run.workflow)⟩)
  | refused (wf : WorkflowDef) (message : String) (hw : workflows.get run.workflow = some wf)
      (hr : resume wf run decision = .error message) :
      DecideTo workflows s c call ref run decision
        (s.setTask c ⟨call, .raised (.approvalError message)⟩)
  | decided (wf : WorkflowDef) (d : Drive D) (hw : workflows.get run.workflow = some wf)
      (hr : resume wf run decision = .ok d) :
      DecideTo workflows s c call ref run decision (proceed { s with
        decided := s.decided ++ [⟨c, run.id, run.approvals.length, decision.decision⟩] }
        c call ref wf d)

theorem decideOn_cases (workflows : Table WorkflowDef.name) (s : Registry C D) (c : C)
    (call : Call D) (ref : ℕ) (run : WorkflowRun D) (decision : Decision) :
    DecideTo workflows s c call ref run decision
      (decideOn workflows s c call ref run decision) := by
  unfold decideOn
  cases hw : workflows.get run.workflow with
  | none => exact .unregistered hw
  | some wf =>
    simp only
    cases hr : resume wf run decision with
    | error message => exact .refused wf message hw hr
    | ok d => exact .decided wf d hw hr

inductive ProceedTo (s : Registry C D) (c : C) (call : Call D) (ref : ℕ) (wf : WorkflowDef)
    (d : Drive D) : Registry C D → Prop
  | ended (hp : d.point = .returned) : ProceedTo s c call ref wf d
      ({ s with
        objects := s.objects.set ref d.run
        cache := evictRefs (s.cache.put (d.run.id, ref)) }.setTask c ⟨call, .storing ref d.run⟩)
  | raised (exc : Exc) (hp : d.point = .raised exc) : ProceedTo s c call ref wf d
      ({ s with objects := s.objects.set ref d.run }.setTask c ⟨call, .raised (.raised exc)⟩)
  | awaits (hp : ¬ d.point.Ended) : ProceedTo s c call ref wf d
      ({ s with objects := s.objects.set ref d.run }.setTask c
        ⟨call, .driving ref wf d.approved d.point⟩)

theorem proceed_cases (s : Registry C D) (c : C) (call : Call D) (ref : ℕ) (wf : WorkflowDef)
    (d : Drive D) : ProceedTo s c call ref wf d (proceed s c call ref wf d) := by
  obtain ⟨approved, run, point⟩ := d
  cases point with
  | returned => exact .ended rfl
  | raised exc => exact .raised exc rfl
  | _ => exact .awaits id

theorem proceed_objects (s : Registry C D) (c : C) (call : Call D) (ref : ℕ) (wf : WorkflowDef)
    (d : Drive D) : (proceed s c call ref wf d).objects = s.objects.set ref d.run := by
  unfold proceed
  cases d.point <;> rfl

theorem proceed_history (s : Registry C D) (c : C) (call : Call D) (ref : ℕ) (wf : WorkflowDef)
    (d : Drive D) : (proceed s c call ref wf d).decided = s.decided ∧
      (proceed s c call ref wf d).executed = s.executed := by
  unfold proceed
  cases d.point <;> exact ⟨rfl, rfl⟩

theorem read_cases {store : RunRows D} {pc pc' : Pc D} (h : read store pc = some pc') :
    (∃ key, pc = .looking key ∧
      pc' = .looked (getRunByIdempotencyKey store workflowKind key)) ∨
    (∃ runId, pc = .loading runId ∧ pc' = .loaded (store.get runId)) ∨
    ∃ ref dumped, pc = .storing ref dumped ∧ pc' = .committing ref dumped (store.get dumped.id) := by
  cases pc with
  | looking key => exact .inl ⟨key, rfl, (Option.some.inj h).symm⟩
  | loading runId => exact .inr (.inl ⟨runId, rfl, (Option.some.inj h).symm⟩)
  | storing ref dumped => exact .inr (.inr ⟨ref, dumped, rfl, (Option.some.inj h).symm⟩)
  | _ => cases h

structure Framed (s t : Registry C D) (c : C) (call : Call D) : Prop where
  store : t.store = s.store
  others : ∀ c', c' ≠ c → t.tasks c' = s.tasks c'
  called : ∃ pc, t.tasks c = some ⟨call, pc⟩
  decided : ∀ e ∈ s.decided, e ∈ t.decided

theorem framed_setTask (s : Registry C D) (c : C) (t : Task D) :
    Framed s (s.setTask c t) c t.call where
  store := rfl
  others c' hne := by rw [tasks_setTask, if_neg hne]
  called := ⟨t.pc, by rw [tasks_setTask, if_pos rfl]⟩
  decided _ := id

theorem framed_proceed (s : Registry C D) (c : C) (call : Call D) (ref : ℕ) (wf : WorkflowDef)
    (d : Drive D) : Framed s (proceed s c call ref wf d) c call := by
  have hto := proceed_cases s c call ref wf d
  generalize proceed s c call ref wf d = t at hto ⊢
  cases hto with
  | ended hp => exact ⟨rfl, (framed_setTask _ c _).others, (framed_setTask _ c _).called, fun _ => id⟩
  | raised exc hp =>
    exact ⟨rfl, (framed_setTask _ c _).others, (framed_setTask _ c _).called, fun _ => id⟩
  | awaits hp => exact ⟨rfl, (framed_setTask _ c _).others, (framed_setTask _ c _).called, fun _ => id⟩

theorem framed_enterExecute (workflows : Table WorkflowDef.name) (s : Registry C D) (c : C)
    (name : String) (inputState : D) (key : Option String) (runId createdAt : String) :
    Framed s (enterExecute workflows s c name inputState key runId createdAt) c
      (.runWorkflow name inputState key) := by
  unfold enterExecute
  cases hw : workflows.get name with
  | none => exact framed_setTask s c _
  | some wf =>
    have hf := framed_proceed { s with
      objects := s.objects ++ [newRun wf runId createdAt inputState]
      executed := s.executed ++ [⟨c, key, runId⟩] } c (.runWorkflow name inputState key)
      s.objects.length wf (execute wf runId createdAt inputState)
    exact ⟨hf.store, hf.others, hf.called, hf.decided⟩

theorem framed_decideOn (workflows : Table WorkflowDef.name) (s : Registry C D) (c : C)
    (call : Call D) (ref : ℕ) (run : WorkflowRun D) (decision : Decision) :
    Framed s (decideOn workflows s c call ref run decision) c call := by
  have hto := decideOn_cases workflows s c call ref run decision
  generalize decideOn workflows s c call ref run decision = t at hto ⊢
  cases hto with
  | unregistered hw => exact framed_setTask s c _
  | refused wf message hw hr => exact framed_setTask s c _
  | decided wf d hw hr =>
    have hf := framed_proceed { s with
      decided := s.decided ++ [⟨c, run.id, run.approvals.length, decision.decision⟩] } c call ref wf d
    exact ⟨hf.store, hf.others, hf.called, fun e he => hf.decided e (List.mem_append_left _ he)⟩

theorem framed_goOn (workflows : Table WorkflowDef.name) (s : Registry C D) (c : C)
    (runId createdAt : String) (call : Call D) (row : Option (AgentRun (RowPayload D))) :
    Framed s (goOn workflows s c runId createdAt call row) c call := by
  have hto := goOn_cases workflows s c runId createdAt call row
  generalize goOn workflows s c runId createdAt call row = t at hto ⊢
  cases hto with
  | invalid call r hv => exact framed_setTask s c _
  | shows call r run hv hcall =>
    have hf := framed_setTask (s.adopt run) c ⟨call, .returned (some s.objects.length)⟩
    exact ⟨hf.store, hf.others, hf.called, hf.decided⟩
  | decides id decision r run hv =>
    have hf := framed_decideOn workflows (s.adopt run) c (.resumeRun id decision) s.objects.length run
      decision
    exact ⟨hf.store, hf.others, hf.called, hf.decided⟩
  | enters name inputState key =>
    exact framed_enterExecute workflows s c name inputState key runId createdAt
  | absent id => exact framed_setTask s c _
  | unknown id decision => exact framed_setTask s c _

end Workbench.RegistryCalls
