import Workbench.ApprovalGates
import Workbench.WorkflowRegistry

namespace Workbench.WorkflowEngine

variable {D : Type} {wf : WorkflowDef}

def SameRun (run run' : WorkflowRun D) : Prop := run'.id = run.id ∧ run'.workflow = run.workflow

theorem sameRun_loopHead (wf : WorkflowDef) (approved : List String) (run : WorkflowRun D)
    (current : Option String) : SameRun run (loopHead wf approved run current).run := by
  have hhead := loopHead_cases wf approved run current
  generalize loopHead wf approved run current = t at hhead ⊢
  cases hhead <;> exact ⟨rfl, rfl⟩

theorem approvals_loopHead (wf : WorkflowDef) (approved : List String) (run : WorkflowRun D)
    (current : Option String) :
    (loopHead wf approved run current).run.approvals = run.approvals := by
  have hhead := loopHead_cases wf approved run current
  generalize loopHead wf approved run current = t at hhead ⊢
  cases hhead <;> rfl

variable [StateDict D]

theorem sameRun_answer {d t : Drive D} {r : Reply D} (h : answer wf d r = some t) :
    SameRun d.run t.run := by
  cases answer_cases h with
  | stops step n updates hp hr hn => exact sameRun_loopHead wf d.approved _ none
  | goes step n updates name hp hr hn => exact sameRun_loopHead wf d.approved _ (some name)
  | chooses step current hp hr => exact sameRun_loopHead wf d.approved _ current
  | _ => exact ⟨rfl, rfl⟩

theorem approvals_answer {d t : Drive D} {r : Reply D} (h : answer wf d r = some t) :
    t.run.approvals = d.run.approvals := by
  cases answer_cases h with
  | stops step n updates hp hr hn => exact approvals_loopHead wf d.approved _ none
  | goes step n updates name hp hr hn => exact approvals_loopHead wf d.approved _ (some name)
  | chooses step current hp hr => exact approvals_loopHead wf d.approved _ current
  | _ => rfl

theorem approvals_complete (wf : WorkflowDef) (env : ℕ → Reply D) (d : Drive D) :
    (complete wf env d).run.approvals = d.run.approvals :=
  play_invariant (I := fun t => t.run.approvals = d.run.approvals)
    (fun _ _ _ hs hstep => (approvals_answer hstep).trans hs) rfl _

theorem sameRun_complete (wf : WorkflowDef) (env : ℕ → Reply D) (d : Drive D) :
    SameRun d.run (complete wf env d).run := by
  refine play_invariant (I := fun t => SameRun d.run t.run) ?_ ⟨rfl, rfl⟩ _
  intro s r t hs hstep
  obtain ⟨hid, hworkflow⟩ := sameRun_answer hstep
  exact ⟨hid.trans hs.1, hworkflow.trans hs.2⟩

omit [StateDict D] in
theorem sameRun_resume {run : WorkflowRun D} {c : Decision} {d : Drive D}
    (h : resume wf run c = .ok d) : SameRun run d.run := by
  obtain ⟨gate, _, _, ⟨_, rfl⟩ | ⟨_, rfl⟩⟩ := resume_cases h
  · exact ⟨rfl, rfl⟩
  · exact sameRun_loopHead wf _ _ (some gate)

omit [StateDict D] in
theorem approvals_resume {run : WorkflowRun D} {c : Decision} {d : Drive D}
    (h : resume wf run c = .ok d) : d.run.approvals.length = run.approvals.length + 1 := by
  obtain ⟨gate, _, _, ⟨_, rfl⟩ | ⟨_, rfl⟩⟩ := resume_cases h
  · exact List.length_append
  · rw [drive, approvals_loopHead]
    exact List.length_append

end Workbench.WorkflowEngine

namespace Workbench.WorkflowRegistry

open KeyedTable RunStore WorkflowEngine Services

variable {I D : Type} [DecidableEq I] [StateDict D] {workflows : Table WorkflowDef.name}
  {json : D → Option D}

def Resumable (workflows : Table WorkflowDef.name) (run : WorkflowRun D) : Prop :=
  ∃ wf ∈ workflows.get run.workflow, run.status = .awaitingApproval →
    ∃ gate ∈ run.pendingStep, gate ∈ wf.steps.map Step.name

structure Registered (workflows : Table WorkflowDef.name) (g : Gateway D) : Prop where
  cached : ∀ k run, g.cache.get k = some run → Resumable workflows run
  stored : ∀ k row run, g.store.get k = some row → modelValidate row.payload = some run →
    Resumable workflows run ∧ run.id = k

omit [StateDict D] in
theorem resume_sound {wf : WorkflowDef} {run : WorkflowRun D} {c : Decision} {d : Drive D}
    (h : resume wf run c = .ok d) (hp : ∃ gate ∈ run.pendingStep, gate ∈ wf.steps.map Step.name) :
    (Sound wf d ∧ ¬ d.point.Raised) ∨ d.point = .returned ∧ d.run.status = .rejected := by
  obtain ⟨gate, _, hpending, ⟨_, rfl⟩ | ⟨_, rfl⟩⟩ := resume_cases h
  · exact .inr ⟨rfl, rfl⟩
  · obtain ⟨gate', hg, hknown⟩ := hp
    obtain rfl : gate = gate' := Option.some.inj (hpending.symm.trans hg)
    unfold drive
    refine .inl ⟨Sound.loopHead ?_ (some gate), ?_⟩
    · rfl
    · rw [raised_loopHead]
      rintro ⟨_, ⟨⟩, hn, _⟩
      exact hn hknown

theorem resumable_complete {wf : WorkflowDef} {d : Drive D}
    (hw : workflows.get d.run.workflow = some wf)
    (h : Sound wf d ∨ d.point = .returned ∧ d.run.status = .rejected) (env : ℕ → Reply D) :
    Resumable workflows (complete wf env d).run := by
  refine ⟨wf, (sameRun_complete wf env d).2 ▸ hw, fun hs => ?_⟩
  rcases h with hsound | ⟨hp, hrejected⟩
  · exact (hsound.complete env).pending hs
  · have hended : d.point.Ended := by rw [hp]; trivial
    rw [complete, play_ended_eq hended, hrejected] at hs
    cases hs

omit [StateDict D] in
theorem Registered.put {g : Gateway D} (h : Registered workflows g) {run : WorkflowRun D}
    (hr : Resumable workflows run) : Registered workflows ⟨g.cache.put run, g.store⟩ where
  cached k cached hc := by
    rw [Table.get_put] at hc
    split_ifs at hc
    · cases hc
      exact hr
    · exact h.cached k cached hc
  stored := h.stored

omit [StateDict D] in
theorem Registered.storeRun {g : Gateway D} (h : Registered workflows g) {run : WorkflowRun D}
    (hr : Resumable workflows run) (key : Option String) (now : ℤ) :
    Registered workflows (storeRun json g run key now) where
  cached k cached hc := (h.put hr).cached k cached (Table.get_drop hc)
  stored k row run' hs hm := by
    rcases get_upsertWorkflow hs with hold | ⟨hk, _, written, hrun, hpayload⟩
    · exact h.stored k row run' hold hm
    · obtain ⟨state, attempts, rfl⟩ := roundTrip_id hrun
      rw [hpayload] at hm
      cases hm
      exact ⟨hr, hk.symm⟩

omit [StateDict D] in
theorem Registered.loaded {g : Gateway D} (h : Registered workflows g) (runId : String) :
    Registered workflows (load g runId).1 ∧
      ∀ run, (load g runId).2 = .ok (some run) → Resumable workflows run := by
  rcases load_cases g runId with ⟨run, hl, hc⟩ | ⟨hl, _⟩ | ⟨row, hl, _⟩ | ⟨row, run, hl, _, hs, hm⟩
  · rw [hl]
    refine ⟨h, ?_⟩
    rintro _ ⟨⟩
    exact h.cached runId run hc
  · rw [hl]
    exact ⟨h, by simp⟩
  · rw [hl]
    exact ⟨h, by simp⟩
  · have hr := (h.stored runId row run hs hm).1
    rw [hl]
    refine ⟨h.put hr, ?_⟩
    rintro _ ⟨⟩
    exact hr

theorem Registered.runWorkflow {g : Gateway D} (h : Registered workflows g) (name : String)
    (inputState : D) (key : Option String) (runId createdAt : String) (env : Env D) :
    Registered workflows
      (runWorkflow workflows json g name inputState key runId createdAt env).1 := by
  unfold WorkflowRegistry.runWorkflow
  split
  · rename_i existing he
    split
    · exact h
    · rename_i run hm
      obtain ⟨k, _, hfind⟩ := Option.bind_eq_some_iff.mp he
      unfold getRunByIdempotencyKey at hfind
      split_ifs at hfind
      have hstored := Table.get_of_mem (List.mem_of_find?_eq_some hfind)
      exact h.put (h.stored _ existing run hstored hm).1
  · split
    · exact h
    · rename_i wf hw
      have hname : wf.name = name := Table.key_of_get hw
      simp only
      split
      · exact h
      · refine h.storeRun (resumable_complete ?_ (.inl (sound_execute wf runId createdAt inputState).1)
          env.replies) key env.now
        have hsame := (sameRun_loopHead wf (approvedSteps (newRun wf runId createdAt inputState))
          (newRun wf runId createdAt inputState) (some wf.entry)).2
        rw [execute, drive, hsame]
        change workflows.get wf.name = some wf
        rw [hname, hw]

section Resume

variable {g g' : Gateway D} {runId : String} {run : WorkflowRun D} {wf : WorkflowDef} {c : Decision}
  {d : Drive D}

theorem resumeRun_refused {message : String} (hl : load g runId = (g', .ok (some run)))
    (hw : workflows.get run.workflow = some wf) (hr : resume wf run c = .error message)
    (env : Env D) :
    resumeRun workflows json g runId c env = (g', .error (.approvalError message)) := by
  simp [resumeRun, hl, hw, hr]

theorem resumeRun_raised {exc : Exc} (hl : load g runId = (g', .ok (some run)))
    (hw : workflows.get run.workflow = some wf) (hr : resume wf run c = .ok d) (env : Env D)
    (hp : (complete wf env.replies d).point = .raised exc) :
    resumeRun workflows json g runId c env =
      (⟨g'.cache.put (complete wf env.replies d).run, g'.store⟩, .error (.raised exc)) := by
  simp [resumeRun, hl, hw, hr, hp]

theorem resumeRun_driven (hl : load g runId = (g', .ok (some run)))
    (hw : workflows.get run.workflow = some wf) (hr : resume wf run c = .ok d) (env : Env D)
    (hp : ¬ (complete wf env.replies d).point.Raised) :
    resumeRun workflows json g runId c env =
      (storeRun json g' (complete wf env.replies d).run none env.now,
        .ok (complete wf env.replies d).run) := by
  simp only [resumeRun, hl, hw, hr]
  cases he : (complete wf env.replies d).point with
  | raised exc => exact absurd (he ▸ trivial) hp
  | _ => rfl

end Resume

theorem Registered.resumeRun {g : Gateway D} (h : Registered workflows g) (runId : String)
    (c : Decision) (env : Env D) :
    Registered workflows (resumeRun workflows json g runId c env).1 := by
  obtain ⟨hload, hloaded⟩ := h.loaded runId
  rcases hl : load g runId with ⟨g', loaded⟩
  rw [hl] at hload hloaded
  rcases loaded with e | _ | run
  · simpa [WorkflowRegistry.resumeRun, hl] using hload
  · simpa [WorkflowRegistry.resumeRun, hl] using hload
  · obtain ⟨wf, hw, hpending⟩ := hloaded run rfl
    cases hr : resume wf run c with
    | error message => exact resumeRun_refused hl hw hr env ▸ hload
    | ok d =>
      obtain ⟨_, hs, _⟩ := resume_cases hr
      have hsame : d.run.workflow = run.workflow := (sameRun_resume hr).2
      have hresumable := resumable_complete (hsame ▸ hw)
        ((resume_sound hr (hpending hs)).imp_left And.left) env.replies
      by_cases hp : (complete wf env.replies d).point.Raised
      · cases he : (complete wf env.replies d).point with
        | raised exc => exact resumeRun_raised hl hw hr env he ▸ hload.put hresumable
        | _ => simp [he, Point.Raised] at hp
      · exact resumeRun_driven hl hw hr env hp ▸ hload.storeRun hresumable none env.now

def AllRegistered (workflows : Table WorkflowDef.name) (c : Cluster I D) : Prop :=
  ∀ i, Registered workflows (c.gateway i)

omit [StateDict D] in
theorem AllRegistered.set {c : Cluster I D} (h : AllRegistered workflows c) {i : I} {g : Gateway D}
    (hg : Registered workflows g) : AllRegistered workflows (c.set i g) := by
  intro j
  refine ⟨fun k run hc => ?_, hg.stored⟩
  simp only [Cluster.gateway, Cluster.set, Function.update_apply] at hc
  split_ifs at hc
  · exact hg.cached k run hc
  · exact (h j).cached k run hc

theorem AllRegistered.handle {c : Cluster I D} (h : AllRegistered workflows c) (q : Request I D) :
    AllRegistered workflows (handle workflows json c q).1 := by
  cases q with
  | runWorkflow i name inputState key runId createdAt env =>
    exact h.set ((h i).runWorkflow name inputState key runId createdAt env)
  | getRun i runId => exact h.set ((h i).loaded runId).1
  | resumeRun i runId d env => exact h.set ((h i).resumeRun runId d env)
  | restart i =>
    refine h.set ⟨fun k run hc => ?_, (h i).stored⟩
    simp [Table.empty, Table.get] at hc

omit [DecidableEq I] [StateDict D] in
theorem allRegistered_deployed (workflows : Table WorkflowDef.name) (rows : RunTable Unit) :
    AllRegistered workflows (deployed (D := D) I rows) := by
  refine fun i => ⟨fun k run hc => ?_, fun k row run hs hm => ?_⟩
  · simp [Cluster.gateway, deployed, Table.empty, Table.get] at hc
  · obtain ⟨_, _, rfl⟩ := List.mem_map.mp (Table.mem_of_get hs)
    simp [modelValidate] at hm

def Blamed (g : Gateway D) (runId : String) : RegistryError → Prop
  | .keyError key => key = runId ∧ lookup g runId = none
  | .approvalError _ => ∃ run ∈ lookup g runId, run.status ≠ .awaitingApproval
  | _ => False

/-- The id is not that of a row of another kind, and the calls of the resumed drive all answer. -/
def ResumeAnswers (workflows : Table WorkflowDef.name) (g : Gateway D) (runId : String)
    (c : Decision) (env : Env D) : Prop :=
  (g.cache.get runId = none → ∀ row ∈ g.store.get runId, (modelValidate row.payload).isSome) ∧
    ∀ run ∈ lookup g runId, ∀ wf ∈ workflows.get run.workflow, ∀ d, resume wf run c = .ok d →
      CallsAnswer wf env.replies d

theorem callsAnswer_ended {wf : WorkflowDef} {d : Drive D} (h : d.point.Ended)
    (env : ℕ → Reply D) : CallsAnswer wf env d := by
  refine Transitions.obeys_iff.mpr fun xs r ys u _ hu => callAnswers_ended ?_ r
  cases xs with
  | nil =>
    cases hu
    exact h
  | cons x xs => simp [Transitions.exec, answer_eq_none.mpr h] at hu

theorem raised_resumed {wf : WorkflowDef} {run : WorkflowRun D} {c : Decision} {d : Drive D}
    (h : resume wf run c = .ok d) (hp : ∃ gate ∈ run.pendingStep, gate ∈ wf.steps.map Step.name)
    (env : ℕ → Reply D) : (complete wf env d).point.Raised ↔ ¬ CallsAnswer wf env d := by
  rcases resume_sound h hp with ⟨hsound, hraised⟩ | ⟨hreturned, _⟩
  · exact raised_complete hsound hraised env
  · have hended : d.point.Ended := by rw [hreturned]; trivial
    refine iff_of_false ?_ fun hn => hn (callsAnswer_ended hended env)
    rw [complete, play_ended_eq hended, hreturned]
    exact id

def endingBranches : Env Unit := ⟨fun _ => ⟨⟨0, (), .ok none⟩, ⟨(), .ok none⟩⟩, 0⟩

def gatedOnly : Table WorkflowDef.name := ⟨[grants true], by simp⟩

end Workbench.WorkflowRegistry
