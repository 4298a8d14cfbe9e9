import Workbench.IdempotencyKeys
import Workbench.RegisteredDrives
import Mathlib.Data.Fintype.Basic

namespace Workbench.RegistryCalls

open KeyedTable RunStore Transitions WorkflowEngine WorkflowRegistry

variable {C D : Type} {wf : WorkflowDef} [DecidableEq C] {workflows : Table WorkflowDef.name}

theorem proceed_setTask (s : Registry C D) (c : C) (t : Task D) (call : Call D) (ref : ℕ)
    (wf : WorkflowDef) (d : Drive D) :
    proceed (s.setTask c t) c call ref wf d = proceed s c call ref wf d := by
  unfold proceed Registry.setTask
  cases d.point <;> simp [Function.update_idem]

theorem proceed_object (s : Registry C D) (c : C) (run : WorkflowRun D) (call : Call D) (ref : ℕ)
    (wf : WorkflowDef) (d : Drive D) :
    proceed { s with objects := s.objects.set ref run } c call ref wf d =
      proceed s c call ref wf d := by
  unfold proceed
  simp [List.set_set]

theorem Steady.proceed {s : Registry C D} (h : Steady s) {c : C} {call : Call D} {ref : ℕ}
    {approved : List String} {point : Point} {run : WorkflowRun D} {d : Drive D}
    (hc : s.tasks c = some ⟨call, .driving ref wf approved point⟩) (ho : s.objects[ref]? = some run)
    (hid : d.run.id = run.id) (happrovals : d.run.approvals = run.approvals)
    (hlive : ¬ d.point.Ended → d.run.status ≠ .awaitingApproval)
    (hraised : d.point.Raised → Recorded s.store run) :
    Steady (proceed s c call ref wf d) := by
  have hto := proceed_cases s c call ref wf d
  generalize RegistryCalls.proceed s c call ref wf d = t at hto ⊢
  cases hto with
  | ended hp =>
    have ha : Advances s c _ ⟨call, .storing ref d.run⟩ ref run d.run :=
      ⟨hc, ⟨_, _, _, rfl⟩, ho, hid, happrovals, rfl, .inr (.inl rfl)⟩
    apply h.advance ha
    intro k id r hk
    have hk := Table.get_drop hk
    rw [Table.get_put] at hk
    split_ifs at hk with hkey
    · cases hk
      exact .inr ⟨hkey.symm.trans hid, rfl⟩
    · exact .inl hk
  | raised exc hp =>
    have ha : Advances s c _ ⟨call, .raised (.raised exc)⟩ ref run d.run :=
      ⟨hc, ⟨_, _, _, rfl⟩, ho, hid, happrovals, rfl,
        .inr (.inr ⟨⟨_, rfl⟩, hraised (by rw [hp]; trivial)⟩)⟩
    exact h.advance ha fun _ _ _ => .inl
  | awaits hp =>
    have ha : Advances s c _ ⟨call, .driving ref wf d.approved d.point⟩ ref run d.run :=
      ⟨hc, ⟨_, _, _, rfl⟩, ho, hid, happrovals, rfl, .inl ⟨⟨_, _, _, rfl⟩, hlive hp⟩⟩
    exact h.advance ha fun _ _ _ => .inl

structure Fresh (s : Registry C D) (runId : String) : Prop where
  objects : ∀ run ∈ s.objects, run.id ≠ runId
  rows : ∀ row ∈ s.store.rows, row.id ≠ runId ∧ ∀ run ∈ modelValidate row.payload, run.id ≠ runId
  tasks : ∀ c, ∀ t ∈ s.tasks c, ∀ run ∈ t.pc.carried, run.id ≠ runId

omit [DecidableEq C] in
theorem Fresh.copy {s : Registry C D} {runId : String} (h : Fresh s runId) :
    ∀ copy, Copy s copy → copy.id ≠ runId := by
  rintro copy (ho | ⟨k, hs⟩ | ⟨c, t, hc, hr⟩)
  · exact h.objects copy ho
  · obtain ⟨row, hrow, hrun⟩ := storedAt_iff.mp hs
    exact (h.rows row (Table.mem_of_get hrow)).2 copy hrun
  · exact h.tasks c t hc copy hr

omit [DecidableEq C] in
theorem Fresh.row {s : Registry C D} {runId : String} (h : Fresh s runId) :
    ∀ run, ¬ StoredAt s.store runId run := by
  intro run hs
  obtain ⟨row, hrow, _⟩ := storedAt_iff.mp hs
  exact (h.rows row (Table.mem_of_get hrow)).1 (Table.key_of_get hrow)

theorem Steady.enterExecute {s : Registry C D} (h : Steady s) {c : C} (hc : Unladen s c)
    {runId : String} (hfresh : Fresh s runId) (name : String) (inputState : D) (key : Option String)
    (createdAt : String) :
    Steady (enterExecute workflows s c name inputState key runId createdAt) := by
  unfold RegistryCalls.enterExecute
  cases hw : workflows.get name with
  | none => exact h.idle c trivial fun old run ho hworks => absurd hworks (hc old run ho)
  | some wf =>
    simp only
    -- as though the task drove the new run before its first stretch
    let entry : Executed C := ⟨c, key, runId⟩
    have hentered : Steady ({ s with
        objects := s.objects ++ [newRun wf runId createdAt inputState]
        executed := s.executed ++ [entry] }.setTask c
        ⟨.runWorkflow name inputState key, .driving s.objects.length wf [] .returned⟩) :=
      h.enter ⟨hfresh.copy, hfresh.row, rfl, by simp [newRun], hc, ⟨_, _, _, rfl⟩⟩ _
    obtain ⟨hsound, hraised⟩ := sound_execute wf runId createdAt inputState
    rw [← proceed_setTask]
    have hobject : (s.objects ++ [newRun wf runId createdAt inputState])[s.objects.length]? =
        some (newRun wf runId createdAt inputState) := object_new.mpr (.inr ⟨rfl, rfl⟩)
    refine hentered.proceed (by rw [tasks_setTask, if_pos rfl]) hobject
      (sameRun_loopHead wf _ (newRun wf runId createdAt inputState) (some wf.entry)).1
      (approvals_loopHead wf _ (newRun wf runId createdAt inputState) (some wf.entry))
      (fun hl => ?_) fun hr => absurd hr hraised
    simp [hsound.live hl]

theorem Supplied.enterExecute {s : Registry C D} (h : Supplied workflows s) (hs : Steady s) (c : C)
    (name : String) (inputState : D) (key : Option String) (runId createdAt : String) :
    Supplied workflows (enterExecute workflows s c name inputState key runId createdAt) := by
  unfold RegistryCalls.enterExecute
  cases hw : workflows.get name with
  | none => exact h.idle c trivial
  | some wf =>
    have hname : workflows.get wf.name = some wf := by rw [Table.key_of_get hw, hw]
    have hnew : Resumable workflows (newRun wf runId createdAt inputState) :=
      ⟨wf, hname, by simp [newRun]⟩
    have hsame := (sameRun_loopHead wf (approvedSteps (newRun wf runId createdAt inputState))
      (newRun wf runId createdAt inputState) (some wf.entry)).2
    have hget : workflows.get (execute wf runId createdAt inputState).run.workflow = some wf := by
      rw [execute, drive, hsame]
      exact hname
    obtain ⟨hsound, _⟩ := sound_execute wf runId createdAt inputState
    refine (h.object hs hnew s.cache _).proceed ?_ ⟨wf, hget, hsound.pending⟩
      (fun _ => ⟨hget, hsound⟩) _
    intro c' t wf' approved point hc' hp
    obtain ⟨old, hd⟩ := hs.driven c' t _ wf' approved point hc' hp
    simpa using (List.getElem?_eq_some_iff.mp hd.object).1

theorem resume_decided {run : WorkflowRun D} {c : Decision} {d : Drive D}
    (h : resume wf run c = .ok d) : ∃ run' : WorkflowRun D, run'.id = run.id ∧
      run'.approvals.length = run.approvals.length + 1 ∧ run'.status ≠ .awaitingApproval ∧
      d.run.id = run'.id ∧ d.run.approvals = run'.approvals := by
  obtain ⟨gate, _, _, ⟨_, rfl⟩ | ⟨_, rfl⟩⟩ := resume_cases h
  · exact ⟨{ recordDecision run gate c with status := .rejected }, rfl, by simp [recordDecision],
      by simp, rfl, rfl⟩
  · exact ⟨{ recordDecision run gate c with status := .running }, rfl, by simp [recordDecision],
      by simp, (sameRun_loopHead wf _ _ (some gate)).1, approvals_loopHead wf _ _ (some gate)⟩

structure Orderly (workflows : Table WorkflowDef.name) (s : Registry C D) : Prop where
  steady : Steady s
  supplied : Supplied workflows s

theorem Orderly.quiet {s : Registry C D} (h : Orderly workflows s) {c : C} (hc : Unladen s c)
    {t : Task D} (ht : t.pc.Idle) : Orderly workflows (s.setTask c t) :=
  ⟨h.steady.idle c ht fun old run ho hw => absurd hw (hc old run ho), h.supplied.idle c ht⟩

theorem Orderly.decideOn {s : Registry C D} (horderly : Orderly workflows s) {c : C}
    (hc : Unladen s c) {call : Call D} (hkey : call.key = none) {k id : String} {ref : ℕ}
    {run : WorkflowRun D} (hcache : s.cache.get k = some (id, ref)) (ho : s.objects[ref]? = some run)
    (decision : Decision) : Orderly workflows (decideOn workflows s c call ref run decision) := by
  have ⟨h, hw⟩ := horderly
  have hto := decideOn_cases workflows s c call ref run decision
  generalize RegistryCalls.decideOn workflows s c call ref run decision = t at hto ⊢
  cases hto with
  | unregistered hg => exact horderly.quiet hc trivial
  | refused wf message hg hr => exact horderly.quiet hc trivial
  | decided wf d hg hr =>
    obtain ⟨gate, hs, hpending, _⟩ := resume_cases hr
    obtain ⟨run', hid, hlength, hstatus, hdid, hdapprovals⟩ := resume_decided hr
    obtain ⟨other, ho', hgate⟩ := hw.copies run (.inl (List.mem_of_getElem? ho))
    obtain rfl : wf = other := Option.some.inj (hg.symm.trans ho')
    have hsound := resume_sound hr (hgate hs)
    have hlive : ¬ d.point.Ended → Sound wf d := fun hl => hsound.elim And.left
      fun he => absurd (by rw [he.1]; trivial) hl
    have hraised : ¬ d.point.Raised := hsound.elim And.right fun he => by simp [he.1, Point.Raised]
    constructor
    · let entry : Decided C := ⟨c, run.id, run.approvals.length, decision.decision⟩
      have hdecided : Steady ({ s with
          objects := s.objects.set ref run'
          decided := s.decided ++ [entry] }.setTask c
          ⟨call, .driving ref wf [] .returned⟩) :=
        h.decide ⟨hcache, ho, hs, hc, hid, hlength, hstatus, hkey, ⟨_, _, _, rfl⟩⟩ _ rfl
      rw [← proceed_object _ c run', ← proceed_setTask]
      have hobject : (s.objects.set ref run')[ref]? = some run' :=
        (object_set ho).mpr (.inl ⟨rfl, rfl⟩)
      refine hdecided.proceed (by rw [tasks_setTask, if_pos rfl]) hobject hdid hdapprovals (fun hl => ?_)
        fun hr => absurd hr hraised
      simp [(hlive hl).live hl]
    · have hsame : d.run.workflow = run.workflow := (sameRun_resume hr).2
      have hdecided : Supplied workflows { s with
          decided := s.decided ++ [⟨c, run.id, run.approvals.length, decision.decision⟩] } :=
        ⟨hw.copies, hw.driven⟩
      refine hdecided.proceed (fun c' t wf' approved point hc' hp => ?_) ⟨wf, hsame ▸ hg, fun ha => ?_⟩
        (fun hl => ⟨hsame ▸ hg, hlive hl⟩) call
      · obtain ⟨old, hd⟩ := h.driven c' t ref wf' approved point hc' hp
        obtain rfl : run = old := Option.some.inj (ho.symm.trans hd.object)
        exact absurd hs hd.status
      · rcases hsound with ⟨hsound, _⟩ | ⟨_, hrejected⟩
        · exact hsound.pending ha
        · rw [hrejected] at ha
          cases ha

def NotPassed (s : Registry C D) (run : WorkflowRun D) : Prop :=
  (∀ c, ∀ t ∈ s.tasks c, ∀ other ∈ t.pc.work s.objects, other.id = run.id →
    other.approvals.length ≤ run.approvals.length) ∧
  ∀ other ∈ storedRun s.store run.id, other.approvals.length ≤ run.approvals.length

def Survives [StateDict D] (s : Registry C D) (r : Reply D) : Pc D → Prop
  | .driving ref wf approved point => ∀ run ∈ s.objects[ref]?,
      ReplyAnswers wf ⟨approved, run, point⟩ r ∨ Recorded s.store run
  | _ => True

def Writes (json : D → Option D) (s : Registry C D) : Pc D → Prop
  | .committing _ dumped seen => Lands s.store seen dumped ∧
      (dumped.approvals = [] ∨ (roundTrip json dumped).isSome)
  | _ => True

/-- New ids are new. A task that goes on from a store read with an awaiting copy finds its
suspension not passed. No decision is lost with a drive that raises, an upsert that does not land or
a restart. -/
def Undisturbed [StateDict D] (json : D → Option D) (s : Registry C D) : Action C D → Prop
  | .begins _ _ runId _ => Fresh s runId
  | .reads _ => True
  | .continues c runId _ => Fresh s runId ∧ ∀ t ∈ s.tasks c, ∀ run ∈ t.pc.carried,
      run.status = .awaitingApproval → NotPassed s run
  | .replies c r => ∀ t ∈ s.tasks c, Survives s r t.pc
  | .commits c _ => ∀ t ∈ s.tasks c, Writes json s t.pc
  | .restart => ∀ c, ∀ t ∈ s.tasks c, ∀ run ∈ t.pc.work s.objects, Recorded s.store run

section Decidable

variable [DecidableEq D]

instance (store : RunRows D) (run : WorkflowRun D) : Decidable (Recorded store run) := by
  unfold Recorded
  infer_instance

instance (store : RunRows D) (seen : Option (AgentRun (RowPayload D))) (dumped : WorkflowRun D) :
    Decidable (Lands store seen dumped) := by
  unfold Lands
  split <;> infer_instance

instance [StateDict D] (wf : WorkflowDef) (d : Drive D) (r : Reply D) :
    Decidable (ReplyAnswers wf d r) := by
  unfold ReplyAnswers
  infer_instance

instance [StateDict D] (s : Registry C D) (r : Reply D) (pc : Pc D) : Decidable (Survives s r pc) := by
  unfold Survives
  split <;> infer_instance

instance (json : D → Option D) (s : Registry C D) (pc : Pc D) : Decidable (Writes json s pc) := by
  unfold Writes
  split <;> infer_instance

variable [Fintype C]

instance (s : Registry C D) (runId : String) : Decidable (Fresh s runId) :=
  decidable_of_iff ((∀ run ∈ s.objects, run.id ≠ runId) ∧
    (∀ row ∈ s.store.rows, row.id ≠ runId ∧ ∀ run ∈ modelValidate row.payload, run.id ≠ runId) ∧
    ∀ c, ∀ t ∈ s.tasks c, ∀ run ∈ t.pc.carried, run.id ≠ runId)
    ⟨fun ⟨ho, hr, ht⟩ => ⟨ho, hr, ht⟩, fun h => ⟨h.objects, h.rows, h.tasks⟩⟩

instance (s : Registry C D) (run : WorkflowRun D) : Decidable (NotPassed s run) := by
  unfold NotPassed
  infer_instance

instance [StateDict D] (json : D → Option D) (s : Registry C D) (a : Action C D) :
    Decidable (Undisturbed json s a) := by
  cases a <;> unfold Undisturbed <;> infer_instance

end Decidable

theorem Orderly.enterExecute {s : Registry C D} (h : Orderly workflows s) {c : C}
    (hc : Unladen s c) {runId : String} (hfresh : Fresh s runId) (name : String) (inputState : D)
    (key : Option String) (createdAt : String) :
    Orderly workflows (enterExecute workflows s c name inputState key runId createdAt) :=
  ⟨h.steady.enterExecute hc hfresh name inputState key createdAt,
    h.supplied.enterExecute h.steady c name inputState key runId createdAt⟩

theorem Orderly.goOn {s : Registry C D} (h : Orderly workflows s) {c : C} {t : Task D}
    {row : Option (AgentRun (RowPayload D))} (hc : s.tasks c = some t)
    (hp : t.pc = .looked row ∨ t.pc = .loaded row) {runId : String} (hfresh : Fresh s runId)
    (hpassed : ∀ run ∈ t.pc.carried, run.status = .awaitingApproval → NotPassed s run)
    (createdAt : String) : Orderly workflows (goOn workflows s c runId createdAt t.call row) := by
  have hunladen : ∀ u : Registry C D, u.tasks = s.tasks → Unladen u c := by
    intro u hu old other ho hw
    obtain rfl : t = old := Option.some.inj (hc.symm.trans (hu ▸ ho))
    rcases hp with hp | hp <;> simp [hp, Pc.work] at hw
  have hadopt : ∀ r run, row = some r → modelValidate r.payload = some run →
      Orderly workflows (s.adopt run) := by
    intro r run hr hv
    have hcarried : t.pc.Carries run := by
      rcases hp with hp | hp <;> simp [hp, hr, hv, Pc.carried]
    have hsnapshot : Snapshot s run := .inr ⟨c, t, hc, hcarried⟩
    refine ⟨h.steady.adopt hsnapshot fun ha => ?_,
      h.supplied.object h.steady (h.supplied.copies run (.inr hsnapshot)) _ _⟩
    obtain ⟨hwork, hstored⟩ := hpassed run hcarried ha
    apply h.steady.ahead _ hstored
    rintro other ⟨c', t', hc', hw⟩
    exact hwork c' t' hc' other hw
  have hto := goOn_cases workflows s c runId createdAt t.call row
  generalize RegistryCalls.goOn workflows s c runId createdAt t.call row = u at hto ⊢
  generalize t.call = call at hto
  cases hto with
  | invalid call r hv => exact h.quiet (hunladen s rfl) trivial
  | shows call r run hv hcall => exact (hadopt r run rfl hv).quiet (hunladen _ rfl) trivial
  | decides id decision r run hv =>
    have hcached : (s.adopt run).cache.get run.id = some (run.id, s.objects.length) := by
      change (s.cache.put (run.id, s.objects.length)).get run.id = _
      rw [Table.get_put, if_pos rfl]
    have hobject : (s.objects ++ [run])[s.objects.length]? = some run :=
      object_new.mpr (.inr ⟨rfl, rfl⟩)
    exact (hadopt r run rfl hv).decideOn (hunladen _ rfl) rfl hcached hobject decision
  | enters name inputState key =>
    exact h.enterExecute (hunladen s rfl) hfresh name inputState key createdAt
  | absent id => exact h.quiet (hunladen s rfl) trivial
  | unknown id decision => exact h.quiet (hunladen s rfl) trivial

theorem Orderly.reads {s : Registry C D} (h : Orderly workflows s) {c : C} {t : Task D} {pc : Pc D}
    (hc : s.tasks c = some t) (hr : read s.store t.pc = some pc) :
    Orderly workflows (s.setTask c ⟨t.call, pc⟩) := by
  have hstored : ∀ run row, s.store.get row.id = some row → modelValidate row.payload = some run →
      Snapshot s run := fun run row hrow hrun => .inl ⟨row.id, storedAt_iff.mpr ⟨row, hrow, hrun⟩⟩
  have hcarries : ∀ run, pc.Carries run → Snapshot s run := by
    intro run hcarried
    rcases read_cases hr with ⟨key, _, rfl⟩ | ⟨runId, _, rfl⟩ | ⟨ref, dumped, hp, rfl⟩
    · obtain ⟨row, hrow, hrun⟩ := Option.bind_eq_some_iff.mp hcarried
      exact hstored run row (Table.get_of_mem (getByKey_mem hrow).1) hrun
    · obtain ⟨row, hrow, hrun⟩ := Option.bind_eq_some_iff.mp hcarried
      exact hstored run row (Table.get_of_mem (Table.mem_of_get hrow)) hrun
    · exact .inr ⟨c, t, hc, by rw [hp]; exact hcarried⟩
  have hdrives : ∀ ref wf approved point, pc ≠ .driving ref wf approved point := by
    rintro ref wf approved point rfl
    rcases read_cases hr with ⟨_, _, hpc⟩ | ⟨_, _, hpc⟩ | ⟨_, _, _, hpc⟩ <;> cases hpc
  have hworks : ∀ run, t.pc.Works s.objects run ↔ pc.Works s.objects run := by
    intro run
    rcases read_cases hr with ⟨key, hp, rfl⟩ | ⟨runId, hp, rfl⟩ | ⟨ref, dumped, hp, rfl⟩ <;>
      simp [hp, Pc.work]
  refine ⟨h.steady.setTask c hcarries hdrives (fun old run ho hw => .inl ?_) fun run hk hw => ?_,
    h.supplied.setTask c hcarries hdrives⟩
  · obtain rfl : t = old := Option.some.inj (hc.symm.trans ho)
    exact (hworks run).mp hw
  · exact h.steady.keyed c t run hc hk ((hworks run).mpr hw)

section Runs

variable [StateDict D] [DecidableEq D] {json : D → Option D}

omit [DecidableEq D] in
theorem Orderly.drives {s : Registry C D} (h : Orderly workflows s) {c : C} {t : Task D} {ref : ℕ}
    {approved : List String} {point : Point} {run : WorkflowRun D} {r : Reply D} {d : Drive D}
    (hc : s.tasks c = some t) (hp : t.pc = .driving ref wf approved point)
    (ho : s.objects[ref]? = some run) (hd : awaitReply wf ⟨approved, run, point⟩ r = some d)
    (hg : ReplyAnswers wf ⟨approved, run, point⟩ r ∨ Recorded s.store run) :
    Orderly workflows (proceed s c t.call ref wf d) := by
  obtain ⟨⟨hid, hworkflow⟩, happrovals⟩ := awaitReply_same hd
  obtain ⟨hget, hsound⟩ := h.supplied.driven c t ref wf approved point run hc hp ho
  obtain ⟨driven, hdrives⟩ := h.steady.driven c t ref wf approved point hc hp
  have hsoundly := sound_awaitReply hd hsound
  have hgetd : workflows.get d.run.workflow = some wf := hworkflow ▸ hget
  have hc' : s.tasks c = some ⟨t.call, .driving ref wf approved point⟩ := hp ▸ hc
  refine ⟨h.steady.proceed hc' ho hid happrovals (fun hl => ?_) fun hr => ?_,
    h.supplied.proceed hdrives.alone ⟨wf, hgetd, hsoundly.pending⟩ (fun _ => ⟨hgetd, hsoundly⟩) _⟩
  · simp [hsoundly.live hl]
  · exact hg.resolve_left fun ha => ha.lives hsound hd hr

omit [StateDict D] in
theorem Orderly.commits {s : Registry C D} (h : Orderly workflows s) {c : C} {t : Task D} {ref : ℕ}
    {dumped : WorkflowRun D} {seen : Option (AgentRun (RowPayload D))} (hc : s.tasks c = some t)
    (hp : t.pc = .committing ref dumped seen) (hl : Lands s.store seen dumped)
    (hj : dumped.approvals = [] ∨ (roundTrip json dumped).isSome) (now : ℤ) :
    Orderly workflows
      ({ s with store := commitWorkflow json s.store seen dumped t.call.key now }.setTask c
        ⟨t.call, .returned (some ref)⟩) := by
  have hrewritten : Supplied workflows
      { s with store := commitWorkflow json s.store seen dumped t.call.key now } := by
    refine ⟨?_, h.supplied.driven⟩
    rintro run (ho | ⟨k, hs⟩ | hcarried)
    · exact h.supplied.copies run (.inl ho)
    · rcases storedAt_commit hs with hold | ⟨_, hrun⟩
      · exact h.supplied.copies run (.inr (.inl ⟨k, hold⟩))
      · obtain ⟨state, attempts, rfl⟩ := roundTrip_id hrun
        exact h.supplied.copies dumped (.inr (.inr ⟨c, t, hc, by rw [hp]; rfl⟩))
    · exact h.supplied.copies run (.inr (.inr hcarried))
  exact ⟨h.steady.commit hc hp hl hj now, hrewritten.idle c trivial⟩

theorem Orderly.step {s t : Registry C D} {a : Action C D} (h : Orderly workflows s)
    (hg : Undisturbed json s a) (hs : step workflows json s a = some t) : Orderly workflows t := by
  cases step_cases hs with
  | opens c call runId createdAt pc hc ho =>
    have hunladen : Unladen s c := by simp [Unladen, hc]
    apply h.quiet hunladen
    cases ho <;> trivial
  | starts c name inputState key runId createdAt hc hk =>
    exact h.enterExecute (by simp [Unladen, hc]) hg name inputState key createdAt
  | decides c id decision runId createdAt k ref run hc hcache ho =>
    exact h.decideOn (by simp [Unladen, hc]) rfl hcache ho decision
  | reads c t pc hc hr => exact h.reads hc hr
  | goesOn c t row runId createdAt hc hp =>
    exact h.goOn hc hp hg.1 (fun run hr => hg.2 t hc run hr) createdAt
  | drives c t r ref wf approved point run d hc hp ho hd =>
    have hg := hg t hc
    rw [hp] at hg
    exact h.drives hc hp ho hd (hg run ho)
  | commits c t now ref dumped seen hc hp =>
    have hg := hg t hc
    rw [hp] at hg
    exact h.commits hc hp hg.1 hg.2 now
  | restarts =>
    refine ⟨h.steady.restart fun run ⟨c, t, hc, hw⟩ => hg c t hc run hw, ?_, ?_⟩
    · rintro run (ho | hs | ⟨c, t, hc, hcarried⟩)
      · exact h.supplied.copies run (.inl ho)
      · exact h.supplied.copies run (.inr (.inl hs))
      · exact absurd hcarried ((lost_idle hc).carries run)
    · intro c t ref wf approved point run hc hp
      have hi := lost_idle hc
      rw [hp] at hi
      exact absurd hi not_false

theorem Orderly.reached {store : RunRows D} (hother : ∀ k run, ¬ StoredAt store k run)
    {s : Registry C D}
    (h : Reaches (RegistryCalls.step workflows json) (Undisturbed json) (booted C store) s) :
    Orderly workflows s := by
  refine h.invariant ⟨steady_booted hother, ?_, ?_⟩ fun s a t hs hg hstep => hs.step hg hstep
  · rintro run (ho | ⟨k, hs⟩ | ⟨c, t, hc, _⟩)
    · cases ho
    · exact absurd hs (hother k run)
    · cases hc
  · rintro c t ref wf approved point run ⟨⟩

end Runs

end Workbench.RegistryCalls
