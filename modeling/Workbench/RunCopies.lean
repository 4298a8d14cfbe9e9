import Workbench.RegistryCalls

namespace Workbench.RegistryCalls

open KeyedTable RunStore WorkflowEngine WorkflowRegistry

variable {C D : Type}

def storedRun (store : RunRows D) (k : String) : Option (WorkflowRun D) :=
  (store.get k).bind fun row => modelValidate row.payload

abbrev StoredAt (store : RunRows D) (k : String) (run : WorkflowRun D) : Prop :=
  run ∈ storedRun store k

theorem storedAt_iff {store : RunRows D} {k : String} {run : WorkflowRun D} :
    StoredAt store k run ↔ ∃ row, store.get k = some row ∧ modelValidate row.payload = some run :=
  Option.bind_eq_some_iff

/-- The copy of a run that a task holds, from the store or on its way there. -/
def Pc.carried : Pc D → Option (WorkflowRun D)
  | .looked row => row.bind fun row => modelValidate row.payload
  | .loaded row => row.bind fun row => modelValidate row.payload
  | .storing _ dumped => some dumped
  | .committing _ dumped _ => some dumped
  | _ => none

abbrev Pc.Carries (run : WorkflowRun D) (pc : Pc D) : Prop := run ∈ pc.carried

/-- The run that a task drives, or the copy of it that it writes. -/
def Pc.work (objects : List (WorkflowRun D)) : Pc D → Option (WorkflowRun D)
  | .driving ref _ _ _ => objects[ref]?
  | .storing _ dumped => some dumped
  | .committing _ dumped _ => some dumped
  | _ => none

abbrev Pc.Works (objects : List (WorkflowRun D)) (run : WorkflowRun D) (pc : Pc D) : Prop :=
  run ∈ pc.work objects

theorem Pc.Works.objects {pc : Pc D} {objects objects' : List (WorkflowRun D)}
    {run : WorkflowRun D} (h : pc.Works objects run)
    (ho : ∀ ref wf approved point, pc = .driving ref wf approved point →
      objects[ref]? = some run → objects'[ref]? = some run) : pc.Works objects' run := by
  cases pc with
  | driving ref wf approved point => exact ho ref wf approved point rfl h
  | _ => exact h

def Snapshot (s : Registry C D) (run : WorkflowRun D) : Prop :=
  (∃ k, StoredAt s.store k run) ∨ ∃ c t, s.tasks c = some t ∧ t.pc.Carries run

def Copy (s : Registry C D) (run : WorkflowRun D) : Prop := run ∈ s.objects ∨ Snapshot s run

def InFlight (s : Registry C D) (run : WorkflowRun D) : Prop :=
  ∃ c t, s.tasks c = some t ∧ t.pc.Works s.objects run

def Recorded (store : RunRows D) (run : WorkflowRun D) : Prop :=
  run.approvals = [] ∨
    ∃ stored, StoredAt store run.id stored ∧ run.approvals.length ≤ stored.approvals.length

def Decided.on (e : Decided C) : String × ℕ := (e.runId, e.suspension)

def Ahead (s : Registry C D) (run : WorkflowRun D) : Prop :=
  ∀ m, (run.id, m) ∈ s.decided.map Decided.on → m < run.approvals.length

structure Leads (s : Registry C D) (ref : ℕ) (run : WorkflowRun D) : Prop where
  objects : ∀ j other, s.objects[j]? = some other → j ≠ ref → other.id = run.id →
    other.approvals.length < run.approvals.length
  snapshots : ∀ other, Snapshot s other → other.id = run.id →
    other.approvals.length < run.approvals.length

structure Drives (s : Registry C D) (c : C) (ref : ℕ) (run : WorkflowRun D) : Prop where
  object : s.objects[ref]? = some run
  status : run.status ≠ .awaitingApproval
  ahead : Ahead s run
  leads : Leads s ref run
  alone : ∀ c' t wf approved point, s.tasks c' = some t → t.pc = .driving ref wf approved point →
    c' = c

def Held (s : Registry C D) (runId : String) (m : ℕ) : Prop :=
  (∃ run, InFlight s run ∧ run.id = runId ∧ m < run.approvals.length) ∨
    ∃ run, StoredAt s.store runId run ∧ m < run.approvals.length

structure Steady (s : Registry C D) : Prop where
  once : (s.decided.map Decided.on).Nodup
  copied : ∀ run, Copy s run → ∀ m < run.approvals.length, (run.id, m) ∈ s.decided.map Decided.on
  cached : ∀ k id ref, s.cache.get k = some (id, ref) → ∃ run, s.objects[ref]? = some run ∧
    run.id = k ∧ (run.status = .awaitingApproval → Ahead s run)
  driven : ∀ c t ref wf approved point, s.tasks c = some t → t.pc = .driving ref wf approved point →
    ∃ run, Drives s c ref run
  held : ∀ runId m, (runId, m) ∈ s.decided.map Decided.on → Held s runId m
  keyed : ∀ c t run, s.tasks c = some t → t.call.key.isSome → t.pc.Works s.objects run →
    run.approvals = []

theorem steady_booted {store : RunRows D} (hother : ∀ k run, ¬ StoredAt store k run) :
    Steady (booted C store) where
  once := List.nodup_nil
  copied run hc := by
    rcases hc with ho | ⟨k, hs⟩ | ⟨c, t, hc, _⟩
    · cases ho
    · exact absurd hs (hother k run)
    · cases hc
  cached k id ref hc := by cases hc
  driven c t ref wf approved point hc := by cases hc
  held runId m hm := by cases hm
  keyed c t run hc := by cases hc

theorem Steady.ahead {s : Registry C D} (h : Steady s) {run : WorkflowRun D}
    (hwork : ∀ other, InFlight s other → other.id = run.id →
      other.approvals.length ≤ run.approvals.length)
    (hrow : ∀ other, StoredAt s.store run.id other →
      other.approvals.length ≤ run.approvals.length) : Ahead s run := by
  intro m hm
  rcases h.held run.id m hm with ⟨other, hf, hid, hlt⟩ | ⟨other, hs, hlt⟩
  · exact hlt.trans_le (hwork other hf hid)
  · exact hlt.trans_le (hrow other hs)

variable [DecidableEq C]

theorem snapshot_setTask {s s' : Registry C D} (hstore : s'.store = s.store)
    (htasks : s'.tasks = s.tasks) {c : C} {t : Task D} {run : WorkflowRun D}
    (h : Snapshot (s'.setTask c t) run) : Snapshot s run ∨ t.pc.Carries run := by
  rcases h with hs | ⟨c', u, hc, hcarries⟩
  · exact .inl (.inl (hstore ▸ hs))
  · rw [tasks_setTask, htasks] at hc
    split_ifs at hc
    · cases hc
      exact .inr hcarries
    · exact .inl (.inr ⟨c', u, hc, hcarries⟩)

theorem alone_setTask {s s' : Registry C D} (htasks : s'.tasks = s.tasks) {c d : C} {t : Task D}
    {ref : ℕ} (hold : ∀ c' u wf approved point, c' ≠ c → s.tasks c' = some u →
      u.pc = .driving ref wf approved point → c' = d)
    (hnew : ∀ wf approved point, t.pc = .driving ref wf approved point → c = d) (c' : C) (u : Task D)
    (wf : WorkflowDef) (approved : List String) (point : Point)
    (hc : (s'.setTask c t).tasks c' = some u) (hp : u.pc = .driving ref wf approved point) :
    c' = d := by
  rw [tasks_setTask, htasks] at hc
  split_ifs at hc with hcc
  · cases hc
    exact hcc.trans (hnew wf approved point hp)
  · exact hold c' u wf approved point hcc hc hp

theorem Steady.setTask {s : Registry C D} (h : Steady s) (c : C) {t : Task D}
    (hcarries : ∀ run, t.pc.Carries run → Snapshot s run)
    (hdrives : ∀ ref wf approved point, t.pc ≠ .driving ref wf approved point)
    (hworks : ∀ old run, s.tasks c = some old → old.pc.Works s.objects run →
      t.pc.Works s.objects run ∨ Recorded s.store run)
    (hkeyed : ∀ run, t.call.key.isSome → t.pc.Works s.objects run → run.approvals = []) :
    Steady (s.setTask c t) := by
  have hsnapshot : ∀ run, Snapshot (s.setTask c t) run → Snapshot s run := fun run hs =>
    (snapshot_setTask rfl rfl hs).elim id (hcarries run)
  refine ⟨h.once, fun run hr => h.copied run (hr.imp_right (hsnapshot run)), h.cached, ?_, ?_, ?_⟩
  · intro c' t' ref wf approved point hc hp
    rw [tasks_setTask] at hc
    split_ifs at hc
    · cases hc
      exact absurd hp (hdrives ref wf approved point)
    · obtain ⟨run, hd⟩ := h.driven c' t' ref wf approved point hc hp
      refine ⟨run, hd.object, hd.status, hd.ahead,
        ⟨hd.leads.objects, fun other ho => hd.leads.snapshots other (hsnapshot other ho)⟩,
        alone_setTask rfl (fun c'' u wf approved point _ => hd.alone c'' u wf approved point) ?_⟩
      intro wf' approved' point' hp'
      exact absurd hp' (hdrives ref wf' approved' point')
  · intro runId m hm
    rcases h.held runId m hm with ⟨run, ⟨c', t', hc, hw⟩, hid, hlt⟩ | hrow
    · by_cases hcc : c' = c
      · subst hcc
        rcases hworks t' run hc hw with hnew | hnil | ⟨stored, hs, hle⟩
        · exact .inl ⟨run, ⟨c', t, by simp [tasks_setTask], hnew⟩, hid, hlt⟩
        · simp [hnil] at hlt
        · exact .inr ⟨stored, hid ▸ hs, hlt.trans_le hle⟩
      · exact .inl ⟨run, ⟨c', t', by simp [tasks_setTask, hcc, hc], hw⟩, hid, hlt⟩
    · exact .inr hrow
  · intro c' t' run hc hk hw
    rw [tasks_setTask] at hc
    split_ifs at hc
    · cases hc
      exact hkeyed run hk hw
    · exact h.keyed c' t' run hc hk hw

def Pc.Idle : Pc D → Prop
  | .looking _ => True
  | .loading _ => True
  | .returned _ => True
  | .raised _ => True
  | .looked none => True
  | .loaded none => True
  | .lost => True
  | _ => False

theorem Pc.Idle.carries {pc : Pc D} (h : pc.Idle) (run : WorkflowRun D) : ¬ pc.Carries run := by
  unfold Pc.Idle at h
  split at h <;> simp_all [Pc.carried]

theorem Pc.Idle.works {pc : Pc D} (h : pc.Idle) (objects : List (WorkflowRun D))
    (run : WorkflowRun D) : ¬ pc.Works objects run := by
  unfold Pc.Idle at h
  split at h <;> simp_all [Pc.work]

theorem Steady.idle {s : Registry C D} (h : Steady s) (c : C) {t : Task D} (hi : t.pc.Idle)
    (hworks : ∀ old run, s.tasks c = some old → old.pc.Works s.objects run → Recorded s.store run) :
    Steady (s.setTask c t) := by
  refine h.setTask c (fun run hr => absurd hr (hi.carries run)) (fun ref wf approved point hp => ?_)
    (fun old run hc hw => .inr (hworks old run hc hw)) fun run _ hw => absurd hw (hi.works _ run)
  rw [hp] at hi
  exact hi

omit [DecidableEq C] in
theorem object_new {objects : List (WorkflowRun D)} {run other : WorkflowRun D} {j : ℕ} :
    (objects ++ [run])[j]? = some other ↔
      objects[j]? = some other ∨ j = objects.length ∧ other = run := by
  rw [List.getElem?_append]
  split_ifs with hj
  · simp [hj.ne]
  · rw [List.getElem?_eq_none (Nat.le_of_not_lt hj)]
    cases hk : j - objects.length with
    | zero => simp [show j = objects.length by omega, eq_comm]
    | succ k => simp [show j ≠ objects.length by omega]

omit [DecidableEq C] in
theorem Steady.adopt {s : Registry C D} (h : Steady s) {run : WorkflowRun D} (hs : Snapshot s run)
    (ha : run.status = .awaitingApproval → Ahead s run) : Steady (s.adopt run) := by
  have hold : ∀ {j : ℕ} {other : WorkflowRun D}, s.objects[j]? = some other →
      (s.objects ++ [run])[j]? = some other := fun ho => object_new.mpr (.inl ho)
  refine ⟨h.once, ?_, ?_, ?_, ?_, ?_⟩
  · rintro other (ho | ho)
    · rcases List.mem_append.mp ho with ho | ho
      · exact h.copied other (.inl ho)
      · obtain rfl := List.mem_singleton.mp ho
        exact h.copied other (.inr hs)
    · exact h.copied other (.inr ho)
  · intro k id ref hc
    change (s.cache.put (run.id, s.objects.length)).get k = _ at hc
    rw [Table.get_put] at hc
    split_ifs at hc with hk
    · cases hc
      exact ⟨run, by simp [Registry.adopt], hk, ha⟩
    · obtain ⟨other, ho, hid, hahead⟩ := h.cached k id ref hc
      exact ⟨other, hold ho, hid, hahead⟩
  · intro c t ref wf approved point hc hp
    obtain ⟨other, hd⟩ := h.driven c t ref wf approved point hc hp
    refine ⟨other, hold hd.object, hd.status, hd.ahead, ⟨fun j copy hj hne hid => ?_, ?_⟩, hd.alone⟩
    · rcases object_new.mp hj with hj | ⟨_, rfl⟩
      · exact hd.leads.objects j copy hj hne hid
      · exact hd.leads.snapshots copy hs hid
    · exact fun copy => hd.leads.snapshots copy
  · intro runId m hm
    refine (h.held runId m hm).imp_left ?_
    rintro ⟨other, ⟨c, t, hc, hw⟩, hrest⟩
    exact ⟨other, ⟨c, t, hc, hw.objects fun _ _ _ _ _ ho => hold ho⟩, hrest⟩
  · intro c t other hc hk hw
    refine h.keyed c t other hc hk (hw.objects fun ref wf approved point hp ho => ?_)
    obtain ⟨driven, hd⟩ := h.driven c t ref wf approved point hc hp
    obtain rfl : driven = other := Option.some.inj ((hold hd.object).symm.trans ho)
    exact hd.object

omit [DecidableEq C] in
theorem lost_idle {s : Registry C D} {c : C} {t : Task D}
    (h : (s.tasks c).map Task.lose = some t) : t.pc.Idle := by
  obtain ⟨old, _, rfl⟩ := Option.map_eq_some_iff.mp h
  unfold Task.lose
  cases hp : old.pc <;> simp [hp, Pc.Idle]

omit [DecidableEq C] in
theorem Steady.restart {s : Registry C D} (h : Steady s)
    (hr : ∀ run, InFlight s run → Recorded s.store run) :
    Steady { s with cache := Table.empty _, tasks := fun c => (s.tasks c).map Task.lose } := by
  have hidle : ∀ c t, (s.tasks c).map Task.lose = some t → t.pc.Idle := fun c t => lost_idle
  refine ⟨h.once, ?_, fun k id ref hc => ?_, fun c t ref wf approved point hc hp => ?_, ?_, ?_⟩
  · rintro run (ho | ho | ⟨c, t, hc, hcarries⟩)
    · exact h.copied run (.inl ho)
    · exact h.copied run (.inr (.inl ho))
    · exact absurd hcarries ((hidle c t hc).carries run)
  · cases hc
  · have hi := hidle c t hc
    rw [hp] at hi
    exact absurd hi id
  · intro runId m hm
    rcases h.held runId m hm with ⟨run, hf, rfl, hlt⟩ | hrow
    · rcases hr run hf with hnil | ⟨stored, hs, hle⟩
      · simp [hnil] at hlt
      · exact .inr ⟨stored, hs, hlt.trans_le hle⟩
    · exact .inr hrow
  · intro c t run hc _ hw
    exact absurd hw ((hidle c t hc).works _ run)

section Commit

variable [DecidableEq D] {json : D → Option D} {store : RunRows D}
  {seen : Option (AgentRun (RowPayload D))} {dumped : WorkflowRun D}

/-- The commit finds the row as its `session.get` saw it, or with as many decisions as it writes,
and never with more. -/
def Lands (store : RunRows D) (seen : Option (AgentRun (RowPayload D))) (dumped : WorkflowRun D) :
    Prop :=
  match store.get dumped.id with
  | none => seen = none
  | some row => ∃ run ∈ modelValidate row.payload,
      run.approvals.length ≤ dumped.approvals.length ∧
        (dumped.approvals.length ≤ run.approvals.length ∨
          ∃ old ∈ seen, modelValidate old.payload = some run)

omit [DecidableEq D] in
theorem modelValidate_inj {p q : RowPayload D} {run : WorkflowRun D} (hp : modelValidate p = some run)
    (hq : modelValidate q = some run) : p = q := by
  cases p <;> cases q <;> simp_all [modelValidate]

omit [DecidableEq D] in
theorem roundTrip_approvals {run run' : WorkflowRun D} (h : roundTrip json run = some run') :
    run'.id = run.id ∧ run'.approvals = run.approvals := by
  obtain ⟨state, attempts, rfl⟩ := roundTrip_id h
  exact ⟨rfl, rfl⟩

theorem storedAt_commit {key : Option String} {now : ℤ} {k : String} {run : WorkflowRun D}
    (h : StoredAt (commitWorkflow json store seen dumped key now) k run) :
    StoredAt store k run ∨ k = dumped.id ∧ roundTrip json dumped = some run := by
  obtain ⟨row, hrow, hrun⟩ := storedAt_iff.mp h
  unfold commitWorkflow at hrow
  split at hrow
  · exact .inl (storedAt_iff.mpr ⟨row, hrow, hrun⟩)
  · rename_i payload hpayload
    cases hw : commitRun store seen dumped.id workflowKind (rowStatus dumped.status)
        (.workflow payload) key none now with
    | none =>
      rw [hw] at hrow
      exact .inl (storedAt_iff.mpr ⟨row, hrow, hrun⟩)
    | some written =>
      rw [hw] at hrow
      have hrow : written.get k = some row := hrow
      obtain ⟨hother, row', hget, hcases⟩ := commitRun_row hw
      by_cases hk : k = dumped.id
      · subst hk
        obtain rfl : row' = row := Option.some.inj (hget.symm.trans hrow)
        rcases hcases with hnew | ⟨old, r, _, hr, _, hsame⟩
        · rw [hnew] at hrun
          cases hrun
          exact .inr ⟨rfl, hpayload⟩
        · exact .inl (storedAt_iff.mpr ⟨r, hr, hsame ▸ hrun⟩)
      · exact .inl (storedAt_iff.mpr ⟨row, hother k hk ▸ hrow, hrun⟩)

theorem Lands.kept (h : Lands store seen dumped) {k : String} {run : WorkflowRun D}
    (hs : StoredAt store k run) (json : D → Option D) (key : Option String) (now : ℤ) :
    ∃ run', StoredAt (commitWorkflow json store seen dumped key now) k run' ∧
      run.approvals.length ≤ run'.approvals.length := by
  obtain ⟨row, hrow, hrun⟩ := storedAt_iff.mp hs
  unfold commitWorkflow
  split
  · exact ⟨run, hs, le_rfl⟩
  · rename_i payload hpayload
    cases hw : commitRun store seen dumped.id workflowKind (rowStatus dumped.status)
        (.workflow payload) key none now with
    | none => exact ⟨run, hs, le_rfl⟩
    | some written =>
      obtain ⟨hother, row', hget, hcases⟩ := commitRun_row hw
      by_cases hk : k = dumped.id
      · subst hk
        rcases hcases with hnew | ⟨old, r, _, hr, _, hsame⟩
        · simp only [Lands, hrow] at h
          obtain ⟨known, hknown, hle, _⟩ := h
          obtain rfl : run = known := Option.some.inj (hrun.symm.trans hknown)
          refine ⟨payload, storedAt_iff.mpr ⟨row', hget, by rw [hnew]; rfl⟩, ?_⟩
          rwa [(roundTrip_approvals hpayload).2]
        · obtain rfl : r = row := Option.some.inj (hr.symm.trans hrow)
          exact ⟨run, storedAt_iff.mpr ⟨row', hget, hsame ▸ hrun⟩, le_rfl⟩
      · exact ⟨run, storedAt_iff.mpr ⟨row, (hother k hk).trans hrow, hrun⟩, le_rfl⟩

theorem commit_current (hj : (roundTrip json dumped).isSome)
    (hsame : seen.isSome = (store.get dumped.id).isSome)
    (hold : ∀ old r, seen = some old → store.get dumped.id = some r → r.payload = old.payload)
    (now : ℤ) : Recorded (commitWorkflow json store seen dumped none now) dumped := by
  obtain ⟨payload, hpayload⟩ := Option.isSome_iff_exists.mp hj
  have hsome : (commitRun store seen dumped.id workflowKind (rowStatus dumped.status)
      (.workflow payload) none none now).isSome := commitRun_isSome hsame
  obtain ⟨written, hw⟩ := Option.isSome_iff_exists.mp hsome
  obtain ⟨_, row, hget, hcases⟩ := commitRun_row hw
  have hwritten : row.payload = .workflow payload := by
    rcases hcases with hnew | ⟨old, r, hseen, hr, hp, hkept⟩
    · exact hnew
    · rw [hkept, hold old r hseen hr, hp]
  refine .inr ⟨payload, storedAt_iff.mpr ⟨row, ?_, by rw [hwritten]; rfl⟩, (roundTrip_approvals hpayload).2.symm ▸ le_rfl⟩
  simp [commitWorkflow, hpayload, hw, hget]

theorem Lands.recorded (h : Lands store seen dumped) (hj : (roundTrip json dumped).isSome) (now : ℤ) :
    Recorded (commitWorkflow json store seen dumped none now) dumped := by
  have hlands := h
  unfold Lands at h
  cases hrow : store.get dumped.id with
  | none =>
    rw [hrow] at h
    exact commit_current hj (by simp [hrow, show seen = none from h]) (by simp [hrow]) now
  | some row =>
    rw [hrow] at h
    obtain ⟨run, hrun, _, hge | ⟨old, hold, hsame⟩⟩ := h
    · obtain ⟨run', hs, hle'⟩ := hlands.kept (storedAt_iff.mpr ⟨row, hrow, hrun⟩) json none now
      exact .inr ⟨run', hs, hge.trans hle'⟩
    · refine commit_current hj (by simp [hrow, Option.mem_def.mp hold]) ?_ now
      rintro old' r rfl hr
      obtain rfl : old' = old := Option.some.inj hold
      obtain rfl : row = r := Option.some.inj (hrow.symm.trans hr)
      exact modelValidate_inj hrun hsame

omit [DecidableEq C] [DecidableEq D] in
theorem Steady.rewritten {s : Registry C D} (h : Steady s) {written : RunRows D}
    (hnew : ∀ k run, StoredAt written k run → ∃ copy, Snapshot s copy ∧ copy.id = run.id ∧
      copy.approvals = run.approvals)
    (hkept : ∀ k run, StoredAt s.store k run → ∃ run', StoredAt written k run' ∧
      run.approvals.length ≤ run'.approvals.length) : Steady { s with store := written } := by
  have hsnapshot : ∀ run, Snapshot { s with store := written } run → ∃ copy, Snapshot s copy ∧
      copy.id = run.id ∧ copy.approvals = run.approvals := by
    rintro run (⟨k, hs⟩ | hcarried)
    · exact hnew k run hs
    · exact ⟨run, .inr hcarried, rfl, rfl⟩
  refine ⟨h.once, ?_, h.cached, ?_, ?_, h.keyed⟩
  · rintro run (ho | hs) m hm
    · exact h.copied run (.inl ho) m hm
    · obtain ⟨copy, hcopy, hid, happrovals⟩ := hsnapshot run hs
      exact hid ▸ h.copied copy (.inr hcopy) m (happrovals ▸ hm)
  · intro c t ref wf approved point hc hp
    obtain ⟨run, hd⟩ := h.driven c t ref wf approved point hc hp
    refine ⟨run, hd.object, hd.status, hd.ahead, ⟨hd.leads.objects, fun other ho hid => ?_⟩, hd.alone⟩
    obtain ⟨copy, hcopy, hcid, happrovals⟩ := hsnapshot other ho
    exact happrovals ▸ hd.leads.snapshots copy hcopy (hcid.trans hid)
  · intro runId m hm
    refine (h.held runId m hm).imp_right ?_
    rintro ⟨run, hs, hlt⟩
    obtain ⟨run', hs', hle⟩ := hkept runId run hs
    exact ⟨run', hs', hlt.trans_le hle⟩

theorem Steady.commit {s : Registry C D} (h : Steady s) {c : C} {t : Task D} {ref : ℕ}
    (hc : s.tasks c = some t) (hp : t.pc = .committing ref dumped seen)
    (hl : Lands s.store seen dumped)
    (hj : dumped.approvals = [] ∨ (roundTrip json dumped).isSome) (now : ℤ) :
    Steady ({ s with store := commitWorkflow json s.store seen dumped t.call.key now }.setTask c
      ⟨t.call, .returned (some ref)⟩) := by
  have hcarries : Snapshot s dumped := .inr ⟨c, t, hc, by rw [hp]; rfl⟩
  have hstore : Steady { s with store := commitWorkflow json s.store seen dumped t.call.key now } := by
    refine h.rewritten (fun k run hs => ?_) fun k run hs => hl.kept hs json t.call.key now
    rcases storedAt_commit hs with hold | ⟨_, hrun⟩
    · exact ⟨run, .inl ⟨k, hold⟩, rfl, rfl⟩
    · obtain ⟨hid, happrovals⟩ := roundTrip_approvals hrun
      exact ⟨dumped, hcarries, hid.symm, happrovals.symm⟩
  refine hstore.idle c trivial ?_
  intro old run hold hw
  obtain rfl : t = old := Option.some.inj (hc.symm.trans hold)
  rw [hp] at hw
  obtain rfl : dumped = run := Option.some.inj hw
  cases hk : t.call.key with
  | none =>
    rcases hj with hnil | hj
    · exact .inl hnil
    · exact hl.recorded hj now
  | some key => exact .inl (h.keyed c t dumped hc (by simp [hk]) (by rw [hp]; rfl))

end Commit

end Workbench.RegistryCalls
