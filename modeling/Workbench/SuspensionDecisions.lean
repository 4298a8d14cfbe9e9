import Workbench.RunCopies

namespace Workbench.RegistryCalls

open KeyedTable RunStore WorkflowEngine WorkflowRegistry

variable {C D : Type}

theorem object_set {objects : List (WorkflowRun D)} {run run' other : WorkflowRun D} {ref j : ℕ}
    (ho : objects[ref]? = some run) : (objects.set ref run')[j]? = some other ↔
      j = ref ∧ other = run' ∨ j ≠ ref ∧ objects[j]? = some other := by
  have hlt : ref < objects.length := (List.getElem?_eq_some_iff.mp ho).1
  rw [List.getElem?_set]
  by_cases hj : ref = j
  · subst hj
    simp [hlt, eq_comm]
  · simp [hj, Ne.symm hj]

theorem Steady.copy_le {s : Registry C D} (h : Steady s) {run other : WorkflowRun D}
    (ha : Ahead s run) (ho : Copy s other) (hid : other.id = run.id) :
    other.approvals.length ≤ run.approvals.length := by
  cases hl : other.approvals.length with
  | zero => exact Nat.zero_le _
  | succ m => exact ha m (hid ▸ h.copied other ho m (by omega))

theorem InFlight.copy {s : Registry C D} {run : WorkflowRun D} (h : InFlight s run) :
    Copy s run := by
  obtain ⟨c, t, hc, hw⟩ := h
  cases hp : t.pc with
  | driving ref wf approved point =>
    rw [hp] at hw
    exact .inl (List.mem_of_getElem? hw)
  | storing ref dumped =>
    rw [hp] at hw
    exact .inr (.inr ⟨c, t, hc, by rw [hp]; exact hw⟩)
  | committing ref dumped seen =>
    rw [hp] at hw
    exact .inr (.inr ⟨c, t, hc, by rw [hp]; exact hw⟩)
  | _ => simp [hp, Pc.work] at hw

structure Advances (s : Registry C D) (c : C) (t t' : Task D) (ref : ℕ) (run run' : WorkflowRun D) :
    Prop where
  task : s.tasks c = some t
  drives : ∃ wf approved point, t.pc = .driving ref wf approved point
  object : s.objects[ref]? = some run
  sameId : run'.id = run.id
  sameApprovals : run'.approvals = run.approvals
  call : t'.call = t.call
  goes : (∃ wf approved point, t'.pc = .driving ref wf approved point) ∧
      run'.status ≠ .awaitingApproval ∨
    t'.pc = .storing ref run' ∨ (∃ e, t'.pc = .raised e) ∧ Recorded s.store run

namespace Advances

variable {s : Registry C D} {c : C} {t t' : Task D} {ref : ℕ} {run run' : WorkflowRun D}

theorem objects (ha : Advances s c t t' ref run run') {j : ℕ} {other : WorkflowRun D} :
    (s.objects.set ref run')[j]? = some other ↔
      j = ref ∧ other = run' ∨ j ≠ ref ∧ s.objects[j]? = some other := object_set ha.object

theorem driven (ha : Advances s c t t' ref run run') (h : Steady s) : Drives s c ref run := by
  obtain ⟨wf, approved, point, hp⟩ := ha.drives
  obtain ⟨driven, hd⟩ := h.driven c t ref wf approved point ha.task hp
  obtain rfl : driven = run := Option.some.inj (hd.object.symm.trans ha.object)
  exact hd

theorem other (ha : Advances s c t t' ref run run') (h : Steady s) {c' : C} {u : Task D} {ref' : ℕ}
    {wf : WorkflowDef} {approved : List String} {point : Point} (hne : c' ≠ c)
    (hc : s.tasks c' = some u) (hp : u.pc = .driving ref' wf approved point) : ref' ≠ ref := by
  rintro rfl
  exact hne ((ha.driven h).alone c' u wf approved point hc hp)

theorem works (ha : Advances s c t t' ref run run') (h : Steady s) {c' : C} {u : Task D}
    {other : WorkflowRun D} (hne : c' ≠ c) (hc : s.tasks c' = some u) :
    u.pc.Works s.objects other ↔ u.pc.Works (s.objects.set ref run') other := by
  constructor
  · refine fun hw => hw.objects fun ref' wf approved point hp hold => ?_
    exact ha.objects.mpr (.inr ⟨ha.other h hne hc hp, hold⟩)
  · refine fun hw => hw.objects fun ref' wf approved point hp hnew => ?_
    rcases ha.objects.mp hnew with ⟨he, _⟩ | ⟨_, hold⟩
    · exact absurd he (ha.other h hne hc hp)
    · exact hold

theorem carries (ha : Advances s c t t' ref run run') {other : WorkflowRun D}
    (hc : t'.pc.Carries other) : other = run' ∧ t'.pc = .storing ref run' := by
  rcases ha.goes with ⟨⟨_, _, _, hp⟩, _⟩ | hp | ⟨⟨_, hp⟩, _⟩
  · simp [hp, Pc.carried] at hc
  · rw [hp] at hc
    exact ⟨(Option.some.inj hc).symm, hp⟩
  · simp [hp, Pc.carried] at hc

theorem ahead (ha : Advances s c t t' ref run run') (h : Steady s) : Ahead s run' := by
  intro m hm
  rw [ha.sameId] at hm
  exact ha.sameApprovals ▸ (ha.driven h).ahead m hm

theorem cached {cache : RefCache} (ha : Advances s c t t' ref run run') (h : Steady s)
    (hcache : ∀ k id r, cache.get k = some (id, r) →
      s.cache.get k = some (id, r) ∨ k = run.id ∧ r = ref) {k id : String} {r : ℕ}
    (hk : cache.get k = some (id, r)) : ∃ other, (s.objects.set ref run')[r]? = some other ∧
      other.id = k ∧ (other.status = .awaitingApproval → Ahead s other) := by
  have hcached : ∃ old, s.objects[r]? = some old ∧ old.id = k ∧
      (old.status = .awaitingApproval → Ahead s old) := by
    rcases hcache k id r hk with hold | ⟨rfl, rfl⟩
    · exact h.cached k id r hold
    · exact ⟨run, ha.object, rfl, fun _ => (ha.driven h).ahead⟩
  obtain ⟨old, hobject, hkey, haheadOld⟩ := hcached
  by_cases hr : r = ref
  · subst hr
    obtain rfl : run = old := Option.some.inj (ha.object.symm.trans hobject)
    exact ⟨run', ha.objects.mpr (.inl ⟨rfl, rfl⟩), ha.sameId.trans hkey, fun _ => ha.ahead h⟩
  · exact ⟨old, ha.objects.mpr (.inr ⟨hr, hobject⟩), hkey, haheadOld⟩

theorem keyed (ha : Advances s c t t' ref run run') (h : Steady s) {other : WorkflowRun D}
    (hk : t'.call.key.isSome) (hw : t'.pc.Works (s.objects.set ref run') other) :
    other.approvals = [] := by
  obtain ⟨wf, approved, point, hp⟩ := ha.drives
  have hnil : run'.approvals = [] := ha.sameApprovals ▸
    h.keyed c t run ha.task (ha.call ▸ hk) (by rw [hp]; exact ha.object)
  rcases ha.goes with ⟨⟨_, _, _, hdriving⟩, _⟩ | hs | ⟨⟨_, he⟩, _⟩
  · rw [hdriving] at hw
    rcases ha.objects.mp hw with ⟨_, rfl⟩ | ⟨hne, _⟩
    · exact hnil
    · exact absurd rfl hne
  · rw [hs] at hw
    obtain rfl : run' = other := Option.some.inj hw
    exact hnil
  · rw [he] at hw
    cases hw

end Advances

def Unladen (s : Registry C D) (c : C) : Prop :=
  ∀ old other, s.tasks c = some old → ¬ old.pc.Works s.objects other

theorem Unladen.busy {s : Registry C D} {c c' : C} (h : Unladen s c) {u : Task D}
    {other : WorkflowRun D} (hc : s.tasks c' = some u) (hw : u.pc.Works s.objects other) :
    c' ≠ c := by
  rintro rfl
  exact h u other hc hw

structure Enters (s : Registry C D) (c : C) (t : Task D) (run : WorkflowRun D) : Prop where
  fresh : ∀ copy, Copy s copy → copy.id ≠ run.id
  unstored : ∀ other, ¬ StoredAt s.store run.id other
  undecided : run.approvals = []
  status : run.status ≠ .awaitingApproval
  unladen : Unladen s c
  drives : ∃ wf approved point, t.pc = .driving s.objects.length wf approved point

namespace Enters

variable {s : Registry C D} {c : C} {t : Task D} {run : WorkflowRun D}

theorem unlogged (he : Enters s c t run) (h : Steady s) (m : ℕ) :
    (run.id, m) ∉ s.decided.map Decided.on := by
  intro hm
  rcases h.held run.id m hm with ⟨other, hf, hid, _⟩ | ⟨other, hs, _⟩
  · exact he.fresh other hf.copy hid
  · exact he.unstored other hs

end Enters

structure Decides (s : Registry C D) (c : C) (t : Task D) (k id : String) (ref : ℕ)
    (run run' : WorkflowRun D) : Prop where
  cached : s.cache.get k = some (id, ref)
  object : s.objects[ref]? = some run
  awaits : run.status = .awaitingApproval
  unladen : Unladen s c
  sameId : run'.id = run.id
  length : run'.approvals.length = run.approvals.length + 1
  status : run'.status ≠ .awaitingApproval
  unkeyed : t.call.key = none
  drives : ∃ wf approved point, t.pc = .driving ref wf approved point

namespace Decides

variable {s : Registry C D} {c : C} {t : Task D} {k id : String} {ref : ℕ} {run run' : WorkflowRun D}
  {e : Decided C}

theorem objects (hd : Decides s c t k id ref run run') {j : ℕ} {other : WorkflowRun D} :
    (s.objects.set ref run')[j]? = some other ↔
      j = ref ∧ other = run' ∨ j ≠ ref ∧ s.objects[j]? = some other := object_set hd.object

theorem key (hd : Decides s c t k id ref run run') (h : Steady s) : run.id = k ∧ Ahead s run := by
  obtain ⟨known, hknown, hkid, hahead⟩ := h.cached k id ref hd.cached
  obtain rfl : run = known := Option.some.inj (hd.object.symm.trans hknown)
  exact ⟨hkid, hahead hd.awaits⟩

theorem log (he : e.on = (run.id, run.approvals.length)) {x : String} {m : ℕ} :
    (x, m) ∈ (s.decided ++ [e]).map Decided.on ↔
      (x, m) ∈ s.decided.map Decided.on ∨ x = run.id ∧ m = run.approvals.length := by
  simp [he]

theorem other (hd : Decides s c t k id ref run run') (h : Steady s) {c' : C} {u : Task D} {ref' : ℕ}
    {wf : WorkflowDef} {approved : List String} {point : Point} (hc : s.tasks c' = some u)
    (hp : u.pc = .driving ref' wf approved point) : ref' ≠ ref := by
  rintro rfl
  obtain ⟨old, hold⟩ := h.driven c' u ref' wf approved point hc hp
  obtain rfl : run = old := Option.some.inj (hd.object.symm.trans hold.object)
  exact hold.status hd.awaits

theorem once (hd : Decides s c t k id ref run run') (h : Steady s)
    (he : e.on = (run.id, run.approvals.length)) :
    ((s.decided ++ [e]).map Decided.on).Nodup := by
  rw [List.map_append, List.map_singleton, he]
  refine List.nodup_append.mpr ⟨h.once, List.nodup_singleton _, ?_⟩
  rintro on hon _ hmem rfl
  rw [List.mem_singleton.mp hmem] at hon
  exact lt_irrefl _ ((hd.key h).2 _ hon)

end Decides

variable [DecidableEq C]

abbrev Registry.advanced (s : Registry C D) (c : C) (t' : Task D) (ref : ℕ) (run' : WorkflowRun D)
    (cache : RefCache) : Registry C D :=
  { s with objects := s.objects.set ref run', cache }.setTask c t'

namespace Advances

variable {s : Registry C D} {c : C} {t t' : Task D} {ref : ℕ} {run run' : WorkflowRun D}
  {cache : RefCache}

theorem snapshot (ha : Advances s c t t' ref run run') {other : WorkflowRun D}
    (hs : Snapshot (s.advanced c t' ref run' cache) other) :
    Snapshot s other ∨ other = run' ∧ t'.pc = .storing ref run' :=
  (snapshot_setTask rfl rfl hs).imp_right ha.carries

theorem copied (ha : Advances s c t t' ref run run') (h : Steady s) {other : WorkflowRun D}
    (hcopy : Copy (s.advanced c t' ref run' cache) other) {m : ℕ} (hm : m < other.approvals.length) :
    (other.id, m) ∈ s.decided.map Decided.on := by
  have hsame : Copy s other ∨ other = run' := by
    rcases hcopy with hmem | hs
    · exact (List.mem_or_eq_of_mem_set hmem).imp_left .inl
    · exact (ha.snapshot hs).imp .inr And.left
  rcases hsame with hcopy | rfl
  · exact h.copied other hcopy m hm
  · rw [ha.sameApprovals] at hm
    exact ha.sameId ▸ h.copied run (.inl (List.mem_of_getElem? ha.object)) m hm

theorem drivesOn (ha : Advances s c t t' ref run run') (h : Steady s) {ref' : ℕ} {wf : WorkflowDef}
    {approved : List String} {point : Point} (hp : t'.pc = .driving ref' wf approved point) :
    ∃ other, Drives (s.advanced c t' ref run' cache) c ref' other := by
  have hd := ha.driven h
  rcases ha.goes with ⟨⟨wf', approved', point', hdriving⟩, hstatus⟩ | hs | ⟨⟨_, he⟩, _⟩
  · obtain ⟨rfl, _⟩ : ref' = ref ∧ _ := by simpa using hp.symm.trans hdriving
    refine ⟨run', ha.objects.mpr (.inl ⟨rfl, rfl⟩), hstatus, ha.ahead h,
      ⟨fun j other hj hne hid => ?_, fun other hs hid => ?_⟩, ?_⟩
    · rcases ha.objects.mp hj with ⟨he, _⟩ | ⟨_, hold⟩
      · exact absurd he hne
      · exact ha.sameApprovals ▸ hd.leads.objects j other hold hne (hid.trans ha.sameId)
    · rcases ha.snapshot hs with hs | ⟨_, hstoring⟩
      · exact ha.sameApprovals ▸ hd.leads.snapshots other hs (hid.trans ha.sameId)
      · rw [hdriving] at hstoring
        cases hstoring
    · refine alone_setTask rfl (fun c' u wf approved point hne hc hp => ?_) fun _ _ _ _ => rfl
      exact absurd rfl (ha.other h hne hc hp)
  · rw [hs] at hp
    cases hp
  · rw [he] at hp
    cases hp

theorem drivesOther (ha : Advances s c t t' ref run run') (h : Steady s) {c' : C} {u : Task D}
    {ref' : ℕ} {wf : WorkflowDef} {approved : List String} {point : Point} (hne : c' ≠ c)
    (hc : s.tasks c' = some u) (hp : u.pc = .driving ref' wf approved point) :
    ∃ other, Drives (s.advanced c t' ref run' cache) c' ref' other := by
  have href := ha.other h hne hc hp
  obtain ⟨old, hd⟩ := h.driven c' u ref' wf approved point hc hp
  refine ⟨old, ha.objects.mpr (.inr ⟨href, hd.object⟩), hd.status, hd.ahead,
    ⟨fun j other hj hjne hid => ?_, fun other hs hid => ?_⟩, ?_⟩
  · rcases ha.objects.mp hj with ⟨rfl, rfl⟩ | ⟨_, hold⟩
    · exact ha.sameApprovals ▸ hd.leads.objects j run ha.object hjne (ha.sameId.symm.trans hid)
    · exact hd.leads.objects j other hold hjne hid
  · rcases ha.snapshot hs with hs | ⟨rfl, _⟩
    · exact hd.leads.snapshots other hs hid
    · exact ha.sameApprovals ▸
        hd.leads.objects ref run ha.object href.symm (ha.sameId.symm.trans hid)
  · refine alone_setTask rfl (fun c'' u' wf approved point _ => hd.alone c'' u' wf approved point)
      fun wf' approved' point' hp' => ?_
    rcases ha.goes with ⟨⟨_, _, _, hdriving⟩, _⟩ | hs | ⟨⟨_, he⟩, _⟩
    · rw [hdriving] at hp'
      cases hp'
      exact absurd rfl href
    · rw [hs] at hp'
      cases hp'
    · rw [he] at hp'
      cases hp'

theorem held (ha : Advances s c t t' ref run run') (h : Steady s) {runId : String} {m : ℕ}
    (hm : (runId, m) ∈ s.decided.map Decided.on) :
    Held (s.advanced c t' ref run' cache) runId m := by
  rcases h.held runId m hm with ⟨old, ⟨c', u, hc, hw⟩, hid, hlt⟩ | hrow
  · by_cases hcc : c' = c
    · subst hcc
      obtain rfl : t = u := Option.some.inj (ha.task.symm.trans hc)
      obtain ⟨wf, approved, point, hp⟩ := ha.drives
      rw [hp] at hw
      obtain rfl : run = old := Option.some.inj (ha.object.symm.trans hw)
      have hnew : t'.pc.Works (s.objects.set ref run') run' →
          Held (s.advanced c' t' ref run' cache) runId m := fun hwork =>
        .inl ⟨run', ⟨c', t', by simp [tasks_setTask], hwork⟩, ha.sameId.trans hid,
          ha.sameApprovals ▸ hlt⟩
      rcases ha.goes with ⟨⟨_, _, _, hdriving⟩, _⟩ | hs | ⟨_, hnil | ⟨stored, hs, hle⟩⟩
      · exact hnew (by rw [hdriving]; exact ha.objects.mpr (.inl ⟨rfl, rfl⟩))
      · exact hnew (by rw [hs]; rfl)
      · simp [hnil] at hlt
      · exact .inr ⟨stored, hid ▸ hs, hlt.trans_le hle⟩
    · exact .inl ⟨old, ⟨c', u, by simp [tasks_setTask, hcc, hc], (ha.works h hcc hc).mp hw⟩, hid, hlt⟩
  · exact .inr hrow

end Advances

theorem Steady.advance {s : Registry C D} (h : Steady s) {c : C} {t t' : Task D} {ref : ℕ}
    {run run' : WorkflowRun D} {cache : RefCache} (ha : Advances s c t t' ref run run')
    (hcache : ∀ k id r, cache.get k = some (id, r) →
      s.cache.get k = some (id, r) ∨ k = run.id ∧ r = ref) :
    Steady (s.advanced c t' ref run' cache) := by
  refine ⟨h.once, fun other hcopy m hm => ha.copied h hcopy hm,
    fun k id r hk => ha.cached h hcache hk, ?_, fun runId m hm => ha.held h hm, ?_⟩
  · intro c' u ref' wf approved point hc hp
    rw [tasks_setTask] at hc
    split_ifs at hc with hcc
    · cases hc
      subst hcc
      exact ha.drivesOn h hp
    · exact ha.drivesOther h hcc hc hp
  · intro c' u other hc hk hw
    rw [tasks_setTask] at hc
    split_ifs at hc with hcc
    · cases hc
      exact ha.keyed h hk hw
    · exact h.keyed c' u other hc hk ((ha.works h hcc hc).mpr hw)

theorem snapshot_driving {s s' : Registry C D} (hstore : s'.store = s.store)
    (htasks : s'.tasks = s.tasks) {c : C} {t : Task D} {ref : ℕ} {wf : WorkflowDef}
    {approved : List String} {point : Point} (hp : t.pc = .driving ref wf approved point)
    {run : WorkflowRun D} (hs : Snapshot (s'.setTask c t) run) : Snapshot s run := by
  rcases snapshot_setTask hstore htasks hs with hold | hcarries
  · exact hold
  · simp [hp, Pc.carried] at hcarries

abbrev Registry.entered (s : Registry C D) (c : C) (t : Task D) (run : WorkflowRun D)
    (executed : List (Executed C)) : Registry C D :=
  { s with objects := s.objects ++ [run], executed }.setTask c t

namespace Enters

variable {s : Registry C D} {c : C} {t : Task D} {run : WorkflowRun D} {executed : List (Executed C)}

theorem snapshot (he : Enters s c t run) {other : WorkflowRun D}
    (hs : Snapshot (s.entered c t run executed) other) : Snapshot s other := by
  obtain ⟨wf, approved, point, hp⟩ := he.drives
  exact snapshot_driving rfl rfl hp hs

theorem copied (he : Enters s c t run) (h : Steady s) {other : WorkflowRun D}
    (hcopy : Copy (s.entered c t run executed) other) {m : ℕ} (hm : m < other.approvals.length) :
    (other.id, m) ∈ s.decided.map Decided.on := by
  rcases hcopy with ho | hs
  · rcases List.mem_append.mp ho with ho | ho
    · exact h.copied other (.inl ho) m hm
    · obtain rfl := List.mem_singleton.mp ho
      simp [he.undecided] at hm
  · exact h.copied other (.inr (he.snapshot hs)) m hm

theorem drivesNew (he : Enters s c t run) (h : Steady s) :
    Drives (s.entered c t run executed) c s.objects.length run where
  object := object_new.mpr (.inr ⟨rfl, rfl⟩)
  status := he.status
  ahead m hm := absurd hm (he.unlogged h m)
  leads := by
    refine ⟨fun j other hj hne hid => ?_, fun other hs hid => ?_⟩
    · rcases object_new.mp hj with hold | ⟨he', _⟩
      · exact absurd hid (he.fresh other (.inl (List.mem_of_getElem? hold)))
      · exact absurd he' hne
    · exact absurd hid (he.fresh other (.inr (he.snapshot hs)))
  alone := by
    refine alone_setTask rfl (fun c' u wf approved point _ hc hp => ?_) fun _ _ _ _ => rfl
    obtain ⟨old, hd⟩ := h.driven c' u _ wf approved point hc hp
    simpa using (List.getElem?_eq_some_iff.mp hd.object).1

theorem drivesOther (he : Enters s c t run) {c' : C} {ref : ℕ} {old : WorkflowRun D}
    (hd : Drives s c' ref old) : Drives (s.entered c t run executed) c' ref old where
  object := object_new.mpr (.inl hd.object)
  status := hd.status
  ahead := hd.ahead
  leads := by
    refine ⟨fun j other hj hne hid => ?_, fun other hs => hd.leads.snapshots other (he.snapshot hs)⟩
    rcases object_new.mp hj with hold | ⟨_, rfl⟩
    · exact hd.leads.objects j other hold hne hid
    · exact absurd hid.symm (he.fresh old (.inl (List.mem_of_getElem? hd.object)))
  alone := by
    refine alone_setTask rfl (fun c'' u wf approved point _ => hd.alone c'' u wf approved point)
      fun wf approved point hp => ?_
    have hlt : ref < s.objects.length := (List.getElem?_eq_some_iff.mp hd.object).1
    obtain ⟨wf', approved', point', hnew⟩ := he.drives
    rw [hnew] at hp
    cases hp
    exact absurd hlt (lt_irrefl _)

theorem held (he : Enters s c t run) (h : Steady s) {runId : String} {m : ℕ}
    (hm : (runId, m) ∈ s.decided.map Decided.on) : Held (s.entered c t run executed) runId m := by
  rcases h.held runId m hm with ⟨old, ⟨c', u, hc, hw⟩, hrest⟩ | hrow
  · exact .inl ⟨old, ⟨c', u, by simp [tasks_setTask, he.unladen.busy hc hw, hc],
      hw.objects fun _ _ _ _ _ ho => object_new.mpr (.inl ho)⟩, hrest⟩
  · exact .inr hrow

end Enters

theorem Steady.enter {s : Registry C D} (h : Steady s) {c : C} {t : Task D} {run : WorkflowRun D}
    (he : Enters s c t run) (executed : List (Executed C)) :
    Steady (s.entered c t run executed) := by
  obtain ⟨wf, approved, point, hp⟩ := he.drives
  refine ⟨h.once, fun other hcopy m hm => he.copied h hcopy hm, fun k id ref hk => ?_, ?_,
    fun runId m hm => he.held h hm, ?_⟩
  · obtain ⟨old, hobject, hrest⟩ := h.cached k id ref hk
    exact ⟨old, object_new.mpr (.inl hobject), hrest⟩
  · intro c' u ref wf' approved' point' hc hp'
    rw [tasks_setTask] at hc
    split_ifs at hc with hcc
    · cases hc
      obtain ⟨rfl, _⟩ : ref = s.objects.length ∧ _ := by simpa using hp'.symm.trans hp
      subst hcc
      exact ⟨run, he.drivesNew h⟩
    · obtain ⟨old, hd⟩ := h.driven c' u ref wf' approved' point' hc hp'
      exact ⟨old, he.drivesOther hd⟩
  · intro c' u other hc hk hw
    rw [tasks_setTask] at hc
    split_ifs at hc with hcc
    · cases hc
      rw [hp] at hw
      rcases object_new.mp hw with hold | ⟨_, rfl⟩
      · simpa using (List.getElem?_eq_some_iff.mp hold).1
      · exact he.undecided
    · refine h.keyed c' u other hc hk (hw.objects fun ref wf' approved' point' hp' ho => ?_)
      obtain ⟨old, hd⟩ := h.driven c' u ref wf' approved' point' hc hp'
      obtain rfl : old = other :=
        Option.some.inj ((object_new.mpr (.inl hd.object)).symm.trans ho)
      exact hd.object

abbrev Registry.decidedOn (s : Registry C D) (c : C) (t : Task D) (ref : ℕ) (run' : WorkflowRun D)
    (e : Decided C) : Registry C D :=
  { s with objects := s.objects.set ref run', decided := s.decided ++ [e] }.setTask c t

namespace Decides

variable {s : Registry C D} {c : C} {t : Task D} {k id : String} {ref : ℕ} {run run' : WorkflowRun D}
  {e : Decided C}

theorem snapshot (hd : Decides s c t k id ref run run') {other : WorkflowRun D}
    (hs : Snapshot (s.decidedOn c t ref run' e) other) : Snapshot s other := by
  obtain ⟨wf, approved, point, hp⟩ := hd.drives
  exact snapshot_driving rfl rfl hp hs

theorem copied (hd : Decides s c t k id ref run run') (h : Steady s)
    (he : e.on = (run.id, run.approvals.length)) {other : WorkflowRun D}
    (hcopy : Copy (s.decidedOn c t ref run' e) other) {m : ℕ} (hm : m < other.approvals.length) :
    (other.id, m) ∈ (s.decided ++ [e]).map Decided.on := by
  refine (log he).mpr ?_
  have hsame : Copy s other ∨ other = run' := by
    rcases hcopy with hmem | hs
    · exact (List.mem_or_eq_of_mem_set hmem).imp_left .inl
    · exact .inl (.inr (hd.snapshot hs))
  rcases hsame with hcopy | rfl
  · exact .inl (h.copied other hcopy m hm)
  · have hlength := hd.length
    rw [hd.sameId]
    by_cases hm' : m < run.approvals.length
    · exact .inl (h.copied run (.inl (List.mem_of_getElem? hd.object)) m hm')
    · exact .inr ⟨rfl, by omega⟩

theorem cacheKept (hd : Decides s c t k id ref run run') (h : Steady s)
    (he : e.on = (run.id, run.approvals.length)) {k' id' : String} {r : ℕ}
    (hk : s.cache.get k' = some (id', r)) : ∃ other, (s.objects.set ref run')[r]? = some other ∧
      other.id = k' ∧
      (other.status = .awaitingApproval → Ahead (s.decidedOn c t ref run' e) other) := by
  obtain ⟨old, hobject, hkey, hahead⟩ := h.cached k' id' r hk
  by_cases hr : r = ref
  · subst hr
    obtain rfl : run = old := Option.some.inj (hd.object.symm.trans hobject)
    exact ⟨run', hd.objects.mpr (.inl ⟨rfl, rfl⟩), hd.sameId.trans hkey,
      fun hs => absurd hs hd.status⟩
  · refine ⟨old, hd.objects.mpr (.inr ⟨hr, hobject⟩), hkey, fun hs m hm => ?_⟩
    rcases (log he).mp hm with hm | ⟨hsame, _⟩
    · exact hahead hs m hm
    · have hkk : k' = k := hkey.symm.trans (hsame.trans (hd.key h).1)
      subst hkk
      rw [hd.cached] at hk
      cases hk
      exact absurd rfl hr

theorem drivesDecided (hd : Decides s c t k id ref run run') (h : Steady s)
    (he : e.on = (run.id, run.approvals.length)) :
    Drives (s.decidedOn c t ref run' e) c ref run' where
  object := hd.objects.mpr (.inl ⟨rfl, rfl⟩)
  status := hd.status
  ahead m hm := by
    have hlength := hd.length
    rcases (log he).mp hm with hm | ⟨_, rfl⟩
    · have hlt := (hd.key h).2 m (hd.sameId ▸ hm)
      omega
    · omega
  leads := by
    have hlength := hd.length
    refine ⟨fun j other hj hne hid => ?_, fun other hs hid => ?_⟩
    · rcases hd.objects.mp hj with ⟨he', _⟩ | ⟨_, hold⟩
      · exact absurd he' hne
      · have hle := h.copy_le (hd.key h).2 (.inl (List.mem_of_getElem? hold)) (hid.trans hd.sameId)
        omega
    · have hle := h.copy_le (hd.key h).2 (.inr (hd.snapshot hs)) (hid.trans hd.sameId)
      omega
  alone := alone_setTask rfl
    (fun _ _ _ _ _ _ hc hp => absurd rfl (hd.other h hc hp)) fun _ _ _ _ => rfl

theorem drivesOther (hd : Decides s c t k id ref run run') (h : Steady s)
    (he : e.on = (run.id, run.approvals.length)) {c' : C} {ref' : ℕ} {old : WorkflowRun D}
    (hne : ref' ≠ ref) (hold : Drives s c' ref' old) :
    Drives (s.decidedOn c t ref run' e) c' ref' old := by
  have hid : old.id ≠ run.id := by
    intro hsame
    have hlt := hold.leads.objects ref run hd.object hne.symm hsame.symm
    have hle := h.copy_le (hd.key h).2 (.inl (List.mem_of_getElem? hold.object)) hsame
    omega
  refine ⟨hd.objects.mpr (.inr ⟨hne, hold.object⟩), hold.status, fun m hm => ?_,
    ⟨fun j other hj hjne hoid => ?_, fun other hs => hold.leads.snapshots other (hd.snapshot hs)⟩, ?_⟩
  · rcases (log he).mp hm with hm | ⟨hsame, _⟩
    · exact hold.ahead m hm
    · exact absurd hsame hid
  · rcases hd.objects.mp hj with ⟨_, rfl⟩ | ⟨_, hobject⟩
    · exact absurd (hoid.symm.trans hd.sameId) hid
    · exact hold.leads.objects j other hobject hjne hoid
  · refine alone_setTask rfl (fun c'' u wf approved point _ => hold.alone c'' u wf approved point)
      fun wf approved point hp => ?_
    obtain ⟨wf', approved', point', hnew⟩ := hd.drives
    rw [hnew] at hp
    cases hp
    exact absurd rfl hne

theorem held (hd : Decides s c t k id ref run run') (h : Steady s)
    (he : e.on = (run.id, run.approvals.length)) {runId : String} {m : ℕ}
    (hm : (runId, m) ∈ (s.decided ++ [e]).map Decided.on) :
    Held (s.decidedOn c t ref run' e) runId m := by
  rcases (log he).mp hm with hm | ⟨rfl, rfl⟩
  · rcases h.held runId m hm with ⟨old, ⟨c', u, hc, hw⟩, hrest⟩ | hrow
    · refine .inl ⟨old, ⟨c', u, by simp [tasks_setTask, hd.unladen.busy hc hw, hc], ?_⟩, hrest⟩
      apply hw.objects
      intro ref' wf approved point hp hold
      exact hd.objects.mpr (.inr ⟨hd.other h hc hp, hold⟩)
    · exact .inr hrow
  · have hlength := hd.length
    obtain ⟨wf, approved, point, hp⟩ := hd.drives
    refine .inl ⟨run', ⟨c, t, by simp [tasks_setTask], ?_⟩, hd.sameId, by omega⟩
    rw [hp]
    exact hd.objects.mpr (.inl ⟨rfl, rfl⟩)

end Decides

theorem Steady.decide {s : Registry C D} (h : Steady s) {c : C} {t : Task D} {k id : String}
    {ref : ℕ} {run run' : WorkflowRun D} (hd : Decides s c t k id ref run run') (e : Decided C)
    (he : e.on = (run.id, run.approvals.length)) : Steady (s.decidedOn c t ref run' e) := by
  obtain ⟨wf, approved, point, hp⟩ := hd.drives
  refine ⟨hd.once h he, fun other hcopy m hm => hd.copied h he hcopy hm,
    fun k' id' r hk => hd.cacheKept h he hk, ?_, fun runId m hm => hd.held h he hm, ?_⟩
  · intro c' u ref' wf' approved' point' hc hp'
    rw [tasks_setTask] at hc
    split_ifs at hc with hcc
    · cases hc
      obtain ⟨rfl, _⟩ : ref' = ref ∧ _ := by simpa using hp'.symm.trans hp
      subst hcc
      exact ⟨run', hd.drivesDecided h he⟩
    · obtain ⟨old, hold⟩ := h.driven c' u ref' wf' approved' point' hc hp'
      exact ⟨old, hd.drivesOther h he (hd.other h hc hp') hold⟩
  · intro c' u other hc hk hw
    rw [tasks_setTask] at hc
    split_ifs at hc with hcc
    · cases hc
      simp [hd.unkeyed] at hk
    · refine h.keyed c' u other hc hk (hw.objects fun ref' wf' approved' point' hp' hnew => ?_)
      rcases hd.objects.mp hnew with ⟨he', _⟩ | ⟨_, hold⟩
      · exact absurd he' (hd.other h hc hp')
      · exact hold

end Workbench.RegistryCalls
