import Workbench.OrderlyCalls

namespace Workbench.RegistryCalls

open KeyedTable RunStore Transitions WorkflowEngine WorkflowRegistry

variable {C D : Type} {workflows : Table WorkflowDef.name} {k : String}

def ObjectId (objects : List (WorkflowRun D)) (ref : ℕ) (id : String) : Prop :=
  ∃ run, objects[ref]? = some run ∧ run.id = id

def Found (store : RunRows D) (k id : String) : Prop :=
  ∃ row, getRunByIdempotencyKey store workflowKind k = some row ∧ row.id = id

def WorkId (s : Registry C D) (c : C) (id : String) : Prop :=
  ∃ t run, s.tasks c = some t ∧ t.pc.Works s.objects run ∧ run.id = id

def Pc.Missed : Pc D → Prop
  | .looked none => True
  | .driving _ _ _ _ => True
  | .storing _ _ => True
  | .committing _ _ _ => True
  | _ => False

inductive Phase (C : Type)
  | idle
  | missed (c : C)
  | running (c : C)
  | stored
  deriving DecidableEq

def Phase.executed : Phase C → ℕ
  | .idle => 0
  | .missed _ => 0
  | .running _ => 1
  | .stored => 1

def Phase.Misses (c : C) (pc : Pc D) : Phase C → Prop
  | .missed c' => c = c' ∧ pc = .looked none
  | .running c' => c = c' ∧ pc ≠ .looked none
  | _ => False

structure AtPhase (k : String) (s : Registry C D) (p : Phase C) : Prop where
  executed : s.executed.countP (fun e => e.key = some k) = p.executed
  row : (getRunByIdempotencyKey s.store workflowKind k).isSome ↔ p = .stored
  misses : ∀ c t, s.tasks c = some t → t.call.key = some k → t.pc.Missed → p.Misses c t.pc
  present : ∀ c, p = .missed c ∨ p = .running c →
    ∃ t, s.tasks c = some t ∧ t.call.key = some k ∧ t.pc.Missed

def Place (k : String) (objects : List (WorkflowRun D)) (store : RunRows D) (t : Task D) : Prop :=
  match t.pc with
  | .looking key => t.call.key = some key
  | .looked row => ∀ r ∈ row, t.call.key = some k →
      Found store k r.id ∧ ∃ run, modelValidate r.payload = some run ∧ run.id = r.id
  | .driving _ _ _ _ => True
  | .storing ref dumped => ObjectId objects ref dumped.id
  | .committing ref dumped seen => seen = none ∧ ObjectId objects ref dumped.id
  | .returned ref => t.call.key = some k →
      ∃ i id, ref = some i ∧ ObjectId objects i id ∧ Found store k id
  | .raised _ => t.call.key ≠ some k
  | _ => False

def Launches (workflows : Table WorkflowDef.name) (k : String) : Call D → Prop
  | .runWorkflow name _ key => key = some k → (workflows.get name).isSome
  | _ => False

structure Idempotent (workflows : Table WorkflowDef.name) (k : String) (s : Registry C D) :
    Prop where
  undecided : s.decided = []
  calls : ∀ c t, s.tasks c = some t → Launches workflows k t.call
  own : ∀ row ∈ s.store.rows, row.kind = workflowKind →
    ∃ run, modelValidate row.payload = some run ∧ run.id = row.id
  free : ∀ c id, WorkId s c id → s.store.get id = none
  alone : ∀ c c' id, WorkId s c id → WorkId s c' id → c = c'
  places : ∀ c t, s.tasks c = some t → Place k s.objects s.store t
  phase : ∃ p, AtPhase k s p

theorem Place.mono {objects objects' : List (WorkflowRun D)} {store store' : RunRows D} {t : Task D}
    (h : Place k objects store t) (ho : ∀ ref id, ObjectId objects ref id → ObjectId objects' ref id)
    (hf : ∀ id, Found store k id → Found store' k id) : Place k objects' store' t := by
  obtain ⟨call, pc⟩ := t
  cases pc with
  | looked row => exact fun r hr hk => ⟨hf r.id (h r hr hk).1, (h r hr hk).2⟩
  | storing ref dumped => exact ho ref dumped.id h
  | committing ref dumped seen => exact ⟨h.1, ho ref dumped.id h.2⟩
  | returned ref =>
    intro hk
    obtain ⟨i, id, hi, hobject, hfound⟩ := h hk
    exact ⟨i, id, hi, ho i id hobject, hf id hfound⟩
  | _ => exact h

variable [DecidableEq C]

theorem AtPhase.framed {s u : Registry C D} {p : Phase C} {c : C} {call : Call D}
    (h : AtPhase k s p) (hf : Framed s u c call)
    (hran : u.executed.countP (fun e => e.key = some k) = s.executed.countP fun e => e.key = some k)
    (hmiss : ∀ t, u.tasks c = some t → t.call.key = some k → t.pc.Missed → p.Misses c t.pc)
    (hpresent : ∀ t, s.tasks c = some t → t.call.key = some k → t.pc.Missed →
      ∃ t', u.tasks c = some t' ∧ t'.call.key = some k ∧ t'.pc.Missed) : AtPhase k u p where
  executed := hran.trans h.executed
  row := hf.store ▸ h.row
  misses c' t hc hk hm := by
    by_cases hcc : c' = c
    · subst hcc
      exact hmiss t hc hk hm
    · exact h.misses c' t (hf.others c' hcc ▸ hc) hk hm
  present c' hp := by
    obtain ⟨t, hc, hk, hm⟩ := h.present c' hp
    by_cases hcc : c' = c
    · subst hcc
      exact hpresent t hc hk hm
    · exact ⟨t, (hf.others c' hcc).trans hc, hk, hm⟩

theorem Idempotent.framed {s u : Registry C D} {c : C} {call : Call D}
    (h : Idempotent workflows k s) (hf : Framed s u c call) (hdecided : u.decided = [])
    (hcall : Launches workflows k call)
    (hids : ∀ ref id, ObjectId s.objects ref id → ObjectId u.objects ref id)
    (hothers : ∀ c' id, c' ≠ c → WorkId u c' id → WorkId s c' id)
    (hwork : ∀ id, WorkId u c id →
      WorkId s c id ∨ (∀ c', ¬ WorkId s c' id) ∧ s.store.get id = none)
    (hplace : ∀ t, u.tasks c = some t → Place k u.objects s.store t)
    (hphase : ∃ p, AtPhase k u p) : Idempotent workflows k u := by
  have hwork' : ∀ c' id, WorkId u c' id →
      WorkId s c' id ∨ c' = c ∧ (∀ c'', ¬ WorkId s c'' id) ∧ s.store.get id = none := by
    intro c' id hw
    by_cases hcc : c' = c
    · subst hcc
      exact (hwork id hw).imp_right fun hnew => ⟨rfl, hnew⟩
    · exact .inl (hothers c' id hcc hw)
  refine ⟨hdecided, fun c' t hc => ?_, hf.store ▸ h.own, fun c' id hw => ?_, fun c' c'' id hw hw' => ?_,
    fun c' t hc => ?_, hphase⟩
  · by_cases hcc : c' = c
    · subst hcc
      obtain ⟨pc, hpc⟩ := hf.called
      rw [hpc] at hc
      cases hc
      exact hcall
    · exact h.calls c' t (hf.others c' hcc ▸ hc)
  · rw [hf.store]
    rcases hwork' c' id hw with hold | ⟨_, _, hnone⟩
    · exact h.free c' id hold
    · exact hnone
  · rcases hwork' c' id hw with hold | ⟨rfl, hnew, _⟩
    · rcases hwork' c'' id hw' with hold' | ⟨_, hnew, _⟩
      · exact h.alone c' c'' id hold hold'
      · exact absurd hold (hnew c')
    · rcases hwork' c'' id hw' with hold' | ⟨rfl, _⟩
      · exact absurd hold' (hnew c'')
      · rfl
  · by_cases hcc : c' = c
    · subst hcc
      exact hf.store ▸ hplace t hc
    · rw [hf.others c' hcc] at hc
      exact (h.places c' t hc).mono hids fun id hfound => hf.store ▸ hfound

theorem ids_set {objects : List (WorkflowRun D)} {run run' : WorkflowRun D} {ref : ℕ}
    (ho : objects[ref]? = some run) (hid : run'.id = run.id) (r : ℕ) (id : String) :
    ObjectId (objects.set ref run') r id ↔ ObjectId objects r id := by
  by_cases hr : r = ref
  · subst hr
    constructor
    · rintro ⟨other, hother, rfl⟩
      rcases (object_set ho).mp hother with ⟨_, rfl⟩ | ⟨hne, _⟩
      · exact ⟨run, ho, hid.symm⟩
      · exact absurd rfl hne
    · rintro ⟨other, hother, rfl⟩
      obtain rfl : run = other := Option.some.inj (ho.symm.trans hother)
      exact ⟨run', (object_set ho).mpr (.inl ⟨rfl, rfl⟩), hid⟩
  · simp only [ObjectId, object_set ho]
    simp [hr]

omit [DecidableEq C] in
theorem workId_other {s u : Registry C D} {c : C} {id : String} (hc : u.tasks c = s.tasks c)
    (hids : ∀ t ref wf approved point, s.tasks c = some t → t.pc = .driving ref wf approved point →
      ObjectId u.objects ref id → ObjectId s.objects ref id) (h : WorkId u c id) : WorkId s c id := by
  obtain ⟨t, run, ht, hw, hid⟩ := h
  rw [hc] at ht
  cases hp : t.pc with
  | driving ref wf approved point =>
    rw [hp] at hw
    obtain ⟨run', hrun', hid'⟩ := hids t ref wf approved point ht hp ⟨run, hw, hid⟩
    exact ⟨t, run', ht, by rw [hp]; exact hrun', hid'⟩
  | _ =>
    rw [hp] at hw
    exact ⟨t, run, ht, by rw [hp]; exact hw, hid⟩

theorem Idempotent.quiet {s u : Registry C D} {c : C} {t : Task D} (h : Idempotent workflows k s)
    (ho : Orderly workflows s) (hf : Framed s u c t.call) (hu : u.tasks c = some t)
    (hi : t.pc.Idle) (hdecided : u.decided = s.decided) (hexecuted : u.executed = s.executed)
    (hcall : Launches workflows k t.call)
    (hobjects : u.objects = s.objects ∨ ∃ run, u.objects = s.objects ++ [run])
    (hplace : Place k u.objects s.store t)
    (hmissed : t.call.key = some k → ¬ t.pc.Missed)
    (hbefore : ∀ old, s.tasks c = some old → old.call.key = some k → ¬ old.pc.Missed) :
    Idempotent workflows k u := by
  have hids : ∀ ref id, ObjectId s.objects ref id → ObjectId u.objects ref id := by
    rintro ref id ⟨run, hrun, hid⟩
    rcases hobjects with hsame | ⟨new, hnew⟩
    · exact ⟨run, hsame ▸ hrun, hid⟩
    · exact ⟨run, hnew ▸ object_new.mpr (.inl hrun), hid⟩
  obtain ⟨p, hp⟩ := h.phase
  refine h.framed hf (hdecided.trans h.undecided) hcall hids (fun c' id hne => ?_) (fun id hw => ?_)
    (fun t' ht' => ?_) ⟨p, hp.framed hf (by rw [hexecuted]) (fun t' ht' hk hm => ?_) fun old hc hk hm =>
      absurd hm (hbefore old hc hk)⟩
  · apply workId_other (hf.others c' hne)
    intro old ref wf approved point hc hdriving
    rintro ⟨run, hrun, hid⟩
    rcases hobjects with hsame | ⟨new, hnew⟩
    · exact ⟨run, hsame ▸ hrun, hid⟩
    · obtain ⟨driven, hd⟩ := ho.steady.driven c' old ref wf approved point hc hdriving
      rw [hnew] at hrun
      obtain rfl : driven = run :=
        Option.some.inj ((object_new.mpr (.inl hd.object)).symm.trans hrun)
      exact ⟨driven, hd.object, hid⟩
  · obtain ⟨t', run, ht', hw, _⟩ := hw
    obtain rfl : t = t' := Option.some.inj (hu.symm.trans ht')
    exact absurd hw (hi.works _ run)
  · obtain rfl : t = t' := Option.some.inj (hu.symm.trans ht')
    exact hplace
  · obtain rfl : t = t' := Option.some.inj (hu.symm.trans ht')
    exact absurd hm (hmissed hk)

omit [DecidableEq C] in
theorem Phase.Misses.on {c : C} {pc pc' : Pc D} {p : Phase C} (h : p.Misses c pc)
    (hpc : pc ≠ .looked none) (hpc' : pc' ≠ .looked none) : p.Misses c pc' := by
  cases p with
  | missed c' => exact absurd h.2 hpc
  | running c' => exact ⟨h.1, hpc'⟩
  | _ => exact h

theorem place_proceed (k : String) {s : Registry C D} (c : C) (call : Call D) {ref : ℕ}
    (wf : WorkflowDef) {d : Drive D} {run : WorkflowRun D} (ho : s.objects[ref]? = some run)
    (hraised : call.key = some k → ¬ d.point.Raised) :
    ∃ pc, (proceed s c call ref wf d).tasks c = some ⟨call, pc⟩ ∧
      Place k (s.objects.set ref d.run) s.store ⟨call, pc⟩ ∧
      (∀ other, pc.Works (s.objects.set ref d.run) other → other = d.run) ∧
      (call.key = some k → pc.Missed) ∧ pc ≠ .looked none := by
  have hset : (s.objects.set ref d.run)[ref]? = some d.run :=
    (object_set ho).mpr (.inl ⟨rfl, rfl⟩)
  have hto := proceed_cases s c call ref wf d
  generalize proceed s c call ref wf d = t at hto ⊢
  cases hto with
  | ended hp =>
    refine ⟨.storing ref d.run, by rw [tasks_setTask, if_pos rfl], ⟨d.run, hset, rfl⟩, ?_, fun _ => trivial, by simp⟩
    exact fun other hw => (Option.some.inj hw).symm
  | raised exc hp =>
    refine ⟨.raised (.raised exc), by rw [tasks_setTask, if_pos rfl], ?_, by simp [Pc.work], ?_, by simp⟩
    · exact fun hk => hraised hk (by rw [hp]; trivial)
    · exact fun hk => absurd (by rw [hp]; trivial) (hraised hk)
  | awaits hp =>
    refine ⟨.driving ref wf d.approved d.point, by rw [tasks_setTask, if_pos rfl], trivial, ?_,
      fun _ => trivial, by simp⟩
    exact fun other hw => Option.some.inj (hw.symm.trans hset)

theorem Idempotent.drives {s : Registry C D} {c : C} {t : Task D} {ref : ℕ} {wf : WorkflowDef}
    {approved : List String} {point : Point} {run : WorkflowRun D} {d : Drive D}
    (h : Idempotent workflows k s) (hc : s.tasks c = some t)
    (hp : t.pc = .driving ref wf approved point) (ho : s.objects[ref]? = some run)
    (hid : d.run.id = run.id) (hraised : t.call.key = some k → ¬ d.point.Raised) :
    Idempotent workflows k (proceed s c t.call ref wf d) := by
  have hf := framed_proceed s c t.call ref wf d
  have hobjects := proceed_objects s c t.call ref wf d
  obtain ⟨hdecided, hexecuted⟩ := proceed_history s c t.call ref wf d
  obtain ⟨pc, hpc, hplace, hworks, hmissed, hne⟩ := place_proceed k c t.call wf ho hraised
  have honly : ∀ t', (proceed s c t.call ref wf d).tasks c = some t' → t' = ⟨t.call, pc⟩ :=
    fun t' ht' => Option.some.inj (ht'.symm.trans hpc)
  obtain ⟨p, hphase⟩ := h.phase
  refine h.framed hf (hdecided.trans h.undecided) (h.calls c t hc)
    (fun r id hr => hobjects ▸ (ids_set ho hid r id).mpr hr) (fun c' id hne => ?_) (fun id hw => .inl ?_)
    (fun t' ht' => ?_) ⟨p, hphase.framed hf (by rw [hexecuted]) (fun t' ht' hk hm => ?_)
      fun old hold hk hm => ?_⟩
  · apply workId_other (hf.others c' hne)
    intro old r wf' approved' point' hold hdriving hr
    exact (ids_set ho hid r id).mp (hobjects ▸ hr)
  · obtain ⟨t', other, ht', hw, rfl⟩ := hw
    rw [honly t' ht', hobjects] at hw
    exact ⟨t, run, hc, by rw [hp]; exact ho, by rw [hworks other hw, hid]⟩
  · rw [honly t' ht', hobjects]
    exact hplace
  · rw [honly t' ht']
    refine (hphase.misses c t hc ?_ (by rw [hp]; trivial)).on (by simp [hp]) hne
    simpa [honly t' ht'] using hk
  · obtain rfl : t = old := Option.some.inj (hc.symm.trans hold)
    exact ⟨_, hpc, hk, hmissed hk⟩

omit [DecidableEq C] in
theorem Fresh.work {s : Registry C D} {runId : String} (h : Fresh s runId) (c : C) :
    ¬ WorkId s c runId := by
  rintro ⟨t, run, hc, hw, hid⟩
  cases hp : t.pc with
  | driving ref wf approved point =>
    rw [hp] at hw
    exact h.objects run (List.mem_of_getElem? hw) hid
  | storing ref dumped =>
    rw [hp] at hw
    exact h.tasks c t hc run (by rw [hp]; exact hw) hid
  | committing ref dumped seen =>
    rw [hp] at hw
    exact h.tasks c t hc run (by rw [hp]; exact hw) hid
  | _ => simp [hp, Pc.work] at hw

omit [DecidableEq C] in
theorem Fresh.get {s : Registry C D} {runId : String} (h : Fresh s runId) :
    s.store.get runId = none := by
  cases hg : s.store.get runId with
  | none => rfl
  | some row => exact absurd (Table.key_of_get hg) (h.rows row (Table.mem_of_get hg)).1

theorem AtPhase.enters {s u : Registry C D} {c : C} {call : Call D} {pc : Pc D}
    (h : AtPhase k s (.missed c)) (hf : Framed s u c call)
    (hran : u.executed.countP (fun e => e.key = some k) =
      s.executed.countP (fun e => e.key = some k) + 1)
    (hu : u.tasks c = some ⟨call, pc⟩) (hkey : call.key = some k) (hm : pc.Missed)
    (hne : pc ≠ .looked none) : AtPhase k u (.running c) where
  executed := by rw [hran, h.executed]; rfl
  row := by simpa [hf.store] using h.row
  misses c' t hc hk hmissed := by
    by_cases hcc : c' = c
    · subst hcc
      obtain rfl := Option.some.inj (hu.symm.trans hc)
      exact ⟨rfl, hne⟩
    · exact absurd (h.misses c' t (hf.others c' hcc ▸ hc) hk hmissed).1 hcc
  present c' hp := by
    rcases hp with hp | hp
    · cases hp
    · cases hp
      exact ⟨_, hu, hkey, hm⟩

theorem Idempotent.enterExecute {s : Registry C D} (h : Idempotent workflows k s)
    (ho : Orderly workflows s) {c : C} {runId : String} (hfresh : Fresh s runId)
    {name : String} {inputState : D} {key : Option String}
    (hcall : Launches workflows k (Call.runWorkflow name inputState key))
    (hphase : key ≠ some k ∧
        (∀ old, s.tasks c = some old → old.call.key = some k → ¬ old.pc.Missed) ∨
      key = some k ∧ AtPhase k s (.missed c)) (createdAt : String) :
    Idempotent workflows k (enterExecute workflows s c name inputState key runId createdAt) := by
  have hf := framed_enterExecute workflows s c name inputState key runId createdAt
  cases hw : workflows.get name with
  | none =>
    have hkey : key ≠ some k := by
      intro hk
      have hsome := hcall hk
      simp [hw] at hsome
    have hraised : RegistryCalls.enterExecute workflows s c name inputState key runId createdAt =
        s.setTask c ⟨.runWorkflow name inputState key, .raised (.keyError name)⟩ := by
      simp [RegistryCalls.enterExecute, hw]
    rw [hraised]
    refine h.quiet ho (framed_setTask s c _) (by rw [tasks_setTask, if_pos rfl]) trivial rfl rfl hcall
      (.inl rfl) hkey (fun hk => absurd hk hkey) ?_
    rcases hphase with ⟨_, hbefore⟩ | ⟨hk, _⟩
    · exact hbefore
    · exact absurd hk hkey
  | some wf =>
    let entry : Executed C := ⟨c, key, runId⟩
    let run : WorkflowRun D := newRun wf runId createdAt inputState
    let d : Drive D := execute wf runId createdAt inputState
    have hentered : RegistryCalls.enterExecute workflows s c name inputState key runId createdAt =
        RegistryCalls.proceed { s with objects := s.objects ++ [run], executed := s.executed ++ [entry] } c
          (.runWorkflow name inputState key) s.objects.length wf d := by
      simp [RegistryCalls.enterExecute, hw, run, d, entry]
    rw [hentered] at hf ⊢
    have hobject : (s.objects ++ [run])[s.objects.length]? = some run :=
      object_new.mpr (.inr ⟨rfl, rfl⟩)
    have hid : d.run.id = run.id := (sameRun_loopHead wf _ run (some wf.entry)).1
    have hobjects := proceed_objects { s with
      objects := s.objects ++ [run], executed := s.executed ++ [entry] } c
      (.runWorkflow name inputState key) s.objects.length wf d
    obtain ⟨hdecided, hexecuted⟩ := proceed_history { s with
      objects := s.objects ++ [run], executed := s.executed ++ [entry] } c
      (.runWorkflow name inputState key) s.objects.length wf d
    obtain ⟨pc, hpc, hplace, hworks, hmissed, hne⟩ := place_proceed k
      (s := { s with objects := s.objects ++ [run], executed := s.executed ++ [entry] }) c
      (.runWorkflow name inputState key) wf hobject
      (fun _ => (sound_execute wf runId createdAt inputState).2)
    generalize RegistryCalls.proceed _ c _ _ wf d = u at hf hobjects hdecided hexecuted hpc ⊢
    have honly : ∀ t', u.tasks c = some t' → t' = ⟨.runWorkflow name inputState key, pc⟩ :=
      fun t' ht' => Option.some.inj (ht'.symm.trans hpc)
    refine h.framed hf (hdecided.trans h.undecided) hcall (fun r id hr => ?_) (fun c' id hne => ?_)
      (fun id hw => .inr ?_) (fun t' ht' => ?_) ?_
    · obtain ⟨old, hold, hrid⟩ := hr
      rw [hobjects]
      exact (ids_set hobject hid r id).mpr ⟨old, object_new.mpr (.inl hold), hrid⟩
    · apply workId_other (hf.others c' hne)
      intro old r wf' approved point hc hp hr
      rw [hobjects] at hr
      obtain ⟨other, hother, hrid⟩ := (ids_set hobject hid r id).mp hr
      obtain ⟨driven, hd⟩ := ho.steady.driven c' old r wf' approved point hc hp
      obtain rfl : driven = other :=
        Option.some.inj ((object_new.mpr (.inl hd.object)).symm.trans hother)
      exact ⟨driven, hd.object, hrid⟩
    · obtain ⟨t', other, ht', hworks', rfl⟩ := hw
      rw [honly t' ht', hobjects] at hworks'
      have hrunId : other.id = runId := (congrArg WorkflowRun.id (hworks other hworks')).trans hid
      rw [hrunId]
      exact ⟨hfresh.work, hfresh.get⟩
    · rw [honly t' ht', hobjects]
      exact hplace
    · rcases hphase with ⟨hkey, hbefore⟩ | ⟨hkey, hp⟩
      · obtain ⟨p, hp⟩ := h.phase
        refine ⟨p, hp.framed hf ?_ (fun t' ht' hk => ?_) fun old hold hk hm => ?_⟩
        · rw [hexecuted]
          simp [entry, hkey]
        · rw [honly t' ht'] at hk
          exact absurd hk hkey
        · exact absurd hm (hbefore old hold hk)
      · refine ⟨.running c, hp.enters hf ?_ hpc hkey (hmissed hkey) hne⟩
        rw [hexecuted]
        simp [entry, hkey]

theorem AtPhase.missing {s u : Registry C D} {p : Phase C} {c : C} {call : Call D}
    (h : AtPhase k s p) (hf : Framed s u c call) (hran : u.executed = s.executed)
    (hu : u.tasks c = some ⟨call, .looked none⟩) (hkey : call.key = some k)
    (hrow : getRunByIdempotencyKey s.store workflowKind k = none)
    (hg : ∀ c' t', s.tasks c' = some t' → t'.call.key = some k → ¬ t'.pc.Missed) :
    AtPhase k u (.missed c) := by
  have hidle : p = .idle := by
    cases p with
    | idle => rfl
    | missed c' =>
      obtain ⟨t, hc, hk, hm⟩ := h.present c' (.inl rfl)
      exact absurd hm (hg c' t hc hk)
    | running c' =>
      obtain ⟨t, hc, hk, hm⟩ := h.present c' (.inr rfl)
      exact absurd hm (hg c' t hc hk)
    | stored => simpa [hrow] using h.row
  subst hidle
  refine ⟨hran ▸ h.executed, by simp [hf.store, hrow], fun c' t hc hk hm => ?_, fun c' hp => ?_⟩
  · by_cases hcc : c' = c
    · subst hcc
      obtain rfl := Option.some.inj (hu.symm.trans hc)
      exact ⟨rfl, rfl⟩
    · exact absurd hm (hg c' t (hf.others c' hcc ▸ hc) hk)
  · rcases hp with hp | hp
    · cases hp
      exact ⟨_, hu, hkey, trivial⟩
    · cases hp

theorem Idempotent.looks {s : Registry C D} (h : Idempotent workflows k s) {c : C} {t : Task D}
    {key : String} (hc : s.tasks c = some t) (hp : t.pc = .looking key)
    {row : Option (AgentRun (RowPayload D))}
    (hrow : getRunByIdempotencyKey s.store workflowKind key = row)
    (hg : key = k → ∀ c' t', s.tasks c' = some t' → t'.call.key = some k → ¬ t'.pc.Missed) :
    Idempotent workflows k (s.setTask c ⟨t.call, .looked row⟩) := by
  have hkey : t.call.key = some key := by simpa [Place, hp] using h.places c t hc
  have hf := framed_setTask s c ⟨t.call, .looked row⟩
  have hu : (s.setTask c ⟨t.call, .looked row⟩).tasks c = some ⟨t.call, .looked row⟩ := by
    rw [tasks_setTask, if_pos rfl]
  have honly : ∀ u, (s.setTask c ⟨t.call, .looked row⟩).tasks c = some u →
      u = ⟨t.call, .looked row⟩ := fun u hu' => Option.some.inj (hu'.symm.trans hu)
  refine h.framed hf h.undecided (h.calls c t hc) (fun _ _ => id) (fun c' id hne => ?_)
    (fun id hw => ?_) (fun u hu' => ?_) ?_
  · exact workId_other (hf.others c' hne) fun _ _ _ _ _ _ _ hr => hr
  · obtain ⟨u, run, hu', hw, _⟩ := hw
    rw [honly u hu'] at hw
    simp [Pc.work] at hw
  · rw [honly u hu']
    intro r hr hk
    obtain rfl : key = k := Option.some.inj (hkey.symm.trans hk)
    rw [Option.mem_def.mp hr] at hrow
    obtain ⟨hmem, hkind, _⟩ := getByKey_mem hrow
    exact ⟨⟨r, hrow, rfl⟩, h.own r hmem hkind⟩
  · obtain ⟨p, hphase⟩ := h.phase
    by_cases hmiss : key = k ∧ row = none
    · obtain ⟨rfl, rfl⟩ := hmiss
      exact ⟨.missed c, hphase.missing hf rfl hu hkey hrow (hg rfl)⟩
    · refine ⟨p, hphase.framed hf rfl (fun u hu' hk hm => ?_) fun old hold _ hm => ?_⟩
      · rw [honly u hu'] at hk hm
        obtain rfl : key = k := Option.some.inj (hkey.symm.trans hk)
        cases row with
        | none => exact absurd ⟨rfl, rfl⟩ hmiss
        | some row => exact absurd hm not_false
      · obtain rfl : t = old := Option.some.inj (hc.symm.trans hold)
        rw [hp] at hm
        exact absurd hm not_false

theorem Idempotent.reads {s : Registry C D} (h : Idempotent workflows k s) {c : C} {t : Task D}
    {pc : Pc D} (hc : s.tasks c = some t) (hr : read s.store t.pc = some pc)
    (hg : t.pc = .looking k → ∀ c' t', s.tasks c' = some t' → t'.call.key = some k → ¬ t'.pc.Missed) :
    Idempotent workflows k (s.setTask c ⟨t.call, pc⟩) := by
  have hplace := h.places c t hc
  rcases read_cases hr with ⟨key, hp, rfl⟩ | ⟨id, hp, rfl⟩ | ⟨ref, dumped, hp, rfl⟩
  · exact h.looks hc hp rfl fun hkey => hg (hkey ▸ hp)
  · simp [Place, hp] at hplace
  · have hobject : ObjectId s.objects ref dumped.id := by simpa [Place, hp] using hplace
    have hwork : WorkId s c dumped.id := ⟨t, dumped, hc, by rw [hp]; rfl, rfl⟩
    have hf := framed_setTask s c ⟨t.call, .committing ref dumped (s.store.get dumped.id)⟩
    have hu : (s.setTask c ⟨t.call, .committing ref dumped (s.store.get dumped.id)⟩).tasks c =
        some ⟨t.call, .committing ref dumped (s.store.get dumped.id)⟩ := by
      rw [tasks_setTask, if_pos rfl]
    obtain ⟨p, hphase⟩ := h.phase
    refine h.framed hf h.undecided (h.calls c t hc) (fun _ _ => id) (fun c' id hne => ?_)
      (fun id hw => .inl ?_) (fun u hu' => ?_) ⟨p, hphase.framed hf rfl (fun u hu' hk _ => ?_)
        fun old hold hk _ => ?_⟩
    · exact workId_other (hf.others c' hne) fun _ _ _ _ _ _ _ hr => hr
    · obtain ⟨u, run, hu', hw, rfl⟩ := hw
      obtain rfl := Option.some.inj (hu.symm.trans hu')
      obtain rfl : dumped = run := Option.some.inj hw
      exact hwork
    · obtain rfl := Option.some.inj (hu.symm.trans hu')
      exact ⟨h.free c dumped.id hwork, hobject⟩
    · obtain rfl := Option.some.inj (hu.symm.trans hu')
      exact (hphase.misses c t hc hk (by rw [hp]; trivial)).on (by simp [hp]) (by simp)
    · obtain rfl : t = old := Option.some.inj (hc.symm.trans hold)
      exact ⟨_, hu, hk, trivial⟩

theorem Idempotent.goOn {s : Registry C D} (h : Idempotent workflows k s) (ho : Orderly workflows s)
    {c : C} {t : Task D} {row : Option (AgentRun (RowPayload D))} (hc : s.tasks c = some t)
    (hp : t.pc = .looked row ∨ t.pc = .loaded row) {runId : String} (hfresh : Fresh s runId)
    (createdAt : String) :
    Idempotent workflows k (goOn workflows s c runId createdAt t.call row) := by
  have hplace := h.places c t hc
  have hcall := h.calls c t hc
  obtain ⟨call, pc⟩ := t
  have hp : pc = .looked row := by
    apply hp.resolve_right
    intro hp
    simp [Place, show pc = _ from hp] at hplace
  subst hp
  have hold : ∀ old, s.tasks c = some old → old = ⟨call, .looked row⟩ :=
    fun old hold => Option.some.inj (hold.symm.trans hc)
  have hto := goOn_cases workflows s c runId createdAt call row
  generalize RegistryCalls.goOn workflows s c runId createdAt call row = u at hto ⊢
  cases hto with
  | invalid call r hv =>
    have hkey : call.key ≠ some k := by
      intro hk
      obtain ⟨_, run, hrun, _⟩ := hplace r rfl hk
      simp [hv] at hrun
    refine h.quiet ho (framed_setTask s c _) (by rw [tasks_setTask, if_pos rfl]) trivial rfl rfl hcall
      (.inl rfl) hkey (fun hk => absurd hk hkey) fun old hold' _ hm => ?_
    rw [hold old hold'] at hm
    exact hm
  | shows call r run hv hresume =>
    have hf := framed_setTask (s.adopt run) c ⟨call, .returned (some s.objects.length)⟩
    refine h.quiet ho ⟨hf.store, hf.others, hf.called, hf.decided⟩ (by rw [tasks_setTask, if_pos rfl])
      trivial rfl rfl hcall (.inr ⟨run, rfl⟩) (fun hk => ?_) (fun _ => id) fun old hold' _ hm => ?_
    · obtain ⟨hfound, run', hrun', hid⟩ := hplace r rfl hk
      obtain rfl : run = run' := Option.some.inj (hv.symm.trans hrun')
      exact ⟨s.objects.length, r.id, rfl, ⟨run, object_new.mpr (.inr ⟨rfl, rfl⟩), hid⟩, hfound⟩
    · rw [hold old hold'] at hm
      exact hm
  | decides id decision r run hv => exact absurd hcall not_false
  | enters name inputState key =>
    refine h.enterExecute ho hfresh hcall ?_ createdAt
    by_cases hk : key = some k
    · obtain ⟨p, hphase⟩ := h.phase
      have hmisses := hphase.misses c _ hc hk trivial
      cases p with
      | missed c' =>
        obtain rfl : c = c' := hmisses.1
        exact .inr ⟨hk, hphase⟩
      | running c' => exact absurd rfl hmisses.2
      | _ => exact absurd hmisses not_false
    · refine .inl ⟨hk, fun old hold' hkey => ?_⟩
      rw [hold old hold'] at hkey
      exact absurd hkey hk
  | absent id => exact absurd hcall not_false
  | unknown id decision => exact absurd hcall not_false

end Workbench.RegistryCalls
