import Workbench.OrderlyCalls

namespace Workbench.RegistryCalls

open KeyedTable RunStore Transitions WorkflowEngine WorkflowRegistry

variable {C D : Type}

def workflowAt (s : Registry C D) (ref : ℕ) : Option String :=
  (s.objects[ref]?).map WorkflowRun.workflow

def OwnRun (s : Registry C D) (t : Task D) : Prop :=
  match t.call, t.pc with
  | .runWorkflow name _ _, .returned ref => ref.bind (workflowAt s) = some name
  | _, _ => True

def OwnRuns (s : Registry C D) : Prop := ∀ c, ∀ t ∈ s.tasks c, OwnRun s t

def OwnRow (t : Task D) : Prop :=
  match t.call, t.pc with
  | .runWorkflow name _ _, .looked (some row) => ∀ run ∈ modelValidate row.payload, run.workflow = name
  | _, _ => True

theorem ownRun_working (s : Registry C D) {t : Task D} (h : ∀ ref, t.pc ≠ .returned ref) :
    OwnRun s t := by
  obtain ⟨call, pc⟩ := t
  cases pc with
  | returned ref => exact absurd rfl (h ref)
  | _ => cases call <;> trivial

def OwnKey (s : Registry C D) : Action C D → Prop
  | .continues c _ _ => ∀ t ∈ s.tasks c, OwnRow t
  | _ => True

def Pc.Bound (s : Registry C D) (name : String) : Pc D → Prop
  | .loading _ => False
  | .loaded _ => False
  | .driving ref _ _ _ => workflowAt s ref = some name
  | .storing ref dumped => workflowAt s ref = some name ∧ dumped.workflow = name
  | .committing ref dumped _ => workflowAt s ref = some name ∧ dumped.workflow = name
  | .returned ref => (ref.bind (workflowAt s)).isSome
  | _ => True

def Task.Bound (s : Registry C D) (t : Task D) : Prop :=
  match t.call with
  | .runWorkflow name _ _ => t.pc.Bound s name
  | _ => True

def Bound (s : Registry C D) : Prop := ∀ c, ∀ t ∈ s.tasks c, t.Bound s

def Keeps (s u : Registry C D) : Prop :=
  ∀ ref name, workflowAt s ref = some name → workflowAt u ref = some name

theorem Pc.Bound.keeps {s u : Registry C D} {name : String} {pc : Pc D} (h : pc.Bound s name)
    (hk : Keeps s u) : pc.Bound u name := by
  cases pc with
  | driving ref wf approved point => exact hk ref name h
  | storing ref dumped => exact ⟨hk ref name h.1, h.2⟩
  | committing ref dumped seen => exact ⟨hk ref name h.1, h.2⟩
  | returned ref =>
    obtain ⟨other, ho⟩ := Option.isSome_iff_exists.mp h
    obtain ⟨i, rfl, hi⟩ := Option.bind_eq_some_iff.mp ho
    exact Option.isSome_iff_exists.mpr ⟨other, hk i other hi⟩
  | _ => exact h

theorem Task.Bound.keeps {s u : Registry C D} {t : Task D} (h : t.Bound s) (hk : Keeps s u) :
    t.Bound u := by
  obtain ⟨call, pc⟩ := t
  cases call with
  | runWorkflow name inputState key => exact Pc.Bound.keeps h hk
  | _ => trivial

theorem Task.Bound.ownRun_iff {s u : Registry C D} {t : Task D} (h : t.Bound s) (hk : Keeps s u) :
    OwnRun u t ↔ OwnRun s t := by
  obtain ⟨call, pc⟩ := t
  cases call with
  | runWorkflow name inputState key =>
    cases pc with
    | returned ref =>
      obtain ⟨other, ho⟩ := Option.isSome_iff_exists.mp h
      obtain ⟨i, rfl, hi⟩ := Option.bind_eq_some_iff.mp ho
      have hu : workflowAt u i = some other := hk i other hi
      change workflowAt u i = some name ↔ workflowAt s i = some name
      rw [hu, hi]
    | _ => exact Iff.rfl
  | _ => exact Iff.rfl

structure Turn (s u : Registry C D) (c : C) (t : Task D) : Prop where
  others : ∀ c', c' ≠ c → u.tasks c' = s.tasks c'
  now : u.tasks c = some t
  ended : ∀ old ∈ s.tasks c, ∀ ref, old.pc ≠ .returned ref
  keeps : Keeps s u
  bound : t.Bound u

theorem Turn.binds {s u : Registry C D} {c : C} {t : Task D} (h : Turn s u c t) (hs : Bound s) :
    Bound u := by
  intro c' t' ht'
  by_cases hc : c' = c
  · subst hc
    obtain rfl : t = t' := Option.some.inj (h.now.symm.trans ht')
    exact h.bound
  · exact (hs c' t' (h.others c' hc ▸ ht')).keeps h.keeps

theorem Turn.ownRuns_iff {s u : Registry C D} {c : C} {t : Task D} (h : Turn s u c t)
    (hs : Bound s) : OwnRuns u ↔ OwnRuns s ∧ OwnRun u t := by
  constructor
  · intro hu
    refine ⟨fun c' t' ht' => ?_, hu c t h.now⟩
    by_cases hc : c' = c
    · subst hc
      have hended := h.ended t' ht'
      obtain ⟨call, pc⟩ := t'
      cases pc with
      | returned ref => exact absurd rfl (hended ref)
      | _ => cases call <;> trivial
    · have hbefore : t' ∈ u.tasks c' := (h.others c' hc).symm ▸ ht'
      exact ((hs c' t' ht').ownRun_iff h.keeps).mp (hu c' t' hbefore)
  · rintro ⟨hold, hnew⟩ c' t' ht'
    by_cases hc : c' = c
    · subst hc
      obtain rfl : t = t' := Option.some.inj (h.now.symm.trans ht')
      exact hnew
    · have hafter : t' ∈ s.tasks c' := h.others c' hc ▸ ht'
      exact ((hs c' t' hafter).ownRun_iff h.keeps).mpr (hold c' t' hafter)

def TakesTurn (s u : Registry C D) (c : C) (own : Prop) : Prop :=
  ∃ t, Turn s u c t ∧ (OwnRun u t ↔ own)

theorem TakesTurn.since {s v u : Registry C D} {c : C} {own : Prop} (h : TakesTurn v u c own)
    (ht : v.tasks = s.tasks) (hk : Keeps s v) : TakesTurn s u c own := by
  obtain ⟨t, hturn, hown⟩ := h
  refine ⟨t, ⟨fun c' hc => ht ▸ hturn.others c' hc, hturn.now, ht ▸ hturn.ended, ?_, hturn.bound⟩, hown⟩
  intro ref name hw
  exact hturn.keeps ref name (hk ref name hw)

theorem workflowAt_set {s u : Registry C D} {ref : ℕ} {run : WorkflowRun D}
    (ho : u.objects = s.objects.set ref run) (h : workflowAt s ref = some run.workflow) (i : ℕ) :
    workflowAt u i = workflowAt s i := by
  unfold workflowAt at h ⊢
  rw [ho, List.getElem?_set]
  split_ifs with hi hlt
  · rw [← hi, h, Option.map_some]
  · rw [List.getElem?_eq_none (by omega)] at h
    cases h
  · rfl

theorem keeps_append {s u : Registry C D} {run : WorkflowRun D} (ho : u.objects = s.objects ++ [run]) :
    Keeps s u := by
  intro ref name h
  obtain ⟨old, hold, hname⟩ := Option.map_eq_some_iff.mp h
  apply Option.map_eq_some_iff.mpr
  exact ⟨old, by rw [ho]; exact object_new.mpr (.inl hold), hname⟩

theorem workflowAt_append {s u : Registry C D} {run : WorkflowRun D}
    (ho : u.objects = s.objects ++ [run]) : workflowAt u s.objects.length = some run.workflow := by
  apply Option.map_eq_some_iff.mpr
  exact ⟨run, by rw [ho]; exact object_new.mpr (.inr ⟨rfl, rfl⟩), rfl⟩

variable [DecidableEq C] {workflows : Table WorkflowDef.name}

theorem turn_setTask {s : Registry C D} {c : C} {t : Task D}
    (hended : ∀ old ∈ s.tasks c, ∀ ref, old.pc ≠ .returned ref) (hb : t.Bound s) :
    Turn s (s.setTask c t) c t where
  others := (framed_setTask s c t).others
  now := by rw [tasks_setTask, if_pos rfl]
  ended := hended
  keeps _ _ := id
  bound := hb

section Operations

variable {s : Registry C D} {c : C} (hended : ∀ old ∈ s.tasks c, ∀ ref, old.pc ≠ .returned ref)

include hended

theorem takesTurn_proceed {call : Call D} {ref : ℕ} {d : Drive D}
    (hw : workflowAt s ref = some d.run.workflow)
    (hcall : ∀ name inputState key, call = .runWorkflow name inputState key → d.run.workflow = name)
    (wf : WorkflowDef) : TakesTurn s (proceed s c call ref wf d) c True := by
  have hto := proceed_cases s c call ref wf d
  generalize proceed s c call ref wf d = u at hto ⊢
  have hat : ∀ v : Registry C D, v.objects = s.objects.set ref d.run → v.tasks = s.tasks →
      ∀ pc : Pc D, (∀ name, d.run.workflow = name → workflowAt v ref = some name → pc.Bound v name) →
        (∀ r, pc ≠ .returned r) → TakesTurn s (v.setTask c ⟨call, pc⟩) c True := by
    intro v ho htasks pc hpc hnew
    have hsame := workflowAt_set ho hw
    refine TakesTurn.since (v := v) ⟨_, turn_setTask (htasks ▸ hended) ?_,
      iff_true_intro (ownRun_working _ hnew)⟩ htasks fun i name hi => by rwa [hsame]
    cases call with
    | runWorkflow name inputState key =>
      have hname := hcall name inputState key rfl
      exact hpc name hname (by rw [hsame, hw, hname])
    | _ => trivial
  cases hto with
  | ended hp =>
    apply hat { s with
      objects := s.objects.set ref d.run
      cache := evictRefs (s.cache.put (d.run.id, ref)) } rfl rfl
    · exact fun name hname hat => ⟨hat, hname⟩
    · simp
  | raised exc hp =>
    apply hat { s with objects := s.objects.set ref d.run } rfl rfl
    · exact fun _ _ _ => trivial
    · simp
  | awaits hp =>
    apply hat { s with objects := s.objects.set ref d.run } rfl rfl
    · exact fun name _ hat => hat
    · simp

theorem takesTurn_enterExecute (name : String) (inputState : D) (key : Option String)
    (runId createdAt : String) :
    TakesTurn s (enterExecute workflows s c name inputState key runId createdAt) c True := by
  unfold enterExecute
  cases hw : workflows.get name with
  | none => exact ⟨_, turn_setTask hended trivial, iff_true_intro trivial⟩
  | some wf =>
    simp only
    have hname : wf.name = name := Table.key_of_get hw
    have hworkflow : (execute wf runId createdAt inputState).run.workflow = wf.name :=
      (sameRun_loopHead wf _ (newRun wf runId createdAt inputState) (some wf.entry)).2
    let entered : Registry C D := { s with
      objects := s.objects ++ [newRun wf runId createdAt inputState]
      executed := s.executed ++ [⟨c, key, runId⟩] }
    apply TakesTurn.since (s := s) (v := entered) ?_ rfl (keeps_append rfl)
    apply takesTurn_proceed (s := entered) hended
    · rw [hworkflow]
      exact workflowAt_append (s := s) (u := entered) rfl
    · intro other _ _ hcall
      cases hcall
      exact hworkflow.trans hname

theorem takesTurn_decideOn {id : String} {decision : Decision} {ref : ℕ} {run : WorkflowRun D}
    (hw : workflowAt s ref = some run.workflow) :
    TakesTurn s (decideOn workflows s c (.resumeRun id decision) ref run decision) c True := by
  have hto := decideOn_cases workflows s c (.resumeRun id decision) ref run decision
  generalize decideOn workflows s c (.resumeRun id decision) ref run decision = u at hto ⊢
  cases hto with
  | unregistered hg => exact ⟨_, turn_setTask hended trivial, iff_true_intro trivial⟩
  | refused wf message hg hr => exact ⟨_, turn_setTask hended trivial, iff_true_intro trivial⟩
  | decided wf d hg hr =>
    let entered : Registry C D := { s with
      decided := s.decided ++ [⟨c, run.id, run.approvals.length, decision.decision⟩] }
    apply TakesTurn.since (s := s) (v := entered) ?_ rfl fun _ _ hi => hi
    apply takesTurn_proceed (s := entered) hended
    · rw [(sameRun_resume hr).2]
      exact hw
    · intro name inputState key hcall
      cases hcall

theorem takesTurn_goOn {t : Task D} {row : Option (AgentRun (RowPayload D))}
    (hp : t.pc = .looked row ∨ t.pc = .loaded row) (hb : t.Bound s) (runId createdAt : String) :
    TakesTurn s (goOn workflows s c runId createdAt t.call row) c (OwnRow t) := by
  obtain ⟨call, pc⟩ := t
  have hto := goOn_cases workflows s c runId createdAt call row
  simp only
  generalize goOn workflows s c runId createdAt call row = u at hto ⊢
  have hother : (∀ name inputState key, call ≠ .runWorkflow name inputState key) →
      OwnRow ⟨call, pc⟩ := by
    intro hcall
    cases call with
    | runWorkflow name inputState key => exact absurd rfl (hcall name inputState key)
    | _ => trivial
  have hnone : row = none → OwnRow ⟨call, pc⟩ := by
    rintro rfl
    rcases hp with rfl | rfl <;> cases call <;> trivial
  cases hto with
  | invalid call row hv =>
    refine ⟨_, turn_setTask hended ?_, iff_of_true (ownRun_working _ (by simp)) ?_⟩
    · cases call <;> trivial
    · cases call with
      | runWorkflow name inputState key =>
        rcases hp with rfl | rfl
        · intro run hr
          rw [hv] at hr
          cases hr
        · trivial
      | _ => trivial
  | shows call row run hv hcall =>
    have hat : workflowAt (s.adopt run) s.objects.length = some run.workflow := workflowAt_append rfl
    refine TakesTurn.since (v := s.adopt run) ⟨_, turn_setTask hended ?_, ?_⟩ rfl (keeps_append rfl)
    · cases call with
      | runWorkflow name inputState key => exact Option.isSome_iff_exists.mpr ⟨run.workflow, hat⟩
      | _ => trivial
    · cases call with
      | runWorkflow name inputState key =>
        rcases hp with rfl | rfl
        · change workflowAt (s.adopt run) s.objects.length = some name ↔
            ∀ other ∈ modelValidate row.payload, other.workflow = name
          simp [hat, hv]
        · exact absurd hb not_false
      | _ => exact Iff.rfl
  | decides id decision row run hv =>
    have hturn : TakesTurn (s.adopt run) (decideOn workflows (s.adopt run) c (.resumeRun id decision)
        s.objects.length run decision) c True :=
      takesTurn_decideOn (s := s.adopt run) hended (workflowAt_append (s := s) rfl)
    obtain ⟨t, ht, hown⟩ := hturn.since (s := s) rfl (keeps_append rfl)
    exact ⟨t, ht, hown.trans (iff_of_true trivial (hother (by simp)))⟩
  | enters name inputState key =>
    obtain ⟨t, ht, hown⟩ := takesTurn_enterExecute hended name inputState key runId createdAt
    exact ⟨t, ht, hown.trans (iff_of_true trivial (hnone rfl))⟩
  | absent id => exact ⟨_, turn_setTask hended trivial, iff_of_true trivial (hother (by simp))⟩
  | unknown id decision =>
    exact ⟨_, turn_setTask hended trivial, iff_of_true trivial (hother (by simp))⟩

end Operations

omit [DecidableEq C] in
theorem bound_restart {s : Registry C D} (hb : Bound s) :
    Bound { s with cache := Table.empty _, tasks := fun c => (s.tasks c).map Task.lose } ∧
      (OwnRuns { s with cache := Table.empty _, tasks := fun c => (s.tasks c).map Task.lose } ↔
        OwnRuns s) := by
  have hlose : ∀ t : Task D, t.lose = t ∨ ¬ (∃ ref, t.pc = .returned ref) ∧ t.lose = ⟨t.call, .lost⟩ := by
    rintro ⟨call, pc⟩
    cases pc <;> simp [Task.lose]
  refine ⟨fun c t ht => ?_, fun h c t ht => ?_, fun h c t ht => ?_⟩
  · obtain ⟨old, hold, rfl⟩ := Option.map_eq_some_iff.mp ht
    rcases hlose old with hsame | ⟨_, hlost⟩
    · rw [hsame]
      exact hb c old hold
    · rw [hlost]
      unfold Task.Bound
      cases old.call <;> trivial
  · rcases hlose t with hsame | ⟨hended, _⟩
    · have hafter : t ∈ (s.tasks c).map Task.lose := Option.mem_map.mpr ⟨t, ht, hsame⟩
      exact h c t hafter
    · exact ownRun_working s fun ref hp => hended ⟨ref, hp⟩
  · obtain ⟨old, hold, rfl⟩ := Option.map_eq_some_iff.mp ht
    rcases hlose old with hsame | ⟨_, hlost⟩
    · rw [hsame]
      exact h c old hold
    · rw [hlost]
      exact ownRun_working _ (by simp)

section Runs

variable [StateDict D] [DecidableEq D] {json : D → Option D}

theorem bound_step {s u : Registry C D} {a : Action C D} (hb : Bound s)
    (h : RegistryCalls.step workflows json s a = some u) :
    Bound u ∧ (OwnRuns u ↔ OwnRuns s ∧ OwnKey s a) := by
  have hturn : ∀ c own, TakesTurn s u c own → (own ↔ OwnKey s a) →
      Bound u ∧ (OwnRuns u ↔ OwnRuns s ∧ OwnKey s a) := by
    rintro c own ⟨t, ht, hown⟩ hkey
    exact ⟨ht.binds hb, (ht.ownRuns_iff hb).trans (and_congr_right' (hown.trans hkey))⟩
  have hnone : ∀ c, s.tasks c = none → ∀ old ∈ s.tasks c, ∀ ref, old.pc ≠ .returned ref := by
    intro c hc old hold
    rw [hc] at hold
    cases hold
  have hsome : ∀ c t, s.tasks c = some t → (∀ ref, t.pc ≠ .returned ref) →
      ∀ old ∈ s.tasks c, ∀ ref, old.pc ≠ .returned ref := by
    intro c t hc ht old hold
    obtain rfl : t = old := Option.some.inj (hc.symm.trans hold)
    exact ht
  cases step_cases h with
  | opens c call runId createdAt pc hc ho =>
    refine hturn c True ⟨_, turn_setTask (hnone c hc) ?_, iff_true_intro ?_⟩ Iff.rfl
    · cases ho with
      | loads call id hcache hcall => rcases hcall with rfl | ⟨decision, rfl⟩ <;> trivial
      | _ => trivial
    · cases ho with
      | loads call id hcache hcall => exact ownRun_working _ (by simp)
      | _ => trivial
  | starts c name inputState key runId createdAt hc hk =>
    exact hturn c True (takesTurn_enterExecute (hnone c hc) name inputState key runId createdAt) Iff.rfl
  | decides c id decision runId createdAt k ref run hc hcache ho =>
    have hw : workflowAt s ref = some run.workflow := by rw [workflowAt, ho, Option.map_some]
    exact hturn c True (takesTurn_decideOn (hnone c hc) hw) Iff.rfl
  | reads c t pc hc hr =>
    have hbound := hb c t hc
    obtain ⟨call, old⟩ := t
    refine hturn c True ⟨_, turn_setTask (hsome c _ hc ?_) ?_, iff_true_intro ?_⟩ Iff.rfl
    · rcases read_cases hr with ⟨_, rfl, _⟩ | ⟨_, rfl, _⟩ | ⟨_, _, rfl, _⟩ <;> simp
    · rcases read_cases hr with ⟨key, rfl, rfl⟩ | ⟨runId, rfl, rfl⟩ | ⟨ref, dumped, rfl, rfl⟩
      · cases call <;> trivial
      · cases call with
        | runWorkflow name inputState key => exact absurd hbound not_false
        | _ => trivial
      · exact hbound
    · rcases read_cases hr with ⟨_, _, rfl⟩ | ⟨_, _, rfl⟩ | ⟨_, _, _, rfl⟩ <;>
        exact ownRun_working _ (by simp)
  | goesOn c t row runId createdAt hc hp =>
    have hended : ∀ ref, t.pc ≠ .returned ref := by rcases hp with hp | hp <;> simp [hp]
    refine hturn c (OwnRow t) (takesTurn_goOn (hsome c t hc hended) hp (hb c t hc) runId createdAt) ?_
    simp [OwnKey, hc]
  | drives c t r ref wf approved point run d hc hp ho hd =>
    obtain ⟨⟨_, hworkflow⟩, _⟩ := awaitReply_same hd
    have hw : workflowAt s ref = some run.workflow := by rw [workflowAt, ho, Option.map_some]
    have hbound := hb c t hc
    refine hturn c True (takesTurn_proceed (hsome c t hc (by simp [hp])) ?_ ?_ wf) Iff.rfl
    · rw [hw, hworkflow]
    · intro name inputState key hcall
      simp only [Task.Bound, hcall, hp, Pc.Bound, hw, Option.some.injEq] at hbound
      exact hworkflow.trans hbound
  | commits c t now ref dumped seen hc hp =>
    have hbound := hb c t hc
    let stored : Registry C D :=
      { s with store := commitWorkflow json s.store seen dumped t.call.key now }
    have hdone : TakesTurn stored (stored.setTask c ⟨t.call, .returned (some ref)⟩) c True := by
      obtain ⟨call, pc⟩ := t
      obtain rfl : pc = .committing ref dumped seen := hp
      refine ⟨_, turn_setTask (hsome c _ hc (by simp)) ?_, iff_true_intro ?_⟩
      · cases call with
        | runWorkflow name inputState key => exact Option.isSome_iff_exists.mpr ⟨name, hbound.1⟩
        | _ => trivial
      · cases call with
        | runWorkflow name inputState key => exact hbound.1
        | _ => trivial
    exact hturn c True (hdone.since rfl fun _ _ hi => hi) Iff.rfl
  | restarts =>
    obtain ⟨hbound, hown⟩ := bound_restart hb
    exact ⟨hbound, hown.trans (and_iff_left trivial).symm⟩

theorem ownRuns_run {s u : Registry C D} {as : List (Action C D)} (hb : Bound s)
    (h : exec (RegistryCalls.step workflows json) s as = some u) :
    OwnRuns u ↔ OwnRuns s ∧ Obeys (RegistryCalls.step workflows json) OwnKey s as := by
  induction as generalizing s with
  | nil =>
    cases h
    exact (and_iff_left trivial).symm
  | cons a as ih =>
    obtain ⟨v, hv, hrest⟩ := Option.bind_eq_some_iff.mp h
    obtain ⟨hbv, hown⟩ := bound_step hb hv
    rw [ih hbv hrest, hown, and_assoc]
    simp [Obeys, hv]

end Runs

end Workbench.RegistryCalls
