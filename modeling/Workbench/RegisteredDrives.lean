import Workbench.SuspensionDecisions

namespace Workbench.RegistryCalls

open KeyedTable RunStore WorkflowEngine WorkflowRegistry

variable {C D : Type} {wf : WorkflowDef}

section Await

variable [StateDict D]

theorem awaitReply_cases {d u : Drive D} {r : Reply D} (h : awaitReply wf d r = some u) :
    answer wf d r = some u ∨ ∃ t, answer wf d r = some t ∧ answer wf t r = some u := by
  obtain ⟨t, ht, h⟩ := Option.bind_eq_some_iff.mp h
  split at h
  · exact .inr ⟨t, ht, h⟩
  · cases h
    exact .inl ht

theorem awaitReply_same {d u : Drive D} {r : Reply D} (h : awaitReply wf d r = some u) :
    SameRun d.run u.run ∧ u.run.approvals = d.run.approvals := by
  rcases awaitReply_cases h with h | ⟨t, ht, hu⟩
  · exact ⟨sameRun_answer h, approvals_answer h⟩
  · obtain ⟨hid, hworkflow⟩ := sameRun_answer ht
    obtain ⟨hid', hworkflow'⟩ := sameRun_answer hu
    exact ⟨⟨hid'.trans hid, hworkflow'.trans hworkflow⟩,
      (approvals_answer hu).trans (approvals_answer ht)⟩

theorem sound_awaitReply {d u : Drive D} {r : Reply D} (h : awaitReply wf d r = some u)
    (hs : Sound wf d) : Sound wf u := by
  rcases awaitReply_cases h with h | ⟨t, ht, hu⟩
  · exact hs.answer h
  · exact (hs.answer ht).answer hu

def ReplyAnswers (wf : WorkflowDef) (d : Drive D) (r : Reply D) : Prop :=
  CallAnswers wf d r ∧ ∀ t ∈ answer wf d r, CallAnswers wf t r

theorem ReplyAnswers.lives {d u : Drive D} {r : Reply D} (h : ReplyAnswers wf d r)
    (hs : Sound wf d) (hu : awaitReply wf d r = some u) : ¬ u.point.Raised := by
  rcases awaitReply_cases hu with hu | ⟨t, ht, hu⟩
  · exact fun hr => (raised_answer hs hu).mp hr h.1
  · exact fun hr => (raised_answer (hs.answer ht) hu).mp hr (h.2 t ht)

end Await

variable [DecidableEq C] {workflows : Table WorkflowDef.name}

structure Supplied (workflows : Table WorkflowDef.name) (s : Registry C D) : Prop where
  copies : ∀ run, Copy s run → Resumable workflows run
  driven : ∀ c t ref wf approved point run, s.tasks c = some t →
    t.pc = .driving ref wf approved point → s.objects[ref]? = some run →
    workflows.get run.workflow = some wf ∧ Sound wf ⟨approved, run, point⟩

theorem Supplied.change {s : Registry C D} (h : Supplied workflows s) (c : C) {t : Task D}
    {objects : List (WorkflowRun D)} {cache : RefCache}
    (hobjects : ∀ run ∈ objects, run ∈ s.objects ∨ Resumable workflows run)
    (hcarries : ∀ run, t.pc.Carries run → Resumable workflows run)
    (hdrives : ∀ ref wf approved point run, t.pc = .driving ref wf approved point →
      objects[ref]? = some run → workflows.get run.workflow = some wf ∧ Sound wf ⟨approved, run, point⟩)
    (hothers : ∀ c' t' ref wf approved point, c' ≠ c → s.tasks c' = some t' →
      t'.pc = .driving ref wf approved point → objects[ref]? = s.objects[ref]?) :
    Supplied workflows ({ s with objects, cache }.setTask c t) where
  copies run hr := by
    rcases hr with ho | hs | ⟨c', t', hc, hr⟩
    · exact (hobjects run ho).elim (fun ho => h.copies run (.inl ho)) id
    · exact h.copies run (.inr (.inl hs))
    · rw [tasks_setTask] at hc
      split_ifs at hc
      · cases hc
        exact hcarries run hr
      · exact h.copies run (.inr (.inr ⟨c', t', hc, hr⟩))
  driven c' t' ref wf approved point run hc hp ho := by
    rw [tasks_setTask] at hc
    split_ifs at hc with hcc
    · cases hc
      exact hdrives ref wf approved point run hp ho
    · exact h.driven c' t' ref wf approved point run hc hp
        ((hothers c' t' ref wf approved point hcc hc hp).symm.trans ho)

theorem Supplied.setTask {s : Registry C D} (h : Supplied workflows s) (c : C) {t : Task D}
    (hcarries : ∀ run, t.pc.Carries run → Snapshot s run)
    (hdrives : ∀ ref wf approved point, t.pc ≠ .driving ref wf approved point) :
    Supplied workflows (s.setTask c t) :=
  h.change c (fun _ => .inl) (fun run hr => h.copies run (.inr (hcarries run hr)))
    (fun ref wf approved point _ hp => absurd hp (hdrives ref wf approved point))
    fun _ _ _ _ _ _ _ _ _ => rfl

theorem Supplied.idle {s : Registry C D} (h : Supplied workflows s) (c : C) {t : Task D}
    (hi : t.pc.Idle) : Supplied workflows (s.setTask c t) := by
  apply h.setTask c (fun run hr => absurd hr (hi.carries run))
  intro ref wf approved point hp
  rw [hp] at hi
  exact hi

omit [DecidableEq C] in
theorem Supplied.object {s : Registry C D} (h : Supplied workflows s) (hs : Steady s)
    {run : WorkflowRun D} (hr : Resumable workflows run) (cache : RefCache)
    (executed : List (Executed C)) :
    Supplied workflows { s with objects := s.objects ++ [run], cache, executed } where
  copies other ho := by
    rcases ho with ho | ho
    · rcases List.mem_append.mp ho with ho | ho
      · exact h.copies other (.inl ho)
      · exact List.mem_singleton.mp ho ▸ hr
    · exact h.copies other (.inr ho)
  driven c t ref wf approved point other hc hp ho := by
    obtain ⟨old, hd⟩ := hs.driven c t ref wf approved point hc hp
    obtain rfl : old = other := Option.some.inj ((object_new.mpr (.inl hd.object)).symm.trans ho)
    exact h.driven c t ref wf approved point old hc hp hd.object

theorem Supplied.proceed {s : Registry C D} (h : Supplied workflows s) {c : C} {ref : ℕ}
    (halone : ∀ c' t wf approved point, s.tasks c' = some t →
      t.pc = .driving ref wf approved point → c' = c) {d : Drive D}
    (hr : Resumable workflows d.run)
    (hd : ¬ d.point.Ended → workflows.get d.run.workflow = some wf ∧ Sound wf d) (call : Call D) :
    Supplied workflows (proceed s c call ref wf d) := by
  have hobjects : ∀ run ∈ s.objects.set ref d.run, run ∈ s.objects ∨ Resumable workflows run := by
    intro run ho
    rcases List.mem_or_eq_of_mem_set ho with ho | rfl
    · exact .inl ho
    · exact .inr hr
  have hothers : ∀ c' t' ref' wf' approved point, c' ≠ c → s.tasks c' = some t' →
      t'.pc = .driving ref' wf' approved point → (s.objects.set ref d.run)[ref']? = s.objects[ref']? := by
    intro c' t' ref' wf' approved point hne hc hp
    refine List.getElem?_set_ne ?_
    rintro rfl
    exact hne (halone c' t' wf' approved point hc hp)
  have hto := proceed_cases s c call ref wf d
  generalize RegistryCalls.proceed s c call ref wf d = t at hto ⊢
  cases hto with
  | ended hp => exact h.change c hobjects (by rintro run ⟨⟩; exact hr) (by simp) hothers
  | raised exc hp => exact h.change c hobjects (by simp [Pc.carried]) (by simp) hothers
  | awaits hp =>
    refine h.change c hobjects (by simp [Pc.carried]) ?_ hothers
    intro ref' wf' approved point run hpc ho
    cases hpc
    rw [List.getElem?_set, if_pos rfl] at ho
    split_ifs at ho
    cases ho
    exact hd hp

end Workbench.RegistryCalls
