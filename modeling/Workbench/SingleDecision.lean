import Workbench.OrderlyCalls

namespace Workbench.RegistryCalls

open KeyedTable RunStore Transitions WorkflowEngine WorkflowRegistry

variable {C D : Type} [DecidableEq C] {workflows : Table WorkflowDef.name}

theorem decideOn_outcome {s : Registry C D} {c : C} {call : Call D} {ref : ℕ} {run : WorkflowRun D}
    (hr : Resumable workflows run) (decision : Decision) :
    (∃ e ∈ (decideOn workflows s c call ref run decision).decided, e.task = c) ∨
      ∃ message, (decideOn workflows s c call ref run decision).tasks c =
        some ⟨call, .raised (.approvalError message)⟩ := by
  have hto := decideOn_cases workflows s c call ref run decision
  generalize RegistryCalls.decideOn workflows s c call ref run decision = t at hto ⊢
  cases hto with
  | unregistered hw =>
    obtain ⟨wf, hget, _⟩ := hr
    simp [hw] at hget
  | refused wf message hw hr => exact .inr ⟨message, by rw [tasks_setTask, if_pos rfl]⟩
  | decided wf d hw hr =>
    let entry : Decided C := ⟨c, run.id, run.approvals.length, decision.decision⟩
    have hf := framed_proceed { s with decided := s.decided ++ [entry] } c call ref wf d
    exact .inl ⟨entry, hf.decided entry (by simp), rfl⟩

def Pc.Answers (runId : String) : Pc D → Prop
  | .loading id => id = runId
  | .loaded row => ∃ r ∈ row, (modelValidate r.payload).isSome
  | .raised e => ∃ message, e = .approvalError message
  | .lost => True
  | _ => False

structure Answering (c : C) (runId : String) (s : Registry C D) : Prop where
  known : ∃ run, StoredAt s.store runId run
  outcome : ∀ d pc, s.tasks c = some ⟨.resumeRun runId d, pc⟩ →
    (∃ e ∈ s.decided, e.task = c) ∨ pc.Answers runId

theorem Answering.framed {s t : Registry C D} {c c' : C} {runId : String} {call : Call D}
    (h : Answering c runId s) (hf : Framed s t c' call)
    (hout : c' = c → ∀ d pc, call = .resumeRun runId d → t.tasks c = some ⟨call, pc⟩ →
      (∃ e ∈ t.decided, e.task = c) ∨ pc.Answers runId) : Answering c runId t where
  known := hf.store ▸ h.known
  outcome d pc hc := by
    by_cases hcc : c' = c
    · subst hcc
      obtain ⟨pc', hpc⟩ := hf.called
      rw [hpc] at hc
      cases hc
      exact hout rfl d _ rfl hpc
    · rw [hf.others c (Ne.symm hcc)] at hc
      refine (h.outcome d pc hc).imp_left ?_
      rintro ⟨e, he, hec⟩
      exact ⟨e, hf.decided e he, hec⟩

section Runs

variable [StateDict D] [DecidableEq D] {json : D → Option D}

theorem Answering.step {s t : Registry C D} {c : C} {runId : String} {a : Action C D}
    (h : Answering c runId s) (ho : Orderly workflows s) (hg : Undisturbed json s a)
    (hs : RegistryCalls.step workflows json s a = some t) : Answering c runId t := by
  cases step_cases hs with
  | opens c' call newId createdAt pc hc hopens =>
    apply h.framed (framed_setTask s c' _)
    rintro rfl d pc' hcall hpc
    rw [tasks_setTask, if_pos rfl] at hpc
    cases hpc
    cases hopens with
    | looks name inputState key hk => cases hcall
    | shows id k ref hcache => cases hcall
    | loads call id hcache hid =>
      rcases hid with rfl | ⟨decision, rfl⟩
      · cases hcall
      · cases hcall
        exact .inr rfl
  | starts c' name inputState key newId createdAt hc hk =>
    apply h.framed (framed_enterExecute workflows s c' name inputState key newId createdAt)
    rintro rfl d pc ⟨⟩
  | decides c' id decision newId createdAt k ref run hc hcache hobject =>
    apply h.framed (framed_decideOn workflows s c' _ ref run decision)
    rintro rfl d pc _ hpc
    have hr := ho.supplied.copies run (.inl (List.mem_of_getElem? hobject))
    refine (decideOn_outcome hr decision).imp_right ?_
    rintro ⟨message, hraised⟩
    rw [hraised] at hpc
    cases hpc
    exact ⟨message, rfl⟩
  | reads c' u pc hc hr =>
    apply h.framed (framed_setTask s c' _)
    rintro rfl d pc' hcall hpc
    rw [tasks_setTask, if_pos rfl] at hpc
    cases hpc
    refine (h.outcome d u.pc (hcall ▸ hc)).imp_right fun hu => ?_
    rcases read_cases hr with ⟨key, hp, rfl⟩ | ⟨id, hp, rfl⟩ | ⟨ref, dumped, hp, rfl⟩
    · rw [hp] at hu
      exact absurd hu id
    · rw [hp] at hu
      obtain rfl : id = runId := hu
      obtain ⟨run, hrun⟩ := h.known
      obtain ⟨row, hrow, hv⟩ := storedAt_iff.mp hrun
      exact ⟨row, hrow, by rw [hv]; rfl⟩
    · rw [hp] at hu
      exact absurd hu id
  | goesOn c' u row newId createdAt hc hp =>
    have hf := framed_goOn workflows s c' newId createdAt u.call row
    apply h.framed hf
    rintro rfl d pc hcall hpc
    rcases h.outcome d u.pc (hcall ▸ hc) with ⟨e, he, hec⟩ | hu
    · exact .inl ⟨e, hf.decided e he, hec⟩
    · rcases hp with hp | hp
      · rw [hp] at hu
        exact absurd hu id
      · rw [hp] at hu
        obtain ⟨r, rfl, hv⟩ := hu
        obtain ⟨run, hrun⟩ := Option.isSome_iff_exists.mp hv
        have hr := ho.supplied.copies run (.inr (.inr ⟨c', u, hc, by rw [hp]; exact hrun⟩))
        have hgo : goOn workflows s c' newId createdAt u.call (some r) = decideOn workflows
            (s.adopt run) c' (.resumeRun runId d) s.objects.length run d := by
          rw [hcall]
          simp [goOn, present, hrun]
        rw [hgo] at hpc ⊢
        refine (decideOn_outcome hr d).imp_right ?_
        rintro ⟨message, hraised⟩
        rw [hraised] at hpc
        obtain ⟨_, rfl⟩ := Task.mk.inj (Option.some.inj hpc)
        exact ⟨message, rfl⟩
  | drives c' u r ref wf approved point run d hc hp hobject hd =>
    have hf := framed_proceed s c' u.call ref wf d
    apply h.framed hf
    rintro rfl decision pc hcall hpc
    rcases h.outcome decision u.pc (hcall ▸ hc) with ⟨e, he, hec⟩ | hu
    · exact .inl ⟨e, hf.decided e he, hec⟩
    · rw [hp] at hu
      exact absurd hu id
  | commits c' u now ref dumped seen hc hp =>
    have hlands := hg u hc
    rw [hp] at hlands
    obtain ⟨run, hrun⟩ := h.known
    obtain ⟨run', hrun', _⟩ := hlands.1.kept hrun json u.call.key now
    refine ⟨⟨run', hrun'⟩, fun d pc hc' => ?_⟩
    rw [tasks_setTask] at hc'
    split_ifs at hc' with hcc
    · subst hcc
      obtain ⟨hcall, rfl⟩ := Task.mk.inj (Option.some.inj hc')
      refine (h.outcome d u.pc (hcall ▸ hc)).imp_right fun hu => ?_
      rw [hp] at hu
      exact absurd hu id
    · exact h.outcome d pc hc'
  | restarts =>
    refine ⟨h.known, fun d pc hc' => ?_⟩
    obtain ⟨old, hc, hlost⟩ := Option.map_eq_some_iff.mp hc'
    obtain ⟨call, old⟩ := old
    have hcall : call = .resumeRun runId d := by
      unfold Task.lose at hlost
      split at hlost <;> exact congrArg Task.call hlost
    subst hcall
    refine (h.outcome d old hc).imp_right fun hu => ?_
    unfold Task.lose at hlost
    split at hlost <;> cases hlost
    · exact hu
    · exact hu
    · trivial

theorem single_decision {store : RunRows D} (hother : ∀ k run, ¬ StoredAt store k run)
    {s t : Registry C D}
    (hs : Reaches (step workflows json) (Undisturbed json) (booted C store) s)
    (ht : Reaches (step workflows json) (Undisturbed json) s t) :
    (t.decided.map Decided.on).Nodup ∧
    ∀ c runId d pc, (∃ run, StoredAt s.store runId run) → s.tasks c = none →
      t.tasks c = some ⟨.resumeRun runId d, pc⟩ → (∃ e ∈ t.decided, e.task = c) ∨
        (∃ id, pc = .loading id) ∨ (∃ row, pc = .loaded row) ∨ pc = .lost ∨
        ∃ message, pc = .raised (.approvalError message) := by
  have horderly := Orderly.reached hother hs
  refine ⟨(Orderly.reached hother (hs.trans ht)).steady.once, fun c runId d pc hknown hc hpc => ?_⟩
  have hanswering : Orderly workflows t ∧ Answering c runId t := by
    refine ht.invariant (I := fun u => Orderly workflows u ∧ Answering c runId u)
      ⟨horderly, hknown, by simp [hc]⟩ fun u a v hu hg hstep => ?_
    exact ⟨hu.1.step hg hstep, hu.2.step hu.1 hg hstep⟩
  refine (hanswering.2.outcome d pc hpc).imp_right fun hu => ?_
  unfold Pc.Answers at hu
  split at hu
  · exact .inl ⟨_, rfl⟩
  · exact .inr (.inl ⟨_, rfl⟩)
  · obtain ⟨message, rfl⟩ := hu
    exact .inr (.inr (.inr ⟨message, rfl⟩))
  · exact .inr (.inr (.inl rfl))
  · exact absurd hu id

end Runs

-- the three callers' numbers are literals of it
local instance threeCallers : NeZero 3 := ⟨by decide⟩

def resumeGrant (c : Fin 3) (decision : ApprovalDecision) : Action (Fin 3) Unit :=
  .begins c (.resumeRun "r" ⟨decision, "alice", none, "now"⟩) "unused" "now"

def restarted : List (Action (Fin 3) Unit) :=
  [.begins 0 (.runWorkflow "grants" () none) "r" "now", .reads 0, .commits 0 0, .restart]

def bothLoad : List (Action (Fin 3) Unit) :=
  [resumeGrant 1 .approved, resumeGrant 2 .rejected, .reads 1, .reads 2, .continues 1 "unused" "now",
    .continues 2 "unused" "now"]

theorem both_loads_decide : ∃ s ∈ exec (step gatedOnly some) (booted (Fin 3) (Table.empty _))
    (restarted ++ bothLoad), ¬ (s.decided.map Decided.on).Nodup ∧
      s.decided.map Decided.decision = [.approved, .rejected] := by
  decide

def loadThenHit : List (Action (Fin 3) Unit) :=
  [resumeGrant 1 .approved, .reads 1, .continues 1 "unused" "now", resumeGrant 2 .rejected]

theorem single_decision_run : ∃ s ∈ exec (step gatedOnly some) (booted (Fin 3) (Table.empty _))
    restarted, ∃ t ∈ exec (step gatedOnly some) s loadThenHit,
      (t.decided.map Decided.on).Nodup ∧
      ∀ d pc, t.tasks 2 = some ⟨.resumeRun "r" d, pc⟩ → (∃ e ∈ t.decided, e.task = 2) ∨
        (∃ id, pc = .loading id) ∨ (∃ row, pc = .loaded row) ∨ pc = .lost ∨
        ∃ message, pc = .raised (.approvalError message) := by
  have hrun : ∃ s ∈ exec (step gatedOnly some) (booted (Fin 3) (Table.empty _)) restarted,
      (storedRun s.store "r").isSome ∧ (s.tasks 2).isNone ∧
      (exec (step gatedOnly some) s loadThenHit).isSome ∧
      Obeys (step gatedOnly some) (Undisturbed some) s loadThenHit := by decide
  obtain ⟨s, hs, hknown, hnone, hexec, hobeys⟩ := hrun
  obtain ⟨t, ht⟩ := Option.isSome_iff_exists.mp hexec
  have hother : ∀ k (run : WorkflowRun Unit), ¬ StoredAt (Table.empty _) k run := by
    rintro k run ⟨⟩
  obtain ⟨honce, hrest⟩ := single_decision hother (reaches_of_exec hs (by decide))
    (reaches_of_exec ht hobeys)
  exact ⟨s, hs, t, ht, honce, fun d pc => hrest 2 "r" d pc (Option.isSome_iff_exists.mp hknown)
    (Option.isNone_iff_eq_none.mp hnone)⟩

end Workbench.RegistryCalls
