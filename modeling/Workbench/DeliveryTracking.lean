import Workbench.HeldJobs
import Workbench.SettledRuns
import Workbench.WorkerSystem

namespace Workbench.WorkerSystem

open RunStore KeyedTable Transitions JobQueue RunLease

variable {W D R Raw : Type} [DecidableEq W] [DecidableEq D] [DecidableEq R] [DecidableEq Raw]
  {codec : JobCodec (AutonomousPayload R) Raw} {ttl : ℤ} {s t : State W D R Raw}

def Known (s : State W D R Raw) (k : String) : Prop := (s.lease.store.get k).isSome

structure NamesKnown (codec : JobCodec (AutonomousPayload R) Raw) (s : State W D R Raw) : Prop where
  queued : Names codec s.queue (Known s)
  posted : ∀ job ∈ s.outbox, Known s job.runId
  listed : ∀ w rows, s.startup w = .reconciling rows → ∀ row ∈ rows, Known s row.id

theorem Known.step {a : Action W D R} {k : String} (hk : Known s k)
    (h : step codec ttl s a = some t) : Known t k := by
  rcases step_lease h with heq | ⟨b, hb⟩
  · rw [Known, heq]
    exact hk
  · exact known_of_step hb hk

omit [DecidableEq W] [DecidableEq D] [DecidableEq R] [DecidableEq Raw] in
theorem reconcilable_known {row : RunRow R} (h : row ∈ reconcilable s.lease.store) :
    Known s row.id := by
  have hrow : row ∈ listNonterminalRuns s.lease.store nonterminalLimit := List.mem_of_mem_filter h
  have hsorted := List.mem_of_mem_take hrow
  rw [List.mem_insertionSort] at hsorted
  rw [Known, Table.get_of_mem (List.mem_of_mem_filter hsorted)]
  rfl

theorem newJob_runId {P : Type} {kind runId : String} {payload : P} {job : Job P}
    (h : newJob kind runId payload = some job) : job.runId = runId := by
  unfold newJob at h
  split_ifs at h
  cases h
  rfl

theorem NamesKnown.step (h : NamesKnown codec s) {a : Action W D R}
    (hstep : step codec ttl s a = some t) : NamesKnown codec t := by
  have hkeep : ∀ k, Known s k → Known t k := fun k hk => hk.step hstep
  have hqueued : Names codec s.queue (Known t) := fun raw job hr hv =>
    hkeep _ (h.queued raw job hr hv)
  have hposted : ∀ job ∈ s.outbox, Known t job.runId := fun job hj => hkeep _ (h.posted job hj)
  have hlisted : ∀ w rows, s.startup w = .reconciling rows → ∀ row ∈ rows, Known t row.id :=
    fun w rows hs row hr => hkeep _ (h.listed w rows hs row hr)
  have hupdate : ∀ w phase, (∀ rows, phase = .reconciling rows → ∀ row ∈ rows, Known t row.id) →
      ∀ v rows, Function.update s.startup w phase v = .reconciling rows →
        ∀ row ∈ rows, Known t row.id := by
    intro w phase hphase v rows hv
    rw [Function.update_apply] at hv
    split_ifs at hv
    · exact hphase rows hv
    · exact hlisted v rows hv
  cases step_cases hstep with
  | submit runId goal key now store record lease hc hl =>
    refine ⟨hqueued, fun job hj => ?_, hlisted⟩
    rcases List.mem_append.mp hj with hnew | hold
    · unfold submitted at hnew
      split_ifs at hnew with hid
      · obtain ⟨record', hc', _⟩ := (step_submit hl).2
        obtain ⟨_, hrecord⟩ := Prod.mk.inj (Option.some.inj (hc.symm.trans hc'))
        rw [newJob_runId (Option.mem_toList.mp hnew), ← hid, hrecord]
        exact createRun_get hc'
      · simp at hnew
    · exact hposted job hold
  | push job queue hj hq =>
    refine ⟨Names.step hqueued hq ?_, fun job hj => hposted job (List.mem_of_mem_erase hj), hlisted⟩
    rintro _ ⟨⟩
    exact hposted job hj
  | start w queue hq => exact ⟨Names.step hqueued hq (by simp), hposted, hupdate w _ (by simp)⟩
  | reclaimPop w queue hq => exact ⟨Names.step hqueued hq (by simp), hposted, hlisted⟩
  | reclaimPush w queue hq => exact ⟨Names.step hqueued hq (by simp), hposted, hlisted⟩
  | reconcileRead w =>
    refine ⟨hqueued, hposted, hupdate w _ ?_⟩
    rintro rows ⟨⟩ row hr
    exact reconcilable_known hr
  | reconciled w => exact ⟨hqueued, hposted, hupdate w _ (by simp)⟩
  | reconcileEnqueue w row rows job queue hs hj hq =>
    refine ⟨Names.step hqueued hq ?_, hposted, hupdate w _ ?_⟩
    · rintro _ ⟨⟩
      rw [newJob_runId hj]
      exact hlisted w _ hs row List.mem_cons_self
    · rintro _ ⟨⟩ r hr
      exact hlisted w _ hs r (List.mem_cons_of_mem _ hr)
  | pop w d queue hq => exact ⟨Names.step hqueued hq (by simp), hposted, hlisted⟩
  | ack d queue hd hq => exact ⟨Names.step hqueued hq (by simp), hposted, hlisted⟩
  | crash w queue lease hq hl =>
    exact ⟨Names.step hqueued hq (by simp), hposted, hupdate w _ (by simp)⟩
  | dispatch | noHandler | touch | finish | release | sweep | tick =>
    exact ⟨hqueued, hposted, hlisted⟩

structure Tracked (codec : JobCodec (AutonomousPayload R) Raw) (s : State W D R Raw) : Prop where
  serves : ∀ d e, s.lease.executing d = some e →
    ∃ job, received codec s d = some job ∧ job.kind = autonomousKind ∧ job.runId = e.runId
  idle : ∀ d, s.returned d = true → s.lease.executing d = none

omit [DecidableEq R] in
theorem received_of_queue {b : JobQueue.Action W D (AutonomousPayload R)} {d : D} {job : RunJob R}
    (hq : JobQueue.step codec s.queue b = some t.queue) (hd : received codec s d = some job)
    (hack : b ≠ .ack d) (hcrash : ∀ w, b = .crash w → onWorker s w d = false) :
    received codec t d = some job := by
  obtain ⟨p, hp, hv⟩ := Option.bind_eq_some_iff.mp hd
  rcases deliveries_of_step hq hp with hkeep | he | he
  · exact Option.bind_eq_some_iff.mpr ⟨p, hkeep, hv⟩
  · exact absurd he hack
  · have hon := hcrash p.1 he
    simp [onWorker, hp] at hon

omit [DecidableEq R] in
theorem Tracked.queue_step (h : Tracked codec s) {b : JobQueue.Action W D (AutonomousPayload R)}
    (hq : JobQueue.step codec s.queue b = some t.queue)
    (hexec : ∀ d e, t.lease.executing d = some e → s.lease.executing d = some e)
    (hack : ∀ d, b = .ack d → s.lease.executing d = none)
    (hcrash : ∀ w, b = .crash w → ∀ d e, t.lease.executing d = some e → onWorker s w d = false)
    (hreturned : ∀ d, t.returned d = true → s.returned d = true) : Tracked codec t where
  serves d e he := by
    obtain ⟨job, hd, hjob⟩ := h.serves d e (hexec d e he)
    refine ⟨job, received_of_queue hq hd ?_ fun w hw => hcrash w hw d e he, hjob⟩
    intro hb
    have hnone := hack d hb
    simp [hexec d e he] at hnone
  idle d hd := by
    have hnone := h.idle d (hreturned d hd)
    rw [Option.eq_none_iff_forall_not_mem] at hnone ⊢
    exact fun e he => hnone e (hexec d e he)

omit [DecidableEq W] [DecidableEq R] [DecidableEq Raw] in
theorem Tracked.lease_step (h : Tracked codec s) {b : RunLease.Action D R}
    (hl : RunLease.step ttl s.lease b = some t.lease) (hq : t.queue = s.queue)
    (hclaim : ∀ d k goal now, b = .claim d k goal now →
      ∃ job, received codec s d = some job ∧ job.kind = autonomousKind ∧ job.runId = k)
    (hreturned : ∀ d, t.returned d = true → t.lease.executing d = none) : Tracked codec t where
  serves d e he := by
    simp only [received, hq]
    rcases executing_of_step hl he with ⟨e', he', hrun⟩ | ⟨goal, now, hb⟩
    · obtain ⟨job, hd, hk, hjob⟩ := h.serves d e' he'
      exact ⟨job, hd, hk, hjob.trans hrun⟩
    · exact hclaim d e.runId goal now hb
  idle := hreturned

theorem Tracked.step (h : Tracked codec s) {a : Action W D R}
    (hstep : step codec ttl s a = some t) : Tracked codec t := by
  cases step_cases hstep with
  | submit runId goal key now store record lease hc hl =>
    exact h.lease_step hl rfl (by simp) fun d hd => idle_of_step hl (h.idle d hd) (by simp)
  | push job queue hj hq =>
    exact h.queue_step hq (fun _ _ he => he) (by simp) (by simp) fun _ hd => hd
  | start w queue hq => exact h.queue_step hq (fun _ _ he => he) (by simp) (by simp) fun _ hd => hd
  | reclaimPop w queue hq =>
    exact h.queue_step hq (fun _ _ he => he) (by simp) (by simp) fun _ hd => hd
  | reclaimPush w queue hq =>
    exact h.queue_step hq (fun _ _ he => he) (by simp) (by simp) fun _ hd => hd
  | reconcileRead w => exact ⟨h.serves, h.idle⟩
  | reconciled w => exact ⟨h.serves, h.idle⟩
  | reconcileEnqueue w row rows job queue hs hj hq =>
    exact h.queue_step hq (fun _ _ he => he) (by simp) (by simp) fun _ hd => hd
  | pop w d queue hq =>
    refine h.queue_step hq (fun _ _ he => he) (by simp) (by simp) fun d' hd => ?_
    simp only [Function.update_apply] at hd
    split_ifs at hd
    exact hd
  | dispatch d now job lease hd hk hl =>
    refine h.lease_step hl rfl ?_ fun d' hd' => ?_
    · rintro _ _ _ _ ⟨⟩
      exact ⟨job, hd, hk, rfl⟩
    · simp only [Function.update_apply] at hd'
      split_ifs at hd' with hne
      · subst hne
        exact Option.isNone_iff_eq_none.mp hd'
      · exact idle_of_step hl (h.idle d' hd') (by simp [Ne.symm hne])
  | noHandler d now job hd hk =>
    refine ⟨h.serves, fun d' hd' => ?_⟩
    simp only [Function.update_apply] at hd'
    split_ifs at hd' with hne
    · subst hne
      rw [Option.eq_none_iff_forall_not_mem]
      intro e he
      obtain ⟨job', hjob', hk', _⟩ := h.serves d' e he
      obtain rfl : job = job' := Option.some.inj (hd.symm.trans hjob')
      exact hk hk'
    · exact h.idle d' hd'
  | touch d now lease hl =>
    exact h.lease_step hl rfl (by simp) fun d hd => idle_of_step hl (h.idle d hd) (by simp)
  | finish d outcome now lease hl =>
    exact h.lease_step hl rfl (by simp) fun d hd => idle_of_step hl (h.idle d hd) (by simp)
  | release d lease hl =>
    refine h.lease_step hl rfl (by simp) fun d' hd' => ?_
    obtain ⟨_, rfl⟩ := step_release hl
    simp only [Function.update_apply] at hd'
    split_ifs at hd' with hne
    · exact hne ▸ Function.update_self ..
    · exact (Function.update_of_ne hne _ _).trans (h.idle d' hd')
  | ack d queue hd hq =>
    refine h.queue_step hq (fun _ _ he => he) ?_ (by simp) fun _ hd => hd
    rintro _ ⟨⟩
    rcases hd with hreturned | hmalformed
    · exact h.idle d hreturned
    · rw [Option.eq_none_iff_forall_not_mem]
      intro e he
      obtain ⟨job, hjob, _⟩ := h.serves _ e he
      simp [hmalformed] at hjob
  | crash w queue lease hq hl =>
    obtain rfl := step_crash hl
    refine h.queue_step hq ?_ (by simp) ?_ fun _ hd => hd
    · intro d e he
      simp only at he
      split_ifs at he
      exact he
    · rintro _ ⟨⟩ d e he
      simp only at he
      split_ifs at he with hon
      exact Bool.eq_false_iff.mpr hon
  | sweep now lease hl =>
    exact h.lease_step hl rfl (by simp) fun d hd => idle_of_step hl (h.idle d hd) (by simp)
  | tick now lease hl =>
    exact h.lease_step hl rfl (by simp) fun d hd => idle_of_step hl (h.idle d hd) (by simp)

end Workbench.WorkerSystem
