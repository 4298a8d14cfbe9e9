import Workbench.DeliveryTracking

namespace Workbench.WorkerSystem

open RunStore KeyedTable Transitions JobQueue RunLease

variable {W D R Raw : Type} [DecidableEq W] [DecidableEq D] [DecidableEq R] [DecidableEq Raw]
  {codec : JobCodec (AutonomousPayload R) Raw} {ttl : ℤ} {s t : State W D R Raw}

/-- A delivery is refused for a live executor or after its lease, and no crash takes the last
executor of a run whose refused delivery another worker has yet to ack. -/
def LeaseRespected (codec : JobCodec (AutonomousPayload R) Raw) (ttl : ℤ) (s : State W D R Raw) :
    Action W D R → Prop
  | .dispatch d now => ∀ job ∈ received codec s d, job.kind = autonomousKind →
      ∀ row ∈ s.lease.store.get job.runId, row.status = .running →
        row.updatedAt < now - seconds ttl ∨ ∃ d', Executes s.lease d' job.runId
  | .crash w => ∀ d, s.returned d = true → onWorker s w d = false →
      ∀ job ∈ received codec s d, job.kind = autonomousKind →
        Finished s.lease job.runId ∨ ∃ d', onWorker s w d' = false ∧ Executes s.lease d' job.runId
  | _ => True

instance [Fintype D] (s : State W D R Raw) (a : Action W D R) :
    Decidable (LeaseRespected codec ttl s a) := by
  cases a <;> unfold LeaseRespected <;> infer_instance

def ReturnsSettled (codec : JobCodec (AutonomousPayload R) Raw) (s : State W D R Raw) : Prop :=
  ∀ d job, s.returned d = true → received codec s d = some job → job.kind = autonomousKind →
    Settled s.lease job.runId

omit [DecidableEq R] in
theorem ReturnsSettled.queue_step (h : ReturnsSettled codec s)
    {b : JobQueue.Action W D (AutonomousPayload R)}
    (hq : JobQueue.step codec s.queue b = some t.queue) (hl : t.lease = s.lease)
    (hpop : ∀ w d, b = .pop w d → t.returned d = false)
    (hreturned : ∀ d, t.returned d = true → s.returned d = true) : ReturnsSettled codec t := by
  intro d job hd hjob hk
  rw [hl]
  obtain ⟨p, hp, hv⟩ := Option.bind_eq_some_iff.mp hjob
  rcases delivered_of_step hq hp with hold | ⟨w, hb⟩
  · exact h d job (hreturned d hd) (Option.bind_eq_some_iff.mpr ⟨p, hold, hv⟩) hk
  · simp [hpop w d hb] at hd

omit [DecidableEq W] [DecidableEq R] [DecidableEq Raw] in
theorem ReturnsSettled.lease_step (h : ReturnsSettled codec s) {b : RunLease.Action D R}
    (hl : RunLease.step ttl s.lease b = some t.lease) (hb : ∀ dead, b ≠ .crash dead)
    (hq : t.queue = s.queue)
    (hreturned : ∀ d job, t.returned d = true → received codec s d = some job →
      job.kind = autonomousKind → s.returned d = true ∨ Settled t.lease job.runId) :
    ReturnsSettled codec t := by
  intro d job hd hjob hk
  have hjob : received codec s d = some job := by
    rw [received, hq] at hjob
    exact hjob
  rcases hreturned d job hd hjob hk with hold | hnew
  · exact (h d job hold hjob hk).step hl hb
  · exact hnew

omit [DecidableEq R] [DecidableEq Raw] in
theorem settled_of_refused (hn : NamesKnown codec s) {d : D} {now : ℤ} {job : RunJob R}
    (hg : LeaseRespected codec ttl s (.dispatch d now)) (hd : received codec s d = some job)
    (hk : job.kind = autonomousKind) {lease : RunLease.State D R}
    (hl : RunLease.step ttl s.lease (.claim d job.runId job.payload.goal now) = some lease)
    (hrefused : lease.executing d = none) : Settled lease job.runId := by
  obtain ⟨p, hp, hv⟩ := Option.bind_eq_some_iff.mp hd
  have hknown : Known s job.runId :=
    hn.queued p.2 job (.inr (.inr (.inr ⟨d, p.1, hp⟩))) hv
  obtain ⟨row, hr⟩ := Option.isSome_iff_exists.mp hknown
  have hsettled : Settled s.lease job.runId := by
    rcases lost_claim hl hr hrefused with hterm | ⟨hrun, hfresh⟩
    · exact .inl ⟨row, hr, hterm⟩
    · rcases hg job hd hk row hr hrun with hexpired | hlive
      · exact absurd hexpired hfresh
      · exact .inr hlive
  exact hsettled.step hl (by simp)

theorem ReturnsSettled.step (h : ReturnsSettled codec s) (hn : NamesKnown codec s)
    (ht : Tracked codec s) (hc : ClosesFinished s.lease) {a : Action W D R}
    (hg : LeaseRespected codec ttl s a) (hstep : step codec ttl s a = some t) :
    ReturnsSettled codec t := by
  cases step_cases hstep with
  | submit runId goal key now store record lease hcr hl =>
    exact h.lease_step hl (by simp) rfl fun _ _ hd _ _ => .inl hd
  | push job queue hj hq => exact h.queue_step hq rfl (by simp) fun _ hd => hd
  | start w queue hq => exact h.queue_step hq rfl (by simp) fun _ hd => hd
  | reclaimPop w queue hq => exact h.queue_step hq rfl (by simp) fun _ hd => hd
  | reclaimPush w queue hq => exact h.queue_step hq rfl (by simp) fun _ hd => hd
  | reconcileRead w => exact h
  | reconciled w => exact h
  | reconcileEnqueue w row rows job queue hs hj hq =>
    exact h.queue_step hq rfl (by simp) fun _ hd => hd
  | pop w d queue hq =>
    refine h.queue_step hq rfl ?_ fun d' hd => ?_
    · rintro _ _ ⟨⟩
      exact Function.update_self ..
    · simp only [Function.update_apply] at hd
      split_ifs at hd
      exact hd
  | dispatch d now job lease hd hk hl =>
    refine h.lease_step hl (by simp) rfl fun d' job' hd' hjob' _ => ?_
    simp only [Function.update_apply] at hd'
    split_ifs at hd' with hne
    · subst hne
      obtain rfl : job = job' := Option.some.inj (hd.symm.trans hjob')
      exact .inr (settled_of_refused hn hg hd hk hl (Option.isNone_iff_eq_none.mp hd'))
    · exact .inl hd'
  | noHandler d now job hd hk =>
    intro d' job' hd' hjob' hk'
    simp only [Function.update_apply] at hd'
    split_ifs at hd' with hne
    · subst hne
      obtain rfl : job = job' := Option.some.inj (hd.symm.trans hjob')
      exact absurd hk' hk
    · exact h d' job' hd' hjob' hk'
  | touch d now lease hl => exact h.lease_step hl (by simp) rfl fun _ _ hd _ _ => .inl hd
  | finish d outcome now lease hl => exact h.lease_step hl (by simp) rfl fun _ _ hd _ _ => .inl hd
  | release d lease hl =>
    refine h.lease_step hl (by simp) rfl fun d' job hd' hjob _ => ?_
    simp only [Function.update_apply] at hd'
    split_ifs at hd' with hne
    · subst hne
      obtain ⟨⟨e, he, hclosed⟩, _⟩ := step_release hl
      obtain ⟨job', hjob', _, hrun⟩ := ht.serves d' e he
      obtain rfl : job = job' := Option.some.inj (hjob.symm.trans hjob')
      have hfinished : Finished s.lease job.runId := hrun ▸ hc d' e he hclosed
      exact .inr (.inl (hfinished.step hl))
    · exact .inl hd'
  | ack d queue hd hq => exact h.queue_step hq rfl (by simp) fun _ hd => hd
  | crash w queue lease hq hl =>
    intro d job hd hjob hk
    obtain ⟨p, hp, hv⟩ := Option.bind_eq_some_iff.mp hjob
    have hkept : s.queue.deliveries d = some p ∧ onWorker s w d = false := by
      cases JobQueue.step_cases hq
      obtain ⟨hp, hne⟩ := Option.filter_eq_some_iff.mp hp
      exact ⟨hp, by simpa [onWorker, hp] using hne⟩
    have hjob : received codec s d = some job := Option.bind_eq_some_iff.mpr ⟨p, hkept.1, hv⟩
    rcases hg d hd hkept.2 job hjob hk with hfinished | ⟨d', hon, hexec⟩
    · exact .inl (hfinished.step hl)
    · refine hexec.step hl ?_
      rintro _ ⟨⟩
      exact hon
  | sweep now lease hl => exact h.lease_step hl (by simp) rfl fun _ _ hd _ _ => .inl hd
  | tick now lease hl => exact h.lease_step hl (by simp) rfl fun _ _ hd _ _ => .inl hd

structure Deployed (s : State W D R Raw) : Prop where
  queue : s.queue = idle W D (AutonomousPayload R) Raw
  executing : ∀ d, s.lease.executing d = none
  outbox : s.outbox = []
  startup : ∀ w, s.startup w = .booting
  returned : ∀ d, s.returned d = false

structure Tended (codec : JobCodec (AutonomousPayload R) Raw) (s : State W D R Raw) : Prop where
  names : NamesKnown codec s
  tracked : Tracked codec s
  closes : ClosesFinished s.lease
  returns : ReturnsSettled codec s

omit [DecidableEq W] [DecidableEq D] [DecidableEq R] [DecidableEq Raw] in
theorem Tended.initial (h : Deployed s) : Tended codec s where
  names := by
    refine ⟨fun raw job hr _ => ?_, by simp [h.outbox], fun w rows hs => by simp [h.startup w] at hs⟩
    simp [Held, h.queue, idle] at hr
  tracked := ⟨fun d e he => by simp [h.executing d] at he, fun d _ => h.executing d⟩
  closes d e he := by simp [h.executing d] at he
  returns d job hd := by simp [h.returned d] at hd

theorem ClosesFinished.system_step (h : ClosesFinished s.lease) {a : Action W D R}
    (hstep : step codec ttl s a = some t) : ClosesFinished t.lease := by
  rcases step_lease hstep with heq | ⟨b, hb⟩
  · exact heq ▸ h
  · exact h.step hb

theorem Tended.step (h : Tended codec s) {a : Action W D R} (hg : LeaseRespected codec ttl s a)
    (hstep : step codec ttl s a = some t) : Tended codec t where
  names := h.names.step hstep
  tracked := h.tracked.step hstep
  closes := ClosesFinished.system_step h.closes hstep
  returns := h.returns.step h.names h.tracked h.closes hg hstep

def Orphaned (codec : JobCodec (AutonomousPayload R) Raw) (s : State W D R Raw) (k : String) : Prop :=
  (∃ row ∈ s.lease.store.get k, ¬ row.status.Terminal) ∧ (∀ d, ¬ Executes s.lease d k) ∧
    ∀ raw ∈ s.queue.redis.jobs ++ s.queue.redis.processing, ∀ job ∈ codec.validate raw, job.runId ≠ k

instance [Fintype D] (s : State W D R Raw) (k : String) : Decidable (Orphaned codec s k) :=
  inferInstanceAs (Decidable (_ ∧ _ ∧ ∀ raw ∈ _, ∀ job ∈ codec.validate raw, job.runId ≠ k))

theorem orphaned_of_ack {d : D} {job : RunJob R} {k : String} (hjob : received codec s d = some job)
    (hs : Settled s.lease job.runId) (hstep : step codec ttl s (.ack d) = some t)
    (ht : Orphaned codec t k) : Orphaned codec s k := by
  obtain ⟨⟨row, hr, hopen⟩, hexec, hnames⟩ := ht
  cases step_cases hstep with
  | ack _ queue hd hq =>
    refine ⟨⟨row, hr, hopen⟩, hexec, fun raw hraw job' hv => ?_⟩
    obtain ⟨p, hp, hv'⟩ := Option.bind_eq_some_iff.mp hjob
    cases JobQueue.step_cases hq with
    | ack _ w acked hd' =>
      obtain rfl : p = (w, acked) := Option.some.inj (hp.symm.trans hd')
      by_cases heq : raw = acked
      · subst heq
        obtain rfl : job = job' := Option.some.inj (hv'.symm.trans hv)
        rintro rfl
        rcases hs with ⟨row', hr', hterm⟩ | ⟨d', hlive⟩
        · obtain rfl : row = row' := Option.some.inj (hr.symm.trans hr')
          exact hopen hterm
        · exact hexec d' hlive
      · refine hnames raw ?_ job' hv
        rcases List.mem_append.mp hraw with hj | hproc
        · exact List.mem_append_left _ hj
        · exact List.mem_append_right _ ((List.mem_erase_of_ne heq).mpr hproc)

/-- An ack after the autonomous handler finds its run settled and orphans no run. -/
def AckSafe (codec : JobCodec (AutonomousPayload R) Raw) (ttl : ℤ) (s : State W D R Raw) (d : D) :
    Prop :=
  ∀ job t, received codec s d = some job → job.kind = autonomousKind →
    step codec ttl s (.ack d) = some t →
      Settled s.lease job.runId ∧ ∀ k, Orphaned codec t k → Orphaned codec s k

theorem ack_safe {s₀ : State W D R Raw} (h₀ : Deployed s₀)
    (h : Reaches (step codec ttl) (LeaseRespected codec ttl) s₀ s) (d : D) :
    AckSafe codec ttl s d := by
  intro job t hjob hk hstep
  have htended : Tended codec s :=
    h.invariant (.initial h₀) fun _ _ _ hi hg hs => hi.step hg hs
  have hsettled : Settled s.lease job.runId := by
    cases step_cases hstep with
    | ack _ queue hd hq =>
      rcases hd with hreturned | hmalformed
      · exact htended.returns d job hreturned hjob hk
      · simp [hmalformed] at hjob
  exact ⟨hsettled, fun k hk' => orphaned_of_ack hjob hsettled hstep hk'⟩

def deployed (W D R Raw : Type) : State W D R Raw :=
  ⟨idle W D (AutonomousPayload R) Raw, ⟨0, Table.empty _, fun _ => none⟩, [], fun _ => .booting,
    fun _ => false⟩

omit [DecidableEq W] [DecidableEq D] [DecidableEq R] [DecidableEq Raw] in
theorem deployed_deployed : Deployed (deployed W D R Raw) :=
  ⟨rfl, fun _ => rfl, rfl, fun _ => rfl, fun _ => rfl⟩

theorem runIdPattern_r : runIdPattern "r" = true := by decide

def runJob : RunJob Unit := ⟨autonomousKind, "r", ⟨"g", none⟩, 0, by decide, runIdPattern_r⟩

/-- The worker crashes in the handler and restarts at time `now`; `reclaim` and `reconcile_runs`
each queue a redelivery, and the first one is dispatched. -/
def redeliveredAt (now : ℤ) : List (Action Unit (Fin 3) Unit) :=
  [.start (), .reclaimPop (), .reconcileRead (), .reconcileEnqueue (), .submit "r" "g" none 0,
    .push runJob, .pop () 0, .dispatch 0 0, .crash (), .tick now, .start (), .reclaimPop (),
    .reclaimPush (), .reclaimPop (), .reconcileRead (), .reconcileEnqueue (), .reconcileEnqueue (),
    .pop () 1, .dispatch 1 now]

def refusedTwice : List (Action Unit (Fin 3) Unit) :=
  redeliveredAt 0 ++ [.ack 1, .pop () 2, .dispatch 2 0]

def refusedOnce : List (Action Unit (Fin 3) Unit) :=
  redeliveredAt (seconds 901) ++ [.pop () 2, .dispatch 2 (seconds 901)]

theorem restart_within_lease_drops_run :
    ∃ s t, exec (step (jobCodec _) 900) (deployed Unit (Fin 3) Unit _) refusedTwice = some s ∧
      step (jobCodec _) 900 s (.ack 2) = some t ∧ ¬ AckSafe (jobCodec _) 900 s 2 ∧
      Orphaned (jobCodec _) t "r" := by
  have hrun : ∃ s ∈ exec (step (jobCodec _) 900) (deployed Unit (Fin 3) Unit _) refusedTwice,
      ∃ t ∈ step (jobCodec _) 900 s (.ack 2),
        (∃ job ∈ received (jobCodec _) s 2, job.kind = autonomousKind ∧
          ¬ Settled s.lease job.runId) ∧ Orphaned (jobCodec _) t "r" := by
    decide
  obtain ⟨s, hs, t, ht, ⟨job, hjob, hk, hsettled⟩, horphan⟩ := hrun
  exact ⟨s, t, hs, ht, fun hsafe => hsettled (hsafe job t hjob hk ht).1, horphan⟩

theorem ack_safe_after_lease :
    ∃ s, exec (step (jobCodec _) 900) (deployed Unit (Fin 3) Unit _) refusedOnce = some s ∧
      (step (jobCodec _) 900 s (.ack 2)).isSome ∧ AckSafe (jobCodec _) 900 s 2 := by
  have hrun : ∃ s ∈ exec (step (jobCodec _) 900) (deployed Unit (Fin 3) Unit _) refusedOnce,
      (step (jobCodec _) 900 s (.ack 2)).isSome := by decide
  obtain ⟨s, hs, hack⟩ := hrun
  exact ⟨s, hs, hack, ack_safe deployed_deployed (reaches_of_exec hs (by decide)) 2⟩

end Workbench.WorkerSystem
