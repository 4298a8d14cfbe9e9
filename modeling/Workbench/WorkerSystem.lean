import Workbench.JobQueue
import Workbench.RunLease

namespace Workbench.WorkerSystem

open RunStore KeyedTable Transitions JobQueue RunLease

abbrev RunJob (R : Type) := Job (AutonomousPayload R)

abbrev RunRow (R : Type) := AgentRun (AutonomousPayload R)

inductive Startup (R : Type)
  | booting
  | reconciling (rows : List (RunRow R))
  | consuming

/-- `outbox` holds the jobs of created runs that `submit` has not pushed yet; `returned` marks the
deliveries whose `dispatch` has returned. -/
structure State (W D R Raw : Type) where
  queue : JobQueue.State W D (AutonomousPayload R) Raw
  lease : RunLease.State D R
  outbox : List (RunJob R)
  startup : W → Startup R
  returned : D → Bool

inductive Action (W D R : Type)
  | submit (runId goal : String) (key : Option String) (now : ℤ)
  | push (job : RunJob R)
  | start (w : W)
  | reclaimPop (w : W)
  | reclaimPush (w : W)
  | reconcileRead (w : W)
  | reconcileEnqueue (w : W)
  | pop (w : W) (d : D)
  | dispatch (d : D) (now : ℤ)
  | touch (d : D) (now : ℤ)
  | finish (d : D) (outcome : Outcome R) (now : ℤ)
  | release (d : D)
  | ack (d : D)
  | crash (w : W)
  | sweep (now : ℤ)
  | tick (now : ℤ)

variable {W D R Raw : Type} [DecidableEq W] [DecidableEq D] [DecidableEq R] [DecidableEq Raw]

def nonterminalLimit : ℕ := 1000

def submitted (record : RunRow R) (runId goal : String) : List (RunJob R) :=
  if record.id = runId then (newJob autonomousKind runId ⟨goal, none⟩).toList else []

/-- The rows `reconcile_runs` re-enqueues; `autonomous` is the one registered kind. -/
def reconcilable (store : RunTable (AutonomousPayload R)) : List (RunRow R) :=
  (listNonterminalRuns store nonterminalLimit).filter fun r => r.kind = autonomousKind

def received (codec : JobCodec (AutonomousPayload R) Raw) (s : State W D R Raw) (d : D) :
    Option (RunJob R) :=
  (s.queue.deliveries d).bind fun p => codec.validate p.2

def onWorker (s : State W D R Raw) (w : W) (d : D) : Bool :=
  (s.queue.deliveries d).any fun p => p.1 = w

/-- A job that `reconcile_runs` cannot build raises out of the worker's start: that is a `crash`. -/
def step (codec : JobCodec (AutonomousPayload R) Raw) (ttl : ℤ) (s : State W D R Raw) :
    Action W D R → Option (State W D R Raw)
  | .submit runId goal key now =>
    (createRun s.lease.store runId autonomousKind .pending ⟨goal, none⟩ key now).bind fun created =>
      (RunLease.step ttl s.lease (.submit runId goal key now)).map fun lease =>
        { s with lease, outbox := submitted created.2 runId goal ++ s.outbox }
  | .push job =>
    if job ∈ s.outbox then
      (JobQueue.step codec s.queue (.enqueue job)).map fun queue =>
        { s with queue, outbox := s.outbox.erase job }
    else none
  | .start w =>
    (JobQueue.step codec s.queue (.start w)).map fun queue =>
      { s with queue, startup := Function.update s.startup w .booting }
  | .reclaimPop w => (JobQueue.step codec s.queue (.reclaimPop w)).map fun queue => { s with queue }
  | .reclaimPush w => (JobQueue.step codec s.queue (.reclaimPush w)).map fun queue => { s with queue }
  | .reconcileRead w =>
    match s.queue.workers w, s.startup w with
    | .serving, .booting => some { s with
        startup := Function.update s.startup w (.reconciling (reconcilable s.lease.store)) }
    | _, _ => none
  | .reconcileEnqueue w =>
    match s.startup w with
    | .reconciling [] => some { s with startup := Function.update s.startup w .consuming }
    | .reconciling (row :: rows) =>
      (newJob row.kind row.id row.payload).bind fun job =>
        (JobQueue.step codec s.queue (.enqueue job)).map fun queue =>
          { s with queue, startup := Function.update s.startup w (.reconciling rows) }
    | _ => none
  | .pop w d =>
    match s.startup w with
    | .consuming =>
      (JobQueue.step codec s.queue (.pop w d)).map fun queue =>
        { s with queue, returned := Function.update s.returned d false }
    | _ => none
  | .dispatch d now =>
    match received codec s d with
    | none => none
    | some job =>
      if s.returned d then none
      else if job.kind = autonomousKind then
        (RunLease.step ttl s.lease (.claim d job.runId job.payload.goal now)).map fun lease =>
          { s with
            lease
            returned := Function.update s.returned d (lease.executing d).isNone }
      else some { s with returned := Function.update s.returned d true }
  | .touch d now => (RunLease.step ttl s.lease (.touch d now)).map fun lease => { s with lease }
  | .finish d outcome now =>
    (RunLease.step ttl s.lease (.finish d outcome now)).map fun lease => { s with lease }
  | .release d =>
    (RunLease.step ttl s.lease (.release d)).map fun lease =>
      { s with lease, returned := Function.update s.returned d true }
  | .ack d =>
    if s.returned d ∨ (received codec s d).isNone then
      (JobQueue.step codec s.queue (.ack d)).map fun queue => { s with queue }
    else none
  | .crash w =>
    (JobQueue.step codec s.queue (.crash w)).bind fun queue =>
      (RunLease.step ttl s.lease (.crash (onWorker s w))).map fun lease =>
        { s with queue, lease, startup := Function.update s.startup w .booting }
  | .sweep now => (RunLease.step ttl s.lease (.sweep now)).map fun lease => { s with lease }
  | .tick now => (RunLease.step ttl s.lease (.tick now)).map fun lease => { s with lease }

inductive StepTo (codec : JobCodec (AutonomousPayload R) Raw) (ttl : ℤ) (s : State W D R Raw) :
    Action W D R → State W D R Raw → Prop
  | submit (runId goal : String) (key : Option String) (now : ℤ)
      (store : RunTable (AutonomousPayload R)) (record : RunRow R) (lease : RunLease.State D R)
      (hc : createRun s.lease.store runId autonomousKind .pending ⟨goal, none⟩ key now =
        some (store, record))
      (hl : RunLease.step ttl s.lease (.submit runId goal key now) = some lease) :
      StepTo codec ttl s (.submit runId goal key now)
        { s with lease, outbox := submitted record runId goal ++ s.outbox }
  | push (job : RunJob R) (queue : JobQueue.State W D (AutonomousPayload R) Raw)
      (hj : job ∈ s.outbox) (hq : JobQueue.step codec s.queue (.enqueue job) = some queue) :
      StepTo codec ttl s (.push job) { s with queue, outbox := s.outbox.erase job }
  | start (w : W) (queue : JobQueue.State W D (AutonomousPayload R) Raw)
      (hq : JobQueue.step codec s.queue (.start w) = some queue) : StepTo codec ttl s (.start w)
        { s with queue, startup := Function.update s.startup w .booting }
  | reclaimPop (w : W) (queue : JobQueue.State W D (AutonomousPayload R) Raw)
      (hq : JobQueue.step codec s.queue (.reclaimPop w) = some queue) :
      StepTo codec ttl s (.reclaimPop w) { s with queue }
  | reclaimPush (w : W) (queue : JobQueue.State W D (AutonomousPayload R) Raw)
      (hq : JobQueue.step codec s.queue (.reclaimPush w) = some queue) :
      StepTo codec ttl s (.reclaimPush w) { s with queue }
  | reconcileRead (w : W) : StepTo codec ttl s (.reconcileRead w) { s with
      startup := Function.update s.startup w (.reconciling (reconcilable s.lease.store)) }
  | reconciled (w : W) : StepTo codec ttl s (.reconcileEnqueue w)
      { s with startup := Function.update s.startup w .consuming }
  | reconcileEnqueue (w : W) (row : RunRow R) (rows : List (RunRow R)) (job : RunJob R)
      (queue : JobQueue.State W D (AutonomousPayload R) Raw)
      (hs : s.startup w = .reconciling (row :: rows))
      (hj : newJob row.kind row.id row.payload = some job)
      (hq : JobQueue.step codec s.queue (.enqueue job) = some queue) :
      StepTo codec ttl s (.reconcileEnqueue w)
        { s with queue, startup := Function.update s.startup w (.reconciling rows) }
  | pop (w : W) (d : D) (queue : JobQueue.State W D (AutonomousPayload R) Raw)
      (hq : JobQueue.step codec s.queue (.pop w d) = some queue) : StepTo codec ttl s (.pop w d)
        { s with queue, returned := Function.update s.returned d false }
  | dispatch (d : D) (now : ℤ) (job : RunJob R) (lease : RunLease.State D R)
      (hd : received codec s d = some job) (hk : job.kind = autonomousKind)
      (hl : RunLease.step ttl s.lease (.claim d job.runId job.payload.goal now) = some lease) :
      StepTo codec ttl s (.dispatch d now) { s with
        lease
        returned := Function.update s.returned d (lease.executing d).isNone }
  | noHandler (d : D) (now : ℤ) (job : RunJob R) (hd : received codec s d = some job)
      (hk : job.kind ≠ autonomousKind) : StepTo codec ttl s (.dispatch d now)
        { s with returned := Function.update s.returned d true }
  | touch (d : D) (now : ℤ) (lease : RunLease.State D R)
      (hl : RunLease.step ttl s.lease (.touch d now) = some lease) :
      StepTo codec ttl s (.touch d now) { s with lease }
  | finish (d : D) (outcome : Outcome R) (now : ℤ) (lease : RunLease.State D R)
      (hl : RunLease.step ttl s.lease (.finish d outcome now) = some lease) :
      StepTo codec ttl s (.finish d outcome now) { s with lease }
  | release (d : D) (lease : RunLease.State D R)
      (hl : RunLease.step ttl s.lease (.release d) = some lease) :
      StepTo codec ttl s (.release d)
        { s with lease, returned := Function.update s.returned d true }
  | ack (d : D) (queue : JobQueue.State W D (AutonomousPayload R) Raw)
      (hd : s.returned d = true ∨ received codec s d = none)
      (hq : JobQueue.step codec s.queue (.ack d) = some queue) :
      StepTo codec ttl s (.ack d) { s with queue }
  | crash (w : W) (queue : JobQueue.State W D (AutonomousPayload R) Raw) (lease : RunLease.State D R)
      (hq : JobQueue.step codec s.queue (.crash w) = some queue)
      (hl : RunLease.step ttl s.lease (.crash (onWorker s w)) = some lease) :
      StepTo codec ttl s (.crash w)
        { s with queue, lease, startup := Function.update s.startup w .booting }
  | sweep (now : ℤ) (lease : RunLease.State D R)
      (hl : RunLease.step ttl s.lease (.sweep now) = some lease) :
      StepTo codec ttl s (.sweep now) { s with lease }
  | tick (now : ℤ) (lease : RunLease.State D R)
      (hl : RunLease.step ttl s.lease (.tick now) = some lease) :
      StepTo codec ttl s (.tick now) { s with lease }

variable {codec : JobCodec (AutonomousPayload R) Raw} {ttl : ℤ} {s t : State W D R Raw}

theorem step_cases {a : Action W D R} (h : step codec ttl s a = some t) : StepTo codec ttl s a t := by
  cases a with
  | submit runId goal key now =>
    obtain ⟨⟨store, record⟩, hc, h⟩ := Option.bind_eq_some_iff.mp h
    obtain ⟨lease, hl, rfl⟩ := Option.map_eq_some_iff.mp h
    exact .submit runId goal key now store record lease hc hl
  | push job =>
    simp only [step] at h
    split_ifs at h with hj
    obtain ⟨queue, hq, rfl⟩ := Option.map_eq_some_iff.mp h
    exact .push job queue hj hq
  | start w =>
    obtain ⟨queue, hq, rfl⟩ := Option.map_eq_some_iff.mp h
    exact .start w queue hq
  | reclaimPop w =>
    obtain ⟨queue, hq, rfl⟩ := Option.map_eq_some_iff.mp h
    exact .reclaimPop w queue hq
  | reclaimPush w =>
    obtain ⟨queue, hq, rfl⟩ := Option.map_eq_some_iff.mp h
    exact .reclaimPush w queue hq
  | reconcileRead w =>
    simp only [step] at h
    split at h
    · cases h
      exact .reconcileRead w
    · cases h
  | reconcileEnqueue w =>
    simp only [step] at h
    split at h
    · cases h
      exact .reconciled w
    · rename_i row rows hs
      obtain ⟨job, hj, h⟩ := Option.bind_eq_some_iff.mp h
      obtain ⟨queue, hq, rfl⟩ := Option.map_eq_some_iff.mp h
      exact .reconcileEnqueue w row rows job queue hs hj hq
    · cases h
  | pop w d =>
    simp only [step] at h
    split at h
    · obtain ⟨queue, hq, rfl⟩ := Option.map_eq_some_iff.mp h
      exact .pop w d queue hq
    · cases h
  | dispatch d now =>
    simp only [step] at h
    split at h
    · cases h
    · rename_i job hd
      split_ifs at h with hr hk
      · obtain ⟨lease, hl, rfl⟩ := Option.map_eq_some_iff.mp h
        exact .dispatch d now job lease hd hk hl
      · cases h
        exact .noHandler d now job hd hk
  | touch d now =>
    obtain ⟨lease, hl, rfl⟩ := Option.map_eq_some_iff.mp h
    exact .touch d now lease hl
  | finish d outcome now =>
    obtain ⟨lease, hl, rfl⟩ := Option.map_eq_some_iff.mp h
    exact .finish d outcome now lease hl
  | release d =>
    obtain ⟨lease, hl, rfl⟩ := Option.map_eq_some_iff.mp h
    exact .release d lease hl
  | ack d =>
    simp only [step] at h
    split_ifs at h with hd
    obtain ⟨queue, hq, rfl⟩ := Option.map_eq_some_iff.mp h
    exact .ack d queue (hd.imp_right Option.isNone_iff_eq_none.mp) hq
  | crash w =>
    simp only [step] at h
    obtain ⟨queue, hq, h⟩ := Option.bind_eq_some_iff.mp h
    obtain ⟨lease, hl, rfl⟩ := Option.map_eq_some_iff.mp h
    exact .crash w queue lease hq hl
  | sweep now =>
    obtain ⟨lease, hl, rfl⟩ := Option.map_eq_some_iff.mp h
    exact .sweep now lease hl
  | tick now =>
    obtain ⟨lease, hl, rfl⟩ := Option.map_eq_some_iff.mp h
    exact .tick now lease hl

theorem step_queue {a : Action W D R} (h : step codec ttl s a = some t) :
    t.queue = s.queue ∨ ∃ b, JobQueue.step codec s.queue b = some t.queue := by
  cases step_cases h with
  | push job queue hj hq => exact .inr ⟨_, hq⟩
  | start w queue hq => exact .inr ⟨_, hq⟩
  | reclaimPop w queue hq => exact .inr ⟨_, hq⟩
  | reclaimPush w queue hq => exact .inr ⟨_, hq⟩
  | reconcileEnqueue w row rows job queue hs hj hq => exact .inr ⟨_, hq⟩
  | pop w d queue hq => exact .inr ⟨_, hq⟩
  | ack d queue hd hq => exact .inr ⟨_, hq⟩
  | crash w queue lease hq hl => exact .inr ⟨_, hq⟩
  | _ => exact .inl rfl

theorem step_lease {a : Action W D R} (h : step codec ttl s a = some t) :
    t.lease = s.lease ∨ ∃ b, RunLease.step ttl s.lease b = some t.lease := by
  cases step_cases h with
  | submit runId goal key now store record lease hc hl => exact .inr ⟨_, hl⟩
  | dispatch d now job lease hd hk hl => exact .inr ⟨_, hl⟩
  | touch d now lease hl => exact .inr ⟨_, hl⟩
  | finish d outcome now lease hl => exact .inr ⟨_, hl⟩
  | release d lease hl => exact .inr ⟨_, hl⟩
  | crash w queue lease hq hl => exact .inr ⟨_, hl⟩
  | sweep now lease hl => exact .inr ⟨_, hl⟩
  | tick now lease hl => exact .inr ⟨_, hl⟩
  | _ => exact .inl rfl

variable {guard : State W D R Raw → Action W D R → Prop}

theorem queue_reaches (h : Reaches (step codec ttl) guard s t) :
    Reaches (JobQueue.step codec) always s.queue t.queue := by
  refine Reaches.project (I := fun _ => True) State.queue h trivial (fun _ _ _ _ _ _ => trivial)
    fun s a t _ _ hstep => ?_
  rcases step_queue hstep with heq | ⟨b, hb⟩
  · exact heq ▸ Reaches.refl _
  · exact Reaches.single trivial hb

end Workbench.WorkerSystem
