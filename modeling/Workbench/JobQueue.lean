import Workbench.Transitions
import Mathlib.Data.List.Basic
import Mathlib.Data.Int.Order.Basic
import Mathlib.Logic.Function.Basic

/-!
The Redis backend of `workbench_jobs.queue`: its three lists, and workers that reclaim on start,
pop, dispatch and ack. Each Redis command is atomic, and a worker may stop between any two.
-/

namespace Workbench.JobQueue

open Transitions

def maxAttempts : ℤ := 5

/-- `^[a-z][a-z0-9_]{0,31}$`. -/
def kindPattern (kind : String) : Bool :=
  match kind.toList with
  | [] => false
  | c :: cs => c.isLower && cs.length ≤ 31 && cs.all fun c => c.isLower || c.isDigit || c = '_'

/-- `^[A-Za-z0-9_-]{1,64}$`. -/
def runIdPattern (runId : String) : Bool :=
  let cs := runId.toList
  1 ≤ cs.length && cs.length ≤ 64 && cs.all fun c => c.isAlphanum || c = '_' || c = '-'

structure Job (P : Type) where
  kind : String
  runId : String
  payload : P
  attempts : ℤ
  kind_ok : kindPattern kind = true
  runId_ok : runIdPattern runId = true
  deriving DecidableEq

/-- `model_dump_json` and `model_validate_json`; `none` is a raised error. -/
structure JobCodec (P Raw : Type) where
  dump : Job P → Raw
  validate : Raw → Option (Job P)
  validate_dump : ∀ job, validate (dump job) = some job

def jobCodec (P : Type) : JobCodec P (Job P ⊕ String) where
  dump job := .inl job
  validate := Sum.getLeft?
  validate_dump _ := rfl

variable {P Raw W D : Type}

def newJob (kind runId : String) (payload : P) : Option (Job P) :=
  if h : kindPattern kind = true ∧ runIdPattern runId = true then
    some ⟨kind, runId, payload, 0, h.1, h.2⟩
  else none

/-- The head of a list is Redis's LEFT end. -/
structure Redis (Raw : Type) where
  jobs : List Raw
  processing : List Raw
  dead : List Raw
  deriving DecidableEq

namespace Redis

def lpushJobs (r : Redis Raw) (raw : Raw) : Redis Raw := { r with jobs := raw :: r.jobs }

def rpushJobs (r : Redis Raw) (raw : Raw) : Redis Raw := { r with jobs := r.jobs ++ [raw] }

def rpushDead (r : Redis Raw) (raw : Raw) : Redis Raw := { r with dead := r.dead ++ [raw] }

def lpopProcessing (r : Redis Raw) : Option (Raw × Redis Raw) :=
  match r.processing with
  | [] => none
  | raw :: rest => some (raw, { r with processing := rest })

/-- `BLMOVE jobs processing RIGHT LEFT`; `none` is the idle timeout. -/
def blmove (r : Redis Raw) : Option (Raw × Redis Raw) :=
  r.jobs.getLast?.map fun raw =>
    (raw, { r with jobs := r.jobs.dropLast, processing := raw :: r.processing })

def lremProcessing [DecidableEq Raw] (r : Redis Raw) (raw : Raw) : Redis Raw :=
  { r with processing := r.processing.erase raw }

end Redis

/-- The rest of `reclaim`'s loop body once `raw` is popped; the flag says it was re-queued. -/
def reclaimPush (codec : JobCodec P Raw) (r : Redis Raw) (raw : Raw) : Redis Raw × Bool :=
  match codec.validate raw with
  | none => (r.rpushDead raw, false)
  | some job =>
    let job := { job with attempts := job.attempts + 1 }
    if job.attempts > maxAttempts then (r.rpushDead (codec.dump job), false)
    else (r.rpushJobs (codec.dump job), true)

/-- `holding raw` is `reclaim` between its `LPOP` and the `RPUSH` that follows. -/
inductive Phase (Raw : Type)
  | down
  | reclaiming
  | holding (raw : Raw)
  | serving
  deriving DecidableEq

/-- `enqueued` and `acked` record what was pushed and what an ack removed; `limbo` is what the
`reclaim` of a worker has popped and not pushed back, whether or not that worker still runs. -/
structure State (W D P Raw : Type) where
  redis : Redis Raw
  workers : W → Phase Raw
  deliveries : D → Option (W × Raw)
  enqueued : List (Job P)
  acked : List Raw
  limbo : List (W × Raw)

def idle (W D P Raw : Type) : State W D P Raw :=
  ⟨⟨[], [], []⟩, fun _ => .down, fun _ => none, [], [], []⟩

inductive Action (W D P : Type)
  | enqueue (job : Job P)
  | start (w : W)
  | reclaimPop (w : W)
  | reclaimPush (w : W)
  | pop (w : W) (d : D)
  | ack (d : D)
  | crash (w : W)

variable [DecidableEq W] [DecidableEq D] [DecidableEq Raw]

def step (codec : JobCodec P Raw) (s : State W D P Raw) : Action W D P → Option (State W D P Raw)
  | .enqueue job =>
    some { s with redis := s.redis.lpushJobs (codec.dump job), enqueued := job :: s.enqueued }
  | .start w =>
    if s.workers w = .down then some { s with workers := Function.update s.workers w .reclaiming }
    else none
  | .reclaimPop w =>
    if s.workers w = .reclaiming then
      match s.redis.lpopProcessing with
      | none => some { s with workers := Function.update s.workers w .serving }
      | some (raw, redis) =>
        some { s with
          redis
          workers := Function.update s.workers w (.holding raw)
          limbo := (w, raw) :: s.limbo }
    else none
  | .reclaimPush w =>
    match s.workers w with
    | .holding raw =>
      some { s with
        redis := (reclaimPush codec s.redis raw).1
        workers := Function.update s.workers w .reclaiming
        limbo := s.limbo.erase (w, raw) }
    | _ => none
  | .pop w d =>
    if s.workers w = .serving ∧ (s.deliveries d).isNone then
      s.redis.blmove.map fun (raw, redis) =>
        { s with redis, deliveries := Function.update s.deliveries d (some (w, raw)) }
    else none
  | .ack d =>
    (s.deliveries d).map fun (_, raw) =>
      { s with
        redis := s.redis.lremProcessing raw
        deliveries := Function.update s.deliveries d none
        acked := if raw ∈ s.redis.processing then raw :: s.acked else s.acked }
  | .crash w =>
    some { s with
      workers := Function.update s.workers w .down
      deliveries := fun d => (s.deliveries d).filter fun (w', _) => w' ≠ w }

inductive StepTo (codec : JobCodec P Raw) (s : State W D P Raw) :
    Action W D P → State W D P Raw → Prop
  | enqueue (job : Job P) : StepTo codec s (.enqueue job)
      { s with redis := s.redis.lpushJobs (codec.dump job), enqueued := job :: s.enqueued }
  | start (w : W) (h : s.workers w = .down) : StepTo codec s (.start w)
      { s with workers := Function.update s.workers w .reclaiming }
  | reclaimed (w : W) (h : s.workers w = .reclaiming) (hp : s.redis.processing = []) :
      StepTo codec s (.reclaimPop w) { s with workers := Function.update s.workers w .serving }
  | reclaimPop (w : W) (raw : Raw) (rest : List Raw) (h : s.workers w = .reclaiming)
      (hp : s.redis.processing = raw :: rest) : StepTo codec s (.reclaimPop w)
      { s with
        redis := { s.redis with processing := rest }
        workers := Function.update s.workers w (.holding raw)
        limbo := (w, raw) :: s.limbo }
  | reclaimPush (w : W) (raw : Raw) (h : s.workers w = .holding raw) :
      StepTo codec s (.reclaimPush w)
      { s with
        redis := (JobQueue.reclaimPush codec s.redis raw).1
        workers := Function.update s.workers w .reclaiming
        limbo := s.limbo.erase (w, raw) }
  | pop (w : W) (d : D) (raw : Raw) (rest : List Raw) (h : s.workers w = .serving)
      (hd : s.deliveries d = none) (hj : s.redis.jobs = rest ++ [raw]) : StepTo codec s (.pop w d)
      { s with
        redis := { s.redis with jobs := rest, processing := raw :: s.redis.processing }
        deliveries := Function.update s.deliveries d (some (w, raw)) }
  | ack (d : D) (w : W) (raw : Raw) (h : s.deliveries d = some (w, raw)) : StepTo codec s (.ack d)
      { s with
        redis := s.redis.lremProcessing raw
        deliveries := Function.update s.deliveries d none
        acked := if raw ∈ s.redis.processing then raw :: s.acked else s.acked }
  | crash (w : W) : StepTo codec s (.crash w)
      { s with
        workers := Function.update s.workers w .down
        deliveries := fun d => (s.deliveries d).filter fun (w', _) => w' ≠ w }

theorem step_cases {codec : JobCodec P Raw} {s t : State W D P Raw} {a : Action W D P}
    (h : step codec s a = some t) : StepTo codec s a t := by
  cases a with
  | enqueue job =>
    cases h
    exact .enqueue job
  | start w =>
    simp only [step] at h
    split_ifs at h with hw
    cases h
    exact .start w hw
  | reclaimPop w =>
    simp only [step, Redis.lpopProcessing] at h
    split_ifs at h with hw
    split at h
    · rename_i hp
      cases h
      split at hp
      · exact .reclaimed w hw ‹_›
      · cases hp
    · rename_i raw redis hp
      cases h
      split at hp
      · cases hp
      · cases hp
        exact .reclaimPop w raw _ hw ‹_›
  | reclaimPush w =>
    simp only [step] at h
    split at h
    · rename_i raw hw
      cases h
      exact .reclaimPush w raw hw
    · cases h
  | pop w d =>
    simp only [step] at h
    split_ifs at h with hg
    obtain ⟨⟨raw, redis⟩, hb, rfl⟩ := Option.map_eq_some_iff.mp h
    obtain ⟨last, hlast, he⟩ := Option.map_eq_some_iff.mp hb
    cases he
    have hjobs : s.redis.jobs = s.redis.jobs.dropLast ++ [raw] :=
      (List.dropLast_append_getLast? raw hlast).symm
    exact .pop w d raw _ hg.1 (Option.isNone_iff_eq_none.mp hg.2) hjobs
  | ack d =>
    obtain ⟨⟨w, raw⟩, hd, rfl⟩ := Option.map_eq_some_iff.mp h
    exact .ack d w raw hd
  | crash w =>
    cases h
    exact .crash w

omit [DecidableEq D] [DecidableEq Raw] in
theorem holding_of_update {s : State W D P Raw} {w v : W} {phase : Phase Raw} {raw : Raw}
    (hne : ∀ raw, phase ≠ .holding raw)
    (h : Function.update s.workers w phase v = .holding raw) : v ≠ w ∧ s.workers v = .holding raw := by
  rw [Function.update_apply] at h
  split_ifs at h with hv
  · exact absurd h (hne raw)
  · exact ⟨hv, h⟩

omit [DecidableEq Raw] in
theorem reclaimPush_processing {codec : JobCodec P Raw} (r : Redis Raw) (raw : Raw) :
    (reclaimPush codec r raw).1.processing = r.processing := by
  unfold reclaimPush
  split
  · rfl
  · simp only
    split_ifs <;> rfl

end Workbench.JobQueue
