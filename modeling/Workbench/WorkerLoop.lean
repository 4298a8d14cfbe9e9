import Workbench.JobQueue
import Workbench.Semaphores
import Mathlib.Data.Finset.Basic

/-!
`consume_forever` and its `_process` tasks on one worker. A step is what happens between two awaits;
which task or which answer of Redis comes next is open.
-/

namespace Workbench.WorkerLoop

open JobQueue (JobCodec Job)
open Semaphores Transitions

inductive LoopPc
  | acquiring
  | popping
  | raised (error : String)
  deriving DecidableEq

inductive TaskPc
  | created
  | handling
  | acking
  | finished (error : Option String)
  deriving DecidableEq

structure Task (D Raw : Type) where
  delivery : D
  raw : Raw
  pc : TaskPc
  deriving DecidableEq

/-- `tasks` has all that were created; the set that the loop keeps only holds references. -/
structure State (W D P Raw : Type) where
  queue : JobQueue.State W D P Raw
  sem : Semaphore Unit
  loop : LoopPc
  tasks : List (Task D Raw)

/-- How a handler ends: an `Exception` stays in `dispatch`, another `BaseException` leaves it. -/
inductive HandlerEnd
  | returned
  | failed (error : String)
  | escapes (error : String)

/-- `ackFails` is an `LREM` that raises, whether or not Redis has carried it out; `elsewhere` is what
other processes do to the queue. -/
inductive Action (W D P : Type)
  | resumes
  | pops (d : D)
  | idles
  | popFails (error : String)
  | starts (i : ℕ)
  | handled (i : ℕ) (result : HandlerEnd)
  | acks (i : ℕ)
  | ackFails (i : ℕ) (applied : Bool) (error : String)
  | elsewhere (a : JobQueue.Action W D P)

section Model

variable {W D P Raw : Type}

/-- The loop's next `sem.acquire()`, which awaits only if no permit is free. -/
def State.acquireNext (s : State W D P Raw) : State W D P Raw :=
  let acquired := s.sem.acquire ()
  { s with sem := acquired.1, loop := if acquired.2 then .popping else .acquiring }

def State.setPc (s : State W D P Raw) (i : ℕ) (task : Task D Raw) (pc : TaskPc) : State W D P Raw :=
  { s with tasks := s.tasks.set i { task with pc } }

def State.finish (s : State W D P Raw) (i : ℕ) (task : Task D Raw) (error : Option String) :
    State W D P Raw :=
  { s.setPc i task (.finished error) with sem := s.sem.release }

def begins (codec : JobCodec P Raw) (kinds : Finset String) (raw : Raw) : TaskPc :=
  match codec.validate raw with
  | none => .acking
  | some job => if job.kind ∈ kinds then .handling else .acking

theorem begins_ne {codec : JobCodec P Raw} {kinds : Finset String} (raw : Raw)
    (error : Option String) : begins codec kinds raw ≠ .finished error := by
  unfold begins
  split
  · nofun
  · split_ifs
    · nofun
    · nofun

variable [DecidableEq W] [DecidableEq D] [DecidableEq Raw]

def foreign (w : W) (queue : JobQueue.State W D P Raw) : JobQueue.Action W D P → Bool
  | .enqueue _ => true
  | .start w' | .reclaimPop w' | .reclaimPush w' | .pop w' _ | .crash w' => w' ≠ w
  | .ack d => (queue.deliveries d).any fun x => x.1 ≠ w

/-- `consume_forever` of the worker, once its `reclaim` has returned. -/
def started (w : W) (queue : JobQueue.State W D P Raw) (maxInflight : ℕ) : State W D P Raw :=
  let queue := { queue with workers := Function.update queue.workers w .serving }
  State.acquireNext ⟨queue, .created Unit maxInflight, .acquiring, []⟩

variable (codec : JobCodec P Raw) (kinds : Finset String) (w : W)

/-- `kinds` are those with a handler. -/
def step (s : State W D P Raw) : Action W D P → Option (State W D P Raw)
  | .resumes =>
    if s.loop = .acquiring then (s.sem.resume ()).map fun sem => { s with sem, loop := .popping }
    else none
  | .pops d =>
    if s.loop = .popping then
      (JobQueue.step codec s.queue (.pop w d)).bind fun queue =>
        (queue.deliveries d).map fun x =>
          State.acquireNext { s with queue, tasks := s.tasks ++ [⟨d, x.2, .created⟩] }
    else none
  | .idles =>
    if s.loop = .popping ∧ s.queue.redis.jobs = [] then
      some (State.acquireNext { s with sem := s.sem.release })
    else none
  | .popFails error => if s.loop = .popping then some { s with loop := .raised error } else none
  | .starts i => (s.tasks[i]?).bind fun task =>
      if task.pc = .created then some (s.setPc i task (begins codec kinds task.raw)) else none
  | .handled i result => (s.tasks[i]?).bind fun task =>
      if task.pc = .handling then
        some (match result with
          | .returned | .failed _ => s.setPc i task .acking
          | .escapes error => s.finish i task (some error))
      else none
  | .acks i => (s.tasks[i]?).bind fun task =>
      if task.pc = .acking then
        (JobQueue.step codec s.queue (.ack task.delivery)).map fun queue =>
          State.finish { s with queue } i task none
      else none
  | .ackFails i applied error => (s.tasks[i]?).bind fun task =>
      if task.pc = .acking then
        if applied then
          (JobQueue.step codec s.queue (.ack task.delivery)).map fun queue =>
            State.finish { s with queue } i task (some error)
        else some (s.finish i task (some error))
      else none
  | .elsewhere a =>
    if foreign w s.queue a then (JobQueue.step codec s.queue a).map fun queue => { s with queue }
    else none

inductive StepTo (s : State W D P Raw) : State W D P Raw → Prop
  | resumes (sem : Semaphore Unit) (hl : s.loop = .acquiring) (hs : s.sem.resume () = some sem) :
      StepTo s { s with sem, loop := .popping }
  | pops (queue : JobQueue.State W D P Raw) (task : Task D Raw) (hl : s.loop = .popping)
      (ht : task.pc = .created) (hq : JobQueue.step codec s.queue (.pop w task.delivery) = some queue) :
      StepTo s (State.acquireNext { s with queue, tasks := s.tasks ++ [task] })
  | idles (hl : s.loop = .popping) : StepTo s (State.acquireNext { s with sem := s.sem.release })
  | popFails (error : String) (hl : s.loop = .popping) : StepTo s { s with loop := .raised error }
  | proceeds (i : ℕ) (task : Task D Raw) (pc : TaskPc) (ht : s.tasks[i]? = some task)
      (hp : ∀ error, task.pc ≠ .finished error) (hpc : ∀ error, pc ≠ .finished error) :
      StepTo s (s.setPc i task pc)
  | finishes (i : ℕ) (task : Task D Raw) (queue : JobQueue.State W D P Raw) (error : Option String)
      (ht : s.tasks[i]? = some task) (hp : ∀ error, task.pc ≠ .finished error)
      (hq : queue = s.queue ∨ JobQueue.step codec s.queue (.ack task.delivery) = some queue) :
      StepTo s (State.finish { s with queue } i task error)
  | elsewhere (a : JobQueue.Action W D P) (queue : JobQueue.State W D P Raw)
      (hf : foreign w s.queue a = true) (hq : JobQueue.step codec s.queue a = some queue) :
      StepTo s { s with queue }

variable {codec kinds w}

theorem step_cases {s t : State W D P Raw} {a : Action W D P}
    (h : step codec kinds w s a = some t) : StepTo codec w s t := by
  cases a with
  | resumes =>
    simp only [step] at h
    split_ifs at h with hl
    obtain ⟨sem, hs, rfl⟩ := Option.map_eq_some_iff.mp h
    exact .resumes sem hl hs
  | pops d =>
    simp only [step] at h
    split_ifs at h with hl
    obtain ⟨queue, hq, h⟩ := Option.bind_eq_some_iff.mp h
    obtain ⟨x, -, rfl⟩ := Option.map_eq_some_iff.mp h
    exact .pops queue ⟨d, x.2, .created⟩ hl rfl hq
  | idles =>
    simp only [step] at h
    split_ifs at h with hl
    cases h
    exact .idles hl.1
  | popFails error =>
    simp only [step] at h
    split_ifs at h with hl
    cases h
    exact .popFails error hl
  | starts i =>
    obtain ⟨task, ht, h⟩ := Option.bind_eq_some_iff.mp h
    split_ifs at h with hp
    cases h
    exact .proceeds i task _ ht (by simp [hp]) (begins_ne task.raw)
  | handled i result =>
    obtain ⟨task, ht, h⟩ := Option.bind_eq_some_iff.mp h
    split_ifs at h with hp
    cases h
    cases result with
    | returned => exact .proceeds i task .acking ht (by simp [hp]) nofun
    | failed _ => exact .proceeds i task .acking ht (by simp [hp]) nofun
    | escapes error => exact .finishes i task s.queue (some error) ht (by simp [hp]) (.inl rfl)
  | acks i =>
    obtain ⟨task, ht, h⟩ := Option.bind_eq_some_iff.mp h
    split_ifs at h with hp
    obtain ⟨queue, hq, rfl⟩ := Option.map_eq_some_iff.mp h
    exact .finishes i task queue none ht (by simp [hp]) (.inr hq)
  | ackFails i applied error =>
    obtain ⟨task, ht, h⟩ := Option.bind_eq_some_iff.mp h
    split_ifs at h with hp happlied
    · obtain ⟨queue, hq, rfl⟩ := Option.map_eq_some_iff.mp h
      exact .finishes i task queue (some error) ht (by simp [hp]) (.inr hq)
    · cases h
      exact .finishes i task s.queue (some error) ht (by simp [hp]) (.inl rfl)
  | elsewhere a =>
    simp only [step] at h
    split_ifs at h with hf
    obtain ⟨queue, hq, rfl⟩ := Option.map_eq_some_iff.mp h
    exact .elsewhere a queue hf hq

end Model

end Workbench.WorkerLoop
