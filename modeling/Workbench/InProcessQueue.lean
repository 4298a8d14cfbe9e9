import Workbench.FairSemaphores
import Workbench.JobQueue
import Mathlib.Data.Finset.Basic
import Mathlib.Data.List.Range

/-!
The in-process backend of `workbench_jobs.queue` on its event loop: `create_task`, a future that is
set and a task that ends put a callback behind those that wait, and a turn runs the first of them.
What ends a handler comes at any time.
-/

namespace Workbench.InProcessQueue

open JobQueue (Job)
open Semaphores Semaphores.Semaphore Transitions

inductive Pc
  | pending
  | handling
  | finished (error : Option String)
  deriving DecidableEq

structure Task (P : Type) where
  job : Job P
  pc : Pc
  deriving DecidableEq

/-- `start` is the first turn of a task, `wake` its turn once its permit was handed over, and
`discard` the callback that its end leaves. -/
inductive Handle
  | start (i : ℕ)
  | wake (i : ℕ)
  | discard (i : ℕ)
  deriving DecidableEq

/-- `aclose` before its call, in `asyncio.wait`, and after it; `asked` is how many jobs had been
enqueued at the call. -/
inductive Drain
  | unasked
  | waiting (asked : ℕ) (pending : List ℕ)
  | closed (asked : ℕ) (still : List ℕ)
  deriving DecidableEq

/-- `created` has every task in the order of the calls of `enqueue`, `tasks` the references that the
queue holds, and `begun` those that entered `dispatch`, in that order. -/
structure State (P : Type) where
  sem : Semaphore ℕ
  tasks : List ℕ
  handlers : Finset String
  created : List (Task P)
  ready : List Handle
  begun : List ℕ
  drain : Drain
  deriving DecidableEq

inductive HandlerEnd
  | returned
  | failed (error : String)
  | escapes (error : String)

def HandlerEnd.error : HandlerEnd → Option String
  | .returned | .failed _ => none
  | .escapes error => some error

inductive Action (P : Type)
  | register (kind : String)
  | enqueue (job : Job P)
  | turn
  | handled (i : ℕ) (result : HandlerEnd)
  | aclose
  | drained
  | timesOut

section Model

variable {P : Type}

def init (P : Type) (maxInflight : ℕ) : State P :=
  ⟨.created ℕ maxInflight, [], ∅, [], [], [], .unasked⟩

def unfinished (s : State P) (i : ℕ) : Bool :=
  match s.created[i]? with
  | some ⟨_, .finished _⟩ => false
  | some _ => true
  | none => false

def State.setPc (s : State P) (i : ℕ) (task : Task P) (pc : Pc) : State P :=
  { s with created := s.created.set i { task with pc } }

def State.setSem (s : State P) (sem : Semaphore ℕ) : State P :=
  { s with sem, ready := s.ready ++ (woken s.sem sem).map .wake }

def State.finish (s : State P) (i : ℕ) (task : Task P) (error : Option String) : State P :=
  let s := (s.setPc i task (.finished error)).setSem s.sem.release
  { s with ready := s.ready ++ [.discard i] }

def State.dispatch (s : State P) (i : ℕ) (task : Task P) : State P :=
  let s := { s.setPc i task .handling with begun := s.begun ++ [i] }
  if task.job.kind ∈ s.handlers then s else s.finish i task none

def State.turn (s : State P) : Option (State P) :=
  match s.ready with
  | [] => none
  | .start i :: rest =>
    let acquired := s.sem.acquire i
    let s := { s with sem := acquired.1, ready := rest }
    if acquired.2 then (s.created[i]?).map (s.dispatch i) else some s
  | .wake i :: rest => (s.sem.resume i).bind fun sem =>
      (s.created[i]?).map ({ s with ready := rest }.setSem sem |>.dispatch i)
  | .discard i :: rest => some { s with tasks := s.tasks.erase i, ready := rest }

def State.asked (s : State P) : Drain :=
  if s.tasks = [] then .closed s.created.length [] else .waiting s.created.length s.tasks

def step (s : State P) : Action P → Option (State P)
  | .register kind => some { s with handlers := insert kind s.handlers }
  | .enqueue job =>
    let i := s.created.length
    some { s with
      tasks := i :: s.tasks, created := s.created ++ [⟨job, .pending⟩],
      ready := s.ready ++ [.start i] }
  | .turn => s.turn
  | .handled i result => (s.created[i]?).bind fun task =>
      if task.pc = .handling then some (s.finish i task result.error) else none
  | .aclose =>
    if s.drain = .unasked then some { s with drain := s.asked } else none
  | .drained =>
    match s.drain with
    | .waiting asked pending =>
      if pending.all fun i => !unfinished s i then some { s with drain := .closed asked [] } else none
    | _ => none
  | .timesOut =>
    match s.drain with
    | .waiting asked pending =>
      some { s with drain := .closed asked (pending.filter (unfinished s)) }
    | _ => none

def State.wakes (s : State P) : List ℕ := s.ready.filterMap fun
  | .wake i => some i
  | _ => none

def State.starts (s : State P) : List ℕ := s.ready.filterMap fun
  | .start i => some i
  | _ => none

def State.running (s : State P) : ℕ := s.created.countP fun task => task.pc = .handling

inductive StepTo (s : State P) : State P → Prop
  | registers (kind : String) : StepTo s { s with handlers := insert kind s.handlers }
  | enqueues (job : Job P) : StepTo s { s with
      tasks := s.created.length :: s.tasks, created := s.created ++ [⟨job, .pending⟩],
      ready := s.ready ++ [.start s.created.length] }
  | waits (i : ℕ) (rest : List Handle) (hr : s.ready = .start i :: rest)
      (ha : (s.sem.acquire i).2 = false) :
      StepTo s { s with sem := (s.sem.acquire i).1, ready := rest }
  | starts (i : ℕ) (rest : List Handle) (task : Task P) (hr : s.ready = .start i :: rest)
      (ha : (s.sem.acquire i).2 = true) (ht : s.created[i]? = some task) :
      StepTo s (State.dispatch { s with sem := (s.sem.acquire i).1, ready := rest } i task)
  | wakes (i : ℕ) (rest : List Handle) (sem : Semaphore ℕ) (task : Task P)
      (hr : s.ready = .wake i :: rest) (hs : s.sem.resume i = some sem)
      (ht : s.created[i]? = some task) :
      StepTo s (State.dispatch (State.setSem { s with ready := rest } sem) i task)
  | discards (i : ℕ) (rest : List Handle) (hr : s.ready = .discard i :: rest) :
      StepTo s { s with tasks := s.tasks.erase i, ready := rest }
  | ends (i : ℕ) (task : Task P) (error : Option String) (ht : s.created[i]? = some task)
      (hp : task.pc = .handling) : StepTo s (s.finish i task error)
  | asks (hd : s.drain = .unasked) : StepTo s { s with drain := s.asked }
  | returns (asked : ℕ) (pending : List ℕ) (hd : s.drain = .waiting asked pending) :
      StepTo s { s with drain := .closed asked (pending.filter (unfinished s)) }

theorem turn_cases {s t : State P} (h : s.turn = some t) : StepTo s t := by
  unfold State.turn at h
  split at h
  · cases h
  · rename_i i rest hr
    dsimp only at h
    split_ifs at h with ha
    · obtain ⟨task, ht, rfl⟩ := Option.map_eq_some_iff.mp h
      exact .starts i rest task hr ha ht
    · cases h
      exact .waits i rest hr (Bool.eq_false_iff.mpr ha)
  · rename_i i rest hr
    obtain ⟨sem, hs, h⟩ := Option.bind_eq_some_iff.mp h
    obtain ⟨task, ht, rfl⟩ := Option.map_eq_some_iff.mp h
    exact .wakes i rest sem task hr hs ht
  · rename_i i rest hr
    cases h
    exact .discards i rest hr

theorem step_cases {s t : State P} {a : Action P} (h : step s a = some t) : StepTo s t := by
  cases a with
  | register kind => cases h; exact .registers kind
  | enqueue job => cases h; exact .enqueues job
  | turn => exact turn_cases h
  | handled i result =>
    obtain ⟨task, ht, h⟩ := Option.bind_eq_some_iff.mp h
    split_ifs at h with hp
    cases h
    exact .ends i task result.error ht hp
  | aclose =>
    simp only [step] at h
    split_ifs at h with hd
    cases h
    exact .asks hd
  | drained =>
    simp only [step] at h
    split at h
    · rename_i asked pending hd
      split_ifs at h with hall
      cases h
      have hnone : pending.filter (unfinished s) = [] := by
        rw [List.filter_eq_nil_iff]
        intro i hi
        simpa using List.all_eq_true.mp hall i hi
      exact hnone ▸ .returns asked pending hd
    · cases h
  | timesOut =>
    simp only [step] at h
    split at h
    · rename_i asked pending hd
      cases h
      exact .returns asked pending hd
    · cases h

end Model

end Workbench.InProcessQueue
