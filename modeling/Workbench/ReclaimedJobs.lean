import Workbench.JobQueue

namespace Workbench.JobQueue

open Transitions

variable {P Raw W D : Type} {codec : JobCodec P Raw}

def Job.retried (job : Job P) : Job P := { job with attempts := job.attempts + 1 }

def Redis.popOrder (r : Redis Raw) : List Raw := r.jobs.reverse

theorem popOrder_blmove (r : Redis Raw) :
    r.popOrder = match r.blmove with
      | none => []
      | some (raw, rest) => raw :: rest.popOrder := by
  rcases List.eq_nil_or_concat' r.jobs with hnil | ⟨front, raw, hjobs⟩
  · simp [Redis.popOrder, Redis.blmove, hnil]
  · simp [Redis.popOrder, Redis.blmove, hjobs]

inductive Filled : Redis Raw → List Raw → Prop
  | fresh {r : Redis Raw} (hp : r.processing = []) : Filled r []
  | pops {r rest : Redis Raw} {popped : List Raw} {raw : Raw} (h : Filled r popped)
      (hb : r.blmove = some (raw, rest)) : Filled rest (popped ++ [raw])
  | acks [DecidableEq Raw] {r : Redis Raw} {popped : List Raw} (h : Filled r popped) (raw : Raw) :
      Filled (r.lremProcessing raw) (popped.reverse.erase raw).reverse
  | others {r r' : Redis Raw} {popped : List Raw} (h : Filled r popped)
      (hp : r'.processing = r.processing) : Filled r' popped

theorem Filled.processing {r : Redis Raw} {popped : List Raw} (h : Filled r popped) :
    r.processing = popped.reverse := by
  induction h with
  | fresh hp => exact hp
  | pops h hb ih =>
    obtain ⟨raw, -, hmoved⟩ := Option.map_eq_some_iff.mp hb
    cases hmoved
    simp [ih]
  | acks h raw ih => simp [Redis.lremProcessing, ih]
  | others h hp ih => rw [hp, ih]

variable [DecidableEq W] [DecidableEq D] [DecidableEq Raw]

theorem kindPattern_demo : kindPattern "demo" = true := by decide

def echoJob (runId : String) (attempts : ℤ) (h : runIdPattern runId = true) : Job Unit :=
  ⟨"demo", runId, (), attempts, kindPattern_demo, h⟩

end Workbench.JobQueue
