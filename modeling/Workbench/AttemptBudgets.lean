import Workbench.JobConservation
import Mathlib.Algebra.Order.BigOperators.Group.List
import Mathlib.Algebra.Order.Group.Nat

namespace Workbench.JobQueue

open Transitions

variable {P Raw W D : Type} {codec : JobCodec P Raw} {k : String}

def attemptsLeft (codec : JobCodec P Raw) (k : String) (max : ℤ) (raw : Raw) : ℕ :=
  match codec.validate raw with
  | some job => if job.runId = k then (max - job.attempts).toNat else 0
  | none => 0

/-- How often payloads of the run can still be popped: one that is listed once more than one that a
`reclaim` has yet to push. -/
def popsLeft (codec : JobCodec P Raw) (k : String) (q : State W D P Raw) : ℕ :=
  (q.redis.jobs.map (attemptsLeft codec k (maxAttempts + 1))).sum +
    (q.redis.processing.map (attemptsLeft codec k maxAttempts)).sum +
    (q.inLimbo.map (attemptsLeft codec k maxAttempts)).sum

def Unqueued (q : State W D P Raw) (k : String) : Prop := ∀ job ∈ q.enqueued, job.runId ≠ k

instance (q : State W D P Raw) (k : String) : Decidable (Unqueued q k) :=
  inferInstanceAs (Decidable (∀ job ∈ _, _))

def budget (codec : JobCodec P Raw) (k : String) (q : State W D P Raw) : ℕ :=
  popsLeft codec k q + if Unqueued q k then maxAttempts.toNat + 1 else 0

def EnqueuesFirst (k : String) (q : State W D P Raw) : Action W D P → Prop
  | .enqueue job => job.attempts = 0 ∧ (job.runId = k → Unqueued q k)
  | _ => True

theorem attemptsLeft_dump (job : Job P) (max : ℤ) : attemptsLeft codec k max (codec.dump job) =
    if job.runId = k then (max - job.attempts).toNat else 0 := by
  simp [attemptsLeft, codec.validate_dump]

theorem attemptsLeft_popped (k : String) {raw : Raw} (h : ∀ job ∈ codec.validate raw, job.attempts ≤ maxAttempts) :
    attemptsLeft codec k (maxAttempts + 1) raw = attemptsLeft codec k maxAttempts raw +
      if ∃ job ∈ codec.validate raw, job.runId = k then 1 else 0 := by
  unfold attemptsLeft
  cases hv : codec.validate raw with
  | none => simp
  | some job =>
    have hle := h job hv
    by_cases hk : job.runId = k
    · simp only [hk, if_true, Option.mem_def, Option.some.injEq, exists_eq_left', maxAttempts] at hle ⊢
      omega
    · simp [hk]

theorem attemptsLeft_reclaimPush (codec : JobCodec P Raw) (k : String) (r : Redis Raw) (raw : Raw) :
    ((reclaimPush codec r raw).1.jobs.map (attemptsLeft codec k (maxAttempts + 1))).sum ≤
      (r.jobs.map (attemptsLeft codec k (maxAttempts + 1))).sum + attemptsLeft codec k maxAttempts raw := by
  unfold reclaimPush
  cases hv : codec.validate raw with
  | none => simp [Redis.rpushDead]
  | some job =>
    simp only
    split_ifs
    · simp [Redis.rpushDead]
    · simp only [Redis.rpushJobs, List.map_append, List.map_cons, List.map_nil, List.sum_append,
        List.sum_cons, List.sum_nil, attemptsLeft_dump]
      simp only [attemptsLeft, hv]
      split_ifs <;> omega

theorem attemptsLeft_le_sum (codec : JobCodec P Raw) (k : String) (max : ℤ) {raw : Raw} {raws : List Raw} (h : raw ∈ raws) :
    attemptsLeft codec k max raw ≤ (raws.map (attemptsLeft codec k max)).sum :=
  List.le_sum_of_mem (List.mem_map_of_mem h)

theorem popsLeft_queued {q : State W D P Raw} {raw : Raw} {job : Job P} (hr : raw ∈ q.redis.jobs)
    (hv : codec.validate raw = some job) (hk : job.runId = k) (hle : job.attempts ≤ maxAttempts) :
    0 < popsLeft codec k q := by
  have hsum := attemptsLeft_le_sum codec k (maxAttempts + 1) hr
  have hleft : 0 < attemptsLeft codec k (maxAttempts + 1) raw := by
    simp only [attemptsLeft, hv, hk, if_true, maxAttempts] at hle ⊢
    omega
  simp only [popsLeft]
  omega

theorem popsLeft_taken {q : State W D P Raw} {raw : Raw} {job : Job P}
    (hv : codec.validate raw = some job) (hk : job.runId = k) (hlt : job.attempts < maxAttempts)
    (hr : raw ∈ q.redis.processing ∨ raw ∈ q.inLimbo) : 0 < popsLeft codec k q := by
  have hleft : 0 < attemptsLeft codec k maxAttempts raw := by
    simp only [attemptsLeft, hv, hk, if_true, maxAttempts] at hlt ⊢
    omega
  simp only [popsLeft]
  rcases hr with hr | hr
  · have hsum := attemptsLeft_le_sum codec k maxAttempts hr
    omega
  · have hsum := attemptsLeft_le_sum codec k maxAttempts hr
    omega

theorem sum_erase_le [DecidableEq Raw] (f : Raw → ℕ) (raws : List Raw) (raw : Raw) :
    ((raws.erase raw).map f).sum ≤ (raws.map f).sum := by
  by_cases hmem : raw ∈ raws
  · rw [((List.perm_cons_erase hmem).map f).sum_nat]
    simp
  · rw [List.erase_of_not_mem hmem]

variable [DecidableEq W] [DecidableEq D] [DecidableEq Raw] {q q' : State W D P Raw}

theorem budget_step {a : Action W D P} (hs : step codec q a = some q') (ha : EnqueuesFirst k q a)
    (hheld : ∀ w raw, q.workers w = .holding raw → (w, raw) ∈ q.limbo)
    (hqueued : ∀ raw ∈ q.redis.jobs, ∀ job ∈ codec.validate raw, job.attempts ≤ maxAttempts) :
    budget codec k q' ≤ budget codec k q ∧
      ∀ w d p, a = .pop w d → q'.deliveries d = some p →
        (∃ job ∈ codec.validate p.2, job.runId = k) → budget codec k q' + 1 ≤ budget codec k q := by
  cases step_cases hs with
  | enqueue job =>
    obtain ⟨hnew, hfirst⟩ := ha
    refine ⟨?_, by simp⟩
    have hadded : popsLeft codec k { q with
        redis := q.redis.lpushJobs (codec.dump job), enqueued := job :: q.enqueued } =
        popsLeft codec k q + if job.runId = k then maxAttempts.toNat + 1 else 0 := by
      simp only [popsLeft, State.inLimbo, Redis.lpushJobs, List.map_cons, List.sum_cons,
        attemptsLeft_dump, hnew, maxAttempts]
      split_ifs <;> omega
    rw [budget, budget, hadded]
    by_cases hk : job.runId = k
    · rw [if_pos hk, if_pos (hfirst hk), if_neg (by simp [Unqueued, hk])]
      omega
    · have hsame : Unqueued { q with
          redis := q.redis.lpushJobs (codec.dump job), enqueued := job :: q.enqueued } k ↔
          Unqueued q k := by simp [Unqueued, hk]
      simp [hk, hsame]
  | start w hw => exact ⟨le_rfl, by simp⟩
  | reclaimed w hw hnil => exact ⟨le_rfl, by simp⟩
  | reclaimPop w raw rest hw hproc =>
    refine ⟨?_, by simp⟩
    simp only [budget, popsLeft, State.inLimbo, hproc, List.map_cons, List.sum_cons]
    change _ + (if Unqueued q k then _ else _) ≤ _
    omega
  | reclaimPush w raw hw =>
    refine ⟨?_, by simp⟩
    have hpush := attemptsLeft_reclaimPush codec k q.redis raw
    have hlimbo : (q.inLimbo.map (attemptsLeft codec k maxAttempts)).sum =
        attemptsLeft codec k maxAttempts raw +
          (((q.limbo.erase (w, raw)).map Prod.snd).map (attemptsLeft codec k maxAttempts)).sum := by
      have hperm := ((List.perm_cons_erase (hheld w raw hw)).map Prod.snd).map
        (attemptsLeft codec k maxAttempts)
      rw [State.inLimbo, hperm.sum_nat]
      rfl
    simp only [budget, popsLeft, hlimbo, reclaimPush_processing]
    change _ + _ + _ + (if Unqueued q k then _ else _) ≤ _
    simp only [State.inLimbo]
    omega
  | pop w d raw rest hw hd hjobs =>
    have hleft := attemptsLeft_popped k (hqueued raw (by simp [hjobs]))
    have hpopped : budget codec k { q with
        redis := { q.redis with jobs := rest, processing := raw :: q.redis.processing }
        deliveries := Function.update q.deliveries d (some (w, raw)) } +
        (if ∃ job ∈ codec.validate raw, job.runId = k then 1 else 0) = budget codec k q := by
      simp only [budget, popsLeft, State.inLimbo, hjobs, List.map_append, List.map_cons, List.map_nil,
        List.sum_append, List.sum_cons, List.sum_nil, hleft]
      change _ + (if Unqueued q k then _ else _) + _ = _
      omega
    refine ⟨by omega, ?_⟩
    rintro w' d' p ⟨⟩ hp hk
    obtain rfl : (w, raw) = p := by simpa using hp
    rw [if_pos hk] at hpopped
    exact hpopped.le
  | ack d w raw hd =>
    refine ⟨?_, by simp⟩
    have hless := sum_erase_le (attemptsLeft codec k maxAttempts) q.redis.processing raw
    simp only [budget, popsLeft, State.inLimbo, Redis.lremProcessing]
    change _ + (if Unqueued q k then _ else _) ≤ _
    omega
  | crash w => exact ⟨le_rfl, by simp⟩

theorem queued_of_step {a : Action W D P} (hs : step codec q a = some q')
    (h : ∀ raw ∈ q.redis.jobs, ∀ job ∈ codec.validate raw, job.attempts ≤ maxAttempts)
    (ha : ∀ job, a = .enqueue job → job.attempts ≤ maxAttempts) :
    ∀ raw ∈ q'.redis.jobs, ∀ job ∈ codec.validate raw, job.attempts ≤ maxAttempts := by
  cases step_cases hs with
  | enqueue new =>
    intro raw hr job hv
    rcases List.mem_cons.mp hr with rfl | hold
    · obtain rfl : new = job := Option.some.inj ((codec.validate_dump new).symm.trans hv)
      exact ha new rfl
    · exact h raw hold job hv
  | reclaimPush w popped hw =>
    intro raw hr job hv
    unfold reclaimPush at hr
    split at hr
    · exact h raw hr job hv
    · simp only at hr
      split_ifs at hr with hmax
      · exact h raw hr job hv
      · rcases List.mem_append.mp hr with hold | hnew
        · exact h raw hold job hv
        · obtain rfl := List.mem_singleton.mp hnew
          rw [codec.validate_dump] at hv
          obtain rfl := Option.some.inj hv
          exact not_lt.mp hmax
  | pop w d popped rest hw hd hjobs =>
    exact fun raw hr => h raw (hjobs ▸ List.mem_append_left _ hr)
  | _ => exact h

end Workbench.JobQueue
