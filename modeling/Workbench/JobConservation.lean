import Workbench.JobQueue
import Mathlib.Algebra.Order.Group.Multiset
import Mathlib.Tactic.Abel

namespace Workbench.JobQueue

open Transitions

variable {P Raw W D : Type} {codec : JobCodec P Raw}

def Job.bare (job : Job P) : Job P := { job with attempts := 0 }

def bareJobs (codec : JobCodec P Raw) (raws : List Raw) : Multiset (Job P) :=
  ((raws.filterMap codec.validate).map Job.bare : List (Job P))

def State.listed (s : State W D P Raw) : List Raw :=
  s.redis.jobs ++ s.redis.processing ++ s.redis.dead

def Conserved (codec : JobCodec P Raw) (s : State W D P Raw) : Prop :=
  (s.enqueued.map Job.bare : Multiset (Job P)) ≤ bareJobs codec s.acked + bareJobs codec s.listed

@[simp] theorem bareJobs_nil : bareJobs codec [] = 0 := rfl

@[simp] theorem bareJobs_append (xs ys : List Raw) :
    bareJobs codec (xs ++ ys) = bareJobs codec xs + bareJobs codec ys := by
  simp [bareJobs]

theorem bareJobs_cons (raw : Raw) (xs : List Raw) :
    bareJobs codec (raw :: xs) = bareJobs codec [raw] + bareJobs codec xs :=
  bareJobs_append [raw] xs

theorem bareJobs_perm {xs ys : List Raw} (h : xs.Perm ys) :
    bareJobs codec xs = bareJobs codec ys :=
  Multiset.coe_eq_coe.mpr ((h.filterMap _).map _)

theorem bareJobs_dump (job : Job P) : bareJobs codec [codec.dump job] = {job.bare} := by
  simp [bareJobs, codec.validate_dump]

theorem bareJobs_erase [DecidableEq Raw] {raw : Raw} {xs : List Raw} (h : raw ∈ xs) :
    bareJobs codec xs = bareJobs codec [raw] + bareJobs codec (xs.erase raw) := by
  rw [bareJobs_perm (List.perm_cons_erase h), bareJobs_cons]

theorem bareJobs_pos {raws : List Raw} (h : ∀ raw ∈ raws, (codec.validate raw).isSome) :
    bareJobs codec raws = 0 ↔ raws = [] := by
  cases raws with
  | nil => simp
  | cons raw rest =>
    obtain ⟨job, hj⟩ := Option.isSome_iff_exists.mp (h raw (by simp))
    simp [bareJobs, hj]

theorem bareJobs_reclaimPush (r : Redis Raw) {raw : Raw} :
    bareJobs codec (reclaimPush codec r raw).1.jobs +
        bareJobs codec (reclaimPush codec r raw).1.dead =
      bareJobs codec r.jobs + bareJobs codec r.dead + bareJobs codec [raw] := by
  unfold reclaimPush
  cases hv : codec.validate raw with
  | none =>
    simp only [Redis.rpushDead, bareJobs_append]
    exact (add_assoc _ _ _).symm
  | some job =>
    have hone : bareJobs codec [codec.dump { job with attempts := job.attempts + 1 }] =
        bareJobs codec [raw] := by
      rw [bareJobs_dump]
      simp [bareJobs, hv, Job.bare]
    simp only
    split_ifs
    · simp only [Redis.rpushDead, bareJobs_append, hone]
      exact (add_assoc _ _ _).symm
    · simp only [Redis.rpushJobs, bareJobs_append, hone]
      exact add_right_comm _ _ _

def State.inLimbo (s : State W D P Raw) : List Raw := s.limbo.map Prod.snd

structure Balanced (codec : JobCodec P Raw) (s : State W D P Raw) : Prop where
  total : (s.enqueued.map Job.bare : Multiset (Job P)) =
    bareJobs codec s.acked + bareJobs codec s.listed + bareJobs codec s.inLimbo
  held : ∀ w raw, s.workers w = .holding raw → (w, raw) ∈ s.limbo
  parsed : ∀ raw ∈ s.redis.jobs ++ s.redis.processing ++ s.inLimbo, (codec.validate raw).isSome

structure Fresh (s : State W D P Raw) : Prop where
  redis : s.redis = ⟨[], [], []⟩
  workers : ∀ w raw, s.workers w ≠ .holding raw
  enqueued : s.enqueued = []
  acked : s.acked = []
  limbo : s.limbo = []

theorem Balanced.initial {s : State W D P Raw} (h : Fresh s) : Balanced codec s where
  total := by simp [State.listed, State.inLimbo, h.redis, h.enqueued, h.acked, h.limbo]
  held w raw hw := absurd hw (h.workers w raw)
  parsed := by simp [State.inLimbo, h.redis, h.limbo]

variable [DecidableEq W] [DecidableEq D] [DecidableEq Raw] {s t : State W D P Raw}

omit [DecidableEq Raw] in
theorem validate_reclaimPush {r : Redis Raw} {raw : Raw} (h : (codec.validate raw).isSome) :
    ∀ q ∈ (reclaimPush codec r raw).1.jobs, q ∈ r.jobs ∨ (codec.validate q).isSome := by
  obtain ⟨job, hj⟩ := Option.isSome_iff_exists.mp h
  intro q hq
  simp only [reclaimPush, hj] at hq
  split_ifs at hq
  · exact .inl hq
  · rcases List.mem_append.mp hq with hq | hq
    · exact .inl hq
    · obtain rfl := List.mem_singleton.mp hq
      exact .inr (by simp [codec.validate_dump])

omit [DecidableEq D] in
theorem Balanced.reclaimPush (h : Balanced codec s) {w : W} {raw : Raw}
    (hw : s.workers w = .holding raw) : Balanced codec { s with
      redis := (JobQueue.reclaimPush codec s.redis raw).1
      workers := Function.update s.workers w .reclaiming
      limbo := s.limbo.erase (w, raw) } := by
  have hmem : (w, raw) ∈ s.limbo := h.held w raw hw
  have hraw : raw ∈ s.inLimbo := List.mem_map_of_mem hmem
  have hlimbo : bareJobs codec s.inLimbo =
      bareJobs codec [raw] + bareJobs codec ((s.limbo.erase (w, raw)).map Prod.snd) := by
    rw [← bareJobs_cons]
    exact bareJobs_perm ((List.perm_cons_erase hmem).map Prod.snd)
  have hpush := @bareJobs_reclaimPush _ _ codec s.redis raw
  refine ⟨?_, ?_, ?_⟩
  · have htotal := h.total
    simp only [State.listed, bareJobs_append, reclaimPush_processing] at htotal ⊢
    rw [add_right_comm (bareJobs codec (JobQueue.reclaimPush codec s.redis raw).1.jobs), hpush,
      htotal, hlimbo, State.inLimbo]
    abel
  · intro v q hv
    obtain ⟨hne, hold⟩ := holding_of_update (by simp) hv
    exact (List.mem_erase_of_ne (by simp [hne])).mpr (h.held v q hold)
  · intro q hq
    simp only [reclaimPush_processing, List.mem_append, State.inLimbo] at hq
    rcases hq with (hq | hq) | hq
    · rcases validate_reclaimPush (h.parsed raw (by simp [hraw])) q hq with hq | hq
      · exact h.parsed q (by simp [hq])
      · exact hq
    · exact h.parsed q (by simp [hq])
    · obtain ⟨p, hp, rfl⟩ := List.mem_map.mp hq
      have hold : p.2 ∈ s.inLimbo := List.mem_map_of_mem (List.mem_of_mem_erase hp)
      exact h.parsed p.2 (by simp [hold])

theorem Balanced.step (h : Balanced codec s) {a : Action W D P} (hstep : step codec s a = some t) :
    Balanced codec t := by
  have htotal := h.total
  simp only [State.listed, bareJobs_append] at htotal
  cases step_cases hstep with
  | enqueue job =>
    refine ⟨?_, h.held, ?_⟩
    · simp only [State.listed, State.inLimbo, Redis.lpushJobs, bareJobs_append] at htotal ⊢
      rw [bareJobs_cons, bareJobs_dump, List.map_cons, ← Multiset.cons_coe, ← Multiset.singleton_add,
        htotal]
      abel
    · intro raw hraw
      simp only [Redis.lpushJobs, List.cons_append, List.mem_cons] at hraw
      rcases hraw with rfl | hraw
      · simp [codec.validate_dump]
      · exact h.parsed raw hraw
  | start w hw =>
    refine ⟨h.total, fun v raw hv => ?_, h.parsed⟩
    exact h.held v raw (holding_of_update (by simp) hv).2
  | reclaimed w hw hp =>
    refine ⟨h.total, fun v raw hv => ?_, h.parsed⟩
    exact h.held v raw (holding_of_update (by simp) hv).2
  | reclaimPop w raw rest hw hp =>
    refine ⟨?_, ?_, ?_⟩
    · simp only [State.listed, State.inLimbo, bareJobs_append, List.map_cons, hp] at htotal ⊢
      rw [bareJobs_cons raw rest] at htotal
      rw [bareJobs_cons raw (s.limbo.map Prod.snd), htotal]
      abel
    · intro v q hv
      simp only [Function.update_apply] at hv
      split_ifs at hv with heq
      · cases hv
        simp [heq]
      · exact List.mem_cons_of_mem _ (h.held v q hv)
    · intro q hq
      apply h.parsed q
      simp only [State.inLimbo, List.map_cons, List.mem_append, List.mem_cons, hp] at hq ⊢
      tauto
  | reclaimPush w raw hw => exact h.reclaimPush hw
  | pop w d raw rest hw hd hj =>
    refine ⟨?_, h.held, ?_⟩
    · simp only [State.listed, State.inLimbo, bareJobs_append, hj] at htotal ⊢
      rw [bareJobs_cons raw s.redis.processing, htotal]
      abel
    · intro q hq
      apply h.parsed q
      simp only [List.mem_append, List.mem_cons, hj, State.inLimbo] at hq ⊢
      tauto
  | ack d w raw hd =>
    refine ⟨?_, h.held, ?_⟩
    · simp only [State.listed, State.inLimbo, bareJobs_append, Redis.lremProcessing] at htotal ⊢
      split_ifs with hmem
      · rw [bareJobs_erase hmem] at htotal
        rw [bareJobs_cons raw s.acked, htotal]
        abel
      · rw [List.erase_of_not_mem hmem, htotal]
    · intro q hq
      apply h.parsed q
      simp only [Redis.lremProcessing, List.mem_append] at hq ⊢
      rcases hq with (hq | hq) | hq
      · exact .inl (.inl hq)
      · exact .inl (.inr (List.mem_of_mem_erase hq))
      · exact .inr hq
  | crash w =>
    refine ⟨h.total, fun v raw hv => ?_, h.parsed⟩
    exact h.held v raw (holding_of_update (by simp) hv).2

omit [DecidableEq W] [DecidableEq D] [DecidableEq Raw] in
theorem Balanced.conserved_iff (h : Balanced codec s) : Conserved codec s ↔ s.limbo = [] := by
  have hlimbo : bareJobs codec s.inLimbo = 0 ↔ s.limbo = [] := by
    rw [bareJobs_pos fun raw hr => h.parsed raw (by simp [hr]), State.inLimbo, List.map_eq_nil_iff]
  rw [Conserved, h.total, ← hlimbo]
  constructor
  · intro hle
    have hle : bareJobs codec s.inLimbo ≤ 0 := (add_le_iff_nonpos_right _).mp hle
    exact Multiset.le_zero.mp hle
  · intro hzero
    rw [hzero, add_zero]

/-- No `reclaim` takes a job off the processing list. -/
def ReclaimsNothing (s : State W D P Raw) : Action W D P → Prop
  | .reclaimPop _ => s.redis.processing = []
  | _ => True

instance (s : State W D P Raw) (a : Action W D P) : Decidable (ReclaimsNothing s a) := by
  cases a <;> unfold ReclaimsNothing <;> infer_instance

def ConservedThroughout (codec : JobCodec P Raw) (s : State W D P Raw)
    (as : List (Action W D P)) : Prop :=
  ∀ xs ys u, as = xs ++ ys → exec (step codec) s xs = some u → Conserved codec u

theorem limbo_of_reclaimsNothing {a : Action W D P} (hl : s.limbo = []) (ha : ReclaimsNothing s a)
    (hstep : step codec s a = some t) : t.limbo = [] := by
  cases step_cases hstep with
  | reclaimPop w raw rest hw hp =>
    rw [ReclaimsNothing, hp] at ha
    cases ha
  | reclaimPush w raw hw => simp [hl]
  | _ => exact hl

theorem reclaimsNothing_of_limbo {a : Action W D P} (hl : t.limbo = [])
    (hstep : step codec s a = some t) : ReclaimsNothing s a := by
  cases step_cases hstep with
  | reclaimPop w raw rest hw hp => cases hl
  | reclaimed w hw hp => exact hp
  | _ => trivial

theorem conserved_throughout_iff {as : List (Action W D P)} (h₀ : Fresh s)
    (h : exec (step codec) s as = some t) :
    ConservedThroughout codec s as ↔ Obeys (step codec) ReclaimsNothing s as := by
  have hbalanced : ∀ xs u, exec (step codec) s xs = some u → Balanced codec u := fun xs u hu =>
    (reaches_of_exec hu (obeys_always s xs)).invariant (.initial h₀)
      fun _ _ _ hs _ hstep => hs.step hstep
  constructor
  · intro hc
    apply obeys_iff.mpr
    intro xs a ys u has hu
    subst has
    obtain ⟨v, hv⟩ := step_of_exec h hu
    have hexec : exec (step codec) s (xs ++ [a]) = some v := by simp [exec_append, hu, exec, hv]
    have hconserved : Conserved codec v := hc (xs ++ [a]) ys v (by simp) hexec
    exact reclaimsNothing_of_limbo ((hbalanced _ v hexec).conserved_iff.mp hconserved) hv
  · rintro ho xs ys u rfl hu
    have hlimbo : u.limbo = [] := (reaches_of_exec hu (obeys_append.mp ho).1).invariant h₀.limbo
      fun _ _ _ hl ha hstep => limbo_of_reclaimsNothing hl ha hstep
    exact (hbalanced xs u hu).conserved_iff.mpr hlimbo

omit [DecidableEq W] [DecidableEq D] [DecidableEq Raw] in
theorem fresh_idle : Fresh (idle W D P Raw) := ⟨rfl, by simp [idle], rfl, rfl, rfl⟩

def firstJob : Job Unit := ⟨"autonomous", "r", (), 0, by decide, by decide⟩

/-- The second worker pops the job of the first, crashed one and crashes before its push. -/
def crashInReclaim : List (Action Bool Unit Unit) :=
  [.enqueue firstJob, .start false, .reclaimPop false, .pop false (), .crash false, .start true,
    .reclaimPop true, .crash true]

theorem crash_in_reclaim_loses :
    ¬ ConservedThroughout (jobCodec Unit) (idle Bool Unit Unit _) crashInReclaim := by
  intro h
  have hlost := Multiset.card_le_card (h crashInReclaim [] _ rfl rfl)
  exact absurd hlost (by decide)

theorem crash_in_handler_conserves :
    ConservedThroughout (jobCodec Unit) (idle Bool Unit Unit _) (crashInReclaim.take 6) := by
  have hsome : (exec (step (jobCodec Unit)) (idle Bool Unit Unit _)
      (crashInReclaim.take 6)).isSome := by decide
  obtain ⟨t, ht⟩ := Option.isSome_iff_exists.mp hsome
  exact (conserved_throughout_iff fresh_idle ht).mpr (by decide)

end Workbench.JobQueue
