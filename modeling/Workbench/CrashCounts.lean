import Workbench.HeldJobs
import Workbench.JobConservation
import Mathlib.Data.Fintype.Card

namespace Workbench.JobQueue

open Transitions

variable {P Raw W D : Type} {codec : JobCodec P Raw} {b : Job P} {n : ℕ}

def CrashesOn (codec : JobCodec P Raw) (b : Job P) (s : State W D P Raw) : Action W D P → Prop
  | .crash w => ∃ d raw, s.deliveries d = some (w, raw) ∧
      ∃ job ∈ codec.validate raw, job.bare = b.bare
  | _ => False

/-- The payload, if it is the job's, has at least `slack` attempts left out of `n`. -/
def Spares (codec : JobCodec P Raw) (b : Job P) (n : ℕ) (slack : ℤ) (raw : Raw) : Prop :=
  ∀ job ∈ codec.validate raw, job.bare = b.bare → job.attempts + slack ≤ n

theorem Spares.mono {m : ℕ} {slack : ℤ} {raw : Raw} (h : Spares codec b n slack raw) (hm : n ≤ m) :
    Spares codec b m slack raw := by
  intro job hv hb
  have hle := h job hv hb
  omega

theorem Spares.dump {job : Job P} {slack : ℤ} (h : job.bare = b.bare → job.attempts + slack ≤ n) :
    Spares codec b n slack (codec.dump job) := by
  intro job' hv
  obtain rfl : job = job' := Option.some.inj ((codec.validate_dump job).symm.trans hv)
  exact h

variable [DecidableEq W] [DecidableEq D] [DecidableEq Raw] {s t : State W D P Raw}

def Covered (s : State W D P Raw) (raw : Raw) : Prop :=
  ∃ live : List D, live.Nodup ∧ (∀ d ∈ live, ∃ w, s.deliveries d = some (w, raw)) ∧
    s.redis.processing.count raw ≤ live.length

/-- The job's attempts are so many crashes at most; one fewer where no live worker has it. -/
structure Charged (codec : JobCodec P Raw) (b : Job P) (s : State W D P Raw) (n : ℕ) : Prop where
  jobs : ∀ raw ∈ s.redis.jobs, Spares codec b n 0 raw
  processing : ∀ raw ∈ s.redis.processing, Spares codec b n 0 raw
  delivered : ∀ d w raw, s.deliveries d = some (w, raw) → Spares codec b n 0 raw
  orphaned : ∀ raw, Covered s raw ∨ Spares codec b n 1 raw
  holding : ∀ w raw, s.workers w = .holding raw → Spares codec b n 1 raw
  dead : ∀ raw ∈ s.redis.dead, Spares codec b n 0 raw ∧
    ∀ job ∈ codec.validate raw, maxAttempts < job.attempts

/-- New jobs have no attempts, and a `reclaim` takes a payload of which some copy in the processing
list has no live worker. -/
def OrphansOnly (s : State W D P Raw) : Action W D P → Prop
  | .enqueue job => job.attempts = 0
  | .reclaimPop _ => ∀ raw ∈ s.redis.processing.head?, ¬ Covered s raw
  | _ => True

omit [DecidableEq W] [DecidableEq D] in
theorem Covered.less {raw : Raw} (h : Covered s raw)
    (hd : ∀ d w, s.deliveries d = some (w, raw) → t.deliveries d = some (w, raw))
    (hc : t.redis.processing.count raw ≤ s.redis.processing.count raw) : Covered t raw := by
  obtain ⟨live, hnodup, hlive, hcount⟩ := h
  refine ⟨live, hnodup, fun d hd' => ?_, hc.trans hcount⟩
  obtain ⟨w, hw⟩ := hlive d hd'
  exact ⟨w, hd d w hw⟩

omit [DecidableEq W] in
theorem Covered.pop {w : W} {d : D} {raw popped : Raw} {rest : List Raw}
    (h : Covered s raw) (hd : s.deliveries d = none) : Covered { s with
      redis := { s.redis with jobs := rest, processing := popped :: s.redis.processing }
      deliveries := Function.update s.deliveries d (some (w, popped)) } raw := by
  obtain ⟨live, hnodup, hlive, hcount⟩ := h
  have hnew : d ∉ live := by
    intro hmem
    obtain ⟨v, hv⟩ := hlive d hmem
    simp [hd] at hv
  have hkept : ∀ d' ∈ live, ∃ v, Function.update s.deliveries d (some (w, popped)) d' = some (v, raw) := by
    intro d' hmem
    obtain ⟨v, hv⟩ := hlive d' hmem
    have hne : d' ≠ d := by
      rintro rfl
      exact hnew hmem
    exact ⟨v, (Function.update_of_ne hne _ _).trans hv⟩
  by_cases hp : popped = raw
  · subst hp
    refine ⟨d :: live, List.nodup_cons.mpr ⟨hnew, hnodup⟩, fun d' hmem => ?_, ?_⟩
    · rcases List.mem_cons.mp hmem with rfl | hmem
      · exact ⟨w, Function.update_self ..⟩
      · exact hkept d' hmem
    · simpa using hcount
  · exact ⟨live, hnodup, hkept, by simpa [List.count_cons, hp] using hcount⟩

omit [DecidableEq W] in
theorem Covered.ack {w : W} {d : D} {raw acked : Raw} (h : Covered s raw)
    (hd : s.deliveries d = some (w, acked)) (acks : List Raw) : Covered { s with
      redis := s.redis.lremProcessing acked
      deliveries := Function.update s.deliveries d none
      acked := acks } raw := by
  obtain ⟨live, hnodup, hlive, hcount⟩ := h
  refine ⟨live.erase d, hnodup.erase d, fun d' hmem => ?_, ?_⟩
  · obtain ⟨v, hv⟩ := hlive d' (List.mem_of_mem_erase hmem)
    exact ⟨v, (Function.update_of_ne (fun he => hnodup.not_mem_erase (he ▸ hmem)) _ _).trans hv⟩
  · by_cases hmem : d ∈ live
    · obtain ⟨v, hv⟩ := hlive d hmem
      obtain rfl : acked = raw := by simpa [hd] using congrArg (Option.map Prod.snd) hv
      simp only [Redis.lremProcessing, List.count_erase_self, List.length_erase_of_mem hmem]
      omega
    · rw [List.erase_of_not_mem hmem]
      exact (List.Sublist.count_le _ List.erase_sublist).trans hcount

omit [DecidableEq Raw] in
theorem Spares.reclaimPush (r : Redis Raw) {raw : Raw} (h : Spares codec b n 1 raw) :
    (∀ q ∈ (reclaimPush codec r raw).1.jobs, q ∈ r.jobs ∨ Spares codec b n 0 q) ∧
    ∀ q ∈ (JobQueue.reclaimPush codec r raw).1.dead, q ∈ r.dead ∨ Spares codec b n 0 q ∧
      ∀ job ∈ codec.validate q, maxAttempts < job.attempts := by
  unfold JobQueue.reclaimPush
  cases hv : codec.validate raw with
  | none =>
    refine ⟨fun q hq => .inl hq, fun q hq => ?_⟩
    rcases List.mem_append.mp hq with hq | hq
    · exact .inl hq
    · obtain rfl := List.mem_singleton.mp hq
      exact .inr ⟨fun job hj => by simp [hv] at hj, fun job hj => by simp [hv] at hj⟩
  | some job =>
    have hpushed : Spares codec b n 0 (codec.dump { job with attempts := job.attempts + 1 }) :=
      Spares.dump fun hb => by simpa using h job hv hb
    simp only
    split_ifs with hmax
    · refine ⟨fun q hq => .inl hq, fun q hq => ?_⟩
      rcases List.mem_append.mp hq with hq | hq
      · exact .inl hq
      · obtain rfl := List.mem_singleton.mp hq
        refine .inr ⟨hpushed, fun job' hv' => ?_⟩
        rw [codec.validate_dump] at hv'
        obtain rfl := Option.some.inj hv'
        exact hmax
    · refine ⟨fun q hq => ?_, fun q hq => .inl hq⟩
      rcases List.mem_append.mp hq with hq | hq
      · exact .inl hq
      · obtain rfl := List.mem_singleton.mp hq
        exact .inr hpushed

theorem Charged.step_quiet {a : Action W D P} (h : Charged codec b s n) (hg : OrphansOnly s a)
    (hs : JobQueue.step codec s a = some t) (hcrash : ∀ w, a ≠ .crash w) : Charged codec b t n := by
  cases step_cases hs with
  | enqueue job =>
    have hnew : Spares codec b n 0 (codec.dump job) := by
      apply Spares.dump
      intro _
      rw [show job.attempts = 0 from hg]
      omega
    refine ⟨fun raw hr => ?_, h.processing, h.delivered, h.orphaned, h.holding, h.dead⟩
    rcases List.mem_cons.mp hr with rfl | hold
    · exact hnew
    · exact h.jobs raw hold
  | start w hw =>
    exact ⟨h.jobs, h.processing, h.delivered, h.orphaned,
      fun v raw hv => h.holding v raw (holding_of_update (by simp) hv).2, h.dead⟩
  | reclaimed w hw hnil =>
    exact ⟨h.jobs, h.processing, h.delivered, h.orphaned,
      fun v raw hv => h.holding v raw (holding_of_update (by simp) hv).2, h.dead⟩
  | reclaimPop w raw rest hw hproc =>
    have horphan : Spares codec b n 1 raw :=
      (h.orphaned raw).resolve_left (hg raw (by simp [hproc]))
    refine ⟨h.jobs, fun raw' hr => h.processing raw' (hproc ▸ List.mem_cons_of_mem _ hr), h.delivered,
      fun raw' => ?_, fun v raw' hv => ?_, h.dead⟩
    · refine (h.orphaned raw').imp_left fun hcovered => hcovered.less (fun _ _ hd => hd) ?_
      rw [hproc]
      exact List.Sublist.count_le _ (List.sublist_cons_self raw rest)
    · simp only [Function.update_apply] at hv
      split_ifs at hv
      · cases hv
        exact horphan
      · exact h.holding v raw' hv
  | reclaimPush w raw hw =>
    obtain ⟨hjobs, hdead⟩ := Spares.reclaimPush s.redis (h.holding w raw hw)
    refine ⟨fun raw' hr => (hjobs raw' hr).elim (h.jobs raw') id, ?_, h.delivered, fun raw' => ?_,
      fun v raw' hv => h.holding v raw' (holding_of_update (by simp) hv).2, ?_⟩
    · rw [reclaimPush_processing]
      exact h.processing
    · refine (h.orphaned raw').imp_left fun hcovered => hcovered.less (fun _ _ hd => hd) ?_
      rw [reclaimPush_processing]
    · exact fun raw' hr => (hdead raw' hr).elim (h.dead raw') id
  | pop w d raw rest hw hd hjobs =>
    have hpopped : Spares codec b n 0 raw := h.jobs raw (by simp [hjobs])
    refine ⟨fun raw' hr => h.jobs raw' (hjobs ▸ List.mem_append_left _ hr), fun raw' hr => ?_,
      fun d' w' raw' hd' => ?_, fun raw' => (h.orphaned raw').imp_left fun hc => hc.pop hd, h.holding, h.dead⟩
    · rcases List.mem_cons.mp hr with rfl | hold
      · exact hpopped
      · exact h.processing raw' hold
    · rcases update_some_eq_some hd' with ⟨_, he⟩ | ⟨_, hd'⟩
      · cases he
        exact hpopped
      · exact h.delivered d' w' raw' hd'
  | ack d w raw hd =>
    refine ⟨h.jobs, fun raw' hr => h.processing raw' (List.mem_of_mem_erase hr),
      fun d' w' raw' hd' => ?_, fun raw' => (h.orphaned raw').imp_left fun hc => hc.ack hd _, h.holding, h.dead⟩
    exact h.delivered d' w' raw' (update_none_eq_some hd').2
  | crash w => exact absurd rfl (hcrash w)

theorem Charged.crash {w : W} {m : ℕ} (h : Charged codec b s n)
    (hs : JobQueue.step codec s (.crash w) = some t)
    (hm : CrashesOn codec b s (.crash w) ∧ m = n + 1 ∨ ¬ CrashesOn codec b s (.crash w) ∧ m = n) :
    Charged codec b t m := by
  have hle : n ≤ m := by omega
  cases step_cases hs with
  | crash =>
    refine ⟨fun raw hr => (h.jobs raw hr).mono hle, fun raw hr => (h.processing raw hr).mono hle,
      fun d v raw hd => (h.delivered d v raw (Option.filter_eq_some_iff.mp hd).1).mono hle,
      fun raw => ?_, fun v raw hv => (h.holding v raw (holding_of_update (by simp) hv).2).mono hle,
      fun raw hr => ⟨(h.dead raw hr).1.mono hle, (h.dead raw hr).2⟩⟩
    by_cases hlost : ∃ d, s.deliveries d = some (w, raw)
    · obtain ⟨d, hd⟩ := hlost
      refine .inr fun job hv hb => ?_
      have hhit : CrashesOn codec b s (.crash w) := ⟨d, raw, hd, job, hv, hb⟩
      have hspare := h.delivered d w raw hd job hv hb
      have hm := (hm.resolve_right fun hn => hn.1 hhit).2
      omega
    · refine (h.orphaned raw).imp (fun hcovered => hcovered.less (fun d v hd => ?_) le_rfl)
        fun hspare => hspare.mono hle
      have hne : v ≠ w := by
        rintro rfl
        exact hlost ⟨d, hd⟩
      simp [hd, hne]

theorem Charged.step {a : Action W D P} {m : ℕ} (h : Charged codec b s n) (hg : OrphansOnly s a)
    (hs : JobQueue.step codec s a = some t)
    (hm : CrashesOn codec b s a ∧ m = n + 1 ∨ ¬ CrashesOn codec b s a ∧ m = n) :
    Charged codec b t m := by
  by_cases hcrash : ∃ w, a = .crash w
  · obtain ⟨w, rfl⟩ := hcrash
    exact h.crash hs hm
  · have hquiet : ∀ w, a ≠ .crash w := fun w hw => hcrash ⟨w, hw⟩
    have hmiss : ¬ CrashesOn codec b s a := by
      cases a with
      | crash w => exact absurd rfl (hquiet w)
      | _ => exact id
    obtain rfl := (hm.resolve_left fun hn => hmiss hn.1).2
    exact h.step_quiet hg hs hquiet

theorem held_attempts {a : Action W D P} (hg : OrphansOnly s a)
    (hs : JobQueue.step codec s a = some t)
    (h : ∀ raw, Held s raw → ∀ job ∈ codec.validate raw, 0 ≤ job.attempts) {raw : Raw}
    (hheld : Held t raw) : ∀ job ∈ codec.validate raw, 0 ≤ job.attempts := by
  intro job hv
  rcases held_of_step hs hheld with hold | ⟨new, rfl, rfl⟩ | ⟨popped, old, hold, hv', rfl⟩
  · exact h raw hold job hv
  · obtain rfl : new = job := Option.some.inj ((codec.validate_dump new).symm.trans hv)
    exact (show new.attempts = 0 from hg).ge
  · have hle := h popped hold old hv'
    rw [codec.validate_dump] at hv
    obtain rfl := Option.some.inj hv
    change 0 ≤ old.attempts + 1
    omega

omit [DecidableEq W] [DecidableEq D] in
theorem charged_idle : Charged codec b (idle W D P Raw) 0 where
  jobs _ h := by cases h
  processing _ h := by cases h
  delivered _ _ _ h := by cases h
  orphaned raw := .inl ⟨[], List.nodup_nil, fun _ h => (by cases h), by simp [idle]⟩
  holding _ _ h := by cases h
  dead _ h := by cases h

/-- Where `reclaim` takes orphans only, the attempts of a job are so many crashes at most, and a job
no holder of which has crashed is neither taken by a `reclaim` nor dead. -/
theorem attempts_count_crashes [∀ s a, Decidable (CrashesOn (W := W) (D := D) codec b s a)]
    (h : Reaches (counted (JobQueue.step codec) (CrashesOn codec b)) (fun s a => OrphansOnly s.1 a)
      (idle W D P Raw, 0) (s, n)) {raw : Raw} {job : Job P} (hv : codec.validate raw = some job)
    (hb : job.bare = b.bare) :
    (raw ∈ s.redis.jobs ++ s.redis.processing ++ s.redis.dead → job.attempts ≤ n) ∧
      (∀ w, s.workers w = .holding raw → 0 < n) ∧ (raw ∈ s.redis.dead → 0 < n) := by
  have hidle : ∀ raw, Held (idle W D P Raw) raw → ∀ job ∈ codec.validate raw, 0 ≤ job.attempts := by
    rintro raw (⟨⟨⟩⟩ | ⟨⟨⟩⟩ | ⟨w, ⟨⟩⟩ | ⟨d, w, ⟨⟩⟩)
  have hinv : Charged codec b s n ∧
      ∀ raw, Held s raw → ∀ job ∈ codec.validate raw, 0 ≤ job.attempts := by
    refine h.invariant (I := fun u => Charged codec b u.1 u.2 ∧
      ∀ raw, Held u.1 raw → ∀ job ∈ codec.validate raw, 0 ≤ job.attempts)
      ⟨charged_idle, hidle⟩ fun u a v hu hg hs => ?_
    obtain ⟨hstep, hcount⟩ := counted_cases hs
    exact ⟨hu.1.step hg hstep hcount, fun raw => held_attempts hg hstep hu.2⟩
  obtain ⟨hcharged, hcounts⟩ := hinv
  refine ⟨fun hr => ?_, fun w hw => ?_, fun hr => ?_⟩
  · have hspare : Spares codec b n 0 raw := by
      simp only [List.mem_append] at hr
      rcases hr with (hj | hp) | hd
      · exact hcharged.jobs raw hj
      · exact hcharged.processing raw hp
      · exact (hcharged.dead raw hd).1
    have hle := hspare job hv hb
    omega
  · have hspare := hcharged.holding w raw hw job hv hb
    have hnonneg := hcounts raw (.inr (.inr (.inl ⟨w, hw⟩))) job hv
    omega
  · obtain ⟨hspare, hmax⟩ := hcharged.dead raw hr
    have hle := hspare job hv hb
    have hlt := hmax job hv
    simp only [maxAttempts] at hlt
    omega

section Decidable

variable [Fintype D] [DecidableEq P]

instance (s : State W D P Raw) (a : Action W D P) : Decidable (CrashesOn codec b s a) :=
  match a with
  | .crash w => decidable_of_iff (∃ d, ∃ p ∈ s.deliveries d, p.1 = w ∧
      ∃ job ∈ codec.validate p.2, job.bare = b.bare) (by simp [CrashesOn])
  | .enqueue _ | .start _ | .reclaimPop _ | .reclaimPush _ | .pop _ _ | .ack _ => isFalse id

instance (s : State W D P Raw) (raw : Raw) : Decidable (Covered s raw) :=
  decidable_of_iff (s.redis.processing.count raw ≤
      (Finset.univ.filter fun d => (s.deliveries d).map Prod.snd = some raw).card) (by
    constructor
    · intro h
      refine ⟨_, Finset.nodup_toList _, fun d hd => ?_, by rwa [Finset.length_toList]⟩
      simpa using hd
    · rintro ⟨live, hnodup, hlive, hcount⟩
      apply hcount.trans
      rw [← List.toFinset_card_of_nodup hnodup]
      apply Finset.card_le_card
      intro d hd
      simpa using hlive d (List.mem_toFinset.mp hd))

instance (s : State W D P Raw) (a : Action W D P) : Decidable (OrphansOnly s a) :=
  match a with
  | .enqueue job => inferInstanceAs (Decidable (job.attempts = 0))
  | .reclaimPop _ => inferInstanceAs (Decidable (∀ raw ∈ s.redis.processing.head?, ¬ Covered s raw))
  | .start _ | .reclaimPush _ | .pop _ _ | .ack _ | .crash _ => isTrue trivial

end Decidable

def demoJob : Job Unit := ⟨"demo", "r1", (), 0, by decide, by decide⟩

def startedBeside : List (Action (Fin 2) (Fin 1) Unit) :=
  [.start 0, .reclaimPop 0, .enqueue demoJob, .pop 0 0, .start 1, .reclaimPop 1, .reclaimPush 1]

theorem reclaim_counts_without_crash :
    ∃ s ∈ exec (counted (JobQueue.step (jobCodec Unit)) (CrashesOn (jobCodec Unit) demoJob))
      (idle (Fin 2) (Fin 1) Unit _, 0) startedBeside, s.2 = 0 ∧ ∃ raw ∈ s.1.redis.jobs,
        ∃ job ∈ (jobCodec Unit).validate raw, job.bare = demoJob.bare ∧ job.attempts = 1 := by
  decide

def restartedAfterCrash : List (Action (Fin 2) (Fin 1) Unit) :=
  [.start 0, .reclaimPop 0, .enqueue demoJob, .pop 0 0, .crash 0, .start 0, .reclaimPop 0,
    .reclaimPush 0]

theorem attempts_count_crashes_once :
    ∃ s ∈ exec (counted (JobQueue.step (jobCodec Unit)) (CrashesOn (jobCodec Unit) demoJob))
      (idle (Fin 2) (Fin 1) Unit _, 0) restartedAfterCrash,
      ∃ raw ∈ s.1.redis.jobs, ∃ job ∈ (jobCodec Unit).validate raw, job.attempts ≤ s.2 := by
  have hrun : ∃ s ∈ exec (counted (JobQueue.step (jobCodec Unit)) (CrashesOn (jobCodec Unit) demoJob))
      (idle (Fin 2) (Fin 1) Unit _, 0) restartedAfterCrash,
      Obeys (counted (JobQueue.step (jobCodec Unit)) (CrashesOn (jobCodec Unit) demoJob))
        (fun s a => OrphansOnly s.1 a) (idle (Fin 2) (Fin 1) Unit _, 0) restartedAfterCrash ∧
      ∃ raw ∈ s.1.redis.jobs, ∃ job ∈ (jobCodec Unit).validate raw, job.bare = demoJob.bare := by
    decide
  obtain ⟨⟨s, n⟩, hs, hobeys, raw, hraw, job, hv, hb⟩ := hrun
  exact ⟨(s, n), hs, raw, hraw, job, hv,
    (attempts_count_crashes (reaches_of_exec hs hobeys) hv hb).1 (by simp [hraw])⟩

end Workbench.JobQueue
