import Workbench.JobQueue

namespace Workbench.JobQueue

open Transitions

variable {P Raw W D : Type} {codec : JobCodec P Raw}

def Held (q : State W D P Raw) (raw : Raw) : Prop :=
  raw ∈ q.redis.jobs ∨ raw ∈ q.redis.processing ∨ (∃ w, q.workers w = .holding raw) ∨
    ∃ d w, q.deliveries d = some (w, raw)

def Names (codec : JobCodec P Raw) (q : State W D P Raw) (runs : String → Prop) : Prop :=
  ∀ raw job, Held q raw → codec.validate raw = some job → runs job.runId

variable [DecidableEq W] [DecidableEq D] [DecidableEq Raw] {q q' : State W D P Raw}
  {runs : String → Prop}

omit [DecidableEq Raw] in
theorem reclaimPush_jobs {r : Redis Raw} {raw raw' : Raw}
    (h : raw' ∈ (reclaimPush codec r raw).1.jobs) : raw' ∈ r.jobs ∨
      ∃ job, codec.validate raw = some job ∧
        raw' = codec.dump { job with attempts := job.attempts + 1 } := by
  unfold reclaimPush at h
  split at h
  · exact .inl h
  · rename_i job hv
    simp only at h
    split_ifs at h
    · exact .inl h
    · rcases List.mem_append.mp h with hold | hnew
      · exact .inl hold
      · exact .inr ⟨job, hv, List.mem_singleton.mp hnew⟩

theorem held_of_step {a : Action W D P} {raw : Raw} (hstep : step codec q a = some q')
    (h : Held q' raw) : Held q raw ∨ (∃ job, a = .enqueue job ∧ raw = codec.dump job) ∨
      ∃ popped job, Held q popped ∧ codec.validate popped = some job ∧
        raw = codec.dump { job with attempts := job.attempts + 1 } := by
  cases step_cases hstep with
  | enqueue job =>
    rcases h with hj | hrest
    · rcases List.mem_cons.mp hj with hnew | hold
      · exact .inr (.inl ⟨job, rfl, hnew⟩)
      · exact .inl (.inl hold)
    · exact .inl (.inr hrest)
  | start w hw =>
    rcases h with hj | hp | ⟨v, hv⟩ | hd
    · exact .inl (.inl hj)
    · exact .inl (.inr (.inl hp))
    · exact .inl (.inr (.inr (.inl ⟨v, (holding_of_update (by simp) hv).2⟩)))
    · exact .inl (.inr (.inr (.inr hd)))
  | reclaimed w hw hnil =>
    rcases h with hj | hp | ⟨v, hv⟩ | hd
    · exact .inl (.inl hj)
    · exact .inl (.inr (.inl hp))
    · exact .inl (.inr (.inr (.inl ⟨v, (holding_of_update (by simp) hv).2⟩)))
    · exact .inl (.inr (.inr (.inr hd)))
  | reclaimPop w popped rest hw hproc =>
    rcases h with hj | hp | ⟨v, hv⟩ | hd
    · exact .inl (.inl hj)
    · exact .inl (.inr (.inl (hproc ▸ List.mem_cons_of_mem _ hp)))
    · simp only [Function.update_apply] at hv
      split_ifs at hv
      · cases hv
        exact .inl (.inr (.inl (hproc ▸ List.mem_cons_self)))
      · exact .inl (.inr (.inr (.inl ⟨v, hv⟩)))
    · exact .inl (.inr (.inr (.inr hd)))
  | reclaimPush w popped hw =>
    rcases h with hj | hp | ⟨v, hv⟩ | hd
    · rcases reclaimPush_jobs hj with hold | ⟨job, hv, hraw⟩
      · exact .inl (.inl hold)
      · exact .inr (.inr ⟨popped, job, .inr (.inr (.inl ⟨w, hw⟩)), hv, hraw⟩)
    · rw [reclaimPush_processing] at hp
      exact .inl (.inr (.inl hp))
    · exact .inl (.inr (.inr (.inl ⟨v, (holding_of_update (by simp) hv).2⟩)))
    · exact .inl (.inr (.inr (.inr hd)))
  | pop w d popped rest hw hd hjobs =>
    rcases h with hj | hp | hh | ⟨d', w', hd'⟩
    · exact .inl (.inl (hjobs ▸ List.mem_append_left _ hj))
    · rcases List.mem_cons.mp hp with rfl | hold
      · exact .inl (.inl (hjobs ▸ List.mem_append_right _ (List.mem_singleton_self _)))
      · exact .inl (.inr (.inl hold))
    · exact .inl (.inr (.inr (.inl hh)))
    · rcases update_some_eq_some hd' with ⟨_, he⟩ | ⟨_, hd'⟩
      · cases he
        exact .inl (.inl (hjobs ▸ List.mem_append_right _ (List.mem_singleton_self _)))
      · exact .inl (.inr (.inr (.inr ⟨d', w', hd'⟩)))
  | ack d w acked hd =>
    rcases h with hj | hp | hh | ⟨d', w', hd'⟩
    · exact .inl (.inl hj)
    · exact .inl (.inr (.inl (List.mem_of_mem_erase hp)))
    · exact .inl (.inr (.inr (.inl hh)))
    · exact .inl (.inr (.inr (.inr ⟨d', w', (update_none_eq_some hd').2⟩)))
  | crash w =>
    rcases h with hj | hp | ⟨v, hv⟩ | ⟨d', w', hd'⟩
    · exact .inl (.inl hj)
    · exact .inl (.inr (.inl hp))
    · exact .inl (.inr (.inr (.inl ⟨v, (holding_of_update (by simp) hv).2⟩)))
    · exact .inl (.inr (.inr (.inr ⟨d', w', (Option.filter_eq_some_iff.mp hd').1⟩)))

theorem Names.step {a : Action W D P} (h : Names codec q runs) (hstep : step codec q a = some q')
    (ha : ∀ job, a = .enqueue job → runs job.runId) : Names codec q' runs := by
  intro raw job hheld hv
  rcases held_of_step hstep hheld with hold | ⟨new, rfl, rfl⟩ | ⟨popped, old, hold, hv', rfl⟩
  · exact h raw job hold hv
  · obtain rfl : new = job := Option.some.inj ((codec.validate_dump new).symm.trans hv)
    exact ha new rfl
  · rw [codec.validate_dump] at hv
    cases hv
    exact h popped old hold hv'

theorem deliveries_of_step {a : Action W D P} {d : D} {p : W × Raw}
    (hstep : step codec q a = some q') (hd : q.deliveries d = some p) :
    q'.deliveries d = some p ∨ a = .ack d ∨ a = .crash p.1 := by
  cases step_cases hstep with
  | pop w d' raw rest hw hnone hjobs =>
    have hne : d ≠ d' := by
      rintro rfl
      simp [hnone] at hd
    exact .inl ((Function.update_of_ne hne _ _).trans hd)
  | ack d' w raw hd' =>
    by_cases hne : d = d'
    · exact .inr (.inl (hne ▸ rfl))
    · exact .inl ((Function.update_of_ne hne _ _).trans hd)
  | crash w =>
    by_cases hw : p.1 = w
    · exact .inr (.inr (hw ▸ rfl))
    · exact .inl (by simp [hd, hw])
  | _ => exact .inl hd

theorem delivered_of_step {a : Action W D P} {d : D} {p : W × Raw}
    (hstep : step codec q a = some q') (hd : q'.deliveries d = some p) :
    q.deliveries d = some p ∨ ∃ w, a = .pop w d := by
  cases step_cases hstep with
  | pop w d' raw rest hw hnone hjobs =>
    by_cases hne : d = d'
    · exact .inr ⟨w, hne ▸ rfl⟩
    · exact .inl ((Function.update_of_ne hne _ _).symm.trans hd)
  | ack d' w raw hd' =>
    exact .inl (update_none_eq_some hd).2
  | crash w => exact .inl (Option.filter_eq_some_iff.mp hd).1
  | _ => exact .inl hd

end Workbench.JobQueue
