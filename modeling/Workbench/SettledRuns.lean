import Workbench.RunLease
import Mathlib.Data.Fintype.Basic

namespace Workbench.RunLease

open RunStore KeyedTable Transitions

variable {D R : Type} {ttl : ℤ} {s t : State D R} {k : String}

def Finished (s : State D R) (k : String) : Prop :=
  ∃ row ∈ s.store.get k, row.status.Terminal

def Settled (s : State D R) (k : String) : Prop :=
  Finished s k ∨ ∃ d, Executes s d k

instance (s : State D R) (d : D) (k : String) : Decidable (Executes s d k) :=
  inferInstanceAs (Decidable (∃ e ∈ s.executing d, e.runId = k ∧ e.closing = false))

instance (s : State D R) (k : String) : Decidable (Finished s k) :=
  inferInstanceAs (Decidable (∃ row ∈ s.store.get k, _))

instance [Fintype D] (s : State D R) (k : String) : Decidable (Settled s k) :=
  inferInstanceAs (Decidable (_ ∨ _))

variable [DecidableEq D]

theorem known_of_step {a : Action D R} (h : step ttl s a = some t)
    (hk : (s.store.get k).isSome) : (t.store.get k).isSome := by
  obtain ⟨row, hr⟩ := Option.isSome_iff_exists.mp hk
  obtain ⟨row', hr', _⟩ := step_row h hr
  exact Option.isSome_iff_exists.mpr ⟨row', hr'⟩

theorem Finished.step {a : Action D R} (hf : Finished s k) (h : step ttl s a = some t) :
    Finished t k := by
  obtain ⟨row, hr, hterm⟩ := hf
  obtain ⟨row', hr', hrs⟩ := step_row h hr
  exact ⟨row', hr', hrs.terminal hterm⟩

theorem finished_of_finish {d : D} {outcome : Outcome R} {now : ℤ} {e : Execution}
    (h : step ttl s (.finish d outcome now) = some t) (he : s.executing d = some e) :
    Finished t e.runId := by
  obtain ⟨e', record, he', _, _, hu, _⟩ := step_finish h
  obtain rfl : e = e' := Option.some.inj (he.symm.trans he')
  obtain ⟨_, hstatus, _, _, _, hget⟩ := upsertRun_row hu
  exact ⟨record, by rw [hget, if_pos rfl]; rfl, hstatus ▸ terminalWrite_terminal e.goal outcome⟩

theorem executing_of_step {a : Action D R} {d : D} {e : Execution} (h : step ttl s a = some t)
    (he : t.executing d = some e) :
    (∃ e', s.executing d = some e' ∧ e'.runId = e.runId) ∨ ∃ goal now, a = .claim d e.runId goal now := by
  cases a with
  | submit runId goal key now =>
    obtain ⟨_, _, _, _, hexec⟩ := step_submit h
    exact .inl ⟨e, hexec ▸ he, rfl⟩
  | claim d' runId goal now =>
    obtain ⟨_, _, _, _, hexec⟩ := step_claim h
    rw [hexec] at he
    split_ifs at he
    · by_cases hd : d = d'
      · subst hd
        rw [Function.update_self] at he
        cases he
        exact .inr ⟨goal, now, rfl⟩
      · rw [Function.update_of_ne hd] at he
        exact .inl ⟨e, he, rfl⟩
    · exact .inl ⟨e, he, rfl⟩
  | touch d' now =>
    obtain ⟨e', he', _, _, _, hexec⟩ := step_touch h
    rw [hexec] at he
    by_cases hd : d = d'
    · subst hd
      rw [Function.update_self] at he
      cases he
      exact .inl ⟨e', he', rfl⟩
    · rw [Function.update_of_ne hd] at he
      exact .inl ⟨e, he, rfl⟩
  | finish d' outcome now =>
    obtain ⟨e', _, he', _, _, _, hexec⟩ := step_finish h
    rw [hexec] at he
    by_cases hd : d = d'
    · subst hd
      rw [Function.update_self] at he
      cases he
      exact .inl ⟨e', he', rfl⟩
    · rw [Function.update_of_ne hd] at he
      exact .inl ⟨e, he, rfl⟩
  | release d' =>
    obtain ⟨_, rfl⟩ := step_release h
    exact .inl ⟨e, (update_none_eq_some he).2, rfl⟩
  | crash dead =>
    obtain rfl := step_crash h
    simp only at he
    split_ifs at he
    exact .inl ⟨e, he, rfl⟩
  | sweep now =>
    obtain ⟨_, rfl⟩ := step_sweep h
    exact .inl ⟨e, he, rfl⟩
  | tick now =>
    obtain ⟨_, rfl⟩ := step_tick h
    exact .inl ⟨e, he, rfl⟩

theorem idle_of_step {a : Action D R} {d : D} (h : step ttl s a = some t)
    (hd : s.executing d = none) (ha : ∀ k goal now, a ≠ .claim d k goal now) :
    t.executing d = none := by
  rw [Option.eq_none_iff_forall_not_mem]
  intro e he
  rcases executing_of_step h he with ⟨e', he', _⟩ | ⟨goal, now, hclaim⟩
  · simp [hd] at he'
  · exact ha _ goal now hclaim

theorem executing_kept {a : Action D R} {d : D} (h : step ttl s a = some t)
    (hd : t.executing d = none) (hrelease : a ≠ .release d)
    (hcrash : ∀ dead, a = .crash dead → dead d = false) : s.executing d = none := by
  cases a with
  | submit runId goal key now =>
    obtain ⟨_, _, _, _, hexec⟩ := step_submit h
    exact hexec ▸ hd
  | claim d' runId goal now =>
    obtain ⟨hnone, _, _, _, hexec⟩ := step_claim h
    by_cases hne : d = d'
    · exact hne ▸ hnone
    · rw [hexec] at hd
      split_ifs at hd
      · rwa [Function.update_of_ne hne] at hd
      · exact hd
  | touch d' now =>
    obtain ⟨_, _, _, _, _, hexec⟩ := step_touch h
    rw [hexec, Function.update_apply] at hd
    split_ifs at hd
    exact hd
  | finish d' outcome now =>
    obtain ⟨_, _, _, _, _, _, hexec⟩ := step_finish h
    rw [hexec, Function.update_apply] at hd
    split_ifs at hd
    exact hd
  | release d' =>
    obtain ⟨_, rfl⟩ := step_release h
    have hne : d ≠ d' := by
      rintro rfl
      exact hrelease rfl
    exact (Function.update_of_ne hne _ _).symm.trans hd
  | crash dead =>
    obtain rfl := step_crash h
    simpa [hcrash dead rfl] using hd
  | sweep now =>
    obtain ⟨_, rfl⟩ := step_sweep h
    exact hd
  | tick now =>
    obtain ⟨_, rfl⟩ := step_tick h
    exact hd

theorem Executes.step {a : Action D R} {d : D} (hd : Executes s d k) (h : step ttl s a = some t)
    (ha : ∀ dead, a = .crash dead → dead d = false) : Settled t k := by
  obtain ⟨e, he, rfl, hopen⟩ := hd
  cases a with
  | submit runId goal key now =>
    obtain ⟨_, _, _, _, hexec⟩ := step_submit h
    exact .inr ⟨d, e, hexec ▸ he, rfl, hopen⟩
  | claim d' runId goal now =>
    obtain ⟨hnone, _, _, _, hexec⟩ := step_claim h
    have hne : d ≠ d' := by
      rintro rfl
      simp [hnone] at he
    refine .inr ⟨d, e, ?_, rfl, hopen⟩
    rw [hexec]
    split_ifs
    · rw [Function.update_of_ne hne, he]
    · exact he
  | touch d' now =>
    obtain ⟨e', he', _, _, _, hexec⟩ := step_touch h
    by_cases hd : d = d'
    · subst hd
      obtain rfl : e = e' := Option.some.inj (he.symm.trans he')
      exact .inr ⟨d, { e with stamp := now }, by rw [hexec, Function.update_self], rfl, hopen⟩
    · exact .inr ⟨d, e, by rw [hexec, Function.update_of_ne hd, he], rfl, hopen⟩
  | finish d' outcome now =>
    by_cases hd : d = d'
    · subst hd
      exact .inl (finished_of_finish h he)
    · obtain ⟨_, _, _, _, _, _, hexec⟩ := step_finish h
      exact .inr ⟨d, e, by rw [hexec, Function.update_of_ne hd, he], rfl, hopen⟩
  | release d' =>
    obtain ⟨⟨e', he', hclosed⟩, rfl⟩ := step_release h
    have hne : d ≠ d' := by
      rintro rfl
      obtain rfl : e = e' := Option.some.inj (he.symm.trans he')
      simp [hclosed] at hopen
    exact .inr ⟨d, e, (Function.update_of_ne hne _ _).trans he, rfl, hopen⟩
  | crash dead =>
    obtain rfl := step_crash h
    exact .inr ⟨d, e, by simp [ha dead rfl, he], rfl, hopen⟩
  | sweep now =>
    obtain ⟨_, rfl⟩ := step_sweep h
    exact .inr ⟨d, e, he, rfl, hopen⟩
  | tick now =>
    obtain ⟨_, rfl⟩ := step_tick h
    exact .inr ⟨d, e, he, rfl, hopen⟩

theorem Settled.step {a : Action D R} (hs : Settled s k) (h : step ttl s a = some t)
    (ha : ∀ dead, a ≠ .crash dead) : Settled t k := by
  rcases hs with hf | ⟨d, hd⟩
  · exact .inl (hf.step h)
  · exact hd.step h fun dead he => absurd he (ha dead)

def ClosesFinished (s : State D R) : Prop :=
  ∀ d e, s.executing d = some e → e.closing = true → Finished s e.runId

theorem ClosesFinished.step {a : Action D R} (hs : ClosesFinished s) (h : step ttl s a = some t) :
    ClosesFinished t := by
  intro d e he hclosed
  cases a with
  | submit runId goal key now =>
    obtain ⟨_, _, _, _, hexec⟩ := step_submit h
    exact (hs d e (hexec ▸ he) hclosed).step h
  | claim d' runId goal now =>
    obtain ⟨_, _, _, _, hexec⟩ := step_claim h
    rw [hexec] at he
    split_ifs at he
    · rw [Function.update_apply] at he
      split_ifs at he
      · cases he
        cases hclosed
      · exact (hs d e he hclosed).step h
    · exact (hs d e he hclosed).step h
  | touch d' now =>
    obtain ⟨e', he', _, _, _, hexec⟩ := step_touch h
    rw [hexec] at he
    rcases update_some_eq_some he with ⟨_, rfl⟩ | ⟨_, he⟩
    · exact (hs d' e' he' hclosed).step h
    · exact (hs d e he hclosed).step h
  | finish d' outcome now =>
    obtain ⟨e', _, he', _, _, _, hexec⟩ := step_finish h
    rw [hexec] at he
    rcases update_some_eq_some he with ⟨_, rfl⟩ | ⟨_, he⟩
    · have hfinished := finished_of_finish h he'
      exact hfinished
    · exact (hs d e he hclosed).step h
  | release d' =>
    obtain ⟨_, rfl⟩ := step_release h
    exact hs d e (update_none_eq_some he).2 hclosed
  | crash dead =>
    obtain rfl := step_crash h
    simp only at he
    split_ifs at he
    exact hs d e he hclosed
  | sweep now =>
    have hexec : t.executing = s.executing := by
      obtain ⟨_, rfl⟩ := step_sweep h
      rfl
    exact (hs d e (hexec ▸ he) hclosed).step h
  | tick now =>
    obtain ⟨_, rfl⟩ := step_tick h
    exact hs d e he hclosed

/-- A lost claim of a stored run finds it terminal, or `running` under a lease not yet expired. -/
theorem lost_claim {d : D} {goal : String} {now : ℤ} {row : AgentRun (AutonomousPayload R)}
    (h : step ttl s (.claim d k goal now) = some t) (hr : s.store.get k = some row)
    (hlost : t.executing d = none) :
    row.status.Terminal ∨ row.status = .running ∧ ¬ row.updatedAt < now - seconds ttl := by
  obtain ⟨_, _, _, _, hexec⟩ := step_claim h
  have hflag : (claimRun s.store k ttl now).2 = false := by
    rw [Bool.eq_false_iff]
    intro hwon
    rw [hexec, if_pos hwon, Function.update_self] at hlost
    cases hlost
  have hnot : claimable k (now - seconds ttl) row = false := by
    rw [Bool.eq_false_iff]
    intro hc
    rw [(claimRun_won_iff _ _ _ _).mpr ⟨row, hr, hc⟩] at hflag
    cases hflag
  have hid : row.id = k := Table.key_of_get hr
  rw [Status.terminal_iff]
  by_cases hp : row.status = .pending
  · simp [claimable, hid, hp] at hnot
  · by_cases hrun : row.status = .running
    · simp only [claimable, hid, hrun] at hnot
      simp at hnot
      exact .inr ⟨hrun, by omega⟩
    · exact .inl ⟨hp, hrun⟩

end Workbench.RunLease
