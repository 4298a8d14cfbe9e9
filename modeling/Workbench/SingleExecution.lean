import Workbench.RunLease
import Mathlib.Data.Fintype.Basic

namespace Workbench.RunLease

open RunStore KeyedTable Transitions

variable {D R : Type} [DecidableEq D] {ttl : ℤ} {s t : State D R}

def Fresh (ttl : ℤ) (s : State D R) : Prop :=
  ∀ d, ∀ e ∈ s.executing d, e.closing = false → s.clock ≤ e.stamp + seconds ttl

/-- Claims and sweeps take effect only while every live execution is fresh. -/
def Timely (ttl : ℤ) (s : State D R) : Action D R → Prop
  | .claim .. => Fresh ttl s
  | .sweep _ => Fresh ttl s
  | _ => True

instance [Fintype D] (ttl : ℤ) (s : State D R) : Decidable (Fresh ttl s) :=
  inferInstanceAs (Decidable (∀ d, ∀ e ∈ s.executing d, _))

instance [Fintype D] (ttl : ℤ) (s : State D R) (a : Action D R) : Decidable (Timely ttl s a) := by
  cases a <;> unfold Timely <;> infer_instance

structure Owned (s : State D R) : Prop where
  live : ∀ d e, s.executing d = some e → e.closing = false →
    ∃ r, s.store.get e.runId = some r ∧ r.status = .running ∧ r.updatedAt = e.stamp
  closed : ∀ d e, s.executing d = some e → e.closing = true →
    ∃ r, s.store.get e.runId = some r ∧ r.status.Terminal
  sole : ∀ d d' e e', s.executing d = some e → s.executing d' = some e' → e.closing = false →
    e'.closing = false → e.runId = e'.runId → d = d'

omit [DecidableEq D] in
theorem Owned.initial (h : ∀ d, s.executing d = none) : Owned s where
  live d e he := by simp [h d] at he
  closed d e he := by simp [h d] at he
  sole d d' e e' he := by simp [h d] at he

theorem Owned.of_executing (h : Owned s) {a : Action D R} (hstep : step ttl s a = some t)
    (hexec : ∀ d e, t.executing d = some e → s.executing d = some e)
    (hrow : ∀ d e r, s.executing d = some e → e.closing = false → s.store.get e.runId = some r →
      t.store.get e.runId = some r) : Owned t where
  live d e he hc := by
    obtain ⟨r, hr, hrun, hat⟩ := h.live d e (hexec d e he) hc
    exact ⟨r, hrow d e r (hexec d e he) hc hr, hrun, hat⟩
  closed d e he hc := by
    obtain ⟨r, hr, hterm⟩ := h.closed d e (hexec d e he) hc
    obtain ⟨r', hr', hrs⟩ := step_row hstep hr
    exact ⟨r', hr', hrs.terminal hterm⟩
  sole d d' e e' he he' := h.sole d d' e e' (hexec d e he) (hexec d' e' he')

omit [DecidableEq D] in
theorem live_not_claimable (h : Owned s) (hf : Fresh ttl s) {d : D} {e : Execution} {now : ℤ}
    (he : s.executing d = some e) (hc : e.closing = false) (hnow : now ≤ s.clock)
    {r : AgentRun (AutonomousPayload R)} (hr : s.store.get e.runId = some r) :
    ¬ r.updatedAt < now - seconds ttl ∧ r.status = .running := by
  obtain ⟨q, hq, hrun, hat⟩ := h.live d e he hc
  obtain rfl : q = r := Option.some.inj (hq.symm.trans hr)
  have hfresh := hf d e he hc
  exact ⟨by omega, hrun⟩

omit [DecidableEq D] in
theorem live_not_stuck (h : Owned s) (hf : Fresh ttl s) {d : D} {e : Execution} {now : ℤ}
    (he : s.executing d = some e) (hc : e.closing = false) (hnow : now ≤ s.clock)
    {r : AgentRun (AutonomousPayload R)} (hr : s.store.get e.runId = some r) :
    stuck (now - seconds ttl) r = false := by
  simp [stuck, (live_not_claimable h hf he hc hnow hr).1]

omit [DecidableEq D] in
theorem claim_lost_of_live (h : Owned s) (hf : Fresh ttl s) {d : D} {e : Execution} {now : ℤ}
    (he : s.executing d = some e) (hc : e.closing = false) (hnow : now ≤ s.clock) :
    (claimRun s.store e.runId ttl now).2 = false := by
  rw [Bool.eq_false_iff]
  intro hwon
  obtain ⟨r, hr, hclaim⟩ := (claimRun_won_iff _ _ _ _).mp hwon
  obtain ⟨hstale, hrun⟩ := live_not_claimable h hf he hc hnow hr
  simp [claimable, hstale, hrun] at hclaim

theorem owned_claim (h : Owned s) (hf : Fresh ttl s) {d : D} {runId goal : String} {now : ℤ}
    (hstep : step ttl s (.claim d runId goal now) = some t) : Owned t := by
  obtain ⟨hidle, hnow, _, hstore, hexec⟩ := step_claim hstep
  cases hwon : (claimRun s.store runId ttl now).2 with
  | false =>
    rw [hwon] at hexec
    apply h.of_executing hstep (by simp [hexec])
    intro d e r _ _ hr
    rw [hstore, claimRun_lost hwon, hr]
  | true =>
    rw [hwon, if_pos rfl] at hexec
    obtain ⟨r, hr, hclaim⟩ := (claimRun_won_iff _ _ _ _).mp hwon
    have hfree : ∀ d' e', s.executing d' = some e' → e'.closing = false → e'.runId ≠ runId := by
      rintro d' e' he' hc' rfl
      simp [claim_lost_of_live h hf he' hc' hnow] at hwon
    have hother : ∀ k, k ≠ runId → t.store.get k = s.store.get k := by
      intro k hk
      rw [hstore, get_claimRun]
      cases hg : s.store.get k with
      | none => rfl
      | some q => simp [claimable, Table.key_of_get hg, hk]
    have hcases : ∀ d' e', t.executing d' = some e' →
        (d' = d ∧ e' = ⟨runId, goal, now, false⟩) ∨ s.executing d' = some e' := by
      intro d' e' he'
      rw [hexec] at he'
      exact (update_some_eq_some he').imp_right And.right
    refine ⟨?_, ?_, ?_⟩
    · intro d' e' he' hc'
      rcases hcases d' e' he' with ⟨_, rfl⟩ | hold
      · refine ⟨{ r with status := .running, updatedAt := now }, ?_, rfl, rfl⟩
        rw [hstore, get_claimRun, hr]
        simp [hclaim]
      · rw [hother _ (hfree d' e' hold hc')]
        exact h.live d' e' hold hc'
    · intro d' e' he' hc'
      rcases hcases d' e' he' with ⟨_, rfl⟩ | hold
      · cases hc'
      · obtain ⟨q, hq, hterm⟩ := h.closed d' e' hold hc'
        obtain ⟨q', hq', hrs⟩ := step_row hstep hq
        exact ⟨q', hq', hrs.terminal hterm⟩
    · intro d₁ d₂ e₁ e₂ h₁ h₂ hc₁ hc₂ hrun
      rcases hcases d₁ e₁ h₁ with ⟨hd₁, rfl⟩ | hold₁ <;>
        rcases hcases d₂ e₂ h₂ with ⟨hd₂, rfl⟩ | hold₂
      · rw [hd₁, hd₂]
      · exact absurd hrun.symm (hfree d₂ e₂ hold₂ hc₂)
      · exact absurd hrun (hfree d₁ e₁ hold₁ hc₁)
      · exact h.sole d₁ d₂ e₁ e₂ hold₁ hold₂ hc₁ hc₂ hrun

theorem owned_touch (h : Owned s) {d : D} {now : ℤ}
    (hstep : step ttl s (.touch d now) = some t) : Owned t := by
  obtain ⟨e, he, _, _, hstore, hexec⟩ := step_touch hstep
  have hcases : ∀ d' e', t.executing d' = some e' → ∃ q, s.executing d' = some q ∧
      e'.runId = q.runId ∧ e'.closing = q.closing ∧ (d' ≠ d → e' = q) ∧ (d' = d → e'.stamp = now) := by
    intro d' e' he'
    rw [hexec, Function.update_apply] at he'
    split_ifs at he' with hd
    · cases he'
      exact ⟨e, hd ▸ he, rfl, rfl, fun hn => absurd hd hn, fun _ => rfl⟩
    · exact ⟨e', he', rfl, rfl, fun _ => rfl, fun h => absurd h hd⟩
  refine ⟨?_, ?_, ?_⟩
  · intro d' e' he' hc'
    obtain ⟨q, hq, hrun, hcl, hsame, hnow⟩ := hcases d' e' he'
    obtain ⟨r, hr, hstat, hat⟩ := h.live d' q hq (hcl ▸ hc')
    rw [hstore, get_touchRun, hrun, hr]
    by_cases hd : d' = d
    · obtain rfl : q = e := by simpa [hd, he] using hq.symm
      exact ⟨{ r with updatedAt := now }, by simp [Table.key_of_get hr], hstat, (hnow hd).symm⟩
    · have hne : q.runId ≠ e.runId := by
        intro heq
        cases hce : e.closing with
        | false => exact hd (h.sole d' d q e hq he (hcl ▸ hc') hce heq)
        | true =>
          obtain ⟨r', hr', hterm⟩ := h.closed d e he hce
          obtain rfl : r = r' := Option.some.inj (hr.symm.trans (heq ▸ hr'))
          simp [hstat] at hterm
      exact ⟨r, by simp [Table.key_of_get hr, hne], hstat, by rw [hat, hsame hd]⟩
  · intro d' e' he' hc'
    obtain ⟨q, hq, hrun, hcl, _⟩ := hcases d' e' he'
    obtain ⟨r, hr, hterm⟩ := h.closed d' q hq (hcl ▸ hc')
    obtain ⟨r', hr', hrs⟩ := step_row hstep hr
    exact ⟨r', hrun ▸ hr', hrs.terminal hterm⟩
  · intro d₁ d₂ e₁ e₂ h₁ h₂ hc₁ hc₂ hrun
    obtain ⟨q₁, hq₁, hr₁, hcl₁, _⟩ := hcases d₁ e₁ h₁
    obtain ⟨q₂, hq₂, hr₂, hcl₂, _⟩ := hcases d₂ e₂ h₂
    exact h.sole d₁ d₂ q₁ q₂ hq₁ hq₂ (hcl₁ ▸ hc₁) (hcl₂ ▸ hc₂) (hr₁ ▸ hr₂ ▸ hrun)

theorem owned_finish (h : Owned s) {d : D} {outcome : Outcome R} {now : ℤ}
    (hstep : step ttl s (.finish d outcome now) = some t) : Owned t := by
  obtain ⟨e, record, he, hc, _, hu, hexec⟩ := step_finish hstep
  obtain ⟨r, hr, _, _⟩ := h.live d e he hc
  have hterm : ∃ r', t.store.get e.runId = some r' ∧ r'.status.Terminal := by
    obtain ⟨store, hu', hget⟩ := upsertRun_existing hr autonomousKind
      (terminalWrite e.goal outcome).status (terminalWrite e.goal outcome).payload
      (terminalWrite e.goal outcome).error now
    obtain ⟨hs, _⟩ := Prod.mk.inj (Option.some.inj (hu.symm.trans hu'))
    exact ⟨_, by rw [hs, hget, if_pos rfl], terminalWrite_terminal _ _⟩
  have hcases : ∀ d' e', t.executing d' = some e' →
      (d' = d ∧ e' = { e with closing := true }) ∨ (d' ≠ d ∧ s.executing d' = some e') := by
    intro d' e' he'
    rw [hexec] at he'
    exact update_some_eq_some he'
  refine ⟨?_, ?_, ?_⟩
  · intro d' e' he' hc'
    rcases hcases d' e' he' with ⟨_, rfl⟩ | ⟨hd, hold⟩
    · cases hc'
    · have hne : e'.runId ≠ e.runId := fun heq => hd (h.sole d' d e' e hold he hc' hc heq)
      obtain ⟨_, _, _, _, _, hget⟩ := upsertRun_row hu
      rw [hget, if_neg hne.symm]
      exact h.live d' e' hold hc'
  · intro d' e' he' hc'
    rcases hcases d' e' he' with ⟨_, rfl⟩ | ⟨_, hold⟩
    · exact hterm
    · obtain ⟨q, hq, hqt⟩ := h.closed d' e' hold hc'
      obtain ⟨q', hq', hrs⟩ := step_row hstep hq
      exact ⟨q', hq', hrs.terminal hqt⟩
  · intro d₁ d₂ e₁ e₂ h₁ h₂ hc₁ hc₂ hrun
    rcases hcases d₁ e₁ h₁ with ⟨_, rfl⟩ | ⟨_, hold₁⟩
    · cases hc₁
    · rcases hcases d₂ e₂ h₂ with ⟨_, rfl⟩ | ⟨_, hold₂⟩
      · cases hc₂
      · exact h.sole d₁ d₂ e₁ e₂ hold₁ hold₂ hc₁ hc₂ hrun

theorem sweep_keeps_live (h : Owned s) (hf : Fresh ttl s) {now : ℤ}
    (hstep : step ttl s (.sweep now) = some t) {d : D} {e : Execution} (he : s.executing d = some e)
    (hc : e.closing = false) : t.store.get e.runId = s.store.get e.runId := by
  obtain ⟨hnow, rfl⟩ := step_sweep hstep
  obtain ⟨r, hr, _⟩ := h.live d e he hc
  simp [get_sweepStuckRuns, hr, live_not_stuck h hf he hc hnow hr]

theorem Owned.step (h : Owned s) {a : Action D R} (ht : Timely ttl s a)
    (hstep : step ttl s a = some t) : Owned t := by
  cases a with
  | submit runId goal key now =>
    obtain ⟨_, record, hc, _, hexec⟩ := step_submit hstep
    apply h.of_executing hstep (by simp [hexec])
    intro d e r _ _ hr
    rcases createRun_cases hc with ⟨_, hnone, hget⟩ | he
    · have hne : runId ≠ e.runId := by rintro rfl; simp [hnone] at hr
      rw [hget, if_neg hne, hr]
    · rw [he, hr]
  | claim d runId goal now => exact owned_claim h ht hstep
  | touch d now => exact owned_touch h hstep
  | finish d outcome now => exact owned_finish h hstep
  | release d =>
    obtain ⟨_, rfl⟩ := step_release hstep
    refine h.of_executing hstep (fun d' e he => ?_) fun _ _ _ _ _ hr => hr
    exact (update_none_eq_some he).2
  | crash dead =>
    obtain rfl := step_crash hstep
    refine h.of_executing hstep (fun d e he => ?_) fun _ _ _ _ _ hr => hr
    simp only at he
    split_ifs at he
    exact he
  | sweep now =>
    have hkeep := fun d e => sweep_keeps_live (d := d) (e := e) h ht hstep
    obtain ⟨_, rfl⟩ := step_sweep hstep
    exact h.of_executing hstep (fun _ _ he => he) fun d e r he hc hr => (hkeep d e he hc).trans hr
  | tick now =>
    obtain ⟨_, rfl⟩ := step_tick hstep
    exact h.of_executing hstep (fun _ _ he => he) fun _ _ _ _ _ hr => hr

theorem owned_of_reaches {s₀ : State D R} (h₀ : ∀ d, s₀.executing d = none)
    (h : Reaches (step ttl) (Timely ttl) s₀ s) : Owned s :=
  h.invariant (.initial h₀) fun _ _ _ hs ht hstep => hs.step ht hstep

theorem single_active_execution {s₀ : State D R} (h₀ : ∀ d, s₀.executing d = none)
    (h : Reaches (step ttl) (Timely ttl) s₀ s) :
    (∀ d d' runId, Executes s d runId → Executes s d' runId → d = d') ∧
      ∀ now t, Timely ttl s (.sweep now) → step ttl s (.sweep now) = some t →
        ∀ d runId, Executes s d runId → t.store.get runId = s.store.get runId ∧
          (t.store.get runId).map AgentRun.status = some .running := by
  have howned := owned_of_reaches h₀ h
  constructor
  · rintro d d' runId ⟨e, he, rfl, hc⟩ ⟨e', he', hrun, hc'⟩
    exact howned.sole d d' e e' he he' hc hc' hrun.symm
  · rintro now t hf hstep d runId ⟨e, he, rfl, hc⟩
    have hkeep := sweep_keeps_live howned hf hstep he hc
    obtain ⟨r, hr, hrun, _⟩ := howned.live d e he hc
    exact ⟨hkeep, by rw [hkeep, hr, Option.map_some, hrun]⟩

def start (D R : Type) : State D R := ⟨0, Table.empty _, fun _ => none⟩

/-- A second delivery and a sweep while the first delivery heartbeats, beyond its claim's lease. -/
def overlappingDeliveries : List (Action Bool Unit) :=
  [.submit "r" "g" none 0, .claim false "r" "g" 0, .tick (seconds 800), .touch false (seconds 800),
    .tick (seconds 1600), .claim true "r" "g" (seconds 1600), .sweep (seconds 1600)]

theorem single_active_execution_run : ∃ s, exec (step 900) (start Bool Unit) overlappingDeliveries =
    some s ∧ Executes s false "r" ∧ ∀ d, Executes s d "r" → d = false := by
  have hsome : (exec (step 900) (start Bool Unit) overlappingDeliveries).isSome := by decide
  obtain ⟨s, hs⟩ := Option.isSome_iff_exists.mp hsome
  have hreach : Reaches (step 900) (Timely 900) (start Bool Unit) s :=
    reaches_of_exec hs (by decide)
  have hfirst : Executes s false "r" := by
    cases hs
    exact ⟨_, rfl, rfl, rfl⟩
  exact ⟨s, hs, hfirst, fun d hd =>
    (single_active_execution (fun _ => rfl) hreach).1 d false "r" hd hfirst⟩

end Workbench.RunLease
