import Workbench.ProviderFaults
import Workbench.RouterHealth

namespace Workbench.ModelRouter

open AgentRuntime PyJson Transitions

variable {C : Type} {settings : Settings}

/-- The candidate is not cooling when its health is read, or every candidate of the chain is. -/
def Due (s : State C) (readings : List (Candidate × ℚ)) (cand : Candidate) : Prop :=
  ∃ now, (cand, now) ∈ readings ∧
    (s.isHealthy cand.provider now = true ∨ ∀ r ∈ readings, s.isHealthy r.1.provider r.2 = false)

def Served (settings : Settings) (cand : Candidate) : Prop :=
  ∃ p model, settings.provider cand.provider = some p ∧ p.models.lookup cand.role = some model

theorem mem_candidates {s : State C} {chain : List Candidate} {readings : List ℚ}
    (hr : readings.length = chain.length) (cand : Candidate) :
    cand ∈ candidates s chain readings ↔ Due s (chain.zip readings) cand := by
  have hwhole : (chain.zip readings).map Prod.fst = chain := List.map_fst_zip hr.ge
  have hhealthy : ∀ c', c' ∈ healthyCandidates s chain readings ↔
      ∃ now, (c', now) ∈ chain.zip readings ∧ s.isHealthy c'.provider now = true := by
    intro c'
    simp [healthyCandidates]
  have hnone : healthyCandidates s chain readings = [] ↔
      ∀ r ∈ chain.zip readings, s.isHealthy r.1.provider r.2 = false := by
    simp [healthyCandidates]
  unfold candidates Due
  split_ifs with hempty
  · have hcool := hnone.mp hempty
    constructor
    · intro hcand
      rw [← hwhole] at hcand
      obtain ⟨⟨c', now⟩, hmem, rfl⟩ := List.mem_map.mp hcand
      exact ⟨now, hmem, .inr hcool⟩
    · rintro ⟨now, hmem, -⟩
      exact (List.of_mem_zip hmem).1
  · rw [hhealthy]
    constructor
    · rintro ⟨now, hmem, hwell⟩
      exact ⟨now, hmem, .inl hwell⟩
    · rintro ⟨now, hmem, hwell | hcool⟩
      · exact ⟨now, hmem, hwell⟩
      · exact absurd (hnone.mpr hcool) hempty

theorem tryNext_raised {rest : List Candidate} (h : tryNext settings rest = .raised) :
    ∃ cand ∈ rest, ¬ Served settings cand := by
  cases rest with
  | nil => cases h
  | cons c rest =>
    simp only [tryNext] at h
    split at h
    · cases h
    · rename_i hnone
      refine ⟨c, List.mem_cons_self, ?_⟩
      rintro ⟨p, model, hp, hmodel⟩
      rw [hp, Option.bind_some, hmodel] at hnone
      cases hnone

def Faultless (settings : Settings) (call : Call) : Prop :=
  call.pc = .raised → (∃ t ∈ call.trials, ¬ Survives t.result) ∨
    ∃ cand ∈ call.candidates, ¬ Served settings cand

theorem faultless_begun (s : State C) (complexity : Complexity) (enabled : Provider → Bool)
    (readings : List ℚ) : Faultless settings (begun settings s complexity enabled readings) :=
  fun h => .inr (tryNext_raised h)

theorem trials_finish (settings : Settings) (call : Call) (current : Candidate) (model : String) (rest : List Candidate)
    (result : Result) (latencyMs : ℤ) :
    (call.finish settings current model rest result latencyMs).trials =
        call.trials ++ [⟨current, model, result⟩] ∧
      (call.finish settings current model rest result latencyMs).candidates = call.candidates := by
  unfold Call.finish
  split <;> exact ⟨rfl, rfl⟩

theorem Faultless.finish {call : Call} (hlocated : Located call) {current : Candidate}
    {model : String} {rest : List Candidate} (hp : call.pc = .trying current model rest)
    (result : Result) (latencyMs : ℤ) :
    Faultless settings (call.finish settings current model rest result latencyMs) := by
  rw [Located, hp] at hlocated
  intro hraised
  obtain ⟨htrials, hcandidates⟩ :=
    trials_finish settings call current model rest result latencyMs
  rw [htrials, hcandidates, hlocated.1]
  cases result with
  | ok out => cases hraised
  | error raised =>
    cases raised with
    | providerCall e =>
      obtain ⟨cand, hmem, hserved⟩ := tryNext_raised hraised
      refine .inr ⟨cand, ?_, hserved⟩
      exact List.mem_append_right _ (List.mem_cons_of_mem _ hmem)
    | other e => exact .inl ⟨_, List.mem_append_right _ List.mem_cons_self, id⟩

theorem Located.gaveUp {call : Call} (h : Located call) (hp : call.pc = .noProvider) :
    call.candidates = call.trials.map Trial.candidate ∧ ∀ trial ∈ call.trials, trial.Fell := by
  rwa [Located, hp] at h

theorem Located.outstanding {call : Call} (h : Located call) {current : Candidate} {model : String}
    {rest : List Candidate} (hp : call.pc = .trying current model rest) :
    call.trials.length < call.candidates.length := by
  rw [Located, hp] at h
  have hsplit := congrArg List.length h.1
  rw [List.length_append, List.length_map, List.length_cons] at hsplit
  omega

section Runs

variable [DecidableEq C]

def resultOf (c : C) : Action C → Option Result
  | .begins .. => none
  | .finishes c' result _ _ => if c' = c then some result else none

structure Continues (settings : Settings) (c : C) (before : Call) (as : List (Action C)) (call : Call) :
    Prop where
  candidates : call.candidates = before.candidates
  trials : call.trials.map Trial.result = before.trials.map Trial.result ++ as.filterMap (resultOf c)
  located : Located call
  faultless : Faultless settings call

theorem call_continues {s t : State C} {as : List (Action C)}
    (h : exec (ModelRouter.step settings) s as = some t) {c : C} {before : Call}
    (hc : s.calls c = some before) (hlocated : Located before)
    (hfault : Faultless settings before) :
    ∃ call, t.calls c = some call ∧ Continues settings c before as call := by
  induction as generalizing s before with
  | nil =>
    cases h
    exact ⟨before, hc, rfl, (List.append_nil _).symm, hlocated, hfault⟩
  | cons a as ih =>
    obtain ⟨u, hu, hrest⟩ := Option.bind_eq_some_iff.mp h
    cases step_cases hu with
    | begins c' complexity enabled readings hc' =>
      have hne : c ≠ c' := by
        rintro rfl
        rw [hc] at hc'
        cases hc'
      obtain ⟨call, hcall, hgoes⟩ := ih hrest (by rw [calls_set, if_neg hne]; exact hc) hlocated hfault
      exact ⟨call, hcall, hgoes.candidates, hgoes.trials, hgoes.located, hgoes.faultless⟩
    | finishes c' call' current model rest result now latencyMs hc' hp =>
      by_cases hsame : c = c'
      · subst hsame
        obtain rfl : before = call' := Option.some.inj (hc.symm.trans hc')
        obtain ⟨htrials, hcandidates⟩ :=
          trials_finish settings before current model rest result latencyMs
        obtain ⟨call, hcall, hgoes⟩ := ih hrest (by rw [calls_set, if_pos rfl])
          (hlocated.finish hp result latencyMs) (Faultless.finish hlocated hp result latencyMs)
        refine ⟨call, hcall, hgoes.candidates.trans hcandidates, ?_, hgoes.located, hgoes.faultless⟩
        rw [hgoes.trials, htrials]
        simp [resultOf]
      · obtain ⟨call, hcall, hgoes⟩ := ih hrest
          (by rw [calls_set, if_neg hsame, calls_finish]; exact hc) hlocated hfault
        refine ⟨call, hcall, hgoes.candidates, ?_, hgoes.located, hgoes.faultless⟩
        rw [hgoes.trials, List.filterMap_cons_none]
        exact if_neg (Ne.symm hsame)

theorem exhausted_chain {s t : State C} {c : C} {complexity : Complexity}
    {enabled : Provider → Bool} {readings : List ℚ} {as : List (Action C)} {call : Call}
    (hr : readings.length = (chain settings enabled complexity).length)
    (h : exec (ModelRouter.step settings) s (.begins c complexity enabled readings :: as) = some t)
    (hcall : t.calls c = some call) :
    call.trials.map Trial.result = as.filterMap (resultOf c) ∧
      (call.pc = .noProvider → (∀ trial ∈ call.trials, trial.Fell) ∧ ∀ cand,
        cand ∈ call.trials.map Trial.candidate ↔
          Due s ((chain settings enabled complexity).zip readings) cand) ∧
      ∀ would : Candidate → Result, (∀ trial ∈ call.trials, trial.result = would trial.candidate) →
        (∀ cand, Due s ((chain settings enabled complexity).zip readings) cand →
          Served settings cand ∧ Survives (would cand)) →
        (∃ cand out, Due s ((chain settings enabled complexity).zip readings) cand ∧
          would cand = .ok out) →
        (∃ out, call.pc = .returned out) ∨ ∃ current model rest,
          call.pc = .trying current model rest ∧
            call.trials.length < (chain settings enabled complexity).length := by
  obtain ⟨u, hu, hrest⟩ := Option.bind_eq_some_iff.mp h
  cases step_cases hu with
  | begins _ _ _ _ hc =>
    obtain ⟨call', hcall', hgoes⟩ := call_continues hrest (by rw [calls_set, if_pos rfl])
      (located_begun settings s complexity enabled readings)
      (faultless_begun s complexity enabled readings)
    obtain rfl : call' = call := Option.some.inj (hcall'.symm.trans hcall)
    have hdue : ∀ cand, cand ∈ call'.candidates ↔
        Due s ((chain settings enabled complexity).zip readings) cand := by
      intro cand
      rw [hgoes.candidates]
      exact mem_candidates hr cand
    refine ⟨hgoes.trials, ?_, ?_⟩
    · intro hp
      obtain ⟨hall, hfell⟩ := hgoes.located.gaveUp hp
      refine ⟨hfell, fun cand => ?_⟩
      rw [← hall]
      exact hdue cand
    · intro would hwould hsound hanswers
      cases hp : call'.pc with
      | trying current model rest =>
        refine .inr ⟨current, model, rest, rfl, ?_⟩
        have hlength := (candidates_sublist s (chain settings enabled complexity) readings).length_le
        have houtstanding := hgoes.located.outstanding hp
        rw [hgoes.candidates] at houtstanding
        exact houtstanding.trans_le hlength
      | returned out => exact .inl ⟨out, rfl⟩
      | noProvider =>
        obtain ⟨cand, out, hcand, hok⟩ := hanswers
        obtain ⟨hall, hfell⟩ := hgoes.located.gaveUp hp
        obtain ⟨trial, htrial, rfl⟩ := List.mem_map.mp (hall ▸ (hdue cand).mpr hcand)
        exact absurd ((hwould trial htrial).trans hok) ((hfell trial htrial).not_ok out)
      | raised =>
        rcases hgoes.faultless hp with ⟨trial, htrial, hother⟩ | ⟨cand, hcand, hserved⟩
        · have hmem := hgoes.located.prefix.subset (List.mem_map_of_mem htrial)
          rw [hwould trial htrial] at hother
          exact absurd (hsound _ ((hdue _).mp hmem)).2 hother
        · exact absurd (hsound cand ((hdue cand).mp hcand)).1 hserved

end Runs

def Pc.gaveUp : Pc → Bool
  | .noProvider => true
  | _ => false

theorem Pc.gaveUp_iff (pc : Pc) : pc.gaveUp = true ↔ pc = .noProvider := by
  cases pc <;> simp [Pc.gaveUp]

def localModel : Candidate := ⟨"local", "default"⟩

def deepseekModel : Candidate := ⟨"deepseek", "default"⟩

theorem both_fallen_exhausted : ∃ t call,
    exec (ModelRouter.step twoProviders) (created Bool 0)
        [.begins true .simple (fun _ => true) [0, 0], .finishes true timedOut 2 2000,
          .finishes true timedOut 3 1000] = some t ∧
      t.calls true = some call ∧ call.pc = .noProvider ∧
      localModel ∈ call.trials.map Trial.candidate ∧ deepseekModel ∈ call.trials.map Trial.candidate := by
  have hrun : ((exec (ModelRouter.step twoProviders) (created Bool 0)
      [.begins true .simple (fun _ => true) [0, 0], .finishes true timedOut 2 2000,
        .finishes true timedOut 3 1000]).bind fun t => t.calls true).map (·.pc.gaveUp) = some true := by
    decide +kernel
  obtain ⟨call, hcall, hgave⟩ := Option.map_eq_some_iff.mp hrun
  obtain ⟨t, ht, hcall⟩ := Option.bind_eq_some_iff.mp hcall
  have hchain : chain twoProviders (fun _ => true) .simple = [localModel, deepseekModel] := by
    decide +kernel
  obtain ⟨-, hexhausted, -⟩ := exhausted_chain (by rw [hchain]; rfl) ht hcall
  obtain ⟨-, hdue⟩ := hexhausted ((Pc.gaveUp_iff _).mp hgave)
  rw [hchain] at hdue
  refine ⟨t, call, ht, hcall, (Pc.gaveUp_iff _).mp hgave, (hdue _).mpr ?_, (hdue _).mpr ?_⟩
  · exact ⟨0, List.mem_cons_self, .inl rfl⟩
  · exact ⟨0, List.mem_cons_of_mem _ List.mem_cons_self, .inl rfl⟩

-- deepseek fails at 20, so that at 40 the call of the other side does not try it
def skippedCalls : List (Action Bool) :=
  [.begins false .simple (fun _ => true) [0, 0], .finishes false timedOut 1 1000,
    .finishes false timedOut 20 19000, .begins true .simple (fun _ => true) [40, 40],
    .finishes true timedOut 42 2000]

theorem cooling_candidate_skipped : ∃ t call,
    exec (ModelRouter.step twoProviders) (created Bool 0) skippedCalls = some t ∧
      t.calls true = some call ∧ call.pc = .noProvider ∧
      deepseekModel ∈ chain twoProviders (fun _ => true) .simple ∧
      deepseekModel ∉ call.trials.map Trial.candidate := by
  have hrun : ((exec (ModelRouter.step twoProviders) (created Bool 0) skippedCalls).bind
      fun t => t.calls true).map (fun call => (call.pc.gaveUp, call.trials.map Trial.candidate)) =
        some (true, [localModel]) := by
    decide +kernel
  obtain ⟨call, hcall, hgave⟩ := Option.map_eq_some_iff.mp hrun
  obtain ⟨t, ht, hcall⟩ := Option.bind_eq_some_iff.mp hcall
  refine ⟨t, call, ht, hcall, (Pc.gaveUp_iff _).mp (congrArg Prod.fst hgave), by decide +kernel, ?_⟩
  rw [show call.trials.map Trial.candidate = [localModel] from congrArg Prod.snd hgave]
  decide

end Workbench.ModelRouter
