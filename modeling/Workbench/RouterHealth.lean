import Workbench.ModelRouter

namespace Workbench.ModelRouter

open AgentRuntime PyJson Transitions

variable {C : Type} {settings : Settings}

def Finished.conclusive (f : Finished C) : Bool :=
  match f.result with
  | .error (.other _) => false
  | _ => true

def lastOn (log : List (Finished C)) (provider : String) : Option (Finished C) :=
  (log.filter fun f => f.provider = provider && f.conclusive).getLast?

def Cooling (log : List (Finished C)) (provider : String) (now : ℚ) : Prop :=
  ∃ f e, lastOn log provider = some f ∧ f.result = .error (.providerCall e) ∧
    now - f.time < healthCooldown

def deadline (log : List (Finished C)) (provider : String) : Option ℚ :=
  match lastOn log provider with
  | some f =>
    match f.result with
    | .error (.providerCall _) => some (f.time + healthCooldown)
    | _ => none
  | none => none

def Mirrors (s : State C) : Prop := ∀ provider, s.unhealthyUntil provider = deadline s.log provider

theorem lastOn_concat (log : List (Finished C)) (f : Finished C) (provider : String) :
    lastOn (log ++ [f]) provider =
      if f.provider = provider ∧ f.conclusive = true then some f else lastOn log provider := by
  unfold lastOn
  rw [List.filter_append]
  split_ifs with h
  · simp [h.1, h.2]
  · have hdrop : [f].filter (fun f => f.provider = provider && f.conclusive) = [] := by
      simpa using h
    rw [hdrop, List.append_nil]

theorem isHealthy_iff {s : State C} (h : Mirrors s) (provider : String) (now : ℚ) :
    s.isHealthy provider now = false ↔ Cooling s.log provider now := by
  unfold State.isHealthy Cooling
  rw [h provider, deadline]
  cases lastOn s.log provider with
  | none => simp
  | some f =>
    cases hr : f.result with
    | ok out => simp [hr]
    | error raised =>
      cases raised with
      | other e => simp [hr]
      | providerCall e =>
        simp only [decide_eq_false_iff_not, not_le, Option.some.injEq, exists_and_left,
          exists_eq_left', hr, Except.error.injEq, Raised.providerCall.injEq]
        exact sub_lt_iff_lt_add'.symm

theorem deadline_concat (log : List (Finished C)) (f : Finished C) (provider : String) :
    deadline (log ++ [f]) provider = if f.provider = provider then
      match f.result with
      | .ok _ => none
      | .error (.providerCall _) => some (f.time + healthCooldown)
      | .error (.other _) => deadline log provider
    else deadline log provider := by
  unfold deadline
  rw [lastOn_concat]
  by_cases hp : f.provider = provider
  · cases hr : f.result with
    | ok out => simp [hp, hr, Finished.conclusive]
    | error raised => cases raised <;> simp [hp, hr, Finished.conclusive]
  · simp [hp]

theorem log_finish (s : State C) (c : C) (provider : String) (result : Result) (now : ℚ) :
    (s.finish c provider result now).log = s.log ++ [⟨c, provider, result, now⟩] := by
  unfold State.finish State.settle State.markUnhealthy State.recover
  split
  · rfl
  · split_ifs <;> rfl
  · rfl

theorem calls_finish (s : State C) (c : C) (provider : String) (result : Result) (now : ℚ) :
    (s.finish c provider result now).calls = s.calls := by
  unfold State.finish State.settle State.markUnhealthy State.recover
  split
  · rfl
  · split_ifs <;> rfl
  · rfl

theorem Mirrors.finish {s : State C} (h : Mirrors s) (c : C) (provider : String) (result : Result)
    (now : ℚ) : Mirrors (s.finish c provider result now) := by
  intro p
  rw [log_finish, deadline_concat]
  unfold State.finish State.settle State.markUnhealthy State.recover
  cases result with
  | ok out => simp [Function.update_apply, h p, eq_comm]
  | error raised =>
    cases raised with
    | providerCall e =>
      have hpos : (0 : ℚ) < healthCooldown := by decide +kernel
      simp [hpos, Function.update_apply, h p, eq_comm]
    | other e => simp [h p]

def Trial.name (t : Trial) : String := attemptName t.candidate t.model

def Trial.Fell (t : Trial) : Prop := ∃ e, t.result = .error (.providerCall e)

def Located (call : Call) : Prop :=
  match call.pc with
  | .trying current _ rest =>
    call.candidates = call.trials.map Trial.candidate ++ current :: rest ∧
      (∀ t ∈ call.trials, t.Fell) ∧ call.attempts = call.trials.map Trial.name
  | .noProvider =>
    call.candidates = call.trials.map Trial.candidate ∧ ∀ t ∈ call.trials, t.Fell
  | .returned out => ∃ before last answer latencyMs rest, call.trials = before ++ [last] ∧
      call.candidates = call.trials.map Trial.candidate ++ rest ∧ (∀ t ∈ before, t.Fell) ∧
      last.result = .ok answer ∧
      out = stamp answer last.candidate last.model latencyMs (before.map Trial.name)
  | .raised => ∃ before last rest, call.trials = before ++ last ∧ last.length ≤ 1 ∧
      call.candidates = call.trials.map Trial.candidate ++ rest ∧ (∀ t ∈ before, t.Fell) ∧
      ∀ t ∈ last, ∀ out, t.result ≠ .ok out

theorem located_tryNext (call : Call) {rest : List Candidate}
    (hc : call.candidates = call.trials.map Trial.candidate ++ rest) (hf : ∀ t ∈ call.trials, t.Fell)
    (ha : call.attempts = call.trials.map Trial.name) :
    Located { call with pc := tryNext settings rest } := by
  cases rest with
  | nil =>
    rw [List.append_nil] at hc
    exact ⟨hc, hf⟩
  | cons c rest =>
    simp only [tryNext]
    split
    · exact ⟨hc, hf, ha⟩
    · exact ⟨call.trials, [], c :: rest, (List.append_nil _).symm, Nat.zero_le 1, hc, hf, by simp⟩

theorem located_begun (settings : Settings) (s : State C) (complexity : Complexity)
    (enabled : Provider → Bool) (readings : List ℚ) :
    Located (begun settings s complexity enabled readings) := by
  apply located_tryNext (begun settings s complexity enabled readings)
  · rfl
  · simp [begun]
  · rfl

theorem Located.finish {call : Call} (h : Located call) {current : Candidate} {model : String}
    {rest : List Candidate} (hp : call.pc = .trying current model rest) (result : Result)
    (latencyMs : ℤ) : Located (call.finish settings current model rest result latencyMs) := by
  rw [Located, hp] at h
  obtain ⟨hc, hf, ha⟩ := h
  have hcandidates : call.candidates =
      (call.trials ++ [Trial.mk current model result]).map Trial.candidate ++ rest := by
    simp [hc]
  unfold Call.finish
  cases result with
  | ok out =>
    exact ⟨call.trials, _, out, latencyMs, rest, rfl, hcandidates, hf, rfl, by rw [← ha]⟩
  | error raised =>
    cases raised with
    | providerCall e =>
      apply located_tryNext { call with
        trials := call.trials ++ [⟨current, model, .error (.providerCall e)⟩]
        attempts := call.attempts ++ [attemptName current model] } hcandidates
      · intro t ht
        rcases List.mem_append.mp ht with ht | ht
        · exact hf t ht
        · rw [List.mem_singleton.mp ht]
          exact ⟨e, rfl⟩
      · simp [ha, Trial.name]
    | other e =>
      refine ⟨call.trials, [_], rest, rfl, Nat.le_refl 1, hcandidates, hf, ?_⟩
      intro t ht out
      rw [List.mem_singleton.mp ht]
      simp

structure Orderly (settings : Settings) (call : Call) : Prop where
  chained : ∃ enabled complexity, call.chain = chain settings enabled complexity
  order : call.candidates.Sublist call.chain
  located : Located call

theorem candidates_sublist (s : State C) (chain : List Candidate) (readings : List ℚ) :
    (candidates s chain readings).Sublist chain := by
  unfold candidates healthyCandidates
  split_ifs
  · exact List.Sublist.refl chain
  · apply ((List.filter_sublist (l := chain.zip readings)).map Prod.fst).trans
    rw [List.zip_eq_zip_take_min, List.map_fst_zip (by simp)]
    exact List.take_sublist _ _

theorem orderly_begun (settings : Settings) (s : State C) (complexity : Complexity)
    (enabled : Provider → Bool) (readings : List ℚ) :
    Orderly settings (begun settings s complexity enabled readings) where
  chained := ⟨enabled, complexity, rfl⟩
  order := candidates_sublist s _ readings
  located := located_begun settings s complexity enabled readings

theorem Orderly.finish {call : Call} (h : Orderly settings call) {current : Candidate}
    {model : String} {rest : List Candidate} (hp : call.pc = .trying current model rest)
    (result : Result) (latencyMs : ℤ) :
    Orderly settings (call.finish settings current model rest result latencyMs) := by
  have hsame : (call.finish settings current model rest result latencyMs).chain = call.chain ∧
      (call.finish settings current model rest result latencyMs).candidates = call.candidates := by
    unfold Call.finish
    split <;> exact ⟨rfl, rfl⟩
  constructor
  · rw [hsame.1]
    exact h.chained
  · rw [hsame.1, hsame.2]
    exact h.order
  · exact h.located.finish hp result latencyMs

structure Kept (settings : Settings) (s : State C) : Prop where
  mirrors : Mirrors s
  orderly : ∀ c call, s.calls c = some call → Orderly settings call

theorem kept_created (settings : Settings) (clock : ℚ) : Kept settings (created C clock) where
  mirrors _ := rfl
  orderly c call h := by cases h

variable [DecidableEq C]

theorem calls_set (s : State C) (c c' : C) (call : Call) :
    (s.set c call).calls c' = if c' = c then some call else s.calls c' := by
  simp [State.set, Function.update_apply]

theorem Kept.step {s t : State C} {a : Action C} (h : Kept settings s)
    (hs : step settings s a = some t) : Kept settings t := by
  cases step_cases hs with
  | begins c complexity enabled readings hc =>
    refine ⟨h.mirrors, ?_⟩
    intro c' call' hcall
    rw [calls_set] at hcall
    split_ifs at hcall
    · rw [← Option.some.inj hcall]
      exact orderly_begun settings s complexity enabled readings
    · exact h.orderly c' call' hcall
  | finishes c call current model rest result now latencyMs hc hp =>
    refine ⟨h.mirrors.finish c current.provider result now, ?_⟩
    intro c' call' hcall
    rw [calls_set, calls_finish] at hcall
    split_ifs at hcall
    · rw [← Option.some.inj hcall]
      exact (h.orderly c call hc).finish hp result latencyMs
    · exact h.orderly c' call' hcall

structure Tried (settings : Settings) (call : Call) : Prop where
  chained : ∃ enabled complexity, call.chain = chain settings enabled complexity
  order : (call.trials.map Trial.candidate).Sublist call.chain
  fell : ∀ t ∈ call.trials.dropLast, t.Fell
  returns : ∀ out, call.pc = .returned out → ∃ before last answer latencyMs,
    call.trials = before ++ [last] ∧ last.result = .ok answer ∧
      out = stamp answer last.candidate last.model latencyMs (before.map Trial.name)
  succeeds : ∀ t ∈ call.trials, ∀ answer, t.result = .ok answer → ∃ out, call.pc = .returned out

theorem Trial.Fell.not_ok {t : Trial} (h : t.Fell) (answer : StepOutput Dict) :
    t.result ≠ .ok answer := by
  obtain ⟨e, he⟩ := h
  rw [he]
  exact nofun

theorem Located.prefix {call : Call} (h : Located call) :
    (call.trials.map Trial.candidate) <+: call.candidates := by
  unfold Located at h
  split at h
  · exact ⟨_, h.1.symm⟩
  · exact ⟨[], by rw [List.append_nil, h.1]⟩
  · obtain ⟨_, _, _, _, rest, _, hc, _⟩ := h
    exact ⟨rest, hc.symm⟩
  · obtain ⟨_, _, rest, _, _, hc, _⟩ := h
    exact ⟨rest, hc.symm⟩

theorem Orderly.tried {call : Call} (h : Orderly settings call) : Tried settings call where
  chained := h.chained
  order := h.located.prefix.sublist.trans h.order
  fell t ht := by
    have hlocated := h.located
    unfold Located at hlocated
    split at hlocated
    · exact hlocated.2.1 t ((List.dropLast_sublist _).subset ht)
    · exact hlocated.2 t ((List.dropLast_sublist _).subset ht)
    · obtain ⟨before, last, _, _, _, htrials, _, hf, _⟩ := hlocated
      rw [htrials, List.dropLast_concat] at ht
      exact hf t ht
    · obtain ⟨before, last, _, htrials, hlen, _, hf, _⟩ := hlocated
      apply hf t
      rw [htrials] at ht
      match last, hlen with
      | [], _ =>
        rw [List.append_nil] at ht
        exact (List.dropLast_sublist _).subset ht
      | [x], _ => rwa [List.dropLast_concat] at ht
  returns out hout := by
    have hlocated := h.located
    rw [Located, hout] at hlocated
    obtain ⟨before, last, answer, latencyMs, _, htrials, _, _, hlast, hstamp⟩ := hlocated
    exact ⟨before, last, answer, latencyMs, htrials, hlast, hstamp⟩
  succeeds t ht answer hanswer := by
    have hlocated := h.located
    unfold Located at hlocated
    split at hlocated
    · exact absurd hanswer ((hlocated.2.1 t ht).not_ok answer)
    · exact absurd hanswer ((hlocated.2 t ht).not_ok answer)
    · rename_i out hout
      exact ⟨out, hout⟩
    · obtain ⟨before, last, _, htrials, _, _, hf, hlast⟩ := hlocated
      rw [htrials] at ht
      rcases List.mem_append.mp ht with ht | ht
      · exact absurd hanswer ((hf t ht).not_ok answer)
      · exact absurd hanswer (hlast t ht answer)

theorem kept_run {clock : ℚ} {as : List (Action C)} {s : State C}
    (h : exec (ModelRouter.step settings) (created C clock) as = some s) : Kept settings s :=
  (reaches_of_exec h (obeys_always _ as)).invariant (kept_created settings clock)
    fun _ _ _ hi _ hs => hi.step hs

def twoProviders : Settings :=
  ⟨[⟨"local", .openaiCompatible, "http://localhost:11434/v1", "", [("default", "qwen2.5:3b-instruct")]⟩,
    ⟨"deepseek", .openaiCompatible, "https://api.deepseek.com/v1", "DEEPSEEK_API_KEY",
      [("default", "deepseek-chat")]⟩], false⟩

def answer (text : String) : StepOutput Dict := ⟨text, [], "", "", ⟨10, 5⟩, none, 0, []⟩

def timedOut : Result := .error (.providerCall ⟨"local", "qwen2.5:3b-instruct", .transport "timed out"⟩)

end Workbench.ModelRouter
