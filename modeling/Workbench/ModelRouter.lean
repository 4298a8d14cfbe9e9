import Workbench.ProviderCalls
import Workbench.Transitions
import Mathlib.Logic.Function.Basic

/-!
`ModelRouter` shared by concurrent `step` calls, which take turns while a provider is awaited. What
a provider does is the result of an attempt; every turn reads the clock, in seconds. A deadline is
the exact sum of a reading and the cooldown, where the source adds doubles, so that its own may be
off by their rounding.
-/

namespace Workbench.ModelRouter

open AgentRuntime PyJson

structure Candidate where
  provider : String
  role : String
  deriving DecidableEq

def healthCooldown : ℚ := 30

/-- USD for a million tokens of input, and of output. -/
def pricesPerMtok : List (String × ℚ × ℚ) :=
  [("claude-opus-4-8", 5, 25), ("claude-sonnet-4-6", 3, 15), ("claude-haiku-4-5", 1, 5),
    ("gpt-5.1", 5 / 4, 10), ("deepseek-chat", 27 / 100, 11 / 10),
    ("deepseek-reasoner", 55 / 100, 219 / 100), ("kimi-k2-0905-preview", 6 / 10, 5 / 2)]

def localPrefixes : List String := ["qwen", "llama", "mistral", "gemma", "phi"]

/-- `str.lower`, so far as a prefix of ASCII letters tells. -/
def lower (cs : List Char) : List Char :=
  cs.flatMap fun c =>
    if c.toNat = 0x130 then ['i', Char.ofNat 0x307] else if c.toNat = 0x212a then ['k'] else [c.toLower]

def estimateCostUsd (model : String) (usage : Usage) : Option ℚ :=
  match pricesPerMtok.lookup model with
  | some (inPrice, outPrice) =>
    some ((usage.inputTokens * inPrice + usage.outputTokens * outPrice) / 1000000)
  | none => if localPrefixes.any fun p => p.toList.isPrefixOf (lower model.toList) then some 0 else none

structure Settings where
  registry : List Provider
  routeStandardViaLocal : Bool

def Settings.provider (settings : Settings) (name : String) : Option Provider :=
  settings.registry.find? fun p => p.name = name

def cheap : List Candidate := [⟨"deepseek", "default"⟩, ⟨"kimi", "default"⟩]

def frontier : List Candidate := [⟨"anthropic", "default"⟩, ⟨"openai", "default"⟩]

def localFirst : List Candidate := [⟨"local", "default"⟩]

def wholeChain (settings : Settings) : Complexity → List Candidate
  | .simple => localFirst ++ cheap ++ [⟨"anthropic", "small"⟩]
  | .standard => (if settings.routeStandardViaLocal then localFirst else []) ++ cheap ++ frontier
  | .complex => frontier
  | .judge => frontier

/-- `enabled` tells the providers whose key the environment has. -/
def chain (settings : Settings) (enabled : Provider → Bool) (complexity : Complexity) :
    List Candidate :=
  (wholeChain settings complexity).filter fun c => (settings.provider c.provider).any enabled

/-- An attempt under way, or how the call ended; `rest` are the candidates after it. -/
inductive Pc
  | trying (current : Candidate) (model : String) (rest : List Candidate)
  | returned (out : StepOutput Dict)
  | noProvider
  | raised

abbrev Result := Except Raised (StepOutput Dict)

structure Trial where
  candidate : Candidate
  model : String
  result : Result

structure Call where
  chain : List Candidate
  candidates : List Candidate
  attempts : List String
  trials : List Trial
  pc : Pc

variable {C : Type}

structure Finished (C : Type) where
  call : C
  provider : String
  result : Result
  time : ℚ

structure State (C : Type) where
  clock : ℚ
  unhealthyUntil : String → Option ℚ
  log : List (Finished C)
  calls : C → Option Call

def created (C : Type) (clock : ℚ) : State C := ⟨clock, fun _ => none, [], fun _ => none⟩

/-- `readings` are those of the clock for each candidate of the chain. -/
inductive Action (C : Type)
  | begins (c : C) (complexity : Complexity) (enabled : Provider → Bool) (readings : List ℚ)
  | finishes (c : C) (result : Result) (now : ℚ) (latencyMs : ℤ)

def State.isHealthy (s : State C) (provider : String) (now : ℚ) : Bool :=
  match s.unhealthyUntil provider with
  | none => true
  | some deadline => deadline ≤ now

def State.markUnhealthy (s : State C) (provider : String) (now : ℚ) : State C :=
  if 0 < healthCooldown then
    { s with unhealthyUntil := Function.update s.unhealthyUntil provider (some (now + healthCooldown)) }
  else s

def State.recover (s : State C) (provider : String) : State C :=
  { s with unhealthyUntil := Function.update s.unhealthyUntil provider none }

def healthyCandidates (s : State C) (chain : List Candidate) (readings : List ℚ) : List Candidate :=
  ((chain.zip readings).filter fun r => s.isHealthy r.1.provider r.2).map Prod.fst

def candidates (s : State C) (chain : List Candidate) (readings : List ℚ) : List Candidate :=
  if healthyCandidates s chain readings = [] then chain else healthyCandidates s chain readings

def attemptName (candidate : Candidate) (model : String) : String := candidate.provider ++ "/" ++ model

/-- The head of the loop over the candidates; a role that the provider has no model for is a
`KeyError`. -/
def tryNext (settings : Settings) : List Candidate → Pc
  | [] => .noProvider
  | c :: rest =>
    match (settings.provider c.provider).bind fun p => p.models.lookup c.role with
    | some model => .trying c model rest
    | none => .raised

def stamp (out : StepOutput Dict) (candidate : Candidate) (model : String) (latencyMs : ℤ)
    (attempts : List String) : StepOutput Dict :=
  { out with
    provider := candidate.provider
    model := model
    latencyMs := latencyMs
    costUsd := estimateCostUsd model out.usage
    attempts := attempts }

def Call.finish (settings : Settings) (call : Call) (current : Candidate) (model : String)
    (rest : List Candidate) (result : Result) (latencyMs : ℤ) : Call :=
  let trials := call.trials ++ [⟨current, model, result⟩]
  match result with
  | .ok out => { call with trials, pc := .returned (stamp out current model latencyMs call.attempts) }
  | .error (.providerCall _) =>
    { call with
      trials
      attempts := call.attempts ++ [attemptName current model]
      pc := tryNext settings rest }
  | .error (.other _) => { call with trials, pc := .raised }

def State.settle (s : State C) (provider : String) (result : Result) (now : ℚ) : State C :=
  match result with
  | .ok _ => s.recover provider
  | .error (.providerCall _) => s.markUnhealthy provider now
  | .error (.other _) => s

def State.finish (s : State C) (c : C) (provider : String) (result : Result) (now : ℚ) : State C :=
  State.settle { s with clock := now, log := s.log ++ [⟨c, provider, result, now⟩] } provider result now

section Step

variable [DecidableEq C]

def State.set (s : State C) (c : C) (call : Call) : State C :=
  { s with calls := Function.update s.calls c (some call) }

def begun (settings : Settings) (s : State C) (complexity : Complexity) (enabled : Provider → Bool)
    (readings : List ℚ) : Call :=
  let chain := chain settings enabled complexity
  let candidates := candidates s chain readings
  ⟨chain, candidates, [], [], tryNext settings candidates⟩

def step (settings : Settings) (s : State C) : Action C → Option (State C)
  | .begins c complexity enabled readings =>
    match s.calls c with
    | some _ => none
    | none => some ({ s with clock := readings.getLastD s.clock }.set c
        (begun settings s complexity enabled readings))
  | .finishes c result now latencyMs => (s.calls c).bind fun call =>
      match call.pc with
      | .trying current model rest =>
        some ((s.finish c current.provider result now).set c
          (call.finish settings current model rest result latencyMs))
      | _ => none

/-- The clock does not go back, and is read once for each candidate. -/
def Ticks (settings : Settings) (s : State C) : Action C → Prop
  | .begins _ complexity enabled readings =>
    readings.length = (chain settings enabled complexity).length ∧ (s.clock :: readings).Pairwise (· ≤ ·)
  | .finishes _ _ now _ => s.clock ≤ now

instance (settings : Settings) (s : State C) : (a : Action C) → Decidable (Ticks settings s a)
  | .begins _ _ _ _ => inferInstanceAs (Decidable (_ ∧ _))
  | .finishes _ _ _ _ => inferInstanceAs (Decidable (_ ≤ _))

inductive StepTo (settings : Settings) (s : State C) : Action C → State C → Prop
  | begins (c : C) (complexity : Complexity) (enabled : Provider → Bool) (readings : List ℚ)
      (hc : s.calls c = none) : StepTo settings s (.begins c complexity enabled readings)
        ({ s with clock := readings.getLastD s.clock }.set c
          (begun settings s complexity enabled readings))
  | finishes (c : C) (call : Call) (current : Candidate) (model : String) (rest : List Candidate)
      (result : Result) (now : ℚ) (latencyMs : ℤ) (hc : s.calls c = some call)
      (hp : call.pc = .trying current model rest) : StepTo settings s (.finishes c result now latencyMs)
        ((s.finish c current.provider result now).set c
          (call.finish settings current model rest result latencyMs))

theorem step_cases {settings : Settings} {s t : State C} {a : Action C}
    (h : step settings s a = some t) : StepTo settings s a t := by
  cases a with
  | begins c complexity enabled readings =>
    simp only [step] at h
    split at h
    · cases h
    · rename_i hc
      cases h
      exact .begins c complexity enabled readings hc
  | finishes c result now latencyMs =>
    obtain ⟨call, hc, h⟩ := Option.bind_eq_some_iff.mp h
    split at h
    · rename_i current model rest hp
      cases h
      exact .finishes c call current model rest result now latencyMs hc hp
    · cases h

end Step

end Workbench.ModelRouter
