import Workbench.JobQueue
import Workbench.RunLease
import Workbench.IdempotencyKeys
import Mathlib.Data.Fintype.Basic

/-!
`POST /runs` of the autonomous agent: `submit` with the `create_run` inside it. Submits take turns
at their awaits, each of which is one transaction of the run store or one push to the queue.
-/

namespace Workbench.RunSubmits

open KeyedTable RunStore RunLease JobQueue

structure RunHandle where
  runId : String
  status : Status
  deriving DecidableEq

/-- The await a submit is suspended at, or how it ended; `fresh` tells the handle of a run it
enqueued from that of an existing one. -/
inductive Pc
  | looking
  | creating (runId : String)
  | lost (runId : String)
  | fetching (runId : String)
  | enqueuing (runId : String)
  | returned (handle : RunHandle) (fresh : Bool)
  | raised
  deriving DecidableEq

structure Submit where
  goal : String
  key : Option String
  pc : Pc
  deriving DecidableEq

variable {C R : Type}

structure State (C R : Type) where
  store : RunTable (AutonomousPayload R)
  jobs : List (Job (AutonomousPayload R))
  submits : C → Option Submit

def opened (C : Type) (store : RunTable (AutonomousPayload R)) : State C R := ⟨store, [], fun _ => none⟩

inductive Action (C : Type)
  | begins (c : C) (goal : String) (key : Option String) (runId : String)
  | looks (c : C) (runId : String)
  | inserts (c : C) (now : ℤ)
  | finds (c : C)
  | fetches (c : C)
  | pushes (c : C)

def newRow (t : Submit) (runId : String) (now : ℤ) : AgentRun (AutonomousPayload R) :=
  ⟨runId, autonomousKind, .pending, t.key, ⟨t.goal, none⟩, none, now, now⟩

def settle (record : AgentRun (AutonomousPayload R)) (runId : String) : Pc :=
  if record.id ≠ runId then .returned ⟨record.id, record.status⟩ false else .enqueuing runId

section Step

variable [DecidableEq C]

def State.set (s : State C R) (c : C) (t : Submit) (pc : Pc) : State C R :=
  { s with submits := Function.update s.submits c (some { t with pc }) }

/-- `runId` is what `uuid4().hex[:16]` gives when the step draws one. -/
def step (s : State C R) : Action C → Option (State C R)
  | .begins c goal key runId =>
    match s.submits c with
    | some _ => none
    | none => some (s.set c ⟨goal, key, .looking⟩
        (if key.getD "" = "" then .creating runId else .looking))
  | .looks c runId => (s.submits c).bind fun t =>
      match t.pc with
      | .looking => some (match t.key.bind (getRunByIdempotencyKey s.store autonomousKind) with
        | some existing => s.set c t (.returned ⟨existing.id, existing.status⟩ false)
        | none => s.set c t (.creating runId))
      | _ => none
  | .inserts c now => (s.submits c).bind fun t =>
      match t.pc with
      | .creating runId => some (match insertRow s.store (newRow t runId now) with
        | some store => { s with store }.set c t (settle (newRow (R := R) t runId now) runId)
        | none => s.set c t (if t.key.isSome then .lost runId else .fetching runId))
      | _ => none
  | .finds c => (s.submits c).bind fun t =>
      match t.pc with
      | .lost runId => some (match t.key.bind (getRunByIdempotencyKey s.store autonomousKind) with
        | some existing => s.set c t (settle existing runId)
        | none => s.set c t (.fetching runId))
      | _ => none
  | .fetches c => (s.submits c).bind fun t =>
      match t.pc with
      | .fetching runId => some (match getRun s.store runId with
        | some existing => s.set c t (settle existing runId)
        | none => s.set c t .raised)
      | _ => none
  | .pushes c => (s.submits c).bind fun t =>
      match t.pc with
      | .enqueuing runId => some (match newJob autonomousKind runId ⟨t.goal, none⟩ with
        | some job => { s with jobs := s.jobs ++ [job] }.set c t (.returned ⟨runId, .pending⟩ true)
        | none => s.set c t .raised)
      | _ => none

end Step

def Pc.Ended : Pc → Prop
  | .returned _ _ => True
  | .raised => True
  | _ => False

def Pc.drawn : Pc → Option String
  | .creating runId => some runId
  | .lost runId => some runId
  | .fetching runId => some runId
  | _ => none

def hexDigit (c : Char) : Bool := c.isDigit || ('a' ≤ c && c ≤ 'f')

def hexId (runId : String) : Bool := runId.toList.length = 16 && runId.toList.all hexDigit

def FreshId (s : State C R) (runId : String) : Prop :=
  hexId runId = true ∧ s.store.get runId = none ∧ ∀ c, ∀ t ∈ s.submits c, t.pc.drawn ≠ some runId

instance [Fintype C] (s : State C R) (runId : String) : Decidable (FreshId s runId) :=
  inferInstanceAs (Decidable (_ ∧ _ ∧ _))

def Fresh (s : State C R) : Action C → Prop
  | .begins _ _ key runId => key.getD "" = "" → FreshId s runId
  | .looks _ runId => FreshId s runId
  | _ => True

instance [Fintype C] (s : State C R) (a : Action C) : Decidable (Fresh s a) := by
  cases a <;> unfold Fresh <;> infer_instance

inductive StepTo [DecidableEq C] (s : State C R) : Action C → State C R → Prop
  | draws (c : C) (goal : String) (key : Option String) (runId : String) (hc : s.submits c = none)
      (hk : key.getD "" = "") : StepTo s (.begins c goal key runId)
        (s.set c ⟨goal, key, .looking⟩ (.creating runId))
  | begins (c : C) (goal : String) (key runId : String) (hc : s.submits c = none) (hk : key ≠ "") :
      StepTo s (.begins c goal (some key) runId) (s.set c ⟨goal, some key, .looking⟩ .looking)
  | hits (c : C) (t : Submit) (runId key : String) (row : AgentRun (AutonomousPayload R))
      (hc : s.submits c = some t) (hp : t.pc = .looking) (hk : t.key = some key)
      (hr : getRunByIdempotencyKey s.store autonomousKind key = some row) :
      StepTo s (.looks c runId) (s.set c t (.returned ⟨row.id, row.status⟩ false))
  | misses (c : C) (t : Submit) (runId : String) (hc : s.submits c = some t) (hp : t.pc = .looking)
      (hk : t.key.bind (getRunByIdempotencyKey s.store autonomousKind) = none) :
      StepTo s (.looks c runId) (s.set c t (.creating runId))
  | inserts (c : C) (t : Submit) (now : ℤ) (runId : String) (store : RunTable (AutonomousPayload R))
      (hc : s.submits c = some t) (hp : t.pc = .creating runId)
      (hi : insertRow s.store (newRow t runId now) = some store) :
      StepTo s (.inserts c now) ({ s with store }.set c t (.enqueuing runId))
  | conflicts (c : C) (t : Submit) (now : ℤ) (runId : String) (hc : s.submits c = some t)
      (hp : t.pc = .creating runId) (hi : insertRow s.store (newRow t runId now) = none) :
      StepTo s (.inserts c now) (s.set c t (if t.key.isSome then .lost runId else .fetching runId))
  | finds (c : C) (t : Submit) (runId key : String) (row : AgentRun (AutonomousPayload R))
      (hc : s.submits c = some t) (hp : t.pc = .lost runId) (hk : t.key = some key)
      (hr : getRunByIdempotencyKey s.store autonomousKind key = some row) :
      StepTo s (.finds c) (s.set c t (settle row runId))
  | findsNone (c : C) (t : Submit) (runId : String) (hc : s.submits c = some t)
      (hp : t.pc = .lost runId)
      (hk : t.key.bind (getRunByIdempotencyKey s.store autonomousKind) = none) :
      StepTo s (.finds c) (s.set c t (.fetching runId))
  | fetches (c : C) (t : Submit) (runId : String) (row : AgentRun (AutonomousPayload R))
      (hc : s.submits c = some t) (hp : t.pc = .fetching runId) (hr : s.store.get runId = some row) :
      StepTo s (.fetches c) (s.set c t (settle row runId))
  | raises (c : C) (t : Submit) (runId : String) (hc : s.submits c = some t)
      (hp : t.pc = .fetching runId) (hr : s.store.get runId = none) :
      StepTo s (.fetches c) (s.set c t .raised)
  | pushes (c : C) (t : Submit) (runId : String) (job : Job (AutonomousPayload R))
      (hc : s.submits c = some t) (hp : t.pc = .enqueuing runId)
      (hj : newJob autonomousKind runId ⟨t.goal, none⟩ = some job) :
      StepTo s (.pushes c) ({ s with jobs := s.jobs ++ [job] }.set c t (.returned ⟨runId, .pending⟩ true))
  | rejects (c : C) (t : Submit) (runId : String) (hc : s.submits c = some t)
      (hp : t.pc = .enqueuing runId)
      (hj : newJob (P := AutonomousPayload R) autonomousKind runId ⟨t.goal, none⟩ = none) :
      StepTo s (.pushes c) (s.set c t .raised)

theorem step_cases [DecidableEq C] {s t : State C R} {a : Action C} (h : step s a = some t) :
    StepTo s a t := by
  cases a with
  | begins c goal key runId =>
    simp only [step] at h
    split at h
    · cases h
    · rename_i hc
      cases h
      split_ifs with hk
      · exact .draws c goal key runId hc hk
      · obtain ⟨key, rfl⟩ : ∃ k, key = some k := by
          cases key with
          | none => exact absurd rfl hk
          | some k => exact ⟨k, rfl⟩
        exact .begins c goal key runId hc hk
  | looks c runId =>
    obtain ⟨task, hc, h⟩ := Option.bind_eq_some_iff.mp h
    split at h
    · rename_i hp
      cases h
      split
      · rename_i row hr
        obtain ⟨key, hk, hr⟩ := Option.bind_eq_some_iff.mp hr
        exact .hits c task runId key row hc hp hk hr
      · rename_i hk
        exact .misses c task runId hc hp hk
    · cases h
  | inserts c now =>
    obtain ⟨task, hc, h⟩ := Option.bind_eq_some_iff.mp h
    split at h
    · rename_i runId hp
      cases h
      split
      · rename_i store hi
        have hown : settle (newRow (R := R) task runId now) runId = .enqueuing runId := by
          simp [settle, newRow]
        rw [hown]
        exact .inserts c task now runId store hc hp hi
      · rename_i hi
        exact .conflicts c task now runId hc hp hi
    · cases h
  | finds c =>
    obtain ⟨task, hc, h⟩ := Option.bind_eq_some_iff.mp h
    split at h
    · rename_i runId hp
      cases h
      split
      · rename_i row hr
        obtain ⟨key, hk, hr⟩ := Option.bind_eq_some_iff.mp hr
        exact .finds c task runId key row hc hp hk hr
      · rename_i hk
        exact .findsNone c task runId hc hp hk
    · cases h
  | fetches c =>
    obtain ⟨task, hc, h⟩ := Option.bind_eq_some_iff.mp h
    split at h
    · rename_i runId hp
      cases h
      split
      · rename_i row hr
        exact .fetches c task runId row hc hp hr
      · rename_i hr
        exact .raises c task runId hc hp hr
    · cases h
  | pushes c =>
    obtain ⟨task, hc, h⟩ := Option.bind_eq_some_iff.mp h
    split at h
    · rename_i runId hp
      cases h
      split
      · rename_i job hj
        exact .pushes c task runId job hc hp hj
      · rename_i hj
        exact .rejects c task runId hc hp hj
    · cases h

theorem newJob_hexId {P : Type} {runId : String} (h : hexId runId = true) (payload : P) :
    (newJob autonomousKind runId payload).isSome := by
  have hkind : kindPattern autonomousKind = true := by decide +kernel
  have hid : runIdPattern runId = true := by
    simp only [hexId, Bool.and_eq_true, decide_eq_true_eq, List.all_eq_true] at h
    obtain ⟨hlen, hall⟩ := h
    simp only [runIdPattern, hlen, Bool.and_eq_true, decide_eq_true_eq, List.all_eq_true]
    refine ⟨by omega, fun ch hch => ?_⟩
    have hhex := hall ch hch
    simp only [hexDigit, Bool.or_eq_true, Bool.and_eq_true, decide_eq_true_eq] at hhex
    rcases hhex with hd | ⟨ha, hf⟩
    · simp [Char.isAlphanum, hd]
    · have hlower : ch.isLower = true := (Bool.and_eq_true _ _).mpr ⟨decide_eq_true ha,
        decide_eq_true (UInt32.le_trans hf (show 'f'.val ≤ 'z'.val by decide))⟩
      have halpha : ch.isAlpha = true := (Bool.or_eq_true _ _).mpr (.inr hlower)
      simp [Char.isAlphanum, halpha]
  simp [newJob, hkind, hid]

end Workbench.RunSubmits
