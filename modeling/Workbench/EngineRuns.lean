import Workbench.WorkflowEngine
import Mathlib.Tactic.Ring

namespace Workbench.WorkflowEngine

open Transitions

variable {D : Type} [StateDict D] {wf : WorkflowDef}

def play (wf : WorkflowDef) (d : Drive D) : List (Reply D) → Drive D
  | [] => d
  | r :: rs =>
    match answer wf d r with
    | none => d
    | some t => play wf t rs

def Point.left : Point → ℕ
  | .running step attempt => 2 * (step.maxAttempts - attempt).toNat + 2
  | .sleeping step attempt => 2 * (step.maxAttempts - attempt).toNat + 1
  | .branching _ => 1
  | _ => 0

def roundCost (wf : WorkflowDef) : ℕ := (wf.steps.map fun s => 2 * s.maxAttempts.toNat).foldr max 1

def fuel (wf : WorkflowDef) (d : Drive D) : ℕ :=
  (maxStepsPerRun - d.run.stepsExecuted) * roundCost wf + d.point.left

def complete (wf : WorkflowDef) (env : ℕ → Reply D) (d : Drive D) : Drive D :=
  play wf d ((List.range (fuel wf d)).map env)

omit [StateDict D] in
theorem attempts_le_roundCost {step : Step} (h : step ∈ wf.steps) :
    2 * step.maxAttempts.toNat ≤ roundCost wf := by
  unfold roundCost
  generalize wf.steps = steps at h
  induction steps with
  | nil => simp at h
  | cons s rest ih =>
    simp only [List.map_cons, List.foldr_cons]
    rcases List.mem_cons.mp h with rfl | hrest
    · exact le_max_left _ _
    · exact (ih hrest).trans (le_max_right _ _)

omit [StateDict D] in
theorem fuel_loopHead (wf : WorkflowDef) (approved : List String) (run : WorkflowRun D)
    (current : Option String) :
    fuel wf (loopHead wf approved run current) ≤
      (maxStepsPerRun - run.stepsExecuted) * roundCost wf := by
  have hhead := loopHead_cases wf approved run current
  generalize loopHead wf approved run current = t at hhead ⊢
  cases hhead with
  | begins name step hb hs ha hm =>
    have hcost := attempts_le_roundCost (WorkflowDef.step_mem hs)
    obtain ⟨left, hleft⟩ : ∃ left, maxStepsPerRun - run.stepsExecuted = left + 1 :=
      ⟨maxStepsPerRun - run.stepsExecuted - 1, by omega⟩
    have hnext : maxStepsPerRun - (run.stepsExecuted + 1) = left := by omega
    simp only [fuel, Point.left, hnext, hleft, Nat.add_mul, one_mul]
    omega
  | skips name step hb hs ha hm =>
    simp only [fuel, finish, Point.left, add_zero]
    exact Nat.mul_le_mul_right _ (by omega)
  | _ => simp [fuel, finish, Point.left]

theorem fuel_answer {d t : Drive D} {r : Reply D} (h : answer wf d r = some t) :
    fuel wf t < fuel wf d := by
  have hfinish : ∀ (run : WorkflowRun D), run.stepsExecuted = d.run.stepsExecuted →
      0 < d.point.left → fuel wf (finish d.approved run) < fuel wf d := by
    intro run hrun hleft
    change (maxStepsPerRun - run.stepsExecuted) * roundCost wf + 0 < _
    rw [hrun, fuel]
    omega
  have hhead : ∀ (run : WorkflowRun D) current, run.stepsExecuted = d.run.stepsExecuted →
      0 < d.point.left → fuel wf (loopHead wf d.approved run current) < fuel wf d := by
    intro run current hrun hleft
    have hle := fuel_loopHead wf d.approved run current
    rw [hrun] at hle
    simp only [fuel] at hle ⊢
    omega
  cases answer_cases h with
  | sleeps step n exc hp hr hn =>
    simp only [fuel, hp, Point.left, recordFailure]
    omega
  | retries step n exc hp hr hn =>
    simp only [fuel, hp, Point.left, recordFailure]
    omega
  | fails step n exc hp hr => exact hfinish _ rfl (by simp [hp, Point.left])
  | branches step n updates hp hr hn =>
    simp only [fuel, hp, Point.left, recordSuccess]
    omega
  | stops step n updates hp hr hn => exact hhead _ none rfl (by simp [hp, Point.left])
  | goes step n updates name hp hr hn => exact hhead _ (some name) rfl (by simp [hp, Point.left])
  | wakes step n hp hn =>
    simp only [fuel, hp, Point.left]
    omega
  | oversleeps step n hp => exact hfinish _ rfl (by simp [hp, Point.left])
  | escapes step n exc hp hr =>
    simp only [fuel, hp, Point.left]
    omega
  | raises step exc hp hr =>
    simp only [fuel, hp, Point.left]
    omega
  | chooses step current hp hr => exact hhead _ current rfl (by simp [hp, Point.left])

theorem play_ended {d : Drive D} {rs : List (Reply D)} (h : fuel wf d ≤ rs.length) :
    (play wf d rs).point.Ended := by
  induction rs generalizing d with
  | nil =>
    have hzero : d.point.left = 0 := by
      simp only [List.length_nil, fuel] at h
      omega
    simp only [play]
    cases hp : d.point <;> simp [hp, Point.left] at hzero <;> trivial
  | cons r rs ih =>
    simp only [play]
    cases ha : answer wf d r with
    | none => exact answer_eq_none.mp ha
    | some t =>
      have hless := fuel_answer ha
      apply ih
      simp only [List.length_cons] at h
      omega

theorem complete_ended (wf : WorkflowDef) (env : ℕ → Reply D) (d : Drive D) :
    (complete wf env d).point.Ended := play_ended (by simp)

theorem play_invariant {I : Drive D → Prop} (keep : ∀ d r t, I d → answer wf d r = some t → I t)
    {d : Drive D} (h : I d) (rs : List (Reply D)) : I (play wf d rs) := by
  induction rs generalizing d with
  | nil => exact h
  | cons r rs ih =>
    simp only [play]
    cases ha : answer wf d r with
    | none => exact h
    | some t => exact ih (keep d r t h ha)

end Workbench.WorkflowEngine
