import Workbench.AutonomousRuns

namespace Workbench.AgentRuntime

open Ledgers PyJson

variable {J : Type} {lib : AutonomousLibrary J} {goal : String}

def answers (iterations : List Iteration) : List String :=
  (iterations.map Iteration.actions).filter (· ≠ "")

structure Unmet (s : AutonomousState) : Prop where
  unmet : ∀ it ∈ s.iterations, it.reflection.goalMet = false
  plans : ∀ it ∈ s.iterations, 1 ≤ it.plan.length ∧ it.plan.length ≤ maxPlanSteps
  answer : s.finalAnswer = (answers s.iterations).getLast?.getD ""
  memory : ((answers s.iterations).map fun a => "Round result: " ++ a).Sublist s.memory
  completed : s.completed = false

structure Concludes (rounds : ℕ) (r : AutonomousResult) : Prop where
  bounded : r.iterations.length ≤ rounds
  unmet : ∀ it ∈ r.iterations.dropLast, it.reflection.goalMet = false
  completed : r.completed = true ↔ ∃ it ∈ r.iterations.getLast?, it.reflection.goalMet = true
  exhausted : r.completed = false → r.iterations.length = rounds
  plans : ∀ it ∈ r.iterations, 1 ≤ it.plan.length ∧ it.plan.length ≤ maxPlanSteps
  answer : r.finalAnswer = (answers r.iterations).getLast?.getD ""
  memory : ((answers r.iterations).map fun a => "Round result: " ++ a).Sublist r.memory

theorem sublist_remember (memory : List String) (note : String) : memory.Sublist (remember memory note) := by
  unfold remember
  simp only
  split_ifs
  · exact List.sublist_append_left _ _
  · exact List.Sublist.refl _

theorem sublist_rememberAll (memory : List String) (steps : List (AgentStep J)) :
    memory.Sublist (rememberAll lib memory steps) := by
  unfold rememberAll
  induction steps.flatMap (fun step => step.output.toolCalls) generalizing memory with
  | nil => exact List.Sublist.refl _
  | cons call calls ih =>
    rw [List.foldl_cons]
    apply List.Sublist.trans ?_ (ih _)
    split_ifs
    · split
      · exact sublist_remember _ _
      · exact List.Sublist.refl _
    · exact List.Sublist.refl _

theorem answers_append (iterations : List Iteration) (it : Iteration) :
    answers (iterations ++ [it]) = answers iterations ++ if it.actions = "" then [] else [it.actions] := by
  unfold answers
  rw [List.map_append, List.filter_append]
  congr 1
  by_cases h : it.actions = ""
  · simp [h]
  · simp [h]

section Rounds

variable {s : AutonomousState} {planned : List String × Option ℚ} {run : AgentRun J}
  {reflected : Reflection × Option ℚ}

variable (lib) in
theorem next_plans (h : Unmet s) (hplan : 1 ≤ planned.1.length ∧ planned.1.length ≤ maxPlanSteps) :
    ∀ it ∈ (s.next lib planned run reflected).iterations,
      1 ≤ it.plan.length ∧ it.plan.length ≤ maxPlanSteps := by
  intro it hit
  rcases List.mem_append.mp hit with hit | hit
  · exact h.plans it hit
  · rw [List.mem_singleton.mp hit]
    exact hplan

variable (lib) in
theorem next_answer (h : Unmet s) : (s.next lib planned run reflected).finalAnswer =
    (answers (s.next lib planned run reflected).iterations).getLast?.getD "" := by
  simp only [AutonomousState.next]
  rw [answers_append]
  simp only
  split_ifs with hrun
  · rw [List.append_nil]
    exact h.answer
  · rw [List.getLast?_append]
    rfl

variable (lib) in
theorem next_memory (h : Unmet s) :
    ((answers (s.next lib planned run reflected).iterations).map fun a => "Round result: " ++ a).Sublist
      (s.next lib planned run reflected).memory := by
  simp only [AutonomousState.next, memoryAfter]
  rw [answers_append, List.map_append]
  apply List.Sublist.append
  · exact h.memory.trans (sublist_rememberAll _ _)
  · simp only
    split_ifs
    · exact List.Sublist.refl _
    · exact List.Sublist.refl _

theorem Unmet.next (h : Unmet s) (hplan : 1 ≤ planned.1.length ∧ planned.1.length ≤ maxPlanSteps)
    (hmet : reflected.1.goalMet = false) : Unmet (s.next lib planned run reflected) where
  unmet := by
    intro it hit
    rcases List.mem_append.mp hit with hit | hit
    · exact h.unmet it hit
    · rw [List.mem_singleton.mp hit]
      exact hmet
  plans := next_plans lib h hplan
  answer := next_answer lib h
  memory := next_memory lib h
  completed := hmet

theorem Unmet.met (h : Unmet s) (hplan : 1 ≤ planned.1.length ∧ planned.1.length ≤ maxPlanSteps)
    (hmet : reflected.1.goalMet = true) {rounds : ℕ} (hrounds : s.iterations.length < rounds) :
    Concludes rounds ((s.next lib planned run reflected).result goal) where
  bounded := by
    simp only [AutonomousState.result, AutonomousState.next, List.length_append, List.length_singleton]
    omega
  unmet := by
    simp only [AutonomousState.result, AutonomousState.next, List.dropLast_concat]
    exact h.unmet
  completed := by
    simp only [AutonomousState.result, AutonomousState.next, List.getLast?_concat]
    exact iff_of_true hmet ⟨_, rfl, hmet⟩
  exhausted := by
    intro hc
    have hmet' : reflected.1.goalMet = false := hc
    rw [hmet] at hmet'
    cases hmet'
  plans := next_plans lib h hplan
  answer := next_answer lib h
  memory := next_memory lib h

end Rounds

end Workbench.AgentRuntime
