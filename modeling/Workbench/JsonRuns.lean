import Workbench.RunDicts
import Workbench.WorkflowRegistry

namespace Workbench.WorkflowRegistry

open WorkflowEngine

variable {D : Type} [StateDict D]

/-- The JSON column: what it gives back of a dict it is handed, `none` when it cannot serialise it.
A dict that comes back as it is stays so under the engine's merges. -/
structure JsonColumn (D : Type) [StateDict D] where
  store : D → Option D
  empty : store StateDict.empty = some StateDict.empty
  update : ∀ a b, store a = some a → store b = some b →
    store (StateDict.update a b) = some (StateDict.update a b)

variable (column : JsonColumn D)

def Plain (x : D) : Prop := column.store x = some x

structure PlainRun (run : WorkflowRun D) : Prop where
  state : Plain column run.state
  updates : ∀ a ∈ run.attempts, Plain column a.updates

structure PlainReply (r : Reply D) : Prop where
  state : Plain column r.step.state
  updates : ∀ updates, r.step.result = .ok (some updates) → Plain column updates
  branch : Plain column r.branch.state

variable {column} {wf : WorkflowDef}

theorem PlainRun.roundTrip {run : WorkflowRun D} (h : PlainRun column run) :
    roundTrip column.store run = some run := by
  have hattempts : ∀ attempts : List (StepAttempt D), (∀ a ∈ attempts, Plain column a.updates) →
      attempts.mapM (fun a => (column.store a.updates).map fun updates => { a with updates }) =
        some attempts := by
    intro attempts ha
    induction attempts with
    | nil => rfl
    | cons a rest ih =>
      have hfirst : column.store a.updates = some a.updates := ha a (by simp)
      simp [List.mapM_cons, hfirst, ih fun b hb => ha b (by simp [hb])]
  have hstate : column.store run.state = some run.state := h.state
  simp [WorkflowRegistry.roundTrip, hstate, hattempts run.attempts h.updates]

def plainRule (column : JsonColumn D) : DictRule D := ⟨Plain column, column.empty, column.update⟩

theorem plain_iff {run : WorkflowRun D} : PlainRun column run ↔ RuledRun (plainRule column) run :=
  ⟨fun h => ⟨h.state, h.updates⟩, fun h => ⟨h.state, h.updates⟩⟩

theorem plain_complete {env : ℕ → Reply D} (henv : ∀ n, PlainReply column (env n)) {d : Drive D}
    (h : PlainRun column d.run) : PlainRun column (complete wf env d).run := by
  have hruled : ∀ n, RuledReply (plainRule column) (env n) :=
    fun n => ⟨(henv n).state, (henv n).updates, (henv n).branch⟩
  exact plain_iff.mpr (ruled_complete hruled (plain_iff.mp h))

theorem plain_resume {run : WorkflowRun D} {c : Decision} {d : Drive D}
    (h : resume wf run c = .ok d) (hp : PlainRun column run) : PlainRun column d.run :=
  plain_iff.mpr ((plain_iff.mp hp).resume h)

theorem plain_execute (wf : WorkflowDef) (id createdAt : String) {inputState : D}
    (h : Plain column inputState) : PlainRun column (execute wf id createdAt inputState).run :=
  plain_iff.mpr (ruled_execute wf id createdAt h)

end Workbench.WorkflowRegistry
