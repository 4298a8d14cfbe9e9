import Workbench.KeyedTable
import Workbench.Transitions
import Mathlib.Data.Finset.Basic
import Mathlib.Logic.Function.Basic

/-!
The tool gateway under concurrent `call`s. A call runs to its end in one turn, except that a
connector it starts is awaited.
-/

namespace Workbench.ToolGateway

open KeyedTable

variable {C A H V : Type}

structure ToolSpec (A : Type) where
  name : String
  description : String
  inputSchema : A

structure Registered (A H : Type) where
  spec : ToolSpec A
  handler : H

def Registered.name (r : Registered A H) : String := r.spec.name

structure ToolResult (V : Type) where
  tool : String
  allowed : Bool
  latencyMs : ℤ
  output : Option V
  error : Option String

structure AuditEntry (A : Type) where
  tool : String
  args : A
  allowed : Bool
  error : Option String
  latencyMs : ℤ
  atTime : String

inductive Pc (V : Type)
  | awaiting
  | returned (result : ToolResult V)
  | cancelled

structure Call (A V : Type) where
  tool : String
  args : A
  allowlist : Option (Finset String)
  pc : Pc V

/-- What a turn reads from outside: the two clocks, and the text of what `audit_sink` raises. -/
structure Moment where
  latencyMs : ℤ
  atTime : String
  sinkError : Option String

/-- `offered` are the entries given to `audit_sink`, `registered` all there were registered, and
`started` the connectors started, with the call each was started for. -/
structure State (C A H V : Type) where
  tools : Table (Registered.name (A := A) (H := H))
  audit : List (AuditEntry A)
  auditSink : Bool
  offered : List (AuditEntry A)
  warnings : List (String × String × Option String)
  registered : List (Registered A H)
  started : List (C × Registered A H)
  calls : C → Option (Call A V)

def created (C A H V : Type) (auditSink : Bool) : State C A H V :=
  ⟨Table.empty _, [], auditSink, [], [], [], [], fun _ => none⟩

inductive Action (C A H V : Type)
  | register (spec : ToolSpec A) (handler : H)
  | calls (c : C) (tool : String) (args : A) (allowlist : Option (Finset String)) (m : Moment)
  | ends (c : C) (result : Except String V) (m : Moment)
  | cancels (c : C)

namespace State

def register (s : State C A H V) (spec : ToolSpec A) (handler : H) : State C A H V :=
  { s with tools := s.tools.put ⟨spec, handler⟩, registered := s.registered ++ [⟨spec, handler⟩] }

def warn (s : State C A H V) (event tool : String) (error : Option String) : State C A H V :=
  { s with warnings := s.warnings ++ [(event, tool, error)] }

def sinkFailed (tool : String) : Option String → List (String × String × Option String)
  | some error => [("audit_sink failed", tool, some error)]
  | none => []

def record (s : State C A H V) (entry : AuditEntry A) (sinkError : Option String) : State C A H V :=
  { s with
    audit := s.audit ++ [entry]
    offered := if s.auditSink then s.offered ++ [entry] else s.offered
    warnings := if s.auditSink then s.warnings ++ sinkFailed entry.tool sinkError else s.warnings }

variable [DecidableEq C]

def set (s : State C A H V) (c : C) (call : Call A V) (pc : Pc V) : State C A H V :=
  { s with calls := Function.update s.calls c (some { call with pc }) }

/-- `_record`, and the `ToolResult` that says the same. -/
def answer (s : State C A H V) (c : C) (call : Call A V) (allowed : Bool) (output : Option V)
    (error : Option String) (latencyMs : ℤ) (m : Moment) : State C A H V :=
  (s.record ⟨call.tool, call.args, allowed, error, latencyMs, m.atTime⟩ m.sinkError).set c call
    (.returned ⟨call.tool, allowed, latencyMs, output, error⟩)

end State

section Step

variable [DecidableEq C]

def Call.permitted (call : Call A V) : Bool :=
  match call.allowlist with
  | none => true
  | some allowlist => call.tool ∈ allowlist

def start (s : State C A H V) (c : C) (call : Call A V) (m : Moment) : State C A H V :=
  match s.tools.get call.tool with
  | none => s.answer c call false none (some "unknown tool") 0 m
  | some registered =>
    if call.permitted then
      { s with started := s.started ++ [(c, registered)] }.set c call .awaiting
    else
      (s.answer c call false none (some "tool not permitted") 0 m).warn
        "tool call denied by allowlist" call.tool none

def step (s : State C A H V) : Action C A H V → Option (State C A H V)
  | .register spec handler => some (s.register spec handler)
  | .calls c tool args allowlist m =>
    match s.calls c with
    | some _ => none
    | none => some (start s c ⟨tool, args, allowlist, .awaiting⟩ m)
  | .ends c result m => (s.calls c).bind fun call =>
      match call.pc with
      | .awaiting => some (match result with
        | .ok output => s.answer c call true (some output) none m.latencyMs m
        | .error text => s.answer c call true none (some text) m.latencyMs m)
      | _ => none
  | .cancels c => (s.calls c).bind fun call =>
      match call.pc with
      -- a `CancelledError` is no `Exception`, and leaves `call` by neither of its records
      | .awaiting => some (s.set c call .cancelled)
      | _ => none

inductive StepTo (s : State C A H V) : Action C A H V → State C A H V → Prop
  | register (spec : ToolSpec A) (handler : H) :
      StepTo s (.register spec handler) (s.register spec handler)
  | unknown (c : C) (call : Call A V) (m : Moment) (hc : s.calls c = none)
      (hr : s.tools.get call.tool = none) :
      StepTo s (.calls c call.tool call.args call.allowlist m)
        (s.answer c call false none (some "unknown tool") 0 m)
  | denied (c : C) (call : Call A V) (m : Moment) (hc : s.calls c = none)
      (hp : call.permitted = false) :
      StepTo s (.calls c call.tool call.args call.allowlist m)
        ((s.answer c call false none (some "tool not permitted") 0 m).warn
          "tool call denied by allowlist" call.tool none)
  | starts (c : C) (call : Call A V) (m : Moment) (registered : Registered A H)
      (hc : s.calls c = none) (hr : s.tools.get call.tool = some registered)
      (hp : call.permitted = true) :
      StepTo s (.calls c call.tool call.args call.allowlist m)
        ({ s with started := s.started ++ [(c, registered)] }.set c call .awaiting)
  | ends (c : C) (call : Call A V) (m : Moment) (result : Except String V)
      (output : Option V) (error : Option String) (hc : s.calls c = some call)
      (hp : call.pc = .awaiting) :
      StepTo s (.ends c result m) (s.answer c call true output error m.latencyMs m)
  | cancels (c : C) (call : Call A V) (hc : s.calls c = some call) (hp : call.pc = .awaiting) :
      StepTo s (.cancels c) (s.set c call .cancelled)

theorem step_cases {s t : State C A H V} {a : Action C A H V} (h : step s a = some t) :
    StepTo s a t := by
  cases a with
  | register spec handler =>
    cases h
    exact .register spec handler
  | calls c tool args allowlist m =>
    simp only [step] at h
    split at h
    · cases h
    · rename_i hc
      cases h
      let call : Call A V := ⟨tool, args, allowlist, .awaiting⟩
      unfold start
      split
      · rename_i hr
        exact .unknown c call m hc hr
      · rename_i registered hr
        split_ifs with hp
        · exact .starts c call m registered hc hr hp
        · exact .denied c call m hc (Bool.eq_false_iff.mpr hp)
  | ends c result m =>
    obtain ⟨call, hc, h⟩ := Option.bind_eq_some_iff.mp h
    split at h
    · rename_i hp
      cases h
      cases result with
      | ok output => exact .ends c call m _ (some output) none hc hp
      | error text => exact .ends c call m _ none (some text) hc hp
    · cases h
  | cancels c =>
    obtain ⟨call, hc, h⟩ := Option.bind_eq_some_iff.mp h
    split at h
    · rename_i hp
      cases h
      exact .cancels c call hc hp
    · cases h

end Step

end Workbench.ToolGateway
