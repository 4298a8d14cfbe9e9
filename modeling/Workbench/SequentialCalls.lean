import Workbench.ToolGateway

namespace Workbench.ToolGateway

open KeyedTable Transitions

variable {C A V : Type} [DecidableEq C]

abbrev Connector (C A V : Type) := C → A → Except String V

def State.call (s : State C A (Connector C A V) V) (c : C) (tool : String) (args : A)
    (allowlist : Option (Finset String)) (m : Moment) :
    State C A (Connector C A V) V × ToolResult V :=
  let call : Call A V := ⟨tool, args, allowlist, .awaiting⟩
  match s.tools.get tool with
  | none =>
    (start s c call m, ⟨tool, false, 0, none, some "unknown tool"⟩)
  | some registered =>
    if call.permitted then match registered.handler c args with
      | .ok output =>
        ((start s c call m).answer c call true (some output) none m.latencyMs m,
          ⟨tool, true, m.latencyMs, some output, none⟩)
      | .error text =>
        ((start s c call m).answer c call true none (some text) m.latencyMs m,
          ⟨tool, true, m.latencyMs, none, some text⟩)
    else (start s c call m, ⟨tool, false, 0, none, some "tool not permitted"⟩)

def begun (tool : String) (args : A) (allowlist : Option (Finset String)) : Call A V :=
  ⟨tool, args, allowlist, .awaiting⟩

section Call

variable {s : State C A (Connector C A V) V} {c : C} {tool : String} {args : A}
  {allowlist : Option (Finset String)} {m : Moment}

inductive CallTo (s : State C A (Connector C A V) V) (c : C) (call : Call A V) (m : Moment) :
    State C A (Connector C A V) V × ToolResult V → Prop
  | unknown (hr : s.tools.get call.tool = none) :
      CallTo s c call m (start s c call m, ⟨call.tool, false, 0, none, some "unknown tool"⟩)
  | denied (registered : Registered A (Connector C A V))
      (hr : s.tools.get call.tool = some registered) (hp : call.permitted = false) :
      CallTo s c call m (start s c call m, ⟨call.tool, false, 0, none, some "tool not permitted"⟩)
  | answered (registered : Registered A (Connector C A V)) (output : V)
      (hr : s.tools.get call.tool = some registered) (hp : call.permitted = true)
      (ho : registered.handler c call.args = .ok output) :
      CallTo s c call m ((start s c call m).answer c call true (some output) none m.latencyMs m,
        ⟨call.tool, true, m.latencyMs, some output, none⟩)
  | failed (registered : Registered A (Connector C A V)) (text : String)
      (hr : s.tools.get call.tool = some registered) (hp : call.permitted = true)
      (ho : registered.handler c call.args = .error text) :
      CallTo s c call m ((start s c call m).answer c call true none (some text) m.latencyMs m,
        ⟨call.tool, true, m.latencyMs, none, some text⟩)

theorem call_cases : CallTo s c (begun tool args allowlist) m (s.call c tool args allowlist m) := by
  unfold State.call
  cases hr : s.tools.get tool with
  | none => exact .unknown hr
  | some registered =>
    simp only
    split_ifs with hp
    · cases ho : registered.handler c args with
      | ok output => exact .answered registered output hr hp ho
      | error text => exact .failed registered text hr hp ho
    · exact .denied registered hr (Bool.eq_false_iff.mpr hp)

theorem start_unknown {call : Call A V} (hr : s.tools.get call.tool = none) :
    start s c call m = s.answer c call false none (some "unknown tool") 0 m := by
  simp only [start, hr]

theorem start_denied {call : Call A V} {registered : Registered A (Connector C A V)}
    (hr : s.tools.get call.tool = some registered) (hp : call.permitted = false) :
    start s c call m = (s.answer c call false none (some "tool not permitted") 0 m).warn
      "tool call denied by allowlist" call.tool none := by
  simp [start, hr, hp]

theorem start_permitted {H : Type} {s : State C A H V} {call : Call A V} {registered : Registered A H}
    (hr : s.tools.get call.tool = some registered) (hp : call.permitted = true) :
    start s c call m = { s with started := s.started ++ [(c, registered)] }.set c call .awaiting := by
  simp [start, hr, hp]

structure Noted (s t : State C A (Connector C A V) V) (call : Call A V) (r : ToolResult V) : Prop where
  tools : t.tools = s.tools
  audit : ∃ entry, t.audit = s.audit ++ [entry] ∧ entry.tool = call.tool ∧ entry.args = call.args ∧
    entry.allowed = r.allowed ∧ entry.error = r.error

theorem CallTo.noted {call : Call A V} {out : State C A (Connector C A V) V × ToolResult V}
    (h : CallTo s c call m out) : Noted s out.1 call out.2 := by
  cases h with
  | unknown hr =>
    rw [start_unknown hr]
    exact ⟨rfl, _, rfl, rfl, rfl, rfl, rfl⟩
  | denied registered hr hp =>
    rw [start_denied hr hp]
    exact ⟨rfl, _, rfl, rfl, rfl, rfl, rfl⟩
  | answered registered output hr hp ho =>
    rw [start_permitted hr hp]
    exact ⟨rfl, _, rfl, rfl, rfl, rfl, rfl⟩
  | failed registered text hr hp ho =>
    rw [start_permitted hr hp]
    exact ⟨rfl, _, rfl, rfl, rfl, rfl, rfl⟩

theorem CallTo.output {call : Call A V} {out : State C A (Connector C A V) V × ToolResult V} {v : V}
    (h : CallTo s c call m out) : out.2.output = some v ↔ ∃ registered,
      s.tools.get call.tool = some registered ∧ call.permitted = true ∧
        registered.handler c call.args = .ok v := by
  cases h with
  | unknown hr => simp [hr]
  | denied registered hr hp => simp [hp]
  | answered registered output hr hp ho => simp [hr, hp, ho]
  | failed registered text hr hp ho => simp [hr, hp, ho]

theorem CallTo.allowed {call : Call A V} {out : State C A (Connector C A V) V × ToolResult V} {v : V}
    (h : CallTo s c call m out) (hv : out.2.output = some v) :
    out.2.allowed = true ∧ out.2.error = none := by
  cases h with
  | unknown hr => cases hv
  | denied registered hr hp => cases hv
  | answered registered output hr hp ho => exact ⟨rfl, rfl⟩
  | failed registered text hr hp ho => cases hv

theorem step_ends {t : State C A (Connector C A V) V} {call : Call A V} (result : Except String V)
    (h : t.calls c = some call) (hp : call.pc = .awaiting) :
    step t (.ends c result m) = some (match result with
      | .ok output => t.answer c call true (some output) none m.latencyMs m
      | .error text => t.answer c call true none (some text) m.latencyMs m) := by
  cases result with
  | ok output => simp only [step, h, Option.bind_some, hp]
  | error text => simp only [step, h, Option.bind_some, hp]

theorem CallTo.run {call : Call A V} {out : State C A (Connector C A V) V × ToolResult V}
    (h : CallTo s c call m out) (hfresh : s.calls c = none) (hcall : call.pc = .awaiting) :
    ∃ actions, exec step s actions = some out.1 := by
  obtain ⟨tool, args, allowlist, pc⟩ := call
  cases hcall
  have hbegins : step s (.calls c tool args allowlist m) =
      some (start s c ⟨tool, args, allowlist, .awaiting⟩ m) := by
    simp only [step, hfresh]
  cases h with
  | unknown hr => exact ⟨[.calls c tool args allowlist m], by simp [exec, hbegins]⟩
  | denied registered hr hp => exact ⟨[.calls c tool args allowlist m], by simp [exec, hbegins]⟩
  | answered registered output hr hp ho =>
    have hawaiting : (start s c ⟨tool, args, allowlist, .awaiting⟩ m).calls c =
        some ⟨tool, args, allowlist, .awaiting⟩ := by
      rw [start_permitted hr hp]
      exact Function.update_self _ _ _
    refine ⟨[.calls c tool args allowlist m, .ends c (.ok output) m], ?_⟩
    simp [exec, hbegins, step_ends (.ok output) hawaiting rfl]
  | failed registered text hr hp ho =>
    have hawaiting : (start s c ⟨tool, args, allowlist, .awaiting⟩ m).calls c =
        some ⟨tool, args, allowlist, .awaiting⟩ := by
      rw [start_permitted hr hp]
      exact Function.update_self _ _ _
    refine ⟨[.calls c tool args allowlist m, .ends c (.error text) m], ?_⟩
    simp [exec, hbegins, step_ends (.error text) hawaiting rfl]

end Call

end Workbench.ToolGateway
