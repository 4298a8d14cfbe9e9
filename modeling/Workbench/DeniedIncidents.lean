import Workbench.AuditTrail
import Workbench.IncidentPages

namespace Workbench.Incidents

open AgentRuntime AuditTrail KeyedTable Observability PyJson ToolGateway Transitions

variable {C H V : Type} [DecidableEq C]

def refusals : List String := ["unknown tool", "tool not permitted"]

def Refused (audit : List (AuditEntry Dict)) : Prop :=
  ∀ entry ∈ audit, entry.allowed = false → ∃ reason ∈ refusals, entry.error = some reason

theorem Refused.snoc {audit : List (AuditEntry Dict)} {entry : AuditEntry Dict} (h : Refused audit)
    (hentry : entry.allowed = false → ∃ reason ∈ refusals, entry.error = some reason) :
    Refused (audit ++ [entry]) := by
  intro e he
  rcases List.mem_append.mp he with he | he
  · exact h e he
  · rw [List.mem_singleton.mp he]
    exact hentry

theorem Refused.step {s t : ToolGateway.State C Dict H V} {a : ToolGateway.Action C Dict H V}
    (h : Refused s.audit) (hs : ToolGateway.step s a = some t) : Refused t.audit := by
  cases step_cases hs with
  | register spec handler => exact h
  | unknown c call m hc hr => exact h.snoc fun _ => ⟨_, List.mem_cons_self, rfl⟩
  | denied c call m hc hp => exact h.snoc fun _ => ⟨_, List.mem_cons_of_mem _ List.mem_cons_self, rfl⟩
  | starts c call m r hc hr hp => exact h
  | ends c call m result output error hc hp =>
    apply h.snoc
    intro hallowed
    cases hallowed
  | cancels c call hc hp => exact h

theorem refused_step {s t : AuditTrail.State C Dict H V Dict} {a : AuditTrail.Action C Dict H V Dict}
    (h : Refused s.gateway.audit) (hs : AuditTrail.step s a = some t) : Refused t.gateway.audit := by
  cases a with
  | gateway a =>
    obtain ⟨g, hg, rfl⟩ := Option.map_eq_some_iff.mp hs
    exact h.step hg
  | writes i id now commit =>
    obtain ⟨entry, -, rfl⟩ := Option.map_eq_some_iff.mp hs
    exact h
  | drops i =>
    obtain ⟨entry, -, rfl⟩ := Option.map_eq_some_iff.mp hs
    exact h
  | records r =>
    simp only [AuditTrail.step] at hs
    split_ifs at hs
    cases hs
    exact h

variable {s : AuditTrail.State C Dict H V Dict}

theorem denied_row (hr : Reaches AuditTrail.step always (attached C Dict H V Dict) s) {t : Row}
    (ht : t ∈ s.store.rows) (hkind : t.kind = "tool") (hstatus : t.status = "denied") :
    (∃ reason ∈ refusals, t.error = some reason) ∧ ∃ args atTime, t.payload = .tool args atTime := by
  have hcall : t.toTraceCall ∈ toolCalls s.store :=
    List.mem_map_of_mem (List.mem_filter.mpr ⟨ht, decide_eq_true hkind⟩)
  have hmem := (trail_reached hr).kept.subset (List.mem_append_left _ hcall)
  obtain ⟨entry, hentry, hsame⟩ := List.mem_map.mp hmem
  have hdenied : auditStatus entry = "denied" := (congrArg TraceCall.status hsame).trans hstatus
  have hrefused : Refused s.gateway.audit := by
    apply hr.invariant (I := fun s => Refused s.gateway.audit)
    · intro e he
      cases he
    · intro s t a h _ hs
      exact refused_step h hs
  obtain ⟨reason, hreason, herror⟩ := hrefused entry hentry ((auditStatus_denied entry).mp hdenied)
  constructor
  · exact ⟨reason, hreason, (congrArg TraceCall.error hsame).symm.trans herror⟩
  · exact ⟨entry.args, entry.atTime, (congrArg TraceCall.payload hsame).symm⟩

variable {lib : IncidentLibrary}

theorem classify_refusal {reason : String} (hreason : reason ∈ refusals)
    (hlower : lib.lower reason = reason) (payload : Dict) :
    classify lib "tool" "denied" (some reason) payload = classifyPayload lib "tool" "denied" payload := by
  have hquiet : ∀ reason ∈ refusals, outOfSteps "denied" reason = false ∧ unprovided reason = false ∧
      sqlFailed reason = false := by decide +kernel
  obtain ⟨hsteps, hprovider, hsql⟩ := hquiet reason hreason
  unfold classify
  simp only [Option.getD_some, hlower, hsteps, hprovider, hsql]
  rfl

theorem classify_denied {t : Row} (hkind : t.kind = "tool") (hstatus : t.status = "denied")
    (herror : ∃ reason ∈ refusals, t.error = some reason)
    (hlower : ∀ reason ∈ refusals, lib.lower reason = reason) {payload : Dict}
    (hcalls : audit payload = .list []) (hrate : value payload "aggregates" = .null) :
    classify lib t.kind t.status t.error payload = .ok (.unknown, ["run ended with status 'denied'"]) := by
  obtain ⟨reason, hreason, herror⟩ := herror
  rw [hkind, hstatus, herror, classify_refusal hreason (hlower reason hreason)]
  exact classifyPayload_bare hcalls hrate

/-- However the calls, the writes and the other traces are interleaved, and whatever the model writes. -/
theorem denied_calls_unexplained (hlower : ∀ reason ∈ refusals, lib.lower reason = reason)
    (hr : Reaches AuditTrail.step always (attached C Dict H V Dict) s) :
    ∀ t ∈ s.store.rows, t.kind = "tool" → t.status = "denied" →
      (∀ page listed, t ∈ page → incidents lib page = .ok listed →
        ⟨t.id, "tool", t.name, "denied", t.error, .unknown⟩ ∈ listed) ∧
      ∀ (J : Type) (step : StepRequest → Except Exc (StepOutput J)) (report : RcaReport),
        rca lib s.store true t.id step = .ok report →
          report.findings = (.unknown, ["run ended with status 'denied'"]) := by
  intro t ht hkind hstatus
  obtain ⟨herror, args, atTime, hpayload⟩ := denied_row hr ht hkind hstatus
  constructor
  · intro page listed hpage hlisted
    have hfailed : t ∈ failed page := mem_failed.mpr ⟨hpage, by rw [hstatus]; decide⟩
    have hall : ∃ i ∈ listed, incident lib t = .ok i := by
      have hflip := (incidents_forall₂ hlisted).flip
      exact forall₂_right hflip t hfailed
    obtain ⟨i, hi, hincident⟩ := hall
    rw [incident, classify_denied hkind hstatus herror hlower rfl rfl, hkind, hstatus] at hincident
    cases hincident
    exact hi
  · intro J step report hreport
    obtain ⟨found, hfound, hfacts⟩ := rca_facts ht hreport
    rw [hpayload, classify_denied hkind hstatus herror hlower rfl rfl] at hfound
    cases hfound
    simp only [RcaReport.facts, Prod.mk.injEq] at hfacts
    obtain ⟨-, -, -, -, hroot, hsignals⟩ := hfacts
    unfold RcaReport.findings
    rw [hroot, hsignals]
    rfl

section Sample

def deniedRun : List (AuditTrail.Action ℕ Dict Unit Unit Dict) :=
  [.gateway (.register ⟨"run_sql", "", []⟩ ()), .gateway (.calls 0 "run_sql" [] (some {"fetch"}) moment),
    .writes 0 "a" "t" .done]

theorem denied_run_unexplained : ∃ s, exec AuditTrail.step (attached ℕ Dict Unit Unit Dict) deniedRun = some s ∧
    s.store.rows.map (fun t => (t.kind, t.status)) = [("tool", "denied")] ∧
    ∀ t ∈ s.store.rows, t.kind = "tool" → t.status = "denied" →
      (∀ page listed, t ∈ page → incidents plainIncidents page = .ok listed →
        ⟨t.id, "tool", t.name, "denied", t.error, .unknown⟩ ∈ listed) ∧
      ∀ (J : Type) (step : StepRequest → Except Exc (StepOutput J)) (report : RcaReport),
        rca plainIncidents s.store true t.id step = .ok report →
          report.findings = (.unknown, ["run ended with status 'denied'"]) := by
  have hlower : ∀ reason ∈ refusals, plainIncidents.lower reason = reason := by decide +kernel
  have hrun : (exec AuditTrail.step (attached ℕ Dict Unit Unit Dict) deniedRun).map
      (fun s => s.store.rows.map fun t => (t.kind, t.status)) = some [("tool", "denied")] := by
    decide +kernel
  obtain ⟨s, hs, hrows⟩ := Option.map_eq_some_iff.mp hrun
  exact ⟨s, hs, hrows,
    denied_calls_unexplained hlower (reaches_of_exec hs (obeys_always _ deniedRun))⟩

end Sample

end Workbench.Incidents
