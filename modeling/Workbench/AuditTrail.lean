import Workbench.AuditedCalls
import Workbench.TraceStore
import Mathlib.Data.List.Perm.Basic

/-!
The gateway with `attach_audit_sink`: the sink schedules each entry's durable write and returns, and
the writes run among the calls and the other traces in any order.
-/

namespace Workbench.AuditTrail

open KeyedTable Transitions ToolGateway Observability

variable {C A H V J : Type}

/-- `lost` are the entries whose write added no row or was dropped before it ran. -/
structure State (C A H V J : Type) where
  gateway : ToolGateway.State C A H V
  pending : List (AuditEntry A)
  lost : List (AuditEntry A)
  store : Store A J

def attached (C A H V J : Type) : State C A H V J := ⟨created C A H V true, [], [], Table.empty _⟩

inductive Action (C A H V J : Type)
  | gateway (a : ToolGateway.Action C A H V)
  | writes (i : ℕ) (id now : String) (commit : Commit)
  -- the loop holds scheduled tasks weakly
  | drops (i : ℕ)
  | records (r : Recording A J)

def quiet : ToolGateway.Action C A H V → ToolGateway.Action C A H V
  | .calls c tool args allowlist m => .calls c tool args allowlist { m with sinkError := none }
  | .ends c result m => .ends c result { m with sinkError := none }
  | a => a

def schedule (s : State C A H V J) (gateway : ToolGateway.State C A H V) : State C A H V J :=
  { s with gateway, pending := s.pending ++ gateway.offered.drop s.gateway.offered.length }

def write (s : State C A H V J) (i : ℕ) (entry : AuditEntry A) (id now : String) (commit : Commit) :
    State C A H V J :=
  let store := (recordToolAudit s.store entry id now commit).1
  { s with
    pending := s.pending.eraseIdx i
    store
    lost := if store.rows.length = s.store.rows.length then s.lost ++ [entry] else s.lost }

def step [DecidableEq C] (s : State C A H V J) : Action C A H V J → Option (State C A H V J)
  | .gateway a => (ToolGateway.step s.gateway (quiet a)).map (schedule s)
  | .writes i id now commit => s.pending[i]?.map fun entry => write s i entry id now commit
  | .drops i => s.pending[i]?.map fun entry =>
      { s with pending := s.pending.eraseIdx i, lost := s.lost ++ [entry] }
  | .records r =>
    if r.call.kind = "tool" then none
    else some { s with store := (recordTrace s.store r.call r.id r.now r.commit).1 }

def toolRows (store : Store A J) : List (Trace A J) := store.rows.filter fun t => t.kind = "tool"

def toolCalls (store : Store A J) : List (TraceCall A J) := (toolRows store).map Trace.toTraceCall

structure Trail (s : State C A H V J) : Prop where
  recorded : Recorded s.gateway
  sink : s.gateway.auditSink = true
  kept : (toolCalls s.store ++ (s.pending ++ s.lost).map auditCall).Perm
    (s.gateway.audit.map auditCall)

theorem auditStatus_denied (entry : AuditEntry A) : auditStatus entry = "denied" ↔ entry.allowed = false := by
  unfold auditStatus
  split_ifs with h h'
  · exact iff_of_true rfl h
  · exact iff_of_false (by decide) h
  · exact iff_of_false (by decide) h

theorem recordTrace_rows (store : Store A J) (call : TraceCall A J) (id now : String) (commit : Commit) :
    (recordTrace store call id now commit).1 = store ∨
      (recordTrace store call id now commit).1.rows =
        store.rows ++ [{ call with id, createdAt := now }] := by
  unfold recordTrace
  split_ifs
  · exact .inl rfl
  · split
    · exact .inl rfl
    · cases commit with
      | done => exact .inr rfl
      | fails applied =>
        cases applied with
        | false => exact .inl rfl
        | true => exact .inr rfl

theorem perm_eraseIdx {pending : List (AuditEntry A)} {i : ℕ} {entry : AuditEntry A}
    (h : pending[i]? = some entry) : (entry :: pending.eraseIdx i).Perm pending := by
  obtain ⟨hi, rfl⟩ := List.getElem?_eq_some_iff.mp h
  exact List.getElem_cons_eraseIdx_perm hi

theorem Trail.drops {s : State C A H V J} (h : Trail s) {i : ℕ} {entry : AuditEntry A}
    (hentry : s.pending[i]? = some entry) :
    Trail { s with pending := s.pending.eraseIdx i, lost := s.lost ++ [entry] } where
  recorded := h.recorded
  sink := h.sink
  kept := by
    have hp : (s.pending.eraseIdx i ++ (s.lost ++ [entry])).Perm (s.pending ++ s.lost) := by
      rw [← List.append_assoc]
      apply List.perm_append_comm.trans
      exact (perm_eraseIdx hentry).append_right s.lost
    exact ((hp.map auditCall).append_left _).trans h.kept

theorem Trail.writes {s : State C A H V J} (h : Trail s) {i : ℕ} {entry : AuditEntry A}
    (hentry : s.pending[i]? = some entry) (id now : String) (commit : Commit) :
    Trail (write s i entry id now commit) where
  recorded := h.recorded
  sink := h.sink
  kept := by
    rcases recordTrace_rows s.store (auditCall entry) id now commit with hrows | hrows
    · have hstore : (recordToolAudit s.store entry id now commit).1 = s.store := hrows
      simp only [write, hstore, if_true]
      exact (h.drops hentry).kept
    · have hstore : (recordToolAudit s.store entry id now commit).1.rows =
          s.store.rows ++ [{ auditCall entry with id, createdAt := now }] := hrows
      have hlen : ¬ (recordToolAudit s.store entry id now commit).1.rows.length =
          s.store.rows.length := by
        simp [hstore]
      have hcalls : toolCalls (recordToolAudit s.store entry id now commit).1 =
          toolCalls s.store ++ [auditCall entry] := by
        simp [toolCalls, toolRows, hstore, auditCall]
      simp only [write, if_neg hlen, hcalls]
      rw [List.append_assoc, ← List.map_singleton (f := auditCall), ← List.map_append]
      exact ((((perm_eraseIdx hentry).append_right s.lost).map auditCall).append_left _).trans h.kept

theorem Trail.records {s : State C A H V J} (h : Trail s) (r : Recording A J) (hr : r.call.kind ≠ "tool") :
    Trail { s with store := (recordTrace s.store r.call r.id r.now r.commit).1 } where
  recorded := h.recorded
  sink := h.sink
  kept := by
    have hcalls : toolCalls (recordTrace s.store r.call r.id r.now r.commit).1 = toolCalls s.store := by
      rcases recordTrace_rows s.store r.call r.id r.now r.commit with hrows | hrows
      · rw [hrows]
      · simp [toolCalls, toolRows, hrows, hr]
    rw [hcalls]
    exact h.kept

theorem trail_attached : Trail (attached C A H V J) := ⟨recorded_created true, rfl, List.Perm.refl _⟩

section Steps

variable [DecidableEq C]

theorem gateway_step_audit {g g' : ToolGateway.State C A H V} {a : ToolGateway.Action C A H V}
    (h : ToolGateway.step g a = some g') :
    g'.auditSink = g.auditSink ∧ ∃ entries, g'.audit = g.audit ++ entries := by
  cases step_cases h with
  | register spec handler => exact ⟨rfl, [], (List.append_nil _).symm⟩
  | unknown c call m hc hr => exact ⟨rfl, [_], rfl⟩
  | denied c call m hc hp => exact ⟨rfl, [_], rfl⟩
  | starts c call m r hc hr hp => exact ⟨rfl, [], (List.append_nil _).symm⟩
  | ends c call m result output error hc hp => exact ⟨rfl, [_], rfl⟩
  | cancels c call hc hp => exact ⟨rfl, [], (List.append_nil _).symm⟩

theorem Trail.gateway {s : State C A H V J} (h : Trail s) {a : ToolGateway.Action C A H V}
    {g : ToolGateway.State C A H V} (hs : ToolGateway.step s.gateway a = some g) :
    Trail (schedule s g) := by
  obtain ⟨hsink, entries, haudit⟩ := gateway_step_audit hs
  have hg : Recorded g := h.recorded.step hs
  have hon : g.auditSink = true := hsink.trans h.sink
  have hdrop : g.offered.drop s.gateway.offered.length = entries := by
    rw [hg.offered hon, h.recorded.offered h.sink, haudit]
    exact List.drop_left
  refine ⟨hg, hon, ?_⟩
  simp only [schedule, hdrop, haudit]
  have hp : (s.pending ++ entries ++ s.lost).Perm (s.pending ++ s.lost ++ entries) := by
    rw [List.append_assoc, List.append_assoc]
    exact List.perm_append_comm.append_left _
  apply ((hp.map auditCall).append_left _).trans
  have hk := h.kept.append_right (entries.map auditCall)
  rw [List.append_assoc, ← List.map_append, ← List.map_append] at hk
  exact hk

theorem Trail.step {s t : State C A H V J} {a : Action C A H V J} (h : Trail s)
    (hs : AuditTrail.step s a = some t) : Trail t := by
  cases a with
  | gateway a =>
    obtain ⟨g, hg, rfl⟩ := Option.map_eq_some_iff.mp hs
    exact h.gateway hg
  | writes i id now commit =>
    obtain ⟨entry, hentry, rfl⟩ := Option.map_eq_some_iff.mp hs
    exact h.writes hentry id now commit
  | drops i =>
    obtain ⟨entry, hentry, rfl⟩ := Option.map_eq_some_iff.mp hs
    exact h.drops hentry
  | records r =>
    simp only [AuditTrail.step] at hs
    split_ifs at hs with hr
    cases hs
    exact h.records r hr

theorem trail_reached {s : State C A H V J}
    (h : Reaches AuditTrail.step always (attached C A H V J) s) : Trail s :=
  h.invariant trail_attached fun _ _ _ hi _ hs => hi.step hs

end Steps

structure Describes (g : ToolGateway.State C A H V) (c : C) (row : TraceCall A J) : Prop where
  call : ∃ call, g.calls c = some call ∧ call.pc.Returned ∧ row.name = call.tool ∧
    ∃ atTime, row.payload = .tool call.args atTime
  denied : row.status = "denied" ↔ c ∉ g.started.map Prod.fst

theorem describes_entry {g : ToolGateway.State C A H V} {c : C} {entry : AuditEntry A}
    (h : Matches g c entry) (hc : ∃ call, g.calls c = some call ∧ call.pc.Returned) :
    Describes g c (auditCall entry : TraceCall A J) where
  call := by
    obtain ⟨call, hcall, htool, hargs⟩ := h.said
    obtain ⟨call', hcall', hreturned⟩ := hc
    obtain rfl := Option.some.inj (hcall.symm.trans hcall')
    exact ⟨call, hcall, hreturned, htool, entry.atTime, by rw [← hargs]; rfl⟩
  denied := by
    rw [← h.allowed]
    apply (auditStatus_denied entry).trans
    simp

theorem Trail.order {s : State C A H V J} (h : Trail s) :
    ∃ order : List C, order.Nodup ∧
      (∀ c, c ∈ order ↔ ∃ call, s.gateway.calls c = some call ∧ call.pc.Returned) ∧
      List.Forall₂ (Describes s.gateway) order
        (toolCalls s.store ++ (s.pending ++ s.lost).map auditCall) := by
  obtain ⟨order, hn, hm, he⟩ := h.recorded.listed
  have hdescribed : List.Forall₂ (flip (Describes s.gateway))
      (s.gateway.audit.map (auditCall (J := J))) order := by
    apply List.Forall₂.flip
    rw [List.forall₂_map_right_iff]
    have hreturned := fun c hc => (hm c).mp hc
    apply List.Forall₂.imp ?_ ((List.forall₂_and_left _ _).mpr ⟨hreturned, he⟩)
    rintro c entry ⟨hc, hmatch⟩
    exact describes_entry hmatch hc
  obtain ⟨order', hf, hp⟩ := List.perm_comp_forall₂ h.kept hdescribed
  refine ⟨order', hp.nodup_iff.mpr hn, ?_, hf.flip⟩
  intro c
  rw [hp.mem_iff, hm]

end Workbench.AuditTrail
