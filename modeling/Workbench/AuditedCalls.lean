import Workbench.ToolGateway

namespace Workbench.ToolGateway

open KeyedTable Transitions

variable {C A H V : Type}

def Pc.Ended : Pc V → Prop
  | .awaiting => False
  | .returned _ => True
  | .cancelled => True

def Pc.ran : Pc V → Bool
  | .awaiting => true
  | .returned result => result.allowed
  | .cancelled => true

def Permitted (s : State C A H V) : Prop :=
  ∀ c r, (c, r) ∈ s.started →
    r ∈ s.registered ∧ ∃ call, s.calls c = some call ∧ r.name = call.tool ∧ call.permitted = true

structure Matches (s : State C A H V) (c : C) (entry : AuditEntry A) : Prop where
  said : ∃ call, s.calls c = some call ∧ entry.tool = call.tool ∧ entry.args = call.args
  allowed : entry.allowed = true ↔ c ∈ s.started.map Prod.fst

structure Lists (s : State C A H V) (ended : Pc V → Prop) (order : List C) : Prop where
  nodup : order.Nodup
  mem : ∀ c, c ∈ order ↔ ∃ call, s.calls c = some call ∧ ended call.pc
  entries : List.Forall₂ (Matches s) order s.audit

structure Audited (s : State C A H V) : Prop where
  listed : ∃ order, Lists s Pc.Ended order
  offered : s.auditSink = true → s.offered = s.audit

def Pc.Returned (pc : Pc V) : Prop := ∃ result, pc = .returned result

-- The calls that returned have their entries in every state; the claim's law asks it of all that
-- ended.
structure Recorded (s : State C A H V) : Prop where
  tools : ∀ name r, s.tools.get name = some r → r ∈ s.registered
  permitted : Permitted s
  started : ∀ c, c ∈ s.started.map Prod.fst ↔ ∃ call, s.calls c = some call ∧ call.pc.ran = true
  listed : ∃ order, Lists s Pc.Returned order
  offered : s.auditSink = true → s.offered = s.audit

theorem recorded_created (auditSink : Bool) : Recorded (created C A H V auditSink) where
  tools name r h := by cases h
  permitted c r h := by cases h
  started c := by simp [created]
  listed := ⟨[], List.nodup_nil, by simp [created], List.Forall₂.nil⟩
  offered _ := rfl

def Cancelled (s : State C A H V) : Prop := ∃ c call, s.calls c = some call ∧ call.pc = .cancelled

theorem Recorded.audited {s : State C A H V} (h : Recorded s) (hc : ¬ Cancelled s) : Audited s where
  listed := by
    obtain ⟨order, hn, hm, he⟩ := h.listed
    refine ⟨order, hn, ?_, he⟩
    intro c
    rw [hm]
    apply exists_congr
    intro call
    apply and_congr_right
    intro hcall
    cases hp : call.pc with
    | awaiting => simp [Pc.Returned, Pc.Ended]
    | returned result => simp [Pc.Returned, Pc.Ended]
    | cancelled => exact absurd ⟨c, call, hcall, hp⟩ hc
  offered := h.offered

theorem Recorded.registers {s : State C A H V} (h : Recorded s) (spec : ToolSpec A) (handler : H) :
    Recorded (s.register spec handler) where
  tools name r hr := by
    rw [State.register, Table.get_put] at hr
    apply List.mem_append.mpr
    split_ifs at hr
    · right
      rw [← Option.some.inj hr]
      exact List.mem_singleton_self _
    · left
      exact h.tools name r hr
  permitted c r hr := by
    obtain ⟨hmem, hcall⟩ := h.permitted c r hr
    exact ⟨List.mem_append_left _ hmem, hcall⟩
  started := h.started
  listed := by
    obtain ⟨order, hn, hm, he⟩ := h.listed
    exact ⟨order, hn, hm, he.imp fun _ _ hmatch => ⟨hmatch.said, hmatch.allowed⟩⟩
  offered := h.offered

section Steps

variable [DecidableEq C] {s t : State C A H V} {c : C} {call : Call A V}

theorem calls_set (s : State C A H V) (c c' : C) (call : Call A V) (pc : Pc V) :
    (s.set c call pc).calls c' = if c' = c then some { call with pc } else s.calls c' := by
  simp [State.set, Function.update_apply]

theorem Permitted.set (h : Permitted s) (hc : ∀ old, s.calls c = some old → old = call)
    (pc : Pc V) : Permitted (s.set c call pc) := by
  intro c' r hr
  obtain ⟨hmem, call', hcall, hname, hpermitted⟩ := h c' r hr
  rw [calls_set]
  refine ⟨hmem, ?_⟩
  by_cases he : c' = c
  · subst he
    rw [if_pos rfl]
    obtain rfl := hc call' hcall
    exact ⟨_, rfl, hname, hpermitted⟩
  · rw [if_neg he]
    exact ⟨call', hcall, hname, hpermitted⟩

theorem Matches.set {c' : C} {entry : AuditEntry A} (h : Matches s c' entry) (hne : c' ≠ c)
    (pc : Pc V) : Matches (s.set c call pc) c' entry where
  said := by
    rw [calls_set, if_neg hne]
    exact h.said
  allowed := h.allowed

theorem entries_set {order : List C} {audit : List (AuditEntry A)} (hnot : c ∉ order)
    (h : List.Forall₂ (Matches s) order audit) (pc : Pc V) :
    List.Forall₂ (Matches (s.set c call pc)) order audit := by
  have hne : ∀ c' ∈ order, c' ≠ c := fun c' hmem => ne_of_mem_of_not_mem hmem hnot
  apply List.Forall₂.imp ?_ ((List.forall₂_and_left _ _).mpr ⟨hne, h⟩)
  rintro c' entry ⟨hc', hmatch⟩
  exact hmatch.set hc' pc

theorem Lists.set {ended : Pc V → Prop} {order : List C} (h : Lists s ended order)
    (hc : ∀ old, s.calls c = some old → ¬ ended old.pc) {pc : Pc V} (hpc : ¬ ended pc) :
    Lists (s.set c call pc) ended order := by
  have hnot : c ∉ order := by
    intro hmem
    obtain ⟨old, hold, hover⟩ := (h.mem c).mp hmem
    exact hc old hold hover
  refine ⟨h.nodup, ?_, ?_⟩
  · intro c'
    rw [calls_set]
    split_ifs with he
    · subst he
      simpa [hnot] using hpc
    · exact h.mem c'
  · exact entries_set hnot h.entries pc

theorem Recorded.answers (h : Recorded s)
    (hc : ∀ old, s.calls c = some old → old = call ∧ old.pc = .awaiting) {allowed : Bool}
    (hallowed : allowed = true ↔ ∃ old, s.calls c = some old) (output : Option V)
    (error : Option String) (latencyMs : ℤ) (m : Moment) :
    Recorded (s.answer c call allowed output error latencyMs m) := by
  have hstarted : c ∈ s.started.map Prod.fst ↔ allowed = true := by
    rw [h.started, hallowed]
    constructor
    · rintro ⟨old, hold, _⟩
      exact ⟨old, hold⟩
    · rintro ⟨old, hold⟩
      refine ⟨old, hold, ?_⟩
      rw [(hc old hold).2]
      rfl
  constructor
  · exact h.tools
  · exact Permitted.set (s := s.record _ _) h.permitted (fun old hold => (hc old hold).1) _
  · intro c'
    rw [State.answer, calls_set]
    split_ifs with he
    · subst he
      exact hstarted.trans (by simp [Pc.ran])
    · exact h.started c'
  · obtain ⟨order, hn, hm, he⟩ := h.listed
    have hnot : c ∉ order := by
      intro hmem
      obtain ⟨old, hold, result, hresult⟩ := (hm c).mp hmem
      rw [(hc old hold).2] at hresult
      cases hresult
    refine ⟨order ++ [c], ?_, ?_, ?_⟩
    · apply List.nodup_append.mpr
      refine ⟨hn, List.nodup_singleton c, ?_⟩
      rintro c' hmem _ hmem' rfl
      rw [List.mem_singleton] at hmem'
      exact hnot (hmem' ▸ hmem)
    · intro c'
      rw [List.mem_append, List.mem_singleton, hm, State.answer, calls_set]
      split_ifs with he
      · simp [he, Pc.Returned]
      · simp [he]; rfl
    · apply List.rel_append
      · exact entries_set (s := s.record _ _) hnot
          (he.imp fun _ _ hmatch => ⟨hmatch.said, hmatch.allowed⟩) _
      · apply List.Forall₂.cons ?_ List.Forall₂.nil
        constructor
        · rw [State.answer, calls_set, if_pos rfl]
          exact ⟨_, rfl, rfl, rfl⟩
        · exact hstarted.symm
  · intro hsink
    have hsink : s.auditSink = true := hsink
    have hoffered := h.offered hsink
    simp [State.answer, State.set, State.record, hsink, hoffered]

theorem Recorded.starts (h : Recorded s) (hc : s.calls c = none) {r : Registered A H}
    (hr : s.tools.get call.tool = some r) (hp : call.permitted = true) :
    Recorded ({ s with started := s.started ++ [(c, r)] }.set c call .awaiting) := by
  have hmem : ∀ c', c' ∈ (s.started ++ [(c, r)]).map Prod.fst ↔
      c' ∈ s.started.map Prod.fst ∨ c' = c := by simp
  constructor
  · exact h.tools
  · intro c' r' hr'
    rcases List.mem_append.mp hr' with hr' | hr'
    · apply Permitted.set (s := s) h.permitted _ _ c' r' hr'
      simp [hc]
    · obtain ⟨rfl, rfl⟩ := Prod.mk.inj (List.mem_singleton.mp hr')
      refine ⟨h.tools _ _ hr, ?_⟩
      rw [calls_set, if_pos rfl]
      exact ⟨_, rfl, Table.key_of_get hr, hp⟩
  · intro c'
    rw [calls_set]
    apply (hmem c').trans
    split_ifs with he
    · simp [he, Pc.ran]
    · simpa [he] using h.started c'
  · obtain ⟨order, hlist⟩ := h.listed
    have hnot : c ∉ order := by
      intro hin
      obtain ⟨old, hold, _⟩ := (hlist.mem c).mp hin
      rw [hc] at hold
      cases hold
    have hstarted : Lists { s with started := s.started ++ [(c, r)] } Pc.Returned order := by
      refine ⟨hlist.nodup, hlist.mem, ?_⟩
      have hne : ∀ c' ∈ order, c' ≠ c := fun c' hin => ne_of_mem_of_not_mem hin hnot
      apply List.Forall₂.imp ?_ ((List.forall₂_and_left _ _).mpr ⟨hne, hlist.entries⟩)
      rintro c' entry ⟨hc', hmatch⟩
      refine ⟨hmatch.said, hmatch.allowed.trans ?_⟩
      simp [hc']
    refine ⟨order, hstarted.set ?_ (by simp [Pc.Returned])⟩
    intro old hold
    rw [show s.calls c = some old from hold] at hc
    cases hc
  · exact h.offered

theorem Recorded.cancels (h : Recorded s) (hc : s.calls c = some call) (hp : call.pc = .awaiting) :
    Recorded (s.set c call .cancelled) := by
  have hsame : ∀ old, s.calls c = some old → old = call := by
    intro old hold
    exact Option.some.inj (hold.symm.trans hc)
  constructor
  · exact h.tools
  · exact h.permitted.set hsame _
  · intro c'
    rw [calls_set]
    split_ifs with he
    · subst he
      apply (h.started c').trans
      simp [hc, hp, Pc.ran]
    · exact h.started c'
  · obtain ⟨order, hlist⟩ := h.listed
    refine ⟨order, hlist.set ?_ (by simp [Pc.Returned])⟩
    intro old hold
    rw [hsame old hold, hp]
    simp [Pc.Returned]
  · exact h.offered

theorem Recorded.step {a : Action C A H V} (h : Recorded s) (hs : step s a = some t) :
    Recorded t := by
  have hnew : ∀ {c : C} {call : Call A V}, s.calls c = none →
      ∀ old, s.calls c = some old → old = call ∧ old.pc = .awaiting := by
    intro c call hc old hold
    rw [hc] at hold
    cases hold
  cases step_cases hs with
  | register spec handler => exact h.registers spec handler
  | unknown c call m hc hr => exact h.answers (hnew hc) (by simp [hc]) _ _ _ m
  | denied c call m hc hp =>
    have ha : Recorded (s.answer c call false none (some "tool not permitted") 0 m) :=
      h.answers (hnew hc) (by simp [hc]) _ _ _ m
    obtain ⟨order, hlist⟩ := ha.listed
    exact ⟨ha.tools, ha.permitted, ha.started, ⟨order, hlist.nodup, hlist.mem,
      hlist.entries.imp fun _ _ hmatch => ⟨hmatch.said, hmatch.allowed⟩⟩, ha.offered⟩
  | starts c call m r hc hr hp => exact h.starts hc hr hp
  | ends c call m result output error hc hp =>
    apply h.answers _ (by simp [hc])
    intro old hold
    obtain rfl := Option.some.inj (hold.symm.trans hc)
    exact ⟨rfl, hp⟩
  | cancels c call hc hp => exact h.cancels hc hp

end Steps

def moment : Moment := ⟨5, "2026-01-01T00:00:00+00:00", some "sink down"⟩

end Workbench.ToolGateway
