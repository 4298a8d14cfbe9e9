import Workbench.TerminalWrites
import Mathlib.Data.Fintype.Basic

namespace Workbench.TerminalWrites

open RunStore KeyedTable Transitions RunLease

variable {D R : Type} [DecidableEq R] {ttl : ℤ} {s t : State D R}

def SameResult (r r' : AgentRun (AutonomousPayload R)) : Prop :=
  r'.status = r.status ∧ r'.payload = r.payload ∧ r'.error = r.error

def KeepsCompleted (s t : State D R) : Prop :=
  ∀ k r, s.leases.store.get k = some r → r.status = .completed →
    ∃ r', t.leases.store.get k = some r' ∧ SameResult r r'

def SameColumn {A : Type} (seen new current : A) : Prop := new = seen ∨ new = current

instance {A : Type} [DecidableEq A] (seen new current : A) :
    Decidable (SameColumn seen new current) := inferInstanceAs (Decidable (_ ∨ _))

def Rewrites (old : AgentRun (AutonomousPayload R)) (w : TerminalWrite R)
    (r : AgentRun (AutonomousPayload R)) : Prop :=
  SameColumn old.status w.status r.status ∧ SameColumn old.payload w.payload r.payload ∧
    SameColumn old.error w.error r.error

instance (old : AgentRun (AutonomousPayload R)) (w : TerminalWrite R)
    (r : AgentRun (AutonomousPayload R)) : Decidable (Rewrites old w r) :=
  inferInstanceAs (Decidable (_ ∧ _ ∧ _))

/-- A terminal write is committed on a row that is not `completed`, or changes nothing of it. -/
def WritesOnce (s : State D R) : Action D R → Prop
  | .commit d => ∀ e ∈ s.leases.executing d, ∀ p ∈ s.pending d, ∀ old ∈ p.seen,
      ∀ r ∈ s.leases.store.get e.runId, r.status = .completed → Rewrites old p.write r
  | _ => True

instance (s : State D R) (a : Action D R) : Decidable (WritesOnce s a) :=
  match a with
  | .commit d => inferInstanceAs (Decidable (∀ e ∈ s.leases.executing d, ∀ p ∈ s.pending d,
      ∀ old ∈ p.seen, ∀ r ∈ s.leases.store.get e.runId, r.status = .completed → Rewrites old p.write r))
  | .base _ | .look _ _ _ => isTrue trivial

/-- No claim takes the lease of a delivery that still works on the run. -/
def LeaseKept (ttl : ℤ) (s : State D R) : Action D R → Prop
  | .base (.claim _ runId _ now) => ∀ d, ∀ e ∈ s.leases.executing d, e.runId = runId →
      e.closing = false → ∀ r ∈ s.leases.store.get runId,
        claimable runId (now - seconds ttl) r = false
  | _ => True

omit [DecidableEq R] in
theorem KeepsCompleted.refl (s : State D R) : KeepsCompleted s s :=
  fun _ r hr _ => ⟨r, hr, rfl, rfl, rfl⟩

omit [DecidableEq R] in
theorem KeepsCompleted.trans {u : State D R} (h : KeepsCompleted s t) (h' : KeepsCompleted t u) :
    KeepsCompleted s u := by
  intro k r hr hc
  obtain ⟨r', hr', hst, hp, he⟩ := h k r hr hc
  obtain ⟨r'', hr'', hst', hp', he'⟩ := h' k r' hr' (hst.trans hc)
  exact ⟨r'', hr'', hst'.trans hst, hp'.trans hp, he'.trans he⟩

theorem setColumn_eq {A : Type} [DecidableEq A] {seen new current : A} :
    setColumn seen new current = current ↔ SameColumn seen new current := by
  unfold setColumn SameColumn
  split_ifs with h
  · exact ⟨fun _ => .inl h, fun _ => rfl⟩
  · exact ⟨.inr, fun hor => hor.resolve_left h⟩

theorem sameResult_setRow {old r : AgentRun (AutonomousPayload R)} {p : Pending R} :
    SameResult r (setRow old p r) ↔ Rewrites old p.write r := by
  unfold SameResult Rewrites setRow
  rw [setColumn_eq, setColumn_eq, setColumn_eq]

variable [DecidableEq D]

def NeverClobbered (ttl : ℤ) (s : State D R) (as : List (Action D R)) : Prop :=
  ∀ xs ys zs u t, as = xs ++ (ys ++ zs) → exec (step ttl) s xs = some u →
    exec (step ttl) u ys = some t → KeepsCompleted u t

section Writes

theorem keepsCompleted_of_writesOnce {a : Action D R} (hw : WritesOnce s a)
    (h : step ttl s a = some t) : KeepsCompleted s t := by
  intro k r hr hc
  cases a with
  | base a =>
    obtain ⟨hfinish, hbase, -⟩ := step_base h
    obtain ⟨r', hr', hrow⟩ := step_row hbase hr
    refine ⟨r', hr', ?_⟩
    cases hrow with
    | same => exact ⟨rfl, rfl, rfl⟩
    | claimed d goal now hclaim => simp [claimable, hc] at hclaim
    | touched => exact ⟨rfl, rfl, rfl⟩
    | finished d e outcome now => exact absurd rfl (hfinish d outcome now)
    | swept now hs => simp [stuck, hc] at hs
  | look d outcome now =>
    obtain ⟨e, -, -, -, -, hleases, -⟩ := step_look h
    rw [hleases]
    exact ⟨r, hr, rfl, rfl, rfl⟩
  | commit d =>
    obtain ⟨e, p, he, -, hp, hleases, -⟩ := step_commit h
    rw [hleases]
    refine ⟨_, committed_row hr, ?_⟩
    split_ifs with hk
    · subst hk
      cases hseen : p.seen with
      | none => exact ⟨rfl, rfl, rfl⟩
      | some old => exact sameResult_setRow.mpr (hw e he p hp old hseen r hr hc)
    · exact ⟨rfl, rfl, rfl⟩

theorem writesOnce_of_keepsCompleted {a : Action D R} (hk : KeepsCompleted s t)
    (h : step ttl s a = some t) : WritesOnce s a := by
  cases a with
  | base a => trivial
  | look d outcome now => trivial
  | commit d =>
    intro e he p hp old hold r hr hc
    obtain ⟨e', p', he', -, hp', hleases, -⟩ := step_commit h
    obtain rfl : e = e' := Option.some.inj ((Option.mem_def.mp he).symm.trans he')
    obtain rfl : p = p' := Option.some.inj ((Option.mem_def.mp hp).symm.trans hp')
    obtain ⟨r', hr', hsame⟩ := hk e.runId r hr hc
    rw [hleases] at hr'
    have hrow := committed_row (s := s) (e := e) (p := p) (Option.mem_def.mp hr)
    rw [if_pos rfl, Option.mem_def.mp hold] at hrow
    have hset : r' = setRow old p r := Option.some.inj (hr'.symm.trans hrow)
    rw [hset] at hsame
    exact sameResult_setRow.mp hsame

theorem keepsCompleted_of_obeys {as : List (Action D R)} (h : exec (step ttl) s as = some t)
    (ho : Obeys (step ttl) WritesOnce s as) : KeepsCompleted s t :=
  Reaches.relation (I := fun _ => True) (reaches_of_exec h ho) trivial (fun _ _ _ _ _ _ => trivial)
    KeepsCompleted.refl (fun _ _ _ => KeepsCompleted.trans)
    fun _ _ _ _ hw hstep => keepsCompleted_of_writesOnce hw hstep

theorem never_clobbered_of_obeys {as : List (Action D R)} (ho : Obeys (step ttl) WritesOnce s as) :
    NeverClobbered ttl s as := by
  rintro xs ys zs u v rfl hxs hys
  have hsuffix := (obeys_append.mp ho).2 u hxs
  exact keepsCompleted_of_obeys hys (obeys_append.mp hsuffix).1

end Writes

section Sole

structure Sole (s : State D R) : Prop where
  row : ∀ d e, s.leases.executing d = some e → e.closing = false →
    ∃ r, s.leases.store.get e.runId = some r ∧ r.status ≠ .completed
  one : ∀ d d' e e', s.leases.executing d = some e → e.closing = false →
    s.leases.executing d' = some e' → e'.closing = false → e.runId = e'.runId → d = d'

omit [DecidableEq R] [DecidableEq D] in
theorem Idle.sole (h : Idle s) : Sole s where
  row d e he := by
    rw [h.executing d] at he
    cases he
  one d d' e e' he := by
    rw [h.executing d] at he
    cases he

omit [DecidableEq R] in
theorem base_not_completed {a : RunLease.Action D R} {k : String}
    {r : AgentRun (AutonomousPayload R)} (hfinish : ∀ d outcome now, a ≠ .finish d outcome now)
    {l l' : RunLease.State D R} (h : RunLease.step ttl l a = some l') (hr : l.store.get k = some r)
    (hc : r.status ≠ .completed) : ∃ r', l'.store.get k = some r' ∧ r'.status ≠ .completed := by
  obtain ⟨r', hr', hrow⟩ := step_row h hr
  refine ⟨r', hr', ?_⟩
  cases hrow with
  | same => exact hc
  | claimed d goal now hclaim => simp
  | touched => exact hc
  | finished d e outcome now => exact absurd rfl (hfinish d outcome now)
  | swept now hs => simp

theorem Sole.base (h : Sole s) {a : RunLease.Action D R} (hkept : LeaseKept ttl s (.base a))
    (hstep : TerminalWrites.step ttl s (.base a) = some t) : Sole t := by
  obtain ⟨hfinish, hbase, -⟩ := step_base hstep
  constructor
  · intro d e' he' hopen
    rcases base_executing hfinish hbase he' with ⟨e, he, hrun, hclosing⟩ | ⟨goal, now, rfl, hwon⟩
    · obtain ⟨r, hr, hc⟩ := h.row d e he (hclosing.trans hopen)
      rw [hrun] at hr
      exact base_not_completed hfinish hbase hr hc
    · obtain ⟨r, hr, hclaim⟩ := (claimRun_won_iff _ _ _ _).mp hwon
      obtain ⟨-, -, -, hstore, -⟩ := step_claim hbase
      rw [hstore, get_claimRun, hr, Option.map_some, if_pos hclaim]
      exact ⟨_, rfl, by simp⟩
  · intro d d' e e' he hopen he' hopen' hrun
    rcases base_executing hfinish hbase he with ⟨f, hf, hfrun, hfopen⟩ | ⟨goal, now, rfl, hwon⟩
    · rcases base_executing hfinish hbase he' with ⟨f', hf', hfrun', hfopen'⟩ | ⟨goal, now, rfl, hwon⟩
      · exact h.one d d' f f' hf (hfopen.trans hopen) hf' (hfopen'.trans hopen')
          (hfrun.trans (hrun.trans hfrun'.symm))
      · obtain ⟨r, hr, hclaim⟩ := (claimRun_won_iff _ _ _ _).mp hwon
        rw [hkept d f hf (hfrun.trans hrun) (hfopen.trans hopen) r hr] at hclaim
        cases hclaim
    · rcases base_executing hfinish hbase he' with ⟨f', hf', hfrun', hfopen'⟩ | ⟨goal', now', heq, -⟩
      · obtain ⟨r, hr, hclaim⟩ := (claimRun_won_iff _ _ _ _).mp hwon
        rw [hkept d' f' hf' (hfrun'.trans hrun.symm) (hfopen'.trans hopen') r hr] at hclaim
        cases hclaim
      · rw [RunLease.Action.claim.injEq] at heq
        exact heq.1

theorem Sole.step (h : Sole s) {a : Action D R} (hkept : LeaseKept ttl s a)
    (hstep : TerminalWrites.step ttl s a = some t) : Sole t := by
  cases a with
  | base a => exact h.base hkept hstep
  | look d outcome now =>
    obtain ⟨e, -, -, -, -, hleases, -⟩ := step_look hstep
    constructor
    · rw [hleases]
      exact h.row
    · rw [hleases]
      exact h.one
  | commit d =>
    obtain ⟨e, p, he, hopen, -, hleases, -⟩ := step_commit hstep
    have hstill {d' : D} {e' : Execution} (he' : t.leases.executing d' = some e')
        (hopen' : e'.closing = false) : d' ≠ d ∧ s.leases.executing d' = some e' := by
      rw [hleases] at he'
      rcases update_some_eq_some he' with ⟨-, rfl⟩ | hother
      · cases hopen'
      · exact hother
    constructor
    · intro d' e' he' hopen'
      obtain ⟨hne, hbefore⟩ := hstill he' hopen'
      obtain ⟨r, hr, hc⟩ := h.row d' e' hbefore hopen'
      have hrun : e'.runId ≠ e.runId := fun hrun => hne (h.one d' d e' e hbefore hopen' he hopen hrun)
      rw [hleases]
      refine ⟨r, ?_, hc⟩
      rw [committed_row hr, if_neg hrun]
    · intro d' d'' e' e'' he' hopen' he'' hopen''
      exact h.one d' d'' e' e'' (hstill he' hopen').2 hopen' (hstill he'' hopen'').2 hopen''

theorem Sole.writesOnce (h : Sole s) {a : Action D R} (hstep : TerminalWrites.step ttl s a = some t) :
    WritesOnce s a := by
  cases a with
  | base a => trivial
  | look d outcome now => trivial
  | commit d =>
    intro e he p _ old _ r hr hc
    obtain ⟨e', -, he', hopen, -⟩ := step_commit hstep
    obtain rfl : e = e' := Option.some.inj ((Option.mem_def.mp he).symm.trans he')
    obtain ⟨q, hq, hnot⟩ := h.row d e he hopen
    obtain rfl : q = r := Option.some.inj (hq.symm.trans hr)
    exact absurd hc hnot

theorem writesOnce_of_leaseKept {as : List (Action D R)} (h : Sole s)
    (hkept : Obeys (TerminalWrites.step ttl) (LeaseKept ttl) s as)
    (hrun : exec (TerminalWrites.step ttl) s as = some t) :
    Obeys (TerminalWrites.step ttl) WritesOnce s as := by
  apply obeys_iff.mpr
  rintro xs a ys u rfl hu
  obtain ⟨v, hv⟩ := step_of_exec hrun hu
  have hsole : Sole u := Reaches.invariant (reaches_of_exec hu (obeys_append.mp hkept).1) h
    fun _ _ _ hs hg hstep => hs.step hg hstep
  exact hsole.writesOnce hv

end Sole

/-- A run leaves its results alone exactly when each commit does; and it does when, from a state
where nothing is executed, no claim takes the lease of a delivery that still works. -/
theorem never_clobbered_iff {as : List (Action D R)} (h : exec (step ttl) s as = some t) :
    (NeverClobbered ttl s as ↔ Obeys (step ttl) WritesOnce s as) ∧
      (Idle s → Obeys (step ttl) (LeaseKept ttl) s as → NeverClobbered ttl s as) := by
  constructor
  · constructor
    · intro hn
      apply obeys_iff.mpr
      intro xs a ys u has hu
      subst has
      obtain ⟨v, hv⟩ := step_of_exec h hu
      exact writesOnce_of_keepsCompleted (hn xs [a] ys u v rfl hu (by simp [exec, hv])) hv
    · exact never_clobbered_of_obeys
  · intro hidle hkept
    exact never_clobbered_of_obeys (writesOnce_of_leaseKept hidle.sole hkept h)

section Sample

instance [Fintype D] (ttl : ℤ) (s : State D R) (a : Action D R) : Decidable (LeaseKept ttl s a) :=
  match a with
  | .base (.claim _ runId _ now) => inferInstanceAs (Decidable (∀ d, ∀ e ∈ s.leases.executing d,
      e.runId = runId → e.closing = false → ∀ r ∈ s.leases.store.get runId,
        claimable runId (now - seconds ttl) r = false))
  | .base (.submit _ _ _ _) | .base (.touch _ _) | .base (.finish _ _ _) | .base (.release _)
  | .base (.crash _) | .base (.sweep _) | .base (.tick _) | .look _ _ _ | .commit _ => isTrue trivial

def start (D R : Type) : State D R := ⟨⟨0, Table.empty _, fun _ => none⟩, fun _ => none⟩

/-- A worker that stalls beyond its lease, the thief's result, and then the stalled worker's. -/
def staleOwner : List (Action Bool Unit) :=
  [.base (.submit "r" "g" none 0), .base (.claim false "r" "g" 0), .base (.tick (seconds 901)),
    .base (.claim true "r" "g" (seconds 901)), .look true (.returned true ()) (seconds 901),
    .commit true, .look false (.raised "timeout") (seconds 901), .commit false]

theorem stale_owner_clobbers : ¬NeverClobbered 900 (start Bool Unit) staleOwner := by
  intro h
  obtain ⟨r', hr', hst, _⟩ :=
    h (staleOwner.take 6) (staleOwner.drop 6) [] _ _ rfl rfl rfl "r" _ rfl rfl
  cases hr'
  cases hst

/-- Both workers find the row `running`, and the later commit still takes the result away. -/
def bothLooked : List (Action Bool Unit) :=
  staleOwner.take 4 ++ [.look false (.raised "timeout") (seconds 901),
    .look true (.returned true ()) (seconds 901), .commit true, .commit false]

example : ((exec (step 900) (start Bool Unit) (bothLooked.take 7)).bind
      fun s => (s.leases.store.get "r").map AgentRun.status) = some .completed ∧
    ((exec (step 900) (start Bool Unit) bothLooked).bind
      fun s => (s.leases.store.get "r").map AgentRun.status) = some .failed := by
  decide

/-- A second delivery finds the lease kept; a sweep comes in between the look and the commit, and
the delivery is tried again once the run is completed. -/
def keptLease : List (Action Bool Unit) :=
  [.base (.submit "r" "g" none 0), .base (.claim false "r" "g" 0), .base (.tick (seconds 800)),
    .base (.claim true "r" "g" (seconds 800)), .base (.touch false (seconds 800)),
    .base (.tick (seconds 1701)), .look false (.returned true ()) (seconds 1701),
    .base (.sweep (seconds 1701)), .base (.claim true "r" "g" (seconds 1701)), .commit false,
    .base (.release false), .base (.claim true "r" "g" (seconds 1701)), .base (.sweep (seconds 1701))]

theorem never_clobbered_kept_lease : NeverClobbered 900 (start Bool Unit) keptLease := by
  have hsome : (exec (step 900) (start Bool Unit) keptLease).isSome := by decide
  obtain ⟨t, ht⟩ := Option.isSome_iff_exists.mp hsome
  exact (never_clobbered_iff ht).2 ⟨fun _ => rfl, fun _ => rfl⟩ (by decide)

end Sample

end Workbench.TerminalWrites
