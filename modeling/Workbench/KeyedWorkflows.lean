import Workbench.BoundCalls

/-!
Calls of several workflows with idempotency keys. `_KIND` is one constant, so a key is looked up
among the runs of all of them.
-/

namespace Workbench.RegistryCalls

open KeyedTable RunStore Transitions WorkflowEngine WorkflowRegistry

variable {C D : Type} [DecidableEq C] {workflows : Table WorkflowDef.name}

def Asked (s : Registry C D) (key name : String) : Prop :=
  ∃ c t inputState, s.tasks c = some t ∧ t.call = .runWorkflow name inputState (some key)

def Call.Apart : Call D → Call D → Prop
  | .runWorkflow name _ (some key), .runWorkflow name' _ (some key') =>
    key = key' → key ≠ "" → name = name'
  | _, _ => True

def KeysApart (s : Registry C D) : Prop :=
  ∀ c c', ∀ t ∈ s.tasks c, ∀ t' ∈ s.tasks c', t.call.Apart t'.call

def NewIds (s : Registry C D) : Action C D → Prop
  | .begins _ _ runId _ => Fresh s runId
  | .continues _ runId _ => Fresh s runId
  | _ => True

def Task.Asks (s : Registry C D) (t : Task D) : Prop :=
  match t.pc with
  | .looking key => t.call.key = some key ∧ key ≠ ""
  | .looked (some row) => ∃ key, t.call.key = some key ∧ key ≠ "" ∧
      ∀ run ∈ modelValidate row.payload, Asked s key run.workflow
  | _ => True

structure Filed (s : Registry C D) : Prop where
  named : ∃ nameOf : String → String, ∀ run, Copy s run → run.workflow = nameOf run.id
  own : ∀ k run, StoredAt s.store k run → run.id = k
  valid : ∀ row ∈ s.store.rows, row.kind = workflowKind → (modelValidate row.payload).isSome
  keyed : ∀ row ∈ s.store.rows, row.kind = workflowKind → ∀ key ∈ row.idempotencyKey,
    ∀ run ∈ modelValidate row.payload, Asked s key run.workflow
  asks : ∀ c, ∀ t ∈ s.tasks c, t.Asks s

omit [DecidableEq C] in
theorem Task.Asks.mono {s u : Registry C D} {t : Task D} (h : t.Asks s)
    (ha : ∀ key name, Asked s key name → Asked u key name) : t.Asks u := by
  obtain ⟨call, pc⟩ := t
  cases pc with
  | looked row =>
    cases row with
    | none => trivial
    | some row =>
      obtain ⟨key, hk, hne, hasked⟩ := h
      exact ⟨key, hk, hne, fun run hr => ha key run.workflow (hasked run hr)⟩
  | _ => exact h

omit [DecidableEq C] in
theorem Filed.objects {s : Registry C D} (h : Filed s) {objects : List (WorkflowRun D)}
    (hnew : ∀ run ∈ objects, ∃ copy, Copy s copy ∧ SameRun copy run) (cache : RefCache)
    (decided : List (Decided C)) : Filed { s with objects, cache, decided } := by
  obtain ⟨nameOf, hname⟩ := h.named
  refine ⟨⟨nameOf, ?_⟩, h.own, h.valid, h.keyed, h.asks⟩
  rintro run (ho | hs)
  · obtain ⟨copy, hc, hid, hworkflow⟩ := hnew run ho
    rw [hworkflow, hid]
    exact hname copy hc
  · exact hname run (.inr hs)

omit [DecidableEq C] in
theorem Filed.create {s : Registry C D} (h : Filed s) {run : WorkflowRun D} (hfresh : Fresh s run.id)
    (executed : List (Executed C)) : Filed { s with objects := s.objects ++ [run], executed } := by
  obtain ⟨nameOf, hname⟩ := h.named
  refine ⟨⟨Function.update nameOf run.id run.workflow, ?_⟩, h.own, h.valid, h.keyed, h.asks⟩
  have hold : ∀ copy, Copy s copy →
      copy.workflow = Function.update nameOf run.id run.workflow copy.id := by
    intro copy hc
    rw [Function.update_of_ne (hfresh.copy copy hc)]
    exact hname copy hc
  rintro other (ho | hs)
  · rcases List.mem_append.mp ho with ho | ho
    · exact hold other (.inl ho)
    · rw [List.mem_singleton.mp ho, Function.update_self]
  · exact hold other (.inr hs)

omit [DecidableEq C] in
theorem called_none {s : Registry C D} {c : C} {call : Call D} (hc : s.tasks c = none) :
    ∀ old ∈ s.tasks c, old.call = call := by
  intro old hold
  rw [hc] at hold
  cases hold

omit [DecidableEq C] in
theorem called_some {s : Registry C D} {c : C} {t : Task D} (hc : s.tasks c = some t) :
    ∀ old ∈ s.tasks c, old.call = t.call := by
  intro old hold
  rw [Option.some.inj (hc.symm.trans hold)]

omit [DecidableEq C] in
theorem Framed.asked {s u : Registry C D} {c : C} {call : Call D} (hf : Framed s u c call)
    (hcall : ∀ old ∈ s.tasks c, old.call = call) {key name : String} (h : Asked s key name) :
    Asked u key name := by
  obtain ⟨c', t, inputState, hc, hname⟩ := h
  by_cases hcc : c' = c
  · subst hcc
    obtain ⟨pc, hpc⟩ := hf.called
    exact ⟨c', _, inputState, hpc, (hcall t hc).symm.trans hname⟩
  · exact ⟨c', t, inputState, (hf.others c' hcc).trans hc, hname⟩

omit [DecidableEq C] in
theorem asked_restart {s : Registry C D} {key name : String} (h : Asked s key name) :
    Asked { s with cache := Table.empty _, tasks := fun c => (s.tasks c).map Task.lose } key name := by
  obtain ⟨c, t, inputState, hc, hname⟩ := h
  refine ⟨c, t.lose, inputState, Option.map_eq_some_iff.mpr ⟨t, hc, rfl⟩, ?_⟩
  unfold Task.lose
  split <;> exact hname

theorem Filed.setTask {s : Registry C D} (h : Filed s) {c : C} {t : Task D}
    (hcall : ∀ old ∈ s.tasks c, old.call = t.call) (hcarries : ∀ run, t.pc.Carries run → Copy s run)
    (hasks : t.Asks s) : Filed (s.setTask c t) := by
  have hasked : ∀ key name, Asked s key name → Asked (s.setTask c t) key name :=
    fun _ _ => (framed_setTask s c t).asked hcall
  obtain ⟨nameOf, hname⟩ := h.named
  refine ⟨⟨nameOf, ?_⟩, h.own, h.valid, fun row hr hkind key hk run hv =>
    hasked key run.workflow (h.keyed row hr hkind key hk run hv), fun c' t' hc' => ?_⟩
  · rintro run (ho | hs)
    · exact hname run (.inl ho)
    · exact (snapshot_setTask rfl rfl hs).elim (fun hs => hname run (.inr hs))
        fun hr => hname run (hcarries run hr)
  · rw [tasks_setTask] at hc'
    split_ifs at hc'
    · cases hc'
      exact hasks.mono hasked
    · exact (h.asks c' t' hc').mono hasked

section Operations

variable {s : Registry C D} {c : C} (h : Filed s) {call : Call D}
  (hcall : ∀ old ∈ s.tasks c, old.call = call)

include h hcall

theorem Filed.proceed {ref : ℕ} {run : WorkflowRun D} {d : Drive D} (ho : s.objects[ref]? = some run)
    (hd : SameRun run d.run) (wf : WorkflowDef) : Filed (proceed s c call ref wf d) := by
  obtain ⟨hlt, _⟩ := List.getElem?_eq_some_iff.mp ho
  have hset : ∀ other ∈ s.objects.set ref d.run, ∃ copy, Copy s copy ∧ SameRun copy other := by
    intro other hother
    rcases List.mem_or_eq_of_mem_set hother with hother | rfl
    · exact ⟨other, .inl hother, rfl, rfl⟩
    · exact ⟨run, .inl (List.mem_of_getElem? ho), hd⟩
  have hto := proceed_cases s c call ref wf d
  generalize RegistryCalls.proceed s c call ref wf d = u at hto ⊢
  cases hto with
  | ended hp =>
    apply (h.objects hset (evictRefs (s.cache.put (d.run.id, ref))) s.decided).setTask hcall
    · rintro dumped ⟨⟩
      exact .inl (List.mem_set hlt d.run)
    · trivial
  | raised exc hp =>
    exact (h.objects hset s.cache s.decided).setTask hcall (by simp [Pc.carried]) trivial
  | awaits hp =>
    exact (h.objects hset s.cache s.decided).setTask hcall (by simp [Pc.carried]) trivial

theorem Filed.enterExecute {name : String} {inputState : D} {key : Option String}
    (hname : call = .runWorkflow name inputState key) {runId : String} (hfresh : Fresh s runId)
    (createdAt : String) :
    Filed (enterExecute workflows s c name inputState key runId createdAt) := by
  subst hname
  unfold RegistryCalls.enterExecute
  cases hw : workflows.get name with
  | none => exact h.setTask hcall (by simp [Pc.carried]) trivial
  | some wf =>
    have hentered : Filed { s with
        objects := s.objects ++ [newRun wf runId createdAt inputState]
        executed := s.executed ++ [⟨c, key, runId⟩] } := h.create hfresh _
    exact hentered.proceed hcall (object_new.mpr (.inr ⟨rfl, rfl⟩))
      (sameRun_loopHead wf _ (newRun wf runId createdAt inputState) (some wf.entry)) wf

theorem Filed.decideOn {ref : ℕ} {run : WorkflowRun D} (ho : s.objects[ref]? = some run)
    (decision : Decision) : Filed (decideOn workflows s c call ref run decision) := by
  have hto := decideOn_cases workflows s c call ref run decision
  generalize RegistryCalls.decideOn workflows s c call ref run decision = u at hto ⊢
  cases hto with
  | unregistered hg => exact h.setTask hcall (by simp [Pc.carried]) trivial
  | refused wf message hg hr => exact h.setTask hcall (by simp [Pc.carried]) trivial
  | decided wf d hg hr =>
    have hdecided := h.objects (fun other hother => ⟨other, .inl hother, rfl, rfl⟩) s.cache
      (s.decided ++ [⟨c, run.id, run.approvals.length, decision.decision⟩])
    exact hdecided.proceed hcall ho (sameRun_resume hr) wf

theorem Filed.goOn {row : Option (AgentRun (RowPayload D))}
    (hrow : ∀ r ∈ row, ∀ run ∈ modelValidate r.payload, Snapshot s run) {runId : String}
    (hfresh : Fresh s runId) (createdAt : String) :
    Filed (goOn workflows s c runId createdAt call row) := by
  have hadopt : ∀ r run, row = some r → modelValidate r.payload = some run → Filed (s.adopt run) := by
    intro r run hr hv
    apply h.objects
    intro other hother
    rcases List.mem_append.mp hother with hother | hother
    · exact ⟨other, .inl hother, rfl, rfl⟩
    · rw [List.mem_singleton.mp hother]
      exact ⟨run, .inr (hrow r hr run hv), rfl, rfl⟩
  have hto := goOn_cases workflows s c runId createdAt call row
  generalize RegistryCalls.goOn workflows s c runId createdAt call row = u at hto ⊢
  cases hto with
  | invalid call r hv => exact h.setTask hcall (by simp [Pc.carried]) trivial
  | shows call r run hv _ => exact (hadopt r run rfl hv).setTask hcall (by simp [Pc.carried]) trivial
  | decides id decision r run hv =>
    exact (hadopt r run rfl hv).decideOn hcall (object_new.mpr (.inr ⟨rfl, rfl⟩)) decision
  | enters name inputState key => exact h.enterExecute hcall rfl hfresh createdAt
  | absent id => exact h.setTask hcall (by simp [Pc.carried]) trivial
  | unknown id decision => exact h.setTask hcall (by simp [Pc.carried]) trivial

end Operations

theorem Filed.reads {s : Registry C D} (h : Filed s) {c : C} {t : Task D} {pc : Pc D}
    (hc : s.tasks c = some t) (hr : read s.store t.pc = some pc) :
    Filed (s.setTask c ⟨t.call, pc⟩) := by
  have hcall := called_some hc
  have hstored : ∀ row run, row ∈ s.store.rows → modelValidate row.payload = some run → Copy s run :=
    fun row run hrow hv =>
      .inr (.inl ⟨row.id, storedAt_iff.mpr ⟨row, Table.get_of_mem hrow, hv⟩⟩)
  have hasks := h.asks c t hc
  rcases read_cases hr with ⟨key, hp, rfl⟩ | ⟨runId, hp, rfl⟩ | ⟨ref, dumped, hp, rfl⟩
  · apply h.setTask (t := ⟨t.call, .looked _⟩) hcall
    · intro run hcarried
      obtain ⟨row, hrow, hv⟩ := Option.bind_eq_some_iff.mp hcarried
      exact hstored row run (getByKey_mem hrow).1 hv
    · simp only [Task.Asks, hp] at hasks
      cases hrow : getRunByIdempotencyKey s.store workflowKind key with
      | none => trivial
      | some row =>
        obtain ⟨hmem, hkind, hkey, hne⟩ := getByKey_mem hrow
        exact ⟨key, hasks.1, hne, h.keyed row hmem hkind key hkey⟩
  · apply h.setTask (t := ⟨t.call, .loaded _⟩) hcall
    · intro run hcarried
      obtain ⟨row, hrow, hv⟩ := Option.bind_eq_some_iff.mp hcarried
      exact hstored row run (Table.mem_of_get hrow) hv
    · trivial
  · apply h.setTask (t := ⟨t.call, .committing _ _ _⟩) hcall
    · rintro run ⟨⟩
      exact .inr (.inr ⟨c, t, hc, by rw [hp]; rfl⟩)
    · trivial

omit [DecidableEq C] in
theorem Filed.restart {s : Registry C D} (h : Filed s) :
    Filed { s with cache := Table.empty _, tasks := fun c => (s.tasks c).map Task.lose } := by
  obtain ⟨nameOf, hname⟩ := h.named
  refine ⟨⟨nameOf, ?_⟩, h.own, h.valid, fun row hr hkind key hk run hv =>
    asked_restart (h.keyed row hr hkind key hk run hv), fun c t hc => ?_⟩
  · rintro run (ho | hs | ⟨c, t, hc, hcarries⟩)
    · exact hname run (.inl ho)
    · exact hname run (.inr (.inl hs))
    · exact absurd hcarries ((lost_idle hc).carries run)
  · obtain ⟨⟨call, pc⟩, _, rfl⟩ := Option.map_eq_some_iff.mp hc
    cases pc <;> trivial

section Commit

variable [DecidableEq D] {json : D → Option D}

omit [DecidableEq C] [DecidableEq D] in
theorem setColumn_cases {A : Type} [DecidableEq A] (seen new current : A) :
    setColumn seen new current = new ∨ setColumn seen new current = current := by
  unfold setColumn
  split_ifs
  · exact .inr rfl
  · exact .inl rfl

structure Written (store : RunRows D) (dumped payload : WorkflowRun D) (key : Option String)
    (row : AgentRun (RowPayload D)) : Prop where
  payload : row.payload = .workflow payload ∨
    ∃ r ∈ store.rows, r.id = dumped.id ∧ r.kind = row.kind ∧ row.payload = r.payload
  key : row.idempotencyKey = key ∨
    ∃ r ∈ store.rows, r.id = dumped.id ∧ r.kind = row.kind ∧ row.idempotencyKey = r.idempotencyKey

omit [DecidableEq C] in
theorem commitWorkflow_mem {store : RunRows D} {seen : Option (AgentRun (RowPayload D))}
    {dumped : WorkflowRun D} {key : Option String} {now : ℤ} {row : AgentRun (RowPayload D)}
    (h : row ∈ (commitWorkflow json store seen dumped key now).rows) :
    row ∈ store.rows ∨ ∃ payload, roundTrip json dumped = some payload ∧
      Written store dumped payload key row := by
  unfold commitWorkflow at h
  split at h
  · exact .inl h
  · rename_i payload hpayload
    cases hw : commitRun store seen dumped.id workflowKind (rowStatus dumped.status)
        (.workflow payload) key none now with
    | none =>
      rw [hw] at h
      exact .inl h
    | some written =>
      rw [hw] at h
      change row ∈ written.rows at h
      unfold commitRun at hw
      split at hw
      · rcases insertRow_mem hw h with hold | rfl
        · exact .inl hold
        · exact .inr ⟨payload, hpayload, .inl rfl, .inl rfl⟩
      · rename_i old
        simp only at hw
        split at hw
        · cases hw
        · split_ifs at hw
          cases hw
          obtain ⟨r, hr, rfl⟩ := List.mem_map.mp h
          split_ifs with hid
          · have hid : r.id = dumped.id := by simpa using hid
            refine .inr ⟨payload, hpayload, ?_, ?_⟩
            · rcases setColumn_cases old.payload (.workflow payload) r.payload with hnew | hsame
              · exact .inl hnew
              · exact .inr ⟨r, hr, hid, rfl, hsame⟩
            · cases key with
              | none => exact .inr ⟨r, hr, hid, rfl, by simp [setColumn]⟩
              | some k =>
                rcases setColumn_cases old.idempotencyKey (some k) r.idempotencyKey with
                  hnew | hsame
                · exact .inl hnew
                · exact .inr ⟨r, hr, hid, rfl, hsame⟩
          · exact .inl hr

omit [DecidableEq C] [DecidableEq D] in
theorem sameRun_roundTrip {run run' : WorkflowRun D} (h : roundTrip json run = some run') :
    SameRun run run' := by
  obtain ⟨state, attempts, rfl⟩ := roundTrip_id h
  exact ⟨rfl, rfl⟩

theorem Filed.commits {s : Registry C D} (h : Filed s) (hb : Bound s) {c : C} {t : Task D} {ref : ℕ}
    {dumped : WorkflowRun D} {seen : Option (AgentRun (RowPayload D))} (hc : s.tasks c = some t)
    (hp : t.pc = .committing ref dumped seen) (now : ℤ) :
    Filed ({ s with store := commitWorkflow json s.store seen dumped t.call.key now }.setTask c
      ⟨t.call, .returned (some ref)⟩) := by
  have hasked : ∀ key ∈ t.call.key, Asked s key dumped.workflow := by
    have hbound := hb c t hc
    intro key hk
    cases hcall : t.call with
    | runWorkflow name inputState k =>
      simp only [Task.Bound, hcall, hp, Pc.Bound] at hbound
      rw [hcall] at hk
      obtain rfl : k = some key := hk
      exact ⟨c, t, inputState, hc, by rw [hcall, hbound.2]⟩
    | _ => simp [hcall, Call.key] at hk
  obtain ⟨nameOf, hname⟩ := h.named
  have hdumped : dumped.workflow = nameOf dumped.id :=
    hname dumped (.inr (.inr ⟨c, t, hc, by rw [hp]; rfl⟩))
  have hpayload : ∀ payload, roundTrip json dumped = some payload → SameRun dumped payload :=
    fun _ => sameRun_roundTrip
  -- a row of the run, before the commit, is of the same workflow
  have hrow : ∀ r ∈ s.store.rows, r.id = dumped.id → ∀ run ∈ modelValidate r.payload,
      run.workflow = dumped.workflow := by
    intro r hr hid run hv
    have hs : StoredAt s.store r.id run := storedAt_iff.mpr ⟨r, Table.get_of_mem hr, hv⟩
    rw [hname run (.inr (.inl ⟨r.id, hs⟩)), h.own r.id run hs, hid, hdumped]
  have hwritten : Filed
      { s with store := commitWorkflow json s.store seen dumped t.call.key now } := by
    refine ⟨⟨nameOf, ?_⟩, fun k run hs => ?_, fun row hr hkind => ?_, fun row hr hkind key hk run hv => ?_,
      h.asks⟩
    · rintro run (ho | ⟨k, hs⟩ | hcarried)
      · exact hname run (.inl ho)
      · rcases storedAt_commit hs with hold | ⟨_, hr⟩
        · exact hname run (.inr (.inl ⟨k, hold⟩))
        · obtain ⟨hid, hworkflow⟩ := hpayload run hr
          rw [hworkflow, hid, hdumped]
      · exact hname run (.inr (.inr hcarried))
    · rcases storedAt_commit hs with hold | ⟨rfl, hr⟩
      · exact h.own k run hold
      · exact (hpayload run hr).1
    · rcases commitWorkflow_mem hr with hold | ⟨payload, _, hnew⟩
      · exact h.valid row hold hkind
      · rcases hnew.payload with hp | ⟨r, hmem, _, hrkind, hp⟩
        · rw [hp]
          rfl
        · rw [hp]
          exact h.valid r hmem (hrkind.trans hkind)
    · change Asked s key run.workflow
      rcases commitWorkflow_mem hr with hold | ⟨payload, hround, hnew⟩
      · exact h.keyed row hold hkind key hk run hv
      · have hworkflow : run.workflow = dumped.workflow := by
          rcases hnew.payload with hp | ⟨r, hmem, hid, _, hp⟩
          · rw [hp] at hv
            cases hv
            exact (hpayload run hround).2
          · exact hrow r hmem hid run (hp ▸ hv)
        rw [hworkflow]
        rcases hnew.key with hkey | ⟨r, hmem, hid, hrkind, hkey⟩
        · exact hasked key (hkey ▸ hk)
        · obtain ⟨old, hold⟩ := Option.isSome_iff_exists.mp (h.valid r hmem (hrkind.trans hkind))
          rw [← hrow r hmem hid old hold]
          exact h.keyed r hmem (hrkind.trans hkind) key (hkey ▸ hk) old hold
  exact hwritten.setTask (called_some (t := t) hc) (by simp [Pc.carried]) trivial

end Commit

section Histories

variable [StateDict D] [DecidableEq D] {json : D → Option D}

theorem Filed.step {s u : Registry C D} {a : Action C D} (h : Filed s) (hb : Bound s)
    (hn : NewIds s a) (hs : RegistryCalls.step workflows json s a = some u) : Filed u := by
  cases step_cases hs with
  | opens c call runId createdAt pc hc ho =>
    refine h.setTask (called_none hc) ?_ ?_
    · cases ho <;> simp [Pc.carried]
    · cases ho with
      | looks name inputState key hk => exact ⟨rfl, hk⟩
      | _ => trivial
  | starts c name inputState key runId createdAt hc hk =>
    exact h.enterExecute (called_none hc) rfl hn createdAt
  | decides c id decision runId createdAt k ref run hc hcache ho =>
    exact h.decideOn (called_none hc) ho decision
  | reads c t pc hc hr => exact h.reads hc hr
  | goesOn c t row runId createdAt hc hp =>
    apply h.goOn (called_some hc) ?_ hn
    intro r hr run hv
    refine .inr ⟨c, t, hc, ?_⟩
    rcases hp with hp | hp <;> simpa [hp, Pc.carried, Option.mem_def.mp hr] using hv
  | drives c t r ref wf approved point run d hc hp ho hd =>
    exact h.proceed (called_some hc) ho (awaitReply_same hd).1 wf
  | commits c t now ref dumped seen hc hp => exact h.commits hb hc hp now
  | restarts => exact h.restart

theorem asked_step {s u : Registry C D} {a : Action C D} {key name : String}
    (hs : RegistryCalls.step workflows json s a = some u) (h : Asked s key name) : Asked u key name := by
  cases step_cases hs with
  | opens c call runId createdAt pc hc ho => exact (framed_setTask s c _).asked (called_none hc) h
  | starts c name inputState key runId createdAt hc hk =>
    exact (framed_enterExecute workflows s c name inputState key runId createdAt).asked (called_none hc) h
  | decides c id decision runId createdAt k ref run hc hcache ho =>
    exact (framed_decideOn workflows s c _ ref run decision).asked (called_none hc) h
  | reads c t pc hc hr => exact (framed_setTask s c ⟨t.call, pc⟩).asked (called_some (t := t) hc) h
  | goesOn c t row runId createdAt hc hp =>
    exact (framed_goOn workflows s c runId createdAt t.call row).asked (called_some hc) h
  | drives c t r ref wf approved point run d hc hp ho hd =>
    exact (framed_proceed s c t.call ref wf d).asked (called_some hc) h
  | commits c t now ref dumped seen hc hp =>
    let stored : Registry C D :=
      { s with store := commitWorkflow json s.store seen dumped t.call.key now }
    exact (framed_setTask stored c ⟨t.call, .returned (some ref)⟩).asked (called_some (t := t) hc) h
  | restarts => exact asked_restart h

theorem asked_exec {s u : Registry C D} {as : List (Action C D)} {key name : String}
    (hs : exec (RegistryCalls.step workflows json) s as = some u) (h : Asked s key name) :
    Asked u key name := by
  induction as generalizing s with
  | nil =>
    cases hs
    exact h
  | cons a as ih =>
    obtain ⟨v, hv, hrest⟩ := Option.bind_eq_some_iff.mp hs
    exact ih hrest (asked_step hv h)

omit [DecidableEq C] [StateDict D] [DecidableEq D] in
theorem KeysApart.same {s : Registry C D} (h : KeysApart s) {key name name' : String} (hne : key ≠ "")
    (ha : Asked s key name) (ha' : Asked s key name') : name = name' := by
  obtain ⟨c, t, inputState, hc, ht⟩ := ha
  obtain ⟨c', t', inputState', hc', ht'⟩ := ha'
  have hapart := h c c' t hc t' hc'
  rw [ht, ht'] at hapart
  exact hapart rfl hne

omit [DecidableEq C] [StateDict D] [DecidableEq D] in
theorem Filed.ownKey {s u : Registry C D} (h : Filed s)
    (hasked : ∀ key name, Asked s key name → Asked u key name) (hu : KeysApart u) (a : Action C D) :
    OwnKey s a := by
  cases a with
  | continues c runId createdAt =>
    intro t hc
    have hasks := h.asks c t hc
    obtain ⟨call, pc⟩ := t
    cases call with
    | runWorkflow name inputState k =>
      cases pc with
      | looked row =>
        cases row with
        | none => trivial
        | some row =>
          obtain ⟨key, hk, hne, hfound⟩ := hasks
          obtain rfl : k = some key := hk
          intro run hv
          have hown : Asked s key name := ⟨c, _, inputState, hc, rfl⟩
          exact hu.same hne (hasked key run.workflow (hfound run hv)) (hasked key name hown)
      | _ => trivial
    | _ => trivial
  | _ => trivial

omit [DecidableEq C] [StateDict D] [DecidableEq D] in
theorem filed_booted {store : RunRows D} (hother : ∀ id run, ¬ StoredAt store id run)
    (hrows : ∀ row ∈ store.rows, row.kind ≠ workflowKind) : Filed (booted C store) where
  named := by
    refine ⟨id, ?_⟩
    rintro run (ho | ⟨k, hs⟩ | ⟨c, t, hc, _⟩)
    · cases ho
    · exact absurd hs (hother k run)
    · cases hc
  own k run hs := absurd hs (hother k run)
  valid row hr hkind := absurd hkind (hrows row hr)
  keyed row hr hkind := absurd hkind (hrows row hr)
  asks c t hc := by cases hc

theorem own_workflows {store : RunRows D} {as : List (Action C D)} {s : Registry C D}
    (h : exec (RegistryCalls.step workflows json) (booted C store) as = some s) :
    (OwnRuns s ↔ Obeys (RegistryCalls.step workflows json) OwnKey (booted C store) as) ∧
    ((∀ id run, ¬ StoredAt store id run) → (∀ row ∈ store.rows, row.kind ≠ workflowKind) →
      Obeys (RegistryCalls.step workflows json) NewIds (booted C store) as → KeysApart s → OwnRuns s) := by
  have hbound : Bound (booted C store) := fun c t hc => by cases hc
  have hown : OwnRuns (booted C store) := fun c t hc => by cases hc
  have hiff := (ownRuns_run hbound h).trans (and_iff_right hown)
  refine ⟨hiff, fun hother hrows hnew hapart => hiff.mpr (obeys_iff.mpr ?_)⟩
  rintro xs a ys u rfl hu
  have hreached := reaches_of_exec hu (obeys_append.mp hnew).1
  obtain ⟨_, hfiled⟩ : Bound u ∧ Filed u := by
    refine hreached.invariant (I := fun u => Bound u ∧ Filed u) ⟨hbound, filed_booted hother hrows⟩ ?_
    rintro v b w ⟨hb, hf⟩ hn hs
    exact ⟨(bound_step hb hs).1, hf.step hb hn hs⟩
  rw [exec_append, hu] at h
  exact hfiled.ownKey (fun key name => asked_exec h) hapart a

end Histories

section Decidable

variable [DecidableEq D]

instance (s : Registry C D) (t : Task D) : Decidable (OwnRun s t) := by
  unfold OwnRun
  split <;> infer_instance

instance (t : Task D) : Decidable (OwnRow t) := by
  unfold OwnRow
  split <;> infer_instance

instance (call call' : Call D) : Decidable (call.Apart call') :=
  match call, call' with
  | .runWorkflow name _ (some key), .runWorkflow name' _ (some key') =>
    inferInstanceAs (Decidable (key = key' → key ≠ "" → name = name'))
  | .runWorkflow _ _ (some _), .runWorkflow _ _ none | .runWorkflow _ _ (some _), .getRun _
  | .runWorkflow _ _ (some _), .resumeRun _ _ | .runWorkflow _ _ none, _ | .getRun _, _
  | .resumeRun _ _, _ => isTrue trivial

variable [Fintype C]

instance (s : Registry C D) (a : Action C D) : Decidable (OwnKey s a) :=
  match a with
  | .continues c _ _ => inferInstanceAs (Decidable (∀ t ∈ s.tasks c, OwnRow t))
  | .begins _ _ _ _ | .reads _ | .replies _ _ | .commits _ _ | .restart => isTrue trivial

instance (s : Registry C D) (a : Action C D) : Decidable (NewIds s a) :=
  match a with
  | .begins _ _ runId _ | .continues _ runId _ => inferInstanceAs (Decidable (Fresh s runId))
  | .reads _ | .replies _ _ | .commits _ _ | .restart => isTrue trivial

instance (s : Registry C D) : Decidable (OwnRuns s) := by
  unfold OwnRuns
  infer_instance

instance (s : Registry C D) : Decidable (KeysApart s) := by
  unfold KeysApart
  infer_instance

end Decidable

-- the two callers' numbers are literals of it
local instance keyedCallers : NeZero 2 := ⟨by decide⟩

def twoWorkflows : Table WorkflowDef.name :=
  ⟨[{ grants true with name := "access_request" }, { grants true with name := "content_brief" }], by simp⟩

/-- A first call is stored under the key at its gate; then a call looks the key up. -/
def afterAccessRequest (name : String) : List (Action (Fin 2) Unit) :=
  [.begins 0 (.runWorkflow "access_request" () (some "key")) "unused" "now", .reads 0,
    .continues 0 "r" "now", .reads 0, .commits 0 0,
    .begins 1 (.runWorkflow name () (some "key")) "unused" "now", .reads 1,
    .continues 1 "unused" "now"]

theorem shared_key_crosses : ∃ s ∈ exec (step twoWorkflows some) (booted (Fin 2) (Table.empty _))
      (afterAccessRequest "content_brief"),
    ¬ OwnRuns s ∧ workflowAt s 1 = some "access_request" := by
  decide

theorem retried_key_kept : ∃ s ∈ exec (step twoWorkflows some) (booted (Fin 2) (Table.empty _))
    (afterAccessRequest "access_request"), OwnRuns s ∧ workflowAt s 1 = some "access_request" := by
  have hrun : ∃ s ∈ exec (step twoWorkflows some) (booted (Fin 2) (Table.empty _))
      (afterAccessRequest "access_request"),
      Obeys (step twoWorkflows some) NewIds (booted (Fin 2) (Table.empty _))
        (afterAccessRequest "access_request") ∧ KeysApart s ∧
      workflowAt s 1 = some "access_request" := by decide
  obtain ⟨s, hs, hnew, hapart, hw⟩ := hrun
  have hother : ∀ id (run : WorkflowRun Unit), ¬ StoredAt (Table.empty _) id run := by
    rintro id run ⟨⟩
  exact ⟨s, hs, (own_workflows hs).2 hother (by simp [Table.empty]) hnew hapart, hw⟩

end Workbench.RegistryCalls
