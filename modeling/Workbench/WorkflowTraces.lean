import Workbench.Rehydration
import Workbench.WorkflowApi

namespace Workbench.WorkflowApi

open KeyedTable RunStore WorkflowEngine WorkflowRegistry Services

variable {D : Type} [StateDict D] {settings : Settings D}

/-- What `json.dumps` takes: the empty dict, the merge of two dicts it takes, and what it gave. -/
structure DumpLaws (json : D → Option D) : Prop where
  empty : (json StateDict.empty).isSome
  update : ∀ a b, (json a).isSome → (json b).isSome → (json (StateDict.update a b)).isSome
  again : ∀ a b, json a = some b → (json b).isSome

def dumpRule {json : D → Option D} (laws : DumpLaws json) : DictRule D :=
  ⟨fun x => (json x).isSome, laws.empty, laws.update⟩

def Reached (responses : List (Response D)) (runId : String) : Prop :=
  ∃ run, .ok run ∈ responses ∧ run.id = runId ∧ Finished run

def traceCount (s : Desk D) (runId : String) : ℕ := s.traces.countP fun t => t.payload.id = runId

def OneTrace (s : Desk D) (responses : List (Response D)) : Prop :=
  ∀ runId, (Reached responses runId → traceCount s runId = 1) ∧
    (¬ Reached responses runId → traceCount s runId = 0)

structure Dumped (json : D → Option D) (r : Reply D) : Prop where
  state : (json r.step.state).isSome
  updates : ∀ updates, r.step.result = .ok (some updates) → (json updates).isSome
  branch : (json r.branch.state).isSome

def Recordable (settings : Settings D) (s : Desk D) : Request D → Prop
  | .run _ inputState _ runId _ env => s.gateway.store.get runId = none ∧ traceCount s runId = 0 ∧
      (settings.json inputState).isSome ∧ ∀ n, Dumped settings.json (env.replies n)
  | .getRun _ => True
  | .decide _ _ _ env => ∀ n, Dumped settings.json (env.replies n)

def Repeats (settings : Settings D) (s : Desk D) : Request D → Prop
  | .run name _ key _ _ _ => (settings.workflows.get name).isSome ∧
      ∃ row ∈ key.bind (getRunByIdempotencyKey s.gateway.store workflowKind),
        ∃ run ∈ modelValidate row.payload, Finished run
  | _ => False

instance (settings : Settings D) (s : Desk D) (q : Request D) : Decidable (Repeats settings s q) := by
  cases q <;> unfold Repeats <;> infer_instance

structure Known (laws : DumpLaws settings.json) (responses : List (Response D))
    (run : WorkflowRun D) : Prop where
  dicts : RuledRun (dumpRule laws) run
  finished : Finished run ↔ Reached responses run.id

structure Recorded (laws : DumpLaws settings.json) (s : Desk D) (responses : List (Response D)) :
    Prop where
  traces : OneTrace s responses
  cached : ∀ k run, s.gateway.cache.get k = some run → Known laws responses run
  stored : ∀ k row run, s.gateway.store.get k = some row → modelValidate row.payload = some run →
    run.id = k ∧ Known laws responses run

variable {laws : DumpLaws settings.json} {s : Desk D} {responses : List (Response D)}
  {run : WorkflowRun D}

omit [StateDict D] in
theorem reached_append {response : Response D} {runId : String} :
    Reached (responses ++ [response]) runId ↔ Reached responses runId ∨
      ∃ run, response = .ok run ∧ run.id = runId ∧ Finished run := by
  constructor
  · rintro ⟨run, hr, hid, hf⟩
    rcases List.mem_append.mp hr with hold | hnew
    · exact .inl ⟨run, hold, hid, hf⟩
    · exact .inr ⟨run, (List.mem_singleton.mp hnew).symm, hid, hf⟩
  · rintro (⟨run, hr, hid, hf⟩ | ⟨run, rfl, hid, hf⟩)
    · exact ⟨run, List.mem_append_left _ hr, hid, hf⟩
    · exact ⟨run, by simp, hid, hf⟩

theorem Known.congr {responses' : List (Response D)}
    (he : ∀ k, Reached responses' k ↔ Reached responses k) (h : Known laws responses run) :
    Known laws responses' run := ⟨h.dicts, h.finished.trans (he run.id).symm⟩

theorem Recorded.congr (h : Recorded laws s responses) {responses' : List (Response D)}
    (he : ∀ k, Reached responses' k ↔ Reached responses k) : Recorded laws s responses' where
  traces k := by
    rw [he k]
    exact h.traces k
  cached k run hc := (h.cached k run hc).congr he
  stored k row run hs hm := ⟨(h.stored k row run hs hm).1, (h.stored k row run hs hm).2.congr he⟩

theorem Recorded.error (h : Recorded laws s responses) (e : HttpError) :
    Recorded laws s (responses ++ [.error e]) := by
  apply h.congr
  intro k
  rw [reached_append]
  simp

theorem Recorded.shows (h : Recorded laws s responses) (hr : Known laws responses run) :
    Recorded laws s (responses ++ [.ok run]) := by
  apply h.congr
  intro k
  rw [reached_append]
  constructor
  · rintro (hold | ⟨_, ⟨⟩, rfl, hf⟩)
    · exact hold
    · exact hr.finished.mp hf
  · exact .inl

theorem Recorded.put (h : Recorded laws s responses) (hr : Known laws responses run) :
    Recorded laws ⟨⟨s.gateway.cache.put run, s.gateway.store⟩, s.traces⟩ responses where
  traces := h.traces
  cached k cached hc := by
    rw [Table.get_put] at hc
    split_ifs at hc
    · cases hc
      exact hr
    · exact h.cached k cached hc
  stored := h.stored

theorem ruled_roundTrip {payload : WorkflowRun D} (h : roundTrip settings.json run = some payload) :
    RuledRun (dumpRule laws) payload := by
  obtain ⟨state, hstate, h⟩ := Option.bind_eq_some_iff.mp h
  obtain ⟨attempts, hattempts, rfl⟩ := Option.map_eq_some_iff.mp h
  constructor
  · exact laws.again _ _ hstate
  · intro a ha
    obtain ⟨updates, hu⟩ := (attempts_roundTrip hattempts).2.2 a ha
    exact laws.again _ _ hu

theorem Recorded.stores (h : Recorded laws s responses) (hd : RuledRun (dumpRule laws) run)
    (hnew : ¬ Reached responses run.id) (key : Option String) (now : ℤ)
    (hkey : key = none ∨ s.gateway.store.get run.id = none) :
    Recorded laws ⟨storeRun settings.json s.gateway run key now,
      recordWorkflowRun settings.json s.traces run⟩ (responses ++ [.ok run]) := by
  have hj : (roundTrip settings.json run).isSome := by
    apply roundTrip_isSome _ hd
    intro x
    exact Iff.rfl
  have hreached : ∀ k, Reached (responses ++ [.ok run]) k ↔
      Reached responses k ∨ k = run.id ∧ Finished run := by
    intro k
    rw [reached_append]
    constructor
    · rintro (hold | ⟨_, ⟨⟩, rfl, hf⟩)
      · exact .inl hold
      · exact .inr ⟨rfl, hf⟩
    · rintro (hold | ⟨rfl, hf⟩)
      · exact .inl hold
      · exact .inr ⟨run, rfl, rfl, hf⟩
  have hself : ∀ run' : WorkflowRun D, run'.id = run.id → run'.status = run.status →
      RuledRun (dumpRule laws) run' → Known laws (responses ++ [.ok run]) run' := by
    intro run' hid hstatus hdicts
    refine ⟨hdicts, ?_⟩
    rw [finished_congr hstatus, hreached, hid]
    simp [hnew]
  have hother : ∀ {run' : WorkflowRun D}, run'.id ≠ run.id → Known laws responses run' →
      Known laws (responses ++ [.ok run]) run' := by
    intro run' hne hk
    refine ⟨hk.dicts, ?_⟩
    rw [hk.finished, hreached]
    simp [hne]
  constructor
  · intro k
    rw [hreached]
    obtain ⟨hone, hnone⟩ := h.traces k
    simp only [traceCount] at hone hnone ⊢
    by_cases hf : Finished run
    · have hcount : (recordWorkflowRun settings.json s.traces run).countP _ = _ :=
        record_finished hf hj k
      rw [hcount]
      by_cases hk : run.id = k
      · subst hk
        rw [hnone hnew]
        simp [hf]
      · simp only [hk, Ne.symm hk, if_false, false_and, or_false, add_zero]
        exact ⟨hone, hnone⟩
    · have hnot : ¬ (k = run.id ∧ Finished run) := fun hn => hf hn.2
      have hsame : recordWorkflowRun settings.json s.traces run = s.traces := record_unfinished hf
      rw [hsame, or_iff_left hnot]
      exact ⟨hone, hnone⟩
  · intro k cached hc
    have hc' : (evict (s.gateway.cache.put run)).get k = some cached := hc
    have hput := Table.get_drop hc'
    rw [Table.get_put] at hput
    split_ifs at hput with hk
    · cases hput
      exact hself run rfl rfl hd
    · have hid : cached.id = k := Table.key_of_get hput
      exact hother (fun he => hk (he.symm.trans hid)) (h.cached k cached hput)
  · intro k row stored hs hm
    obtain ⟨payload, hp⟩ := Option.isSome_iff_exists.mp hj
    by_cases hk : k = run.id
    · subst hk
      have hpayload : RuledRun (dumpRule laws) payload := ruled_roundTrip hp
      rw [upsertWorkflow_own hp hkey hs] at hm
      obtain rfl : payload = stored := Option.some.inj hm
      obtain ⟨state, attempts, rfl⟩ := roundTrip_id hp
      exact ⟨rfl, hself _ rfl rfl hpayload⟩
    · rcases get_upsertWorkflow hs with hold | ⟨he, _⟩
      · obtain ⟨hid, hknown⟩ := h.stored k row stored hold hm
        exact ⟨hid, hother (fun he => hk (hid.symm.trans he)) hknown⟩
      · exact absurd he hk

theorem Recorded.loaded (h : Recorded laws s responses) (runId : String) :
    Recorded laws ⟨(load s.gateway runId).1, s.traces⟩ responses ∧
      ∀ run, (load s.gateway runId).2 = .ok (some run) → Known laws responses run := by
  rcases load_cases s.gateway runId with ⟨run, hl, hc⟩ | ⟨hl, _⟩ | ⟨row, hl, _⟩ |
    ⟨row, run, hl, _, hs, hm⟩
  · rw [hl]
    refine ⟨h, ?_⟩
    rintro _ ⟨⟩
    exact h.cached runId run hc
  · rw [hl]
    exact ⟨h, by simp⟩
  · rw [hl]
    exact ⟨h, by simp⟩
  · have hr := (h.stored runId row run hs hm).2
    rw [hl]
    refine ⟨h.put hr, ?_⟩
    rintro _ ⟨⟩
    exact hr

theorem Recorded.gets (h : Recorded laws s responses) (runId : String) :
    Recorded laws (handle settings s (.getRun runId)).1
      (responses ++ [(handle settings s (.getRun runId)).2]) := by
  obtain ⟨hrecorded, hknown⟩ := h.loaded runId
  simp only [handle]
  split
  · rename_i gateway e hl
    rw [hl] at hrecorded
    exact hrecorded.error _
  · rename_i gateway hl
    rw [hl] at hrecorded
    exact hrecorded.error _
  · rename_i gateway run hl
    rw [hl] at hrecorded hknown
    exact hrecorded.shows (hknown run rfl)

theorem stored_of_key (h : Recorded laws s responses) {key : Option String}
    {row : AgentRun (RowPayload D)} {stored : WorkflowRun D}
    (hr : key.bind (getRunByIdempotencyKey s.gateway.store workflowKind) = some row)
    (hm : modelValidate row.payload = some stored) : Known laws responses stored := by
  obtain ⟨k, _, hfind⟩ := Option.bind_eq_some_iff.mp hr
  exact (h.stored _ row stored (Table.get_of_mem (getByKey_mem hfind).1) hm).2

theorem execute_run_id (wf : WorkflowDef) (env : ℕ → Reply D) (runId createdAt : String)
    (inputState : D) :
    (complete wf env (execute wf runId createdAt inputState)).run.id = runId :=
  (sameRun_complete wf env _).1.trans
    (sameRun_loopHead wf _ (newRun wf runId createdAt inputState) (some wf.entry)).1

theorem Recorded.runs (h : Recorded laws s responses) {name : String} {inputState : D}
    {key : Option String} {runId createdAt : String} {env : Env D}
    (hq : Recordable settings s (.run name inputState key runId createdAt env))
    (hn : ¬ Repeats settings s (.run name inputState key runId createdAt env)) :
    Recorded laws (handle settings s (.run name inputState key runId createdAt env)).1
      (responses ++ [(handle settings s (.run name inputState key runId createdAt env)).2]) := by
  obtain ⟨hfresh, hcount, hinput, henv⟩ := hq
  simp only [handle]
  cases hw : settings.workflows.get name with
  | none => exact h.error _
  | some wf =>
    simp only [runWorkflow, hw]
    cases hk : key.bind (getRunByIdempotencyKey s.gateway.store workflowKind) with
    | some row =>
      simp only
      cases hm : modelValidate row.payload with
      | none => exact h.error _
      | some stored =>
        have hknown := stored_of_key h hk hm
        have hunfinished : ¬ Finished stored := by
          intro hf
          exact hn ⟨by rw [hw]; rfl, row, hk, stored, hm, hf⟩
        simp only [record_unfinished hunfinished]
        exact (h.put hknown).shows hknown
    | none =>
      simp only
      have hid := execute_run_id wf env.replies runId createdAt inputState
      have hruled : RuledRun (dumpRule laws)
          (complete wf env.replies (execute wf runId createdAt inputState)).run := by
        apply ruled_complete
        · intro n
          exact ⟨(henv n).state, (henv n).updates, (henv n).branch⟩
        · exact ruled_execute wf runId createdAt hinput
      have hnew : ¬ Reached responses runId := by
        intro hr
        rw [(h.traces runId).1 hr] at hcount
        cases hcount
      have hstores := h.stores hruled (hid.symm ▸ hnew) key env.now (.inr (hid.symm ▸ hfresh))
      cases hp : (complete wf env.replies (execute wf runId createdAt inputState)).point with
      | raised exc => exact h.error _
      | _ => exact hstores

theorem Recorded.decides (h : Recorded laws s responses) {runId : String} {decision : Decision}
    {token : Option String} {env : Env D}
    (hq : Recordable settings s (.decide runId decision token env)) :
    Recorded laws (handle settings s (.decide runId decision token env)).1
      (responses ++ [(handle settings s (.decide runId decision token env)).2]) := by
  obtain ⟨hrecorded, hknown⟩ := h.loaded runId
  simp only [handle]
  cases checkApprovalToken settings.approvalToken token with
  | some e => exact h.error e
  | none =>
    simp only [resumeRun]
    rcases hl : load s.gateway runId with ⟨gateway, e | _ | run⟩ <;> rw [hl] at hrecorded hknown <;>
      simp only
    · exact hrecorded.error _
    · exact hrecorded.error _
    · have hrun := hknown run rfl
      cases hw : settings.workflows.get run.workflow with
      | none => exact hrecorded.error _
      | some wf =>
        simp only
        cases hr : resume wf run decision with
        | error message => exact hrecorded.error _
        | ok d =>
          simp only
          have hid : (complete wf env.replies d).run.id = run.id :=
            (sameRun_complete wf env.replies d).1.trans (sameRun_resume hr).1
          have hruled : RuledRun (dumpRule laws) (complete wf env.replies d).run := by
            apply ruled_complete
            · intro n
              exact ⟨(hq n).state, (hq n).updates, (hq n).branch⟩
            · exact hrun.dicts.resume hr
          -- a run that takes a decision awaits it, so it has not been shown finished
          obtain ⟨gate, hawaiting, _, hto⟩ := resume_cases hr
          have hnew : ¬ Reached responses run.id := by
            rw [← hrun.finished, finished_iff, hawaiting]
            simp
          have hstores := hrecorded.stores hruled (hid.symm ▸ hnew) none env.now (.inl rfl)
          cases hp : (complete wf env.replies d).point with
          | raised exc =>
            have hrunning : (complete wf env.replies d).run.status = .running := by
              apply running_complete
              · intro hd
                rcases hto with ⟨_, rfl⟩ | ⟨_, rfl⟩
                · simp [Point.Ended, Point.Raised] at hd
                · exact running_loopHead rfl hd
              · rw [hp]
                trivial
            refine Recorded.error (hrecorded.put ⟨hruled, ?_⟩) _
            rw [hid, finished_iff, hrunning]
            simp [hnew]
          | _ => exact hstores

theorem Recorded.step (h : Recorded laws s responses) {q : Request D}
    (hq : Recordable settings s q) (hn : ¬ Repeats settings s q) :
    Recorded laws (handle settings s q).1 (responses ++ [(handle settings s q).2]) := by
  cases q with
  | run name inputState key runId createdAt env => exact h.runs hq hn
  | getRun runId => exact h.gets runId
  | decide runId decision token env => exact h.decides hq

theorem Recorded.repeats (h : Recorded laws s responses) {q : Request D}
    (hr : Repeats settings s q) :
    ¬ OneTrace (handle settings s q).1 (responses ++ [(handle settings s q).2]) := by
  cases q with
  | run name inputState key runId createdAt env =>
    obtain ⟨hw, row, hk, stored, hm, hf⟩ := hr
    obtain ⟨wf, hw⟩ := Option.isSome_iff_exists.mp hw
    have hknown := stored_of_key h hk hm
    have hreached := hknown.finished.mp hf
    have hj : (roundTrip settings.json stored).isSome := by
      apply roundTrip_isSome _ hknown.dicts
      intro x
      exact Iff.rfl
    have hserved : handle settings s (.run name inputState key runId createdAt env) =
        (⟨⟨s.gateway.cache.put stored, s.gateway.store⟩,
          recordWorkflowRun settings.json s.traces stored⟩, .ok stored) := by
      simp [handle, runWorkflow, hw, Option.mem_def.mp hk, Option.mem_def.mp hm]
    intro hone
    rw [hserved] at hone
    have htwice := (hone stored.id).1 ⟨stored, by simp, rfl, hf⟩
    have hcount : (recordWorkflowRun settings.json s.traces stored).countP _ = _ :=
      record_finished hf hj stored.id
    have honce := (h.traces stored.id).1 hreached
    simp only [traceCount] at htwice honce
    rw [hcount, honce, if_pos rfl] at htwice
    omega
  | getRun runId => exact absurd hr id
  | decide runId decision token env => exact absurd hr id

def TracedThroughout (settings : Settings D) (s : Desk D) (qs : List (Request D)) : Prop :=
  ∀ n, OneTrace (serveAll (handle settings) s (qs.take n)).1
    (serveAll (handle settings) s (qs.take n)).2

theorem traced_iff (h : Recorded laws s responses) {qs : List (Request D)}
    (hq : Admits (handle settings) (Recordable settings) s qs) :
    (∀ n, OneTrace (serveAll (handle settings) s (qs.take n)).1
      (responses ++ (serveAll (handle settings) s (qs.take n)).2)) ↔
      Admits (handle settings) (fun s q => ¬ Repeats settings s q) s qs := by
  induction qs generalizing s responses with
  | nil => exact iff_of_true (fun n => by simpa [serveAll] using h.traces) trivial
  | cons q qs ih =>
    have hshift : ∀ n, responses ++ (serveAll (handle settings) s ((q :: qs).take (n + 1))).2 =
        responses ++ [(handle settings s q).2] ++
          (serveAll (handle settings) (handle settings s q).1 (qs.take n)).2 := by
      intro n
      simp [serveAll]
    by_cases hn : Repeats settings s q
    · refine iff_of_false (fun hall => ?_) (fun hadmits => hadmits.1 hn)
      have hone := hall 1
      rw [hshift 0] at hone
      exact h.repeats hn (by simpa [serveAll] using hone)
    · have hrest := ih (h.step hq.1 hn) hq.2
      simp only [Admits, hn, not_false_eq_true, true_and]
      rw [← hrest]
      constructor
      · intro hall n
        have hone := hall (n + 1)
        rw [hshift n] at hone
        exact hone
      · intro hall n
        cases n with
        | zero => simpa [serveAll] using h.traces
        | succ n =>
          rw [hshift n]
          exact hall n

theorem recorded_opened (laws : DumpLaws settings.json) (rows : RunTable Unit) :
    Recorded laws (openedDesk rows) [] where
  traces k := ⟨by simp [Reached], fun _ => rfl⟩
  cached k run hc := by cases hc
  stored k row run hs hm := by
    have hrow := Table.mem_of_get hs
    obtain ⟨r, _, rfl⟩ := List.mem_map.mp hrow
    cases hm

theorem traced_throughout_iff (laws : DumpLaws settings.json) (rows : RunTable Unit)
    {qs : List (Request D)}
    (hq : Admits (handle settings) (Recordable settings) (openedDesk rows) qs) :
    TracedThroughout settings (openedDesk rows) qs ↔
      Admits (handle settings) (fun s q => ¬ Repeats settings s q) (openedDesk rows) qs := by
  simpa [TracedThroughout] using traced_iff (recorded_opened laws rows) hq

def grantSettings : Settings Unit := ⟨gatedOnly, some, ""⟩

def startGrant (runId : String) : Request Unit :=
  .run "grants" () (some "k") runId "now" endingBranches

def approveGrant : Request Unit := .decide "r" ⟨.approved, "alice", none, "now"⟩ none endingBranches

theorem grants_dump : DumpLaws grantSettings.json := ⟨rfl, fun _ _ _ _ => rfl, fun _ _ _ => rfl⟩

theorem grants_dumped (n : ℕ) : Dumped grantSettings.json (endingBranches.replies n) :=
  ⟨rfl, fun _ _ => rfl, rfl⟩

theorem retry_while_awaiting_traced : TracedThroughout grantSettings (openedDesk (Table.empty _))
    [startGrant "r", startGrant "q", approveGrant] := by
  have hadmits : Admits (handle grantSettings) (Recordable grantSettings)
      (openedDesk (Table.empty _)) [startGrant "r", startGrant "q", approveGrant] :=
    ⟨⟨rfl, rfl, rfl, grants_dumped⟩, ⟨rfl, rfl, rfl, grants_dumped⟩, grants_dumped, trivial⟩
  exact (traced_throughout_iff grants_dump (Table.empty _) hadmits).mpr (by decide +kernel)

theorem finished_run_traced_twice :
    Admits (handle grantSettings) (Recordable grantSettings) (openedDesk (Table.empty _))
      [startGrant "r", approveGrant, startGrant "q"] ∧
    ¬ TracedThroughout grantSettings (openedDesk (Table.empty _))
      [startGrant "r", approveGrant, startGrant "q"] := by
  constructor
  · exact ⟨⟨rfl, rfl, rfl, grants_dumped⟩, grants_dumped, ⟨rfl, rfl, rfl, grants_dumped⟩, trivial⟩
  · intro htraced
    have htwice : traceCount (serveAll (handle grantSettings) (openedDesk (Table.empty _))
        [startGrant "r", approveGrant, startGrant "q"]).1 "r" = 2 := by decide +kernel
    obtain ⟨hone, hnone⟩ := htraced 3 "r"
    simp only [List.take_succ_cons, List.take_zero] at hone hnone
    rw [htwice] at hone hnone
    by_cases hr : Reached (serveAll (handle grantSettings) (openedDesk (Table.empty _))
        [startGrant "r", approveGrant, startGrant "q"]).2 "r"
    · exact absurd (hone hr) (by omega)
    · exact absurd (hnone hr) (by omega)

end Workbench.WorkflowApi
