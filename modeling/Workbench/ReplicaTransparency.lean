import Workbench.EngineFailures
import Workbench.IdempotencyKeys
import Workbench.JsonRuns

namespace Workbench.WorkflowRegistry

open KeyedTable RunStore WorkflowEngine Services

variable {I D : Type} [DecidableEq I] [StateDict D] {workflows : Table WorkflowDef.name}
  {column : JsonColumn D}

/-- One replica that holds every run in one map, and the run of every idempotency key. -/
structure SharedMap (D : Type) where
  runs : String → Option (WorkflowRun D)
  keys : String → Option String

def handleShared (workflows : Table WorkflowDef.name) (m : SharedMap D) :
    Request I D → SharedMap D × Response D
  | .runWorkflow _ name inputState key runId createdAt env =>
    match (key.bind m.keys).bind m.runs with
    | some run => (m, .ok (some run))
    | none =>
      match workflows.get name with
      | none => (m, .error (.keyError name))
      | some wf =>
        let d := complete wf env.replies (execute wf runId createdAt inputState)
        match d.point with
        | .raised exc => (m, .error (.raised exc))
        | _ =>
          (⟨Function.update m.runs d.run.id (some d.run),
            fun k => if key = some k then some d.run.id else m.keys k⟩, .ok (some d.run))
  | .getRun _ runId => (m, .ok (m.runs runId))
  | .resumeRun _ runId c env =>
    match m.runs runId with
    | none => (m, .error (.keyError runId))
    | some run =>
      match workflows.get run.workflow with
      | none => (m, .error (.keyError run.workflow))
      | some wf =>
        match resume wf run c with
        | .error message => (m, .error (.approvalError message))
        | .ok d =>
          let d := complete wf env.replies d
          let m := { m with runs := Function.update m.runs d.run.id (some d.run) }
          match d.point with
          | .raised exc => (m, .error (.raised exc))
          | _ => (m, .ok (some d.run))
  | .restart _ => (m, .ok none)

def emptyMap (D : Type) : SharedMap D := ⟨fun _ => none, fun _ => none⟩

def Coherent (g : Gateway D) (runId : String) : Prop :=
  ∀ run ∈ g.cache.get runId, ∃ row ∈ g.store.get runId, row.payload = .workflow run

/-- A request is served by a replica with no stale copy of its run, under an id of the registry
and with branch functions that answer; new ids are fresh, keys are not empty and dicts plain. -/
def Transparent (workflows : Table WorkflowDef.name) (column : JsonColumn D) (c : Cluster I D) :
    Request I D → Prop
  | .runWorkflow _ _ inputState key runId _ env =>
    c.store.get runId = none ∧ key ≠ some "" ∧ Plain column inputState ∧
      ∀ n, PlainReply column (env.replies n)
  | .getRun i runId => Coherent (c.gateway i) runId ∧
      ∀ row ∈ c.store.get runId, (modelValidate row.payload).isSome
  | .resumeRun i runId d env => Coherent (c.gateway i) runId ∧
      ResumeAnswers workflows (c.gateway i) runId d env ∧ ∀ n, PlainReply column (env.replies n)
  | .restart _ => True

def rowRun (row : AgentRun (RowPayload D)) : Option (WorkflowRun D) := modelValidate row.payload

structure Mirrors (column : JsonColumn D) (store : RunRows D) (m : SharedMap D) : Prop where
  runs : ∀ k, m.runs k = (store.get k).bind rowRun
  keys : ∀ k, m.keys k = (getRunByIdempotencyKey store workflowKind k).map AgentRun.id
  own : ∀ k row run, store.get k = some row → rowRun row = some run →
    run.id = k ∧ row.status = rowStatus run.status ∧ PlainRun column run
  kind : ∀ k row, store.get k = some row → row.kind = workflowKind → (rowRun row).isSome

theorem Mirrors.byKey {store : RunRows D} {m : SharedMap D} (h : Mirrors column store m)
    (k : String) : (m.keys k).bind m.runs =
      (getRunByIdempotencyKey store workflowKind k).bind rowRun := by
  rw [h.keys]
  cases hk : getRunByIdempotencyKey store workflowKind k with
  | none => rfl
  | some row =>
    have hget := Table.get_of_mem (getByKey_mem hk).1
    rw [Option.map_some, Option.bind_some, Option.bind_some, h.runs, hget, Option.bind_some]

omit [StateDict D] in
theorem lookup_coherent {g : Gateway D} {runId : String} (h : Coherent g runId) :
    lookup g runId = (g.store.get runId).bind rowRun := by
  unfold lookup
  cases hc : g.cache.get runId with
  | none => rfl
  | some run =>
    obtain ⟨row, hr, hp⟩ := h run hc
    have hrun : rowRun row = some run := by simp [rowRun, hp, modelValidate]
    rw [Option.mem_def.mp hr]
    exact hrun.symm

omit [StateDict D] in
theorem load_lookup {g : Gateway D} {runId : String}
    (hv : g.cache.get runId = none → ∀ row ∈ g.store.get runId, (modelValidate row.payload).isSome) :
    ∃ g', load g runId = (g', .ok (lookup g runId)) ∧ g'.store = g.store := by
  rcases load_cases g runId with ⟨run, hl, hc⟩ | ⟨hl, hc, hs⟩ | ⟨row, hl, hc, hs, hm⟩ |
    ⟨row, run, hl, hc, hs, hm⟩
  · exact ⟨g, by simp [hl, lookup, hc], rfl⟩
  · exact ⟨g, by simp [hl, lookup, hc, hs], rfl⟩
  · have hsome := hv hc row hs
    simp [hm] at hsome
  · have hlookup : lookup g runId = some run := by simp [lookup, hc, hs, hm]
    exact ⟨⟨g.cache.put run, g.store⟩, by rw [hl, hlookup], rfl⟩

theorem Mirrors.new {store : RunRows D} {m : SharedMap D} (h : Mirrors column store m)
    {run : WorkflowRun D} {key : Option String} (hp : PlainRun column run)
    (hnew : store.get run.id = none) (hne : key ≠ some "")
    (hk : key.bind (getRunByIdempotencyKey store workflowKind) = none) (now : ℤ) :
    Mirrors column (upsertWorkflow column.store store run key now)
      ⟨Function.update m.runs run.id (some run),
        fun k => if key = some k then some run.id else m.keys k⟩ := by
  have hfree : violatesUnique store ⟨run.id, workflowKind, rowStatus run.status, key,
      RowPayload.workflow run, none, now, now⟩ = false := by
    rw [Bool.eq_false_iff]
    intro hv
    simp only [violatesUnique, Bool.and_eq_true, List.any_eq_true, decide_eq_true_eq] at hv
    obtain ⟨hsome, row, hr, ⟨_, hkind⟩, hkey⟩ := hv
    obtain ⟨k, rfl⟩ := Option.isSome_iff_exists.mp hsome
    exact getByKey_none (fun he => hne (he ▸ rfl)) hk row hr hkind hkey
  obtain ⟨written, hw⟩ : ∃ written, upsertRun store run.id workflowKind (rowStatus run.status)
      (.workflow run) key none now = some written := by
    simp [upsertRun, hnew, insertRow, hfree]
  obtain ⟨store', record⟩ := written
  obtain ⟨hid, hstatus, hpayload, hkind, hreckey, hget⟩ := upsertRun_row hw
  have hstore : upsertWorkflow column.store store run key now = store' := by
    simp [upsertWorkflow, hp.roundTrip, hw]
  have hrun : rowRun record = some run := by simp [rowRun, hpayload, modelValidate]
  rw [hstore]
  refine ⟨fun k => ?_, fun k => ?_, fun k row r hrow hr => ?_, fun k row hrow hrk => ?_⟩
  · rw [hget]
    simp only [Function.update_apply]
    by_cases hkid : k = run.id
    · rw [if_pos hkid, if_pos hkid.symm, Option.bind_some, hrun]
    · rw [if_neg hkid, if_neg (Ne.symm hkid)]
      exact h.runs k
  · rw [getByKey_upsert_new hnew hw]
    by_cases hkk : key = some k
    · subst hkk
      have hnone : getRunByIdempotencyKey store workflowKind k = none := hk
      have hkne : k ≠ "" := fun he => hne (he ▸ rfl)
      simp [hnone, hkne, hid]
    · simp [hkk, h.keys k]
  · rw [hget] at hrow
    split_ifs at hrow with hkid
    · cases hrow
      obtain rfl : run = r := Option.some.inj (hrun.symm.trans hr)
      exact ⟨hkid, hstatus, hp⟩
    · exact h.own k row r hrow hr
  · rw [hget] at hrow
    split_ifs at hrow
    · cases hrow
      rw [hrun]
      rfl
    · exact h.kind k row hrow hrk

theorem Mirrors.old {store : RunRows D} {m : SharedMap D} (h : Mirrors column store m)
    {run : WorkflowRun D} (hp : PlainRun column run) {old : AgentRun (RowPayload D)}
    (hold : store.get run.id = some old) (now : ℤ) :
    Mirrors column (upsertWorkflow column.store store run none now)
      { m with runs := Function.update m.runs run.id (some run) } := by
  obtain ⟨store', hw, _⟩ := upsertRun_existing hold workflowKind (rowStatus run.status)
    (.workflow run) none now
  obtain ⟨hid, hstatus, hpayload, _, _, hget⟩ := upsertRun_row hw
  have hstore : upsertWorkflow column.store store run none now = store' := by
    simp [upsertWorkflow, hp.roundTrip, hw]
  generalize hrec : ({ old with
    status := rowStatus run.status
    payload := RowPayload.workflow run
    error := none
    updatedAt := now } : AgentRun (RowPayload D)) = record at hw hid hstatus hpayload hget
  have hrun : rowRun record = some run := by simp [rowRun, hpayload, modelValidate]
  rw [hstore]
  refine ⟨fun k => ?_, fun k => ?_, fun k row r hrow hr => ?_, fun k row hrow hrk => ?_⟩
  · rw [hget]
    simp only [Function.update_apply]
    by_cases hkid : k = run.id
    · rw [if_pos hkid, if_pos hkid.symm, Option.bind_some, hrun]
    · rw [if_neg hkid, if_neg (Ne.symm hkid)]
      exact h.runs k
  · rw [getByKey_upsert_old hold hw, Option.map_map, h.keys]
    congr 1
    funext r
    by_cases hr : r.id = run.id
    · simp [hr, hid]
    · simp [hr]
  · rw [hget] at hrow
    split_ifs at hrow with hkid
    · cases hrow
      obtain rfl : run = r := Option.some.inj (hrun.symm.trans hr)
      exact ⟨hkid, hstatus, hp⟩
    · exact h.own k row r hrow hr
  · rw [hget] at hrow
    split_ifs at hrow
    · cases hrow
      rw [hrun]
      rfl
    · exact h.kind k row hrow hrk

def Agree (column : JsonColumn D) (served : Cluster I D × Response D)
    (shared : SharedMap D × Response D) : Prop :=
  Mirrors column served.1.store shared.1 ∧ served.2 = shared.2

theorem agree_runWorkflow {c : Cluster I D} {m : SharedMap D} (h : Mirrors column c.store m)
    {i : I} {name : String} {inputState : D} {key : Option String} {runId createdAt : String}
    {env : Env D}
    (hg : Transparent workflows column c (.runWorkflow i name inputState key runId createdAt env)) :
    Agree column
      (handle workflows column.store c (.runWorkflow i name inputState key runId createdAt env))
      (handleShared workflows m (.runWorkflow i name inputState key runId createdAt env)) := by
  obtain ⟨hfresh, hne, hinput, henv⟩ := hg
  have hbind : (key.bind m.keys).bind m.runs =
      (key.bind (getRunByIdempotencyKey c.store workflowKind)).bind rowRun := by
    cases key with
    | none => rfl
    | some k => exact h.byKey k
  simp only [Agree, handle, handleShared, runWorkflow, Cluster.gateway, hbind]
  cases hk : key.bind (getRunByIdempotencyKey c.store workflowKind) with
  | some existing =>
    obtain ⟨k, _, hfind⟩ := Option.bind_eq_some_iff.mp hk
    obtain ⟨hmem, hkind, _, _⟩ := getByKey_mem hfind
    obtain ⟨run, hrun⟩ :=
      Option.isSome_iff_exists.mp (h.kind _ existing (Table.get_of_mem hmem) hkind)
    have hm : modelValidate existing.payload = some run := hrun
    simp only [Option.bind_some, hrun, hm]
    exact ⟨h, rfl⟩
  | none =>
    simp only [Option.bind_none]
    cases hw : workflows.get name with
    | none => exact ⟨h, rfl⟩
    | some wf =>
      have hplain : PlainRun column
          (complete wf env.replies (execute wf runId createdAt inputState)).run := by
        apply plain_complete henv
        exact plain_execute wf runId createdAt hinput
      have hid : (complete wf env.replies (execute wf runId createdAt inputState)).run.id = runId :=
        (sameRun_complete wf env.replies _).1.trans
          (sameRun_loopHead wf _ (newRun wf runId createdAt inputState) (some wf.entry)).1
      have hnew := h.new hplain (hid.symm ▸ hfresh) hne hk env.now
      simp only
      cases hp : (complete wf env.replies (execute wf runId createdAt inputState)).point with
      | raised exc => exact ⟨h, rfl⟩
      | _ => exact ⟨hnew, rfl⟩

theorem agree_resumeRun {c : Cluster I D} {m : SharedMap D} (h : Mirrors column c.store m)
    (hregistered : AllRegistered workflows c) {i : I} {runId : String} {d : Decision} {env : Env D}
    (hg : Transparent workflows column c (.resumeRun i runId d env)) :
    Agree column (handle workflows column.store c (.resumeRun i runId d env))
      (handleShared workflows m (.resumeRun i runId d env)) := by
  obtain ⟨hcoherent, ⟨hvalid, hanswers⟩, henv⟩ := hg
  obtain ⟨g', hl, hstore⟩ := load_lookup hvalid
  have hruns : m.runs runId = lookup (c.gateway i) runId := by
    rw [lookup_coherent hcoherent, h.runs]
    rfl
  have hstore : g'.store = c.store := hstore
  have hg' : Mirrors column g'.store m := hstore ▸ h
  cases hrun : lookup (c.gateway i) runId with
  | none =>
    rw [hrun] at hl hruns
    simp only [Agree, handle, handleShared, resumeRun, hl, hruns]
    exact ⟨hg', rfl⟩
  | some run =>
    rw [hrun] at hl hruns
    obtain ⟨row, hrow, hrr⟩ := Option.bind_eq_some_iff.mp ((h.runs runId).symm.trans hruns)
    obtain ⟨hid, _, hplain⟩ := h.own runId row run hrow hrr
    obtain ⟨wf, hw, hpending⟩ := ((hregistered i).loaded runId).2 run (by rw [hl])
    have hw : workflows.get run.workflow = some wf := hw
    cases hr : resume wf run d with
    | error message =>
      have hrefused : resumeRun workflows column.store (c.gateway i) runId d env =
          (g', .error (.approvalError message)) := resumeRun_refused hl hw hr env
      simp only [Agree, handle, handleShared, hrefused, hruns, hw, hr]
      exact ⟨hg', rfl⟩
    | ok drive =>
      obtain ⟨_, hs, _⟩ := resume_cases hr
      have hnot : ¬ (complete wf env.replies drive).point.Raised := fun hp =>
        (raised_resumed hr (hpending hs) env.replies).mp hp (hanswers run hrun wf hw drive hr)
      have hdriven : resumeRun workflows column.store (c.gateway i) runId d env =
          (storeRun column.store g' (complete wf env.replies drive).run none env.now,
            .ok (complete wf env.replies drive).run) := resumeRun_driven hl hw hr env hnot
      have hsame : (complete wf env.replies drive).run.id = runId :=
        ((sameRun_complete wf env.replies drive).1.trans (sameRun_resume hr).1).trans hid
      have hrow' : g'.store.get (complete wf env.replies drive).run.id = some row := by
        rw [hsame, hstore, hrow]
      have hold := hg'.old (plain_complete henv (plain_resume hr hplain)) hrow' env.now
      simp only [Agree, handle, handleShared, hdriven, hruns, hw, hr]
      cases hp : (complete wf env.replies drive).point with
      | raised exc => exact absurd (hp ▸ trivial) hnot
      | _ => exact ⟨hold, rfl⟩

theorem agree_step {c : Cluster I D} {m : SharedMap D} (h : Mirrors column c.store m)
    (hregistered : AllRegistered workflows c) {q : Request I D}
    (hg : Transparent workflows column c q) :
    Agree column (handle workflows column.store c q) (handleShared workflows m q) := by
  cases q with
  | runWorkflow i name inputState key runId createdAt env => exact agree_runWorkflow h hg
  | getRun i runId =>
    obtain ⟨hcoherent, hvalid⟩ := hg
    obtain ⟨g', hl, hstore⟩ := load_lookup (g := c.gateway i) fun _ => hvalid
    have hruns : m.runs runId = lookup (c.gateway i) runId := by
      rw [lookup_coherent hcoherent, h.runs]
      rfl
    have hg' : Mirrors column g'.store m := (show g'.store = c.store from hstore) ▸ h
    simp only [Agree, handle, handleShared, hl, hruns]
    exact ⟨hg', trivial⟩
  | resumeRun i runId d env => exact agree_resumeRun h hregistered hg
  | restart i => exact ⟨h, rfl⟩

omit [DecidableEq I] in
theorem mirrors_deployed {rows : RunTable Unit} (hrows : ∀ r ∈ rows.rows, r.kind ≠ workflowKind) :
    Mirrors column (deployed (D := D) I rows).store (emptyMap D) := by
  have hother : ∀ k row, (deployed (D := D) I rows).store.get k = some row →
      row.kind ≠ workflowKind ∧ rowRun row = none := by
    intro k row hrow
    obtain ⟨r, hr, rfl⟩ := List.mem_map.mp (Table.mem_of_get hrow)
    exact ⟨hrows r hr, rfl⟩
  refine ⟨fun k => ?_, fun k => ?_, fun k row run hrow hr => ?_, fun k row hrow hk => ?_⟩
  · cases hs : (deployed (D := D) I rows).store.get k with
    | none => rfl
    | some row => exact (hother k row hs).2.symm
  · cases hk : getRunByIdempotencyKey (deployed (D := D) I rows).store workflowKind k with
    | none => rfl
    | some row =>
      obtain ⟨hmem, hkind, _⟩ := getByKey_mem hk
      exact absurd hkind (hother row.id row (Table.get_of_mem hmem)).1
  · rw [(hother k row hrow).2] at hr
    cases hr
  · exact absurd hk (hother k row hrow).1

def RunEnded (run : WorkflowRun D) : Prop :=
  run.status = .completed ∨ run.status = .failed ∨ run.status = .rejected

omit [StateDict D] in
theorem RunEnded.resume {run : WorkflowRun D} (h : RunEnded run) (wf : WorkflowDef) (c : Decision) :
    resume wf run c = .error (approvalError run) := by
  rcases h with hs | hs | hs <;> simp [WorkflowEngine.resume, hs]

omit [DecidableEq I] in
theorem handleShared_shows {m : SharedMap D} (hown : ∀ k run, m.runs k = some run → run.id = k)
    {q : Request I D} {run : WorkflowRun D} (h : (handleShared workflows m q).2 = .ok (some run)) :
    (handleShared workflows m q).1.runs run.id = some run := by
  cases q with
  | runWorkflow i name inputState key runId createdAt env =>
    revert h
    simp only [handleShared]
    split
    · rename_i known hknown
      rintro ⟨⟩
      obtain ⟨k, _, hk⟩ := Option.bind_eq_some_iff.mp hknown
      exact hown k run hk ▸ hk
    · split
      · rintro ⟨⟩
      · split
        · rintro ⟨⟩
        · rintro ⟨⟩
          exact Function.update_self ..
  | getRun i runId =>
    have hk : m.runs runId = some run := Except.ok.inj h
    exact hown runId run hk ▸ hk
  | resumeRun i runId c env =>
    revert h
    simp only [handleShared]
    split
    · rintro ⟨⟩
    · split
      · rintro ⟨⟩
      · split
        · rintro ⟨⟩
        · split
          · rintro ⟨⟩
          · rintro ⟨⟩
            exact Function.update_self ..
  | restart i => cases h

omit [DecidableEq I] in
theorem handleShared_ended {c : Cluster I D} {m : SharedMap D} (h : Mirrors column c.store m)
    {q : Request I D} (hg : Transparent workflows column c q) {k : String} {run : WorkflowRun D}
    (hk : m.runs k = some run) (hended : RunEnded run) :
    (handleShared workflows m q).1.runs k = some run := by
  cases q with
  | runWorkflow i name inputState key runId createdAt env =>
    have hfresh : k ≠ runId := by
      rintro rfl
      have hnone := h.runs k
      rw [hg.1, hk] at hnone
      cases hnone
    simp only [handleShared]
    split
    · exact hk
    · split
      · exact hk
      · rename_i wf _
        have hid : (complete wf env.replies (execute wf runId createdAt inputState)).run.id = runId :=
          (sameRun_complete wf env.replies _).1.trans
            (sameRun_loopHead wf _ (newRun wf runId createdAt inputState) (some wf.entry)).1
        split
        · exact hk
        · rw [hid]
          exact (Function.update_of_ne hfresh _ _).trans hk
  | getRun i runId => exact hk
  | resumeRun i runId d env =>
    simp only [handleShared]
    split
    · exact hk
    · rename_i resumed hresumed
      split
      · exact hk
      · rename_i wf _
        split
        · exact hk
        · rename_i drive hr
          have hid : (complete wf env.replies drive).run.id = runId := by
            obtain ⟨row, hrow, hrr⟩ := Option.bind_eq_some_iff.mp ((h.runs _).symm.trans hresumed)
            rw [(sameRun_complete wf env.replies drive).1, (sameRun_resume hr).1]
            exact (h.own runId row resumed hrow hrr).1
          have hne : k ≠ (complete wf env.replies drive).run.id := by
            rw [hid]
            rintro rfl
            obtain rfl : run = resumed := Option.some.inj (hk.symm.trans hresumed)
            rw [hended.resume wf d] at hr
            cases hr
          split <;> exact (Function.update_of_ne hne _ _).trans hk
  | restart i => exact hk

structure Replicated (workflows : Table WorkflowDef.name) (column : JsonColumn D) (c : Cluster I D)
    (m : SharedMap D) : Prop where
  mirrors : Mirrors column c.store m
  registered : AllRegistered workflows c

theorem Replicated.served {c : Cluster I D} {m : SharedMap D} (h : Replicated workflows column c m)
    {qs : List (Request I D)}
    (hg : Admits (handle workflows column.store) (Transparent workflows column) c qs) :
    Replicated workflows column (serveAll (handle workflows column.store) c qs).1
        (serveAll (handleShared workflows) m qs).1 ∧
      (serveAll (handle workflows column.store) c qs).2 =
        (serveAll (handleShared workflows) m qs).2 := by
  refine serveAll_simulation (fun c m q hr hguard => ?_) h hg
  obtain ⟨hmirrors, hresponse⟩ := agree_step hr.mirrors hr.registered hguard
  exact ⟨⟨hmirrors, hr.registered.handle q⟩, hresponse⟩

def Stored (store : RunRows D) (run : WorkflowRun D) : Prop :=
  ∃ row, store.get run.id = some row ∧ row.payload = .workflow run ∧
    row.status = rowStatus run.status

theorem Mirrors.stored {store : RunRows D} {m : SharedMap D} (h : Mirrors column store m)
    {run : WorkflowRun D} (hk : m.runs run.id = some run) : Stored store run := by
  obtain ⟨row, hrow, hrun⟩ := Option.bind_eq_some_iff.mp ((h.runs run.id).symm.trans hk)
  refine ⟨row, hrow, ?_, (h.own run.id row run hrow hrun).2.1⟩
  cases hp : row.payload with
  | workflow stored => simpa [rowRun, hp, modelValidate] using hrun
  | other => simp [rowRun, hp, modelValidate] at hrun

theorem Replicated.ended {c : Cluster I D} {m : SharedMap D} (h : Replicated workflows column c m)
    {qs : List (Request I D)}
    (hg : Admits (handle workflows column.store) (Transparent workflows column) c qs)
    {run : WorkflowRun D} (hended : RunEnded run) (hshown : m.runs run.id = some run ∨
      .ok (some run) ∈ (serveAll (handleShared workflows) m qs).2) :
    (serveAll (handleShared workflows) m qs).1.runs run.id = some run := by
  induction qs generalizing c m with
  | nil => exact hshown.resolve_right (by simp [serveAll])
  | cons q qs ih =>
    obtain ⟨hmirrors, hresponse⟩ := agree_step h.mirrors h.registered hg.1
    refine ih ⟨hmirrors, h.registered.handle q⟩ hg.2 ?_
    rcases hshown with hk | hshown
    · exact .inl (handleShared_ended h.mirrors hg.1 hk hended)
    · rcases List.mem_cons.mp hshown with hnow | hlater
      · refine .inl (handleShared_shows (fun k r hr => ?_) hnow.symm)
        obtain ⟨row, hrow, hrun⟩ := Option.bind_eq_some_iff.mp ((h.mirrors.runs k).symm.trans hr)
        exact (h.mirrors.own k row r hrow hrun).1
      · exact .inr hlater

def served (I : Type) [DecidableEq I] (workflows : Table WorkflowDef.name) (column : JsonColumn D)
    (rows : RunTable Unit) (qs : List (Request I D)) : Cluster I D × List (Response D) :=
  serveAll (handle workflows column.store) (deployed I rows) qs

theorem replica_transparency {rows : RunTable Unit} (hrows : ∀ r ∈ rows.rows, r.kind ≠ workflowKind)
    {qs : List (Request I D)}
    (hg : Admits (handle workflows column.store) (Transparent workflows column) (deployed I rows) qs) :
    (served I workflows column rows qs).2 = (serveAll (handleShared workflows) (emptyMap D) qs).2 ∧
    ∀ qs₁ qs₂ run, qs = qs₁ ++ qs₂ → .ok (some run) ∈ (served I workflows column rows qs₁).2 →
      RunEnded run → Stored (served I workflows column rows qs).1.store run ∧
        ∀ i c env, Transparent workflows column (served I workflows column rows qs).1
            (.resumeRun i run.id c env) →
          (handle workflows column.store (served I workflows column rows qs).1
            (.resumeRun i run.id c env)).2 = .error (.approvalError (approvalError run)) := by
  have hstart : Replicated workflows column (deployed (D := D) I rows) (emptyMap D) :=
    ⟨mirrors_deployed hrows, allRegistered_deployed workflows rows⟩
  refine ⟨(hstart.served hg).2, ?_⟩
  rintro qs₁ qs₂ run rfl hshown hended
  obtain ⟨hg₁, hg₂⟩ := admits_append.mp hg
  obtain ⟨hthen, hresponses⟩ := hstart.served hg₁
  have hhad := hstart.ended hg₁ hended (.inr (hresponses ▸ hshown))
  have hhas : (serveAll (handleShared workflows) (emptyMap D) (qs₁ ++ qs₂)).1.runs run.id =
      some run := by
    rw [serveAll_append]
    exact hthen.ended hg₂ hended (.inl hhad)
  have hnow := (hstart.served hg).1
  refine ⟨hnow.mirrors.stored hhas, fun i c env hc => ?_⟩
  obtain ⟨_, hresponse⟩ := agree_step hnow.mirrors hnow.registered hc
  apply hresponse.trans
  obtain ⟨row, hrow, hrun⟩ := Option.bind_eq_some_iff.mp ((hnow.mirrors.runs _).symm.trans hhas)
  obtain ⟨⟨wf, hw, _⟩, _⟩ := (hnow.registered i).stored run.id row run hrow hrun
  have hw : workflows.get run.workflow = some wf := hw
  simp only [handleShared, hhas, hw, hended.resume wf c]

def emptyColumn : JsonColumn Unit := ⟨some, rfl, fun _ _ _ _ => rfl⟩

def handedOver (after : List (Request Bool Unit)) : List (Request Bool Unit) :=
  .runWorkflow false "grants" () none "r" "now" endingBranches ::
    .resumeRun true "r" ⟨.approved, "alice", none, "now"⟩ endingBranches :: after

def rejectAgain : Request Bool Unit :=
  .resumeRun false "r" ⟨.rejected, "bob", none, "now"⟩ endingBranches

theorem stale_copy_decides_again :
    (served Bool gatedOnly emptyColumn (Table.empty _) (handedOver [rejectAgain])).2 ≠
      (serveAll (handleShared gatedOnly) (emptyMap Unit) (handedOver [rejectAgain])).2 ∧
    ((served Bool gatedOnly emptyColumn (Table.empty _) (handedOver [])).1.store.get "r").map
      AgentRun.status = some .completed ∧
    ((served Bool gatedOnly emptyColumn (Table.empty _) (handedOver [rejectAgain])).1.store.get
      "r").map AgentRun.status = some .rejected := by
  refine ⟨fun h => ?_, by decide, by decide⟩
  have hlast := congrArg List.getLast? h
  revert hlast
  decide

theorem restarted_replica_transparent :
    (served Bool gatedOnly emptyColumn (Table.empty _)
        (handedOver [.restart false, rejectAgain])).2 =
      (serveAll (handleShared gatedOnly) (emptyMap Unit)
        (handedOver [.restart false, rejectAgain])).2 := by
  have hplain : ∀ n, PlainReply emptyColumn (endingBranches.replies n) :=
    fun _ => ⟨rfl, fun _ _ => rfl, rfl⟩
  have hadmits : Admits (handle gatedOnly emptyColumn.store) (Transparent gatedOnly emptyColumn)
      (deployed Bool (Table.empty _)) (handedOver [.restart false, rejectAgain]) := by
    refine ⟨⟨rfl, by simp, rfl, hplain⟩, ?_, trivial, ?_, trivial⟩
    · refine ⟨by rintro run ⟨⟩, ⟨by decide, ?_⟩, hplain⟩
      rintro run ⟨⟩ wf ⟨⟩ d ⟨⟩
      decide
    · refine ⟨by rintro run ⟨⟩, ⟨by decide, ?_⟩, hplain⟩
      rintro run ⟨⟩ wf ⟨⟩ d ⟨⟩
  exact (replica_transparency (by simp [Table.empty]) hadmits).1

end Workbench.WorkflowRegistry
