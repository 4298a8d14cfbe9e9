import Workbench.IncidentReports
import Workbench.TraceRollups

namespace Workbench.Incidents

open AgentRuntime KeyedTable Observability PyJson

abbrev Row := Trace Dict Dict

abbrev Traces := Store Dict Dict

def ofKind (kind : Option String) (t : Row) : Bool :=
  match kind with
  | none => true
  | some kind => kind = "" || t.kind = kind

/-- What `list_traces` may return: traces of one time come in any order, and a read that fails is an
empty page. -/
inductive ListsTraces (rows : List Row) (kind : Option String) (limit : ℕ) : Bool → List Row → Prop
  | reads (ordered : List Row) (hperm : ordered.Perm (rows.filter (ofKind kind)))
      (hsorted : ordered.Pairwise fun t u => u.createdAt ≤ t.createdAt) :
      ListsTraces rows kind limit true (ordered.take limit)
  | fails : ListsTraces rows kind limit false []

def getTrace (traces : Traces) (reads : Bool) (traceId : String) : Option Row :=
  if reads then traces.get traceId else none

def payloadFields : Payload Dict Dict → Dict
  | .tool args atTime => [("args", .dict args), ("at", .str atTime)]
  | .run payload => payload

def traceDetail (t : Row) : TraceDetail := ⟨t.id, t.kind, t.name, t.status, t.error, payloadFields t.payload⟩

def terminalOk : String := "completed"

structure Incident where
  traceId : String
  kind : String
  name : String
  status : String
  error : Option String
  rootCause : RootCause
  deriving DecidableEq

inductive RcaError
  | notFound (detail : String)
  | raised (exc : Exc)

section Endpoints

variable (lib : IncidentLibrary) {J : Type}

def incident (t : Row) : Except PyError Incident :=
  (classify lib t.kind t.status t.error []).map fun found =>
    ⟨t.id, t.kind, t.name, t.status, t.error, found.1⟩

def incidents (page : List Row) : Except PyError (List Incident) :=
  (page.filter fun t => t.status ≠ terminalOk).mapM (incident lib)

def rca (traces : Traces) (reads : Bool) (traceId : String)
    (step : StepRequest → Except Exc (StepOutput J)) : Except RcaError RcaReport :=
  match getTrace traces reads traceId with
  | none => .error (.notFound ("unknown trace: " ++ traceId))
  | some trace => (analyzeIncident lib (traceDetail trace) step).mapError .raised

end Endpoints

def Refines (summary cause : RootCause) : Prop :=
  cause = summary ∨ summary = .unknown ∧ (cause = .toolDenied ∨ cause = .lowEvalQuality)

structure Stands (lib : IncidentLibrary) (traces : Traces) (i : Incident) : Prop where
  stored : ∃ t ∈ traces.rows, t.status ≠ terminalOk ∧
    (t.id, t.kind, t.name, t.status, t.error) = (i.traceId, i.kind, i.name, i.status, i.error)
  report : ∀ (J : Type) (step : StepRequest → Except Exc (StepOutput J)) (report : RcaReport),
    rca lib traces true i.traceId step = .ok report →
      (report.traceId, report.kind, report.name, report.status) = (i.traceId, i.kind, i.name, i.status) ∧
        Refines i.rootCause report.rootCause

def Listed (listed : List Incident) (traceId : String) : Prop := traceId ∈ listed.map Incident.traceId

/-- Of the failed runs the page shows the newest, and all of them if they fit in: as many of each kind
and status as the dashboard counts. -/
structure Current (traces : Traces) (limit : ℕ) (listed : List Incident) : Prop where
  newest : ∀ t ∈ traces.rows, t.status ≠ terminalOk → ¬ Listed listed t.id →
    ∀ u ∈ traces.rows, Listed listed u.id → t.createdAt ≤ u.createdAt
  total : traces.rows.length ≤ limit →
    ((aggregates traces.rows).failures.map FailureBucket.count).sum = listed.length
  buckets : traces.rows.length ≤ limit → ∀ b ∈ (aggregates traces.rows).failures,
    b.count = listed.countP fun i => i.kind = b.kind ∧ i.status = b.status

section Classify

variable {lib : IncidentLibrary} {kind status : String} {payload : Dict}

theorem lowRate_rateless {kind : String} (h : value payload "aggregates" = .null) :
    lowRate lib kind payload = none := by
  rw [lowRate, h]

theorem classifyPayload_bare (hcalls : audit payload = .list []) (hrate : value payload "aggregates" = .null) :
    classifyPayload lib kind status payload =
      .ok (.unknown, ["run ended with status '" ++ status ++ "'"]) := by
  unfold classifyPayload
  rw [hcalls, lowRate_rateless hrate]
  rfl

theorem classifyPayload_cause {found : RootCause × List String}
    (h : classifyPayload lib kind status payload = .ok found) : Refines .unknown found.1 := by
  obtain ⟨calls, -, h⟩ := bind_eq_ok.mp h
  simp only at h
  split_ifs at h with hdenied
  · cases h
    exact .inr ⟨rfl, .inl rfl⟩
  · split at h
    · obtain ⟨rate, -, rfl⟩ := map_eq_ok.mp h
      exact .inr ⟨rfl, .inr rfl⟩
    · cases h
      exact .inl rfl

theorem classify_summary (hstr : ∀ text, lib.str (.str text) = .ok text) (kind status : String)
    (error : Option String) (payload : Dict) :
    ∃ summary, classify lib kind status error [] = .ok summary ∧
      ∀ found, classify lib kind status error payload = .ok found → Refines summary.1 found.1 := by
  unfold classify
  simp only
  split_ifs
  · refine ⟨_, rfl, ?_⟩
    rintro found ⟨⟩
    exact .inl rfl
  · refine ⟨_, congrArg (Except.map _) (hstr "?"), ?_⟩
    intro found h
    obtain ⟨n, -, rfl⟩ := map_eq_ok.mp h
    exact .inl rfl
  · refine ⟨_, rfl, ?_⟩
    rintro found ⟨⟩
    exact .inl rfl
  · refine ⟨_, rfl, ?_⟩
    rintro found ⟨⟩
    exact .inl rfl
  · refine ⟨_, rfl, ?_⟩
    rintro found ⟨⟩
    exact .inl rfl
  · refine ⟨_, classifyPayload_bare rfl rfl, ?_⟩
    intro found h
    exact classifyPayload_cause h

end Classify

section Reports

variable {lib : IncidentLibrary} {J : Type} {traces : Traces} {t : Row}

def RcaReport.facts (r : RcaReport) : String × String × String × String × RootCause × List String :=
  (r.traceId, r.kind, r.name, r.status, r.rootCause, r.signals)

theorem explain_facts {report told : RcaReport} {data : Json}
    (h : explain lib report data = .ok told) : told.facts = report.facts := by
  unfold explain at h
  simp only [bind_eq_ok, map_eq_ok] at h
  obtain ⟨-, -, -, -, -, -, -, -, rfl⟩ := h
  rfl

theorem analyzeIncident_facts {trace : TraceDetail} {step : StepRequest → Except Exc (StepOutput J)}
    {report : RcaReport} (h : analyzeIncident lib trace step = .ok report) :
    ∃ found, classify lib trace.kind trace.status trace.error trace.payload = .ok found ∧
      report.facts = (foundReport trace found).facts := by
  obtain ⟨found, hfound, h⟩ := bind_eq_ok.mp h
  refine ⟨found, mapError_eq_ok.mp hfound, ?_⟩
  split at h
  · split_ifs at h
    cases h
    rfl
  · have hkeeps := loadObject_keeps (fun data told => explain_facts) (mapError_eq_ok.mp h)
    exact hkeeps

theorem getTrace_mem (ht : t ∈ traces.rows) : getTrace traces true t.id = some t :=
  Table.get_of_mem ht

theorem rca_facts (ht : t ∈ traces.rows) {step : StepRequest → Except Exc (StepOutput J)}
    {report : RcaReport} (h : rca lib traces true t.id step = .ok report) :
    ∃ found, classify lib t.kind t.status t.error (payloadFields t.payload) = .ok found ∧
      report.facts = (foundReport (traceDetail t) found).facts := by
  unfold rca at h
  rw [getTrace_mem ht] at h
  exact analyzeIncident_facts (mapError_eq_ok.mp h)

end Reports

section Pages

variable {lib : IncidentLibrary} {traces : Traces} {limit : ℕ} {page : List Row} {listed : List Incident}

theorem incident_stands (hstr : ∀ text, lib.str (.str text) = .ok text) {t : Row} {i : Incident}
    (ht : t ∈ traces.rows) (hs : t.status ≠ terminalOk) (hi : incident lib t = .ok i) :
    Stands lib traces i := by
  obtain ⟨summary, hsummary, hrefines⟩ := classify_summary hstr t.kind t.status t.error
    (payloadFields t.payload)
  obtain ⟨found, hfound, rfl⟩ := map_eq_ok.mp hi
  cases hsummary.symm.trans hfound
  constructor
  · exact ⟨t, ht, hs, rfl⟩
  · intro J step report h
    obtain ⟨cause, hcause, hfacts⟩ := rca_facts ht h
    simp only [RcaReport.facts, Prod.mk.injEq] at hfacts
    obtain ⟨hid, hkind, hname, hstatus, hroot, -⟩ := hfacts
    refine ⟨by rw [hid, hkind, hname, hstatus]; rfl, ?_⟩
    rw [hroot]
    exact hrefines cause hcause

theorem filter_ofKind_none (rows : List Row) : rows.filter (ofKind none) = rows :=
  List.filter_eq_self.mpr fun _ _ => rfl

theorem ListsTraces.sublist {rows : List Row} {kind : Option String} {reads : Bool}
    (h : ListsTraces rows kind limit reads page) :
    ∃ ordered, page.Sublist ordered ∧ ordered.Perm (rows.filter (ofKind kind)) := by
  cases h with
  | reads ordered hperm hsorted => exact ⟨ordered, List.take_sublist limit ordered, hperm⟩
  | fails => exact ⟨_, List.nil_sublist _, List.Perm.refl _⟩

theorem ListsTraces.subset {rows : List Row} {kind : Option String} {reads : Bool}
    (h : ListsTraces rows kind limit reads page) : page ⊆ rows := by
  obtain ⟨ordered, hsub, hperm⟩ := h.sublist
  intro t ht
  exact (List.mem_filter.mp (hperm.subset (hsub.subset ht))).1

theorem ListsTraces.nodup {kind : Option String} {reads : Bool}
    (h : ListsTraces traces.rows kind limit reads page) : (page.map Trace.id).Nodup := by
  obtain ⟨ordered, hsub, hperm⟩ := h.sublist
  apply List.Nodup.sublist (hsub.map Trace.id)
  rw [(hperm.map Trace.id).nodup_iff]
  exact traces.unique.sublist (List.filter_sublist.map Trace.id)

theorem failed_eq (rows : List Row) : (rows.filter fun t => t.status ≠ terminalOk) = failed rows := by
  unfold failed
  apply List.filter_congr
  intro t _
  by_cases h : t.status = terminalOk
  · simp [isSuccess, successStatuses, h]
    rfl
  · simp [isSuccess, successStatuses, h]
    exact h

theorem incidents_forall₂ (h : incidents lib page = .ok listed) :
    List.Forall₂ (fun t i => incident lib t = .ok i) (failed page) listed := by
  rw [← failed_eq]
  exact mapM_eq_ok.mp h

theorem incidents_map {β : Type} {f : Row → β} {g : Incident → β}
    (hfg : ∀ t cause, f t = g ⟨t.id, t.kind, t.name, t.status, t.error, cause⟩)
    (h : incidents lib page = .ok listed) : (failed page).map f = listed.map g := by
  rw [← List.forall₂_eq_eq_eq, List.forall₂_map_left_iff, List.forall₂_map_right_iff]
  apply (incidents_forall₂ h).imp
  intro t i hi
  obtain ⟨found, -, rfl⟩ := map_eq_ok.mp hi
  exact hfg t found.1

theorem listed_iff (h : incidents lib page = .ok listed) (traceId : String) :
    Listed listed traceId ↔ ∃ t ∈ failed page, t.id = traceId := by
  unfold Listed
  rw [← incidents_map (fun _ _ => rfl) h, List.mem_map]

theorem current_page {ordered : List Row} (hperm : ordered.Perm traces.rows)
    (hsorted : ordered.Pairwise fun t u => u.createdAt ≤ t.createdAt)
    (h : incidents lib (ordered.take limit) = .ok listed) : Current traces limit listed where
  newest := by
    intro t ht hs hnot u hu hlisted
    obtain ⟨v, hv, hid⟩ := (listed_iff h u.id).mp hlisted
    have hvpage := (mem_failed.mp hv).1
    have hvu : v = u :=
      List.inj_on_of_nodup_map traces.unique (hperm.subset (List.mem_of_mem_take hvpage)) hu hid
    have hlater : t ∈ ordered.drop limit := by
      have hmem := hperm.mem_iff.mpr ht
      rw [← List.take_append_drop limit ordered] at hmem
      rcases List.mem_append.mp hmem with hpage | hlater
      · have hstatus : t.status ∉ successStatuses := by simpa [successStatuses, terminalOk] using hs
        exact absurd ((listed_iff h t.id).mpr ⟨t, mem_failed.mpr ⟨hpage, hstatus⟩, rfl⟩) hnot
      · exact hlater
    rw [← List.take_append_drop limit ordered] at hsorted
    rw [← hvu]
    exact (List.pairwise_append.mp hsorted).2.2 v hvpage t hlater
  total := by
    intro hlimit
    rw [← hperm.length_eq] at hlimit
    rw [List.take_of_length_le hlimit] at h
    have hsum := failures_sum traces.rows
    have hlength := length_failed ordered
    rw [hperm.countP_eq, hperm.length_eq] at hlength
    have hlisted := (incidents_forall₂ h).length_eq
    omega
  buckets := by
    intro hlimit b hb
    rw [← hperm.length_eq] at hlimit
    rw [List.take_of_length_le hlimit] at h
    obtain ⟨-, hstatus, hcount⟩ := failures_buckets traces.rows b hb
    rw [hcount, ← hperm.countP_eq, ← countP_failed ordered hstatus]
    have hmap : (failed ordered).map (fun t => (t.kind, t.status)) =
        listed.map fun i => (i.kind, i.status) := incidents_map (fun _ _ => rfl) h
    have hcounted := congrArg (List.countP fun p => p = (b.kind, b.status)) hmap
    simp only [List.countP_map, Function.comp_def, Prod.mk.injEq] at hcounted ⊢
    exact hcounted

/-- Whatever traces are stored and whatever the model writes. -/
theorem incidents_match_dashboard (hstr : ∀ text, lib.str (.str text) = .ok text) {reads : Bool}
    (h : ListsTraces traces.rows none limit reads page) :
    ∃ listed, incidents lib page = .ok listed ∧ (listed.map Incident.traceId).Nodup ∧
      (∀ i ∈ listed, Stands lib traces i) ∧ (reads = true → Current traces limit listed) := by
  obtain ⟨listed, hlisted⟩ : Fine (incidents lib page) := by
    apply fine_mapM.mpr
    intro t _
    obtain ⟨summary, hsummary, -⟩ := classify_summary hstr t.kind t.status t.error []
    exact ⟨_, congrArg (Except.map _) hsummary⟩
  refine ⟨listed, hlisted, ?_, ?_, ?_⟩
  · rw [← incidents_map (f := Trace.id) (fun _ _ => rfl) hlisted]
    exact h.nodup.sublist (List.filter_sublist.map Trace.id)
  · intro i hi
    obtain ⟨t, ht, hincident⟩ := forall₂_right (incidents_forall₂ hlisted) i hi
    obtain ⟨hpage, hstatus⟩ := mem_failed.mp ht
    apply incident_stands hstr (h.subset hpage) _ hincident
    simpa [successStatuses, terminalOk] using hstatus
  · intro hreads
    cases h with
    | fails => cases hreads
    | reads ordered hperm hsorted =>
      rw [filter_ofKind_none] at hperm
      exact current_page hperm hsorted hlisted

end Pages

section Sample

def plainIncidents : IncidentLibrary where
  loads _ := .error .decode
  str
    | .str text => .ok text
    | _ => .ok ""
  lower := String.toLower
  percent _ := .ok ""
  oddBelow := false

def budgetRun : Recording Dict Dict :=
  ⟨⟨"agent", "text2sql", "max_steps_reached", 12, none, 10, 5, 6, none, .run []⟩, "a1",
    "2026-01-01T00:00:00+00:00", .done⟩

def finishedRun : Recording Dict Dict :=
  ⟨⟨"agent", "text2sql", "completed", 12, none, 10, 5, 6, none, .run []⟩, "b2",
    "2026-01-01T00:00:01+00:00", .done⟩

def sampleTraces : Traces := (recordAll (Table.empty _) [budgetRun, finishedRun]).1

theorem sample_incidents_match : ∃ page listed, incidents plainIncidents page = .ok listed ∧
    listed.map Incident.rootCause = [.loopNoProgress] ∧ Current sampleTraces 50 listed := by
  have hsorted : sampleTraces.rows.reverse.Pairwise fun t u => u.createdAt ≤ t.createdAt := by
    decide +kernel
  have hperm : sampleTraces.rows.reverse.Perm (sampleTraces.rows.filter (ofKind none)) := by
    rw [filter_ofKind_none]
    exact List.reverse_perm _
  have hpage : ListsTraces sampleTraces.rows none 50 true (sampleTraces.rows.reverse.take 50) :=
    .reads _ hperm hsorted
  have hstr : ∀ text, plainIncidents.str (.str text) = .ok text := fun _ => rfl
  obtain ⟨listed, hlisted, -, -, hcurrent⟩ := incidents_match_dashboard hstr hpage
  refine ⟨_, listed, hlisted, ?_, hcurrent rfl⟩
  have hcauses : (incidents plainIncidents (sampleTraces.rows.reverse.take 50)).map
      (List.map Incident.rootCause) = .ok [.loopNoProgress] := by
    rfl
  rw [hlisted] at hcauses
  exact Except.ok.inj hcauses

end Sample

end Workbench.Incidents
