import Workbench.IdempotentCalls

namespace Workbench.RegistryCalls

open KeyedTable RunStore Transitions WorkflowEngine WorkflowRegistry

variable {C D : Type} {workflows : Table WorkflowDef.name} {k : String} [DecidableEq C]

section Commit

variable [DecidableEq D] {json : D → Option D}

def newRow (dumped payload : WorkflowRun D) (key : Option String) (now : ℤ) :
    AgentRun (RowPayload D) :=
  ⟨dumped.id, workflowKind, rowStatus dumped.status, key, .workflow payload, none, now, now⟩

omit [DecidableEq C] in
theorem commitWorkflow_new (json : D → Option D) (store : RunRows D) (dumped : WorkflowRun D) (key : Option String)
    (now : ℤ) :
    (commitWorkflow json store none dumped key now = store ∧ ∀ payload,
      roundTrip json dumped = some payload → insertRow store (newRow dumped payload key now) = none) ∨
    ∃ payload, roundTrip json dumped = some payload ∧
      insertRow store (newRow dumped payload key now) =
        some (commitWorkflow json store none dumped key now) := by
  unfold commitWorkflow commitRun newRow
  cases hj : roundTrip json dumped with
  | none => exact .inl ⟨rfl, fun payload hp => absurd hp (by simp)⟩
  | some payload =>
    simp only
    cases hi : insertRow store ⟨dumped.id, workflowKind, rowStatus dumped.status, key,
        .workflow payload, none, now, now⟩ with
    | none =>
      refine .inl ⟨rfl, fun other hp => ?_⟩
      obtain rfl := Option.some.inj hp
      exact hi
    | some written => exact .inr ⟨payload, rfl, hi⟩

theorem commitWorkflow_keyed {store : RunRows D} {dumped : WorkflowRun D} (hk : k ≠ "")
    (hnone : store.get dumped.id = none) (hrow : getRunByIdempotencyKey store workflowKind k = none)
    (hj : (roundTrip json dumped).isSome) (now : ℤ) :
    Found (commitWorkflow json store none dumped (some k) now) k dumped.id := by
  rcases commitWorkflow_new json store dumped (some k) now with ⟨_, hfails⟩ | ⟨payload, _, hi⟩
  · obtain ⟨payload, hpayload⟩ := Option.isSome_iff_exists.mp hj
    have hsome : (insertRow store (newRow dumped payload (some k) now)).isSome :=
      insertRow_isSome hnone hk rfl hrow
    simp [hfails payload hpayload] at hsome
  · refine ⟨newRow dumped payload (some k) now, ?_, rfl⟩
    rw [getByKey_insert hi, hrow]
    simp [hk, newRow]

theorem commitWorkflow_other (json : D → Option D) (store : RunRows D) (dumped : WorkflowRun D)
    {key : Option String} (hkey : key ≠ some k) (now : ℤ) :
    getRunByIdempotencyKey (commitWorkflow json store none dumped key now) workflowKind k =
      getRunByIdempotencyKey store workflowKind k := by
  rcases commitWorkflow_new json store dumped key now with ⟨hsame, _⟩ | ⟨payload, _, hi⟩
  · rw [hsame]
  · rw [getByKey_insert hi]
    simp [newRow, hkey]

omit [DecidableEq C] [DecidableEq D] in
theorem found_insert {store store' : RunRows D} {row : AgentRun (RowPayload D)}
    (h : insertRow store row = some store') {id : String} (hf : Found store k id) :
    Found store' k id := by
  obtain ⟨r, hr, hid⟩ := hf
  exact ⟨r, by rw [getByKey_insert h, hr]; rfl, hid⟩

omit [DecidableEq D] in
theorem AtPhase.commits {s : Registry C D} {c : C} (h : AtPhase k s (.running c)) {t : Task D}
    (ht : ¬ t.pc.Missed) {store : RunRows D}
    (hrow : (getRunByIdempotencyKey store workflowKind k).isSome) :
    AtPhase k ({ s with store }.setTask c t) .stored where
  executed := h.executed
  row := by simpa [Registry.setTask] using hrow
  misses c' u hc hk hm := by
    rw [tasks_setTask] at hc
    split_ifs at hc with hcc
    · cases hc
      exact absurd hm ht
    · exact absurd (h.misses c' u hc hk hm).1 hcc
  present := by simp

omit [DecidableEq D] in
theorem AtPhase.commitsOther {s : Registry C D} {p : Phase C} (h : AtPhase k s p) {c : C}
    {t t' : Task D} (hc : s.tasks c = some t) (hkey : t.call.key ≠ some k) (ht : ¬ t'.pc.Missed)
    {store : RunRows D} (hsame : getRunByIdempotencyKey store workflowKind k =
      getRunByIdempotencyKey s.store workflowKind k) :
    AtPhase k ({ s with store }.setTask c t') p where
  executed := h.executed
  row := by
    rw [← h.row, ← hsame]
    rfl
  misses c' u hc' hk hm := by
    rw [tasks_setTask] at hc'
    split_ifs at hc' with hcc
    · cases hc'
      exact absurd hm ht
    · exact h.misses c' u hc' hk hm
  present c' hp := by
    obtain ⟨u, hc', hk, hm⟩ := h.present c' hp
    refine ⟨u, ?_, hk, hm⟩
    rw [tasks_setTask, if_neg, hc']
    rintro rfl
    exact hkey (by rwa [Option.some.inj (hc.symm.trans hc')])

theorem Idempotent.commits {s : Registry C D} (h : Idempotent workflows k s) (hk : k ≠ "") {c : C}
    {t : Task D} {ref : ℕ} {dumped : WorkflowRun D} {seen : Option (AgentRun (RowPayload D))}
    (hc : s.tasks c = some t) (hp : t.pc = .committing ref dumped seen)
    (hj : t.call.key = some k → (roundTrip json dumped).isSome) (now : ℤ) :
    Idempotent workflows k
      ({ s with store := commitWorkflow json s.store seen dumped t.call.key now }.setTask c
        ⟨t.call, .returned (some ref)⟩) := by
  have hplace := h.places c t hc
  simp only [Place, hp] at hplace
  obtain ⟨rfl, hobject⟩ := hplace
  have hwork : WorkId s c dumped.id := ⟨t, dumped, hc, by rw [hp]; rfl, rfl⟩
  have hnone := h.free c dumped.id hwork
  have hnew := commitWorkflow_new json s.store dumped t.call.key now
  generalize hwritten : commitWorkflow json s.store none dumped t.call.key now = written at hnew ⊢
  obtain ⟨p, hphase⟩ := h.phase
  have hrunning : t.call.key = some k → p = .running c ∧ Found written k dumped.id := by
    intro hkey
    have hmisses := hphase.misses c t hc hkey (by rw [hp]; trivial)
    cases p with
    | running c' =>
      obtain rfl : c = c' := hmisses.1
      have hrow : getRunByIdempotencyKey s.store workflowKind k = none := by simpa using hphase.row
      rw [hkey] at hwritten
      exact ⟨rfl, hwritten ▸ commitWorkflow_keyed hk hnone hrow (hj hkey) now⟩
    | missed c' => simp [hp, Phase.Misses] at hmisses
    | _ => exact absurd hmisses not_false
  have hfound : ∀ id, Found s.store k id → Found written k id := by
    intro id hf
    rcases hnew with ⟨rfl, _⟩ | ⟨payload, _, hi⟩
    · exact hf
    · exact found_insert hi hf
  have hworks : ∀ c' id, WorkId ({ s with store := written }.setTask c
      ⟨t.call, .returned (some ref)⟩) c' id → c' ≠ c ∧ WorkId s c' id := by
    rintro c' id ⟨t', run, ht', hw, hid⟩
    rw [tasks_setTask] at ht'
    split_ifs at ht' with hcc
    · cases ht'
      simp [Pc.work] at hw
    · exact ⟨hcc, t', run, ht', hw, hid⟩
  refine ⟨h.undecided, fun c' t' hc' => ?_, ?_, fun c' id hw => ?_, fun c' c'' id hw hw' => ?_,
    fun c' t' hc' => ?_, ?_⟩
  · rw [tasks_setTask] at hc'
    split_ifs at hc'
    · cases hc'
      exact h.calls c t hc
    · exact h.calls c' t' hc'
  · intro row hrow hkind
    rcases hnew with ⟨rfl, _⟩ | ⟨payload, hpayload, hi⟩
    · exact h.own row hrow hkind
    · rcases insertRow_mem hi hrow with hold | rfl
      · exact h.own row hold hkind
      · exact ⟨payload, rfl, (roundTrip_approvals hpayload).1⟩
  · obtain ⟨hcc, hold⟩ := hworks c' id hw
    have hid : dumped.id ≠ id := by
      rintro rfl
      exact hcc (h.alone c' c dumped.id hold hwork)
    rcases hnew with ⟨rfl, _⟩ | ⟨payload, _, hi⟩
    · exact h.free c' id hold
    · exact ((get_insertRow hi).2 id).trans ((if_neg hid).trans (h.free c' id hold))
  · exact h.alone c' c'' id (hworks c' id hw).2 (hworks c'' id hw').2
  · rw [tasks_setTask] at hc'
    split_ifs at hc'
    · cases hc'
      exact fun hkey => ⟨ref, dumped.id, rfl, hobject, (hrunning hkey).2⟩
    · exact (h.places c' t' hc').mono (fun _ _ hr => hr) hfound
  · have hgone : ¬ (⟨t.call, .returned (some ref)⟩ : Task D).pc.Missed := not_false
    by_cases hkey : t.call.key = some k
    · obtain ⟨rfl, row, hrow, _⟩ := hrunning hkey
      exact ⟨.stored, hphase.commits hgone (by rw [hrow]; rfl)⟩
    · have hsame := commitWorkflow_other json s.store dumped hkey now
      rw [hwritten] at hsame
      exact ⟨p, hphase.commitsOther hc hkey hgone hsame⟩

end Commit

def Answered [StateDict D] (s : Registry C D) (r : Reply D) : Pc D → Prop
  | .driving ref wf approved point => ∀ run ∈ s.objects[ref]?,
      ReplyAnswers wf ⟨approved, run, point⟩ r
  | _ => True

def Serializable [DecidableEq D] (json : D → Option D) : Pc D → Prop
  | .committing _ dumped _ => (roundTrip json dumped).isSome
  | _ => True

/-- Only `run_workflow` calls are made, with new ids. A lookup under the key takes effect when no
other call is between its own, which missed, and the commit of its run; the calls under the key
are answered, and their runs can be written. -/
def Deduplicated [StateDict D] [DecidableEq D] (workflows : Table WorkflowDef.name)
    (json : D → Option D) (k : String) (s : Registry C D) : Action C D → Prop
  | .begins _ call runId _ => Launches workflows k call ∧ Fresh s runId
  | .reads c => ∀ t ∈ s.tasks c, t.pc = .looking k →
      ∀ c', ∀ t' ∈ s.tasks c', t'.call.key = some k → ¬ t'.pc.Missed
  | .continues _ runId _ => Fresh s runId
  | .replies c r => ∀ t ∈ s.tasks c, t.call.key = some k → Answered s r t.pc
  | .commits c _ => ∀ t ∈ s.tasks c, t.call.key = some k → Serializable json t.pc
  | .restart => False

omit [DecidableEq C] in
theorem Idempotent.unapproved {s : Registry C D} (h : Idempotent workflows k s)
    (ho : Orderly workflows s) {run : WorkflowRun D} (hr : Copy s run) : run.approvals = [] := by
  have hnone := ho.steady.copied run hr
  rw [h.undecided] at hnone
  cases ha : run.approvals with
  | nil => rfl
  | cons a as => simpa using hnone 0 (by simp [ha])

section Runs

variable [StateDict D] [DecidableEq D] {json : D → Option D}

omit [DecidableEq C] in
theorem Idempotent.undisturbed {s : Registry C D} {a : Action C D} (h : Idempotent workflows k s)
    (ho : Orderly workflows s) (hg : Deduplicated workflows json k s a) : Undisturbed json s a := by
  have hnil : ∀ run, Copy s run → run.approvals = [] := fun run hr => h.unapproved ho hr
  cases a with
  | begins c call runId createdAt => exact hg.2
  | reads c => trivial
  | continues c runId createdAt =>
    refine ⟨hg, fun t hc run hr _ => ⟨fun c' t' hc' other hw _ => ?_, fun other hs => ?_⟩⟩
    · rw [hnil other (InFlight.copy ⟨c', t', hc', hw⟩)]
      exact Nat.zero_le _
    · rw [hnil other (.inr (.inl ⟨run.id, hs⟩))]
      exact Nat.zero_le _
  | replies c r =>
    intro t hc
    unfold Survives
    split
    · exact fun run hr => .inr (.inl (hnil run (.inl (List.mem_of_getElem? hr))))
    · trivial
  | commits c now =>
    intro t hc
    unfold Writes
    split
    · rename_i ref dumped seen hp
      have hplace := h.places c t hc
      simp only [Place, hp] at hplace
      have hfree := h.free c dumped.id ⟨t, dumped, hc, by rw [hp]; rfl, rfl⟩
      refine ⟨?_, .inl (hnil dumped (.inr (.inr ⟨c, t, hc, by rw [hp]; rfl⟩)))⟩
      simp only [Lands, hfree]
      exact hplace.1
    · trivial
  | restart => exact absurd hg not_false

theorem Idempotent.step {s t : Registry C D} {a : Action C D} (h : Idempotent workflows k s)
    (ho : Orderly workflows s) (hk : k ≠ "") (hg : Deduplicated workflows json k s a)
    (hs : RegistryCalls.step workflows json s a = some t) : Idempotent workflows k t := by
  cases step_cases hs with
  | opens c call runId createdAt pc hc hopens =>
    have hbefore : ∀ old, s.tasks c = some old → old.call.key = some k → ¬ old.pc.Missed := by
      simp [hc]
    cases hopens with
    | looks name inputState key hne =>
      exact h.quiet ho (framed_setTask s c _) (by rw [tasks_setTask, if_pos rfl]) trivial rfl rfl hg.1
        (.inl rfl) rfl (fun _ => id) hbefore
    | shows id key ref hcache => exact absurd hg.1 not_false
    | loads call id hcache hid =>
      rcases hid with rfl | ⟨decision, rfl⟩
      · exact absurd hg.1 not_false
      · exact absurd hg.1 not_false
  | starts c name inputState key runId createdAt hc hkey =>
    refine h.enterExecute ho hg.2 hg.1 (.inl ⟨?_, by simp [hc]⟩) createdAt
    rintro rfl
    exact hk (hkey k rfl)
  | decides c id decision runId createdAt key ref run hc hcache hobject => exact absurd hg.1 not_false
  | reads c u pc hc hr => exact h.reads hc hr (hg u hc)
  | goesOn c u row runId createdAt hc hp => exact h.goOn ho hc hp hg createdAt
  | drives c u r ref wf approved point run d hc hp hobject hd =>
    obtain ⟨⟨hid, _⟩, _⟩ := awaitReply_same hd
    obtain ⟨_, hsound⟩ := ho.supplied.driven c u ref wf approved point run hc hp hobject
    apply h.drives hc hp hobject hid
    intro hkey
    have hanswers := hg u hc hkey
    rw [hp] at hanswers
    exact (hanswers run hobject).lives hsound hd
  | commits c u now ref dumped seen hc hp =>
    refine h.commits hk hc hp (fun hkey => ?_) now
    have hserial := hg u hc hkey
    rwa [hp] at hserial
  | restarts => exact absurd hg not_false

omit [DecidableEq C] [StateDict D] [DecidableEq D] in
theorem idempotent_booted {store : RunRows D} (hrows : ∀ row ∈ store.rows, row.kind ≠ workflowKind) :
    Idempotent workflows k (booted C store) where
  undecided := rfl
  calls _ _ h := by cases h
  own row hr hkind := absurd hkind (hrows row hr)
  free := by
    rintro c id ⟨t, run, h, _⟩
    cases h
  alone := by
    rintro c c' id ⟨t, run, h, _⟩
    cases h
  places _ _ h := by cases h
  phase := by
    have hnone : getRunByIdempotencyKey store workflowKind k = none := by
      cases hrow : getRunByIdempotencyKey store workflowKind k with
      | none => rfl
      | some row => exact absurd (getByKey_mem hrow).2.1 (hrows row (getByKey_mem hrow).1)
    refine ⟨.idle, rfl, by simp [booted, hnone], fun _ _ h => (by cases h), fun _ h => ?_⟩
    rcases h with h | h <;> cases h

theorem idempotent_calls {store : RunRows D} (hother : ∀ id run, ¬ StoredAt store id run)
    (hrows : ∀ row ∈ store.rows, row.kind ≠ workflowKind) (hk : k ≠ "") {s : Registry C D}
    (h : Reaches (RegistryCalls.step workflows json) (Deduplicated workflows json k)
      (booted C store) s) :
    s.executed.countP (fun e => e.key = some k) ≤ 1 ∧
    ∀ c t, s.tasks c = some t → t.call.key = some k → (∀ e, t.pc ≠ .raised e) ∧
      ∀ ref, t.pc = .returned ref → ∃ i run row, ref = some i ∧ s.objects[i]? = some run ∧
        getRunByIdempotencyKey s.store workflowKind k = some row ∧ run.id = row.id := by
  have hbooted : Reaches (RegistryCalls.step workflows json) (Undisturbed json) (booted C store)
      (booted C store) := Reaches.refl _
  have hinv : Orderly workflows s ∧ Idempotent workflows k s := by
    refine h.invariant (I := fun u => Orderly workflows u ∧ Idempotent workflows k u)
      ⟨Orderly.reached hother hbooted, idempotent_booted hrows⟩ fun u a v hu hg hs => ?_
    exact ⟨hu.1.step (hu.2.undisturbed hu.1 hg) hs, hu.2.step hu.1 hk hg hs⟩
  obtain ⟨_, hidempotent⟩ := hinv
  refine ⟨?_, fun c t hc hkey => ⟨fun e hp => ?_, fun ref hp => ?_⟩⟩
  · obtain ⟨p, hphase⟩ := hidempotent.phase
    rw [hphase.executed]
    cases p <;> simp [Phase.executed]
  · have hplace := hidempotent.places c t hc
    simp only [Place, hp] at hplace
    exact hplace hkey
  · have hplace := hidempotent.places c t hc
    simp only [Place, hp] at hplace
    obtain ⟨i, id, hi, ⟨run, hrun, rfl⟩, row, hrow, hid⟩ := hplace hkey
    exact ⟨i, run, row, hi, hrun, hrow, hid.symm⟩

end Runs

section Decidable

variable [DecidableEq D] [StateDict D]

instance (s : Registry C D) (r : Reply D) (pc : Pc D) : Decidable (Answered s r pc) :=
  match pc with
  | .driving ref wf approved point =>
    inferInstanceAs (Decidable (∀ run ∈ s.objects[ref]?, ReplyAnswers wf ⟨approved, run, point⟩ r))
  | .looking _ | .looked _ | .loading _ | .loaded _ | .storing _ _ | .committing _ _ _ | .returned _
  | .raised _ | .lost => isTrue trivial

omit [DecidableEq C] [StateDict D] in
instance (json : D → Option D) (pc : Pc D) : Decidable (Serializable json pc) :=
  match pc with
  | .committing _ dumped _ => inferInstanceAs (Decidable (roundTrip json dumped).isSome)
  | .looking _ | .looked _ | .loading _ | .loaded _ | .driving _ _ _ _ | .storing _ _ | .returned _
  | .raised _ | .lost => isTrue trivial

instance (workflows : Table WorkflowDef.name) (k : String) (call : Call D) :
    Decidable (Launches workflows k call) := by
  unfold Launches
  split <;> infer_instance

instance (pc : Pc D) : Decidable pc.Missed :=
  match pc with
  | .looked none | .driving _ _ _ _ | .storing _ _ | .committing _ _ _ => isTrue trivial
  | .looking _ | .looked (some _) | .loading _ | .loaded _ | .returned _ | .raised _ | .lost =>
    isFalse id

instance (key : String) (pc : Pc D) : Decidable (pc = .looking key) :=
  match pc with
  | .looking key' => decidable_of_iff (key' = key) (by simp)
  | .looked _ | .loading _ | .loaded _ | .driving _ _ _ _ | .storing _ _ | .committing _ _ _
  | .returned _ | .raised _ | .lost => isFalse (by simp)

instance (ref : Option ℕ) (pc : Pc D) : Decidable (pc = .returned ref) :=
  match pc with
  | .returned ref' => decidable_of_iff (ref' = ref) (by simp)
  | .looking _ | .looked _ | .loading _ | .loaded _ | .driving _ _ _ _ | .storing _ _
  | .committing _ _ _ | .raised _ | .lost => isFalse (by simp)

instance [Fintype C] (workflows : Table WorkflowDef.name) (json : D → Option D) (k : String)
    (s : Registry C D) (a : Action C D) : Decidable (Deduplicated workflows json k s a) :=
  match a with
  | .begins _ call runId _ => inferInstanceAs (Decidable (Launches workflows k call ∧ Fresh s runId))
  | .reads c => inferInstanceAs (Decidable (∀ t ∈ s.tasks c, t.pc = .looking k →
      ∀ c', ∀ t' ∈ s.tasks c', t'.call.key = some k → ¬ t'.pc.Missed))
  | .continues _ runId _ => inferInstanceAs (Decidable (Fresh s runId))
  | .replies c r =>
    inferInstanceAs (Decidable (∀ t ∈ s.tasks c, t.call.key = some k → Answered s r t.pc))
  | .commits c _ =>
    inferInstanceAs (Decidable (∀ t ∈ s.tasks c, t.call.key = some k → Serializable json t.pc))
  | .restart => isFalse id

end Decidable

-- the two callers' numbers are literals of it
local instance twoCallers : NeZero 2 := ⟨by decide⟩

def launch (c : Fin 2) : Action (Fin 2) Unit :=
  .begins c (.runWorkflow "grants" () (some "key")) "unused" "now"

/-- Both calls look the key up before either has stored its run. -/
def bothMiss : List (Action (Fin 2) Unit) :=
  [launch 0, launch 1, .reads 0, .reads 1, .continues 0 "r" "now", .continues 1 "q" "now", .reads 0,
    .commits 0 0, .reads 1, .commits 1 0]

theorem both_miss_execute : ∃ s ∈ exec (step gatedOnly some) (booted (Fin 2) (Table.empty _)) bothMiss,
    s.executed.countP (fun e => e.key = some "key") = 2 ∧
    (getRunByIdempotencyKey s.store workflowKind "key").map AgentRun.id = some "r" ∧
    (∃ t ∈ s.tasks 1, t.pc = .returned (some 1)) ∧ (s.objects[1]?).map WorkflowRun.id = some "q" := by
  decide

/-- The retry arrives while the first call runs, and looks the key up once its run is stored. -/
def retried : List (Action (Fin 2) Unit) :=
  [launch 0, .reads 0, .continues 0 "r" "now", launch 1, .reads 0, .commits 0 0, .reads 1,
    .continues 1 "unused" "now"]

theorem idempotent_calls_retried : ∃ s ∈ exec (step gatedOnly some) (booted (Fin 2) (Table.empty _))
    retried, s.executed.countP (fun e => e.key = some "key") ≤ 1 ∧
    ∀ c t, s.tasks c = some t → t.call.key = some "key" → (∀ e, t.pc ≠ .raised e) ∧
      ∀ ref, t.pc = .returned ref → ∃ i run row, ref = some i ∧ s.objects[i]? = some run ∧
        getRunByIdempotencyKey s.store workflowKind "key" = some row ∧ run.id = row.id := by
  have hrun : ∃ s ∈ exec (step gatedOnly some) (booted (Fin 2) (Table.empty _)) retried,
      Obeys (step gatedOnly some) (Deduplicated gatedOnly some "key")
        (booted (Fin 2) (Table.empty _)) retried := by decide
  obtain ⟨s, hs, hobeys⟩ := hrun
  have hother : ∀ id (run : WorkflowRun Unit), ¬ StoredAt (Table.empty _) id run := by
    rintro id run ⟨⟩
  exact ⟨s, hs, idempotent_calls hother (by simp [Table.empty]) (by decide)
    (reaches_of_exec hs hobeys)⟩

end Workbench.RegistryCalls
