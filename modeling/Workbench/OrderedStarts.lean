import Workbench.InProcessQueue

namespace Workbench.InProcessQueue

open JobQueue (Job)
open Semaphores Semaphores.Semaphore Transitions

variable {P : Type} {s t : State P} {maxInflight i : ℕ} {turn : List ℕ} {task : Task P}

/-- `turn` has the task whose turn it is while it has its permit and has not begun. -/
structure Scheduled (maxInflight : ℕ) (turn : List ℕ) (s : State P) : Prop where
  slots : s.sem.permits + s.running + turn.length = maxInflight
  live : s.sem.Live
  order : ∃ us, s.sem.Queue s.wakes us ∧
    s.begun ++ turn ++ s.wakes ++ us ++ s.starts = List.range s.created.length

theorem running_setPc (pc : Pc) (ht : s.created[i]? = some task) :
    (s.setPc i task pc).running + (if task.pc = .handling then 1 else 0) =
      s.running + (if pc = .handling then 1 else 0) := by
  obtain ⟨hlt, hget⟩ := List.getElem?_eq_some_iff.mp ht
  have hset := List.countP_set (p := fun task : Task P => decide (task.pc = .handling))
    (a := { task with pc }) hlt
  have hle := List.boole_getElem_le_countP (p := fun task : Task P => decide (task.pc = .handling)) hlt
  simp only [hget, decide_eq_true_eq] at hset hle
  unfold State.running State.setPc
  dsimp only
  rw [hset]
  omega

theorem wakes_append (s : State P) (handles : List Handle) :
    State.wakes { s with ready := s.ready ++ handles } =
      s.wakes ++ State.wakes { s with ready := handles } := List.filterMap_append

theorem starts_append (s : State P) (handles : List Handle) :
    State.starts { s with ready := s.ready ++ handles } =
      s.starts ++ State.starts { s with ready := handles } := List.filterMap_append

theorem wakes_setSem (s : State P) (sem : Semaphore ℕ) :
    (s.setSem sem).wakes = s.wakes ++ woken s.sem sem := by
  unfold State.setSem
  rw [wakes_append { s with sem := sem }]
  simp [State.wakes, List.filterMap_map]

theorem starts_setSem (s : State P) (sem : Semaphore ℕ) : (s.setSem sem).starts = s.starts := by
  unfold State.setSem
  rw [starts_append { s with sem := sem }]
  simp [State.starts, List.filterMap_map]

theorem wakes_finish (error : Option String) :
    (s.finish i task error).wakes = s.wakes ++ woken s.sem s.sem.release := by
  unfold State.finish
  dsimp only
  rw [wakes_append, wakes_setSem]
  exact List.append_nil _

theorem starts_finish (error : Option String) : (s.finish i task error).starts = s.starts := by
  unfold State.finish
  dsimp only
  rw [starts_append, starts_setSem]
  exact List.append_nil _

theorem Scheduled.nodup {us : List ℕ}
    (h : s.begun ++ turn ++ s.wakes ++ us ++ s.starts = List.range s.created.length) :
    (s.wakes ++ us).Nodup := by
  have hnodup := List.nodup_range (n := s.created.length)
  rw [← h] at hnodup
  apply List.Nodup.sublist _ hnodup
  rw [List.append_assoc (s.begun ++ turn)]
  exact (List.sublist_append_right _ _).trans (List.sublist_append_left _ _)

theorem Scheduled.finish (h : Scheduled maxInflight [] s) (task : Task P) (error : Option String)
    (ht : s.created[i]? = some task) (hp : task.pc = .handling) :
    Scheduled maxInflight [] (s.finish i task error) := by
  obtain ⟨us, hqueue, horder⟩ := h.order
  obtain ⟨vs, hus, hnext⟩ := hqueue.release (Scheduled.nodup horder)
  constructor
  · have hpermits := s.sem.release_permits
    have hrunning := running_setPc (.finished error) ht
    have hslots := h.slots
    rw [if_pos hp, if_neg (by simp)] at hrunning
    rw [List.length_nil] at hslots ⊢
    change s.sem.release.permits + (s.setPc i task (.finished error)).running + 0 = maxInflight
    omega
  · exact live_release s.sem
  · refine ⟨vs, ?_, ?_⟩
    · rw [wakes_finish]
      exact hnext
    · rw [wakes_finish, starts_finish]
      change _ = List.range (s.created.set i _).length
      rw [List.length_set, ← horder]
      conv_rhs => rw [hus]
      simp only [List.append_assoc]
      rfl

theorem Scheduled.begins (h : Scheduled maxInflight [i] s) (ht : s.created[i]? = some task)
    (hp : task.pc = .pending) :
    Scheduled maxInflight [] { s.setPc i task .handling with begun := s.begun ++ [i] } := by
  obtain ⟨us, hqueue, horder⟩ := h.order
  constructor
  · have hslots := h.slots
    have hrunning := running_setPc .handling ht
    rw [if_neg (by simp [hp]), if_pos rfl] at hrunning
    rw [List.length_singleton] at hslots
    rw [List.length_nil]
    change s.sem.permits + (s.setPc i task .handling).running + 0 = maxInflight
    omega
  · exact h.live
  · refine ⟨us, hqueue, ?_⟩
    change s.begun ++ [i] ++ [] ++ s.wakes ++ us ++ s.starts = List.range (s.created.set i _).length
    rw [List.length_set, List.append_nil]
    exact horder

theorem Scheduled.dispatch (h : Scheduled maxInflight [i] s) (ht : s.created[i]? = some task)
    (hp : task.pc = .pending) : Scheduled maxInflight [] (s.dispatch i task) := by
  have hbegins := h.begins ht hp
  unfold State.dispatch
  dsimp only
  split_ifs
  · exact hbegins
  · obtain ⟨hlt, -⟩ := List.getElem?_eq_some_iff.mp ht
    have hset : (s.created.set i { task with pc := .handling })[i]? =
        some { task with pc := .handling } := List.getElem?_set_self hlt
    exact hbegins.finish { task with pc := .handling } none hset rfl

structure Kept (s : State P) : Prop where
  pcs : ∀ i task, s.created[i]? = some task → (task.pc = .pending ↔ i ∉ s.begun)
  held : ∀ i, unfinished s i = true → i ∈ s.tasks
  known : ∀ i ∈ s.tasks, i < s.created.length
  left : ∀ i, .discard i ∈ s.ready → i < s.created.length ∧ unfinished s i = false

theorem unfinished_iff : unfinished s i = true ↔
    ∃ task, s.created[i]? = some task ∧ ∀ error, task.pc ≠ .finished error := by
  unfold unfinished
  split
  · rename_i job error h
    simp [h]
  · rename_i task hne h
    simp only [true_iff]
    refine ⟨task, h, ?_⟩
    intro error he
    obtain ⟨job, pc⟩ := task
    exact hne job error (by rw [← he])
  · rename_i h
    simp [h]

theorem getElem?_setPc (ht : s.created[i]? = some task) (pc : Pc) (j : ℕ) :
    (s.setPc i task pc).created[j]? = if i = j then some { task with pc } else s.created[j]? := by
  obtain ⟨hlt, -⟩ := List.getElem?_eq_some_iff.mp ht
  unfold State.setPc
  dsimp only
  rw [List.getElem?_set, if_pos hlt]

theorem unfinished_setPc (ht : s.created[i]? = some task) (pc : Pc) (hpc : ∀ error, pc ≠ .finished error) (hlive : unfinished s i = true)
    (j : ℕ) : unfinished (s.setPc i task pc) j = unfinished s j := by
  by_cases hj : i = j
  · subst hj
    rw [hlive, unfinished_iff]
    exact ⟨_, by rw [getElem?_setPc ht, if_pos rfl], hpc⟩
  · unfold unfinished
    rw [getElem?_setPc ht, if_neg hj]

theorem unfinished_finished (ht : s.created[i]? = some task) (error : Option String) (j : ℕ) :
    unfinished (s.setPc i task (.finished error)) j = (decide (i ≠ j) && unfinished s j) := by
  unfold unfinished
  rw [getElem?_setPc ht]
  by_cases hj : i = j
  · rw [if_pos hj]
    simp [hj]
  · rw [if_neg hj]
    simp [hj]

theorem Kept.unfinished_of_pending (h : Kept s) (ht : s.created[i]? = some task)
    (hp : i ∉ s.begun) : unfinished s i = true := by
  have hpending := (h.pcs i task ht).mpr hp
  exact unfinished_iff.mpr ⟨task, ht, fun error he => by rw [hpending] at he; cases he⟩

theorem unfinished_of_handling (ht : s.created[i]? = some task) (hp : task.pc = .handling) :
    unfinished s i = true :=
  unfinished_iff.mpr ⟨task, ht, fun error he => by rw [hp] at he; cases he⟩

theorem Kept.finish (h : Kept s) (task : Task P) (error : Option String)
    (ht : s.created[i]? = some task) (hp : task.pc = .handling) : Kept (s.finish i task error) := by
  have hsame : ∀ j, unfinished (s.finish i task error) j = (decide (i ≠ j) && unfinished s j) :=
    unfinished_finished ht error
  constructor
  · intro j other hj
    change (s.setPc i task (.finished error)).created[j]? = some other at hj
    rw [getElem?_setPc ht] at hj
    split_ifs at hj with he
    · cases hj
      subst he
      have hbegun := (h.pcs i task ht).not.mp (by simp [hp])
      simp only [reduceCtorEq, false_iff]
      exact hbegun
    · exact h.pcs j other hj
  · intro j hj
    rw [hsame, Bool.and_eq_true] at hj
    exact h.held j hj.2
  · intro j hj
    change j < (s.created.set i _).length
    rw [List.length_set]
    exact h.known j hj
  · intro j hj
    rw [hsame]
    change j < (s.created.set i _).length ∧ _
    rw [List.length_set]
    unfold State.finish State.setSem at hj
    simp only [List.mem_append, List.mem_map, reduceCtorEq, and_false, exists_false, or_false,
      List.mem_singleton, Handle.discard.injEq] at hj
    cases hj with
    | inl hready =>
      obtain ⟨hlt, hleft⟩ := h.left j hready
      exact ⟨hlt, by rw [hleft, Bool.and_false]⟩
    | inr he =>
      subst he
      obtain ⟨hlt, -⟩ := List.getElem?_eq_some_iff.mp ht
      exact ⟨hlt, by simp⟩

theorem Kept.begins (h : Kept s) (ht : s.created[i]? = some task) (hp : i ∉ s.begun) :
    Kept { s.setPc i task .handling with begun := s.begun ++ [i] } := by
  have hsame : ∀ j, unfinished { s.setPc i task .handling with begun := s.begun ++ [i] } j =
      unfinished s j :=
    unfinished_setPc ht .handling nofun (h.unfinished_of_pending ht hp)
  constructor
  · intro j other hj
    change (s.setPc i task .handling).created[j]? = some other at hj
    rw [getElem?_setPc ht] at hj
    split_ifs at hj with he
    · cases hj
      simp [he]
    · rw [h.pcs j other hj]
      simp [Ne.symm he]
  · intro j hj
    rw [hsame] at hj
    exact h.held j hj
  · intro j hj
    change j < (s.created.set i _).length
    rw [List.length_set]
    exact h.known j hj
  · intro j hj
    rw [hsame]
    change j < (s.created.set i _).length ∧ _
    rw [List.length_set]
    exact h.left j hj

theorem Kept.dispatch (h : Kept s) (ht : s.created[i]? = some task) (hp : i ∉ s.begun) :
    Kept (s.dispatch i task) := by
  have hbegins := h.begins ht hp
  unfold State.dispatch
  dsimp only
  split_ifs
  · exact hbegins
  · obtain ⟨hlt, -⟩ := List.getElem?_eq_some_iff.mp ht
    have hset : (s.created.set i { task with pc := .handling })[i]? =
        some { task with pc := .handling } := List.getElem?_set_self hlt
    exact hbegins.finish { task with pc := .handling } none hset rfl

theorem Kept.moved (h : Kept s) (hcreated : t.created = s.created) (hbegun : t.begun = s.begun)
    (htasks : t.tasks = s.tasks) (hready : ∀ i, .discard i ∈ t.ready → .discard i ∈ s.ready) :
    Kept t := by
  have hsame : ∀ j, unfinished t j = unfinished s j := by
    intro j
    unfold unfinished
    rw [hcreated]
  constructor
  · intro j other hj
    rw [hcreated] at hj
    rw [hbegun]
    exact h.pcs j other hj
  · intro j hj
    rw [hsame] at hj
    rw [htasks]
    exact h.held j hj
  · rw [hcreated, htasks]
    exact h.known
  · intro j hj
    rw [hsame, hcreated]
    exact h.left j (hready j hj)

theorem Scheduled.fresh (h : Scheduled maxInflight [i] s) : i ∉ s.begun := by
  obtain ⟨us, -, horder⟩ := h.order
  have hnodup := List.nodup_range (n := s.created.length)
  rw [← horder, List.append_assoc, List.append_assoc, List.append_assoc] at hnodup
  intro hin
  exact (List.nodup_append.mp hnodup).2.2 i hin i (List.mem_append_left _ List.mem_cons_self) rfl

theorem Scheduled.enqueue (h : Scheduled maxInflight [] s) (job : Job P) :
    Scheduled maxInflight [] { s with
      tasks := s.created.length :: s.tasks, created := s.created ++ [⟨job, .pending⟩],
      ready := s.ready ++ [.start s.created.length] } := by
  obtain ⟨us, hqueue, horder⟩ := h.order
  constructor
  · have hslots := h.slots
    unfold State.running at hslots ⊢
    rw [List.countP_append, List.countP_singleton]
    simpa using hslots
  · exact h.live
  · refine ⟨us, ?_, ?_⟩
    · have hwakes := wakes_append s [.start s.created.length]
      change s.sem.Queue (State.wakes { s with ready := s.ready ++ [.start s.created.length] }) us
      rw [hwakes]
      change s.sem.Queue (s.wakes ++ []) us
      rw [List.append_nil]
      exact hqueue
    · change s.begun ++ [] ++ State.wakes { s with ready := s.ready ++ [.start s.created.length] } ++
        us ++ State.starts { s with ready := s.ready ++ [.start s.created.length] } = _
      rw [wakes_append, starts_append]
      change s.begun ++ [] ++ (s.wakes ++ []) ++ us ++ (s.starts ++ [s.created.length]) = _
      rw [List.append_nil s.wakes, ← List.append_assoc, horder, List.length_append,
        List.length_singleton, List.range_succ]

theorem Scheduled.waits (h : Scheduled maxInflight [] s) {rest : List Handle}
    (hr : s.ready = .start i :: rest) (ha : (s.sem.acquire i).2 = false) :
    Scheduled maxInflight [] { s with sem := (s.sem.acquire i).1, ready := rest } := by
  obtain ⟨us, hqueue, horder⟩ := h.order
  have hwakes : s.wakes = State.wakes { s with ready := rest } := by simp [State.wakes, hr]
  have hstarts : s.starts = i :: State.starts { s with ready := rest } := by
    simp [State.starts, hr]
  constructor
  · have hslots := h.slots
    have hpermits := s.sem.acquire_permits i
    rw [ha, Bool.toNat_false, Nat.add_zero] at hpermits
    rw [← hpermits] at hslots
    exact hslots
  · exact h.live.acquire i
  · rcases hqueue.acquire (c := i) with ⟨-, hnext⟩ | ⟨htrue, -⟩
    · refine ⟨us ++ [i], ?_, ?_⟩
      · rw [hwakes] at hnext
        exact hnext
      · rw [hwakes, hstarts] at horder
        rw [← List.append_assoc, List.append_assoc _ [i]]
        exact horder
    · rw [ha] at htrue
      cases htrue

theorem Scheduled.acquires (h : Scheduled maxInflight [] s) {rest : List Handle}
    (hr : s.ready = .start i :: rest) (ha : (s.sem.acquire i).2 = true) :
    Scheduled maxInflight [i] { s with sem := (s.sem.acquire i).1, ready := rest } := by
  obtain ⟨us, hqueue, horder⟩ := h.order
  have hwakes : s.wakes = State.wakes { s with ready := rest } := by simp [State.wakes, hr]
  have hstarts : s.starts = i :: State.starts { s with ready := rest } := by
    simp [State.starts, hr]
  constructor
  · have hslots := h.slots
    have hpermits := s.sem.acquire_permits i
    rw [ha, Bool.toNat_true] at hpermits
    rw [← hpermits, List.length_nil] at hslots
    rw [List.length_singleton]
    change (s.sem.acquire i).1.permits + s.running + 1 = maxInflight
    omega
  · exact h.live.acquire i
  · rcases hqueue.acquire (c := i) with ⟨hfalse, -⟩ | ⟨-, hnone, rfl, hnext⟩
    · rw [ha] at hfalse
      cases hfalse
    · refine ⟨[], ?_, ?_⟩
      · rw [hwakes] at hnone
        change Queue _ (State.wakes { s with ready := rest }) []
        rw [hnone]
        exact hnext
      · rw [hstarts, hnone] at horder
        rw [hwakes] at hnone
        change s.begun ++ [i] ++ State.wakes { s with ready := rest } ++ [] ++
          State.starts { s with ready := rest } = _
        rw [hnone]
        simpa using horder

theorem Scheduled.resumes (h : Scheduled maxInflight [] s) {rest : List Handle}
    {sem : Semaphore ℕ} (hr : s.ready = .wake i :: rest) (hs : s.sem.resume i = some sem) :
    Scheduled maxInflight [i] (State.setSem { s with ready := rest } sem) := by
  obtain ⟨us, hqueue, horder⟩ := h.order
  have hnodup := Scheduled.nodup horder
  have hwakes : s.wakes = i :: State.wakes { s with ready := rest } := by simp [State.wakes, hr]
  have hstarts : s.starts = State.starts { s with ready := rest } := by
    simp [State.starts, hr]
  rw [hwakes] at hqueue hnodup
  obtain ⟨vs, hus, hnext⟩ := hqueue.resume hnodup hs
  constructor
  · have hslots := h.slots
    have hpermits := resume_permits hs
    rw [List.length_nil] at hslots
    rw [List.length_singleton]
    change sem.permits + s.running + 1 = maxInflight
    omega
  · exact live_resume hs
  · refine ⟨vs, ?_, ?_⟩
    · rw [wakes_setSem]
      exact hnext
    · rw [wakes_setSem, starts_setSem]
      change s.begun ++ [i] ++ (State.wakes { s with ready := rest } ++ woken s.sem sem) ++ vs ++
        State.starts { s with ready := rest } = List.range s.created.length
      rw [← horder, ← hstarts, hwakes]
      conv_rhs => rw [hus]
      simp only [List.append_assoc, List.cons_append, List.nil_append]

structure Orderly (maxInflight : ℕ) (s : State P) : Prop where
  scheduled : Scheduled maxInflight [] s
  kept : Kept s

theorem Orderly.dispatch (h : Scheduled maxInflight [i] s) (hkept : Kept s)
    (ht : s.created[i]? = some task) : Orderly maxInflight (s.dispatch i task) :=
  ⟨h.dispatch ht ((hkept.pcs i task ht).mpr h.fresh), hkept.dispatch ht h.fresh⟩

theorem Kept.enqueue (h : Kept s) (hbegun : s.created.length ∉ s.begun) (job : Job P) :
    Kept { s with
      tasks := s.created.length :: s.tasks, created := s.created ++ [⟨job, .pending⟩],
      ready := s.ready ++ [.start s.created.length] } := by
  have hnew : ∀ j, (s.created ++ [⟨job, .pending⟩])[j]? =
      if j = s.created.length then some ⟨job, .pending⟩ else s.created[j]? := by
    intro j
    rw [List.getElem?_append]
    split_ifs with hlt he he
    · omega
    · rfl
    · simp [he]
    · rw [List.getElem?_eq_none (by simp; omega), List.getElem?_eq_none (by omega)]
  have hsame : ∀ j, j ≠ s.created.length → unfinished { s with
      tasks := s.created.length :: s.tasks, created := s.created ++ [⟨job, .pending⟩],
      ready := s.ready ++ [.start s.created.length] } j = unfinished s j := by
    intro j hj
    unfold unfinished
    dsimp only
    rw [hnew, if_neg hj]
  constructor
  · intro j task hj
    rw [hnew] at hj
    split_ifs at hj with he
    · cases hj
      simpa [he] using hbegun
    · exact h.pcs j task hj
  · intro j hj
    by_cases he : j = s.created.length
    · exact he ▸ List.mem_cons_self
    · rw [hsame j he] at hj
      exact List.mem_cons_of_mem _ (h.held j hj)
  · intro j hj
    rw [List.length_append, List.length_singleton]
    cases List.mem_cons.mp hj with
    | inl he => omega
    | inr htask => exact Nat.lt_succ_of_lt (h.known j htask)
  · intro j hj
    simp only [List.mem_append, List.mem_singleton, reduceCtorEq, or_false] at hj
    obtain ⟨hlt, hleft⟩ := h.left j hj
    rw [hsame j (by omega), List.length_append]
    exact ⟨by omega, hleft⟩

theorem Orderly.step {a : Action P} (h : Orderly maxInflight s) (hs : step s a = some t) :
    Orderly maxInflight t := by
  obtain ⟨hscheduled, hkept⟩ := h
  have hrest : ∀ {handle : Handle} {rest : List Handle}, s.ready = handle :: rest →
      ∀ i, .discard i ∈ rest → .discard i ∈ s.ready := by
    intro handle rest hr i hi
    rw [hr]
    exact List.mem_cons_of_mem handle hi
  cases step_cases hs with
  | registers kind =>
    exact ⟨⟨hscheduled.slots, hscheduled.live, hscheduled.order⟩,
      hkept.moved rfl rfl rfl fun _ hi => hi⟩
  | enqueues job =>
    refine ⟨hscheduled.enqueue job, hkept.enqueue ?_ job⟩
    obtain ⟨us, -, horder⟩ := hscheduled.order
    intro hin
    have hlt : s.created.length ∈ List.range s.created.length := by
      rw [← horder]
      simp [hin]
    exact absurd (List.mem_range.mp hlt) (Nat.lt_irrefl _)
  | waits i rest hr ha =>
    exact ⟨hscheduled.waits hr ha, hkept.moved rfl rfl rfl (hrest hr)⟩
  | starts i rest task hr ha ht =>
    exact .dispatch (hscheduled.acquires hr ha) (hkept.moved rfl rfl rfl (hrest hr)) ht
  | wakes i rest sem task hr hresume ht =>
    refine .dispatch (hscheduled.resumes hr hresume) (hkept.moved rfl rfl rfl ?_) ht
    intro j hj
    unfold State.setSem at hj
    simp only [List.mem_append, List.mem_map, reduceCtorEq, and_false, exists_false, or_false] at hj
    exact hrest hr j hj
  | discards i rest hr =>
    have hwakes : s.wakes = State.wakes { s with ready := rest } := by simp [State.wakes, hr]
    have hstarts : s.starts = State.starts { s with ready := rest } := by simp [State.starts, hr]
    obtain ⟨us, hqueue, horder⟩ := hscheduled.order
    rw [hwakes] at hqueue horder
    rw [hstarts] at horder
    have hmoved : Kept { s with ready := rest } := hkept.moved rfl rfl rfl (hrest hr)
    refine ⟨⟨hscheduled.slots, hscheduled.live, us, hqueue, horder⟩, hmoved.pcs, ?_, ?_, hmoved.left⟩
    swap
    · exact fun j hj => hkept.known j (List.mem_of_mem_erase hj)
    intro j hj
    have hne : j ≠ i := by
      intro he
      have hleft := (hkept.left i (by rw [hr]; exact List.mem_cons_self)).2
      rw [← he] at hleft
      exact absurd (hleft.symm.trans hj) Bool.false_ne_true
    exact (List.mem_erase_of_ne hne).mpr (hkept.held j hj)
  | ends i task error ht hp => exact
    ⟨hscheduled.finish task error ht hp, hkept.finish task error ht hp⟩
  | asks hd =>
    exact ⟨⟨hscheduled.slots, hscheduled.live, hscheduled.order⟩,
      hkept.moved rfl rfl rfl fun _ hi => hi⟩
  | returns asked pending hd =>
    exact ⟨⟨hscheduled.slots, hscheduled.live, hscheduled.order⟩,
      hkept.moved rfl rfl rfl fun _ hi => hi⟩

theorem orderly_init (P : Type) (maxInflight : ℕ) : Orderly maxInflight (init P maxInflight) := by
  refine ⟨⟨rfl, live_created maxInflight, [], queue_created maxInflight, rfl⟩, ?_, ?_, ?_, ?_⟩
  · exact nofun
  · exact nofun
  · exact nofun
  · exact nofun

theorem orderly_reached (hreach : Reaches step always (init P maxInflight) s) :
    Orderly maxInflight s :=
  hreach.invariant (I := Orderly maxInflight) (orderly_init P maxInflight)
    fun _ _ _ h _ hs => h.step hs

/-- A job whose permit does not come would have to wait for one that no task will give back. -/
theorem Orderly.all_begun (h : Orderly maxInflight s) (hpos : 1 ≤ maxInflight)
    (hready : s.ready = []) (hrunning : s.running = 0) :
    s.begun = List.range s.created.length := by
  obtain ⟨us, hqueue, horder⟩ := h.scheduled.order
  have hwakes : s.wakes = [] := by simp [State.wakes, hready]
  have hstarts : s.starts = [] := by simp [State.starts, hready]
  rw [hwakes] at hqueue horder
  have hslots := h.scheduled.slots
  rw [hrunning, Semaphore.permits, hqueue.handed, List.length_nil] at hslots
  have hnone : us = [] := h.scheduled.live.no_waiter hqueue (by omega)
  rw [hnone, hstarts] at horder
  simpa using horder

theorem jobs_start_in_order (P : Type) (maxInflight : ℕ) (s : State P)
    (hreach : Reaches step always (init P maxInflight) s) :
    s.begun = List.range s.begun.length ∧ s.begun.length ≤ s.created.length ∧
      s.running ≤ maxInflight ∧
      (1 ≤ maxInflight → s.ready = [] → s.running = 0 →
        s.begun.length = s.created.length ∧
          ∀ task ∈ s.created, ∃ error, task.pc = .finished error) := by
  have horderly := orderly_reached hreach
  obtain ⟨us, -, horder⟩ := horderly.scheduled.order
  have hwithin : s.begun <+: List.range s.created.length := by
    refine ⟨s.wakes ++ us ++ s.starts, ?_⟩
    rw [← horder]
    simp
  have hle : s.begun.length ≤ s.created.length := by
    have hlength := hwithin.length_le
    rw [List.length_range] at hlength
    exact hlength
  refine ⟨?_, hle, ?_, ?_⟩
  · have htake := List.prefix_iff_eq_take.mp hwithin
    rw [List.take_range, Nat.min_eq_left hle] at htake
    exact htake
  · have hslots := horderly.scheduled.slots
    omega
  · intro hpos hready hrunning
    have hall := horderly.all_begun hpos hready hrunning
    refine ⟨by rw [hall, List.length_range], ?_⟩
    intro task hmem
    obtain ⟨i, hlt, hget⟩ := List.mem_iff_getElem.mp hmem
    have hbegun : i ∈ s.begun := by
      rw [hall]
      exact List.mem_range.mpr hlt
    have hpending := (horderly.kept.pcs i task (by rw [List.getElem?_eq_getElem hlt, hget])).not.mpr
      (not_not.mpr hbegun)
    cases hpc : task.pc with
    | pending => exact absurd hpc hpending
    | handling =>
      have hnone := List.countP_eq_zero.mp hrunning task hmem
      simp [hpc] at hnone
    | finished error => exact ⟨error, rfl⟩

def busyRun : List (Action Unit) :=
  let job : Job Unit := ⟨"echo", "r", (), 0, rfl, rfl⟩
  [.register "echo", .enqueue job, .enqueue job, .turn, .turn, .aclose, .handled 0 .returned]

def busy : State Unit := (exec step (init Unit 1) busyRun).getD (init Unit 1)

theorem busy_reached : Reaches step always (init Unit 1) busy := by
  have hrun : exec step (init Unit 1) busyRun = some busy := rfl
  exact reaches_of_exec hrun (obeys_always (init Unit 1) busyRun)

theorem jobs_start_in_order_busy :
    busy.begun = List.range busy.begun.length ∧ busy.running ≤ 1 ∧ busy.created.length = 2 := by
  obtain ⟨hbegun, -, hrunning, -⟩ := jobs_start_in_order Unit 1 busy busy_reached
  exact ⟨hbegun, hrunning, rfl⟩

def Covered (s : State P) : Prop :=
  match s.drain with
  | .unasked => True
  | .waiting asked pending => asked ≤ s.created.length ∧
      (∀ i ∈ pending, i < asked) ∧ ∀ i < asked, unfinished s i = true → i ∈ pending
  | .closed asked still => asked ≤ s.created.length ∧
      ∀ i < asked, unfinished s i = true → i ∈ still

theorem created_dispatch (s : State P) (i : ℕ) (task : Task P) :
    ∃ pc, (s.dispatch i task).created = s.created.set i { task with pc } := by
  unfold State.dispatch
  dsimp only
  split_ifs
  · exact ⟨.handling, rfl⟩
  · exact ⟨.finished none, List.set_set _⟩

theorem unfinished_of_set {pc : Pc} (hlive : unfinished s i = true)
    (ht : t.created = s.created.set i { task with pc }) :
    s.created.length ≤ t.created.length ∧
      ∀ j < s.created.length, unfinished t j = true → unfinished s j = true := by
  refine ⟨by rw [ht, List.length_set], ?_⟩
  intro j _ hj
  by_cases he : i = j
  · exact he ▸ hlive
  · unfold unfinished at hj ⊢
    rw [ht, List.getElem?_set_ne he] at hj
    exact hj

theorem unfinished_of_step {a : Action P} (h : Orderly maxInflight s) (hs : step s a = some t) :
    s.created.length ≤ t.created.length ∧
      ∀ i < s.created.length, unfinished t i = true → unfinished s i = true := by
  cases step_cases hs with
  | registers kind => exact ⟨Nat.le_refl _, fun _ _ hi => hi⟩
  | enqueues job =>
    refine ⟨by simp, ?_⟩
    intro i hi hu
    unfold unfinished at hu ⊢
    rw [List.getElem?_append_left hi] at hu
    exact hu
  | waits i rest hr ha => exact ⟨Nat.le_refl _, fun _ _ hi => hi⟩
  | starts i rest task hr ha ht =>
    obtain ⟨pc, hcreated⟩ :=
      created_dispatch { s with sem := (s.sem.acquire i).1, ready := rest } i task
    have hfresh : i ∉ s.begun := (h.scheduled.acquires hr ha).fresh
    exact unfinished_of_set (h.kept.unfinished_of_pending ht hfresh) hcreated
  | wakes i rest sem task hr hresume ht =>
    obtain ⟨pc, hcreated⟩ := created_dispatch (State.setSem { s with ready := rest } sem) i task
    have hfresh : i ∉ s.begun := (h.scheduled.resumes hr hresume).fresh
    exact unfinished_of_set (h.kept.unfinished_of_pending ht hfresh) hcreated
  | discards i rest hr => exact ⟨Nat.le_refl _, fun _ _ hi => hi⟩
  | ends i task error ht hp => exact unfinished_of_set (unfinished_of_handling ht hp) rfl
  | asks hd => exact ⟨Nat.le_refl _, fun _ _ hi => hi⟩
  | returns asked pending hd => exact ⟨Nat.le_refl _, fun _ _ hi => hi⟩

theorem drain_of_step {a : Action P} (hs : step s a = some t) :
    t.drain = s.drain ∨ s.drain = .unasked ∧ t = { s with drain := s.asked } ∨
      ∃ asked pending, s.drain = .waiting asked pending ∧
        t = { s with drain := .closed asked (pending.filter (unfinished s)) } := by
  have hdispatch : ∀ (s : State P) i task, (s.dispatch i task).drain = s.drain := by
    intro s i task
    unfold State.dispatch
    dsimp only
    split_ifs
    · rfl
    · rfl
  cases step_cases hs with
  | registers | enqueues | waits | discards | ends => exact .inl rfl
  | starts i rest task => exact .inl (hdispatch _ i task)
  | wakes i rest sem task => exact .inl (hdispatch _ i task)
  | asks hd => exact .inr (.inl ⟨hd, rfl⟩)
  | returns asked pending hd => exact .inr (.inr ⟨asked, pending, hd, rfl⟩)

theorem Covered.step {a : Action P} (h : Covered s) (horderly : Orderly maxInflight s)
    (hs : step s a = some t) : Covered t := by
  obtain ⟨hlength, hends⟩ := unfinished_of_step horderly hs
  rcases drain_of_step hs with hsame | ⟨hd, rfl⟩ | ⟨asked, pending, hd, rfl⟩
  · unfold Covered at h ⊢
    rw [hsame]
    cases hdrain : s.drain with
    | unasked => trivial
    | waiting asked pending =>
      simp only [hdrain] at h ⊢
      obtain ⟨hle, hasked, hall⟩ := h
      exact ⟨Nat.le_trans hle hlength, hasked, fun i hi hu => hall i hi (hends i (by omega) hu)⟩
    | closed asked still =>
      simp only [hdrain] at h ⊢
      exact ⟨Nat.le_trans h.1 hlength, fun i hi hu => h.2 i hi (hends i (by have := h.1; omega) hu)⟩
  · unfold Covered State.asked
    by_cases hnone : s.tasks = []
    · simp only [if_pos hnone]
      refine ⟨Nat.le_refl _, fun i _ hu => ?_⟩
      have hheld := horderly.kept.held i hu
      rw [hnone] at hheld
      exact hheld
    · simp only [if_neg hnone]
      exact ⟨Nat.le_refl _, horderly.kept.known, fun i _ hu => horderly.kept.held i hu⟩
  · unfold Covered at h ⊢
    simp only [hd] at h ⊢
    exact ⟨h.1, fun i hi hu => List.mem_filter.mpr ⟨h.2.2 i hi hu, hu⟩⟩

/-- `aclose` returns with the jobs that had been enqueued before its call and have not ended, and
without them no earlier than each of those has been dispatched and has ended. -/
theorem aclose_leaves_stragglers (P : Type) (maxInflight : ℕ) (s t : State P) (a : Action P)
    (asked : ℕ) (still : List ℕ) (hreach : Reaches step always (init P maxInflight) s)
    (hs : step s a = some t) (hreturns : s.drain ≠ t.drain) (ht : t.drain = .closed asked still) :
    (∀ i, i ∈ still ↔ i < asked ∧ unfinished t i = true) ∧
      ∀ u, Reaches step always t u → ∀ i < asked, i ∉ still → i ∈ u.begun ∧ unfinished u i = false := by
  have horderly := orderly_reached hreach
  have hinvariant : ∀ {u v : State P}, Reaches step always u v → Orderly maxInflight u ∧ Covered u →
      Orderly maxInflight v ∧ Covered v := by
    intro u v huv hu
    exact huv.invariant (I := fun s => Orderly maxInflight s ∧ Covered s) hu
      fun _ _ _ h _ hs => ⟨h.1.step hs, h.2.step h.1 hs⟩
  have hcovered : Covered s := (hinvariant hreach ⟨orderly_init P maxInflight, trivial⟩).2
  have hclosed : ∀ i, i ∈ still → i < asked ∧ unfinished t i = true := by
    rcases drain_of_step hs with hsame | ⟨-, rfl⟩ | ⟨asked', pending, hd, rfl⟩
    · exact absurd hsame.symm hreturns
    · simp only [State.asked] at ht
      split_ifs at ht
      cases ht
      exact nofun
    · cases ht
      simp only [Covered, hd] at hcovered
      intro i hi
      obtain ⟨hpending, hu⟩ := List.mem_filter.mp hi
      exact ⟨hcovered.2.1 i hpending, hu⟩
  have hafter : ∀ u, Reaches step always t u → u.drain = .closed asked still := by
    intro u hu
    refine hu.invariant (I := fun u => u.drain = .closed asked still) ht ?_
    intro v b w hv _ hw
    rcases drain_of_step hw with hsame | ⟨hd, -⟩ | ⟨asked', pending, hd, -⟩
    · exact hsame.trans hv
    · rw [hv] at hd
      cases hd
    · rw [hv] at hd
      cases hd
  have hboth : Orderly maxInflight t ∧ Covered t :=
    ⟨horderly.step hs, hcovered.step horderly hs⟩
  refine ⟨fun i => ⟨hclosed i, ?_⟩, ?_⟩
  · rintro ⟨hlt, hu⟩
    have hcov := hboth.2
    simp only [Covered, ht] at hcov
    exact hcov.2 i hlt hu
  · intro u hu i hlt hstill
    obtain ⟨horderly, hcov⟩ := hinvariant hu hboth
    simp only [Covered, hafter u hu] at hcov
    have hended : unfinished u i = false := by
      rw [Bool.eq_false_iff]
      exact fun h => hstill (hcov.2 i hlt h)
    refine ⟨?_, hended⟩
    by_contra hbegun
    have hlive := horderly.kept.unfinished_of_pending
      (List.getElem?_eq_getElem (Nat.lt_of_lt_of_le hlt hcov.1)) hbegun
    rw [hended] at hlive
    cases hlive

theorem aclose_leaves_stragglers_busy :
    ∃ t, step busy .timesOut = some t ∧ t.drain = .closed 2 [1] ∧
      ∀ u, Reaches step always t u → 0 ∈ u.begun ∧ unfinished u 0 = false := by
  refine ⟨_, rfl, rfl, ?_⟩
  intro u hu
  have hreturns : busy.drain ≠ .closed 2 [1] := by decide
  exact (aclose_leaves_stragglers Unit 1 busy _ .timesOut 2 [1] busy_reached rfl hreturns rfl).2
    u hu 0 (by decide) (by decide)

end Workbench.InProcessQueue
