import Workbench.WorkerLoop

namespace Workbench.WorkerLoop

open JobQueue (JobCodec Job)
open Semaphores Transitions

variable {W D P Raw : Type}

def Task.unfinished (task : Task D Raw) : Bool :=
  match task.pc with
  | .finished _ => false
  | _ => true

def State.unfinished (s : State W D P Raw) : ℕ := s.tasks.countP Task.unfinished

def State.dispatched (s : State W D P Raw) : ℕ := s.tasks.countP fun task => task.pc = .handling

def State.held (s : State W D P Raw) : ℕ :=
  match s.loop with
  | .acquiring => s.sem.handed
  | .popping | .raised _ => 1

structure Accounted (maxInflight : ℕ) (s : State W D P Raw) : Prop where
  slots : s.sem.permits + s.unfinished + (if s.loop = .acquiring then 0 else 1) = maxInflight
  waits : s.loop = .acquiring → ∃ handed, s.sem.waiters = [((), handed)]
  goes : s.loop ≠ .acquiring → s.sem.waiters = []
  live : s.sem.Live

variable {s t : State W D P Raw} {maxInflight : ℕ}

theorem Accounted.held (h : Accounted maxInflight s) :
    s.sem.value + s.unfinished + s.held = maxInflight := by
  have hslots := h.slots
  unfold State.held
  cases hl : s.loop with
  | acquiring =>
    simp only [hl, if_true, Semaphore.permits] at hslots
    change s.sem.value + s.unfinished + s.sem.handed = maxInflight
    omega
  | popping =>
    have hnone := h.goes (by simp [hl])
    simp only [hl, Semaphore.permits, Semaphore.handed, hnone, List.countP_nil] at hslots
    simpa using hslots
  | raised error =>
    have hnone := h.goes (by simp [hl])
    simp only [hl, Semaphore.permits, Semaphore.handed, hnone, List.countP_nil] at hslots
    simpa using hslots

theorem accounted_acquireNext (hslots : s.sem.permits + s.unfinished = maxInflight)
    (hwaiters : s.sem.waiters = []) (hlive : s.sem.Live) :
    Accounted maxInflight s.acquireNext := by
  have hpermits := s.sem.acquire_permits ()
  have hkeeps := hlive.acquire ()
  unfold State.acquireNext
  by_cases hzero : s.sem.value = 0
  · have hacquire : s.sem.acquire () = (⟨s.sem.value, [((), false)]⟩, false) := by
      simp [Semaphore.acquire, Semaphore.locked_iff.mpr (.inl hzero), hwaiters]
    simp only [hacquire] at hpermits hkeeps ⊢
    rw [Bool.toNat_false] at hpermits
    constructor
    · change Semaphore.permits _ + s.unfinished + 0 = maxInflight
      rw [Nat.add_zero] at hpermits ⊢
      rw [hpermits]
      exact hslots
    · exact fun _ => ⟨false, rfl⟩
    · exact fun h => absurd rfl h
    · exact hkeeps
  · have hfree : ¬ s.sem.locked = true := by
      rw [Semaphore.locked_iff, not_or, not_not]
      exact ⟨hzero, hwaiters⟩
    have hacquire : s.sem.acquire () = ({ s.sem with value := s.sem.value - 1 }, true) := by
      simp [Semaphore.acquire, hfree]
    simp only [hacquire] at hpermits hkeeps ⊢
    rw [Bool.toNat_true] at hpermits
    constructor
    · change Semaphore.permits _ + s.unfinished + 1 = maxInflight
      rw [Nat.add_right_comm, hpermits]
      exact hslots
    · exact fun h => by cases h
    · exact fun _ => hwaiters
    · exact hkeeps

theorem countP_setPc {i : ℕ} {task : Task D Raw} (p : Task D Raw → Bool) (pc : TaskPc)
    (ht : s.tasks[i]? = some task) :
    (s.setPc i task pc).tasks.countP p + (p task).toNat =
      s.tasks.countP p + (p { task with pc }).toNat := by
  obtain ⟨hlt, hget⟩ := List.getElem?_eq_some_iff.mp ht
  have hset := List.countP_set (p := p) (a := { task with pc }) hlt
  have hle := List.boole_getElem_le_countP (p := p) hlt
  rw [hget] at hset hle
  change (s.tasks.set i { task with pc }).countP p + _ = _
  rw [hset]
  cases hp : p task with
  | false => cases p { task with pc } <;> simp
  | true =>
    rw [hp, if_pos rfl] at hle
    cases p { task with pc } <;> simp <;> omega

theorem unfinished_of {task : Task D Raw} (hp : ∀ error, task.pc ≠ .finished error) :
    task.unfinished = true := by
  unfold Task.unfinished
  split
  · rename_i error he
    exact absurd he (hp error)
  · rfl

theorem unfinished_setPc {i : ℕ} {task : Task D Raw} {pc : TaskPc} (ht : s.tasks[i]? = some task)
    (hp : ∀ error, task.pc ≠ .finished error) (hpc : ∀ error, pc ≠ .finished error) :
    (s.setPc i task pc).unfinished = s.unfinished := by
  have hcount := countP_setPc Task.unfinished pc ht
  have hnew : Task.unfinished { task with pc } = true := unfinished_of hpc
  rw [unfinished_of hp, hnew] at hcount
  exact Nat.add_right_cancel hcount

theorem unfinished_finish {i : ℕ} {task : Task D Raw} (error : Option String)
    (ht : s.tasks[i]? = some task) (hp : ∀ error, task.pc ≠ .finished error) :
    (s.finish i task error).unfinished + 1 = s.unfinished := by
  have hcount := countP_setPc Task.unfinished (.finished error) ht
  rw [unfinished_of hp] at hcount
  exact hcount

theorem release_waits {sem : Semaphore Unit} {handed : Bool} (h : sem.waiters = [((), handed)]) :
    ∃ handed, sem.release.waiters = [((), handed)] := by
  obtain ⟨value, waiters⟩ := sem
  cases h
  cases handed with
  | false => exact ⟨true, rfl⟩
  | true => exact ⟨true, rfl⟩

theorem release_goes {sem : Semaphore Unit} (h : sem.waiters = []) : sem.release.waiters = [] := by
  obtain ⟨value, waiters⟩ := sem
  cases h
  rfl

theorem resume_goes {sem sem' : Semaphore Unit} {handed : Bool} (h : sem.waiters = [((), handed)])
    (hr : sem.resume () = some sem') : sem'.waiters = [] := by
  have hstuck (n value : ℕ) : Semaphore.wakeUp n ⟨value, []⟩ = (⟨value, []⟩ : Semaphore Unit) := by
    apply Semaphore.wakeUp_stuck
    cases value with
    | zero => rfl
    | succ value => rfl
  unfold Semaphore.resume at hr
  split_ifs at hr with hmem
  cases hr
  cases handed with
  | false => simp [h] at hmem
  | true =>
    rw [h, List.erase_cons_head, hstuck]

theorem Accounted.queue (h : Accounted maxInflight s) (queue : JobQueue.State W D P Raw) :
    Accounted maxInflight { s with queue } := ⟨h.slots, h.waits, h.goes, h.live⟩

theorem Accounted.finish (h : Accounted maxInflight s) {i : ℕ} {task : Task D Raw}
    (error : Option String) (ht : s.tasks[i]? = some task)
    (hp : ∀ error, task.pc ≠ .finished error) : Accounted maxInflight (s.finish i task error) := by
  have hslots := h.slots
  have hcount := unfinished_finish error ht hp
  have hpermits := s.sem.release_permits
  constructor
  · change s.sem.release.permits + (s.finish i task error).unfinished +
      (if s.loop = .acquiring then 0 else 1) = maxInflight
    omega
  · intro hl
    obtain ⟨handed, hwaits⟩ := h.waits hl
    exact release_waits hwaits
  · intro hl
    exact release_goes (h.goes hl)
  · exact Semaphore.live_release s.sem

theorem accounted_started [DecidableEq W] (w : W) (queue : JobQueue.State W D P Raw)
    (maxInflight : ℕ) : Accounted maxInflight (started w queue maxInflight) := by
  apply accounted_acquireNext
  · rfl
  · rfl
  · exact Semaphore.live_created maxInflight

variable [DecidableEq W] [DecidableEq D] [DecidableEq Raw] {codec : JobCodec P Raw}
  {kinds : Finset String} {w : W}

theorem Accounted.step (h : Accounted maxInflight s) {a : Action W D P}
    (hs : step codec kinds w s a = some t) : Accounted maxInflight t := by
  have hslots := h.slots
  cases step_cases hs with
  | resumes sem hl hr =>
    obtain ⟨handed, hwaits⟩ := h.waits hl
    have hpermits := Semaphore.resume_permits hr
    rw [hl, if_pos rfl] at hslots
    constructor
    · change sem.permits + s.unfinished + 1 = maxInflight
      omega
    · exact fun hl => by cases hl
    · exact fun _ => resume_goes hwaits hr
    · exact Semaphore.live_resume hr
  | pops queue task hl ht hq =>
    apply accounted_acquireNext
    · have hcount : (s.tasks ++ [task]).countP Task.unfinished = s.unfinished + 1 := by
        rw [List.countP_append, List.countP_singleton, unfinished_of (by simp [ht]), if_pos rfl]
        rfl
      change s.sem.permits + (s.tasks ++ [task]).countP Task.unfinished = maxInflight
      rw [hl, if_neg (by simp)] at hslots
      omega
    · exact h.goes (by simp [hl])
    · exact h.live
  | idles hl =>
    have hpermits := s.sem.release_permits
    apply accounted_acquireNext
    · change s.sem.release.permits + s.unfinished = maxInflight
      rw [hl, if_neg (by simp)] at hslots
      omega
    · exact release_goes (h.goes (by simp [hl]))
    · exact Semaphore.live_release s.sem
  | popFails error hl =>
    constructor
    · rw [hl, if_neg (by simp)] at hslots
      exact hslots
    · exact fun hr => by cases hr
    · exact fun _ => h.goes (by simp [hl])
    · exact h.live
  | proceeds i task pc ht hp hpc =>
    constructor
    · rw [unfinished_setPc ht hp hpc]
      exact hslots
    · exact h.waits
    · exact h.goes
    · exact h.live
  | finishes i task queue error ht hp hq =>
    exact (h.queue queue).finish error ht hp
  | elsewhere a queue hf hq => exact h.queue queue

def Serves (w : W) (queue : JobQueue.State W D P Raw) (a : JobQueue.Action W D P) : Prop :=
  foreign w queue a = true ∨ (∃ d, a = .pop w d) ∨ ∃ d, a = .ack d

theorem queue_step {a : Action W D P} (hs : step codec kinds w s a = some t) :
    t.queue = s.queue ∨ ∃ a, Serves w s.queue a ∧ JobQueue.step codec s.queue a = some t.queue := by
  cases step_cases hs with
  | resumes sem hl hr => exact .inl rfl
  | pops queue task hl ht hq => exact .inr ⟨_, .inr (.inl ⟨task.delivery, rfl⟩), hq⟩
  | idles hl => exact .inl rfl
  | popFails error hl => exact .inl rfl
  | proceeds i task pc ht hp hpc => exact .inl rfl
  | finishes i task queue error ht hp hq =>
    rcases hq with rfl | hq
    · exact .inl rfl
    · exact .inr ⟨_, .inr (.inr ⟨task.delivery, rfl⟩), hq⟩
  | elsewhere a queue hf hq => exact .inr ⟨a, .inl hf, hq⟩

theorem queue_reaches (h : Reaches (step codec kinds w) always s t) :
    Reaches (JobQueue.step codec) (Serves w) s.queue t.queue := by
  apply h.project State.queue (I := fun _ => True) trivial
  · exact fun _ _ _ _ _ _ => trivial
  · intro s a t _ _ hs
    rcases queue_step hs with he | ⟨a, ha, hq⟩
    · rw [he]
      exact .refl _
    · exact .single ha hq

theorem serving_kept {queue queue' : JobQueue.State W D P Raw} {a : JobQueue.Action W D P}
    (hw : queue.workers w = .serving) (ha : Serves w queue a)
    (hq : JobQueue.step codec queue a = some queue') : queue'.workers w = .serving := by
  have hother {w' : W} (hf : foreign w queue a = true)
      (hne : foreign w queue a = decide (w' ≠ w)) (phase : JobQueue.Phase Raw) :
      Function.update queue.workers w' phase w = .serving := by
    have hw' : w' ≠ w := of_decide_eq_true (hne ▸ hf)
    rw [Function.update_of_ne hw'.symm]
    exact hw
  rcases ha with hf | ⟨d, rfl⟩ | ⟨d, rfl⟩
  · cases JobQueue.step_cases hq with
    | enqueue job => exact hw
    | start w' h => exact hother hf rfl _
    | reclaimed w' h hp => exact hother hf rfl _
    | reclaimPop w' raw rest h hp => exact hother hf rfl _
    | reclaimPush w' raw h => exact hother hf rfl _
    | pop w' d raw rest h hd hj => exact hw
    | ack d w' raw h => exact hw
    | crash w' => exact hother hf rfl _
  · cases JobQueue.step_cases hq with
    | pop w' d raw rest h hd hj => exact hw
  · cases JobQueue.step_cases hq with
    | ack d w' raw h => exact hw

theorem serving_reached (hw : s.queue.workers w = .serving)
    (h : Reaches (step codec kinds w) always s t) : t.queue.workers w = .serving :=
  (queue_reaches h).invariant (I := fun queue => queue.workers w = .serving) hw
    fun _ _ _ hw ha hq => serving_kept hw ha hq

theorem pop_waiting (codec : JobCodec P Raw) {queue : JobQueue.State W D P Raw} {d : D}
    (hw : queue.workers w = .serving) (hd : queue.deliveries d = none) (hj : queue.redis.jobs ≠ []) :
    ∃ queue' raw, JobQueue.step codec queue (.pop w d) = some queue' ∧
      queue'.workers = queue.workers ∧
      queue'.deliveries = Function.update queue.deliveries d (some (w, raw)) := by
  obtain ⟨raw, hraw⟩ := Option.ne_none_iff_exists'.mp (mt List.getLast?_eq_none_iff.mp hj)
  refine ⟨{ queue with
    redis := { queue.redis with
      jobs := queue.redis.jobs.dropLast
      processing := raw :: queue.redis.processing }
    deliveries := Function.update queue.deliveries d (some (w, raw)) }, raw, ?_, rfl, rfl⟩
  simp [JobQueue.step, JobQueue.Redis.blmove, hraw, hw, hd]

theorem pops_waiting (codec : JobCodec P Raw) (kinds : Finset String) {d : D}
    (hl : s.loop = .popping) (hw : s.queue.workers w = .serving) (hd : s.queue.deliveries d = none)
    (hj : s.queue.redis.jobs ≠ []) :
    ∃ t, step codec kinds w s (.pops d) = some t ∧ t.unfinished = s.unfinished + 1 ∧
      t.queue.workers = s.queue.workers ∧
      (∀ d', d' ≠ d → t.queue.deliveries d' = s.queue.deliveries d') ∧
      (s.sem.locked = false → t.loop = .popping) := by
  obtain ⟨queue, raw, hq, hworkers, hdeliveries⟩ := pop_waiting codec hw hd hj
  refine ⟨State.acquireNext { s with queue, tasks := s.tasks ++ [⟨d, raw, .created⟩] }, ?_, ?_,
    hworkers, ?_, ?_⟩
  · simp [step, hl, hq, hdeliveries]
  · change (s.tasks ++ [_]).countP Task.unfinished = _
    rw [List.countP_append, List.countP_singleton]
    rfl
  · intro d' hne
    change queue.deliveries d' = _
    rw [hdeliveries, Function.update_of_ne hne]
  · intro hfree
    simp [State.acquireNext, Semaphore.acquire, hfree]

theorem pops_all {arrivals : List (Job P × D)} (hnodup : (arrivals.map Prod.snd).Nodup)
    (h : Accounted maxInflight s) (hl : s.loop = .popping) (hw : s.queue.workers w = .serving)
    (hfree : ∀ d ∈ arrivals.map Prod.snd, s.queue.deliveries d = none)
    (hlen : s.unfinished + arrivals.length = maxInflight) :
    ∃ t, Reaches (step codec kinds w) always s t ∧ t.unfinished = maxInflight := by
  induction arrivals generalizing s with
  | nil => exact ⟨s, .refl s, hlen⟩
  | cons arrival arrivals ih =>
    obtain ⟨job, d⟩ := arrival
    have henqueue : step codec kinds w s (.elsewhere (.enqueue job)) = some { s with
        queue := { s.queue with
          redis := s.queue.redis.lpushJobs (codec.dump job)
          enqueued := job :: s.queue.enqueued } } := rfl
    obtain ⟨t, hpop, hunfinished, hworkers, hdeliveries, hnext⟩ := pops_waiting codec
      kinds (s := { s with queue := { s.queue with
        redis := s.queue.redis.lpushJobs (codec.dump job)
        enqueued := job :: s.queue.enqueued } }) hl hw (hfree d List.mem_cons_self) (by
          simp [JobQueue.Redis.lpushJobs])
    have hfirst : Reaches (step codec kinds w) always s t :=
      (Reaches.single trivial henqueue).trans (.single trivial hpop)
    have hcount : t.unfinished = s.unfinished + 1 := hunfinished
    cases arrivals with
    | nil =>
      refine ⟨t, hfirst, ?_⟩
      rw [hcount]
      exact hlen
    | cons arrival arrivals =>
      have hlocked : s.sem.locked = false := by
        have hslots := h.slots
        have hwaiters := h.goes (by simp [hl])
        rw [hl, if_neg (by simp), Semaphore.permits, Semaphore.handed, hwaiters] at hslots
        rw [Bool.eq_false_iff, ne_eq, Semaphore.locked_iff, not_or, not_not]
        rw [List.length_cons, List.length_cons] at hlen
        rw [List.countP_nil] at hslots
        exact ⟨by omega, hwaiters⟩
      obtain ⟨hd, hrest⟩ := List.nodup_cons.mp hnodup
      obtain ⟨u, hu, hfull⟩ := ih hrest ((h.step henqueue).step hpop) (hnext hlocked)
        (by rw [hworkers]; exact hw) (by
          intro x hx
          rw [hdeliveries x (fun he => hd (he ▸ hx))]
          exact hfree x (List.mem_cons_of_mem d hx)) (by
          rw [List.length_cons] at hlen
          omega)
      exact ⟨u, hfirst.trans hu, hfull⟩

theorem pops_or_resumes (h : Accounted maxInflight s) (hpos : 1 ≤ maxInflight)
    (hnone : s.unfinished = 0) (hl : ∀ error, s.loop ≠ .raised error) :
    ∃ t, Reaches (step codec kinds w) always s t ∧ t.loop = .popping ∧ t.unfinished = 0 ∧
      t.queue = s.queue := by
  cases hloop : s.loop with
  | raised error => exact absurd hloop (hl error)
  | popping => exact ⟨s, .refl s, hloop, hnone, rfl⟩
  | acquiring =>
    obtain ⟨handed, hwaits⟩ := h.waits hloop
    have hslots := h.slots
    rw [hloop, if_pos rfl, hnone, Nat.add_zero, Semaphore.permits] at hslots
    have hhanded : 0 < s.sem.handed := by
      by_contra hzero
      exact hzero (h.live (by omega) (by simp [hwaits]))
    have htrue : handed = true := by
      by_contra hfalse
      simp [Semaphore.handed, hwaits, hfalse] at hhanded
    have hmem : ((), true) ∈ s.sem.waiters := by simp [hwaits, htrue]
    obtain ⟨sem, hresume⟩ : ∃ sem, s.sem.resume () = some sem := by
      unfold Semaphore.resume
      rw [if_pos hmem]
      exact ⟨_, rfl⟩
    have hstep : step codec kinds w s .resumes = some { s with sem, loop := .popping } := by
      simp [step, hloop, hresume]
    exact ⟨_, .single trivial hstep, rfl, hnone, rfl⟩

theorem slots_accounted (codec : JobCodec P Raw) (kinds : Finset String) (w : W)
    (queue : JobQueue.State W D P Raw) (maxInflight : ℕ) (hpos : 1 ≤ maxInflight)
    (s : State W D P Raw)
    (hreach : Reaches (step codec kinds w) always (started w queue maxInflight) s) :
    s.sem.value + s.unfinished + s.held = maxInflight ∧ s.dispatched ≤ maxInflight ∧
      (s.unfinished = 0 → (∀ error, s.loop ≠ .raised error) → ∀ arrivals : List (Job P × D),
        arrivals.length = maxInflight → (arrivals.map Prod.snd).Nodup →
        (∀ d ∈ arrivals.map Prod.snd, s.queue.deliveries d = none) →
        ∃ t, Reaches (step codec kinds w) always s t ∧ t.unfinished = maxInflight) := by
  have haccounted : Accounted maxInflight s :=
    hreach.invariant (I := Accounted maxInflight) (accounted_started w queue maxInflight)
      fun _ _ _ h _ hs => h.step hs
  have hslots := haccounted.held
  refine ⟨hslots, ?_, ?_⟩
  · have hle : s.dispatched ≤ s.unfinished := by
      apply List.countP_mono_left
      intro task _ hp
      exact unfinished_of (by simp [of_decide_eq_true hp])
    omega
  · intro hnone hl arrivals hlen hnodup hfree
    have hserving : s.queue.workers w = .serving := serving_reached (by
      simp [started, State.acquireNext]) hreach
    obtain ⟨t, ht, hpopping, hzero, hqueue⟩ := pops_or_resumes haccounted hpos hnone hl
    have haccounted' : Accounted maxInflight t :=
      ht.invariant (I := Accounted maxInflight) haccounted fun _ _ _ h _ hs => h.step hs
    obtain ⟨u, hu, hfull⟩ := pops_all hnodup haccounted' hpopping (hqueue ▸ hserving)
      (hqueue ▸ hfree) (by omega)
    exact ⟨u, ht.trans hu, hfull⟩

def echoJob (runId : String) (h : JobQueue.runIdPattern runId = true) : Job Unit :=
  ⟨"echo", runId, (), 0, by decide, h⟩

def mixedQueue : JobQueue.State Unit ℕ Unit (Job Unit ⊕ String) :=
  { JobQueue.idle Unit ℕ Unit _ with
    redis := ⟨[.inr "not json", .inl (echoJob "a" (by decide))], [], []⟩ }

/-- The handler of the first fails, the `LREM` of the second too, and the loop waits in between. -/
def mixedRun : List (Action Unit ℕ Unit) :=
  [.pops 0, .pops 1, .starts 0, .starts 1, .handled 0 (.failed "boom"),
    .ackFails 1 false "connection reset", .resumes, .idles, .acks 0]

theorem slots_accounted_mixed : ∃ s, exec (step (JobQueue.jobCodec Unit) {"echo"} ())
    (started () mixedQueue 2) mixedRun = some s ∧ s.tasks.length = 2 ∧
      s.sem.value + s.unfinished + s.held = 2 ∧ s.dispatched ≤ 2 ∧
      ∃ t, Reaches (step (JobQueue.jobCodec Unit) {"echo"} ()) always s t ∧ t.unfinished = 2 := by
  have hrun : ∃ s ∈ exec (step (JobQueue.jobCodec Unit) {"echo"} ()) (started () mixedQueue 2)
      mixedRun, s.tasks.length = 2 ∧ s.unfinished = 0 ∧ s.loop = .popping ∧
        s.queue.deliveries 2 = none ∧ s.queue.deliveries 3 = none := by
    decide +kernel
  obtain ⟨s, hs, htasks, hzero, hloop, htwo, hthree⟩ := hrun
  obtain ⟨hslots, hdispatched, hagain⟩ := slots_accounted (JobQueue.jobCodec Unit) {"echo"} ()
    mixedQueue 2 (by decide) s (reaches_of_exec hs (obeys_always _ _))
  refine ⟨s, hs, htasks, hslots, hdispatched, hagain hzero (by simp [hloop])
    [(echoJob "b" (by decide), 2), (echoJob "c" (by decide), 3)] rfl (by decide) ?_⟩
  intro d hd
  rcases List.mem_pair.mp hd with rfl | rfl
  · exact htwo
  · exact hthree

end Workbench.WorkerLoop
