import Workbench.AckSafety
import Workbench.AttemptBudgets

namespace Workbench.WorkerSystem

open RunStore KeyedTable Transitions JobQueue RunLease

variable {W D R Raw : Type} {codec : JobCodec (AutonomousPayload R) Raw} {ttl : ℤ} {k : String}
  {n : ℕ}

def Dispatches (codec : JobCodec (AutonomousPayload R) Raw) (k : String) (s : State W D R Raw) :
    Action W D R → Prop
  | .dispatch d _ => ∃ job ∈ received codec s d, job.kind = autonomousKind ∧ job.runId = k
  | _ => False

def EnqueuedOnce (k : String) (s : State W D R Raw) : Action W D R → Prop
  | .push job => job.runId = k → Unqueued s.queue k
  | .reconcileEnqueue w =>
    match s.startup w with
    | .reconciling (row :: _) => row.id = k → Unqueued s.queue k
    | _ => True
  | _ => True

def Awaits (codec : JobCodec (AutonomousPayload R) Raw) (k : String) (s : State W D R Raw) (d : D) :
    Prop :=
  (∃ job ∈ received codec s d, job.runId = k) ∧ s.returned d = false ∧ s.lease.executing d = none

structure Budgeted (codec : JobCodec (AutonomousPayload R) Raw) (k : String)
    (s : State W D R Raw) (n : ℕ) : Prop where
  balanced : Balanced codec s.queue
  spent : ∃ waiting : List D, (∀ d, Awaits codec k s d → d ∈ waiting) ∧
    n + waiting.length + budget codec k s.queue ≤ maxAttempts.toNat + 1
  queued : ∀ raw ∈ s.queue.redis.jobs, ∀ job ∈ codec.validate raw, job.attempts ≤ maxAttempts
  outbox : ∀ job ∈ s.outbox, job.attempts = 0

variable [DecidableEq W] [DecidableEq D] [DecidableEq R] [DecidableEq Raw] {s t : State W D R Raw}

theorem newJob_attempts {P : Type} {kind runId : String} {payload : P} {job : Job P}
    (h : newJob kind runId payload = some job) : job.attempts = 0 := by
  unfold newJob at h
  split_ifs at h
  cases h
  rfl

omit [DecidableEq W] [DecidableEq D] [DecidableEq R] [DecidableEq Raw] in
theorem Budgeted.keep (h : Budgeted codec k s n) (hb : Balanced codec t.queue)
    (hbudget : budget codec k t.queue ≤ budget codec k s.queue)
    (hqueued : ∀ raw ∈ t.queue.redis.jobs, ∀ job ∈ codec.validate raw, job.attempts ≤ maxAttempts)
    (houtbox : ∀ job ∈ t.outbox, job.attempts = 0)
    (hawaits : ∀ d, Awaits codec k t d → Awaits codec k s d) : Budgeted codec k t n := by
  obtain ⟨waiting, hwaiting, hspent⟩ := h.spent
  exact ⟨hb, ⟨waiting, fun d hd => hwaiting d (hawaits d hd), by omega⟩, hqueued, houtbox⟩

omit [DecidableEq R] in
theorem Budgeted.queue_step (h : Budgeted codec k s n) {b : JobQueue.Action W D (AutonomousPayload R)}
    (hq : JobQueue.step codec s.queue b = some t.queue) (hfirst : EnqueuesFirst k s.queue b)
    (hpop : ∀ w d, b ≠ .pop w d) (houtbox : ∀ job ∈ t.outbox, job.attempts = 0)
    (hreturned : ∀ d, t.returned d = false → s.returned d = false)
    (hidle : ∀ d, (t.queue.deliveries d).isSome → t.lease.executing d = none →
      s.lease.executing d = none) : Budgeted codec k t n := by
  refine h.keep (h.balanced.step hq) (budget_step hq hfirst h.balanced.held h.queued).1
    (queued_of_step hq h.queued fun job hb => ?_) houtbox ?_
  · subst hb
    exact hfirst.1.le.trans (by decide)
  · rintro d ⟨⟨job, hd, hk⟩, hr, he⟩
    obtain ⟨p, hp, hv⟩ := Option.bind_eq_some_iff.mp hd
    rcases delivered_of_step hq hp with hold | ⟨w, hb⟩
    · exact ⟨⟨job, Option.bind_eq_some_iff.mpr ⟨p, hold, hv⟩, hk⟩, hreturned d hr,
        hidle d (by rw [hp]; rfl) he⟩
    · exact absurd hb (hpop w d)

omit [DecidableEq W] [DecidableEq R] [DecidableEq Raw] in
theorem Budgeted.lease_step (h : Budgeted codec k s n) {b : RunLease.Action D R}
    (hl : RunLease.step ttl s.lease b = some t.lease) (hq : t.queue = s.queue)
    (hrelease : ∀ d, b = .release d → t.returned d = true)
    (hcrash : ∀ dead, b ≠ .crash dead)
    (hreturned : ∀ d, t.returned d = false → s.returned d = false)
    (houtbox : ∀ job ∈ t.outbox, job.attempts = 0) : Budgeted codec k t n := by
  refine h.keep (hq ▸ h.balanced) (hq ▸ le_rfl) (hq ▸ h.queued) houtbox fun d hd => ?_
  obtain ⟨hjob, hr, he⟩ := hd
  refine ⟨by simpa only [received, hq] using hjob, hreturned d hr,
    executing_kept hl he (fun hb => ?_) fun dead hb => absurd hb (hcrash dead)⟩
  simp [hrelease d hb] at hr

theorem dispatch_fresh {d : D} {now : ℤ} (h : step codec ttl s (.dispatch d now) = some t) :
    s.returned d = false := by
  simp only [step] at h
  split at h
  · cases h
  · split_ifs at h with hr
    · exact Bool.eq_false_iff.mpr hr
    · exact Bool.eq_false_iff.mpr hr

omit [DecidableEq R] in
theorem Budgeted.pop (h : Budgeted codec k s n) {w : W} {d : D}
    {queue : JobQueue.State W D (AutonomousPayload R) Raw}
    (hq : JobQueue.step codec s.queue (.pop w d) = some queue) :
    Budgeted codec k { s with queue, returned := Function.update s.returned d false } n := by
  obtain ⟨hless, hspends⟩ := budget_step hq (k := k) trivial h.balanced.held h.queued
  obtain ⟨waiting, hwaiting, hspent⟩ := h.spent
  have hold : ∀ d', d' ≠ d → Awaits codec k
      { s with queue, returned := Function.update s.returned d false } d' → Awaits codec k s d' := by
    rintro d' hne ⟨⟨job, hd', hk⟩, hr, he⟩
    obtain ⟨p, hp, hv⟩ := Option.bind_eq_some_iff.mp hd'
    refine ⟨⟨job, ?_, hk⟩, (Function.update_of_ne hne _ _).symm.trans hr, he⟩
    rcases delivered_of_step hq hp with hold | ⟨w', hb⟩
    · exact Option.bind_eq_some_iff.mpr ⟨p, hold, hv⟩
    · cases hb
      exact absurd rfl hne
  refine ⟨h.balanced.step hq, ?_, queued_of_step hq h.queued (by simp), h.outbox⟩
  by_cases hnew : Awaits codec k { s with queue, returned := Function.update s.returned d false } d
  · obtain ⟨⟨job, hd, hk⟩, _⟩ := hnew
    obtain ⟨p, hp, hv⟩ := Option.bind_eq_some_iff.mp hd
    have hspend := hspends w d p rfl hp ⟨job, hv, hk⟩
    refine ⟨d :: waiting, fun d' hd' => ?_, ?_⟩
    · by_cases hne : d' = d
      · exact hne ▸ List.mem_cons_self
      · exact List.mem_cons_of_mem _ (hwaiting d' (hold d' hne hd'))
    · simp only [List.length_cons]
      omega
  · refine ⟨waiting, fun d' hd' => hwaiting d' (hold d' ?_ hd'), ?_⟩
    · rintro rfl
      exact hnew hd'
    · change _ + budget codec k queue ≤ _
      omega

omit [DecidableEq W] [DecidableEq R] [DecidableEq Raw] in
theorem Budgeted.dispatch (h : Budgeted codec k s n) {d : D} {now : ℤ} {job : RunJob R}
    {lease : RunLease.State D R} {m : ℕ} (hd : received codec s d = some job)
    (hr : s.returned d = false)
    (hl : RunLease.step ttl s.lease (.claim d job.runId job.payload.goal now) = some lease)
    (hm : job.runId = k ∧ m = n + 1 ∨ job.runId ≠ k ∧ m = n) :
    Budgeted codec k { s with
      lease
      returned := Function.update s.returned d (lease.executing d).isNone } m := by
  obtain ⟨hidle, _⟩ := step_claim hl
  obtain ⟨waiting, hwaiting, hspent⟩ := h.spent
  have hold : ∀ d', Awaits codec k { s with
      lease
      returned := Function.update s.returned d (lease.executing d).isNone } d' →
      d' ≠ d ∧ Awaits codec k s d' := by
    rintro d' ⟨hjob, hr', he⟩
    have hne : d' ≠ d := by
      rintro rfl
      rw [show lease.executing d' = none from he] at hr'
      simp at hr'
    refine ⟨hne, hjob, (Function.update_of_ne hne _ _).symm.trans hr', ?_⟩
    exact executing_kept hl he (by simp) (by simp)
  refine ⟨h.balanced, ?_, h.queued, h.outbox⟩
  rcases hm with ⟨hk, rfl⟩ | ⟨_, rfl⟩
  · have hmem : d ∈ waiting := hwaiting d ⟨⟨job, hd, hk⟩, hr, hidle⟩
    refine ⟨waiting.erase d, fun d' hd' => ?_, ?_⟩
    · obtain ⟨hne, hd'⟩ := hold d' hd'
      exact (List.mem_erase_of_ne hne).mpr (hwaiting d' hd')
    · have hpos := List.length_pos_of_mem hmem
      rw [List.length_erase_of_mem hmem]
      change _ + budget codec k s.queue ≤ _
      omega
  · exact ⟨waiting, fun d' hd' => hwaiting d' (hold d' hd').2, hspent⟩

theorem Budgeted.step {a : Action W D R} {m : ℕ} (h : Budgeted codec k s n)
    (hg : EnqueuedOnce k s a) (hs : WorkerSystem.step codec ttl s a = some t)
    (hm : Dispatches codec k s a ∧ m = n + 1 ∨ ¬ Dispatches codec k s a ∧ m = n) :
    Budgeted codec k t m := by
  have hquiet : (∀ d now, a ≠ .dispatch d now) → m = n := by
    intro hne
    refine (hm.resolve_left fun hhit => ?_).2
    cases a with
    | dispatch d now => exact hne d now rfl
    | _ => exact hhit.1
  cases step_cases hs with
  | submit runId goal key now store record lease hc hl =>
    obtain rfl := hquiet (by simp)
    refine h.lease_step hl rfl (by simp) (by simp) (fun _ => id) fun job hj => ?_
    rcases List.mem_append.mp hj with hnew | hold
    · unfold submitted at hnew
      split_ifs at hnew
      · exact newJob_attempts (Option.mem_toList.mp hnew)
      · simp at hnew
    · exact h.outbox job hold
  | push job queue hj hq =>
    obtain rfl := hquiet (by simp)
    exact h.queue_step hq ⟨h.outbox job hj, hg⟩ (by simp)
      (fun job hj => h.outbox job (List.mem_of_mem_erase hj)) (fun _ => id) fun _ _ => id
  | start w queue hq =>
    obtain rfl := hquiet (by simp)
    exact h.queue_step hq trivial (by simp) h.outbox (fun _ => id) fun _ _ => id
  | reclaimPop w queue hq =>
    obtain rfl := hquiet (by simp)
    exact h.queue_step hq trivial (by simp) h.outbox (fun _ => id) fun _ _ => id
  | reclaimPush w queue hq =>
    obtain rfl := hquiet (by simp)
    exact h.queue_step hq trivial (by simp) h.outbox (fun _ => id) fun _ _ => id
  | reconcileRead w =>
    obtain rfl := hquiet (by simp)
    exact h.keep h.balanced le_rfl h.queued h.outbox fun _ => id
  | reconciled w =>
    obtain rfl := hquiet (by simp)
    exact h.keep h.balanced le_rfl h.queued h.outbox fun _ => id
  | reconcileEnqueue w row rows job queue hstartup hj hq =>
    obtain rfl := hquiet (by simp)
    simp only [EnqueuedOnce, hstartup] at hg
    exact h.queue_step hq ⟨newJob_attempts hj, fun hk => hg (newJob_runId hj ▸ hk)⟩ (by simp) h.outbox
      (fun _ => id) fun _ _ => id
  | pop w d queue hq =>
    obtain rfl := hquiet (by simp)
    exact h.pop hq
  | dispatch d now job lease hd hk hl =>
    refine h.dispatch hd (dispatch_fresh hs) hl (hm.imp (fun hhit => ?_) fun hmiss => ?_)
    · obtain ⟨⟨job', hjob', _, hrun⟩, hcount⟩ := hhit
      obtain rfl := Option.some.inj (hd.symm.trans hjob')
      exact ⟨hrun, hcount⟩
    · exact ⟨fun hrun => hmiss.1 ⟨job, hd, hk, hrun⟩, hmiss.2⟩
  | noHandler d now job hd hk =>
    have hmiss : ¬ Dispatches codec k s (.dispatch d now) := by
      rintro ⟨job', hjob', hkind, _⟩
      obtain rfl := Option.some.inj (hd.symm.trans hjob')
      exact hk hkind
    obtain rfl := (hm.resolve_left fun hhit => hmiss hhit.1).2
    refine h.keep h.balanced le_rfl h.queued h.outbox fun d' hd' => ⟨hd'.1, ?_, hd'.2.2⟩
    have hr := hd'.2.1
    simp only [Function.update_apply] at hr
    split_ifs at hr
    exact hr
  | touch d now lease hl =>
    obtain rfl := hquiet (by simp)
    exact h.lease_step hl rfl (by simp) (by simp) (fun _ => id) h.outbox
  | finish d outcome now lease hl =>
    obtain rfl := hquiet (by simp)
    exact h.lease_step hl rfl (by simp) (by simp) (fun _ => id) h.outbox
  | release d lease hl =>
    obtain rfl := hquiet (by simp)
    refine h.lease_step hl rfl ?_ (by simp) (fun d' hr => ?_) h.outbox
    · rintro _ ⟨⟩
      exact Function.update_self ..
    · simp only [Function.update_apply] at hr
      split_ifs at hr
      exact hr
  | ack d queue hd hq =>
    obtain rfl := hquiet (by simp)
    exact h.queue_step hq trivial (by simp) h.outbox (fun _ => id) fun _ _ => id
  | crash w queue lease hq hl =>
    obtain rfl := hquiet (by simp)
    obtain rfl := step_crash hl
    refine h.queue_step hq trivial (by simp) h.outbox (fun _ => id) fun d hd he => ?_
    have halive : onWorker s w d = false := by
      cases JobQueue.step_cases hq with
      | crash =>
        obtain ⟨p, hp⟩ := Option.isSome_iff_exists.mp hd
        obtain ⟨hp, hne⟩ := Option.filter_eq_some_iff.mp hp
        simpa [onWorker, hp] using hne
    simpa [halive] using he
  | sweep now lease hl =>
    obtain rfl := hquiet (by simp)
    exact h.lease_step hl rfl (by simp) (by simp) (fun _ => id) h.outbox
  | tick now lease hl =>
    obtain rfl := hquiet (by simp)
    exact h.lease_step hl rfl (by simp) (by simp) (fun _ => id) h.outbox

omit [DecidableEq W] [DecidableEq D] [DecidableEq R] [DecidableEq Raw] in
theorem Budgeted.initial (h : Deployed s) : Budgeted codec k s 0 where
  balanced := by
    rw [h.queue]
    exact .initial fresh_idle
  spent := by
    refine ⟨[], fun d hd => ?_, ?_⟩
    · obtain ⟨⟨job, hd, _⟩, _⟩ := hd
      simp [received, h.queue, idle] at hd
    · rw [h.queue]
      simp [budget, popsLeft, idle, State.inLimbo, Unqueued]
  queued := by simp [h.queue, idle]
  outbox := by simp [h.outbox]

/-- Where only one job is enqueued for a run, it is dispatched `maxAttempts + 1` times at most. Then
no job of it is queued, and a `reclaim` that has one puts it in the dead-letter list: where they are
all once the processing list is empty. -/
theorem poison_run_bounded [∀ s a, Decidable (Dispatches (W := W) (D := D) codec k s a)]
    {s₀ : State W D R Raw} (h₀ : Deployed s₀)
    (h : Reaches (counted (step codec ttl) (Dispatches codec k)) (fun s a => EnqueuedOnce k s.1 a)
      (s₀, 0) (s, n)) :
    n ≤ maxAttempts + 1 ∧ (n = maxAttempts + 1 → ∀ raw job, codec.validate raw = some job →
      job.runId = k → raw ∉ s.queue.redis.jobs ∧
        (raw ∈ s.queue.redis.processing ∨ (∃ w, s.queue.workers w = .holding raw) →
          ∃ dumped, reclaimPush codec s.queue.redis raw = (s.queue.redis.rpushDead dumped, false)) ∧
        (s.queue.redis.processing = [] → raw ∈ s.queue.listed → raw ∈ s.queue.redis.dead)) := by
  have hbudgeted : Budgeted codec k s n := by
    refine h.invariant (I := fun u => Budgeted codec k u.1 u.2) (.initial h₀) fun u a v hu hg hs => ?_
    obtain ⟨hstep, hcount⟩ := counted_cases hs
    exact hu.step hg hstep hcount
  obtain ⟨waiting, _, hspent⟩ := hbudgeted.spent
  simp only [maxAttempts] at hspent
  refine ⟨by simp only [maxAttempts]; omega, fun hn raw job hv hk => ?_⟩
  have hnone : popsLeft codec k s.queue = 0 := by
    simp only [maxAttempts] at hn
    simp only [budget] at hspent
    omega
  have hunqueued : raw ∉ s.queue.redis.jobs := fun hmem => by
    have hpops := popsLeft_queued hmem hv hk (hbudgeted.queued raw hmem job hv)
    omega
  refine ⟨hunqueued, fun hheld => ?_, fun hnil hlisted => ?_⟩
  · have hlast : maxAttempts ≤ job.attempts := by
      by_contra hlt
      have htaken : raw ∈ s.queue.redis.processing ∨ raw ∈ s.queue.inLimbo := by
        apply hheld.imp_right
        rintro ⟨w, hw⟩
        exact List.mem_map_of_mem (hbudgeted.balanced.held w raw hw)
      have hpops := popsLeft_taken (q := s.queue) hv hk (not_le.mp hlt) htaken
      omega
    refine ⟨codec.dump { job with attempts := job.attempts + 1 }, ?_⟩
    simp only [reclaimPush, hv]
    rw [if_pos (by omega)]
  · simpa [State.listed, hunqueued, hnil] using hlisted

instance (k : String) (s : State W D R Raw) (a : Action W D R) : Decidable (Dispatches codec k s a) :=
  match a with
  | .dispatch d _ => inferInstanceAs (Decidable (∃ job ∈ received codec s d, _))
  | .submit _ _ _ _ | .push _ | .start _ | .reclaimPop _ | .reclaimPush _ | .reconcileRead _
  | .reconcileEnqueue _ | .pop _ _ | .touch _ _ | .finish _ _ _ | .release _ | .ack _ | .crash _
  | .sweep _ | .tick _ => isFalse id

instance (k : String) (s : State W D R Raw) (a : Action W D R) : Decidable (EnqueuedOnce k s a) :=
  match a with
  | .push job => inferInstanceAs (Decidable (job.runId = k → Unqueued s.queue k))
  | .reconcileEnqueue w =>
    show Decidable (match s.startup w with
      | .reconciling (row :: _) => row.id = k → Unqueued s.queue k
      | _ => True) from
    match s.startup w with
    | .reconciling (row :: _) => inferInstanceAs (Decidable (row.id = k → Unqueued s.queue k))
    | .booting | .reconciling [] | .consuming => isTrue trivial
  | .submit _ _ _ _ | .start _ | .reclaimPop _ | .reclaimPush _ | .reconcileRead _ | .pop _ _
  | .dispatch _ _ | .touch _ _ | .finish _ _ _ | .release _ | .ack _ | .crash _ | .sweep _ | .tick _ =>
    isTrue trivial

def submittedOnce : List (Action Unit Unit Unit) :=
  [.start (), .reclaimPop (), .reconcileRead (), .reconcileEnqueue (), .submit "r" "g" none 0,
    .push runJob]

/-- The dispatch crashes the worker, which restarts when the lease has run out, finds the row still
`running` and enqueues the run again. -/
def poisonedAt (i : ℕ) : List (Action Unit Unit Unit) :=
  [.pop () (), .dispatch () (seconds (901 * i)), .crash (), .tick (seconds (901 * (i + 1))), .start (),
    .reclaimPop (), .reclaimPush (), .reclaimPop (), .reconcileRead (), .reconcileEnqueue (),
    .reconcileEnqueue ()]

def poisoned : List (Action Unit Unit Unit) := submittedOnce ++ (List.range 7).flatMap poisonedAt

theorem reconciled_poison_exceeds :
    ∃ s ∈ exec (counted (step (jobCodec _) 900) (Dispatches (jobCodec _) "r"))
      (deployed Unit Unit Unit _, 0) poisoned, s.2 = 7 := by
  decide

/-- Each of six workers crashes in its dispatch, and one that only reclaims starts after each. -/
def crashedInTurn : List (Action (Fin 7) Unit Unit) :=
  (List.finRange 6).flatMap (fun w => [.start w.castSucc, .reclaimPop w.castSucc,
    .reconcileRead w.castSucc, .reconcileEnqueue w.castSucc]) ++
  [.submit "r" "g" none 0, .push runJob] ++
  (List.finRange 6).flatMap fun w => [.pop w.castSucc (), .dispatch () 0, .crash w.castSucc, .start 6,
    .reclaimPop 6, .reclaimPush 6, .crash 6]

set_option maxRecDepth 2000 in
theorem poison_run_bounded_in_turn :
    ∃ s ∈ exec (counted (step (jobCodec _) 900) (Dispatches (jobCodec _) "r"))
      (deployed (Fin 7) Unit Unit _, 0) crashedInTurn, (s.2 : ℤ) = maxAttempts + 1 ∧
      ∀ raw job, (jobCodec _).validate raw = some job → job.runId = "r" →
        raw ∈ s.1.queue.listed → raw ∈ s.1.queue.redis.dead := by
  have hrun : ∃ s ∈ exec (counted (step (jobCodec _) 900) (Dispatches (jobCodec _) "r"))
      (deployed (Fin 7) Unit Unit _, 0) crashedInTurn,
      Obeys (counted (step (jobCodec _) 900) (Dispatches (jobCodec _) "r"))
        (fun s a => EnqueuedOnce "r" s.1 a) (deployed (Fin 7) Unit Unit _, 0) crashedInTurn ∧
      (s.2 : ℤ) = maxAttempts + 1 ∧ s.1.queue.redis.processing = [] := by
    decide
  obtain ⟨⟨s, n⟩, hs, hobeys, hn, hnil⟩ := hrun
  obtain ⟨_, hdead⟩ := poison_run_bounded deployed_deployed (reaches_of_exec hs hobeys)
  exact ⟨(s, n), hs, hn, fun raw job hv hk => (hdead hn raw job hv hk).2.2 hnil⟩

end Workbench.WorkerSystem
