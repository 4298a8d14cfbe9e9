import Workbench.RateLimiter
import Mathlib.Algebra.Order.Ring.Rat

namespace Workbench.RateLimiter

open SlidingWindows

variable {settings : Settings} {s : State} {history : List Served} {now : ℚ}

/-- The window and the half of a last place above it that a rounded age still falls back to. -/
def heldWidth : ℚ := windowWidth + 1 / 281474976710656

theorem old_iff (now t : ℚ) : windowWidth < Doubles.sub now t ↔ heldWidth < now - t := by
  -- 60 is 15 * 2 ^ 49 of its last places, which are 2 ^ -47
  have hrounds := Doubles.lt_round64 (m := 15 * 2 ^ 49) (e := -47) (by norm_num) (by norm_num)
    (by norm_num) (by norm_num) (now - t)
  have hplace : Doubles.powTwo (-47) = 1 / 140737488355328 := by
    rw [Doubles.powTwo_eq]
    norm_num
  rw [hplace] at hrounds
  unfold windowWidth heldWidth windowWidth Doubles.sub
  norm_num at hrounds ⊢
  exact hrounds

def State.bucket (s : State) (client : String) : List ℚ := (s.hits client).getD []

def slidingWindow (settings : Settings) (history : List Served) (request : Request) (now : ℚ) :
    List Served × Outcome :=
  let hits := recent heldWidth (accepted settings (clientIp settings request) history) now
  let outcome := if Limits settings request ∧ settings.rateLimitPerMin ≤ hits.length then tooMany
    else .callsNext
  (history ++ [⟨request, now, outcome⟩], outcome)

structure Mirrors (settings : Settings) (s : State) (history : List Served) (now : ℚ) : Prop where
  order : (history.map Served.time).Pairwise (· ≤ ·)
  past : ∀ e ∈ history, e.time ≤ now
  kept : ∀ client, (s.bucket client).Sublist (accepted settings client history)
  recents : ∀ client later, now ≤ later →
    recent heldWidth (s.bucket client) later =
      recent heldWidth (accepted settings client history) later

def Harmless (reap : State → ℚ → State) : Prop := ∀ s now client,
  (reap s now).bucket client = s.bucket client ∨
    (reap s now).bucket client = [] ∧ ∀ t ∈ (s.bucket client).getLast?, heldWidth < now - t

theorem harmless_none : Harmless fun s _ => s := fun _ _ _ => .inl rfl

theorem harmless_reapIdle : Harmless reapIdle := by
  intro s now client
  unfold reapIdle
  split_ifs with hsoon
  · exact .inl rfl
  · unfold State.bucket
    cases hw : s.hits client with
    | none => exact .inl (by simp [hw])
    | some window =>
      by_cases hstale : isStale now window = true
      · apply Or.inr
        refine ⟨by simp [hw, hstale, Option.filter], ?_⟩
        intro t ht
        simp only [Option.getD_some, Option.mem_def] at ht
        simpa [isStale, ht, old_iff] using hstale
      · exact .inl (by simp [hw, hstale, Option.filter])

theorem accepted_sublist (client : String) :
    (accepted settings client history).Sublist (history.map Served.time) :=
  List.filter_sublist.map _

theorem accepted_append (client : String) (xs ys : List Served) :
    accepted settings client (xs ++ ys) = accepted settings client xs ++ accepted settings client ys := by
  simp [accepted]

theorem accepted_one (client : String) (e : Served) : accepted settings client [e] =
    if Limits settings e.request ∧ clientIp settings e.request = client ∧ e.outcome = .callsNext
      then [e.time] else [] := by
  unfold accepted
  split_ifs with h
  · rw [List.filter_cons_of_pos (by simpa using h)]
    rfl
  · rw [List.filter_cons_of_neg (by simpa using h)]
    rfl

theorem Mirrors.ordered (h : Mirrors settings s history now) (client : String) :
    (s.bucket client).Pairwise (· ≤ ·) :=
  (h.order.sublist (accepted_sublist client)).sublist (h.kept client)

theorem Mirrors.later {later : ℚ} (h : Mirrors settings s history now) (hl : now ≤ later) :
    Mirrors settings s history later where
  order := h.order
  past e he := (h.past e he).trans hl
  kept := h.kept
  recents client t ht := h.recents client t (hl.trans ht)

theorem Mirrors.reap {reap : State → ℚ → State} (hr : Harmless reap)
    (h : Mirrors settings s history now) : Mirrors settings (reap s now) history now where
  order := h.order
  past := h.past
  kept client := by
    rcases hr s now client with hsame | ⟨hnil, -⟩
    · rw [hsame]
      exact h.kept client
    · rw [hnil]
      exact List.nil_sublist _
  recents client later hl := by
    rcases hr s now client with hsame | ⟨hnil, hold⟩
    · rw [hsame]
      exact h.recents client later hl
    · -- what was dropped is out of every window to come
      have hempty := recent_eq_nil (h.ordered client) hold
      have hcut : recent heldWidth (recent heldWidth (s.bucket client) now) later = _ :=
        recent_recent hl
      rw [hnil, ← h.recents client later hl, ← hcut, hempty]

theorem Mirrors.record {e : Served} (h : Mirrors settings s history now) (he : e.time = now)
    (hno : ¬ (Limits settings e.request ∧ e.outcome = .callsNext)) :
    Mirrors settings s (history ++ [e]) now := by
  have hsame : ∀ client, accepted settings client (history ++ [e]) =
      accepted settings client history := by
    intro client
    rw [accepted_append, accepted_one, if_neg, List.append_nil]
    exact fun hyes => hno ⟨hyes.1, hyes.2.2⟩
  constructor
  · rw [List.map_append, List.pairwise_append]
    refine ⟨h.order, List.pairwise_singleton _ _, ?_⟩
    intro t ht u hu
    obtain ⟨d, hd, rfl⟩ := List.mem_map.mp ht
    rw [List.mem_singleton.mp hu, he]
    exact h.past d hd
  · intro d hd
    rcases List.mem_append.mp hd with hd | hd
    · exact h.past d hd
    · rw [List.mem_singleton.mp hd, he]
  · intro client
    rw [hsame]
    exact h.kept client
  · intro client later hl
    rw [hsame]
    exact h.recents client later hl

def State.hold (s : State) (client : String) (window : List ℚ) : State :=
  { s with hits := Function.update s.hits client (some window) }

theorem bucket_hold (s : State) (client c : String) (window : List ℚ) :
    (s.hold client window).bucket c = if c = client then window else s.bucket c := by
  unfold State.bucket State.hold
  simp only [Function.update_apply]
  split_ifs <;> rfl

theorem Mirrors.prune (h : Mirrors settings s history now) (client : String) :
    Mirrors settings (s.hold client (recent heldWidth (s.bucket client) now)) history now where
  order := h.order
  past := h.past
  kept c := by
    rw [bucket_hold]
    split_ifs with hc
    · rw [hc]
      exact List.filter_sublist.trans (h.kept client)
    · exact h.kept c
  recents c later hl := by
    rw [bucket_hold]
    split_ifs with hc
    · rw [hc, recent_recent hl]
      exact h.recents client later hl
    · exact h.recents c later hl

theorem Mirrors.admit {e : Served} (h : Mirrors settings s history now) (he : e.time = now)
    (hl : Limits settings e.request) (ho : e.outcome = .callsNext) :
    Mirrors settings (s.hold (clientIp settings e.request)
      (s.bucket (clientIp settings e.request) ++ [now])) (history ++ [e]) now := by
  have hadded : ∀ c, accepted settings c (history ++ [e]) =
      accepted settings c history ++ if c = clientIp settings e.request then [now] else [] := by
    intro c
    rw [accepted_append, accepted_one]
    by_cases hc : c = clientIp settings e.request
    · rw [if_pos hc, if_pos ⟨hl, hc.symm, ho⟩, he]
    · rw [if_neg hc, if_neg (fun hyes => hc hyes.2.1.symm)]
  constructor
  · rw [List.map_append, List.pairwise_append]
    refine ⟨h.order, List.pairwise_singleton _ _, ?_⟩
    intro t ht u hu
    obtain ⟨d, hd, rfl⟩ := List.mem_map.mp ht
    rw [List.mem_singleton.mp hu, he]
    exact h.past d hd
  · intro d hd
    rcases List.mem_append.mp hd with hd | hd
    · exact h.past d hd
    · rw [List.mem_singleton.mp hd, he]
  · intro c
    rw [bucket_hold, hadded]
    split_ifs with hc
    · rw [hc]
      exact (h.kept _).append (List.Sublist.refl _)
    · rw [List.append_nil]
      exact h.kept c
  · intro c later hlater
    rw [bucket_hold, hadded]
    split_ifs with hc
    · rw [hc, recent_append, recent_append, h.recents _ later hlater]
    · rw [List.append_nil]
      exact h.recents c later hlater

theorem dispatchWith_limited {reap : State → ℚ → State} {request : Request}
    (ho : ((reap s now).bucket (clientIp settings request)).Pairwise (· ≤ ·))
    (hl : Limits settings request) :
    dispatchWith reap settings s request now =
      if settings.rateLimitPerMin ≤
          (recent heldWidth ((reap s now).bucket (clientIp settings request)) now).length then
        ((reap s now).hold (clientIp settings request)
          (recent heldWidth ((reap s now).bucket (clientIp settings request)) now), tooMany)
      else
        ((reap s now).hold (clientIp settings request)
          (recent heldWidth ((reap s now).bucket (clientIp settings request)) now ++ [now]),
          .callsNext) := by
  have hold : (fun t => decide (windowWidth < Doubles.sub now t)) =
      fun t => decide (heldWidth < now - t) := by
    funext t
    exact decide_eq_decide.mpr (old_iff now t)
  rw [dispatchWith, if_pos hl, ← dropWhile_eq_recent ho, ← hold]
  rfl

theorem Mirrors.dispatch {reap : State → ℚ → State} (hr : Harmless reap)
    (h : Mirrors settings s history now) (request : Request) :
    (dispatchWith reap settings s request now).2 = (slidingWindow settings history request now).2 ∧
      Mirrors settings (dispatchWith reap settings s request now).1
        (slidingWindow settings history request now).1 now := by
  have hreaped := h.reap hr
  have hrecents := hreaped.recents (clientIp settings request) now le_rfl
  have hpruned := hreaped.prune (clientIp settings request)
  by_cases hl : Limits settings request
  · have hordered := hreaped.ordered (clientIp settings request)
    rw [dispatchWith_limited hordered hl, slidingWindow]
    by_cases hfull : settings.rateLimitPerMin ≤
        (recent heldWidth (accepted settings (clientIp settings request) history) now).length
    · rw [if_pos (hrecents ▸ hfull), if_pos ⟨hl, hfull⟩]
      exact ⟨rfl, hpruned.record rfl fun hno => by cases hno.2⟩
    · rw [if_neg (hrecents ▸ hfull), if_neg fun hno => hfull hno.2]
      have hadmitted := hpruned.admit (e := ⟨request, now, .callsNext⟩) rfl hl rfl
      rw [bucket_hold, if_pos rfl] at hadmitted
      simp only [State.hold, Function.update_idem] at hadmitted
      exact ⟨rfl, hadmitted⟩
  · rw [dispatchWith, if_neg hl, slidingWindow, if_neg fun hno => hl hno.1]
    exact ⟨rfl, h.record rfl fun hno => hl hno.1⟩

theorem serve_eq {reap : State → ℚ → State} (hr : Harmless reap) {requests : List (Request × ℚ)}
    (h : Mirrors settings s history now) (ho : (now :: requests.map Prod.snd).Pairwise (· ≤ ·)) :
    serve (dispatchWith reap settings) s requests = serve (slidingWindow settings) history requests := by
  induction requests generalizing s history now with
  | nil => rfl
  | cons q requests ih =>
    obtain ⟨request, time⟩ := q
    obtain ⟨hfirst, hrest⟩ := List.pairwise_cons.mp ho
    have hdispatch := (h.later (hfirst time (by simp))).dispatch hr request
    simp only [serve]
    rw [hdispatch.1, ih hdispatch.2 hrest]

theorem serve_times {S : Type} (dispatch : S → Request → ℚ → S × Outcome) (s : S)
    (requests : List (Request × ℚ)) :
    (serve dispatch s requests).map (fun e => (e.request, e.time)) = requests := by
  induction requests generalizing s with
  | nil => rfl
  | cons q requests ih =>
    simp only [serve, List.map_cons]
    rw [ih]

theorem slidingWindow_history (settings : Settings) (history : List Served) (request : Request)
    (now : ℚ) : (slidingWindow settings history request now).1 =
      history ++ [⟨request, now, (slidingWindow settings history request now).2⟩] := rfl

theorem serve_slidingWindow {requests : List (Request × ℚ)} {front back : List Served} {e : Served}
    (h : serve (slidingWindow settings) history requests = front ++ e :: back) :
    e.outcome = (slidingWindow settings (history ++ front) e.request e.time).2 := by
  induction requests generalizing history front with
  | nil => cases front <;> cases h
  | cons q requests ih =>
    cases front with
    | nil =>
      cases h
      rw [List.append_nil]
    | cons first front =>
      obtain ⟨rfl, hrest⟩ := List.cons.inj h
      have hlater := ih hrest
      rwa [slidingWindow_history, List.append_assoc] at hlater

def Exact (width : ℚ) (settings : Settings) (served : List Served) : Prop :=
  ∀ front e back, served = front ++ e :: back → Limits settings e.request →
    (e.outcome = tooMany ↔ settings.rateLimitPerMin ≤
      (recent width (accepted settings (clientIp settings e.request) front) e.time).length)

theorem exact_slidingWindow (settings : Settings) (requests : List (Request × ℚ)) :
    Exact heldWidth settings (serve (slidingWindow settings) [] requests) := by
  intro front e back heq hl
  have hverdict := serve_slidingWindow heq
  rw [List.nil_append, slidingWindow] at hverdict
  rw [hverdict]
  simp only [hl, true_and]
  split_ifs with hfull
  · simp [hfull]
  · simp [hfull, tooMany]

theorem Exact.limited {width : ℚ} {served : List Served} (h : Exact width settings served)
    (client : String) : Limited settings.rateLimitPerMin.toNat width (accepted settings client served) := by
  induction served using List.reverseRecOn with
  | nil => exact .nil _
  | append_singleton front e ih =>
    have hfront : Exact width settings front := by
      intro xs d ys heq
      exact h xs d (ys ++ [e]) (by rw [heq, List.append_assoc, List.cons_append])
    rw [accepted_append, accepted_one]
    split_ifs with hin
    · obtain ⟨hl, rfl, hcalls⟩ := hin
      apply (ih hfront).concat
      have hless := (h front e [] rfl hl).not.mp (by rw [hcalls]; exact nofun)
      omega
    · rw [List.append_nil]
      exact ih hfront

theorem mirrors_new (settings : Settings) (now : ℚ) : Mirrors settings newState [] now where
  order := List.Pairwise.nil
  past := nofun
  kept _ := List.nil_sublist _
  recents _ _ _ := rfl

theorem serve_new {reap : State → ℚ → State} (hr : Harmless reap) {requests : List (Request × ℚ)}
    (ho : (requests.map Prod.snd).Pairwise (· ≤ ·)) :
    serve (dispatchWith reap settings) newState requests = serve (slidingWindow settings) [] requests := by
  cases requests with
  | nil => rfl
  | cons q requests =>
    apply serve_eq hr (mirrors_new settings q.2)
    apply List.pairwise_cons.mpr
    refine ⟨?_, ho⟩
    intro t ht
    rcases List.mem_cons.mp ht with rfl | ht
    · exact le_rfl
    · exact (List.pairwise_cons.mp ho).1 t ht

def Throttled (settings : Settings) (served : List Served) (client : String) : Prop :=
  ∀ start, (((accepted settings client served).filter fun t =>
    start ≤ t ∧ t ≤ start + windowWidth).length : ℤ) ≤ settings.rateLimitPerMin

theorem Exact.throttled {served : List Served} (h : Exact heldWidth settings served)
    (hpos : 0 < settings.rateLimitPerMin) (ho : (served.map Served.time).Pairwise (· ≤ ·))
    (client : String) : Throttled settings served client := by
  intro start
  have hbound := (h.limited client).interval (ho.sublist (accepted_sublist client)) start
  have hwide : windowWidth ≤ heldWidth := by
    unfold heldWidth
    exact le_add_of_nonneg_right (by norm_num)
  have hfewer : ((accepted settings client served).filter fun t =>
      start ≤ t ∧ t ≤ start + windowWidth).Sublist
      ((accepted settings client served).filter fun t => start ≤ t ∧ t ≤ start + heldWidth) := by
    apply List.monotone_filter_right
    intro t ht
    obtain ⟨hstart, hend⟩ := of_decide_eq_true ht
    exact decide_eq_true ⟨hstart, hend.trans (add_le_add_right hwide start)⟩
  have hlen := hfewer.length_le
  omega

theorem served_ordered {S : Type} {dispatch : S → Request → ℚ → S × Outcome} {s : S}
    {requests : List (Request × ℚ)} (ho : (requests.map Prod.snd).Pairwise (· ≤ ·)) :
    ((serve dispatch s requests).map Served.time).Pairwise (· ≤ ·) := by
  have htimes := congrArg (List.map Prod.snd) (serve_times dispatch s requests)
  rw [List.map_map] at htimes
  rwa [← htimes] at ho

theorem serve_dispatch {requests : List (Request × ℚ)} (ho : (requests.map Prod.snd).Pairwise (· ≤ ·)) :
    serve (dispatch settings) newState requests = serve (slidingWindow settings) [] requests :=
  serve_new harmless_reapIdle ho

theorem throttled_dispatch {requests : List (Request × ℚ)} (hpos : 0 < settings.rateLimitPerMin)
    (ho : (requests.map Prod.snd).Pairwise (· ≤ ·)) (client : String) :
    Throttled settings (serve (dispatch settings) newState requests) client := by
  have hexact := exact_slidingWindow settings requests
  rw [← serve_dispatch ho] at hexact
  exact hexact.throttled hpos (served_ordered ho) client

theorem sliding_window_exact {requests : List (Request × ℚ)} (hpos : 0 < settings.rateLimitPerMin)
    (ho : (requests.map Prod.snd).Pairwise (· ≤ ·)) :
    Exact heldWidth settings (serve (dispatch settings) newState requests) ∧
      (∀ client, Throttled settings (serve (dispatch settings) newState requests) client) ∧
      serve (dispatch settings) newState requests =
        serve (dispatchUnreaped settings) newState requests := by
  have hunreaped : serve (dispatchUnreaped settings) newState requests =
      serve (slidingWindow settings) [] requests := serve_new harmless_none ho
  refine ⟨?_, throttled_dispatch hpos ho, ?_⟩
  · rw [serve_dispatch ho]
    exact exact_slidingWindow settings requests
  · rw [hunreaped, serve_dispatch ho]

def oneAMinute : Settings := ⟨1, false⟩

def listAgents (host : String) : Request := ⟨"/v1/agents", none, some host⟩

-- the second request comes when the first is exactly as old as the window is wide
def boundaryRequests : List (Request × ℚ) :=
  [(listAgents "9.9.9.9", 100), (listAgents "1.2.3.4", 130), (listAgents "9.9.9.9", 160),
    (listAgents "9.9.9.9", 161)]

theorem boundary_requests_limited :
    (serve (dispatch oneAMinute) newState boundaryRequests).map Served.outcome =
        [.callsNext, .callsNext, tooMany, .callsNext] ∧
      Exact heldWidth oneAMinute (serve (dispatch oneAMinute) newState boundaryRequests) ∧
      (∀ client, Throttled oneAMinute (serve (dispatch oneAMinute) newState boundaryRequests) client) ∧
      serve (dispatch oneAMinute) newState boundaryRequests =
        serve (dispatchUnreaped oneAMinute) newState boundaryRequests :=
  ⟨by decide +kernel, sliding_window_exact (by decide) (by decide +kernel)⟩

-- the floats 0.1 and 60.1: the second is 60 and 51 / 2 ^ 55 later, which is a float's 60.0
def roundedRequests : List (Request × ℚ) :=
  [(listAgents "9.9.9.9", 3602879701896397 / 36028797018963968),
    (listAgents "9.9.9.9", 8458323050155213 / 140737488355328)]

theorem rounded_age_limited : ¬ ∀ settings requests, 0 < settings.rateLimitPerMin →
    (requests.map Prod.snd).Pairwise (· ≤ ·) →
      Exact windowWidth settings (serve (dispatch settings) newState requests) ∧
        (∀ client, Throttled settings (serve (dispatch settings) newState requests) client) ∧
        serve (dispatch settings) newState requests =
          serve (dispatchUnreaped settings) newState requests := by
  intro h
  obtain ⟨hexact, -, -⟩ := h oneAMinute roundedRequests (by decide) (by decide +kernel)
  have hserved : serve (dispatch oneAMinute) newState roundedRequests =
      [⟨listAgents "9.9.9.9", 3602879701896397 / 36028797018963968, .callsNext⟩] ++
        ⟨listAgents "9.9.9.9", 8458323050155213 / 140737488355328, tooMany⟩ :: [] := by
    decide +kernel
  have hfull := (hexact _ _ _ hserved (by decide)).mp rfl
  revert hfull
  decide +kernel

end Workbench.RateLimiter
