import Workbench.GatewayStack

namespace Workbench.GatewayStack

open PyJson Services
open RateLimiter (Outcome Served isProtected clientIp windowWidth tooMany)

variable {A B : Type} {settings : Settings} {app : A → Request B × ℚ → A × Except PyError Response}
  {s : State A} {q : Request B × ℚ}

section Settings

structure Hardened (settings : Settings) : Prop where
  apiKey : settings.apiKey ≠ ""
  rateLimit : 0 < settings.rateLimitPerMin
  approvalToken : settings.approvalToken ≠ ""
  corsOrigins : settings.corsOrigins ≠ [] ∧ "*" ∉ settings.corsOrigins

theorem missing_eq_nil : missing settings = [] ↔ Hardened settings := by
  unfold missing
  constructor
  · intro h
    simp only [List.append_eq_nil_iff, ite_eq_right_iff, reduceCtorEq, imp_false, not_or] at h
    exact ⟨h.1.1.1, Int.not_le.mp h.1.1.2, h.1.2, h.2⟩
  · intro h
    simp [h.apiKey, h.rateLimit, h.approvalToken, h.corsOrigins]

theorem hardened_of_up {a : A} (hprod : settings.env = .prod) (hup : createApp settings a = .ok s) :
    Hardened settings ∧ s = ⟨RateLimiter.newState, a⟩ := by
  obtain ⟨u, hvalid, hs⟩ := map_eq_ok.mp hup
  refine ⟨missing_eq_nil.mp ?_, hs.symm⟩
  unfold validateProductionSecurity at hvalid
  rw [if_neg (not_not.mpr hprod)] at hvalid
  by_contra hmissing
  rw [if_pos hmissing] at hvalid
  cases hvalid

end Settings

section Layers

theorem compareDigest_true {a b : String} (h : compareDigest a b = .ok true) : a = b := by
  unfold compareDigest at h
  split_ifs at h with hascii
  simpa using h

theorem mem_setDefault (headers : List (String × String)) (header : String × String) {name : String}
    (h : name ∈ headers.map Prod.fst ∨ name = header.1) :
    name ∈ (setDefault headers header).map Prod.fst := by
  unfold setDefault
  split_ifs with hthere
  · rcases h with h | rfl
    · exact h
    · exact hthere
  · rw [List.map_append, List.mem_append, List.map_singleton, List.mem_singleton]
    exact h

theorem mem_setDefaults (added headers : List (String × String)) {name : String}
    (h : name ∈ headers.map Prod.fst ∨ name ∈ added.map Prod.fst) :
    name ∈ (added.foldl setDefault headers).map Prod.fst := by
  induction added generalizing headers with
  | nil =>
    rcases h with h | h
    · exact h
    · cases h
  | cons header added ih =>
    apply ih
    rw [List.map_cons, List.mem_cons] at h
    rcases h with h | h | h
    · exact .inl (mem_setDefault headers header (.inl h))
    · exact .inl (mem_setDefault headers header (.inr h))
    · exact .inr h

inductive DispatchTo (settings : Settings) (app : A → Request B × ℚ → A × Except PyError Response)
    (s : State A) (q : Request B × ℚ) : State A × Exchange B → Prop
  | refused (limiter : RateLimiter.State) (statusCode : ℕ) (detail : String)
      (hl : RateLimiter.dispatch settings.toSettings s.limiter q.1.toRequest q.2 =
        (limiter, .refuses statusCode detail)) :
      DispatchTo settings app s q (⟨limiter, s.app⟩,
        ⟨q.1, q.2, .refuses statusCode detail, false, .ok (stamp (jsonResponse statusCode detail))⟩)
  | denied (limiter : RateLimiter.State) (response : Except PyError Response)
      (hl : RateLimiter.dispatch settings.toSettings s.limiter q.1.toRequest q.2 =
        (limiter, .callsNext)) :
      DispatchTo settings app s q
        (⟨limiter, s.app⟩, ⟨q.1, q.2, .callsNext, false, response.map stamp⟩)
  | reached (limiter : RateLimiter.State)
      (hl : RateLimiter.dispatch settings.toSettings s.limiter q.1.toRequest q.2 =
        (limiter, .callsNext))
      (hk : settings.apiKey = "" ∨ isProtected q.1.path = false ∨
        q.1.xApiKey.getD "" = settings.apiKey) :
      DispatchTo settings app s q (⟨limiter, (app s.app q).1⟩,
        ⟨q.1, q.2, .callsNext, true, (app s.app q).2.map stamp⟩)

theorem dispatch_cases : DispatchTo settings app s q (dispatch settings app s q) := by
  unfold dispatch rateLimitDispatch
  rcases hl : RateLimiter.dispatch settings.toSettings s.limiter q.1.toRequest q.2 with ⟨limiter, outcome⟩
  cases outcome with
  | refuses statusCode detail => exact .refused limiter statusCode detail hl
  | callsNext =>
    simp only [apiKeyDispatch]
    split_ifs with hkey
    · cases hd : compareDigest (q.1.xApiKey.getD "") settings.apiKey with
      | error e => exact .denied limiter (.error e) hl
      | ok same =>
        cases same with
        | false => exact .denied limiter (.ok _) hl
        | true => exact .reached limiter hl (.inr (.inr (compareDigest_true hd)))
    · apply DispatchTo.reached limiter hl
      by_cases hnone : settings.apiKey = ""
      · exact .inl hnone
      · exact .inr (.inl (Bool.eq_false_iff.mpr fun hp => hkey ⟨hnone, hp⟩))

theorem stamped_dispatch {r : Response} (h : (dispatch settings app s q).2.response = .ok r) :
    ∀ header ∈ securityHeaders, header.1 ∈ r.headers.map Prod.fst := by
  obtain ⟨response, -, rfl⟩ := map_eq_ok.mp h
  intro header hheader
  exact mem_setDefaults securityHeaders response.headers (.inr (List.mem_map_of_mem hheader))

theorem keyed_dispatch (hkey : settings.apiKey ≠ "")
    (hp : isProtected (dispatch settings app s q).2.request.path = true)
    (hr : (dispatch settings app s q).2.reached = true) :
    (dispatch settings app s q).2.request.xApiKey = some settings.apiKey := by
  have hcases : DispatchTo settings app s q (dispatch settings app s q) := dispatch_cases
  revert hp hr hcases
  generalize dispatch settings app s q = out
  intro hp hr hcases
  cases hcases with
  | refused limiter statusCode detail hl => cases hr
  | denied limiter response hl => cases hr
  | reached limiter hl hk =>
    rcases hk with hk | hk | hk
    · exact absurd hk hkey
    · rw [hk] at hp
      cases hp
    · cases hx : q.1.xApiKey with
      | none =>
        rw [hx] at hk
        exact absurd hk.symm hkey
      | some key =>
        rw [hx] at hk
        exact congrArg some hk

end Layers

section Runs

def passed (served : List (Exchange B)) : List (Exchange B) := served.filter fun e => e.reached

theorem served_limiter (s : State A) (requests : List (Request B × ℚ)) :
    (serveAll (dispatch settings app) s requests).2.map
        (fun e => (⟨e.request.toRequest, e.time, e.outcome⟩ : Served)) =
      RateLimiter.serve (RateLimiter.dispatch settings.toSettings) s.limiter
        (requests.map fun q => (q.1.toRequest, q.2)) := by
  induction requests generalizing s with
  | nil => rfl
  | cons q requests ih =>
    have hcases : DispatchTo settings app s q (dispatch settings app s q) := dispatch_cases
    rw [serveAll, List.map_cons, ih]
    revert hcases
    generalize dispatch settings app s q = out
    intro hcases
    cases hcases with
    | refused limiter statusCode detail hl => simp only [RateLimiter.serve, List.map_cons, hl]
    | denied limiter response hl => simp only [RateLimiter.serve, List.map_cons, hl]
    | reached limiter hl hk => simp only [RateLimiter.serve, List.map_cons, hl]

theorem routes_alone (s : State A) (requests : List (Request B × ℚ)) :
    (serveAll (dispatch settings app) s requests).1.app =
        (serveAll app s.app ((passed (serveAll (dispatch settings app) s requests).2).map
          fun e => (e.request, e.time))).1 ∧
      (passed (serveAll (dispatch settings app) s requests).2).map Exchange.response =
        (serveAll app s.app ((passed (serveAll (dispatch settings app) s requests).2).map
          fun e => (e.request, e.time))).2.map (Except.map stamp) := by
  induction requests generalizing s with
  | nil => exact ⟨rfl, rfl⟩
  | cons q requests ih =>
    have hcases : DispatchTo settings app s q (dispatch settings app s q) := dispatch_cases
    simp only [serveAll]
    revert hcases
    generalize dispatch settings app s q = out
    intro hcases
    obtain ⟨happ, hresponses⟩ := ih out.1
    cases hcases with
    | refused limiter statusCode detail hl => exact ⟨happ, hresponses⟩
    | denied limiter response hl => exact ⟨happ, hresponses⟩
    | reached limiter hl hk => exact ⟨happ, congrArg (_ :: ·) hresponses⟩

def letThrough (settings : Settings) (client : String) (start : ℚ) (served : List (Exchange B)) :
    List (Exchange B) :=
  served.filter fun e => isProtected e.request.path = true ∧
    clientIp settings.toSettings e.request.toRequest = client ∧ e.outcome = .callsNext ∧
      start ≤ e.time ∧ e.time ≤ start + windowWidth

theorem letThrough_length (hlimit : 0 < settings.rateLimitPerMin) (client : String) (start : ℚ)
    (served : List (Exchange B)) :
    (letThrough settings client start served).length =
      ((RateLimiter.accepted settings.toSettings client (served.map
        fun e => (⟨e.request.toRequest, e.time, e.outcome⟩ : Served))).filter
          fun t => start ≤ t ∧ t ≤ start + windowWidth).length := by
  have hlimits : ∀ request : RateLimiter.Request,
      RateLimiter.Limits settings.toSettings request ↔ isProtected request.path = true := by
    intro request
    exact and_iff_right hlimit.ne'
  simp only [letThrough, RateLimiter.accepted, List.filter_map, List.length_map, List.filter_filter]
  congr 2
  funext e
  simp only [Function.comp_apply, hlimits, Bool.decide_and, Bool.and_comm, Bool.and_assoc,
    Bool.and_left_comm]

theorem letThrough_le (hlimit : 0 < settings.rateLimitPerMin) {s : State A}
    (hs : s.limiter = RateLimiter.newState) {requests : List (Request B × ℚ)}
    (ho : (requests.map Prod.snd).Pairwise (· ≤ ·)) (client : String) (start : ℚ) :
    ((letThrough settings client start (serveAll (dispatch settings app) s requests).2).length : ℤ) ≤
      settings.rateLimitPerMin := by
  have htimes : ((requests.map fun q => (q.1.toRequest, q.2)).map Prod.snd).Pairwise (· ≤ ·) := by
    rw [List.map_map]
    exact ho
  rw [letThrough_length hlimit, served_limiter, hs]
  exact RateLimiter.throttled_dispatch hlimit htimes client start

end Runs

structure Guarded (settings : Settings) (app : A → Request B × ℚ → A × Except PyError Response) (a : A)
    (out : State A × List (Exchange B)) : Prop where
  keyed : ∀ e ∈ out.2, isProtected e.request.path = true → e.reached = true →
    e.request.xApiKey = some settings.apiKey
  throttled : ∀ client start,
    ((letThrough settings client start out.2).length : ℤ) ≤ settings.rateLimitPerMin
  stamped : ∀ e ∈ out.2, ∀ r, e.response = .ok r →
    ∀ header ∈ securityHeaders, header.1 ∈ r.headers.map Prod.fst
  routes : out.1.app = (serveAll app a ((passed out.2).map fun e => (e.request, e.time))).1
  responses : (passed out.2).map Exchange.response =
    (serveAll app a ((passed out.2).map fun e => (e.request, e.time))).2.map (Except.map stamp)

/-- A gateway that comes up in production lets a request under `/v1` to the routes only with the key,
lets no client try more than the limit of them within a minute, with or without the key, and marks
every response; and its routes answer as if the requests that reach them were all there are. -/
theorem production_gateway_guarded {a : A} {requests : List (Request B × ℚ)}
    (hprod : settings.env = .prod) (hup : createApp settings a = .ok s)
    (ho : (requests.map Prod.snd).Pairwise (· ≤ ·)) :
    Guarded settings app a (serveAll (dispatch settings app) s requests) := by
  obtain ⟨hset, rfl⟩ := hardened_of_up hprod hup
  constructor
  · intro e he hp hr
    obtain ⟨t, q, -, rfl⟩ := mem_serveAll he
    exact keyed_dispatch hset.apiKey hp hr
  · exact letThrough_le hset.rateLimit rfl ho
  · intro e he r hr
    obtain ⟨t, q, -, rfl⟩ := mem_serveAll he
    exact stamped_dispatch hr
  · exact (routes_alone _ requests).1
  · exact (routes_alone _ requests).2

def twoAMinute : Settings where
  rateLimitPerMin := 2
  trustProxyHeaders := false
  env := .prod
  apiKey := "k"
  approvalToken := "t"
  corsOrigins := ["https://console.local"]

def counting (n : ℕ) (_ : Request Unit × ℚ) : ℕ × Except PyError Response :=
  (n + 1, .ok ⟨200, [], .null⟩)

def asked (path : String) (xApiKey : Option String) : Request Unit :=
  ⟨⟨path, none, some "9.9.9.9"⟩, xApiKey, ()⟩

-- refused for its key, served, refused for the limit, served
def askedRequests : List (Request Unit × ℚ) :=
  [(asked "/v1/agents" none, 100), (asked "/v1/agents" (some "k"), 101),
    (asked "/v1/agents" (some "k"), 102), (asked "/healthz" none, 103)]

theorem two_a_minute_guarded :
    (serveAll (dispatch twoAMinute counting) ⟨RateLimiter.newState, 0⟩ askedRequests).1.app = 2 ∧
      Guarded twoAMinute counting 0
        (serveAll (dispatch twoAMinute counting) ⟨RateLimiter.newState, 0⟩ askedRequests) :=
  ⟨by decide +kernel, production_gateway_guarded rfl rfl (by decide +kernel)⟩

end Workbench.GatewayStack
