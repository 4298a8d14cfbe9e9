import Workbench.RateLimits

/-!
Clients behind one trusted reverse proxy, which appends the address of its peer to the
`X-Forwarded-For` it receives.
-/

namespace Workbench.RateLimiter

structure ClientRequest where
  address : String
  path : String
  /-- The lines of the header that the client itself sends. -/
  xForwardedFor : List String
  address_ne : address ≠ ""
  deriving DecidableEq

/-- The lines joined, and behind them the address. -/
def ClientRequest.forwarded (q : ClientRequest) : String :=
  q.xForwardedFor.foldr (fun line rest => line ++ (", " ++ rest)) q.address

def proxied (proxyHost : String) (q : ClientRequest) : Request :=
  ⟨q.path, some q.forwarded, some proxyHost⟩

/-- What the client puts first: before the first comma of the header it sends, or its address. -/
def ClientRequest.claim (q : ClientRequest) : String := firstHop (q.xForwardedFor.headD q.address)

def Counts (settings : Settings) (proxyHost address : String) (q : ClientRequest) : Prop :=
  q.address = address ∧ Limits settings (proxied proxyHost q)

instance (settings : Settings) (proxyHost address : String) (q : ClientRequest) :
    Decidable (Counts settings proxyHost address q) := inferInstanceAs (Decidable (_ ∧ _))

section Proxied

variable (settings : Settings) (proxyHost address : String) (requests : List (ClientRequest × ℚ))

def served : List Served :=
  serve (dispatch settings) newState (requests.map fun q => (proxied proxyHost q.1, q.2))

def letIn : List ℚ :=
  ((requests.zip (served settings proxyHost requests)).filter fun p =>
    Counts settings proxyHost address p.1.1 ∧ p.2.outcome = .callsNext).map fun p => p.2.time

def OneBucket : Prop :=
  ∀ q ∈ requests, ∀ q' ∈ requests, Counts settings proxyHost address q.1 →
    Counts settings proxyHost address q'.1 →
      clientIp settings (proxied proxyHost q.1) = clientIp settings (proxied proxyHost q'.1)

def Confined : Prop :=
  OneBucket settings proxyHost address requests ∧
    ∀ start, (((letIn settings proxyHost address requests).filter fun t =>
      start ≤ t ∧ t ≤ start + windowWidth).length : ℤ) ≤ settings.rateLimitPerMin

end Proxied

variable {settings : Settings} {proxyHost address : String} {requests : List (ClientRequest × ℚ)}

theorem takeWhile_append_cons {α : Type} {p : α → Bool} {a : α} (h : p a = false) (xs ys : List α) :
    (xs ++ a :: ys).takeWhile p = xs.takeWhile p := by
  induction xs with
  | nil => exact List.takeWhile_cons_of_neg (by simp [h])
  | cons x xs ih =>
    rw [List.cons_append, List.takeWhile_cons, List.takeWhile_cons, ih]

theorem firstHop_append (line rest : String) : firstHop (line ++ (", " ++ rest)) = firstHop line := by
  unfold firstHop
  have hchars : (line ++ (", " ++ rest)).toList = line.toList ++ ',' :: ' ' :: rest.toList := by
    rw [String.toList_append, String.toList_append]
    rfl
  rw [hchars, takeWhile_append_cons (by decide)]

theorem forwarded_cases (q : ClientRequest) :
    q.forwarded ≠ "" ∧ firstHop q.forwarded = q.claim := by
  unfold ClientRequest.forwarded ClientRequest.claim
  cases q.xForwardedFor with
  | nil => exact ⟨q.address_ne, rfl⟩
  | cons line lines =>
    refine ⟨?_, firstHop_append _ _⟩
    intro h
    have hchars := congrArg String.toList h
    simp at hchars

theorem clientIp_proxied (ht : settings.trustProxyHeaders = true) (q : ClientRequest) :
    clientIp settings (proxied proxyHost q) = q.claim := by
  obtain ⟨hne, hclaim⟩ := forwarded_cases q
  simp only [clientIp, proxied]
  rw [if_pos ht, if_neg hne, hclaim]

theorem served_request {p : (ClientRequest × ℚ) × Served}
    (h : p ∈ requests.zip (served settings proxyHost requests)) :
    p.2.request = proxied proxyHost p.1.1 := by
  have hrequests := congrArg (List.map Prod.fst) (serve_times (dispatch settings) newState
    (requests.map fun q => (proxied proxyHost q.1, q.2)))
  rw [List.map_map, List.map_map] at hrequests
  obtain ⟨i, hi, hp⟩ := List.getElem_of_mem h
  have hget := congrArg (fun l : List Request => l[i]?) hrequests
  simp only [List.length_zip, lt_inf_iff] at hi
  simp only [List.getElem?_map, List.getElem?_eq_getElem hi.1] at hget
  rw [List.getElem?_eq_getElem (show i < (serve (dispatch settings) newState
    (requests.map fun q => (proxied proxyHost q.1, q.2))).length from hi.2)] at hget
  rw [← hp, List.getElem_zip]
  exact Option.some.inj hget

theorem letIn_sublist (ht : settings.trustProxyHeaders = true) {hop : String}
    (h : ∀ q ∈ requests, Counts settings proxyHost address q.1 → q.1.claim = hop) :
    (letIn settings proxyHost address requests).Sublist
      (accepted settings hop (served settings proxyHost requests)) := by
  have hlen : (served settings proxyHost requests).length ≤ requests.length := by
    have htimes := congrArg List.length (serve_times (dispatch settings) newState
      (requests.map fun q => (proxied proxyHost q.1, q.2)))
    simp only [List.length_map] at htimes
    exact htimes.le
  have hzip : (requests.zip (served settings proxyHost requests)).map Prod.snd =
      served settings proxyHost requests := List.map_snd_zip hlen
  have haccepted : accepted settings hop (served settings proxyHost requests) =
      ((requests.zip (served settings proxyHost requests)).filter fun p =>
        Limits settings p.2.request ∧ clientIp settings p.2.request = hop ∧
          p.2.outcome = .callsNext).map fun p => p.2.time := by
    conv_lhs => rw [← hzip, accepted, List.filter_map, List.map_map]
    rfl
  rw [haccepted]
  apply List.Sublist.map
  have hkept : (requests.zip (served settings proxyHost requests)).filter (fun p =>
      Counts settings proxyHost address p.1.1 ∧ p.2.outcome = .callsNext) =
      (requests.zip (served settings proxyHost requests)).filter fun p =>
        (Limits settings p.2.request ∧ clientIp settings p.2.request = hop ∧
          p.2.outcome = .callsNext) ∧ p.1.1.address = address := by
    apply List.filter_congr
    intro p hp
    have hrequest := served_request hp
    have hmem : p.1 ∈ requests := (List.of_mem_zip hp).1
    apply decide_eq_decide.mpr
    rw [hrequest, clientIp_proxied ht]
    constructor
    · rintro ⟨hcounts, ho⟩
      exact ⟨⟨hcounts.2, h p.1 hmem hcounts, ho⟩, hcounts.1⟩
    · rintro ⟨⟨hl, -, ho⟩, ha⟩
      exact ⟨⟨ha, hl⟩, ho⟩
  rw [hkept]
  apply List.monotone_filter_right
  intro p hp
  exact decide_eq_true (of_decide_eq_true hp).1

theorem window_confined_iff (hpos : 0 < settings.rateLimitPerMin)
    (ht : settings.trustProxyHeaders = true) (ho : (requests.map Prod.snd).Pairwise (· ≤ ·))
    (proxyHost address : String) :
    Confined settings proxyHost address requests ↔
      ∃ hop, ∀ q ∈ requests, Counts settings proxyHost address q.1 → q.1.claim = hop := by
  constructor
  · rintro ⟨hone, -⟩
    by_cases hany : ∃ q ∈ requests, Counts settings proxyHost address q.1
    · obtain ⟨q, hq, hcounts⟩ := hany
      refine ⟨q.1.claim, ?_⟩
      intro q' hq' hcounts'
      have hsame := hone q' hq' q hq hcounts' hcounts
      rwa [clientIp_proxied ht, clientIp_proxied ht] at hsame
    · exact ⟨"", fun q hq hcounts => absurd ⟨q, hq, hcounts⟩ hany⟩
  · rintro ⟨hop, hclaim⟩
    constructor
    · intro q hq q' hq' hcounts hcounts'
      rw [clientIp_proxied ht, clientIp_proxied ht, hclaim q hq hcounts, hclaim q' hq' hcounts']
    · intro start
      have htimes : ((requests.map fun q => (proxied proxyHost q.1, q.2)).map Prod.snd).Pairwise
          (· ≤ ·) := by rwa [List.map_map]
      have hbound := throttled_dispatch hpos htimes hop start
      have hfewer := ((letIn_sublist ht hclaim).filter fun t =>
        decide (start ≤ t ∧ t ≤ start + windowWidth)).length_le
      exact (Int.ofNat_le.mpr hfewer).trans hbound

def oneAMinuteBehindProxy : Settings := ⟨1, true⟩

def chosen (hop : String) : ClientRequest := ⟨"5.6.7.8", "/v1/agents", [hop], by decide⟩

def steadyRequests : List (ClientRequest × ℚ) := [(chosen "1.1.1.1", 0), (chosen "1.1.1.1, 9.9.9.9", 1)]

theorem steady_requests_confined :
    (Confined oneAMinuteBehindProxy "10.0.0.1" "5.6.7.8" steadyRequests ↔
      ∃ hop, ∀ q ∈ steadyRequests,
        Counts oneAMinuteBehindProxy "10.0.0.1" "5.6.7.8" q.1 → q.1.claim = hop) ∧
      Confined oneAMinuteBehindProxy "10.0.0.1" "5.6.7.8" steadyRequests := by
  have hiff : _ ↔ _ := @window_confined_iff oneAMinuteBehindProxy steadyRequests (by decide) rfl
    (by decide +kernel) "10.0.0.1" "5.6.7.8"
  exact ⟨hiff, hiff.mpr ⟨"1.1.1.1", by decide +kernel⟩⟩

-- a new claim with each request
def spoofedRequests : List (ClientRequest × ℚ) := [(chosen "1.1.1.1", 0), (chosen "2.2.2.2", 1)]

theorem spoofed_requests_unconfined :
    ¬ Confined oneAMinuteBehindProxy "10.0.0.1" "5.6.7.8" spoofedRequests := by
  rintro ⟨-, hbound⟩
  exact absurd (hbound 0) (by decide +kernel)

end Workbench.RateLimiter
