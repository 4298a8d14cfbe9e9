import Workbench.NetGuard

namespace Workbench.NetGuard

open IpAddresses

variable {lib : UrlLibrary}

def Vetted (lib : UrlLibrary) (url : String) : Prop :=
  ∀ host ∈ hostOf lib url, (ipAddress host).isSome → ipIsPublic host

def Rebinds (lib : UrlLibrary) (url : String) (hop : Hop) : Prop :=
  Named lib url ∧ ∃ ip ∈ hop.dialed, ¬ ipIsPublic ip

theorem assertPublicName_ok {dns : Resolver} {url host next : String} {port : Option ℤ}
    (h : assertPublicName dns url host port = .ok next) : next = url := by
  unfold assertPublicName at h
  cases hdns : dns host port with
  | error failure => simp [hdns] at h
  | ok addrs =>
    simp only [hdns] at h
    split_ifs at h
    split at h
    · cases h
    · cases h
      rfl

theorem assertPublicUrl_ok {dns : Resolver} {url next : String}
    (h : assertPublicUrl lib dns url = .ok next) : next = url ∧ Vetted lib url := by
  unfold assertPublicUrl at h
  split_ifs at h
  cases hsplit : lib.urlsplit (lib.strip url) with
  | error exc => simp [hsplit] at h
  | ok parts =>
    have hhost : hostOf lib url = parts.hostname := by simp [hostOf, hsplit, Except.toOption]
    simp only [hsplit] at h
    split_ifs at h with hscheme hempty hliteral hpublic
    · cases h
      refine ⟨rfl, fun host hmem _ => ?_⟩
      rw [hhost] at hmem
      rw [Option.mem_def.mp hmem] at hpublic
      exact hpublic
    · refine ⟨?_, fun host hmem hsome => ?_⟩
      · cases hport : parts.port with
        | error exc => simp [hport] at h
        | ok port =>
          simp only [hport] at h
          exact assertPublicName_ok h
      · rw [hhost] at hmem
        rw [Option.mem_def.mp hmem] at hliteral
        exact absurd hsome hliteral

theorem connections_public_iff {url : String} (hv : Vetted lib url) (hop : Hop) :
    (∀ ip ∈ connections lib url hop, ipIsPublic ip) ↔ ¬ Rebinds lib url hop := by
  unfold connections Rebinds Named
  cases hhost : hostOf lib url with
  | none => simp
  | some host =>
    by_cases hliteral : (ipAddress host).isSome
    · have hpublic : ipIsPublic host = true := hv host hhost hliteral
      simp [hliteral, hpublic, Option.isSome_iff_ne_none.mp hliteral]
    · simp [Option.not_isSome_iff_eq_none.mp hliteral]

def followed (lib : UrlLibrary) (env : ℕ → Hop) (current : String) : Option String :=
  (env 0).response.toOption.bind fun resp =>
    (redirectTarget lib current resp).bind fun target =>
      target.toOption.bind fun url => (assertPublicUrl lib (env 1).dns url).toOption

def visited (lib : UrlLibrary) : ℕ → (ℕ → Hop) → String → Option String
  | 0, _, current => some current
  | n + 1, env, current =>
    (followed lib env current).bind (visited lib n fun k => env (k + 1))

theorem vetted_of_followed {env : ℕ → Hop} {current next : String}
    (h : followed lib env current = some next) : Vetted lib next := by
  obtain ⟨resp, _, h⟩ := Option.bind_eq_some_iff.mp h
  obtain ⟨target, _, h⟩ := Option.bind_eq_some_iff.mp h
  obtain ⟨url, _, h⟩ := Option.bind_eq_some_iff.mp h
  cases hguard : assertPublicUrl lib (env 1).dns url with
  | error e => simp [hguard, Except.toOption] at h
  | ok passed =>
    obtain ⟨rfl, hv⟩ := assertPublicUrl_ok hguard
    simp only [hguard, Except.toOption, Option.some.injEq] at h
    exact h ▸ hv

theorem hops_requests_succ (m : ℤ) (n : ℕ) (env : ℕ → Hop) (current : String) :
    (hops lib m (n + 1) env current).requests = ⟨current, connections lib current (env 0)⟩ ::
      (followed lib env current).elim [] fun next =>
        (hops lib m n (fun k => env (k + 1)) next).requests := by
  rw [hops, followed]
  cases (env 0).response with
  | error exc => rfl
  | ok resp =>
    simp only [Except.toOption, Option.bind_some]
    cases redirectTarget lib current resp with
    | none => rfl
    | some target =>
      cases target with
      | error exc => rfl
      | ok url =>
        simp only [Option.bind_some]
        cases assertPublicUrl lib (env 1).dns url with
        | error e => rfl
        | ok next => rfl

theorem hops_length_le (lib : UrlLibrary) (m : ℤ) (n : ℕ) (env : ℕ → Hop) (current : String) :
    (hops lib m n env current).requests.length ≤ n := by
  induction n generalizing env current with
  | zero => simp [hops]
  | succ n ih =>
    rw [hops_requests_succ, List.length_cons]
    cases followed lib env current with
    | none => simp
    | some next =>
      have hrest := ih (fun k => env (k + 1)) next
      simp only [Option.elim_some]
      omega

theorem hops_public_iff (m : ℤ) (n : ℕ) (env : ℕ → Hop) {current : String}
    (hv : Vetted lib current) :
    (∀ r ∈ (hops lib m n env current).requests, ∀ ip ∈ r.connections, ipIsPublic ip) ↔
      ∀ k < n, ∀ url ∈ visited lib k env current, ¬ Rebinds lib url (env k) := by
  induction n generalizing env current with
  | zero => simp [hops]
  | succ n ih =>
    have hfirst := connections_public_iff hv (env 0)
    have hrest : (∀ r ∈ (followed lib env current).elim [] fun next =>
          (hops lib m n (fun k => env (k + 1)) next).requests, ∀ ip ∈ r.connections, ipIsPublic ip) ↔
        ∀ k < n, ∀ url ∈ visited lib (k + 1) env current, ¬ Rebinds lib url (env (k + 1)) := by
      cases hnext : followed lib env current with
      | none => simp [visited, hnext]
      | some next =>
        simpa [visited, hnext] using ih (fun k => env (k + 1)) (vetted_of_followed hnext)
    rw [hops_requests_succ, List.forall_mem_cons, hfirst, hrest]
    constructor
    · rintro ⟨hzero, hsucc⟩ k hk url hurl
      cases k with
      | zero =>
        cases hurl
        exact hzero
      | succ k => exact hsucc k (by omega) url hurl
    · intro h
      exact ⟨h 0 (by omega) current rfl, fun k hk url hurl => h (k + 1) (by omega) url hurl⟩

def hopUrl (lib : UrlLibrary) (env : ℕ → Hop) (url : String) (k : ℕ) : Option String :=
  (assertPublicUrl lib (env 0).dns url).toOption.bind (visited lib k env)

/-- No connection to an address that the guard rejects, and no request past the redirects allowed. -/
structure Guarded (f : Fetch) (maxRedirects : ℤ) : Prop where
  connections : ∀ r ∈ f.requests, ∀ ip ∈ r.connections, ipIsPublic ip
  requests : f.requests.length ≤ (maxRedirects + 1).toNat

theorem safeGet_guarded_iff (lib : UrlLibrary) (env : ℕ → Hop) (url : String) (maxRedirects : ℤ) :
    Guarded (safeGet lib env url maxRedirects) maxRedirects ↔
      ∀ k < (maxRedirects + 1).toNat, ∀ current ∈ hopUrl lib env url k,
        ¬ Rebinds lib current (env k) := by
  unfold safeGet hopUrl
  cases hguard : assertPublicUrl lib (env 0).dns url with
  | error e =>
    simp only [Except.toOption, Option.bind_none, Option.not_mem_none, false_imp_iff, implies_true,
      iff_true]
    exact ⟨by simp, by simp⟩
  | ok current =>
    obtain ⟨rfl, hv⟩ := assertPublicUrl_ok hguard
    have hlength := hops_length_le lib maxRedirects (maxRedirects + 1).toNat env current
    have hpublic := hops_public_iff maxRedirects (maxRedirects + 1).toNat env hv
    simp only [Except.toOption, Option.bind_some]
    exact ⟨fun h => hpublic.mp h.connections, fun h => ⟨hpublic.mpr h, hlength⟩⟩

def reboundUrl : String := "http://rebind.example/"

def reboundLibrary : UrlLibrary where
  isSpace c := c = ' '
  urlsplit url :=
    if url = reboundUrl then .ok ⟨"http", some "rebind.example", .ok none⟩
    else .error ⟨"ValueError", url⟩
  join _ location := .ok location

/-- The name is public when it is checked; resolved again, it is that of the cloud's metadata. -/
def reboundHop : Hop :=
  ⟨fun _ _ => .ok ["93.184.216.34"], ["169.254.169.254"], .ok ⟨false, none⟩⟩

theorem rebound_name_dialed :
    ¬ Guarded (safeGet reboundLibrary (fun _ => reboundHop) reboundUrl maxRedirects) maxRedirects := by
  intro h
  have hrequested : ⟨reboundUrl, ["169.254.169.254"]⟩ ∈
      (safeGet reboundLibrary (fun _ => reboundHop) reboundUrl maxRedirects).requests := by
    decide +kernel
  exact absurd (h.connections _ hrequested "169.254.169.254" (List.mem_singleton_self _))
    (by decide +kernel)

end Workbench.NetGuard
