import Workbench.AgentLoop
import Workbench.IpAddresses

/-!
`workbench_shared.netguard`. `urlsplit`, `str.isspace` and httpx's `URL.join` are up to the library;
what DNS and the servers answer is up to the hops, one for each request that is made.
-/

namespace Workbench.NetGuard

open AgentRuntime (Exc)
open IpAddresses

structure SplitResult where
  scheme : String
  hostname : Option String
  port : Except Exc (Option ℤ)

structure UrlLibrary where
  isSpace : Char → Bool
  urlsplit : String → Except Exc SplitResult
  join : String → String → Except Exc String

inductive LookupFailure
  | gaierror (message : String)
  | other (exc : Exc)

/-- `getaddrinfo` of a host and a port, as far as the addresses it finds. -/
abbrev Resolver := String → Option ℤ → Except LookupFailure (List String)

inductive UrlError
  | unsafeUrl (message : String)
  | raised (exc : Exc)
  deriving DecidableEq

def allowedSchemes : List String := ["http", "https"]

def maxRedirects : ℤ := 5

def cgnat : Network 32 := network4 100 64 0 0 10

def ipIsPublic (ip : String) : Bool :=
  match ipAddress ip with
  | none => false
  | some parsed =>
    let addr := (parsed.ipv4Mapped).elim parsed .v4
    !(addr.isPrivate || addr.isLoopback || addr.isLinkLocal || addr.isMulticast || addr.isReserved ||
      addr.isUnspecified || match addr with
        | .v4 bits => cgnat.contains bits
        | .v6 _ => false)

def UrlLibrary.strip (lib : UrlLibrary) (s : String) : String :=
  String.ofList (((s.toList.dropWhile lib.isSpace).reverse.dropWhile lib.isSpace).reverse)

def LookupFailure.error (host : String) : LookupFailure → UrlError
  | .gaierror message => .unsafeUrl ("cannot resolve host " ++ host ++ ": " ++ message)
  | .other exc => .raised exc

def assertPublicName (dns : Resolver) (url host : String) (port : Option ℤ) : Except UrlError String :=
  match dns host port with
  | .error failure => .error (failure.error host)
  | .ok addrs =>
    if addrs = [] then .error (.unsafeUrl ("host " ++ host ++ " resolved to no addresses"))
    else match addrs.find? fun ip => !ipIsPublic ip with
      | some ip =>
        .error (.unsafeUrl ("host " ++ host ++ " resolves to a non-public address: " ++ ip))
      | none => .ok url

variable (lib : UrlLibrary)

def assertPublicUrl (dns : Resolver) (url : String) : Except UrlError String :=
  if url = "" ∨ lib.strip url = "" then .error (.unsafeUrl "empty url")
  else match lib.urlsplit (lib.strip url) with
    | .error exc => .error (.raised exc)
    | .ok parts =>
      let host := parts.hostname.getD ""
      if parts.scheme.toLower ∉ allowedSchemes then
        .error (.unsafeUrl ("scheme not allowed: " ++
          if parts.scheme = "" then "(none)" else parts.scheme))
      else if host = "" then .error (.unsafeUrl "url has no host")
      else if (ipAddress host).isSome then
        if ipIsPublic host then .ok url
        else .error (.unsafeUrl ("host resolves to a non-public address: " ++ host))
      else match parts.port with
        | .error exc => .error (.raised exc)
        | .ok port => assertPublicName dns url host (port.filter (· ≠ 0))

structure Response where
  isRedirect : Bool
  location : Option String
  deriving DecidableEq

/-- The environment of a request: the DNS that its URL is checked with, the addresses that httpx
connects to when it then resolves a name itself, and what the request gives. -/
structure Hop where
  dns : Resolver
  dialed : List String
  response : Except Exc Response

/-- A request with the addresses that connections are opened to for it. -/
structure Request where
  url : String
  connections : List String
  deriving DecidableEq

structure Fetch where
  result : Except UrlError Response
  requests : List Request

def hostOf (url : String) : Option String :=
  (lib.urlsplit (lib.strip url)).toOption.bind SplitResult.hostname

def Named (url : String) : Prop := ∃ host ∈ hostOf lib url, ipAddress host = none

/-- httpx connects to a literal host as it stands. -/
def connections (url : String) (hop : Hop) : List String :=
  match hostOf lib url with
  | none => []
  | some host => if (ipAddress host).isSome then [host] else hop.dialed

def redirectTarget (current : String) (resp : Response) : Option (Except Exc String) :=
  if resp.isRedirect then resp.location.map (lib.join current) else none

def hops (maxRedirects : ℤ) : ℕ → (ℕ → Hop) → String → Fetch
  | 0, _, _ => ⟨.error (.unsafeUrl ("too many redirects (>" ++ toString maxRedirects ++ ")")), []⟩
  | n + 1, env, current =>
    let request : Request := ⟨current, connections lib current (env 0)⟩
    match (env 0).response with
    | .error exc => ⟨.error (.raised exc), [request]⟩
    | .ok resp => match redirectTarget lib current resp with
      | none => ⟨.ok resp, [request]⟩
      | some (.error exc) => ⟨.error (.raised exc), [request]⟩
      | some (.ok target) => match assertPublicUrl lib (env 1).dns target with
        | .error e => ⟨.error e, [request]⟩
        | .ok next =>
          let rest := hops maxRedirects n (fun k => env (k + 1)) next
          ⟨rest.result, request :: rest.requests⟩

def safeGet (env : ℕ → Hop) (url : String) (maxRedirects : ℤ) : Fetch :=
  match assertPublicUrl lib (env 0).dns url with
  | .error e => ⟨.error e, []⟩
  | .ok current => hops lib maxRedirects (maxRedirects + 1).toNat env current

end Workbench.NetGuard
