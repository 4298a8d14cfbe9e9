import Workbench.PyJson
import Workbench.RateLimits
import Workbench.Services

/-!
`workbench_gateway.security` and the middleware that `create_app` puts around the routes. The routes
with their CORS layer are whatever `app` is; a request is dispatched before the next one is.
-/

namespace Workbench.GatewayStack

open PyJson Services
open RateLimiter (Outcome isProtected clientIp)

inductive Env
  | dev
  | test
  | prod
  deriving DecidableEq

structure Settings extends RateLimiter.Settings where
  env : Env
  apiKey : String
  approvalToken : String
  corsOrigins : List String

def missing (settings : Settings) : List String :=
  (if settings.apiKey = "" then ["WB_API_KEY (gateway /v1/* auth)"] else []) ++
    (if settings.rateLimitPerMin ≤ 0 then ["WB_RATE_LIMIT_PER_MIN (>0, per-IP /v1/* throttle)"]
      else []) ++
    (if settings.approvalToken = "" then ["WB_APPROVAL_TOKEN (workflow approve/reject gate)"]
      else []) ++
    if settings.corsOrigins = [] ∨ "*" ∈ settings.corsOrigins then
      ["WB_CORS_ORIGINS (explicit origin list, no '*')"] else []

/-- The error is the message of a `ProductionConfigError`. -/
def validateProductionSecurity (settings : Settings) : Except String Unit :=
  if settings.env ≠ .prod then .ok ()
  else if missing settings ≠ [] then
    .error ("env=prod requires hardened security config; set: " ++ "; ".intercalate (missing settings))
  else .ok ()

structure Request (B : Type) extends RateLimiter.Request where
  xApiKey : Option String
  body : B

/-- The names of headers are in lower case. -/
structure Response where
  statusCode : ℕ
  headers : List (String × String)
  content : Json

def jsonResponse (statusCode : ℕ) (detail : String) : Response :=
  ⟨statusCode, [("content-type", "application/json")], .dict [("detail", .str detail)]⟩

def securityHeaders : List (String × String) :=
  [("x-content-type-options", "nosniff"), ("x-frame-options", "DENY"),
    ("referrer-policy", "no-referrer"),
    ("strict-transport-security", "max-age=63072000; includeSubDomains")]

def setDefault (headers : List (String × String)) (header : String × String) :
    List (String × String) :=
  if header.1 ∈ headers.map Prod.fst then headers else headers ++ [header]

def stamp (response : Response) : Response :=
  { response with headers := securityHeaders.foldl setDefault response.headers }

def compareDigest (a b : String) : Except PyError Bool :=
  if a.toList.all Char.isAscii ∧ b.toList.all Char.isAscii then .ok (a = b) else .error .typeError

variable {A B : Type} (settings : Settings)
  (app : A → Request B × ℚ → A × Except PyError Response)

/-- What a request came to: the verdicts of the limiter and of the key, `none` where it was not asked
for one, and whether it got to the routes. -/
structure Exchange (B : Type) where
  request : Request B
  time : ℚ
  outcome : Outcome
  reached : Bool
  response : Except PyError Response

structure State (A : Type) where
  limiter : RateLimiter.State
  app : A

def apiKeyDispatch (a : A) (q : Request B × ℚ) : A × Bool × Except PyError Response :=
  if settings.apiKey ≠ "" ∧ isProtected q.1.path = true then
    match compareDigest (q.1.xApiKey.getD "") settings.apiKey with
    | .error e => (a, false, .error e)
    | .ok false => (a, false, .ok (jsonResponse 401 "invalid or missing API key"))
    | .ok true => ((app a q).1, true, (app a q).2)
  else ((app a q).1, true, (app a q).2)

def rateLimitDispatch (s : State A) (q : Request B × ℚ) : State A × Exchange B :=
  let limited := RateLimiter.dispatch settings.toSettings s.limiter q.1.toRequest q.2
  match limited.2 with
  | .refuses statusCode detail =>
    (⟨limited.1, s.app⟩, ⟨q.1, q.2, limited.2, false, .ok (jsonResponse statusCode detail)⟩)
  | .callsNext =>
    let keyed := apiKeyDispatch settings app s.app q
    (⟨limited.1, keyed.1⟩, ⟨q.1, q.2, limited.2, keyed.2.1, keyed.2.2⟩)

def dispatch (s : State A) (q : Request B × ℚ) : State A × Exchange B :=
  let served := rateLimitDispatch settings app s q
  (served.1, { served.2 with response := served.2.response.map stamp })

/-- The gateway that `create_app` gives; it does not come up on settings that are not fit for
production. -/
def createApp (a : A) : Except String (State A) :=
  (validateProductionSecurity settings).map fun _ => ⟨RateLimiter.newState, a⟩

end Workbench.GatewayStack
