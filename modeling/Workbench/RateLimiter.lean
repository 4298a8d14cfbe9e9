import Workbench.Doubles
import Workbench.PyText
import Workbench.SlidingWindows
import Mathlib.Algebra.Order.Ring.Unbundled.Rat
import Mathlib.Data.Rat.Init
import Mathlib.Logic.Function.Basic

/-!
`RateLimitMiddleware` of `workbench_gateway.security`. A dispatch does not await before it has
decided, so that requests are dispatched one after the other; each reads the clock, in seconds. A
reading is a float, and so is the difference of two.
-/

namespace Workbench.RateLimiter

open PyText

structure Settings where
  rateLimitPerMin : ℤ
  trustProxyHeaders : Bool

structure Request where
  path : String
  xForwardedFor : Option String
  clientHost : Option String
  deriving DecidableEq

def cleanupInterval : ℚ := 60

def windowWidth : ℚ := 60

def isProtected (path : String) : Bool := "/v1".toList.isPrefixOf path.toList

structure State where
  hits : String → Option (List ℚ)
  lastCleanup : ℚ

def newState : State := ⟨fun _ => none, 0⟩

inductive Outcome
  | callsNext
  | refuses (statusCode : ℕ) (detail : String)
  deriving DecidableEq

def tooMany : Outcome := .refuses 429 "rate limit exceeded"

def isStale (now : ℚ) (window : List ℚ) : Bool :=
  match window.getLast? with
  | none => true
  | some last => windowWidth < Doubles.sub now last

def reapIdle (s : State) (now : ℚ) : State :=
  if Doubles.sub now s.lastCleanup < cleanupInterval then s
  else ⟨fun ip => (s.hits ip).filter fun window => !isStale now window, now⟩

def socketPeer (request : Request) : String := request.clientHost.getD "anon"

/-- `fwd.split(",")[0].strip()`. -/
def firstHop (fwd : String) : String := String.ofList (stripChars (fwd.toList.takeWhile (· ≠ ',')))

def clientIp (settings : Settings) (request : Request) : String :=
  if settings.trustProxyHeaders then
    match request.xForwardedFor with
    | some fwd => if fwd = "" then socketPeer request else firstHop fwd
    | none => socketPeer request
  else socketPeer request

def Limits (settings : Settings) (request : Request) : Prop :=
  settings.rateLimitPerMin ≠ 0 ∧ isProtected request.path = true

instance (settings : Settings) (request : Request) : Decidable (Limits settings request) :=
  inferInstanceAs (Decidable (_ ∧ _))

def dispatchWith (reap : State → ℚ → State) (settings : Settings) (s : State) (request : Request)
    (now : ℚ) : State × Outcome :=
  if Limits settings request then
    let client := clientIp settings request
    let s := reap s now
    let window := ((s.hits client).getD []).dropWhile fun t => windowWidth < Doubles.sub now t
    if settings.rateLimitPerMin ≤ window.length then
      ({ s with hits := Function.update s.hits client (some window) }, tooMany)
    else ({ s with hits := Function.update s.hits client (some (window ++ [now])) }, .callsNext)
  else (s, .callsNext)

def dispatch : Settings → State → Request → ℚ → State × Outcome := dispatchWith reapIdle

def dispatchUnreaped : Settings → State → Request → ℚ → State × Outcome := dispatchWith fun s _ => s

structure Served where
  request : Request
  time : ℚ
  outcome : Outcome
  deriving DecidableEq

def serve {S : Type} (dispatch : S → Request → ℚ → S × Outcome) (s : S) :
    List (Request × ℚ) → List Served
  | [] => []
  | (request, now) :: requests =>
    ⟨request, now, (dispatch s request now).2⟩ :: serve dispatch (dispatch s request now).1 requests

def accepted (settings : Settings) (client : String) (served : List Served) : List ℚ :=
  (served.filter fun e => Limits settings e.request ∧ clientIp settings e.request = client ∧
    e.outcome = .callsNext).map Served.time

end Workbench.RateLimiter
