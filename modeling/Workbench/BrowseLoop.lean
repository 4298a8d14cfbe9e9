import Workbench.BrowseActions

/-!
`run_browse` of `workbench_app_cua.browse`. What the pages, the browser and the model do is up to
the session, with a reply for each turn of the loop; `dns` is what names resolve to meanwhile.
-/

namespace Workbench.Browse

open NetGuard KeyedTable
open AgentRuntime (Exc StepOutput)

structure Element where
  selector : String
  kind : String
  text : String
  deriving DecidableEq

structure Observation where
  title : String
  url : String
  elements : List Element
  text : String
  deriving DecidableEq

structure Node where
  visible : Bool
  tag : String
  id : String
  innerText : String
  value : String
  ariaLabel : String
  placeholder : String
  name : String

structure Page where
  title : String
  nodes : List Node
  bodyText : String

def maxSteps : ℤ := 7

def maxElements : ℕ := 30

def maxTextChars : ℕ := 1500

def maxLabelChars : ℕ := 80

def cut (n : ℕ) (s : String) : String := String.ofList (s.toList.take n)

def Node.kind (node : Node) : String :=
  if node.tag = "a" then "link"
  else if node.tag = "input" ∨ node.tag = "textarea" then "input"
  else node.tag

def Node.label (node : Node) : String :=
  ([node.innerText, node.value, node.ariaLabel, node.placeholder, node.name].find? (· ≠ "")).getD ""

section Observing

variable (lib : BrowseLibrary)

def interactable : ℕ → ℕ → List Node → List Element
  | _, _, [] => []
  | room, n, node :: nodes =>
    if room = 0 then []
    else if !node.visible then interactable room n nodes
    else if node.id = "" then
      ⟨"[data-cua-ref=\"" ++ toString n ++ "\"]", node.kind, lib.trim node.label⟩ ::
        interactable (room - 1) (n + 1) nodes
    else ⟨"#" ++ lib.cssEscape node.id, node.kind, lib.trim node.label⟩ ::
      interactable (room - 1) n nodes

def Element.shorten (el : Element) : Element :=
  if maxLabelChars < el.text.length then { el with text := cut maxLabelChars el.text ++ "…" } else el

def words (s : String) : List String :=
  ((s.toList.splitOnP lib.isSpace).filter (· ≠ [])).map String.ofList

def observe (page : Page) (url : String) : Observation :=
  ⟨page.title, url, (interactable lib maxElements 0 page.nodes).map Element.shorten,
    cut maxTextChars (" ".intercalate (words lib page.bodyText))⟩

end Observing

def renderObservation (obs : Observation) : String :=
  "\n".intercalate (["TITLE: " ++ obs.title, "URL: " ++ obs.url, "ELEMENTS:"] ++
    (obs.elements.map fun el => "  [" ++ el.kind ++ "] " ++ el.selector ++ " — " ++ el.text) ++
    (if obs.elements = [] then ["  (none)"] else []) ++
    ["TEXT SNAPSHOT:", if obs.text = "" then "(empty)" else obs.text])

def summarizeObservation (obs : Observation) : String :=
  (if obs.title = "" then "(untitled)" else obs.title) ++ " @ " ++ obs.url ++ " (" ++
    toString obs.elements.length ++ " interactable)"

def prompt (goal : String) (obs : Observation) : String :=
  "GOAL: " ++ goal ++ "\n\nCURRENT PAGE OBSERVATION:\n" ++ renderObservation obs ++
    "\n\nReply with ONE JSON action object."

structure BrowseStep where
  observationSummary : String
  action : Action
  note : Option String

structure BrowseResult where
  url : String
  goal : String
  steps : List BrowseStep
  answer : String
  completed : Bool
  provider : Option String
  costUsd : Option ℚ

inductive Event
  | sent (obs : Observation) (prompt : String)
  | executed (obs : Observation) (action : Action)
  deriving DecidableEq

structure BrowseState where
  steps : List BrowseStep
  answer : String
  completed : Bool
  provider : Option String
  costUsd : Option ℚ
  sensitiveEntered : Bool
  pageUrl : String
  events : List Event

def newState (url : String) : BrowseState := ⟨[], "", false, none, none, false, url, []⟩

inductive RouterReply (J : Type)
  | answered (out : StepOutput J)
  | unavailable
  | raised (exc : Exc)

/-- What happens in one turn: where a redirect, a click or a script has taken the page from the URL
it was at, what is seen of it there, what the model replies and what its action raises. -/
structure TurnReply (J : Type) where
  moved : Option String
  page : Except Exc Page
  router : RouterReply J
  failure : Option Exc

/-- With what is raised before the first turn, and what by closing the browser. -/
structure Session (J : Type) where
  opening : Option Exc
  turn : ℕ → TurnReply J
  closing : Option Exc

inductive Flow
  | goesOn
  | breaks
  | raises (exc : Exc)

variable {J : Type}

def BrowseState.append (s : BrowseState) (step : BrowseStep) : BrowseState :=
  { s with steps := s.steps ++ [step] }

def BrowseState.send (s : BrowseState) (goal : String) (obs : Observation) : BrowseState :=
  { s with pageUrl := obs.url, events := s.events ++ [.sent obs (prompt goal obs)] }

def BrowseState.charge (s : BrowseState) (out : StepOutput J) : BrowseState :=
  { s with
    provider := if out.provider = "" then s.provider else some out.provider
    costUsd := out.costUsd.elim s.costUsd fun c => some (s.costUsd.getD 0 + c) }

def BrowseState.call (s : BrowseState) (obs : Observation) (action : Action) : BrowseState :=
  { s with events := s.events ++ [.executed obs action] }

def failed (exc : Exc) : String := "action failed: " ++ exc.typeName ++ ": " ++ exc.message

def single (key value : String) : Action := (Table.empty Prod.fst).put (key, .text value)

section Loop

variable (lib : BrowseLibrary) (dns : Resolver)

def execute (s : BrowseState) (obs : Observation) (action : Action) (failure : Option Exc) :
    BrowseState × Option String :=
  if kind action = "click" then (s.call obs action, failure.map failed)
  else if kind action = "type" then match failure with
    | some exc => (s.call obs action, some (failed exc))
    | none =>
      ({ s.call obs action with
          sensitiveEntered := s.sensitiveEntered || isSensitiveType lib action }, none)
  else if kind action = "navigate" then
    match assertPublicUrl lib.toUrlLibrary dns (field action "url" "") with
    | .error (.unsafeUrl message) =>
      (s, some ("refused: unsafe navigate blocked by safety policy: " ++ message))
    | .error (.raised exc) => (s, some (failed exc))
    | .ok _ => ({ s.call obs action with pageUrl := field action "url" "" }, failure.map failed)
  else (s, some ("unknown action: " ++ kind action ++ "; stopping"))

def act (s : BrowseState) (obs : Observation) (action : Action) (failure : Option Exc) :
    BrowseState × Flow :=
  let step (note : Option String) : BrowseStep := ⟨summarizeObservation obs, action, note⟩
  if kind action = "finish" then
    ({ s.append (step none) with
        answer := lib.strip (field action "answer" "")
        completed := true }, .breaks)
  else if isUnsafe lib action s.sensitiveEntered then
    (s.append (step (some "refused: payment/sensitive/destructive action blocked by policy")),
      .breaks)
  else
    let done := execute lib dns s obs action failure
    (done.1.append (step done.2), if done.2 = none then .goesOn else .breaks)

def takeTurn (goal : String) (s : BrowseState) (r : TurnReply J) : BrowseState × Flow :=
  match r.page with
  | .error exc => (s, .raises exc)
  | .ok page =>
    let obs := observe lib page (r.moved.getD s.pageUrl)
    let sending := s.send goal obs
    match r.router with
    | .raised exc => (sending, .raises exc)
    | .unavailable =>
      (sending.append ⟨summarizeObservation obs, single "action" "finish",
        some "no model provider available"⟩, .breaks)
    | .answered out =>
      let charged := sending.charge out
      match (extractJsonObject lib out.text.toList).filter fun a => (a.get "action").isSome with
      | none =>
        (charged.append ⟨summarizeObservation obs, single "raw" (cut 200 out.text),
          some "could not parse a JSON action; stopping"⟩, .breaks)
      | some action => act lib dns charged obs action r.failure

def turns (goal : String) (env : ℕ → TurnReply J) :
    ℕ → ℕ → BrowseState → BrowseState × Option Exc
  | 0, _, s => (s, none)
  | n + 1, index, s =>
    match takeTurn lib dns goal s (env index) with
    | (t, .goesOn) => turns goal env n (index + 1) t
    | (t, .breaks) => (t, none)
    | (t, .raises exc) => (t, some exc)

def browsed (url goal : String) (s : BrowseState) : BrowseResult :=
  ⟨url, goal, s.steps,
    if !s.completed ∧ s.answer = "" then "Goal not completed within the step budget." else s.answer,
    s.completed, s.provider, s.costUsd⟩

def refused (url goal message : String) : BrowseResult :=
  ⟨url, goal, [⟨"(not opened) " ++ url, (single "action" "navigate").put ("url", .text url),
      some ("refused: unsafe start url blocked by safety policy: " ++ message)⟩],
    "Refused to open unsafe URL: " ++ message, false, none, none⟩

def runBrowse (url goal : String) (maxSteps : ℤ) (session : Session J) :
    List Event × Except Exc BrowseResult :=
  match assertPublicUrl lib.toUrlLibrary dns url with
  | .error (.raised exc) => ([], .error exc)
  | .error (.unsafeUrl message) => ([], .ok (refused url goal message))
  | .ok _ => match session.opening with
    | some exc => ([], .error exc)
    | none =>
      let ended := turns lib dns goal session.turn maxSteps.toNat 0 (newState url)
      (ended.1.events, match session.closing, ended.2 with
        | some exc, _ => .error exc
        | none, some exc => .error exc
        | none, none => .ok (browsed url goal ended.1))

end Loop

structure Track where
  pageUrl : String
  sensitiveEntered : Bool
  events : List Event

def BrowseState.track (s : BrowseState) : Track := ⟨s.pageUrl, s.sensitiveEntered, s.events⟩

@[simp]
theorem track_pageUrl (s : BrowseState) : s.track.pageUrl = s.pageUrl := rfl

@[simp]
theorem track_events (s : BrowseState) : s.track.events = s.events := rfl

def Track.send (a : Track) (goal : String) (obs : Observation) : Track :=
  ⟨obs.url, a.sensitiveEntered, a.events ++ [.sent obs (prompt goal obs)]⟩

def Track.call (a : Track) (obs : Observation) (action : Action) : Track :=
  { a with events := a.events ++ [.executed obs action] }

inductive ActTo (lib : BrowseLibrary) (dns : Resolver) (a : Track) (obs : Observation)
    (action : Action) : Track × Flow → Prop
  | ends (flow : Flow) (hflow : flow ≠ .goesOn) : ActTo lib dns a obs action (a, flow)
  | clicks (flow : Flow) (hkind : kind action = "click") (hfree : a.sensitiveEntered = false) :
      ActTo lib dns a obs action (a.call obs action, flow)
  | types (hkind : kind action = "type") : ActTo lib dns a obs action
      ({ a.call obs action with
          sensitiveEntered := a.sensitiveEntered || isSensitiveType lib action }, .goesOn)
  | fails (flow : Flow) (hkind : kind action = "type") (hflow : flow ≠ .goesOn) :
      ActTo lib dns a obs action (a.call obs action, flow)
  | navigates (flow : Flow) (target : String) (hkind : kind action = "navigate")
      (hguard : ∃ url, assertPublicUrl lib.toUrlLibrary dns target = .ok url) :
      ActTo lib dns a obs action ({ a.call obs action with pageUrl := target }, flow)

variable (lib : BrowseLibrary) (dns : Resolver)

theorem execute_cases (s : BrowseState) (obs : Observation) (action : Action)
    (failure : Option Exc) (hfree : kind action = "click" → s.sensitiveEntered = false) :
    ActTo lib dns s.track obs action ((execute lib dns s obs action failure).1.track,
      if (execute lib dns s obs action failure).2 = none then .goesOn else .breaks) := by
  unfold execute
  by_cases hclick : kind action = "click"
  · rw [if_pos hclick]
    exact .clicks _ hclick (hfree hclick)
  · rw [if_neg hclick]
    by_cases htype : kind action = "type"
    · rw [if_pos htype]
      cases failure with
      | none => exact .types htype
      | some exc => exact .fails .breaks htype (by simp)
    · rw [if_neg htype]
      by_cases hnavigate : kind action = "navigate"
      · rw [if_pos hnavigate]
        cases hguard : assertPublicUrl lib.toUrlLibrary dns (field action "url" "") with
        | error e => cases e <;> exact .ends .breaks (by simp)
        | ok url => exact .navigates _ (field action "url" "") hnavigate ⟨url, hguard⟩
      · rw [if_neg hnavigate]
        exact .ends .breaks (by simp)

theorem act_cases (s : BrowseState) (obs : Observation) (action : Action) (failure : Option Exc) :
    ActTo lib dns s.track obs action
      ((act lib dns s obs action failure).1.track, (act lib dns s obs action failure).2) := by
  unfold act
  by_cases hfinish : kind action = "finish"
  · rw [if_pos hfinish]
    exact .ends .breaks (by simp)
  · rw [if_neg hfinish]
    by_cases hunsafe : isUnsafe lib action s.sensitiveEntered
    · rw [if_pos hunsafe]
      exact .ends .breaks (by simp)
    · rw [if_neg hunsafe]
      apply execute_cases
      intro hclick
      simp only [isUnsafe, hclick, and_true, decide_eq_true_eq, not_or] at hunsafe
      simpa using hunsafe.2

inductive TurnTo (lib : BrowseLibrary) (dns : Resolver) (goal : String) (a : Track)
    (r : TurnReply J) : Track × Flow → Prop
  | unseen (exc : Exc) : TurnTo lib dns goal a r (a, .raises exc)
  | ends (page : Page) (flow : Flow) (hflow : flow ≠ .goesOn) : TurnTo lib dns goal a r
      (a.send goal (observe lib page (r.moved.getD a.pageUrl)), flow)
  | acts (page : Page) (action : Action) (t : Track × Flow)
      (h : ActTo lib dns (a.send goal (observe lib page (r.moved.getD a.pageUrl)))
        (observe lib page (r.moved.getD a.pageUrl)) action t) : TurnTo lib dns goal a r t

theorem takeTurn_cases (goal : String) (s : BrowseState) (r : TurnReply J) :
    TurnTo lib dns goal s.track r
      ((takeTurn lib dns goal s r).1.track, (takeTurn lib dns goal s r).2) := by
  unfold takeTurn
  cases r.page with
  | error exc => exact .unseen exc
  | ok page =>
    cases r.router with
    | raised exc => exact .ends page (.raises exc) (by simp)
    | unavailable => exact .ends page .breaks (by simp)
    | answered out =>
      simp only
      cases (extractJsonObject lib out.text.toList).filter fun a => (a.get "action").isSome with
      | none => exact .ends page .breaks (by simp)
      | some action =>
        have hact := act_cases lib dns
          ((s.send goal (observe lib page (r.moved.getD s.pageUrl))).charge out)
          (observe lib page (r.moved.getD s.pageUrl)) action r.failure
        exact .acts page action _ hact

variable {lib dns}

theorem turns_invariant {I L : Track → Prop} {goal : String} (env : ℕ → TurnReply J)
    (stop : ∀ a, I a → L a)
    (keep : ∀ a (r : TurnReply J) t, I a → TurnTo lib dns goal a r (t, .goesOn) → I t)
    (last : ∀ a (r : TurnReply J) t flow, I a → TurnTo lib dns goal a r (t, flow) → L t)
    {s : BrowseState} (h : I s.track) (n index : ℕ) :
    L (turns lib dns goal env n index s).1.track := by
  induction n generalizing s index with
  | zero => exact stop s.track h
  | succ n ih =>
    have hturn := takeTurn_cases lib dns goal s (env index)
    simp only [turns]
    generalize takeTurn lib dns goal s (env index) = done at hturn ⊢
    obtain ⟨t, flow⟩ := done
    cases flow with
    | goesOn => exact ih (keep s.track (env index) t.track h hturn) (index + 1)
    | breaks => exact last s.track (env index) t.track .breaks h hturn
    | raises exc => exact last s.track (env index) t.track (.raises exc) h hturn

end Workbench.Browse
