import Workbench.BrowseLoop

namespace Workbench.Browse

open NetGuard
open AgentRuntime (StepOutput)

variable {J : Type} {lib : BrowseLibrary} {dns : Resolver} {goal : String}

/-- The text is a card number, or the element that it is typed into has a sensitive selector or
label; `matched` is the browser's choice of the listed element that a selector stands for. -/
def Sensitive (lib : BrowseLibrary) (matched : Observation → String → Option Element)
    (obs : Observation) (action : Action) : Prop :=
  Marked lib sensitiveFieldTokens (selector action) ∨
    (∃ el ∈ matched obs (selector action), Marked lib sensitiveFieldTokens el.selector ∨
      Marked lib sensitiveFieldTokens el.text) ∨
    looksLikeCardNumber lib (field action "text" "")

instance (matched : Observation → String → Option Element) (obs : Observation) (action : Action) :
    Decidable (Sensitive lib matched obs action) :=
  inferInstanceAs (Decidable (_ ∨ (∃ el ∈ matched obs (selector action), _) ∨ _))

namespace Event

def Clicks : Event → Prop
  | .sent _ _ => False
  | .executed _ action => kind action = "click"

def Entry (lib : BrowseLibrary) (matched : Observation → String → Option Element) : Event → Prop
  | .sent _ _ => False
  | .executed obs action => kind action = "type" ∧ Sensitive lib matched obs action

def Noticed (lib : BrowseLibrary) : Event → Prop
  | .sent _ _ => False
  | .executed _ action => isSensitiveType lib action

instance : DecidablePred Clicks
  | .sent _ _ => isFalse id
  | .executed _ action => inferInstanceAs (Decidable (kind action = "click"))

instance (matched : Observation → String → Option Element) : DecidablePred (Entry lib matched)
  | .sent _ _ => isFalse id
  | .executed obs action =>
    inferInstanceAs (Decidable (kind action = "type" ∧ Sensitive lib matched obs action))

instance : DecidablePred (Noticed lib)
  | .sent _ _ => isFalse id
  | .executed _ action => inferInstanceAs (Decidable (isSensitiveType lib action = true))

end Event

def Ordered (lib : BrowseLibrary) (events : List Event) : Prop :=
  events.Pairwise fun e f => e.Noticed lib → ¬ f.Clicks

theorem Ordered.snoc {events : List Event} (h : Ordered lib events) {f : Event}
    (hf : f.Clicks → ∀ e ∈ events, ¬ e.Noticed lib) : Ordered lib (events ++ [f]) := by
  refine List.pairwise_append.mpr ⟨h, List.pairwise_singleton _ f, fun e he g hg hn hc => ?_⟩
  obtain rfl := List.mem_singleton.mp hg
  exact hf hc e he hn

structure Shielded (lib : BrowseLibrary) (a : Track) : Prop where
  ordered : Ordered lib a.events
  flagged : ∀ e ∈ a.events, e.Noticed lib → a.sensitiveEntered = true

theorem Shielded.send {a : Track} (h : Shielded lib a) (obs : Observation) :
    Shielded lib (a.send goal obs) where
  ordered := h.ordered.snoc fun hc => hc.elim
  flagged e he hn := by
    rcases List.mem_append.mp he with hold | hnew
    · exact h.flagged e hold hn
    · obtain rfl := List.mem_singleton.mp hnew
      exact hn.elim

theorem isSensitiveType_kind {action : Action} (h : isSensitiveType lib action = true) :
    kind action = "type" := by
  simp only [isSensitiveType, decide_eq_true_eq] at h
  exact h.1

theorem Shielded.snoc {a : Track} (h : Shielded lib a) (obs : Observation) (action : Action)
    (hkind : kind action ≠ "click") : Ordered lib (a.events ++ [.executed obs action]) :=
  h.ordered.snoc fun hclick => absurd hclick hkind

theorem Shielded.flagged_snoc {a : Track} (h : Shielded lib a) (obs : Observation) (action : Action) :
    ∀ e ∈ a.events ++ [.executed obs action], e.Noticed lib →
      (a.sensitiveEntered || isSensitiveType lib action) = true := by
  intro e he hn
  rcases List.mem_append.mp he with hold | hnew
  · simp [h.flagged e hold hn]
  · obtain rfl := List.mem_singleton.mp hnew
    simp only [Event.Noticed] at hn
    simp [hn]

theorem Shielded.call {a : Track} (h : Shielded lib a) (obs : Observation) {action : Action}
    (hkind : kind action ≠ "type") (horder : Ordered lib (a.events ++ [.executed obs action])) :
    Shielded lib (a.call obs action) where
  ordered := horder
  flagged e he hn := by
    have hflag := h.flagged_snoc obs action e he hn
    have hquiet : isSensitiveType lib action = false := by
      by_contra hs
      exact hkind (isSensitiveType_kind (Bool.not_eq_false _ ▸ hs))
    rw [hquiet, Bool.or_false] at hflag
    exact hflag

theorem ActTo.shields {a t : Track} {obs : Observation} {action : Action} {flow : Flow}
    (h : ActTo lib dns a obs action (t, flow)) (ha : Shielded lib a) :
    Ordered lib t.events ∧ (flow = .goesOn → Shielded lib t) := by
  cases h with
  | ends flow hflow => exact ⟨ha.ordered, fun hgo => absurd hgo hflow⟩
  | clicks flow hkind hfree =>
    have hordered : Ordered lib (a.events ++ [.executed obs action]) := by
      apply ha.ordered.snoc
      intro _ e he hn
      have hset := ha.flagged e he hn
      rw [hfree] at hset
      cases hset
    exact ⟨hordered, fun _ => ha.call obs (by simp [hkind]) hordered⟩
  | types hkind =>
    have hordered := ha.snoc obs action (by simp [hkind])
    exact ⟨hordered, fun _ => ⟨hordered, ha.flagged_snoc obs action⟩⟩
  | fails flow hkind hflow => exact ⟨ha.snoc obs action (by simp [hkind]), fun hgo => absurd hgo hflow⟩
  | navigates flow target hkind hguard =>
    have hordered := ha.snoc obs action (by simp [hkind])
    have hcall := ha.call obs (by simp [hkind]) hordered
    exact ⟨hordered, fun _ => ⟨hordered, hcall.flagged⟩⟩

theorem TurnTo.shields {a t : Track} {r : TurnReply J} {flow : Flow}
    (h : TurnTo lib dns goal a r (t, flow)) (ha : Shielded lib a) :
    Ordered lib t.events ∧ (flow = .goesOn → Shielded lib t) := by
  cases h with
  | unseen exc => exact ⟨ha.ordered, fun _ => ha⟩
  | ends page flow hflow => exact ⟨(ha.send _).ordered, fun hgo => absurd hgo hflow⟩
  | acts page action t hact => exact hact.shields (ha.send _)

theorem runBrowse_ordered (lib : BrowseLibrary) (dns : Resolver) (url goal : String) (maxSteps : ℤ)
    (session : Session J) : Ordered lib (runBrowse lib dns url goal maxSteps session).1 := by
  unfold runBrowse
  cases assertPublicUrl lib.toUrlLibrary dns url with
  | error e => cases e <;> exact List.Pairwise.nil
  | ok passed =>
    cases session.opening with
    | some exc => exact List.Pairwise.nil
    | none =>
      have hstart : Shielded lib (newState url).track := ⟨List.Pairwise.nil, by simp [newState]⟩
      exact turns_invariant (L := fun a => Ordered lib a.events) session.turn
        (fun a ha => ha.ordered) (fun a r t ha h => (h.shields ha).2 rfl)
        (fun a r t flow ha h => (h.shields ha).1) hstart maxSteps.toNat 0

def Withheld (lib : BrowseLibrary) (matched : Observation → String → Option Element)
    (events : List Event) : Prop :=
  events.Pairwise fun e f => e.Entry lib matched → ¬ f.Clicks

instance (matched : Observation → String → Option Element) (events : List Event) :
    Decidable (Withheld lib matched events) :=
  inferInstanceAs (Decidable (events.Pairwise fun e f => e.Entry lib matched → ¬ f.Clicks))

theorem noticed_entries_withheld (lib : BrowseLibrary) (dns : Resolver)
    (matched : Observation → String → Option Element) (url goal : String) (maxSteps : ℤ)
    (session : Session J) (hnoticed : ∀ e ∈ (runBrowse lib dns url goal maxSteps session).1,
      e.Entry lib matched → e.Noticed lib) :
    Withheld lib matched (runBrowse lib dns url goal maxSteps session).1 := by
  have hordered := runBrowse_ordered lib dns url goal maxSteps session
  exact hordered.imp_of_mem fun he _ horder hentry => horder (hnoticed _ he hentry)

def typeAction (selector text : String) : Action :=
  ((single "action" "type").put ("selector", .text selector)).put ("text", .text text)

def clickAction (selector : String) : Action :=
  (single "action" "click").put ("selector", .text selector)

def cardReply : String :=
  "\x7b\"action\":\"type\",\"selector\":\"#f1\",\"text\":\"4111111111111111\"\x7d"

def passwordReply : String :=
  "\x7b\"action\":\"type\",\"selector\":\"#f1\",\"text\":\"hunter2\"\x7d"

def clickReply : String :=
  "\x7b\"action\":\"click\",\"selector\":\"#f2\"\x7d"

def formLibrary : BrowseLibrary where
  isSpace c := c = ' '
  urlsplit _ := .ok ⟨"https", some "93.184.216.34", .ok none⟩
  join _ location := .ok location
  lower c := [c.toLower]
  isDigit := Char.isDigit
  loads body :=
    if body = cardReply then some (.object (typeAction "#f1" "4111111111111111"))
    else if body = passwordReply then some (.object (typeAction "#f1" "hunter2"))
    else if body = clickReply then some (.object (clickAction "#f2"))
    else none
  cssEscape := id
  trim := id

def formDns : Resolver := fun _ _ => .ok []

def formPage : Page :=
  ⟨"Sign in", [⟨true, "input", "f1", "", "", "", "Password", ""⟩,
    ⟨true, "button", "f2", "Continue", "", "", "", ""⟩], "Sign in Continue"⟩

def modelOutput (text : String) : StepOutput Unit :=
  ⟨text, [], "fake", "fake-model", .zero, none, 0, []⟩

def formSession (reply : String) : Session Unit where
  opening := none
  turn
    | 0 => ⟨none, .ok formPage, .answered (modelOutput reply), none⟩
    | 1 => ⟨none, .ok formPage, .answered (modelOutput clickReply), none⟩
    | _ => ⟨none, .ok formPage, .unavailable, none⟩
  closing := none

def listedElement (obs : Observation) (selector : String) : Option Element :=
  obs.elements.find? fun el => el.selector = selector

theorem card_entry_withheld : Withheld formLibrary listedElement
    (runBrowse formLibrary formDns "https://93.184.216.34/" "sign in" maxSteps
      (formSession cardReply)).1 :=
  noticed_entries_withheld formLibrary formDns listedElement "https://93.184.216.34/" "sign in"
    maxSteps (formSession cardReply) (by decide +kernel)

theorem password_entry_submitted : ¬ Withheld formLibrary listedElement
    (runBrowse formLibrary formDns "https://93.184.216.34/" "sign in" maxSteps
      (formSession passwordReply)).1 := by
  decide +kernel

end Workbench.Browse
