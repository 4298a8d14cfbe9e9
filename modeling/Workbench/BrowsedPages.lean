import Workbench.BrowseLoop

namespace Workbench.Browse

open NetGuard

variable {J : Type} {lib : BrowseLibrary} {dns : Resolver} {goal : String}

def Public (lib : BrowseLibrary) (dns : Resolver) (url : String) : Prop :=
  ∃ passed, assertPublicUrl lib.toUrlLibrary dns url = .ok passed

def sentObservations (events : List Event) : List Observation :=
  events.filterMap fun
    | .sent obs _ => some obs
    | .executed _ _ => none

theorem sentObservations_append (xs ys : List Event) :
    sentObservations (xs ++ ys) = sentObservations xs ++ sentObservations ys :=
  List.filterMap_append

theorem sentObservations_call (a : Track) (obs : Observation) (action : Action) :
    sentObservations (a.call obs action).events = sentObservations a.events := by
  simp [Track.call, sentObservations]

theorem ActTo.opened {a t : Track} {obs : Observation} {action : Action} {flow : Flow}
    (h : ActTo lib dns a obs action (t, flow)) :
    sentObservations t.events = sentObservations a.events ∧
      (Public lib dns a.pageUrl → Public lib dns t.pageUrl) := by
  cases h with
  | ends flow hflow => exact ⟨rfl, fun ha => ha⟩
  | clicks flow hkind hfree => exact ⟨sentObservations_call a obs action, fun ha => ha⟩
  | types hkind => exact ⟨sentObservations_call a obs action, fun ha => ha⟩
  | fails flow hkind hflow => exact ⟨sentObservations_call a obs action, fun ha => ha⟩
  | navigates flow target hkind hguard =>
    exact ⟨sentObservations_call a obs action, fun _ => hguard⟩

theorem TurnTo.sent {a t : Track} {r : TurnReply J} {flow : Flow}
    (h : TurnTo lib dns goal a r (t, flow)) :
    sentObservations t.events = sentObservations a.events ∧ flow ≠ .goesOn ∨
      ∃ obs, sentObservations t.events = sentObservations a.events ++ [obs] ∧
        obs.url = r.moved.getD a.pageUrl ∧ (Public lib dns obs.url → Public lib dns t.pageUrl) := by
  cases h with
  | unseen exc => exact .inl ⟨rfl, by simp⟩
  | ends page flow hflow =>
    refine .inr ⟨observe lib page (r.moved.getD a.pageUrl), ?_, rfl, fun hp => hp⟩
    rw [Track.send, sentObservations_append]
    rfl
  | acts page action t hact =>
    obtain ⟨hsent, hpage⟩ := hact.opened
    refine .inr ⟨observe lib page (r.moved.getD a.pageUrl), ?_, rfl, hpage⟩
    rw [hsent, Track.send, sentObservations_append]
    rfl

/-- The observations, from this turn's on, are of public pages exactly when the moves made before
them led to public URLs. -/
def Accounted (lib : BrowseLibrary) (dns : Resolver) (env : ℕ → TurnReply J) (index : ℕ)
    (sent : List Observation) : Prop :=
  (∀ obs ∈ sent, Public lib dns obs.url) ↔
    ∀ k < sent.length, ∀ url ∈ (env (index + k)).moved, Public lib dns url

theorem accounted_nil (env : ℕ → TurnReply J) (index : ℕ) : Accounted lib dns env index [] := by
  simp [Accounted]

theorem accounted_cons {env : ℕ → TurnReply J} {index : ℕ} {obs : Observation}
    {sent : List Observation}
    (hfirst : Public lib dns obs.url ↔ ∀ url ∈ (env index).moved, Public lib dns url)
    (hrest : Public lib dns obs.url → Accounted lib dns env (index + 1) sent) :
    Accounted lib dns env index (obs :: sent) := by
  unfold Accounted
  rw [List.forall_mem_cons]
  constructor
  · rintro ⟨hobs, hsent⟩ k hk
    cases k with
    | zero => exact hfirst.mp hobs
    | succ k =>
      rw [show index + (k + 1) = index + 1 + k by omega]
      exact (hrest hobs).mp hsent k (by simpa using hk)
  · intro hmoves
    have hobs : Public lib dns obs.url := hfirst.mpr (hmoves 0 (by simp))
    refine ⟨hobs, (hrest hobs).mpr ?_⟩
    intro k hk
    rw [show index + 1 + k = index + (k + 1) by omega]
    exact hmoves (k + 1) (by simpa using hk)

theorem turns_sent (lib : BrowseLibrary) (dns : Resolver) (goal : String)
    (env : ℕ → TurnReply J) (n index : ℕ) (s : BrowseState) :
    ∃ sent, sentObservations (turns lib dns goal env n index s).1.events =
        sentObservations s.events ++ sent ∧
      (Public lib dns s.pageUrl → Accounted lib dns env index sent) := by
  induction n generalizing s index with
  | zero => exact ⟨[], by simp [turns], fun _ => accounted_nil env index⟩
  | succ n ih =>
    have hturn := takeTurn_cases lib dns goal s (env index)
    simp only [turns]
    generalize takeTurn lib dns goal s (env index) = done at hturn ⊢
    obtain ⟨t, flow⟩ := done
    have hsends := hturn.sent
    simp only [track_events, track_pageUrl] at hsends
    rcases hsends with ⟨hsame, hstop⟩ | ⟨obs, hsent, hurl, hpage⟩
    · refine ⟨[], ?_, fun _ => accounted_nil env index⟩
      cases flow with
      | goesOn => exact absurd rfl hstop
      | breaks => simpa using hsame
      | raises exc => simpa using hsame
    · have hfirst : Public lib dns s.pageUrl →
          (Public lib dns obs.url ↔ ∀ url ∈ (env index).moved, Public lib dns url) := by
        intro hs
        rw [hurl]
        cases (env index).moved with
        | none => simpa using hs
        | some url => simp
      have hone : Public lib dns s.pageUrl → Accounted lib dns env index [obs] := fun hs =>
        accounted_cons (hfirst hs) fun _ => accounted_nil env (index + 1)
      cases flow with
      | breaks => exact ⟨[obs], hsent, hone⟩
      | raises exc => exact ⟨[obs], hsent, hone⟩
      | goesOn =>
        obtain ⟨sent, hrest, haccounted⟩ := ih (index + 1) t
        refine ⟨obs :: sent, ?_, fun hs => ?_⟩
        · rw [hrest, hsent, List.append_assoc, List.singleton_append]
        · apply accounted_cons (hfirst hs)
          intro hobs
          exact haccounted (hpage hobs)

theorem sent_pages_public_iff (lib : BrowseLibrary) (dns : Resolver) (url goal : String)
    (maxSteps : ℤ) (session : Session J) :
    (∀ obs ∈ sentObservations (runBrowse lib dns url goal maxSteps session).1,
        Public lib dns obs.url) ↔
      ∀ k < (sentObservations (runBrowse lib dns url goal maxSteps session).1).length,
        ∀ moved ∈ (session.turn k).moved, Public lib dns moved := by
  unfold runBrowse
  cases hguard : assertPublicUrl lib.toUrlLibrary dns url with
  | error e => cases e <;> simp [sentObservations]
  | ok passed =>
    cases session.opening with
    | some exc => simp [sentObservations]
    | none =>
      obtain ⟨sent, hsent, haccounted⟩ :=
        turns_sent lib dns goal session.turn maxSteps.toNat 0 (newState url)
      have hstart : sentObservations (newState url).events = [] := rfl
      rw [hstart, List.nil_append] at hsent
      simp only [hsent]
      simpa [Accounted] using haccounted ⟨passed, hguard⟩

def startUrl : String := "http://start.example/"

def metadataUrl : String := "http://169.254.169.254/"

def startLibrary : BrowseLibrary where
  isSpace c := c = ' '
  urlsplit url :=
    if url = startUrl then .ok ⟨"http", some "start.example", .ok none⟩
    else if url = metadataUrl then .ok ⟨"http", some "169.254.169.254", .ok none⟩
    else .error ⟨"ValueError", url⟩
  join _ location := .ok location
  lower c := [c.toLower]
  isDigit := Char.isDigit
  loads _ := none
  cssEscape := id
  trim := id

def startDns : Resolver := fun _ _ => .ok ["93.184.216.34"]

def redirectedSession : Session Unit where
  opening := none
  turn _ := ⟨some metadataUrl, .ok ⟨"", [], "iam/"⟩, .unavailable, none⟩
  closing := none

theorem redirected_page_sent :
    ¬ ∀ obs ∈ sentObservations
        (runBrowse startLibrary startDns startUrl "read the page" maxSteps redirectedSession).1,
      Public startLibrary startDns obs.url := by
  intro h
  have hsent : ⟨"", metadataUrl, [], "iam/"⟩ ∈ sentObservations
      (runBrowse startLibrary startDns startUrl "read the page" maxSteps redirectedSession).1 := by
    decide +kernel
  have hrefused : assertPublicUrl startLibrary.toUrlLibrary startDns metadataUrl =
      .error (.unsafeUrl "host resolves to a non-public address: 169.254.169.254") := by
    decide +kernel
  obtain ⟨passed, hpassed⟩ := h _ hsent
  rw [hrefused] at hpassed
  cases hpassed

end Workbench.Browse
