import Workbench.CrmPage
import Workbench.Services

namespace Workbench.Crm

open Services

inductive Call
  | observe
  | act (a : Action)
  deriving DecidableEq

def UiSession.serve (s : UiSession) : Call → UiSession × Except String Screen
  | .observe => (s, .ok s.observe)
  | .act a => (s.act a, .ok (s.act a).observe)

def Page.serve (raised : String → String) (p : Page) : Call → Page × Except String Screen
  | .observe => (p, .ok p.observe)
  | .act a => p.act raised a

/-- An observation, a click on a button of the screen or a text without line breaks for an input. -/
def Addressed (s : UiSession) : Call → Prop
  | .observe => True
  | .act ⟨.observe, _, _⟩ => True
  | .act ⟨.click, target, _⟩ => ∃ e ∈ s.elements, e.kind = .button ∧ e.id = target
  | .act ⟨.type, target, value⟩ =>
    (∃ e ∈ s.elements, e.kind = .input ∧ e.id = target) ∧ ∀ c ∈ value.toList, c ≠ '\n' ∧ c ≠ '\r'

instance (s : UiSession) : ∀ q, Decidable (Addressed s q)
  | .observe => isTrue trivial
  | .act ⟨.observe, _, _⟩ => isTrue trivial
  | .act ⟨.click, target, _⟩ =>
    inferInstanceAs (Decidable (∃ e ∈ s.elements, e.kind = .button ∧ e.id = target))
  | .act ⟨.type, target, value⟩ =>
    have : Decidable (∀ c ∈ value.toList, c ≠ '\n' ∧ c ≠ '\r') := List.decidableBAll _ _
    inferInstanceAs (Decidable ((∃ e ∈ s.elements, e.kind = .input ∧ e.id = target) ∧
      ∀ c ∈ value.toList, c ≠ '\n' ∧ c ≠ '\r'))

/-- No text is typed and no `act` only observes while an error is shown, and the name that is saved is
blank to `strip` and to `trim` alike. -/
def Calm (s : UiSession) : Call → Prop
  | .observe => True
  | .act ⟨.click, target, _⟩ => s.state = .customerForm → target = "save" →
      (PyText.strip (s.fields "name") = "" ↔ Page.trim (s.fields "name") = "")
  | .act ⟨_, _, _⟩ => s.error = none

instance (s : UiSession) : ∀ q, Decidable (Calm s q)
  | .observe => isTrue trivial
  | .act ⟨.observe, _, _⟩ => inferInstanceAs (Decidable (s.error = none))
  | .act ⟨.click, target, _⟩ => inferInstanceAs (Decidable (s.state = .customerForm → target = "save" →
      (PyText.strip (s.fields "name") = "" ↔ Page.trim (s.fields "name") = "")))
  | .act ⟨.type, _, _⟩ => inferInstanceAs (Decidable (s.error = none))

structure Shows (s : UiSession) (p : Page) : Prop where
  dataState : p.dataState = s.state
  active : p.active = fun state => decide (state = s.state)
  values : ∀ id ∈ fieldNames, p.values id = s.fields id
  greeting : s.state = .dashboard → p.greeting = "Welcom, " ++ s.fields "username"
  user : s.state ≠ .login → s.fields "username" = validUser
  error : p.errorText = s.error.getD ""
  errors : ∀ e ∈ s.error, e = "Invalid credentials" ∨ e = "Name is required"

variable {s : UiSession} {p : Page}

theorem shows_loaded : Shows .new .loaded where
  dataState := rfl
  active := rfl
  values _ _ := rfl
  greeting h := by cases h
  user h := absurd rfl h
  error := rfl
  errors e h := by cases h

theorem Shows.observe_error (h : Shows s p) : p.observe.error = s.error := by
  have htext : p.textContent "error" = s.error.getD "" := by
    rw [← h.error]
    simp [Page.textContent]
  simp only [Page.observe, htext]
  cases he : s.error with
  | none => rfl
  | some e =>
    rcases h.errors e he with rfl | rfl
    · decide
    · decide

theorem Shows.username (h : Shows s p) : p.values "username" = s.fields "username" :=
  h.values _ (by decide)

theorem Shows.password (h : Shows s p) : p.values "password" = s.fields "password" :=
  h.values _ (by decide)

theorem Shows.name (h : Shows s p) : p.values "name" = s.fields "name" := h.values _ (by decide)

theorem Shows.email (h : Shows s p) : p.values "email" = s.fields "email" := h.values _ (by decide)

theorem Shows.observe (h : Shows s p) : p.observe = s.observe := by
  have helements : p.observe.elements = s.elements := by
    change (Page.layout p.dataState).map _ = _
    rw [h.dataState]
    unfold UiSession.elements
    cases hs : s.state with
    | login =>
      rw [← h.username, ← h.password]
      rfl
    | dashboard =>
      have hstrip : PyText.strip p.greeting = "Welcom, " ++ s.fields "username" := by
        rw [h.greeting hs, h.user (by simp [hs])]
        decide
      rw [← hstrip]
      rfl
    | customerForm =>
      rw [← h.name, ← h.email]
      rfl
    | success =>
      have hstrip : PyText.strip "Customer saved" = "Customer saved" := by decide
      change [(⟨"confirmation", .text, PyText.strip "Customer saved", ""⟩ : Element), _] = _
      rw [hstrip]
      rfl
  have herror := h.observe_error
  have hstate : p.observe.state = s.state := h.dataState
  cases hp : p.observe with
  | mk state elements error =>
    rw [hp] at helements herror hstate
    cases helements
    cases herror
    cases hstate
    rfl

section Controls

theorem Shows.setValue_eq (h : Shows s p) (name value : String) :
    ∀ id ∈ fieldNames, (p.setValue name value).values id = (s.setField name value).fields id := by
  intro id hid
  change Function.update p.values name value id = Function.update s.fields name value id
  by_cases he : id = name
  · rw [he, Function.update_self, Function.update_self]
  · rw [Function.update_of_ne he, Function.update_of_ne he, h.values id hid]

theorem Shows.typed (h : Shows s p) {name : String} (value : String) (hd : s.state ≠ .dashboard)
    (hn : s.state ≠ .login → name ≠ "username") :
    Shows (s.setField name value) (p.setValue name value) where
  dataState := h.dataState
  active := h.active
  values := h.setValue_eq name value
  greeting hs := absurd hs hd
  user hs := by
    change Function.update s.fields name value "username" = validUser
    rw [Function.update_of_ne (hn hs).symm, h.user hs]
  error := h.error
  errors := h.errors

theorem Shows.fails (h : Shows s p) {error : String}
    (he : error = "Invalid credentials" ∨ error = "Name is required") :
    Shows { s with error := some error } (p.setError error) where
  dataState := h.dataState
  active := h.active
  values := h.values
  greeting := h.greeting
  user := h.user
  error := rfl
  errors e hs := by
    cases hs
    exact he

theorem Shows.goes (h : Shows s p) (state : State) (hd : state ≠ .dashboard)
    (hu : state ≠ .login → s.fields "username" = validUser) :
    Shows { s with state, error := none } ((p.showState state).setError "") where
  dataState := rfl
  active := rfl
  values := h.values
  greeting hs := absurd hs hd
  user := hu
  error := rfl
  errors e hs := by cases hs

theorem Shows.goDashboard (h : Shows s p) (hu : s.fields "username" = validUser) :
    Shows { s with state := .dashboard, error := none } p.goDashboard where
  dataState := rfl
  active := rfl
  values := h.values
  greeting _ := by
    change "Welcom, " ++ p.values "username" = "Welcom, " ++ s.fields "username"
    rw [h.username]
  user _ := hu
  error := rfl
  errors e hs := by cases hs

theorem Shows.submit (h : Shows s p) (hs : s.state = .login) (value : String) :
    Shows (s.act ⟨.click, "submit", value⟩) (p.clicked "submit") := by
  have hact : s.act ⟨.click, "submit", value⟩ =
      if s.fields "username" = validUser ∧ s.fields "password" = validPass then
        { s with state := .dashboard, error := none }
      else { s with error := some "Invalid credentials" } := by
    simp [UiSession.act, UiSession.click, hs]
  have hclicked : p.clicked "submit" =
      if s.fields "username" = validUser ∧ s.fields "password" = validPass then p.goDashboard
      else p.setError "Invalid credentials" := by
    rw [Page.clicked, if_pos rfl, h.username, h.password]
  rw [hact, hclicked]
  split_ifs with hvalid
  · exact h.goDashboard hvalid.1
  · exact h.fails (.inl rfl)

theorem Shows.newCustomer (h : Shows s p) (hs : s.state = .dashboard) (value : String) :
    Shows (s.act ⟨.click, "new_customer", value⟩) (p.clicked "new_customer") := by
  have hact : s.act ⟨.click, "new_customer", value⟩ =
      { (s.setField "name" "").setField "email" "" with state := .customerForm, error := none } := by
    simp [UiSession.act, UiSession.click, hs, UiSession.setField]
  have hclicked : p.clicked "new_customer" = p.goCustomerForm := by simp [Page.clicked]
  have hform : Shows { s with state := .customerForm, error := none }
      ((p.showState .customerForm).setError "") :=
    h.goes .customerForm (by decide) fun _ => h.user (by simp [hs])
  have hname : Shows (UiSession.setField _ "name" "") (Page.setValue _ "name" "") :=
    hform.typed "" (by simp) fun _ => by decide
  have hemail : Shows (UiSession.setField _ "email" "") (Page.setValue _ "email" "") :=
    hname.typed "" (by simp [UiSession.setField]) fun _ => by decide
  rw [hact, hclicked]
  exact hemail

theorem Shows.logout (h : Shows s p) (hs : s.state = .dashboard) (value : String) :
    Shows (s.act ⟨.click, "logout", value⟩) (p.clicked "logout") := by
  have hact : s.act ⟨.click, "logout", value⟩ = { s with state := .login, error := none } := by
    simp [UiSession.act, UiSession.click, hs]
  have hclicked : p.clicked "logout" = p.goLogin := by simp [Page.clicked]
  rw [hact, hclicked]
  exact h.goes .login (by decide) fun hl => absurd rfl hl

theorem act_save (hs : s.state = .customerForm) (value : String) :
    s.act ⟨.click, "save", value⟩ = if PyText.strip (s.fields "name") = "" then
      { s with error := some "Name is required" } else { s with state := .success, error := none } := by
  simp [UiSession.act, UiSession.click, hs]

theorem Shows.clicked_save (h : Shows s p) : p.clicked "save" =
    if Page.trim (s.fields "name") = "" then p.setError "Name is required" else p.goSuccess := by
  simp [Page.clicked, h.name]

theorem Shows.save (h : Shows s p) (hs : s.state = .customerForm) (value : String)
    (hb : PyText.strip (s.fields "name") = "" ↔ Page.trim (s.fields "name") = "") :
    Shows (s.act ⟨.click, "save", value⟩) (p.clicked "save") := by
  have hu : s.fields "username" = validUser := h.user (by simp [hs])
  rw [act_save hs, h.clicked_save]
  by_cases hblank : PyText.strip (s.fields "name") = ""
  · rw [if_pos hblank, if_pos (hb.mp hblank)]
    exact h.fails (.inr rfl)
  · rw [if_neg hblank, if_neg (mt hb.mpr hblank)]
    exact h.goes .success (by decide) fun _ => hu

theorem Shows.cancel (h : Shows s p) (hs : s.state = .customerForm) (value : String) :
    Shows (s.act ⟨.click, "cancel", value⟩) (p.clicked "cancel") := by
  have hact : s.act ⟨.click, "cancel", value⟩ = { s with state := .dashboard, error := none } := by
    simp [UiSession.act, UiSession.click, hs]
  have hclicked : p.clicked "cancel" = p.goDashboard := by simp [Page.clicked]
  rw [hact, hclicked]
  exact h.goDashboard (h.user (by simp [hs]))

theorem Shows.back (h : Shows s p) (hs : s.state = .success) (value : String) :
    Shows (s.act ⟨.click, "back", value⟩) (p.clicked "back") := by
  have hact : s.act ⟨.click, "back", value⟩ = { s with state := .dashboard, error := none } := by
    simp [UiSession.act, UiSession.click, hs]
  have hclicked : p.clicked "back" = p.goDashboard := by simp [Page.clicked]
  rw [hact, hclicked]
  exact h.goDashboard (h.user (by simp [hs]))

theorem Shows.visible (h : Shows s p) {id : String} {tag : Tag} {state : State}
    (hid : document.lookup id = some (tag, some state)) (hs : s.state = state)
    (hg : id ≠ "greeting") : p.visible id = true := by
  simp [Page.visible, hid, h.active, hs, hg]

theorem lookup_greeting {target : String} {tag : Tag} {state : Option State}
    (h : document.lookup target = some (tag, state)) (ht : tag ≠ .paragraph) :
    target ≠ "greeting" := by
  have hgreeting : document.lookup "greeting" = some (.paragraph, some .dashboard) := by decide
  rintro rfl
  rw [hgreeting] at h
  cases h
  exact ht rfl

theorem Shows.act_click (h : Shows s p) (raised : String → String) {target : String} {state : State}
    (hid : document.lookup target = some (.button, some state)) (hs : s.state = state)
    (value : String) : p.act raised ⟨.click, target, value⟩ =
      (p.clicked target, .ok (p.clicked target).observe) := by
  have hg : target ≠ "greeting" := lookup_greeting hid (by decide)
  simp [Page.act, Page.clickHandle, hid, h.visible hid hs hg]

theorem sanitize_eq {value : String} (h : ∀ c ∈ value.toList, c ≠ '\n' ∧ c ≠ '\r') :
    Page.sanitize value = value := by
  have hkept : (value.toList.filter fun c => c ≠ '\n' && c ≠ '\r') = value.toList := by
    apply List.filter_eq_self.mpr
    intro c hc
    simp [h c hc]
  rw [Page.sanitize, hkept, String.ofList_toList]

theorem Shows.act_type (h : Shows s p) (raised : String → String) {target value : String}
    {state : State} (hid : document.lookup target = some (.input, some state)) (hs : s.state = state)
    (hv : ∀ c ∈ value.toList, c ≠ '\n' ∧ c ≠ '\r') : p.act raised ⟨.type, target, value⟩ =
      (p.setValue target value, .ok (p.setValue target value).observe) := by
  have hg : target ≠ "greeting" := lookup_greeting hid (by decide)
  simp [Page.act, Page.fill, hid, h.visible hid hs hg, sanitize_eq hv]

end Controls

theorem input_cases {target : String} (h : ∃ e ∈ s.elements, e.kind = .input ∧ e.id = target) :
    s.state = .login ∧ (target = "username" ∨ target = "password") ∨
      s.state = .customerForm ∧ (target = "name" ∨ target = "email") := by
  cases hs : s.state with
  | login => simpa [UiSession.elements, hs, eq_comm] using h
  | dashboard => simp [UiSession.elements, hs] at h
  | customerForm => simpa [UiSession.elements, hs, eq_comm] using h
  | success => simp [UiSession.elements, hs] at h

theorem input_facts {target : String} (h : ∃ e ∈ s.elements, e.kind = .input ∧ e.id = target) :
    target ∈ fieldNames ∧ document.lookup target = some (.input, some s.state) ∧
      s.state ≠ .dashboard ∧ (s.state ≠ .login → target ≠ "username") := by
  rcases input_cases h with ⟨hs, rfl | rfl⟩ | ⟨hs, rfl | rfl⟩
  · rw [hs]
    decide
  · rw [hs]
    decide
  · rw [hs]
    decide
  · rw [hs]
    decide

theorem button_cases {target : String} (h : ∃ e ∈ s.elements, e.kind = .button ∧ e.id = target) :
    s.state = .login ∧ target = "submit" ∨
      s.state = .dashboard ∧ (target = "new_customer" ∨ target = "logout") ∨
      s.state = .customerForm ∧ (target = "save" ∨ target = "cancel") ∨
      s.state = .success ∧ target = "back" := by
  cases hs : s.state with
  | login => simpa [UiSession.elements, hs, eq_comm] using h
  | dashboard => simpa [UiSession.elements, hs, eq_comm] using h
  | customerForm => simpa [UiSession.elements, hs, eq_comm] using h
  | success => simpa [UiSession.elements, hs, eq_comm] using h

def clean : Except String Screen → Bool
  | .ok screen => screen.error.isNone
  | .error _ => false

section Step

variable {raised : String → String}

theorem served {a : Action} {p' : Page} (hp : p.act raised a = (p', .ok p'.observe))
    (h : Shows (s.act a) p') : Shows (s.serve (.act a)).1 (p.serve raised (.act a)).1 ∧
      (s.serve (.act a)).2 = (p.serve raised (.act a)).2 := by
  change Shows (s.act a) (p.act raised a).1 ∧ Except.ok (s.act a).observe = (p.act raised a).2
  rw [hp, h.observe]
  exact ⟨h, rfl⟩

theorem cleared (h : s.error = none) : { s with error := none } = s := by
  cases s
  cases h
  rfl

theorem act_typed {target : String} (h : target ∈ fieldNames) (value : String) :
    s.act ⟨.type, target, value⟩ = UiSession.setField { s with error := none } target value :=
  if_pos h

theorem Shows.serve_type (h : Shows s p) {target value : String} (he : s.error = none)
    (ha : Addressed s (.act ⟨.type, target, value⟩)) :
    Shows (s.serve (.act ⟨.type, target, value⟩)).1 (p.serve raised (.act ⟨.type, target, value⟩)).1 ∧
      (s.serve (.act ⟨.type, target, value⟩)).2 =
        (p.serve raised (.act ⟨.type, target, value⟩)).2 := by
  obtain ⟨htarget, hv⟩ := ha
  obtain ⟨hfield, hlookup, hd, hu⟩ := input_facts htarget
  apply served (h.act_type raised hlookup rfl hv)
  rw [act_typed hfield, cleared he]
  exact h.typed value hd hu

theorem Shows.serve_click (h : Shows s p) {target value : String}
    (ha : Addressed s (.act ⟨.click, target, value⟩)) (hc : Calm s (.act ⟨.click, target, value⟩)) :
    Shows (s.serve (.act ⟨.click, target, value⟩)).1
        (p.serve raised (.act ⟨.click, target, value⟩)).1 ∧
      (s.serve (.act ⟨.click, target, value⟩)).2 =
        (p.serve raised (.act ⟨.click, target, value⟩)).2 := by
  rcases button_cases ha with ⟨hs, rfl⟩ | ⟨hs, rfl | rfl⟩ | ⟨hs, rfl | rfl⟩ | ⟨hs, rfl⟩
  · exact served (h.act_click raised (by decide) hs value) (h.submit hs value)
  · exact served (h.act_click raised (by decide) hs value) (h.newCustomer hs value)
  · exact served (h.act_click raised (by decide) hs value) (h.logout hs value)
  · exact served (h.act_click raised (by decide) hs value) (h.save hs value (hc hs rfl))
  · exact served (h.act_click raised (by decide) hs value) (h.cancel hs value)
  · exact served (h.act_click raised (by decide) hs value) (h.back hs value)

theorem Shows.serve_same (h : Shows s p) (raised : String → String) (q : Call) (ha : Addressed s q) (hc : Calm s q) :
    Shows (s.serve q).1 (p.serve raised q).1 ∧ (s.serve q).2 = (p.serve raised q).2 := by
  cases q with
  | observe =>
    refine ⟨h, ?_⟩
    change Except.ok s.observe = Except.ok p.observe
    rw [h.observe]
  | act a =>
    obtain ⟨kind, target, value⟩ := a
    cases kind with
    | observe =>
      apply served rfl
      change Shows { s with error := none } p
      rw [cleared hc]
      exact h
    | click => exact h.serve_click ha hc
    | type => exact h.serve_type hc ha

theorem Shows.observe_unclean (h : Shows s p) (he : s.error ≠ none) :
    clean (.ok p.observe) = false := by
  change p.observe.error.isNone = false
  rw [h.observe_error]
  cases hs : s.error with
  | none => exact absurd hs he
  | some e => rfl

theorem Shows.serve_differ (h : Shows s p) (raised : String → String) (q : Call) (ha : Addressed s q)
    (hc : ¬ Calm s q) :
    clean (s.serve q).2 ≠ clean (p.serve raised q).2 := by
  cases q with
  | observe => exact absurd trivial hc
  | act a =>
    obtain ⟨kind, target, value⟩ := a
    cases kind with
    | observe =>
      change true ≠ clean (.ok p.observe)
      rw [h.observe_unclean hc]
      decide
    | click =>
      have hsave : s.state = .customerForm ∧ target = "save" ∧
          ¬ (PyText.strip (s.fields "name") = "" ↔ Page.trim (s.fields "name") = "") := by
        by_contra hn
        apply hc
        intro hs ht
        by_contra hb
        exact hn ⟨hs, ht, hb⟩
      obtain ⟨hs, rfl, hblank⟩ := hsave
      change clean (.ok (s.act _).observe) ≠ clean (p.act raised _).2
      rw [h.act_click raised (by decide) hs value, act_save hs, h.clicked_save]
      by_cases hstrip : PyText.strip (s.fields "name") = ""
      · have htrim : ¬ Page.trim (s.fields "name") = "" := fun ht => hblank ⟨fun _ => ht, fun _ => hstrip⟩
        rw [if_pos hstrip, if_neg htrim]
        change false ≠ true
        decide
      · have htrim : Page.trim (s.fields "name") = "" := by
          by_contra ht
          exact hblank ⟨fun hs => absurd hs hstrip, fun hs => absurd hs ht⟩
        have hshown := (h.fails (.inr rfl : _ ∨ "Name is required" = _)).observe_error
        rw [if_neg hstrip, if_pos htrim]
        change true ≠ Option.isNone (p.setError "Name is required").observe.error
        rw [hshown]
        change true ≠ false
        decide
    | type =>
      obtain ⟨htarget, hv⟩ := ha
      obtain ⟨hfield, hlookup, hd, hu⟩ := input_facts htarget
      change clean (.ok (s.act _).observe) ≠ clean (p.act raised _).2
      rw [h.act_type raised hlookup rfl hv, act_typed hfield]
      change true ≠ clean (.ok p.observe)
      rw [h.observe_unclean hc]
      decide

end Step

end Workbench.Crm
