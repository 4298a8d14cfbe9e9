import Workbench.PyText
import Mathlib.Logic.Function.Basic

namespace Workbench.Crm

inductive State
  | login
  | dashboard
  | customerForm
  | success
  deriving DecidableEq

def State.text : State → String
  | .login => "login"
  | .dashboard => "dashboard"
  | .customerForm => "customer_form"
  | .success => "success"

inductive ElementKind
  | input
  | button
  | text
  deriving DecidableEq

structure Element where
  id : String
  kind : ElementKind
  label : String
  value : String
  deriving DecidableEq

structure Screen where
  state : State
  elements : List Element
  error : Option String
  deriving DecidableEq

inductive ActionKind
  | observe
  | click
  | type
  deriving DecidableEq

def ActionKind.text : ActionKind → String
  | .observe => "observe"
  | .click => "click"
  | .type => "type"

structure Action where
  kind : ActionKind
  target : String
  value : String
  deriving DecidableEq

def validUser : String := "admin"

def validPass : String := "secret"

def fieldNames : List String := ["username", "password", "name", "email"]

structure UiSession where
  state : State
  fields : String → String
  error : Option String

namespace UiSession

def new : UiSession := ⟨.login, fun _ => "", none⟩

def elements (s : UiSession) : List Element :=
  match s.state with
  | .login =>
    [⟨"username", .input, "Username", s.fields "username"⟩,
      ⟨"password", .input, "Password", s.fields "password"⟩,
      ⟨"submit", .button, "Sign in", ""⟩]
  | .dashboard =>
    [⟨"greeting", .text, "Welcom, " ++ s.fields "username", ""⟩,
      ⟨"new_customer", .button, "New customer", ""⟩,
      ⟨"logout", .button, "Log out", ""⟩]
  | .customerForm =>
    [⟨"name", .input, "Name", s.fields "name"⟩,
      ⟨"email", .input, "Email", s.fields "email"⟩,
      ⟨"save", .button, "Save", ""⟩,
      ⟨"cancel", .button, "Cancel", ""⟩]
  | .success =>
    [⟨"confirmation", .text, "Customer saved", ""⟩,
      ⟨"back", .button, "Back to dashboard", ""⟩]

def observe (s : UiSession) : Screen := ⟨s.state, s.elements, s.error⟩

def setField (s : UiSession) (name value : String) : UiSession :=
  { s with fields := Function.update s.fields name value }

def click (s : UiSession) (target : String) : UiSession :=
  if s.state = .login ∧ target = "submit" then
    if s.fields "username" = validUser ∧ s.fields "password" = validPass then
      { s with state := .dashboard }
    else { s with error := some "Invalid credentials" }
  else if s.state = .dashboard ∧ target = "new_customer" then
    { (s.setField "name" "").setField "email" "" with state := .customerForm }
  else if s.state = .dashboard ∧ target = "logout" then { s with state := .login }
  else if s.state = .customerForm ∧ target = "save" then
    if PyText.strip (s.fields "name") = "" then { s with error := some "Name is required" }
    else { s with state := .success }
  else if s.state = .customerForm ∧ target = "cancel" ∨ s.state = .success ∧ target = "back" then
    { s with state := .dashboard }
  else { s with error := some ("no such control here: " ++ target) }

def act (s : UiSession) (action : Action) : UiSession :=
  let s := { s with error := none }
  match action.kind with
  | .observe => s
  | .click => s.click action.target
  | .type =>
    if action.target ∈ fieldNames then s.setField action.target action.value
    else { s with error := some ("no such field: " ++ action.target) }

end UiSession

end Workbench.Crm
