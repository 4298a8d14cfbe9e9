import Workbench.CrmSandbox

namespace Workbench.Crm

inductive Tag
  | container
  | input
  | button
  | paragraph
  deriving DecidableEq

def document : List (String × Tag × Option State) :=
  [("app", .container, none),
    ("screen-login", .container, some .login),
    ("username", .input, some .login),
    ("password", .input, some .login),
    ("submit", .button, some .login),
    ("screen-dashboard", .container, some .dashboard),
    ("greeting", .paragraph, some .dashboard),
    ("new_customer", .button, some .dashboard),
    ("logout", .button, some .dashboard),
    ("screen-customer_form", .container, some .customerForm),
    ("name", .input, some .customerForm),
    ("email", .input, some .customerForm),
    ("save", .button, some .customerForm),
    ("cancel", .button, some .customerForm),
    ("screen-success", .container, some .success),
    ("confirmation", .paragraph, some .success),
    ("back", .button, some .success),
    ("error", .paragraph, none)]

/-- What changes in the document: `data-state` of `#app`, the sections with the class `active`, the
values of the inputs, the text of `#greeting` and that of `#error`. -/
structure Page where
  dataState : State
  active : State → Bool
  values : String → String
  greeting : String
  errorText : String

namespace Page

def loaded : Page := ⟨.login, fun state => state = .login, fun _ => "", "", ""⟩

def setValue (p : Page) (id value : String) : Page :=
  { p with values := Function.update p.values id value }

section Script

def jsSpaceCodes : List (ℕ × ℕ) :=
  [(0x09, 0x0d), (0x20, 0x20), (0xa0, 0xa0), (0x1680, 0x1680), (0x2000, 0x200a), (0x2028, 0x2029),
    (0x202f, 0x202f), (0x205f, 0x205f), (0x3000, 0x3000), (0xfeff, 0xfeff)]

def isJsSpace (c : Char) : Bool := jsSpaceCodes.any fun r => r.1 ≤ c.toNat && c.toNat ≤ r.2

def trim (s : String) : String :=
  String.ofList ((s.toList.dropWhile isJsSpace).reverse.dropWhile isJsSpace).reverse

def showState (p : Page) (state : State) : Page :=
  { p with active := fun screen => screen = state, dataState := state }

def setError (p : Page) (msg : String) : Page := { p with errorText := msg }

def goLogin (p : Page) : Page := (p.showState .login).setError ""

def goDashboard (p : Page) : Page :=
  ({ p with greeting := "Welcom, " ++ p.values "username" }.showState .dashboard).setError ""

def goCustomerForm (p : Page) : Page :=
  (((p.setValue "name" "").setValue "email" "").showState .customerForm).setError ""

def goSuccess (p : Page) : Page := (p.showState .success).setError ""

def clicked (p : Page) (id : String) : Page :=
  if id = "submit" then
    if p.values "username" = validUser ∧ p.values "password" = validPass then p.goDashboard
    else p.setError "Invalid credentials"
  else if id = "new_customer" then p.goCustomerForm
  else if id = "logout" then p.goLogin
  else if id = "save" then
    if trim (p.values "name") = "" then p.setError "Name is required" else p.goSuccess
  else if id = "cancel" then p.goDashboard
  else if id = "back" then p.goDashboard
  else p

end Script

section Playwright

def visible (p : Page) (id : String) : Bool :=
  match document.lookup id with
  | some (_, some state) => p.active state && (id ≠ "greeting" || p.greeting ≠ "")
  | some (_, none) => id ≠ "error" || p.errorText ≠ ""
  | none => false

def sanitize (value : String) : String :=
  String.ofList (value.toList.filter fun c => c ≠ '\n' && c ≠ '\r')

/-- `page.fill`, which raises for what is no input, and once it has waited for one to be visible. -/
def fill (raised : String → String) (p : Page) (id value : String) : Except String Page :=
  match document.lookup id with
  | some (.input, _) => if p.visible id then .ok (p.setValue id (sanitize value)) else .error (raised id)
  | _ => .error (raised id)

/-- `handle.click()`, which raises once it has waited for the element to be visible. -/
def clickHandle (raised : String → String) (p : Page) (id : String) : Except String Page :=
  if p.visible id then .ok (p.clicked id) else .error (raised id)

def textContent (p : Page) (id : String) : String :=
  if id = "greeting" then p.greeting
  else if id = "confirmation" then "Customer saved"
  else if id = "error" then p.errorText
  else ""

end Playwright

section Session

def layout : State → List (String × ElementKind)
  | .login => [("username", .input), ("password", .input), ("submit", .button)]
  | .dashboard => [("greeting", .text), ("new_customer", .button), ("logout", .button)]
  | .customerForm => [("name", .input), ("email", .input), ("save", .button), ("cancel", .button)]
  | .success => [("confirmation", .text), ("back", .button)]

def labels : List (String × String) :=
  [("username", "Username"), ("password", "Password"), ("submit", "Sign in"),
    ("new_customer", "New customer"), ("logout", "Log out"), ("name", "Name"), ("email", "Email"),
    ("save", "Save"), ("cancel", "Cancel"), ("back", "Back to dashboard")]

def element (p : Page) (id : String) : ElementKind → Element
  | .input => ⟨id, .input, (labels.lookup id).getD "", p.values id⟩
  | .button => ⟨id, .button, (labels.lookup id).getD "", ""⟩
  | .text => ⟨id, .text, PyText.strip (p.textContent id), ""⟩

def observe (p : Page) : Screen :=
  let errorText := PyText.strip (p.textContent "error")
  ⟨p.dataState, (layout p.dataState).map fun (id, kind) => p.element id kind,
    if errorText = "" then none else some errorText⟩

def observeWithError (p : Page) (message : String) : Screen :=
  { p.observe with error := some message }

/-- The page after the action, and the screen returned; `raised` is the text of the error that
Playwright raises for an element. -/
def act (raised : String → String) (p : Page) (action : Action) : Page × Except String Screen :=
  match action.kind with
  | .observe => (p, .ok p.observe)
  | .type =>
    if (document.lookup action.target).isNone then
      (p, .ok (p.observeWithError ("no such field: " ++ action.target)))
    else match p.fill raised action.target action.value with
      | .ok p => (p, .ok p.observe)
      | .error text => (p, .error text)
  | .click =>
    if (document.lookup action.target).isNone then
      (p, .ok (p.observeWithError ("no such control here: " ++ action.target)))
    else match p.clickHandle raised action.target with
      | .ok p => (p, .ok p.observe)
      | .error text => (p, .error text)

end Session

end Page

end Workbench.Crm
