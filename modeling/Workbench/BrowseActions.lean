import Workbench.NetGuard
import Workbench.WorkflowTypes

namespace Workbench.Browse

open NetGuard
open WorkflowEngine (Dict)
open KeyedTable

inductive Value
  | text (s : String)
  | other (shown : String)
  deriving DecidableEq

def Value.str : Value → String
  | .text s => s
  | .other shown => shown

abbrev Action := Dict String Value

inductive Loaded
  | object (action : Action)
  | other

/-- `lower` is `str.lower` of a character, `isDigit` is `str.isdigit` of it, and `loads` is `none`
where it raises `JSONDecodeError`; `cssEscape` and `trim` are the page's. -/
structure BrowseLibrary extends UrlLibrary where
  lower : Char → List Char
  isDigit : Char → Bool
  loads : String → Option Loaded
  cssEscape : String → String
  trim : String → String

def unsafeTokens : List String :=
  ["pay", "payment", "checkout", "purchase", "buy now", "place order", "confirm order",
    "delete account"]

def sensitiveFieldTokens : List String :=
  ["card", "cc-number", "cardnumber", "cvv", "cvc", "iban", "password", "passwd", "ssn"]

def field (action : Action) (key default : String) : String :=
  (action.get key).elim default fun entry => entry.2.str

def kind (action : Action) : String := field action "action" "None"

def selector (action : Action) : String := field action "selector" ""

/-- The text of the object that the characters begin with, to the brace that balances its first. -/
def balanced : ℕ → Bool → Bool → List Char → Option (List Char)
  | _, _, _, [] => none
  | depth, inStr, esc, ch :: rest =>
    if inStr then
      (balanced depth (esc || ch ≠ '"') (!esc && ch = '\\') rest).map (ch :: ·)
    else if ch = '"' then (balanced depth true esc rest).map (ch :: ·)
    else if ch = '\x7b' then (balanced (depth + 1) false esc rest).map (ch :: ·)
    else if ch = '\x7d' then
      if depth = 1 then some [ch] else (balanced (depth - 1) false esc rest).map (ch :: ·)
    else (balanced depth false esc rest).map (ch :: ·)

variable (lib : BrowseLibrary)

def extractJsonObject : List Char → Option Action
  | [] => none
  | ch :: rest =>
    if ch = '\x7b' then
      match balanced 0 false false (ch :: rest) with
      | none => extractJsonObject rest
      | some body => match lib.loads (String.ofList body) with
        | none => extractJsonObject rest
        | some (.object action) => some action
        | some .other => none
    else extractJsonObject rest

def lowered (s : String) : List Char := s.toList.flatMap lib.lower

def Marked (tokens : List String) (s : String) : Prop :=
  ∃ tok ∈ tokens, tok.toList <:+: lowered lib s

instance (tokens : List String) (s : String) : Decidable (Marked lib tokens s) :=
  inferInstanceAs (Decidable (∃ tok ∈ tokens, _))

def looksLikeCardNumber (value : String) : Bool :=
  let digits := value.toList.filter fun c => !(lib.isSpace c || c = '-')
  digits ≠ [] ∧ digits.all lib.isDigit ∧ 13 ≤ digits.length ∧ digits.length ≤ 19

def isSensitiveType (action : Action) : Bool :=
  kind action = "type" ∧
    (Marked lib sensitiveFieldTokens
        (selector action ++ " " ++ field action "name" "" ++ " " ++ field action "placeholder" "") ∨
      looksLikeCardNumber lib (field action "text" ""))

def isUnsafe (action : Action) (sensitiveEntered : Bool) : Bool :=
  Marked lib unsafeTokens (" ".intercalate (action.rows.map fun entry => entry.2.str)) ∨
    sensitiveEntered ∧ kind action = "click"

end Workbench.Browse
