import Workbench.OperatorGrammars
import Mathlib.Algebra.Group.Int.Defs
import Mathlib.Algebra.Group.Nat.Defs

/-!
The calculator of the demo agent: `ast.parse` of an expression of integers and operators,
`_safe_eval` of what it returns, and the text of the value.
-/

namespace Workbench.Calculator

open OperatorGrammars

inductive Operator
  | add
  | sub
  | mult
  | matMult
  | div
  | mod
  | pow
  | lShift
  | rShift
  | bitOr
  | bitXor
  | bitAnd
  | floorDiv
  deriving DecidableEq

inductive UnaryOperator
  | invert
  | not
  | uAdd
  | uSub
  deriving DecidableEq

inductive Value (F : Type)
  | int (n : ℤ)
  | other (x : F)
  deriving DecidableEq

/-- `ast.Constant` with a `float` or an `int`, or any other node that is no `BinOp` or `UnaryOp`. -/
inductive Leaf (F : Type)
  | constant (v : Value F)
  | other (dump : String)
  deriving DecidableEq

inductive Node (F : Type)
  | leaf (l : Leaf F)
  | binOp (left : Node F) (op : Operator) (right : Node F)
  | unaryOp (op : UnaryOperator) (operand : Node F)
  deriving DecidableEq

abbrev Expr (F : Type) := Tree (Leaf F) UnaryOperator Operator

def node {F : Type} : Expr F → Node F
  | .atom l => .leaf l
  | .group e => node e
  | .signed u e => .unaryOp u (node e)
  | .applied l o r => .binOp (node l) o (node r)

def nesting {F : Type} : Expr F → ℕ
  | .atom _ => 0
  | .group e => nesting e + 1
  | .signed _ e => nesting e + 1
  | .applied l _ r => max (nesting l) (nesting r)

/-- Python where a number is no `int` or a text is not made of decimal integers, signs, operators and
parentheses alone; `none` is a `SyntaxError`. -/
structure Library (F : Type) where
  parse : String → Option (Expr F)
  apply : Operator → Value F → Value F → Except String (Value F)
  neg : F → Except String (Value F)
  str : F → String

variable {F : Type}

section Parse

inductive Symbol
  | plus
  | minus
  | star
  | doubleStar
  | slash
  | doubleSlash
  | percent
  | at
  | bar
  | caret
  | ampersand
  | tilde
  deriving DecidableEq

def signOf : Symbol → Option UnaryOperator
  | .plus => some .uAdd
  | .minus => some .uSub
  | .tilde => some .invert
  | _ => none

def operatorOf : Symbol → Option Operator
  | .plus => some .add
  | .minus => some .sub
  | .star => some .mult
  | .doubleStar => some .pow
  | .slash => some .div
  | .doubleSlash => some .floorDiv
  | .percent => some .mod
  | .at => some .matMult
  | .bar => some .bitOr
  | .caret => some .bitXor
  | .ampersand => some .bitAnd
  | .tilde => none

def level : Operator → ℕ
  | .bitOr => 0
  | .bitXor => 1
  | .bitAnd => 2
  | .lShift | .rShift => 3
  | .add | .sub => 4
  | .mult | .matMult | .div | .mod | .floorDiv => 5
  | .pow => 7

def leftLevel (o : Operator) : ℕ := if o = .pow then 8 else level o

def rightLevel (o : Operator) : ℕ := if o = .pow then 6 else level o + 1

theorem levels (o : Operator) : level o = 7 ∧ leftLevel o = 8 ∧ rightLevel o = 6 ∨
    level o ≤ 5 ∧ leftLevel o = level o ∧ rightLevel o = level o + 1 := by
  cases o <;> decide

theorem level_le_left (o : Operator) : level o ≤ leftLevel o := by
  have ho := levels o
  omega

theorem left_le_iff (o o' : Operator) : leftLevel o ≤ level o' ↔ level o < rightLevel o' := by
  have ho := levels o
  have ho' := levels o'
  omega

theorem left_le_sign_iff (o : Operator) : leftLevel o ≤ 6 ↔ level o < 6 := by
  have ho := levels o
  omega

theorem lt_right (o o' : Operator) (h : level o < level o') : level o < rightLevel o' := by
  have ho := levels o
  have ho' := levels o'
  omega

theorem right_pos (o : Operator) : 0 < rightLevel o := by
  have ho := levels o
  omega

theorem right_le_sign (o : Operator) : rightLevel o ≤ 6 := by
  have ho := levels o
  omega

def table : Table Symbol UnaryOperator Operator where
  signOf := signOf
  operatorOf := operatorOf
  level := level
  leftLevel := leftLevel
  rightLevel := rightLevel
  signLevel := 6
  level_le_left := level_le_left
  left_le_iff := left_le_iff
  left_le_sign_iff := left_le_sign_iff
  lt_right := lt_right
  right_pos := right_pos
  right_le_sign := right_le_sign
  sign_pos := Nat.succ_pos 5

abbrev Word := Token (List Char) Symbol

/-- What the tokenizer has begun: `*` and `/` may be doubled. -/
inductive Pending
  | blank
  | digits (ds : List Char)
  | star
  | slash
  deriving DecidableEq

def Pending.flush : Pending → List Word
  | .blank => []
  | .digits ds => [.atom ds]
  | .star => [.symbol .star]
  | .slash => [.symbol .slash]

def begin (c : Char) : Option (List Word × Pending) :=
  if c.isDigit then some ([], .digits [c])
  else match c with
    | ' ' | '\t' => some ([], .blank)
    | '*' => some ([], .star)
    | '/' => some ([], .slash)
    | '+' => some ([.symbol .plus], .blank)
    | '-' => some ([.symbol .minus], .blank)
    | '%' => some ([.symbol .percent], .blank)
    | '@' => some ([.symbol .at], .blank)
    | '|' => some ([.symbol .bar], .blank)
    | '^' => some ([.symbol .caret], .blank)
    | '&' => some ([.symbol .ampersand], .blank)
    | '~' => some ([.symbol .tilde], .blank)
    | '(' => some ([.opening], .blank)
    | ')' => some ([.closing], .blank)
    | _ => none

def Pending.next (p : Pending) (c : Char) : Option (List Word × Pending) :=
  match p, c with
  | .star, '*' => some ([.symbol .doubleStar], .blank)
  | .slash, '/' => some ([.symbol .doubleSlash], .blank)
  | .digits ds, c =>
    if c.isDigit then some ([], .digits (ds ++ [c]))
    else (begin c).map fun begun => (.atom ds :: begun.1, begun.2)
  | p, c => (begin c).map fun begun => (p.flush ++ begun.1, begun.2)

/-- `none` is another character. -/
def tokenize : Pending → List Char → Option (List Word)
  | p, [] => some p.flush
  | p, c :: cs => (p.next c).bind fun begun => (tokenize begun.2 cs).map (begun.1 ++ ·)

def maxStrDigits : ℕ := 4300

/-- `none` is a `SyntaxError`: too many digits, or a zero in front. -/
def literal (ds : List Char) : Option ℕ :=
  if maxStrDigits < ds.length ∨ ds.head? = some '0' ∧ ¬ ds.all (· = '0') then none
  else some (Nat.ofDigitChars 10 ds 0)

def Word.token : Word → Option (Token (Leaf F) Symbol)
  | .atom ds => (literal ds).map fun n => .atom (.constant (.int n))
  | .symbol s => some (.symbol s)
  | .opening => some .opening
  | .closing => some .closing

/-- `ast.parse` with `mode="eval"`; a text may not begin with a blank. -/
def astParse (lib : Library F) (text : String) : Option (Expr F) :=
  let words := text.toList.head?.bind fun c =>
    if c = ' ' ∨ c = '\t' then none else tokenize .blank text.toList
  match words with
  | none => lib.parse text
  | some words => (words.mapM Word.token).bind fun tokens => (parse table tokens).or (lib.parse text)

theorem astParse_eq_some_iff {lib : Library F} {text : String} {c : Char} {words : List Word}
    {tokens : List (Token (Leaf F) Symbol)} {e : Expr F} (hhead : text.toList.head? = some c)
    (hblank : ¬ (c = ' ' ∨ c = '\t')) (hwords : tokenize .blank text.toList = some words)
    (htokens : words.mapM Word.token = some tokens) : astParse lib text = some e ↔
      Derives table 0 tokens e ∨ (¬ ∃ e' : Expr F, Derives table 0 tokens e') ∧
        lib.parse text = some e := by
  simp only [astParse, hhead, Option.bind_some, if_neg hblank, hwords, htokens, ← parse_eq_some_iff]
  cases parse table tokens with
  | none => simp
  | some e' => simp

end Parse

section Eval

variable (lib : Library F)

def operate : Operator → Option (Value F → Value F → Except String (Value F))
  | .add => some fun
    | .int a, .int b => .ok (.int (a + b))
    | x, y => lib.apply .add x y
  | .sub => some fun
    | .int a, .int b => .ok (.int (a - b))
    | x, y => lib.apply .sub x y
  | .mult => some fun
    | .int a, .int b => .ok (.int (a * b))
    | x, y => lib.apply .mult x y
  | .div => some (lib.apply .div)
  | .pow => some fun
    | .int a, .int b => if 0 ≤ b then .ok (.int (a ^ b.toNat)) else lib.apply .pow (.int a) (.int b)
    | x, y => lib.apply .pow x y
  | .mod => some fun
    | .int a, .int b => if b ≠ 0 then .ok (.int (a.fmod b)) else lib.apply .mod (.int a) (.int b)
    | x, y => lib.apply .mod x y
  | _ => none

def operateUnary : UnaryOperator → Option (Value F → Except String (Value F))
  | .uSub => some fun
    | .int a => .ok (.int (-a))
    | .other x => lib.neg x
  | _ => none

inductive CalcError (F : Type)
  | syntaxError
  | tooDeep (text : String)
  | unsupported (node : Node F)
  | raised (error : String)
  deriving DecidableEq

def maxDepth : ℕ := 25

def tooDeepText : String := "expression nesting too deep (> " ++ toString maxDepth ++ ")"

def safeEval (node : Node F) (depth : ℕ) : Except (CalcError F) (Value F) :=
  if maxDepth < depth then .error (.tooDeep tooDeepText)
  else match node with
    | .leaf (.constant v) => .ok v
    | .leaf (.other dump) => .error (.unsupported (.leaf (.other dump)))
    | .binOp left op right =>
      match operate lib op with
      | none => .error (.unsupported (.binOp left op right))
      | some f => do
        let x ← safeEval left (depth + 1)
        let y ← safeEval right (depth + 1)
        (f x y).mapError .raised
    | .unaryOp op operand =>
      match operateUnary lib op with
      | none => .error (.unsupported (.unaryOp op operand))
      | some f => do
        let x ← safeEval operand (depth + 1)
        (f x).mapError .raised

def strLimitText : String := "Exceeds the limit (" ++ toString maxStrDigits ++
  " digits) for integer string conversion; use sys.set_int_max_str_digits() to increase the limit"

def str : Value F → Except String String
  | .int n =>
    if maxStrDigits < (toString n.natAbs).length then .error strLimitText else .ok (toString n)
  | .other x => .ok (lib.str x)

def calculator (expression : String) : Except (CalcError F) String :=
  match astParse lib expression with
  | none => .error .syntaxError
  | some body => do
    let v ← safeEval lib (node body) 0
    (str lib v).mapError .raised

end Eval

end Workbench.Calculator
