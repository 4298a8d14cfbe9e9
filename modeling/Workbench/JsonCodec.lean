import Workbench.JsonTexts
import Workbench.PyIntegers
import Workbench.PyJson

namespace Workbench.JsonCodec

open JsonTexts PyJson

/-- What the encoder writes for a `float`, and what `float` makes of a numeral. -/
structure FloatTexts where
  repr : Option ℚ → List Char
  read : List Char → Option ℚ

abbrev Scanned (α : Type) := Except LoadsError (α × List Char)

section Strings

def escape (c : Char) : List Char :=
  if c = '"' then ['\\', '"']
  else if c = '\\' then ['\\', '\\']
  else if c = '\n' then ['\\', 'n']
  else if c = '\r' then ['\\', 'r']
  else if c = '\t' then ['\\', 't']
  else if c = '\x08' then ['\\', 'b']
  else if c = '\x0c' then ['\\', 'f']
  else if c.toNat < 32 then
    ['\\', 'u', '0', '0', Nat.digitChar (c.toNat / 16), Nat.digitChar (c.toNat % 16)]
  else [c]

def quote (cs : List Char) : List Char := '"' :: (cs.flatMap escape ++ ['"'])

def hexValue (c : Char) : Option ℕ :=
  if isDigit c then some (c.toNat - 48)
  else if 'a' ≤ c && c ≤ 'f' then some (c.toNat - 87)
  else if 'A' ≤ c && c ≤ 'F' then some (c.toNat - 55)
  else none

def hexUnit (a b c d : Char) : Option ℕ :=
  (hexValue a).bind fun a => (hexValue b).bind fun b => (hexValue c).bind fun c =>
    (hexValue d).map fun d => 4096 * a + 256 * b + 16 * c + d

def unescape : Char → Option ℕ
  | '"' => some 34
  | '\\' => some 92
  | '/' => some 47
  | 'b' => some 8
  | 'f' => some 12
  | 'n' => some 10
  | 'r' => some 13
  | 't' => some 9
  | _ => none

/-- `scanstring` behind the opening quote: the code points up to the closing one. -/
def scanUnits : List Char → Option (List ℕ × List Char)
  | [] => none
  | '"' :: rest => some ([], rest)
  | '\\' :: 'u' :: a :: b :: c :: d :: rest =>
    (hexUnit a b c d).bind fun n => (scanUnits rest).map fun p => (n :: p.1, p.2)
  | '\\' :: e :: rest => (unescape e).bind fun n => (scanUnits rest).map fun p => (n :: p.1, p.2)
  | c :: rest =>
    if c = '\\' || c.toNat < 32 then none else (scanUnits rest).map fun p => (c.toNat :: p.1, p.2)

def isHigh (n : ℕ) : Bool := 0xd800 ≤ n && n ≤ 0xdbff

def isLow (n : ℕ) : Bool := 0xdc00 ≤ n && n ≤ 0xdfff

/-- Escaped surrogates are joined in pairs; one that is alone is no character. -/
def joinUnits : List ℕ → List Char
  | [] => []
  | [n] => [Char.ofNat n]
  | n :: m :: ns =>
    if isHigh n && isLow m then
      Char.ofNat (0x10000 + (n - 0xd800) * 0x400 + (m - 0xdc00)) :: joinUnits ns
    else Char.ofNat n :: joinUnits (m :: ns)

def scanString (cs : List Char) : Scanned String :=
  match scanUnits cs with
  | none => .error .decode
  | some (units, rest) => .ok (String.ofList (joinUnits units), rest)

end Strings

section Numbers

def natText (n : ℕ) : List Char := Nat.toDigits 10 n

def intText (n : ℤ) : List Char := if n < 0 then '-' :: natText n.natAbs else natText n.natAbs

def readNat (ds : List Char) : Except LoadsError ℕ :=
  if PyIntegers.maxStrDigits < ds.length then .error .value else .ok (Nat.ofDigitChars 10 ds 0)

def readInt : List Char → Except LoadsError ℤ
  | '-' :: ds => (readNat ds).map fun n => -(n : ℤ)
  | ds => (readNat ds).map fun n => (n : ℤ)

/-- `0|[1-9][0-9]*` -/
def scanNat : List Char → Option (List Char × List Char)
  | '0' :: cs => some (['0'], cs)
  | c :: cs => if isDigit c then some (c :: cs.takeWhile isDigit, cs.dropWhile isDigit) else none
  | [] => none

def scanInt : List Char → Option (List Char × List Char)
  | '-' :: cs => (scanNat cs).map fun p => ('-' :: p.1, p.2)
  | cs => scanNat cs

/-- `(\.[0-9]+)?` -/
def scanFraction : List Char → List Char × List Char
  | '.' :: cs =>
    if cs.takeWhile isDigit = [] then ([], '.' :: cs) else ('.' :: cs.takeWhile isDigit, cs.dropWhile isDigit)
  | cs => ([], cs)

def scanSign : List Char → List Char × List Char
  | '+' :: cs => (['+'], cs)
  | '-' :: cs => (['-'], cs)
  | cs => ([], cs)

/-- `([eE][-+]?[0-9]+)?` -/
def scanExponent : List Char → List Char × List Char
  | e :: cs =>
    let ds := (scanSign cs).2
    if (e = 'e' || e = 'E') && ds.takeWhile isDigit ≠ [] then
      (e :: ((scanSign cs).1 ++ ds.takeWhile isDigit), ds.dropWhile isDigit)
    else ([], e :: cs)
  | [] => ([], [])

def scanNumber (floats : FloatTexts) (cs : List Char) : Scanned Json :=
  match scanInt cs with
  | none => .error .decode
  | some (whole, rest) =>
    let fraction := scanFraction rest
    let exponent := scanExponent fraction.2
    if fraction.1 = [] ∧ exponent.1 = [] then (readInt whole).map fun n => (.int n, exponent.2)
    else .ok (.float (floats.read (whole ++ (fraction.1 ++ exponent.1))), exponent.2)

end Numbers

def skip (cs : List Char) : List Char := cs.dropWhile isBlank

section Scan

variable {α : Type}

def scanAll (scan : List Char → Scanned α) (closer : Char) : ℕ → List Char → Scanned (List α)
  | 0, _ => .error .decode
  | n + 1, cs => (scan cs).bind fun p =>
    match skip p.2 with
    | [] => .error .decode
    | c :: rest =>
      if c = closer then .ok ([p.1], rest)
      else if c = ',' then (scanAll scan closer n (skip rest)).map fun q => (p.1 :: q.1, q.2)
      else .error .decode

def scanBody (scan : List Char → Scanned α) (closer : Char) (cs : List Char) : Scanned (List α) :=
  if (skip cs).head? = some closer then .ok ([], (skip cs).tail)
  else scanAll scan closer (skip cs).length (skip cs)

def scanMember (scan : List Char → Scanned Json) : List Char → Scanned (String × Json)
  | '"' :: cs => (scanString cs).bind fun p =>
    match skip p.2 with
    | ':' :: rest => (scan (skip rest)).map fun q => ((p.1, q.1), q.2)
    | _ => .error .decode
  | _ => .error .decode

def put (fields : Dict) (f : String × Json) : Dict :=
  if (field fields f.1).isSome then fields.map fun g => if g.1 = f.1 then f else g else fields ++ [f]

def scanArray (scan : List Char → Scanned Json) (cs : List Char) : Scanned Json :=
  (scanBody scan ']' cs).map fun p => (.list p.1, p.2)

def scanObject (scan : List Char → Scanned Json) (cs : List Char) : Scanned Json :=
  (scanBody (scanMember scan) '\x7d' cs).map fun p => (.dict (p.1.foldl put []), p.2)

end Scan

def scanAtom (floats : FloatTexts) : List Char → Scanned Json
  | '"' :: cs => (scanString cs).map fun p => (.str p.1, p.2)
  | 'n' :: 'u' :: 'l' :: 'l' :: cs => .ok (.null, cs)
  | 't' :: 'r' :: 'u' :: 'e' :: cs => .ok (.bool true, cs)
  | 'f' :: 'a' :: 'l' :: 's' :: 'e' :: cs => .ok (.bool false, cs)
  | 'N' :: 'a' :: 'N' :: cs => .ok (.float none, cs)
  | 'I' :: 'n' :: 'f' :: 'i' :: 'n' :: 'i' :: 't' :: 'y' :: cs => .ok (.float none, cs)
  | '-' :: 'I' :: 'n' :: 'f' :: 'i' :: 'n' :: 'i' :: 't' :: 'y' :: cs => .ok (.float none, cs)
  | cs => scanNumber floats cs

/-- `scan_once`, with room for so many nested containers. -/
def scanOnce (floats : FloatTexts) : ℕ → List Char → Scanned Json
  | 0, '[' :: _ => .error .recursion
  | 0, '\x7b' :: _ => .error .recursion
  | room + 1, '[' :: cs => scanArray (scanOnce floats room) cs
  | room + 1, '\x7b' :: cs => scanObject (scanOnce floats room) cs
  | _, cs => scanAtom floats cs

def loads (floats : FloatTexts) (room : ℕ) (cs : List Char) : Except LoadsError Json :=
  (scanOnce floats room (skip cs)).bind fun p =>
    if skip p.2 = [] then .ok p.1 else .error .decode

def joined : List (List Char) → List Char
  | [] => []
  | [text] => text
  | text :: others => text ++ ',' :: ' ' :: joined others

mutual

def encode (floats : FloatTexts) (room : ℕ) : Json → Except PyError (List Char)
  | .null => .ok ['n', 'u', 'l', 'l']
  | .bool true => .ok ['t', 'r', 'u', 'e']
  | .bool false => .ok ['f', 'a', 'l', 's', 'e']
  | .int n => if PyIntegers.maxStrDigits < (natText n.natAbs).length then .error .valueError else .ok (intText n)
  | .float q => .ok (floats.repr q)
  | .str s => .ok (quote s.toList)
  | .list items =>
    match room with
    | 0 => .error .recursionError
    | room + 1 => (encodeItems floats room items).map fun texts => '[' :: (joined texts ++ [']'])
  | .dict fields =>
    match room with
    | 0 => .error .recursionError
    | room + 1 => (encodeFields floats room fields).map fun texts => '\x7b' :: (joined texts ++ ['\x7d'])

def encodeItems (floats : FloatTexts) (room : ℕ) : List Json → Except PyError (List (List Char))
  | [] => .ok []
  | v :: vs => (encode floats room v).bind fun text =>
    (encodeItems floats room vs).map fun texts => text :: texts

def encodeFields (floats : FloatTexts) (room : ℕ) :
    List (String × Json) → Except PyError (List (List Char))
  | [] => .ok []
  | (key, v) :: fields => (encode floats room v).bind fun text =>
    (encodeFields floats room fields).map fun texts => (quote key.toList ++ ':' :: ' ' :: text) :: texts

end

end Workbench.JsonCodec
