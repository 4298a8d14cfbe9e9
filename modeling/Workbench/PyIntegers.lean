import Workbench.PyText

namespace Workbench.PyIntegers

open PyText

/-- The decimal zeros of Unicode 15.0; the other nine digits follow each of them. -/
def zeros : List ℕ :=
  [0x30, 0x660, 0x6f0, 0x7c0, 0x966, 0x9e6, 0xa66, 0xae6, 0xb66, 0xbe6, 0xc66, 0xce6, 0xd66, 0xde6,
    0xe50, 0xed0, 0xf20, 0x1040, 0x1090, 0x17e0, 0x1810, 0x1946, 0x19d0, 0x1a80, 0x1a90, 0x1b50,
    0x1bb0, 0x1c40, 0x1c50, 0xa620, 0xa8d0, 0xa900, 0xa9d0, 0xa9f0, 0xaa50, 0xabf0, 0xff10, 0x104a0,
    0x10d30, 0x11066, 0x110f0, 0x11136, 0x111d0, 0x112f0, 0x11450, 0x114d0, 0x11650, 0x116c0, 0x11730,
    0x118e0, 0x11950, 0x11c50, 0x11d50, 0x11da0, 0x11f50, 0x16a60, 0x16ac0, 0x16b50, 0x1d7ce, 0x1d7d8,
    0x1d7e2, 0x1d7ec, 0x1d7f6, 0x1e140, 0x1e2f0, 0x1e4f0, 0x1e950, 0x1fbf0]

def digit (c : Char) : Option ℕ :=
  (zeros.find? fun z => z ≤ c.toNat && c.toNat < z + 10).map (c.toNat - ·)

/-- What `int` skips: not the separators that `str.strip` takes for spaces. -/
def isBlank (c : Char) : Bool := isSpace c && !(0x1c ≤ c.toNat && c.toNat ≤ 0x1f)

def trim (cs : List Char) : List Char :=
  ((cs.dropWhile isBlank).reverse.dropWhile isBlank).reverse

def moreDigits : List Char → Option (List ℕ)
  | [] => some []
  | '_' :: c :: cs => (digit c).bind fun d => (moreDigits cs).map (d :: ·)
  | c :: cs => (digit c).bind fun d => (moreDigits cs).map (d :: ·)

def digits : List Char → Option (List ℕ)
  | [] => none
  | c :: cs => (digit c).bind fun d => (moreDigits cs).map (d :: ·)

def maxStrDigits : ℕ := 4300

def magnitude (cs : List Char) : Option ℕ :=
  (digits cs).bind fun ds =>
    if maxStrDigits < ds.length then none else some (ds.foldl (fun n d => 10 * n + d) 0)

/-- `none` where it raises a `ValueError`. -/
def int (s : String) : Option ℤ :=
  match trim s.toList with
  | '-' :: cs => (magnitude cs).map fun n => -n
  | '+' :: cs => (magnitude cs).map fun n => n
  | cs => (magnitude cs).map fun n => n

example : [" 1_000\n", "-٣", "+ 1", "1__0", "1.5", "1e3", ""].map int =
    [some 1000, some (-3), none, none, none, none, none] := by
  decide +kernel

end Workbench.PyIntegers
