import Mathlib.Data.List.Basic
import Mathlib.Data.List.TakeWhile
import Mathlib.Data.Nat.Notation

namespace Workbench.PyText

def spaceCodes : List (ℕ × ℕ) :=
  [(0x09, 0x0d), (0x1c, 0x20), (0x85, 0x85), (0xa0, 0xa0), (0x1680, 0x1680), (0x2000, 0x200a),
    (0x2028, 0x2029), (0x202f, 0x202f), (0x205f, 0x205f), (0x3000, 0x3000)]

def isSpace (c : Char) : Bool := spaceCodes.any fun r => r.1 ≤ c.toNat && c.toNat ≤ r.2

def stripChars (cs : List Char) : List Char :=
  ((cs.dropWhile isSpace).reverse.dropWhile isSpace).reverse

theorem mem_stripChars {c : Char} {cs : List Char} (h : c ∈ stripChars cs) : c ∈ cs := by
  have hright := (List.dropWhile_sublist isSpace).mem (List.mem_reverse.mp h)
  exact (List.dropWhile_sublist isSpace).mem (List.mem_reverse.mp hright)

theorem mem_dropWhile_of_not {α : Type} {p : α → Bool} {a : α} {as : List α} (h : a ∈ as)
    (ha : p a = false) : a ∈ as.dropWhile p := by
  induction as with
  | nil => cases h
  | cons b as ih =>
    by_cases hb : p b = true
    · rw [List.dropWhile_cons_of_pos hb]
      rcases List.mem_cons.mp h with rfl | h
      · rw [ha] at hb
        cases hb
      · exact ih h
    · rw [List.dropWhile_cons_of_neg hb]
      exact h

theorem mem_stripChars_of_not {c : Char} {cs : List Char} (h : c ∈ cs) (hc : isSpace c = false) :
    c ∈ stripChars cs :=
  List.mem_reverse.mpr
    (mem_dropWhile_of_not (List.mem_reverse.mpr (mem_dropWhile_of_not h hc)) hc)

theorem stripChars_eq_nil {cs : List Char} : stripChars cs = [] ↔ ∀ c ∈ cs, isSpace c = true := by
  constructor
  · intro h c hc
    by_contra hsolid
    have hkept := mem_stripChars_of_not hc (Bool.not_eq_true _ ▸ hsolid)
    rw [h] at hkept
    cases hkept
  · intro h
    apply List.reverse_eq_nil_iff.mpr
    rw [List.dropWhile_eq_nil_iff]
    intro c hc
    exact h c ((List.dropWhile_sublist isSpace).mem (List.mem_reverse.mp hc))

theorem stripChars_twice {cs : List Char} (h : stripChars cs ≠ []) : stripChars (stripChars cs) ≠ [] := by
  intro hnil
  apply h
  apply stripChars_eq_nil.mpr
  intro c hc
  by_contra hsolid
  exact hsolid (stripChars_eq_nil.mp hnil c (mem_stripChars_of_not hc (Bool.not_eq_true _ ▸ hsolid)))

theorem stripChars_cons {c : Char} (h : isSpace c = false) (cs : List Char) :
    ∃ ds, stripChars (c :: cs) = c :: ds := by
  unfold stripChars
  rw [List.dropWhile_cons_of_neg (by simp [h]), List.reverse_cons, List.dropWhile_append]
  split_ifs with hempty
  · exact ⟨[], by simp [h]⟩
  · exact ⟨(cs.reverse.dropWhile isSpace).reverse, by simp⟩

def strip (s : String) : String := String.ofList (stripChars s.toList)

def rfind (c : Char) (cs : List Char) : Option ℕ :=
  (cs.reverse.idxOf? c).map fun i => cs.length - 1 - i

def between (opener closer : Char) (cs : List Char) : Option (List Char) :=
  match cs.idxOf? opener, rfind closer cs with
  | some start, some last => if last ≤ start then none else some ((cs.take (last + 1)).drop start)
  | _, _ => none

def hexEscape (letter : Char) (width n : ℕ) : List Char :=
  let digits := Nat.toDigits 16 n
  '\\' :: letter :: (List.replicate (width - digits.length) '0' ++ digits)

def reprChar (printable : Char → Bool) (quote c : Char) : List Char :=
  if c = quote ∨ c = '\\' then ['\\', c]
  else if c = '\n' then ['\\', 'n']
  else if c = '\r' then ['\\', 'r']
  else if c = '\t' then ['\\', 't']
  else if printable c then [c]
  else if c.toNat < 0x100 then hexEscape 'x' 2 c.toNat
  else if c.toNat < 0x10000 then hexEscape 'u' 4 c.toNat
  else hexEscape 'U' 8 c.toNat

/-- `repr` of a text; `printable` is `str.isprintable` of a character. -/
def repr (printable : Char → Bool) (s : String) : String :=
  let single := Char.ofNat 39
  let quote := if s.toList.contains single && !s.toList.contains '"' then '"' else single
  String.ofList (quote :: (s.toList.flatMap (reprChar printable quote) ++ [quote]))

end Workbench.PyText
