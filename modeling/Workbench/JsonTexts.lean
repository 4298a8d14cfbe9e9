import Mathlib.Data.List.Basic
import Mathlib.Data.Nat.Notation

namespace Workbench.JsonTexts

def isBlank (c : Char) : Bool := c = ' ' || c = '\t' || c = '\n' || c = '\r'

def isDigit (c : Char) : Bool := '0' ≤ c && c ≤ '9'

def isHex (c : Char) : Bool :=
  isDigit c || 'a' ≤ c && c ≤ 'f' || 'A' ≤ c && c ≤ 'F'

def literals : List (List Char) :=
  [['n', 'u', 'l', 'l'], ['t', 'r', 'u', 'e'], ['f', 'a', 'l', 's', 'e'], ['N', 'a', 'N'],
    ['I', 'n', 'f', 'i', 'n', 'i', 't', 'y'], ['-', 'I', 'n', 'f', 'i', 'n', 'i', 't', 'y']]

def escapes : List Char := ['"', '\\', '/', 'b', 'f', 'n', 'r', 't']

/-- `([eE][-+]?[0-9]+)?` -/
def isExponent : List Char → Bool
  | [] => true
  | e :: rest =>
    let digits := match rest with
      | '+' :: digits => digits
      | '-' :: digits => digits
      | digits => digits
    (e = 'e' || e = 'E') && digits ≠ [] && digits.all isDigit

/-- `(\.[0-9]+)?([eE][-+]?[0-9]+)?` -/
def isFraction : List Char → Bool
  | '.' :: rest => rest.takeWhile isDigit ≠ [] && isExponent (rest.dropWhile isDigit)
  | rest => isExponent rest

/-- `(0|[1-9][0-9]*)(\.[0-9]+)?([eE][-+]?[0-9]+)?` -/
def isUnsigned : List Char → Bool
  | '0' :: rest => isFraction rest
  | c :: rest => isDigit c && isFraction (rest.dropWhile isDigit)
  | [] => false

def isNumber : List Char → Bool
  | '-' :: rest => isUnsigned rest
  | rest => isUnsigned rest

def isStringBody : List Char → Bool
  | [] => true
  | '\\' :: 'u' :: a :: b :: c :: d :: rest =>
    isHex a && isHex b && isHex c && isHex d && isStringBody rest
  | '\\' :: e :: rest => e ∈ escapes && isStringBody rest
  | c :: rest => c ≠ '"' && c ≠ '\\' && 32 ≤ c.toNat && isStringBody rest

inductive Part
  | value
  | text
  | elements
  | member
  | members

inductive Json : Part → List Char → Prop
  | literal {cs} : cs ∈ literals → Json .value cs
  | number {cs} : isNumber cs → Json .value cs
  | string {cs} : isStringBody cs → Json .value ('"' :: (cs ++ ['"']))
  | emptyArray {ws} : ws.all isBlank → Json .value ('[' :: (ws ++ [']']))
  | array {es} : Json .elements es → Json .value ('[' :: (es ++ [']']))
  | emptyObject {ws} : ws.all isBlank → Json .value ('\x7b' :: (ws ++ ['\x7d']))
  | object {ms} : Json .members ms → Json .value ('\x7b' :: (ms ++ ['\x7d']))
  | text {a v b} : a.all isBlank → Json .value v → b.all isBlank → Json .text (a ++ (v ++ b))
  | lastElement {v} : Json .text v → Json .elements v
  | element {v es} : Json .text v → Json .elements es → Json .elements (v ++ ',' :: es)
  | member {a key b v} : a.all isBlank → isStringBody key → b.all isBlank → Json .text v →
      Json .member (a ++ '"' :: (key ++ '"' :: (b ++ ':' :: v)))
  | lastMember {m} : Json .member m → Json .members m
  | members {m ms} : Json .member m → Json .members ms → Json .members (m ++ ',' :: ms)

def IsObject (cs : List Char) : Prop :=
  ∃ body, cs = '\x7b' :: (body ++ ['\x7d']) ∧ (body.all isBlank ∨ Json .members body)

theorem IsObject.value {cs : List Char} (h : IsObject cs) : Json .value cs := by
  obtain ⟨body, rfl, hblank | hmembers⟩ := h
  · exact .emptyObject hblank
  · exact .object hmembers

theorem IsObject.text {cs : List Char} (h : IsObject cs) : Json .text cs := by
  have htext := Json.text (a := []) (b := []) rfl h.value rfl
  rwa [List.append_nil] at htext

section Plain

def isPlain (c : Char) : Bool := c ≠ '"' && c ≠ '\x7b' && c ≠ '\x7d'

theorem plain_of_blank {c : Char} (h : isBlank c) : isPlain c := by
  simp only [isBlank, Bool.or_eq_true, decide_eq_true_eq] at h
  rcases h with ((rfl | rfl) | rfl) | rfl <;> rfl

theorem plain_of_digit {c : Char} (h : isDigit c) : isPlain c := by
  simp only [isPlain, Bool.and_eq_true, decide_eq_true_eq, ne_eq]
  refine ⟨⟨?_, ?_⟩, ?_⟩
  · rintro rfl
    cases h
  · rintro rfl
    cases h
  · rintro rfl
    cases h

theorem plain_literals {cs : List Char} (h : cs ∈ literals) : cs.all isPlain := by
  have hall : ∀ cs ∈ literals, cs.all isPlain := by decide
  exact hall cs h

theorem all_of_dropWhile {p q : Char → Bool} (hpq : ∀ c, p c → q c) {cs : List Char}
    (h : (cs.dropWhile p).all q) : cs.all q := by
  induction cs with
  | nil => rfl
  | cons c cs ih =>
    by_cases hc : p c
    · rw [List.dropWhile_cons_of_pos hc] at h
      rw [List.all_cons, hpq c hc, ih h]
      rfl
    · rwa [List.dropWhile_cons_of_neg hc] at h

theorem plain_cons {c : Char} {cs : List Char} (hc : isPlain c) (h : cs.all isPlain) :
    (c :: cs).all isPlain := by
  rw [List.all_cons, hc, h]
  rfl

theorem plain_digits {cs : List Char} (h : cs.all isDigit) : cs.all isPlain := by
  rw [List.all_eq_true] at h ⊢
  intro c hc
  exact plain_of_digit (h c hc)

theorem plain_exponent {cs : List Char} (h : isExponent cs) : cs.all isPlain := by
  unfold isExponent at h
  split at h
  · rfl
  · rename_i e rest
    simp only [Bool.and_eq_true, Bool.or_eq_true, decide_eq_true_eq] at h
    obtain ⟨⟨he, -⟩, hdigits⟩ := h
    have hrest : rest.all isPlain := by
      split at hdigits
      · exact plain_cons rfl (plain_digits hdigits)
      · exact plain_cons rfl (plain_digits hdigits)
      · exact plain_digits hdigits
    rcases he with rfl | rfl
    · exact plain_cons rfl hrest
    · exact plain_cons rfl hrest

theorem plain_fraction {cs : List Char} (h : isFraction cs) : cs.all isPlain := by
  unfold isFraction at h
  split at h
  · rw [Bool.and_eq_true] at h
    exact plain_cons rfl (all_of_dropWhile (fun c => plain_of_digit) (plain_exponent h.2))
  · exact plain_exponent h

theorem plain_unsigned {cs : List Char} (h : isUnsigned cs) : cs.all isPlain := by
  unfold isUnsigned at h
  split at h
  · exact plain_cons rfl (plain_fraction h)
  · rw [Bool.and_eq_true] at h
    apply plain_cons (plain_of_digit h.1)
    exact all_of_dropWhile (fun c => plain_of_digit) (plain_fraction h.2)
  · cases h

theorem plain_number {cs : List Char} (h : isNumber cs) : cs.all isPlain := by
  unfold isNumber at h
  split at h
  · exact plain_cons rfl (plain_unsigned h)
  · exact plain_unsigned h

end Plain

section Shape

theorem not_plain_brace {cs : List Char} (h : ('\x7b' :: cs).all isPlain) : False := by
  rw [List.all_cons, Bool.and_eq_true] at h
  cases h.1

theorem Json.value_object {cs : List Char} (h : Json .value ('\x7b' :: cs)) :
    IsObject ('\x7b' :: cs) := by
  generalize htext : '\x7b' :: cs = text at h
  cases h with
  | literal h =>
    rw [← htext] at h
    exact absurd (plain_literals h) not_plain_brace
  | number h =>
    rw [← htext] at h
    exact absurd (plain_number h) not_plain_brace
  | string => cases htext
  | emptyArray => cases htext
  | array => cases htext
  | emptyObject h => exact ⟨_, rfl, .inl h⟩
  | object h => exact ⟨_, rfl, .inr h⟩

theorem blank_head {c : Char} {a cs ds : List Char} (ha : a.all isBlank) (hc : isBlank c = false)
    (h : c :: cs = a ++ ds) : a = [] := by
  cases a with
  | nil => rfl
  | cons b a =>
    cases h
    rw [List.all_cons, hc] at ha
    cases ha

theorem blank_last {c : Char} {b cs ds : List Char} (hb : b.all isBlank) (hc : isBlank c = false)
    (h : cs ++ [c] = ds ++ b) : b = [] := by
  have hreverse : c :: cs.reverse = b.reverse ++ ds.reverse := by
    simpa using congrArg List.reverse h
  apply List.reverse_eq_nil_iff.mp
  exact blank_head (by rwa [List.all_reverse]) hc hreverse

theorem Json.text_object {cs : List Char} (h : Json .text ('\x7b' :: (cs ++ ['\x7d']))) :
    IsObject ('\x7b' :: (cs ++ ['\x7d'])) := by
  generalize htext : '\x7b' :: (cs ++ ['\x7d']) = text at h
  cases h with
  | text ha hv hb =>
    have hhead := blank_head ha rfl htext
    rw [hhead, List.nil_append] at htext
    have hcons : ('\x7b' :: cs) ++ ['\x7d'] = _ := htext
    have hlast := blank_last hb rfl hcons
    rw [hlast, List.append_nil] at htext
    rw [hhead, hlast, List.nil_append, List.append_nil, ← htext]
    rw [← htext] at hv
    exact hv.value_object

end Shape

section Decide

def join (p q : List Char → Bool) (cs : List Char) : Bool :=
  (List.range (cs.length + 1)).any fun i => p (cs.take i) && q (cs.drop i)

def after (c : Char) (p : List Char → Bool) : List Char → Bool
  | [] => false
  | d :: cs => d = c && p cs

def enclosed (opener closer : Char) (p : List Char → Bool) : List Char → Bool :=
  after opener (join p (after closer List.isEmpty))

def derives : ℕ → Part → List Char → Bool
  | 0, _, _ => false
  | n + 1, .value, cs =>
    cs ∈ literals || isNumber cs || enclosed '"' '"' isStringBody cs ||
      enclosed '[' ']' (fun es => es.all isBlank || derives n .elements es) cs ||
      enclosed '\x7b' '\x7d' (fun ms => ms.all isBlank || derives n .members ms) cs
  | n + 1, .text, cs =>
    join (fun a => a.all isBlank) (join (derives n .value) fun b => b.all isBlank) cs
  | n + 1, .elements, cs =>
    derives n .text cs || join (derives n .text) (after ',' (derives n .elements)) cs
  | n + 1, .member, cs =>
    join (fun a => a.all isBlank) (after '"' (join isStringBody (after '"'
      (join (fun b => b.all isBlank) (after ':' (derives n .text)))))) cs
  | n + 1, .members, cs =>
    derives n .member cs || join (derives n .member) (after ',' (derives n .members)) cs

theorem join_iff {p q : List Char → Bool} {cs : List Char} :
    join p q cs ↔ ∃ a b, cs = a ++ b ∧ p a ∧ q b := by
  simp only [join, List.any_eq_true, List.mem_range, Bool.and_eq_true]
  constructor
  · rintro ⟨i, -, hp, hq⟩
    exact ⟨_, _, (List.take_append_drop i cs).symm, hp, hq⟩
  · rintro ⟨a, b, rfl, hp, hq⟩
    refine ⟨a.length, ?_, ?_, ?_⟩
    · rw [List.length_append]
      omega
    · rwa [List.take_left]
    · rwa [List.drop_left]

theorem after_iff {c : Char} {p : List Char → Bool} {cs : List Char} :
    after c p cs ↔ ∃ ds, cs = c :: ds ∧ p ds := by
  cases cs with
  | nil => simp [after]
  | cons d cs => simp [after]

theorem enclosed_iff {opener closer : Char} {p : List Char → Bool} {cs : List Char} :
    enclosed opener closer p cs ↔ ∃ body, cs = opener :: (body ++ [closer]) ∧ p body := by
  simp only [enclosed, after_iff, join_iff]
  constructor
  · rintro ⟨-, rfl, body, -, rfl, hp, ds, rfl, hds⟩
    rw [List.isEmpty_iff.mp hds]
    exact ⟨body, rfl, hp⟩
  · rintro ⟨body, rfl, hp⟩
    exact ⟨_, rfl, body, _, rfl, hp, [], rfl, rfl⟩

theorem json_of_derives {n : ℕ} {part : Part} {cs : List Char} (h : derives n part cs) :
    Json part cs := by
  induction n generalizing part cs with
  | zero => cases h
  | succ n ih =>
    cases part with
    | value =>
      simp only [derives, Bool.or_eq_true, enclosed_iff, decide_eq_true_eq] at h
      rcases h with (((h | h) | ⟨body, rfl, h⟩) | ⟨body, rfl, h | h⟩) | ⟨body, rfl, h | h⟩
      · exact .literal h
      · exact .number h
      · exact .string h
      · exact .emptyArray h
      · exact .array (ih h)
      · exact .emptyObject h
      · exact .object (ih h)
    | text =>
      simp only [derives, join_iff] at h
      obtain ⟨a, -, rfl, ha, v, b, rfl, hv, hb⟩ := h
      exact .text ha (ih hv) hb
    | elements =>
      simp only [derives, Bool.or_eq_true, join_iff, after_iff] at h
      rcases h with h | ⟨v, -, rfl, hv, es, rfl, hes⟩
      · exact .lastElement (ih h)
      · exact .element (ih hv) (ih hes)
    | member =>
      simp only [derives, join_iff, after_iff] at h
      obtain ⟨a, -, rfl, ha, -, rfl, key, -, rfl, hkey, -, rfl, b, -, rfl, hb, v, rfl, hv⟩ := h
      exact .member ha hkey hb (ih hv)
    | members =>
      simp only [derives, Bool.or_eq_true, join_iff, after_iff] at h
      rcases h with h | ⟨m, -, rfl, hm, ms, rfl, hms⟩
      · exact .lastMember (ih h)
      · exact .members (ih hm) (ih hms)

/-- How many parts of the same text a part may go through. -/
def Part.rank : Part → ℕ
  | value => 0
  | text => 1
  | elements => 2
  | member => 2
  | members => 3

theorem derives_of_json {part : Part} {cs : List Char} {n : ℕ} (h : Json part cs)
    (hn : part.rank + 4 * cs.length < n) : derives n part cs := by
  induction n generalizing part cs with
  | zero => omega
  | succ n ih =>
    cases h with
    | literal h => simp [derives, h]
    | number h => simp [derives, h]
    | string h =>
      simp only [derives, Bool.or_eq_true, enclosed_iff]
      exact .inl (.inl (.inr ⟨_, rfl, h⟩))
    | emptyArray h =>
      simp only [derives, Bool.or_eq_true, enclosed_iff]
      exact .inl (.inr ⟨_, rfl, .inl h⟩)
    | array h =>
      simp only [Part.rank, List.length_cons, List.length_append, List.length_nil] at hn
      simp only [derives, Bool.or_eq_true, enclosed_iff]
      exact .inl (.inr ⟨_, rfl, .inr (ih h (by simp only [Part.rank]; omega))⟩)
    | emptyObject h =>
      simp only [derives, Bool.or_eq_true, enclosed_iff]
      exact .inr ⟨_, rfl, .inl h⟩
    | object h =>
      simp only [Part.rank, List.length_cons, List.length_append, List.length_nil] at hn
      simp only [derives, Bool.or_eq_true, enclosed_iff]
      exact .inr ⟨_, rfl, .inr (ih h (by simp only [Part.rank]; omega))⟩
    | text ha hv hb =>
      simp only [Part.rank, List.length_append] at hn
      simp only [derives, join_iff]
      exact ⟨_, _, rfl, ha, _, _, rfl, ih hv (by simp only [Part.rank]; omega), hb⟩
    | lastElement hv =>
      simp only [Part.rank] at hn
      simp only [derives, Bool.or_eq_true]
      exact .inl (ih hv (by simp only [Part.rank]; omega))
    | element hv hes =>
      simp only [Part.rank, List.length_append, List.length_cons] at hn
      simp only [derives, Bool.or_eq_true, join_iff, after_iff]
      exact .inr ⟨_, _, rfl, ih hv (by simp only [Part.rank]; omega), _, rfl,
        ih hes (by simp only [Part.rank]; omega)⟩
    | member ha hkey hb hv =>
      simp only [Part.rank, List.length_append, List.length_cons] at hn
      simp only [derives, join_iff, after_iff]
      exact ⟨_, _, rfl, ha, _, rfl, _, _, rfl, hkey, _, rfl, _, _, rfl, hb, _, rfl,
        ih hv (by simp only [Part.rank]; omega)⟩
    | lastMember hm =>
      simp only [Part.rank] at hn
      simp only [derives, Bool.or_eq_true]
      exact .inl (ih hm (by simp only [Part.rank]; omega))
    | members hm hms =>
      simp only [Part.rank, List.length_append, List.length_cons] at hn
      simp only [derives, Bool.or_eq_true, join_iff, after_iff]
      exact .inr ⟨_, _, rfl, ih hm (by simp only [Part.rank]; omega), _, rfl,
        ih hms (by simp only [Part.rank]; omega)⟩

theorem derives_iff {part : Part} {cs : List Char} :
    derives (part.rank + 4 * cs.length + 1) part cs ↔ Json part cs :=
  ⟨json_of_derives, fun h => derives_of_json h (Nat.lt_succ_self _)⟩

instance (part : Part) (cs : List Char) : Decidable (Json part cs) :=
  decidable_of_iff _ derives_iff

example : Json .text "\x7b\"a\": [1]\x7d".toList := by decide +kernel

end Decide

end Workbench.JsonTexts
