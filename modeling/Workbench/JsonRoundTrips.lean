import Workbench.JsonCodec

namespace Workbench.JsonCodec

open JsonTexts PyJson

section Strings

theorem isHigh_toNat (c : Char) : isHigh c.toNat = false := by
  have hvalid : c.toNat < 0xd800 ∨ 0xdfff < c.toNat ∧ c.toNat < 0x110000 := c.valid
  simp only [isHigh, Bool.and_eq_false_iff, decide_eq_false_iff_not]
  omega

theorem joinUnits_toNat (cs : List Char) : joinUnits (cs.map Char.toNat) = cs := by
  induction cs with
  | nil => rfl
  | cons c cs ih =>
    cases cs with
    | nil => simp [joinUnits]
    | cons d cs =>
      rw [List.map_cons, List.map_cons, joinUnits, isHigh_toNat, Bool.false_and, if_neg Bool.false_ne_true,
        ← List.map_cons, ih, Char.ofNat_toNat]

theorem hexUnit_control : ∀ n < 32,
    hexUnit '0' '0' (Nat.digitChar (n / 16)) (Nat.digitChar (n % 16)) = some n := by
  decide +kernel

theorem scanUnits_plain {c : Char} (hquote : c ≠ '"') (hslash : c ≠ '\\') (hc : ¬ c.toNat < 32)
    (rest : List Char) :
    scanUnits (c :: rest) = (scanUnits rest).map fun p => (c.toNat :: p.1, p.2) := by
  rw [scanUnits]
  · simp [hslash, hc]
  · exact hquote
  · rintro a b d e tail rfl
    exact absurd rfl hslash
  · rintro e tail rfl
    exact absurd rfl hslash

theorem scanUnits_escape (c : Char) (rest : List Char) :
    scanUnits (escape c ++ rest) = (scanUnits rest).map fun p => (c.toNat :: p.1, p.2) := by
  unfold escape
  split_ifs with h1 h2 h3 h4 h5 h6 h7 h8
  · subst h1
    rfl
  · subst h2
    rfl
  · subst h3
    rfl
  · subst h4
    rfl
  · subst h5
    rfl
  · subst h6
    rfl
  · subst h7
    rfl
  · simp only [List.cons_append, List.nil_append]
    rw [scanUnits, hexUnit_control c.toNat h8]
    rfl
  · exact scanUnits_plain h1 h2 h8 rest

theorem scanUnits_flatMap (cs rest : List Char) :
    scanUnits (cs.flatMap escape ++ '"' :: rest) = some (cs.map Char.toNat, rest) := by
  induction cs with
  | nil => rfl
  | cons c cs ih =>
    rw [List.flatMap_cons, List.append_assoc, scanUnits_escape, ih]
    rfl

theorem scanString_quote (s : String) (rest : List Char) :
    scanString (s.toList.flatMap escape ++ '"' :: rest) = .ok (s, rest) := by
  rw [scanString, scanUnits_flatMap]
  simp only [joinUnits_toNat, String.ofList_toList]

end Strings

section Numbers

def Ends (rest : List Char) : Prop :=
  ∀ c ∈ rest.head?, isDigit c = false ∧ c ≠ '.' ∧ c ≠ 'e' ∧ c ≠ 'E'

def isMark (c : Char) : Bool := c = '.' || c = 'e' || c = 'E'

theorem takeWhile_ends {p : Char → Bool} {cs rest : List Char} (hrest : ∀ c ∈ rest.head?, p c = false)
    (h : cs.all p) : (cs ++ rest).takeWhile p = cs ∧ (cs ++ rest).dropWhile p = rest := by
  have hall : ∀ c ∈ cs, p c = true := List.all_eq_true.mp h
  rw [List.takeWhile_append_of_pos hall, List.dropWhile_append_of_pos hall]
  cases rest with
  | nil => simp
  | cons c rest =>
    have hc : p c = false := hrest c rfl
    simp [hc]

theorem scanSign_eq (cs : List Char) : (scanSign cs).1 ++ (scanSign cs).2 = cs := by
  unfold scanSign
  split <;> rfl

theorem scanSign_append {cs : List Char} (h : cs ≠ []) (rest : List Char) :
    scanSign (cs ++ rest) = ((scanSign cs).1, (scanSign cs).2 ++ rest) := by
  obtain ⟨c, cs, rfl⟩ := List.exists_cons_of_ne_nil h
  by_cases hplus : c = '+'
  · subst hplus
    rfl
  · by_cases hminus : c = '-'
    · subst hminus
      rfl
    · simp [scanSign, hplus, hminus]

theorem isExponent_cons (e : Char) (cs : List Char) : isExponent (e :: cs) =
    ((e = 'e' || e = 'E') && (scanSign cs).2 ≠ [] && (scanSign cs).2.all isDigit) := by
  cases cs with
  | nil => rfl
  | cons c cs =>
    by_cases hplus : c = '+'
    · subst hplus
      rfl
    · by_cases hminus : c = '-'
      · subst hminus
        rfl
      · simp [isExponent, scanSign, hplus, hminus]

theorem scanExponent_append {w rest : List Char} (hw : isExponent w) (h : Ends rest) :
    scanExponent (w ++ rest) = (w, rest) := by
  cases w with
  | nil =>
    cases rest with
    | nil => rfl
    | cons c rest =>
      obtain ⟨-, -, he, hE⟩ := h c rfl
      simp [scanExponent, he, hE]
  | cons e cs =>
    rw [isExponent_cons] at hw
    simp only [Bool.and_eq_true, decide_eq_true_eq] at hw
    obtain ⟨⟨he, hne⟩, hall⟩ := hw
    have hcs : cs ≠ [] := by
      rintro rfl
      exact hne rfl
    have hdigits := takeWhile_ends (fun c hc => (h c hc).1) hall
    simp only [List.cons_append, scanExponent, scanSign_append hcs, hdigits.1, hdigits.2, he, hne,
      Bool.true_and, ne_eq, not_false_eq_true, decide_true, ↓reduceIte, scanSign_eq]

theorem head_exponent {e rest : List Char} (he : isExponent e) (h : Ends rest) :
    ∀ c ∈ (e ++ rest).head?, isDigit c = false ∧ c ≠ '.' := by
  intro c hc
  cases e with
  | nil => exact ⟨(h c hc).1, (h c hc).2.1⟩
  | cons d e =>
    cases hc
    rw [isExponent_cons] at he
    simp only [Bool.and_eq_true, Bool.or_eq_true, decide_eq_true_eq] at he
    obtain ⟨⟨rfl | rfl, -⟩, -⟩ := he
    · exact ⟨rfl, by decide⟩
    · exact ⟨rfl, by decide⟩

theorem scanFraction_append {w rest : List Char} (hw : isFraction w) (h : Ends rest) :
    ∃ e, isExponent e ∧ (scanFraction (w ++ rest)).1 ++ e = w ∧ (scanFraction (w ++ rest)).2 = e ++ rest := by
  by_cases hpoint : ∃ cs, w = '.' :: cs
  · obtain ⟨cs, rfl⟩ := hpoint
    simp only [isFraction, Bool.and_eq_true, decide_eq_true_eq] at hw
    obtain ⟨hne, he⟩ := hw
    have hall : (cs.takeWhile isDigit).all isDigit := List.all_eq_true.mpr fun c hc => List.mem_takeWhile_imp hc
    have hdigits := takeWhile_ends (fun c hc => (head_exponent he h c hc).1) hall
    rw [← List.append_assoc, List.takeWhile_append_dropWhile] at hdigits
    refine ⟨cs.dropWhile isDigit, he, ?_, ?_⟩
    · simp only [List.cons_append, scanFraction, hdigits.1, if_neg hne, List.takeWhile_append_dropWhile]
    · simp only [List.cons_append, scanFraction, hdigits.1, hdigits.2, if_neg hne]
  · have he : isExponent w := by
      unfold isFraction at hw
      split at hw
      · exact absurd ⟨_, rfl⟩ hpoint
      · exact hw
    have hscan : scanFraction (w ++ rest) = ([], w ++ rest) := by
      unfold scanFraction
      split
      · rename_i cs hcs
        exact absurd rfl (head_exponent he h '.' (by rw [hcs]; rfl)).2
      · rfl
    rw [hscan]
    exact ⟨w, he, rfl, rfl⟩

theorem scanNumber_append (floats : FloatTexts) {whole w rest : List Char}
    (hwhole : scanInt (whole ++ (w ++ rest)) = some (whole, w ++ rest)) (hw : isFraction w) (h : Ends rest) :
    scanNumber floats (whole ++ (w ++ rest)) =
      if w = [] then (readInt whole).map fun n => (.int n, rest)
      else .ok (.float (floats.read (whole ++ w)), rest) := by
  obtain ⟨e, he, hsplit, hrest⟩ := scanFraction_append hw h
  have hempty : ((scanFraction (w ++ rest)).1 = [] ∧ e = []) ↔ w = [] := by
    rw [← List.append_eq_nil_iff, hsplit]
  simp only [scanNumber, hwhole, hrest, scanExponent_append he h, hempty, hsplit]

theorem head_fraction {w rest : List Char} (hw : isFraction w) (h : Ends rest) :
    ∀ c ∈ (w ++ rest).head?, isDigit c = false := by
  intro c hc
  unfold isFraction at hw
  split at hw
  · cases hc
    rfl
  · exact (head_exponent hw h c hc).1

theorem fraction_mark {w : List Char} (hw : isFraction w) (hne : w ≠ []) : w.any isMark := by
  obtain ⟨c, cs, rfl⟩ := List.exists_cons_of_ne_nil hne
  rw [List.any_cons, Bool.or_eq_true]
  left
  by_cases hpoint : c = '.'
  · subst hpoint
    rfl
  · have he : isExponent (c :: cs) := by
      unfold isFraction at hw
      split at hw
      · rename_i h
        cases h
        exact absurd rfl hpoint
      · exact hw
    rw [isExponent_cons] at he
    simp only [Bool.and_eq_true, Bool.or_eq_true, decide_eq_true_eq] at he
    obtain ⟨⟨rfl | rfl, -⟩, -⟩ := he <;> rfl

theorem not_isMark {c : Char} (h : isDigit c) : isMark c = false := by
  simp only [isMark, Bool.or_eq_false_iff, decide_eq_false_iff_not]
  refine ⟨⟨?_, ?_⟩, ?_⟩
  · rintro rfl
    cases h
  · rintro rfl
    cases h
  · rintro rfl
    cases h

theorem unmarked_digits {ds : List Char} (h : ds.all isDigit) : ds.any isMark = false := by
  rw [List.any_eq_false]
  intro c hc
  rw [not_isMark (List.all_eq_true.mp h c hc)]
  exact Bool.false_ne_true

structure Whole (whole w : List Char) : Prop where
  fraction : isFraction w
  unmarked : whole.any isMark = false
  scan : ∀ rest, Ends rest → scanInt (whole ++ (w ++ rest)) = some (whole, w ++ rest)

theorem unsigned_whole {cs : List Char} (h : isUnsigned cs) : ∃ whole w, cs = whole ++ w ∧ isFraction w ∧
    whole.all isDigit ∧ whole ≠ [] ∧
      ∀ rest, Ends rest → scanNat (whole ++ (w ++ rest)) = some (whole, w ++ rest) := by
  cases cs with
  | nil => cases h
  | cons c cs =>
    by_cases hzero : c = '0'
    · subst hzero
      exact ⟨['0'], cs, rfl, h, rfl, List.cons_ne_nil _ _, fun rest _ => rfl⟩
    · rw [isUnsigned] at h
      · simp only [Bool.and_eq_true] at h
        obtain ⟨hc, hw⟩ := h
        have hall : (cs.takeWhile isDigit).all isDigit :=
          List.all_eq_true.mpr fun c hc => List.mem_takeWhile_imp hc
        refine ⟨c :: cs.takeWhile isDigit, cs.dropWhile isDigit, ?_, hw, ?_, List.cons_ne_nil _ _, ?_⟩
        · rw [List.cons_append, List.takeWhile_append_dropWhile]
        · rw [List.all_cons, hc, hall]
          rfl
        · intro rest hrest
          obtain ⟨htake, hdrop⟩ := takeWhile_ends (head_fraction hw hrest) hall
          rw [List.cons_append, scanNat, if_pos hc, htake, hdrop]
          exact hzero
      · exact hzero

theorem number_whole {text : List Char} (h : isNumber text) : ∃ whole w, text = whole ++ w ∧ Whole whole w := by
  unfold isNumber at h
  split at h
  · obtain ⟨whole, w, rfl, hw, hall, -, hscan⟩ := unsigned_whole h
    refine ⟨'-' :: whole, w, rfl, hw, ?_, ?_⟩
    · rw [List.any_cons, unmarked_digits hall]
      rfl
    · intro rest hrest
      rw [List.cons_append, scanInt, hscan rest hrest]
      rfl
  · obtain ⟨whole, w, rfl, hw, hall, hne, hscan⟩ := unsigned_whole h
    refine ⟨whole, w, rfl, hw, unmarked_digits hall, ?_⟩
    intro rest hrest
    rw [scanInt]
    · exact hscan rest hrest
    · obtain ⟨c, cs, rfl⟩ := List.exists_cons_of_ne_nil hne
      rintro tail ⟨⟩
      cases hall

theorem scanNumber_numeral (floats : FloatTexts) {text rest : List Char} (htext : isNumber text)
    (h : Ends rest) : scanNumber floats (text ++ rest) =
      if text.any isMark then .ok (.float (floats.read text), rest)
      else (readInt text).map fun n => (.int n, rest) := by
  obtain ⟨whole, w, rfl, hwhole⟩ := number_whole htext
  rw [List.append_assoc, scanNumber_append floats (hwhole.scan rest h) hwhole.fraction h, List.any_append,
    hwhole.unmarked, Bool.false_or]
  by_cases hw : w = []
  · subst hw
    simp
  · rw [if_neg hw, if_pos (fraction_mark hwhole.fraction hw)]

theorem isDigit_of_isDigit {c : Char} (h : c.isDigit = true) : isDigit c := by
  simpa [Char.isDigit, isDigit, Char.le_def, UInt32.le_iff_toNat_le] using h

theorem natText_digits (n : ℕ) : (natText n).all isDigit := by
  rw [List.all_eq_true]
  intro c hc
  exact isDigit_of_isDigit (Nat.isDigit_of_mem_toDigits (by omega) (by omega) hc)

theorem head_natText {n : ℕ} (h : (natText n).head? = some '0') : n = 0 := by
  unfold natText at h
  induction n using Nat.strongRecOn with
  | ind n ih =>
    by_cases hlt : n < 10
    · rw [Nat.toDigits_of_lt_base hlt, List.head?_cons, Option.some.injEq] at h
      exact Nat.digitChar_eq_zero.mp h
    · rw [Nat.toDigits_of_base_le (by omega) (by omega),
        List.head?_append_of_ne_nil _ Nat.toDigits_ne_nil] at h
      have hzero := ih (n / 10) (by omega) h
      omega

theorem isUnsigned_natText (n : ℕ) : isUnsigned (natText n) := by
  by_cases hn : n = 0
  · subst hn
    rfl
  · obtain ⟨c, ds, hcons⟩ := List.exists_cons_of_ne_nil (Nat.toDigits_ne_nil (n := n) (b := 10))
    have hall := natText_digits n
    have hzero : c ≠ '0' := by
      rintro rfl
      apply hn
      apply head_natText
      rw [natText, hcons]
      rfl
    rw [natText, hcons] at hall ⊢
    rw [List.all_cons, Bool.and_eq_true] at hall
    rw [isUnsigned]
    · rw [hall.1, Bool.true_and, List.dropWhile_eq_nil_iff.mpr (List.all_eq_true.mp hall.2)]
      rfl
    · exact hzero

theorem isNumber_intText (n : ℤ) : isNumber (intText n) := by
  unfold intText
  split_ifs with hn
  · exact isUnsigned_natText n.natAbs
  · have h := isUnsigned_natText n.natAbs
    have hall := natText_digits n.natAbs
    generalize natText n.natAbs = text at h hall
    unfold isNumber
    split
    · cases hall
    · exact h

theorem readInt_intText {n : ℤ} (h : (natText n.natAbs).length ≤ PyIntegers.maxStrDigits) :
    readInt (intText n) = .ok n := by
  have hread : readNat (natText n.natAbs) = .ok n.natAbs := by
    rw [readNat, if_neg (Nat.not_lt.mpr h), natText, Nat.ofDigitChars_ten_toDigits]
  unfold intText
  split_ifs with hn
  · rw [readInt, hread]
    change Except.ok (-(n.natAbs : ℤ)) = _
    congr 1
    omega
  · rw [readInt, hread]
    · change Except.ok (n.natAbs : ℤ) = _
      congr 1
      omega
    · rintro ds hds
      have hall := natText_digits n.natAbs
      rw [hds] at hall
      cases hall

theorem unmarked_intText (n : ℤ) : (intText n).any isMark = false := by
  have hnat := unmarked_digits (natText_digits n.natAbs)
  unfold intText
  split_ifs
  · rw [List.any_cons, hnat]
    rfl
  · exact hnat

theorem scanNumber_intText (floats : FloatTexts) {n : ℤ} {rest : List Char}
    (h : (natText n.natAbs).length ≤ PyIntegers.maxStrDigits) (hrest : Ends rest) :
    scanNumber floats (intText n ++ rest) = .ok (.int n, rest) := by
  rw [scanNumber_numeral floats (isNumber_intText n) hrest, unmarked_intText, readInt_intText h]
  rfl

end Numbers

section Lists

variable {α : Type} {scan : List Char → Scanned α} {closer : Char} {text rest : List Char}

def Scans (scan : List Char → Scanned α) (text : List Char) (a : α) : Prop :=
  ∀ rest, Ends rest → scan (text ++ rest) = .ok (a, rest)

def Begins (closer : Char) (text : List Char) : Prop :=
  ∃ c cs, text = c :: cs ∧ isBlank c = false ∧ c ≠ closer

theorem skip_begins (h : Begins closer text) (rest : List Char) : skip (text ++ rest) = text ++ rest := by
  obtain ⟨c, cs, rfl, hblank, -⟩ := h
  rw [List.cons_append, skip, List.dropWhile_cons_of_neg (by rw [hblank]; exact Bool.false_ne_true)]

theorem skip_cons {c : Char} (h : isBlank c = false) (cs : List Char) : skip (c :: cs) = c :: cs := by
  rw [skip, List.dropWhile_cons_of_neg (by rw [h]; exact Bool.false_ne_true)]

theorem ends_cons {c : Char} (h : isDigit c = false ∧ isMark c = false) (cs : List Char) : Ends (c :: cs) := by
  rintro d ⟨⟩
  simp only [isMark, Bool.or_eq_false_iff, decide_eq_false_iff_not] at h
  exact ⟨h.1, h.2.1.1, h.2.1.2, h.2.2⟩

theorem joined_cons (text other : List Char) (texts : List (List Char)) :
    joined (text :: other :: texts) = text ++ ',' :: ' ' :: joined (other :: texts) := rfl

theorem begins_joined {texts : List (List Char)} (h : ∀ text ∈ texts, Begins closer text)
    (hne : texts ≠ []) : Begins closer (joined texts) := by
  obtain ⟨text, others, rfl⟩ := List.exists_cons_of_ne_nil hne
  obtain ⟨c, cs, rfl, hc⟩ := h text List.mem_cons_self
  cases others with
  | nil => exact ⟨c, cs, rfl, hc⟩
  | cons other others => exact ⟨c, cs ++ ',' :: ' ' :: joined (other :: others), rfl, hc⟩

structure Closes (closer : Char) : Prop where
  blank : isBlank closer = false
  comma : closer ≠ ','
  ends : isDigit closer = false ∧ isMark closer = false

theorem scanAll_joined (hcloser : Closes closer) {texts : List (List Char)} {as : List α}
    (h : List.Forall₂ (Scans scan) texts as) (hbegins : ∀ text ∈ texts, Begins closer text)
    (hne : texts ≠ []) {n : ℕ} (hn : texts.length ≤ n) (rest : List Char) :
    scanAll scan closer n (joined texts ++ closer :: rest) = .ok (as, rest) := by
  induction h generalizing n with
  | nil => exact absurd rfl hne
  | @cons text a texts as hscan htexts ih =>
    obtain ⟨n, rfl⟩ : ∃ m, n = m + 1 := ⟨n - 1, by simp only [List.length_cons] at hn; omega⟩
    cases htexts with
    | nil =>
      rw [joined, scanAll, hscan _ (ends_cons hcloser.ends rest)]
      simp only [Except.bind, skip_cons hcloser.blank, if_true]
    | @cons other b texts as hother htexts =>
      have hlater : ∀ text ∈ other :: texts, Begins closer text :=
        fun text ht => hbegins text (List.mem_cons_of_mem _ ht)
      have hrest := ih hlater (List.cons_ne_nil _ _) (Nat.le_of_succ_le_succ hn)
      have hskip : skip (' ' :: (joined (other :: texts) ++ closer :: rest)) =
          joined (other :: texts) ++ closer :: rest :=
        skip_begins (begins_joined hlater (List.cons_ne_nil _ _)) _
      rw [joined_cons, List.append_assoc, scanAll, List.cons_append, List.cons_append,
        hscan _ (ends_cons ⟨rfl, rfl⟩ _)]
      simp only [Except.bind, skip_cons (c := ',') rfl, hcloser.comma.symm, if_false, if_true, hskip, hrest]
      rfl

theorem length_joined (texts : List (List Char)) : texts.length ≤ (joined texts).length + 1 := by
  induction texts with
  | nil => exact Nat.zero_le _
  | cons text texts ih =>
    cases texts with
    | nil => exact Nat.le_add_left _ _
    | cons other texts =>
      simp only [joined_cons, List.length_append, List.length_cons] at ih ⊢
      omega

theorem scanBody_joined (hcloser : Closes closer) {texts : List (List Char)} {as : List α}
    (h : List.Forall₂ (Scans scan) texts as) (hbegins : ∀ text ∈ texts, Begins closer text)
    (rest : List Char) : scanBody scan closer (joined texts ++ closer :: rest) = .ok (as, rest) := by
  by_cases hne : texts = []
  · subst hne
    cases h
    rw [scanBody, joined, List.nil_append, skip_cons hcloser.blank]
    simp
  · have hjoined := begins_joined hbegins hne
    rw [scanBody, skip_begins hjoined, if_neg]
    · apply scanAll_joined hcloser h hbegins hne
      have hlength := length_joined texts
      simp only [List.length_append, List.length_cons]
      omega
    · obtain ⟨c, cs, hcs, -, hc⟩ := hjoined
      rw [hcs, List.cons_append, List.head?_cons]
      exact fun h => hc (Option.some.inj h)

end Lists

section Values

variable {floats : FloatTexts} {text rest : List Char}

def specials : List (List Char) :=
  [['N', 'a', 'N'], ['I', 'n', 'f', 'i', 'n', 'i', 't', 'y'], ['-', 'I', 'n', 'f', 'i', 'n', 'i', 't', 'y']]

/-- The float is written as a numeral with a mark, and read back as itself. -/
def ReadBack (floats : FloatTexts) : Option ℚ → Prop
  | none => floats.repr none ∈ specials
  | some q => isNumber (floats.repr (some q)) ∧ (floats.repr (some q)).any isMark ∧
      floats.read (floats.repr (some q)) = some q

inductive Legible (floats : FloatTexts) : Json → Prop
  | null : Legible floats .null
  | bool (value : Bool) : Legible floats (.bool value)
  | int (value : ℤ) : Legible floats (.int value)
  | float (value : Option ℚ) (h : ReadBack floats value) : Legible floats (.float value)
  | str (value : String) : Legible floats (.str value)
  | list (items : List Json) (h : ∀ v ∈ items, Legible floats v) : Legible floats (.list items)
  | dict (fields : Dict) (hkeys : (fields.map Prod.fst).Nodup)
      (h : ∀ f ∈ fields, Legible floats f.2) : Legible floats (.dict fields)

theorem scanAtom_number {c : Char} {cs : List Char}
    (h : isDigit c ∨ c = '-' ∧ ∀ d ∈ cs.head?, isDigit d) :
    scanAtom floats (c :: cs) = scanNumber floats (c :: cs) := by
  rcases h with h | ⟨rfl, h⟩
  · rw [scanAtom]
    all_goals
      rintro tail ⟨⟩
      cases h
  · rw [scanAtom]
    · rintro tail ⟨⟩
    · rintro tail ⟨⟩
    · rintro tail ⟨⟩
    · rintro tail ⟨⟩
    · rintro tail ⟨⟩
    · rintro tail ⟨⟩
    · rintro tail ⟨⟩
      cases h 'I' rfl

theorem head_unsigned (h : isUnsigned text) : ∃ c cs, text = c :: cs ∧ isDigit c := by
  obtain ⟨whole, w, rfl, -, hall, hne, -⟩ := unsigned_whole h
  obtain ⟨c, cs, rfl⟩ := List.exists_cons_of_ne_nil hne
  rw [List.all_cons, Bool.and_eq_true] at hall
  exact ⟨c, cs ++ w, rfl, hall.1⟩

theorem scanAtom_numeral (h : isNumber text) (rest : List Char) :
    scanAtom floats (text ++ rest) = scanNumber floats (text ++ rest) := by
  unfold isNumber at h
  split at h
  · obtain ⟨c, cs, rfl, hc⟩ := head_unsigned h
    apply scanAtom_number
    right
    refine ⟨rfl, ?_⟩
    rintro d ⟨⟩
    exact hc
  · obtain ⟨c, cs, rfl, hc⟩ := head_unsigned h
    exact scanAtom_number (.inl hc)

theorem scanOnce_atom {room : ℕ} {c : Char} {cs : List Char} (hlist : c ≠ '[') (hdict : c ≠ '\x7b') :
    scanOnce floats room (c :: cs) = scanAtom floats (c :: cs) := by
  rw [scanOnce]
  · rintro tail - ⟨⟩
    exact hlist rfl
  · rintro tail - ⟨⟩
    exact hdict rfl
  · rintro r tail - ⟨⟩
    exact hlist rfl
  · rintro r tail - ⟨⟩
    exact hdict rfl

theorem scanOnce_numeral {room : ℕ} (h : isNumber text) (rest : List Char) :
    scanOnce floats room (text ++ rest) = scanNumber floats (text ++ rest) := by
  rw [← scanAtom_numeral h]
  have hhead : ∃ c cs, text = c :: cs ∧ c ≠ '[' ∧ c ≠ '\x7b' := by
    unfold isNumber at h
    split at h
    · exact ⟨_, _, rfl, by decide, by decide⟩
    · obtain ⟨c, cs, rfl, hc⟩ := head_unsigned h
      refine ⟨c, cs, rfl, ?_, ?_⟩
      · rintro rfl
        cases hc
      · rintro rfl
        cases hc
  obtain ⟨c, cs, rfl, hlist, hdict⟩ := hhead
  exact scanOnce_atom hlist hdict

theorem begins_of_scanOnce {room : ℕ} {p : Json × List Char} (h : scanOnce floats room text = .ok p) :
    Begins ']' text := by
  cases text with
  | nil =>
    rw [scanOnce] at h
    · cases h
    all_goals
      intros
      contradiction
  | cons c cs =>
    have hno : ∀ d ∈ [' ', '\t', '\n', '\r', ']'], c ≠ d := by
      rintro d hd rfl
      simp only [List.mem_cons, List.not_mem_nil, or_false] at hd
      rcases hd with rfl | rfl | rfl | rfl | rfl
      all_goals
        rw [scanOnce_atom (by decide) (by decide)] at h
        cases h
    refine ⟨c, cs, rfl, ?_, hno ']' (by decide)⟩
    simp only [isBlank, Bool.or_eq_false_iff, decide_eq_false_iff_not]
    exact ⟨⟨⟨hno ' ' (by decide), hno '\t' (by decide)⟩, hno '\n' (by decide)⟩, hno '\r' (by decide)⟩

theorem put_new {fields : Dict} {f : String × Json} (h : f.1 ∉ fields.map Prod.fst) :
    put fields f = fields ++ [f] := by
  have hnone : field fields f.1 = none := by
    rw [field, List.lookup_eq_none_iff]
    intro g hg
    rw [bne_iff_ne]
    intro heq
    exact h (List.mem_map.mpr ⟨g, hg, heq.symm⟩)
  rw [put, hnone]
  rfl

theorem foldl_put {done fields : Dict} (h : ((done ++ fields).map Prod.fst).Nodup) :
    fields.foldl put done = done ++ fields := by
  induction fields generalizing done with
  | nil => exact (List.append_nil done).symm
  | cons f fields ih =>
    have hnew : f.1 ∉ done.map Prod.fst := by
      rw [List.map_append, List.nodup_append] at h
      exact fun hmem => h.2.2 f.1 hmem f.1 List.mem_cons_self rfl
    rw [List.append_cons] at h
    rw [List.foldl_cons, put_new hnew, ih h, List.append_assoc]
    rfl

theorem encodeItems_eq (room : ℕ) (items : List Json) :
    encodeItems floats room items = items.mapM (encode floats room) := by
  induction items with
  | nil => rfl
  | cons v items ih =>
    rw [encodeItems, ih, List.mapM_cons]
    rfl

def encodeField (floats : FloatTexts) (room : ℕ) (f : String × Json) : Except PyError (List Char) :=
  (encode floats room f.2).map fun text => quote f.1.toList ++ ':' :: ' ' :: text

theorem encodeFields_eq (room : ℕ) (fields : Dict) :
    encodeFields floats room fields = fields.mapM (encodeField floats room) := by
  induction fields with
  | nil => rfl
  | cons f fields ih =>
    rw [encodeFields, ih, List.mapM_cons, encodeField]
    cases encode floats room f.2 with
    | error e => rfl
    | ok text => rfl

theorem scans_member {scan : List Char → Scanned Json} {v : Json} (h : Scans scan text v)
    (hbegins : Begins ']' text) (key : String) :
    Scans (scanMember scan) (quote key.toList ++ ':' :: ' ' :: text) (key, v) := by
  intro rest hrest
  have hskip : skip (' ' :: (text ++ rest)) = text ++ rest := skip_begins hbegins rest
  rw [quote, List.cons_append, List.cons_append, scanMember, List.append_assoc, List.append_assoc,
    List.singleton_append, List.cons_append, scanString_quote]
  simp only [Except.bind, skip_cons (c := ':') rfl, List.cons_append, hskip, h rest hrest]
  rfl

theorem closes_bracket : Closes ']' := ⟨rfl, by decide, rfl, rfl⟩

theorem closes_brace : Closes '\x7d' := ⟨rfl, by decide, rfl, rfl⟩

theorem Scans.begins {room : ℕ} {v : Json} (h : Scans (scanOnce floats room) text v) : Begins ']' text := by
  have hends : Ends [] := fun c hc => by cases hc
  have hscan := h [] hends
  rw [List.append_nil] at hscan
  exact begins_of_scanOnce hscan

theorem scans_encode {v : Json} (hv : Legible floats v) {room room' : ℕ} {cs : List Char}
    (h : encode floats room v = .ok cs) (hroom : room ≤ room') : Scans (scanOnce floats room') cs v := by
  induction hv generalizing room room' cs with
  | null =>
    cases h
    intro rest _
    exact scanOnce_atom (by decide) (by decide)
  | bool value =>
    cases value with
    | false =>
      cases h
      intro rest _
      exact scanOnce_atom (by decide) (by decide)
    | true =>
      cases h
      intro rest _
      exact scanOnce_atom (by decide) (by decide)
  | int value =>
    rw [encode] at h
    split_ifs at h with hlong
    cases h
    intro rest hrest
    rw [scanOnce_numeral (isNumber_intText value)]
    exact scanNumber_intText floats (Nat.le_of_not_lt hlong) hrest
  | float value hread =>
    cases h
    intro rest hrest
    cases value with
    | none =>
      simp only [ReadBack, specials, List.mem_cons, List.not_mem_nil, or_false] at hread
      rcases hread with heq | heq | heq
      all_goals
        rw [heq]
        exact scanOnce_atom (by decide) (by decide)
    | some q =>
      obtain ⟨hnumber, hmark, hq⟩ := hread
      rw [scanOnce_numeral hnumber, scanNumber_numeral floats hnumber hrest, if_pos hmark, hq]
  | str value =>
    cases h
    intro rest _
    rw [quote, List.cons_append, scanOnce_atom (by decide) (by decide), scanAtom, List.append_assoc,
      List.singleton_append, scanString_quote]
    rfl
  | list items _ ih =>
    cases room with
    | zero => cases h
    | succ room =>
      obtain ⟨r, rfl⟩ : ∃ r, room' = r + 1 := ⟨room' - 1, by omega⟩
      simp only [encode, map_eq_ok] at h
      obtain ⟨texts, htexts, rfl⟩ := h
      rw [encodeItems_eq, mapM_eq_ok] at htexts
      have hscans : List.Forall₂ (Scans (scanOnce floats r)) texts items := by
        apply List.Forall₂.flip
        have hall := (List.forall₂_and_left _ _).mpr ⟨ih, htexts⟩
        apply hall.imp
        rintro v text ⟨hscan, htext⟩
        exact hscan htext (by omega)
      have hbegins : ∀ text ∈ texts, Begins ']' text := by
        intro text htext
        obtain ⟨v, -, hscan⟩ := forall₂_right hscans.flip text htext
        exact Scans.begins hscan
      intro rest _
      rw [List.cons_append, List.append_assoc, List.singleton_append, scanOnce, scanArray,
        scanBody_joined closes_bracket hscans hbegins]
      rfl
  | dict fields hkeys _ ih =>
    cases room with
    | zero => cases h
    | succ room =>
      obtain ⟨r, rfl⟩ : ∃ r, room' = r + 1 := ⟨room' - 1, by omega⟩
      simp only [encode, map_eq_ok] at h
      obtain ⟨texts, htexts, rfl⟩ := h
      rw [encodeFields_eq, mapM_eq_ok] at htexts
      have hscans : List.Forall₂ (Scans (scanMember (scanOnce floats r))) texts fields := by
        apply List.Forall₂.flip
        have hall := (List.forall₂_and_left _ _).mpr ⟨ih, htexts⟩
        apply hall.imp
        rintro f text ⟨hscan, htext⟩
        obtain ⟨value, hvalue, rfl⟩ := map_eq_ok.mp htext
        have hf := hscan hvalue (show room ≤ r by omega)
        exact scans_member hf hf.begins f.1
      have hbegins : ∀ text ∈ texts, Begins '\x7d' text := by
        intro text htext
        obtain ⟨f, -, hf⟩ := forall₂_right htexts text htext
        obtain ⟨value, -, rfl⟩ := map_eq_ok.mp hf
        exact ⟨'"', _, rfl, rfl, by decide⟩
      intro rest _
      rw [List.cons_append, List.append_assoc, List.singleton_append, scanOnce, scanObject,
        scanBody_joined closes_brace hscans hbegins]
      have hput : fields.foldl put [] = fields := foldl_put hkeys
      change Except.ok (Json.dict (fields.foldl put []), rest) = _
      rw [hput]

theorem loads_encode {v : Json} (hv : Legible floats v) {room room' : ℕ} {cs : List Char}
    (h : encode floats room v = .ok cs) (hroom : room ≤ room') : loads floats room' cs = .ok v := by
  have hscan := scans_encode hv h hroom
  have hskip := skip_begins hscan.begins []
  have hends : Ends [] := fun c hc => by cases hc
  have htext := hscan [] hends
  rw [List.append_nil] at hskip htext
  rw [loads, hskip, htext]
  rfl

end Values

end Workbench.JsonCodec
