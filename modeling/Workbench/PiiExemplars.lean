import Workbench.CompliancePolicy
import Workbench.RegexSpans
import Mathlib.Data.List.Forall2

namespace Workbench.Compliance

open PyJson Regexes

/-- What Python's classes are on ASCII, and that a decimal is a digit. -/
structure PyUnicode extends PyChars where
  isWord_ascii : ∀ c, c.toNat < 128 → isWord c = (c.isAlphanum || c = '_')
  isDigit_ascii : ∀ c, c.toNat < 128 → isDigit c = c.isDigit
  decimal_ascii : ∀ c, c.isDigit → decimal c = some (c.toNat - 48)
  isDigit_decimal : ∀ c, (decimal c).isSome → isDigit c
  decimal_lt : ∀ c d, decimal c = some d → d < 10

section Kept

variable (py : PyChars)

def keptOf (text : List Char) :
    List PiiType → List Span → Except PyError (List (PiiType × List (Match Char)))
  | [], _ => .ok []
  | t :: ts, seen =>
    (keepMatches py t (findIter py.isWord (pattern py t) text) seen).bind fun kept =>
      (keptOf text ts kept.2).map fun rest => (t, kept.1) :: rest

def exemplar (kept : PiiType × List (Match Char)) : Option (PiiType × Match Char) :=
  kept.2.head?.map fun m => (kept.1, m)

def exemplars (text : String) : List (PiiType × Match Char) :=
  match keptOf py text.toList piiTypes [] with
  | .ok kept => kept.filterMap exemplar
  | .error _ => []

def Shows (finding : PiiFinding) (e : PiiType × Match Char) : Prop :=
  finding.type = e.1 ∧ maskOf py e.2.group = .ok finding.maskedExample

variable {py}

theorem keepMatches_cons {t : PiiType} {m : Match Char} {ms kept : List (Match Char)}
    {seen claims : List Span} (h : keepMatches py t (m :: ms) seen = .ok (kept, claims)) :
    ((claimed seen m ∨ t = .creditCard ∧ luhnOk py m.group = .ok false) ∧
        keepMatches py t ms seen = .ok (kept, claims)) ∨
      ∃ later, kept = m :: later ∧ claimed seen m = false ∧
        (t = .creditCard → luhnOk py m.group = .ok true) ∧
        keepMatches py t ms (seen ++ [(m.start, m.stop)]) = .ok (later, claims) := by
  unfold keepMatches at h
  by_cases hclaimed : claimed seen m
  · rw [if_pos hclaimed] at h
    exact .inl ⟨.inl hclaimed, h⟩
  rw [if_neg hclaimed] at h
  have hfree : claimed seen m = false := by simpa using hclaimed
  obtain ⟨ok, hok, h⟩ := bind_eq_ok.mp h
  cases ok with
  | false =>
    by_cases ht : t = .creditCard
    · rw [if_pos ht] at hok
      exact .inl ⟨.inr ⟨ht, hok⟩, h⟩
    · rw [if_neg ht] at hok
      cases hok
  | true =>
    obtain ⟨⟨later, claims'⟩, hlater, he⟩ := map_eq_ok.mp h
    cases he
    refine .inr ⟨later, rfl, hfree, ?_, hlater⟩
    intro ht
    rwa [if_pos ht] at hok

theorem keepMatches_kept {t : PiiType} {ms kept : List (Match Char)} {seen claims : List Span}
    (h : keepMatches py t ms seen = .ok (kept, claims)) :
    kept ⊆ ms ∧ (t = .creditCard → ∀ m ∈ kept, luhnOk py m.group = .ok true) := by
  induction ms generalizing seen kept with
  | nil =>
    cases h
    simp
  | cons m ms ih =>
    rcases keepMatches_cons h with ⟨-, h⟩ | ⟨later, rfl, -, hluhn, h⟩
    · exact ⟨List.subset_cons_of_subset m (ih h).1, (ih h).2⟩
    · refine ⟨List.cons_subset_cons m (ih h).1, ?_⟩
      intro ht
      exact List.forall_mem_cons.mpr ⟨hluhn ht, (ih h).2 ht⟩

theorem findingOf_shows {t : PiiType} {kept : List (Match Char)} {findings : List PiiFinding}
    (h : findingOf py t kept = .ok findings) :
    List.Forall₂ (Shows py) findings (exemplar (t, kept)).toList := by
  cases kept with
  | nil =>
    cases h
    exact .nil
  | cons m ms =>
    obtain ⟨masked, hmasked, rfl⟩ := map_eq_ok.mp h
    exact .cons ⟨rfl, hmasked⟩ .nil

theorem filterMap_cons_toList {α β : Type} (f : α → Option β) (a : α) (as : List α) :
    (a :: as).filterMap f = (f a).toList ++ as.filterMap f := by
  cases h : f a with
  | none => simp [h]
  | some b => simp [h]

theorem scanTypes_shows {text : List Char} {ts : List PiiType} {seen : List Span}
    {findings : List PiiFinding} (h : scanTypes py text ts seen = .ok findings) :
    ∃ kept, keptOf py text ts seen = .ok kept ∧
      List.Forall₂ (Shows py) findings (kept.filterMap exemplar) := by
  induction ts generalizing seen findings with
  | nil =>
    cases h
    exact ⟨[], rfl, .nil⟩
  | cons t ts ih =>
    obtain ⟨⟨ms, claims⟩, hms, h⟩ := bind_eq_ok.mp h
    obtain ⟨found, hfound, h⟩ := bind_eq_ok.mp h
    obtain ⟨rest, hrest, rfl⟩ := map_eq_ok.mp h
    obtain ⟨kept, hkept, hshows⟩ := ih hrest
    refine ⟨(t, ms) :: kept, ?_, ?_⟩
    · rw [keptOf, hms]
      change (keptOf py text ts claims).map _ = _
      rw [hkept]
      rfl
    · rw [filterMap_cons_toList]
      exact List.rel_append (findingOf_shows hfound) hshows

theorem keptOf_matches {text : List Char} {ts : List PiiType} {seen : List Span}
    {kept : List (PiiType × List (Match Char))} (h : keptOf py text ts seen = .ok kept) :
    ∀ k ∈ kept, k.2 ⊆ findIter py.isWord (pattern py k.1) text ∧
      (k.1 = .creditCard → ∀ m ∈ k.2, luhnOk py m.group = .ok true) := by
  induction ts generalizing seen kept with
  | nil =>
    cases h
    simp
  | cons t ts ih =>
    obtain ⟨⟨ms, claims⟩, hms, h⟩ := bind_eq_ok.mp h
    obtain ⟨rest, hrest, rfl⟩ := map_eq_ok.mp h
    exact List.forall_mem_cons.mpr ⟨keepMatches_kept hms, ih hrest⟩

theorem scanPii_shows (py : PyChars) (text : String) : ∃ findings, scanPii py text = .ok findings ∧
    List.Forall₂ (Shows py) findings (exemplars py text) := by
  obtain ⟨findings, hfindings⟩ := scanPii_fine py text
  obtain ⟨kept, hkept, hshows⟩ := scanTypes_shows hfindings
  refine ⟨findings, hfindings, ?_⟩
  unfold exemplars
  rw [hkept]
  exact hshows

theorem exemplars_match {text : String} {t : PiiType} {m : Match Char}
    (h : (t, m) ∈ exemplars py text) : m ∈ findIter py.isWord (pattern py t) text.toList ∧
      (t = .creditCard → luhnOk py m.group = .ok true) := by
  unfold exemplars at h
  cases hkept : keptOf py text.toList piiTypes [] with
  | error e =>
    rw [hkept] at h
    cases h
  | ok kept =>
    rw [hkept] at h
    obtain ⟨⟨t', ms⟩, hk, he⟩ := List.mem_filterMap.mp h
    obtain ⟨hsub, hluhn⟩ := keptOf_matches hkept _ hk
    cases ms with
    | nil => cases he
    | cons m' ms =>
      cases he
      exact ⟨hsub List.mem_cons_self, fun ht => hluhn ht m List.mem_cons_self⟩

end Kept

def NumberText (py : PyUnicode) (v : List Char) : Prop :=
  ∀ c ∈ v, (py.decimal c).isSome ∨ c ∈ [' ', '-', '(', ')', '+', '.']

section Numbers

variable {py : PyUnicode}

theorem number_text {t : PiiType} (ht : t ≠ .email) {text : List Char} {m : Match Char}
    (h : m ∈ findIter py.isWord (pattern py.toPyChars t) text) : NumberText py m.group := by
  intro c hc
  have htakes := takes_of_mem_findIter h hc
  by_contra hnot
  simp only [List.mem_cons, List.not_mem_nil, or_false, not_or] at hnot
  obtain ⟨hdecimal, hspace, hhyphen, hopen, hclose, hplus, hdot⟩ := hnot
  have hdigit : ¬(digit py.toPyChars).Takes c := hdecimal
  have hseparator : ¬separator.Takes c := by
    simp [separator, Regex.Takes, hspace, hhyphen]
  have hlit : ∀ d, c ≠ d → ¬(lit d).Takes c := fun d hne => by simpa [lit, Regex.Takes] using hne
  cases t with
  | email => exact ht rfl
  | ssn =>
    simp [pattern, ssnPattern, Regex.takes_concat, Regex.not_takes_times, Regex.Takes, hdigit,
      hlit '-' hhyphen] at htakes
  | creditCard =>
    simp [pattern, creditCardPattern, Regex.takes_concat, Regex.not_takes_times, Regex.Takes,
      hdigit, hseparator] at htakes
  | phone =>
    simp [pattern, phonePattern, Regex.takes_concat, Regex.not_takes_times, Regex.Takes, hdigit,
      hseparator, hlit '(' hopen, hlit ')' hclose, hlit '+' hplus] at htakes
  | ipv4 =>
    simp [pattern, ipv4Pattern, Regex.takes_concat, Regex.not_takes_times, Regex.Takes, hdigit,
      hlit '.' hdot] at htakes

theorem punctuation_digit {c : Char} (h : c ∈ [' ', '-', '(', ')', '+', '.']) :
    py.isDigit c = false := by
  simp only [List.mem_cons, List.not_mem_nil, or_false] at h
  rcases h with rfl | rfl | rfl | rfl | rfl | rfl <;> exact py.isDigit_ascii _ (by decide)

theorem NumberText.decimal {v : List Char} (h : NumberText py v) {c : Char} (hc : c ∈ v)
    (hdigit : py.isDigit c) : (py.decimal c).isSome := by
  rcases h c hc with hdecimal | hpunctuation
  · exact hdecimal
  · rw [punctuation_digit hpunctuation] at hdigit
    cases hdigit

theorem NumberText.at {v : List Char} (h : NumberText py v) : '@' ∉ v := by
  intro hat
  rcases h '@' hat with hdecimal | hpunctuation
  · rw [decimal_at] at hdecimal
    cases hdecimal
  · simp at hpunctuation

theorem filter_dropWhile {α : Type} {p q : α → Bool} {as : List α}
    (h : ∀ a ∈ as, p a → q a = false) : (as.dropWhile q).filter p = as.filter p := by
  induction as with
  | nil => rfl
  | cons a as ih =>
    obtain ⟨ha, has⟩ := List.forall_mem_cons.mp h
    by_cases hq : q a
    · have hp : ¬p a := fun hp => by
        rw [ha hp] at hq
        cases hq
      rw [List.dropWhile_cons_of_pos hq, List.filter_cons_of_neg hp, ih has]
    · rw [List.dropWhile_cons_of_neg hq]

theorem filter_stripChars {p : Char → Bool} {v : List Char}
    (h : ∀ c ∈ v, p c → PyText.isSpace c = false) : (PyText.stripChars v).filter p = v.filter p := by
  unfold PyText.stripChars
  rw [List.filter_reverse, filter_dropWhile, List.filter_reverse, List.reverse_reverse,
    filter_dropWhile h]
  intro c hc
  exact h c ((List.dropWhile_sublist _).mem (List.mem_reverse.mp hc))

def digitsOf (py : PyUnicode) (v : List Char) : List Char := v.filter py.isDigit

theorem NumberText.maskOf {v : List Char} (h : NumberText py v) :
    maskOf py.toPyChars v = .ok (if 4 ≤ (digitsOf py v).length
      then "***" ++ String.ofList ((digitsOf py v).drop ((digitsOf py v).length - 4)) else "***") := by
  have hdigits : (PyText.stripChars v).filter py.isDigit = digitsOf py v :=
    filter_stripChars fun c hc hdigit =>
      py.isWord_space c (py.isWord_decimal c (h.decimal hc hdigit))
  have hat : '@' ∉ PyText.stripChars v := fun hmem => h.at (PyText.mem_stripChars hmem)
  simp only [Compliance.maskOf, if_neg hat, hdigits]

def digitValue (py : PyUnicode) (c : Char) : ℕ := (py.decimal c).getD 0

def luhnSum (nums : List ℕ) : ℕ :=
  (nums.mapIdx fun i d => luhnTerm (nums.length % 2) i d).sum

theorem mapM_intOf {cs : List Char} (h : ∀ c ∈ cs, (py.decimal c).isSome) :
    cs.mapM (intOf py.toPyChars) = .ok (cs.map (digitValue py)) := by
  induction cs with
  | nil => rfl
  | cons c cs ih =>
    obtain ⟨hc, hcs⟩ := List.forall_mem_cons.mp h
    obtain ⟨d, hd⟩ := Option.isSome_iff_exists.mp hc
    have hvalue : intOf py.toPyChars c = .ok (digitValue py c) := by
      simp [intOf, digitValue, hd]
    rw [List.mapM_cons, ih hcs, hvalue]
    rfl

theorem NumberText.luhnOk {v : List Char} (h : NumberText py v) :
    luhnOk py.toPyChars v = .ok (decide (13 ≤ (digitsOf py v).length ∧ (digitsOf py v).length ≤ 16 ∧
      luhnSum ((digitsOf py v).map (digitValue py)) % 10 = 0)) := by
  have hdecimal : ∀ c ∈ digitsOf py v, (py.decimal c).isSome := by
    intro c hc
    obtain ⟨hmem, hdigit⟩ := List.mem_filter.mp hc
    exact h.decimal hmem hdigit
  have hnums : (v.filter py.isDigit).mapM (intOf py.toPyChars) =
      .ok ((digitsOf py v).map (digitValue py)) := mapM_intOf hdecimal
  unfold Compliance.luhnOk
  rw [hnums]
  simp only [Except.map, List.length_map, luhnSum, Except.ok.injEq]
  split_ifs with hlength
  · simp [hlength]
  · symm
    apply decide_eq_false
    rintro ⟨hlow, hhigh, -⟩
    exact hlength ⟨hlow, hhigh⟩

end Numbers

theorem ascii_forall {P : Char → Prop} (h : ∀ n < 128, P (Char.ofNat n)) {c : Char}
    (hc : c.toNat < 128) : P c := by
  have hchar := h c.toNat hc
  rwa [Char.ofNat_toNat] at hchar

theorem isDigit_iff {c : Char} : c.isDigit = true ↔ 0x30 ≤ c.toNat ∧ c.toNat ≤ 0x39 := by
  unfold Char.isDigit
  rw [Bool.and_eq_true, decide_eq_true_eq, decide_eq_true_eq, ge_iff_le, UInt32.le_iff_toNat_le,
    UInt32.le_iff_toNat_le]
  exact Iff.rfl

def asciiUnicode : PyUnicode where
  toPyChars := asciiChars
  isWord_ascii _ hc := ascii_forall (P := fun c => asciiChars.isWord c = (c.isAlphanum || c = '_'))
    (by decide +kernel) hc
  isDigit_ascii _ _ := rfl
  decimal_ascii _ h := if_pos (isDigit_iff.mp h)
  isDigit_decimal c h := by
    apply isDigit_iff.mpr
    by_contra hnot
    have hnone : asciiChars.decimal c = none := if_neg hnot
    rw [hnone] at h
    cases h
  decimal_lt c d h := by
    by_cases hdigit : 0x30 ≤ c.toNat ∧ c.toNat ≤ 0x39
    · have hsome : asciiChars.decimal c = some (c.toNat - 0x30) := if_pos hdigit
      rw [hsome, Option.some.injEq] at h
      omega
    · have hnone : asciiChars.decimal c = none := if_neg hdigit
      rw [hnone] at h
      cases h

end Workbench.Compliance
