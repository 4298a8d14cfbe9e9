import Mathlib.Algebra.GroupWithZero.Nat
import Mathlib.Data.List.Infix
import Workbench.PyJson
import Workbench.Regexes

namespace Workbench.Compliance

open PyJson Regexes

/-- Python's classes of characters: `\w`, the values of `\d`, and `str.isdigit`. -/
structure PyChars where
  isWord : Char → Bool
  decimal : Char → Option ℕ
  isDigit : Char → Bool
  lower : String → String
  isWord_decimal : ∀ c, (decimal c).isSome → isWord c
  isWord_space : ∀ c, isWord c → PyText.isSpace c = false
  isWord_at : isWord '@' = false
  isDigit_separator : isDigit ' ' = false ∧ isDigit '-' = false

inductive PiiType
  | email
  | phone
  | ssn
  | creditCard
  | ipv4
  deriving DecidableEq

def PiiType.text : PiiType → String
  | email => "email"
  | phone => "phone"
  | ssn => "ssn"
  | creditCard => "credit_card"
  | ipv4 => "ipv4"

inductive Severity
  | low
  | medium
  | high
  deriving DecidableEq

def Severity.text : Severity → String
  | low => "low"
  | medium => "medium"
  | high => "high"

inductive RiskBand
  | low
  | medium
  | high
  | critical
  deriving DecidableEq

def RiskBand.text : RiskBand → String
  | low => "low"
  | medium => "medium"
  | high => "high"
  | critical => "critical"

structure PiiFinding where
  type : PiiType
  count : ℕ
  maskedExample : String
  deriving DecidableEq

inductive RuleKind
  | forbiddenTerm
  | requiredClause
  deriving DecidableEq

structure PolicyRule where
  id : String
  description : String
  kind : RuleKind
  pattern : String
  severity : Severity

structure PolicyViolation where
  ruleId : String
  description : String
  severity : Severity
  deriving DecidableEq

section Patterns

variable (py : PyChars)

def digit : Regex Char := .char fun c => (py.decimal c).isSome

def lit (c : Char) : Regex Char := .char fun d => d = c

def separator : Regex Char := .opt (.char fun c => c = ' ' || c = '-')

def ssnPattern : Regex Char :=
  .concat [.boundary, (digit py).times 0 3, lit '-', (digit py).times 0 2, lit '-',
    (digit py).times 0 4, .boundary]

def creditCardPattern : Regex Char :=
  .concat [.boundary, (Regex.seq (digit py) separator).times 3 13, .boundary]

def isLocal (c : Char) : Bool := py.isWord c || c = '.' || c = '+' || c = '-'

def emailPattern : Regex Char :=
  .concat [.boundary, .many (isLocal py), lit '@', .many fun c => py.isWord c || c = '-', lit '.',
    .many fun c => py.isWord c || c = '.' || c = '-', .boundary]

def phonePattern : Regex Char :=
  .concat [.boundary, .opt (.concat [.opt (lit '+'), (digit py).times 1 1, separator]),
    .opt (lit '('), (digit py).times 0 3, .opt (lit ')'), separator, (digit py).times 0 3, separator,
    (digit py).times 0 4, .boundary]

def ipv4Pattern : Regex Char :=
  .concat [.boundary, (Regex.seq ((digit py).times 2 1) (lit '.')).times 0 3,
    (digit py).times 2 1, .boundary]

def pattern : PiiType → Regex Char
  | .ssn => ssnPattern py
  | .creditCard => creditCardPattern py
  | .email => emailPattern py
  | .phone => phonePattern py
  | .ipv4 => ipv4Pattern py

end Patterns

def weight : PiiType → ℕ
  | .ssn => 25
  | .creditCard => 25
  | .email => 8
  | .phone => 8
  | .ipv4 => 4

def piiTypes : List PiiType := [.ssn, .creditCard, .email, .phone, .ipv4]

section Scan

variable (py : PyChars)

def intOf (c : Char) : Except PyError ℕ :=
  match py.decimal c with
  | some value => .ok value
  | none => .error .valueError

def luhnTerm (parity i d : ℕ) : ℕ :=
  if i % 2 = parity then (if 9 < d * 2 then d * 2 - 9 else d * 2) else d

def luhnOk (digits : List Char) : Except PyError Bool :=
  ((digits.filter py.isDigit).mapM (intOf py)).map fun nums =>
    if 13 ≤ nums.length ∧ nums.length ≤ 16 then
      (nums.mapIdx fun i d => luhnTerm (nums.length % 2) i d).sum % 10 = 0
    else false

def maskOf (value : List Char) : Except PyError String :=
  let v := PyText.stripChars value
  if '@' ∈ v then
    match v.takeWhile (· ≠ '@') with
    | [] => .error (.indexError "string index out of range")
    | c :: _ => .ok (String.ofList [c] ++ "***@" ++ String.ofList (v.dropWhile (· ≠ '@')).tail)
  else
    let digits := v.filter py.isDigit
    .ok (if 4 ≤ digits.length then "***" ++ String.ofList (digits.drop (digits.length - 4)) else "***")

abbrev Span := ℕ × ℕ

def claimed (seen : List Span) (m : Match Char) : Bool :=
  seen.any fun s => m.start < s.2 && s.1 < m.stop

def keepMatches (t : PiiType) :
    List (Match Char) → List Span → Except PyError (List (Match Char) × List Span)
  | [], seen => .ok ([], seen)
  | m :: ms, seen =>
    if claimed seen m then keepMatches t ms seen
    else (if t = .creditCard then luhnOk py m.group else .ok true).bind fun ok =>
      if ok then (keepMatches t ms (seen ++ [(m.start, m.stop)])).map fun kept => (m :: kept.1, kept.2)
      else keepMatches t ms seen

def findingOf (t : PiiType) : List (Match Char) → Except PyError (List PiiFinding)
  | [] => .ok []
  | m :: ms => (maskOf py m.group).map fun masked => [⟨t, (m :: ms).length, masked⟩]

def scanTypes (text : List Char) : List PiiType → List Span → Except PyError (List PiiFinding)
  | [], _ => .ok []
  | t :: ts, seen =>
    (keepMatches py t (findIter py.isWord (pattern py t) text) seen).bind fun kept =>
      (findingOf py t kept.1).bind fun findings =>
        (scanTypes text ts kept.2).map fun rest => findings ++ rest

def scanPii (text : String) : Except PyError (List PiiFinding) := scanTypes py text.toList piiTypes []

end Scan

def defaultRules : List PolicyRule :=
  [⟨"no-plaintext-secrets", "Credentials must not be stored or transmitted in plaintext.",
      .forbiddenTerm, "plaintext password", .high⟩,
    ⟨"no-disable-encryption", "Encryption must not be disabled.", .forbiddenTerm,
      "disable encryption", .high⟩,
    ⟨"no-share-credentials", "Shared credentials violate least-privilege policy.", .forbiddenTerm,
      "shared credentials", .medium⟩,
    ⟨"require-data-retention", "A data retention policy must be stated.", .requiredClause,
      "data retention", .medium⟩,
    ⟨"require-access-control", "Access control must be addressed.", .requiredClause,
      "access control", .medium⟩]

def severityWeight : Severity → ℕ
  | .low => 6
  | .medium => 14
  | .high => 28

def checkPolicies (py : PyChars) (text : String) (rules : List PolicyRule) : List PolicyViolation :=
  let lowered := py.lower text
  (rules.filter fun rule =>
    let present := decide ((py.lower rule.pattern).toList <:+: lowered.toList)
    if rule.kind = .forbiddenTerm then present else !present).map fun rule =>
      ⟨rule.id, rule.description, rule.severity⟩

def scoreRisk (pii : List PiiFinding) (violations : List PolicyViolation) : ℕ × RiskBand :=
  let score := (pii.map fun f => weight f.type * min f.count 3).sum +
    (violations.map fun v => severityWeight v.severity).sum
  let score := min score 100
  (score, if 80 ≤ score then .critical else if 50 ≤ score then .high else if 20 ≤ score then .medium
    else .low)

section Returns

variable {py : PyChars}

theorem intOf_fine {c : Char} : Fine (intOf py c) ↔ (py.decimal c).isSome := by
  unfold intOf
  cases py.decimal c <;> simp [Fine]

def CardText (py : PyChars) (u : List Char) : Prop :=
  ∀ c ∈ u, (py.decimal c).isSome ∨ c = ' ' ∨ c = '-'

theorem luhnOk_fine {u : List Char} (h : CardText py u) : Fine (luhnOk py u) := by
  unfold luhnOk
  rw [fine_map, fine_mapM]
  intro c hc
  rw [List.mem_filter] at hc
  rw [intOf_fine]
  rcases h c hc.1 with hdecimal | rfl | rfl
  · exact hdecimal
  · rw [py.isDigit_separator.1] at hc
    cases hc.2
  · rw [py.isDigit_separator.2] at hc
    cases hc.2

def Named (py : PyChars) (u : List Char) : Prop := '@' ∉ u ∨ ∃ c v, u = c :: v ∧ isLocal py c

theorem isLocal_space {c : Char} (h : isLocal py c = true) : PyText.isSpace c = false := by
  unfold isLocal at h
  simp only [Bool.or_eq_true, decide_eq_true_eq, or_assoc] at h
  rcases h with h | rfl | rfl | rfl
  · exact py.isWord_space c h
  · decide
  · decide
  · decide

theorem isLocal_at : isLocal py '@' = false := by
  simp [isLocal, py.isWord_at]

theorem maskOf_fine {u : List Char} (h : Named py u) : Fine (maskOf py u) := by
  unfold maskOf
  simp only
  split_ifs with hat
  · rcases h with h | ⟨c, v, rfl, hc⟩
    · exact absurd (PyText.mem_stripChars hat) h
    · obtain ⟨w, hw⟩ := PyText.stripChars_cons (isLocal_space hc) v
      have hne : c ≠ '@' := by
        rintro rfl
        rw [isLocal_at] at hc
        cases hc
      rw [hw, List.takeWhile_cons_of_pos (by simpa using hne)]
      exact fine_ok _
  · exact fine_ok _
  · exact fine_ok _

theorem decimal_at : py.decimal '@' = none := by
  cases h : py.decimal '@' with
  | none => rfl
  | some value =>
    have hword := py.isWord_decimal '@' (by simp [h])
    rw [py.isWord_at] at hword
    cases hword

theorem number_at {t : PiiType} (h : t ≠ .email) : ¬(pattern py t).Takes '@' := by
  have hdigit : ¬(digit py).Takes '@' := by simp [digit, Regex.Takes, decimal_at]
  cases t with
  | email => exact absurd rfl h
  | ssn =>
    simp [pattern, ssnPattern, Regex.takes_concat, Regex.not_takes_times, Regex.Takes, lit, hdigit]
  | creditCard =>
    simp [pattern, creditCardPattern, Regex.takes_concat, Regex.not_takes_times, Regex.Takes,
      separator, hdigit]
  | phone =>
    simp [pattern, phonePattern, Regex.takes_concat, Regex.not_takes_times, Regex.Takes, lit,
      separator, hdigit]
  | ipv4 =>
    simp [pattern, ipv4Pattern, Regex.takes_concat, Regex.not_takes_times, Regex.Takes, lit, hdigit]

theorem creditCard_text {text : List Char} {m : Match Char}
    (h : m ∈ findIter py.isWord (creditCardPattern py) text) : CardText py m.group := by
  intro c hc
  obtain ⟨r, hr, htakes⟩ := Regex.takes_concat.mp (takes_of_mem_findIter h hc)
  simp only [List.mem_cons, List.not_mem_nil, or_false] at hr
  rcases hr with rfl | rfl | rfl
  · cases htakes
  · simpa [Regex.Takes, digit, separator] using Regex.takes_times htakes
  · cases htakes

theorem email_text {text : List Char} {m : Match Char}
    (h : m ∈ findIter py.isWord (emailPattern py) text) : ∃ c v, m.group = c :: v ∧ isLocal py c := by
  obtain ⟨a, b, hb, hmoves⟩ := mem_findIter h
  obtain ⟨start, hstart, hafter⟩ := List.mem_flatMap.mp hb
  obtain ⟨d, hd, hrest⟩ := List.mem_flatMap.mp hafter
  obtain ⟨u, hne, hu, hlocal⟩ := mem_manyEnds hd
  obtain ⟨v, hv, -⟩ := ends_moves hrest
  rw [mem_ends_boundary hstart] at hu
  obtain ⟨c, w, rfl⟩ := List.exists_cons_of_ne_nil hne
  exact ⟨c, w ++ v, hmoves.unique (hu.append hv), hlocal c List.mem_cons_self⟩

theorem match_named {t : PiiType} {text : List Char} {m : Match Char}
    (h : m ∈ findIter py.isWord (pattern py t) text) : Named py m.group := by
  by_cases ht : t = .email
  · subst ht
    exact .inr (email_text h)
  · exact .inl fun hat => number_at ht (takes_of_mem_findIter h hat)

theorem keepMatches_fine {t : PiiType} {ms : List (Match Char)}
    (h : t = .creditCard → ∀ m ∈ ms, CardText py m.group) (seen : List Span) :
    ∃ kept claims, keepMatches py t ms seen = .ok (kept, claims) ∧ kept ⊆ ms := by
  induction ms generalizing seen with
  | nil => exact ⟨[], seen, rfl, List.nil_subset _⟩
  | cons m ms ih =>
    have ih := ih fun ht m hm => h ht m (List.mem_cons_of_mem _ hm)
    have skip : ∃ kept claims, keepMatches py t ms seen = .ok (kept, claims) ∧ kept ⊆ m :: ms := by
      obtain ⟨kept, claims, heq, hsub⟩ := ih seen
      exact ⟨kept, claims, heq, List.subset_cons_of_subset m hsub⟩
    have hcheck : Fine (if t = .creditCard then luhnOk py m.group else .ok true) := by
      split_ifs with ht
      · exact luhnOk_fine (h ht m List.mem_cons_self)
      · exact fine_ok true
    obtain ⟨ok, hok⟩ := hcheck
    unfold keepMatches
    by_cases hclaimed : claimed seen m
    · rw [if_pos hclaimed]
      exact skip
    · rw [if_neg hclaimed, hok]
      cases ok with
      | false => exact skip
      | true =>
        obtain ⟨kept, claims, heq, hsub⟩ := ih (seen ++ [(m.start, m.stop)])
        refine ⟨m :: kept, claims, ?_, List.cons_subset_cons m hsub⟩
        change (keepMatches py t ms (seen ++ [(m.start, m.stop)])).map _ = _
        rw [heq]
        rfl

theorem findingOf_fine {t : PiiType} {kept : List (Match Char)} (h : ∀ m ∈ kept, Named py m.group) :
    Fine (findingOf py t kept) := by
  cases kept with
  | nil => exact fine_ok []
  | cons m ms => exact fine_map.mpr (maskOf_fine (h m List.mem_cons_self))

theorem scanTypes_fine (text : List Char) (ts : List PiiType) (seen : List Span) :
    Fine (scanTypes py text ts seen) := by
  induction ts generalizing seen with
  | nil => exact fine_ok []
  | cons t ts ih =>
    have hcard : t = .creditCard → ∀ m ∈ findIter py.isWord (pattern py t) text, CardText py m.group := by
      rintro rfl m hm
      exact creditCard_text hm
    obtain ⟨kept, claims, hkept, hsub⟩ := keepMatches_fine hcard seen
    obtain ⟨findings, hfindings⟩ := findingOf_fine (t := t) fun m hm => match_named (hsub hm)
    unfold scanTypes
    rw [fine_bind]
    refine ⟨(kept, claims), hkept, fine_bind.mpr ⟨findings, hfindings, ?_⟩⟩
    exact fine_map.mpr (ih claims)

theorem scanPii_fine (py : PyChars) (text : String) : Fine (scanPii py text) := scanTypes_fine _ _ _

end Returns

def asciiWordCodes : List (ℕ × ℕ) := [(0x30, 0x39), (0x41, 0x5a), (0x5f, 0x5f), (0x61, 0x7a)]

def asciiChars : PyChars where
  isWord c := asciiWordCodes.any fun r => r.1 ≤ c.toNat && c.toNat ≤ r.2
  decimal c := if 0x30 ≤ c.toNat ∧ c.toNat ≤ 0x39 then some (c.toNat - 0x30) else none
  isDigit := Char.isDigit
  lower := String.toLower
  isWord_decimal c h := by
    split_ifs at h with hdecimal
    · simp [asciiWordCodes]
      omega
    · cases h
  isWord_space c h := by
    simp [asciiWordCodes] at h
    simp [PyText.isSpace, PyText.spaceCodes]
    omega
  isWord_at := by decide
  isDigit_separator := by decide

example : scanPii asciiChars
    "Contact jane.doe@example.com, SSN 123-45-6789, card 4111 1111 1111 1111." =
      .ok [⟨.ssn, 1, "***6789"⟩, ⟨.creditCard, 1, "***1111"⟩, ⟨.email, 1, "j***@example.com"⟩] := by
  decide +kernel

end Workbench.Compliance
