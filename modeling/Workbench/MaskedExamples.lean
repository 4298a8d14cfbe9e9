import Workbench.PiiExemplars
import Mathlib.Tactic.IntervalCases

namespace Workbench.Compliance

open PyJson Regexes

section Withheld

variable (py : PyUnicode)

def SameShape (v w : List Char) : Prop :=
  List.Forall₂ (fun a b => a = b ∨ ((py.decimal a).isSome ∧ (py.decimal b).isSome)) v w

/-- Of a value with digits the example tells at most the last four and not all, and it is the
example of another value of the type and the shape as well. -/
def WithholdsDigits (t : PiiType) (value : List Char) (shown : String) : Prop :=
  (∃ last, shown = "***" ++ String.ofList last ∧ last <:+ digitsOf py value ∧ last.length ≤ 4 ∧
      last.length < (digitsOf py value).length) ∧
    ∃ other, other ≠ value ∧ SameShape py value other ∧
      maskOf py.toPyChars other = .ok shown ∧
      (t = .creditCard → luhnOk py.toPyChars other = .ok true)

def localPart (value : List Char) : List Char := value.takeWhile (· ≠ '@')

def WithholdsLocal (value : List Char) (shown : String) : Prop :=
  ∃ first domain, shown = String.ofList first ++ "***@" ++ String.ofList domain ∧
    first <+: localPart value ∧ first.length < (localPart value).length

def Withholds (e : PiiType × Match Char) (shown : String) : Prop :=
  if e.1 = .email then WithholdsLocal e.2.group shown else WithholdsDigits py e.1 e.2.group shown

def LongEnough (e : PiiType × Match Char) : Prop :=
  (e.1 = .ipv4 → 4 < (digitsOf py e.2.group).length) ∧
    (e.1 = .email → 1 < (localPart e.2.group).length)

variable {py}

section Others

def digitChar (d : ℕ) : Char := Char.ofNat (48 + d)

theorem digitChar_decimal {d : ℕ} (hd : d < 10) : py.decimal (digitChar d) = some d := by
  have h : (digitChar d).isDigit ∧ (digitChar d).toNat - 48 = d := by
    interval_cases d <;> decide
  rw [py.decimal_ascii _ h.1, h.2]

theorem exists_refilled {v : List Char} (hv : NumberText py v) (ds : List Char)
    (hlength : ds.length = (digitsOf py v).length) (hds : ∀ d ∈ ds, (py.decimal d).isSome) :
    ∃ w, SameShape py v w ∧ digitsOf py w = ds ∧ NumberText py w := by
  induction v generalizing ds with
  | nil =>
    have hnil : ds = [] := List.length_eq_zero_iff.mp hlength
    exact ⟨[], .nil, by simp [digitsOf, hnil], by simp [NumberText]⟩
  | cons c v ih =>
    have htail : NumberText py v := fun a ha => hv a (List.mem_cons_of_mem c ha)
    by_cases hc : py.isDigit c
    · have hcount : digitsOf py (c :: v) = c :: digitsOf py v := List.filter_cons_of_pos hc
      rw [hcount] at hlength
      cases ds with
      | nil => cases hlength
      | cons d ds =>
        obtain ⟨hd, hrest⟩ := List.forall_mem_cons.mp hds
        obtain ⟨w, hshape, hdigits, hw⟩ := ih htail ds (by simpa using hlength) hrest
        refine ⟨d :: w, .cons (.inr ⟨hv.decimal List.mem_cons_self hc, hd⟩) hshape, ?_, ?_⟩
        · rw [digitsOf, List.filter_cons_of_pos (py.isDigit_decimal d hd)]
          rw [← hdigits]
          rfl
        · exact List.forall_mem_cons.mpr ⟨.inl hd, hw⟩
    · have hcount : digitsOf py (c :: v) = digitsOf py v := List.filter_cons_of_neg hc
      rw [hcount] at hlength
      obtain ⟨w, hshape, hdigits, hw⟩ := ih htail ds hlength hds
      refine ⟨c :: w, .cons (.inl rfl) hshape, ?_, ?_⟩
      · rw [digitsOf, List.filter_cons_of_neg hc]
        exact hdigits
      · exact List.forall_mem_cons.mpr ⟨hv c List.mem_cons_self, hw⟩

theorem luhn_alternatives : ∀ a < 10, ∀ b < 10, ∀ parity < 2, ∃ c < 10, ∃ d < 10, c ≠ a ∧
    (luhnTerm parity 0 c + luhnTerm parity 1 d) % 10 =
      (luhnTerm parity 0 a + luhnTerm parity 1 b) % 10 := by
  decide +kernel

theorem luhnSum_cons_cons (a b : ℕ) (nums : List ℕ) : luhnSum (a :: b :: nums) =
    luhnTerm (nums.length % 2) 0 a + luhnTerm (nums.length % 2) 1 b +
      (nums.mapIdx fun i d => luhnTerm (nums.length % 2) (i + 2) d).sum := by
  have hlength : (a :: b :: nums).length % 2 = nums.length % 2 := by
    simp only [List.length_cons]
    omega
  unfold luhnSum
  rw [hlength]
  simp only [List.mapIdx_cons, List.sum_cons]
  rw [Nat.add_assoc]

theorem digitsOf_decimal {v : List Char} (hv : NumberText py v) :
    ∀ d ∈ digitsOf py v, (py.decimal d).isSome := by
  intro d hd
  obtain ⟨hmem, hdigit⟩ := List.mem_filter.mp hd
  exact hv.decimal hmem hdigit

theorem digitValue_lt (py : PyUnicode) (c : Char) : digitValue py c < 10 := by
  unfold digitValue
  cases h : py.decimal c with
  | none => exact Nat.zero_lt_succ 9
  | some d => exact py.decimal_lt c d h

theorem maskOf_congr {v w : List Char} (hv : NumberText py v) (hw : NumberText py w) {k : ℕ}
    (hlength : (digitsOf py w).length = (digitsOf py v).length)
    (hk : k + 4 ≤ (digitsOf py v).length) (hlast : (digitsOf py w).drop k = (digitsOf py v).drop k) :
    maskOf py.toPyChars w = maskOf py.toPyChars v := by
  rw [hv.maskOf, hw.maskOf, hlength]
  have hsplit : (digitsOf py v).length - 4 = k + ((digitsOf py v).length - 4 - k) := by omega
  rw [hsplit, ← List.drop_drop, ← List.drop_drop, hlast]

theorem exists_other {v : List Char} (hv : NumberText py v) (hlong : 4 < (digitsOf py v).length) :
    ∃ w, w ≠ v ∧ SameShape py v w ∧ maskOf py.toPyChars w = maskOf py.toPyChars v := by
  have hdecimal := digitsOf_decimal hv
  cases hdigits : digitsOf py v with
  | nil => simp [hdigits] at hlong
  | cons a rest =>
    rw [hdigits] at hlong hdecimal
    obtain ⟨-, hrest⟩ := List.forall_mem_cons.mp hdecimal
    obtain ⟨d, hd, hne⟩ : ∃ d < 10, d ≠ digitValue py a := by
      by_cases hzero : digitValue py a = 0
      · exact ⟨1, by omega, by omega⟩
      · exact ⟨0, by omega, by omega⟩
    have hvalue : py.decimal (digitChar d) = some d := digitChar_decimal hd
    obtain ⟨w, hshape, hw, htext⟩ := exists_refilled hv (digitChar d :: rest)
      (by rw [hdigits]; rfl) (List.forall_mem_cons.mpr ⟨by simp [hvalue], hrest⟩)
    refine ⟨w, ?_, hshape, ?_⟩
    · rintro rfl
      rw [hdigits] at hw
      apply hne
      rw [digitValue, (List.cons.inj hw).1, hvalue]
      rfl
    · have hrestlong : 4 ≤ rest.length := by
        rw [List.length_cons] at hlong
        omega
      apply maskOf_congr hv htext (k := 1)
      · rw [hw, hdigits]
        rfl
      · rw [hdigits, List.length_cons]
        omega
      · rw [hw, hdigits]
        rfl

theorem exists_other_card {v : List Char} (hv : NumberText py v)
    (hluhn : luhnOk py.toPyChars v = .ok true) :
    ∃ w, w ≠ v ∧ SameShape py v w ∧ maskOf py.toPyChars w = maskOf py.toPyChars v ∧
      luhnOk py.toPyChars w = .ok true := by
  have hdecimal := digitsOf_decimal hv
  rw [hv.luhnOk, Except.ok.injEq, decide_eq_true_eq] at hluhn
  obtain ⟨hlow, hhigh, hsum⟩ := hluhn
  match hdigits : digitsOf py v with
  | [] => simp [hdigits] at hlow
  | [_] => simp [hdigits] at hlow
  | a :: b :: rest =>
    rw [hdigits] at hlow hhigh hsum hdecimal
    obtain ⟨-, htail⟩ := List.forall_mem_cons.mp hdecimal
    obtain ⟨-, hrest⟩ := List.forall_mem_cons.mp htail
    have hrestlong : 11 ≤ rest.length := by simpa using hlow
    rw [List.map_cons, List.map_cons, luhnSum_cons_cons, List.length_map] at hsum
    obtain ⟨c, hc, d, hd, hne, hsame⟩ := luhn_alternatives _ (digitValue_lt py a) _
      (digitValue_lt py b) (rest.length % 2) (Nat.mod_lt _ (by omega))
    have hcvalue : py.decimal (digitChar c) = some c := digitChar_decimal hc
    have hdvalue : py.decimal (digitChar d) = some d := digitChar_decimal hd
    obtain ⟨w, hshape, hw, htext⟩ := exists_refilled hv (digitChar c :: digitChar d :: rest)
      (by rw [hdigits]; rfl)
      (List.forall_mem_cons.mpr ⟨by simp [hcvalue],
        List.forall_mem_cons.mpr ⟨by simp [hdvalue], hrest⟩⟩)
    refine ⟨w, ?_, hshape, ?_, ?_⟩
    · rintro rfl
      rw [hdigits] at hw
      apply hne
      rw [digitValue, (List.cons.inj hw).1, hcvalue]
      rfl
    · apply maskOf_congr hv htext (k := 2)
      · rw [hw, hdigits]
        rfl
      · rw [hdigits, List.length_cons, List.length_cons]
        omega
      · rw [hw, hdigits]
        rfl
    · rw [htext.luhnOk, Except.ok.injEq, decide_eq_true_eq, hw]
      have hcd : digitValue py (digitChar c) = c ∧ digitValue py (digitChar d) = d := by
        simp [digitValue, hcvalue, hdvalue]
      refine ⟨hlow, hhigh, ?_⟩
      rw [List.map_cons, List.map_cons, luhnSum_cons_cons, List.length_map, hcd.1, hcd.2]
      omega

end Others

def leastDigits : PiiType → ℕ
  | .ssn => 9
  | .creditCard => 13
  | .email => 0
  | .phone => 10
  | .ipv4 => 4

theorem takesAtLeast_digits (t : PiiType) :
    TakesAtLeast py.isWord py.isDigit (leastDigits t) (pattern py.toPyChars t) := by
  have hdigit : TakesAtLeast py.isWord py.isDigit 1 (digit py.toPyChars) :=
    takesAtLeast_char py.isDigit_decimal
  have hzero : ∀ r : Regex Char, TakesAtLeast py.isWord py.isDigit 0 r := takesAtLeast_zero _
  have htimes := fun more least => takesAtLeast_times hdigit more least
  cases t with
  | email => exact hzero _
  | ssn =>
    exact takesAtLeast_concat [0, 3, 0, 2, 0, 4, 0]
      (.cons (hzero _) (.cons (htimes 0 3) (.cons (hzero _) (.cons (htimes 0 2) (.cons (hzero _)
        (.cons (htimes 0 4) (.cons (hzero _) .nil)))))))
  | creditCard =>
    exact takesAtLeast_concat [0, 13, 0]
      (.cons (hzero _) (.cons (takesAtLeast_times (takesAtLeast_seq hdigit (hzero _)) 3 13)
        (.cons (hzero _) .nil)))
  | phone =>
    exact takesAtLeast_concat [0, 0, 0, 3, 0, 0, 3, 0, 4, 0]
      (.cons (hzero _) (.cons (hzero _) (.cons (hzero _) (.cons (htimes 0 3) (.cons (hzero _)
        (.cons (hzero _) (.cons (htimes 0 3) (.cons (hzero _) (.cons (htimes 0 4)
          (.cons (hzero _) .nil))))))))))
  | ipv4 =>
    exact takesAtLeast_concat [0, 3, 1, 0]
      (.cons (hzero _) (.cons (takesAtLeast_times
        (takesAtLeast_seq (htimes 2 1) (hzero _)) 0 3) (.cons (htimes 2 1) (.cons (hzero _) .nil))))

theorem leastDigits_le {t : PiiType} {text : List Char} {m : Match Char}
    (h : m ∈ findIter py.isWord (pattern py.toPyChars t) text) :
    leastDigits t ≤ (digitsOf py m.group).length := by
  have hle := takesAtLeast_findIter (takesAtLeast_digits t) h
  rwa [List.countP_eq_length_filter] at hle

theorem withholdsDigits_iff {t : PiiType} (ht : t ≠ .email) {text : List Char} {m : Match Char}
    (hm : m ∈ findIter py.isWord (pattern py.toPyChars t) text)
    (hluhn : t = .creditCard → luhnOk py.toPyChars m.group = .ok true) {shown : String}
    (hshown : maskOf py.toPyChars m.group = .ok shown) :
    WithholdsDigits py t m.group shown ↔ (t = .ipv4 → 4 < (digitsOf py m.group).length) := by
  have hv := number_text ht hm
  have hleast := leastDigits_le hm
  have hfour : 4 ≤ (digitsOf py m.group).length := by
    cases t with
    | email => exact absurd rfl ht
    | ssn | creditCard | phone | ipv4 =>
      simp only [leastDigits] at hleast
      omega
  have hvalue := hshown
  rw [hv.maskOf, if_pos hfour, Except.ok.injEq] at hshown
  constructor
  · rintro ⟨⟨last, hlast, -, -, hlt⟩, -⟩ -
    rw [← hshown] at hlast
    have hsame := congrArg String.toList hlast
    simp only [String.toList_append, String.toList_ofList, List.append_cancel_left_eq] at hsame
    rw [← hsame, List.length_drop] at hlt
    omega
  · intro hipv4
    have hlong : 4 < (digitsOf py m.group).length := by
      cases t with
      | email => exact absurd rfl ht
      | ipv4 => exact hipv4 rfl
      | ssn | creditCard | phone =>
        simp only [leastDigits] at hleast
        omega
    constructor
    · refine ⟨_, hshown.symm, List.drop_suffix _ _, ?_, ?_⟩
      · rw [List.length_drop]
        omega
      · rw [List.length_drop]
        omega
    · by_cases hcard : t = .creditCard
      · obtain ⟨w, hne, hshape, hmask, hw⟩ := exists_other_card hv (hluhn hcard)
        exact ⟨w, hne, hshape, hmask.trans hvalue, fun _ => hw⟩
      · obtain ⟨w, hne, hshape, hmask⟩ := exists_other hv hlong
        exact ⟨w, hne, hshape, hmask.trans hvalue, fun h => absurd h hcard⟩

theorem email_at {text : List Char} {m : Match Char}
    (h : m ∈ findIter py.isWord (emailPattern py.toPyChars) text) : '@' ∈ m.group := by
  have hat : TakesAtLeast py.isWord (fun c => c = '@') 1 (lit '@') := takesAtLeast_char fun _ h => h
  have hzero : ∀ r : Regex Char, TakesAtLeast py.isWord (fun c => c = '@') 0 r :=
    takesAtLeast_zero _
  have hleast : TakesAtLeast py.isWord (fun c => c = '@') 1 (emailPattern py.toPyChars) :=
    takesAtLeast_concat [0, 0, 1, 0, 0, 0, 0]
      (.cons (hzero _) (.cons (hzero _) (.cons hat (.cons (hzero _) (.cons (hzero _)
        (.cons (hzero _) (.cons (hzero _) .nil)))))))
  have hcount := takesAtLeast_findIter hleast h
  obtain ⟨c, hc, he⟩ := List.countP_pos_iff.mp hcount
  rwa [← of_decide_eq_true he]

theorem maskOf_email {c : Char} {v : List Char} (hc : isLocal py.toPyChars c) (hat : '@' ∈ c :: v) :
    ∃ domain, maskOf py.toPyChars (c :: v) =
      .ok (String.ofList [c] ++ "***@" ++ String.ofList domain) := by
  obtain ⟨w, hw⟩ := PyText.stripChars_cons (isLocal_space hc) v
  have hne : c ≠ '@' := by
    rintro rfl
    rw [isLocal_at] at hc
    cases hc
  have hmem : '@' ∈ c :: w := hw ▸ PyText.mem_stripChars_of_not hat (by decide)
  refine ⟨((c :: w).dropWhile (· ≠ '@')).tail, ?_⟩
  unfold maskOf
  rw [hw, if_pos hmem, List.takeWhile_cons_of_pos (by simpa using hne)]

theorem withholdsLocal_iff {text : List Char} {m : Match Char}
    (hm : m ∈ findIter py.isWord (emailPattern py.toPyChars) text) {shown : String}
    (hshown : maskOf py.toPyChars m.group = .ok shown) :
    WithholdsLocal m.group shown ↔ 1 < (localPart m.group).length := by
  have hat := email_at hm
  obtain ⟨c, v, hgroup, hc⟩ := email_text hm
  rw [hgroup] at hat hshown ⊢
  obtain ⟨domain, hmask⟩ := maskOf_email hc hat
  rw [hmask, Except.ok.injEq] at hshown
  have hne : c ≠ '@' := by
    rintro rfl
    rw [isLocal_at] at hc
    cases hc
  have hlocal : localPart (c :: v) = c :: localPart v :=
    List.takeWhile_cons_of_pos (by simpa using hne)
  constructor
  · rintro ⟨first, domain', hfirst, -, hlt⟩
    by_contra hshort
    have hnil : first = [] := List.length_eq_zero_iff.mp (by omega)
    rw [← hshown, hnil] at hfirst
    have hsame := congrArg String.toList hfirst
    simp only [String.toList_append, String.toList_ofList, List.nil_append, List.cons_append] at hsame
    have hstar : c = '*' := (List.cons.inj hsame).1
    have hword : py.isWord '*' = false := py.isWord_ascii '*' (by decide)
    rw [hstar] at hc
    simp [isLocal, hword] at hc
  · intro hlong
    refine ⟨[c], domain, hshown.symm, ?_, hlong⟩
    rw [hlocal]
    exact ⟨localPart v, rfl⟩

theorem withholds_iff {text : String} {e : PiiType × Match Char}
    (he : e ∈ exemplars py.toPyChars text) {shown : String}
    (hshown : maskOf py.toPyChars e.2.group = .ok shown) :
    Withholds py e shown ↔ LongEnough py e := by
  obtain ⟨t, m⟩ := e
  obtain ⟨hm, hluhn⟩ := exemplars_match he
  unfold Withholds LongEnough
  by_cases ht : t = .email
  · subst ht
    simpa using withholdsLocal_iff hm hshown
  · simpa [ht] using withholdsDigits_iff ht hm hluhn hshown

end Withheld

def ExamplesWithhold (py : PyUnicode) (text : String) : Prop :=
  ∃ findings, scanPii py.toPyChars text = .ok findings ∧
    List.Forall₂ (fun f e => Shows py.toPyChars f e ∧ Withholds py e f.maskedExample) findings
      (exemplars py.toPyChars text)

theorem long_of_forall₂ {py : PyUnicode} {text : String} {findings : List PiiFinding}
    {es : List (PiiType × Match Char)} (hes : es ⊆ exemplars py.toPyChars text)
    (h : List.Forall₂ (fun f e => Shows py.toPyChars f e ∧ Withholds py e f.maskedExample)
      findings es) : ∀ e ∈ es, LongEnough py e := by
  induction h with
  | nil => simp
  | cons hab _ ih =>
    obtain ⟨hmem, hrest⟩ := List.cons_subset.mp hes
    exact List.forall_mem_cons.mpr ⟨(withholds_iff hmem hab.1.2).mp hab.2, ih hrest⟩

theorem withhold_of_long {py : PyUnicode} {text : String} {findings : List PiiFinding}
    {es : List (PiiType × Match Char)} (hes : es ⊆ exemplars py.toPyChars text)
    (hshows : List.Forall₂ (Shows py.toPyChars) findings es) (hlong : ∀ e ∈ es, LongEnough py e) :
    List.Forall₂ (fun f e => Shows py.toPyChars f e ∧ Withholds py e f.maskedExample)
      findings es := by
  induction hshows with
  | nil => exact .nil
  | cons hab _ ih =>
    obtain ⟨hmem, hrest⟩ := List.cons_subset.mp hes
    obtain ⟨hhead, htail⟩ := List.forall_mem_cons.mp hlong
    exact .cons ⟨hab, (withholds_iff hmem hab.2).mpr hhead⟩ (ih hrest htail)

theorem examples_withhold_iff (py : PyUnicode) (text : String) :
    ExamplesWithhold py text ↔ ∀ e ∈ exemplars py.toPyChars text, LongEnough py e := by
  constructor
  · rintro ⟨findings, -, h⟩
    exact long_of_forall₂ (List.Subset.refl _) h
  · intro hlong
    obtain ⟨findings, hfindings, hshows⟩ := scanPii_shows py.toPyChars text
    exact ⟨findings, hfindings, withhold_of_long (List.Subset.refl _) hshows hlong⟩

/-- `1.2.3.4` is shown as `***1234`, and of `a@b.co` nothing is hidden. -/
theorem short_values_shown : ¬ ∀ text, ExamplesWithhold asciiUnicode text := by
  intro h
  obtain ⟨findings, -, hshows⟩ := h "host 1.2.3.4, mail a@b.co"
  have hvalues : (exemplars asciiChars "host 1.2.3.4, mail a@b.co").map (fun e => (e.1, e.2.group)) =
      [(.email, "a@b.co".toList), (.ipv4, "1.2.3.4".toList)] := by
    decide +kernel
  have hmem : (.ipv4, "1.2.3.4".toList) ∈
      (exemplars asciiChars "host 1.2.3.4, mail a@b.co").map (fun e => (e.1, e.2.group)) := by
    rw [hvalues]
    exact List.mem_cons_of_mem _ List.mem_cons_self
  obtain ⟨⟨t, m⟩, he, hvalue⟩ := List.mem_map.mp hmem
  obtain ⟨ht, hgroup⟩ := Prod.mk.inj hvalue
  have hlong := (long_of_forall₂ (List.Subset.refl _) hshows _ he).1 ht
  change 4 < (digitsOf asciiUnicode m.group).length at hlong
  rw [hgroup] at hlong
  exact absurd hlong (by decide +kernel)

end Workbench.Compliance
