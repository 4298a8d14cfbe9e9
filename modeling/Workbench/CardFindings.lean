import Workbench.CardStretches

namespace Workbench.Compliance

open PyJson Regexes

section Claims

variable {py : PyChars}

def spans (ms : List (Match Char)) : List Span := ms.map fun m => (m.start, m.stop)

theorem claimed_iff {seen : List Span} {m : Match Char} :
    claimed seen m = true ↔ ∃ s ∈ seen, m.start < s.2 ∧ s.1 < m.stop := by
  simp [claimed]

theorem keepMatches_apart {t : PiiType} (ht : t ≠ .creditCard) {ms : List (Match Char)}
    (hpairs : ms.Pairwise fun m n => m.stop ≤ n.start) {seen : List Span}
    (hseen : ∀ s ∈ seen, ∀ m ∈ ms, s.2 ≤ m.start) :
    keepMatches py t ms seen = .ok (ms, seen ++ spans ms) := by
  induction ms generalizing seen with
  | nil => simp [keepMatches, spans]
  | cons m ms ih =>
    obtain ⟨hlater, hpairs⟩ := List.pairwise_cons.mp hpairs
    have hfree : ¬claimed seen m = true := by
      rw [claimed_iff]
      rintro ⟨s, hs, hlt, -⟩
      have hle := hseen s hs m List.mem_cons_self
      omega
    have hrest : keepMatches py t ms (seen ++ [(m.start, m.stop)]) =
        .ok (ms, (seen ++ [(m.start, m.stop)]) ++ spans ms) := by
      apply ih hpairs
      intro s hs n hn
      rcases List.mem_append.mp hs with hs | hs
      · exact hseen s hs n (List.mem_cons_of_mem m hn)
      · rw [List.mem_singleton.mp hs]
        exact hlater n hn
    rw [keepMatches, if_neg hfree, if_neg ht]
    change (keepMatches py t ms (seen ++ [(m.start, m.stop)])).map _ = _
    rw [hrest, List.append_assoc]
    rfl

theorem kept_iff {ms kept : List (Match Char)} {seen claims : List Span}
    (h : keepMatches py .creditCard ms seen = .ok (kept, claims)) :
    kept ≠ [] ↔ ∃ m ∈ ms, claimed seen m = false ∧ luhnOk py m.group = .ok true := by
  induction ms generalizing kept with
  | nil =>
    cases h
    simp
  | cons m ms ih =>
    rw [List.exists_mem_cons_iff]
    rcases keepMatches_cons h with ⟨hpassed, h⟩ | ⟨later, rfl, hfree, hluhn, -⟩
    · rw [ih h]
      constructor
      · exact .inr
      · rintro (⟨hfree, hluhn⟩ | hrest)
        · rcases hpassed with hclaimed | ⟨-, hfails⟩
          · rw [hfree] at hclaimed
            cases hclaimed
          · rw [hluhn] at hfails
            cases hfails
        · exact hrest
    · constructor
      · intro _
        exact .inl ⟨hfree, hluhn rfl⟩
      · intro _
        exact List.cons_ne_nil m later

theorem keptOf_types {text : List Char} {ts : List PiiType} {seen : List Span}
    {kept : List (PiiType × List (Match Char))} (h : keptOf py text ts seen = .ok kept) :
    kept.map Prod.fst = ts := by
  induction ts generalizing seen kept with
  | nil =>
    cases h
    rfl
  | cons t ts ih =>
    obtain ⟨⟨ms, claims⟩, -, h⟩ := bind_eq_ok.mp h
    obtain ⟨rest, hrest, rfl⟩ := map_eq_ok.mp h
    rw [List.map_cons, ih hrest]

def CardReported (py : PyChars) (text : String) : Prop :=
  ∃ findings, scanPii py text = .ok findings ∧ ∃ f ∈ findings, f.type = .creditCard

theorem forall₂_exists {α β : Type} {R : α → β → Prop} {P : α → Prop} {Q : β → Prop}
    (hiff : ∀ a b, R a b → (P a ↔ Q b)) {as : List α} {bs : List β} (h : List.Forall₂ R as bs) :
    (∃ a ∈ as, P a) ↔ ∃ b ∈ bs, Q b := by
  induction h with
  | nil => simp
  | cons hab _ ih => rw [List.exists_mem_cons_iff, List.exists_mem_cons_iff, ih, hiff _ _ hab]

theorem reported_iff_exemplar (text : String) :
    CardReported py text ↔ ∃ e ∈ exemplars py text, e.1 = .creditCard := by
  obtain ⟨findings, hfindings, hshows⟩ := scanPii_shows py text
  have hiff := forall₂_exists (P := fun f => f.type = .creditCard) (Q := fun e => e.1 = .creditCard)
    (fun f e h => by rw [h.1]) hshows
  rw [← hiff]
  constructor
  · rintro ⟨findings', hfindings', h⟩
    rw [hfindings] at hfindings'
    cases hfindings'
    exact h
  · intro h
    exact ⟨findings, hfindings, h⟩

theorem reported_iff_match (text : String) :
    CardReported py text ↔ ∃ m ∈ findIter py.isWord (creditCardPattern py) text.toList,
      claimed (spans (findIter py.isWord (ssnPattern py) text.toList)) m = false ∧
        luhnOk py m.group = .ok true := by
  rw [reported_iff_exemplar]
  have hssn : keepMatches py .ssn (findIter py.isWord (ssnPattern py) text.toList) [] =
      .ok (findIter py.isWord (ssnPattern py) text.toList,
        spans (findIter py.isWord (ssnPattern py) text.toList)) := by
    rw [keepMatches_apart (by decide) (findIter_pairwise _ _) (by simp)]
    rfl
  obtain ⟨findings, hfindings⟩ := scanPii_fine py text
  obtain ⟨kept, hkept, -⟩ := scanTypes_shows hfindings
  have hexemplars : exemplars py text = kept.filterMap exemplar := by
    unfold exemplars
    rw [hkept]
  obtain ⟨⟨ms, claims⟩, hms, h⟩ := bind_eq_ok.mp hkept
  obtain ⟨others, hothers, rfl⟩ := map_eq_ok.mp h
  have hclaims : claims = spans (findIter py.isWord (ssnPattern py) text.toList) :=
    congrArg Prod.snd (Except.ok.inj (hms.symm.trans hssn))
  subst hclaims
  obtain ⟨⟨cards, claims⟩, hcards, h⟩ := bind_eq_ok.mp hothers
  obtain ⟨rest, hrest, rfl⟩ := map_eq_ok.mp h
  have hcardsiff : cards ≠ [] ↔ ∃ m ∈ findIter py.isWord (creditCardPattern py) text.toList,
      claimed (spans (findIter py.isWord (ssnPattern py) text.toList)) m = false ∧
        luhnOk py m.group = .ok true := kept_iff hcards
  rw [← hcardsiff, hexemplars]
  have htypes := keptOf_types hrest
  constructor
  · rintro ⟨⟨t, m⟩, he, ht⟩
    obtain ⟨⟨t', ms'⟩, hk, he⟩ := List.mem_filterMap.mp he
    obtain ⟨m', hm', hpair⟩ := Option.map_eq_some_iff.mp he
    obtain rfl : t' = t := congrArg Prod.fst hpair
    change t' = .creditCard at ht
    subst ht
    rcases List.mem_cons.mp hk with hk | hk
    · cases hk
    rcases List.mem_cons.mp hk with hk | hk
    · obtain rfl : ms' = cards := congrArg Prod.snd hk
      rintro rfl
      cases hm'
    · have hmem : PiiType.creditCard ∈ [PiiType.email, .phone, .ipv4] := by
        rw [← htypes]
        exact List.mem_map_of_mem hk
      simp at hmem
  · intro hne
    obtain ⟨m, later, rfl⟩ := List.exists_cons_of_ne_nil hne
    refine ⟨(.creditCard, m), List.mem_filterMap.mpr ⟨(.creditCard, m :: later), ?_, rfl⟩, rfl⟩
    exact List.mem_cons_of_mem _ List.mem_cons_self

end Claims

section Stretches

variable {py : PyUnicode}

theorem placed_drop {r : Regex Char} {text : List Char} {m : Match Char} {a b : Cursor Char}
    (h : Placed py.isWord r text m a b) : text.drop m.start = m.group ++ b.after := by
  rw [← h.whole, h.start, ← List.length_reverse, List.drop_left, h.moves.after]

theorem mem_ends_digit {a b : Cursor Char} (h : b ∈ ends py.isWord (digit py.toPyChars) a) :
    ∀ d ∈ a.after.head?, isDecimal py d := by
  obtain ⟨before, after⟩ := a
  cases after with
  | nil => simp
  | cons d after =>
    intro c hc
    cases hc
    by_contra hd
    have hnone : (py.decimal d).isSome = false := by simpa [isDecimal] using hd
    simp [digit, ends, hnone] at h

theorem ssn_first {text : List Char} {m : Match Char}
    (h : m ∈ findIter py.isWord (ssnPattern py.toPyChars) text) :
    ∀ d ∈ (text.drop m.start).head?, isDecimal py d := by
  obtain ⟨a, b, hplaced⟩ := findIter_placed h
  obtain ⟨others, hends⟩ : ∃ others, ends py.isWord (ssnPattern py.toPyChars) a = b :: others := by
    cases hends : ends py.isWord (ssnPattern py.toPyChars) a with
    | nil =>
      have hfirst := hplaced.first
      rw [hends] at hfirst
      cases hfirst
    | cons c others =>
      have hfirst := hplaced.first
      rw [hends] at hfirst
      cases hfirst
      exact ⟨others, rfl⟩
  have hb : b ∈ ends py.isWord (ssnPattern py.toPyChars) a := by
    rw [hends]
    exact List.mem_cons_self
  obtain ⟨start, hstart, hafter⟩ := List.mem_flatMap.mp hb
  obtain ⟨c, hc, -⟩ := List.mem_flatMap.mp hafter
  obtain ⟨e, he, -⟩ := List.mem_flatMap.mp hc
  rw [mem_ends_boundary hstart] at he
  rw [placed_drop hplaced, ← hplaced.moves.after]
  exact mem_ends_digit he

def ClearOfSsn (py : PyUnicode) (text : List Char) (start stop : ℕ) : Prop :=
  ∀ m ∈ findIter py.isWord (ssnPattern py.toPyChars) text, m.stop ≤ start ∨ stop ≤ m.start

theorem unclaimed_iff {text : List Char} {m : Match Char} :
    claimed (spans (findIter py.isWord (ssnPattern py.toPyChars) text)) m = false ↔
      ClearOfSsn py text m.start m.stop := by
  rw [← Bool.not_eq_true, claimed_iff]
  unfold ClearOfSsn spans
  constructor
  · intro h n hn
    by_contra hnot
    apply h
    exact ⟨_, List.mem_map_of_mem hn, by omega, by omega⟩
  · rintro h ⟨s, hs, hlt, hlt'⟩
    obtain ⟨n, hn, rfl⟩ := List.mem_map.mp hs
    rcases h n hn with hle | hle
    · exact absurd hlt (by simpa using hle)
    · exact absurd hlt' (by simpa using hle)

theorem clear_trims {text : List Char} {m s : Match Char} (h : Trims m s)
    (hm : m ∈ findIter py.isWord (creditCardPattern py.toPyChars) text) :
    ClearOfSsn py text m.start m.stop ↔ ClearOfSsn py text s.start s.stop := by
  obtain ⟨hstart, ⟨-, hstop⟩ | ⟨t, ht, hgroup, hstop⟩⟩ := h
  · rw [hstart, hstop]
  · obtain ⟨a, b, hplaced⟩ := findIter_placed hm
    have hlength := hplaced.stop
    rw [hgroup, List.length_append, List.length_singleton] at hlength
    have hat : (text.drop s.stop).head? = some t := by
      have hsplit : s.stop = m.start + s.group.length := by omega
      rw [hsplit, ← List.drop_drop, placed_drop hplaced, hgroup, List.append_assoc, List.drop_left]
      rfl
    rw [hstart, hstop]
    constructor
    · intro h n hn
      rcases h n hn with hle | hle
      · exact .inl hle
      · exact .inr (by omega)
    · intro h n hn
      rcases h n hn with hle | hle
      · exact .inl hle
      · have hne : n.start ≠ s.stop := by
          intro he
          have hdecimal := ssn_first hn t (by rw [he, hat]; rfl)
          rw [separator_decimal ht] at hdecimal
          cases hdecimal
        exact .inr (by omega)

theorem luhn_trims {m s : Match Char} (h : Trims m s) :
    luhnOk py.toPyChars m.group = luhnOk py.toPyChars s.group := by
  obtain ⟨-, ⟨hgroup, -⟩ | ⟨t, ht, hgroup, -⟩⟩ := h
  · rw [hgroup]
  · have hdigit : py.isDigit t = false := by
      simp only [isSeparator, Bool.or_eq_true, decide_eq_true_eq] at ht
      rcases ht with rfl | rfl
      · exact py.isDigit_separator.1
      · exact py.isDigit_separator.2
    have hfilter : (s.group ++ [t]).filter py.isDigit = s.group.filter py.isDigit := by
      rw [List.filter_append, List.filter_cons_of_neg (by simp [hdigit])]
      simp
    unfold luhnOk
    rw [hgroup, hfilter]

def IsCard (py : PyUnicode) (text : List Char) (s : Match Char) : Prop :=
  luhnOk py.toPyChars s.group = .ok true ∧ ClearOfSsn py text s.start s.stop

theorem forall₂_with_mem {α β : Type} {R : α → β → Prop} {as : List α} {bs : List β}
    (h : List.Forall₂ R as bs) : List.Forall₂ (fun a b => R a b ∧ a ∈ as) as bs := by
  induction h with
  | nil => exact .nil
  | cons hab _ ih =>
    apply List.Forall₂.cons ⟨hab, List.mem_cons_self⟩
    exact ih.imp fun _ _ h => ⟨h.1, List.mem_cons_of_mem _ h.2⟩

theorem reported_iff_stretch (text : String) :
    CardReported py.toPyChars text ↔ ∃ s ∈ stretches py text.toList, IsCard py text.toList s := by
  rw [reported_iff_match]
  apply forall₂_exists _ (forall₂_with_mem (findIter_trims text.toList))
  rintro m s ⟨htrims, hm⟩
  rw [unclaimed_iff, clear_trims htrims hm, luhn_trims htrims]
  exact and_comm

/-- A card number stands in the text: 13 to 16 ASCII digits, adjacent or one space or hyphen apart,
that pass the Luhn check, with no word character on either side, and over no match of an SSN. -/
structure CardAt (py : PyUnicode) (text before number after : List Char) : Prop where
  whole : text = before ++ number ++ after
  spaced : spaced py number
  ascii : ∀ c ∈ number, c.isDigit ∨ isSeparator c
  luhn : luhnOk py.toPyChars number = .ok true
  left : ∀ c ∈ before.getLast?, py.isWord c = false
  right : ∀ c ∈ after.head?, py.isWord c = false
  clear : ClearOfSsn py text before.length (before.length + number.length)

def CardsReported (py : PyUnicode) (text : String) : Prop :=
  ∀ before number after, CardAt py text.toList before number after →
    CardReported py.toPyChars text

/-- Where a card number stands, cutting the text into stretches from the left leaves one that is a
card. -/
def CardsCut (py : PyUnicode) (text : String) : Prop :=
  ∀ before number after, CardAt py text.toList before number after →
    ∃ s ∈ stretches py text.toList, IsCard py text.toList s

theorem spaced_inner {l : List Char} (h : spaced py l) :
    ∀ v x w, l = v ++ x :: w → isDecimal py x = false → isSeparator x ∧
      (∃ v' e, v = v' ++ [e] ∧ isDecimal py e) ∧ ∃ d w', w = d :: w' ∧ isDecimal py d := by
  fun_induction spaced py l with
  | case1 => cases h
  | case2 c =>
    intro v x w hl hx
    cases v with
    | nil =>
      cases hl
      rw [h] at hx
      cases hx
    | cons e v => simp at hl
  | case3 c d u ih1 ih2 =>
    rw [Bool.and_eq_true, Bool.or_eq_true, Bool.and_eq_true] at h
    obtain ⟨hc, h⟩ := h
    intro v x w hl hx
    cases v with
    | nil =>
      cases hl
      rw [hc] at hx
      cases hx
    | cons e v =>
      obtain ⟨rfl, htail⟩ := List.cons.inj hl
      rcases h with h | ⟨hd, h⟩
      · obtain ⟨hs, ⟨v', e, rfl, he⟩, hw⟩ := ih1 h v x w htail hx
        exact ⟨hs, ⟨c :: v', e, rfl, he⟩, hw⟩
      · cases v with
        | nil =>
          cases htail
          obtain ⟨⟨e, w', hu, he⟩, -⟩ := spaced_ends h
          exact ⟨hd, ⟨[], c, rfl, hc⟩, e, w', hu, he⟩
        | cons e v =>
          obtain ⟨rfl, hrest⟩ := List.cons.inj htail
          obtain ⟨hs, ⟨v', e, rfl, he⟩, hw⟩ := ih2 h v x w hrest hx
          exact ⟨hs, ⟨c :: d :: v', e, rfl, he⟩, hw⟩

structure Isolated (py : PyUnicode) (before after : List Char) : Prop where
  left : ∀ d s, [d, s] <:+ before → isSeparator s → isDecimal py d = false
  right : ∀ s d, [s, d] <+: after → isSeparator s → isDecimal py d = false

variable {text before number after : List Char}

theorem word_decimal {c : Char} (h : py.isWord c = false) : isDecimal py c = false := by
  by_contra hc
  have hword : py.isWord c = true := decimal_word (by simpa using hc)
  rw [h] at hword
  cases hword

theorem CardAt.numberText (h : CardAt py text before number after) : NumberText py number := by
  intro c hc
  rcases h.ascii c hc with hdigit | hs
  · exact .inl (by rw [py.decimal_ascii c hdigit]; rfl)
  · simp only [isSeparator, Bool.or_eq_true, decide_eq_true_eq] at hs
    rcases hs with rfl | rfl <;> simp

theorem CardAt.stretch (h : CardAt py text before number after) :
    isStretch py before.reverse number after := by
  have hluhn := h.luhn
  rw [h.numberText.luhnOk, Except.ok.injEq, decide_eq_true_eq] at hluhn
  have hcount : number.countP (isDecimal py) = (digitsOf py number).length := by
    rw [digitsOf, ← List.countP_eq_length_filter]
    apply List.countP_congr
    intro c hc
    exact ⟨fun hd => py.isDigit_decimal c hd, fun hd => h.numberText.decimal hc hd⟩
  have hleft : wordAt py before.reverse = false := by
    unfold wordAt
    rw [List.head?_reverse]
    cases hlast : before.getLast? with
    | none => rfl
    | some c => exact h.left c hlast
  have hright : wordAt py after = false := by
    unfold wordAt
    cases hhead : after.head? with
    | none => rfl
    | some c => exact h.right c hhead
  simp [isStretch, h.spaced, hcount, hluhn.1, hluhn.2.1, hleft, hright]

theorem CardAt.stretchAt (h : CardAt py text before number after) (hapart : Isolated py before after) :
    stretchAt py before.reverse (number ++ after) = some number := by
  cases hat : Compliance.stretchAt py before.reverse (number ++ after) with
  | none =>
    have hnone := stretchAt_none hat rfl
    rw [h.stretch] at hnone
    cases hnone
  | some u =>
    obtain ⟨⟨rest, hrest, hu⟩, hlongest⟩ := stretchAt_some hat
    have hle := hlongest number after rfl h.stretch
    obtain ⟨w, rfl⟩ : number <+: u :=
      List.prefix_of_prefix_length_le ⟨after, rfl⟩ ⟨rest, hrest.symm⟩ hle
    rw [List.append_assoc] at hrest
    have hafter : after = w ++ rest := List.append_cancel_left hrest
    cases w with
    | nil => rw [List.append_nil]
    | cons x w =>
      have hx := word_decimal (h.right x (by rw [hafter]; rfl))
      obtain ⟨hs, -, d, w', rfl, hd⟩ := spaced_inner (stretch_spaced hu).1 number x w rfl hx
      have hfar := hapart.right x d ⟨w' ++ rest, by rw [hafter]; rfl⟩ hs
      rw [hd] at hfar
      cases hfar

theorem isolated_mem (h : CardAt py text before number after) (hapart : Isolated py before after)
    (mid : List Char) {index skip : ℕ} (passed : List Char) (hpassed : passed.reverse ++ mid = before)
    (hindex : index = passed.length) (hskip : skip ≤ mid.length) :
    ⟨before.length, before.length + number.length, number⟩ ∈
      stretchesFrom py index skip passed (mid ++ (number ++ after)) := by
  induction mid generalizing index skip passed with
  | nil =>
    obtain rfl : skip = 0 := Nat.le_zero.mp hskip
    rw [List.append_nil] at hpassed
    have hat := h.stretchAt hapart
    rw [← hpassed, List.reverse_reverse] at hat
    obtain ⟨⟨d, w, hnumber, -⟩, -⟩ := spaced_ends h.spaced
    have hlength : before.length = index := by
      rw [← hpassed, List.length_reverse, hindex]
    rw [List.nil_append, hlength]
    rw [hnumber] at hat ⊢
    rw [List.cons_append] at hat ⊢
    simp only [stretchesFrom, hat]
    exact List.mem_cons_self
  | cons x mid ih =>
    have hnext : (x :: passed).reverse ++ mid = before := by
      rw [List.reverse_cons, List.append_assoc]
      exact hpassed
    have hindex' : index + 1 = (x :: passed).length := by
      rw [List.length_cons, hindex]
    cases skip with
    | succ skip => exact ih (x :: passed) hnext hindex' (Nat.le_of_succ_le_succ hskip)
    | zero =>
      rw [List.cons_append]
      cases hat : stretchAt py passed (x :: (mid ++ (number ++ after))) with
      | none =>
        simp only [stretchesFrom, hat]
        exact ih (x :: passed) hnext hindex' (Nat.zero_le _)
      | some u =>
        simp only [stretchesFrom, hat]
        apply List.mem_cons_of_mem
        apply ih (x :: passed) hnext hindex'
        by_contra hlong
        obtain ⟨⟨rest, hrest, hu⟩, -⟩ := stretchAt_some hat
        -- the stretch would reach over the last character before the number
        have hlong' : (x :: mid).length < u.length := by
          rw [List.length_cons]
          omega
        obtain ⟨w, rfl⟩ : x :: mid <+: u :=
          List.prefix_of_prefix_length_le ⟨number ++ after, rfl⟩ ⟨rest, hrest.symm⟩
            (Nat.le_of_lt hlong')
        obtain ⟨v, c, hv⟩ := List.eq_nil_or_concat (x :: mid) |>.resolve_left (List.cons_ne_nil x mid)
        have hlast : before.getLast? = some c := by
          rw [← hpassed, hv, List.concat_eq_append, ← List.append_assoc]
          exact List.getLast?_concat
        have hc := word_decimal (h.left c hlast)
        have hinner := spaced_inner (stretch_spaced hu).1 v c w
          (by rw [hv, List.concat_eq_append, List.append_assoc]; rfl) hc
        obtain ⟨hs, ⟨v', e, rfl, he⟩, -⟩ := hinner
        have hfar := hapart.left e c ⟨passed.reverse ++ v', by
          rw [← hpassed, hv]
          simp⟩ hs
        rw [he] at hfar
        cases hfar

theorem isolated_card_reported {text : String}
    (h : CardAt py text.toList before number after) (hapart : Isolated py before after) :
    CardReported py.toPyChars text := by
  have hmem := isolated_mem h hapart before [] rfl rfl (Nat.zero_le _)
  rw [← List.append_assoc, ← h.whole] at hmem
  exact (reported_iff_stretch text).mpr ⟨_, hmem, h.luhn, h.clear⟩

theorem cards_reported_iff (py : PyUnicode) (text : String) :
    (CardsReported py text ↔ CardsCut py text) ∧
      ∀ before number after, CardAt py text.toList before number after → Isolated py before after →
        CardReported py.toPyChars text := by
  constructor
  · unfold CardsReported CardsCut
    simp only [reported_iff_stretch]
  · intro before number after h hapart
    exact isolated_card_reported h hapart

/-- With `1 ` before it the first thirteen digits are taken together, and the card is passed over. -/
theorem preceded_card_unreported : ¬ ∀ text, CardsReported asciiUnicode text := by
  intro h
  have hcard : CardAt asciiUnicode "1 4111 1111 1111 1111".toList "1 ".toList
      "4111 1111 1111 1111".toList [] :=
    { whole := by decide
      spaced := by decide +kernel
      ascii := by
        have hall : ("4111 1111 1111 1111".toList.all fun c => c.isDigit || isSeparator c) = true := by
          decide +kernel
        intro c hc
        exact (Bool.or_eq_true _ _).mp (List.all_eq_true.mp hall c hc)
      luhn := by decide +kernel
      left := by
        intro c hc
        obtain rfl : ' ' = c := Option.some.inj hc
        decide
      right := nofun
      clear := by
        have hnone : findIter asciiUnicode.isWord (ssnPattern asciiUnicode.toPyChars)
            "1 4111 1111 1111 1111".toList = [] := by decide +kernel
        intro m hm
        rw [hnone] at hm
        cases hm }
  obtain ⟨findings, hfindings, f, hf, -⟩ := h "1 4111 1111 1111 1111" _ _ _ hcard
  have hnone : scanPii asciiChars "1 4111 1111 1111 1111" = .ok [] := by decide +kernel
  obtain rfl : [] = findings := Except.ok.inj (hnone.symm.trans hfindings)
  cases hf

end Stretches

end Workbench.Compliance
