import Workbench.PiiExemplars

namespace Workbench.Compliance

open PyJson Regexes

section Spaced

variable (py : PyUnicode)

def isDecimal (c : Char) : Bool := (py.decimal c).isSome

def isSeparator (c : Char) : Bool := c = ' ' || c = '-'

def spaced : List Char → Bool
  | [] => false
  | [c] => isDecimal py c
  | c :: d :: u => isDecimal py c && (spaced (d :: u) || (isSeparator d && spaced u))

inductive Units : ℕ → List Char → Prop
  | nil : Units 0 []
  | digit {n : ℕ} {d : Char} {u : List Char} (hd : isDecimal py d) (hu : Units n u) :
      Units (n + 1) (d :: u)
  | apart {n : ℕ} {d s : Char} {u : List Char} (hd : isDecimal py d) (hs : isSeparator s)
      (hu : Units n u) : Units (n + 1) (d :: s :: u)

variable {py}

theorem separator_word {s : Char} (hs : isSeparator s) : py.isWord s = false := by
  simp only [isSeparator, Bool.or_eq_true, decide_eq_true_eq] at hs
  rcases hs with rfl | rfl <;> exact py.isWord_ascii _ (by decide)

theorem separator_decimal {s : Char} (hs : isSeparator s) : isDecimal py s = false := by
  by_contra h
  have hword := py.isWord_decimal s (by simpa [isDecimal, Option.isSome_iff_ne_none] using h)
  rw [separator_word hs] at hword
  cases hword

theorem decimal_word {d : Char} (hd : isDecimal py d) : py.isWord d = true := py.isWord_decimal d hd

theorem units_of_spaced {u : List Char} (h : spaced py u) : Units py (u.countP (isDecimal py)) u ∧
    ∀ s, isSeparator s → Units py (u.countP (isDecimal py)) (u ++ [s]) := by
  fun_induction spaced py u with
  | case1 => cases h
  | case2 c =>
    rw [List.countP_singleton, if_pos h]
    exact ⟨.digit h .nil, fun s hs => .apart h hs .nil⟩
  | case3 c d u ih1 ih2 =>
    rw [Bool.and_eq_true, Bool.or_eq_true, Bool.and_eq_true] at h
    obtain ⟨hc, h | ⟨hd, h⟩⟩ := h
    · rw [List.countP_cons_of_pos hc]
      exact ⟨.digit hc (ih1 h).1, fun s hs => .digit hc ((ih1 h).2 s hs)⟩
    · have hnot : ¬isDecimal py d := by simp [separator_decimal hd]
      rw [List.countP_cons_of_pos hc, List.countP_cons_of_neg hnot]
      exact ⟨.apart hc hd (ih2 h).1, fun s hs => .apart hc hd ((ih2 h).2 s hs)⟩

theorem spaced_cons {c : Char} {u : List Char} (hc : isDecimal py c) (h : spaced py u) :
    spaced py (c :: u) := by
  cases u with
  | nil => cases h
  | cons d u => simp [spaced, hc, h]

theorem spaced_apart {c s : Char} {u : List Char} (hc : isDecimal py c) (hs : isSeparator s)
    (h : spaced py u) : spaced py (c :: s :: u) := by
  simp [spaced, hc, hs, h]

theorem trim_units {n : ℕ} {v : List Char} (h : Units py (n + 1) v) :
    ∃ u, spaced py u ∧ u.countP (isDecimal py) = n + 1 ∧
      (v = u ∨ ∃ s, isSeparator s ∧ v = u ++ [s]) := by
  induction n generalizing v with
  | zero =>
    cases h with
    | @digit _ d _ hd hu =>
      cases hu
      exact ⟨[d], hd, by simp [hd], .inl rfl⟩
    | @apart _ d s _ hd hs hu =>
      cases hu
      exact ⟨[d], hd, by simp [hd], .inr ⟨s, hs, rfl⟩⟩
  | succ n ih =>
    cases h with
    | @digit _ d w hd hw =>
      obtain ⟨u, hu, hcount, hv⟩ := ih hw
      refine ⟨d :: u, spaced_cons hd hu, ?_, ?_⟩
      · rw [List.countP_cons_of_pos hd, hcount]
      · rcases hv with rfl | ⟨s, hs, rfl⟩
        · exact .inl rfl
        · exact .inr ⟨s, hs, rfl⟩
    | @apart _ d t w hd ht hw =>
      obtain ⟨u, hu, hcount, hv⟩ := ih hw
      have hnot : ¬isDecimal py t := by simp [separator_decimal ht]
      refine ⟨d :: t :: u, spaced_apart hd ht hu, ?_, ?_⟩
      · rw [List.countP_cons_of_pos hd, List.countP_cons_of_neg hnot, hcount]
      · rcases hv with rfl | ⟨s, hs, rfl⟩
        · exact .inl rfl
        · exact .inr ⟨s, hs, rfl⟩

theorem spaced_ends {u : List Char} (h : spaced py u) :
    (∃ d w, u = d :: w ∧ isDecimal py d) ∧ ∃ w d, u = w ++ [d] ∧ isDecimal py d := by
  fun_induction spaced py u with
  | case1 => cases h
  | case2 c => exact ⟨⟨c, [], rfl, h⟩, [], c, rfl, h⟩
  | case3 c d u ih1 ih2 =>
    rw [Bool.and_eq_true, Bool.or_eq_true, Bool.and_eq_true] at h
    obtain ⟨hc, h | ⟨hd, h⟩⟩ := h
    · obtain ⟨-, w, e, hw, he⟩ := ih1 h
      exact ⟨⟨c, _, rfl, hc⟩, c :: w, e, by rw [hw]; rfl, he⟩
    · obtain ⟨-, w, e, hw, he⟩ := ih2 h
      exact ⟨⟨c, _, rfl, hc⟩, c :: d :: w, e, by rw [hw]; rfl, he⟩

end Spaced

section Ends

variable {py : PyUnicode}

def Longer (b c : Cursor Char) : Prop := b.after.length < c.after.length

def unit (py : PyUnicode) : Regex Char := .seq (digit py.toPyChars) separator

theorem ends_unit_other {a : Cursor Char} (h : ∀ d ∈ a.after.head?, isDecimal py d = false) :
    ends py.isWord (unit py) a = [] := by
  obtain ⟨before, after⟩ := a
  cases after with
  | nil => rfl
  | cons d after =>
    have hd : (py.decimal d).isSome = false := h d rfl
    simp [unit, digit, ends, hd]

theorem ends_unit_plain {before after : List Char} {d : Char} (hd : isDecimal py d)
    (h : ∀ s ∈ after.head?, isSeparator s = false) :
    ends py.isWord (unit py) ⟨before, d :: after⟩ = [⟨d :: before, after⟩] := by
  have hd' : (py.decimal d).isSome = true := hd
  cases after with
  | nil => simp [unit, digit, separator, ends, hd']
  | cons s after =>
    have hs : ¬(s = ' ' ∨ s = '-') := by simpa [isSeparator] using h s rfl
    simp [unit, digit, separator, ends, hd', if_neg hs]

theorem ends_unit_apart {before after : List Char} {d s : Char} (hd : isDecimal py d)
    (hs : isSeparator s) : ends py.isWord (unit py) ⟨before, d :: s :: after⟩ =
      [⟨s :: d :: before, after⟩, ⟨d :: before, s :: after⟩] := by
  have hd' : (py.decimal d).isSome = true := hd
  have hs' : s = ' ' ∨ s = '-' := by simpa [isSeparator] using hs
  simp [unit, digit, separator, ends, hd', if_pos hs']

theorem ends_longer {r : Regex Char} {a b : Cursor Char} (h : b ∈ ends py.isWord r a) :
    b.after.length ≤ a.after.length := by
  obtain ⟨u, hu, -⟩ := ends_moves h
  rw [hu.after, List.length_append]
  omega

def Stuck (py : PyUnicode) (r : Regex Char) : Prop :=
  ∀ c : Cursor Char, (∀ d ∈ c.after.head?, isDecimal py d = false) →
    ends py.isWord r c = [] ∨ ends py.isWord r c = [c]

def Descending (py : PyUnicode) (r : Regex Char) : Prop :=
  ∀ a, (ends py.isWord r a).Pairwise Longer

theorem flatMap_unit_stuck (r : Regex Char) {c : Cursor Char}
    (h : ∀ d ∈ c.after.head?, isDecimal py d = false) :
    (ends py.isWord (unit py) c).flatMap (ends py.isWord r) = [] := by
  rw [ends_unit_other h]
  rfl

theorem flatMap_unit {r : Regex Char} (hr : Descending py r) (hstuck : Stuck py r)
    (a : Cursor Char) : ((ends py.isWord (unit py) a).flatMap (ends py.isWord r)).Pairwise Longer ∧
      ∀ b ∈ (ends py.isWord (unit py) a).flatMap (ends py.isWord r), Longer b a := by
  by_cases hnone : ∀ d ∈ a.after.head?, isDecimal py d = false
  · rw [flatMap_unit_stuck r hnone]
    simp
  obtain ⟨before, after⟩ := a
  cases after with
  | nil => simp at hnone
  | cons d after =>
    have hd : isDecimal py d := by simpa using hnone
    by_cases hplain : ∀ s ∈ after.head?, isSeparator s = false
    · rw [ends_unit_plain hd hplain, List.flatMap_singleton]
      refine ⟨hr _, fun b hb => ?_⟩
      have hle : b.after.length ≤ after.length := ends_longer hb
      simp only [Longer, List.length_cons]
      omega
    cases after with
    | nil => simp at hplain
    | cons s after =>
      have hs : isSeparator s := by simpa using hplain
      have hstop : ∀ c ∈ (s :: after).head?, isDecimal py c = false := by
        rintro c hc
        cases hc
        exact separator_decimal hs
      have hfirst : ∀ b ∈ ends py.isWord r ⟨s :: d :: before, after⟩,
          b.after.length ≤ after.length := fun b hb => ends_longer hb
      have hsecond : ∀ b ∈ ends py.isWord r ⟨d :: before, s :: after⟩,
          b = ⟨d :: before, s :: after⟩ := by
        intro b hb
        rcases hstuck ⟨d :: before, s :: after⟩ hstop with he | he
        · rw [he] at hb
          cases hb
        · rw [he] at hb
          exact List.mem_singleton.mp hb
      rw [ends_unit_apart hd hs, List.flatMap_cons, List.flatMap_singleton]
      constructor
      · rw [List.pairwise_append]
        refine ⟨hr _, hr _, fun b hb c hc => ?_⟩
        have hle := hfirst b hb
        rw [hsecond c hc]
        simp only [Longer, List.length_cons]
        omega
      · intro b hb
        rcases List.mem_append.mp hb with hb | hb
        · have hle := hfirst b hb
          simp only [Longer, List.length_cons]
          omega
        · rw [hsecond b hb]
          simp only [Longer, List.length_cons]
          omega

theorem upTo_descending (most : ℕ) :
    Descending py ((unit py).upTo most) ∧ Stuck py ((unit py).upTo most) := by
  induction most with
  | zero => exact ⟨fun a => List.pairwise_singleton _ a, fun c _ => .inr rfl⟩
  | succ most ih =>
    have hends : ∀ a, ends py.isWord ((unit py).upTo (most + 1)) a =
        (ends py.isWord (unit py) a).flatMap (ends py.isWord ((unit py).upTo most)) ++ [a] :=
      fun _ => rfl
    constructor
    · intro a
      obtain ⟨hpairs, hlonger⟩ := flatMap_unit ih.1 ih.2 a
      rw [hends, List.pairwise_append]
      refine ⟨hpairs, List.pairwise_singleton _ a, fun b hb c hc => ?_⟩
      rw [List.mem_singleton.mp hc]
      exact hlonger b hb
    · intro c hc
      rw [hends, flatMap_unit_stuck _ hc]
      exact .inr rfl

theorem times_descending (more least : ℕ) :
    Descending py ((unit py).times more least) ∧ Stuck py ((unit py).times more least) := by
  induction least with
  | zero => exact upTo_descending more
  | succ least ih =>
    have hends : ∀ a, ends py.isWord ((unit py).times more (least + 1)) a =
        (ends py.isWord (unit py) a).flatMap (ends py.isWord ((unit py).times more least)) :=
      fun _ => rfl
    constructor
    · intro a
      rw [hends]
      exact (flatMap_unit ih.1 ih.2 a).1
    · intro c hc
      rw [hends, flatMap_unit_stuck _ hc]
      exact .inl rfl

theorem moves_cons {a b : Cursor Char} {x : Char} {u : List Char} (h : Moves a (x :: u) b) :
    ∃ after, a.after = x :: after ∧ Moves ⟨x :: a.before, after⟩ u b := by
  refine ⟨u ++ b.after, h.after, rfl, ?_⟩
  rw [h.before, List.reverse_cons, List.append_assoc]
  rfl

theorem moves_nil {a b : Cursor Char} (h : Moves a [] b) : b = a := by
  obtain ⟨before, after⟩ := a
  obtain ⟨before', after'⟩ := b
  obtain ⟨hafter, hbefore⟩ := h
  simp only [List.nil_append, List.reverse_nil] at hafter hbefore
  rw [hafter, hbefore]

theorem moves_prepend {before after : List Char} {b : Cursor Char} {x : Char} {u : List Char}
    (h : Moves ⟨x :: before, after⟩ u b) : Moves ⟨before, x :: after⟩ (x :: u) b := by
  obtain ⟨hafter, hbefore⟩ := h
  constructor
  · rw [List.cons_append, ← hafter]
  · rw [hbefore, List.reverse_cons, List.append_assoc]
    rfl

theorem mem_ends_unit {a c : Cursor Char} : c ∈ ends py.isWord (unit py) a ↔
    ∃ d, isDecimal py d ∧ (Moves a [d] c ∨ ∃ s, isSeparator s ∧ Moves a [d, s] c) := by
  by_cases hnone : ∀ d ∈ a.after.head?, isDecimal py d = false
  · rw [ends_unit_other hnone]
    constructor
    · intro h
      cases h
    · rintro ⟨d, hd, hmoves⟩
      have hhead : a.after.head? = some d := by
        rcases hmoves with h | ⟨s, -, h⟩
        · rw [h.after]
          rfl
        · rw [h.after]
          rfl
      rw [hnone d hhead] at hd
      cases hd
  obtain ⟨before, after⟩ := a
  cases after with
  | nil => simp at hnone
  | cons d after =>
    have hd : isDecimal py d := by simpa using hnone
    have hfirst : ∀ e w, Moves ⟨before, d :: after⟩ (e :: w) c → Moves ⟨d :: before, after⟩ w c := by
      intro e w h
      obtain ⟨after', he, h'⟩ := moves_cons h
      cases he
      exact h'
    by_cases hplain : ∀ s ∈ after.head?, isSeparator s = false
    · rw [ends_unit_plain hd hplain, List.mem_singleton]
      constructor
      · rintro rfl
        exact ⟨d, hd, .inl (moves_prepend (.nil _))⟩
      · rintro ⟨e, -, h | ⟨s, hs, h⟩⟩
        · exact moves_nil (hfirst e [] h)
        · have hnext := (hfirst e [s] h).after
          change after = _ at hnext
          rw [hplain s (by rw [hnext]; rfl)] at hs
          cases hs
    cases after with
    | nil => simp at hplain
    | cons s after =>
      have hs : isSeparator s := by simpa using hplain
      rw [ends_unit_apart hd hs, List.mem_cons, List.mem_singleton]
      constructor
      · rintro (rfl | rfl)
        · exact ⟨d, hd, .inr ⟨s, hs, moves_prepend (moves_prepend (.nil _))⟩⟩
        · exact ⟨d, hd, .inl (moves_prepend (.nil _))⟩
      · rintro ⟨e, -, h | ⟨t, -, h⟩⟩
        · exact .inr (moves_nil (hfirst e [] h))
        · obtain ⟨after', he, h'⟩ := moves_cons (hfirst e [t] h)
          cases he
          exact .inl (moves_nil h')

theorem moves_append {a b c : Cursor Char} {u v : List Char} (h : Moves a u c)
    (k : Moves a (u ++ v) b) : Moves c v b := by
  constructor
  · have hsame : u ++ c.after = u ++ (v ++ b.after) := by
      rw [← h.after, k.after, List.append_assoc]
    exact List.append_cancel_left hsame
  · rw [k.before, h.before, List.reverse_append, List.append_assoc]

def Cursor.pass (a : Cursor Char) (u : List Char) : Cursor Char :=
  ⟨u.reverse ++ a.before, a.after.drop u.length⟩

theorem moves_pass {a : Cursor Char} {u rest : List Char} (h : a.after = u ++ rest) :
    Moves a u (Cursor.pass a u) := by
  constructor
  · rw [Cursor.pass, h, List.drop_left]
  · rfl

theorem mem_unit_flatMap {r : Regex Char} {a b : Cursor Char} {P : ℕ → Prop}
    (hr : ∀ c, b ∈ ends py.isWord r c ↔ ∃ n u, P n ∧ Units py n u ∧ Moves c u b) :
    b ∈ (ends py.isWord (unit py) a).flatMap (ends py.isWord r) ↔
      ∃ n u, P n ∧ Units py (n + 1) u ∧ Moves a u b := by
  rw [List.mem_flatMap]
  constructor
  · rintro ⟨c, hc, hb⟩
    obtain ⟨n, u, hn, hu, hmoves⟩ := (hr c).mp hb
    obtain ⟨d, hd, hfirst | ⟨s, hs, hfirst⟩⟩ := mem_ends_unit.mp hc
    · exact ⟨n, [d] ++ u, hn, .digit hd hu, hfirst.append hmoves⟩
    · exact ⟨n, [d, s] ++ u, hn, .apart hd hs hu, hfirst.append hmoves⟩
  · rintro ⟨n, u, hn, hu, hmoves⟩
    cases hu with
    | @digit _ d w hd hw =>
      have hpass := moves_pass (a := a) (u := [d]) hmoves.after
      exact ⟨_, mem_ends_unit.mpr ⟨d, hd, .inl hpass⟩,
        (hr _).mpr ⟨n, w, hn, hw, moves_append hpass hmoves⟩⟩
    | @apart _ d s w hd hs hw =>
      have hpass := moves_pass (a := a) (u := [d, s]) hmoves.after
      exact ⟨_, mem_ends_unit.mpr ⟨d, hd, .inr ⟨s, hs, hpass⟩⟩,
        (hr _).mpr ⟨n, w, hn, hw, moves_append hpass hmoves⟩⟩

theorem mem_ends_upTo {most : ℕ} {a b : Cursor Char} :
    b ∈ ends py.isWord ((unit py).upTo most) a ↔ ∃ n u, n ≤ most ∧ Units py n u ∧ Moves a u b := by
  induction most generalizing a with
  | zero =>
    change b ∈ [a] ↔ _
    rw [List.mem_singleton]
    constructor
    · rintro rfl
      exact ⟨0, [], Nat.le_refl 0, .nil, .nil b⟩
    · rintro ⟨n, u, hn, hu, hmoves⟩
      obtain rfl : n = 0 := Nat.le_zero.mp hn
      cases hu
      exact moves_nil hmoves
  | succ most ih =>
    change b ∈ (ends py.isWord (unit py) a).flatMap _ ++ [a] ↔ _
    rw [List.mem_append, List.mem_singleton, mem_unit_flatMap (P := fun n => n ≤ most) fun c => ih]
    constructor
    · rintro (⟨n, u, hn, hu, hmoves⟩ | rfl)
      · exact ⟨n + 1, u, by omega, hu, hmoves⟩
      · exact ⟨0, [], Nat.zero_le _, .nil, .nil b⟩
    · rintro ⟨n, u, hn, hu, hmoves⟩
      cases n with
      | zero =>
        cases hu
        exact .inr (moves_nil hmoves)
      | succ n => exact .inl ⟨n, u, by omega, hu, hmoves⟩

theorem mem_ends_times {more least : ℕ} {a b : Cursor Char} :
    b ∈ ends py.isWord ((unit py).times more least) a ↔
      ∃ n u, (least ≤ n ∧ n ≤ least + more) ∧ Units py n u ∧ Moves a u b := by
  induction least generalizing a with
  | zero =>
    change b ∈ ends py.isWord ((unit py).upTo more) a ↔ _
    rw [mem_ends_upTo]
    simp
  | succ least ih =>
    change b ∈ (ends py.isWord (unit py) a).flatMap _ ↔ _
    rw [mem_unit_flatMap (P := fun n => least ≤ n ∧ n ≤ least + more) fun c => ih]
    constructor
    · rintro ⟨n, u, hn, hu, hmoves⟩
      exact ⟨n + 1, u, by omega, hu, hmoves⟩
    · rintro ⟨n, u, hn, hu, hmoves⟩
      cases n with
      | zero => omega
      | succ n => exact ⟨n, u, by omega, hu, hmoves⟩

end Ends

end Workbench.Compliance
