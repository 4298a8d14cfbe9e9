import Workbench.SpacedDigits
import Mathlib.Data.List.Infix

namespace Workbench.Compliance

open PyJson Regexes

section Stretches

variable (py : PyUnicode)

def wordAt (cs : List Char) : Bool := cs.head?.any py.isWord

def isStretch (before u after : List Char) : Bool :=
  spaced py u && decide (13 ≤ u.countP (isDecimal py)) && decide (u.countP (isDecimal py) ≤ 16) &&
    !wordAt py before && !wordAt py after

def stretchAt (before after : List Char) : Option (List Char) :=
  after.inits.reverse.find? fun u => isStretch py before u (after.drop u.length)

def stretchesFrom : ℕ → ℕ → List Char → List Char → List (Match Char)
  | _, _, _, [] => []
  | index, skip + 1, before, x :: after => stretchesFrom (index + 1) skip (x :: before) after
  | index, 0, before, x :: after =>
    match stretchAt py before (x :: after) with
    | none => stretchesFrom (index + 1) 0 (x :: before) after
    | some u => ⟨index, index + u.length, u⟩ ::
        stretchesFrom (index + 1) (u.length - 1) (x :: before) after

def stretches (text : List Char) : List (Match Char) := stretchesFrom py 0 0 [] text

end Stretches

section Longest

theorem inits_pairwise {α : Type} (as : List α) :
    as.inits.Pairwise fun u v => u.length < v.length := by
  induction as with
  | nil => simp
  | cons a as ih =>
    rw [List.inits_cons, List.pairwise_cons, List.pairwise_map]
    constructor
    · intro u hu
      obtain ⟨v, -, rfl⟩ := List.mem_map.mp hu
      exact Nat.zero_lt_succ _
    · exact ih.imp fun h => Nat.succ_lt_succ h

variable {py : PyUnicode} {before after u : List Char}

theorem stretchAt_none (h : stretchAt py before after = none) {w rest : List Char}
    (hw : after = w ++ rest) : isStretch py before w rest = false := by
  have hmem : w ∈ after.inits.reverse :=
    List.mem_reverse.mpr ((List.mem_inits _ _).mpr ⟨rest, hw.symm⟩)
  have hnot := List.find?_eq_none.mp h w hmem
  rw [hw, List.drop_left] at hnot
  simpa using hnot

theorem stretchAt_some (h : stretchAt py before after = some u) :
    (∃ rest, after = u ++ rest ∧ isStretch py before u rest) ∧
      ∀ w rest, after = w ++ rest → isStretch py before w rest → w.length ≤ u.length := by
  obtain ⟨hu, longer, shorter, hlist, hlonger⟩ := List.find?_eq_some_iff_append.mp h
  have hmem : u ∈ after.inits.reverse := by
    rw [hlist]
    exact List.mem_append_right _ List.mem_cons_self
  obtain ⟨rest, hrest⟩ := (List.mem_inits _ _).mp (List.mem_reverse.mp hmem)
  constructor
  · rw [← hrest, List.drop_left] at hu
    exact ⟨rest, hrest.symm, hu⟩
  · intro w rest' hw hstretch
    have hwmem : w ∈ after.inits.reverse :=
      List.mem_reverse.mpr ((List.mem_inits _ _).mpr ⟨rest', hw.symm⟩)
    have hpairs := List.pairwise_reverse.mpr (inits_pairwise after)
    rw [hlist] at hwmem hpairs
    rcases List.mem_append.mp hwmem with hmem' | hmem'
    · have hnot := hlonger w hmem'
      rw [hw, List.drop_left, hstretch] at hnot
      cases hnot
    · rcases List.mem_cons.mp hmem' with rfl | hmem'
      · exact Nat.le_refl _
      · have htail := (List.pairwise_append.mp hpairs).2.1
        exact Nat.le_of_lt ((List.pairwise_cons.mp htail).1 w hmem')

theorem stretch_spaced {w rest : List Char} (h : isStretch py before w rest) :
    spaced py w ∧ 13 ≤ w.countP (isDecimal py) ∧ w.countP (isDecimal py) ≤ 16 ∧
      wordAt py before = false ∧ wordAt py rest = false := by
  unfold isStretch at h
  simpa [and_assoc] using h

theorem stretchAt_decimal (h : stretchAt py before after = some u) :
    ∃ d rest, after = d :: rest ∧ isDecimal py d := by
  obtain ⟨⟨rest, hrest, hstretch⟩, -⟩ := stretchAt_some h
  obtain ⟨⟨d, w, rfl, hd⟩, -⟩ := spaced_ends (stretch_spaced hstretch).1
  exact ⟨d, w ++ rest, hrest, hd⟩

end Longest

section CardEnds

variable {py : PyUnicode}

theorem filter_eq_flatMap {α : Type} (p : α → Bool) (as : List α) :
    as.filter p = as.flatMap fun a => if p a then [a] else [] := by
  induction as with
  | nil => rfl
  | cons a as ih =>
    rw [List.flatMap_cons, ← ih]
    by_cases ha : p a
    · rw [List.filter_cons_of_pos ha, if_pos ha]
      rfl
    · rw [List.filter_cons_of_neg ha, if_neg ha]
      rfl

theorem card_ends (a : Cursor Char) : ends py.isWord (creditCardPattern py.toPyChars) a =
    if atBoundary py.isWord a then
      (ends py.isWord ((unit py).times 3 13) a).filter (atBoundary py.isWord)
    else [] := by
  have hlast : ends py.isWord (.seq .boundary .empty) =
      fun c => if atBoundary py.isWord c then [c] else [] := by
    funext c
    change (if atBoundary py.isWord c then [c] else []).flatMap (fun e => [e]) = _
    split_ifs <;> rfl
  have hrest : ends py.isWord (.seq ((unit py).times 3 13) (.seq .boundary .empty)) a =
      (ends py.isWord ((unit py).times 3 13) a).filter (atBoundary py.isWord) := by
    change (ends py.isWord ((unit py).times 3 13) a).flatMap _ = _
    rw [hlast]
    exact (filter_eq_flatMap _ _).symm
  change (if atBoundary py.isWord a then [a] else []).flatMap
    (ends py.isWord (.seq ((unit py).times 3 13) (.seq .boundary .empty))) = _
  split_ifs
  · rw [List.flatMap_singleton, hrest]
  · rfl

theorem mem_card_ends {a b : Cursor Char} :
    b ∈ ends py.isWord (creditCardPattern py.toPyChars) a ↔
      atBoundary py.isWord a ∧ atBoundary py.isWord b ∧
        ∃ n u, (13 ≤ n ∧ n ≤ 16) ∧ Units py n u ∧ Moves a u b := by
  rw [card_ends]
  split_ifs with ha
  · rw [List.mem_filter, mem_ends_times]
    constructor
    · rintro ⟨hunits, hb⟩
      exact ⟨ha, hb, hunits⟩
    · rintro ⟨-, hb, hunits⟩
      exact ⟨hunits, hb⟩
  · simp [ha]

theorem card_ends_pairwise (a : Cursor Char) :
    (ends py.isWord (creditCardPattern py.toPyChars) a).Pairwise Longer := by
  rw [card_ends]
  split_ifs
  · exact ((times_descending 3 13).1 a).filter _
  · exact .nil

theorem boundary_eq (a : Cursor Char) :
    atBoundary py.isWord a = (wordAt py a.before != wordAt py a.after) := rfl

theorem moves_last {a b : Cursor Char} {u : List Char} {x : Char} (h : Moves a (u ++ [x]) b) :
    b.before.head? = some x := by
  rw [h.before, List.reverse_append]
  rfl

theorem end_stretch {a b : Cursor Char}
    (h : b ∈ ends py.isWord (creditCardPattern py.toPyChars) a) :
    ∃ u rest, a.after = u ++ rest ∧ isStretch py a.before u rest ∧
      (Moves a u b ∨ ∃ s, isSeparator s ∧ Moves a (u ++ [s]) b) := by
  obtain ⟨ha, hb, n, v, ⟨hlow, hhigh⟩, hunits, hmoves⟩ := mem_card_ends.mp h
  obtain ⟨k, rfl⟩ : ∃ k, n = k + 1 := ⟨n - 1, by omega⟩
  obtain ⟨u, hu, hcount, hv⟩ := trim_units hunits
  obtain ⟨⟨d, w, hhead, hd⟩, w', e, hlast, he⟩ := spaced_ends hu
  rw [boundary_eq] at ha hb
  obtain ⟨rest, hrest, hword⟩ : ∃ rest, a.after = u ++ rest ∧ wordAt py rest = false := by
    rcases hv with rfl | ⟨s, hs, rfl⟩
    · refine ⟨b.after, hmoves.after, ?_⟩
      rw [hlast] at hmoves
      have hbefore : wordAt py b.before = true := by
        rw [wordAt, moves_last hmoves]
        exact decimal_word he
      rw [hbefore] at hb
      simpa using hb
    · refine ⟨s :: b.after, ?_, separator_word hs⟩
      rw [hmoves.after, List.append_assoc]
      rfl
  have hfirst : wordAt py a.after = true := by
    rw [hrest, hhead]
    exact decimal_word hd
  have hbefore : wordAt py a.before = false := by
    rw [hfirst] at ha
    simpa using ha
  refine ⟨u, rest, hrest, ?_, ?_⟩
  · simp [isStretch, hu, hcount, hlow, hhigh, hbefore, hword]
  · rcases hv with rfl | ⟨s, hs, rfl⟩
    · exact .inl hmoves
    · exact .inr ⟨s, hs, hmoves⟩

theorem stretch_end {a : Cursor Char} {u rest : List Char} (hrest : a.after = u ++ rest)
    (h : isStretch py a.before u rest) :
    Cursor.pass a u ∈ ends py.isWord (creditCardPattern py.toPyChars) a := by
  obtain ⟨hu, hlow, hhigh, hbefore, hafter⟩ := stretch_spaced h
  obtain ⟨⟨d, w, hhead, hd⟩, w', e, hlast, he⟩ := spaced_ends hu
  have hmoves := moves_pass hrest
  have hfirst : wordAt py a.after = true := by
    rw [hrest, hhead]
    exact decimal_word hd
  have hend : wordAt py (Cursor.pass a u).before = true := by
    have hhead' : (Cursor.pass a u).before.head? = some e := by
      rw [hlast] at hmoves ⊢
      exact moves_last hmoves
    rw [wordAt, hhead']
    exact decimal_word he
  have hstop : wordAt py (Cursor.pass a u).after = false := by
    have hafter' : (Cursor.pass a u).after = rest := by rw [Cursor.pass, hrest, List.drop_left]
    rw [hafter', hafter]
  refine mem_card_ends.mpr ⟨?_, ?_, _, u, ⟨hlow, hhigh⟩, (units_of_spaced hu).1, hmoves⟩
  · rw [boundary_eq, hbefore, hfirst]
    rfl
  · rw [boundary_eq, hend, hstop]
    rfl

theorem card_first {a : Cursor Char} {u : List Char}
    (h : stretchAt py a.before a.after = some u) :
    ∃ b others, ends py.isWord (creditCardPattern py.toPyChars) a = b :: others ∧
      (Moves a u b ∨ ∃ s, isSeparator s ∧ Moves a (u ++ [s]) b) := by
  obtain ⟨⟨rest, hrest, hstretch⟩, hlongest⟩ := stretchAt_some h
  have hmem := stretch_end hrest hstretch
  have hpairs : (ends py.isWord (creditCardPattern py.toPyChars) a).Pairwise Longer :=
    card_ends_pairwise a
  cases hends : ends py.isWord (creditCardPattern py.toPyChars) a with
  | nil =>
    rw [hends] at hmem
    cases hmem
  | cons b others =>
    have hb : b ∈ ends py.isWord (creditCardPattern py.toPyChars) a := by
      rw [hends]
      exact List.mem_cons_self
    rw [hends] at hmem hpairs
    obtain ⟨w, rest', hrest', hw, hmoves⟩ := end_stretch hb
    have hshort := hlongest w rest' hrest' hw
    have hlengths := congrArg List.length (hrest.symm.trans hrest')
    rw [List.length_append, List.length_append] at hlengths
    have hreach : b.after.length ≤ rest.length := by
      have hpass : (Cursor.pass a u).after = rest := by rw [Cursor.pass, hrest, List.drop_left]
      rw [← hpass]
      rcases List.mem_cons.mp hmem with he | hmem
      · rw [he]
      · exact Nat.le_of_lt ((List.pairwise_cons.mp hpairs).1 _ hmem)
    have hsame : w.length = u.length → w = u := fun he =>
      (List.append_inj (hrest'.symm.trans hrest) he).1
    refine ⟨b, others, rfl, ?_⟩
    rcases hmoves with hmoves | ⟨s, hs, hmoves⟩
    · have hafter := congrArg List.length (hrest'.symm.trans hmoves.after)
      rw [List.length_append, List.length_append] at hafter
      rw [hsame (by omega)] at hmoves
      exact .inl hmoves
    · have hafter := congrArg List.length (hrest'.symm.trans hmoves.after)
      simp only [List.length_append, List.length_singleton] at hafter
      by_cases he : w.length = u.length
      · rw [hsame he] at hmoves
        exact .inr ⟨s, hs, hmoves⟩
      · -- one digit short of the stretch: the separator would be its last digit
        have hfull : w ++ [s] = u := by
          apply (List.append_inj (hmoves.after.symm.trans hrest) ?_).1
          simp only [List.length_append, List.length_singleton]
          omega
        obtain ⟨-, w', e, hlast, he'⟩ := spaced_ends (stretch_spaced hstretch).1
        have hse : s = e := (List.append_inj' (hfull.trans hlast) rfl).2 |> List.singleton_inj.mp
        rw [← hse, separator_decimal hs] at he'
        cases he'

theorem card_none {a : Cursor Char} (h : stretchAt py a.before a.after = none) :
    ends py.isWord (creditCardPattern py.toPyChars) a = [] := by
  rw [List.eq_nil_iff_forall_not_mem]
  intro b hb
  obtain ⟨u, rest, hrest, hstretch, -⟩ := end_stretch hb
  rw [stretchAt_none h hrest] at hstretch
  cases hstretch

end CardEnds

section Cut

variable {py : PyUnicode}

def Trims (m s : Match Char) : Prop :=
  m.start = s.start ∧ ((m.group = s.group ∧ m.stop = s.stop) ∨
    ∃ t, isSeparator t ∧ m.group = s.group ++ [t] ∧ m.stop = s.stop + 1)

theorem stretchAt_other {before after : List Char}
    (h : ∀ d ∈ after.head?, isDecimal py d = false) : stretchAt py before after = none := by
  cases hat : stretchAt py before after with
  | none => rfl
  | some u =>
    obtain ⟨d, rest, rfl, hd⟩ := stretchAt_decimal hat
    rw [h d rfl] at hd
    cases hd

theorem stretchesFrom_none {index : ℕ} {before after : List Char} {x : Char}
    (h : stretchAt py before (x :: after) = none) : stretchesFrom py index 0 before (x :: after) =
      stretchesFrom py (index + 1) 0 (x :: before) after := by
  simp only [stretchesFrom, h]

theorem stretchesFrom_skip (index : ℕ) {skip : ℕ} (before : List Char) {after : List Char} {s : Char}
    (h : (after.drop skip).head? = some s) (hs : isDecimal py s = false) :
    stretchesFrom py index skip before after = stretchesFrom py index (skip + 1) before after := by
  induction after generalizing index skip before with
  | nil => simp at h
  | cons x after ih =>
    cases skip with
    | zero =>
      have hother : ∀ d ∈ (x :: after).head?, isDecimal py d = false := by
        intro d hd
        cases h
        cases hd
        exact hs
      exact stretchesFrom_none (stretchAt_other hother)
    | succ skip => exact ih (index + 1) (x :: before) h

theorem matchesFrom_trims (index skip : ℕ) (before after : List Char) :
    List.Forall₂ Trims
      (matchesFrom py.isWord (creditCardPattern py.toPyChars) index skip before after)
      (stretchesFrom py index skip before after) := by
  induction after generalizing index skip before with
  | nil =>
    rw [matchesFrom, stretchesFrom]
    exact .nil
  | cons x after ih =>
    cases skip with
    | succ skip => exact ih (index + 1) skip (x :: before)
    | zero =>
      rw [matchesFrom, stretchesFrom]
      cases hat : stretchAt py before (x :: after) with
      | none =>
        rw [card_none (a := ⟨before, x :: after⟩) hat]
        exact ih (index + 1) 0 (x :: before)
      | some u =>
        obtain ⟨b, others, hends, hmoves⟩ := card_first (a := ⟨before, x :: after⟩) hat
        obtain ⟨⟨rest, hrest, hstretch⟩, -⟩ := stretchAt_some hat
        obtain ⟨⟨d, w, hu, hd⟩, -⟩ := spaced_ends (stretch_spaced hstretch).1
        rw [hends]
        rcases hmoves with hmoves | ⟨s, hs, hmoves⟩
        · have hgroup := take_moves hmoves
          have hlength : (x :: after).length - b.after.length = u.length := moved_length hmoves
          change List.Forall₂ Trims (⟨index, index + _, List.take _ _⟩ :: _) _
          simp only at hgroup
          rw [hgroup, hlength]
          exact .cons ⟨rfl, .inl ⟨rfl, rfl⟩⟩ (ih (index + 1) (u.length - 1) (x :: before))
        · have hgroup := take_moves hmoves
          have hlength : (x :: after).length - b.after.length = u.length + 1 :=
            (moved_length hmoves).trans (List.length_append ..)
          have hnext : (after.drop (u.length - 1)).head? = some s := by
            have hafter : x :: after = (d :: w ++ [s]) ++ b.after := hu ▸ hmoves.after
            have htail : after = w ++ s :: b.after := by
              rw [(List.cons.inj hafter).2]
              exact List.append_assoc w [s] b.after
            rw [hu, htail, List.length_cons, Nat.add_sub_cancel, List.drop_left]
            rfl
          have hother : isDecimal py s = false := separator_decimal hs
          have hskip := stretchesFrom_skip (index + 1) (x :: before) hnext hother
          have hpos : u.length - 1 + 1 = u.length := by
            rw [hu]
            rfl
          rw [hpos] at hskip
          change List.Forall₂ Trims (⟨index, index + _, List.take _ _⟩ :: _) (_ :: _)
          simp only at hgroup
          rw [hgroup, hlength, hskip]
          exact .cons ⟨rfl, .inr ⟨s, hs, rfl, rfl⟩⟩ (ih (index + 1) u.length (x :: before))

theorem findIter_trims (text : List Char) :
    List.Forall₂ Trims (findIter py.isWord (creditCardPattern py.toPyChars) text)
      (stretches py text) := matchesFrom_trims 0 0 [] text

end Cut

end Workbench.Compliance
