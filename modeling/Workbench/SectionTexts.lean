import Workbench.Chunking
import Mathlib.Data.List.Forall2
import Mathlib.Data.List.Infix

namespace Workbench.Rag

open PyText

section Headings

/-- A line begins after `pre`, with one to six hashes and a blank. -/
def HeadingAfter (pre post : List Char) : Prop :=
  (pre = [] ∨ pre.getLast? = some '\n') ∧
    ∃ n, 1 ≤ n ∧ n ≤ 6 ∧ List.replicate n '#' ++ [' '] <+: post

structure Sectioned (text : List Char) (sections : List (List Char)) : Prop where
  whole : sections.flatten = text
  proper : text ≠ [] → ∀ part ∈ sections, part ≠ []
  heads : ∀ front part back, sections = front ++ part :: back → front ≠ [] →
    HeadingAfter front.flatten (part :: back).flatten
  cuts : ∀ pre post, text = pre ++ post → HeadingAfter pre post →
    ∃ front back, sections = front ++ back ∧ front.flatten = pre

theorem takeWhile_hashes (n : ℕ) (rest : List Char) :
    (List.replicate n '#' ++ ' ' :: rest).takeWhile (fun c => decide (c = '#')) =
      List.replicate n '#' := by
  induction n with
  | zero => rfl
  | succ n ih =>
    rw [List.replicate_succ, List.cons_append, List.takeWhile_cons_of_pos (by decide), ih]

theorem isHeading_iff {line : List Char} :
    isHeading line = true ↔ ∃ n, 1 ≤ n ∧ n ≤ 6 ∧ List.replicate n '#' ++ [' '] <+: line := by
  unfold isHeading
  simp only [Bool.and_eq_true, decide_eq_true_eq]
  constructor
  · rintro ⟨⟨hone, hsix⟩, hblank⟩
    refine ⟨_, hone, hsix, ?_⟩
    obtain ⟨rest, hrest⟩ := List.head?_eq_some_iff.mp hblank
    have hhashes : line.takeWhile (fun c => decide (c = '#')) =
        List.replicate (line.takeWhile fun c => decide (c = '#')).length '#' := by
      apply List.eq_replicate_of_mem
      intro c hc
      have hhash := List.mem_takeWhile_imp hc
      exact of_decide_eq_true hhash
    refine ⟨rest, ?_⟩
    rw [← hhashes, List.append_assoc]
    change _ ++ ' ' :: rest = line
    rw [← hrest]
    exact List.prefix_iff_eq_append.mp (List.takeWhile_prefix _)
  · rintro ⟨n, hone, hsix, rest, rfl⟩
    rw [List.append_assoc, List.singleton_append, takeWhile_hashes, List.length_replicate,
      List.drop_left' List.length_replicate]
    exact ⟨⟨hone, hsix⟩, rfl⟩

theorem mem_headingStarts {fresh : Bool} {index i : ℕ} {text : List Char} :
    i ∈ headingStarts fresh index text ↔ ∃ pre post, text = pre ++ post ∧ i = index + pre.length ∧
      (if pre = [] then fresh = true else pre.getLast? = some '\n') ∧ isHeading post = true := by
  induction text generalizing fresh index with
  | nil =>
    apply iff_of_false List.not_mem_nil
    rintro ⟨pre, post, heq, -, -, hpost⟩
    obtain ⟨rfl, rfl⟩ := List.append_eq_nil_iff.mp heq.symm
    cases hpost
  | cons c text ih =>
    rw [headingStarts, List.mem_append, ih]
    constructor
    · rintro (h | ⟨pre, post, rfl, rfl, hline, hpost⟩)
      · split_ifs at h with hhead
        · rw [Bool.and_eq_true] at hhead
          exact ⟨[], c :: text, rfl, by rw [List.mem_singleton.mp h]; rfl, hhead.1, hhead.2⟩
        · cases h
      · refine ⟨c :: pre, post, rfl, by rw [List.length_cons]; omega, ?_, hpost⟩
        rw [if_neg (List.cons_ne_nil _ _)]
        by_cases hpre : pre = []
        · rw [if_pos hpre, decide_eq_true_eq] at hline
          rw [hpre, hline]
          rfl
        · rw [if_neg hpre] at hline
          rw [List.getLast?_cons_of_ne_nil hpre, hline]
    · rintro ⟨pre, post, heq, rfl, hline, hpost⟩
      cases pre with
      | nil =>
        left
        rw [if_pos rfl] at hline
        have hhead : isHeading (c :: text) = true := by
          rw [heq]
          exact hpost
        rw [hline, hhead]
        exact List.mem_singleton_self _
      | cons d pre =>
        obtain ⟨rfl, rfl⟩ := List.cons.inj heq
        right
        rw [if_neg (List.cons_ne_nil _ _)] at hline
        refine ⟨pre, post, rfl, by rw [List.length_cons]; omega, ?_, hpost⟩
        split_ifs with hpre
        · rw [hpre] at hline
          exact decide_eq_true (Option.some.inj hline)
        · rwa [List.getLast?_cons_of_ne_nil hpre] at hline

theorem mem_headingStarts_iff {i : ℕ} {text : List Char} :
    i ∈ headingStarts true 0 text ↔
      ∃ pre post, text = pre ++ post ∧ pre.length = i ∧ HeadingAfter pre post := by
  rw [mem_headingStarts]
  constructor
  · rintro ⟨pre, post, rfl, rfl, hline, hpost⟩
    refine ⟨pre, post, rfl, (Nat.zero_add _).symm, ?_, isHeading_iff.mp hpost⟩
    by_cases hpre : pre = []
    · exact .inl hpre
    · rw [if_neg hpre] at hline
      exact .inr hline
  · rintro ⟨pre, post, rfl, rfl, hline, hpost⟩
    refine ⟨pre, post, rfl, (Nat.zero_add _).symm, ?_, isHeading_iff.mpr hpost⟩
    split_ifs with hpre
    · rfl
    · exact hline.resolve_left hpre

theorem headingStarts_bounds {fresh : Bool} {index : ℕ} {text : List Char} {i : ℕ}
    (h : i ∈ headingStarts fresh index text) : index ≤ i ∧ i < index + text.length := by
  obtain ⟨pre, post, rfl, rfl, -, hpost⟩ := mem_headingStarts.mp h
  have hpos : 0 < post.length := by
    apply List.length_pos_iff.mpr
    rintro rfl
    cases hpost
  rw [List.length_append]
  omega

theorem headingStarts_pairwise (fresh : Bool) (index : ℕ) (text : List Char) :
    (headingStarts fresh index text).Pairwise (· < ·) := by
  induction text generalizing fresh index with
  | nil => exact List.Pairwise.nil
  | cons c text ih =>
    rw [headingStarts, List.pairwise_append]
    refine ⟨?_, ih _ _, ?_⟩
    · split_ifs
      · exact List.pairwise_singleton _ _
      · exact List.Pairwise.nil
    · intro i hi j hj
      have hlater := headingStarts_bounds hj
      split_ifs at hi
      · rw [List.mem_singleton.mp hi]
        omega
      · cases hi

theorem slice_append (text : List Char) {a b c : ℕ} (hab : a ≤ b) (hbc : b ≤ c) :
    slice text a b ++ slice text b c = slice text a c := by
  have hfirst : (text.take b).drop a = ((text.take c).drop a).take (b - a) := by
    rw [List.take_drop, List.take_take, Nat.add_sub_cancel' hab, Nat.min_eq_left hbc]
  have hsecond : (text.take c).drop b = ((text.take c).drop a).drop (b - a) := by
    rw [List.drop_drop, Nat.add_sub_cancel' hab]
  unfold slice
  rw [hfirst, hsecond]
  exact List.take_append_drop _ _

theorem slice_all (text : List Char) : slice text 0 text.length = text := by
  rw [slice, List.take_length, List.drop_zero]

theorem slice_left (pre post : List Char) : slice (pre ++ post) 0 pre.length = pre := by
  rw [slice, List.take_left, List.drop_zero]

def slicesTo (text : List Char) (b : ℕ) : ℕ → List ℕ → List (List Char)
  | a, [] => [slice text a b]
  | a, c :: places => slice text a c :: slicesTo text b c places

theorem map_zip_slices (text : List Char) (a b : ℕ) (places : List ℕ) :
    (((a :: places ++ [b]).zip (places ++ [b])).map fun s => slice text s.1 s.2) =
      slicesTo text b a places := by
  induction places generalizing a with
  | nil => rfl
  | cons c places ih => exact congrArg (slice text a c :: ·) (ih c)

theorem ordered_tail {a b c : ℕ} {places : List ℕ}
    (h : (a :: (c :: places) ++ [b]).Pairwise (· < ·)) :
    a < c ∧ (c :: places ++ [b]).Pairwise (· < ·) ∧ c < b ∧ ∀ d ∈ places, c < d := by
  obtain ⟨hfirst, hrest⟩ := List.pairwise_cons.mp h
  have hlater := (List.pairwise_cons.mp hrest).1
  refine ⟨hfirst c List.mem_cons_self, hrest, ?_, ?_⟩
  · exact hlater b (List.mem_append_right _ List.mem_cons_self)
  · exact fun d hd => hlater d (List.mem_append_left _ hd)

variable {text : List Char} {a b : ℕ} {places : List ℕ}

theorem flatten_slicesTo (h : (a :: places ++ [b]).Pairwise (· < ·)) :
    (slicesTo text b a places).flatten = slice text a b := by
  induction places generalizing a with
  | nil => exact List.append_nil _
  | cons c places ih =>
    obtain ⟨hac, hrest, hcb, -⟩ := ordered_tail h
    rw [slicesTo, List.flatten_cons, ih hrest, slice_append text hac.le hcb.le]

theorem slicesTo_proper (h : (a :: places ++ [b]).Pairwise (· < ·)) (hb : b ≤ text.length) :
    ∀ part ∈ slicesTo text b a places, part ≠ [] := by
  have hslice : ∀ {i j : ℕ}, i < j → j ≤ text.length → slice text i j ≠ [] := by
    intro i j hij hj hnil
    have hlen := congrArg List.length hnil
    rw [slice, List.length_drop, List.length_take, List.length_nil] at hlen
    omega
  induction places generalizing a with
  | nil =>
    intro part hpart
    have hab : a < b := (List.pairwise_cons.mp h).1 b List.mem_cons_self
    rw [List.mem_singleton.mp hpart]
    exact hslice hab hb
  | cons c places ih =>
    obtain ⟨hac, hrest, hcb, -⟩ := ordered_tail h
    intro part hpart
    rcases List.mem_cons.mp hpart with rfl | hpart
    · exact hslice hac (hcb.le.trans hb)
    · exact ih hrest part hpart

theorem slicesTo_front (h : (a :: places ++ [b]).Pairwise (· < ·)) {front back : List (List Char)}
    {part : List Char} (heq : slicesTo text b a places = front ++ part :: back) :
    front = [] ∨ ∃ c ∈ places, front.flatten = slice text a c := by
  induction places generalizing a front with
  | nil =>
    cases front with
    | nil => exact .inl rfl
    | cons first front =>
      have hlen := congrArg List.length heq
      simp [slicesTo] at hlen
  | cons c places ih =>
    cases front with
    | nil => exact .inl rfl
    | cons first front =>
      obtain ⟨hac, hrest, -, hlater⟩ := ordered_tail h
      obtain ⟨rfl, htail⟩ := List.cons.inj heq
      right
      rcases ih hrest htail with rfl | ⟨d, hd, hflat⟩
      · exact ⟨c, List.mem_cons_self, List.append_nil _⟩
      · refine ⟨d, List.mem_cons_of_mem c hd, ?_⟩
        rw [List.flatten_cons, hflat, slice_append text hac.le (hlater d hd).le]

theorem slicesTo_cut (text : List Char) (h : (a :: places ++ [b]).Pairwise (· < ·)) {c : ℕ}
    (hc : c ∈ places) :
    ∃ front back, slicesTo text b a places = front ++ back ∧ front.flatten = slice text a c := by
  induction places generalizing a with
  | nil => cases hc
  | cons d places ih =>
    obtain ⟨had, hrest, -, hlater⟩ := ordered_tail h
    rcases List.mem_cons.mp hc with rfl | hc
    · exact ⟨[slice text a c], slicesTo text b c places, rfl, List.append_nil _⟩
    · obtain ⟨front, back, heq, hflat⟩ := ih hrest hc
      refine ⟨slice text a d :: front, back, by rw [slicesTo, heq]; rfl, ?_⟩
      rw [List.flatten_cons, hflat, slice_append text had.le (hlater c hc).le]

def cutPlaces (text : List Char) : List ℕ := (headingStarts true 0 text).filter (· ≠ 0)

theorem splitSections_eq (text : List Char) :
    splitSections text = slicesTo text text.length 0 (cutPlaces text) := by
  have hsorted := headingStarts_pairwise true 0 text
  unfold splitSections cutPlaces
  split
  · rename_i heq
    rw [heq]
    exact congrArg (· :: []) (slice_all text).symm
  · rename_i start starts heq
    rw [heq] at hsorted ⊢
    have hrest : starts.filter (· ≠ 0) = starts := by
      apply List.filter_eq_self.mpr
      intro i hi
      have hlater := (List.pairwise_cons.mp hsorted).1 i hi
      exact decide_eq_true (by omega)
    by_cases hzero : start = 0
    · rw [List.filter_cons_of_neg (by simp [hzero]), hrest, hzero]
      exact map_zip_slices text 0 text.length starts
    · rw [List.filter_cons_of_pos (by simp [hzero]), hrest, if_pos hzero]
      exact map_zip_slices text 0 text.length (start :: starts)

theorem cutPlaces_ordered (hne : text ≠ []) :
    (0 :: cutPlaces text ++ [text.length]).Pairwise (· < ·) := by
  have hplace : ∀ i ∈ cutPlaces text, 0 < i ∧ i < text.length := by
    intro i hi
    obtain ⟨hmem, hpos⟩ := List.mem_filter.mp hi
    have hbounds := headingStarts_bounds hmem
    exact ⟨Nat.pos_of_ne_zero (of_decide_eq_true hpos), by omega⟩
  rw [List.cons_append, List.pairwise_cons, List.pairwise_append]
  refine ⟨?_, (headingStarts_pairwise true 0 text).filter _, List.pairwise_singleton _ _, ?_⟩
  · intro i hi
    rcases List.mem_append.mp hi with hi | hi
    · exact (hplace i hi).1
    · rw [List.mem_singleton.mp hi]
      exact List.length_pos_iff.mpr hne
  · intro i hi j hj
    rw [List.mem_singleton.mp hj]
    exact (hplace i hi).2

theorem sectioned_splitSections (text : List Char) : Sectioned text (splitSections text) := by
  by_cases hne : text = []
  · rw [hne]
    refine ⟨rfl, fun h => absurd rfl h, ?_, ?_⟩
    · intro front part back heq hfront
      have hlen := congrArg List.length heq
      have hpos := List.length_pos_iff.mpr hfront
      rw [List.length_append, List.length_cons] at hlen
      change 1 = _ at hlen
      omega
    · intro pre post heq _
      obtain ⟨rfl, -⟩ := List.append_eq_nil_iff.mp heq.symm
      exact ⟨[], _, rfl, rfl⟩
  · have hordered := cutPlaces_ordered hne
    have hwhole : (splitSections text).flatten = text := by
      rw [splitSections_eq, flatten_slicesTo hordered, slice_all]
    refine ⟨hwhole, ?_, ?_, ?_⟩
    · intro _
      rw [splitSections_eq]
      exact slicesTo_proper hordered le_rfl
    · intro front part back heq hfront
      have hcut := heq
      rw [splitSections_eq] at hcut
      obtain ⟨c, hc, hflat⟩ := (slicesTo_front hordered hcut).resolve_left hfront
      obtain ⟨pre, post, htext, rfl, hheading⟩ :=
        mem_headingStarts_iff.mp (List.mem_filter.mp hc).1
      rw [htext, slice_left] at hflat
      have hsame : pre ++ (part :: back).flatten = pre ++ post := by
        rw [← hflat, ← List.flatten_append, ← heq, hwhole, htext, hflat]
      rw [hflat, List.append_cancel_left hsame]
      exact hheading
    · intro pre post htext hheading
      by_cases hpre : pre = []
      · exact ⟨[], _, rfl, hpre.symm⟩
      · have hplace : pre.length ∈ cutPlaces text := by
          apply List.mem_filter.mpr
          refine ⟨mem_headingStarts_iff.mpr ⟨pre, post, htext, rfl, hheading⟩, ?_⟩
          exact decide_eq_true (List.length_pos_iff.mpr hpre).ne'
        obtain ⟨front, back, heq, hflat⟩ := slicesTo_cut text hordered hplace
        refine ⟨front, back, by rw [splitSections_eq, heq], ?_⟩
        rw [hflat, htext, slice_left]

end Headings

section Paragraphs

/-- The pieces of the part between blank lines, without the blanks around them and those that are
blank. -/
def Paragraphed (part : List Char) (paragraphs : List (List Char)) : Prop :=
  ∃ between, blankLine.intercalate between = part ∧ (∀ piece ∈ between, ¬ blankLine <:+: piece) ∧
    paragraphs = (between.map stripChars).filter (· ≠ [])

theorem splitAt_ne_nil (a b : Char) (text : List Char) : splitAt a b text ≠ [] := by
  induction text using splitAt.induct a b with
  | case1 => exact List.cons_ne_nil _ _
  | case2 c => exact List.cons_ne_nil _ _
  | case3 c d text h ih =>
    rw [splitAt, if_pos h]
    exact List.cons_ne_nil _ _
  | case4 c d text h ih =>
    rw [splitAt, if_neg h]
    exact fun hnil => ih (List.modifyHead_eq_nil_iff.mp hnil)

theorem intercalate_modifyHead (sep : List Char) (c : Char) {pieces : List (List Char)}
    (h : pieces ≠ []) :
    sep.intercalate (pieces.modifyHead (c :: ·)) = c :: sep.intercalate pieces := by
  obtain ⟨first, rest, rfl⟩ := List.exists_cons_of_ne_nil h
  cases rest with
  | nil => rfl
  | cons second rest => rfl

theorem intercalate_splitAt (a b : Char) (text : List Char) :
    [a, b].intercalate (splitAt a b text) = text := by
  induction text using splitAt.induct a b with
  | case1 => rfl
  | case2 c => rfl
  | case3 c d text h ih =>
    obtain ⟨first, rest, hsplit⟩ := List.exists_cons_of_ne_nil (splitAt_ne_nil a b text)
    rw [splitAt, if_pos h, hsplit]
    rw [hsplit] at ih
    change [] ++ ([a, b] ++ [a, b].intercalate (first :: rest)) = c :: d :: text
    rw [ih, h.1, h.2]
    rfl
  | case4 c d text h ih =>
    rw [splitAt, if_neg h, intercalate_modifyHead _ _ (splitAt_ne_nil a b _), ih]

theorem head_splitAt (a b d : Char) (text : List Char) :
    ∃ first rest, splitAt a b (d :: text) = first :: rest ∧ (first = [] ∨ first.head? = some d) := by
  cases text with
  | nil => exact ⟨[d], [], rfl, .inr rfl⟩
  | cons c text =>
    obtain ⟨first, rest, hsplit⟩ := List.exists_cons_of_ne_nil (splitAt_ne_nil a b (c :: text))
    rw [splitAt]
    split_ifs
    · exact ⟨[], _, rfl, .inl rfl⟩
    · rw [hsplit]
      exact ⟨d :: first, rest, rfl, .inr rfl⟩

theorem splitAt_free (a b : Char) (text : List Char) :
    ∀ piece ∈ splitAt a b text, ¬ [a, b] <:+: piece := by
  have hshort : ∀ piece : List Char, piece.length ≤ 1 → ¬ [a, b] <:+: piece := by
    intro piece hlen hin
    have hle := hin.length_le
    simp only [List.length_cons, List.length_nil] at hle
    omega
  induction text using splitAt.induct a b with
  | case1 =>
    intro piece hpiece
    rw [List.mem_singleton.mp hpiece]
    exact hshort [] (Nat.zero_le 1)
  | case2 c =>
    intro piece hpiece
    rw [List.mem_singleton.mp hpiece]
    exact hshort [c] (Nat.le_refl 1)
  | case3 c d text h ih =>
    intro piece hpiece
    rw [splitAt, if_pos h] at hpiece
    rcases List.mem_cons.mp hpiece with rfl | hpiece
    · exact hshort [] (Nat.zero_le 1)
    · exact ih piece hpiece
  | case4 c d text h ih =>
    intro piece hpiece
    obtain ⟨first, rest, hsplit, hhead⟩ := head_splitAt a b d text
    rw [splitAt, if_neg h, hsplit] at hpiece
    rw [hsplit] at ih
    rcases List.mem_cons.mp hpiece with rfl | hpiece
    · intro hin
      rcases List.infix_cons_iff.mp hin with hprefix | hin
      · -- a separator at the very front is what the text does not begin with
        obtain ⟨rfl, hnext⟩ := List.cons_prefix_cons.mp hprefix
        rcases hhead with rfl | hhead
        · cases List.prefix_nil.mp hnext
        · obtain ⟨tail, rfl⟩ := List.head?_eq_some_iff.mp hhead
          exact h ⟨rfl, (List.cons_prefix_cons.mp hnext).1.symm⟩
      · exact ih first List.mem_cons_self hin
    · exact ih piece (List.mem_cons_of_mem first hpiece)

theorem paragraphed_splitParagraphs (part : List Char) :
    Paragraphed part (splitParagraphs part) :=
  ⟨splitAt '\n' '\n' part, intercalate_splitAt _ _ part, splitAt_free _ _ part, rfl⟩

end Paragraphs

end Workbench.Rag
