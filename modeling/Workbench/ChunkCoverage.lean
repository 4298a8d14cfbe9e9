import Workbench.SectionTexts
import Mathlib.Data.List.DropRight

namespace Workbench.Rag

open PyText

structure Part where
  carried : List Char
  paragraphs : List (List Char)

def body (paragraphs : List (List Char)) : List Char := paragraphs.flatMap (· ++ blankLine)

def Part.text (p : Part) : List Char := p.carried ++ body p.paragraphs

def longest (paragraphs : List (List Char)) : ℕ := (paragraphs.map List.length).foldr max 0

def carriedFrom (overlapChars : ℕ) : Option (List Char) → List Char
  | none => []
  | some previous =>
    if overlapChars = 0 then [] else previous.rtake overlapChars ++ blankLine

/-- The parts of a section from some place on: each has a paragraph, and carries what the one
before it leaves. -/
def Linked (overlapChars : ℕ) : Option (List Char) → List Part → Prop
  | _, [] => True
  | previous, p :: parts => p.carried = carriedFrom overlapChars previous ∧ p.paragraphs ≠ [] ∧
      Linked overlapChars (some p.text) parts

def Sized (targetChars overlapChars : ℕ) (p : Part) : Prop :=
  p.text.length ≤ max targetChars (overlapChars + 2 + longest p.paragraphs) + 2

theorem le_longest {paragraphs : List (List Char)} {para : List Char} (h : para ∈ paragraphs) :
    para.length ≤ longest paragraphs := by
  unfold longest
  induction paragraphs with
  | nil => cases h
  | cons first rest ih =>
    rw [List.map_cons, List.foldr_cons]
    rcases List.mem_cons.mp h with rfl | h
    · exact le_max_left _ _
    · exact (ih h).trans (le_max_right _ _)

theorem body_append (xs ys : List (List Char)) : body (xs ++ ys) = body xs ++ body ys :=
  List.flatMap_append ..

theorem body_one (para : List Char) : body [para] = para ++ blankLine := List.append_nil _

theorem length_carry_le (overlapChars : ℕ) (current : List Char) :
    (carry overlapChars current).length ≤ overlapChars + 2 := by
  unfold carry
  split_ifs
  · exact Nat.zero_le _
  · rw [List.length_append, List.length_drop]
    have hblank : blankLine.length = 2 := rfl
    omega

def Solid (para : List Char) : Prop := stripChars para ≠ []

theorem solid_splitParagraphs (part : List Char) : ∀ para ∈ splitParagraphs part, Solid para := by
  intro para hpara
  obtain ⟨hmem, hne⟩ := List.mem_filter.mp hpara
  obtain ⟨raw, -, rfl⟩ := List.mem_map.mp hmem
  exact stripChars_twice (of_decide_eq_true hne)

theorem stripChars_body {paragraphs : List (List Char)} (hne : paragraphs ≠ [])
    (h : ∀ para ∈ paragraphs, Solid para) (carried : List Char) :
    stripChars (carried ++ body paragraphs) ≠ [] := by
  intro hnil
  obtain ⟨para, rest, rfl⟩ := List.exists_cons_of_ne_nil hne
  apply h para List.mem_cons_self
  apply stripChars_eq_nil.mpr
  intro c hc
  apply stripChars_eq_nil.mp hnil
  apply List.mem_append_right
  exact List.mem_append_left _ (List.mem_append_left _ hc)

variable {targetChars overlapChars : ℕ}

theorem sized_fresh {carried para : List Char} (hc : carried.length ≤ overlapChars + 2) :
    Sized targetChars overlapChars ⟨carried, [para]⟩ := by
  have hlong : para.length ≤ longest [para] := le_longest (List.mem_singleton_self para)
  have hblank : blankLine.length = 2 := rfl
  change (carried ++ body [para]).length ≤ max targetChars (overlapChars + 2 + longest [para]) + 2
  rw [body_one, List.length_append, List.length_append]
  omega

theorem sized_grow {carried para : List Char} {paragraphs : List (List Char)}
    (h : (carried ++ body paragraphs).length + para.length ≤ targetChars) :
    Sized targetChars overlapChars ⟨carried, paragraphs ++ [para]⟩ := by
  have hblank : blankLine.length = 2 := rfl
  change (carried ++ body (paragraphs ++ [para])).length ≤
    max targetChars (overlapChars + 2 + longest (paragraphs ++ [para])) + 2
  simp only [body_append, body_one, List.length_append] at h ⊢
  omega

theorem text_started {overlapChars : ℕ} {previous : Option (List Char)} {p : Part}
    (hcarried : p.carried = carriedFrom overlapChars previous)
    (hstart : p.paragraphs = [] → previous = none) (hempty : p.paragraphs = []) : p.text = [] := by
  rw [Part.text, hcarried, hstart hempty, hempty]
  rfl

/-- What the buffer holds is a part in the making; packing the rest completes it and links the
parts that follow. -/
theorem packParagraphs_parts (previous : Option (List Char)) (p : Part)
    (hcarried : p.carried = carriedFrom overlapChars previous)
    (hstart : p.paragraphs = [] → previous = none)
    (hsized : p.paragraphs ≠ [] → Sized targetChars overlapChars p)
    (hdone : ∀ para ∈ p.paragraphs, Solid para) {paragraphs : List (List Char)}
    (hrest : ∀ para ∈ paragraphs, Solid para) :
    ∃ parts, packParagraphs targetChars overlapChars p.text paragraphs = parts.map Part.text ∧
      Linked overlapChars previous parts ∧
      (parts.map Part.paragraphs).flatten = p.paragraphs ++ paragraphs ∧
      ∀ q ∈ parts, Sized targetChars overlapChars q := by
  induction paragraphs generalizing previous p with
  | nil =>
    by_cases hempty : p.paragraphs = []
    · refine ⟨[], ?_, trivial, by simp [hempty], nofun⟩
      rw [text_started hcarried hstart hempty]
      rfl
    · refine ⟨[p], ?_, ⟨hcarried, hempty, trivial⟩, by simp, ?_⟩
      · have hsolid : stripChars p.text ≠ [] := stripChars_body hempty hdone p.carried
        rw [packParagraphs, if_neg hsolid]
        rfl
      · intro q hq
        rw [List.mem_singleton.mp hq]
        exact hsized hempty
  | cons para paragraphs ih =>
    have hpara := hrest para List.mem_cons_self
    have hlater : ∀ q ∈ paragraphs, Solid q := fun q hq => hrest q (List.mem_cons_of_mem para hq)
    rw [packParagraphs]
    split_ifs with hflush
    · -- the piece is complete, and the next one begins with what it carries over
      have hne : p.paragraphs ≠ [] := by
        intro hempty
        exact hflush.1 (text_started hcarried hstart hempty)
      let next : Part := ⟨carry overlapChars p.text, [para]⟩
      have hnext : next.text = carry overlapChars p.text ++ para ++ blankLine := by
        simp only [next, Part.text, body_one, List.append_assoc]
      obtain ⟨parts, hparts, hlinked, hall, hsizes⟩ := ih (some p.text) next rfl
        (fun hnil => absurd hnil (List.cons_ne_nil _ _))
        (fun _ => sized_fresh (length_carry_le overlapChars p.text))
        (fun q hq => List.mem_singleton.mp hq ▸ hpara) hlater
      refine ⟨p :: parts, ?_, ⟨hcarried, hne, hlinked⟩, ?_, ?_⟩
      · rw [← hnext, hparts]
        rfl
      · rw [List.map_cons, List.flatten_cons, hall]
        rfl
      · intro q hq
        rcases List.mem_cons.mp hq with rfl | hq
        · exact hsized hne
        · exact hsizes q hq
    · let longer : Part := ⟨p.carried, p.paragraphs ++ [para]⟩
      have hlonger : longer.text = p.text ++ para ++ blankLine := by
        simp only [longer, Part.text, body_append, body_one, List.append_assoc]
      have hfits : Sized targetChars overlapChars longer := by
        by_cases hempty : p.paragraphs = []
        · have hnone : p.carried = [] := by
            rw [hcarried, hstart hempty]
            rfl
          simp only [longer, hempty, hnone, List.nil_append]
          exact sized_fresh (Nat.zero_le _)
        · apply sized_grow
          have hne : p.text ≠ [] := by
            intro hnil
            apply stripChars_body hempty hdone p.carried
            rw [← Part.text, hnil]
            rfl
          exact Nat.le_of_not_lt fun hover => hflush ⟨hne, hover⟩
      obtain ⟨parts, hparts, hlinked, hall, hsizes⟩ := ih previous longer hcarried
        (fun hnil => absurd hnil (by simp [longer])) (fun _ => hfits)
        (fun q hq => by
          rcases List.mem_append.mp hq with hq | hq
          · exact hdone q hq
          · exact List.mem_singleton.mp hq ▸ hpara) hlater
      refine ⟨parts, ?_, hlinked, ?_, hsizes⟩
      · rw [← hlonger, hparts]
      · rw [hall]
        simp [longer]

theorem section_parts (targetChars overlapChars : ℕ) (part : List Char) :
    ∃ parts, packParagraphs targetChars overlapChars [] (splitParagraphs part) = parts.map Part.text ∧
      Linked overlapChars none parts ∧
      (parts.map Part.paragraphs).flatten = splitParagraphs part ∧
      ∀ q ∈ parts, Sized targetChars overlapChars q :=
  packParagraphs_parts none ⟨[], []⟩ rfl (fun _ => rfl) (fun h => absurd rfl h) nofun
    (solid_splitParagraphs part)

variable {M : Type}

theorem chunkWith_texts (t o : ℕ) (doc : Document M) :
    (chunkWith t o doc).map (·.text.toList) = (pieces t o doc.text.toList).map stripChars := by
  apply List.ext_getElem
  · simp [chunkWith]
  · intro i hi hj
    simp [chunkWith]

theorem chunkWith_ordinals (t o : ℕ) (doc : Document M) :
    (chunkWith t o doc).map Chunk.ordinal = List.range (chunkWith t o doc).length := by
  apply List.ext_getElem
  · simp
  · intro i hi hj
    simp [chunkWith]

theorem chunks_cover (targetTokens overlapTokens : ℕ) (doc : Document M) :
    ∃ (sections : List (List Char)) (parts : List (List Part)),
      Sectioned doc.text.toList sections ∧
      pieces targetTokens overlapTokens doc.text.toList = parts.flatten.map Part.text ∧
      (∀ part ∈ parts, Linked (overlapTokens * charsPerToken) none part) ∧
      List.Forall₂ Paragraphed sections (parts.map fun part => (part.map Part.paragraphs).flatten) ∧
      (∀ p ∈ parts.flatten,
        Sized (targetTokens * charsPerToken) (overlapTokens * charsPerToken) p) ∧
      (chunkWith targetTokens overlapTokens doc).map (·.text.toList) =
        parts.flatten.map (stripChars ·.text) ∧
      ((chunkWith targetTokens overlapTokens doc).map Chunk.id).Nodup ∧
      (chunkWith targetTokens overlapTokens doc).map Chunk.ordinal =
        List.range (chunkWith targetTokens overlapTokens doc).length := by
  choose split hsplit using
    section_parts (targetTokens * charsPerToken) (overlapTokens * charsPerToken)
  let secs := splitSections doc.text.toList
  have hpieces : pieces targetTokens overlapTokens doc.text.toList =
      (secs.map split).flatten.map Part.text := by
    rw [List.map_flatten, List.map_map, ← List.flatMap_def]
    exact List.flatMap_congr fun part _ => (hsplit part).1
  refine ⟨secs, secs.map split, sectioned_splitSections _, hpieces, ?_, ?_, ?_, ?_,
    chunkWith_ids_nodup targetTokens overlapTokens doc, ?_⟩
  · intro part hpart
    obtain ⟨sec, -, rfl⟩ := List.mem_map.mp hpart
    exact (hsplit sec).2.1
  · rw [List.map_map, List.forall₂_map_right_iff, List.forall₂_same]
    intro sec _
    rw [Function.comp_apply, (hsplit sec).2.2.1]
    exact paragraphed_splitParagraphs sec
  · intro p hp
    obtain ⟨part, hpart, hmem⟩ := List.mem_flatten.mp hp
    obtain ⟨sec, -, rfl⟩ := List.mem_map.mp hpart
    exact (hsplit sec).2.2.2 p hmem
  · rw [chunkWith_texts, hpieces, List.map_map]
    rfl
  · exact chunkWith_ordinals targetTokens overlapTokens doc

end Workbench.Rag
