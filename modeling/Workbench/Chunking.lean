import Workbench.PyText
import Mathlib.Data.List.Nodup
import Mathlib.Data.List.Range

namespace Workbench.Rag

open PyText

structure Document (M : Type) where
  id : String
  source : String
  text : String
  metadata : M
  deriving DecidableEq

structure Chunk (M : Type) where
  id : String
  docId : String
  source : String
  ordinal : ℕ
  text : String
  metadata : M
  deriving DecidableEq

def charsPerToken : ℕ := 4

/-- `^#{1,6} ` matches at the start of `line`. -/
def isHeading (line : List Char) : Bool :=
  let hashes := line.takeWhile (· = '#')
  1 ≤ hashes.length && hashes.length ≤ 6 && (line.drop hashes.length).head? = some ' '

/-- The places where a heading starts; `fresh` if `text` begins a line, and `index` is its place. -/
def headingStarts (fresh : Bool) (index : ℕ) : List Char → List ℕ
  | [] => []
  | c :: text => (if fresh && isHeading (c :: text) then [index] else []) ++
      headingStarts (c = '\n') (index + 1) text

def slice (text : List Char) (a b : ℕ) : List Char := (text.take b).drop a

def splitSections (text : List Char) : List (List Char) :=
  match headingStarts true 0 text with
  | [] => [text]
  | start :: starts =>
    let bounds := (if start ≠ 0 then [0] else []) ++ start :: starts ++ [text.length]
    (bounds.zip bounds.tail).map fun b => slice text b.1 b.2

def splitAt (a b : Char) : List Char → List (List Char)
  | [] => [[]]
  | [c] => [[c]]
  | c :: d :: text =>
    if c = a ∧ d = b then [] :: splitAt a b text
    else (splitAt a b (d :: text)).modifyHead (c :: ·)

def splitParagraphs (part : List Char) : List (List Char) :=
  ((splitAt '\n' '\n' part).map stripChars).filter (· ≠ [])

def blankLine : List Char := ['\n', '\n']

def carry (overlapChars : ℕ) (current : List Char) : List Char :=
  if overlapChars = 0 then [] else current.drop (current.length - overlapChars) ++ blankLine

def packParagraphs (targetChars overlapChars : ℕ) (current : List Char) :
    List (List Char) → List (List Char)
  | [] => if stripChars current = [] then [] else [current]
  | para :: paragraphs =>
    if current ≠ [] ∧ targetChars < current.length + para.length then
      current :: packParagraphs targetChars overlapChars
        (carry overlapChars current ++ para ++ blankLine) paragraphs
    else packParagraphs targetChars overlapChars (current ++ para ++ blankLine) paragraphs

def pieces (targetTokens overlapTokens : ℕ) (text : List Char) : List (List Char) :=
  (splitSections text).flatMap fun part =>
    packParagraphs (targetTokens * charsPerToken) (overlapTokens * charsPerToken) []
      (splitParagraphs part)

variable {M : Type}

def chunkId (docId : String) (ordinal : ℕ) : String := docId ++ ":" ++ toString ordinal

def chunkWith (targetTokens overlapTokens : ℕ) (doc : Document M) : List (Chunk M) :=
  (pieces targetTokens overlapTokens doc.text.toList).mapIdx fun i piece =>
    ⟨chunkId doc.id i, doc.id, doc.source, i, String.ofList (stripChars piece), doc.metadata⟩

def defaultTargetTokens : ℕ := 400

def defaultOverlapTokens : ℕ := 50

def chunkDocument (doc : Document M) : List (Chunk M) :=
  chunkWith defaultTargetTokens defaultOverlapTokens doc

theorem repr_no_colon (n : ℕ) : ':' ∉ (toString n).toList := by
  intro h
  have hdigit := Nat.isDigit_of_mem_toDigits (by decide) (by decide) (Nat.toList_repr ▸ h)
  exact absurd hdigit (by decide)

theorem append_cons_inj {α : Type} {a : α} {xs ys us vs : List α} (hys : a ∉ ys) (hvs : a ∉ vs)
    (h : xs ++ a :: ys = us ++ a :: vs) : xs = us ∧ ys = vs := by
  induction xs generalizing us with
  | nil =>
    cases us with
    | nil => exact ⟨rfl, (List.cons.inj h).2⟩
    | cons u us =>
      obtain ⟨-, h⟩ := List.cons.inj h
      exact absurd (h ▸ List.mem_append_right us List.mem_cons_self) hys
  | cons x xs ih =>
    cases us with
    | nil =>
      obtain ⟨-, h⟩ := List.cons.inj h
      exact absurd (h ▸ List.mem_append_right xs List.mem_cons_self) hvs
    | cons u us =>
      obtain ⟨rfl, htail⟩ := List.cons.inj h
      obtain ⟨rfl, hy⟩ := ih htail
      exact ⟨rfl, hy⟩

theorem toString_injective {m n : ℕ} (h : (toString m).toList = (toString n).toList) : m = n := by
  have hdigits := congrArg (fun ds => Nat.ofDigitChars 10 ds 0) h
  simpa [Nat.toString_eq_ofList_toDigits] using hdigits

theorem chunkId_injective {a b : String} {i j : ℕ} (h : chunkId a i = chunkId b j) : a = b ∧ i = j := by
  have hlist := congrArg String.toList h
  simp only [chunkId, String.toList_append, List.append_assoc] at hlist
  obtain ⟨hid, hordinal⟩ := append_cons_inj (repr_no_colon i) (repr_no_colon j) hlist
  exact ⟨String.toList_inj.mp hid, toString_injective hordinal⟩

theorem chunkWith_id {t o : ℕ} {doc : Document M} {c : Chunk M} {i : ℕ}
    (h : (chunkWith t o doc)[i]? = some c) : c.id = chunkId doc.id i ∧ c.source = doc.source := by
  rw [chunkWith, List.getElem?_mapIdx, Option.map_eq_some_iff] at h
  obtain ⟨piece, -, rfl⟩ := h
  exact ⟨rfl, rfl⟩

theorem chunkWith_ids (t o : ℕ) (doc : Document M) :
    (chunkWith t o doc).map Chunk.id = (List.range (chunkWith t o doc).length).map (chunkId doc.id) := by
  apply List.ext_getElem
  · simp
  · intro i hi hj
    simp [chunkWith]

theorem chunkWith_ids_nodup (t o : ℕ) (doc : Document M) : ((chunkWith t o doc).map Chunk.id).Nodup := by
  rw [chunkWith_ids]
  exact List.nodup_range.map fun i j h => (chunkId_injective h).2

example : (chunkDocument (⟨"d1", "test.md",
    "# Intro\n\nFirst section text.\n\n# Details\n\nSecond section text.", ()⟩)).map Chunk.text =
      ["# Intro\n\nFirst section text.", "# Details\n\nSecond section text."] := by
  decide +kernel

end Workbench.Rag
