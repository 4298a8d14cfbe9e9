import Workbench.ModelReplies
import Mathlib.Algebra.Order.Group.Nat

namespace Workbench.ProcessMaps

structure ProcessStep where
  id : ℤ
  actor : String
  action : String
  next : List ℤ
  deriving DecidableEq

def quoteEsc (c : Char) : Char := if c = '"' then '\x27' else c

def newlineEsc (c : Char) : Char := if c = '\n' then ' ' else c

/-- `text.replace('"', "'").replace("\n", " ").strip()[:80]` -/
def escChars (cs : List Char) : List Char :=
  (PyText.stripChars ((cs.map quoteEsc).map newlineEsc)).take 80

def esc (text : String) : String := String.ofList (escChars text.toList)

def ProcessStep.label (s : ProcessStep) : String :=
  if s.actor = "" then s.action else s.actor ++ ": " ++ s.action

def targets (ids : List ℤ) (s : ProcessStep) (following : Option ProcessStep) : List ℤ :=
  let targets := s.next.filter fun n => ids.contains n
  if targets.isEmpty && s.next.isEmpty then (following.map ProcessStep.id).toList else targets

def edgesFrom (ids : List ℤ) : List ProcessStep → List (ℤ × ℤ)
  | [] => []
  | s :: rest => (targets ids s rest.head?).map (s.id, ·) ++ edgesFrom ids rest

def edges (steps : List ProcessStep) : List (ℤ × ℤ) := edgesFrom (steps.map ProcessStep.id) steps

def nodeLine (s : ProcessStep) : String :=
  "  s" ++ toString s.id ++ "[\"" ++ esc s.label ++ "\"]"

def edgeLine (e : ℤ × ℤ) : String := "  s" ++ toString e.1 ++ " --> s" ++ toString e.2

def toMermaid (steps : List ProcessStep) : String :=
  if steps.isEmpty then "flowchart TD\n  empty[No steps extracted]"
  else "\n".intercalate ("flowchart TD" :: steps.map nodeLine ++ (edges steps).map edgeLine)

structure Graph where
  nodes : List (ℤ × String)
  edges : List (ℤ × ℤ)
  deriving DecidableEq

inductive Line
  | node (id : ℤ) (label : String)
  | edge (source target : ℤ)
  deriving DecidableEq

def readNat (cs : List Char) : Option ℕ :=
  if !cs.isEmpty && cs.all Char.isDigit then some (Nat.ofDigitChars 10 cs 0) else none

def readInt : List Char → Option ℤ
  | [] => none
  | c :: cs => if c = '-' then (readNat cs).map fun n : ℕ => -(n : ℤ)
    else (readNat (c :: cs)).map Int.ofNat

def readName : List Char → Option ℤ
  | [] => none
  | c :: cs => if c = 's' then readInt cs else none

def readLine (cs : List Char) : Option Line :=
  let text := cs.drop 2
  let name := text.takeWhile fun c => c ≠ '[' && c ≠ ' '
  let rest := text.dropWhile fun c => c ≠ '[' && c ≠ ' '
  if cs.take 2 ≠ [' ', ' '] then none
  else if rest.take 2 = ['[', '"'] then
    let label := (rest.drop 2).takeWhile (· ≠ '"')
    if (rest.drop 2).dropWhile (· ≠ '"') = ['"', ']'] then
      (readName name).map fun id => .node id (String.ofList label)
    else none
  else if rest.take 5 = [' ', '-', '-', '>', ' '] then
    (readName name).bind fun source => (readName (rest.drop 5)).map (.edge source)
  else none

def readMap (text : String) : Option Graph :=
  match text.toList.splitOn '\n' with
  | [] => none
  | first :: rest =>
    if first = "flowchart TD".toList then
      (rest.mapM readLine).map fun lines =>
        ⟨lines.filterMap fun | .node id label => some (id, label) | .edge _ _ => none,
          lines.filterMap fun | .edge source target => some (source, target) | .node _ _ => none⟩
    else none

def graphOf (steps : List ProcessStep) : Graph :=
  ⟨steps.map fun s => (s.id, esc s.label), edges steps⟩

example : readMap (toMermaid [⟨1, "a", "file \"x\"", []⟩, ⟨-2, "", "check", [7]⟩, ⟨3, "", "end", [1]⟩]) =
    some ⟨[(1, "a: file 'x'"), (-2, "check"), (3, "end")], [(1, -2), (3, 1)]⟩ := by decide

theorem esc_safe (text : String) :
    '"' ∉ (esc text).toList ∧ '\n' ∉ (esc text).toList ∧ (esc text).toList.length ≤ 80 := by
  have hmem : ∀ c ∈ (esc text).toList, ∃ d, c = newlineEsc (quoteEsc d) := by
    intro c hc
    unfold esc escChars at hc
    rw [String.toList_ofList] at hc
    obtain ⟨e, he, rfl⟩ := List.mem_map.mp (PyText.mem_stripChars (List.mem_of_mem_take hc))
    obtain ⟨d, -, rfl⟩ := List.mem_map.mp he
    exact ⟨d, rfl⟩
  have hplain : ∀ d, newlineEsc (quoteEsc d) ≠ '"' ∧ newlineEsc (quoteEsc d) ≠ '\n' := by
    intro d
    unfold newlineEsc quoteEsc
    by_cases hquote : d = '"'
    · simp [hquote]
    · by_cases hnewline : d = '\n'
      · simp [hnewline]
      · simp [hquote, hnewline]
  refine ⟨?_, ?_, ?_⟩
  · intro h
    obtain ⟨d, hd⟩ := hmem _ h
    exact (hplain d).1 hd.symm
  · intro h
    obtain ⟨d, hd⟩ := hmem _ h
    exact (hplain d).2 hd.symm
  · unfold esc escChars
    rw [String.toList_ofList]
    exact List.length_take_le _ _

theorem readNat_toString (n : ℕ) : readNat (toString n).toList = some n := by
  have hdigits : (toString n).toList.all Char.isDigit = true := by
    rw [List.all_eq_true]
    intro c hc
    exact Nat.isDigit_of_mem_toDigits (by decide) (by decide) (Nat.toList_repr ▸ hc)
  have hne : (toString n).toList ≠ [] := by
    intro h
    have hvalue := congrArg (fun ds => Nat.ofDigitChars 10 ds 0) h
    have hempty : toString n ≠ "" := by simp
    exact hempty (String.toList_eq_nil_iff.mp h)
  unfold readNat
  rw [hdigits]
  simp only [List.isEmpty_eq_false_iff.mpr hne, Bool.not_false, Bool.and_true, if_true]
  simp

theorem toList_int (n : ℕ) : (toString (n : ℤ)).toList = (toString n).toList ∧
    (toString (-(n : ℤ) - 1)).toList = '-' :: (toString (n + 1)).toList := by
  constructor
  · rfl
  · have hneg : -(n : ℤ) - 1 = Int.negSucc n := by omega
    rw [hneg]
    change ("-" ++ toString (n + 1)).toList = _
    rw [String.toList_append]
    rfl

theorem mem_toString_int {n : ℤ} {c : Char} (h : c ∈ (toString n).toList) :
    c = '-' ∨ c.isDigit = true := by
  have hnat : ∀ (m : ℕ), c ∈ (toString m).toList → c.isDigit = true := fun m hm =>
    Nat.isDigit_of_mem_toDigits (by decide) (by decide) (Nat.toList_repr ▸ hm)
  obtain ⟨m, rfl | rfl⟩ : ∃ m : ℕ, n = m ∨ n = -(m : ℤ) - 1 := by
    cases n with
    | ofNat m => exact ⟨m, .inl rfl⟩
    | negSucc m => exact ⟨m, .inr (by omega)⟩
  · exact .inr (hnat m ((toList_int m).1 ▸ h))
  · rw [(toList_int m).2] at h
    cases List.mem_cons.mp h with
    | inl he => exact .inl he
    | inr hmem => exact .inr (hnat (m + 1) hmem)

theorem readInt_toString (n : ℤ) : readInt (toString n).toList = some n := by
  cases n with
  | ofNat m =>
    have htext := (toList_int m).1
    change readInt (toString (m : ℤ)).toList = some (m : ℤ)
    rw [htext]
    have hread := readNat_toString m
    cases hcs : (toString m).toList with
    | nil =>
      rw [hcs] at hread
      cases hread
    | cons c cs =>
      have hdigit : c.isDigit = true := Nat.isDigit_of_mem_toDigits (by decide) (by decide)
        (Nat.toList_repr ▸ (hcs ▸ List.mem_cons_self))
      have hsign : c ≠ '-' := by
        rintro rfl
        exact absurd hdigit (by decide)
      rw [hcs] at hread
      rw [readInt, if_neg hsign, hread]
      rfl
  | negSucc m =>
    have hneg : Int.negSucc m = -(m : ℤ) - 1 := by omega
    rw [hneg, (toList_int m).2, readInt, if_pos rfl, readNat_toString]
    rw [Option.map_some, Option.some_inj]
    omega

theorem name_plain {n : ℤ} {c : Char} (h : c ∈ 's' :: (toString n).toList) :
    c ≠ '[' ∧ c ≠ ' ' ∧ c ≠ '\n' := by
  cases List.mem_cons.mp h with
  | inl he => subst he; decide
  | inr hmem =>
    cases mem_toString_int hmem with
    | inl he => subst he; decide
    | inr hdigit =>
      refine ⟨?_, ?_, ?_⟩
      · rintro rfl
        exact absurd hdigit (by decide)
      · rintro rfl
        exact absurd hdigit (by decide)
      · rintro rfl
        exact absurd hdigit (by decide)

theorem readName_toString (n : ℤ) : readName ('s' :: (toString n).toList) = some n := by
  rw [readName, if_pos rfl, readInt_toString]

theorem takeWhile_stop {p : Char → Bool} {cs : List Char} {d : Char} (ds : List Char)
    (hcs : ∀ c ∈ cs, p c = true) (hd : p d = false) : (cs ++ d :: ds).takeWhile p = cs ∧ (cs ++ d :: ds).dropWhile p = d :: ds := by
  rw [List.takeWhile_append_of_pos hcs, List.dropWhile_append_of_pos hcs]
  simp [hd]

theorem toList_nodeLine (s : ProcessStep) : (nodeLine s).toList =
    ' ' :: ' ' :: (('s' :: (toString s.id).toList) ++ '[' :: '"' :: ((esc s.label).toList ++ ['"', ']'])) := by
  simp [nodeLine, String.toList_append]

theorem toList_edgeLine (e : ℤ × ℤ) : (edgeLine e).toList =
    ' ' :: ' ' :: (('s' :: (toString e.1).toList) ++
      ' ' :: '-' :: '-' :: '>' :: ' ' :: 's' :: (toString e.2).toList) := by
  simp [edgeLine, String.toList_append]

def nameChar (c : Char) : Bool := c ≠ '[' && c ≠ ' '

theorem nameChar_name {n : ℤ} : ∀ c ∈ 's' :: (toString n).toList, nameChar c = true := by
  intro c hc
  obtain ⟨hbracket, hblank, -⟩ := name_plain hc
  simp [nameChar, hbracket, hblank]

theorem readLine_nodeLine (s : ProcessStep) :
    readLine (nodeLine s).toList = some (.node s.id (esc s.label)) := by
  obtain ⟨hquote, -, -⟩ := esc_safe s.label
  obtain ⟨htake, hdrop⟩ := takeWhile_stop ('"' :: ((esc s.label).toList ++ ['"', ']']))
    (nameChar_name (n := s.id)) (show nameChar '[' = false by decide)
  have hchars : ∀ c ∈ (esc s.label).toList, decide (c ≠ '"') = true := by
    intro c hc
    rw [decide_eq_true_eq]
    rintro rfl
    exact hquote hc
  obtain ⟨hlabel, hend⟩ := takeWhile_stop (p := fun c => decide (c ≠ '"')) (d := '"') [']'] hchars
    (by simp)
  unfold nameChar at htake hdrop
  unfold readLine
  rw [toList_nodeLine]
  simp only [List.drop_succ_cons, List.drop_zero, List.take_succ_cons, List.take_zero, htake, hdrop,
    hlabel, hend, ne_eq, not_true_eq_false, if_false, if_true, readName_toString, Option.map_some,
    String.ofList_toList]

theorem readLine_edgeLine (e : ℤ × ℤ) : readLine (edgeLine e).toList = some (.edge e.1 e.2) := by
  obtain ⟨htake, hdrop⟩ := takeWhile_stop
    ('-' :: '-' :: '>' :: ' ' :: 's' :: (toString e.2).toList)
    (nameChar_name (n := e.1)) (show nameChar ' ' = false by decide)
  have hother : ([' ', '-'] : List Char) ≠ ['[', '"'] := by decide
  unfold nameChar at htake hdrop
  unfold readLine
  rw [toList_edgeLine]
  simp only [List.drop_succ_cons, List.drop_zero, List.take_succ_cons, List.take_zero, htake, hdrop,
    ne_eq, not_true_eq_false, if_false, if_true, readName_toString, Option.bind_some,
    Option.map_some, if_neg hother]

theorem lines_unbroken (steps : List ProcessStep) :
    ∀ line ∈ "flowchart TD" :: steps.map nodeLine ++ (edges steps).map edgeLine,
      '\n' ∉ line.toList := by
  intro line hline
  simp only [List.cons_append, List.mem_cons, List.mem_append, List.mem_map] at hline
  rcases hline with rfl | ⟨s, -, rfl⟩ | ⟨e, -, rfl⟩
  · decide
  · obtain ⟨-, hnewline, -⟩ := esc_safe s.label
    rw [toList_nodeLine]
    intro h
    have hname : '\n' ∉ (toString s.id).toList := fun h =>
      (name_plain (List.mem_cons_of_mem 's' h)).2.2 rfl
    simp only [List.mem_cons, List.mem_append, hname, hnewline, or_false, false_or,
      List.not_mem_nil] at h
    revert h
    decide
  · rw [toList_edgeLine]
    intro h
    have hname : ∀ n : ℤ, '\n' ∉ (toString n).toList := fun n h =>
      (name_plain (List.mem_cons_of_mem 's' h)).2.2 rfl
    simp only [List.mem_cons, List.mem_append, hname, or_false] at h
    revert h
    decide

theorem edgesFrom_known {ids : List ℤ} {steps : List ProcessStep}
    (h : ∀ s ∈ steps, s.id ∈ ids) : ∀ e ∈ edgesFrom ids steps, e.1 ∈ ids ∧ e.2 ∈ ids := by
  induction steps with
  | nil => exact nofun
  | cons s rest ih =>
    intro e he
    simp only [edgesFrom, List.mem_append, List.mem_map] at he
    rcases he with ⟨t, ht, rfl⟩ | he
    · refine ⟨h s List.mem_cons_self, ?_⟩
      unfold targets at ht
      dsimp only at ht
      split_ifs at ht
      · obtain ⟨q, hq, rfl⟩ : ∃ q, rest.head? = some q ∧ q.id = t := by simpa using ht
        exact h q (List.mem_cons_of_mem s (List.mem_of_mem_head? hq))
      · have hknown := (List.mem_filter.mp ht).2
        exact List.contains_iff_mem.mp hknown
    · exact ih (fun q hq => h q (List.mem_cons_of_mem s hq)) e he

theorem mapM_lines {α : Type} {print : α → String} {line : α → Line}
    (h : ∀ a, readLine (print a).toList = some (line a)) (as : List α) :
    (as.map (String.toList ∘ print)).mapM readLine = some (as.map line) := by
  induction as with
  | nil => rfl
  | cons a as ih =>
    rw [List.map_cons, List.mapM_cons, Function.comp_apply, h, ih]
    rfl

theorem map_reads_back (steps : List ProcessStep) (hne : steps ≠ []) :
    readMap (toMermaid steps) = some (graphOf steps) ∧
      ∀ e ∈ edges steps, e.1 ∈ steps.map ProcessStep.id ∧ e.2 ∈ steps.map ProcessStep.id := by
  refine ⟨?_, edgesFrom_known fun s hs => List.mem_map_of_mem hs⟩
  have hlines : (toMermaid steps).toList.splitOn '\n' =
      ("flowchart TD" :: steps.map nodeLine ++ (edges steps).map edgeLine).map String.toList := by
    unfold toMermaid
    rw [if_neg (by simp [hne]), String.toList_intercalate]
    apply List.splitOn_intercalate
    · intro cs hcs
      obtain ⟨line, hline, rfl⟩ := List.mem_map.mp hcs
      exact lines_unbroken steps line hline
    · simp
  unfold readMap
  rw [hlines]
  simp only [List.cons_append, List.map_cons, List.map_append, List.map_map, if_true]
  have hread : (steps.map (String.toList ∘ nodeLine) ++
      (edges steps).map (String.toList ∘ edgeLine)).mapM readLine =
        some (steps.map (fun s => Line.node s.id (esc s.label)) ++
          (edges steps).map fun e => Line.edge e.1 e.2) := by
    rw [List.mapM_append, mapM_lines readLine_nodeLine, mapM_lines readLine_edgeLine]
    rfl
  rw [hread]
  simp only [Option.map_some, List.filterMap_append, List.filterMap_map, Function.comp_def,
    List.filterMap_some, List.filterMap_none, List.append_nil, List.nil_append, Prod.mk.eta,
    List.filterMap_eq_map', graphOf]

theorem map_reads_back_one : readMap (toMermaid [⟨1, "clerk", "file", [1]⟩]) =
    some ⟨[(1, "clerk: file")], [(1, 1)]⟩ :=
  (map_reads_back [⟨1, "clerk", "file", [1]⟩] (by decide)).1

end Workbench.ProcessMaps
