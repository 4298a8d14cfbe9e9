import Workbench.BrowseActions
import Workbench.JsonTexts

namespace Workbench.Browse

open JsonTexts

structure ScanState where
  depth : ℕ
  inStr : Bool
  esc : Bool

def ScanState.outside (depth : ℕ) : ScanState := ⟨depth, false, false⟩

def ScanState.inside (depth : ℕ) : ScanState := ⟨depth, true, false⟩

open ScanState

def scan (s : ScanState) (cs : List Char) : Option (List Char) := balanced s.depth s.inStr s.esc cs

def Scans (s : ScanState) (cs : List Char) (t : ScanState) : Prop :=
  ∀ tail, scan s (cs ++ tail) = (scan t tail).map (cs ++ ·)

section Scanning

variable {d : ℕ}

theorem Scans.nil (s : ScanState) : Scans s [] s := by
  intro tail
  change scan s tail = (scan s tail).map id
  rw [Option.map_id]
  rfl

theorem Scans.append {s t u : ScanState} {cs ds : List Char} (h : Scans s cs t)
    (k : Scans t ds u) : Scans s (cs ++ ds) u := by
  intro tail
  rw [List.append_assoc, h, k, Option.map_map]
  congr 1
  funext rest
  exact (List.append_assoc cs ds rest).symm

theorem Scans.cons {s t u : ScanState} {c : Char} {cs : List Char} (h : Scans s [c] t)
    (k : Scans t cs u) : Scans s (c :: cs) u := h.append k

theorem scans_plain {c : Char} (h : isPlain c) : Scans (outside d) [c] (outside d) := by
  intro tail
  simp only [isPlain, Bool.and_eq_true, decide_eq_true_eq, ne_eq] at h
  simp [scan, outside, balanced, h]

theorem scans_open : Scans (outside d) ['\x7b'] (outside (d + 1)) := fun _ => rfl

theorem scans_close : Scans (outside (d + 2)) ['\x7d'] (outside (d + 1)) := fun _ => rfl

theorem scans_quote : Scans (outside d) ['"'] (inside d) := fun _ => rfl

theorem scans_unquote : Scans (inside d) ['"'] (outside d) := fun _ => rfl

theorem scans_inside {c : Char} (hquote : c ≠ '"') (hescape : c ≠ '\\') :
    Scans (inside d) [c] (inside d) := by
  intro tail
  simp [scan, inside, balanced, hquote, hescape]

theorem scans_escaped (c : Char) : Scans (inside d) ['\\', c] (inside d) := by
  intro tail
  simp [scan, inside, balanced, Function.comp_def]

theorem scans_hex {c : Char} (h : isHex c) : Scans (inside d) [c] (inside d) := by
  apply scans_inside
  · rintro rfl
    cases h
  · rintro rfl
    cases h

theorem scans_plains {cs : List Char} (h : cs.all isPlain) : Scans (outside d) cs (outside d) := by
  induction cs with
  | nil => exact .nil _
  | cons c cs ih =>
    rw [List.all_cons, Bool.and_eq_true] at h
    exact (scans_plain h.1).cons (ih h.2)

theorem scans_blank {cs : List Char} (h : cs.all isBlank) : Scans (outside d) cs (outside d) := by
  apply scans_plains
  rw [List.all_eq_true] at h ⊢
  intro c hc
  exact plain_of_blank (h c hc)

theorem scans_stringBody {cs : List Char} (h : isStringBody cs) :
    Scans (inside d) cs (inside d) := by
  fun_induction isStringBody cs with
  | case1 => exact .nil _
  | case2 a b c e rest ih =>
    simp only [Bool.and_eq_true] at h
    obtain ⟨⟨⟨⟨ha, hb⟩, hc⟩, he⟩, hrest⟩ := h
    have hdigits : Scans (inside d) (a :: b :: c :: e :: rest) (inside d) :=
      (scans_hex ha).cons ((scans_hex hb).cons ((scans_hex hc).cons ((scans_hex he).cons (ih hrest))))
    exact (scans_escaped 'u').append hdigits
  | case3 e rest _ ih =>
    rw [Bool.and_eq_true] at h
    exact (scans_escaped e).append (ih h.2)
  | case4 c rest _ _ ih =>
    simp only [Bool.and_eq_true, decide_eq_true_eq] at h
    obtain ⟨⟨⟨hquote, hescape⟩, -⟩, hrest⟩ := h
    exact (scans_inside hquote hescape).cons (ih hrest)

theorem scans_string {cs : List Char} (h : isStringBody cs) :
    Scans (outside d) ('"' :: (cs ++ ['"'])) (outside d) :=
  scans_quote.cons ((scans_stringBody h).append scans_unquote)

theorem scans_json {part : Part} {cs : List Char} (h : Json part cs) :
    Scans (outside (d + 1)) cs (outside (d + 1)) := by
  induction h generalizing d with
  | literal h => exact scans_plains (plain_literals h)
  | number h => exact scans_plains (plain_number h)
  | string h => exact scans_string h
  | emptyArray h => exact (scans_plain rfl).cons ((scans_blank h).append (scans_plain rfl))
  | array _ ih => exact (scans_plain rfl).cons (ih.append (scans_plain rfl))
  | emptyObject h => exact scans_open.cons ((scans_blank h).append scans_close)
  | object _ ih => exact scans_open.cons (ih.append scans_close)
  | text ha _ hb ih => exact (scans_blank ha).append (ih.append (scans_blank hb))
  | lastElement _ ih => exact ih
  | element _ _ ihv ihes => exact ihv.append ((scans_plain rfl).cons ihes)
  | @member a key b v ha hkey hb _ ih =>
    have hvalue : Scans (outside (d + 1)) (b ++ ':' :: v) (outside (d + 1)) :=
      (scans_blank hb).append ((scans_plain rfl).cons ih)
    exact (scans_blank ha).append
      (scans_quote.cons ((scans_stringBody hkey).append (scans_unquote.cons hvalue)))
  | lastMember _ ih => exact ih
  | members _ _ ihm ihms => exact ihm.append ((scans_plain rfl).cons ihms)

theorem balanced_object {cs : List Char} (h : IsObject cs) (tail : List Char) :
    balanced 0 false false (cs ++ tail) = some cs := by
  obtain ⟨body, rfl, h⟩ := h
  have hbody : Scans (outside 1) body (outside 1) := by
    rcases h with hblank | hmembers
    · exact scans_blank hblank
    · exact scans_json hmembers
  have hscan : Scans (outside 0) ('\x7b' :: body) (outside 1) := scans_open.cons hbody
  have hstop : scan (outside 1) ('\x7d' :: tail) = some ['\x7d'] := rfl
  have hresult := hscan ('\x7d' :: tail)
  rw [hstop] at hresult
  simpa [scan, outside] using hresult

theorem balanced_some {s esc : Bool} {cs body : List Char} (h : balanced d s esc cs = some body) :
    ∃ front tail, body = front ++ ['\x7d'] ∧ cs = body ++ tail := by
  induction cs generalizing d s esc body with
  | nil => cases h
  | cons ch rest ih =>
    have hstep : ∀ {d s esc}, (balanced d s esc rest).map (ch :: ·) = some body →
        ∃ front tail, body = front ++ ['\x7d'] ∧ ch :: rest = body ++ tail := by
      intro d s esc hmap
      obtain ⟨body', hbody, rfl⟩ := Option.map_eq_some_iff.mp hmap
      obtain ⟨front, tail, hfront, htail⟩ := ih hbody
      refine ⟨ch :: front, tail, ?_, ?_⟩
      · rw [hfront]
        rfl
      · rw [htail]
        rfl
    unfold balanced at h
    split_ifs at h with _ _ _ hclose
    · exact hstep h
    · exact hstep h
    · exact hstep h
    · cases h
      exact ⟨[], rest, congrArg (fun c => [c]) hclose, rfl⟩
    · exact hstep h
    · exact hstep h

end Scanning

section Extraction

/-- A decoder that takes the JSON texts and no others, and an object for an object. -/
structure ExactDecoder (loads : String → Option Loaded) : Prop where
  accepts : ∀ text, (loads text).isSome ↔ Json .text text.toList
  object : ∀ cs, IsObject cs → ∃ action, loads (.ofList cs) = some (.object action)

def StartsObject (cs : List Char) : Prop := ∃ body, body <+: cs ∧ IsObject body

theorem not_startsObject_nil : ¬StartsObject [] := by
  rintro ⟨body, hbefore, inner, rfl, -⟩
  cases List.prefix_nil.mp hbefore

theorem starts_open {c : Char} {cs : List Char} (h : StartsObject (c :: cs)) : c = '\x7b' := by
  obtain ⟨body, ⟨tail, htail⟩, inner, rfl, -⟩ := h
  exact (List.cons.inj htail).1.symm

theorem startsObject_iff {cs : List Char} : StartsObject ('\x7b' :: cs) ↔
    ∃ body, balanced 0 false false ('\x7b' :: cs) = some body ∧ Json .text body := by
  constructor
  · rintro ⟨body, ⟨tail, htail⟩, h⟩
    refine ⟨body, ?_, h.text⟩
    rw [← htail]
    exact balanced_object h tail
  · rintro ⟨body, hbalanced, htext⟩
    obtain ⟨front, tail, hfront, htail⟩ := balanced_some hbalanced
    refine ⟨body, ⟨tail, htail.symm⟩, ?_⟩
    cases front with
    | nil =>
      rw [hfront] at htail
      cases htail
    | cons c front =>
      rw [hfront] at htail htext ⊢
      cases htail
      exact htext.text_object

variable {lib : BrowseLibrary} (hexact : ExactDecoder lib.loads)

include hexact

theorem extract_object {body cs : List Char} (hbefore : body <+: cs) (h : IsObject body) :
    ∃ action, lib.loads (.ofList body) = some (.object action) ∧
      extractJsonObject lib cs = some action := by
  obtain ⟨action, haction⟩ := hexact.object body h
  obtain ⟨tail, rfl⟩ := hbefore
  refine ⟨action, haction, ?_⟩
  have hbalanced := balanced_object h tail
  obtain ⟨inner, rfl, -⟩ := h
  simp only [List.cons_append] at hbalanced ⊢
  rw [extractJsonObject, if_pos rfl, hbalanced]
  simp only [haction]

theorem extract_skip {ch : Char} {rest : List Char} (h : ¬StartsObject (ch :: rest)) :
    extractJsonObject lib (ch :: rest) = extractJsonObject lib rest := by
  rw [extractJsonObject]
  split_ifs with hopen
  · subst hopen
    cases hbalanced : balanced 0 false false ('\x7b' :: rest) with
    | none => rfl
    | some body =>
      have hrefused : lib.loads (.ofList body) = none := by
        apply Option.not_isSome_iff_eq_none.mp
        rw [hexact.accepts, String.toList_ofList]
        exact fun htext => h (startsObject_iff.mpr ⟨body, hbalanced, htext⟩)
      simp only [hrefused]
  · rfl

theorem extract_skips {i : ℕ} {text : List Char} (h : ∀ j < i, ¬StartsObject (text.drop j)) :
    extractJsonObject lib text = extractJsonObject lib (text.drop i) := by
  induction text generalizing i with
  | nil => rw [List.drop_nil]
  | cons ch rest ih =>
    cases i with
    | zero => rfl
    | succ i =>
      rw [extract_skip hexact (h 0 (Nat.succ_pos i)), List.drop_succ_cons]
      apply ih
      intro j hj
      exact h (j + 1) (Nat.succ_lt_succ hj)

theorem extract_first {i : ℕ} {text : List Char} (hfirst : ∀ j < i, ¬StartsObject (text.drop j))
    {body : List Char} (hbefore : body <+: text.drop i) (h : IsObject body) :
    ∃ action, lib.loads (.ofList body) = some (.object action) ∧
      extractJsonObject lib text = some action := by
  rw [extract_skips hexact hfirst]
  exact extract_object hexact hbefore h

theorem extract_none {text : List Char} : extractJsonObject lib text = none ↔
    ∀ i, ¬StartsObject (text.drop i) := by
  constructor
  · intro hnone i
    -- the first place at which an object starts would give one
    induction i using Nat.strong_induction_on with
    | _ i ih =>
      rintro ⟨body, hbefore, h⟩
      obtain ⟨action, -, hsome⟩ := extract_first hexact ih hbefore h
      rw [hnone] at hsome
      cases hsome
  · intro h
    have hall := extract_skips hexact (i := text.length) fun j _ => h j
    rw [hall, List.drop_length]
    rfl

theorem extract_first_object (text : List Char) :
    (extractJsonObject lib text = none ↔ ∀ body, body <:+: text → ¬IsObject body) ∧
      ∀ i body, (∀ j < i, ¬StartsObject (text.drop j)) → body <+: text.drop i → IsObject body →
        ∃ action, lib.loads (.ofList body) = some (.object action) ∧
          extractJsonObject lib text = some action := by
  refine ⟨?_, fun i body hfirst => extract_first hexact hfirst⟩
  rw [extract_none hexact]
  constructor
  · rintro hnone body ⟨front, back, rfl⟩ h
    apply hnone front.length
    refine ⟨body, ⟨back, ?_⟩, h⟩
    rw [List.append_assoc, List.drop_left]
  · rintro hnone i ⟨body, hbefore, h⟩
    exact hnone body (hbefore.isInfix.trans (List.drop_suffix i text).isInfix) h

end Extraction

section Sample

def startsObject : List Char → Bool
  | [] => false
  | c :: cs => c = '\x7b' ∧ ∃ body ∈ balanced 0 false false (c :: cs), Json .text body

instance (cs : List Char) : Decidable (StartsObject cs) :=
  decidable_of_iff (startsObject cs) <| by
    cases cs with
    | nil => exact iff_of_false Bool.false_ne_true not_startsObject_nil
    | cons c cs =>
      simp only [startsObject, decide_eq_true_eq, Option.mem_def]
      constructor
      · rintro ⟨rfl, h⟩
        exact startsObject_iff.mpr h
      · intro h
        cases starts_open h
        exact ⟨rfl, startsObject_iff.mp h⟩

def doneObject : String := "\x7b\"action\": \"done\"\x7d"

def doneAction : Action := KeyedTable.Table.put (KeyedTable.Table.empty _) ("action", .text "done")

def doneLoads (text : String) : Option Loaded :=
  if Json .text text.toList then
    if (text.toList.dropWhile isBlank).head? = some '\x7b' then some (.object doneAction)
    else some .other
  else none

def doneLibrary : BrowseLibrary where
  isSpace c := c = ' '
  urlsplit url := .error ⟨"ValueError", url⟩
  join _ location := .ok location
  lower c := [c.toLower]
  isDigit := Char.isDigit
  loads := doneLoads
  cssEscape := id
  trim := id

theorem done_exact : ExactDecoder doneLoads := by
  constructor
  · intro text
    unfold doneLoads
    split_ifs with htext hobject
    · exact iff_of_true rfl htext
    · exact iff_of_true rfl htext
    · exact iff_of_false Bool.false_ne_true htext
  · intro cs h
    have htext : Json .text (String.ofList cs).toList := by
      rw [String.toList_ofList]
      exact h.text
    refine ⟨doneAction, ?_⟩
    obtain ⟨inner, rfl, -⟩ := h
    unfold doneLoads
    rw [if_pos htext, String.toList_ofList]
    rfl

def doneReply : String := "so \x7bthis\x7d: " ++ doneObject

theorem done_extracted : ∃ action, doneLibrary.loads doneObject = some (.object action) ∧
    extractJsonObject doneLibrary doneReply.toList = some action := by
  have hfirst : ∀ j < 11, ¬StartsObject (doneReply.toList.drop j) := by decide +kernel
  have hobject : IsObject doneObject.toList :=
    ⟨"\"action\": \"done\"".toList, by decide, .inr (by decide +kernel)⟩
  have hbefore : doneObject.toList <+: doneReply.toList.drop 11 := by decide +kernel
  have hexact : ExactDecoder doneLibrary.loads := done_exact
  have hfound := (extract_first_object hexact doneReply.toList).2 11 doneObject.toList hfirst hbefore
    hobject
  rwa [String.ofList_toList] at hfound

end Sample

end Workbench.Browse
