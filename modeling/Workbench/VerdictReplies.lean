import Workbench.AutonomousRuns
import Mathlib.Algebra.Order.Ring.Int

namespace Workbench.Verdicts

open AgentRuntime PyJson

inductive PyFloat
  | finite (q : ℚ)
  | posInf
  | negInf
  | nan

def PyFloat.clamped : PyFloat → ℚ
  | finite q => max 0 (min 1 q)
  | posInf => 1
  | negInf => 0
  | nan => 1

/-- `nonFinite` is what a JSON number is that is none of ℚ. -/
structure VerdictLibrary (J : Type) extends AutonomousLibrary J where
  floatOfText : String → Option PyFloat
  nonFinite : PyFloat
  loads_empty : loads "" = .error .decode
  loads_closer : loads "\x7d" = .error .decode

structure JudgeVerdict where
  score : ℚ
  passed : Bool
  reasoning : String
  parseError : Bool

structure Review where
  reviewScore : PyFloat
  reviewPassed : Bool
  reviewFeedback : String

def floatLimit : ℤ := 2 ^ 1024 - 2 ^ 970

/-- `except (json.JSONDecodeError, KeyError, TypeError, ValueError)` -/
def caught : PyError → Bool
  | .keyError _ => true
  | .typeError => true
  | .valueError => true
  | .validationError => true
  | .raised typeName => typeName = "JSONDecodeError"
  | _ => false

section Parse

variable {J : Type} (lib : VerdictLibrary J)

/-- Python's `float`; rounding leaves an integer on its side of 0 and of 1. -/
def floatOf : Json → Except PyError PyFloat
  | .bool value => .ok (.finite (if value then 1 else 0))
  | .int value =>
    if |value| < floatLimit then .ok (.finite value) else .error (.raised "OverflowError")
  | .float (some value) => .ok (.finite value)
  | .float none => .ok lib.nonFinite
  | .str value =>
    match lib.floatOfText value with
    | some x => .ok x
    | none => .error .valueError
  | _ => .error .typeError

def judged (textKey : String) (data : Json) : Except PyError (PyFloat × Bool × String) :=
  (data.item "score").bind fun score => (floatOf lib score).bind fun x =>
    (data.item "passed").bind fun passed => (data.get textKey (.str "")).map fun text =>
      (x, passed.truthy, lib.str text)

def loaded (textKey slice : String) : Except PyError (PyFloat × Bool × String) :=
  ((lib.loads slice).mapError LoadsError.error).bind (judged lib textKey)

def unparseable : JudgeVerdict := ⟨0, false, "unparseable verdict", true⟩

def parseVerdict (text : String) : Except PyError JudgeVerdict :=
  match objectSlice text with
  | none => .ok unparseable
  | some slice =>
    match loaded lib "reasoning" slice with
    | .ok (score, passed, reasoning) => .ok ⟨score.clamped, passed, reasoning, false⟩
    | .error e => if caught e then .ok unparseable else .error e

def found (position : Option ℕ) : ℤ := position.elim (-1) fun i => i

/-- `cs[start:stop]` -/
def pySlice (cs : List Char) (start stop : ℤ) : List Char :=
  let place (i : ℤ) : ℕ := (if i < 0 then i + cs.length else i).toNat
  (cs.take (place stop)).drop (place start)

def braceSlice (cs : List Char) : List Char :=
  pySlice cs (found (cs.idxOf? '\x7b')) (found (PyText.rfind '\x7d' cs) + 1)

def reviewSlice (text : String) : String := .ofList (braceSlice text.toList)

def review (text : String) : Except PyError Review :=
  match loaded lib "feedback" (reviewSlice text) with
  | .ok (score, passed, feedback) => .ok ⟨score, passed, feedback⟩
  | .error e => if caught e then .ok ⟨.finite 0, false, "unparseable review"⟩ else .error e

end Parse

section Slices

theorem getElem?_rfind {c : Char} {cs : List Char} {i : ℕ} (h : PyText.rfind c cs = some i) :
    cs[i]? = some c := by
  obtain ⟨j, hj, rfl⟩ := Option.map_eq_some_iff.mp h
  obtain ⟨hlt, hget, -⟩ := List.idxOf?_eq_some_iff.mp hj
  rw [List.length_reverse] at hlt
  have hreverse : cs.reverse[j]? = some c := by
    rw [List.getElem?_eq_getElem (by rwa [List.length_reverse])]
    simpa using hget
  rwa [List.getElem?_reverse hlt] at hreverse

theorem drop_take_one {cs : List Char} {i : ℕ} {c : Char} (h : cs[i]? = some c) :
    (cs.take (i + 1)).drop i = [c] := by
  rw [List.drop_take, Nat.add_sub_cancel_left]
  obtain ⟨hlt, hget⟩ := List.getElem?_eq_some_iff.mp h
  rw [List.drop_eq_getElem_cons hlt, hget]
  rfl

theorem pySlice_nat (cs : List Char) (start stop : ℕ) :
    pySlice cs start stop = (cs.take stop).drop start := by
  have hstart : ¬((start : ℤ) < 0) := by omega
  have hstop : ¬((stop : ℤ) < 0) := by omega
  simp only [pySlice, if_neg hstart, if_neg hstop, Int.toNat_natCast]

theorem pySlice_last (cs : List Char) (stop : ℕ) :
    pySlice cs (-1) stop = (cs.take stop).drop (cs.length - 1) := by
  have hstart : (-1 + (cs.length : ℤ)).toNat = cs.length - 1 := by omega
  have hstop : ¬((stop : ℤ) < 0) := by omega
  simp only [pySlice, if_neg hstop, Int.toNat_natCast, if_pos (show (-1 : ℤ) < 0 by omega), hstart]

theorem braceSlice_cases (cs : List Char) :
    PyText.between '\x7b' '\x7d' cs = some (braceSlice cs) ∨
      PyText.between '\x7b' '\x7d' cs = none ∧ (braceSlice cs = [] ∨ braceSlice cs = ['\x7d']) := by
  unfold PyText.between braceSlice
  cases hlast : PyText.rfind '\x7d' cs with
  | none =>
    right
    have hzero : found none + 1 = ((0 : ℕ) : ℤ) := rfl
    rw [hzero]
    cases cs.idxOf? '\x7b' with
    | none => exact ⟨rfl, .inl (by rw [found, Option.elim_none, pySlice_last]; simp)⟩
    | some start => exact ⟨rfl, .inl (by rw [found, Option.elim_some, pySlice_nat]; simp)⟩
  | some last =>
    have hget := getElem?_rfind hlast
    obtain ⟨hlt, -⟩ := List.getElem?_eq_some_iff.mp hget
    have hnext : found (some last) + 1 = ((last + 1 : ℕ) : ℤ) := rfl
    rw [hnext]
    cases cs.idxOf? '\x7b' with
    | none =>
      right
      rw [found, Option.elim_none, pySlice_last]
      refine ⟨rfl, ?_⟩
      by_cases he : last = cs.length - 1
      · right
        rw [← he]
        exact drop_take_one hget
      · left
        apply List.drop_eq_nil_of_le
        rw [List.length_take]
        omega
    | some start =>
      rw [found, Option.elim_some, pySlice_nat]
      by_cases hle : last ≤ start
      · right
        simp only [if_pos hle, true_and]
        by_cases he : last = start
        · right
          rw [← he]
          exact drop_take_one hget
        · left
          apply List.drop_eq_nil_of_le
          rw [List.length_take]
          omega
      · left
        simp only [if_neg hle]

theorem reviewSlice_cases (text : String) :
    objectSlice text = some (reviewSlice text) ∨
      objectSlice text = none ∧ (reviewSlice text = "" ∨ reviewSlice text = "\x7d") := by
  unfold objectSlice reviewSlice
  rcases braceSlice_cases text.toList with h | ⟨h, hslice | hslice⟩
  · left
    rw [h]
    rfl
  · right
    rw [h, hslice]
    exact ⟨rfl, .inl rfl⟩
  · right
    rw [h, hslice]
    exact ⟨rfl, .inr rfl⟩

end Slices

section Closed

variable {J : Type} (lib : VerdictLibrary J)

def TrueUnder (text key : String) : Prop :=
  ∃ slice fields, objectSlice text = some slice ∧ lib.loads slice = .ok (.dict fields) ∧
    field fields key = some (.bool true)

def VerdictClosed (text : String) : Prop :=
  ∃ v, parseVerdict lib text = .ok v ∧ 0 ≤ v.score ∧ v.score ≤ 1 ∧
    (v.passed = true → TrueUnder lib text "passed")

def ReflectionClosed (text : String) : Prop :=
  ∃ r, parseReflection lib.toAutonomousLibrary text = .ok r ∧
    (r.goalMet = true → TrueUnder lib text "goal_met")

def ReviewClosed (text : String) : Prop :=
  ∀ r, review lib text = .ok r → r.reviewPassed = true → TrueUnder lib text "passed"

def PlainFlag (fields : Dict) (key : String) : Prop :=
  ∀ v, field fields key = some v → v.truthy = true → v = .bool true

def ScoreFits (fields : Dict) : Prop :=
  ∀ n, field fields "score" = some (.int n) → |n| < floatLimit

def Scored (fields : Dict) : Prop :=
  ∃ score x, field fields "score" = some score ∧ floatOf lib score = .ok x

variable {lib}

theorem clamped_bounds (x : PyFloat) : 0 ≤ x.clamped ∧ x.clamped ≤ 1 := by
  cases x with
  | finite q => exact ⟨le_max_left _ _, max_le (by decide) (min_le_left _ _)⟩
  | posInf => exact ⟨by decide, by decide⟩
  | negInf => exact ⟨by decide, by decide⟩
  | nan => exact ⟨by decide, by decide⟩

theorem floatOf_error {v : Json} {e : PyError} (h : floatOf lib v = .error e) :
    caught e = true ∨ ∃ n, v = .int n ∧ ¬|n| < floatLimit := by
  cases v with
  | null =>
    cases h
    exact .inl rfl
  | bool value => cases h
  | int value =>
    by_cases hn : |value| < floatLimit
    · simp [floatOf, hn] at h
    · exact .inr ⟨value, rfl, hn⟩
  | float value => cases value <;> cases h
  | str value =>
    simp only [floatOf] at h
    cases htext : lib.floatOfText value with
    | none =>
      rw [htext] at h
      cases h
      exact .inl rfl
    | some x =>
      rw [htext] at h
      cases h
  | list items =>
    cases h
    exact .inl rfl
  | dict fields =>
    cases h
    exact .inl rfl

theorem item_dict {fields : Dict} {key : String} {value : Json} (h : field fields key = some value) :
    (Json.dict fields).item key = .ok value := by
  simp [Json.item, h]

theorem item_error {v : Json} {key : String} {e : PyError} (h : v.item key = .error e) :
    caught e = true := by
  unfold Json.item at h
  split at h
  · split at h
    · cases h
    · cases h
      rfl
  · cases h
    rfl

theorem item_ok {v value : Json} {key : String} (h : v.item key = .ok value) :
    ∃ fields, v = .dict fields ∧ field fields key = some value := by
  unfold Json.item at h
  split at h
  · rename_i fields
    split at h
    · rename_i found hfound
      cases h
      exact ⟨fields, rfl, hfound⟩
    · cases h
  · cases h

theorem judged_ok {textKey : String} {data : Json} {x : PyFloat} {passed : Bool} {text : String}
    (h : judged lib textKey data = .ok (x, passed, text)) :
    ∃ fields value, data = .dict fields ∧ Scored lib fields ∧
      field fields "passed" = some value ∧ passed = value.truthy := by
  obtain ⟨score, hscore, h⟩ := bind_eq_ok.mp h
  obtain ⟨x', hx, h⟩ := bind_eq_ok.mp h
  obtain ⟨value, hvalue, h⟩ := bind_eq_ok.mp h
  obtain ⟨t, ht, h⟩ := map_eq_ok.mp h
  cases h
  obtain ⟨fields, rfl, hfield⟩ := item_ok hscore
  obtain ⟨fields', hfields, hpassed⟩ := item_ok hvalue
  cases hfields
  exact ⟨fields, value, rfl, ⟨score, x, hfield, hx⟩, hpassed, rfl⟩

theorem judged_scored {textKey : String} {fields : Dict} {value : Json} (hscored : Scored lib fields)
    (hvalue : field fields "passed" = some value) :
    ∃ x text, judged lib textKey (.dict fields) = .ok (x, value.truthy, text) := by
  obtain ⟨score, x, hscore, hx⟩ := hscored
  refine ⟨x, lib.str ((field fields textKey).getD (.str "")), ?_⟩
  unfold judged
  rw [item_dict hscore, item_dict hvalue]
  change ((floatOf lib score).bind _) = _
  rw [hx]
  rfl

/-- Only an integer too large for a float gets past the `except` clause. -/
theorem judged_error {textKey : String} {data : Json} {e : PyError}
    (h : judged lib textKey data = .error e) :
    caught e = true ∨ ∃ fields n, data = .dict fields ∧ field fields "score" = some (.int n) ∧
      ¬|n| < floatLimit := by
  unfold judged at h
  cases hscore : data.item "score" with
  | error e' =>
    rw [hscore] at h
    cases h
    exact .inl (item_error hscore)
  | ok score =>
    obtain ⟨fields, rfl, hfield⟩ := item_ok hscore
    rw [hscore] at h
    change (floatOf lib score).bind _ = _ at h
    cases hx : floatOf lib score with
    | error e' =>
      rw [hx] at h
      cases h
      rcases floatOf_error hx with hcaught | ⟨n, rfl, hn⟩
      · exact .inl hcaught
      · exact .inr ⟨fields, n, rfl, hfield, hn⟩
    | ok x =>
      rw [hx] at h
      cases hpassed : (Json.dict fields).item "passed" with
      | error e' =>
        rw [hpassed] at h
        cases h
        exact .inl (item_error hpassed)
      | ok passed =>
        rw [hpassed] at h
        cases h

theorem judged_overflow {textKey : String} {fields : Dict} {n : ℤ}
    (hscore : field fields "score" = some (.int n)) (hn : ¬|n| < floatLimit) :
    judged lib textKey (.dict fields) = .error (.raised "OverflowError") := by
  unfold judged
  rw [item_dict hscore]
  simp [Except.bind, floatOf, hn]

theorem loaded_ok {textKey slice : String} {data : Json} (h : lib.loads slice = .ok data) :
    loaded lib textKey slice = judged lib textKey data := by
  unfold loaded
  rw [h]
  rfl

theorem loaded_error {textKey slice : String} {e : LoadsError} (h : lib.loads slice = .error e) :
    loaded lib textKey slice = .error e.error := by
  unfold loaded
  rw [h]
  rfl

theorem caught_loads {e : LoadsError} : caught e.error = true ↔ e ≠ .recursion := by
  cases e <;> decide

def Judgeable (lib : VerdictLibrary J) (fields : Dict) : Prop :=
  ScoreFits fields ∧ (Scored lib fields → PlainFlag fields "passed")

theorem parseVerdict_ok {text slice t : String} {x : PyFloat} {passed : Bool}
    (hslice : objectSlice text = some slice) (h : loaded lib "reasoning" slice = .ok (x, passed, t)) :
    parseVerdict lib text = .ok ⟨x.clamped, passed, t, false⟩ := by
  simp only [parseVerdict, hslice, h]

theorem parseVerdict_error {text slice : String} {e : PyError}
    (hslice : objectSlice text = some slice) (h : loaded lib "reasoning" slice = .error e) :
    parseVerdict lib text = if caught e then .ok unparseable else .error e := by
  simp only [parseVerdict, hslice, h]

theorem verdictClosed_unparseable {text : String} (h : parseVerdict lib text = .ok unparseable) :
    VerdictClosed lib text :=
  ⟨unparseable, h, by decide, by decide, nofun⟩

theorem trueUnder_iff {text slice key : String} {fields : Dict} {value : Json}
    (hslice : objectSlice text = some slice) (hloads : lib.loads slice = .ok (.dict fields))
    (hvalue : field fields key = some value) : TrueUnder lib text key ↔ value = .bool true := by
  constructor
  · rintro ⟨slice', fields', hslice', hloads', htrue⟩
    rw [hslice] at hslice'
    cases hslice'
    rw [hloads] at hloads'
    cases hloads'
    rw [hvalue] at htrue
    exact Option.some.inj htrue
  · rintro rfl
    exact ⟨slice, fields, hslice, hloads, hvalue⟩

theorem verdictClosed_of {text slice : String} (hslice : objectSlice text = some slice)
    (hrecursion : lib.loads slice ≠ .error .recursion)
    (h : ∀ fields, lib.loads slice = .ok (.dict fields) → Judgeable lib fields) :
    VerdictClosed lib text := by
  cases hloads : lib.loads slice with
  | error e =>
    have hcaught : caught e.error = true := by
      apply caught_loads.mpr
      rintro rfl
      exact hrecursion hloads
    apply verdictClosed_unparseable
    rw [parseVerdict_error hslice (loaded_error hloads), if_pos hcaught]
  | ok data =>
    cases hjudged : judged lib "reasoning" data with
    | error e =>
      have hcaught : caught e = true := by
        rcases judged_error hjudged with hcaught | ⟨fields, n, rfl, hscore, hn⟩
        · exact hcaught
        · exact absurd ((h fields hloads).1 n hscore) hn
      apply verdictClosed_unparseable
      rw [parseVerdict_error hslice ((loaded_ok hloads).trans hjudged), if_pos hcaught]
    | ok judgement =>
      obtain ⟨x, passed, t⟩ := judgement
      obtain ⟨fields, value, rfl, hscored, hvalue, rfl⟩ := judged_ok hjudged
      refine ⟨_, parseVerdict_ok hslice ((loaded_ok hloads).trans hjudged), (clamped_bounds x).1,
        (clamped_bounds x).2, ?_⟩
      intro htruthy
      exact (trueUnder_iff hslice hloads hvalue).mpr ((h fields hloads).2 hscored value hvalue htruthy)

theorem verdictClosed_iff (text : String) : VerdictClosed lib text ↔
    ∀ slice, objectSlice text = some slice → lib.loads slice ≠ .error .recursion ∧
      ∀ fields, lib.loads slice = .ok (.dict fields) → Judgeable lib fields := by
  constructor
  · rintro ⟨v, hv, -, -, hpassed⟩ slice hslice
    constructor
    · intro hloads
      rw [parseVerdict_error hslice (loaded_error hloads)] at hv
      cases hv
    · intro fields hloads
      constructor
      · intro n hscore
        by_contra hn
        rw [parseVerdict_error hslice ((loaded_ok hloads).trans (judged_overflow hscore hn))] at hv
        simp [caught] at hv
      · intro hscored value hvalue htruthy
        obtain ⟨x, t, hjudged⟩ := judged_scored hscored hvalue
        rw [parseVerdict_ok hslice ((loaded_ok hloads).trans hjudged)] at hv
        cases hv
        exact (trueUnder_iff hslice hloads hvalue).mp (hpassed htruthy)
  · intro h
    cases hslice : objectSlice text with
    | none =>
      apply verdictClosed_unparseable
      simp only [parseVerdict, hslice]
    | some slice => exact verdictClosed_of hslice (h slice hslice).1 (h slice hslice).2

def unread : Reflection := ⟨false, "could not parse reflect response", ""⟩

theorem parseReflection_none {text : String} (h : objectSlice text = none) :
    parseReflection lib.toAutonomousLibrary text = .ok unread := by
  simp [parseReflection, extractObject, loadObject, h, Except.map, unread]

theorem parseReflection_error {text slice : String} {e : LoadsError}
    (hslice : objectSlice text = some slice) (h : lib.loads slice = .error e) :
    parseReflection lib.toAutonomousLibrary text =
      if e = .decode then .ok unread else .error e.error := by
  cases e <;> simp [parseReflection, extractObject, loadObject, hslice, h, Except.map, unread]

theorem parseReflection_ok {text slice : String} {data : Json}
    (hslice : objectSlice text = some slice) (h : lib.loads slice = .ok data) :
    ∃ r, parseReflection lib.toAutonomousLibrary text = .ok r ∧ (r.goalMet = true ↔
      ∃ fields value, data = .dict fields ∧ field fields "goal_met" = some value ∧
        value.truthy = true) := by
  cases data with
  | dict fields =>
    cases hvalue : field fields "goal_met" with
    | none => simp [parseReflection, extractObject, loadObject, hslice, h, hvalue, Except.map]
    | some value => simp [parseReflection, extractObject, loadObject, hslice, h, hvalue, Except.map]
  | _ => simp [parseReflection, extractObject, loadObject, hslice, h, Except.map]

theorem reflectionClosed_iff (text : String) : ReflectionClosed lib text ↔
    ∀ slice, objectSlice text = some slice → (∀ e, lib.loads slice = .error e → e = .decode) ∧
      ∀ fields, lib.loads slice = .ok (.dict fields) → PlainFlag fields "goal_met" := by
  constructor
  · rintro ⟨r, hr, hmet⟩ slice hslice
    constructor
    · intro e hloads
      by_contra hne
      rw [parseReflection_error hslice hloads, if_neg hne] at hr
      cases hr
    · intro fields hloads value hvalue htruthy
      obtain ⟨r', hr', hiff⟩ := parseReflection_ok hslice hloads
      rw [hr] at hr'
      cases hr'
      exact (trueUnder_iff hslice hloads hvalue).mp (hmet (hiff.mpr ⟨fields, value, rfl, hvalue, htruthy⟩))
  · intro h
    cases hslice : objectSlice text with
    | none => exact ⟨unread, parseReflection_none hslice, nofun⟩
    | some slice =>
      obtain ⟨hdecode, hplain⟩ := h slice hslice
      cases hloads : lib.loads slice with
      | error e =>
        refine ⟨unread, ?_, nofun⟩
        rw [parseReflection_error hslice hloads, if_pos (hdecode e hloads)]
      | ok data =>
        obtain ⟨r, hr, hiff⟩ := parseReflection_ok hslice hloads
        refine ⟨r, hr, ?_⟩
        intro hmet
        obtain ⟨fields, value, rfl, hvalue, htruthy⟩ := hiff.mp hmet
        exact (trueUnder_iff hslice hloads hvalue).mpr (hplain fields hloads value hvalue htruthy)

theorem reviewClosed_of {text : String} (h : ∀ slice, objectSlice text = some slice →
    ∀ fields, lib.loads slice = .ok (.dict fields) → Judgeable lib fields) :
    ReviewClosed lib text := by
  intro r hr hpassed
  cases hloaded : loaded lib "feedback" (reviewSlice text) with
  | error e =>
    simp only [review, hloaded] at hr
    split_ifs at hr
    cases hr
    cases hpassed
  | ok judgement =>
    obtain ⟨x, passed, t⟩ := judgement
    simp only [review, hloaded, Except.ok.injEq] at hr
    rw [← hr] at hpassed
    cases hloads : lib.loads (reviewSlice text) with
    | error e =>
      rw [loaded_error hloads] at hloaded
      cases hloaded
    | ok data =>
      rw [loaded_ok hloads] at hloaded
      obtain ⟨fields, value, rfl, hscored, hvalue, rfl⟩ := judged_ok hloaded
      rcases reviewSlice_cases text with hslice | ⟨-, hempty | hcloser⟩
      · apply (trueUnder_iff hslice hloads hvalue).mpr
        exact (h _ hslice fields hloads).2 hscored value hvalue hpassed
      · rw [hempty, lib.loads_empty] at hloads
        cases hloads
      · rw [hcloser, lib.loads_closer] at hloads
        cases hloads

def FailsClosed (lib : VerdictLibrary J) (text : String) : Prop :=
  VerdictClosed lib text ∧ ReflectionClosed lib text ∧ ReviewClosed lib text

/-- The slice from the first brace to the last is no JSON, or a value; and an object has no score
too large for a float, and flags that are `true` if they are true. -/
def PlainReply (lib : VerdictLibrary J) (text : String) : Prop :=
  ∀ slice, objectSlice text = some slice → (∀ e, lib.loads slice = .error e → e = .decode) ∧
    ∀ fields, lib.loads slice = .ok (.dict fields) →
      Judgeable lib fields ∧ PlainFlag fields "goal_met"

theorem fails_closed_iff (lib : VerdictLibrary J) (text : String) :
    FailsClosed lib text ↔ PlainReply lib text := by
  constructor
  · rintro ⟨hverdict, hreflection, -⟩ slice hslice
    have hjudgeable := (verdictClosed_iff text).mp hverdict slice hslice
    have hplain := (reflectionClosed_iff text).mp hreflection slice hslice
    exact ⟨hplain.1, fun fields hloads => ⟨hjudgeable.2 fields hloads, hplain.2 fields hloads⟩⟩
  · intro h
    refine ⟨(verdictClosed_iff text).mpr ?_, (reflectionClosed_iff text).mpr ?_, reviewClosed_of ?_⟩
    · intro slice hslice
      refine ⟨?_, fun fields hloads => ((h slice hslice).2 fields hloads).1⟩
      intro hloads
      cases (h slice hslice).1 .recursion hloads
    · intro slice hslice
      exact ⟨(h slice hslice).1, fun fields hloads => ((h slice hslice).2 fields hloads).2⟩
    · intro slice hslice fields hloads
      exact ((h slice hslice).2 fields hloads).1

end Closed

section Sample

def sampleReply : String :=
  "\x7b\"score\": 0.2, \"passed\": \"false\", \"goal_met\": \"false\"\x7d"

def sampleObject : Dict :=
  [("score", .float (some (1 / 5))), ("passed", .str "false"), ("goal_met", .str "false")]

def sampleLoads (text : String) : Except LoadsError Json :=
  if text = sampleReply then .ok (.dict sampleObject) else .error .decode

def sampleLibrary : VerdictLibrary Unit where
  dumps _ := "\x7b\x7d"
  loads := sampleLoads
  str _ := ""
  rememberInput _ := .error ""
  floatOfText _ := none
  nonFinite := .nan
  loads_empty := if_neg (by decide)
  loads_closer := if_neg (by decide)

/-- The string `"false"` passes the judge, meets the goal and passes the review. -/
theorem string_false_passes : ¬ ∀ text, FailsClosed sampleLibrary text := by
  intro h
  obtain ⟨⟨v, hv, -, -, hpassed⟩, -, -⟩ := h sampleReply
  have hslice : objectSlice sampleReply = some sampleReply := by decide +kernel
  have hloads : sampleLibrary.loads sampleReply = .ok (.dict sampleObject) := by
    simp [sampleLibrary, sampleLoads]
  have hscored : Scored sampleLibrary sampleObject := ⟨_, _, rfl, rfl⟩
  have hvalue : field sampleObject "passed" = some (.str "false") := rfl
  obtain ⟨x, t, hjudged⟩ := judged_scored hscored hvalue
  rw [parseVerdict_ok hslice ((loaded_ok hloads).trans hjudged)] at hv
  cases hv
  have htrue := (trueUnder_iff hslice hloads hvalue).mp (hpassed rfl)
  cases htrue

end Sample

end Workbench.Verdicts
