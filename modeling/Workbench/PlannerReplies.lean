import Workbench.AutonomousRuns

namespace Workbench.Planners

open AgentRuntime PyJson

variable {J : Type}

def maxSubquestions : ℕ := 3

section Parse

variable (lib : AutonomousLibrary J)

def solid (item : Json) : Bool := PyText.strip (lib.str item) ≠ ""

def subquestionsOf (fallback : String) (data : Json) : Except PyError (List String) :=
  (data.get "sub_questions" (.list [])).bind fun value => value.iter.map fun items =>
    let subs := (items.filter (solid lib)).map lib.str
    if subs = [] then [fallback] else subs.take maxSubquestions

def parseSubquestions (text fallback : String) : Except PyError (List String) :=
  (loadObject lib.loads text).bind fun data =>
    data.elim (.ok [fallback]) (subquestionsOf lib fallback)

def firstOf (most : ℕ) (fallback : String) (kept : List String) : List String :=
  if kept = [] then [fallback] else kept.take most

def planned (clean : Json → String) (most : ℕ) (fallback : String) (items : List Json) : List String :=
  firstOf most fallback ((items.filter (solid lib)).map clean)

def UsableList (v : Json) : Prop :=
  ∃ texts : List String, v = .list (texts.map .str) ∧ ∃ t ∈ texts, PyText.strip t ≠ ""

def UsableReply (text key : String) : Prop :=
  ∃ slice fields value, objectSlice text = some slice ∧ lib.loads slice = .ok (.dict fields) ∧
    field fields key = some value ∧ UsableList value

def Degrades (text key fallback : String) (most : ℕ) (result : Except PyError (List String)) : Prop :=
  ∃ texts, result = .ok texts ∧ 1 ≤ texts.length ∧ texts.length ≤ most ∧
    (¬UsableReply lib text key → texts = [fallback])

/-- The value can be iterated, and if it is no usable list then its items come to nothing but
spaces, or to the fallback alone. -/
def Plannable (clean : Json → String) (fallback : String) (value : Json) : Prop :=
  ∃ items, value.iter = .ok items ∧ (UsableList value ∨ (items.filter (solid lib)).map clean = [] ∨
    (items.filter (solid lib)).map clean = [fallback])

variable {lib}

theorem firstOf_length {most : ℕ} (hmost : 0 < most) (fallback : String) (kept : List String) :
    1 ≤ (firstOf most fallback kept).length ∧ (firstOf most fallback kept).length ≤ most := by
  unfold firstOf
  split_ifs with hnil
  · exact ⟨Nat.le_refl 1, hmost⟩
  · have hpos := List.length_pos_iff.mpr hnil
    rw [List.length_take]
    omega

theorem firstOf_eq_fallback {most : ℕ} (hmost : 1 < most) {fallback : String} {kept : List String} :
    firstOf most fallback kept = [fallback] ↔ kept = [] ∨ kept = [fallback] := by
  unfold firstOf
  split_ifs with hnil
  · simp [hnil]
  · simp only [hnil, false_or]
    constructor
    · intro htake
      have hlength := congrArg List.length htake
      rw [List.length_take, List.length_singleton] at hlength
      rwa [List.take_of_length_le (by omega)] at htake
    · rintro rfl
      exact List.take_of_length_le (Nat.le_of_lt hmost)

theorem degrades_fallback {text key fallback : String} {most : ℕ} (hmost : 0 < most) :
    Degrades lib text key fallback most (.ok [fallback]) :=
  ⟨[fallback], rfl, Nat.le_refl 1, hmost, fun _ => rfl⟩

theorem degrades_value {text slice : String} (key fallback : String) {fields : Dict}
    (clean : Json → String) {most : ℕ} (hmost : 1 < most) (hslice : objectSlice text = some slice)
    (hloads : lib.loads slice = .ok (.dict fields)) :
    Degrades lib text key fallback most
        (((field fields key).getD (.list [])).iter.map (planned lib clean most fallback)) ↔
      Plannable lib clean fallback ((field fields key).getD (.list [])) := by
  have husable : UsableReply lib text key ↔ UsableList ((field fields key).getD (.list [])) := by
    constructor
    · rintro ⟨slice', fields', value, hslice', hloads', hvalue, h⟩
      rw [hslice] at hslice'
      cases hslice'
      rw [hloads] at hloads'
      cases hloads'
      rw [hvalue]
      exact h
    · intro h
      cases hvalue : field fields key with
      | none =>
        rw [hvalue] at h
        obtain ⟨texts, htexts, t, ht, -⟩ := h
        have hnil : texts = [] := List.map_eq_nil_iff.mp (Json.list.inj htexts).symm
        rw [hnil] at ht
        cases ht
      | some value =>
        rw [hvalue] at h
        exact ⟨slice, fields, value, hslice, hloads, hvalue, h⟩
  unfold Degrades Plannable
  rw [husable]
  cases hitems : ((field fields key).getD (.list [])).iter with
  | error e => simp [Except.map]
  | ok items =>
    have hlength := firstOf_length (Nat.lt_of_succ_lt hmost) fallback
      ((items.filter (solid lib)).map clean)
    constructor
    · rintro ⟨texts, htexts, -, -, hfallback⟩
      refine ⟨items, rfl, ?_⟩
      cases htexts
      by_cases h : UsableList ((field fields key).getD (.list []))
      · exact .inl h
      · exact .inr ((firstOf_eq_fallback hmost).mp (hfallback h))
    · rintro ⟨items', hsame, h⟩
      cases hsame
      refine ⟨_, rfl, hlength.1, hlength.2, ?_⟩
      intro hunusable
      rcases h with h | h
      · exact absurd h hunusable
      · exact (firstOf_eq_fallback hmost).mpr h

theorem parsePlan_eq (text goal : String) : parsePlan lib text goal =
    (loadObject lib.loads text).bind fun data => match data with
      | some (.dict fields) => ((field fields "steps").getD (.list [])).iter.map
          (planned lib (fun s => PyText.strip (lib.str s)) maxPlanSteps goal)
      | _ => .ok [goal] := by
  have hsteps : ∀ raws : List Json,
      (raws.map fun s => PyText.strip (lib.str s)).filter (· ≠ "") =
        (raws.filter (solid lib)).map fun s => PyText.strip (lib.str s) := by
    intro raws
    rw [List.filter_map]
    rfl
  unfold parsePlan extractObject
  simp only [hsteps]
  rfl

theorem parseSubquestions_eq (text question : String) : parseSubquestions lib text question =
    (loadObject lib.loads text).bind fun data => match data with
      | some data => (data.get "sub_questions" (.list [])).bind fun value =>
          value.iter.map (planned lib lib.str maxSubquestions question)
      | none => .ok [question] := by
  unfold parseSubquestions
  congr 1
  funext data
  cases data <;> rfl

theorem loadObject_none {text : String} (h : objectSlice text = none) :
    loadObject lib.loads text = .ok none := by
  unfold loadObject
  rw [h]

theorem loadObject_ok {text slice : String} {data : Json} (hslice : objectSlice text = some slice)
    (h : lib.loads slice = .ok data) : loadObject lib.loads text = .ok (some data) := by
  unfold loadObject
  rw [hslice]
  simp only [h]

theorem loadObject_error {text slice : String} {e : LoadsError}
    (hslice : objectSlice text = some slice) (h : lib.loads slice = .error e) :
    loadObject lib.loads text = if e = .decode then .ok none else .error e.error := by
  unfold loadObject
  rw [hslice]
  cases e <;> simp [h]

theorem plan_degrades_iff (text goal : String) :
    Degrades lib text "steps" goal maxPlanSteps (parsePlan lib text goal) ↔
      Holds lib.loads text fun data => ∀ fields, data = .dict fields →
        Plannable lib (fun s => PyText.strip (lib.str s)) goal
          ((field fields "steps").getD (.list [])) := by
  have hpos : 0 < maxPlanSteps := by decide
  rw [parsePlan_eq]
  unfold Holds
  cases hslice : objectSlice text with
  | none =>
    rw [loadObject_none hslice]
    exact iff_of_true (degrades_fallback hpos) nofun
  | some slice =>
    simp only [Option.some.injEq, forall_eq']
    cases hloads : lib.loads slice with
    | error e =>
      rw [loadObject_error hslice hloads]
      cases e with
      | decode => exact iff_of_true (degrades_fallback hpos) (.inl rfl)
      | value => simp [Degrades, Except.bind]
      | recursion => simp [Degrades, Except.bind]
    | ok data =>
      rw [loadObject_ok hslice hloads]
      cases data with
      | dict fields =>
        have hvalue := degrades_value "steps" goal (fun s => PyText.strip (lib.str s))
          (show 1 < maxPlanSteps by decide) hslice hloads
        simpa [Except.bind] using hvalue
      | _ =>
        apply iff_of_true (degrades_fallback hpos)
        exact .inr ⟨_, rfl, nofun⟩

theorem subquestions_degrade_iff (text question : String) :
    Degrades lib text "sub_questions" question maxSubquestions
        (parseSubquestions lib text question) ↔
      Holds lib.loads text fun data => ∃ fields, data = .dict fields ∧
        Plannable lib lib.str question ((field fields "sub_questions").getD (.list [])) := by
  have hpos : 0 < maxSubquestions := by decide
  rw [parseSubquestions_eq]
  unfold Holds
  cases hslice : objectSlice text with
  | none =>
    rw [loadObject_none hslice]
    exact iff_of_true (degrades_fallback hpos) nofun
  | some slice =>
    simp only [Option.some.injEq, forall_eq']
    cases hloads : lib.loads slice with
    | error e =>
      rw [loadObject_error hslice hloads]
      cases e with
      | decode => exact iff_of_true (degrades_fallback hpos) (.inl rfl)
      | value => simp [Degrades, Except.bind]
      | recursion => simp [Degrades, Except.bind]
    | ok data =>
      rw [loadObject_ok hslice hloads]
      cases data with
      | dict fields =>
        have hvalue := degrades_value "sub_questions" question lib.str
          (show 1 < maxSubquestions by decide) hslice hloads
        simpa [Except.bind, Json.get] using hvalue
      | _ => simp [Degrades, Except.bind, Json.get]

def PlansDegrade (lib : AutonomousLibrary J) (text goal question : String) : Prop :=
  Degrades lib text "steps" goal maxPlanSteps (parsePlan lib text goal) ∧
    Degrades lib text "sub_questions" question maxSubquestions
      (parseSubquestions lib text question)

theorem plans_degrade_iff (lib : AutonomousLibrary J) (text goal question : String) :
    PlansDegrade lib text goal question ↔ Holds lib.loads text fun data =>
      ∃ fields, data = .dict fields ∧
        Plannable lib (fun s => PyText.strip (lib.str s)) goal
          ((field fields "steps").getD (.list [])) ∧
        Plannable lib lib.str question ((field fields "sub_questions").getD (.list [])) := by
  unfold PlansDegrade
  rw [plan_degrades_iff, subquestions_degrade_iff]
  constructor
  · rintro ⟨hplan, hquestions⟩ slice hslice
    rcases hquestions slice hslice with hdecode | ⟨data, hloads, fields, rfl, hvalue⟩
    · exact .inl hdecode
    · right
      rcases hplan slice hslice with hdecode | ⟨data, hsame, hsteps⟩
      · rw [hloads] at hdecode
        cases hdecode
      · rw [hloads] at hsame
        cases hsame
        exact ⟨_, hloads, fields, rfl, hsteps fields rfl, hvalue⟩
  · intro h
    constructor
    · intro slice hslice
      rcases h slice hslice with hdecode | ⟨data, hloads, fields, rfl, hsteps, -⟩
      · exact .inl hdecode
      · right
        refine ⟨_, hloads, ?_⟩
        intro fields' hfields
        cases hfields
        exact hsteps
    · intro slice hslice
      rcases h slice hslice with hdecode | ⟨data, hloads, fields, rfl, -, hvalue⟩
      · exact .inl hdecode
      · exact .inr ⟨_, hloads, fields, rfl, hvalue⟩

end Parse

section Sample

def nullReply : String := "\x7b\"steps\": null, \"sub_questions\": null\x7d"

def nullObject : Dict := [("steps", .null), ("sub_questions", .null)]

def nullLibrary : AutonomousLibrary Unit where
  dumps _ := "\x7b\x7d"
  loads text := if text = nullReply then .ok (.dict nullObject) else .error .decode
  str _ := "None"
  rememberInput _ := .error ""

/-- A `null` under the key is iterated, which raises a `TypeError`. -/
theorem null_steps_raise : ¬ ∀ text goal question, goal ≠ "" → question ≠ "" →
    PlansDegrade nullLibrary text goal question := by
  intro h
  obtain ⟨⟨texts, htexts, -⟩, -⟩ := h nullReply "goal" "question" (by decide) (by decide)
  have hslice : objectSlice nullReply = some nullReply := by decide +kernel
  have hloads : nullLibrary.loads nullReply = .ok (.dict nullObject) := by simp [nullLibrary]
  rw [parsePlan_eq, loadObject_ok hslice hloads] at htexts
  cases htexts

end Sample

end Workbench.Planners
