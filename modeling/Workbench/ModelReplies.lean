import Workbench.AgentLoop
import Workbench.PyJson

namespace Workbench.AgentRuntime

open PyJson

structure StepRequest where
  prompt : String
  complexity : Complexity
  system : String
  maxTokens : ℤ

def pyExc (e : PyError) : Exc := ⟨e.typeName, match e with
  | .keyError text => text
  | .indexError text => text
  | _ => ""⟩

def noProviderAvailable : Exc :=
  ⟨"NoProviderAvailableError", "no model provider is currently available for this request"⟩

/-- From the first opening brace to the last closing one. -/
def objectSlice (text : String) : Option String :=
  (PyText.between '\x7b' '\x7d' text.toList).map String.ofList

def loadObject (loads : String → Except LoadsError Json) (text : String) : Except PyError (Option Json) :=
  match objectSlice text with
  | none => .ok none
  | some slice =>
    match loads slice with
    | .ok data => .ok (some data)
    | .error .decode => .ok none
    | .error e => .error e.error

structure ReplyLibrary where
  loads : String → Except LoadsError Json
  str : Json → Except PyError String

/-- What `router.step` comes to when the model's answer is this one, or there is no provider. -/
def stepOf {J : Type} (answer : Option (StepOutput J)) (_request : StepRequest) :
    Except Exc (StepOutput J) :=
  answer.elim (.error noProviderAvailable) .ok

def Holds (loads : String → Except LoadsError Json) (text : String) (p : Json → Prop) : Prop :=
  ∀ slice, objectSlice text = some slice →
    loads slice = .error .decode ∨ ∃ data, loads slice = .ok data ∧ p data

theorem fine_loadObject {α : Type} {loads : String → Except LoadsError Json} {text : String} {a : α}
    {f : Json → Except PyError α} :
    Fine ((loadObject loads text).bind fun data => data.elim (.ok a) f) ↔
      Holds loads text fun data => Fine (f data) := by
  unfold loadObject Holds
  rw [fine_bind]
  cases hslice : objectSlice text with
  | none => simp [fine_ok]
  | some slice =>
    simp only [Option.some.injEq, forall_eq']
    cases hloads : loads slice with
    | ok data => simp
    | error e => cases e <;> simp [fine_ok]

theorem loadObject_keeps {α β : Type} {loads : String → Except LoadsError Json} {text : String} {a b : α}
    {f : Json → Except PyError α} {g : α → β} (hf : ∀ data b, f data = .ok b → g b = g a)
    (h : ((loadObject loads text).bind fun data => data.elim (.ok a) f) = .ok b) : g b = g a := by
  obtain ⟨data, -, hdata⟩ := bind_eq_ok.mp h
  cases data with
  | none =>
    cases hdata
    rfl
  | some data => exact hf data b hdata

theorem Holds.congr {loads : String → Except LoadsError Json} {text : String} {p q : Json → Prop}
    (h : ∀ data, p data ↔ q data) : Holds loads text p ↔ Holds loads text q := by
  unfold Holds
  simp only [h]

end Workbench.AgentRuntime
