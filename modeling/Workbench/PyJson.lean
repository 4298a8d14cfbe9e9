import Workbench.PyText
import Mathlib.Algebra.Order.Ring.Unbundled.Rat
import Mathlib.Data.Int.Notation
import Mathlib.Data.List.Forall2

namespace Workbench.PyJson

/-- A `float` is `none` when it is an infinity or not a number. -/
inductive Json
  | null
  | bool (value : Bool)
  | int (value : ℤ)
  | float (value : Option ℚ)
  | str (value : String)
  | list (items : List Json)
  | dict (fields : List (String × Json))

abbrev Dict := List (String × Json)

def field (fields : Dict) (key : String) : Option Json := fields.lookup key

inductive PyError
  | typeError
  | attributeError
  | keyError (text : String)
  | indexError (text : String)
  | valueError
  | validationError
  | recursionError
  | raised (typeName : String)
  deriving DecidableEq

def PyError.typeName : PyError → String
  | typeError => "TypeError"
  | attributeError => "AttributeError"
  | keyError _ => "KeyError"
  | indexError _ => "IndexError"
  | valueError => "ValueError"
  | validationError => "ValidationError"
  | recursionError => "RecursionError"
  | raised typeName => typeName

/-- What `json.loads` raises: a `JSONDecodeError`, another `ValueError`, or a `RecursionError`. -/
inductive LoadsError
  | decode
  | value
  | recursion
  deriving DecidableEq

def LoadsError.error : LoadsError → PyError
  | decode => .raised "JSONDecodeError"
  | value => .valueError
  | recursion => .recursionError

def Fine {α : Type} (x : Except PyError α) : Prop := ∃ a, x = .ok a

section Fine

variable {α β : Type}

theorem bind_eq_ok {ε : Type} {x : Except ε α} {f : α → Except ε β} {b : β} :
    x.bind f = .ok b ↔ ∃ a, x = .ok a ∧ f a = .ok b := by
  cases x <;> simp [Except.bind]

theorem map_eq_ok {ε : Type} {x : Except ε α} {f : α → β} {b : β} :
    x.map f = .ok b ↔ ∃ a, x = .ok a ∧ f a = b := by
  cases x <;> simp [Except.map]

theorem mapError_eq_ok {ε δ : Type} {x : Except ε α} {f : ε → δ} {a : α} :
    x.mapError f = .ok a ↔ x = .ok a := by
  cases x <;> simp [Except.mapError]

theorem forall₂_right {R : α → β → Prop} {xs : List α} {ys : List β}
    (h : List.Forall₂ R xs ys) : ∀ y ∈ ys, ∃ x ∈ xs, R x y := by
  induction h with
  | nil => exact nofun
  | @cons x y xs ys hxy _ ih =>
    intro z hz
    rcases List.mem_cons.mp hz with rfl | hz
    · exact ⟨x, List.mem_cons_self, hxy⟩
    · obtain ⟨w, hw, hwz⟩ := ih z hz
      exact ⟨w, List.mem_cons_of_mem x hw, hwz⟩

theorem mapM_eq_ok {ε : Type} {f : α → Except ε β} {as : List α} {bs : List β} :
    as.mapM f = .ok bs ↔ List.Forall₂ (fun a b => f a = .ok b) as bs := by
  induction as generalizing bs with
  | nil =>
    rw [List.forall₂_nil_left_iff]
    constructor
    · intro h
      cases h
      rfl
    · rintro rfl
      rfl
  | cons a as ih =>
    rw [List.mapM_cons]
    constructor
    · intro h
      obtain ⟨b, hb, h⟩ := bind_eq_ok.mp h
      obtain ⟨rest, hrest, h⟩ := bind_eq_ok.mp h
      cases h
      exact .cons hb (ih.mp hrest)
    · rintro (_ | ⟨hb, hrest⟩)
      exact bind_eq_ok.mpr ⟨_, hb, bind_eq_ok.mpr ⟨_, ih.mpr hrest, rfl⟩⟩

theorem fine_ok (a : α) : Fine (.ok a) := ⟨a, rfl⟩

theorem fine_bind {x : Except PyError α} {f : α → Except PyError β} :
    Fine (x.bind f) ↔ ∃ a, x = .ok a ∧ Fine (f a) := by
  cases x <;> simp [Except.bind, Fine]

theorem fine_map {x : Except PyError α} {f : α → β} : Fine (x.map f) ↔ Fine x := by
  cases x <;> simp [Except.map, Fine]

theorem fine_mapM {f : α → Except PyError β} {as : List α} :
    Fine (as.mapM f) ↔ ∀ a ∈ as, Fine (f a) := by
  induction as with
  | nil => simp [Fine, pure, Except.pure]
  | cons a as ih =>
    rw [List.mapM_cons]
    simp only [List.forall_mem_cons, ← ih]
    change Fine (Except.bind _ _) ↔ _
    rw [fine_bind]
    constructor
    · rintro ⟨b, hb, hrest⟩
      obtain ⟨bs, hbs, _⟩ := fine_bind.mp hrest
      exact ⟨⟨b, hb⟩, bs, hbs⟩
    · rintro ⟨⟨b, hb⟩, bs, hbs⟩
      exact ⟨b, hb, fine_bind.mpr ⟨bs, hbs, _, rfl⟩⟩

end Fine

namespace Json

def truthy : Json → Bool
  | null => false
  | bool value => value
  | int value => value ≠ 0
  | float value => value ≠ some 0
  | str value => value ≠ ""
  | list items => !items.isEmpty
  | dict fields => !fields.isEmpty

def orElse (v d : Json) : Json := if v.truthy then v else d

def item (v : Json) (key : String) : Except PyError Json :=
  match v with
  | dict fields =>
    match field fields key with
    | some value => .ok value
    | none => .error (.keyError ("'" ++ key ++ "'"))
  | _ => .error .typeError

def first : Json → Except PyError Json
  | list [] => .error (.indexError "list index out of range")
  | list (value :: _) => .ok value
  | str value =>
    match value.toList with
    | [] => .error (.indexError "string index out of range")
    | c :: _ => .ok (str c.toString)
  | dict _ => .error (.keyError "0")
  | _ => .error .typeError

def get (v : Json) (key : String) (default : Json) : Except PyError Json :=
  match v with
  | dict fields => .ok ((field fields key).getD default)
  | _ => .error .attributeError

def strip : Json → Except PyError String
  | str value => .ok (PyText.strip value)
  | _ => .error .attributeError

/-- What `for x in v` runs over. -/
def iter : Json → Except PyError (List Json)
  | list items => .ok items
  | str value => .ok (value.toList.map fun c => str c.toString)
  | dict fields => .ok (fields.map fun f => str f.1)
  | _ => .error .typeError

def asStr : Json → Except PyError String
  | str value => .ok value
  | _ => .error .validationError

def iterable : Json → Bool
  | list _ => true
  | str _ => true
  | dict _ => true
  | _ => false

theorem fine_iter {v : Json} : Fine v.iter ↔ v.iterable := by
  cases v <;> simp [iter, iterable, Fine]

theorem get_dict (fields : Dict) (key : String) (default : Json) :
    (dict fields).get key default = .ok ((field fields key).getD default) := rfl

theorem fine_get {v default : Json} {key : String} :
    Fine (v.get key default) ↔ ∃ fields, v = .dict fields := by
  cases v <;> simp [get, Fine]

theorem get_dict_bind {α : Type} {fields : Dict} {key : String} {default : Json}
    {f : Json → Except PyError α} :
    ((dict fields).get key default).bind f = f ((field fields key).getD default) := rfl

theorem fine_get_bind {α : Type} {v : Json} {key : String} {default : Json}
    {f : Json → Except PyError α} :
    Fine ((v.get key default).bind f) ↔
      ∃ fields, v = .dict fields ∧ Fine (f ((field fields key).getD default)) := by
  cases v <;> simp [get, Fine, Except.bind]

end Json

end Workbench.PyJson
