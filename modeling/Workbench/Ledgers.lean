import Mathlib.Algebra.BigOperators.Group.List.Basic
import Mathlib.Data.List.ReduceOption

namespace Workbench.Ledgers

variable {O E α β : Type}

structure Ledger (O E α : Type) where
  calls : List O
  result : Except E α

namespace Ledger

def ofExcept (result : Except E α) : Ledger O E α := ⟨[], result⟩

def ask (reply : Except E O) : Ledger O E O := ⟨reply.toOption.toList, reply⟩

def bind (p : Ledger O E α) (f : α → Ledger O E β) : Ledger O E β :=
  match p.result with
  | .ok a => ⟨p.calls ++ (f a).calls, (f a).result⟩
  | .error e => ⟨p.calls, .error e⟩

theorem ofExcept_calls (result : Except E α) : (ofExcept result : Ledger O E α).calls = [] := rfl

theorem bind_ok {p : Ledger O E α} {f : α → Ledger O E β} {b : β} (h : (p.bind f).result = .ok b) :
    ∃ a, p.result = .ok a ∧ (f a).result = .ok b ∧ (p.bind f).calls = p.calls ++ (f a).calls := by
  unfold bind at h ⊢
  cases hp : p.result with
  | error e =>
    rw [hp] at h
    cases h
  | ok a =>
    rw [hp] at h
    exact ⟨a, rfl, h, rfl⟩

theorem ask_ok {reply : Except E O} {out : O} (h : (ask reply).result = .ok out) :
    (ask reply).calls = [out] := by
  have hreply : reply = .ok out := h
  rw [hreply]
  rfl

end Ledger

section Totals

variable [AddCommMonoid α] [DecidableEq α]

def total (values : List (Option α)) : Option α :=
  if none ∈ values then none else some values.reduceOption.sum

theorem total_append (as bs : List (Option α)) :
    total (as ++ bs) = (total as).bind fun a => (total bs).map fun b => a + b := by
  unfold total
  by_cases ha : none ∈ as
  · simp [ha]
  · by_cases hb : none ∈ bs
    · simp [hb]
    · simp [ha, hb, List.reduceOption_append]

theorem total_singleton (a : Option α) : total [a] = a := by
  unfold total
  cases a with
  | none => rfl
  | some a => simp [List.reduceOption]

end Totals

end Workbench.Ledgers
