import Workbench.KeyedTable
import Mathlib.Algebra.BigOperators.Group.List.Basic

namespace Workbench.Tallies

open KeyedTable

variable {K V : Type} [DecidableEq K] [AddCommMonoid V]

abbrev Tally (K V : Type) [DecidableEq K] := Table (Prod.fst : K × V → K)

def amount (t : Tally K V) (k : K) : V := ((t.get k).map Prod.snd).getD 0

def add (t : Tally K V) (e : K × V) : Tally K V := t.put (e.1, amount t e.1 + e.2)

def added (entries : List (K × V)) (k : K) : V := ((entries.filter fun e => e.1 = k).map Prod.snd).sum

theorem added_append (xs ys : List (K × V)) (k : K) : added (xs ++ ys) k = added xs k + added ys k := by
  simp [added]

theorem added_cons (e : K × V) (entries : List (K × V)) (k : K) :
    added (e :: entries) k = (if e.1 = k then e.2 else 0) + added entries k := by
  unfold added
  split_ifs with h
  · rw [List.filter_cons_of_pos (by simpa using h), List.map_cons, List.sum_cons]
  · rw [List.filter_cons_of_neg (by simpa using h), zero_add]

theorem added_flatten (entries : List (List (K × V))) (k : K) :
    added entries.flatten k = (entries.map fun es => added es k).sum := by
  induction entries with
  | nil => rfl
  | cons es entries ih => rw [List.flatten_cons, added_append, ih, List.map_cons, List.sum_cons]

theorem amount_add (t : Tally K V) (e : K × V) (k : K) :
    amount (add t e) k = amount t k + if e.1 = k then e.2 else 0 := by
  unfold add
  rw [amount, Table.get_put]
  split_ifs with h
  · rw [← h]
    rfl
  · rw [add_zero]
    rfl

theorem amount_foldl (entries : List (K × V)) (t : Tally K V) (k : K) :
    amount (entries.foldl add t) k = amount t k + added entries k := by
  induction entries generalizing t with
  | nil => simp [added]
  | cons e entries ih => rw [List.foldl_cons, ih, amount_add, added_cons, add_assoc]

theorem mem_foldl_keys (entries : List (K × V)) (t : Tally K V) (k : K) :
    k ∈ (entries.foldl add t).rows.map Prod.fst ↔
      k ∈ entries.map Prod.fst ∨ k ∈ t.rows.map Prod.fst := by
  induction entries generalizing t with
  | nil => simp
  | cons e entries ih =>
    rw [List.foldl_cons, ih, add, Table.mem_keys_put, List.map_cons, List.mem_cons]
    constructor
    · rintro (h | h | h)
      · exact .inl (.inr h)
      · exact .inl (.inl h)
      · exact .inr h
    · rintro ((h | h) | h)
      · exact .inr (.inl h)
      · exact .inl h
      · exact .inr (.inr h)

theorem amount_of_mem {t : Tally K V} {e : K × V} (h : e ∈ t.rows) : amount t e.1 = e.2 := by
  have hget : t.get e.1 = some e := Table.get_of_mem h
  rw [amount, hget]
  rfl

end Workbench.Tallies
