import Mathlib.Data.List.Basic
import Mathlib.Data.Nat.Notation

namespace Workbench.Regexes

variable {α : Type}

structure Cursor (α : Type) where
  before : List α
  after : List α

/-- `many p` is `p+`. -/
inductive Regex (α : Type)
  | empty
  | boundary
  | char (p : α → Bool)
  | many (p : α → Bool)
  | opt (r : Regex α)
  | seq (r s : Regex α)

namespace Regex

def upTo (r : Regex α) : ℕ → Regex α
  | 0 => empty
  | most + 1 => opt (seq r (upTo r most))

def times (r : Regex α) (more : ℕ) : ℕ → Regex α
  | 0 => upTo r more
  | least + 1 => seq r (times r more least)

def concat (rs : List (Regex α)) : Regex α := rs.foldr seq empty

def Takes (x : α) : Regex α → Prop
  | empty => False
  | boundary => False
  | char p => p x
  | many p => p x
  | opt r => r.Takes x
  | seq r s => r.Takes x ∨ s.Takes x

theorem takes_upTo {r : Regex α} {x : α} {most : ℕ} (h : (r.upTo most).Takes x) : r.Takes x := by
  induction most with
  | zero => cases h
  | succ most ih => exact Or.elim h id ih

theorem takes_times {r : Regex α} {x : α} {more least : ℕ} (h : (r.times more least).Takes x) :
    r.Takes x := by
  induction least with
  | zero => exact takes_upTo h
  | succ least ih => exact Or.elim h id ih

theorem not_takes_times {r : Regex α} {x : α} (h : ¬r.Takes x) (more least : ℕ) :
    ¬(r.times more least).Takes x := fun htimes => h (takes_times htimes)

theorem takes_concat {rs : List (Regex α)} {x : α} : (concat rs).Takes x ↔ ∃ r ∈ rs, r.Takes x := by
  induction rs with
  | nil => simp [concat, Takes]
  | cons r rs ih =>
    rw [List.exists_mem_cons_iff, ← ih]
    rfl

end Regex

structure Moves (a : Cursor α) (u : List α) (b : Cursor α) : Prop where
  after : a.after = u ++ b.after
  before : b.before = u.reverse ++ a.before

theorem Moves.nil (a : Cursor α) : Moves a [] a := ⟨rfl, rfl⟩

theorem Moves.append {a b c : Cursor α} {u v : List α} (h : Moves a u b) (k : Moves b v c) :
    Moves a (u ++ v) c := by
  constructor
  · rw [h.after, k.after, List.append_assoc]
  · rw [k.before, h.before, List.reverse_append, List.append_assoc]

section Match

variable (isWord : α → Bool)

def atBoundary (a : Cursor α) : Bool := a.before.head?.any isWord != a.after.head?.any isWord

def manyEnds (p : α → Bool) : List α → List α → List (Cursor α)
  | _, [] => []
  | before, x :: after =>
    if p x then manyEnds p (x :: before) after ++ [⟨x :: before, after⟩] else []

def ends : Regex α → Cursor α → List (Cursor α)
  | .empty, a => [a]
  | .boundary, a => if atBoundary isWord a then [a] else []
  | .char p, a => match a.after with
    | x :: after => if p x then [⟨x :: a.before, after⟩] else []
    | [] => []
  | .many p, a => manyEnds p a.before a.after
  | .opt r, a => ends r a ++ [a]
  | .seq r s, a => (ends r a).flatMap (ends s)

structure Match (α : Type) where
  start : ℕ
  stop : ℕ
  group : List α

/-- The matches from `index` on, with `skip` characters still to pass over. -/
def matchesFrom (r : Regex α) : ℕ → ℕ → List α → List α → List (Match α)
  | _, _, _, [] => []
  | index, skip + 1, before, x :: after => matchesFrom r (index + 1) skip (x :: before) after
  | index, 0, before, x :: after =>
    match ends isWord r ⟨before, x :: after⟩ with
    | [] => matchesFrom r (index + 1) 0 (x :: before) after
    | b :: _ =>
      let length := (x :: after).length - b.after.length
      ⟨index, index + length, (x :: after).take length⟩ ::
        matchesFrom r (index + 1) (length - 1) (x :: before) after

/-- `finditer`, of an expression that matches no empty text. -/
def findIter (r : Regex α) (text : List α) : List (Match α) := matchesFrom isWord r 0 0 [] text

theorem mem_manyEnds {p : α → Bool} {before after : List α} {b : Cursor α}
    (h : b ∈ manyEnds p before after) :
    ∃ u, u ≠ [] ∧ Moves ⟨before, after⟩ u b ∧ ∀ x ∈ u, p x := by
  induction after generalizing before with
  | nil => cases h
  | cons x after ih =>
    rw [manyEnds] at h
    split_ifs at h with hp
    rcases List.mem_append.mp h with h | h
    · obtain ⟨u, -, hmoves, hu⟩ := ih h
      refine ⟨x :: u, List.cons_ne_nil x u, ⟨?_, ?_⟩, List.forall_mem_cons.mpr ⟨hp, hu⟩⟩
      · rw [List.cons_append, ← hmoves.after]
      · rw [hmoves.before, List.reverse_cons, List.append_assoc, List.singleton_append]
    · obtain rfl := List.mem_singleton.mp h
      exact ⟨[x], List.cons_ne_nil x [], ⟨rfl, rfl⟩, List.forall_mem_singleton.mpr hp⟩
    · cases h

variable {isWord}

theorem mem_ends_boundary {a b : Cursor α} (h : b ∈ ends isWord .boundary a) : b = a := by
  rw [ends] at h
  split_ifs at h
  · exact List.mem_singleton.mp h
  · cases h

theorem ends_moves {r : Regex α} {a b : Cursor α} (h : b ∈ ends isWord r a) :
    ∃ u, Moves a u b ∧ ∀ x ∈ u, r.Takes x := by
  induction r generalizing a b with
  | empty =>
    obtain rfl := List.mem_singleton.mp h
    exact ⟨[], .nil b, nofun⟩
  | boundary =>
    obtain rfl := mem_ends_boundary h
    exact ⟨[], .nil b, nofun⟩
  | char p =>
    obtain ⟨before, after⟩ := a
    cases after with
    | nil => cases h
    | cons x after =>
      simp only [ends] at h
      split_ifs at h with hp
      · obtain rfl := List.mem_singleton.mp h
        exact ⟨[x], ⟨rfl, rfl⟩, List.forall_mem_singleton.mpr hp⟩
      · cases h
  | many p =>
    obtain ⟨u, -, hmoves, hu⟩ := mem_manyEnds h
    exact ⟨u, hmoves, hu⟩
  | opt r ih =>
    rcases List.mem_append.mp h with h | h
    · exact ih h
    · obtain rfl := List.mem_singleton.mp h
      exact ⟨[], .nil b, nofun⟩
  | seq r s ihr ihs =>
    obtain ⟨c, hc, hb⟩ := List.mem_flatMap.mp h
    obtain ⟨u, hu, hr⟩ := ihr hc
    obtain ⟨v, hv, hs⟩ := ihs hb
    refine ⟨u ++ v, hu.append hv, ?_⟩
    intro x hx
    rcases List.mem_append.mp hx with hx | hx
    · exact .inl (hr x hx)
    · exact .inr (hs x hx)

theorem mem_matchesFrom {r : Regex α} {index skip : ℕ} {before after : List α} {m : Match α}
    (h : m ∈ matchesFrom isWord r index skip before after) :
    ∃ a b, b ∈ ends isWord r a ∧ Moves a m.group b := by
  induction after generalizing index skip before with
  | nil => simp [matchesFrom] at h
  | cons x after ih =>
    cases skip with
    | succ skip => exact ih h
    | zero =>
      rw [matchesFrom] at h
      cases hends : ends isWord r ⟨before, x :: after⟩ with
      | nil =>
        rw [hends] at h
        exact ih h
      | cons b others =>
        rw [hends] at h
        rcases List.mem_cons.mp h with rfl | h
        · have hb : b ∈ ends isWord r ⟨before, x :: after⟩ := hends ▸ List.mem_cons_self
          obtain ⟨u, hmoves, -⟩ := ends_moves hb
          have hafter : x :: after = u ++ b.after := hmoves.after
          refine ⟨_, b, hb, ?_⟩
          have hgroup : (x :: after).take ((x :: after).length - b.after.length) = u := by
            rw [hafter, List.length_append, Nat.add_sub_cancel, List.take_left]
          rw [← hgroup] at hmoves
          exact hmoves
        · exact ih h

theorem mem_findIter {r : Regex α} {text : List α} {m : Match α} (h : m ∈ findIter isWord r text) :
    ∃ a b, b ∈ ends isWord r a ∧ Moves a m.group b :=
  mem_matchesFrom h

theorem Moves.unique {a b : Cursor α} {u v : List α} (h : Moves a u b) (k : Moves a v b) : u = v :=
  List.append_cancel_right (h.after.symm.trans k.after)

theorem takes_of_mem_findIter {r : Regex α} {text : List α} {m : Match α}
    (h : m ∈ findIter isWord r text) {x : α} (hx : x ∈ m.group) : r.Takes x := by
  obtain ⟨a, b, hb, hmoves⟩ := mem_findIter h
  obtain ⟨u, hu, htakes⟩ := ends_moves hb
  rw [hmoves.unique hu] at hx
  exact htakes x hx

end Match

end Workbench.Regexes
