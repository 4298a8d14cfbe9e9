import Mathlib.Algebra.GroupWithZero.Nat
import Workbench.Regexes
import Mathlib.Data.List.Count

namespace Workbench.Regexes

variable {α : Type} {isWord : α → Bool}

theorem Moves.split {a b c : Cursor α} {u v : List α} (h : Moves a u b) (k : Moves b v c)
    {w : List α} (hw : Moves a w c) : w = u ++ v :=
  hw.unique (h.append k)

def TakesAtLeast (isWord p : α → Bool) (n : ℕ) (r : Regex α) : Prop :=
  ∀ a b u, b ∈ ends isWord r a → Moves a u b → n ≤ u.countP p

theorem takesAtLeast_zero (p : α → Bool) (r : Regex α) : TakesAtLeast isWord p 0 r :=
  fun _ _ _ _ _ => Nat.zero_le _

theorem takesAtLeast_char {p q : α → Bool} (h : ∀ x, q x → p x) :
    TakesAtLeast isWord p 1 (.char q) := by
  intro a b u hb hmoves
  obtain ⟨before, after⟩ := a
  cases after with
  | nil => cases hb
  | cons x after =>
    simp only [ends] at hb
    split_ifs at hb with hq
    · obtain rfl := List.mem_singleton.mp hb
      have hu : u = [x] := hmoves.unique ⟨rfl, rfl⟩
      rw [hu, List.countP_singleton]
      exact Nat.le_of_eq (if_pos (h x hq)).symm
    · cases hb

theorem takesAtLeast_seq {p : α → Bool} {m n : ℕ} {r s : Regex α}
    (hr : TakesAtLeast isWord p m r) (hs : TakesAtLeast isWord p n s) :
    TakesAtLeast isWord p (m + n) (.seq r s) := by
  intro a c w hc hmoves
  obtain ⟨b, hb, hc⟩ := List.mem_flatMap.mp hc
  obtain ⟨u, hu, -⟩ := ends_moves hb
  obtain ⟨v, hv, -⟩ := ends_moves hc
  rw [hu.split hv hmoves, List.countP_append]
  exact Nat.add_le_add (hr a b u hb hu) (hs b c v hc hv)

theorem takesAtLeast_times {p : α → Bool} {n : ℕ} {r : Regex α} (h : TakesAtLeast isWord p n r)
    (more least : ℕ) : TakesAtLeast isWord p (least * n) (r.times more least) := by
  induction least with
  | zero =>
    rw [Nat.zero_mul]
    exact takesAtLeast_zero p _
  | succ least ih =>
    have hseq := takesAtLeast_seq h ih
    rw [Nat.succ_mul, Nat.add_comm]
    exact hseq

theorem takesAtLeast_concat {p : α → Bool} (ns : List ℕ) {rs : List (Regex α)}
    (h : List.Forall₂ (TakesAtLeast isWord p) ns rs) : TakesAtLeast isWord p ns.sum (.concat rs) := by
  induction h with
  | nil => exact takesAtLeast_zero p _
  | cons hr _ ih =>
    rw [List.sum_cons]
    exact takesAtLeast_seq hr ih

theorem takesAtLeast_findIter {p : α → Bool} {n : ℕ} {r : Regex α} (h : TakesAtLeast isWord p n r)
    {text : List α} {m : Match α} (hm : m ∈ findIter isWord r text) : n ≤ m.group.countP p := by
  obtain ⟨a, b, hb, hmoves⟩ := mem_findIter hm
  exact h a b m.group hb hmoves

structure Placed (isWord : α → Bool) (r : Regex α) (text : List α) (m : Match α) (a b : Cursor α) :
    Prop where
  first : (ends isWord r a).head? = some b
  moves : Moves a m.group b
  start : m.start = a.before.length
  stop : m.stop = m.start + m.group.length
  whole : a.before.reverse ++ a.after = text

theorem take_moves {a b : Cursor α} {u : List α} (h : Moves a u b) :
    a.after.take (a.after.length - b.after.length) = u := by
  rw [h.after, List.length_append, Nat.add_sub_cancel, List.take_left]

theorem moved_length {a b : Cursor α} {u : List α} (h : Moves a u b) :
    a.after.length - b.after.length = u.length := by
  rw [h.after, List.length_append, Nat.add_sub_cancel]

theorem matchesFrom_placed {r : Regex α} {index skip : ℕ} {before after : List α} {m : Match α}
    (h : m ∈ matchesFrom isWord r index skip before after) (hindex : index = before.length) :
    index + skip ≤ m.start ∧ ∃ a b, Placed isWord r (before.reverse ++ after) m a b := by
  induction after generalizing index skip before with
  | nil => simp [matchesFrom] at h
  | cons x after ih =>
    have hnext : index + 1 = (x :: before).length := by
      rw [List.length_cons, hindex]
    have hwhole : (x :: before).reverse ++ after = before.reverse ++ x :: after := by simp
    cases skip with
    | succ skip =>
      obtain ⟨hle, hplaced⟩ := ih h hnext
      rw [hwhole] at hplaced
      exact ⟨by omega, hplaced⟩
    | zero =>
      rw [matchesFrom] at h
      cases hends : ends isWord r ⟨before, x :: after⟩ with
      | nil =>
        rw [hends] at h
        obtain ⟨hle, hplaced⟩ := ih h hnext
        rw [hwhole] at hplaced
        exact ⟨by omega, hplaced⟩
      | cons b others =>
        rw [hends] at h
        rcases List.mem_cons.mp h with rfl | h
        · obtain ⟨u, hmoves, -⟩ := ends_moves (hends ▸ List.mem_cons_self :
            b ∈ ends isWord r ⟨before, x :: after⟩)
          have hgroup := take_moves hmoves
          have hlength : (x :: after).length - b.after.length = u.length := moved_length hmoves
          refine ⟨Nat.le_refl _, ⟨before, x :: after⟩, b, ⟨?_, ?_, hindex, ?_, rfl⟩⟩
          · rw [hends]
            rfl
          · change Moves _ (List.take _ _) b
            rw [hgroup]
            exact hmoves
          · change index + _ = index + (List.take _ _).length
            rw [hgroup, hlength]
        · obtain ⟨hle, hplaced⟩ := ih h hnext
          rw [hwhole] at hplaced
          exact ⟨by omega, hplaced⟩

theorem findIter_placed {r : Regex α} {text : List α} {m : Match α}
    (h : m ∈ findIter isWord r text) : ∃ a b, Placed isWord r text m a b :=
  (matchesFrom_placed h rfl).2

theorem matchesFrom_pairwise (r : Regex α) (index skip : ℕ) (before after : List α)
    (hindex : index = before.length) :
    (matchesFrom isWord r index skip before after).Pairwise fun m n => m.stop ≤ n.start := by
  induction after generalizing index skip before with
  | nil => simp [matchesFrom]
  | cons x after ih =>
    have hnext : index + 1 = (x :: before).length := by
      rw [List.length_cons, hindex]
    cases skip with
    | succ skip => exact ih (index + 1) skip (x :: before) hnext
    | zero =>
      rw [matchesFrom]
      cases hends : ends isWord r ⟨before, x :: after⟩ with
      | nil => exact ih (index + 1) 0 (x :: before) hnext
      | cons b others =>
        apply List.Pairwise.cons
        · intro n hn
          have hle := (matchesFrom_placed hn hnext).1
          change index + _ ≤ n.start
          omega
        · exact ih (index + 1) _ (x :: before) hnext

theorem findIter_pairwise (r : Regex α) (text : List α) :
    (findIter isWord r text).Pairwise fun m n => m.stop ≤ n.start :=
  matchesFrom_pairwise r 0 0 [] text rfl

end Workbench.Regexes
