import Mathlib.Order.Nat

namespace Workbench.LabelledTrees

inductive OrderedTree (L : Type)
  | node (label : L) (children : List (OrderedTree L))

variable {L : Type}

namespace OrderedTree

def label : OrderedTree L → L
  | .node label _ => label

def children : OrderedTree L → List (OrderedTree L)
  | .node _ children => children

mutual

def height : OrderedTree L → ℕ
  | .node _ children => heights children + 1

def heights : List (OrderedTree L) → ℕ
  | [] => 0
  | t :: ts => max t.height (heights ts)

end

def levels : ℕ → List (OrderedTree L) → List (OrderedTree L)
  | 0, _ => []
  | n + 1, level => level ++ levels n (level.flatMap children)

def walk (t : OrderedTree L) : List (OrderedTree L) := levels t.height [t]

inductive Within (u : OrderedTree L) : OrderedTree L → Prop
  | root : Within u u
  | child {t c : OrderedTree L} (hc : c ∈ t.children) (hu : Within u c) : Within u t

theorem height_le_heights {c : OrderedTree L} {ts : List (OrderedTree L)} (h : c ∈ ts) : c.height ≤ heights ts := by
  induction ts with
  | nil => cases h
  | cons t ts ih =>
    rw [heights]
    rcases List.mem_cons.mp h with rfl | h
    · exact Nat.le_max_left _ _
    · exact (ih h).trans (Nat.le_max_right _ _)

theorem height_child {c t : OrderedTree L} (h : c ∈ t.children) : c.height < t.height := by
  obtain ⟨label, children⟩ := t
  rw [height]
  exact Nat.lt_succ_of_le (height_le_heights h)

theorem Within.mem_levels {u t : OrderedTree L} (h : Within u t) {n : ℕ} {level : List (OrderedTree L)}
    (ht : t ∈ level) (hn : t.height ≤ n) : u ∈ levels n level := by
  induction h generalizing n level with
  | root =>
    cases n with
    | zero =>
      obtain ⟨label, children⟩ := u
      simp [height] at hn
    | succ n => exact List.mem_append_left _ ht
  | child hc _ ih =>
    have hlt := height_child hc
    cases n with
    | zero => omega
    | succ n => exact List.mem_append_right _ (ih (List.mem_flatMap.mpr ⟨_, ht, hc⟩) (by omega))

theorem within_of_mem_levels {u : OrderedTree L} {n : ℕ} {level : List (OrderedTree L)} (h : u ∈ levels n level) :
    ∃ t ∈ level, Within u t := by
  induction n generalizing level with
  | zero => cases h
  | succ n ih =>
    rcases List.mem_append.mp h with h | h
    · exact ⟨u, h, .root⟩
    · obtain ⟨c, hc, hu⟩ := ih h
      obtain ⟨t, ht, hct⟩ := List.mem_flatMap.mp hc
      exact ⟨t, ht, .child hct hu⟩

theorem mem_walk {u t : OrderedTree L} : u ∈ t.walk ↔ Within u t := by
  constructor
  · intro h
    obtain ⟨t', ht, hu⟩ := within_of_mem_levels h
    exact List.mem_singleton.mp ht ▸ hu
  · exact fun h => h.mem_levels (List.mem_singleton_self t) (Nat.le_refl _)

end OrderedTree

end Workbench.LabelledTrees
