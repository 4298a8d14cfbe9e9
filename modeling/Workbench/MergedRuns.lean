import Mathlib.Data.List.Forall2
import Mathlib.Data.List.Induction
import Mathlib.Data.List.SplitBy

namespace Workbench.MergedRuns

variable {α K B : Type}

theorem splitBy_cons_cons (r : α → α → Bool) (a b : α) (l : List α) :
    (a :: b :: l).splitBy r = if r a b then ((b :: l).splitBy r).modifyHead (a :: ·)
      else [a] :: (b :: l).splitBy r := by
  split_ifs with hab
  · have hsplit : ((b :: l).splitBy r).flatten = b :: l := List.flatten_splitBy r _
    have hnil := List.nil_notMem_splitBy r (b :: l)
    have hchain : ∀ run ∈ (b :: l).splitBy r, run.IsChain fun x y => r x y :=
      fun _ => List.isChain_of_mem_splitBy
    have hbreaks := List.isChain_getLast_head_splitBy r (b :: l)
    match hruns : (b :: l).splitBy r with
    | [] => exact absurd (List.splitBy_eq_nil.mp hruns) (List.cons_ne_nil b l)
    | [] :: runs =>
      rw [hruns] at hnil
      exact absurd List.mem_cons_self hnil
    | (c :: run) :: runs =>
      rw [hruns] at hsplit hnil hchain hbreaks
      obtain rfl : c = b := (List.cons.inj hsplit).1
      apply List.splitBy_eq_iff.mpr
      refine ⟨?_, ?_, ?_, ?_⟩
      · rw [List.modifyHead_cons, List.flatten_cons, List.cons_append]
        exact congrArg (a :: ·) hsplit.symm
      · rw [List.modifyHead_cons, List.mem_cons, not_or]
        exact ⟨nofun, fun h => hnil (List.mem_cons_of_mem _ h)⟩
      · intro m hm
        rcases List.mem_cons.mp hm with rfl | hm
        · exact List.isChain_cons_cons.mpr ⟨hab, hchain _ List.mem_cons_self⟩
        · exact hchain m (List.mem_cons_of_mem _ hm)
      · rw [List.modifyHead_cons]
        rw [List.isChain_cons] at hbreaks ⊢
        refine ⟨?_, hbreaks.2⟩
        intro next hnext
        obtain ⟨_, hne, hlast⟩ := hbreaks.1 next hnext
        exact ⟨List.cons_ne_nil _ _, hne, by rwa [List.getLast_cons (List.cons_ne_nil c run)]⟩
  · have happend := List.splitBy_append (r := r) (l := [a]) (m := b :: l) (by simpa using hab)
    exact happend

variable [DecidableEq K]

def put (groups : List (K × List B)) (key : K) (content : List B) : List (K × List B) :=
  match groups with
  | [] => [(key, content)]
  | [g] => if g.1 = key then [(g.1, g.2 ++ content)] else [g, (key, content)]
  | g :: h :: groups => g :: put (h :: groups) key content

def prepend (key : K) (content : List B) : List (K × List B) → List (K × List B)
  | [] => [(key, content)]
  | g :: groups =>
    if key = g.1 then (key, content ++ g.2) :: groups else (key, content) :: g :: groups

def merged (key : α → K) (content : α → List B) : List α → List (K × List B)
  | [] => []
  | i :: items => prepend (key i) (content i) (merged key content items)

theorem put_concat (front : List (K × List B)) (g : K × List B) (key : K) (content : List B) :
    put (front ++ [g]) key content =
      front ++ if g.1 = key then [(g.1, g.2 ++ content)] else [g, (key, content)] := by
  induction front with
  | nil => rfl
  | cons h front ih =>
    cases front with
    | nil => exact congrArg (h :: ·) ih
    | cons h' front => exact congrArg (h :: ·) ih

theorem put_prepend (key key' : K) (content content' : List B) (groups : List (K × List B)) :
    put (prepend key content groups) key' content' = prepend key content (put groups key' content') := by
  match groups with
  | [] => simp only [prepend, put]
  | [g] =>
    by_cases hk : key = g.1
    · by_cases hk' : g.1 = key' <;> simp [put, prepend, hk, hk']
    · by_cases hk' : g.1 = key'
      · subst hk'
        simp [put, prepend, hk]
      · simp [put, prepend, hk, hk']
  | g :: h :: groups =>
    simp only [prepend, put]
    split_ifs <;> rfl

variable {key : α → K} {content : α → List B}

theorem put_merged (items : List α) (i : α) :
    put (merged key content items) (key i) (content i) = merged key content (items ++ [i]) := by
  induction items with
  | nil => rfl
  | cons j items ih =>
    rw [merged, put_prepend, ih]
    rfl

theorem foldl_put (items : List α) :
    items.foldl (fun groups i => put groups (key i) (content i)) [] = merged key content items := by
  induction items using List.reverseRecOn with
  | nil => rfl
  | append_singleton items i ih => rw [List.foldl_concat, ih, put_merged]

theorem head_prepend (k : K) (c : List B) (groups : List (K × List B)) :
    ∃ rest tail, prepend k c groups = (k, c ++ rest) :: tail := by
  cases groups with
  | nil => exact ⟨[], [], by rw [prepend, List.append_nil]⟩
  | cons g groups =>
    simp only [prepend]
    split_ifs
    · exact ⟨g.2, groups, rfl⟩
    · exact ⟨[], g :: groups, by rw [List.append_nil]⟩

theorem alternates_prepend {groups : List (K × List B)} (h : groups.IsChain (·.1 ≠ ·.1)) (k : K)
    (c : List B) : (prepend k c groups).IsChain (·.1 ≠ ·.1) := by
  cases groups with
  | nil => exact List.isChain_singleton _
  | cons g groups =>
    simp only [prepend]
    split_ifs with hk
    · rw [List.isChain_cons] at h ⊢
      exact ⟨fun next hnext => hk ▸ h.1 next hnext, h.2⟩
    · exact List.isChain_cons_cons.mpr ⟨hk, h⟩

theorem merged_alternates (items : List α) : (merged key content items).IsChain (·.1 ≠ ·.1) := by
  induction items with
  | nil => exact List.isChain_nil
  | cons i items ih => exact alternates_prepend ih (key i) (content i)

theorem merged_runs (items : List α) :
    List.Forall₂ (fun run (g : K × List B) => g.2 = run.flatMap content)
      (items.splitBy fun i j => key i = key j) (merged key content items) := by
  induction items with
  | nil => exact .nil
  | cons i items ih =>
    cases items with
    | nil => exact .cons (List.append_nil _).symm .nil
    | cons j items =>
      obtain ⟨rest, tail, hgroups⟩ := head_prepend (key j) (content j) (merged key content items)
      rw [splitBy_cons_cons, merged]
      rw [merged, hgroups] at ih ⊢
      generalize (j :: items).splitBy (fun i j => key i = key j) = runs at ih ⊢
      cases ih with
      | @cons run _ runs _ hrun hruns =>
        simp only [prepend, decide_eq_true_eq]
        split_ifs
        · exact .cons (congrArg (content i ++ ·) hrun) hruns
        · exact .cons (List.append_nil _).symm (.cons hrun hruns)

theorem merged_filled (items : List α) : (∀ g ∈ merged key content items, g.2 ≠ []) ↔
    ∀ run ∈ items.splitBy fun i j => key i = key j, ∃ i ∈ run, content i ≠ [] := by
  have hruns : List.Forall₂ _ _ (merged key content items) := merged_runs items
  generalize items.splitBy (fun i j => key i = key j) = runs at hruns
  generalize merged key content items = groups at hruns
  induction hruns with
  | nil => simp
  | @cons run g runs groups hrun _ ih =>
    rw [List.forall_mem_cons, List.forall_mem_cons]
    exact and_congr (by simp [hrun]) ih

end Workbench.MergedRuns
