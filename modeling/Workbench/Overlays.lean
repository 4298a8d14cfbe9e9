import Mathlib.Data.List.Induction
import Mathlib.Data.List.Perm.Basic
import Mathlib.Data.Nat.Notation

namespace Workbench.Overlays

variable {α : Type}

def overlay (old new : List α) : List α := new ++ old.drop new.length

def overlays (versions : List (List α)) : List α := versions.foldl overlay []

theorem getElem?_overlay (old new : List α) (i : ℕ) :
    (overlay old new)[i]? = if i < new.length then new[i]? else old[i]? := by
  unfold overlay
  split_ifs with hi
  · exact List.getElem?_append_left hi
  · rw [List.getElem?_append_right (by omega), List.getElem?_drop]
    congr 1
    omega

theorem length_overlay (old new : List α) : (overlay old new).length = max old.length new.length := by
  rw [overlay, List.length_append, List.length_drop]
  omega

theorem overlays_concat (versions : List (List α)) (new : List α) :
    overlays (versions ++ [new]) = overlay (overlays versions) new := by
  rw [overlays, List.foldl_append]
  rfl

theorem length_overlays_le {versions : List (List α)} {n : ℕ} :
    (overlays versions).length ≤ n ↔ ∀ version ∈ versions, version.length ≤ n := by
  induction versions using List.reverseRecOn with
  | nil => simp [overlays]
  | append_singleton versions new ih =>
    rw [overlays_concat, length_overlay, Nat.max_le, ih, List.forall_mem_append]
    simp

theorem overlays_perm_last {versions : List (List α)} {last : List α} :
    (overlays (versions ++ [last])).Perm last ↔ ∀ version ∈ versions, version.length ≤ last.length := by
  rw [overlays_concat, ← length_overlays_le]
  constructor
  · intro h
    have hlength := h.length_eq
    rw [length_overlay] at hlength
    omega
  · intro h
    rw [overlay, List.drop_of_length_le h, List.append_nil]

end Workbench.Overlays
