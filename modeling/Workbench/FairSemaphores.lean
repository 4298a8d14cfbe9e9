import Workbench.Semaphores
import Mathlib.Data.List.Nodup

namespace Workbench.Semaphores.Semaphore

variable {C : Type} {s t : Semaphore C} {hs us ws : List C} {c : C}

def Queue (s : Semaphore C) (hs us : List C) : Prop :=
  s.waiters = hs.map (·, true) ++ us.map (·, false)

def woken [DecidableEq C] (s t : Semaphore C) : List C :=
  (t.waiters.filter fun w => w.2 && !s.waiters.contains w).map Prod.fst

theorem queue_created (value : ℕ) : (created C value).Queue [] [] := rfl

theorem Queue.handed (h : s.Queue hs us) : s.handed = hs.length := by
  have htrue : (hs.map (·, true)).countP Prod.snd = hs.length := by
    induction hs with
    | nil => rfl
    | cons c hs ih => simp [Function.comp_def]
  have hfalse : (us.map (·, false)).countP Prod.snd = 0 := by
    rw [List.countP_eq_zero]
    intro w hw
    obtain ⟨c, -, rfl⟩ := List.mem_map.mp hw
    simp
  unfold Semaphore.handed
  rw [h, List.countP_append, htrue, hfalse, Nat.add_zero]

theorem Queue.handed_mem (h : s.Queue hs us) : (c, true) ∈ s.waiters ↔ c ∈ hs := by
  rw [h]
  simp

theorem Live.no_waiter (hlive : s.Live) (h : s.Queue [] us) (hpos : 0 < s.value) : us = [] := by
  by_contra hne
  have hwaits : s.waiters ≠ [] := by
    rw [h]
    simp [hne]
  have hhanded := hlive hpos hwaits
  rw [h.handed] at hhanded
  exact absurd hhanded (Nat.lt_irrefl 0)

theorem wakeFirst_queue (hs : List C) (c : C) (us : List C) :
    wakeFirst (hs.map (·, true) ++ (c :: us).map (·, false)) =
      some ((hs ++ [c]).map (·, true) ++ us.map (·, false)) := by
  induction hs with
  | nil => rfl
  | cons d hs ih =>
    simp only [List.map_cons, List.cons_append] at ih ⊢
    rw [wakeFirst, ih]
    rfl

theorem wakeFirst_served (hs : List C) : wakeFirst (hs.map (·, true)) = none := by
  induction hs with
  | nil => rfl
  | cons c hs ih => rw [List.map_cons, wakeFirst, ih, Option.map_none]

theorem Queue.wakeUpNext (h : s.Queue hs us) :
    ∃ ws vs, us = ws ++ vs ∧ s.wakeUpNext.Queue (hs ++ ws) vs := by
  rcases wakeUpNext_cases s with ⟨waiters, hw, -, hwaiters⟩ | ⟨he, -⟩
  · cases us with
    | nil =>
      rw [h, List.map_nil, List.append_nil, wakeFirst_served] at hw
      cases hw
    | cons c us =>
      rw [h, wakeFirst_queue] at hw
      refine ⟨[c], us, rfl, ?_⟩
      rw [Queue, hwaiters, ← Option.some.inj hw]
  · exact ⟨[], us, rfl, by rw [he, List.append_nil]; exact h⟩

theorem Queue.wakeUp (n : ℕ) (h : s.Queue hs us) :
    ∃ ws vs, us = ws ++ vs ∧ (wakeUp n s).Queue (hs ++ ws) vs := by
  induction n generalizing s hs us with
  | zero => exact ⟨[], us, rfl, by rw [List.append_nil]; exact h⟩
  | succ n ih =>
    obtain ⟨ws, vs, rfl, hnext⟩ := h.wakeUpNext
    obtain ⟨ws', vs', rfl, hrest⟩ := ih hnext
    refine ⟨ws ++ ws', vs', by rw [List.append_assoc], ?_⟩
    rw [← List.append_assoc]
    exact hrest

theorem Queue.acquire (h : s.Queue hs us) :
    (s.acquire c).2 = false ∧ (s.acquire c).1.Queue hs (us ++ [c]) ∨
      (s.acquire c).2 = true ∧ hs = [] ∧ us = [] ∧ (s.acquire c).1.Queue [] [] := by
  unfold Semaphore.acquire
  by_cases hlocked : s.locked = true
  · rw [if_pos hlocked]
    refine .inl ⟨rfl, ?_⟩
    unfold Queue at h ⊢
    simp [h]
  · rw [if_neg hlocked]
    rw [locked_iff, not_or, not_not] at hlocked
    have hempty := hlocked.2
    rw [h, List.append_eq_nil_iff, List.map_eq_nil_iff, List.map_eq_nil_iff] at hempty
    refine .inr ⟨rfl, hempty.1, hempty.2, ?_⟩
    unfold Queue
    simp [hlocked.2]

variable [DecidableEq C]

theorem woken_queue {gs : List C} (hs' : s.Queue hs us) (ht : t.Queue (gs ++ ws) vs)
    (hgs : ∀ c ∈ gs, c ∈ hs) (hws : ∀ c ∈ ws, c ∉ hs) : woken s t = ws := by
  have hfresh : ∀ cs : List C, (cs.map (·, true)).filter
      (fun w => w.2 && !s.waiters.contains w) = (cs.filter fun c => c ∉ hs).map (·, true) := by
    intro cs
    rw [List.filter_map]
    congr 1
    apply List.filter_congr
    intro c _
    simp [hs'.handed_mem]
  have hrest : (vs.map (·, false)).filter (fun w => w.2 && !s.waiters.contains w) = [] := by
    rw [List.filter_eq_nil_iff]
    intro w hw
    obtain ⟨c, -, rfl⟩ := List.mem_map.mp hw
    simp
  have hnone : gs.filter (fun c => c ∉ hs) = [] := by
    rw [List.filter_eq_nil_iff]
    intro c hc
    simp [hgs c hc]
  have hall : ws.filter (fun c => c ∉ hs) = ws := by
    rw [List.filter_eq_self]
    intro c hc
    simp [hws c hc]
  unfold woken
  rw [ht, List.filter_append, hrest, List.append_nil, hfresh, List.filter_append, hnone, hall,
    List.nil_append, List.map_map]
  simp [Function.comp_def]

theorem Queue.release (h : s.Queue hs us) (hnodup : (hs ++ us).Nodup) :
    ∃ vs, us = woken s s.release ++ vs ∧ s.release.Queue (hs ++ woken s s.release) vs := by
  have hmore : Queue { s with value := s.value + 1 } hs us := h
  obtain ⟨ws, vs, rfl, hnext⟩ := hmore.wakeUpNext
  have hwoken : woken s s.release = ws := by
    apply woken_queue h hnext (fun c hc => hc)
    intro c hc hin
    exact (List.nodup_append.mp hnodup).2.2 c hin c (List.mem_append_left vs hc) rfl
  rw [hwoken]
  exact ⟨vs, rfl, hnext⟩

theorem Queue.resume (h : s.Queue (c :: hs) us) (hnodup : (c :: hs ++ us).Nodup)
    (ht : s.resume c = some t) :
    ∃ vs, us = woken s t ++ vs ∧ t.Queue (hs ++ woken s t) vs := by
  unfold Semaphore.resume at ht
  split_ifs at ht with hmem
  have hfirst : Queue { s with waiters := s.waiters.erase (c, true) } hs us := by
    unfold Queue at h ⊢
    simp [h]
  obtain ⟨ws, vs, rfl, hnext⟩ := hfirst.wakeUp s.value
  cases ht
  have hwoken : woken s (Semaphore.wakeUp s.value { s with waiters := s.waiters.erase (c, true) }) =
      ws := by
    apply woken_queue h hnext (fun d hd => List.mem_cons_of_mem c hd)
    intro d hd hin
    exact (List.nodup_append.mp hnodup).2.2 d hin d (List.mem_append_left vs hd) rfl
  rw [hwoken]
  exact ⟨vs, rfl, hnext⟩

end Workbench.Semaphores.Semaphore
