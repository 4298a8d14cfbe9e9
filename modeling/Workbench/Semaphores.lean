import Mathlib.Data.List.Basic
import Mathlib.Data.Nat.Notation
import Mathlib.Tactic.SplitIfs

namespace Workbench.Semaphores

variable {C : Type}

/-- The waiters in their order; the flag says that one was handed a permit. -/
structure Semaphore (C : Type) where
  value : ℕ
  waiters : List (C × Bool)
  deriving DecidableEq

namespace Semaphore

def created (C : Type) (value : ℕ) : Semaphore C := ⟨value, []⟩

def locked (s : Semaphore C) : Bool := s.value = 0 || !s.waiters.isEmpty

/-- `_wake_up_next`; `none` is that there was no one to wake up. -/
def wakeFirst : List (C × Bool) → Option (List (C × Bool))
  | [] => none
  | (c, false) :: ws => some ((c, true) :: ws)
  | (c, true) :: ws => (wakeFirst ws).map ((c, true) :: ·)

def wakeUpNext (s : Semaphore C) : Semaphore C :=
  match s.value, wakeFirst s.waiters with
  | v + 1, some ws => ⟨v, ws⟩
  | _, _ => s

def wakeUp : ℕ → Semaphore C → Semaphore C
  | 0, s => s
  | n + 1, s => wakeUp n s.wakeUpNext

/-- The flag says that a permit was free, else `c` waits. -/
def acquire (s : Semaphore C) (c : C) : Semaphore C × Bool :=
  if s.locked then ({ s with waiters := s.waiters ++ [(c, false)] }, false)
  else ({ s with value := s.value - 1 }, true)

def release (s : Semaphore C) : Semaphore C := { s with value := s.value + 1 }.wakeUpNext

/-- The turn of a waiter that was handed a permit; it wakes up as many others as are allowed. -/
def resume [DecidableEq C] (s : Semaphore C) (c : C) : Option (Semaphore C) :=
  if (c, true) ∈ s.waiters then
    some (wakeUp s.value { s with waiters := s.waiters.erase (c, true) })
  else none

def handed (s : Semaphore C) : ℕ := s.waiters.countP Prod.snd

def permits (s : Semaphore C) : ℕ := s.value + s.handed

def Live (s : Semaphore C) : Prop := 0 < s.value → s.waiters ≠ [] → 0 < s.handed

variable {s : Semaphore C} {c : C}

theorem wakeFirst_handed {ws ws' : List (C × Bool)} (h : wakeFirst ws = some ws') :
    ws'.countP Prod.snd = ws.countP Prod.snd + 1 := by
  induction ws generalizing ws' with
  | nil => cases h
  | cons w ws ih =>
    obtain ⟨c, b⟩ := w
    cases b with
    | false =>
      cases h
      simp
    | true =>
      obtain ⟨rest, hrest, rfl⟩ := Option.map_eq_some_iff.mp h
      simp [ih hrest]

theorem wakeFirst_none {ws : List (C × Bool)} (h : wakeFirst ws = none) : ∀ w ∈ ws, w.2 = true := by
  induction ws with
  | nil => exact nofun
  | cons w ws ih =>
    obtain ⟨c, b⟩ := w
    cases b with
    | false => cases h
    | true =>
      intro x hx
      rcases List.mem_cons.mp hx with rfl | hx
      · rfl
      · exact ih (Option.map_eq_none_iff.mp h) x hx

theorem wakeUpNext_cases (s : Semaphore C) :
    (∃ ws, wakeFirst s.waiters = some ws ∧ s.value = s.wakeUpNext.value + 1 ∧
      s.wakeUpNext.waiters = ws) ∨
    (s.wakeUpNext = s ∧ (s.value = 0 ∨ wakeFirst s.waiters = none)) := by
  unfold wakeUpNext
  cases hv : s.value with
  | zero => exact .inr ⟨rfl, .inl rfl⟩
  | succ v => cases hw : wakeFirst s.waiters with
    | none => exact .inr ⟨rfl, .inr rfl⟩
    | some ws => exact .inl ⟨ws, rfl, rfl, rfl⟩

theorem wakeUpNext_permits (s : Semaphore C) : s.wakeUpNext.permits = s.permits := by
  rcases wakeUpNext_cases s with ⟨ws, hws, hvalue, hwaiters⟩ | ⟨he, -⟩
  · have hcount := wakeFirst_handed hws
    rw [← hwaiters] at hcount
    simp only [permits, handed, hcount, hvalue]
    omega
  · rw [he]

theorem wakeUp_permits (n : ℕ) (s : Semaphore C) : (wakeUp n s).permits = s.permits := by
  induction n generalizing s with
  | zero => rfl
  | succ n ih => rw [wakeUp, ih, wakeUpNext_permits]

theorem locked_iff : s.locked = true ↔ s.value = 0 ∨ s.waiters ≠ [] := by
  simp [locked]

theorem acquire_permits (s : Semaphore C) (c : C) :
    (s.acquire c).1.permits + (s.acquire c).2.toNat = s.permits := by
  unfold acquire
  split_ifs with hlocked
  · simp [permits, handed]
  · rw [locked_iff, not_or] at hlocked
    simp only [permits, handed, Bool.toNat_true]
    omega

theorem release_permits (s : Semaphore C) : s.release.permits = s.permits + 1 := by
  rw [release, wakeUpNext_permits]
  simp only [permits, handed]
  omega

theorem resume_permits [DecidableEq C] {t : Semaphore C} (h : s.resume c = some t) :
    t.permits + 1 = s.permits := by
  unfold resume at h
  split_ifs at h with hmem
  cases h
  have hpos : 0 < s.waiters.countP Prod.snd := List.countP_pos_iff.mpr ⟨(c, true), hmem, rfl⟩
  have herase : s.waiters.countP Prod.snd = (s.waiters.erase (c, true)).countP Prod.snd + 1 := by
    rw [(List.perm_cons_erase hmem).countP_eq, List.countP_cons_of_pos rfl]
  rw [wakeUp_permits]
  simp only [permits, handed, herase]
  omega

theorem wakeUp_stuck (n : ℕ) (h : s.wakeUpNext = s) : wakeUp n s = s := by
  induction n with
  | zero => rfl
  | succ n ih => rw [wakeUp, h, ih]

theorem wakeUp_done (n : ℕ) (s : Semaphore C) (h : s.value ≤ n) :
    (wakeUp n s).value = 0 ∨ wakeFirst (wakeUp n s).waiters = none := by
  induction n generalizing s with
  | zero => exact .inl (Nat.le_zero.mp h)
  | succ n ih =>
    rcases wakeUpNext_cases s with ⟨ws, -, hvalue, -⟩ | ⟨he, hend⟩
    · exact ih s.wakeUpNext (by omega)
    · rw [wakeUp, he, wakeUp_stuck n he]
      exact hend

theorem live_of_done (h : s.value = 0 ∨ wakeFirst s.waiters = none) : s.Live := by
  intro hpos hne
  rcases h with hzero | hnone
  · omega
  · obtain ⟨w, ws, hw⟩ := List.exists_cons_of_ne_nil hne
    have hall := wakeFirst_none hnone
    exact List.countP_pos_iff.mpr ⟨w, by simp [hw], hall w (by simp [hw])⟩

theorem live_created (value : ℕ) : (created C value).Live := fun _ h => absurd rfl h

theorem Live.acquire (h : s.Live) (c : C) : (s.acquire c).1.Live := by
  unfold Semaphore.acquire
  split_ifs with hlocked
  · intro hpos _
    simp only [handed, List.countP_append, List.countP_singleton]
    rcases locked_iff.mp hlocked with hzero | hne
    · exact absurd hzero (Nat.pos_iff_ne_zero.mp hpos)
    · exact Nat.lt_add_right _ (h hpos hne)
  · rw [locked_iff, not_or, not_not] at hlocked
    intro _ hne
    exact absurd hlocked.2 hne

theorem live_release (s : Semaphore C) : s.release.Live := by
  unfold release
  rcases wakeUpNext_cases { s with value := s.value + 1 } with ⟨ws, hws, -, hwaiters⟩ | ⟨he, hend⟩
  · intro _ _
    have hcount := wakeFirst_handed hws
    rw [← hwaiters] at hcount
    unfold handed
    omega
  · rw [he]
    exact live_of_done hend

theorem live_resume [DecidableEq C] {t : Semaphore C} (h : s.resume c = some t) : t.Live := by
  unfold resume at h
  split_ifs at h
  cases h
  exact live_of_done (wakeUp_done s.value _ (Nat.le_refl _))

end Semaphore

end Workbench.Semaphores
