import Mathlib.Data.Nat.Notation
import Mathlib.Logic.Function.Basic
import Mathlib.Logic.Relation
import Mathlib.Tactic.SplitIfs

namespace Workbench.Transitions

variable {S T A B : Type}

/-- One step of a labelled system under an assumption on the steps taken; an action that is not
enabled has no successor. -/
def Moves (step : S → A → Option S) (guard : S → A → Prop) (s t : S) : Prop :=
  ∃ a, guard s a ∧ step s a = some t

def Reaches (step : S → A → Option S) (guard : S → A → Prop) : S → S → Prop :=
  Relation.ReflTransGen (Moves step guard)

def always : S → A → Prop := fun _ _ => True

def exec (step : S → A → Option S) : S → List A → Option S
  | s, [] => some s
  | s, a :: as => (step s a).bind fun t => exec step t as

def Obeys (step : S → A → Option S) (guard : S → A → Prop) : S → List A → Prop
  | _, [] => True
  | s, a :: as => guard s a ∧ ∀ t ∈ step s a, Obeys step guard t as

instance decidableObeys (step : S → A → Option S) (guard : S → A → Prop)
    [hd : ∀ s a, Decidable (guard s a)] : ∀ s as, Decidable (Obeys step guard s as)
  | _, [] => isTrue trivial
  | s, a :: as =>
    have : DecidablePred fun t => Obeys step guard t as := fun t => decidableObeys step guard t as
    inferInstanceAs (Decidable (guard s a ∧ ∀ t ∈ step s a, Obeys step guard t as))

variable {step : S → A → Option S} {guard : S → A → Prop}

theorem Reaches.refl (s : S) : Reaches step guard s s := Relation.ReflTransGen.refl

theorem Reaches.tail {s t u : S} {a : A} (h : Reaches step guard s t) (hg : guard t a)
    (hs : step t a = some u) : Reaches step guard s u :=
  Relation.ReflTransGen.tail h ⟨a, hg, hs⟩

theorem Reaches.single {s t : S} {a : A} (hg : guard s a) (hs : step s a = some t) :
    Reaches step guard s t := (Reaches.refl s).tail hg hs

theorem Reaches.trans {s t u : S} (h : Reaches step guard s t) (k : Reaches step guard t u) :
    Reaches step guard s u := Relation.ReflTransGen.trans h k

theorem Reaches.invariant {I : S → Prop} {s t : S} (h : Reaches step guard s t) (hs : I s)
    (keep : ∀ s a t, I s → guard s a → step s a = some t → I t) : I t := by
  induction h with
  | refl => exact hs
  | tail _ hm ih =>
    obtain ⟨a, ha, hstep⟩ := hm
    exact keep _ a _ ih ha hstep

theorem Reaches.relation {I : S → Prop} {R : S → S → Prop} {s t : S}
    (h : Reaches step guard s t) (hs : I s)
    (keep : ∀ s a t, I s → guard s a → step s a = some t → I t)
    (refl : ∀ s, R s s) (trans : ∀ s t u, R s t → R t u → R s u)
    (rel : ∀ s a t, I s → guard s a → step s a = some t → R s t) : R s t := by
  have both : I t ∧ R s t := by
    induction h with
    | refl => exact ⟨hs, refl _⟩
    | tail _ hm ih =>
      obtain ⟨a, ha, hstep⟩ := hm
      exact ⟨keep _ a _ ih.1 ha hstep, trans _ _ _ ih.2 (rel _ a _ ih.1 ha hstep)⟩
  exact both.2

/-- A map of states under which every concrete step is matched by an abstract run carries runs
to runs. -/
theorem Reaches.project {step' : T → B → Option T} {guard' : T → B → Prop} {I : S → Prop}
    (f : S → T) {s t : S} (h : Reaches step guard s t) (hs : I s)
    (keep : ∀ s a t, I s → guard s a → step s a = some t → I t)
    (sim : ∀ s a t, I s → guard s a → step s a = some t → Reaches step' guard' (f s) (f t)) :
    Reaches step' guard' (f s) (f t) :=
  Reaches.relation (R := fun s t => Reaches step' guard' (f s) (f t)) h hs keep
    (fun _ => Reaches.refl _) (fun _ _ _ h k => h.trans k) sim

theorem exec_append (s : S) (as bs : List A) :
    exec step s (as ++ bs) = (exec step s as).bind fun t => exec step t bs := by
  induction as generalizing s with
  | nil => rfl
  | cons a as ih =>
    simp only [List.cons_append, exec]
    cases step s a with
    | none => rfl
    | some t => exact ih t

theorem obeys_append {s : S} {as bs : List A} :
    Obeys step guard s (as ++ bs) ↔
      Obeys step guard s as ∧ ∀ t ∈ exec step s as, Obeys step guard t bs := by
  induction as generalizing s with
  | nil => simp [Obeys, exec]
  | cons a as ih =>
    simp only [List.cons_append, Obeys, exec]
    cases step s a with
    | none => simp
    | some t => simp [ih, and_assoc]

theorem reaches_of_exec {s t : S} {as : List A} (h : exec step s as = some t)
    (ho : Obeys step guard s as) : Reaches step guard s t := by
  induction as generalizing s with
  | nil => cases h; exact Reaches.refl _
  | cons a as ih =>
    obtain ⟨ha, hrest⟩ := ho
    obtain ⟨u, hu, hexec⟩ := Option.bind_eq_some_iff.mp h
    exact (Reaches.single ha hu).trans (ih hexec (hrest u hu))

theorem step_of_exec {s t u : S} {as bs : List A} {a : A} (h : exec step s (as ++ a :: bs) = some t)
    (hu : exec step s as = some u) : ∃ v, step u a = some v := by
  rw [exec_append, hu] at h
  obtain ⟨v, hv, _⟩ := Option.bind_eq_some_iff.mp (Option.bind_some u _ ▸ h)
  exact ⟨v, hv⟩

theorem obeys_iff {s : S} {as : List A} : Obeys step guard s as ↔
    ∀ xs a ys u, as = xs ++ a :: ys → exec step s xs = some u → guard u a := by
  constructor
  · rintro h xs a ys u rfl hu
    exact ((obeys_append.mp h).2 u hu).1
  · intro h
    induction as generalizing s with
    | nil => trivial
    | cons a as ih =>
      refine ⟨h [] a as s rfl rfl, fun t ht => ih ?_⟩
      rintro xs b ys u rfl hu
      exact h (a :: xs) b ys u rfl (by simp [exec, Option.mem_def.mp ht, hu])

theorem obeys_always (s : S) (as : List A) : Obeys step always s as := by
  induction as generalizing s with
  | nil => trivial
  | cons a as ih => exact ⟨trivial, fun t _ => ih t⟩

section Counted

variable (step : S → A → Option S) (hit : S → A → Prop) [∀ s a, Decidable (hit s a)]

def counted (s : S × ℕ) (a : A) : Option (S × ℕ) :=
  (step s.1 a).map fun t => (t, if hit s.1 a then s.2 + 1 else s.2)

variable {step hit}

theorem counted_cases {s t : S × ℕ} {a : A} (h : counted step hit s a = some t) :
    step s.1 a = some t.1 ∧ (hit s.1 a ∧ t.2 = s.2 + 1 ∨ ¬ hit s.1 a ∧ t.2 = s.2) := by
  obtain ⟨u, hu, rfl⟩ := Option.map_eq_some_iff.mp h
  refine ⟨hu, ?_⟩
  by_cases hh : hit s.1 a
  · exact .inl ⟨hh, if_pos hh⟩
  · exact .inr ⟨hh, if_neg hh⟩

end Counted

section Entries

variable {C X : Type} [DecidableEq C] {f : C → Option X} {c c' : C} {x y : X}

theorem update_none_eq_some (h : Function.update f c none c' = some y) : c' ≠ c ∧ f c' = some y := by
  rw [Function.update_apply] at h
  split_ifs at h with hc
  exact ⟨hc, h⟩

theorem update_some_eq_some (h : Function.update f c (some x) c' = some y) :
    c' = c ∧ y = x ∨ c' ≠ c ∧ f c' = some y := by
  rw [Function.update_apply] at h
  split_ifs at h with hc
  · exact .inl ⟨hc, (Option.some.inj h).symm⟩
  · exact .inr ⟨hc, h⟩

end Entries

end Workbench.Transitions
