import Mathlib.Data.List.Basic
import Mathlib.Data.List.Infix
import Mathlib.Data.List.Induction

namespace Workbench.Services

variable {S T Q A : Type}

def serveAll (handle : S → Q → S × A) : S → List Q → S × List A
  | s, [] => (s, [])
  | s, q :: qs =>
    let served := handle s q
    let rest := serveAll handle served.1 qs
    (rest.1, served.2 :: rest.2)

def Admits (handle : S → Q → S × A) (guard : S → Q → Prop) : S → List Q → Prop
  | _, [] => True
  | s, q :: qs => guard s q ∧ Admits handle guard (handle s q).1 qs

instance decidableAdmits (handle : S → Q → S × A) (guard : S → Q → Prop)
    [hd : ∀ s q, Decidable (guard s q)] : ∀ s qs, Decidable (Admits handle guard s qs)
  | _, [] => isTrue trivial
  | s, q :: qs =>
    have : Decidable (Admits handle guard (handle s q).1 qs) := decidableAdmits handle guard _ qs
    inferInstanceAs (Decidable (guard s q ∧ _))

variable {handle : S → Q → S × A} {guard : S → Q → Prop}

theorem serveAll_append (s : S) (qs rs : List Q) : serveAll handle s (qs ++ rs) =
    ((serveAll handle (serveAll handle s qs).1 rs).1,
      (serveAll handle s qs).2 ++ (serveAll handle (serveAll handle s qs).1 rs).2) := by
  induction qs generalizing s with
  | nil => rfl
  | cons q qs ih => simp [serveAll, ih]

theorem admits_append {s : S} {qs rs : List Q} : Admits handle guard s (qs ++ rs) ↔
    Admits handle guard s qs ∧ Admits handle guard (serveAll handle s qs).1 rs := by
  induction qs generalizing s with
  | nil => simp [Admits, serveAll]
  | cons q qs ih => simp [Admits, serveAll, ih, and_assoc]

theorem admits_and {guard' : S → Q → Prop} {s : S} {qs : List Q} :
    Admits handle (fun s q => guard s q ∧ guard' s q) s qs ↔
      Admits handle guard s qs ∧ Admits handle guard' s qs := by
  induction qs generalizing s with
  | nil => simp [Admits]
  | cons q qs ih => simp [Admits, ih, and_and_and_comm]

theorem admits_of_forall {s : S} {qs : List Q} (h : ∀ q ∈ qs, ∀ s, guard s q) :
    Admits handle guard s qs := by
  induction qs generalizing s with
  | nil => trivial
  | cons q qs ih => exact ⟨h q List.mem_cons_self s, ih fun r hr => h r (List.mem_cons_of_mem q hr)⟩

theorem admits_map {R B : Type} {handle' : T → R → T × B} {guard' : T → R → Prop} {I : S → Prop}
    (f : S → T) (g : Q → R) (keep : ∀ s q, I s → I (handle s q).1)
    (part : ∀ s q, I s → f (handle s q).1 = (handle' (f s) (g q)).1) {s : S} (hs : I s) (qs : List Q) :
    Admits handle (fun s q => guard' (f s) (g q)) s qs ↔ Admits handle' guard' (f s) (qs.map g) := by
  induction qs generalizing s with
  | nil => exact Iff.rfl
  | cons q qs ih =>
    have hrest := ih (keep s q hs)
    rw [part s q hs] at hrest
    exact and_congr_right fun _ => hrest

theorem serveAll_invariant {I : S → Prop} (keep : ∀ s q, I s → guard s q → I (handle s q).1)
    {s : S} {qs : List Q} (hs : I s) (hg : Admits handle guard s qs) :
    I (serveAll handle s qs).1 := by
  induction qs generalizing s with
  | nil => exact hs
  | cons q qs ih => exact ih (keep s q hs hg.1) hg.2

theorem mem_serveAll {a : A} {s : S} {qs : List Q} (h : a ∈ (serveAll handle s qs).2) :
    ∃ t q, q ∈ qs ∧ a = (handle t q).2 := by
  induction qs generalizing s with
  | nil => cases h
  | cons q qs ih =>
    rcases List.mem_cons.mp h with rfl | h
    · exact ⟨s, q, List.mem_cons_self, rfl⟩
    · obtain ⟨t, r, hr, hrest⟩ := ih h
      exact ⟨t, r, List.mem_cons_of_mem q hr, hrest⟩

theorem serveAll_since {P : S → Prop} [DecidablePred P] {s : S} {qs : List Q} (hs : ¬ P s)
    (h : P (serveAll handle s qs).1) :
    ∃ front q back, qs = front ++ q :: back ∧ ¬ P (serveAll handle s front).1 ∧
      ∀ mid, mid <+: back → P (serveAll handle s (front ++ q :: mid)).1 := by
  induction qs using List.reverseRecOn with
  | nil => exact absurd h hs
  | append_singleton qs r ih =>
    by_cases hbefore : P (serveAll handle s qs).1
    · obtain ⟨front, q, back, rfl, hfront, hmid⟩ := ih hbefore
      refine ⟨front, q, back ++ [r], by rw [List.append_assoc]; rfl, hfront, ?_⟩
      intro mid hm
      rcases List.prefix_concat_iff.mp hm with rfl | hm
      · rwa [List.append_assoc] at h
      · exact hmid mid hm
    · refine ⟨qs, r, [], rfl, hbefore, ?_⟩
      intro mid hm
      rw [List.prefix_nil.mp hm]
      exact h

/-- Services whose related states answer alike, and stay related, answer every sequence of
admitted requests alike. -/
theorem serveAll_simulation {handle' : T → Q → T × A} {R : S → T → Prop}
    (sim : ∀ s t q, R s t → guard s q →
      R (handle s q).1 (handle' t q).1 ∧ (handle s q).2 = (handle' t q).2)
    {s : S} {t : T} {qs : List Q} (hr : R s t) (hg : Admits handle guard s qs) :
    R (serveAll handle s qs).1 (serveAll handle' t qs).1 ∧
      (serveAll handle s qs).2 = (serveAll handle' t qs).2 := by
  induction qs generalizing s t with
  | nil => exact ⟨hr, rfl⟩
  | cons q qs ih =>
    obtain ⟨hnext, hresponse⟩ := sim s t q hr hg.1
    obtain ⟨hrest, hresponses⟩ := ih hnext hg.2
    exact ⟨hrest, by simp [serveAll, hresponse, hresponses]⟩

/-- If a request that is not calm is answered differently, as far as `view` tells, then the answers
are the same just when every request is calm. -/
theorem serveAll_agree_iff {B : Type} {handle' : T → Q → T × A} {R : S → T → Prop}
    {calm : S → Q → Prop} (view : A → B)
    (same : ∀ s t q, R s t → guard s q → calm s q →
      R (handle s q).1 (handle' t q).1 ∧ (handle s q).2 = (handle' t q).2)
    (differ : ∀ s t q, R s t → guard s q → ¬ calm s q →
      view (handle s q).2 ≠ view (handle' t q).2)
    {s : S} {t : T} {qs : List Q} (hr : R s t) (hg : Admits handle guard s qs) :
    (serveAll handle s qs).2.map view = (serveAll handle' t qs).2.map view ↔
      Admits handle calm s qs := by
  induction qs generalizing s t with
  | nil => exact ⟨fun _ => trivial, fun _ => rfl⟩
  | cons q qs ih =>
    constructor
    · intro h
      obtain ⟨hview, hviews⟩ := List.cons.inj h
      have hcalm : calm s q := by
        by_contra hn
        exact differ s t q hr hg.1 hn hview
      exact ⟨hcalm, (ih (same s t q hr hg.1 hcalm).1 hg.2).mp hviews⟩
    · rintro ⟨hcalm, hrest⟩
      obtain ⟨hnext, hanswer⟩ := same s t q hr hg.1 hcalm
      have hviews := (ih hnext hg.2).mpr hrest
      simp only [serveAll, List.map_cons, hanswer, hviews]

end Workbench.Services
