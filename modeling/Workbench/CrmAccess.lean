import Workbench.CrmSimulation

namespace Workbench.Crm

open Services

def typed (name : String) (calls : List Call) : String :=
  calls.foldl (fun text q => match q with
    | .act ⟨.type, target, value⟩ => if target = name then value else text
    | _ => text) ""

def after (calls : List Call) : UiSession := (serveAll UiSession.serve .new calls).1

variable {s : UiSession} {q : Call} {calls : List Call}

theorem after_concat (calls : List Call) (q : Call) :
    after (calls ++ [q]) = ((after calls).serve q).1 := by
  unfold after
  rw [serveAll_append]
  rfl

theorem typed_concat (name : String) (calls : List Call) (q : Call) :
    typed name (calls ++ [q]) = match q with
      | .act ⟨.type, target, value⟩ => if target = name then value else typed name calls
      | _ => typed name calls := by
  unfold typed
  rw [List.foldl_append]
  rfl

theorem click_fields (target : String) {name : String} (h : name = "username" ∨ name = "password") :
    (s.click target).fields name = s.fields name := by
  have hname : name ≠ "name" := by rcases h with rfl | rfl <;> decide
  have hemail : name ≠ "email" := by rcases h with rfl | rfl <;> decide
  unfold UiSession.click
  split_ifs
  all_goals first
    | rfl
    | simp [UiSession.setField, Function.update_of_ne, hname, hemail]

theorem act_fields (a : Action) {name : String} (h : name = "username" ∨ name = "password") :
    (s.act a).fields name = match a with
      | ⟨.type, target, value⟩ => if target = name then value else s.fields name
      | _ => s.fields name := by
  obtain ⟨kind, target, value⟩ := a
  cases kind with
  | observe => rfl
  | click => exact click_fields target h
  | type =>
    have hname : name ∈ fieldNames := by rcases h with rfl | rfl <;> decide
    simp only [UiSession.act]
    split_ifs with hfield hsame hsame
    · rw [hsame]
      exact Function.update_self _ _ _
    · exact Function.update_of_ne (Ne.symm hsame) _ _
    · exact absurd (hsame ▸ hname) hfield
    · rfl

theorem after_fields {name : String} (h : name = "username" ∨ name = "password") (calls : List Call) :
    (after calls).fields name = typed name calls := by
  induction calls using List.reverseRecOn with
  | nil => rfl
  | append_singleton calls q ih =>
    rw [after_concat, typed_concat, ← ih]
    cases q with
    | observe => rfl
    | act a =>
      obtain ⟨kind, target, value⟩ := a
      cases kind with
      | observe => rfl
      | click => exact act_fields ⟨.click, target, value⟩ h
      | type => exact act_fields ⟨.type, target, value⟩ h

theorem leaves_login (hs : s.state = .login) (h : (s.serve q).1.state ≠ .login) :
    (∃ value, q = .act ⟨.click, "submit", value⟩) ∧ s.fields "username" = validUser ∧
      s.fields "password" = validPass := by
  cases q with
  | observe => exact absurd hs h
  | act a =>
    obtain ⟨kind, target, value⟩ := a
    cases kind with
    | observe => exact absurd hs h
    | type =>
      apply absurd _ h
      change (UiSession.act s _).state = _
      simp only [UiSession.act]
      split_ifs
      · exact hs
      · exact hs
    | click =>
      change (UiSession.click { s with error := none } target).state ≠ .login at h
      unfold UiSession.click at h
      simp only [hs, true_and, reduceCtorEq, false_and, or_self, if_false] at h
      split_ifs at h with hsubmit hvalid
      · exact ⟨⟨value, by rw [hsubmit]⟩, hvalid⟩
      all_goals exact absurd rfl h

theorem saves_customer (hs : s.state ≠ .success) (h : (s.serve q).1.state = .success) :
    (∃ value, q = .act ⟨.click, "save", value⟩) ∧ s.state = .customerForm ∧
      PyText.strip (s.fields "name") ≠ "" := by
  cases q with
  | observe => exact absurd h hs
  | act a =>
    obtain ⟨kind, target, value⟩ := a
    cases kind with
    | observe => exact absurd h hs
    | type =>
      apply absurd _ hs
      change (UiSession.act s _).state = _ at h
      simp only [UiSession.act] at h
      split_ifs at h
      · exact h
      · exact h
    | click =>
      change (UiSession.click { s with error := none } target).state = .success at h
      unfold UiSession.click at h
      split_ifs at h with _ _ _ _ hsave hblank _
      all_goals first
        | exact ⟨⟨value, congrArg (fun t => Call.act ⟨.click, t, value⟩) hsave.2⟩, hsave.1, hblank⟩
        | exact absurd h hs

theorem crm_screens_earned (calls : List Call) :
    ((after calls).state ≠ .login → ∃ front value back,
      calls = front ++ .act ⟨.click, "submit", value⟩ :: back ∧
        typed "username" front = validUser ∧ typed "password" front = validPass ∧
        ∀ mid, mid <+: back →
          (after (front ++ .act ⟨.click, "submit", value⟩ :: mid)).state ≠ .login) ∧
    ((after calls).state = .success → ∃ front value back,
      calls = front ++ .act ⟨.click, "save", value⟩ :: back ∧ (after front).state = .customerForm ∧
        PyText.strip ((after front).fields "name") ≠ "" ∧
        ∀ mid, mid <+: back →
          (after (front ++ .act ⟨.click, "save", value⟩ :: mid)).state = .success) := by
  constructor
  · intro h
    obtain ⟨front, q, back, rfl, hfront, hmid⟩ :=
      serveAll_since (P := fun s : UiSession => s.state ≠ .login) (not_not.mpr rfl) h
    have hnext := hmid [] List.nil_prefix
    rw [serveAll_append] at hnext
    obtain ⟨⟨value, rfl⟩, huser, hpass⟩ := leaves_login (not_not.mp hfront) hnext
    refine ⟨front, value, back, rfl, ?_, ?_, hmid⟩
    · rw [← after_fields (.inl rfl)]
      exact huser
    · rw [← after_fields (.inr rfl)]
      exact hpass
  · intro h
    obtain ⟨front, q, back, rfl, hfront, hmid⟩ :=
      serveAll_since (P := fun s : UiSession => s.state = .success) (s := .new) (by decide) h
    have hnext := hmid [] List.nil_prefix
    rw [serveAll_append] at hnext
    obtain ⟨⟨value, rfl⟩, hform, hname⟩ := saves_customer hfront hnext
    exact ⟨front, value, back, rfl, hform, hname, hmid⟩

end Workbench.Crm
