import Mathlib.Data.List.Basic

/-!
Expressions of atoms, groups in parentheses, signs before an operand and operators between two:
a grammar with levels, and the parser that keeps what is still open on a stack. The parser returns
a tree exactly if the grammar derives it.
-/

namespace Workbench.OperatorGrammars

variable {A S U B : Type}

inductive Token (A S : Type)
  | atom (a : A)
  | symbol (s : S)
  | opening
  | closing
  deriving DecidableEq

inductive Tree (A U B : Type)
  | atom (a : A)
  | group (e : Tree A U B)
  | signed (u : U) (e : Tree A U B)
  | applied (l : Tree A U B) (o : B) (r : Tree A U B)
  deriving DecidableEq

/-- A symbol may be a sign, an operator or both. Expressions with an operator are of its `level`, and
its operands of `leftLevel` and `rightLevel` at least; `signLevel` is that of a sign and of its
operand. -/
structure Table (S U B : Type) where
  signOf : S → Option U
  operatorOf : S → Option B
  level : B → ℕ
  leftLevel : B → ℕ
  rightLevel : B → ℕ
  signLevel : ℕ
  level_le_left : ∀ o, level o ≤ leftLevel o
  left_le_iff : ∀ o o', leftLevel o ≤ level o' ↔ level o < rightLevel o'
  left_le_sign_iff : ∀ o, leftLevel o ≤ signLevel ↔ level o < signLevel
  lt_right : ∀ o o', level o < level o' → level o < rightLevel o'
  right_pos : ∀ o, 0 < rightLevel o
  right_le_sign : ∀ o, rightLevel o ≤ signLevel
  sign_pos : 0 < signLevel

variable {T : Table S U B}

inductive Derives (T : Table S U B) : ℕ → List (Token A S) → Tree A U B → Prop
  | atom (p : ℕ) (a : A) : Derives T p [.atom a] (.atom a)
  | group (p : ℕ) {ts : List (Token A S)} {e : Tree A U B} (h : Derives T 0 ts e) :
      Derives T p (.opening :: ts ++ [.closing]) (.group e)
  | signed {p : ℕ} {s : S} {u : U} {ts : List (Token A S)} {e : Tree A U B} (hp : p ≤ T.signLevel)
      (hs : T.signOf s = some u) (h : Derives T T.signLevel ts e) :
      Derives T p (.symbol s :: ts) (.signed u e)
  | applied {p : ℕ} {s : S} {o : B} {ts ts' : List (Token A S)} {l r : Tree A U B}
      (hp : p ≤ T.level o) (hs : T.operatorOf s = some o) (hl : Derives T (T.leftLevel o) ts l)
      (hr : Derives T (T.rightLevel o) ts' r) :
      Derives T p (ts ++ .symbol s :: ts') (.applied l o r)

theorem Derives.mono {p q : ℕ} {ts : List (Token A S)} {e : Tree A U B} (h : Derives T p ts e)
    (hq : q ≤ p) : Derives T q ts e := by
  cases h with
  | atom _ a => exact .atom q a
  | group _ h => exact .group q h
  | signed hp hs h => exact .signed (Nat.le_trans hq hp) hs h
  | applied hp hs hl hr => exact .applied (Nat.le_trans hq hp) hs hl hr

inductive Frame (A U B : Type)
  | group
  | signed (u : U)
  | applied (l : Tree A U B) (o : B)

def Frame.operandLevel (T : Table S U B) : Frame A U B → ℕ
  | .group => 0
  | .signed _ => T.signLevel
  | .applied _ o => T.rightLevel o

def asked (T : Table S U B) : List (Frame A U B) → ℕ
  | [] => 0
  | f :: _ => f.operandLevel T

def Frame.plug : Frame A U B → Tree A U B → Tree A U B
  | .group, e => .group e
  | .signed u, e => .signed u e
  | .applied l o, e => .applied l o e

def reduce (T : Table S U B) (k : ℕ) : List (Frame A U B) → Tree A U B → List (Frame A U B) × Tree A U B
  | [], e => ([], e)
  | f :: fs, e => if k < f.operandLevel T then reduce T k fs (f.plug e) else (f :: fs, e)

abbrev State (A U B : Type) := List (Frame A U B) × Option (Tree A U B)

def step (T : Table S U B) : State A U B → Token A S → Option (State A U B)
  | (fs, none), .atom a => some (fs, some (.atom a))
  | (fs, none), .opening => some (.group :: fs, none)
  | (fs, none), .symbol s => (T.signOf s).map fun u => (.signed u :: fs, none)
  | (_, none), .closing => none
  | (fs, some e), .symbol s => (T.operatorOf s).map fun o =>
      let reduced := reduce T (T.level o) fs e
      (.applied reduced.2 o :: reduced.1, none)
  | (fs, some e), .closing =>
    match reduce T 0 fs e with
    | (.group :: fs, e) => some (fs, some (.group e))
    | _ => none
  | (_, some _), .atom _ => none
  | (_, some _), .opening => none

def finish (T : Table S U B) : State A U B → Option (Tree A U B)
  | (_, none) => none
  | (fs, some e) =>
    match reduce T 0 fs e with
    | ([], e) => some e
    | _ => none

def run (T : Table S U B) : State A U B → List (Token A S) → Option (State A U B)
  | s, [] => some s
  | s, t :: ts => (step T s t).bind fun s => run T s ts

def parse (T : Table S U B) (ts : List (Token A S)) : Option (Tree A U B) :=
  (run T ([], none) ts).bind (finish T)

theorem run_append (s : State A U B) (ts ts' : List (Token A S)) :
    run T s (ts ++ ts') = (run T s ts).bind fun s => run T s ts' := by
  induction ts generalizing s with
  | nil => rfl
  | cons t ts ih =>
    rw [List.cons_append, run, run, Option.bind_assoc]
    congr 1
    funext s
    exact ih s

theorem reduce_stop {k : ℕ} {fs : List (Frame A U B)} (h : asked T fs ≤ k) (e : Tree A U B) :
    reduce T k fs e = (fs, e) := by
  cases fs with
  | nil => rfl
  | cons f fs =>
    rw [reduce, if_neg]
    exact Nat.not_lt.mpr h

theorem reduce_close {k : ℕ} {f : Frame A U B} (h : k < f.operandLevel T) (fs : List (Frame A U B))
    (e : Tree A U B) : reduce T k (f :: fs) e = reduce T k fs (f.plug e) := by
  rw [reduce, if_pos h]

def Tree.spine : Tree A U B → List (Frame A U B) × Tree A U B
  | .signed u e => (e.spine.1 ++ [.signed u], e.spine.2)
  | .applied l o r => (r.spine.1 ++ [.applied l o], r.spine.2)
  | e => ([], e)

theorem reduce_spine {p k : ℕ} {ts : List (Token A S)} {e : Tree A U B} (h : Derives T p ts e)
    (hk : ∀ o, k < T.level o → k < T.rightLevel o) (hs : p ≤ T.signLevel → k < T.signLevel)
    (ho : ∀ o, p ≤ T.level o → k < T.rightLevel o) (fs : List (Frame A U B)) :
    reduce T k (e.spine.1 ++ fs) e.spine.2 = reduce T k fs e := by
  induction h generalizing fs with
  | atom p a => rfl
  | group p h ih => rfl
  | @signed p s u ts e hp hsign h ih =>
    have hrest := ih (fun _ => hs hp) (fun o ho' => ho o (Nat.le_trans hp ho')) (.signed u :: fs)
    change reduce T k ((e.spine.1 ++ [.signed u]) ++ fs) e.spine.2 = _
    rw [List.append_assoc, List.singleton_append, hrest]
    exact reduce_close (hs hp) fs e
  | @applied p s o ts ts' l r hp hop hl hr ihl ihr =>
    have hlt := ho o hp
    have hrest := ihr (fun _ => Nat.lt_of_lt_of_le hlt (T.right_le_sign o))
      (fun o' ho' => hk o' (Nat.lt_of_lt_of_le hlt ho')) (.applied l o :: fs)
    change reduce T k ((r.spine.1 ++ [.applied l o]) ++ fs) r.spine.2 = _
    rw [List.append_assoc, List.singleton_append, hrest]
    exact reduce_close hlt fs r

theorem reduce_end {ts : List (Token A S)} {e : Tree A U B} (h : Derives T 0 ts e)
    (fs : List (Frame A U B)) : reduce T 0 (e.spine.1 ++ fs) e.spine.2 = reduce T 0 fs e := by
  apply reduce_spine h
  · exact fun o _ => T.right_pos o
  · exact fun _ => T.sign_pos
  · exact fun o _ => T.right_pos o

theorem run_derives {p : ℕ} {ts : List (Token A S)} {e : Tree A U B} (h : Derives T p ts e)
    (fs : List (Frame A U B)) (hf : asked T fs ≤ p) :
    run T (fs, none) ts = some (e.spine.1 ++ fs, some e.spine.2) := by
  induction h generalizing fs with
  | atom p a => rfl
  | @group p ts e h ih =>
    have hinner := ih (.group :: fs) (Nat.le_refl 0)
    have hstop : reduce T 0 (.group :: fs) e = (.group :: fs, e) := reduce_stop (Nat.le_refl 0) e
    have hend := reduce_end h (.group :: fs)
    rw [hstop] at hend
    rw [List.cons_append, run, step, Option.bind_some, run_append, hinner, Option.bind_some, run,
      step, hend]
    rfl
  | @signed p s u ts e hp hs h ih =>
    have hinner := ih (.signed u :: fs) (Nat.le_refl _)
    rw [run, step, hs, Option.map_some, Option.bind_some, hinner]
    change _ = some ((e.spine.1 ++ [.signed u]) ++ fs, some e.spine.2)
    rw [List.append_assoc]
    rfl
  | @applied p s o ts ts' l r hp hs hl hr ihl ihr =>
    have hop : asked T fs ≤ T.level o := Nat.le_trans hf hp
    have hleft := ihl fs (Nat.le_trans hop (T.level_le_left o))
    have hright := ihr (.applied l o :: fs) (Nat.le_refl _)
    have hclose : reduce T (T.level o) (l.spine.1 ++ fs) l.spine.2 = (fs, l) := by
      rw [reduce_spine hl (T.lt_right o) (T.left_le_sign_iff o).mp fun o' => (T.left_le_iff o o').mp]
      exact reduce_stop hop l
    rw [run_append, hleft, Option.bind_some, run, step, hs, Option.map_some, Option.bind_some, hclose,
      hright]
    change _ = some ((r.spine.1 ++ [.applied l o]) ++ fs, some r.spine.2)
    rw [List.append_assoc]
    rfl

theorem parse_of_derives {ts : List (Token A S)} {e : Tree A U B} (h : Derives T 0 ts e) :
    parse T ts = some e := by
  have hend := reduce_end h []
  rw [parse, run_derives h [] (Nat.le_refl 0), Option.bind_some, finish, hend]
  rfl

inductive Opens (T : Table S U B) : List (Token A S) → List (Frame A U B) → Prop
  | nil : Opens T [] []
  | group {ts : List (Token A S)} {fs : List (Frame A U B)} (h : Opens T ts fs) :
      Opens T (ts ++ [.opening]) (.group :: fs)
  | signed {ts : List (Token A S)} {fs : List (Frame A U B)} {s : S} {u : U} (h : Opens T ts fs)
      (hs : T.signOf s = some u) : Opens T (ts ++ [.symbol s]) (.signed u :: fs)
  | applied {ts ts' : List (Token A S)} {fs : List (Frame A U B)} {s : S} {l : Tree A U B} {o : B}
      (h : Opens T ts fs) (hf : asked T fs ≤ T.level o) (hs : T.operatorOf s = some o)
      (hl : Derives T (T.leftLevel o) ts' l) :
      Opens T (ts ++ ts' ++ [.symbol s]) (.applied l o :: fs)

theorem asked_le_sign (fs : List (Frame A U B)) : asked T fs ≤ T.signLevel := by
  cases fs with
  | nil => exact Nat.zero_le _
  | cons f fs =>
    cases f with
    | group => exact Nat.zero_le _
    | signed u => exact Nat.le_refl _
    | applied l o => exact T.right_le_sign o

structure Survives (T : Table S U B) (k q : ℕ) : Prop where
  sign : k < T.signLevel → q ≤ T.signLevel
  operator : ∀ o, k < T.rightLevel o → q ≤ T.level o

theorem reduce_opens {k q : ℕ} (hk : Survives T k q) {ts ts' : List (Token A S)}
    {fs fs' : List (Frame A U B)} {e e' : Tree A U B} (h : Opens T ts fs)
    (he : Derives T (asked T fs) ts' e) (hq : Derives T q ts' e) (hr : reduce T k fs e = (fs', e')) :
    ∃ rs rs', ts ++ ts' = rs ++ rs' ∧ Opens T rs fs' ∧ asked T fs' ≤ k ∧
      Derives T (asked T fs') rs' e' ∧ Derives T q rs' e' := by
  induction h generalizing ts' e with
  | nil =>
    cases hr
    exact ⟨[], ts', rfl, .nil, Nat.zero_le k, he, hq⟩
  | @group ts fs h ih =>
    rw [reduce_stop (Nat.zero_le k)] at hr
    cases hr
    exact ⟨_, ts', rfl, .group h, Nat.zero_le k, he, hq⟩
  | @signed ts fs s u h hs ih =>
    by_cases hlt : k < T.signLevel
    · rw [reduce_close hlt] at hr
      have he' : Derives T (asked T fs) (.symbol s :: ts') (.signed u e) :=
        .signed (asked_le_sign fs) hs he
      have hq' : Derives T q (.symbol s :: ts') (.signed u e) := .signed (hk.sign hlt) hs he
      obtain ⟨rs, rs', hts, hrest⟩ := ih he' hq' hr
      exact ⟨rs, rs', by rw [← hts, List.append_assoc]; rfl, hrest⟩
    · rw [reduce_stop (Nat.not_lt.mp hlt)] at hr
      cases hr
      exact ⟨_, ts', rfl, .signed h hs, Nat.not_lt.mp hlt, he, hq⟩
  | @applied ts tl fs s l o h hf hs hl ih =>
    by_cases hlt : k < T.rightLevel o
    · rw [reduce_close hlt] at hr
      have he' : Derives T (asked T fs) (tl ++ .symbol s :: ts') (.applied l o e) :=
        .applied hf hs hl he
      have hq' : Derives T q (tl ++ .symbol s :: ts') (.applied l o e) :=
        .applied (hk.operator o hlt) hs hl he
      obtain ⟨rs, rs', hts, hrest⟩ := ih he' hq' hr
      exact ⟨rs, rs', by rw [← hts]; simp only [List.append_assoc, List.singleton_append], hrest⟩
    · rw [reduce_stop (Nat.not_lt.mp hlt)] at hr
      cases hr
      exact ⟨_, ts', rfl, .applied h hf hs hl, Nat.not_lt.mp hlt, he, hq⟩

def Read (T : Table S U B) (ts : List (Token A S)) : State A U B → Prop
  | (fs, none) => Opens T ts fs
  | (fs, some e) => ∃ rs rs', ts = rs ++ rs' ∧ Opens T rs fs ∧ ∀ p, Derives T p rs' e

theorem survives_zero : Survives T 0 0 := ⟨fun _ => Nat.zero_le _, fun _ _ => Nat.zero_le _⟩

theorem survives_left (o : B) : Survives T (T.level o) (T.leftLevel o) :=
  ⟨(T.left_le_sign_iff o).mpr, fun o' => (T.left_le_iff o o').mpr⟩

theorem step_read {ts : List (Token A S)} {t : Token A S} {s s' : State A U B} (h : Read T ts s)
    (hs : step T s t = some s') : Read T (ts ++ [t]) s' := by
  obtain ⟨fs, operand⟩ := s
  cases operand with
  | none =>
    cases t with
    | atom a =>
      cases hs
      exact ⟨ts, _, rfl, h, fun p => .atom p a⟩
    | opening =>
      cases hs
      exact .group h
    | closing => cases hs
    | symbol s =>
      obtain ⟨u, hu, rfl⟩ := Option.map_eq_some_iff.mp hs
      exact .signed h hu
  | some e =>
    obtain ⟨rs, rs', rfl, hopens, hderives⟩ := h
    cases t with
    | atom a => cases hs
    | opening => cases hs
    | closing =>
      simp only [step] at hs
      split at hs
      · rename_i fs' e' hr
        cases hs
        obtain ⟨qs, qs', hts, hopens', -, he, -⟩ :=
          reduce_opens survives_zero hopens (hderives _) (hderives _) hr
        cases hopens' with
        | @group os _ hos =>
          refine ⟨os, .opening :: qs' ++ [.closing], ?_, hos, fun p => .group p he⟩
          rw [hts]
          simp only [List.append_assoc, List.cons_append, List.nil_append]
      · cases hs
    | symbol s =>
      obtain ⟨o, ho, rfl⟩ := Option.map_eq_some_iff.mp hs
      obtain ⟨qs, qs', hts, hopens', hasked, -, hl⟩ :=
        reduce_opens (survives_left o) hopens (hderives _) (hderives _) rfl
      rw [hts]
      exact .applied hopens' hasked ho hl

theorem run_read {ts : List (Token A S)} {s s' : State A U B} (hs : Read T ts s)
    (us : List (Token A S)) (h : run T s us = some s') : Read T (ts ++ us) s' := by
  induction us generalizing ts s with
  | nil =>
    cases h
    rw [List.append_nil]
    exact hs
  | cons u us ih =>
    obtain ⟨t, ht, hrun⟩ := Option.bind_eq_some_iff.mp h
    have hnext := ih (step_read hs ht) hrun
    rw [List.append_assoc] at hnext
    exact hnext

theorem derives_of_parse {ts : List (Token A S)} {e : Tree A U B} (h : parse T ts = some e) :
    Derives T 0 ts e := by
  obtain ⟨⟨fs, operand⟩, hrun, hfinish⟩ := Option.bind_eq_some_iff.mp h
  have hstart : Read T [] ([], (none : Option (Tree A U B))) := Opens.nil
  have hread := run_read hstart ts hrun
  rw [List.nil_append] at hread
  cases operand with
  | none => cases hfinish
  | some e' =>
    obtain ⟨rs, rs', rfl, hopens, hderives⟩ := hread
    simp only [finish] at hfinish
    split at hfinish
    · rename_i e'' hr
      cases hfinish
      obtain ⟨qs, qs', hts, hopens', -, he, -⟩ :=
        reduce_opens survives_zero hopens (hderives _) (hderives _) hr
      cases hopens'
      rw [hts]
      exact he
    · cases hfinish

theorem parse_eq_some_iff {ts : List (Token A S)} {e : Tree A U B} :
    parse T ts = some e ↔ Derives T 0 ts e := ⟨derives_of_parse, parse_of_derives⟩

end Workbench.OperatorGrammars
