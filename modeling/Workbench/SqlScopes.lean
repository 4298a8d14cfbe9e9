import Workbench.SqlGuard

namespace Workbench.SqlGuard

open LabelledTrees

structure Reference where
  name : String
  db : String
  catalog : String
  scope : List String

def Reference.Bound (lower : String → String) (r : Reference) : Prop :=
  r.db = "" ∧ r.catalog = "" ∧ lower r.name ∈ r.scope.map lower

instance (lower : String → String) (r : Reference) : Decidable (r.Bound lower) :=
  inferInstanceAs (Decidable (_ ∧ _))

def Cls.reference (scope : List String) : Cls → Option Reference
  | .table (some name) db catalog => some ⟨name, db, catalog, scope⟩
  | _ => none

def cteName (e : Expression) : List String :=
  match e.cls with
  | .cte name => [name]
  | _ => []

def withNames (args : List Expression) : List String :=
  args.flatMap fun c =>
    match c with
    | .node ⟨_, .withClause _⟩ ctes => ctes.flatMap cteName
    | _ => []

mutual

/-- The references of an expression: the body of a CTE sees what is `outer` to its WITH and the
siblings before it, and itself if recursive; all else sees what is `inner`. -/
def references (outer inner : List String) : Expression → List Reference
  | .node ⟨_, .withClause recursive⟩ ctes => cteReferences recursive outer ctes
  | .node ⟨_, cls⟩ args =>
    (cls.reference inner).toList ++ argReferences inner (inner ++ withNames args) args

def argReferences (outer inner : List String) : List Expression → List Reference
  | [] => []
  | e :: es => references outer inner e ++ argReferences outer inner es

def cteReferences (recursive : Bool) (scope : List String) : List Expression → List Reference
  | [] => []
  | e :: es =>
    let seen := scope ++ cteName e
    let own := if recursive then seen else scope
    references own own e ++ cteReferences recursive seen es

end

theorem references_args {key : String} {cls : Cls} {args : List Expression}
    (h : ∀ recursive, cls ≠ .withClause recursive) (outer inner : List String) :
    references outer inner (.node ⟨key, cls⟩ args) =
      (cls.reference inner).toList ++ argReferences inner (inner ++ withNames args) args := by
  rw [references]
  exact h

theorem reference_of_cls {cls : Cls} {scope : List String} {r : Reference}
    (h : r ∈ (cls.reference scope).toList) :
    cls = .table (some r.name) r.db r.catalog ∧ r.scope = scope := by
  unfold Cls.reference at h
  split at h
  · obtain rfl := by simpa using h
    exact ⟨rfl, rfl⟩
  · cases h

def Names (table : Expression) (r : Reference) : Prop :=
  table.cls = .table (some r.name) r.db r.catalog

mutual

theorem references_within (outer inner : List String) {r : Reference} : (e : Expression) →
    r ∈ references outer inner e → ∃ table, OrderedTree.Within table e ∧ Names table r
  | .node ⟨key, cls⟩ args, h => by
    have hargs : (∃ e ∈ args, ∃ table, OrderedTree.Within table e ∧ Names table r) →
        ∃ table, OrderedTree.Within table (.node ⟨key, cls⟩ args) ∧ Names table r := by
      rintro ⟨e, he, table, hw, hn⟩
      exact ⟨table, .child he hw, hn⟩
    by_cases hwith : ∃ recursive, cls = .withClause recursive
    · obtain ⟨recursive, rfl⟩ := hwith
      rw [references] at h
      exact hargs (cteReferences_within recursive outer args h)
    · rw [references_args fun recursive hc => hwith ⟨recursive, hc⟩] at h
      rcases List.mem_append.mp h with h | h
      · exact ⟨_, .root, (reference_of_cls h).1⟩
      · exact hargs (argReferences_within inner _ args h)

theorem argReferences_within (outer inner : List String) {r : Reference} :
    (es : List Expression) → r ∈ argReferences outer inner es →
      ∃ e ∈ es, ∃ table, OrderedTree.Within table e ∧ Names table r
  | [], h => by cases h
  | e :: es, h => by
    rcases List.mem_append.mp h with h | h
    · exact ⟨e, List.mem_cons_self, references_within outer inner e h⟩
    · obtain ⟨e', he, htable⟩ := argReferences_within outer inner es h
      exact ⟨e', List.mem_cons_of_mem _ he, htable⟩

theorem cteReferences_within (recursive : Bool) (scope : List String) {r : Reference} :
    (es : List Expression) → r ∈ cteReferences recursive scope es →
      ∃ e ∈ es, ∃ table, OrderedTree.Within table e ∧ Names table r
  | [], h => by cases h
  | e :: es, h => by
    rcases List.mem_append.mp h with h | h
    · exact ⟨e, List.mem_cons_self, references_within _ _ e h⟩
    · obtain ⟨e', he, htable⟩ := cteReferences_within recursive _ es h
      exact ⟨e', List.mem_cons_of_mem _ he, htable⟩

end

variable {lower : String → String} {int : String → Option ℤ}

structure Screened (lower : String → String) (int : String → Option ℤ) (tree : Expression) : Prop where
  query : IsQuery tree
  operations : ∀ node ∈ tree.walk, refusedOperation node = none
  functions : ∀ node ∈ tree.walk, refusedFunction lower node = none
  offset : checkOffset int tree = .ok ()
  limit : ∃ out, enforceLimit int tree = .ok out

def Covered (lower : String → String) (allowedTables : List String) (tree : Expression) : Prop :=
  ∀ node ∈ tree.walk, refusedTable lower (allowedTables.map lower) (cteNames lower tree) node = none

def Confined (lower : String → String) (allowedTables : List String) (tree : Expression) : Prop :=
  ∀ r ∈ references [] [] tree, ¬ r.Bound lower → lower r.name ∈ allowedTables.map lower

instance (allowedTables : List String) (tree : Expression) :
    Decidable (Confined lower allowedTables tree) := by
  unfold Confined
  infer_instance

/-- A reference with an empty name, or with the name of a CTE of the query, is bound or allowed. -/
def Unmasked (lower : String → String) (allowedTables : List String) (tree : Expression) : Prop :=
  ∀ r ∈ references [] [] tree, lower r.name = "" ∨ lower r.name ∈ cteNames lower tree →
    r.Bound lower ∨ lower r.name ∈ allowedTables.map lower

theorem requireQuery_ok {tree : Expression} : requireQuery tree = .ok () ↔ IsQuery tree := by
  unfold requireQuery
  split_ifs with h <;> simp [h]

theorem refuse_ok {check : Expression → Option SqlGuardError} {tree : Expression} :
    refuse check tree = .ok () ↔ ∀ node ∈ tree.walk, check node = none := by
  unfold refuse
  cases h : tree.walk.findSome? check with
  | some e =>
    obtain ⟨node, hmem, hnode⟩ := List.exists_of_findSome?_eq_some h
    simp only [reduceCtorEq, false_iff]
    intro hall
    simp [hall node hmem] at hnode
  | none => simpa using h

theorem bind_ok {A B : Type} {x : Except Failure A} {f : A → Except Failure B} {b : B} :
    x >>= f = .ok b ↔ ∃ a, x = .ok a ∧ f a = .ok b := by
  cases x <;> simp [bind, Except.bind]

theorem validateSql_ok {parsed : Except String (List (Option Expression))}
    {allowedTables : List String} :
    (∃ out, validateSql lower int parsed allowedTables = .ok out) ↔
      ∃ tree, statement parsed = .ok tree ∧ Screened lower int tree ∧
        Covered lower allowedTables tree := by
  unfold validateSql
  constructor
  · rintro ⟨out, h⟩
    obtain ⟨tree, hs, h⟩ := bind_ok.mp h
    obtain ⟨_, hquery, h⟩ := bind_ok.mp h
    obtain ⟨_, hoperations, h⟩ := bind_ok.mp h
    obtain ⟨_, hfunctions, h⟩ := bind_ok.mp h
    obtain ⟨_, htables, h⟩ := bind_ok.mp h
    obtain ⟨_, hoffset, hlimit⟩ := bind_ok.mp h
    exact ⟨tree, hs, ⟨requireQuery_ok.mp hquery, refuse_ok.mp hoperations, refuse_ok.mp hfunctions,
      hoffset, out, hlimit⟩, refuse_ok.mp htables⟩
  · rintro ⟨tree, hs, hscreened, hcovered⟩
    obtain ⟨out, hlimit⟩ := hscreened.limit
    refine ⟨out, bind_ok.mpr ⟨tree, hs, ?_⟩⟩
    refine bind_ok.mpr ⟨(), requireQuery_ok.mpr hscreened.query, ?_⟩
    refine bind_ok.mpr ⟨(), refuse_ok.mpr hscreened.operations, ?_⟩
    refine bind_ok.mpr ⟨(), refuse_ok.mpr hscreened.functions, ?_⟩
    refine bind_ok.mpr ⟨(), refuse_ok.mpr hcovered, ?_⟩
    exact bind_ok.mpr ⟨(), hscreened.offset, hlimit⟩

theorem confined_of_unmasked {allowedTables : List String} {tree : Expression}
    (hc : Covered lower allowedTables tree) :
    Confined lower allowedTables tree ↔ Unmasked lower allowedTables tree := by
  constructor
  · intro h r hr _
    by_cases hb : r.Bound lower
    · exact .inl hb
    · exact .inr (h r hr hb)
  · intro h r hr hb
    obtain ⟨table, hw, hnames⟩ := references_within [] [] tree hr
    have hpass := hc table (OrderedTree.mem_walk.mpr hw)
    unfold refusedTable at hpass
    rw [show Expression.cls table = _ from hnames] at hpass
    by_contra hallowed
    have hmask : lower r.name = "" ∨ lower r.name ∈ cteNames lower tree := by
      by_contra hn
      simp [tableName, hallowed, not_or.mp hn] at hpass
    exact (h r hr hmask).elim hb hallowed

theorem confined_iff (lower : String → String) (int : String → Option ℤ)
    (parsed : Except String (List (Option Expression))) (allowedTables : List String) :
    ((∃ out, validateSql lower int parsed allowedTables = .ok out) →
      ∀ tree, statement parsed = .ok tree → Confined lower allowedTables tree) ↔
    ∀ tree, statement parsed = .ok tree → Screened lower int tree → Covered lower allowedTables tree →
      Unmasked lower allowedTables tree := by
  rw [validateSql_ok]
  constructor
  · intro h tree hs hscreened hcovered
    exact (confined_of_unmasked hcovered).mp (h ⟨tree, hs, hscreened, hcovered⟩ tree hs)
  · rintro h ⟨tree', hs', hscreened, hcovered⟩ tree hs
    obtain rfl : tree' = tree := by simpa [hs'] using hs
    exact (confined_of_unmasked hcovered).mpr (h tree' hs' hscreened hcovered)

def qualified : Expression :=
  .node ⟨"", .select⟩ [
    .node ⟨"with", .withClause false⟩ [
      .node ⟨"expressions", .cte "secret_table"⟩ [
        .node ⟨"this", .select⟩ [.node ⟨"expressions", .literal "1" false⟩ []]]],
    .node ⟨"expressions", .other "Star"⟩ [],
    .node ⟨"from", .other "From"⟩ [.node ⟨"this", .table (some "secret_table") "main" ""⟩ []]]

theorem qualified_accepted :
    (∃ out, validateSql id String.toInt? (.ok [some qualified]) ["customers"] = .ok out) ∧
      statement (.ok [some qualified]) = .ok qualified ∧ ¬ Confined id ["customers"] qualified :=
  ⟨⟨setLimit qualified, rfl⟩, rfl, by decide⟩

end Workbench.SqlGuard
