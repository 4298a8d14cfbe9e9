import Workbench.PyIntegers
import Workbench.SqlScopes

namespace Workbench.SqlGuard

open LabelledTrees

def literalArg (node : Expression) : Option (String × Bool) :=
  (node.arg "expression").bind fun e =>
    match e.cls with
    | .literal this isString => some (this, isString)
    | _ => none

section Bounds

variable (int : String → Option ℤ)

def integerOf (node : Expression) : Option ℤ :=
  (literalArg node).bind fun l => if l.2 then none else int l.1

def LimitBounded (tree : Expression) : Prop :=
  ∃ node n, tree.arg "limit" = some node ∧ integerOf int node = some n ∧ 0 ≤ n ∧ n ≤ maxRows

def OffsetBounded (tree : Expression) : Prop :=
  ∀ node ∈ tree.arg "offset", ∃ n, integerOf int node = some n ∧ n ≤ maxOffset

def others (tree : Expression) : List Expression :=
  tree.children.filter fun c => c.label.argKey ≠ "limit"

structure Bounded (tree out : Expression) : Prop where
  label : out.label = tree.label
  others : others out = others tree
  limit : LimitBounded int out
  kept : LimitBounded int tree → out.arg "limit" = tree.arg "limit"
  offset : OffsetBounded int out

def Guards (lower : String → String) (parsed : Except String (List (Option Expression)))
    (allowedTables : List String) : Prop :=
  (∀ e, validateSql lower int parsed allowedTables = .error e → ∃ g, e = .guard g) ∧
    ∀ out, validateSql lower int parsed allowedTables = .ok out →
      ∃ tree, statement parsed = .ok tree ∧ Bounded int tree out

/-- A literal is read as an integer, and is a number unless it is too large. -/
def OffsetReadable (tree : Expression) : Prop :=
  ∀ node ∈ tree.arg "offset", ∀ this isString, literalArg node = some (this, isString) →
    ∃ n, int this = some n ∧ (n ≤ maxOffset → isString = false)

def LimitReadable (tree : Expression) : Prop :=
  ∀ node ∈ tree.arg "limit", ∀ this isString, literalArg node = some (this, isString) →
    ∃ n, int this = some n ∧ (n ≤ maxRows → isString = false ∧ 0 ≤ n)

end Bounds

structure Admitted (lower : String → String) (allowedTables : List String) (tree : Expression) :
    Prop where
  query : IsQuery tree
  operations : ∀ node ∈ tree.walk, refusedOperation node = none
  functions : ∀ node ∈ tree.walk, refusedFunction lower node = none
  tables : Covered lower allowedTables tree

variable {lower : String → String} {int : String → Option ℤ}

theorem literalOf_eq (node : Expression) : literalOf node = (literalArg node).map Prod.fst := by
  unfold literalOf literalArg
  cases node.arg "expression" with
  | none => rfl
  | some e =>
    simp only [Option.bind_some]
    cases e.cls <;> rfl

theorem integerOf_of_literal {node : Expression} {this : String} {isString : Bool}
    (h : literalArg node = some (this, isString)) :
    integerOf int node = if isString then none else int this := by
  rw [integerOf, h]
  rfl

theorem integerOf_none {node : Expression} (h : literalArg node = none) : integerOf int node = none := by
  rw [integerOf, h]
  rfl

theorem checkOffset_literal {tree node : Expression} (hnode : tree.arg "offset" = some node)
    {this : String} {isString : Bool} (h : literalArg node = some (this, isString)) :
    checkOffset int tree = match int this with
      | none => .error (.valueError this)
      | some n => if maxOffset < n then .error (.guard .offset) else .ok () := by
  rw [checkOffset, hnode]
  cases hthis : int this with
  | none => simp only [literalOf_eq, h, Option.map_some, hthis]
  | some n => simp only [literalOf_eq, h, Option.map_some, hthis]

theorem checkOffset_computed {tree node : Expression} (hnode : tree.arg "offset" = some node)
    (h : literalArg node = none) : checkOffset int tree = .error (.guard .offset) := by
  rw [checkOffset, hnode]
  simp only [literalOf_eq, h, Option.map_none]

theorem checkOffset_absent {tree : Expression} (h : tree.arg "offset" = none) :
    checkOffset int tree = .ok () := by
  rw [checkOffset, h]

theorem checkOffset_of_bounded {tree : Expression} (h : OffsetBounded int tree) :
    checkOffset int tree = .ok () := by
  cases hnode : tree.arg "offset" with
  | none => exact checkOffset_absent hnode
  | some node =>
    obtain ⟨n, hn, hle⟩ := h node hnode
    obtain ⟨⟨this, isString⟩, hlit, hint⟩ := Option.bind_eq_some_iff.mp hn
    rw [checkOffset_literal hnode hlit]
    split_ifs at hint
    rw [hint]
    exact if_neg (not_lt.mpr hle)

theorem forall_literalArg {arg : Option Expression} {node : Expression} (hnode : arg = some node)
    {this : String} {isString : Bool} (h : literalArg node = some (this, isString))
    (P : String → Bool → Prop) : (∀ node ∈ arg, ∀ this isString,
      literalArg node = some (this, isString) → P this isString) ↔ P this isString := by
  constructor
  · intro hall
    exact hall node hnode this isString h
  · rintro hP node' hnode' this' isString' h'
    cases hnode.symm.trans hnode'
    cases h.symm.trans h'
    exact hP

theorem offsetBounded_literal {tree node : Expression} (hnode : tree.arg "offset" = some node)
    {this : String} {isString : Bool} (h : literalArg node = some (this, isString)) :
    OffsetBounded int tree ↔ isString = false ∧ ∃ n, int this = some n ∧ n ≤ maxOffset := by
  unfold OffsetBounded
  rw [hnode]
  cases isString <;> simp [integerOf_of_literal h]

theorem offsetReadable_iff (tree : Expression) : OffsetReadable int tree ↔
    (∀ e, checkOffset int tree = .error e → ∃ g, e = .guard g) ∧
      (checkOffset int tree = .ok () → OffsetBounded int tree) := by
  cases hnode : tree.arg "offset" with
  | none => simp [OffsetReadable, OffsetBounded, checkOffset_absent, hnode]
  | some node =>
    cases hlit : literalArg node with
    | none => simp [OffsetReadable, OffsetBounded, checkOffset_computed hnode hlit, hnode, hlit]
    | some l =>
      obtain ⟨this, isString⟩ := l
      rw [checkOffset_literal hnode hlit, offsetBounded_literal hnode hlit, OffsetReadable,
        forall_literalArg hnode hlit fun this isString =>
          ∃ n, int this = some n ∧ (n ≤ maxOffset → isString = false)]
      cases hint : int this with
      | none => simp
      | some n =>
        by_cases hlarge : maxOffset < n
        · simp [hlarge, not_le.mpr hlarge]
        · simp [hlarge, not_lt.mp hlarge]

theorem setLimit_eq (tree : Expression) : setLimit tree = .node tree.label
    (if tree.children.any fun c => c.label.argKey = "limit" then
      tree.children.map fun c => if c.label.argKey = "limit" then maxRowsLimit else c
    else tree.children ++ [maxRowsLimit]) := by
  obtain ⟨label, children⟩ := tree
  exact (apply_ite (OrderedTree.node label) _ _ _).symm

theorem arg_setLimit (tree : Expression) : (setLimit tree).arg "limit" = some maxRowsLimit := by
  rw [Expression.arg, setLimit_eq, OrderedTree.children]
  split_ifs with hany
  · have hsame : ((fun c : Expression => decide (c.label.argKey = "limit")) ∘ fun c : Expression =>
        if c.label.argKey = "limit" then maxRowsLimit else c) =
          fun c : Expression => decide (c.label.argKey = "limit") := by
      funext c
      simp only [Function.comp_apply]
      split_ifs with hc
      · rw [hc]
        rfl
      · rfl
    obtain ⟨c, hc, hkey⟩ := List.any_eq_true.mp hany
    have hsome : (tree.children.find? fun c => c.label.argKey = "limit").isSome :=
      List.find?_isSome.mpr ⟨c, hc, hkey⟩
    obtain ⟨found, hfound⟩ := Option.isSome_iff_exists.mp hsome
    rw [List.find?_map, hsame, hfound, Option.map_some, if_pos (by simpa using List.find?_some hfound)]
  · have hnone : tree.children.find? (fun c => c.label.argKey = "limit") = none := by
      simpa using hany
    rw [List.find?_append, hnone]
    rfl

theorem others_setLimit (tree : Expression) : others (setLimit tree) = others tree := by
  unfold others
  rw [setLimit_eq, OrderedTree.children]
  split_ifs with hany
  · have hsame : ((fun c : Expression => decide (c.label.argKey ≠ "limit")) ∘ fun c : Expression =>
        if c.label.argKey = "limit" then maxRowsLimit else c) =
          fun c : Expression => decide (c.label.argKey ≠ "limit") := by
      funext c
      simp only [Function.comp_apply]
      split_ifs with hc
      · rw [hc]
        rfl
      · rfl
    rw [List.filter_map, hsame]
    conv_rhs => rw [← List.map_id (tree.children.filter _)]
    apply List.map_congr_left
    intro c hc
    exact if_neg (of_decide_eq_true (List.mem_filter.mp hc).2)
  · rw [List.filter_append]
    exact List.append_nil _

theorem arg_of_others {t u : Expression} (h : others t = others u) {key : String}
    (hkey : key ≠ "limit") : t.arg key = u.arg key := by
  have hfind : ∀ v : Expression, v.arg key = (others v).find? fun c => c.label.argKey = key := by
    intro v
    rw [others, List.find?_filter, Expression.arg]
    congr 1
    funext c
    by_cases hc : c.label.argKey = key
    · simp [hc, hkey]
    · simp [hc]
  rw [hfind t, hfind u, h]

theorem enforceLimit_absent {tree : Expression} (h : tree.arg "limit" = none) :
    enforceLimit int tree = .ok (setLimit tree) := by
  rw [enforceLimit, h]

theorem enforceLimit_computed {tree node : Expression} (hnode : tree.arg "limit" = some node)
    (h : literalArg node = none) : enforceLimit int tree = .ok (setLimit tree) := by
  rw [enforceLimit, hnode]
  simp only [literalOf_eq, h, Option.map_none]

theorem enforceLimit_literal {tree node : Expression} (hnode : tree.arg "limit" = some node)
    {this : String} {isString : Bool} (h : literalArg node = some (this, isString)) :
    enforceLimit int tree = match int this with
      | none => .error (.valueError this)
      | some n => if maxRows < n then .ok (setLimit tree) else .ok tree := by
  rw [enforceLimit, hnode]
  cases hthis : int this with
  | none => simp only [literalOf_eq, h, Option.map_some, hthis]
  | some n => simp only [literalOf_eq, h, Option.map_some, hthis]

theorem enforceLimit_error {tree : Expression} {e : Failure} (h : enforceLimit int tree = .error e) :
    ∃ this, e = .valueError this := by
  cases hnode : tree.arg "limit" with
  | none =>
    rw [enforceLimit_absent hnode] at h
    cases h
  | some node =>
    cases hlit : literalArg node with
    | none =>
      rw [enforceLimit_computed hnode hlit] at h
      cases h
    | some l =>
      rw [enforceLimit_literal hnode hlit] at h
      split at h
      · cases h
        exact ⟨l.1, rfl⟩
      · split_ifs at h

theorem enforceLimit_ok {tree out : Expression} (h : enforceLimit int tree = .ok out) :
    out = setLimit tree ∧ ¬ LimitBounded int tree ∨ out = tree := by
  have hmissing : (∀ node ∈ tree.arg "limit", integerOf int node = none) → ¬ LimitBounded int tree := by
    rintro hnone ⟨node, n, hnode, hn, -⟩
    rw [hnone node hnode] at hn
    cases hn
  cases hnode : tree.arg "limit" with
  | none =>
    rw [enforceLimit_absent hnode] at h
    cases h
    exact .inl ⟨rfl, hmissing (by simp [hnode])⟩
  | some node =>
    cases hlit : literalArg node with
    | none =>
      rw [enforceLimit_computed hnode hlit] at h
      cases h
      exact .inl ⟨rfl, hmissing (by simp [hnode, integerOf_none hlit])⟩
    | some l =>
      rw [enforceLimit_literal hnode hlit] at h
      split at h
      · cases h
      · rename_i n hint
        split_ifs at h with hlarge
        · cases h
          refine .inl ⟨rfl, ?_⟩
          rintro ⟨node', n', hnode', hn', -, hle⟩
          cases hnode.symm.trans hnode'
          rw [integerOf_of_literal hlit, hint] at hn'
          split_ifs at hn'
          cases hn'
          omega
        · cases h
          exact .inr rfl

theorem limitBounded_setLimit (hint : int "200" = some 200) (tree : Expression) :
    LimitBounded int (setLimit tree) := by
  have hliteral : literalArg maxRowsLimit = some ("200", false) := rfl
  refine ⟨maxRowsLimit, 200, arg_setLimit tree, ?_, by decide, by decide⟩
  rw [integerOf_of_literal hliteral]
  exact hint

theorem limitReadable_iff (hint : int "200" = some 200) (tree : Expression) :
    LimitReadable int tree ↔ (∀ e, enforceLimit int tree ≠ .error e) ∧
      ∀ out, enforceLimit int tree = .ok out → LimitBounded int out := by
  have hset := limitBounded_setLimit hint tree
  cases hnode : tree.arg "limit" with
  | none => simp [LimitReadable, enforceLimit_absent hnode, hnode, hset]
  | some node =>
    cases hlit : literalArg node with
    | none => simp [LimitReadable, enforceLimit_computed hnode hlit, hnode, hlit, hset]
    | some l =>
      obtain ⟨this, isString⟩ := l
      have hbounded : LimitBounded int tree ↔
          isString = false ∧ ∃ n, int this = some n ∧ 0 ≤ n ∧ n ≤ maxRows := by
        unfold LimitBounded
        rw [hnode]
        cases isString <;> simp [integerOf_of_literal hlit]
      rw [enforceLimit_literal hnode hlit, LimitReadable,
        forall_literalArg hnode hlit fun this isString =>
          ∃ n, int this = some n ∧ (n ≤ maxRows → isString = false ∧ 0 ≤ n)]
      cases hn : int this with
      | none => simp
      | some n =>
        by_cases hlarge : maxRows < n
        · simp [hlarge, not_le.mpr hlarge, hset]
        · simp [hlarge, not_lt.mp hlarge, hbounded, hn]

theorem validateSql_admitted {parsed : Except String (List (Option Expression))}
    {allowedTables : List String} {tree : Expression} (hs : statement parsed = .ok tree)
    (h : Admitted lower allowedTables tree) : validateSql lower int parsed allowedTables =
      checkOffset int tree >>= fun _ => enforceLimit int tree := by
  unfold validateSql
  rw [hs]
  simp only [bind, Except.bind]
  rw [requireQuery_ok.mpr h.query]
  simp only
  rw [refuse_ok.mpr h.operations]
  simp only
  rw [refuse_ok.mpr h.functions]
  simp only
  rw [refuse_ok.mpr h.tables]

theorem refuse_error {check : Expression → Option SqlGuardError} {tree : Expression} {e : Failure}
    (h : refuse check tree = .error e) : ∃ g, e = .guard g := by
  unfold refuse at h
  split at h
  · cases h
    exact ⟨_, rfl⟩
  · cases h

theorem bind_guard {A B : Type} {x : Except Failure A} {f : A → Except Failure B}
    (hx : ∀ e, x = .error e → ∃ g, e = .guard g)
    (hf : ∀ a, x = .ok a → ∃ g, f a = .error (.guard g)) : ∃ g, (x >>= f) = .error (.guard g) := by
  cases x with
  | error e =>
    obtain ⟨g, rfl⟩ := hx e rfl
    exact ⟨g, rfl⟩
  | ok a => exact hf a rfl

theorem validateSql_unadmitted {parsed : Except String (List (Option Expression))}
    {allowedTables : List String}
    (h : ∀ tree, statement parsed = .ok tree → ¬ Admitted lower allowedTables tree) :
    ∃ g, validateSql lower int parsed allowedTables = .error (.guard g) := by
  apply bind_guard
  · intro e he
    unfold statement at he
    split at he
    · cases he
      exact ⟨_, rfl⟩
    · split at he
      · cases he
      · cases he
        exact ⟨_, rfl⟩
  intro tree hs
  apply bind_guard
  · intro e he
    unfold requireQuery at he
    split_ifs at he
    cases he
    exact ⟨_, rfl⟩
  intro _ hquery
  apply bind_guard (fun e => refuse_error)
  intro _ hoperations
  apply bind_guard (fun e => refuse_error)
  intro _ hfunctions
  apply bind_guard (fun e => refuse_error)
  intro _ htables
  exact absurd ⟨requireQuery_ok.mp hquery, refuse_ok.mp hoperations, refuse_ok.mp hfunctions,
    refuse_ok.mp htables⟩ (h tree hs)

theorem bounded_of_ok {tree out : Expression} (hlimit : enforceLimit int tree = .ok out)
    (hbounded : LimitBounded int out) (hoffset : OffsetBounded int tree) : Bounded int tree out := by
  rcases enforceLimit_ok hlimit with ⟨rfl, hloose⟩ | rfl
  · have hothers := others_setLimit tree
    refine ⟨?_, hothers, hbounded, fun h => absurd h hloose, ?_⟩
    · rw [setLimit_eq]
      rfl
    · rw [OffsetBounded, arg_of_others hothers (by decide)]
      exact hoffset
  · exact ⟨rfl, rfl, hbounded, fun _ => rfl, hoffset⟩

theorem guards_admitted (hint : int "200" = some 200)
    {parsed : Except String (List (Option Expression))} {allowedTables : List String}
    {tree : Expression} (hs : statement parsed = .ok tree) (h : Admitted lower allowedTables tree) :
    Guards int lower parsed allowedTables ↔
      OffsetReadable int tree ∧ (OffsetBounded int tree → LimitReadable int tree) := by
  rw [Guards, validateSql_admitted hs h, offsetReadable_iff, limitReadable_iff hint]
  constructor
  · rintro ⟨herror, hok⟩
    have hpassed : checkOffset int tree = .ok () → ∀ out, enforceLimit int tree = .ok out →
        Bounded int tree out := by
      intro hoffset out hlimit
      obtain ⟨tree', hs', hbounded⟩ := hok out (bind_ok.mpr ⟨(), hoffset, hlimit⟩)
      cases hs.symm.trans hs'
      exact hbounded
    have hread : checkOffset int tree = .ok () → ∀ e, enforceLimit int tree ≠ .error e := by
      intro hoffset e hlimit
      obtain ⟨this, rfl⟩ := enforceLimit_error hlimit
      obtain ⟨g, hg⟩ := herror (.valueError this) (by rw [hoffset]; exact hlimit)
      cases hg
    refine ⟨⟨?_, ?_⟩, ?_⟩
    · intro e he
      exact herror e (by rw [he]; rfl)
    · intro hoffset
      cases hlimit : enforceLimit int tree with
      | error e => exact absurd hlimit (hread hoffset e)
      | ok out =>
        have hbounded := hpassed hoffset out hlimit
        rw [OffsetBounded, ← arg_of_others hbounded.others (by decide)]
        exact hbounded.offset
    · intro hoffset
      have hok' := checkOffset_of_bounded hoffset
      exact ⟨hread hok', fun out hlimit => (hpassed hok' out hlimit).limit⟩
  · rintro ⟨⟨hrefused, hpassed⟩, hlimits⟩
    cases hoffset : checkOffset int tree with
    | error e =>
      obtain ⟨g, rfl⟩ := hrefused e hoffset
      exact ⟨fun e he => ⟨g, (Except.error.inj he).symm⟩, nofun⟩
    | ok _ =>
      obtain ⟨hread, hbounds⟩ := hlimits (hpassed hoffset)
      refine ⟨fun e he => absurd he (hread e), ?_⟩
      intro out hout
      exact ⟨tree, hs, bounded_of_ok hout (hbounds out hout) (hpassed hoffset)⟩

theorem guards_iff (lower : String → String) (parsed : Except String (List (Option Expression)))
    (allowedTables : List String) : Guards PyIntegers.int lower parsed allowedTables ↔
      ∀ tree, statement parsed = .ok tree → Admitted lower allowedTables tree →
        OffsetReadable PyIntegers.int tree ∧
          (OffsetBounded PyIntegers.int tree → LimitReadable PyIntegers.int tree) := by
  have hint : PyIntegers.int "200" = some 200 := by decide +kernel
  by_cases h : ∃ tree, statement parsed = .ok tree ∧ Admitted lower allowedTables tree
  · obtain ⟨tree, hs, hadmitted⟩ := h
    rw [guards_admitted hint hs hadmitted]
    constructor
    · intro hgood tree' hs' _
      cases hs.symm.trans hs'
      exact hgood
    · intro hgood
      exact hgood tree hs hadmitted
  · have hnone : ∀ tree, statement parsed = .ok tree → ¬ Admitted lower allowedTables tree :=
      fun tree hs hadmitted => h ⟨tree, hs, hadmitted⟩
    obtain ⟨g, hg⟩ := @validateSql_unadmitted lower PyIntegers.int _ _ hnone
    rw [Guards, hg]
    constructor
    · intro _ tree hs hadmitted
      exact absurd hadmitted (hnone tree hs)
    · intro _
      exact ⟨fun e he => ⟨g, (Except.error.inj he).symm⟩, nofun⟩

def limited (count : Cls) : Expression :=
  .node ⟨"", .select⟩ [
    .node ⟨"expressions", .other "Column"⟩ [],
    .node ⟨"from", .other "From"⟩ [.node ⟨"this", .table (some "customers") "" ""⟩ []],
    .node ⟨"limit", .limit⟩ [.node ⟨"expression", count⟩ []]]

-- `LIMIT 1.5` leaves with a ValueError, `LIMIT '-1'` is passed on
theorem odd_limits_unguarded :
    ¬ Guards PyIntegers.int id (.ok [some (limited (.literal "1.5" false))]) ["customers"] ∧
      ¬ Guards PyIntegers.int id (.ok [some (limited (.literal "-1" true))]) ["customers"] := by
  constructor
  · rintro ⟨herror, -⟩
    obtain ⟨g, hg⟩ := herror (.valueError "1.5") (by rfl)
    cases hg
  · rintro ⟨-, hok⟩
    obtain ⟨tree, -, hbounded⟩ := hok (limited (.literal "-1" true)) (by rfl)
    obtain ⟨node, n, hnode, hn, -⟩ := hbounded.limit
    cases hnode
    cases hn

end Workbench.SqlGuard
