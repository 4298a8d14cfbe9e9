import Workbench.Calculator
import Mathlib.Algebra.Order.BigOperators.Group.List
import Mathlib.Algebra.GroupWithZero.Nat
import Mathlib.Algebra.Order.Group.Nat
import Mathlib.Data.List.Induction

namespace Workbench.Calculator

open OperatorGrammars

variable {F : Type} (lib : Library F)

def plainEval : Node F → Except (CalcError F) (Value F)
  | .leaf (.constant v) => .ok v
  | .leaf (.other dump) => .error (.unsupported (.leaf (.other dump)))
  | .binOp left op right =>
    match operate lib op with
    | none => .error (.unsupported (.binOp left op right))
    | some f => do
      let x ← plainEval left
      let y ← plainEval right
      (f x y).mapError .raised
  | .unaryOp op operand =>
    match operateUnary lib op with
    | none => .error (.unsupported (.unaryOp op operand))
    | some f => do
      let x ← plainEval operand
      (f x).mapError .raised

/-- Evaluation comes to a node with more than `maxDepth` operators above it, `depth` of them above the
whole, before anything else goes wrong. -/
def ComesTo : Node F → ℕ → Prop
  | .leaf _, depth => maxDepth < depth
  | .binOp left op right, depth => maxDepth < depth ∨ (operate lib op).isSome ∧
      (ComesTo left (depth + 1) ∨ (plainEval lib left).isOk ∧ ComesTo right (depth + 1))
  | .unaryOp op operand, depth => maxDepth < depth ∨ (operateUnary lib op).isSome ∧
      ComesTo operand (depth + 1)

def height : Node F → ℕ
  | .leaf _ => 0
  | .binOp left _ right => max (height left) (height right) + 1
  | .unaryOp _ operand => height operand + 1

variable {lib}

theorem comesTo_height {n : Node F} {depth : ℕ} (h : ComesTo lib n depth) :
    maxDepth < depth + height n := by
  induction n generalizing depth with
  | leaf l => exact h
  | binOp left op right ihl ihr =>
    rw [height]
    rcases h with hlt | ⟨-, hleft | ⟨-, hright⟩⟩
    · omega
    · have hl := ihl hleft
      omega
    · have hr := ihr hright
      omega
  | unaryOp op operand ih =>
    rw [height]
    rcases h with hlt | ⟨-, hoperand⟩
    · omega
    · have ho := ih hoperand
      omega

theorem not_comesTo {n : Node F} {depth : ℕ} (h : ¬ ComesTo lib n depth) : ¬ maxDepth < depth := by
  intro hlt
  apply h
  cases n with
  | leaf l => exact hlt
  | binOp left op right => exact .inl hlt
  | unaryOp op operand => exact .inl hlt

theorem safeEval_plain {n : Node F} {depth : ℕ} (h : ¬ ComesTo lib n depth) :
    safeEval lib n depth = plainEval lib n := by
  induction n generalizing depth with
  | leaf l =>
    cases l with
    | constant v => rw [safeEval, if_neg (not_comesTo h), plainEval]
    | other dump => rw [safeEval, if_neg (not_comesTo h), plainEval]
  | binOp left op right ihl ihr =>
    rw [safeEval, if_neg (not_comesTo h), plainEval]
    cases ho : operate lib op with
    | none => rfl
    | some f =>
      rw [ComesTo, ho, not_or, not_and, not_or] at h
      obtain ⟨hl, hr⟩ := h.2 rfl
      simp only [ihl hl]
      cases hx : plainEval lib left with
      | error e => rfl
      | ok x =>
        have hr' : ¬ ComesTo lib right (depth + 1) := fun hc => hr ⟨by rw [hx]; rfl, hc⟩
        change Except.bind (safeEval lib right (depth + 1)) _ = Except.bind (plainEval lib right) _
        rw [ihr hr']
  | unaryOp op operand ih =>
    rw [safeEval, if_neg (not_comesTo h), plainEval]
    cases ho : operateUnary lib op with
    | none => rfl
    | some f =>
      rw [ComesTo, ho, not_or, not_and] at h
      simp only [ih (h.2 rfl)]

theorem safeEval_deep {n : Node F} {depth : ℕ} (h : maxDepth < depth) :
    safeEval lib n depth = .error (.tooDeep tooDeepText) := by
  rw [safeEval.eq_def, if_pos h]

theorem safeEval_comesTo {n : Node F} {depth : ℕ} (h : ComesTo lib n depth) :
    safeEval lib n depth = .error (.tooDeep tooDeepText) := by
  induction n generalizing depth with
  | leaf l => exact safeEval_deep h
  | binOp left op right ihl ihr =>
    by_cases hlt : maxDepth < depth
    · exact safeEval_deep hlt
    · rw [ComesTo] at h
      obtain ⟨hop, hsides⟩ := h.resolve_left hlt
      obtain ⟨f, hf⟩ := Option.isSome_iff_exists.mp hop
      rw [safeEval, if_neg hlt, hf]
      by_cases hl : ComesTo lib left (depth + 1)
      · simp only [ihl hl]
        rfl
      · obtain ⟨hok, hr⟩ := hsides.resolve_left hl
        simp only [safeEval_plain hl]
        cases hx : plainEval lib left with
        | error e =>
          rw [hx] at hok
          cases hok
        | ok x =>
          change Except.bind (safeEval lib right (depth + 1)) _ = _
          rw [ihr hr]
          rfl
  | unaryOp op operand ih =>
    by_cases hlt : maxDepth < depth
    · exact safeEval_deep hlt
    · rw [ComesTo] at h
      obtain ⟨hop, hoperand⟩ := h.resolve_left hlt
      obtain ⟨f, hf⟩ := Option.isSome_iff_exists.mp hop
      rw [safeEval, if_neg hlt, hf]
      simp only [ih hoperand]
      rfl

theorem plainEval_ne (n : Node F) (text : String) : plainEval lib n ≠ .error (.tooDeep text) := by
  have hmap (r : Except String (Value F)) :
      r.mapError CalcError.raised ≠ .error (.tooDeep text : CalcError F) := by
    cases r with
    | error e => exact fun h => by cases h
    | ok v => exact fun h => by cases h
  induction n with
  | leaf l =>
    cases l with
    | constant v => exact fun h => by cases h
    | other dump => exact fun h => by cases h
  | binOp left op right ihl ihr =>
    rw [plainEval]
    cases operate lib op with
    | none => exact fun h => by cases h
    | some f =>
      cases hx : plainEval lib left with
      | error e =>
        rw [hx] at ihl
        exact fun h => ihl (by cases h; rfl)
      | ok x =>
        cases hy : plainEval lib right with
        | error e =>
          rw [hy] at ihr
          exact fun h => ihr (by cases h; rfl)
        | ok y => exact hmap (f x y)
  | unaryOp op operand ih =>
    rw [plainEval]
    cases operateUnary lib op with
    | none => exact fun h => by cases h
    | some f =>
      cases hx : plainEval lib operand with
      | error e =>
        rw [hx] at ih
        exact fun h => ih (by cases h; rfl)
      | ok x => exact hmap (f x)

theorem tooDeep_iff {n : Node F} {depth : ℕ} :
    safeEval lib n depth = .error (.tooDeep tooDeepText) ↔ ComesTo lib n depth := by
  constructor
  · intro h
    by_contra hn
    rw [safeEval_plain hn] at h
    exact plainEval_ne n tooDeepText h
  · exact safeEval_comesTo

def sumText (ns : List ℕ) : String := " + ".intercalate (ns.map toString)

section Tokens

theorem tokenize_begun {p q : Pending} {c : Char} (h : p.next c = some ([], q)) (cs : List Char) :
    tokenize p (c :: cs) = tokenize q cs := by
  rw [tokenize, h, Option.bind_some]
  cases tokenize q cs with
  | none => rfl
  | some words => rfl

theorem tokenize_digits {ds cs : List Char} (h : ∀ c ∈ cs, c.isDigit = true) (rest : List Char) :
    tokenize (.digits ds) (cs ++ rest) = tokenize (.digits (ds ++ cs)) rest := by
  induction cs generalizing ds with
  | nil => rw [List.nil_append, List.append_nil]
  | cons c cs ih =>
    have hnext : Pending.next (.digits ds) c = some ([], .digits (ds ++ [c])) := by
      rw [Pending.next, if_pos (h c List.mem_cons_self)]
    rw [List.cons_append, tokenize_begun hnext, ih fun c hc => h c (List.mem_cons_of_mem _ hc),
      List.append_assoc]
    rfl

theorem tokenize_toDigits (n : ℕ) (rest : List Char) :
    tokenize .blank (Nat.toDigits 10 n ++ rest) = tokenize (.digits (Nat.toDigits 10 n)) rest := by
  have hdigit : ∀ c ∈ Nat.toDigits 10 n, c.isDigit = true := fun c hc =>
    Nat.isDigit_of_mem_toDigits (by omega) (by omega) hc
  obtain ⟨c, cs, hcs⟩ := List.exists_cons_of_ne_nil (Nat.toDigits_ne_nil (n := n) (b := 10))
  rw [hcs] at hdigit ⊢
  have hnext : Pending.next .blank c = some ([], .digits [c]) := by
    change (begin c).map _ = _
    unfold begin
    rw [if_pos (hdigit c List.mem_cons_self)]
    rfl
  rw [List.cons_append, tokenize_begun hnext,
    tokenize_digits fun c hc => hdigit c (List.mem_cons_of_mem _ hc)]
  rfl

theorem tokenize_plus (ds rest : List Char) : tokenize (.digits ds) (' ' :: '+' :: ' ' :: rest) =
    (tokenize .blank rest).map ([.atom ds, .symbol .plus] ++ ·) := by
  have hspace : Pending.next (.digits ds) ' ' = some ([.atom ds], .blank) := rfl
  have hplus : Pending.next .blank '+' = some ([.symbol .plus], .blank) := rfl
  have hblank : Pending.next .blank ' ' = some ([], .blank) := rfl
  rw [tokenize, hspace, Option.bind_some, tokenize, hplus, Option.bind_some, tokenize_begun hblank,
    Option.map_map]
  rfl

def sumWords (a : ℕ) (as : List ℕ) : List Word :=
  .atom (Nat.toDigits 10 a) :: as.flatMap fun b => [.symbol .plus, .atom (Nat.toDigits 10 b)]

theorem toList_sumText_single (a : ℕ) : (sumText [a]).toList = Nat.toDigits 10 a ++ [] := by
  rw [sumText, List.map_cons, List.map_nil, String.intercalate_singleton, List.append_nil]
  exact Nat.toList_repr

theorem toList_sumText_cons (a b : ℕ) (as : List ℕ) : (sumText (a :: b :: as)).toList =
    Nat.toDigits 10 a ++ ' ' :: '+' :: ' ' :: (sumText (b :: as)).toList := by
  rw [sumText, List.map_cons, List.map_cons, String.intercalate_cons_cons, String.toList_append,
    String.toList_append, List.append_assoc, Nat.toString_eq_repr, Nat.toList_repr]
  rfl

theorem tokenize_sumText (a : ℕ) (as : List ℕ) :
    tokenize .blank (sumText (a :: as)).toList = some (sumWords a as) := by
  induction as generalizing a with
  | nil =>
    rw [toList_sumText_single, tokenize_toDigits]
    rfl
  | cons b as ih =>
    rw [toList_sumText_cons, tokenize_toDigits, tokenize_plus, ih]
    rfl

theorem head_sumText (a : ℕ) (as : List ℕ) :
    ∃ c, (sumText (a :: as)).toList.head? = some c ∧ c.isDigit = true := by
  obtain ⟨c, cs, hcs⟩ := List.exists_cons_of_ne_nil (Nat.toDigits_ne_nil (n := a) (b := 10))
  have hdigit : c.isDigit = true := by
    apply Nat.isDigit_of_mem_toDigits (n := a) (b := 10)
    · omega
    · omega
    · rw [hcs]
      exact List.mem_cons_self
  refine ⟨c, ?_, hdigit⟩
  cases as with
  | nil => rw [toList_sumText_single, hcs, List.cons_append, List.head?_cons]
  | cons b as => rw [toList_sumText_cons, hcs, List.cons_append, List.head?_cons]

theorem head_toDigits {n : ℕ} (h : (Nat.toDigits 10 n).head? = some '0') : n = 0 := by
  induction n using Nat.strongRecOn with
  | ind n ih =>
    by_cases hlt : n < 10
    · rw [Nat.toDigits_of_lt_base hlt, List.head?_cons, Option.some.injEq] at h
      exact Nat.digitChar_eq_zero.mp h
    · rw [Nat.toDigits_of_base_le (by omega) (by omega),
        List.head?_append_of_ne_nil _ Nat.toDigits_ne_nil] at h
      have hzero := ih (n / 10) (by omega) h
      omega

theorem literal_toDigits (n : ℕ) :
    literal (Nat.toDigits 10 n) = if n < 10 ^ maxStrDigits then some n else none := by
  have hlength : (Nat.toDigits 10 n).length ≤ maxStrDigits ↔ n < 10 ^ maxStrDigits :=
    Nat.length_toDigits_le_iff (by omega) (Nat.succ_pos 4299)
  unfold literal
  by_cases hn : n < 10 ^ maxStrDigits
  · rw [if_pos hn, if_neg, Nat.ofDigitChars_ten_toDigits]
    rintro (hlong | ⟨hhead, hall⟩)
    · exact absurd hlong (Nat.not_lt.mpr (hlength.mpr hn))
    · rw [head_toDigits hhead] at hall
      exact hall rfl
  · rw [if_neg hn, if_pos]
    exact .inl (Nat.lt_of_not_le (mt hlength.mp hn))

def sumTokens (a : ℕ) (as : List ℕ) : List (Token (Leaf F) Symbol) :=
  .atom (.constant (.int a)) ::
    as.flatMap fun b : ℕ => [.symbol .plus, .atom (.constant (.int b))]

theorem token_atom (n : ℕ) : Word.token (F := F) (.atom (Nat.toDigits 10 n)) =
    if n < 10 ^ maxStrDigits then some (.atom (.constant (.int n))) else none := by
  rw [Word.token, literal_toDigits]
  split_ifs
  · rfl
  · rfl

theorem mapM_cons_if {ds : List Char} {t : Token (Leaf F) Symbol} {p q r : Prop} [Decidable p]
    [Decidable q] [Decidable r] {words : List Word} {ts : List (Token (Leaf F) Symbol)}
    (hr : r ↔ p ∧ q) (ht : Word.token (.atom ds) = if p then some t else none)
    (hts : words.mapM Word.token = if q then some ts else none) :
    (Token.atom ds :: words).mapM Word.token = if r then some (t :: ts) else none := by
  rw [List.mapM_cons, ht, hts]
  by_cases hp : p
  · by_cases hq : q
    · simp [hp, hq, hr]
    · simp [hp, hq, hr]
  · simp [hp, hr]

theorem mapM_terms (as : List ℕ) :
    (as.flatMap fun b => [.symbol .plus, .atom (Nat.toDigits 10 b)]).mapM (Word.token (F := F)) =
      if ∀ n ∈ as, n < 10 ^ maxStrDigits then
        some (as.flatMap fun b => [.symbol .plus, .atom (.constant (.int b))])
      else none := by
  induction as with
  | nil => rfl
  | cons b as ih =>
    have hterm := mapM_cons_if (r := ∀ n ∈ b :: as, n < 10 ^ maxStrDigits) List.forall_mem_cons
      (token_atom b) ih
    rw [List.flatMap_cons, List.cons_append, List.cons_append, List.nil_append, List.mapM_cons, hterm]
    by_cases hall : ∀ n ∈ b :: as, n < 10 ^ maxStrDigits
    · rw [if_pos hall, if_pos hall]
      rfl
    · rw [if_neg hall, if_neg hall]
      rfl

theorem mapM_sumWords (a : ℕ) (as : List ℕ) : (sumWords a as).mapM (Word.token (F := F)) =
    if ∀ n ∈ a :: as, n < 10 ^ maxStrDigits then some (sumTokens a as) else none :=
  mapM_cons_if List.forall_mem_cons (token_atom a) (mapM_terms as)

end Tokens

def flatSum (a : ℕ) (as : List ℕ) : Expr F :=
  as.foldl (fun e (b : ℕ) => .applied e .add (.atom (.constant (.int b)))) (.atom (.constant (.int a)))

theorem derives_flatSum (a : ℕ) (as : List ℕ) :
    Derives table 4 (sumTokens (F := F) a as) (flatSum a as) := by
  induction as using List.reverseRecOn with
  | nil => exact .atom 4 _
  | append_singleton as b ih =>
    have htokens : sumTokens (F := F) a (as ++ [b]) =
        sumTokens a as ++ .symbol .plus :: [.atom (.constant (.int b))] := by
      rw [sumTokens, List.flatMap_append]
      rfl
    have htree : flatSum (F := F) a (as ++ [b]) =
        .applied (flatSum a as) .add (.atom (.constant (.int b))) := by
      rw [flatSum, List.foldl_append]
      rfl
    rw [htokens, htree]
    exact .applied (Nat.le_refl 4) rfl ih (.atom 5 _)

theorem astParse_sumText (a : ℕ) (as : List ℕ) : astParse lib (sumText (a :: as)) =
    if ∀ n ∈ a :: as, n < 10 ^ maxStrDigits then some (flatSum a as) else none := by
  obtain ⟨c, hhead, hdigit⟩ := head_sumText a as
  have hblank : ¬ (c = ' ' ∨ c = '\t') := by
    rintro (rfl | rfl)
    · cases hdigit
    · cases hdigit
  by_cases hall : ∀ n ∈ a :: as, n < 10 ^ maxStrDigits
  · have htokens : (sumWords a as).mapM Word.token = some (sumTokens (F := F) a as) := by
      rw [mapM_sumWords, if_pos hall]
    rw [if_pos hall]
    apply (astParse_eq_some_iff hhead hblank (tokenize_sumText a as) htokens).mpr
    exact .inl ((derives_flatSum a as).mono (Nat.zero_le 4))
  · simp only [astParse, hhead, Option.bind_some, if_neg hblank, tokenize_sumText, mapM_sumWords]
    rw [if_neg hall, if_neg hall]
    rfl

theorem safeEval_flatSum (a : ℕ) (as : List ℕ) (depth : ℕ) :
    safeEval lib (node (flatSum a as)) depth = if depth + as.length ≤ maxDepth then
      .ok (.int (a :: as).sum) else .error (.tooDeep tooDeepText) := by
  induction as using List.reverseRecOn generalizing depth with
  | nil =>
    change safeEval lib (.leaf (.constant (.int a))) depth = _
    rw [List.length_nil, Nat.add_zero, List.sum_singleton, safeEval]
    by_cases hle : depth ≤ maxDepth
    · rw [if_pos hle, if_neg (Nat.not_lt.mpr hle)]
    · rw [if_neg hle, if_pos (Nat.lt_of_not_le hle)]
  | append_singleton as b ih =>
    have htree : node (flatSum (F := F) a (as ++ [b])) =
        .binOp (node (flatSum a as)) .add (.leaf (.constant (.int b))) := by
      rw [flatSum, List.foldl_append]
      rfl
    rw [htree, List.length_append, List.length_singleton]
    by_cases hlt : maxDepth < depth
    · rw [safeEval_deep hlt, if_neg (by omega)]
    · rw [safeEval, if_neg hlt, operate]
      simp only [ih]
      by_cases hle : depth + 1 + as.length ≤ maxDepth
      · rw [if_pos hle, if_pos (by omega), safeEval, if_neg (by omega)]
        change Except.ok (Value.int (((a :: as).sum : ℕ) + (b : ℤ))) = _
        rw [← List.cons_append, List.sum_append, List.sum_singleton, Int.natCast_add]
      · rw [if_neg hle, if_neg (by omega)]
        rfl

theorem nesting_flatSum (a : ℕ) (as : List ℕ) : nesting (flatSum (F := F) a as) = 0 := by
  induction as using List.reverseRecOn with
  | nil => rfl
  | append_singleton as b ih =>
    rw [flatSum, List.foldl_append]
    change max (nesting (flatSum a as)) 0 = 0
    rw [ih, Nat.max_self]

theorem str_nat (n : ℕ) : str lib (.int n) =
    if n < 10 ^ maxStrDigits then .ok (toString n) else .error strLimitText := by
  have hlength : (toString n).length ≤ maxStrDigits ↔ n < 10 ^ maxStrDigits :=
    Nat.length_repr_le_iff (Nat.succ_pos 4299)
  rw [str, Int.natAbs_natCast]
  by_cases hn : n < 10 ^ maxStrDigits
  · rw [if_pos hn, if_neg (Nat.not_lt.mpr (hlength.mpr hn))]
    rfl
  · rw [if_neg hn, if_pos (Nat.lt_of_not_le (mt hlength.mp hn))]

theorem calculator_sumText (a : ℕ) (as : List ℕ) : calculator lib (sumText (a :: as)) =
    if ∀ n ∈ a :: as, n < 10 ^ maxStrDigits then
      if as.length ≤ maxDepth then
        if (a :: as).sum < 10 ^ maxStrDigits then .ok (toString (a :: as).sum)
        else .error (.raised strLimitText)
      else .error (.tooDeep tooDeepText)
    else .error .syntaxError := by
  rw [calculator, astParse_sumText]
  by_cases hall : ∀ n ∈ a :: as, n < 10 ^ maxStrDigits
  · rw [if_pos hall, if_pos hall]
    simp only [safeEval_flatSum, Nat.zero_add]
    by_cases hle : as.length ≤ maxDepth
    · rw [if_pos hle, if_pos hle]
      change (str lib (.int ((a :: as).sum : ℕ))).mapError _ = _
      rw [str_nat]
      by_cases hsum : (a :: as).sum < 10 ^ maxStrDigits
      · rw [if_pos hsum, if_pos hsum]
        rfl
      · rw [if_neg hsum, if_neg hsum]
        rfl
    · rw [if_neg hle, if_neg hle]
      rfl
  · rw [if_neg hall, if_neg hall]

/-- A flat sum is evaluated up to one term more than the cap, as long as it can be printed; what the
cap rejects without nesting are the expressions whose tree is deep for another reason; and a tree
within the cap is evaluated as without it. -/
theorem calculator_iff (lib : Library F) :
    (∀ (a : ℕ) (as : List ℕ), calculator lib (sumText (a :: as)) = .ok (toString (a :: as).sum) ↔
      (a :: as).length ≤ maxDepth + 1 ∧ (a :: as).sum < 10 ^ maxStrDigits) ∧
    (∀ e : Expr F,
      (safeEval lib (node e) 0 = .error (.tooDeep tooDeepText) → maxDepth < nesting e) ↔
        (ComesTo lib (node e) 0 → maxDepth < nesting e)) ∧
    ∀ e : Expr F, height (node e) ≤ maxDepth → safeEval lib (node e) 0 = plainEval lib (node e) := by
  refine ⟨?_, ?_, ?_⟩
  · intro a as
    rw [calculator_sumText, List.length_cons, Nat.add_le_add_iff_right]
    constructor
    · intro h
      split_ifs at h with hall hle hsum
      exact ⟨hle, hsum⟩
    · rintro ⟨hle, hsum⟩
      have hall : ∀ n ∈ a :: as, n < 10 ^ maxStrDigits := fun n hn =>
        Nat.lt_of_le_of_lt (List.single_le_sum (fun _ _ => Nat.zero_le _) n hn) hsum
      rw [if_pos hall, if_pos hle, if_pos hsum]
  · intro e
    rw [tooDeep_iff]
  · intro e hflat
    apply safeEval_plain
    intro h
    have hdeep := comesTo_height h
    omega

def integers : Library Empty where
  parse _ := none
  apply _ _ _ := .error "float"
  neg x := x.elim
  str x := x.elim

theorem ones_rejected :
    calculator integers (sumText (List.replicate 27 1)) ≠ .ok (toString (List.replicate 27 1).sum) ∧
      ∃ e, astParse integers (sumText (List.replicate 27 1)) = some e ∧ nesting e = 0 ∧
        safeEval integers (node e) 0 = .error (.tooDeep tooDeepText) := by
  have hones : ∀ n ∈ 1 :: List.replicate 26 1, n < 10 ^ maxStrDigits := by
    intro n hn
    rw [List.eq_of_mem_replicate (show n ∈ List.replicate 27 1 from hn)]
    exact Nat.one_lt_pow (by decide) (by decide)
  have hlong : ¬ (List.replicate 26 1).length ≤ maxDepth := by decide
  rw [List.replicate_succ, calculator_sumText, astParse_sumText, if_pos hones, if_pos hones,
    if_neg hlong]
  constructor
  · intro h
    cases h
  · refine ⟨flatSum 1 (List.replicate 26 1), rfl, nesting_flatSum 1 _, ?_⟩
    rw [safeEval_flatSum, Nat.zero_add, if_neg hlong]

end Workbench.Calculator
