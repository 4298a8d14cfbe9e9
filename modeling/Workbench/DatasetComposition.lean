import Workbench.EvalDatasets
import Mathlib.Data.Finset.Card

namespace Workbench.Evals

open AgentRuntime PyJson Tallies KeyedTable

variable {M J : Type}

section Sampling

variable {α : Type}

theorem everyNth_sublist (stride skip : ℕ) (xs : List α) :
    (everyNth stride skip xs).Sublist xs := by
  induction xs generalizing skip with
  | nil => exact .refl _
  | cons x xs ih =>
    cases skip with
    | zero => exact (ih _).cons_cons x
    | succ skip => exact (ih skip).cons x

theorem everyNth_length {stride skip : ℕ} (hstride : 0 < stride) (hskip : skip < stride)
    (xs : List α) :
    (everyNth stride skip xs).length = (xs.length + (stride - 1 - skip)) / stride := by
  induction xs generalizing skip with
  | nil =>
    symm
    apply Nat.div_eq_of_lt
    simp only [List.length_nil]
    omega
  | cons x xs ih =>
    cases skip with
    | zero =>
      rw [everyNth, List.length_cons, ih (Nat.sub_lt hstride Nat.one_pos), Nat.sub_self,
        List.length_cons]
      have hnext : xs.length + 1 + (stride - 1 - 0) = xs.length + stride := by omega
      rw [hnext, Nat.add_div_right _ hstride]
      rfl
    | succ skip =>
      rw [everyNth, ih (by omega), List.length_cons]
      congr 1
      omega

theorem sampled_sublist (corpus : List (Chunk M)) (n : ℕ) :
    (sampled corpus n).Sublist corpus :=
  (List.take_sublist _ _).trans (everyNth_sublist _ _ _)

theorem sampled_length (corpus : List (Chunk M)) (n : ℕ) :
    (sampled corpus n).length = min n corpus.length := by
  unfold sampled
  have hstride : 0 < max (corpus.length / max n 1) 1 := by omega
  rw [List.length_take, everyNth_length hstride hstride]
  cases n with
  | zero => simp
  | succ n =>
    have hmax : max (n + 1) 1 = n + 1 := by omega
    rw [hmax] at hstride ⊢
    by_cases hshort : corpus.length < n + 1
    · rw [Nat.div_eq_of_lt hshort]
      simp
    · have hlong : n + 1 ≤ corpus.length := by omega
      have hpos : 1 ≤ corpus.length / (n + 1) := (Nat.one_le_div_iff n.succ_pos).mpr hlong
      have hmul : corpus.length / (n + 1) * (n + 1) ≤ corpus.length := Nat.div_mul_le_self _ _
      rw [max_eq_left hpos] at hstride ⊢
      have henough : n + 1 ≤ (corpus.length + (corpus.length / (n + 1) - 1 - 0)) /
          (corpus.length / (n + 1)) := by
        apply (Nat.le_div_iff_mul_le hstride).mpr
        rw [Nat.mul_comm]
        omega
      omega

end Sampling

section Pairs

def Adjacent (corpus : List (Chunk M)) (x : Chunk M × Chunk M) : Prop :=
  [x.1, x.2] <:+: corpus ∧ x.1.source ≠ x.2.source

theorem Adjacent.cons {a : Chunk M} {corpus : List (Chunk M)} {x : Chunk M × Chunk M}
    (h : Adjacent corpus x) : Adjacent (a :: corpus) x :=
  ⟨h.1.trans (List.suffix_cons a corpus).isInfix, h.2⟩

theorem mem_pairsFrom {n : ℕ} {pairs : List (Chunk M × Chunk M)} {corpus : List (Chunk M)}
    {x : Chunk M × Chunk M} (h : x ∈ pairsFrom n pairs corpus) : x ∈ pairs ∨ Adjacent corpus x := by
  induction corpus generalizing pairs with
  | nil => exact .inl h
  | cons a corpus ih =>
    cases corpus with
    | nil => exact .inl h
    | cons b rest =>
      have hhead : ∀ {y}, y ∈ (if a.source ≠ b.source then pairs ++ [(a, b)] else pairs) →
          y ∈ pairs ∨ Adjacent (a :: b :: rest) y := by
        intro y hy
        split_ifs at hy with hsource
        · rcases List.mem_append.mp hy with hy | hy
          · exact .inl hy
          · rw [List.mem_singleton.mp hy]
            exact .inr ⟨(List.prefix_append [a, b] rest).isInfix, hsource⟩
        · exact .inl hy
      simp only [pairsFrom] at h
      by_cases hfull : n ≤ (if a.source ≠ b.source then pairs ++ [(a, b)] else pairs).length
      · rw [if_pos hfull] at h
        exact hhead h
      · rw [if_neg hfull] at h
        rcases ih h with hx | hx
        · exact hhead hx
        · exact .inr hx.cons

theorem length_pairsFrom {n : ℕ} {pairs : List (Chunk M × Chunk M)} {corpus : List (Chunk M)}
    (h : pairs.length < n) : (pairsFrom n pairs corpus).length ≤ n := by
  induction corpus generalizing pairs with
  | nil => exact Nat.le_of_lt h
  | cons a corpus ih =>
    cases corpus with
    | nil => exact Nat.le_of_lt h
    | cons b rest =>
      have hnext : (if a.source ≠ b.source then pairs ++ [(a, b)] else pairs).length ≤ n := by
        split_ifs
        · rw [List.length_append, List.length_singleton]
          omega
        · omega
      simp only [pairsFrom]
      by_cases hfull : n ≤ (if a.source ≠ b.source then pairs ++ [(a, b)] else pairs).length
      · rw [if_pos hfull]
        exact hnext
      · rw [if_neg hfull]
        exact ih (by omega)

theorem distinctSourcePairs_zero (corpus : List (Chunk M)) :
    distinctSourcePairs corpus 0 = [] ∨
      ∃ a b rest, corpus = a :: b :: rest ∧ a.source ≠ b.source ∧
        distinctSourcePairs corpus 0 = [(a, b)] := by
  unfold distinctSourcePairs
  match corpus with
  | [] => exact .inl rfl
  | [a] => exact .inl rfl
  | a :: b :: rest =>
    by_cases hsource : a.source = b.source
    · left
      simp [pairsFrom, hsource]
    · right
      refine ⟨a, b, rest, rfl, hsource, ?_⟩
      simp [pairsFrom, hsource]

theorem distinctSourcePairs_first {a b : Chunk M} (rest : List (Chunk M))
    (h : a.source ≠ b.source) : distinctSourcePairs (a :: b :: rest) 0 = [(a, b)] := by
  simp [distinctSourcePairs, pairsFrom, h]

end Pairs

section Turns

variable {lib : ReplyLibrary} {step : ℕ → StepRequest → Except Exc (StepOutput J)} {call : ℕ}
  {request : StepRequest} {id : String} {sources : List String} {caseType : CaseType}
  {expected : Json → Except PyError (Option String)}

theorem turn_case {c : EvalCase} {model : String}
    (h : turn lib step call request id sources caseType expected = .ok (some c, model)) :
    c.id = id ∧ c.relevantSources = sources ∧ c.caseType = caseType ∧
      ∃ out data, step call request = .ok out ∧ asked lib out.text = .ok (some (c.question, data)) := by
  obtain ⟨out, hout, h⟩ := bind_eq_ok.mp h
  obtain ⟨data, hdata, h⟩ := bind_eq_ok.mp (mapError_eq_ok.mp h)
  cases data with
  | none => cases h
  | some data =>
    obtain ⟨answer, -, h⟩ := map_eq_ok.mp h
    cases h
    exact ⟨rfl, rfl, rfl, out, data.2, hout, hdata⟩

theorem turn_wellFormed {r : Option EvalCase × String}
    (hreplies : ∀ out, step call request = .ok out → ∃ asks, asked lib out.text = .ok (some asks))
    (h : turn lib step call request id sources caseType expected = .ok r) : r.1.isSome := by
  obtain ⟨out, hout, h⟩ := bind_eq_ok.mp h
  obtain ⟨asks, hasks⟩ := hreplies out hout
  rw [hasks] at h
  obtain ⟨answer, -, h⟩ := map_eq_ok.mp (mapError_eq_ok.mp h)
  cases h
  rfl

end Turns

section Loops

variable {A : Type}

theorem forall₂_appended {P : A → Option EvalCase × String → Prop} {Q : A → EvalCase → Prop}
    (hPQ : ∀ x c model, P x (some c, model) → Q x c) {xs : List A}
    {turns : List (Option EvalCase × String)} (h : List.Forall₂ P xs turns) :
    ∃ ys, ys.Sublist xs ∧ List.Forall₂ Q ys (turns.filterMap Prod.fst) := by
  induction h with
  | nil => exact ⟨[], .refl _, .nil⟩
  | @cons x r xs turns hr _ ih =>
    obtain ⟨ys, hys, hcases⟩ := ih
    obtain ⟨appended, model⟩ := r
    cases appended with
    | none => exact ⟨ys, hys.cons x, hcases⟩
    | some c => exact ⟨x :: ys, hys.cons_cons x, .cons (hPQ x c model hr) hcases⟩

theorem length_appended {turns : List (Option EvalCase × String)} (h : ∀ r ∈ turns, r.1.isSome) :
    (turns.filterMap Prod.fst).length = turns.length := by
  induction turns with
  | nil => rfl
  | cons r turns ih =>
    rw [List.forall_mem_cons] at h
    obtain ⟨c, hc⟩ := Option.isSome_iff_exists.mp h.1
    rw [List.filterMap_cons_some hc, List.length_cons, List.length_cons, ih h.2]

theorem nodup_numbered {named : String} {index : A → ℕ} {ys xs : List A} {cases : List EvalCase}
    (hsub : ys.Sublist xs) (hindex : (xs.map index).Nodup)
    (h : List.Forall₂ (fun x c => c.id = named ++ toString (index x)) ys cases) :
    (cases.map fun c => c.id).Nodup := by
  have hids : (cases.map fun c => c.id) =
      ((ys.map index).map fun i => named ++ toString i) := by
    induction h with
    | nil => rfl
    | cons hid _ ih => simp [hid, ih ((List.sublist_cons_self _ _).trans hsub)]
  rw [hids]
  apply List.Nodup.map _ (hindex.sublist (hsub.map index))
  intro i j hij
  apply Rag.toString_injective
  have htexts := congrArg String.toList hij
  simpa [String.toList_append] using htexts

end Loops

section Cases

def countOf (t : CaseType) (cases : List EvalCase) : ℕ := cases.countP fun c => c.caseType = t

structure Numbered (named : String) (t : CaseType) (cases : List EvalCase) : Prop where
  ids : (cases.map fun c => c.id).Nodup
  named : ∀ c ∈ cases, ∃ x, c.id = named ++ x
  typed : ∀ c ∈ cases, c.caseType = t

theorem Numbered.count {named : String} {t : CaseType} {cases : List EvalCase}
    (h : Numbered named t cases) (u : CaseType) :
    countOf u cases = if t = u then cases.length else 0 := by
  unfold countOf
  split_ifs with htu
  · apply List.countP_eq_length.mpr
    intro c hc
    rw [decide_eq_true_eq, h.typed c hc, htu]
  · apply List.countP_eq_zero.mpr
    intro c hc
    rw [decide_eq_true_eq, h.typed c hc]
    exact htu

theorem append_ne {p q x y : String} {c d : Char} {cs ds : List Char} (hp : p.toList = c :: cs)
    (hq : q.toList = d :: ds) (hcd : c ≠ d) : p ++ x ≠ q ++ y := by
  intro h
  have htexts := congrArg String.toList h
  rw [String.toList_append, String.toList_append, hp, hq] at htexts
  exact hcd (List.cons.inj htexts).1

theorem nodup_ids {std multi neg : List EvalCase} (hstd : Numbered "std-" .standard std)
    (hmulti : Numbered "multi-" .multihop multi) (hneg : Numbered "neg-" .negative neg) :
    ((std ++ multi ++ neg).map fun c => c.id).Nodup := by
  have hapart : ∀ {p q : String} {t u : CaseType} {xs ys : List EvalCase}, Numbered p t xs →
      Numbered q u ys → (∀ x y : String, p ++ x ≠ q ++ y) →
        List.Disjoint (xs.map fun c => c.id) (ys.map fun c => c.id) := by
    intro p q t u xs ys hxs hys hne id hx hy
    obtain ⟨c, hc, rfl⟩ := List.mem_map.mp hx
    obtain ⟨d, hd, hid⟩ := List.mem_map.mp hy
    obtain ⟨x, hcx⟩ := hxs.named c hc
    obtain ⟨y, hdy⟩ := hys.named d hd
    exact hne x y (hcx.symm.trans (hid.symm.trans hdy))
  rw [List.map_append, List.map_append]
  apply (hstd.ids.append hmulti.ids _).append hneg.ids
  · apply List.disjoint_append_left.mpr
    constructor
    · exact hapart hstd hneg fun x y => append_ne rfl rfl (by decide)
    · exact hapart hmulti hneg fun x y => append_ne rfl rfl (by decide)
  · exact hapart hstd hmulti fun x y => append_ne rfl rfl (by decide)

theorem added_types (t : CaseType) (cases : List EvalCase) :
    added (cases.map fun c => (c.caseType, 1)) t = countOf t cases := by
  induction cases with
  | nil => rfl
  | cons c cases ih =>
    rw [List.map_cons, added_cons, ih, countOf, countOf, List.countP_cons, Nat.add_comm]
    simp only [decide_eq_true_eq]

theorem get_byType (name : String) (cases : List EvalCase) (model : String) (t : CaseType) :
    ((cardOf name cases model).byType.get t).map Prod.snd =
      if countOf t cases = 0 then none else some (countOf t cases) := by
  have hamount : amount (cardOf name cases model).byType t = countOf t cases := by
    unfold cardOf
    rw [amount_foldl, added_types]
    exact Nat.zero_add _
  have hkeys : ((cardOf name cases model).byType.get t).isSome ↔ countOf t cases ≠ 0 := by
    rw [← Table.mem_keys]
    unfold cardOf
    rw [mem_foldl_keys, countOf, ne_eq, List.countP_eq_zero]
    simp [Table.empty]
  unfold amount at hamount
  cases hget : (cardOf name cases model).byType.get t with
  | none =>
    rw [hget] at hkeys
    have hzero : countOf t cases = 0 := by simpa using hkeys
    rw [if_pos hzero]
    rfl
  | some e =>
    rw [hget] at hamount hkeys
    rw [if_neg (hkeys.mp rfl)]
    exact congrArg some hamount

end Cases

section Generation

variable (lib : ReplyLibrary) (step : ℕ → StepRequest → Except Exc (StepOutput J))

def WellFormed : Prop := ∀ call request out, step call request = .ok out →
  ∃ asks, asked lib out.text = .ok (some asks)

def FromChunk (c : EvalCase) (chunk : Chunk M) : Prop :=
  c.relevantSources = [chunk.source] ∧ ∃ call out data,
    step call ⟨chunk.text, .standard, standardSystem, 512⟩ = .ok out ∧
      asked lib out.text = .ok (some (c.question, data))

structure Composed (corpus : List (Chunk M)) (nStandard nNegative nMultihop : ℕ)
    (ds : SyntheticDataset) : Prop where
  standard : countOf .standard ds.cases ≤ nStandard
  negative : countOf .negative ds.cases ≤ nNegative
  multihop : countOf .multihop ds.cases ≤ nMultihop
  ids : (ds.cases.map fun c => c.id).Nodup
  pairs : ∀ c ∈ ds.cases, c.caseType = .multihop → ∃ a b, [a, b] <:+: corpus ∧
    a.source ≠ b.source ∧ c.relevantSources = [a.source, b.source]
  chunks : ∃ chunks, chunks.Sublist corpus ∧ List.Forall₂ (FromChunk lib step)
    (ds.cases.filter fun c => c.caseType = .standard) chunks
  total : ds.card.total = ds.cases.length
  byType : ∀ t, (ds.card.byType.get t).map Prod.snd =
    if countOf t ds.cases = 0 then none else some (countOf t ds.cases)
  sourceCoverage : ds.card.sourceCoverage = (ds.cases.flatMap fun c => c.relevantSources).toFinset.card
  full : WellFormed lib step → countOf .standard ds.cases = min nStandard corpus.length ∧
    countOf .negative ds.cases = nNegative

structure LoopCases {A : Type} (named : String) (t : CaseType) (xs : List A) (Q : A → EvalCase → Prop)
    (cases : List EvalCase) : Prop extends Numbered named t cases where
  origin : ∃ ys, ys.Sublist xs ∧ List.Forall₂ Q ys cases
  complete : WellFormed lib step → cases.length = xs.length

variable {lib step} {collection name : String} {corpus : List (Chunk M)}
  {nStandard nNegative nMultihop : ℕ} {ds : SyntheticDataset}

theorem generate_ok :
    generateEvalDataset lib step collection corpus name nStandard nNegative nMultihop = .ok ds ↔
      corpus ≠ [] ∧ ∃ standard multihop negative,
        List.Forall₂ (fun x r => standardTurn lib step x = .ok r)
          (sampled corpus nStandard).zipIdx standard ∧
        List.Forall₂ (fun x r => multihopTurn lib step (sampled corpus nStandard).length x = .ok r)
          (distinctSourcePairs corpus nMultihop).zipIdx multihop ∧
        List.Forall₂ (fun i r => negativeTurn lib step ((sampled corpus nStandard).length +
          (distinctSourcePairs corpus nMultihop).length) (topics corpus) i = .ok r)
          (List.range nNegative) negative ∧
        finished name (standard ++ multihop ++ negative) = .ok ds := by
  unfold generateEvalDataset
  simp only [← mapM_eq_ok]
  cases corpus with
  | nil => simp
  | cons a rest => simp [bind_eq_ok]

theorem finished_ok {turns : List (Option EvalCase × String)} (h : finished name turns = .ok ds) :
    ds.cases = turns.filterMap Prod.fst ∧ ∃ model, ds.card = cardOf name ds.cases model := by
  simp only [finished] at h
  split_ifs at h
  cases h
  exact ⟨rfl, _, rfl⟩

theorem nodup_zipIdx {A : Type} (xs : List A) : (xs.zipIdx.map Prod.snd).Nodup := by
  rw [List.zipIdx_map_snd]
  exact List.nodup_range'

theorem LoopCases.length_le {A : Type} {named : String} {t : CaseType} {xs : List A}
    {Q : A → EvalCase → Prop} {cases : List EvalCase}
    (h : LoopCases lib step named t xs Q cases) : cases.length ≤ xs.length := by
  obtain ⟨ys, hys, hcases⟩ := h.origin
  rw [← hcases.length_eq]
  exact hys.length_le

theorem loopCases {A : Type} {named : String} {t : CaseType} (index : A → ℕ) {xs : List A}
    {Q : A → EvalCase → Prop} {turnOf : A → Except Exc (Option EvalCase × String)}
    {turns : List (Option EvalCase × String)}
    (hcase : ∀ x c model, turnOf x = .ok (some c, model) →
      c.id = named ++ toString (index x) ∧ c.caseType = t ∧ Q x c)
    (hcomplete : WellFormed lib step → ∀ x r, turnOf x = .ok r → r.1.isSome)
    (hindex : (xs.map index).Nodup) (h : List.Forall₂ (fun x r => turnOf x = .ok r) xs turns) :
    LoopCases lib step named t xs Q (turns.filterMap Prod.fst) := by
  obtain ⟨ys, hys, hcases⟩ := forall₂_appended hcase h
  constructor
  · constructor
    · exact nodup_numbered hys hindex (hcases.imp fun x c hx => hx.1)
    · intro c hc
      obtain ⟨x, -, hid, -⟩ := forall₂_right hcases c hc
      exact ⟨_, hid⟩
    · intro c hc
      obtain ⟨x, -, -, htype, -⟩ := forall₂_right hcases c hc
      exact htype
  · exact ⟨ys, hys, hcases.imp fun x c hx => hx.2.2⟩
  · intro hreplies
    rw [h.length_eq]
    apply length_appended
    intro r hr
    obtain ⟨x, -, hx⟩ := forall₂_right h r hr
    exact hcomplete hreplies x r hx

theorem generate_cases
    (h : generateEvalDataset lib step collection corpus name nStandard nNegative nMultihop = .ok ds) :
    ∃ std multi neg, ds.cases = std ++ multi ++ neg ∧
      LoopCases lib step "std-" .standard (sampled corpus nStandard).zipIdx
        (fun x c => FromChunk lib step c x.1) std ∧
      LoopCases lib step "multi-" .multihop (distinctSourcePairs corpus nMultihop).zipIdx
        (fun x c => c.relevantSources = [x.1.1.source, x.1.2.source]) multi ∧
      LoopCases lib step "neg-" .negative (List.range nNegative) (fun _ _ => True) neg := by
  obtain ⟨-, std, multi, neg, hstd, hmulti, hneg, hfinished⟩ := generate_ok.mp h
  refine ⟨std.filterMap Prod.fst, multi.filterMap Prod.fst, neg.filterMap Prod.fst,
    (finished_ok hfinished).1.trans ?_, ?_, ?_, ?_⟩
  · rw [List.filterMap_append, List.filterMap_append]
  · apply loopCases Prod.snd _ _ (nodup_zipIdx _) hstd
    · intro x c model hx
      obtain ⟨hid, hsources, htype, out, data, hout, hasked⟩ := turn_case hx
      exact ⟨hid, htype, hsources, _, out, data, hout, hasked⟩
    · exact fun hreplies x r hx => turn_wellFormed (hreplies _ _) hx
  · apply loopCases Prod.snd _ _ (nodup_zipIdx _) hmulti
    · intro x c model hx
      obtain ⟨hid, hsources, htype, -⟩ := turn_case hx
      exact ⟨hid, htype, hsources⟩
    · exact fun hreplies x r hx => turn_wellFormed (hreplies _ _) hx
  · apply loopCases id _ _ (by simpa using List.nodup_range) hneg
    · intro i c model hi
      obtain ⟨hid, -, htype, -⟩ := turn_case hi
      exact ⟨hid, htype, trivial⟩
    · exact fun hreplies i r hi => turn_wellFormed (hreplies _ _) hi

theorem mem_of_zipIdx {A : Type} {xs : List A} {x : A × ℕ} (h : x ∈ xs.zipIdx) : x.1 ∈ xs := by
  have hmem := List.mem_map_of_mem (f := Prod.fst) h
  rwa [List.zipIdx_map_fst] at hmem

theorem composed_of
    (h : generateEvalDataset lib step collection corpus name nStandard nNegative nMultihop = .ok ds)
    (hmultihop : countOf .multihop ds.cases ≤ nMultihop) :
    Composed lib step corpus nStandard nNegative nMultihop ds := by
  obtain ⟨std, multi, neg, hcases, hstd, hmulti, hneg⟩ := generate_cases h
  obtain ⟨-, _, _, _, -, -, -, hfinished⟩ := generate_ok.mp h
  obtain ⟨-, model, hcard⟩ := finished_ok hfinished
  have hcount : ∀ t, countOf t ds.cases = countOf t std + countOf t multi + countOf t neg := by
    intro t
    rw [hcases, countOf, List.countP_append, List.countP_append]
    rfl
  have hstandard : countOf .standard ds.cases = std.length := by
    rw [hcount, hstd.count, hmulti.count, hneg.count]
    rfl
  have hnegative : countOf .negative ds.cases = neg.length := by
    rw [hcount, hstd.count, hmulti.count, hneg.count]
    simp
  have hstdLength := hstd.length_le
  have hnegLength := hneg.length_le
  rw [List.length_zipIdx, sampled_length] at hstdLength
  rw [List.length_range] at hnegLength
  constructor
  · omega
  · omega
  · exact hmultihop
  · rw [hcases]
    exact nodup_ids hstd.toNumbered hmulti.toNumbered hneg.toNumbered
  · intro c hc htype
    rw [hcases] at hc
    rcases List.mem_append.mp hc with hc | hc
    · rcases List.mem_append.mp hc with hc | hc
      · rw [hstd.typed c hc] at htype
        cases htype
      · obtain ⟨ys, hys, hsources⟩ := hmulti.origin
        obtain ⟨x, hx, hcx⟩ := forall₂_right hsources c hc
        rcases mem_pairsFrom (mem_of_zipIdx (hys.mem hx)) with hnil | hadjacent
        · cases hnil
        · exact ⟨x.1.1, x.1.2, hadjacent.1, hadjacent.2, hcx⟩
    · rw [hneg.typed c hc] at htype
      cases htype
  · obtain ⟨ys, hys, hfrom⟩ := hstd.origin
    refine ⟨ys.map Prod.fst, ?_, ?_⟩
    · have hsub := hys.map Prod.fst
      rw [List.zipIdx_map_fst] at hsub
      exact hsub.trans (sampled_sublist corpus nStandard)
    · have hfilter : (ds.cases.filter fun c => c.caseType = .standard) = std := by
        have hkept : (std.filter fun c => c.caseType = .standard) = std :=
          List.filter_eq_self.mpr fun c hc => by simp [hstd.typed c hc]
        have hmultiNone : (multi.filter fun c => c.caseType = .standard) = [] :=
          List.filter_eq_nil_iff.mpr fun c hc => by simp [hmulti.typed c hc]
        have hnegNone : (neg.filter fun c => c.caseType = .standard) = [] :=
          List.filter_eq_nil_iff.mpr fun c hc => by simp [hneg.typed c hc]
        rw [hcases, List.filter_append, List.filter_append, hkept, hmultiNone, hnegNone,
          List.append_nil, List.append_nil]
      rw [hfilter]
      exact List.forall₂_map_right_iff.mpr hfrom.flip
  · rw [hcard]
    rfl
  · intro t
    rw [hcard]
    exact get_byType name ds.cases model t
  · rw [hcard, List.card_toFinset]
    rfl
  · intro hreplies
    have hstdFull := hstd.complete hreplies
    have hnegFull := hneg.complete hreplies
    rw [List.length_zipIdx, sampled_length] at hstdFull
    rw [List.length_range] at hnegFull
    exact ⟨hstandard.trans hstdFull, hnegative.trans hnegFull⟩

theorem count_multihop_le
    (h : generateEvalDataset lib step collection corpus name nStandard nNegative nMultihop = .ok ds) :
    countOf .multihop ds.cases ≤ (distinctSourcePairs corpus nMultihop).length := by
  obtain ⟨std, multi, neg, hcases, hstd, hmulti, hneg⟩ := generate_cases h
  have hlength := hmulti.length_le
  rw [List.length_zipIdx] at hlength
  rw [hcases, countOf, List.countP_append, List.countP_append]
  change countOf .multihop std + countOf .multihop multi + countOf .multihop neg ≤ _
  rw [hstd.count, hmulti.count, hneg.count]
  simpa using hlength

variable (lib step corpus nStandard nNegative) in
/-- The first two chunks have different sources, the reply to the pair gives a case, and no turn of
the loops raises. -/
def UnaskedPair : Prop :=
  ∃ a b rest c model, corpus = a :: b :: rest ∧ a.source ≠ b.source ∧
    multihopTurn lib step (sampled corpus nStandard).length ((a, b), 0) = .ok (some c, model) ∧
    (∀ x ∈ (sampled corpus nStandard).zipIdx, ∃ r, standardTurn lib step x = .ok r) ∧
    ∀ i ∈ List.range nNegative, ∃ r,
      negativeTurn lib step ((sampled corpus nStandard).length + 1) (topics corpus) i = .ok r

theorem forall₂_of_ok {A B ε : Type} {f : A → Except ε B} {xs : List A}
    (h : ∀ x ∈ xs, ∃ r, f x = .ok r) : ∃ rs, List.Forall₂ (fun x r => f x = .ok r) xs rs := by
  induction xs with
  | nil => exact ⟨[], .nil⟩
  | cons x xs ih =>
    rw [List.forall_mem_cons] at h
    obtain ⟨r, hr⟩ := h.1
    obtain ⟨rs, hrs⟩ := ih h.2
    exact ⟨r :: rs, .cons hr hrs⟩

theorem ok_of_forall₂ {A B ε : Type} {f : A → Except ε B} {xs : List A} {rs : List B}
    (h : List.Forall₂ (fun x r => f x = .ok r) xs rs) : ∀ x ∈ xs, ∃ r, f x = .ok r := by
  intro x hx
  obtain ⟨r, -, hr⟩ := forall₂_right h.flip x hx
  exact ⟨r, hr⟩

theorem UnaskedPair.extra (h : UnaskedPair lib step corpus nStandard nNegative) :
    ∃ ds, generateEvalDataset lib step collection corpus name nStandard nNegative 0 = .ok ds ∧
      countOf .multihop ds.cases ≠ 0 := by
  obtain ⟨a, b, rest, c, model, rfl, hsource, hpair, hstd, hneg⟩ := h
  obtain ⟨std, hstd⟩ := forall₂_of_ok hstd
  obtain ⟨neg, hneg⟩ := forall₂_of_ok hneg
  have hpairs := distinctSourcePairs_first rest hsource
  have hmem : c ∈ (std ++ [(some c, model)] ++ neg).filterMap Prod.fst :=
    List.mem_filterMap.mpr ⟨(some c, model), by simp, rfl⟩
  have hfinished : ∃ ds, finished name (std ++ [(some c, model)] ++ neg) = .ok ds := by
    simp only [finished]
    rw [if_neg (List.ne_nil_of_mem hmem)]
    exact ⟨_, rfl⟩
  obtain ⟨ds, hds⟩ := hfinished
  refine ⟨ds, generate_ok.mpr ⟨List.cons_ne_nil _ _, std, [(some c, model)], neg, hstd, ?_, ?_, hds⟩, ?_⟩
  · rw [hpairs]
    exact .cons hpair .nil
  · rw [hpairs]
    exact hneg
  · obtain ⟨-, -, htype, -⟩ := turn_case hpair
    rw [(finished_ok hds).1]
    apply Nat.pos_iff_ne_zero.mp
    exact List.countP_pos_iff.mpr ⟨c, hmem, by simpa using htype⟩

theorem unaskedPair_of_count
    (h : generateEvalDataset lib step collection corpus name nStandard nNegative 0 = .ok ds)
    (hcount : countOf .multihop ds.cases ≠ 0) :
    UnaskedPair lib step corpus nStandard nNegative := by
  obtain ⟨-, std, multi, neg, hstd, hmulti, hneg, hfinished⟩ := generate_ok.mp h
  rcases distinctSourcePairs_zero corpus with hnil | ⟨a, b, rest, hcorpus, hsource, hpairs⟩
  · have hle := count_multihop_le h
    rw [hnil, List.length_nil] at hle
    exact absurd (Nat.le_zero.mp hle) hcount
  · have hoks := ok_of_forall₂ hneg
    rw [hpairs] at hmulti hoks
    obtain ⟨c, hc, htype⟩ := List.countP_pos_iff.mp (Nat.pos_of_ne_zero hcount)
    rw [(finished_ok hfinished).1] at hc
    obtain ⟨⟨appended, model⟩, hr, rfl⟩ := List.mem_filterMap.mp hc
    have htyped : c.caseType = .multihop := by simpa using htype
    rcases List.mem_append.mp hr with hr | hr
    · rcases List.mem_append.mp hr with hr | hr
      · obtain ⟨x, -, hx⟩ := forall₂_right hstd _ hr
        rw [(turn_case hx).2.2.1] at htyped
        cases htyped
      · obtain ⟨x, hx, hturn⟩ := forall₂_right hmulti _ hr
        rw [List.mem_singleton.mp hx] at hturn
        exact ⟨a, b, rest, c, model, hcorpus, hsource, hturn, ok_of_forall₂ hstd, hoks⟩
    · obtain ⟨i, -, hi⟩ := forall₂_right hneg _ hr
      rw [(turn_case hi).2.2.1] at htyped
      cases htyped

theorem composed_iff (lib : ReplyLibrary) (step : ℕ → StepRequest → Except Exc (StepOutput J))
    (collection name : String) (corpus : List (Chunk M)) (nStandard nNegative nMultihop : ℕ) :
    (∀ ds, generateEvalDataset lib step collection corpus name nStandard nNegative nMultihop = .ok ds →
      Composed lib step corpus nStandard nNegative nMultihop ds) ↔
    (nMultihop = 0 → ¬UnaskedPair lib step corpus nStandard nNegative) := by
  constructor
  · rintro h rfl hunasked
    obtain ⟨ds, hds, hcount⟩ := hunasked.extra
    exact hcount (Nat.le_zero.mp (h ds hds).multihop)
  · intro h ds hds
    apply composed_of hds
    by_cases hzero : nMultihop = 0
    · subst hzero
      by_contra hcount
      exact h rfl (unaskedPair_of_count hds (by omega))
    · have hpairs : (distinctSourcePairs corpus nMultihop).length ≤ nMultihop :=
        length_pairsFrom (Nat.pos_of_ne_zero hzero)
      exact (count_multihop_le hds).trans hpairs

end Generation

section Sample

def questionReply : String := "\x7b\"question\": \"Which of them?\"\x7d"

def questionLibrary : ReplyLibrary where
  loads text :=
    if text = questionReply then .ok (.dict [("question", .str "Which of them?")])
    else .error .decode
  str
    | .str text => .ok text
    | _ => .error .valueError

def questionStep (_call : ℕ) (_request : StepRequest) : Except Exc (StepOutput Unit) :=
  .ok ⟨questionReply, [], "fake", "fake-model", .zero, none, 0, []⟩

def twoSources : List (Chunk Unit) :=
  [⟨"a:0", "a", "kb/a.md", 0, "Alpha", ()⟩, ⟨"b:0", "b", "kb/b.md", 0, "Beta", ()⟩]

/-- One multi-hop case, though none is asked for. -/
theorem unasked_multihop_made : ¬∀ nStandard nNegative nMultihop ds,
    generateEvalDataset questionLibrary questionStep "rag" twoSources "set" nStandard nNegative
      nMultihop = .ok ds →
    Composed questionLibrary questionStep twoSources nStandard nNegative nMultihop ds := by
  intro h
  have hslice : objectSlice questionReply = some questionReply := by decide +kernel
  have hasked : asked questionLibrary questionReply = .ok (some ("Which of them?", .dict
      [("question", .str "Which of them?")])) := by
    simp [asked, loadObject, hslice, questionLibrary, Except.bind, Except.map, Json.get, Json.truthy,
      field]
  have hturn : multihopTurn questionLibrary questionStep 0 ((⟨"a:0", "a", "kb/a.md", 0, "Alpha", ()⟩,
      ⟨"b:0", "b", "kb/b.md", 0, "Beta", ()⟩), 0) = .ok (some ⟨"multi-0", "Which of them?", none,
        ["kb/a.md", "kb/b.md"], .multihop⟩, "fake-model") := by
    simp only [multihopTurn, turn, questionStep, Except.bind, hasked]
    rfl
  have hunasked : UnaskedPair questionLibrary questionStep twoSources 0 0 := by
    refine ⟨_, _, [], _, _, rfl, by decide, hturn, ?_, ?_⟩
    · intro x hx
      cases hx
    · intro i hi
      cases hi
  obtain ⟨ds, hds, hcount⟩ := hunasked.extra
  exact hcount (Nat.le_zero.mp (h 0 0 0 ds hds).multihop)

end Sample

end Workbench.Evals
