import Workbench.Chunking
import Workbench.Tallies
import Mathlib.Algebra.BigOperators.Ring.List
import Mathlib.Algebra.Order.BigOperators.Group.List
import Mathlib.Algebra.Order.Field.Basic
import Mathlib.Algebra.Order.Ring.Rat
import Mathlib.Data.List.Sort
import Mathlib.Tactic.Positivity

namespace Workbench.Rag

open KeyedTable Tallies

structure ScoredChunk (M : Type) where
  chunk : Chunk M
  score : ℚ
  retrieval : String
  deriving DecidableEq

variable {M : Type}

def rrfK : ℕ := 60

/-- What the place `rank`, counted from 0, is worth. -/
def share (rank : ℕ) : ℚ := 1 / (rrfK + rank + 1 : ℕ)

structure Fused (M : Type) where
  scores : Tally String ℚ
  byId : Table (Prod.fst : String × Chunk M → String)

def Fused.enter (f : Fused M) (e : Chunk M × ℕ) : Fused M :=
  ⟨add f.scores (e.1.id, share e.2), f.byId.put (e.1.id, e.1)⟩

def fuseAll (rankings : List (List (Chunk M))) : Fused M :=
  rankings.foldl (fun f ranking => ranking.zipIdx.foldl Fused.enter f)
    ⟨Table.empty _, Table.empty _⟩

def sortByScore (items : List (String × ℚ)) : List (String × ℚ) :=
  items.insertionSort fun a b => b.2 ≤ a.2

/-- `none` is a `KeyError`. -/
def rrfFuse (rankings : List (List (Chunk M))) (topK : ℕ) : Option (List (ScoredChunk M)) :=
  let fused := fuseAll rankings
  ((sortByScore fused.scores.rows).take topK).mapM fun kv =>
    (fused.byId.get kv.1).map fun row => ⟨row.2, kv.2, "hybrid"⟩

def rank (ranking : List (Chunk M)) (id : String) : Option ℕ := (ranking.map Chunk.id).idxOf? id

def rrfScore (rankings : List (List (Chunk M))) (id : String) : ℚ :=
  (rankings.map fun ranking => (rank ranking id).elim 0 share).sum

structure Dominates (rankings : List (List (Chunk M))) (a b : String) : Prop where
  above : ∀ ranking ∈ rankings, ∀ j, rank ranking b = some j → ∃ i < j, rank ranking a = some i
  ranked : ∃ ranking ∈ rankings, (rank ranking b).isSome

def entries (rankings : List (List (Chunk M))) : List (String × ℚ) :=
  (rankings.map fun ranking => ranking.zipIdx.map fun e => (e.1.id, share e.2)).flatten

theorem foldl_enter (es : List (Chunk M × ℕ)) (f : Fused M) :
    es.foldl Fused.enter f = ⟨(es.map fun e => (e.1.id, share e.2)).foldl add f.scores,
      f.byId.putAll (es.map fun e => (e.1.id, e.1))⟩ := by
  induction es generalizing f with
  | nil => rfl
  | cons e es ih =>
    rw [List.foldl_cons, ih]
    rfl

theorem fuseAll_eq (rankings : List (List (Chunk M))) : fuseAll rankings =
    ⟨(entries rankings).foldl add (Table.empty _),
      (Table.empty _).putAll (rankings.flatten.map fun c => (c.id, c))⟩ := by
  have hnested : fuseAll rankings =
      (rankings.map List.zipIdx).flatten.foldl Fused.enter ⟨Table.empty _, Table.empty _⟩ := by
    rw [List.foldl_flatten, List.foldl_map]
    rfl
  have hplain : (rankings.map List.zipIdx).flatten.map Prod.fst = rankings.flatten := by
    rw [List.map_flatten, List.map_map]
    congr 1
    apply List.map_id''
    intro ranking
    exact List.zipIdx_map_fst 0 ranking
  have hentries : (rankings.map List.zipIdx).flatten.map (fun e => (e.1.id, share e.2)) =
      entries rankings := by
    rw [entries, List.map_flatten, List.map_map]
    rfl
  rw [hnested, foldl_enter, hentries, ← hplain, List.map_map]
  rfl

theorem mem_ids {rankings : List (List (Chunk M))} {id : String} :
    id ∈ (fuseAll rankings).scores.rows.map Prod.fst ↔ id ∈ rankings.flatten.map Chunk.id := by
  rw [fuseAll_eq, mem_foldl_keys]
  have hids : (entries rankings).map Prod.fst = rankings.flatten.map Chunk.id := by
    rw [entries, List.map_flatten, List.map_map, List.map_flatten]
    congr 1
    apply List.map_congr_left
    intro ranking _
    rw [Function.comp_apply, List.map_map]
    change ranking.zipIdx.map (Chunk.id ∘ Prod.fst) = _
    rw [← List.map_map, List.zipIdx_map_fst]
  rw [hids]
  simp [Table.empty]

theorem added_zipIdx {ranking : List (Chunk M)} (h : (ranking.map Chunk.id).Nodup) (id : String)
    (n : ℕ) : added ((ranking.zipIdx n).map fun e => (e.1.id, share e.2)) id =
      (rank ranking id).elim 0 fun i => share (n + i) := by
  induction ranking generalizing n with
  | nil => rfl
  | cons c ranking ih =>
    rw [List.map_cons, List.nodup_cons] at h
    rw [List.zipIdx_cons, List.map_cons, added_cons, ih h.2]
    unfold rank
    rw [List.map_cons, List.idxOf?_cons]
    by_cases hc : c.id = id
    · have hrest : (ranking.map Chunk.id).idxOf? id = none := by
        rw [List.idxOf?_eq_none_iff, ← hc]
        exact h.1
      simp [hc, hrest]
    · rw [if_neg hc, zero_add, if_neg (by simpa using hc)]
      cases (ranking.map Chunk.id).idxOf? id with
      | none => rfl
      | some i =>
        change share (n + 1 + i) = share (n + (i + 1))
        congr 1
        omega

theorem amount_fuseAll {rankings : List (List (Chunk M))}
    (h : ∀ ranking ∈ rankings, (ranking.map Chunk.id).Nodup) (id : String) :
    amount (fuseAll rankings).scores id = rrfScore rankings id := by
  have hnone : amount (Table.empty (Prod.fst : String × ℚ → String)) id = 0 := rfl
  rw [fuseAll_eq, amount_foldl, hnone, zero_add, entries, added_flatten, List.map_map, rrfScore]
  congr 1
  apply List.map_congr_left
  intro ranking hr
  rw [Function.comp_apply, added_zipIdx (h ranking hr)]
  simp

theorem share_pos (rank : ℕ) : 0 < share rank := by
  unfold share
  positivity

theorem share_lt {i j : ℕ} (h : i < j) : share j < share i := by
  unfold share
  apply one_div_lt_one_div_of_lt
  · positivity
  · exact_mod_cast (by omega : rrfK + i + 1 < rrfK + j + 1)

theorem Dominates.score_lt {rankings : List (List (Chunk M))} {a b : String}
    (h : Dominates rankings a b) : rrfScore rankings b < rrfScore rankings a := by
  -- where `b` is ranked it gets less than `a`, and elsewhere nothing
  have hless : ∀ ranking ∈ rankings, (rank ranking b).isSome →
      (rank ranking b).elim 0 share < (rank ranking a).elim 0 share := by
    intro ranking hr hb
    obtain ⟨j, hj⟩ := Option.isSome_iff_exists.mp hb
    obtain ⟨i, hij, hi⟩ := h.above ranking hr j hj
    rw [hi, hj]
    exact share_lt hij
  have hle : ∀ ranking ∈ rankings,
      (rank ranking b).elim 0 share ≤ (rank ranking a).elim 0 share := by
    intro ranking hr
    cases hb : rank ranking b with
    | some j =>
      have hlt := hless ranking hr (by rw [hb]; rfl)
      rw [hb] at hlt
      exact hlt.le
    | none =>
      cases rank ranking a with
      | none => exact le_rfl
      | some i => exact (share_pos i).le
  obtain ⟨ranking, hr, hb⟩ := h.ranked
  exact List.sum_lt_sum _ _ hle ⟨ranking, hr, hless ranking hr hb⟩

theorem sortByScore_pairwise (items : List (String × ℚ)) :
    (sortByScore items).Pairwise fun a b => b.2 ≤ a.2 := by
  have : Std.Total fun a b : String × ℚ => b.2 ≤ a.2 := ⟨fun a b => le_total b.2 a.2⟩
  have : IsTrans (String × ℚ) fun a b => b.2 ≤ a.2 := ⟨fun _ _ _ hab hbc => hbc.trans hab⟩
  exact List.pairwise_insertionSort _ items

theorem sortByScore_perm (items : List (String × ℚ)) : (sortByScore items).Perm items :=
  List.perm_insertionSort _ items

theorem byId_of_mem {rankings : List (List (Chunk M))} {id : String}
    (h : id ∈ (fuseAll rankings).scores.rows.map Prod.fst) :
    ∃ c ∈ rankings.flatten, c.id = id ∧ (fuseAll rankings).byId.get id = some (id, c) := by
  have hkeys : ∀ (cs : List (Chunk M)) (t : Table (Prod.fst : String × Chunk M → String)),
      id ∈ cs.map Chunk.id → ∃ c ∈ cs, c.id = id ∧
        (t.putAll (cs.map fun c => (c.id, c))).get id = some (id, c) := by
    intro cs
    induction cs with
    | nil => exact nofun
    | cons c cs ih =>
      intro t hin
      by_cases hlater : id ∈ cs.map Chunk.id
      · obtain ⟨d, hd, hid, hget⟩ := ih (t.put (c.id, c)) hlater
        exact ⟨d, List.mem_cons_of_mem c hd, hid, hget⟩
      · have hc : id = c.id := (List.mem_cons.mp hin).resolve_right hlater
        refine ⟨c, List.mem_cons_self, hc.symm, ?_⟩
        have hrest : id ∉ (cs.map fun c => (c.id, c)).map Prod.fst := by
          rw [List.map_map]
          exact hlater
        change ((t.put (c.id, c)).putAll (cs.map fun c => (c.id, c))).get id = _
        rw [Table.get_putAll_of_notMem hrest, Table.get_put, if_pos hc.symm, hc]
  obtain ⟨c, hc, hid, hget⟩ := hkeys rankings.flatten (Table.empty _) (mem_ids.mp h)
  refine ⟨c, hc, hid, ?_⟩
  rw [fuseAll_eq]
  exact hget

theorem rrfFuse_eq (rankings : List (List (Chunk M))) (topK : ℕ) :
    ∃ results, rrfFuse rankings topK = some results ∧
      results.map (fun s => (s.chunk.id, s.score)) =
        (sortByScore (fuseAll rankings).scores.rows).take topK ∧
      ∀ s ∈ results, s.chunk ∈ rankings.flatten := by
  let items := (sortByScore (fuseAll rankings).scores.rows).take topK
  have hmem : ∀ kv ∈ items, kv.1 ∈ (fuseAll rankings).scores.rows.map Prod.fst := by
    intro kv hkv
    apply List.mem_map_of_mem
    exact (sortByScore_perm _).mem_iff.mp (List.mem_of_mem_take hkv)
  have hchunk : ∀ kv ∈ items, ∃ c ∈ rankings.flatten, c.id = kv.1 ∧
      ((fuseAll rankings).byId.get kv.1).map (fun row => (⟨row.2, kv.2, "hybrid"⟩ : ScoredChunk M)) =
        some ⟨c, kv.2, "hybrid"⟩ := by
    intro kv hkv
    obtain ⟨c, hc, hid, hget⟩ := byId_of_mem (hmem kv hkv)
    exact ⟨c, hc, hid, by rw [hget]; rfl⟩
  have hall : ∀ kvs : List (String × ℚ), (∀ kv ∈ kvs, kv ∈ items) → ∃ results : List (ScoredChunk M),
      kvs.mapM (fun kv => ((fuseAll rankings).byId.get kv.1).map
        fun row => (⟨row.2, kv.2, "hybrid"⟩ : ScoredChunk M)) = some results ∧
      results.map (fun s => (s.chunk.id, s.score)) = kvs ∧ ∀ s ∈ results, s.chunk ∈ rankings.flatten := by
    intro kvs
    induction kvs with
    | nil => exact fun _ => ⟨[], rfl, rfl, nofun⟩
    | cons kv kvs ih =>
      intro hin
      obtain ⟨c, hc, hid, hget⟩ := hchunk kv (hin kv List.mem_cons_self)
      obtain ⟨results, hrest, hkeys, hfrom⟩ := ih fun q hq => hin q (List.mem_cons_of_mem kv hq)
      refine ⟨⟨c, kv.2, "hybrid"⟩ :: results, ?_, ?_, ?_⟩
      · rw [List.mapM_cons, hget, hrest]
        rfl
      · rw [List.map_cons, hkeys, hid]
      · intro s hs
        rcases List.mem_cons.mp hs with rfl | hs
        · exact hc
        · exact hfrom s hs
  exact hall items fun _ hkv => hkv

theorem rank_isSome {ranking : List (Chunk M)} {id : String} :
    (rank ranking id).isSome ↔ id ∈ ranking.map Chunk.id := by
  rw [rank, List.isSome_idxOf?]

theorem mem_sorted {rankings : List (List (Chunk M))} {id : String}
    (h : id ∈ rankings.flatten.map Chunk.id) :
    (id, amount (fuseAll rankings).scores id) ∈ sortByScore (fuseAll rankings).scores.rows := by
  obtain ⟨row, hrow, rfl⟩ := List.mem_map.mp (mem_ids.mpr h)
  rw [amount_of_mem hrow]
  exact (sortByScore_perm _).mem_iff.mpr hrow

theorem sorted_before {items : List (String × ℚ)} {kv q : String × ℚ} {j : ℕ}
    (hkv : kv ∈ sortByScore items) (hj : (sortByScore items)[j]? = some q) (hlt : q.2 < kv.2) :
    ∃ i < j, (sortByScore items)[i]? = some kv := by
  obtain ⟨i, hi⟩ := List.mem_iff_getElem?.mp hkv
  refine ⟨i, ?_, hi⟩
  by_contra hnot
  obtain ⟨hjlen, hjq⟩ := List.getElem?_eq_some_iff.mp hj
  obtain ⟨hilen, hikv⟩ := List.getElem?_eq_some_iff.mp hi
  rcases Nat.eq_or_lt_of_le (Nat.le_of_not_lt hnot) with heq | hless
  · subst heq
    rw [← hikv, ← hjq] at hlt
    exact lt_irrefl _ hlt
  · have hordered := List.pairwise_iff_getElem.mp (sortByScore_pairwise items) j i hjlen hilen hless
    rw [hikv, hjq] at hordered
    exact absurd hlt (not_lt.mpr hordered)

theorem scores_perm {rankings rankings' : List (List (Chunk M))} (h : rankings'.Perm rankings)
    (id : String) :
    (fuseAll rankings').scores.get id = (fuseAll rankings).scores.get id := by
  have hids : id ∈ (fuseAll rankings').scores.rows.map Prod.fst ↔
      id ∈ (fuseAll rankings).scores.rows.map Prod.fst := by
    rw [mem_ids, mem_ids]
    exact (h.flatten.map Chunk.id).mem_iff
  have hamount : amount (fuseAll rankings').scores id = amount (fuseAll rankings).scores id := by
    rw [fuseAll_eq, fuseAll_eq, amount_foldl, amount_foldl, entries, entries, added_flatten,
      added_flatten, List.map_map, List.map_map]
    congr 1
    exact (h.map _).sum_eq
  rw [Table.mem_keys, Table.mem_keys] at hids
  cases hs : (fuseAll rankings).scores.get id with
  | none =>
    rw [hs] at hids
    simpa using hids
  | some row =>
    rw [hs] at hids
    obtain ⟨row', hs'⟩ := Option.isSome_iff_exists.mp (hids.mpr rfl)
    rw [amount, amount, hs, hs'] at hamount
    have hkey : row'.1 = row.1 := (Table.key_of_get hs').trans (Table.key_of_get hs).symm
    rw [hs', Prod.ext hkey hamount]

theorem length_sorted (rankings : List (List (Chunk M))) :
    (sortByScore (fuseAll rankings).scores.rows).length =
      (rankings.flatten.map Chunk.id).dedup.length := by
  have hsame : ((fuseAll rankings).scores.rows.map Prod.fst).Perm
      (rankings.flatten.map Chunk.id).dedup := by
    apply (List.perm_ext_iff_of_nodup (fuseAll rankings).scores.unique (List.nodup_dedup _)).mpr
    intro id
    rw [mem_ids, List.mem_dedup]
  have hlen := hsame.length_eq
  rw [List.length_map] at hlen
  rw [(sortByScore_perm _).length_eq, hlen]

theorem taken_before {items : List (String × ℚ)} {kv q : String × ℚ} {j k : ℕ}
    (hkv : kv ∈ sortByScore items) (hj : ((sortByScore items).take k)[j]? = some q)
    (hlt : q.2 < kv.2) : ∃ i < j, ((sortByScore items).take k)[i]? = some kv := by
  rw [List.getElem?_take] at hj
  split_ifs at hj with hjk
  obtain ⟨i, hij, hi⟩ := sorted_before hkv hj hlt
  refine ⟨i, hij, ?_⟩
  rw [List.getElem?_take, if_pos (hij.trans hjk), hi]

theorem Dominates.entered {rankings : List (List (Chunk M))} {a b : String}
    (h : Dominates rankings a b) : a ∈ rankings.flatten.map Chunk.id := by
  obtain ⟨ranking, hr, hb⟩ := h.ranked
  obtain ⟨k, hk⟩ := Option.isSome_iff_exists.mp hb
  obtain ⟨i, -, hi⟩ := h.above ranking hr k hk
  obtain ⟨c, hc, hid⟩ := List.mem_map.mp (rank_isSome.mp (by rw [hi]; rfl))
  exact List.mem_map.mpr ⟨c, List.mem_flatten.mpr ⟨ranking, hr, hc⟩, hid⟩

theorem rrf_fuse_sound {rankings : List (List (Chunk M))}
    (h : ∀ ranking ∈ rankings, (ranking.map Chunk.id).Nodup) (topK : ℕ) :
    ∃ results, rrfFuse rankings topK = some results ∧
      results.length = min topK (rankings.flatten.map Chunk.id).dedup.length ∧
      (results.map fun s => s.chunk.id).Nodup ∧
      (results.map ScoredChunk.score).Pairwise (· ≥ ·) ∧
      (∀ s ∈ results, s.chunk ∈ rankings.flatten ∧ s.score = rrfScore rankings s.chunk.id) ∧
      (∀ a b, Dominates rankings a b → ∀ (j : ℕ) (s : ScoredChunk M), results[j]? = some s →
        s.chunk.id = b → ∃ i < j, ∃ s' : ScoredChunk M, results[i]? = some s' ∧ s'.chunk.id = a) ∧
      ∀ rankings', rankings'.Perm rankings → ∀ id,
        (fuseAll rankings').scores.get id = (fuseAll rankings).scores.get id := by
  obtain ⟨results, hresults, hitems, hfrom⟩ := rrfFuse_eq rankings topK
  have hids : results.map (fun s => s.chunk.id) =
      ((sortByScore (fuseAll rankings).scores.rows).take topK).map Prod.fst := by
    rw [← hitems, List.map_map]
    rfl
  have hscores : results.map ScoredChunk.score =
      ((sortByScore (fuseAll rankings).scores.rows).take topK).map Prod.snd := by
    rw [← hitems, List.map_map]
    rfl
  have hamount : ∀ s ∈ results, s.score = amount (fuseAll rankings).scores s.chunk.id := by
    intro s hs
    have hmem : (s.chunk.id, s.score) ∈ (sortByScore (fuseAll rankings).scores.rows).take topK := by
      rw [← hitems]
      exact List.mem_map_of_mem hs
    exact (amount_of_mem ((sortByScore_perm _).mem_iff.mp (List.mem_of_mem_take hmem))).symm
  refine ⟨results, hresults, ?_, ?_, ?_, ?_, ?_, fun _ hperm => scores_perm hperm⟩
  · rw [← List.length_map (fun s : ScoredChunk M => s.chunk.id), hids, List.length_map,
      List.length_take, length_sorted]
  · rw [hids, List.map_take]
    apply List.Nodup.sublist (List.take_sublist _ _)
    exact ((sortByScore_perm _).map Prod.fst).nodup_iff.mpr (fuseAll rankings).scores.unique
  · rw [hscores, List.map_take]
    apply List.Pairwise.sublist (List.take_sublist _ _)
    exact List.pairwise_map.mpr (sortByScore_pairwise _)
  · intro s hs
    exact ⟨hfrom s hs, (hamount s hs).trans (amount_fuseAll h _)⟩
  · rintro a b hdominates j s hj rfl
    have hscore : s.score < amount (fuseAll rankings).scores a := by
      rw [hamount s (List.mem_of_getElem? hj), amount_fuseAll h, amount_fuseAll h]
      exact hdominates.score_lt
    -- `s` has the same place among all the sorted scores
    have hplace : ((sortByScore (fuseAll rankings).scores.rows).take topK)[j]? =
        some (s.chunk.id, s.score) := by
      rw [← hitems, List.getElem?_map, hj]
      rfl
    obtain ⟨i, hij, hi⟩ := taken_before (mem_sorted hdominates.entered) hplace hscore
    rw [← hitems, List.getElem?_map] at hi
    obtain ⟨s', hs', hpair⟩ := Option.map_eq_some_iff.mp hi
    exact ⟨i, hij, s', hs', congrArg Prod.fst hpair⟩

def sampleChunk (id : String) : Chunk Unit := ⟨id, "d", "s", 0, "t", ()⟩

def sampleRankings : List (List (Chunk Unit)) :=
  [[sampleChunk "both", sampleChunk "dense"], [sampleChunk "both", sampleChunk "lex"]]

theorem sample_rankings_fused : ∃ results, rrfFuse sampleRankings 2 = some results ∧
    (results.map fun s => s.chunk.id) = ["both", "dense"] ∧ results.length = 2 := by
  obtain ⟨results, hresults, hlen, -⟩ := @rrf_fuse_sound Unit sampleRankings (by decide) 2
  have hids : (rrfFuse sampleRankings 2).map (fun results => results.map fun s => s.chunk.id) =
      some ["both", "dense"] := by decide +kernel
  rw [hresults] at hids
  exact ⟨results, hresults, Option.some.inj hids, hlen⟩

end Workbench.Rag
