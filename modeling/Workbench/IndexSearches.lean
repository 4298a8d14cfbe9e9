import Workbench.IndexScans
import Workbench.RankFusion

namespace Workbench.Rag

open KeyedTable Transitions PagedScans

variable {M V E : Type} {docId : String → String}

/-- `lower` is `str.lower`, `isWord` the class `\w`, `queryPoints` the database's nearest points with
their scores, and `bm25` the scores of `BM25Okapi` over a corpus. -/
structure SearchLibrary (M V E : Type) where
  lower : String → String
  isWord : Char → Bool
  queryPoints : PointTable M V → V → ℕ → List (Point M V × ℚ)
  scroll : Scroll M V
  bm25 : List (List (List Char)) → List (List Char) → Except E (List ℚ)

structure SearchRequest where
  query : String
  topK : ℕ
  hybrid : Bool

inductive SearchError (E : Type)
  | embedding (exc : E)
  | database (exc : E)
  | bm25 (exc : E)
  | valueError
  | keyError

inductive SearchPc (M V E : Type)
  | embedding
  | querying (vector : V)
  | scanning (dense : List (ScoredChunk M)) (scan : Scan String (Point M V))
  | returned (results : List (ScoredChunk M))
  | raised (exc : SearchError E)

structure Searching (M V E : Type) where
  store : PointTable M V
  pc : SearchPc M V E

inductive SearchAction (docId : String → String) (M V E : Type)
  | ingests (call : IngestCall docId M V E)
  | embeds (vectors : Except E (List V))
  | answers
  | page
  | fails (exc : E)

section Search

variable (lib : SearchLibrary M V E) (request : SearchRequest)

def tokenize (text : String) : List (List Char) :=
  ((lib.lower text).toList.splitOnP fun c => !lib.isWord c).filter (· ≠ [])

def denseHits (store : PointTable M V) (vector : V) : List (ScoredChunk M) :=
  (lib.queryPoints store vector (request.topK * 4)).map fun p => ⟨p.1.payload, p.2, "dense"⟩

/-- Python's `sorted` keeps what scores the same in its order. -/
def lexicalHits (scores : List ℚ) (corpus : List (Chunk M)) : List (Chunk M) :=
  ((((scores.zip corpus).insertionSort fun a b => b.1 ≤ a.1).filter fun sc => 0 < sc.1).map
    Prod.snd).take (request.topK * 4)

def fuse (dense : List (ScoredChunk M)) (corpus : List (Chunk M)) : SearchPc M V E :=
  if corpus.isEmpty then .returned []
  else
    match lib.bm25 (corpus.map fun c => tokenize lib c.text) (tokenize lib request.query) with
    | .error exc => .raised (.bm25 exc)
    | .ok scores =>
      if scores.length ≠ corpus.length then .raised .valueError
      else
        match rrfFuse [dense.map ScoredChunk.chunk, lexicalHits request scores corpus]
            request.topK with
        | none => .raised .keyError
        | some results => .returned results

def afterPage (dense : List (ScoredChunk M)) (scan : Scan String (Point M V)) : SearchPc M V E :=
  match scan.cursor with
  | none => fuse lib request dense (scan.collected.map Point.payload)
  | some _ => .scanning dense scan

def searchStep (docId pointId : String → String) (s : Searching M V E) :
    SearchAction docId M V E → Option (Searching M V E)
  | .ingests call => some { s with store := (ingest pointId s.store call).1 }
  | .embeds vectors =>
    match s.pc with
    | .embedding => some { s with pc := match vectors with
        | .error exc => .raised (.embedding exc)
        | .ok [vector] => .querying vector
        | .ok _ => .raised .valueError }
    | _ => none
  | .answers =>
    match s.pc with
    | .querying vector =>
      let dense := denseHits lib request s.store vector
      some { s with pc :=
        if request.hybrid then .scanning dense Scan.start
        else .returned (dense.take request.topK) }
    | _ => none
  | .page =>
    match s.pc with
    | .scanning dense scan => (scanPage lib.scroll s.store scan).map fun scan =>
        { s with pc := afterPage lib request dense scan }
    | _ => none
  | .fails exc =>
    match s.pc with
    | .querying _ => some { s with pc := .raised (.database exc) }
    | .scanning _ _ => some { s with pc := .raised (.database exc) }
    | _ => none

end Search

structure Answers (lib : SearchLibrary M V E) : Prop where
  stored : ∀ store vector limit, ∀ p ∈ lib.queryPoints store vector limit, p.1 ∈ store.rows
  once : ∀ store vector limit, ((lib.queryPoints store vector limit).map fun p => p.1.id).Nodup
  best : ∀ store vector limit,
    (lib.queryPoints store vector limit).Pairwise fun p q => q.2 ≤ p.2
  scrolls : Scrolls lib.scroll

theorem fused_results (rankings : List (List (Chunk M))) (topK : ℕ) :
    ∃ results, rrfFuse rankings topK = some results ∧ results.length ≤ topK ∧
      (results.map fun r => r.chunk.id).Nodup ∧ results.Pairwise (fun r s => s.score ≤ r.score) ∧
        ∀ r ∈ results, r.chunk ∈ rankings.flatten := by
  obtain ⟨results, hresults, hitems, hfrom⟩ := rrfFuse_eq rankings topK
  refine ⟨results, hresults, ?_, ?_, ?_, hfrom⟩
  · rw [← List.length_map (f := fun s : ScoredChunk M => (s.chunk.id, s.score)), hitems]
    exact List.length_take_le _ _
  · have hids : results.map (fun s => s.chunk.id) =
        ((sortByScore (fuseAll rankings).scores.rows).take topK).map Prod.fst := by
      rw [← hitems, List.map_map]
      rfl
    rw [hids, List.map_take]
    apply List.Nodup.sublist (List.take_sublist _ _)
    exact ((sortByScore_perm _).map Prod.fst).nodup_iff.mpr (fuseAll rankings).scores.unique
  · have hsorted : (results.map fun s => (s.chunk.id, s.score)).Pairwise fun a b => b.2 ≤ a.2 := by
      rw [hitems]
      exact (sortByScore_pairwise _).sublist (List.take_sublist _ _)
    exact List.pairwise_map.mp hsorted

theorem mem_lexicalHits {request : SearchRequest} {scores : List ℚ} {corpus : List (Chunk M)}
    {c : Chunk M} (h : c ∈ lexicalHits request scores corpus) : c ∈ corpus := by
  obtain ⟨sc, hsc, rfl⟩ := List.mem_map.mp (List.mem_of_mem_take h)
  have hzip := (List.perm_insertionSort _ _).mem_iff.mp (List.mem_filter.mp hsc).1
  exact (List.of_mem_zip hzip).2

structure Found (request : SearchRequest) (was : Chunk M → Prop) (results : List (ScoredChunk M)) :
    Prop where
  length : results.length ≤ request.topK
  once : (results.map fun r => r.chunk.id).Nodup
  sorted : results.Pairwise fun r s => s.score ≤ r.score
  indexed : ∀ r ∈ results, was r.chunk

theorem found_nil (request : SearchRequest) (was : Chunk M → Prop) : Found request was [] where
  length := Nat.zero_le _
  once := List.nodup_nil
  sorted := List.Pairwise.nil
  indexed _ h := by cases h

def Goes (request : SearchRequest) (was : Chunk M → Prop) : SearchPc M V E → Prop
  | .scanning dense scan => (∀ d ∈ dense, was d.chunk) ∧ ∀ p ∈ scan.collected, was p.payload
  | .returned results => Found request was results
  | .raised exc => exc ≠ .keyError
  | _ => True

section Runs

variable {lib : SearchLibrary M V E} {request : SearchRequest} {pointId : String → String}

theorem Goes.mono {was was' : Chunk M → Prop} (hwas : ∀ c, was c → was' c) {pc : SearchPc M V E}
    (h : Goes request was pc) : Goes request was' pc := by
  cases pc with
  | embedding => trivial
  | querying vector => trivial
  | scanning dense scan => exact ⟨fun d hd => hwas _ (h.1 d hd), fun p hp => hwas _ (h.2 p hp)⟩
  | returned results => exact ⟨h.length, h.once, h.sorted, fun r hr => hwas _ (h.indexed r hr)⟩
  | raised exc => exact h

theorem mem_denseHits {store : PointTable M V} {vector : V} {d : ScoredChunk M} (hlib : Answers lib)
    (h : d ∈ denseHits lib request store vector) : ∃ p ∈ store.rows, p.payload = d.chunk := by
  obtain ⟨p, hp, rfl⟩ := List.mem_map.mp h
  exact ⟨p.1, hlib.stored _ _ _ p hp, rfl⟩

theorem found_dense (hlib : Answers lib) {store : PointTable M V} (hnamed : Named pointId store)
    (vector : V) {was : Chunk M → Prop} (hwas : ∀ p ∈ store.rows, was p.payload) :
    Found request was ((denseHits lib request store vector).take request.topK) where
  length := List.length_take_le _ _
  once := by
    rw [List.map_take]
    apply List.Nodup.sublist (List.take_sublist _ _)
    rw [denseHits, List.map_map]
    -- two chunks of one id would share their point's id
    have honce := hlib.once store vector (request.topK * 4)
    rw [List.nodup_iff_pairwise_ne, List.pairwise_map] at *
    apply honce.imp_of_mem
    intro p q hp hq hne hid
    apply hne
    rw [hnamed _ (hlib.stored _ _ _ p hp), hnamed _ (hlib.stored _ _ _ q hq)]
    exact congrArg pointId hid
  sorted := by
    apply List.Pairwise.sublist (List.take_sublist _ _)
    rw [denseHits, List.pairwise_map]
    exact hlib.best _ _ _
  indexed := by
    intro r hr
    obtain ⟨p, hp, hchunk⟩ := mem_denseHits hlib (List.mem_of_mem_take hr)
    rw [← hchunk]
    exact hwas p hp

theorem goes_fuse {dense : List (ScoredChunk M)} {corpus : List (Chunk M)} {was : Chunk M → Prop}
    (hdense : ∀ d ∈ dense, was d.chunk) (hcorpus : ∀ c ∈ corpus, was c) :
    Goes request was (fuse lib request dense corpus) := by
  unfold fuse
  split_ifs
  · exact found_nil request was
  · split
    · exact fun h => by cases h
    · rename_i scores _
      split_ifs
      · exact fun h => by cases h
      · obtain ⟨results, hresults, hlength, honce, hsorted, hfrom⟩ :=
          fused_results [dense.map ScoredChunk.chunk, lexicalHits request scores corpus] request.topK
        rw [hresults]
        refine ⟨hlength, honce, hsorted, ?_⟩
        intro r hr
        have hmem := hfrom r hr
        rw [List.flatten_cons, List.flatten_cons, List.flatten_nil, List.append_nil] at hmem
        rcases List.mem_append.mp hmem with h | h
        · obtain ⟨d, hd, hchunk⟩ := List.mem_map.mp h
          rw [← hchunk]
          exact hdense d hd
        · exact hcorpus _ (mem_lexicalHits h)

theorem goes_afterPage {dense : List (ScoredChunk M)} {scan : Scan String (Point M V)}
    {was : Chunk M → Prop} (hdense : ∀ d ∈ dense, was d.chunk)
    (hscan : ∀ p ∈ scan.collected, was p.payload) : Goes request was (afterPage lib request dense scan) := by
  unfold afterPage
  split
  · apply goes_fuse hdense
    intro c hc
    obtain ⟨p, hp, rfl⟩ := List.mem_map.mp hc
    exact hscan p hp
  · exact ⟨hdense, hscan⟩

theorem goes_step (hlib : Answers lib) {was : Chunk M → Prop} {s t : Searching M V E}
    {a : SearchAction docId M V E} (hnamed : Named pointId s.store) (h : Goes request was s.pc)
    (hwas : ∀ p ∈ s.store.rows, was p.payload)
    (hs : searchStep lib request docId pointId s a = some t) :
    Named pointId t.store ∧ Goes request was t.pc := by
  cases a with
  | ingests call =>
    cases hs
    exact ⟨hnamed.ingest call, h⟩
  | embeds vectors =>
    simp only [searchStep] at hs
    split at hs
    · cases hs
      refine ⟨hnamed, ?_⟩
      split
      · exact fun h => by cases h
      · trivial
      · exact fun h => by cases h
    · cases hs
  | answers =>
    simp only [searchStep] at hs
    split at hs
    · rename_i vector _
      cases hs
      refine ⟨hnamed, ?_⟩
      split_ifs
      · refine ⟨?_, ?_⟩
        · intro d hd
          obtain ⟨p, hp, hchunk⟩ := mem_denseHits hlib hd
          rw [← hchunk]
          exact hwas p hp
        · intro p hp
          cases hp
      · exact found_dense hlib hnamed vector hwas
    · cases hs
  | page =>
    simp only [searchStep] at hs
    split at hs
    · rename_i dense scan hpc
      rw [hpc] at h
      obtain ⟨next, hnext, rfl⟩ := Option.map_eq_some_iff.mp hs
      obtain ⟨cursor, -, rfl⟩ := Option.map_eq_some_iff.mp hnext
      refine ⟨hnamed, goes_afterPage h.1 ?_⟩
      intro p hp
      rcases List.mem_append.mp hp with hp | hp
      · exact h.2 p hp
      · exact hwas p ((hlib.scrolls _ _ _).mem hp).1
    · cases hs
  | fails exc =>
    simp only [searchStep] at hs
    split at hs
    · cases hs
      exact ⟨hnamed, fun h => by cases h⟩
    · cases hs
      exact ⟨hnamed, fun h => by cases h⟩
    · cases hs

def Indexed (lib : SearchLibrary M V E) (request : SearchRequest) (docId pointId : String → String)
    (s t : Searching M V E) (c : Chunk M) : Prop :=
  ∃ u, Reaches (searchStep lib request docId pointId) always s u ∧
    Reaches (searchStep lib request docId pointId) always u t ∧
      ∃ p ∈ u.store.rows, p.payload = c

theorem Indexed.tail {s t u : Searching M V E} {c : Chunk M}
    (h : Indexed lib request docId pointId s t c)
    (hm : Reaches (searchStep lib request docId pointId) always t u) :
    Indexed lib request docId pointId s u c := by
  obtain ⟨w, hw, hwt, hp⟩ := h
  exact ⟨w, hw, hwt.trans hm, hp⟩

theorem search_hits_were_indexed (hlib : Answers lib) {store : PointTable M V}
    (hnamed : Named pointId store) {s : Searching M V E}
    (hr : Reaches (searchStep lib request docId pointId) always ⟨store, .embedding⟩ s) :
    s.pc ≠ .raised .keyError ∧ ∀ results, s.pc = .returned results →
      Found request (Indexed lib request docId pointId ⟨store, .embedding⟩ s) results := by
  have hgoes : Named pointId s.store ∧
      Goes request (Indexed lib request docId pointId ⟨store, .embedding⟩ s) s.pc := by
    induction hr with
    | refl => exact ⟨hnamed, trivial⟩
    | @tail u v hu hm ih =>
      obtain ⟨a, ha, hstep⟩ := hm
      have hlast := Reaches.single ha hstep
      apply goes_step hlib ih.1 (ih.2.mono fun c hc => hc.tail hlast) ?_ hstep
      intro p hp
      exact ⟨u, hu, hlast, p, hp, rfl⟩
  constructor
  · intro hpc
    rw [hpc] at hgoes
    exact hgoes.2 rfl
  · intro results hpc
    rw [hpc] at hgoes
    exact hgoes.2

end Runs

def sampleLibrary : SearchLibrary Unit Unit Unit where
  lower := String.toLower
  isWord := Char.isAlphanum
  queryPoints store _ limit := (store.rows.take limit).map fun p => (p, 1)
  scroll := scrollSorted
  bm25 corpus _ := .ok (corpus.map fun _ => 1)

theorem sampleLibrary_answers : Answers sampleLibrary where
  stored store _ limit p hp := by
    obtain ⟨q, hq, rfl⟩ := List.mem_map.mp hp
    exact List.mem_of_mem_take hq
  once store _ limit := by
    change (((store.rows.take limit).map fun p => (p, (1 : ℚ))).map fun p => p.1.id).Nodup
    rw [List.map_map]
    exact store.unique.sublist ((List.take_sublist _ _).map _)
  best store _ limit := by
    change ((store.rows.take limit).map fun p => (p, (1 : ℚ))).Pairwise fun p q => q.2 ≤ p.2
    rw [List.pairwise_map]
    exact List.pairwise_of_forall fun _ _ => le_refl _
  scrolls := scrollSorted_scrolls

def sampleRequest : SearchRequest := ⟨"one", 1, true⟩

-- the index is filled between the embedding of the query and the search
def sampleSearch : List (SearchAction sampleDocId Unit Unit Unit) :=
  [.embeds (.ok [()])] ++ sampleCalls.map .ingests ++ [.answers, .page]

def results : SearchPc Unit Unit Unit → Option (List (ScoredChunk Unit))
  | .returned results => some results
  | _ => none

theorem sample_search_found : ∃ s hits,
    exec (searchStep sampleLibrary sampleRequest sampleDocId samplePointId)
      ⟨Table.empty _, .embedding⟩ sampleSearch = some s ∧ results s.pc = some hits ∧
    hits.length = 1 ∧ Found sampleRequest (Indexed sampleLibrary sampleRequest sampleDocId samplePointId
      ⟨Table.empty _, .embedding⟩ s) hits := by
  have hrun : ((exec (searchStep sampleLibrary sampleRequest sampleDocId samplePointId)
      ⟨Table.empty _, .embedding⟩ sampleSearch).bind fun s => (results s.pc).map List.length) =
        some 1 := by decide +kernel
  obtain ⟨s, hs, hits⟩ := Option.bind_eq_some_iff.mp hrun
  obtain ⟨hits, hresults, hlength⟩ := Option.map_eq_some_iff.mp hits
  have hfound := search_hits_were_indexed sampleLibrary_answers
    (fun p hp => by cases hp) (reaches_of_exec hs (obeys_always _ sampleSearch))
  refine ⟨s, hits, hs, hresults, hlength, hfound.2 hits ?_⟩
  cases hpc : s.pc with
  | returned found =>
    rw [hpc] at hresults
    cases hresults
    rfl
  | embedding => rw [hpc] at hresults; cases hresults
  | querying vector => rw [hpc] at hresults; cases hresults
  | scanning dense scan => rw [hpc] at hresults; cases hresults
  | raised exc => rw [hpc] at hresults; cases hresults

end Workbench.Rag
