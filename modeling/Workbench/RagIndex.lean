import Workbench.Chunking
import Workbench.KeyedTable
import Workbench.Overlays
import Mathlib.Logic.Equiv.Basic

/-!
`RagPipeline.ingest` on one index, a map from point ids to points. `V` is a vector, and `E` what the
embedder may raise; what it answers is up to each call.
-/

namespace Workbench.Rag

open KeyedTable Overlays

/-- A document as the loaders make it, its id the hash of its source. -/
structure Loaded (docId : String → String) (M : Type) extends Document M where
  named : id = docId source

def fromText {M : Type} (docId : String → String) (emptyDict : M) (source text : String)
    (metadata : Option M) : Loaded docId M :=
  ⟨⟨docId source, source, text, metadata.getD emptyDict⟩, rfl⟩

structure Point (M V : Type) where
  id : String
  vector : V
  payload : Chunk M

abbrev PointTable (M V : Type) := Table (R := Point M V) Point.id

inductive IngestError (E : Type)
  | embedding (exc : E)
  | indexError
  | valueError

structure IngestStats where
  documents : ℕ
  chunks : ℕ

structure IngestCall (docId : String → String) (M V E : Type) where
  documents : List (Loaded docId M)
  embed : List String → Except E (List V)

variable {M V E : Type} {docId : String → String}

def IngestCall.chunks (call : IngestCall docId M V E) : List (Chunk M) :=
  call.documents.flatMap fun doc => chunkDocument doc.toDocument

section Pipeline

variable (pointId : String → String)

def pointStruct (p : Chunk M × V) : Point M V := ⟨pointId p.1.id, p.2, p.1⟩

def upsert (store : PointTable M V) (chunks : List (Chunk M)) (vectors : List V) :
    Except (IngestError E) (PointTable M V) :=
  if vectors.length = 0 then .error .indexError
  else if chunks.length ≠ vectors.length then .error .valueError
  else .ok (store.putAll ((chunks.zip vectors).map (pointStruct pointId)))

def ingest (store : PointTable M V) (call : IngestCall docId M V E) :
    PointTable M V × Except (IngestError E) IngestStats :=
  let stats : IngestStats := ⟨call.documents.length, call.chunks.length⟩
  if call.chunks.length = 0 then (store, .ok stats)
  else
    match call.embed (call.chunks.map Chunk.text) with
    | .error exc => (store, .error (.embedding exc))
    | .ok vectors =>
      match upsert pointId store call.chunks vectors with
      | .error exc => (store, .error exc)
      | .ok store => (store, .ok stats)

def ingestAll (calls : List (IngestCall docId M V E)) : PointTable M V :=
  calls.foldl (fun store call => (ingest pointId store call).1) (Table.empty Point.id)

def stored (store : PointTable M V) (source : String) : List (Chunk M) :=
  (store.rows.map Point.payload).filter fun chunk => chunk.source = source

end Pipeline

def IngestCall.embeds (call : IngestCall docId M V E) : Bool :=
  call.chunks.length = 0 ||
    match call.embed (call.chunks.map Chunk.text) with
    | .error _ => false
    | .ok vectors => vectors.length = call.chunks.length

def documentsOf (docs : List (Loaded docId M)) (source : String) : List (Loaded docId M) :=
  docs.filter fun doc => doc.source = source

def versionsOf (docs : List (Loaded docId M)) (source : String) : List (List (Chunk M)) :=
  (documentsOf docs source).map fun doc => chunkDocument doc.toDocument

def ingested (calls : List (IngestCall docId M V E)) : List (Loaded docId M) :=
  (calls.filter IngestCall.embeds).flatMap IngestCall.documents

section Calls

variable (pointId : String → String) (store : PointTable M V) {call : IngestCall docId M V E}

theorem ingest_embeds (h : call.embeds = true) :
    ∃ points : List (Point M V), points.map Point.payload = call.chunks ∧
      (∀ p ∈ points, p.id = pointId p.payload.id) ∧
      ingest pointId store call =
        (store.putAll points, .ok ⟨call.documents.length, call.chunks.length⟩) := by
  unfold IngestCall.embeds at h
  unfold ingest
  by_cases hnone : call.chunks.length = 0
  · refine ⟨[], ?_, nofun, ?_⟩
    · rw [List.length_eq_zero_iff.mp hnone]
      rfl
    · rw [if_pos hnone]
      rfl
  · cases hembed : call.embed (call.chunks.map Chunk.text) with
    | error exc => simp [hembed, hnone] at h
    | ok vectors =>
      have hlength : vectors.length = call.chunks.length := by simpa [hembed, hnone] using h
      refine ⟨(call.chunks.zip vectors).map (pointStruct pointId), ?_, ?_, ?_⟩
      · rw [List.map_map]
        exact List.map_fst_zip hlength.ge
      · intro p hp
        obtain ⟨pair, -, rfl⟩ := List.mem_map.mp hp
        rfl
      · simp [hnone, upsert, hlength]

theorem ingest_not_embeds (h : call.embeds = false) :
    ∃ exc, ingest pointId store call = (store, .error exc) := by
  unfold IngestCall.embeds at h
  unfold ingest
  have hnone : call.chunks.length ≠ 0 := by
    intro hnone
    simp [hnone] at h
  cases hembed : call.embed (call.chunks.map Chunk.text) with
  | error exc => exact ⟨.embedding exc, by simp [hnone]⟩
  | ok vectors =>
    have hlength : vectors.length ≠ call.chunks.length := by simpa [hembed, hnone] using h
    unfold upsert
    by_cases hzero : vectors.length = 0
    · exact ⟨.indexError, by simp [hnone, hzero]⟩
    · exact ⟨.valueError, by simp [hnone, hzero, Ne.symm hlength]⟩

end Calls

structure Mirrors (pointId : String → String) (store : PointTable M V) (docs : List (Loaded docId M)) :
    Prop where
  chunk : ∀ source i, (store.get (pointId (chunkId (docId source) i))).map Point.payload =
    (overlays (versionsOf docs source))[i]?
  named : ∀ p ∈ store.rows, p.id = pointId p.payload.id ∧
    ∃ i, p.payload.id = chunkId (docId p.payload.source) i

section Refinement

variable {pointId : String → String} {store : PointTable M V} {docs : List (Loaded docId M)}

theorem mirrors_empty : Mirrors pointId (Table.empty (R := Point M V) Point.id) ([] : List (Loaded docId M)) :=
  ⟨fun _ _ => rfl, nofun⟩

theorem versionsOf_concat (docs : List (Loaded docId M)) (doc : Loaded docId M) (source : String) :
    versionsOf (docs ++ [doc]) source =
      if doc.source = source then versionsOf docs source ++ [chunkDocument doc.toDocument]
      else versionsOf docs source := by
  unfold versionsOf documentsOf
  split_ifs with h <;> simp [h]

section Document

variable {doc : Loaded docId M} {points : List (Point M V)}

theorem points_ids (hpayload : points.map Point.payload = chunkDocument doc.toDocument)
    (hid : ∀ p ∈ points, p.id = pointId p.payload.id) :
    points.map Point.id = ((chunkDocument doc.toDocument).map Chunk.id).map pointId := by
  rw [← hpayload, List.map_map, List.map_map]
  exact List.map_congr_left hid

theorem mem_points_ids (hdoc : docId.Injective) (hpoint : pointId.Injective)
    (hpayload : points.map Point.payload = chunkDocument doc.toDocument)
    (hid : ∀ p ∈ points, p.id = pointId p.payload.id) {source : String} {i : ℕ} :
    pointId (chunkId (docId source) i) ∈ points.map Point.id ↔
      doc.source = source ∧ i < (chunkDocument doc.toDocument).length := by
  rw [points_ids hpayload hid, chunkDocument, chunkWith_ids, doc.named,
    List.mem_map_of_injective hpoint]
  constructor
  · intro h
    obtain ⟨j, hj, heq⟩ := List.mem_map.mp h
    obtain ⟨hsource, rfl⟩ := chunkId_injective heq
    exact ⟨hdoc hsource, List.mem_range.mp hj⟩
  · rintro ⟨rfl, hi⟩
    exact List.mem_map_of_mem (List.mem_range.mpr hi)

theorem get_point (hpoint : pointId.Injective)
    (hpayload : points.map Point.payload = chunkDocument doc.toDocument)
    (hid : ∀ p ∈ points, p.id = pointId p.payload.id) {i : ℕ}
    (hi : i < (chunkDocument doc.toDocument).length) :
    ((store.putAll points).get (pointId (chunkId (docId doc.source) i))).map Point.payload =
      (chunkDocument doc.toDocument)[i]? := by
  have hnodup : (points.map Point.id).Nodup := by
    rw [points_ids hpayload hid]
    exact (chunkWith_ids_nodup _ _ _).map hpoint
  obtain ⟨chunk, hchunk⟩ : ∃ chunk, (chunkDocument doc.toDocument)[i]? = some chunk :=
    ⟨_, List.getElem?_eq_getElem hi⟩
  have hmem := hchunk
  rw [← hpayload, List.getElem?_map, Option.map_eq_some_iff] at hmem
  obtain ⟨p, hp, hpay⟩ := hmem
  have hkey : pointId (chunkId (docId doc.source) i) = p.id := by
    rw [hid p (List.mem_of_getElem? hp), hpay, (chunkWith_id hchunk).1, doc.named]
  rw [hkey, Table.get_putAll_of_mem hnodup (List.mem_of_getElem? hp), hchunk, ← hpay]
  rfl

theorem Mirrors.concat (hdoc : docId.Injective) (hpoint : pointId.Injective)
    (h : Mirrors pointId store docs)
    (hpayload : points.map Point.payload = chunkDocument doc.toDocument)
    (hid : ∀ p ∈ points, p.id = pointId p.payload.id) :
    Mirrors pointId (store.putAll points) (docs ++ [doc]) := by
  constructor
  · intro source i
    rw [versionsOf_concat]
    by_cases hsource : doc.source = source
    · rw [if_pos hsource, overlays_concat, getElem?_overlay]
      by_cases hi : i < (chunkDocument doc.toDocument).length
      · rw [if_pos hi, ← hsource]
        exact get_point hpoint hpayload hid hi
      · have hkey : pointId (chunkId (docId source) i) ∉ points.map Point.id := by
          rw [mem_points_ids hdoc hpoint hpayload hid]
          omega
        rw [if_neg hi, Table.get_putAll_of_notMem hkey]
        exact h.chunk source i
    · have hkey : pointId (chunkId (docId source) i) ∉ points.map Point.id := by
        rw [mem_points_ids hdoc hpoint hpayload hid]
        exact fun hmem => hsource hmem.1
      rw [if_neg hsource, Table.get_putAll_of_notMem hkey]
      exact h.chunk source i
  · intro p hp
    rcases Table.mem_putAll hp with hp | hp
    · have hchunk : p.payload ∈ chunkDocument doc.toDocument := hpayload ▸ List.mem_map_of_mem hp
      obtain ⟨i, hi⟩ := List.getElem?_of_mem hchunk
      obtain ⟨hpid, hsource⟩ := chunkWith_id hi
      exact ⟨hid p hp, i, by rw [hpid, hsource, doc.named]⟩
    · exact h.named p hp

end Document

theorem Mirrors.append (hdoc : docId.Injective) (hpoint : pointId.Injective)
    (h : Mirrors pointId store docs) {added : List (Loaded docId M)} {points : List (Point M V)}
    (hpayload : points.map Point.payload = added.flatMap fun doc => chunkDocument doc.toDocument)
    (hid : ∀ p ∈ points, p.id = pointId p.payload.id) :
    Mirrors pointId (store.putAll points) (docs ++ added) := by
  induction added generalizing store docs points with
  | nil =>
    obtain rfl := List.map_eq_nil_iff.mp hpayload
    rw [List.append_nil]
    exact h
  | cons doc added ih =>
    rw [List.flatMap_cons] at hpayload
    obtain ⟨ps, qs, rfl, hps, hqs⟩ := List.map_eq_append_iff.mp hpayload
    rw [List.forall_mem_append] at hid
    have hnext := ih (h.concat hdoc hpoint hps hid.1) hqs hid.2
    rw [List.append_assoc] at hnext
    rw [Table.putAll, List.foldl_append]
    exact hnext

theorem mirrors_ingestAll (hdoc : docId.Injective) (hpoint : pointId.Injective)
    (calls : List (IngestCall docId M V E)) :
    Mirrors pointId (ingestAll pointId calls) (ingested calls) := by
  induction calls using List.reverseRecOn with
  | nil => exact mirrors_empty
  | append_singleton calls call ih =>
    have hlast : ingestAll pointId (calls ++ [call]) = (ingest pointId (ingestAll pointId calls) call).1 := by
      rw [ingestAll, List.foldl_append]
      rfl
    rw [hlast]
    cases hembeds : call.embeds with
    | true =>
      obtain ⟨points, hpayload, hid, heq⟩ := ingest_embeds pointId (ingestAll pointId calls) hembeds
      have hingested : ingested (calls ++ [call]) = ingested calls ++ call.documents := by
        simp [ingested, hembeds]
      rw [heq, hingested]
      exact ih.append hdoc hpoint hpayload hid
    | false =>
      obtain ⟨exc, heq⟩ := ingest_not_embeds pointId (ingestAll pointId calls) hembeds
      have hingested : ingested (calls ++ [call]) = ingested calls := by
        simp [ingested, hembeds]
      rw [heq, hingested]
      exact ih

theorem mem_stored {source : String} {chunk : Chunk M} :
    chunk ∈ stored store source ↔ ∃ p ∈ store.rows, p.payload = chunk ∧ chunk.source = source := by
  rw [stored, List.mem_filter, decide_eq_true_eq, List.mem_map]
  grind

theorem Mirrors.place (hdoc : docId.Injective) (hpoint : pointId.Injective)
    (h : Mirrors pointId store docs) {source : String} {i : ℕ} {chunk : Chunk M}
    (hi : (overlays (versionsOf docs source))[i]? = some chunk) :
    chunk.id = chunkId (docId source) i ∧ chunk ∈ stored store source := by
  rw [← h.chunk source i, Option.map_eq_some_iff] at hi
  obtain ⟨p, hp, rfl⟩ := hi
  obtain ⟨hpid, j, hj⟩ := h.named p (Table.mem_of_get hp)
  have hid := hpoint (hpid.symm.trans (Table.key_of_get hp))
  obtain ⟨hsource, -⟩ := chunkId_injective (hj.symm.trans hid)
  exact ⟨hid, mem_stored.mpr ⟨p, Table.mem_of_get hp, rfl, hdoc hsource⟩⟩

theorem Mirrors.mem_overlays (h : Mirrors pointId store docs) {source : String} {chunk : Chunk M}
    (hchunk : chunk ∈ stored store source) : chunk ∈ overlays (versionsOf docs source) := by
  obtain ⟨p, hp, rfl, rfl⟩ := mem_stored.mp hchunk
  obtain ⟨hpid, i, hi⟩ := h.named p hp
  have hget := h.chunk p.payload.source i
  rw [← hi, ← hpid, Table.get_of_mem hp] at hget
  exact List.mem_of_getElem? hget.symm

theorem Mirrors.stored_nodup (h : Mirrors pointId store docs) (source : String) :
    (stored store source).Nodup := by
  apply List.Nodup.filter
  apply List.Nodup.of_map fun chunk : Chunk M => pointId chunk.id
  rw [List.map_map]
  have hkeys : store.rows.map ((fun chunk : Chunk M => pointId chunk.id) ∘ Point.payload) =
      store.rows.map Point.id := List.map_congr_left fun p hp => (h.named p hp).1.symm
  rw [hkeys]
  exact store.unique

theorem Mirrors.overlays_nodup (hdoc : docId.Injective) (hpoint : pointId.Injective)
    (h : Mirrors pointId store docs) (source : String) : (overlays (versionsOf docs source)).Nodup := by
  apply List.nodup_iff_injective_getElem.mpr
  intro i j hij
  have hi := (h.place hdoc hpoint (List.getElem?_eq_getElem i.isLt)).1
  have hj := (h.place hdoc hpoint (List.getElem?_eq_getElem j.isLt)).1
  exact Fin.ext (chunkId_injective (hi.symm.trans ((congrArg Chunk.id hij).trans hj))).2

theorem Mirrors.stored_perm (hdoc : docId.Injective) (hpoint : pointId.Injective)
    (h : Mirrors pointId store docs) (source : String) :
    (stored store source).Perm (overlays (versionsOf docs source)) := by
  apply (List.perm_ext_iff_of_nodup (h.stored_nodup source) (h.overlays_nodup hdoc hpoint source)).mpr
  intro chunk
  constructor
  · exact h.mem_overlays
  · intro hchunk
    obtain ⟨i, hi⟩ := List.getElem?_of_mem hchunk
    exact (h.place hdoc hpoint hi).2

theorem Mirrors.stored_last_iff (hdoc : docId.Injective) (hpoint : pointId.Injective)
    (h : Mirrors pointId store docs) {source : String} {last : Loaded docId M}
    (hlast : (documentsOf docs source).getLast? = some last) :
    (stored store source).Perm (chunkDocument last.toDocument) ↔
      ∀ doc ∈ documentsOf docs source,
        (chunkDocument doc.toDocument).length ≤ (chunkDocument last.toDocument).length := by
  obtain ⟨before, hbefore⟩ := List.getLast?_eq_some_iff.mp hlast
  have hversions : versionsOf docs source =
      (before.map fun doc => chunkDocument doc.toDocument) ++ [chunkDocument last.toDocument] := by
    rw [versionsOf, hbefore, List.map_append, List.map_singleton]
  have hperm := h.stored_perm hdoc hpoint source
  rw [hperm.congr_left, hversions, overlays_perm_last, hbefore, List.forall_mem_append,
    List.forall_mem_map]
  simp

end Refinement

def Latest (pointId : String → String) (calls : List (IngestCall docId M V E)) : Prop :=
  ∀ source doc, (documentsOf (ingested calls) source).getLast? = some doc →
    (stored (ingestAll pointId calls) source).Perm (chunkDocument doc.toDocument)

def LastLongest (calls : List (IngestCall docId M V E)) : Prop :=
  ∀ source last, (documentsOf (ingested calls) source).getLast? = some last →
    ∀ doc ∈ documentsOf (ingested calls) source,
      (chunkDocument doc.toDocument).length ≤ (chunkDocument last.toDocument).length

theorem latest_iff_last_longest {pointId : String → String} (hdoc : docId.Injective)
    (hpoint : pointId.Injective) (calls : List (IngestCall docId M V E)) :
    Latest pointId calls ↔ LastLongest calls := by
  have hmirrors := mirrors_ingestAll hdoc hpoint calls
  constructor
  · intro h source last hlast
    exact (hmirrors.stored_last_iff hdoc hpoint hlast).mp (h source last hlast)
  · intro h source last hlast
    exact (hmirrors.stored_last_iff hdoc hpoint hlast).mpr (h source last hlast)

def sampleDocId : Equiv.Perm String := Equiv.swap "kb/a.md" "2b13796e53758425"

def samplePointId : Equiv.Perm String :=
  (Equiv.swap "2b13796e53758425:0" "6abcf3c3-8fa4-5d7b-879d-3ec20e9aeec2").trans
    (Equiv.swap "2b13796e53758425:1" "1555f000-88f5-5574-9917-a0f5fd45065e")

/-- A file of two sections, and then the same file without the second. -/
def sampleCalls : List (IngestCall sampleDocId Unit Unit Unit) :=
  ["# A\n\nOne.\n\n# B\n\nTwo.", "# A\n\nOne."].map fun text =>
    ⟨[fromText sampleDocId () "kb/a.md" text none], fun texts => .ok (texts.map fun _ => ())⟩

/-- The chunk of the section that is gone is still there. -/
theorem stale_chunk_stays : ¬Latest samplePointId sampleCalls := by
  intro h
  have hlength := (h "kb/a.md" (fromText sampleDocId () "kb/a.md" "# A\n\nOne." none) rfl).length_eq
  exact absurd hlength (by decide +kernel)

theorem sample_latest_iff : Latest samplePointId sampleCalls ↔ LastLongest sampleCalls :=
  latest_iff_last_longest sampleDocId.injective samplePointId.injective sampleCalls

end Workbench.Rag
