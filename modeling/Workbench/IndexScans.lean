import Workbench.PagedScans
import Workbench.RagIndex
import Workbench.Transitions
import Mathlib.Data.List.Sort
import Mathlib.Data.String.Basic

/-!
`QdrantStore.all_chunks`, a scan of the index that is awaited page by page while ingests go on.
-/

namespace Workbench.Rag

open KeyedTable Transitions PagedScans

variable {M V E : Type} {docId : String → String}

def scrollLimit : ℕ := 256

abbrev Scroll (M V : Type) := PointTable M V → ℕ → Option String → List (Point M V) × Option String

/-- `scroll` of the database: points in the order of their ids, and the id of the point after them. -/
def Scrolls (scroll : Scroll M V) : Prop :=
  ∀ store limit cursor, IsPage Point.id store.rows limit cursor (scroll store limit cursor)

structure Scanning (M V : Type) where
  store : PointTable M V
  scan : Scan String (Point M V)

inductive ScanAction (docId : String → String) (M V E : Type)
  | ingests (call : IngestCall docId M V E)
  | page

def scanPage (scroll : Scroll M V) (store : PointTable M V) (scan : Scan String (Point M V)) :
    Option (Scan String (Point M V)) :=
  scan.cursor.map fun cursor => scan.take (scroll store scrollLimit cursor)

def scanStep (docId pointId : String → String) (E : Type) (scroll : Scroll M V) (s : Scanning M V) :
    ScanAction docId M V E → Option (Scanning M V)
  | .ingests call => some { s with store := (ingest pointId s.store call).1 }
  | .page => (scanPage scroll s.store s.scan).map fun scan => { s with scan }

def Scanning.chunks (s : Scanning M V) : List (Chunk M) := s.scan.collected.map Point.payload

def ids (store : PointTable M V) : List String := store.rows.map Point.id

def Named (pointId : String → String) (store : PointTable M V) : Prop :=
  ∀ p ∈ store.rows, p.id = pointId p.payload.id

section Ingests

variable {pointId : String → String}

variable (pointId) in
theorem ingest_cases (store : PointTable M V) (call : IngestCall docId M V E) :
    (ingest pointId store call).1 = store ∨ ∃ points : List (Point M V),
      (∀ p ∈ points, p.id = pointId p.payload.id) ∧
        (ingest pointId store call).1 = store.putAll points := by
  cases hembeds : call.embeds with
  | true =>
    obtain ⟨points, -, hnamed, hingest⟩ := ingest_embeds pointId store hembeds
    exact .inr ⟨points, hnamed, by rw [hingest]⟩
  | false =>
    obtain ⟨exc, hingest⟩ := ingest_not_embeds pointId store hembeds
    exact .inl (by rw [hingest])

theorem mem_ids_putAll {store : PointTable M V} {id : String} (points : List (Point M V))
    (h : id ∈ ids store) : id ∈ ids (store.putAll points) := by
  induction points generalizing store with
  | nil => exact h
  | cons p points ih =>
    apply ih
    exact (Table.mem_keys_put store p id).mpr (.inr h)

theorem ids_ingest {store : PointTable M V} (call : IngestCall docId M V E) {id : String}
    (h : id ∈ ids store) : id ∈ ids (ingest pointId store call).1 := by
  rcases ingest_cases pointId store call with he | ⟨points, -, he⟩
  · rw [he]
    exact h
  · rw [he]
    exact mem_ids_putAll points h

theorem Named.ingest {store : PointTable M V} (h : Named pointId store) (call : IngestCall docId M V E) :
    Named pointId (ingest pointId store call).1 := by
  rcases ingest_cases pointId store call with he | ⟨points, hnamed, he⟩
  · rw [he]
    exact h
  · rw [he]
    intro p hp
    rcases Table.mem_putAll hp with hp | hp
    · exact hnamed p hp
    · exact h p hp

end Ingests

structure ScanKept (initial : List String) (s : Scanning M V) : Prop where
  scanned : Scanned Point.id scrollLimit initial s.scan
  initial : ∀ id ∈ initial, id ∈ ids s.store
  collected : ∀ p ∈ s.scan.collected, p.id ∈ ids s.store

section Runs

variable {pointId : String → String} {scroll : Scroll M V} {initial : List String}

theorem ScanKept.page (hscroll : Scrolls scroll) {s : Scanning M V} (h : ScanKept initial s)
    {scan : Scan String (Point M V)} (hscan : scanPage scroll s.store s.scan = some scan) :
    ScanKept initial { s with scan } ∧
      ∀ p ∈ scan.collected, p ∈ s.scan.collected ∨ p ∈ s.store.rows := by
  obtain ⟨cursor, hc, rfl⟩ := Option.map_eq_some_iff.mp hscan
  have hpage := hscroll s.store scrollLimit cursor
  have hfrom : ∀ p ∈ (s.scan.take (scroll s.store scrollLimit cursor)).collected,
      p ∈ s.scan.collected ∨ p ∈ s.store.rows := by
    intro p hp
    apply (List.mem_append.mp hp).imp_right
    intro hp
    exact (hpage.mem hp).1
  refine ⟨⟨h.scanned.take hc hpage h.initial, h.initial, ?_⟩, hfrom⟩
  intro p hp
  rcases hfrom p hp with hp | hp
  · exact h.collected p hp
  · exact List.mem_map_of_mem hp

theorem ScanKept.ingests {s : Scanning M V} (h : ScanKept initial s) (call : IngestCall docId M V E) :
    ScanKept initial { s with store := (ingest pointId s.store call).1 } where
  scanned := h.scanned
  initial id hid := ids_ingest call (h.initial id hid)
  collected p hp := ids_ingest call (h.collected p hp)

theorem scanKept_start (store : PointTable M V) :
    ScanKept (ids store) (⟨store, Scan.start⟩ : Scanning M V) where
  scanned := scanned_start _ _
  initial _ h := h
  collected p h := by cases h

theorem scanKept_run (hscroll : Scrolls scroll) {s t : Scanning M V} (h : ScanKept initial s)
    (hr : Reaches (scanStep docId pointId E scroll) always s t) : ScanKept initial t := by
  apply hr.invariant h
  intro u a v hu _ hstep
  cases a with
  | ingests call =>
    cases hstep
    exact hu.ingests call
  | page =>
    obtain ⟨scan, hscan, rfl⟩ := Option.map_eq_some_iff.mp hstep
    exact (hu.page hscroll hscan).1

theorem collected_was_stored (hscroll : Scrolls scroll) {store : PointTable M V} {s : Scanning M V}
    (hr : Reaches (scanStep docId pointId E scroll) always ⟨store, Scan.start⟩ s) :
    ∀ p ∈ s.scan.collected, ∃ u, Reaches (scanStep docId pointId E scroll) always
      ⟨store, Scan.start⟩ u ∧ Reaches (scanStep docId pointId E scroll) always u s ∧
        p ∈ u.store.rows := by
  induction hr with
  | refl =>
    intro p hp
    cases hp
  | @tail u v hu hm ih =>
    intro p hp
    obtain ⟨a, ha, hstep⟩ := hm
    have hlast : Reaches (scanStep docId pointId E scroll) always u v :=
      Reaches.single ha hstep
    have hold : p ∈ u.scan.collected → ∃ w, Reaches (scanStep docId pointId E scroll)
        always ⟨store, Scan.start⟩ w ∧
          Reaches (scanStep docId pointId E scroll) always w v ∧ p ∈ w.store.rows := by
      intro hp
      obtain ⟨w, hw, hwu, hmem⟩ := ih p hp
      exact ⟨w, hw, hwu.trans hlast, hmem⟩
    cases a with
    | ingests call =>
      cases hstep
      exact hold hp
    | page =>
      obtain ⟨scan, hscan, rfl⟩ := Option.map_eq_some_iff.mp hstep
      have hkept : ScanKept (ids store) u := scanKept_run hscroll (scanKept_start store) hu
      rcases (hkept.page hscroll hscan).2 p hp with hp | hp
      · exact hold hp
      · exact ⟨u, hu, hlast, hp⟩

theorem all_chunks_among_ingests (hscroll : Scrolls scroll) {store : PointTable M V} {s : Scanning M V}
    (hr : Reaches (scanStep docId pointId E scroll) always ⟨store, Scan.start⟩ s) :
    scrollLimit * (s.scan.pages - 1) ≤ s.store.rows.length ∧
      (s.scan.collected.map Point.id).Nodup ∧
      (∀ p ∈ s.scan.collected, ∃ u, Reaches (scanStep docId pointId E scroll) always
        ⟨store, Scan.start⟩ u ∧ Reaches (scanStep docId pointId E scroll) always u s ∧
          p ∈ u.store.rows) ∧
      (s.scan.cursor = none → ∀ p ∈ store.rows, p.id ∈ s.scan.collected.map Point.id) := by
  have hkept : ScanKept (ids store) s := scanKept_run hscroll (scanKept_start store) hr
  refine ⟨hkept.scanned.pages_le hkept.collected, hkept.scanned.keys_nodup,
    collected_was_stored hscroll hr, ?_⟩
  intro hend p hp
  exact hkept.scanned.mem_keys hend (List.mem_map_of_mem hp)

end Runs

def scrollSorted (store : PointTable M V) (limit : ℕ) (cursor : Option String) :
    List (Point M V) × Option String :=
  let rest := (store.rows.filter fun p => cursor.all fun k => k ≤ p.id).insertionSort
    fun a b => a.id ≤ b.id
  (rest.take limit, rest[limit]?.map Point.id)

theorem scrollSorted_scrolls : Scrolls (scrollSorted (M := M) (V := V)) := by
  intro store limit cursor
  have htotal : Std.Total fun a b : Point M V => a.id ≤ b.id := ⟨fun a b => le_total a.id b.id⟩
  have htrans : IsTrans (Point M V) fun a b => a.id ≤ b.id := ⟨fun _ _ _ hab hbc => hab.trans hbc⟩
  let rows := store.rows.filter fun p => cursor.all fun k => decide (k ≤ p.id)
  refine ⟨rows.insertionSort fun a b => a.id ≤ b.id, ?_, ?_, rfl⟩
  · intro p
    rw [List.mem_insertionSort, List.mem_filter]
    cases cursor with
    | none => simp [Ahead]
    | some k => simp [Ahead]
  · have hle := List.pairwise_insertionSort (fun a b : Point M V => a.id ≤ b.id) rows
    have hrows : (rows.map Point.id).Nodup := store.unique.sublist (List.filter_sublist.map _)
    have hne : ((rows.insertionSort fun a b => a.id ≤ b.id).map Point.id).Nodup :=
      ((List.perm_insertionSort _ rows).map _).nodup_iff.mpr hrows
    rw [List.nodup_iff_pairwise_ne, List.pairwise_map] at hne
    exact (hle.and hne).imp fun h => lt_of_le_of_ne h.1 h.2

def sampleScan : List (ScanAction sampleDocId Unit Unit Unit) :=
  [.ingests ⟨[fromText sampleDocId () "b" "Two." none], fun texts => .ok (texts.map fun _ => ())⟩,
    .page]

theorem sample_scan_complete : ∃ s : Scanning Unit Unit,
    exec (scanStep sampleDocId samplePointId Unit scrollSorted) ⟨ingestAll samplePointId sampleCalls, Scan.start⟩
      sampleScan = some s ∧ s.scan.collected.length = 3 ∧
    scrollLimit * (s.scan.pages - 1) ≤ s.store.rows.length ∧
      (s.scan.collected.map Point.id).Nodup ∧
      (s.scan.cursor = none → ∀ p ∈ (ingestAll samplePointId sampleCalls).rows,
        p.id ∈ s.scan.collected.map Point.id) := by
  have hrun : (exec (scanStep sampleDocId samplePointId Unit scrollSorted)
      ⟨ingestAll samplePointId sampleCalls, Scan.start⟩ sampleScan).map
        (fun s => s.scan.collected.length) = some 3 := by decide +kernel
  obtain ⟨s, hs, hlength⟩ := Option.map_eq_some_iff.mp hrun
  obtain ⟨hpages, hnodup, -, hcomplete⟩ :=
    all_chunks_among_ingests scrollSorted_scrolls (reaches_of_exec hs (obeys_always _ sampleScan))
  exact ⟨s, hs, hlength, hpages, hnodup, hcomplete⟩

end Workbench.Rag
