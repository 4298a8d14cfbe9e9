import Workbench.KeyedTable
import Mathlib.Data.Int.Order.Basic
import Mathlib.Data.List.Sort

/-!
The `agent_runs` table and the operations of `workbench_observability.runs` on it. A store call
takes effect at one instant, as one transaction; `now` is the clock reading it made.
-/

namespace Workbench.RunStore

open KeyedTable

/-- Timestamps are in microseconds, the resolution `_fmt` keeps. -/
def seconds (n : ℤ) : ℤ := n * 1000000

inductive Status
  | pending
  | running
  | completed
  | maxStepsReached
  | failed
  | awaitingApproval
  | rejected
  deriving DecidableEq, Repr

def nonTerminalRunStatuses : List Status := [.pending, .running]

def Status.Terminal (s : Status) : Prop := s ∉ nonTerminalRunStatuses

instance (s : Status) : Decidable s.Terminal := inferInstanceAs (Decidable (s ∉ _))

@[simp] theorem Status.terminal_iff (s : Status) : s.Terminal ↔ s ≠ .pending ∧ s ≠ .running := by
  simp [Status.Terminal, nonTerminalRunStatuses]

structure AgentRun (P : Type) where
  id : String
  kind : String
  status : Status
  idempotencyKey : Option String
  payload : P
  error : Option String
  createdAt : ℤ
  updatedAt : ℤ
  deriving DecidableEq

variable {P : Type}

abbrev RunTable (P : Type) := Table (AgentRun.id (P := P))

/-- The schema's `UNIQUE (kind, idempotency_key)`; `NULL` keys are distinct. -/
def violatesUnique (t : RunTable P) (row : AgentRun P) : Bool :=
  row.idempotencyKey.isSome && t.rows.any fun r =>
    r.id ≠ row.id && r.kind = row.kind && r.idempotencyKey = row.idempotencyKey

def getRun (t : RunTable P) (runId : String) : Option (AgentRun P) := t.get runId

def getRunByIdempotencyKey (t : RunTable P) (kind key : String) : Option (AgentRun P) :=
  if key = "" then none
  else t.rows.find? fun r => r.kind = kind && r.idempotencyKey = some key

def insertRow (t : RunTable P) (row : AgentRun P) : Option (RunTable P) :=
  if h : t.get row.id = none then
    if violatesUnique t row then none else some (t.insert row h)
  else none

/-- `none` is the re-raised `IntegrityError`. -/
def createRun (t : RunTable P) (runId kind : String) (status : Status) (payload : P)
    (key : Option String) (now : ℤ) : Option (RunTable P × AgentRun P) :=
  let row : AgentRun P := ⟨runId, kind, status, key, payload, none, now, now⟩
  match insertRow t row with
  | some t' => some (t', row)
  | none =>
    match key.bind (getRunByIdempotencyKey t kind) with
    | some existing => some (t, existing)
    | none => (getRun t runId).map fun existing => (t, existing)

/-- `none` is a persistence error, which the caller logs and swallows; an update that leaves the
key alone cannot violate its uniqueness. -/
def upsertRun (t : RunTable P) (runId kind : String) (status : Status) (payload : P)
    (key error : Option String) (now : ℤ) : Option (RunTable P × AgentRun P) :=
  match t.get runId with
  | none =>
    let row : AgentRun P := ⟨runId, kind, status, key, payload, error, now, now⟩
    (insertRow t row).map fun t' => (t', row)
  | some old =>
    let row : AgentRun P := { old with
      status, payload, error
      updatedAt := now
      idempotencyKey := key.or old.idempotencyKey }
    if key.isSome && violatesUnique t row then none
    else
      some (t.update (fun r => r.id = runId) (fun r => { r with
        status, payload, error
        updatedAt := now
        idempotencyKey := key.or r.idempotencyKey }) fun _ => rfl, row)

/-- A column that is set to the value read is not among those an `UPDATE` writes. -/
def setColumn {A : Type} [DecidableEq A] (seen new current : A) : A :=
  if new = seen then current else new

/-- The commit of an `upsert_run` whose `session.get` found `seen`; `none` is the error that it
swallows. -/
def commitRun [DecidableEq P] (t : RunTable P) (seen : Option (AgentRun P)) (runId kind : String)
    (status : Status) (payload : P) (key error : Option String) (now : ℤ) : Option (RunTable P) :=
  match seen with
  | none => insertRow t ⟨runId, kind, status, key, payload, error, now, now⟩
  | some old =>
    let set (r : AgentRun P) : AgentRun P := { r with
      status := setColumn old.status status r.status
      payload := setColumn old.payload payload r.payload
      error := setColumn old.error error r.error
      updatedAt := setColumn old.updatedAt now r.updatedAt
      idempotencyKey := setColumn old.idempotencyKey (key.or old.idempotencyKey) r.idempotencyKey }
    match t.get runId with
    | none => none
    | some r =>
      if key.isSome && violatesUnique t (set r) then none
      else some (t.update (fun r => r.id = runId) set fun _ => rfl)

def claimable (runId : String) (staleCutoff : ℤ) (r : AgentRun P) : Bool :=
  r.id = runId && (r.status = .pending || (r.status = .running && r.updatedAt < staleCutoff))

/-- The compare-and-set `UPDATE`; the flag is `rowcount == 1`. -/
def claimRun (t : RunTable P) (runId : String) (leaseSeconds : ℤ) (now : ℤ) : RunTable P × Bool :=
  let where_ := claimable runId (now - seconds leaseSeconds)
  (t.update where_ (fun r => { r with status := .running, updatedAt := now }) fun _ => rfl,
    t.rowcount where_ = 1)

def touchRun (t : RunTable P) (runId : String) (now : ℤ) : RunTable P :=
  t.update (fun r => r.id = runId) (fun r => { r with updatedAt := now }) fun _ => rfl

def stuck (cutoff : ℤ) (r : AgentRun P) : Bool := r.status = .running && r.updatedAt < cutoff

def stuckError (ttlSeconds : ℤ) : String :=
  "no heartbeat for >" ++ toString ttlSeconds ++ "s — presumed dead"

def sweepStuckRuns (t : RunTable P) (ttlSeconds : ℤ) (now : ℤ) : RunTable P :=
  t.update (stuck (now - seconds ttlSeconds))
    (fun r => { r with status := .failed, error := some (stuckError ttlSeconds), updatedAt := now })
    fun _ => rfl

def listNonterminalRuns (t : RunTable P) (limit : ℕ) : List (AgentRun P) :=
  ((t.rows.filter fun r => r.status ∈ nonTerminalRunStatuses).insertionSort
    fun r s => r.createdAt ≤ s.createdAt).take limit

theorem get_touchRun (t : RunTable P) (runId : String) (now : ℤ) (k : String) :
    (touchRun t runId now).get k =
      (t.get k).map fun r => if r.id = runId then { r with updatedAt := now } else r := by
  simp [touchRun, Table.get_update]

theorem get_sweepStuckRuns (t : RunTable P) (ttl : ℤ) (now : ℤ) (k : String) :
    (sweepStuckRuns t ttl now).get k = (t.get k).map fun r =>
      if stuck (now - seconds ttl) r then
        { r with status := .failed, error := some (stuckError ttl), updatedAt := now }
      else r :=
  Table.get_update _ _ _ _ _

theorem get_claimRun (t : RunTable P) (runId : String) (lease : ℤ) (now : ℤ) (k : String) :
    (claimRun t runId lease now).1.get k = (t.get k).map fun r =>
      if claimable runId (now - seconds lease) r then { r with status := .running, updatedAt := now }
      else r := by
  simp only [claimRun, Table.get_update]

theorem claimRun_won_iff (t : RunTable P) (runId : String) (lease : ℤ) (now : ℤ) :
    (claimRun t runId lease now).2 = true ↔
      ∃ r, t.get runId = some r ∧ claimable runId (now - seconds lease) r = true := by
  simp only [claimRun, decide_eq_true_eq]
  generalize now - seconds lease = cutoff
  have hcount := Table.rowcount_key t runId fun r =>
    (r.status = .pending || (r.status = .running && r.updatedAt < cutoff))
  rw [show claimable runId cutoff = fun r : AgentRun P => (r.id = runId &&
    (r.status = .pending || (r.status = .running && r.updatedAt < cutoff))) from rfl, hcount]
  cases hr : t.get runId with
  | none => simp
  | some r => simp [Table.key_of_get hr, ← or_iff_not_imp_left]

theorem claimRun_lost {t : RunTable P} {runId : String} {lease : ℤ} {now : ℤ}
    (h : (claimRun t runId lease now).2 = false) (k : String) :
    (claimRun t runId lease now).1.get k = t.get k := by
  rw [get_claimRun]
  cases hr : t.get k with
  | none => rfl
  | some r =>
    have hn : claimable runId (now - seconds lease) r = false := by
      rw [Bool.eq_false_iff]
      intro hc
      have hid : r.id = runId := by simp [claimable] at hc; exact hc.1
      have hk : k = runId := (Table.key_of_get hr).symm.trans hid
      rw [(claimRun_won_iff t runId lease now).mpr ⟨r, hk ▸ hr, hc⟩] at h
      cases h
    simp [hn]

theorem get_insertRow {t t' : RunTable P} {row : AgentRun P} (h : insertRow t row = some t') :
    t.get row.id = none ∧ ∀ k, t'.get k = if row.id = k then some row else t.get k := by
  unfold insertRow at h
  split at h
  · rename_i hnone
    split at h
    · cases h
    · cases h
      exact ⟨hnone, fun k => Table.get_insert t row hnone k⟩
  · cases h

theorem createRun_cases {t t' : RunTable P} {runId kind : String} {status : Status} {payload : P}
    {key : Option String} {now : ℤ} {record : AgentRun P}
    (h : createRun t runId kind status payload key now = some (t', record)) :
    (record = ⟨runId, kind, status, key, payload, none, now, now⟩ ∧ t.get runId = none ∧
      ∀ k, t'.get k = if runId = k then some record else t.get k) ∨ t' = t := by
  unfold createRun at h
  simp only at h
  split at h
  · rename_i t'' hi
    cases h
    obtain ⟨hnone, hget⟩ := get_insertRow hi
    exact .inl ⟨rfl, hnone, hget⟩
  · split at h
    · cases h; exact .inr rfl
    · obtain ⟨existing, _, he⟩ := Option.map_eq_some_iff.mp h
      cases he; exact .inr rfl

theorem createRun_get {t t' : RunTable P} {runId kind : String} {status : Status} {payload : P}
    {key : Option String} {now : ℤ} {record : AgentRun P}
    (h : createRun t runId kind status payload key now = some (t', record)) :
    (t'.get record.id).isSome := by
  unfold createRun at h
  simp only at h
  split at h
  · rename_i t'' hi
    cases h
    simp [(get_insertRow hi).2]
  · split at h
    · rename_i existing he
      cases h
      obtain ⟨k, _, hfind⟩ := Option.bind_eq_some_iff.mp he
      unfold getRunByIdempotencyKey at hfind
      split_ifs at hfind
      rw [Table.get_of_mem (List.mem_of_find?_eq_some hfind)]
      rfl
    · obtain ⟨existing, hg, he⟩ := Option.map_eq_some_iff.mp h
      cases he
      have hget : t.get runId = some record := hg
      rw [Table.key_of_get hget, hget]
      rfl

theorem upsertRun_existing {t : RunTable P} {runId : String} {row : AgentRun P}
    (h : t.get runId = some row) (kind : String) (status : Status) (payload : P)
    (error : Option String) (now : ℤ) :
    ∃ t', upsertRun t runId kind status payload none error now =
        some (t', { row with status, payload, error, updatedAt := now }) ∧
      ∀ k, t'.get k = if k = runId then some { row with status, payload, error, updatedAt := now }
        else t.get k := by
  simp only [upsertRun, h, Option.none_or, Option.isSome_none, Bool.false_and, Bool.false_eq_true,
    ↓reduceIte]
  refine ⟨_, rfl, fun k => ?_⟩
  rw [Table.get_update]
  by_cases hk : k = runId
  · subst hk
    simp [h, Table.key_of_get h]
  · cases hg : t.get k with
    | none => simp [hk]
    | some r => simp [hk, Table.key_of_get hg]

theorem upsertRun_row {t t' : RunTable P} {runId kind : String} {status : Status} {payload : P}
    {key error : Option String} {now : ℤ} {record : AgentRun P}
    (h : upsertRun t runId kind status payload key error now = some (t', record)) :
    record.id = runId ∧ record.status = status ∧ record.payload = payload ∧
      record.kind = ((t.get runId).map AgentRun.kind).getD kind ∧
      record.idempotencyKey = key.or ((t.get runId).bind AgentRun.idempotencyKey) ∧
      ∀ k, t'.get k = if runId = k then some record else t.get k := by
  unfold upsertRun at h
  split at h
  · rename_i hnone
    obtain ⟨t'', hi, he⟩ := Option.map_eq_some_iff.mp h
    cases he
    exact ⟨rfl, rfl, rfl, by simp [hnone], by simp [hnone], (get_insertRow hi).2⟩
  · rename_i old hold
    have hid : old.id = runId := Table.key_of_get hold
    simp only at h
    split_ifs at h
    cases h
    refine ⟨hid, rfl, rfl, by simp [hold], by simp [hold], fun k => ?_⟩
    rw [Table.get_update]
    by_cases hk : runId = k
    · subst hk
      rw [hold, Option.map_some, if_pos (by simp [hid]), if_pos rfl]
    · rw [if_neg hk]
      cases hg : t.get k with
      | none => rfl
      | some r => simp [Table.key_of_get hg, Ne.symm hk]

section Commit

variable [DecidableEq P] {t t' : RunTable P} {seen : Option (AgentRun P)} {runId kind : String}
  {status : Status} {payload : P} {key error : Option String} {now : ℤ}

theorem commitRun_current : commitRun t (t.get runId) runId kind status payload key error now =
    (upsertRun t runId kind status payload key error now).map Prod.fst := by
  have hset : ∀ {A : Type} [DecidableEq A] (seen new : A), setColumn seen new seen = new := by
    intro A _ seen new
    unfold setColumn
    split_ifs with h
    · exact h.symm
    · rfl
  unfold commitRun upsertRun
  cases hold : t.get runId with
  | none => simp [Option.map_map, Function.comp_def]
  | some old =>
    have hid : old.id = runId := Table.key_of_get hold
    simp only [hset]
    split_ifs with hv
    · rfl
    · simp only [Option.map_some, Option.some.injEq, Table.update, Table.mk.injEq]
      apply List.map_congr_left
      intro r hr
      by_cases hk : r.id = runId
      · obtain rfl : r = old := Option.some.inj ((Table.get_of_mem hr).symm.trans (hk ▸ hold))
        simp [hset]
      · simp [hk]

theorem commitRun_row (h : commitRun t seen runId kind status payload key error now = some t') :
    (∀ k, k ≠ runId → t'.get k = t.get k) ∧ ∃ row, t'.get runId = some row ∧
      (row.payload = payload ∨ ∃ old r, seen = some old ∧ t.get runId = some r ∧
        old.payload = payload ∧ row.payload = r.payload) := by
  unfold commitRun at h
  split at h
  · obtain ⟨_, hget⟩ := get_insertRow h
    refine ⟨fun k hk => by rw [hget, if_neg (Ne.symm hk)], _, by rw [hget, if_pos rfl], .inl rfl⟩
  · rename_i old
    simp only at h
    split at h
    · cases h
    · rename_i r hr
      split_ifs at h
      cases h
      have hid : r.id = runId := Table.key_of_get hr
      refine ⟨fun k hk => ?_, _, by rw [Table.get_update, hr, Option.map_some, if_pos (by simp [hid])], ?_⟩
      · rw [Table.get_update]
        cases hg : t.get k with
        | none => rfl
        | some q => simp [Table.key_of_get hg, hk]
      · by_cases hp : payload = old.payload
        · exact .inr ⟨old, r, rfl, hr, hp.symm, by simp [setColumn, hp]⟩
        · exact .inl (by simp [setColumn, hp])

/-- Without a key a commit fails only when the run was inserted or deleted since it looked. -/
theorem commitRun_isSome (hs : seen.isSome = (t.get runId).isSome) :
    (commitRun t seen runId kind status payload none error now).isSome := by
  unfold commitRun
  cases hr : t.get runId with
  | none =>
    obtain rfl : seen = none := by simpa [hr] using hs
    simp [insertRow, hr, violatesUnique]
  | some r =>
    obtain ⟨old, rfl⟩ := Option.isSome_iff_exists.mp (hs.trans (by rw [hr]; rfl))
    simp

end Commit

end Workbench.RunStore
