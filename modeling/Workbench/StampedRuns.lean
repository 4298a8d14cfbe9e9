import Workbench.RunStore
import Workbench.Timestamps

/-!
The `agent_runs` table as it is stored, with its timestamps as texts, and the two updates that
compare them. The table whose timestamps are instants is what it stands for.
-/

namespace Workbench.StampedRuns

open KeyedTable RunStore Timestamps

structure StampedRun (P : Type) where
  id : String
  kind : String
  status : Status
  idempotencyKey : Option String
  payload : P
  error : Option String
  createdAt : String
  updatedAt : String

variable {P : Type}

abbrev StampedTable (P : Type) := Table (StampedRun.id (P := P))

def StampedRun.claimable (runId staleCutoff : String) (r : StampedRun P) : Bool :=
  r.id = runId && (r.status = .pending || (r.status = .running && r.updatedAt < staleCutoff))

/-- `none` is an `OverflowError`. -/
def claimRun (t : StampedTable P) (runId : String) (leaseSeconds : ℤ) (now : DateTime) :
    Option (StampedTable P × Bool) :=
  (now.minus (seconds leaseSeconds)).map fun cutoff =>
    let where_ := StampedRun.claimable runId (fmt cutoff)
    (t.update where_ (fun r => { r with status := .running, updatedAt := fmt now }) fun _ => rfl,
      t.rowcount where_ = 1)

def StampedRun.stuck (cutoff : String) (r : StampedRun P) : Bool :=
  r.status = .running && r.updatedAt < cutoff

/-- The clock is read once for the cutoff and once for the new heartbeat. -/
def sweepStuckRuns (t : StampedTable P) (ttlSeconds : ℤ) (now later : DateTime) :
    Option (StampedTable P × ℕ) :=
  (now.minus (seconds ttlSeconds)).map fun cutoff =>
    let where_ := StampedRun.stuck (fmt cutoff)
    (t.update where_ (fun r => { r with
      status := .failed
      error := some (stuckError ttlSeconds)
      updatedAt := fmt later }) fun _ => rfl, t.rowcount where_)

def Stamps (text : String) (time : ℤ) : Prop :=
  ∃ d : DateTime, d.FourDigits ∧ text = fmt d ∧ time = d.instant

structure Shows (r : StampedRun P) (q : AgentRun P) : Prop where
  id : r.id = q.id
  kind : r.kind = q.kind
  status : r.status = q.status
  idempotencyKey : r.idempotencyKey = q.idempotencyKey
  payload : r.payload = q.payload
  error : r.error = q.error
  createdAt : Stamps r.createdAt q.createdAt
  updatedAt : Stamps r.updatedAt q.updatedAt

def Mirrors (t : StampedTable P) (u : RunTable P) : Prop := List.Forall₂ Shows t.rows u.rows

theorem Stamps.lt_iff {text text' : String} {time time' : ℤ} (h : Stamps text time)
    (h' : Stamps text' time') : text < text' ↔ time < time' := by
  obtain ⟨d, hd, rfl, rfl⟩ := h
  obtain ⟨e, he, rfl, rfl⟩ := h'
  rw [fmt_lt_iff hd he, Int.ofNat_lt]

theorem stamps_minus {now cutoff : DateTime} {n : ℤ} (h : now.minus (seconds n) = some cutoff)
    (hc : cutoff.FourDigits) : Stamps (fmt cutoff) (now.instant - seconds n) :=
  ⟨cutoff, hc, rfl, (DateTime.minus_eq_some.mp h).symm⟩

theorem Shows.claimable {r : StampedRun P} {q : AgentRun P} (h : Shows r q) {text : String}
    {time : ℤ} (hc : Stamps text time) (runId : String) :
    r.claimable runId text = RunStore.claimable runId time q := by
  have hlt := h.updatedAt.lt_iff hc
  simp only [StampedRun.claimable, RunStore.claimable, h.id, h.status, hlt]

theorem Shows.stuck {r : StampedRun P} {q : AgentRun P} (h : Shows r q) {text : String} {time : ℤ}
    (hc : Stamps text time) : r.stuck text = RunStore.stuck time q := by
  have hlt := h.updatedAt.lt_iff hc
  simp only [StampedRun.stuck, RunStore.stuck, h.status, hlt]

section Tables

variable {t : StampedTable P} {u : RunTable P} {p : StampedRun P → Bool} {q : AgentRun P → Bool}

theorem Mirrors.rowcount (h : Mirrors t u) (hp : ∀ r s, Shows r s → p r = q s) :
    t.rowcount p = u.rowcount q := by
  obtain ⟨rows, hrows⟩ := t
  obtain ⟨rows', hrows'⟩ := u
  change List.Forall₂ Shows rows rows' at h
  change rows.countP p = rows'.countP q
  clear hrows hrows'
  induction h with
  | nil => rfl
  | cons hrow _ ih => rw [List.countP_cons, List.countP_cons, hp _ _ hrow, ih]

theorem Mirrors.update (h : Mirrors t u) (hp : ∀ r s, Shows r s → p r = q s)
    {f : StampedRun P → StampedRun P} {g : AgentRun P → AgentRun P}
    (hfg : ∀ r s, Shows r s → Shows (f r) (g s)) (hf : ∀ r, (f r).id = r.id)
    (hg : ∀ s, (g s).id = s.id) :
    Mirrors (t.update p f hf) (u.update q g hg) := by
  unfold Mirrors Table.update
  rw [List.forall₂_map_left_iff, List.forall₂_map_right_iff]
  apply h.imp
  intro r s hrow
  rw [hp r s hrow]
  cases q s with
  | false => exact hrow
  | true => exact hfg r s hrow

theorem claimRun_mirrors (h : Mirrors t u) {now cutoff : DateTime} {lease : ℤ}
    (hm : now.minus (seconds lease) = some cutoff) (hc : cutoff.FourDigits) (hn : now.FourDigits)
    (runId : String) : ∃ t', claimRun t runId lease now =
      some (t', (RunStore.claimRun u runId lease now.instant).2) ∧
      Mirrors t' (RunStore.claimRun u runId lease now.instant).1 := by
  have hp (r : StampedRun P) (s : AgentRun P) (hrow : Shows r s) :=
    hrow.claimable (stamps_minus hm hc) runId
  have hset (r : StampedRun P) (s : AgentRun P) (hrow : Shows r s) :
      Shows { r with status := .running, updatedAt := fmt now }
        { s with status := .running, updatedAt := now.instant } :=
    { hrow with status := rfl, updatedAt := ⟨now, hn, rfl, rfl⟩ }
  refine ⟨_, ?_, h.update hp hset (fun _ => rfl) fun _ => rfl⟩
  simp only [claimRun, RunStore.claimRun, hm, Option.map_some, h.rowcount hp]

theorem sweepStuckRuns_mirrors (h : Mirrors t u) {now cutoff later : DateTime} {ttl : ℤ}
    (hm : now.minus (seconds ttl) = some cutoff) (hc : cutoff.FourDigits) (hl : later.FourDigits) :
    ∃ t', sweepStuckRuns t ttl now later =
      some (t', u.rowcount (stuck (now.instant - seconds ttl))) ∧
      Mirrors t' (u.update (stuck (now.instant - seconds ttl)) (fun s => { s with
        status := .failed
        error := some (stuckError ttl)
        updatedAt := later.instant }) fun _ => rfl) := by
  have hp (r : StampedRun P) (s : AgentRun P) (hrow : Shows r s) :=
    hrow.stuck (stamps_minus hm hc)
  have hset (r : StampedRun P) (s : AgentRun P) (hrow : Shows r s) :
      Shows { r with status := .failed, error := some (stuckError ttl), updatedAt := fmt later }
        { s with
          status := .failed, error := some (stuckError ttl), updatedAt := later.instant } :=
    { hrow with status := rfl, error := rfl, updatedAt := ⟨later, hl, rfl, rfl⟩ }
  refine ⟨_, ?_, h.update hp hset (fun _ => rfl) fun _ => rfl⟩
  simp only [sweepStuckRuns, hm, Option.map_some, h.rowcount hp]

end Tables

theorem stamps_chronological :
    (∀ a b : DateTime, a.FourDigits → b.FourDigits → (fmt a).length = (fmt b).length ∧
      (fmt a < fmt b ↔ a.instant < b.instant) ∧ (fmt a = fmt b ↔ a.instant = b.instant)) ∧
    ∀ (row : StampedRun P) (stored now cutoff : DateTime) (n : ℤ), stored.FourDigits →
      cutoff.FourDigits → row.updatedAt = fmt stored → now.minus (seconds n) = some cutoff →
      (∀ runId, row.claimable runId (fmt cutoff) = true ↔ row.id = runId ∧
        (row.status = .pending ∨
          row.status = .running ∧ (stored.instant : ℤ) < now.instant - seconds n)) ∧
      (row.stuck (fmt cutoff) = true ↔
        row.status = .running ∧ (stored.instant : ℤ) < now.instant - seconds n) := by
  constructor
  · intro a b ha hb
    refine ⟨by rw [length_fmt ha, length_fmt hb], fmt_lt_iff ha hb, ?_⟩
    constructor
    · intro h
      rw [fmt_inj ha hb h]
    · intro h
      rw [DateTime.instant_inj h]
  · intro row stored now cutoff n hs hc hrow hm
    have hlt : row.updatedAt < fmt cutoff ↔ (stored.instant : ℤ) < now.instant - seconds n :=
      Stamps.lt_iff ⟨stored, hs, hrow, rfl⟩ (stamps_minus hm hc)
    constructor
    · intro runId
      simp [StampedRun.claimable, hlt]
    · simp [StampedRun.stuck, hlt]

theorem june_year : 1 ≤ 2026 ∧ 2026 ≤ 9999 := by decide

theorem june_month : 1 ≤ 6 ∧ 6 ≤ 12 := by decide

theorem june_day : 1 ≤ 21 ∧ 21 ≤ (monthLengths 2026).getD (6 - 1) 0 := by decide

theorem june_hour : 12 < 24 := by decide

theorem june_minute : 0 < 60 := by decide

theorem june_second (n : ℕ) : n / 1000000 % 60 < 60 := Nat.mod_lt _ june_minute

theorem june_microsecond (n : ℕ) : n % 1000000 < 1000000 := Nat.mod_lt _ (Nat.succ_pos 999999)

def june (n : ℕ) : DateTime :=
  ⟨2026, 6, 21, 12, 0, n / 1000000 % 60, n % 1000000, june_year, june_month, june_day, june_hour,
    june_minute, june_second n, june_microsecond n⟩

def juneRun (n : ℕ) : StampedRun Unit :=
  ⟨"r", "echo", .running, none, (), none, fmt (june n), fmt (june n)⟩

theorem stamps_chronological_june :
    fmt (june 54999999) < fmt (june 55000000) ∧
      ∃ cutoff, (june 56000000).minus (seconds 1) = some cutoff ∧
        (juneRun 54999999).stuck (fmt cutoff) = true := by
  have hyear (n : ℕ) : (june n).FourDigits := by
    change 1000 ≤ 2026
    omega
  have hdays (m n : ℕ) : (june m).days = (june n).days := rfl
  have hminus : (june 56000000).minus (seconds 1) = some (june 55000000) := by
    rw [DateTime.minus_eq_some, DateTime.instant, DateTime.instant, hdays 55000000 56000000]
    simp only [june, seconds]
    omega
  obtain ⟨horder, htests⟩ := stamps_chronological (P := Unit)
  obtain ⟨-, hlt, -⟩ := horder (june 54999999) (june 55000000) (hyear _) (hyear _)
  have hstuck := (htests (juneRun 54999999) (june 54999999) (june 56000000) (june 55000000) 1
    (hyear _) (hyear _) rfl hminus).2
  refine ⟨hlt.mpr ?_, _, hminus, hstuck.mpr ⟨rfl, ?_⟩⟩
  · rw [DateTime.instant, DateTime.instant, hdays 54999999 55000000]
    simp only [june]
    omega
  · rw [DateTime.instant, DateTime.instant, hdays 54999999 56000000]
    simp only [june, seconds]
    omega

end Workbench.StampedRuns
