/-
  EcuTelemetry.Backend.Rollup

  The telemetry tables of backend/app/db.py: samples wait in a buffer, `flush`
  moves them to the raw table, `rollup` aggregates the complete minutes of the
  raw table and advances the mark up to which it has come.

  `flush` and `rollup` run on other threads.  Each takes two steps, between
  which anything else can happen: `flush` takes the buffer and then inserts the
  rows, `rollup` reads the clock and the mark and then writes.

  `buffered` is a history variable: every sample that was buffered.
-/

import Mathlib.Algebra.BigOperators.Group.List.Basic
import Mathlib.Data.List.Dedup
import Mathlib.Data.Rat.Floor
import Mathlib.Tactic.Linarith
import Mathlib.Tactic.NormNum
import EcuTelemetry.Lib.Dict
import EcuTelemetry.Lib.Run

namespace EcuTelemetry.Backend

/-! ## Rows -/

/-- A row of `telemetry`; a NaN is NULL. -/
structure TelemetryRow where
  deviceId : String
  ts : ℚ
  seq : Nat := 0
  rpm : Option ℚ := none
  tempC : Option ℚ := none
  currentA : Option ℚ := none
  voltageV : Option ℚ := none
  vibrationG : Option ℚ := none
  speedKph : Option ℚ := none
  lat : Option ℚ := none
  lon : Option ℚ := none
  faultFlags : Nat := 0
  state : Nat := 0
deriving DecidableEq

/-- `METRICS`. -/
def METRICS : List (TelemetryRow → Option ℚ) :=
  [TelemetryRow.rpm, TelemetryRow.tempC, TelemetryRow.currentA, TelemetryRow.voltageV,
   TelemetryRow.vibrationG, TelemetryRow.speedKph]

/-- `CAST(x AS INTEGER)`, and `int(x)`: the fraction is cut off. -/
def castInt (x : ℚ) : ℤ := if x < 0 then ⌈x⌉ else ⌊x⌋

/-- `CAST(ts/60 AS INTEGER)*60`. -/
def minuteOf (ts : ℚ) : ℤ := castInt (ts / 60) * 60

/-- The group of a row in `GROUP BY device_id, 2`. -/
def TelemetryRow.key (r : TelemetryRow) : String × ℤ := (r.deviceId, minuteOf r.ts)

/-! ## Aggregates -/

/-- `AVG`, over the values that are not NULL. -/
def avg (xs : List (Option ℚ)) : Option ℚ :=
  let ys := xs.filterMap id
  if ys = [] then none else some (ys.sum / ys.length)

/-- `MIN` and `MAX`, over the values that are not NULL. -/
def extremum (pick : ℚ → ℚ → ℚ) (xs : List (Option ℚ)) : Option ℚ :=
  (xs.filterMap id).foldr (fun x best => some (best.elim x (pick x))) none

/-- A row of `telemetry_rollup_1m` without its key. -/
structure Bucket where
  n : Nat
  /-- average, minimum and maximum for each metric -/
  metrics : List (Option ℚ × Option ℚ × Option ℚ)
  faultFlagsAny : Nat
  stateMax : Nat
  lat : Option ℚ
  lon : Option ℚ
deriving DecidableEq

/-- The select list of `rollup` on one group. -/
def aggregate (rows : List TelemetryRow) : Bucket where
  n := rows.length
  metrics := METRICS.map fun m =>
    (avg (rows.map m), extremum min (rows.map m), extremum max (rows.map m))
  faultFlagsAny := (rows.map TelemetryRow.faultFlags).foldr max 0
  stateMax := (rows.map TelemetryRow.state).foldr max 0
  lat := avg (rows.map TelemetryRow.lat)
  lon := avg (rows.map TelemetryRow.lon)

/-- The bucket a group of rows should have; an empty group has none. -/
def bucketOf (rows : List TelemetryRow) (key : String × ℤ) : Option Bucket :=
  let group := rows.filter (·.key = key)
  if group = [] then none else some (aggregate group)

/-! ## State -/

structure TelemetryStore where
  telBuf : List TelemetryRow := []
  /-- the rows `flush` has taken and not inserted, one batch for each call -/
  taken : List (List TelemetryRow) := []
  telemetry : List TelemetryRow := []
  rollups : Dict (String × ℤ) Bucket := []
  /-- `rollup_upto` -/
  rollupUpto : Option ℤ := none
  /-- the `(start, end)` of the `rollup` calls that have not written yet -/
  rolling : List (ℤ × ℤ) := []
  /-- the last reading of the clock -/
  clock : ℚ := 0
  buffered : List TelemetryRow := []

/-- A step of some thread. -/
inductive StoreEvent
  /-- `buffer_telemetry`, with the time as the row's time stamp -/
  | buffer (row : TelemetryRow)
  /-- `flush` takes the buffer -/
  | take
  /-- `flush` inserts what it took -/
  | insert (i : Nat)
  /-- `rollup` reads the clock and the mark -/
  | rollup (now : ℚ)
  /-- `rollup` writes the buckets and the mark -/
  | write (i : Nat)

namespace TelemetryStore

/-- `(int(upto) // 60) * 60`. -/
def cutoff (upto : ℚ) : ℤ := castInt upto / 60 * 60

/-- `start = float(last["value"]) if last else 0.0`. -/
def start (s : TelemetryStore) : ℤ := s.rollupUpto.getD 0

/-- `INSERT OR REPLACE INTO telemetry_rollup_1m SELECT .. GROUP BY device_id, 2`. -/
def insertBuckets (rollups : Dict (String × ℤ) Bucket) (rows : List TelemetryRow) :
    Dict (String × ℤ) Bucket :=
  (rows.map TelemetryRow.key).dedup.foldl
    (fun d key => Dict.set d key (aggregate (rows.filter (·.key = key)))) rollups

def step (s : TelemetryStore) : StoreEvent → TelemetryStore
  | .buffer row =>
    { s with telBuf := s.telBuf ++ [row], buffered := s.buffered ++ [row], clock := row.ts }
  | .take => if s.telBuf = [] then s else { s with telBuf := [], taken := s.taken ++ [s.telBuf] }
  | .insert i =>
    match s.taken[i]? with
    | some rows => { s with telemetry := s.telemetry ++ rows, taken := s.taken.eraseIdx i }
    | none => s
  | .rollup now =>
    -- only complete minutes
    if cutoff now ≤ s.start then { s with clock := now }
    else { s with clock := now, rolling := s.rolling ++ [(s.start, cutoff now)] }
  | .write i =>
    match s.rolling[i]? with
    | some (from', upto) =>
      let rows := s.telemetry.filter fun r => (from' : ℚ) ≤ r.ts ∧ r.ts < (upto : ℚ)
      { s with rollups := insertBuckets s.rollups rows, rollupUpto := some upto,
               rolling := s.rolling.eraseIdx i }
    | none => s

/-- The rows that are not in the raw table yet. -/
def waiting (s : TelemetryStore) : List TelemetryRow := s.taken.flatten ++ s.telBuf

/-- The clock does not go back. -/
def Clocked (s : TelemetryStore) : StoreEvent → Prop
  | .buffer row => s.clock ≤ row.ts
  | .rollup now => s.clock ≤ now
  | _ => True

/-- When a `rollup` writes, no row of the minutes it covers waits. -/
def Covered (s : TelemetryStore) : StoreEvent → Prop
  | .write i => ∀ c ∈ s.rolling[i]?, ∀ r ∈ s.waiting, (c.2 : ℚ) ≤ r.ts
  | _ => True

instance (s : TelemetryStore) (e : StoreEvent) : Decidable (s.Clocked e) := by
  cases e <;> unfold Clocked <;> infer_instance

instance (s : TelemetryStore) (e : StoreEvent) : Decidable (s.Covered e) := by
  cases e <;> unfold Covered <;> infer_instance

/-- Once nothing waits, every minute before the mark has the bucket of all rows
    that were buffered in it. -/
def RollupsRight (s : TelemetryStore) : Prop :=
  s.waiting = [] → ∀ dev m, 60 ∣ m → m + 60 ≤ s.start →
    Dict.get? s.rollups (dev, m) = bucketOf s.buffered (dev, m)

end TelemetryStore

/-! ## Minutes -/

theorem castInt_of_nonneg {x : ℚ} (h : 0 ≤ x) : castInt x = ⌊x⌋ := if_neg (not_lt.mpr h)

/-- The minute of a time is the whole minute at or before it. -/
theorem minuteOf_spec {ts : ℚ} (h : 0 ≤ ts) :
    60 ∣ minuteOf ts ∧ (minuteOf ts : ℚ) ≤ ts ∧ ts < minuteOf ts + 60 := by
  have hdiv : 0 ≤ ts / 60 := by positivity
  rw [minuteOf, castInt_of_nonneg hdiv]
  have hle := Int.floor_le (ts / 60)
  have hlt := Int.lt_floor_add_one (ts / 60)
  refine ⟨Int.dvd_mul_left _ _, ?_, ?_⟩ <;>
  · push_cast
    linarith

theorem TelemetryStore.cutoff_spec {now : ℚ} (h : 0 ≤ now) :
    60 ∣ cutoff now ∧ (cutoff now : ℚ) ≤ now := by
  rw [cutoff, castInt_of_nonneg h]
  refine ⟨Int.dvd_mul_left _ _, le_trans ?_ (Int.floor_le now)⟩
  exact_mod_cast Int.ediv_mul_le ⌊now⌋ (by norm_num)

/-- Between two whole minutes a row lies with its minute or not at all. -/
theorem range_iff_minute {ts : ℚ} (h : 0 ≤ ts) {from' upto : ℤ} (hfrom : 60 ∣ from')
    (hupto : 60 ∣ upto) :
    ((from' : ℚ) ≤ ts ∧ ts < (upto : ℚ)) ↔ from' ≤ minuteOf ts ∧ minuteOf ts + 60 ≤ upto := by
  obtain ⟨hdvd, hle, hlt⟩ := minuteOf_spec h
  constructor
  · rintro ⟨h1, h2⟩
    have h3 : from' < minuteOf ts + 60 := by
      have h3 := lt_of_le_of_lt h1 hlt
      exact_mod_cast h3
    have h4 : minuteOf ts < upto := by exact_mod_cast lt_of_le_of_lt hle h2
    omega
  · rintro ⟨h1, h2⟩
    refine ⟨le_trans (by exact_mod_cast h1) hle, lt_of_lt_of_le hlt ?_⟩
    exact_mod_cast h2

/-! ## Aggregates of permuted rows -/

section Perm

variable {rows rows' : List TelemetryRow}

theorem avg_perm {xs ys : List (Option ℚ)} (h : xs.Perm ys) : avg xs = avg ys := by
  have hvalues := h.filterMap id
  have hnil : xs.filterMap id = [] ↔ ys.filterMap id = [] := by
    rw [← List.length_eq_zero_iff, hvalues.length_eq, List.length_eq_zero_iff]
  simp only [avg, hnil, hvalues.sum_eq, hvalues.length_eq]

/-- Minimum and maximum do not depend on the order of the rows. -/
theorem extremum_perm {pick : ℚ → ℚ → ℚ} (hcomm : ∀ x y, pick x y = pick y x)
    (hassoc : ∀ x y z, pick (pick x y) z = pick x (pick y z)) {xs ys : List (Option ℚ)}
    (h : xs.Perm ys) : extremum pick xs = extremum pick ys := by
  have hleft : LeftCommutative fun (x : ℚ) (best : Option ℚ) => some (best.elim x (pick x)) := by
    refine ⟨fun x y best => ?_⟩
    cases best with
    | none => simp [hcomm x y]
    | some z =>
      simp only [Option.elim_some]
      rw [← hassoc, ← hassoc, hcomm x y]
  exact (h.filterMap id).foldr_eq none

/-- Neither does any column of a bucket. -/
theorem aggregate_perm (h : rows.Perm rows') : aggregate rows = aggregate rows' := by
  have havg : ∀ m : TelemetryRow → Option ℚ, avg (rows.map m) = avg (rows'.map m) := fun m =>
    avg_perm (h.map m)
  have hmin : ∀ m : TelemetryRow → Option ℚ,
      extremum min (rows.map m) = extremum min (rows'.map m) := fun m =>
    extremum_perm min_comm min_assoc (h.map m)
  have hmax : ∀ m : TelemetryRow → Option ℚ,
      extremum max (rows.map m) = extremum max (rows'.map m) := fun m =>
    extremum_perm max_comm max_assoc (h.map m)
  have hnat : ∀ m : TelemetryRow → Nat, (rows.map m).foldr max 0 = (rows'.map m).foldr max 0 :=
    fun m => (h.map m).foldr_eq 0
  simp only [aggregate, h.length_eq, havg, hmin, hmax, hnat]

theorem bucketOf_perm (h : rows.Perm rows') (key : String × ℤ) :
    bucketOf rows key = bucketOf rows' key := by
  have hgroup := h.filter fun r => decide (r.key = key)
  have hnil : rows.filter (·.key = key) = [] ↔ rows'.filter (·.key = key) = [] := by
    rw [← List.length_eq_zero_iff, hgroup.length_eq, List.length_eq_zero_iff]
  simp only [bucketOf, hnil, aggregate_perm hgroup]

end Perm

theorem bucketOf_eq_none {rows : List TelemetryRow} {key : String × ℤ}
    (h : ∀ r ∈ rows, r.key ≠ key) : bucketOf rows key = none := by
  have hnil : rows.filter (·.key = key) = [] :=
    List.filter_eq_nil_iff.mpr fun r hr hkey => h r hr (by simpa using hkey)
  rw [bucketOf]
  exact if_pos hnil

/-- Rows of other groups do not count. -/
theorem bucketOf_filter {rows : List TelemetryRow} {key : String × ℤ} {p : TelemetryRow → Bool}
    (h : ∀ r ∈ rows, r.key = key → p r) : bucketOf (rows.filter p) key = bucketOf rows key := by
  have hgroup : (rows.filter p).filter (·.key = key) = rows.filter (·.key = key) := by
    rw [List.filter_filter]
    refine List.filter_congr fun r hr => ?_
    by_cases hkey : r.key = key
    · simp [hkey, h r hr hkey]
    · simp [hkey]
  simp only [bucketOf, hgroup]

/-- The rows of a whole minute, found by their times. -/
theorem bucketOf_range {rows : List TelemetryRow} (hrows : ∀ r ∈ rows, 0 ≤ r.ts) {from' upto : ℤ}
    (hfrom : 60 ∣ from') (hupto : 60 ∣ upto) (dev : String) (m : ℤ) :
    bucketOf (rows.filter fun r => (from' : ℚ) ≤ r.ts ∧ r.ts < (upto : ℚ)) (dev, m) =
      if from' ≤ m ∧ m + 60 ≤ upto then bucketOf rows (dev, m) else none := by
  have hin : ∀ r ∈ rows, r.key = (dev, m) →
      (((from' : ℚ) ≤ r.ts ∧ r.ts < (upto : ℚ)) ↔ from' ≤ m ∧ m + 60 ≤ upto) := by
    intro r hr hkey
    have hm : minuteOf r.ts = m := congrArg Prod.snd hkey
    exact hm ▸ range_iff_minute (hrows r hr) hfrom hupto
  split
  · next h => exact bucketOf_filter fun r hr hkey => decide_eq_true ((hin r hr hkey).mpr h)
  · next h =>
    refine bucketOf_eq_none fun r hr hkey => h ?_
    obtain ⟨hr, hrange⟩ := List.mem_filter.mp hr
    exact (hin r hr hkey).mp (of_decide_eq_true hrange)

namespace TelemetryStore

/-- The groups in the rows get their buckets, the others keep theirs. -/
theorem get?_insertBuckets (rollups : Dict (String × ℤ) Bucket) (rows : List TelemetryRow)
    (key : String × ℤ) :
    Dict.get? (insertBuckets rollups rows) key =
      (bucketOf rows key).or (Dict.get? rollups key) := by
  -- a bucket is written under each key, the last write of a key counts
  have hfold : ∀ (keys : List (String × ℤ)) (d : Dict (String × ℤ) Bucket),
      Dict.get? (keys.foldl (fun d k => Dict.set d k (aggregate (rows.filter (·.key = k)))) d) key =
        if key ∈ keys then some (aggregate (rows.filter (·.key = key))) else Dict.get? d key := by
    intro keys
    induction keys with
    | nil => intro d; rfl
    | cons k keys ih =>
      intro d
      rw [List.foldl_cons, ih]
      by_cases hmem : key ∈ keys
      · rw [if_pos hmem, if_pos (List.mem_cons_of_mem k hmem)]
      · rw [if_neg hmem]
        by_cases hk : k = key
        · subst hk
          rw [Dict.get?_set_self (.of_lawful k), if_pos List.mem_cons_self]
        · rw [Dict.get?_set_ne (.of_lawful k) (.of_lawful key) hk, if_neg]
          exact fun h => (List.mem_cons.mp h).elim (fun h => hk h.symm) hmem
  have hmem : key ∈ (rows.map TelemetryRow.key).dedup ↔ rows.filter (·.key = key) ≠ [] := by
    rw [List.mem_dedup, List.mem_map, Ne, List.filter_eq_nil_iff]
    simp
  rw [insertBuckets, hfold, bucketOf]
  by_cases hnil : rows.filter (·.key = key) = []
  · rw [if_neg (fun h => hmem.mp h hnil)]
    simp only [hnil]
    rfl
  · rw [if_pos (hmem.mpr hnil)]
    simp only [hnil]
    rfl

/-! ## The invariant -/

/-- Every mark was below `high`, and every minute before `high` is rolled up. -/
structure Rolled (s : TelemetryStore) (high : ℤ) : Prop where
  rows : (s.telemetry ++ s.waiting).Perm s.buffered
  times : ∀ r ∈ s.buffered, 0 ≤ r.ts
  fresh : ∀ r ∈ s.waiting, (high : ℚ) ≤ r.ts
  clock : 0 ≤ s.clock ∧ (high : ℚ) ≤ s.clock
  start : s.start ≤ high ∧ 60 ∣ s.start
  rolling : ∀ c ∈ s.rolling, c.1 ≤ high ∧ (c.2 : ℚ) ≤ s.clock ∧ 60 ∣ c.1 ∧ 60 ∣ c.2
  before : ∀ dev m, 60 ∣ m → m + 60 ≤ high →
    Dict.get? s.rollups (dev, m) = bucketOf s.telemetry (dev, m)
  beyond : ∀ dev m, 60 ∣ m → high < m + 60 → Dict.get? s.rollups (dev, m) = none

variable {s : TelemetryStore} {high : ℤ}

/-- Empty tables. -/
theorem rolled_init : Rolled {} 0 where
  rows := .refl []
  times _ h := absurd h List.not_mem_nil
  fresh _ h := absurd h List.not_mem_nil
  clock := ⟨le_refl 0, by norm_num⟩
  start := ⟨le_refl 0, Int.dvd_zero 60⟩
  rolling _ h := absurd h List.not_mem_nil
  before _ _ _ _ := rfl
  beyond _ _ _ _ := rfl

/-- A row lies in its minute. -/
theorem Rolled.of_key (h : Rolled s high) {r : TelemetryRow} (hr : r ∈ s.buffered)
    {dev : String} {m : ℤ} (hkey : r.key = (dev, m)) : (m : ℚ) ≤ r.ts ∧ r.ts < (m + 60 : ℤ) := by
  obtain ⟨-, hle, hlt⟩ := minuteOf_spec (h.times r hr)
  have hm : minuteOf r.ts = m := congrArg Prod.snd hkey
  rw [hm] at hle hlt
  exact ⟨hle, by push_cast; exact hlt⟩

/-- A sample waits in the buffer, in a minute not rolled up yet. -/
theorem Rolled.buffer (h : Rolled s high) {row : TelemetryRow} (hclock : s.clock ≤ row.ts) :
    Rolled (s.step (.buffer row)) high := by
  -- the sample is not older than the last clock reading
  have hhigh := le_trans h.clock.2 hclock
  have hpos := le_trans h.clock.1 hclock
  have hwaiting : (s.step (.buffer row)).waiting = s.waiting ++ [row] :=
    (List.append_assoc _ _ _).symm
  refine { h with rows := ?_, times := ?_, fresh := ?_, clock := ⟨hpos, hhigh⟩, rolling := ?_ }
  · rw [hwaiting, ← List.append_assoc]
    exact h.rows.append_right [row]
  · intro r hr
    rcases List.mem_append.mp hr with hr | hr
    · exact h.times r hr
    · rw [List.mem_singleton.mp hr]
      exact hpos
  · intro r hr
    rw [hwaiting] at hr
    rcases List.mem_append.mp hr with hr | hr
    · exact h.fresh r hr
    · rw [List.mem_singleton.mp hr]
      exact hhigh
  · intro c hc
    obtain ⟨h1, h2, h3⟩ := h.rolling c hc
    exact ⟨h1, le_trans h2 hclock, h3⟩

/-- A flush takes the buffer. -/
theorem Rolled.take (h : Rolled s high) : Rolled (s.step .take) high := by
  rw [step]
  split
  · exact h
  · have hwaiting : TelemetryStore.waiting { s with telBuf := [], taken := s.taken ++ [s.telBuf] } =
        s.waiting := by simp [waiting]
    refine { h with rows := ?_, fresh := ?_ }
    · rw [hwaiting]
      exact h.rows
    · rw [hwaiting]
      exact h.fresh

/-- The inserted rows are of minutes from `high` on. -/
theorem Rolled.insert (h : Rolled s high) (i : Nat) : Rolled (s.step (.insert i)) high := by
  rw [step]
  split
  · next batch hbatch =>
    have hperm : s.taken.Perm (batch :: s.taken.eraseIdx i) := by
      obtain ⟨hi, rfl⟩ := List.getElem?_eq_some_iff.mp hbatch
      exact (List.getElem_cons_eraseIdx_perm hi).symm
    -- the batch leaves those that wait and joins the stored rows
    have hwaiting : s.waiting.Perm (batch ++ ((s.taken.eraseIdx i).flatten ++ s.telBuf)) := by
      rw [← List.append_assoc]
      exact (hperm.flatten).append_right s.telBuf
    have hrows : ((s.telemetry ++ batch) ++ ((s.taken.eraseIdx i).flatten ++ s.telBuf)).Perm
        s.buffered := by
      rw [List.append_assoc]
      exact (hwaiting.symm.append_left s.telemetry).trans h.rows
    refine { h with rows := hrows, fresh := ?_, before := ?_ }
    · exact fun r hr => h.fresh r (hwaiting.mem_iff.mpr (List.mem_append_right batch hr))
    · intro dev m hm hle
      rw [h.before dev m hm hle]
      -- none of it is of a minute that is rolled up already
      have hnone : ∀ r ∈ batch, r.key ≠ (dev, m) := fun r hr hkey => by
        have hwait := hwaiting.mem_iff.mpr (List.mem_append_left _ hr)
        have hbuf := h.rows.mem_iff.mp (List.mem_append_right s.telemetry hwait)
        have hlt := lt_of_lt_of_le (h.of_key hbuf hkey).2 (by exact_mod_cast hle : _ ≤ (high : ℚ))
        exact absurd (h.fresh r hwait) (not_le.mpr hlt)
      have hgroup : (s.telemetry ++ batch).filter (·.key = (dev, m)) =
          s.telemetry.filter (·.key = (dev, m)) := by
        have hbatch : batch.filter (·.key = (dev, m)) = [] :=
          List.filter_eq_nil_iff.mpr fun r hr hk => hnone r hr (by simpa using hk)
        rw [List.filter_append, hbatch, List.append_nil]
      simp only [bucketOf, hgroup]
  · exact h

/-- A rollup has read the clock and the mark. -/
theorem Rolled.rollup (h : Rolled s high) {now : ℚ} (hclock : s.clock ≤ now) :
    Rolled (s.step (.rollup now)) high := by
  have hpos := le_trans h.clock.1 hclock
  obtain ⟨hdvd, hle⟩ := cutoff_spec hpos
  have hold : ∀ c ∈ s.rolling, c.1 ≤ high ∧ (c.2 : ℚ) ≤ now ∧ 60 ∣ c.1 ∧ 60 ∣ c.2 := fun c hc => by
    obtain ⟨h1, h2, h3⟩ := h.rolling c hc
    exact ⟨h1, le_trans h2 hclock, h3⟩
  rw [step]
  split
  · exact { h with clock := ⟨hpos, le_trans h.clock.2 hclock⟩, rolling := hold }
  · refine { h with clock := ⟨hpos, le_trans h.clock.2 hclock⟩, rolling := fun c hc => ?_ }
    rcases List.mem_append.mp hc with hc | hc
    · exact hold c hc
    · rw [List.mem_singleton.mp hc]
      exact ⟨h.start.1, hle, h.start.2, hdvd⟩

/-- The minutes between the two marks get the buckets of the rows there are. -/
theorem Rolled.write (h : Rolled s high) {i : Nat} (hcovered : s.Covered (.write i)) :
    ∃ high', Rolled (s.step (.write i)) high' := by
  rw [step]
  split
  · next from' upto hi =>
    obtain ⟨hfrom, hupto, hdvd, hdvd'⟩ := h.rolling _ (List.mem_of_getElem? hi)
    have htimes : ∀ r ∈ s.telemetry, 0 ≤ r.ts := fun r hr =>
      h.times r (h.rows.mem_iff.mp (List.mem_append_left _ hr))
    -- the rows of one minute are all between the marks, or none of them is
    have hgroup := bucketOf_range htimes hdvd hdvd'
    refine ⟨max high upto, h.rows, h.times, ?_, ⟨h.clock.1, ?_⟩, ⟨le_max_right _ _, hdvd'⟩,
      ?_, ?_, ?_⟩
    · intro r hr
      push_cast
      exact max_le (h.fresh r hr) (hcovered _ hi r hr)
    · push_cast
      exact max_le h.clock.2 hupto
    · intro c hc
      obtain ⟨h1, h2⟩ := h.rolling c (List.mem_of_mem_eraseIdx hc)
      exact ⟨le_trans h1 (le_max_left _ _), h2⟩
    · intro dev m hm hle
      dsimp only
      rw [get?_insertBuckets, hgroup dev m]
      split
      · by_cases hhigh : m + 60 ≤ high
        · rw [h.before dev m hm hhigh, Option.or_self]
        · rw [h.beyond dev m hm (not_le.mp hhigh), Option.or_none]
      · rw [Option.none_or, h.before dev m hm (by omega)]
    · intro dev m hm hlt
      dsimp only
      rw [get?_insertBuckets, hgroup dev m, if_neg (by omega), Option.none_or,
        h.beyond dev m hm (by omega)]
  · exact ⟨high, h⟩

/-! ## Results -/

/-- One step. -/
theorem step_rolled {e : StoreEvent} (hs : Rolled s high) (hclock : s.Clocked e)
    (hcovered : s.Covered e) : ∃ high', Rolled (s.step e) high' := by
  cases e with
  | buffer row => exact ⟨high, hs.buffer hclock⟩
  | take => exact ⟨high, hs.take⟩
  | insert i => exact ⟨high, hs.insert i⟩
  | rollup now => exact ⟨high, hs.rollup hclock⟩
  | write i => exact hs.write hcovered

theorem Rolled.rollupsRight (h : Rolled s high) : RollupsRight s := by
  intro hnil dev m hm hle
  have hrows := h.rows
  rw [hnil, List.append_nil] at hrows
  rw [h.before dev m hm (le_trans hle h.start.1), bucketOf_perm hrows]

/-- If no `rollup` ever writes while a row of its minutes waits, no sample is
    lost to the rollups. -/
theorem run_rollupsRight {events : List StoreEvent}
    (h : AllSteps step (fun s e => s.Clocked e ∧ s.Covered e) {} events) :
    RollupsRight (exec step {} events) := by
  obtain ⟨high, hhigh⟩ := h.invariant (P := fun s => ∃ high, Rolled s high)
    (fun s e ⟨hclock, hcovered⟩ ⟨high, hs⟩ => step_rolled hs hclock hcovered) ⟨0, rolled_init⟩
  exact hhigh.rollupsRight

/-- Samples on both sides of a minute, flushed before the rollup. -/
def flushedRun : List StoreEvent :=
  [.buffer { deviceId := "ECU-1", ts := 59, rpm := some 900 }, .take, .insert 0,
   .buffer { deviceId := "ECU-1", ts := 60, rpm := some 1000 }, .rollup 61, .write 0,
   .take, .insert 0, .rollup 121, .write 0]

theorem flushedRun_rollupsRight :
    RollupsRight (exec step {} flushedRun) ∧
      ((Dict.get? (exec step {} flushedRun).rollups ("ECU-1", 60)).map Bucket.n) = some 1 := by
  exact ⟨run_rollupsRight (by decide +kernel), by decide +kernel⟩

/-- `maintenance_loop` at a minute's end: it flushes at 59.8 s, a sample arrives
    at 59.9 s, and the rollup reads the clock at 60.1 s. -/
def boundaryRun : List StoreEvent :=
  [.buffer { deviceId := "ECU-1", ts := 599 / 10, rpm := some 900 }, .rollup (601 / 10), .write 0,
   .take, .insert 0, .rollup (1201 / 10), .write 0]

/-- The sample is in the raw table, the rollup is past its minute, and the
    minute has no bucket. -/
theorem boundaryRun_not_rollupsRight :
    AllSteps step Clocked {} boundaryRun ∧ ¬ RollupsRight (exec step {} boundaryRun) := by
  refine ⟨by decide +kernel, fun h => ?_⟩
  have hbucket := h (by decide +kernel) "ECU-1" 0 (by decide) (by decide +kernel)
  revert hbucket
  decide +kernel

end TelemetryStore

end EcuTelemetry.Backend
