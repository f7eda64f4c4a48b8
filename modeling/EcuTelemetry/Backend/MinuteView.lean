/-
  EcuTelemetry.Backend.MinuteView

  `telemetry(step="1m")` of backend/app/db.py.  The answer is stitched: the
  buckets that are rolled up come from `telemetry_rollup_1m`, the minutes from
  the last of them on are aggregated from the raw rows.

  Whatever the position of the seam, no minute is dropped or repeated.  But
  the first query asks for buckets from `since - 60` on, so a rolled minute
  that ends at `since` is returned too; `_agg_raw` never returns it.  The
  answer is the list of the minutes asked for exactly when there is no such
  minute.
-/

import EcuTelemetry.Backend.Rollup
import Mathlib.Data.List.Sort

namespace EcuTelemetry.Backend

/-- A row of the answer: `ts` and the aggregates. -/
abbrev MinuteRow := ℤ × Bucket

/-- `max(1, min(int(limit), 20000))`. -/
def clampLimit (limit : ℤ) : ℕ := (max 1 (min limit 20000)).toNat

/-- The order of `ORDER BY bucket DESC`. -/
def Newest (a b : MinuteRow) : Prop := b.1 ≤ a.1

instance : DecidableRel Newest := fun a b => inferInstanceAs (Decidable (b.1 ≤ a.1))

instance : Std.Total Newest := ⟨fun a b => le_total b.1 a.1⟩

instance : IsTrans MinuteRow Newest := ⟨fun _ _ _ h h' => le_trans h' h⟩

namespace TelemetryStore

/-- The rows of `telemetry_rollup_1m` (`ORDER BY bucket DESC LIMIT ?`, reversed). -/
def rollupRows (s : TelemetryStore) (dev : String) (since upto : ℚ) (limit : ℕ) :
    List MinuteRow :=
  let rows := s.rollups.filterMap fun e =>
    if e.1.1 = dev ∧ since ≤ e.1.2 ∧ (e.1.2 : ℚ) < upto then some (e.1.2, e.2) else none
  ((rows.insertionSort Newest).take limit).reverse

/-- `_agg_raw`. -/
def aggRaw (s : TelemetryStore) (dev : String) (since upto : ℚ) (width : ℕ) : List MinuteRow :=
  let rows := s.telemetry.filter fun r => r.deviceId = dev ∧ since ≤ r.ts ∧ r.ts < upto
  let start (r : TelemetryRow) : ℤ := castInt (r.ts / width) * width
  ((rows.map start).dedup.insertionSort (· ≤ ·)).map fun b =>
    (b, aggregate (rows.filter (start · = b)))

/-- `telemetry(.., step="1m")`. -/
def telemetry1m (s : TelemetryStore) (dev : String) (since upto : ℚ) (limit : ℤ) :
    List MinuteRow :=
  let rolled := s.rollupRows dev (since - 60) upto (clampLimit limit)
  -- append any not-yet-rolled raw data aggregated on the fly
  let lastBucket := (rolled.getLast?.map fun r => (r.1 : ℚ) + 60).getD since
  let rows := rolled ++ s.aggRaw dev (max lastBucket since) upto 60
  rows.drop (rows.length - clampLimit limit)

/-- `rollup` at the time `t`, with no other call in between. -/
def rollupNow (s : TelemetryStore) (t : ℚ) : TelemetryStore := (s.step (.rollup t)).step (.write 0)

/-- `rollup` at each of the times. -/
def rollupAll (s : TelemetryStore) (ts : List ℚ) : TelemetryStore := ts.foldl rollupNow s

end TelemetryStore

/-- What was asked for: the bucket of each minute of `[since, upto)` that has
    rows, oldest first. -/
def minuteBuckets (rows : List TelemetryRow) (dev : String) (since upto : ℤ) : List MinuteRow :=
  ((List.range ((upto - since) / 60).toNat).map fun (k : ℕ) => since + 60 * (k : ℤ)).filterMap
    fun m => (bucketOf rows (dev, m)).map (m, ·)

/-! ## Increasing lists -/

/-- Rows in increasing `ts`, each once. -/
def Earlier (a b : MinuteRow) : Prop := a.1 < b.1

instance : Std.Irrefl Earlier := ⟨fun a => lt_irrefl a.1⟩

instance : Std.Antisymm Earlier := ⟨fun _ _ h h' => absurd (lt_trans h h') (lt_irrefl _)⟩

/-- The minutes asked for are those between the bounds that have rows. -/
theorem mem_minuteBuckets {rows : List TelemetryRow} {dev : String} {since upto m : ℤ} {b : Bucket}
    (hs : 60 ∣ since) (hu : 60 ∣ upto) :
    (m, b) ∈ minuteBuckets rows dev since upto ↔
      60 ∣ m ∧ since ≤ m ∧ m < upto ∧ bucketOf rows (dev, m) = some b := by
  simp only [minuteBuckets, List.mem_filterMap, List.mem_map, List.mem_range,
    Option.map_eq_some_iff, Prod.mk.injEq]
  constructor
  · rintro ⟨x, ⟨k, hk, rfl⟩, b', hb, rfl, rfl⟩
    exact ⟨by omega, by omega, by omega, hb⟩
  · rintro ⟨hm, hle, hlt, hb⟩
    exact ⟨m, ⟨((m - since) / 60).toNat, by omega, by omega⟩, b, hb, rfl, rfl⟩

/-- They come in order, each once. -/
theorem minuteBuckets_increasing (rows : List TelemetryRow) (dev : String) (since upto : ℤ) :
    (minuteBuckets rows dev since upto).Pairwise Earlier := by
  refine List.Pairwise.filterMap _ ?_ (R := fun a b : ℤ => a < b) ?_
  · intro m m' hlt a ha a' ha'
    obtain ⟨b, -, rfl⟩ := Option.map_eq_some_iff.mp ha
    obtain ⟨b', -, rfl⟩ := Option.map_eq_some_iff.mp ha'
    exact hlt
  · rw [List.pairwise_map]
    exact List.pairwise_lt_range.imp fun h => by omega

/-- The minute before the first one. -/
theorem minuteBuckets_cons {rows : List TelemetryRow} {dev : String} {since upto : ℤ}
    (h : since < upto) (hs : 60 ∣ since) (hu : 60 ∣ upto) :
    minuteBuckets rows dev (since - 60) upto =
      ((bucketOf rows (dev, since - 60)).map (since - 60, ·)).toList ++
        minuteBuckets rows dev since upto := by
  have hhead : ∀ a ∈ ((bucketOf rows (dev, since - 60)).map (since - 60, ·)).toList,
      a.1 = since - 60 := by
    intro a ha
    obtain ⟨b, -, rfl⟩ := Option.map_eq_some_iff.mp (Option.mem_toList.mp ha)
    rfl
  have htail : ∀ a ∈ minuteBuckets rows dev since upto, since ≤ a.1 := fun a ha =>
    ((mem_minuteBuckets hs hu).mp ha).2.1
  -- two increasing lists with the same minutes in them
  refine List.Pairwise.eq_of_mem_iff (minuteBuckets_increasing rows dev _ upto) ?_ fun a => ?_
  · refine List.pairwise_append.mpr ⟨?_, minuteBuckets_increasing rows dev since upto, ?_⟩
    · cases bucketOf rows (dev, since - 60) with
      | none => exact List.Pairwise.nil
      | some b => exact List.pairwise_singleton _ _
    · intro a ha a' ha'
      have h1 := hhead a ha
      have h2 := htail a' ha'
      show a.1 < a'.1
      omega
  · obtain ⟨m, b⟩ := a
    rw [mem_minuteBuckets (by omega) hu, List.mem_append, mem_minuteBuckets hs hu,
      Option.mem_toList, Option.map_eq_some_iff]
    constructor
    · rintro ⟨hm, hle, hlt, hb⟩
      -- the one minute below `since`, and those from it on
      by_cases hfirst : m = since - 60
      · exact .inl ⟨b, hfirst ▸ hb, by rw [hfirst]⟩
      · exact .inr ⟨hm, by omega, hlt, hb⟩
    · rintro (⟨b', hb', heq⟩ | ⟨hm, hle, hlt, hb⟩)
      · obtain ⟨rfl, rfl⟩ := Prod.mk.inj heq
        exact ⟨by omega, le_rfl, by omega, hb'⟩
      · exact ⟨hm, by omega, hlt, hb⟩

theorem bucketOf_eq_some_dvd {rows : List TelemetryRow} (hrows : ∀ r ∈ rows, 0 ≤ r.ts)
    {dev : String} {m : ℤ} {b : Bucket} (h : bucketOf rows (dev, m) = some b) : 60 ∣ m := by
  by_contra hdvd
  rw [bucketOf_eq_none fun r hr hkey => hdvd ?_] at h
  · cases h
  · have hm : minuteOf r.ts = m := congrArg Prod.snd hkey
    exact hm ▸ (minuteOf_spec (hrows r hr)).1

namespace TelemetryStore

/-! ## What `rollup` leaves -/

/-- All rows are in the raw table, and the minutes before the mark are rolled up. -/
structure RolledUp (rows : List TelemetryRow) (s : TelemetryStore) : Prop where
  telemetry : s.telemetry = rows
  rolling : s.rolling = []
  start : 60 ∣ s.start
  distinct : Dict.Distinct s.rollups
  buckets : ∀ dev m, Dict.get? s.rollups (dev, m) =
    if m + 60 ≤ s.start then bucketOf rows (dev, m) else none

variable {rows : List TelemetryRow} {s : TelemetryStore}

theorem distinct_insertBuckets (rows : List TelemetryRow) {d : Dict (String × ℤ) Bucket}
    (hd : Dict.Distinct d) : Dict.Distinct (insertBuckets d rows) := by
  unfold insertBuckets
  generalize (rows.map TelemetryRow.key).dedup = keys
  induction keys generalizing d with
  | nil => exact hd
  | cons k keys ih => exact ih (hd.set (.of_lawful k))

/-- With no rollup nothing is rolled up, and no row is older than the epoch. -/
theorem rolledUp_fresh (hrows : ∀ r ∈ rows, 0 ≤ r.ts) : RolledUp rows { telemetry := rows } where
  telemetry := rfl
  rolling := rfl
  start := Int.dvd_zero 60
  distinct := List.nodup_nil
  buckets dev m := by
    split
    · next h =>
      have hneg : m + 60 ≤ 0 := h
      refine (bucketOf_eq_none fun r hr hkey => ?_).symm
      have hm : minuteOf r.ts = m := congrArg Prod.snd hkey
      obtain ⟨-, -, hlt⟩ := minuteOf_spec (hrows r hr)
      have hlt : ((0 : ℤ) : ℚ) < ((minuteOf r.ts + 60 : ℤ) : ℚ) := by
        push_cast
        exact lt_of_le_of_lt (hrows r hr) hlt
      have hlt : 0 < minuteOf r.ts + 60 := by exact_mod_cast hlt
      omega
    · rfl

/-- One `rollup`: the mark moves to the cut-off if that is later. -/
theorem RolledUp.rollupNow (h : RolledUp rows s) (hrows : ∀ r ∈ rows, 0 ≤ r.ts) (t : ℚ) :
    RolledUp rows (s.rollupNow t) ∧ (s.rollupNow t).start = max s.start (cutoff t) := by
  unfold TelemetryStore.rollupNow
  by_cases hle : cutoff t ≤ s.start
  · have hroll : s.step (.rollup t) = { s with clock := t } := by
      rw [step, if_pos hle]
    have hnone : (s.rolling)[0]? = none := by rw [h.rolling]; rfl
    have hwrite : (s.step (.rollup t)).step (.write 0) = { s with clock := t } := by
      rw [hroll, step]
      dsimp only
      rw [hnone]
    rw [hwrite]
    exact ⟨{ h with }, (max_eq_left hle).symm⟩
  · have hwrite : (s.step (.rollup t)).step (.write 0) =
        { s with
          clock := t
          rollups := insertBuckets s.rollups
            (rows.filter fun r => (s.start : ℚ) ≤ r.ts ∧ r.ts < (cutoff t : ℚ))
          rollupUpto := some (cutoff t)
          rolling := [] } := by
      rw [step, step, if_neg hle, ← h.telemetry, h.rolling]
      rfl
    rw [hwrite]
    have hcut : 60 ∣ cutoff t := Int.dvd_mul_left _ _
    refine ⟨⟨h.telemetry, rfl, hcut, distinct_insertBuckets _ h.distinct, fun dev m => ?_⟩,
      (max_eq_right (not_le.mp hle).le).symm⟩
    show Dict.get? (insertBuckets s.rollups _) (dev, m) = if m + 60 ≤ cutoff t then _ else none
    rw [get?_insertBuckets, bucketOf_range hrows h.start hcut, h.buckets]
    -- a minute is before the old mark, between the marks, or not complete yet
    rcases hb : bucketOf rows (dev, m) with _ | b
    · simp only [ite_self, Option.none_or]
    · have hm := bucketOf_eq_some_dvd hrows hb
      have hstart := h.start
      by_cases hold : m + 60 ≤ s.start
      · rw [if_neg (by omega), if_pos hold, if_pos (by omega), Option.none_or]
      · by_cases hnew : m + 60 ≤ cutoff t
        · rw [if_pos (by omega), if_pos hnew, Option.some_or]
        · rw [if_neg (by omega), if_neg hold, if_neg hnew, Option.none_or]

/-- Rollups one after the other: the mark is the latest cut-off. -/
theorem RolledUp.rollupAll (h : RolledUp rows s) (hrows : ∀ r ∈ rows, 0 ≤ r.ts) (ts : List ℚ) :
    RolledUp rows (s.rollupAll ts) ∧
      (s.rollupAll ts).start = (ts.map cutoff).foldl max s.start := by
  induction ts generalizing s with
  | nil => exact ⟨h, rfl⟩
  | cons t ts ih =>
    obtain ⟨hstep, hstart⟩ := h.rollupNow hrows t
    obtain ⟨hrest, hmark⟩ := ih hstep
    exact ⟨hrest, hmark.trans (by rw [hstart]; rfl)⟩

/-! ## The two parts of the answer -/

/-- The buckets in the table, by their times. -/
theorem RolledUp.mem_rollups (h : RolledUp rows s) {dev : String} {m : ℤ} {b : Bucket} :
    ((dev, m), b) ∈ s.rollups ↔ m + 60 ≤ s.start ∧ bucketOf rows (dev, m) = some b := by
  have hexact : Dict.Exact (dev, m) := .of_lawful _
  constructor
  · intro hmem
    have hget := Dict.get?_of_mem hexact h.distinct hmem
    rw [h.buckets] at hget
    split at hget
    · next hle => exact ⟨hle, hget⟩
    · cases hget
  · rintro ⟨hle, hb⟩
    refine Dict.get?_mem hexact ?_
    rw [h.buckets, if_pos hle, hb]

/-- The rolled part, where the limit does not bind: the minutes of
    `[since - 60, upto)` before the mark. -/
theorem RolledUp.rollupRows (h : RolledUp rows s) (hrows : ∀ r ∈ rows, 0 ≤ r.ts) {dev : String}
    {since upto : ℤ} {limit : ℕ} (hs : 60 ∣ since) (hu : 60 ∣ upto)
    (hlimit : (minuteBuckets rows dev since upto).length ≤ limit) :
    s.rollupRows dev since upto limit = minuteBuckets rows dev since (min upto s.start) := by
  have hstart := h.start
  have hmin : 60 ∣ min upto s.start := by
    rcases le_total upto s.start with hle | hle
    · rw [min_eq_left hle]; exact hu
    · rw [min_eq_right hle]; exact hstart
  obtain ⟨found, hfound⟩ : ∃ found : List MinuteRow, found = s.rollups.filterMap fun e =>
      if e.1.1 = dev ∧ (since : ℚ) ≤ e.1.2 ∧ (e.1.2 : ℚ) < (upto : ℚ) then some (e.1.2, e.2)
      else none := ⟨_, rfl⟩
  have hmem : ∀ a, a ∈ found ↔ a ∈ minuteBuckets rows dev since (min upto s.start) := by
    rintro ⟨m, b⟩
    rw [hfound, mem_minuteBuckets hs hmin, List.mem_filterMap]
    constructor
    · rintro ⟨⟨⟨dev', m'⟩, b'⟩, he, hsome⟩
      split at hsome
      · next hrange =>
        obtain ⟨rfl, hle, hlt⟩ := hrange
        obtain ⟨rfl, rfl⟩ := Prod.mk.inj (Option.some.inj hsome)
        obtain ⟨hmark, hb⟩ := h.mem_rollups.mp he
        have hle : since ≤ m' := by exact_mod_cast hle
        have hlt : m' < upto := by exact_mod_cast hlt
        have hm := bucketOf_eq_some_dvd hrows hb
        have hmark : m' + 60 ≤ s.start := hmark
        have hmark : m' < s.start := by omega
        exact ⟨hm, hle, lt_min hlt hmark, hb⟩
      · cases hsome
    · rintro ⟨hm, hle, hlt, hb⟩
      refine ⟨((dev, m), b), h.mem_rollups.mpr ⟨by omega, hb⟩, if_pos ⟨rfl, ?_, ?_⟩⟩
      · exact_mod_cast hle
      · exact_mod_cast (lt_min_iff.mp hlt).1
  have hnodup : found.Nodup := by
    rw [hfound]
    refine List.Nodup.filterMap ?_ (List.Nodup.of_map _ h.distinct)
    rintro ⟨⟨d, m⟩, b⟩ ⟨⟨d', m'⟩, b'⟩ a ha ha'
    split at ha
    · next h1 =>
      split at ha'
      · next h2 =>
        cases ha
        cases ha'
        rw [show d = dev from h1.1, show d' = dev from h2.1]
      · cases ha'
    · cases ha
  -- the limit keeps them all
  have hlen : found.length ≤ limit := by
    refine le_trans ?_ hlimit
    refine (List.subperm_of_subset hnodup fun a ha => ?_).length_le
    obtain ⟨m, b⟩ := a
    obtain ⟨hm, hle, hlt, hb⟩ := (mem_minuteBuckets hs hmin).mp ((hmem _).mp ha)
    exact (mem_minuteBuckets hs hu).mpr ⟨hm, hle, (lt_min_iff.mp hlt).1, hb⟩
  unfold TelemetryStore.rollupRows
  dsimp only
  rw [← hfound, List.take_of_length_le (by rw [List.length_insertionSort]; exact hlen)]
  have hperm := List.perm_insertionSort Newest found
  refine List.Pairwise.eq_of_mem_iff ?_ (minuteBuckets_increasing rows dev _ _) fun a => ?_
  · rw [List.pairwise_reverse]
    have hsorted := List.pairwise_insertionSort Newest found
    have hdistinct : (found.insertionSort Newest).Nodup := hperm.nodup_iff.mpr hnodup
    refine (hsorted.and hdistinct).imp_of_mem fun {a b} ha hb hab => ?_
    refine lt_of_le_of_ne hab.1 fun heq => hab.2 ?_
    -- two buckets of one minute are the same row
    have ha' := (hmem a).mp (hperm.mem_iff.mp ha)
    have hb' := (hmem b).mp (hperm.mem_iff.mp hb)
    obtain ⟨m, x⟩ := a
    obtain ⟨m', x'⟩ := b
    cases heq
    have hx := ((mem_minuteBuckets hs hmin).mp ha').2.2.2
    have hx' := ((mem_minuteBuckets hs hmin).mp hb').2.2.2
    rw [hx] at hx'
    cases hx'
    rfl
  · rw [List.mem_reverse, hperm.mem_iff]
    exact hmem a

/-- The part aggregated on the fly. -/
theorem RolledUp.aggRaw (h : RolledUp rows s) (hrows : ∀ r ∈ rows, 0 ≤ r.ts) (dev : String)
    {since upto : ℤ} (hs : 60 ∣ since) (hu : 60 ∣ upto) :
    s.aggRaw dev since upto 60 = minuteBuckets rows dev since upto := by
  have hminute : ∀ r : TelemetryRow, castInt (r.ts / (60 : ℕ)) * (60 : ℕ) = minuteOf r.ts :=
    fun r => rfl
  obtain ⟨found, hfound⟩ : ∃ found, found = rows.filter fun r =>
      r.deviceId = dev ∧ (since : ℚ) ≤ r.ts ∧ r.ts < (upto : ℚ) := ⟨_, rfl⟩
  -- the group of a minute among the rows found is its group among all rows
  have hgroup : ∀ m, since ≤ m → m + 60 ≤ upto →
      found.filter (fun r => minuteOf r.ts = m) = rows.filter (·.key = (dev, m)) := by
    intro m hle hlt
    rw [hfound, List.filter_filter]
    refine List.filter_congr fun r hr => ?_
    have hrange := range_iff_minute (hrows r hr) hs hu
    rw [Bool.eq_iff_iff]
    simp only [Bool.and_eq_true, decide_eq_true_eq, TelemetryRow.key, Prod.mk.injEq]
    constructor
    · rintro ⟨hm, hdev, -⟩
      exact ⟨hdev, hm⟩
    · rintro ⟨hdev, hm⟩
      exact ⟨hm, hdev, hrange.mpr ⟨hm ▸ hle, hm ▸ hlt⟩⟩
  have hmem : ∀ m, m ∈ (found.map fun r => minuteOf r.ts).dedup ↔
      since ≤ m ∧ m + 60 ≤ upto ∧ rows.filter (·.key = (dev, m)) ≠ [] := by
    intro m
    rw [List.mem_dedup, List.mem_map]
    constructor
    · rintro ⟨r, hr, rfl⟩
      rw [hfound] at hr
      obtain ⟨hr, hin⟩ := List.mem_filter.mp hr
      obtain ⟨hdev, hrange⟩ := of_decide_eq_true hin
      obtain ⟨hle, hlt⟩ := (range_iff_minute (hrows r hr) hs hu).mp hrange
      exact ⟨hle, hlt,
        List.ne_nil_of_mem
          (List.mem_filter.mpr ⟨hr, decide_eq_true (by rw [TelemetryRow.key, hdev])⟩)⟩
    · rintro ⟨hle, hlt, hne⟩
      rw [← hgroup m hle hlt] at hne
      obtain ⟨r, hr⟩ := List.exists_mem_of_ne_nil _ hne
      obtain ⟨hr, hm⟩ := List.mem_filter.mp hr
      exact ⟨r, hr, of_decide_eq_true hm⟩
  unfold TelemetryStore.aggRaw
  dsimp only
  simp only [hminute]
  rw [h.telemetry, ← hfound]
  refine List.Pairwise.eq_of_mem_iff ?_ (minuteBuckets_increasing rows dev _ _) fun a => ?_
  · rw [List.pairwise_map]
    have hsorted := List.pairwise_insertionSort (· ≤ ·) (found.map fun r => minuteOf r.ts).dedup
    have hdistinct : ((found.map fun r => minuteOf r.ts).dedup.insertionSort (· ≤ ·)).Nodup :=
      (List.perm_insertionSort _ _).nodup_iff.mpr (List.nodup_dedup _)
    exact (hsorted.and hdistinct).imp fun hab => lt_of_le_of_ne hab.1 hab.2
  · obtain ⟨m, b⟩ := a
    rw [mem_minuteBuckets hs hu, List.mem_map]
    constructor
    · rintro ⟨m', hm', heq⟩
      obtain ⟨hle, hlt, hne⟩ := (hmem m').mp ((List.perm_insertionSort _ _).mem_iff.mp hm')
      obtain ⟨rfl, rfl⟩ := Prod.mk.inj heq
      have hb : bucketOf rows (dev, m') = some
          (aggregate (found.filter fun r => minuteOf r.ts = m')) := by
        rw [hgroup m' hle hlt]
        exact if_neg hne
      exact ⟨bucketOf_eq_some_dvd hrows hb, hle, by omega, hb⟩
    · rintro ⟨hm, hle, hlt, hb⟩
      have hlt : m + 60 ≤ upto := by omega
      rw [bucketOf] at hb
      by_cases hnil : rows.filter (·.key = (dev, m)) = []
      · rw [if_pos hnil] at hb
        cases hb
      · rw [if_neg hnil] at hb
        refine ⟨m, (List.perm_insertionSort _ _).mem_iff.mpr ((hmem m).mpr ⟨hle, hlt, hnil⟩), ?_⟩
        rw [hgroup m hle hlt, Option.some.inj hb]

/-! ## The answer -/

/-- Two adjacent ranges. -/
theorem minuteBuckets_append {dev : String} {since mid upto : ℤ} (hs : 60 ∣ since) (hm : 60 ∣ mid)
    (hu : 60 ∣ upto) (h1 : since ≤ mid) (h2 : mid ≤ upto) :
    minuteBuckets rows dev since mid ++ minuteBuckets rows dev mid upto =
      minuteBuckets rows dev since upto := by
  refine List.Pairwise.eq_of_mem_iff ?_ (minuteBuckets_increasing rows dev _ _) fun a => ?_
  · refine List.pairwise_append.mpr ⟨minuteBuckets_increasing rows dev _ _,
      minuteBuckets_increasing rows dev _ _, fun a ha b hb => ?_⟩
    exact lt_of_lt_of_le ((mem_minuteBuckets hs hm).mp ha).2.2.1
      ((mem_minuteBuckets hm hu).mp hb).2.1
  · obtain ⟨m, b⟩ := a
    rw [List.mem_append, mem_minuteBuckets hs hm, mem_minuteBuckets hm hu, mem_minuteBuckets hs hu]
    constructor
    · rintro (⟨hd, hle, hlt, hb⟩ | ⟨hd, hle, hlt, hb⟩)
      · exact ⟨hd, hle, by omega, hb⟩
      · exact ⟨hd, by omega, hlt, hb⟩
    · rintro ⟨hd, hle, hlt, hb⟩
      rcases lt_or_ge m mid with hmid | hmid
      · exact .inl ⟨hd, hle, hmid, hb⟩
      · exact .inr ⟨hd, hmid, hlt, hb⟩

theorem minuteBuckets_eq_nil {dev : String} {since upto : ℤ} (h : upto ≤ since) :
    minuteBuckets rows dev since upto = [] := by
  have hnone : ((upto - since) / 60).toNat = 0 := by omega
  rw [minuteBuckets, hnone]
  rfl

/-- Past the last minute that has rows nothing is found. -/
theorem minuteBuckets_after {dev : String} {since mid seam : ℤ} (hs : 60 ∣ since) (hm : 60 ∣ mid)
    (hq : 60 ∣ seam) (hle : since ≤ seam)
    (hlast : ∀ a ∈ minuteBuckets rows dev since mid, a.1 < seam) :
    minuteBuckets rows dev seam mid = [] := by
  refine List.eq_nil_iff_forall_not_mem.mpr fun ⟨m, b⟩ ha => ?_
  obtain ⟨hd, hseam, hlt, hb⟩ := (mem_minuteBuckets hq hm).mp ha
  have hbefore := hlast (m, b) ((mem_minuteBuckets hs hm).mpr ⟨hd, hle.trans hseam, hlt, hb⟩)
  exact absurd hseam (not_le.mpr hbefore)

/-- The seam: one minute past the last rolled bucket, `since` at the earliest. -/
theorem seam_spec {dev : String} {since mid : ℤ} (hs : 60 ∣ since) (hm : 60 ∣ mid)
    (hle : since ≤ mid) :
    ∃ seam : ℤ, 60 ∣ seam ∧ since ≤ seam ∧ seam ≤ mid ∧
      max ((((minuteBuckets rows dev (since - 60) mid).getLast?.map fun r => (r.1 : ℚ) + 60)).getD
        since) (since : ℚ) = (seam : ℚ) ∧
      ∀ a ∈ minuteBuckets rows dev (since - 60) mid, a.1 < seam := by
  have hs' : 60 ∣ since - 60 := by omega
  rcases hget : (minuteBuckets rows dev (since - 60) mid).getLast? with _ | ⟨l, b⟩
  -- no bucket: the seam is `since`
  · have hnil := List.getLast?_eq_none_iff.mp hget
    refine ⟨since, hs, le_rfl, hle, max_self _, fun a ha => ?_⟩
    rw [hnil] at ha
    exact absurd ha List.not_mem_nil
  · obtain ⟨init, hinit⟩ := List.getLast?_eq_some_iff.mp hget
    have hmem : (l, b) ∈ minuteBuckets rows dev (since - 60) mid := by
      rw [hinit]
      exact List.mem_append_right init List.mem_cons_self
    obtain ⟨hd, -, hlt, -⟩ := (mem_minuteBuckets hs' hm).mp hmem
    -- the minute after the last bucket, or `since` where that is later
    refine ⟨max (l + 60) since, ?_, le_max_right _ _, max_le (by omega) hle, ?_, fun a ha => ?_⟩
    · rcases le_total (l + 60) since with h | h
      · rw [max_eq_right h]; exact hs
      · rw [max_eq_left h]; omega
    · simp only [Option.map_some, Option.getD_some]
      push_cast
      rfl
    · have hsorted := minuteBuckets_increasing rows dev (since - 60) mid
      rw [hinit] at ha hsorted
      rcases List.mem_append.mp ha with ha | ha
      · have hbefore : a.1 < l := (List.pairwise_append.mp hsorted).2.2 a ha _ List.mem_cons_self
        omega
      · rw [List.mem_singleton.mp ha]
        show l < max (l + 60) since
        omega

/-- The stitched answer: the minutes from `since - 60` on if that minute can be
    rolled up, from `since` on otherwise. -/
theorem RolledUp.telemetry1m (h : RolledUp rows s) (hrows : ∀ r ∈ rows, 0 ≤ r.ts) {dev : String}
    {since upto : ℤ} (hs : 60 ∣ since) (hu : 60 ∣ upto) (hlt : since < upto) {limit : ℤ}
    (hlimit : (minuteBuckets rows dev (since - 60) upto).length ≤ clampLimit limit) :
    s.telemetry1m dev since upto limit =
      minuteBuckets rows dev (if since ≤ s.start then since - 60 else since) upto := by
  have hs' : 60 ∣ since - 60 := by omega
  have hstart := h.start
  have hrolled : s.rollupRows dev ((since : ℚ) - 60) upto (clampLimit limit) =
      minuteBuckets rows dev (since - 60) (min upto s.start) := by
    have hcast : ((since - 60 : ℤ) : ℚ) = (since : ℚ) - 60 := by push_cast; rfl
    rw [← hcast]
    exact h.rollupRows hrows hs' hu hlimit
  -- the buckets of the rollup, then the raw rows from the seam on
  have hstitched : (s.telemetry1m dev since upto limit) =
      (minuteBuckets rows dev (if since ≤ s.start then since - 60 else since) upto).drop
        ((minuteBuckets rows dev (if since ≤ s.start then since - 60 else since) upto).length -
          clampLimit limit) := by
    unfold TelemetryStore.telemetry1m
    dsimp only
    rw [hrolled]
    by_cases hmark : since ≤ s.start
    · -- the seam lies between `since` and the mark, with nothing between it and the mark
      rw [if_pos hmark]
      obtain ⟨mid, hmid⟩ : ∃ mid, mid = min upto s.start := ⟨_, rfl⟩
      have hle : since ≤ mid := by omega
      have hmid60 : 60 ∣ mid := by omega
      rw [← hmid]
      obtain ⟨seam, hq, hsq, hqm, hseam, hlast⟩ :=
        @seam_spec rows dev _ _ hs hmid60 hle
      have hempty := minuteBuckets_after hs' hmid60 hq (by omega) hlast
      have hraw : s.aggRaw dev seam upto 60 = minuteBuckets rows dev mid upto := by
        rw [h.aggRaw hrows dev hq hu,
          ← minuteBuckets_append hq hmid60 hu hqm (by omega), hempty, List.nil_append]
      rw [hseam, hraw, minuteBuckets_append hs' hmid60 hu (by omega) (by omega)]
    -- nothing is rolled up from `since` on
    · rw [if_neg hmark, minuteBuckets_eq_nil (by omega : min upto s.start ≤ since - 60)]
      simp only [List.getLast?_nil, Option.map_none, Option.getD_none, max_self, List.nil_append,
        h.aggRaw hrows dev hs hu]
  -- and no minute is cut off by the limit
  have hlen : (minuteBuckets rows dev (if since ≤ s.start then since - 60 else since) upto).length ≤
      clampLimit limit := by
    split
    · exact hlimit
    · rw [minuteBuckets_cons hlt hs hu, List.length_append] at hlimit
      omega
  rw [hstitched, Nat.sub_eq_zero_of_le hlen, List.drop_zero]

end TelemetryStore

/-! ## When the answer is what was asked for -/

/-- The mark after `rollup` at the times `cutoffs`. -/
def markOf (cutoffs : List ℚ) : ℤ := (cutoffs.map TelemetryStore.cutoff).foldl max 0

/-- Whatever rows are stored and whenever `rollup` ran on them, the answer is
    the list of the minutes of `[since, upto)` with rows if and only if there is
    no rolled-up minute with rows that ends at `since`. -/
theorem telemetry1m_eq_iff (rows : List TelemetryRow) (hrows : ∀ r ∈ rows, 0 ≤ r.ts)
    (cutoffs : List ℚ) (dev : String) (since upto : ℤ) (hs : 60 ∣ since) (hu : 60 ∣ upto)
    (hlt : since < upto) (limit : ℤ)
    (hlimit : (minuteBuckets rows dev (since - 60) upto).length ≤ clampLimit limit) :
    (TelemetryStore.rollupAll { telemetry := rows } cutoffs).telemetry1m dev since upto limit =
        minuteBuckets rows dev since upto ↔
      ¬ (since ≤ markOf cutoffs ∧ ∃ r ∈ rows, r.key = (dev, since - 60)) := by
  obtain ⟨hrolled, hmark⟩ := (TelemetryStore.rolledUp_fresh hrows).rollupAll hrows cutoffs
  have hmark : TelemetryStore.start (TelemetryStore.rollupAll { telemetry := rows } cutoffs) =
      markOf cutoffs := hmark
  rw [hrolled.telemetry1m hrows hs hu hlt hlimit, hmark]
  by_cases hle : since ≤ markOf cutoffs
  · rw [if_pos hle, minuteBuckets_cons hlt hs hu]
    -- the extra minute is there unless it has no rows
    have hempty : bucketOf rows (dev, since - 60) = none ↔ ¬ ∃ r ∈ rows,
        r.key = (dev, since - 60) := by
      constructor
      · rintro hnone ⟨r, hr, hkey⟩
        rw [bucketOf, if_neg] at hnone
        · cases hnone
        · exact List.ne_nil_of_mem (List.mem_filter.mpr ⟨hr, decide_eq_true hkey⟩)
      · exact fun h => bucketOf_eq_none fun r hr hkey => h ⟨r, hr, hkey⟩
    rw [List.append_left_eq_self, Option.toList_eq_nil_iff, Option.map_eq_none_iff, hempty, not_and]
    exact ⟨fun h _ => h, fun h => h hle⟩
  · rw [if_neg hle]
    exact ⟨fun _ h => hle h.1, fun _ => rfl⟩

/-- Two rows in neighbouring minutes. -/
def neighbours : List TelemetryRow :=
  [{ deviceId := "ECU-1", ts := 59, rpm := some 900 },
   { deviceId := "ECU-1", ts := 61, rpm := some 1000 }]

/-- Rolled up or not, minute 0 is the only answer for `[0, 60)`. -/
theorem telemetry1m_first_minute :
    (TelemetryStore.rollupAll { telemetry := neighbours } [125]).telemetry1m "ECU-1"
        ((0 : ℤ) : ℚ) ((60 : ℤ) : ℚ) 10 = minuteBuckets neighbours "ECU-1" 0 60 :=
  (telemetry1m_eq_iff neighbours (by decide +kernel) [125] "ECU-1" 0 60 (by decide) (by decide)
    (by decide) 10 (by decide +kernel)).mpr (by decide +kernel)

/-- Once minute 0 is rolled up it is part of the answer for `[60, 120)`. -/
theorem telemetry1m_extra_minute :
    ((TelemetryStore.rollupAll { telemetry := neighbours } []).telemetry1m "ECU-1" 60 120 10).map
        (fun r => r.1) = [60] ∧
      ((TelemetryStore.rollupAll { telemetry := neighbours } [125]).telemetry1m "ECU-1" 60 120
        10).map (fun r => r.1) = [0, 60] ∧
      (minuteBuckets neighbours "ECU-1" 60 120).map (fun r => r.1) = [60] := by
  decide +kernel

end EcuTelemetry.Backend
