/-
  EcuTelemetry.Backend.FlagUnion

  The fault flags of a group of rows.  `rollup` and `_agg_raw` take the largest mask
  of the group where the flags of a minute are the union of its masks: the two agree
  iff some row of the group has every flag that any row of the group has.
-/

import EcuTelemetry.Backend.MinuteView

namespace EcuTelemetry.Backend

/-! ## Masks -/

/-- The bits of `flags` are the bits of the masks. -/
def ShowsUnion (flags : Nat) (masks : List Nat) : Prop :=
  ∀ f, flags.testBit f = true ↔ ∃ m ∈ masks, m.testBit f = true

/-- Some mask has all bits of the others. -/
def HasUnion (masks : List Nat) : Prop := ∃ m ∈ masks, ∀ m' ∈ masks, m' &&& m = m'

/-- A mask contains another bit by bit. -/
theorem and_eq_left_iff {m m' : Nat} :
    m' &&& m = m' ↔ ∀ f, m'.testBit f = true → m.testBit f = true := by
  constructor
  · intro h f hf
    rw [← h, Nat.testBit_and, Bool.and_eq_true] at hf
    exact hf.2
  · intro h
    apply Nat.eq_of_testBit_eq
    intro f
    rw [Nat.testBit_and]
    cases hf : m'.testBit f with
    | false => rfl
    | true => rw [h f hf]; rfl

theorem le_foldr_max {masks : List Nat} {m : Nat} (h : m ∈ masks) : m ≤ masks.foldr max 0 := by
  induction masks with
  | nil => exact absurd h List.not_mem_nil
  | cons a masks ih =>
    rcases List.mem_cons.mp h with rfl | h
    · exact le_max_left _ _
    · exact (ih h).trans (le_max_right _ _)

/-- The maximum is one of the masks. -/
theorem foldr_max_mem {masks : List Nat} (h : masks ≠ []) : masks.foldr max 0 ∈ masks := by
  induction masks with
  | nil => exact absurd rfl h
  | cons a masks ih =>
    rw [List.foldr_cons]
    rcases le_total (masks.foldr max 0) a with hle | hle
    · rw [max_eq_left hle]
      exact List.mem_cons_self
    · rw [max_eq_right hle]
      by_cases hnil : masks = []
      · subst hnil
        rw [Nat.le_zero.mp hle]
        exact List.mem_cons_self
      · exact List.mem_cons_of_mem a (ih hnil)

/-- The largest mask is the union iff the union is one of the masks. -/
theorem showsUnion_max_iff {masks : List Nat} (h : masks ≠ []) :
    ShowsUnion (masks.foldr max 0) masks ↔ HasUnion masks := by
  constructor
  · -- the largest mask itself has all bits
    intro hshows
    exact ⟨_, foldr_max_mem h, fun m' hm' =>
      and_eq_left_iff.mpr fun f hf => (hshows f).mpr ⟨m', hm', hf⟩⟩
  · rintro ⟨m, hm, hall⟩
    have hmax : masks.foldr max 0 = m := by
      apply le_antisymm
      · have hsub := hall _ (foldr_max_mem h)
        rw [← hsub]
        exact Nat.and_le_right
      · exact le_foldr_max hm
    rw [hmax]
    exact fun f =>
      ⟨fun hf => ⟨m, hm, hf⟩, fun ⟨m', hm', hf⟩ => and_eq_left_iff.mp (hall m' hm') f hf⟩

/-! ## Rows -/

/-- The masks of rows. -/
def masksOf (rows : List TelemetryRow) : List Nat := rows.map TelemetryRow.faultFlags

theorem aggregate_showsUnion {rows : List TelemetryRow} (h : rows ≠ []) :
    ShowsUnion (aggregate rows).faultFlagsAny (masksOf rows) ↔ HasUnion (masksOf rows) :=
  showsUnion_max_iff (mt List.map_eq_nil_iff.mp h)

/-- A rolled up minute shows all flags iff one of its rows has them all. -/
theorem bucketOf_showsUnion {rows : List TelemetryRow} {key : String × ℤ} {b : Bucket}
    (h : bucketOf rows key = some b) :
    ShowsUnion b.faultFlagsAny (masksOf (rows.filter (·.key = key))) ↔
      HasUnion (masksOf (rows.filter (·.key = key))) := by
  rw [bucketOf] at h
  split at h
  · cases h
  · next hgroup =>
    cases h
    exact aggregate_showsUnion hgroup

/-- The rows of a device in a time range, and of those the ones whose `CAST(ts/width AS
    INTEGER)*width` is `start`. -/
def rowsAt (rows : List TelemetryRow) (dev : String) (since upto : ℚ) (width : ℕ) (start : ℤ) :
    List TelemetryRow :=
  (rows.filter fun r => r.deviceId = dev ∧ since ≤ r.ts ∧ r.ts < upto).filter
    fun r => castInt (r.ts / width) * width = start

/-- A minute aggregated on the fly shows the union of its rows, too. -/
theorem aggRaw_showsUnion {s : TelemetryStore} {dev : String} {since upto : ℚ} {width : ℕ} {m : ℤ}
    {b : Bucket} (h : (m, b) ∈ s.aggRaw dev since upto width) :
    ShowsUnion b.faultFlagsAny (masksOf (rowsAt s.telemetry dev since upto width m)) ↔
      HasUnion (masksOf (rowsAt s.telemetry dev since upto width m)) := by
  rw [TelemetryStore.aggRaw] at h
  obtain ⟨start, hstart, heq⟩ := List.mem_map.mp h
  obtain ⟨rfl, rfl⟩ := Prod.mk.inj heq
  apply aggregate_showsUnion
  -- the group of a listed start has the row that lists it
  rw [List.mem_insertionSort, List.mem_dedup, List.mem_map] at hstart
  obtain ⟨r, hr, hrs⟩ := hstart
  exact List.ne_nil_of_mem (List.mem_filter.mpr ⟨hr, decide_eq_true hrs⟩)

/-- After any rollups a bucket shows the union of the masks of its device and minute iff
    some row of that minute has them all; so does a bucket of the views on raw rows. -/
theorem flags_union_iff (rows : List TelemetryRow) (hrows : ∀ r ∈ rows, 0 ≤ r.ts)
    (times : List ℚ) :
    let s := TelemetryStore.rollupAll { telemetry := rows } times
    (∀ dev m b, Dict.get? s.rollups (dev, m) = some b →
      (ShowsUnion b.faultFlagsAny (masksOf (rows.filter (·.key = (dev, m)))) ↔
        HasUnion (masksOf (rows.filter (·.key = (dev, m)))))) ∧
    ∀ dev since upto width m b, (m, b) ∈ s.aggRaw dev since upto width →
      (ShowsUnion b.faultFlagsAny (masksOf (rowsAt rows dev since upto width m)) ↔
        HasUnion (masksOf (rowsAt rows dev since upto width m))) := by
  have hrolled := ((TelemetryStore.rolledUp_fresh hrows).rollupAll hrows times).1
  refine ⟨fun dev m b hb => ?_, fun dev since upto width m b hb => ?_⟩
  · rw [hrolled.buckets] at hb
    split at hb
    · exact bucketOf_showsUnion hb
    · cases hb
  · have h := aggRaw_showsUnion hb
    rwa [hrolled.telemetry] at h

/-- Two faults of one minute, and a minute in which one row has both. -/
def faultyMinutes : List TelemetryRow :=
  [{ deviceId := "E1", ts := 5, faultFlags := 1 }, { deviceId := "E1", ts := 15, faultFlags := 2 },
   { deviceId := "E1", ts := 65, faultFlags := 1 }, { deviceId := "E1", ts := 75, faultFlags := 3 }]

theorem flags_union_second_minute :
    let s := TelemetryStore.rollupAll { telemetry := faultyMinutes } [120]
    let group := faultyMinutes.filter (·.key = ("E1", 60))
    Dict.get? s.rollups ("E1", 60) = some (aggregate group) ∧
      (ShowsUnion (aggregate group).faultFlagsAny (masksOf group) ↔ HasUnion (masksOf group)) :=
  ⟨by decide +kernel, (flags_union_iff faultyMinutes (by decide +kernel) [120]).1 "E1" 60 _
    (by decide +kernel)⟩

/-- The first fault of the first minute is not in its bucket. -/
theorem first_minute_loses_flag :
    ¬ ∀ b, Dict.get? (TelemetryStore.rollupAll { telemetry := faultyMinutes } [120]).rollups
        ("E1", 0) = some b →
      ShowsUnion b.faultFlagsAny (masksOf (faultyMinutes.filter (·.key = ("E1", 0)))) := by
  intro h
  obtain ⟨b, hb, hflags⟩ : ∃ b, Dict.get?
      (TelemetryStore.rollupAll { telemetry := faultyMinutes } [120]).rollups ("E1", 0) = some b ∧
        b.faultFlagsAny = 2 :=
    ⟨aggregate (faultyMinutes.filter (·.key = ("E1", 0))), by decide +kernel, by decide +kernel⟩
  have hbit := (h b hb 0).mpr ⟨1, by decide +kernel, rfl⟩
  rw [hflags] at hbit
  exact absurd hbit (by decide)

end EcuTelemetry.Backend
