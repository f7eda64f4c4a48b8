/-
  EcuTelemetry.Backend.ShortDisturbance

  The anomaly rule on a metric that leaves its level for less than the hold time.

  While the disturbance lasts the mean moves towards it.  When the metric is back, its
  old level may be anomalous to the new mean, and a run of anomalous samples that the
  disturbance began goes on.  The alert is opened iff the run lasts longer than the
  hold time: iff the level is still beyond the band of the average that many samples
  after the run began (`never_opened_iff`).
-/

import EcuTelemetry.Backend.LevelShift
import EcuTelemetry.Backend.StepRate

namespace EcuTelemetry.Backend.Engine

/-- A new process, the rules as they come, and one device: its metric is at `c` for 21
    samples and 30 s at least, takes any values for less than 3 s, and then stays at `c`.
    The gate does not move; the rest of the samples is arbitrary. -/
structure DisturbedRun (metric : String) (c : ℝ) where
  dev : String
  db : Database ℝ
  rate : ℕ
  /-- the samples at `c` -/
  baseline : ℕ
  /-- the samples that follow, before the metric is back -/
  disturbed : ℕ
  start : ℝ
  gate : ℝ
  value : ℕ → ℝ
  sample : ℕ → Dict String (Json ℝ)
  clock : ℕ → ℝ
  loss : ℕ → Option ℝ
  metric_mem : metric ∈ METRICS
  rate_pos : 1 ≤ rate
  rate_le : rate ≤ 100
  warm : 21 ≤ baseline
  long : 30 * rate ≤ baseline
  short : disturbed < 3 * rate
  start_pos : 0 < start
  rests : ∀ i, i < baseline ∨ baseline + disturbed ≤ i → value i = c
  readable : ∀ i, Readable (sample i)
  gate_eq : ∀ i, Dict.get? (sample i) "rpm" = some (.float gate)
  metric_eq : ∀ i, Dict.get? (sample i) metric = some (.float (value i))
  defaultRules : db.rules = none
  noAlert : db.openAlert dev (some ("anomaly:" ++ metric)) = none

namespace DisturbedRun

variable {metric : String} {c : ℝ} (r : DisturbedRun metric c)

/-- The time of a sample. -/
noncomputable def time (i : ℕ) : ℝ := r.start + i / r.rate

noncomputable def event (i : ℕ) : EngineEvent ℝ :=
  .telemetry r.dev (r.sample i) (r.time i) (r.clock i) (r.loss i)

/-- The engine after the first samples. -/
noncomputable def after (n : ℕ) : Engine ℝ := exec step (init r.db) ((List.range n).map r.event)

/-- The metric's alert is in the database. -/
def Opened (n : ℕ) : Prop := (r.after n).db.openAlert r.dev (some ("anomaly:" ++ metric)) ≠ none

/-- The number of samples before the metric is back at `c`. -/
def back : ℕ := r.baseline + r.disturbed

/-- The average of the metric after the first samples. -/
noncomputable def ewma : ℕ → Ewma ℝ
  | 0 => ewma0
  | n + 1 => (ewma n).judged false (r.time n) (r.value n)

/-- Some sample so far met the condition of the rule. -/
noncomputable def fired : ℕ → Bool
  | 0 => false
  | n + 1 => fired n || (r.ewma (n + 1)).sustained (r.time n)

theorem after_succ (n : ℕ) : r.after (n + 1) = step (r.after n) (r.event n) := by
  rw [after, after, List.range_succ, List.map_append, exec_append]
  rfl

theorem time_pos (i : ℕ) : 0 < r.time i :=
  add_pos_of_pos_of_nonneg r.start_pos (div_nonneg (Nat.cast_nonneg _) (Nat.cast_nonneg _))

/-! ## The engine keeps the average -/

/-- The engine after any number of samples: the average of the recursion, and whether the alert
    is there. -/
theorem watch_after (n : ℕ) : ∃ g, AtRest r.gate g ∧
    Watch r.dev metric g (r.ewma n) (r.fired n) (r.after n) := by
  induction n with
  | zero =>
    refine ⟨ewma0, .inl rfl, ?_, nofun, rfl, rfl, fun _ => ewma0_var.ge, ?_⟩
    · show mergeRules (r.db.rules.getD []) = DEFAULT_RULES
      rw [r.defaultRules]
      rfl
    · show (r.db.openAlert r.dev (some ("anomaly:" ++ metric))).isSome = false
      rw [r.noAlert]
      rfl
  | succ n ih =>
    obtain ⟨g, hg, hwatch⟩ := ih
    have hstep : Watch r.dev metric _ _ _ (step (r.after n) (r.event n)) :=
      watch_step r.metric_mem (r.readable n) (r.gate_eq n) (r.metric_eq n) hwatch
    rw [hg.afterSample] at hstep
    rw [r.after_succ]
    exact ⟨_, hg.next _ _, hstep⟩

theorem average_after (n : ℕ) : (r.after n).average r.dev metric = r.ewma n := by
  obtain ⟨g, -, hwatch⟩ := r.watch_after n
  exact hwatch.own

theorem ewma_var (n : ℕ) : 0 ≤ (r.ewma n).var := by
  obtain ⟨g, -, hwatch⟩ := r.watch_after n
  rw [← hwatch.own]
  exact hwatch.var metric

theorem ewma_n (n : ℕ) : (r.ewma n).n = n := by
  induction n with
  | zero => rfl
  | succ n ih =>
    rw [ewma, Ewma.judged]
    split <;> exact (Ewma.next_n _ _ _ _).trans (congrArg (· + 1) ih)

theorem baseline_ewma : ∀ n ≤ r.baseline, Baseline c n (r.ewma n) := by
  intro n hn
  induction n with
  | zero => exact baseline_ewma0 c
  | succ n ih =>
    rw [ewma, r.rests n (.inl (by omega))]
    exact ((ih (by omega)).judged _).1

/-! ## Runs of anomalous samples -/

/-- The run of anomalous samples that ends with the sample before `n`. -/
structure HotRun (n : ℕ) (e : Ewma ℝ) : Prop where
  after_baseline : r.baseline + e.streak ≤ n
  since : e.since = if e.streak = 0 then none else some (r.time (n - e.streak))

variable {r}

/-- One more sample of an anomalous run. -/
theorem HotRun.judged {n : ℕ} {e : Ewma ℝ} (h : r.HotRun n e) (x : ℝ) :
    r.HotRun (n + 1) (e.judged false (r.time n) x) := by
  have hstart := h.after_baseline
  rw [Ewma.judged]
  split
  · refine ⟨by dsimp only; omega, ?_⟩
    dsimp only
    rw [if_neg (Nat.succ_ne_zero _), h.since, Nat.add_sub_add_right]
    split
    · next hzero => rw [hzero, Nat.sub_zero, Option.getD_none]
    · rfl
  · exact ⟨by dsimp only; omega, rfl⟩

variable (r)

theorem hotRun_ewma {n : ℕ} (hn : r.baseline ≤ n) : r.HotRun n (r.ewma n) := by
  induction n, hn using Nat.le_induction with
  | base =>
    have h := r.baseline_ewma r.baseline (le_refl _)
    exact ⟨by rw [h.streak, Nat.add_zero], by rw [h.since, if_pos h.streak]⟩
  | succ n _ ih => exact ih.judged (r.value n)

/-- The hold time is over when the run is longer than `3 * rate` samples. -/
theorem sustained_iff {n : ℕ} (hn : r.baseline ≤ n) :
    (r.ewma (n + 1)).sustained (r.time n) = true ↔ 3 * r.rate < (r.ewma (n + 1)).streak := by
  have h := r.hotRun_ewma (Nat.le_succ_of_le hn)
  have hstart := h.after_baseline
  have hsince := h.since
  have hrate := r.rate_pos
  generalize r.ewma (n + 1) = e at hstart hsince ⊢
  rw [Ewma.sustained, Bool.and_eq_true, decide_eq_true_iff, decide_eq_true_iff]
  by_cases hzero : e.streak = 0
  · rw [hzero]
    omega
  rw [if_neg hzero] at hsince
  have hnonzero : ¬ PyFloat.eqInt (r.time (n + 1 - e.streak)) 0 = true := by
    rw [ExactFloat.eqInt_iff, Int.cast_zero]
    exact (r.time_pos _).ne'
  -- the run began `streak - 1` samples before this one
  obtain ⟨k, hk⟩ := Nat.exists_eq_succ_of_ne_zero hzero
  have hfirst : n + 1 - e.streak = n - k := by omega
  have hpos : (0 : ℝ) < r.rate := by exact_mod_cast hrate
  have hlength : r.time n - r.time (n - k) = k / r.rate := by
    rw [time, time, Nat.cast_sub (by omega)]
    ring
  rw [hsince, orNow, if_neg hnonzero, hfirst, hlength, hk, le_div_iff₀ hpos]
  have hcast : (3 : ℝ) * r.rate ≤ k ↔ 3 * r.rate ≤ k := by exact_mod_cast Iff.rfl
  rw [hcast]
  omega

/-- The alert comes with the sample that makes the run longer than the hold time. -/
theorem fired_iff (n : ℕ) : r.fired n = true ↔ ∃ j ≤ n, 3 * r.rate < (r.ewma j).streak := by
  -- over the baseline no run of hot samples begins
  have hquiet : ∀ j ≤ r.baseline, (r.ewma j).streak = 0 := fun j hj => (r.baseline_ewma j hj).streak
  induction n with
  | zero =>
    refine ⟨fun h => absurd h Bool.false_ne_true, fun ⟨j, hj, hlong⟩ => ?_⟩
    rw [hquiet j (by omega)] at hlong
    omega
  | succ n ih =>
    have hlast : (r.ewma (n + 1)).sustained (r.time n) = true ↔
        3 * r.rate < (r.ewma (n + 1)).streak := by
      by_cases hn : r.baseline ≤ n
      · exact r.sustained_iff hn
      · have hzero := hquiet (n + 1) (by omega)
        rw [Ewma.sustained, hzero]
        exact ⟨fun h => absurd h Bool.false_ne_true, fun h => absurd h (Nat.not_lt_zero _)⟩
    rw [fired, Bool.or_eq_true]
    refine (or_congr ih hlast).trans ⟨?_, ?_⟩
    · rintro (⟨j, hj, hlong⟩ | hlong)
      · exact ⟨j, Nat.le_succ_of_le hj, hlong⟩
      · exact ⟨n + 1, le_refl _, hlong⟩
    · rintro ⟨j, hj, hlong⟩
      rcases Nat.le_succ_iff.mp hj with hj | rfl
      · exact .inl ⟨j, hj, hlong⟩
      · exact .inr hlong

theorem opened_iff (n : ℕ) : r.Opened n ↔ ∃ j ≤ n, 3 * r.rate < (r.ewma j).streak := by
  obtain ⟨g, -, hwatch⟩ := r.watch_after n
  rw [← r.fired_iff, Opened, ← hwatch.alert, Option.isSome_iff_ne_none]

/-! ## The metric is back -/

/-- From sample `back` on the metric is at a level, as after a shift. -/
theorem ewma_back (k : ℕ) : r.ewma (r.back + k) =
    shiftRun defaultParams c (fun k => r.time (r.back + k)) (r.ewma r.back) k := by
  induction k with
  | zero => rfl
  | succ k ih =>
    rw [← Nat.add_assoc, ewma, shiftRun, ← ih, judged_default,
      r.rests _ (.inr (by rw [back]; omega))]

theorem streak_succ_le (n : ℕ) : (r.ewma (n + 1)).streak ≤ (r.ewma n).streak + 1 := by
  rw [ewma, Ewma.judged]
  split
  · exact le_refl _
  · exact Nat.zero_le _

theorem streak_add_le (n k : ℕ) : (r.ewma (n + k)).streak ≤ (r.ewma n).streak + k := by
  induction k with
  | zero => exact le_refl _
  | succ k ih =>
    have := r.streak_succ_le (n + k)
    rw [← Nat.add_assoc]
    omega

/-- The disturbance itself is too short for it. -/
theorem streak_le {n : ℕ} (hn : n ≤ r.back) : (r.ewma n).streak < 3 * r.rate := by
  have hshort := r.short
  rcases Nat.le_total r.baseline n with h | h
  · have := (r.hotRun_ewma h).after_baseline
    rw [back] at hn
    omega
  · rw [(r.baseline_ewma n h).streak]
    omega

/-- The level is within the band of the average after the hold time of the run that
    the disturbance leaves behind. -/
def Recovers : Prop :=
  let e := (r.after r.back).average r.dev metric
  (199 / 200) ^ (3 * r.rate - e.streak) * |c - e.mean| ≤ 4 * max √e.var (1 / 20)

theorem share_default : 1 - (defaultParams : AnomalyParams ℝ).alpha / 10 = 199 / 200 := by
  rw [alpha_default]
  norm_num

theorem band_default (e : Ewma ℝ) : e.band defaultParams = 4 * max √e.var (1 / 20) := by
  rw [Ewma.band, zlim_default, minStd_default]
  rfl

/-- Back at the level, the mean comes down by a tenth of the share. -/
theorem shifted_back {k : ℕ}
    (hfar : ∀ j < k, ¬ Relearned defaultParams c (r.ewma (r.back + j))) :
    Shifted defaultParams c (r.ewma r.back) k (r.ewma (r.back + k)) := by
  have h0 : 0 < (defaultParams : AnomalyParams ℝ).alpha := by rw [alpha_default]; norm_num
  have h1 : (defaultParams : AnomalyParams ℝ).alpha ≤ 1 := by rw [alpha_default]; norm_num
  have hwarm := r.warm
  have hn : 21 ≤ (r.ewma r.back).n := by
    rw [ewma_n, back]
    omega
  rw [ewma_back]
  refine shiftRun_shifted h1 ((warmup_default _).mpr (by omega)) (r.ewma_var _)
    (by omega) fun j hj => ?_
  rw [← ewma_back]
  exact hfar j hj

/-- Whether it recovers, by the first healthy sample that is within the band. -/
theorem recovers_iff : r.Recovers ↔
    ∃ j, (r.ewma r.back).streak + j ≤ 3 * r.rate ∧
    Relearned defaultParams c (r.ewma (r.back + j)) := by
  have hstreak := r.streak_le (le_refl r.back)
  rw [Recovers, average_after]
  constructor
  · intro hnear
    by_contra hnone
    -- the run goes on to the end of the hold time, and there the level is within the band
    have hfar : ∀ j ≤ 3 * r.rate - (r.ewma r.back).streak,
        ¬ Relearned defaultParams c (r.ewma (r.back + j)) :=
      fun j hj h => hnone ⟨j, by omega, h⟩
    have hshifted := r.shifted_back fun j hj => hfar j hj.le
    refine hfar _ (le_refl _) ⟨r.ewma_var _, ?_⟩
    rw [hshifted.distance, share_default, band_default, hshifted.var]
    exact hnear
  · rintro ⟨j, hj, hrelearned⟩
    -- the first such sample: up to there the distance has only decayed
    classical
    have hex : ∃ j, Relearned defaultParams c (r.ewma (r.back + j)) := ⟨j, hrelearned⟩
    have hfirst := Nat.find_min' hex hrelearned
    have hshifted := r.shifted_back fun i hi => Nat.find_min hex hi
    have hnear := (Nat.find_spec hex).near
    rw [hshifted.distance, share_default, band_default, hshifted.var] at hnear
    refine le_trans (mul_le_mul_of_nonneg_right ?_ (abs_nonneg _)) hnear
    exact pow_le_pow_of_le_one (by norm_num) (by norm_num) (by omega)

/-- A level that is learned again stays so. -/
theorem relearned_back {j k : ℕ} (hjk : j ≤ k)
    (h : Relearned defaultParams c (r.ewma (r.back + j))) :
    Relearned defaultParams c (r.ewma (r.back + k)) := by
  rw [ewma_back] at h ⊢
  exact shiftRun_relearned (by rw [zlim_default]; norm_num) (by rw [minStd_default]; norm_num)
    (by rw [alpha_default]; norm_num) (by rw [alpha_default]; norm_num) h k hjk

theorem streak_of_relearned {k : ℕ} (h : Relearned defaultParams c (r.ewma (r.back + k))) :
    (r.ewma (r.back + (k + 1))).streak = 0 := by
  rw [ewma_back] at h ⊢
  rw [shiftRun, Ewma.judgedAt, h.cold, if_neg Bool.false_ne_true]

/-- If it does, no run is long enough. -/
theorem streak_le_of_recovers (h : r.Recovers) (n : ℕ) : (r.ewma n).streak ≤ 3 * r.rate := by
  obtain ⟨j, hj, hrelearned⟩ := r.recovers_iff.mp h
  rcases Nat.le_total n r.back with hn | hn
  · exact (r.streak_le hn).le
  obtain ⟨k, rfl⟩ := Nat.exists_eq_add_of_le hn
  rcases Nat.lt_or_ge j k with hk | hk
  · obtain ⟨i, rfl⟩ := Nat.exists_eq_add_of_lt hk
    rw [r.streak_of_relearned (r.relearned_back (Nat.le_add_right j i) hrelearned)]
    exact Nat.zero_le _
  · have := r.streak_add_le r.back k
    omega

/-- If it does not, one is. -/
theorem opened_of_not_recovers (h : ¬ r.Recovers) : ∃ n, r.Opened n := by
  have hstreak := r.streak_le (le_refl r.back)
  have hfar : ∀ j ≤ 3 * r.rate - (r.ewma r.back).streak,
      ¬ Relearned defaultParams c (r.ewma (r.back + j)) :=
    fun j hj hrelearned => h (r.recovers_iff.mpr ⟨j, by omega, hrelearned⟩)
  have hshifted := r.shifted_back fun j (hj : j < 3 * r.rate - (r.ewma r.back).streak + 1) =>
    hfar j (Nat.lt_succ_iff.mp hj)
  have hlong :
      3 * r.rate < (r.ewma (r.back + (3 * r.rate - (r.ewma r.back).streak + 1))).streak := by
    rw [hshifted.streak]
    omega
  exact ⟨_, (r.opened_iff _).mpr ⟨_, le_refl _, hlong⟩⟩

/-- The disturbance never opens the alert iff the metric's level is within the band
    when the run of anomalous samples has lasted for the hold time. -/
theorem never_opened_iff : (∀ n, ¬ r.Opened n) ↔ r.Recovers := by
  refine ⟨fun hnever => ?_, fun h n hopened => ?_⟩
  · by_contra h
    obtain ⟨n, hn⟩ := r.opened_of_not_recovers h
    exact hnever n hn
  · obtain ⟨j, -, hlong⟩ := (r.opened_iff n).mp hopened
    exact absurd (r.streak_le_of_recovers h j) (not_le.mpr hlong)

/-- Two samples a thousand degrees too high, at 1 Hz. -/
noncomputable def spike : DisturbedRun "temp_c" 50 where
  dev := "E1"
  db := {}
  rate := 1
  baseline := 30
  disturbed := 2
  start := 100
  gate := 3000
  value i := if i < 30 then 50 else if i < 32 then 1050 else 50
  sample i := warmSample (if i < 30 then 50 else if i < 32 then 1050 else 50)
  clock _ := 0
  loss _ := none
  metric_mem := StepRun.tempC_mem
  rate_pos := by omega
  rate_le := by omega
  warm := by omega
  long := by omega
  short := by omega
  start_pos := by norm_num
  rests i hi := by
    rcases hi with hi | hi
    · rw [if_pos hi]
    · rw [if_neg (by omega), if_neg (by omega)]
  readable _ := readable_warmSample _
  gate_eq _ := rfl
  metric_eq _ := rfl
  defaultRules := rfl
  noAlert := rfl

/-- A far sample, when the variance is still zero. -/
theorem judged_far {e : Ewma ℝ} (hn : 20 ≤ e.n) (hvar : e.var = 0) {x : ℝ}
    (hfar : 1 / 5 < |x - e.mean|) (now : ℝ) :
    (e.judged false now x).mean = e.mean + 1 / 200 * (x - e.mean) ∧
      (e.judged false now x).var = 0 ∧ (e.judged false now x).streak = e.streak + 1 := by
  have hhot : e.hot false x = true := by
    refine hot_iff.mpr ⟨hn, ?_⟩
    rw [hvar, ExactFloat.root_zero, max_eq_right (by norm_num)]
    linarith
  rw [Ewma.judged, if_pos hhot, Ewma.next_later (by omega)]
  exact ⟨rfl, hvar, rfl⟩

/-- Back at 50 degrees after two seconds, the metric opens the alert. -/
theorem spike_opens : ¬ ∀ n, ¬ spike.Opened n := by
  have hbase := spike.baseline_ewma 30 (le_refl _)
  have hmean : (spike.ewma 30).mean = 50 :=
    hbase.mean.resolve_left (by rw [hbase.n]; exact Nat.succ_ne_zero _)
  have hvalue : spike.value 30 = 1050 ∧ spike.value 31 = 1050 := by norm_num [spike]
  -- the mean after the first and after the second sample
  have hfirst := judged_far (x := 1050) (hbase.n.ge.trans' (by norm_num)) hbase.var
    (by rw [hmean]; norm_num) (spike.time 30)
  have hnext : spike.ewma 31 = (spike.ewma 30).judged false (spike.time 30) 1050 := by
    rw [← hvalue.1]
    rfl
  rw [← hnext, hmean, hbase.streak] at hfirst
  have hsecond := judged_far (x := 1050) (by rw [spike.ewma_n]; norm_num) hfirst.2.1
    (by rw [hfirst.1]; norm_num) (spike.time 31)
  have hlast : spike.ewma 32 = (spike.ewma 31).judged false (spike.time 31) 1050 := by
    rw [← hvalue.2]
    rfl
  rw [← hlast, hfirst.1, hfirst.2.2] at hsecond
  obtain ⟨n, hn⟩ := spike.opened_of_not_recovers fun h => by
    rw [Recovers, average_after] at h
    rw [show spike.back = 32 from rfl, hsecond.1, hsecond.2.1, hsecond.2.2, Real.sqrt_zero] at h
    norm_num [spike] at h
  exact fun hnever => hnever n hn

end DisturbedRun

end EcuTelemetry.Backend.Engine
