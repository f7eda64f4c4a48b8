/-
  EcuTelemetry.Backend.StepRate

  The anomaly rule on a level shift, at different telemetry rates.

  A metric rests at `c` and then at `c + D`.  While the rule finds its samples
  anomalous, the mean moves to the new level by a two-hundredth of the distance
  with each sample: after `k` samples the distance is `D * (199/200) ^ k`.  The
  hold time is in seconds, so at `rate` samples a second the alert is opened iff
  sample `3 * rate` is still anomalous.
-/

import Mathlib.Algebra.Order.Ring.Abs
import Mathlib.Tactic.Ring
import EcuTelemetry.Backend.DefaultRules
import EcuTelemetry.Backend.Ingest

namespace EcuTelemetry.Backend.Engine

open Proc

/-! ## The samples of the ingest server -/

/-! ## A metric at rest -/

section Rest

variable {F : Type} [Field F] [LinearOrder F] [IsStrictOrderedRing F] [PyFloat F] [ExactFloat F]

/-- The gate rests. -/
def AtRest (x : F) (g : Ewma F) : Prop := g.n = 0 ∨ g.mean = x

omit [PyFloat F] [ExactFloat F] in
/-- At rest the gate is closed. -/
theorem AtRest.not_moving {x : F} {g : Ewma F} (h : AtRest x g) : g.moving x = false := by
  rw [Ewma.moving]
  rcases h with hn | hmean
  · rw [hn]
    rfl
  · have hnear : ¬ max (1 / 10 * |g.mean|) 100 < |x - g.mean| := by
      rw [hmean, sub_self, abs_zero]
      exact not_lt.mpr (le_max_of_le_right (by norm_num))
    rw [decide_eq_false hnear, Bool.and_false]

omit [LinearOrder F] [IsStrictOrderedRing F] [PyFloat F] [ExactFloat F] in
/-- And it stays at rest. -/
theorem AtRest.next {x : F} {g : Ewma F} (h : AtRest x g) (alpha : F) (learnVar : Bool) :
    AtRest x (g.next x alpha learnVar) := by
  rw [Ewma.next]
  split
  · exact .inr rfl
  · next hn =>
    have hmean := h.resolve_left hn
    refine .inr ?_
    dsimp only
    rw [hmean, sub_self, mul_zero, add_zero]

theorem AtRest.afterSample {g : Ewma F} {x : F} (h : AtRest x g) (metric : String) (e : Ewma F)
    (now y : F) : Engine.afterSample metric g e now x y = e.judged false now y := by
  rw [Engine.afterSample, h.not_moving, Bool.false_and]

omit [IsStrictOrderedRing F] in
theorem hot_iff {e : Ewma F} {x : F} :
    e.hot false x = true ↔ 20 ≤ e.n ∧ 4 * max (ExactFloat.root e.var) (1 / 20) < |x - e.mean| := by
  rw [Ewma.hot, Bool.not_false, Bool.and_true, Bool.and_eq_true, decide_eq_true_eq,
    decide_eq_true_eq]

/-- Near the mean no sample is anomalous. -/
theorem not_hot_of_near {e : Ewma F} {x : F} (h : |x - e.mean| ≤ 1 / 5) :
    e.hot false x = false := by
  refine Bool.eq_false_iff.mpr fun hot => ?_
  have hlt := (hot_iff.mp hot).2
  have hfloor : (1 : F) / 20 ≤ max (ExactFloat.root e.var) (1 / 20) := le_max_right _ _
  linarith

/-- The samples at `c`. -/
structure Baseline (c : F) (n : ℕ) (e : Ewma F) : Prop where
  n : e.n = n
  mean : AtRest c e
  var : e.var = 0
  streak : e.streak = 0
  since : e.since = none

omit [IsStrictOrderedRing F] in
theorem baseline_ewma0 (c : F) : Baseline c 0 (ewma0 : Ewma F) :=
  ⟨rfl, .inl rfl, ewma0_var, rfl, rfl⟩

/-- A constant sample is never anomalous. -/
theorem Baseline.judged {c : F} {n : ℕ} {e : Ewma F} (h : Baseline c n e) (now : F) :
    Baseline c (n + 1) (e.judged false now c) ∧ (e.judged false now c).sustained now = false := by
  -- at its mean, the sample is not hot
  have hcold : e.hot false c = false := by
    rcases h.mean with hn | hmean
    · rw [Ewma.hot, hn]
      rfl
    · exact not_hot_of_near (by rw [hmean, sub_self, abs_zero]; norm_num)
  have hjudged : e.judged false now c =
      { e.next c (1 / 20) true with streak := 0, since := none } := by
    rw [Ewma.judged, hcold, if_neg Bool.false_ne_true]
  rw [hjudged]
  refine ⟨⟨?_, h.mean.next (1 / 20) true, ?_, rfl, rfl⟩, rfl⟩
  · rw [← h.n, Ewma.next]
    split
    · next hn => rw [hn]
    · rfl
  · show (e.next c (1 / 20) true).var = 0
    rw [Ewma.next]
    split
    · rfl
    · next hn =>
      have hmean := h.mean.resolve_left hn
      dsimp only
      rw [if_pos rfl, h.var, hmean, sub_self, mul_zero, add_zero, mul_zero]

/-- The gate at rest, and a temperature. -/
def warmSample (x : F) : Dict String (Json F) := [("rpm", .float 3000), ("temp_c", .float x)]

omit [LinearOrder F] [IsStrictOrderedRing F] [PyFloat F] [ExactFloat F] in
/-- The samples of the run have numbers in them. -/
theorem readable_warmSample (x : F) : Readable (warmSample x) := by
  refine ⟨fun key hkey v hv => ?_, fun v hv => ?_⟩
  · simp only [METRIC_KEYS, List.mem_cons, List.not_mem_nil, or_false] at hkey
    rcases hkey with rfl | rfl | rfl | rfl | rfl
    · exact ⟨3000, (Option.some.inj hv).symm⟩
    · exact ⟨x, (Option.some.inj hv).symm⟩
    · exact nomatch hv
    · exact nomatch hv
    · exact nomatch hv
  · exact nomatch hv

end Rest

/-! ## Runs -/

/-- A new process, the rules as they come, and one device: its metric is at `c`
    for 21 samples and 30 s at least, and then at `c + D` for 4 s.  The gate does
    not move; the rest of the samples is arbitrary. -/
structure StepRun (metric : String) (c D : ℚ) where
  dev : String
  db : Database ℚ
  rate : ℕ
  /-- the samples at `c` -/
  baseline : ℕ
  start : ℚ
  gate : ℚ
  sample : ℕ → Dict String (Json ℚ)
  clock : ℕ → ℚ
  loss : ℕ → Option ℚ
  metric_mem : metric ∈ METRICS
  rate_pos : 1 ≤ rate
  rate_le : rate ≤ 100
  warm : 21 ≤ baseline
  long : 30 * rate ≤ baseline
  start_pos : 0 < start
  readable : ∀ i, Readable (sample i)
  gate_eq : ∀ i, Dict.get? (sample i) "rpm" = some (.float gate)
  metric_eq : ∀ i, Dict.get? (sample i) metric = some (.float (if i < baseline then c else c + D))
  defaultRules : db.rules = none
  noAlert : db.openAlert dev (some ("anomaly:" ++ metric)) = none

namespace StepRun

variable {metric : String} {c D : ℚ}

/-- The time of a sample. -/
def time (r : StepRun metric c D) (i : ℕ) : ℚ := r.start + i / r.rate

def event (r : StepRun metric c D) (i : ℕ) : EngineEvent ℚ :=
  .telemetry r.dev (r.sample i) (r.time i) (r.clock i) (r.loss i)

/-- The engine after the first samples. -/
def after (r : StepRun metric c D) (n : ℕ) : Engine ℚ :=
  exec step (init r.db) ((List.range n).map r.event)

/-- At the end the metric's alert is open. -/
def opens (r : StepRun metric c D) : Bool :=
  ((r.after (r.baseline + 4 * r.rate)).db.openAlert r.dev (some ("anomaly:" ++ metric))).isSome

variable (r : StepRun metric c D)

theorem after_succ (n : ℕ) : r.after (n + 1) = step (r.after n) (r.event n) := by
  rw [after, after, List.range_succ, List.map_append, exec_append]
  rfl

/-- The share of the distance that an anomalous sample leaves. -/
def DECAY : ℚ := 199 / 200

/-- All samples at `c + D` so far were anomalous; the first one was at `first`. -/
structure Anomalous (c D first : ℚ) (k : ℕ) (e : Ewma ℚ) : Prop where
  n : 21 ≤ e.n
  mean : c + D - e.mean = D * DECAY ^ k
  var : e.var = 0
  streak : e.streak = k
  since : e.since = if k = 0 then none else some first
  above : ∀ j < k, 1 / 5 < |D| * DECAY ^ j

/-- The mean is so near to the new level that no sample is anomalous any more. -/
structure Settled (c D : ℚ) (e : Ewma ℚ) : Prop where
  n : e.n ≠ 0
  near : |c + D - e.mean| ≤ 1 / 5
  var : 0 ≤ e.var

theorem decay_pos (k : ℕ) : 0 < DECAY ^ k := pow_pos (by norm_num [DECAY]) k

theorem decay_antitone {j k : ℕ} (h : j ≤ k) : DECAY ^ k ≤ DECAY ^ j :=
  pow_le_pow_of_le_one (by norm_num [DECAY]) (by norm_num [DECAY]) h

theorem Anomalous.distance {first : ℚ} {k : ℕ} {e : Ewma ℚ} (h : Anomalous c D first k e) :
    |c + D - e.mean| = |D| * DECAY ^ k := by
  rw [h.mean, abs_mul, abs_of_pos (decay_pos k)]

/-- A sample that is still anomalous. -/
theorem Anomalous.hot {first : ℚ} {k : ℕ} {e : Ewma ℚ} (h : Anomalous c D first k e)
    (habove : 1 / 5 < |D| * DECAY ^ k) {now : ℚ} (hnow : k = 0 → now = first) :
    Anomalous c D first (k + 1) (e.judged false now (c + D)) := by
  -- the distance is above the floor of the deviation
  have hhot : e.hot false (c + D) = true := by
    refine hot_iff.mpr ⟨by have := h.n; omega, ?_⟩
    rw [h.var, ExactFloat.root_zero, max_eq_right (by norm_num), h.distance]
    linarith
  have hn : ¬ e.n = 0 := by have := h.n; omega
  rw [Ewma.judged, if_pos hhot, Ewma.next, if_neg hn]
  refine ⟨?_, ?_, h.var, by rw [h.streak], ?_, fun j hj => ?_⟩
  · have := h.n
    show 21 ≤ e.n + 1
    omega
  -- a hot sample moves the mean by a tenth of alpha
  · show c + D - (e.mean + 1 / 200 * (c + D - e.mean)) = D * DECAY ^ (k + 1)
    rw [pow_succ, ← mul_assoc, ← h.mean, DECAY]
    ring
  · show some (e.since.getD now) = _
    rw [h.since, if_neg (Nat.succ_ne_zero k)]
    split
    · next hk => rw [Option.getD_none, hnow hk]
    · rfl
  · rcases Nat.lt_succ_iff_lt_or_eq.mp hj with hj | rfl
    · exact h.above j hj
    · exact habove

/-- A sample near the mean moves it nearer. -/
theorem settled_judged {e : Ewma ℚ} (hn : e.n ≠ 0) (hvar : 0 ≤ e.var)
    (hnear : |c + D - e.mean| ≤ 1 / 5) (now : ℚ) :
    Settled c D (e.judged false now (c + D)) ∧
      (e.judged false now (c + D)).sustained now = false := by
  have hcold := not_hot_of_near hnear
  refine ⟨⟨?_, ?_, Ewma.judged_var_nonneg hvar false now _⟩, ?_⟩
  · rw [Ewma.judged, hcold, if_neg Bool.false_ne_true, Ewma.next, if_neg hn]
    exact Nat.succ_ne_zero e.n
  · rw [Ewma.judged, hcold, if_neg Bool.false_ne_true, Ewma.next, if_neg hn]
    have hmean : c + D - (e.mean + 1 / 20 * (c + D - e.mean)) = 19 / 20 * (c + D - e.mean) := by
      ring
    dsimp only
    rw [hmean, abs_mul, abs_of_pos (by norm_num : (0 : ℚ) < 19 / 20)]
    have := abs_nonneg (c + D - e.mean)
    linarith
  · rw [Ewma.judged, hcold, if_neg Bool.false_ne_true]
    rfl

/-- Where a run stands after `k` samples at `c + D`. -/
def Stands (c D first : ℚ) (rate k : ℕ) (e : Ewma ℚ) (opened : Bool) : Prop :=
  (Anomalous c D first k e ∧ opened = decide (3 * rate < k)) ∨
    (Settled c D e ∧ opened = decide (1 / 5 < |D| * DECAY ^ (3 * rate)))

/-- The hold time is over with sample `3 * rate`. -/
theorem Anomalous.sustained {first now : ℚ} {rate k : ℕ} {e : Ewma ℚ}
    (h : Anomalous c D first (k + 1) e) (hrate : 1 ≤ rate) (hfirst : 0 < first)
    (hnow : now = first + k / rate) : e.sustained now = decide (3 * rate ≤ k) := by
  have hsince : e.since = some first := by rw [h.since, if_neg (Nat.succ_ne_zero k)]
  have horNow : orNow (some first) now = first := by
    refine if_neg fun heq => ?_
    have hzero : first = ((0 : Int) : ℚ) := of_decide_eq_true heq
    rw [Int.cast_zero] at hzero
    exact hfirst.ne' hzero
  have hpos : (0 : ℚ) < rate := by exact_mod_cast hrate
  have hhold : 3 ≤ now - first ↔ 3 * rate ≤ k := by
    rw [hnow, add_sub_cancel_left, le_div_iff₀ hpos]
    exact_mod_cast Iff.rfl
  rw [Ewma.sustained, hsince, horNow, h.streak, ← Bool.decide_and, decide_eq_decide, hhold]
  omega

/-- One sample after the step. -/
theorem Stands.judged {first now : ℚ} {rate k : ℕ} {e : Ewma ℚ} {b : Bool}
    (h : Stands c D first rate k e b) (hrate : 1 ≤ rate) (hfirst : 0 < first)
    (hnow : now = first + k / rate) :
    Stands c D first rate (k + 1) (e.judged false now (c + D))
      (b || (e.judged false now (c + D)).sustained now) := by
  -- still on the way to the new level, or there already
  rcases h with ⟨h, hb⟩ | ⟨h, hb⟩
  · by_cases habove : 1 / 5 < |D| * DECAY ^ k
    · -- one more anomalous sample
      have hnow0 : k = 0 → now = first := by
        rintro rfl
        rw [hnow, Nat.cast_zero, zero_div, add_zero]
      have hhot := h.hot habove hnow0
      refine .inl ⟨hhot, ?_⟩
      rw [hb, hhot.sustained hrate hfirst hnow, ← Bool.decide_or, decide_eq_decide]
      omega
    · -- the first one that is not
      have hnear : |c + D - e.mean| ≤ 1 / 5 := by
        rw [h.distance]
        exact not_lt.mp habove
      have hn : e.n ≠ 0 := by have := h.n; omega
      obtain ⟨hsettled, hquiet⟩ := settled_judged hn h.var.ge hnear now
      refine .inr ⟨hsettled, ?_⟩
      rw [hquiet, Bool.or_false, hb, decide_eq_decide]
      refine ⟨h.above _, fun hlast => ?_⟩
      by_contra hlate
      have hdecay : |D| * DECAY ^ (3 * rate) ≤ |D| * DECAY ^ k :=
        mul_le_mul_of_nonneg_left (decay_antitone (not_lt.mp hlate)) (abs_nonneg D)
      exact habove (hlast.trans_le hdecay)
  · obtain ⟨hsettled, hquiet⟩ := settled_judged h.n h.var h.near now
    exact .inr ⟨hsettled, by rw [hquiet, Bool.or_false, hb]⟩

/-! ## Runs -/

/-- The engine during the baseline. -/
theorem watch_after_baseline : ∀ n ≤ r.baseline, ∃ g e, AtRest r.gate g ∧ Baseline c n e ∧
    Watch r.dev metric g e false (r.after n) := by
  intro n hn
  induction n with
  | zero =>
    refine ⟨ewma0, ewma0, .inl rfl, baseline_ewma0 c, ?_, nofun, rfl, rfl, fun _ => le_refl 0, ?_⟩
    · show mergeRules (r.db.rules.getD []) = DEFAULT_RULES
      rw [r.defaultRules]
      rfl
    · show (r.db.openAlert r.dev (some ("anomaly:" ++ metric))).isSome = false
      rw [r.noAlert]
      rfl
  | succ n ih =>
    obtain ⟨g, e, hg, he, hwatch⟩ := ih (by omega)
    have hx := r.metric_eq n
    rw [if_pos (by omega)] at hx
    -- the next sample is on the old level
    have hstep : Watch r.dev metric _ _ _ (step (r.after n) (r.event n)) :=
      watch_step r.metric_mem (r.readable n) (r.gate_eq n) hx hwatch
    rw [hg.afterSample, (he.judged _).2, Bool.or_false] at hstep
    rw [r.after_succ]
    exact ⟨_, _, hg.next _ _, (he.judged _).1, hstep⟩

/-- The engine after the step. -/
theorem watch_after : ∀ k, ∃ g e b, AtRest r.gate g ∧
    Stands c D (r.time r.baseline) r.rate k e b ∧
    Watch r.dev metric g e b (r.after (r.baseline + k)) := by
  intro k
  induction k with
  -- the baseline is over: the average has its level and the warm-up is behind it
  | zero =>
    obtain ⟨g, e, hg, he, hwatch⟩ := r.watch_after_baseline r.baseline (le_refl _)
    have hn := r.warm
    have hmean : e.mean = c := he.mean.resolve_left (by rw [he.n]; omega)
    refine ⟨g, e, false, hg, .inl ⟨⟨by rw [he.n]; exact hn, ?_, he.var, he.streak, he.since,
      nofun⟩, rfl⟩, hwatch⟩
    rw [hmean, pow_zero, mul_one, add_sub_cancel_left]
  | succ k ih =>
    obtain ⟨g, e, b, hg, hstands, hwatch⟩ := ih
    have hx := r.metric_eq (r.baseline + k)
    rw [if_neg (by omega)] at hx
    -- the next sample is on the new level
    have hstep : Watch r.dev metric _ _ _
        (step (r.after (r.baseline + k)) (r.event (r.baseline + k))) :=
      watch_step r.metric_mem (r.readable _) (r.gate_eq _) hx hwatch
    rw [hg.afterSample] at hstep
    have hrate : (0 : ℚ) < r.rate := by exact_mod_cast r.rate_pos
    have htime : r.time (r.baseline + k) = r.time r.baseline + k / r.rate := by
      rw [time, time, Nat.cast_add, add_div, add_assoc]
    have hfirst : 0 < r.time r.baseline :=
      add_pos_of_pos_of_nonneg r.start_pos (div_nonneg (Nat.cast_nonneg _) hrate.le)
    rw [← Nat.add_assoc, r.after_succ]
    exact ⟨_, _, _, hg.next _ _, hstands.judged r.rate_pos hfirst htime, hstep⟩

/-- The alert is opened iff the shift outlives the hold time. -/
theorem opens_iff : r.opens = true ↔ 1 / 5 < |D| * DECAY ^ (3 * r.rate) := by
  obtain ⟨g, e, b, -, hstands, hwatch⟩ := r.watch_after (4 * r.rate)
  have hrate := r.rate_pos
  rw [opens, hwatch.alert]
  rcases hstands with ⟨h, rfl⟩ | ⟨-, rfl⟩
  · have hlast := h.above (3 * r.rate) (by omega)
    rw [decide_eq_true (by omega)]
    exact ⟨fun _ => hlast, fun _ => rfl⟩
  · exact decide_eq_true_iff

/-! ## Two rates -/

/-- Two rates decide alike iff the shift outlives the hold time at both or at neither. -/
theorem opens_iff_of_rates (x y : StepRun metric c D) : (x.opens = true ↔ y.opens = true) ↔
    |D| * DECAY ^ (3 * min x.rate y.rate) ≤ 1 / 5 ∨
      1 / 5 < |D| * DECAY ^ (3 * max x.rate y.rate) := by
  -- the alert of the higher rate is the harder one to open
  have hdecay : ∀ {p q : ℕ}, p ≤ q → 1 / 5 < |D| * DECAY ^ (3 * q) →
      1 / 5 < |D| * DECAY ^ (3 * p) :=
    fun hpq hq => hq.trans_le
      (mul_le_mul_of_nonneg_left (decay_antitone (Nat.mul_le_mul_left 3 hpq)) (abs_nonneg D))
  rw [x.opens_iff, y.opens_iff, ← not_lt]
  rcases le_total x.rate y.rate with h | h
  · rw [min_eq_left h, max_eq_right h]
    have := @hdecay _ _ h
    tauto
  · rw [min_eq_right h, max_eq_left h]
    have := @hdecay _ _ h
    tauto

theorem tempC_mem : "temp_c" ∈ METRICS := by simp only [METRICS, List.mem_cons, true_or]

/-- A quarter of a degree more, at a rate. -/
def quarterDegree (rate : ℕ) (hpos : 1 ≤ rate) (hle : rate ≤ 100) :
    StepRun "temp_c" 50 (1 / 4) where
  dev := "E1"
  db := {}
  rate := rate
  baseline := 30 * rate + 21
  start := 100
  gate := 3000
  sample i := warmSample (if i < 30 * rate + 21 then 50 else 50 + 1 / 4)
  clock _ := 0
  loss _ := none
  metric_mem := tempC_mem
  rate_pos := hpos
  rate_le := hle
  warm := by omega
  long := by omega
  start_pos := by norm_num
  readable _ := readable_warmSample _
  gate_eq _ := rfl
  metric_eq _ := rfl
  defaultRules := rfl
  noAlert := rfl

/-- The alert is opened at 1 Hz and not at 20 Hz. -/
theorem opens_iff_of_rates_fails : ¬ ∀ x y : StepRun "temp_c" 50 (1 / 4),
    x.opens = true ↔ y.opens = true := by
  intro h
  have hslow : (quarterDegree 1 (by omega) (by omega)).opens = true := by
    rw [opens_iff]
    norm_num [quarterDegree, DECAY, abs_of_pos]
  have hfast := (opens_iff _).mp ((h _ (quarterDegree 20 (by omega) (by omega))).mp hslow)
  norm_num [quarterDegree, DECAY, abs_of_pos] at hfast

end StepRun

end EcuTelemetry.Backend.Engine
