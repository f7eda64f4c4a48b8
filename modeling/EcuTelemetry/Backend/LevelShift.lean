/-
  EcuTelemetry.Backend.LevelShift

  The anomaly rule on a metric that stays at a new level.

  An anomalous sample leaves the variance alone and moves the mean by a tenth of
  `alpha`, so the distance shrinks towards a band that stands still.  A sample within
  the band shrinks the distance by `1 - alpha`; the band, a multiple of the root of
  the variance above the floor, shrinks by no more than that.
-/

import EcuTelemetry.Backend.Ewma

namespace EcuTelemetry.Backend.Engine

variable {p : AnomalyParams ℝ} {e : Ewma ℝ} {x : ℝ}

/-- A sample `x` is within the band. -/
structure Relearned (p : AnomalyParams ℝ) (x : ℝ) (e : Ewma ℝ) : Prop where
  var : 0 ≤ e.var
  near : |x - e.mean| ≤ e.band p

theorem Relearned.cold (h : Relearned p x e) : e.hotAt p false x = false := by
  rw [Ewma.hotAt, decide_eq_false (not_lt.mpr h.near), Bool.and_false, Bool.false_and]

/-- An average that sees its first sample is at this sample. -/
theorem relearned_first (hzlim : 0 < p.zlim) (hmin : 0 < p.minStd) (h : e.n = 0) (alpha : ℝ)
    (learnVar : Bool) (streak : ℕ) (since : Option ℝ) :
    Relearned p x { e.next x alpha learnVar with streak, since } := by
  rw [Ewma.next_first h]
  refine ⟨le_refl 0, ?_⟩
  dsimp only
  rw [sub_self, abs_zero]
  exact mul_nonneg hzlim.le (hmin.le.trans (le_max_right _ _))

/-- A sample takes a share of the distance away. -/
theorem distance_next {share : ℝ} (h : 0 ≤ 1 - share) (mean x : ℝ) :
    |x - (mean + share * (x - mean))| = (1 - share) * |x - mean| := by
  rw [show x - (mean + share * (x - mean)) = (1 - share) * (x - mean) by ring, abs_mul,
    abs_of_nonneg h]

/-- The root of the new variance is at least `1 - alpha` times the old root. -/
theorem root_next_ge {alpha : ℝ} (h0 : 0 ≤ alpha) (h1 : alpha ≤ 1) (hvar : 0 ≤ e.var) (d : ℝ) :
    (1 - alpha) * √e.var ≤ √((1 - alpha) * (e.var + alpha * d * d)) := by
  have hshare : 0 ≤ 1 - alpha := by linarith
  apply Real.le_sqrt_of_sq_le
  have hsquare : 0 ≤ alpha * (d * d) := mul_nonneg h0 (mul_self_nonneg d)
  have hsmall : (1 - alpha) * e.var ≤ e.var + alpha * d * d := by
    have := mul_nonneg h0 hvar
    linarith
  calc ((1 - alpha) * √e.var) ^ 2 = (1 - alpha) * ((1 - alpha) * e.var) := by
        rw [mul_pow, Real.sq_sqrt hvar]
        ring
    _ ≤ (1 - alpha) * (e.var + alpha * d * d) := mul_le_mul_of_nonneg_left hsmall hshare

/-- Within the band the next sample is too. -/
theorem Relearned.judged (hzlim : 0 < p.zlim) (hmin : 0 < p.minStd) (h0 : 0 < p.alpha)
    (h1 : p.alpha ≤ 1) (h : Relearned p x e) (now : ℝ) :
    Relearned p x (e.judgedAt p false now x) := by
  rw [Ewma.judgedAt, h.cold, if_neg Bool.false_ne_true]
  by_cases hn : e.n = 0
  · exact relearned_first hzlim hmin hn _ _ _ _
  refine ⟨Ewma.next_var_nonneg h.var h0.le h1 x true, ?_⟩
  rw [Ewma.next_later hn]
  have hshare : 0 ≤ 1 - p.alpha := by linarith
  -- the deviation shrinks by no more than the distance does
  have hroot := root_next_ge h0.le h1 h.var (x - e.mean)
  show |x - (e.mean + p.alpha * (x - e.mean))| ≤
    p.zlim * max √((1 - p.alpha) * (e.var + p.alpha * (x - e.mean) * (x - e.mean))) p.minStd
  calc |x - (e.mean + p.alpha * (x - e.mean))| = (1 - p.alpha) * |x - e.mean| :=
        distance_next hshare e.mean x
    _ ≤ (1 - p.alpha) * (p.zlim * max √e.var p.minStd) :=
        mul_le_mul_of_nonneg_left h.near hshare
    _ = p.zlim * max ((1 - p.alpha) * √e.var) ((1 - p.alpha) * p.minStd) := by
        rw [← mul_max_of_nonneg _ _ hshare]
        ring
    _ ≤ _ := by
        refine mul_le_mul_of_nonneg_left (max_le_max hroot ?_) hzlim.le
        have := mul_pos h0 hmin
        linarith

/-- Where `k` anomalous samples have left the average. -/
structure Shifted (p : AnomalyParams ℝ) (x : ℝ) (e₀ : Ewma ℝ) (k : ℕ) (e : Ewma ℝ) : Prop where
  n : e.n = e₀.n + k
  distance : |x - e.mean| = (1 - p.alpha / 10) ^ k * |x - e₀.mean|
  var : e.var = e₀.var
  streak : e.streak = e₀.streak + k

theorem Shifted.zero (p : AnomalyParams ℝ) (x : ℝ) (e : Ewma ℝ) : Shifted p x e 0 e :=
  ⟨rfl, by rw [pow_zero, one_mul], rfl, rfl⟩

/-- Beyond the band every sample is anomalous. -/
theorem Shifted.hot {k : ℕ} {e₀ : Ewma ℝ} (h : Shifted p x e₀ k e) (hwarm : p.warmup ≤ e₀.n)
    (hvar : 0 ≤ e₀.var) (hfar : ¬ Relearned p x e) : e.hotAt p false x = true := by
  have hbeyond : e.band p < |x - e.mean| := by
    by_contra hnear
    exact hfar ⟨h.var.ge.trans' hvar, not_lt.mp hnear⟩
  have hn := h.n
  rw [Ewma.hotAt, decide_eq_true (show p.warmup ≤ (e.n : Int) by omega), decide_eq_true hbeyond]
  rfl

/-- One more anomalous sample. -/
theorem Shifted.next (h1 : p.alpha ≤ 1) {k : ℕ} {e₀ : Ewma ℝ}
    (h : Shifted p x e₀ k e) (hn : e.n ≠ 0) {now : ℝ} (hhot : e.hotAt p false x = true) :
    Shifted p x e₀ (k + 1) (e.judgedAt p false now x) := by
  rw [Ewma.judgedAt, if_pos hhot, Ewma.next_later hn]
  refine ⟨?_, ?_, h.var, ?_⟩
  · show e.n + 1 = e₀.n + (k + 1)
    rw [h.n, Nat.add_assoc]
  · show |x - (e.mean + p.alpha / 10 * (x - e.mean))| = _
    rw [distance_next (by linarith), h.distance, pow_succ', mul_assoc]
  · show e.streak + 1 = e₀.streak + (k + 1)
    rw [h.streak, Nat.add_assoc]

/-- The averages after the samples. -/
noncomputable def shiftRun (p : AnomalyParams ℝ) (x : ℝ) (now : ℕ → ℝ) (e : Ewma ℝ) : ℕ → Ewma ℝ
  | 0 => e
  | k + 1 => (shiftRun p x now e k).judgedAt p false (now k) x

section Run

variable (hzlim : 0 < p.zlim) (hmin : 0 < p.minStd) (h0 : 0 < p.alpha) (h1 : p.alpha ≤ 1)
include hzlim hmin h0 h1

omit hzlim hmin in
/-- The variance stays non-negative. -/
theorem shiftRun_var (hvar : 0 ≤ e.var) (now : ℕ → ℝ) (k : ℕ) :
    0 ≤ (shiftRun p x now e k).var := by
  induction k with
  | zero => exact hvar
  | succ k ih =>
    rw [shiftRun, Ewma.judgedAt]
    split
    · exact Ewma.next_var_nonneg ih (by linarith) (by linarith) x false
    · exact Ewma.next_var_nonneg ih h0.le h1 x true

theorem shiftRun_relearned {now : ℕ → ℝ} {K : ℕ} (hK : Relearned p x (shiftRun p x now e K)) :
    ∀ k ≥ K, Relearned p x (shiftRun p x now e k) := by
  intro k hk
  induction k, hk using Nat.le_induction with
  | base => exact hK
  | succ k _ ih => exact ih.judged hzlim hmin h0 h1 (now k)

omit hzlim hmin h0 in
/-- As long as the level is not relearned the mean closes in by a tenth of the share. -/
theorem shiftRun_shifted (hwarm : p.warmup ≤ e.n) (hvar : 0 ≤ e.var) (hn : e.n ≠ 0)
    {now : ℕ → ℝ} {k : ℕ} (hfar : ∀ j < k, ¬ Relearned p x (shiftRun p x now e j)) :
    Shifted p x e k (shiftRun p x now e k) := by
  induction k with
  | zero => exact Shifted.zero p x e
  | succ k ih =>
    have hk := ih fun j hj => hfar j (Nat.lt_succ_of_lt hj)
    have hnk : (shiftRun p x now e k).n ≠ 0 := by
      rw [hk.n]
      omega
    exact hk.next h1 hnk (hk.hot hwarm hvar (hfar k (Nat.lt_succ_self k)))

omit h0 in
/-- The first sample of all settles an average, so that one that has not settled has
    seen a sample before. -/
theorem shiftRun_shifted_of_far (hwarm : p.warmup ≤ e.n) (hvar : 0 ≤ e.var) {now : ℕ → ℝ}
    {k : ℕ} (hfar : ∀ j ≤ k, ¬ Relearned p x (shiftRun p x now e j)) :
    Shifted p x e k (shiftRun p x now e k) := by
  rcases Nat.eq_zero_or_pos k with rfl | hk
  · exact Shifted.zero p x e
  · refine shiftRun_shifted h1 hwarm hvar (fun hn => hfar 1 hk ?_)
      fun j hj => hfar j hj.le
    rw [shiftRun, shiftRun, Ewma.judgedAt]
    split <;> exact relearned_first hzlim hmin hn _ _ _ _

end Run

/-- The numbers of samples that bring the distance down to the band. -/
def Reaches (p : AnomalyParams ℝ) (x : ℝ) (e : Ewma ℝ) (N : ℕ) : Prop :=
  (1 - p.alpha / 10) ^ N * |x - e.mean| ≤ p.zlim * max √e.var p.minStd

/-- The band is reached at last. -/
theorem exists_reaches (hzlim : 0 < p.zlim) (hmin : 0 < p.minStd) (h0 : 0 < p.alpha)
    (x : ℝ) (e : Ewma ℝ) : ∃ N, Reaches p x e N := by
  have hband : 0 < p.zlim * max √e.var p.minStd := mul_pos hzlim (lt_max_of_lt_right hmin)
  rcases (abs_nonneg (x - e.mean)).eq_or_lt with hzero | hpos
  · refine ⟨0, ?_⟩
    rw [Reaches, ← hzero, mul_zero]
    exact hband.le
  · obtain ⟨N, hN⟩ := exists_pow_lt_of_lt_one (div_pos hband hpos)
      (show 1 - p.alpha / 10 < 1 by linarith)
    exact ⟨N, ((lt_div_iff₀ hpos).mp hN).le⟩

open Classical in
/-- A new level is learned again: only the first `K` samples are anomalous, where
    `K` is at most the least `N` that brings the distance down to the band.  From there
    on the rule's condition is false, unless a run of no samples for no time is enough
    for it. -/
theorem level_shift_relearned (p : AnomalyParams ℝ) (hzlim : 0 < p.zlim) (hmin : 0 < p.minStd)
    (h0 : 0 < p.alpha) (h1 : p.alpha ≤ 1) (e : Ewma ℝ) (hwarm : p.warmup ≤ e.n)
    (hvar : 0 ≤ e.var) (x : ℝ) (now : ℕ → ℝ) :
    ∃ run : ℕ → Ewma ℝ, run 0 = e ∧
      (∀ k, judge p false (now k) x (run k) = .ok (run (k + 1))) ∧
      ∃ K N, IsLeast {N : ℕ | (1 - p.alpha / 10) ^ N * |x - e.mean| ≤
          p.zlim * max √e.var p.minStd} N ∧ K ≤ N ∧
        (∀ k < K, (run (k + 1)).streak ≠ 0) ∧
        ∀ k ≥ K, (run (k + 1)).streak = 0 ∧
          ((run (k + 1)).condition p (now k) = false ↔ 1 ≤ p.sustain ∨ 0 < p.sustainS) := by
  have hreach := exists_reaches hzlim hmin h0 x e
  -- at `N` the run is within the band, if it was not before
  have hrelearned : ∃ k, k ≤ Nat.find hreach ∧ Relearned p x (shiftRun p x now e k) := by
    by_contra hnone
    have hfar : ∀ j ≤ Nat.find hreach, ¬ Relearned p x (shiftRun p x now e j) :=
      fun j hj h => hnone ⟨j, hj, h⟩
    have hshifted := shiftRun_shifted_of_far hzlim hmin h1 hwarm hvar hfar
    refine hfar _ (le_refl _) ⟨shiftRun_var h0 h1 hvar now _, ?_⟩
    rw [hshifted.distance, Ewma.band, hshifted.var]
    exact Nat.find_spec hreach
  obtain ⟨hle, hK⟩ := Nat.find_spec hrelearned
  refine ⟨shiftRun p x now e, rfl, fun k => ?_, Nat.find hrelearned, Nat.find hreach,
    ⟨Nat.find_spec hreach, fun N hN => Nat.find_min' hreach hN⟩, hle,
    fun k hk => ?_, fun k hk => ?_⟩
  · exact judge_eq hmin (shiftRun_var h0 h1 hvar now k) false (now k) x
  · -- no state up to `k` is within the band, so sample `k` is anomalous
    have hfar : ∀ j ≤ k, ¬ Relearned p x (shiftRun p x now e j) := fun j hj h =>
      Nat.find_min hrelearned (Nat.lt_of_le_of_lt hj hk) ⟨by omega, h⟩
    have hhot := (shiftRun_shifted_of_far hzlim hmin h1 hwarm hvar hfar).hot hwarm hvar
      (hfar k (le_refl k))
    rw [shiftRun, Ewma.judgedAt, if_pos hhot]
    exact Nat.succ_ne_zero _
  · have hcold := (shiftRun_relearned hzlim hmin h0 h1 hK k hk).cold
    rw [shiftRun, Ewma.judgedAt, hcold, if_neg Bool.false_ne_true]
    refine ⟨rfl, ?_⟩
    have hzero : PyFloat.le p.sustainS (PyFloat.sub (now k) (now k)) = true ↔ p.sustainS ≤ 0 := by
      rw [ExactFloat.sub_eq, sub_self, ExactFloat.le_iff]
    show (decide (p.sustain ≤ (0 : ℕ)) &&
      PyFloat.le p.sustainS (PyFloat.sub (now k) (now k))) = false ↔ _
    rw [Bool.and_eq_false_iff, decide_eq_false_iff_not, ← Bool.not_eq_true, hzero, not_le, not_le]
    exact or_congr_left (by omega)

/-- The numbers of the default rules. -/
noncomputable def shiftParams : AnomalyParams ℝ :=
  { alpha := 1 / 20, zlim := 4, sustain := 3, sustainS := 3, warmup := 20, minStd := 1 / 20 }

/-- An average of samples at 60. -/
noncomputable def restingEwma : Ewma ℝ :=
  { mean := 60, var := 0, n := 20, streak := 0, since := none }

/-- A metric that goes from 60 to 75. -/
theorem level_shift_fifteen :
    ∃ run : ℕ → Ewma ℝ, run 0 = restingEwma ∧
      (∀ k : ℕ, judge shiftParams false k 75 (run k) = .ok (run (k + 1))) ∧
      ∃ K N, IsLeast {N : ℕ | (1 - shiftParams.alpha / 10) ^ N * |75 - restingEwma.mean| ≤
          shiftParams.zlim * max √restingEwma.var shiftParams.minStd} N ∧ K ≤ N ∧
        (∀ k < K, (run (k + 1)).streak ≠ 0) ∧
        ∀ k ≥ K, (run (k + 1)).streak = 0 ∧
          ((run (k + 1)).condition shiftParams (k : ℕ) = false ↔
            1 ≤ shiftParams.sustain ∨ 0 < shiftParams.sustainS) :=
  level_shift_relearned shiftParams (by norm_num [shiftParams]) (by norm_num [shiftParams])
    (by norm_num [shiftParams]) (by norm_num [shiftParams]) restingEwma (le_refl 20) (le_refl 0) 75
    fun k => k

/-- With a run of no samples for no time, the condition is true of samples that are
    not anomalous. -/
theorem condition_without_hold :
    let p : AnomalyParams ℝ := { shiftParams with sustain := 0, sustainS := 0 }
    ∃ run : ℕ → Ewma ℝ, run 0 = restingEwma ∧
      ∀ k : ℕ, judge p false k 60 (run k) = .ok (run (k + 1)) ∧
        (run (k + 1)).streak = 0 ∧ (run (k + 1)).condition p (k : ℕ) = true := by
  intro p
  have hmin : 0 < p.minStd := by norm_num [p, shiftParams]
  -- at its mean the run is never hot
  have hrest : Relearned p 60 restingEwma := by
    refine ⟨le_refl 0, ?_⟩
    rw [show (60 : ℝ) - restingEwma.mean = 0 by norm_num [restingEwma], abs_zero]
    exact mul_nonneg (by norm_num [p, shiftParams]) (hmin.le.trans (le_max_right _ _))
  have hnear : ∀ k ≥ 0, Relearned p 60 (shiftRun p 60 (fun k => k) restingEwma k) :=
    shiftRun_relearned (by norm_num [p, shiftParams]) hmin (by norm_num [p, shiftParams])
      (by norm_num [p, shiftParams]) hrest
  refine ⟨shiftRun p 60 (fun k => k) restingEwma, rfl, fun k => ?_⟩
  have hk := hnear k (Nat.zero_le k)
  refine ⟨judge_eq hmin hk.var false k 60, ?_⟩
  rw [shiftRun, Ewma.judgedAt, hk.cold, if_neg Bool.false_ne_true]
  refine ⟨rfl, ?_⟩
  -- a hold of zero seconds has passed at once
  have hnow : PyFloat.le p.sustainS (PyFloat.sub (k : ℝ) k) = true := by
    rw [ExactFloat.sub_eq, sub_self, ExactFloat.le_iff]
  exact hnow

end EcuTelemetry.Backend.Engine
