/-
  EcuTelemetry.Backend.NonFinite

  The anomaly rule on readings that are no numbers.

  The wire admits NaN and the infinities.  One such reading of a metric makes the
  mean of the metric an infinity or NaN, and no later sample makes it a number
  again.  Without one, mean and variance are numbers after every sample, and a
  reading beyond the band of a warm average is anomalous (`detects_iff`).
-/

import EcuTelemetry.Backend.DefaultRules
import EcuTelemetry.Backend.RuleRuns

namespace EcuTelemetry.Backend

open Proc Protocol

/-! ## Numbers -/

namespace Ieee

variable {K : Type}

/-- Neither an infinity nor NaN. -/
def IsNumber (x : Ieee K) : Prop := ∃ a, x = fin a

variable [PyFloat K]

/-- A sum that is a number has two numbers in it. -/
theorem IsNumber.of_add {x y : Ieee K} (h : IsNumber (PyFloat.add x y)) :
    IsNumber x ∧ IsNumber y := by
  obtain ⟨z, hz⟩ := h
  cases x with
  | fin a =>
    cases y with
    | fin b => exact ⟨⟨a, rfl⟩, b, rfl⟩
    | _ => cases hz
  | inf n =>
    cases y with
    | inf m =>
      -- two infinities
      replace hz : (if n = m then inf n else nan : Ieee K) = fin z := hz
      split at hz <;> cases hz
    | _ => cases hz
  | nan => cases y <;> cases hz

/-- So has a difference. -/
theorem IsNumber.of_sub {x y : Ieee K} (h : IsNumber (PyFloat.sub x y)) :
    IsNumber x ∧ IsNumber y := by
  obtain ⟨z, hz⟩ := h
  cases x with
  | fin a =>
    cases y with
    | fin b => exact ⟨⟨a, rfl⟩, b, rfl⟩
    | _ => cases hz
  | inf n =>
    cases y with
    | inf m =>
      replace hz : (if n = m then nan else inf n : Ieee K) = fin z := hz
      split at hz <;> cases hz
    | _ => cases hz
  | nan => cases y <;> cases hz

theorem not_isNumber_infMul (n : Bool) (x : K) : ¬ IsNumber (infMul n x) := by
  rintro ⟨z, hz⟩
  rw [infMul] at hz
  split at hz <;> cases hz

/-- So has a product. -/
theorem IsNumber.of_mul {x y : Ieee K} (h : IsNumber (PyFloat.mul x y)) :
    IsNumber x ∧ IsNumber y := by
  cases x with
  | fin a =>
    cases y with
    | fin b => exact ⟨⟨a, rfl⟩, b, rfl⟩
    | inf m => exact absurd h (not_isNumber_infMul m a)
    | nan =>
      obtain ⟨z, hz⟩ := h
      cases hz
  | inf n =>
    cases y with
    | fin b => exact absurd h (not_isNumber_infMul n b)
    | _ =>
      obtain ⟨z, hz⟩ := h
      cases hz
  | nan =>
    obtain ⟨z, hz⟩ := h
    cases y <;> cases hz

/-- A field of a frame is a number iff it is finite. -/
theorem isNumber_ofF64 (x : F64) : IsNumber (PyFloat.ofF64 x : Ieee K) ↔ x.isFinite = true := by
  have hfinite : x.isFinite = (!x.isNaN && !x.isInf) := by
    rw [F64.isFinite, F64.isNaN, F64.isInf, Bool.eq_iff_iff]
    simp only [Bool.and_eq_true, Bool.not_eq_true', decide_eq_false_iff_not, decide_eq_true_eq]
    omega
  rw [hfinite]
  show IsNumber (if x.isNaN = true then nan else if x.isInf = true then inf x.negative
    else fin (PyFloat.ofF64 x) : Ieee K) ↔ _
  cases x.isNaN with
  | true =>
    refine ⟨fun h => ?_, fun h => absurd h Bool.false_ne_true⟩
    obtain ⟨_, h⟩ := h
    cases h
  | false =>
    cases x.isInf with
    | true =>
      refine ⟨fun h => ?_, fun h => absurd h Bool.false_ne_true⟩
      obtain ⟨_, h⟩ := h
      cases h
    | false => exact ⟨fun _ => rfl, fun _ => ⟨_, rfl⟩⟩

end Ieee

open Ieee (IsNumber)

/-! ## One update -/

namespace Engine

section Update

variable {F : Type} [PyFloat F]

/-- The mean after an update, whatever the arithmetic. -/
theorem ewmaUpdate_mean {e e' : Ewma F} {x alpha z : F} {learnVar : Bool}
    (h : ewmaUpdate e x alpha learnVar = .ok (z, e')) :
    e'.n = e.n + 1 ∧
      (e.n = 0 → e'.mean = x) ∧
      (e.n ≠ 0 → e'.mean = PyFloat.add e.mean (PyFloat.mul alpha (PyFloat.sub x e.mean))) := by
  rw [ewmaUpdate] at h
  by_cases hn : e.n = 0
  · rw [if_pos hn] at h
    cases h
    exact ⟨by rw [hn], fun _ => rfl, fun hne => absurd hn hne⟩
  rw [if_neg hn] at h
  obtain ⟨std, -, h⟩ := exists_of_bind_eq_ok h
  dsimp only at h
  split at h
  all_goals
    obtain ⟨z', -, h⟩ := exists_of_bind_eq_ok h
    cases h
    exact ⟨rfl, fun hzero => absurd hzero hn, fun _ => rfl⟩

/-- `judge` is an update, with the run of anomalous samples counted. -/
theorem judge_update {p : AnomalyParams F} {suppressed : Bool} {now x : F} {e e' : Ewma F}
    (h : judge p suppressed now x e = .ok e') :
    ∃ alpha learnVar z u, ewmaUpdate e x alpha learnVar = .ok (z, u) ∧
      e'.mean = u.mean ∧ e'.n = u.n := by
  rw [judge] at h
  obtain ⟨root, -, h⟩ := exists_of_bind_eq_ok h
  dsimp only at h
  generalize (if decide (p.warmup ≤ (e.n : Int)) = true then pyMax root p.minStd else root) =
    std at h
  split at h
  all_goals
    obtain ⟨z, -, h⟩ := exists_of_bind_eq_ok h
    obtain ⟨⟨z', u⟩, hupdate, h⟩ := exists_of_bind_eq_ok h
    refine ⟨_, _, z', u, hupdate, ?_⟩
    obtain rfl := Except.ok.inj h
    split <;> exact ⟨rfl, rfl⟩

end Update

section IsNumber

variable {K : Type} [PyFloat K] {p : AnomalyParams (Ieee K)} {suppressed : Bool} {now x : Ieee K}
  {e e' : Ewma (Ieee K)}

/-- A mean that is a number comes of a number, and of a mean that was one. -/
theorem judge_isNumber (h : judge p suppressed now x e = .ok e') (hmean : IsNumber e'.mean) :
    IsNumber x ∧ (e.n = 0 ∨ IsNumber e.mean) := by
  obtain ⟨alpha, learnVar, z, u, hupdate, hsame, -⟩ := judge_update h
  obtain ⟨-, hfirst, hlater⟩ := ewmaUpdate_mean hupdate
  rw [hsame] at hmean
  by_cases hn : e.n = 0
  · rw [hfirst hn] at hmean
    exact ⟨hmean, .inl hn⟩
  · rw [hlater hn] at hmean
    obtain ⟨hold, hshare⟩ := hmean.of_add
    exact ⟨hshare.of_mul.2.of_sub.1, .inr hold⟩

end IsNumber

/-! ## One update of numbers -/

section Numbers

open ExactFloat (root)

variable {K : Type} [Field K] [LinearOrder K] [PyFloat K] [ExactFloat K]
  {e : Ewma (Ieee K)} {m v : K}

/-- The average in exact numbers; times do not matter here. -/
def exactly (m v : K) (e : Ewma (Ieee K)) : Ewma K :=
  { mean := m, var := v, n := e.n, streak := e.streak, since := none }

theorem ofRat_fin (q : ℚ) : (PyFloat.ofRat q : Ieee K) = .fin (q : K) :=
  congrArg Ieee.fin (ExactFloat.ofRat_eq q)

theorem add_fin (a b : K) : PyFloat.add (.fin a : Ieee K) (.fin b) = .fin (a + b) :=
  congrArg Ieee.fin (ExactFloat.add_eq a b)

theorem sub_fin (a b : K) : PyFloat.sub (.fin a : Ieee K) (.fin b) = .fin (a - b) :=
  congrArg Ieee.fin (ExactFloat.sub_eq a b)

theorem mul_fin (a b : K) : PyFloat.mul (.fin a : Ieee K) (.fin b) = .fin (a * b) :=
  congrArg Ieee.fin (ExactFloat.mul_eq a b)

theorem abs_fin (a : K) : PyFloat.abs (.fin a : Ieee K) = .fin |a| :=
  congrArg Ieee.fin (ExactFloat.abs_eq a)

theorem lt_fin (a b : K) : PyFloat.lt (.fin a : Ieee K) (.fin b) = decide (a < b) := by
  show PyFloat.lt a b = _
  rw [Bool.eq_iff_iff, ExactFloat.lt_iff, decide_eq_true_iff]

theorem sqrt_fin {v : K} (hv : 0 ≤ v) : PyFloat.sqrt (.fin v : Ieee K) = .ok (.fin (root v)) := by
  show (PyFloat.sqrt v).map Ieee.fin = _
  rw [ExactFloat.sqrt_eq v hv]
  rfl

/-- A quotient of numbers. -/
theorem div_fin {d : K} (x : K) (hd : 0 < d) :
    PyFloat.div (.fin x : Ieee K) (.fin d) = .ok (.fin (x / d)) := by
  have hzero : (Ieee.fin d).eqInt 0 = false := Ieee.eqInt_zero_of_pos hd
  show Ieee.div (.fin x) (.fin d) = _
  rw [Ieee.div, if_neg (by rw [hzero]; exact Bool.false_ne_true)]
  show (PyFloat.div x d).map Ieee.fin = _
  rw [ExactFloat.div_eq x d hd.ne']
  rfl

theorem pyMax_fin (a b : K) : pyMax (.fin a : Ieee K) (.fin b) = .fin (max a b) := by
  rw [pyMax, lt_fin]
  by_cases h : a < b
  · rw [if_pos (decide_eq_true h), max_eq_right h.le]
  · rw [if_neg (by rw [decide_eq_false h]; exact Bool.false_ne_true), max_eq_left (not_lt.mp h)]

/-- `update` on numbers. -/
theorem ewmaUpdate_fin (hmean : e.mean = .fin m) (hvar : e.var = .fin v) (hv : 0 ≤ v) (y alpha : K)
    (learnVar : Bool) :
    ∃ z, ewmaUpdate e (.fin y) (.fin alpha) learnVar = .ok (z,
      { e with
        mean := .fin ((exactly m v e).next y alpha learnVar).mean
        var := .fin ((exactly m v e).next y alpha learnVar).var
        n := e.n + 1 }) := by
  rw [ewmaUpdate]
  by_cases hn : e.n = 0
  · have hnext := Ewma.next_first (e := exactly m v e) hn y alpha learnVar
    refine ⟨PyFloat.ofRat 0, ?_⟩
    rw [if_pos hn, hnext, ofRat_fin, Rat.cast_zero, hn]
  have hnext := Ewma.next_later (e := exactly m v e) hn y alpha learnVar
  rw [if_neg hn, hvar, sqrt_fin hv, hnext]
  simp only [bind, Except.bind, hmean, ofRat_fin, Rat.cast_zero, Rat.cast_one, sub_fin, mul_fin,
    add_fin, abs_fin, lt_fin]
  -- the z-score is computed, the state does not depend on it
  by_cases hroot : 0 < root v
  · refine ⟨.fin (|y - m| / root v), ?_⟩
    rw [if_pos (decide_eq_true hroot), div_fin _ hroot]
    cases learnVar <;> rfl
  · refine ⟨.fin 0, ?_⟩
    rw [if_neg (by rw [decide_eq_false hroot]; exact Bool.false_ne_true)]
    cases learnVar <;> rfl

variable [IsStrictOrderedRing K]

/-- The average after a number: that of exact arithmetic, the run counted as before. -/
def judgedFin (e : Ewma (Ieee K)) (m v : K) (suppressed : Bool) (now : Ieee K) (y : K) :
    Ewma (Ieee K) :=
  { mean := .fin ((exactly m v e).judged suppressed 0 y).mean
    var := .fin ((exactly m v e).judged suppressed 0 y).var
    n := e.n + 1
    streak := if (exactly m v e).hot suppressed y then e.streak + 1 else 0
    since := if (exactly m v e).hot suppressed y then some (e.since.getD now) else none }

/-- What `judge` does with its decision. -/
theorem judge_tail_fin (hmean : e.mean = .fin m) (hvar : e.var = .fin v) (hv : 0 ≤ v)
    (suppressed : Bool) (now : Ieee K) (y : K) {hot : Bool}
    (hhot : hot = (exactly m v e).hot suppressed y) :
    (do
      let alpha := if hot then PyFloat.mul (defaultParams : AnomalyParams (Ieee K)).alpha
        (PyFloat.ofRat 0.1) else defaultParams.alpha
      let (_, e') ← ewmaUpdate e (.fin y) alpha (!hot)
      return if hot then { e' with streak := e'.streak + 1, since := some (e'.since.getD now) }
        else { e' with streak := 0, since := none } : Except PyError (Ewma (Ieee K))) =
      .ok (judgedFin e m v suppressed now y) := by
  have halpha : (defaultParams : AnomalyParams (Ieee K)).alpha = .fin (1 / 20) := by
    show (PyFloat.ofRat 0.05 : Ieee K) = _
    rw [ofRat_fin]
    norm_num
  have hslow : PyFloat.mul (.fin (1 / 20)) (PyFloat.ofRat 0.1) = (.fin (1 / 200) : Ieee K) := by
    rw [ofRat_fin, mul_fin]
    norm_num
  have hjudged : (exactly m v e).judged suppressed 0 y = _ := Ewma.judged.eq_1 ..
  dsimp only
  rw [judgedFin, hjudged, halpha, ← hhot]
  -- an anomalous sample moves the mean by a tenth of the share and not the variance
  cases hot with
  | true =>
    obtain ⟨_, hnext⟩ := ewmaUpdate_fin hmean hvar hv y (1 / 200) false
    rw [if_pos rfl, hslow, Bool.not_true, hnext]
    rfl
  | false =>
    obtain ⟨_, hnext⟩ := ewmaUpdate_fin hmean hvar hv y (1 / 20) true
    rw [if_neg Bool.false_ne_true, Bool.not_false, hnext]
    rfl

/-- `judge` on numbers. -/
theorem judge_fin (hmean : e.mean = .fin m) (hvar : e.var = .fin v) (hv : 0 ≤ v)
    (suppressed : Bool) (now : Ieee K) (y : K) :
    judge defaultParams suppressed now (.fin y) e = .ok (judgedFin e m v suppressed now y) := by
  -- the divisor is at least `min_std`, so the quotient is a number
  have hstd : (0 : K) < max (root v) (1 / 20) := lt_max_of_lt_right (by norm_num)
  have hminStd : (defaultParams : AnomalyParams (Ieee K)).minStd = .fin (1 / 20) := by
    show (PyFloat.ofRat 0.05 : Ieee K) = _
    rw [ofRat_fin]
    norm_num
  have hzlim : (defaultParams : AnomalyParams (Ieee K)).zlim = .fin 4 := by
    show (PyFloat.ofRat 4.0 : Ieee K) = _
    rw [ofRat_fin]
    norm_num
  have hwarmup : decide ((defaultParams : AnomalyParams (Ieee K)).warmup ≤ (e.n : Int)) =
      decide (20 ≤ e.n) := decide_eq_decide.mpr (by show (20 : Int) ≤ e.n ↔ _; omega)
  have hdef : (exactly m v e).hot suppressed y =
      (decide (20 ≤ e.n) && decide (4 * max (root v) (1 / 20) < |y - m|) && !suppressed) := rfl
  rw [judge, hvar, sqrt_fin hv, hwarmup, hminStd, hzlim]
  by_cases hn : 20 ≤ e.n
  · -- the z-score is too high iff the deviation is beyond the band
    have hhot : (true && PyFloat.lt (.fin 4 : Ieee K) (.fin (|y - m| / max (root v) (1 / 20))) &&
        !suppressed) = (exactly m v e).hot suppressed y := by
      rw [hdef, decide_eq_true hn, lt_fin, decide_eq_decide.mpr (lt_div_iff₀ hstd)]
    rw [← judge_tail_fin hmean hvar hv suppressed now y hhot, decide_eq_true hn]
    simp only [bind, Except.bind, if_true, Bool.true_and, pyMax_fin, hmean, sub_fin, abs_fin,
      ofRat_fin, Rat.cast_zero, lt_fin]
    rw [if_pos (decide_eq_true hstd), div_fin _ hstd]
    simp only [lt_fin]
  -- during the warm-up there is no z-score
  · have hhot : (false && PyFloat.lt (.fin 4 : Ieee K) (PyFloat.ofRat 0) && !suppressed) =
        (exactly m v e).hot suppressed y := by
      rw [hdef, decide_eq_false hn]
      rfl
    rw [← judge_tail_fin hmean hvar hv suppressed now y hhot, decide_eq_false hn]
    rfl

end Numbers

/-! ## One sample -/

section Sample

variable {F : Type} [PyFloat F] [PyText F] {dev metric : String} {avg hist : String → Prop}

omit [PyFloat F] [PyText F] in
theorem ewmas_eq (s : Engine F) (dev : String) : s.ewmas dev = (s.record dev).ewma := by
  rw [ewmas, record]
  cases Dict.get? s.devices dev <;> rfl

/-- The gate writes an average of its own. -/
theorem keeps_quiet_onGate (t : Dict String (Json F)) (p : AnomalyParams F) (gate : Json F)
    (hkey : ∀ gm : Json F, avg ("gate:" ++ PyText.pyStr gm)) :
    Keeps (Quiet dev avg hist) (onGate dev t p gate) := by
  have hset : ∀ (gm : Json F) (g : Ewma F), Keeps (Quiet dev avg hist) (modifySt dev fun d =>
      { d with ewma := Dict.set d.ewma ("gate:" ++ PyText.pyStr gm) g }) := fun gm g =>
    keeps_quiet_modifySt dev (fun d key hne => Dict.get?_set_ne (.of_lawful _) (.of_lawful _)
      fun heq => hne (heq ▸ hkey gm)) fun _ _ _ => rfl
  refine (Keeps.ofExcept _).bind fun gm => Keeps.ite (fun _ => ?_) fun _ => Keeps.pure _
  refine (Keeps.ofExcept _).bind fun v => ?_
  split
  · exact Keeps.pure _
  · refine (keeps_quiet_st dev).bind fun d => (hset _ _).bind fun _ =>
      (Keeps.ofExcept _).bind fun _ => (Keeps.ofExcept _).bind fun _ =>
      (Keeps.ofExcept _).bind fun _ => (hset _ _).bind fun _ =>
      Keeps.pure _

/-- The round of a metric writes the average of that metric. -/
theorem keeps_quiet_onAnomalyMetric (t : Dict String (Json F)) (now clock : F) (p : AnomalyParams F)
    (severity : Json F) (moving : Bool) (gated : List (Json F)) {m : Json F}
    (hkey : avg (PyText.pyStr m)) :
    Keeps (Quiet dev avg hist) (onAnomalyMetric dev t now clock p severity moving gated m) := by
  have hset : ∀ e : Ewma F, Keeps (Quiet dev avg hist) (modifySt dev fun d =>
      { d with ewma := Dict.set d.ewma (PyText.pyStr m) e }) := fun e =>
    keeps_quiet_modifySt dev (fun d key hne => Dict.get?_set_ne (.of_lawful _) (.of_lawful _)
      fun heq => hne (heq ▸ hkey)) fun _ _ _ => rfl
  refine (Keeps.ofExcept _).bind fun v => ?_
  split
  · exact Keeps.pure _
  · refine (Keeps.ofExcept _).bind fun _ => (keeps_quiet_st dev).bind fun d =>
      (hset _).bind fun _ =>
      (Keeps.ofExcept _).bind fun _ => (hset _).bind fun _ =>
      (keeps_quiet_mark dev _ _ _ _ _ _ _ _).bind fun _ => Keeps.pure _

/-- The engine evaluates the default rules, and has the average `e` of the metric. -/
def Has (dev metric : String) (e : Ewma F) (s : Engine F) : Prop :=
  Ready DEFAULT_RULES s ∧ s.average dev metric = e

variable {E : Engine F → Prop} {e : Ewma F}

omit [PyText F] in
/-- What leaves the averages of other keys alone, and what is known of its result. -/
theorem has_result_of_within {α : Type} {m : EngineM F α} {C : α → Prop}
    (h : ∀ s₀, Triple (Within DEFAULT_RULES dev (· ≠ metric) (fun _ => True) s₀) m
      (fun a s => C a ∧ Within DEFAULT_RULES dev (· ≠ metric) (fun _ => True) s₀ s) E) :
    Triple (Has dev metric e) m (fun a s => C a ∧ Has dev metric e s) E := by
  intro s hs
  have hrun := h s s (.start hs.1)
  rcases hm : m s with ⟨_ | _, s'⟩
  · rw [hm] at hrun
    exact hrun
  · rw [hm] at hrun
    obtain ⟨hresult, hquiet, hready⟩ := hrun
    have haverage := hquiet.averages metric fun h => h rfl
    rw [← ewmas_eq, ← ewmas_eq] at haverage
    refine ⟨hresult, hready, ?_⟩
    rw [← hs.2, average, haverage]
    rfl

omit [PyText F] in
theorem has_of_within {α : Type} {m : EngineM F α}
    (h : ∀ s₀, Triple (Within DEFAULT_RULES dev (· ≠ metric) (fun _ => True) s₀) m
      (fun _ => Within DEFAULT_RULES dev (· ≠ metric) (fun _ => True) s₀) E) :
    Triple (Has dev metric e) m (fun _ => Has dev metric e) E := by
  refine (has_result_of_within (C := fun _ => True) fun s₀ => ?_).weaken (fun _ h => h)
    (fun _ _ h => h.2) fun _ h => h
  exact (h s₀).weaken (fun _ h => h) (fun _ _ h => ⟨trivial, h⟩) fun _ h => h

omit [PyText F] in
/-- What is ready whatever averages it writes, and writes none of the metric. -/
theorem has_of_keeps {α : Type} {m : EngineM F α}
    (h : ∀ s₀, Triple (Within DEFAULT_RULES dev (fun _ => True) (fun _ => True) s₀) m
      (fun _ => Within DEFAULT_RULES dev (fun _ => True) (fun _ => True) s₀) E)
    (hquiet : Keeps (Quiet dev (· ≠ metric) fun _ => True) m) :
    Triple (Has dev metric e) m (fun _ => Has dev metric e) E := by
  refine has_of_within fun s₀ => within_of (fun s hs => ?_) hquiet
  exact (h s).weaken (fun _ h => h) (fun _ _ h => h.2) (fun _ h => h) s (.start hs)

variable [IeeeFloat F] [PlainText F] {t : Dict String (Json F)} {x : F}

omit [PyText F] [PlainText F] [IeeeFloat F] in
/-- Write an average of the metric. -/
theorem has_setAverage {v : Ewma F} (hv : PyFloat.lt v.var (PyFloat.ofRat 0) = false) :
    Triple (Has dev metric e) (modifySt dev fun d => { d with ewma := Dict.set d.ewma metric v })
      (fun _ => Has dev metric v) E := by
  intro s hs
  have hready : Triple (Ready DEFAULT_RULES) (modifySt dev fun d : DeviceState F =>
      { d with ewma := Dict.set d.ewma metric v }) (fun _ => Ready DEFAULT_RULES) E :=
    ready_modifySt fun d hd => hd.setAverage hv metric
  have hrecord := record_modifySt dev dev (fun d => { d with ewma := Dict.set d.ewma metric v }) s
  rw [if_pos rfl] at hrecord
  have hrun := hready s hs.1
  obtain ⟨D, hm, -⟩ := modifySt_run dev (fun d => { d with ewma := Dict.set d.ewma metric v }) s
  rw [hm] at hrun hrecord ⊢
  refine ⟨hrun, ?_⟩
  rw [average, ewmas_eq, hrecord]
  show (Dict.get? (Dict.set _ metric v) metric).getD ewma0 = v
  rw [Dict.get?_set_self (.of_lawful metric), Option.getD_some]

omit [PyText F] [PlainText F] [IeeeFloat F] in
/-- Reading the record. -/
theorem has_st : Triple (Has dev metric e) (st dev)
    (fun d s => (Dict.get? d.ewma metric).getD ewma0 = e ∧ Has dev metric e s) E := by
  intro s hs
  have hkeep : Triple (Has dev metric e) (st (F := F) dev) (fun _ => Has dev metric e) E :=
    has_of_within fun s₀ => within_st.weaken (fun _ h => h) (fun _ _ h => h.2) fun _ h => h
  have hrun := hkeep s hs
  have haverage := hs.2
  rw [average, ewmas, st] at *
  rcases hget : Dict.get? s.devices dev with _ | d
  · rw [hget] at hrun haverage
    exact ⟨haverage, hrun⟩
  · rw [hget] at hrun haverage
    exact ⟨haverage, hrun⟩

omit [IeeeFloat F] in
/-- The rule on the metric: one judgement. -/
theorem has_onAnomalyMetric (hx : Dict.get? t metric = some (.float x)) (now clock : F)
    (moving : Bool) (gated : List (Json F)) {e' : Ewma F}
    (he : PyFloat.lt e.var (PyFloat.ofRat 0) = false)
    (hjudge : judge defaultParams (moving && gated.any (· == .str metric)) now x e = .ok e')
    (he' : PyFloat.lt e'.var (PyFloat.ofRat 0) = false) :
    Triple (Has dev metric e)
      (onAnomalyMetric dev t now clock defaultParams (.str "warn") moving gated (.str metric))
      (fun _ => Has dev metric e') E := by
  refine Triple.ok_bind (a := some (.float x)) (congrArg Except.ok hx)
    (Triple.ok_bind (a := x) rfl ?_)
  dsimp only
  rw [PlainText.pyStr_str]
  refine has_st.bind fun d => Triple.of_and fun hd => ?_
  rw [hd]
  refine (has_setAverage he).bind fun _ =>
    Triple.ok_bind hjudge ((has_setAverage he').bind fun _ => ?_)
  -- marking writes no average, whether the condition holds or not
  have hmark : ∀ cond msg, Triple (Has dev metric e')
      (mark dev (.str ("anomaly:" ++ metric)) cond now (some metric) (some x) (.str "warn")
        (.str msg) clock) (fun _ => Has dev metric e') E := fun cond msg =>
    has_of_within fun s₀ => within_mark (fun _ => ⟨rfl, Json.storable_str _,
      Json.storable_str _, Json.storable_str _⟩) now _ _ clock
  exact (hmark _ _).bind fun _ => Triple.pure fun _ h => h

omit [PyText F] [PlainText F] in
theorem shares_default : (defaultParams : AnomalyParams F).Shares :=
  ⟨IeeeFloat.lit_mono 0.05 0 (by norm_num), IeeeFloat.lit_mono 1 0.05 (by norm_num)⟩

/-- The metric is judged once; the gate decides whether a deviation counts. -/
theorem has_onAnomaly (hmetric : metric ∈ METRICS) (ht : Sampled t)
    (hx : Dict.get? t metric = some (.float x)) (now clock : F)
    (he : PyFloat.lt e.var (PyFloat.ofRat 0) = false) :
    Triple (Has dev metric e) (onAnomaly dev t now clock)
      (fun _ s => ∃ suppressed e', judge defaultParams suppressed now x e = .ok e' ∧
        Has dev metric e' s) (OutOfRange DEFAULT_RULES t) := by
  obtain ⟨kvs, hkvs, hanomaly⟩ := (rulesOk_default (F := F)).anomaly
  obtain rfl : defaultAnomaly = kvs := Json.obj.inj hkvs
  obtain ⟨p, gate, gated, metrics, hp, hgate, hgated, hgateOk, hmetrics, hmetricsOk⟩ := hanomaly rfl
  obtain rfl : defaultParams = p := Except.ok.inj hp
  obtain rfl : METRICS.map Json.str = metrics := Except.ok.inj hmetrics
  refine Triple.bind (Q := fun s₀ s => s₀.rules = DEFAULT_RULES ∧ Has dev metric e s)
    (Triple.get fun _ h => ⟨h.1.rules, h⟩) fun s₀ => Triple.of_and fun hrules => ?_
  rw [hrules]
  refine Triple.ok_bind (a := .bool true) rfl (Triple.ite (fun _ => ?_) fun h => absurd rfl h)
  refine Triple.ok_bind hp (Triple.ok_bind (a := Dict.get? defaultAnomaly "gate") rfl ?_)
  rw [hgate]
  refine Triple.ok_bind hgated ?_
  -- the gate has its average under a key of its own
  have hquiet : Keeps (Quiet dev (· ≠ metric) fun _ => True)
      (onGate dev t defaultParams (.obj gate)) := by
    refine keeps_quiet_onGate t _ _ fun gm heq => ?_
    have hlist := congrArg String.toList heq
    simp only [METRICS, List.mem_cons, List.not_mem_nil, or_false] at hmetric
    rcases hmetric with rfl | rfl | rfl | rfl <;> simp at hlist
  have hgateRun : Triple (Has dev metric e) (onGate dev t defaultParams (.obj gate))
      (fun _ => Has dev metric e) (OutOfRange DEFAULT_RULES t) :=
    has_of_keeps (fun s₀ => within_onGate ht hgateOk fun _ => trivial) hquiet
  refine hgateRun.bind fun moving => ?_
  refine Triple.ok_bind (a := .arr (METRICS.map .str)) rfl
    (Triple.ok_bind (a := METRICS.map .str) rfl (Triple.ok_bind (a := .str "warn") rfl ?_))
  obtain ⟨e', hjudge, he'⟩ := judge_rootable shares_default he
    (moving && gated.any (· == .str metric)) now x
  have hother : ∀ e : Ewma F, ∀ m ∈ METRICS.map Json.str, m ≠ .str metric →
      Triple (Has dev metric e)
        (onAnomalyMetric dev t now clock defaultParams (.str "warn") moving gated m)
        (fun _ => Has dev metric e) (OutOfRange DEFAULT_RULES t) := by
    intro e m hm hne
    obtain ⟨key, hkey, rfl⟩ := List.mem_map.mp hm
    refine has_of_keeps (fun s₀ => within_onAnomalyMetric ht now clock moving gated
      (hmetricsOk _ hm) fun _ => trivial) (keeps_quiet_onAnomalyMetric t now clock _ _ _ _ ?_)
    rw [PlainText.pyStr_str]
    exact fun heq => hne (congrArg Json.str heq)
  have hnodup : (METRICS.map Json.str : List (Json F)).Nodup :=
    List.Nodup.map (fun _ _ h => Json.str.inj h) (by decide)
  have hrun := Triple.collect_one (List.mem_map_of_mem hmetric) hnodup (hother e)
    (has_onAnomalyMetric hx now clock moving gated he hjudge he') (hother e')
  exact hrun.weaken (fun _ h => h) (fun _ _ h => ⟨_, e', hjudge, h⟩) fun _ h => h

/-- A sample in the range of a float: the average of the metric is judged. -/
theorem has_step (hmetric : metric ∈ METRICS) (ht : Sampled t) (hrange : InRange t)
    (hx : Dict.get? t metric = some (.float x)) (now clock : F) (loss : Option F) {s : Engine F}
    (hs : Has dev metric e s) :
    ∃ suppressed e', judge defaultParams suppressed now x e = .ok e' ∧
      Has dev metric e' (step s (.telemetry dev t now clock loss)) := by
  -- the variance in the average is not negative, as `sqrt` needs
  have he : PyFloat.lt e.var (PyFloat.ofRat 0) = false := by
    rw [← hs.2, average]
    have hvar : DeviceOk (s.record dev) := by
      rw [record]
      rcases hget : Dict.get? s.devices dev with _ | d
      · exact deviceOk_new
      · exact hs.1.devices _ (Dict.get?_mem (.of_lawful dev) hget)
    rw [ewmas_eq]
    exact hvar.average metric
  have hr : RulesOk (DEFAULT_RULES : Dict String (Json F)) := rulesOk_default
  have htelemetry : Triple (Has dev metric e) (onTelemetry dev t now clock loss)
      (fun _ s => ∃ suppressed e', judge defaultParams suppressed now x e = .ok e' ∧
        Has dev metric e' s) (OutOfRange DEFAULT_RULES t) := by
    refine Triple.bind (Q := fun _ => Has dev metric e)
      (has_st.weaken (fun _ h => h) (fun _ _ h => h.2) fun _ h => h) fun _ => ?_
    refine (has_result_of_within fun s₀ => within_configFor).bind fun cfg =>
      Triple.of_and fun hcfg => ?_
    -- the rules before the averages leave the average of the metric alone
    have hkeep : ∀ {m : EngineM F (List (Json F))}, (∀ s₀, Triple
        (Within DEFAULT_RULES dev (· ≠ metric) (fun _ => True) s₀) m
        (fun _ => Within DEFAULT_RULES dev (· ≠ metric) (fun _ => True) s₀)
        (OutOfRange DEFAULT_RULES t)) →
        Triple (Has dev metric e) m (fun _ => Has dev metric e) (OutOfRange DEFAULT_RULES t) :=
      has_of_within
    refine (hkeep fun s₀ => within_onThresholds ht hcfg now clock hr).bind fun _ =>
      (hkeep fun s₀ => within_onFaultFlags ht now clock hr).bind fun _ =>
      (hkeep fun s₀ => within_onRates ht now clock hr fun _ _ => trivial).bind fun _ => ?_
    refine (has_onAnomaly hmetric ht hx now clock he).bind fun _ => ?_
    have hloss : ∀ e' : Ewma F, Triple (Has dev metric e') (onLoss dev loss now clock)
        (fun _ => Has dev metric e') (OutOfRange DEFAULT_RULES t) := fun e' =>
      has_of_within fun s₀ => within_onLoss loss now clock hr
    -- `on_loss` comes after it and does as well
    refine Triple.bind (Q := fun _ s => ∃ suppressed e',
      judge defaultParams suppressed now x e = .ok e' ∧ Has dev metric e' s) (fun s hs => ?_)
      fun _ => Triple.pure fun _ h => h
    obtain ⟨suppressed, e', hjudge, hs⟩ := hs
    exact (hloss e').weaken (fun _ h => h) (fun _ _ h => ⟨suppressed, e', hjudge, h⟩)
      (fun _ h => h) s hs
  have hhandle : Triple (Has dev metric e) (handle (.telemetry dev t now clock loss))
      (fun _ s => ∃ suppressed e', judge defaultParams suppressed now x e = .ok e' ∧
        Has dev metric e' s) (OutOfRange DEFAULT_RULES t) :=
    Triple.bind (Q := fun _ => Has dev metric e)
      (Triple.modify fun s h => ⟨h.1.congr rfl rfl rfl rfl h.1.devices, h.2⟩) fun _ => htelemetry
  exact (hhandle.weaken (fun _ h => h) (fun _ _ h => h) fun _ h => absurd hrange h.2).state hs

end Sample

/-! ## Runs -/

/-- A metric of a sample. -/
def reading (metric : String) (t : Telemetry) : F64 :=
  match metric with
  | "temp_c" => t.tempC
  | "current_a" => t.currentA
  | "voltage_v" => t.voltageV
  | _ => t.vibrationG

theorem get?_sample {F : Type} [PyFloat F] [PyText F] {metric : String} (hmetric : metric ∈ METRICS)
    (dev : String) (hdr : Header) (t : Telemetry) (now loss : F) :
    Dict.get? (Ingest.sample dev hdr t now loss) metric =
      some (.float (PyFloat.ofF64 (reading metric t))) := by
  simp only [METRICS, List.mem_cons, List.not_mem_nil, or_false] at hmetric
  rcases hmetric with rfl | rfl | rfl | rfl <;> rfl

/-- A new process on a database without a rule document, and the samples of a device as
    they are decoded, at any times. -/
structure SampleRun (K : Type) where
  dev : String
  db : Database (Ieee K)
  header : ℕ → Header
  telemetry : ℕ → Telemetry
  now : ℕ → Ieee K
  clock : ℕ → Ieee K
  loss : ℕ → Ieee K
  decoded : ∀ i, Decoded (header i) (telemetry i)
  defaultRules : db.rules = none
  rows : ∀ row ∈ db.configs, RowOk row

namespace SampleRun

variable {K : Type} [PyFloat K] [PyText (Ieee K)] (r : SampleRun K)

def event (i : ℕ) : EngineEvent (Ieee K) :=
  .telemetry r.dev (Ingest.sample r.dev (r.header i) (r.telemetry i) (r.now i) (r.loss i)) (r.now i)
    (r.clock i) (some (r.loss i))

/-- The engine after the first samples. -/
def after (n : ℕ) : Engine (Ieee K) := exec step (init r.db) ((List.range n).map r.event)

/-- The average of a metric after the first samples. -/
def ewma (metric : String) (n : ℕ) : Ewma (Ieee K) := (r.after n).average r.dev metric

theorem after_succ (n : ℕ) : r.after (n + 1) = step (r.after n) (r.event n) := by
  rw [after, after, List.range_succ, List.map_append, exec_append]
  rfl

section Runs

variable {K : Type} [Field K] [LinearOrder K] [IsStrictOrderedRing K] [PyFloat K] [ExactFloat K]
  [PyText (Ieee K)] [PlainText (Ieee K)] (r : SampleRun K) {metric : String}

/-- The average after any number of samples is the one `judge` gives. -/
theorem has_after (hmetric : metric ∈ METRICS) (n : ℕ) :
    Has r.dev metric (r.ewma metric n) (r.after n) := by
  refine ⟨?_, rfl⟩
  induction n with
  | zero =>
    have hrules : mergeRules (r.db.rules.getD []) = DEFAULT_RULES := by
      rw [r.defaultRules]
      rfl
    exact ⟨hrules, fun key => by rw [← hrules]; rfl, nofun, r.rows, nofun⟩
  | succ n ih =>
    obtain ⟨_, e', -, hs⟩ := has_step hmetric (sampled_sample ..)
      (inRange_sample r.dev (r.now n) (r.loss n) (r.decoded n)) (get?_sample hmetric ..) (r.now n)
      (r.clock n) (some (r.loss n)) ⟨ih, rfl⟩
    rw [r.after_succ]
    exact hs.1

/-- One sample after the other is judged. -/
theorem judge_ewma (hmetric : metric ∈ METRICS) (n : ℕ) : ∃ suppressed,
    judge defaultParams suppressed (r.now n) (PyFloat.ofF64 (reading metric (r.telemetry n)))
      (r.ewma metric n) = .ok (r.ewma metric (n + 1)) := by
  obtain ⟨suppressed, e', hjudge, hs⟩ := has_step hmetric (sampled_sample ..)
    (inRange_sample r.dev (r.now n) (r.loss n) (r.decoded n)) (get?_sample hmetric ..) (r.now n)
    (r.clock n) (some (r.loss n)) (has_after r hmetric n)
  have he : r.ewma metric (n + 1) = e' := by
    rw [ewma, r.after_succ]
    exact hs.2
  exact ⟨suppressed, he ▸ hjudge⟩

theorem ewma_n (hmetric : metric ∈ METRICS) (n : ℕ) : (r.ewma metric n).n = n := by
  induction n with
  | zero => rfl
  | succ n ih =>
    obtain ⟨suppressed, hjudge⟩ := judge_ewma r hmetric n
    obtain ⟨alpha, learnVar, z, u, hupdate, -, hn⟩ := judge_update hjudge
    rw [hn, (ewmaUpdate_mean hupdate).1, ih]

/-! ## Numbers only -/

/-- A reading that is no number stays in the mean. -/
theorem not_isNumber_mean (hmetric : metric ∈ METRICS) {i : ℕ}
    (hi : ¬ (reading metric (r.telemetry i)).isFinite = true) {n : ℕ} (hn : i < n) :
    ¬ Ieee.IsNumber (r.ewma metric n).mean := by
  induction n, hn using Nat.le_induction with
  | base =>
    obtain ⟨suppressed, hjudge⟩ := judge_ewma r hmetric i
    exact fun h => hi ((Ieee.isNumber_ofF64 _).mp (judge_isNumber hjudge h).1)
  | succ n hn ih =>
    obtain ⟨suppressed, hjudge⟩ := judge_ewma r hmetric n
    intro h
    rcases (judge_isNumber hjudge h).2 with hzero | hmean
    · rw [ewma_n r hmetric] at hzero
      omega
    · exact ih hmean

/-- Without one, mean and variance are numbers. -/
theorem usable_ewma (hmetric : metric ∈ METRICS)
    (h : ∀ i, (reading metric (r.telemetry i)).isFinite = true) (n : ℕ) :
    ∃ m v, (r.ewma metric n).mean = .fin m ∧ (r.ewma metric n).var = .fin v ∧ 0 ≤ v := by
  induction n with
  | zero => exact ⟨_, _, rfl, rfl, ofRat_zero.ge⟩
  | succ n ih =>
    obtain ⟨m, v, hmean, hvar, hv⟩ := ih
    obtain ⟨y, hy⟩ := (Ieee.isNumber_ofF64 (K := K) _).mpr (h n)
    obtain ⟨suppressed, hjudge⟩ := judge_ewma r hmetric n
    rw [hy, judge_fin hmean hvar hv] at hjudge
    rw [← Except.ok.inj hjudge]
    exact ⟨_, _, rfl, rfl, Ewma.judged_var_nonneg (e := exactly m v _) hv _ _ _⟩

end Runs

/-! ## Detection -/

/-- The average of a metric is made of numbers, and once it is warm a reading beyond its
    band counts as anomalous, with the gate at rest. -/
def Detects {K : Type} [Field K] [LinearOrder K] [PyFloat K] [ExactFloat K]
    (e : Ewma (Ieee K)) : Prop :=
  ∃ m v, e.mean = .fin m ∧ e.var = .fin v ∧
    (20 ≤ e.n → ∀ (now : Ieee K) (y : K), 4 * max (ExactFloat.root v) (1 / 20) < |y - m| →
      ∃ e', judge defaultParams false now (.fin y) e = .ok e' ∧ e'.streak = e.streak + 1 ∧
        e'.since = some (e.since.getD now))

/-- From some sample on the anomaly rule can detect, exactly if no reading of the metric
    is an infinity or NaN. -/
theorem detects_iff {K : Type} [Field K] [LinearOrder K] [IsStrictOrderedRing K] [PyFloat K]
    [ExactFloat K] [PyText (Ieee K)] [PlainText (Ieee K)] (r : SampleRun K) {metric : String}
    (hmetric : metric ∈ METRICS) :
    (∃ N, ∀ n ≥ N, Detects (r.ewma metric n)) ↔
      ∀ i, (reading metric (r.telemetry i)).isFinite = true := by
  constructor
  · rintro ⟨N, hN⟩ i
    by_contra hi
    obtain ⟨m, v, hmean, -⟩ := hN (max N (i + 1)) (le_max_left _ _)
    have hlater : i < max N (i + 1) := Nat.lt_of_lt_of_le (Nat.lt_succ_self i) (le_max_right _ _)
    exact not_isNumber_mean r hmetric hi hlater ⟨m, hmean⟩
  · refine fun h => ⟨0, fun n _ => ?_⟩
    obtain ⟨m, v, hmean, hvar, hv⟩ := usable_ewma r hmetric h n
    refine ⟨m, v, hmean, hvar, fun hwarm now y hbeyond => ?_⟩
    have hhot : (exactly m v (r.ewma metric n)).hot false y = true := by
      rw [Ewma.hot, Bool.not_false, Bool.and_true, Bool.and_eq_true, decide_eq_true_eq,
        decide_eq_true_eq]
      exact ⟨hwarm, hbeyond⟩
    exact ⟨_, judge_fin hmean hvar hv false now y, if_pos hhot, if_pos hhot⟩

/-! ## A run with a NaN -/

instance : PyText (Ieee ℚ) := ⟨plainStr, PyFloat.repr⟩

instance : PlainText (Ieee ℚ) := ⟨fun _ => rfl⟩

/-- A sample with this temperature. -/
def atTemperature (tempC : F64) : Telemetry :=
  ⟨⟨0⟩, tempC, ⟨0⟩, ⟨0⟩, ⟨0⟩, ⟨0⟩, ⟨0⟩, ⟨0⟩, 0, 1⟩

/-- The bits of NaN, widened from binary32. -/
def nanBits : F64 := ⟨0x7FF8000000000000⟩

set_option maxRecDepth 20000 in
theorem decoded_atTemperature {x : F64} (hx : x = ⟨0⟩ ∨ x = nanBits) :
    Decoded (frameOf "E" (.telemetry (atTemperature x))).header (atTemperature x) := by
  rcases hx with rfl | rfl
  · exact ⟨(frameOf "E" (.telemetry (atTemperature ⟨0⟩))).raw,
      frameOf "E" (.telemetry (atTemperature ⟨0⟩)), by decide +kernel, rfl, rfl⟩
  · exact ⟨(frameOf "E" (.telemetry (atTemperature nanBits))).raw,
      frameOf "E" (.telemetry (atTemperature nanBits)), by decide +kernel, rfl, rfl⟩

/-- NaN first, and then zero. -/
def nanFirst : SampleRun ℚ where
  dev := "E"
  db := {}
  header i := (frameOf "E" (.telemetry (atTemperature (if i = 0 then nanBits else ⟨0⟩)))).header
  telemetry i := atTemperature (if i = 0 then nanBits else ⟨0⟩)
  now i := .fin i
  clock i := .fin i
  loss _ := .fin 0
  decoded i := decoded_atTemperature (by split <;> simp)
  defaultRules := rfl
  rows := nofun

theorem nanFirst_readings : (∃ N, ∀ n ≥ N, Detects (nanFirst.ewma "temp_c" n)) ↔
    ∀ i, (reading "temp_c" (nanFirst.telemetry i)).isFinite = true :=
  detects_iff nanFirst (by decide)

/-- Only the first reading is no number, and the rule never detects again. -/
theorem one_nan_blinds : ¬ ∀ (r : SampleRun ℚ), ∀ metric ∈ METRICS,
    (∃ N, ∀ i ≥ N, (reading metric (r.telemetry i)).isFinite = true) →
      ∃ N, ∀ n ≥ N, Detects (r.ewma metric n) := by
  intro h
  obtain ⟨N, hN⟩ := h nanFirst "temp_c" (by decide) ⟨1, fun i hi => by
    obtain ⟨k, rfl⟩ := Nat.exists_eq_add_of_le hi
    have htemp : (nanFirst.telemetry (1 + k)).tempC = ⟨0⟩ := if_neg (by omega)
    show F64.isFinite (nanFirst.telemetry (1 + k)).tempC = true
    rw [htemp]
    decide⟩
  obtain ⟨m, v, hmean, -⟩ := hN (N + 1) (Nat.le_succ N)
  have hnan : ¬ (reading "temp_c" (nanFirst.telemetry 0)).isFinite = true := by decide
  exact not_isNumber_mean nanFirst (by decide) hnan (Nat.succ_pos N) ⟨m, hmean⟩

end SampleRun

end Engine

end EcuTelemetry.Backend
