/-
  EcuTelemetry.Lib.Nearest

  Rounding a rational number of units to a format of `p + 1` significant bits:
  it is monotone, leaves what fits alone, and errs by half a unit in the last
  place.  Then which of two decimals is rounded to a given value.
-/

import EcuTelemetry.Lib.FloatOrder
import EcuTelemetry.Lib.Rounding
import Mathlib.Algebra.Order.Floor.Semifield
import Mathlib.Tactic.FieldSimp
import Mathlib.Tactic.Ring

namespace EcuTelemetry

/-! ## Integers -/

section HalfEven

variable {F : Type} [Field F] [LinearOrder F] [FloorRing F] [IsStrictOrderedRing F]

/-- The nearest integer; of two, the even one. -/
theorem roundHalfEven_eq_iff {q : F} {k : ℤ} :
    roundHalfEven q = k ↔ |q - k| < 1 / 2 ∨ |q - k| = 1 / 2 ∧ k % 2 = 0 := by
  have hle := Int.floor_le q
  have hlt := Int.lt_floor_add_one q
  generalize hf : ⌊q⌋ = f at hle hlt
  -- the four ways through the definition, by the distance to the floor
  have hround : roundHalfEven q = if q - f < 1 / 2 then f else if 1 / 2 < q - f then f + 1
      else if f % 2 = 0 then f else f + 1 := by rw [roundHalfEven, hf]
  rw [hround]
  constructor
  · intro h
    split_ifs at h with h1 h2 h3
    · subst h
      exact .inl (abs_lt.mpr ⟨by linarith, h1⟩)
    · subst h
      push_cast
      exact .inl (abs_lt.mpr ⟨by linarith, by linarith⟩)
    · subst h
      have hhalf := le_antisymm (not_lt.mp h2) (not_lt.mp h1)
      exact .inr ⟨by rw [abs_of_nonneg (by linarith)]; exact hhalf, h3⟩
    · subst h
      have hhalf : q - f = 1 / 2 := le_antisymm (not_lt.mp h2) (not_lt.mp h1)
      push_cast
      refine .inr ⟨?_, by omega⟩
      rw [abs_of_nonpos (by linarith)]
      linarith
  · intro h
    -- within a half of `q` there is the floor or the next integer
    have hnear : |q - k| ≤ 1 / 2 := h.elim le_of_lt fun h => h.1.le
    obtain ⟨hlow, hhigh⟩ := abs_le.mp hnear
    have hfk : f = k ∨ f = k - 1 := by
      have h1 : f < k + 1 := by
        have : (f : F) < (k + 1 : ℤ) := by push_cast; linarith
        exact_mod_cast this
      have h2 : k - 1 < f + 1 := by
        have : ((k - 1 : ℤ) : F) < (f + 1 : ℤ) := by push_cast; linarith
        exact_mod_cast this
      omega
    rcases hfk with rfl | rfl
    · rcases h with hlt' | ⟨heq, heven⟩
      · rw [if_pos (abs_lt.mp hlt').2]
      · rw [abs_of_nonneg (by linarith)] at heq
        rw [if_neg (by rw [heq]; exact lt_irrefl _), if_neg (by rw [heq]; exact lt_irrefl _),
          if_pos heven]
    · push_cast at hle hlt ⊢
      rcases h with hlt' | ⟨heq, heven⟩
      · have hlow := (abs_lt.mp hlt').1
        rw [if_neg (by linarith), if_pos (by linarith)]
        omega
      · rw [abs_of_nonpos (by linarith)] at heq
        rw [if_neg (by linarith), if_neg (by linarith), if_neg (by omega)]
        omega

theorem abs_sub_roundHalfEven (q : F) : |q - roundHalfEven q| ≤ 1 / 2 :=
  (roundHalfEven_eq_iff.mp rfl).elim le_of_lt fun h => h.1.le

theorem roundHalfEven_intCast (k : ℤ) : roundHalfEven (k : F) = k :=
  roundHalfEven_eq_iff.mpr (.inl (by rw [sub_self, abs_zero]; positivity))

/-- Rounding half to even is monotone. -/
theorem roundHalfEven_mono {q q' : F} (h : q ≤ q') : roundHalfEven q ≤ roundHalfEven q' := by
  by_contra hlt
  have hstep : ((roundHalfEven q' + 1 : ℤ) : F) ≤ roundHalfEven q :=
    Int.cast_le.mpr (not_le.mp hlt)
  push_cast at hstep
  have hq := abs_le.mp (abs_sub_roundHalfEven q)
  have hq' := abs_le.mp (abs_sub_roundHalfEven q')
  -- the two are the same number halfway between the results
  have heq : q = q' := by linarith
  rw [heq] at hlt
  exact hlt le_rfl

/-- Of the numbers that are rounded to an integer, one nearer to it is rounded to it. -/
theorem roundHalfEven_of_nearer {q q' : F} (h : |q' - roundHalfEven q| ≤ |q - roundHalfEven q|) :
    roundHalfEven q' = roundHalfEven q := by
  rcases roundHalfEven_eq_iff.mp (rfl : roundHalfEven q = _) with hlt | ⟨heq, heven⟩
  · exact roundHalfEven_eq_iff.mpr (.inl (h.trans_lt hlt))
  · rw [heq] at h
    exact roundHalfEven_eq_iff.mpr (h.lt_or_eq.imp id fun h => ⟨h, heven⟩)

/-- No integer is nearer. -/
theorem roundHalfEven_nearest (q : F) (k : ℤ) : |q - roundHalfEven q| ≤ |q - k| := by
  by_cases hk : |q - k| < 1 / 2
  · rw [roundHalfEven_eq_iff.mpr (.inl hk)]
  · exact (abs_sub_roundHalfEven q).trans (not_lt.mp hk)

end HalfEven

namespace Binary

/-! ## Significant bits -/

/-- The exponent of the unit in the last place of `q` units. -/
def lastPlace (p : ℕ) (q : ℚ) : ℕ := ⌊q⌋₊.log2 - p

/-- `q` units rounded to `p + 1` significant bits. -/
def roundRat (p : ℕ) (q : ℚ) : ℤ := roundHalfEven (q / 2 ^ lastPlace p q) * 2 ^ lastPlace p q

/-- The integer division that rounds half to even rounds the ratio. -/
theorem divNearestEven_eq {n d : ℕ} (hd : 0 < d) :
    (divNearestEven n d : ℤ) = roundHalfEven ((n : ℚ) / d) := by
  have hdq : (0 : ℚ) < d := by exact_mod_cast hd
  obtain ⟨q, hq⟩ : ∃ q, q = n / d := ⟨_, rfl⟩
  obtain ⟨r, hr⟩ : ∃ r, r = n % d := ⟨_, rfl⟩
  -- quotient and remainder; both roundings look at `r / d` against a half
  have hsplit : (n : ℚ) / d = q + r / d := by
    have hn : (n : ℚ) = q * d + r := by
      rw [hq, hr]
      exact_mod_cast (Nat.div_add_mod' n d).symm
    rw [hn, add_div, mul_div_cancel_right₀ _ hdq.ne']
  have hlow : (r : ℚ) / d < 1 / 2 ↔ 2 * r < d := by
    rw [div_lt_div_iff₀ hdq (by norm_num), one_mul, mul_comm]
    exact_mod_cast Iff.rfl
  have hhigh : 1 / 2 < (r : ℚ) / d ↔ d < 2 * r := by
    rw [div_lt_div_iff₀ (by norm_num) hdq, one_mul, mul_comm (r : ℚ)]
    exact_mod_cast Iff.rfl
  have hnonneg : 0 ≤ (r : ℚ) / d := by positivity
  have hlt : (r : ℚ) / d < 1 := (div_lt_one hdq).mpr (by exact_mod_cast hr ▸ Nat.mod_lt n hd)
  rw [hsplit]
  symm
  rw [roundHalfEven_eq_iff]
  simp only [divNearestEven, ← hq, ← hr]
  generalize (r : ℚ) / d = t at hlow hhigh hnonneg hlt
  -- below the half, above it, and the two halves
  split_ifs with h1 h2 h3
  · refine .inl (abs_lt.mpr ⟨?_, ?_⟩)
    · push_cast
      linarith
    · push_cast
      linarith [hlow.mpr h1]
  · refine .inl (abs_lt.mpr ⟨?_, ?_⟩)
    · push_cast
      linarith [hhigh.mpr h2]
    · push_cast
      linarith
  · have hhalf : t = 1 / 2 := le_antisymm (not_lt.mp (mt hhigh.mp h2)) (not_lt.mp (mt hlow.mp h1))
    refine .inr ⟨?_, by omega⟩
    push_cast
    rw [hhalf, add_sub_cancel_left]
    norm_num
  · have hhalf : t = 1 / 2 := le_antisymm (not_lt.mp (mt hhigh.mp h2)) (not_lt.mp (mt hlow.mp h1))
    refine .inr ⟨?_, by omega⟩
    push_cast
    rw [hhalf, abs_of_nonpos (by linarith)]
    linarith

/-- And so does rounding to `p` binary places. -/
theorem roundQuot_eq (p : ℕ) {n d : ℕ} (hd : 0 < d) :
    (roundQuot p n d : ℤ) = roundRat p ((n : ℚ) / d) := by
  have hplace : lastPlace p ((n : ℚ) / d) = (n / d).log2 - p := by
    rw [lastPlace, Nat.floor_div_eq_div]
  rw [roundRat, hplace, roundQuot]
  push_cast
  rw [divNearestEven_eq (Nat.mul_pos hd (Nat.two_pow_pos _))]
  push_cast
  rw [div_div]

/-- A value has at most `p + 1` binary digits down to its last place. -/
theorem lt_lastPlace (p : ℕ) (q : ℚ) : q < 2 ^ (p + 1) * 2 ^ lastPlace p q := by
  have hfloor : q < (⌊q⌋₊ + 1 : ℕ) := by exact_mod_cast Nat.lt_floor_add_one q
  have hlog : ⌊q⌋₊ + 1 ≤ 2 ^ (p + 1) * 2 ^ lastPlace p q := by
    rw [← Nat.pow_add]
    exact Nat.lt_log2_self.trans_le (Nat.pow_le_pow_right (by decide) (by rw [lastPlace]; omega))
  calc q < (⌊q⌋₊ + 1 : ℕ) := hfloor
    _ ≤ ((2 ^ (p + 1) * 2 ^ lastPlace p q : ℕ) : ℚ) := by exact_mod_cast hlog
    _ = 2 ^ (p + 1) * 2 ^ lastPlace p q := by push_cast; rfl

/-- And no fewer, unless it is subnormal. -/
theorem lastPlace_le {p : ℕ} {q : ℚ} (h : lastPlace p q ≠ 0) : 2 ^ p * 2 ^ lastPlace p q ≤ q := by
  have hfloor : ⌊q⌋₊ ≠ 0 := by
    intro h0
    rw [lastPlace, h0] at h
    simp at h
  have hlog : 2 ^ p * 2 ^ lastPlace p q ≤ ⌊q⌋₊ := by
    rw [← Nat.pow_add, show p + lastPlace p q = ⌊q⌋₊.log2 by rw [lastPlace] at h ⊢; omega]
    exact Nat.log2_self_le hfloor
  calc (2 : ℚ) ^ p * 2 ^ lastPlace p q = ((2 ^ p * 2 ^ lastPlace p q : ℕ) : ℚ) := by push_cast; rfl
    _ ≤ ⌊q⌋₊ := by exact_mod_cast hlog
    _ ≤ q := Nat.floor_le (le_of_not_gt fun hneg => hfloor (Nat.floor_of_nonpos hneg.le))

theorem lastPlace_mono (p : ℕ) {q q' : ℚ} (h : q ≤ q') : lastPlace p q ≤ lastPlace p q' := by
  have hlog : ⌊q⌋₊.log2 ≤ ⌊q'⌋₊.log2 := by
    rw [Nat.log2_eq_log_two, Nat.log2_eq_log_two]
    exact Nat.log_mono_right (Nat.floor_mono h)
  rw [lastPlace, lastPlace]
  omega

theorem roundRat_le {p e : ℕ} {q : ℚ} {k : ℤ} (he : e = lastPlace p q) (h : q ≤ k * 2 ^ e) :
    roundRat p q ≤ k * 2 ^ e := by
  have hpos : (0 : ℚ) < 2 ^ e := by positivity
  have hround := roundHalfEven_mono ((div_le_iff₀ hpos).mpr h)
  rw [roundHalfEven_intCast] at hround
  rw [roundRat, ← he]
  exact mul_le_mul_of_nonneg_right hround (by positivity)

theorem le_roundRat {p e : ℕ} {q : ℚ} {k : ℤ} (he : e = lastPlace p q) (h : k * 2 ^ e ≤ q) :
    k * 2 ^ e ≤ roundRat p q := by
  have hpos : (0 : ℚ) < 2 ^ e := by positivity
  have hround := roundHalfEven_mono ((le_div_iff₀ hpos).mpr h)
  rw [roundHalfEven_intCast] at hround
  rw [roundRat, ← he]
  exact mul_le_mul_of_nonneg_right hround (by positivity)

/-- Rounding to a format is monotone, across binades too. -/
theorem roundRat_mono (p : ℕ) {q q' : ℚ} (h : q ≤ q') :
    roundRat p q ≤ roundRat p q' := by
  rcases (lastPlace_mono p h).eq_or_lt with heq | hlt
  · rw [roundRat, roundRat, ← heq]
    refine mul_le_mul_of_nonneg_right (roundHalfEven_mono ?_) (by positivity)
    exact div_le_div_of_nonneg_right h (by positivity)
  · -- the power of two between them separates the results
    have hlow : roundRat p q ≤ (2 ^ (p + 1) : ℤ) * 2 ^ lastPlace p q :=
      roundRat_le rfl (by push_cast; exact (lt_lastPlace p q).le)
    have hhigh : (2 ^ p : ℤ) * 2 ^ lastPlace p q' ≤ roundRat p q' :=
      le_roundRat rfl (by push_cast; exact lastPlace_le (by omega))
    have hpow : (2 ^ (p + 1) : ℤ) * 2 ^ lastPlace p q ≤ 2 ^ p * 2 ^ lastPlace p q' := by
      rw [← pow_add, ← pow_add]
      exact pow_le_pow_right₀ (by norm_num) (by omega)
    exact hlow.trans (hpow.trans hhigh)

/-- The error is at most half a unit in the last place. -/
theorem abs_sub_roundRat (p : ℕ) (q : ℚ) : |q - roundRat p q| ≤ 2 ^ lastPlace p q / 2 := by
  have hpos : (0 : ℚ) < 2 ^ lastPlace p q := by positivity
  have herr := abs_sub_roundHalfEven (q / 2 ^ lastPlace p q)
  have hscale : q - roundRat p q =
      (q / 2 ^ lastPlace p q - roundHalfEven (q / 2 ^ lastPlace p q)) * 2 ^ lastPlace p q := by
    rw [roundRat, sub_mul, div_mul_cancel₀ _ hpos.ne']
    push_cast
    rfl
  rw [hscale, abs_mul, abs_of_pos hpos]
  calc _ ≤ 1 / 2 * 2 ^ lastPlace p q := mul_le_mul_of_nonneg_right herr hpos.le
    _ = _ := by ring

/-- What fits is left as it is. -/
theorem roundRat_natCast {p m : ℕ} (h : Fits p m) : roundRat p m = m := by
  have heq : roundQuot p m 1 = m := le_antisymm (roundQuot_le h le_rfl) (le_roundQuot h le_rfl)
  have := roundQuot_eq p (n := m) (d := 1) one_pos
  rw [heq, Nat.cast_one, div_one] at this
  exact this.symm

theorem lastPlace_eq_zero {p : ℕ} {q : ℚ} (h : q < 2 ^ (p + 1)) : lastPlace p q = 0 := by
  by_contra hne
  have htwo : (2 : ℚ) ^ (p + 1) ≤ 2 ^ p * 2 ^ lastPlace p q := by
    rw [← pow_add]
    exact pow_le_pow_right₀ (by norm_num) (by omega)
  have := lastPlace_le hne
  linarith

theorem roundRat_of_lt {p : ℕ} {q : ℚ} (h : q < 2 ^ (p + 1)) : roundRat p q = roundHalfEven q := by
  rw [roundRat, lastPlace_eq_zero h, pow_zero, pow_zero, div_one, mul_one]

/-- Above the values of unit spacing, the error is small in proportion. -/
theorem abs_sub_le_of_roundRat {p v : ℕ} {d : ℚ} (hd : roundRat p d = v) (hv : 2 ^ (p + 1) ≤ v) :
    |d - v| ≤ (v : ℚ) / 2 ^ (p + 1) := by
  have herr := abs_sub_roundRat p d
  rw [hd, Int.cast_natCast] at herr
  have hpow : (0 : ℚ) < 2 ^ p := by positivity
  have hplace : (2 : ℚ) ^ p * 2 ^ lastPlace p d ≤ v := by
    by_cases hzero : lastPlace p d = 0
    · have hvq : (2 : ℚ) ^ (p + 1) ≤ v := by exact_mod_cast hv
      rw [hzero, pow_zero, mul_one]
      exact le_trans (pow_le_pow_right₀ (by norm_num) (by omega)) hvq
    · have hle : (2 ^ p : ℤ) * 2 ^ lastPlace p d ≤ v :=
        hd ▸ le_roundRat rfl (by push_cast; exact lastPlace_le hzero)
      exact_mod_cast hle
  refine herr.trans ?_
  rw [le_div_iff₀ (by positivity), pow_succ]
  linarith

/-! ## Decimals -/

/-- `d` is rounded to `v`, and so is the multiple of `g` that is next to `v`, if
    multiples of `g` are not too dense and one of them stands between `d` and `v`. -/
theorem roundRat_multiple {p v : ℕ} {g d : ℚ} {j : ℤ} (hv : Fits p v) (hg : 0 < g)
    (hsparse : (v : ℚ) / 2 ^ (p + 1) < g / 2) (hd : roundRat p d = v)
    (hj : d ≤ j * g ∧ j * g ≤ v ∨ (v : ℚ) ≤ j * g ∧ j * g ≤ d) :
    roundRat p (roundHalfEven ((v : ℚ) / g) * g) = v := by
  have hfix : roundRat p v = v := roundRat_natCast hv
  -- the multiple lies between `d` and `v`, so it is no farther from `v` than `d` is
  have hnear : |(j * g : ℚ) - v| ≤ |d - v| := by
    rcases hj with ⟨h1, h2⟩ | ⟨h1, h2⟩
    · rw [abs_of_nonpos (by linarith), abs_of_nonpos (by linarith)]
      linarith
    · rw [abs_of_nonneg (by linarith), abs_of_nonneg (by linarith)]
      linarith
  by_cases hsmall : v < 2 ^ (p + 1)
  · -- unit spacing: the nearest integer, and the multiple is as near as `d`
    have hsmallq : (v : ℚ) + 1 ≤ 2 ^ (p + 1) := by exact_mod_cast hsmall
    have hdlt : d < 2 ^ (p + 1) := by
      by_contra hge
      have hmono := roundRat_mono p (not_lt.mp hge)
      have hpow : roundRat p (2 ^ (p + 1)) = 2 ^ (p + 1) := by
        have hfits : Fits p (2 ^ (p + 1)) :=
          ⟨1, p + 1, (one_mul _).symm, Nat.one_lt_two_pow (by omega)⟩
        simpa using roundRat_natCast hfits
      rw [hpow, hd] at hmono
      exact absurd hsmall (by exact_mod_cast not_lt.mpr hmono)
    rw [roundRat_of_lt hdlt] at hd
    have hscaled : |(roundHalfEven ((v : ℚ) / g) * g : ℚ) - v| ≤ |(j * g : ℚ) - v| := by
      have hbest := mul_le_mul_of_nonneg_right (roundHalfEven_nearest ((v : ℚ) / g) j) hg.le
      have hscale : ∀ k : ℤ, |(v : ℚ) / g - k| * g = |(k * g : ℚ) - v| := by
        intro k
        rw [abs_sub_comm ((k : ℚ) * g), ← abs_of_pos hg, ← abs_mul, abs_of_pos hg, sub_mul,
          div_mul_cancel₀ _ hg.ne']
      rwa [hscale, hscale] at hbest
    have hround : roundHalfEven (roundHalfEven ((v : ℚ) / g) * g : ℚ) = v := by
      rw [← hd]
      refine roundHalfEven_of_nearer ?_
      rw [hd, Int.cast_natCast]
      exact hscaled.trans hnear
    have hhalf : |d - v| ≤ 1 / 2 := by
      have := abs_sub_roundHalfEven d
      rwa [hd, Int.cast_natCast] at this
    have hbound := (abs_le.mp ((hscaled.trans hnear).trans hhalf)).2
    rw [roundRat_of_lt (by linarith), hround]
  · -- the multiple between them is the one next to `v`
    have herr := abs_sub_le_of_roundRat hd (not_lt.mp hsmall)
    have hclose : |(v : ℚ) / g - j| < 1 / 2 := by
      have hscale : |(v : ℚ) / g - j| = |(j * g : ℚ) - v| / g := by
        rw [abs_sub_comm ((j : ℚ) * g), ← abs_of_pos hg, ← abs_div, abs_of_pos hg, sub_div,
          mul_div_cancel_right₀ _ hg.ne']
      rw [hscale, div_lt_iff₀ hg]
      linarith
    rw [roundHalfEven_eq_iff.mpr (.inl hclose)]
    rcases hj with ⟨h1, h2⟩ | ⟨h1, h2⟩
    · exact le_antisymm (hfix ▸ roundRat_mono p h2) (hd ▸ roundRat_mono p h1)
    · exact le_antisymm (hd ▸ roundRat_mono p h2) (hfix ▸ roundRat_mono p h1)

/-- Between `y` and a decimal of `n + 1` digits stands a multiple of the last of the
    first `n + 1` places of `y`. -/
theorem exists_between_decimal {n m : ℕ} {y : ℚ} {x k : ℤ} (hx : (10 : ℚ) ^ x ≤ y)
    (hm : m < 10 ^ (n + 1)) :
    ∃ j : ℤ, (m * 10 ^ k : ℚ) ≤ j * 10 ^ (x - n) ∧ (j * 10 ^ (x - n) : ℚ) ≤ y ∨
      y ≤ j * 10 ^ (x - n) ∧ (j * 10 ^ (x - n) : ℚ) ≤ m * 10 ^ k := by
  have hten : (1 : ℚ) < 10 := by norm_num
  by_cases hlarge : (10 : ℚ) ^ x ≤ m * 10 ^ k
  -- at least `10 ^ x`: then it is a multiple of the finer unit itself
  · have hexp : x - n ≤ k := by
      have hlt : (10 : ℚ) ^ x < 10 ^ (n + 1 + k : ℤ) := by
        have hmq : (m : ℚ) < 10 ^ (n + 1 : ℤ) := by exact_mod_cast hm
        calc (10 : ℚ) ^ x ≤ m * 10 ^ k := hlarge
          _ < 10 ^ (n + 1 : ℤ) * 10 ^ k := mul_lt_mul_of_pos_right hmq (zpow_pos (by norm_num) k)
          _ = 10 ^ (n + 1 + k : ℤ) := (zpow_add₀ (by norm_num) _ _).symm
      have := (zpow_lt_zpow_iff_right₀ hten).mp hlt
      omega
    obtain ⟨i, hi⟩ := Int.eq_ofNat_of_zero_le (sub_nonneg.mpr hexp)
    have heq : ((m * 10 ^ i : ℤ) : ℚ) * 10 ^ (x - n) = m * 10 ^ k := by
      have hk : k = i + (x - n) := by omega
      rw [hk, zpow_add₀ (by norm_num), zpow_natCast]
      push_cast
      ring
    refine ⟨m * 10 ^ i, ?_⟩
    rw [heq]
    rcases le_total ((m : ℚ) * 10 ^ k) y with hle | hle
    · exact .inl ⟨le_rfl, hle⟩
    · exact .inr ⟨hle, le_rfl⟩
  -- below it: `10 ^ x` lies between
  · have heq : ((10 ^ n : ℤ) : ℚ) * 10 ^ (x - n) = 10 ^ x := by
      push_cast
      rw [← zpow_natCast, ← zpow_add₀ (by norm_num)]
      congr 1
      omega
    refine ⟨10 ^ n, .inl ?_⟩
    rw [heq]
    exact ⟨(not_le.mp hlarge).le, hx⟩

end Binary

end EcuTelemetry
