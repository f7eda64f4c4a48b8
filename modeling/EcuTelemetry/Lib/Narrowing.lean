/-
  EcuTelemetry.Lib.Narrowing

  Which binary64 values narrow to a positive finite binary32 value: those above half
  the smallest subnormal and below the middle between the greatest value and the next
  power of two.  Both ends are ties, and both go to the even neighbour.
-/

import EcuTelemetry.Lib.Nearest

namespace EcuTelemetry

open Binary

namespace Binary

/-- Shifting right lowers the logarithm by the shift. -/
theorem log2_div_pow (n k : ℕ) : (n / 2 ^ k).log2 = n.log2 - k := by
  by_cases hn : n < 2 ^ k
  · rw [Nat.div_eq_of_lt hn, Nat.log2_zero]
    rcases Nat.eq_zero_or_pos n with rfl | hpos
    · rw [Nat.log2_zero, Nat.zero_sub]
    · have := (Nat.log2_lt hpos.ne').mpr hn
      omega
  · have hne : n ≠ 0 := by
      rintro rfl
      exact hn (Nat.two_pow_pos k)
    have hk : k ≤ n.log2 := (Nat.le_log2 hne).mpr (not_lt.mp hn)
    refine log2_eq_of_bounds ?_ ?_
    · rw [Nat.le_div_iff_mul_le (Nat.two_pow_pos k), ← Nat.pow_add, Nat.sub_add_cancel hk]
      exact Nat.log2_self_le hne
    · rw [Nat.div_lt_iff_lt_mul (Nat.two_pow_pos k), ← Nat.pow_add,
        show n.log2 - k + 1 + k = n.log2 + 1 by omega]
      exact Nat.lt_log2_self

/-- Above one half, and only there, something is left. -/
theorem roundRat_pos_iff {p : ℕ} {q : ℚ} : 0 < roundRat p q ↔ 1 / 2 < q := by
  have hpow : (1 : ℚ) ≤ 2 ^ (p + 1) := one_le_pow₀ (by norm_num)
  constructor
  · intro h
    by_contra hle
    have hmono := roundRat_mono p (not_lt.mp hle)
    -- half a unit is a tie, and zero is even
    have hhalf : roundRat p (1 / 2) = 0 := by
      rw [roundRat_of_lt (by linarith), roundHalfEven_eq_iff]
      exact .inr ⟨by norm_num, rfl⟩
    rw [hhalf] at hmono
    exact absurd h (not_lt.mpr hmono)
  · intro h
    by_cases hone : q < 1
    · rw [roundRat_of_lt (by linarith)]
      -- below one the value rounds to the nearest unit
      have herr := abs_sub_roundHalfEven q
      by_contra hle
      have hcast : (roundHalfEven q : ℚ) ≤ 0 := by exact_mod_cast not_lt.mp hle
      have := (abs_le.mp herr).2
      linarith
    · have hfits : Fits p 1 := ⟨1, 0, rfl, Nat.one_lt_two_pow (by omega)⟩
      have hmono := roundRat_mono p (not_lt.mp hone)
      have hself := roundRat_natCast hfits
      rw [Nat.cast_one] at hself
      rw [hself] at hmono
      exact lt_of_lt_of_le (by norm_num) hmono

/-- The middle between the greatest value below `2 ^ (p + 1) * 2 ^ e` and this power. -/
theorem roundRat_lt_iff {p e : ℕ} (hp : 0 < p) {q : ℚ} :
    roundRat p q < 2 ^ (p + 1) * 2 ^ e ↔ q < (2 ^ (p + 1) - 1 / 2) * 2 ^ e := by
  have hpos : (0 : ℚ) < 2 ^ e := by positivity
  have htwo : (2 : ℚ) ≤ 2 ^ p := by
    calc (2 : ℚ) = 2 ^ 1 := by norm_num
      _ ≤ 2 ^ p := pow_le_pow_right₀ (by norm_num) hp
  constructor
  · intro h
    by_contra hle
    have hmono := roundRat_mono p (not_lt.mp hle)
    -- the middle goes up, to the even one
    obtain ⟨m, hm⟩ : ∃ m : ℚ, m = (2 ^ (p + 1) - 1 / 2) * 2 ^ e := ⟨_, rfl⟩
    have hplace : lastPlace p m = e := by
      apply le_antisymm
      · by_contra hlt
        have hlow : (2 : ℚ) ^ p * 2 ^ (e + 1) ≤ 2 ^ p * 2 ^ lastPlace p m :=
          mul_le_mul_of_nonneg_left (pow_le_pow_right₀ (by norm_num) (by omega)) (by positivity)
        have hle := hlow.trans (lastPlace_le (by omega))
        rw [hm, pow_succ, pow_succ] at hle
        nlinarith
      · by_contra hlt
        have hhigh := lt_lastPlace p m
        have hup : (2 : ℚ) ^ (lastPlace p m + 1) ≤ 2 ^ e :=
          pow_le_pow_right₀ (by norm_num) (by omega)
        have hlow : (2 : ℚ) ^ (p + 1) * 2 ^ lastPlace p m ≤ 2 ^ p * 2 ^ e :=
          calc (2 : ℚ) ^ (p + 1) * 2 ^ lastPlace p m = 2 ^ p * 2 ^ (lastPlace p m + 1) := by ring
            _ ≤ 2 ^ p * 2 ^ e := mul_le_mul_of_nonneg_left hup (by positivity)
        have hsmall := hhigh.trans_le hlow
        have hover : (2 : ℚ) ^ p * 2 ^ e ≤ m := by
          rw [hm, pow_succ]
          exact mul_le_mul_of_nonneg_right (by linarith) hpos.le
        linarith
    have heven : roundHalfEven ((2 : ℚ) ^ (p + 1) - 1 / 2) = 2 ^ (p + 1) := by
      rw [roundHalfEven_eq_iff]
      refine .inr ⟨?_, ?_⟩
      · push_cast
        rw [show (2 : ℚ) ^ (p + 1) - 1 / 2 - 2 ^ (p + 1) = -(1 / 2) by ring, abs_neg]
        norm_num
      · rw [pow_succ, Int.mul_emod_left]
    have hround : roundRat p m = 2 ^ (p + 1) * 2 ^ e := by
      rw [roundRat, hplace, hm, mul_div_cancel_right₀ _ hpos.ne', heven]
    rw [← hm, hround] at hmono
    exact absurd h (not_lt.mpr hmono)
  · intro h
    have hmax : q < 2 ^ (p + 1) * 2 ^ e := h.trans (by nlinarith)
    by_cases hq : lastPlace p q ≤ e
    · rcases hq.lt_or_eq with hlt | heq
      · -- a smaller unit in the last place
        have hle := @roundRat_le p (lastPlace p q) q (2 ^ (p + 1)) rfl
          (by push_cast; exact (lt_lastPlace p q).le)
        have hpow : (2 : ℤ) ^ lastPlace p q < 2 ^ e := pow_lt_pow_right₀ (by norm_num) hlt
        calc roundRat p q ≤ 2 ^ (p + 1) * 2 ^ lastPlace p q := hle
          _ < 2 ^ (p + 1) * 2 ^ e := mul_lt_mul_of_pos_left hpow (by positivity)
      · have hhalf : roundHalfEven (q / 2 ^ e) ≤ 2 ^ (p + 1) - 1 := by
          refine roundHalfEven_le ?_
          push_cast
          rw [div_lt_iff₀ hpos]
          linarith
        rw [roundRat, heq]
        calc roundHalfEven (q / 2 ^ e) * 2 ^ e ≤ (2 ^ (p + 1) - 1) * 2 ^ e :=
              mul_le_mul_of_nonneg_right hhalf (by positivity)
          _ < 2 ^ (p + 1) * 2 ^ e := mul_lt_mul_of_pos_right (by linarith) (by positivity)
    · exfalso
      have hlow := lastPlace_le (p := p) (q := q) (by omega)
      have hpow : (2 : ℚ) ^ (e + 1) ≤ 2 ^ lastPlace p q :=
        pow_le_pow_right₀ (by norm_num) (by omega)
      have hle : (2 : ℚ) ^ p * 2 ^ (e + 1) ≤ 2 ^ p * 2 ^ lastPlace p q :=
        mul_le_mul_of_nonneg_left hpow (by positivity)
      have hsame : (2 : ℚ) ^ p * 2 ^ (e + 1) = 2 ^ (p + 1) * 2 ^ e := by ring
      linarith

end Binary

namespace F64

/-- A comparison holds of numbers only. -/
theorem not_nan_of_le {x y : F64} (h : x.le y = true) : x.isNaN = false ∧ y.isNaN = false := by
  rw [le, Bool.and_eq_true, Bool.and_eq_true, Bool.not_eq_true', Bool.not_eq_true'] at h
  exact h.1

theorem lt_eq_false_of_le {x y : F64} (h : x.le y = true) : y.lt x = false := by
  rw [lt, h, Bool.not_true, Bool.and_false]

/-- The order of doubles, through their magnitudes. -/
theorem lt_iff {x y : F64} : x.lt y = true ↔
    x.isNaN = false ∧ y.isNaN = false ∧ x.signedMag < y.signedMag := by
  simp only [lt, le, Bool.and_eq_true, Bool.not_eq_true', Bool.and_eq_false_iff,
    decide_eq_true_eq, decide_eq_false_iff_not, Bool.not_eq_false']
  constructor
  · rintro ⟨⟨⟨hx, hy⟩, -⟩, (hy' | hx') | hlt⟩
    · exact absurd hy (by simp [hy'])
    · exact absurd hx (by simp [hx'])
    · exact ⟨hx, hy, by omega⟩
  · rintro ⟨hx, hy, hlt⟩
    exact ⟨⟨⟨hx, hy⟩, by omega⟩, .inr (by omega)⟩

/-- Half the smallest positive binary32 value: `2 ^ -150`. -/
def tiny : F64 := ⟨0x3690000000000000⟩

/-- `2 ^ 128 - 2 ^ 103`, the middle between the greatest binary32 value and `2 ^ 128`. -/
def huge : F64 := ⟨0x47EFFFFFF0000000⟩

theorem tiny_signedMag : tiny.signedMag = ((2 ^ 924 : ℕ) : ℤ) := by decide +kernel

theorem huge_signedMag : huge.signedMag = (((2 ^ 25 - 1) * 2 ^ 1177 : ℕ) : ℤ) := by decide +kernel

theorem roundMag_roundQuot (x : F64) :
    x.roundMag = roundQuot 23 (decodeMag 52 x.mag) (2 ^ ulpRatio) := by
  rw [roundMag, roundQuot, log2_div_pow, Nat.sub_sub]
  simp only [Nat.pow_add]

theorem roundMag_eq (x : F64) :
    (x.roundMag : ℤ) = roundRat 23 ((decodeMag 52 x.mag : ℚ) / 2 ^ ulpRatio) := by
  rw [roundMag_roundQuot, roundQuot_eq 23 (Nat.two_pow_pos _)]
  push_cast
  rfl

/-- A double rounds to zero up to half of the least subnormal float. -/
theorem roundMag_pos_iff (x : F64) : 0 < x.roundMag ↔ 2 ^ 924 < decodeMag 52 x.mag := by
  have hunits : (1 : ℚ) / 2 < (decodeMag 52 x.mag : ℚ) / 2 ^ ulpRatio ↔
      2 ^ 924 < decodeMag 52 x.mag := by
    have hhalf : ∀ c : ℚ, 1 / 2 * (c * 2) = c := fun c => by ring
    rw [lt_div_iff₀ (by positivity), show ulpRatio = 924 + 1 from rfl, pow_succ, hhalf]
    exact_mod_cast Iff.rfl
  rw [← hunits, ← roundRat_pos_iff (p := 23), ← roundMag_eq]
  omega

/-- And overflows from half a unit above FLT_MAX. -/
theorem roundMag_lt_iff (x : F64) :
    x.roundMag < 2 ^ overflowExp ↔ decodeMag 52 x.mag < (2 ^ 25 - 1) * 2 ^ 1177 := by
  have hunits : (decodeMag 52 x.mag : ℚ) / 2 ^ ulpRatio < (2 ^ (23 + 1) - 1 / 2) * 2 ^ 253 ↔
      decodeMag 52 x.mag < (2 ^ 25 - 1) * 2 ^ 1177 := by
    have hdouble : ∀ c : ℚ, (2 ^ (23 + 1) - 1 / 2) * (c * 2) = (2 ^ 25 - 1) * c := fun c => by ring
    rw [div_lt_iff₀ (by positivity), mul_assoc, ← pow_add,
      show 253 + ulpRatio = 1177 + 1 from rfl, pow_succ (2 : ℚ) 1177, hdouble]
    have hcast : (((2 ^ 25 - 1) * 2 ^ 1177 : ℕ) : ℚ) = (2 ^ 25 - 1) * 2 ^ 1177 := by
      rw [Nat.cast_mul, Nat.cast_pow]
      norm_num only
    rw [← hcast, Nat.cast_lt]
  have hpow : (2 : ℤ) ^ (23 + 1) * 2 ^ 253 = ((2 ^ overflowExp : ℕ) : ℤ) := by
    rw [← pow_add, Nat.cast_pow]
    rfl
  rw [← hunits, ← roundRat_lt_iff (by decide), ← roundMag_eq, hpow, Nat.cast_lt]

/-- A finite value in range narrows to the rounded magnitude under its sign. -/
theorem toF32_of_lt {x : F64} (hx : x.isFinite = true) (h : x.roundMag < 2 ^ overflowExp) :
    ∃ y, x.toF32 = some y ∧ y.isFinite = true ∧
      y.signedMag = if x.negative then -(x.roundMag : ℤ) else x.roundMag := by
  have hmag : encodeMag 23 x.roundMag < 0x7F800000 := encodeMag_lt h (by decide)
  have hlt : encodeMag 23 x.roundMag < 2 ^ 31 := hmag.trans (by decide)
  have hfits : Fits 23 x.roundMag :=
    roundMag_roundQuot x ▸ fits_roundQuot 23 _ (Nat.two_pow_pos _)
  rw [isFinite, decide_eq_true_eq] at hx
  refine ⟨.ofSign x.negative (encodeMag 23 x.roundMag), ?_, ?_, ?_⟩
  · rw [toF32, if_neg, if_neg, if_neg (by omega)]
    · rw [isInf, decide_eq_true_eq]
      omega
    · rw [isNaN, decide_eq_true_eq]
      omega
  · rw [F32.isFinite, F32.mag_ofSign hlt, decide_eq_true_eq]
    exact hmag
  · rw [F32.signedMag_ofSign hlt, hfits.decodeMag_encodeMag]

/-- A finite float comes from a finite double in range. -/
theorem isFinite_of_toF32 {x : F64} {y : F32} (h : x.toF32 = some y) (hy : y.isFinite = true) :
    x.isFinite = true ∧ x.roundMag < 2 ^ overflowExp := by
  rw [toF32] at h
  split_ifs at h with hnan hinf hover
  · obtain rfl := Option.some.inj h
    have hle : 0x7FC00000 ≤ 0x7FC00000 ||| x.mag % 2 ^ 52 / 2 ^ 29 := Nat.left_le_or
    have hlt : 0x7FC00000 ||| x.mag % 2 ^ 52 / 2 ^ 29 < 2 ^ 31 :=
      Nat.or_lt_two_pow (by decide) (by omega)
    rw [F32.isFinite, F32.mag_ofSign hlt, decide_eq_true_eq] at hy
    omega
  · obtain rfl := Option.some.inj h
    rw [F32.isFinite, F32.mag_ofSign (by decide)] at hy
    exact absurd hy (by decide)
  · rw [isNaN, decide_eq_true_eq] at hnan
    rw [isInf, decide_eq_true_eq] at hinf
    rw [isFinite, decide_eq_true_eq]
    exact ⟨by omega, Nat.not_le.mp hover⟩

/-- What narrows to a positive finite value. -/
theorem toF32_positive_iff (x : F64) :
    (∃ y, x.toF32 = some y ∧ y.isFinite = true ∧ F32.zero.lt y = true) ↔
      tiny.lt x = true ∧ x.lt huge = true := by
  have htiny : tiny.isNaN = false := by decide
  have hhuge : huge.isNaN = false := by decide
  rw [lt_iff, lt_iff, tiny_signedMag, huge_signedMag]
  constructor
  · rintro ⟨y, hy, hfinite, hpos⟩
    obtain ⟨hx, hlt⟩ := isFinite_of_toF32 hy hfinite
    obtain ⟨y', hy', -, hmag⟩ := toF32_of_lt hx hlt
    obtain rfl := Option.some.inj (hy.symm.trans hy')
    -- a positive value has no sign bit, so its magnitude is rounded to the 32-bit one
    obtain ⟨-, -, hpos⟩ := F32.lt_iff.mp hpos
    rw [F32.zero_signedMag, hmag] at hpos
    have hsign : x.negative = false := by
      by_contra hneg
      rw [if_pos (by simpa using hneg)] at hpos
      omega
    rw [hsign, if_neg (by decide)] at hpos
    have hnan : x.isNaN = false := by
      rw [isFinite, decide_eq_true_eq] at hx
      rw [isNaN, decide_eq_false_iff_not]
      omega
    rw [signedMag, hsign, if_neg (by decide), Nat.cast_lt, Nat.cast_lt]
    -- the magnitude is not rounded to zero, and not to infinity
    have hlow := (roundMag_pos_iff x).mp (by omega)
    have hhigh := (roundMag_lt_iff x).mp hlt
    exact ⟨⟨htiny, hnan, hlow⟩, hnan, hhuge, hhigh⟩
  · rintro ⟨⟨-, hnan, hlow⟩, -, -, hhigh⟩
    have hsign : x.negative = false := by
      by_contra hneg
      rw [signedMag, if_pos (by simpa using hneg)] at hlow
      have : (0 : ℤ) ≤ ((2 ^ 924 : ℕ) : ℤ) := Int.natCast_nonneg _
      omega
    rw [signedMag, hsign, if_neg (by decide), Nat.cast_lt] at hlow hhigh
    -- an infinity is not below `huge`
    have hx : x.isFinite = true := by
      rw [isFinite, decide_eq_true_eq]
      by_contra hle
      rw [isNaN, decide_eq_false_iff_not] at hnan
      rw [show x.mag = 0x7FF0000000000000 by omega] at hhigh
      revert hhigh
      decide +kernel
    have hround := (roundMag_lt_iff x).mpr hhigh
    obtain ⟨y, hy, hfinite, hmag⟩ := toF32_of_lt hx hround
    refine ⟨y, hy, hfinite, F32.lt_iff.mpr ⟨by decide, F32.isNaN_of_isFinite hfinite, ?_⟩⟩
    rw [F32.zero_signedMag, hmag, hsign, if_neg (by decide)]
    exact_mod_cast (roundMag_pos_iff x).mpr hlow

end F64

end EcuTelemetry
