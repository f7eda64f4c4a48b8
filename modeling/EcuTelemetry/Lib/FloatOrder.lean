/-
  EcuTelemetry.Lib.FloatOrder

  Rounding keeps the order against values that need none: a result on one side
  of a float is rounded to the same side.  So subtracting a positive float from
  another never raises it, and adding one never lowers it.
-/

import EcuTelemetry.Lib.FloatOps

namespace EcuTelemetry

namespace Binary

/-! ## Magnitudes that need no rounding -/

/-- A magnitude of `p + 1` significant bits. -/
def Fits (p m : Nat) : Prop := ∃ q k, m = q * 2 ^ k ∧ q < 2 ^ (p + 1)

theorem fits_decodeMag (p b : Nat) : Fits p (decodeMag p b) := by
  obtain ⟨q, k, hm, hq, -⟩ := decodeMag_form p b
  exact ⟨q, k, hm, hq⟩

theorem decodeMag_pos {p b : Nat} (h : b / 2 ^ p ≠ 0) : 0 < decodeMag p b := by
  rw [decodeMag, if_neg h]
  exact Nat.mul_pos (Nat.add_pos_left (Nat.two_pow_pos p) _) (Nat.two_pow_pos _)

theorem Fits.decodeMag_encodeMag {p m : Nat} (h : Fits p m) : decodeMag p (encodeMag p m) = m := by
  obtain ⟨q, k, rfl, hq⟩ := h
  exact Binary.decodeMag_encodeMag (pow_log2_sub_dvd hq)

/-- It is a multiple of the unit that `v` is rounded to, or below what `v` keeps. -/
theorem Fits.cases {p m : Nat} (h : Fits p m) (v : Nat) :
    2 ^ (v.log2 - p) ∣ m ∨ m < 2 ^ p * 2 ^ (v.log2 - p) ∧ 2 ^ p * 2 ^ (v.log2 - p) ≤ v := by
  obtain ⟨q, k, rfl, hq⟩ := h
  by_cases hle : v.log2 - p ≤ k
  · exact .inl (Dvd.dvd.mul_left (Nat.pow_dvd_pow 2 hle) q)
  · refine .inr ⟨?_, ?_⟩
    · calc q * 2 ^ k < 2 ^ (p + 1) * 2 ^ k := Nat.mul_lt_mul_of_pos_right hq (Nat.two_pow_pos k)
        _ = 2 ^ (p + (k + 1)) := by rw [← Nat.pow_add]; congr 1; omega
        _ ≤ 2 ^ (p + (v.log2 - p)) := Nat.pow_le_pow_right (by decide) (by omega)
        _ = 2 ^ p * 2 ^ (v.log2 - p) := Nat.pow_add ..
    · have hv : v ≠ 0 := by
        rintro rfl
        simp at hle
      rw [← Nat.pow_add, Nat.add_sub_cancel' (by omega)]
      exact Nat.log2_self_le hv

/-! ## Rounding between two bounds -/

/-- Rounding to nearest does not go below the quotient. -/
theorem div_le_divNearestEven (a d : Nat) : a / d ≤ divNearestEven a d := by
  simp only [divNearestEven]
  split
  · exact le_rfl
  · split
    · exact Nat.le_succ _
    · split
      · exact le_rfl
      · exact Nat.le_succ _

/-- Nor above a whole number that the ratio stays below. -/
theorem divNearestEven_le {a d c : Nat} (hd : 0 < d) (h : a ≤ c * d) : divNearestEven a d ≤ c := by
  rcases eq_or_lt_of_le h with rfl | hlt
  · rw [divNearestEven_of_dvd hd (Nat.dvd_mul_left d c), Nat.mul_div_cancel _ hd]
  · have hq : a / d < c := (Nat.div_lt_iff_lt_mul hd).mpr hlt
    simp only [divNearestEven]
    split
    · exact hq.le
    · split
      · exact hq
      · split
        · exact hq.le
        · exact hq

theorem roundQuot_one (p v : Nat) :
    roundQuot p v 1 = divNearestEven v (2 ^ (v.log2 - p)) * 2 ^ (v.log2 - p) := by
  simp only [roundQuot, Nat.div_one, Nat.one_mul]

/-- Rounding does not cross a representable magnitude from above. -/
theorem le_roundQuot {p m v : Nat} (hm : Fits p m) (h : m ≤ v) : m ≤ roundQuot p v 1 := by
  have hpos := Nat.two_pow_pos (v.log2 - p)
  rw [roundQuot_one]
  refine le_trans ?_ (Nat.mul_le_mul_right _ (div_le_divNearestEven v (2 ^ (v.log2 - p))))
  rcases hm.cases v with ⟨c, rfl⟩ | ⟨hlt, hle⟩
  · rw [Nat.mul_comm] at h ⊢
    exact Nat.mul_le_mul_right _ ((Nat.le_div_iff_mul_le hpos).mpr h)
  · exact hlt.le.trans (Nat.mul_le_mul_right _ ((Nat.le_div_iff_mul_le hpos).mpr hle))

theorem roundQuot_le {p m v : Nat} (hm : Fits p m) (h : v ≤ m) : roundQuot p v 1 ≤ m := by
  rw [roundQuot_one]
  rcases hm.cases v with ⟨c, rfl⟩ | ⟨hlt, hle⟩
  · rw [Nat.mul_comm _ c] at h ⊢
    exact Nat.mul_le_mul_right _ (divNearestEven_le (Nat.two_pow_pos _) h)
  · omega

/-- The result of rounding is representable. -/
theorem fits_roundQuot (p n : Nat) {d : Nat} (hd : 0 < d) : Fits p (roundQuot p n d) := by
  simp only [roundQuot]
  have hpos : 0 < d * 2 ^ ((n / d).log2 - p) := Nat.mul_pos hd (Nat.two_pow_pos _)
  have hle : divNearestEven n (d * 2 ^ ((n / d).log2 - p)) ≤ 2 ^ (p + 1) := by
    refine divNearestEven_le hpos ?_
    have hlog : n / d + 1 ≤ 2 ^ (p + 1) * 2 ^ ((n / d).log2 - p) := by
      rw [← Nat.pow_add]
      exact Nat.lt_log2_self.trans_le (Nat.pow_le_pow_right (by decide) (by omega))
    calc n ≤ (n / d + 1) * d := (Nat.lt_mul_of_div_lt (Nat.lt_succ_self _) hd).le
      _ ≤ 2 ^ (p + 1) * 2 ^ ((n / d).log2 - p) * d := Nat.mul_le_mul_right d hlog
      _ = 2 ^ (p + 1) * (d * 2 ^ ((n / d).log2 - p)) := by ring
  rcases eq_or_lt_of_le hle with heq | hlt
  · refine ⟨1, p + 1 + ((n / d).log2 - p), ?_, Nat.one_lt_two_pow (by omega)⟩
    rw [heq, Nat.one_mul, ← Nat.pow_add]
  · exact ⟨_, _, rfl, hlt⟩

end Binary

/-! ## binary32 -/

namespace F32

open Binary

@[simp] theorem mag_ofSign {neg : Bool} {m : Nat} (h : m < 2 ^ 31) : (ofSign neg m).mag = m := by
  unfold ofSign mag
  rw [UInt32.toNat_ofNat']
  cases neg <;> simp <;> omega

@[simp] theorem negative_ofSign {neg : Bool} {m : Nat} (h : m < 2 ^ 31) :
    (ofSign neg m).negative = neg := by
  unfold ofSign negative
  rw [UInt32.toNat_ofNat']
  cases neg <;> simp <;> omega

theorem signedMag_ofSign {neg : Bool} {m : Nat} (h : m < 2 ^ 31) :
    (ofSign neg m).signedMag = if neg then -(decodeMag 23 m : Int) else decodeMag 23 m := by
  rw [signedMag, mag_ofSign h, negative_ofSign h]

theorem decodeMag_inf : decodeMag 23 0x7F800000 = 2 ^ overflowExp := by
  have hexp : overflowExp = 23 + 254 := rfl
  rw [decodeMag, if_neg (by decide), hexp, Nat.pow_add]
  rfl

theorem natAbs_signedMag (x : F32) : x.signedMag.natAbs = decodeMag 23 x.mag := by
  rw [signedMag]
  split <;> omega

/-- A value that is no NaN is at most the infinity. -/
theorem natAbs_signedMag_le {x : F32} (h : x.isNaN = false) :
    x.signedMag.natAbs ≤ 2 ^ overflowExp := by
  rw [natAbs_signedMag]
  rcases Nat.lt_or_ge x.mag 0x7F800000 with hlt | hge
  · exact (decodeMag_lt hlt).le
  · rw [isNaN, decide_eq_false_iff_not] at h
    rw [show x.mag = 0x7F800000 by omega, decodeMag_inf]

theorem signedMag_of_isInf {x : F32} (h : x.isInf = true) :
    x.signedMag = if x.negative then -((2 ^ overflowExp : Nat) : Int)
      else (2 ^ overflowExp : Nat) := by
  have hmag : x.mag = 0x7F800000 := of_decide_eq_true h
  rw [signedMag, hmag, decodeMag_inf]

theorem neg_signedMag (x : F32) : x.neg.signedMag = -x.signedMag := by
  rw [neg, signedMag_ofSign (mag_lt x), signedMag]
  cases x.negative with
  | false => rfl
  | true => exact (neg_neg _).symm

theorem neg_mag (x : F32) : x.neg.mag = x.mag := mag_ofSign (mag_lt x)

/-- The rounded value of `v` units. -/
def ofUnits (v : Int) : F32 := ofQuot (decide (v < 0)) v.natAbs 1

/-- `ofUnits` rounds the magnitude, up to infinity, and keeps the sign. -/
theorem ofUnits_spec (v : Int) : (ofUnits v).isNaN = false ∧ (ofUnits v).signedMag =
    if v < 0 then -((min (roundQuot 23 v.natAbs 1) (2 ^ overflowExp) : Nat) : Int)
    else ((min (roundQuot 23 v.natAbs 1) (2 ^ overflowExp) : Nat) : Int) := by
  simp only [ofUnits, ofQuot]
  split
  · next hover =>
    -- overflow: infinity, of the sign of `v`
    rw [Nat.min_eq_right hover]
    refine ⟨by rw [isNaN, inf, mag_ofSign (by decide)]; rfl, ?_⟩
    rw [inf, signedMag_ofSign (by decide), decodeMag_inf]
    by_cases hv : v < 0
    · rw [if_pos hv, if_pos (decide_eq_true hv)]
    · rw [if_neg hv, if_neg (by simpa using hv)]
  · next hover =>
    -- in range: the pattern is that of a finite value
    have hmag : encodeMag 23 (roundQuot 23 v.natAbs 1) < 0x7F800000 := by
      exact encodeMag_lt (Nat.not_le.mp hover) (by decide)
    have hlt : encodeMag 23 (roundQuot 23 v.natAbs 1) < 2 ^ 31 := by omega
    rw [Nat.min_eq_left (Nat.not_le.mp hover).le]
    refine ⟨by rw [isNaN, mag_ofSign hlt, decide_eq_false_iff_not]; omega, ?_⟩
    rw [signedMag_ofSign hlt, (fits_roundQuot 23 v.natAbs one_pos).decodeMag_encodeMag]
    by_cases hv : v < 0
    · rw [if_pos hv, if_pos (decide_eq_true hv)]
    · rw [if_neg hv, if_neg (by simpa using hv)]

/-- A float bounds the rounded values of what it bounds. -/
theorem ofUnits_le {v : Int} {x : F32} (hx : x.isNaN = false) (h : v ≤ x.signedMag) :
    (ofUnits v).signedMag ≤ x.signedMag := by
  have hfits : Fits 23 x.signedMag.natAbs := natAbs_signedMag x ▸ fits_decodeMag 23 x.mag
  have hbound := natAbs_signedMag_le hx
  rw [(ofUnits_spec v).2]
  generalize 2 ^ overflowExp = top at hbound ⊢
  split
  · -- the magnitude is not rounded below that of a negative float
    by_cases hneg : x.signedMag < 0
    · have hge := le_roundQuot (v := v.natAbs) hfits (by omega)
      omega
    · omega
  · have hle := roundQuot_le (v := v.natAbs) hfits (by omega)
    omega

/-- Rounding up or down does not pass a float below. -/
theorem le_ofUnits {v : Int} {x : F32} (hx : x.isNaN = false) (h : x.signedMag ≤ v) :
    x.signedMag ≤ (ofUnits v).signedMag := by
  have hfits : Fits 23 x.signedMag.natAbs := natAbs_signedMag x ▸ fits_decodeMag 23 x.mag
  have hbound := natAbs_signedMag_le hx
  rw [(ofUnits_spec v).2]
  generalize 2 ^ overflowExp = top at hbound ⊢
  split
  · have hle := roundQuot_le (v := v.natAbs) hfits (by omega)
    omega
  · by_cases hneg : x.signedMag < 0
    · omega
    · have hge := le_roundQuot (v := v.natAbs) hfits (by omega)
      omega

/-! ## Sums and differences -/

theorem signedMag_nonpos {x : F32} (h : x.negative = true) : x.signedMag ≤ 0 := by
  rw [signedMag, if_pos h]
  omega

/-- A sum is on the side of its first operand that the second points to. -/
theorem add_spec {x y : F32} (hx : x.isNaN = false) (hy : y.isNaN = false)
    (hinf : x.isInf = true → y.isInf = true → x.negative = y.negative) :
    (x.add y).isNaN = false ∧
      (y.signedMag ≤ 0 → (x.add y).signedMag ≤ x.signedMag) ∧
      (0 ≤ y.signedMag → x.signedMag ≤ (x.add y).signedMag) := by
  rw [add, if_neg (by rw [hx, hy]; decide)]
  by_cases hxinf : x.isInf = true
  · -- an infinity stays
    rw [if_pos hxinf, if_neg ?_]
    · exact ⟨hx, fun _ => le_rfl, fun _ => le_rfl⟩
    · rw [Bool.and_eq_true, bne_iff_ne]
      exact fun h => h.2 (hinf hxinf h.1)
  rw [if_neg hxinf]
  by_cases hyinf : y.isInf = true
  -- an infinite addend is the sum
  · rw [if_pos hyinf]
    have hbound := natAbs_signedMag_le hx
    have hval := signedMag_of_isInf hyinf
    generalize 2 ^ overflowExp = top at hbound hval
    refine ⟨hy, fun hle => ?_, fun hge => ?_⟩
    · split at hval <;> omega
    · split at hval <;> omega
  rw [if_neg hyinf]
  dsimp only
  split
  -- opposite values: a zero of either sign
  · next hzero =>
    have hmag : (0 : Nat) < 2 ^ 31 := by decide
    have hval : (ofSign (x.negative && y.negative) 0).signedMag = 0 := by
      rw [signedMag_ofSign hmag]
      split <;> decide
    rw [hval]
    exact ⟨by rw [isNaN, mag_ofSign hmag]; decide, fun _ => by omega, fun _ => by omega⟩
  -- two finite values: the exact sum, rounded
  · have hunits :
        ofQuot (decide (x.signedMag + y.signedMag < 0)) (x.signedMag + y.signedMag).natAbs 1 =
          ofUnits (x.signedMag + y.signedMag) := rfl
    rw [hunits]
    exact ⟨(ofUnits_spec _).1, fun hle => ofUnits_le hx (by omega),
      fun hge => le_ofUnits hx (by omega)⟩

theorem lt_iff {x y : F32} : x.lt y = true ↔
    x.isNaN = false ∧ y.isNaN = false ∧ x.signedMag < y.signedMag := by
  rw [lt, Bool.and_eq_true, Bool.and_eq_true, decide_eq_true_iff, Bool.not_eq_true',
    Bool.not_eq_true', and_assoc]

theorem zero_signedMag : zero.signedMag = 0 := by decide

/-- Above `x` is above `x` less something positive. -/
theorem lt_of_sub {x y z : F32} (hy : zero.lt y = true) (h : x.lt z = true) :
    (x.sub y).lt z = true := by
  obtain ⟨hx, hz, hlt⟩ := lt_iff.mp h
  obtain ⟨-, hy, hpos⟩ := lt_iff.mp hy
  rw [zero_signedMag] at hpos
  have hneg : y.neg.isNaN = false := by rw [isNaN, neg_mag]; exact hy
  have hside : y.neg.signedMag ≤ 0 := by rw [neg_signedMag]; omega
  have hsign : x.isInf = true → y.neg.isInf = true → x.negative = y.neg.negative := by
    intro hxinf _
    -- nothing is above the positive infinity
    have hval := signedMag_of_isInf hxinf
    have hbound := natAbs_signedMag_le hz
    have hyneg : y.negative = false := by
      rw [← Bool.not_eq_true]
      exact fun htrue => absurd (signedMag_nonpos htrue) (by omega)
    rw [neg, negative_ofSign (mag_lt y), hyneg]
    generalize 2 ^ overflowExp = top at hbound hval
    by_contra hxneg
    rw [Bool.not_false, Bool.not_eq_true] at hxneg
    rw [hxneg, if_neg (by decide)] at hval
    omega
  obtain ⟨hnan, hle, -⟩ := add_spec hx hneg hsign
  exact lt_iff.mpr ⟨hnan, hz, lt_of_le_of_lt (hle hside) hlt⟩

/-- Below `x` is below `x` and something positive. -/
theorem lt_of_add {x y z : F32} (hy : zero.lt y = true) (h : z.lt x = true) :
    z.lt (x.add y) = true := by
  obtain ⟨hz, hx, hlt⟩ := lt_iff.mp h
  obtain ⟨-, hy, hpos⟩ := lt_iff.mp hy
  rw [zero_signedMag] at hpos
  have hsign : x.isInf = true → y.isInf = true → x.negative = y.negative := by
    intro hxinf _
    -- nothing is below the negative infinity
    have hval := signedMag_of_isInf hxinf
    have hbound := natAbs_signedMag_le hz
    have hyneg : y.negative = false := by
      rw [← Bool.not_eq_true]
      exact fun htrue => absurd (signedMag_nonpos htrue) (by omega)
    rw [hyneg]
    generalize 2 ^ overflowExp = top at hbound hval
    by_contra hxneg
    rw [Bool.not_eq_false] at hxneg
    rw [if_pos hxneg] at hval
    omega
  obtain ⟨hnan, -, hle⟩ := add_spec hx hy hsign
  exact lt_iff.mpr ⟨hz, hnan, lt_of_lt_of_le hlt (hle hpos.le)⟩

/-! ## The largest value -/

/-- The largest finite value. -/
def FLT_MAX : F32 := ⟨0x7F7FFFFF⟩

theorem decodeMag_max : decodeMag 23 0x7F7FFFFF = (2 ^ 24 - 1) * 2 ^ 253 := by
  have hexp : 0x7F7FFFFF / 2 ^ 23 - 1 = 253 := by decide
  have hfraction : 2 ^ 23 + 0x7F7FFFFF % 2 ^ 23 = 2 ^ 24 - 1 := by decide
  rw [decodeMag, if_neg (by decide), hexp, hfraction]

theorem max_signedMag : FLT_MAX.signedMag = (decodeMag 23 0x7F7FFFFF : Nat) := rfl

theorem isNaN_of_isFinite {x : F32} (h : x.isFinite = true) : x.isNaN = false := by
  have hlt : x.mag < 0x7F800000 := of_decide_eq_true h
  rw [isNaN, decide_eq_false_iff_not]
  omega

/-- FLT_MAX is the largest finite value. -/
theorem signedMag_le_max {x : F32} (h : x.isFinite = true) : x.signedMag ≤ FLT_MAX.signedMag := by
  obtain ⟨q, k, hmag, hq, hk⟩ := decodeMag_form (x := x) (of_decide_eq_true h)
  have hle : decodeMag 23 x.mag ≤ decodeMag 23 0x7F7FFFFF := by
    rw [hmag, decodeMag_max]
    exact Nat.mul_le_mul (by omega) (Nat.pow_le_pow_right (by decide) hk)
  have habs := natAbs_signedMag x
  rw [max_signedMag]
  generalize decodeMag 23 0x7F7FFFFF = top at hle ⊢
  omega

/-- And every other finite value is below it. -/
theorem lt_max_iff {x : F32} (h : x.isFinite = true) : x.lt FLT_MAX = true ↔ x ≠ FLT_MAX := by
  rw [lt_iff]
  constructor
  · rintro ⟨-, -, hlt⟩ rfl
    exact lt_irrefl _ hlt
  · intro hne
    refine ⟨isNaN_of_isFinite h, rfl, lt_of_le_of_ne (signedMag_le_max h) fun heq => hne ?_⟩
    have hpos : 0 < decodeMag 23 0x7F7FFFFF := decodeMag_pos (by decide)
    have hsign : x.negative = false := by
      by_contra htrue
      have := signedMag_nonpos (x := x) (by simpa using htrue)
      rw [max_signedMag] at heq
      omega
    have hdecoded : decodeMag 23 x.mag = decodeMag 23 0x7F7FFFFF := by
      rw [max_signedMag, signedMag, hsign] at heq
      exact Int.ofNat.inj heq
    have hmag : x.mag = 0x7F7FFFFF := by
      rw [← encodeMag_decodeMag 23 x.mag, hdecoded, encodeMag_decodeMag]
    rw [← ofSign_mag x, hsign, hmag]
    rfl

/-- Every other finite value has a finite one above it. -/
theorem exists_above_iff {x : F32} (h : x.isFinite = true) :
    (∃ y : F32, y.isFinite = true ∧ x.lt y = true) ↔ x ≠ FLT_MAX := by
  constructor
  · rintro ⟨y, hy, hlt⟩ rfl
    obtain ⟨-, -, hlt⟩ := lt_iff.mp hlt
    have := signedMag_le_max hy
    omega
  · exact fun hne => ⟨FLT_MAX, rfl, (lt_max_iff h).mpr hne⟩

end F32

namespace F64

open Binary

/-- Narrowing keeps the sign: what is not positive stays so. -/
theorem toFloat_nonpos {x : F64} (h : F64.lt ⟨0⟩ x = false) :
    x.toFloat.isNaN = true ∨ x.toFloat.signedMag ≤ 0 := by
  rw [toFloat, toF32]
  by_cases hnan : x.isNaN = true
  · rw [if_pos hnan]
    refine .inl ?_
    have hle : 0x7FC00000 ≤ 0x7FC00000 ||| x.mag % 2 ^ 52 / 2 ^ 29 := Nat.left_le_or
    have hlt : 0x7FC00000 ||| x.mag % 2 ^ 52 / 2 ^ 29 < 2 ^ 31 :=
      Nat.or_lt_two_pow (by decide) (by omega)
    show F32.isNaN (F32.ofSign x.negative _) = true
    rw [F32.isNaN, F32.mag_ofSign hlt, decide_eq_true_iff]
    omega
  rw [if_neg hnan]
  refine .inr ?_
  have hsign : x.signedMag ≤ 0 := by
    have hzero : (⟨0⟩ : F64).signedMag = 0 := by decide
    have hzeroNaN : (⟨0⟩ : F64).isNaN = false := by decide
    rw [Bool.not_eq_true] at hnan
    rw [F64.lt, F64.le, F64.le, hzero, hzeroNaN, hnan] at h
    by_contra hpos
    simp at h
    omega
  have hneg : x.negative = true → ∀ m, m < 2 ^ 31 → (F32.ofSign x.negative m).signedMag ≤ 0 := by
    intro hx m hm
    rw [F32.signedMag_ofSign hm, if_pos hx]
    omega
  have hround : ¬ 2 ^ overflowExp ≤ x.roundMag → encodeMag 23 x.roundMag < 2 ^ 31 := fun hover =>
    (encodeMag_lt (Nat.not_le.mp hover) (by decide)).trans (by decide)
  cases hx : x.negative with
  | true =>
    rw [hx] at hneg
    split
    · exact hneg rfl _ (by decide)
    · split
      · exact hneg rfl _ (by decide)
      · next hover => exact hneg rfl _ (hround hover)
  | false =>
    -- the value is zero
    rw [F64.signedMag, hx, if_neg (by decide)] at hsign
    have hmag : decodeMag 52 x.mag = 0 := by omega
    have hroundMag : x.roundMag = 0 := by
      rw [roundMag, hmag]
      simp [divNearestEven]
    have hinf : ¬ x.isInf = true := by
      rw [F64.isInf, decide_eq_true_iff]
      intro heq
      exact absurd hmag (decodeMag_pos (by rw [heq]; decide)).ne'
    rw [if_neg hinf, hroundMag, if_neg (Nat.not_le.mpr (Nat.two_pow_pos _))]
    show (F32.ofSign false (encodeMag 23 0)).signedMag ≤ 0
    decide

end F64

end EcuTelemetry
