/-
  EcuTelemetry.Lib.Binary

  IEEE 754 binary32 and binary64 values as bit patterns, and the two
  conversions between them: widening is exact, narrowing rounds to nearest,
  ties to even, and reports a finite value that would round to infinity.

  A finite magnitude is handled as a natural number of units in the last
  place of the smallest subnormal (`2 ^ -149` and `2 ^ -1074`).  In that scale
  the exponent field of a magnitude `M` is `log2 M - p` (cut off at 0) for a
  fraction of `p` bits, so encoding and decoding are two lines each.
-/

import Mathlib.Data.Nat.Log
import Mathlib.Tactic.Ring

namespace EcuTelemetry

/-- A binary32 value. -/
structure F32 where
  bits : UInt32
deriving DecidableEq, Repr

/-- A binary64 value. -/
structure F64 where
  bits : UInt64
deriving DecidableEq, Repr

namespace Binary

/-! ## Magnitudes -/

/-- The magnitude, in units of the smallest subnormal, of the exponent and
    fraction fields `b` of a format with `p` fraction bits. -/
def decodeMag (p b : Nat) : Nat :=
  if b / 2 ^ p = 0 then b % 2 ^ p else (2 ^ p + b % 2 ^ p) * 2 ^ (b / 2 ^ p - 1)

/-- The exponent and fraction fields of a magnitude that fits `p + 1` bits. -/
def encodeMag (p m : Nat) : Nat := (m.log2 - p) * 2 ^ p + m / 2 ^ (m.log2 - p)

theorem log2_eq_of_bounds {m k : Nat} (h1 : 2 ^ k ≤ m) (h2 : m < 2 ^ (k + 1)) : m.log2 = k := by
  have hm : m ≠ 0 := by
    have := Nat.two_pow_pos k
    omega
  exact (Nat.log2_eq_iff hm).mpr ⟨h1, h2⟩

theorem log2_lt_of_lt {m k : Nat} (hk : 0 < k) (h : m < 2 ^ k) : m.log2 < k := by
  rcases Nat.eq_zero_or_pos m with rfl | hm
  · simpa using hk
  · exact (Nat.log2_lt (by omega)).mpr h

/-- Magnitudes below `2 ^ (p + 1)` are their own encoding. -/
theorem encodeMag_of_lt {p m : Nat} (h : m < 2 ^ (p + 1)) : encodeMag p m = m := by
  have := log2_lt_of_lt (Nat.succ_pos p) h
  have h0 : m.log2 - p = 0 := by omega
  simp [encodeMag, h0]

/-- A normal magnitude: the exponent and the significand without its leading one. -/
theorem encodeMag_mul_pow {p q k : Nat} (h1 : 2 ^ p ≤ q) (h2 : q < 2 ^ (p + 1)) :
    encodeMag p (q * 2 ^ k) = k * 2 ^ p + q := by
  have hlog : (q * 2 ^ k).log2 = p + k := by
    apply log2_eq_of_bounds
    · rw [Nat.pow_add]
      exact Nat.mul_le_mul_right _ h1
    · calc q * 2 ^ k < 2 ^ (p + 1) * 2 ^ k :=
            Nat.mul_lt_mul_of_pos_right h2 (Nat.two_pow_pos k)
        _ = 2 ^ (p + k + 1) := by rw [← Nat.pow_add]; congr 1; omega
  rw [encodeMag, hlog, Nat.add_sub_cancel_left, Nat.mul_div_cancel _ (Nat.two_pow_pos k)]

/-- And its value. -/
theorem decodeMag_encoded {p q k : Nat} (h1 : 2 ^ p ≤ q) (h2 : q < 2 ^ (p + 1)) :
    decodeMag p (k * 2 ^ p + q) = q * 2 ^ k := by
  have hpos := Nat.two_pow_pos p
  have hq : q = 2 ^ p + (q - 2 ^ p) := by omega
  have hf : q - 2 ^ p < 2 ^ p := by rw [Nat.pow_succ] at h2; omega
  have heq : k * 2 ^ p + q = (q - 2 ^ p) + (k + 1) * 2 ^ p := by rw [Nat.succ_mul]; omega
  have hdiv : (k * 2 ^ p + q) / 2 ^ p = k + 1 := by
    rw [heq, Nat.add_mul_div_right _ _ hpos, Nat.div_eq_of_lt hf, Nat.zero_add]
  have hmod : (k * 2 ^ p + q) % 2 ^ p = q - 2 ^ p := by
    rw [heq, Nat.add_mul_mod_self_right, Nat.mod_eq_of_lt hf]
  rw [decodeMag, hdiv, hmod, if_neg (Nat.succ_ne_zero k), Nat.add_sub_cancel, ← hq]

/-- A magnitude read from a format is `q * 2 ^ k` with `q` of at most `p + 1` bits. -/
theorem decodeMag_form (p b : Nat) :
    ∃ q k, decodeMag p b = q * 2 ^ k ∧ q < 2 ^ (p + 1) ∧ k ≤ b / 2 ^ p - 1 := by
  have hmod := Nat.mod_lt b (Nat.two_pow_pos p)
  unfold decodeMag
  split
  · exact ⟨b % 2 ^ p, 0, by simp, by rw [Nat.pow_succ]; omega, Nat.zero_le _⟩
  · exact ⟨_, _, rfl, by rw [Nat.pow_succ]; omega, le_rfl⟩

/-- Encoding undoes decoding. -/
theorem encodeMag_decodeMag (p b : Nat) : encodeMag p (decodeMag p b) = b := by
  have hpos := Nat.two_pow_pos p
  have hmod := Nat.mod_lt b hpos
  have hb := Nat.div_add_mod b (2 ^ p)
  unfold decodeMag
  split
  · next h0 =>
    rw [h0, Nat.mul_zero, Nat.zero_add] at hb
    rw [hb]
    exact encodeMag_of_lt (by rw [Nat.pow_succ]; omega)
  · next h0 =>
    rw [encodeMag_mul_pow (by omega) (by rw [Nat.pow_succ]; omega)]
    obtain ⟨e, he⟩ : ∃ e, b / 2 ^ p = e + 1 := Nat.exists_eq_succ_of_ne_zero h0
    rw [he, Nat.mul_succ, Nat.mul_comm] at hb
    rw [he, Nat.add_sub_cancel]
    omega

/-- Decoding undoes the encoding of a magnitude that needs no rounding. -/
theorem decodeMag_encodeMag {p m : Nat} (h : 2 ^ (m.log2 - p) ∣ m) :
    decodeMag p (encodeMag p m) = m := by
  by_cases hm : m < 2 ^ (p + 1)
  · rw [encodeMag_of_lt hm]
    by_cases hp : m < 2 ^ p
    · simp [decodeMag, Nat.div_eq_of_lt hp, Nat.mod_eq_of_lt hp]
    · simpa using decodeMag_encoded (k := 0) (Nat.le_of_not_lt hp) hm
  -- a normal magnitude is `q` shifted, with `q` between `2 ^ p` and `2 ^ (p + 1)`
  · obtain ⟨q, hq⟩ := h
    have hm0 : m ≠ 0 := by have := Nat.two_pow_pos (p + 1); omega
    have hge : p + 1 ≤ m.log2 := (Nat.le_log2 hm0).mpr (Nat.le_of_not_lt hm)
    have hpos := Nat.two_pow_pos (m.log2 - p)
    have hself := Nat.log2_self_le hm0
    have hlt := Nat.lt_log2_self (n := m)
    have hsplit : 2 ^ m.log2 = 2 ^ (m.log2 - p) * 2 ^ p := by
      rw [← Nat.pow_add]; congr 1; omega
    have hsplit' : 2 ^ (m.log2 + 1) = 2 ^ (m.log2 - p) * 2 ^ (p + 1) := by
      rw [← Nat.pow_add]; congr 1; omega
    have h1 : 2 ^ p ≤ q := by
      rw [hsplit, hq] at hself
      exact Nat.le_of_mul_le_mul_left (by simpa [← hq] using hself) hpos
    have h2 : q < 2 ^ (p + 1) := by
      apply Nat.lt_of_mul_lt_mul_left (a := 2 ^ (m.log2 - p))
      rw [← hsplit', ← hq]
      exact hlt
    have hdiv : m / 2 ^ (m.log2 - p) = q := Nat.div_eq_of_eq_mul_right hpos hq
    rw [encodeMag, hdiv, decodeMag_encoded h1 h2, Nat.mul_comm]
    exact hq.symm

/-! ## Rounding -/

/-- `a / d` to the nearest integer, ties to even. -/
def divNearestEven (a d : Nat) : Nat :=
  let q := a / d
  let r := a % d
  if 2 * r < d then q else if d < 2 * r then q + 1 else if q % 2 = 0 then q else q + 1

theorem divNearestEven_of_dvd {a d : Nat} (hd : 0 < d) (h : d ∣ a) :
    divNearestEven a d = a / d := by
  have h0 : a % d = 0 := Nat.mod_eq_zero_of_dvd h
  have : 2 * (a % d) < d := by omega
  simp [divNearestEven, this]

end Binary

/-! ## The two formats -/

namespace Binary

/-- One binary32 unit is `2 ^ ulpRatio` binary64 units. -/
def ulpRatio : Nat := 925

/-- `2 ^ 128` is `2 ^ overflowExp` binary32 units. -/
def overflowExp : Nat := 277

end Binary

namespace F64

/-- Exponent and fraction fields. -/
def mag (x : F64) : Nat := x.bits.toNat % 2 ^ 63

def negative (x : F64) : Bool := 2 ^ 63 ≤ x.bits.toNat

def isNaN (x : F64) : Bool := 0x7FF0000000000000 < x.mag

def isInf (x : F64) : Bool := x.mag = 0x7FF0000000000000

def isFinite (x : F64) : Bool := x.mag < 0x7FF0000000000000

/-- Sign and magnitude as one integer, in units of `2 ^ -1074`; infinities lie
    beyond every finite value. -/
def signedMag (x : F64) : Int :=
  if x.negative then -(Binary.decodeMag 52 x.mag : Int) else Binary.decodeMag 52 x.mag

/-- IEEE `<=`: false when either side is NaN. -/
def le (x y : F64) : Bool := !x.isNaN && !y.isNaN && decide (x.signedMag ≤ y.signedMag)

/-- `x < y`, false on a NaN. -/
def lt (x y : F64) : Bool := x.le y && !y.le x

/-- Rebuild a value from its sign and its exponent and fraction fields. -/
def ofSign (neg : Bool) (mag : Nat) : F64 := ⟨UInt64.ofNat ((if neg then 2 ^ 63 else 0) + mag)⟩

/-- The value of a natural number below `2 ^ 53`. -/
def ofNat (n : Nat) : F64 := ofSign false (Binary.encodeMag 52 (n * 2 ^ 1074))

/-- The value of a negated natural number below `2 ^ 53`. -/
def negNat (n : Nat) : F64 := ofSign true (Binary.encodeMag 52 (n * 2 ^ 1074))

end F64

namespace F32

def mag (x : F32) : Nat := x.bits.toNat % 2 ^ 31

def negative (x : F32) : Bool := 2 ^ 31 ≤ x.bits.toNat

def isNaN (x : F32) : Bool := 0x7F800000 < x.mag

def isFinite (x : F32) : Bool := x.mag < 0x7F800000

def signedMag (x : F32) : Int :=
  if x.negative then -(Binary.decodeMag 23 x.mag : Int) else Binary.decodeMag 23 x.mag

/-- Rebuild a value from its sign and its exponent and fraction fields. -/
def ofSign (neg : Bool) (mag : Nat) : F32 := ⟨UInt32.ofNat ((if neg then 2 ^ 31 else 0) + mag)⟩

/-- Exact conversion to binary64; a NaN keeps its payload. -/
def toF64 (x : F32) : F64 :=
  F64.ofSign x.negative
    (if x.mag < 0x7F800000 then
        Binary.encodeMag 52 (Binary.decodeMag 23 x.mag * 2 ^ Binary.ulpRatio)
     else 0x7FF0000000000000 + (x.mag - 0x7F800000) * 2 ^ 29)

end F32

namespace F64

/-- A finite magnitude rounded to 24 bits, in units of `2 ^ -149`. -/
def roundMag (x : F64) : Nat :=
  let n := Binary.decodeMag 52 x.mag
  let e := n.log2 - (Binary.ulpRatio + 23)
  Binary.divNearestEven n (2 ^ (Binary.ulpRatio + e)) * 2 ^ e

/-- The value is finite but rounds to a binary32 infinity. -/
def overflowsF32 (x : F64) : Bool := x.isFinite && decide (2 ^ Binary.overflowExp ≤ x.roundMag)

/-- Round to binary32, to nearest and ties to even; `none` for a finite value
    out of range. -/
def toF32 (x : F64) : Option F32 :=
  if x.isNaN then some (F32.ofSign x.negative (0x7FC00000 ||| x.mag % 2 ^ 52 / 2 ^ 29))
  else if x.isInf then some (F32.ofSign x.negative 0x7F800000)
  else if 2 ^ Binary.overflowExp ≤ x.roundMag then none
  else some (F32.ofSign x.negative (Binary.encodeMag 23 x.roundMag))

end F64

namespace F32

theorem bits_eq (x : F32) : x.bits.toNat = (if x.negative then 2 ^ 31 else 0) + x.mag := by
  have := x.bits.toNat_lt
  unfold negative mag
  split <;> simp_all <;> omega

@[simp] theorem ofSign_mag (x : F32) : ofSign x.negative x.mag = x := by
  obtain ⟨b⟩ := x
  have h := bits_eq ⟨b⟩
  simp only [ofSign, ← h, UInt32.ofNat_toNat]

theorem mag_lt (x : F32) : x.mag < 2 ^ 31 := Nat.mod_lt _ (by decide)

theorem decodeMag_form {x : F32} (h : x.mag < 0x7F800000) :
    ∃ q k, Binary.decodeMag 23 x.mag = q * 2 ^ k ∧ q < 2 ^ 24 ∧ k ≤ 253 := by
  obtain ⟨q, k, hm, hq, hk⟩ := Binary.decodeMag_form 23 x.mag
  exact ⟨q, k, hm, hq, by omega⟩

end F32

namespace F64

@[simp] theorem mag_ofSign {neg : Bool} {m : Nat} (h : m < 2 ^ 63) : (ofSign neg m).mag = m := by
  unfold ofSign mag
  rw [UInt64.toNat_ofNat']
  cases neg <;> simp <;> omega

@[simp] theorem negative_ofSign {neg : Bool} {m : Nat} (h : m < 2 ^ 63) :
    (ofSign neg m).negative = neg := by
  unfold ofSign negative
  rw [UInt64.toNat_ofNat']
  cases neg <;> simp <;> omega

/-- Packing refuses exactly the values that round beyond the largest float. -/
theorem toF32_eq_none_iff (x : F64) : x.toF32 = none ↔ x.overflowsF32 = true := by
  unfold toF32 overflowsF32 isNaN isInf isFinite
  by_cases h1 : 0x7FF0000000000000 < x.mag
  · simp [h1, Nat.lt_asymm h1]
  · by_cases h2 : x.mag = 0x7FF0000000000000
    · simp [h2]
    · have h3 : x.mag < 0x7FF0000000000000 := by omega
      by_cases h4 : 2 ^ Binary.overflowExp ≤ x.roundMag <;> simp [h1, h2, h3, h4]

end F64

/-! ## Narrowing undoes widening -/

namespace Binary

theorem log2_mul_pow {m : Nat} (hm : m ≠ 0) (k : Nat) : (m * 2 ^ k).log2 = m.log2 + k := by
  apply log2_eq_of_bounds
  · rw [Nat.pow_add]
    exact Nat.mul_le_mul_right _ (Nat.log2_self_le hm)
  · rw [show m.log2 + k + 1 = (m.log2 + 1) + k by omega, Nat.pow_add]
    exact Nat.mul_lt_mul_of_pos_right Nat.lt_log2_self (Nat.two_pow_pos k)

/-- `2 ^ e` divides a magnitude of `p + 1` significant bits for the exponent
    field `e` it is encoded with. -/
theorem pow_log2_sub_dvd {q k p : Nat} (hq : q < 2 ^ (p + 1)) :
    2 ^ ((q * 2 ^ k).log2 - p) ∣ q * 2 ^ k := by
  rcases Nat.eq_zero_or_pos q with rfl | hpos
  · simp
  · have hlog := log2_lt_of_lt (Nat.succ_pos p) hq
    rw [log2_mul_pow (by omega)]
    exact Dvd.dvd.mul_left (Nat.pow_dvd_pow 2 (by omega)) q

/-- A bound on the magnitude bounds its pattern. -/
theorem encodeMag_lt {p m k : Nat} (hm : m < 2 ^ k) (hk : p < k) :
    encodeMag p m < (k - p + 1) * 2 ^ p := by
  have hlog := log2_lt_of_lt (by omega) hm
  have hpos := Nat.two_pow_pos (m.log2 - p)
  -- subnormals and the first binade, then the others
  by_cases hsmall : m.log2 ≤ p
  · have h0 : m.log2 - p = 0 := by omega
    have hlt := Nat.lt_log2_self (n := m)
    have hle : 2 ^ (m.log2 + 1) ≤ 2 ^ (p + 1) := Nat.pow_le_pow_right (by decide) (by omega)
    have hmul : 2 * 2 ^ p ≤ (k - p + 1) * 2 ^ p := Nat.mul_le_mul_right _ (by omega)
    rw [encodeMag, h0]
    simp only [Nat.zero_mul, Nat.pow_zero, Nat.div_one, Nat.zero_add]
    rw [Nat.pow_succ] at hle
    omega
  · have hdiv : m / 2 ^ (m.log2 - p) < 2 ^ (p + 1) := by
      rw [Nat.div_lt_iff_lt_mul hpos, ← Nat.pow_add]
      have hlt := Nat.lt_log2_self (n := m)
      rwa [show p + 1 + (m.log2 - p) = m.log2 + 1 by omega]
    have hmul : (m.log2 - p + 2) * 2 ^ p ≤ (k - p + 1) * 2 ^ p :=
      Nat.mul_le_mul_right _ (by omega)
    rw [Nat.add_mul] at hmul
    rw [encodeMag]
    rw [Nat.pow_succ] at hdiv
    omega

end Binary

namespace F32

variable {x : F32}

theorem decodeMag_lt (h : x.mag < 0x7F800000) :
    Binary.decodeMag 23 x.mag < 2 ^ Binary.overflowExp := by
  obtain ⟨q, k, hm, hq, hk⟩ := decodeMag_form h
  have hexp : Binary.overflowExp = 24 + 253 := rfl
  rw [hm, hexp, Nat.pow_add]
  calc q * 2 ^ k < 2 ^ 24 * 2 ^ k := Nat.mul_lt_mul_of_pos_right hq (Nat.two_pow_pos k)
    _ ≤ 2 ^ 24 * 2 ^ 253 := Nat.mul_le_mul_left _ (Nat.pow_le_pow_right (by decide) hk)

/-- The exponent and fraction fields of the widened value stay below the
    infinity pattern. -/
theorem widened_lt (h : x.mag < 0x7F800000) :
    Binary.encodeMag 52 (Binary.decodeMag 23 x.mag * 2 ^ Binary.ulpRatio) < 0x7FF0000000000000 := by
  have hlt : Binary.decodeMag 23 x.mag * 2 ^ Binary.ulpRatio <
      2 ^ (Binary.overflowExp + Binary.ulpRatio) := by
    rw [Nat.pow_add]
    have hpos := Nat.two_pow_pos Binary.ulpRatio
    generalize 2 ^ Binary.ulpRatio = c at *
    have hm := decodeMag_lt h
    generalize 2 ^ Binary.overflowExp = d at *
    exact Nat.mul_lt_mul_of_pos_right hm hpos
  have henc := Binary.encodeMag_lt (p := 52) hlt (by decide)
  exact Nat.lt_trans henc (by decide)

theorem decodeMag_widened (h : x.mag < 0x7F800000) :
    Binary.decodeMag 52 (Binary.encodeMag 52 (Binary.decodeMag 23 x.mag * 2 ^ Binary.ulpRatio)) =
      Binary.decodeMag 23 x.mag * 2 ^ Binary.ulpRatio := by
  obtain ⟨q, k, hm, hq, -⟩ := decodeMag_form h
  apply Binary.decodeMag_encodeMag
  rw [hm, Nat.mul_assoc, ← Nat.pow_add]
  exact Binary.pow_log2_sub_dvd (Nat.lt_trans hq (by decide))

theorem toF64_of_finite (h : x.mag < 0x7F800000) :
    x.toF64 = F64.ofSign x.negative
      (Binary.encodeMag 52 (Binary.decodeMag 23 x.mag * 2 ^ Binary.ulpRatio)) := by
  rw [toF64, if_pos h]

/-- A widened value is a multiple of the binary32 grid, so it is not rounded. -/
theorem roundMag_toF64 (h : x.mag < 0x7F800000) :
    x.toF64.roundMag = Binary.decodeMag 23 x.mag := by
  have hlt := widened_lt h
  unfold F64.roundMag
  rw [toF64_of_finite h, F64.mag_ofSign (by omega), decodeMag_widened h]
  generalize hm : Binary.decodeMag 23 x.mag = m
  obtain ⟨q, k, hq, hqlt, -⟩ := decodeMag_form h
  rw [hm] at hq
  have hdvd : 2 ^ (m.log2 - 23) ∣ m := hq ▸ Binary.pow_log2_sub_dvd hqlt
  rcases Nat.eq_zero_or_pos m with rfl | hpos
  · simp [Binary.divNearestEven_of_dvd]
  · have he : (m * 2 ^ Binary.ulpRatio).log2 - (Binary.ulpRatio + 23) = m.log2 - 23 := by
      rw [Binary.log2_mul_pow (by omega)]
      omega
    simp only [he]
    have hdvd' : 2 ^ (Binary.ulpRatio + (m.log2 - 23)) ∣ m * 2 ^ Binary.ulpRatio := by
      rw [Nat.pow_add, Nat.mul_comm m]
      exact Nat.mul_dvd_mul_left _ hdvd
    rw [Binary.divNearestEven_of_dvd (Nat.two_pow_pos _) hdvd', Nat.pow_add, Nat.mul_comm m,
      Nat.mul_div_mul_left _ _ (Nat.two_pow_pos Binary.ulpRatio), Nat.div_mul_cancel hdvd]

/-- Packing an unpacked binary32 value gives the value back, NaN aside. -/
theorem toF32_toF64 (h : x.isNaN = false) : x.toF64.toF32 = some x := by
  have hle : x.mag ≤ 0x7F800000 := by simpa [isNaN] using h
  rcases Nat.lt_or_eq_of_le hle with hlt | heq
  -- a finite float is widened exactly, and rounding changes nothing
  · have hw := widened_lt hlt
    have hr := roundMag_toF64 hlt
    have hm := congrArg F64.mag (toF64_of_finite hlt)
    rw [F64.mag_ofSign (by omega)] at hm
    have hn : x.toF64.negative = x.negative := by
      rw [toF64_of_finite hlt, F64.negative_ofSign (by omega)]
    have h1 : x.toF64.isNaN = false := by simp only [F64.isNaN, hm]; simp; omega
    have h2 : x.toF64.isInf = false := by simp only [F64.isInf, hm]; simp; omega
    have h3 : ¬ 2 ^ Binary.overflowExp ≤ x.toF64.roundMag := by
      rw [hr]; have := decodeMag_lt hlt; omega
    rw [F64.toF32, h1, h2, if_neg (by simp), if_neg (by simp), if_neg h3, hr, hn,
      Binary.encodeMag_decodeMag, ofSign_mag]
  -- infinity
  · have hinf : x.toF64 = F64.ofSign x.negative 0x7FF0000000000000 := by
      rw [toF64, heq]
      rfl
    have h1 : x.toF64.isNaN = false := by rw [hinf, F64.isNaN, F64.mag_ofSign (by decide)]; rfl
    have h2 : x.toF64.isInf = true := by rw [hinf, F64.isInf, F64.mag_ofSign (by decide)]; rfl
    have hx := ofSign_mag x
    rw [heq] at hx
    rw [F64.toF32, h1, h2, if_neg (by simp), if_pos rfl, hinf,
      F64.negative_ofSign (by decide), hx]

end F32

end EcuTelemetry
