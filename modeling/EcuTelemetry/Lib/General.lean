/-
  EcuTelemetry.Lib.General

  `%g` of C's `printf`, which is how C++ streams write a float: six significant
  digits without trailing zeros, with an exponent where the number is small or
  large.  Read back, the text gives the float next to the decimal of six digits.
-/

import EcuTelemetry.Lib.Nearest
import EcuTelemetry.Lib.Strto
import Mathlib.Data.Int.Log
import Mathlib.Data.List.DropRight

namespace EcuTelemetry.Printf

open Digits Strto

/-! ## Digits -/

/-- The first `n + 1` decimal digits of a positive number, rounded, and the
    exponent of the first one. -/
def significant (n : ℕ) (q : ℚ) : ℕ × ℤ :=
  let e := Int.log 10 q
  let m := (roundHalfEven (q / 10 ^ (e - n))).natAbs
  if m = 10 ^ (n + 1) then (10 ^ n, e + 1) else (m, e)

/-- Digits with a point, without zeros at the end. -/
def pointed (whole fraction : List Byte) : List Byte :=
  let fraction := fraction.rdropWhile (· = 0x30)
  whole ++ if fraction = [] then [] else 0x2E :: fraction

/-- Digits of which the first has the exponent `e`, in the shorter of the two styles. -/
def placed (ds : List Byte) (e : ℤ) : List Byte :=
  if e < -4 ∨ ds.length ≤ e then
    pointed (ds.take 1) (ds.drop 1) ++ 0x65 :: (if e < 0 then 0x2D else 0x2B) ::
      zeroPad 2 (dec e.natAbs)
  else if e < 0 then pointed (str "0") (List.replicate (e.natAbs - 1) 0x30 ++ ds)
  else pointed (ds.take (e.toNat + 1)) (ds.drop (e.toNat + 1))

/-- `%g`. -/
def general (x : F32) : List Byte :=
  if x.isNaN then str (if x.negative then "-nan" else "nan")
  else if x.isInf then str (if x.negative then "-inf" else "inf")
  else
    (if x.negative then [0x2D] else [] : List Byte) ++
      if x.mag = 0 then str "0"
      else
        let (m, e) := significant 5 (Binary.decodeMag 23 x.mag / 2 ^ 149)
        placed (dec m) e

example : general ⟨0x459C4000⟩ = str "5000" := by decide +kernel
example : general ⟨0xC2C90000⟩ = str "-100.5" := by decide +kernel
example : general ⟨0x38D1B717⟩ = str "0.0001" := by decide +kernel
example : general ⟨0x3727C5AC⟩ = str "1e-05" := by decide +kernel
example : general ⟨0x7F7FFFFF⟩ = str "3.40282e+38" := by decide +kernel
example : general ⟨0x497423FF⟩ = str "1e+06" := by decide +kernel

/-! ## The float next to a decimal -/

section Scaled

open Binary

/-- The magnitude that a decimal is rounded to. -/
def scaledMag (m : ℕ) (k : ℤ) : ℕ :=
  roundQuot 23 (m * 10 ^ k.toNat * 2 ^ 149) (10 ^ (-k).toNat)

theorem scaled_eq (negative : Bool) (m : ℕ) (k : ℤ) : scaled 10 negative m k =
    if 2 ^ overflowExp ≤ scaledMag m k then F32.inf negative
    else F32.ofSign negative (encodeMag 23 (scaledMag m k)) := rfl

/-- The magnitude of `m * 10 ^ k`, in units of the least subnormal. -/
theorem scaledMag_eq (m : ℕ) (k : ℤ) :
    (scaledMag m k : ℤ) = roundRat 23 ((m : ℚ) * 10 ^ k * 2 ^ 149) := by
  rw [scaledMag, roundQuot_eq 23 (Nat.pow_pos (by decide))]
  congr 1
  simp only [Nat.cast_mul, Nat.cast_pow, Nat.cast_ofNat]
  generalize (2 : ℚ) ^ 149 = unit
  rw [div_eq_iff (by positivity)]
  obtain ⟨i, rfl | rfl⟩ := Int.eq_nat_or_neg k
  · rw [Int.toNat_natCast, Int.toNat_neg_natCast, zpow_natCast, pow_zero, mul_one]
  · rw [Int.toNat_neg_natCast, neg_neg, Int.toNat_natCast, zpow_neg, zpow_natCast]
    field_simp

/-- Only the number counts, not how it is written. -/
theorem scaled_congr {negative : Bool} {m m' : ℕ} {k k' : ℤ}
    (h : (m : ℚ) * 10 ^ k = m' * 10 ^ k') : scaled 10 negative m k = scaled 10 negative m' k' := by
  have hmag : scaledMag m k = scaledMag m' k' := by
    have : (scaledMag m k : ℤ) = scaledMag m' k' := by rw [scaledMag_eq, scaledMag_eq, h]
    exact_mod_cast this
  rw [scaled_eq, scaled_eq, hmag]

/-- The sign and the magnitude of a finite value that a decimal is rounded to. -/
theorem of_scaled {x : F32} {negative : Bool} {m : ℕ} {k : ℤ} (hx : x.isFinite = true)
    (h : x = scaled 10 negative m k) :
    x.negative = negative ∧ decodeMag 23 x.mag = scaledMag m k ∧
    scaledMag m k < 2 ^ overflowExp := by
  rw [scaled_eq] at h
  split at h
  · rw [h, F32.isFinite, F32.inf, F32.mag_ofSign (by decide)] at hx
    exact absurd hx (by decide)
  · next hover =>
    have hlt : encodeMag 23 (scaledMag m k) < 2 ^ 31 :=
      (encodeMag_lt (Nat.not_le.mp hover) (by decide)).trans (by decide)
    have hfits : Fits 23 (scaledMag m k) := fits_roundQuot 23 _ (Nat.pow_pos (by decide))
    rw [h, F32.negative_ofSign hlt, F32.mag_ofSign hlt, hfits.decodeMag_encodeMag]
    exact ⟨rfl, rfl, Nat.not_le.mp hover⟩

end Scaled

/-! ## The digits of a number -/

/-- `n + 1` significant digits are the value rounded at the last of them. -/
theorem significant_spec (n : ℕ) {q : ℚ} (hq : 0 < q) :
    10 ^ n ≤ (significant n q).1 ∧ (significant n q).1 < 10 ^ (n + 1) ∧
      ((significant n q).1 : ℚ) * 10 ^ ((significant n q).2 - n) =
        roundHalfEven (q / 10 ^ (Int.log 10 q - n)) * 10 ^ (Int.log 10 q - n) := by
  have hlow := Int.zpow_log_le_self (b := 10) (by decide) hq
  have hhigh := Int.lt_zpow_succ_log_self (b := 10) (by decide) q
  obtain ⟨e, he⟩ : ∃ e, e = Int.log 10 q := ⟨_, rfl⟩
  have hunit : (0 : ℚ) < 10 ^ (e - n) := zpow_pos (by norm_num) _
  rw [← he] at hlow hhigh
  -- rounded to `n + 1` digits the number has `n + 1` digits, or is a power of ten
  have hge : (10 ^ n : ℤ) ≤ roundHalfEven (q / 10 ^ (e - n)) := by
    rw [← roundHalfEven_intCast (F := ℚ) (10 ^ n)]
    refine roundHalfEven_mono ((le_div_iff₀ hunit).mpr ?_)
    push_cast at hlow ⊢
    rwa [← zpow_natCast, ← zpow_add₀ (by norm_num), add_sub_cancel]
  have hle : roundHalfEven (q / 10 ^ (e - n)) ≤ 10 ^ (n + 1) := by
    rw [← roundHalfEven_intCast (F := ℚ) (10 ^ (n + 1))]
    refine roundHalfEven_mono ((div_le_iff₀ hunit).mpr ?_)
    push_cast at hhigh ⊢
    rw [← zpow_natCast, ← zpow_add₀ (by norm_num)]
    push_cast
    rw [show (n + 1 + (e - n) : ℤ) = e + 1 by ring]
    exact hhigh.le
  simp only [significant, ← he]
  obtain ⟨m, hm⟩ := Int.eq_ofNat_of_zero_le (le_trans (by positivity) hge)
  rw [hm] at hge hle ⊢
  have hge : 10 ^ n ≤ m := by exact_mod_cast hge
  have hle : m ≤ 10 ^ (n + 1) := by exact_mod_cast hle
  rw [Int.natAbs_natCast]
  split
  -- 999.5 becomes 1.00e3
  · next hcarry =>
    refine ⟨le_rfl, Nat.pow_lt_pow_right (by decide) (Nat.lt_succ_self n), ?_⟩
    dsimp only
    rw [hcarry]
    push_cast
    rw [show (e + 1 - n : ℤ) = 1 + (e - n) by ring, zpow_add₀ (by norm_num), pow_succ, zpow_one]
    ring
  · next hne => exact ⟨hge, lt_of_le_of_ne hle hne, by push_cast; rfl⟩

/-! ## The text of a number -/

theorem isDigit_zero : isDigit 0x30 = true := by decide

/-- Trailing zeros multiply by ten. -/
theorem value_append_zeros (ds : List Byte) (n : ℕ) :
    value (ds ++ List.replicate n 0x30) = value ds * 10 ^ n := by
  induction n with
  | zero => rw [List.replicate_zero, List.append_nil, Nat.pow_zero, Nat.mul_one]
  | succ n ih =>
    rw [List.replicate_succ', ← List.append_assoc, value, valueFrom_append]
    show valueFrom 0 (ds ++ List.replicate n 0x30) * 10 + digit 0x30 = _
    rw [show valueFrom 0 (ds ++ List.replicate n 0x30) = _ from ih, Nat.pow_succ]
    show value ds * 10 ^ n * 10 + 0 = _
    ring

theorem value_zeros_append (n : ℕ) (ds : List Byte) :
    value (List.replicate n 0x30 ++ ds) = value ds := by
  have hzeros : value (List.replicate n 0x30) = 0 := by
    have := value_append_zeros [] n
    rwa [List.nil_append, show value [] = 0 from rfl, Nat.zero_mul] at this
  rw [value, valueFrom_append, show valueFrom 0 (List.replicate n 0x30) = 0 from hzeros, value]

/-- The zeros that are cut off. -/
theorem rdropWhile_zeros (s : List Byte) :
    ∃ n, s = s.rdropWhile (· = 0x30) ++ List.replicate n 0x30 := by
  refine ⟨(s.rtakeWhile (· = 0x30)).length, ?_⟩
  have hzeros : s.rtakeWhile (· = 0x30) = List.replicate (s.rtakeWhile (· = 0x30)).length 0x30 := by
    refine List.eq_replicate_iff.mpr ⟨rfl, fun c hc => ?_⟩
    exact of_decide_eq_true (List.mem_rtakeWhile_imp (p := fun c : Byte => decide (c = 0x30)) hc)
  rw [← hzeros, List.rdropWhile_append_rtakeWhile]

/-- What `pointed` writes, with an exponent behind it, is a numeral. -/
theorem pointed_numeral {whole fraction : List Byte} {exponent : Option (Bool × List Byte)}
    (hwhole : IsRun whole) (hfraction : ∀ c ∈ fraction, isDigit c = true)
    (hexponent : ∀ e ∈ exponent, IsRun e.2) : ∃ t : Numeral,
      t.text = pointed whole fraction ++ exponentText exponent ∧ (t.mantissa : ℚ) * 10 ^ t.scale =
        value (whole ++ fraction) * 10 ^ (exponentValue exponent - fraction.length) := by
  obtain ⟨n, hn⟩ := rdropWhile_zeros fraction
  obtain ⟨kept, hkept⟩ : ∃ kept, kept = fraction.rdropWhile (· = 0x30) := ⟨_, rfl⟩
  rw [← hkept] at hn
  have hdigits : ∀ c ∈ kept, isDigit c = true := fun c hc => hfraction c (by
    rw [hn]
    exact List.mem_append_left _ hc)
  refine ⟨⟨whole, kept, exponent, hwhole, hdigits, hexponent⟩, ?_, ?_⟩
  · rw [Numeral.text, pointed, ← hkept, List.append_assoc]
  · have hvalue : value (whole ++ fraction) = value (whole ++ kept) * 10 ^ n := by
      rw [hn, ← List.append_assoc, value_append_zeros]
    have hlength : fraction.length = kept.length + n := by
      rw [hn, List.length_append, List.length_replicate]
    rw [Numeral.mantissa, Numeral.scale, hvalue, hlength]
    dsimp only
    have hexp : exponentValue exponent - kept.length =
        n + (exponentValue exponent - ((kept.length + n : ℕ) : ℤ)) := by
      push_cast
      ring
    rw [hexp, zpow_add₀ (by norm_num), zpow_natCast]
    push_cast
    ring

/-- The number of decimal digits. -/
theorem dec_length {n m : ℕ} (hlow : 10 ^ n ≤ m) (hhigh : m < 10 ^ (n + 1)) :
    (dec m).length = n + 1 := by
  rw [dec_eq, List.length_map]
  have hle := (Nat.length_toDigits_le_iff (b := 10) (by decide) (Nat.succ_pos n)).mpr hhigh
  refine le_antisymm hle ?_
  rcases n with _ | n
  · exact Nat.length_toDigits_pos
  · by_contra hlt
    have hshort : (Nat.toDigits 10 m).length ≤ n + 1 := by omega
    have := (Nat.length_toDigits_le_iff (by decide) (Nat.succ_pos n)).mp hshort
    omega

theorem isRun_zeroPad (width n : ℕ) : IsRun (zeroPad width (dec n)) := by
  have hrun := isRun_dec n
  refine ⟨fun h => hrun.ne_nil (List.append_eq_nil_iff.mp h).2, fun c hc => ?_⟩
  rcases List.mem_append.mp hc with hzero | hdigit
  · rw [(List.mem_replicate.mp hzero).2]
    exact isDigit_zero
  · exact hrun.digits c hdigit

/-- The digits of a number and the exponent of the first, as a numeral. -/
theorem placed_numeral {ds : List Byte} (hds : IsRun ds) (e : ℤ) : ∃ t : Numeral,
    t.text = placed ds e ∧
      (t.mantissa : ℚ) * 10 ^ t.scale = value ds * 10 ^ (e + 1 - ds.length) := by
  have hpos : 0 < ds.length := List.length_pos_of_ne_nil hds.ne_nil
  have hfirst : ∀ n, 0 < n → IsRun (ds.take n) := by
    intro n hn
    refine ⟨fun h => ?_, fun c hc => hds.digits c (List.mem_of_mem_take hc)⟩
    rcases List.take_eq_nil_iff.mp h with h0 | hnil
    · omega
    · exact hds.ne_nil hnil
  have hlast : ∀ n, ∀ c ∈ ds.drop n, isDigit c = true := fun n c hc =>
    hds.digits c (List.mem_of_mem_drop hc)
  have hnone : ∀ x ∈ (none : Option (Bool × List Byte)), IsRun x.2 := nofun
  rw [placed]
  split
  -- d.ddde+XX
  · have hexponent : ∀ x ∈ some (decide (e < 0), zeroPad 2 (dec e.natAbs)), IsRun x.2 :=
      fun _ h => Option.mem_some_iff.mp h ▸ isRun_zeroPad 2 _
    obtain ⟨t, htext, hvalue⟩ := pointed_numeral (hfirst 1 one_pos) (hlast 1) hexponent
    refine ⟨t, ?_, ?_⟩
    · rw [htext, exponentText]
      by_cases hneg : e < 0
      · rw [if_pos (decide_eq_true hneg), if_pos hneg]
      · rw [if_neg (by simpa using hneg), if_neg hneg]
    · have hexp : exponentValue (some (decide (e < 0), zeroPad 2 (dec e.natAbs))) = e := by
        rw [exponentValue, zeroPad, value_zeros_append, value_dec]
        by_cases hneg : e < 0
        · rw [if_pos (decide_eq_true hneg)]
          omega
        · rw [if_neg (by simpa using hneg)]
          omega
      rw [hvalue, List.take_append_drop, hexp, List.length_drop]
      congr 2
      omega
  · split
    · next hneg =>
      -- 0.000ddd
      have hzero : IsRun (str "0") := isRun_dec 0
      have hfraction : ∀ c ∈ List.replicate (e.natAbs - 1) 0x30 ++ ds, isDigit c = true :=
        fun c hc => (List.mem_append.mp hc).elim
          (fun h => (List.mem_replicate.mp h).2 ▸ isDigit_zero) (hds.digits c)
      obtain ⟨t, htext, hvalue⟩ := pointed_numeral hzero hfraction hnone
      refine ⟨t, by rw [htext, exponentText, List.append_nil], ?_⟩
      have hcons : str "0" = List.replicate 1 0x30 := rfl
      rw [hvalue, ← List.append_assoc, hcons, ← List.replicate_add, value_zeros_append,
        List.length_append, List.length_replicate, exponentValue]
      congr 2
      omega
    · next hin hneg =>
      -- ddd.ddd
      obtain ⟨t, htext, hvalue⟩ := pointed_numeral (hfirst (e.toNat + 1) (Nat.succ_pos _))
        (hlast (e.toNat + 1)) hnone
      refine ⟨t, by rw [htext, exponentText, List.append_nil], ?_⟩
      rw [hvalue, List.take_append_drop, List.length_drop, exponentValue]
      congr 2
      omega

/-! ## Reading it back -/

section Reload

open Binary

/-- The number that is written: six digits from the first one on. -/
def sixDigits (q : ℚ) : ℚ :=
  roundHalfEven (q / 10 ^ (Int.log 10 q - 5)) * 10 ^ (Int.log 10 q - 5)

theorem pos_decodeMag {x : F32} (h : x.mag ≠ 0) : 0 < decodeMag 23 x.mag := by
  refine Nat.pos_of_ne_zero fun h0 => h ?_
  rw [← encodeMag_decodeMag 23 x.mag, h0]
  rfl

/-- The text of a finite value is a sign and a numeral. -/
theorem general_numeral {x : F32} (hx : x.isFinite = true) : ∃ (t : Numeral) (m : ℕ) (k : ℤ),
    general x = (if x.negative then [0x2D] else []) ++ t.text ∧ m < 10 ^ 6 ∧
      (t.mantissa : ℚ) * 10 ^ t.scale = m * 10 ^ k ∧
      (m * 10 ^ k : ℚ) = if x.mag = 0 then 0 else sixDigits (decodeMag 23 x.mag / 2 ^ 149) := by
  have hmag : x.mag < 0x7F800000 := of_decide_eq_true hx
  have hinf : x.isInf = false := by
    rw [F32.isInf, decide_eq_false_iff_not]
    omega
  by_cases hzero : x.mag = 0
  -- a zero is written as 0
  · refine ⟨⟨str "0", [], none, isRun_dec 0, nofun, nofun⟩, 0, 0, ?_, by decide, ?_, ?_⟩
    · simp only [general, F32.isNaN_of_isFinite hx, hinf, hzero, if_true,
        Bool.false_eq_true, if_false]
      rfl
    · have hmantissa : value (str "0" ++ []) = 0 := value_dec 0
      rw [Numeral.mantissa, hmantissa]
      simp
    · rw [if_pos hzero]
      simp
  · have hpos : (0 : ℚ) < decodeMag 23 x.mag / 2 ^ 149 := by
      exact div_pos (by exact_mod_cast pos_decodeMag hzero) (by positivity)
    -- six significant digits, then the point or the exponent
    obtain ⟨hlow, hhigh, hvalue⟩ := significant_spec 5 hpos
    generalize hsig : significant 5 (decodeMag 23 x.mag / 2 ^ 149) = digits at hlow hhigh hvalue
    obtain ⟨m, e⟩ := digits
    obtain ⟨t, htext, ht⟩ := placed_numeral (isRun_dec m) e
    refine ⟨t, m, e - 5, ?_, hhigh, ?_, ?_⟩
    · simp only [general, F32.isNaN_of_isFinite hx, hinf, hzero, hsig, Bool.false_eq_true, if_false]
      rw [htext]
    · rw [ht, value_dec, dec_length hlow hhigh]
      congr 2
      push_cast
      ring
    · rw [if_neg hzero]
      exact hvalue

/-- A magnitude to which a decimal of six digits is rounded is the one to which its
    own six digits are: decimals of six digits are sparser than the floats, but for
    the subnormal ones, whose spacing is even. -/
theorem roundRat_sixDigits {v m : ℕ} {k : ℤ} {unit : ℚ} (hv : Fits 23 v) (hpos : 0 < v)
    (hunit : 0 < unit) (hm : m < 10 ^ 6) (h : roundRat 23 ((m : ℚ) * 10 ^ k * unit) = v) :
    roundRat 23 (sixDigits (v / unit) * unit) = v := by
  obtain ⟨y, hy⟩ : ∃ y : ℚ, y = v / unit := ⟨_, rfl⟩
  have hypos : 0 < y := by
    rw [hy]
    exact div_pos (by exact_mod_cast hpos) hunit
  have hvy : (v : ℚ) = y * unit := by rw [hy, div_mul_cancel₀ _ hunit.ne']
  have hlow := Int.zpow_log_le_self (b := 10) (by decide) hypos
  have hhigh := Int.lt_zpow_succ_log_self (b := 10) (by decide) y
  push_cast at hlow hhigh
  rw [← hy, sixDigits]
  generalize Int.log 10 y = e at hlow hhigh ⊢
  -- a decimal of six digits between `v` and the one given
  obtain ⟨j, hj⟩ := exists_between_decimal (n := 5) (k := k) hlow hm
  have hpower : (10 : ℚ) ^ (e + 1) = 10 ^ 6 * 10 ^ (e - 5) := by
    rw [show e + 1 = 6 + (e - 5) by ring, zpow_add₀ (by norm_num)]
    norm_num
  have hplace : (0 : ℚ) < 10 ^ (e - 5) := zpow_pos (by norm_num) _
  push_cast at hj
  rw [hpower] at hhigh
  generalize (10 : ℚ) ^ (e - 5) = place at hhigh hplace hj ⊢
  have hg : 0 < place * unit := mul_pos hplace hunit
  -- six decimal digits are coarser than 24 binary ones
  have hsparse : (v : ℚ) / 2 ^ (23 + 1) < place * unit / 2 := by
    have hbound : (v : ℚ) < 10 ^ 6 * (place * unit) := by
      rw [hvy, ← mul_assoc]
      exact mul_lt_mul_of_pos_right hhigh hunit
    have hpow : (2 : ℚ) ^ (23 + 1) = 16777216 := by norm_num
    have hmillion : (10 : ℚ) ^ 6 = 1000000 := by norm_num
    rw [hmillion] at hbound
    rw [hpow, div_lt_div_iff₀ (by norm_num) (by norm_num)]
    linarith
  have hbetween : (m : ℚ) * 10 ^ k * unit ≤ j * (place * unit) ∧ j * (place * unit) ≤ v ∨
      (v : ℚ) ≤ j * (place * unit) ∧ j * (place * unit) ≤ m * 10 ^ k * unit := by
    rw [hvy, ← mul_assoc, mul_le_mul_iff_left₀ hunit, mul_le_mul_iff_left₀ hunit,
      mul_le_mul_iff_left₀ hunit, mul_le_mul_iff_left₀ hunit]
    exact hj
  have hround := roundRat_multiple hv hg hsparse h hbetween
  have hquot : (v : ℚ) / (place * unit) = y / place := by
    rw [hvy, mul_div_mul_right _ _ hunit.ne']
  rwa [hquot, ← mul_assoc] at hround

/-- Six digits are close to the number. -/
theorem half_lt_sixDigits {y : ℚ} (hy : 0 < y) : y / 2 < sixDigits y := by
  have hlow := Int.zpow_log_le_self (b := 10) (by decide) hy
  push_cast at hlow
  rw [sixDigits]
  generalize Int.log 10 y = e at hlow ⊢
  have hpower : (10 : ℚ) ^ e = 10 ^ 5 * 10 ^ (e - 5) := by
    rw [show e = 5 + (e - 5) by ring, zpow_add₀ (by norm_num), add_sub_cancel_left]
    norm_num
  have hplace : (0 : ℚ) < 10 ^ (e - 5) := zpow_pos (by norm_num) _
  rw [hpower] at hlow
  generalize (10 : ℚ) ^ (e - 5) = place at hlow hplace ⊢
  obtain ⟨hnear, -⟩ := abs_le.mp (abs_sub_comm (y / place) _ ▸ abs_sub_roundHalfEven (y / place))
  have hscaled := mul_le_mul_of_nonneg_right hnear hplace.le
  rw [sub_mul, div_mul_cancel₀ _ hplace.ne'] at hscaled
  linarith

/-- Above half a unit, rounding is positive. -/
theorem roundRat_pos {p : ℕ} {q : ℚ} (h : 1 / 2 < q) : 0 < roundRat p q := by
  by_cases hone : 1 ≤ q
  · have hfix : roundRat p 1 = 1 := by
      have hfits : Fits p 1 := ⟨1, 0, rfl, Nat.one_lt_two_pow (by omega)⟩
      simpa using roundRat_natCast hfits
    exact lt_of_lt_of_le (by rw [hfix]; exact one_pos) (roundRat_mono p hone)
  · have hlt : q < 2 ^ (p + 1) := lt_of_lt_of_le (not_le.mp hone) (one_le_pow₀ (by norm_num))
    have hround : roundHalfEven q = 1 := by
      refine roundHalfEven_eq_iff.mpr (.inl (abs_lt.mpr ⟨?_, ?_⟩))
      · push_cast
        linarith
      · push_cast
        linarith [not_le.mp hone]
    rw [roundRat_of_lt hlt, hround]
    exact one_pos

/-- A float that is next to some decimal of six digits is next to the one that is written. -/
theorem scaled_written {x : F32} (hx : x.isFinite = true) {negative : Bool} {m m' : ℕ} {k k' : ℤ}
    (hm : m < 10 ^ 6) (h : x = scaled 10 negative m k)
    (hwritten : (m' * 10 ^ k' : ℚ) =
      if x.mag = 0 then 0 else sixDigits (decodeMag 23 x.mag / 2 ^ 149)) :
    scaled 10 x.negative m' k' = x := by
  obtain ⟨hsign, hmag, -⟩ := of_scaled hx h
  have hround : roundRat 23 ((m : ℚ) * 10 ^ k * 2 ^ 149) = decodeMag 23 x.mag := by
    rw [← scaledMag_eq, hmag]
  -- six digits are enough to come back to `x`
  have hback : roundRat 23 ((m' : ℚ) * 10 ^ k' * 2 ^ 149) = decodeMag 23 x.mag := by
    rw [hwritten]
    by_cases hzero : x.mag = 0
    · rw [if_pos hzero, zero_mul, hzero]
      exact roundRat_natCast (p := 23) (m := 0) ⟨0, 0, rfl, by decide⟩
    · rw [if_neg hzero]
      exact roundRat_sixDigits (fits_decodeMag 23 x.mag) (pos_decodeMag hzero)
        (by positivity) hm hround
  have heq : scaledMag m' k' = scaledMag m k := by
    have : (scaledMag m' k' : ℤ) = scaledMag m k := by rw [scaledMag_eq, hback, hmag]
    exact_mod_cast this
  have hsame : scaled 10 negative m' k' = scaled 10 negative m k := by
    simp only [scaled_eq, heq]
  rw [hsign, hsame, h]

/-- Next to a decimal of at most six significant digits. -/
def SixDigits (x : F32) : Prop :=
  ∃ (negative : Bool) (m : ℕ) (k : ℤ), m < 10 ^ 6 ∧ x = scaled 10 negative m k

/-- The text of a float gives the float back if and only if it is next to a decimal
    of six digits. -/
theorem strtof_general_iff {x : F32} (hx : x.isFinite = true) :
    strtof (general x) = (x, []) ↔ SixDigits x := by
  obtain ⟨t, m, k, htext, hm, hvalue, hwritten⟩ := general_numeral hx
  rw [htext, Numeral.strtof_text, scaled_congr hvalue]
  constructor
  · intro h
    obtain ⟨hread, -⟩ := Prod.mk.inj h
    exact ⟨x.negative, m, k, hm, hread.symm⟩
  · rintro ⟨negative, m', k', hm', h⟩
    rw [scaled_written hx hm' h hwritten]

/-- A numeral that does not round to zero is positive. -/
theorem scaled_pos {m : ℕ} {k : ℤ} (h : 0 < scaledMag m k) :
    0 < (scaled 10 false m k).signedMag := by
  rw [scaled_eq]
  split
  · rw [F32.inf, F32.signedMag_ofSign (by decide), if_neg (by decide)]
    exact_mod_cast decodeMag_pos (by decide)
  · next hover =>
    have hlt : encodeMag 23 (scaledMag m k) < 2 ^ 31 :=
      (encodeMag_lt (Nat.not_le.mp hover) (by decide)).trans (by decide)
    have hfits : Fits 23 (scaledMag m k) := fits_roundQuot 23 _ (Nat.pow_pos (by decide))
    rw [F32.signedMag_ofSign hlt, if_neg (by decide), hfits.decodeMag_encodeMag]
    exact_mod_cast h

/-- A positive value is read back as a positive one. -/
theorem strtof_general_pos {x : F32} (hx : x.isFinite = true) (hpos : 0 < x.signedMag) :
    0 < (strtof (general x)).1.signedMag := by
  obtain ⟨t, m, k, htext, -, hvalue, hwritten⟩ := general_numeral hx
  have hsign : x.negative = false := by
    rw [← Bool.not_eq_true]
    exact fun h => absurd (F32.signedMag_nonpos h) (not_le.mpr hpos)
  have hmag : x.mag ≠ 0 := by
    intro h0
    rw [F32.signedMag, h0, hsign] at hpos
    exact absurd hpos (by decide)
  -- the text is a numeral, and `strtof` reads the value it writes
  have hread : (strtof (general x)).1 = scaled 10 false m k := by
    rw [htext, Numeral.strtof_text, scaled_congr hvalue, hsign]
  rw [hread]
  apply scaled_pos
  rw [if_neg hmag] at hwritten
  have hone : (1 : ℚ) ≤ decodeMag 23 x.mag := by exact_mod_cast pos_decodeMag hmag
  have hround : 0 < roundRat 23 ((m : ℚ) * 10 ^ k * 2 ^ 149) := by
    rw [hwritten]
    generalize (decodeMag 23 x.mag : ℚ) = v at hone ⊢
    have hunit : (0 : ℚ) < 2 ^ 149 := by positivity
    generalize (2 : ℚ) ^ 149 = unit at hunit ⊢
    -- six digits of the least subnormal are still more than half of it
    have hhalf := half_lt_sixDigits (div_pos (zero_lt_one.trans_le hone) hunit)
    have hscaled := mul_lt_mul_of_pos_right hhalf hunit
    rw [div_right_comm, div_mul_cancel₀ _ hunit.ne'] at hscaled
    exact roundRat_pos (by linarith)
  rw [← scaledMag_eq] at hround
  exact_mod_cast hround

end Reload

end EcuTelemetry.Printf
