/-
  EcuTelemetry.Lib.Rounding

  Python's `round(x, ndigits)` and `format(x, ".nf")` in exact arithmetic: the
  nearest multiple of `10 ^ -ndigits`, ties to the even one.
-/

import Mathlib.Algebra.Order.Floor.Ring
import Mathlib.Data.Rat.Floor
import Mathlib.Tactic.Linarith
import Mathlib.Tactic.Positivity
import EcuTelemetry.Lib.Numerals

namespace EcuTelemetry

variable {F : Type} [Field F] [LinearOrder F] [FloorRing F]

/-- The nearest integer, ties to the even one. -/
def roundHalfEven (q : F) : ℤ :=
  let f := ⌊q⌋
  if q - f < 1 / 2 then f
  else if 1 / 2 < q - f then f + 1
  else if f % 2 = 0 then f else f + 1

/-- `round(q, ndigits)`. -/
def pyRound (q : F) (ndigits : Nat) : F := roundHalfEven (q * 10 ^ ndigits) / 10 ^ ndigits

/-- `format(q, ".nf")`: the sign is that of `q`, also of what is rounded to zero. -/
def fixedText (q : F) (ndigits : Nat) : String :=
  let m := (roundHalfEven (|q| * 10 ^ ndigits)).natAbs
  let frac := (toString (m % 10 ^ ndigits)).toList
  let zeros := List.replicate (ndigits - frac.length) '0'
  (if q < 0 then "-" else "") ++ toString (m / 10 ^ ndigits) ++
    if ndigits = 0 then "" else "." ++ String.ofList (zeros ++ frac)

/-! ## Bounds -/

variable [IsStrictOrderedRing F]

omit [IsStrictOrderedRing F] in
/-- An integer below the argument stays below the rounded value. -/
theorem le_roundHalfEven {n : ℤ} {q : F} (h : (n : F) ≤ q) : n ≤ roundHalfEven q := by
  have hf : n ≤ ⌊q⌋ := Int.le_floor.mpr h
  unfold roundHalfEven
  dsimp only
  split_ifs <;> omega

/-- Less than half above an integer, the rounded value does not exceed it. -/
theorem roundHalfEven_le {n : ℤ} {q : F} (h : q < n + 1 / 2) : roundHalfEven q ≤ n := by
  have hlt : ⌊q⌋ < n + 1 := by
    have h1 : q < ((n + 1 : ℤ) : F) := by push_cast; linarith
    exact Int.floor_lt.mpr h1
  rcases Int.lt_or_eq_of_le (Int.lt_add_one_iff.mp hlt) with hf | hf
  · -- the floor is at most `n - 1`; rounding adds at most 1
    unfold roundHalfEven
    dsimp only
    split_ifs <;> omega
  · have hq : q - ⌊q⌋ < 1 / 2 := by
      rw [hf]
      linarith
    unfold roundHalfEven
    dsimp only
    rw [if_pos hq, hf]

theorem pyRound_nonneg {q : F} (h : 0 ≤ q) (ndigits : Nat) : 0 ≤ pyRound q ndigits := by
  have hr : (0 : ℤ) ≤ roundHalfEven (q * 10 ^ ndigits) :=
    le_roundHalfEven (by push_cast; positivity)
  have hc : (0 : F) ≤ roundHalfEven (q * 10 ^ ndigits) := by exact_mod_cast hr
  unfold pyRound
  positivity

example : pyRound (1005 / 1000 : ℚ) 2 = 1 := by decide +kernel
example : pyRound (-7 / 3 : ℚ) 1 = -23 / 10 := by decide +kernel
example : fixedText (-1001 / 1000 : ℚ) 2 = "-1.00" := by decide +kernel

end EcuTelemetry
