/-
  EcuTelemetry.Backend.RealFloat

  The engine over the real numbers, where the root is exact too.
-/

import Mathlib.Analysis.Real.Sqrt
import EcuTelemetry.Backend.ExactFloat

namespace EcuTelemetry.Backend

open Classical in
/-- `str(x)`; a float is a rational. -/
noncomputable def realStr (a : ℝ) : String :=
  if h : ∃ q : ℚ, (q : ℝ) = a then toString h.choose else ""

open Classical in
noncomputable instance : PyFloat ℝ where
  add a b := a + b
  sub a b := a - b
  mul a b := a * b
  abs a := |a|
  lt a b := decide (a < b)
  le a b := decide (a ≤ b)
  eq a b := decide (a = b)
  eqInt a n := decide (a = n)
  div a b := if b = 0 then .error .zeroDivisionError else .ok (a / b)
  sqrt a := if a < 0 then .error .valueError else .ok √a
  ofInt n := .ok n
  parse s := (PyFloat.parse s : Except PyError ℚ).map fun q => (q : ℝ)
  toInt a := .ok (if a < 0 then ⌈a⌉ else ⌊a⌋)
  ofRat q := q
  ofF64 x := F64.toRat x
  round := pyRound
  repr := realStr
  fixed := fixedText
  sqlText a := some (realStr a)

noncomputable instance : PyText ℝ := ⟨plainStr, PyFloat.repr⟩

instance : PlainText ℝ := ⟨fun _ => rfl⟩

noncomputable instance : ExactFloat ℝ where
  root a := √a
  add_eq _ _ := rfl
  sub_eq _ _ := rfl
  mul_eq _ _ := rfl
  abs_eq _ := rfl
  lt_iff _ _ := decide_eq_true_iff
  le_iff _ _ := decide_eq_true_iff
  eqInt_iff _ _ := decide_eq_true_iff
  div_eq _ _ h := if_neg h
  sqrt_eq _ h := if_neg (not_lt.mpr h)
  ofInt_eq _ := rfl
  ofRat_eq _ := rfl
  root_nonneg := Real.sqrt_nonneg
  root_zero := Real.sqrt_zero

end EcuTelemetry.Backend
