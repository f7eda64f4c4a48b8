/-
  EcuTelemetry.Backend.ExactFloat

  Two number systems to run the engine on: the rationals, and the rationals
  with a NaN.  Both compute exactly; Python's floats agree with them wherever
  no operation rounds.

  `ExactFloat` says what it is to compute exactly.  The root is the one operation
  that leaves the rationals: a result that needs it exact is about the reals.
-/

import EcuTelemetry.Backend.PyValue
import EcuTelemetry.Lib.Rounding
import Mathlib.Algebra.Order.Field.Basic
import Mathlib.Algebra.Order.Field.Rat
import Mathlib.Tactic.Positivity

namespace EcuTelemetry.Backend

/-- The value of a finite binary64. -/
def F64.toRat (x : F64) : ℚ :=
  let m : ℚ := Binary.decodeMag 52 x.mag / 2 ^ 1074
  if x.negative then -m else m

/-- The root of a square; otherwise the fraction below it with the same denominator. -/
def ratSqrt (q : ℚ) : ℚ := (q.num.toNat * q.den).sqrt / q.den

instance : PyFloat ℚ where
  add a b := a + b
  sub a b := a - b
  mul a b := a * b
  abs a := |a|
  lt a b := decide (a < b)
  le a b := decide (a ≤ b)
  eq a b := decide (a = b)
  eqInt a n := decide (a = n)
  div a b := if b = 0 then .error .zeroDivisionError else .ok (a / b)
  sqrt a := if a < 0 then .error .valueError else .ok (ratSqrt a)
  ofInt n := .ok n
  parse s :=
    match pyInt s.toList with
    | some n => .ok n
    | none => .error .valueError
  toInt a := .ok (if a < 0 then ⌈a⌉ else ⌊a⌋)
  ofRat q := q
  ofF64 := F64.toRat
  round := pyRound
  repr a := toString a
  fixed := fixedText
  sqlText a := some (toString a)

/-- The operations are those of an ordered field. -/
class ExactFloat (F : Type) [Field F] [LinearOrder F] [PyFloat F] where
  /-- `math.sqrt` where it does not raise -/
  root : F → F
  add_eq (a b : F) : PyFloat.add a b = a + b
  sub_eq (a b : F) : PyFloat.sub a b = a - b
  mul_eq (a b : F) : PyFloat.mul a b = a * b
  abs_eq (a : F) : PyFloat.abs a = |a|
  lt_iff (a b : F) : PyFloat.lt a b = true ↔ a < b
  le_iff (a b : F) : PyFloat.le a b = true ↔ a ≤ b
  eqInt_iff (a : F) (n : Int) : PyFloat.eqInt a n = true ↔ a = n
  div_eq (a b : F) (h : b ≠ 0) : PyFloat.div a b = .ok (a / b)
  sqrt_eq (a : F) (h : 0 ≤ a) : PyFloat.sqrt a = .ok (root a)
  ofInt_eq (n : Int) : PyFloat.ofInt n = .ok (n : F)
  ofRat_eq (q : ℚ) : (PyFloat.ofRat q : F) = q
  root_nonneg (a : F) : 0 ≤ root a
  root_zero : root 0 = 0

theorem ratSqrt_nonneg (q : ℚ) : 0 ≤ ratSqrt q := by
  rw [ratSqrt]
  positivity

theorem ratSqrt_zero : ratSqrt 0 = 0 := by
  simp [ratSqrt]

instance : ExactFloat ℚ where
  root := ratSqrt
  add_eq _ _ := rfl
  sub_eq _ _ := rfl
  mul_eq _ _ := rfl
  abs_eq _ := rfl
  lt_iff _ _ := decide_eq_true_iff
  le_iff _ _ := decide_eq_true_iff
  eqInt_iff _ _ := decide_eq_true_iff
  div_eq _ _ h := if_neg h
  sqrt_eq _ h := if_neg (not_lt.mpr h)
  ofInt_eq _ := rfl
  ofRat_eq _ := rfl
  root_nonneg := ratSqrt_nonneg
  root_zero := ratSqrt_zero

/-- `none` is NaN: operations carry it on, comparisons with it fail. -/
instance {F : Type} [PyFloat F] : PyFloat (Option F) where
  add a b := Option.map₂ PyFloat.add a b
  sub a b := Option.map₂ PyFloat.sub a b
  mul a b := Option.map₂ PyFloat.mul a b
  abs a := a.map PyFloat.abs
  lt a b := (Option.map₂ PyFloat.lt a b).getD false
  le a b := (Option.map₂ PyFloat.le a b).getD false
  eq a b := (Option.map₂ PyFloat.eq a b).getD false
  eqInt a n := (a.map fun x => PyFloat.eqInt x n).getD false
  div a b :=
    match a, b with
    | some x, some y => (PyFloat.div x y).map some
    | none, some y => if PyFloat.eqInt y 0 then .error .zeroDivisionError else .ok none
    | _, none => .ok none
  sqrt a :=
    match a with
    | some x => (PyFloat.sqrt x).map some
    | none => .ok none
  ofInt n := (PyFloat.ofInt n).map some
  parse s := if s = "nan" then .ok none else (PyFloat.parse s).map some
  toInt a :=
    match a with
    | some x => PyFloat.toInt x
    | none => .error .valueError
  ofRat q := some (PyFloat.ofRat q)
  ofF64 x := if x.isNaN then none else some (PyFloat.ofF64 x)
  round a n := a.map fun x => PyFloat.round x n
  repr a := (a.map PyFloat.repr).getD "nan"
  fixed a n := (a.map fun x => PyFloat.fixed x n).getD "nan"
  sqlText a := a.bind PyFloat.sqlText

/-- `str(v)` of what a rule document names a metric or an operator with; nested
    values are not spelled out. -/
def plainStr {F : Type} [PyFloat F] : Json F → String
  | .null => "None"
  | .bool b => if b then "True" else "False"
  | .int n => toString n
  | .float x => PyFloat.repr x
  | .str s => s
  | .lone _ => "..."
  | .arr _ => "[...]"
  | .obj _ => "\x7b...\x7d"

/-- Times are written as numbers here. -/
instance : PyText ℚ := ⟨plainStr, PyFloat.repr⟩
instance : PyText (Option ℚ) := ⟨plainStr, PyFloat.repr⟩

/-- `str(s)` of a string is the string. -/
class PlainText (F : Type) [PyText F] : Prop where
  pyStr_str (s : String) : PyText.pyStr (.str s : Json F) = s

instance : PlainText ℚ := ⟨fun _ => rfl⟩

end EcuTelemetry.Backend
