/-
  EcuTelemetry.Lib.FloatOps

  IEEE 754 arithmetic on bit patterns, round to nearest and ties to even.

  An operation computes its exact result as a quotient of natural numbers in
  units of the smallest subnormal, rounds it to the format's precision, and
  encodes it.  A NaN result is the default quiet NaN.
-/

import EcuTelemetry.Lib.Binary

namespace EcuTelemetry

namespace Binary

/-- `n / d` rounded to `p + 1` significant bits. -/
def roundQuot (p n d : Nat) : Nat :=
  let e := (n / d).log2 - p
  divNearestEven n (d * 2 ^ e) * 2 ^ e

end Binary

/-! ## binary32 -/

namespace F32

def zero : F32 := ⟨0⟩

/-- The default quiet NaN. -/
def nan : F32 := ⟨0x7FC00000⟩

def inf (neg : Bool) : F32 := ofSign neg 0x7F800000

def isInf (x : F32) : Bool := x.mag = 0x7F800000

def neg (x : F32) : F32 := ofSign (!x.negative) x.mag

/-- `x < y`, false on a NaN. -/
def lt (x y : F32) : Bool := !x.isNaN && !y.isNaN && decide (x.signedMag < y.signedMag)

/-- The value next to `n / d` units. -/
def ofQuot (sign : Bool) (n d : Nat) : F32 :=
  let m := Binary.roundQuot 23 n d
  if 2 ^ Binary.overflowExp ≤ m then inf sign else ofSign sign (Binary.encodeMag 23 m)

def add (x y : F32) : F32 :=
  if x.isNaN || y.isNaN then nan
  else if x.isInf then if y.isInf && (x.negative != y.negative) then nan else x
  else if y.isInf then y
  else
    let v := x.signedMag + y.signedMag
    -- a zero is negative only as the sum of two negative zeros
    if v = 0 then ofSign (x.negative && y.negative) 0 else ofQuot (decide (v < 0)) v.natAbs 1

def sub (x y : F32) : F32 := add x y.neg

def mul (x y : F32) : F32 :=
  let sign := x.negative != y.negative
  if x.isNaN || y.isNaN then nan
  else if x.isInf || y.isInf then if x.mag = 0 || y.mag = 0 then nan else inf sign
  else ofQuot sign (x.signedMag.natAbs * y.signedMag.natAbs) (2 ^ 149)

example : sub ⟨0x43160000⟩ (mul ⟨0x3D4CCCCD⟩ ⟨0x43160000⟩) = ⟨0x430E8000⟩ := by decide +kernel

end F32

/-! ## binary64 -/

namespace F64

def nan : F64 := ⟨0x7FF8000000000000⟩

def inf (neg : Bool) : F64 := ofSign neg 0x7FF0000000000000

def ofQuot (sign : Bool) (n d : Nat) : F64 :=
  let m := Binary.roundQuot 52 n d
  if 2 ^ 2098 ≤ m then inf sign else ofSign sign (Binary.encodeMag 52 m)

def mul (x y : F64) : F64 :=
  let sign := x.negative != y.negative
  if x.isNaN || y.isNaN then nan
  else if x.isInf || y.isInf then if x.mag = 0 || y.mag = 0 then nan else inf sign
  else ofQuot sign (x.signedMag.natAbs * y.signedMag.natAbs) (2 ^ 1074)

def div (x y : F64) : F64 :=
  let sign := x.negative != y.negative
  if x.isNaN || y.isNaN then nan
  else if x.isInf then if y.isInf then nan else inf sign
  else if y.isInf then ofSign sign 0
  else if y.mag = 0 then if x.mag = 0 then nan else inf sign
  else ofQuot sign (x.signedMag.natAbs * 2 ^ 1074) y.signedMag.natAbs

/-- `static_cast<float>`. -/
def toFloat (x : F64) : F32 := x.toF32.getD (F32.inf x.negative)

example : (div (ofNat 52500) (ofNat 1000)).toFloat = ⟨0x42520000⟩ := by decide +kernel

end F64

end EcuTelemetry
