/-
  EcuTelemetry.Lib.Printf

  The conversions of C's `printf` on bytes: `%u`, `%X` and `%.nf`.
-/

import EcuTelemetry.Lib.FloatOps
import EcuTelemetry.Lib.Rounding
import EcuTelemetry.Lib.Text

namespace EcuTelemetry.Printf

/-- A string literal. -/
def str (s : String) : List Byte := asciiEncode s

/-- `%u`. -/
def dec (n : Nat) : List Byte := str (toString n)

/-- `%d`. -/
def int (n : Int) : List Byte := str (toString n)

/-- Zeros in front, up to a width. -/
def zeroPad (width : Nat) (s : List Byte) : List Byte :=
  List.replicate (width - s.length) 0x30 ++ s

/-- `%0<width>X`. -/
def hex (width n : Nat) : List Byte :=
  zeroPad width ((Nat.toDigits 16 n).map fun c => UInt8.ofNat c.toUpper.toNat)

/-- The digits of `n / 10 ^ digits`. -/
def point (digits n : Nat) : List Byte :=
  if digits = 0 then dec n
  else dec (n / 10 ^ digits) ++ str "." ++ zeroPad digits (dec (n % 10 ^ digits))

/-- `%.<digits>f` of a finite value. -/
def fixed (digits : Nat) (negative : Bool) (q : ℚ) : List Byte :=
  (if negative then str "-" else []) ++ point digits (roundHalfEven (|q| * 10 ^ digits)).natAbs

/-- `%.<digits>f` of a rational. -/
def double (digits : Nat) (q : ℚ) : List Byte := fixed digits (decide (q < 0)) q

/-- `%.<digits>f` of a float. -/
def float (digits : Nat) (x : F32) : List Byte :=
  if x.isNaN then str (if x.negative then "-nan" else "nan")
  else if x.isInf then str (if x.negative then "-inf" else "inf")
  else fixed digits x.negative ((x.signedMag : ℚ) / 2 ^ 149)

example : double 1 (1805 / 100) = str "18.0" := by decide +kernel
example : double 1 (-1 / 100) = str "-0.0" := by decide +kernel
example : float 2 ⟨0x40200000⟩ = str "2.50" := by decide +kernel
example : hex 8 0xBEEF = str "0000BEEF" := by decide +kernel

end EcuTelemetry.Printf
