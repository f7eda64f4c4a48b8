/-
  EcuTelemetry.Lib.Decimal

  Python's `str.strip`, `str.split`, `str.upper`, `str.lower` and `int(str)`.  `int` takes
  any Unicode decimal digit, single underscores between digits, a sign and
  surrounding white space.
-/

import Mathlib.Data.List.DropRight

namespace EcuTelemetry

/-- The code points of the digit zero of each block of Unicode decimal digits. -/
def unicodeZeros : List Nat :=
  [0x30, 0x660, 0x6F0, 0x7C0, 0x966, 0x9E6, 0xA66, 0xAE6, 0xB66, 0xBE6, 0xC66, 0xCE6, 0xD66,
   0xDE6, 0xE50, 0xED0, 0xF20, 0x1040, 0x1090, 0x17E0, 0x1810, 0x1946, 0x19D0, 0x1A80, 0x1A90,
   0x1B50, 0x1BB0, 0x1C40, 0x1C50, 0xA620, 0xA8D0, 0xA900, 0xA9D0, 0xA9F0, 0xAA50, 0xABF0,
   0xFF10, 0x104A0, 0x10D30, 0x11066, 0x110F0, 0x11136, 0x111D0, 0x112F0, 0x11450, 0x114D0,
   0x11650, 0x116C0, 0x11730, 0x118E0, 0x11950, 0x11C50, 0x11D50, 0x11DA0, 0x11F50, 0x16A60,
   0x16AC0, 0x16B50, 0x1D7CE, 0x1D7D8, 0x1D7E2, 0x1D7EC, 0x1D7F6, 0x1E140, 0x1E2F0, 0x1E4F0,
   0x1E950, 0x1FBF0]

/-- The value of a decimal digit. -/
def digitValue (c : Char) : Option Nat :=
  (unicodeZeros.find? fun z => z ≤ c.toNat ∧ c.toNat < z + 10).map (c.toNat - ·)

/-- `str.isspace` on one character. -/
def isSpace (c : Char) : Bool :=
  let n := c.toNat
  (9 ≤ n && n ≤ 13) || (0x1C ≤ n && n ≤ 0x20) || n = 0x85 || n = 0xA0 || n = 0x1680 ||
    (0x2000 ≤ n && n ≤ 0x200A) || n = 0x2028 || n = 0x2029 || n = 0x202F || n = 0x205F ||
    n = 0x3000

/-- Both ends without what satisfies `p`. -/
def stripBy (p : Char → Bool) (cs : List Char) : List Char := (cs.dropWhile p).rdropWhile p

/-- `s.strip()`. -/
def strip (cs : List Char) : List Char := stripBy isSpace cs

/-- The white space that `int` and `float` allow around a number: not the separators
    U+001C to U+001F. -/
def isNumberSpace (c : Char) : Bool := isSpace c && !(0x1C ≤ c.toNat && c.toNat ≤ 0x1F)

/-- `s.split(sep)` for a one-character separator. -/
def splitOn (sep : Char) (cs : List Char) : List (List Char) := cs.splitOn sep

/-- `s.upper()` on one character, exact wherever the result is ASCII. -/
def upperChar (c : Char) : List Char :=
  match c with
  | 'ß' => ['S', 'S']
  | 'ı' => ['I']
  | 'ſ' => ['S']
  | 'ﬀ' => ['F', 'F']
  | 'ﬁ' => ['F', 'I']
  | 'ﬂ' => ['F', 'L']
  | 'ﬃ' => ['F', 'F', 'I']
  | 'ﬄ' => ['F', 'F', 'L']
  | 'ﬅ' => ['S', 'T']
  | 'ﬆ' => ['S', 'T']
  | c => [c.toUpper]

/-- `s.upper()`. -/
def upper (cs : List Char) : List Char := cs.flatMap upperChar

/-- `s.lower()` on one character, exact wherever the result is ASCII. -/
def lowerChar (c : Char) : List Char :=
  match c with
  | '\u0130' => ['i', '\u0307']
  | '\u212A' => ['k']
  | c => [c.toLower]

/-- `s.lower()`. -/
def lower (cs : List Char) : List Char := cs.flatMap lowerChar

/-- Digits with single underscores in between; `afterDigit` tells whether the
    previous character was a digit. -/
def digitsValue : (afterDigit : Bool) → (acc : Nat) → List Char → Option Nat
  | afterDigit, acc, [] => if afterDigit then some acc else none
  | afterDigit, acc, '_' :: cs => if afterDigit then digitsValue false acc cs else none
  | _, acc, c :: cs =>
    match digitValue c with
    | some d => digitsValue true (acc * 10 + d) cs
    | none => none

/-- `int(s)`; `none` is `ValueError`.  More than 4300 digits are refused. -/
def pyInt (cs : List Char) : Option Int :=
  let s := stripBy isNumberSpace cs
  let (neg, body) := match s with
    | '-' :: t => (true, t)
    | '+' :: t => (false, t)
    | t => (false, t)
  if (body.filter (· ≠ '_')).length > 4300 then none
  else (digitsValue false 0 body).map fun n => if neg then -(n : Int) else n

example : pyInt [' ', '+', '1', '_', '0'] = some 10 := by decide +kernel
example : pyInt ['1', '_', '_', '0'] = none := by decide +kernel
example : pyInt ['\u001C', '1'] = none := by decide +kernel

end EcuTelemetry
