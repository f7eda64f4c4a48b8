/-
  EcuTelemetry.Lib.Strto

  C's `strtol` and `strtof` in the "C" locale.  Each reads the longest number at
  the front of a text and returns it with the text behind it; without a number
  that is the whole text.
-/

import EcuTelemetry.Lib.Digits

namespace EcuTelemetry.Strto

open Digits Printf

/-! ## Characters -/

/-- `isspace`. -/
def isSpace (c : Byte) : Bool := decide (c = 0x20 ∨ 0x09 ≤ c ∧ c ≤ 0x0D)

/-- `tolower`. -/
def lower (c : Byte) : Byte := if 0x41 ≤ c ∧ c ≤ 0x5A then c + 0x20 else c

/-- An optional sign; `true` is a minus. -/
def sign : List Byte → Bool × List Byte
  | [] => (false, [])
  | c :: s => if c = 0x2D then (true, s) else if c = 0x2B then (false, s) else (false, c :: s)

/-! ## `strtol` -/

def LONG_MAX : ℤ := 2 ^ 63 - 1
def LONG_MIN : ℤ := -2 ^ 63

/-- `strtol` in base 10; a number that is no `long` is cut off at the end of the range. -/
def strtol (s : List Byte) : ℤ × List Byte :=
  let (negative, t) := sign (s.dropWhile isSpace)
  let ds := t.takeWhile isDigit
  if ds = [] then (0, s)
  else
    let n : ℤ := if negative then -(value ds : ℤ) else value ds
    (max LONG_MIN (min n LONG_MAX), t.dropWhile isDigit)

/-! ## `strtof` -/

/-- A way to write numbers: the digits, the letter in front of the exponent, the
    base of the exponent and the exponent that one digit stands for. -/
structure Radix where
  isDigit : Byte → Bool
  digit : Byte → ℕ
  base : ℕ
  marker : Byte
  exponentBase : ℕ
  perDigit : ℕ

def decimal : Radix where
  isDigit := isDigit
  digit := digit
  base := 10
  marker := 0x65
  exponentBase := 10
  perDigit := 1

def isHexDigit (c : Byte) : Bool := isDigit c || decide (0x61 ≤ lower c ∧ lower c ≤ 0x66)

def hexDigit (c : Byte) : ℕ := if isDigit c then digit c else (lower c).toNat - 0x57

def hexadecimal : Radix where
  isDigit := isHexDigit
  digit := hexDigit
  base := 16
  marker := 0x70
  exponentBase := 2
  perDigit := 4

/-- The value of digits. -/
def Radix.value (r : Radix) (ds : List Byte) : ℕ := ds.foldl (fun n c => n * r.base + r.digit c) 0

/-- Digits with at most one point, and at least one digit: their value, how many
    stand behind the point, and the rest. -/
def Radix.mantissa (r : Radix) (s : List Byte) : Option (ℕ × ℕ × List Byte) :=
  let whole := s.takeWhile r.isDigit
  let t := s.dropWhile r.isDigit
  let (fraction, t) := match t with
    | [] => ([], [])
    | c :: u => if c = 0x2E then (u.takeWhile r.isDigit, u.dropWhile r.isDigit) else ([], c :: u)
  if whole = [] ∧ fraction = [] then none
  else some (r.value (whole ++ fraction), fraction.length, t)

/-- An exponent, if there is one with a digit. -/
def Radix.exponent (r : Radix) (s : List Byte) : ℤ × List Byte :=
  match s with
  | [] => (0, [])
  | c :: t =>
    let (negative, u) := sign t
    let ds := u.takeWhile Digits.isDigit
    if lower c = r.marker ∧ ds ≠ [] then
      (if negative then -(Digits.value ds : ℤ) else Digits.value ds, u.dropWhile Digits.isDigit)
    else (0, s)

/-- The binary32 value next to `m * base ^ k`. -/
def scaled (base : ℕ) (negative : Bool) (m : ℕ) (k : ℤ) : F32 :=
  F32.ofQuot negative (m * base ^ k.toNat * 2 ^ 149) (base ^ (-k).toNat)

/-- A number without its sign. -/
def Radix.number (r : Radix) (negative : Bool) (s : List Byte) : Option (F32 × List Byte) :=
  (r.mantissa s).map fun (m, digits, t) =>
    let (e, rest) := r.exponent t
    (scaled r.exponentBase negative m (e - r.perDigit * digits), rest)

/-- `0x` and a hexadecimal number. -/
def prefixed (negative : Bool) : List Byte → Option (F32 × List Byte)
  | z :: x :: s => if z = 0x30 ∧ lower x = 0x78 then hexadecimal.number negative s else none
  | _ => none

/-- What is behind a word, in either case. -/
def word (w s : List Byte) : Option (List Byte) :=
  if (s.take w.length).map lower = w then some (s.drop w.length) else none

/-- The parentheses that may follow `nan`. -/
def skipPayload (s : List Byte) : List Byte :=
  match s with
  | [] => []
  | c :: t =>
    match t.dropWhile fun c =>
      isDigit c || decide (0x61 ≤ lower c ∧ lower c ≤ 0x7A) || c = 0x5F with
    | [] => s
    | d :: u => if c = 0x28 ∧ d = 0x29 then u else s

/-- `strtof`; a NaN is the default one, whatever stands in the parentheses. -/
def strtof (s : List Byte) : F32 × List Byte :=
  let (negative, t) := sign (s.dropWhile isSpace)
  let infinity := (word (str "infinity") t <|> word (str "inf") t).map fun r =>
    (F32.inf negative, r)
  let nan := (word (str "nan") t).map fun r =>
    (if negative then F32.nan.neg else F32.nan, skipPayload r)
  (infinity <|> nan <|> prefixed negative t <|> decimal.number negative t).getD (F32.zero, s)

example : strtof (str " -1.5e2x") = (⟨0xC3160000⟩, str "x") := by decide +kernel
example : strtof (str "0x.8p-1") = (⟨0x3E800000⟩, []) := by decide +kernel
example : strtof (str "Infinity") = (F32.inf false, []) := by decide +kernel
example : strtof (str "1e") = (⟨0x3F800000⟩, str "e") := by decide +kernel

/-! ## Reading integers -/

theorem lower_of_isDigit {c : Byte} (h : isDigit c = true) : lower c = c := by
  have := isDigit_iff.mp h
  rw [lower, if_neg]
  rintro ⟨hge, -⟩
  have hge : 0x41 ≤ c.toNat := UInt8.le_iff_toNat_le.mp hge
  omega

theorem not_isSpace_of_isDigit {c : Byte} (h : isDigit c = true) : isSpace c = false := by
  have := isDigit_iff.mp h
  rw [isSpace, decide_eq_false_iff_not]
  rintro (rfl | ⟨-, hle⟩)
  · exact absurd h (by decide)
  · have hle : c.toNat ≤ 0x0D := UInt8.le_iff_toNat_le.mp hle
    omega

/-- Digits have no sign and no white space in front. -/
theorem sign_run {c : Byte} {s : List Byte} (h : isDigit c = true) :
    sign ((c :: s).dropWhile isSpace) = (false, c :: s) := by
  have hne : ∀ d, isDigit d = false → c ≠ d := fun d hd heq => by rw [heq, hd] at h; cases h
  rw [List.dropWhile_cons_of_neg (by rw [not_isSpace_of_isDigit h]; exact Bool.false_ne_true), sign,
    if_neg (hne 0x2D (by decide)), if_neg (hne 0x2B (by decide))]

theorem sign_minus (s : List Byte) : sign ((0x2D :: s).dropWhile isSpace) = (true, s) := by
  rw [List.dropWhile_cons_of_neg (by decide), sign, if_pos rfl]

/-- `strtol` on a run of digits within range. -/
theorem strtol_run {ds : List Byte} (h : IsRun ds) (hmax : (value ds : ℤ) ≤ LONG_MAX) :
    strtol ds = ((value ds : ℤ), []) := by
  obtain ⟨c, s, rfl⟩ := List.exists_cons_of_ne_nil h.ne_nil
  have hc : isDigit c = true := h.digits c List.mem_cons_self
  have hend : ∀ c ∈ ([] : List Byte).head?, isDigit c = false := nofun
  obtain ⟨htake, hdrop⟩ := takeWhile_run h.digits hend
  rw [List.append_nil] at htake hdrop
  have hmin : LONG_MIN ≤ (value (c :: s) : ℤ) := by
    rw [LONG_MIN]
    omega
  simp only [strtol, sign_run hc, htake, hdrop, if_neg h.ne_nil, Bool.false_eq_true, if_false]
  rw [min_eq_left hmax, max_eq_right hmin]

/-! ## Reading decimals -/

/-- An exponent with its sign (`true` is a minus), if there is one: its text. -/
def exponentText : Option (Bool × List Byte) → List Byte
  | none => []
  | some (negative, ds) => 0x65 :: (if negative then 0x2D else 0x2B) :: ds

/-- And its value. -/
def exponentValue : Option (Bool × List Byte) → ℤ
  | none => 0
  | some (negative, ds) => if negative then -(value ds : ℤ) else value ds

theorem exponentText_head (e : Option (Bool × List Byte)) :
    ∀ c ∈ (exponentText e).head?, c = 0x65 := by
  rcases e with _ | ⟨negative, ds⟩
  · exact nofun
  · exact fun c hc => (Option.mem_some_iff.mp hc).symm

/-- A decimal as text: digits, digits behind a point, and an exponent. -/
structure Numeral where
  whole : List Byte
  fraction : List Byte
  exponent : Option (Bool × List Byte)
  whole_run : IsRun whole
  fraction_digits : ∀ c ∈ fraction, isDigit c = true
  exponent_run : ∀ e ∈ exponent, IsRun e.2

namespace Numeral

def text (t : Numeral) : List Byte :=
  t.whole ++ ((if t.fraction = [] then [] else 0x2E :: t.fraction) ++ exponentText t.exponent)

/-- The number is `mantissa * 10 ^ scale`. -/
def mantissa (t : Numeral) : ℕ := value (t.whole ++ t.fraction)

def scale (t : Numeral) : ℤ := exponentValue t.exponent - t.fraction.length

variable (t : Numeral)

/-- The exponent of a numeral is read as written. -/
theorem exponent_read :
    decimal.exponent (exponentText t.exponent) = (exponentValue t.exponent, []) := by
  have hrun := t.exponent_run
  generalize t.exponent = e at hrun ⊢
  rcases e with _ | ⟨negative, ds⟩
  · rfl
  · have hds : IsRun ds := hrun (negative, ds) rfl
    have hend : ∀ c ∈ ([] : List Byte).head?, isDigit c = false := nofun
    obtain ⟨htake, hdrop⟩ := takeWhile_run hds.digits hend
    rw [List.append_nil] at htake hdrop
    have hsign : sign ((if negative then 0x2D else 0x2B) :: ds) = (negative, ds) := by
      cases negative <;> rfl
    have hmarker : lower 0x65 = decimal.marker := rfl
    rw [exponentText, exponentValue, Radix.exponent, hsign]
    dsimp only
    rw [htake, hdrop, if_pos ⟨hmarker, hds.ne_nil⟩]

/-- The mantissa ends where the exponent begins. -/
theorem mantissa_read :
    decimal.mantissa t.text = some (t.mantissa, t.fraction.length, exponentText t.exponent) := by
  have hhead : ∀ c ∈ (exponentText t.exponent).head?, isDigit c = false := fun c hc => by
    rw [exponentText_head t.exponent c hc]
    rfl
  -- no point is written without a fraction
  by_cases hfraction : t.fraction = []
  · obtain ⟨htake, hdrop⟩ := takeWhile_run t.whole_run.digits hhead
    have htext : t.text = t.whole ++ exponentText t.exponent := by
      rw [text, if_pos hfraction, List.nil_append]
    have hpoint : (match exponentText t.exponent with
        | [] => ([], [])
        | c :: u => if c = 0x2E then (u.takeWhile isDigit, u.dropWhile isDigit) else ([], c :: u)) =
        (([] : List Byte), exponentText t.exponent) := by
      have hmarker := exponentText_head t.exponent
      generalize exponentText t.exponent = u at hmarker ⊢
      rcases u with _ | ⟨c, u⟩
      · rfl
      · have hc : c = 0x65 := hmarker c rfl
        dsimp only
        rw [if_neg (by rw [hc]; decide)]
    simp only [Radix.mantissa, decimal, htext, htake, hdrop, hpoint]
    rw [if_neg (fun h => t.whole_run.ne_nil h.1), mantissa, hfraction]
    rfl
  · have hpoint : ∀ c ∈ (0x2E :: (t.fraction ++ exponentText t.exponent)).head?,
        isDigit c = false := by
      intro c hc
      rw [← Option.mem_some_iff.mp hc]
      rfl
    obtain ⟨htake, hdrop⟩ := takeWhile_run t.whole_run.digits hpoint
    obtain ⟨htake', hdrop'⟩ := takeWhile_run t.fraction_digits hhead
    have htext : t.text = t.whole ++ 0x2E :: (t.fraction ++ exponentText t.exponent) := by
      rw [text, if_neg hfraction, List.cons_append]
    simp only [Radix.mantissa, decimal, htext, htake, hdrop, if_true, htake', hdrop']
    rw [if_neg (fun h => t.whole_run.ne_nil h.1)]
    rfl

theorem number_read (negative : Bool) :
    decimal.number negative t.text = some (scaled 10 negative t.mantissa t.scale, []) := by
  rw [Radix.number, mantissa_read, Option.map_some]
  dsimp only
  rw [exponent_read]
  simp only [decimal, scale, Nat.cast_one, one_mul]

/-- The text starts with a digit, and no `x` follows. -/
theorem text_start : ∃ c s, t.text = c :: s ∧ isDigit c = true ∧
    ∀ d ∈ s.head?, isDigit d = true ∨ d = 0x2E ∨ d = 0x65 := by
  have hdigits := t.whole_run.digits
  obtain ⟨c, ds, hwhole⟩ := List.exists_cons_of_ne_nil t.whole_run.ne_nil
  rw [hwhole] at hdigits
  refine ⟨c, _, by rw [text, hwhole, List.cons_append], hdigits c List.mem_cons_self,
    fun d hd => ?_⟩
  rcases ds with _ | ⟨d', ds⟩
  · rw [List.nil_append] at hd
    split at hd
    · exact .inr (.inr (exponentText_head t.exponent d hd))
    · exact .inr (.inl (Option.mem_some_iff.mp hd).symm)
  · obtain rfl := Option.mem_some_iff.mp hd
    exact .inl (hdigits _ (List.mem_cons_of_mem _ List.mem_cons_self))

/-- A word of letters does not start with a digit. -/
theorem word_digit {w s : List Byte} {c d : Byte} (hc : isDigit c = true)
    (hd : isDigit d = false) : word (d :: w) (c :: s) = none := by
  rw [word, if_neg]
  intro h
  have heq : lower c = d := (List.cons.inj h).1
  rw [lower_of_isDigit hc] at heq
  rw [← heq, hc] at hd
  cases hd

/-- A decimal is read to its end. -/
theorem strtof_text (negative : Bool) :
    strtof ((if negative then [0x2D] else []) ++ t.text) =
      (scaled 10 negative t.mantissa t.scale, []) := by
  obtain ⟨c, s, htext, hc, hsecond⟩ := t.text_start
  have hsign : sign (((if negative then [0x2D] else []) ++ t.text).dropWhile isSpace) =
      (negative, t.text) := by
    cases negative with
    | false =>
      rw [htext]
      exact sign_run hc
    | true => exact sign_minus t.text
  -- it starts with a digit: none of the words, and no hexadecimal prefix
  have hinfinity : word (str "infinity") t.text = none := by
    rw [htext]
    exact word_digit hc rfl
  have hinf : word (str "inf") t.text = none := by
    rw [htext]
    exact word_digit hc rfl
  have hnan : word (str "nan") t.text = none := by
    rw [htext]
    exact word_digit hc rfl
  have hprefixed : prefixed negative t.text = none := by
    rw [htext]
    rcases s with _ | ⟨d, s⟩
    · rfl
    · rw [prefixed, if_neg]
      rintro ⟨-, hx⟩
      rcases hsecond d rfl with hd | rfl | rfl
      · rw [lower_of_isDigit hd] at hx
        rw [hx] at hd
        exact absurd hd (by decide)
      · exact absurd hx (by decide)
      · exact absurd hx (by decide)
  simp only [strtof, hsign, hinfinity, hinf, hnan, hprefixed, number_read]
  rfl

end Numeral

end EcuTelemetry.Strto
