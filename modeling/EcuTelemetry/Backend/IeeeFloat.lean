/-
  EcuTelemetry.Backend.IeeeFloat

  Infinities and NaN.  `IeeeFloat` is what the rules need of IEEE arithmetic in
  order not to raise: it says which calls return, and which signs come out.
  Rounding does not change a sign, so binary64 has these properties too.

  `Ieee K` adds the infinities and a NaN to exact numbers `K`.
-/

import EcuTelemetry.Backend.ExactFloat
import Mathlib.Tactic.Linarith

namespace EcuTelemetry.Backend

/-- Calls that return, and signs. -/
class IeeeFloat (F : Type) [PyFloat F] : Prop where
  /-- 64 bit integers are far from an overflow -/
  ofInt_ok (n : Int) : n.natAbs < 2 ^ 64 → ∃ x : F, PyFloat.ofInt n = .ok x
  div_ok (x d : F) : PyFloat.lt (PyFloat.ofRat 0) d = true → ∃ q, PyFloat.div x d = .ok q
  sqrt_ok (v : F) : PyFloat.lt v (PyFloat.ofRat 0) = false → ∃ r, PyFloat.sqrt v = .ok r
  /-- literals keep their order, and no zero comes from rounding a large one -/
  lit_mono (p q : ℚ) : q ≤ p → PyFloat.lt (PyFloat.ofRat p : F) (PyFloat.ofRat q) = false
  lit_pos (q : ℚ) : 1 ≤ q → PyFloat.le (PyFloat.ofRat q : F) (PyFloat.ofRat 0) = false
  /-- what is at least a positive number is positive -/
  pos_of_le (w d : F) : PyFloat.le w d = true → PyFloat.le w (PyFloat.ofRat 0) = false →
    PyFloat.lt (PyFloat.ofRat 0) d = true
  /-- a variance with a share of a square -/
  spread_nonneg (alpha v d : F) : PyFloat.lt alpha (PyFloat.ofRat 0) = false →
    PyFloat.lt (PyFloat.ofRat 1) alpha = false → PyFloat.lt v (PyFloat.ofRat 0) = false →
    PyFloat.lt (PyFloat.mul (PyFloat.sub (PyFloat.ofRat 1) alpha)
      (PyFloat.add v (PyFloat.mul (PyFloat.mul alpha d) d))) (PyFloat.ofRat 0) = false

/-! ## Exact numbers -/

section Exact

variable {F : Type} [Field F] [LinearOrder F] [IsStrictOrderedRing F] [PyFloat F] [ExactFloat F]

omit [IsStrictOrderedRing F] in
theorem lt_eq_false_iff (a b : F) : PyFloat.lt a b = false ↔ b ≤ a := by
  rw [← Bool.not_eq_true, ExactFloat.lt_iff, not_lt]

omit [IsStrictOrderedRing F] in
theorem le_eq_false_iff (a b : F) : PyFloat.le a b = false ↔ b < a := by
  rw [← Bool.not_eq_true, ExactFloat.le_iff, not_le]

omit [IsStrictOrderedRing F] in
theorem ofRat_zero : (PyFloat.ofRat 0 : F) = 0 := (ExactFloat.ofRat_eq 0).trans Rat.cast_zero

omit [IsStrictOrderedRing F] in
theorem ofRat_one : (PyFloat.ofRat 1 : F) = 1 := (ExactFloat.ofRat_eq 1).trans Rat.cast_one

instance : IeeeFloat F where
  ofInt_ok n _ := ⟨n, ExactFloat.ofInt_eq n⟩
  div_ok x d h := by
    rw [ofRat_zero, ExactFloat.lt_iff] at h
    exact ⟨_, ExactFloat.div_eq x d h.ne'⟩
  sqrt_ok v h := by
    rw [ofRat_zero, lt_eq_false_iff] at h
    exact ⟨_, ExactFloat.sqrt_eq v h⟩
  lit_mono p q h := by
    rw [lt_eq_false_iff, ExactFloat.ofRat_eq, ExactFloat.ofRat_eq]
    exact Rat.cast_le.mpr h
  lit_pos q h := by
    rw [le_eq_false_iff, ofRat_zero, ExactFloat.ofRat_eq]
    exact Rat.cast_pos.mpr (by linarith)
  pos_of_le w d h h0 := by
    rw [ofRat_zero] at h0 ⊢
    rw [ExactFloat.le_iff] at h
    rw [le_eq_false_iff] at h0
    rw [ExactFloat.lt_iff]
    exact lt_of_lt_of_le h0 h
  spread_nonneg alpha v d h0 h1 hv := by
    rw [ofRat_zero, lt_eq_false_iff] at h0 hv ⊢
    rw [ofRat_one, lt_eq_false_iff] at h1
    rw [ofRat_one, ExactFloat.mul_eq, ExactFloat.sub_eq, ExactFloat.add_eq, ExactFloat.mul_eq,
      ExactFloat.mul_eq, mul_assoc alpha]
    exact mul_nonneg (by linarith) (add_nonneg hv (mul_nonneg h0 (mul_self_nonneg d)))

end Exact

/-! ## Infinities and NaN -/

/-- A number, an infinity with its sign, or NaN. -/
inductive Ieee (K : Type)
  | fin (x : K)
  | inf (neg : Bool)
  | nan
deriving DecidableEq

namespace Ieee

variable {K : Type} [PyFloat K]

def negative (x : K) : Bool := PyFloat.lt x (PyFloat.ofRat 0)

def add : Ieee K → Ieee K → Ieee K
  | fin x, fin y => fin (PyFloat.add x y)
  | fin _, inf m => inf m
  | inf n, fin _ => inf n
  | inf n, inf m => if n = m then inf n else nan
  | _, _ => nan

def sub : Ieee K → Ieee K → Ieee K
  | fin x, fin y => fin (PyFloat.sub x y)
  | fin _, inf m => inf !m
  | inf n, fin _ => inf n
  | inf n, inf m => if n = m then nan else inf n
  | _, _ => nan

/-- An infinity times a number. -/
def infMul (n : Bool) (x : K) : Ieee K :=
  if PyFloat.eqInt x 0 then nan else inf (n != negative x)

def mul : Ieee K → Ieee K → Ieee K
  | fin x, fin y => fin (PyFloat.mul x y)
  | fin x, inf m => infMul m x
  | inf n, fin y => infMul n y
  | inf n, inf m => inf (n != m)
  | _, _ => nan

def lt : Ieee K → Ieee K → Bool
  | fin x, fin y => PyFloat.lt x y
  | fin _, inf m => !m
  | inf n, fin _ => n
  | inf n, inf m => n && !m
  | _, _ => false

def le : Ieee K → Ieee K → Bool
  | fin x, fin y => PyFloat.le x y
  | fin _, inf m => !m
  | inf n, fin _ => n
  | inf n, inf m => n || !m
  | _, _ => false

def eq : Ieee K → Ieee K → Bool
  | fin x, fin y => PyFloat.eq x y
  | inf n, inf m => n == m
  | _, _ => false

def eqInt : Ieee K → Int → Bool
  | fin x, n => PyFloat.eqInt x n
  | _, _ => false

/-- A zero divisor raises whatever is divided. -/
def div (x y : Ieee K) : Except PyError (Ieee K) :=
  if y.eqInt 0 then .error .zeroDivisionError
  else
    match x, y with
    | fin x, fin y => (PyFloat.div x y).map fin
    | fin _, inf _ => .ok (fin (PyFloat.ofRat 0))
    | inf n, fin y => .ok (inf (n != negative y))
    | _, _ => .ok nan

def sqrt : Ieee K → Except PyError (Ieee K)
  | fin x => (PyFloat.sqrt x).map fin
  | inf n => if n then .error .valueError else .ok (inf false)
  | nan => .ok nan

def toInt : Ieee K → Except PyError Int
  | fin x => PyFloat.toInt x
  | inf _ => .error .overflowError
  | nan => .error .valueError

/-- `float(s)` of the special values. -/
def special (s : String) : Option (Ieee K) :=
  match String.ofList (lower (stripBy isNumberSpace s.toList)) with
  | "inf" | "+inf" | "infinity" | "+infinity" => some (inf false)
  | "-inf" | "-infinity" => some (inf true)
  | "nan" | "+nan" | "-nan" => some nan
  | _ => none

def repr : Ieee K → String
  | fin x => PyFloat.repr x
  | inf n => if n then "-inf" else "inf"
  | nan => "nan"

instance : PyFloat (Ieee K) where
  add := add
  sub := sub
  mul := mul
  abs
    | fin x => fin (PyFloat.abs x)
    | inf _ => inf false
    | nan => nan
  lt := lt
  le := le
  eq := eq
  eqInt := eqInt
  div := div
  sqrt := sqrt
  ofInt n := (PyFloat.ofInt n).map fin
  parse s :=
    match special s with
    | some x => .ok x
    | none => (PyFloat.parse s).map fin
  toInt := toInt
  ofRat q := fin (PyFloat.ofRat q)
  ofF64 x := if x.isNaN then nan else if x.isInf then inf x.negative else fin (PyFloat.ofF64 x)
  round
    | fin x, n => fin (PyFloat.round x n)
    | x, _ => x
  repr := repr
  fixed
    | fin x, n => PyFloat.fixed x n
    | inf neg, _ => if neg then "-inf" else "inf"
    | nan, _ => "nan"
  sqlText
    | fin x => PyFloat.sqlText x
    | inf n => some (if n then "-Inf" else "Inf")
    | nan => none

end Ieee

namespace Ieee

variable {K : Type} [Field K] [LinearOrder K] [IsStrictOrderedRing K] [PyFloat K] [ExactFloat K]

omit [IsStrictOrderedRing K] in
theorem not_negative {x : K} (h : 0 ≤ x) : negative x = false := by
  rw [negative, ofRat_zero, lt_eq_false_iff]
  exact h

omit [IsStrictOrderedRing K] in
/-- A number that is not negative gives an infinity its sign, or NaN. -/
theorem infMul_cases {x : K} (h : 0 ≤ x) (n : Bool) : infMul n x = nan ∨ infMul n x = inf n := by
  rw [infMul, not_negative h, Bool.bne_false]
  split
  · exact .inl rfl
  · exact .inr rfl

omit [IsStrictOrderedRing K] in
/-- Not negative: a number from zero on, the positive infinity, or NaN. -/
theorem lt_zero_eq_false_iff (v : Ieee K) : PyFloat.lt v (PyFloat.ofRat 0) = false ↔
    (∃ x, v = fin x ∧ 0 ≤ x) ∨ v = inf false ∨ v = nan := by
  cases v with
  | fin x =>
    show PyFloat.lt x (PyFloat.ofRat 0) = false ↔ _
    rw [ofRat_zero, lt_eq_false_iff]
    refine ⟨fun h => .inl ⟨x, rfl, h⟩, fun h => ?_⟩
    rcases h with ⟨_, ⟨⟩, h⟩ | h | h
    · exact h
    · cases h
    · cases h
  | inf n => cases n <;> simp [PyFloat.lt, PyFloat.ofRat, lt]
  | nan => exact ⟨fun _ => .inr (.inr rfl), fun _ => rfl⟩

omit [IsStrictOrderedRing K] in
/-- Positive: such a number, or the positive infinity. -/
theorem zero_lt_iff (d : Ieee K) : PyFloat.lt (PyFloat.ofRat 0) d = true ↔
    (∃ x, d = fin x ∧ 0 < x) ∨ d = inf false := by
  cases d with
  | fin x =>
    show PyFloat.lt (PyFloat.ofRat 0) x = true ↔ _
    rw [ofRat_zero, ExactFloat.lt_iff]
    refine ⟨fun h => .inl ⟨x, rfl, h⟩, fun h => ?_⟩
    rcases h with ⟨_, ⟨⟩, h⟩ | h
    · exact h
    · cases h
  | inf n => cases n <;> simp [PyFloat.lt, PyFloat.ofRat, lt]
  | nan =>
    refine ⟨nofun, fun h => ?_⟩
    rcases h with ⟨_, h, -⟩ | h <;> cases h

omit [IsStrictOrderedRing K] in
theorem eqInt_zero_of_pos {x : K} (h : 0 < x) : PyFloat.eqInt x 0 = false := by
  rw [← Bool.not_eq_true, ExactFloat.eqInt_iff, Int.cast_zero]
  exact h.ne'

instance : IeeeFloat (Ieee K) where
  ofInt_ok n _ := by
    refine ⟨fin n, ?_⟩
    show (PyFloat.ofInt n).map fin = _
    rw [ExactFloat.ofInt_eq n]
    rfl
  div_ok x d h := by
    show ∃ q, div x d = .ok q
    rcases (zero_lt_iff d).mp h with ⟨y, rfl, hy⟩ | rfl
    · have hzero : (fin y).eqInt 0 = false := eqInt_zero_of_pos hy
      cases x with
      | fin x => exact ⟨fin (x / y), by simp [div, hzero, ExactFloat.div_eq x y hy.ne', Except.map]⟩
      | inf n => exact ⟨inf (n != negative y), by simp [div, hzero]⟩
      | nan => exact ⟨nan, by simp [div, hzero]⟩
    · cases x <;> exact ⟨_, rfl⟩
  sqrt_ok v h := by
    rcases (lt_zero_eq_false_iff v).mp h with ⟨x, rfl, hx⟩ | rfl | rfl
    · refine ⟨fin (ExactFloat.root x), ?_⟩
      show (PyFloat.sqrt x).map fin = _
      rw [ExactFloat.sqrt_eq x hx]
      rfl
    · exact ⟨_, rfl⟩
    · exact ⟨_, rfl⟩
  lit_mono p q h := (IeeeFloat.lit_mono p q h : PyFloat.lt (PyFloat.ofRat p : K) _ = false)
  lit_pos q h := (IeeeFloat.lit_pos q h : PyFloat.le (PyFloat.ofRat q : K) _ = false)
  pos_of_le w d h h0 := by
    cases w with
    | fin x =>
      cases d with
      | fin y => exact IeeeFloat.pos_of_le x y h h0
      | inf m => exact h
      | nan => cases h
    | inf n =>
      cases n with
      | true => cases h0
      | false =>
        cases d with
        | inf m => exact h
        | _ => cases h
    | nan => cases h
  spread_nonneg alpha v d h0 h1 hv := by
    -- a share that is no number makes it all NaN
    cases alpha with
    | inf n =>
      cases n with
      | false => cases h1
      | true => cases h0
    | nan => rfl
    | fin a =>
      have ha : 0 ≤ a ∧ a ≤ 1 := by
        have h0 : PyFloat.lt a (PyFloat.ofRat 0) = false := h0
        have h1 : PyFloat.lt (PyFloat.ofRat 1) a = false := h1
        rw [ofRat_zero, lt_eq_false_iff] at h0
        rw [ofRat_one, lt_eq_false_iff] at h1
        exact ⟨h0, h1⟩
      have hrest : 0 ≤ PyFloat.sub (PyFloat.ofRat 1) a := by
        rw [ofRat_one, ExactFloat.sub_eq]
        linarith
      -- the share of the square
      obtain ⟨w, hw⟩ : ∃ w, PyFloat.mul (PyFloat.mul (fin a) d) d = w := ⟨_, rfl⟩
      have hspread : (∃ x, w = fin x ∧ 0 ≤ x) ∨ w = inf false ∨ w = nan := by
        subst hw
        cases d with
        | fin y =>
          refine .inl ⟨_, rfl, ?_⟩
          rw [ExactFloat.mul_eq, ExactFloat.mul_eq, mul_assoc]
          exact mul_nonneg ha.1 (mul_self_nonneg y)
        | inf n =>
          show _ ∨ mul (infMul n a) (inf n) = inf false ∨ mul (infMul n a) (inf n) = nan
          rcases infMul_cases ha.1 n with h | h
          · exact .inr (.inr (by rw [h]; rfl))
          · exact .inr (.inl (by rw [h]; cases n <;> rfl))
        | nan => exact .inr (.inr rfl)
      rw [hw]
      -- the sum, then the rest of the share
      obtain ⟨u, hu⟩ : ∃ u, PyFloat.add v w = u := ⟨_, rfl⟩
      have hsum : (∃ x, u = fin x ∧ 0 ≤ x) ∨ u = inf false ∨ u = nan := by
        subst hu
        rcases (lt_zero_eq_false_iff v).mp hv with ⟨x, rfl, hx⟩ | rfl | rfl
        · rcases hspread with ⟨y, rfl, hy⟩ | rfl | rfl
          · exact .inl ⟨_, rfl, by rw [ExactFloat.add_eq]; exact add_nonneg hx hy⟩
          · exact .inr (.inl rfl)
          · exact .inr (.inr rfl)
        · rcases hspread with ⟨y, rfl, hy⟩ | rfl | rfl
          · exact .inr (.inl rfl)
          · exact .inr (.inl rfl)
          · exact .inr (.inr rfl)
        · exact .inr (.inr (by rcases w <;> rfl))
      rw [hu, lt_zero_eq_false_iff]
      rcases hsum with ⟨x, rfl, hx⟩ | rfl | rfl
      · exact .inl ⟨_, rfl, by rw [ExactFloat.mul_eq]; exact mul_nonneg hrest hx⟩
      · show _ ∨ infMul false _ = inf false ∨ infMul false _ = nan
        rcases infMul_cases hrest false with h | h
        · exact .inr (.inr h)
        · exact .inr (.inl h)
      · exact .inr (.inr rfl)

end Ieee

end EcuTelemetry.Backend
