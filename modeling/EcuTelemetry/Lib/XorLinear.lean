/-
  EcuTelemetry.Lib.XorLinear

  Maps on bit vectors that commute with exclusive or: the shifts, their sums and
  compositions, and the maps given by columns.  Such a map is known from its
  values on single bits, so an identity between two of them is a finite check.
-/

import Mathlib.Data.Nat.Notation
import Mathlib.Order.Basic
import Mathlib.Tactic.Common

namespace EcuTelemetry.XorLinear

variable {w : ℕ}

/-! ## Shifts of a non-zero word -/

theorem testBit_eq_of_xor_eq_zero {x y : BitVec w} (h : x ^^^ y = 0) (i : ℕ) :
    x.getLsbD i = y.getLsbD i := by
  have hbit := congrArg (·.getLsbD i) h
  simpa using hbit

/-- From the top bit down, every bit is the zero `k` places above it. -/
theorem eq_zero_of_xor_shiftRight {x : BitVec w} {k : ℕ} (hk : 0 < k)
    (h : x ^^^ (x >>> k) = 0) : x = 0 := by
  have hall : ∀ n i, w ≤ i + n → x.getLsbD i = false := by
    intro n
    induction n with
    | zero => exact fun i hi => BitVec.getLsbD_of_ge x i (by omega)
    | succ n ih =>
      intro i hi
      have hbit := testBit_eq_of_xor_eq_zero h i
      rw [BitVec.getLsbD_ushiftRight, ih (k + i) (by omega)] at hbit
      exact hbit
  apply BitVec.eq_of_getLsbD_eq
  intro i hi
  rw [hall w i (by omega)]
  simp

/-- From the lowest bit up, every bit is the zero `k` places below it. -/
theorem eq_zero_of_xor_shiftLeft {x : BitVec w} {k : ℕ} (hk : 0 < k)
    (h : x ^^^ (x <<< k) = 0) : x = 0 := by
  have hall : ∀ i, x.getLsbD i = false := by
    intro i
    induction i using Nat.strongRecOn with
    | ind i ih =>
      have hbit := testBit_eq_of_xor_eq_zero h i
      rw [BitVec.getLsbD_shiftLeft] at hbit
      by_cases hik : i < k
      · simpa [hik] using hbit
      · simpa [ih (i - k) (by omega)] using hbit
  apply BitVec.eq_of_getLsbD_eq
  intro i _
  rw [hall i]
  simp

/-! ## Additive maps -/

def Additive (f : BitVec w → BitVec w) : Prop := ∀ x y, f (x ^^^ y) = f x ^^^ f y

namespace Additive

variable {f g : BitVec w → BitVec w}

theorem id : Additive (fun x : BitVec w => x) := fun _ _ => rfl

theorem comp (hf : Additive f) (hg : Additive g) : Additive (fun x => f (g x)) := by
  intro x y
  show f (g (x ^^^ y)) = f (g x) ^^^ f (g y)
  rw [hg, hf]

theorem xor (hf : Additive f) (hg : Additive g) : Additive (fun x => f x ^^^ g x) := by
  intro x y
  show f (x ^^^ y) ^^^ g (x ^^^ y) = (f x ^^^ g x) ^^^ (f y ^^^ g y)
  rw [hf, hg]
  ac_rfl

theorem shiftLeft (k : ℕ) : Additive (fun x : BitVec w => x <<< k) := by
  intro x y
  exact BitVec.shiftLeft_xor_distrib x y k

theorem shiftRight (k : ℕ) : Additive (fun x : BitVec w => x >>> k) := by
  intro x y
  exact BitVec.ushiftRight_xor_distrib x y k

theorem map_zero (hf : Additive f) : f 0 = 0 := by
  have h := hf 0 0
  simpa using h

/-- Two additive maps that agree on the single bits are equal. -/
theorem ext (hf : Additive f) (hg : Additive g)
    (h : ∀ i < w, f (BitVec.twoPow w i) = g (BitVec.twoPow w i)) (x : BitVec w) : f x = g x := by
  -- by the number of low bits that may be set
  have hbelow : ∀ n, n ≤ w → ∀ x : BitVec w, (∀ i, n ≤ i → x.getLsbD i = false) → f x = g x := by
    intro n
    induction n with
    | zero =>
      intro _ x hx
      have hzero : x = 0 := by
        apply BitVec.eq_of_getLsbD_eq
        intro i _
        rw [hx i (Nat.zero_le i)]
        simp
      rw [hzero, hf.map_zero, hg.map_zero]
    | succ n ih =>
      intro hn x hx
      by_cases hbit : x.getLsbD n
      · -- split the top bit off
        have hlow : f (x ^^^ BitVec.twoPow w n) = g (x ^^^ BitVec.twoPow w n) := by
          apply ih (by omega)
          intro i hi
          rw [BitVec.getLsbD_xor, BitVec.getLsbD_twoPow]
          rcases Nat.eq_or_lt_of_le hi with heq | hlt
          · subst heq
            simp [hbit, show n < w by omega]
          · rw [hx i hlt]
            simp [Nat.ne_of_lt hlt]
        rw [hf, hg, h n (by omega)] at hlow
        exact (BitVec.xor_left_inj _).mp hlow
      · apply ih (by omega)
        intro i hi
        rcases Nat.eq_or_lt_of_le hi with heq | hlt
        · subst heq
          simpa using hbit
        · exact hx i hlt
  exact hbelow w (Nat.le_refl w) x (fun i hi => BitVec.getLsbD_of_ge x i hi)

end Additive

/-! ## Columns -/

/-- The map whose value on the single bit `i + k` is the `k`-th column. -/
def columns : List (BitVec w) → ℕ → BitVec w → BitVec w
  | [], _, _ => 0
  | c :: cs, i, x => (if x.getLsbD i then c else 0) ^^^ columns cs (i + 1) x

/-- A map given by its columns is additive. -/
theorem additive_columns (cs : List (BitVec w)) (i : ℕ) : Additive (columns cs i) := by
  induction cs generalizing i with
  | nil =>
    intro x y
    simp [columns]
  | cons c cs ih =>
    have hhead : Additive (fun x : BitVec w => if x.getLsbD i then c else 0) := by
      intro x y
      show (if (x ^^^ y).getLsbD i then c else 0) =
        (if x.getLsbD i then c else 0) ^^^ (if y.getLsbD i then c else 0)
      rw [BitVec.getLsbD_xor]
      cases x.getLsbD i <;> cases y.getLsbD i <;> simp
    exact hhead.xor (ih (i + 1))

end EcuTelemetry.XorLinear
