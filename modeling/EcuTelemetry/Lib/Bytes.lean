/-
  EcuTelemetry.Lib.Bytes

  Little-endian byte strings of a fixed width: `leBytes k v` writes the low
  `k` bytes of a number, `leNat` reads a byte string back.
-/

import Mathlib.Data.List.Basic
import Mathlib.Tactic.Ring

namespace EcuTelemetry

abbrev Byte := UInt8

/-- The low `k` bytes of `v`, least significant first. -/
def leBytes : (k v : Nat) → List Byte
  | 0, _ => []
  | k + 1, v => UInt8.ofNat v :: leBytes k (v / 256)

/-- The number a little-endian byte string stands for. -/
def leNat : List Byte → Nat
  | [] => 0
  | b :: bs => b.toNat + 256 * leNat bs

@[simp] theorem leBytes_zero (v : Nat) : leBytes 0 v = [] := rfl

@[simp] theorem leBytes_length (k v : Nat) : (leBytes k v).length = k := by
  induction k generalizing v with
  | zero => rfl
  | succ k ih => simp [leBytes, ih]

@[simp] theorem leNat_nil : leNat [] = 0 := rfl

@[simp] theorem leNat_cons (b : Byte) (bs : List Byte) :
    leNat (b :: bs) = b.toNat + 256 * leNat bs := rfl

/-- `n` bytes make a number below `256 ^ n`. -/
theorem leNat_lt (bs : List Byte) : leNat bs < 256 ^ bs.length := by
  induction bs with
  | nil => simp
  | cons b bs ih =>
    have hb := b.toNat_lt
    have : 256 * leNat bs + 256 ≤ 256 * 256 ^ bs.length := by
      rw [← Nat.mul_succ]
      exact Nat.mul_le_mul_left 256 ih
    simp only [leNat_cons, List.length_cons, Nat.pow_succ]
    omega

/-- Reading back what was written keeps the low `k` bytes. -/
theorem leNat_leBytes (k v : Nat) : leNat (leBytes k v) = v % 256 ^ k := by
  induction k generalizing v with
  | zero => simp [Nat.mod_one]
  | succ k ih =>
    have hsplit : v % (256 * 256 ^ k) = v % 256 + 256 * (v / 256 % 256 ^ k) :=
      Nat.mod_mul
    rw [leBytes, leNat_cons, ih, Nat.pow_succ, Nat.mul_comm (256 ^ k), hsplit]
    simp

theorem leNat_leBytes_of_lt {k v : Nat} (h : v < 256 ^ k) : leNat (leBytes k v) = v := by
  rw [leNat_leBytes, Nat.mod_eq_of_lt h]

/-- Writing back what was read reproduces the bytes. -/
theorem leBytes_leNat (bs : List Byte) : leBytes bs.length (leNat bs) = bs := by
  induction bs with
  | nil => rfl
  | cons b bs ih =>
    have hb := b.toNat_lt
    have hdiv : (b.toNat + 256 * leNat bs) / 256 = leNat bs := by omega
    have hlow : UInt8.ofNat (b.toNat + 256 * leNat bs) = b := by
      apply UInt8.toNat_inj.mp
      rw [UInt8.toNat_ofNat']
      omega
    rw [List.length_cons, leNat_cons, leBytes, hdiv, hlow, ih]

/-- The one-byte, two-byte and four-byte forms, byte by byte. -/
theorem leBytes_one (v : Nat) : leBytes 1 v = [UInt8.ofNat v] := rfl

theorem leBytes_two (v : Nat) : leBytes 2 v = [UInt8.ofNat v, UInt8.ofNat (v / 256)] := rfl

theorem leBytes_four (v : Nat) :
    leBytes 4 v = [UInt8.ofNat v, UInt8.ofNat (v / 256), UInt8.ofNat (v / 256 / 256),
      UInt8.ofNat (v / 256 / 256 / 256)] := rfl

end EcuTelemetry
