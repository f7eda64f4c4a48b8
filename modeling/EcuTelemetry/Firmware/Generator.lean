/-
  EcuTelemetry.Firmware.Generator

  The generator of firmware/src/physics.cpp over any calls: the seed scrambling
  and the three shift steps keep a non-zero word non-zero, and no non-zero word is
  left in place by all three.
-/

import Mathlib.Tactic.Push
import EcuTelemetry.Firmware.Comm
import EcuTelemetry.Lib.XorLinear

namespace EcuTelemetry.Firmware

open Proc

namespace Rng

/-! ## Calls -/

/-- The two draws of `gaussian()`, the first with its lower bound. -/
def gaussianDraws (r : Rng) : (ℚ × ℚ) × Rng :=
  let (u1, r) := r.uniform
  let (u2, r) := r.uniform
  ((if u1 < 1 / 10 ^ 300 then 1 / 10 ^ 300 else u1, u2), r)

/-- The members of `Rng` that move the generator. -/
inductive Call
  | next
  | uniform
  | uniformIn (a b : ℚ)
  | gaussian

def call (r : Rng) : Call → Rng
  | .next => r.next.2
  | .uniform => r.uniform.2
  | .uniformIn a b => (r.uniformIn a b).2
  | .gaussian => r.gaussianDraws.2

def calls (r : Rng) (cs : List Call) : Rng := cs.foldl call r

/-! ## The shift steps on words -/

/-- The state after `next`. -/
def shifted (s : BitVec 64) : BitVec 64 :=
  let s := s ^^^ (s >>> 12)
  let s := s ^^^ (s <<< 25)
  s ^^^ (s >>> 27)

theorem next_state (r : Rng) : r.next.2.s.toBitVec = shifted r.s.toBitVec := rfl

theorem next_value (r : Rng) : r.next.1 = r.next.2.s * 0x2545F4914F6CDD1D := rfl

theorem additive_shifted : XorLinear.Additive shifted := by
  have hright (k : ℕ) : XorLinear.Additive (fun s : BitVec 64 => s ^^^ (s >>> k)) :=
    XorLinear.Additive.id.xor (.shiftRight k)
  have hleft : XorLinear.Additive (fun s : BitVec 64 => s ^^^ (s <<< 25)) :=
    XorLinear.Additive.id.xor (.shiftLeft 25)
  exact (hright 27).comp (hleft.comp (hright 12))

theorem shifted_ne_zero {s : BitVec 64} (hs : s ≠ 0) : shifted s ≠ 0 := by
  intro h
  apply hs
  apply XorLinear.eq_zero_of_xor_shiftRight (k := 12) (by omega)
  apply XorLinear.eq_zero_of_xor_shiftLeft (k := 25) (by omega)
  exact XorLinear.eq_zero_of_xor_shiftRight (k := 27) (by omega) h

/-- The inverse of "moved by `shifted`", by columns. -/
def unmoved : List (BitVec 64) :=
  [0x00024924924936DA, 0x0004924924926DB4, 0x000924924924DB69, 0x0010000000008009,
   0x0020000000010012, 0x00424924924B36FE, 0x0084924924966DFC, 0x01092492492CDBF9,
   0x0210000000108129, 0x0420000000210252, 0x08424924920B327E, 0x10849249241664FC,
   0x210B6DB6DA65FF22, 0x421492492682C89F, 0x842924924D05913F, 0x21192412402CC9FD,
   0x423001001210A521, 0x84624B24B6687C98, 0x218DB25B24BE2468, 0x43192D92DB357E0A,
   0x863012012423CACF, 0x25290010002948C6, 0x4A5200200052918D, 0x94A4004000A5231A,
   0x0001249249249B6D, 0x0000000000000001, 0x0000000000000002, 0x00024924924936DE,
   0x0004924924926DBC, 0x000924924924DB79, 0x0010000000008029, 0x0020000000010052,
   0x00424924924B367E, 0x0084924924966CFC, 0x01092492492CD9F9, 0x0210000000108529,
   0x0420000000210A52, 0x08400000004214A5, 0x108000000084294A, 0x210249249341644F,
   0x420492492682C89E, 0x840924924D05913D, 0x215B6D36D265FF23, 0x42B493493682C89D,
   0x856B6FB6FF4CA7E1, 0x239DB25B24BEA441, 0x47392D92DB347E58, 0x8E725B25B668FCB1,
   0x35AD925924BF243A, 0x6B5B24B2497E4874, 0xD6B4004000B5A633, 0x842124924905913F,
   0x210B6D36DA65FF27, 0x421493492682C895, 0x842B6FB6DF4CA7F1, 0x211DB25B64BEA461,
   0x42392D925B347E18, 0x84725B24B668FC31, 0x21AD925B24BF253A, 0x435B24B6497E4A74,
   0x86B4004800B5A233, 0x242124824905993F, 0x48424904920B327F, 0x90849209241664FE]

/-- Checked on the 64 single bits. -/
theorem unmoved_moved (s : BitVec 64) : XorLinear.columns unmoved 0 (shifted s ^^^ s) = s := by
  have hmoved : XorLinear.Additive (fun s : BitVec 64 => shifted s ^^^ s) :=
    additive_shifted.xor .id
  have hback := (XorLinear.additive_columns unmoved 0).comp hmoved
  apply hback.ext .id
  decide +kernel

theorem shifted_ne_self {s : BitVec 64} (hs : s ≠ 0) : shifted s ≠ s := by
  intro h
  have hback := unmoved_moved s
  have hzero : XorLinear.columns unmoved 0 0 = 0 := (XorLinear.additive_columns unmoved 0).map_zero
  rw [h, BitVec.xor_self] at hback
  exact hs (hback.symm.trans hzero)

/-! ## Odd multipliers -/

/-- The inverse of the multiplier is the second factor. -/
theorem mul_left_injective {a b x y : UInt64} (hab : a * b = 1) (h : x * a = y * a) : x = y := by
  have hb := congrArg (· * b) h
  simpa [UInt64.mul_assoc, hab] using hb

theorem scramble_injective {x y : UInt64}
    (h : x * 0x9E3779B97F4A7C15 = y * 0x9E3779B97F4A7C15) : x = y :=
  mul_left_injective (b := 0xF1DE83E19937733D) (by decide) h

theorem output_injective {x y : UInt64}
    (h : x * 0x2545F4914F6CDD1D = y * 0x2545F4914F6CDD1D) : x = y :=
  mul_left_injective (b := 0x59071D96D81ECD35) (by decide) h

/-! ## Non-zero states -/

/-- The state of the generator is never zero, which xorshift could not leave. -/
theorem ofSeed_ne_zero (seed : UInt64) : (ofSeed seed).s ≠ 0 := by
  show (if seed ≠ 0 then seed * 0x9E3779B97F4A7C15 else 0x9E3779B97F4A7C15) ≠ 0
  by_cases hseed : seed = 0
  · rw [if_neg (by simp [hseed])]
    decide
  · rw [if_pos hseed]
    intro hzero
    apply hseed
    apply scramble_injective
    rw [hzero, UInt64.zero_mul]

theorem toBitVec_ne_zero {s : UInt64} (hs : s ≠ 0) : s.toBitVec ≠ 0 := by
  intro h
  exact hs (UInt64.toBitVec_inj.mp h)

theorem next_ne_zero {r : Rng} (hr : r.s ≠ 0) : r.next.2.s ≠ 0 := by
  intro hzero
  apply shifted_ne_zero (toBitVec_ne_zero hr)
  rw [← next_state, hzero]
  rfl

theorem call_ne_zero {r : Rng} (hr : r.s ≠ 0) (c : Call) : (r.call c).s ≠ 0 := by
  cases c with
  | next => exact next_ne_zero hr
  | uniform => exact next_ne_zero hr
  | uniformIn a b => exact next_ne_zero hr
  | gaussian => exact next_ne_zero (next_ne_zero hr)

theorem calls_ne_zero {r : Rng} (hr : r.s ≠ 0) (cs : List Call) : (r.calls cs).s ≠ 0 := by
  induction cs generalizing r with
  | nil => exact hr
  | cons c cs ih => exact ih (call_ne_zero hr c)

/-- Two successive outputs of a non-zero state differ. -/
theorem next_ne_next {r : Rng} (hr : r.s ≠ 0) : r.next.1 ≠ r.next.2.next.1 := by
  intro heq
  have hstate : r.next.2.s = r.next.2.next.2.s := by
    apply output_injective
    rw [← next_value, ← next_value, heq]
  apply shifted_ne_self (toBitVec_ne_zero (next_ne_zero hr))
  rw [← next_state, ← hstate]

/-! ## The generators of the device -/

/-- After any calls: a state that is not zero, outputs that still change, and a
    uniform draw in range. -/
def NeverSticks (r : Rng) : Prop :=
  ∀ cs : List Call,
    (r.calls cs).s ≠ 0 ∧ (r.calls cs).next.1 ≠ (r.calls cs).next.2.next.1 ∧
      0 ≤ (r.calls cs).uniform.1 ∧ (r.calls cs).uniform.1 < 1

theorem neverSticks_of_ne_zero {r : Rng} (hr : r.s ≠ 0) : NeverSticks r := by
  intro cs
  have hcs := calls_ne_zero hr cs
  exact ⟨hcs, next_ne_next hcs, uniform_nonneg _, uniform_lt_one _⟩

/-- `rng_(seed)` in the constructor of `Physics`. -/
def ofPlantSeed (seed : UInt32) : Rng := .ofSeed seed.toUInt64

end Rng

/-- The drop generator is seeded from the seed of the options. -/
theorem init_dropRng (opts : AgentOptions) (cfg : Config) (sensors : Option SysfsSensors)
    (world : World) :
    (Agent.init opts cfg sensors world).dropRng = .ofSeed (opts.seed.toUInt64 * 7919 + 17) := by
  obtain ⟨t, w, ht, -⟩ := now_run
    ((Agent.new opts cfg sensors world).setHz
      (if (if cfg.hz < 1 then 1 else cfg.hz) > 1000 then 1000
      else if cfg.hz < 1 then 1 else cfg.hz))
  rw [Agent.init, applyHz, modify_bind_run, bind_run_ok ht]
  rfl

/-- No seed of 64 bits sticks, so neither the plant's generator nor the one for
    drops and jitter does for any `--seed`. -/
theorem rng_never_sticks :
    (∀ seed : UInt64, (Rng.ofSeed seed).NeverSticks) ∧
    (∀ seed : UInt32, (Rng.ofPlantSeed seed).NeverSticks) ∧
    ∀ (opts : AgentOptions) (cfg : Config) (sensors : Option SysfsSensors) (world : World),
      (Agent.init opts cfg sensors world).dropRng.NeverSticks := by
  have hall (seed : UInt64) : (Rng.ofSeed seed).NeverSticks :=
    Rng.neverSticks_of_ne_zero (Rng.ofSeed_ne_zero seed)
  refine ⟨hall, fun seed => hall _, fun opts cfg sensors world => ?_⟩
  rw [init_dropRng]
  exact hall _

end EcuTelemetry.Firmware
