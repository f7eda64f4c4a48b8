/-
  EcuTelemetry.Firmware.Physics

  The part of firmware/src/physics.cpp that the agent reads: the generator, the
  flags and the state.  What a step of the plant measures is an input.
-/

import Mathlib.Algebra.Order.Field.Rat
import EcuTelemetry.Firmware.Decoder

namespace EcuTelemetry.Firmware

/-! ## Generator -/

/-- `Rng`: xorshift64*. -/
structure Rng where
  s : UInt64
deriving DecidableEq, Repr

namespace Rng

def ofSeed (seed : UInt64) : Rng :=
  ⟨if seed ≠ 0 then seed * 0x9E3779B97F4A7C15 else 0x9E3779B97F4A7C15⟩

def next (r : Rng) : UInt64 × Rng :=
  let s := r.s ^^^ (r.s >>> 12)
  let s := s ^^^ (s <<< 25)
  let s := s ^^^ (s >>> 27)
  (s * 0x2545F4914F6CDD1D, ⟨s⟩)

/-- `uniform()`. -/
def uniform (r : Rng) : ℚ × Rng :=
  let (n, r) := r.next
  (((n >>> 11).toNat : ℚ) / 2 ^ 53, r)

/-- `uniform(a, b)`. -/
def uniformIn (r : Rng) (a b : ℚ) : ℚ × Rng :=
  let (u, r) := r.uniform
  (a + (b - a) * u, r)

theorem uniform_nonneg (r : Rng) : 0 ≤ r.uniform.1 := by
  rw [uniform]
  positivity

/-- The top 53 bits over 2^53. -/
theorem uniform_lt_one (r : Rng) : r.uniform.1 < 1 := by
  have hn : (r.next.1 >>> 11).toNat < 2 ^ 53 := by
    have := r.next.1.toNat_lt
    rw [UInt64.toNat_shiftRight, Nat.shiftRight_eq_div_pow]
    exact Nat.div_lt_of_lt_mul this
  show ((r.next.1 >>> 11).toNat : ℚ) / 2 ^ 53 < 1
  rw [div_lt_one (by positivity)]
  exact_mod_cast hn

end Rng

/-! ## Plant -/

structure Limits where
  rpmLimit : F32 := ⟨0x45BB8000⟩       -- 6000
  tempLimitC : F32 := ⟨0x42DC0000⟩     -- 110
  currentLimitA : F32 := ⟨0x43160000⟩  -- 150
deriving DecidableEq, Repr

namespace DeviceState

def IDLE : UInt8 := 0
def RUNNING : UInt8 := 1
def DEGRADED : UInt8 := 2
def FAULT : UInt8 := 3

end DeviceState

/-- What a step of the plant model measures. -/
structure PlantReadings where
  rpm : F32
  tempC : F32
  currentA : F32
  voltageV : F32
  vibrationG : F32
  speedKph : F32
  lat : F64
  lon : F64
  /-- `rpm_ < 50.0 && throttle_ < 0.02` -/
  still : Bool
deriving DecidableEq, Repr

structure Physics where
  limits : Limits := {}
  injected : UInt32 := 0
  detected : UInt32 := 0
  commDegraded : Bool := false
  still : Bool := true
  sample : Telemetry :=
    { rpm := ⟨0⟩, tempC := ⟨0⟩, currentA := ⟨0⟩, voltageV := ⟨0⟩, vibrationG := ⟨0⟩,
      speedKph := ⟨0⟩, lat := ⟨0⟩, lon := ⟨0⟩, faultFlags := 0, state := DeviceState.IDLE }
deriving DecidableEq, Repr

/-- The bits of the flags that hold. -/
def bits (flags : List (Bool × UInt32)) : UInt32 :=
  flags.foldl (fun acc f => if f.1 then acc ||| f.2 else acc) 0

def kHardFaults : UInt32 := F_OVERTEMP ||| F_OVERCURRENT ||| F_UNDERVOLTAGE ||| F_ENCODER_FAULT

namespace Physics

/-- 80.0 -/
def undervoltageV : F32 := ⟨0x42A00000⟩

/-- 2.0 -/
def vibrationHighG : F32 := ⟨0x40000000⟩

/-- The threshold checks of `updateFlagsAndState`. -/
def detect (p : Physics) : UInt32 :=
  bits
    [(F32.lt p.limits.tempLimitC p.sample.tempC, F_OVERTEMP),
     (F32.lt p.limits.currentLimitA p.sample.currentA, F_OVERCURRENT),
     (F32.lt F32.zero p.sample.voltageV && F32.lt p.sample.voltageV undervoltageV, F_UNDERVOLTAGE),
     (F32.lt vibrationHighG p.sample.vibrationG, F_VIBRATION_HIGH),
     (F32.lt p.limits.rpmLimit p.sample.rpm, F_ENCODER_FAULT)]

def updateFlagsAndState (p : Physics) : Physics :=
  let detected := p.detect
  let flags := p.injected ||| detected ||| (if p.commDegraded then F_COMM_DEGRADED else 0)
  let state :=
    if flags &&& kHardFaults ≠ 0 then DeviceState.FAULT
    else if flags ≠ 0 then DeviceState.DEGRADED
    else if p.still then DeviceState.IDLE
    else DeviceState.RUNNING
  { p with detected, sample := { p.sample with faultFlags := flags, state } }

/-- The constructor. -/
def new : Physics := updateFlagsAndState {}

/-- `step`. -/
def step (p : Physics) (r : PlantReadings) : Physics :=
  updateFlagsAndState
    { p with
      still := r.still
      sample :=
        { p.sample with
          rpm := r.rpm, tempC := r.tempC, currentA := r.currentA, voltageV := r.voltageV,
          vibrationG := r.vibrationG, speedKph := r.speedKph, lat := r.lat, lon := r.lon } }

def setInjectedFaults (p : Physics) (flags : UInt32) : Physics :=
  updateFlagsAndState { p with injected := flags &&& F_ALL }

def setCommDegraded (p : Physics) (degraded : Bool) : Physics := { p with commDegraded := degraded }

def setLimits (p : Physics) (l : Limits) : Physics := { p with limits := l }

def faultFlags (p : Physics) : UInt32 := p.sample.faultFlags

@[simp] theorem updateFlagsAndState_commDegraded (p : Physics) :
    p.updateFlagsAndState.commDegraded = p.commDegraded := rfl
@[simp] theorem step_commDegraded (p : Physics) (r : PlantReadings) :
    (p.step r).commDegraded = p.commDegraded := rfl
@[simp] theorem setInjectedFaults_commDegraded (p : Physics) (flags : UInt32) :
    (p.setInjectedFaults flags).commDegraded = p.commDegraded := rfl
@[simp] theorem setCommDegraded_commDegraded (p : Physics) (b : Bool) :
    (p.setCommDegraded b).commDegraded = b := rfl
@[simp] theorem setLimits_commDegraded (p : Physics) (l : Limits) :
    (p.setLimits l).commDegraded = p.commDegraded := rfl

end Physics

end EcuTelemetry.Firmware
