/-
  EcuTelemetry.Firmware.Plant

  The plant of firmware/src/physics.cpp in exact arithmetic: the drive profiles,
  the parameters, and one step of the motor, the battery, the winding, the
  vibration, the vehicle and the sensors, in the source's order of draws.

  The numbers are those of any ordered field with a floor.  The functions of
  `<cmath>` and the source of draws are parameters.
-/

import Mathlib.Algebra.Order.Floor.Defs
import Mathlib.Order.Interval.Set.Defs
import EcuTelemetry.Firmware.Physics

namespace EcuTelemetry.Firmware

/-! ## Profiles -/

inductive Profile
  | CITY
  | HIGHWAY
  | IDLE
  | STRESS
deriving DecidableEq, Repr

variable {K : Type} [Field K] [LinearOrder K] {σ : Type}

/-! ## Numbers -/

/-- `kPi`. -/
def kPi : K := 3.14159265358979323846

/-- `std::clamp`. -/
def clamp (v lo hi : K) : K := if v < lo then lo else if hi < v then hi else v

/-- `std::fmod`: the quotient is cut towards zero. -/
def fmod [FloorRing K] (x y : K) : K :=
  x - y * (if 0 ≤ x / y then (⌊x / y⌋ : K) else (⌈x / y⌉ : K))

/-- The other functions of `<cmath>`. -/
structure Libm (K : Type) [Zero K] [LE K] where
  sin : K → K
  cos : K → K
  exp : K → K
  exp_nonneg : ∀ x, 0 ≤ exp x

/-- A generator: `uniform()` is in [0, 1), `gaussian()` is any value. -/
structure Draws (K : Type) [Zero K] [One K] [LinearOrder K] (σ : Type) where
  uniform : σ → K × σ
  gaussian : σ → K × σ
  uniform_mem : ∀ s, (uniform s).1 ∈ Set.Ico 0 1

/-- `uniform(a, b)`. -/
def Draws.uniformIn (d : Draws K σ) (a b : K) (s : σ) : K × σ :=
  (a + (b - a) * (d.uniform s).1, (d.uniform s).2)

/-! ## Parameters -/

/-- `PlantParams`, without the two detection thresholds. -/
structure PlantParams (K : Type) [Field K] where
  rpmMax : K := 6000
  rpmTauS : K := 1.5
  idleCurrentA : K := 5
  currentPerThrottle : K := 120
  accelCurrentGain : K := 40
  vEmpty : K := 88
  vFull : K := 100
  packROhm : K := 0.03
  packCapacityAs : K := 360000
  windingROhm : K := 0.05
  thermalCJPerK : K := 600
  convectionWPerK : K := 10
  ambientC : K := 25
  vibBaseG : K := 0.15
  vibRpmGainG : K := 0.4
  vibNoiseG : K := 0.04
  vibSpikeRateHz : K := 0.02
  gearRatio : K := 6
  wheelCircM : K := 2
  routeRadiusM : K := 500
  lat0 : K := 37.7749
  lon0 : K := -122.4194
  overtempHeaterW : K := 2000
  overcurrentExtraA : K := 60
  undervoltageDropV : K := 20
  vibrationInjectG : K := 2.5

/-! ## State -/

/-- What the sensors read, before the conversions to `float`. -/
structure PlantSample (K : Type) where
  rpm : K
  tempC : K
  currentA : K
  voltageV : K
  vibrationG : K
  speedKph : K
  lat : K
  lon : K

/-- The members of `Physics` that `step` moves. -/
structure Plant (K σ : Type) where
  rng : σ
  t : K
  throttle : K
  rpm : K
  current : K
  voltage : K
  soc : K
  temp : K
  vibSpike : K
  headingRad : K
  xM : K
  yM : K
  injected : UInt32
  stuckValid : Bool
  stuckTemp : K
  sample : PlantSample K

/-- What does not change: the functions, the generator, the profile, the
    parameters. -/
structure PlantSetup (K σ : Type) [Field K] [LinearOrder K] where
  libm : Libm K
  draws : Draws K σ
  profile : Profile
  gpsEnabled : Bool
  params : PlantParams K := {}

/-- A bit of the injected faults. -/
def Plant.has (p : Plant K σ) (flag : UInt32) : Prop := p.injected &&& flag ≠ 0

instance (p : Plant K σ) (flag : UInt32) : Decidable (p.has flag) :=
  inferInstanceAs (Decidable (_ ≠ _))

namespace PlantSetup

variable (c : PlantSetup K σ)

/-- The constructor. -/
def init (s : σ) : Plant K σ :=
  let (headingRad, rng) := c.draws.uniformIn 0 (2 * kPi) s
  { rng, headingRad
    t := 0, throttle := 0, rpm := 0, current := 0
    voltage := c.params.vEmpty + (c.params.vFull - c.params.vEmpty) * 0.9
    soc := 0.9
    temp := c.params.ambientC
    vibSpike := 0, xM := 0, yM := 0, injected := 0, stuckValid := false, stuckTemp := 0
    sample :=
      { rpm := 0, tempC := 0, currentA := 0, voltageV := 0, vibrationG := 0, speedKph := 0
        lat := 0, lon := 0 } }

/-- `throttleDemand`. -/
def throttleDemand [FloorRing K] (t : K) : K :=
  match c.profile with
  | .IDLE => 0
  | .HIGHWAY =>
    0.70 + 0.10 * c.libm.sin (2 * kPi * t / 90) + 0.05 * c.libm.sin (2 * kPi * t / 23)
  | .STRESS => if fmod t 40 < 8 then 1 else 0.92
  | .CITY =>
    let ph := fmod t 60
    if ph < 12 then 0.55 * (ph / 12) + 0.1
    else if ph < 32 then 0.45
    else if ph < 40 then 0.45 * (1 - (ph - 32) / 8)
    else 0

/-! ## The parts of a step -/

/-- Motor and current. -/
def motor [FloorRing K] (dt : K) (p : Plant K σ) : Plant K σ :=
  let (g, rng) := c.draws.gaussian p.rng
  let throttle := clamp (c.throttleDemand p.t + 0.01 * g) 0 1
  let rpmTarget := throttle * c.params.rpmMax
  let rpm := p.rpm + (rpmTarget - p.rpm) * min 1 (dt / c.params.rpmTauS)
  let rpm := if rpm < 0 then 0 else rpm
  let accelRpmS := (rpm - p.rpm) / dt
  -- only speeding up draws more current
  let accelA := min 20 (c.params.accelCurrentGain * max 0 (accelRpmS / 1000))
  let (g, rng) := c.draws.gaussian rng
  let current :=
    c.params.idleCurrentA + c.params.currentPerThrottle * throttle + accelA + 1.5 * g
  let current :=
    if p.has F_OVERCURRENT then current + c.params.overcurrentExtraA else current
  { p with rng, throttle, rpm, current := if current < 0 then 0 else current }

/-- V = V0(SoC) - I*R. -/
def battery (dt : K) (p : Plant K σ) : Plant K σ :=
  let soc := clamp (p.soc - p.current * dt / c.params.packCapacityAs) 0 1
  let v0 := c.params.vEmpty + (c.params.vFull - c.params.vEmpty) * soc
  let v0 := if p.has F_UNDERVOLTAGE then v0 - c.params.undervoltageDropV else v0
  let (g, rng) := c.draws.gaussian p.rng
  { p with rng, soc, voltage := v0 - p.current * c.params.packROhm + 0.1 * g }

/-- Heating against cooling. -/
def thermal (dt : K) (p : Plant K σ) : Plant K σ :=
  let heatW := p.current * p.current * c.params.windingROhm
  let heatW := if p.has F_OVERTEMP then heatW + c.params.overtempHeaterW else heatW
  let coolW := c.params.convectionWPerK * (p.temp - c.params.ambientC)
  { p with temp := p.temp + (heatW - coolW) / c.params.thermalCJPerK * dt }

/-- The amplitude after a spike that may start. -/
def spike (dt : K) (p : Plant K σ) : K × σ :=
  let (u, rng) := c.draws.uniform p.rng
  if u < c.params.vibSpikeRateHz * dt then
    let (size, rng) := c.draws.uniformIn 0.5 1.5 rng
    (p.vibSpike + size, rng)
  else (p.vibSpike, rng)

/-- The spikes, and what the sensor of the vibration reads. -/
def vibration (dt : K) (p : Plant K σ) : Plant K σ :=
  let (vibSpike, rng) := c.spike dt p
  let vibSpike := vibSpike * c.libm.exp (-dt / 0.8)
  let rpmFrac := p.rpm / c.params.rpmMax
  let (g, rng) := c.draws.gaussian rng
  let vib :=
    c.params.vibBaseG + c.params.vibRpmGainG * rpmFrac * rpmFrac + vibSpike +
      c.params.vibNoiseG * |g|
  let vib := if p.has F_VIBRATION_HIGH then vib + c.params.vibrationInjectG else vib
  { p with rng, vibSpike, sample := { p.sample with vibrationG := vib } }

def speedMps (p : Plant K σ) : K := p.rpm / 60 / c.params.gearRatio * c.params.wheelCircM

/-- Speed, heading and position. -/
def vehicle (dt : K) (p : Plant K σ) : Plant K σ :=
  let speedMps := c.speedMps p
  let headingRad := p.headingRad + speedMps / c.params.routeRadiusM * dt
  let headingRad := if headingRad > 2 * kPi then headingRad - 2 * kPi else headingRad
  let xM := p.xM + speedMps * c.libm.sin headingRad * dt
  let yM := p.yM + speedMps * c.libm.cos headingRad * dt
  let lat := c.params.lat0 + yM / 111320
  let lon := c.params.lon0 + xM / (111320 * c.libm.cos (c.params.lat0 * kPi / 180))
  let (lat, lon, rng) :=
    if c.gpsEnabled then
      let (g, rng) := c.draws.gaussian p.rng
      let (g', rng) := c.draws.gaussian rng
      (lat + 1.5 / 111320 * g, lon + 1.5 / 111320 * g', rng)
    else (lat, lon, p.rng)
  let shown := c.gpsEnabled ∧ ¬p.has F_GPS_LOST
  { p with
    rng, headingRad, xM, yM
    sample :=
      { p.sample with
        speedKph := speedMps * 3.6
        lat := if shown then lat else 0
        lon := if shown then lon else 0 } }

/-- The encoder. -/
def encoder (p : Plant K σ) : Plant K σ :=
  let (g, rng) := c.draws.gaussian p.rng
  let reading := p.rpm + 3 * g
  let (reading, rng) :=
    if p.has F_ENCODER_FAULT then
      -- a broken encoder drops out now and then, and is noisy otherwise
      let (u, rng) := c.draws.uniform rng
      let (reading, rng) :=
        if u < 0.10 then (0, rng)
        else
          let (g, rng) := c.draws.gaussian rng
          (p.rpm * (1 + 0.15 * g), rng)
      (if reading < 0 then 0 else reading, rng)
    else (reading, rng)
  { p with rng, sample := { p.sample with rpm := reading } }

/-- The temperature sensor, the current and the voltage. -/
def thermometer (p : Plant K σ) : Plant K σ :=
  let (g, rng) := c.draws.gaussian p.rng
  let reading := p.temp + 0.2 * g
  let stuckTemp := if p.stuckValid then p.stuckTemp else reading
  let sample := { p.sample with currentA := p.current, voltageV := p.voltage }
  if p.has F_SENSOR_STUCK then
    { p with rng, stuckTemp, stuckValid := true, sample := { sample with tempC := stuckTemp } }
  else
    { p with rng, stuckValid := false, sample := { sample with tempC := reading } }

/-! ## Steps and runs -/

/-- `step`. -/
def step [FloorRing K] (dt : K) (p : Plant K σ) : Plant K σ :=
  if dt ≤ 0 then p
  else
    c.thermometer (c.encoder (c.vehicle dt (c.vibration dt (c.thermal dt (c.battery dt
      (c.motor dt { p with t := p.t + dt }))))))

end PlantSetup

/-- `setInjectedFaults`. -/
def Plant.setInjectedFaults (flags : UInt32) (p : Plant K σ) : Plant K σ :=
  { p with injected := flags &&& F_ALL }

inductive PlantEvent (K : Type)
  | setInjectedFaults (flags : UInt32)
  | step (dt : K)

/-- One call on the plant. -/
def PlantSetup.event [FloorRing K] (c : PlantSetup K σ) (p : Plant K σ) :
    PlantEvent K → Plant K σ
  | .setInjectedFaults flags => p.setInjectedFaults flags
  | .step dt => c.step dt p

end EcuTelemetry.Firmware
