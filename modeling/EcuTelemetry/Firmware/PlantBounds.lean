/-
  EcuTelemetry.Firmware.PlantBounds

  The plant stays physical: what each part of a step needs of the others to keep
  its own range, a whole run, and the plant of the device with its own generator.
-/

import Mathlib.Algebra.Order.Field.Basic
import Mathlib.Analysis.Complex.Trigonometric
import Mathlib.Analysis.Real.Pi.Bounds
import Mathlib.Analysis.SpecialFunctions.Log.Basic
import Mathlib.Tactic.Linarith
import Mathlib.Tactic.NormNum
import EcuTelemetry.Firmware.Generator
import EcuTelemetry.Firmware.Plant
import EcuTelemetry.Lib.Run

namespace EcuTelemetry.Firmware

variable {K : Type} [Field K] [LinearOrder K] {σ : Type}

/-! ## The range of the state -/

structure Plant.Physical (pp : PlantParams K) (p : Plant K σ) : Prop where
  throttle_mem : p.throttle ∈ Set.Icc 0 1
  rpm_mem : p.rpm ∈ Set.Icc 0 pp.rpmMax
  current_nonneg : 0 ≤ p.current
  soc_mem : p.soc ∈ Set.Icc 0 1
  ambient_le_temp : pp.ambientC ≤ p.temp
  vibSpike_nonneg : 0 ≤ p.vibSpike
  heading_mem : p.headingRad ∈ Set.Icc 0 (2 * kPi)

/-- What the parts of a step of at most a second need of the parameters. -/
structure PlantParams.Stable (pp : PlantParams K) : Prop where
  rpmMax_nonneg : 0 ≤ pp.rpmMax
  rpmTauS_pos : 0 < pp.rpmTauS
  packCapacityAs_pos : 0 < pp.packCapacityAs
  windingROhm_nonneg : 0 ≤ pp.windingROhm
  overtempHeaterW_nonneg : 0 ≤ pp.overtempHeaterW
  thermalCJPerK_pos : 0 < pp.thermalCJPerK
  /-- The winding cannot cool past the ambient temperature within a second. -/
  convection_mem : pp.convectionWPerK ∈ Set.Icc 0 pp.thermalCJPerK
  gearRatio_pos : 0 < pp.gearRatio
  wheelCircM_nonneg : 0 ≤ pp.wheelCircM
  routeRadiusM_pos : 0 < pp.routeRadiusM
  /-- At full speed a second is less than a lap. -/
  lap : pp.rpmMax / 60 / pp.gearRatio * pp.wheelCircM / pp.routeRadiusM ≤ 2 * kPi

variable [IsStrictOrderedRing K]

theorem kPi_pos : (0 : K) < kPi := by
  rw [kPi]
  norm_num

theorem stable_default : ({} : PlantParams K).Stable := by
  constructor <;> norm_num [kPi]

/-! ## Clamps and lags -/

omit [Field K] [IsStrictOrderedRing K] in
/-- `clamp` lands in its interval. -/
theorem clamp_mem (v : K) {lo hi : K} (h : lo ≤ hi) : clamp v lo hi ∈ Set.Icc lo hi := by
  rw [clamp]
  by_cases hlo : v < lo
  · rw [if_pos hlo]
    exact ⟨le_rfl, h⟩
  · by_cases hhi : hi < v
    · rw [if_neg hlo, if_pos hhi]
      exact ⟨h, le_rfl⟩
    · rw [if_neg hlo, if_neg hhi]
      exact ⟨not_lt.mp hlo, not_lt.mp hhi⟩

omit [Field K] [IsStrictOrderedRing K] in
/-- A value below another one that is in range is below it after the clamp. -/
theorem clamp_le {v w lo hi : K} (hv : v ≤ w) (hw : lo ≤ w) : clamp v lo hi ≤ w := by
  rw [clamp]
  by_cases hlo : v < lo
  · rw [if_pos hlo]
    exact hw
  · by_cases hhi : hi < v
    · rw [if_neg hlo, if_pos hhi]
      exact hhi.le.trans hv
    · rw [if_neg hlo, if_neg hhi]
      exact hv

/-- A part of the way towards a target in range stays in range. -/
theorem lag_mem {x target m k : K} (hx : x ∈ Set.Icc 0 m) (ht : target ∈ Set.Icc 0 m)
    (hk : k ∈ Set.Icc 0 1) : x + (target - x) * k ∈ Set.Icc 0 m := by
  have hsplit : x + (target - x) * k = (1 - k) * x + k * target := by ring
  have hk' : 0 ≤ 1 - k := sub_nonneg.mpr hk.2
  rw [hsplit]
  constructor
  · exact add_nonneg (mul_nonneg hk' hx.1) (mul_nonneg hk.1 ht.1)
  · calc (1 - k) * x + k * target
        ≤ (1 - k) * m + k * m :=
          add_le_add (mul_le_mul_of_nonneg_left hx.2 hk') (mul_le_mul_of_nonneg_left ht.2 hk.1)
      _ = m := by ring

omit [IsStrictOrderedRing K] in
theorem nonneg_of_floor (x : K) : 0 ≤ (if x < 0 then 0 else x) := by
  by_cases hx : x < 0
  · rw [if_pos hx]
  · rw [if_neg hx]
    exact not_lt.mp hx

/-- `uniform(a, b)` is between its ends. -/
theorem Draws.uniformIn_mem (d : Draws K σ) {a b : K} (h : a ≤ b) (s : σ) :
    (d.uniformIn a b s).1 ∈ Set.Icc a b := by
  have hu := d.uniform_mem s
  have hab : 0 ≤ b - a := sub_nonneg.mpr h
  constructor
  · exact le_add_of_nonneg_right (mul_nonneg hab hu.1)
  · have hle : (b - a) * (d.uniform s).1 ≤ b - a := mul_le_of_le_one_right hab hu.2.le
    show a + (b - a) * (d.uniform s).1 ≤ b
    linarith

namespace PlantSetup

variable {c : PlantSetup K σ} {p : Plant K σ} {dt : K}

/-! ## The parts of a step -/

/-- Speed, torque and current follow the throttle within their limits. -/
theorem motor_physical [FloorRing K] (hc : c.params.Stable) (hdt : 0 < dt)
    (hp : p.Physical c.params) : (c.motor dt p).Physical c.params := by
  obtain ⟨v, hv⟩ : ∃ v, (c.motor dt p).throttle = clamp v 0 1 := ⟨_, rfl⟩
  have hthrottle : (c.motor dt p).throttle ∈ Set.Icc 0 1 := by
    rw [hv]
    exact clamp_mem v zero_le_one
  have hrpm : (c.motor dt p).rpm ∈ Set.Icc 0 c.params.rpmMax := by
    have htarget : (c.motor dt p).throttle * c.params.rpmMax ∈ Set.Icc 0 c.params.rpmMax :=
      ⟨mul_nonneg hthrottle.1 hc.rpmMax_nonneg,
        mul_le_of_le_one_left hc.rpmMax_nonneg hthrottle.2⟩
    have hk : min 1 (dt / c.params.rpmTauS) ∈ Set.Icc 0 1 :=
      ⟨le_min zero_le_one (div_nonneg hdt.le hc.rpmTauS_pos.le), min_le_left _ _⟩
    have hlag := lag_mem hp.rpm_mem htarget hk
    have hrpm : (c.motor dt p).rpm =
        if p.rpm + ((c.motor dt p).throttle * c.params.rpmMax - p.rpm) *
          min 1 (dt / c.params.rpmTauS) < 0 then 0
        else p.rpm + ((c.motor dt p).throttle * c.params.rpmMax - p.rpm) *
          min 1 (dt / c.params.rpmTauS) := rfl
    -- the floor at zero is never reached
    rw [hrpm, if_neg (not_lt.mpr hlag.1)]
    exact hlag
  exact
    { throttle_mem := hthrottle
      rpm_mem := hrpm
      current_nonneg := nonneg_of_floor _
      soc_mem := hp.soc_mem
      ambient_le_temp := hp.ambient_le_temp
      vibSpike_nonneg := hp.vibSpike_nonneg
      heading_mem := hp.heading_mem }

theorem battery_soc_le (hc : c.params.Stable) (hdt : 0 < dt) (hp : p.Physical c.params) :
    (c.battery dt p).soc ≤ p.soc := by
  have hused : 0 ≤ p.current * dt / c.params.packCapacityAs :=
    div_nonneg (mul_nonneg hp.current_nonneg hdt.le) hc.packCapacityAs_pos.le
  exact clamp_le (sub_le_self _ hused) hp.soc_mem.1

theorem battery_physical (hp : p.Physical c.params) : (c.battery dt p).Physical c.params :=
  { hp with soc_mem := clamp_mem _ zero_le_one }

/-- Temperatures move toward their target by a convex combination. -/
theorem thermal_physical (hc : c.params.Stable) (hdt : 0 < dt) (hdt1 : dt ≤ 1)
    (hp : p.Physical c.params) : (c.thermal dt p).Physical c.params := by
  -- what heats the winding is not negative
  obtain ⟨heat, hheat, htemp⟩ : ∃ heat, 0 ≤ heat ∧ (c.thermal dt p).temp =
      p.temp + (heat - c.params.convectionWPerK * (p.temp - c.params.ambientC)) /
        c.params.thermalCJPerK * dt := by
    refine ⟨_, ?_, rfl⟩
    have hloss : 0 ≤ p.current * p.current * c.params.windingROhm :=
      mul_nonneg (mul_self_nonneg _) hc.windingROhm_nonneg
    by_cases hinj : p.has F_OVERTEMP
    · rw [if_pos hinj]
      exact add_nonneg hloss hc.overtempHeaterW_nonneg
    · rw [if_neg hinj]
      exact hloss
  have hfactor : c.params.convectionWPerK / c.params.thermalCJPerK * dt ≤ 1 := by
    have hquot : c.params.convectionWPerK / c.params.thermalCJPerK ≤ 1 :=
      (div_le_one hc.thermalCJPerK_pos).mpr hc.convection_mem.2
    exact mul_le_one₀ hquot hdt.le hdt1
  -- the excess over the ambient is damped by a factor between 0 and 1
  have hover : (c.thermal dt p).temp - c.params.ambientC =
      (p.temp - c.params.ambientC) *
          (1 - c.params.convectionWPerK / c.params.thermalCJPerK * dt) +
        heat / c.params.thermalCJPerK * dt := by
    rw [htemp]
    have hne := hc.thermalCJPerK_pos.ne'
    field_simp
    ring
  have hle : c.params.ambientC ≤ (c.thermal dt p).temp := by
    apply sub_nonneg.mp
    rw [hover]
    have hcool := mul_nonneg (sub_nonneg.mpr hp.ambient_le_temp) (sub_nonneg.mpr hfactor)
    have hwarm := mul_nonneg (div_nonneg hheat hc.thermalCJPerK_pos.le) hdt.le
    exact add_nonneg hcool hwarm
  exact { hp with ambient_le_temp := hle }

/-- The vibration of a spike is never negative. -/
theorem spike_nonneg (hp : p.Physical c.params) : 0 ≤ (c.spike dt p).1 := by
  by_cases hu : (c.draws.uniform p.rng).1 < c.params.vibSpikeRateHz * dt
  · have hsize := c.draws.uniformIn_mem (a := 0.5) (b := 1.5) (by norm_num)
      (c.draws.uniform p.rng).2
    have hhalf : (0 : K) ≤ 0.5 := by norm_num
    simp only [spike, if_pos hu]
    exact add_nonneg hp.vibSpike_nonneg (hhalf.trans hsize.1)
  · simp only [spike, if_neg hu]
    exact hp.vibSpike_nonneg

theorem vibration_physical (hp : p.Physical c.params) :
    (c.vibration dt p).Physical c.params :=
  { hp with vibSpike_nonneg := mul_nonneg (spike_nonneg hp) (c.libm.exp_nonneg _) }

/-- Voltage, charge, speed and distance. -/
theorem vehicle_physical (hc : c.params.Stable) (hdt : 0 < dt) (hdt1 : dt ≤ 1)
    (hp : p.Physical c.params) : (c.vehicle dt p).Physical c.params := by
  -- the speed is the motor's, through gear and wheel
  have hspeed : 0 ≤ c.speedMps p ∧
      c.speedMps p ≤ c.params.rpmMax / 60 / c.params.gearRatio * c.params.wheelCircM := by
    have h60 : (0 : K) < 60 := by norm_num
    have hgear := hc.gearRatio_pos
    have hwheel := hc.wheelCircM_nonneg
    constructor
    · exact mul_nonneg (div_nonneg (div_nonneg hp.rpm_mem.1 h60.le) hgear.le) hwheel
    · apply mul_le_mul_of_nonneg_right _ hwheel
      exact div_le_div_of_nonneg_right (div_le_div_of_nonneg_right hp.rpm_mem.2 h60.le) hgear.le
  -- in a step of at most a second the course makes less than one lap
  have hturn : 0 ≤ c.speedMps p / c.params.routeRadiusM * dt ∧
      c.speedMps p / c.params.routeRadiusM * dt ≤ 2 * kPi := by
    have hradius := hc.routeRadiusM_pos
    have hquot := div_nonneg hspeed.1 hradius.le
    constructor
    · exact mul_nonneg hquot hdt.le
    · calc c.speedMps p / c.params.routeRadiusM * dt
          ≤ c.speedMps p / c.params.routeRadiusM := mul_le_of_le_one_right hquot hdt1
        _ ≤ c.params.rpmMax / 60 / c.params.gearRatio * c.params.wheelCircM /
              c.params.routeRadiusM := div_le_div_of_nonneg_right hspeed.2 hradius.le
        _ ≤ 2 * kPi := hc.lap
  have hheading : (c.vehicle dt p).headingRad ∈ Set.Icc 0 (2 * kPi) := by
    obtain ⟨hlo, hhi⟩ := hp.heading_mem
    show (if p.headingRad + c.speedMps p / c.params.routeRadiusM * dt > 2 * kPi then
      p.headingRad + c.speedMps p / c.params.routeRadiusM * dt - 2 * kPi else
      p.headingRad + c.speedMps p / c.params.routeRadiusM * dt) ∈ Set.Icc 0 (2 * kPi)
    by_cases hwrap : p.headingRad + c.speedMps p / c.params.routeRadiusM * dt > 2 * kPi
    · -- one lap is enough, since the turn was at most one
      rw [if_pos hwrap]
      exact ⟨by linarith, by linarith [hturn.2]⟩
    · rw [if_neg hwrap]
      exact ⟨by linarith [hturn.1], not_lt.mp hwrap⟩
  exact { hp with heading_mem := hheading }

omit [IsStrictOrderedRing K] in
/-- The sensors only read. -/
theorem sensors_physical (hp : p.Physical c.params) :
    (c.thermometer (c.encoder p)).Physical c.params := by
  rw [thermometer]
  by_cases hstuck : (c.encoder p).has F_SENSOR_STUCK
  · simp only [if_pos hstuck]
    exact { hp with }
  · simp only [if_neg hstuck]
    exact { hp with }

omit [IsStrictOrderedRing K] in
theorem thermometer_soc : (c.thermometer p).soc = p.soc := by
  rw [thermometer]
  by_cases hstuck : p.has F_SENSOR_STUCK
  · simp only [if_pos hstuck]
  · simp only [if_neg hstuck]

/-! ## Steps -/

/-- One step of the plant; the charge only falls. -/
theorem step_physical [FloorRing K] (hc : c.params.Stable) (hdt : dt ≤ 1)
    (hp : p.Physical c.params) :
    (c.step dt p).Physical c.params ∧ (c.step dt p).soc ≤ p.soc := by
  rw [step]
  by_cases hpos : dt ≤ 0
  · rw [if_pos hpos]
    exact ⟨hp, le_rfl⟩
  · rw [if_neg hpos]
    have hpos := not_le.mp hpos
    have hclock : ({ p with t := p.t + dt } : Plant K σ).Physical c.params := { hp with }
    have hmotor := motor_physical hc hpos hclock
    have hbattery : (c.battery dt _).Physical c.params := battery_physical hmotor
    have hthermal := thermal_physical hc hpos hdt hbattery
    have hvibration : (c.vibration dt _).Physical c.params := vibration_physical hthermal
    have hvehicle := vehicle_physical hc hpos hdt hvibration
    refine ⟨sensors_physical hvehicle, ?_⟩
    rw [thermometer_soc]
    exact battery_soc_le hc hpos hmotor

/-! ## Runs -/

/-- The plant starts within its bounds. -/
theorem init_physical (hsoc : c.params.Stable) (s : σ) : (c.init s).Physical c.params :=
  { throttle_mem := ⟨le_rfl, zero_le_one⟩
    rpm_mem := ⟨le_rfl, hsoc.rpmMax_nonneg⟩
    current_nonneg := le_rfl
    soc_mem := by
      show (0.9 : K) ∈ Set.Icc 0 1
      constructor <;> norm_num
    ambient_le_temp := le_rfl
    vibSpike_nonneg := le_rfl
    heading_mem := c.draws.uniformIn_mem (mul_nonneg zero_le_two kPi_pos.le) s }

theorem event_physical [FloorRing K] (hc : c.params.Stable) {e : PlantEvent K}
    (he : ∀ dt, e = .step dt → dt ≤ 1) (hp : p.Physical c.params) :
    (c.event p e).Physical c.params ∧ (c.event p e).soc ≤ p.soc := by
  cases e with
  | setInjectedFaults flags => exact ⟨{ hp with }, le_rfl⟩
  | step dt => exact step_physical hc (he dt rfl) hp

/-- From any state in range on: every state is in range, with no more charge. -/
theorem exec_physical [FloorRing K] (hc : c.params.Stable) {events : List (PlantEvent K)}
    (hdt : ∀ dt, PlantEvent.step dt ∈ events → dt ≤ 1) (hp : p.Physical c.params) :
    (exec c.event p events).Physical c.params ∧ (exec c.event p events).soc ≤ p.soc := by
  induction events generalizing p with
  | nil => exact ⟨hp, le_rfl⟩
  | cons e events ih =>
    obtain ⟨hstep, hsoc⟩ := event_physical hc
      (fun dt he => hdt dt (he ▸ List.mem_cons_self)) hp
    obtain ⟨hrun, hsoc'⟩ := ih (fun dt he => hdt dt (List.mem_cons_of_mem e he)) hstep
    exact ⟨hrun, hsoc'.trans hsoc⟩

end PlantSetup

/-! ## Real numbers -/

noncomputable def Libm.real : Libm ℝ :=
  { sin := Real.sin, cos := Real.cos, exp := Real.exp, exp_nonneg := Real.exp_nonneg }

theorem Rng.cast_uniform_lt_one (r : Rng) : (r.uniform.1 : ℝ) < 1 := by
  exact_mod_cast r.uniform_lt_one

theorem kPi_lt_pi : (kPi : ℝ) < Real.pi := Real.pi_gt_d20

/-- Every profile, every source of draws and every calls with steps of at most a
    second: the state is in range after each of them and the charge never rises. -/
theorem plant_stays_physical (draws : Draws ℝ σ) (profile : Profile) (gpsEnabled : Bool) (s : σ)
    (earlier later : List (PlantEvent ℝ))
    (hdt : ∀ dt, PlantEvent.step dt ∈ earlier ++ later → dt ≤ 1) :
    let c : PlantSetup ℝ σ := { libm := .real, draws, profile, gpsEnabled }
    let p := exec c.event (c.init s) earlier
    let p' := exec c.event (c.init s) (earlier ++ later)
    p'.throttle ∈ Set.Icc 0 1 ∧ p'.rpm ∈ Set.Icc 0 c.params.rpmMax ∧ 0 ≤ p'.current ∧
      p'.soc ∈ Set.Icc 0 1 ∧ p'.soc ≤ p.soc ∧ c.params.ambientC ≤ p'.temp ∧
      0 ≤ p'.vibSpike ∧ p'.headingRad ∈ Set.Icc 0 (2 * Real.pi) := by
  intro c p p'
  have hc : c.params.Stable := stable_default
  -- both stretches keep the bounds, and over the second one the charge falls
  have hp : p.Physical c.params :=
    (PlantSetup.exec_physical hc (fun dt he => hdt dt (List.mem_append_left later he))
      (PlantSetup.init_physical hc s)).1
  have hrun : exec c.event p later = p' := (exec_append later).symm
  obtain ⟨hp', hsoc⟩ := PlantSetup.exec_physical hc
    (fun dt he => hdt dt (List.mem_append_right earlier he)) hp
  rw [hrun] at hp' hsoc
  obtain ⟨hlo, hhi⟩ := hp'.heading_mem
  -- the constant of the source is below pi
  have hpi : 2 * (kPi : ℝ) ≤ 2 * Real.pi := by linarith [kPi_lt_pi]
  exact ⟨hp'.throttle_mem, hp'.rpm_mem, hp'.current_nonneg, hp'.soc_mem, hsoc,
    hp'.ambient_le_temp, hp'.vibSpike_nonneg, hlo, hhi.trans hpi⟩

/-! ## The generator of the device -/

/-- `gaussian()`. -/
noncomputable def Rng.gaussian (r : Rng) : ℝ × Rng :=
  let ((u1, u2), r) := r.gaussianDraws
  (Real.sqrt (-2 * Real.log u1) * Real.cos (2 * kPi * u2), r)

noncomputable def Rng.draws : Draws ℝ Rng :=
  { uniform := fun r => ((r.uniform.1 : ℝ), r.uniform.2)
    gaussian := Rng.gaussian
    uniform_mem := fun r =>
      ⟨Rat.cast_nonneg.mpr r.uniform_nonneg, r.cast_uniform_lt_one⟩ }

/-- The plant of a device with this `--seed`, stepped ten times. -/
theorem plant_stays_physical_device :
    let c : PlantSetup ℝ Rng :=
      { libm := .real, draws := Rng.draws, profile := .CITY, gpsEnabled := true }
    let p' := exec c.event (c.init (.ofPlantSeed 42))
      ([.setInjectedFaults F_OVERTEMP] ++ List.replicate 10 (.step (1 / 10)))
    p'.throttle ∈ Set.Icc 0 1 ∧ p'.rpm ∈ Set.Icc 0 6000 ∧ 0 ≤ p'.current ∧
      p'.soc ∈ Set.Icc 0 1 ∧ p'.soc ≤ 0.9 ∧ 25 ≤ p'.temp ∧
      0 ≤ p'.vibSpike ∧ p'.headingRad ∈ Set.Icc 0 (2 * Real.pi) := by
  apply plant_stays_physical Rng.draws .CITY true (.ofPlantSeed 42)
  intro dt hmem
  have hdt : PlantEvent.step dt = PlantEvent.step (1 / 10 : ℝ) := by simpa using hmem
  cases hdt
  norm_num

end EcuTelemetry.Firmware
