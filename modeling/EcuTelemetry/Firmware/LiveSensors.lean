/-
  EcuTelemetry.Firmware.LiveSensors

  Real-sensor mode: what the samples carry.

  `readSensors` puts the plant's sample into `live_` before it looks at the
  reading, so a failed reading leaves the plant's values there.  As long as no
  sample of a failed reading goes out, every sample carries the measured values.
-/

import EcuTelemetry.Firmware.AgentLoop

namespace EcuTelemetry.Firmware

open Proc

/-! ## Readings and samples of a trace -/

/-- Readings and samples. -/
def Seen.isSampling : Seen → Bool
  | .sensors _ => true
  | .datagram _ _ => true
  | _ => false

/-- The readings and the samples, the latest first. -/
def Agent.sampling (s : Agent) : List Seen := s.trace.filter Seen.isSampling

/-- The most recent reading. -/
def lastReading : List Seen → Option SensorReading
  | [] => none
  | .sensors r :: _ => some r
  | _ :: es => lastReading es

/-- The most recent successful reading. -/
def lastGood : List Seen → Option SensorReading
  | [] => none
  | .sensors r :: es => if r.ok then some r else lastGood es
  | _ :: es => lastGood es

/-- The measured fields, and 0 in the fields that no sensor measures. -/
structure Telemetry.Carries (t : Telemetry) (r : SensorReading) : Prop where
  tempC : t.tempC = r.tempC
  voltageV : t.voltageV = r.voltageV
  currentA : t.currentA = r.currentA
  rpm : t.rpm = r.rpm
  vibrationG : t.vibrationG = F32.zero
  speedKph : t.speedKph = F32.zero
  lat : t.lat = ⟨0⟩
  lon : t.lon = ⟨0⟩

instance (t : Telemetry) (r : SensorReading) : Decidable (t.Carries r) :=
  decidable_of_iff (t.tempC = r.tempC ∧ t.voltageV = r.voltageV ∧ t.currentA = r.currentA ∧
      t.rpm = r.rpm ∧ t.vibrationG = F32.zero ∧ t.speedKph = F32.zero ∧ t.lat = ⟨0⟩ ∧ t.lon = ⟨0⟩)
    ⟨fun ⟨h₁, h₂, h₃, h₄, h₅, h₆, h₇, h₈⟩ => ⟨h₁, h₂, h₃, h₄, h₅, h₆, h₇, h₈⟩,
     fun ⟨h₁, h₂, h₃, h₄, h₅, h₆, h₇, h₈⟩ => ⟨h₁, h₂, h₃, h₄, h₅, h₆, h₇, h₈⟩⟩

/-- The values are those of the reading, if there is one. -/
def Telemetry.CarriesOf (t : Telemetry) (r : Option SensorReading) : Prop :=
  ∀ r', r = some r' → t.Carries r'

instance (t : Telemetry) : (r : Option SensorReading) → Decidable (t.CarriesOf r)
  | none => isTrue nofun
  | some r => decidable_of_iff (t.Carries r)
    ⟨fun h _ hr => Option.some.inj hr ▸ h, fun h => h r rfl⟩

/-- The samples that went out, each with what was before it. -/
def samples : List Seen → List (Telemetry × List Seen)
  | [] => []
  | .datagram t _ :: es => (t, es) :: samples es
  | _ :: es => samples es

/-- Every sample carries the most recent successful reading. -/
def Measured (es : List Seen) : Prop := ∀ p ∈ samples es, p.1.CarriesOf (lastGood p.2)

/-- No sample goes out right after a failed reading, once a reading was
    successful. -/
def ReadingsHold (es : List Seen) : Prop :=
  ∀ p ∈ samples es, lastGood p.2 = lastReading p.2 ∨ lastGood p.2 = none

instance (es : List Seen) : Decidable (Measured es) := inferInstanceAs (Decidable (∀ p ∈ _, _))

instance (es : List Seen) : Decidable (ReadingsHold es) := inferInstanceAs (Decidable (∀ p ∈ _, _))

/-- The last good reading is a good one. -/
theorem lastGood_ok {es : List Seen} {r : SensorReading} (h : lastGood es = some r) :
    r.ok = true := by
  induction es with
  | nil => cases h
  | cons e es ih =>
    cases e with
    | sensors r' =>
      rw [lastGood] at h
      split at h
      · next hok => exact Option.some.inj h ▸ hok
      · exact ih h
    | _ => exact ih h

theorem quiet_sampling {es : List Seen} (h : Quiet es) : es.filter Seen.isSampling = [] := by
  refine List.filter_eq_nil_iff.mpr fun e he hs => ?_
  have hquiet := h e he
  cases e with
  | sensors r => cases hquiet
  | datagram t frame => cases hquiet
  | _ => cases hs

/-! ## The invariant -/

/-- The members that the samples come from. -/
def Agent.sampled (s : Agent) : Option SysfsSensors × Telemetry × List Seen :=
  (s.sensors, s.live, s.sampling)

structure LiveInv (s : Agent) : Prop where
  sensors : s.sensors.isSome = true
  /-- after a successful reading `live_` holds its values -/
  live : ∀ r, lastReading s.sampling = some r → r.ok = true → s.live.Carries r
  measured : ReadingsHold s.sampling → Measured s.sampling

/-- The invariant reads the sensors, the current sample and their history. -/
theorem LiveInv.congr {s u : Agent} (h : LiveInv s) (heq : u.sampled = s.sampled) :
    LiveInv u := by
  simp only [Agent.sampled, Prod.mk.injEq] at heq
  obtain ⟨hsensors, hlive, hsampling⟩ := heq
  constructor
  · rw [hsensors]; exact h.sensors
  · rw [hlive, hsampling]; exact h.live
  · rw [hsampling]; exact h.measured

theorem sampling_append {es : List Seen} {s u : Agent} (h : u.trace = es ++ s.trace)
    (hes : es.filter Seen.isSampling = []) : u.sampling = s.sampling := by
  rw [Agent.sampling, h, List.filter_append, hes]
  rfl

theorem Dropped.sampling {s u : Agent} (h : Dropped s u) : u.sampling = s.sampling := by
  obtain ⟨es, es', htrace, hq, hq'⟩ := h.trace
  refine sampling_append htrace ?_
  rw [List.filter_append, List.filter_append, quiet_sampling hq, quiet_sampling hq']
  split <;> rfl

/-- Sending takes no sample. -/
theorem Comm.sampled {s u : Agent} (h : Comm s u) : u.sampled = s.sampled := by
  have hsampling : u.sampling = s.sampling := by
    rcases h.channel with hk | ⟨-, hd⟩
    · obtain ⟨es, htrace, hq⟩ := hk.trace
      exact sampling_append htrace (quiet_sampling hq)
    · exact hd.sampling
  rw [Agent.sampled, hsampling]
  exact congrArg (fun p => (p.1, p.2, s.sampling)) (h.get fun s => (s.sensors, s.live))

theorem within_liveInv : Within (Holds LiveInv) :=
  .ofComm (fun _ _ hc h => h.congr hc.sampled) fun _ _ ha h => by cases ha <;> exact h.congr rfl

theorem liveInv_reconfigured (s u : Agent) (hr : Reconfigured s u) : Holds LiveInv s u :=
  fun h => by cases hr <;> exact h.congr rfl

theorem liveInv_reinjected (s u : Agent) (hr : Reinjected s u) : Holds LiveInv s u :=
  fun h => by cases hr <;> exact h.congr rfl

/-- A channel failure keeps the sample. -/
theorem liveInv_tcpFail (why : List Byte) : Keeps (Holds LiveInv) (tcpFail why) := by
  intro s h
  obtain ⟨hframe, hdropped⟩ := tcpFail_spec why s
  refine h.congr ?_
  rw [Agent.sampled, hdropped.sampling]
  have hget := congrArg (fun s : Agent => (s.sensors, s.live, s.sampling)) hframe
  exact congrArg (fun p : Option SysfsSensors × Telemetry × List Seen =>
    (p.1, p.2.1, s.sampling)) hget

/-! ## Handlers -/

theorem liveInv_startReboot (reason : List Byte) (fw : Bool) :
    Keeps (Holds LiveInv) (startReboot reason fw) :=
  within_liveInv.startReboot (fun _ _ h => h.congr rfl) (fun _ h => h.congr rfl) reason fw

/-- A received frame keeps the sample. -/
theorem liveInv_handleFrame (f : Frame) : Keeps (Holds LiveInv) (handleFrame f) := by
  have h := within_liveInv
  have hack : ∀ v status, Keeps (Holds LiveInv) (sendConfigAck v status) :=
    fun _ _ => (comm_sendFrame _ _).weaken fun _ _ hc h => h.congr hc.sampled
  refine h.handleFrame (fun _ _ _ h => h.congr rfl) (fun _ h => h.congr rfl)
    (fun _ _ _ h => h.congr rfl) ?_
  exact h.dispatch (h.handleConfigSet liveInv_reconfigured hack f)
    (h.handleFwUpdate fun _ _ _ _ _ _ => h.acceptFwUpdate fun _ _ _ h => h.congr rfl)
    (h.handleFaultInject liveInv_reinjected f)
    (h.handleCmd liveInv_reinjected liveInv_startReboot f)

theorem liveInv_finishOta (t : ℚ) : Keeps (Holds LiveInv) (finishOta t) :=
  within_liveInv.finishOta (fun _ _ _ h => h.congr rfl) (fun _ h => h.congr rfl)
    liveInv_startReboot t

theorem liveInv_completeBoot (t : ℚ) : Keeps (Holds LiveInv) (completeBoot t) := by
  refine within_liveInv.completeBoot (fun _ _ h => h.congr rfl) (fun s h => h.congr ?_) t
  rw [Agent.install]
  split
  · rfl
  · rfl

/-! ## The tick -/

theorem measure_carries (r : SensorReading) (s : Agent) : (s.measure r).live.Carries r :=
  ⟨rfl, rfl, rfl, rfl, rfl, rfl, rfl, rfl⟩

/-- A successful reading is measured; after a failed one `live_` holds nothing of
    a reading. -/
theorem liveInv_readSensors (p : SysfsSensors) : Keeps (Holds LiveInv) (readSensors p) := by
  refine (within_liveInv.readSensor p).bind fun r => ?_
  intro s h
  rw [unit_bind_run, unit_bind_run, when]
  split
  · next hok =>
    refine ⟨h.sensors, fun r' hr' _ => ?_, h.measured⟩
    have hr : r = r' := Option.some.inj hr'
    exact hr ▸ measure_carries r _
  · next hok =>
    refine ⟨h.sensors, fun r' hr' hok' => ?_, h.measured⟩
    have hr : r = r' := Option.some.inj hr'
    exact absurd (hr ▸ hok') hok

/-- The sample that goes out is `live_`. -/
theorem liveInv_noteSample {s u : Agent} (h : LiveInv s) (heq : u.sampled = s.sampled)
    (frame : List Byte) : LiveInv (u.noted (.datagram s.current frame)) := by
  have hlive : s.current = s.live := if_pos h.sensors
  have h' := h.congr heq
  simp only [Agent.sampled, Prod.mk.injEq] at heq
  refine ⟨h'.sensors, h'.live, ?_⟩
  intro hhold
  obtain ⟨hread, hhold⟩ := List.forall_mem_cons.mp hhold
  refine List.forall_mem_cons.mpr ⟨fun r hr => ?_, h'.measured hhold⟩
  -- the last successful reading is the last one
  have hlast : lastReading u.sampling = some r := by
    rcases hread with hread | hnone
    · exact hread.symm.trans hr
    · exact absurd (hnone.symm.trans hr) (Option.some_ne_none r).symm
  show s.current.Carries r
  rw [hlive, ← heq.2.1]
  exact h'.live r hlast (lastGood_ok hr)

/-- `sendSample` reads the sensors first, then builds the sample from them. -/
theorem liveInv_sendSample : Keeps (Holds LiveInv) sendSample := by
  intro s h
  rw [sendSample, bind_run_ok (get_run s), unit_bind_run, unit_bind_run]
  have hsampled : s.countSample.drawDrop.sampled = s.sampled := by
    rw [Agent.drawDrop]
    split
    · rfl
    · rfl
  split
  · exact within_liveInv.log _ _ rfl _ (h.congr hsampled)
  · rw [emitSample]
    obtain ⟨hdr, w, hhdr, -⟩ := makeHeader_run MsgType.TELEMETRY s.udpSeq s.countSample.drawDrop
    rw [modify_run, modify_run, bind_run_ok hhdr, unit_bind_run]
    have hnoted := liveInv_noteSample (u := s.countSample.drawDrop.withWorld w) h hsampled
      (encodeFrame hdr s.current.encode)
    -- an error of `sendto` is only logged
    refine Keeps.bind (within_liveInv.ask _ _ fun _ _ => by rfl) (fun err => ?_) _ hnoted
    cases err with
    | none => exact Keeps.pure ()
    | some why => exact within_liveInv.log _ _ rfl

/-! ## Runs -/

/-- One case for each piece of the loop. -/
theorem across_liveInv : Across (Holds LiveInv) where
  toWithin := within_liveInv
  tcpFail := liveInv_tcpFail
  setTcpFd _ _ h := h.congr rfl
  setRx _ _ _ h := h.congr rfl
  goUp s _ _ h := within_liveInv.sendHello _ (h.congr (u := s.goUp) rfl)
  setConnecting _ _ _ h := h.congr rfl
  updateInjections :=
    within_liveInv.now.bind (within_liveInv.updateInjections liveInv_reinjected)
  readSensors := liveInv_readSensors
  noteComputed _ h := h.congr rfl
  checkLocalAlerts := keeps_checkLocalAlerts (fun _ _ h => h.congr rfl) fun lvl msg =>
    (comm_log lvl msg).weaken fun _ _ hc h => h.congr hc.sampled
  sendSample := liveInv_sendSample
  handleFrame f s _ _ := liveInv_handleFrame f s
  finishOta t s _ _ _ _ := liveInv_finishOta t s
  completeBoot t s _ _ := liveInv_completeBoot t s

theorem liveInv_top (opts : AgentOptions) (cfg : Config) (paths : SysfsSensors) (world : World)
    (n : ℕ) : LiveInv (.top opts cfg (some paths) world n) := by
  have hnew : LiveInv (.new opts cfg (some paths) world) := ⟨rfl, nofun, fun _ => nofun⟩
  have hinit := within_liveInv.applyHz liveInv_reconfigured cfg.hz _ hnew
  exact across_liveInv.top (within_liveInv.start (fun _ _ h => h.congr rfl) _ hinit) n

/-- Real-sensor mode reports measured values as long as no sample of a failed
    reading goes out. -/
theorem measured_of_readingsHold (opts : AgentOptions) (cfg : Config) (paths : SysfsSensors)
    (world : World) (n : ℕ) (h : ReadingsHold (Agent.top opts cfg (some paths) world n).sampling) :
    Measured (Agent.top opts cfg (some paths) world n).sampling :=
  (liveInv_top opts cfg paths world n).measured h

/-- The board's thermal zone can be read once. -/
def zoneOnce : World :=
  { World.idle with
    readDouble := fun n _ => if n = 0 then some (F64.ofNat 52500) else none }

def zonePaths : SysfsSensors where
  temps := []
  tjPath := [0x74]
  vinPath := []
  iinPath := []
  fanPath := []
  gpuLoadPath := []

/-- The sample of the second tick carries the plant's temperature. -/
theorem measured_fails :
    ¬ Measured (Agent.top { deviceId := [0x45] } {} (some zonePaths) zoneOnce 2).sampling := by
  decide +kernel

/-- A zone that gets warmer and cannot be read at the third tick. -/
def zoneWarming : World :=
  { World.idle with
    readDouble := fun n _ => if n = 2 then none else some (F64.ofNat (52500 + 500 * n)) }

/-- Half of the samples are lost before they are sent. -/
def lossy : AgentOptions := { deviceId := [0x45], dropRate := 1 / 2, seed := 5 }

def lossySampling : List Seen := (Agent.top lossy {} (some zonePaths) zoneWarming 4).sampling

/-- 52.5 degrees go out, then 54; the failed reading between them has its sample
    lost. -/
theorem measured_of_readingsHold_lossy :
    ((samples lossySampling).map fun p => p.1.tempC) =
        [SysfsSensors.milli (F64.ofNat 54000), SysfsSensors.milli (F64.ofNat 52500)] ∧
      lastReading (lossySampling.drop 2) = some {} ∧ Measured lossySampling :=
  ⟨by decide +kernel, by decide +kernel,
    measured_of_readingsHold lossy {} zonePaths zoneWarming 4 (by decide +kernel)⟩

end EcuTelemetry.Firmware
