/-
  EcuTelemetry.Firmware.FaultAcks

  FAULT_ACK: the flags it reports, against those of a sample computed at that
  moment.  The plant refreshes its flags whenever the injected mask is set; in
  real-sensor mode `live_` keeps the flags of the last tick.
-/

import EcuTelemetry.Firmware.Injections
import EcuTelemetry.Firmware.SampleFlags

namespace EcuTelemetry.Firmware

open Printf Proc

/-! ## A sample computed now -/

/-- The sample of a tick with the readings that the plant has and a reading of the
    sensors. -/
def Agent.resample (r : SensorReading) (s : Agent) : Agent :=
  let s := { s with physics := s.physics.updateFlagsAndState }
  if s.sensors.isSome then if r.ok then s.rebuildLive.measure r else s.rebuildLive else s

/-- The threshold checks behind that sample: after a failed reading it is the
    plant's. -/
def Agent.detects (r : SensorReading) (s : Agent) : UInt32 :=
  if s.sensors.isSome = true ∧ r.ok = true then (s.measure r).liveDetected else s.physics.detect

/-- `injected | detected | comm`, as they stand. -/
def Agent.flagsNow (r : SensorReading) (s : Agent) : UInt32 :=
  s.physics.injected ||| s.detects r ||| (if s.physics.commDegraded then F_COMM_DEGRADED else 0)

/-- The flags of a sample are computed from the state that the sample is taken in. -/
theorem resample_flags (r : SensorReading) (s : Agent) :
    (s.resample r).current.faultFlags = s.flagsNow r := by
  -- plant mode and a failed reading take the detection of the plant
  rcases hmode : s.sensors with _ | p
  · have hnone : ¬ s.sensors.isSome = true := by rw [hmode]; nofun
    have hresample : s.resample r = { s with physics := s.physics.updateFlagsAndState } :=
      if_neg hnone
    have hdetects : s.detects r = s.physics.detect := if_neg fun h => hnone h.1
    rw [hresample, Agent.flagsNow, hdetects, Agent.current, if_neg hnone]
    rfl
  · have hsome : s.sensors.isSome = true := by rw [hmode]; rfl
    cases hok : r.ok with
    | false =>
      have hresample : s.resample r =
          ({ s with physics := s.physics.updateFlagsAndState } : Agent).rebuildLive := by
        rw [Agent.resample, if_pos hsome, if_neg (by rw [hok]; nofun)]
      have hdetects : s.detects r = s.physics.detect := if_neg fun h => by
        rw [hok] at h
        exact nomatch h.2
      rw [hresample, Agent.flagsNow, hdetects, Agent.current]
      exact congrArg Telemetry.faultFlags (if_pos hsome)
    -- a good reading is measured before the flags are taken
    | true =>
      have hresample : s.resample r =
          ({ s with physics := s.physics.updateFlagsAndState } : Agent).rebuildLive.measure r := by
        rw [Agent.resample, if_pos hsome, if_pos hok]
      have hdetects : s.detects r = (s.measure r).liveDetected := if_pos ⟨hsome, hok⟩
      rw [hresample, Agent.flagsNow, hdetects, Agent.current]
      refine (congrArg Telemetry.faultFlags (if_pos hsome)).trans ?_
      exact measure_flags r _ rfl

/-! ## The events -/

/-- What the agent answers with FAULT_ACK. -/
inductive AckEvent
  | faultInject (f : Frame)
  | clearFaults
  | expiry (t : ℚ)

namespace AckEvent

def handler : AckEvent → AgentM Unit
  | faultInject f => handleFaultInject f
  | clearFaults => Firmware.clearFaults
  | expiry t => updateInjections t

/-- What comes before the event: the scheduled faults. -/
def before : AckEvent → AgentM Unit
  | expiry t => do
    let s ← get
    forEach (List.range s.opts.faults.length) (fireFault t)
  | _ => pure ()

/-- The event up to `sendFaultAck`, and whether there is one. -/
def upTo : AckEvent → AgentM Bool
  | faultInject f =>
    match FaultInject.decode f.payload with
    | none => do
      log .WARN (str "FAULT_INJECT malformed (len=" ++ dec f.payload.length ++ str ")")
      -- a malformed request is answered, too
      return true
    | some fi => do
      let t ← now
      modify (Agent.inject fi t)
      let s ← get
      log .WARN (str "FAULT_INJECT set=" ++ faultFlagsToString fi.setFlags ++ str " clear=" ++
        faultFlagsToString fi.clearFlags ++ str " duration=" ++ dec fi.durationMs.toNat ++
        str "ms -> active=" ++ faultFlagsToString s.physics.faultFlags)
      return true
  | clearFaults => do
    modify Agent.clearInjected
    let s ← get
    log .INFO (str "CMD clear_faults: injected faults cleared (active=" ++
      faultFlagsToString s.physics.faultFlags ++ str ")")
    return true
  | expiry t => do
    let s ← get
    let kept ← expireInjections t s.injections
    modify (Agent.setInjections kept)
    let s' ← get
    if injectedMask kept ≠ s'.physics.injected then do
      modify (Agent.setMask (injectedMask kept))
      -- only an expiry is announced, not a scheduled fault that fires
      return decide (kept.length < s.injections.length ∧ s'.tcpState = .CONNECTED)
    else return false

/-- What comes after it. -/
def rest : AckEvent → AgentM Unit
  | expiry t => do
    let s ← get
    note (.tick t s.physics.injected)
  | _ => pure ()

end AckEvent

/-- The handlers send FAULT_ACK right after the event. -/
theorem AckEvent.handler_eq (ev : AckEvent) : ev.handler =
    ev.before >>= fun _ => ev.upTo >>= fun acks => when (acks = true) sendFaultAck >>= fun _ =>
      ev.rest := by
  cases ev with
  | faultInject f =>
    simp only [handler, handleFaultInject, before, upTo, rest]
    cases FaultInject.decode f.payload with
    | none => simp [when]
    | some fi => simp [when]
  | clearFaults => simp [handler, Firmware.clearFaults, before, upTo, rest, when]
  | expiry t =>
    simp only [handler, updateInjections, before, upTo, rest, when, bind_assoc]
    refine bind_congr fun s => bind_congr fun _ => bind_congr fun s => bind_congr fun kept => ?_
    refine bind_congr fun _ => bind_congr fun s' => ?_
    by_cases hmask : injectedMask kept ≠ s'.physics.injected
    · simp only [if_pos hmask, bind_assoc, pure_bind, decide_eq_true_eq]
    · simp [if_neg hmask]

/-! ## The state of the acknowledgement -/

/-- The state after the event, without what its log records have sent. -/
def AckEvent.after : AckEvent → Agent → Agent
  | faultInject f, s =>
    match FaultInject.decode f.payload with
    | none => s
    | some fi => s.inject fi (s.world.clock 0)
  | clearFaults, s => s.clearInjected
  | expiry t, s =>
    let kept := s.injections.filter fun i => !i.expired t
    (s.setInjections kept).setMask (injectedMask kept)

/-- Every event sets the mask but a FAULT_INJECT that is malformed. -/
def AckEvent.setsMask : AckEvent → Bool
  | faultInject f => (FaultInject.decode f.payload).isSome
  | clearFaults => true
  | expiry _ => true

/-- The members that the flags come from. -/
def Agent.ackView (s : Agent) : Physics × Telemetry × UInt32 × Option SysfsSensors × AgentOptions :=
  (s.physics, s.live, s.liveDetected, s.sensors, s.opts)

/-- While the channel stays up the flags stay what they are. -/
def Calm (s u : Agent) : Prop :=
  u.tcpState = .CONNECTED → s.tcpState = .CONNECTED ∧ u.ackView = s.ackView

instance : IsPreorder Agent Calm where
  refl _ h := ⟨h, rfl⟩
  trans _ _ _ h h' hup :=
    have hu := h' hup
    have hs := h hu.1
    ⟨hs.1, hu.2.trans hs.2⟩

/-- Sending raises and clears no flag while the channel stays up. -/
theorem Comm.calm {s u : Agent} (h : Comm s u) : Calm s u := by
  intro hup
  rcases h.channel with hk | ⟨-, hd⟩
  · refine ⟨hk.tcpState ▸ hup, ?_⟩
    have hphysics : u.physics = s.physics := by
      have hget := h.get (·.physics)
      rw [hget]
      show { s.physics with commDegraded := u.physics.commDegraded } = s.physics
      rw [hk.commDegraded]
    have hrest := h.get fun s => (s.live, s.liveDetected, s.sensors, s.opts)
    exact congrArg₂ Prod.mk hphysics hrest
  · exact nomatch hup.symm.trans hd.tcpState

theorem calm_log (lvl : LogLevel) (msg : List Byte) : Keeps Calm (log lvl msg) :=
  (comm_log lvl msg).weaken fun _ _ h => h.calm

/-- A FAULT_INJECT is answered, malformed or not. -/
theorem AckEvent.upTo_faultInject (f : Frame) (s : Agent) :
    ((faultInject f).upTo s).1 = .ok true := by
  rw [upTo]
  cases FaultInject.decode f.payload with
  | none =>
    dsimp only
    rw [unit_bind_run]
    rfl
  | some fi =>
    dsimp only
    rw [bind_run_ok (now_clock s), modify_bind_run, bind_run_ok (get_run _), unit_bind_run]
    rfl

/-- In the state of the acknowledgement the flags are those after the event. -/
theorem AckEvent.upTo_view (ev : AckEvent) (s : Agent) (hacks : (ev.upTo s).1 = .ok true)
    (hup : (ev.upTo s).2.tcpState = .CONNECTED) : (ev.upTo s).2.ackView = (ev.after s).ackView := by
  cases ev with
  | faultInject f =>
    rw [upTo] at hup ⊢
    rw [after]
    cases hdecode : FaultInject.decode f.payload with
    | none =>
      rw [hdecode] at hup
      dsimp only at hup ⊢
      rw [bind_pure_state] at hup ⊢
      exact (calm_log _ _ s hup).2
    | some fi =>
      rw [hdecode] at hup
      dsimp only at hup ⊢
      rw [bind_run_ok (now_clock s), modify_bind_run, bind_run_ok (get_run _),
        bind_pure_state] at hup ⊢
      exact (calm_log _ _ _ hup).2
  | clearFaults =>
    rw [upTo, modify_bind_run, bind_run_ok (get_run _), bind_pure_state] at hup ⊢
    exact (calm_log _ _ _ hup).2
  | expiry t =>
    rw [upTo, bind_run_ok (get_run s)] at hacks hup ⊢
    obtain ⟨s', hrun, -⟩ := expireInjections_run t s.injections s
    have hexpire : Keeps Calm (expireInjections t s.injections) := Keeps.collect fun _ _ =>
      Keeps.ite (fun _ => (calm_log _ _).bind fun _ => Keeps.pure _) fun _ => Keeps.pure _
    have hcalm := hexpire s
    rw [hrun] at hcalm
    rw [bind_run_ok hrun, modify_bind_run, bind_run_ok (get_run _)] at hacks hup ⊢
    split at hacks
    · next hmask =>
      rw [if_pos hmask, modify_bind_run] at hup ⊢
      obtain ⟨-, hview⟩ := hcalm hup
      -- the mask goes into the same plant
      simp only [Agent.ackView, Prod.mk.injEq] at hview
      obtain ⟨hphysics, hlive, hdetected, hsensors, hopts⟩ := hview
      show (s'.physics.setInjectedFaults _, s'.live, s'.liveDetected, s'.sensors, s'.opts) = _
      rw [hphysics, hlive, hdetected, hsensors, hopts]
      rfl
    · exact nomatch hacks

/-! ## The acknowledgement -/

/-- What `active_flags` has to be: it has the bits of the mask after the event,
    of the bits just removed only those that are detected or comm-degraded, and
    is the flags of a sample computed at that moment. -/
structure AckRight (s u : Agent) (r : SensorReading) : Prop where
  mask : u.physics.injected &&& ~~~u.current.faultFlags = 0
  removed : s.physics.injected &&& ~~~u.physics.injected &&& u.current.faultFlags &&&
    ~~~(u.detects r ||| F_COMM_DEGRADED) = 0
  sample : u.current.faultFlags = (u.resample r).current.faultFlags

instance (s u : Agent) (r : SensorReading) : Decidable (AckRight s u r) :=
  decidable_of_iff (_ ∧ _ ∧ _) ⟨fun ⟨h₁, h₂, h₃⟩ => ⟨h₁, h₂, h₃⟩, fun ⟨h₁, h₂, h₃⟩ => ⟨h₁, h₂, h₃⟩⟩

theorem eq_zero_of_bits {a : UInt32} (h : ∀ i, hasBit a i = false) : a = 0 := by
  refine UInt32.toBitVec_inj.mp (BitVec.eq_of_getLsbD_eq fun i hi => ?_)
  exact (h i).trans (hasBit_zero i).symm

/-- The flags of a sample computed at that moment are right in all respects. -/
theorem ackRight_iff {s u : Agent} {r : SensorReading} :
    AckRight s u r ↔ u.current.faultFlags = u.flagsNow r := by
  constructor
  · exact fun h => h.sample.trans (resample_flags r u)
  · intro h
    have hcomm : ∀ i, hasBit (if u.physics.commDegraded then F_COMM_DEGRADED else 0) i = true →
        hasBit F_COMM_DEGRADED i = true := by
      intro i hi
      split at hi
      · exact hi
      · exact absurd hi (by rw [hasBit_zero]; nofun)
    refine ⟨eq_zero_of_bits fun i => ?_, eq_zero_of_bits fun i =>
      ?_, h.trans (resample_flags r u).symm⟩
    · rw [h, Agent.flagsNow]
      simp only [hasBit_and, hasBit_not, hasBit_or]
      cases hasBit u.physics.injected i <;> simp
    · rw [h, Agent.flagsNow]
      simp only [hasBit_and, hasBit_not, hasBit_or]
      -- a bit that is neither injected nor detected is the comm-degraded one
      rcases hin : hasBit u.physics.injected i with _ | _
      · rcases hdet : hasBit (u.detects r) i with _ | _
        · rcases hbit : hasBit (if u.physics.commDegraded then F_COMM_DEGRADED else 0) i with _ | _
          · simp
          · simp [hcomm i hbit]
        · simp
      · simp

theorem flagsNow_congr {s u : Agent} (h : u.ackView = s.ackView) (r : SensorReading) :
    u.flagsNow r = s.flagsNow r := by
  simp only [Agent.ackView, Prod.mk.injEq] at h
  obtain ⟨hphysics, hlive, hdetected, hsensors, hopts⟩ := h
  simp only [Agent.flagsNow, Agent.detects, Agent.measure, Agent.detectLive, hphysics, hlive,
    hdetected, hsensors, hopts]

theorem current_congr {s u : Agent} (h : u.ackView = s.ackView) : u.current = s.current := by
  simp only [Agent.ackView, Prod.mk.injEq] at h
  obtain ⟨hphysics, hlive, -, hsensors, -⟩ := h
  rw [Agent.current, Agent.current, hphysics, hlive, hsensors]

/-- In plant mode setting the mask refreshes the flags. -/
theorem AckEvent.after_plant {ev : AckEvent} {s : Agent} (hmode : s.sensors = none)
    (hsets : ev.setsMask = true) (r : SensorReading) :
    (ev.after s).current.faultFlags = (ev.after s).flagsNow r := by
  -- every event that writes the mask recomputes the flags of the plant
  have hfresh : ∃ p : Physics, (ev.after s).physics = p.updateFlagsAndState := by
    cases ev with
    | faultInject f =>
      obtain ⟨fi, hdecode⟩ := Option.isSome_iff_exists.mp hsets
      rw [after, hdecode]
      exact ⟨_, rfl⟩
    | clearFaults => exact ⟨_, rfl⟩
    | expiry t => exact ⟨_, rfl⟩
  have hsensors : (ev.after s).sensors = none := by
    cases ev with
    | faultInject f =>
      rw [after]
      split
      · exact hmode
      · exact hmode
    | clearFaults => exact hmode
    | expiry t => exact hmode
  obtain ⟨p, hp⟩ := hfresh
  have hnone : ¬ (ev.after s).sensors.isSome = true := by rw [hsensors]; nofun
  have hdetects : (ev.after s).detects r = (ev.after s).physics.detect := if_neg fun h => hnone h.1
  rw [Agent.current, if_neg hnone, Agent.flagsNow, hdetects, hp]
  rfl

/-- Elsewhere the flags are what they were before the event. -/
theorem AckEvent.after_stale {ev : AckEvent} {s : Agent}
    (h : ¬ (s.sensors = none ∧ ev.setsMask = true)) : (ev.after s).current = s.current := by
  rcases hmode : s.sensors with _ | p
  · -- only a malformed FAULT_INJECT
    cases ev with
    | faultInject f =>
      cases hdecode : FaultInject.decode f.payload with
      | none => rw [after, hdecode]
      | some fi => exact absurd ⟨hmode, by rw [setsMask, hdecode]; rfl⟩ h
    | clearFaults => exact absurd ⟨hmode, rfl⟩ h
    | expiry t => exact absurd ⟨hmode, rfl⟩ h
  · have hsome : s.sensors.isSome = true := by rw [hmode]; rfl
    have hlive : s.current = s.live := if_pos hsome
    rw [hlive]
    -- with sensors the sample is `live_`, which no event touches
    cases ev with
    | faultInject f =>
      rw [after]
      split
      · exact hlive
      · exact if_pos hsome
    | clearFaults => exact if_pos hsome
    | expiry t => exact if_pos hsome

/-- Where FAULT_ACK is right: in plant mode after the mask was set; elsewhere if
    the flags of the last sample are already those after the event. -/
def AckEvent.Met (ev : AckEvent) (s : Agent) (r : SensorReading) : Prop :=
  s.sensors = none ∧ ev.setsMask = true ∨ s.current.faultFlags = (ev.after s).flagsNow r

/-- For every agent state, event and reading: the FAULT_ACK that the agent sends is
    right exactly under that condition. -/
theorem fault_ack_right_iff (ev : AckEvent) (s : Agent) (r : SensorReading)
    (hacks : (ev.upTo s).1 = .ok true) (hup : (ev.upTo s).2.tcpState = .CONNECTED) :
    AckRight s (ev.upTo s).2 r ↔ ev.Met s r := by
  have hview := ev.upTo_view s hacks hup
  rw [ackRight_iff, flagsNow_congr hview, current_congr hview, AckEvent.Met]
  by_cases hplant : s.sensors = none ∧ ev.setsMask = true
  · exact iff_of_true (AckEvent.after_plant hplant.1 hplant.2 r) (.inl hplant)
  · rw [AckEvent.after_stale hplant]
    exact (or_iff_right hplant).symm

/-- On the board, connected. -/
def boardAgent : Agent := .top { deviceId := [0x45] } {} (some zonePaths) zoneOnline 2

/-- FAULT_INJECT for VIBRATION_HIGH. -/
def injectVibration : AckEvent :=
  .faultInject
    { hdr := { msgType := MsgType.FAULT_INJECT, deviceId := [0x45], seq := 1, tsMs := 0,
               fwVersion := 0 }
      payloadLen := 12
      payload := FaultInject.encode
        { setFlags := F_VIBRATION_HIGH, clearFlags := 0, durationMs := 0 } }

/-- 52.5 degrees. -/
def boardReading : SensorReading := { ok := true, tempC := SysfsSensors.milli (F64.ofNat 52500) }

/-- The FAULT_ACK of the board does not have the bit that was just injected. -/
theorem fault_ack_misses_injected :
    (injectVibration.upTo boardAgent).2.tcpState = .CONNECTED ∧
      (injectVibration.upTo boardAgent).2.physics.injected = F_VIBRATION_HIGH ∧
      ¬ AckRight boardAgent (injectVibration.upTo boardAgent).2 boardReading := by
  decide +kernel

/-- The same FAULT_INJECT with the plant model. -/
theorem fault_ack_right_iff_plant :
    AckRight (.top { deviceId := [0x45] } {} none zoneOnline 2)
        (injectVibration.upTo (.top { deviceId := [0x45] } {} none zoneOnline 2)).2 {} ↔
      injectVibration.Met (.top { deviceId := [0x45] } {} none zoneOnline 2) {} :=
  fault_ack_right_iff injectVibration _ {} (AckEvent.upTo_faultInject _ _) (by decide +kernel)

end EcuTelemetry.Firmware
