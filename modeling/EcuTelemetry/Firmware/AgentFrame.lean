/-
  EcuTelemetry.Firmware.AgentFrame

  What most of the agent leaves alone.  A relation that communication and the
  bookkeeping stay within holds between the states before and after a handler, a
  tick and the timers; an update of any other kind is an argument of the lemma
  about the handler that makes it.
-/

import EcuTelemetry.Firmware.Comm

namespace EcuTelemetry.Firmware

open Printf Proc

/-! ## Kinds of updates -/

/-- Timers and counters. -/
inductive Aside (s : Agent) : Agent → Prop
  | startPeriod (t : ℚ) : Aside s (s.startPeriod t)
  | otaProgressAt (t : ℚ) : Aside s (s.otaProgressAt t)
  | setUdpFd (fd : ℤ) : Aside s (s.setUdpFd fd)
  | countSample : Aside s s.countSample
  | setDropRng (rng : Rng) : Aside s { s with dropRng := rng }
  | stepPlant (r : PlantReadings) : Aside s (s.stepPlant r)
  | advanceTick (t : ℚ) : Aside s (s.advanceTick t)
  | advanceHeartbeat : Aside s s.advanceHeartbeat
  | heartbeatAt (t : ℚ) : Aside s (s.heartbeatAt t)
  | rebootAt (t : ℚ) : Aside s (s.rebootAt t)
  | startTimers (t : ℚ) : Aside s (s.startTimers t)
  | countReconnect : Aside s s.countReconnect
  | connectFrom (t : ℚ) : Aside s (s.connectFrom t)

/-- The counters of a tick. -/
inductive Counted (s : Agent) : Agent → Prop
  | setUdpFd (fd : ℤ) : Counted s (s.setUdpFd fd)
  | countSample : Counted s s.countSample
  | setDropRng (rng : Rng) : Counted s { s with dropRng := rng }

/-- The configuration in use. -/
inductive Reconfigured (s : Agent) : Agent → Prop
  | configure (cs : ConfigSet) : Reconfigured s (s.configure cs)
  | setHz (hz : ℤ) : Reconfigured s (s.setHz hz)

/-- The fault injections. -/
inductive Reinjected (s : Agent) : Agent → Prop
  | inject (fi : FaultInject) (t : ℚ) : Reinjected s (s.inject fi t)
  | clearInjected : Reinjected s s.clearInjected
  | fire (f : FaultSpec) (t : ℚ) (i : ℕ) : Reinjected s (s.fire f t i)
  | setInjections (is : List Injection) : Reinjected s (s.setInjections is)
  | setMask (mask : UInt32) : Reinjected s (s.setMask mask)
  | tick (t : ℚ) (mask : UInt32) : Reinjected s (s.noted (.tick t mask))

theorem Counted.aside {s u : Agent} (h : Counted s u) : Aside s u := by
  cases h with
  | setUdpFd fd => exact .setUdpFd fd
  | countSample => exact .countSample
  | setDropRng rng => exact .setDropRng rng

theorem Counted.drawDrop (s : Agent) : Counted s s.drawDrop := by
  rw [Agent.drawDrop]
  split
  · exact .setDropRng _
  · exact .setDropRng s.dropRng

/-! ## Relations -/

/-- A log record that is none of `checkLocalAlerts`. -/
def plainText (msg : List Byte) : Bool := decide (msg.head? ≠ (str "ALERT").head?)

theorem plainText_take (msg : List Byte) (n : ℕ) :
    plainText (msg.take (n + 1)) = plainText msg := by
  cases msg with
  | nil => rfl
  | cons b msg => rfl

/-- The text of a failure is no alert. -/
theorem plainText_failText (connected : Bool) (why : List Byte) (s : Agent) :
    plainText (s.failText connected why) = true := by
  rw [Agent.failText]
  split
  · simp only [List.append_assoc]
    rfl
  · simp only [List.append_assoc]
    rfl

/-- Reading the world stays within `R`. -/
structure Asks (R : Agent → Agent → Prop) : Prop where
  world : ∀ s w, s.world.Leads w → R s (s.withWorld w)

/-- The counters and the log stay within `R`. -/
structure Counts (R : Agent → Agent → Prop) : Prop extends Asks R where
  counted : ∀ s s', Counted s s' → R s s'
  log : ∀ lvl msg, plainText msg = true → Keeps R (log lvl msg)

/-- Communication and bookkeeping stay within `R`. -/
structure Within (R : Agent → Agent → Prop) : Prop extends Asks R where
  aside : ∀ s s', Aside s s' → R s s'
  log : ∀ lvl msg, plainText msg = true → Keeps R (log lvl msg)
  tcpFlush : Keeps R tcpFlush
  sendHello : Keeps R sendHello
  sendHeartbeat : Keeps R sendHeartbeat
  sendFaultAck : Keeps R sendFaultAck
  sendFwAck : ∀ status version, Keeps R (sendFwAck status version)

/-- For a relation that holds across any communication. -/
theorem Within.ofComm {R : Agent → Agent → Prop} [IsPreorder Agent R]
    (hcomm : ∀ s s', Comm s s' → R s s') (haside : ∀ s s', Aside s s' → R s s') : Within R where
  aside := haside
  world s w _ := hcomm _ _ (comm_withWorld s w)
  log lvl msg _ := (comm_log lvl msg).weaken hcomm
  tcpFlush := comm_tcpFlush.weaken hcomm
  sendHello := comm_sendHello.weaken hcomm
  sendHeartbeat := comm_sendHeartbeat.weaken hcomm
  sendFaultAck := comm_sendFaultAck.weaken hcomm
  sendFwAck _ _ := (comm_sendFrame _ _).weaken hcomm

theorem Within.counts {R : Agent → Agent → Prop} (h : Within R) : Counts R where
  toAsks := h.toAsks
  counted s s' hc := h.aside s s' hc.aside
  log := h.log

/-- A weaker relation. -/
theorem Within.weaken {R S : Agent → Agent → Prop} (h : Within R) (hS : ∀ s s', R s s' → S s s') :
    Within S where
  aside s s' ha := hS _ _ (h.aside s s' ha)
  world s w hw := hS _ _ (h.world s w hw)
  log lvl msg hmsg := (h.log lvl msg hmsg).weaken hS
  tcpFlush := h.tcpFlush.weaken hS
  sendHello := h.sendHello.weaken hS
  sendHeartbeat := h.sendHeartbeat.weaken hS
  sendFaultAck := h.sendFaultAck.weaken hS
  sendFwAck status v := (h.sendFwAck status v).weaken hS

namespace Asks

variable {R : Agent → Agent → Prop} [IsPreorder Agent R]

omit [IsPreorder Agent R] in
theorem ask (h : Asks R) {α : Type} (part : World → Stream α)
    (put : World → Stream α → World) (hput : ∀ w x, (put w x).clock = w.clock) :
    Keeps R (Firmware.ask part put) := fun s => h.world s _ ⟨0, hput s.world _⟩

omit [IsPreorder Agent R] in
theorem now (h : Asks R) : Keeps R Firmware.now := fun s => h.world s _ ⟨1, rfl⟩

theorem makeHeader (h : Asks R) (msgType : UInt8) (seq : UInt32) :
    Keeps R (makeHeader msgType seq) :=
  (h.ask _ _ fun _ _ => by rfl).bind fun _ => Keeps.bind Keeps.get fun _ => Keeps.pure _

theorem readDouble (h : Asks R) (path : List Byte) : Keeps R (readDouble path) :=
  (h.ask _ _ fun _ _ => by rfl).bind fun _ => Keeps.pure _

theorem readPath (h : Asks R) (path : List Byte) : Keeps R (readPath path) :=
  Keeps.ite (fun _ => h.readDouble path) fun _ => Keeps.pure _

/-- The hottest zone of those that can be read. -/
theorem hottest (h : Asks R) (zones : List (List Byte × List Byte)) :
    ∀ hot, Keeps R (hottest hot zones) := by
  induction zones with
  | nil => exact fun _ => Keeps.pure _
  | cons zone zones ih =>
    intro hot
    refine (h.readDouble _).bind fun v => ?_
    cases v with
    | none => exact ih _
    | some v => exact ih _

theorem readTemp (h : Asks R) (p : SysfsSensors) (r : SensorReading) :
    Keeps R (p.readTemp r) := by
  rw [SysfsSensors.readTemp]
  refine (h.readPath p.tjPath).bind fun tj => ?_
  cases tj with
  | none => exact (h.hottest _ _).bind fun _ => Keeps.pure _
  | some v => exact Keeps.pure _

theorem readRail (h : Asks R) (p : SysfsSensors) (r : SensorReading) :
    Keeps R (p.readRail r) := by
  rw [SysfsSensors.readRail]
  refine (h.readPath p.vinPath).bind fun vin => ?_
  cases vin with
  | none => exact Keeps.pure _
  | some v => exact (h.readDouble _).bind fun _ => Keeps.pure _

theorem readFan (h : Asks R) (p : SysfsSensors) (r : SensorReading) :
    Keeps R (p.readFan r) := by
  rw [SysfsSensors.readFan]
  exact (h.readPath p.fanPath).bind fun _ => (h.readPath p.gpuLoadPath).bind fun _ => Keeps.pure _

theorem readSensor (h : Asks R) (p : SysfsSensors) : Keeps R p.read :=
  (h.readTemp p _).bind fun r => (h.readRail p r).bind fun r => h.readFan p r

end Asks

/-- For a relation that holds across any log record and any edge. -/
theorem keeps_checkLocalAlerts {R : Agent → Agent → Prop} [IsPreorder Agent R]
    (hprev : ∀ s det, R s (s.setPrevDetected det)) (hlog : ∀ lvl msg, Keeps R (log lvl msg)) :
    Keeps R checkLocalAlerts := by
  have hprev : ∀ det, Keeps R (modify (Agent.setPrevDetected det) : AgentM Unit) :=
    fun det s => hprev s det
  refine Keeps.bind Keeps.get fun s => (hprev _).bind fun _ => ?_
  rw [alertBits]
  exact Keeps.forEach fun bit _ => (Keeps.when fun _ => hlog _ _).bind fun _ =>
    Keeps.when fun _ => hlog _ _

namespace Counts

variable {R : Agent → Agent → Prop} [IsPreorder Agent R]

omit [IsPreorder Agent R] in
theorem update (h : Counts R) {f : Agent → Agent} (hf : ∀ s, Counted s (f s)) :
    Keeps R (modify f : AgentM Unit) := fun s => h.counted _ _ (hf s)

/-- The UDP socket. -/
theorem openUdp (h : Counts R) : Keeps R openUdp := by
  refine (h.ask _ _ fun _ _ => by rfl).bind fun found => ?_
  refine Keeps.ite (fun _ => (h.ask _ _ fun _ _ => by rfl).bind fun sock => ?_) fun _ =>
    Keeps.bind Keeps.get fun _ => (h.log _ _ rfl).bind fun _ => Keeps.pure _
  cases sock with
  | ok fd => exact (h.update fun _ => .setUdpFd _).bind fun _ => Keeps.pure _
  | error why =>
    exact (h.update fun _ => .setUdpFd _).bind fun _ => (h.log _ _ rfl).bind fun _ => Keeps.pure _

theorem udpReady (h : Counts R) : Keeps R udpReady :=
  Keeps.bind Keeps.get fun _ => Keeps.ite (fun _ => h.openUdp) fun _ => Keeps.pure _

theorem sendTelemetry (h : Counts R) (hsample : Keeps R sendSample) : Keeps R sendTelemetry :=
  h.udpReady.bind fun _ => Keeps.when fun _ => hsample

theorem sendSample (h : Counts R) (hemit : ∀ t seq, Keeps R (Firmware.emitSample t seq)) :
    Keeps R sendSample := by
  refine Keeps.bind Keeps.get fun s => (h.update fun _ => .countSample).bind fun _ => ?_
  exact (h.update Counted.drawDrop).bind fun _ =>
    Keeps.ite (fun _ => h.log _ _ rfl) fun _ => hemit _ _

/-- An error of `sendto` is only logged. -/
theorem emitSample (h : Counts R) (hnote : ∀ t frame s, R s (s.noted (.datagram t frame)))
    (t : Telemetry) (seq : UInt32) : Keeps R (emitSample t seq) := by
  have hnote : ∀ frame, Keeps R (note (.datagram t frame)) := hnote t
  refine (h.makeHeader _ _).bind fun hdr => (hnote _).bind fun _ =>
    (h.ask _ _ fun _ _ => by rfl).bind fun err => ?_
  cases err with
  | none => exact Keeps.pure ()
  | some why => exact h.log _ _ rfl

end Counts

namespace Within

variable {R : Agent → Agent → Prop} [IsPreorder Agent R]

omit [IsPreorder Agent R] in
theorem update (h : Within R) {f : Agent → Agent} (hf : ∀ s, Aside s (f s)) :
    Keeps R (modify f : AgentM Unit) := fun s => h.aside _ _ (hf s)

/-! ## Handlers -/

theorem applyHz (h : Within R) (hconf : ∀ s s', Reconfigured s s' → R s s') (hz : ℤ) :
    Keeps R (applyHz hz) := by
  have hset : ∀ hz, Keeps R (modify (Agent.setHz hz) : AgentM Unit) :=
    fun hz s => hconf _ _ (.setHz hz)
  exact (hset _).bind fun _ => h.now.bind fun t => h.update fun _ => .startPeriod t

theorem persist (h : Within R) : Keeps R persist := by
  refine Keeps.bind Keeps.get fun _ => Keeps.when fun _ =>
    (h.ask _ _ fun _ _ => by rfl).bind fun err => ?_
  cases err with
  | none => exact h.log _ _ rfl
  | some err => exact h.log _ _ rfl

/-- CONFIG_SET. -/
theorem handleConfigSet (h : Within R) (hconf : ∀ s s', Reconfigured s s' → R s s')
    (hack : ∀ v status, Keeps R (sendConfigAck v status)) (f : Frame) :
    Keeps R (handleConfigSet f) := by
  rw [Firmware.handleConfigSet]
  cases ConfigSet.decode f.payload with
  | none => exact (h.log _ _ rfl).bind fun _ => hack _ _
  | some cs =>
    refine Keeps.ite (fun _ => (h.log _ _ rfl).bind fun _ => hack _ _) fun _ => ?_
    have hset : Keeps R (modify (Agent.configure cs) : AgentM Unit) :=
      fun s => hconf _ _ (.configure cs)
    exact hset.bind fun _ => (h.applyHz hconf _).bind fun _ => Keeps.bind Keeps.get fun _ =>
      (h.log _ _ rfl).bind fun _ => h.persist.bind fun _ => hack _ _

/-- FAULT_INJECT. -/
theorem handleFaultInject (h : Within R) (hinj : ∀ s s', Reinjected s s' → R s s') (f : Frame) :
    Keeps R (handleFaultInject f) := by
  rw [Firmware.handleFaultInject]
  cases FaultInject.decode f.payload with
  | none => exact (h.log _ _ rfl).bind fun _ => h.sendFaultAck
  | some fi =>
    have hinject : ∀ t, Keeps R (modify (Agent.inject fi t) : AgentM Unit) :=
      fun t s => hinj _ _ (.inject fi t)
    exact h.now.bind fun t => (hinject t).bind fun _ => Keeps.bind Keeps.get fun _ =>
      (h.log _ _ rfl).bind fun _ => h.sendFaultAck

theorem clearFaults (h : Within R) (hinj : ∀ s s', Reinjected s s' → R s s') :
    Keeps R clearFaults := by
  have hclear : Keeps R (modify Agent.clearInjected : AgentM Unit) :=
    fun s => hinj _ _ .clearInjected
  exact hclear.bind fun _ => Keeps.bind Keeps.get fun _ => (h.log _ _ rfl).bind fun _ =>
    h.sendFaultAck

theorem requestHello (h : Within R) : Keeps R requestHello :=
  (h.log _ _ rfl).bind fun _ => h.sendHello

/-- CMD. -/
theorem handleCmd (h : Within R) (hinj : ∀ s s', Reinjected s s' → R s s')
    (hreboot : ∀ reason fw, Keeps R (startReboot reason fw)) (f : Frame) :
    Keeps R (handleCmd f) := by
  rw [Firmware.handleCmd]
  cases Cmd.decode f.payload with
  | none => exact h.log _ _ rfl
  | some c =>
    exact Keeps.ite (fun _ => hreboot _ _) fun _ => Keeps.ite (fun _ => h.clearFaults hinj) fun _ =>
      Keeps.ite (fun _ => h.requestHello) fun _ => h.log _ _ rfl

/-- `handleFwUpdate`, where an update is accepted under the conditions that it checks. -/
theorem handleFwUpdate (h : Within R) {f : Frame}
    (haccept : ∀ s fu target, FwUpdate.parse f.payload = some (fu, target) →
      ¬ target < s.fwVersion → s.ota.active = false → R s (acceptFwUpdate fu target s).2) :
    Keeps R (handleFwUpdate f) := by
  intro s
  have hreject : ∀ msg v, plainText msg = true → R s ((Firmware.log .WARN msg >>= fun _ =>
      Firmware.sendFwAck FwAckStatus.REJECTED v : AgentM Unit) s).2 := fun msg v hmsg =>
    (h.log .WARN msg hmsg).bind (fun _ => h.sendFwAck _ v) s
  rw [Firmware.handleFwUpdate, bind_run_ok (get_run s)]
  rcases hparse : FwUpdate.parse f.payload with _ | ⟨fu, target⟩
  · exact hreject _ _ rfl
  · dsimp only
    split
    · exact hreject _ _ rfl
    · next hlower =>
      split
      · exact hreject _ _ rfl
      · next hactive => exact haccept s fu target hparse hlower (Bool.not_eq_true _ ▸ hactive)

omit [IsPreorder Agent R] in
theorem dispatch (h : Within R) {f : Frame} (hconf : Keeps R (Firmware.handleConfigSet f))
    (hupdate : Keeps R (Firmware.handleFwUpdate f))
    (hinject : Keeps R (Firmware.handleFaultInject f)) (hcmd : Keeps R (Firmware.handleCmd f)) :
    Keeps R (dispatch f) :=
  Keeps.ite (fun _ => hconf) fun _ => Keeps.ite (fun _ => hupdate) fun _ =>
    Keeps.ite (fun _ => hinject) fun _ => Keeps.ite (fun _ => hcmd) fun _ => h.log _ _ rfl

/-- `handleFrame` ends with the configuration in use. -/
theorem handleFrame_run (h : Within R) (hrx : ∀ f v s, R s (s.noted (.rx f v)))
    (hdispatch : ∀ s, R s (s.noted .dispatch)) {f : Frame}
    (hswitch : Keeps R (Firmware.dispatch f)) (s : Agent) :
    ∃ u, R s u ∧ (handleFrame f s).2 = u.noted (.handled f u.running) := by
  have hnote : ∀ e, (∀ s, R s (s.noted e)) → Keeps R (note e) := fun e he => he
  have hbody : Keeps R (do
      note (.rx f s.fwVersion)
      Firmware.log .DEBUG (str "rx " ++ msgTypeName f.hdr.msgType ++ str " seq=" ++
        dec f.hdr.seq.toNat ++ str " len=" ++ dec f.payloadLen.toNat)
      note .dispatch
      Firmware.dispatch f : AgentM Unit) :=
    (hnote _ (hrx f s.fwVersion)).bind fun _ => (h.log _ _ rfl).bind fun _ =>
      (hnote _ hdispatch).bind fun _ => hswitch
  have hrun := hbody s
  rw [unit_bind_run, unit_bind_run, unit_bind_run] at hrun
  rw [handleFrame, bind_run_ok (get_run s), unit_bind_run, unit_bind_run, unit_bind_run,
    unit_bind_run]
  exact ⟨_, hrun, rfl⟩

/-- `handleFrame` from its parts. -/
theorem handleFrame (h : Within R) (hrx : ∀ f v s, R s (s.noted (.rx f v)))
    (hdispatch : ∀ s, R s (s.noted .dispatch)) (hhandled : ∀ f r s, R s (s.noted (.handled f r)))
    {f : Frame} (hswitch : Keeps R (Firmware.dispatch f)) : Keeps R (handleFrame f) := by
  intro s
  obtain ⟨u, hu, hrun⟩ := h.handleFrame_run hrx hdispatch hswitch s
  rw [hrun]
  exact trans_of R hu (hhandled f u.running u)

theorem closeTcp (h : Within R) (hfd : ∀ fd s, R s (s.setTcpFd fd)) : Keeps R closeTcp := by
  have hclose : Keeps R (modify (Agent.setTcpFd (-1)) : AgentM Unit) := hfd _
  exact Keeps.bind Keeps.get fun _ => Keeps.when fun _ => h.tcpFlush.bind fun _ => hclose

theorem startReboot (h : Within R) (hfd : ∀ fd s, R s (s.setTcpFd fd))
    (hquiet : ∀ s, R s s.goQuiet) (reason : List Byte) (fw : Bool) :
    Keeps R (startReboot reason fw) := by
  have hquiet : Keeps R (modify Agent.goQuiet : AgentM Unit) := hquiet
  exact (h.log _ _ rfl).bind fun _ => (h.closeTcp hfd).bind fun _ => hquiet.bind fun _ =>
    h.now.bind fun t => h.update fun _ => .rebootAt t

/-- `startReboot`: what it sends before the reset stays within `R`. -/
theorem startReboot_run (h : Within R) (hfd : ∀ fd s, R s (s.setTcpFd fd)) (reason : List Byte)
    (fw : Bool) (s : Agent) : ∃ s' t w, R s s' ∧ s'.world.Leads w ∧
      (Firmware.startReboot reason fw s).2 = (s'.goQuiet.withWorld w).rebootAt t := by
  have hclose : Keeps R (do
      Firmware.log .INFO (str "rebooting (" ++ reason ++ str ")" ++
        if fw then str " with new firmware" else [])
      Firmware.closeTcp : AgentM Unit) := (h.log _ _ rfl).bind fun _ => h.closeTcp hfd
  have hs := hclose s
  rw [unit_bind_run] at hs
  rw [Firmware.startReboot, unit_bind_run, unit_bind_run, modify_bind_run]
  generalize (Firmware.closeTcp _).2 = s' at hs ⊢
  obtain ⟨t, w, ht, hw⟩ := now_run s'.goQuiet
  exact ⟨s', t, w, hs, hw, by rw [bind_run_ok ht]; rfl⟩

/-- `acceptFwUpdate`, from where the download has its deadline. -/
theorem acceptFwUpdate (h : Within R) {fu : FwUpdate} {target : UInt32} {s : Agent}
    (hbegin : ∀ w t, s.world.Leads w →
      R s (((s.beginOta fu target).withWorld w).otaDoneAt t)) :
    R s (acceptFwUpdate fu target s).2 := by
  obtain ⟨t, w, ht, hleads⟩ := now_run (s.beginOta fu target)
  rw [Firmware.acceptFwUpdate, modify_bind_run, bind_run_ok ht, modify_bind_run]
  refine trans_of R (hbegin w (t + fu.downloadS) hleads) ?_
  refine Keeps.bind h.now (fun t => ?_) _
  refine (h.update fun _ => .otaProgressAt (t + 1)).bind fun _ => Keeps.bind Keeps.get fun _ => ?_
  exact (h.log _ _ rfl).bind fun _ => (h.sendFwAck _ _).bind fun _ => h.sendFwAck _ _

/-- `finishOta` from its parts. -/
theorem finishOta (h : Within R) (happlied : ∀ target t s, R s (s.noted (.applied target t)))
    (hcommit : ∀ s, R s s.commitOta)
    (hreboot : ∀ reason fw, Keeps R (Firmware.startReboot reason fw))
    (t : ℚ) : Keeps R (finishOta t) := by
  have hnote : ∀ target, Keeps R (note (.applied target t)) := fun target => happlied target t
  have hcommit : Keeps R (modify Agent.commitOta : AgentM Unit) := hcommit
  exact Keeps.bind Keeps.get fun s => (hnote _).bind fun _ => (h.sendFwAck _ _).bind fun _ =>
    (h.log _ _ rfl).bind fun _ => hcommit.bind fun _ => hreboot _ _

/-- `serviceOta`, up to the end of the download. -/
theorem serviceOta (h : Within R)
    (hfinish : ∀ t s, s.ota.active = true → s.tcpState = .CONNECTED → s.ota.doneAt ≤ t →
      R s (Firmware.finishOta t s).2) :
    Keeps R serviceOta := by
  intro s
  rw [Firmware.serviceOta, bind_run_ok (get_run s), when]
  split
  · next hactive =>
    obtain ⟨t, ht⟩ := exists_run_ok Firmware.now s
    rw [bind_run_ok ht]
    refine trans_of R (h.now s) ?_
    split
    · next hdue => exact hfinish t _ hactive.1 hactive.2 hdue
    · exact Keeps.when (fun _ => (h.sendFwAck _ _).bind fun _ =>
        h.update fun _ => .otaProgressAt _) _
  · exact refl_of R s

/-! ## The tick -/

/-- One fault of the schedule. -/
theorem fireFault (h : Within R) (hinj : ∀ s s', Reinjected s s' → R s s') (t : ℚ) (i : ℕ) :
    Keeps R (fireFault t i) := by
  refine Keeps.bind Keeps.get fun s => ?_
  cases s.opts.faults[i]? with
  | none => exact Keeps.pure ()
  | some f =>
    have hfire : Keeps R (modify (Agent.fire f t i) : AgentM Unit) :=
      fun s => hinj _ _ (.fire f t i)
    exact Keeps.when fun _ => hfire.bind fun _ => h.log _ _ rfl

theorem expireInjections (h : Within R) (t : ℚ) (is : List Injection) :
    Keeps R (expireInjections t is) :=
  Keeps.collect fun _ _ => Keeps.ite (fun _ => (h.log _ _ rfl).bind fun _ => Keeps.pure _) fun _ =>
    Keeps.pure _

/-- The schedule, then what has expired. -/
theorem updateInjections (h : Within R) (hinj : ∀ s s', Reinjected s s' → R s s') (t : ℚ) :
    Keeps R (updateInjections t) := by
  have hset : ∀ is, Keeps R (modify (Agent.setInjections is) : AgentM Unit) :=
    fun is s => hinj _ _ (.setInjections is)
  have hmask : ∀ m, Keeps R (modify (Agent.setMask m) : AgentM Unit) :=
    fun m s => hinj _ _ (.setMask m)
  have hnote : ∀ m, Keeps R (note (.tick t m)) := fun m s => hinj _ _ (.tick t m)
  refine Keeps.bind Keeps.get fun _ => ?_
  refine (Keeps.forEach fun i _ => h.fireFault hinj t i).bind fun _ => ?_
  refine Keeps.bind Keeps.get fun s => (h.expireInjections t s.injections).bind fun kept => ?_
  refine (hset kept).bind fun _ => Keeps.bind Keeps.get fun s' => ?_
  refine (Keeps.when fun _ => ?_).bind fun _ => Keeps.bind Keeps.get fun s'' => hnote _
  exact (hmask _).bind fun _ => Keeps.when fun _ => h.sendFaultAck

/-- `readSensors` from its parts. -/
theorem readSensors (h : Within R) (hnote : ∀ r s, R s (s.noted (.sensors r)))
    (hrebuild : ∀ s, R s s.rebuildLive) (hmeasure : ∀ r s, R s (s.measure r)) (p : SysfsSensors) :
    Keeps R (readSensors p) := by
  have hnote : ∀ r, Keeps R (note (.sensors r)) := hnote
  have hrebuild : Keeps R (modify Agent.rebuildLive : AgentM Unit) := hrebuild
  have hmeasure : ∀ r, Keeps R (modify (Agent.measure r) : AgentM Unit) := hmeasure
  exact (h.readSensor p).bind fun r => (hnote r).bind fun _ => hrebuild.bind fun _ =>
    Keeps.when fun _ => hmeasure r

/-- `tick` from its parts. -/
theorem tick (h : Within R) (hinj : Keeps R (Firmware.now >>= Firmware.updateInjections))
    (hread : ∀ p, Keeps R (Firmware.readSensors p)) (hcomputed : ∀ s, R s s.noteComputed)
    (hcheck : Keeps R Firmware.checkLocalAlerts) (hsample : Keeps R Firmware.sendSample) :
    Keeps R tick := by
  have hcomputed : Keeps R (modify Agent.noteComputed : AgentM Unit) := hcomputed
  have hrest : Keeps R (do
      modify Agent.noteComputed
      Firmware.checkLocalAlerts
      Firmware.sendTelemetry : AgentM Unit) :=
    hcomputed.bind fun _ => hcheck.bind fun _ => h.counts.sendTelemetry hsample
  intro s
  obtain ⟨t, ht⟩ := exists_run_ok Firmware.now s
  have htick := hinj s
  rw [bind_run_ok ht] at htick
  rw [Firmware.tick, bind_run_ok ht, unit_bind_run]
  refine trans_of R htick ?_
  refine ((h.ask _ _ fun _ _ => by rfl).bind fun r =>
    (h.update fun _ => .stepPlant r).bind fun _ => ?_) _
  refine Keeps.bind Keeps.get fun s => ?_
  cases s.sensors with
  | none => exact hrest
  | some p => exact (hread p).bind fun _ => hrest

theorem serveTimers (h : Within R) (htick : Keeps R Firmware.tick)
    (hota : Keeps R Firmware.serviceOta) (t : ℚ) : Keeps R (serveTimers t) := by
  refine Keeps.bind Keeps.get fun s => ?_
  refine (Keeps.when fun _ => htick.bind fun _ => h.update fun _ => .advanceTick t).bind fun _ => ?_
  refine Keeps.bind Keeps.get fun s => (Keeps.when fun _ => ?_).bind fun _ => hota
  exact h.sendHeartbeat.bind fun _ => h.update fun _ => .advanceHeartbeat

theorem completeBoot (h : Within R) (hend : ∀ t s, R s (s.endReboot t))
    (hinstall : ∀ s, R s s.install) (t : ℚ) : Keeps R (completeBoot t) := by
  have hend : Keeps R (modify (Agent.endReboot t) : AgentM Unit) := hend t
  have hinstall : Keeps R (modify Agent.install : AgentM Unit) := hinstall
  exact hend.bind fun _ => hinstall.bind fun _ => (h.update fun _ => .startTimers t).bind fun _ =>
    Keeps.bind Keeps.get fun _ => h.log _ _ rfl

/-- What follows HELLO when the channel comes up. -/
theorem afterHello (h : Within R) : Keeps R (do
    let t ← Firmware.now
    modify (Agent.heartbeatAt (t + kHeartbeatPeriodS))
    let s ← get
    Firmware.log .INFO (str "TCP control channel connected to " ++ s.opts.host ++ str ":" ++
      dec s.opts.tcpPort ++ str " (reconnects=" ++ dec s.reconnects.toNat ++
      str ")") : AgentM Unit) :=
  h.now.bind fun _ => (h.update fun _ => .heartbeatAt _).bind fun _ =>
    Keeps.bind Keeps.get fun _ => h.log _ _ rfl

/-- `tcpOnConnected` from its parts. -/
theorem tcpOnConnected (h : Within R) {s : Agent} (hup : R s (Firmware.sendHello s.goUp).2) :
    R s (tcpOnConnected s).2 := by
  rw [Firmware.tcpOnConnected, modify_bind_run, unit_bind_run]
  exact trans_of R hup (h.afterHello _)

/-! ## Runs -/

theorem start (h : Within R) (hstart : ∀ t s, R s (s.startAtTime t)) : Keeps R start := by
  have hstart : ∀ t, Keeps R (modify (Agent.startAtTime t) : AgentM Unit) := hstart
  exact h.now.bind fun t => (hstart t).bind fun _ =>
    (h.update fun _ => .startTimers t).bind fun _ =>
    h.counts.openUdp.bind fun _ => Keeps.bind Keeps.get fun _ => h.log _ _ (by
      simp only [List.append_assoc]
      rfl)

end Within

theorem keeps_rounds {R : Agent → Agent → Prop} [IsPreorder Agent R] (h : Keeps R loopBody) :
    ∀ n, Keeps R (rounds n)
  | 0 => Keeps.pure ()
  | n + 1 => h.bind fun _ => Keeps.when fun _ => keeps_rounds h n

/-- A longer run goes on from a shorter one, or both have left the loop. -/
theorem rounds_add (n k : ℕ) (s : Agent) :
    ∃ k', (rounds (n + k) s).2 = (rounds k' (rounds n s).2).2 := by
  induction n generalizing s with
  | zero => exact ⟨k, by rw [Nat.zero_add]; rfl⟩
  | succ n ih =>
    obtain ⟨go, hgo⟩ := exists_run_ok loopBody s
    rw [Nat.succ_add, rounds, rounds, bind_run_ok hgo, bind_run_ok hgo, when, when]
    split
    · exact ih _
    · exact ⟨0, rfl⟩

end EcuTelemetry.Firmware
