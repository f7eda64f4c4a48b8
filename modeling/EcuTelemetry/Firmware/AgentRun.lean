/-
  EcuTelemetry.Firmware.AgentRun

  The inbound messages, the connection and the main loop of agent.cpp.
-/

import EcuTelemetry.Firmware.Agent

namespace EcuTelemetry.Firmware

open Printf Proc

/-! ## Scheduling -/

def Agent.setHz (hz : ℤ) (s : Agent) : Agent :=
  { s with cfg := { s.cfg with hz := hz }, periodS := 1 / hz }

/-- The next tick is a period after `t`. -/
def Agent.startPeriod (t : ℚ) (s : Agent) : Agent := { s with nextTickAt := t + s.periodS }

/-- `applyHz`. -/
def applyHz (hz : ℤ) : AgentM Unit := do
  let hz := if hz < 1 then 1 else hz
  let hz := if hz > 1000 then 1000 else hz
  modify (Agent.setHz hz)
  let t ← now
  modify (Agent.startPeriod t)

/-! ## Inbound control messages -/

def Agent.setTcpFd (fd : ℤ) (s : Agent) : Agent := { s with tcpFd := fd }

/-- What `startReboot` resets. -/
def Agent.goQuiet (s : Agent) : Agent :=
  { s with
    tcpState := .DISCONNECTED, rx := [], tx := []
    ota := { s.ota with active := false }
    injections := []
    physics := (s.physics.setInjectedFaults 0).setCommDegraded true
    backoffS := kBackoffMinS
    rebooting := true
    trace := .closed :: s.trace }

def Agent.rebootAt (t : ℚ) (s : Agent) : Agent := { s with rebootUntil := t + kRebootDurationS }

/-- Send what is left and close. -/
def closeTcp : AgentM Unit := do
  let s ← get
  when (0 ≤ s.tcpFd) do
    let _ ← tcpFlush
    modify (Agent.setTcpFd (-1))

/-- `startReboot`. -/
def startReboot (reason : List Byte) (applyFw : Bool) : AgentM Unit := do
  log .INFO (str "rebooting (" ++ reason ++ str ")" ++
    if applyFw then str " with new firmware" else [])
  closeTcp
  modify Agent.goQuiet
  let t ← now
  modify (Agent.rebootAt t)

/-- The checks of `handleConfigSet`. -/
def ConfigSet.acceptable (cs : ConfigSet) : Bool :=
  decide (1 ≤ cs.telemetryHz) && decide (cs.telemetryHz ≤ 1000) && decide (cs.logLevel ≤ 3) &&
    cs.rpmLimit.isFinite && F32.zero.lt cs.rpmLimit && cs.tempLimitC.isFinite &&
    cs.currentLimitA.isFinite && F32.zero.lt cs.currentLimitA

/-- `cfg_`, the logger and the plant take the values. -/
def Agent.configure (cs : ConfigSet) (s : Agent) : Agent :=
  let limits : Limits :=
    { rpmLimit := cs.rpmLimit, tempLimitC := cs.tempLimitC, currentLimitA := cs.currentLimitA }
  { s with
    cfg := { s.cfg with
      configVersion := cs.configVersion, logLevel := .ofCode cs.logLevel, limits := limits }
    logLevel := .ofCode cs.logLevel
    physics := s.physics.setLimits limits }

/-- `saveConfigFile`, when there is a config path. -/
def persist : AgentM Unit := do
  let s ← get
  when (s.opts.configPath ≠ []) do
    let err ← ask (·.save) fun w x => { w with save := x }
    match err with
    | none => log .INFO (str "config persisted to " ++ s.opts.configPath ++ str ".applied")
    | some err => log .ERROR (str "config persist failed: " ++ err)

def handleConfigSet (f : Frame) : AgentM Unit :=
  match ConfigSet.decode f.payload with
  | none => do
    log .WARN (str "CONFIG_SET malformed (len=" ++ dec f.payload.length ++ str "); rejected")
    -- the version of the acknowledgement is still its default
    sendConfigAck 0 1
  | some cs =>
    if !cs.acceptable then do
      log .WARN (str "CONFIG_SET v" ++ dec cs.configVersion.toNat ++ str " rejected: hz=" ++
        dec cs.telemetryHz.toNat ++ str " log_level=" ++ dec cs.logLevel.toNat ++ str " rpm=" ++
        float 0 cs.rpmLimit ++ str " temp=" ++ float 1 cs.tempLimitC ++ str " cur=" ++
        float 1 cs.currentLimitA)
      sendConfigAck cs.configVersion 1
    else do
      modify (Agent.configure cs)
      applyHz cs.telemetryHz.toNat
      let s ← get
      log .INFO (str "CONFIG_SET v" ++ dec s.cfg.configVersion.toNat ++ str " applied: hz=" ++
        int s.cfg.hz ++ str " log_level=" ++ logLevelName s.cfg.logLevel ++ str " rpm_limit=" ++
        float 0 s.cfg.limits.rpmLimit ++ str " temp_limit=" ++ float 1 s.cfg.limits.tempLimitC ++
        str " current_limit=" ++ float 1 s.cfg.limits.currentLimitA)
      -- kept in a file before it is acknowledged
      persist
      sendConfigAck cs.configVersion 0

/-- The simulated download time. -/
def FwUpdate.downloadS (fu : FwUpdate) : ℚ := max 1 (fu.imageSizeBytes.toNat / kOtaBytesPerSecond)

/-- The decoded message and its parsed version. -/
def FwUpdate.parse (payload : List Byte) : Option (FwUpdate × UInt32) := do
  let fu ← FwUpdate.decode payload
  let target ← parseFwVersion fu.targetVersion
  return (fu, target)

/-- The download begins. -/
def Agent.beginOta (fu : FwUpdate) (target : UInt32) (s : Agent) : Agent :=
  { s with
    ota := { s.ota with active := true, target := fu.targetVersion, targetVersion := target }
    trace := .accepted fu.targetVersion :: s.trace }

def Agent.otaDoneAt (t : ℚ) (s : Agent) : Agent :=
  { s with ota := { s.ota with doneAt := t }, trace := .due t :: s.trace }

def Agent.otaProgressAt (t : ℚ) (s : Agent) : Agent :=
  { s with ota := { s.ota with nextProgressAt := t } }

/-- `handleFwUpdate` from the acceptance on. -/
def acceptFwUpdate (fu : FwUpdate) (target : UInt32) : AgentM Unit := do
  modify (Agent.beginOta fu target)
  -- the clock is read for each of the two times
  let t ← now
  modify (Agent.otaDoneAt (t + fu.downloadS))
  let t ← now
  modify (Agent.otaProgressAt (t + 1))
  let s ← get
  log .INFO (str "FW_UPDATE accepted: " ++ s.fwString ++ str " -> " ++ s.ota.target ++ str ", " ++
    dec fu.imageSizeBytes.toNat ++ str " bytes crc=0x" ++ hex 8 fu.imageCrc.toNat ++
    str ", simulated download " ++ double 1 fu.downloadS ++ str "s")
  sendFwAck FwAckStatus.ACCEPTED fu.targetVersion
  sendFwAck FwAckStatus.DOWNLOADING fu.targetVersion

def handleFwUpdate (f : Frame) : AgentM Unit := do
  let s ← get
  match FwUpdate.parse f.payload with
  | none => do
    -- a payload too short for the text leaves it empty
    let target := ((FwUpdate.decode f.payload).map FwUpdate.targetVersion).getD []
    log .WARN (str "FW_UPDATE rejected: malformed (target='" ++ target ++ str "')")
    sendFwAck FwAckStatus.REJECTED s.fwString
  | some (fu, target) =>
    -- the running version itself is accepted
    if target < s.fwVersion then do
      log .WARN (str "FW_UPDATE rejected: target " ++ fu.targetVersion ++
        str " is lower than running " ++ s.fwString)
      sendFwAck FwAckStatus.REJECTED fu.targetVersion
    else if s.ota.active then do
      log .WARN (str "FW_UPDATE rejected: OTA to " ++ s.ota.target ++ str " already in progress")
      sendFwAck FwAckStatus.REJECTED fu.targetVersion
    else acceptFwUpdate fu target

/-- The target waits for the boot. -/
def Agent.commitOta (s : Agent) : Agent :=
  { s with ota := { s.ota with active := false }, pendingFw := s.ota.target }

/-- The end of a download in `serviceOta`. -/
def finishOta (t : ℚ) : AgentM Unit := do
  let s ← get
  note (.applied s.ota.target t)
  sendFwAck FwAckStatus.APPLIED s.ota.target
  log .INFO (str "firmware " ++ s.ota.target ++ str " applied, rebooting")
  modify Agent.commitOta
  startReboot (str "firmware update") true

/-- `serviceOta`. -/
def serviceOta : AgentM Unit := do
  let s ← get
  when (s.ota.active = true ∧ s.tcpState = .CONNECTED) do
    let t ← now
    if s.ota.doneAt ≤ t then finishOta t
    else when (s.ota.nextProgressAt ≤ t) do
      sendFwAck FwAckStatus.DOWNLOADING s.ota.target
      modify (Agent.otaProgressAt (t + 1))

/-- The injected mask of a list of injections. -/
def injectedMask (is : List Injection) : UInt32 := is.foldl (fun mask i => mask ||| i.flags) 0

/-- `clear_flags`, then `set_flags`. -/
def inject (fi : FaultInject) (t : ℚ) (is : List Injection) : List Injection :=
  let cleared :=
    if fi.clearFlags ≠ 0 then
      (is.map fun i => { i with flags := i.flags &&& ~~~fi.clearFlags }).filter (·.flags ≠ 0)
    else is
  if fi.setFlags ≠ 0 then
    let expiresAt := if fi.durationMs ≠ 0 then t + fi.durationMs.toNat / 1000 else 0
    cleared ++ [{ flags := fi.setFlags &&& F_ALL, expiresAt }]
  else cleared

def Agent.inject (fi : FaultInject) (t : ℚ) (s : Agent) : Agent :=
  { s with
    injections := Firmware.inject fi t s.injections
    physics := s.physics.setInjectedFaults (injectedMask (Firmware.inject fi t s.injections))
    trace := .inject fi t :: s.trace }

def handleFaultInject (f : Frame) : AgentM Unit :=
  match FaultInject.decode f.payload with
  | none => do
    log .WARN (str "FAULT_INJECT malformed (len=" ++ dec f.payload.length ++ str ")")
    -- a malformed request is answered with the flags as they are
    sendFaultAck
  | some fi => do
    let t ← now
    modify (Agent.inject fi t)
    let s ← get
    log .WARN (str "FAULT_INJECT set=" ++ faultFlagsToString fi.setFlags ++ str " clear=" ++
      faultFlagsToString fi.clearFlags ++ str " duration=" ++ dec fi.durationMs.toNat ++
      str "ms -> active=" ++ faultFlagsToString s.physics.faultFlags)
    sendFaultAck

def Agent.clearInjected (s : Agent) : Agent :=
  { s with
    injections := [], physics := s.physics.setInjectedFaults 0, trace := .cleared :: s.trace }

/-- CMD clear_faults. -/
def clearFaults : AgentM Unit := do
  modify Agent.clearInjected
  let s ← get
  log .INFO (str "CMD clear_faults: injected faults cleared (active=" ++
    faultFlagsToString s.physics.faultFlags ++ str ")")
  sendFaultAck

/-- CMD request_hello. -/
def requestHello : AgentM Unit := do
  log .INFO (str "CMD request_hello")
  sendHello

def handleCmd (f : Frame) : AgentM Unit :=
  match Cmd.decode f.payload with
  | none => log .WARN (str "CMD malformed (len=" ++ dec f.payload.length ++ str ")")
  | some c =>
    if c.cmd = CmdCode.REBOOT then startReboot (str "CMD reboot") false
    else if c.cmd = CmdCode.CLEAR_FAULTS then clearFaults
    else if c.cmd = CmdCode.REQUEST_HELLO then requestHello
    else log .WARN (str "CMD unknown code " ++ dec c.cmd.toNat)

/-- The `switch` of `handleFrame`. -/
def dispatch (f : Frame) : AgentM Unit :=
  if f.hdr.msgType = MsgType.CONFIG_SET then handleConfigSet f
  else if f.hdr.msgType = MsgType.FW_UPDATE then handleFwUpdate f
  else if f.hdr.msgType = MsgType.FAULT_INJECT then handleFaultInject f
  else if f.hdr.msgType = MsgType.CMD then handleCmd f
  else log .WARN (str "ignoring unexpected " ++ msgTypeName f.hdr.msgType ++ str " (0x" ++
    hex 2 f.hdr.msgType.toNat ++ str ") on control channel")

def handleFrame (f : Frame) : AgentM Unit := do
  let s ← get
  note (.rx f s.fwVersion)
  log .DEBUG (str "rx " ++ msgTypeName f.hdr.msgType ++ str " seq=" ++ dec f.hdr.seq.toNat ++
    str " len=" ++ dec f.payloadLen.toNat)
  note .dispatch
  dispatch f
  let s ← get
  note (.handled f s.running)

/-! ## Receiving -/

def Agent.setRx (data : List Byte) (s : Agent) : Agent := { s with rx := data }

/-- The parse loop of `tcpRead` on the bytes of `rx_` from `off` on.  A frame
    takes some bytes, so as many rounds as there are bytes are enough. -/
def parseLoop : ℕ → List Byte → AgentM Unit
  | 0, data => modify (Agent.setRx data)
  | rounds + 1, data =>
    match decodeFrame data with
    | .error .TOO_SHORT => modify (Agent.setRx data)
    | .error e => do
      modify (Agent.setRx [])
      tcpFail (decodeErrorName e)
    | .ok (f, used) => do
      handleFrame f
      let s ← get
      -- the frame may have closed the channel, and `rx_` with it
      when (s.tcpState = .CONNECTED) (parseLoop rounds (data.drop used))

/-- The loop of `tcpRead` over what `recv` answers; `false` is `return`. -/
def recvLoop : List (Io (List Byte)) → AgentM Bool
  | [] => return true
  | .wouldBlock :: _ => return true
  | .error why :: _ => do
    tcpFail why
    return false
  | .done bytes :: rs =>
    -- `recv` returns 0 at the end of the stream
    if bytes = [] then do
      tcpFail (str "peer closed")
      return false
    else do
      let s ← get
      modify (Agent.setRx (s.rx ++ bytes))
      -- what was read before stays unhandled
      if (s.rx ++ bytes).length > kRxLimit then do
        tcpFail (str "rx buffer overflow")
        return false
      else recvLoop rs

def tcpRead : AgentM Unit := do
  let answers ← ask (·.recv) fun w x => { w with recv := x }
  let go ← recvLoop answers
  let s ← get
  when (go = true) (parseLoop s.rx.length s.rx)

/-! ## Connecting -/

/-- The channel is up. -/
def Agent.goUp (s : Agent) : Agent :=
  { s with
    tcpState := .CONNECTED, everConnected := true, backoffS := kBackoffMinS, rx := [], tx := []
    physics := s.physics.setCommDegraded false
    trace := .connected :: s.trace }

def Agent.heartbeatAt (t : ℚ) (s : Agent) : Agent := { s with nextHeartbeatAt := t }

def tcpOnConnected : AgentM Unit := do
  modify Agent.goUp
  sendHello
  let t ← now
  modify (Agent.heartbeatAt (t + kHeartbeatPeriodS))
  let s ← get
  log .INFO (str "TCP control channel connected to " ++ s.opts.host ++ str ":" ++
    dec s.opts.tcpPort ++ str " (reconnects=" ++ dec s.reconnects.toNat ++ str ")")

/-- `if (ever_connected_) ++reconnects_`. -/
def Agent.countReconnect (s : Agent) : Agent :=
  { s with reconnects := if s.everConnected then s.reconnects + 1 else s.reconnects }

def Agent.connectFrom (t : ℚ) (s : Agent) : Agent := { s with connectStartedAt := t }

def Agent.setConnecting (s : Agent) : Agent := { s with tcpState := .CONNECTING }

/-- `connect`, with the assignments before it. -/
def callConnect : AgentM Connect := do
  modify Agent.countReconnect
  let t ← now
  modify (Agent.connectFrom t)
  ask (·.connect) fun w x => { w with connect := x }

/-- `tcpStartConnect` with a socket. -/
def connectSocket (fd : ℕ) : AgentM Unit := do
  modify (Agent.setTcpFd fd)
  let rc ← callConnect
  match rc with
  | .done => do
    modify Agent.setConnecting
    tcpOnConnected
  | .inProgress => modify Agent.setConnecting
  | .error why => tcpFail why

def tcpStartConnect : AgentM Unit := do
  let found ← resolve
  if found then do
    let sock ← socket
    match sock with
    | .ok fd => connectSocket fd
    | .error _ => do
      modify (Agent.setTcpFd (-1))
      tcpFail (str "socket() failed")
  else tcpFail (str "cannot resolve host")

def tcpFinishConnect : AgentM Unit := do
  let err ← ask (·.soError) fun w x => { w with soError := x }
  match err with
  | some why => tcpFail why
  | none => tcpOnConnected

/-- `tcpService` after `select`. -/
def serveSocket (readable writable : Bool) : AgentM Unit := do
  let s ← get
  if s.tcpFd < 0 then pure ()
  else if s.tcpState = .CONNECTING then
    if writable then tcpFinishConnect
    else do
      let t ← now
      when (kConnectTimeoutS < t - s.connectStartedAt) (tcpFail (str "connect timeout"))
  else do
    -- the sets that `select` got: reading when connected, writing when there is something to send
    when (readable = true ∧ s.tcpState = .CONNECTED) tcpRead
    let s' ← get
    when (0 ≤ s'.tcpFd ∧ writable = true ∧ s.tx ≠ []) do
      let _ ← tcpFlush
      pure ()

/-- `tcpService`. -/
def tcpService : AgentM Unit := do
  let t ← now
  let s ← get
  if s.rebooting then pure ()
  else do
    when (s.tcpState = .DISCONNECTED ∧ s.nextConnectAt ≤ t) tcpStartConnect
    let answer ← ask (·.select) fun w x => { w with select := x }
    match answer with
    | .interrupted => pure ()
    | .error why => log .ERROR (str "select: " ++ why)
    | .ready readable writable => serveSocket readable writable

/-! ## Telemetry -/

def Agent.setUdpFd (fd : ℤ) (s : Agent) : Agent := { s with udpFd := fd }

/-- `openUdp`. -/
def openUdp : AgentM Bool := do
  let found ← resolve
  if found then do
    let sock ← socket
    match sock with
    | .ok fd => do
      modify (Agent.setUdpFd fd)
      return true
    | .error why => do
      modify (Agent.setUdpFd (-1))
      log .ERROR (str "udp socket: " ++ why)
      return false
  else do
    let s ← get
    log .ERROR (str "cannot resolve " ++ s.opts.host ++
      str " for UDP; telemetry disabled until resolution succeeds")
    return false

/-- `udp_seq_++` and `++frames_sent_`. -/
def Agent.countSample (s : Agent) : Agent :=
  { s with udpSeq := s.udpSeq + 1, framesSent := s.framesSent + 1 }

/-- `drop_rate > 0 && ..` draws a number only when there is a rate. -/
def Agent.drawDrop (s : Agent) : Agent :=
  if 0 < s.opts.dropRate then { s with dropRng := s.dropRng.uniform.2 } else s

/-- A telemetry frame goes out. -/
def emitSample (sample : Telemetry) (seq : UInt32) : AgentM Unit := do
  let hdr ← makeHeader MsgType.TELEMETRY seq
  note (.datagram sample (encodeFrame hdr sample.encode))
  let err ← ask (·.sendto) fun w x => { w with sendto := x }
  match err with
  | none => pure ()
  | some why => log .DEBUG (str "udp sendto: " ++ why)

/-- `sendTelemetry` with a socket. -/
def sendSample : AgentM Unit := do
  let s ← get
  modify Agent.countSample
  modify Agent.drawDrop
  if 0 < s.opts.dropRate ∧ s.dropRng.uniform.1 < s.opts.dropRate then
    log .DEBUG (str "telemetry seq=" ++ dec s.udpSeq.toNat ++ str " dropped (simulated loss)")
  else emitSample s.current s.udpSeq

/-- A socket is open, or can be opened. -/
def udpReady : AgentM Bool := do
  let s ← get
  if s.udpFd < 0 then openUdp else return true

/-- `sendTelemetry`. -/
def sendTelemetry : AgentM Unit := do
  let ready ← udpReady
  when (ready = true) sendSample

/-- The margin of a threshold check of `readSensors`. -/
def overLimit (was bit : UInt32) (x limit margin : F32) : Bool :=
  if was &&& bit ≠ 0 then (limit.sub margin).lt x else limit.lt x

/-- The threshold checks of `readSensors` on the measured fields of `live_`. -/
def Agent.detectLive (s : Agent) : UInt32 :=
  let l := s.physics.limits
  let was := s.liveDetected
  let uv := s.opts.undervoltageV.toFloat
  -- a latched bit clears at its limit and a margin
  let low := if was &&& F_UNDERVOLTAGE ≠ 0 then s.live.voltageV.lt (uv.add ⟨0x3DCCCCCD⟩)
    else s.live.voltageV.lt uv
  bits
    [(overLimit was F_OVERTEMP s.live.tempC l.tempLimitC ⟨0x3F800000⟩, F_OVERTEMP),
     (overLimit was F_OVERCURRENT s.live.currentA l.currentLimitA
       (F32.mul ⟨0x3D4CCCCD⟩ l.currentLimitA),
      F_OVERCURRENT),
     (F64.lt ⟨0⟩ s.opts.undervoltageV && F32.zero.lt s.live.voltageV && low, F_UNDERVOLTAGE),
     (overLimit was F_ENCODER_FAULT s.live.rpm l.rpmLimit (F32.mul ⟨0x3CA3D70A⟩ l.rpmLimit),
      F_ENCODER_FAULT)]

/-- The measured fields over a sample. -/
def Telemetry.measured (t : Telemetry) (r : SensorReading) : Telemetry :=
  { t with
    tempC := r.tempC, voltageV := r.voltageV, currentA := r.currentA, rpm := r.rpm
    vibrationG := F32.zero, speedKph := F32.zero, lat := ⟨0⟩, lon := ⟨0⟩ }

/-- `live_ = physics_.sample()`. -/
def Agent.rebuildLive (s : Agent) : Agent := { s with live := s.physics.sample }

/-- `readSensors` after a successful reading. -/
def Agent.measure (r : SensorReading) (s : Agent) : Agent :=
  let s := { s with live := s.live.measured r }
  let det := s.detectLive
  let flags := det ||| s.physics.injected ||| (s.physics.faultFlags &&& F_COMM_DEGRADED)
  let state :=
    if flags &&& kHardFaults ≠ 0 then DeviceState.FAULT
    else if flags &&& F_COMM_DEGRADED ≠ 0 then DeviceState.DEGRADED
    else DeviceState.RUNNING
  { s with liveDetected := det, live := { s.live with faultFlags := flags, state } }

/-- `readSensors`. -/
def readSensors (paths : SysfsSensors) : AgentM Unit := do
  let r ← paths.read
  note (.sensors r)
  modify Agent.rebuildLive
  when (r.ok = true) (modify (Agent.measure r))

/-- The log record of a rising edge. -/
def alertText (bit : UInt32) (t : Telemetry) (l : Limits) : List Byte :=
  if bit = F_OVERTEMP then
    str "ALERT OVERTEMP: temp " ++ float 1 t.tempC ++ str "C > limit " ++ float 1 l.tempLimitC ++
      str "C"
  else if bit = F_OVERCURRENT then
    str "ALERT OVERCURRENT: current " ++ float 1 t.currentA ++ str "A > limit " ++
      float 1 l.currentLimitA ++ str "A"
  else if bit = F_UNDERVOLTAGE then
    str "ALERT UNDERVOLTAGE: bus " ++ float 1 t.voltageV ++ str "V"
  else if bit = F_VIBRATION_HIGH then
    str "ALERT VIBRATION_HIGH: " ++ float 2 t.vibrationG ++ str "g"
  else if bit = F_ENCODER_FAULT then
    str "ALERT ENCODER_FAULT: rpm " ++ float 0 t.rpm ++ str " > limit " ++ float 0 l.rpmLimit
  else str "ALERT " ++ faultName bit

/-- The loop of `checkLocalAlerts`: the bits up to F_ENCODER_FAULT. -/
def alertBits (rose fell : UInt32) (t : Telemetry) (l : Limits) : AgentM Unit :=
  forEach ((List.range 8).map fun i => (1 : UInt32) <<< UInt32.ofNat i) fun bit => do
    when (rose &&& bit ≠ 0) (log .WARN (alertText bit t l))
    when (fell &&& bit ≠ 0) (log .INFO (str "ALERT cleared: " ++ faultName bit))

def Agent.setPrevDetected (det : UInt32) (s : Agent) : Agent := { s with prevDetected := det }

/-- `checkLocalAlerts`. -/
def checkLocalAlerts : AgentM Unit := do
  let s ← get
  let det := s.currentDetected
  modify (Agent.setPrevDetected det)
  alertBits (det &&& ~~~s.prevDetected) (s.prevDetected &&& ~~~det) s.current s.physics.limits

def Agent.fire (f : FaultSpec) (t : ℚ) (i : ℕ) (s : Agent) : Agent :=
  { s with
    cliFaultFired := s.cliFaultFired.set i true
    injections := s.injections ++
      [{ flags := f.flag, expiresAt := if 0 < f.durS then t + f.durS else 0 }]
    trace := .fired i f t :: s.trace }

/-- One `--fault` entry in `updateInjections`. -/
def fireFault (t : ℚ) (i : ℕ) : AgentM Unit := do
  let s ← get
  match s.opts.faults[i]? with
  | none => pure ()
  | some f =>
    when (¬ (s.cliFaultFired.getD i false = true ∨ t - s.startAt < f.startS)) do
      modify (Agent.fire f t i)
      log .WARN (str "fault injected (cli): " ++ faultName f.flag ++ str " for " ++
        double 1 f.durS ++ str "s")

/-- An injection has run out. -/
def Injection.expired (t : ℚ) (i : Injection) : Bool := decide (0 < i.expiresAt ∧ i.expiresAt ≤ t)

/-- The second loop of `updateInjections`: what has not run out. -/
def expireInjections (t : ℚ) (is : List Injection) : AgentM (List Injection) :=
  collect is fun i =>
    if i.expired t then do
      log .INFO (str "fault expired: " ++ faultFlagsToString i.flags)
      pure []
    else pure [i]

def Agent.setInjections (is : List Injection) (s : Agent) : Agent := { s with injections := is }

def Agent.setMask (mask : UInt32) (s : Agent) : Agent :=
  { s with physics := s.physics.setInjectedFaults mask }

/-- `updateInjections`. -/
def updateInjections (t : ℚ) : AgentM Unit := do
  let s ← get
  -- scheduled faults first, so that one may fire and expire in one tick
  forEach (List.range s.opts.faults.length) (fireFault t)
  let s ← get
  let kept ← expireInjections t s.injections
  modify (Agent.setInjections kept)
  let s' ← get
  when (injectedMask kept ≠ s'.physics.injected) do
    modify (Agent.setMask (injectedMask kept))
    -- announced only where something expired, and the mask changed
    when (kept.length < s.injections.length ∧ s'.tcpState = .CONNECTED) sendFaultAck
  let s ← get
  note (.tick t s.physics.injected)

def Agent.stepPlant (r : PlantReadings) (s : Agent) : Agent :=
  { s with physics := s.physics.step r }

/-- The sources of the flags. -/
def Agent.flagSources (s : Agent) : FlagSources :=
  { injected := s.physics.injected, detected := s.currentDetected,
    plantDetected := s.physics.detected, commDegraded := s.physics.commDegraded }

def Agent.noteComputed (s : Agent) : Agent := s.noted (.computed s.flagSources)

/-- `tick`. -/
def tick : AgentM Unit := do
  let t ← now
  updateInjections t
  let readings ← ask (·.plant) fun w x => { w with plant := x }
  modify (Agent.stepPlant readings)
  let s ← get
  -- real sensors, where there are some, overwrite the plant sample
  match s.sensors with
  | some paths => readSensors paths
  | none => pure ()
  modify Agent.noteComputed
  checkLocalAlerts
  sendTelemetry

/-! ## Main loop -/

def Agent.endReboot (t : ℚ) (s : Agent) : Agent := { s with rebooting := false, bootAt := t }

/-- The pending firmware is installed. -/
def Agent.install (s : Agent) : Agent :=
  let fw := (parseFwVersion s.pendingFw).getD s.fwVersion
  if s.pendingFw ≠ [] then
    { s with
      fwVersion := fw, fwString := fwVersionToString fw, pendingFw := []
      trace := .booted s.pendingFw :: s.trace }
  else { s with trace := .booted [] :: s.trace }

/-- The first tick is a period after `t`, and the first connection attempt at once. -/
def Agent.startTimers (t : ℚ) (s : Agent) : Agent :=
  { s with nextTickAt := t + s.periodS, nextConnectAt := t }

/-- The simulated reboot is over. -/
def completeBoot (t : ℚ) : AgentM Unit := do
  modify (Agent.endReboot t)
  modify Agent.install
  modify (Agent.startTimers t)
  let s ← get
  log .INFO (str "boot complete, fw=" ++ s.fwString)

/-- `next_tick_at_` after a tick; an agent that has fallen far behind starts anew. -/
def Agent.advanceTick (t : ℚ) (s : Agent) : Agent :=
  let next := s.nextTickAt + s.periodS
  { s with nextTickAt := if next < t - 1 then t + s.periodS else next }

def Agent.advanceHeartbeat (s : Agent) : Agent :=
  { s with nextHeartbeatAt := s.nextHeartbeatAt + kHeartbeatPeriodS }

/-- The timers of the main loop. -/
def serveTimers (t : ℚ) : AgentM Unit := do
  let s ← get
  when (s.nextTickAt ≤ t) do
    tick
    modify (Agent.advanceTick t)
  let s ← get
  when (s.tcpState = .CONNECTED ∧ s.nextHeartbeatAt ≤ t) do
    sendHeartbeat
    modify Agent.advanceHeartbeat
  serviceOta

/-- One round of the main loop; `false` leaves it. -/
def loopBody : AgentM Bool := do
  let stop ← ask (·.stop) fun w x => { w with stop := x }
  if stop then return false
  else do
    let t ← now
    let s ← get
    if 0 < s.opts.durationS ∧ s.opts.durationS ≤ t - s.startAt then do
      log .INFO (str "duration " ++ double 1 s.opts.durationS ++ str "s elapsed, exiting")
      return false
    else do
      when (s.rebooting = true ∧ s.rebootUntil ≤ t) (completeBoot t)
      let s ← get
      when (s.rebooting = false) (serveTimers t)
      -- the time that `select` gets
      let _ ← now
      tcpService
      return true

def Agent.startAtTime (t : ℚ) (s : Agent) : Agent := { s with startAt := t, bootAt := t }

/-- `run` up to the loop. -/
def start : AgentM Unit := do
  let t ← now
  modify (Agent.startAtTime t)
  modify (Agent.startTimers t)
  -- without a UDP socket the agent runs on; `sendTelemetry` tries again
  let _ ← openUdp
  let s ← get
  log .INFO (str "ecu_agent " ++ s.opts.deviceId ++ str " starting: fw=" ++ s.fwString ++
    str " hw=" ++ s.opts.hw ++ str " profile=" ++ s.opts.profileName ++
      str " hz=" ++ int s.cfg.hz ++
    str " seed=" ++ dec s.opts.seed.toNat ++ str " udp=" ++ s.opts.host ++ str ":" ++
    dec s.opts.udpPort ++ str " tcp=" ++ s.opts.host ++ str ":" ++ dec s.opts.tcpPort ++
    str " drop=" ++ double 2 s.opts.dropRate)

/-- Rounds of the main loop, until one leaves it. -/
def rounds : ℕ → AgentM Unit
  | 0 => pure ()
  | n + 1 => do
    let go ← loopBody
    when (go = true) (rounds n)

/-- The members that the constructor sets. -/
def Agent.new (opts : AgentOptions) (cfg : Config) (sensors : Option SysfsSensors) (world : World) :
    Agent :=
  let fw := (parseFwVersion opts.fw).getD 0x010000
  { opts, cfg, sensors, world
    physics := (Physics.new.setLimits cfg.limits).setCommDegraded true
    live := Physics.sample {}
    dropRng := .ofSeed (opts.seed.toUInt64 * 7919 + 17)
    fwVersion := fw
    fwString := fwVersionToString fw
    cliFaultFired := List.replicate opts.faults.length false
    logLevel := cfg.logLevel }

/-- The constructor. -/
def Agent.init (opts : AgentOptions) (cfg : Config) (sensors : Option SysfsSensors)
    (world : World) :
    Agent := (applyHz cfg.hz (.new opts cfg sensors world)).2

/-- The agent at the top of its main loop, after `n` rounds. -/
def Agent.top (opts : AgentOptions) (cfg : Config) (sensors : Option SysfsSensors) (world : World)
    (n : ℕ) : Agent := (rounds n (start (.init opts cfg sensors world)).2).2

end EcuTelemetry.Firmware
