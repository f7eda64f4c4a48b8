/-
  EcuTelemetry.Firmware.Agent

  firmware/src/agent.cpp with SysfsSensors::read: the agent as a state and one
  procedure per function, in the source's order of calls and assignments.

  Times are rationals.  How long `select` sleeps, the addresses and the text on
  stderr are left out.  Next to the members of `Agent` the state holds the
  answers of the world and a trace of what has happened, the latest first.
-/

import EcuTelemetry.Firmware.World
import EcuTelemetry.Lib.Proc

namespace EcuTelemetry.Firmware

open Printf

/-! ## Constants -/

def kHeartbeatPeriodS : ℚ := 5
def kBackoffMinS : ℚ := 1
def kBackoffMaxS : ℚ := 30
def kConnectTimeoutS : ℚ := 5
def kRebootDurationS : ℚ := 1
def kOtaBytesPerSecond : ℚ := 500000
def kRxLimit : ℕ := 64 * 1024
def kTxLimit : ℕ := 256 * 1024

/-! ## Data -/

inductive LogLevel
  | DEBUG
  | INFO
  | WARN
  | ERROR
deriving DecidableEq, Repr

def LogLevel.code : LogLevel → UInt8
  | .DEBUG => 0
  | .INFO => 1
  | .WARN => 2
  | .ERROR => 3

/-- `static_cast<LogLevel>` on a code up to 3. -/
def LogLevel.ofCode (c : UInt8) : LogLevel :=
  if c = 0 then .DEBUG else if c = 1 then .INFO else if c = 2 then .WARN else .ERROR

def logLevelName : LogLevel → List Byte
  | .DEBUG => str "debug"
  | .INFO => str "info"
  | .WARN => str "warn"
  | .ERROR => str "error"

structure Config where
  configVersion : UInt32 := 1
  hz : ℤ := 10
  logLevel : LogLevel := .INFO
  limits : Limits := {}
deriving DecidableEq, Repr

structure FaultSpec where
  flag : UInt32
  startS : ℚ
  durS : ℚ
deriving DecidableEq, Repr

structure AgentOptions where
  deviceId : List Byte
  host : List Byte := str "127.0.0.1"
  udpPort : ℕ := 8781
  tcpPort : ℕ := 8782
  fw : List Byte := str "1.0.0"
  hw : List Byte := str "SIM-MOTOR-A"
  profileName : List Byte := str "city"
  dropRate : ℚ := 0
  seed : UInt32 := 42
  durationS : ℚ := 0
  configPath : List Byte := []
  faults : List FaultSpec := []
  undervoltageV : F64 := ⟨0⟩

structure SensorReading where
  ok : Bool := false
  tempC : F32 := F32.zero
  voltageV : F32 := F32.zero
  currentA : F32 := F32.zero
  powerW : F32 := F32.zero
  fanPct : F32 := F32.zero
  rpm : F32 := F32.zero
  gpuPct : F32 := F32.zero
deriving DecidableEq, Repr

/-- The paths `probe` has found. -/
structure SysfsSensors where
  fanRpmMax : F64 := F64.ofNat 6000
  /-- zone type and path -/
  temps : List (List Byte × List Byte)
  tjPath : List Byte
  vinPath : List Byte
  iinPath : List Byte
  fanPath : List Byte
  gpuLoadPath : List Byte

inductive TcpState
  | DISCONNECTED
  | CONNECTING
  | CONNECTED
deriving DecidableEq, Repr

structure Injection where
  flags : UInt32
  expiresAt : ℚ
deriving DecidableEq, Repr

structure Ota where
  active : Bool := false
  target : List Byte := []
  targetVersion : UInt32 := 0
  doneAt : ℚ := 0
  nextProgressAt : ℚ := 0
deriving DecidableEq, Repr

/-- The configuration in use: `cfg_`, the period, the logger's level and the
    limits of the threshold checks. -/
structure Running where
  cfg : Config
  periodS : ℚ
  logLevel : LogLevel
  limits : Limits
deriving DecidableEq, Repr

/-- What the flags of a sample come from. -/
structure FlagSources where
  injected : UInt32
  /-- `currentDetected()` -/
  detected : UInt32
  /-- the plant's own -/
  plantDetected : UInt32
  commDegraded : Bool
deriving DecidableEq, Repr

/-- What the trace records. -/
inductive Seen
  /-- an emitted log record -/
  | log (lvl : LogLevel) (msg : List Byte)
  /-- `sensors_->read()` -/
  | sensors (r : SensorReading)
  /-- `updateInjections` at a time, and the plant's injected mask after it -/
  | tick (t : ℚ) (injected : UInt32)
  /-- the `--fault` entry with an index fires -/
  | fired (i : ℕ) (f : FaultSpec) (t : ℚ)
  /-- the sample of a tick is computed -/
  | computed (c : FlagSources)
  /-- a telemetry frame given to `sendto` -/
  | datagram (t : Telemetry) (frame : List Byte)
  /-- `tcpOnConnected` -/
  | connected
  /-- `tcpFail` on a connected channel -/
  | lost
  /-- a frame put into `tx_` -/
  | queued (hdr : FrameHeader) (payload : List Byte)
  /-- bytes taken by `send` -/
  | sent (bytes : List Byte)
  /-- `handleFrame`, and the running version -/
  | rx (f : Frame) (fwVersion : UInt32)
  /-- the `switch` of `handleFrame` -/
  | dispatch
  /-- the end of `handleFrame`, and the configuration in use -/
  | handled (f : Frame) (running : Running)
  /-- a FAULT_INJECT frame, at a time -/
  | inject (fi : FaultInject) (t : ℚ)
  /-- CMD clear_faults -/
  | cleared
  /-- an FW_UPDATE is accepted -/
  | accepted (target : List Byte)
  /-- the deadline of the download -/
  | due (t : ℚ)
  /-- at a time, a download has reached its deadline and is reported applied -/
  | applied (target : List Byte) (t : ℚ)
  /-- `startReboot` has closed the channel -/
  | closed
  /-- the boot is complete -/
  | booted (pendingFw : List Byte)

structure Agent where
  opts : AgentOptions
  cfg : Config
  physics : Physics
  sensors : Option SysfsSensors
  live : Telemetry
  liveDetected : UInt32 := 0
  dropRng : Rng
  fwVersion : UInt32
  fwString : List Byte
  udpFd : ℤ := -1
  udpSeq : UInt32 := 0
  framesSent : UInt32 := 0
  tcpFd : ℤ := -1
  tcpState : TcpState := .DISCONNECTED
  connectStartedAt : ℚ := 0
  nextConnectAt : ℚ := 0
  backoffS : ℚ := 1
  everConnected : Bool := false
  reconnects : UInt32 := 0
  tcpSeq : UInt32 := 0
  rx : List Byte := []
  tx : List Byte := []
  nextHeartbeatAt : ℚ := 0
  inLogSink : Bool := false
  startAt : ℚ := 0
  bootAt : ℚ := 0
  periodS : ℚ := 1 / 10
  nextTickAt : ℚ := 0
  rebootUntil : ℚ := 0
  rebooting : Bool := false
  pendingFw : List Byte := []
  injections : List Injection := []
  cliFaultFired : List Bool
  prevDetected : UInt32 := 0
  ota : Ota := {}
  /-- `Logger::level_` -/
  logLevel : LogLevel
  world : World
  trace : List Seen := []

def Agent.running (s : Agent) : Running :=
  { cfg := s.cfg, periodS := s.periodS, logLevel := s.logLevel, limits := s.physics.limits }

/-- Procedures of the agent; no exception leaves one. -/
abbrev AgentM (α : Type) := Proc Empty Agent α

open Proc

/-! ## Reading the world -/

def Agent.withWorld (s : Agent) (w : World) : Agent := { s with world := w }

/-- The next answer of a stream. -/
def ask {α : Type} (part : World → Stream α) (put : World → Stream α → World) : AgentM α := fun s =>
  (.ok (part s.world 0), s.withWorld (put s.world (part s.world).tail))

def Agent.noted (e : Seen) (s : Agent) : Agent := { s with trace := e :: s.trace }

def note (e : Seen) : AgentM Unit := modify (Agent.noted e)

def now : AgentM ℚ := ask (·.clock) fun w x => { w with clock := x }

def unixMillis : AgentM UInt64 := ask (·.unixMillis) fun w x => { w with unixMillis := x }

def resolve : AgentM Bool := ask (·.resolve) fun w x => { w with resolve := x }

def socket : AgentM (Except (List Byte) ℕ) := ask (·.socket) fun w x => { w with socket := x }

def readDouble (path : List Byte) : AgentM (Option F64) := do
  let files ← ask (·.readDouble) fun w x => { w with readDouble := x }
  return files path

/-! ## Sensors -/

/-- `!path.empty() && readDouble(path, v)`. -/
def readPath (path : List Byte) : AgentM (Option F64) :=
  if path ≠ [] then readDouble path else pure none

/-- The loop over the zones in `read`. -/
def hottest : F64 → List (List Byte × List Byte) → AgentM F64
  | hot, [] => return hot
  | hot, zone :: zones => do
    let v ← readDouble zone.2
    match v with
    | some v => hottest (if hot.lt v then v else hot) zones
    | none => hottest hot zones

namespace SysfsSensors

def coldest : F64 := F64.negNat 1000000000
def milli (v : F64) : F32 := (v.div (F64.ofNat 1000)).toFloat

/-- The first paragraph of `read`. -/
def readTemp (p : SysfsSensors) (r : SensorReading) : AgentM SensorReading := do
  let tj ← readPath p.tjPath
  match tj with
  | some v => return { r with tempC := milli v, ok := true }
  | none =>
    let hot ← hottest coldest p.temps
    return if coldest.lt hot then { r with tempC := milli hot, ok := true } else r

/-- The second paragraph. -/
def readRail (p : SysfsSensors) (r : SensorReading) : AgentM SensorReading := do
  let vin ← readPath p.vinPath
  match vin with
  | none => return r
  | some v =>
    let a ← readDouble p.iinPath
    let currentA := (a.map milli).getD r.currentA
    return { r with voltageV := milli v, ok := true, currentA, powerW := (milli v).mul currentA }

/-- The fan and the load. -/
def readFan (p : SysfsSensors) (r : SensorReading) : AgentM SensorReading := do
  let fan ← readPath p.fanPath
  let load ← readPath p.gpuLoadPath
  let r := match fan with
    | none => r
    | some v =>
      { r with
        fanPct := (((F64.ofNat 100).mul v).div (F64.ofNat 255)).toFloat
        rpm := ((v.div (F64.ofNat 255)).mul p.fanRpmMax).toFloat }
  return match load with
    | none => r
    | some v => { r with gpuPct := (v.div (F64.ofNat 10)).toFloat }

/-- `read`. -/
def read (p : SysfsSensors) : AgentM SensorReading := do
  let r ← p.readTemp {}
  let r ← p.readRail r
  p.readFan r

end SysfsSensors

/-! ## The control channel, down to the log sink -/

/-- A log record, without the sink. -/
def record (lvl : LogLevel) (msg : List Byte) : AgentM Unit := do
  let s ← get
  when (s.logLevel.code ≤ lvl.code) (note (.log lvl (msg.take 1023)))

/-- The members `tcpFail` resets before its log record. -/
def Agent.drop (s : Agent) : Agent :=
  { s with
    tcpFd := -1, tcpState := .DISCONNECTED, rx := [], tx := []
    ota := { s.ota with active := false }
    physics := s.physics.setCommDegraded true
    trace := if s.tcpState = .CONNECTED then .lost :: s.trace else s.trace }

/-- `backoff_s_ * jitter`. -/
def Agent.retryDelay (s : Agent) : ℚ := s.backoffS * (s.dropRng.uniformIn (3 / 4) (5 / 4)).1

/-- `next_connect_at_`, with the generator after the jitter. -/
def Agent.scheduleRetry (t : ℚ) (s : Agent) : Agent :=
  { s with
    dropRng := (s.dropRng.uniformIn (3 / 4) (5 / 4)).2, nextConnectAt := t + s.retryDelay }

def Agent.backOff (s : Agent) : Agent := { s with backoffS := min kBackoffMaxS (s.backoffS * 2) }

/-- The log record of `tcpFail`. -/
def Agent.failText (wasConnected : Bool) (why : List Byte) (s : Agent) : List Byte :=
  if wasConnected then
    str "TCP control channel lost (" ++ why ++ str "); reconnect in " ++ double 1 s.retryDelay ++
      str "s"
  else
    str "TCP connect to " ++ s.opts.host ++ str ":" ++ dec s.opts.tcpPort ++ str " failed (" ++
      why ++ str "); retry in " ++ double 1 s.retryDelay ++ str "s"

/-- `tcpFail`.  The sink takes nothing from its log record: the state is
    DISCONNECTED by then. -/
def tcpFail (why : List Byte) : AgentM Unit := do
  let was ← get
  modify Agent.drop
  let t ← now
  let s ← get
  modify (Agent.scheduleRetry t)
  record .WARN (s.failText (was.tcpState = .CONNECTED) why)
  modify Agent.backOff

/-- `send` takes `n` bytes. -/
def Agent.takeSent (n : ℕ) (s : Agent) : Agent :=
  { s with tx := s.tx.drop n, trace := .sent (s.tx.take n) :: s.trace }

/-- The loop of `tcpFlush` over what `send` answers. -/
def flushLoop : List (Io ℕ) → AgentM Bool
  | [] => do return (← get).tx.isEmpty
  | r :: rs => do
    let s ← get
    if s.tx = [] then return true
    else match r with
      | .done n =>
        if n = 0 then do
          tcpFail (str "send returned 0")
          return false
        else do
          modify (Agent.takeSent n)
          flushLoop rs
      -- the rest waits for the socket to be writable
      | .wouldBlock => return false
      | .error why => do
        tcpFail why
        return false

def tcpFlush : AgentM Bool := do
  let answers ← ask (·.send) fun w x => { w with send := x }
  flushLoop answers

/-- `makeHeader`. -/
def makeHeader (msgType : UInt8) (seq : UInt32) : AgentM FrameHeader := do
  let ts ← unixMillis
  let s ← get
  return { msgType, deviceId := s.opts.deviceId, seq, tsMs := ts, fwVersion := s.fwVersion }

/-- `tcp_seq_++`. -/
def Agent.nextSeq (s : Agent) : Agent := { s with tcpSeq := s.tcpSeq + 1 }

/-- A frame goes into `tx_`. -/
def Agent.queue (hdr : FrameHeader) (payload : List Byte) (s : Agent) : Agent :=
  { s with tx := s.tx ++ encodeFrame hdr payload, trace := .queued hdr payload :: s.trace }

/-- `sendFrame`. -/
def sendFrame (msgType : UInt8) (payload : List Byte) : AgentM Unit := do
  let s ← get
  when (s.tcpState = .CONNECTED) do
    modify Agent.nextSeq
    let hdr ← makeHeader msgType s.tcpSeq
    if s.tx.length + (encodeFrame hdr payload).length > kTxLimit then
      tcpFail (str "tx buffer overflow")
    else do
      modify (Agent.queue hdr payload)
      let _ ← tcpFlush
      pure ()

def Agent.setInLogSink (b : Bool) (s : Agent) : Agent := { s with inLogSink := b }

/-- The sink that the constructor installs. -/
def logSink (lvl : LogLevel) (msg : List Byte) : AgentM Unit := do
  let s ← get
  when (¬ (s.inLogSink ∨ s.tcpState ≠ .CONNECTED)) do
    modify (Agent.setInLogSink true)
    sendFrame MsgType.LOG (LogMsg.encode { level := lvl.code, message := msg })
    modify (Agent.setInLogSink false)

/-- `Logger::log`. -/
def log (lvl : LogLevel) (msg : List Byte) : AgentM Unit := do
  let s ← get
  when (s.logLevel.code ≤ lvl.code) do
    note (.log lvl (msg.take 1023))
    logSink lvl (msg.take 1023)

/-! ## Messages of the device -/

def sendHello : AgentM Unit := do
  let s ← get
  sendFrame MsgType.HELLO <| Hello.encode
    { fwString := s.fwString, hwModel := s.opts.hw, configVersion := s.cfg.configVersion,
      telemetryHz := UInt16.ofInt s.cfg.hz }

def sendHeartbeat : AgentM Unit := do
  let t ← now
  let s ← get
  sendFrame MsgType.HEARTBEAT <| Heartbeat.encode
    { uptimeS := UInt32.ofInt ⌊t - s.bootAt⌋, framesSent := s.framesSent,
      configVersion := s.cfg.configVersion, reconnects := s.reconnects }

/-- `current()`. -/
def Agent.current (s : Agent) : Telemetry := if s.sensors.isSome then s.live else s.physics.sample

/-- `currentDetected()`. -/
def Agent.currentDetected (s : Agent) : UInt32 :=
  if s.sensors.isSome then s.liveDetected else s.physics.detected

def sendFaultAck : AgentM Unit := do
  let s ← get
  sendFrame MsgType.FAULT_ACK (FaultAck.encode { activeFlags := s.current.faultFlags })

def sendFwAck (status : UInt8) (version : List Byte) : AgentM Unit :=
  sendFrame MsgType.FW_ACK (FwAck.encode { status, version })

def sendConfigAck (configVersion : UInt32) (status : UInt8) : AgentM Unit :=
  sendFrame MsgType.CONFIG_ACK (ConfigAck.encode { configVersion, status })

end EcuTelemetry.Firmware
