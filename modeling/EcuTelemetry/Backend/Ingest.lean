/-
  EcuTelemetry.Backend.Ingest

  `Ingest` of backend/app/ingest.py: the UDP receiver, the handlers of the TCP
  control channels, the pushes to the devices and the offline detection, over
  the engine and the database.

  A coroutine gives up the processor at `await w.drain()` only.  What it has
  left to do is an entry of `waiting`; until it is resumed anything else can
  run, save that the handler of one connection takes one frame at a time.

  The engine is used through its events, so that what is known of its runs
  holds here.  Left out are the bus, the `logs` and `telemetry` tables, and the
  columns and counters that only views read.
-/

import EcuTelemetry.Backend.Alerts

namespace EcuTelemetry.Backend

open Protocol

/-- `OFFLINE_AFTER_S`. -/
def OFFLINE_AFTER_S {F : Type} [PyFloat F] : F := PyFloat.ofRat 15

/-! ## State -/

/-- The readings of `time.time()` in one step: the first one, the later ones,
    and `int(time.time() * 1000)`. -/
structure Clock (F : Type) where
  now : F
  later : F
  ms : Nat

/-- All readings at one time. -/
def Clock.stopped (t : Nat) : Clock ℚ := { now := t, later := t, ms := 1000 * t }

/-- A TCP connection with its handler `_handle_tcp`. -/
structure Conn where
  deviceId : Option String := none
  /-- `writer.is_closing()` -/
  closing : Bool := false
  /-- the handler has returned -/
  ended : Bool := false
deriving DecidableEq

/-- A frame that was given to `w.write`. -/
structure Written where
  conn : Nat
  payload : Payload
  bytes : List Byte
deriving DecidableEq

/-- What a coroutine does after `await w.drain()`. -/
inductive Waiting
  /-- `_after_hello`, in `push_config` -/
  | helloConfig (conn : Nat) (dev : String) (hello : Hello) (version : Nat)
  /-- `_after_hello`, at its end -/
  | helloFw (conn : Nat)
  /-- `put_config`, in `push_config` -/
  | putConfig (dev : String) (version : Nat)
  /-- `firmware_deploy`, in `push_fw` -/
  | deploy (jid : Nat)
deriving DecidableEq

/-- The connection whose handler waits. -/
def Waiting.handler : Waiting → Option Nat
  | helloConfig conn _ _ _ => some conn
  | helloFw conn => some conn
  | putConfig _ _ => none
  | deploy _ => none

/-- What the history variable holds. -/
inductive Note
  /-- a frame of a device is dispatched -/
  | received (dev : String) (payload : Body)
  /-- `push_config` begins -/
  | pushed (dev : String) (version : Nat)
  /-- `firmware_deploy` has created a job -/
  | deployed (jid : Nat)
deriving DecidableEq

structure Ingest (F : Type) where
  engine : Engine F
  stats : Dict String (DeviceStats F) := []
  /-- device -> the connection of its writer -/
  writers : Dict String Nat := []
  conns : Dict Nat Conn := []
  waiting : List Waiting := []
  /-- history variable: all frames written, the oldest first -/
  wrote : List Written := []
  /-- history variable: the oldest note first -/
  history : List Note := []

abbrev IngestM (F : Type) := Proc PyError (Ingest F)

/-! ## Rows as frames -/

variable {F : Type}

/-- The payload `push_config` makes of a row; `float(None)` raises. -/
def ConfigRow.configSet (cfg : ConfigRow F) : Except PyError ConfigSet :=
  match cfg.rpmLimit, cfg.tempLimitC, cfg.currentLimitA with
  | some rpm, some temp, some current =>
    .ok { configVersion := cfg.version, telemetryHz := cfg.telemetryHz, logLevel := cfg.logLevel,
          rpmLimit := rpm, tempLimitC := temp, currentLimitA := current }
  | _, _, _ => .error .typeError

def FirmwareRow.fwUpdate (fw : FirmwareRow F) : FwUpdate :=
  { targetVersion := fw.version, imageSizeBytes := fw.sizeBytes, imageCrc := fw.crc }

/-- `job["status"] in ("complete", "rejected", "failed")`. -/
def JobRow.finished (job : JobRow F) : Bool := job.status ∈ ["complete", "rejected", "failed"]

/-- `job["status"] in ("pending", "accepted", "downloading")`. -/
def JobRow.resumable (job : JobRow F) : Bool :=
  job.status ∈ ["pending", "accepted", "downloading"]

/-- What `_persist_stats` saves of a record, as far as it is loaded again. -/
def DeviceStats.statsRow (dev : String) (r : DeviceStats F) : StatsRow F :=
  { deviceId := dev, framesRx := r.framesRx, badCrc := r.badCrc, seqGaps := r.seqGaps,
    reconnects := r.reconnects, lastSeen := r.lastSeen }

/-- A record as `Ingest.__init__` loads it. -/
def StatsRow.load (row : StatsRow F) : DeviceStats F :=
  { framesRx := row.framesRx, badCrc := row.badCrc, seqGaps := row.seqGaps,
    reconnects := row.reconnects, lastSeen := row.lastSeen }

namespace Ingest

def db (s : Ingest F) : Database F := s.engine.db

def conn (s : Ingest F) (c : Nat) : Conn := (Dict.get? s.conns c).getD {}

/-- The writer `send` uses: registered, and not closing. -/
def openWriter (s : Ingest F) (dev : String) : Option Nat :=
  (Dict.get? s.writers dev).filter fun c => !(s.conn c).closing

/-- Does the handler of a connection wait for a `drain`? -/
def busy (s : Ingest F) (c : Nat) : Bool := s.waiting.any (·.handler = some c)

/-- The part of `Ingest.__init__` after the process has started. -/
def load (engine : Engine F) : Ingest F :=
  { engine := engine,
    stats := engine.db.deviceStats.foldl (fun d row => Dict.set d row.deviceId row.load) [] }

/-! ## Parts of the state -/

/-- `st`. -/
def st (dev : String) : IngestM F (DeviceStats F) := fun s =>
  match Dict.get? s.stats dev with
  | some r => (.ok r, s)
  | none => (.ok {}, { s with stats := Dict.set s.stats dev {} })

/-- Change the record of a device. -/
def modifySt (dev : String) (f : DeviceStats F → DeviceStats F) : IngestM F Unit := do
  let r ← st dev
  Proc.modify fun s => { s with stats := Dict.set s.stats dev (f r) }

def modifyConn (c : Nat) (f : Conn → Conn) : IngestM F Unit :=
  Proc.modify fun s => { s with conns := Dict.set s.conns c (f (s.conn c)) }

/-- Leave the rest of a coroutine for later. -/
def suspend (task : Waiting) : IngestM F Unit :=
  Proc.modify fun s => { s with waiting := s.waiting ++ [task] }

/-- Write to the history variable. -/
def note (n : Note) : IngestM F Unit :=
  Proc.modify fun s => { s with history := s.history ++ [n] }

variable [PyFloat F] [PyText F]

/-- A call of the engine. -/
def engineDo (e : EngineEvent F) : IngestM F Unit := do
  let _ ← Proc.zoom Ingest.engine (fun engine s => { s with engine := engine }) (Engine.handle e)

/-- A write to a table of the database other than `alerts` and `rules`. -/
def modifyDb (f : Database F → Database F) : IngestM F Unit := do
  let s ← Proc.get
  engineDo (.write (f s.db))

/-! ## Online state -/

/-- `_set_online`. -/
def setOnline (dev : String) (online : Bool) (clock : F) : IngestM F Unit := do
  modifySt dev fun r => { r with online := online }
  modifyDb fun db => db.setOnline dev online
  if online then engineDo (.online dev clock clock) else engineDo (.offline dev clock clock)

/-- `_seen`. -/
def seen (dev : String) (clock : Clock F) : IngestM F Unit := do
  modifySt dev fun r => { r with lastSeen := some clock.later }
  let r ← st dev
  if r.online then pure () else setOnline dev true clock.later

/-- `last_seen and now - last_seen > OFFLINE_AFTER_S`. -/
def stale (now : F) (lastSeen : Option F) : Bool :=
  match lastSeen with
  | some t => !PyFloat.eqInt t 0 && PyFloat.lt OFFLINE_AFTER_S (PyFloat.sub now t)
  | none => false

/-- One pass of `_offline_loop`. -/
def offlinePass (clock : Clock F) : IngestM F Unit := do
  let s ← Proc.get
  Proc.forEach s.stats fun e =>
    if e.2.online && stale clock.now e.2.lastSeen then setOnline e.1 false clock.later
    else pure ()
  let s ← Proc.get
  -- also handle devices from DB never seen in this process
  Proc.forEach s.db.listDevices fun d => do
    let s ← Proc.get
    if d.online && !Dict.contains s.stats d.deviceId && stale clock.now d.lastSeen then
      setOnline d.deviceId false clock.later
    else pure ()

/-! ## UDP -/

/-- `transit_ms`: receive time minus the device's own timestamp. -/
def transitMs (now : F) (tsMs : Nat) : Except PyError F := do
  let ts ← PyFloat.ofInt tsMs
  return PyFloat.round (PyFloat.sub (PyFloat.mul now (PyFloat.ofRat 1000)) ts) 1

/-- `STATE_NAMES.get(state, str(state))`. -/
def stateName (state : Nat) : String :=
  statusName [(0, "IDLE"), (1, "RUNNING"), (2, "DEGRADED"), (3, "FAULT")] state

/-- `Telemetry.as_dict`. -/
def asDict (t : Telemetry) : Dict String (Json F) :=
  [("rpm", .float (PyFloat.ofF64 t.rpm)), ("temp_c", .float (PyFloat.ofF64 t.tempC)),
   ("current_a", .float (PyFloat.ofF64 t.currentA)),
   ("voltage_v", .float (PyFloat.ofF64 t.voltageV)),
   ("vibration_g", .float (PyFloat.ofF64 t.vibrationG)),
   ("speed_kph", .float (PyFloat.ofF64 t.speedKph)), ("lat", .float (PyFloat.ofF64 t.lat)),
   ("lon", .float (PyFloat.ofF64 t.lon)), ("fault_flags", .int t.faultFlags),
   ("state", .int t.state), ("state_name", .str (stateName t.state)),
   ("faults", .arr ((flagsToNames t.faultFlags).map .str))]

/-- The sample the engine sees. -/
def sample (dev : String) (hdr : Header) (t : Telemetry) (now loss : F) : Dict String (Json F) :=
  Dict.update (asDict t)
    [("device_id", .str dev), ("ts", .float now), ("ts_iso", .str (PyText.iso now)),
     ("device_ts_ms", .int hdr.tsMs), ("seq", .int hdr.seq),
     ("fw_version", .str (fwDecode hdr.fwVersion)), ("loss_pct", .float loss)]

/-- `handle_telemetry` up to `_seen`: the loss that goes with the sample. -/
def receiveTelemetry (hdr : Header) (clock : Clock F) : IngestM F F := do
  let dev := hdr.deviceId
  modifySt dev fun r => DeviceStats.noteSeq { r with framesRx := r.framesRx + 1 } hdr.seq
  let transit ← Proc.ofExcept (transitMs clock.now hdr.tsMs)
  modifySt dev fun r => { r with transitMs := some transit }
  let r ← st dev
  modifyDb fun db => db.upsertDevice dev clock.now fun d =>
    { d with fwVersion := some (fwDecode hdr.fwVersion), fwVersionU32 := some hdr.fwVersion }
  seen dev clock
  return PyFloat.ofRat r.lossPct

/-- `handle_telemetry`. -/
def handleTelemetry (hdr : Header) (t : Telemetry) (clock : Clock F) : IngestM F Unit := do
  let dev := hdr.deviceId
  let loss ← receiveTelemetry hdr clock
  engineDo (.telemetry dev (sample dev hdr t clock.now loss) clock.now clock.later (some loss))

/-- `on_datagram`. -/
def onDatagram (data : List Byte) (clock : Clock F) : IngestM F Unit := do
  match Header.unpack data with
  | .error _ => pure ()
  | .ok hdr =>
    let _ ← st hdr.deviceId
    match decode data with
    | .error _ => modifySt hdr.deviceId fun r => { r with badCrc := r.badCrc + 1 }
    | .ok frame =>
      match frame.payload with
      | .known (.telemetry t) => handleTelemetry frame.header t clock
      | _ => pure ()

/-! ## Pushes to the device -/

/-- `send` up to `await w.drain()`: whether it has written the frame. -/
def write (dev : String) (payload : Payload) (clock : Clock F) : IngestM F Bool := do
  let s ← Proc.get
  match s.openWriter dev with
  -- no connection, or one that is closing
  | none => return false
  | some c =>
    modifySt dev fun r => { r with txSeq := r.txSeq + 1 }
    let r ← st dev
    let fw := ((s.db.getDevice dev).bind DeviceRow.fwVersionU32).getD 0
    let bytes ← Proc.ofExcept (encode payload.type dev r.txSeq clock.ms fw (.known payload))
    -- the sequence number is taken even where `encode` raises
    Proc.modify fun s =>
      { s with wrote := s.wrote ++ [{ conn := c, payload := payload, bytes := bytes }] }
    return true

/-- `push_config` up to the `drain`. -/
def pushConfig (dev : String) (cfg : ConfigRow F) (clock : Clock F) : IngestM F Bool := do
  note (.pushed dev cfg.version)
  let payload ← Proc.ofExcept cfg.configSet
  write dev (.configSet payload) clock

/-- `push_config` from the result of `send` on. -/
def pushConfigDone (dev : String) (version : Nat) (ok : Bool) : IngestM F Unit := do
  modifyDb fun db => db.updateConfig dev version fun c =>
    { c with ackStatus := if ok then "sent" else "queued" }
  engineDo (.invalidateConfig dev)

/-! ## TCP -/

/-- `_after_hello` from the latest job on. -/
def afterHelloJob (c : Nat) (dev : String) (hello : Hello) (clock : Clock F) : IngestM F Unit := do
  let s ← Proc.get
  match s.db.fwJobLatest dev with
  | none => pure ()
  | some job =>
    if job.finished then pure ()
    -- the device reports the version it was to install
    else if hello.fwString = job.targetVersion then
      modifyDb fun db => db.fwJobUpdate job.id "complete" clock.later
    -- it does not yet, so the update is sent again
    else if job.resumable then
      match s.db.firmwareGet job.targetVersion with
      | none => pure ()
      | some fw =>
        let written ← write dev (.fwUpdate fw.fwUpdate) clock
        if written then suspend (.helloFw c) else pure ()
    else pure ()

/-- `_after_hello`. -/
def afterHello (c : Nat) (dev : String) (hello : Hello) (clock : Clock F) : IngestM F Unit := do
  let s ← Proc.get
  match (s.db.currentConfig dev).filter fun cfg => hello.configVersion < cfg.version with
  | none => afterHelloJob c dev hello clock
  | some cfg =>
    let written ← pushConfig dev cfg clock
    if written then suspend (.helloConfig c dev hello cfg.version)
    else do
      pushConfigDone dev cfg.version false
      afterHelloJob c dev hello clock

/-- `add_log`: SQLite takes integers below `2 ^ 63`. -/
def addLog (deviceTsMs : Nat) : IngestM F Unit :=
  if deviceTsMs < 2 ^ 63 then pure () else Proc.raise .overflowError

/-- `_dispatch`.  Log lines without a device time are left out. -/
def dispatch (c : Nat) (frame : Frame) (clock : Clock F) : IngestM F Unit := do
  let dev := frame.deviceId
  note (.received dev frame.payload)
  match frame.payload with
  -- HELLO is the only frame that names model and firmware
  | .known (.hello p) => do
    modifyDb fun db => db.upsertDevice dev clock.now fun d =>
      { d with hwModel := some p.hwModel, fwVersion := some p.fwString,
               fwVersionU32 := some frame.header.fwVersion,
               reportedConfigVersion := p.configVersion }
    seen dev clock
    afterHello c dev p clock
  | .known (.heartbeat p) => do
    modifyDb fun db => db.upsertDevice dev clock.now fun d =>
      { d with reportedConfigVersion := p.configVersion }
    seen dev clock
  | .known (.log _) => do
    addLog frame.header.tsMs
    seen dev clock
  | .known (.configAck p) => do
    modifyDb fun db => db.ackConfig dev p.configVersion p.statusName clock.later
    -- the cache is dropped for both statuses
    if p.statusName = "applied" then
      modifyDb fun db => db.upsertDevice dev clock.later fun d =>
        { d with reportedConfigVersion := p.configVersion }
      engineDo (.invalidateConfig dev)
    else engineDo (.invalidateConfig dev)
  | .known (.fwAck p) => do
    let s ← Proc.get
    -- an FW_ACK goes to the latest job, whatever version it names
    match (s.db.fwJobLatest dev).filter fun job => !job.finished with
    | none => pure ()
    | some job => modifyDb fun db => db.fwJobUpdate job.id p.statusName clock.later
  | .known (.faultAck p) => modifyDb fun db => db.faultInjectionAck dev p.activeFlags
  | .known (.telemetry t) => handleTelemetry frame.header t clock
  | _ => pure ()

/-- `writer.close()`, where there is one. -/
def close : Option Nat → IngestM F Unit
  | some c => modifyConn c fun k => { k with closing := true }
  | none => pure ()

/-- `_register`. -/
def register (dev : String) (c : Nat) : IngestM F Unit := do
  let s ← Proc.get
  let old := Dict.get? s.writers dev
  close (old.filter (· ≠ c))
  modifySt dev fun r =>
    let known := r.framesRx ≠ 0 ∨ old.isSome ∨ r.lastSeen.any fun t => !PyFloat.eqInt t 0
    { r with reconnects := if known then r.reconnects + 1 else r.reconnects, tcpConnected := true }
  Proc.modify fun s => { s with writers := Dict.set s.writers dev c }

/-- One frame in the loop of `_handle_tcp`. -/
def takeFrame (c : Nat) (frame : Frame) (clock : Clock F) : IngestM F Unit := do
  let s ← Proc.get
  match (s.conn c).deviceId with
  | none =>
    modifyConn c fun k => { k with deviceId := some frame.deviceId }
    register frame.deviceId c
    dispatch c frame clock
  | some dev => if frame.deviceId ≠ dev then pure () else dispatch c frame clock

/-- The `finally` of `_handle_tcp`. -/
def endHandler (c : Nat) : IngestM F Unit := do
  let s ← Proc.get
  modifyConn c fun k => { k with closing := true, ended := true }
  match (s.conn c).deviceId.filter fun dev => dev ≠ "" ∧ Dict.get? s.writers dev = some c with
  | none => pure ()
  | some dev =>
    Proc.modify fun s => { s with writers := Dict.pop s.writers dev }
    modifySt dev fun r => { r with tcpConnected := false }

/-! ## Start and stop -/

/-- `_persist_stats`. -/
def persistStats : IngestM F Unit := do
  let s ← Proc.get
  modifyDb fun db => s.stats.foldl (fun db e => db.saveStats (e.2.statsRow e.1)) db

/-- A new process on the same database; the connections are gone. -/
def restart : IngestM F Unit := do
  engineDo .restart
  Proc.modify fun s =>
    { load s.engine with
      conns := s.conns.map fun e => (e.1, { e.2 with closing := true, ended := true })
      wrote := s.wrote
      history := s.history }

end Ingest

end EcuTelemetry.Backend
