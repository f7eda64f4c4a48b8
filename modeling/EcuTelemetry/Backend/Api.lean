/-
  EcuTelemetry.Backend.Api

  The requests of backend/app/api.py that change something, and the backend as
  a whole: its events, and what one event does.

  A request that is refused (404, 422) leaves the state alone.  The bodies are
  those pydantic accepts; its `ge` and `le` let a NaN pass.
-/

import EcuTelemetry.Backend.Ingest

namespace EcuTelemetry.Backend

open Protocol

/-! ## Bodies -/

/-- `ConfigBody`. -/
structure ConfigBody where
  telemetryHz : Int := 10
  logLevel : Int ⊕ String := .inl 1
  rpmLimit : F64 := F64.ofNat 6000
  tempLimitC : F64 := F64.ofNat 90
  currentLimitA : F64 := F64.ofNat 120

/-- The checks of the fields: a NaN is not `ge` or `le` anything. -/
def ConfigBody.valid (b : ConfigBody) : Bool :=
  1 ≤ b.telemetryHz && b.telemetryHz ≤ 100 && (F64.ofNat 0).le b.rpmLimit &&
    (F64.negNat 40).le b.tempLimitC && b.tempLimitC.le (F64.ofNat 300) &&
    (F64.ofNat 0).le b.currentLimitA

/-- `LOG_LEVEL_IDS`. -/
def LOG_LEVEL_IDS : List (String × Nat) := [("debug", 0), ("info", 1), ("warn", 2), ("error", 3)]

/-- `_log_level`; `none` is a 422. -/
def logLevel : Int ⊕ String → Option Nat
  | .inl v => if 0 ≤ v ∧ v ≤ 3 then some v.toNat else none
  | .inr s => LOG_LEVEL_IDS.lookup (String.ofList (lower s.toList))

/-- `FirmwareBody`. -/
structure FirmwareBody where
  version : String
  notes : String := ""
  sizeBytes : Int := 1000000

def FirmwareBody.valid (b : FirmwareBody) : Bool := 1 ≤ b.sizeBytes

/-- `FaultBody`. -/
structure FaultBody where
  set : List String := []
  clear : List String := []
  durationMs : Int := 0

def FaultBody.valid (b : FaultBody) : Bool := 0 ≤ b.durationMs

/-- `CmdBody`, as the number in `CMD_IDS`. -/
inductive CmdBody
  | reboot
  | clearFaults
  | requestHello
deriving DecidableEq

def CmdBody.id : CmdBody → Nat
  | reboot => 0
  | clearFaults => 1
  | requestHello => 2

/-! ## Requests -/

namespace Ingest

variable {F : Type} [PyFloat F] [PyText F]

/-- `_device_view` and the other readers of `ingest.st(..)`. -/
def deviceView (dev : String) : IngestM F Unit := do
  let s ← Proc.get
  if (s.db.getDevice dev).isSome then
    let _ ← st dev
  else pure ()

/-- `GET /api/devices`. -/
def devices : IngestM F Unit := do
  let s ← Proc.get
  Proc.forEach s.db.listDevices fun d => deviceView d.deviceId

/-- `Database.new_config`; SQLite takes versions below `2 ^ 63`. -/
def newConfig (dev : String) (body : ConfigBody) (level : Nat) (clock : Clock F) :
    IngestM F Unit := do
  let s ← Proc.get
  if s.db.nextConfigVersion dev < 2 ^ 63 then
    modifyDb fun db => db.newConfig dev body.telemetryHz.toNat level body.rpmLimit body.tempLimitC
      body.currentLimitA clock.now
  else Proc.raise .overflowError

/-- `put_config`. -/
def putConfig (dev : String) (body : ConfigBody) (clock : Clock F) : IngestM F Unit := do
  let s ← Proc.get
  match (logLevel body.logLevel).filter fun _ => body.valid && (s.db.getDevice dev).isSome with
  -- answered with 404, 422 or 400
  | none => pure ()
  | some level =>
    newConfig dev body level clock
    let s ← Proc.get
    match s.db.currentConfig dev with
    | none => Proc.raise .typeError
    | some cfg =>
      let written ← pushConfig dev cfg clock
      -- the rest of the request waits for the drain
      if written then suspend (.putConfig dev cfg.version)
      else pushConfigDone dev cfg.version false

/-- `firmware_add`; the CRC stands for the image. -/
def firmwareAdd (body : FirmwareBody) (clock : Clock F) : IngestM F Unit :=
  match fwEncode body.version with
  | .error _ => pure ()
  | .ok _ =>
    let crc := zlibCrc32 (utf8Encode ("fw:" ++ body.version ++ ":" ++ toString body.sizeBytes))
    if !body.valid then pure ()
    else if body.sizeBytes < 2 ^ 63 then
      modifyDb fun db => db.firmwareAdd body.version body.notes body.sizeBytes.toNat crc clock.now
    else Proc.raise .overflowError

/-- `firmware_deploy` from the result of `push_fw` on. -/
def deployDone (jid : Nat) (ok : Bool) (clock : Clock F) : IngestM F Unit :=
  modifyDb fun db => db.fwJobUpdate jid (if ok then "sent" else "queued") clock.later

/-- `firmware_deploy`. -/
def firmwareDeploy (dev version : String) (clock : Clock F) : IngestM F Unit := do
  let s ← Proc.get
  match s.db.getDevice dev, s.db.firmwareGet version with
  | some d, some fw =>
    modifyDb fun db => db.fwJobCreate dev version d.fwVersion clock.now
    note (.deployed s.db.nextJobId)
    let written ← write dev (.fwUpdate fw.fwUpdate) clock
    if written then suspend (.deploy s.db.nextJobId) else deployDone s.db.nextJobId false clock
  | _, _ => pure ()

/-- `fault_inject`; nothing is left to do after the push. -/
def faultInject (dev : String) (body : FaultBody) (clock : Clock F) : IngestM F Unit := do
  let s ← Proc.get
  if !(body.valid && (s.db.getDevice dev).isSome) then pure ()
  else
    match namesToFlags body.set, namesToFlags body.clear with
    | .ok setFlags, .ok clearFlags =>
      if body.durationMs < 2 ^ 63 then
        let duration := body.durationMs.toNat
        modifyDb fun db => db.faultInjectionAdd dev setFlags clearFlags duration
        let _ ← write dev (.faultInject ⟨setFlags, clearFlags, duration⟩) clock
      -- more than an INTEGER of SQLite holds
      else Proc.raise .overflowError
    | _, _ => pure ()

/-- `device_cmd`; nothing is left to do after the push. -/
def deviceCmd (dev : String) (body : CmdBody) (clock : Clock F) : IngestM F Unit := do
  let s ← Proc.get
  if (s.db.getDevice dev).isSome then
    let _ ← write dev (.cmd ⟨body.id⟩) clock
  else pure ()

/-! ## A coroutine goes on -/

/-- The rest of a coroutine, with the outcome of its `drain`. -/
def goOn (task : Waiting) (ok : Bool) (clock : Clock F) : IngestM F Unit :=
  match task with
  | .helloConfig c dev hello version => do
    pushConfigDone dev version ok
    afterHelloJob c dev hello clock
  | .helloFw _ => pure ()
  | .putConfig dev version => pushConfigDone dev version ok
  | .deploy jid => deployDone jid ok clock

/-- An exception in a handler ends the handler. -/
def guarded (c : Option Nat) (m : IngestM F Unit) : IngestM F Unit :=
  match c with
  | some c => Proc.onError m (endHandler c)
  | none => m

end Ingest

/-! ## Events -/

/-- What happens to the backend. -/
inductive Event (F : Type)
  /-- a UDP datagram arrives -/
  | datagram (data : List Byte) (clock : Clock F)
  /-- the handler of a connection takes the next frame from its decoder -/
  | frame (c : Nat) (frame : Frame) (clock : Clock F)
  /-- the transport of a connection is lost -/
  | lost (c : Nat)
  /-- the handler of a connection reads its end -/
  | ended (c : Nat)
  /-- a `drain` returns, or raises a `ConnectionError` -/
  | drained (i : Nat) (ok : Bool) (clock : Clock F)
  | offlinePass (clock : Clock F)
  | persistStats
  | tick (now clock : F)
  /-- the process stops and starts again on the same database -/
  | restart
  | deviceView (dev : String)
  | devices
  | putConfig (dev : String) (body : ConfigBody) (clock : Clock F)
  | firmwareAdd (body : FirmwareBody) (clock : Clock F)
  | firmwareDeploy (dev version : String) (clock : Clock F)
  | faultInject (dev : String) (body : FaultBody) (clock : Clock F)
  | deviceCmd (dev : String) (body : CmdBody) (clock : Clock F)
  | ackAlert (aid : Nat) (clock : F)
  | putRules (rules : Dict String (Json F))

namespace Ingest

variable {F : Type} [PyFloat F] [PyText F]

/-- The handler takes a frame unless it has ended or waits for a `drain`. -/
def onFrame (c : Nat) (f : Frame) (clock : Clock F) : IngestM F Unit := do
  let s ← Proc.get
  if (s.conn c).ended || s.busy c then pure ()
  else guarded (some c) (takeFrame c f clock)

def onEnded (c : Nat) : IngestM F Unit := do
  let s ← Proc.get
  if (s.conn c).ended || s.busy c then pure () else endHandler c

def onDrained (i : Nat) (ok : Bool) (clock : Clock F) : IngestM F Unit := do
  let s ← Proc.get
  match s.waiting[i]? with
  | none => pure ()
  | some task =>
    Proc.modify fun s => { s with waiting := s.waiting.eraseIdx i }
    guarded task.handler (goOn task ok clock)

/-- One event; an exception that leaves a request or a handler is the result. -/
def handle : Event F → IngestM F Unit
  | .datagram data clock => onDatagram data clock
  | .frame c f clock => onFrame c f clock
  | .lost c => modifyConn c fun k => { k with closing := true }
  | .ended c => onEnded c
  | .drained i ok clock => onDrained i ok clock
  | .offlinePass clock => offlinePass clock
  | .persistStats => persistStats
  | .tick now clock => engineDo (.tick now clock)
  | .restart => restart
  | .deviceView dev => deviceView dev
  | .devices => devices
  | .putConfig dev body clock => putConfig dev body clock
  | .firmwareAdd body clock => firmwareAdd body clock
  | .firmwareDeploy dev version clock => firmwareDeploy dev version clock
  | .faultInject dev body clock => faultInject dev body clock
  | .deviceCmd dev body clock => deviceCmd dev body clock
  | .ackAlert aid clock => engineDo (.ackAlert aid clock)
  | .putRules rules => engineDo (.setRules rules)

/-- The state after an event; what was done before an exception stays done. -/
def step (s : Ingest F) (e : Event F) : Ingest F := (handle e s).2

/-- A run on a new database. -/
def run (events : List (Event F)) : Ingest F := exec step (load (Engine.init {})) events

end Ingest

end EcuTelemetry.Backend
