/-
  EcuTelemetry.Firmware.Decoder

  The rest of firmware/src/protocol.cpp: the names, the firmware versions,
  `ByteReader`, the decoders of the eleven messages and `decodeFrame`.
-/

import EcuTelemetry.Firmware.Protocol
import EcuTelemetry.Lib.Printf

namespace EcuTelemetry.Firmware

open Printf

/-! ## Names -/

def kHeaderSize : Nat := 36
def kCrcSize : Nat := 4

def msgTypeName (t : UInt8) : List Byte :=
  if t = MsgType.TELEMETRY then str "TELEMETRY"
  else if t = MsgType.HELLO then str "HELLO"
  else if t = MsgType.HEARTBEAT then str "HEARTBEAT"
  else if t = MsgType.LOG then str "LOG"
  else if t = MsgType.CONFIG_SET then str "CONFIG_SET"
  else if t = MsgType.CONFIG_ACK then str "CONFIG_ACK"
  else if t = MsgType.FW_UPDATE then str "FW_UPDATE"
  else if t = MsgType.FW_ACK then str "FW_ACK"
  else if t = MsgType.FAULT_INJECT then str "FAULT_INJECT"
  else if t = MsgType.FAULT_ACK then str "FAULT_ACK"
  else if t = MsgType.CMD then str "CMD"
  else str "UNKNOWN"

def F_OVERTEMP : UInt32 := 0x01
def F_OVERCURRENT : UInt32 := 0x02
def F_UNDERVOLTAGE : UInt32 := 0x04
def F_VIBRATION_HIGH : UInt32 := 0x08
def F_SENSOR_STUCK : UInt32 := 0x10
def F_GPS_LOST : UInt32 := 0x20
def F_COMM_DEGRADED : UInt32 := 0x40
def F_ENCODER_FAULT : UInt32 := 0x80
def F_ALL : UInt32 := 0xFF

/-- `kFaults`. -/
def kFaults : List (UInt32 × String) :=
  [(F_OVERTEMP, "OVERTEMP"), (F_OVERCURRENT, "OVERCURRENT"), (F_UNDERVOLTAGE, "UNDERVOLTAGE"),
   (F_VIBRATION_HIGH, "VIBRATION_HIGH"), (F_SENSOR_STUCK, "SENSOR_STUCK"),
   (F_GPS_LOST, "GPS_LOST"), (F_COMM_DEGRADED, "COMM_DEGRADED"),
   (F_ENCODER_FAULT, "ENCODER_FAULT")]

/-- `faultName`. -/
def faultName (bit : UInt32) : List Byte :=
  match kFaults.find? fun f => f.1 = bit with
  | some f => str f.2
  | none => str "UNKNOWN"

/-- `faultFlagsToString`. -/
def faultFlagsToString (mask : UInt32) : List Byte :=
  if mask = 0 then str "NONE"
  else
    let named := (kFaults.filter fun f => mask &&& f.1 ≠ 0).map fun f => str f.2
    let unknown := mask &&& ~~~F_ALL
    let rest := if unknown ≠ 0 then [str "0x" ++ hex 0 unknown.toNat] else []
    (named ++ rest).intersperse (str "|") |>.flatten

/-! ## Firmware versions -/

/-- The state of the loop of `parseFwVersion`. -/
structure VersionParse where
  parts : List UInt32 := [0, 0, 0]
  idx : Nat := 0
  haveDigit : Bool := false
deriving DecidableEq, Repr

/-- One character; `none` is `return false`. -/
def VersionParse.next (p : VersionParse) (c : Byte) : Option VersionParse :=
  if 0x30 ≤ c ∧ c ≤ 0x39 then
    let part := p.parts.getD p.idx 0 * 10 + (c - 0x30).toUInt32
    if part > 65535 then none
    else some { p with parts := p.parts.set p.idx part, haveDigit := true }
  else if c = 0x2E then
    if !p.haveDigit || p.idx = 2 then none
    else some { p with idx := p.idx + 1, haveDigit := false }
  else none

/-- `parseFwVersion`. -/
def parseFwVersion (s : List Byte) : Option UInt32 := do
  let p ← s.foldlM VersionParse.next {}
  let major := p.parts.getD 0 0
  let minor := p.parts.getD 1 0
  let patch := p.parts.getD 2 0
  if p.idx ≠ 2 || !p.haveDigit then none
  else if major > 0xFFFF || minor > 0xFF || patch > 0xFF then none
  else some ((major <<< 16) ||| (minor <<< 8) ||| patch)

/-- `fwVersionToString`. -/
def fwVersionToString (v : UInt32) : List Byte :=
  dec ((v >>> 16) &&& 0xFFFF).toNat ++ str "." ++ dec ((v >>> 8) &&& 0xFF).toNat ++ str "." ++
    dec (v &&& 0xFF).toNat

/-! ## `ByteReader` -/

structure ByteReader where
  data : List Byte
  pos : Nat := 0
  ok : Bool := true

namespace ByteReader

/-- `need`: `false` also clears `ok`. -/
def need (r : ByteReader) (n : Nat) : Bool := r.ok && decide (r.pos + n ≤ r.data.length)

def fail (r : ByteReader) : ByteReader := { r with ok := false }

/-- The next `n` bytes. -/
def field (r : ByteReader) (n : Nat) : List Byte := (r.data.drop r.pos).take n

def u8 (r : ByteReader) : UInt8 × ByteReader :=
  if r.need 1 then (UInt8.ofNat (leNat (r.field 1)), { r with pos := r.pos + 1 }) else (0, r.fail)

def u16 (r : ByteReader) : UInt16 × ByteReader :=
  if r.need 2 then (UInt16.ofNat (leNat (r.field 2)), { r with pos := r.pos + 2 }) else (0, r.fail)

def u32 (r : ByteReader) : UInt32 × ByteReader :=
  if r.need 4 then (UInt32.ofNat (leNat (r.field 4)), { r with pos := r.pos + 4 }) else (0, r.fail)

def u64 (r : ByteReader) : UInt64 × ByteReader :=
  if r.need 8 then (UInt64.ofNat (leNat (r.field 8)), { r with pos := r.pos + 8 }) else (0, r.fail)

def f32 (r : ByteReader) : F32 × ByteReader :=
  let (u, r) := r.u32
  (⟨u⟩, r)

def f64 (r : ByteReader) : F64 × ByteReader :=
  let (u, r) := r.u64
  (⟨u⟩, r)

/-- `fixedStr` stops at the first NUL. -/
def fixedStr (r : ByteReader) (n : Nat) : List Byte × ByteReader :=
  if r.need n then (cBytes (r.field n), { r with pos := r.pos + n }) else ([], r.fail)

/-- `rest`: the bytes that are left, as they are. -/
def rest (r : ByteReader) : List Byte × ByteReader :=
  if r.ok then (r.data.drop r.pos, { r with pos := r.data.length }) else ([], r)

def skip (r : ByteReader) (n : Nat) : ByteReader :=
  if r.need n then { r with pos := r.pos + n } else r.fail

end ByteReader

/-! ## Payloads -/

def Telemetry.decode (p : List Byte) : Option Telemetry :=
  if p.length ≠ 48 then none
  else
    let (rpm, r) := ByteReader.f32 { data := p }
    let (tempC, r) := r.f32
    let (currentA, r) := r.f32
    let (voltageV, r) := r.f32
    let (vibrationG, r) := r.f32
    let (speedKph, r) := r.f32
    let (lat, r) := r.f64
    let (lon, r) := r.f64
    let (faultFlags, r) := r.u32
    let (state, r) := r.u8
    if r.ok then
      some { rpm, tempC, currentA, voltageV, vibrationG, speedKph, lat, lon, faultFlags, state }
    else none

def Hello.decode (p : List Byte) : Option Hello :=
  if p.length ≠ 40 then none
  else
    let (fwString, r) := ByteReader.fixedStr { data := p } 16
    let (hwModel, r) := r.fixedStr 16
    let (configVersion, r) := r.u32
    let (telemetryHz, r) := r.u16
    if r.ok then some { fwString, hwModel, configVersion, telemetryHz } else none

def Heartbeat.decode (p : List Byte) : Option Heartbeat :=
  if p.length ≠ 16 then none
  else
    let (uptimeS, r) := ByteReader.u32 { data := p }
    let (framesSent, r) := r.u32
    let (configVersion, r) := r.u32
    let (reconnects, r) := r.u32
    if r.ok then some { uptimeS, framesSent, configVersion, reconnects } else none

def LogMsg.decode (p : List Byte) : Option LogMsg :=
  if p.length < 4 then none
  else
    let (level, r) := ByteReader.u8 { data := p }
    let r := r.skip 3
    let (message, r) := r.rest
    if r.ok then some { level, message } else none

def ConfigSet.decode (p : List Byte) : Option ConfigSet :=
  if p.length ≠ 20 then none
  else
    let (configVersion, r) := ByteReader.u32 { data := p }
    let (telemetryHz, r) := r.u16
    let (logLevel, r) := r.u8
    let r := r.skip 1
    let (rpmLimit, r) := r.f32
    let (tempLimitC, r) := r.f32
    let (currentLimitA, r) := r.f32
    if r.ok then
      some { configVersion, telemetryHz, logLevel, rpmLimit, tempLimitC, currentLimitA }
    else none

def ConfigAck.decode (p : List Byte) : Option ConfigAck :=
  if p.length ≠ 8 then none
  else
    let (configVersion, r) := ByteReader.u32 { data := p }
    let (status, r) := r.u8
    if r.ok then some { configVersion, status } else none

def FwUpdate.decode (p : List Byte) : Option FwUpdate :=
  if p.length ≠ 24 then none
  else
    let (targetVersion, r) := ByteReader.fixedStr { data := p } 16
    let (imageSizeBytes, r) := r.u32
    let (imageCrc, r) := r.u32
    if r.ok then some { targetVersion, imageSizeBytes, imageCrc } else none

def FwAck.decode (p : List Byte) : Option FwAck :=
  if p.length ≠ 20 then none
  else
    let (status, r) := ByteReader.u8 { data := p }
    let r := r.skip 3
    let (version, r) := r.fixedStr 16
    if r.ok then some { status, version } else none

def FaultInject.decode (p : List Byte) : Option FaultInject :=
  if p.length ≠ 12 then none
  else
    let (setFlags, r) := ByteReader.u32 { data := p }
    let (clearFlags, r) := r.u32
    let (durationMs, r) := r.u32
    if r.ok then some { setFlags, clearFlags, durationMs } else none

def FaultAck.decode (p : List Byte) : Option FaultAck :=
  if p.length ≠ 4 then none
  else
    let (activeFlags, r) := ByteReader.u32 { data := p }
    if r.ok then some { activeFlags } else none

def Cmd.decode (p : List Byte) : Option Cmd :=
  if p.length ≠ 4 then none
  else
    let (cmd, r) := ByteReader.u8 { data := p }
    if r.ok then some { cmd } else none

/-- The `decode` that goes with a type; `none` also for a type that has no message. -/
def Message.decode (msgType : UInt8) (p : List Byte) : Option Message :=
  if msgType = MsgType.TELEMETRY then (Telemetry.decode p).map .telemetry
  else if msgType = MsgType.HELLO then (Hello.decode p).map .hello
  else if msgType = MsgType.HEARTBEAT then (Heartbeat.decode p).map .heartbeat
  else if msgType = MsgType.LOG then (LogMsg.decode p).map .log
  else if msgType = MsgType.CONFIG_SET then (ConfigSet.decode p).map .configSet
  else if msgType = MsgType.CONFIG_ACK then (ConfigAck.decode p).map .configAck
  else if msgType = MsgType.FW_UPDATE then (FwUpdate.decode p).map .fwUpdate
  else if msgType = MsgType.FW_ACK then (FwAck.decode p).map .fwAck
  else if msgType = MsgType.FAULT_INJECT then (FaultInject.decode p).map .faultInject
  else if msgType = MsgType.FAULT_ACK then (FaultAck.decode p).map .faultAck
  else if msgType = MsgType.CMD then (Cmd.decode p).map .cmd
  else none

@[simp] theorem Message.decode_telemetry (p : List Byte) :
    Message.decode MsgType.TELEMETRY p = (Telemetry.decode p).map .telemetry := rfl

@[simp] theorem Message.decode_hello (p : List Byte) :
    Message.decode MsgType.HELLO p = (Hello.decode p).map .hello := rfl

@[simp] theorem Message.decode_heartbeat (p : List Byte) :
    Message.decode MsgType.HEARTBEAT p = (Heartbeat.decode p).map .heartbeat := rfl

@[simp] theorem Message.decode_log (p : List Byte) :
    Message.decode MsgType.LOG p = (LogMsg.decode p).map .log := rfl

@[simp] theorem Message.decode_configSet (p : List Byte) :
    Message.decode MsgType.CONFIG_SET p = (ConfigSet.decode p).map .configSet := rfl

@[simp] theorem Message.decode_configAck (p : List Byte) :
    Message.decode MsgType.CONFIG_ACK p = (ConfigAck.decode p).map .configAck := rfl

@[simp] theorem Message.decode_fwUpdate (p : List Byte) :
    Message.decode MsgType.FW_UPDATE p = (FwUpdate.decode p).map .fwUpdate := rfl

@[simp] theorem Message.decode_fwAck (p : List Byte) :
    Message.decode MsgType.FW_ACK p = (FwAck.decode p).map .fwAck := rfl

@[simp] theorem Message.decode_faultInject (p : List Byte) :
    Message.decode MsgType.FAULT_INJECT p = (FaultInject.decode p).map .faultInject := rfl

@[simp] theorem Message.decode_faultAck (p : List Byte) :
    Message.decode MsgType.FAULT_ACK p = (FaultAck.decode p).map .faultAck := rfl

@[simp] theorem Message.decode_cmd (p : List Byte) :
    Message.decode MsgType.CMD p = (Cmd.decode p).map .cmd := rfl

namespace CmdCode

def REBOOT : UInt8 := 0
def CLEAR_FAULTS : UInt8 := 1
def REQUEST_HELLO : UInt8 := 2

end CmdCode

namespace FwAckStatus

def ACCEPTED : UInt8 := 0
def DOWNLOADING : UInt8 := 1
def APPLIED : UInt8 := 2
def REJECTED : UInt8 := 3

end FwAckStatus

/-! ## Frames -/

inductive DecodeError
  | TOO_SHORT
  | BAD_MAGIC
  | BAD_VERSION
  | BAD_LENGTH
  | BAD_CRC
deriving DecidableEq, Repr

def decodeErrorName : DecodeError → List Byte
  | .TOO_SHORT => str "TOO_SHORT"
  | .BAD_MAGIC => str "BAD_MAGIC"
  | .BAD_VERSION => str "BAD_VERSION"
  | .BAD_LENGTH => str "BAD_LENGTH"
  | .BAD_CRC => str "BAD_CRC"

/-- A decoded frame. -/
structure Frame where
  hdr : FrameHeader
  payloadLen : UInt16
  payload : List Byte
deriving DecidableEq, Repr

/-- `decodeFrame`: the frame and the bytes it took. -/
def decodeFrame (data : List Byte) : Except DecodeError (Frame × Nat) :=
  if data.length < kHeaderSize then .error .TOO_SHORT
  else
    let (magic, r) := ByteReader.u16 { data := data }
    let (version, r) := r.u8
    let (msgType, r) := r.u8
    let (deviceId, r) := r.fixedStr kDeviceIdLen
    let (seq, r) := r.u32
    let (tsMs, r) := r.u64
    let (fwVersion, r) := r.u32
    let (payloadLen, r) := r.u16
    -- read, and checked by nobody
    let (reserved, _) := r.u16
    if magic ≠ kMagic then .error .BAD_MAGIC
    else if version ≠ kProtoVersion then .error .BAD_VERSION
    else if payloadLen.toNat > kMaxPayload then .error .BAD_LENGTH
    else
      let total := kHeaderSize + payloadLen.toNat + kCrcSize
      if data.length < total then .error .TOO_SHORT
      else
        -- header and payload, without the checksum
        let expect := crc32 (data.take (kHeaderSize + payloadLen.toNat)) 0
        let cr : ByteReader :=
          { data := (data.drop (kHeaderSize + payloadLen.toNat)).take kCrcSize }
        if cr.u32.1 ≠ expect then .error .BAD_CRC
        else .ok
          ({ hdr := { magic, version, msgType, deviceId, seq, tsMs, fwVersion, reserved },
             payloadLen,
             payload := (data.drop kHeaderSize).take payloadLen.toNat }, total)

/-- A frame takes some bytes. -/
theorem decodeFrame_pos {data : List Byte} {f : Frame} {used : Nat}
    (h : decodeFrame data = .ok (f, used)) : 0 < used := by
  unfold decodeFrame at h
  split at h
  · cases h
  · dsimp only at h
    split_ifs at h
    cases h
    rw [kHeaderSize]
    omega

end EcuTelemetry.Firmware
