/-
  EcuTelemetry.Backend.Protocol

  The wire codec of backend/app/protocol.py: the 36-byte frame header, the
  eleven payload classes with their `struct` formats, `encode` and `decode`.

  Python integers are natural numbers (no negative one reaches the codec),
  floats are binary64 bit patterns, `str` is `String`.  `struct.pack` raises
  on an integer that does not fit its field and on a finite float that rounds
  to a binary32 infinity; a call that can raise returns `Except PyError`.
-/

import EcuTelemetry.Lib.Binary
import EcuTelemetry.Lib.Crc32
import EcuTelemetry.Lib.Decimal
import EcuTelemetry.Lib.Text

namespace EcuTelemetry.Backend

/-- `ProtocolError` and its subclasses. -/
inductive ProtocolErrorKind
  | protocolError
  | badMagic
  | badVersion
  | badCRC
  | badLength
deriving DecidableEq, Repr

/-- The exceptions the modelled code can meet. -/
inductive PyError
  | protocol (kind : ProtocolErrorKind) (msg : String)
  | structError
  | overflowError
  | valueError
  | typeError
  | keyError
  | attributeError
  | zeroDivisionError
  | sqliteError
  | unicodeEncodeError
deriving DecidableEq, Repr

namespace Protocol

/-! ## Constants -/

def MAGIC : Nat := 0x4554
def VERSION : Nat := 1
def HEADER_LEN : Nat := 36
def MAX_PAYLOAD : Nat := 1024

namespace MsgType

def TELEMETRY : Nat := 0x01
def HELLO : Nat := 0x02
def HEARTBEAT : Nat := 0x03
def LOG : Nat := 0x04
def CONFIG_SET : Nat := 0x10
def CONFIG_ACK : Nat := 0x11
def FW_UPDATE : Nat := 0x12
def FW_ACK : Nat := 0x13
def FAULT_INJECT : Nat := 0x14
def FAULT_ACK : Nat := 0x15
def CMD : Nat := 0x20

end MsgType

/-- `FAULT_FLAGS`, in the order of the dictionary. -/
def FAULT_FLAGS : List (String × Nat) :=
  [("OVERTEMP", 0x01), ("OVERCURRENT", 0x02), ("UNDERVOLTAGE", 0x04), ("VIBRATION_HIGH", 0x08),
   ("SENSOR_STUCK", 0x10), ("GPS_LOST", 0x20), ("COMM_DEGRADED", 0x40), ("ENCODER_FAULT", 0x80)]

def CONFIG_ACK_STATUS : List (Nat × String) := [(0, "applied"), (1, "rejected")]

def FW_ACK_STATUS : List (Nat × String) :=
  [(0, "accepted"), (1, "downloading"), (2, "applied"), (3, "rejected")]

/-- `TABLE.get(status, str(status))`. -/
def statusName (table : List (Nat × String)) (status : Nat) : String :=
  (table.lookup status).getD (toString status)

theorem statusName_cases (table : List (Nat × String)) (status : Nat) :
    statusName table status ∈ table.map Prod.snd ∨ statusName table status = toString status := by
  rcases h : table.lookup status with _ | name
  · exact .inr (by rw [statusName, h]; rfl)
  · obtain ⟨l₁, l₂, rfl, -⟩ := List.lookup_eq_some_iff.mp h
    refine .inl (List.mem_map.mpr ⟨(status, name), ?_, by rw [statusName, h]; rfl⟩)
    exact List.mem_append_right _ List.mem_cons_self

/-- A decimal number has no letters. -/
theorem toString_ne {n : Nat} {s : String} {c : Char} (hc : c ∈ s.toList) (hdigit : ¬ c.isDigit) :
    toString n ≠ s := by
  rintro rfl
  have hmem : c ∈ Nat.toDigits 10 n := by
    rw [← Nat.toList_repr]
    exact hc
  exact hdigit (Nat.isDigit_of_mem_toDigits (by decide) (by decide) hmem)

/-! ## Flags and firmware versions -/

def flagsToNames (flags : Nat) : List String :=
  (FAULT_FLAGS.filter fun f => flags &&& f.2 ≠ 0).map Prod.fst

/-- `names_to_flags`. -/
def namesToFlags (names : List String) : Except PyError Nat :=
  names.foldlM (fun out n =>
    match FAULT_FLAGS.lookup (String.ofList (upper (strip n.toList))) with
    | some bit => .ok (out ||| bit)
    | none => .error (.protocol .protocolError ("unknown fault flag '" ++ n ++ "'"))) 0

/-- `fw_encode`. -/
def fwEncode (version : String) : Except PyError Nat :=
  let bad := PyError.protocol .protocolError ("bad fw version '" ++ version ++ "'")
  match splitOn '.' (strip version.toList) with
  | [a, b, c] =>
    match pyInt a, pyInt b, pyInt c with
    | some major, some minor, some patch =>
      if 0 ≤ major ∧ major < 65536 ∧ 0 ≤ minor ∧ minor < 256 ∧ 0 ≤ patch ∧ patch < 256 then
        .ok ((major.toNat <<< 16) ||| (minor.toNat <<< 8) ||| patch.toNat)
      else
        .error (.protocol .protocolError ("fw version out of range '" ++ version ++ "'"))
    | _, _, _ => .error bad
  | _ => .error bad

/-- `fw_decode`. -/
def fwDecode (v : Nat) : String :=
  toString ((v >>> 16) &&& 0xFFFF) ++ "." ++ toString ((v >>> 8) &&& 0xFF) ++ "." ++
    toString (v &&& 0xFF)

/-! ## `struct` -/

/-- An unsigned integer field of `k` bytes. -/
def packU (k v : Nat) : Except PyError (List Byte) :=
  if v < 256 ^ k then .ok (leBytes k v) else .error .structError

/-- A `f` field. -/
def packF (x : F64) : Except PyError (List Byte) :=
  match x.toF32 with
  | some y => .ok (leBytes 4 y.bits.toNat)
  | none => .error .overflowError

/-- A `d` field. -/
def packD (x : F64) : List Byte := leBytes 8 x.bits.toNat

/-- The next `k` bytes as an unsigned integer, and the rest. -/
def readU (k : Nat) (bs : List Byte) : Nat × List Byte := (leNat (bs.take k), bs.drop k)

/-- The next `f` field. -/
def readF (bs : List Byte) : F64 × List Byte :=
  (F32.toF64 ⟨UInt32.ofNat (leNat (bs.take 4))⟩, bs.drop 4)

/-- The next `d` field. -/
def readD (bs : List Byte) : F64 × List Byte :=
  (⟨UInt64.ofNat (leNat (bs.take 8))⟩, bs.drop 8)

/-- The next `ns` field. -/
def readS (n : Nat) (bs : List Byte) : List Byte × List Byte := (bs.take n, bs.drop n)

/-- `_cstr`. -/
def cstr (raw : List Byte) : String := asciiDecode (cBytes raw)

/-- `_pad`: the last byte of a field is kept for a NUL. -/
def pad (s : String) (n : Nat) : List Byte :=
  let e := asciiEncode s
  padTo n (if e.length ≥ n then e.take (n - 1) else e)

/-! ## Header -/

structure Header where
  msgType : Nat
  deviceId : String
  seq : Nat
  tsMs : Nat
  fwVersion : Nat
  payloadLen : Nat := 0
  version : Nat := VERSION
deriving DecidableEq, Repr

/-- `Header.pack`. -/
def Header.pack (h : Header) : Except PyError (List Byte) := do
  let version ← packU 1 h.version
  let msgType ← packU 1 h.msgType
  let payloadLen ← packU 2 h.payloadLen
  return leBytes 2 MAGIC ++ version ++ msgType ++ pad h.deviceId 12 ++
    leBytes 4 (h.seq % 2 ^ 32) ++ leBytes 8 (h.tsMs % 2 ^ 64) ++ leBytes 4 (h.fwVersion % 2 ^ 32) ++
    payloadLen ++ leBytes 2 0

/-- `f"{v:04x}"`. -/
def hex4 (v : Nat) : String :=
  let digits := Nat.toDigits 16 v
  String.ofList (List.replicate (4 - digits.length) '0' ++ digits)

/-- The fields of `HEADER_FMT`, as `struct.unpack_from` returns them. -/
structure HeaderFields where
  magic : Nat
  ver : Nat
  mt : Nat
  dev : List Byte
  seq : Nat
  ts : Nat
  fw : Nat
  plen : Nat

def HeaderFields.read (bs : List Byte) : HeaderFields :=
  let (magic, bs) := readU 2 bs
  let (ver, bs) := readU 1 bs
  let (mt, bs) := readU 1 bs
  let (dev, bs) := readS 12 bs
  let (seq, bs) := readU 4 bs
  let (ts, bs) := readU 8 bs
  let (fw, bs) := readU 4 bs
  let (plen, _) := readU 2 bs
  { magic, ver, mt, dev, seq, ts, fw, plen }

/-- `Header.unpack`. -/
def Header.unpack (buf : List Byte) : Except PyError Header :=
  let r := HeaderFields.read buf
  if buf.length < HEADER_LEN then .error (.protocol .badLength "short header")
  else if r.magic ≠ MAGIC then .error (.protocol .badMagic ("magic 0x" ++ hex4 r.magic))
  else if r.ver ≠ VERSION then .error (.protocol .badVersion ("version " ++ toString r.ver))
  else if r.plen > MAX_PAYLOAD then
    .error (.protocol .badLength ("payload_len " ++ toString r.plen))
  else
    .ok { msgType := r.mt, deviceId := cstr r.dev, seq := r.seq, tsMs := r.ts, fwVersion := r.fw,
          payloadLen := r.plen, version := r.ver }

/-! ## Payloads -/

/-- `<ffffffddIB3x` -/
structure Telemetry where
  rpm : F64
  tempC : F64
  currentA : F64
  voltageV : F64
  vibrationG : F64
  speedKph : F64
  lat : F64
  lon : F64
  faultFlags : Nat
  state : Nat
deriving DecidableEq, Repr

def Telemetry.pack (t : Telemetry) : Except PyError (List Byte) := do
  let rpm ← packF t.rpm
  let temp ← packF t.tempC
  let current ← packF t.currentA
  let voltage ← packF t.voltageV
  let vibration ← packF t.vibrationG
  let speed ← packF t.speedKph
  return rpm ++ temp ++ current ++ voltage ++ vibration ++ speed ++ packD t.lat ++ packD t.lon ++
    leBytes 4 (t.faultFlags % 2 ^ 32) ++ leBytes 1 (t.state % 2 ^ 8) ++ [0, 0, 0]

def Telemetry.unpack (b : List Byte) : Except PyError Telemetry :=
  if b.length ≠ 48 then
    .error (.protocol .badLength ("telemetry payload " ++ toString b.length))
  else
    let (rpm, b) := readF b
    let (tempC, b) := readF b
    let (currentA, b) := readF b
    let (voltageV, b) := readF b
    let (vibrationG, b) := readF b
    let (speedKph, b) := readF b
    let (lat, b) := readD b
    let (lon, b) := readD b
    let (faultFlags, b) := readU 4 b
    let (state, _) := readU 1 b
    .ok { rpm, tempC, currentA, voltageV, vibrationG, speedKph, lat, lon, faultFlags, state }

/-- `<16s16sIHH` -/
structure Hello where
  fwString : String
  hwModel : String
  configVersion : Nat
  telemetryHz : Nat
deriving DecidableEq, Repr

def Hello.pack (h : Hello) : Except PyError (List Byte) := do
  let configVersion ← packU 4 h.configVersion
  let telemetryHz ← packU 2 h.telemetryHz
  return pad h.fwString 16 ++ pad h.hwModel 16 ++ configVersion ++ telemetryHz ++ leBytes 2 0

def Hello.unpack (b : List Byte) : Except PyError Hello :=
  if b.length ≠ 40 then .error (.protocol .badLength ("hello payload " ++ toString b.length))
  else
    let (fw, b) := readS 16 b
    let (hw, b) := readS 16 b
    let (cv, b) := readU 4 b
    let (hz, _) := readU 2 b
    .ok { fwString := cstr fw, hwModel := cstr hw, configVersion := cv, telemetryHz := hz }

/-- `<IIII` -/
structure Heartbeat where
  uptimeS : Nat
  framesSent : Nat
  configVersion : Nat
  reconnects : Nat
deriving DecidableEq, Repr

def Heartbeat.pack (h : Heartbeat) : Except PyError (List Byte) := do
  let uptimeS ← packU 4 h.uptimeS
  let framesSent ← packU 4 h.framesSent
  let configVersion ← packU 4 h.configVersion
  let reconnects ← packU 4 h.reconnects
  return uptimeS ++ framesSent ++ configVersion ++ reconnects

def Heartbeat.unpack (b : List Byte) : Except PyError Heartbeat :=
  if b.length ≠ 16 then .error (.protocol .badLength ("heartbeat payload " ++ toString b.length))
  else
    let (uptimeS, b) := readU 4 b
    let (framesSent, b) := readU 4 b
    let (configVersion, b) := readU 4 b
    let (reconnects, _) := readU 4 b
    .ok { uptimeS, framesSent, configVersion, reconnects }

/-- `<B3x` and UTF-8 text -/
structure Log where
  level : Nat
  message : String
deriving DecidableEq, Repr

def Log.pack (l : Log) : Except PyError (List Byte) := do
  let level ← packU 1 l.level
  return level ++ [0, 0, 0] ++ (utf8Encode l.message).take (MAX_PAYLOAD - 4)

def Log.unpack (b : List Byte) : Except PyError Log :=
  if b.length < 4 then .error (.protocol .badLength "log payload")
  else .ok { level := leNat (b.take 1), message := utf8Decode (b.drop 4) }

/-- `<IHBBfff` -/
structure ConfigSet where
  configVersion : Nat
  telemetryHz : Nat
  logLevel : Nat
  rpmLimit : F64
  tempLimitC : F64
  currentLimitA : F64
deriving DecidableEq, Repr

def ConfigSet.pack (c : ConfigSet) : Except PyError (List Byte) := do
  let configVersion ← packU 4 c.configVersion
  let telemetryHz ← packU 2 c.telemetryHz
  let logLevel ← packU 1 c.logLevel
  let rpmLimit ← packF c.rpmLimit
  let tempLimitC ← packF c.tempLimitC
  let currentLimitA ← packF c.currentLimitA
  return configVersion ++ telemetryHz ++ logLevel ++ leBytes 1 0 ++ rpmLimit ++ tempLimitC ++
    currentLimitA

def ConfigSet.unpack (b : List Byte) : Except PyError ConfigSet :=
  if b.length ≠ 20 then .error (.protocol .badLength "config_set payload")
  else
    let (configVersion, b) := readU 4 b
    let (telemetryHz, b) := readU 2 b
    let (logLevel, b) := readU 1 b
    let (_, b) := readU 1 b
    let (rpmLimit, b) := readF b
    let (tempLimitC, b) := readF b
    let (currentLimitA, _) := readF b
    .ok { configVersion, telemetryHz, logLevel, rpmLimit, tempLimitC, currentLimitA }

/-- `<IB3x` -/
structure ConfigAck where
  configVersion : Nat
  status : Nat
deriving DecidableEq, Repr

def ConfigAck.pack (c : ConfigAck) : Except PyError (List Byte) := do
  let configVersion ← packU 4 c.configVersion
  let status ← packU 1 c.status
  return configVersion ++ status ++ [0, 0, 0]

def ConfigAck.unpack (b : List Byte) : Except PyError ConfigAck :=
  if b.length ≠ 8 then .error (.protocol .badLength "config_ack payload")
  else
    let (configVersion, b) := readU 4 b
    let (status, _) := readU 1 b
    .ok { configVersion, status }

def ConfigAck.statusName (c : ConfigAck) : String := Protocol.statusName CONFIG_ACK_STATUS c.status

/-- `<16sII` -/
structure FwUpdate where
  targetVersion : String
  imageSizeBytes : Nat
  imageCrc : Nat
deriving DecidableEq, Repr

def FwUpdate.pack (f : FwUpdate) : Except PyError (List Byte) := do
  let size ← packU 4 f.imageSizeBytes
  let crc ← packU 4 f.imageCrc
  return pad f.targetVersion 16 ++ size ++ crc

def FwUpdate.unpack (b : List Byte) : Except PyError FwUpdate :=
  if b.length ≠ 24 then .error (.protocol .badLength "fw_update payload")
  else
    let (v, b) := readS 16 b
    let (sz, b) := readU 4 b
    let (crc, _) := readU 4 b
    .ok { targetVersion := cstr v, imageSizeBytes := sz, imageCrc := crc }

/-- `<B3x16s` -/
structure FwAck where
  status : Nat
  version : String
deriving DecidableEq, Repr

def FwAck.pack (f : FwAck) : Except PyError (List Byte) := do
  let status ← packU 1 f.status
  return status ++ [0, 0, 0] ++ pad f.version 16

def FwAck.unpack (b : List Byte) : Except PyError FwAck :=
  if b.length ≠ 20 then .error (.protocol .badLength "fw_ack payload")
  else
    let (status, b) := readU 1 b
    let (_, b) := readS 3 b
    let (v, _) := readS 16 b
    .ok { status := status, version := cstr v }

def FwAck.statusName (f : FwAck) : String := Protocol.statusName FW_ACK_STATUS f.status

/-- `<III` -/
structure FaultInject where
  setFlags : Nat
  clearFlags : Nat
  durationMs : Nat
deriving DecidableEq, Repr

def FaultInject.pack (f : FaultInject) : Except PyError (List Byte) := do
  let setFlags ← packU 4 f.setFlags
  let clearFlags ← packU 4 f.clearFlags
  let durationMs ← packU 4 f.durationMs
  return setFlags ++ clearFlags ++ durationMs

def FaultInject.unpack (b : List Byte) : Except PyError FaultInject :=
  if b.length ≠ 12 then .error (.protocol .badLength "fault_inject payload")
  else
    let (setFlags, b) := readU 4 b
    let (clearFlags, b) := readU 4 b
    let (durationMs, _) := readU 4 b
    .ok { setFlags, clearFlags, durationMs }

/-- `<I` -/
structure FaultAck where
  activeFlags : Nat
deriving DecidableEq, Repr

def FaultAck.pack (f : FaultAck) : Except PyError (List Byte) := packU 4 f.activeFlags

def FaultAck.unpack (b : List Byte) : Except PyError FaultAck :=
  if b.length ≠ 4 then .error (.protocol .badLength "fault_ack payload")
  else .ok { activeFlags := (readU 4 b).1 }

/-- `<B3x` -/
structure Cmd where
  cmd : Nat
deriving DecidableEq, Repr

def Cmd.pack (c : Cmd) : Except PyError (List Byte) := do
  let cmd ← packU 1 c.cmd
  return cmd ++ [0, 0, 0]

def Cmd.unpack (b : List Byte) : Except PyError Cmd :=
  if b.length ≠ 4 then .error (.protocol .badLength "cmd payload")
  else .ok { cmd := (readU 1 b).1 }

/-- An instance of one of the payload classes. -/
inductive Payload
  | telemetry (p : Telemetry)
  | hello (p : Hello)
  | heartbeat (p : Heartbeat)
  | log (p : Log)
  | configSet (p : ConfigSet)
  | configAck (p : ConfigAck)
  | fwUpdate (p : FwUpdate)
  | fwAck (p : FwAck)
  | faultInject (p : FaultInject)
  | faultAck (p : FaultAck)
  | cmd (p : Cmd)
deriving DecidableEq, Repr

/-- `payload.TYPE`. -/
def Payload.type : Payload → Nat
  | telemetry _ => MsgType.TELEMETRY
  | hello _ => MsgType.HELLO
  | heartbeat _ => MsgType.HEARTBEAT
  | log _ => MsgType.LOG
  | configSet _ => MsgType.CONFIG_SET
  | configAck _ => MsgType.CONFIG_ACK
  | fwUpdate _ => MsgType.FW_UPDATE
  | fwAck _ => MsgType.FW_ACK
  | faultInject _ => MsgType.FAULT_INJECT
  | faultAck _ => MsgType.FAULT_ACK
  | cmd _ => MsgType.CMD

/-- `payload.pack()`. -/
def Payload.pack : Payload → Except PyError (List Byte)
  | telemetry p => p.pack
  | hello p => p.pack
  | heartbeat p => p.pack
  | log p => p.pack
  | configSet p => p.pack
  | configAck p => p.pack
  | fwUpdate p => p.pack
  | fwAck p => p.pack
  | faultInject p => p.pack
  | faultAck p => p.pack
  | cmd p => p.pack

/-- `PAYLOAD_CLASSES`: the `unpack` of each class under its type. -/
def PAYLOAD_CLASSES : List (Nat × (List Byte → Except PyError Payload)) :=
  [(MsgType.TELEMETRY, fun b => (Telemetry.unpack b).map .telemetry),
   (MsgType.HELLO, fun b => (Hello.unpack b).map .hello),
   (MsgType.HEARTBEAT, fun b => (Heartbeat.unpack b).map .heartbeat),
   (MsgType.LOG, fun b => (Log.unpack b).map .log),
   (MsgType.CONFIG_SET, fun b => (ConfigSet.unpack b).map .configSet),
   (MsgType.CONFIG_ACK, fun b => (ConfigAck.unpack b).map .configAck),
   (MsgType.FW_UPDATE, fun b => (FwUpdate.unpack b).map .fwUpdate),
   (MsgType.FW_ACK, fun b => (FwAck.unpack b).map .fwAck),
   (MsgType.FAULT_INJECT, fun b => (FaultInject.unpack b).map .faultInject),
   (MsgType.FAULT_ACK, fun b => (FaultAck.unpack b).map .faultAck),
   (MsgType.CMD, fun b => (Cmd.unpack b).map .cmd)]

/-! ## Frames -/

/-- `Frame.payload`: an instance of a class, or the bytes of an unknown type. -/
inductive Body
  | known (p : Payload)
  | raw (b : List Byte)
deriving DecidableEq, Repr

structure Frame where
  header : Header
  payload : Body
  raw : List Byte
deriving DecidableEq, Repr

def Frame.msgType (f : Frame) : Nat := f.header.msgType
def Frame.deviceId (f : Frame) : String := f.header.deviceId

/-- `zlib.crc32`. -/
def zlibCrc32 (bs : List Byte) : Nat := (Crc32.crc32 0#32 bs).toNat

/-- `payload if isinstance(payload, bytes) else payload.pack()`. -/
def Body.pack : Body → Except PyError (List Byte)
  | .known p => p.pack
  | .raw b => .ok b

/-- `cls.unpack(raw_payload) if cls else raw_payload`. -/
def Body.unpack (msgType : Nat) (rawPayload : List Byte) : Except PyError Body :=
  match PAYLOAD_CLASSES.lookup msgType with
  | some unpack => (unpack rawPayload).map .known
  | none => .ok (.raw rawPayload)

/-- `encode`. -/
def encode (msgType : Nat) (deviceId : String) (seq tsMs fwVersion : Nat) (payload : Body) :
    Except PyError (List Byte) := do
  let body ← payload.pack
  if body.length > MAX_PAYLOAD then
    throw (.protocol .badLength ("payload too big " ++ toString body.length))
  let hdr ← Header.pack { msgType := msgType, deviceId := deviceId, seq := seq, tsMs := tsMs,
                          fwVersion := fwVersion, payloadLen := body.length }
  let frame := hdr ++ body
  return frame ++ leBytes 4 (zlibCrc32 frame)

/-- `encode_frame`; the firmware version is a number or a version string. -/
def encodeFrame (deviceId : String) (seq tsMs : Nat) (fwVersion : Nat ⊕ String)
    (payload : Payload) : Except PyError (List Byte) := do
  let fw ← match fwVersion with
    | .inl v => pure v
    | .inr s => fwEncode s
  encode payload.type deviceId seq tsMs fw (.known payload)

/-- The frame of a payload, with the sequence number, time and firmware 0. -/
def frameOf (deviceId : String) (payload : Payload) : Frame where
  header := { msgType := payload.type, deviceId := deviceId, seq := 0, tsMs := 0, fwVersion := 0,
              payloadLen := (payload.pack.toOption.getD []).length }
  payload := .known payload
  raw := (encodeFrame deviceId 0 0 (.inl 0) payload).toOption.getD []

/-- `decode`. -/
def decode (buf : List Byte) : Except PyError Frame :=
  match Header.unpack buf with
  | .error e => .error e
  | .ok hdr =>
    let total := HEADER_LEN + hdr.payloadLen + 4
    if buf.length < total then
      .error (.protocol .badLength ("need " ++ toString total ++ " have " ++ toString buf.length))
    else
      -- bytes behind the frame are left alone
      let body := buf.take total
      let crc := leNat (body.drop (total - 4))
      if zlibCrc32 (body.take (total - 4)) ≠ crc then .error (.protocol .badCRC "crc mismatch")
      else
        let rawPayload := (body.take (total - 4)).drop HEADER_LEN
        (Body.unpack hdr.msgType rawPayload).map fun payload =>
          { header := hdr, payload := payload, raw := body }

/-- A header that packs: what is left is the payload. -/
theorem encode_ok {msgType seq ts fw : Nat} {id : String} {payload : Body} {body : List Byte}
    (hp : payload.pack = .ok body) (hb : body.length ≤ MAX_PAYLOAD) (hm : msgType < 256) :
    ∃ bytes, encode msgType id seq ts fw payload = .ok bytes := by
  have hmax : MAX_PAYLOAD = 1024 := rfl
  have hpl : body.length < 256 ^ 2 := by omega
  simp only [encode, hp, bind, Except.bind, if_neg (not_lt.mpr hb), pure, Except.pure, Header.pack,
    packU, if_pos (show VERSION < 256 ^ 1 by decide), if_pos (show msgType < 256 ^ 1 by omega),
    if_pos hpl]
  exact ⟨_, rfl⟩

theorem packU_length {k v : Nat} {bs : List Byte} (h : packU k v = .ok bs) : bs.length = k := by
  rw [packU] at h
  split at h
  · cases h
    exact leBytes_length k v
  · cases h

theorem packF_length {x : F64} {bs : List Byte} (h : packF x = .ok bs) : bs.length = 4 := by
  rw [packF] at h
  split at h
  · cases h
    exact leBytes_length 4 _
  · cases h

/-- What a `do` of `Except` returns comes from its parts. -/
theorem exists_of_bind_eq_ok {α β : Type} {r : Except PyError α} {f : α → Except PyError β} {b : β}
    (h : (r >>= f) = .ok b) : ∃ a, r = .ok a ∧ f a = .ok b := by
  cases r with
  | error e => cases h
  | ok a => exact ⟨a, rfl, h⟩

/-- A CONFIG_SET has 20 bytes. -/
theorem ConfigSet.pack_length {c : ConfigSet} {bs : List Byte} (h : c.pack = .ok bs) :
    bs.length = 20 := by
  rw [ConfigSet.pack] at h
  obtain ⟨version, hversion, h⟩ := exists_of_bind_eq_ok h
  obtain ⟨hz, hhz, h⟩ := exists_of_bind_eq_ok h
  obtain ⟨level, hlevel, h⟩ := exists_of_bind_eq_ok h
  obtain ⟨rpm, hrpm, h⟩ := exists_of_bind_eq_ok h
  obtain ⟨temp, htemp, h⟩ := exists_of_bind_eq_ok h
  obtain ⟨current, hcurrent, h⟩ := exists_of_bind_eq_ok h
  cases h
  simp only [List.length_append, packU_length hversion, packU_length hhz, packU_length hlevel,
    packF_length hrpm, packF_length htemp, packF_length hcurrent, leBytes_length]

/-! ## What `decode` accepts and raises -/

/-- The error is a `ProtocolError`. -/
def IsProtocol (e : PyError) : Prop := ∃ kind msg, e = .protocol kind msg

/-- A result whose only exceptions are `ProtocolError`s. -/
def OnlyProtocol {α : Type} (r : Except PyError α) : Prop := ∀ e, r = .error e → IsProtocol e

theorem OnlyProtocol.map {α β : Type} {r : Except PyError α} (h : OnlyProtocol r) (f : α → β) :
    OnlyProtocol (r.map f) := by
  intro e he
  cases r with
  | error e' => exact h e (by cases he; rfl)
  | ok v => cases he

/-- Every `unpack` checks the length and reads the fields. -/
theorem onlyProtocol_ite {α : Type} {c : Prop} [Decidable c] {kind : ProtocolErrorKind}
    {msg : String} {v : α} :
    OnlyProtocol (if c then .error (.protocol kind msg) else .ok v : Except PyError α) := by
  intro e he
  split at he
  · cases he; exact ⟨_, _, rfl⟩
  · cases he

theorem HeaderFields.read_take (bs : List Byte) :
    HeaderFields.read (bs.take HEADER_LEN) = HeaderFields.read bs := by
  simp (disch := omega) only [HeaderFields.read, readU, readS, HEADER_LEN, List.drop_take,
    List.take_take, List.drop_drop, min_eq_left, Nat.reduceAdd, Nat.reduceSub]

theorem Header.unpack_take (buf : List Byte) :
    Header.unpack (buf.take HEADER_LEN) = Header.unpack buf := by
  have hlen : ((buf.take HEADER_LEN).length < HEADER_LEN) = (buf.length < HEADER_LEN) := by
    rw [List.length_take]
    simp
  simp only [Header.unpack, HeaderFields.read_take, hlen]

theorem Header.unpack_append {buf : List Byte} (h : HEADER_LEN ≤ buf.length) (t : List Byte) :
    Header.unpack (buf ++ t) = Header.unpack buf := by
  rw [← Header.unpack_take (buf ++ t), List.take_append_of_le_length h, Header.unpack_take]

/-- What an accepted header has been checked for. -/
theorem Header.unpack_eq_ok {buf : List Byte} {hdr : Header} (h : Header.unpack buf = .ok hdr) :
    HEADER_LEN ≤ buf.length ∧ leNat (buf.take 2) = MAGIC ∧ hdr.payloadLen ≤ MAX_PAYLOAD := by
  rw [Header.unpack] at h
  split at h
  · cases h
  · split at h
    · cases h
    · split at h
      · cases h
      · split at h
        · cases h
        · next hlen hmagic _ hplen =>
          cases h
          exact ⟨by omega, not_not.mp hmagic, by simpa using hplen⟩

theorem Header.unpack_error {buf : List Byte} {e : PyError} (h : Header.unpack buf = .error e) :
    IsProtocol e := by
  rw [Header.unpack] at h
  repeat' split at h
  all_goals first | cases h; exact ⟨_, _, rfl⟩ | cases h

theorem payloadClasses_onlyProtocol :
    ∀ c ∈ PAYLOAD_CLASSES, ∀ b : List Byte, OnlyProtocol (c.2 b) := by
  simp only [PAYLOAD_CLASSES, List.forall_mem_cons, List.not_mem_nil, false_implies,
    implies_true, and_true]
  refine ⟨?_, ?_, ?_, ?_, ?_, ?_, ?_, ?_, ?_, ?_, ?_⟩ <;> exact fun b => onlyProtocol_ite.map _

/-- No payload makes the decoder raise anything but a `ProtocolError`. -/
theorem Body.unpack_onlyProtocol (msgType : Nat) (b : List Byte) :
    OnlyProtocol (Body.unpack msgType b) := by
  rw [Body.unpack]
  split
  · next unpack h =>
    obtain ⟨l₁, l₂, hcls, -⟩ := List.lookup_eq_some_iff.mp h
    exact (payloadClasses_onlyProtocol (msgType, unpack) (by rw [hcls]; simp) b).map _
  · intro e he; cases he

/-- `decode` raises `ProtocolError`s only. -/
theorem decode_onlyProtocol (buf : List Byte) : OnlyProtocol (decode buf) := by
  intro e he
  rw [decode] at he
  split at he
  · next h => cases he; exact Header.unpack_error h
  · dsimp only at he
    split at he
    · cases he; exact ⟨_, _, rfl⟩
    · split at he
      · cases he; exact ⟨_, _, rfl⟩
      · exact (Body.unpack_onlyProtocol _ _).map _ e he

/-- What a decoded frame says about the bytes it was read from. -/
theorem decode_eq_ok {buf : List Byte} {f : Frame} (h : decode buf = .ok f) :
    Header.unpack buf = .ok f.header ∧ HEADER_LEN + f.header.payloadLen + 4 ≤ buf.length ∧
      f.raw = buf.take (HEADER_LEN + f.header.payloadLen + 4) := by
  rw [decode] at h
  -- past the header, the length, the checksum and the payload
  split at h
  · cases h
  · next hdr hh =>
    dsimp only at h
    split at h
    · cases h
    · next hlen =>
      split at h
      · cases h
      · cases hb : Body.unpack hdr.msgType
            (((buf.take (HEADER_LEN + hdr.payloadLen + 4)).take
              (HEADER_LEN + hdr.payloadLen + 4 - 4)).drop HEADER_LEN) with
        | error e => rw [hb] at h; cases h
        | ok p =>
          rw [hb] at h
          cases h
          exact ⟨hh, not_lt.mp hlen, rfl⟩

end Protocol

end EcuTelemetry.Backend
