/-
  EcuTelemetry.Firmware.Protocol

  The encoder of firmware/src/protocol.cpp: `ByteWriter`, the table-driven
  `crc32`, the eleven messages with their `encode` and `encodeFrame`.

  `std::string` is a byte list, `std::vector<uint8_t>` as well; an enum class
  over `uint8_t` is its code, since `static_cast` lets every byte in.
-/

import EcuTelemetry.Lib.Binary
import EcuTelemetry.Lib.Crc32
import EcuTelemetry.Lib.Text

namespace EcuTelemetry.Firmware

/-! ## Constants -/

def kMagic : UInt16 := 0x4554
def kProtoVersion : UInt8 := 1
def kMaxPayload : Nat := 1024
def kDeviceIdLen : Nat := 12

namespace MsgType

def TELEMETRY : UInt8 := 0x01
def HELLO : UInt8 := 0x02
def HEARTBEAT : UInt8 := 0x03
def LOG : UInt8 := 0x04
def CONFIG_SET : UInt8 := 0x10
def CONFIG_ACK : UInt8 := 0x11
def FW_UPDATE : UInt8 := 0x12
def FW_ACK : UInt8 := 0x13
def FAULT_INJECT : UInt8 := 0x14
def FAULT_ACK : UInt8 := 0x15
def CMD : UInt8 := 0x20

end MsgType

/-! ## CRC-32 -/

/-- One round of the table's inner loop. -/
def crcBit (c : UInt32) : UInt32 :=
  if c &&& 1 ≠ 0 then (0xEDB88320 : UInt32) ^^^ (c >>> 1) else c >>> 1

/-- `crcTable()[i]`. -/
def crcTable (i : UInt32) : UInt32 := crcBit^[8] i

/-- `crc32`. -/
def crc32 (data : List Byte) (seed : UInt32) : UInt32 :=
  data.foldl (fun c b => crcTable ((c ^^^ b.toUInt32) &&& 0xFF) ^^^ (c >>> 8))
    (seed ^^^ 0xFFFFFFFF) ^^^ 0xFFFFFFFF

/-- One bit of `crcTable`, as the polynomial step. -/
theorem crcBit_toBitVec (c : UInt32) : (crcBit c).toBitVec = Crc32.bitStep c.toBitVec := by
  have hbit : (c &&& 1 ≠ 0) ↔ c.toBitVec.getLsbD 0 = true := by
    rw [BitVec.getLsbD, ne_eq, ← UInt32.toNat_inj, UInt32.toNat_and]
    simp [Nat.and_one_is_mod, Nat.testBit_zero]
  by_cases h : c &&& 1 ≠ 0
  · rw [crcBit, if_pos h, Crc32.bitStep, if_pos (hbit.mp h)]
    rfl
  · rw [crcBit, if_neg h, Crc32.bitStep, if_neg (fun hb => h (hbit.mpr hb))]
    rfl

theorem crcBits_toBitVec (n : Nat) (c : UInt32) :
    (crcBit^[n] c).toBitVec = Crc32.bitSteps n c.toBitVec := by
  induction n generalizing c with
  | zero => rfl
  | succ n ih => rw [Function.iterate_succ_apply, ih, crcBit_toBitVec]; rfl

/-- The table-driven CRC is the bitwise one. -/
theorem crc32_toBitVec (data : List Byte) (seed : UInt32) :
    (crc32 data seed).toBitVec = Crc32.crc32 seed.toBitVec data := by
  have hfold : ∀ c : UInt32,
      (data.foldl (fun c b => crcTable ((c ^^^ b.toUInt32) &&& 0xFF) ^^^ (c >>> 8)) c).toBitVec =
        data.foldl Crc32.byteStep c.toBitVec := by
    induction data with
    | nil => exact fun _ => rfl
    | cons b data ih =>
      intro c
      rw [List.foldl_cons, List.foldl_cons, ih, Crc32.byteStep_eq_table]
      congr 1
      rw [UInt32.toBitVec_xor, crcTable, crcBits_toBitVec]
      rfl
  rw [crc32, UInt32.toBitVec_xor, hfold]
  rfl

/-! ## `ByteWriter` -/

namespace ByteWriter

def u8 (v : UInt8) : List Byte := [v]
def u16 (v : UInt16) : List Byte := [v.toUInt8, (v >>> 8).toUInt8]
def u32 (v : UInt32) : List Byte := (List.range 4).map fun i => (v >>> UInt32.ofNat (8 * i)).toUInt8
def u64 (v : UInt64) : List Byte := (List.range 8).map fun i => (v >>> UInt64.ofNat (8 * i)).toUInt8
def f32 (v : F32) : List Byte := u32 v.bits
def f64 (v : F64) : List Byte := u64 v.bits

/-- `fixedStr`: `n` bytes, NUL-padded. -/
def fixedStr (s : List Byte) (n : Nat) : List Byte := (List.range n).map fun i => s.getD i 0

theorem u8_eq (v : UInt8) : u8 v = leBytes 1 v.toNat := by simp [u8, leBytes_one]

theorem u16_eq (v : UInt16) : u16 v = leBytes 2 v.toNat := by
  simp only [u16, leBytes_two, List.cons.injEq, and_true, ← UInt8.toNat_inj]
  constructor <;> simp [Nat.shiftRight_eq_div_pow]

theorem u32_eq (v : UInt32) : u32 v = leBytes 4 v.toNat := by
  have hr : List.range 4 = [0, 1, 2, 3] := rfl
  simp only [u32, hr, List.map_cons, List.map_nil, leBytes_four, List.cons.injEq, and_true,
    ← UInt8.toNat_inj]
  refine ⟨?_, ?_, ?_, ?_⟩ <;> simp [Nat.shiftRight_eq_div_pow, Nat.div_div_eq_div_mul]

theorem u64_eq (v : UInt64) : u64 v = leBytes 8 v.toNat := by
  have hr : List.range 8 = [0, 1, 2, 3, 4, 5, 6, 7] := rfl
  simp only [u64, hr, List.map_cons, List.map_nil, leBytes, List.cons.injEq, and_true,
    ← UInt8.toNat_inj]
  refine ⟨?_, ?_, ?_, ?_, ?_, ?_, ?_, ?_⟩ <;>
    simp [Nat.shiftRight_eq_div_pow, Nat.div_div_eq_div_mul]

/-- A text that fits is padded with NULs. -/
theorem fixedStr_eq {s : List Byte} {n : Nat} (h : s.length ≤ n) : fixedStr s n = padTo n s := by
  apply List.ext_getElem
  · simp [fixedStr, padTo_length h]
  · intro i h1 h2
    simp only [fixedStr, padTo, List.getElem_map, List.getElem_range, List.getElem_append,
      List.getElem_replicate, List.getD_eq_getElem?_getD]
    split
    · next hi => simp [hi]
    · next hi => simp [not_lt.mp hi]

end ByteWriter

/-! ## Messages -/

open ByteWriter

structure Telemetry where
  rpm : F32
  tempC : F32
  currentA : F32
  voltageV : F32
  vibrationG : F32
  speedKph : F32
  lat : F64
  lon : F64
  faultFlags : UInt32
  state : UInt8
deriving DecidableEq, Repr

def Telemetry.encode (m : Telemetry) : List Byte :=
  f32 m.rpm ++ f32 m.tempC ++ f32 m.currentA ++ f32 m.voltageV ++ f32 m.vibrationG ++
    f32 m.speedKph ++ f64 m.lat ++ f64 m.lon ++ u32 m.faultFlags ++ u8 m.state ++ u8 0 ++ u8 0 ++
    u8 0

structure Hello where
  fwString : List Byte
  hwModel : List Byte
  configVersion : UInt32
  telemetryHz : UInt16
deriving DecidableEq, Repr

def Hello.encode (m : Hello) : List Byte :=
  fixedStr m.fwString 16 ++ fixedStr m.hwModel 16 ++ u32 m.configVersion ++ u16 m.telemetryHz ++
    u16 0

structure Heartbeat where
  uptimeS : UInt32
  framesSent : UInt32
  configVersion : UInt32
  reconnects : UInt32
deriving DecidableEq, Repr

def Heartbeat.encode (m : Heartbeat) : List Byte :=
  u32 m.uptimeS ++ u32 m.framesSent ++ u32 m.configVersion ++ u32 m.reconnects

structure LogMsg where
  level : UInt8
  message : List Byte
deriving DecidableEq, Repr

def LogMsg.encode (m : LogMsg) : List Byte :=
  let n := if m.message.length > kMaxPayload - 4 then kMaxPayload - 4 else m.message.length
  u8 m.level ++ u8 0 ++ u8 0 ++ u8 0 ++ m.message.take n

structure ConfigSet where
  configVersion : UInt32
  telemetryHz : UInt16
  logLevel : UInt8
  rpmLimit : F32
  tempLimitC : F32
  currentLimitA : F32
deriving DecidableEq, Repr

def ConfigSet.encode (m : ConfigSet) : List Byte :=
  u32 m.configVersion ++ u16 m.telemetryHz ++ u8 m.logLevel ++ u8 0 ++ f32 m.rpmLimit ++
    f32 m.tempLimitC ++ f32 m.currentLimitA

structure ConfigAck where
  configVersion : UInt32
  status : UInt8
deriving DecidableEq, Repr

def ConfigAck.encode (m : ConfigAck) : List Byte :=
  u32 m.configVersion ++ u8 m.status ++ u8 0 ++ u8 0 ++ u8 0

structure FwUpdate where
  targetVersion : List Byte
  imageSizeBytes : UInt32
  imageCrc : UInt32
deriving DecidableEq, Repr

def FwUpdate.encode (m : FwUpdate) : List Byte :=
  fixedStr m.targetVersion 16 ++ u32 m.imageSizeBytes ++ u32 m.imageCrc

structure FwAck where
  status : UInt8
  version : List Byte
deriving DecidableEq, Repr

def FwAck.encode (m : FwAck) : List Byte :=
  u8 m.status ++ u8 0 ++ u8 0 ++ u8 0 ++ fixedStr m.version 16

structure FaultInject where
  setFlags : UInt32
  clearFlags : UInt32
  durationMs : UInt32
deriving DecidableEq, Repr

def FaultInject.encode (m : FaultInject) : List Byte :=
  u32 m.setFlags ++ u32 m.clearFlags ++ u32 m.durationMs

structure FaultAck where
  activeFlags : UInt32
deriving DecidableEq, Repr

def FaultAck.encode (m : FaultAck) : List Byte := u32 m.activeFlags

structure Cmd where
  cmd : UInt8
deriving DecidableEq, Repr

def Cmd.encode (m : Cmd) : List Byte := u8 m.cmd ++ u8 0 ++ u8 0 ++ u8 0

/-- A message of any of the eleven types. -/
inductive Message
  | telemetry (m : Telemetry)
  | hello (m : Hello)
  | heartbeat (m : Heartbeat)
  | log (m : LogMsg)
  | configSet (m : ConfigSet)
  | configAck (m : ConfigAck)
  | fwUpdate (m : FwUpdate)
  | fwAck (m : FwAck)
  | faultInject (m : FaultInject)
  | faultAck (m : FaultAck)
  | cmd (m : Cmd)
deriving DecidableEq, Repr

/-- The type a message is sent under. -/
def Message.msgType : Message → UInt8
  | telemetry _ => MsgType.TELEMETRY
  | hello _ => MsgType.HELLO
  | heartbeat _ => MsgType.HEARTBEAT
  | log _ => MsgType.LOG
  | configSet _ => MsgType.CONFIG_SET
  | configAck _ => MsgType.CONFIG_ACK
  | fwUpdate _ => MsgType.FW_UPDATE
  | fwAck _ => MsgType.FW_ACK
  | faultInject _ => MsgType.FAULT_INJECT
  | faultAck _ => MsgType.FAULT_ACK
  | cmd _ => MsgType.CMD

def Message.encode : Message → List Byte
  | telemetry m => m.encode
  | hello m => m.encode
  | heartbeat m => m.encode
  | log m => m.encode
  | configSet m => m.encode
  | configAck m => m.encode
  | fwUpdate m => m.encode
  | fwAck m => m.encode
  | faultInject m => m.encode
  | faultAck m => m.encode
  | cmd m => m.encode

/-! ## Frames -/

/-- `FrameHeader`; `payload_len` is filled in by `encodeFrame`. -/
structure FrameHeader where
  magic : UInt16 := kMagic
  version : UInt8 := kProtoVersion
  msgType : UInt8
  deviceId : List Byte
  seq : UInt32
  tsMs : UInt64
  fwVersion : UInt32
  reserved : UInt16 := 0
deriving DecidableEq, Repr

def encodeFrame (hdr : FrameHeader) (payload : List Byte) : List Byte :=
  let n := if payload.length > kMaxPayload then kMaxPayload else payload.length
  let w := u16 hdr.magic ++ u8 hdr.version ++ u8 hdr.msgType ++
    fixedStr hdr.deviceId kDeviceIdLen ++ u32 hdr.seq ++ u64 hdr.tsMs ++ u32 hdr.fwVersion ++
    u16 (UInt16.ofNat n) ++ u16 hdr.reserved ++ payload.take n
  w ++ u32 (crc32 w 0)

end EcuTelemetry.Firmware
