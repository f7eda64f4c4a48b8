/-
  EcuTelemetry.Firmware.Layout

  The layouts of the header and of the payloads.  Each `encode` puts the fields
  of its layout one after the other, and each `decode` checks the length and gets
  them.
-/

import EcuTelemetry.Firmware.Decoder
import EcuTelemetry.Lib.Field

namespace EcuTelemetry.Firmware

/-! ## Fields -/

namespace Layout

def u8 : ByteField UInt8 := .number 1 UInt8.toNat UInt8.ofNat (fun _ => UInt8.ofNat_toNat)
  (fun _ h => UInt8.toNat_ofNat_of_lt' h) UInt8.toNat_lt

def u16 : ByteField UInt16 := .number 2 UInt16.toNat UInt16.ofNat (fun _ => UInt16.ofNat_toNat)
  (fun _ h => UInt16.toNat_ofNat_of_lt' h) UInt16.toNat_lt

def u32 : ByteField UInt32 := .number 4 UInt32.toNat UInt32.ofNat (fun _ => UInt32.ofNat_toNat)
  (fun _ h => UInt32.toNat_ofNat_of_lt' h) UInt32.toNat_lt

def u64 : ByteField UInt64 := .number 8 UInt64.toNat UInt64.ofNat (fun _ => UInt64.ofNat_toNat)
  (fun _ h => UInt64.toNat_ofNat_of_lt' h) UInt64.toNat_lt

/-- A `float` is its bit pattern. -/
def f32 : ByteField F32 := u32.iso ⟨F32.mk, F32.bits, fun _ => rfl, fun _ => rfl⟩

def f64 : ByteField F64 := u64.iso ⟨F64.mk, F64.bits, fun _ => rfl, fun _ => rfl⟩

end Layout

namespace ByteWriter

theorem u8_put (v : UInt8) : u8 v = Layout.u8.put v := u8_eq v
theorem u16_put (v : UInt16) : u16 v = Layout.u16.put v := u16_eq v
theorem u32_put (v : UInt32) : u32 v = Layout.u32.put v := u32_eq v
theorem u64_put (v : UInt64) : u64 v = Layout.u64.put v := u64_eq v
theorem f32_put (v : F32) : f32 v = Layout.f32.put v := u32_eq v.bits
theorem f64_put (v : F64) : f64 v = Layout.f64.put v := u64_eq v.bits

/-- `fixedStr` writes a text field. -/
theorem fixedStr_put (s : List Byte) (n : ℕ) : fixedStr s n = (ByteField.text n).put s := by
  show _ = s.takeD n 0
  induction n generalizing s with
  | zero => rfl
  | succ n ih =>
    rw [fixedStr, List.range_succ_eq_map, List.map_cons, List.map_map]
    cases s with
    | nil => exact congrArg (0 :: ·) (ih [])
    | cons b s => exact congrArg (b :: ·) (ih s)

end ByteWriter

namespace ByteReader

/-- The reader at a position in the bytes. -/
def at' (p : List Byte) (k : ℕ) : ByteReader := { data := p, pos := k }

theorem mk_at (p : List Byte) : ({ data := p } : ByteReader) = at' p 0 := rfl

variable {p : List Byte} {k n : ℕ}

theorem need_at (h : k + n ≤ p.length) : (at' p k).need n = true := decide_eq_true h

theorem u8_at (h : k + 1 ≤ p.length) :
    (at' p k).u8 = (Layout.u8.get (p.drop k), at' p (k + 1)) := by
  rw [u8, if_pos (need_at h)]
  rfl

theorem u16_at (h : k + 2 ≤ p.length) :
    (at' p k).u16 = (Layout.u16.get (p.drop k), at' p (k + 2)) := by
  rw [u16, if_pos (need_at h)]
  rfl

theorem u32_at (h : k + 4 ≤ p.length) :
    (at' p k).u32 = (Layout.u32.get (p.drop k), at' p (k + 4)) := by
  rw [u32, if_pos (need_at h)]
  rfl

theorem u64_at (h : k + 8 ≤ p.length) :
    (at' p k).u64 = (Layout.u64.get (p.drop k), at' p (k + 8)) := by
  rw [u64, if_pos (need_at h)]
  rfl

theorem f32_at (h : k + 4 ≤ p.length) :
    (at' p k).f32 = (Layout.f32.get (p.drop k), at' p (k + 4)) := by
  rw [f32, u32_at h]
  rfl

theorem f64_at (h : k + 8 ≤ p.length) :
    (at' p k).f64 = (Layout.f64.get (p.drop k), at' p (k + 8)) := by
  rw [f64, u64_at h]
  rfl

theorem fixedStr_at (h : k + n ≤ p.length) :
    (at' p k).fixedStr n = ((ByteField.text n).get (p.drop k), at' p (k + n)) := by
  rw [fixedStr, if_pos (need_at h)]
  rfl

theorem skip_at (h : k + n ≤ p.length) : (at' p k).skip n = at' p (k + n) := by
  rw [skip, if_pos (need_at h)]
  rfl

theorem rest_at : (at' p k).rest = (p.drop k, at' p p.length) := rfl

theorem ok_at : (at' p k).ok = true := rfl

end ByteReader

/-! ## Payloads -/

section Layouts

open Layout

def Telemetry.layout : ByteField Telemetry :=
  (f32.pair <| f32.pair <| f32.pair <| f32.pair <| f32.pair <| f32.pair <| f64.pair <| f64.pair <|
    u32.pair <| u8.pad 3).iso
    { toFun := fun (rpm, tempC, currentA, voltageV, vibrationG, speedKph, lat, lon, faultFlags,
        state) =>
        { rpm, tempC, currentA, voltageV, vibrationG, speedKph, lat, lon, faultFlags, state }
      invFun := fun m => (m.rpm, m.tempC, m.currentA, m.voltageV, m.vibrationG, m.speedKph, m.lat,
        m.lon, m.faultFlags, m.state)
      left_inv := fun _ => rfl
      right_inv := fun _ => rfl }

def Hello.layout : ByteField Hello :=
  ((ByteField.text 16).pair <| (ByteField.text 16).pair <| u32.pair <| u16.pad 2).iso
    { toFun := fun (fwString, hwModel, configVersion, telemetryHz) =>
        { fwString, hwModel, configVersion, telemetryHz }
      invFun := fun m => (m.fwString, m.hwModel, m.configVersion, m.telemetryHz)
      left_inv := fun _ => rfl
      right_inv := fun _ => rfl }

def Heartbeat.layout : ByteField Heartbeat :=
  (u32.pair <| u32.pair <| u32.pair u32).iso
    { toFun := fun (uptimeS, framesSent, configVersion, reconnects) =>
        { uptimeS, framesSent, configVersion, reconnects }
      invFun := fun m => (m.uptimeS, m.framesSent, m.configVersion, m.reconnects)
      left_inv := fun _ => rfl
      right_inv := fun _ => rfl }

/-- What stands before the text of a LOG. -/
def LogMsg.layout : ByteField UInt8 := u8.pad 3

def ConfigSet.layout : ByteField ConfigSet :=
  (u32.pair <| u16.pair <| (u8.pad 1).pair <| f32.pair <| f32.pair f32).iso
    { toFun := fun (configVersion, telemetryHz, logLevel, rpmLimit, tempLimitC, currentLimitA) =>
        { configVersion, telemetryHz, logLevel, rpmLimit, tempLimitC, currentLimitA }
      invFun := fun m => (m.configVersion, m.telemetryHz, m.logLevel, m.rpmLimit, m.tempLimitC,
        m.currentLimitA)
      left_inv := fun _ => rfl
      right_inv := fun _ => rfl }

def ConfigAck.layout : ByteField ConfigAck :=
  (u32.pair <| u8.pad 3).iso
    { toFun := fun (configVersion, status) => { configVersion, status }
      invFun := fun m => (m.configVersion, m.status)
      left_inv := fun _ => rfl
      right_inv := fun _ => rfl }

def FwUpdate.layout : ByteField FwUpdate :=
  ((ByteField.text 16).pair <| u32.pair u32).iso
    { toFun := fun (targetVersion, imageSizeBytes, imageCrc) =>
        { targetVersion, imageSizeBytes, imageCrc }
      invFun := fun m => (m.targetVersion, m.imageSizeBytes, m.imageCrc)
      left_inv := fun _ => rfl
      right_inv := fun _ => rfl }

def FwAck.layout : ByteField FwAck :=
  ((u8.pad 3).pair (ByteField.text 16)).iso
    { toFun := fun (status, version) => { status, version }
      invFun := fun m => (m.status, m.version)
      left_inv := fun _ => rfl
      right_inv := fun _ => rfl }

def FaultInject.layout : ByteField FaultInject :=
  (u32.pair <| u32.pair u32).iso
    { toFun := fun (setFlags, clearFlags, durationMs) => { setFlags, clearFlags, durationMs }
      invFun := fun m => (m.setFlags, m.clearFlags, m.durationMs)
      left_inv := fun _ => rfl
      right_inv := fun _ => rfl }

def FaultAck.layout : ByteField FaultAck :=
  u32.iso ⟨FaultAck.mk, FaultAck.activeFlags, fun _ => rfl, fun _ => rfl⟩

def Cmd.layout : ByteField Cmd := (u8.pad 3).iso ⟨Cmd.mk, Cmd.cmd, fun _ => rfl, fun _ => rfl⟩

/-- The header, with the length of the payload. -/
def FrameHeader.layout : ByteField (FrameHeader × UInt16) :=
  (u16.pair <| u8.pair <| u8.pair <| (ByteField.text kDeviceIdLen).pair <| u32.pair <| u64.pair <|
    u32.pair <| u16.pair u16).iso
    { toFun := fun (magic, version, msgType, deviceId, seq, tsMs, fwVersion, payloadLen,
        reserved) =>
        ({ magic, version, msgType, deviceId, seq, tsMs, fwVersion, reserved }, payloadLen)
      invFun := fun (h, payloadLen) => (h.magic, h.version, h.msgType, h.deviceId, h.seq, h.tsMs,
        h.fwVersion, payloadLen, h.reserved)
      left_inv := fun _ => rfl
      right_inv := fun _ => rfl }

end Layouts

/-! ## Encoders and decoders -/

/-- A byte string that is one field. -/
def exactly {α : Type} (f : ByteField α) (p : List Byte) : Option α :=
  if p.length = f.width then some (f.get p) else none

theorem exactly_eq {α : Type} {f : ByteField α} {p : List Byte} {n : ℕ} {r : Option α}
    (hwidth : f.width = n) (h : p.length = n → r = some (f.get p)) :
    (if p.length ≠ n then none else r) = exactly f p := by
  rw [exactly, hwidth]
  by_cases hn : p.length = n
  · rw [if_neg (not_not.mpr hn), if_pos hn, h hn]
  · rw [if_pos hn, if_neg hn]

theorem exactly_put {α : Type} (f : ByteField α) {a : α} (h : f.Fits a) :
    exactly f (f.put a) = some a := by
  rw [exactly, if_pos (f.length_put a), f.get_put' h]

/-- A payload that is exactly one field is written back as it was. -/
theorem put_of_exactly {α : Type} (f : ByteField α) {p : List Byte} {a : α}
    (h : exactly f p = some a) (hclean : f.Clean p) : f.put a = p := by
  rw [exactly] at h
  split at h
  · next hlen =>
    obtain rfl := Option.some.inj h
    exact f.put_get' hlen hclean
  · cases h

section Messages

open ByteWriter ByteReader

theorem Telemetry.encode_eq (m : Telemetry) : m.encode = Telemetry.layout.put m := by
  simp only [Telemetry.encode, Telemetry.layout, ByteField.iso, ByteField.pair, ByteField.pad,
    f32_put, f64_put, u32_put, u8_put, List.append_assoc]
  rfl

theorem Telemetry.decode_eq (p : List Byte) : Telemetry.decode p = exactly Telemetry.layout p := by
  refine exactly_eq rfl fun h => ?_
  simp (disch := omega) only [mk_at, f32_at, f64_at, u32_at, u8_at, ok_at, if_true, Nat.reduceAdd]
  simp only [Telemetry.layout, ByteField.iso, ByteField.pair, ByteField.pad, List.drop_drop]
  rfl

theorem Hello.encode_eq (m : Hello) : m.encode = Hello.layout.put m := by
  simp only [Hello.encode, Hello.layout, ByteField.iso, ByteField.pair, ByteField.pad, fixedStr_put,
    u32_put, u16_put, List.append_assoc]
  rfl

theorem Hello.decode_eq (p : List Byte) : Hello.decode p = exactly Hello.layout p := by
  refine exactly_eq rfl fun h => ?_
  simp (disch := omega) only [mk_at, fixedStr_at, u32_at, u16_at, ok_at, if_true, Nat.reduceAdd]
  simp only [Hello.layout, ByteField.iso, ByteField.pair, ByteField.pad, List.drop_drop]
  rfl

theorem Heartbeat.encode_eq (m : Heartbeat) : m.encode = Heartbeat.layout.put m := by
  simp only [Heartbeat.encode, Heartbeat.layout, ByteField.iso, ByteField.pair, u32_put,
    List.append_assoc]
  rfl

theorem Heartbeat.decode_eq (p : List Byte) : Heartbeat.decode p = exactly Heartbeat.layout p := by
  refine exactly_eq rfl fun h => ?_
  simp (disch := omega) only [mk_at, u32_at, ok_at, if_true, Nat.reduceAdd]
  simp only [Heartbeat.layout, ByteField.iso, ByteField.pair, List.drop_drop]
  rfl

/-- A LOG payload is its level, then as much text as fits. -/
theorem LogMsg.encode_eq (m : LogMsg) :
    m.encode = LogMsg.layout.put m.level ++ m.message.take (kMaxPayload - 4) := by
  have htake : m.message.take (if m.message.length > kMaxPayload - 4 then kMaxPayload - 4
      else m.message.length) = m.message.take (kMaxPayload - 4) := by
    split
    · rfl
    · next h => rw [List.take_length, List.take_of_length_le (not_lt.mp h)]
  simp only [LogMsg.encode, htake, LogMsg.layout, ByteField.pad, u8_put, List.append_assoc]
  rfl

/-- Decoding needs the level and takes the rest as text. -/
theorem LogMsg.decode_eq (p : List Byte) : LogMsg.decode p =
    if p.length < 4 then none else some { level := LogMsg.layout.get p, message := p.drop 4 } := by
  rw [LogMsg.decode]
  split
  · rfl
  · next h =>
    simp (disch := omega) only [mk_at, u8_at, skip_at, rest_at, ok_at, if_true, Nat.reduceAdd]
    rfl

theorem ConfigSet.encode_eq (m : ConfigSet) : m.encode = ConfigSet.layout.put m := by
  simp only [ConfigSet.encode, ConfigSet.layout, ByteField.iso, ByteField.pair, ByteField.pad,
    u32_put, u16_put, u8_put, f32_put, List.append_assoc]
  rfl

theorem ConfigSet.decode_eq (p : List Byte) : ConfigSet.decode p = exactly ConfigSet.layout p := by
  refine exactly_eq rfl fun h => ?_
  simp (disch := omega) only [mk_at, u32_at, u16_at, u8_at, skip_at, f32_at, ok_at, if_true,
    Nat.reduceAdd]
  simp only [ConfigSet.layout, ByteField.iso, ByteField.pair, ByteField.pad, List.drop_drop]
  rfl

theorem ConfigAck.encode_eq (m : ConfigAck) : m.encode = ConfigAck.layout.put m := by
  simp only [ConfigAck.encode, ConfigAck.layout, ByteField.iso, ByteField.pair, ByteField.pad,
    u32_put, u8_put, List.append_assoc]
  rfl

theorem ConfigAck.decode_eq (p : List Byte) : ConfigAck.decode p = exactly ConfigAck.layout p := by
  refine exactly_eq rfl fun h => ?_
  simp (disch := omega) only [mk_at, u32_at, u8_at, ok_at, if_true, Nat.reduceAdd]
  simp only [ConfigAck.layout, ByteField.iso, ByteField.pair, ByteField.pad, List.drop_drop]
  rfl

theorem FwUpdate.encode_eq (m : FwUpdate) : m.encode = FwUpdate.layout.put m := by
  simp only [FwUpdate.encode, FwUpdate.layout, ByteField.iso, ByteField.pair, fixedStr_put, u32_put,
    List.append_assoc]
  rfl

theorem FwUpdate.decode_eq (p : List Byte) : FwUpdate.decode p = exactly FwUpdate.layout p := by
  refine exactly_eq rfl fun h => ?_
  simp (disch := omega) only [mk_at, fixedStr_at, u32_at, ok_at, if_true, Nat.reduceAdd]
  simp only [FwUpdate.layout, ByteField.iso, ByteField.pair, List.drop_drop]
  rfl

theorem FwAck.encode_eq (m : FwAck) : m.encode = FwAck.layout.put m := by
  simp only [FwAck.encode, FwAck.layout, ByteField.iso, ByteField.pair, ByteField.pad, u8_put,
    fixedStr_put, List.append_assoc]
  rfl

theorem FwAck.decode_eq (p : List Byte) : FwAck.decode p = exactly FwAck.layout p := by
  refine exactly_eq rfl fun h => ?_
  simp (disch := omega) only [mk_at, u8_at, skip_at, fixedStr_at, ok_at, if_true, Nat.reduceAdd]
  simp only [FwAck.layout, ByteField.iso, ByteField.pair, ByteField.pad]
  rfl

theorem FaultInject.encode_eq (m : FaultInject) : m.encode = FaultInject.layout.put m := by
  simp only [FaultInject.encode, FaultInject.layout, ByteField.iso, ByteField.pair, u32_put,
    List.append_assoc]
  rfl

theorem FaultInject.decode_eq (p : List Byte) :
    FaultInject.decode p = exactly FaultInject.layout p := by
  refine exactly_eq rfl fun h => ?_
  simp (disch := omega) only [mk_at, u32_at, ok_at, if_true, Nat.reduceAdd]
  simp only [FaultInject.layout, ByteField.iso, ByteField.pair, List.drop_drop]
  rfl

theorem FaultAck.encode_eq (m : FaultAck) : m.encode = FaultAck.layout.put m := by
  simp only [FaultAck.encode, FaultAck.layout, ByteField.iso, u32_put]
  rfl

theorem FaultAck.decode_eq (p : List Byte) : FaultAck.decode p = exactly FaultAck.layout p := by
  refine exactly_eq rfl fun h => ?_
  simp (disch := omega) only [mk_at, u32_at, ok_at, if_true, Nat.reduceAdd]
  simp only [FaultAck.layout, ByteField.iso]
  rfl

theorem Cmd.encode_eq (m : Cmd) : m.encode = Cmd.layout.put m := by
  simp only [Cmd.encode, Cmd.layout, ByteField.iso, ByteField.pad, u8_put,
    List.append_assoc]
  rfl

theorem Cmd.decode_eq (p : List Byte) : Cmd.decode p = exactly Cmd.layout p := by
  refine exactly_eq rfl fun h => ?_
  simp (disch := omega) only [mk_at, u8_at, ok_at, if_true, Nat.reduceAdd]
  simp only [Cmd.layout, ByteField.iso, ByteField.pad]
  rfl

end Messages

/-! ## Frames -/

open ByteWriter ByteReader

/-- The bytes before the checksum. -/
def frameBody (hdr : FrameHeader) (payload : List Byte) : List Byte :=
  FrameHeader.layout.put (hdr, UInt16.ofNat payload.length) ++ payload

/-- A frame is its body and the checksum of the body. -/
theorem encodeFrame_eq (hdr : FrameHeader) {payload : List Byte}
    (h : payload.length ≤ kMaxPayload) : encodeFrame hdr payload =
      frameBody hdr payload ++ Layout.u32.put (crc32 (frameBody hdr payload) 0) := by
  have hbody : u16 hdr.magic ++ u8 hdr.version ++ u8 hdr.msgType ++
      fixedStr hdr.deviceId kDeviceIdLen ++ u32 hdr.seq ++ u64 hdr.tsMs ++ u32 hdr.fwVersion ++
      u16 (UInt16.ofNat payload.length) ++ u16 hdr.reserved ++ payload = frameBody hdr payload := by
    simp only [frameBody, FrameHeader.layout, ByteField.iso, ByteField.pair, fixedStr_put, u8_put,
      u16_put, u32_put, u64_put, List.append_assoc]
    rfl
  simp only [encodeFrame, if_neg (not_lt.mpr h), List.take_length, hbody]
  rw [u32_put]

/-- The header, field by field. -/
theorem FrameHeader.layout_get (data : List Byte) : FrameHeader.layout.get data =
    ({ magic := Layout.u16.get data, version := Layout.u8.get (data.drop 2),
       msgType := Layout.u8.get (data.drop 3), deviceId := (ByteField.text 12).get (data.drop 4),
       seq := Layout.u32.get (data.drop 16), tsMs := Layout.u64.get (data.drop 20),
       fwVersion := Layout.u32.get (data.drop 28), reserved := Layout.u16.get (data.drop 34) },
      Layout.u16.get (data.drop 32)) := by
  simp only [FrameHeader.layout, ByteField.iso, ByteField.pair, List.drop_drop]
  rfl

/-- The checksum, when it is there. -/
theorem crc_read {data : List Byte} {n : ℕ} (h : n + kCrcSize ≤ data.length) :
    (ByteReader.u32 { data := (data.drop n).take kCrcSize }).1 = Layout.u32.get (data.drop n) := by
  have hlen : ((data.drop n).take kCrcSize).length = 4 := by
    rw [List.length_take_of_le]
    · rfl
    · rw [List.length_drop]
      omega
  rw [mk_at, u32_at (by omega)]
  show UInt32.ofNat (leNat (((data.drop n).take 4).take 4)) = _
  rw [List.take_take]
  rfl

/-- `decodeFrame`, in terms of the layout. -/
theorem decodeFrame_eq (data : List Byte) : decodeFrame data =
    if data.length < kHeaderSize then .error .TOO_SHORT
    else
      let (hdr, payloadLen) := FrameHeader.layout.get data
      let total := kHeaderSize + payloadLen.toNat + kCrcSize
      if hdr.magic ≠ kMagic then .error .BAD_MAGIC
      else if hdr.version ≠ kProtoVersion then .error .BAD_VERSION
      else if payloadLen.toNat > kMaxPayload then .error .BAD_LENGTH
      else if data.length < total then .error .TOO_SHORT
      else if Layout.u32.get (data.drop (kHeaderSize + payloadLen.toNat)) ≠
          crc32 (data.take (kHeaderSize + payloadLen.toNat)) 0 then .error .BAD_CRC
      else
        .ok ({ hdr, payloadLen, payload := (data.drop kHeaderSize).take payloadLen.toNat },
          total) := by
  rw [decodeFrame]
  split
  · rfl
  · next hshort =>
    have hlen : 36 ≤ data.length := not_lt.mp hshort
    -- the reads of the header at their offsets, as one layout
    rw [mk_at data, FrameHeader.layout_get]
    simp (disch := omega) only [u16_at, u8_at, u32_at, u64_at, fixedStr_at, Nat.reduceAdd,
      kDeviceIdLen, List.drop_zero]
    -- the checks stand in the same order on both sides
    refine ite_congr rfl (fun _ => rfl) fun _ => ?_
    refine ite_congr rfl (fun _ => rfl) fun _ => ?_
    refine ite_congr rfl (fun _ => rfl) fun _ => ?_
    refine ite_congr rfl (fun _ => rfl) fun htotal => ?_
    rw [crc_read (not_lt.mp htotal)]

/-- What `decodeFrame` accepts, and what it returns. -/
structure Decoded (data : List Byte) (f : Frame) (used : ℕ) : Prop where
  header : FrameHeader.layout.get data = (f.hdr, f.payloadLen)
  magic : f.hdr.magic = kMagic
  version : f.hdr.version = kProtoVersion
  bound : f.payloadLen.toNat ≤ kMaxPayload
  total : used = kHeaderSize + f.payloadLen.toNat + kCrcSize
  length : used ≤ data.length
  payload : f.payload = (data.drop kHeaderSize).take f.payloadLen.toNat
  crc : Layout.u32.get (data.drop (kHeaderSize + f.payloadLen.toNat)) =
    crc32 (data.take (kHeaderSize + f.payloadLen.toNat)) 0

/-- Exactly the byte strings that start with a well-formed frame decode. -/
theorem decodeFrame_eq_ok {data : List Byte} {f : Frame} {used : ℕ} :
    decodeFrame data = .ok (f, used) ↔ Decoded data f used := by
  rw [decodeFrame_eq]
  constructor
  · intro h
    split at h
    · cases h
    · rcases hget : FrameHeader.layout.get data with ⟨hdr, payloadLen⟩
      rw [hget] at h
      dsimp only at h
      -- the one way through all checks
      split_ifs at h with hmagic hversion hbound htotal hcrc
      cases h
      exact {
        header := hget
        magic := not_not.mp hmagic
        version := not_not.mp hversion
        bound := not_lt.mp hbound
        total := rfl
        length := not_lt.mp htotal
        payload := rfl
        crc := not_not.mp hcrc }
  · intro h
    have hlength := h.length
    rw [h.total] at hlength
    have hshort : ¬ data.length < kHeaderSize := by omega
    rw [if_neg hshort, h.header]
    dsimp only
    rw [if_neg (not_not.mpr h.magic), if_neg (not_not.mpr h.version), if_neg (not_lt.mpr h.bound),
      if_neg (not_lt.mpr hlength), if_neg (not_not.mpr h.crc), ← h.total, ← h.payload]

end EcuTelemetry.Firmware
