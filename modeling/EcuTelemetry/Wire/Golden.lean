/-
  EcuTelemetry.Wire.Golden

  The golden-frame law: the firmware and the backend encode every message to
  the same bytes, and the backend decodes and re-encodes the firmware's bytes
  without change.

  It rests on two things about strings.  The firmware fills all twelve bytes
  of the id field, the backend's `_pad` keeps the last one for a NUL; and the
  decoder cuts a string at its first NUL, so what stands behind one is lost.
-/

import EcuTelemetry.Wire.Frame

namespace EcuTelemetry.Wire

open Backend Backend.Protocol

/-! ## Messages of the two sides -/

/-- The `--id` check of the agent's command line. -/
def acceptsDeviceId (id : List Byte) : Bool :=
  !id.isEmpty && decide (id.length ≤ 12) &&
    id.all fun b => decide (0x20 ≤ b.toNat) && decide (b.toNat ≤ 0x7E)

/-- The text of a 16-byte field: at most 15 ASCII characters. -/
def FieldText (s : List Byte) : Prop := IsAscii s ∧ s.length ≤ 15

instance (s : List Byte) : Decidable (FieldText s) := inferInstanceAs (Decidable (_ ∧ _))

/-- The fields of a message are in range: no NaN, field texts, valid UTF-8. -/
def InRange : Firmware.Message → Prop
  | .telemetry m =>
    (m.rpm.isNaN = false ∧ m.tempC.isNaN = false ∧ m.currentA.isNaN = false ∧
      m.voltageV.isNaN = false ∧ m.vibrationG.isNaN = false ∧ m.speedKph.isNaN = false) ∧
    m.lat.isNaN = false ∧ m.lon.isNaN = false
  | .hello m => FieldText m.fwString ∧ FieldText m.hwModel
  | .log m => m.message.length ≤ 1020 ∧ ∃ s : String, m.message = utf8Encode s
  | .configSet m =>
    m.rpmLimit.isNaN = false ∧ m.tempLimitC.isNaN = false ∧ m.currentLimitA.isNaN = false
  | .fwUpdate m => FieldText m.targetVersion
  | .fwAck m => FieldText m.version
  | _ => True

/-- The message as the backend's payload classes hold it. -/
def toPayload : Firmware.Message → Payload
  | .telemetry m => .telemetry
      { rpm := m.rpm.toF64, tempC := m.tempC.toF64, currentA := m.currentA.toF64,
        voltageV := m.voltageV.toF64, vibrationG := m.vibrationG.toF64,
        speedKph := m.speedKph.toF64, lat := m.lat, lon := m.lon,
        faultFlags := m.faultFlags.toNat, state := m.state.toNat }
  | .hello m => .hello
      { fwString := asciiDecode m.fwString, hwModel := asciiDecode m.hwModel,
        configVersion := m.configVersion.toNat, telemetryHz := m.telemetryHz.toNat }
  | .heartbeat m => .heartbeat
      { uptimeS := m.uptimeS.toNat, framesSent := m.framesSent.toNat,
        configVersion := m.configVersion.toNat, reconnects := m.reconnects.toNat }
  | .log m => .log { level := m.level.toNat, message := utf8Decode m.message }
  | .configSet m => .configSet
      { configVersion := m.configVersion.toNat, telemetryHz := m.telemetryHz.toNat,
        logLevel := m.logLevel.toNat, rpmLimit := m.rpmLimit.toF64,
        tempLimitC := m.tempLimitC.toF64, currentLimitA := m.currentLimitA.toF64 }
  | .configAck m => .configAck
      { configVersion := m.configVersion.toNat, status := m.status.toNat }
  | .fwUpdate m => .fwUpdate
      { targetVersion := asciiDecode m.targetVersion, imageSizeBytes := m.imageSizeBytes.toNat,
        imageCrc := m.imageCrc.toNat }
  | .fwAck m => .fwAck { status := m.status.toNat, version := asciiDecode m.version }
  | .faultInject m => .faultInject
      { setFlags := m.setFlags.toNat, clearFlags := m.clearFlags.toNat,
        durationMs := m.durationMs.toNat }
  | .faultAck m => .faultAck { activeFlags := m.activeFlags.toNat }
  | .cmd m => .cmd { cmd := m.cmd.toNat }

/-- The texts of a message's fixed-width fields. -/
def fieldTexts : Firmware.Message → List (List Byte)
  | .hello m => [m.fwString, m.hwModel]
  | .fwUpdate m => [m.targetVersion]
  | .fwAck m => [m.version]
  | _ => []

/-- The message with its texts cut at the first NUL. -/
def cutTexts : Firmware.Message → Firmware.Message
  | .hello m => .hello { m with fwString := cBytes m.fwString, hwModel := cBytes m.hwModel }
  | .fwUpdate m => .fwUpdate { m with targetVersion := cBytes m.targetVersion }
  | .fwAck m => .fwAck { m with version := cBytes m.version }
  | m => m

theorem FieldText.cut {s : List Byte} (h : FieldText s) : FieldText (cBytes s) :=
  ⟨fun b hb => h.1 b ((List.takeWhile_prefix _).subset hb), (cBytes_length_le s).trans h.2⟩

theorem InRange.cut {m : Firmware.Message} (h : InRange m) : InRange (cutTexts m) := by
  cases m with
  | hello m => exact ⟨h.1.cut, h.2.cut⟩
  | fwUpdate m => exact FieldText.cut h
  | fwAck m => exact FieldText.cut h
  | _ => exact h

@[simp] theorem cutTexts_msgType (m : Firmware.Message) : (cutTexts m).msgType = m.msgType := by
  cases m <;> rfl

@[simp] theorem toPayload_type (m : Firmware.Message) :
    (toPayload m).type = m.msgType.toNat := by
  cases m <;> rfl

/-! ## Fields -/

section Fields

open Firmware.ByteWriter

@[simp] theorem packU_u8 (v : UInt8) : packU 1 v.toNat = .ok (u8 v) := by
  rw [packU, if_pos (by simpa using v.toNat_lt), u8_eq]

@[simp] theorem packU_u16 (v : UInt16) : packU 2 v.toNat = .ok (u16 v) := by
  rw [packU, if_pos (by simpa using v.toNat_lt), u16_eq]

@[simp] theorem packU_u32 (v : UInt32) : packU 4 v.toNat = .ok (u32 v) := by
  rw [packU, if_pos (by simpa using v.toNat_lt), u32_eq]

theorem packF_f32 {x : F32} (h : x.isNaN = false) : packF x.toF64 = .ok (f32 x) := by
  rw [packF, F32.toF32_toF64 h, f32, u32_eq]

@[simp] theorem packD_f64 (x : F64) : packD x = f64 x := by rw [packD, f64, u64_eq]

/-- Below the last byte of the field the two paddings agree. -/
theorem pad_eq_fixedStr {s : List Byte} {n : Nat} (ha : IsAscii s) (h : s.length < n) :
    pad (asciiDecode s) n = fixedStr s n := by
  rw [pad, asciiEncode_asciiDecode ha, if_neg (by omega), fixedStr_eq h.le]

theorem FieldText.pad {s : List Byte} (h : FieldText s) :
    pad (asciiDecode s) 16 = fixedStr s 16 := pad_eq_fixedStr h.1 (by have := h.2; omega)

@[simp] theorem u8_length (v : UInt8) : (u8 v).length = 1 := rfl
@[simp] theorem u16_length (v : UInt16) : (u16 v).length = 2 := rfl
@[simp] theorem u32_length (v : UInt32) : (u32 v).length = 4 := rfl
@[simp] theorem f32_length (v : F32) : (f32 v).length = 4 := rfl
@[simp] theorem f64_length (v : F64) : (f64 v).length = 8 := rfl
@[simp] theorem fixedStr_length (s : List Byte) (n : Nat) : (fixedStr s n).length = n := by
  simp [fixedStr]

@[simp] theorem readU_u8 (v : UInt8) (r : List Byte) : readU 1 (u8 v ++ r) = (v.toNat, r) := by
  rw [u8_eq, readU_leBytes (by simpa using v.toNat_lt)]

@[simp] theorem readU_u16 (v : UInt16) (r : List Byte) : readU 2 (u16 v ++ r) = (v.toNat, r) := by
  rw [u16_eq, readU_leBytes (by simpa using v.toNat_lt)]

@[simp] theorem readU_u32 (v : UInt32) (r : List Byte) : readU 4 (u32 v ++ r) = (v.toNat, r) := by
  rw [u32_eq, readU_leBytes (by simpa using v.toNat_lt)]

@[simp] theorem readU_u32_end (v : UInt32) : readU 4 (u32 v) = (v.toNat, []) := by
  simpa using readU_u32 v []

@[simp] theorem readF_f32 (x : F32) (r : List Byte) : readF (f32 x ++ r) = (x.toF64, r) := by
  have h := readU_u32 x.bits r
  rw [readU, Prod.mk.injEq] at h
  rw [readF, f32, h.1, h.2, UInt32.ofNat_toNat]

@[simp] theorem readF_f32_end (x : F32) : readF (f32 x) = (x.toF64, []) := by
  simpa using readF_f32 x []

@[simp] theorem readD_f64 (x : F64) (r : List Byte) : readD (f64 x ++ r) = (x, r) := by
  have h := readU_leBytes (k := 8) (v := x.bits.toNat) (by simpa using x.bits.toNat_lt) r
  rw [readU, Prod.mk.injEq] at h
  rw [readD, f64, u64_eq, h.1, h.2, UInt64.ofNat_toNat]

@[simp] theorem readS_fixedStr (s : List Byte) (n : Nat) (r : List Byte) :
    readS n (fixedStr s n ++ r) = (fixedStr s n, r) := readS_append (fixedStr_length s n) r

@[simp] theorem readS_fixedStr_end (s : List Byte) (n : Nat) :
    readS n (fixedStr s n) = (fixedStr s n, []) := by simpa using readS_fixedStr s n []

/-- `v & 0xFFFFFFFF` of a 32-bit field. -/
theorem leBytes_u32 (v : UInt32) : leBytes 4 (v.toNat % 2 ^ 32) = u32 v := by
  rw [u32_eq, Nat.mod_eq_of_lt v.toNat_lt]

theorem leBytes_u8 (v : UInt8) : leBytes 1 (v.toNat % 2 ^ 8) = u8 v := by
  rw [u8_eq, Nat.mod_eq_of_lt v.toNat_lt]

theorem readS_pad (r : List Byte) :
    readS 3 (u8 0 ++ (u8 0 ++ (u8 0 ++ r))) = ([0, 0, 0], r) := rfl

theorem FieldText.cstr {s : List Byte} (h : FieldText s) :
    cstr (fixedStr s 16) = asciiDecode (cBytes s) := by
  have := h.2
  rw [Protocol.cstr, fixedStr_eq (by omega), cBytes_padTo]

end Fields

/-! ## Payloads -/

open Firmware.ByteWriter

/-- The backend packs a message to the firmware's bytes. -/
theorem pack_toPayload {m : Firmware.Message} (h : InRange m) :
    (toPayload m).pack = .ok m.encode := by
  cases m with
  | telemetry m =>
    obtain ⟨⟨h1, h2, h3, h4, h5, h6⟩, -, -⟩ := h
    simp only [toPayload, Payload.pack, Telemetry.pack, packF_f32 h1, packF_f32 h2, packF_f32 h3,
      packF_f32 h4, packF_f32 h5, packF_f32 h6, leBytes_u32, leBytes_u8, packD_f64]
    simp [Firmware.Message.encode, Firmware.Telemetry.encode, bind, Except.bind, pure,
      Except.pure, u8]
  | hello m =>
    simp only [toPayload, Payload.pack, Hello.pack, packU_u32, packU_u16, h.1.pad, h.2.pad]
    rfl
  | heartbeat m =>
    simp only [toPayload, Payload.pack, Heartbeat.pack, packU_u32]
    rfl
  | log m =>
    -- a text within the limit is neither cut by C++ nor by Python
    obtain ⟨hlen, s, hs⟩ := h
    have hn : ¬ m.message.length > Firmware.kMaxPayload - 4 := by
      rw [Firmware.kMaxPayload]; omega
    simp only [toPayload, Payload.pack, Log.pack, packU_u8, hs, utf8Decode_utf8Encode]
    rw [← hs, List.take_of_length_le (by rw [MAX_PAYLOAD]; omega)]
    simp [Firmware.Message.encode, Firmware.LogMsg.encode, if_neg hn, bind, Except.bind, pure,
      Except.pure, u8]
  | configSet m =>
    obtain ⟨h1, h2, h3⟩ := h
    simp only [toPayload, Payload.pack, ConfigSet.pack, packU_u32, packU_u16, packU_u8,
      packF_f32 h1, packF_f32 h2, packF_f32 h3]
    rfl
  | configAck m =>
    simp only [toPayload, Payload.pack, ConfigAck.pack, packU_u32, packU_u8]
    simp [Firmware.Message.encode, Firmware.ConfigAck.encode, bind, Except.bind, pure,
      Except.pure, u8]
  | fwUpdate m =>
    simp only [toPayload, Payload.pack, FwUpdate.pack, packU_u32, FieldText.pad h]
    rfl
  | fwAck m =>
    simp only [toPayload, Payload.pack, FwAck.pack, packU_u8, FieldText.pad h]
    rfl
  | faultInject m =>
    simp only [toPayload, Payload.pack, FaultInject.pack, packU_u32]
    rfl
  | faultAck m => exact packU_u32 _
  | cmd m =>
    simp only [toPayload, Payload.pack, Cmd.pack, packU_u8]
    rfl

/-- A message in range fits a payload. -/
theorem encode_length_le {m : Firmware.Message} (h : InRange m) :
    m.encode.length ≤ MAX_PAYLOAD := by
  rw [MAX_PAYLOAD]
  cases m with
  | log m =>
    simp only [Firmware.Message.encode, Firmware.LogMsg.encode, List.length_append, u8_length]
    have := h.1
    rw [List.length_take]
    omega
  | _ => simp [Firmware.Message.encode, Firmware.Telemetry.encode, Firmware.Hello.encode,
      Firmware.Heartbeat.encode, Firmware.ConfigSet.encode, Firmware.ConfigAck.encode,
      Firmware.FwUpdate.encode, Firmware.FwAck.encode, Firmware.FaultInject.encode,
      Firmware.FaultAck.encode, Firmware.Cmd.encode]

/-- Decoding gives the message back, its texts cut. -/
theorem unpack_encode {m : Firmware.Message} (h : InRange m) :
    Body.unpack m.msgType.toNat m.encode = .ok (.known (toPayload (cutTexts m))) := by
  -- one case per message; `unpack` compares the length first, the fields follow
  cases m with
  | telemetry m =>
    have hcls : Body.unpack (Firmware.Message.telemetry m).msgType.toNat
        (Firmware.Message.encode (.telemetry m)) =
          ((Telemetry.unpack m.encode).map .telemetry).map .known := rfl
    have hlen : m.encode.length = 48 := by simp [Firmware.Telemetry.encode]
    rw [hcls, Telemetry.unpack, if_neg (not_not.mpr hlen)]
    simp [Firmware.Telemetry.encode, Except.map, cutTexts, toPayload]
  | hello m =>
    have hcls : Body.unpack (Firmware.Message.hello m).msgType.toNat
        (Firmware.Message.encode (.hello m)) =
          ((Hello.unpack m.encode).map .hello).map .known := rfl
    have hlen : m.encode.length = 40 := by simp [Firmware.Hello.encode]
    rw [hcls, Hello.unpack, if_neg (not_not.mpr hlen)]
    simp [Firmware.Hello.encode, Except.map, cutTexts, toPayload, h.1.cstr, h.2.cstr]
  | heartbeat m =>
    have hcls : Body.unpack (Firmware.Message.heartbeat m).msgType.toNat
        (Firmware.Message.encode (.heartbeat m)) =
          ((Heartbeat.unpack m.encode).map .heartbeat).map .known := rfl
    have hlen : m.encode.length = 16 := by simp [Firmware.Heartbeat.encode]
    rw [hcls, Heartbeat.unpack, if_neg (not_not.mpr hlen)]
    simp [Firmware.Heartbeat.encode, Except.map, cutTexts, toPayload]
  | log m =>
    obtain ⟨hlen, -⟩ := h
    have hn : ¬ m.message.length > Firmware.kMaxPayload - 4 := by rw [Firmware.kMaxPayload]; omega
    -- the message is the rest of the payload, so there is no width to compare
    have henc : m.encode = u8 m.level ++ (u8 0 ++ u8 0 ++ u8 0 ++ m.message) := by
      simp [Firmware.LogMsg.encode, if_neg hn]
    have hcls : Body.unpack (Firmware.Message.log m).msgType.toNat
        (Firmware.Message.encode (.log m)) =
          ((Log.unpack m.encode).map .log).map .known := rfl
    rw [hcls, henc, Log.unpack, if_neg (by simp only [List.length_append, u8_length]; omega)]
    have hlevel := congrArg Prod.fst (readU_u8 m.level (u8 0 ++ u8 0 ++ u8 0 ++ m.message))
    simp only [readU] at hlevel
    simp only [Except.map, hlevel]
    rfl
  | configSet m =>
    have hcls : Body.unpack (Firmware.Message.configSet m).msgType.toNat
        (Firmware.Message.encode (.configSet m)) =
          ((ConfigSet.unpack m.encode).map .configSet).map .known := rfl
    have hlen : m.encode.length = 20 := by simp [Firmware.ConfigSet.encode]
    rw [hcls, ConfigSet.unpack, if_neg (not_not.mpr hlen)]
    simp [Firmware.ConfigSet.encode, Except.map, cutTexts, toPayload]
  | configAck m =>
    have hcls : Body.unpack (Firmware.Message.configAck m).msgType.toNat
        (Firmware.Message.encode (.configAck m)) =
          ((ConfigAck.unpack m.encode).map .configAck).map .known := rfl
    have hlen : m.encode.length = 8 := by simp [Firmware.ConfigAck.encode]
    rw [hcls, ConfigAck.unpack, if_neg (not_not.mpr hlen)]
    simp [Firmware.ConfigAck.encode, Except.map, cutTexts, toPayload]
  | fwUpdate m =>
    have hcls : Body.unpack (Firmware.Message.fwUpdate m).msgType.toNat
        (Firmware.Message.encode (.fwUpdate m)) =
          ((FwUpdate.unpack m.encode).map .fwUpdate).map .known := rfl
    have hlen : m.encode.length = 24 := by simp [Firmware.FwUpdate.encode]
    rw [hcls, FwUpdate.unpack, if_neg (not_not.mpr hlen)]
    simp [Firmware.FwUpdate.encode, Except.map, cutTexts, toPayload, FieldText.cstr h]
  | fwAck m =>
    have hcls : Body.unpack (Firmware.Message.fwAck m).msgType.toNat
        (Firmware.Message.encode (.fwAck m)) =
          ((FwAck.unpack m.encode).map .fwAck).map .known := rfl
    have hlen : m.encode.length = 20 := by simp [Firmware.FwAck.encode]
    rw [hcls, FwAck.unpack, if_neg (not_not.mpr hlen)]
    simp [Firmware.FwAck.encode, Except.map, cutTexts, toPayload, readS_pad, FieldText.cstr h]
  | faultInject m =>
    have hcls : Body.unpack (Firmware.Message.faultInject m).msgType.toNat
        (Firmware.Message.encode (.faultInject m)) =
          ((FaultInject.unpack m.encode).map .faultInject).map .known := rfl
    have hlen : m.encode.length = 12 := by simp [Firmware.FaultInject.encode]
    rw [hcls, FaultInject.unpack, if_neg (not_not.mpr hlen)]
    simp [Firmware.FaultInject.encode, Except.map, cutTexts, toPayload]
  | faultAck m =>
    have hcls : Body.unpack (Firmware.Message.faultAck m).msgType.toNat
        (Firmware.Message.encode (.faultAck m)) =
          ((FaultAck.unpack m.encode).map .faultAck).map .known := rfl
    have hlen : m.encode.length = 4 := by simp [Firmware.FaultAck.encode]
    rw [hcls, FaultAck.unpack, if_neg (not_not.mpr hlen)]
    simp [Firmware.FaultAck.encode, Except.map, cutTexts, toPayload]
  | cmd m =>
    have hcls : Body.unpack (Firmware.Message.cmd m).msgType.toNat
        (Firmware.Message.encode (.cmd m)) =
          ((Cmd.unpack m.encode).map .cmd).map .known := rfl
    have hlen : m.encode.length = 4 := by simp [Firmware.Cmd.encode]
    rw [hcls, Cmd.unpack, if_neg (not_not.mpr hlen)]
    simp [Firmware.Cmd.encode, Except.map, cutTexts, toPayload]

/-! ## Where the two codecs part -/

theorem cutTexts_encode_length (m : Firmware.Message) :
    (cutTexts m).encode.length = m.encode.length := by
  cases m with
  | hello m => simp [cutTexts, Firmware.Message.encode, Firmware.Hello.encode]
  | fwUpdate m => simp [cutTexts, Firmware.Message.encode, Firmware.FwUpdate.encode]
  | fwAck m => simp [cutTexts, Firmware.Message.encode, Firmware.FwAck.encode]
  | _ => rfl

theorem fixedStr_cut_iff {s : List Byte} (h : FieldText s) :
    fixedStr (cBytes s) 16 = fixedStr s 16 ↔ NoInnerNul s := by
  have hlen : s.length ≤ 16 := by have := h.2; omega
  rw [fixedStr_eq hlen, fixedStr_eq ((cBytes_length_le s).trans hlen), padTo_cBytes_iff hlen]

/-- Cutting the texts does not show on the wire when nothing stands behind a NUL. -/
theorem cutTexts_encode_iff {m : Firmware.Message} (h : InRange m) :
    (cutTexts m).encode = m.encode ↔ ∀ s ∈ fieldTexts m, NoInnerNul s := by
  cases m with
  | hello m =>
    simp only [cutTexts, Firmware.Message.encode, Firmware.Hello.encode,
      List.append_cancel_right_eq, fieldTexts, List.forall_mem_cons, List.not_mem_nil,
      false_implies, implies_true, and_true, ← fixedStr_cut_iff h.1, ← fixedStr_cut_iff h.2]
    exact ⟨fun he => List.append_inj he (by simp), fun ⟨h1, h2⟩ => by rw [h1, h2]⟩
  | fwUpdate m =>
    simp only [cutTexts, Firmware.Message.encode, Firmware.FwUpdate.encode,
      List.append_cancel_right_eq, fieldTexts, List.forall_mem_singleton]
    exact fixedStr_cut_iff h
  | fwAck m =>
    simp only [cutTexts, Firmware.Message.encode, Firmware.FwAck.encode,
      List.append_cancel_left_eq, fieldTexts, List.forall_mem_singleton]
    exact fixedStr_cut_iff h
  | _ => simp [cutTexts, fieldTexts]

section DeviceId

variable {id : List Byte}

theorem acceptsDeviceId_iff :
    acceptsDeviceId id = true ↔
      id ≠ [] ∧ id.length ≤ 12 ∧ ∀ b ∈ id, 0x20 ≤ b.toNat ∧ b.toNat ≤ 0x7E := by
  simp [acceptsDeviceId, and_assoc]

theorem isAscii_of_accepts (h : acceptsDeviceId id = true) : IsAscii id := fun b hb =>
  Nat.lt_of_le_of_lt ((acceptsDeviceId_iff.mp h).2.2 b hb).2 (by decide)

/-- A printable id has no NUL to be cut at. -/
theorem cBytes_of_accepts (h : acceptsDeviceId id = true) : cBytes id = id := by
  refine List.takeWhile_eq_self_iff.mpr fun b hb => ?_
  have hb := ((acceptsDeviceId_iff.mp h).2.2 b hb).1
  refine decide_eq_true fun h0 => ?_
  rw [h0] at hb
  exact absurd hb (by decide)

theorem pad_length {n : Nat} (hn : 0 < n) (s : String) : (pad s n).length = n := by
  rw [pad]
  split
  · exact padTo_length (by rw [List.length_take]; omega)
  · exact padTo_length (by omega)

/-- `_pad` writes the id the firmware writes, unless it fills the field. -/
theorem pad_id_iff (h : acceptsDeviceId id = true) :
    pad (asciiDecode id) 12 = padTo 12 id ↔ id.length ≤ 11 := by
  have hlen := (acceptsDeviceId_iff.mp h).2.1
  constructor
  · intro he
    by_contra hlt
    have h12 : id.length = 12 := by omega
    rw [pad, asciiEncode_asciiDecode (isAscii_of_accepts h), if_pos h12.ge] at he
    -- the last byte: NUL on one side, printable on the other
    have hlast := congrArg (fun l => l.getD 11 0) he
    have hmem : id[11] ∈ id := List.getElem_mem _
    have hb := ((acceptsDeviceId_iff.mp h).2.2 _ hmem).1
    simp [padTo, h12, List.getD_eq_getElem?_getD] at hlast
    rw [← hlast] at hb
    exact absurd hb (by decide)
  · intro hle
    rw [pad, asciiEncode_asciiDecode (isAscii_of_accepts h), if_neg (by omega)]

end DeviceId

/-! ## The law -/

/-- The bytes the agent sends. -/
def agentFrame (id : List Byte) (seq : UInt32) (ts : UInt64) (fw : UInt32)
    (m : Firmware.Message) : List Byte :=
  Firmware.encodeFrame
    { msgType := m.msgType, deviceId := id, seq := seq, tsMs := ts, fwVersion := fw } m.encode

/-- The golden-frame law for one frame: both sides encode it to the same bytes,
    and the backend's decoding and encoding of the agent's bytes gives them and
    the id back. -/
structure Golden (id : List Byte) (seq : UInt32) (ts : UInt64) (fw : UInt32)
    (m : Firmware.Message) : Prop where
  same_bytes : encodeFrame (asciiDecode id) seq.toNat ts.toNat (.inl fw.toNat) (toPayload m) =
    .ok (agentFrame id seq ts fw m)
  round_trip : ∃ f p, decode (agentFrame id seq ts fw m) = .ok f ∧ f.payload = .known p ∧
    f.deviceId = asciiDecode id ∧
    encodeFrame f.deviceId f.header.seq f.header.tsMs (.inl f.header.fwVersion) p =
      .ok (agentFrame id seq ts fw m)

section Law

variable {id : List Byte} {seq : UInt32} {ts : UInt64} {fw : UInt32} {m : Firmware.Message}

theorem agentFrame_eq (hid : acceptsDeviceId id = true) (hm : InRange m) :
    agentFrame id seq ts fw m =
      framed (layout m.msgType.toNat (padTo 12 id) seq.toNat ts.toNat fw.toNat m.encode) :=
  firmware_encodeFrame_eq (acceptsDeviceId_iff.mp hid).2.1 (encode_length_le hm)

theorem encodeFrame_toPayload (seq : UInt32) (ts : UInt64) (fw : UInt32) (hm : InRange m)
    (dev : String) :
    encodeFrame dev seq.toNat ts.toNat (.inl fw.toNat) (toPayload m) =
      .ok (framed (layout m.msgType.toNat (pad dev 12) seq.toNat ts.toNat fw.toNat m.encode)) := by
  rw [← toPayload_type m]
  exact backend_encode_eq (pack_toPayload hm) (encode_length_le hm)
    (by rw [toPayload_type]; exact m.msgType.toNat_lt) seq.toNat_lt ts.toNat_lt fw.toNat_lt

/-- The Python decoder reads back a frame of the agent. -/
theorem decode_agentFrame (hid : acceptsDeviceId id = true) (hm : InRange m) :
    decode (agentFrame id seq ts fw m) = .ok
      { header := { msgType := m.msgType.toNat, deviceId := asciiDecode id, seq := seq.toNat,
                    tsMs := ts.toNat, fwVersion := fw.toNat, payloadLen := m.encode.length }
        payload := .known (toPayload (cutTexts m))
        raw := agentFrame id seq ts fw m } := by
  have hlen := (acceptsDeviceId_iff.mp hid).2.1
  have hcstr : cstr (padTo 12 id) = asciiDecode id := by
    rw [cstr, cBytes_padTo, cBytes_of_accepts hid]
  rw [agentFrame_eq hid hm, decode_framed (padTo_length hlen) (encode_length_le hm)
    m.msgType.toNat_lt seq.toNat_lt ts.toNat_lt fw.toNat_lt, unpack_encode hm, hcstr]
  rfl

/-- **Golden-frame law.**  It holds for exactly the ids that leave the last byte
    of their field free and the texts with nothing behind a NUL. -/
theorem golden_iff (hid : acceptsDeviceId id = true) (hm : InRange m) :
    Golden id seq ts fw m ↔ id.length ≤ 11 ∧ ∀ s ∈ fieldTexts m, NoInnerNul s := by
  have hcut := encodeFrame_toPayload seq ts fw hm.cut (asciiDecode id)
  rw [cutTexts_msgType] at hcut
  constructor
  · rintro ⟨hsame, f, p, hdec, hp, -, henc⟩
    -- a frame determines its twelve bytes of id and its payload
    have hlayout : ∀ {dev body}, dev.length = 12 → body.length = m.encode.length →
        framed (layout m.msgType.toNat dev seq.toNat ts.toNat fw.toNat body) =
          agentFrame id seq ts fw m → dev = padTo 12 id ∧ body = m.encode := by
      intro dev body hd hb he
      rw [agentFrame_eq hid hm] at he
      have hlen := (acceptsDeviceId_iff.mp hid).2.1
      exact layout_inj hb (framed_inj (by rw [layout_length hd,
        layout_length (padTo_length hlen), hb]) he)
    rw [encodeFrame_toPayload _ _ _ hm] at hsame
    rw [decode_agentFrame hid hm] at hdec
    cases hdec
    cases hp
    -- short ids and texts without an inner NUL come through padding unchanged
    have hpad12 : (pad (asciiDecode id) 12).length = 12 := pad_length (by decide) _
    exact ⟨(pad_id_iff hid).mp (hlayout hpad12 rfl (Except.ok.inj hsame)).1,
      (cutTexts_encode_iff hm).mp (hlayout hpad12 (cutTexts_encode_length m)
        (Except.ok.inj (hcut.symm.trans henc))).2⟩
  · rintro ⟨hlen, hnul⟩
    have hpad := (pad_id_iff hid).mpr hlen
    rw [hpad, (cutTexts_encode_iff hm).mpr hnul, ← agentFrame_eq hid hm] at hcut
    refine ⟨?_, _, _, decode_agentFrame hid hm, rfl, rfl, hcut⟩
    rw [encodeFrame_toPayload _ _ _ hm, hpad, agentFrame_eq hid hm]

/-- An eight-character id, as in the shared fixtures. -/
theorem golden_short_id :
    Golden [0x45, 0x43, 0x55, 0x2D, 0x47, 0x4F, 0x4C, 0x44] 0x01020304 1700000000123 0x010203
      (.fwAck { status := 2, version := [0x31, 0x2E, 0x32, 0x2E, 0x33] }) := by
  have hm : InRange (.fwAck { status := 2, version := [0x31, 0x2E, 0x32, 0x2E, 0x33] }) := by
    rw [InRange]
    decide +kernel
  exact (golden_iff (by decide) hm).mpr (by decide)

/-- The twelve-character id "ECU-JETSON-1": the backend drops its last character. -/
theorem not_golden_full_id :
    ¬ ∀ (id : List Byte) (seq : UInt32) (ts : UInt64) (fw : UInt32) (m : Firmware.Message),
      acceptsDeviceId id = true → InRange m → Golden id seq ts fw m := by
  intro h
  have := (h [0x45, 0x43, 0x55, 0x2D, 0x4A, 0x45, 0x54, 0x53, 0x4F, 0x4E, 0x2D, 0x31] 0 0 0
    (.cmd { cmd := 0 }) (by decide) trivial).same_bytes
  revert this
  decide +kernel

end Law

end EcuTelemetry.Wire
