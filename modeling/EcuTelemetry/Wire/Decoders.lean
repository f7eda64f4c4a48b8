/-
  EcuTelemetry.Wire.Decoders

  The Python decoder and the C++ decoder accept the same byte strings, report the
  same frame, and fail for the same reason.
-/

import EcuTelemetry.Backend.Protocol
import EcuTelemetry.Firmware.Indexed

namespace EcuTelemetry.Wire

open Backend Backend.Protocol

/-! ## Headers -/

theorem toNat_get {α : Type} {k : ℕ} {toNat : α → ℕ} {ofNat : ℕ → α}
    {hof : ∀ a, ofNat (toNat a) = a} {hto : ∀ n < 256 ^ k, toNat (ofNat n) = n}
    {hlt : ∀ a, toNat a < 256 ^ k} (bs : List Byte) :
    toNat ((ByteField.number k toNat ofNat hof hto hlt).get bs) = leNat (bs.take k) := by
  refine hto _ ((leNat_lt _).trans_le (Nat.pow_le_pow_right (by decide) ?_))
  exact List.length_take_le k bs

/-- Both read the same header fields. -/
theorem headerFields_get {data : List Byte} {hdr : Firmware.FrameHeader} {payloadLen : UInt16}
    (h : Firmware.FrameHeader.layout.get data = (hdr, payloadLen)) :
    HeaderFields.read data =
      { magic := hdr.magic.toNat, ver := hdr.version.toNat, mt := hdr.msgType.toNat,
        dev := (data.drop 4).take 12, seq := hdr.seq.toNat, ts := hdr.tsMs.toNat,
        fw := hdr.fwVersion.toNat, plen := payloadLen.toNat } := by
  rw [Firmware.FrameHeader.layout_get] at h
  obtain ⟨rfl, rfl⟩ := Prod.mk.inj h
  simp only [HeaderFields.read, readU, readS, List.drop_drop, Nat.reduceAdd, Firmware.Layout.u8,
    Firmware.Layout.u16, Firmware.Layout.u32, Firmware.Layout.u64, toNat_get]

theorem deviceId_get {data : List Byte} {hdr : Firmware.FrameHeader} {payloadLen : UInt16}
    (h : Firmware.FrameHeader.layout.get data = (hdr, payloadLen)) :
    hdr.deviceId = cBytes ((data.drop 4).take 12) := by
  rw [Firmware.FrameHeader.layout_get] at h
  obtain ⟨rfl, rfl⟩ := Prod.mk.inj h
  rfl

theorem zlibCrc32_eq (bs : List Byte) : zlibCrc32 bs = (Firmware.crc32 bs 0).toNat :=
  (congrArg BitVec.toNat (Firmware.crc32_toBitVec bs 0)).symm

/-! ## Payloads -/

/-- The types that have a message. -/
def knownTypes : List UInt8 :=
  [Firmware.MsgType.TELEMETRY, Firmware.MsgType.HELLO, Firmware.MsgType.HEARTBEAT,
   Firmware.MsgType.LOG, Firmware.MsgType.CONFIG_SET, Firmware.MsgType.CONFIG_ACK,
   Firmware.MsgType.FW_UPDATE, Firmware.MsgType.FW_ACK, Firmware.MsgType.FAULT_INJECT,
   Firmware.MsgType.FAULT_ACK, Firmware.MsgType.CMD]

/-- Python and C++ accept a payload alike. -/
def Alike {α β : Type} (r : Except PyError α) (o : Option β) : Prop := (∃ a, r = .ok a) ↔ o.isSome

/-- What is made of the result on one side does not matter. -/
theorem Alike.left {α β γ : Type} {r : Except PyError α} {o : Option β} (h : Alike r o)
    (f : α → γ) : Alike (r.map f) o := by
  cases r with
  | error e =>
    have hnot : ¬ o.isSome := fun ho => by
      obtain ⟨a, ha⟩ := h.mpr ho
      cases ha
    exact ⟨fun ⟨_, ha⟩ => (nomatch ha), fun ho => absurd ho hnot⟩
  | ok a => exact ⟨fun _ => h.mp ⟨a, rfl⟩, fun _ => ⟨f a, rfl⟩⟩

theorem Alike.right {α β γ : Type} {r : Except PyError α} {o : Option β} (h : Alike r o)
    (g : β → γ) : Alike r (o.map g) := by
  rw [Alike, Option.isSome_map]
  exact h

/-- The Python side checks the length, the C++ side has a layout of that width. -/
theorem alike_of_width {α β : Type} {f : ByteField β} {p : List Byte} {n : ℕ} {e : PyError} {v : α}
    (hwidth : f.width = n) :
    Alike (if p.length ≠ n then .error e else .ok v : Except PyError α) (Firmware.exactly f p) := by
  rw [Alike, Firmware.exactly, hwidth]
  by_cases hn : p.length = n
  · rw [if_neg (not_not.mpr hn), if_pos hn]
    exact ⟨fun _ => rfl, fun _ => ⟨v, rfl⟩⟩
  · rw [if_pos hn, if_neg hn]
    refine ⟨fun h => ?_, fun h => ?_⟩
    · obtain ⟨_, h⟩ := h
      cases h
    · cases h

theorem alike_log (p : List Byte) : Alike (Log.unpack p) (Firmware.LogMsg.decode p) := by
  rw [Alike, Log.unpack, Firmware.LogMsg.decode_eq]
  by_cases hn : p.length < 4
  · rw [if_pos hn, if_pos hn]
    exact ⟨fun ⟨_, h⟩ => (nomatch h), fun h => (nomatch h)⟩
  · rw [if_neg hn, if_neg hn]
    exact ⟨fun _ => rfl, fun _ => ⟨_, rfl⟩⟩

/-- A payload of a type that has a message, by its class and its constructor. -/
theorem alike_class {α β : Type} {msgType : UInt8} {p : List Byte} {r : Except PyError α}
    {o : Option β} {f : α → Payload} {g : β → Firmware.Message}
    (hpy : Body.unpack msgType.toNat p = (r.map f).map .known)
    (hcpp : Firmware.Message.decode msgType p = o.map g) (h : Alike r o) :
    Alike (Body.unpack msgType.toNat p) (Firmware.Message.decode msgType p) := by
  rw [hpy, hcpp]
  exact ((h.left f).left Body.known).right g

/-- Both decoders accept the same payloads of each known type. -/
theorem alike_payload {msgType : UInt8} (h : msgType ∈ knownTypes) (p : List Byte) :
    Alike (Body.unpack msgType.toNat p) (Firmware.Message.decode msgType p) := by
  simp only [knownTypes, List.mem_cons, List.not_mem_nil, or_false] at h
  -- in the order of `knownTypes`; all but LOG have a fixed width
  rcases h with rfl | rfl | rfl | rfl | rfl | rfl | rfl | rfl | rfl | rfl | rfl
  · refine alike_class rfl (Firmware.Message.decode_telemetry p) ?_
    rw [Firmware.Telemetry.decode_eq]
    exact alike_of_width rfl
  · refine alike_class rfl (Firmware.Message.decode_hello p) ?_
    rw [Firmware.Hello.decode_eq]
    exact alike_of_width rfl
  · refine alike_class rfl (Firmware.Message.decode_heartbeat p) ?_
    rw [Firmware.Heartbeat.decode_eq]
    exact alike_of_width rfl
  · exact alike_class rfl (Firmware.Message.decode_log p) (alike_log p)
  · refine alike_class rfl (Firmware.Message.decode_configSet p) ?_
    rw [Firmware.ConfigSet.decode_eq]
    exact alike_of_width rfl
  · refine alike_class rfl (Firmware.Message.decode_configAck p) ?_
    rw [Firmware.ConfigAck.decode_eq]
    exact alike_of_width rfl
  · refine alike_class rfl (Firmware.Message.decode_fwUpdate p) ?_
    rw [Firmware.FwUpdate.decode_eq]
    exact alike_of_width rfl
  · refine alike_class rfl (Firmware.Message.decode_fwAck p) ?_
    rw [Firmware.FwAck.decode_eq]
    exact alike_of_width rfl
  · refine alike_class rfl (Firmware.Message.decode_faultInject p) ?_
    rw [Firmware.FaultInject.decode_eq]
    exact alike_of_width rfl
  · refine alike_class rfl (Firmware.Message.decode_faultAck p) ?_
    rw [Firmware.FaultAck.decode_eq]
    exact alike_of_width rfl
  · refine alike_class rfl (Firmware.Message.decode_cmd p) ?_
    rw [Firmware.Cmd.decode_eq]
    exact alike_of_width rfl

/-- Other types have no class: the payload stays as it is. -/
theorem unpack_unknown {msgType : UInt8} (h : msgType ∉ knownTypes) (p : List Byte) :
    Body.unpack msgType.toNat p = .ok (.raw p) := by
  have hnone : PAYLOAD_CLASSES.lookup msgType.toNat = none := by
    have hkeys : PAYLOAD_CLASSES.map Prod.fst = knownTypes.map UInt8.toNat := rfl
    refine List.lookup_eq_none_iff.mpr fun c hc => ?_
    have hkey : c.1 ∈ knownTypes.map UInt8.toNat := hkeys ▸ List.mem_map_of_mem hc
    obtain ⟨t, ht, heq⟩ := List.mem_map.mp hkey
    rw [bne_iff_ne, ← heq]
    exact fun hsame => h (UInt8.toNat_inj.mp hsame ▸ ht)
  rw [Body.unpack, hnone]

theorem unpack_ok_iff (msgType : UInt8) (p : List Byte) :
    (∃ body, Body.unpack msgType.toNat p = .ok body) ↔
      (msgType ∈ knownTypes → (Firmware.Message.decode msgType p).isSome) := by
  by_cases h : msgType ∈ knownTypes
  · exact (alike_payload h p).trans ⟨fun ho _ => ho, fun ho => ho h⟩
  · exact ⟨fun _ hin => absurd hin h, fun _ => ⟨_, unpack_unknown h p⟩⟩

/-! ## Frames -/

/-- The exception that goes with an error. -/
def errorKind : Firmware.DecodeError → ProtocolErrorKind
  | .TOO_SHORT => .badLength
  | .BAD_MAGIC => .badMagic
  | .BAD_VERSION => .badVersion
  | .BAD_LENGTH => .badLength
  | .BAD_CRC => .badCRC

section Checks

variable {data : List Byte} {hdr : Firmware.FrameHeader} {payloadLen : UInt16}

/-- `Header.unpack` makes the checks of `decodeFrame`. -/
theorem unpack_get (hget : Firmware.FrameHeader.layout.get data = (hdr, payloadLen)) :
    Header.unpack data =
      if data.length < Firmware.kHeaderSize then .error (.protocol .badLength "short header")
      else if hdr.magic ≠ Firmware.kMagic then
        .error (.protocol .badMagic ("magic 0x" ++ hex4 hdr.magic.toNat))
      else if hdr.version ≠ Firmware.kProtoVersion then
        .error (.protocol .badVersion ("version " ++ toString hdr.version.toNat))
      else if payloadLen.toNat > Firmware.kMaxPayload then
        .error (.protocol .badLength ("payload_len " ++ toString payloadLen.toNat))
      else
        .ok { msgType := hdr.msgType.toNat, deviceId := asciiDecode hdr.deviceId,
              seq := hdr.seq.toNat, tsMs := hdr.tsMs.toNat, fwVersion := hdr.fwVersion.toNat,
              payloadLen := payloadLen.toNat, version := hdr.version.toNat } := by
  have hkMagic : MAGIC = Firmware.kMagic.toNat := rfl
  have hkVersion : VERSION = Firmware.kProtoVersion.toNat := rfl
  -- Python compares the numbers, C++ the words
  have hmagic : hdr.magic.toNat ≠ MAGIC ↔ hdr.magic ≠ Firmware.kMagic := by
    rw [hkMagic, ne_eq, ne_eq, UInt16.toNat_inj]
  have hversion : hdr.version.toNat ≠ VERSION ↔ hdr.version ≠ Firmware.kProtoVersion := by
    rw [hkVersion, ne_eq, ne_eq, UInt8.toNat_inj]
  rw [Header.unpack, headerFields_get hget, deviceId_get hget]
  simp only [hmagic, hversion]
  rfl

/-- The checksum that Python compares. -/
theorem crc_get {n : ℕ} :
    leNat (((data.take (n + 4)).drop n)) = (Firmware.Layout.u32.get (data.drop n)).toNat := by
  rw [List.drop_take, Nat.add_sub_cancel_left]
  exact (toNat_get (data.drop n)).symm

/-- `decode` makes the checks of `decodeFrame`, in the same order. -/
theorem decode_get (hget : Firmware.FrameHeader.layout.get data = (hdr, payloadLen)) :
    Protocol.decode data =
      let total := Firmware.kHeaderSize + payloadLen.toNat + Firmware.kCrcSize
      if data.length < Firmware.kHeaderSize then .error (.protocol .badLength "short header")
      else if hdr.magic ≠ Firmware.kMagic then
        .error (.protocol .badMagic ("magic 0x" ++ hex4 hdr.magic.toNat))
      else if hdr.version ≠ Firmware.kProtoVersion then
        .error (.protocol .badVersion ("version " ++ toString hdr.version.toNat))
      else if payloadLen.toNat > Firmware.kMaxPayload then
        .error (.protocol .badLength ("payload_len " ++ toString payloadLen.toNat))
      else if data.length < total then
        .error (.protocol .badLength
          ("need " ++ toString total ++ " have " ++ toString data.length))
      else if Firmware.Layout.u32.get (data.drop (Firmware.kHeaderSize + payloadLen.toNat)) ≠
          Firmware.crc32 (data.take (Firmware.kHeaderSize + payloadLen.toNat)) 0 then
        .error (.protocol .badCRC "crc mismatch")
      else
        (Body.unpack hdr.msgType.toNat ((data.drop Firmware.kHeaderSize).take payloadLen.toNat)).map
          fun payload =>
            { header := { msgType := hdr.msgType.toNat, deviceId := asciiDecode hdr.deviceId,
                          seq := hdr.seq.toNat, tsMs := hdr.tsMs.toNat,
                          fwVersion := hdr.fwVersion.toNat, payloadLen := payloadLen.toNat,
                          version := hdr.version.toNat }
              payload
              raw := data.take total } := by
  rw [Protocol.decode, unpack_get hget]
  dsimp only
  by_cases hshort : data.length < Firmware.kHeaderSize
  · rw [if_pos hshort, if_pos hshort]
  by_cases hmagic : hdr.magic ≠ Firmware.kMagic
  · rw [if_neg hshort, if_neg hshort, if_pos hmagic, if_pos hmagic]
  by_cases hversion : hdr.version ≠ Firmware.kProtoVersion
  · rw [if_neg hshort, if_neg hshort, if_neg hmagic, if_neg hmagic, if_pos hversion,
      if_pos hversion]
  by_cases hbound : payloadLen.toNat > Firmware.kMaxPayload
  · rw [if_neg hshort, if_neg hshort, if_neg hmagic, if_neg hmagic, if_neg hversion,
      if_neg hversion, if_pos hbound, if_pos hbound]
  rw [if_neg hshort, if_neg hshort, if_neg hmagic, if_neg hmagic, if_neg hversion, if_neg hversion,
    if_neg hbound, if_neg hbound]
  -- the payload and the checksum are cut out of the frame
  have hbody : (data.take (HEADER_LEN + payloadLen.toNat + 4)).take
      (HEADER_LEN + payloadLen.toNat + 4 - 4) = data.take
        (Firmware.kHeaderSize + payloadLen.toNat) := by
    rw [Nat.add_sub_cancel, List.take_take, min_eq_left (Nat.le_add_right _ _)]
    rfl
  have hcrc : zlibCrc32 (data.take (Firmware.kHeaderSize + payloadLen.toNat)) ≠
        leNat ((data.take (HEADER_LEN + payloadLen.toNat + 4)).drop
          (HEADER_LEN + payloadLen.toNat + 4 - 4)) ↔
      Firmware.Layout.u32.get (data.drop (Firmware.kHeaderSize + payloadLen.toNat)) ≠
        Firmware.crc32 (data.take (Firmware.kHeaderSize + payloadLen.toNat)) 0 := by
    rw [Nat.add_sub_cancel, crc_get, zlibCrc32_eq, ne_eq, ne_eq, UInt32.toNat_inj, eq_comm]
    rfl
  have hpayload : (data.take (Firmware.kHeaderSize + payloadLen.toNat)).drop HEADER_LEN =
      (data.drop Firmware.kHeaderSize).take payloadLen.toNat := by
    rw [List.drop_take]
    exact congrArg (fun n => (data.drop Firmware.kHeaderSize).take n) (Nat.add_sub_cancel_left ..)
  dsimp only
  simp only [hbody, hcrc, hpayload]
  rfl

end Checks

/-- A frame that C++ rejects is rejected by Python with the exception that goes
    with the error. -/
theorem decode_of_error {data : List Byte} {e : Firmware.DecodeError}
    (h : Firmware.decodeFrame data = .error e) :
    ∃ msg, Protocol.decode data = .error (.protocol (errorKind e) msg) := by
  rcases hget : Firmware.FrameHeader.layout.get data with ⟨hdr, payloadLen⟩
  rw [Firmware.decodeFrame_eq, hget] at h
  dsimp only at h
  rw [decode_get hget]
  dsimp only
  split_ifs at h ⊢
  all_goals
    cases h
    exact ⟨_, rfl⟩

/-- A frame that C++ accepts goes on to the class of its type. -/
theorem decode_of_ok {data : List Byte} {f : Firmware.Frame} {used : ℕ}
    (h : Firmware.decodeFrame data = .ok (f, used)) :
    Protocol.decode data = (Body.unpack f.hdr.msgType.toNat f.payload).map fun payload =>
      { header := { msgType := f.hdr.msgType.toNat, deviceId := asciiDecode f.hdr.deviceId,
                    seq := f.hdr.seq.toNat, tsMs := f.hdr.tsMs.toNat,
                    fwVersion := f.hdr.fwVersion.toNat, payloadLen := f.payloadLen.toNat,
                    version := f.hdr.version.toNat }
        payload
        raw := data.take used } := by
  obtain ⟨hget, hmagic, hversion, hbound, htotal, hlength, hpayload, hcrc⟩ :=
    Firmware.decodeFrame_eq_ok.mp h
  have hshort : ¬ data.length < Firmware.kHeaderSize := by
    rw [htotal] at hlength
    omega
  rw [decode_get hget]
  dsimp only
  rw [if_neg hshort, if_neg (not_not.mpr hmagic), if_neg (not_not.mpr hversion),
    if_neg (not_lt.mpr hbound), ← htotal, if_neg (not_lt.mpr hlength), if_neg (not_not.mpr hcrc),
    ← hpayload]

/-- Both report the same frame. -/
structure SameFrame (pf : Protocol.Frame) (f : Firmware.Frame) (used : ℕ) : Prop where
  msgType : pf.header.msgType = f.hdr.msgType.toNat
  deviceId : pf.header.deviceId = asciiDecode f.hdr.deviceId
  seq : pf.header.seq = f.hdr.seq.toNat
  tsMs : pf.header.tsMs = f.hdr.tsMs.toNat
  fwVersion : pf.header.fwVersion = f.hdr.fwVersion.toNat
  payloadLen : pf.header.payloadLen = f.payloadLen.toNat
  /-- the bytes of the payload -/
  bytes : (pf.raw.drop HEADER_LEN).take pf.header.payloadLen = f.payload
  payload : Body.unpack pf.header.msgType f.payload = .ok pf.payload
  used : pf.raw.length = used

/-- Where both decode, they read the same frame. -/
theorem sameFrame_of_ok {data : List Byte} {pf : Protocol.Frame} {f : Firmware.Frame} {used : ℕ}
    (hpy : Protocol.decode data = .ok pf) (hcpp : Firmware.decodeFrame data = .ok (f, used)) :
    SameFrame pf f used := by
  have hdecoded := Firmware.decodeFrame_eq_ok.mp hcpp
  rw [decode_of_ok hcpp] at hpy
  cases hbody : Body.unpack f.hdr.msgType.toNat f.payload with
  | error e =>
    rw [hbody] at hpy
    cases hpy
  | ok body =>
    rw [hbody] at hpy
    cases hpy
    -- the payload within the bytes of the frame
    have hbytes : ((data.take used).drop HEADER_LEN).take f.payloadLen.toNat = f.payload := by
      rw [List.drop_take, List.take_take, hdecoded.payload, hdecoded.total, min_eq_left]
      · rfl
      · rw [HEADER_LEN, Firmware.kHeaderSize]
        omega
    exact {
      msgType := rfl, deviceId := rfl, seq := rfl, tsMs := rfl, fwVersion := rfl, payloadLen := rfl
      bytes := hbytes
      payload := hbody
      used := List.length_take_of_le hdecoded.length }

/-- The two decoders accept the same byte strings and report the same frames; an
    error of the one goes with an exception of the other, and the C++ decoder reads
    no byte at or beyond the end. -/
theorem decoders_agree (data : List Byte) :
    ((∃ pf, Protocol.decode data = .ok pf) ↔
      ∃ f used, Firmware.decodeFrame data = .ok (f, used) ∧
        (f.hdr.msgType ∈ knownTypes →
          (Firmware.Message.decode f.hdr.msgType f.payload).isSome)) ∧
    (∀ pf f used, Protocol.decode data = .ok pf → Firmware.decodeFrame data = .ok (f, used) →
      SameFrame pf f used) ∧
    (∀ e, Firmware.decodeFrame data = .error e →
      ∃ msg, Protocol.decode data = .error (.protocol (errorKind e) msg)) ∧
    Firmware.Indexed.decodeFrame data = some (Firmware.decodeFrame data) ∧
    ∀ msgType, Firmware.Indexed.decodeMessage msgType data =
      some (Firmware.Message.decode msgType data) := by
  refine ⟨?_, fun _ _ _ => sameFrame_of_ok, fun _ => decode_of_error,
    Firmware.Indexed.decodeFrame_eq data, fun t => Firmware.Indexed.decodeMessage_eq t data⟩
  constructor
  · rintro ⟨pf, hpf⟩
    rcases hcpp : Firmware.decodeFrame data with e | ⟨f, used⟩
    · obtain ⟨msg, hmsg⟩ := decode_of_error hcpp
      cases hpf.symm.trans hmsg
    · refine ⟨f, used, rfl, (unpack_ok_iff _ _).mp ⟨pf.payload, ?_⟩⟩
      have hsame := sameFrame_of_ok hpf hcpp
      rw [← hsame.msgType]
      exact hsame.payload
  · rintro ⟨f, used, hcpp, hmessage⟩
    -- an unknown type has any payload on both sides
    obtain ⟨body, hbody⟩ := (unpack_ok_iff _ _).mpr hmessage
    rw [decode_of_ok hcpp, hbody]
    exact ⟨_, rfl⟩

end EcuTelemetry.Wire
