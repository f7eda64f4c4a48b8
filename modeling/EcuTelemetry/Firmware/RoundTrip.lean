/-
  EcuTelemetry.Firmware.RoundTrip

  The codec of the firmware is a round trip: a frame that is encoded decodes to
  its header and its message, whatever follows it, and a frame that is accepted
  encodes to the bytes it was read from, if the bytes that carry nothing are zero.
-/

import EcuTelemetry.Firmware.Layout

namespace EcuTelemetry.Firmware

/-! ## Messages that fit, payloads without remains -/

/-- A text for a field of `n` bytes. -/
def FitsText (n : ℕ) (s : List Byte) : Prop := 0 ∉ s ∧ s.length ≤ n

/-- The texts of a message fit their fields. -/
def Message.Fits : Message → Prop
  | .hello m => FitsText 16 m.fwString ∧ FitsText 16 m.hwModel
  | .log m => m.message.length ≤ 1020
  | .fwUpdate m => FitsText 16 m.targetVersion
  | .fwAck m => FitsText 16 m.version
  | _ => True

/-- The `n` bytes from `k` on are zero. -/
def Zeros (p : List Byte) (k n : ℕ) : Prop := (p.drop k).take n = List.replicate n 0

/-- In the `n` bytes from `k` on, only zeros follow a NUL. -/
def CleanText (p : List Byte) (k n : ℕ) : Prop := NoInnerNul ((p.drop k).take n)

/-- The pad bytes of a payload, and the bytes after the end of a text, are zero. -/
def Message.Clean (p : List Byte) : Message → Prop
  | .telemetry _ => Zeros p 45 3
  | .hello _ => CleanText p 0 16 ∧ CleanText p 16 16 ∧ Zeros p 38 2
  | .heartbeat _ => True
  | .log _ => Zeros p 1 3
  | .configSet _ => Zeros p 7 1
  | .configAck _ => Zeros p 5 3
  | .fwUpdate _ => CleanText p 0 16
  | .fwAck _ => Zeros p 1 3 ∧ CleanText p 4 16
  | .faultInject _ => True
  | .faultAck _ => True
  | .cmd _ => Zeros p 1 3

/-! ## Payloads -/

/-- A payload of a fixed layout, back and forth. -/
theorem decode_of_encode {α : Type} {f : ByteField α} {encode : α → List Byte}
    {decode : List Byte → Option α} (hencode : ∀ m, encode m = f.put m)
    (hdecode : ∀ p, decode p = exactly f p) {m : α} (h : f.Fits m) :
    decode (encode m) = some m := by
  rw [hencode, hdecode]
  exact exactly_put f h

theorem encode_of_decode {α : Type} {f : ByteField α} {encode : α → List Byte}
    {decode : List Byte → Option α} (hencode : ∀ m, encode m = f.put m)
    (hdecode : ∀ p, decode p = exactly f p) {p : List Byte} {m : α} (h : decode p = some m)
    (hclean : f.Clean p) : encode m = p := by
  rw [hencode]
  exact put_of_exactly f (hdecode p ▸ h) hclean

/-- A text of at most 1020 bytes comes back whole. -/
theorem LogMsg.decode_encode {m : LogMsg} (h : m.message.length ≤ 1020) :
    LogMsg.decode m.encode = some m := by
  have hmessage : m.message.take (kMaxPayload - 4) = m.message := List.take_of_length_le h
  have hwidth : (LogMsg.layout.put m.level).length = 4 := LogMsg.layout.length_put _
  rw [LogMsg.encode_eq, LogMsg.decode_eq, hmessage, if_neg]
  · rw [LogMsg.layout.get_put _ _ trivial, List.drop_left' hwidth]
  · rw [List.length_append, hwidth]
    omega

/-- And a payload with zero padding is written back as it was. -/
theorem LogMsg.encode_decode {p : List Byte} {m : LogMsg} (h : LogMsg.decode p = some m)
    (hlen : p.length ≤ kMaxPayload) (hclean : Zeros p 1 3) : m.encode = p := by
  rw [LogMsg.decode_eq] at h
  split at h
  · cases h
  · next h4 =>
    obtain rfl := Option.some.inj h
    have hput : LogMsg.layout.put (LogMsg.layout.get p) = p.take 4 :=
      LogMsg.layout.put_get p (not_lt.mp h4) ⟨trivial, hclean⟩
    have htake : (p.drop 4).take (kMaxPayload - 4) = p.drop 4 := by
      rw [List.take_of_length_le]
      rw [List.length_drop]
      omega
    rw [LogMsg.encode_eq, hput, htake, List.take_append_drop]

/-- `decode` on the payload of a message, by its constructor. -/
theorem map_decode_of_encode {α : Type} {f : ByteField α} {encode : α → List Byte}
    {decode : List Byte → Option α} (con : α → Message) (hencode : ∀ m, encode m = f.put m)
    (hdecode : ∀ p, decode p = exactly f p) {m : α} (h : f.Fits m) :
    (decode (encode m)).map con = some (con m) := by
  rw [decode_of_encode hencode hdecode h]
  rfl

section Fits

open Layout

theorem Telemetry.layout_fits (m : Telemetry) : Telemetry.layout.Fits m := by
  simp [Telemetry.layout, f32, f64, u32, u64, u8]

theorem Hello.layout_fits (m : Hello) :
    Hello.layout.Fits m ↔ FitsText 16 m.fwString ∧ FitsText 16 m.hwModel := by
  simp [Hello.layout, u32, u16, FitsText]

theorem Heartbeat.layout_fits (m : Heartbeat) : Heartbeat.layout.Fits m := by
  simp [Heartbeat.layout, u32]

theorem ConfigSet.layout_fits (m : ConfigSet) : ConfigSet.layout.Fits m := by
  simp [ConfigSet.layout, u32, u16, u8, f32]

theorem ConfigAck.layout_fits (m : ConfigAck) : ConfigAck.layout.Fits m := by
  simp [ConfigAck.layout, u32, u8]

theorem FwUpdate.layout_fits (m : FwUpdate) :
    FwUpdate.layout.Fits m ↔ FitsText 16 m.targetVersion := by
  simp [FwUpdate.layout, u32, FitsText]

theorem FwAck.layout_fits (m : FwAck) : FwAck.layout.Fits m ↔ FitsText 16 m.version := by
  simp [FwAck.layout, u8, FitsText]

theorem FaultInject.layout_fits (m : FaultInject) : FaultInject.layout.Fits m := by
  simp [FaultInject.layout, u32]

theorem FaultAck.layout_fits (m : FaultAck) : FaultAck.layout.Fits m := by
  simp [FaultAck.layout, u32]

theorem Cmd.layout_fits (m : Cmd) : Cmd.layout.Fits m := by
  simp [Cmd.layout, u8]

theorem Telemetry.layout_clean (p : List Byte) : Telemetry.layout.Clean p ↔ Zeros p 45 3 := by
  simp [Telemetry.layout, f32, f64, u32, u64, u8, Zeros]

theorem Hello.layout_clean (p : List Byte) :
    Hello.layout.Clean p ↔ CleanText p 0 16 ∧ CleanText p 16 16 ∧ Zeros p 38 2 := by
  simp [Hello.layout, u32, u16, Zeros, CleanText]

theorem Heartbeat.layout_clean (p : List Byte) : Heartbeat.layout.Clean p := by
  simp [Heartbeat.layout, u32]

theorem ConfigSet.layout_clean (p : List Byte) : ConfigSet.layout.Clean p ↔ Zeros p 7 1 := by
  simp [ConfigSet.layout, u32, u16, u8, f32, Zeros]

theorem ConfigAck.layout_clean (p : List Byte) : ConfigAck.layout.Clean p ↔ Zeros p 5 3 := by
  simp [ConfigAck.layout, u32, u8, Zeros]

theorem FwUpdate.layout_clean (p : List Byte) : FwUpdate.layout.Clean p ↔ CleanText p 0 16 := by
  simp [FwUpdate.layout, u32, CleanText]

theorem FwAck.layout_clean (p : List Byte) :
    FwAck.layout.Clean p ↔ Zeros p 1 3 ∧ CleanText p 4 16 := by
  simp [FwAck.layout, u8, Zeros, CleanText]

theorem FaultInject.layout_clean (p : List Byte) : FaultInject.layout.Clean p := by
  simp [FaultInject.layout, u32]

theorem FaultAck.layout_clean (p : List Byte) : FaultAck.layout.Clean p := by
  simp [FaultAck.layout, u32]

theorem Cmd.layout_clean (p : List Byte) : Cmd.layout.Clean p ↔ Zeros p 1 3 := by
  simp [Cmd.layout, u8, Zeros]

end Fits

/-- A message that fits decodes to itself. -/
theorem Message.decode_encode {m : Message} (h : m.Fits) :
    Message.decode m.msgType m.encode = some m := by
  -- each message by its layout, the LOG by its own lemma
  cases m with
  | telemetry m =>
    have hdecode :=
      map_decode_of_encode .telemetry Telemetry.encode_eq Telemetry.decode_eq
        (Telemetry.layout_fits m)
    exact (Message.decode_telemetry m.encode).trans hdecode
  | hello m =>
    have hdecode :=
      map_decode_of_encode .hello Hello.encode_eq Hello.decode_eq ((Hello.layout_fits m).mpr h)
    exact (Message.decode_hello m.encode).trans hdecode
  | heartbeat m =>
    have hdecode :=
      map_decode_of_encode .heartbeat Heartbeat.encode_eq Heartbeat.decode_eq
        (Heartbeat.layout_fits m)
    exact (Message.decode_heartbeat m.encode).trans hdecode
  | log m =>
    show Message.decode MsgType.LOG m.encode = _
    rw [Message.decode_log, LogMsg.decode_encode h]
    rfl
  | configSet m =>
    have hdecode :=
      map_decode_of_encode .configSet ConfigSet.encode_eq ConfigSet.decode_eq
        (ConfigSet.layout_fits m)
    exact (Message.decode_configSet m.encode).trans hdecode
  | configAck m =>
    have hdecode :=
      map_decode_of_encode .configAck ConfigAck.encode_eq ConfigAck.decode_eq
        (ConfigAck.layout_fits m)
    exact (Message.decode_configAck m.encode).trans hdecode
  | fwUpdate m =>
    have hdecode :=
      map_decode_of_encode .fwUpdate FwUpdate.encode_eq FwUpdate.decode_eq
        ((FwUpdate.layout_fits m).mpr h)
    exact (Message.decode_fwUpdate m.encode).trans hdecode
  | fwAck m =>
    have hdecode :=
      map_decode_of_encode .fwAck FwAck.encode_eq FwAck.decode_eq ((FwAck.layout_fits m).mpr h)
    exact (Message.decode_fwAck m.encode).trans hdecode
  | faultInject m =>
    have hdecode := map_decode_of_encode .faultInject FaultInject.encode_eq FaultInject.decode_eq
      (FaultInject.layout_fits m)
    exact (Message.decode_faultInject m.encode).trans hdecode
  | faultAck m =>
    have hdecode :=
      map_decode_of_encode .faultAck FaultAck.encode_eq FaultAck.decode_eq (FaultAck.layout_fits m)
    exact (Message.decode_faultAck m.encode).trans hdecode
  | cmd m =>
    have hdecode := map_decode_of_encode .cmd Cmd.encode_eq Cmd.decode_eq (Cmd.layout_fits m)
    exact (Message.decode_cmd m.encode).trans hdecode

/-- A payload decodes to a message of its type. -/
theorem Message.msgType_of_decode {msgType : UInt8} {p : List Byte} {m : Message}
    (h : Message.decode msgType p = some m) : msgType = m.msgType := by
  rw [Message.decode] at h
  -- one round for each type
  iterate 11
    rcases ite_eq_iff.mp h with ⟨ht, h⟩ | ⟨-, h⟩
    · obtain ⟨x, -, rfl⟩ := Option.map_eq_some_iff.mp h
      exact ht
  cases h

theorem encode_of_map_decode {α : Type} {f : ByteField α} {encode : α → List Byte}
    {decode : List Byte → Option α} {con : α → Message} (hinj : ∀ a b, con a = con b → a = b)
    (hencode : ∀ m, encode m = f.put m) (hdecode : ∀ p, decode p = exactly f p) {p : List Byte}
    {m : α} (h : (decode p).map con = some (con m)) (hclean : f.Clean p) : encode m = p := by
  obtain ⟨a, ha, hcon⟩ := Option.map_eq_some_iff.mp h
  exact encode_of_decode hencode hdecode (hinj a m hcon ▸ ha) hclean

/-- A payload that is accepted encodes to itself. -/
theorem Message.encode_decode {msgType : UInt8} {p : List Byte} {m : Message}
    (h : Message.decode msgType p = some m) (hlen : p.length ≤ kMaxPayload) (hclean : m.Clean p) :
    m.encode = p := by
  obtain rfl := Message.msgType_of_decode h
  -- each message by its layout; `Clean` is for the bytes that carry nothing
  cases m with
  | telemetry m =>
    have hencode :=
      encode_of_map_decode (fun _ _ => Message.telemetry.inj)
        Telemetry.encode_eq Telemetry.decode_eq
      ((Message.decode_telemetry p).symm.trans h) ((Telemetry.layout_clean p).mpr hclean)
    exact hencode
  | hello m =>
    have hencode :=
      encode_of_map_decode (fun _ _ => Message.hello.inj) Hello.encode_eq Hello.decode_eq
      ((Message.decode_hello p).symm.trans h) ((Hello.layout_clean p).mpr hclean)
    exact hencode
  | heartbeat m =>
    have hencode :=
      encode_of_map_decode (fun _ _ => Message.heartbeat.inj)
        Heartbeat.encode_eq Heartbeat.decode_eq
      ((Message.decode_heartbeat p).symm.trans h) (Heartbeat.layout_clean p)
    exact hencode
  | log m =>
    -- a LOG has no layout: its text takes what is left
    obtain ⟨a, ha, hcon⟩ := Option.map_eq_some_iff.mp ((Message.decode_log p).symm.trans h)
    obtain rfl := Message.log.inj hcon
    have hencode : a.encode = p := LogMsg.encode_decode ha hlen hclean
    exact hencode
  | configSet m =>
    have hencode :=
      encode_of_map_decode (fun _ _ => Message.configSet.inj)
        ConfigSet.encode_eq ConfigSet.decode_eq
      ((Message.decode_configSet p).symm.trans h) ((ConfigSet.layout_clean p).mpr hclean)
    exact hencode
  | configAck m =>
    have hencode :=
      encode_of_map_decode (fun _ _ => Message.configAck.inj)
        ConfigAck.encode_eq ConfigAck.decode_eq
      ((Message.decode_configAck p).symm.trans h) ((ConfigAck.layout_clean p).mpr hclean)
    exact hencode
  | fwUpdate m =>
    have hencode :=
      encode_of_map_decode (fun _ _ => Message.fwUpdate.inj) FwUpdate.encode_eq FwUpdate.decode_eq
      ((Message.decode_fwUpdate p).symm.trans h) ((FwUpdate.layout_clean p).mpr hclean)
    exact hencode
  | fwAck m =>
    have hencode :=
      encode_of_map_decode (fun _ _ => Message.fwAck.inj) FwAck.encode_eq FwAck.decode_eq
      ((Message.decode_fwAck p).symm.trans h) ((FwAck.layout_clean p).mpr hclean)
    exact hencode
  | faultInject m =>
    have hencode :=
      encode_of_map_decode (fun _ _ => Message.faultInject.inj)
        FaultInject.encode_eq FaultInject.decode_eq
      ((Message.decode_faultInject p).symm.trans h) (FaultInject.layout_clean p)
    exact hencode
  | faultAck m =>
    have hencode :=
      encode_of_map_decode (fun _ _ => Message.faultAck.inj) FaultAck.encode_eq FaultAck.decode_eq
      ((Message.decode_faultAck p).symm.trans h) (FaultAck.layout_clean p)
    exact hencode
  | cmd m =>
    have hencode := encode_of_map_decode (fun _ _ => Message.cmd.inj) Cmd.encode_eq Cmd.decode_eq
      ((Message.decode_cmd p).symm.trans h) ((Cmd.layout_clean p).mpr hclean)
    exact hencode

/-- A payload fits into a frame. -/
theorem length_of_put {α : Type} {f : ByteField α} {encode : α → List Byte}
    (hencode : ∀ m, encode m = f.put m) (hwidth : f.width ≤ kMaxPayload) (m : α) :
    (encode m).length ≤ kMaxPayload := by
  rw [hencode, f.length_put]
  exact hwidth

/-- No message is longer than a payload may be. -/
theorem Message.encode_length (m : Message) : m.encode.length ≤ kMaxPayload := by
  cases m with
  | telemetry m =>
    have hlen := length_of_put Telemetry.encode_eq (by decide) m
    exact hlen
  | hello m =>
    have hlen := length_of_put Hello.encode_eq (by decide) m
    exact hlen
  | heartbeat m =>
    have hlen := length_of_put Heartbeat.encode_eq (by decide) m
    exact hlen
  | log m =>
    show m.encode.length ≤ kMaxPayload
    -- the text of a LOG is cut to what a payload can hold
    have htake : (m.message.take (kMaxPayload - 4)).length ≤ 1020 := List.length_take_le _ _
    have hmax : kMaxPayload = 4 + 1020 := rfl
    rw [LogMsg.encode_eq, List.length_append, LogMsg.layout.length_put, hmax]
    exact Nat.add_le_add_left htake 4
  | configSet m =>
    have hlen := length_of_put ConfigSet.encode_eq (by decide) m
    exact hlen
  | configAck m =>
    have hlen := length_of_put ConfigAck.encode_eq (by decide) m
    exact hlen
  | fwUpdate m =>
    have hlen := length_of_put FwUpdate.encode_eq (by decide) m
    exact hlen
  | fwAck m =>
    have hlen := length_of_put FwAck.encode_eq (by decide) m
    exact hlen
  | faultInject m =>
    have hlen := length_of_put FaultInject.encode_eq (by decide) m
    exact hlen
  | faultAck m =>
    have hlen := length_of_put FaultAck.encode_eq (by decide) m
    exact hlen
  | cmd m =>
    have hlen := length_of_put Cmd.encode_eq (by decide) m
    exact hlen

/-! ## Frames -/

/-- A header that `encodeFrame` can write and `decodeFrame` accepts. -/
structure FrameHeader.Regular (hdr : FrameHeader) : Prop where
  magic : hdr.magic = kMagic
  version : hdr.version = kProtoVersion
  deviceId : FitsText kDeviceIdLen hdr.deviceId

theorem FrameHeader.layout_fits {hdr : FrameHeader} (h : FitsText kDeviceIdLen hdr.deviceId)
    (n : UInt16) : FrameHeader.layout.Fits (hdr, n) := by
  simpa [FrameHeader.layout, Layout.u8, Layout.u16, Layout.u32, Layout.u64, FitsText] using h

theorem FrameHeader.layout_clean {data : List Byte} :
    FrameHeader.layout.Clean data ↔ CleanText data 4 kDeviceIdLen := by
  simp [FrameHeader.layout, Layout.u8, Layout.u16, Layout.u32, Layout.u64, CleanText]

theorem frameBody_length (hdr : FrameHeader) (payload : List Byte) :
    (frameBody hdr payload).length = kHeaderSize + payload.length := by
  rw [frameBody, List.length_append, FrameHeader.layout.length_put]
  rfl

/-- An encoded frame decodes, whatever follows it. -/
theorem decodeFrame_encodeFrame {hdr : FrameHeader} {payload : List Byte} (h : hdr.Regular)
    (hlen : payload.length ≤ kMaxPayload) (suffix : List Byte) :
    decodeFrame (encodeFrame hdr payload ++ suffix) =
      .ok ({ hdr, payloadLen := UInt16.ofNat payload.length, payload },
        (encodeFrame hdr payload).length) := by
  have hmax : kMaxPayload = 1024 := rfl
  have hn : (UInt16.ofNat payload.length).toNat = payload.length :=
    UInt16.toNat_ofNat_of_lt' (by rw [UInt16.size]; omega)
  have hbody := frameBody_length hdr payload
  -- header, payload, checksum
  have htotal : (encodeFrame hdr payload).length = kHeaderSize + payload.length + kCrcSize := by
    rw [encodeFrame_eq hdr hlen, List.length_append, hbody, Layout.u32.length_put]
    rfl
  refine decodeFrame_eq_ok.mpr ?_
  constructor
  · rw [encodeFrame_eq hdr hlen, frameBody, List.append_assoc, List.append_assoc]
    exact FrameHeader.layout.get_put _ _ (FrameHeader.layout_fits h.deviceId _)
  · exact h.magic
  · exact h.version
  · show (UInt16.ofNat payload.length).toNat ≤ kMaxPayload
    rw [hn]
    exact hlen
  · show _ = kHeaderSize + (UInt16.ofNat payload.length).toNat + kCrcSize
    rw [hn, htotal]
  · rw [List.length_append]
    exact Nat.le_add_right _ _
  -- the payload lies between the header and the checksum
  · show payload = _
    have hhead : (FrameHeader.layout.put (hdr, UInt16.ofNat payload.length)).length = kHeaderSize :=
      FrameHeader.layout.length_put _
    rw [hn, encodeFrame_eq hdr hlen, frameBody, List.append_assoc, List.append_assoc,
      List.drop_left' hhead, List.take_left]
  · show Layout.u32.get (List.drop (kHeaderSize + (UInt16.ofNat payload.length).toNat) _) =
      crc32 (List.take (kHeaderSize + (UInt16.ofNat payload.length).toNat) _) 0
    rw [hn, encodeFrame_eq hdr hlen, List.append_assoc, List.drop_left' hbody,
      List.take_left' hbody]
    exact Layout.u32.get_put _ _ trivial

/-- An accepted frame encodes to the bytes it was read from. -/
theorem encodeFrame_decodeFrame {data : List Byte} {f : Frame} {used : ℕ}
    (h : decodeFrame data = .ok (f, used)) (hclean : CleanText data 4 kDeviceIdLen) :
    encodeFrame f.hdr f.payload = data.take used := by
  obtain ⟨hheader, -, -, hbound, htotal, hlength, hpayload, hcrc⟩ := decodeFrame_eq_ok.mp h
  rw [htotal] at hlength
  have hlen : f.payload.length = f.payloadLen.toNat := by
    rw [hpayload, List.length_take_of_le]
    rw [List.length_drop]
    omega
  have hn : UInt16.ofNat f.payload.length = f.payloadLen := by rw [hlen, UInt16.ofNat_toNat]
  -- header, payload and checksum are written back one after the other
  have hhead : FrameHeader.layout.put (f.hdr, f.payloadLen) = data.take kHeaderSize := by
    have hshort : FrameHeader.layout.width ≤ data.length := by
      show kHeaderSize ≤ data.length
      omega
    rw [← hheader]
    exact FrameHeader.layout.put_get data hshort (FrameHeader.layout_clean.mpr hclean)
  have hbody : frameBody f.hdr f.payload = data.take (kHeaderSize + f.payloadLen.toNat) := by
    rw [frameBody, hn, hhead, List.take_add, ← hpayload]
  have hrest : Layout.u32.width ≤ (data.drop (kHeaderSize + f.payloadLen.toNat)).length := by
    show kCrcSize ≤ _
    rw [List.length_drop]
    omega
  rw [encodeFrame_eq f.hdr (hlen ▸ hbound), hbody, ← hcrc, Layout.u32.put_get _ hrest trivial,
    htotal]
  exact (List.take_add).symm

/-- The codec is a round trip, in both directions. -/
theorem codec_roundTrip :
    (∀ (hdr : FrameHeader) (m : Message) (suffix : List Byte), hdr.Regular → m.Fits →
      ∃ f, decodeFrame (encodeFrame hdr m.encode ++ suffix) =
          .ok (f, (encodeFrame hdr m.encode).length) ∧
        f.hdr = hdr ∧ f.payloadLen.toNat = m.encode.length ∧ f.payload = m.encode ∧
        Message.decode m.msgType f.payload = some m) ∧
    (∀ (data : List Byte) (f : Frame) (used : ℕ) (m : Message),
      decodeFrame data = .ok (f, used) → Message.decode f.hdr.msgType f.payload = some m →
      CleanText data 4 kDeviceIdLen → m.Clean f.payload →
      encodeFrame f.hdr m.encode = data.take used) := by
  constructor
  -- encode, then decode
  · intro hdr m suffix hregular hfits
    have hlen := m.encode_length
    refine ⟨_, decodeFrame_encodeFrame hregular hlen suffix, rfl, ?_, rfl,
      Message.decode_encode hfits⟩
    have hmax : kMaxPayload = 1024 := rfl
    exact UInt16.toNat_ofNat_of_lt' (by rw [UInt16.size]; omega)
  -- decode, then encode
  · intro data f used m hdecode hm htext hclean
    have hdecoded := decodeFrame_eq_ok.mp hdecode
    have hlen : f.payload.length ≤ kMaxPayload := by
      rw [hdecoded.payload]
      exact (List.length_take_le _ _).trans hdecoded.bound
    rw [Message.encode_decode hm hlen hclean]
    exact encodeFrame_decodeFrame hdecode htext

/-- A HELLO with a full field and an empty one, from a device with a full id,
    followed by the beginning of another frame; and the same bytes the other way
    round. -/
theorem codec_roundTrip_hello :
    let hdr : FrameHeader :=
      { msgType := MsgType.HELLO, deviceId := List.replicate 12 0x45, seq := 7, tsMs := 1,
        fwVersion := 0x010000 }
    let m : Message := .hello
      { fwString := List.replicate 16 0x31, hwModel := [], configVersion := 3, telemetryHz := 10 }
    ∃ f, decodeFrame (encodeFrame hdr m.encode ++ [0x54, 0x45]) =
        .ok (f, (encodeFrame hdr m.encode).length) ∧ f.hdr = hdr ∧
      Message.decode m.msgType f.payload = some m ∧
      encodeFrame f.hdr m.encode =
        (encodeFrame hdr m.encode ++ [0x54, 0x45]).take (encodeFrame hdr m.encode).length := by
  intro hdr m
  have htext : FitsText 12 (List.replicate 12 (0x45 : Byte)) := ⟨by decide, by decide⟩
  have hfits : m.Fits := ⟨⟨by decide, by decide⟩, ⟨by decide, by decide⟩⟩
  obtain ⟨f, hf, hhdr, -, hpayload, hm⟩ :=
    codec_roundTrip.1 hdr m [0x54, 0x45] ⟨rfl, rfl, htext⟩ hfits
  refine ⟨f, hf, hhdr, hm, codec_roundTrip.2 _ f _ m hf (hhdr ▸ hm) ?_ ?_⟩
  · have hbytes : ((encodeFrame hdr m.encode ++ [0x54, 0x45]).drop 4).take kDeviceIdLen =
        List.replicate 12 0x45 := rfl
    rw [CleanText, hbytes]
    decide
  · have hfw : (m.encode.drop 0).take 16 = List.replicate 16 0x31 := rfl
    have hhw : (m.encode.drop 16).take 16 = List.replicate 16 0 := rfl
    rw [hpayload]
    refine ⟨?_, ?_, rfl⟩
    · rw [CleanText, hfw]
      decide
    · rw [CleanText, hhw]
      decide

end EcuTelemetry.Firmware
