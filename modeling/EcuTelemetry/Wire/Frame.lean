/-
  EcuTelemetry.Wire.Frame

  The frame as it stands on the wire: 36 header bytes, the payload, the CRC.
  Both encoders write `framed (layout ..)`; they differ only in the twelve
  bytes of the device id.  The Python decoder reads it back.
-/

import EcuTelemetry.Backend.Protocol
import EcuTelemetry.Firmware.Protocol

namespace EcuTelemetry.Wire

open Backend Backend.Protocol

/-- Header and payload. -/
def layout (msgType : Nat) (dev : List Byte) (seq ts fw : Nat) (body : List Byte) : List Byte :=
  leBytes 2 MAGIC ++ leBytes 1 VERSION ++ leBytes 1 msgType ++ dev ++ leBytes 4 seq ++
    leBytes 8 ts ++ leBytes 4 fw ++ leBytes 2 body.length ++ leBytes 2 0 ++ body

/-- Header, payload and CRC. -/
def framed (w : List Byte) : List Byte := w ++ leBytes 4 (zlibCrc32 w)

theorem layout_length {msgType seq ts fw : Nat} {dev body : List Byte} (hd : dev.length = 12) :
    (layout msgType dev seq ts fw body).length = HEADER_LEN + body.length := by
  simp [layout, hd, HEADER_LEN]
  omega

theorem framed_inj {v w : List Byte} (hlen : v.length = w.length) (h : framed v = framed w) :
    v = w := List.append_inj_left h hlen

/-- The id and the payload can be read off the layout. -/
theorem layout_inj {msgType seq ts fw : Nat} {dev dev' body body' : List Byte}
    (hb : body.length = body'.length)
    (h : layout msgType dev seq ts fw body = layout msgType dev' seq ts fw body') :
    dev = dev' ∧ body = body' := by
  simp only [layout, hb] at h
  obtain ⟨h, hbody⟩ := List.append_inj' h hb
  simp only [List.append_cancel_right_eq, List.append_cancel_left_eq] at h
  exact ⟨h, hbody⟩

/-! ## Reading fields -/

theorem readU_leBytes {k v : Nat} (h : v < 256 ^ k) (r : List Byte) :
    readU k (leBytes k v ++ r) = (v, r) := by
  rw [readU, List.take_left' (leBytes_length k v), List.drop_left' (leBytes_length k v),
    leNat_leBytes_of_lt h]

theorem readS_append {n : Nat} {s : List Byte} (h : s.length = n) (r : List Byte) :
    readS n (s ++ r) = (s, r) := by
  rw [readS, List.take_left' h, List.drop_left' h]

theorem zlibCrc32_lt (w : List Byte) : zlibCrc32 w < 256 ^ 4 := (Crc32.crc32 0#32 w).isLt

/-! ## The three codecs -/

/-- The firmware writes the layout. -/
theorem firmware_encodeFrame_eq {msgType : UInt8} {id : List Byte} {seq : UInt32} {ts : UInt64}
    {fw : UInt32} {body : List Byte} (hid : id.length ≤ 12) (hb : body.length ≤ MAX_PAYLOAD) :
    Firmware.encodeFrame { msgType := msgType, deviceId := id, seq := seq, tsMs := ts,
                           fwVersion := fw } body =
      framed (layout msgType.toNat (padTo 12 id) seq.toNat ts.toNat fw.toNat body) := by
  have hmax : MAX_PAYLOAD = 1024 := rfl
  have hn : (if body.length > Firmware.kMaxPayload then Firmware.kMaxPayload else body.length) =
      body.length := if_neg (by rw [Firmware.kMaxPayload]; omega)
  have hlen : (UInt16.ofNat body.length).toNat = body.length := by
    rw [UInt16.toNat_ofNat', Nat.mod_eq_of_lt (by omega)]
  have hcrc : ∀ w : List Byte, (Firmware.crc32 w 0).toNat = zlibCrc32 w := fun w =>
    congrArg BitVec.toNat (Firmware.crc32_toBitVec w 0)
  simp only [Firmware.encodeFrame, hn, List.take_length, Firmware.ByteWriter.u16_eq,
    Firmware.ByteWriter.u8_eq, Firmware.ByteWriter.u32_eq, Firmware.ByteWriter.u64_eq,
    Firmware.ByteWriter.fixedStr_eq hid, hcrc, hlen, Firmware.kDeviceIdLen]
  rfl

/-- So does the backend, with its own twelve bytes for the id. -/
theorem backend_encode_eq {msgType seq ts fw : Nat} {id : String} {payload : Body}
    {body : List Byte} (hp : payload.pack = .ok body) (hb : body.length ≤ MAX_PAYLOAD)
    (hm : msgType < 256) (hseq : seq < 2 ^ 32) (hts : ts < 2 ^ 64) (hfw : fw < 2 ^ 32) :
    encode msgType id seq ts fw payload =
      .ok (framed (layout msgType (pad id 12) seq ts fw body)) := by
  have hmax : MAX_PAYLOAD = 1024 := rfl
  have hpl : body.length < 256 ^ 2 := by omega
  simp only [encode, hp, bind, Except.bind, if_neg (not_lt.mpr hb), pure, Except.pure, Header.pack,
    packU, if_pos (show VERSION < 256 ^ 1 by decide), if_pos (show msgType < 256 ^ 1 by omega),
    if_pos hpl, Nat.mod_eq_of_lt hseq, Nat.mod_eq_of_lt hts, Nat.mod_eq_of_lt hfw]
  rfl

/-- `struct.unpack_from` on the layout. -/
theorem headerFields_layout {msgType seq ts fw : Nat} {dev body : List Byte} (rest : List Byte)
    (hd : dev.length = 12) (hb : body.length ≤ MAX_PAYLOAD) (hm : msgType < 256)
    (hseq : seq < 2 ^ 32) (hts : ts < 2 ^ 64) (hfw : fw < 2 ^ 32) :
    HeaderFields.read (layout msgType dev seq ts fw body ++ rest) =
      { magic := MAGIC, ver := VERSION, mt := msgType, dev := dev, seq := seq, ts := ts, fw := fw,
        plen := body.length } := by
  have hmax : MAX_PAYLOAD = 1024 := rfl
  simp only [HeaderFields.read, layout, List.append_assoc,
    readU_leBytes (show MAGIC < 256 ^ 2 by decide),
    readU_leBytes (show VERSION < 256 ^ 1 by decide),
    readU_leBytes (show msgType < 256 ^ 1 by omega), readS_append hd,
    readU_leBytes (show seq < 256 ^ 4 by omega), readU_leBytes (show ts < 256 ^ 8 by omega),
    readU_leBytes (show fw < 256 ^ 4 by omega),
    readU_leBytes (show body.length < 256 ^ 2 by omega)]

/-- The decoder accepts the layout and hands the payload to its class. -/
theorem decode_framed {msgType seq ts fw : Nat} {dev body : List Byte}
    (hd : dev.length = 12) (hb : body.length ≤ MAX_PAYLOAD) (hm : msgType < 256)
    (hseq : seq < 2 ^ 32) (hts : ts < 2 ^ 64) (hfw : fw < 2 ^ 32) :
    decode (framed (layout msgType dev seq ts fw body)) =
      (Body.unpack msgType body).map fun payload =>
        { header := { msgType := msgType, deviceId := cstr dev, seq := seq, tsMs := ts,
                      fwVersion := fw, payloadLen := body.length }
          payload := payload
          raw := framed (layout msgType dev seq ts fw body) } := by
  generalize hw : layout msgType dev seq ts fw body = w
  have hlen : w.length = HEADER_LEN + body.length := by rw [← hw]; exact layout_length hd
  have hframed : (framed w).length = HEADER_LEN + body.length + 4 := by simp [framed, hlen]
  -- the header reads back as it was written and passes its checks
  have hhdr : Header.unpack (framed w) = .ok
      { msgType := msgType, deviceId := cstr dev, seq := seq, tsMs := ts, fwVersion := fw,
        payloadLen := body.length } := by
    have hread := headerFields_layout (leBytes 4 (zlibCrc32 w)) hd hb hm hseq hts hfw
    rw [hw, ← framed] at hread
    simp only [Header.unpack, hread]
    rw [if_neg (by omega), if_neg (not_not.mpr rfl), if_neg (not_not.mpr rfl), if_neg (by omega)]
  -- nothing follows the frame, so all slices are its own parts
  have htake : (framed w).take (HEADER_LEN + body.length + 4) = framed w :=
    List.take_of_length_le hframed.le
  have hbody : (framed w).take (HEADER_LEN + body.length + 4 - 4) = w := by
    rw [Nat.add_sub_cancel, framed, List.take_left' hlen]
  have hcrc : leNat ((framed w).drop (HEADER_LEN + body.length + 4 - 4)) = zlibCrc32 w := by
    rw [Nat.add_sub_cancel, framed, List.drop_left' hlen, leNat_leBytes_of_lt (zlibCrc32_lt w)]
  have hpayload : w.drop HEADER_LEN = body := by
    rw [← hw, layout]
    exact List.drop_left' (by simp [hd, HEADER_LEN])
  simp only [decode, hhdr, htake, hbody, hcrc, hpayload]
  rw [if_neg (by omega), if_neg (not_not.mpr rfl)]

end EcuTelemetry.Wire
