/-
  EcuTelemetry.Firmware.FrameCheck

  What the checksum of a frame protects.  The register of the CRC over a whole
  frame, trailer included, is one fixed word; damage to at most four bytes in a
  row leaves another word there, so `decodeFrame` refuses the frame as long as
  its length field still says where the trailer is.
-/

import EcuTelemetry.Firmware.Layout

namespace EcuTelemetry.Firmware

open Crc32 (remainder residue word)

/-! ## The trailer -/

theorem word_put (v : UInt32) : word (Layout.u32.put v) = v.toBitVec := by
  show BitVec.ofNat 32 (leNat (leBytes 4 v.toNat)) = v.toBitVec
  rw [leNat_leBytes_of_lt v.toNat_lt]
  exact BitVec.ofNat_toNat 32 v.toBitVec

theorem word_get (bs : List Byte) : (Layout.u32.get bs).toBitVec = word (bs.take 4) := by
  show (UInt32.ofNat (leNat (bs.take 4))).toBitVec = BitVec.ofNat 32 (leNat (bs.take 4))
  rfl

theorem crc32_remainder (data : List Byte) :
    (crc32 data 0).toBitVec = remainder 0xFFFFFFFF#32 data ^^^ 0xFFFFFFFF#32 := by
  rw [crc32_toBitVec, Crc32.crc32_eq_remainder]
  rfl

/-- A byte string with its checksum behind it. -/
theorem remainder_put_crc (data : List Byte) :
    remainder 0xFFFFFFFF#32 (data ++ Layout.u32.put (crc32 data 0)) = residue := by
  have hlen : (Layout.u32.put (crc32 data 0)).length = 4 := Layout.u32.length_put _
  rw [Crc32.remainder_trailer_iff hlen, word_put, crc32_remainder]

/-! ## Frames -/

/-- `encodeFrame` sends the first 1024 bytes of the payload. -/
theorem encodeFrame_take (hdr : FrameHeader) (payload : List Byte) :
    encodeFrame hdr payload = encodeFrame hdr (payload.take kMaxPayload) := by
  have hmin : (if payload.length > kMaxPayload then kMaxPayload else payload.length) =
      (payload.take kMaxPayload).length := by
    rw [List.length_take]
    split <;> omega
  have hle : ¬ (payload.take kMaxPayload).length > kMaxPayload := by
    rw [List.length_take]
    omega
  have htake : payload.take (payload.take kMaxPayload).length = payload.take kMaxPayload := by
    rw [List.length_take, ← List.take_take, List.take_length]
  simp only [encodeFrame, hmin, if_neg hle, List.take_length, htake]

theorem encodeFrame_residue (hdr : FrameHeader) (payload : List Byte) :
    remainder 0xFFFFFFFF#32 (encodeFrame hdr payload) = residue := by
  rw [encodeFrame_take, encodeFrame_eq hdr (List.length_take_le _ _), remainder_put_crc]

/-- The header up to the length field. -/
theorem frameBody_eq (hdr : FrameHeader) (payload : List Byte) : ∃ start : List Byte,
    start.length = 32 ∧ frameBody hdr payload = start ++ (Layout.u16.put
      (UInt16.ofNat payload.length) ++ (Layout.u16.put hdr.reserved ++ payload)) := by
  refine ⟨Layout.u16.put hdr.magic ++ (Layout.u8.put hdr.version ++ (Layout.u8.put hdr.msgType ++
    ((ByteField.text kDeviceIdLen).put hdr.deviceId ++ (Layout.u32.put hdr.seq ++
    (Layout.u64.put hdr.tsMs ++ Layout.u32.put hdr.fwVersion))))), ?_, ?_⟩
  · simp only [List.length_append, ByteField.length_put]
    rfl
  · simp only [frameBody, FrameHeader.layout, ByteField.iso, ByteField.pair, List.append_assoc]
    rfl

theorem encodeFrame_length (hdr : FrameHeader) {payload : List Byte}
    (h : payload.length ≤ kMaxPayload) :
    (encodeFrame hdr payload).length = kHeaderSize + payload.length + kCrcSize := by
  have hheader : (FrameHeader.layout.put (hdr, UInt16.ofNat payload.length)).length = kHeaderSize :=
    FrameHeader.layout.length_put _
  have htrailer : ∀ v, (Layout.u32.put v).length = kCrcSize := Layout.u32.length_put
  rw [encodeFrame_eq hdr h, List.length_append, htrailer, frameBody, List.length_append, hheader]

/-- The length field of a frame. -/
theorem encodeFrame_payloadLen (hdr : FrameHeader) {payload : List Byte}
    (h : payload.length ≤ kMaxPayload) :
    (Layout.u16.get ((encodeFrame hdr payload).drop 32)).toNat = payload.length := by
  obtain ⟨start, hstart, hbody⟩ := frameBody_eq hdr payload
  have hfits : kMaxPayload < UInt16.size := by decide
  rw [encodeFrame_eq hdr h, hbody, List.append_assoc, List.drop_left' hstart, List.append_assoc,
    Layout.u16.get_put _ _ trivial]
  exact UInt16.toNat_ofNat_of_lt' (h.trans_lt hfits)

/-- A frame that `decodeFrame` takes has the residue of a frame. -/
theorem decodeFrame_residue {data : List Byte} {f : Frame} {used : ℕ}
    (h : decodeFrame data = .ok (f, used)) :
    remainder 0xFFFFFFFF#32 (data.take used) = residue := by
  have hd := decodeFrame_eq_ok.mp h
  obtain ⟨n, hn⟩ : ∃ n, n = kHeaderSize + f.payloadLen.toNat := ⟨_, rfl⟩
  have hused : used = n + 4 := by rw [hd.total, hn]; rfl
  have hlen := hd.length
  have htrailer : ((data.drop n).take 4).length = 4 := by
    rw [List.length_take_of_le]
    rw [List.length_drop]
    omega
  have hcrc := congrArg UInt32.toBitVec hd.crc
  rw [← hn, word_get, crc32_remainder] at hcrc
  rw [hused, List.take_add, Crc32.remainder_trailer_iff htrailer, hcrc]

/-! ## Damage -/

/-- `damaged` is `data` but for the four bytes from `k` on. -/
structure Confined (k : ℕ) (data damaged : List Byte) : Prop where
  length : damaged.length = data.length
  same : ∀ i, i < k ∨ k + 4 ≤ i → damaged[i]? = data[i]?

/-- The bytes before, within and after the four. -/
theorem Confined.split {k : ℕ} {data damaged : List Byte} (h : Confined k data damaged) :
    damaged = data.take k ++ (damaged.drop k).take 4 ++ data.drop (k + 4) := by
  have hstart : damaged.take k = data.take k := by
    apply List.ext_getElem?
    intro i
    by_cases hi : i < k
    · rw [List.getElem?_take_of_lt hi, List.getElem?_take_of_lt hi, h.same i (.inl hi)]
    · rw [List.getElem?_take_eq_none (not_lt.mp hi), List.getElem?_take_eq_none (not_lt.mp hi)]
  have hrest : damaged.drop (k + 4) = data.drop (k + 4) := by
    apply List.ext_getElem?
    intro i
    rw [List.getElem?_drop, List.getElem?_drop, h.same _ (.inr (by omega))]
  rw [← hstart, ← hrest, ← List.take_add, List.take_append_drop]

theorem Confined.refl (k : ℕ) (data : List Byte) : Confined k data data := ⟨rfl, fun _ _ => rfl⟩

/-- The register tells damaged bytes from the right ones. -/
theorem Confined.remainder_ne {k : ℕ} {data damaged : List Byte} (h : Confined k data damaged)
    (hne : damaged ≠ data) (c : BitVec 32) : remainder c damaged ≠ remainder c data := by
  have hdamaged := h.split
  have hdata := (Confined.refl k data).split
  have hlen : ((damaged.drop k).take 4).length = ((data.drop k).take 4).length := by
    rw [List.length_take, List.length_take, List.length_drop, List.length_drop, h.length]
  have hdiff : (damaged.drop k).take 4 ≠ (data.drop k).take 4 := by
    intro heq
    exact hne (hdamaged.trans (by rw [heq, ← hdata]))
  have hburst := Crc32.remainder_burst (c := c) (x := data.take k) (z := data.drop (k + 4)) hlen
    (List.length_take_le _ _) hdiff
  rwa [← hdamaged, ← hdata] at hburst

/-- A length field outside the four bytes is as it was. -/
theorem Confined.payloadLen {k : ℕ} {data damaged : List Byte} (h : Confined k data damaged)
    (hk : k + 4 ≤ 32 ∨ 34 ≤ k) :
    Layout.u16.get (damaged.drop 32) = Layout.u16.get (data.drop 32) := by
  have htwo : (damaged.drop 32).take 2 = (data.drop 32).take 2 := by
    apply List.ext_getElem?
    intro i
    by_cases hi : i < 2
    · rw [List.getElem?_take_of_lt hi, List.getElem?_take_of_lt hi, List.getElem?_drop,
        List.getElem?_drop, h.same _ (by omega)]
    · rw [List.getElem?_take_eq_none (not_lt.mp hi), List.getElem?_take_eq_none (not_lt.mp hi)]
  show UInt16.ofNat (leNat ((damaged.drop 32).take 2)) = UInt16.ofNat
      (leNat ((data.drop 32).take 2))
  rw [htwo]

/-- Damage to four bytes in a row is found, wherever the length field is not hit. -/
theorem decodeFrame_confined {hdr : FrameHeader} {payload damaged : List Byte} {k : ℕ}
    (h : Confined k (encodeFrame hdr payload) damaged) (hne : damaged ≠ encodeFrame hdr payload)
    (hk : k + 4 ≤ 32 ∨ 34 ≤ k) (f : Frame) (used : ℕ) : decodeFrame damaged ≠ .ok (f, used) := by
  intro hok
  rw [encodeFrame_take] at h hne
  generalize htake : payload.take kMaxPayload = p at h hne
  have hp : p.length ≤ kMaxPayload := htake ▸ List.length_take_le _ _
  have hd := decodeFrame_eq_ok.mp hok
  have hlen : f.payloadLen = Layout.u16.get (damaged.drop 32) := by
    have hheader := congrArg Prod.snd hd.header
    rw [FrameHeader.layout_get] at hheader
    exact hheader.symm
  -- the trailer is read where it was written, so all bytes are checked
  have hused : used = damaged.length := by
    rw [hd.total, hlen, h.payloadLen hk, encodeFrame_payloadLen hdr hp, h.length,
      encodeFrame_length hdr hp]
  have hresidue := decodeFrame_residue hok
  rw [hused, List.take_length] at hresidue
  exact h.remainder_ne hne _ (hresidue.trans (encodeFrame_residue hdr p).symm)

/-- The table-driven CRC is the bitwise one, it goes on over parts, and it finds damage
    to any four bytes in a row that leaves the length field alone. -/
theorem crc32_protects :
    (∀ data seed, (crc32 data seed).toBitVec = Crc32.crc32 seed.toBitVec data) ∧
      (∀ as bs seed, crc32 bs (crc32 as seed) = crc32 (as ++ bs) seed) ∧
      ∀ hdr payload damaged k, Confined k (encodeFrame hdr payload) damaged →
        damaged ≠ encodeFrame hdr payload → (k + 4 ≤ 32 ∨ 34 ≤ k) →
        ∀ f used, decodeFrame damaged ≠ .ok (f, used) := by
  refine ⟨crc32_toBitVec, fun as bs seed => ?_, fun hdr payload damaged k h hne hk f used =>
    decodeFrame_confined h hne hk f used⟩
  apply UInt32.toBitVec_inj.mp
  rw [crc32_toBitVec, crc32_toBitVec, crc32_toBitVec, Crc32.crc32_append]

end EcuTelemetry.Firmware
