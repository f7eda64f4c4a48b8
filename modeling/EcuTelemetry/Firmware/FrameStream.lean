/-
  EcuTelemetry.Firmware.FrameStream

  What `decodeFrame` makes of a stream.  Bytes that follow change nothing about a
  frame or a framing error; of a valid frame that is not all there it says
  TOO_SHORT.  So the frames of a stream can be read piece by piece.
-/

import EcuTelemetry.Firmware.Layout

namespace EcuTelemetry.Firmware

/-! ## More bytes -/

/-- The header is read from the first bytes only. -/
theorem FrameHeader.layout_get_append {data : List Byte} (h : kHeaderSize ≤ data.length)
    (t : List Byte) :
    FrameHeader.layout.get (data ++ t) = FrameHeader.layout.get data := by
  have h36 : kHeaderSize = 36 := rfl
  have hread : ∀ n k, n + k ≤ 36 → ((data ++ t).drop n).take k = (data.drop n).take k := by
    intro n k hnk
    rw [List.drop_append_of_le_length (by omega),
      List.take_append_of_le_length (by rw [List.length_drop]; omega)]
  have h0 : (data ++ t).take 2 = data.take 2 := List.take_append_of_le_length (by omega)
  rw [FrameHeader.layout_get, FrameHeader.layout_get]
  simp only [Layout.u8, Layout.u16, Layout.u32, Layout.u64, ByteField.number, ByteField.text, h0]
  rw [hread 2 1 (by omega), hread 3 1 (by omega), hread 4 12 (by omega), hread 16 4 (by omega),
    hread 20 8 (by omega), hread 28 4 (by omega), hread 34 2 (by omega), hread 32 2 (by omega)]

/-- So are the checksum and what it covers. -/
theorem crc_append {data : List Byte} {n : ℕ} (h : n + kCrcSize ≤ data.length) (t : List Byte) :
    Layout.u32.get ((data ++ t).drop n) = Layout.u32.get (data.drop n) ∧
      crc32 ((data ++ t).take n) 0 = crc32 (data.take n) 0 := by
  have h4 : kCrcSize = 4 := rfl
  rw [List.drop_append_of_le_length (by omega), List.take_append_of_le_length (by omega)]
  refine ⟨?_, rfl⟩
  show UInt32.ofNat (leNat ((data.drop n ++ t).take 4)) = UInt32.ofNat
      (leNat ((data.drop n).take 4))
  rw [List.take_append_of_le_length (by rw [List.length_drop]; omega)]

/-- A frame stays, whatever follows it. -/
theorem decodeFrame_append_ok {data : List Byte} {f : Frame} {used : ℕ}
    (h : decodeFrame data = .ok (f, used)) (t : List Byte) :
    decodeFrame (data ++ t) = .ok (f, used) := by
  obtain ⟨hheader, hmagic, hversion, hbound, htotal, hlength, hpayload, hcrc⟩ :=
    decodeFrame_eq_ok.mp h
  have h36 : kHeaderSize ≤ data.length := by omega
  obtain ⟨hread, hsum⟩ := crc_append (htotal ▸ hlength) t
  refine decodeFrame_eq_ok.mpr ⟨?_, hmagic, hversion, hbound, htotal, ?_, ?_, ?_⟩
  · rw [FrameHeader.layout_get_append h36, hheader]
  · rw [List.length_append]
    omega
  · rw [hpayload, List.drop_append_of_le_length h36, List.take_append_of_le_length]
    rw [List.length_drop]
    omega
  · rw [hread, hsum, hcrc]

/-- And so does a framing error. -/
theorem decodeFrame_append_error {data : List Byte} {e : DecodeError}
    (h : decodeFrame data = .error e) (hne : e ≠ .TOO_SHORT) (t : List Byte) :
    decodeFrame (data ++ t) = .error e := by
  rw [decodeFrame_eq] at h ⊢
  split at h
  · cases h
    exact absurd rfl hne
  · next hlen =>
    -- the header is there already, so its checks have the same answer
    rw [if_neg (by rw [List.length_append]; omega), FrameHeader.layout_get_append (not_lt.mp hlen)]
    generalize FrameHeader.layout.get data = header at h ⊢
    obtain ⟨hdr, payloadLen⟩ := header
    dsimp only at h ⊢
    split at h
    · next hmagic => rw [if_pos hmagic, h]
    · next hmagic =>
      rw [if_neg hmagic]
      split at h
      · next hversion => rw [if_pos hversion, h]
      · next hversion =>
        rw [if_neg hversion]
        split at h
        · next hbound => rw [if_pos hbound, h]
        · next hbound =>
          rw [if_neg hbound]
          split at h
          · cases h
            exact absurd rfl hne
          · next htotal =>
            -- and so is the frame: the checksum is over the same bytes
            obtain ⟨hread, hsum⟩ := crc_append (not_lt.mp htotal) t
            rw [if_neg (by rw [List.length_append]; omega), hread, hsum]
            split at h
            · next hcrc => rw [if_pos hcrc, h]
            · cases h

/-- Of a valid frame that is not all there, TOO_SHORT. -/
theorem decodeFrame_part {data x : List Byte} {f : Frame}
    (h : decodeFrame data = .ok (f, data.length))
    (hx : x <+: data) (hne : x ≠ data) : decodeFrame x = .error .TOO_SHORT := by
  obtain ⟨t, rfl⟩ := hx
  cases hd : decodeFrame x with
  | ok r =>
    obtain ⟨g, used⟩ := r
    rw [decodeFrame_append_ok hd] at h
    have hused : used = (x ++ t).length := congrArg Prod.snd (Except.ok.inj h)
    have hle := (decodeFrame_eq_ok.mp hd).length
    rw [hused, List.length_append] at hle
    have ht : t = [] := List.eq_nil_of_length_eq_zero (by omega)
    exact absurd (by rw [ht, List.append_nil]) hne
  | error e =>
    by_cases he : e = .TOO_SHORT
    · rw [he]
    · rw [decodeFrame_append_error hd he] at h
      cases h

/-! ## The frames of a stream -/

/-- What comes after the frames: a part of a frame, or a framing error. -/
inductive Ending
  | tail (rest : List Byte)
  | error (e : DecodeError)
deriving DecidableEq

structure Parsed where
  frames : List Frame
  ending : Ending
deriving DecidableEq

def Parsed.after (f : Frame) (p : Parsed) : Parsed := { p with frames := f :: p.frames }

/-- The frames at the start of a stream; each takes some bytes. -/
def parseFrames : ℕ → List Byte → Parsed
  | 0, data => ⟨[], .tail data⟩
  | rounds + 1, data =>
    match decodeFrame data with
    | .error .TOO_SHORT => ⟨[], .tail data⟩
    | .error e => ⟨[], .error e⟩
    | .ok (f, used) => (parseFrames rounds (data.drop used)).after f

def parse (data : List Byte) : Parsed := parseFrames data.length data

theorem decodeFrame_nil : decodeFrame [] = .error .TOO_SHORT := rfl

theorem parseFrames_nil (n : ℕ) : parseFrames n [] = ⟨[], .tail []⟩ := by
  cases n with
  | zero => rfl
  | succ n => rw [parseFrames, decodeFrame_nil]

/-- Any fuel that covers the bytes gives the same frames. -/
theorem parseFrames_congr {n m : ℕ} {data : List Byte} (hn : data.length ≤ n)
    (hm : data.length ≤ m) :
    parseFrames n data = parseFrames m data := by
  induction n generalizing m data with
  | zero =>
    rw [List.eq_nil_of_length_eq_zero (Nat.le_zero.mp hn), parseFrames_nil, parseFrames_nil]
  | succ n ih =>
    cases m with
    | zero =>
      rw [List.eq_nil_of_length_eq_zero (Nat.le_zero.mp hm), parseFrames_nil, parseFrames_nil]
    | succ m =>
      rw [parseFrames, parseFrames]
      cases hd : decodeFrame data with
      | error e => cases e <;> rfl
      | ok r =>
        obtain ⟨f, used⟩ := r
        have hpos := decodeFrame_pos hd
        -- both fuels cover what the frame leaves
        have hshorter : (data.drop used).length ≤ data.length - 1 := by
          rw [List.length_drop]
          omega
        dsimp only
        rw [ih (m := m) (by omega) (by omega)]

/-- One frame unrolled. -/
theorem parse_eq (data : List Byte) : parse data =
    match decodeFrame data with
    | .error .TOO_SHORT => ⟨[], .tail data⟩
    | .error e => ⟨[], .error e⟩
    | .ok (f, used) => (parse (data.drop used)).after f := by
  have hmore : parse data = parseFrames (data.length + 1) data :=
    parseFrames_congr le_rfl (Nat.le_succ _)
  rw [hmore, parseFrames]
  cases hd : decodeFrame data with
  | error e => cases e <;> rfl
  | ok r =>
    obtain ⟨f, used⟩ := r
    dsimp only
    rw [parse, parseFrames_congr (by rw [List.length_drop]; omega) le_rfl]

theorem parse_ok {data : List Byte} {f : Frame} {used : ℕ} (h : decodeFrame data = .ok (f, used)) :
    parse data = (parse (data.drop used)).after f := by rw [parse_eq, h]

theorem parse_short {data : List Byte} (h : decodeFrame data = .error .TOO_SHORT) :
    parse data = ⟨[], .tail data⟩ := by rw [parse_eq, h]

theorem parse_error {data : List Byte} {e : DecodeError} (h : decodeFrame data = .error e)
    (hne : e ≠ .TOO_SHORT) : parse data = ⟨[], .error e⟩ := by
  rw [parse_eq, h]
  cases e with
  | TOO_SHORT => exact absurd rfl hne
  | _ => rfl

/-- Induction along the frames of a stream. -/
theorem parse_induction {motive : List Byte → Prop}
    (short : ∀ data, decodeFrame data = .error .TOO_SHORT → motive data)
    (error : ∀ data e, decodeFrame data = .error e → e ≠ .TOO_SHORT → motive data)
    (frame : ∀ data f used, decodeFrame data = .ok (f, used) → motive (data.drop used) →
      motive data)
    (data : List Byte) : motive data := by
  induction hn : data.length using Nat.strong_induction_on generalizing data with
  | _ n ih =>
    subst hn
    cases hd : decodeFrame data with
    | error e =>
      by_cases he : e = .TOO_SHORT
      · exact short data (he ▸ hd)
      · exact error data e hd he
    | ok r =>
      obtain ⟨f, used⟩ := r
      -- a frame takes at least a header, so what is left is shorter
      refine frame data f used hd (ih _ ?_ _ rfl)
      have hpos := decodeFrame_pos hd
      have hle := (decodeFrame_eq_ok.mp hd).length
      have h36 : 0 < data.length := by omega
      rw [List.length_drop]
      omega

/-- The tail is a part of a frame. -/
theorem parse_tail {data rest : List Byte} (h : (parse data).ending = .tail rest) :
    parse rest = ⟨[], .tail rest⟩ ∧ rest <:+ data := by
  induction data using parse_induction with
  | short data hd =>
    rw [parse_short hd] at h
    cases h
    exact ⟨parse_short hd, List.suffix_rfl⟩
  | error data e hd hne =>
    rw [parse_error hd hne] at h
    cases h
  | frame data f used hd ih =>
    rw [parse_ok hd] at h
    obtain ⟨hrest, hsuffix⟩ := ih h
    exact ⟨hrest, hsuffix.trans (List.drop_suffix _ _)⟩

/-- More bytes behind the tail go on from there. -/
theorem parse_append_tail {data rest : List Byte} (h : (parse data).ending = .tail rest)
    (t : List Byte) :
    parse (data ++ t) =
      ⟨(parse data).frames ++ (parse (rest ++ t)).frames, (parse (rest ++ t)).ending⟩ := by
  induction data using parse_induction with
  | short data hd =>
    rw [parse_short hd] at h ⊢
    cases h
    rfl
  | error data e hd hne =>
    rw [parse_error hd hne] at h
    cases h
  | frame data f used hd ih =>
    rw [parse_ok hd] at h ⊢
    rw [parse_ok (decodeFrame_append_ok hd t),
      List.drop_append_of_le_length (decodeFrame_eq_ok.mp hd).length, ih h]
    rfl

/-- Behind a framing error they change nothing. -/
theorem parse_append_error {data : List Byte} {e : DecodeError} (h : (parse data).ending = .error e)
    (t : List Byte) : parse (data ++ t) = parse data := by
  induction data using parse_induction with
  | short data hd =>
    rw [parse_short hd] at h
    cases h
  | error data e' hd hne =>
    rw [parse_error hd hne, parse_error (decodeFrame_append_error hd hne t) hne]
  | frame data f used hd ih =>
    rw [parse_ok hd] at h
    rw [parse_ok hd, parse_ok (decodeFrame_append_ok hd t),
      List.drop_append_of_le_length (decodeFrame_eq_ok.mp hd).length, ih h]

end EcuTelemetry.Firmware
