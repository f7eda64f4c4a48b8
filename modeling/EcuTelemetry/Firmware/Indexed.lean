/-
  EcuTelemetry.Firmware.Indexed

  The decoder of protocol.cpp index by index.  Where `Decoder` cuts pieces out of
  the bytes, here every byte is read at its index, and a read at or beyond the end
  has no result.  No such read happens: both decoders return the same.
-/

import EcuTelemetry.Firmware.Layout

namespace EcuTelemetry.Firmware

namespace Indexed

/-! ## `ByteReader` -/

/-- `p` are the bytes from `p_` to the end of what the decoder was given. -/
structure Reader where
  p : List Byte
  n : ℕ
  pos : ℕ := 0
  ok : Bool := true

/-- `none` is a read at or beyond the end. -/
abbrev ReadM := StateT Reader Option

/-- `p_[pos_ + i]` -/
def index (i : ℕ) : ReadM Byte := fun r => (r.p[r.pos + i]?).map fun b => (b, r)

def need (k : ℕ) : ReadM Bool := fun r =>
  if !r.ok || decide (r.pos + k > r.n) then some (false, { r with ok := false }) else some (true, r)

/-- `pos_ += k` -/
def advance (k : ℕ) : ReadM Unit := fun r => some ((), { r with pos := r.pos + k })

def u8 : ReadM UInt8 := do
  if !(← need 1) then return 0
  else
    let b ← index 0
    advance 1
    return b

def u16 : ReadM UInt16 := do
  if !(← need 2) then return 0
  else
    let v ← (do pure ((← index 0).toUInt16 ||| ((← index 1).toUInt16 <<< 8)))
    advance 2
    return v

def u32 : ReadM UInt32 := do
  if !(← need 4) then return 0
  else
    let v ← [3, 2, 1, 0].foldlM (fun (v : UInt32) i => do
      return (v <<< 8) ||| (← index i).toUInt32) 0
    advance 4
    return v

def u64 : ReadM UInt64 := do
  if !(← need 8) then return 0
  else
    let v ← [7, 6, 5, 4, 3, 2, 1, 0].foldlM (fun (v : UInt64) i => do
      return (v <<< 8) ||| (← index i).toUInt64) 0
    advance 8
    return v

def f32 : ReadM F32 := do return ⟨← u32⟩

def f64 : ReadM F64 := do return ⟨← u64⟩

/-- The loop of `fixedStr`, from index `i` on, for `k` bytes at most. -/
def untilNul : ℕ → ℕ → ReadM (List Byte)
  | 0, _ => return []
  | k + 1, i => do
    let b ← index i
    if b ≠ 0 then return b :: (← untilNul k (i + 1)) else return []

def fixedStr (k : ℕ) : ReadM (List Byte) := do
  if !(← need k) then return []
  else
    let s ← untilNul k 0
    advance k
    return s

/-- The `k` bytes from index `i` on. -/
def copy : ℕ → ℕ → ReadM (List Byte)
  | 0, _ => return []
  | k + 1, i => return (← index i) :: (← copy k (i + 1))

def rest : ReadM (List Byte) := do
  let r ← get
  if !r.ok then return []
  else
    let s ← copy (r.n - r.pos) 0
    modify fun r => { r with pos := r.n }
    return s

def skip (k : ℕ) : ReadM Unit := do
  if ← need k then advance k

/-! ## Payloads -/

/-- Read a payload; `r.ok()` decides. -/
def payload {α : Type} (p : List Byte) (m : ReadM α) : Option (Option α) := do
  let (a, r) ← m { p, n := p.length }
  return if r.ok then some a else none

def Telemetry.decode (p : List Byte) : Option (Option Telemetry) :=
  if p.length ≠ 48 then some none
  else payload p do
    let rpm ← f32
    let tempC ← f32
    let currentA ← f32
    let voltageV ← f32
    let vibrationG ← f32
    let speedKph ← f32
    let lat ← f64
    let lon ← f64
    let faultFlags ← u32
    let state ← u8
    return { rpm, tempC, currentA, voltageV, vibrationG, speedKph, lat, lon, faultFlags, state }

def Hello.decode (p : List Byte) : Option (Option Hello) :=
  if p.length ≠ 40 then some none
  else payload p do
    let fwString ← fixedStr 16
    let hwModel ← fixedStr 16
    let configVersion ← u32
    let telemetryHz ← u16
    return { fwString, hwModel, configVersion, telemetryHz }

def Heartbeat.decode (p : List Byte) : Option (Option Heartbeat) :=
  if p.length ≠ 16 then some none
  else payload p do
    let uptimeS ← u32
    let framesSent ← u32
    let configVersion ← u32
    let reconnects ← u32
    return { uptimeS, framesSent, configVersion, reconnects }

def LogMsg.decode (p : List Byte) : Option (Option LogMsg) :=
  if p.length < 4 then some none
  else payload p do
    let level ← u8
    skip 3
    let message ← rest
    return { level, message }

def ConfigSet.decode (p : List Byte) : Option (Option ConfigSet) :=
  if p.length ≠ 20 then some none
  else payload p do
    let configVersion ← u32
    let telemetryHz ← u16
    let logLevel ← u8
    skip 1
    let rpmLimit ← f32
    let tempLimitC ← f32
    let currentLimitA ← f32
    return { configVersion, telemetryHz, logLevel, rpmLimit, tempLimitC, currentLimitA }

def ConfigAck.decode (p : List Byte) : Option (Option ConfigAck) :=
  if p.length ≠ 8 then some none
  else payload p do
    let configVersion ← u32
    let status ← u8
    return { configVersion, status }

def FwUpdate.decode (p : List Byte) : Option (Option FwUpdate) :=
  if p.length ≠ 24 then some none
  else payload p do
    let targetVersion ← fixedStr 16
    let imageSizeBytes ← u32
    let imageCrc ← u32
    return { targetVersion, imageSizeBytes, imageCrc }

def FwAck.decode (p : List Byte) : Option (Option FwAck) :=
  if p.length ≠ 20 then some none
  else payload p do
    let status ← u8
    skip 3
    let version ← fixedStr 16
    return { status, version }

def FaultInject.decode (p : List Byte) : Option (Option FaultInject) :=
  if p.length ≠ 12 then some none
  else payload p do
    let setFlags ← u32
    let clearFlags ← u32
    let durationMs ← u32
    return { setFlags, clearFlags, durationMs }

def FaultAck.decode (p : List Byte) : Option (Option FaultAck) :=
  if p.length ≠ 4 then some none
  else payload p do
    let activeFlags ← u32
    return { activeFlags }

def Cmd.decode (p : List Byte) : Option (Option Cmd) :=
  if p.length ≠ 4 then some none
  else payload p do
    let cmd ← u8
    return { cmd }

/-- The `decode` that goes with a type. -/
def decodeMessage (msgType : UInt8) (p : List Byte) : Option (Option Message) :=
  if msgType = MsgType.TELEMETRY then (Telemetry.decode p).map (·.map .telemetry)
  else if msgType = MsgType.HELLO then (Hello.decode p).map (·.map .hello)
  else if msgType = MsgType.HEARTBEAT then (Heartbeat.decode p).map (·.map .heartbeat)
  else if msgType = MsgType.LOG then (LogMsg.decode p).map (·.map .log)
  else if msgType = MsgType.CONFIG_SET then (ConfigSet.decode p).map (·.map .configSet)
  else if msgType = MsgType.CONFIG_ACK then (ConfigAck.decode p).map (·.map .configAck)
  else if msgType = MsgType.FW_UPDATE then (FwUpdate.decode p).map (·.map .fwUpdate)
  else if msgType = MsgType.FW_ACK then (FwAck.decode p).map (·.map .fwAck)
  else if msgType = MsgType.FAULT_INJECT then (FaultInject.decode p).map (·.map .faultInject)
  else if msgType = MsgType.FAULT_ACK then (FaultAck.decode p).map (·.map .faultAck)
  else if msgType = MsgType.CMD then (Cmd.decode p).map (·.map .cmd)
  else some none

/-! ## Frames -/

/-- The header fields in the order of `decodeFrame`. -/
def header : ReadM (FrameHeader × UInt16) := do
  let magic ← u16
  let version ← u8
  let msgType ← u8
  let deviceId ← fixedStr kDeviceIdLen
  let seq ← u32
  let tsMs ← u64
  let fwVersion ← u32
  let payloadLen ← u16
  let reserved ← u16
  return ({ magic, version, msgType, deviceId, seq, tsMs, fwVersion, reserved }, payloadLen)

/-- The loop of `crc32` over the first `len` bytes. -/
def crc32 (data : List Byte) (len : ℕ) (seed : UInt32) : Option UInt32 := do
  let c ← (List.range len).foldlM (fun c i => do
    let b ← data[i]?
    return crcTable ((c ^^^ b.toUInt32) &&& 0xFF) ^^^ (c >>> 8)) (seed ^^^ 0xFFFFFFFF)
  return c ^^^ 0xFFFFFFFF

def decodeFrame (data : List Byte) : Option (Except DecodeError (Frame × ℕ)) :=
  if data.length < kHeaderSize then some (.error .TOO_SHORT)
  else do
    let ((hdr, payloadLen), _) ← header { p := data, n := data.length }
    if hdr.magic ≠ kMagic then return .error .BAD_MAGIC
    else if hdr.version ≠ kProtoVersion then return .error .BAD_VERSION
    else if payloadLen.toNat > kMaxPayload then return .error .BAD_LENGTH
    else
      let total := kHeaderSize + payloadLen.toNat + kCrcSize
      if data.length < total then return .error .TOO_SHORT
      else
        -- both read behind the header, and `data.length` covers that by now
        let expect ← crc32 data (kHeaderSize + payloadLen.toNat) 0
        let (crc, _) ← u32 { p := data.drop (kHeaderSize + payloadLen.toNat), n := kCrcSize }
        if crc ≠ expect then return .error .BAD_CRC
        else
          let (payload, _) ← copy payloadLen.toNat kHeaderSize { p := data, n := data.length }
          return .ok ({ hdr, payloadLen, payload }, total)

/-! ## Both readers -/

/-- Over the same bytes `m` reads what `f` does. -/
def Sim {α : Type} (m : ReadM α) (f : ByteReader → α × ByteReader) : Prop :=
  ∀ (p : List Byte) (n : ℕ) (r : ByteReader), n ≤ p.length → r.data = p.take n →
    m { p, n, pos := r.pos, ok := r.ok } =
        some ((f r).1, { p, n, pos := (f r).2.pos, ok := (f r).2.ok }) ∧
      (f r).2.data = p.take n

variable {α β : Type}

theorem Sim.pure (a : α) : Sim (pure a) fun r => (a, r) := fun _ _ _ _ hdata => ⟨rfl, hdata⟩

/-- Two readers in a row. -/
theorem Sim.bind {m : ReadM α} {f : ByteReader → α × ByteReader} {k : α → ReadM β}
    {g : α → ByteReader → β × ByteReader} (hm : Sim m f) (hk : ∀ a, Sim (k a) (g a)) :
    Sim (m >>= k) fun r => match f r with | (a, r') => g a r' := by
  intro p n r hn hdata
  obtain ⟨hrun, hdata'⟩ := hm p n r hn hdata
  obtain ⟨hrun', hdata''⟩ := hk (f r).1 p n (f r).2 hn hdata'
  refine ⟨?_, hdata''⟩
  show (m { p, n, pos := r.pos, ok := r.ok }).bind (fun x => k x.1 x.2) = _
  rw [hrun]
  exact hrun'

/-- Over the same bytes `m` and then `r.ok()` give what `g` does. -/
def Ends {α : Type} (m : ReadM α) (g : ByteReader → Option α) : Prop :=
  ∀ (p : List Byte) (n : ℕ) (r : ByteReader), n ≤ p.length → r.data = p.take n →
    (m { p, n, pos := r.pos, ok := r.ok }).map (fun x => if x.2.ok then some x.1 else none) =
      some (g r)

theorem Ends.pure (a : α) : Ends (pure a) fun r => if r.ok then some a else none :=
  fun _ _ _ _ _ => rfl

/-- A reader, then the end of the function. -/
theorem Sim.ends {m : ReadM α} {f : ByteReader → α × ByteReader} {k : α → ReadM β}
    {g : α → ByteReader → Option β} (hm : Sim m f) (hk : ∀ a, Ends (k a) (g a)) :
    Ends (m >>= k) fun r => match f r with | (a, r') => g a r' := by
  intro p n r hn hdata
  obtain ⟨hrun, hdata'⟩ := hm p n r hn hdata
  show ((m { p, n, pos := r.pos, ok := r.ok }).bind fun x => k x.1 x.2).map _ = _
  rw [hrun]
  exact hk (f r).1 p n (f r).2 hn hdata'

/-- From where the reader stands, `m` reads `k` bytes. -/
def Reads {α : Type} (k : ℕ) (m : ReadM α) (read : List Byte → α) : Prop :=
  ∀ r : Reader, r.pos + k ≤ r.p.length → m r = some (read ((r.p.drop r.pos).take k), r)

/-- `need` compares with the length before any index is formed. -/
theorem need_run (p : List Byte) (k : ℕ) {n : ℕ} {r : ByteReader} (hlen : r.data.length = n) :
    need k { p, n, pos := r.pos, ok := r.ok } = if r.need k then
      some (true, { p, n, pos := r.pos, ok := r.ok })
      else some (false, { p, n, pos := r.pos, ok := false }) := by
  rw [need, ByteReader.need, hlen]
  cases r.ok with
  | false => rfl
  | true =>
    by_cases h : r.pos + k ≤ n
    · simp [h]
    · simp [h, not_le.mp h]

/-- A field of `k` bytes: `need`, the bytes at their indices, and the new position. -/
theorem Sim.field {k : ℕ} {a₀ : α} {m : ReadM α} {read : List Byte → α} (hread : Reads k m read) :
    Sim (do
        if !(← need k) then return a₀
        else
          let a ← m
          advance k
          return a)
      fun r => if r.need k then (read (r.field k), { r with pos := r.pos + k })
        else (a₀, r.fail) := by
  intro p n r hn hdata
  have hlen : r.data.length = n := by rw [hdata, List.length_take_of_le hn]
  show ((need k { p, n, pos := r.pos, ok := r.ok }).bind fun x => _) = _ ∧ _
  rw [need_run p k hlen]
  by_cases hneed : r.need k = true
  · simp only [if_pos hneed]
    rw [ByteReader.need, Bool.and_eq_true, decide_eq_true_eq, hlen] at hneed
    -- the field lies in the bytes of the reader, and of the whole buffer
    have hfield : r.field k = (p.drop r.pos).take k := by
      rw [ByteReader.field, hdata, List.drop_take, List.take_take, min_eq_left (by omega)]
    have hm := hread { p, n, pos := r.pos, ok := r.ok } (by show r.pos + k ≤ p.length; omega)
    refine ⟨?_, hdata⟩
    show (m { p, n, pos := r.pos, ok := r.ok }).bind _ = _
    rw [hm, hfield]
    rfl
  · simp only [if_neg hneed]
    exact ⟨rfl, hdata⟩

/-! ## Fields -/

/-- One byte more, in little-endian order. -/
theorem shl8_or {w : ℕ} (x : ℕ) (b : Byte) :
    (BitVec.ofNat w x <<< 8) ||| b.toBitVec.setWidth w = BitVec.ofNat w (b.toNat + 256 * x) := by
  have hsum : b.toNat + 256 * x = 2 ^ 8 * x + b.toNat := by omega
  refine BitVec.eq_of_getLsbD_eq fun i hi => ?_
  rw [BitVec.getLsbD_or, BitVec.getLsbD_shiftLeft, BitVec.getLsbD_setWidth, BitVec.getLsbD_ofNat,
    BitVec.getLsbD_ofNat, hsum, Nat.testBit_two_pow_mul_add _ b.toNat_lt]
  by_cases h8 : i < 8
  · rw [if_pos h8, decide_eq_true hi, decide_eq_true h8]
    rfl
  · have hb : b.toBitVec.getLsbD i = false := BitVec.getLsbD_of_ge _ _ (by omega)
    have hi' : i - 8 < w := by omega
    simp [hi, h8, hb, hi']

theorem uint16_shl8_or (x : ℕ) (b : Byte) :
    (UInt16.ofNat x <<< 8) ||| b.toUInt16 = UInt16.ofNat (b.toNat + 256 * x) :=
  UInt16.toBitVec_inj.mp (shl8_or x b)

theorem uint32_shl8_or (x : ℕ) (b : Byte) :
    (UInt32.ofNat x <<< 8) ||| b.toUInt32 = UInt32.ofNat (b.toNat + 256 * x) :=
  UInt32.toBitVec_inj.mp (shl8_or x b)

theorem uint64_shl8_or (x : ℕ) (b : Byte) :
    (UInt64.ofNat x <<< 8) ||| b.toUInt64 = UInt64.ofNat (b.toNat + 256 * x) :=
  UInt64.toBitVec_inj.mp (shl8_or x b)

/-- An index inside the bytes that were asked for is in bounds. -/
theorem index_run {r : Reader} {bs : List Byte} {k i : ℕ} {b : Byte}
    (h : (r.p.drop r.pos).take k = bs) (hb : bs[i]? = some b) : index i r = some (b, r) := by
  have hi : i < k := by
    have hlt := (List.getElem?_eq_some_iff.mp hb).1
    rw [← h] at hlt
    exact hlt.trans_le (List.length_take_le _ _)
  rw [← h, List.getElem?_take_of_lt hi, List.getElem?_drop] at hb
  rw [index, hb]
  rfl

theorem bind_run (m : ReadM α) (f : α → ReadM β) (r : Reader) :
    (m >>= f) r = (m r).bind fun x => f x.1 x.2 := rfl

theorem pure_run (a : α) (r : Reader) : (pure a : ReadM α) r = some (a, r) := rfl

theorem window_length {r : Reader} {k : ℕ} (h : r.pos + k ≤ r.p.length) :
    ((r.p.drop r.pos).take k).length = k := by
  rw [List.length_take_of_le]
  rw [List.length_drop]
  omega

theorem reads_u8 : Reads 1 (index 0) fun bs => UInt8.ofNat (leNat bs) := by
  intro r h
  obtain ⟨b, hbs⟩ := List.length_eq_one_iff.mp (window_length h)
  rw [index_run hbs rfl, hbs]
  show some (b, r) = some (UInt8.ofNat (leNat [b]), r)
  rw [leNat_cons, leNat_nil, Nat.mul_zero, Nat.add_zero, UInt8.ofNat_toNat]

/-- `u16`. -/
theorem reads_u16 :
    Reads 2 (do pure ((← index 0).toUInt16 ||| ((← index 1).toUInt16 <<< 8))) fun bs =>
      UInt16.ofNat (leNat bs) := by
  intro r h
  obtain ⟨b₀, b₁, hbs⟩ := List.length_eq_two.mp (window_length h)
  have h₀ := index_run (i := 0) hbs rfl
  have h₁ := index_run (i := 1) hbs rfl
  have hv : b₀.toUInt16 ||| (b₁.toUInt16 <<< 8) = UInt16.ofNat (leNat [b₀, b₁]) := by
    have hb₁ : b₁.toUInt16 = UInt16.ofNat b₁.toNat := (UInt16.ofNat_toNat).symm
    rw [UInt16.or_comm, hb₁, uint16_shl8_or]
    rfl
  simp only [bind_run, pure_run, h₀, h₁, Option.bind_some, hbs, hv]

/-- The loop over the bytes, the last one first. -/
theorem reads_u32 : Reads 4 ([3, 2, 1, 0].foldlM (fun (v : UInt32) i => do
      return (v <<< 8) ||| (← index i).toUInt32) 0) fun bs => UInt32.ofNat (leNat bs) := by
  intro r h
  obtain ⟨b₀, b₁, b₂, b₃, hbs⟩ : ∃ b₀ b₁ b₂ b₃, (r.p.drop r.pos).take 4 = [b₀, b₁, b₂, b₃] := by
    match (r.p.drop r.pos).take 4, window_length h with
    | [b₀, b₁, b₂, b₃], _ => exact ⟨b₀, b₁, b₂, b₃, rfl⟩
  have h₀ := index_run (i := 0) hbs rfl
  have h₁ := index_run (i := 1) hbs rfl
  have h₂ := index_run (i := 2) hbs rfl
  have h₃ := index_run (i := 3) hbs rfl
  have hzero : (0 : UInt32) = UInt32.ofNat 0 := rfl
  simp only [List.foldlM_cons, List.foldlM_nil, bind_run, pure_run, h₀, h₁, h₂, h₃,
    Option.bind_some, hbs, hzero, uint32_shl8_or]
  rfl

/-- `u64`, most significant byte first. -/
theorem reads_u64 : Reads 8 ([7, 6, 5, 4, 3, 2, 1, 0].foldlM (fun (v : UInt64) i => do
      return (v <<< 8) ||| (← index i).toUInt64) 0) fun bs => UInt64.ofNat (leNat bs) := by
  intro r h
  obtain ⟨b₀, b₁, b₂, b₃, b₄, b₅, b₆, b₇, hbs⟩ : ∃ b₀ b₁ b₂ b₃ b₄ b₅ b₆ b₇,
      (r.p.drop r.pos).take 8 = [b₀, b₁, b₂, b₃, b₄, b₅, b₆, b₇] := by
    match (r.p.drop r.pos).take 8, window_length h with
    | [b₀, b₁, b₂, b₃, b₄, b₅, b₆, b₇], _ => exact ⟨b₀, b₁, b₂, b₃, b₄, b₅, b₆, b₇, rfl⟩
  have h₀ := index_run (i := 0) hbs rfl
  have h₁ := index_run (i := 1) hbs rfl
  have h₂ := index_run (i := 2) hbs rfl
  have h₃ := index_run (i := 3) hbs rfl
  have h₄ := index_run (i := 4) hbs rfl
  have h₅ := index_run (i := 5) hbs rfl
  have h₆ := index_run (i := 6) hbs rfl
  have h₇ := index_run (i := 7) hbs rfl
  have hzero : (0 : UInt64) = UInt64.ofNat 0 := rfl
  simp only [List.foldlM_cons, List.foldlM_nil, bind_run, pure_run, h₀, h₁, h₂, h₃, h₄, h₅, h₆, h₇,
    Option.bind_some, hbs, hzero, uint64_shl8_or]
  rfl

/-- A copy inside the bytes. -/
theorem copy_run {r : Reader} (k i : ℕ) (h : r.pos + i + k ≤ r.p.length) :
    copy k i r = some ((r.p.drop (r.pos + i)).take k, r) := by
  induction k generalizing i with
  | zero => rfl
  | succ k ih =>
    have hi : r.pos + i < r.p.length := by omega
    have hindex : index i r = some (r.p[r.pos + i], r) := by
      rw [index, List.getElem?_eq_getElem hi]
      rfl
    rw [copy, bind_run, hindex, Option.bind_some, bind_run, ih (i + 1) (by omega),
      Option.bind_some, pure_run, List.drop_eq_getElem_cons hi]
    rfl

/-- The scan for a NUL stops inside the field. -/
theorem untilNul_run {r : Reader} (k i : ℕ) (h : r.pos + i + k ≤ r.p.length) :
    untilNul k i r = some (cBytes ((r.p.drop (r.pos + i)).take k), r) := by
  induction k generalizing i with
  | zero => rfl
  | succ k ih =>
    -- the index is inside the field, so it is in bounds
    have hi : r.pos + i < r.p.length := by omega
    have hindex : index i r = some (r.p[r.pos + i], r) := by
      rw [index, List.getElem?_eq_getElem hi]
      rfl
    rw [untilNul, bind_run, hindex, Option.bind_some, List.drop_eq_getElem_cons hi]
    dsimp only
    split
    · next hb =>
      have hcons : ∀ bs, cBytes (r.p[r.pos + i] :: bs) = r.p[r.pos + i] :: cBytes bs := fun bs =>
        List.takeWhile_cons_of_pos (decide_eq_true hb)
      rw [bind_run, ih (i + 1) (by omega), Option.bind_some, pure_run, List.take_succ_cons, hcons]
      rfl
    · next hb =>
      have hcons : ∀ bs, cBytes (r.p[r.pos + i] :: bs) = [] := fun bs =>
        List.takeWhile_cons_of_neg (by simpa using hb)
      rw [pure_run, List.take_succ_cons, hcons]

theorem reads_text (k : ℕ) : Reads k (untilNul k 0) cBytes := fun _ h => untilNul_run k 0 h

theorem sim_u8 : Sim u8 ByteReader.u8 := Sim.field reads_u8
theorem sim_u16 : Sim u16 ByteReader.u16 := Sim.field reads_u16
theorem sim_u32 : Sim u32 ByteReader.u32 := Sim.field reads_u32
theorem sim_u64 : Sim u64 ByteReader.u64 := Sim.field reads_u64
theorem sim_f32 : Sim f32 ByteReader.f32 := sim_u32.bind fun v => Sim.pure (F32.mk v)
theorem sim_f64 : Sim f64 ByteReader.f64 := sim_u64.bind fun v => Sim.pure (F64.mk v)
theorem sim_fixedStr (k : ℕ) : Sim (fixedStr k) fun r => r.fixedStr k := Sim.field (reads_text k)

/-- `skip`. -/
theorem sim_skip (k : ℕ) : Sim (skip k) fun r => ((), r.skip k) := by
  intro p n r hn hdata
  have hlen : r.data.length = n := by rw [hdata, List.length_take_of_le hn]
  rw [skip, bind_run, need_run p k hlen]
  by_cases hneed : r.need k = true
  · simp only [ByteReader.skip, if_pos hneed]
    exact ⟨rfl, hdata⟩
  · simp only [ByteReader.skip, if_neg hneed]
    exact ⟨rfl, hdata⟩

/-- `rest`. -/
theorem sim_rest : Sim rest ByteReader.rest := by
  intro p n r hn hdata
  have hlen : r.data.length = n := by rw [hdata, List.length_take_of_le hn]
  -- a reader that has failed returns nothing and stays where it is
  by_cases hok : r.ok = true
  · have hcopy : copy (n - r.pos) 0 { p, n, pos := r.pos, ok := r.ok } =
        some (r.data.drop r.pos, { p, n, pos := r.pos, ok := r.ok }) := by
      rw [hdata, List.drop_take]
      rcases le_or_gt r.pos n with hpos | hpos
      · exact copy_run (r := { p, n, pos := r.pos, ok := r.ok }) (n - r.pos) 0
          (by show r.pos + 0 + (n - r.pos) ≤ p.length; omega)
      · rw [Nat.sub_eq_zero_of_le hpos.le]
        rfl
    have hrest : rest { p, n, pos := r.pos, ok := r.ok } =
        (copy (n - r.pos) 0 { p, n, pos := r.pos, ok := r.ok }).bind fun x =>
          some (x.1, { x.2 with pos := x.2.n }) := by
      rw [rest, bind_run]
      show (if (!r.ok) = true then _ else _ : ReadM (List Byte))
          { p, n, pos := r.pos, ok := r.ok } = _
      rw [hok]
      rfl
    rw [hrest, hcopy, ByteReader.rest, if_pos hok, hlen]
    exact ⟨rfl, hdata⟩
  · have hrest : rest { p, n, pos := r.pos, ok := r.ok } =
        some ([], { p, n, pos := r.pos, ok := r.ok }) := by
      rw [Bool.not_eq_true] at hok
      rw [rest, bind_run]
      show (if (!r.ok) = true then _ else _ : ReadM (List Byte))
          { p, n, pos := r.pos, ok := r.ok } = _
      rw [hok]
      rfl
    rw [hrest, ByteReader.rest, if_neg hok]
    exact ⟨rfl, hdata⟩

/-! ## The two decoders -/

theorem payload_eq {m : ReadM α} {g : ByteReader → Option α} (h : Ends m g) (p : List Byte) :
    payload p m = some (g { data := p }) := by
  have hrun := h p p.length { data := p } le_rfl List.take_length.symm
  rw [← hrun, payload]
  cases m { p, n := p.length } with
  | none => rfl
  | some x => rfl

theorem Telemetry.decode_eq (p : List Byte) :
    Telemetry.decode p = some (Firmware.Telemetry.decode p) := by
  rw [Telemetry.decode, Firmware.Telemetry.decode]
  split
  · rfl
  · exact payload_eq (sim_f32.ends fun _ => sim_f32.ends fun _ => sim_f32.ends fun _ =>
      sim_f32.ends fun _ => sim_f32.ends fun _ => sim_f32.ends fun _ => sim_f64.ends fun _ =>
      sim_f64.ends fun _ => sim_u32.ends fun _ => sim_u8.ends fun _ => Ends.pure _) p

theorem Hello.decode_eq (p : List Byte) : Hello.decode p = some (Firmware.Hello.decode p) := by
  rw [Hello.decode, Firmware.Hello.decode]
  split
  · rfl
  · exact payload_eq ((sim_fixedStr 16).ends fun _ => (sim_fixedStr 16).ends fun _ =>
      sim_u32.ends fun _ => sim_u16.ends fun _ => Ends.pure _) p

theorem Heartbeat.decode_eq (p : List Byte) :
    Heartbeat.decode p = some (Firmware.Heartbeat.decode p) := by
  rw [Heartbeat.decode, Firmware.Heartbeat.decode]
  split
  · rfl
  · exact payload_eq (sim_u32.ends fun _ => sim_u32.ends fun _ => sim_u32.ends fun _ =>
      sim_u32.ends fun _ => Ends.pure _) p

theorem LogMsg.decode_eq (p : List Byte) : LogMsg.decode p = some (Firmware.LogMsg.decode p) := by
  rw [LogMsg.decode, Firmware.LogMsg.decode]
  split
  · rfl
  · exact payload_eq (sim_u8.ends fun _ => (sim_skip 3).ends fun _ => sim_rest.ends fun _ =>
      Ends.pure _) p

theorem ConfigSet.decode_eq (p : List Byte) :
    ConfigSet.decode p = some (Firmware.ConfigSet.decode p) := by
  rw [ConfigSet.decode, Firmware.ConfigSet.decode]
  split
  · rfl
  · exact payload_eq (sim_u32.ends fun _ => sim_u16.ends fun _ => sim_u8.ends fun _ =>
      (sim_skip 1).ends fun _ => sim_f32.ends fun _ => sim_f32.ends fun _ =>
      sim_f32.ends fun _ => Ends.pure _) p

theorem ConfigAck.decode_eq (p : List Byte) :
    ConfigAck.decode p = some (Firmware.ConfigAck.decode p) := by
  rw [ConfigAck.decode, Firmware.ConfigAck.decode]
  split
  · rfl
  · exact payload_eq (sim_u32.ends fun _ => sim_u8.ends fun _ => Ends.pure _) p

theorem FwUpdate.decode_eq (p : List Byte) :
    FwUpdate.decode p = some (Firmware.FwUpdate.decode p) := by
  rw [FwUpdate.decode, Firmware.FwUpdate.decode]
  split
  · rfl
  · exact payload_eq ((sim_fixedStr 16).ends fun _ => sim_u32.ends fun _ => sim_u32.ends fun _ =>
      Ends.pure _) p

theorem FwAck.decode_eq (p : List Byte) : FwAck.decode p = some (Firmware.FwAck.decode p) := by
  rw [FwAck.decode, Firmware.FwAck.decode]
  split
  · rfl
  · exact payload_eq
      (sim_u8.ends fun _ => (sim_skip 3).ends fun _ => (sim_fixedStr 16).ends fun _ =>
        Ends.pure _) p

theorem FaultInject.decode_eq (p : List Byte) :
    FaultInject.decode p = some (Firmware.FaultInject.decode p) := by
  rw [FaultInject.decode, Firmware.FaultInject.decode]
  split
  · rfl
  · exact payload_eq (sim_u32.ends fun _ => sim_u32.ends fun _ => sim_u32.ends fun _ =>
      Ends.pure _) p

theorem FaultAck.decode_eq (p : List Byte) :
    FaultAck.decode p = some (Firmware.FaultAck.decode p) := by
  rw [FaultAck.decode, Firmware.FaultAck.decode]
  split
  · rfl
  · exact payload_eq (sim_u32.ends fun _ => Ends.pure _) p

theorem Cmd.decode_eq (p : List Byte) : Cmd.decode p = some (Firmware.Cmd.decode p) := by
  rw [Cmd.decode, Firmware.Cmd.decode]
  split
  · rfl
  · exact payload_eq (sim_u8.ends fun _ => Ends.pure _) p

/-- No read of `decodeMessage` is out of bounds, and it decodes what the model decodes. -/
theorem decodeMessage_eq (msgType : UInt8) (p : List Byte) :
    decodeMessage msgType p = some (Message.decode msgType p) := by
  rw [Message.decode]
  iterate 11 rw [apply_ite some]
  rw [decodeMessage, Telemetry.decode_eq, Hello.decode_eq, Heartbeat.decode_eq, LogMsg.decode_eq,
    ConfigSet.decode_eq, ConfigAck.decode_eq, FwUpdate.decode_eq, FwAck.decode_eq,
    FaultInject.decode_eq, FaultAck.decode_eq, Cmd.decode_eq]
  rfl

/-- A loop over indices is a fold over the bytes. -/
theorem foldlM_range {β : Type} (f : β → Byte → β) (b : β) {data : List Byte} {n : ℕ}
    (h : n ≤ data.length) :
    (List.range n).foldlM (fun c i => do let x ← data[i]?; return f c x) b =
      some ((data.take n).foldl f b) := by
  induction n with
  | zero => rfl
  | succ n ih =>
    rw [List.range_succ, List.foldlM_append, ih (Nat.le_of_succ_le h), List.take_add_one,
      List.foldl_append, List.getElem?_eq_getElem h]
    show (do let x ← data[n]?; return f _ x : Option β) >>= _ = _
    rw [List.getElem?_eq_getElem h]
    rfl

theorem crc32_eq {data : List Byte} {len : ℕ} (h : len ≤ data.length) (seed : UInt32) :
    crc32 data len seed = some (Firmware.crc32 (data.take len) seed) := by
  rw [crc32, foldlM_range _ _ h]
  rfl

/-- The header is read field by field. -/
theorem header_run {data : List Byte} (h : kHeaderSize ≤ data.length) :
    ∃ r, header { p := data, n := data.length } = some (FrameHeader.layout.get data, r) := by
  have hlen : 36 ≤ data.length := h
  have hsim := sim_u16.bind fun magic => sim_u8.bind fun version => sim_u8.bind fun msgType =>
    (sim_fixedStr kDeviceIdLen).bind fun deviceId => sim_u32.bind fun seq =>
      sim_u64.bind fun tsMs =>
    sim_u32.bind fun fwVersion => sim_u16.bind fun payloadLen => sim_u16.bind fun reserved =>
    Sim.pure (({ magic, version, msgType, deviceId, seq, tsMs, fwVersion, reserved } : FrameHeader),
      payloadLen)
  obtain ⟨hrun, -⟩ := hsim data data.length { data } le_rfl List.take_length.symm
  simp (disch := omega) only [ByteReader.mk_at, ByteReader.u16_at, ByteReader.u8_at,
    ByteReader.u32_at, ByteReader.u64_at, ByteReader.fixedStr_at, Nat.reduceAdd, kDeviceIdLen,
    List.drop_zero] at hrun
  rw [FrameHeader.layout_get]
  exact ⟨_, hrun⟩

/-- Every index of `decodeFrame` is below the length. -/
theorem decodeFrame_eq (data : List Byte) :
    decodeFrame data = some (Firmware.decodeFrame data) := by
  rw [decodeFrame, Firmware.decodeFrame_eq]
  split
  · rfl
  · next hshort =>
    -- the header fits, so reading it by index is reading the layout
    obtain ⟨r, hr⟩ := header_run (not_lt.mp hshort)
    rw [hr]
    rcases FrameHeader.layout.get data with ⟨hdr, payloadLen⟩
    show (if hdr.magic ≠ kMagic then _ else _ : Option _) = some _
    rw [apply_ite some]
    refine ite_congr rfl (fun _ => rfl) fun _ => ?_
    rw [apply_ite some]
    refine ite_congr rfl (fun _ => rfl) fun _ => ?_
    rw [apply_ite some]
    refine ite_congr rfl (fun _ => rfl) fun _ => ?_
    dsimp only
    rw [apply_ite some]
    refine ite_congr rfl (fun _ => rfl) fun htotal => ?_
    -- the checks agree one by one; the payload and the checksum lie within the data
    have hlen : kHeaderSize + payloadLen.toNat + kCrcSize ≤ data.length := not_lt.mp htotal
    have hrest : kCrcSize ≤ (data.drop (kHeaderSize + payloadLen.toNat)).length := by
      rw [List.length_drop]
      omega
    obtain ⟨hcrc, -⟩ := sim_u32 (data.drop (kHeaderSize + payloadLen.toNat)) kCrcSize
      { data := (data.drop (kHeaderSize + payloadLen.toNat)).take kCrcSize } hrest rfl
    have hcopy := copy_run (r := { p := data, n := data.length }) payloadLen.toNat kHeaderSize
      (by show 0 + kHeaderSize + payloadLen.toNat ≤ data.length; omega)
    rw [crc32_eq (by omega), Option.bind_eq_bind, Option.bind_some, hcrc, Option.bind_eq_bind,
      Option.bind_some]
    dsimp only
    rw [crc_read hlen, apply_ite some]
    refine ite_congr rfl (fun _ => rfl) fun _ => ?_
    rw [hcopy, Nat.zero_add]
    rfl

end Indexed

end EcuTelemetry.Firmware
