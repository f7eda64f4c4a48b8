/-
  EcuTelemetry.Backend.Receiver

  The UDP side of `Ingest` with all it writes: `total_frames`,
  `global_bad_frames`, the latest samples and the telemetry buffer stand beside
  the state of `Ingest`.  The two `except P.ProtocolError` clauses of
  `on_datagram` are the source's own; any other exception would get past them.

  `fate` says what becomes of a datagram, from its bytes alone.  `received` shows
  that each datagram is booked under its fate and nowhere else, and that only the
  accepted telemetry goes further.
-/

import EcuTelemetry.Backend.DeviceRecord
import EcuTelemetry.Lib.Run

namespace EcuTelemetry.Backend

open Proc Protocol

/-! ## State -/

/-- A row of `_tel_buf`; `values` are the columns read from the sample. -/
structure BufferedRow (F : Type) where
  deviceId : String
  ts : F
  seq : Nat
  values : List (Option (Json F))

/-- `Ingest` with what the UDP side alone writes. -/
structure Receiver (F : Type) where
  ingest : Ingest F
  totalFrames : Nat := 0
  globalBadFrames : Nat := 0
  latest : Dict String (Dict String (Json F)) := []
  telBuf : List (BufferedRow F) := []

abbrev ReceiverM (F : Type) := Proc PyError (Receiver F)

/-- The columns of `telemetry` that come from the sample. -/
def telemetryColumns : List String :=
  ["rpm", "temp_c", "current_a", "voltage_v", "vibration_g", "speed_kph", "lat", "lon",
   "fault_flags", "state"]

namespace Receiver

variable {F : Type}

/-- A statement of `Ingest`. -/
def ingestDo {α : Type} (m : IngestM F α) : ReceiverM F α :=
  Proc.zoom Receiver.ingest (fun i r => { r with ingest := i }) m

/-- `self.latest[dev] = d`, and a later change of the same `d`. -/
def setLatest (dev : String) (d : Dict String (Json F)) : ReceiverM F Unit :=
  Proc.modify fun r => { r with latest := Dict.set r.latest dev d }

/-- `buffer_telemetry`. -/
def bufferTelemetry (dev : String) (ts : F) (seq : Nat) (t : Dict String (Json F)) :
    ReceiverM F Unit :=
  Proc.modify fun r =>
    { r with telBuf := r.telBuf ++ [⟨dev, ts, seq, telemetryColumns.map (Dict.get? t)⟩] }

variable [PyFloat F] [PyText F]

/-- `handle_telemetry`, without the bus. -/
def handleTelemetry (hdr : Header) (t : Telemetry) (clock : Clock F) : ReceiverM F Unit := do
  let dev := hdr.deviceId
  ingestDo (Ingest.modifySt dev fun r =>
    DeviceStats.noteSeq { r with framesRx := r.framesRx + 1 } hdr.seq)
  let transit ← Proc.ofExcept (Ingest.transitMs clock.now hdr.tsMs)
  ingestDo (Ingest.modifySt dev fun r => { r with transitMs := some transit })
  let r ← ingestDo (Ingest.st dev)
  let loss : F := PyFloat.ofRat r.lossPct
  let d := Ingest.sample dev hdr t clock.now loss
  setLatest dev d
  bufferTelemetry dev clock.now hdr.seq d
  ingestDo (Ingest.modifyDb fun db => db.upsertDevice dev clock.now fun d =>
    { d with fwVersion := some (fwDecode hdr.fwVersion), fwVersionU32 := some hdr.fwVersion })
  ingestDo (Ingest.seen dev clock)
  let fired ← ingestDo (Proc.zoom Ingest.engine (fun engine s => { s with engine := engine })
    (Engine.handle (.telemetry dev d clock.now clock.later (some loss))))
  -- `d["fired"]`, in the dictionary that `latest` holds
  setLatest dev (Dict.set d "fired" (.arr fired))

/-- The frame is not TELEMETRY: `on_datagram` returns. -/
def takeFrame (frame : Frame) (clock : Clock F) : ReceiverM F Unit :=
  if frame.msgType ≠ MsgType.TELEMETRY then pure ()
  else
    match frame.payload with
    | .known (.telemetry t) => handleTelemetry frame.header t clock
    | _ => pure ()

/-- `on_datagram`. -/
def onDatagram (data : List Byte) (clock : Clock F) : ReceiverM F Unit := do
  Proc.modify fun r => { r with totalFrames := r.totalFrames + 1 }
  match Header.unpack data with
  | .error (.protocol _ _) => Proc.modify fun r =>
    { r with globalBadFrames := r.globalBadFrames + 1 }
  | .error e => Proc.raise e
  | .ok hdr =>
    -- a header that can be read makes a record, whatever follows it
    let _ ← ingestDo (Ingest.st hdr.deviceId)
    match decode data with
    | .error (.protocol _ _) =>
      ingestDo (Ingest.modifySt hdr.deviceId fun r => { r with badCrc := r.badCrc + 1 })
    | .error e => Proc.raise e
    | .ok frame => takeFrame frame clock

/-- The state after a datagram; what was done before an exception stays done. -/
def step (r : Receiver F) (datagram : List Byte × Clock F) : Receiver F :=
  (onDatagram datagram.1 datagram.2 r).2

/-- The state after some datagrams. -/
def run (r : Receiver F) (datagrams : List (List Byte × Clock F)) : Receiver F :=
  exec step r datagrams

/-! ## `Ingest` within it -/

section Mirrors

variable {α β : Type}

/-- `M` does to the state of `Ingest` what `m` does. -/
def Mirrors (M : ReceiverM F α) (m : IngestM F α) : Prop :=
  ∀ r, (M r).1 = (m r.ingest).1 ∧ (M r).2.ingest = (m r.ingest).2

omit [PyFloat F] [PyText F] in
theorem Mirrors.ingestDo (m : IngestM F α) : Mirrors (ingestDo m) m := fun _ => ⟨rfl, rfl⟩

omit [PyFloat F] [PyText F] in
theorem Mirrors.ofExcept (x : Except PyError α) :
    Mirrors (F := F) (Proc.ofExcept x) (Proc.ofExcept x) :=
  fun _ => ⟨rfl, rfl⟩

omit [PyFloat F] [PyText F] in
/-- Statements one after the other. -/
theorem Mirrors.bind {M : ReceiverM F α} {m : IngestM F α} {N : α → ReceiverM F β}
    {n : α → IngestM F β}
    (hm : Mirrors M m) (hn : ∀ a, Mirrors (N a) (n a)) : Mirrors (M >>= N) (m >>= n) := by
  intro r
  obtain ⟨hres, hstate⟩ := hm r
  rw [bind_run, bind_run]
  rcases hM : M r with ⟨e | a, r'⟩
  · rcases hi : m r.ingest with ⟨e' | a', s'⟩ <;> rw [hM, hi] at hres hstate <;> cases hres
    exact ⟨rfl, hstate⟩
  · rcases hi : m r.ingest with ⟨e' | a', s'⟩ <;> rw [hM, hi] at hres hstate <;> cases hres
    have hstate : r'.ingest = s' := hstate
    exact hstate ▸ hn a r'

omit [PyFloat F] [PyText F] in
/-- A write beside `Ingest`. -/
theorem Mirrors.beside {f : Receiver F → Receiver F} {M : ReceiverM F α} {m : IngestM F α}
    (hf : ∀ r, (f r).ingest = r.ingest) (h : Mirrors M m) :
    Mirrors (Proc.modify f >>= fun _ => M) m := by
  intro r
  rw [modify_bind_run, ← hf r]
  exact h (f r)

end Mirrors

/-- `handle_telemetry` with the counters and without. -/
theorem handleTelemetry_mirrors (hdr : Header) (t : Telemetry) (clock : Clock F) :
    Mirrors (handleTelemetry hdr t clock) (Ingest.handleTelemetry hdr t clock) := by
  rw [Ingest.handleTelemetry, Ingest.receiveTelemetry]
  simp only [bind_assoc, pure_bind]
  refine (Mirrors.ingestDo _).bind fun _ => (Mirrors.ofExcept _).bind fun transit =>
    (Mirrors.ingestDo _).bind fun _ => (Mirrors.ingestDo _).bind fun r => ?_
  refine Mirrors.beside (fun _ => rfl) (Mirrors.beside (fun _ => rfl) ?_)
  refine (Mirrors.ingestDo _).bind fun _ => (Mirrors.ingestDo _).bind fun _ =>
    (Mirrors.ingestDo _).bind fun fired => ?_
  exact fun r => ⟨rfl, rfl⟩

end Receiver

/-! ## What becomes of a datagram -/

/-- What becomes of a datagram. -/
inductive Fate
  /-- the header does not parse -/
  | unparseable
  /-- the frame or its payload does not -/
  | rejected (dev : String)
  | accepted (dev : String)
  /-- a valid frame of another type -/
  | other (dev : String)
deriving DecidableEq

/-- The fate of the bytes. -/
def fate (data : List Byte) : Fate :=
  match Header.unpack data with
  | .error _ => .unparseable
  | .ok hdr =>
    match decode data with
    | .error _ => .rejected hdr.deviceId
    | .ok frame =>
      if frame.msgType = MsgType.TELEMETRY then .accepted hdr.deviceId else .other hdr.deviceId

/-- Each class unpacks payloads of its type. -/
theorem payloadClasses_type :
    ∀ c ∈ PAYLOAD_CLASSES, ∀ b p, c.2 b = .ok p → p.type = c.1 := by
  have hmap : ∀ {α : Type} (x : Except PyError α) (f : α → Payload) (p : Payload),
      x.map f = .ok p → ∃ a, f a = p := by
    intro α x f p h
    cases x with
    | error e => cases h
    | ok a => exact ⟨a, Except.ok.inj h⟩
  simp only [PAYLOAD_CLASSES, List.forall_mem_cons, List.not_mem_nil, false_implies, implies_true,
    and_true]
  refine ⟨?_, ?_, ?_, ?_, ?_, ?_, ?_, ?_, ?_, ?_, ?_⟩
  all_goals
    intro b p h
    obtain ⟨a, rfl⟩ := hmap _ _ p h
    rfl

/-- The payload of a valid frame is of the type in its header. -/
theorem type_of_decode {data : List Byte} {frame : Frame} (h : decode data = .ok frame) :
    (∃ p, frame.payload = .known p ∧ p.type = frame.msgType) ∨
      (∃ raw, frame.payload = .raw raw ∧ PAYLOAD_CLASSES.lookup frame.msgType = none) := by
  -- a frame is made where the checks of `decode` have passed
  obtain ⟨raw, hbody⟩ : ∃ raw, Body.unpack frame.msgType raw = .ok frame.payload := by
    rw [decode] at h
    split at h
    · cases h
    · dsimp only at h
      split at h
      · cases h
      · split at h
        · cases h
        · next hdr _ _ _ =>
          obtain ⟨raw, hraw⟩ : ∃ raw, raw = ((data.take (HEADER_LEN + hdr.payloadLen + 4)).take
              (HEADER_LEN + hdr.payloadLen + 4 - 4)).drop HEADER_LEN := ⟨_, rfl⟩
          rw [← hraw] at h
          cases hbody : Body.unpack hdr.msgType raw with
          | error e =>
            rw [hbody] at h
            cases h
          | ok payload =>
            rw [hbody] at h
            cases h
            exact ⟨raw, hbody⟩
  rw [Body.unpack] at hbody
  -- an unknown type stays raw, a known one has its own class
  cases hclass : PAYLOAD_CLASSES.lookup frame.msgType with
  | none =>
    rw [hclass] at hbody
    exact .inr ⟨raw, (Except.ok.inj hbody).symm, rfl⟩
  | some unpack =>
    rw [hclass] at hbody
    obtain ⟨before, after, hlist, -⟩ := List.lookup_eq_some_iff.mp hclass
    have hmem : (frame.msgType, unpack) ∈ PAYLOAD_CLASSES := by
      rw [hlist]
      exact List.mem_append_right _ List.mem_cons_self
    dsimp only at hbody
    cases hp : unpack raw with
    | error e =>
      rw [hp] at hbody
      cases hbody
    | ok p =>
      rw [hp] at hbody
      exact .inl ⟨p, (Except.ok.inj hbody).symm, payloadClasses_type _ hmem raw p hp⟩

/-- A valid frame of type TELEMETRY has a telemetry payload: the second check of
    `on_datagram` holds back nothing. -/
theorem telemetry_of_decode {data : List Byte} {frame : Frame} (h : decode data = .ok frame)
    (htype : frame.msgType = MsgType.TELEMETRY) : ∃ t, frame.payload = .known (.telemetry t) := by
  rcases type_of_decode h with ⟨p, hpayload, hp⟩ | ⟨raw, -, hnone⟩
  · rw [htype] at hp
    cases p with
    | telemetry t => exact ⟨t, hpayload⟩
    | _ => exact absurd hp (by simp only [Payload.type]; decide)
  · rw [htype] at hnone
    cases hnone

/-- The four ways through `on_datagram`. -/
inductive FateCase (data : List Byte) : Fate → Prop
  | unparseable (kind : ProtocolErrorKind) (msg : String)
      (hunpack : Header.unpack data = .error (.protocol kind msg)) : FateCase data .unparseable
  | rejected (hdr : Header) (kind : ProtocolErrorKind) (msg : String)
      (hunpack : Header.unpack data = .ok hdr)
      (hdecode : decode data = .error (.protocol kind msg)) :
      FateCase data (.rejected hdr.deviceId)
  | accepted (frame : Frame) (t : Telemetry) (hunpack : Header.unpack data = .ok frame.header)
      (hdecode : decode data = .ok frame) (htype : frame.msgType = MsgType.TELEMETRY)
      (hpayload : frame.payload = .known (.telemetry t)) :
      FateCase data (.accepted frame.header.deviceId)
  | other (frame : Frame) (hunpack : Header.unpack data = .ok frame.header)
      (hdecode : decode data = .ok frame) (htype : frame.msgType ≠ MsgType.TELEMETRY)
      (hpayload : ∀ t, frame.payload ≠ .known (.telemetry t)) :
      FateCase data (.other frame.header.deviceId)

/-- No exception but `ProtocolError` comes up. -/
theorem fateCase (data : List Byte) : FateCase data (fate data) := by
  rw [fate]
  cases hunpack : Header.unpack data with
  | error e =>
    obtain ⟨kind, msg, rfl⟩ := Header.unpack_error hunpack
    exact .unparseable kind msg hunpack
  | ok hdr =>
    dsimp only
    cases hdecode : decode data with
    | error e =>
      obtain ⟨kind, msg, rfl⟩ := decode_onlyProtocol data e hdecode
      exact .rejected hdr kind msg hunpack hdecode
    | ok frame =>
      obtain ⟨hheader, -, -⟩ := decode_eq_ok hdecode
      obtain rfl : hdr = frame.header := Except.ok.inj (hunpack.symm.trans hheader)
      dsimp only
      by_cases htype : frame.msgType = MsgType.TELEMETRY
      · obtain ⟨t, hpayload⟩ := telemetry_of_decode hdecode htype
        rw [if_pos htype]
        exact .accepted frame t hunpack hdecode htype hpayload
      · rw [if_neg htype]
        refine .other frame hunpack hdecode htype fun t ht => ?_
        -- a payload of another type is no TELEMETRY record
        rcases type_of_decode hdecode with ⟨p, hpayload, hp⟩ | ⟨raw, hpayload, -⟩
        · cases ht.symm.trans hpayload
          exact htype hp.symm
        · cases ht.symm.trans hpayload

/-! ## What `Ingest` does with it -/

namespace Ingest

variable {F : Type} [PyFloat F] [PyText F]

/-- The counters that a datagram can raise. -/
def counters (r : DeviceStats F) : Nat × Nat := (r.badCrc, r.framesRx)

omit [PyFloat F] [PyText F] in
theorem counters_noteSeq (r : DeviceStats F) (seq : Nat) :
    counters (r.noteSeq seq) = counters r := by
  rw [DeviceStats.noteSeq]
  split
  · dsimp only
    split <;> rfl
  · rfl

/-- `handle_telemetry` counts one frame of its device, even where it raises later. -/
theorem handleTelemetry_counters (hdr : Header) (t : Telemetry) (clock : Clock F) (s : Ingest F)
    (dev : String) : counters ((handleTelemetry hdr t clock s).2.record dev) =
      ((s.record dev).badCrc, (s.record dev).framesRx + if dev = hdr.deviceId then 1 else 0) := by
  obtain ⟨stats, hrun, hrecord⟩ := modifySt_run hdr.deviceId
    (fun r => DeviceStats.noteSeq { r with framesRx := r.framesRx + 1 } hdr.seq) s
  -- the rest leaves the counters alone
  have hrest : Keeps (SameStat counters) (do
      let transit ← Proc.ofExcept (transitMs clock.now hdr.tsMs)
      modifySt hdr.deviceId fun r => { r with transitMs := some transit }
      let r ← st hdr.deviceId
      modifyDb fun db => db.upsertDevice hdr.deviceId clock.now fun d =>
        { d with fwVersion := some (fwDecode hdr.fwVersion), fwVersionU32 := some hdr.fwVersion }
      seen hdr.deviceId clock
      engineDo (.telemetry hdr.deviceId
        (sample hdr.deviceId hdr t clock.now (PyFloat.ofRat r.lossPct)) clock.now clock.later
        (some (PyFloat.ofRat r.lossPct)))) := by
    refine (Keeps.ofExcept _).bind fun transit => Keeps.bind ?_ fun _ =>
      (keeps_sameStat_st _).bind fun r => (keeps_sameStat_modifyDb _).bind fun _ =>
      Keeps.bind ?_ fun _ => keeps_sameStat_engineDo _
    · exact keeps_sameStat_modifySt _ fun r => rfl
    · exact keeps_sameStat_seen (fun r t => rfl) (fun r b => rfl) _ clock
  rw [handleTelemetry, receiveTelemetry]
  simp only [bind_assoc, pure_bind]
  rw [bind_run_ok hrun, hrest _ dev]
  refine (congrArg counters (hrecord dev)).trans ?_
  by_cases hdev : dev = hdr.deviceId
  · rw [if_pos hdev, if_pos hdev, counters_noteSeq, hdev]
    rfl
  · rw [if_neg hdev, if_neg hdev]
    rfl

/-- What one datagram adds to the counters of a device. -/
theorem onDatagram_counters (data : List Byte) (clock : Clock F) (s : Ingest F) (dev : String) :
    counters ((onDatagram data clock s).2.record dev) =
      ((s.record dev).badCrc + (if fate data = .rejected dev then 1 else 0),
       (s.record dev).framesRx + if fate data = .accepted dev then 1 else 0) := by
  -- one case per way through `on_datagram`
  have hcase := fateCase data
  generalize fate data = f at hcase
  rw [onDatagram]
  cases hcase with
  | unparseable kind msg hunpack =>
    rw [hunpack]
    rfl
  | rejected hdr kind msg hunpack hdecode =>
    obtain ⟨stats, hst, hrecord⟩ := st_run hdr.deviceId s
    obtain ⟨stats', hrun, hbad⟩ := modifySt_run hdr.deviceId
      (fun r => { r with badCrc := r.badCrc + 1 }) { s with stats := stats }
    -- `st` makes a missing record, whose counters are zero
    have hsame : ∀ d, Ingest.record { s with stats := stats } d = s.record d := hrecord
    rw [hunpack, hdecode]
    dsimp only
    rw [bind_run_ok hst, hrun]
    refine (congrArg counters (hbad dev)).trans ?_
    by_cases hdev : dev = hdr.deviceId
    · subst hdev
      rw [if_pos rfl, hsame, if_pos rfl, if_neg (by simp)]
      rfl
    · rw [if_neg hdev, hsame, if_neg fun h => hdev (Fate.rejected.inj h).symm,
        if_neg (by simp)]
      rfl
  | accepted frame t hunpack hdecode htype hpayload =>
    obtain ⟨stats, hst, hrecord⟩ := st_run frame.header.deviceId s
    have hsame : Ingest.record { s with stats := stats } dev = s.record dev := hrecord dev
    rw [hunpack, hdecode]
    dsimp only
    rw [bind_run_ok hst, hpayload]
    dsimp only
    -- what follows the counters is known from `handleTelemetry_counters`
    rw [handleTelemetry_counters, hsame]
    by_cases hdev : dev = frame.header.deviceId
    · rw [if_pos hdev, if_neg (by simp), if_pos (congrArg Fate.accepted hdev.symm)]
      rfl
    · rw [if_neg hdev, if_neg (by simp), if_neg fun h => hdev (Fate.accepted.inj h).symm]
      rfl
  | other frame hunpack hdecode htype hpayload =>
    obtain ⟨stats, hst, hrecord⟩ := st_run frame.header.deviceId s
    rw [hunpack, hdecode]
    dsimp only
    rw [bind_run_ok hst, if_neg (by simp), if_neg (by simp)]
    refine Eq.trans ?_ (congrArg counters (hrecord dev))
    cases hbody : frame.payload with
    | raw raw => rfl
    | known p =>
      cases p with
      | telemetry t => exact absurd hbody (hpayload t)
      | _ => rfl

/-- All but `bad_crc` is as it was: the engine with the database and its alerts, the
    writers, the connections and what waits, and in the record of every device the
    loss window, `last_seq`, `last_seen` and `online`. -/
structure OnlyBadCrc (s s' : Ingest F) : Prop where
  rest : s' = { s with stats := s'.stats }
  record : ∀ dev, s'.record dev = { s.record dev with badCrc := (s'.record dev).badCrc }

/-- A datagram that is no telemetry changes `bad_crc` at most. -/
theorem onDatagram_onlyBadCrc {data : List Byte} (hfate : ∀ dev, fate data ≠ .accepted dev)
    (clock : Clock F) (s : Ingest F) :
    (onDatagram data clock s).1 = .ok () ∧ OnlyBadCrc s (onDatagram data clock s).2 := by
  have hcase := fateCase data
  generalize fate data = f at hcase hfate
  rw [onDatagram]
  cases hcase with
  | unparseable kind msg hunpack =>
    rw [hunpack]
    exact ⟨rfl, rfl, fun dev => rfl⟩
  | rejected hdr kind msg hunpack hdecode =>
    obtain ⟨stats, hst, hrecord⟩ := st_run hdr.deviceId s
    obtain ⟨stats', hrun, hbad⟩ := modifySt_run hdr.deviceId
      (fun r => { r with badCrc := r.badCrc + 1 }) { s with stats := stats }
    -- `st` adds a record with no counts, nothing else
    have hsame : ∀ d, Ingest.record { s with stats := stats } d = s.record d := hrecord
    rw [hunpack, hdecode]
    dsimp only
    rw [bind_run_ok hst, hrun]
    refine ⟨rfl, rfl, fun dev => ?_⟩
    show (Dict.get? stats' dev).getD {} =
      { s.record dev with badCrc := ((Dict.get? stats' dev).getD {}).badCrc }
    rw [hbad dev]
    -- only the `bad_crc` of the sender goes up
    split
    · next hdev => rw [hsame, hdev]
    · rw [hsame]
  | accepted frame t hunpack hdecode htype hpayload => exact absurd rfl (hfate _)
  | other frame hunpack hdecode htype hpayload =>
    obtain ⟨stats, hst, hrecord⟩ := st_run frame.header.deviceId s
    have hsame : ∀ d, Ingest.record { s with stats := stats } d = s.record d := hrecord
    have hnone : OnlyBadCrc s { s with stats := stats } := ⟨rfl, fun dev => by rw [hsame]⟩
    rw [hunpack, hdecode]
    dsimp only
    rw [bind_run_ok hst]
    cases hbody : frame.payload with
    | raw raw => exact ⟨rfl, hnone⟩
    | known p =>
      cases p with
      | telemetry t => exact absurd hbody (hpayload t)
      | _ => exact ⟨rfl, hnone⟩

end Ingest

/-! ## Booking -/

namespace Receiver

variable {F : Type}

/-- The latest samples and the buffer are the same. -/
def SameSamples (r r' : Receiver F) : Prop := r'.latest = r.latest ∧ r'.telBuf = r.telBuf

instance : IsPreorder (Receiver F) (SameSamples (F := F)) where
  refl _ := ⟨rfl, rfl⟩
  trans _ _ _ h h' := ⟨h'.1.trans h.1, h'.2.trans h.2⟩

/-- The receiver's own counters are the same. -/
def SameTotals (r r' : Receiver F) : Prop :=
  r'.totalFrames = r.totalFrames ∧ r'.globalBadFrames = r.globalBadFrames

instance : IsPreorder (Receiver F) (SameTotals (F := F)) where
  refl _ := ⟨rfl, rfl⟩
  trans _ _ _ h h' := ⟨h'.1.trans h.1, h'.2.trans h.2⟩

theorem keeps_sameSamples {α : Type} (m : IngestM F α) : Keeps SameSamples (ingestDo m) :=
  fun _ => ⟨rfl, rfl⟩

theorem keeps_sameTotals_ingestDo {α : Type} (m : IngestM F α) : Keeps SameTotals (ingestDo m) :=
  fun _ => ⟨rfl, rfl⟩

/-- One datagram is booked under its fate, and nowhere else. -/
structure Booked (f : Fate) (r r' : Receiver F) : Prop where
  total : r'.totalFrames = r.totalFrames + 1
  globalBad : r'.globalBadFrames = r.globalBadFrames + if f = .unparseable then 1 else 0
  badCrc : ∀ dev, (r'.ingest.record dev).badCrc =
    (r.ingest.record dev).badCrc + if f = .rejected dev then 1 else 0
  framesRx : ∀ dev, (r'.ingest.record dev).framesRx =
    (r.ingest.record dev).framesRx + if f = .accepted dev then 1 else 0

variable [PyFloat F] [PyText F]

/-- It does not touch the totals. -/
theorem keeps_sameTotals_handleTelemetry (hdr : Header) (t : Telemetry) (clock : Clock F) :
    Keeps SameTotals (handleTelemetry hdr t clock) := by
  have hlatest : ∀ dev d, Keeps SameTotals (setLatest (F := F) dev d) := fun _ _ _ => ⟨rfl, rfl⟩
  have hbuffer : ∀ dev ts seq d, Keeps SameTotals (bufferTelemetry (F := F) dev ts seq d) :=
    fun _ _ _ _ _ => ⟨rfl, rfl⟩
  refine (keeps_sameTotals_ingestDo _).bind fun _ => (Keeps.ofExcept _).bind fun transit =>
    (keeps_sameTotals_ingestDo _).bind fun _ => (keeps_sameTotals_ingestDo _).bind fun r => ?_
  exact (hlatest _ _).bind fun _ => (hbuffer _ _ _ _).bind fun _ =>
    (keeps_sameTotals_ingestDo _).bind fun _ => (keeps_sameTotals_ingestDo _).bind fun _ =>
    (keeps_sameTotals_ingestDo _).bind fun fired => hlatest _ _

/-- The receiver does to `Ingest` what `Ingest.onDatagram` does. -/
theorem onDatagram_mirrors (data : List Byte) (clock : Clock F) :
    Mirrors (onDatagram data clock) (Ingest.onDatagram data clock) := by
  rw [onDatagram, Ingest.onDatagram]
  refine Mirrors.beside (fun _ => rfl) ?_
  -- the same branch is taken on both sides, since the bytes decide it
  have hcase := fateCase data
  generalize fate data = f at hcase
  cases hcase with
  | unparseable kind msg hunpack =>
    rw [hunpack]
    exact fun _ => ⟨rfl, rfl⟩
  | rejected hdr kind msg hunpack hdecode =>
    rw [hunpack, hdecode]
    exact (Mirrors.ingestDo _).bind fun _ => Mirrors.ingestDo _
  | accepted frame t hunpack hdecode htype hpayload =>
    rw [hunpack, hdecode]
    refine (Mirrors.ingestDo _).bind fun _ => ?_
    dsimp only
    rw [takeFrame, if_neg (not_not.mpr htype), hpayload]
    exact handleTelemetry_mirrors frame.header t clock
  | other frame hunpack hdecode htype hpayload =>
    rw [hunpack, hdecode]
    refine (Mirrors.ingestDo _).bind fun _ => ?_
    dsimp only
    rw [takeFrame, if_pos htype]
    cases hbody : frame.payload with
    | raw raw => exact fun _ => ⟨rfl, rfl⟩
    | known p =>
      cases p with
      | telemetry t => exact absurd hbody (hpayload t)
      | _ => exact fun _ => ⟨rfl, rfl⟩

/-- The receiver's own counters after one datagram. -/
theorem onDatagram_totals (data : List Byte) (clock : Clock F) (r : Receiver F) :
    (onDatagram data clock r).2.totalFrames = r.totalFrames + 1 ∧
    (onDatagram data clock r).2.globalBadFrames =
      r.globalBadFrames + (if fate data = .unparseable then 1 else 0) := by
  have hcase := fateCase data
  generalize fate data = f at hcase
  rw [onDatagram, modify_bind_run]
  -- what follows the header
  have hkeep : ∀ m : ReceiverM F Unit, Keeps SameTotals m → f ≠ .unparseable →
      (m { r with totalFrames := r.totalFrames + 1 }).2.totalFrames = r.totalFrames + 1 ∧
      (m { r with totalFrames := r.totalFrames + 1 }).2.globalBadFrames =
        r.globalBadFrames + (if f = .unparseable then 1 else 0) := by
    intro m hm hf
    rw [if_neg hf]
    exact hm _
  cases hcase with
  | unparseable kind msg hunpack =>
    rw [hunpack, if_pos rfl]
    exact ⟨rfl, rfl⟩
  | rejected hdr kind msg hunpack hdecode =>
    rw [hunpack, hdecode]
    exact hkeep _ ((keeps_sameTotals_ingestDo _).bind fun _ => keeps_sameTotals_ingestDo _) nofun
  | accepted frame t hunpack hdecode htype hpayload =>
    rw [hunpack, hdecode]
    refine hkeep _ ((keeps_sameTotals_ingestDo _).bind fun _ => ?_) nofun
    dsimp only
    rw [takeFrame, if_neg (not_not.mpr htype), hpayload]
    exact keeps_sameTotals_handleTelemetry frame.header t clock
  | other frame hunpack hdecode htype hpayload =>
    rw [hunpack, hdecode]
    refine hkeep _ ((keeps_sameTotals_ingestDo _).bind fun _ => ?_) nofun
    dsimp only
    rw [takeFrame, if_pos htype]
    exact Keeps.pure ()

/-- A datagram that is no telemetry leaves the latest samples and the buffer alone. -/
theorem onDatagram_samples {data : List Byte} (hfate : ∀ dev, fate data ≠ .accepted dev)
    (clock : Clock F) (r : Receiver F) :
    SameSamples r (onDatagram data clock r).2 := by
  have hcase := fateCase data
  generalize fate data = f at hcase hfate
  rw [onDatagram, modify_bind_run]
  -- the counters hold no sample
  have hkeep : ∀ m : ReceiverM F Unit, Keeps SameSamples m →
      SameSamples r (m { r with totalFrames := r.totalFrames + 1 }).2 := fun m hm => hm _
  cases hcase with
  | unparseable kind msg hunpack =>
    rw [hunpack]
    exact ⟨rfl, rfl⟩
  | rejected hdr kind msg hunpack hdecode =>
    rw [hunpack, hdecode]
    exact hkeep _ ((keeps_sameSamples _).bind fun _ => keeps_sameSamples _)
  | accepted frame t hunpack hdecode htype hpayload => exact absurd rfl (hfate _)
  | other frame hunpack hdecode htype hpayload =>
    rw [hunpack, hdecode]
    refine hkeep _ ((keeps_sameSamples _).bind fun _ => ?_)
    dsimp only
    rw [takeFrame, if_pos htype]
    exact Keeps.pure ()

/-- One datagram in any state. -/
theorem step_booked (r : Receiver F) (datagram : List Byte × Clock F) :
    Booked (fate datagram.1) r (r.step datagram) := by
  obtain ⟨data, clock⟩ := datagram
  obtain ⟨htotal, hglobal⟩ := onDatagram_totals data clock r
  have hcounters : ∀ dev, Ingest.counters ((r.step (data, clock)).ingest.record dev) = _ :=
    fun dev => (congrArg (fun s => Ingest.counters (Ingest.record s dev))
      (onDatagram_mirrors data clock r).2).trans
      (Ingest.onDatagram_counters data clock r.ingest dev)
  exact ⟨htotal, hglobal, fun dev => congrArg Prod.fst (hcounters dev),
    fun dev => congrArg Prod.snd (hcounters dev)⟩

/-- All but the counters is as it was. -/
structure Untouched (r r' : Receiver F) : Prop where
  latest : r'.latest = r.latest
  telBuf : r'.telBuf = r.telBuf
  ingest : Ingest.OnlyBadCrc r.ingest r'.ingest

/-- A datagram that is not accepted changes no sample and no device. -/
theorem step_untouched {data : List Byte} (hfate : ∀ dev, fate data ≠ .accepted dev)
    (clock : Clock F) (r : Receiver F) :
    (onDatagram data clock r).1 = .ok () ∧ Untouched r (r.step (data, clock)) := by
  obtain ⟨hres, hstate⟩ := onDatagram_mirrors data clock r
  obtain ⟨hok, honly⟩ := Ingest.onDatagram_onlyBadCrc hfate clock r.ingest
  obtain ⟨hlatest, hbuf⟩ := onDatagram_samples hfate clock r
  refine ⟨hres.trans hok, hlatest, hbuf, ?_⟩
  show Ingest.OnlyBadCrc r.ingest (onDatagram data clock r).2.ingest
  rw [hstate]
  exact honly

/-! ## Every run -/

/-- How many datagrams had a fate. -/
def fates (datagrams : List (List Byte × Clock F)) (f : Fate) : Nat :=
  datagrams.countP fun datagram => fate datagram.1 = f

/-- The counters after a run. -/
theorem run_counts (r : Receiver F) (datagrams : List (List Byte × Clock F)) :
    (r.run datagrams).totalFrames = r.totalFrames + datagrams.length ∧
    (r.run datagrams).globalBadFrames = r.globalBadFrames + fates datagrams .unparseable ∧
    ∀ dev,
      ((r.run datagrams).ingest.record dev).badCrc =
        (r.ingest.record dev).badCrc + fates datagrams (.rejected dev) ∧
      ((r.run datagrams).ingest.record dev).framesRx =
        (r.ingest.record dev).framesRx + fates datagrams (.accepted dev) := by
  induction datagrams generalizing r with
  | nil => exact ⟨rfl, rfl, fun dev => ⟨rfl, rfl⟩⟩
  | cons datagram datagrams ih =>
    obtain ⟨htotal, hglobal, hdevs⟩ := ih (r.step datagram)
    have hbooked := step_booked r datagram
    -- each datagram adds one to the count of its fate
    have hfates : ∀ f, fates (datagram :: datagrams) f =
        fates datagrams f + if fate datagram.1 = f then 1 else 0 := fun f => by
      rw [fates, List.countP_cons]
      simp only [decide_eq_true_eq]
      rfl
    rw [run, exec_cons]
    refine ⟨?_, ?_, fun dev => ⟨?_, ?_⟩⟩
    · refine htotal.trans ?_
      rw [hbooked.total, List.length_cons]
      omega
    · refine hglobal.trans ?_
      rw [hbooked.globalBad, hfates]
      omega
    · refine (hdevs dev).1.trans ?_
      rw [hbooked.badCrc, hfates]
      omega
    · refine (hdevs dev).2.trans ?_
      rw [hbooked.framesRx, hfates]
      omega

/-- UDP datagrams with any bytes, from any state: in every state of the run the next
    datagram is booked as one frame under its fate, in no other counter of any
    device; unless it is accepted telemetry it raises nothing and touches nothing
    else.  The counters after the run are the numbers of the fates. -/
theorem rejected_datagrams_count_only (r : Receiver F) (datagrams : List (List Byte × Clock F)) :
    (∀ (data : List Byte) (clock : Clock F),
      Booked (fate data) (r.run datagrams) (r.run (datagrams ++ [(data, clock)])) ∧
      ((∀ dev, fate data ≠ .accepted dev) → (onDatagram data clock (r.run datagrams)).1 = .ok () ∧
        Untouched (r.run datagrams) (r.run (datagrams ++ [(data, clock)])))) ∧
    (r.run datagrams).totalFrames = r.totalFrames + datagrams.length ∧
    (r.run datagrams).globalBadFrames = r.globalBadFrames + fates datagrams .unparseable ∧
    ∀ dev,
      ((r.run datagrams).ingest.record dev).badCrc =
        (r.ingest.record dev).badCrc + fates datagrams (.rejected dev) ∧
      ((r.run datagrams).ingest.record dev).framesRx =
        (r.ingest.record dev).framesRx + fates datagrams (.accepted dev) := by
  refine ⟨fun data clock => ?_, run_counts r datagrams⟩
  have happend : r.run (datagrams ++ [(data, clock)]) = (r.run datagrams).step (data, clock) :=
    exec_append _
  rw [happend]
  exact ⟨step_booked (r.run datagrams) (data, clock), fun hfate => step_untouched hfate clock _⟩

end Receiver

end EcuTelemetry.Backend
