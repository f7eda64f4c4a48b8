/-
  EcuTelemetry.Backend.StreamDecoder

  `StreamDecoder`, the incremental decoder of the TCP byte stream, and what
  cutting the stream into chunks does to the frames it yields.

  One pass of the `while` loop looks at the head of the buffer: it waits for
  more bytes, takes a frame off, or resynchronises on the next magic "TE".
  When no magic is in sight the whole buffer is cleared, and with it a last
  byte 'T' that the next chunk could have completed.  That is the one cut
  which shows: everywhere else the frames do not depend on the chunks.
-/

import EcuTelemetry.Backend.Protocol
import EcuTelemetry.Lib.Incremental

namespace EcuTelemetry.Backend

open Protocol

/-! ## Searching for the magic -/

/-- The bytes "TE" every frame starts with. -/
def magicBytes : List Byte := [0x54, 0x45]

/-- `buf` from `buf.find(b"TE")` on; `none` where `find` gives -1. -/
def findMagic : List Byte → Option (List Byte)
  | [] => none
  | b :: bs => if magicBytes <+: b :: bs then some (b :: bs) else findMagic bs

/-- A cut between the two bytes of a magic. -/
def CutsMagic (x t : List Byte) : Prop := x.getLast? = some 0x54 ∧ t.head? = some 0x45

instance (x t : List Byte) : Decidable (CutsMagic x t) := inferInstanceAs (Decidable (_ ∧ _))

theorem findMagic_here {bs : List Byte} (h : magicBytes <+: bs) :
    findMagic bs = some bs := by
  cases bs with
  | nil => exact absurd h (by decide)
  | cons b bs => rw [findMagic, if_pos h]

theorem findMagic_skip {bs : List Byte} (h : ¬ magicBytes <+: bs) :
    findMagic bs = findMagic (bs.drop 1) := by
  cases bs with
  | nil => rfl
  | cons b bs => rw [findMagic, if_neg h]; rfl

/-- What is found starts with the magic and is the rest of the buffer. -/
theorem findMagic_eq_some {bs r : List Byte} (h : findMagic bs = some r) :
    magicBytes <+: r ∧ r <:+ bs := by
  induction bs with
  | nil => exact absurd h (by simp [findMagic])
  | cons b bs ih =>
    rw [findMagic] at h
    split at h
    · next hp => cases h; exact ⟨hp, List.suffix_rfl⟩
    · obtain ⟨hp, hs⟩ := ih h
      exact ⟨hp, hs.trans (List.suffix_cons b bs)⟩

/-- Nothing is found where there is no magic. -/
theorem findMagic_eq_none_iff {bs : List Byte} : findMagic bs = none ↔ ¬ magicBytes <:+: bs := by
  induction bs with
  | nil => exact ⟨fun _ => by decide, fun _ => rfl⟩
  | cons b bs ih =>
    rw [findMagic, List.infix_cons_iff]
    split
    · next hp => simp [hp]
    · next hp => simp [hp, ih]

/-- More bytes do not change what is found first. -/
theorem findMagic_append_of_some {bs r : List Byte} (h : findMagic bs = some r) (t : List Byte) :
    findMagic (bs ++ t) = some (r ++ t) := by
  induction bs with
  | nil => exact absurd h (by simp [findMagic])
  | cons b bs ih =>
    rw [findMagic] at h
    split at h
    · next hp =>
      cases h
      exact findMagic_here (hp.trans (List.prefix_append _ _))
    · next hp =>
      -- a magic found further on means two bytes are there, so `t` does not matter here
      have hnp : ¬ magicBytes <+: (b :: bs) ++ t := by
        cases bs with
        | nil => exact absurd h (by simp [findMagic])
        | cons c cs => simpa [magicBytes] using hp
      rw [findMagic_skip hnp]
      exact ih h

/-- Behind bytes without a magic the search goes on with the next chunk, unless
    the cut runs through a magic. -/
theorem findMagic_append_of_none {bs : List Byte} (h : findMagic bs = none) {t : List Byte}
    (hc : ¬ CutsMagic bs t) : findMagic (bs ++ t) = findMagic t := by
  induction bs with
  | nil => rfl
  | cons b bs ih =>
    rw [findMagic] at h
    split at h
    · exact absurd h (by simp)
    · next hp =>
      -- no magic begins here, not even one that ends in `t`
      have hnp : ¬ magicBytes <+: (b :: bs) ++ t := by
        cases bs with
        | cons c cs => simpa [magicBytes] using hp
        | nil =>
          cases t with
          | nil => simpa using hp
          | cons c cs =>
            intro hpre
            simp only [magicBytes, List.cons_append, List.nil_append,
              List.cons_prefix_cons] at hpre
            exact hc ⟨by simp [← hpre.1], by simp [← hpre.2.1]⟩
      rw [findMagic_skip hnp]
      cases bs with
      | nil => rfl
      | cons c cs =>
        refine ih h fun hcut => hc ⟨?_, hcut.2⟩
        rw [List.getLast?_cons_cons]
        exact hcut.1

theorem CutsMagic.infix {x t : List Byte} (h : CutsMagic x t) : magicBytes <:+: x ++ t := by
  obtain ⟨hx, ht⟩ := h
  obtain ⟨x', rfl⟩ := List.getLast?_eq_some_iff.mp hx
  obtain ⟨t', rfl⟩ := List.head?_eq_some_iff.mp ht
  exact ⟨x', t', by simp [magicBytes]⟩

/-! ## The decoder -/

structure StreamDecoder where
  buf : List Byte := []
  bad : Nat := 0
deriving DecidableEq, Repr

namespace StreamDecoder

/-- What one pass of the loop does with the buffer. -/
inductive Pass
  /-- `return`: more bytes are needed -/
  | wait
  /-- bad header, no magic in sight: `buf.clear()` and `return` -/
  | clear (dropped : List Byte)
  /-- bad header: go on at the next magic -/
  | resync (rest : List Byte)
  /-- `yield` -/
  | frame (f : Frame) (rest : List Byte)
  /-- the frame at the head does not decode -/
  | badFrame (rest : List Byte)

/-- One pass of the `while` loop.  `Header.unpack` raises nothing but
    `ProtocolError`, and nor does `decode`: `Header.unpack_error`,
    `decode_onlyProtocol`. -/
def pass (buf : List Byte) : Pass :=
  if buf.length < HEADER_LEN then .wait
  else
    match Header.unpack (buf.take HEADER_LEN) with
    | .error _ =>
      -- resynchronize at the next magic behind the first byte
      match findMagic (buf.drop 1) with
      | none => .clear (buf.drop 1)
      | some rest => .resync rest
    | .ok hdr =>
      let total := HEADER_LEN + hdr.payloadLen + 4
      if buf.length < total then .wait
      else
        match decode (buf.take total) with
        | .ok f => .frame f (buf.drop total)
        -- a frame with a wrong checksum is skipped as long as it says it is
        | .error _ => .badFrame (buf.drop total)

/-- How a call of `feed` leaves the buffer. -/
inductive Stop
  | keep (buf : List Byte)
  | clear (dropped : List Byte)

def Stop.buf : Stop → List Byte
  | keep b => b
  | clear _ => []

/-- A finished loop: the frames yielded, the growth of `bad`, the end. -/
structure Scan where
  frames : List Frame
  bad : Nat
  stop : Stop

def Scan.addFrame (s : Scan) (f : Frame) : Scan := { s with frames := f :: s.frames }
def Scan.addBad (s : Scan) : Scan := { s with bad := s.bad + 1 }

/-- The `while` loop; every pass but the last takes bytes off the buffer. -/
def scanLoop : Nat → List Byte → Scan
  | 0, buf => ⟨[], 0, .keep buf⟩
  | fuel + 1, buf =>
    match pass buf with
    | .wait => ⟨[], 0, .keep buf⟩
    | .clear d => ⟨[], 1, .clear d⟩
    | .resync rest => (scanLoop fuel rest).addBad
    | .frame f rest => (scanLoop fuel rest).addFrame f
    | .badFrame rest => (scanLoop fuel rest).addBad

/-- The loop run to its end. -/
def scan (buf : List Byte) : Scan := scanLoop buf.length buf

/-- `list(d.feed(data))`. -/
def feed (d : StreamDecoder) (data : List Byte) : List Frame × StreamDecoder :=
  let s := scan (d.buf ++ data)
  (s.frames, { buf := s.stop.buf, bad := d.bad + s.bad })

/-- The frames of a list of chunks, fed one after another. -/
def feedAll (d : StreamDecoder) : List (List Byte) → List Frame
  | [] => []
  | c :: cs => (d.feed c).1 ++ feedAll (d.feed c).2 cs

/-! ## One pass -/

theorem pass_short {buf : List Byte} (h : buf.length < HEADER_LEN) : pass buf = .wait := by
  rw [pass, if_pos h]

theorem pass_badHeader {buf : List Byte} {e : PyError} (hlen : HEADER_LEN ≤ buf.length)
    (h : Header.unpack buf = .error e) :
    pass buf = match findMagic (buf.drop 1) with
      | none => .clear (buf.drop 1)
      | some rest => .resync rest := by
  rw [pass, if_neg (not_lt.mpr hlen), Header.unpack_take, h]

theorem pass_goodHeader {buf : List Byte} {hdr : Header} (h : Header.unpack buf = .ok hdr) :
    pass buf =
      if buf.length < HEADER_LEN + hdr.payloadLen + 4 then .wait
      else match decode (buf.take (HEADER_LEN + hdr.payloadLen + 4)) with
        | .ok f => .frame f (buf.drop (HEADER_LEN + hdr.payloadLen + 4))
        | .error _ => .badFrame (buf.drop (HEADER_LEN + hdr.payloadLen + 4)) := by
  rw [pass, if_neg (not_lt.mpr (Header.unpack_eq_ok h).1), Header.unpack_take, h]

/-- A header that passes the check starts with the magic. -/
theorem magic_prefix_of_unpack {buf : List Byte} {hdr : Header}
    (h : Header.unpack buf = .ok hdr) : magicBytes <+: buf := by
  obtain ⟨hlen, hm, -⟩ := Header.unpack_eq_ok h
  have h36 : HEADER_LEN = 36 := rfl
  have htake : buf.take 2 = magicBytes := by
    have hl : (buf.take 2).length = 2 := by rw [List.length_take]; omega
    rw [← leBytes_leNat (buf.take 2), hm, hl]
    decide
  exact htake ▸ List.take_prefix 2 buf

/-- A header without the magic fails the check. -/
theorem unpack_error_of_not_magic {buf : List Byte} (h : ¬ magicBytes <+: buf) :
    ∃ e, Header.unpack buf = .error e := by
  cases hh : Header.unpack buf with
  | error e => exact ⟨e, rfl⟩
  | ok hdr => exact absurd (magic_prefix_of_unpack hh) h

/-- Everything a pass can do. -/
theorem pass_cases (buf : List Byte) :
    pass buf = .wait ∨
    (HEADER_LEN ≤ buf.length ∧ (∃ e, Header.unpack buf = .error e) ∧
      ((findMagic (buf.drop 1) = none ∧ pass buf = .clear (buf.drop 1)) ∨
        ∃ rest, findMagic (buf.drop 1) = some rest ∧ pass buf = .resync rest)) ∨
    (∃ hdr, Header.unpack buf = .ok hdr ∧ HEADER_LEN + hdr.payloadLen + 4 ≤ buf.length ∧
      ((∃ f, decode (buf.take (HEADER_LEN + hdr.payloadLen + 4)) = .ok f ∧
          pass buf = .frame f (buf.drop (HEADER_LEN + hdr.payloadLen + 4))) ∨
        ((∃ e, decode (buf.take (HEADER_LEN + hdr.payloadLen + 4)) = .error e) ∧
          pass buf = .badFrame (buf.drop (HEADER_LEN + hdr.payloadLen + 4))))) := by
  -- in the order of the loop: the header, its checks, the rest of the frame, the checksum
  by_cases hlen : buf.length < HEADER_LEN
  · exact .inl (pass_short hlen)
  cases hh : Header.unpack buf with
  | error e =>
    have hp := pass_badHeader (not_lt.mp hlen) hh
    refine .inr (.inl ⟨not_lt.mp hlen, ⟨e, rfl⟩, ?_⟩)
    cases hf : findMagic (buf.drop 1) with
    | none => rw [hf] at hp; exact .inl ⟨rfl, hp⟩
    | some rest => rw [hf] at hp; exact .inr ⟨rest, rfl, hp⟩
  | ok hdr =>
    have hp := pass_goodHeader hh
    split at hp
    · exact .inl hp
    · next htot =>
      refine .inr (.inr ⟨hdr, rfl, not_lt.mp htot, ?_⟩)
      cases hd : decode (buf.take (HEADER_LEN + hdr.payloadLen + 4)) with
      | ok f => rw [hd] at hp; exact .inl ⟨f, rfl, hp⟩
      | error e => rw [hd] at hp; exact .inr ⟨⟨e, rfl⟩, hp⟩

/-- The buffer a pass hands on is a proper suffix. -/
theorem pass_rest {buf rest : List Byte}
    (h : pass buf = .resync rest ∨ (∃ f, pass buf = .frame f rest) ∨ pass buf = .badFrame rest) :
    rest.length < buf.length := by
  have h36 : HEADER_LEN = 36 := rfl
  rcases pass_cases buf with hp | ⟨hlen, -, ⟨-, hp⟩ | ⟨r, hf, hp⟩⟩ |
      ⟨hdr, -, hlen, ⟨f, -, hp⟩ | ⟨-, hp⟩⟩ <;> rw [hp] at h
  · simp at h
  · simp at h
  -- resynchronizing drops the first byte at least
  · simp only [Pass.resync.injEq, reduceCtorEq, exists_false, or_false] at h
    subst h
    have := (findMagic_eq_some hf).2.length_le
    rw [List.length_drop] at this
    omega
  -- a frame drops its header, its payload and its checksum
  · simp only [Pass.frame.injEq, reduceCtorEq, false_or, or_false] at h
    obtain ⟨-, -, rfl⟩ := h
    rw [List.length_drop]
    omega
  · simp only [Pass.badFrame.injEq, reduceCtorEq, exists_false, false_or] at h
    subst h
    rw [List.length_drop]
    omega

/-- More bytes behind the buffer do not change a pass that took something off. -/
theorem pass_append {buf rest : List Byte} (t : List Byte) :
    (pass buf = .resync rest → pass (buf ++ t) = .resync (rest ++ t)) ∧
    (∀ f, pass buf = .frame f rest → pass (buf ++ t) = .frame f (rest ++ t)) ∧
    (pass buf = .badFrame rest → pass (buf ++ t) = .badFrame (rest ++ t)) := by
  rcases pass_cases buf with hp | ⟨hlen, ⟨e, he⟩, ⟨-, hp⟩ | ⟨r, hf, hp⟩⟩ |
      ⟨hdr, hh, hlen, hd⟩
  · simp [hp]
  · simp [hp]
  -- a bad header: the next magic is looked for in what was there already
  · have h36 : HEADER_LEN = 36 := rfl
    have hlen' : HEADER_LEN ≤ (buf ++ t).length := by rw [List.length_append]; omega
    have happ := pass_badHeader hlen' ((Header.unpack_append hlen t).trans he)
    rw [List.drop_append_of_le_length (by omega), findMagic_append_of_some hf] at happ
    simp only [hp, happ, Pass.resync.injEq, reduceCtorEq, false_implies, implies_true, and_true]
    rintro rfl
    rfl
  -- a good header with all its bytes: the bytes behind it are not read
  · have happ := pass_goodHeader
      ((Header.unpack_append (Header.unpack_eq_ok hh).1 t).trans hh)
    rw [if_neg (by rw [List.length_append]; omega), List.take_append_of_le_length hlen,
      List.drop_append_of_le_length hlen] at happ
    rcases hd with ⟨f, hd, hp⟩ | ⟨⟨e, hd⟩, hp⟩ <;> rw [hd] at happ
    · simp only [hp, happ, Pass.frame.injEq, reduceCtorEq, false_implies, true_and, and_true]
      rintro f ⟨rfl, rfl⟩
      exact ⟨rfl, rfl⟩
    · simp only [hp, happ, Pass.badFrame.injEq, reduceCtorEq, false_implies, implies_true,
        true_and]
      rintro rfl
      rfl

/-! ## The whole loop -/

/-- Any fuel that covers the buffer gives the same loop. -/
theorem scanLoop_congr {n m : Nat} {buf : List Byte} (hn : buf.length ≤ n) (hm : buf.length ≤ m) :
    scanLoop n buf = scanLoop m buf := by
  have hnil : ∀ k, scanLoop k [] = ⟨[], 0, .keep []⟩ := by
    intro k
    cases k with
    | zero => rfl
    | succ k => rw [scanLoop, pass_short (by decide)]
  induction n generalizing m buf with
  | zero =>
    have : buf = [] := List.eq_nil_of_length_eq_zero (by omega)
    rw [this, hnil, hnil]
  | succ n ih =>
    cases m with
    | zero =>
      have : buf = [] := List.eq_nil_of_length_eq_zero (by omega)
      rw [this, hnil, hnil]
    | succ m =>
      -- every pass consumes a byte, so both fuels still cover the rest
      have hrest : ∀ rest : List Byte, rest.length < buf.length →
          scanLoop n rest = scanLoop m rest := fun rest hr => ih (by omega) (by omega)
      rw [scanLoop, scanLoop]
      cases hp : pass buf with
      | wait => rfl
      | clear d => rfl
      | resync rest => simp only; rw [hrest rest (pass_rest (.inl hp))]
      | frame f rest => simp only; rw [hrest rest (pass_rest (.inr (.inl ⟨f, hp⟩)))]
      | badFrame rest => simp only; rw [hrest rest (pass_rest (.inr (.inr hp)))]

/-- The loop, one pass unrolled. -/
theorem scan_eq (buf : List Byte) :
    scan buf = match pass buf with
      | .wait => ⟨[], 0, .keep buf⟩
      | .clear d => ⟨[], 1, .clear d⟩
      | .resync rest => (scan rest).addBad
      | .frame f rest => (scan rest).addFrame f
      | .badFrame rest => (scan rest).addBad := by
  have hscan : scan buf = scanLoop (buf.length + 1) buf := scanLoop_congr le_rfl (Nat.le_succ _)
  rw [hscan, scanLoop]
  cases hp : pass buf with
  | wait => rfl
  | clear d => rfl
  | resync rest => simp only; rw [scan, scanLoop_congr (pass_rest (.inl hp)).le le_rfl]
  | frame f rest =>
    simp only
    rw [scan, scanLoop_congr (pass_rest (.inr (.inl ⟨f, hp⟩))).le le_rfl]
  | badFrame rest => simp only; rw [scan, scanLoop_congr (pass_rest (.inr (.inr hp))).le le_rfl]

@[simp] theorem scan_nil : scan [] = ⟨[], 0, .keep []⟩ := rfl

@[simp] theorem frames_addBad (s : Scan) : s.addBad.frames = s.frames := rfl
@[simp] theorem stop_addBad (s : Scan) : s.addBad.stop = s.stop := rfl
@[simp] theorem frames_addFrame (s : Scan) (f : Frame) : (s.addFrame f).frames = f :: s.frames :=
  rfl
@[simp] theorem stop_addFrame (s : Scan) (f : Frame) : (s.addFrame f).stop = s.stop := rfl

/-- Induction along the passes of the loop. -/
theorem scan_induction {motive : List Byte → Prop}
    (wait : ∀ buf, pass buf = .wait → motive buf)
    (clear : ∀ buf d, pass buf = .clear d → motive buf)
    (resync : ∀ buf rest, pass buf = .resync rest → motive rest → motive buf)
    (frame : ∀ buf f rest, pass buf = .frame f rest → motive rest → motive buf)
    (badFrame : ∀ buf rest, pass buf = .badFrame rest → motive rest → motive buf)
    (buf : List Byte) : motive buf := by
  induction hn : buf.length using Nat.strong_induction_on generalizing buf with
  | _ n ih =>
    subst hn
    cases hp : pass buf with
    | wait => exact wait buf hp
    | clear d => exact clear buf d hp
    | resync rest => exact resync buf rest hp (ih _ (pass_rest (.inl hp)) rest rfl)
    | frame f rest => exact frame buf f rest hp (ih _ (pass_rest (.inr (.inl ⟨f, hp⟩))) rest rfl)
    | badFrame rest => exact badFrame buf rest hp (ih _ (pass_rest (.inr (.inr hp))) rest rfl)

/-- The buffer that is kept holds no complete frame. -/
theorem scan_settled (buf : List Byte) : (scan (scan buf).stop.buf).frames = [] := by
  induction buf using scan_induction with
  | wait buf hp =>
    have hs : scan buf = ⟨[], 0, .keep buf⟩ := by rw [scan_eq, hp]
    rw [hs, Stop.buf, hs]
  | clear buf d hp => rw [scan_eq buf, hp]; rfl
  | resync buf rest hp ih => rw [scan_eq buf, hp]; exact ih
  | frame buf f rest hp ih => rw [scan_eq buf, hp]; exact ih
  | badFrame buf rest hp ih => rw [scan_eq buf, hp]; exact ih

/-- The decoder as a reader of frames. -/
def reader : Incremental Byte Frame where
  read buf := ((scan buf).frames, (scan buf).stop.buf)
  settled := scan_settled

theorem feedAll_eq (d : StreamDecoder) (chunks : List (List Byte)) :
    d.feedAll chunks = (reader.feedAll d.buf chunks).1 := by
  induction chunks generalizing d with
  | nil => rfl
  | cons c cs ih => exact congrArg ((scan (d.buf ++ c)).frames ++ ·) (ih _)

/-! ## Where the stream may be cut -/

/-- Bytes in front of the first magic yield nothing. -/
theorem scan_frames_findMagic (t : List Byte) :
    (scan t).frames = ((findMagic t).map fun r => (scan r).frames).getD [] := by
  have hshort : ∀ s : List Byte, s.length < HEADER_LEN → (scan s).frames = [] := fun s hs => by
    rw [scan_eq, pass_short hs]
  by_cases hp : magicBytes <+: t
  · rw [findMagic_here hp]; rfl
  by_cases hlen : t.length < HEADER_LEN
  · cases hf : findMagic t with
    | none => exact hshort t hlen
    | some r =>
      have hr := (findMagic_eq_some hf).2.length_le
      rw [hshort t hlen, Option.map_some, Option.getD_some, hshort r (by omega)]
  · obtain ⟨e, he⟩ := unpack_error_of_not_magic hp
    rw [scan_eq, pass_badHeader (not_lt.mp hlen) he, findMagic_skip hp]
    cases findMagic (t.drop 1) with
    | none => rfl
    | some r => rfl

/-- **One cut.**  Unless it runs through a magic whose first half is cleared,
    a cut between `x` and `t` does not show. -/
theorem cutsAt_of_not_cutsMagic {x t : List Byte}
    (h : ∀ d, (scan x).stop = .clear d → ¬ CutsMagic d t) : reader.CutsAt x t := by
  change (scan (x ++ t)).frames = (scan x).frames ++ (scan ((scan x).stop.buf ++ t)).frames
  -- along the passes over `x`; bytes after a pass do not change it
  induction x using scan_induction with
  | wait x hp =>
    have hs : scan x = ⟨[], 0, .keep x⟩ := by rw [scan_eq, hp]
    rw [hs]
    rfl
  | clear x d hp =>
    have hs : scan x = ⟨[], 1, .clear d⟩ := by rw [scan_eq, hp]
    rcases pass_cases x with hw | ⟨hlen, ⟨e, he⟩, ⟨hf, hc⟩ | ⟨r, -, hr⟩⟩ |
        ⟨_, -, -, ⟨f, -, hfr⟩ | ⟨-, hb⟩⟩
    · rw [hp] at hw; cases hw
    · rw [hp] at hc
      cases hc
      have h36 : HEADER_LEN = 36 := rfl
      have hlen' : HEADER_LEN ≤ (x ++ t).length := by rw [List.length_append]; omega
      -- the buffer was cleared, and `t` does not complete a magic over the seam
      have hfind := findMagic_append_of_none hf (h _ (by rw [hs]))
      rw [hs, scan_eq (x ++ t), pass_badHeader hlen' ((Header.unpack_append hlen t).trans he),
        List.drop_append_of_le_length (by omega), hfind]
      simp only [Stop.buf, List.nil_append]
      rw [scan_frames_findMagic t]
      cases findMagic t with
      | none => rfl
      | some r => rfl
    · rw [hp] at hr; cases hr
    · rw [hp] at hfr; cases hfr
    · rw [hp] at hb; cases hb
  | resync x rest hp ih =>
    have hs : scan x = (scan rest).addBad := by rw [scan_eq, hp]
    rw [hs] at h ⊢
    rw [scan_eq (x ++ t), (pass_append t).1 hp]
    exact ih h
  | frame x f rest hp ih =>
    have hs : scan x = (scan rest).addFrame f := by rw [scan_eq, hp]
    rw [hs] at h ⊢
    rw [scan_eq (x ++ t), (pass_append t).2.1 f hp]
    exact congrArg (f :: ·) (ih h)
  | badFrame x rest hp ih =>
    have hs : scan x = (scan rest).addBad := by rw [scan_eq, hp]
    rw [hs] at h ⊢
    rw [scan_eq (x ++ t), (pass_append t).2.2 hp]
    exact ih h

/-- No call of `feed` clears a buffer that ends with the first half of a magic
    the later chunks go on with. -/
def KeepsMagic (d : StreamDecoder) : List (List Byte) → Prop
  | [] => True
  | c :: cs =>
    (∀ dropped, (scan (d.buf ++ c)).stop = .clear dropped → ¬ CutsMagic dropped cs.flatten) ∧
      KeepsMagic (d.feed c).2 cs

theorem cutsAll_of_keepsMagic {d : StreamDecoder} {chunks : List (List Byte)}
    (h : d.KeepsMagic chunks) : reader.CutsAll d.buf chunks := by
  induction chunks generalizing d with
  | nil => trivial
  | cons c cs ih => exact ⟨cutsAt_of_not_cutsMagic h.1, ih h.2⟩

/-- Chunk independence, from any settled decoder. -/
theorem feedAll_eq_scan {d : StreamDecoder} (hd : (scan d.buf).frames = [])
    {chunks : List (List Byte)} (h : d.KeepsMagic chunks) :
    d.feedAll chunks = (scan (d.buf ++ chunks.flatten)).frames := by
  rw [feedAll_eq]
  exact reader.feedAll_eq_read hd (cutsAll_of_keepsMagic h)

/-! ## Streams of valid frames behind garbage -/

/-- The bytes of the frames `fs`, back to back. -/
def stream (fs : List Frame) : List Byte := (fs.map Frame.raw).flatten

@[simp] theorem stream_nil : stream [] = [] := rfl
@[simp] theorem stream_cons (f : Frame) (fs : List Frame) :
    stream (f :: fs) = f.raw ++ stream fs := rfl

/-- The frame's bytes decode to it. -/
def Valid (f : Frame) : Prop := decode f.raw = .ok f

theorem Valid.length {f : Frame} (hf : Valid f) :
    Header.unpack f.raw = .ok f.header ∧ f.raw.length = HEADER_LEN + f.header.payloadLen + 4 := by
  obtain ⟨hh, hle, hraw⟩ := decode_eq_ok hf
  refine ⟨hh, ?_⟩
  have := congrArg List.length hraw
  rw [List.length_take] at this
  omega

theorem pass_raw_append {f : Frame} (hf : Valid f) (t : List Byte) :
    pass (f.raw ++ t) = .frame f t := by
  obtain ⟨hh, hlen⟩ := hf.length
  have happ := pass_goodHeader ((Header.unpack_append (Header.unpack_eq_ok hh).1 t).trans hh)
  rw [if_neg (by rw [List.length_append]; omega), ← hlen, List.take_left, List.drop_left, hf]
    at happ
  exact happ

/-- A proper part of a valid frame makes the decoder wait. -/
theorem pass_properPart {f : Frame} (hf : Valid f) {x t : List Byte} (ht : t ≠ [])
    (hx : f.raw = x ++ t) : pass x = .wait := by
  obtain ⟨hh, hlen⟩ := hf.length
  by_cases h : x.length < HEADER_LEN
  · exact pass_short h
  · rw [hx, Header.unpack_append (not_lt.mp h)] at hh
    have hpos := List.length_pos_iff.mpr ht
    have hsum := congrArg List.length hx
    rw [List.length_append] at hsum
    rw [pass_goodHeader hh, if_pos (by omega)]

/-- After any part of a stream of valid frames the decoder waits in the middle
    of one of them. -/
theorem scan_stream_part {fs : List Frame} (hfs : ∀ f ∈ fs, Valid f) {x t : List Byte}
    (hx : x ++ t = stream fs) :
    ∃ b fs', (scan x).stop = .keep b ∧ b ++ t = stream fs' ∧ ∀ f ∈ fs', Valid f := by
  induction fs generalizing x with
  | nil =>
    obtain ⟨rfl, rfl⟩ := List.append_eq_nil_iff.mp hx
    exact ⟨[], [], rfl, rfl, hfs⟩
  | cons f fs ih =>
    obtain ⟨hf, hrest⟩ := List.forall_mem_cons.mp hfs
    rcases List.append_eq_append_iff.mp hx with ⟨as, hraw, ht⟩ | ⟨bs, hbs, ht⟩
    · cases as with
      | cons a as =>
        -- `x` stops inside the frame
        have hs : scan x = ⟨[], 0, .keep x⟩ := by
          rw [scan_eq, pass_properPart hf (List.cons_ne_nil a as) hraw]
        exact ⟨x, f :: fs, by rw [hs], hx, hfs⟩
      | nil =>
        have hx' : x = f.raw ++ [] := by rw [hraw]; simp
        have hs : scan x = (scan []).addFrame f := by rw [hx', scan_eq, pass_raw_append hf]
        exact ⟨[], fs, by rw [hs]; rfl, by simpa [stream] using ht, hrest⟩
    · obtain ⟨b, fs', hb, hfs', hv⟩ := ih hrest ht.symm
      have hs : scan x = (scan bs).addFrame f := by rw [hbs, scan_eq, pass_raw_append hf]
      exact ⟨b, fs', by rw [hs]; exact hb, hfs', hv⟩

/-- A decoder that is in step with the frames stays in step. -/
theorem keepsMagic_of_aligned {d : StreamDecoder} {fs : List Frame} (hfs : ∀ f ∈ fs, Valid f)
    {chunks : List (List Byte)} (h : d.buf ++ chunks.flatten = stream fs) :
    d.KeepsMagic chunks := by
  induction chunks generalizing d fs with
  | nil => trivial
  | cons c cs ih =>
    rw [List.flatten_cons, ← List.append_assoc] at h
    obtain ⟨b, fs', hb, hfs', hv⟩ := scan_stream_part hfs h
    refine ⟨fun dropped hd => ?_, ih hv ?_⟩
    · rw [hb] at hd; cases hd
    · change (scan (d.buf ++ c)).stop.buf ++ cs.flatten = stream fs'
      rw [hb]
      exact hfs'

theorem magic_prefix_stream {f : Frame} (hf : Valid f) (t : List Byte) :
    magicBytes <+: f.raw ++ t :=
  (magic_prefix_of_unpack hf.length.1).trans (List.prefix_append _ _)

/-- The second byte of a magic cannot start a frame. -/
theorem not_cutsMagic_stream {fs : List Frame} (hfs : ∀ f ∈ fs, Valid f) (x : List Byte) :
    ¬ CutsMagic x (stream fs) := by
  rintro ⟨-, hhead⟩
  cases fs with
  | nil => cases hhead
  | cons f fs =>
    obtain ⟨t, ht⟩ := magic_prefix_stream (List.forall_mem_cons.mp hfs).1 (stream fs)
    rw [stream_cons, ← ht] at hhead
    exact absurd hhead (by simp [magicBytes])

theorem scan_stream {fs : List Frame} (hfs : ∀ f ∈ fs, Valid f) :
    (scan (stream fs)).frames = fs := by
  induction fs with
  | nil => rfl
  | cons f fs ih =>
    obtain ⟨hf, hrest⟩ := List.forall_mem_cons.mp hfs
    rw [stream_cons, scan_eq, pass_raw_append hf, frames_addFrame, ih hrest]

/-- In one call the frames come out whatever garbage stands in front. -/
theorem scan_garbage {garbage : List Byte} (hg : ¬ magicBytes <:+: garbage) {fs : List Frame}
    (hfs : ∀ f ∈ fs, Valid f) : (scan (garbage ++ stream fs)).frames = fs := by
  rw [scan_frames_findMagic, findMagic_append_of_none (findMagic_eq_none_iff.mpr hg)
    (not_cutsMagic_stream hfs garbage), ← scan_frames_findMagic, scan_stream hfs]

/-- The frames a decoder yields are disjoint pieces of what it was fed. -/
theorem stream_scan_length (buf : List Byte) :
    (stream (scan buf).frames).length + (scan buf).stop.buf.length ≤ buf.length := by
  induction buf using scan_induction with
  | wait buf hp => rw [scan_eq, hp]; simp [Stop.buf]
  | clear buf d hp => rw [scan_eq, hp]; simp [Stop.buf]
  | resync buf rest hp ih =>
    have := pass_rest (.inl hp)
    rw [scan_eq, hp, frames_addBad, stop_addBad]
    omega
  | badFrame buf rest hp ih =>
    have := pass_rest (.inr (.inr hp))
    rw [scan_eq, hp, frames_addBad, stop_addBad]
    omega
  | frame buf f rest hp ih =>
    -- a frame is cut off the front of the buffer as it stands
    have hraw : f.raw.length + rest.length = buf.length := by
      rcases pass_cases buf with hw | ⟨-, -, ⟨-, hc⟩ | ⟨r, -, hr⟩⟩ |
          ⟨hdr, hh, hlen, ⟨g, hd, hf⟩ | ⟨-, hb⟩⟩
      · rw [hp] at hw; cases hw
      · rw [hp] at hc; cases hc
      · rw [hp] at hr; cases hr
      · rw [hp] at hf
        cases hf
        obtain ⟨hh', -, hraw⟩ := decode_eq_ok hd
        have htot := (Header.unpack_append (Header.unpack_eq_ok hh').1
          (buf.drop (HEADER_LEN + hdr.payloadLen + 4))).trans hh'
        rw [List.take_append_drop, hh] at htot
        cases htot
        rw [hraw, List.take_take, min_self, List.length_take, List.length_drop]
        omega
      · rw [hp] at hb; cases hb
    rw [scan_eq, hp, frames_addFrame, stop_addFrame, stream_cons, List.length_append]
    omega

/-- No byte comes out that has not gone in. -/
theorem stream_feedAll_length (d : StreamDecoder) (chunks : List (List Byte)) :
    (stream (d.feedAll chunks)).length ≤ d.buf.length + chunks.flatten.length := by
  induction chunks generalizing d with
  | nil => simp [feedAll]
  | cons c cs ih =>
    have hscan := stream_scan_length (d.buf ++ c)
    have hrest := ih (d.feed c).2
    have happ : stream (d.feedAll (c :: cs)) =
        stream (scan (d.buf ++ c)).frames ++ stream ((d.feed c).2.feedAll cs) := by
      simp only [stream, feedAll, feed, List.map_append, List.flatten_append]
    change _ ≤ (scan (d.buf ++ c)).stop.buf.length + _ at hrest
    rw [happ, List.length_append, List.flatten_cons, List.length_append]
    rw [List.length_append] at hscan
    omega

/-- Less than one header's worth of bytes only fills the buffer. -/
theorem scan_short {buf : List Byte} (h : buf.length < HEADER_LEN) :
    scan buf = ⟨[], 0, .keep buf⟩ := by rw [scan_eq, pass_short h]

/-- A full header's worth of garbage without a magic is cleared. -/
theorem scan_no_magic {buf : List Byte} (hlen : HEADER_LEN ≤ buf.length)
    (h : ¬ magicBytes <:+: buf) : scan buf = ⟨[], 1, .clear (buf.drop 1)⟩ := by
  obtain ⟨e, he⟩ := unpack_error_of_not_magic fun hp => h hp.isInfix
  have hf : findMagic (buf.drop 1) = none :=
    findMagic_eq_none_iff.mpr fun hi => h (hi.trans (List.drop_suffix 1 buf).isInfix)
  rw [scan_eq, pass_badHeader hlen he, hf]

/-- A full header's worth of garbage with a magic behind it goes on there. -/
theorem scan_resync {garbage rest : List Byte} (hg : ¬ magicBytes <:+: garbage)
    (hne : garbage ≠ []) (hlen : HEADER_LEN ≤ (garbage ++ rest).length)
    (hm : magicBytes <+: rest) : scan (garbage ++ rest) = (scan rest).addBad := by
  have hcut : ∀ g : List Byte, ¬ CutsMagic g rest := by
    rintro g ⟨-, hhead⟩
    obtain ⟨t, rfl⟩ := hm
    exact absurd hhead (by simp [magicBytes])
  have hfind : ∀ g : List Byte, ¬ magicBytes <:+: g → findMagic (g ++ rest) = some rest :=
    fun g hg => (findMagic_append_of_none (findMagic_eq_none_iff.mpr hg) (hcut g)).trans
      (findMagic_here hm)
  -- were there a magic at the front, it would be found before `rest`
  have hnp : ¬ magicBytes <+: garbage ++ rest := by
    intro hp
    have := hfind garbage hg
    rw [findMagic_here hp] at this
    have hl := congrArg List.length (Option.some.inj this)
    have := List.length_pos_iff.mpr hne
    rw [List.length_append] at hl
    omega
  obtain ⟨e, he⟩ := unpack_error_of_not_magic hnp
  have hdrop : (garbage ++ rest).drop 1 = garbage.drop 1 ++ rest :=
    List.drop_append_of_le_length (List.length_pos_iff.mpr hne)
  have htail : ¬ magicBytes <:+: garbage.drop 1 :=
    fun hi => hg (hi.trans (List.drop_suffix 1 garbage).isInfix)
  rw [scan_eq, pass_badHeader hlen he, hdrop, hfind _ htail]

/-- Either the cut `x` falls into `g`, or at least one byte of `s` is in it. -/
theorem append_split {x t g s : List Byte} (h : x ++ t = g ++ s) :
    (∃ g', g = x ++ g' ∧ t = g' ++ s) ∨ ∃ b y, x = g ++ b :: y ∧ s = b :: y ++ t := by
  rcases List.append_eq_append_iff.mp h with ⟨g', hg, ht⟩ | ⟨y, hx, hs⟩
  · exact .inl ⟨g', hg, ht⟩
  · cases y with
    | nil => exact .inl ⟨[], by simpa using hx.symm, by simpa using hs.symm⟩
    | cons b y => exact .inr ⟨b, y, hx, hs⟩

/-- Behind garbage, getting every frame means that no cut lost a magic: a cut
    that does leaves too few bytes for all the frames. -/
theorem keepsMagic_of_feedAll_eq {d : StreamDecoder} (hd : (scan d.buf).frames = [])
    {garbage : List Byte} (hg : ¬ magicBytes <:+: garbage) {fs : List Frame}
    (hfs : ∀ f ∈ fs, Valid f) {chunks : List (List Byte)}
    (hs : d.buf ++ chunks.flatten = garbage ++ stream fs) (h : d.feedAll chunks = fs) :
    d.KeepsMagic chunks := by
  induction chunks generalizing d garbage with
  | nil => trivial
  | cons c cs ih =>
    rw [List.flatten_cons, ← List.append_assoc] at hs
    have hsettled : (scan (d.feed c).2.buf).frames = [] := scan_settled _
    -- a call that only fills or clears the buffer leaves the frames to the later calls
    have hquiet : ∀ n stop, scan (d.buf ++ c) = ⟨[], n, stop⟩ →
        (d.feed c).2.buf = stop.buf ∧ (d.feed c).2.feedAll cs = fs := by
      intro n stop hscan
      refine ⟨?_, ?_⟩
      · change (scan (d.buf ++ c)).stop.buf = _
        rw [hscan]
      · rw [← h]
        change _ = (scan (d.buf ++ c)).frames ++ _
        rw [hscan]
        rfl
    by_cases hlen : (d.buf ++ c).length < HEADER_LEN
    · have hscan := scan_short hlen
      obtain ⟨hbuf, hfeed⟩ := hquiet _ _ hscan
      refine ⟨fun dropped hd => ?_, ih hsettled hg (by rw [hbuf]; exact hs) hfeed⟩
      rw [hscan] at hd
      cases hd
    rcases append_split hs with ⟨g', rfl, hcs⟩ | ⟨b, y, hx, hstream⟩
    · -- only garbage so far
      have hscan := scan_no_magic (not_lt.mp hlen) fun hi =>
        hg (hi.trans (List.prefix_append _ _).isInfix)
      obtain ⟨hbuf, hfeed⟩ := hquiet _ _ hscan
      have hg' : ¬ magicBytes <:+: g' := fun hi => hg (hi.trans (List.suffix_append _ _).isInfix)
      refine ⟨fun dropped hd hcut => ?_, ih hsettled hg' (by rw [hbuf, hcs]; rfl) hfeed⟩
      rw [hscan] at hd
      cases hd
      rw [hcs] at hcut
      cases g' with
      | nil => exact not_cutsMagic_stream hfs _ hcut
      | cons e g' =>
        have hi : magicBytes <:+: (d.buf ++ c).drop 1 ++ e :: g' :=
          CutsMagic.infix ⟨hcut.1, by simpa using hcut.2⟩
        have hsuffix : (d.buf ++ c).drop 1 ++ e :: g' <:+ d.buf ++ c ++ e :: g' :=
          ⟨(d.buf ++ c).take 1, by rw [← List.append_assoc, List.take_append_drop]⟩
        exact hg (hi.trans hsuffix.isInfix)
    · cases fs with
      | nil => cases hstream
      | cons f fs =>
        obtain ⟨t, ht⟩ := magic_prefix_stream (List.forall_mem_cons.mp hfs).1 (stream fs)
        rw [stream_cons, ← ht] at hstream
        simp only [magicBytes, List.cons_append, List.nil_append, List.cons.injEq] at hstream
        obtain ⟨rfl, hstream⟩ := hstream
        cases y with
        | nil =>
          -- the first byte of the first frame is cleared with the garbage
          have hno : ¬ magicBytes <:+: d.buf ++ c := by
            rw [hx, ← findMagic_eq_none_iff,
              findMagic_append_of_none (findMagic_eq_none_iff.mpr hg) (by simp [CutsMagic])]
            rfl
          obtain ⟨hbuf, hfeed⟩ := hquiet _ _ (scan_no_magic (not_lt.mp hlen) hno)
          have hcount := stream_feedAll_length (d.feed c).2 cs
          rw [hfeed, hbuf, stream_cons, ← ht] at hcount
          have := congrArg List.length hstream
          simp [Stop.buf, magicBytes] at hcount this
          omega
        | cons e y =>
          -- the magic of the first frame is in sight: from here on the decoder is in step
          rw [List.cons_append, List.cons.injEq] at hstream
          obtain ⟨rfl, hstream⟩ := hstream
          have hy : 0x54 :: 0x45 :: y ++ cs.flatten = stream (f :: fs) := by
            rw [stream_cons, ← ht, hstream]
            rfl
          have hstop : (scan (d.buf ++ c)).stop = (scan (0x54 :: 0x45 :: y)).stop := by
            rw [hx]
            cases garbage with
            | nil => rfl
            | cons g gs =>
              have hm : magicBytes <+: 0x54 :: 0x45 :: y := ⟨y, rfl⟩
              rw [scan_resync hg (List.cons_ne_nil g gs) (hx ▸ not_lt.mp hlen) hm, stop_addBad]
          obtain ⟨b, fs', hb, hfs', hv⟩ := scan_stream_part hfs hy
          refine ⟨fun dropped hd => ?_, keepsMagic_of_aligned hv ?_⟩
          · rw [hstop, hb] at hd
            cases hd
          · change (scan (d.buf ++ c)).stop.buf ++ cs.flatten = stream fs'
            rw [hstop, hb]
            exact hfs'

/-! ## Chunk independence -/

/-- **Chunk independence of `StreamDecoder`.**  Cutting a stream does not change
    the frames as long as no cut loses a magic; for valid frames behind garbage
    it is these cuts, and no others, that lose frames. -/
theorem feedAll_chunks (chunks : List (List Byte)) :
    (KeepsMagic {} chunks →
      feedAll {} chunks = (({} : StreamDecoder).feed chunks.flatten).1) ∧
    (∀ (garbage : List Byte) (fs : List Frame),
      ¬ magicBytes <:+: garbage → (∀ f ∈ fs, Valid f) →
      chunks.flatten = garbage ++ stream fs →
      (feedAll {} chunks = fs ↔ KeepsMagic {} chunks)) := by
  refine ⟨fun h => feedAll_eq_scan rfl h, fun garbage fs hg hfs hs => ⟨fun h => ?_, fun h => ?_⟩⟩
  · exact keepsMagic_of_feedAll_eq rfl hg hfs hs h
  · rw [feedAll_eq_scan rfl h]
    change (scan chunks.flatten).frames = fs
    rw [hs, scan_garbage hg hfs]

/-- A CMD frame of the device "E". -/
def cmdFrame : List Byte :=
  [0x54, 0x45, 0x01, 0x20, 0x45, 0, 0, 0, 0, 0, 0, 0, 0, 0, 0, 0, 0, 0, 0, 0, 0,
    0, 0, 0, 0, 0, 0, 0,
   0, 0, 0, 0, 4, 0, 0, 0, 1, 0, 0, 0, 0x09, 0xC5, 0x33, 0x22]

example : decode cmdFrame =
    .ok ⟨{ msgType := 0x20, deviceId := "E", seq := 0, tsMs := 0, fwVersion := 0, payloadLen := 4 },
      .known (.cmd ⟨1⟩), cmdFrame⟩ := by decide +kernel

/-- Garbage in one call, cut between the two bytes of the magic: the frame is
    lost. -/
theorem not_feedAll_eq_feed :
    ¬ ∀ chunks : List (List Byte),
      feedAll {} chunks = (({} : StreamDecoder).feed chunks.flatten).1 := by
  intro h
  have := congrArg List.length (h [List.replicate 36 0 ++ cmdFrame.take 1, cmdFrame.drop 1])
  revert this
  decide +kernel

end StreamDecoder

end EcuTelemetry.Backend
