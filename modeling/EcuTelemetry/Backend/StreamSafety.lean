/-
  EcuTelemetry.Backend.StreamSafety

  `StreamDecoder` on arbitrary bytes.  Every call of `feed` ends without an
  exception, what it yields are pieces of the stream with a valid magic, version,
  length and CRC, one behind the other, and what it keeps is less than the
  longest frame.
-/

import EcuTelemetry.Backend.StreamDecoder

namespace EcuTelemetry.Backend

open Protocol

/-! ## What `decode` has checked -/

/-- The bytes of the frame pass all checks of the format. -/
structure Protocol.Frame.WellFormed (f : Frame) : Prop where
  magic : leNat (f.raw.take 2) = MAGIC
  version : leNat ((f.raw.drop 2).take 1) = VERSION
  payloadLen : leNat ((f.raw.drop 32).take 2) ≤ MAX_PAYLOAD
  length : f.raw.length = HEADER_LEN + leNat ((f.raw.drop 32).take 2) + 4
  crc : zlibCrc32 (f.raw.take (f.raw.length - 4)) = leNat (f.raw.drop (f.raw.length - 4))

/-- The fields of an accepted header, at their offsets. -/
theorem Protocol.Header.unpack_fields {buf : List Byte} {hdr : Header}
    (h : Header.unpack buf = .ok hdr) :
    leNat (buf.take 2) = MAGIC ∧ leNat ((buf.drop 2).take 1) = VERSION ∧
      leNat ((buf.drop 32).take 2) = hdr.payloadLen := by
  have hread : (HeaderFields.read buf).magic = leNat (buf.take 2) ∧
      (HeaderFields.read buf).ver = leNat ((buf.drop 2).take 1) ∧
      (HeaderFields.read buf).plen = leNat ((buf.drop 32).take 2) := by
    refine ⟨rfl, rfl, ?_⟩
    simp only [HeaderFields.read, readU, readS, List.drop_drop, Nat.reduceAdd]
  obtain ⟨hm, hv, hp⟩ := hread
  rw [Header.unpack] at h
  split at h
  · cases h
  · split at h
    · cases h
    · next hmagic =>
      split at h
      · cases h
      · next hver =>
        split at h
        · cases h
        · cases h
          exact ⟨hm ▸ not_not.mp hmagic, hv ▸ not_not.mp hver, hp.symm⟩

/-- The checksum of a decoded frame is right. -/
theorem Protocol.crc_of_decode {buf : List Byte} {f : Frame} (h : decode buf = .ok f) :
    zlibCrc32 (f.raw.take (f.raw.length - 4)) = leNat (f.raw.drop (f.raw.length - 4)) := by
  obtain ⟨hh, hlen, hraw⟩ := decode_eq_ok h
  have htotal : f.raw.length = HEADER_LEN + f.header.payloadLen + 4 := by
    rw [hraw, List.length_take]
    omega
  rw [decode, hh] at h
  dsimp only at h
  rw [if_neg (not_lt.mpr hlen), ← hraw, ← htotal] at h
  split at h
  · cases h
  · next hcrc => exact not_not.mp hcrc

/-- A decoded frame is well formed. -/
theorem Protocol.wellFormed_of_decode {buf : List Byte} {f : Frame} (h : decode buf = .ok f) :
    f.WellFormed := by
  obtain ⟨hh, hlen, hraw⟩ := decode_eq_ok h
  have h36 : HEADER_LEN = 36 := rfl
  have htotal : f.raw.length = HEADER_LEN + f.header.payloadLen + 4 := by
    rw [hraw, List.length_take]
    omega
  have hunpack : Header.unpack f.raw = .ok f.header := by
    rw [hraw, ← hh, ← List.take_append_drop (HEADER_LEN + f.header.payloadLen + 4) buf,
      List.take_append_drop]
    nth_rewrite 2 [← List.take_append_drop (HEADER_LEN + f.header.payloadLen + 4) buf]
    exact (Header.unpack_append (by rw [List.length_take]; omega) _).symm
  obtain ⟨hmagic, hver, hplen⟩ := Header.unpack_fields hunpack
  exact ⟨hmagic, hver, hplen ▸ (Header.unpack_eq_ok hunpack).2.2, hplen ▸ htotal, crc_of_decode h⟩

namespace StreamDecoder

/-! ## The loop with its exceptions -/

/-- One pass, in which `except ProtocolError` catches that and nothing else. -/
def tryPass (buf : List Byte) : Except PyError Pass :=
  if buf.length < HEADER_LEN then .ok .wait
  else
    match Header.unpack (buf.take HEADER_LEN) with
    | .error (.protocol _ _) =>
      match findMagic (buf.drop 1) with
      | none => .ok (.clear (buf.drop 1))
      | some rest => .ok (.resync rest)
    -- not caught, so it would leave `feed`
    | .error e => .error e
    | .ok hdr =>
      let total := HEADER_LEN + hdr.payloadLen + 4
      if buf.length < total then .ok .wait
      else
        match decode (buf.take total) with
        | .ok f => .ok (.frame f (buf.drop total))
        | .error (.protocol _ _) => .ok (.badFrame (buf.drop total))
        | .error e => .error e

/-- The loop; `none` if it has not ended within so many passes. -/
def tryLoop : Nat → List Byte → Except PyError (Option Scan)
  | 0, _ => .ok none
  | passes + 1, buf =>
    match tryPass buf with
    | .error e => .error e
    | .ok .wait => .ok (some ⟨[], 0, .keep buf⟩)
    | .ok (.clear d) => .ok (some ⟨[], 1, .clear d⟩)
    | .ok (.resync rest) => (tryLoop passes rest).map (·.map Scan.addBad)
    | .ok (.frame f rest) => (tryLoop passes rest).map (·.map (Scan.addFrame · f))
    | .ok (.badFrame rest) => (tryLoop passes rest).map (·.map Scan.addBad)

/-- No exception gets past the two `except` clauses. -/
theorem tryPass_eq (buf : List Byte) : tryPass buf = .ok (pass buf) := by
  rw [tryPass, pass]
  split
  · rfl
  · cases hh : Header.unpack (buf.take HEADER_LEN) with
    | error e =>
      obtain ⟨kind, msg, rfl⟩ := Header.unpack_error hh
      dsimp only
      cases findMagic (buf.drop 1) <;> rfl
    | ok hdr =>
      dsimp only
      split
      · rfl
      · cases hd : decode (buf.take (HEADER_LEN + hdr.payloadLen + 4)) with
        | error e =>
          obtain ⟨kind, msg, rfl⟩ := decode_onlyProtocol _ e hd
          rfl
        | ok f => rfl

/-- The loop ends within as many passes as there are bytes, and one more. -/
theorem tryLoop_eq {n : Nat} {buf : List Byte} (h : buf.length < n) :
    tryLoop n buf = .ok (some (scan buf)) := by
  induction n generalizing buf with
  | zero => exact absurd h (Nat.not_lt_zero _)
  | succ n ih =>
    -- every pass consumes a byte, so the fuel covers the rest
    have hrest : ∀ rest : List Byte, rest.length < buf.length →
        tryLoop n rest = .ok (some (scan rest)) := fun rest hr => ih (by omega)
    rw [tryLoop, tryPass_eq, scan_eq]
    cases hp : pass buf with
    | wait => rfl
    | clear d => rfl
    | resync rest =>
      dsimp only
      rw [hrest rest (pass_rest (.inl hp))]
      rfl
    | frame f rest =>
      dsimp only
      rw [hrest rest (pass_rest (.inr (.inl ⟨f, hp⟩)))]
      rfl
    | badFrame rest =>
      dsimp only
      rw [hrest rest (pass_rest (.inr (.inr hp)))]
      rfl

/-! ## Where the frames are -/

/-- The frames lie in the bytes one behind the other, with anything in between. -/
def Scattered : List Frame → List Byte → Prop
  | [], _ => True
  | f :: fs, bs => ∃ gap rest, bs = gap ++ (f.raw ++ rest) ∧ Scattered fs rest

/-- Two stretches of a stream. -/
theorem Scattered.append {fs gs : List Frame} {xs ys : List Byte} (h : Scattered fs xs)
    (h' : Scattered gs ys) : Scattered (fs ++ gs) (xs ++ ys) := by
  induction fs generalizing xs with
  | nil =>
    cases gs with
    | nil => trivial
    | cons g gs =>
      obtain ⟨gap, rest, rfl, hrest⟩ := h'
      exact ⟨xs ++ gap, rest, by rw [List.append_assoc], hrest⟩
  | cons f fs ih =>
    obtain ⟨gap, rest, rfl, hrest⟩ := h
    exact ⟨gap, rest ++ ys, by simp only [List.append_assoc], ih hrest⟩

/-- Everything that one pass takes off the buffer lies in front of what it leaves. -/
theorem pass_frame {buf rest : List Byte} {f : Frame} (h : pass buf = .frame f rest) :
    buf = f.raw ++ rest ∧ f.WellFormed := by
  rcases pass_cases buf with hw | ⟨-, -, ⟨-, hc⟩ | ⟨r, -, hr⟩⟩ |
      ⟨hdr, hh, hlen, ⟨g, hd, hf⟩ | ⟨-, hb⟩⟩
  · rw [hw] at h; cases h
  · rw [hc] at h; cases h
  · rw [hr] at h; cases h
  · rw [hf] at h
    cases h
    obtain ⟨hh', -, hraw⟩ := decode_eq_ok hd
    have htot := (Header.unpack_append (Header.unpack_eq_ok hh').1
      (buf.drop (HEADER_LEN + hdr.payloadLen + 4))).trans hh'
    rw [List.take_append_drop, hh] at htot
    cases htot
    refine ⟨?_, wellFormed_of_decode hd⟩
    rw [hraw, List.take_take, min_self, List.take_append_drop]
  · rw [hb] at h; cases h

/-- A pass drops bytes at the front only. -/
theorem pass_suffix {buf rest : List Byte}
    (h : pass buf = .resync rest ∨ pass buf = .badFrame rest) :
    rest <:+ buf := by
  rcases pass_cases buf with hw | ⟨-, -, ⟨-, hc⟩ | ⟨r, hfind, hr⟩⟩ |
      ⟨hdr, hh, hlen, ⟨g, hd, hf⟩ | ⟨-, hb⟩⟩
  · rw [hw] at h; simp at h
  · rw [hc] at h; simp at h
  · rw [hr] at h
    simp only [Pass.resync.injEq, reduceCtorEq, or_false] at h
    exact h ▸ (findMagic_eq_some hfind).2.trans (List.drop_suffix 1 buf)
  · rw [hf] at h; simp at h
  · rw [hb] at h
    simp only [Pass.badFrame.injEq, reduceCtorEq, false_or] at h
    exact h ▸ List.drop_suffix _ buf

/-- One call of `feed`: the frames are in the bytes it uses up. -/
theorem scan_split (buf : List Byte) : ∃ used, buf = used ++ (scan buf).stop.buf ∧
    Scattered (scan buf).frames used ∧ ∀ f ∈ (scan buf).frames, f.WellFormed := by
  -- bytes that are skipped change nothing
  have hskip : ∀ buf rest : List Byte, rest <:+ buf → (∃ used, rest = used ++ (scan rest).stop.buf ∧
      Scattered (scan rest).frames used ∧ ∀ f ∈ (scan rest).frames, f.WellFormed) →
      ∃ used, buf = used ++ (scan rest).stop.buf ∧ Scattered (scan rest).frames used ∧
        ∀ f ∈ (scan rest).frames, f.WellFormed := by
    rintro buf rest ⟨skipped, rfl⟩ ⟨used, hrest, hscat, hwf⟩
    refine ⟨skipped ++ used, ?_, ?_, hwf⟩
    · rw [List.append_assoc, ← hrest]
    · have hnone : Scattered [] skipped := trivial
      exact hnone.append hscat
  induction buf using scan_induction with
  | wait buf hp =>
    rw [scan_eq, hp]
    exact ⟨[], rfl, trivial, nofun⟩
  | clear buf d hp =>
    rw [scan_eq, hp]
    exact ⟨buf, (List.append_nil buf).symm, trivial, nofun⟩
  | resync buf rest hp ih =>
    rw [scan_eq, hp]
    exact hskip buf rest (pass_suffix (.inl hp)) ih
  | badFrame buf rest hp ih =>
    rw [scan_eq, hp]
    exact hskip buf rest (pass_suffix (.inr hp)) ih
  | frame buf f rest hp ih =>
    rw [scan_eq, hp]
    obtain ⟨hbuf, hf⟩ := pass_frame hp
    obtain ⟨used, hrest, hscat, hwf⟩ := ih
    refine ⟨f.raw ++ used, ?_, ⟨[], used, rfl, hscat⟩, List.forall_mem_cons.mpr ⟨hf, hwf⟩⟩
    rw [hbuf, List.append_assoc]
    exact congrArg (f.raw ++ ·) hrest

/-- What is kept is shorter than the longest frame. -/
theorem scan_kept (buf : List Byte) :
    (scan buf).stop.buf.length < HEADER_LEN + MAX_PAYLOAD + 4 := by
  induction buf using scan_induction with
  | wait buf hp =>
    rw [scan_eq, hp]
    show buf.length < _
    -- a scan waits for a header, or for the rest of a frame of bounded length
    by_cases hlen : buf.length < HEADER_LEN
    · omega
    · cases hh : Header.unpack buf with
      | error e =>
        rw [pass_badHeader (not_lt.mp hlen) hh] at hp
        cases hf : findMagic (buf.drop 1) <;> rw [hf] at hp <;> cases hp
      | ok hdr =>
        rw [pass_goodHeader hh] at hp
        split at hp
        · next hshort =>
          have := (Header.unpack_eq_ok hh).2.2
          omega
        · cases hd : decode (buf.take (HEADER_LEN + hdr.payloadLen + 4)) <;>
            rw [hd] at hp <;> cases hp
  | clear buf d hp =>
    rw [scan_eq, hp]
    exact Nat.succ_pos _
  | resync buf rest hp ih => rw [scan_eq, hp]; exact ih
  | frame buf f rest hp ih => rw [scan_eq, hp]; exact ih
  | badFrame buf rest hp ih => rw [scan_eq, hp]; exact ih

/-! ## Every run -/

/-- The decoder after some calls. -/
def fed (d : StreamDecoder) (chunks : List (List Byte)) : StreamDecoder :=
  chunks.foldl (fun d c => (d.feed c).2) d

/-- What any calls yield and keep of the bytes they got. -/
theorem feedAll_split (d : StreamDecoder) (chunks : List (List Byte)) :
    ∃ used, d.buf ++ chunks.flatten = used ++ (d.fed chunks).buf ∧
      Scattered (d.feedAll chunks) used ∧ ∀ f ∈ d.feedAll chunks, f.WellFormed := by
  induction chunks generalizing d with
  | nil => exact ⟨[], List.append_nil _, trivial, nofun⟩
  | cons c cs ih =>
    obtain ⟨first, hfirst, hscat, hwf⟩ := scan_split (d.buf ++ c)
    obtain ⟨later, hlater, hscat', hwf'⟩ := ih (d.feed c).2
    refine ⟨first ++ later, ?_, hscat.append hscat', List.forall_mem_append.mpr ⟨hwf, hwf'⟩⟩
    rw [List.flatten_cons, ← List.append_assoc, hfirst, List.append_assoc, List.append_assoc]
    exact congrArg (first ++ ·) hlater

/-- `StreamDecoder` on any bytes in any pieces: each call ends without raising,
    the frames are disjoint valid pieces of the stream in its order, and the
    buffer is the end of the stream, shorter than the longest frame. -/
theorem stream_safe (chunks : List (List Byte)) :
    (∀ data, ∃ passes, tryLoop passes ((fed {} chunks).buf ++ data) =
      .ok (some (scan ((fed {} chunks).buf ++ data)))) ∧
    (Scattered (feedAll {} chunks) chunks.flatten ∧ ∀ f ∈ feedAll {} chunks, f.WellFormed) ∧
    (fed {} chunks).buf <:+ chunks.flatten ∧
    (fed {} chunks).buf.length < HEADER_LEN + MAX_PAYLOAD + 4 := by
  obtain ⟨used, hsplit, hscat, hwf⟩ := feedAll_split {} chunks
  have hflatten : chunks.flatten = used ++ (fed {} chunks).buf := hsplit
  refine ⟨fun data => ⟨_, tryLoop_eq (Nat.lt_succ_self _)⟩, ⟨?_, hwf⟩, ⟨used, hflatten.symm⟩, ?_⟩
  · rw [hflatten, ← List.append_nil (feedAll {} chunks)]
    exact hscat.append trivial
  · rcases chunks.eq_nil_or_concat with rfl | ⟨cs, c, hcs⟩
    · exact Nat.succ_pos _
    · rw [hcs, List.concat_eq_append, fed, List.foldl_append]
      exact scan_kept _

end StreamDecoder

end EcuTelemetry.Backend
