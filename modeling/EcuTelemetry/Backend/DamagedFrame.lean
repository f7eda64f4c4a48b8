/-
  EcuTelemetry.Backend.DamagedFrame

  One frame of a stream is damaged.  `StreamDecoder` takes the length of a frame
  from its header before the checksum has vouched for it: where the damaged
  header claims more bytes than the frame had, the intact frames behind it are
  thrown away with it.  Everywhere else the damage stays with the frame.
-/

import EcuTelemetry.Backend.StreamDecoder

namespace EcuTelemetry.Backend

open Protocol

namespace StreamDecoder

/-- "TE" occurs at the start at most. -/
def MagicAtStart (bs : List Byte) : Prop := ¬ magicBytes <:+: bs.drop 1

/-- The header passes the checks, and claims more bytes than there are. -/
def Outgrows (bs : List Byte) : Prop :=
  ∃ hdr, Header.unpack bs = .ok hdr ∧ bs.length < HEADER_LEN + hdr.payloadLen + 4

/-- Past the first byte there is no magic. -/
theorem MagicAtStart.drop {bs : List Byte} (h : MagicAtStart bs) {k : Nat} (hk : 1 ≤ k) :
    ¬ magicBytes <:+: bs.drop k := by
  intro hi
  have hsplit : bs.drop k = (bs.drop 1).drop (k - 1) := by
    rw [List.drop_drop]
    congr 1
    omega
  rw [hsplit] at hi
  exact h (hi.trans (List.drop_suffix _ _).isInfix)

/-! ## In front of the damage -/

/-- Valid frames in front come out first. -/
theorem scan_stream_append {fs : List Frame} (hfs : ∀ f ∈ fs, Valid f) (t : List Byte) :
    (scan (stream fs ++ t)).frames = fs ++ (scan t).frames := by
  induction fs with
  | nil => rfl
  | cons f fs ih =>
    obtain ⟨hf, hrest⟩ := List.forall_mem_cons.mp hfs
    rw [stream_cons, List.append_assoc, scan_eq, pass_raw_append hf, frames_addFrame, ih hrest]
    rfl

/-! ## Within the frame -/

theorem length_ge_of_valid {f : Frame} (hf : Valid f) : HEADER_LEN + 4 ≤ f.raw.length := by
  have := hf.length.2
  omega

/-- A header that does not claim too much leaves the frames behind it alone. -/
theorem scan_damaged {bytes : List Byte} (hmagic : MagicAtStart bytes)
    (hlen : HEADER_LEN ≤ bytes.length)
    (hfits : ¬ Outgrows bytes) {after : List Frame} (hafter : ∀ f ∈ after, Valid f)
    (hne : after ≠ []) : ∃ extra, (scan (bytes ++ stream after)).frames = extra ++ after := by
  obtain ⟨g, rest, rfl⟩ := List.exists_cons_of_ne_nil hne
  have hg : Valid g := (List.forall_mem_cons.mp hafter).1
  cases hh : Header.unpack bytes with
  | error e =>
    have hlen' : HEADER_LEN ≤ (bytes ++ stream (g :: rest)).length := by
      rw [List.length_append]
      omega
    have hfind : findMagic (bytes.drop 1 ++ stream (g :: rest)) = some (stream (g :: rest)) :=
      (findMagic_append_of_none (findMagic_eq_none_iff.mpr hmagic)
        (not_cutsMagic_stream hafter _)).trans (findMagic_here (magic_prefix_stream hg _))
    have h36 : HEADER_LEN = 36 := rfl
    refine ⟨[], ?_⟩
    rw [scan_eq, pass_badHeader hlen' ((Header.unpack_append hlen _).trans hh),
      List.drop_append_of_le_length (by omega), hfind]
    exact scan_stream hafter
  | ok hdr =>
    have htotal : HEADER_LEN + hdr.payloadLen + 4 ≤ bytes.length :=
      not_lt.mp fun h => hfits ⟨hdr, hh, h⟩
    have hpass := pass_goodHeader ((Header.unpack_append hlen (stream (g :: rest))).trans hh)
    rw [if_neg (by rw [List.length_append]; omega), List.drop_append_of_le_length htotal] at hpass
    -- behind the claimed length there is no magic before the next frame
    have htail :=
      scan_garbage (hmagic.drop (k := HEADER_LEN + hdr.payloadLen + 4) (by omega)) hafter
    rw [scan_eq, hpass]
    cases decode ((bytes ++ stream (g :: rest)).take (HEADER_LEN + hdr.payloadLen + 4)) with
    | ok f => exact ⟨[f], congrArg (f :: ·) htail⟩
    | error e => exact ⟨[], htail⟩

/-! ## Behind the damage -/

/-- Cut off within its first frame or later, a stream yields later frames only. -/
theorem scan_drop_stream {fs : List Frame} (hfs : ∀ f ∈ fs, Valid f ∧ MagicAtStart f.raw) {k : Nat}
    (hk : 1 ≤ k) : (scan ((stream fs).drop k)).frames.Sublist (fs.drop 1) := by
  induction fs generalizing k with
  | nil =>
    rw [stream_nil, List.drop_nil]
    exact List.nil_sublist _
  | cons g rest ih =>
    obtain ⟨⟨-, hmagic⟩, hrest⟩ := List.forall_mem_cons.mp hfs
    show List.Sublist _ rest
    by_cases hle : k ≤ g.raw.length
    · rw [stream_cons, List.drop_append_of_le_length hle,
        scan_garbage (hmagic.drop hk) fun f hf => (hrest f hf).1]
    · have hdrop : (stream (g :: rest)).drop k = (stream rest).drop (k - g.raw.length) := by
        rw [stream_cons, List.drop_append, List.drop_eq_nil_of_le (by omega), List.nil_append]
      rw [hdrop]
      exact (ih hrest (by omega)).trans (List.drop_sublist 1 rest)

/-- A header that claims too much takes the next frame with it; nobody misses it
    if the bytes and the next one are that frame. -/
theorem scan_outgrown {bytes : List Byte} (hout : Outgrows bytes) (hlen : HEADER_LEN ≤ bytes.length)
    {after : List Frame} (hafter : ∀ f ∈ after, Valid f ∧ MagicAtStart f.raw)
    (hlong : HEADER_LEN + MAX_PAYLOAD + 4 ≤ (stream after).length)
    (hall : after.Sublist (scan (bytes ++ stream after)).frames) :
    ∃ g rest, after = g :: rest ∧ g.raw = bytes ++ [0x54] := by
  obtain ⟨hdr, hh, hshort⟩ := hout
  have hmax : hdr.payloadLen ≤ MAX_PAYLOAD := (Header.unpack_eq_ok hh).2.2
  obtain ⟨k, hk⟩ := Nat.exists_eq_add_of_le hshort.le
  have hpass := pass_goodHeader ((Header.unpack_append hlen (stream after)).trans hh)
  rw [if_neg (by rw [List.length_append]; omega), hk, List.drop_length_add_append,
    List.take_length_add_append] at hpass
  have hrest := scan_drop_stream hafter (k := k) (by omega)
  rw [scan_eq, hpass] at hall
  cases after with
  | nil => exact absurd hlong (by decide)
  | cons g rest =>
    have hlater : (scan ((stream (g :: rest)).drop k)).frames.Sublist rest := hrest
    cases hd : decode (bytes ++ (stream (g :: rest)).take k) with
    | error e =>
      rw [hd] at hall
      have := (hall.trans hlater).length_le
      rw [List.length_cons] at this
      omega
    | ok f =>
      rw [hd] at hall
      have hall : (g :: rest).Sublist (f :: (scan ((stream (g :: rest)).drop k)).frames) := hall
      have heq := hall.eq_of_length_le (by
        rw [List.length_cons, List.length_cons]
        exact Nat.succ_le_succ hlater.length_le)
      obtain ⟨hgf, -⟩ := List.cons.inj heq
      obtain ⟨⟨hg, hmagic⟩, -⟩ := List.forall_mem_cons.mp hafter
      obtain ⟨hh', -, hraw⟩ := decode_eq_ok hd
      rw [Header.unpack_append hlen, hh] at hh'
      obtain rfl : hdr = f.header := Except.ok.inj hh'
      obtain ⟨t, ht⟩ : magicBytes <+: stream (g :: rest) := magic_prefix_stream hg _
      have hchunk : g.raw = bytes ++ (stream (g :: rest)).take k :=
        (congrArg Frame.raw hgf).trans (by
          rw [hraw, hk, List.take_length_add_append, List.take_take, min_self])
      refine ⟨g, rest, rfl, ?_⟩
      -- two bytes of the next frame would be a magic within this one
      have hone : k = 1 := by
        by_contra hk1
        obtain ⟨j, rfl⟩ := Nat.exists_eq_add_of_le (show 2 ≤ k by omega)
        have hpre : magicBytes <+: (stream (g :: rest)).take (2 + j) :=
          ⟨t.take j, by rw [← ht, show 2 = magicBytes.length from rfl, List.take_length_add_append]⟩
        have h36 : HEADER_LEN = 36 := rfl
        rw [hchunk, MagicAtStart, List.drop_append_of_le_length (by omega)] at hmagic
        exact hmagic (hpre.isInfix.trans (List.suffix_append _ _).isInfix)
      rw [hchunk, hone, ← ht]
      rfl

/-- The case where the bytes of the damage and the next are a frame by chance. -/
theorem scan_sameBytes {bytes : List Byte} {g : Frame} {rest : List Frame}
    (hraw : g.raw = bytes ++ [0x54])
    (hafter : ∀ f ∈ g :: rest, Valid f ∧ MagicAtStart f.raw) :
    (scan (bytes ++ stream (g :: rest))).frames = g :: rest := by
  obtain ⟨⟨hg, hmagic⟩, hrest⟩ := List.forall_mem_cons.mp hafter
  obtain ⟨t, ht⟩ := magic_prefix_of_unpack hg.length.1
  have hsplit : bytes ++ stream (g :: rest) = g.raw ++ (g.raw.drop 1 ++ stream rest) := by
    rw [stream_cons]
    nth_rewrite 2 [hraw]
    rw [← ht, List.append_assoc, List.append_assoc bytes]
    rfl
  rw [hsplit, scan_eq, pass_raw_append hg, frames_addFrame,
    scan_garbage hmagic fun f hf => (hrest f hf).1]

/-! ## The damage -/

/-- One frame is damaged: the others are yielded exactly if the damaged header is
    bad or claims no more bytes than the frame had (or if what it claims is the
    next frame). -/
theorem sublist_feedAll_iff {before after : List Frame} {damaged : Frame} {bytes : List Byte}
    (hframes : ∀ f ∈ before ++ damaged :: after, Valid f ∧ MagicAtStart f.raw)
    (hlength : bytes.length = damaged.raw.length) (hmagic : MagicAtStart bytes)
    (hlong : HEADER_LEN + MAX_PAYLOAD + 4 ≤ (stream after).length) {chunks : List (List Byte)}
    (hchunks : chunks.flatten = stream before ++ (bytes ++ stream after))
    (hcuts : KeepsMagic {} chunks) :
    (before ++ after).Sublist (feedAll {} chunks) ↔
      ¬ Outgrows bytes ∨ ∃ g rest, after = g :: rest ∧ g.raw = bytes ++ [0x54] := by
  obtain ⟨hbefore, htail⟩ := List.forall_mem_append.mp hframes
  obtain ⟨⟨hdamaged, -⟩, hafter⟩ := List.forall_mem_cons.mp htail
  have hlen : HEADER_LEN ≤ bytes.length := by
    have := length_ge_of_valid hdamaged
    omega
  -- the frames before the damage come out as they are
  have hfeed : feedAll {} chunks = before ++ (scan (bytes ++ stream after)).frames := by
    rw [feedAll_eq_scan rfl hcuts]
    show (scan chunks.flatten).frames = _
    rw [hchunks, scan_stream_append fun f hf => (hbefore f hf).1]
  rw [hfeed, List.append_sublist_append_left]
  constructor
  · intro hall
    -- a length that reaches past the damage swallows what follows
    by_cases hout : Outgrows bytes
    · exact .inr (scan_outgrown hout hlen hafter hlong hall)
    · exact .inl hout
  · rintro (hfits | ⟨g, rest, rfl, hraw⟩)
    -- no frame after it: then it could not be long enough
    · have hne : after ≠ [] := by
        rintro rfl
        exact absurd hlong (by decide)
      obtain ⟨extra, hextra⟩ := scan_damaged hmagic hlen hfits (fun f hf => (hafter f hf).1) hne
      rw [hextra]
      exact List.sublist_append_right _ _
    · rw [scan_sameBytes hraw hafter]

/-- The CMD frame of the device "E". -/
def cmdE : Frame where
  header :=
    { msgType := 0x20, deviceId := "E", seq := 0, tsMs := 0, fwVersion := 0, payloadLen := 4 }
  payload := .known (.cmd ⟨1⟩)
  raw := cmdFrame

theorem cmdE_valid : Valid cmdE ∧ MagicAtStart cmdE.raw :=
  ⟨by show decode cmdFrame = .ok cmdE; decide +kernel,
    by show ¬ magicBytes <:+: cmdFrame.drop 1; decide⟩

/-- A header byte of the frame, with other bits. -/
def cmdDamaged (i : Nat) (b : Byte) : List Byte := cmdFrame.set i b

theorem cmds_valid (n : Nat) : ∀ f ∈ List.replicate n cmdE, Valid f ∧ MagicAtStart f.raw :=
  fun _ hf => List.eq_of_mem_replicate hf ▸ cmdE_valid

theorem stream_cmds_length :
    HEADER_LEN + MAX_PAYLOAD + 4 ≤ (stream (List.replicate 25 cmdE)).length := by
  decide +kernel

/-- A payload length of 5 instead of 4: the next frame is lost. -/
theorem damage_spreads :
    ¬ ∀ (before after : List Frame) (damaged : Frame) (bytes : List Byte),
      (∀ f ∈ before ++ damaged :: after, Valid f ∧ MagicAtStart f.raw) →
      bytes.length = damaged.raw.length → bytes ≠ damaged.raw → MagicAtStart bytes →
      HEADER_LEN + MAX_PAYLOAD + 4 ≤ (stream after).length →
      (before ++ after).Sublist
        (({} : StreamDecoder).feed (stream before ++ (bytes ++ stream after))).1 := by
  intro h
  have hmagic : MagicAtStart (cmdDamaged 32 5) := by
    show ¬ magicBytes <:+: (cmdDamaged 32 5).drop 1
    decide
  -- one changed byte makes the length field one too large
  have hout : Outgrows (cmdDamaged 32 5) :=
    ⟨{ cmdE.header with payloadLen := 5 }, by decide +kernel, by decide⟩
  obtain ⟨cmds, hcmds⟩ : ∃ cmds, cmds = List.replicate 25 cmdE := ⟨_, rfl⟩
  have hvalid : ∀ f ∈ cmdE :: cmds, Valid f ∧ MagicAtStart f.raw := hcmds ▸ cmds_valid 26
  have hafter := (List.forall_mem_cons.mp hvalid).2
  have hlong : HEADER_LEN + MAX_PAYLOAD + 4 ≤ (stream cmds).length := hcmds ▸ stream_cmds_length
  have hall : cmds.Sublist (scan (cmdDamaged 32 5 ++ stream cmds)).frames :=
    h [] cmds cmdE (cmdDamaged 32 5) hvalid rfl (by decide +kernel) hmagic hlong
  obtain ⟨g, rest, heq, hraw⟩ := scan_outgrown hout (by decide) hafter hlong hall
  have hg : g = cmdE := List.eq_of_mem_replicate (hcmds ▸ heq ▸ List.mem_cons_self)
  -- the frame lost would be the damaged bytes and one byte of the next frame
  rw [hg] at hraw
  have hlength : 44 = 45 := congrArg List.length hraw
  cases hlength

/-- A damaged message type costs nothing else. -/
theorem sublist_feedAll_iff_type :
    (List.replicate 25 cmdE).Sublist
      (feedAll {} [cmdDamaged 3 0 ++ stream (List.replicate 25 cmdE)]) :=
  have hmagic : MagicAtStart (cmdDamaged 3 0) := by
    show ¬ magicBytes <:+: (cmdDamaged 3 0).drop 1
    decide
  have hunpack : Header.unpack (cmdDamaged 3 0) = .ok { cmdE.header with msgType := 0 } := by
    decide +kernel
  have hfits : ¬ Outgrows (cmdDamaged 3 0) := by
    rintro ⟨hdr, hh, hlt⟩
    rw [hunpack] at hh
    cases hh
    exact absurd hlt (by decide)
  have hcuts : KeepsMagic {} [cmdDamaged 3 0 ++ stream (List.replicate 25 cmdE)] :=
    ⟨fun _ _ hcut => absurd hcut.2 (by decide), trivial⟩
  have hlength : (cmdDamaged 3 0).length = cmdE.raw.length := rfl
  have hframes : ∀ f ∈ [] ++ cmdE :: List.replicate 25 cmdE, Valid f ∧ MagicAtStart f.raw :=
    cmds_valid 26
  (sublist_feedAll_iff hframes hlength hmagic stream_cmds_length (List.append_nil _) hcuts).mpr
    (.inl hfits)

end StreamDecoder

end EcuTelemetry.Backend
