/-
  EcuTelemetry.Wire.VersionTexts

  Two parsers of firmware versions: `fw_encode` of the backend, whose parts are
  read by Python's `int`, and the strict `parseFwVersion` of the firmware.  On
  digits and dots they agree; everything else the backend takes (blanks, signs,
  underscores, other decimal digits) the firmware refuses.

  Then a version on its way through the 16-byte field of an FW_UPDATE to the
  device and back in the HELLO after the reboot.
-/

import EcuTelemetry.Firmware.RoundTrip
import EcuTelemetry.Firmware.VersionText
import EcuTelemetry.Wire.Golden

namespace EcuTelemetry.Wire

open Backend Backend.Protocol Digits

/-! ## `int` on digits -/

/-- A digit or a dot. -/
def plainByte (b : Byte) : Bool := isDigit b || b = 0x2E

theorem plainByte_lt {b : Byte} (h : plainByte b = true) : b.toNat < 128 := by
  rw [plainByte, Bool.or_eq_true, isDigit_iff, decide_eq_true_eq] at h
  rcases h with h | rfl
  · omega
  · decide

theorem asciiChar_digit {b : Byte} (h : isDigit b = true) :
    digitValue (asciiChar b) = some (digit b) := by
  obtain ⟨hlow, hhigh⟩ := isDigit_iff.mp h
  have hchar := asciiChar_toNat (b := b) (by omega)
  rw [digitValue, hchar, unicodeZeros, List.find?_cons_of_pos (by simp; omega), digit]
  rfl

theorem asciiChar_dot : asciiChar 0x2E = '.' := by decide

/-- A plain byte is no blank. -/
theorem isSpace_asciiChar {b : Byte} (h : plainByte b = true) : isSpace (asciiChar b) = false := by
  have hlt := plainByte_lt h
  rw [plainByte, Bool.or_eq_true, isDigit_iff, decide_eq_true_eq] at h
  rw [isSpace, asciiChar_toNat hlt]
  rcases h with h | rfl
  · simp
    omega
  · decide

theorem isSpace_of_isNumberSpace {c : Char} (h : isNumberSpace c = true) : isSpace c = true :=
  (Bool.and_eq_true_iff.mp h).1

/-- There is nothing to strip. -/
theorem stripBy_plain {p : Char → Bool} (hp : ∀ c, p c = true → isSpace c = true) {s : List Byte}
    (h : ∀ b ∈ s, plainByte b = true) : stripBy p (s.map asciiChar) = s.map asciiChar := by
  have hspace : ∀ c ∈ s.map asciiChar, ¬ p c = true := by
    intro c hc hpc
    obtain ⟨b, hb, rfl⟩ := List.mem_map.mp hc
    have hblank := hp _ hpc
    rw [isSpace_asciiChar (h b hb)] at hblank
    cases hblank
  have hdrop : (s.map asciiChar).dropWhile p = s.map asciiChar :=
    List.dropWhile_eq_self_iff.mpr fun hl => hspace _ (List.getElem_mem hl)
  rw [stripBy, hdrop]
  exact List.rdropWhile_eq_self_iff.mpr fun hl => hspace _ (List.getLast_mem hl)

theorem strip_plain {s : List Byte} (h : ∀ b ∈ s, plainByte b = true) :
    strip (s.map asciiChar) = s.map asciiChar := stripBy_plain (fun _ hc => hc) h

/-- One more digit. -/
theorem digitsValue_cons {c : Char} {d : ℕ} (h : digitValue c = some d)
    (afterDigit : Bool) (acc : ℕ) (cs : List Char) :
    digitsValue afterDigit acc (c :: cs) = digitsValue true (acc * 10 + d) cs := by
  have hunderscore : c ≠ '_' := by
    rintro rfl
    revert h
    decide +revert
  rw [digitsValue.eq_3 _ _ _ _ (fun h => hunderscore h), h]

theorem digitsValue_run {ds : List Byte} (h : ∀ b ∈ ds, isDigit b = true) (acc : ℕ) :
    digitsValue true acc (ds.map asciiChar) = some (valueFrom acc ds) := by
  induction ds generalizing acc with
  | nil => rfl
  | cons b ds ih =>
    obtain ⟨hb, hds⟩ := List.forall_mem_cons.mp h
    rw [List.map_cons, digitsValue_cons (asciiChar_digit hb), ih hds, valueFrom_cons]

/-- A dot is no part of a number. -/
theorem isDigit_of_digitsValue {s : List Byte} (h : ∀ b ∈ s, plainByte b = true) {afterDigit : Bool}
    {acc n : ℕ} (hvalue : digitsValue afterDigit acc (s.map asciiChar) = some n) :
    ∀ b ∈ s, isDigit b = true := by
  induction s generalizing afterDigit acc with
  | nil => nofun
  | cons b s ih =>
    obtain ⟨hb, hs⟩ := List.forall_mem_cons.mp h
    rw [List.map_cons] at hvalue
    by_cases hdigit : isDigit b = true
    · rw [digitsValue_cons (asciiChar_digit hdigit)] at hvalue
      exact List.forall_mem_cons.mpr ⟨hdigit, ih hs hvalue⟩
    · exfalso
      have hdot : b = 0x2E := by simpa [plainByte, hdigit] using hb
      rw [hdot, asciiChar_dot, digitsValue.eq_3 _ _ _ _ (by decide),
        show digitValue '.' = none by decide] at hvalue
      cases hvalue

/-- `int` on a text of digits and dots. -/
theorem pyInt_plain {s : List Byte} (h : ∀ b ∈ s, plainByte b = true) (hlen : s.length ≤ 4300)
    {n : ℤ} : pyInt (s.map asciiChar) = some n ↔ IsRun s ∧ n = value s := by
  -- no plain byte is a sign
  have hsign : ∀ c, c = '-' ∨ c = '+' → ∀ b ∈ s, asciiChar b ≠ c := by
    intro c hc b hb heq
    have hnat := congrArg Char.toNat heq
    have hplain := h b hb
    rw [asciiChar_toNat (plainByte_lt hplain)] at hnat
    rw [plainByte, Bool.or_eq_true, isDigit_iff, decide_eq_true_eq] at hplain
    rcases hplain with hplain | rfl
    · rcases hc with rfl | rfl
      · have : b.toNat = 45 := hnat
        omega
      · have : b.toNat = 43 := hnat
        omega
    · revert hnat
      rcases hc with rfl | rfl <;> decide
  -- so `int()` comes down to the digits
  have hpy : pyInt (s.map asciiChar) =
      (digitsValue false 0 (s.map asciiChar)).map fun k : ℕ => (k : ℤ) := by
    have hshort : ¬ ((s.map asciiChar).filter (· ≠ '_')).length > 4300 := by
      have hle := List.length_filter_le (· ≠ '_') (s.map asciiChar)
      rw [List.length_map] at hle
      omega
    rw [pyInt, stripBy_plain (fun _ => isSpace_of_isNumberSpace) h]
    split
    next neg cs hcs =>
    obtain ⟨rfl, rfl⟩ : neg = false ∧ cs = s.map asciiChar := by
      split at hcs
      · next t ht =>
        obtain ⟨b, hb, heq⟩ := List.mem_map.mp (ht ▸ List.mem_cons_self : '-' ∈ s.map asciiChar)
        exact absurd heq (hsign '-' (.inl rfl) b hb)
      · next t ht =>
        obtain ⟨b, hb, heq⟩ := List.mem_map.mp (ht ▸ List.mem_cons_self : '+' ∈ s.map asciiChar)
        exact absurd heq (hsign '+' (.inr rfl) b hb)
      · obtain ⟨rfl, rfl⟩ := Prod.mk.inj hcs
        exact ⟨rfl, rfl⟩
    rw [if_neg hshort]
    cases digitsValue false 0 (s.map asciiChar) <;> rfl
  rw [hpy]
  constructor
  -- an empty text has no value, and an underscore is no plain byte
  · intro hvalue
    obtain ⟨m, hm, rfl⟩ := Option.map_eq_some_iff.mp hvalue
    have hdigits := isDigit_of_digitsValue h hm
    rcases s with _ | ⟨b, s⟩
    · cases hm
    · rw [List.map_cons, digitsValue_cons (asciiChar_digit (hdigits b List.mem_cons_self)),
        digitsValue_run fun c hc => hdigits c (List.mem_cons_of_mem b hc)] at hm
      obtain rfl := Option.some.inj hm
      exact ⟨⟨List.cons_ne_nil b s, hdigits⟩, by rw [value, valueFrom_cons]⟩
  · rintro ⟨hrun, rfl⟩
    rcases s with _ | ⟨b, s⟩
    · exact absurd rfl hrun.ne_nil
    · obtain ⟨hb, hs⟩ := List.forall_mem_cons.mp hrun.digits
      rw [List.map_cons, digitsValue_cons (asciiChar_digit hb), digitsValue_run hs, value,
        valueFrom_cons]
      rfl

/-! ## The two parsers -/

/-- Version parts that fit their fields do not overlap. -/
theorem or_fields {major minor patch : ℕ} (hminor : minor ≤ 255) (hpatch : patch ≤ 255) :
    major <<< 16 ||| minor <<< 8 ||| patch = major * 65536 + minor * 256 + patch := by
  have hlow : minor <<< 8 < 2 ^ 16 := by
    rw [Nat.shiftLeft_eq]
    omega
  have hsplit : major <<< 16 + minor <<< 8 = (major * 256 + minor) <<< 8 := by
    simp only [Nat.shiftLeft_eq]
    omega
  rw [← Nat.shiftLeft_add_eq_or_of_lt hlow, hsplit,
    ← Nat.shiftLeft_add_eq_or_of_lt (show patch < 2 ^ 8 by omega), Nat.shiftLeft_eq]
  omega

theorem asciiDecode_toList (s : List Byte) : (asciiDecode s).toList = s.map asciiChar := by
  rw [asciiDecode, String.toList_ofList]

/-- The parts of a text of digits and dots. -/
theorem splitOn_dots {s d₁ d₂ d₃ : List Byte} (hs : s = d₁ ++ 0x2E :: (d₂ ++ 0x2E :: d₃))
    (h₁ : IsRun d₁) (h₂ : IsRun d₂) (h₃ : IsRun d₃) :
    splitOn '.' (s.map asciiChar) = [d₁.map asciiChar, d₂.map asciiChar, d₃.map asciiChar] := by
  have hdots : ∀ ds, IsRun ds → '.' ∉ ds.map asciiChar := by
    intro ds hds hmem
    obtain ⟨b, hb, heq⟩ := List.mem_map.mp hmem
    have hvalue := asciiChar_digit (hds.digits b hb)
    rw [heq, show digitValue '.' = none by decide] at hvalue
    cases hvalue
  have hjoin : s.map asciiChar =
      ['.'].intercalate [d₁.map asciiChar, d₂.map asciiChar, d₃.map asciiChar] := by
    rw [hs, List.map_append, List.map_cons, List.map_append, List.map_cons, asciiChar_dot]
    simp [List.intercalate]
  rw [splitOn, hjoin, List.splitOn_intercalate _ _ (List.cons_ne_nil _ _)]
  intro l hl
  simp only [List.mem_cons, List.not_mem_nil, or_false] at hl
  rcases hl with rfl | rfl | rfl
  · exact hdots d₁ h₁
  · exact hdots d₂ h₂
  · exact hdots d₃ h₃

/-- Three parts of such a text, as bytes. -/
theorem bytes_of_splitOn {s : List Byte} (h : ∀ b ∈ s, plainByte b = true) {a b c : List Char}
    (hparts : splitOn '.' (s.map asciiChar) = [a, b, c]) :
    ∃ d₁ d₂ d₃, s = d₁ ++ 0x2E :: (d₂ ++ 0x2E :: d₃) ∧ a = d₁.map asciiChar ∧
      b = d₂.map asciiChar ∧ c = d₃.map asciiChar := by
  have hjoin : s.map asciiChar = a ++ '.' :: (b ++ '.' :: c) := by
    rw [← @List.intercalate_splitOn _ (s.map asciiChar) _ _ '.', ← splitOn, hparts]
    simp [List.intercalate]
  have hdot : ∀ x ∈ s, asciiChar x = '.' → x = 0x2E := by
    intro x hx heq
    have hnat := congrArg Char.toNat heq
    rw [asciiChar_toNat (plainByte_lt (h x hx))] at hnat
    exact UInt8.toNat_inj.mp hnat
  obtain ⟨d₁, rest, rfl, ha, hrest⟩ := List.map_eq_append_iff.mp hjoin
  obtain ⟨x, rest', rfl, hx, hrest'⟩ := List.map_eq_cons_iff.mp hrest
  obtain ⟨d₂, rest'', rfl, hb, hrest''⟩ := List.map_eq_append_iff.mp hrest'
  obtain ⟨y, d₃, rfl, hy, hc⟩ := List.map_eq_cons_iff.mp hrest''
  obtain rfl := hdot x (by simp) hx
  obtain rfl := hdot y (by simp) hy
  exact ⟨d₁, d₂, d₃, rfl, ha.symm, hb.symm, hc.symm⟩

/-- `parseFwVersion` takes exactly what `fw_encode` takes of the texts of digits and dots,
    for the same value. -/
theorem parseFwVersion_iff_fwEncode {s : List Byte} (hlen : s.length ≤ 4300) {v : UInt32} :
    Firmware.parseFwVersion s = some v ↔
      (∀ b ∈ s, plainByte b = true) ∧ fwEncode (asciiDecode s) = .ok v.toNat := by
  constructor
  -- what the device takes is three runs of digits between dots
  · intro hparse
    obtain ⟨major, minor, patch, ⟨⟨d₁, d₂, d₃, hs, ⟨h₁, h₂, h₃⟩, rfl, rfl, rfl⟩, hmajor, hminor,
      hpatch⟩, rfl⟩ := (Firmware.parseFwVersion_exact.1 s v).mp hparse
    have hrun : ∀ ds : List Byte, IsRun ds → ∀ b ∈ ds, plainByte b = true :=
      fun ds hds b hb => by rw [plainByte, hds.digits b hb, Bool.true_or]
    have hplain : ∀ b ∈ s, plainByte b = true := by
      intro b hb
      rw [hs] at hb
      simp only [List.mem_append, List.mem_cons] at hb
      rcases hb with hb | rfl | hb | rfl | hb
      · exact hrun d₁ h₁ b hb
      · rfl
      · exact hrun d₂ h₂ b hb
      · rfl
      · exact hrun d₃ h₃ b hb
    -- `int()` refuses more than 4300 digits
    have hlens : d₁.length ≤ 4300 ∧ d₂.length ≤ 4300 ∧ d₃.length ≤ 4300 := by
      rw [hs] at hlen
      simp only [List.length_append, List.length_cons] at hlen
      omega
    refine ⟨hplain, ?_⟩
    rw [fwEncode, asciiDecode_toList, strip_plain hplain, splitOn_dots hs h₁ h₂ h₃]
    dsimp only
    rw [(pyInt_plain (hrun d₁ h₁) hlens.1).mpr ⟨h₁, rfl⟩,
      (pyInt_plain (hrun d₂ h₂) hlens.2.1).mpr ⟨h₂, rfl⟩,
      (pyInt_plain (hrun d₃ h₃) hlens.2.2).mpr ⟨h₃, rfl⟩]
    dsimp only
    rw [if_pos (by omega), Int.toNat_natCast, Int.toNat_natCast, Int.toNat_natCast,
      or_fields hminor hpatch, Firmware.packVersion_toNat hmajor hminor hpatch]
  -- each `int()` of a plain part is a run of digits: no sign, no underscore, no blank
  · rintro ⟨hplain, hencode⟩
    rw [fwEncode, asciiDecode_toList, strip_plain hplain] at hencode
    split at hencode
    · next a b c hparts =>
      split at hencode
      · next major minor patch hmajor hminor hpatch =>
        split at hencode
        · next hrange =>
          obtain ⟨d₁, d₂, d₃, hs, rfl, rfl, rfl⟩ := bytes_of_splitOn hplain hparts
          have hmem : ∀ ds : List Byte, ds ⊆ s → ds.length ≤ s.length →
              ∀ {n : ℤ}, pyInt (ds.map asciiChar) = some n → IsRun ds ∧ n = value ds :=
            fun ds hsub hle n hn =>
              (pyInt_plain (fun b hb => hplain b (hsub hb)) (hle.trans hlen)).mp hn
          obtain ⟨h₁, rfl⟩ := hmem d₁ (by rw [hs]; simp) (by rw [hs]; simp) hmajor
          obtain ⟨h₂, rfl⟩ := hmem d₂ (by rw [hs]; intro b hb; simp [hb])
            (by rw [hs]; simp; omega) hminor
          obtain ⟨h₃, rfl⟩ := hmem d₃ (by rw [hs]; intro b hb; simp [hb])
            (by rw [hs]; simp; omega) hpatch
          rw [Int.toNat_natCast, Int.toNat_natCast, Int.toNat_natCast,
            or_fields (by omega) (by omega)] at hencode
          refine (Firmware.parseFwVersion_exact.1 s v).mpr ⟨_, _, _,
            ⟨⟨d₁, d₂, d₃, hs, ⟨h₁, h₂, h₃⟩, rfl, rfl, rfl⟩, by omega, by omega, by omega⟩, ?_⟩
          rw [Firmware.packVersion, Except.ok.inj hencode, UInt32.ofNat_toNat]
        · cases hencode
      · cases hencode
    · cases hencode

/-! ## What `fw_encode` takes -/

/-- The characters of a number as `int` takes it, with the white space around it. -/
def NumberChar (c : Char) : Prop :=
  isSpace c = true ∨ c = '-' ∨ c = '+' ∨ c = '_' ∨ (digitValue c).isSome = true

/-- Stripping removes blanks only. -/
theorem space_or_mem_stripBy (p : Char → Bool) {c : Char} {cs : List Char} (h : c ∈ cs) :
    p c = true ∨ c ∈ stripBy p cs := by
  rw [← @List.takeWhile_append_dropWhile _ p cs] at h
  rcases List.mem_append.mp h with h | h
  · exact .inl (List.mem_takeWhile_imp h)
  · rw [← @List.rdropWhile_append_rtakeWhile _ p (cs.dropWhile p)] at h
    rcases List.mem_append.mp h with h | h
    · exact .inr h
    · exact .inl (List.mem_rtakeWhile_imp h)

/-- A number consists of digits and underscores. -/
theorem digitsValue_chars {cs : List Char} {afterDigit : Bool} {acc n : ℕ}
    (h : digitsValue afterDigit acc cs = some n) : ∀ c ∈ cs, NumberChar c := by
  induction cs generalizing afterDigit acc with
  | nil => nofun
  | cons c cs ih =>
    rcases hd : digitValue c with _ | d
    · by_cases hc : c = '_'
      · subst hc
        rw [digitsValue] at h
        split at h
        · exact List.forall_mem_cons.mpr ⟨.inr (.inr (.inr (.inl rfl))), ih h⟩
        · cases h
      · rw [digitsValue.eq_3 _ _ _ _ (fun h => hc h), hd] at h
        cases h
    · rw [digitsValue_cons hd] at h
      exact List.forall_mem_cons.mpr ⟨.inr (.inr (.inr (.inr (by rw [hd]; rfl)))), ih h⟩

/-- And so does a text that `int` takes, with its blanks. -/
theorem pyInt_chars {cs : List Char} {n : ℤ} (h : pyInt cs = some n) : ∀ c ∈ cs, NumberChar c := by
  intro c hc
  rcases space_or_mem_stripBy isNumberSpace hc with hspace | hc
  · exact .inl (isSpace_of_isNumberSpace hspace)
  rw [pyInt] at h
  split at h
  next neg body hsplit =>
  split at h
  · cases h
  obtain ⟨m, hm, -⟩ := Option.map_eq_some_iff.mp h
  obtain ⟨k, hk, -⟩ := Option.bind_eq_some_iff.mp hm
  have hbody := digitsValue_chars hk
  -- a minus, a plus or no sign
  split at hsplit
  · next t ht =>
    obtain ⟨rfl, rfl⟩ := Prod.mk.inj hsplit
    rw [ht] at hc
    rcases List.mem_cons.mp hc with rfl | hc
    · exact .inr (.inl rfl)
    · exact hbody c hc
  · next t ht =>
    obtain ⟨rfl, rfl⟩ := Prod.mk.inj hsplit
    rw [ht] at hc
    rcases List.mem_cons.mp hc with rfl | hc
    · exact .inr (.inr (.inl rfl))
    · exact hbody c hc
  · obtain ⟨rfl, rfl⟩ := Prod.mk.inj hsplit
    exact hbody c hc

/-- An accepted text consists of numbers and dots, and its value fits. -/
theorem fwEncode_ok {t : String} {v : ℕ} (h : fwEncode t = .ok v) :
    v < 2 ^ 32 ∧ ∀ c ∈ t.toList, NumberChar c ∨ c = '.' := by
  rw [fwEncode] at h
  -- three parts, three numbers, all in range; everything else raised
  split at h
  · next a b c hparts =>
    split at h
    · next major minor patch hmajor hminor hpatch =>
      split at h
      · next hrange =>
        rw [or_fields (by omega) (by omega)] at h
        obtain rfl := Except.ok.inj h
        refine ⟨by omega, fun x hx => ?_⟩
        rcases space_or_mem_stripBy isSpace hx with hspace | hx
        · exact .inl (.inl hspace)
        have hx : x ∈ strip t.toList := hx
        -- put together again, the parts and the dots are the whole text
        rw [← @List.intercalate_splitOn _ (strip t.toList) _ _ '.', ← splitOn, hparts] at hx
        have hcases : x ∈ a ∨ x = '.' ∨ x ∈ b ∨ x = '.' ∨ x ∈ c := by
          simpa [List.intercalate] using hx
        rcases hcases with hx | hx | hx | hx | hx
        · exact .inl (pyInt_chars hmajor x hx)
        · exact .inr hx
        · exact .inl (pyInt_chars hminor x hx)
        · exact .inr hx
        · exact .inl (pyInt_chars hpatch x hx)
      · cases h
    · cases h
  · cases h

/-! ## The text a device announces -/

theorem asciiDecode_append (s t : List Byte) :
    asciiDecode (s ++ t) = asciiDecode s ++ asciiDecode t := by
  rw [asciiDecode, List.map_append, String.ofList_append]
  rfl

/-- The digits that the firmware prints are those of `str`. -/
theorem asciiDecode_dec (n : ℕ) : asciiDecode (Printf.dec n) = toString n := by
  have hchars : (Printf.dec n).map asciiChar = Nat.toDigits 10 n := by
    rw [dec_eq, List.map_map]
    refine (List.map_congr_left fun c hc => ?_).trans (List.map_id _)
    have hc := char_bounds hc
    have hbyte : (UInt8.ofNat c.toNat).toNat = c.toNat :=
      UInt8.toNat_ofNat_of_lt' (by rw [UInt8.size]; omega)
    have hlt : (UInt8.ofNat c.toNat).toNat < 128 := by omega
    apply Char.toNat_inj.mp
    exact (asciiChar_toNat hlt).trans hbyte
  rw [asciiDecode, hchars, ← Nat.toString_eq_ofList_toDigits]

/-- Both sides write a packed version alike. -/
theorem asciiDecode_fwVersionToString (v : UInt32) :
    asciiDecode (Firmware.fwVersionToString v) = fwDecode v.toNat := by
  have hdot : asciiDecode (Printf.str ".") = "." := by decide
  rw [Firmware.fwVersionToString, fwDecode]
  simp only [asciiDecode_append, asciiDecode_dec, hdot]
  simp only [UInt32.toNat_and, UInt32.toNat_shiftRight]
  rfl

/-- A version text is at most 15 bytes long. -/
theorem fwVersionToString_length (v : UInt32) : (Firmware.fwVersionToString v).length ≤ 15 := by
  have hdec : ∀ n k, 0 < k → n < 10 ^ k → (Printf.dec n).length ≤ k := by
    intro n k hk hn
    rw [dec_eq, List.length_map]
    exact (Nat.length_toDigits_le_iff (by decide) hk).mpr hn
  have hmajor := hdec ((v >>> 16) &&& 0xFFFF).toNat 5 (by decide) (by
    rw [UInt32.toNat_and]
    exact Nat.lt_of_le_of_lt Nat.and_le_right (by decide))
  have hminor := hdec ((v >>> 8) &&& 0xFF).toNat 3 (by decide) (by
    rw [UInt32.toNat_and]
    exact Nat.lt_of_le_of_lt Nat.and_le_right (by decide))
  have hpatch := hdec (v &&& 0xFF).toNat 3 (by decide) (by
    rw [UInt32.toNat_and]
    exact Nat.lt_of_le_of_lt Nat.and_le_right (by decide))
  have hdot : (Printf.str ".").length = 1 := by decide
  simp only [Firmware.fwVersionToString, List.length_append, hdot]
  omega

/-- `fw_encode` reads back what `fw_decode` writes. -/
theorem fwEncode_fwDecode {v : ℕ} (h : v < 2 ^ 32) : fwEncode (fwDecode v) = .ok v := by
  have hv : (UInt32.ofNat v).toNat = v := UInt32.toNat_ofNat_of_lt' h
  have hlen := fwVersionToString_length (.ofNat v)
  have hparse := (parseFwVersion_iff_fwEncode (by omega)).mp
    (Firmware.parseFwVersion_exact.2.1 (.ofNat v))
  rw [asciiDecode_fwVersionToString, hv] at hparse
  exact hparse.2

/-! ## A version on its way to the device -/

/-- What is left of a text in the 16-byte field. -/
def fieldText (t : String) : List Byte := (asciiEncode t).take 15

theorem pad_fieldText (t : String) : pad t 16 = padTo 16 (fieldText t) := by
  rw [pad, fieldText]
  split
  · rfl
  · rw [List.take_of_length_le (by omega)]

/-- The text of an accepted version has no NUL. -/
theorem fieldText_fits {t : String} {v : ℕ} (h : fwEncode t = .ok v) :
    Firmware.FitsText 16 (fieldText t) := by
  refine ⟨fun hmem => ?_, by rw [fieldText, List.length_take]; omega⟩
  obtain ⟨c, hc, hzero⟩ := List.mem_map.mp (List.take_subset 15 _ hmem)
  have hnul : c = '\x00' := by
    split at hzero
    · next hlt =>
      have hnat := congrArg UInt8.toNat hzero
      rw [UInt8.toNat_ofNat_of_lt' (by rw [UInt8.size]; omega)] at hnat
      exact Char.toNat_inj.mp hnat
    · cases hzero
  rcases (fwEncode_ok h).2 c hc with hnumber | hdot
  · rw [hnul] at hnumber
    revert hnumber
    unfold NumberChar
    decide
  · rw [hnul] at hdot
    revert hdot
    decide

/-- The payload of an FW_UPDATE, and what the device reads of it. -/
theorem fwUpdate_arrives {t : String} {v size crc : ℕ} (h : fwEncode t = .ok v)
    (hsize : size < 2 ^ 32) (hcrc : crc < 2 ^ 32) :
    ∃ bytes fu, FwUpdate.pack ⟨t, size, crc⟩ = .ok bytes ∧
      Firmware.FwUpdate.decode bytes = some fu ∧
      fu.targetVersion = fieldText t ∧ fu.imageSizeBytes.toNat = size := by
  obtain ⟨fu, hfu⟩ : ∃ fu : Firmware.FwUpdate, fu =
      { targetVersion := fieldText t, imageSizeBytes := .ofNat size, imageCrc := .ofNat crc } :=
    ⟨_, rfl⟩
  have hlen : (fieldText t).length ≤ 16 := (fieldText_fits h).2
  have hsize' : (UInt32.ofNat size).toNat = size := UInt32.toNat_ofNat_of_lt' hsize
  have hcrc' : (UInt32.ofNat crc).toNat = crc := UInt32.toNat_ofNat_of_lt' hcrc
  have hpack : FwUpdate.pack ⟨t, size, crc⟩ = .ok fu.encode := by
    rw [FwUpdate.pack, ← hsize', ← hcrc', packU_u32, packU_u32, pad_fieldText,
      ← Firmware.ByteWriter.fixedStr_eq hlen, hfu]
    rfl
  refine ⟨fu.encode, fu, hpack, ?_, by rw [hfu], by rw [hfu]; exact hsize'⟩
  refine Firmware.decode_of_encode Firmware.FwUpdate.encode_eq Firmware.FwUpdate.decode_eq
    ((Firmware.FwUpdate.layout_fits fu).mpr ?_)
  rw [hfu]
  exact fieldText_fits h

/-- The fate of an accepted version text.  The device gets its first 15 characters.  It
    takes them if and only if they are digits and dots and make a version on their own,
    for that version.  And the version it then announces is the registered text if and
    only if this is the canonical one. -/
theorem version_fate {t : String} {v size crc : ℕ} (h : fwEncode t = .ok v)
    (hsize : size < 2 ^ 32) (hcrc : crc < 2 ^ 32) :
    ∃ bytes fu, FwUpdate.pack ⟨t, size, crc⟩ = .ok bytes ∧
      Firmware.FwUpdate.decode bytes = some fu ∧ fu.targetVersion = (asciiEncode t).take 15 ∧
      (∀ w, Firmware.parseFwVersion fu.targetVersion = some w ↔
        (∀ b ∈ fu.targetVersion, plainByte b = true) ∧
          fwEncode (asciiDecode fu.targetVersion) = .ok w.toNat) ∧
      ((∃ w, Firmware.parseFwVersion fu.targetVersion = some w ∧
        asciiDecode (Firmware.fwVersionToString w) = t) ↔ t = fwDecode v) := by
  obtain ⟨bytes, fu, hpack, hdecode, htext, -⟩ := fwUpdate_arrives h hsize hcrc
  have hlen : fu.targetVersion.length ≤ 16 := htext ▸ (fieldText_fits h).2
  refine ⟨bytes, fu, hpack, hdecode, htext, fun w => parseFwVersion_iff_fwEncode (by omega), ?_⟩
  have hv := (fwEncode_ok h).1
  constructor
  · rintro ⟨w, -, hw⟩
    rw [asciiDecode_fwVersionToString] at hw
    -- the canonical text of `w` has the value of `w`
    rw [← hw, fwEncode_fwDecode w.toNat_lt] at h
    rw [← Except.ok.inj h, hw]
  · intro ht
    have hw : (UInt32.ofNat v).toNat = v := UInt32.toNat_ofNat_of_lt' hv
    have hcanonical : asciiDecode (Firmware.fwVersionToString (.ofNat v)) = t := by
      rw [asciiDecode_fwVersionToString, hw, ht]
    refine ⟨.ofNat v, ?_, hcanonical⟩
    have hascii : IsAscii (Firmware.fwVersionToString (.ofNat v)) := by
      have hparse := (parseFwVersion_iff_fwEncode
        ((fwVersionToString_length (.ofNat v)).trans (by decide))).mp
          (Firmware.parseFwVersion_exact.2.1 (.ofNat v))
      exact fun b hb => plainByte_lt (hparse.1 b hb)
    rw [htext, fieldText, ← hcanonical, asciiEncode_asciiDecode hascii,
      List.take_of_length_le (fwVersionToString_length _)]
    exact Firmware.parseFwVersion_exact.2.1 _

/-- With a leading zero the device installs the version, and never announces the text. -/
theorem leadingZero_fate : fwEncode "1.02.3" = .ok 66051 ∧
    ∃ bytes fu, FwUpdate.pack ⟨"1.02.3", 1000000, 0⟩ = .ok bytes ∧
      Firmware.FwUpdate.decode bytes = some fu ∧
      Firmware.parseFwVersion fu.targetVersion = some 66051 ∧
      ¬ ∃ w, Firmware.parseFwVersion fu.targetVersion = some w ∧
        asciiDecode (Firmware.fwVersionToString w) = "1.02.3" := by
  have hencode : fwEncode "1.02.3" = .ok 66051 := by decide +kernel
  obtain ⟨bytes, fu, hpack, hdecode, htext, hparse, hannounced⟩ :=
    @version_fate "1.02.3" 66051 1000000 0 hencode (by decide) (by decide)
  refine ⟨hencode, bytes, fu, hpack, hdecode, (hparse 66051).mpr ?_, fun h => ?_⟩
  · rw [htext]
    decide +kernel
  · have hcanonical := hannounced.mp h
    revert hcanonical
    decide +kernel

end EcuTelemetry.Wire
