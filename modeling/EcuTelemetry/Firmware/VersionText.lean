/-
  EcuTelemetry.Firmware.VersionText

  The texts that `parseFwVersion` accepts, and the order of the packed versions.
  The loop is followed field by field: a run of digits, then the end or a dot.
-/

import EcuTelemetry.Firmware.Decoder
import EcuTelemetry.Lib.Digits
import Mathlib.Data.List.GetD
import Mathlib.Data.Prod.Lex

namespace EcuTelemetry.Firmware

open Digits Printf

/-! ## Versions -/

/-- MAJOR.MINOR.PATCH, with any number of leading zeros; the numbers fit their fields. -/
structure IsVersion (s : List Byte) (major minor patch : ℕ) : Prop where
  text : ∃ d₁ d₂ d₃, s = d₁ ++ 0x2E :: (d₂ ++ 0x2E :: d₃) ∧ (IsRun d₁ ∧ IsRun d₂ ∧ IsRun d₃) ∧
    value d₁ = major ∧ value d₂ = minor ∧ value d₃ = patch
  major_le : major ≤ 65535
  minor_le : minor ≤ 255
  patch_le : patch ≤ 255

def packVersion (major minor patch : ℕ) : UInt32 :=
  UInt32.ofNat (major * 65536 + minor * 256 + patch)

/-! ## One field -/

/-- The current field has a value. -/
def VersionParse.read (p : VersionParse) (n : ℕ) (haveDigit : Bool) : VersionParse :=
  { p with parts := p.parts.set p.idx (UInt32.ofNat n), haveDigit }

/-- A digit extends the current part, up to 65535. -/
theorem next_digit {p : VersionParse} {c : Byte} {n : ℕ} (hc : isDigit c = true)
    (hn : p.parts.getD p.idx 0 = UInt32.ofNat n) (hle : n ≤ 65535) :
    p.next c = if n * 10 + digit c ≤ 65535 then some (p.read (n * 10 + digit c) true)
      else none := by
  have hc' := isDigit_iff.mp hc
  have hlt := digit_lt hc
  -- the arithmetic on `uint32_t` does not wrap, for a part of at most 65535
  have hdigit : (c - 0x30).toUInt32 = UInt32.ofNat (digit c) := by
    have hsub : (c - 0x30).toNat = c.toNat - 48 :=
      UInt8.toNat_sub_of_le _ _ (UInt8.le_iff_toNat_le.mpr hc'.1)
    refine UInt32.toNat_inj.mp ?_
    rw [UInt8.toNat_toUInt32, hsub, UInt32.toNat_ofNat_of_lt' (by rw [UInt32.size]; omega), digit]
  have hpart : UInt32.ofNat n * 10 + (c - 0x30).toUInt32 = UInt32.ofNat (n * 10 + digit c) := by
    rw [hdigit, UInt32.ofNat_add, UInt32.ofNat_mul]
    rfl
  have hcut : (UInt32.ofNat (n * 10 + digit c) > 65535) ↔ ¬ n * 10 + digit c ≤ 65535 := by
    rw [gt_iff_lt, UInt32.lt_iff_toNat_lt,
      UInt32.toNat_ofNat_of_lt' (by rw [UInt32.size]; omega), not_le]
    rfl
  rw [VersionParse.next, if_pos (of_decide_eq_true hc), hn]
  dsimp only
  rw [hpart]
  by_cases hbig : n * 10 + digit c ≤ 65535
  · rw [if_pos hbig, if_neg (fun h => hcut.mp h hbig)]
    rfl
  · rw [if_neg hbig, if_pos (hcut.mpr hbig)]

/-- Anything else has to be the dot between two parts. -/
theorem next_other {p : VersionParse} {c : Byte} (hc : isDigit c = false) :
    p.next c = if c = 0x2E ∧ p.haveDigit = true ∧ p.idx ≠ 2 then
      some { p with idx := p.idx + 1, haveDigit := false } else none := by
  rw [VersionParse.next, if_neg (of_decide_eq_false hc)]
  by_cases hdot : c = 0x2E
  · rw [if_pos hdot]
    by_cases hok : p.haveDigit = true ∧ p.idx ≠ 2
    · have hgo : ¬ (!p.haveDigit || decide (p.idx = 2)) = true := by simp [hok]
      rw [if_neg hgo, if_pos ⟨hdot, hok⟩]
    · have hstop : (!p.haveDigit || decide (p.idx = 2)) = true := by
        rw [not_and_or, not_not] at hok
        simpa using hok
      rw [if_pos hstop, if_neg fun h => hok h.2]
  · rw [if_neg hdot, if_neg fun h => hdot h.1]

/-- A run of digits is read into the field, as long as it fits. -/
theorem foldlM_digits {ds : List Byte} (hds : ∀ c ∈ ds, isDigit c = true) {p : VersionParse} {n : ℕ}
    (hidx : p.idx < p.parts.length) (hn : p.parts.getD p.idx 0 = UInt32.ofNat n) (hle : n ≤ 65535) :
    ds.foldlM VersionParse.next p = if valueFrom n ds ≤ 65535 then
      some (p.read (valueFrom n ds) (p.haveDigit || !ds.isEmpty)) else none := by
  induction ds generalizing p n with
  | nil =>
    have hset : p.parts.set p.idx (UInt32.ofNat n) = p.parts := by
      rw [← hn, List.getD_eq_getElem _ _ hidx, List.set_getElem_self]
    rw [show valueFrom n [] = n from rfl, if_pos hle, VersionParse.read, hset, List.isEmpty_nil,
      Bool.not_true, Bool.or_false]
    rfl
  | cons c ds ih =>
    obtain ⟨hc, hds⟩ := List.forall_mem_cons.mp hds
    rw [List.foldlM_cons, next_digit hc hn hle, valueFrom_cons]
    -- the number grows with each digit, so it has left the range for good
    by_cases hfits : n * 10 + digit c ≤ 65535
    · have hget :
          (p.read (n * 10 + digit c) true).parts.getD (p.read (n * 10 + digit c) true).idx 0 =
            UInt32.ofNat (n * 10 + digit c) := by
        show (p.parts.set p.idx _).getD p.idx 0 = _
        rw [List.getD_eq_getElem _ _ (by rw [List.length_set]; exact hidx), List.getElem_set_self]
      have hidx' : (p.read (n * 10 + digit c) true).idx <
          (p.read (n * 10 + digit c) true).parts.length := by
        show p.idx < (p.parts.set p.idx _).length
        rw [List.length_set]
        exact hidx
      rw [if_pos hfits, Option.bind_eq_bind, Option.bind_some, ih hds hidx' hget hfits]
      refine if_congr Iff.rfl (congrArg some ?_) rfl
      rw [VersionParse.read, VersionParse.read, VersionParse.read]
      simp
    · have hcut : ¬ valueFrom (n * 10 + digit c) ds ≤ 65535 := fun h =>
        hfits ((le_valueFrom _ _).trans h)
      rw [if_neg hfits, if_neg hcut]
      rfl

/-- The state at the start of a field. -/
def VersionParse.fresh (parts : List UInt32) (idx : ℕ) : VersionParse := { parts, idx }

/-- A field up to the end of the text. -/
theorem foldlM_last {parts : List UInt32} {idx : ℕ} (hidx : idx < parts.length)
    (hzero : parts.getD idx 0 = 0) {ds : List Byte} (hds : IsRun ds) (hfits : value ds ≤ 65535) :
    ds.foldlM VersionParse.next (.fresh parts idx) = some
      ((VersionParse.fresh parts idx).read (value ds) true) := by
  rw [foldlM_digits (n := 0) hds.digits hidx hzero (Nat.zero_le _)]
  refine (if_pos hfits).trans ?_
  have hne : ds.isEmpty = false := List.isEmpty_eq_false_iff.mpr hds.ne_nil
  rw [hne]
  rfl

/-- A field and its dot. -/
theorem foldlM_field {parts : List UInt32} {idx : ℕ} (hidx : idx < parts.length)
    (hzero : parts.getD idx 0 = 0) (h2 : idx ≠ 2) {ds : List Byte} (hds : IsRun ds)
    (hfits : value ds ≤ 65535) (rest : List Byte) :
    (ds ++ 0x2E :: rest).foldlM VersionParse.next (.fresh parts idx) =
      rest.foldlM VersionParse.next
        (.fresh (parts.set idx (UInt32.ofNat (value ds))) (idx + 1)) := by
  rw [List.foldlM_append, foldlM_last hidx hzero hds hfits, Option.bind_eq_bind, Option.bind_some,
    List.foldlM_cons, next_other (by decide)]
  rw [if_pos ⟨rfl, rfl, h2⟩]
  rfl

/-- What an accepted text has in a field, and behind it. -/
theorem field_cases {parts : List UInt32} {idx : ℕ} (hidx : idx < parts.length)
    (hzero : parts.getD idx 0 = 0) {s : List Byte} {p : VersionParse}
    (h : s.foldlM VersionParse.next (.fresh parts idx) = some p) :
    ∃ ds rest, s = ds ++ rest ∧ (∀ c ∈ ds, isDigit c = true) ∧ value ds ≤ 65535 ∧
      ((rest = [] ∧ p = (VersionParse.fresh parts idx).read (value ds) (!ds.isEmpty)) ∨
        ∃ rest', rest = 0x2E :: rest' ∧ ds ≠ [] ∧ idx ≠ 2 ∧
          rest'.foldlM VersionParse.next
            (.fresh (parts.set idx (UInt32.ofNat (value ds))) (idx + 1)) = some p) := by
  -- the digits up to the first other character
  refine ⟨s.takeWhile isDigit, s.dropWhile isDigit, List.takeWhile_append_dropWhile.symm,
    takeWhile_digits s, ?_⟩
  have hds := takeWhile_digits s
  rw [← List.takeWhile_append_dropWhile (p := isDigit) (l := s), List.foldlM_append,
    foldlM_digits (n := 0) hds hidx hzero (Nat.zero_le _)] at h
  have hrest : ∀ c rest', s.dropWhile isDigit = c :: rest' → isDigit c = false := by
    intro c rest' hcons
    have := List.head?_dropWhile_not isDigit s
    rw [hcons] at this
    simpa using this
  split at h
  · next hfits =>
    refine ⟨hfits, ?_⟩
    rw [Option.bind_eq_bind, Option.bind_some] at h
    cases hdrop : s.dropWhile isDigit with
    | nil =>
      rw [hdrop] at h
      exact .inl ⟨rfl, (Option.some.inj h).symm⟩
    | cons c rest' =>
      rw [hdrop, List.foldlM_cons, next_other (hrest c rest' hdrop)] at h
      split at h
      -- only a dot after a digit goes on, to the next field
      · next hdot =>
        obtain ⟨rfl, hdigit, hne⟩ := hdot
        refine .inr ⟨rest', rfl, fun hnil => ?_, hne, h⟩
        rw [hnil] at hdigit
        cases hdigit
      · cases h
  · cases h

/-! ## The parser -/

theorem toNat_field {n : ℕ} (h : n ≤ 65535) : (UInt32.ofNat n).toNat = n :=
  UInt32.toNat_ofNat_of_lt' (by rw [UInt32.size]; omega)

theorem field_gt {n : ℕ} (h : n ≤ 65535) (k : UInt32) : UInt32.ofNat n > k ↔ k.toNat < n := by
  rw [gt_iff_lt, UInt32.lt_iff_toNat_lt, toNat_field h]

theorem packVersion_toNat {major minor patch : ℕ} (hmajor : major ≤ 65535) (hminor : minor ≤ 255)
    (hpatch : patch ≤ 255) :
    (packVersion major minor patch).toNat = major * 65536 + minor * 256 + patch :=
  UInt32.toNat_ofNat_of_lt' (by rw [UInt32.size]; omega)

/-- The packing, with the shifts of the source. -/
theorem packVersion_eq {major minor patch : ℕ} (hmajor : major ≤ 65535) (hminor : minor ≤ 255)
    (hpatch : patch ≤ 255) : (UInt32.ofNat major <<< 16) ||| (UInt32.ofNat minor <<< 8) |||
      UInt32.ofNat patch = packVersion major minor patch := by
  -- the three fields do not overlap, so `|||` adds them
  have hor : major <<< 16 ||| minor <<< 8 ||| patch = major * 65536 + minor * 256 + patch := by
    have hlow : minor <<< 8 < 2 ^ 16 := by
      rw [Nat.shiftLeft_eq]
      omega
    have hsplit : major <<< 16 + minor <<< 8 = (major * 256 + minor) <<< 8 := by
      simp only [Nat.shiftLeft_eq]
      omega
    rw [← Nat.shiftLeft_add_eq_or_of_lt hlow, hsplit, ← Nat.shiftLeft_add_eq_or_of_lt (by omega),
      Nat.shiftLeft_eq]
    omega
  refine UInt32.toNat_inj.mp ?_
  -- and no shift leaves the word
  have hmajor' : (UInt32.ofNat major <<< 16).toNat = major <<< 16 := by
    rw [UInt32.toNat_shiftLeft, toNat_field hmajor]
    refine Nat.mod_eq_of_lt ?_
    show major <<< 16 < 2 ^ 32
    rw [Nat.shiftLeft_eq]
    omega
  have hminor' : (UInt32.ofNat minor <<< 8).toNat = minor <<< 8 := by
    rw [UInt32.toNat_shiftLeft, toNat_field (by omega)]
    refine Nat.mod_eq_of_lt ?_
    show minor <<< 8 < 2 ^ 32
    rw [Nat.shiftLeft_eq]
    omega
  rw [packVersion_toNat hmajor hminor hpatch, UInt32.toNat_or, UInt32.toNat_or, hmajor', hminor',
    toNat_field (by omega), hor]

/-- The checks behind the loop. -/
theorem parseFwVersion_eq {s : List Byte} (major minor patch : ℕ) (hmajor : major ≤ 65535)
    (hminor : minor ≤ 65535) (hpatch : patch ≤ 65535) {idx : ℕ} {haveDigit : Bool}
    (h : s.foldlM VersionParse.next {} = some
      ⟨[UInt32.ofNat major, UInt32.ofNat minor, UInt32.ofNat patch], idx, haveDigit⟩) :
    parseFwVersion s = if idx = 2 ∧ haveDigit = true ∧ minor ≤ 255 ∧ patch ≤ 255 then
      some (packVersion major minor patch) else none := by
  rw [parseFwVersion, h, Option.bind_eq_bind, Option.bind_some]
  show (if (decide (idx ≠ 2) || !haveDigit) = true then none
    else if (decide (UInt32.ofNat major > 0xFFFF) || decide (UInt32.ofNat minor > 0xFF) ||
      decide (UInt32.ofNat patch > 0xFF)) = true then none
    else some ((UInt32.ofNat major <<< 16) ||| (UInt32.ofNat minor <<< 8) ||| UInt32.ofNat patch)) =
      _
  -- the fields are bounded, so the comparisons of words are those of numbers
  have hmajor' : ¬ UInt32.ofNat major > 0xFFFF := fun h =>
    Nat.not_lt.mpr hmajor ((field_gt hmajor _).mp h)
  have hminor' : UInt32.ofNat minor > 0xFF ↔ ¬ minor ≤ 255 :=
    (field_gt hminor _).trans Nat.not_le.symm
  have hpatch' : UInt32.ofNat patch > 0xFF ↔ ¬ patch ≤ 255 :=
    (field_gt hpatch _).trans Nat.not_le.symm
  -- three fields and a digit at the end, then the bounds of the fields
  by_cases hend : idx = 2 ∧ haveDigit = true
  · have hgo : ¬ (decide (idx ≠ 2) || !haveDigit) = true := by simp [hend]
    rw [if_neg hgo]
    by_cases hbounds : minor ≤ 255 ∧ patch ≤ 255
    · have hfits : ¬ (decide (UInt32.ofNat major > 0xFFFF) || decide (UInt32.ofNat minor > 0xFF) ||
          decide (UInt32.ofNat patch > 0xFF)) = true := by
        simp only [Bool.or_eq_true, decide_eq_true_eq, hminor', hpatch']
        exact not_or.mpr ⟨not_or.mpr ⟨hmajor', not_not.mpr hbounds.1⟩, not_not.mpr hbounds.2⟩
      rw [if_neg hfits, if_pos ⟨hend.1, hend.2, hbounds⟩, packVersion_eq hmajor hbounds.1 hbounds.2]
    · have hbig : (decide (UInt32.ofNat major > 0xFFFF) || decide (UInt32.ofNat minor > 0xFF) ||
          decide (UInt32.ofNat patch > 0xFF)) = true := by
        simp only [Bool.or_eq_true, decide_eq_true_eq, hminor', hpatch']
        rcases not_and_or.mp hbounds with h | h
        · exact .inl (.inr h)
        · exact .inr h
      rw [if_pos hbig, if_neg fun h => hbounds h.2.2]
  · have hstop : (decide (idx ≠ 2) || !haveDigit) = true := by
      rw [not_and_or] at hend
      simpa using hend
    rw [if_pos hstop, if_neg fun h => hend ⟨h.1, h.2.1⟩]

/-- Every version text is read. -/
theorem parseFwVersion_of_isVersion {s : List Byte} {major minor patch : ℕ}
    (h : IsVersion s major minor patch) :
    parseFwVersion s = some (packVersion major minor patch) := by
  obtain ⟨⟨d₁, d₂, d₃, rfl, ⟨h₁, h₂, h₃⟩, rfl, rfl, rfl⟩, hmajor, hminor, hpatch⟩ := h
  have hlen : ∀ a b c : UInt32, [a, b, c].length = 3 := fun _ _ _ => rfl
  have hfirst : (d₁ ++ 0x2E :: (d₂ ++ 0x2E :: d₃)).foldlM VersionParse.next (.fresh [0, 0, 0] 0) =
      (d₂ ++ 0x2E :: d₃).foldlM VersionParse.next (.fresh [UInt32.ofNat (value d₁), 0, 0] 1) :=
    foldlM_field (by decide) rfl (by decide) h₁ hmajor _
  have hsecond :
      (d₂ ++ 0x2E :: d₃).foldlM VersionParse.next (.fresh [UInt32.ofNat (value d₁), 0, 0] 1) =
      d₃.foldlM VersionParse.next
        (.fresh [UInt32.ofNat (value d₁), UInt32.ofNat (value d₂), 0] 2) :=
    foldlM_field (by rw [hlen]; decide) rfl (by decide) h₂ (by omega) d₃
  have hthird :
      d₃.foldlM VersionParse.next (.fresh [UInt32.ofNat (value d₁), UInt32.ofNat (value d₂), 0] 2) =
      some ⟨[UInt32.ofNat (value d₁), UInt32.ofNat (value d₂), UInt32.ofNat (value d₃)], 2, true⟩ :=
    foldlM_last (by rw [hlen]; decide) rfl h₃ (by omega)
  have hrun := hfirst.trans (hsecond.trans hthird)
  rw [parseFwVersion_eq _ _ _ hmajor (by omega) (by omega) hrun]
  exact if_pos ⟨rfl, rfl, hminor, hpatch⟩

/-- And nothing else is. -/
theorem isVersion_of_parse {s : List Byte} {v : UInt32} (h : parseFwVersion s = some v) :
    ∃ major minor patch, IsVersion s major minor patch := by
  have hlen : ∀ a b c : UInt32, [a, b, c].length = 3 := fun _ _ _ => rfl
  obtain ⟨p, hp, -⟩ := Option.bind_eq_some_iff.mp h
  -- a text that does not reach its third field is refused
  have hshort : ∀ major minor patch idx d, major ≤ 65535 → minor ≤ 65535 → patch ≤ 65535 → idx ≠ 2 →
      p ≠ ⟨[UInt32.ofNat major, UInt32.ofNat minor, UInt32.ofNat patch], idx, d⟩ := by
    rintro major minor patch idx d hmajor hminor hpatch hidx rfl
    rw [parseFwVersion_eq major minor patch hmajor hminor hpatch hp, if_neg fun h => hidx h.1] at h
    cases h
  have hp₁ : s.foldlM VersionParse.next (.fresh [0, 0, 0] 0) = some p := hp
  obtain ⟨d₁, r₁, rfl, hd₁, h₁, ⟨-, rfl⟩ | ⟨s₂, rfl, hne₁, -, hp₂⟩⟩ :=
    field_cases (by decide) rfl hp₁
  · exact absurd rfl (hshort (value d₁) 0 0 0 _ h₁ (Nat.zero_le _) (Nat.zero_le _) (by decide))
  obtain ⟨d₂, r₂, rfl, hd₂, h₂, ⟨-, rfl⟩ | ⟨s₃, rfl, hne₂, -, hp₃⟩⟩ :=
    field_cases (by rw [List.length_set]; decide) rfl hp₂
  · exact absurd rfl (hshort (value d₁) (value d₂) 0 1 _ h₁ h₂ (Nat.zero_le _) (by decide))
  obtain ⟨d₃, r₃, rfl, hd₃, h₃, ⟨rfl, rfl⟩ | ⟨s₄, -, -, htwo, -⟩⟩ :=
    field_cases (by rw [List.length_set, List.length_set]; decide) rfl hp₃
  · rw [parseFwVersion_eq (value d₁) (value d₂) (value d₃) h₁ h₂ h₃ hp] at h
    split at h
    · next hok =>
      obtain ⟨-, hdigit, hminor, hpatch⟩ := hok
      have hne₃ : d₃ ≠ [] := by
        rintro rfl
        cases hdigit
      refine ⟨_, _, _,
        ⟨d₁, d₂, d₃, by rw [List.append_nil], ⟨⟨hne₁, hd₁⟩, ⟨hne₂, hd₂⟩, hne₃, hd₃⟩, rfl, rfl, rfl⟩,
        h₁, hminor, hpatch⟩
    · cases h
  · exact absurd rfl htwo

/-! ## The text of a version, and the order -/

/-- The fields of a packed version. -/
theorem isVersion_toString (v : UInt32) : ∃ major minor patch,
    IsVersion (fwVersionToString v) major minor patch ∧ packVersion major minor patch = v := by
  have hv := v.toNat_lt
  -- the masks of the three fields, as division and remainder
  have hmajor : ((v >>> 16) &&& 0xFFFF).toNat = v.toNat / 65536 := by
    rw [UInt32.toNat_and, UInt32.toNat_shiftRight]
    show v.toNat >>> 16 &&& 2 ^ 16 - 1 = _
    rw [Nat.and_two_pow_sub_one_eq_mod, Nat.shiftRight_eq_div_pow]
    omega
  have hminor : ((v >>> 8) &&& 0xFF).toNat = v.toNat / 256 % 256 := by
    rw [UInt32.toNat_and, UInt32.toNat_shiftRight]
    show v.toNat >>> 8 &&& 2 ^ 8 - 1 = _
    rw [Nat.and_two_pow_sub_one_eq_mod, Nat.shiftRight_eq_div_pow]
  have hpatch : (v &&& 0xFF).toNat = v.toNat % 256 := by
    rw [UInt32.toNat_and]
    show v.toNat &&& 2 ^ 8 - 1 = _
    rw [Nat.and_two_pow_sub_one_eq_mod]
  refine ⟨v.toNat / 65536, v.toNat / 256 % 256, v.toNat % 256,
    ⟨?_, by omega, by omega, by omega⟩, ?_⟩
  · refine ⟨_, _, _, ?_, ⟨isRun_dec _, isRun_dec _, isRun_dec _⟩, value_dec _,
      value_dec _, value_dec _⟩
    rw [fwVersionToString, hmajor, hminor, hpatch]
    simp only [List.append_assoc]
    rfl
  · rw [packVersion, show v.toNat / 65536 * 65536 + v.toNat / 256 % 256 * 256 +
      v.toNat % 256 = v.toNat by omega,
      UInt32.ofNat_toNat]

/-- `parseFwVersion` accepts the versions and returns their packing; it reads back
    the text of any packed version; and packed versions compare like their numbers,
    major first. -/
theorem parseFwVersion_exact :
    (∀ s v, parseFwVersion s = some v ↔
      ∃ major minor patch, IsVersion s major minor patch ∧ v = packVersion major minor patch) ∧
    (∀ v, parseFwVersion (fwVersionToString v) = some v) ∧
    ∀ s s' v v' major minor patch major' minor' patch', parseFwVersion s = some v →
    parseFwVersion s' = some v' →
      IsVersion s major minor patch → IsVersion s' major' minor' patch' →
      (v < v' ↔ toLex (major, toLex (minor, patch)) < toLex (major', toLex (minor', patch'))) := by
  refine ⟨fun s v => ⟨fun h => ?_, ?_⟩, fun v => ?_, ?_⟩
  · obtain ⟨major, minor, patch, hs⟩ := isVersion_of_parse h
    rw [parseFwVersion_of_isVersion hs] at h
    exact ⟨major, minor, patch, hs, (Option.some.inj h).symm⟩
  · rintro ⟨major, minor, patch, hs, rfl⟩
    exact parseFwVersion_of_isVersion hs
  · obtain ⟨major, minor, patch, hs, hv⟩ := isVersion_toString v
    rw [parseFwVersion_of_isVersion hs, hv]
  · rintro s s' v v' major minor patch major' minor' patch' h h' hs hs'
    rw [parseFwVersion_of_isVersion hs] at h
    rw [parseFwVersion_of_isVersion hs'] at h'
    cases h
    cases h'
    -- both sides are the weighted sum of the three parts
    rw [UInt32.lt_iff_toNat_lt, packVersion_toNat hs.major_le hs.minor_le hs.patch_le,
      packVersion_toNat hs'.major_le hs'.minor_le hs'.patch_le, Prod.Lex.toLex_lt_toLex,
      Prod.Lex.toLex_lt_toLex]
    have := hs.minor_le
    have := hs.patch_le
    have := hs'.minor_le
    have := hs'.patch_le
    omega

end EcuTelemetry.Firmware
