/-
  EcuTelemetry.Lib.Text

  The text codecs of Python used on byte fields: ASCII and UTF-8, both with
  `errors="replace"` where decoding or encoding can fail, and C-style
  NUL-terminated fields.
-/

import EcuTelemetry.Lib.Bytes

namespace EcuTelemetry

/-! ## ASCII -/

/-- `s.encode("ascii", "replace")`. -/
def asciiEncode (s : String) : List Byte :=
  s.toList.map fun c => if c.toNat < 128 then UInt8.ofNat c.toNat else 0x3F

/-- One byte of `b.decode("ascii", "replace")`. -/
def asciiChar (b : Byte) : Char := if b.toNat < 128 then Char.ofNat b.toNat else '\uFFFD'

/-- `b.decode("ascii", "replace")`. -/
def asciiDecode (bs : List Byte) : String := String.ofList (bs.map asciiChar)

/-- All bytes are ASCII. -/
def IsAscii (bs : List Byte) : Prop := ∀ b ∈ bs, b.toNat < 128

instance (bs : List Byte) : Decidable (IsAscii bs) :=
  List.decidableBAll (fun b : Byte => b.toNat < 128) bs

theorem asciiChar_toNat {b : Byte} (h : b.toNat < 128) : (asciiChar b).toNat = b.toNat := by
  have hv : b.toNat.isValidChar := Or.inl (by omega)
  rw [asciiChar, if_pos h, Char.ofNat, dif_pos hv]
  rfl

/-- ASCII bytes survive decoding. -/
theorem asciiEncode_asciiDecode {bs : List Byte} (h : IsAscii bs) :
    asciiEncode (asciiDecode bs) = bs := by
  induction bs with
  | nil => rfl
  | cons b bs ih =>
    have hb := h b List.mem_cons_self
    have ih := ih fun x hx => h x (List.mem_cons_of_mem _ hx)
    simp only [asciiEncode, asciiDecode, String.toList_ofList, List.map_cons,
      asciiChar_toNat hb, if_pos hb, UInt8.ofNat_toNat] at ih ⊢
    rw [ih]

@[simp] theorem asciiDecode_length (bs : List Byte) : (asciiDecode bs).length = bs.length := by
  simp [asciiDecode]

/-! ## UTF-8 -/

/-- `s.encode("utf-8")`. -/
def utf8Encode (s : String) : List Byte := s.toList.flatMap String.utf8EncodeChar

/-- The number of bytes one replacement character stands for: the longest
    prefix of an encoded character, at least one byte. -/
def invalidLength : List Byte → Nat
  | b₀ :: b₁ :: rest =>
    let second (lo hi : Nat) : Bool := lo ≤ b₁.toNat && b₁.toNat ≤ hi
    let third : Bool := match rest with
      | b₂ :: _ => 0x80 ≤ b₂.toNat && b₂.toNat ≤ 0xBF
      | [] => false
    let lead := b₀.toNat
    if lead = 0xE0 then (if second 0xA0 0xBF then 2 else 1)
    else if lead = 0xED then (if second 0x80 0x9F then 2 else 1)
    else if 0xE1 ≤ lead ∧ lead ≤ 0xEF then (if second 0x80 0xBF then 2 else 1)
    else if lead = 0xF0 then (if second 0x90 0xBF then (if third then 3 else 2) else 1)
    else if lead = 0xF4 then (if second 0x80 0x8F then (if third then 3 else 2) else 1)
    else if 0xF1 ≤ lead ∧ lead ≤ 0xF3 then
      (if second 0x80 0xBF then (if third then 3 else 2) else 1)
    else 1
  | _ => 1

/-- The loop of `b.decode("utf-8", "replace")`; every round takes at least one
    byte, so the length of the input is fuel enough. -/
def utf8Chars : Nat → List Byte → List Char
  | 0, _ => []
  | _ + 1, [] => []
  | n + 1, bs =>
    match bs.toByteArray.utf8DecodeChar? 0 with
    | some c => c :: utf8Chars n (bs.drop c.utf8Size)
    | none => '\uFFFD' :: utf8Chars n (bs.drop (invalidLength bs))

/-- `b.decode("utf-8", "replace")`. -/
def utf8Decode (bs : List Byte) : String := String.ofList (utf8Chars bs.length bs)

/-- UTF-8 decoding inverts encoding, given enough fuel. -/
theorem utf8Chars_encode (l : List Char) {n : Nat}
    (h : (l.flatMap String.utf8EncodeChar).length ≤ n) :
    utf8Chars n (l.flatMap String.utf8EncodeChar) = l := by
  induction l generalizing n with
  | nil => cases n <;> rfl
  | cons c l ih =>
    have hlen : (String.utf8EncodeChar c).length = c.utf8Size := String.length_utf8EncodeChar c
    have hpos := c.utf8Size_pos
    rw [List.flatMap_cons, List.length_append, hlen] at h
    obtain ⟨n, rfl⟩ : ∃ m, n = m + 1 := ⟨n - 1, by omega⟩
    obtain ⟨b, bs, hb⟩ : ∃ b bs, String.utf8EncodeChar c = b :: bs := by
      cases hc : String.utf8EncodeChar c with
      | nil => rw [hc] at hlen; simp at hlen; omega
      | cons b bs => exact ⟨b, bs, rfl⟩
    have hdec :
        ((String.utf8EncodeChar c ++
          l.flatMap String.utf8EncodeChar).toByteArray).utf8DecodeChar? 0 = some c := by
      rw [List.toByteArray_append, ByteArray.utf8DecodeChar?_utf8EncodeChar_append]
    have hdrop : (String.utf8EncodeChar c ++ l.flatMap String.utf8EncodeChar).drop c.utf8Size
        = l.flatMap String.utf8EncodeChar := by
      rw [← hlen, List.drop_left]
    rw [List.flatMap_cons]
    rw [hb] at hdec hdrop ⊢
    rw [List.cons_append] at hdec hdrop ⊢
    simp only [utf8Chars, hdec, hdrop]
    rw [ih (by omega)]

/-- Decoding undoes encoding. -/
theorem utf8Decode_utf8Encode (s : String) : utf8Decode (utf8Encode s) = s := by
  rw [utf8Decode, utf8Encode, utf8Chars_encode _ le_rfl, String.ofList_toList]

/-! ## NUL-terminated fields -/

/-- The bytes before the first NUL. -/
def cBytes (bs : List Byte) : List Byte := bs.takeWhile (· ≠ 0)

/-- Nothing but NULs follows the first NUL. -/
def NoInnerNul (bs : List Byte) : Prop :=
  bs = cBytes bs ++ List.replicate (bs.length - (cBytes bs).length) 0

instance (bs : List Byte) : Decidable (NoInnerNul bs) := inferInstanceAs (Decidable (_ = _))

/-- The bytes padded with NULs to `n`. -/
def padTo (n : Nat) (bs : List Byte) : List Byte := bs ++ List.replicate (n - bs.length) 0

@[simp] theorem padTo_length {n : Nat} {bs : List Byte} (h : bs.length ≤ n) :
    (padTo n bs).length = n := by
  simp [padTo]
  omega

theorem cBytes_append_nuls (bs : List Byte) (k : Nat) :
    cBytes (bs ++ List.replicate k 0) = cBytes bs := by
  induction bs with
  | nil => cases k <;> simp [cBytes, List.replicate_succ]
  | cons b bs ih =>
    simp only [cBytes, List.cons_append, List.takeWhile_cons] at ih ⊢
    rw [ih]

@[simp] theorem cBytes_padTo (n : Nat) (bs : List Byte) : cBytes (padTo n bs) = cBytes bs :=
  cBytes_append_nuls bs _

theorem cBytes_length_le (bs : List Byte) : (cBytes bs).length ≤ bs.length :=
  (List.takeWhile_prefix _).length_le

/-- Padding up to the first NUL loses nothing exactly when only NULs follow it. -/
theorem padTo_cBytes_iff {n : Nat} {bs : List Byte} (h : bs.length ≤ n) :
    padTo n (cBytes bs) = padTo n bs ↔ NoInnerNul bs := by
  have hle := cBytes_length_le bs
  unfold NoInnerNul padTo
  generalize cBytes bs = cs at *
  have hsplit : List.replicate (n - cs.length) (0 : Byte) =
      List.replicate (bs.length - cs.length) 0 ++ List.replicate (n - bs.length) 0 := by
    rw [List.replicate_append_replicate]
    congr 1
    omega
  rw [hsplit, ← List.append_assoc]
  exact ⟨fun h => (List.append_cancel_right h).symm, fun h => by rw [← h]⟩

end EcuTelemetry
