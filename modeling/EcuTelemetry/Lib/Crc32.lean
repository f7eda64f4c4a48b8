/-
  EcuTelemetry.Lib.Crc32

  The reflected CRC-32 of IEEE 802.3 (polynomial `0xEDB88320`, initial and
  final complement), bit by bit.  One bit step is linear over exclusive or, so
  eight steps split into the contribution of the low byte and a plain shift of
  the rest: the fact a table-driven implementation rests on.
-/

import EcuTelemetry.Lib.Bytes

namespace EcuTelemetry.Crc32

def polynomial : BitVec 32 := 0xEDB88320#32

/-- One bit of the reflected division. -/
def bitStep (c : BitVec 32) : BitVec 32 :=
  if c.getLsbD 0 then polynomial ^^^ (c >>> 1) else c >>> 1

/-- `n` bits of the division. -/
def bitSteps : Nat → BitVec 32 → BitVec 32
  | 0, c => c
  | n + 1, c => bitSteps n (bitStep c)

/-- Take one byte into the remainder. -/
def byteStep (c : BitVec 32) (b : Byte) : BitVec 32 := bitSteps 8 (c ^^^ b.toBitVec.setWidth 32)

/-- The remainder after a byte string, started from `seed`. -/
def crc32 (seed : BitVec 32) (bs : List Byte) : BitVec 32 :=
  bs.foldl byteStep (seed ^^^ 0xFFFFFFFF#32) ^^^ 0xFFFFFFFF#32

/-! ## Linearity -/

/-- One bit of the division is additive. -/
theorem bitStep_xor (x y : BitVec 32) : bitStep (x ^^^ y) = bitStep x ^^^ bitStep y := by
  have hshift : (x ^^^ y) >>> 1 = (x >>> 1) ^^^ (y >>> 1) := BitVec.ushiftRight_xor_distrib ..
  unfold bitStep
  rw [BitVec.getLsbD_xor, hshift]
  generalize x >>> 1 = u
  generalize y >>> 1 = v
  cases x.getLsbD 0 <;> cases y.getLsbD 0
  · rfl
  · simp only [Bool.false_xor, if_true, Bool.false_eq_true, if_false]
    rw [← BitVec.xor_assoc, ← BitVec.xor_assoc, BitVec.xor_comm polynomial u]
  · simp only [Bool.xor_false, if_true, Bool.false_eq_true, if_false, BitVec.xor_assoc]
  · simp only [Bool.xor_self, if_true, Bool.false_eq_true, if_false]
    rw [BitVec.xor_comm polynomial v, BitVec.xor_assoc, ← BitVec.xor_assoc u,
      BitVec.xor_comm polynomial, BitVec.xor_assoc, BitVec.xor_self, BitVec.xor_zero]

theorem bitSteps_xor (n : Nat) (x y : BitVec 32) :
    bitSteps n (x ^^^ y) = bitSteps n x ^^^ bitSteps n y := by
  induction n generalizing x y with
  | zero => rfl
  | succ n ih => rw [bitSteps, bitSteps, bitSteps, bitStep_xor, ih]

/-- While the low bits are zero the division only shifts. -/
theorem bitSteps_of_low_zero (n : Nat) {x : BitVec 32} (h : ∀ i < n, x.getLsbD i = false) :
    bitSteps n x = x >>> n := by
  induction n generalizing x with
  | zero => simp [bitSteps]
  | succ n ih =>
    have h0 : bitStep x = x >>> 1 := by rw [bitStep, h 0 (Nat.succ_pos n)]; rfl
    rw [bitSteps, h0, ih, ← BitVec.shiftRight_add, Nat.add_comm]
    intro i hi
    rw [BitVec.getLsbD_ushiftRight]
    exact h (1 + i) (by omega)

/-- Eight steps: the low byte is divided, the other three bytes are shifted. -/
theorem bitSteps_eight (x : BitVec 32) :
    bitSteps 8 x = bitSteps 8 (x &&& 0xFF#32) ^^^ (x >>> 8) := by
  -- the low byte and the rest
  have hsplit : x = (x &&& 0xFF#32) ^^^ ((x >>> 8) <<< 8) := by
    apply BitVec.eq_of_getLsbD_eq
    intro i hi
    have hmask : (0xFF#32).getLsbD i = decide (i < 8) := by
      rw [show (0xFF#32) = (BitVec.allOnes 8).setWidth 32 from rfl, BitVec.getLsbD_setWidth,
        BitVec.getLsbD_allOnes]
      simp [hi]
    simp only [BitVec.getLsbD_xor, BitVec.getLsbD_and, hmask, BitVec.getLsbD_shiftLeft,
      BitVec.getLsbD_ushiftRight, hi, decide_true, Bool.true_and]
    by_cases h8 : i < 8
    · simp [h8]
    · simp [h8, show 8 + (i - 8) = i by omega]
  -- zeros are only shifted out
  have hhigh : bitSteps 8 ((x >>> 8) <<< 8) = x >>> 8 := by
    rw [bitSteps_of_low_zero 8 (fun i hi => by simp [hi])]
    apply BitVec.eq_of_getLsbD_eq
    intro i hi
    simp only [BitVec.getLsbD_ushiftRight, BitVec.getLsbD_shiftLeft]
    by_cases h : 8 + i < 32
    · simp [h]
    · simp [h, BitVec.getLsbD_of_ge x (8 + i) (by omega)]
  conv_lhs => rw [hsplit, bitSteps_xor, hhigh]

/-- The byte step of a table-driven implementation. -/
theorem byteStep_eq_table (c : BitVec 32) (b : Byte) :
    byteStep c b =
      bitSteps 8 ((c ^^^ b.toBitVec.setWidth 32) &&& 0xFF#32) ^^^ (c >>> 8) := by
  have hb : b.toBitVec.setWidth 32 >>> 8 = 0#32 := by
    apply BitVec.eq_of_getLsbD_eq
    intro i hi
    rw [BitVec.getLsbD_ushiftRight, BitVec.getLsbD_setWidth,
      BitVec.getLsbD_of_ge b.toBitVec (8 + i) (by omega)]
    simp
  rw [byteStep, bitSteps_eight, BitVec.ushiftRight_xor_distrib, hb, BitVec.xor_zero]

/-! ## The remainder as a map

One bit step loses nothing: the polynomial has its top bit set, a shifted
remainder has not. -/

/-- A bit step loses nothing, since the polynomial has its top bit set. -/
theorem bitStep_eq_zero {x : BitVec 32} (h : bitStep x = 0#32) : x = 0#32 := by
  have htop : (x >>> 1).getLsbD 31 = false := by
    rw [BitVec.getLsbD_ushiftRight]
    exact BitVec.getLsbD_of_ge x 32 le_rfl
  -- had the low bit been set, the top bit would be set now
  have hlow : x.getLsbD 0 = false := by
    by_contra hbit
    rw [Bool.not_eq_false] at hbit
    rw [bitStep, if_pos hbit] at h
    have h31 := congrArg (fun y : BitVec 32 => y.getLsbD 31) h
    simp only [BitVec.getLsbD_xor, htop] at h31
    exact absurd h31 (by decide)
  have hhigh : x >>> 1 = 0#32 := by
    simpa only [bitStep, hlow, Bool.false_eq_true, if_false] using h
  apply BitVec.eq_of_getLsbD_eq
  intro i hi
  cases i with
  | zero => simpa using hlow
  | succ i =>
    have hbit := congrArg (fun y : BitVec 32 => y.getLsbD i) hhigh
    simp only [BitVec.getLsbD_ushiftRight, Nat.add_comm 1] at hbit
    simpa using hbit

theorem bitSteps_eq_zero {n : Nat} {x : BitVec 32} (h : bitSteps n x = 0#32) : x = 0#32 := by
  induction n generalizing x with
  | zero => exact h
  | succ n ih => exact bitStep_eq_zero (ih h)

theorem bitSteps_injective (n : Nat) : Function.Injective (bitSteps n) := by
  intro x y hxy
  have hdiff : bitSteps n (x ^^^ y) = 0#32 := by rw [bitSteps_xor, hxy, BitVec.xor_self]
  exact BitVec.xor_eq_zero_iff.mp (bitSteps_eq_zero hdiff)

theorem bitSteps_add (n m : Nat) (x : BitVec 32) :
    bitSteps (n + m) x = bitSteps m (bitSteps n x) := by
  induction n generalizing x with
  | zero => rw [Nat.zero_add, bitSteps]
  | succ n ih => rw [Nat.succ_add, bitSteps, bitSteps, ih]

/-- The register after a byte string. -/
def remainder (c : BitVec 32) (bs : List Byte) : BitVec 32 := bs.foldl byteStep c

theorem remainder_cons (c : BitVec 32) (b : Byte) (bs : List Byte) :
    remainder c (b :: bs) = remainder (byteStep c b) bs := rfl

theorem remainder_append (c : BitVec 32) (as bs : List Byte) :
    remainder c (as ++ bs) = remainder (remainder c as) bs := List.foldl_append

theorem crc32_eq_remainder (seed : BitVec 32) (bs : List Byte) :
    crc32 seed bs = remainder (seed ^^^ 0xFFFFFFFF#32) bs ^^^ 0xFFFFFFFF#32 := rfl

/-- The final complement of one part is the initial complement of the next. -/
theorem crc32_append (seed : BitVec 32) (as bs : List Byte) :
    crc32 (crc32 seed as) bs = crc32 seed (as ++ bs) := by
  have hcancel : crc32 seed as ^^^ 0xFFFFFFFF#32 = remainder (seed ^^^ 0xFFFFFFFF#32) as := by
    rw [crc32_eq_remainder, BitVec.xor_assoc, BitVec.xor_self, BitVec.xor_zero]
  rw [crc32_eq_remainder, hcancel, ← remainder_append, ← crc32_eq_remainder]

/-- Registers that differ stay different while the bytes are the same. -/
theorem remainder_injective (bs : List Byte) :
    Function.Injective fun c => remainder c bs := by
  induction bs with
  | nil => exact fun _ _ h => h
  | cons b bs ih =>
    intro c d hcd
    have hbyte : byteStep c b = byteStep d b := ih hcd
    have hxor := bitSteps_injective 8 hbyte
    exact (BitVec.xor_left_inj _).mp hxor

/-! ## Four bytes

Up to four bytes fill the register: their remainder is that of one word. -/

/-- The little-endian word of up to four bytes. -/
def word (bs : List Byte) : BitVec 32 := BitVec.ofNat 32 (leNat bs)

/-- Up to four bytes, packed from the low end. -/
theorem word_cons {b : Byte} {bs : List Byte} (h : bs.length ≤ 3) :
    word (b :: bs) = b.toBitVec.setWidth 32 ^^^ word bs <<< 8 ∧
      bitSteps 8 (word bs <<< 8) = word bs := by
  have hlt : leNat bs < 2 ^ 24 :=
    lt_of_lt_of_le (leNat_lt bs) (Nat.pow_le_pow_right (by omega) h)
  -- three bytes leave the upper eight bits free
  have hbit : ∀ i, 24 ≤ i → (word bs).getLsbD i = false := by
    intro i hi
    rw [word, BitVec.getLsbD_ofNat, Nat.testBit_lt_two_pow
      (lt_of_lt_of_le hlt (Nat.pow_le_pow_right (by omega) hi)), Bool.and_false]
  constructor
  · have hor : leNat (b :: bs) = leNat bs <<< 8 ||| b.toNat := by
      rw [← Nat.shiftLeft_add_eq_or_of_lt b.toNat_lt, leNat_cons, Nat.shiftLeft_eq]
      omega
    apply BitVec.eq_of_getLsbD_eq
    intro i hi
    rw [word, word, hor, BitVec.getLsbD_ofNat, Nat.testBit_or, Nat.testBit_shiftLeft,
      BitVec.getLsbD_xor, BitVec.getLsbD_shiftLeft, BitVec.getLsbD_ofNat, BitVec.getLsbD_setWidth]
    -- the low byte is the new one, above it the old ones
    by_cases h8 : i < 8
    · simp [h8, hi, BitVec.getLsbD]
    · have hhigh : b.toNat.testBit i = false := Nat.testBit_lt_two_pow
        (lt_of_lt_of_le b.toNat_lt (Nat.pow_le_pow_right (by omega) (not_lt.mp h8)))
      simp [h8, hi, hhigh, show 8 ≤ i by omega, show i - 8 < 32 by omega]
  · rw [bitSteps_of_low_zero 8 (fun i hi => by simp [hi])]
    apply BitVec.eq_of_getLsbD_eq
    intro i hi
    simp only [BitVec.getLsbD_ushiftRight, BitVec.getLsbD_shiftLeft]
    by_cases h24 : i < 24
    · simp [show 8 + i < 32 by omega]
    · simp [show ¬ 8 + i < 32 by omega, hbit i (by omega)]

/-- Four bytes or fewer can be divided as one word. -/
theorem remainder_word {bs : List Byte} (h : bs.length ≤ 4) (c : BitVec 32) :
    remainder c bs = bitSteps (8 * bs.length) (c ^^^ word bs) := by
  induction bs generalizing c with
  | nil => simp [remainder, word, bitSteps]
  | cons b bs ih =>
    have h3 : bs.length ≤ 3 := Nat.le_of_succ_le_succ h
    obtain ⟨hword, hshift⟩ := word_cons (b := b) h3
    have hlen : 8 * (b :: bs).length = 8 + 8 * bs.length := by
      rw [List.length_cons]
      omega
    rw [remainder_cons, ih (by omega), hlen, bitSteps_add, hword, ← BitVec.xor_assoc,
      bitSteps_xor 8, hshift, byteStep]

/-- Packing is injective on byte strings of one length. -/
theorem word_injective {as bs : List Byte} (ha : as.length ≤ 4) (hlen : as.length = bs.length)
    (h : word as = word bs) : as = bs := by
  have hlt : ∀ l : List Byte, l.length ≤ 4 → leNat l < 2 ^ 32 := fun l hl =>
    lt_of_lt_of_le (leNat_lt l) (Nat.pow_le_pow_right (by omega) hl)
  have hnat : leNat as = leNat bs := by
    have := congrArg BitVec.toNat h
    rwa [word, word, BitVec.toNat_ofNat, BitVec.toNat_ofNat, Nat.mod_eq_of_lt (hlt as ha),
      Nat.mod_eq_of_lt (hlt bs (hlen ▸ ha))] at this
  rw [← leBytes_leNat as, ← leBytes_leNat bs, hnat, hlen]

/-- A burst of at most four bytes changes the remainder. -/
theorem remainder_burst {c : BitVec 32} {x y z y' : List Byte} (hlen : y.length = y'.length)
    (h4 : y.length ≤ 4) (hne : y ≠ y') :
    remainder c (x ++ y ++ z) ≠ remainder c (x ++ y' ++ z) := by
  intro heq
  rw [remainder_append, remainder_append, remainder_append, remainder_append] at heq
  have hmid : remainder (remainder c x) y = remainder (remainder c x) y' :=
    remainder_injective z heq
  have hword : word y = word y' := by
    simp only [remainder_word h4, remainder_word (hlen.symm.trans_le h4), hlen] at hmid
    exact (BitVec.xor_right_inj _).mp (bitSteps_injective _ hmid)
  exact hne (word_injective h4 hlen hword)

/-! ## The trailer -/

/-- What the register holds after a frame and its little-endian checksum. -/
def residue : BitVec 32 := bitSteps 32 0xFFFFFFFF#32

/-- The checksum is the one trailer that leaves the residue. -/
theorem remainder_trailer_iff {c : BitVec 32} {bs t : List Byte} (ht : t.length = 4) :
    remainder c (bs ++ t) = residue ↔ word t = remainder c bs ^^^ 0xFFFFFFFF#32 := by
  rw [remainder_append, remainder_word ht.le, ht, residue, (bitSteps_injective 32).eq_iff]
  constructor
  · intro h
    rw [← h, ← BitVec.xor_assoc, BitVec.xor_self, BitVec.zero_xor]
  · intro h
    rw [h, ← BitVec.xor_assoc, BitVec.xor_self, BitVec.zero_xor]

end EcuTelemetry.Crc32
