/-
  EcuTelemetry.Lib.Field

  Fields of a fixed width in a byte string.  A field is written with `put` and
  read with `get`, which looks at the first `width` bytes; reading gives back what
  was written, and writing what was read gives back the bytes, provided the bytes
  that carry nothing are zero.  Fields are put together by pairing, padding and
  renaming, and the two laws come along.
-/

import EcuTelemetry.Lib.Text
import Mathlib.Data.List.TakeDrop
import Mathlib.Data.List.TakeWhile
import Mathlib.Logic.Equiv.Defs

namespace EcuTelemetry

/-- A field of `width` bytes. -/
structure ByteField (α : Type) where
  width : ℕ
  put : α → List Byte
  get : List Byte → α
  /-- the values that the field can hold -/
  Fits : α → Prop
  /-- the bytes that carry nothing are zero -/
  Clean : List Byte → Prop
  length_put : ∀ a, (put a).length = width
  get_put : ∀ a rest, Fits a → get (put a ++ rest) = a
  put_get : ∀ bs, width ≤ bs.length → Clean bs → put (get bs) = bs.take width

namespace ByteField

variable {α β : Type}

/-! ## Reading and writing a whole byte string -/

theorem get_put' (f : ByteField α) {a : α} (h : f.Fits a) : f.get (f.put a) = a := by
  rw [← List.append_nil (f.put a)]
  exact f.get_put a [] h

theorem put_get' (f : ByteField α) {bs : List Byte} (hlen : bs.length = f.width) (h : f.Clean bs) :
    f.put (f.get bs) = bs := by
  rw [f.put_get bs hlen.ge h, List.take_of_length_le hlen.le]

theorem drop_put (f : ByteField α) (a : α) (rest : List Byte) :
    (f.put a ++ rest).drop f.width = rest := List.drop_left' (f.length_put a)

/-! ## Fields -/

/-- A little-endian number of `k` bytes, for a type that has exactly these numbers. -/
def number (k : ℕ) (toNat : α → ℕ) (ofNat : ℕ → α) (hof : ∀ a, ofNat (toNat a) = a)
    (hto : ∀ n < 256 ^ k, toNat (ofNat n) = n) (hlt : ∀ a, toNat a < 256 ^ k) : ByteField α where
  width := k
  put a := leBytes k (toNat a)
  get bs := ofNat (leNat (bs.take k))
  Fits _ := True
  Clean _ := True
  length_put a := leBytes_length k (toNat a)
  get_put a rest _ := by
    rw [List.take_left' (leBytes_length k _), leNat_leBytes_of_lt (hlt a), hof]
  put_get bs hlen _ := by
    have htake : (bs.take k).length = k := List.length_take_of_le hlen
    have hbytes := leBytes_leNat (bs.take k)
    have hlt := leNat_lt (bs.take k)
    rw [htake] at hbytes hlt
    rw [hto _ hlt, hbytes]

/-- Taking with zeros is padding, for a text that fits. -/
theorem takeD_eq_padTo {n : ℕ} {s : List Byte} (h : s.length ≤ n) : s.takeD n 0 = padTo n s := by
  induction n generalizing s with
  | zero =>
    rw [List.length_eq_zero_iff.mp (Nat.le_zero.mp h)]
    rfl
  | succ n ih =>
    cases s with
    | nil => exact List.takeD_nil _ _
    | cons b s =>
      rw [padTo, List.length_cons, Nat.succ_sub_succ, List.cons_append, ← padTo,
        ← ih (Nat.le_of_succ_le_succ h)]
      rfl

/-- A text of at most `n` bytes, which ends at the first NUL. -/
def text (n : ℕ) : ByteField (List Byte) where
  width := n
  put s := s.takeD n 0
  get bs := cBytes (bs.take n)
  Fits s := 0 ∉ s ∧ s.length ≤ n
  Clean bs := NoInnerNul (bs.take n)
  length_put s := List.takeD_length n s 0
  get_put s rest h := by
    have hpad : s.takeD n 0 = padTo n s := takeD_eq_padTo h.2
    have hnul : cBytes s = s := List.takeWhile_eq_self_iff.mpr fun b hb =>
      decide_eq_true fun h0 => h.1 (h0 ▸ hb)
    rw [List.take_left' (List.takeD_length n s 0), hpad, cBytes_padTo, hnul]
  put_get bs hlen h := by
    have htake : (bs.take n).length = n := List.length_take_of_le hlen
    have hle : (cBytes (bs.take n)).length ≤ n := (cBytes_length_le _).trans htake.le
    rw [takeD_eq_padTo hle]
    have hpad := (padTo_cBytes_iff htake.le).mpr h
    rw [padTo, padTo, htake, Nat.sub_self, List.replicate_zero, List.append_nil] at hpad
    exact hpad

/-- One field after the other. -/
def pair (f : ByteField α) (g : ByteField β) : ByteField (α × β) where
  width := f.width + g.width
  put ab := f.put ab.1 ++ g.put ab.2
  get bs := (f.get bs, g.get (bs.drop f.width))
  Fits ab := f.Fits ab.1 ∧ g.Fits ab.2
  Clean bs := f.Clean bs ∧ g.Clean (bs.drop f.width)
  length_put ab := by rw [List.length_append, f.length_put, g.length_put]
  get_put ab rest h := by
    rw [List.append_assoc, f.get_put _ _ h.1, f.drop_put, g.get_put _ _ h.2]
  put_get bs hlen h := by
    have hg : g.width ≤ (bs.drop f.width).length := by
      rw [List.length_drop]
      omega
    rw [f.put_get bs (by omega) h.1, g.put_get _ hg h.2, ← List.take_add]

/-- A field and `n` bytes that carry nothing. -/
def pad (f : ByteField α) (n : ℕ) : ByteField α where
  width := f.width + n
  put a := f.put a ++ List.replicate n 0
  get := f.get
  Fits := f.Fits
  Clean bs := f.Clean bs ∧ (bs.drop f.width).take n = List.replicate n 0
  length_put a := by rw [List.length_append, f.length_put, List.length_replicate]
  get_put a rest h := by rw [List.append_assoc, f.get_put _ _ h]
  put_get bs hlen h := by rw [f.put_get bs (by omega) h.1, List.take_add, h.2]

/-- The field under another name for its values. -/
def iso (f : ByteField α) (e : α ≃ β) : ByteField β where
  width := f.width
  put b := f.put (e.symm b)
  get bs := e (f.get bs)
  Fits b := f.Fits (e.symm b)
  Clean := f.Clean
  length_put b := f.length_put _
  get_put b rest h := by rw [f.get_put _ _ h, e.apply_symm_apply]
  put_get bs hlen h := by rw [e.symm_apply_apply, f.put_get bs hlen h]

/-! ## What a field asks for -/

section Number

variable {k : ℕ} {toNat : α → ℕ} {ofNat : ℕ → α} {hof : ∀ a, ofNat (toNat a) = a}
  {hto : ∀ n < 256 ^ k, toNat (ofNat n) = n} {hlt : ∀ a, toNat a < 256 ^ k}

@[simp] theorem fits_number (a : α) : (number k toNat ofNat hof hto hlt).Fits a := trivial

@[simp] theorem clean_number (bs : List Byte) : (number k toNat ofNat hof hto hlt).Clean bs :=
  trivial

@[simp] theorem width_number : (number k toNat ofNat hof hto hlt).width = k := rfl

end Number

@[simp] theorem fits_text {n : ℕ} {s : List Byte} : (text n).Fits s ↔ 0 ∉ s ∧ s.length ≤ n :=
  Iff.rfl

@[simp] theorem fits_pair {f : ByteField α} {g : ByteField β} {ab : α × β} :
    (f.pair g).Fits ab ↔ f.Fits ab.1 ∧ g.Fits ab.2 := Iff.rfl

@[simp] theorem fits_pad {f : ByteField α} {n : ℕ} {a : α} : (f.pad n).Fits a ↔ f.Fits a := Iff.rfl

@[simp] theorem fits_iso {f : ByteField α} {e : α ≃ β} {b : β} :
    (f.iso e).Fits b ↔ f.Fits (e.symm b) :=
  Iff.rfl

@[simp] theorem clean_text {n : ℕ} {bs : List Byte} :
    (text n).Clean bs ↔ NoInnerNul (bs.take n) := Iff.rfl

@[simp] theorem clean_pair {f : ByteField α} {g : ByteField β} {bs : List Byte} :
    (f.pair g).Clean bs ↔ f.Clean bs ∧ g.Clean (bs.drop f.width) := Iff.rfl

@[simp] theorem clean_pad {f : ByteField α} {n : ℕ} {bs : List Byte} : (f.pad n).Clean bs ↔
    f.Clean bs ∧ (bs.drop f.width).take n = List.replicate n 0 := Iff.rfl

@[simp] theorem clean_iso {f : ByteField α} {e : α ≃ β} {bs : List Byte} :
    (f.iso e).Clean bs ↔ f.Clean bs := Iff.rfl

@[simp] theorem width_text (n : ℕ) : (text n).width = n := rfl

@[simp] theorem width_pair (f : ByteField α) (g : ByteField β) :
    (f.pair g).width = f.width + g.width := rfl

@[simp] theorem width_pad (f : ByteField α) (n : ℕ) : (f.pad n).width = f.width + n := rfl

@[simp] theorem width_iso (f : ByteField α) (e : α ≃ β) : (f.iso e).width = f.width := rfl

end ByteField

end EcuTelemetry
