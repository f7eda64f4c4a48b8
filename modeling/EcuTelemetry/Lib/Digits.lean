/-
  EcuTelemetry.Lib.Digits

  Runs of ASCII digits: their value, reading them off the front of a text, and
  the decimal text of a number, which is such a run of that value.
-/

import EcuTelemetry.Lib.Printf

namespace EcuTelemetry.Digits

def isDigit (c : Byte) : Bool := decide (0x30 ≤ c ∧ c ≤ 0x39)

/-- The digit of a character. -/
def digit (c : Byte) : ℕ := c.toNat - 0x30

/-- The value of digits behind a number. -/
def valueFrom (n : ℕ) (ds : List Byte) : ℕ := ds.foldl (fun n c => n * 10 + digit c) n

def value (ds : List Byte) : ℕ := valueFrom 0 ds

/-- Digits, at least one. -/
structure IsRun (ds : List Byte) : Prop where
  ne_nil : ds ≠ []
  digits : ∀ c ∈ ds, isDigit c = true

theorem isDigit_iff {c : Byte} : isDigit c = true ↔ 48 ≤ c.toNat ∧ c.toNat ≤ 57 := by
  rw [isDigit, decide_eq_true_eq, UInt8.le_iff_toNat_le, UInt8.le_iff_toNat_le]
  rfl

theorem digit_lt {c : Byte} (h : isDigit c = true) : digit c < 10 := by
  have := isDigit_iff.mp h
  rw [digit]
  omega

theorem valueFrom_cons (n : ℕ) (c : Byte) (ds : List Byte) :
    valueFrom n (c :: ds) = valueFrom (n * 10 + digit c) ds := by
  rw [valueFrom, List.foldl_cons, valueFrom]

theorem valueFrom_append (n : ℕ) (ds es : List Byte) :
    valueFrom n (ds ++ es) = valueFrom (valueFrom n ds) es := List.foldl_append

theorem le_valueFrom (n : ℕ) (ds : List Byte) : n ≤ valueFrom n ds := by
  induction ds generalizing n with
  | nil => exact le_rfl
  | cons c ds ih =>
    have := ih (n * 10 + digit c)
    rw [valueFrom_cons]
    omega

/-- A run is read up to the first character that is no digit. -/
theorem takeWhile_run {ds rest : List Byte} (hds : ∀ c ∈ ds, isDigit c = true)
    (hrest : ∀ c ∈ rest.head?, isDigit c = false) :
    (ds ++ rest).takeWhile isDigit = ds ∧ (ds ++ rest).dropWhile isDigit = rest := by
  rw [List.takeWhile_append_of_pos hds, List.dropWhile_append_of_pos hds]
  cases rest with
  | nil => exact ⟨List.append_nil ds, rfl⟩
  | cons c rest =>
    have hc : isDigit c = false := hrest c rfl
    have hne : ¬ isDigit c = true := by rw [hc]; nofun
    rw [List.takeWhile_cons_of_neg hne, List.dropWhile_cons_of_neg hne]
    exact ⟨List.append_nil ds, rfl⟩

theorem takeWhile_digits (s : List Byte) : ∀ c ∈ s.takeWhile isDigit, isDigit c = true :=
  List.all_eq_true.mp List.all_takeWhile

/-! ## The text of a number -/

theorem char_bounds {c : Char} {n : ℕ} (h : c ∈ Nat.toDigits 10 n) :
    48 ≤ c.toNat ∧ c.toNat ≤ 57 := by
  have hdigit := Nat.isDigit_of_mem_toDigits (by decide) (by decide) h
  rw [Char.isDigit, Bool.and_eq_true, decide_eq_true_eq, decide_eq_true_eq] at hdigit
  exact ⟨UInt32.le_iff_toNat_le.mp hdigit.1, UInt32.le_iff_toNat_le.mp hdigit.2⟩

theorem dec_eq (n : ℕ) : Printf.dec n = (Nat.toDigits 10 n).map fun c => UInt8.ofNat c.toNat := by
  rw [Printf.dec, Printf.str, asciiEncode,
    show (toString n).toList = Nat.toDigits 10 n from Nat.toList_repr]
  refine List.map_congr_left fun c hc => if_pos ?_
  have := char_bounds hc
  omega

theorem char_digit {c : Char} {n : ℕ} (h : c ∈ Nat.toDigits 10 n) :
    isDigit (UInt8.ofNat c.toNat) = true ∧ digit (UInt8.ofNat c.toNat) = c.toNat - 48 := by
  have hc := char_bounds h
  have hnat : (UInt8.ofNat c.toNat).toNat = c.toNat :=
    UInt8.toNat_ofNat_of_lt' (by rw [UInt8.size]; omega)
  exact ⟨isDigit_iff.mpr (by omega), by rw [digit, hnat]⟩

theorem isRun_dec (n : ℕ) : IsRun (Printf.dec n) := by
  rw [dec_eq]
  refine ⟨fun h => Nat.toDigits_ne_nil (List.map_eq_nil_iff.mp h), fun b hb => ?_⟩
  obtain ⟨c, hc, rfl⟩ := List.mem_map.mp hb
  exact (char_digit hc).1

/-- Decimal digits are read back. -/
theorem value_dec (n : ℕ) : value (Printf.dec n) = n := by
  have hfold : ∀ cs : List Char, (∀ c ∈ cs, c ∈ Nat.toDigits 10 n) → ∀ k,
      valueFrom k (cs.map fun c => UInt8.ofNat c.toNat) = Nat.ofDigitChars 10 cs k := by
    intro cs
    induction cs with
    | nil => exact fun _ k => Nat.ofDigitChars_nil.symm
    | cons c cs ih =>
      intro h k
      obtain ⟨hc, hcs⟩ := List.forall_mem_cons.mp h
      rw [List.map_cons, valueFrom_cons, (char_digit hc).2, ih hcs, Nat.ofDigitChars_cons,
        Nat.mul_comm]
      rfl
  rw [dec_eq, value, hfold _ (fun _ h => h), Nat.ofDigitChars_ten_toDigits]

end EcuTelemetry.Digits
