/-
  EcuTelemetry.Lib.RunningMax

  The running maximum of a list of arrivals: the maximum itself (`top`), the
  arrivals that raise it (`newMaxima`) and, over the naturals, the numbers up
  to it that never arrived (`missing`).

  `card_missing_add_le` bounds what is missing by what did not raise the
  maximum; on a sorted list the two are equal, because there every new value
  raises it.
-/

import Mathlib.Data.Finset.Card
import Mathlib.Order.Interval.Finset.Nat

namespace EcuTelemetry.RunningMax

section Order

variable {α : Type} [LinearOrder α]

/-- The maximum of `m` and the arrivals. -/
def top (m : α) (xs : List α) : α := xs.foldl max m

/-- The arrivals larger than `m` and everything before them. -/
def newMaxima (m : α) : List α → List α
  | [] => []
  | x :: xs => if m < x then x :: newMaxima x xs else newMaxima m xs

@[simp] theorem top_nil (m : α) : top m [] = m := rfl

@[simp] theorem top_cons (m x : α) (xs : List α) : top m (x :: xs) = top (max m x) xs := rfl

@[simp] theorem newMaxima_nil (m : α) : newMaxima m [] = [] := rfl

theorem newMaxima_cons_lt {m x : α} (xs : List α) (h : m < x) :
    newMaxima m (x :: xs) = x :: newMaxima x xs := by
  simp only [newMaxima, if_pos h]

theorem newMaxima_cons_le {m x : α} (xs : List α) (h : x ≤ m) :
    newMaxima m (x :: xs) = newMaxima m xs := by
  simp only [newMaxima, if_neg (not_lt.mpr h)]

theorem le_top (m : α) (xs : List α) : m ≤ top m xs := by
  induction xs generalizing m with
  | nil => exact le_refl m
  | cons x xs ih => exact (le_max_left m x).trans (ih (max m x))

/-- The maximum bounds every element. -/
theorem mem_le_top {m x : α} {xs : List α} (h : x ∈ m :: xs) : x ≤ top m xs := by
  induction xs generalizing m with
  | nil => exact le_of_eq (List.mem_singleton.mp h)
  | cons y ys ih =>
    rw [top_cons]
    -- the head and the old maximum are both below the new one
    rcases List.mem_cons.mp h with rfl | h
    · exact (le_max_left x y).trans (le_top _ ys)
    · rcases List.mem_cons.mp h with rfl | h
      · exact (le_max_right m x).trans (le_top _ ys)
      · exact ih (List.mem_cons_of_mem _ h)

/-- The record values are elements. -/
theorem newMaxima_subset (m : α) (xs : List α) : newMaxima m xs ⊆ xs := by
  induction xs generalizing m with
  | nil => exact List.Subset.refl []
  | cons x xs ih =>
    rcases lt_or_ge m x with h | h
    · rw [newMaxima_cons_lt xs h]
      exact List.cons_subset_cons x (ih x)
    · rw [newMaxima_cons_le xs h]
      exact List.subset_cons_of_subset x (ih m)

/-- Each new maximum exceeds the one before it. -/
theorem newMaxima_increasing (m : α) (xs : List α) :
    (m :: newMaxima m xs).Pairwise (· < ·) := by
  induction xs generalizing m with
  | nil => exact List.pairwise_singleton _ m
  | cons x xs ih =>
    rcases lt_or_ge m x with h | h
    · rw [newMaxima_cons_lt xs h]
      have hx := ih x
      refine List.pairwise_cons.mpr ⟨fun y hy => ?_, hx⟩
      rcases List.mem_cons.mp hy with rfl | hy
      · exact h
      · exact h.trans ((List.pairwise_cons.mp hx).1 y hy)
    · rw [newMaxima_cons_le xs h]
      exact ih m

/-- In a sorted list every value is a maximum when it first arrives. -/
theorem mem_newMaxima_of_sorted {m x : α} {xs : List α} (hs : (m :: xs).Pairwise (· ≤ ·))
    (h : x ∈ m :: xs) : x ∈ m :: newMaxima m xs := by
  induction xs generalizing m with
  | nil => exact h
  | cons y ys ih =>
    obtain ⟨hm, hys⟩ := List.pairwise_cons.mp hs
    rcases (hm y List.mem_cons_self).lt_or_eq with hlt | rfl
    · rw [newMaxima_cons_lt ys hlt]
      rcases List.mem_cons.mp h with rfl | h
      · exact List.mem_cons_self
      · exact List.mem_cons_of_mem m (ih hys h)
    · rw [newMaxima_cons_le ys le_rfl]
      refine ih hys ?_
      rcases List.mem_cons.mp h with rfl | h
      · exact List.mem_cons_self
      · exact h

end Order

/-! ## Counting what never arrived -/

/-- The numbers from `m` to the maximum that are not among the arrivals. -/
def missing (m : ℕ) (xs : List ℕ) : Finset ℕ := {n ∈ Finset.Icc m (top m xs) | n ∉ m :: xs}

/-- The numbers from `m` to the maximum that are among the arrivals. -/
def arrived (m : ℕ) (xs : List ℕ) : Finset ℕ := {n ∈ Finset.Icc m (top m xs) | n ∈ m :: xs}

theorem card_arrived_add_missing (m : ℕ) (xs : List ℕ) :
    (arrived m xs).card + (missing m xs).card = top m xs - m + 1 := by
  have h := Finset.card_filter_add_card_filter_not (s := Finset.Icc m (top m xs)) (· ∈ m :: xs)
  have hm := le_top m xs
  rw [Nat.card_Icc] at h
  unfold arrived missing
  omega

/-- As a set, the new maxima have as many elements as there were. -/
theorem card_newMaxima (m : ℕ) (xs : List ℕ) :
    (m :: newMaxima m xs).toFinset.card = 1 + (newMaxima m xs).length := by
  have hnd : (m :: newMaxima m xs).Nodup :=
    (newMaxima_increasing m xs).imp fun h => Nat.ne_of_lt h
  rw [List.toFinset_card_of_nodup hnd, List.length_cons, Nat.add_comm]

/-- And all of them have arrived. -/
theorem newMaxima_subset_arrived (m : ℕ) (xs : List ℕ) :
    (m :: newMaxima m xs).toFinset ⊆ arrived m xs := by
  intro n hn
  have hn := List.mem_toFinset.mp hn
  have hmem : n ∈ m :: xs := List.cons_subset_cons m (newMaxima_subset m xs) hn
  have hle : m ≤ n := by
    rcases List.mem_cons.mp hn with rfl | hn
    · exact le_rfl
    · exact ((List.pairwise_cons.mp (newMaxima_increasing m xs)).1 n hn).le
  exact Finset.mem_filter.mpr ⟨Finset.mem_Icc.mpr ⟨hle, mem_le_top hmem⟩, hmem⟩

/-- No more is missing than the span less the new maxima. -/
theorem card_missing_add_le (m : ℕ) (xs : List ℕ) :
    (missing m xs).card + (1 + (newMaxima m xs).length) ≤ top m xs - m + 1 := by
  have hsub := Finset.card_le_card (newMaxima_subset_arrived m xs)
  have hsum := card_arrived_add_missing m xs
  have hnew := card_newMaxima m xs
  omega

/-- Exactly that much is missing when the arrivals come in order. -/
theorem card_missing_add_of_sorted {m : ℕ} {xs : List ℕ} (hs : (m :: xs).Pairwise (· ≤ ·)) :
    (missing m xs).card + (1 + (newMaxima m xs).length) = top m xs - m + 1 := by
  have hsub : arrived m xs ⊆ (m :: newMaxima m xs).toFinset := fun n hn =>
    List.mem_toFinset.mpr (mem_newMaxima_of_sorted hs (Finset.mem_filter.mp hn).2)
  have hcard := Finset.card_le_card hsub
  have hsum := card_arrived_add_missing m xs
  have hle := card_missing_add_le m xs
  have hnew := card_newMaxima m xs
  omega

end EcuTelemetry.RunningMax
