/-
  EcuTelemetry.Lib.Deque

  A bounded double-ended queue with the discard rule of Python's
  `collections.deque(maxlen=n)`: appending to a full queue drops the oldest
  element.  The length bound is a field, so an over-long queue cannot be
  built.  `Deque.toList_appendAll` is what window statistics need: once
  `maxlen` elements have been appended, the content is exactly the newest
  `maxlen` of them, whatever was there before.
-/

import Mathlib.Data.List.Basic

namespace EcuTelemetry

/-- A queue of at most `maxlen` elements, oldest first. -/
structure Deque (α : Type) (maxlen : Nat) where
  toList : List α
  length_le : toList.length ≤ maxlen
deriving DecidableEq, Repr

namespace Deque

variable {α : Type} {maxlen : Nat}

/-- The empty queue. -/
def empty : Deque α maxlen := ⟨[], Nat.zero_le _⟩

@[simp] theorem toList_empty : (empty : Deque α maxlen).toList = [] := rfl

/-- Append on the right; a full queue discards its oldest element. -/
def append (d : Deque α maxlen) (x : α) : Deque α maxlen where
  toList := (d.toList ++ [x]).drop (d.toList.length + 1 - maxlen)
  length_le := by
    have h := d.length_le
    simp only [List.length_drop, List.length_append, List.length_singleton]
    omega

@[simp] theorem toList_append (d : Deque α maxlen) (x : α) :
    (d.append x).toList = (d.toList ++ [x]).drop (d.toList.length + 1 - maxlen) := rfl

/-- Append a whole list, first element first. -/
def appendAll (d : Deque α maxlen) (xs : List α) : Deque α maxlen := xs.foldl append d

@[simp] theorem appendAll_nil (d : Deque α maxlen) : d.appendAll [] = d := rfl

@[simp] theorem appendAll_cons (d : Deque α maxlen) (x : α) (xs : List α) :
    d.appendAll (x :: xs) = (d.append x).appendAll xs := rfl

/-- The content after a run of appends is the newest `maxlen` elements of old
    content and appended elements together. -/
theorem toList_appendAll (d : Deque α maxlen) (xs : List α) :
    (d.appendAll xs).toList =
      (d.toList ++ xs).drop (d.toList.length + xs.length - maxlen) := by
  induction xs generalizing d with
  | nil =>
    have h := d.length_le
    have h0 : d.toList.length - maxlen = 0 := by omega
    simp [h0]
  | cons x xs ih =>
    have h := d.length_le
    rw [appendAll_cons, ih, toList_append]
    have hle : d.toList.length + 1 - maxlen ≤ (d.toList ++ [x]).length := by simp
    rw [← List.drop_append_of_le_length hle, List.append_assoc, List.singleton_append,
      List.drop_drop]
    congr 1
    simp only [List.length_drop, List.length_append, List.length_cons, List.length_nil]
    omega

/-- Exactly `maxlen` appends replace the whole content. -/
theorem toList_appendAll_full (d : Deque α maxlen) {xs : List α} (h : xs.length = maxlen) :
    (d.appendAll xs).toList = xs := by
  rw [toList_appendAll, h, Nat.add_sub_cancel, List.drop_left]

end Deque

end EcuTelemetry
