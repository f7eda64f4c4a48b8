/-
  EcuTelemetry.Lib.Incremental

  Readers that are fed a stream piece by piece.  A reader turns a buffer into
  the items it can read off it and the part of the buffer it keeps for the
  next piece.  Where every cut of the stream is harmless on its own, the way
  the stream is cut does not show in the items.
-/

import Mathlib.Data.List.Basic

namespace EcuTelemetry

/-- A reader of `β`s from a stream of `α`s. -/
structure Incremental (α β : Type*) where
  /-- The items read off a buffer, and what is kept of it. -/
  read : List α → List β × List α
  /-- What is kept holds no further item. -/
  settled : ∀ b, (read (read b).2).1 = []

namespace Incremental

variable {α β : Type*} (r : Incremental α β)

/-- Feed the pieces `chunks` one after another, starting from the buffer `b`. -/
def feedAll (b : List α) : List (List α) → List β × List α
  | [] => ([], b)
  | c :: cs =>
    let out := r.read (b ++ c)
    let later := feedAll out.2 cs
    (out.1 ++ later.1, later.2)

@[simp] theorem feedAll_nil (b : List α) : r.feedAll b [] = ([], b) := rfl

theorem feedAll_cons_fst (b c : List α) (cs : List (List α)) :
    (r.feedAll b (c :: cs)).1 = (r.read (b ++ c)).1 ++ (r.feedAll (r.read (b ++ c)).2 cs).1 := rfl

/-- The stream may be cut between `x` and `t`. -/
def CutsAt (x t : List α) : Prop :=
  (r.read (x ++ t)).1 = (r.read x).1 ++ (r.read ((r.read x).2 ++ t)).1

/-- Every cut that `chunks` makes is harmless. -/
def CutsAll (b : List α) : List (List α) → Prop
  | [] => True
  | c :: cs => r.CutsAt (b ++ c) cs.flatten ∧ CutsAll (r.read (b ++ c)).2 cs

/-- **Chunk independence.**  With harmless cuts only, the pieces give what the
    whole stream gives. -/
theorem feedAll_eq_read {b : List α} (hb : (r.read b).1 = []) {chunks : List (List α)}
    (h : r.CutsAll b chunks) : (r.feedAll b chunks).1 = (r.read (b ++ chunks.flatten)).1 := by
  induction chunks generalizing b with
  | nil => simp [hb]
  | cons c cs ih =>
    obtain ⟨hcut, hrest⟩ := h
    rw [feedAll_cons_fst, ih (r.settled _) hrest, List.flatten_cons, ← List.append_assoc]
    exact hcut.symm

end Incremental

end EcuTelemetry
