/-
  EcuTelemetry.Lib.AsyncQueue

  A first-in first-out queue with a bound on its size, in the manner of Python's
  `asyncio.Queue`, and the put that makes room by taking the oldest element out.
-/

import Mathlib.Data.Int.Cast.Basic
import Mathlib.Data.Int.Notation
import Mathlib.Data.List.Basic

namespace EcuTelemetry

/-- A bound of zero or less is no bound. -/
structure AsyncQueue (α : Type) where
  maxsize : ℤ
  /-- The oldest first. -/
  items : List α
deriving DecidableEq

namespace AsyncQueue

variable {α : Type}

inductive Refusal
  | queueFull
  | queueEmpty
deriving DecidableEq

def new (maxsize : ℤ) : AsyncQueue α := { maxsize, items := [] }

def full (q : AsyncQueue α) : Bool := decide (0 < q.maxsize ∧ q.maxsize ≤ q.items.length)

def putNowait (q : AsyncQueue α) (x : α) : Except Refusal (AsyncQueue α) :=
  if q.full then .error .queueFull else .ok { q with items := q.items ++ [x] }

def getNowait (q : AsyncQueue α) : Except Refusal (α × AsyncQueue α) :=
  match q.items with
  | [] => .error .queueEmpty
  | x :: rest => .ok (x, { q with items := rest })

/-- A put that takes the oldest element out of a full queue; a second refusal is
    ignored. -/
def putOrDrop (q : AsyncQueue α) (x : α) : AsyncQueue α :=
  match q.putNowait x with
  | .ok q' => q'
  | .error _ =>
    match q.getNowait with
    | .error _ => q
    | .ok (_, q') =>
      match q'.putNowait x with
      | .ok q'' => q''
      | .error _ => q'

/-! ## What is in the queue -/

def Bounded (m : ℤ) (q : AsyncQueue α) : Prop := q.maxsize = m ∧ (q.items.length : ℤ) ≤ m

theorem new_bounded {m : ℤ} (hm : 1 ≤ m) : (new m : AsyncQueue α).Bounded m :=
  ⟨rfl, by simp [new]; omega⟩

/-- With a bound of at least one, the new element is added and the oldest goes if
    the queue was full. -/
theorem putOrDrop_cases {m : ℤ} (hm : 1 ≤ m) {q : AsyncQueue α} (hq : q.Bounded m) (x : α) :
    ((q.items.length : ℤ) < m ∧ q.putOrDrop x = { q with items := q.items ++ [x] }) ∨
    ∃ oldest rest, q.items = oldest :: rest ∧ (q.items.length : ℤ) = m ∧
      q.putOrDrop x = { q with items := rest ++ [x] } := by
  obtain ⟨hsize, hlen⟩ := hq
  by_cases hroom : (q.items.length : ℤ) < m
  · have hput : q.putNowait x = .ok { q with items := q.items ++ [x] } := by
      rw [putNowait, if_neg]
      simp only [full, decide_eq_true_eq, not_and]
      omega
    left
    refine ⟨hroom, ?_⟩
    rw [putOrDrop, hput]
  · have hput : q.putNowait x = .error .queueFull := by
      rw [putNowait, if_pos]
      simp only [full, decide_eq_true_eq]
      omega
    cases hitems : q.items with
    | nil =>
      rw [hitems] at hroom
      simp at hroom
      omega
    | cons oldest rest =>
      have hget : q.getNowait = .ok (oldest, { q with items := rest }) := by
        rw [getNowait, hitems]
      -- one element fewer leaves room
      have hput' : ({ q with items := rest } : AsyncQueue α).putNowait x =
          .ok { q with items := rest ++ [x] } := by
        rw [putNowait, if_neg]
        rw [hitems] at hlen
        simp only [full, decide_eq_true_eq, not_and]
        simp only [List.length_cons] at hlen
        omega
      right
      refine ⟨oldest, rest, rfl, ?_, ?_⟩
      · rw [hitems] at hroom hlen
        omega
      · rw [putOrDrop, hput, hget]
        simp only [hput']

/-- Dropping the oldest when full keeps the bound. -/
theorem putOrDrop_bounded {m : ℤ} (hm : 1 ≤ m) {q : AsyncQueue α} (hq : q.Bounded m) (x : α) :
    (q.putOrDrop x).Bounded m := by
  rcases putOrDrop_cases hm hq x with ⟨hroom, heq⟩ | ⟨oldest, rest, hitems, hfull, heq⟩
  · rw [heq]
    refine ⟨hq.1, ?_⟩
    simp only [List.length_append, List.length_singleton]
    omega
  · rw [heq]
    refine ⟨hq.1, ?_⟩
    rw [hitems] at hfull
    simp only [List.length_cons, List.length_append, List.length_nil] at hfull ⊢
    omega

/-- The new element is the newest of the queue. -/
theorem putOrDrop_getLast {m : ℤ} (hm : 1 ≤ m) {q : AsyncQueue α} (hq : q.Bounded m) (x : α) :
    (q.putOrDrop x).items.getLast? = some x := by
  rcases putOrDrop_cases hm hq x with ⟨-, heq⟩ | ⟨oldest, rest, -, -, heq⟩ <;>
    simp [heq]

end AsyncQueue

end EcuTelemetry
