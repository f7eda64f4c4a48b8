/-
  EcuTelemetry.Lib.Latch

  A latch with hysteresis: readings of one kind set it, and it stays set as long
  as the readings are of a larger kind.  Its value after any readings, and the
  edges on the way, which alternate.
-/

import Mathlib.Data.List.Induction

namespace EcuTelemetry

/-- What sets the latch holds it. -/
structure Latch (α : Type) where
  set : α → Bool
  hold : α → Bool
  hold_of_set : ∀ a, set a = true → hold a = true

namespace Latch

variable {α : Type} (l : Latch α)

def next (on : Bool) (a : α) : Bool := if on then l.hold a else l.set a

/-- After the readings, from the oldest on. -/
def run (on : Bool) (as : List α) : Bool := as.foldl l.next on

/-- The values that differ from the one before. -/
def edges : Bool → List α → List Bool
  | _, [] => []
  | on, a :: as =>
    if l.next on a = on then edges on as else l.next on a :: edges (l.next on a) as

theorem run_concat (on : Bool) (as : List α) (a : α) :
    l.run on (as ++ [a]) = l.next (l.run on as) a := by
  rw [run, List.foldl_append]
  rfl

/-- The edges over two stretches of inputs. -/
theorem edges_append (on : Bool) (as bs : List α) :
    l.edges on (as ++ bs) = l.edges on as ++ l.edges (l.run on as) bs := by
  induction as generalizing on with
  | nil => rfl
  | cons a as ih =>
    rw [List.cons_append, edges, edges]
    by_cases h : l.next on a = on
    · rw [if_pos h, if_pos h, ih]
      show _ ++ l.edges (l.run on as) bs = _ ++ l.edges (l.run (l.next on a) as) bs
      rw [h]
    · rw [if_neg h, if_neg h, ih]
      rfl

/-! ## The value -/

/-- A reading has set the latch, and all later ones hold it. -/
def Latched (as : List α) : Prop :=
  ∃ before a after, as = before ++ a :: after ∧ l.set a = true ∧ ∀ b ∈ after, l.hold b = true

/-- The last input sets the latch, or holds what was latched. -/
theorem latched_concat (as : List α) (a : α) :
    l.Latched (as ++ [a]) ↔ l.set a = true ∨ l.Latched as ∧ l.hold a = true := by
  constructor
  · rintro ⟨before, b, after, heq, hset, hhold⟩
    -- the input that set the latch is the last one, or an earlier one
    rcases after.eq_nil_or_concat with rfl | ⟨after', c, hafter⟩
    · obtain ⟨-, hab⟩ := List.append_inj' heq rfl
      cases hab
      exact .inl hset
    · rw [List.concat_eq_append] at hafter
      subst hafter
      rw [← List.cons_append, ← List.append_assoc] at heq
      obtain ⟨rfl, hac⟩ := List.append_inj' heq rfl
      cases hac
      refine .inr ⟨⟨before, b, after', rfl, hset, fun c hc => ?_⟩, ?_⟩
      · exact hhold c (List.mem_append_left _ hc)
      · exact hhold a (List.mem_append_right _ List.mem_cons_self)
  · rintro (hset | ⟨⟨before, b, after, rfl, hset, hhold⟩, ha⟩)
    · exact ⟨as, a, [], rfl, hset, nofun⟩
    · refine ⟨before, b, after ++ [a], by simp, hset, fun c hc => ?_⟩
      rcases List.mem_append.mp hc with hc | hc
      · exact hhold c hc
      · exact List.mem_singleton.mp hc ▸ ha

/-- The value after any readings. -/
theorem run_iff (as : List α) : l.run false as = true ↔ l.Latched as := by
  induction as using List.reverseRecOn with
  | nil =>
    refine iff_of_false (fun h => by cases h) ?_
    rintro ⟨before, a, after, heq, -⟩
    cases before <;> cases heq
  | append_singleton as a ih =>
    rw [run_concat, latched_concat, ← ih, next]
    split
    · next hon =>
      rw [hon]
      exact ⟨fun h => .inr ⟨rfl, h⟩, fun h => h.elim (l.hold_of_set a) And.right⟩
    · next hoff => exact ⟨.inl, fun h => h.elim id fun h => absurd h.1 hoff⟩

/-! ## Edges -/

/-- Every edge is to the other value. -/
def Alternates (on : Bool) : List Bool → Prop
  | [] => True
  | b :: bs => b = !on ∧ Alternates b bs

/-- Rising and falling edges alternate. -/
theorem alternates_edges (on : Bool) (as : List α) : Alternates on (l.edges on as) := by
  induction as generalizing on with
  | nil => trivial
  | cons a as ih =>
    rw [edges]
    split
    · exact ih on
    · next h => exact ⟨by cases on <;> simpa using h, ih _⟩

/-- Readings that neither set nor release make no edge. -/
theorem edges_of_band {as : List α} (on : Bool) (h : ∀ a ∈ as, l.set a = false ∧ l.hold a = true) :
    l.run on as = on ∧ l.edges on as = [] := by
  induction as with
  | nil => exact ⟨rfl, rfl⟩
  | cons a as ih =>
    obtain ⟨⟨hset, hhold⟩, has⟩ := List.forall_mem_cons.mp h
    have hnext : l.next on a = on := by
      rw [next]
      split
      · next hon => exact hhold.trans hon.symm
      · next hoff => exact hset.trans (Bool.not_eq_true _ ▸ hoff).symm
    obtain ⟨hrun, hedges⟩ := ih has
    refine ⟨?_, by rw [edges, if_pos hnext, hedges]⟩
    show l.run (l.next on a) as = on
    rw [hnext, hrun]

end Latch

end EcuTelemetry
