/-
  EcuTelemetry.Lib.TimeWindow

  A history of entries whose times do not decrease, cut to a window: what is
  older than a bound is dropped from the front.  Bounds that never fall behind
  can be applied entry by entry, or once to the whole history.
-/

import Mathlib.Order.Lattice
import Mathlib.Data.List.Basic

namespace EcuTelemetry.TimeWindow

variable {κ α : Type} [LinearOrder κ]

/-- The times do not decrease. -/
def Ordered (l : List (κ × α)) : Prop := l.Pairwise fun a b => a.1 ≤ b.1

/-- The entries from a bound on. -/
def since (bound : κ) (l : List (κ × α)) : List (κ × α) := l.filter fun e => decide (bound ≤ e.1)

variable {bound bound' : κ} {l : List (κ × α)}

theorem since_append (l' : List (κ × α)) :
    since bound (l ++ l') = since bound l ++ since bound l' :=
  List.filter_append ..

theorem since_eq_self (h : ∀ e ∈ l, bound ≤ e.1) : since bound l = l :=
  List.filter_eq_self.mpr fun e he => decide_eq_true (h e he)

/-- A later bound is all that counts. -/
theorem since_since (h : bound ≤ bound') : since bound' (since bound l) = since bound' l := by
  rw [since, since, List.filter_filter]
  refine List.filter_congr fun e _ => ?_
  by_cases hle : bound' ≤ e.1
  · rw [decide_eq_true hle, decide_eq_true (h.trans hle)]
    rfl
  · rw [decide_eq_false hle]
    rfl

theorem Ordered.since (h : Ordered l) : Ordered (since bound l) := h.filter _

/-- The oldest entry is dropped, or nothing is. -/
theorem since_cons {e : κ × α} (h : Ordered (e :: l)) :
    since bound (e :: l) = if e.1 < bound then since bound l else e :: l := by
  split
  · next hlt => rw [TimeWindow.since, List.filter_cons_of_neg (by simpa using hlt)]; rfl
  · next hge =>
    refine since_eq_self fun e' he' => ?_
    rcases List.mem_cons.mp he' with rfl | he'
    · exact not_lt.mp hge
    · exact (not_lt.mp hge).trans (List.rel_of_pairwise_cons h he')

theorem Ordered.append_singleton {e : κ × α} (h : Ordered l) (hlast : ∀ e' ∈ l, e'.1 ≤ e.1) :
    Ordered (l ++ [e]) :=
  List.pairwise_append.mpr ⟨h, List.pairwise_singleton _ _, fun a ha b hb => by
    rw [List.mem_singleton.mp hb]
    exact hlast a ha⟩

end EcuTelemetry.TimeWindow
