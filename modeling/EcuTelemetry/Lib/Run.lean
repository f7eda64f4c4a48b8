/-
  EcuTelemetry.Lib.Run

  Runs of a deterministic system over a list of events, runs whose every step
  meets a condition on the state it starts from, and the induction over them.
-/

import Mathlib.Data.List.Basic

namespace EcuTelemetry

variable {σ ε : Type}

/-- The state after the events. -/
def exec (step : σ → ε → σ) (s : σ) (es : List ε) : σ := es.foldl step s

/-- Every step meets the condition. -/
def AllSteps (step : σ → ε → σ) (C : σ → ε → Prop) : σ → List ε → Prop
  | _, [] => True
  | s, e :: es => C s e ∧ AllSteps step C (step s e) es

instance AllSteps.decidable (step : σ → ε → σ) (C : σ → ε → Prop)
    [∀ s e, Decidable (C s e)] : ∀ s es, Decidable (AllSteps step C s es)
  | _, [] => isTrue trivial
  | s, e :: es => @instDecidableAnd _ _ _ (AllSteps.decidable step C (step s e) es)

section Rules

variable {step : σ → ε → σ} {C : σ → ε → Prop} {s : σ} {es : List ε}

@[simp] theorem exec_nil : exec step s [] = s := rfl
@[simp] theorem exec_cons (e : ε) : exec step s (e :: es) = exec step (step s e) es := rfl

theorem exec_append (es' : List ε) : exec step s (es ++ es') = exec step (exec step s es) es' :=
  List.foldl_append

theorem AllSteps.of_forall (h : ∀ e ∈ es, ∀ s, C s e) : AllSteps step C s es := by
  induction es generalizing s with
  | nil => trivial
  | cons e es ih =>
    obtain ⟨he, hes⟩ := List.forall_mem_cons.mp h
    exact ⟨he s, ih hes⟩

theorem AllSteps.append {es' : List ε} :
    AllSteps step C s (es ++ es') ↔ AllSteps step C s es ∧
    AllSteps step C (exec step s es) es' := by
  induction es generalizing s with
  | nil => exact ⟨fun h => ⟨trivial, h⟩, fun h => h.2⟩
  | cons e es ih =>
    rw [List.cons_append, AllSteps, AllSteps, ih, exec_cons, and_assoc]

theorem AllSteps.and {D : σ → ε → Prop} (h : AllSteps step C s es) (h' : AllSteps step D s es) :
    AllSteps step (fun s e => C s e ∧ D s e) s es := by
  induction es generalizing s with
  | nil => trivial
  | cons e es ih => exact ⟨⟨h.1, h'.1⟩, ih h.2 h'.2⟩

/-- What every step that meets the condition keeps holds at the end. -/
theorem AllSteps.invariant {P : σ → Prop} (h : AllSteps step C s es)
    (hstep : ∀ s e, C s e → P s → P (step s e)) (hs : P s) : P (exec step s es) := by
  induction es generalizing s with
  | nil => exact hs
  | cons e es ih => exact ih h.2 (hstep s e h.1 hs)

theorem exec_invariant {P : σ → Prop} (hstep : ∀ s e, P s → P (step s e)) (hs : P s) :
    P (exec step s es) := by
  induction es generalizing s with
  | nil => exact hs
  | cons e es ih => exact ih (hstep s e hs)

/-- Where a step keeps `P` exactly if it meets the condition, `P` holds at the end
    exactly if all steps do; `I` is an invariant. -/
theorem allSteps_iff {I P : σ → Prop} (hI : ∀ s e, I s → I (step s e))
    (hP : ∀ s e, I s → (P (step s e) ↔ P s ∧ C s e)) (hs : I s) :
    P (exec step s es) ↔ P s ∧ AllSteps step C s es := by
  induction es generalizing s with
  | nil => exact ⟨fun h => ⟨h, trivial⟩, fun h => h.1⟩
  | cons e es ih => rw [exec_cons, ih (hI s e hs), hP s e hs, AllSteps, and_assoc]

/-- Where a step from a state with `P` keeps `P` exactly if it meets the condition, `P`
    holds in every state reached exactly if all steps do. -/
theorem forall_prefix_iff {P : σ → Prop} (hP : ∀ s e, P s → (P (step s e) ↔ C s e)) (hs : P s) :
    (∀ before after, es = before ++ after → P (exec step s before)) ↔ AllSteps step C s es := by
  induction es generalizing s with
  | nil =>
    refine ⟨fun _ => trivial, fun _ before after h => ?_⟩
    obtain ⟨rfl, -⟩ := List.nil_eq_append_iff.mp h
    exact hs
  | cons e es ih =>
    constructor
    · intro h
      have hfirst : P (step s e) := h [e] es rfl
      refine ⟨(hP s e hs).mp hfirst, (ih hfirst).mp fun before after hes => ?_⟩
      exact h (e :: before) after (by rw [hes]; rfl)
    · rintro ⟨hC, hrest⟩ before after h
      have hfirst : P (step s e) := (hP s e hs).mpr hC
      cases before with
      | nil => exact hs
      | cons x xs =>
        obtain ⟨rfl, hes⟩ := List.cons.inj h
        exact (ih hfirst).mpr hrest xs after hes

end Rules

end EcuTelemetry
