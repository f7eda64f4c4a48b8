/-
  EcuTelemetry.Lib.History

  Histories, the latest entry first: a property of every entry together with
  what was before it.
-/

import Mathlib.Data.List.Infix

namespace EcuTelemetry

variable {α : Type} {P : α → List α → Prop}

/-- `P` of every entry and what was before it. -/
def Throughout (P : α → List α → Prop) (l : List α) : Prop := ∀ e es, e :: es <:+ l → P e es

theorem throughout_nil : Throughout P [] := fun _ _ h =>
  absurd (List.suffix_nil.mp h) (List.cons_ne_nil _ _)

/-- A condition at every event of a history, its newest first. -/
theorem throughout_cons {e : α} {es : List α} :
    Throughout P (e :: es) ↔ P e es ∧ Throughout P es := by
  constructor
  · intro h
    exact ⟨h e es (List.suffix_refl _), fun e' es' hsuf =>
      h e' es' (hsuf.trans (List.suffix_cons e es))⟩
  · rintro ⟨he, hes⟩ e' es' hsuf
    rcases List.suffix_cons_iff.mp hsuf with heq | hsuf
    · obtain ⟨rfl, rfl⟩ := List.cons.inj heq
      exact he
    · exact hes e' es' hsuf

theorem Throughout.cons {e : α} {es : List α} (h : Throughout P es) (he : P e es) :
    Throughout P (e :: es) := throughout_cons.mpr ⟨he, h⟩

theorem Throughout.suffix {l l' : List α} (h : Throughout P l) (hsuf : l' <:+ l) :
    Throughout P l' := fun e es hes => h e es (hes.trans hsuf)

theorem Throughout.weaken {Q : α → List α → Prop} {l : List α} (h : Throughout P l)
    (hQ : ∀ e es, P e es → Q e es) : Throughout Q l := fun e es hes => hQ e es (h e es hes)

/-- Entries that satisfy `P` after anything. -/
theorem Throughout.append {l l' : List α} (h : Throughout P l) (hl' : ∀ e ∈ l', ∀ es, P e es) :
    Throughout P (l' ++ l) := by
  induction l' with
  | nil => exact h
  | cons e es ih =>
    obtain ⟨he, hes⟩ := List.forall_mem_cons.mp hl'
    exact (ih hes).cons (he _)

end EcuTelemetry
