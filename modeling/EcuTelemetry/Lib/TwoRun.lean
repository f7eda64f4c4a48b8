/-
  EcuTelemetry.Lib.TwoRun

  One procedure run from two related states.  `Respects R m`: from states
  related by `R` the procedure gives the same result and leaves related
  states.  Where `R` relates the states that look alike to an observer, this
  says that the observer's view of the outcome is a function of its view of
  the start.
-/

import EcuTelemetry.Lib.Proc

namespace EcuTelemetry.Proc

variable {ε σ α β : Type} {R : σ → σ → Prop}

/-- The same result and related states, from the states `s` and `t`. -/
def Matches (R : σ → σ → Prop) (m n : Proc ε σ α) (s t : σ) : Prop :=
  (m s).1 = (n t).1 ∧ R (m s).2 (n t).2

/-- Related states give the same result and related states. -/
def Respects (R : σ → σ → Prop) (m : Proc ε σ α) : Prop := ∀ s t, R s t → Matches R m m s t

/-- The rule for `>>=` at one pair of states. -/
theorem Matches.bind {m n : Proc ε σ α} {f g : α → Proc ε σ β} {s t : σ} (hm : Matches R m n s t)
    (hf : ∀ a, (m s).1 = .ok a → R (m s).2 (n t).2 → Matches R (f a) (g a) (m s).2 (n t).2) :
    Matches R (m >>= f) (n >>= g) s t := by
  obtain ⟨hres, hstate⟩ := hm
  rw [Matches, bind_run, bind_run]
  rcases hs : m s with ⟨rs, s'⟩
  rcases ht : n t with ⟨rt, t'⟩
  rw [hs, ht] at hres hstate hf
  have hres : rs = rt := hres
  subst hres
  rcases rs with e | a
  · exact ⟨rfl, hstate⟩
  · exact hf a rfl hstate

/-- Both read their states. -/
theorem Matches.get_bind {f g : σ → Proc ε σ β} {s t : σ} (h : Matches R (f s) (g t) s t) :
    Matches R (Proc.get >>= f) (Proc.get >>= g) s t := h

/-- A step on the left alone that returns. -/
theorem Matches.skip {m : Proc ε σ α} {f : α → Proc ε σ β} {n : Proc ε σ β} {s s' t : σ} {a : α}
    (hrun : m s = (.ok a, s')) (h : Matches R (f a) n s' t) : Matches R (m >>= f) n s t := by
  rw [Matches, bind_run_ok hrun]
  exact h

namespace Respects

theorem pure (a : α) : Respects R (pure a : Proc ε σ α) := fun _ _ h => ⟨rfl, h⟩
theorem raise (e : ε) : Respects R (raise e : Proc ε σ α) := fun _ _ h => ⟨rfl, h⟩
theorem ofExcept (r : Except ε α) : Respects R (ofExcept r : Proc ε σ α) := fun _ _ h => ⟨rfl, h⟩

theorem modify {f : σ → σ} (h : ∀ s t, R s t → R (f s) (f t)) :
    Respects R (modify f : Proc ε σ Unit) := fun s t hR => ⟨rfl, h s t hR⟩

theorem bind {m : Proc ε σ α} {f : α → Proc ε σ β} (hm : Respects R m)
    (hf : ∀ a, Respects R (f a)) : Respects R (m >>= f) :=
  fun s t h => (hm s t h).bind fun a _ h' => hf a _ _ h'

/-- What is read of the state is the same in related states. -/
theorem get_bind {f : σ → Proc ε σ β} (hread : ∀ s t, R s t → f s = f t)
    (hf : ∀ s, Respects R (f s)) : Respects R (Proc.get >>= f) := by
  intro s t h
  have hrun : ∀ u, (Proc.get >>= f) u = f u u := fun _ => rfl
  rw [Matches, hrun s, hrun t, hread s t h]
  exact hf t s t h

theorem ite {c : Prop} [Decidable c] {m n : Proc ε σ α} (hm : c → Respects R m)
    (hn : ¬ c → Respects R n) : Respects R (if c then m else n) := by
  split
  · next h => exact hm h
  · next h => exact hn h

theorem forEach {xs : List α} {body : α → Proc ε σ Unit} (h : ∀ x ∈ xs, Respects R (body x)) :
    Respects R (forEach xs body) := by
  induction xs with
  | nil => exact pure ()
  | cons x xs ih =>
    obtain ⟨hx, hxs⟩ := List.forall_mem_cons.mp h
    exact hx.bind fun _ => ih hxs

theorem collect {xs : List α} {body : α → Proc ε σ (List β)} (h : ∀ x ∈ xs, Respects R (body x)) :
    Respects R (collect xs body) := by
  induction xs with
  | nil => exact pure []
  | cons x xs ih =>
    obtain ⟨hx, hxs⟩ := List.forall_mem_cons.mp h
    exact hx.bind fun ys => (ih hxs).bind fun zs => pure _

end Respects

end EcuTelemetry.Proc
