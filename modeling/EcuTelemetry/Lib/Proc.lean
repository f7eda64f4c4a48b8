/-
  EcuTelemetry.Lib.Proc

  Procedures over a mutable state that can raise an exception.  What a
  procedure did before it raised stays done: the state is returned with the
  exception.

  Two kinds of rules.  `Keeps R m`: whatever `m` does, the state after it is
  related by the preorder `R` to the state before, exception or not.
  `Triple P m Q E`: from a state with `P`, a return gives `Q` and an exception
  leaves `E`; with `E` false, `m` does not raise.
-/

import Mathlib.Order.Defs.Unbundled

namespace EcuTelemetry

/-- A procedure on states `σ` that returns an `α` or raises an `ε`. -/
def Proc (ε σ α : Type) : Type := σ → Except ε α × σ

namespace Proc

variable {ε σ τ α β : Type}

instance : Monad (Proc ε σ) where
  pure a := fun s => (.ok a, s)
  bind m f := fun s =>
    match m s with
    | (.ok a, s') => f a s'
    | (.error e, s') => (.error e, s')

def get : Proc ε σ σ := fun s => (.ok s, s)
def modify (f : σ → σ) : Proc ε σ Unit := fun s => (.ok (), f s)
def raise (e : ε) : Proc ε σ α := fun s => (.error e, s)

/-- A pure computation that can raise. -/
def ofExcept (r : Except ε α) : Proc ε σ α := fun s => (r, s)

/-- An `if` with one branch. -/
def when (c : Prop) [Decidable c] (m : Proc ε σ Unit) : Proc ε σ Unit := if c then m else pure ()

/-- A `for` loop. -/
def forEach : List α → (α → Proc ε σ Unit) → Proc ε σ Unit
  | [], _ => pure ()
  | x :: xs, body => do
    body x
    forEach xs body

/-- A `for` loop that appends to one list. -/
def collect : List α → (α → Proc ε σ (List β)) → Proc ε σ (List β)
  | [], _ => pure []
  | x :: xs, body => do
    let ys ← body x
    let zs ← collect xs body
    return ys ++ zs

/-- `try: m` with a handler that runs when `m` raises; the exception goes on. -/
def onError (m : Proc ε σ α) (h : Proc ε σ Unit) : Proc ε σ α := fun s =>
  match m s with
  | (.ok a, s') => (.ok a, s')
  | (.error e, s') => (.error e, (h s').2)

/-- Run a procedure on a part of a larger state. -/
def zoom (part : τ → σ) (put : σ → τ → τ) (m : Proc ε σ α) : Proc ε τ α := fun t =>
  let (r, s) := m (part t)
  (r, put s t)

/-! ## Running -/

@[simp] theorem pure_run (a : α) (s : σ) : (pure a : Proc ε σ α) s = (.ok a, s) := rfl
@[simp] theorem get_run (s : σ) : (get : Proc ε σ σ) s = (.ok s, s) := rfl
@[simp] theorem modify_run (f : σ → σ) (s : σ) : (modify f : Proc ε σ Unit) s = (.ok (), f s) := rfl
@[simp] theorem raise_run (e : ε) (s : σ) : (raise e : Proc ε σ α) s = (.error e, s) := rfl
@[simp] theorem ofExcept_run (r : Except ε α) (s : σ) : ofExcept r s = (r, s) := rfl

theorem bind_run (m : Proc ε σ α) (f : α → Proc ε σ β) (s : σ) :
    (m >>= f) s = match m s with
      | (.ok a, s') => f a s'
      | (.error e, s') => (.error e, s') := rfl

theorem bind_run_ok {m : Proc ε σ α} {f : α → Proc ε σ β} {s s' : σ} {a : α}
    (h : m s = (.ok a, s')) : (m >>= f) s = f a s' := by
  rw [bind_run, h]

theorem bind_run_error {m : Proc ε σ α} {f : α → Proc ε σ β} {s s' : σ} {e : ε}
    (h : m s = (.error e, s')) : (m >>= f) s = (.error e, s') := by
  rw [bind_run, h]

instance : LawfulMonad (Proc ε σ) := LawfulMonad.mk' (Proc ε σ)
  (fun m => by
    funext s
    show (m >>= pure) s = m s
    rw [bind_run]
    rcases m s with ⟨_ | a, s'⟩ <;> rfl)
  (fun _ _ => rfl)
  (fun m f g => by
    funext s
    show ((m >>= f) >>= g) s = (m >>= fun a => f a >>= g) s
    rw [bind_run, bind_run, bind_run]
    rcases m s with ⟨_ | a, s'⟩ <;> rfl)

theorem modify_bind_run (f : σ → σ) (g : Unit → Proc ε σ β) (s : σ) :
    (modify f >>= g) s = g () (f s) := rfl

/-- A loop over two lists in a row. -/
theorem forEach_append (xs ys : List α) (body : α → Proc ε σ Unit) :
    forEach (xs ++ ys) body = forEach xs body >>= fun _ => forEach ys body := by
  induction xs with
  | nil => rfl
  | cons x xs ih =>
    rw [List.cons_append, forEach, forEach, ih]
    funext s
    simp only [bind_run]
    rcases body x s with ⟨_ | _, s'⟩ <;> rfl

/-- And the loop that collects results. -/
theorem collect_append (xs ys : List α) (body : α → Proc ε σ (List β)) :
    collect (xs ++ ys) body = (do
      let a ← collect xs body
      let b ← collect ys body
      return a ++ b) := by
  induction xs with
  | nil =>
    show collect ys body = collect ys body >>= fun b => pure ([] ++ b)
    simp only [List.nil_append, bind_pure]
  | cons x xs ih =>
    rw [List.cons_append, collect, collect, ih]
    simp only [bind_assoc, pure_bind, List.append_assoc]

/-- What returns has returned step by step. -/
theorem exists_of_bind_ok {m : Proc ε σ α} {f : α → Proc ε σ β} {s : σ} {b : β}
    (h : ((m >>= f) s).1 = .ok b) : ∃ a s', m s = (.ok a, s') ∧ (f a s').1 = .ok b := by
  rw [bind_run] at h
  rcases hrun : m s with ⟨e | a, s'⟩
  · rw [hrun] at h
    cases h
  · rw [hrun] at h
    exact ⟨a, s', rfl, h⟩

/-- A constant result does not change the state. -/
theorem bind_pure_state (m : Proc ε σ α) (b : β) (s : σ) :
    ((m >>= fun _ => pure b) s).2 = (m s).2 := by
  rw [bind_run]
  rcases m s with ⟨_ | a, s'⟩ <;> rfl

theorem map_run (f : α → β) (m : Proc ε σ α) (s : σ) :
    (f <$> m) s = match m s with
      | (.ok a, s') => (.ok (f a), s')
      | (.error e, s') => (.error e, s') := rfl

/-! ## Two-state relations -/

section Keeps

variable {R : σ → σ → Prop}

/-- Every run of `m` stays within `R`. -/
def Keeps (R : σ → σ → Prop) (m : Proc ε σ α) : Prop := ∀ s, R s (m s).2

theorem Keeps.weaken {S : σ → σ → Prop} {m : Proc ε σ α} (h : Keeps R m)
    (hS : ∀ s s', R s s' → S s s') : Keeps S m := fun s => hS _ _ (h s)

theorem Keeps.exists_run {m : Proc ε σ α} (h : Keeps R m) (s : σ) :
    ∃ r s', m s = (r, s') ∧ R s s' := ⟨_, _, rfl, h s⟩

theorem Keeps.modify {f : σ → σ} (h : ∀ s, R s (f s)) :
    Keeps R (modify f : Proc ε σ Unit) := h

theorem Keeps.map {m : Proc ε σ α} (hm : Keeps R m) (f : α → β) : Keeps R (f <$> m) := by
  intro s
  have h := hm s
  rw [map_run]
  split
  · next a s' hs => rw [hs] at h; exact h
  · next e s' hs => rw [hs] at h; exact h

theorem Keeps.zoom {S : τ → τ → Prop} {part : τ → σ} {put : σ → τ → τ} {m : Proc ε σ α}
    (hm : Keeps R m) (h : ∀ t s, R (part t) s → S t (put s t)) : Keeps S (zoom part put m) :=
  fun t => h t _ (hm (part t))

/-- A handler runs after what was kept up to the error. -/
theorem Keeps.onError {S : σ → σ → Prop} [IsPreorder σ S] {m : Proc ε σ α} {h : Proc ε σ Unit}
    (hm : Keeps S m) (hh : Keeps S h) : Keeps S (onError m h) := by
  intro s
  have hs := hm s
  rw [Proc.onError]
  split
  · next a s' hrun => rw [hrun] at hs; exact hs
  · next e s' hrun => rw [hrun] at hs; exact trans_of S hs (hh s')

theorem Keeps.ite {c : Prop} [Decidable c] {m n : Proc ε σ α} (hm : c → Keeps R m)
    (hn : ¬ c → Keeps R n) : Keeps R (if c then m else n) := by
  split
  · next h => exact hm h
  · next h => exact hn h

variable [IsPreorder σ R]

theorem Keeps.pure (a : α) : Keeps R (pure a : Proc ε σ α) := fun s => refl_of R s
theorem Keeps.get : Keeps R (get : Proc ε σ σ) := fun s => refl_of R s
theorem Keeps.raise (e : ε) : Keeps R (raise e : Proc ε σ α) := fun s => refl_of R s
theorem Keeps.ofExcept (r : Except ε α) : Keeps R (ofExcept r : Proc ε σ α) :=
  fun s => refl_of R s

/-- The rule for `>>=` at one state, where `f` runs from a state that `m` reaches. -/
theorem rel_bind {m : Proc ε σ α} {f : α → Proc ε σ β} {s : σ} (hm : R s (m s).2)
    (hf : ∀ a s', R s s' → R s' (f a s').2) : R s ((m >>= f) s).2 := by
  rw [bind_run]
  split
  · next a s' hs => rw [hs] at hm; exact trans_of R hm (hf a s' hm)
  · next e s' hs => rw [hs] at hm; exact hm

theorem Keeps.bind {m : Proc ε σ α} {f : α → Proc ε σ β} (hm : Keeps R m)
    (hf : ∀ a, Keeps R (f a)) : Keeps R (m >>= f) :=
  fun s => rel_bind (hm s) fun a s' _ => hf a s'

theorem Keeps.when {c : Prop} [Decidable c] {m : Proc ε σ Unit} (hm : c → Keeps R m) :
    Keeps R (when c m) := Keeps.ite hm fun _ => Keeps.pure ()

theorem Keeps.ofExcept_bind {r : Except ε α} {f : α → Proc ε σ β}
    (h : ∀ a, r = .ok a → Keeps R (f a)) : Keeps R (Proc.ofExcept r >>= f) := by
  cases r with
  | error e => exact Keeps.raise e
  | ok a => exact h a rfl

theorem Keeps.forEach {xs : List α} {body : α → Proc ε σ Unit}
    (h : ∀ x ∈ xs, Keeps R (body x)) : Keeps R (forEach xs body) := by
  induction xs with
  | nil => exact Keeps.pure ()
  | cons x xs ih =>
    obtain ⟨hx, hxs⟩ := List.forall_mem_cons.mp h
    exact hx.bind fun _ => ih hxs

theorem Keeps.collect {xs : List α} {body : α → Proc ε σ (List β)}
    (h : ∀ x ∈ xs, Keeps R (body x)) : Keeps R (collect xs body) := by
  induction xs with
  | nil => exact Keeps.pure []
  | cons x xs ih =>
    obtain ⟨hx, hxs⟩ := List.forall_mem_cons.mp h
    exact hx.bind fun ys => (ih hxs).bind fun zs => Keeps.pure _

end Keeps

/-! ## Procedures without exceptions -/

section Total

theorem exists_run_ok (m : Proc Empty σ α) (s : σ) : ∃ a, m s = (.ok a, (m s).2) := by
  rcases hrun : m s with ⟨e | a, s'⟩
  · exact e.elim
  · exact ⟨a, rfl⟩

/-- One statement after another. -/
theorem unit_bind_run (m : Proc Empty σ Unit) (f : Unit → Proc Empty σ β) (s : σ) :
    (m >>= f) s = f () (m s).2 := by
  obtain ⟨a, ha⟩ := exists_run_ok m s
  exact bind_run_ok ha

theorem Keeps.exists_run_ok {R : σ → σ → Prop} {m : Proc Empty σ α} (h : Keeps R m) (s : σ) :
    ∃ a s', m s = (.ok a, s') ∧ R s s' := by
  obtain ⟨a, ha⟩ := Proc.exists_run_ok m s
  exact ⟨a, _, ha, h s⟩

end Total

/-! ## Invariants -/

section Holds

/-- An invariant as a relation of two states. -/
def Holds (I : σ → Prop) (s s' : σ) : Prop := I s → I s'

instance (I : σ → Prop) : IsPreorder σ (Holds I) where
  refl _ h := h
  trans _ _ _ h h' hs := h' (h hs)

end Holds

/-! ## Pre- and postconditions -/

section Triple

variable {P : σ → Prop} {E : σ → Prop}

/-- From `P`, a return gives `Q` and an exception leaves `E`. -/
def Triple (P : σ → Prop) (m : Proc ε σ α) (Q : α → σ → Prop) (E : σ → Prop) : Prop :=
  ∀ s, P s → match m s with
    | (.ok a, s') => Q a s'
    | (.error _, s') => E s'

theorem Triple.always (m : Proc ε σ α) :
    Triple P m (fun _ _ => True) (fun _ => True) := by
  intro s _
  split <;> trivial

theorem Triple.pure {Q : α → σ → Prop} {a : α} (h : ∀ s, P s → Q a s) :
    Triple P (pure a : Proc ε σ α) Q E := h

theorem Triple.get {Q : σ → σ → Prop} (h : ∀ s, P s → Q s s) :
    Triple P (get : Proc ε σ σ) Q E := h

theorem Triple.modify {f : σ → σ} {Q : Unit → σ → Prop} (h : ∀ s, P s → Q () (f s)) :
    Triple P (modify f : Proc ε σ Unit) Q E := h

theorem Triple.raise {Q : α → σ → Prop} {e : ε} (h : ∀ s, P s → E s) :
    Triple P (raise e : Proc ε σ α) Q E := h

theorem Triple.ofExcept {r : Except ε α} {Q : α → σ → Prop}
    (hok : ∀ a, r = .ok a → ∀ s, P s → Q a s) (herr : ∀ e, r = .error e → ∀ s, P s → E s) :
    Triple P (ofExcept r : Proc ε σ α) Q E := by
  intro s hs
  cases r with
  | ok a => exact hok a rfl s hs
  | error e => exact herr e rfl s hs

/-- The rule of sequence. -/
theorem Triple.bind {m : Proc ε σ α} {f : α → Proc ε σ β} {Q : α → σ → Prop}
    {S : β → σ → Prop} (hm : Triple P m Q E) (hf : ∀ a, Triple (Q a) (f a) S E) :
    Triple P (m >>= f) S E := by
  intro s hs
  have h := hm s hs
  rw [bind_run]
  rcases hrun : m s with ⟨_ | a, s'⟩
  · rw [hrun] at h; exact h
  · rw [hrun] at h; exact hf a s' h

/-- The rule for `>>=` after a pure computation that returns. -/
theorem Triple.ok_bind {r : Except ε α} {a : α} {f : α → Proc ε σ β} {S : β → σ → Prop}
    (hr : r = .ok a) (hf : Triple P (f a) S E) : Triple P (Proc.ofExcept r >>= f) S E := by
  rw [hr]
  exact hf

/-- A part of the precondition that is not about the state. -/
theorem Triple.of_and {p : Prop} {m : Proc ε σ α} {Q : α → σ → Prop} (h : p → Triple P m Q E) :
    Triple (fun s => p ∧ P s) m Q E := fun s hs => h hs.1 s hs.2

/-- The rule of consequence. -/
theorem Triple.weaken {P' : σ → Prop} {Q Q' : α → σ → Prop} {E' : σ → Prop} {m : Proc ε σ α}
    (h : Triple P m Q E) (hP : ∀ s, P' s → P s) (hQ : ∀ a s, Q a s → Q' a s)
    (hE : ∀ s, E s → E' s) : Triple P' m Q' E' := by
  intro s hs
  have h := h s (hP s hs)
  rcases hrun : m s with ⟨_ | a, s'⟩
  · rw [hrun] at h; exact hE s' h
  · rw [hrun] at h; exact hQ a s' h

theorem Triple.ite {c : Prop} [Decidable c] {m n : Proc ε σ α} {Q : α → σ → Prop}
    (hm : c → Triple P m Q E) (hn : ¬ c → Triple P n Q E) :
    Triple P (if c then m else n) Q E := by
  split
  · next h => exact hm h
  · next h => exact hn h

/-- An invariant that holds on return and on an exception holds of the state. -/
theorem Triple.state {I : σ → Prop} {m : Proc ε σ α} {s : σ} (h : Triple P m (fun _ => I) I)
    (hs : P s) : I (m s).2 := by
  have h := h s hs
  rcases hrun : m s with ⟨_ | a, s'⟩ <;>
  · rw [hrun] at h
    exact h

/-- What `m` keeps of the state before it holds next to its postcondition. -/
theorem Triple.frame {Q : α → σ → Prop} {I : σ → Prop} {R : σ → σ → Prop} {m : Proc ε σ α}
    (h : Triple P m Q E) (hkeep : Keeps R m) (hI : ∀ s s', R s s' → I s → I s') :
    Triple (fun s => I s ∧ P s) m (fun a s => I s ∧ Q a s) E := by
  intro s hs
  have h := h s hs.2
  have hR := hkeep s
  rcases hrun : m s with ⟨_ | a, s'⟩
  · rw [hrun] at h; exact h
  · rw [hrun] at h hR; exact ⟨hI s s' hR hs.1, h⟩

/-- A loop invariant. -/
theorem Triple.forEach {xs : List α} {body : α → Proc ε σ Unit}
    (h : ∀ x ∈ xs, Triple P (body x) (fun _ => P) E) :
    Triple P (forEach xs body) (fun _ => P) E := by
  induction xs with
  | nil => exact Triple.pure fun _ hs => hs
  | cons x xs ih =>
    obtain ⟨hx, hxs⟩ := List.forall_mem_cons.mp h
    exact hx.bind fun _ => ih hxs

/-- A loop that collects results under an invariant. -/
theorem Triple.collect_inv {xs : List α} {body : α → Proc ε σ (List β)}
    (h : ∀ x ∈ xs, Triple P (body x) (fun _ => P) E) :
    Triple P (collect xs body) (fun _ => P) E := by
  induction xs with
  | nil => exact Triple.pure fun _ hs => hs
  | cons x xs ih =>
    obtain ⟨hx, hxs⟩ := List.forall_mem_cons.mp h
    exact hx.bind fun _ => (ih hxs).bind fun _ => Triple.pure fun _ hs => hs

/-- One round makes the difference; the others keep what holds. -/
theorem Triple.collect_one {xs : List α} {body : α → Proc ε σ (List β)} {Q : σ → Prop} {x : α}
    (hmem : x ∈ xs) (hnodup : xs.Nodup)
    (hbefore : ∀ y ∈ xs, y ≠ x → Triple P (body y) (fun _ => P) E)
    (hone : Triple P (body x) (fun _ => Q) E)
    (hafter : ∀ y ∈ xs, y ≠ x → Triple Q (body y) (fun _ => Q) E) :
    Triple P (collect xs body) (fun _ => Q) E := by
  induction xs with
  | nil => exact absurd hmem List.not_mem_nil
  | cons y ys ih =>
    obtain ⟨hy, hnodup⟩ := List.nodup_cons.mp hnodup
    obtain ⟨hby, hbys⟩ := List.forall_mem_cons.mp hbefore
    obtain ⟨hay, hays⟩ := List.forall_mem_cons.mp hafter
    by_cases hyx : y = x
    · -- this is the round
      subst hyx
      have hrest : Triple Q (collect ys body) (fun _ => Q) E :=
        Triple.collect_inv fun z hz => hays z hz fun hzy => hy (hzy ▸ hz)
      exact hone.bind fun _ => hrest.bind fun _ => Triple.pure fun _ hs => hs
    · have hmem' : x ∈ ys := (List.mem_cons.mp hmem).resolve_left fun h => hyx h.symm
      exact (hby hyx).bind fun _ => (ih hmem' hnodup hbys hays).bind fun _ =>
        Triple.pure fun _ hs => hs

/-- A property of every collected element that later rounds keep. -/
theorem Triple.collect {xs : List α} {body : α → Proc ε σ (List β)} {Q : β → σ → Prop}
    {R : σ → σ → Prop} [IsPreorder σ R] (hkeep : ∀ x ∈ xs, Keeps R (body x))
    (hstable : ∀ b s s', R s s' → Q b s → Q b s')
    (h : ∀ x ∈ xs, Triple (fun _ => True) (body x) (fun ys s => ∀ y ∈ ys, Q y s) E) :
    Triple (fun _ => True) (collect xs body) (fun ys s => ∀ y ∈ ys, Q y s) E := by
  induction xs with
  | nil => exact Triple.pure fun s _ y hy => absurd hy List.not_mem_nil
  | cons x xs ih =>
    obtain ⟨hx, hxs⟩ := List.forall_mem_cons.mp h
    obtain ⟨-, hkeep⟩ := List.forall_mem_cons.mp hkeep
    refine hx.bind fun ys => ?_
    -- the rounds to come keep what this round established
    have hrest := (ih hkeep hxs).frame (I := fun s => ∀ y ∈ ys, Q y s) (Keeps.collect hkeep)
      fun s s' hR hI y hy => hstable y s s' hR (hI y hy)
    refine Triple.bind (Triple.weaken hrest (fun s hs => ⟨hs, trivial⟩) (fun _ _ h => h)
      fun _ h => h) fun zs => Triple.pure fun s hs y hy => ?_
    rcases List.mem_append.mp hy with hy | hy
    · exact hs.1 y hy
    · exact hs.2 y hy

/-- `m` raises no exception. -/
def NoRaise (m : Proc ε σ α) : Prop := ∀ s, ∃ a, (m s).1 = .ok a

theorem NoRaise.pure (a : α) : NoRaise (pure a : Proc ε σ α) := fun _ => ⟨a, rfl⟩
theorem NoRaise.get : NoRaise (get : Proc ε σ σ) := fun s => ⟨s, rfl⟩
theorem NoRaise.modify (f : σ → σ) : NoRaise (modify f : Proc ε σ Unit) := fun _ => ⟨(), rfl⟩

theorem NoRaise.bind {m : Proc ε σ α} {f : α → Proc ε σ β} (hm : NoRaise m)
    (hf : ∀ a, NoRaise (f a)) : NoRaise (m >>= f) := by
  intro s
  obtain ⟨a, ha⟩ := hm s
  rw [bind_run_ok (Prod.ext ha rfl)]
  exact hf a _

theorem NoRaise.ite {c : Prop} [Decidable c] {m n : Proc ε σ α} (hm : c → NoRaise m)
    (hn : ¬ c → NoRaise n) : NoRaise (if c then m else n) := by
  split
  · next h => exact hm h
  · next h => exact hn h

theorem NoRaise.zoom {part : τ → σ} {put : σ → τ → τ} {m : Proc ε σ α} (hm : NoRaise m) :
    NoRaise (zoom part put m) := fun t => hm (part t)

/-- A first step that stays within `R` and raises nothing. -/
theorem NoRaise.exists_bind {R : σ → σ → Prop} {m : Proc ε σ α} (hm : NoRaise m) (hR : Keeps R m)
    (f : α → Proc ε σ β) (s : σ) : ∃ a s', R s s' ∧ (m >>= f) s = f a s' := by
  obtain ⟨a, ha⟩ := hm s
  exact ⟨a, (m s).2, hR s, bind_run_ok (Prod.ext ha rfl)⟩

end Triple

end Proc

end EcuTelemetry
