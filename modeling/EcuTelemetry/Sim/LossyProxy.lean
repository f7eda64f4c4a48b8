/-
  EcuTelemetry.Sim.LossyProxy

  The impairments of sim/lossy_proxy.py and the answers of its /set: the keys of
  an update are read and set one after the other, so a refusal leaves what stands
  before it.
-/

import Mathlib.Data.List.Nodup
import EcuTelemetry.Backend.IeeeFloat
import EcuTelemetry.Lib.Run

namespace EcuTelemetry.Sim

open Backend

variable {F : Type} [PyFloat F]

/-! ## Impairments -/

inductive Tunable
  | drop
  | delayMs
  | jitterMs
  | reorder
  | dup
deriving DecidableEq, Repr

namespace Tunable

/-- `TUNABLES`. -/
def key : Tunable → String
  | drop => "drop"
  | delayMs => "delay_ms"
  | jitterMs => "jitter_ms"
  | reorder => "reorder"
  | dup => "dup"

def all : List Tunable := [drop, delayMs, jitterMs, reorder, dup]

def ofKey (k : String) : Option Tunable := all.find? (·.key = k)

/-- `k in ("drop", "reorder", "dup")` -/
def probability : Tunable → Bool
  | drop => true
  | delayMs => false
  | jitterMs => false
  | reorder => true
  | dup => true

theorem ofKey_eq_some {k : String} {t : Tunable} (h : ofKey k = some t) : t.key = k := by
  have := List.find?_some h
  simpa using this

end Tunable

structure Impairments (F : Type) where
  drop : F
  delayMs : F
  jitterMs : F
  reorder : F
  dup : F
deriving DecidableEq

namespace Impairments

def get (imp : Impairments F) : Tunable → F
  | .drop => imp.drop
  | .delayMs => imp.delayMs
  | .jitterMs => imp.jitterMs
  | .reorder => imp.reorder
  | .dup => imp.dup

/-- `setattr(self, k, v)`. -/
def set (imp : Impairments F) (t : Tunable) (x : F) : Impairments F :=
  match t with
  | .drop => { imp with drop := x }
  | .delayMs => { imp with delayMs := x }
  | .jitterMs => { imp with jitterMs := x }
  | .reorder => { imp with reorder := x }
  | .dup => { imp with dup := x }

omit [PyFloat F] in
@[simp] theorem get_set_self (imp : Impairments F) (t : Tunable) (x : F) :
    (imp.set t x).get t = x := by
  cases t <;> rfl

omit [PyFloat F] in
theorem get_set_ne (imp : Impairments F) {t u : Tunable} (x : F) (h : t ≠ u) :
    (imp.set t x).get u = imp.get u := by
  cases t <;> cases u <;> first | rfl | exact absurd rfl h

omit [PyFloat F] in
/-- Impairments are equal when every tunable is. -/
theorem ext_get {a b : Impairments F} (h : ∀ t, a.get t = b.get t) : a = b := by
  cases a
  cases b
  have hd := h .drop
  have hl := h .delayMs
  have hj := h .jitterMs
  have hr := h .reorder
  have hu := h .dup
  simp only [get] at hd hl hj hr hu
  rw [hd, hl, hj, hr, hu]

end Impairments

/-! ## Updates -/

/-- What `update` raises: its own three errors, or what `float(v)` raises. -/
inductive UpdateError
  /-- unknown tunable -/
  | unknown (k : String)
  /-- must be in [0,1] -/
  | notProbability (t : Tunable)
  /-- must be >= 0 -/
  | negative (t : Tunable)
  | float (e : PyError)
deriving DecidableEq, Repr

/-- The handler answers a ValueError or a TypeError. -/
def UpdateError.caught : UpdateError → Bool
  | .float e => e = .valueError ∨ e = .typeError
  | _ => true

/-- The checks on one key. -/
def readTunable (k : String) (v : Json F) : Except UpdateError (Tunable × F) :=
  match Tunable.ofKey k with
  | none => .error (.unknown k)
  | some t =>
    match v.toFloat with
    | .error e => .error (.float e)
    | .ok x =>
      if t.probability ∧ ¬(PyFloat.le (PyFloat.ofRat 0) x ∧ PyFloat.le x (PyFloat.ofRat 1)) then
        .error (.notProbability t)
      else if PyFloat.lt x (PyFloat.ofRat 0) then .error (.negative t)
      else .ok (t, x)

/-- `Impairments.update`, with the state it leaves. -/
def Impairments.update (imp : Impairments F) :
    List (String × Json F) → Except UpdateError Unit × Impairments F
  | [] => (.ok (), imp)
  | (k, v) :: kvs =>
    match readTunable k v with
    | .error e => (.error e, imp)
    | .ok (t, x) => (imp.set t x).update kvs

inductive Answer
  | ok
  | badRequest (e : UpdateError)
  /-- the handler ends with an exception and writes nothing -/
  | none
deriving DecidableEq, Repr

/-- POST /set with a JSON object. -/
def Impairments.post (imp : Impairments F) (values : Dict String (Json F)) :
    Answer × Impairments F :=
  match imp.update values with
  | (.ok (), imp) => (.ok, imp)
  | (.error e, imp) => (if e.caught then .badRequest e else .none, imp)

/-! ## What an update reads -/

/-- The values that are read before a refusal. -/
def taken : List (String × Json F) → List (Tunable × F)
  | [] => []
  | (k, v) :: kvs =>
    match readTunable k v with
    | .error _ => []
    | .ok tx => tx :: taken kvs

/-- The first refusal. -/
def refusal : List (String × Json F) → Option UpdateError
  | [] => .none
  | (k, v) :: kvs =>
    match readTunable k v with
    | .error e => some e
    | .ok _ => refusal kvs

def Impairments.setAll (imp : Impairments F) (txs : List (Tunable × F)) : Impairments F :=
  txs.foldl (fun imp tx => imp.set tx.1 tx.2) imp

/-- `update` applies the values it read before the first that it refuses. -/
theorem update_eq (imp : Impairments F) (kvs : List (String × Json F)) :
    imp.update kvs = ((refusal kvs).elim (.ok ()) .error, imp.setAll (taken kvs)) := by
  induction kvs generalizing imp with
  | nil => rfl
  | cons kv kvs ih =>
    obtain ⟨k, v⟩ := kv
    cases hread : readTunable k v with
    | error e =>
      simp only [Impairments.update, refusal, taken, hread]
      rfl
    | ok tx =>
      simp only [Impairments.update, refusal, taken, hread]
      rw [ih]
      rfl

/-- A value that is read belongs to its key and passes its checks. -/
theorem readTunable_ok {k : String} {v : Json F} {t : Tunable} {x : F}
    (h : readTunable k v = .ok (t, x)) :
    t.key = k ∧ v.toFloat = .ok x ∧
      (t.probability = true → PyFloat.le (PyFloat.ofRat 0) x = true ∧
        PyFloat.le x (PyFloat.ofRat 1) = true) ∧
      PyFloat.lt x (PyFloat.ofRat 0) = false := by
  rw [readTunable] at h
  cases hkey : Tunable.ofKey k with
  | none =>
    rw [hkey] at h
    cases h
  | some u =>
    rw [hkey] at h
    cases hfloat : v.toFloat with
    | error e =>
      rw [hfloat] at h
      cases h
    | ok y =>
      rw [hfloat] at h
      simp only at h
      -- past both range checks the value is taken
      split_ifs at h with hprob hneg
      cases h
      refine ⟨Tunable.ofKey_eq_some hkey, rfl, fun ht => ?_, by simpa using hneg⟩
      by_contra hrange
      exact hprob ⟨ht, hrange⟩

/-- A value taken comes from a pair of the request. -/
theorem mem_taken {kvs : List (String × Json F)} {t : Tunable} {x : F} (h : (t, x) ∈ taken kvs) :
    ∃ v, (t.key, v) ∈ kvs ∧ readTunable t.key v = .ok (t, x) := by
  induction kvs with
  | nil => cases h
  | cons kv kvs ih =>
    obtain ⟨k, v⟩ := kv
    cases hread : readTunable k v with
    | error e =>
      rw [taken, hread] at h
      cases h
    | ok tx =>
      rw [taken, hread] at h
      rcases List.mem_cons.mp h with rfl | h
      · have hkey := (readTunable_ok hread).1
        subst hkey
        exact ⟨v, List.mem_cons_self, hread⟩
      · obtain ⟨w, hw, hread'⟩ := ih h
        exact ⟨w, List.mem_cons_of_mem _ hw, hread'⟩

/-- A JSON object has every key once, so every tunable is set once. -/
theorem taken_nodup {kvs : List (String × Json F)} (hd : Dict.Distinct kvs) :
    ((taken kvs).map Prod.fst).Nodup := by
  induction kvs with
  | nil => exact List.nodup_nil
  | cons kv kvs ih =>
    obtain ⟨k, v⟩ := kv
    obtain ⟨hk, hd⟩ := List.nodup_cons.mp hd
    cases hread : readTunable k v with
    | error e =>
      rw [taken, hread]
      exact List.nodup_nil
    | ok tx =>
      rw [taken, hread]
      refine List.nodup_cons.mpr ⟨fun hmem => hk ?_, ih hd⟩
      obtain ⟨uy, huy, hfst⟩ := List.mem_map.mp hmem
      obtain ⟨w, hw, -⟩ := mem_taken huy
      rw [hfst, (readTunable_ok hread).1] at hw
      exact List.mem_map.mpr ⟨_, hw, rfl⟩

omit [PyFloat F] in
theorem get_setAll_not_mem {txs : List (Tunable × F)} {t : Tunable} (imp : Impairments F)
    (h : t ∉ txs.map Prod.fst) : (imp.setAll txs).get t = imp.get t := by
  induction txs generalizing imp with
  | nil => rfl
  | cons ux txs ih =>
    rw [List.map_cons, List.mem_cons, not_or] at h
    exact (ih _ h.2).trans (imp.get_set_ne _ (Ne.symm h.1))

omit [PyFloat F] in
/-- Each tunable set has the value it was set to. -/
theorem get_setAll {txs : List (Tunable × F)} (hnodup : (txs.map Prod.fst).Nodup)
    (imp : Impairments F) {t : Tunable} {x : F} (h : (t, x) ∈ txs) :
    (imp.setAll txs).get t = x := by
  induction txs generalizing imp with
  | nil => cases h
  | cons ux txs ih =>
    obtain ⟨hu, hnodup⟩ := List.nodup_cons.mp hnodup
    rcases List.mem_cons.mp h with rfl | h
    · exact (get_setAll_not_mem _ hu).trans (imp.get_set_self _ _)
    · exact ih hnodup _ h

/-- Without a refusal every key is read. -/
theorem taken_of_refusal_none {kvs : List (String × Json F)} (h : refusal kvs = .none) {k : String}
    {v : Json F} (hmem : (k, v) ∈ kvs) :
    ∃ t x, readTunable k v = .ok (t, x) ∧ (t, x) ∈ taken kvs := by
  induction kvs with
  | nil => cases hmem
  | cons kv kvs ih =>
    obtain ⟨k', v'⟩ := kv
    cases hread : readTunable k' v' with
    | error e =>
      rw [refusal, hread] at h
      cases h
    | ok tx =>
      rw [refusal, hread] at h
      rw [taken, hread]
      rcases List.mem_cons.mp hmem with heq | hmem
      · cases heq
        exact ⟨tx.1, tx.2, hread, List.mem_cons_self⟩
      · obtain ⟨t, x, hread', htaken⟩ := ih h hmem
        exact ⟨t, x, hread', List.mem_cons_of_mem _ htaken⟩

/-! ## All or nothing -/

/-- Probabilities in [0, 1], delays of at least zero. -/
def Impairments.InRange (imp : Impairments F) : Prop :=
  ∀ t, PyFloat.le (PyFloat.ofRat 0) (imp.get t) = true ∧
    (t.probability = true → PyFloat.le (imp.get t) (PyFloat.ofRat 1) = true)

/-- Every key is set to the number of its value, and nothing else is. -/
def Applied (imp : Impairments F) (values : Dict String (Json F)) (imp' : Impairments F) : Prop :=
  (∀ k v, (k, v) ∈ values → ∃ t x, t.key = k ∧ v.toFloat = .ok x ∧ imp'.get t = x) ∧
  ∀ t : Tunable, t.key ∉ values.map Prod.fst → imp'.get t = imp.get t

def Atomic (imp : Impairments F) (values : Dict String (Json F)) : Prop :=
  ((imp.post values).1 = .ok ∧ Applied imp values (imp.post values).2) ∨
  ((∃ e, (imp.post values).1 = .badRequest e) ∧ (imp.post values).2 = imp)

/-- Where nothing is refused, no value is NaN; where a key is refused, it is for what
    the handler answers, and the values before it are those in force. -/
def Harmless (imp : Impairments F) (values : Dict String (Json F)) : Prop :=
  match refusal values with
  | .none => ∀ tx ∈ taken values, PyFloat.eq tx.2 tx.2 = true
  | some e => e.caught = true ∧ ∀ tx ∈ taken values, imp.get tx.1 = tx.2

/-- Only a NaN is neither below zero nor at least zero. -/
class NanOrder (F : Type) [PyFloat F] : Prop where
  le_iff (x : F) : PyFloat.lt x (PyFloat.ofRat 0) = false →
    (PyFloat.le (PyFloat.ofRat 0) x = true ↔ PyFloat.eq x x = true)

section Posts

variable {imp : Impairments F} {values : Dict String (Json F)}

theorem post_ok (h : refusal values = .none) :
    imp.post values = (.ok, imp.setAll (taken values)) := by
  rw [Impairments.post, update_eq, h]
  rfl

theorem post_refused {e : UpdateError} (h : refusal values = some e) :
    imp.post values =
      (if e.caught then .badRequest e else .none, imp.setAll (taken values)) := by
  rw [Impairments.post, update_eq, h]
  rfl

/-- An update without a refusal applies every value. -/
theorem applied_setAll (hd : Dict.Distinct values) (h : refusal values = .none) :
    Applied imp values (imp.setAll (taken values)) := by
  constructor
  · intro k v hmem
    obtain ⟨t, x, hread, htaken⟩ := taken_of_refusal_none h hmem
    obtain ⟨hkey, hfloat, -, -⟩ := readTunable_ok hread
    exact ⟨t, x, hkey, hfloat, get_setAll (taken_nodup hd) imp htaken⟩
  · intro t ht
    apply get_setAll_not_mem
    intro hmem
    obtain ⟨⟨u, x⟩, hux, rfl⟩ := List.mem_map.mp hmem
    obtain ⟨v, hv, -⟩ := mem_taken hux
    exact ht (List.mem_map.mpr ⟨_, hv, rfl⟩)

omit [PyFloat F] in
/-- And changes nothing exactly when every value was in force. -/
theorem setAll_eq_self_iff {txs : List (Tunable × F)} (hnodup : (txs.map Prod.fst).Nodup) :
    imp.setAll txs = imp ↔ ∀ tx ∈ txs, imp.get tx.1 = tx.2 := by
  constructor
  · rintro h ⟨t, x⟩ htx
    have hset := get_setAll hnodup imp htx
    rwa [h] at hset
  · intro h
    apply Impairments.ext_get
    intro t
    by_cases ht : t ∈ txs.map Prod.fst
    · obtain ⟨⟨u, x⟩, hux, rfl⟩ := List.mem_map.mp ht
      rw [get_setAll hnodup imp hux, h _ hux]
    · exact get_setAll_not_mem imp ht

/-- The values read keep the ranges where none of them is NaN. -/
theorem inRange_setAll_iff [NanOrder F] (hd : Dict.Distinct values) (himp : imp.InRange) :
    (imp.setAll (taken values)).InRange ↔ ∀ tx ∈ taken values, PyFloat.eq tx.2 tx.2 = true := by
  constructor
  · rintro h ⟨t, x⟩ htx
    obtain ⟨v, -, hread⟩ := mem_taken htx
    have hle := (h t).1
    rw [get_setAll (taken_nodup hd) imp htx] at hle
    exact (NanOrder.le_iff x (readTunable_ok hread).2.2.2).mp hle
  · intro h t
    by_cases ht : t ∈ (taken values).map Prod.fst
    · obtain ⟨⟨u, x⟩, hux, rfl⟩ := List.mem_map.mp ht
      obtain ⟨v, -, hread⟩ := mem_taken hux
      obtain ⟨-, -, hprob, hneg⟩ := readTunable_ok hread
      rw [get_setAll (taken_nodup hd) imp hux]
      exact ⟨(NanOrder.le_iff x hneg).mpr (h _ hux), fun hp => (hprob hp).2⟩
    · rw [get_setAll_not_mem imp ht]
      exact himp t

/-- One post, in a state that is in range. -/
theorem post_iff [NanOrder F] (hd : Dict.Distinct values) (himp : imp.InRange) :
    Atomic imp values ∧ (imp.post values).2.InRange ↔ Harmless imp values := by
  rw [Harmless, Atomic]
  cases h : refusal values with
  | none =>
    rw [post_ok h, inRange_setAll_iff hd himp]
    exact ⟨fun hgood => hgood.2, fun hnan => ⟨.inl ⟨rfl, applied_setAll hd h⟩, hnan⟩⟩
  | some e =>
    rw [post_refused h]
    show _ ↔ e.caught = true ∧ ∀ tx ∈ taken values, imp.get tx.1 = tx.2
    rw [← setAll_eq_self_iff (taken_nodup hd)]
    -- an exception that the handler does not catch is no answer at all
    by_cases hcaught : e.caught = true
    · simp only [hcaught, if_true]
      constructor
      · rintro ⟨⟨hok, -⟩ | ⟨-, heq⟩, -⟩
        · cases hok
        · exact ⟨trivial, heq⟩
      · rintro ⟨-, heq⟩
        refine ⟨.inr ⟨⟨e, rfl⟩, heq⟩, ?_⟩
        rw [heq]
        exact himp
    · simp only [hcaught]
      constructor
      · rintro ⟨⟨hok, -⟩ | ⟨⟨e', he'⟩, -⟩, -⟩
        · cases hok
        · cases he'
      · rintro ⟨hfalse, -⟩
        cases hfalse

end Posts

/-! ## Runs -/

/-- The profile after a post. -/
def serve (imp : Impairments F) (values : Dict String (Json F)) : Impairments F :=
  (imp.post values).2

/-- From valid start-up values on: every post is all or nothing and leaves a profile
    in range, exactly if every post is harmless. -/
theorem impairments_atomic_iff [NanOrder F] (imp : Impairments F) (himp : imp.InRange)
    (posts : List (Dict String (Json F))) (hd : ∀ values ∈ posts, Dict.Distinct values) :
    AllSteps serve (fun imp values => Atomic imp values ∧ (serve imp values).InRange) imp posts ↔
      AllSteps serve Harmless imp posts := by
  induction posts generalizing imp with
  | nil => exact Iff.rfl
  | cons values posts ih =>
    obtain ⟨hv, hd⟩ := List.forall_mem_cons.mp hd
    have hpost : Atomic imp values ∧ (serve imp values).InRange ↔ Harmless imp values :=
      post_iff hv himp
    rw [AllSteps, AllSteps, hpost]
    apply and_congr_right
    intro hharmless
    exact ih (serve imp values) (hpost.mpr hharmless).2 hd

/-! ## Two profiles -/

instance : NanOrder (Ieee ℚ) where
  le_iff x h := by
    cases x with
    | fin x =>
      have hx : ¬ x < 0 := of_decide_eq_false h
      have hle : PyFloat.le (PyFloat.ofRat 0) (Ieee.fin x) = true :=
        decide_eq_true (not_lt.mp hx)
      have heq : PyFloat.eq (Ieee.fin x) (Ieee.fin x) = true := decide_eq_true rfl
      exact iff_of_true hle heq
    | inf n => cases n <;> revert h <;> decide
    | nan => decide

def calm : Impairments (Ieee ℚ) :=
  { drop := .fin (1 / 10), delayMs := .fin 50, jitterMs := .fin 20, reorder := .fin 0
    dup := .fin 0 }

theorem calm_inRange : calm.InRange := by
  intro t
  cases t <;> decide +kernel

/-- A change, and a refusal after a value that is in force already. -/
theorem impairments_atomic_iff_calm :
    AllSteps serve (fun imp values => Atomic imp values ∧ (serve imp values).InRange) calm
        [[("delay_ms", .int 10)], [("delay_ms", .int 10), ("drop", .int 2)]] ↔
      AllSteps serve Harmless calm
        [[("delay_ms", .int 10)], [("delay_ms", .int 10), ("drop", .int 2)]] := by
  apply impairments_atomic_iff calm calm_inRange
  simp [Dict.Distinct]

/-- The "drop" before a refused delay stays; a NaN is a delay. -/
theorem refused_update_keeps_drop :
    ¬ Atomic calm [("drop", .float (.fin (1 / 2))), ("delay_ms", .int (-1))] ∧
    calm.post [("drop", .float (.fin (1 / 2))), ("delay_ms", .int (-1))] =
      (.badRequest (.negative .delayMs), { calm with drop := .fin (1 / 2) }) ∧
    ¬ (serve calm [("delay_ms", .float .nan)]).InRange := by
  have hpost : calm.post [("drop", .float (.fin (1 / 2))), ("delay_ms", .int (-1))] =
      (.badRequest (.negative .delayMs), { calm with drop := .fin (1 / 2) }) := by decide +kernel
  refine ⟨?_, hpost, fun h => ?_⟩
  · rw [Atomic, hpost]
    rintro (⟨hok, -⟩ | ⟨-, heq⟩)
    · cases hok
    · revert heq
      decide +kernel
  · have hdelay := (h .delayMs).1
    revert hdelay
    decide +kernel

end EcuTelemetry.Sim
