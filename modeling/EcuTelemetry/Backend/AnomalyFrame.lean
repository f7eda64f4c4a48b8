/-
  EcuTelemetry.Backend.AnomalyFrame

  What evaluating the rules on one sample can do to the engine.  Whatever the
  rules are, `onTelemetry` marks conditions, records evaluations and keeps its
  own statistics; a relation closed under these steps holds across it.

  The names of threshold rules come from the rule document, or are made of it; a
  relation may ask for documents whose names satisfy `ok`.
-/

import EcuTelemetry.Backend.Anomaly

namespace EcuTelemetry.Backend

open Proc

variable {F : Type} [PyFloat F]

/-! ## Rule names -/

/-- Every name a threshold rule can have satisfies `ok`: the one it is given, or a text
    made of its operator. -/
def NamesOk [PyText F] (ok : Json F → Prop) (rules : Dict String (Json F)) : Prop :=
  ∀ kv ∈ rules, kv.1 = "thresholds" → ∀ xs, kv.2.iter = .ok xs → ∀ x ∈ xs, ∀ given op,
    x.get "name" = .ok given → x.getD "op" (.str ">") = .ok op →
      ∀ before after, ok (Json.orElse given (.formatted before op after))

section NamesOk

variable [PyText F] {ok : Json F → Prop}

theorem namesOk_true (rules : Dict String (Json F)) : NamesOk (fun _ => True) rules :=
  fun _ _ _ _ _ _ _ _ _ _ _ _ _ => trivial

theorem NamesOk.set {r : Dict String (Json F)} {k : String} {v : Json F} (h : NamesOk ok r)
    (hv : NamesOk ok [(k, v)]) : NamesOk ok (Dict.set r k v) := by
  intro kv hkv
  rcases Dict.mem_set (.of_lawful k) hkv with rfl | hmem
  · exact hv _ (List.mem_singleton.mpr rfl)
  · exact h kv hmem

/-- The elements of an object are its keys, and a text has no `get`. -/
theorem NamesOk.obj (k : String) (kvs : Dict String (Json F)) : NamesOk ok [(k, .obj kvs)] := by
  intro kv hkv _ xs hxs x hx given op hgiven
  rw [List.mem_singleton.mp hkv] at hxs
  cases hxs
  obtain ⟨e, -, rfl⟩ := List.mem_map.mp hx
  cases hgiven

/-- The names of the default rules are texts. -/
theorem namesOk_default (hstr : ∀ s, ok (.str s)) : NamesOk ok (DEFAULT_RULES (F := F)) := by
  intro kv hkv hkey xs hxs x hx given op hgiven _ before after
  have hnamed : ∀ name : String, name ≠ "" →
      ok (Json.orElse (some (.str name)) (.formatted before op after)) := by
    intro name hne
    have htruthy : (Json.str name : Json F).truthy = true := decide_eq_true hne
    rw [Json.orElse, if_pos htruthy]
    exact hstr name
  simp only [DEFAULT_RULES, List.mem_cons, List.not_mem_nil, or_false] at hkv
  rcases hkv with rfl | rfl | rfl | rfl | rfl | rfl | rfl <;> try simp at hkey
  cases hxs
  simp only [defaultThresholds, List.mem_cons, List.not_mem_nil, or_false] at hx
  rcases hx with rfl | rfl | rfl | rfl | rfl | rfl <;> cases hgiven <;> exact hnamed _ (by decide)

/-- A key of the overrides takes the place of the default or adds to it. -/
theorem NamesOk.mergeKey {r : Dict String (Json F)} {kv : String × Json F} (h : NamesOk ok r)
    (hkv : NamesOk ok [kv]) : NamesOk ok (mergeKey r kv) := by
  rw [Backend.mergeKey.eq_def]
  split
  · split
    · exact h.set hkv
    · exact h.set (.obj _ _)
  · exact h.set hkv

/-- The rules in force, over the defaults. -/
theorem NamesOk.mergeRules {overrides : Dict String (Json F)} (hstr : ∀ s, ok (.str s))
    (h : NamesOk ok overrides) : NamesOk ok (mergeRules overrides) := by
  have hfold : ∀ r, NamesOk ok r → NamesOk ok (overrides.foldl Backend.mergeKey r) := by
    induction overrides with
    | nil => exact fun r hr => hr
    | cons kv kvs ih =>
      intro r hr
      refine ih (fun e he => h e (List.mem_cons_of_mem _ he)) _ (hr.mergeKey fun e he => ?_)
      exact h e (List.mem_singleton.mp he ▸ List.mem_cons_self)
  exact hfold _ (namesOk_default hstr)

end NamesOk

namespace Engine

/-- What `_hw_for` reads in the database. -/
def hwModel (s : Engine F) (dev : String) : String :=
  ((s.db.getDevice dev).bind DeviceRow.hwModel).getD ""

/-- A relation closed under the steps of evaluating a sample of `dev` at `now`,
    where marked rules have names that satisfy `ok`. -/
structure SampleFrame (R : Engine F → Engine F → Prop) (ok : Json F → Prop) (dev : String)
    (now clock : F) : Prop where
  rules : ∀ s s', R s s' → s'.rules = s.rules
  str : ∀ s, ok (.str s)
  configCache : ∀ s cfg, R s { s with configCache := Dict.set s.configCache dev cfg }
  /-- a model is cached where there was none -/
  hwCache : ∀ s, Dict.get? s.hwCache dev = none →
    R s { s with hwCache := Dict.set s.hwCache dev (s.hwModel dev) }
  st : Keeps R (Engine.st dev)
  /-- statistics, not the `active` map -/
  modifySt : ∀ f : DeviceState F → DeviceState F, (∀ d, (f d).active = d.active) →
    Keeps R (Engine.modifySt dev f)
  observe : ∀ s, Keeps R (Engine.observe dev (.str s) false now)
  mark : ∀ rule cond metric value severity message, ok rule →
    Keeps R (Engine.mark dev rule cond now metric value severity message clock)

namespace SampleFrame

variable {R : Engine F → Engine F → Prop} [IsPreorder (Engine F) R] {ok : Json F → Prop}
  {dev : String} {now clock : F}

theorem configFor (h : SampleFrame R ok dev now clock) : Keeps R (Engine.configFor dev) := by
  intro s
  rw [Engine.configFor]
  split
  · exact refl_of R s
  · exact h.configCache s _

theorem hwFor (h : SampleFrame R ok dev now clock) : Keeps R (Engine.hwFor dev) := by
  intro s
  rw [Engine.hwFor]
  split
  · exact refl_of R s
  · next hnone => exact h.hwCache s hnone

/-- An override is looked up by the model of the device. -/
theorem overrideApplies (h : SampleFrame R ok dev now clock) (o : Dict String (Json F)) :
    Keeps R (Engine.overrideApplies dev o) := by
  rw [Engine.overrideApplies]
  refine Keeps.ite (fun _ => Keeps.pure _) fun _ => ?_
  split
  · refine Keeps.ite (fun _ => ?_) fun _ => Keeps.pure _
    exact h.hwFor.bind fun _ => Keeps.pure _
  · exact Keeps.pure _

/-- The overrides, until one applies. -/
theorem matchOverride (h : SampleFrame R ok dev now clock) (spec severity : Json F)
    (os : List (Json F)) : Keeps R (Engine.matchOverride dev spec severity os) := by
  induction os with
  | nil => exact Keeps.pure _
  | cons o os ih =>
    rw [Engine.matchOverride.eq_def]
    split
    · exact Keeps.pure _
    · next heq =>
      cases heq
      refine (h.overrideApplies _).bind fun hit => Keeps.ite (fun _ => Keeps.pure _) fun _ => ih
    · next heq =>
      cases heq
      exact ih

theorem thresholdSpec (h : SampleFrame R ok dev now clock) (rule : Json F) :
    Keeps R (Engine.thresholdSpec rule dev) :=
  (Keeps.ofExcept _).bind fun _ => (Keeps.ofExcept _).bind fun _ => (Keeps.ofExcept _).bind fun _ =>
    (Keeps.ofExcept _).bind fun _ => h.matchOverride _ _ _

/-- A rate rule writes its history twice and marks. -/
theorem onRate (h : SampleFrame R ok dev now clock) (t : Dict String (Json F))
    (rule : String × Json F) : Keeps R (Engine.onRate dev t now clock rule) := by
  rw [Engine.onRate]
  dsimp only
  split
  · exact Keeps.pure _
  · refine (Keeps.ofExcept _).bind fun _ => h.st.bind fun _ =>
      Keeps.bind (h.modifySt _ fun _ => rfl) fun _ => (Keeps.ofExcept _).bind fun _ =>
      (Keeps.ofExcept _).bind fun _ => Keeps.bind (h.modifySt _ fun _ => rfl) fun _ => ?_
    split
    · exact Keeps.pure _
    · refine (Keeps.ofExcept _).bind fun _ => (Keeps.ofExcept _).bind fun _ =>
        (Keeps.ofExcept _).bind fun _ => (Keeps.ofExcept _).bind fun _ => ?_
      exact (h.mark _ _ _ _ _ _ (h.str _)).bind fun _ => Keeps.pure _

theorem onRates (h : SampleFrame R ok dev now clock) (t : Dict String (Json F)) :
    Keeps R (Engine.onRates dev t now clock) := by
  refine Keeps.get.bind fun _ => ?_
  split
  · exact Keeps.collect fun _ _ => h.onRate t _
  · exact Keeps.raise _

variable [PyText F]

theorem onComm (h : SampleFrame R ok dev now clock) (loss : F) :
    Keeps R (Engine.onComm dev loss now clock) := by
  refine Keeps.get.bind fun _ => (Keeps.ofExcept _).bind fun thr => ?_
  split
  · exact Keeps.pure _
  · exact (Keeps.ofExcept _).bind fun _ => (Keeps.ofExcept _).bind fun _ =>
      h.mark _ _ _ _ _ _ (h.str _)

theorem onLoss (h : SampleFrame R ok dev now clock) (loss : Option F) :
    Keeps R (Engine.onLoss dev loss now clock) := by
  cases loss with
  | none => exact Keeps.pure _
  | some loss => exact h.onComm loss

/-- A threshold marks under the name given, or under the one made of metric and operator. -/
theorem onThreshold (h : SampleFrame R ok dev now clock) (t cfg : Dict String (Json F))
    (rule : Json F) (hrule : ∀ given op, rule.get "name" = .ok given →
      rule.getD "op" (.str ">") = .ok op →
        ∀ before after, ok (Json.orElse given (.formatted before op after))) :
    Keeps R (Engine.onThreshold dev t cfg now clock rule) := by
  refine (Keeps.ofExcept _).bind fun _ => (Keeps.ofExcept _).bind fun v => ?_
  split
  · exact Keeps.pure _
  · refine (h.thresholdSpec rule).bind fun spec => (Keeps.ofExcept _).bind fun thr => ?_
    split
    · exact Keeps.pure _
    · refine (Keeps.ofExcept _).bind fun _ => Keeps.ofExcept_bind fun op hop => ?_
      -- the name is the one the document gives, or a text made of the rule
      refine Keeps.ofExcept_bind fun given hgiven => ?_
      exact (h.mark _ _ _ _ _ _ (hrule given op hgiven hop _ _)).bind fun _ => Keeps.pure _

/-- The names in the rules in force are those of the document. -/
theorem onThresholds (h : SampleFrame R ok dev now clock) (t cfg : Dict String (Json F))
    (s : Engine F) (hs : NamesOk ok s.rules) :
    R s (Engine.onThresholds dev t cfg now clock s).2 := by
  have hrules : ∀ xs, ((Dict.get? s.rules "thresholds").getD (.arr [])).iter = .ok xs →
      ∀ x ∈ xs, ∀ given op, x.get "name" = .ok given → x.getD "op" (.str ">") = .ok op →
        ∀ before after, ok (Json.orElse given (.formatted before op after)) := by
    intro xs hxs x hx
    rcases hget : Dict.get? s.rules "thresholds" with _ | v
    · rw [hget] at hxs
      cases hxs
      exact absurd hx List.not_mem_nil
    · rw [hget] at hxs
      exact hs _ (Dict.get?_mem (.of_lawful _) hget) rfl xs hxs x hx
  exact Keeps.ofExcept_bind (fun xs hxs => Keeps.collect fun x hx =>
    h.onThreshold t cfg x (hrules xs hxs x hx)) s

/-- One `mark` for each of the eight flags. -/
theorem onFaultFlags (h : SampleFrame R ok dev now clock) (t : Dict String (Json F)) :
    Keeps R (Engine.onFaultFlags dev t now clock) := by
  refine Keeps.get.bind fun _ => (Keeps.ofExcept _).bind fun _ => ?_
  refine Keeps.ite (fun _ => ?_) fun _ => Keeps.pure _
  refine (Keeps.ofExcept _).bind fun _ => (Keeps.ofExcept _).bind fun _ =>
    Keeps.collect fun _ _ => ?_
  refine Keeps.ite (fun _ => ?_) fun _ => (h.observe _).bind fun _ => Keeps.pure _
  exact (Keeps.ofExcept _).bind fun _ => (h.mark _ _ _ _ _ _ (h.str _)).bind fun _ => Keeps.pure _

/-- The gate writes an average and marks nothing. -/
theorem onGate (h : SampleFrame R ok dev now clock) (t : Dict String (Json F))
    (p : AnomalyParams F) (gate : Json F) : Keeps R (Engine.onGate dev t p gate) := by
  refine (Keeps.ofExcept _).bind fun _ => Keeps.ite (fun _ => ?_) fun _ => Keeps.pure _
  refine (Keeps.ofExcept _).bind fun v => ?_
  split
  · exact Keeps.pure _
  · dsimp only
    exact h.st.bind fun _ => Keeps.bind (h.modifySt _ fun _ => rfl) fun _ =>
      (Keeps.ofExcept _).bind fun _ => (Keeps.ofExcept _).bind fun _ =>
      (Keeps.ofExcept _).bind fun _ => Keeps.bind (h.modifySt _ fun _ => rfl) fun _ =>
      Keeps.pure _

/-- An average is read, judged and written, then the rule is marked. -/
theorem onAnomalyMetric (h : SampleFrame R ok dev now clock) (t : Dict String (Json F))
    (p : AnomalyParams F) (severity : Json F) (moving : Bool) (gated : List (Json F))
    (metric : Json F) :
    Keeps R (Engine.onAnomalyMetric dev t now clock p severity moving gated metric) := by
  refine (Keeps.ofExcept _).bind fun v => ?_
  split
  · exact Keeps.pure _
  · dsimp only
    exact (Keeps.ofExcept _).bind fun _ => h.st.bind fun _ =>
      Keeps.bind (h.modifySt _ fun _ => rfl) fun _ => (Keeps.ofExcept _).bind fun _ =>
      Keeps.bind (h.modifySt _ fun _ => rfl) fun _ =>
      (h.mark _ _ _ _ _ _ (h.str _)).bind fun _ => Keeps.pure _

/-- The gate, then the metrics. -/
theorem onAnomaly (h : SampleFrame R ok dev now clock) (t : Dict String (Json F)) :
    Keeps R (Engine.onAnomaly dev t now clock) := by
  refine Keeps.get.bind fun _ => (Keeps.ofExcept _).bind fun _ => ?_
  refine Keeps.ite (fun _ => ?_) fun _ => Keeps.pure _
  refine (Keeps.ofExcept _).bind fun _ => (Keeps.ofExcept _).bind fun _ =>
    (Keeps.ofExcept _).bind fun _ => (h.onGate t _ _).bind fun _ => (Keeps.ofExcept _).bind fun _ =>
    (Keeps.ofExcept _).bind fun _ => (Keeps.ofExcept _).bind fun _ => ?_
  exact Keeps.collect fun _ _ => h.onAnomalyMetric t _ _ _ _ _

/-- The whole of `on_telemetry` in the frame of a sample. -/
theorem onTelemetry (h : SampleFrame R ok dev now clock) (t : Dict String (Json F))
    (loss : Option F) (s : Engine F) (hs : NamesOk ok s.rules) :
    R s (Engine.onTelemetry dev t now clock loss s).2 := by
  refine rel_bind (h.st s) fun _ s₁ h₁ => rel_bind (h.configFor s₁) fun cfg s₂ h₂ => ?_
  have hs₂ : NamesOk ok s₂.rules := by rw [h.rules _ _ h₂, h.rules _ _ h₁]; exact hs
  refine rel_bind (h.onThresholds t cfg s₂ hs₂) fun _ s₃ _ => ?_
  exact ((h.onFaultFlags t).bind fun _ => (h.onRates t).bind fun _ => (h.onAnomaly t).bind fun _ =>
    (h.onLoss loss).bind fun _ => Keeps.pure _) s₃

end SampleFrame

end Engine

end EcuTelemetry.Backend
