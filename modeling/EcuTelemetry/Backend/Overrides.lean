/-
  EcuTelemetry.Backend.Overrides

  The overrides of the threshold rules, which apply to a device by its id or by
  its hardware model.  `thresholdsFor` evaluates the rules for a given model.
  The engine takes the model from a cache that it fills on first use; where the
  cache holds nothing else than this model, it evaluates the rules the same way.
-/

import EcuTelemetry.Backend.Alerts

namespace EcuTelemetry.Backend

open Proc

variable {F : Type} [PyFloat F]

namespace Engine

/-! ## The rules for one model -/

/-- Does an override apply to a device of the model? -/
def overrideMatches (dev hw : String) (o : Dict String (Json F)) : Bool :=
  (Dict.get? o "device_id").any (· == .str dev) ||
    (Dict.get? o "hw_model").any fun m => m.truthy && m == .str hw

/-- The first override that applies. -/
def firstOverride (dev hw : String) : List (Json F) → Option (Dict String (Json F))
  | [] => none
  | .obj o :: os => if overrideMatches dev hw o then some o else firstOverride dev hw os
  | _ :: os => firstOverride dev hw os

/-- The value and the severity of a rule, or those of the override. -/
def overridden (spec severity : Json F) : Option (Dict String (Json F)) → Json F × Json F
  | some o => ((Dict.get? o "value").getD spec, (Dict.get? o "severity").getD severity)
  | none => (spec, severity)

/-- The value and the severity of a rule for a device of the model. -/
def specFor (dev hw : String) (rule : Json F) : Except PyError (Json F × Json F) := do
  let spec ← rule.getD "value" .null
  let severity ← rule.getD "severity" (.str "warn")
  let overrides ← rule.get "overrides"
  let os ← (Json.orElse overrides (.arr [])).iter
  return overridden spec severity (firstOverride dev hw os)

/-- What a threshold rule asks `_mark` for. -/
structure Mark (F : Type) where
  name : Json F
  cond : Bool
  metric : String
  value : F
  severity : Json F
  message : Json F

variable [PyText F]

/-- One threshold rule on a sample. -/
def markFor (dev hw : String) (t cfg : Dict String (Json F)) (rule : Json F) :
    Except PyError (Option (Mark F)) := do
  let metric ← rule.getD "metric" .null
  match ← metric.lookupIn t with
  | none => return none
  | some v =>
    let (spec, severity) ← specFor dev hw rule
    match ← resolveValue spec cfg with
    | none => return none
    | some thr =>
      let x ← v.toFloat
      let op ← rule.getD "op" (.str ">")
      let cond := match op with
        | .str ">" => PyFloat.lt thr x
        | .str "<" => PyFloat.lt x thr
        | .str ">=" => PyFloat.le thr x
        -- every other text is read as `<=`
        | _ => PyFloat.le x thr
      let given ← rule.get "name"
      let text := PyText.pyStr metric
      let name := Json.orElse given (.formatted (text ++ "_") op ("_" ++ PyFloat.repr thr))
      return some { name := name, cond := cond, metric := text, value := x, severity := severity,
                    message := thresholdMessage text x op thr }

/-- The name of the rule, if it is true on the sample. -/
def Mark.fired (m : Mark F) : List (Json F) := if m.cond then [m.name] else []

def Mark.run (dev : String) (now clock : F) : Option (Mark F) → EngineM F (List (Json F))
  | none => pure []
  | some m => do
    mark dev m.name m.cond now (some m.metric) (some m.value) m.severity m.message clock
    return m.fired

/-- One threshold rule for a device of the model. -/
def thresholdFor (dev hw : String) (t cfg : Dict String (Json F)) (now clock : F) (rule : Json F) :
    EngineM F (List (Json F)) := do
  let m ← Proc.ofExcept (markFor dev hw t cfg rule)
  Mark.run dev now clock m

/-- The threshold rules for a device of the model. -/
def thresholdsFor (dev hw : String) (t cfg : Dict String (Json F)) (now clock : F) :
    EngineM F (List (Json F)) := do
  let s ← Proc.get
  let thresholds ← Proc.ofExcept ((Dict.get? s.rules "thresholds").getD (.arr [])).iter
  Proc.collect thresholds (thresholdFor dev hw t cfg now clock)

/-- The names of the rules that are true on a sample. -/
def firedFor (dev hw : String) (t cfg : Dict String (Json F)) (thresholds : List (Json F)) :
    List (Json F) :=
  thresholds.flatMap fun rule =>
    match markFor dev hw t cfg rule with
    | .ok (some m) => m.fired
    | _ => []

/-- A run that returns returns the names of the rules that are true. -/
theorem thresholdFor_fired {dev hw : String} {t cfg : Dict String (Json F)} {now clock : F}
    {rule : Json F} {s : Engine F} {names : List (Json F)}
    (h : (thresholdFor dev hw t cfg now clock rule s).1 = .ok names) :
    names = firedFor dev hw t cfg [rule] := by
  rw [firedFor, List.flatMap_singleton]
  obtain ⟨m, s', hm, hrun⟩ := exists_of_bind_ok h
  rw [ofExcept_run, Prod.mk.injEq] at hm
  rw [hm.1]
  cases m with
  | none =>
    cases hrun
    rfl
  | some m =>
    obtain ⟨_, _, -, hpure⟩ := exists_of_bind_ok hrun
    cases hpure
    rfl

/-- What the thresholds return is what `firedFor` names. -/
theorem thresholdsFor_fired {dev hw : String} {t cfg : Dict String (Json F)} {now clock : F}
    {s : Engine F} {names : List (Json F)}
    (h : (thresholdsFor dev hw t cfg now clock s).1 = .ok names) :
    ∃ thresholds, ((Dict.get? s.rules "thresholds").getD (.arr [])).iter = .ok thresholds ∧
      names = firedFor dev hw t cfg thresholds := by
  rw [thresholdsFor, bind_run_ok (get_run s)] at h
  obtain ⟨thresholds, s', hiter, hrun⟩ := exists_of_bind_ok h
  rw [ofExcept_run, Prod.mk.injEq] at hiter
  refine ⟨thresholds, hiter.1, ?_⟩
  -- the induction is on the rules, from any state
  clear h hiter
  induction thresholds generalizing s' names with
  | nil =>
    cases hrun
    rfl
  | cons rule rules ih =>
    obtain ⟨ys, s₁, hrule, hrest⟩ := exists_of_bind_ok hrun
    obtain ⟨zs, s₂, hrules, hpure⟩ := exists_of_bind_ok hrest
    cases hpure
    have hys := thresholdFor_fired (congrArg Prod.fst hrule)
    have hzs := ih s₁ (congrArg Prod.fst hrules)
    rw [hys, hzs, firedFor, firedFor, firedFor, List.flatMap_singleton, List.flatMap_cons]

/-! ## The cache of models -/

/-- The same engine with another cache. -/
def withCache (c : Dict String String) (s : Engine F) : Engine F := { s with hwCache := c }

/-- The procedure does not use the cache. -/
def Blind {α : Type} (m : EngineM F α) : Prop :=
  ∀ c s, m (s.withCache c) = ((m s).1, (m s).2.withCache c)

section Blind

variable {α β : Type}

omit [PyFloat F] [PyText F]

theorem Blind.pure (a : α) : Blind (pure a : EngineM F α) := fun _ _ => rfl
theorem Blind.raise (e : PyError) : Blind (raise e : EngineM F α) := fun _ _ => rfl
theorem Blind.ofExcept (r : Except PyError α) : Blind (ofExcept r : EngineM F α) := fun _ _ => rfl

theorem Blind.modify {f : Engine F → Engine F} (h : ∀ c s, f (s.withCache c) = (f s).withCache c) :
    Blind (modify f) := fun c s => congrArg (Prod.mk _) (h c s)

theorem Blind.bind {m : EngineM F α} {f : α → EngineM F β} (hm : Blind m)
    (hf : ∀ a, Blind (f a)) : Blind (m >>= f) := by
  intro c s
  rw [bind_run, hm c s, bind_run]
  rcases m s with ⟨e | a, s'⟩
  · rfl
  · exact hf a c s'

theorem Blind.ite {p : Prop} [Decidable p] {m n : EngineM F α} (hm : Blind m) (hn : Blind n) :
    Blind (if p then m else n) := by
  split
  · exact hm
  · exact hn

theorem Blind.collect {xs : List α} {body : α → EngineM F (List β)} (h : ∀ x, Blind (body x)) :
    Blind (collect xs body) := by
  induction xs with
  | nil => exact Blind.pure []
  | cons x xs ih => exact (h x).bind fun ys => ih.bind fun zs => Blind.pure _

theorem Blind.st (dev : String) : Blind (Engine.st (F := F) dev) := by
  intro c s
  rw [Engine.st, Engine.st]
  dsimp only [withCache]
  split <;> rfl

end Blind

omit [PyText F] in
/-- `_mark` does not look at the models. -/
theorem Blind.mark (dev : String) (rule : Json F) (cond : Bool) (now : F)
    (metric : Option String) (value : Option F) (severity message : Json F) (clock : F) :
    Blind (Engine.mark dev rule cond now metric value severity message clock) := by
  have hopen : ∀ r, Blind (openIfNone dev r metric value severity message clock) := by
    intro r c s
    rw [openIfNone, bind_run_ok (get_run _), bind_run_ok (get_run s),
      show (s.withCache c).db = s.db from rfl]
    split
    · rcases severity.sqlText with e | sev
      · rfl
      · rcases message.sqlText with e | msg <;> rfl
    · rfl
  refine (Blind.st dev).bind fun _ => Blind.bind (Blind.modify fun _ _ => rfl) fun _ => ?_
  refine Blind.ite (Blind.ite ?_ (Blind.raise _)) (Blind.pure _)
  refine Blind.bind ((Blind.st dev).bind fun _ => Blind.modify fun _ _ => rfl) fun _ => ?_
  exact (Blind.ofExcept _).bind fun r => hopen r

theorem Blind.thresholdFor (dev hw : String) (t cfg : Dict String (Json F)) (now clock : F)
    (rule : Json F) : Blind (Engine.thresholdFor dev hw t cfg now clock rule) := by
  refine (Blind.ofExcept _).bind fun m => ?_
  cases m with
  | none => exact Blind.pure []
  | some m => exact (Blind.mark dev _ _ _ _ _ _ _ _).bind fun _ => Blind.pure _

/-! ## What the cache can come to hold -/

/-- The models in the database stay, and what is cached was cached before or is
    the model in the database. -/
structure ModelsKept (s s' : Engine F) : Prop where
  model : ∀ dev, s'.hwModel dev = s.hwModel dev
  distinct : Dict.Distinct s.hwCache → Dict.Distinct s'.hwCache
  cached : Dict.Distinct s.hwCache → ∀ dev m, Dict.get? s'.hwCache dev = some m →
    Dict.get? s.hwCache dev = some m ∨ m = s.hwModel dev

/-- What `_hw_for` answers for a device, cached or not. -/
structure KnowsModel (dev hw : String) (s : Engine F) : Prop where
  distinct : Dict.Distinct s.hwCache
  model : s.hwModel dev = hw
  cached : ∀ m, Dict.get? s.hwCache dev = some m → m = hw

/-- What `_hw_for` answers. -/
def answer (s : Engine F) (dev : String) : String :=
  (Dict.get? s.hwCache dev).getD (s.hwModel dev)

section Models

omit [PyFloat F] [PyText F]

variable {s s' : Engine F} {dev hw : String}

theorem ModelsKept.of_eq (hmodel : ∀ dev, s'.hwModel dev = s.hwModel dev)
    (hcache : s'.hwCache = s.hwCache) : ModelsKept s s' :=
  ⟨hmodel, fun h => hcache ▸ h, fun _ _ _ h => .inl (hcache ▸ h)⟩

instance : IsPreorder (Engine F) (ModelsKept (F := F)) where
  refl _ := .of_eq (fun _ => rfl) rfl
  trans s s' s'' h h' := by
    refine ⟨fun dev => (h'.model dev).trans (h.model dev), h'.distinct ∘ h.distinct, ?_⟩
    intro hd dev m hm
    rcases h'.cached (h.distinct hd) dev m hm with hm | hm
    · exact h.cached hd dev m hm
    · exact .inr (hm.trans (h.model dev))

theorem KnowsModel.kept (hk : KnowsModel dev hw s) (h : ModelsKept s s') :
    KnowsModel dev hw s' := by
  refine ⟨h.distinct hk.distinct, (h.model dev).trans hk.model, fun m hm => ?_⟩
  rcases h.cached hk.distinct dev m hm with hm | hm
  · exact hk.cached m hm
  · exact hm.trans hk.model

/-- `_hw_for` caches the model of the database. -/
theorem ModelsKept.fill (dev : String) :
    ModelsKept s { s with hwCache := Dict.set s.hwCache dev (s.hwModel dev) } := by
  refine ⟨fun _ => rfl, fun hd => hd.set (.of_lawful dev), fun _ dev' m hm => ?_⟩
  by_cases hdev : dev = dev'
  · subst hdev
    rw [Dict.get?_set_self (.of_lawful dev)] at hm
    exact .inr (Option.some.inj hm).symm
  · rw [Dict.get?_set_ne (.of_lawful dev) (.of_lawful dev') hdev] at hm
    exact .inl hm

/-- `invalidate_config` forgets what was cached, not what is stored. -/
theorem ModelsKept.invalidate (dev : String) :
    ModelsKept s { s with configCache := Dict.pop s.configCache dev,
                          hwCache := Dict.pop s.hwCache dev } := by
  refine ⟨fun _ => rfl, fun hd => hd.pop, fun hd dev' m hm => .inl ?_⟩
  by_cases hdev : dev = dev'
  · subst hdev
    rw [Dict.get?_pop_self (.of_lawful dev) hd] at hm
    cases hm
  · rwa [Dict.get?_pop_ne (.of_lawful dev) (.of_lawful dev') hdev] at hm

end Models

/-- What a sample keeps. -/
def SampleKept (s s' : Engine F) : Prop := s'.rules = s.rules ∧ ModelsKept s s'

omit [PyFloat F] [PyText F] in
instance : IsPreorder (Engine F) (SampleKept (F := F)) where
  refl s := ⟨rfl, refl_of ModelsKept s⟩
  trans _ _ _ h h' := ⟨h'.1.trans h.1, trans_of ModelsKept h.2 h'.2⟩

omit [PyText F] in
theorem sampleFrame_kept (dev : String) (now clock : F) :
    SampleFrame (SampleKept (F := F)) (fun _ => True) dev now clock :=
  sampleFrame_of_create
    (fun _ _ h hr hc => ⟨hr, .of_eq (fun dev => by rw [hwModel, hwModel, h]) hc⟩)
    (fun _ _ => ⟨rfl, .fill dev⟩) (fun _ _ h => h.1) (fun _ => trivial)
    fun _ _ _ _ _ _ _ _ _ _ => ⟨rfl, .of_eq (fun _ => rfl) rfl⟩

/-! ## The cache answers as the model does -/

section Knows

variable {dev hw : String} {s : Engine F}

omit [PyFloat F] [PyText F] in
theorem KnowsModel.answer (hk : KnowsModel dev hw s) : s.answer dev = hw := by
  rw [Engine.answer]
  rcases hget : Dict.get? s.hwCache dev with _ | m
  · exact hk.model
  · exact hk.cached m hget

omit [PyFloat F] [PyText F] in
/-- The cache or the table: the answer is the same. -/
theorem hwFor_answer (dev : String) (s : Engine F) : ∃ c,
    hwFor dev s = (.ok (s.answer dev), s.withCache c) ∧
      (s.withCache c).answer dev = s.answer dev := by
  rw [hwFor]
  rcases hget : Dict.get? s.hwCache dev with _ | m
  · have hanswer : s.answer dev = s.hwModel dev := by rw [Engine.answer, hget]; rfl
    rw [hanswer]
    refine ⟨Dict.set s.hwCache dev (s.hwModel dev), rfl, ?_⟩
    rw [Engine.answer]
    exact congrArg (Option.getD · _) (Dict.get?_set_self (.of_lawful dev))
  · have hanswer : s.answer dev = m := by rw [Engine.answer, hget]; rfl
    rw [hanswer]
    exact ⟨s.hwCache, rfl, hanswer⟩

omit [PyText F] in
/-- An override applies by that answer. -/
theorem overrideApplies_answer (dev : String) (o : Dict String (Json F)) (s : Engine F) : ∃ c,
    overrideApplies dev o s = (.ok (overrideMatches dev (s.answer dev) o), s.withCache c) ∧
      (s.withCache c).answer dev = s.answer dev := by
  rw [overrideApplies, overrideMatches]
  by_cases hid : (Dict.get? o "device_id").any (· == .str dev) = true
  · rw [if_pos hid, hid]
    exact ⟨s.hwCache, rfl, rfl⟩
  rw [if_neg hid, Bool.eq_false_iff.mpr hid, Bool.false_or]
  rcases Dict.get? o "hw_model" with _ | m
  · exact ⟨s.hwCache, rfl, rfl⟩
  rw [Option.any_some]
  by_cases htruthy : m.truthy = true
  · obtain ⟨c, hrun, hanswer⟩ := hwFor_answer dev s
    dsimp only
    rw [if_pos htruthy, bind_run_ok hrun, htruthy, Bool.true_and]
    exact ⟨c, rfl, hanswer⟩
  · dsimp only
    rw [if_neg htruthy, Bool.eq_false_iff.mpr htruthy, Bool.false_and]
    exact ⟨s.hwCache, rfl, rfl⟩

omit [PyText F] in
/-- The first override that applies. -/
theorem matchOverride_answer (dev : String) (spec severity : Json F) (os : List (Json F))
    (s : Engine F) : ∃ c, matchOverride dev spec severity os s =
      (.ok (overridden spec severity (firstOverride dev (s.answer dev) os)), s.withCache c) := by
  induction os generalizing s with
  | nil => exact ⟨s.hwCache, rfl⟩
  | cons o os ih =>
    rw [matchOverride.eq_def, firstOverride.eq_def]
    cases o with
    | obj o =>
      obtain ⟨c, hrun, hanswer⟩ := overrideApplies_answer dev o s
      dsimp only
      rw [bind_run_ok hrun]
      by_cases hit : overrideMatches dev (s.answer dev) o = true
      · rw [if_pos hit, if_pos hit]
        exact ⟨c, rfl⟩
      · -- the next override sees the cache as this one left it
        obtain ⟨c', hrest⟩ := ih (s.withCache c)
        rw [if_neg hit, if_neg hit, hrest, hanswer]
        exact ⟨c', rfl⟩
    | _ => exact ih s

omit [PyText F] in
/-- The threshold and its severity. -/
theorem thresholdSpec_answer (dev : String) (rule : Json F) (s : Engine F) :
    ∃ c, thresholdSpec rule dev s = (specFor dev (s.answer dev) rule, s.withCache c) := by
  rw [thresholdSpec, specFor]
  rcases rule.getD "value" .null with e | spec
  · exact ⟨s.hwCache, rfl⟩
  rcases rule.getD "severity" (.str "warn") with e | severity
  · exact ⟨s.hwCache, rfl⟩
  rcases rule.get "overrides" with e | overrides
  · exact ⟨s.hwCache, rfl⟩
  rcases hiter : (Json.orElse overrides (.arr [])).iter with e | os
  · exact ⟨s.hwCache, by rw [bind_run_ok (ofExcept_run _ s), bind_run_ok (ofExcept_run _ s),
      bind_run_ok (ofExcept_run _ s), hiter]; simp only [bind, Except.bind, hiter]; rfl⟩
  · obtain ⟨c, hrun⟩ := matchOverride_answer dev spec severity os s
    refine ⟨c, ?_⟩
    rw [bind_run_ok (ofExcept_run _ s), bind_run_ok (ofExcept_run _ s),
      bind_run_ok (ofExcept_run _ s), hiter, bind_run_ok (ofExcept_run _ s), hrun]
    simp only [bind, Except.bind, hiter, pure, Except.pure]

/-- One rule: the same outcome, up to the cache. -/
theorem onThreshold_knows (hk : KnowsModel dev hw s) (t cfg : Dict String (Json F))
    (now clock : F) (rule : Json F) :
    ∃ c, onThreshold dev t cfg now clock rule s =
      ((thresholdFor dev hw t cfg now clock rule s).1,
        (thresholdFor dev hw t cfg now clock rule s).2.withCache c) := by
  rw [onThreshold, thresholdFor, markFor]
  rcases hmetric : rule.getD "metric" .null with e | metric
  · exact ⟨s.hwCache, rfl⟩
  rw [bind_run_ok (ofExcept_run _ s)]
  rcases hlookup : metric.lookupIn t with e | _ | v
  · refine ⟨s.hwCache, ?_⟩
    simp only [bind, Except.bind, hlookup]
    rfl
  · refine ⟨s.hwCache, ?_⟩
    simp only [bind, Except.bind, hlookup]
    rfl
  rw [bind_run_ok (ofExcept_run _ s)]
  obtain ⟨c, hspec⟩ := thresholdSpec_answer dev rule s
  rw [hk.answer] at hspec
  dsimp only
  rcases hfor : specFor dev hw rule with e | ⟨spec, severity⟩
  · rw [hfor] at hspec
    refine ⟨c, ?_⟩
    rw [bind_run_error hspec]
    simp only [bind, Except.bind, hlookup]
    rfl
  rw [hfor] at hspec
  rw [bind_run_ok hspec]
  refine ⟨c, ?_⟩
  rcases hthr : resolveValue spec cfg with e | _ | thr
  · simp only [bind, Except.bind, hlookup, hthr]
    rfl
  · simp only [bind, Except.bind, hlookup, hthr]
    rfl
  rcases hx : v.toFloat with e | x
  · simp only [bind, Except.bind, hlookup, hthr, hx]
    rfl
  rcases hop : rule.getD "op" (.str ">") with e | op
  · simp only [bind, Except.bind, hlookup, hthr, hx]
    rfl
  rcases hgiven : rule.get "name" with e | given
  · simp only [bind, Except.bind, hlookup, hthr, hx]
    rfl
  -- the mark is the same, and it does not use the cache
  simp only [bind, Except.bind, hlookup, hthr, hx, pure, Except.pure]
  exact ((Blind.mark _ _ _ _ _ _ _ _ _).bind fun _ => Blind.pure _) c s

/-- All rules: the same outcome, up to the cache. -/
theorem onThresholds_knows (hk : KnowsModel dev hw s) (t cfg : Dict String (Json F))
    (now clock : F) :
    ∃ c, onThresholds dev t cfg now clock s =
      ((thresholdsFor dev hw t cfg now clock s).1,
        (thresholdsFor dev hw t cfg now clock s).2.withCache c) := by
  rw [onThresholds, thresholdsFor, bind_run_ok (get_run s), bind_run_ok (get_run s)]
  rcases ((Dict.get? s.rules "thresholds").getD (.arr [])).iter with e | rules
  · exact ⟨s.hwCache, rfl⟩
  rw [bind_run_ok (ofExcept_run _ s), bind_run_ok (ofExcept_run _ s)]
  induction rules generalizing s with
  | nil => exact ⟨s.hwCache, rfl⟩
  | cons rule rules ih =>
    obtain ⟨c, hrule⟩ := onThreshold_knows hk t cfg now clock rule
    have hkept := (sampleFrame_kept dev now clock).onThreshold t cfg rule
      (fun _ _ _ _ _ _ => trivial) s
    rw [collect, collect, bind_run, bind_run, hrule]
    rcases hfor : thresholdFor dev hw t cfg now clock rule s with ⟨e | ys, s'⟩
    · exact ⟨c, rfl⟩
    rw [hrule, hfor] at hkept
    -- the rules to come see another cache, and still the same model
    have hk' : KnowsModel dev hw (s'.withCache c) := hk.kept hkept.2
    obtain ⟨c', hrest⟩ := ih hk'
    have hblind : Blind (collect rules (thresholdFor dev hw t cfg now clock)) :=
      Blind.collect fun rule => Blind.thresholdFor dev hw t cfg now clock rule
    dsimp only
    rw [bind_run, hrest, hblind c s', bind_run]
    rcases collect rules (thresholdFor dev hw t cfg now clock) s' with ⟨e | zs, s''⟩
    · exact ⟨c', rfl⟩
    · exact ⟨c', rfl⟩

end Knows

/-! ## Events -/

omit [PyText F] in
theorem keeps_kept_resolve (now clock : F) (dev : String) (rule : Json F) :
    Keeps SampleKept (resolve dev rule now clock) :=
  keeps_resolve (fun _ _ h hr hc => ⟨hr, .of_eq (fun dev => by rw [hwModel, hwModel, h]) hc⟩)
    (fun _ _ => ⟨rfl, .of_eq (fun _ => rfl) rfl⟩) dev rule

/-- An event other than a write of other code. -/
theorem keeps_modelsKept_handle {e : EngineEvent F} (he : ∀ db, e ≠ .write db) :
    Keeps ModelsKept (handle e) := by
  have hnew : Keeps (SampleKept (F := F)) newSample :=
    Keeps.modify fun _ => ⟨rfl, .of_eq (fun _ => rfl) rfl⟩
  have hweak : ∀ s s' : Engine F, SampleKept s s' → ModelsKept s s' := fun _ _ h => h.2
  cases e with
  | telemetry dev t now clock loss =>
    refine Keeps.weaken (hnew.bind fun _ s => ?_) hweak
    exact (sampleFrame_kept dev now clock).onTelemetry t loss s (namesOk_true _)
  | comm dev loss now clock =>
    refine Keeps.weaken (hnew.bind fun _ => Keeps.bind ?_ fun _ => Keeps.pure _) hweak
    exact (sampleFrame_kept dev now clock).onComm loss
  | offline dev now clock =>
    refine Keeps.weaken (hnew.bind fun _ => Keeps.bind ?_ fun _ => Keeps.pure _) hweak
    exact keeps_onOffline (sampleFrame_kept dev now clock)
  | online dev now clock =>
    refine Keeps.weaken (Keeps.bind ?_ fun _ => Keeps.pure _) hweak
    exact keeps_onOnline (keeps_kept_resolve now clock) dev
  | tick now clock =>
    refine Keeps.weaken (Keeps.bind ?_ fun _ => Keeps.pure _) hweak
    exact keeps_tick (keeps_kept_resolve now clock) fun dev => (sampleFrame_kept dev now clock).st
  | setRules rules => exact fun s => .of_eq (fun _ => rfl) rfl
  | invalidateConfig dev => exact fun s => .invalidate dev
  | ackAlert aid clock =>
    refine fun s => .of_eq (fun dev => ?_) rfl
    have hdevices : (s.db.ackAlert aid clock).devices = s.db.devices := by
      rw [Database.ackAlert]
      split
      · rfl
      · split <;> rfl
    change (((s.db.ackAlert aid clock).getDevice dev).bind DeviceRow.hwModel).getD "" = _
    rw [Database.getDevice, hdevices]
    rfl
  | restart =>
    -- the new process has an empty cache
    refine fun s => ⟨fun _ => rfl, fun _ => List.nodup_nil, fun _ dev m hm => ?_⟩
    cases hm
  | write db => exact absurd rfl (he db)

end Engine

end EcuTelemetry.Backend
