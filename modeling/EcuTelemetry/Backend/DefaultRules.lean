/-
  EcuTelemetry.Backend.DefaultRules

  The engine under `DEFAULT_RULES` in exact arithmetic.  No sample makes it
  raise.  What it keeps for the anomaly rule - the averages of the gate and of
  a metric, and whether the metric's alert is open - depends on the values of
  the gate and of the metric alone: `watch_onTelemetry` says how.
-/

import Mathlib.Tactic.NormNum
import EcuTelemetry.Backend.Alerts
import EcuTelemetry.Backend.Ewma

namespace EcuTelemetry.Backend

open Proc

variable {F : Type} [Field F] [LinearOrder F] [PyFloat F] [ExactFloat F]

/-! ## Averages -/

namespace Ewma

/-- Is a sample of the metric anomalous? -/
def hot (e : Ewma F) (suppressed : Bool) (x : F) : Bool :=
  decide (20 ≤ e.n) && decide (4 * max (ExactFloat.root e.var) (1 / 20) < |x - e.mean|) &&
    !suppressed

/-- The average of the metric after a sample. -/
def judged (e : Ewma F) (suppressed : Bool) (now x : F) : Ewma F :=
  if e.hot suppressed x then
    { e.next x (1 / 200) false with streak := e.streak + 1, since := some (e.since.getD now) }
  else { e.next x (1 / 20) true with streak := 0, since := none }

/-- Has the metric been anomalous for the hold time? -/
def sustained (e : Ewma F) (now : F) : Bool :=
  decide (3 ≤ e.streak) && decide (3 ≤ now - Engine.orNow e.since now)

/-- Is the gate away from its mean? -/
def moving (g : Ewma F) (x : F) : Bool :=
  decide (20 ≤ g.n) && decide (max (1 / 10 * |g.mean|) 100 < |x - g.mean|)

variable {e : Ewma F}

theorem judged_var_nonneg [IsStrictOrderedRing F] (hvar : 0 ≤ e.var) (suppressed : Bool)
    (now x : F) : 0 ≤ (e.judged suppressed now x).var := by
  rw [judged]
  split
  · exact next_var_nonneg hvar (by norm_num) (by norm_num) x false
  · exact next_var_nonneg hvar (by norm_num) (by norm_num) x true

end Ewma

variable [IsStrictOrderedRing F]

namespace Engine

/-- The numbers of the `anomaly` rule. -/
def defaultParams : AnomalyParams F :=
  { alpha := PyFloat.ofRat 0.05, zlim := PyFloat.ofRat 4.0, sustain := 3,
    sustainS := PyFloat.ofRat 3.0, warmup := 20, minStd := PyFloat.ofRat 0.05 }

omit [Field F] [LinearOrder F] [ExactFloat F] [IsStrictOrderedRing F] in
theorem anomalyParams_default : anomalyParams (.obj defaultAnomaly : Json F) = .ok defaultParams :=
  rfl

theorem alpha_default : (defaultParams : AnomalyParams F).alpha = 1 / 20 := by
  show (PyFloat.ofRat 0.05 : F) = 1 / 20
  rw [ExactFloat.ofRat_eq]
  norm_num

theorem zlim_default : (defaultParams : AnomalyParams F).zlim = 4 := by
  show (PyFloat.ofRat 4.0 : F) = 4
  rw [ExactFloat.ofRat_eq]
  norm_num

theorem sustainS_default : (defaultParams : AnomalyParams F).sustainS = 3 := by
  show (PyFloat.ofRat 3.0 : F) = 3
  rw [ExactFloat.ofRat_eq]
  norm_num

theorem minStd_default : (defaultParams : AnomalyParams F).minStd = 1 / 20 := by
  show (PyFloat.ofRat 0.05 : F) = 1 / 20
  rw [ExactFloat.ofRat_eq]
  norm_num

omit [Field F] [LinearOrder F] [ExactFloat F] [IsStrictOrderedRing F] in
theorem warmup_default (n : Nat) :
    (defaultParams : AnomalyParams F).warmup ≤ (n : Int) ↔ 20 ≤ n := by
  show (20 : Int) ≤ n ↔ _
  omega

theorem sustained_default (e : Ewma F) (now : F) :
    e.condition defaultParams now = e.sustained now := by
  rw [Ewma.condition, Ewma.sustained, sustainS_default]
  congr 1
  · exact decide_eq_decide.mpr (by show (3 : Int) ≤ e.streak ↔ _; omega)
  · rw [Bool.eq_iff_iff, ExactFloat.le_iff, ExactFloat.sub_eq, decide_eq_true_iff]

theorem hot_default (e : Ewma F) (suppressed : Bool) (x : F) :
    e.hotAt defaultParams suppressed x = e.hot suppressed x := by
  rw [Ewma.hotAt, Ewma.hot, Ewma.band, zlim_default, minStd_default]
  congr 2
  exact decide_eq_decide.mpr (warmup_default e.n)

theorem judged_default (e : Ewma F) (suppressed : Bool) (now x : F) :
    e.judgedAt defaultParams suppressed now x = e.judged suppressed now x := by
  rw [Ewma.judgedAt, Ewma.judged, hot_default, alpha_default]
  norm_num

theorem judge_default {e : Ewma F} (hvar : 0 ≤ e.var) (suppressed : Bool) (now x : F) :
    judge defaultParams suppressed now x e = .ok (e.judged suppressed now x) := by
  have hmin : 0 < (defaultParams : AnomalyParams F).minStd := by
    rw [minStd_default]
    norm_num
  rw [judge_eq hmin hvar, judged_default]

/-! ## What the anomaly rule keeps -/

def ewmas (s : Engine F) (dev : String) : Dict String (Ewma F) :=
  ((Dict.get? s.devices dev).map DeviceState.ewma).getD []

/-- The average of a device under a key. -/
def average (s : Engine F) (dev key : String) : Ewma F :=
  (Dict.get? (s.ewmas dev) key).getD ewma0

/-- The values of a configuration are numbers, or missing. -/
def Numbers (cfg : Dict String (Json F)) : Prop :=
  ∀ key v, Dict.get? cfg key = some v → v = .null ∨ ∃ x, v.toFloat = .ok x

/-- The engine has the averages `g` of the gate and `e` of the metric, and the
    metric's alert is `opened`. -/
structure Watch (dev metric : String) (g e : Ewma F) (opened : Bool) (s : Engine F) : Prop where
  rules : s.rules = DEFAULT_RULES
  config : ∀ cfg, Dict.get? s.configCache dev = some cfg → Numbers cfg
  gate : s.average dev "gate:rpm" = g
  own : s.average dev metric = e
  var : ∀ key, 0 ≤ (s.average dev key).var
  alert : (s.db.openAlert dev (some ("anomaly:" ++ metric))).isSome = opened

section Watch

variable {dev metric : String} {g e : Ewma F} {b : Bool}

omit [ExactFloat F] [IsStrictOrderedRing F] in
theorem Watch.congr {s s' : Engine F} (h : Watch dev metric g e b s) (hrules : s'.rules = s.rules)
    (hconfig : s'.configCache = s.configCache)
    (haverage : ∀ key, s'.average dev key = s.average dev key)
    (halert : s'.db.openAlert dev (some ("anomaly:" ++ metric)) =
      s.db.openAlert dev (some ("anomaly:" ++ metric))) : Watch dev metric g e b s' :=
  ⟨hrules.trans h.rules, by rw [hconfig]; exact h.config, (haverage _).trans h.gate,
    (haverage _).trans h.own, fun key => by rw [haverage]; exact h.var key,
    by rw [halert]; exact h.alert⟩

omit [ExactFloat F] [IsStrictOrderedRing F] in
/-- The record `_st` returns. -/
theorem watch_st : Triple (Watch dev metric g e b) (st dev)
    (fun d s => Watch dev metric g e b s ∧
      ∀ key, (Dict.get? d.ewma key).getD ewma0 = s.average dev key) fun _ => False := by
  intro s h
  rw [st]
  rcases hget : Dict.get? s.devices dev with _ | d
  · have haverage : ∀ key,
        average { s with devices := Dict.set s.devices dev {} } dev key = s.average dev key := by
      intro key
      rw [average, average, ewmas, ewmas, Dict.get?_set_self (.of_lawful dev), hget]
      rfl
    refine ⟨h.congr rfl rfl haverage rfl, fun key => ?_⟩
    rw [haverage, average, ewmas, hget]
    rfl
  · refine ⟨h, fun key => ?_⟩
    rw [average, ewmas, hget]
    rfl

omit [ExactFloat F] [IsStrictOrderedRing F] in
/-- A record with the same averages. -/
theorem watch_modifySt {f : DeviceState F → DeviceState F} (hf : ∀ d, (f d).ewma = d.ewma) :
    Triple (Watch dev metric g e b) (modifySt dev f) (fun _ => Watch dev metric g e b)
      fun _ => False := by
  refine Triple.bind watch_st fun d => Triple.modify fun s ⟨h, hd⟩ => ?_
  refine h.congr rfl rfl (fun key => ?_) rfl
  rw [← hd key, average, ewmas, Dict.get?_set_self (.of_lawful dev), Option.map_some, hf]
  rfl

omit [ExactFloat F] [IsStrictOrderedRing F] in
/-- A new average. -/
theorem watch_setAverage (key : String) {v : Ewma F} (hv : 0 ≤ v.var) :
    Triple (Watch dev metric g e b)
      (modifySt dev fun d => { d with ewma := Dict.set d.ewma key v })
      (fun _ => Watch dev metric (if key = "gate:rpm" then v else g)
        (if key = metric then v else e) b) fun _ => False := by
  refine Triple.bind watch_st fun d => Triple.modify fun s ⟨h, hd⟩ => ?_
  obtain ⟨s', hs'⟩ : ∃ s' : Engine F, s' =
      { s with devices := Dict.set s.devices dev { d with ewma := Dict.set d.ewma key v } } :=
    ⟨_, rfl⟩
  -- one entry of the averages is written, the others are read as before
  have haverage : ∀ k, s'.average dev k = if key = k then v else s.average dev k := by
    intro k
    rw [← hd k, average, ewmas, hs', Dict.get?_set_self (.of_lawful dev), Option.map_some,
      Option.getD_some]
    split
    · next hk =>
      rw [hk, Dict.get?_set_self (.of_lawful k), Option.getD_some]
    · next hk =>
      rw [Dict.get?_set_ne (.of_lawful key) (.of_lawful k) hk]
  rw [← hs']
  refine ⟨hs' ▸ h.rules, hs' ▸ h.config, ?_, ?_, fun k => ?_, hs' ▸ h.alert⟩
  · rw [haverage, h.gate]
  · rw [haverage, h.own]
  · rw [haverage]
    split
    · exact hv
    · exact h.var k

end Watch

/-! ## Marks -/

omit [Field F] [LinearOrder F] [PyFloat F] [ExactFloat F] [IsStrictOrderedRing F] in
/-- A new row of another rule is not found for this one. -/
theorem openAlert_createAlert_ne {db : Database F} {dev r : String} {rule metric : Option String}
    {value : Option F} {severity message : Option String} {now : F} (hne : rule ≠ some r) :
    (db.createAlert dev rule metric value severity message now).openAlert dev (some r) =
      db.openAlert dev (some r) := by
  rw [Database.openAlert, Database.openAlert, Database.newest, Database.newest,
    Database.createAlert, List.reverse_append, List.reverse_singleton, List.singleton_append,
    List.find?_cons_of_neg]
  simp [hne]

section Mark

variable {dev metric : String} {g e : Ewma F} {b : Bool}

omit [ExactFloat F] [IsStrictOrderedRing F] in
/-- `_mark` of a rule with texts for a name, a severity and a message. -/
theorem watch_mark (name : String) (cond : Bool) (now : F) (m : Option String) (value : Option F)
    (sev msg : String) (clock : F) :
    Triple (Watch dev metric g e b)
      (mark dev (.str name) cond now m value (.str sev) (.str msg) clock)
      (fun _ => Watch dev metric g e (b || (cond && decide (name = "anomaly:" ++ metric))))
      fun _ => False := by
  refine Triple.bind (Q := fun _ => Watch dev metric g e b)
    (watch_st.weaken (fun _ h => h) (fun _ _ h => h.1) fun _ h => h) fun _ => ?_
  refine Triple.bind (Q := fun _ => Watch dev metric g e b)
    (Triple.modify fun s h => h.congr rfl rfl (fun _ => rfl) rfl) fun _ => ?_
  cases cond with
  | false => exact Triple.pure fun s h => by rwa [Bool.false_and, Bool.or_false]
  | true =>
    rw [Bool.true_and]
    refine Triple.bind (watch_modifySt fun _ => rfl) fun _ => ?_
    intro s h
    -- the alert is there, or is made now
    rw [show (Json.str name : Json F).sqlText = .ok (some name) from rfl,
      bind_run_ok (ofExcept_run _ s), openIfNone, bind_run_ok (get_run s)]
    by_cases hname : name = "anomaly:" ++ metric
    · subst hname
      rw [decide_eq_true rfl, Bool.or_true]
      rcases hopen : s.db.openAlert dev (some ("anomaly:" ++ metric)) with _ | a
      · rw [if_pos Option.isNone_none]
        refine ⟨h.rules, h.config, h.gate, h.own, h.var, ?_⟩
        rw [Option.isSome_iff_ne_none, Ne, Database.openAlert_some_eq_none]
        exact Nat.one_le_iff_ne_zero.mp Database.createAlert_liveCount
      · rw [if_neg (by rw [Option.isNone_some]; exact Bool.false_ne_true)]
        exact ⟨h.rules, h.config, h.gate, h.own, h.var, by rw [hopen]; rfl⟩
    · rw [decide_eq_false hname, Bool.or_false]
      rcases hopen : s.db.openAlert dev (some name) with _ | a
      · rw [if_pos Option.isNone_none]
        refine h.congr rfl rfl (fun _ => rfl) (openAlert_createAlert_ne fun heq => ?_)
        exact hname (Option.some.inj heq)
      · rw [if_neg (by rw [Option.isNone_some]; exact Bool.false_ne_true)]
        exact h

omit [ExactFloat F] [IsStrictOrderedRing F] in
/-- A rule of another name. -/
theorem watch_mark_other {name : String} (hne : name ≠ "anomaly:" ++ metric) (cond : Bool)
    (now : F) (m : Option String) (value : Option F) (sev msg : String) (clock : F) :
    Triple (Watch dev metric g e b)
      (mark dev (.str name) cond now m value (.str sev) (.str msg) clock)
      (fun _ => Watch dev metric g e b) fun _ => False := by
  have h : Triple (Watch dev metric g e b)
      (mark dev (.str name) cond now m value (.str sev) (.str msg) clock) _ _ :=
    watch_mark name cond now m value sev msg clock
  rwa [decide_eq_false hne, Bool.and_false, Bool.or_false] at h

end Mark

theorem append_ne {p q : String} {c d : Char} {cs ds : List Char} (hp : p.toList = c :: cs)
    (hq : q.toList = d :: ds) (hcd : c ≠ d) (s t : String) : p ++ s ≠ q ++ t := by
  intro h
  have hlist := congrArg String.toList h
  rw [String.toList_append, String.toList_append, hp, hq, List.cons_append, List.cons_append,
    List.cons.injEq] at hlist
  exact hcd hlist.1

/-! ## The other rules -/

/-- The numbers the rules look up in a sample. -/
def METRIC_KEYS : List String := ["rpm", "temp_c", "current_a", "voltage_v", "vibration_g"]

/-- What the rules look up in a sample are numbers. -/
structure Readable (t : Dict String (Json F)) : Prop where
  metrics : ∀ key ∈ METRIC_KEYS, ∀ v, Dict.get? t key = some v → ∃ x, v = .float x
  flags : ∀ v, Dict.get? t "fault_flags" = some v → ∃ n, v = .int n

omit [Field F] [LinearOrder F] [PyFloat F] [ExactFloat F] [IsStrictOrderedRing F] in
theorem getD_obj {kvs : Dict String (Json F)} {key : String} {x default : Json F}
    (h : Dict.get? kvs key = some x) : (Json.obj kvs).getD key default = .ok x := by
  rw [Json.getD, Json.get, h]
  rfl

/-- A value that a rule compares with. -/
def Resolvable (spec : Json F) : Prop :=
  ∀ cfg, Numbers cfg → ∃ thr, resolveValue spec cfg = .ok thr

omit [Field F] [LinearOrder F] [ExactFloat F] [IsStrictOrderedRing F] in
/-- A text resolves to a number of the configuration or to nothing. -/
theorem resolvable_str (s : String) : Resolvable (.str s : Json F) := by
  intro cfg hcfg
  rw [resolveValue]
  split
  · exact ⟨_, rfl⟩
  · next key off _ =>
    rcases hget : Dict.get? cfg (String.ofList key) with _ | v
    · exact ⟨_, rfl⟩
    · rcases hcfg _ v hget with rfl | ⟨x, hx⟩
      · exact ⟨_, rfl⟩
      · cases v with
        | null => exact ⟨_, rfl⟩
        | _ => exact ⟨_, by dsimp only; rw [hx]; rfl⟩

omit [Field F] [LinearOrder F] [ExactFloat F] [IsStrictOrderedRing F] in
theorem resolvable_float (x : F) : Resolvable (.float x) := fun _ _ => ⟨_, rfl⟩

omit [IsStrictOrderedRing F] in
/-- What the configuration table holds are numbers. -/
theorem numbers_asConfig (row : ConfigRow F) : Numbers row.asConfig := by
  intro key v hget
  have hreal : ∀ x : Option F64, (realColumn x : Json F) = .null ∨
      ∃ y, (realColumn x : Json F).toFloat = .ok y := by
    intro x
    cases x with
    | none => exact .inl rfl
    | some x => exact .inr ⟨_, rfl⟩
  have hmem := Dict.get?_mem (.of_lawful key) hget
  simp only [ConfigRow.asConfig, List.mem_cons, Prod.mk.injEq, List.not_mem_nil, or_false] at hmem
  rcases hmem with ⟨-, rfl⟩ | ⟨-, rfl⟩ | ⟨-, rfl⟩ | ⟨-, rfl⟩ | ⟨-, rfl⟩
  · exact .inr ⟨_, ExactFloat.ofInt_eq _⟩
  · exact .inr ⟨_, ExactFloat.ofInt_eq _⟩
  · exact hreal _
  · exact hreal _
  · exact hreal _

omit [IsStrictOrderedRing F] in
/-- And so are the defaults. -/
theorem numbers_default : Numbers (DEFAULT_CONFIG : Dict String (Json F)) := by
  intro key v hget
  have hmem := Dict.get?_mem (.of_lawful key) hget
  simp only [DEFAULT_CONFIG, List.mem_cons, Prod.mk.injEq, List.not_mem_nil, or_false] at hmem
  rcases hmem with ⟨-, rfl⟩ | ⟨-, rfl⟩ | ⟨-, rfl⟩ | ⟨-, rfl⟩ | ⟨-, rfl⟩
  · exact .inr ⟨_, ExactFloat.ofInt_eq _⟩
  · exact .inr ⟨_, ExactFloat.ofInt_eq _⟩
  · exact .inr ⟨_, rfl⟩
  · exact .inr ⟨_, rfl⟩
  · exact .inr ⟨_, rfl⟩

section Rules

variable {dev metric : String} {g e : Ewma F} {b : Bool} {t : Dict String (Json F)}

omit [IsStrictOrderedRing F] in
/-- The configuration is looked up; what comes back has numbers. -/
theorem watch_configFor : Triple (Watch dev metric g e b) (configFor dev)
    (fun cfg s => Numbers cfg ∧ Watch dev metric g e b s) fun _ => False := by
  intro s h
  rw [configFor]
  rcases hget : Dict.get? s.configCache dev with _ | cfg
  · have hcfg : Numbers
        (((s.db.currentConfig dev).map ConfigRow.asConfig).getD DEFAULT_CONFIG) := by
      rcases s.db.currentConfig dev with _ | row
      · exact numbers_default
      · exact numbers_asConfig row
    refine ⟨hcfg, h.rules, fun cfg hc => ?_, h.gate, h.own, h.var, h.alert⟩
    rw [Dict.get?_set_self (.of_lawful dev)] at hc
    exact Option.some.inj hc ▸ hcfg
  · exact ⟨h.config cfg hget, h⟩

omit [ExactFloat F] [IsStrictOrderedRing F] in
theorem watch_hwFor : Triple (Watch dev metric g e b) (hwFor dev)
    (fun _ => Watch dev metric g e b) fun _ => False := by
  intro s h
  rw [hwFor]
  rcases Dict.get? s.hwCache dev with _ | hw
  · exact h.congr rfl rfl (fun _ => rfl) rfl
  · exact h

/-- The only override in the default rules. -/
def orinOverride (x : F) : Json F := .obj [("hw_model", .str "ORIN-NANO"), ("value", .float x)]

/-- A threshold rule like those of the default rules. -/
structure PlainRule (kvs : Dict String (Json F)) : Prop where
  metric : ∃ key ∈ METRIC_KEYS, Dict.get? kvs "metric" = some (.str key)
  name : ∃ c cs name, Dict.get? kvs "name" = some (.str name) ∧ name.toList = c :: cs ∧ c ≠ 'a'
  op : ∃ op, Dict.get? kvs "op" = some (.str op)
  severity : ∃ sev, Dict.get? kvs "severity" = some (.str sev)
  value : ∃ v, Dict.get? kvs "value" = some v ∧ Resolvable v
  overrides : Dict.get? kvs "overrides" = none ∨
    ∃ x, Dict.get? kvs "overrides" = some (.arr [orinOverride x])

omit [ExactFloat F] [IsStrictOrderedRing F] in
/-- An override, where one applies, has a value that resolves too. -/
theorem PlainRule.watch_spec {kvs : Dict String (Json F)} (hrule : PlainRule kvs) :
    Triple (Watch dev metric g e b) (thresholdSpec (.obj kvs) dev)
      (fun r s => (Resolvable r.1 ∧ ∃ sev, r.2 = .str sev) ∧ Watch dev metric g e b s)
      fun _ => False := by
  obtain ⟨sev, hsev⟩ := hrule.severity
  obtain ⟨v, hvalue, hv⟩ := hrule.value
  refine Triple.ok_bind (getD_obj hvalue) (Triple.ok_bind (getD_obj hsev) ?_)
  rcases hrule.overrides with hnone | ⟨x, hsome⟩
  · refine Triple.ok_bind (a := none) (by rw [Json.get, hnone]) (Triple.ok_bind (a := []) rfl ?_)
    exact Triple.pure fun s h => ⟨⟨hv, sev, rfl⟩, h⟩
  · refine Triple.ok_bind (a := some (.arr [orinOverride x])) (by rw [Json.get, hsome])
      (Triple.ok_bind (a := [orinOverride x]) rfl ?_)
    -- the model decides
    refine Triple.bind (Q := fun _ => Watch dev metric g e b) ?_ fun hit => Triple.ite
      (fun _ => Triple.pure fun s h => ⟨⟨resolvable_float x, sev, rfl⟩, h⟩)
      fun _ => Triple.pure fun s h => ⟨⟨hv, sev, rfl⟩, h⟩
    exact Triple.bind watch_hwFor fun _ => Triple.pure fun _ h => h

variable [PyText F]

omit [ExactFloat F] [IsStrictOrderedRing F] in
/-- A default threshold neither raises nor touches what is watched. -/
theorem PlainRule.watch {kvs : Dict String (Json F)} (hrule : PlainRule kvs) (ht : Readable t)
    {cfg : Dict String (Json F)} (hcfg : Numbers cfg) (now clock : F) :
    Triple (Watch dev metric g e b) (onThreshold dev t cfg now clock (.obj kvs))
      (fun _ => Watch dev metric g e b) fun _ => False := by
  obtain ⟨key, hkey, hmetric⟩ := hrule.metric
  obtain ⟨c, cs, name, hname, hcs, hc⟩ := hrule.name
  obtain ⟨op, hop⟩ := hrule.op
  refine Triple.ok_bind (getD_obj hmetric) (Triple.ok_bind (a := Dict.get? t key) rfl ?_)
  rcases hv : Dict.get? t key with _ | v
  · exact Triple.pure fun _ h => h
  obtain ⟨x, rfl⟩ := ht.metrics key hkey v hv
  refine Triple.bind hrule.watch_spec fun r => Triple.of_and fun ⟨hspec, sev, hsev⟩ => ?_
  obtain ⟨spec, severity⟩ := r
  dsimp only at hspec hsev ⊢
  subst hsev
  -- a rule whose value resolves to nothing is passed over
  obtain ⟨thr, hthr⟩ := hspec cfg hcfg
  refine Triple.ok_bind hthr ?_
  cases thr with
  | none => exact Triple.pure fun _ h => h
  | some thr =>
    refine Triple.ok_bind (a := x) rfl (Triple.ok_bind (getD_obj hop)
      (Triple.ok_bind (a := some (.str name)) (by rw [Json.get, hname]) ?_))
    have htruthy : (Json.str name : Json F).truthy = true := by
      refine decide_eq_true fun hempty => ?_
      rw [hempty] at hcs
      cases hcs
    rw [Json.orElse, if_pos htruthy]
    -- its name does not start as those of the anomaly rules do
    have hne : name ≠ "anomaly:" ++ metric := by
      have h := append_ne hcs (show "anomaly:".toList = 'a' :: _ from rfl) hc "" metric
      rwa [String.append_empty] at h
    exact (watch_mark_other hne _ _ _ _ _ _ _).bind fun _ => Triple.pure fun _ h => h

omit [Field F] [LinearOrder F] [ExactFloat F] [IsStrictOrderedRing F] [PyText F] in
/-- The six default thresholds are plain. -/
theorem plainRule_default : ∀ rule ∈ (defaultThresholds : List (Json F)),
    ∃ kvs, rule = .obj kvs ∧ PlainRule kvs := by
  simp only [defaultThresholds, List.forall_mem_cons]
  refine ⟨⟨_, rfl, ?_⟩, ⟨_, rfl, ?_⟩, ⟨_, rfl, ?_⟩, ⟨_, rfl, ?_⟩, ⟨_, rfl, ?_⟩, ⟨_, rfl, ?_⟩, ?_⟩
  · exact ⟨⟨"temp_c", by decide, rfl⟩, ⟨'t', _, _, rfl, rfl, by decide⟩, ⟨_, rfl⟩, ⟨_, rfl⟩,
      ⟨_, rfl, resolvable_str _⟩, .inl rfl⟩
  · exact ⟨⟨"temp_c", by decide, rfl⟩, ⟨'t', _, _, rfl, rfl, by decide⟩, ⟨_, rfl⟩, ⟨_, rfl⟩,
      ⟨_, rfl, resolvable_str _⟩, .inl rfl⟩
  · exact ⟨⟨"current_a", by decide, rfl⟩, ⟨'c', _, _, rfl, rfl, by decide⟩, ⟨_, rfl⟩, ⟨_, rfl⟩,
      ⟨_, rfl, resolvable_str _⟩, .inl rfl⟩
  · exact ⟨⟨"rpm", by decide, rfl⟩, ⟨'r', _, _, rfl, rfl, by decide⟩, ⟨_, rfl⟩, ⟨_, rfl⟩,
      ⟨_, rfl, resolvable_str _⟩, .inl rfl⟩
  · exact ⟨⟨"voltage_v", by decide, rfl⟩, ⟨'v', _, _, rfl, rfl, by decide⟩, ⟨_, rfl⟩, ⟨_, rfl⟩,
      ⟨_, rfl, resolvable_float _⟩, .inr ⟨_, rfl⟩⟩
  · exact ⟨⟨"vibration_g", by decide, rfl⟩, ⟨'v', _, _, rfl, rfl, by decide⟩, ⟨_, rfl⟩, ⟨_, rfl⟩,
      ⟨_, rfl, resolvable_float _⟩, .inl rfl⟩
  · exact fun rule h => absurd h List.not_mem_nil

omit [ExactFloat F] [IsStrictOrderedRing F] in
/-- All of them in turn. -/
theorem watch_onThresholds (ht : Readable t) {cfg : Dict String (Json F)} (hcfg : Numbers cfg)
    (now clock : F) :
    Triple (Watch dev metric g e b) (onThresholds dev t cfg now clock)
      (fun _ => Watch dev metric g e b) fun _ => False := by
  refine Triple.bind (Q := fun s₀ s => s₀.rules = DEFAULT_RULES ∧ Watch dev metric g e b s)
    (Triple.get fun _ h => ⟨h.rules, h⟩) fun s₀ => Triple.of_and fun hrules => ?_
  refine Triple.ok_bind (a := defaultThresholds) (by rw [hrules]; rfl) ?_
  refine Triple.collect_inv fun rule hrule => ?_
  obtain ⟨kvs, rfl, hplain⟩ := plainRule_default rule hrule
  exact hplain.watch ht hcfg now clock

/-- The severities of the flags. -/
def flagSeverities : Dict String (Json F) :=
  [("OVERTEMP", .str "critical"), ("OVERCURRENT", .str "critical"),
   ("UNDERVOLTAGE", .str "warn"), ("VIBRATION_HIGH", .str "warn"), ("SENSOR_STUCK", .str "warn"),
   ("GPS_LOST", .str "info"), ("COMM_DEGRADED", .str "warn"), ("ENCODER_FAULT", .str "critical")]

omit [Field F] [LinearOrder F] [PyFloat F] [ExactFloat F] [IsStrictOrderedRing F] [PyText F] in
theorem getD_text {kvs : Dict String (Json F)} (h : ∀ e ∈ kvs, ∃ s, e.2 = .str s)
    (key default : String) : ∃ s, (Dict.get? kvs key).getD (.str default) = .str s := by
  rcases hget : Dict.get? kvs key with _ | v
  · exact ⟨default, rfl⟩
  · exact h _ (Dict.get?_mem (.of_lawful key) hget)

omit [IsStrictOrderedRing F] in
/-- The alerts of the fault flags have names of their own. -/
theorem watch_onFaultFlags (ht : Readable t) (now clock : F) :
    Triple (Watch dev metric g e b) (onFaultFlags dev t now clock)
      (fun _ => Watch dev metric g e b) fun _ => False := by
  refine Triple.bind (Q := fun s₀ s => s₀.rules = DEFAULT_RULES ∧ Watch dev metric g e b s)
    (Triple.get fun _ h => ⟨h.rules, h⟩) fun s₀ => Triple.of_and fun hrules => ?_
  rw [hrules]
  refine Triple.ok_bind (a := .bool true) rfl (Triple.ite (fun _ => ?_) fun h => absurd rfl h)
  -- a sample has its flags as an integer, or none
  obtain ⟨flags, hflags⟩ : ∃ n, ((Dict.get? t "fault_flags").getD (.int 0)).toInt = .ok n := by
    rcases hv : Dict.get? t "fault_flags" with _ | v
    · exact ⟨0, rfl⟩
    · obtain ⟨n, rfl⟩ := ht.flags v hv
      exact ⟨n, rfl⟩
  refine Triple.ok_bind hflags (Triple.ok_bind (a := .obj flagSeverities) rfl
    (Triple.collect_inv fun f _ => ?_))
  refine Triple.ite (fun _ => ?_) fun _ => ?_
  · refine Triple.ok_bind (ExactFloat.ofInt_eq _) ?_
    obtain ⟨sev, hsev⟩ := getD_text (show ∀ e ∈ (flagSeverities : Dict String (Json F)),
        ∃ s, e.2 = .str s by
      simp [flagSeverities]) f.1 "warn"
    -- no flag rule is the watched anomaly rule: their names begin differently
    have hne : "flag:" ++ f.1 ≠ "anomaly:" ++ metric :=
      append_ne (show "flag:".toList = 'f' :: _ from rfl)
        (show "anomaly:".toList = 'a' :: _ from rfl) (by decide) f.1 metric
    have hmark : Triple (Watch dev metric g e b) (mark dev (.str ("flag:" ++ f.1)) true now
        (some "fault_flags") (some ((f.2 : Int) : F)) (.str sev)
        (.str ("device reports " ++ f.1)) clock) _ _ :=
      watch_mark_other hne true now _ _ sev _ clock
    rw [← hsev] at hmark
    exact hmark.bind fun _ => Triple.pure fun _ h => h
  · exact Triple.bind (Q := fun _ => Watch dev metric g e b)
      (Triple.modify fun s h => h.congr rfl rfl (fun _ => rfl) rfl) fun _ =>
        Triple.pure fun _ h => h

omit [PyText F] in
/-- A window apart, two samples have a rate. -/
theorem watch_onRates (ht : Readable t) (now clock : F) :
    Triple (Watch dev metric g e b) (onRates dev t now clock)
      (fun _ => Watch dev metric g e b) fun _ => False := by
  refine Triple.bind (Q := fun s₀ s => s₀.rules = DEFAULT_RULES ∧ Watch dev metric g e b s)
    (Triple.get fun _ h => ⟨h.rules, h⟩) fun s₀ => Triple.of_and fun hrules => ?_
  rw [hrules]
  refine Triple.collect_inv fun rule hrule => ?_
  rw [List.mem_singleton.mp hrule, onRate]
  dsimp only
  rcases hv : Dict.get? t "temp_c" with _ | v
  · exact Triple.pure fun _ h => h
  obtain ⟨x, rfl⟩ := ht.metrics "temp_c" (by decide) v hv
  refine Triple.ok_bind (a := x) rfl (Triple.bind watch_st fun d => ?_)
  refine Triple.bind (Q := fun _ => Watch dev metric g e b) ?_ fun _ =>
    Triple.ok_bind (a := lit 5.0) rfl (Triple.ok_bind (a := PyFloat.ofRat 5.0) rfl ?_)
  · refine Triple.weaken (watch_modifySt ?_) (fun _ h => h.1) (fun _ _ h => h) fun _ h => h
    exact fun _ => rfl
  refine Triple.bind (watch_modifySt fun _ => rfl) fun _ => ?_
  split
  · exact Triple.pure fun _ h => h
  · next ref href =>
    -- the reference is a window old
    have hold : (5 : F) ≤ PyFloat.sub now ref.1 := by
      have hle := List.find?_some href
      rw [ExactFloat.le_iff, ExactFloat.ofRat_eq] at hle
      norm_num at hle
      exact hle
    have hdiv := ExactFloat.div_eq (PyFloat.sub x ref.2) (PyFloat.sub now ref.1) (by linarith)
    refine Triple.ok_bind hdiv (Triple.ok_bind (a := lit 2.0) rfl
      (Triple.ok_bind (a := PyFloat.ofRat 2.0) rfl (Triple.ok_bind (a := .str "warn") rfl ?_)))
    have hne : "rate:" ++ "temp_c" ≠ "anomaly:" ++ metric :=
      append_ne (show "rate:".toList = 'r' :: _ from rfl)
        (show "anomaly:".toList = 'a' :: _ from rfl) (by decide) "temp_c" metric
    exact (watch_mark_other hne _ _ _ _ _ _ _).bind fun _ => Triple.pure fun _ h => h

omit [ExactFloat F] [IsStrictOrderedRing F] in
/-- The alert of the loss is none of the watched rule either. -/
theorem watch_onLoss (loss : Option F) (now clock : F) :
    Triple (Watch dev metric g e b) (onLoss dev loss now clock)
      (fun _ => Watch dev metric g e b) fun _ => False := by
  cases loss with
  | none => exact Triple.pure fun _ h => h
  | some loss =>
    refine Triple.bind (Q := fun s₀ s => s₀.rules = DEFAULT_RULES ∧ Watch dev metric g e b s)
      (Triple.get fun _ h => ⟨h.rules, h⟩) fun s₀ => Triple.of_and fun hrules => ?_
    rw [hrules]
    refine Triple.ok_bind (a := lit 10.0) rfl (Triple.ok_bind (a := PyFloat.ofRat 10.0) rfl
      (Triple.ok_bind (a := .str "warn") rfl ?_))
    have hne : "packet_loss" ≠ "anomaly:" ++ metric :=
      append_ne (show "packet_loss".toList = 'p' :: _ from rfl)
        (show "anomaly:".toList = 'a' :: _ from rfl) (by decide) "" metric
    exact watch_mark_other hne _ _ _ _ _ _ _

end Rules

/-! ## The anomaly rule -/

section Anomaly

variable {dev metric : String} {g e : Ewma F} {b : Bool} {t : Dict String (Json F)}

omit [ExactFloat F] [IsStrictOrderedRing F] in
/-- Read an average. -/
theorem watch_read (key : String) :
    Triple (Watch dev metric g e b) (st dev)
      (fun d s => (0 ≤ ((Dict.get? d.ewma key).getD ewma0).var ∧
          (key = "gate:rpm" → (Dict.get? d.ewma key).getD ewma0 = g) ∧
          (key = metric → (Dict.get? d.ewma key).getD ewma0 = e)) ∧ Watch dev metric g e b s)
      fun _ => False := by
  refine Triple.weaken watch_st (fun _ h => h) (fun d s ⟨h, hd⟩ => ?_) fun _ h => h
  refine ⟨⟨?_, ?_, ?_⟩, h⟩
  · rw [hd]
    exact h.var key
  · rintro rfl
    rw [hd]
    exact h.gate
  · rintro rfl
    rw [hd]
    exact h.own

omit [ExactFloat F] [IsStrictOrderedRing F] in
/-- Write back what was read, as `setdefault` does. -/
theorem watch_writeBack {key : String} {v : Ewma F} (hv : 0 ≤ v.var)
    (hgate : key = "gate:rpm" → v = g) (hown : key = metric → v = e) :
    Triple (Watch dev metric g e b) (modifySt dev fun d => { d with ewma := Dict.set d.ewma key v })
      (fun _ => Watch dev metric g e b) fun _ => False := by
  have hg : (if key = "gate:rpm" then v else g) = g := by
    split
    · next h => exact hgate h
    · rfl
  have he : (if key = metric then v else e) = e := by
    split
    · next h => exact hown h
    · rfl
  have h : Triple (Watch dev metric g e b) (modifySt dev fun d =>
      { d with ewma := Dict.set d.ewma key v }) _ _ := watch_setAverage key hv
  rwa [hg, he] at h

/-- Whether the gate is open, in numbers. -/
theorem gateMoving_default (gate : Dict String (Json F))
    (hfrac : Dict.get? gate "frac" = some (lit 0.10))
    (habs : Dict.get? gate "abs" = some (lit 100.0)) (g : Ewma F) (x : F) :
    gateMoving defaultParams (.obj gate) g x = .ok (g.moving x) := by
  have hfloat : ∀ {key : String} {q : ℚ} (default : Json F), Dict.get? gate key = some (lit q) →
      floatOf (.obj gate) key default = .ok (PyFloat.ofRat q) := by
    intro key q default h
    rw [floatOf, getD_obj h]
    rfl
  rw [gateMoving, Ewma.moving]
  by_cases hwarm : 20 ≤ g.n
  · rw [if_pos ((warmup_default g.n).mpr hwarm), hfloat _ hfrac,
      hfloat _ habs, decide_eq_true hwarm, Bool.true_and]
    refine congrArg Except.ok ?_
    rw [Bool.eq_iff_iff, ExactFloat.lt_iff, decide_eq_true_iff, pyMax_eq, ExactFloat.mul_eq,
      ExactFloat.abs_eq, ExactFloat.abs_eq, ExactFloat.sub_eq, ExactFloat.ofRat_eq,
      ExactFloat.ofRat_eq]
    norm_num
  · rw [if_neg (mt (warmup_default g.n).mp hwarm),
      decide_eq_false hwarm, Bool.false_and]

/-- The gate of the default rules. -/
def defaultGate : Dict String (Json F) :=
  [("metric", .str "rpm"), ("frac", lit 0.10), ("abs", lit 100.0),
   ("applies_to", .arr [.str "current_a", .str "voltage_v", .str "vibration_g"])]

variable [PyText F] [PlainText F]

/-- The gate judges the rpm and updates its own average. -/
theorem watch_onGate (hmetric : metric ≠ "gate:rpm") {x : F}
    (hx : Dict.get? t "rpm" = some (.float x)) :
    Triple (Watch dev metric g e b) (onGate dev t defaultParams (.obj defaultGate))
      (fun moving s => moving = g.moving x ∧ Watch dev metric (g.next x (1 / 20) true) e b s)
      fun _ => False := by
  refine Triple.ok_bind (a := .str "rpm") rfl (Triple.ite (fun _ => ?_) fun h => absurd rfl h)
  refine Triple.ok_bind (a := some (.float x)) (congrArg Except.ok hx) ?_
  dsimp only
  refine Triple.bind (watch_read "gate:rpm") fun d => Triple.of_and fun ⟨hvar, hgate, _⟩ => ?_
  rw [PlainText.pyStr_str, show "gate:" ++ "rpm" = "gate:rpm" from rfl, hgate rfl]
  rw [hgate rfl] at hvar
  refine Triple.bind (watch_writeBack hvar (fun _ => rfl) fun h => absurd h.symm hmetric) fun _ =>
    Triple.ok_bind (a := x) rfl (Triple.ok_bind (gateMoving_default _ rfl rfl g x) ?_)
  obtain ⟨z, hnext⟩ := ewmaUpdate_eq hvar x defaultParams.alpha true
  refine Triple.ok_bind hnext ?_
  -- the average of the gate moves on, after the gate is read
  have hset : Triple (Watch dev metric g e b) (modifySt dev fun d =>
      { d with ewma := Dict.set d.ewma "gate:rpm" (g.next x (1 / 20) true) }) _ _ :=
    watch_setAverage "gate:rpm" (Ewma.next_var_nonneg hvar (by norm_num) (by norm_num) x true)
  rw [if_pos rfl, if_neg hmetric.symm] at hset
  rw [alpha_default]
  exact Triple.bind hset fun _ => Triple.pure fun _ h => ⟨rfl, h⟩

/-- The metrics of the anomaly rule. -/
def METRICS : List String := ["temp_c", "current_a", "voltage_v", "vibration_g"]

/-- The metrics that are not judged while the gate moves. -/
def GATED : List (Json F) := [.str "current_a", .str "voltage_v", .str "vibration_g"]

theorem append_left_inj (p s t : String) : p ++ s = p ++ t ↔ s = t := by
  refine ⟨fun h => ?_, fun h => h ▸ rfl⟩
  have hlist := congrArg String.toList h
  rw [String.toList_append, String.toList_append, List.append_cancel_left_eq] at hlist
  exact String.toList_inj.mp hlist

/-- The rule on a metric, watched or not. -/
theorem watch_onAnomalyMetric {key : String} (hkey : key ≠ "gate:rpm") {x : F}
    (hx : Dict.get? t key = some (.float x)) (now clock : F) (moving : Bool) :
    Triple (Watch dev metric g e b)
      (onAnomalyMetric dev t now clock defaultParams (.str "warn") moving GATED (.str key))
      (fun _ => Watch dev metric g
        (if key = metric then e.judged (moving && (GATED : List (Json F)).any (· == .str key))
          now x else e)
        (b || (decide (key = metric) &&
          (e.judged (moving && (GATED : List (Json F)).any (· == .str key)) now x).sustained now)))
      fun _ => False := by
  refine Triple.ok_bind (a := some (.float x)) (congrArg Except.ok hx)
    (Triple.ok_bind (a := x) rfl ?_)
  dsimp only
  rw [PlainText.pyStr_str]
  -- the average is read, judged, and written back
  refine Triple.bind (watch_read key) fun d => Triple.of_and fun ⟨hvar, hgate, hown⟩ => ?_
  generalize (Dict.get? d.ewma key).getD ewma0 = v at hvar hgate hown ⊢
  refine Triple.bind (watch_writeBack hvar hgate hown) fun _ =>
    Triple.ok_bind (judge_default hvar _ now x) ?_
  generalize (moving && (GATED : List (Json F)).any (· == .str key)) = suppressed
  refine Triple.bind (watch_setAverage key (Ewma.judged_var_nonneg hvar suppressed now x))
    fun _ => ?_
  rw [if_neg hkey, ← Ewma.condition, sustained_default]
  refine Triple.bind (watch_mark _ _ now _ _ "warn" _ clock) fun _ => Triple.pure fun s h => ?_
  -- the alert is the one watched iff the metric is
  rw [decide_eq_decide.mpr (append_left_inj "anomaly:" key metric)] at h
  by_cases hmetric : key = metric
  · rw [hown hmetric, Bool.and_comm] at h
    exact h
  · rw [if_neg hmetric, decide_eq_false hmetric, Bool.and_false] at h
    rwa [if_neg hmetric, decide_eq_false hmetric, Bool.false_and]

/-- The round of another metric. -/
theorem watch_onAnomalyMetric_other {key : String} (hkey : key ∈ METRICS) (hne : key ≠ metric)
    (ht : Readable t) (now clock : F) (moving : Bool) :
    Triple (Watch dev metric g e b)
      (onAnomalyMetric dev t now clock defaultParams (.str "warn") moving GATED (.str key))
      (fun _ => Watch dev metric g e b) fun _ => False := by
  have hin : key ∈ METRIC_KEYS ∧ key ≠ "gate:rpm" := by
    simp only [METRICS, List.mem_cons, List.not_mem_nil, or_false] at hkey
    rcases hkey with rfl | rfl | rfl | rfl <;> decide
  rcases hv : Dict.get? t key with _ | v
  · refine Triple.ok_bind (a := none) (congrArg Except.ok hv) (Triple.pure fun _ h => h)
  · obtain ⟨x, rfl⟩ := ht.metrics key hin.1 v hv
    have h : Triple (Watch dev metric g e b)
        (onAnomalyMetric dev t now clock defaultParams (.str "warn") moving GATED (.str key)) _ _ :=
      watch_onAnomalyMetric hin.2 hv now clock moving
    rwa [if_neg hne, decide_eq_false hne, Bool.false_and, Bool.or_false] at h

/-- The average of the metric after a sample `x`, with the gate at `r`. -/
def afterSample (metric : String) (g e : Ewma F) (now r x : F) : Ewma F :=
  e.judged (g.moving r && (GATED : List (Json F)).any (· == .str metric)) now x

variable {r x : F}

/-- The anomaly rules on one sample: the average of the metric is judged, and the alert is there
    if the run has held. -/
theorem watch_onAnomaly (hmetric : metric ∈ METRICS) (ht : Readable t)
    (hr : Dict.get? t "rpm" = some (.float r)) (hx : Dict.get? t metric = some (.float x))
    (now clock : F) :
    Triple (Watch dev metric g e b) (onAnomaly dev t now clock)
      (fun _ => Watch dev metric (g.next r (1 / 20) true) (afterSample metric g e now r x)
        (b || (afterSample metric g e now r x).sustained now)) fun _ => False := by
  have hgate : metric ≠ "gate:rpm" := by
    rintro rfl
    exact absurd hmetric (by decide)
  refine Triple.bind (Q := fun s₀ s => s₀.rules = DEFAULT_RULES ∧ Watch dev metric g e b s)
    (Triple.get fun _ h => ⟨h.rules, h⟩) fun s₀ => Triple.of_and fun hrules => ?_
  rw [hrules]
  refine Triple.ok_bind (a := .bool true) rfl (Triple.ite (fun _ => ?_) fun h => absurd rfl h)
  refine Triple.ok_bind anomalyParams_default (Triple.ok_bind (a := some (.obj defaultGate)) rfl
    (Triple.ok_bind (a := GATED) rfl ?_))
  -- the gate first: it moves the average of the rpm and nothing else
  refine Triple.bind (watch_onGate hgate hr) fun moving => Triple.of_and fun hmoving => ?_
  subst hmoving
  refine Triple.ok_bind (a := .arr (METRICS.map .str)) rfl
    (Triple.ok_bind (a := METRICS.map .str) rfl (Triple.ok_bind (a := .str "warn") rfl ?_))
  -- the rounds of the other metrics leave the average of this one
  have hother : ∀ (e : Ewma F) b, ∀ y ∈ METRICS.map Json.str, y ≠ .str metric →
      Triple (Watch dev metric (g.next r (1 / 20) true) e b)
        (onAnomalyMetric dev t now clock defaultParams (.str "warn") (g.moving r) GATED y)
        (fun _ => Watch dev metric (g.next r (1 / 20) true) e b) fun _ => False := by
    intro e b y hy hne
    obtain ⟨key, hkey, rfl⟩ := List.mem_map.mp hy
    exact watch_onAnomalyMetric_other hkey (fun h => hne (congrArg Json.str h)) ht now clock _
  have hnodup : (METRICS.map Json.str : List (Json F)).Nodup :=
    List.Nodup.map (fun _ _ h => Json.str.inj h) (by decide)
  -- this metric has one round of its own
  refine Triple.collect_one (List.mem_map_of_mem hmetric) hnodup (hother e b) ?_ (hother _ _)
  have h : Triple (Watch dev metric (g.next r (1 / 20) true) e b)
      (onAnomalyMetric dev t now clock defaultParams (.str "warn") (g.moving r) GATED (.str metric))
      _ _ := watch_onAnomalyMetric hgate hx now clock (g.moving r)
  rwa [if_pos rfl, decide_eq_true rfl, Bool.true_and] at h

/-- A sample, as the anomaly rule sees it. -/
theorem watch_onTelemetry (hmetric : metric ∈ METRICS) (ht : Readable t)
    (hr : Dict.get? t "rpm" = some (.float r)) (hx : Dict.get? t metric = some (.float x))
    (now clock : F) (loss : Option F) :
    Triple (Watch dev metric g e b) (onTelemetry dev t now clock loss)
      (fun _ => Watch dev metric (g.next r (1 / 20) true) (afterSample metric g e now r x)
        (b || (afterSample metric g e now r x).sustained now)) fun _ => False := by
  refine Triple.bind (Q := fun _ => Watch dev metric g e b)
    (watch_st.weaken (fun _ h => h) (fun _ _ h => h.1) fun _ h => h) fun _ => ?_
  refine Triple.bind watch_configFor fun cfg => Triple.of_and fun hcfg => ?_
  refine (watch_onThresholds ht hcfg now clock).bind fun _ => ?_
  refine (watch_onFaultFlags ht now clock).bind fun _ =>
    (watch_onRates ht now clock).bind fun _ => ?_
  refine (watch_onAnomaly hmetric ht hr hx now clock).bind fun _ => ?_
  exact (watch_onLoss loss now clock).bind fun _ => Triple.pure fun _ h => h

/-- One step of a run. -/
theorem watch_step (hmetric : metric ∈ METRICS) (ht : Readable t)
    (hr : Dict.get? t "rpm" = some (.float r)) (hx : Dict.get? t metric = some (.float x))
    {now clock : F} {loss : Option F} {s : Engine F} (h : Watch dev metric g e b s) :
    Watch dev metric (g.next r (1 / 20) true) (afterSample metric g e now r x)
      (b || (afterSample metric g e now r x).sustained now)
      (step s (.telemetry dev t now clock loss)) := by
  have htriple : Triple (Watch dev metric g e b) (handle (.telemetry dev t now clock loss))
      (fun _ => Watch dev metric (g.next r (1 / 20) true) (afterSample metric g e now r x)
        (b || (afterSample metric g e now r x).sustained now)) fun _ => False := by
    refine Triple.bind (Q := fun _ => Watch dev metric g e b)
      (Triple.modify fun s h => h.congr rfl rfl (fun _ => rfl) rfl) fun _ => ?_
    exact watch_onTelemetry hmetric ht hr hx now clock loss
  exact (htriple.weaken (fun _ h => h) (fun _ _ h => h) fun _ h => h.elim).state h

end Anomaly

end Engine

end EcuTelemetry.Backend
