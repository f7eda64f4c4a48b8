/-
  EcuTelemetry.Backend.RuleDocuments

  Rule documents the engine can evaluate.  `PUT /api/rules` takes any JSON object;
  `RulesOk` is what the merged document needs for `on_telemetry` and `tick` to
  return: each section has the type its loop expects, what is converted with
  `float` or `int` can be, what goes into the database is a number or a text that
  UTF-8 can encode, a rate has a positive window and an average a share `alpha`
  from 0 to 1.  The message of an alert quotes the comparison of its rule, which
  has to be such a text too.

  A part that is never reached is free: the value of a rule whose metric no sample
  has, a section that is not enabled, the severity of a rule that is never true.
-/

import EcuTelemetry.Backend.IeeeFloat
import EcuTelemetry.Backend.Overrides
import EcuTelemetry.Backend.Ingest

namespace EcuTelemetry.Backend

open Proc Protocol Engine

variable {F : Type} [PyFloat F]

/-! ## Values -/

namespace Json

/-- SQLite takes the value as a parameter of a TEXT column. -/
def Storable (v : Json F) : Prop := ∃ text, v.sqlText = .ok text

/-- `float(v)` returns. -/
def Floats (v : Json F) : Prop := ∃ x, v.toFloat = .ok x

theorem storable_str (s : String) : (str s : Json F).Storable := ⟨some s, rfl⟩

/-- Only a text with a lone surrogate spoils the text it stands in. -/
theorem storable_formatted [PyText F] {v : Json F} (hv : ∀ t, v ≠ .lone t)
    (before after : String) : (formatted before v after).Storable := by
  cases v with
  | lone t => exact absurd rfl (hv t)
  | _ => exact storable_str _

end Json

/-! ## Samples -/

/-- The fields of a sample that are numbers. -/
def NUMERIC_FIELDS : List String :=
  ["rpm", "temp_c", "current_a", "voltage_v", "vibration_g", "speed_kph", "lat", "lon",
   "fault_flags", "state", "ts", "device_ts_ms", "seq", "loss_pct"]

def TEXT_FIELDS : List String := ["state_name", "faults", "device_id", "ts_iso", "fw_version"]

def SAMPLE_FIELDS : List String := NUMERIC_FIELDS ++ TEXT_FIELDS

/-- The fields of a sample. -/
structure Sampled (t : Dict String (Json F)) : Prop where
  fields : ∀ key, (Dict.get? t key).isSome → key ∈ SAMPLE_FIELDS
  numeric : ∀ key ∈ NUMERIC_FIELDS, (Dict.get? t key).isSome
  flags : ∃ n, Dict.get? t "fault_flags" = some (.int n)

/-- The numbers of a sample are in the range of a float. -/
def InRange (t : Dict String (Json F)) : Prop :=
  ∀ key ∈ NUMERIC_FIELDS, ∀ v, Dict.get? t key = some v → v.Floats

/-! ## Configurations -/

/-- The integers of a row are those of a request. -/
def RowOk (row : ConfigRow F) : Prop := row.telemetryHz < 2 ^ 63 ∧ row.logLevel < 2 ^ 63

/-- What `config_for` returns. -/
def IsConfig (cfg : Dict String (Json F)) : Prop :=
  cfg = DEFAULT_CONFIG ∨ ∃ row, RowOk row ∧ cfg = row.asConfig

/-! ## Sections of a document -/

/-- `kvs.get(key, default)` of a section. -/
def entry (kvs : Dict String (Json F)) (key : String) (default : Json F) : Json F :=
  (Dict.get? kvs key).getD default

/-- The comparison of a threshold rule. -/
def compares (op : Json F) (x thr : F) : Bool :=
  match op with
  | .str ">" => PyFloat.lt thr x
  | .str "<" => PyFloat.lt x thr
  | .str ">=" => PyFloat.le thr x
  | _ => PyFloat.le x thr

/-- `alpha` is a share, or NaN. -/
def Engine.AnomalyParams.Shares (p : AnomalyParams F) : Prop :=
  PyFloat.lt p.alpha (PyFloat.ofRat 0) = false ∧ PyFloat.lt (PyFloat.ofRat 1) p.alpha = false

def CommOk (comm : Json F) : Prop :=
  ∃ kvs, comm = .obj kvs ∧ (entry kvs "loss_pct" .null ≠ .null →
    ∃ limit, (entry kvs "loss_pct" .null).toFloat = .ok limit ∧
      ∀ loss, PyFloat.lt limit loss = true → (entry kvs "severity" (.str "warn")).Storable)

/-- A rate is measured over more than no time. -/
def RateOk (rule : String × Json F) : Prop :=
  rule.1 ∈ SAMPLE_FIELDS → rule.1 ∈ NUMERIC_FIELDS ∧ ∃ kvs, rule.2 = .obj kvs ∧
    ∃ window, (entry kvs "window_s" (lit 5.0)).toFloat = .ok window ∧
      PyFloat.le window (PyFloat.ofRat 0) = false ∧
      ∀ dt, PyFloat.le window dt = true →
        ∃ lim, (entry kvs "max_per_s" (lit 2.0)).toFloat = .ok lim ∧
          ∀ rate, PyFloat.lt lim rate = true → (entry kvs "severity" (.str "warn")).Storable

def RatesOk (rates : Option (Json F)) : Prop :=
  ∃ kvs, Json.orElse rates (.obj []) = .obj kvs ∧ ∀ rule ∈ kvs, RateOk rule

/-- The metric of an average. -/
def AverageOk (p : AnomalyParams F) (metric : Json F) : Prop :=
  metric.hashable = true ∧
    ∀ key ∈ SAMPLE_FIELDS, metric = .str key → key ∈ NUMERIC_FIELDS ∧ p.Shares

def GateOk (p : AnomalyParams F) (gate : Dict String (Json F)) : Prop :=
  let metric := entry gate "metric" .null
  metric.truthy = true → AverageOk p metric ∧ ∀ key ∈ SAMPLE_FIELDS, metric = .str key →
    (entry gate "frac" (lit 0.1)).Floats ∧ (entry gate "abs" (lit 0.0)).Floats

/-- The metrics of the rule, and the severity for those a sample has. -/
def MetricsOk (p : AnomalyParams F) (severity : Json F) (metrics : List (Json F)) : Prop :=
  ∀ metric ∈ metrics, AverageOk p metric ∧ ∀ key ∈ SAMPLE_FIELDS, metric = .str key →
    ∀ dt, PyFloat.le p.sustainS dt = true → severity.Storable

def AnomalyOk (anomaly : Json F) : Prop :=
  ∃ kvs, anomaly = .obj kvs ∧ ((entry kvs "enabled" (.bool true)).truthy = true →
    ∃ p gate gated metrics, anomalyParams (.obj kvs) = .ok p ∧
      Json.orElse (Dict.get? kvs "gate") (.obj []) = .obj gate ∧
      gatedMetrics (.obj gate) = .ok gated ∧ GateOk p gate ∧
      (entry kvs "metrics" (.arr [])).iter = .ok metrics ∧
      MetricsOk p (entry kvs "severity" (.str "warn")) metrics)

section Texts

variable [PyText F]

/-- The name of a threshold rule. -/
def thresholdName (kvs : Dict String (Json F)) (metric op : Json F) (thr : F) : Json F :=
  Json.orElse (Dict.get? kvs "name")
    (.formatted (PyText.pyStr metric ++ "_") op ("_" ++ PyFloat.repr thr))

/-- A rule whose metric no sample has may say anything else. -/
def ThresholdOk (rule : Json F) : Prop :=
  ∃ kvs, rule = .obj kvs ∧ (entry kvs "metric" .null).hashable = true ∧
    ∀ key ∈ SAMPLE_FIELDS, entry kvs "metric" .null = .str key → ∀ dev hw,
      ∃ spec severity, specFor dev hw rule = .ok (spec, severity) ∧ ∀ cfg, IsConfig cfg →
        ∃ thr, resolveValue spec cfg = .ok thr ∧ ∀ y, thr = some y →
          key ∈ NUMERIC_FIELDS ∧
          ∀ x, compares (entry kvs "op" (.str ">")) x y = true →
            (thresholdName kvs (.str key) (entry kvs "op" (.str ">")) y).hashable = true ∧
            (thresholdName kvs (.str key) (entry kvs "op" (.str ">")) y).Storable ∧
            severity.Storable ∧
            (thresholdMessage (PyText.pyStr (.str key : Json F)) x (entry kvs "op" (.str ">"))
              y).Storable

/-- The severity of a flag. -/
def flagSeverity (severity : Json F) (flag : String) : Json F :=
  match severity with
  | .obj kvs => entry kvs flag (.str "warn")
  | v => v.toStr

def FlagsOk (flags : Json F) : Prop :=
  ∃ kvs, flags = .obj kvs ∧ ((entry kvs "enabled" (.bool true)).truthy = true →
    ∀ f ∈ FAULT_FLAGS, (flagSeverity (entry kvs "severity" (.obj [])) f.1).Storable)

/-- The merged document. -/
structure RulesOk (rules : Dict String (Json F)) : Prop where
  hold : (entry rules "resolve_after_s" (.int 10)).Floats
  thresholds : ∃ xs, (entry rules "thresholds" (.arr [])).iter = .ok xs ∧
    ∀ rule ∈ xs, ThresholdOk rule
  flags : FlagsOk (entry rules "fault_flags" (.obj []))
  rates : RatesOk (Dict.get? rules "rate")
  anomaly : AnomalyOk (entry rules "anomaly" (.obj []))
  comm : CommOk (entry rules "comm" (.obj []))

end Texts

/-! ## Merging -/

/-- What `_merge` makes of a section. -/
def mergeValue (key : String) (old : Option (Json F)) (v : Json F) : Json F :=
  match v, old with
  | .obj kvs, some (.obj kvs₀) => if key = "rate" then v else .obj (Dict.update kvs₀ kvs)
  | v, _ => v

omit [PyFloat F] in
/-- `_merge` on one key. -/
theorem mergeKey_eq (r : Dict String (Json F)) (kv : String × Json F) :
    mergeKey r kv = Dict.set r kv.1 (mergeValue kv.1 (Dict.get? r kv.1) kv.2) := by
  obtain ⟨key, v⟩ := kv
  cases v with
  | obj kvs =>
    cases hold : Dict.get? r key with
    | none => simp only [mergeKey, mergeValue, hold]
    | some old =>
      cases old with
      | obj kvs₀ =>
        simp only [mergeKey, mergeValue, hold]
        split <;> rfl
      | _ => simp only [mergeKey, mergeValue, hold]
  | _ => rfl

omit [PyFloat F] in
/-- A second merge of the same section changes nothing. -/
theorem mergeValue_mergeValue {old : Option (Json F)} (key : String)
    (hold : ∀ kvs, old = some (.obj kvs) → Dict.Distinct kvs) (v : Json F) :
    mergeValue key old (mergeValue key old v) = mergeValue key old v := by
  rcases old with _ | old
  · cases v <;> rfl
  cases v with
  | obj kvs =>
    cases old with
    | obj kvs₀ =>
      by_cases hkey : key = "rate"
      · simp only [mergeValue, if_pos hkey]
      · simp only [mergeValue, if_neg hkey, Dict.update_update (hold kvs₀ rfl)]
    | _ => rfl
  | _ => cases old <;> rfl

omit [PyFloat F] in
/-- Merging a value with itself. -/
theorem mergeValue_self (key : String) {v : Json F} (hv : ∀ kvs, v = .obj kvs → Dict.Distinct kvs) :
    mergeValue key (some v) v = v := by
  cases v with
  | obj kvs =>
    have hself : Dict.update kvs kvs = kvs :=
      Dict.update_append (p := []) (List.prefix_refl _) (hv kvs rfl)
    by_cases hkey : key = "rate"
    · simp only [mergeValue, if_pos hkey]
    · simp only [mergeValue, if_neg hkey, hself]
  | _ => rfl

omit [PyFloat F] in
/-- Each key after the merge. -/
theorem get?_foldl_mergeKey (doc : Dict String (Json F)) (hdoc : Dict.Distinct doc)
    (r : Dict String (Json F)) (key : String) :
    Dict.get? (doc.foldl mergeKey r) key =
      match Dict.get? doc key with
      | none => Dict.get? r key
      | some v => some (mergeValue key (Dict.get? r key) v) := by
  induction doc generalizing r with
  | nil => rfl
  | cons kv doc ih =>
    obtain ⟨hnot, hdoc⟩ := List.nodup_cons.mp hdoc
    rw [List.foldl_cons, ih hdoc, mergeKey_eq, Dict.get?]
    by_cases hkey : kv.1 = key
    · subst hkey
      rw [Dict.get?_eq_none_of_not_mem (.of_lawful _) hnot, if_pos (beq_self_eq_true _),
        Dict.get?_set_self (.of_lawful _)]
    · rw [if_neg (by simpa using hkey), Dict.get?_set_ne (.of_lawful _) (.of_lawful _) hkey]

theorem get?_mergeRules {doc : Dict String (Json F)} (hdoc : Dict.Distinct doc) (key : String) :
    Dict.get? (mergeRules doc) key =
      match Dict.get? doc key with
      | none => Dict.get? DEFAULT_RULES key
      | some v => some (mergeValue key (Dict.get? DEFAULT_RULES key) v) :=
  get?_foldl_mergeKey doc hdoc DEFAULT_RULES key

/-- No key comes twice. -/
theorem distinct_mergeRules (doc : Dict String (Json F)) : Dict.Distinct (mergeRules doc) := by
  have hfold : ∀ r : Dict String (Json F), Dict.Distinct r →
      Dict.Distinct (doc.foldl mergeKey r) := by
    induction doc with
    | nil => exact fun r hr => hr
    | cons kv doc ih =>
      intro r hr
      refine ih _ ?_
      rw [mergeKey_eq]
      exact hr.set (.of_lawful _)
  exact hfold DEFAULT_RULES (by simp [Dict.Distinct, DEFAULT_RULES])

/-- The sections of the default rules have each key once. -/
theorem distinct_default {key : String} {kvs : Dict String (Json F)}
    (h : Dict.get? DEFAULT_RULES key = some (.obj kvs)) : Dict.Distinct kvs := by
  have hmem := Dict.get?_mem (.of_lawful key) h
  simp only [DEFAULT_RULES, List.mem_cons, Prod.mk.injEq, List.not_mem_nil, or_false] at hmem
  rcases hmem with ⟨-, h⟩ | ⟨-, h⟩ | ⟨-, h⟩ | ⟨-, h⟩ | ⟨-, h⟩ | ⟨-, h⟩ | ⟨-, h⟩ <;>
    cases h <;> simp [Dict.Distinct, defaultAnomaly]

/-- A stored document is merged into itself. -/
theorem mergeRules_mergeRules {doc : Dict String (Json F)} (hdoc : Dict.Distinct doc)
    (key : String) :
    Dict.get? (mergeRules (mergeRules doc)) key = Dict.get? (mergeRules doc) key := by
  rw [get?_mergeRules (distinct_mergeRules doc), get?_mergeRules hdoc]
  rcases hget : Dict.get? doc key with _ | v
  · rcases hdef : Dict.get? (DEFAULT_RULES : Dict String (Json F)) key with _ | v
    · rfl
    · exact congrArg some (mergeValue_self key fun kvs hv => distinct_default (hv ▸ hdef))
  · exact congrArg some (mergeValue_mergeValue key (fun kvs hold => distinct_default hold) v)

section Congr

variable [PyText F]

/-- Only what is looked up counts. -/
theorem RulesOk.congr {rules rules' : Dict String (Json F)} (h : RulesOk rules)
    (hget : ∀ key, Dict.get? rules' key = Dict.get? rules key) : RulesOk rules' := by
  have hentry : ∀ key default, entry rules' key default = entry rules key default :=
    fun key default => by rw [entry, entry, hget]
  constructor
  · rw [hentry]
    exact h.hold
  · rw [hentry]
    exact h.thresholds
  · rw [hentry]
    exact h.flags
  · rw [hget]
    exact h.rates
  · rw [hentry]
    exact h.anomaly
  · rw [hentry]
    exact h.comm

end Congr

/-! ## The default rules -/

section Default

variable [IeeeFloat F]

theorem floats_int {n : Int} (h : n.natAbs < 2 ^ 64) : (.int n : Json F).Floats :=
  IeeeFloat.ofInt_ok n h

/-- The values of a configuration are numbers, or missing. -/
theorem IsConfig.numbers {cfg : Dict String (Json F)} (h : IsConfig cfg) {key : String} {v : Json F}
    (hget : Dict.get? cfg key = some v) : v = .null ∨ v.Floats := by
  have hmem := Dict.get?_mem (.of_lawful key) hget
  have hreal : ∀ x : Option F64, (realColumn x : Json F) = .null ∨
      (realColumn x : Json F).Floats := by
    intro x
    cases x with
    | none => exact .inl rfl
    | some x => exact .inr ⟨_, rfl⟩
  -- the defaults, or a row of the table
  rcases h with rfl | ⟨row, ⟨hhz, hlevel⟩, rfl⟩
  · simp only [DEFAULT_CONFIG, List.mem_cons, Prod.mk.injEq, List.not_mem_nil, or_false] at hmem
    rcases hmem with ⟨-, rfl⟩ | ⟨-, rfl⟩ | ⟨-, rfl⟩ | ⟨-, rfl⟩ | ⟨-, rfl⟩
    · exact .inr (floats_int (by decide))
    · exact .inr (floats_int (by decide))
    · exact .inr ⟨_, rfl⟩
    · exact .inr ⟨_, rfl⟩
    · exact .inr ⟨_, rfl⟩
  · simp only [ConfigRow.asConfig, List.mem_cons, Prod.mk.injEq, List.not_mem_nil, or_false] at hmem
    rcases hmem with ⟨-, rfl⟩ | ⟨-, rfl⟩ | ⟨-, rfl⟩ | ⟨-, rfl⟩ | ⟨-, rfl⟩
    · exact .inr (floats_int (by omega))
    · exact .inr (floats_int (by omega))
    · exact hreal _
    · exact hreal _
    · exact hreal _

/-- A text never makes `_resolve_value` raise. -/
theorem resolveValue_str (text : String) {cfg : Dict String (Json F)} (hcfg : IsConfig cfg) :
    ∃ thr, resolveValue (.str text) cfg = .ok thr := by
  rw [resolveValue]
  split
  · exact ⟨_, rfl⟩
  · next key off _ =>
    rcases hget : Dict.get? cfg (String.ofList key) with _ | v
    · exact ⟨_, rfl⟩
    · rcases hcfg.numbers hget with rfl | ⟨x, hx⟩
      · exact ⟨_, rfl⟩
      · cases v with
        | null => exact ⟨_, rfl⟩
        | _ => exact ⟨_, by dsimp only; rw [hx]; rfl⟩

variable [PyText F]

omit [IeeeFloat F] in
/-- A rule on a number, with texts for its name, its comparison and its severity. -/
theorem thresholdOk_plain {kvs : Dict String (Json F)} {key name op : String}
    (hmetric : Dict.get? kvs "metric" = some (.str key)) (hkey : key ∈ NUMERIC_FIELDS)
    (hname : Dict.get? kvs "name" = some (.str name)) (hne : name ≠ "")
    (hop : Dict.get? kvs "op" = some (.str op))
    (hspec : ∀ dev hw, ∃ spec severity, specFor dev hw (.obj kvs) = .ok (spec, .str severity) ∧
      ∀ cfg, IsConfig cfg → ∃ thr, resolveValue spec cfg = .ok thr) : ThresholdOk (.obj kvs) := by
  have hentry : entry kvs "metric" .null = .str key := by rw [entry, hmetric]; rfl
  refine ⟨kvs, rfl, by rw [hentry]; rfl, fun key' _ hkey' dev hw => ?_⟩
  obtain rfl : key = key' := Json.str.inj (hentry.symm.trans hkey')
  obtain ⟨spec, severity, hrun, hresolve⟩ := hspec dev hw
  refine ⟨spec, .str severity, hrun, fun cfg hcfg => ?_⟩
  obtain ⟨thr, hthr⟩ := hresolve cfg hcfg
  refine ⟨thr, hthr, fun y _ => ⟨hkey, fun x _ => ?_⟩⟩
  -- a name that is not empty is the name of the alert
  have hthreshold : ∀ op, thresholdName kvs (.str key) op y = .str name := by
    intro op
    have htruthy : (Json.str name : Json F).truthy = true := decide_eq_true hne
    rw [thresholdName, hname]
    exact if_pos htruthy
  have hentry : entry kvs "op" (.str ">") = .str op := by rw [entry, hop]; rfl
  rw [hthreshold, hentry]
  exact ⟨rfl, Json.storable_str _, Json.storable_str _, Json.storable_str _⟩

/-- The default thresholds raise on no sample. -/
theorem thresholdOk_default : ∀ rule ∈ (defaultThresholds : List (Json F)), ThresholdOk rule := by
  simp only [defaultThresholds, List.forall_mem_cons]
  refine ⟨?_, ?_, ?_, ?_, ?_, ?_, ?_⟩
  · exact thresholdOk_plain rfl (by decide) rfl (by decide) rfl fun dev hw =>
      ⟨_, _, rfl, fun _ h => resolveValue_str _ h⟩
  · exact thresholdOk_plain rfl (by decide) rfl (by decide) rfl fun dev hw =>
      ⟨_, _, rfl, fun _ h => resolveValue_str _ h⟩
  · exact thresholdOk_plain rfl (by decide) rfl (by decide) rfl fun dev hw =>
      ⟨_, _, rfl, fun _ h => resolveValue_str _ h⟩
  · exact thresholdOk_plain rfl (by decide) rfl (by decide) rfl fun dev hw =>
      ⟨_, _, rfl, fun _ h => resolveValue_str _ h⟩
  · -- the override has a number too
    refine thresholdOk_plain rfl (by decide) rfl (by decide) rfl fun dev hw => ?_
    by_cases hmatch : overrideMatches (F := F) dev hw
        [("hw_model", .str "ORIN-NANO"), ("value", lit 4.5)] = true
    · refine ⟨lit 4.5, "warn", ?_, fun _ _ => ⟨_, rfl⟩⟩
      show Except.ok (overridden _ _ (firstOverride dev hw [.obj _])) = _
      rw [firstOverride, if_pos hmatch]
      rfl
    · refine ⟨lit 80.0, "warn", ?_, fun _ _ => ⟨_, rfl⟩⟩
      show Except.ok (overridden _ _ (firstOverride dev hw [.obj _])) = _
      rw [firstOverride, if_neg hmatch]
      rfl
  · exact thresholdOk_plain rfl (by decide) rfl (by decide) rfl fun dev hw =>
      ⟨_, _, rfl, fun _ _ => ⟨_, rfl⟩⟩
  · exact fun rule h => absurd h List.not_mem_nil

/-- And neither do the default rules. -/
theorem rulesOk_default : RulesOk (DEFAULT_RULES : Dict String (Json F)) where
  hold := floats_int (by decide)
  thresholds := ⟨_, rfl, thresholdOk_default⟩
  flags := by
    refine ⟨_, rfl, fun _ f hf => ?_⟩
    simp only [FAULT_FLAGS, List.mem_cons, List.not_mem_nil, or_false] at hf
    rcases hf with rfl | rfl | rfl | rfl | rfl | rfl | rfl | rfl <;> exact Json.storable_str _
  rates := by
    refine ⟨_, rfl, List.forall_mem_singleton.mpr fun _ => ⟨?_, _, rfl, _, rfl, ?_, ?_⟩⟩
    · show "temp_c" ∈ NUMERIC_FIELDS
      decide
    · exact IeeeFloat.lit_pos 5.0 (by norm_num)
    · exact fun _ _ => ⟨_, rfl, fun _ _ => Json.storable_str _⟩
  anomaly := by
    -- the gate and the metrics share the default 0.05, which is between 0 and 1
    have hshares : ∀ p : AnomalyParams F, p.alpha = PyFloat.ofRat 0.05 → p.Shares := by
      intro p hp
      rw [AnomalyParams.Shares, hp]
      exact ⟨IeeeFloat.lit_mono _ _ (by norm_num), IeeeFloat.lit_mono _ _ (by norm_num)⟩
    refine ⟨_, rfl, fun _ => ⟨_, _, _, _, rfl, rfl, rfl, fun _ => ⟨⟨rfl, ?_⟩, fun _ _ _ =>
      ⟨⟨_, rfl⟩, ⟨_, rfl⟩⟩⟩, rfl, ?_⟩⟩
    · rintro key _ ⟨⟩
      exact ⟨by decide, hshares _ rfl⟩
    · simp only [MetricsOk, List.forall_mem_cons]
      have hmetric : ∀ key ∈ NUMERIC_FIELDS, ∀ p : AnomalyParams F, p.alpha = PyFloat.ofRat 0.05 →
          AverageOk p (.str key) := by
        rintro key hkey p hp
        refine ⟨rfl, ?_⟩
        rintro _ _ ⟨⟩
        exact ⟨hkey, hshares p hp⟩
      exact ⟨⟨hmetric _ (by decide) _ rfl, fun _ _ _ _ _ => Json.storable_str _⟩,
        ⟨hmetric _ (by decide) _ rfl, fun _ _ _ _ _ => Json.storable_str _⟩,
        ⟨hmetric _ (by decide) _ rfl, fun _ _ _ _ _ => Json.storable_str _⟩,
        ⟨hmetric _ (by decide) _ rfl, fun _ _ _ _ _ => Json.storable_str _⟩, nofun⟩
  comm := ⟨_, rfl, fun _ => ⟨_, rfl, fun _ _ => Json.storable_str _⟩⟩

end Default

/-! ## Decoded samples -/

theorem readU_lt (k : Nat) (bs : List Byte) : (readU k bs).1 < 256 ^ k :=
  (leNat_lt _).trans_le (Nat.pow_le_pow_right (by decide) (List.length_take_le k bs))

/-- Sequence number and time fit their fields. -/
theorem header_lt {buf : List Byte} {hdr : Header} (h : Header.unpack buf = .ok hdr) :
    hdr.seq < 256 ^ 4 ∧ hdr.tsMs < 256 ^ 8 := by
  rw [Header.unpack] at h
  split at h
  · cases h
  split at h
  · cases h
  split at h
  · cases h
  split at h
  · cases h
  cases h
  exact ⟨readU_lt 4 _, readU_lt 8 _⟩

theorem telemetry_lt {b : List Byte} {t : Telemetry} (h : Telemetry.unpack b = .ok t) :
    t.faultFlags < 256 ^ 4 ∧ t.state < 256 ^ 1 := by
  rw [Telemetry.unpack] at h
  split at h
  · cases h
  cases h
  exact ⟨readU_lt 4 _, readU_lt 1 _⟩

theorem exists_of_map_ok {ε α β : Type} {f : α → β} {r : Except ε α} {b : β}
    (h : r.map f = .ok b) : ∃ a, r = .ok a ∧ f a = b := by
  cases r with
  | error e => cases h
  | ok a => exact ⟨a, rfl, Except.ok.inj h⟩

/-- Only one class makes a sample. -/
theorem telemetry_of_body {msgType : Nat} {raw : List Byte} {t : Telemetry}
    (h : Body.unpack msgType raw = .ok (.known (.telemetry t))) : Telemetry.unpack raw = .ok t := by
  rw [Body.unpack] at h
  rcases hlookup : PAYLOAD_CLASSES.lookup msgType with _ | unpack
  · rw [hlookup] at h
    cases h
  rw [hlookup] at h
  obtain ⟨payload, hpayload, heq⟩ := exists_of_map_ok h
  obtain rfl := Body.known.inj heq
  obtain ⟨before, after, hclasses, -⟩ := List.lookup_eq_some_iff.mp hlookup
  have hmem : (msgType, unpack) ∈ PAYLOAD_CLASSES := by
    rw [hclasses]
    exact List.mem_append_right _ List.mem_cons_self
  simp only [PAYLOAD_CLASSES, List.mem_cons, Prod.mk.injEq, List.not_mem_nil, or_false] at hmem
  rcases hmem with ⟨-, rfl⟩ | ⟨-, rfl⟩ | ⟨-, rfl⟩ | ⟨-, rfl⟩ | ⟨-, rfl⟩ | ⟨-, rfl⟩ | ⟨-, rfl⟩ |
    ⟨-, rfl⟩ | ⟨-, rfl⟩ | ⟨-, rfl⟩ | ⟨-, rfl⟩ <;>
    obtain ⟨p, hp, hpt⟩ := exists_of_map_ok hpayload
  · cases hpt
    exact hp
  all_goals cases hpt

/-- A sample that comes from a decoder. -/
def Decoded (hdr : Header) (t : Telemetry) : Prop :=
  ∃ data frame, decode data = .ok frame ∧ frame.header = hdr ∧ frame.payload = .known (.telemetry t)

/-- What a decoder returns fits the fields of the frame. -/
theorem Decoded.lt {hdr : Header} {t : Telemetry} (h : Decoded hdr t) :
    hdr.seq < 256 ^ 4 ∧ hdr.tsMs < 256 ^ 8 ∧ t.faultFlags < 256 ^ 4 ∧ t.state < 256 ^ 1 := by
  obtain ⟨data, frame, hdecode, rfl, hpayload⟩ := h
  rw [decode] at hdecode
  rcases hunpack : Header.unpack data with _ | hdr
  · rw [hunpack] at hdecode
    cases hdecode
  rw [hunpack] at hdecode
  dsimp only at hdecode
  split at hdecode
  · cases hdecode
  split at hdecode
  · cases hdecode
  obtain ⟨body, hbody, rfl⟩ := exists_of_map_ok hdecode
  obtain rfl : body = .known (.telemetry t) := hpayload
  exact ⟨(header_lt hunpack).1, (header_lt hunpack).2, telemetry_lt (telemetry_of_body hbody)⟩

section Sample

variable [PyText F] (dev : String) (hdr : Header) (t : Telemetry) (now loss : F)

theorem keys_sample : (Ingest.sample dev hdr t now loss).map Prod.fst =
    ["rpm", "temp_c", "current_a", "voltage_v", "vibration_g", "speed_kph", "lat", "lon",
     "fault_flags", "state", "state_name", "faults", "device_id", "ts", "ts_iso", "device_ts_ms",
     "seq", "fw_version", "loss_pct"] := by
  rfl

/-- The dictionary that `handle_telemetry` makes of a decoded frame. -/
theorem sampled_sample : Sampled (Ingest.sample dev hdr t now loss) where
  fields key h := by
    obtain ⟨v, hv⟩ := Option.isSome_iff_exists.mp h
    have hmem : key ∈ (Ingest.sample dev hdr t now loss).map Prod.fst :=
      List.mem_map_of_mem (Dict.get?_mem (.of_lawful key) hv)
    rw [keys_sample] at hmem
    have hall : ∀ key ∈ ["rpm", "temp_c", "current_a", "voltage_v", "vibration_g", "speed_kph",
        "lat", "lon", "fault_flags", "state", "state_name", "faults", "device_id", "ts", "ts_iso",
        "device_ts_ms", "seq", "fw_version", "loss_pct"], key ∈ SAMPLE_FIELDS := by decide
    exact hall key hmem
  numeric key h := by
    simp only [NUMERIC_FIELDS, List.mem_cons, List.not_mem_nil, or_false] at h
    rcases h with
        rfl | rfl | rfl | rfl | rfl | rfl | rfl | rfl | rfl | rfl | rfl | rfl | rfl | rfl <;>
      rfl
  flags := ⟨t.faultFlags, rfl⟩

variable {hdr t}

/-- What is decoded is in the range of a float. -/
theorem inRange_sample [IeeeFloat F] (h : Decoded hdr t) :
    InRange (Ingest.sample dev hdr t now loss) := by
  obtain ⟨hseq, htsMs, hflags, hstate⟩ := h.lt
  intro key hkey v hget
  simp only [NUMERIC_FIELDS, List.mem_cons, List.not_mem_nil, or_false] at hkey
  rcases hkey with
      rfl | rfl | rfl | rfl | rfl | rfl | rfl | rfl | rfl | rfl | rfl | rfl | rfl | rfl <;>
    cases hget
  -- the floats of the payload, the time and the loss
  any_goals exact ⟨_, rfl⟩
  all_goals exact floats_int (by omega)

end Sample
end EcuTelemetry.Backend
