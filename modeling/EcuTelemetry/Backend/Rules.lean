/-
  EcuTelemetry.Backend.Rules

  The rule document of backend/app/anomaly.py: `DEFAULT_RULES`, `_merge`,
  the device configuration rules refer to, and `_resolve_value`, which reads
  a threshold such as `"temp_limit_c+15"`.
-/

import EcuTelemetry.Backend.Database

namespace EcuTelemetry.Backend

variable {F : Type} [PyFloat F]

/-- A float literal of the rule document. -/
def lit (q : ℚ) : Json F := .float (PyFloat.ofRat q)

def defaultThresholds : List (Json F) :=
  [.obj [("name", .str "temp_high"), ("metric", .str "temp_c"), ("op", .str ">"),
         ("value", .str "temp_limit_c"), ("severity", .str "warn")],
   .obj [("name", .str "temp_critical"), ("metric", .str "temp_c"), ("op", .str ">"),
         ("value", .str "temp_limit_c+15"), ("severity", .str "critical")],
   .obj [("name", .str "current_high"), ("metric", .str "current_a"), ("op", .str ">"),
         ("value", .str "current_limit_a"), ("severity", .str "warn")],
   .obj [("name", .str "rpm_high"), ("metric", .str "rpm"), ("op", .str ">"),
         ("value", .str "rpm_limit"), ("severity", .str "warn")],
   .obj [("name", .str "voltage_low"), ("metric", .str "voltage_v"), ("op", .str "<"),
         ("value", lit 80.0), ("severity", .str "warn"),
         ("overrides", .arr [.obj [("hw_model", .str "ORIN-NANO"), ("value", lit 4.5)]])],
   .obj [("name", .str "vibration_high"), ("metric", .str "vibration_g"), ("op", .str ">"),
         ("value", lit 2.5), ("severity", .str "warn")]]

def defaultAnomaly : Dict String (Json F) :=
  [("enabled", .bool true), ("z", lit 4.0), ("sustain", .int 3), ("sustain_s", lit 3.0),
   ("alpha", lit 0.05), ("warmup", .int 20), ("min_std", lit 0.05),
   ("metrics", .arr [.str "temp_c", .str "current_a", .str "voltage_v", .str "vibration_g"]),
   ("gate", .obj [("metric", .str "rpm"), ("frac", lit 0.10), ("abs", lit 100.0),
                  ("applies_to", .arr [.str "current_a", .str "voltage_v", .str "vibration_g"])]),
   ("severity", .str "warn")]

def DEFAULT_RULES : Dict String (Json F) :=
  [("resolve_after_s", .int 10),
   ("thresholds", .arr defaultThresholds),
   ("comm", .obj [("loss_pct", lit 10.0), ("severity", .str "warn")]),
   ("offline", .obj [("enabled", .bool true), ("severity", .str "critical")]),
   ("fault_flags", .obj
      [("enabled", .bool true),
       ("severity", .obj
          [("OVERTEMP", .str "critical"), ("OVERCURRENT", .str "critical"),
           ("UNDERVOLTAGE", .str "warn"), ("VIBRATION_HIGH", .str "warn"),
           ("SENSOR_STUCK", .str "warn"), ("GPS_LOST", .str "info"),
           ("COMM_DEGRADED", .str "warn"), ("ENCODER_FAULT", .str "critical")])]),
   ("rate", .obj [("temp_c", .obj [("max_per_s", lit 2.0), ("window_s", lit 5.0),
                                   ("severity", .str "warn")])]),
   ("anomaly", .obj defaultAnomaly)]

/-- One round of the loop in `_merge`. -/
def mergeKey (r : Dict String (Json F)) (kv : String × Json F) : Dict String (Json F) :=
  match kv.2, Dict.get? r kv.1 with
  | .obj v, some (.obj old) =>
    if kv.1 = "rate" then Dict.set r kv.1 kv.2
    else Dict.set r kv.1 (.obj (Dict.update old v))
  | v, _ => Dict.set r kv.1 v

/-- `_merge`. -/
def mergeRules (overrides : Dict String (Json F)) : Dict String (Json F) :=
  overrides.foldl mergeKey DEFAULT_RULES

/-! ## Device configuration -/

/-- `DEFAULT_CONFIG`. -/
def DEFAULT_CONFIG : Dict String (Json F) :=
  [("telemetry_hz", .int 10), ("log_level", .int 1), ("rpm_limit", lit 6000.0),
   ("temp_limit_c", lit 90.0), ("current_limit_a", lit 120.0)]

/-- The value of a REAL column. -/
def realColumn : Option F64 → Json F
  | some x => .float (PyFloat.ofF64 x)
  | none => .null

/-- `{k: row[k] for k in DEFAULT_CONFIG}`. -/
def ConfigRow.asConfig (row : ConfigRow F) : Dict String (Json F) :=
  [("telemetry_hz", .int row.telemetryHz), ("log_level", .int row.logLevel),
   ("rpm_limit", realColumn row.rpmLimit), ("temp_limit_c", realColumn row.tempLimitC),
   ("current_limit_a", realColumn row.currentLimitA)]

/-- `s.rsplit(sep, 1)` for a string that contains `sep`. -/
def rsplit (sep : Char) (s : List Char) : List Char × List Char :=
  let r := s.reverse
  (((r.dropWhile (· ≠ sep)).drop 1).reverse, (r.takeWhile (· ≠ sep)).reverse)

/-- The key and the offset of a threshold spec; `none` where the number after
    the sign is not one. -/
def specParts (s : List Char) : Option (List Char × F) :=
  let parts (sep : Char) (sign : ℚ) : Option (List Char × F) :=
    let (key, num) := rsplit sep s
    match PyFloat.parse (String.ofList num) with
    | .ok off => some (key, PyFloat.mul off (PyFloat.ofRat sign))
    | .error _ => none
  if '+' ∈ s.drop 1 then parts '+' 1
  else if '-' ∈ s.drop 1 then parts '-' (-1)
  else some (s, PyFloat.ofRat 0)

/-- `_resolve_value`.  The `str(..)` of a list or a dictionary ends with a
    bracket: it is no number after a sign, and no key of the configuration.  Nor is a
    text with a lone surrogate, wherever a sign cuts it. -/
def resolveValue (spec : Json F) (cfg : Dict String (Json F)) : Except PyError (Option F) :=
  match spec with
  | .str s =>
    match (specParts (s.toList.filter (· ≠ ' ')) : Option (List Char × F)) with
    | none => .ok none
    | some (key, off) =>
      match Dict.get? cfg (String.ofList key) with
      | none => .ok none
      | some .null => .ok none
      | some base => base.toFloat.map fun b => some (PyFloat.add b off)
  | .null => .ok none
  | .lone _ => .ok none
  | .arr _ => .ok none
  | .obj _ => .ok none
  | v => v.toFloat.map some

end EcuTelemetry.Backend
