/-
  EcuTelemetry.Backend.Anomaly

  The rule engine `AnomalyEngine` of backend/app/anomaly.py, statement by
  statement: alerts are opened by `mark`, closed by `resolve`; `tick` resolves
  what has been clear for the hold time; `onTelemetry` evaluates the rules on
  one sample.

  The caller's `now or time.time()` is the argument `now`, a reading of the
  clock by the database the argument `clock`.  What an alert publishes on the bus
  is left out.

  `observed`, `samples` and `born` are history variables that no code reads:
  every evaluation of a rule's condition, newest first, under the number of
  the input it was made on, and the number of inputs before the last restart.
-/

import Mathlib
import EcuTelemetry.Backend.Rules

namespace EcuTelemetry.Backend

/-! ## State -/

structure Ewma (F : Type) where
  mean : F
  var : F
  n : Nat
  streak : Nat
  since : Option F

structure DeviceState (F : Type) where
  rateHist : Dict String (List (F × F)) := []
  ewma : Dict String (Ewma F) := []
  /-- rule -> last time the condition was observed true -/
  active : Dict (Json F) F := []

/-- A rule's condition was evaluated for a device. -/
structure Observation (F : Type) where
  sample : Nat
  deviceId : String
  rule : Json F
  cond : Bool
  time : F

/-- The engine with the database it works on. -/
structure Engine (F : Type) where
  db : Database F
  rules : Dict String (Json F)
  devices : Dict String (DeviceState F) := []
  configCache : Dict String (Dict String (Json F)) := []
  hwCache : Dict String String := []
  observed : List (Observation F) := []
  samples : Nat := 0
  born : Nat := 0

abbrev EngineM (F : Type) := Proc PyError (Engine F)

namespace Engine

variable {F : Type} [PyFloat F] [PyText F]

/-- `AnomalyEngine(db)`: the rules are the stored ones over the defaults. -/
def init (db : Database F) : Engine F :=
  { db := db, rules := mergeRules (db.rules.getD []) }

/-- `set_rules`. -/
def setRules (rules : Dict String (Json F)) : EngineM F Unit :=
  Proc.modify fun s =>
    { s with rules := mergeRules rules, db := { s.db with rules := some (mergeRules rules) } }

/-- `config_for`. -/
def configFor (dev : String) : EngineM F (Dict String (Json F)) := fun s =>
  match Dict.get? s.configCache dev with
  | some cfg => (.ok cfg, s)
  | none =>
    let cfg := ((s.db.currentConfig dev).map ConfigRow.asConfig).getD DEFAULT_CONFIG
    (.ok cfg, { s with configCache := Dict.set s.configCache dev cfg })

/-- `invalidate_config`. -/
def invalidateConfig (dev : String) : EngineM F Unit :=
  Proc.modify fun s =>
    { s with configCache := Dict.pop s.configCache dev, hwCache := Dict.pop s.hwCache dev }

/-- `_hw_for`. -/
def hwFor (dev : String) : EngineM F String := fun s =>
  match Dict.get? s.hwCache dev with
  | some hw => (.ok hw, s)
  | none =>
    let hw := ((s.db.getDevice dev).bind DeviceRow.hwModel).getD ""
    (.ok hw, { s with hwCache := Dict.set s.hwCache dev hw })

/-- Does an override apply to the device, by its id or by its hardware model? -/
def overrideApplies (dev : String) (o : Dict String (Json F)) : EngineM F Bool :=
  if (Dict.get? o "device_id").any (· == .str dev) then pure true
  else
    match Dict.get? o "hw_model" with
    | some m =>
      if m.truthy then do
        let hw ← hwFor dev
        return m == .str hw
      else pure false
    | none => pure false

/-- The override that matches, or the rule's own spec. -/
def matchOverride (dev : String) (spec severity : Json F) :
    List (Json F) → EngineM F (Json F × Json F)
  | [] => pure (spec, severity)
  | .obj o :: os => do
    let hit ← overrideApplies dev o
    if hit then
      return ((Dict.get? o "value").getD spec, (Dict.get? o "severity").getD severity)
    else matchOverride dev spec severity os
  | _ :: os => matchOverride dev spec severity os

/-- `_threshold_spec`. -/
def thresholdSpec (rule : Json F) (dev : String) : EngineM F (Json F × Json F) := do
  let spec ← Proc.ofExcept (rule.getD "value" .null)
  let severity ← Proc.ofExcept (rule.getD "severity" (.str "warn"))
  let overrides ← Proc.ofExcept (rule.get "overrides")
  let os ← Proc.ofExcept (Json.orElse overrides (.arr [])).iter
  matchOverride dev spec severity os

/-! ## Alert lifecycle -/

/-- `_st`. -/
def st (dev : String) : EngineM F (DeviceState F) := fun s =>
  match Dict.get? s.devices dev with
  | some d => (.ok d, s)
  | none => (.ok {}, { s with devices := Dict.set s.devices dev {} })

/-- Change the state of a device. -/
def modifySt (dev : String) (f : DeviceState F → DeviceState F) : EngineM F Unit := do
  let d ← st dev
  Proc.modify fun s => { s with devices := Dict.set s.devices dev (f d) }

/-- Record an evaluation in the history variable. -/
def observe (dev : String) (rule : Json F) (cond : Bool) (now : F) : EngineM F Unit :=
  Proc.modify fun s =>
    { s with
      observed := { sample := s.samples, deviceId := dev, rule := rule, cond := cond,
                    time := now } :: s.observed }

/-- `if not self.db.open_alert(..): self.db.create_alert(..)`.  SQLite takes the
    parameters in their order, and refuses a text that UTF-8 cannot encode. -/
def openIfNone (dev : String) (rule metric : Option String) (value : Option F)
    (severity message : Json F) (clock : F) : EngineM F Unit := do
  let s ← Proc.get
  if (s.db.openAlert dev rule).isNone then
    let sev ← Proc.ofExcept severity.sqlText
    let msg ← Proc.ofExcept message.sqlText
    Proc.modify fun s =>
      { s with db := s.db.createAlert dev rule metric value sev msg clock }

/-- `_mark`. -/
def mark (dev : String) (rule : Json F) (cond : Bool) (now : F) (metric : Option String)
    (value : Option F) (severity message : Json F) (clock : F) : EngineM F Unit := do
  let _ ← st dev
  observe dev rule cond now
  if cond then
    if rule.hashable then
      modifySt dev fun d => { d with active := Dict.set d.active rule now }
      let r ← Proc.ofExcept rule.sqlText
      openIfNone dev r metric value severity message clock
    else Proc.raise .typeError

/-- `resolve`. -/
def resolve (dev : String) (rule : Json F) (now clock : F) : EngineM F Unit := do
  let r ← Proc.ofExcept rule.sqlText
  let s ← Proc.get
  modifySt dev fun d => { d with active := Dict.pop d.active rule }
  match s.db.openAlert dev r with
  | none => pure ()
  | some a =>
    Proc.modify fun s =>
      { s with
        db := s.db.updateAlert a.id clock fun a =>
          { a with status := .resolved, resolvedAt := some now } }

/-- `float(self.rules.get("resolve_after_s", 10))`. -/
def hold (s : Engine F) : Except PyError F :=
  ((Dict.get? s.rules "resolve_after_s").getD (.int 10)).toFloat

/-- The first loop of `tick`, for one device. -/
def tickActive (now clock h : F) (dev : String) (active : Dict (Json F) F) : EngineM F Unit :=
  Proc.forEach active fun e =>
    if e.1 == .str "offline" then pure ()
    else if PyFloat.le h (PyFloat.sub now e.2) then resolve dev e.1 now clock
    else pure ()

/-- `a["updated_at"] or a["opened_at"]`. -/
def stamp (a : AlertRow F) : F :=
  if PyFloat.eqInt a.updatedAt 0 then a.openedAt else a.updatedAt

/-- `st is not None and rule in st.active`. -/
def inMemory (s : Engine F) (dev : String) (rule : Json F) : Bool :=
  match Dict.get? s.devices dev with
  | some d => Dict.contains d.active rule
  | none => false

/-- The second loop of `tick`, for one alert of the database. -/
def tickSweep (now clock h : F) (a : AlertRow F) : EngineM F Unit := do
  let s ← Proc.get
  let rule := (a.rule.map Json.str).getD .null
  if a.rule = some "offline" then pure ()
  else if s.inMemory a.deviceId rule then pure ()
  else if PyFloat.le h (PyFloat.sub now (stamp a)) then resolve a.deviceId rule now clock
  else pure ()

/-- `tick`. -/
def tick (now clock : F) : EngineM F Unit := do
  let s ← Proc.get
  let h ← Proc.ofExcept s.hold
  Proc.forEach s.devices fun e => do
    let d ← st e.1
    tickActive now clock h e.1 d.active
  let s ← Proc.get
  Proc.forEach (s.db.openAlerts 1000) (tickSweep now clock h)

/-! ## Inputs -/

/-- `on_offline`. -/
def onOffline (dev : String) (now clock : F) : EngineM F Unit := do
  let s ← Proc.get
  let r := (Dict.get? s.rules "offline").getD (.obj [])
  let enabled ← Proc.ofExcept (r.getD "enabled" (.bool true))
  if enabled.truthy then
    let severity ← Proc.ofExcept (r.getD "severity" (.str "critical"))
    mark dev (.str "offline") true now none none severity
      (.str "no HEARTBEAT/TELEMETRY for 15 s") clock

/-- `on_online`. -/
def onOnline (dev : String) (now clock : F) : EngineM F Unit := do
  let s ← Proc.get
  if (s.db.openAlert dev (some "offline")).isSome then resolve dev (.str "offline") now clock

/-- `f"packet loss {loss_pct:.1f}% > {thr}%"`. -/
def commMessage (lossPct : F) (thr : Json F) : Json F :=
  .formatted ("packet loss " ++ PyFloat.fixed lossPct 1 ++ "% > ") thr "%"

/-- `on_comm`. -/
def onComm (dev : String) (lossPct : F) (now clock : F) : EngineM F Unit := do
  let s ← Proc.get
  let r := (Dict.get? s.rules "comm").getD (.obj [])
  match ← Proc.ofExcept (r.getD "loss_pct" .null) with
  | .null => pure ()
  | thr =>
    let limit ← Proc.ofExcept thr.toFloat
    let severity ← Proc.ofExcept (r.getD "severity" (.str "warn"))
    mark dev (.str "packet_loss") (PyFloat.lt limit lossPct) now (some "loss_pct") (some lossPct)
      severity (commMessage lossPct thr) clock

/-- `f"{metric}={x:.2f} {op} {thr:.2f}"`. -/
def thresholdMessage (metric : String) (x : F) (op : Json F) (thr : F) : Json F :=
  .formatted (metric ++ "=" ++ PyFloat.fixed x 2 ++ " ") op (" " ++ PyFloat.fixed thr 2)

/-- One threshold rule. -/
def onThreshold (dev : String) (t cfg : Dict String (Json F)) (now clock : F) (rule : Json F) :
    EngineM F (List (Json F)) := do
  let metric ← Proc.ofExcept (rule.getD "metric" .null)
  match ← Proc.ofExcept (metric.lookupIn t) with
  -- a sample without the metric, and below a limit that is not set
  | none => return []
  | some v =>
    let (spec, severity) ← thresholdSpec rule dev
    match ← Proc.ofExcept (resolveValue spec cfg) with
    | none => return []
    | some thr =>
      let x ← Proc.ofExcept v.toFloat
      let op ← Proc.ofExcept (rule.getD "op" (.str ">"))
      let cond := match op with
        | .str ">" => PyFloat.lt thr x
        | .str "<" => PyFloat.lt x thr
        | .str ">=" => PyFloat.le thr x
        -- every other text is read as `<=`
        | _ => PyFloat.le x thr
      let given ← Proc.ofExcept (rule.get "name")
      let text := PyText.pyStr metric
      let name := Json.orElse given (.formatted (text ++ "_") op ("_" ++ PyFloat.repr thr))
      mark dev name cond now (some text) (some x) severity (thresholdMessage text x op thr) clock
      return if cond then [name] else []

/-- The flag rules. -/
def onFaultFlags (dev : String) (t : Dict String (Json F)) (now clock : F) :
    EngineM F (List (Json F)) := do
  let s ← Proc.get
  let ff := (Dict.get? s.rules "fault_flags").getD (.obj [])
  let enabled ← Proc.ofExcept (ff.getD "enabled" (.bool true))
  if enabled.truthy then
    let flags ← Proc.ofExcept ((Dict.get? t "fault_flags").getD (.int 0)).toInt
    let sev ← Proc.ofExcept (ff.getD "severity" (.obj []))
    Proc.collect Protocol.FAULT_FLAGS fun f => do
      let rule := Json.str ("flag:" ++ f.1)
      -- two's complement: the flag bits are the low eight
      if (flags % 256).toNat &&& f.2 ≠ 0 then
        let severity := match sev with
          | .obj kvs => (Dict.get? kvs f.1).getD (.str "warn")
          | v => v.toStr
        let bit ← Proc.ofExcept (PyFloat.ofInt f.2)
        mark dev rule true now (some "fault_flags") (some bit) severity
          (.str ("device reports " ++ f.1)) clock
        return [rule]
      else
        observe dev rule false now
        return []
  else return []

/-- `while len(hist) > 1 and now - hist[0][0] > window * 2: hist.pop(0)`. -/
def trimHist (now window : F) : List (F × F) → List (F × F)
  | a :: b :: hist =>
    if PyFloat.lt (PyFloat.mul window (PyFloat.ofRat 2)) (PyFloat.sub now a.1) then
      trimHist now window (b :: hist)
    else a :: b :: hist
  | hist => hist

/-- `f"{metric} rising {rate:.2f}/s over {dt:.0f}s > {lim}/s"`. -/
def rateMessage (metric : String) (rate dt lim : F) : Json F :=
  .str (metric ++ " rising " ++ PyFloat.fixed rate 2 ++ "/s over " ++ PyFloat.fixed dt 0 ++
    "s > " ++ PyFloat.repr lim ++ "/s")

/-- One rate-of-change rule. -/
def onRate (dev : String) (t : Dict String (Json F)) (now clock : F) (rule : String × Json F) :
    EngineM F (List (Json F)) := do
  let (metric, spec) := rule
  match Dict.get? t metric with
  | none => return []
  | some v =>
    let x ← Proc.ofExcept v.toFloat
    let d ← st dev
    let hist := (Dict.get? d.rateHist metric).getD [] ++ [(now, x)]
    -- the sample is in the history before the window is read, which may raise
    modifySt dev fun d => { d with rateHist := Dict.set d.rateHist metric hist }
    let windowSpec ← Proc.ofExcept (spec.getD "window_s" (lit 5.0))
    let window ← Proc.ofExcept windowSpec.toFloat
    let hist := trimHist now window hist
    modifySt dev fun d => { d with rateHist := Dict.set d.rateHist metric hist }
    -- the oldest sample that is a window away
    match hist.find? fun e => PyFloat.le window (PyFloat.sub now e.1) with
    | none => return []
    | some ref =>
      let dt := PyFloat.sub now ref.1
      let rate ← Proc.ofExcept (PyFloat.div (PyFloat.sub x ref.2) dt)
      let limSpec ← Proc.ofExcept (spec.getD "max_per_s" (lit 2.0))
      let lim ← Proc.ofExcept limSpec.toFloat
      let cond := PyFloat.lt lim rate
      let name := Json.str ("rate:" ++ metric)
      let severity ← Proc.ofExcept (spec.getD "severity" (.str "warn"))
      mark dev name cond now (some metric) (some rate) severity (rateMessage metric rate dt lim)
        clock
      return if cond then [name] else []

/-! ## The EWMA anomaly rule -/

/-- `max(a, b)`: the first unless the second is greater. -/
def pyMax (a b : F) : F := if PyFloat.lt a b then b else a

/-- `x or now` for an optional float. -/
def orNow (x : Option F) (now : F) : F :=
  match x with
  | some v => if PyFloat.eqInt v 0 then now else v
  | none => now

/-- `Ewma()`. -/
def ewma0 : Ewma F := { mean := PyFloat.ofRat 0, var := PyFloat.ofRat 0, n := 0, streak := 0,
                        since := none }

/-- `Ewma.update`: the z-score against the old state, and the new state. -/
def ewmaUpdate (e : Ewma F) (x alpha : F) (learnVar : Bool) : Except PyError (F × Ewma F) :=
  if e.n = 0 then .ok (PyFloat.ofRat 0, { e with mean := x, var := PyFloat.ofRat 0, n := 1 })
  else do
    let std ← PyFloat.sqrt e.var
    -- against the average before this sample
    let z ← if PyFloat.lt (PyFloat.ofRat 0) std then
        PyFloat.div (PyFloat.abs (PyFloat.sub x e.mean)) std
      else pure (PyFloat.ofRat 0)
    let d := PyFloat.sub x e.mean
    let mean := PyFloat.add e.mean (PyFloat.mul alpha d)
    -- `learn_var=False` keeps what an anomalous sample would spoil
    let var := if learnVar then
        PyFloat.mul (PyFloat.sub (PyFloat.ofRat 1) alpha)
          (PyFloat.add e.var (PyFloat.mul (PyFloat.mul alpha d) d))
      else e.var
    return (z, { e with mean := mean, var := var, n := e.n + 1 })

/-- The numbers of the `anomaly` rule. -/
structure AnomalyParams (F : Type) where
  alpha : F
  zlim : F
  sustain : Int
  sustainS : F
  warmup : Int
  minStd : F

/-- `float(an.get(key, default))`. -/
def floatOf (v : Json F) (key : String) (default : Json F) : Except PyError F :=
  (v.getD key default).bind Json.toFloat

/-- `int(an.get(key, default))`. -/
def intOf (v : Json F) (key : String) (default : Json F) : Except PyError Int :=
  (v.getD key default).bind Json.toInt

def anomalyParams (an : Json F) : Except PyError (AnomalyParams F) := do
  let alpha ← floatOf an "alpha" (lit 0.05)
  let zlim ← floatOf an "z" (lit 4.0)
  let sustain ← intOf an "sustain" (.int 3)
  let sustainS ← floatOf an "sustain_s" (lit 0.0)
  let warmup ← intOf an "warmup" (.int 20)
  let minStd ← floatOf an "min_std" (lit 0.05)
  return { alpha, zlim, sustain, sustainS, warmup, minStd }

/-- `set(gate.get("applies_to") or [])`. -/
def gatedMetrics (gate : Json F) : Except PyError (List (Json F)) := do
  let appliesTo ← gate.get "applies_to"
  let xs ← (Json.orElse appliesTo (.arr [])).iter
  if xs.all Json.hashable then return xs else .error .typeError

/-- Is the gate metric away from its own recent mean? -/
def gateMoving (p : AnomalyParams F) (gate : Json F) (g : Ewma F) (gx : F) : Except PyError Bool :=
  if p.warmup ≤ g.n then do
    let frac ← floatOf gate "frac" (lit 0.1)
    let absLim ← floatOf gate "abs" (lit 0.0)
    return PyFloat.lt (pyMax (PyFloat.mul frac (PyFloat.abs g.mean)) absLim)
      (PyFloat.abs (PyFloat.sub gx g.mean))
  else .ok false

/-- The operating-point gate: does the operating point move? -/
def onGate (dev : String) (t : Dict String (Json F)) (p : AnomalyParams F) (gate : Json F) :
    EngineM F Bool := do
  let gm ← Proc.ofExcept (gate.getD "metric" .null)
  if gm.truthy then
    match ← Proc.ofExcept (gm.lookupIn t) with
    | none => return false
    | some v =>
      let key := "gate:" ++ PyText.pyStr gm
      let d ← st dev
      let g := (Dict.get? d.ewma key).getD ewma0
      -- as for a metric, stored before anything can raise
      modifySt dev fun d => { d with ewma := Dict.set d.ewma key g }
      let gx ← Proc.ofExcept v.toFloat
      let moving ← Proc.ofExcept (gateMoving p gate g gx)
      -- the gate follows at full speed, moving or not
      let g' ← Proc.ofExcept (ewmaUpdate g gx p.alpha true)
      modifySt dev fun d => { d with ewma := Dict.set d.ewma key g'.2 }
      return moving
  else return false

/-- The decision on one metric: whether the sample is anomalous, and the new
    average with its run of anomalous samples. -/
def judge (p : AnomalyParams F) (suppressed : Bool) (now x : F) (e : Ewma F) :
    Except PyError (Ewma F) := do
  let warm : Bool := p.warmup ≤ e.n
  let root ← PyFloat.sqrt e.var
  -- the floor holds from the end of the warm-up on
  let std := if warm then pyMax root p.minStd else root
  let z ← if warm && PyFloat.lt (PyFloat.ofRat 0) std then
      PyFloat.div (PyFloat.abs (PyFloat.sub x e.mean)) std
    else pure (PyFloat.ofRat 0)
  let hot := warm && PyFloat.lt p.zlim z && !suppressed
  let alpha := if hot then PyFloat.mul p.alpha (PyFloat.ofRat 0.1) else p.alpha
  -- an anomalous sample moves the mean slowly and leaves the variance
  let (_, e') ← ewmaUpdate e x alpha (!hot)
  return if hot then { e' with streak := e'.streak + 1, since := some (e'.since.getD now) }
    else { e' with streak := 0, since := none }

/-- The score that `judge` looks at, for the message; where `judge` returns there is one. -/
def zScore (p : AnomalyParams F) (x : F) (e : Ewma F) : F :=
  let warm : Bool := p.warmup ≤ e.n
  let score : Except PyError F := do
    let root ← PyFloat.sqrt e.var
    let std := if warm then pyMax root p.minStd else root
    if warm && PyFloat.lt (PyFloat.ofRat 0) std then
      PyFloat.div (PyFloat.abs (PyFloat.sub x e.mean)) std
    else pure (PyFloat.ofRat 0)
  score.toOption.getD (PyFloat.ofRat 0)

/-- `f"{metric}={x:.2f} deviates z={z:.1f} from EWMA {e.mean:.2f} for {..:.1f}s"`. -/
def anomalyMessage (metric : String) (x z mean lasted : F) : Json F :=
  .str (metric ++ "=" ++ PyFloat.fixed x 2 ++ " deviates z=" ++ PyFloat.fixed z 1 ++
    " from EWMA " ++ PyFloat.fixed mean 2 ++ " for " ++ PyFloat.fixed lasted 1 ++ "s")

/-- The anomaly rule on one metric. -/
def onAnomalyMetric (dev : String) (t : Dict String (Json F)) (now clock : F)
    (p : AnomalyParams F) (severity : Json F) (moving : Bool) (gated : List (Json F))
    (metric : Json F) : EngineM F (List (Json F)) := do
  match ← Proc.ofExcept (metric.lookupIn t) with
  | none => return []
  | some v =>
    let x ← Proc.ofExcept v.toFloat
    let key := PyText.pyStr metric
    let d ← st dev
    let e := (Dict.get? d.ewma key).getD ewma0
    -- `setdefault` stores the average even where the judgement raises
    modifySt dev fun d => { d with ewma := Dict.set d.ewma key e }
    let e' ← Proc.ofExcept (judge p (moving && gated.any (· == metric)) now x e)
    modifySt dev fun d => { d with ewma := Dict.set d.ewma key e' }
    -- a run that begins at time 0 has lasted nothing: 0 is false for `or`
    let lasted := PyFloat.sub now (orNow e'.since now)
    let cond := decide (p.sustain ≤ e'.streak) && PyFloat.le p.sustainS lasted
    let name := Json.str ("anomaly:" ++ key)
    mark dev name cond now (some key) (some x) severity
      (anomalyMessage key x (zScore p x e) e'.mean lasted) clock
    return if cond then [name] else []

/-- The EWMA z-score rule. -/
def onAnomaly (dev : String) (t : Dict String (Json F)) (now clock : F) :
    EngineM F (List (Json F)) := do
  let s ← Proc.get
  let an := (Dict.get? s.rules "anomaly").getD (.obj [])
  let enabled ← Proc.ofExcept (an.getD "enabled" (.bool true))
  if enabled.truthy then
    let p ← Proc.ofExcept (anomalyParams an)
    let gateSpec ← Proc.ofExcept (an.get "gate")
    let gate := Json.orElse gateSpec (.obj [])
    let gated ← Proc.ofExcept (gatedMetrics gate)
    -- the gate is judged once for all metrics
    let moving ← onGate dev t p gate
    let metricSpec ← Proc.ofExcept (an.getD "metrics" (.arr []))
    let metrics ← Proc.ofExcept metricSpec.iter
    let severity ← Proc.ofExcept (an.getD "severity" (.str "warn"))
    Proc.collect metrics (onAnomalyMetric dev t now clock p severity moving gated)
  else return []

/-- The rate-of-change rules. -/
def onRates (dev : String) (t : Dict String (Json F)) (now clock : F) :
    EngineM F (List (Json F)) := do
  let s ← Proc.get
  match Json.orElse (Dict.get? s.rules "rate") (.obj []) with
  | .obj kvs => Proc.collect kvs (onRate dev t now clock)
  | _ => Proc.raise .attributeError

/-- The threshold rules. -/
def onThresholds (dev : String) (t cfg : Dict String (Json F)) (now clock : F) :
    EngineM F (List (Json F)) := do
  let s ← Proc.get
  let thresholds ← Proc.ofExcept ((Dict.get? s.rules "thresholds").getD (.arr [])).iter
  Proc.collect thresholds (onThreshold dev t cfg now clock)

/-- `if loss_pct is not None: self.on_comm(..)`. -/
def onLoss (dev : String) (lossPct : Option F) (now clock : F) : EngineM F Unit :=
  match lossPct with
  | some loss => onComm dev loss now clock
  | none => pure ()

/-- `on_telemetry`: the names of the rules that are true on this sample. -/
def onTelemetry (dev : String) (t : Dict String (Json F)) (now clock : F)
    (lossPct : Option F) : EngineM F (List (Json F)) := do
  let _ ← st dev
  let cfg ← configFor dev
  let byThreshold ← onThresholds dev t cfg now clock
  let byFlag ← onFaultFlags dev t now clock
  let byRate ← onRates dev t now clock
  let byAnomaly ← onAnomaly dev t now clock
  onLoss dev lossPct now clock
  return byThreshold ++ byFlag ++ byRate ++ byAnomaly

end Engine

end EcuTelemetry.Backend
