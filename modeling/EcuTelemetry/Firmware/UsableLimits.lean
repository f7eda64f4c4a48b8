/-
  EcuTelemetry.Firmware.UsableLimits

  The limits in force.  The start-up text and CONFIG_SET are checked by two
  validators; the one of the text lets infinities and NaNs through.  Of a text
  without them, the limits in force are usable over every run.
-/

import EcuTelemetry.Firmware.ConfigInForce
import EcuTelemetry.Firmware.ConfigText
import EcuTelemetry.Firmware.Thresholds

namespace EcuTelemetry.Firmware

open Printf Proc

/-! ## The two validators -/

inductive LimitKey
  | rpm
  | temp
  | current
deriving DecidableEq, Repr

namespace LimitKey

def all : List LimitKey := [rpm, temp, current]

theorem mem_all (k : LimitKey) : k ∈ all := by cases k <;> simp [all]

def name : LimitKey → List Byte
  | rpm => str "rpm_limit"
  | temp => str "temp_limit_c"
  | current => str "current_limit_a"

/-- The check of `parseConfigText`. -/
def parserTakes : LimitKey → F32 → Bool
  | rpm, f => !nonPositive f
  | temp, _ => true
  | current, f => !nonPositive f

/-- The check of `handleConfigSet`. -/
def validatorTakes : LimitKey → F32 → Bool
  | rpm, f => f.isFinite && F32.zero.lt f
  | temp, f => f.isFinite
  | current, f => f.isFinite && F32.zero.lt f

end LimitKey

def Limits.get (l : Limits) : LimitKey → F32
  | .rpm => l.rpmLimit
  | .temp => l.tempLimitC
  | .current => l.currentLimitA

/-- Of a finite value both say the same. -/
theorem parserTakes_of_isFinite (k : LimitKey) {f : F32} (h : f.isFinite = true) :
    k.parserTakes f = k.validatorTakes f := by
  have hnan := F32.isNaN_of_isFinite h
  have hpositive : (!nonPositive f) = F32.zero.lt f := by
    have hzeroNaN : F32.zero.isNaN = false := by decide
    rw [nonPositive, F32.lt, hnan, hzeroNaN, F32.zero_signedMag]
    by_cases hle : f.signedMag ≤ 0
    · simp [hle, not_lt.mpr hle]
    · simp [hle, not_le.mp hle]
  cases k with
  | temp => exact h.symm
  | rpm => rw [LimitKey.parserTakes, LimitKey.validatorTakes, h, hpositive, Bool.true_and]
  | current => rw [LimitKey.parserTakes, LimitKey.validatorTakes, h, hpositive, Bool.true_and]

theorem validatorTakes_isFinite {k : LimitKey} {f : F32} (h : k.validatorTakes f = true) :
    f.isFinite = true := by
  cases k with
  | temp => exact h
  | rpm => exact (Bool.and_eq_true_iff.mp h).1
  | current => exact (Bool.and_eq_true_iff.mp h).1

/-- CONFIG_SET takes nothing that the parser refuses. -/
theorem parserTakes_of_validatorTakes {k : LimitKey} {f : F32} (h : k.validatorTakes f = true) :
    k.parserTakes f = true := by
  rw [parserTakes_of_isFinite k (validatorTakes_isFinite h), h]

/-- On a value that the parser takes they agree if and only if it is finite. -/
theorem validators_agree_iff {k : LimitKey} {f : F32} (h : k.parserTakes f = true) :
    k.parserTakes f = k.validatorTakes f ↔ f.isFinite = true := by
  constructor
  · intro heq
    exact validatorTakes_isFinite (heq ▸ h)
  · exact fun hfinite => parserTakes_of_isFinite k hfinite

/-- The backend takes every limit that the firmware accepts. -/
theorem acceptable_validatorTakes {cs : ConfigSet} (h : cs.acceptable = true) (k : LimitKey) :
    k.validatorTakes (cs.config.limits.get k) = true := by
  simp only [ConfigSet.acceptable, Bool.and_eq_true] at h
  obtain ⟨⟨⟨⟨⟨⟨⟨-, -⟩, -⟩, hrpm⟩, hrpmPos⟩, htemp⟩, hcurrent⟩, hcurrentPos⟩ := h
  cases k with
  | rpm => exact Bool.and_eq_true_iff.mpr ⟨hrpm, hrpmPos⟩
  | temp => exact htemp
  | current => exact Bool.and_eq_true_iff.mpr ⟨hcurrent, hcurrentPos⟩

/-! ## What is usable -/

/-- A finite reading is above the limit: the comparison of the threshold checks
    of the plant and of the real sensors. -/
def CanFire (limit : F32) : Prop :=
  ∃ reading : F32, reading.isFinite = true ∧ limit.lt reading = true

/-- Both validators take the limits, and every check can fire. -/
structure Limits.Usable (l : Limits) : Prop where
  finite : ∀ k, (l.get k).isFinite = true
  rpmPositive : F32.zero.lt l.rpmLimit = true
  currentPositive : F32.zero.lt l.currentLimitA = true
  validators : ∀ k : LimitKey, k.parserTakes (l.get k) = true ∧ k.validatorTakes (l.get k) = true
  canFire : ∀ k, CanFire (l.get k)

/-- The configuration and the limits of the threshold checks. -/
structure Running.Usable (r : Running) : Prop where
  limits : r.limits.Usable
  cfgLimits : r.cfg.limits.Usable
  hz : 1 ≤ r.cfg.hz ∧ r.cfg.hz ≤ 1000
  logLevel : r.cfg.logLevel.code ≤ 3 ∧ r.logLevel.code ≤ 3

theorem LogLevel.code_le (l : LogLevel) : l.code ≤ 3 := by cases l <;> decide

/-- Limits that the parser takes are usable if and only if they are finite and not
    the largest float. -/
theorem Limits.usable_iff {l : Limits} (h : ∀ k : LimitKey, k.parserTakes (l.get k) = true) :
    l.Usable ↔ ∀ k, (l.get k).isFinite = true ∧ l.get k ≠ F32.FLT_MAX := by
  constructor
  · exact fun hu k => ⟨hu.finite k, (F32.exists_above_iff (hu.finite k)).mp (hu.canFire k)⟩
  · intro hk
    have hvalid : ∀ k : LimitKey, k.validatorTakes (l.get k) = true := fun k => by
      rw [← parserTakes_of_isFinite k (hk k).1, h k]
    exact {
      finite := fun k => (hk k).1
      rpmPositive := (Bool.and_eq_true_iff.mp (hvalid .rpm)).2
      currentPositive := (Bool.and_eq_true_iff.mp (hvalid .current)).2
      validators := fun k => ⟨h k, hvalid k⟩
      canFire := fun k => (F32.exists_above_iff (hk k).1).mpr (hk k).2 }

/-! ## The limits of a text -/

/-- The value of a line that sets the limit. -/
def LimitKey.value (k : LimitKey) (line : List Byte) : Option F32 :=
  if 0x3D ∈ cleanLine line ∧ (splitKey (cleanLine line)).1 = k.name then
    toFloat (splitKey (cleanLine line)).2
  else none

/-- The values that the lines of a text give the limit, from the first on. -/
def LimitKey.values (k : LimitKey) (text : List Byte) : List F32 :=
  (getLines text).filterMap k.value

/-- No limit is set to an infinity or to a NaN. -/
def FiniteLimits (text : List Byte) : Prop := ∀ k : LimitKey, ∀ f ∈ k.values text, f.isFinite = true

/-- No limit ends up at the largest float. -/
def BelowMax (text : List Byte) : Prop :=
  ∀ k : LimitKey, (k.values text).getLast? ≠ some F32.FLT_MAX

/-- The limit is set to `value`, if there is one and the parser takes it. -/
structure SetBy (value : Option F32) (k : LimitKey) (cfg cfg' : Config) : Prop where
  limit : cfg'.limits.get k = value.getD (cfg.limits.get k)
  taken : ∀ f ∈ value, k.parserTakes f = true

theorem setBy_none {k : LimitKey} {cfg cfg' : Config} (h : cfg'.limits.get k = cfg.limits.get k) :
    SetBy none k cfg cfg' := ⟨h, nofun⟩

theorem setBy_some {k : LimitKey} {f : F32} {cfg cfg' : Config} (h : cfg'.limits.get k = f)
    (htaken : k.parserTakes f = true) : SetBy (some f) k cfg cfg' :=
  ⟨h, fun _ hf => Option.mem_some_iff.mp hf ▸ htaken⟩

/-- One key: a limit is set to what the parser takes, the others are as before. -/
theorem set_limits {lineno : ℕ} {key val : List Byte} {cfg cfg' : Config}
    (h : cfg.set lineno key val = .ok cfg') (k : LimitKey) :
    SetBy (if key = k.name then toFloat val else none) k cfg cfg' := by
  -- a key that names no limit, on a configuration whose limits stay
  have hother : (∀ k : LimitKey, key ≠ k.name) → cfg'.limits = cfg.limits →
      SetBy (if key = k.name then toFloat val else none) k cfg cfg' := by
    intro hne hlimits
    rw [if_neg (hne k)]
    exact setBy_none (by rw [hlimits])
  -- the keys in the order of the source; a refused value is no configuration
  rw [Config.set] at h
  split at h
  -- telemetry_hz
  · next hkey =>
    split at h
    · cases h
    · cases h
      refine hother (fun k => ?_) rfl
      rw [hkey]
      cases k <;> decide
  split at h
  -- log_level
  · next hkey =>
    split at h
    · cases h
    · cases h
      refine hother (fun k => ?_) rfl
      rw [hkey]
      cases k <;> decide
  split at h
  · next hkey =>
    split at h
    · cases h
    · next f hf =>
      cases h
      obtain ⟨hval, hpos⟩ := Option.filter_eq_some_iff.mp hf
      rw [hkey, hval]
      cases k with
      | rpm => exact setBy_some rfl hpos
      | temp => exact setBy_none rfl
      | current => exact setBy_none rfl
  split at h
  · next hkey =>
    split at h
    · cases h
    · next f hval =>
      cases h
      rw [hkey, hval]
      cases k with
      | rpm => exact setBy_none rfl
      | temp => exact setBy_some rfl rfl
      | current => exact setBy_none rfl
  split at h
  · next hkey =>
    split at h
    · cases h
    · next f hf =>
      cases h
      obtain ⟨hval, hpos⟩ := Option.filter_eq_some_iff.mp hf
      rw [hkey, hval]
      cases k with
      | rpm => exact setBy_none rfl
      | temp => exact setBy_none rfl
      | current => exact setBy_some rfl hpos
  split at h
  · next hkey =>
    split at h
    · cases h
    · cases h
      refine hother (fun k => ?_) rfl
      rw [hkey]
      cases k <;> decide
  · cases h

/-- The rate stays in its range. -/
theorem set_hz {lineno : ℕ} {key val : List Byte} {cfg cfg' : Config}
    (h : cfg.set lineno key val = .ok cfg') (hhz : 1 ≤ cfg.hz ∧ cfg.hz ≤ 1000) :
    1 ≤ cfg'.hz ∧ cfg'.hz ≤ 1000 := by
  rw [Config.set] at h
  split at h
  · split at h
    · cases h
    · next l hl =>
      cases h
      have hrange := (Option.filter_eq_some_iff.mp hl).2
      simp only [Bool.not_eq_true', Bool.or_eq_false_iff, decide_eq_false_iff_not, not_lt] at hrange
      exact hrange
  · -- no other key sets it
    split_ifs at h
    all_goals
      split at h
      · cases h
      · cases h
        exact hhz

/-- A line sets the limits it names, and keeps the rate in range. -/
theorem parseLine_spec {lineno : ℕ} {line : List Byte} {cfg cfg' : Config}
    (h : parseLine lineno line cfg = .ok cfg') :
    (∀ k : LimitKey, SetBy (k.value line) k cfg cfg') ∧
      (1 ≤ cfg.hz ∧ cfg.hz ≤ 1000 → 1 ≤ cfg'.hz ∧ cfg'.hz ≤ 1000) := by
  simp only [parseLine] at h
  split at h
  · next hempty =>
    cases h
    refine ⟨fun k => ?_, id⟩
    rw [LimitKey.value, hempty, if_neg (fun h => List.not_mem_nil h.1)]
    exact setBy_none rfl
  · split at h
    · cases h
    · next hkey =>
      refine ⟨fun k => ?_, set_hz h⟩
      have hlimit := set_limits h k
      rw [LimitKey.value]
      -- the line names this limit, or another key
      by_cases hname : (splitKey (cleanLine line)).1 = k.name
      · rw [if_pos ⟨not_not.mp hkey, hname⟩]
        rwa [if_pos hname] at hlimit
      · rw [if_neg fun h => hname h.2]
        rwa [if_neg hname] at hlimit

/-- The last value of a text is in force; the parser took all of them. -/
theorem parseLines_spec {n : ℕ} {lines : List (List Byte)} {cfg cfg' : Config}
    (h : parseLines n lines cfg = .ok cfg') :
    (∀ k : LimitKey,
      cfg'.limits.get k = ((lines.filterMap k.value).getLast?).getD (cfg.limits.get k) ∧
      ∀ f ∈ lines.filterMap k.value, k.parserTakes f = true) ∧
      (1 ≤ cfg.hz ∧ cfg.hz ≤ 1000 → 1 ≤ cfg'.hz ∧ cfg'.hz ≤ 1000) := by
  induction lines generalizing n cfg with
  | nil =>
    cases h
    exact ⟨fun k => ⟨rfl, nofun⟩, id⟩
  | cons line lines ih =>
    rw [parseLines] at h
    rcases hline : parseLine (n + 1) line cfg with e | mid
    · rw [hline] at h
      cases h
    · rw [hline] at h
      obtain ⟨hfirst, hhz⟩ := parseLine_spec hline
      obtain ⟨hrest, hhz'⟩ := ih h
      refine ⟨fun k => ?_, fun hr => hhz' (hhz hr)⟩
      obtain ⟨hset, htaken⟩ := hfirst k
      obtain ⟨hlast, hall⟩ := hrest k
      -- a line without this limit leaves it, a line with it sets it
      rcases hvalue : k.value line with _ | f
      · rw [hvalue] at hset
        rw [List.filterMap_cons_none hvalue]
        exact ⟨hlast.trans (by rw [hset]; rfl), hall⟩
      · rw [hvalue] at hset htaken
        rw [List.filterMap_cons_some hvalue, List.getLast?_cons]
        exact ⟨hlast.trans (by rw [hset]; rfl), List.forall_mem_cons.mpr ⟨htaken f rfl, hall⟩⟩

/-! ## Start-up -/

/-- `--hz` is refused outside 1 to 1000. -/
theorem hzFlag_range {hz : Option (List Byte)} {flag : Option ℤ} (h : hz.mapM hzFlag = .ok flag) :
    ∀ l ∈ flag, 1 ≤ l ∧ l ≤ 1000 := by
  cases hz with
  | none =>
    cases h
    exact nofun
  | some val =>
    rcases hval : (toLong val).filter fun l => !(l < 1 || l > 1000) with _ | l
    · have herror : hzFlag val = .error (str "--hz must be 1..1000") := by rw [hzFlag, hval]
      rw [Option.mapM_some, herror] at h
      cases h
    · have hok : hzFlag val = .ok l := by rw [hzFlag, hval]
      rw [Option.mapM_some, hok] at h
      cases h
      have hrange := (Option.filter_eq_some_iff.mp hval).2
      simp only [Bool.not_eq_true', Bool.or_eq_false_iff, decide_eq_false_iff_not, not_lt] at hrange
      exact fun l' hl' => Option.mem_some_iff.mp hl' ▸ hrange

/-- The configuration that the agent starts with. -/
theorem startConfig_spec {text : List Byte} {hz logLevel : Option (List Byte)} {cfg : Config}
    (h : startConfig text hz logLevel = .ok cfg) :
    (∀ k : LimitKey, cfg.limits.get k = ((k.values text).getLast?).getD (Limits.get {} k) ∧
      ∀ f ∈ k.values text, k.parserTakes f = true) ∧ 1 ≤ cfg.hz ∧ cfg.hz ≤ 1000 := by
  rw [startConfig] at h
  rcases hhz : hz.mapM hzFlag with e | flag
  · rw [hhz] at h
    cases h
  rcases hlevel : logLevel.mapM logLevelFlag with e | level
  · rw [hhz, hlevel] at h
    cases h
  rcases hparse : parseConfigText text {} with e | parsed
  · rw [hhz, hlevel, hparse] at h
    cases h
  rw [hhz, hlevel, hparse] at h
  cases h
  obtain ⟨hlimits, hrange⟩ := parseLines_spec hparse
  refine ⟨hlimits, ?_⟩
  -- without `--hz` the rate of the file stands, else the flag
  cases flag with
  | none => exact hrange (by decide)
  | some l => exact hzFlag_range hhz l rfl

/-- The validators agree about every limit of the text. -/
def SameConstraints (text : List Byte) : Prop :=
  ∀ k : LimitKey, ∀ f ∈ k.values text, k.parserTakes f = k.validatorTakes f

theorem default_limits (k : LimitKey) : k.validatorTakes (Limits.get {} k) = true ∧
    Limits.get {} k ≠ F32.FLT_MAX := by
  cases k <;> decide

/-- With the rate in range, only the limits are in question. -/
theorem running_usable_iff {cfg : Config} (hhz : 1 ≤ cfg.hz ∧ cfg.hz ≤ 1000) :
    cfg.running.Usable ↔ cfg.limits.Usable := by
  have hclamp : clampHz cfg.hz = cfg.hz := by
    rw [clampHz]
    split_ifs <;> omega
  constructor
  · exact fun h => h.limits
  · intro h
    exact {
      limits := h
      cfgLimits := h
      hz := by
        show 1 ≤ clampHz cfg.hz ∧ clampHz cfg.hz ≤ 1000
        rwa [hclamp]
      logLevel := ⟨LogLevel.code_le _, LogLevel.code_le _⟩ }

/-- What the start-up text must be like: all its limits finite, and none left at the
    largest float. -/
theorem start_usable_iff {text : List Byte} {hz logLevel : Option (List Byte)} {cfg : Config}
    (h : startConfig text hz logLevel = .ok cfg) :
    SameConstraints text ∧ cfg.running.Usable ↔ FiniteLimits text ∧ BelowMax text := by
  obtain ⟨hlimits, hhz⟩ := startConfig_spec h
  -- the two validators differ on infinite values only
  have hsame : SameConstraints text ↔ FiniteLimits text := by
    refine forall_congr' fun k => forall_congr' fun f => forall_congr' fun hf => ?_
    exact validators_agree_iff ((hlimits k).2 f hf)
  have htaken : ∀ k : LimitKey, k.parserTakes (cfg.limits.get k) = true := by
    intro k
    obtain ⟨hk, hall⟩ := hlimits k
    rw [hk]
    cases hlast : (k.values text).getLast? with
    | none => exact parserTakes_of_validatorTakes (default_limits k).1
    | some f => exact hall f (List.mem_of_getLast? hlast)
  rw [hsame, running_usable_iff hhz, Limits.usable_iff htaken]
  -- what is in force is the last value of each limit, or its default
  refine and_congr_right fun hfinite => forall_congr' fun k => ?_
  rw [(hlimits k).1]
  cases hlast : (k.values text).getLast? with
  | none =>
    obtain ⟨hvalid, hne⟩ := default_limits k
    exact iff_of_true ⟨validatorTakes_isFinite hvalid, hne⟩ nofun
  | some f =>
    constructor
    · exact fun hf heq => hf.2 (Option.some.inj heq)
    · exact fun hne =>
        ⟨hfinite k f (List.mem_of_getLast? hlast), fun heq => hne (congrArg some heq)⟩

/-! ## Runs -/

theorem accepted_acceptable {f : Frame} {cs : ConfigSet} (h : f.accepted = some cs) :
    cs.acceptable = true := by
  rw [Frame.accepted] at h
  split at h
  · exact (Option.filter_eq_some_iff.mp h).2
  · cases h

/-- An acceptable CONFIG_SET has its rate in range. -/
theorem acceptable_hz {cs : ConfigSet} (h : cs.acceptable = true) :
    1 ≤ cs.config.hz ∧ cs.config.hz ≤ 1000 := by
  simp only [ConfigSet.acceptable, Bool.and_eq_true, decide_eq_true_eq] at h
  obtain ⟨⟨⟨⟨⟨⟨⟨hlow, hhigh⟩, -⟩, -⟩, -⟩, -⟩, -⟩, -⟩ := h
  have hlow : 1 ≤ cs.telemetryHz.toNat := UInt16.le_iff_toNat_le.mp hlow
  have hhigh : cs.telemetryHz.toNat ≤ 1000 := UInt16.le_iff_toNat_le.mp hhigh
  show (1 : ℤ) ≤ cs.telemetryHz.toNat ∧ (cs.telemetryHz.toNat : ℤ) ≤ 1000
  omega

theorem acceptable_usable {cs : ConfigSet} (h : cs.acceptable = true)
    (hne : ∀ k, cs.config.limits.get k ≠ F32.FLT_MAX) : cs.running.Usable := by
  have hvalid := acceptable_validatorTakes h
  have hlimits : cs.config.limits.Usable :=
    (Limits.usable_iff fun k => parserTakes_of_validatorTakes (hvalid k)).mpr fun k =>
      ⟨validatorTakes_isFinite (hvalid k), hne k⟩
  exact ⟨hlimits, hlimits, acceptable_hz h, LogLevel.code_le _, LogLevel.code_le _⟩

/-- The frame being handled has been received. -/
theorem handling_rx {es : List Seen} {f : Frame} (h : handling es = some f) :
    ∃ v, Seen.rx f v ∈ es := by
  induction es with
  | nil => cases h
  | cons e es ih =>
    cases e with
    | rx g v =>
      cases h
      exact ⟨v, List.mem_cons_self⟩
    | handled g r => cases h
    | _ =>
      obtain ⟨v, hv⟩ := ih h
      exact ⟨v, List.mem_cons_of_mem _ hv⟩

/-- The entry is no accepted CONFIG_SET with the largest float as a limit. -/
def Seen.belowMax : Seen → Bool
  | .rx f _ =>
    match f.accepted with
    | some cs => LimitKey.all.all fun k => cs.config.limits.get k ≠ F32.FLT_MAX
    | none => true
  | _ => true

/-- No accepted CONFIG_SET of the trace sets a limit to the largest float. -/
def SetsBelowMax (es : List Seen) : Prop :=
  ∀ f v cs, Seen.rx f v ∈ es → f.accepted = some cs →
    ∀ k, cs.config.limits.get k ≠ F32.FLT_MAX

instance (es : List Seen) : Decidable (SetsBelowMax es) :=
  decidable_of_iff (∀ e ∈ es, e.belowMax = true) (by
    constructor
    · intro h f v cs hmem hcs k
      have hmax := h _ hmem
      rw [Seen.belowMax, hcs] at hmax
      exact of_decide_eq_true (List.all_eq_true.mp hmax k k.mem_all)
    · intro h e hmem
      cases e with
      | rx f v =>
        rw [Seen.belowMax]
        cases hcs : f.accepted with
        | none => rfl
        | some cs => exact List.all_eq_true.mpr fun k _ => decide_eq_true (h f v cs hmem hcs k)
      | _ => rfl)

/-- Usable limits stay usable over CONFIG_SETs below FLT_MAX. -/
theorem runningAt_usable {r₀ : Running} (hr : r₀.Usable) {es : List Seen} (h : SetsBelowMax es) :
    (runningAt r₀ es).Usable := by
  induction es with
  | nil => exact hr
  | cons e es ih =>
    have hrest := ih fun f v cs hmem => h f v cs (List.mem_cons_of_mem _ hmem)
    cases e with
    | dispatch =>
      rw [runningAt]
      rcases hf : handling es with _ | f
      · exact hrest
      · rcases hcs : f.accepted with _ | cs
        · rw [Option.bind_some, hcs]
          exact hrest
        · obtain ⟨v, hv⟩ := handling_rx hf
          rw [Option.bind_some, hcs]
          exact acceptable_usable (accepted_acceptable hcs)
            (h f v cs (List.mem_cons_of_mem _ hv) hcs)
    | _ => exact hrest

/-- The limits of an accepted start-up text are usable, and the validators agree on
    them, if and only if they are finite and none is left at the largest float.  Then
    they are usable in every state of every run whose accepted CONFIG_SETs keep below
    the largest float too: at the top of the main loop and after every handled frame. -/
theorem limits_usable {text : List Byte} {hz logLevel : Option (List Byte)} {cfg : Config}
    (h : startConfig text hz logLevel = .ok cfg) :
    (SameConstraints text ∧ cfg.running.Usable ↔ FiniteLimits text ∧ BelowMax text) ∧
    (FiniteLimits text → BelowMax text →
      ∀ (opts : AgentOptions) (sensors : Option SysfsSensors) (world : World) (n : ℕ),
        let s := Agent.top opts cfg sensors world n
        SetsBelowMax s.trace →
          s.running.Usable ∧ ∀ f r, Seen.handled f r ∈ s.trace → r.Usable) := by
  refine ⟨start_usable_iff h, fun hfinite hmax opts sensors world n hsets => ?_⟩
  have hstart := ((start_usable_iff h).mpr ⟨hfinite, hmax⟩).2
  have hinv := (across_configInv cfg.running).top (configInv_start opts cfg sensors world) n
  have hrunning : (Agent.top opts cfg sensors world n).running =
      runningAt cfg.running (Agent.top opts cfg sensors world n).trace := hinv.view.1
  refine ⟨hrunning ▸ runningAt_usable hstart hsets, fun f r hmem => ?_⟩
  -- the state noted with a frame is that of the history up to it
  obtain ⟨es', es, htrace⟩ := List.append_of_mem hmem
  have hsuffix : Seen.handled f r :: es <:+ (Agent.top opts cfg sensors world n).trace :=
    ⟨es', htrace.symm⟩
  obtain ⟨hr, -, -⟩ := hinv.history _ _ hsuffix
  rw [hr]
  exact runningAt_usable hstart fun g v cs hg =>
    hsets g v cs (hsuffix.subset (List.mem_cons_of_mem _ hg))

/-- The rpm limit is 5000 at the start. -/
def slowConfig : Config := { hz := 25, limits := { rpmLimit := ⟨0x459C4000⟩ } }

/-- A CONFIG_SET with 5 Hz, level warn and an rpm limit of 4000. -/
def slowerSet : ConfigSet :=
  { configVersion := 2, telemetryHz := 5, logLevel := 2, rpmLimit := ⟨0x457A0000⟩
    tempLimitC := ⟨0x42BE0000⟩, currentLimitA := ⟨0x43160000⟩ }

/-- The backend sends it once the channel is up. -/
def configWorld : World :=
  { World.idle with
    connect := fun _ => .done, select := fun _ => .ready true false
    recv := fun n => if n = 0 then [.done (encodeFrame
      { msgType := MsgType.CONFIG_SET, deviceId := [0x45], seq := 0, tsMs := 0, fwVersion := 0 }
      slowerSet.encode)] else [] }

/-- The start-up text, and then the CONFIG_SET. -/
theorem limits_usable_configSet :
    SameConstraints (str "hz=25\nrpm_limit=5000\n") ∧ slowConfig.running.Usable ∧
      let s := Agent.top { deviceId := [0x45] } slowConfig none configWorld 2
      s.cfg.configVersion = 2 ∧ s.physics.limits.rpmLimit = ⟨0x457A0000⟩ ∧
        s.running.Usable ∧ ∀ f r, Seen.handled f r ∈ s.trace → r.Usable := by
  have hstart : startConfig (str "hz=25\nrpm_limit=5000\n") none none = .ok slowConfig := by
    decide +kernel
  have hfinite : FiniteLimits (str "hz=25\nrpm_limit=5000\n") := fun k => by
    cases k <;> decide +kernel
  have hmax : BelowMax (str "hz=25\nrpm_limit=5000\n") := fun k => by cases k <;> decide +kernel
  have hsets :
      SetsBelowMax (Agent.top { deviceId := [0x45] } slowConfig none configWorld 2).trace := by
    decide +kernel
  obtain ⟨hsame, husable⟩ := (limits_usable hstart).1.mpr ⟨hfinite, hmax⟩
  refine ⟨hsame, husable, by decide +kernel, by decide +kernel, ?_⟩
  exact (limits_usable hstart).2 hfinite hmax _ none configWorld 2 hsets

/-- The limits at the top of the main loop, before anything is received. -/
theorem top_limits (opts : AgentOptions) (cfg : Config) (sensors : Option SysfsSensors)
    (world : World) : (Agent.top opts cfg sensors world 0).physics.limits = cfg.limits := by
  have hinit := applyHz_sameChecks cfg.hz (.new opts cfg sensors world)
  have hstart : Keeps SameChecks start :=
    sends_sameChecks.within.start fun _ _ => .of rfl [] rfl rfl rfl rfl
  exact (hstart _).limits.trans hinit.limits

/-- `rpm_limit=inf` is taken, and from the start on no finite speed is above the limit. -/
theorem infinite_limit : ∃ cfg, startConfig (str "rpm_limit=inf\n") none none = .ok cfg ∧
    ∀ opts sensors world, let s := Agent.top opts cfg sensors world 0
      ¬ s.running.Usable ∧ ¬ CanFire s.physics.limits.rpmLimit := by
  refine ⟨{ limits := { rpmLimit := F32.inf false } }, by decide +kernel,
    fun opts sensors world => ?_⟩
  have hlimits := top_limits opts { limits := { rpmLimit := F32.inf false } } sensors world
  refine ⟨fun h => absurd (h.limits.finite .rpm) ?_, ?_⟩
  · show ¬ (Agent.physics _).limits.rpmLimit.isFinite = true
    rw [hlimits]
    decide
  · rintro ⟨reading, hfinite, habove⟩
    rw [hlimits] at habove
    obtain ⟨-, -, hlt⟩ := F32.lt_iff.mp habove
    have hle := F32.signedMag_le_max hfinite
    have hinf : F32.FLT_MAX.signedMag < (F32.inf false).signedMag := by decide +kernel
    exact absurd (hlt.trans_le hle) (not_lt.mpr hinf.le)

end EcuTelemetry.Firmware
