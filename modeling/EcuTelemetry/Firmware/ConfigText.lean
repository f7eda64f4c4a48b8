/-
  EcuTelemetry.Firmware.ConfigText

  firmware/src/config.cpp: the key=value text of a configuration, read by
  `parseConfigText` and written by `configToText`; and what `main` makes of it at
  start-up.

  A configuration that is only partly read is dropped, since `main` exits.
-/

import EcuTelemetry.Firmware.Agent
import EcuTelemetry.Lib.General

namespace EcuTelemetry.Firmware

open Printf

/-! ## Numbers -/

def trim (s : List Byte) : List Byte :=
  let white (c : Byte) : Bool := c = 0x20 || c = 0x09 || c = 0x0D || c = 0x0A
  (s.dropWhile white).rdropWhile white

/-- `toFloat`: the whole C string is a number. -/
def toFloat (s : List Byte) : Option F32 :=
  let (f, rest) := Strto.strtof (cBytes s)
  if rest = [] ∧ s ≠ [] then some f else none

def toLong (s : List Byte) : Option ℤ :=
  let (l, rest) := Strto.strtol (cBytes s)
  if rest = [] ∧ s ≠ [] then some l else none

/-- `f <= 0`, false on a NaN. -/
def nonPositive (f : F32) : Bool := !f.isNaN && decide (f.signedMag ≤ 0)

def parseLogLevel (s : List Byte) : Option LogLevel :=
  if s = str "debug" ∨ s = str "0" then some .DEBUG
  else if s = str "info" ∨ s = str "1" then some .INFO
  else if s = str "warn" ∨ s = str "warning" ∨ s = str "2" then some .WARN
  else if s = str "error" ∨ s = str "3" then some .ERROR
  else none

/-! ## Lines -/

/-- The lines that `std::getline` gives. -/
def getLines : List Byte → List (List Byte)
  | [] => []
  | c :: cs =>
    if c = 0x0A then [] :: getLines cs
    else
      match getLines cs with
      | [] => [[c]]
      | l :: ls => (c :: l) :: ls

/-- A line without its comment. -/
def cleanLine (line : List Byte) : List Byte := trim (line.takeWhile (· ≠ 0x23))

/-- The text before and behind the first `=`. -/
def splitKey (line : List Byte) : List Byte × List Byte :=
  (trim (line.takeWhile (· ≠ 0x3D)), trim ((line.dropWhile (· ≠ 0x3D)).drop 1))

/-- The `if` over the keys. -/
def Config.set (lineno : ℕ) (key val : List Byte) (cfg : Config) : Except (List Byte) Config :=
  if key = str "hz" then
    match (toLong val).filter fun l => !(l < 1 || l > 1000) with
    | none => .error (str "hz must be 1..1000")
    | some l => .ok { cfg with hz := l }
  else if key = str "config_version" then
    match (toLong val).filter fun l => !(l < 0) with
    | none => .error (str "config_version must be >= 0")
    | some l => .ok { cfg with configVersion := UInt32.ofNat l.toNat }
  else if key = str "rpm_limit" then
    match (toFloat val).filter fun f => !nonPositive f with
    | none => .error (str "rpm_limit must be > 0")
    | some f => .ok { cfg with limits := { cfg.limits with rpmLimit := f } }
  else if key = str "temp_limit_c" then
    match toFloat val with
    | none => .error (str "temp_limit_c must be a number")
    | some f => .ok { cfg with limits := { cfg.limits with tempLimitC := f } }
  else if key = str "current_limit_a" then
    match (toFloat val).filter fun f => !nonPositive f with
    | none => .error (str "current_limit_a must be > 0")
    | some f => .ok { cfg with limits := { cfg.limits with currentLimitA := f } }
  else if key = str "log_level" then
    match parseLogLevel val with
    | none => .error (str "log_level must be debug|info|warn|error")
    | some l => .ok { cfg with logLevel := l }
  else .error (str "line " ++ dec lineno ++ str ": unknown key '" ++ key ++ str "'")

/-- One round of the loop. -/
def parseLine (lineno : ℕ) (line : List Byte) (cfg : Config) : Except (List Byte) Config :=
  let line := cleanLine line
  if line = [] then .ok cfg
  else if 0x3D ∉ line then .error (str "line " ++ dec lineno ++ str ": expected key=value")
  else cfg.set lineno (splitKey line).1 (splitKey line).2

/-- The loop, behind `lineno` lines. -/
def parseLines : ℕ → List (List Byte) → Config → Except (List Byte) Config
  | _, [], cfg => .ok cfg
  | lineno, line :: lines, cfg => do
    let cfg ← parseLine (lineno + 1) line cfg
    parseLines (lineno + 1) lines cfg

def parseConfigText (text : List Byte) (cfg : Config) : Except (List Byte) Config :=
  parseLines 0 (getLines text) cfg

example : (parseConfigText (str "# comment\nhz = 25\ntemp_limit_c=100.5\n log_level=warn") {}) =
    .ok { hz := 25, logLevel := .WARN, limits := { tempLimitC := ⟨0x42C90000⟩ } } := by
      decide +kernel

example : parseConfigText (str "hz=10\nbogus=1\n") {} = .error
    (str "line 2: unknown key 'bogus'") := by
  decide +kernel

/-- `configToText`.  The stream writes a float like `%g`. -/
def configToText (cfg : Config) : List Byte :=
  str "# ECU agent configuration (written by ecu_agent)\n" ++
    (str "config_version=" ++ dec cfg.configVersion.toNat ++ str "\n") ++
    (str "hz=" ++ int cfg.hz ++ str "\n") ++
    (str "log_level=" ++ logLevelName cfg.logLevel ++ str "\n") ++
    (str "rpm_limit=" ++ general cfg.limits.rpmLimit ++ str "\n") ++
    (str "temp_limit_c=" ++ general cfg.limits.tempLimitC ++ str "\n") ++
    (str "current_limit_a=" ++ general cfg.limits.currentLimitA ++ str "\n")

/-! ## Start-up -/

/-- `--hz`. -/
def hzFlag (val : List Byte) : Except (List Byte) ℤ :=
  match (toLong val).filter fun l => !(l < 1 || l > 1000) with
  | none => .error (str "--hz must be 1..1000")
  | some l => .ok l

/-- `--log-level`. -/
def logLevelFlag (val : List Byte) : Except (List Byte) LogLevel :=
  match parseLogLevel val with
  | none => .error (str "--log-level must be debug|info|warn|error")
  | some l => .ok l

/-- The configuration that `main` starts the agent with: the defaults, then the
    text of the file, then the flags.  Without `--config` the text is empty. -/
def startConfig (text : List Byte) (hz logLevel : Option (List Byte)) :
    Except (List Byte) Config := do
  let hz ← hz.mapM hzFlag
  let logLevel ← logLevel.mapM logLevelFlag
  let cfg ← (parseConfigText text {}).mapError (str "--config: " ++ ·)
  return { cfg with hz := hz.getD cfg.hz, logLevel := logLevel.getD cfg.logLevel }

end EcuTelemetry.Firmware
