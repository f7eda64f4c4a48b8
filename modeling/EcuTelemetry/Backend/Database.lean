/-
  EcuTelemetry.Backend.Database

  The tables of backend/app/db.py and the queries of the modelled code, one
  definition for each method.  A table is the list of its rows in insertion
  order; AUTOINCREMENT keys are counters.  Columns that no modelled code reads
  back are left out.

  Wall-clock readings (`time.time()`) are arguments.
-/

import EcuTelemetry.Backend.PyValue
import EcuTelemetry.Backend.Stats

namespace EcuTelemetry.Backend

/-! ## Rows -/

structure DeviceRow (F : Type) where
  deviceId : String
  hwModel : Option String := none
  fwVersion : Option String := none
  fwVersionU32 : Option Nat := none
  online : Bool := false
  lastSeen : Option F := none
  reportedConfigVersion : Nat := 0

/-- The `status` column of `alerts`. -/
inductive AlertStatus
  | opened
  | acked
  | resolved
deriving DecidableEq, Repr

/-- `status IN ('open','acked')`. -/
def AlertStatus.unresolved : AlertStatus → Bool
  | opened => true
  | acked => true
  | resolved => false

structure AlertRow (F : Type) where
  id : Nat
  deviceId : String
  rule : Option String
  metric : Option String
  value : Option F
  severity : Option String
  status : AlertStatus
  message : Option String
  openedAt : F
  ackedAt : Option F
  resolvedAt : Option F
  updatedAt : F

structure ConfigRow (F : Type) where
  deviceId : String
  version : Nat
  telemetryHz : Nat
  logLevel : Nat
  rpmLimit : Option F64
  tempLimitC : Option F64
  currentLimitA : Option F64
  ackStatus : String := "pending"
  createdAt : F
  ackedAt : Option F := none

structure FirmwareRow (F : Type) where
  version : String
  notes : String
  sizeBytes : Nat
  crc : Nat
  createdAt : F

structure JobRow (F : Type) where
  id : Nat
  deviceId : String
  targetVersion : String
  fromVersion : Option String
  status : String
  updatedAt : F
  history : List (String × F)
deriving DecidableEq

structure FaultInjectionRow (F : Type) where
  id : Nat
  deviceId : String
  setFlags : Nat
  clearFlags : Nat
  durationMs : Nat
  ackFlags : Option Nat := none

/-- The columns of `device_stats` that `load_stats` gives back to `Ingest`. -/
structure StatsRow (F : Type) where
  deviceId : String
  framesRx : Nat
  badCrc : Nat
  seqGaps : Nat
  reconnects : Nat
  lastSeen : Option F

structure Database (F : Type) where
  devices : List (DeviceRow F) := []
  alerts : List (AlertRow F) := []
  nextAlertId : Nat := 1
  configs : List (ConfigRow F) := []
  firmware : List (FirmwareRow F) := []
  fwJobs : List (JobRow F) := []
  nextJobId : Nat := 1
  faultInjections : List (FaultInjectionRow F) := []
  nextFaultId : Nat := 1
  rules : Option (Dict String (Json F)) := none
  deviceStats : List (StatsRow F) := []

namespace Database

variable {F : Type}

/-- The newest row of a table that is kept in insertion order. -/
def newest {α : Type} (rows : List α) (p : α → Bool) : Option α := rows.reverse.find? p

/-! ## devices -/

def getDevice (db : Database F) (dev : String) : Option (DeviceRow F) :=
  db.devices.find? (·.deviceId = dev)

/-- `list_devices`. -/
def listDevices (db : Database F) : List (DeviceRow F) :=
  db.devices.mergeSort fun a b => a.deviceId ≤ b.deviceId

/-- `upsert_device`: `fields` sets the given columns; a missing `last_seen` is the clock. -/
def upsertDevice (db : Database F) (dev : String) (lastSeen : F)
    (fields : DeviceRow F → DeviceRow F) : Database F :=
  if db.devices.any (·.deviceId = dev) then
    { db with
      devices := db.devices.map fun d =>
        if d.deviceId = dev then { fields d with lastSeen := some lastSeen } else d }
  else
    { db with
      devices := db.devices ++ [{ fields { deviceId := dev } with lastSeen := some lastSeen }] }

def setOnline (db : Database F) (dev : String) (online : Bool) : Database F :=
  { db with
    devices := db.devices.map fun d => if d.deviceId = dev then { d with online := online } else d }

/-! ## alerts -/

/-- `open_alert`: no row has `rule = NULL`. -/
def openAlert (db : Database F) (dev : String) : Option String → Option (AlertRow F)
  | none => none
  | some rule =>
    newest db.alerts fun a => a.deviceId = dev ∧ a.rule = some rule ∧ a.status.unresolved

/-- `create_alert`. -/
def createAlert (db : Database F) (dev : String) (rule metric : Option String)
    (value : Option F) (severity message : Option String) (now : F) : Database F :=
  { db with
    alerts := db.alerts ++
      [{ id := db.nextAlertId, deviceId := dev, rule := rule, metric := metric, value := value,
         severity := severity, status := .opened, message := message, openedAt := now,
         ackedAt := none, resolvedAt := none, updatedAt := now }]
    nextAlertId := db.nextAlertId + 1 }

/-- `update_alert`: `fields` sets the given columns. -/
def updateAlert (db : Database F) (aid : Nat) (now : F) (fields : AlertRow F → AlertRow F) :
    Database F :=
  { db with
    alerts := db.alerts.map fun a =>
      if a.id = aid then { fields a with updatedAt := now } else a }

def getAlert (db : Database F) (aid : Nat) : Option (AlertRow F) :=
  db.alerts.find? (·.id = aid)

/-- `alerts(status="open", limit=limit)`. -/
def openAlerts (db : Database F) (limit : Nat) : List (AlertRow F) :=
  (db.alerts.reverse.filter (·.status.unresolved)).take limit

/-! ## device_config -/

/-- The row with the greater version. -/
def newerConfig (best : Option (ConfigRow F)) (r : ConfigRow F) : Option (ConfigRow F) :=
  match best with
  | none => some r
  | some b => if b.version < r.version then some r else some b

/-- `current_config`. -/
def currentConfig (db : Database F) (dev : String) : Option (ConfigRow F) :=
  (db.configs.filter (·.deviceId = dev)).foldl newerConfig none

/-- The version `new_config` gives. -/
def nextConfigVersion (db : Database F) (dev : String) : Nat :=
  let cur := ((db.currentConfig dev).map ConfigRow.version).getD 0
  let reported := ((db.getDevice dev).map DeviceRow.reportedConfigVersion).getD 0
  max cur reported + 1

/-- What a REAL column holds for a bound float: a NaN is NULL. -/
def sqlReal (x : F64) : Option F64 := if x.isNaN then none else some x

/-- `new_config`. -/
def newConfig (db : Database F) (dev : String) (telemetryHz logLevel : Nat)
    (rpmLimit tempLimitC currentLimitA : F64) (now : F) : Database F :=
  { db with
    configs := db.configs ++
      [{ deviceId := dev, version := db.nextConfigVersion dev, telemetryHz := telemetryHz,
         logLevel := logLevel, rpmLimit := sqlReal rpmLimit, tempLimitC := sqlReal tempLimitC,
         currentLimitA := sqlReal currentLimitA, createdAt := now }] }

/-- `UPDATE device_config .. WHERE device_id=? AND version=?`. -/
def updateConfig (db : Database F) (dev : String) (version : Nat)
    (fields : ConfigRow F → ConfigRow F) : Database F :=
  { db with
    configs := db.configs.map fun c =>
      if c.deviceId = dev ∧ c.version = version then fields c else c }

/-- `ack_config`. -/
def ackConfig (db : Database F) (dev : String) (version : Nat) (status : String) (now : F) :
    Database F :=
  db.updateConfig dev version fun c => { c with ackStatus := status, ackedAt := some now }

/-! ## firmware -/

def firmwareGet (db : Database F) (version : String) : Option (FirmwareRow F) :=
  db.firmware.find? (·.version = version)

/-- `firmware_add`: INSERT OR REPLACE. -/
def firmwareAdd (db : Database F) (version notes : String) (sizeBytes crc : Nat) (now : F) :
    Database F :=
  { db with
    firmware := db.firmware.filter (·.version ≠ version) ++
      [{ version := version, notes := notes, sizeBytes := sizeBytes, crc := crc,
         createdAt := now }] }

def fwJobCreate (db : Database F) (dev target : String) (fromVersion : Option String) (now : F) :
    Database F :=
  { db with
    fwJobs := db.fwJobs ++
      [{ id := db.nextJobId, deviceId := dev, targetVersion := target, fromVersion := fromVersion,
         status := "pending", updatedAt := now, history := [("pending", now)] }]
    nextJobId := db.nextJobId + 1 }

def fwJobLatest (db : Database F) (dev : String) : Option (JobRow F) :=
  newest db.fwJobs (·.deviceId = dev)

def fwJobUpdate (db : Database F) (jid : Nat) (status : String) (now : F) : Database F :=
  { db with
    fwJobs := db.fwJobs.map fun j =>
      if j.id = jid then
        { j with status := status, updatedAt := now, history := j.history ++ [(status, now)] }
      else j }

/-! ## fault_injections -/

def faultInjectionAdd (db : Database F) (dev : String) (setFlags clearFlags durationMs : Nat) :
    Database F :=
  { db with
    faultInjections := db.faultInjections ++
      [{ id := db.nextFaultId, deviceId := dev, setFlags := setFlags, clearFlags := clearFlags,
         durationMs := durationMs }]
    nextFaultId := db.nextFaultId + 1 }

/-- `fault_injection_ack`: the newest row of the device. -/
def faultInjectionAck (db : Database F) (dev : String) (activeFlags : Nat) : Database F :=
  match newest db.faultInjections (·.deviceId = dev) with
  | none => db
  | some r =>
    { db with
      faultInjections := db.faultInjections.map fun f =>
        if f.id = r.id then { f with ackFlags := some activeFlags } else f }

/-! ## device_stats -/

def saveStats (db : Database F) (r : StatsRow F) : Database F :=
  if db.deviceStats.any (·.deviceId = r.deviceId) then
    { db with
      deviceStats := db.deviceStats.map fun s => if s.deviceId = r.deviceId then r else s }
  else { db with deviceStats := db.deviceStats ++ [r] }

/-! ## The newest config -/

section NewestConfig

/-- The maximum of the versions, found by the fold: it is among the rows and above them all. -/
theorem foldl_newerConfig {rows : List (ConfigRow F)} {best : Option (ConfigRow F)} :
    (∀ b, best = some b → ∃ cur, rows.foldl newerConfig best = some cur ∧ b.version ≤ cur.version) ∧
      (∀ r ∈ rows, ∃ cur, rows.foldl newerConfig best = some cur ∧ r.version ≤ cur.version) ∧
      ∀ cur, rows.foldl newerConfig best = some cur → cur ∈ rows ∨ best = some cur := by
  induction rows generalizing best with
  | nil => exact ⟨fun b hb => ⟨b, hb, le_refl _⟩, nofun, fun cur hcur => .inr hcur⟩
  | cons r rows ih =>
    -- the better of the two goes on
    obtain ⟨b', hb', hrb', hbest, hfrom⟩ : ∃ b', newerConfig best r = some b' ∧
        r.version ≤ b'.version ∧ (∀ b, best = some b → b.version ≤ b'.version) ∧
        (b' = r ∨ best = some b') := by
      rcases best with _ | b
      · exact ⟨r, rfl, le_refl _, nofun, .inl rfl⟩
      · by_cases hlt : b.version < r.version
        · exact ⟨r, if_pos hlt, le_refl _, fun _ h => Option.some.inj h ▸ hlt.le, .inl rfl⟩
        · refine ⟨b, if_neg hlt, not_lt.mp hlt, fun _ h => Option.some.inj h ▸ le_refl _, .inr rfl⟩
    obtain ⟨hle, hrows, hmem⟩ := @ih (newerConfig best r)
    obtain ⟨cur, hcur, hb'cur⟩ := hle b' hb'
    refine ⟨fun b hb => ⟨cur, hcur, (hbest b hb).trans hb'cur⟩, ?_, fun c hc => ?_⟩
    · intro x hx
      rcases List.mem_cons.mp hx with rfl | hx
      · exact ⟨cur, hcur, hrb'.trans hb'cur⟩
      · exact hrows x hx
    · rcases hmem c hc with hc | hc
      · exact .inl (List.mem_cons_of_mem r hc)
      · rw [hb'] at hc
        cases hc
        rcases hfrom with rfl | hbest'
        · exact .inl List.mem_cons_self
        · exact .inr hbest'

theorem le_currentConfig {db : Database F} {r : ConfigRow F} (hr : r ∈ db.configs) :
    ∃ cur, db.currentConfig r.deviceId = some cur ∧ r.version ≤ cur.version :=
  foldl_newerConfig.2.1 r (List.mem_filter.mpr ⟨hr, decide_eq_true rfl⟩)

theorem currentConfig_mem {db : Database F} {dev : String} {cur : ConfigRow F}
    (h : db.currentConfig dev = some cur) : cur ∈ db.configs ∧ cur.deviceId = dev := by
  rcases foldl_newerConfig.2.2 cur h with hmem | hnone
  · obtain ⟨hmem, hdev⟩ := List.mem_filter.mp hmem
    exact ⟨hmem, of_decide_eq_true hdev⟩
  · cases hnone

/-- The next version is greater than all of the device's. -/
theorem version_lt_next {db : Database F} {r : ConfigRow F} (hr : r ∈ db.configs) :
    r.version < db.nextConfigVersion r.deviceId := by
  obtain ⟨cur, hcur, hle⟩ := le_currentConfig hr
  rw [nextConfigVersion, hcur]
  exact Nat.lt_succ_of_le (hle.trans (le_max_left _ _))

/-- A row with a greater version is the current one. -/
theorem currentConfig_append {db : Database F} {row : ConfigRow F}
    (hnew : ∀ r ∈ db.configs, r.deviceId = row.deviceId → r.version < row.version) :
    Database.currentConfig { db with configs := db.configs ++ [row] } row.deviceId = some row := by
  have hcur : Database.currentConfig { db with configs := db.configs ++ [row] } row.deviceId =
      newerConfig (db.currentConfig row.deviceId) row := by
    simp only [currentConfig, List.filter_append, List.foldl_append]
    simp
  rw [hcur]
  rcases h : db.currentConfig row.deviceId with _ | cur
  · rfl
  · obtain ⟨hmem, hdev⟩ := currentConfig_mem h
    exact if_pos (hnew cur hmem hdev)

end NewestConfig

end Database

end EcuTelemetry.Backend
