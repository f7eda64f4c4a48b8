/-
  EcuTelemetry.Backend.DeviceShare

  The engine's state, device by device: its memory and caches are keyed by the
  device, and the rows of the tables belong to one each.  `share` is what there
  is for one device.

  An event of a device leaves the shares of all others alone
  (`SameShare`).  `resolve` finds the row by its id, so this rests on the ids
  being unique.
-/

import EcuTelemetry.Backend.Alerts

namespace EcuTelemetry.Backend

open Proc

variable {F : Type}

/-! ## Shares -/

/-- The rows of a device. -/
structure DbShare (F : Type) where
  device : Option (DeviceRow F)
  alerts : List (AlertRow F)
  configs : List (ConfigRow F)
  fwJobs : List (JobRow F)
  faultInjections : List (FaultInjectionRow F)
  stats : List (StatsRow F)

def Database.share (db : Database F) (dev : String) : DbShare F where
  device := db.getDevice dev
  alerts := db.alerts.filter (·.deviceId = dev)
  configs := db.configs.filter (·.deviceId = dev)
  fwJobs := db.fwJobs.filter (·.deviceId = dev)
  faultInjections := db.faultInjections.filter (·.deviceId = dev)
  stats := db.deviceStats.filter (·.deviceId = dev)

/-- The rules, and what the engine keeps for a device. -/
structure Share (F : Type) where
  rules : Dict String (Json F)
  stored : Option (Dict String (Json F))
  memory : Option (DeviceState F)
  config : Option (Dict String (Json F))
  hwModel : Option String
  rows : DbShare F

namespace Engine

def share (s : Engine F) (dev : String) : Share F where
  rules := s.rules
  stored := s.db.rules
  memory := Dict.get? s.devices dev
  config := Dict.get? s.configCache dev
  hwModel := Dict.get? s.hwCache dev
  rows := s.db.share dev

/-- Ids are unique, and every device has one record in memory. -/
structure Sound (s : Engine F) : Prop where
  alerts : s.db.AlertsKeyed
  distinct : Dict.Distinct s.devices

/-- The share of a device stays as it is. -/
def SameShare (dev : String) (s s' : Engine F) : Prop :=
  s'.rules = s.rules ∧ (s.Sound → s'.Sound ∧ s'.share dev = s.share dev)

instance (dev : String) : IsPreorder (Engine F) (SameShare dev) where
  refl _ := ⟨rfl, fun h => ⟨h, rfl⟩⟩
  trans _ _ _ h h' := by
    refine ⟨h'.1.trans h.1, fun hs => ?_⟩
    obtain ⟨hs', heq⟩ := h.2 hs
    obtain ⟨hs'', heq'⟩ := h'.2 hs'
    exact ⟨hs'', heq'.trans heq⟩

/-! ## The records in memory -/

/-- `_st` returns the record of the device, a new one where there was none. -/
theorem st_run (dev : String) (s : Engine F) :
    ∃ D, st dev s = (.ok ((s.share dev).memory.getD {}), { s with devices := D }) ∧
      Dict.get? D dev = some ((s.share dev).memory.getD {}) ∧
      (∀ d, d ≠ dev → Dict.get? D d = Dict.get? s.devices d) ∧
      (Dict.Distinct s.devices → Dict.Distinct D) := by
  rw [st]
  rcases h : Dict.get? s.devices dev with _ | d
  · have hmem : (s.share dev).memory = none := h
    rw [hmem]
    refine ⟨Dict.set s.devices dev {}, rfl, Dict.get?_set_self (.of_lawful dev), fun d hd => ?_,
      fun hdist => hdist.set (.of_lawful dev)⟩
    exact Dict.get?_set_ne (.of_lawful dev) (.of_lawful d) hd.symm
  · have hmem : (s.share dev).memory = some d := h
    rw [hmem]
    exact ⟨s.devices, rfl, h, fun _ _ => rfl, id⟩

/-- `modifySt` as one write into the records. -/
theorem modifySt_run (dev : String) (f : DeviceState F → DeviceState F) (s : Engine F) :
    ∃ D, modifySt dev f s = (.ok (), { s with devices := D }) ∧
      Dict.get? D dev = some (f ((s.share dev).memory.getD {})) ∧
      (∀ d, d ≠ dev → Dict.get? D d = Dict.get? s.devices d) ∧
      (Dict.Distinct s.devices → Dict.Distinct D) := by
  obtain ⟨D, hrun, -, hne, hdist⟩ := st_run dev s
  refine ⟨Dict.set D dev (f ((s.share dev).memory.getD {})), ?_, ?_, fun d hd => ?_, fun h => ?_⟩
  · rw [modifySt, bind_run_ok hrun]
    rfl
  · exact Dict.get?_set_self (.of_lawful dev)
  · rw [Dict.get?_set_ne (.of_lawful dev) (.of_lawful d) hd.symm, hne d hd]
  · exact (hdist h).set (.of_lawful dev)

/-- The record of another device does not count. -/
theorem SameShare.of_devices {dev : String} {s : Engine F} {D : Dict String (DeviceState F)}
    (hget : Dict.get? D dev = Dict.get? s.devices dev)
    (hdist : Dict.Distinct s.devices → Dict.Distinct D) :
    SameShare dev s { s with devices := D } := by
  refine ⟨rfl, fun hs => ⟨⟨hs.alerts, hdist hs.distinct⟩, ?_⟩⟩
  rw [share, share, hget]

/-! ## The rows of `alerts` -/

/-- What `resolve` does to a row. -/
def close (dev : String) (rule : Option String) (now clock : F) (a : AlertRow F) : AlertRow F :=
  if rule.isSome ∧ a.live dev rule then
    { a with status := .resolved, resolvedAt := some now, updatedAt := clock }
  else a

theorem close_deviceId (dev : String) (rule : Option String) (now clock : F) (a : AlertRow F) :
    (close dev rule now clock a).deviceId = a.deviceId := by
  unfold close
  split <;> rfl

theorem close_of_ne {dev : String} (rule : Option String) (now clock : F) {a : AlertRow F}
    (h : a.deviceId ≠ dev) : close dev rule now clock a = a := by
  refine if_neg fun hlive => h ?_
  have := hlive.2
  simp only [AlertRow.live, decide_eq_true_eq] at this
  exact this.1

end Engine

namespace Database

variable {db : Database F} {dev : String}

/-- `open_alert` looks at the rows of the device alone. -/
theorem openAlert_isNone (db : Database F) (dev r : String) :
    (db.openAlert dev (some r)).isNone = (db.share dev).alerts.all (!·.live dev (some r)) := by
  rw [Bool.eq_iff_iff, Option.isNone_iff_eq_none, openAlert_some_eq_none, liveCount,
    List.countP_eq_zero, List.all_eq_true]
  constructor
  · intro h a ha
    rw [Bool.not_eq_true']
    exact Bool.eq_false_iff.mpr (h a (List.mem_filter.mp ha).1)
  · intro h a ha hlive
    have hdev : a.deviceId = dev := by
      simp only [AlertRow.live, decide_eq_true_eq] at hlive
      exact hlive.1
    have hnot := h a (List.mem_filter.mpr ⟨ha, decide_eq_true hdev⟩)
    rw [hlive] at hnot
    cases hnot

/-- With unique ids the update of the alert found is an update of the live row. -/
theorem closeAlert_alerts (hk : db.AlertsKeyed) (dev : String) (rule : Option String)
    (now clock : F) {a : AlertRow F} (ha : db.openAlert dev rule = some a) :
    (db.updateAlert a.id clock fun a =>
        { a with status := .resolved, resolvedAt := some now }).alerts =
      db.alerts.map (Engine.close dev rule now clock) := by
  obtain ⟨hmem, hlive⟩ := openAlert_spec ha
  obtain ⟨r, rfl⟩ : ∃ r, rule = some r := by
    cases rule with
    | none => cases ha
    | some r => exact ⟨r, rfl⟩
  refine List.map_congr_left fun b hb => ?_
  by_cases hid : b.id = a.id
  · obtain rfl := hk.eq_of_id hb hmem hid
    rw [if_pos rfl, Engine.close, if_pos ⟨rfl, hlive⟩]
  · rw [if_neg hid, Engine.close, if_neg]
    rintro ⟨-, hb'⟩
    exact hid (by rw [hk.eq_of_live hb hmem hb' hlive])

/-- Without an open alert there is nothing to close. -/
theorem map_close_of_none {rule : Option String} (now clock : F)
    (h : db.openAlert dev rule = none) :
    db.alerts.map (Engine.close dev rule now clock) = db.alerts := by
  refine (List.map_congr_left fun b hb => ?_).trans (List.map_id _)
  refine if_neg ?_
  rintro ⟨hsome, hlive⟩
  obtain ⟨r, rfl⟩ := Option.isSome_iff_exists.mp hsome
  have hzero := openAlert_some_eq_none.mp h
  rw [liveCount, List.countP_eq_zero] at hzero
  exact hzero b hb hlive

end Database

namespace Engine

variable [PyFloat F]

/-- `resolve`: the rule leaves the `active` map, and its live row is closed. -/
theorem resolve_run (dev : String) (rule : Json F) (now clock : F) (s : Engine F) :
    (∃ e, rule.sqlText = .error e ∧ resolve dev rule now clock s = (.error e, s)) ∨
      ∃ r D db, rule.sqlText = .ok r ∧
        resolve dev rule now clock s = (.ok (), { s with devices := D, db := db }) ∧
        Dict.get? D dev = some (let d := (s.share dev).memory.getD {}
          { d with active := Dict.pop d.active rule }) ∧
        (∀ d, d ≠ dev → Dict.get? D d = Dict.get? s.devices d) ∧
        (Dict.Distinct s.devices → Dict.Distinct D) ∧
        (s.db.AlertsKeyed → db = { s.db with
          alerts := s.db.alerts.map (close dev r now clock) }) ∧
        (s.db.AlertsKeyed → db.AlertsKeyed) := by
  rw [resolve, bind_run]
  rcases hr : rule.sqlText with e | r
  · exact .inl ⟨e, rfl, rfl⟩
  refine .inr ?_
  rw [ofExcept_run]
  dsimp only
  obtain ⟨D, hrun, hself, hne, hdist⟩ :=
    modifySt_run dev (fun d => { d with active := Dict.pop d.active rule }) s
  rw [bind_run_ok (get_run s), bind_run_ok hrun]
  -- without an open alert the table stays, and closing would change nothing
  rcases ha : s.db.openAlert dev r with _ | a
  · refine ⟨r, D, s.db, rfl, rfl, hself, hne, hdist, fun _ => ?_, id⟩
    rw [Database.map_close_of_none now clock ha]
  · refine ⟨r, D, _, rfl, rfl, hself, hne, hdist, fun hk => ?_, ?_⟩
    · rw [← Database.closeAlert_alerts hk dev r now clock ha]
      rfl
    · have hcloses : s.db.Closes (s.db.updateAlert a.id clock fun a =>
          { a with status := .resolved, resolvedAt := some now }) :=
        .updateAlert fun b _ _ => ⟨rfl, rfl, rfl, b.status.rank_le_resolved⟩
      exact hcloses.2

/-! ## The steps of another device -/

section Other

variable {dev other : String} (hne : dev ≠ other)

include hne

omit [PyFloat F] in
theorem keeps_sameShare_st : Keeps (SameShare (F := F) dev) (st other) := by
  intro s
  obtain ⟨D, hrun, -, hget, hdist⟩ := st_run other s
  rw [hrun]
  exact .of_devices (hget dev hne) hdist

omit [PyFloat F] in
theorem keeps_sameShare_modifySt (f : DeviceState F → DeviceState F) :
    Keeps (SameShare dev) (modifySt other f) := by
  intro s
  obtain ⟨D, hrun, -, hget, hdist⟩ := modifySt_run other f s
  rw [hrun]
  exact .of_devices (hget dev hne) hdist

/-- A row of another device. -/
theorem keeps_sameShare_openIfNone (rule metric : Option String) (value : Option F)
    (severity message : Json F) (clock : F) :
    Keeps (SameShare dev) (openIfNone other rule metric value severity message clock) := by
  intro s
  rcases openIfNone_spec other rule metric value severity message clock s with
    heq | ⟨hnone, sev, msg, heq⟩
  · rw [heq]
    exact refl_of (SameShare dev) s
  · rw [heq]
    refine ⟨rfl, fun hs => ⟨⟨hs.alerts.createAlert hnone, hs.distinct⟩, ?_⟩⟩
    -- the new row is not the device's
    have hrows : (s.db.createAlert other rule metric value sev msg clock).share dev =
        s.db.share dev := by
      rw [Database.share, Database.share, Database.createAlert]
      simp only [List.filter_append, List.filter_singleton, decide_eq_false hne.symm, cond_false,
        List.append_nil]
      rfl
    simp only [share, hrows]
    rfl

/-- A sample of another device leaves this one's share alone. -/
theorem sampleFrame_sameShare (now clock : F) :
    SampleFrame (SameShare dev) (fun _ => True) other now clock where
  rules _ _ h := h.1
  str _ := trivial
  configCache s cfg := by
    refine ⟨rfl, fun hs => ⟨⟨hs.alerts, hs.distinct⟩, ?_⟩⟩
    have hget := @Dict.get?_set_ne _ _ _ s.configCache _ _ cfg (.of_lawful other) (.of_lawful dev)
      hne.symm
    rw [share, share, hget]
  hwCache s _ := by
    refine ⟨rfl, fun hs => ⟨⟨hs.alerts, hs.distinct⟩, ?_⟩⟩
    have hget := @Dict.get?_set_ne _ _ _ s.hwCache _ _ (s.hwModel other) (.of_lawful other)
      (.of_lawful dev) hne.symm
    rw [share, share, hget]
  st := keeps_sameShare_st hne
  modifySt f _ := keeps_sameShare_modifySt hne f
  observe _ := Keeps.modify fun _ => ⟨rfl, fun hs => ⟨⟨hs.alerts, hs.distinct⟩, rfl⟩⟩
  -- `_mark` of another device: its record, and a row of its own
  mark rule cond metric value severity message _ := by
    refine (keeps_sameShare_st hne).bind fun _ => Keeps.bind (Keeps.modify fun _ =>
      ⟨rfl, fun hs => ⟨⟨hs.alerts, hs.distinct⟩, rfl⟩⟩) fun _ => ?_
    refine Keeps.ite (fun _ => Keeps.ite (fun _ => ?_) fun _ => Keeps.raise _) fun _ => Keeps.pure _
    exact (keeps_sameShare_modifySt hne _).bind fun _ => (Keeps.ofExcept _).bind fun r =>
      keeps_sameShare_openIfNone hne r metric value severity message clock

/-- And so does `resolve` for another device. -/
theorem keeps_sameShare_resolve (rule : Json F) (now clock : F) :
    Keeps (SameShare dev) (resolve other rule now clock) := by
  intro s
  -- nothing was active, or the rows of the other device are closed
  rcases resolve_run other rule now clock s with
    ⟨e, -, hrun⟩ | ⟨r, D, db, -, hrun, -, hget, hdist, hdb, hkeyed⟩
  · rw [hrun]
    exact refl_of (SameShare dev) s
  · rw [hrun]
    refine ⟨rfl, fun hs => ⟨⟨hkeyed hs.alerts, hdist hs.distinct⟩, ?_⟩⟩
    have hrows : db.share dev = s.db.share dev := by
      rw [hdb hs.alerts, Database.share, Database.share]
      have halerts : (s.db.alerts.map (close other r now clock)).filter (·.deviceId = dev) =
          s.db.alerts.filter (·.deviceId = dev) := by
        rw [List.filter_map]
        -- closing changes no device id, so the rows of `dev` are picked as before
        have hcomp : ((fun a : AlertRow F => decide (a.deviceId = dev)) ∘ close other r now clock) =
            fun a => decide (a.deviceId = dev) := by
          funext a
          simp only [Function.comp, close_deviceId]
        rw [hcomp]
        refine (List.map_congr_left fun a ha => ?_).trans (List.map_id _)
        have hdev : a.deviceId = dev := of_decide_eq_true (List.mem_filter.mp ha).2
        exact close_of_ne r now clock (hdev ▸ hne)
      simp only [halerts]
      rfl
    have hrules : db.rules = s.db.rules := by rw [hdb hs.alerts]
    simp only [share, hget dev hne, hrows, hrules]

end Other

end Engine

end EcuTelemetry.Backend
