/-
  EcuTelemetry.Backend.OwnEvents

  The events of a device see its own share of the engine and nothing else:
  from two engines that agree on the share (`Agree`), up to the ids of the
  alerts, they give the same result and lead to engines that agree.
-/

import EcuTelemetry.Backend.DeviceShare
import EcuTelemetry.Lib.TwoRun

namespace EcuTelemetry.Backend

open Proc

variable {F : Type}

/-- A row without its id. -/
def AlertRow.anonymous (a : AlertRow F) : AlertRow F := { a with id := 0 }

namespace Engine

/-- What the alerts table says about a device, oldest alert first. -/
def recorded (s : Engine F) (dev : String) : List (AlertRow F) :=
  (s.db.alerts.filter (·.deviceId = dev)).map AlertRow.anonymous

/-- The record in memory that `_st` returns. -/
def record (s : Engine F) (dev : String) : DeviceState F := (Dict.get? s.devices dev).getD {}

/-- The same rules, and the same share of a device up to the ids of its alerts. -/
structure Agree (dev : String) (s t : Engine F) : Prop where
  sound : s.Sound
  sound' : t.Sound
  rules : s.rules = t.rules
  stored : s.db.rules = t.db.rules
  memory : s.record dev = t.record dev
  config : Dict.get? s.configCache dev = Dict.get? t.configCache dev
  hwModel : Dict.get? s.hwCache dev = Dict.get? t.hwCache dev
  device : s.db.getDevice dev = t.db.getDevice dev
  configs : s.db.configs.filter (·.deviceId = dev) = t.db.configs.filter (·.deviceId = dev)
  alerts : s.recorded dev = t.recorded dev

namespace Agree

variable {dev : String} {s t u : Engine F}

theorem refl (hs : s.Sound) : Agree dev s s :=
  ⟨hs, hs, rfl, rfl, rfl, rfl, rfl, rfl, rfl, rfl⟩

theorem symm (h : Agree dev s t) : Agree dev t s :=
  ⟨h.sound', h.sound, h.rules.symm, h.stored.symm, h.memory.symm, h.config.symm, h.hwModel.symm,
    h.device.symm, h.configs.symm, h.alerts.symm⟩

theorem trans (h : Agree dev s t) (h' : Agree dev t u) : Agree dev s u :=
  ⟨h.sound, h'.sound', h.rules.trans h'.rules, h.stored.trans h'.stored,
    h.memory.trans h'.memory, h.config.trans h'.config, h.hwModel.trans h'.hwModel,
    h.device.trans h'.device, h.configs.trans h'.configs, h.alerts.trans h'.alerts⟩

/-- An engine with the same share. -/
theorem of_same (hs : s.Sound) (h : SameShare dev s t) : Agree dev s t := by
  obtain ⟨ht, hshare⟩ := h.2 hs
  have hshare := hshare.symm
  have hrows := congrArg Share.rows hshare
  refine ⟨hs, ht, congrArg Share.rules hshare, congrArg Share.stored hshare,
    congrArg (fun m : Share F => m.memory.getD {}) hshare, congrArg Share.config hshare,
    congrArg Share.hwModel hshare,
    congrArg DbShare.device hrows, congrArg DbShare.configs hrows, ?_⟩
  exact congrArg (List.map AlertRow.anonymous) (congrArg DbShare.alerts hrows)

theorem currentConfig (h : Agree dev s t) : s.db.currentConfig dev = t.db.currentConfig dev := by
  rw [Database.currentConfig, h.configs, Database.currentConfig]

end Agree

/-! ## Rows without ids -/

theorem anonymous_live (dev : String) (rule : Option String) (a : AlertRow F) :
    a.anonymous.live dev rule = a.live dev rule := rfl

theorem anonymous_close (dev : String) (rule : Option String) (now clock : F) (a : AlertRow F) :
    (close dev rule now clock a).anonymous = close dev rule now clock a.anonymous := by
  unfold close
  rw [anonymous_live]
  split <;> rfl

/-- Is there an unresolved alert?  The rows without ids tell. -/
theorem openAlert_isNone_recorded (s : Engine F) (dev r : String) :
    (s.db.openAlert dev (some r)).isNone = (s.recorded dev).all (!·.live dev (some r)) := by
  rw [Database.openAlert_isNone, recorded, List.all_map]
  rfl

/-- Closing rows and keeping those of one device commute. -/
theorem recorded_close (dev : String) (rule : Option String) (now clock : F)
    (rows : List (AlertRow F)) :
    ((rows.map (close dev rule now clock)).filter (·.deviceId = dev)).map AlertRow.anonymous =
      ((rows.filter (·.deviceId = dev)).map AlertRow.anonymous).map (close dev rule now clock) := by
  have hcomp : ((fun a : AlertRow F => decide (a.deviceId = dev)) ∘ close dev rule now clock) =
      fun a => decide (a.deviceId = dev) := by
    funext a
    simp only [Function.comp, close_deviceId]
  rw [List.filter_map, hcomp, List.map_map, List.map_map]
  exact List.map_congr_left fun a _ => anonymous_close dev rule now clock a

/-! ## The operations -/

section Operations

variable {dev : String}

/-- The model is the device's own. -/
theorem respects_hwFor : Respects (Agree (F := F) dev) (hwFor dev) := by
  intro s t h
  rw [Matches, hwFor, hwFor, h.hwModel]
  rcases Dict.get? t.hwCache dev with _ | hw
  · dsimp only
    rw [h.device]
    refine ⟨rfl, { h with
      sound := ⟨h.sound.alerts, h.sound.distinct⟩
      sound' := ⟨h.sound'.alerts, h.sound'.distinct⟩
      hwModel := ?_ }⟩
    exact (Dict.get?_set_self (.of_lawful dev)).trans (Dict.get?_set_self (.of_lawful dev)).symm
  · exact ⟨rfl, h⟩

/-- The records of the device are replaced by equal ones. -/
theorem Agree.devices {s t : Engine F} {D D' : Dict String (DeviceState F)} (h : Agree dev s t)
    (hget : (Dict.get? D dev).getD {} = (Dict.get? D' dev).getD {}) (hdist : Dict.Distinct D)
    (hdist' : Dict.Distinct D') : Agree dev { s with devices := D } { t with devices := D' } :=
  { h with
    sound := ⟨h.sound.alerts, hdist⟩
    sound' := ⟨h.sound'.alerts, hdist'⟩
    memory := hget }

/-- A new record is as good as none. -/
theorem st_agree {s : Engine F} (hs : s.Sound) :
    ∃ s', st dev s = (.ok (s.record dev), s') ∧ Agree dev s s' := by
  obtain ⟨D, hrun, hself, -, hdist⟩ := st_run dev s
  refine ⟨_, hrun, (Agree.refl hs).devices ?_ hs.distinct (hdist hs.distinct)⟩
  rw [hself]
  rfl

theorem respects_st : Respects (Agree (F := F) dev) (st dev) := by
  intro s t h
  obtain ⟨s', hrun, hs⟩ := st_agree h.sound
  obtain ⟨t', hrun', ht⟩ := st_agree h.sound'
  rw [Matches, hrun, hrun', h.memory]
  exact ⟨rfl, hs.symm.trans (h.trans ht)⟩

/-- A write into its record. -/
theorem respects_modifySt (f : DeviceState F → DeviceState F) :
    Respects (Agree dev) (modifySt dev f) := by
  intro s t h
  obtain ⟨D, hrun, hself, -, hdist⟩ := modifySt_run dev f s
  obtain ⟨D', hrun', hself', -, hdist'⟩ := modifySt_run dev f t
  have hmem : (s.share dev).memory.getD {} = (t.share dev).memory.getD {} := h.memory
  rw [Matches, hrun, hrun']
  refine ⟨rfl, h.devices ?_ (hdist h.sound.distinct) (hdist' h.sound'.distinct)⟩
  rw [hself, hself', hmem]

theorem respects_observe (rule : Json F) (cond : Bool) (now : F) :
    Respects (Agree dev) (observe dev rule cond now) :=
  .modify fun _ _ h =>
    { h with
      sound := ⟨h.sound.alerts, h.sound.distinct⟩
      sound' := ⟨h.sound'.alerts, h.sound'.distinct⟩ }

theorem respects_newSample : Respects (Agree (F := F) dev) newSample :=
  .modify fun _ _ h =>
    { h with
      sound := ⟨h.sound.alerts, h.sound.distinct⟩
      sound' := ⟨h.sound'.alerts, h.sound'.distinct⟩ }

variable [PyFloat F]

/-- The configuration is the device's own. -/
theorem respects_configFor : Respects (Agree (F := F) dev) (configFor dev) := by
  intro s t h
  rw [Matches, configFor, configFor, h.config]
  rcases Dict.get? t.configCache dev with _ | cfg
  · dsimp only
    rw [h.currentConfig]
    refine ⟨rfl, { h with
      sound := ⟨h.sound.alerts, h.sound.distinct⟩
      sound' := ⟨h.sound'.alerts, h.sound'.distinct⟩
      config := ?_ }⟩
    exact (Dict.get?_set_self (.of_lawful dev)).trans (Dict.get?_set_self (.of_lawful dev)).symm
  · exact ⟨rfl, h⟩

/-- A new alert. -/
theorem respects_openIfNone (rule metric : Option String) (value : Option F)
    (severity message : Json F) (clock : F) :
    Respects (Agree dev) (openIfNone dev rule metric value severity message clock) := by
  intro s t h
  -- both look for an unresolved row of the device and find it, or not
  have hread : (s.db.openAlert dev rule).isNone = (t.db.openAlert dev rule).isNone := by
    cases rule with
    | none => rfl
    | some r => rw [openAlert_isNone_recorded, openAlert_isNone_recorded, h.alerts]
  rw [openIfNone, Matches, bind_run_ok (get_run s), bind_run_ok (get_run t), hread]
  by_cases hnone : (t.db.openAlert dev rule).isNone = true
  · rw [if_pos hnone]
    rcases severity.sqlText with e | sev
    · exact ⟨rfl, h⟩
    rcases message.sqlText with e | msg
    · exact ⟨rfl, h⟩
    · -- the new rows differ in their ids
      have hs := Option.isNone_iff_eq_none.mp (hread.trans hnone)
      have ht := Option.isNone_iff_eq_none.mp hnone
      refine ⟨rfl, { h with
        sound := ⟨h.sound.alerts.createAlert hs, h.sound.distinct⟩
        sound' := ⟨h.sound'.alerts.createAlert ht, h.sound'.distinct⟩
        alerts := ?_ }⟩
      have hnew : ∀ u : Engine F,
          recorded { u with db := u.db.createAlert dev rule metric value sev msg clock } dev =
            u.recorded dev ++
              [{ id := 0, deviceId := dev, rule := rule, metric := metric, value := value,
                 severity := sev, status := .opened, message := msg, openedAt := clock,
                 ackedAt := none, resolvedAt := none, updatedAt := clock }] := by
        intro u
        rw [recorded, recorded, Database.createAlert]
        simp only [List.filter_append, List.filter_singleton, decide_true, cond_true,
          List.map_append, List.map_cons, List.map_nil]
        rfl
      exact (hnew s).trans ((congrArg (· ++ _) h.alerts).trans (hnew t).symm)
  · rw [if_neg hnone]
    exact ⟨rfl, h⟩

theorem respects_mark (rule : Json F) (cond : Bool) (now : F) (metric : Option String)
    (value : Option F) (severity message : Json F) (clock : F) :
    Respects (Agree dev) (mark dev rule cond now metric value severity message clock) := by
  refine respects_st.bind fun _ => (respects_observe rule cond now).bind fun _ => ?_
  refine .ite (fun _ => .ite (fun _ => ?_) fun _ => .raise _) fun _ => .pure _
  exact (respects_modifySt _).bind fun _ => (Respects.ofExcept _).bind fun r =>
    respects_openIfNone r metric value severity message clock

/-- An alert resolved. -/
theorem respects_resolve (rule : Json F) (now clock : F) :
    Respects (Agree dev) (resolve dev rule now clock) := by
  intro s t h
  rw [Matches]
  rcases resolve_run dev rule now clock s with
    ⟨e, he, hrun⟩ | ⟨r, D, db, hr, hrun, hself, -, hdist, hdb, hkeyed⟩
  -- `resolve` raises on the rule alone, so both runs do or neither
  · rcases resolve_run dev rule now clock t with
      ⟨e', he', hrun'⟩ | ⟨r', D', db', hr', -⟩
    · obtain rfl := Except.error.inj (he.symm.trans he')
      rw [hrun, hrun']
      exact ⟨rfl, h⟩
    · rw [he] at hr'
      cases hr'
  · rcases resolve_run dev rule now clock t with
      ⟨e', he', hrun'⟩ | ⟨r', D', db', hr', hrun', hself', -, hdist', hdb', hkeyed'⟩
    · rw [hr] at he'
      cases he'
    · obtain rfl := Except.ok.inj (hr.symm.trans hr')
      have hmem : (s.share dev).memory.getD {} = (t.share dev).memory.getD {} := h.memory
      rw [hmem] at hself
      rw [hrun, hrun', hdb h.sound.alerts, hdb' h.sound'.alerts]
      have hkeyed := hkeyed h.sound.alerts
      have hkeyed' := hkeyed' h.sound'.alerts
      rw [hdb h.sound.alerts] at hkeyed
      rw [hdb' h.sound'.alerts] at hkeyed'
      refine ⟨rfl, { h with
        sound := ⟨hkeyed, hdist h.sound.distinct⟩
        sound' := ⟨hkeyed', hdist' h.sound'.distinct⟩
        memory := congrArg (·.getD {}) (hself.trans hself'.symm)
        alerts := ?_ }⟩
      -- each closes the same rows of the device
      refine (recorded_close dev r now clock s.db.alerts).trans ?_
      refine Eq.trans ?_ (recorded_close dev r now clock t.db.alerts).symm
      exact congrArg (List.map (close dev r now clock)) h.alerts

end Operations

/-! ## Samples -/

section Samples

variable {dev : String} [PyFloat F] [PyText F]

omit [PyText F] in
theorem respects_overrideApplies (o : Dict String (Json F)) :
    Respects (Agree dev) (overrideApplies dev o) := by
  rw [overrideApplies]
  refine .ite (fun _ => .pure _) fun _ => ?_
  split
  · exact .ite (fun _ => respects_hwFor.bind fun _ => .pure _) fun _ => .pure _
  · exact .pure _

omit [PyText F] in
/-- The overrides in turn. -/
theorem respects_matchOverride (spec severity : Json F) (os : List (Json F)) :
    Respects (Agree dev) (matchOverride dev spec severity os) := by
  induction os with
  | nil => exact .pure _
  | cons o os ih =>
    rw [matchOverride.eq_def]
    split
    · exact .pure _
    · next heq =>
      cases heq
      exact (respects_overrideApplies _).bind fun hit => .ite (fun _ => .pure _) fun _ => ih
    · next heq =>
      cases heq
      exact ih

omit [PyText F] in
theorem respects_thresholdSpec (rule : Json F) :
    Respects (Agree dev) (thresholdSpec rule dev) :=
  (Respects.ofExcept _).bind fun _ => (Respects.ofExcept _).bind fun _ =>
    (Respects.ofExcept _).bind fun _ => (Respects.ofExcept _).bind fun _ =>
    respects_matchOverride _ _ _

omit [PyText F] in
/-- A rate rule. -/
theorem respects_onRate (t : Dict String (Json F)) (now clock : F) (rule : String × Json F) :
    Respects (Agree dev) (onRate dev t now clock rule) := by
  rw [onRate]
  dsimp only
  split
  · exact .pure _
  · refine (Respects.ofExcept _).bind fun _ => respects_st.bind fun _ =>
      (respects_modifySt _).bind fun _ => (Respects.ofExcept _).bind fun _ =>
      (Respects.ofExcept _).bind fun _ => (respects_modifySt _).bind fun _ => ?_
    split
    · exact .pure _
    · refine (Respects.ofExcept _).bind fun _ => (Respects.ofExcept _).bind fun _ =>
        (Respects.ofExcept _).bind fun _ => (Respects.ofExcept _).bind fun _ => ?_
      exact (respects_mark _ _ _ _ _ _ _ _).bind fun _ => .pure _

omit [PyText F] in
theorem respects_onRates (t : Dict String (Json F)) (now clock : F) :
    Respects (Agree dev) (onRates dev t now clock) := by
  refine .get_bind (fun s s' h => by rw [h.rules]) fun s => ?_
  split
  · exact .collect fun _ _ => respects_onRate t now clock _
  · exact .raise _

theorem respects_onComm (loss now clock : F) :
    Respects (Agree dev) (onComm dev loss now clock) := by
  refine .get_bind (fun s s' h => by rw [h.rules]) fun s => (Respects.ofExcept _).bind fun thr => ?_
  split
  · exact .pure _
  · exact (Respects.ofExcept _).bind fun _ => (Respects.ofExcept _).bind fun _ =>
      respects_mark _ _ _ _ _ _ _ _

omit [PyText F] in
theorem respects_onOffline (now clock : F) : Respects (Agree dev) (onOffline dev now clock) := by
  refine .get_bind (fun s s' h => by rw [h.rules]) fun s =>
    (Respects.ofExcept _).bind fun enabled => .ite (fun _ => ?_) fun _ => .pure _
  exact (Respects.ofExcept _).bind fun _ => respects_mark _ _ _ _ _ _ _ _

omit [PyText F] in
/-- `on_online`. -/
theorem respects_onOnline (now clock : F) : Respects (Agree dev) (onOnline dev now clock) := by
  refine .get_bind (fun s s' h => ?_) fun s =>
    .ite (fun _ => respects_resolve _ _ _) fun _ => .pure _
  have hread := openAlert_isNone_recorded s dev "offline"
  rw [h.alerts, ← openAlert_isNone_recorded s'] at hread
  have hsome : (s.db.openAlert dev (some "offline")).isSome =
      (s'.db.openAlert dev (some "offline")).isSome := by
    rw [← Option.not_isNone, ← Option.not_isNone, hread]
  rw [hsome]

theorem respects_onLoss (loss : Option F) (now clock : F) :
    Respects (Agree dev) (onLoss dev loss now clock) := by
  cases loss with
  | none => exact .pure _
  | some loss => exact respects_onComm loss now clock

/-- A threshold. -/
theorem respects_onThreshold (t cfg : Dict String (Json F)) (now clock : F) (rule : Json F) :
    Respects (Agree dev) (onThreshold dev t cfg now clock rule) := by
  refine (Respects.ofExcept _).bind fun _ => (Respects.ofExcept _).bind fun v => ?_
  split
  · exact .pure _
  · refine (respects_thresholdSpec rule).bind fun spec => (Respects.ofExcept _).bind fun thr => ?_
    split
    · exact .pure _
    · refine (Respects.ofExcept _).bind fun _ => (Respects.ofExcept _).bind fun _ =>
        (Respects.ofExcept _).bind fun _ => ?_
      exact (respects_mark _ _ _ _ _ _ _ _).bind fun _ => .pure _

theorem respects_onThresholds (t cfg : Dict String (Json F)) (now clock : F) :
    Respects (Agree dev) (onThresholds dev t cfg now clock) := by
  refine .get_bind (fun s s' h => by rw [h.rules]) fun s => (Respects.ofExcept _).bind fun _ => ?_
  exact .collect fun _ _ => respects_onThreshold t cfg now clock _

/-- The fault flags. -/
theorem respects_onFaultFlags (t : Dict String (Json F)) (now clock : F) :
    Respects (Agree dev) (onFaultFlags dev t now clock) := by
  refine .get_bind (fun s s' h => by rw [h.rules]) fun s => (Respects.ofExcept _).bind fun _ => ?_
  refine .ite (fun _ => ?_) fun _ => .pure _
  refine (Respects.ofExcept _).bind fun _ => (Respects.ofExcept _).bind fun _ =>
    .collect fun _ _ => ?_
  refine .ite (fun _ => ?_) fun _ => (respects_observe _ _ _).bind fun _ => .pure _
  exact (Respects.ofExcept _).bind fun _ => (respects_mark _ _ _ _ _ _ _ _).bind fun _ => .pure _

/-- The gate of the averages. -/
theorem respects_onGate (t : Dict String (Json F)) (p : AnomalyParams F) (gate : Json F) :
    Respects (Agree dev) (onGate dev t p gate) := by
  refine (Respects.ofExcept _).bind fun _ => .ite (fun _ => ?_) fun _ => .pure _
  refine (Respects.ofExcept _).bind fun v => ?_
  split
  · exact .pure _
  · dsimp only
    exact respects_st.bind fun _ => (respects_modifySt _).bind fun _ =>
      (Respects.ofExcept _).bind fun _ => (Respects.ofExcept _).bind fun _ =>
      (Respects.ofExcept _).bind fun _ => (respects_modifySt _).bind fun _ => .pure _

/-- The average of one metric. -/
theorem respects_onAnomalyMetric (t : Dict String (Json F)) (now clock : F) (p : AnomalyParams F)
    (severity : Json F) (moving : Bool) (gated : List (Json F)) (metric : Json F) :
    Respects (Agree dev) (onAnomalyMetric dev t now clock p severity moving gated metric) := by
  refine (Respects.ofExcept _).bind fun v => ?_
  split
  · exact .pure _
  · dsimp only
    exact (Respects.ofExcept _).bind fun _ => respects_st.bind fun _ =>
      (respects_modifySt _).bind fun _ => (Respects.ofExcept _).bind fun _ =>
      (respects_modifySt _).bind fun _ => (respects_mark _ _ _ _ _ _ _ _).bind fun _ => .pure _

/-- The anomaly rules. -/
theorem respects_onAnomaly (t : Dict String (Json F)) (now clock : F) :
    Respects (Agree dev) (onAnomaly dev t now clock) := by
  refine .get_bind (fun s s' h => by rw [h.rules]) fun s => (Respects.ofExcept _).bind fun _ => ?_
  refine .ite (fun _ => ?_) fun _ => .pure _
  refine (Respects.ofExcept _).bind fun _ => (Respects.ofExcept _).bind fun _ =>
    (Respects.ofExcept _).bind fun _ => (respects_onGate t _ _).bind fun _ =>
    (Respects.ofExcept _).bind fun _ => (Respects.ofExcept _).bind fun _ =>
    (Respects.ofExcept _).bind fun _ => ?_
  exact .collect fun _ _ => respects_onAnomalyMetric t now clock _ _ _ _ _

/-- The rules on one sample. -/
theorem respects_onTelemetry (t : Dict String (Json F)) (now clock : F) (loss : Option F) :
    Respects (Agree dev) (onTelemetry dev t now clock loss) :=
  respects_st.bind fun _ => respects_configFor.bind fun cfg =>
    (respects_onThresholds t cfg now clock).bind fun _ =>
    (respects_onFaultFlags t now clock).bind fun _ => (respects_onRates t now clock).bind fun _ =>
    (respects_onAnomaly t now clock).bind fun _ => (respects_onLoss loss now clock).bind fun _ =>
    .pure _

end Samples

end Engine

end EcuTelemetry.Backend
