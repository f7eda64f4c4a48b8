/-
  EcuTelemetry.Backend.Separation

  What an event of one device does to the others: nothing.  `account` is all that
  the backend keeps for a device, in its memory, in the database and in the engine;
  a frame, a datagram, a request or the end of a connection leaves the accounts of
  the other devices alone, in every state that a run reaches (`step_account`).

  Jobs, alerts and fault injections are updated by their ids, so this rests on the
  ids being unique.  Ticks, offline passes, saved counters and restarts concern the
  fleet, and so do the acknowledgements of alerts and new rules.
-/

import EcuTelemetry.Backend.Isolation
import EcuTelemetry.Backend.JobAcks
import EcuTelemetry.Backend.WriterRegistry

namespace EcuTelemetry.Backend

open Proc Protocol

variable {F : Type}

/-! ## Keyed states -/

/-- The ids of the fault injections are unique. -/
structure Database.FaultsKeyed (db : Database F) : Prop where
  fresh : ∀ r ∈ db.faultInjections, r.id < db.nextFaultId
  ids : (db.faultInjections.map FaultInjectionRow.id).Nodup

namespace Database

variable {db db' : Database F}

theorem FaultsKeyed.of_rows_eq (h : db.FaultsKeyed)
    (hrows : db'.faultInjections = db.faultInjections)
    (hnext : db'.nextFaultId = db.nextFaultId) : db'.FaultsKeyed :=
  ⟨by rw [hrows, hnext]; exact h.fresh, by rw [hrows]; exact h.ids⟩

/-- A new row takes the next id. -/
theorem FaultsKeyed.add (h : db.FaultsKeyed) (dev : String) (setFlags clearFlags durationMs : Nat) :
    (db.faultInjectionAdd dev setFlags clearFlags durationMs).FaultsKeyed := by
  refine ⟨fun r hr => ?_, ?_⟩
  · rcases List.mem_append.mp hr with hr | hr
    · exact Nat.lt_succ_of_lt (h.fresh r hr)
    · rw [List.mem_singleton.mp hr]
      exact Nat.lt_succ_self _
  · rw [faultInjectionAdd, List.map_append, List.nodup_append]
    refine ⟨h.ids, List.nodup_singleton _, ?_⟩
    rintro a ha b hb rfl
    obtain ⟨r, hr, rfl⟩ := List.mem_map.mp ha
    rw [List.map_singleton, List.mem_singleton] at hb
    exact absurd (h.fresh r hr) (by rw [hb]; exact Nat.lt_irrefl _)

/-- An acknowledgement keeps the ids. -/
theorem FaultsKeyed.ack (h : db.FaultsKeyed) (dev : String) (flags : Nat) :
    (db.faultInjectionAck dev flags).FaultsKeyed := by
  rw [faultInjectionAck]
  split
  · exact h
  · next r _ =>
    have hids : (db.faultInjections.map fun f =>
        if f.id = r.id then { f with ackFlags := some flags } else f).map FaultInjectionRow.id =
          db.faultInjections.map FaultInjectionRow.id := by
      rw [List.map_map]
      refine List.map_congr_left fun f _ => ?_
      dsimp only [Function.comp]
      split <;> rfl
    refine ⟨fun f hf => ?_, by rw [hids]; exact h.ids⟩
    obtain ⟨g, hg, rfl⟩ := List.mem_map.mp hf
    split
    · exact h.fresh g hg
    · exact h.fresh g hg

/-! ## The rows of another device -/

/-- An update that passes over the rows of a device. -/
theorem filter_map_others {α : Type} {key : α → String} {f : α → α} {dev : String} {rows : List α}
    (hkey : ∀ a, key (f a) = key a) (hf : ∀ a ∈ rows, key a = dev → f a = a) :
    (rows.map f).filter (key · = dev) = rows.filter (key · = dev) := by
  have hcomp : (fun a => decide (key a = dev)) ∘ f = fun a => decide (key a = dev) := by
    funext a
    simp only [Function.comp, hkey]
  rw [List.filter_map, hcomp]
  refine (List.map_congr_left fun a ha => ?_).trans (List.map_id _)
  obtain ⟨hmem, hdev⟩ := List.mem_filter.mp ha
  exact hf a hmem (of_decide_eq_true hdev)

/-- An update of a job of another device. -/
theorem share_fwJobUpdate {dev : String} {jid : Nat}
    (hjid : ∀ job ∈ db.fwJobs, job.id = jid → job.deviceId ≠ dev) (status : String) (now : F) :
    (db.fwJobUpdate jid status now).share dev = db.share dev := by
  have hrows : (db.fwJobUpdate jid status now).fwJobs.filter (·.deviceId = dev) =
      db.fwJobs.filter (·.deviceId = dev) := by
    refine filter_map_others (fun j => by split <;> rfl) fun j hj hdev => ?_
    exact if_neg fun hid => hjid j hj hid hdev
  show ({ db.share dev with fwJobs := _ } : DbShare F) = _
  rw [hrows]
  rfl

section Rows

variable {dev other : String} (hne : dev ≠ other)

include hne

/-- A write to the rows of another device. -/
theorem share_writeOf (hk : db.JobsKeyed) (h : db.WriteOf other db') :
    db'.share dev = db.share dev := by
  -- every table keeps the rows of the other devices
  cases h with
  | upsert lastSeen fields hid =>
    have hdevice : (db.upsertDevice other lastSeen fields).getDevice dev = db.getDevice dev := by
      rw [getDevice_upsertDevice db other dev lastSeen hid, if_neg hne.symm]
    have hrest : (db.upsertDevice other lastSeen fields).share dev =
        { db.share dev with device := (db.upsertDevice other lastSeen fields).getDevice dev } := by
      rw [share, share, upsertDevice]
      split <;> rfl
    rw [hrest, hdevice]
    rfl
  | setOnline online =>
    have hdevice : (db.setOnline other online).getDevice dev = db.getDevice dev := by
      rw [Database.setOnline, getDevice_map fun d => by split <;> rfl]
      rcases hget : db.getDevice dev with _ | d
      · rfl
      · rw [Option.map_some, if_neg]
        rw [getDevice_deviceId hget]
        exact hne
    show ({ db.share dev with device := (db.setOnline other online).getDevice dev } : DbShare F) = _
    rw [hdevice]
    rfl
  | newConfig telemetryHz logLevel _ _ rpm temp current now =>
    rw [share, share, newConfig]
    simp only [List.filter_append, List.filter_singleton, decide_eq_false hne.symm, cond_false,
      List.append_nil]
    rfl
  | updateConfig version fields hid =>
    have hrows : (db.updateConfig other version fields).configs.filter (·.deviceId = dev) =
        db.configs.filter (·.deviceId = dev) := by
      refine filter_map_others (fun c => ?_) fun c _ hdev => ?_
      · split
        · exact (hid c).1
        · rfl
      · exact if_neg fun hboth => hne (hdev.symm.trans hboth.1)
    show ({ db.share dev with configs := _ } : DbShare F) = _
    rw [hrows]
    rfl
  | fwJobCreate target fromVersion now =>
    rw [share, share, Database.fwJobCreate]
    simp only [List.filter_append, List.filter_singleton, decide_eq_false hne.symm, cond_false,
      List.append_nil]
    rfl
  | fwJobUpdate job hjob status now =>
    -- the job written is one of its own device
    have hmem := List.mem_reverse.mp (List.mem_of_find?_eq_some hjob)
    have hdev : job.deviceId = other := of_decide_eq_true
      (List.find?_some (p := fun j : JobRow F => decide (j.deviceId = other)) hjob)
    refine share_fwJobUpdate (fun j hj hid heq => hne ?_) status now
    rw [← heq, hk.eq_of_id hj hmem hid, hdev]

theorem share_faultInjectionAdd (setFlags clearFlags durationMs : Nat) :
    (db.faultInjectionAdd other setFlags clearFlags durationMs).share dev = db.share dev := by
  rw [share, share, faultInjectionAdd]
  simp only [List.filter_append, List.filter_singleton, decide_eq_false hne.symm, cond_false,
    List.append_nil]
  rfl

/-- It goes to a row of the device that has sent it. -/
theorem share_faultInjectionAck (hk : db.FaultsKeyed) (flags : Nat) :
    (db.faultInjectionAck other flags).share dev = db.share dev := by
  rw [faultInjectionAck]
  split
  · rfl
  · next r hr =>
    have hmem := List.mem_reverse.mp (List.mem_of_find?_eq_some hr)
    have hdev : r.deviceId = other := of_decide_eq_true
      (List.find?_some (p := fun f : FaultInjectionRow F => decide (f.deviceId = other)) hr)
    have hrows : (db.faultInjections.map fun f =>
        if f.id = r.id then { f with ackFlags := some flags } else f).filter (·.deviceId = dev) =
          db.faultInjections.filter (·.deviceId = dev) := by
      refine filter_map_others (fun f => by split <;> rfl) fun f hf hfdev => ?_
      refine if_neg fun hid => hne ?_
      rw [← hfdev, List.inj_on_of_nodup_map hk.ids hf hmem hid, hdev]
    show ({ db.share dev with faultInjections := _ } : DbShare F) = _
    rw [hrows]
    rfl

end Rows

end Database

/-! ## The engine -/

namespace Engine

/-- What is sound stays sound. -/
def StaysSound (s s' : Engine F) : Prop := s.Sound → s'.Sound

instance : IsPreorder (Engine F) (StaysSound (F := F)) where
  refl _ h := h
  trans _ _ _ h h' hs := h' (h hs)

theorem exists_other (dev : String) : ∃ d : String, d ≠ dev :=
  @exists_ne String ⟨"", "x", by decide⟩ dev

/-- It is enough to look at one other device. -/
theorem staysSound_of_others {dev : String} {α : Type} {m : EngineM F α}
    (h : ∀ d, d ≠ dev → Keeps (SameShare d) m) : Keeps StaysSound m := by
  obtain ⟨d, hd⟩ := exists_other dev
  exact fun s hs => ((h d hd s).2 hs).1

variable [PyFloat F]

/-- A tick keeps the tables in order. -/
theorem staysSound_tick (now clock : F) : Keeps StaysSound (tick now clock) := by
  rw [tick_eq]
  refine Keeps.get.bind fun s => (Keeps.ofExcept _).bind fun h => Keeps.bind ?_ fun _ =>
    Keeps.get.bind fun s => ?_
  · exact Keeps.forEach fun e _ => staysSound_of_others fun d hd =>
      keeps_sameShare_tickDevice hd now clock h
  · exact Keeps.forEach fun a _ => staysSound_of_others fun d hd =>
      keeps_sameShare_tickSweep hd now clock h

variable [PyText F]

/-- And so does every event of the engine. -/
theorem staysSound_handle (e : EngineEvent F) : Keeps StaysSound (handle e) := by
  intro s hs
  have halerts : (handle e s).2.db.AlertsKeyed := step_alertsKeyed e hs.alerts
  rcases hsource : e.source with _ | other
  · cases e with
    | telemetry | comm | offline | online => cases hsource
    | tick now clock => exact ((staysSound_tick now clock).bind fun _ => Keeps.pure _) s hs
    | restart => exact ⟨halerts, List.nodup_nil⟩
    | setRules | invalidateConfig | ackAlert | write => exact ⟨halerts, hs.distinct⟩
  · exact staysSound_of_others (fun d hd => keeps_sameShare_handle hd hsource) s hs

/-- The caches of another device are dropped. -/
theorem sameShare_invalidateConfig {dev other : String} (hne : dev ≠ other) :
    Keeps (SameShare (F := F) dev) (handle (.invalidateConfig other)) := by
  refine fun s => ⟨rfl, fun hs => ⟨⟨hs.alerts, hs.distinct⟩, ?_⟩⟩
  have hcfg : Dict.get? (Dict.pop s.configCache other) dev = Dict.get? s.configCache dev :=
    Dict.get?_pop_ne (.of_lawful other) (.of_lawful dev) hne.symm
  have hhw : Dict.get? (Dict.pop s.hwCache other) dev = Dict.get? s.hwCache dev :=
    Dict.get?_pop_ne (.of_lawful other) (.of_lawful dev) hne.symm
  show ({ s.share dev with
    config := Dict.get? (Dict.pop s.configCache other) dev
    hwModel := Dict.get? (Dict.pop s.hwCache other) dev } : Share F) = _
  rw [hcfg, hhw]
  rfl

end Engine

/-! ## Accounts -/

/-- What the backend keeps for a device. -/
structure Account (F : Type) where
  record : DeviceStats F
  writer : Option Nat
  share : Share F

namespace Ingest

/-- All ids are unique. -/
structure Keyed (s : Ingest F) : Prop where
  engine : s.engine.Sound
  jobs : s.db.JobsKeyed
  faults : s.db.FaultsKeyed

def account (s : Ingest F) (dev : String) : Account F where
  record := s.record dev
  writer := Dict.get? s.writers dev
  share := s.engine.share dev

/-- The account of a device stays as it is. -/
def SameAccount (dev : String) (s s' : Ingest F) : Prop :=
  s.Keyed → s'.Keyed ∧ s'.account dev = s.account dev

instance (dev : String) : IsPreorder (Ingest F) (SameAccount (F := F) dev) where
  refl _ h := ⟨h, rfl⟩
  trans _ _ _ h h' hk := by
    obtain ⟨hk', heq⟩ := h hk
    obtain ⟨hk'', heq'⟩ := h' hk'
    exact ⟨hk'', heq'.trans heq⟩

theorem Keyed.of_engine {s s' : Ingest F} (h : s.Keyed) (hengine : s'.engine = s.engine) :
    s'.Keyed := by
  have hdb : s'.db = s.db := by rw [db, db, hengine]
  exact ⟨hengine ▸ h.engine, hdb ▸ h.jobs, hdb ▸ h.faults⟩

theorem SameAccount.of_engine {dev : String} {s s' : Ingest F} (hengine : s'.engine = s.engine)
    (hrecord : s'.record dev = s.record dev)
    (hwriter : Dict.get? s'.writers dev = Dict.get? s.writers dev) :
    SameAccount dev s s' :=
  fun hk => ⟨hk.of_engine hengine, by rw [account, account, hengine, hrecord, hwriter]⟩

section Statements

variable [PyFloat F] [PyText F]

/-- The engine's own tables are no others'. -/
theorem Keyed.engineDo {s : Ingest F} (h : s.Keyed) {e : EngineEvent F} (he : ∀ db, e ≠ .write db) :
    (Ingest.engineDo e s).2.Keyed := by
  have hrest : (Engine.handle e s.engine).2.db.others = s.db.others :=
    Engine.keeps_sameTables_handle he s.engine
  have hjobs : (Engine.handle e s.engine).2.db.others.fwJobs = s.db.others.fwJobs ∧
      (Engine.handle e s.engine).2.db.others.nextJobId = s.db.others.nextJobId := by
    rw [hrest]
    exact ⟨rfl, rfl⟩
  have hfaults : (Engine.handle e s.engine).2.db.others.faultInjections =
      s.db.others.faultInjections ∧
      (Engine.handle e s.engine).2.db.others.nextFaultId = s.db.others.nextFaultId := by
    rw [hrest]
    exact ⟨rfl, rfl⟩
  have hkeyed : ({ s with engine := (Engine.handle e s.engine).2 } : Ingest F).Keyed :=
    ⟨Engine.staysSound_handle e s.engine h.engine, h.jobs.of_rows_eq hjobs.1 hjobs.2,
      h.faults.of_rows_eq hfaults.1 hfaults.2⟩
  have hend : (Ingest.engineDo e s).2 = { s with engine := (Engine.handle e s.engine).2 } :=
    bind_pure_state _ _ _
  rw [hend]
  exact hkeyed

/-- An event that leaves the share of a device leaves its account. -/
theorem sameAccount_engineDo {dev : String} {e : EngineEvent F} (he : ∀ db, e ≠ .write db)
    (hshare : Keeps (Engine.SameShare dev) (Engine.handle e)) :
    Keeps (SameAccount dev) (engineDo e) := by
  refine fun s hk => ⟨hk.engineDo he, ?_⟩
  have hend : (engineDo e s).2 = { s with engine := (Engine.handle e s.engine).2 } :=
    bind_pure_state _ _ _
  rw [hend]
  show (⟨s.record dev, Dict.get? s.writers dev, (Engine.handle e s.engine).2.share dev⟩ :
      Account F) = _
  rw [((hshare s.engine).2 hk.engine).2]
  rfl

/-- A write to the other tables. -/
theorem sameAccount_write {dev : String} {s : Ingest F} (db : Database F)
    (hjobs : s.db.JobsKeyed → db.JobsKeyed) (hfaults : s.db.FaultsKeyed → db.FaultsKeyed)
    (hshare : s.db.JobsKeyed → s.db.FaultsKeyed → db.share dev = s.db.share dev) :
    SameAccount dev s (engineDo (.write db) s).2 := by
  refine fun hk => ⟨⟨⟨?_, hk.engine.distinct⟩, (hjobs hk.jobs).of_rows_eq rfl rfl,
    (hfaults hk.faults).of_rows_eq rfl rfl⟩, ?_⟩
  · exact hk.engine.alerts.of_alerts_eq rfl rfl
  · show (⟨s.record dev, Dict.get? s.writers dev, { s.engine.share dev with
      rows := { db.share dev with alerts := (s.db.share dev).alerts } }⟩ : Account F) = _
    rw [hshare hk.jobs hk.faults]
    rfl

omit [PyFloat F] [PyText F] in
/-- A write keeps the ids apart. -/
theorem writeOf_keyed {dev : String} {db db' : Database F} (h : db.WriteOf dev db') :
    (db.JobsKeyed → db'.JobsKeyed) ∧ (db.FaultsKeyed → db'.FaultsKeyed) := by
  cases h with
  | upsert lastSeen fields hid =>
    have hrows : (db.upsertDevice dev lastSeen fields).fwJobs = db.fwJobs ∧
        (db.upsertDevice dev lastSeen fields).nextJobId = db.nextJobId := by
      rw [Database.upsertDevice]
      split <;> exact ⟨rfl, rfl⟩
    have hfaults : (db.upsertDevice dev lastSeen fields).faultInjections = db.faultInjections ∧
        (db.upsertDevice dev lastSeen fields).nextFaultId = db.nextFaultId := by
      rw [Database.upsertDevice]
      split <;> exact ⟨rfl, rfl⟩
    exact ⟨fun hk => hk.of_rows_eq hrows.1 hrows.2, fun hk => hk.of_rows_eq hfaults.1 hfaults.2⟩
  | fwJobCreate target fromVersion now =>
    exact ⟨fun hk => hk.fwJobCreate _ _ _ _, fun hk => hk.of_rows_eq rfl rfl⟩
  | fwJobUpdate job hjob status now =>
    exact ⟨fun hk => hk.fwJobUpdate _ _ _, fun hk => hk.of_rows_eq rfl rfl⟩
  | _ => exact ⟨fun hk => hk.of_rows_eq rfl rfl, fun hk => hk.of_rows_eq rfl rfl⟩

/-- A statement for another device. -/
theorem deviceFrame_sameAccount {dev other : String} (hne : dev ≠ other) :
    DeviceFrame (SameAccount (F := F) dev) other where
  touch s s' h := by
    -- an event of the other device
    have hsource : ∀ {e : EngineEvent F}, e.source = some other → (∀ db, e ≠ .write db) →
        SameAccount dev s (engineDo e s).2 := fun he hw =>
      sameAccount_engineDo hw (Engine.keeps_sameShare_handle hne he) s
    -- one case for each thing that a handler of the other device does
    cases h with
    | st =>
      obtain ⟨stats, hrun, hrecord⟩ := st_run other s
      rw [hrun]
      exact .of_engine rfl (hrecord dev) rfl
    | modifySt f hlink =>
      obtain ⟨stats, hrun, hrecord⟩ := modifySt_run other f s
      rw [hrun]
      exact .of_engine rfl ((hrecord dev).trans (if_neg hne)) rfl
    | telemetry hdr t now clock loss => exact hsource (e := .telemetry _ _ _ _ _) rfl nofun
    | online now clock => exact hsource (e := .online _ _ _) rfl nofun
    | offline now clock => exact hsource (e := .offline _ _ _) rfl nofun
    | invalidate =>
      exact sameAccount_engineDo (e := .invalidateConfig other) nofun
        (Engine.sameShare_invalidateConfig hne) s
    | write h =>
      exact sameAccount_write _ (writeOf_keyed h).1 (writeOf_keyed h).2 fun hjobs _ =>
        Database.share_writeOf hne hjobs h
    | wrote w => exact .of_engine rfl rfl rfl
    | suspend task => exact .of_engine rfl rfl rfl
    | note n => exact .of_engine rfl rfl rfl

/-- An acknowledgement of another device. -/
theorem sameAccount_faultInjectionAck {dev other : String} (hne : dev ≠ other) (flags : Nat) :
    Keeps (SameAccount dev)
      (Ingest.modifyDb fun db : Database F => db.faultInjectionAck other flags) := by
  intro s
  refine sameAccount_write (s.db.faultInjectionAck other flags) (fun hk => ?_)
    (fun hk => hk.ack other flags) fun _ hk => Database.share_faultInjectionAck hne hk flags
  rw [Database.faultInjectionAck]
  split
  · exact hk
  · exact hk.of_rows_eq rfl rfl

theorem sameAccount_faultInjectionAdd {dev other : String} (hne : dev ≠ other)
    (setFlags clearFlags durationMs : Nat) : Keeps (SameAccount dev) (Ingest.modifyDb
      fun db : Database F => db.faultInjectionAdd other setFlags clearFlags durationMs) := fun s =>
  sameAccount_write (s.db.faultInjectionAdd other setFlags clearFlags durationMs)
    (fun hk => hk.of_rows_eq rfl rfl) (fun hk => hk.add _ _ _ _)
    fun _ _ => Database.share_faultInjectionAdd hne _ _ _

end Statements

/-! ## Every state reached is keyed -/

section Keyed

variable [PyFloat F] [PyText F]

/-- What is keyed stays keyed. -/
def StaysKeyed (s s' : Ingest F) : Prop := s.Keyed → s'.Keyed

omit [PyFloat F] [PyText F] in
instance : IsPreorder (Ingest F) (StaysKeyed (F := F)) where
  refl _ h := h
  trans _ _ _ h h' hs := h' (h hs)

omit [PyFloat F] [PyText F] in
/-- `_persist_stats` writes one table. -/
theorem saveStats_rest (stats : Dict String (DeviceStats F)) (db : Database F) :
    ∃ rows, stats.foldl (fun db e => db.saveStats (e.2.statsRow e.1)) db =
      { db with deviceStats := rows } := by
  induction stats generalizing db with
  | nil => exact ⟨db.deviceStats, rfl⟩
  | cons e stats ih =>
    obtain ⟨rows, hrows⟩ := ih (db.saveStats (e.2.statsRow e.1))
    obtain ⟨rows', hone⟩ : ∃ rows,
        db.saveStats (e.2.statsRow e.1) = { db with deviceStats := rows } := by
      rw [Database.saveStats]
      split <;> exact ⟨_, rfl⟩
    exact ⟨rows, by rw [List.foldl_cons, hrows, hone]⟩

/-- Every statement and every request keeps the ids apart. -/
theorem eventFrame_staysKeyed : EventFrame (StaysKeyed (F := F)) where
  device dev := ⟨fun s s' h => by
    obtain ⟨d, hd⟩ := Engine.exists_other dev
    exact fun hk => ((deviceFrame_sameAccount hd).touch s s' h hk).1⟩
  fleet s s' h := by
    cases h with
    | tick now clock => exact fun hk => hk.engineDo (e := .tick now clock) nofun
    | ackAlert aid clock => exact fun hk => hk.engineDo (e := .ackAlert aid clock) nofun
    | firmwareAdd version notes sizeBytes crc now =>
      exact fun hk => ⟨⟨hk.engine.alerts.of_alerts_eq rfl rfl, hk.engine.distinct⟩,
        hk.jobs.of_rows_eq rfl rfl, hk.faults.of_rows_eq rfl rfl⟩
    | saveStats =>
      obtain ⟨rows, hrows⟩ := saveStats_rest s.stats s.db
      rw [hrows]
      exact fun hk => ⟨⟨hk.engine.alerts.of_alerts_eq rfl rfl, hk.engine.distinct⟩,
        hk.jobs.of_rows_eq rfl rfl, hk.faults.of_rows_eq rfl rfl⟩
    | fwJobUpdate jid status now =>
      exact fun hk => ⟨⟨hk.engine.alerts.of_alerts_eq rfl rfl, hk.engine.distinct⟩,
        (hk.jobs.fwJobUpdate jid status now).of_rows_eq rfl rfl, hk.faults.of_rows_eq rfl rfl⟩
  lost c s hk := hk.of_engine rfl
  registerFirst c f s hk := hk.of_engine (keeps_sameEngine_registerFirst c f s)
  endHandler c s hk := hk.of_engine (keeps_sameEngine_endHandler c s)
  resume s i hk := hk.of_engine rfl
  restart s hk := (hk.engineDo (e := .restart) nofun).of_engine rfl

omit [PyText F] in
theorem keyed_load : (load (Engine.init (F := F) {})).Keyed where
  engine := (Engine.isolated_fresh {} "").1.sound
  jobs := ⟨nofun, List.nodup_nil⟩
  faults := ⟨nofun, List.nodup_nil⟩

/-- In every state reached all ids are unique. -/
theorem run_keyed (events : List (Event F)) : (Ingest.run events).Keyed := by
  refine exec_invariant (P := Keyed) (fun s e hk => ?_) keyed_load
  refine eventFrame_staysKeyed.handle e ?_ ?_ ?_ s hk
  · intro c f clock _ p _ s hk
    obtain ⟨d, hd⟩ := Engine.exists_other f.deviceId
    exact (sameAccount_faultInjectionAck hd p.activeFlags s hk).1
  · intro dev body clock _ setFlags clearFlags durationMs s hk
    obtain ⟨d, hd⟩ := Engine.exists_other dev
    exact (sameAccount_faultInjectionAdd hd setFlags clearFlags durationMs s hk).1
  · exact fun rules _ s hk => hk.engineDo (e := .setRules rules) nofun

end Keyed

/-! ## Events of one device -/

section Events

variable [PyFloat F] [PyText F]

/-- The account of a device stays as it is, and no connection changes. -/
def Aside (dev : String) (s s' : Ingest F) : Prop := SameAccount dev s s' ∧ SameRegistry s s'

omit [PyFloat F] [PyText F] in
instance (dev : String) : IsPreorder (Ingest F) (Aside (F := F) dev) where
  refl s := ⟨refl_of (SameAccount dev) s, refl_of SameRegistry s⟩
  trans _ _ _ h h' := ⟨trans_of (SameAccount dev) h.1 h'.1, trans_of SameRegistry h.2 h'.2⟩

theorem deviceFrame_aside {dev other : String} (hne : dev ≠ other) :
    DeviceFrame (Aside (F := F) dev) other where
  touch s s' h := ⟨(deviceFrame_sameAccount hne).touch s s' h,
    (fleetFrame_sameRegistry.device other).touch s s' h⟩

theorem aside_dispatch {dev : String} {f : Frame} (hne : dev ≠ f.deviceId)
    (c : Nat) (clock : Clock F) :
    Keeps (Aside dev) (dispatch c f clock) :=
  (deviceFrame_aside hne).dispatch (fun p _ s =>
    ⟨sameAccount_faultInjectionAck hne p.activeFlags s, keeps_sameRegistry_modifyDb _ s⟩) c clock

theorem aside_faultInject {dev other : String} (hne : dev ≠ other) (body : FaultBody)
    (clock : Clock F) :
    Keeps (Aside dev) (faultInject other body clock) :=
  (deviceFrame_aside hne).faultInject (fun setFlags clearFlags durationMs s =>
    ⟨sameAccount_faultInjectionAdd hne setFlags clearFlags durationMs s,
      keeps_sameRegistry_modifyDb _ s⟩) body clock

/-- An update of a job that is not the device's. -/
theorem aside_fwJobUpdate {dev : String} {jid : Nat} {s : Ingest F}
    (hjid : ∀ job ∈ s.db.fwJobs, job.id = jid → job.deviceId ≠ dev) (status : String) (now : F) :
    Aside dev s (modifyDb (fun db => db.fwJobUpdate jid status now) s).2 := by
  refine ⟨?_, keeps_sameRegistry_modifyDb _ s⟩
  exact sameAccount_write (s.db.fwJobUpdate jid status now) (fun hk => hk.fwJobUpdate _ _ _)
    (fun hk => hk.of_rows_eq rfl rfl) fun _ _ => Database.share_fwJobUpdate hjid status now

omit [PyFloat F] [PyText F] in
/-- `send` does not touch the engine. -/
theorem keeps_sameEngine_write (dev : String) (payload : Payload) (clock : Clock F) :
    Keeps SameEngine (write dev payload clock) := by
  refine Keeps.get.bind fun s => ?_
  split
  · exact Keeps.pure _
  · refine (keeps_sameEngine_modifySt _ _).bind fun _ => Keeps.bind (fun s => ?_) fun r => ?_
    · rw [st]
      split <;> rfl
    · dsimp only
      exact (Keeps.ofExcept _).bind fun _ => Keeps.bind (Keeps.modify fun _ => rfl) fun _ =>
        Keeps.pure _

/-- A deploy for another device. -/
theorem aside_firmwareDeploy {dev other : String} (hne : dev ≠ other) (version : String)
    (clock : Clock F) {s : Ingest F} (hk : s.Keyed) :
    Aside dev s (firmwareDeploy other version clock s).2 := by
  have h : DeviceFrame (Aside (F := F) dev) other := deviceFrame_aside hne
  rw [firmwareDeploy, bind_run_ok (get_run s)]
  rcases s.db.getDevice other with _ | d
  · exact refl_of (Aside dev) s
  rcases s.db.firmwareGet version with _ | fw
  · exact refl_of (Aside dev) s
  dsimp only
  -- the new job is the only one with its id
  obtain ⟨s₁, hrun, hdb⟩ : ∃ s₁,
      modifyDb (fun db => db.fwJobCreate other version d.fwVersion clock.now) s = (.ok (), s₁) ∧
      s₁.db.fwJobs = (s.db.fwJobCreate other version d.fwVersion clock.now).fwJobs :=
    ⟨_, rfl, rfl⟩
  have hcreate := h.modifyDb (f := fun db => db.fwJobCreate other version d.fwVersion clock.now)
    (fun _ => .fwJobCreate _ _ _) s
  rw [hrun] at hcreate
  have hjid : ∀ job ∈ s₁.db.fwJobs, job.id = s.db.nextJobId → job.deviceId ≠ dev := by
    intro job hjob hid
    rw [hdb] at hjob
    rcases List.mem_append.mp hjob with hjob | hjob
    · exact absurd (hk.jobs.fresh job hjob) (by rw [hid]; exact Nat.lt_irrefl _)
    · rw [List.mem_singleton.mp hjob]
      exact hne.symm
  rw [bind_run_ok hrun, bind_run_ok (note_run _ s₁)]
  refine trans_of (Aside dev) hcreate
    (trans_of (Aside dev) (h.note (.deployed s.db.nextJobId) s₁) ?_)
  obtain ⟨s₂, hs₂, hdb₂⟩ : ∃ s₂ : Ingest F,
      { s₁ with history := s₁.history ++ [.deployed s.db.nextJobId] } = s₂ ∧ s₂.db = s₁.db :=
    ⟨_, rfl, rfl⟩
  rw [note_run, hs₂, bind_run]
  have hwrite := h.write (.fwUpdate fw.fwUpdate) clock s₂
  have hengine := keeps_sameEngine_write other (.fwUpdate fw.fwUpdate) clock s₂
  rcases hrun : write other (.fwUpdate fw.fwUpdate) clock s₂ with ⟨_ | written, s₃⟩
  · rw [hrun] at hwrite
    exact hwrite
  · rw [hrun] at hwrite hengine
    refine trans_of (Aside dev) hwrite ?_
    dsimp only
    cases written with
    | true => exact h.suspend _ s₃
    | false =>
      refine aside_fwJobUpdate ?_ _ _
      have hdb₃ : s₃.db = s₁.db := (congrArg Engine.db hengine).trans hdb₂
      rw [hdb₃]
      exact hjid

/-! ## Registration and teardown -/

omit [PyFloat F] [PyText F] in
/-- A registration closes the writer it takes the place of, and no other. -/
theorem registerFirst_conns {c k : Nat} {f : Frame} {s : Ingest F} (hk : k ≠ c)
    (hold : Dict.get? s.writers f.deviceId ≠ some k) [PyFloat F] :
    (registerFirst c f s).2.conn k = s.conn k := by
  rw [registerFirst, bind_run_ok (get_run s)]
  rcases (s.conn c).deviceId with _ | d
  · dsimp only
    obtain ⟨conns₁, hrun₁, hconn₁⟩ :=
      modifyConn_run c (fun k => { k with deviceId := some f.deviceId }) s
    obtain ⟨s₁, hs₁⟩ : ∃ s₁ : Ingest F, s₁ = { s with conns := conns₁ } := ⟨_, rfl⟩
    have hwriters₁ : s₁.writers = s.writers := by rw [hs₁]
    have hsame : s₁.conn k = s.conn k := by
      rw [hs₁]
      exact (hconn₁ k).trans (if_neg hk)
    rw [bind_run_ok hrun₁, ← hs₁, register, bind_run_ok (get_run s₁)]
    dsimp only
    -- the writer that is closed is the registered one, so another connection
    obtain ⟨conns, hclose, hconn⟩ : ∃ conns,
        close ((Dict.get? s₁.writers f.deviceId).filter (· ≠ c)) s₁ =
        (.ok (), { s₁ with conns := conns }) ∧ (Dict.get? conns k).getD {} = s₁.conn k := by
      rcases hfilter : (Dict.get? s₁.writers f.deviceId).filter (· ≠ c) with _ | old
      · exact ⟨s₁.conns, rfl, rfl⟩
      · obtain ⟨hget, -⟩ := Option.filter_eq_some_iff.mp hfilter
        obtain ⟨conns, hrun, hconn⟩ := modifyConn_run old (fun k => { k with closing := true }) s₁
        refine ⟨conns, hrun, (hconn k).trans (if_neg ?_)⟩
        rintro rfl
        exact hold (hwriters₁ ▸ hget)
    rw [bind_run_ok hclose]
    -- the record and the registry are no connections
    obtain ⟨stats, hrun, -⟩ := modifySt_run f.deviceId (fun r =>
      { r with
        reconnects := if r.framesRx ≠ 0 ∨ (Dict.get? s₁.writers f.deviceId).isSome ∨
          r.lastSeen.any (fun t => !PyFloat.eqInt t 0) then r.reconnects + 1 else r.reconnects
        tcpConnected := true }) { s₁ with conns := conns }
    rw [bind_run_ok hrun, modify_run]
    exact hconn.trans hsame
  · rfl

/-- The connections of a device stay as they are. -/
def SameConns (dev : String) (s s' : Ingest F) : Prop :=
  ∀ k, (s.conn k).deviceId = some dev → s'.conn k = s.conn k

omit [PyFloat F] [PyText F] in
theorem SameConns.trans {dev : String} {s s' s'' : Ingest F} (h : SameConns dev s s')
    (h' : SameConns dev s' s'') : SameConns dev s s'' := fun k hk =>
  (h' k (by rw [h k hk]; exact hk)).trans (h k hk)

omit [PyFloat F] [PyText F] in
theorem SameConns.of_eq {dev : String} {s s' : Ingest F} (h : s'.conns = s.conns) :
    SameConns dev s s' := fun k _ => by rw [conn, conn, h]

/-- The account of a device and its connections. -/
def Undisturbed (dev : String) (s s' : Ingest F) : Prop := SameAccount dev s s' ∧ SameConns dev s s'

omit [PyFloat F] [PyText F] in
theorem Undisturbed.refl (dev : String) (s : Ingest F) : Undisturbed dev s s :=
  ⟨refl_of (SameAccount dev) s, .of_eq rfl⟩

omit [PyFloat F] [PyText F] in
theorem Undisturbed.trans {dev : String} {s s' s'' : Ingest F} (h : Undisturbed dev s s')
    (h' : Undisturbed dev s' s'') : Undisturbed dev s s'' :=
  ⟨trans_of (SameAccount dev) h.1 h'.1, h.2.trans h'.2⟩

omit [PyFloat F] [PyText F] in
theorem Aside.undisturbed {dev : String} {s s' : Ingest F} (h : Aside dev s s') :
    Undisturbed dev s s' := ⟨h.1, .of_eq h.2.conns⟩

omit [PyText F] in
/-- A registration of another device closes none of this one's connections. -/
theorem undisturbed_registerFirst {dev : String} {c : Nat} {f : Frame} {s : Ingest F}
    (hne : dev ≠ f.deviceId) (hwriter : ∀ k, Dict.get? s.writers f.deviceId = some k →
      (s.conn k).deviceId = some f.deviceId) : Undisturbed dev s (registerFirst c f s).2 := by
  by_cases hfirst : (s.conn c).deviceId = none
  · have hreg := registerFirst_spec (f := f) hfirst
    refine ⟨.of_engine (keeps_sameEngine_registerFirst c f s) ?_ ?_, fun k hk => ?_⟩
    · rw [hreg.record, if_neg hne]
    · rw [hreg.writers, Dict.get?_set_ne (.of_lawful f.deviceId) (.of_lawful dev) hne.symm]
    · refine registerFirst_conns (fun hkc => ?_) fun hget => ?_
      · rw [hkc, hfirst] at hk
        cases hk
      · rw [hwriter k hget] at hk
        exact hne (Option.some.inj hk).symm
  · have hsame : (registerFirst c f s).2 = s := by
      obtain ⟨d, hd⟩ := Option.ne_none_iff_exists'.mp hfirst
      rw [registerFirst, bind_run_ok (get_run s), hd]
      rfl
    rw [hsame]
    exact .refl dev s

omit [PyFloat F] [PyText F] in
/-- The connection of another device ends. -/
theorem undisturbed_endHandler {dev : String} {c : Nat} {s : Ingest F}
    (hne : (s.conn c).deviceId ≠ some dev) : Undisturbed dev s (endHandler c s).2 := by
  have htorn := endHandler_spec c s
  refine ⟨?_, fun k hk => htorn.others k fun hkc => hne (hkc ▸ hk)⟩
  have hengine := keeps_sameEngine_endHandler c s
  rcases htorn.registry with ⟨hwriters, hrecord⟩ | ⟨d, hd, -, -, hwriters, hrecord⟩
  · exact .of_engine hengine (hrecord dev) (by rw [hwriters])
  · have hother : dev ≠ d := fun heq => hne (heq ▸ hd)
    refine .of_engine hengine ((hrecord dev).trans (if_neg hother)) ?_
    rw [hwriters]
    exact Dict.get?_pop_ne (.of_lawful d) (.of_lawful dev) hother.symm

omit [PyFloat F] [PyText F] in
/-- An exception ends the handler of the connection. -/
theorem undisturbed_guarded {dev : String} {c : Option Nat} {m : IngestM F Unit} {s s₀ : Ingest F}
    (hm : Undisturbed dev s (m s₀).2)
    (hne : ∀ k, c = some k → ((m s₀).2.conn k).deviceId ≠ some dev) :
    Undisturbed dev s (guarded c m s₀).2 := by
  cases c with
  | none => exact hm
  | some c =>
    rw [guarded, Proc.onError]
    rcases hrun : m s₀ with ⟨_ | _, s'⟩
    · rw [hrun] at hm hne
      exact hm.trans (undisturbed_endHandler (hne c rfl))
    · rw [hrun] at hm
      exact hm

/-! ## Every event -/

/-- The coroutine goes on for a device. -/
def worksFor (s : Ingest F) (dev : String) : Waiting → Prop
  | .helloConfig c d _ _ => d = dev ∨ (s.conn c).deviceId = some dev
  | .helloFw c => (s.conn c).deviceId = some dev
  | .putConfig d _ => d = dev
  | .deploy jid => ∃ job ∈ s.db.fwJobs, job.id = jid ∧ job.deviceId = dev

/-- The event is one of a device, or one of the fleet. -/
def touches (s : Ingest F) (dev : String) : Event F → Prop
  | .datagram data _ => ∃ hdr, Header.unpack data = .ok hdr ∧ hdr.deviceId = dev
  | .frame _ f _ => f.deviceId = dev
  | .lost c => (s.conn c).deviceId = some dev
  | .ended c => (s.conn c).deviceId = some dev
  | .drained i _ _ => ∃ task, s.waiting[i]? = some task ∧ s.worksFor dev task
  | .putConfig d _ _ => d = dev
  | .firmwareDeploy d _ _ => d = dev
  | .faultInject d _ _ => d = dev
  | .deviceCmd d _ _ => d = dev
  | .ackAlert aid _ => ∃ a ∈ s.db.alerts, a.id = aid ∧ a.deviceId = dev
  | .deviceView _ => False
  | .devices => False
  | .firmwareAdd _ _ => False
  | _ => True

/-- A datagram of another device. -/
theorem aside_onDatagram {dev : String} {data : List Byte} (clock : Clock F)
    (hne : ∀ hdr, Header.unpack data = .ok hdr → dev ≠ hdr.deviceId) :
    Keeps (Aside dev) (onDatagram data clock) := by
  rw [onDatagram]
  split
  · exact Keeps.pure ()
  · next hdr hunpack =>
    have h : DeviceFrame (Aside (F := F) dev) hdr.deviceId := deviceFrame_aside (hne hdr hunpack)
    refine h.st.bind fun _ => ?_
    split
    · exact h.modifySt fun _ => by exact ⟨rfl, rfl⟩
    · next f hdecode =>
      have hheader : f.header = hdr :=
        (Except.ok.inj (hunpack.symm.trans (decode_eq_ok hdecode).1)).symm
      split
      · refine DeviceFrame.handleTelemetry ?_ _ clock
        rw [hheader]
        exact h
      · exact Keeps.pure ()

omit [PyFloat F] [PyText F] in
/-- Reading makes no difference. -/
theorem aside_deviceView (dev other : String) : Keeps (Aside (F := F) dev) (deviceView other) := by
  refine Keeps.get.bind fun s => Keeps.ite (fun _ => ?_) fun _ => Keeps.pure ()
  refine Keeps.bind (fun s => ⟨?_, keeps_sameRegistry_st other s⟩) fun _ => Keeps.pure ()
  obtain ⟨stats, hrun, hrecord⟩ := st_run other s
  rw [hrun]
  exact .of_engine rfl (hrecord dev) rfl

/-- An alert of another device acknowledged. -/
theorem aside_ackAlert {dev : String} {aid : Nat} {s : Ingest F}
    (hne : ∀ a ∈ s.db.alerts, a.id = aid → a.deviceId ≠ dev) (clock : F) :
    Aside dev s (engineDo (.ackAlert aid clock) s).2 := by
  refine ⟨fun hk => ⟨hk.engineDo nofun, ?_⟩, keeps_sameRegistry_engineDo _ s⟩
  have hrows : (s.db.ackAlert aid clock).share dev = s.db.share dev := by
    rw [Database.ackAlert]
    split
    · rfl
    · split
      · have halerts : (s.db.updateAlert aid clock fun a =>
            { a with status := .acked, ackedAt := some clock }).alerts.filter (·.deviceId = dev) =
              s.db.alerts.filter (·.deviceId = dev) := by
          refine Database.filter_map_others (fun a => by split <;> rfl) fun a ha hdev => ?_
          exact if_neg fun hid => hne a ha hid hdev
        show ({ s.db.share dev with alerts := _ } : DbShare F) = _
        rw [halerts]
        rfl
      · rfl
  show (⟨s.record dev, Dict.get? s.writers dev, { s.engine.share dev with
    stored := (s.db.ackAlert aid clock).rules
    rows := (s.db.ackAlert aid clock).share dev }⟩ : Account F) = _
  rw [hrows, Database.ackAlert_rules]
  rfl

/-- A writer is that of a connection of its device. -/
def WritersOwn (s : Ingest F) : Prop :=
  ∀ d k, Dict.get? s.writers d = some k → (s.conn k).deviceId = some d

/-- An event of another device. -/
theorem step_undisturbed {dev : String} {s : Ingest F} (hk : s.Keyed) (hown : s.WritersOwn)
    {e : Event F} (hnot : ¬ s.touches dev e) : Undisturbed dev s (s.step e) := by
  cases e with
  | datagram data clock =>
    have hne : ∀ hdr, Header.unpack data = .ok hdr → dev ≠ hdr.deviceId :=
      fun hdr hhdr heq => hnot ⟨hdr, hhdr, heq.symm⟩
    exact (aside_onDatagram clock hne s).undisturbed
  | frame c f clock =>
    have hne : dev ≠ f.deviceId := fun heq => hnot heq.symm
    show Undisturbed dev s (onFrame c f clock s).2
    by_cases htakes : s.takes c f.deviceId = true
    · rw [onFrame_run htakes]
      have hfirst : Undisturbed dev s (registerFirst c f s).2 :=
        undisturbed_registerFirst hne fun k hget => hown f.deviceId k hget
      have hdispatch := aside_dispatch hne c clock (registerFirst c f s).2
      rw [← takeFrame_run htakes clock] at hdispatch
      refine undisturbed_guarded (hfirst.trans hdispatch.undisturbed) fun k hkc => ?_
      obtain rfl := Option.some.inj hkc
      -- the connection is of the device it has registered
      have hdevice : ((registerFirst c f s).2.conn c).deviceId = some f.deviceId := by
        rcases hid : (s.conn c).deviceId with _ | d
        · exact (registerFirst_spec hid).own.1
        · have hsame : (registerFirst c f s).2 = s := by
            rw [registerFirst, bind_run_ok (get_run s), hid]
            rfl
          simp only [takes, hid, Option.all_some, Bool.and_eq_true, decide_eq_true_eq] at htakes
          rw [hsame, hid, htakes.2]
      have hconn : ((takeFrame c f clock s).2.conn c) = (registerFirst c f s).2.conn c := by
        rw [conn, conn, hdispatch.2.conns]
      rw [hconn, hdevice]
      exact fun heq => hne (Option.some.inj heq).symm
    · rw [onFrame_of_not_takes htakes]
      exact .refl dev s
  | lost c =>
    obtain ⟨conns, hrun, hconn⟩ := modifyConn_run c (fun k => { k with closing := true }) s
    show Undisturbed dev s (modifyConn c _ s).2
    rw [hrun]
    refine ⟨.of_engine rfl rfl rfl, fun k hkdev => (hconn k).trans (if_neg fun hkc => hnot ?_)⟩
    show (s.conn c).deviceId = some dev
    rw [← hkc]
    exact hkdev
  | ended c =>
    show Undisturbed dev s (onEnded c s).2
    rw [onEnded, bind_run_ok (get_run s)]
    split
    · exact .refl dev s
    · exact undisturbed_endHandler hnot
  | drained i ok clock =>
    show Undisturbed dev s (onDrained i ok clock s).2
    rw [onDrained, bind_run_ok (get_run s)]
    rcases htask : s.waiting[i]? with _ | task
    · exact .refl dev s
    dsimp only
    rw [modify_bind_run]
    obtain ⟨s₁, hs₁, hengine, hconns⟩ : ∃ s₁ : Ingest F,
        { s with waiting := s.waiting.eraseIdx i } = s₁ ∧
        s₁.engine = s.engine ∧ s₁.conns = s.conns := ⟨_, rfl, rfl, rfl⟩
    have hresume : Aside dev s s₁ := by
      rw [← hs₁]
      exact ⟨.of_engine rfl rfl rfl, .of_eq rfl rfl rfl⟩
    rw [hs₁]
    have hworks : ¬ s.worksFor dev task := fun h => hnot ⟨task, htask, h⟩
    have hgo : Aside dev s₁ (goOn task ok clock s₁).2 := by
      cases task with
      | helloConfig c d hello version =>
        have h : DeviceFrame (Aside (F := F) dev) d :=
          deviceFrame_aside fun heq => hworks (.inl heq.symm)
        exact ((h.pushConfigDone version ok).bind fun _ => h.afterHelloJob c hello clock) s₁
      | helloFw c => exact refl_of (Aside dev) s₁
      | putConfig d version =>
        have h : DeviceFrame (Aside (F := F) dev) d := deviceFrame_aside fun heq => hworks heq.symm
        exact h.pushConfigDone version ok s₁
      | deploy jid =>
        refine aside_fwJobUpdate (fun job hjob hid hdev => hworks ⟨job, ?_, hid, hdev⟩) _ _
        rw [db, ← hengine]
        exact hjob
    refine undisturbed_guarded (hresume.undisturbed.trans hgo.undisturbed) fun k hk => ?_
    have hconn : ((goOn task ok clock s₁).2.conn k) = s.conn k := by
      rw [conn, conn, hgo.2.conns, hconns]
    rw [hconn]
    cases task with
    | helloConfig c d hello version =>
      obtain rfl := Option.some.inj hk
      exact fun hdev => hworks (.inr hdev)
    | helloFw c =>
      obtain rfl := Option.some.inj hk
      exact hworks
    | putConfig d version => cases hk
    | deploy jid => cases hk
  | deviceView d => exact (aside_deviceView dev d s).undisturbed
  | devices =>
    have h : Keeps (Aside (F := F) dev) Ingest.devices :=
      Keeps.get.bind fun _ => Keeps.forEach fun d _ => aside_deviceView dev d.deviceId
    exact (h s).undisturbed
  | putConfig d body clock =>
    exact ((deviceFrame_aside fun heq => hnot heq.symm).putConfig body clock s).undisturbed
  | firmwareAdd body clock =>
    have h : Keeps (Aside dev) (Ingest.firmwareAdd body clock) := by
      rw [Ingest.firmwareAdd]
      split
      · exact Keeps.pure ()
      · dsimp only
        split
        · exact Keeps.pure ()
        · refine Keeps.ite (fun _ s => ⟨?_, keeps_sameRegistry_modifyDb _ s⟩) fun _ => Keeps.raise _
          exact sameAccount_write _ (fun hk => hk.of_rows_eq rfl rfl)
            (fun hk => hk.of_rows_eq rfl rfl) fun _ _ => rfl
    exact (h s).undisturbed
  | firmwareDeploy d version clock =>
    exact (aside_firmwareDeploy (fun heq => hnot heq.symm) version clock hk).undisturbed
  | faultInject d body clock =>
    exact (aside_faultInject (fun heq => hnot heq.symm) body clock s).undisturbed
  | deviceCmd d body clock =>
    exact ((deviceFrame_aside fun heq => hnot heq.symm).deviceCmd body clock s).undisturbed
  | ackAlert aid clock =>
    exact (aside_ackAlert (fun a ha hid hdev => hnot ⟨a, ha, hid, hdev⟩) clock).undisturbed
  | offlinePass | persistStats | tick | restart | putRules => exact absurd trivial hnot

theorem run_writersOwn (events : List (Event F)) : (Ingest.run events).WritersOwn := by
  have h : RegistryRight (Roll.run events) :=
    exec_invariant (P := RegistryRight) (fun _ e h => h.step e) .start
  rw [← roll_ingest]
  exact fun d k hget => h.own d k (h.latest d k hget)

/-- While nothing happens that is the device's or the fleet's, its account stays what it
    is, and so do its connections. -/
theorem run_account {events later : List (Event F)} {dev : String}
    (h : AllSteps step (fun s e => ¬ s.touches dev e) (Ingest.run events) later) :
    (Ingest.run (events ++ later)).account dev = (Ingest.run events).account dev ∧
      ∀ k, ((Ingest.run events).conn k).deviceId = some dev →
        (Ingest.run (events ++ later)).conn k = (Ingest.run events).conn k := by
  induction later generalizing events with
  | nil =>
    rw [List.append_nil]
    exact ⟨rfl, fun _ _ => rfl⟩
  | cons e later ih =>
    have hstep : Undisturbed dev (Ingest.run events) ((Ingest.run events).step e) :=
      step_undisturbed (run_keyed events) (run_writersOwn events) h.1
    have hrun : Ingest.run (events ++ [e]) = (Ingest.run events).step e := exec_append [e]
    have hrest := @ih (events ++ [e]) (by rw [hrun]; exact h.2)
    rw [List.append_assoc, List.singleton_append, hrun] at hrest
    refine ⟨hrest.1.trans (hstep.1 (run_keyed events)).2, fun k hk => ?_⟩
    refine (hrest.2 k ?_).trans (hstep.2 k hk)
    rw [hstep.2 k hk]
    exact hk

end Events

/-! ## A run of two devices -/

/-- A second device connects and gets an update. -/
def secondUpdate : Ingest ℚ :=
  ((Ingest.run updateRun).step (.frame 1 (frameOf "ECU-2" (.hello
    { fwString := "1.0.0", hwModel := "SIM-ECU-1", telemetryHz := 10, configVersion := 1 }))
    (.stopped 6))).step (.firmwareDeploy "ECU-2" "1.1.0" (.stopped 7))

/-- It is sent, and the device goes. -/
def secondDevice : List (Event ℚ) :=
  [.frame 1 (frameOf "ECU-2" (.hello
     { fwString := "1.0.0", hwModel := "SIM-ECU-1", telemetryHz := 10, configVersion := 1 }))
     (.stopped 6),
   .firmwareDeploy "ECU-2" "1.1.0" (.stopped 7), .drained 0 true (.stopped 8), .ended 1]

/-- No event of the run touches the first device. -/
theorem secondDevice_apart :
    AllSteps step (fun s e => ¬ s.touches "ECU-1" e) (Ingest.run updateRun) secondDevice := by
  refine ⟨?_, ?_, ?_, ?_, trivial⟩
  · show ¬ "ECU-2" = "ECU-1"
    decide
  · show ¬ "ECU-2" = "ECU-1"
    decide
  · -- the coroutine is that of the second job
    show ¬ secondUpdate.touches "ECU-1" (.drained 0 true (.stopped 8))
    rintro ⟨task, htask, hworks⟩
    have hwaiting : secondUpdate.waiting[0]? = some (.deploy 2) := by decide +kernel
    obtain rfl := Option.some.inj (hwaiting.symm.trans htask)
    obtain ⟨job, hjob, hid, hdev⟩ := hworks
    have hall : ∀ job ∈ secondUpdate.db.fwJobs, job.id = 2 → job.deviceId ≠ "ECU-1" := by
      decide +kernel
    exact hall job hjob hid hdev
  · show ¬ ((secondUpdate.step (.drained 0 true (.stopped 8))).conn 1).deviceId = some "ECU-1"
    decide +kernel

/-- The update of the first is not disturbed by it. -/
theorem secondDevice_account :
    (Ingest.run (updateRun ++ secondDevice)).db.fwJobs.length = 2 ∧
      (Ingest.run (updateRun ++ secondDevice)).account "ECU-1" =
        (Ingest.run updateRun).account "ECU-1" :=
  ⟨by decide +kernel, (run_account secondDevice_apart).1⟩

end Ingest

end EcuTelemetry.Backend
