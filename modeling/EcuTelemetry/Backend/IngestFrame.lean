/-
  EcuTelemetry.Backend.IngestFrame

  What the procedures of `Ingest` leave alone, and what one event does to the
  pushes: `step_pushes` is the simulation by `Pushes.Step`.
-/

import EcuTelemetry.Backend.Pushes

namespace EcuTelemetry.Backend

open Proc Protocol

variable {F : Type}

/-! ## The engine -/

/-- The database without the tables the engine writes. -/
def Database.others (db : Database F) : Database F :=
  { db with alerts := [], nextAlertId := 1, rules := none }

theorem Database.pushTables_of_others {db db' : Database F} (h : db'.others = db.others) :
    db'.pushTables = db.pushTables := by
  change db'.others.pushTables = db.others.pushTables
  rw [h]

namespace Engine

/-- Only the engine's own tables differ. -/
def SameTables (s s' : Engine F) : Prop := s'.db.others = s.db.others

instance : IsPreorder (Engine F) (SameTables (F := F)) where
  refl _ := rfl
  trans _ _ _ h h' := Eq.trans h' h

/-- The rules in force are the same too. -/
def SameRulesTables (s s' : Engine F) : Prop := s'.rules = s.rules ∧ SameTables s s'

instance : IsPreorder (Engine F) (SameRulesTables (F := F)) where
  refl _ := ⟨rfl, rfl⟩
  trans _ _ _ h h' := ⟨h'.1.trans h.1, h'.2.trans h.2⟩

theorem SameRulesTables.of_db_eq {s s' : Engine F} (h : s'.db = s.db) (hr : s'.rules = s.rules) :
    SameRulesTables s s' := ⟨hr, by rw [SameTables, h]⟩

variable [PyFloat F]

theorem sampleFrame_sameTables (dev : String) (now clock : F) :
    SampleFrame (SameRulesTables (F := F)) (fun _ => True) dev now clock :=
  sampleFrame_of_create (fun _ _ h hr _ => .of_db_eq h hr) (fun _ _ => .of_db_eq rfl rfl)
    (fun _ _ h => h.1) (fun _ => trivial)
    fun _ _ _ _ _ _ _ _ _ _ => ⟨rfl, rfl⟩

theorem keeps_sameTables_resolve (now clock : F) (dev : String) (rule : Json F) :
    Keeps SameRulesTables (resolve dev rule now clock) :=
  keeps_resolve (fun _ _ h hr _ => .of_db_eq h hr) (fun _ _ => ⟨rfl, rfl⟩) dev rule

omit [PyFloat F] in
theorem ackAlert_others (db : Database F) (aid : Nat) (clock : F) :
    (db.ackAlert aid clock).others = db.others := by
  rw [Database.ackAlert]
  split
  · rfl
  · split <;> rfl

variable [PyText F]

/-- The engine writes no table but its own. -/
theorem keeps_sameTables_handle {e : EngineEvent F} (he : ∀ db, e ≠ .write db) :
    Keeps SameTables (handle e) := by
  have hnew : Keeps (SameRulesTables (F := F)) newSample :=
    Keeps.modify fun _ => .of_db_eq rfl rfl
  have hweak : ∀ s s' : Engine F, SameRulesTables s s' → SameTables s s' := fun _ _ h => h.2
  cases e with
  | telemetry dev t now clock loss =>
    refine Keeps.weaken (hnew.bind fun _ s => ?_) hweak
    exact (sampleFrame_sameTables dev now clock).onTelemetry t loss s (namesOk_true _)
  | comm dev loss now clock =>
    refine Keeps.weaken (hnew.bind fun _ => Keeps.bind ?_ fun _ => Keeps.pure _) hweak
    exact (sampleFrame_sameTables dev now clock).onComm loss
  | offline dev now clock =>
    refine Keeps.weaken (hnew.bind fun _ => Keeps.bind ?_ fun _ => Keeps.pure _) hweak
    exact keeps_onOffline (sampleFrame_sameTables dev now clock)
  | online dev now clock =>
    refine Keeps.weaken (Keeps.bind ?_ fun _ => Keeps.pure _) hweak
    exact keeps_onOnline (keeps_sameTables_resolve now clock) dev
  | tick now clock =>
    refine Keeps.weaken (Keeps.bind ?_ fun _ => Keeps.pure _) hweak
    exact keeps_tick (keeps_sameTables_resolve now clock)
      (keeps_st fun _ _ h hr _ => .of_db_eq h hr)
  | setRules rules => exact fun s => rfl
  | invalidateConfig dev => exact fun s => rfl
  | ackAlert aid clock => exact fun s => ackAlert_others s.db aid clock
  | restart => exact fun s => rfl
  | write db => exact absurd rfl (he db)

omit [PyFloat F] [PyText F] in
theorem noRaise_st (dev : String) : NoRaise (st (F := F) dev) := by
  intro s
  rw [st]
  split
  · exact ⟨_, rfl⟩
  · exact ⟨_, rfl⟩

omit [PyText F] in
/-- The name of the offline rule is a text. -/
theorem noRaise_onOnline (dev : String) (now clock : F) : NoRaise (onOnline dev now clock) := by
  refine NoRaise.get.bind fun s => NoRaise.ite (fun _ => ?_) fun _ => NoRaise.pure _
  refine NoRaise.bind (fun _ => ⟨some "offline", rfl⟩) fun r => NoRaise.get.bind fun s =>
    NoRaise.bind ?_ fun _ => ?_
  · exact (noRaise_st dev).bind fun _ => NoRaise.modify _
  · split
    · exact NoRaise.pure _
    · exact NoRaise.modify _

end Engine

/-! ## Writes beside the pushes -/

namespace Database

/-- The model of a device in the database. -/
def model (db : Database F) (dev : String) : Option String :=
  (db.getDevice dev).bind DeviceRow.hwModel

/-- A write to tables the pushes do not touch that keeps every hardware model. -/
structure Beside (db db' : Database F) : Prop where
  pushTables : db'.pushTables = db.pushTables
  model : ∀ dev, db'.model dev = db.model dev

theorem Beside.trans {db db' db'' : Database F} (h : Beside db db') (h' : Beside db' db'') :
    Beside db db'' :=
  ⟨h'.pushTables.trans h.pushTables, fun dev => (h'.model dev).trans (h.model dev)⟩

/-- Other tables than these two. -/
theorem Beside.of_eq {db db' : Database F} (h : db'.pushTables = db.pushTables)
    (hdevices : db'.devices = db.devices) : Beside db db' :=
  ⟨h, fun dev => by rw [Database.model, getDevice, hdevices]; rfl⟩

theorem upsertDevice_pushTables (db : Database F) (dev : String) (lastSeen : F)
    (fields : DeviceRow F → DeviceRow F) :
    (db.upsertDevice dev lastSeen fields).pushTables = db.pushTables := by
  rw [Database.upsertDevice]
  split <;> rfl

/-- A change of rows that keeps the ids. -/
theorem getDevice_map {db : Database F} {f : DeviceRow F → DeviceRow F}
    (hf : ∀ d, (f d).deviceId = d.deviceId) (dev : String) :
    Database.getDevice { db with devices := db.devices.map f } dev = (db.getDevice dev).map f := by
  rw [getDevice, getDevice, List.find?_map]
  congr 2
  funext d
  exact decide_eq_decide.mpr (by rw [hf d])

theorem getDevice_deviceId {db : Database F} {dev : String} {d : DeviceRow F}
    (h : db.getDevice dev = some d) : d.deviceId = dev := by
  simpa using List.find?_some h

/-- The row after an upsert: the fields over the row there was, or over an empty one. -/
theorem getDevice_upsertDevice (db : Database F) (dev dev' : String) (lastSeen : F)
    {fields : DeviceRow F → DeviceRow F} (hf : ∀ d, (fields d).deviceId = d.deviceId) :
    (db.upsertDevice dev lastSeen fields).getDevice dev' =
      if dev = dev' then
        some { fields ((db.getDevice dev).getD { deviceId := dev }) with lastSeen := some lastSeen }
      else db.getDevice dev' := by
  rw [Database.upsertDevice]
  -- ON CONFLICT: the row is there and takes the fields
  by_cases hany : db.devices.any (·.deviceId = dev) = true
  · rw [if_pos hany, getDevice_map fun d => by split <;> first | exact hf d | rfl]
    by_cases hdev : dev = dev'
    · subst hdev
      obtain ⟨d, hd⟩ :=
        Option.isSome_iff_exists.mp (List.find?_isSome.mpr (List.any_eq_true.mp hany))
      have hget : db.getDevice dev = some d := hd
      rw [if_pos rfl, hget, Option.map_some, if_pos (getDevice_deviceId hget), Option.getD_some]
    · rw [if_neg hdev]
      rcases hget : db.getDevice dev' with _ | d
      · rfl
      · rw [Option.map_some, if_neg fun h => hdev (h.symm.trans (getDevice_deviceId hget))]
  · -- a new row, behind the others
    have hnone : db.getDevice dev = none := by
      rw [getDevice, List.find?_eq_none]
      exact fun d hd h => hany (List.any_eq_true.mpr ⟨d, hd, h⟩)
    rw [if_neg hany, getDevice, List.find?_append, hnone, Option.getD_none, List.find?_singleton]
    by_cases hdev : dev = dev'
    · subst hdev
      have hfind : db.devices.find? (·.deviceId = dev) = none := hnone
      rw [hfind, if_pos rfl, Option.none_or, if_pos (decide_eq_true (hf _))]
    · rw [if_neg hdev, if_neg fun h => hdev ((hf _).symm.trans (of_decide_eq_true h)),
        Option.or_none]
      rfl

/-- An upsert that leaves the model is beside the tables of the rules. -/
theorem Beside.upsertDevice (db : Database F) (dev : String) (lastSeen : F)
    {fields : DeviceRow F → DeviceRow F}
    (hf : ∀ d, (fields d).deviceId = d.deviceId ∧ (fields d).hwModel = d.hwModel) :
    Beside db (db.upsertDevice dev lastSeen fields) := by
  refine ⟨upsertDevice_pushTables db dev lastSeen fields, fun dev' => ?_⟩
  rw [Database.model, getDevice_upsertDevice db dev dev' lastSeen fun d => (hf d).1, Database.model]
  split
  · next hdev =>
    subst hdev
    show (fields _).hwModel = _
    rw [(hf _).2]
    rcases db.getDevice dev with _ | d <;> rfl
  · rfl

/-- And so is the online flag. -/
theorem Beside.setOnline (db : Database F) (dev : String) (online : Bool) :
    Beside db (db.setOnline dev online) := by
  refine ⟨rfl, fun dev' => ?_⟩
  rw [Database.model, Database.setOnline, getDevice_map fun d => by split <;> rfl, Database.model]
  rcases db.getDevice dev' with _ | d
  · rfl
  · rw [Option.map_some]
    split <;> rfl

theorem Beside.saveStats (db : Database F) (r : StatsRow F) : Beside db (db.saveStats r) := by
  rw [Database.saveStats]
  split <;> exact .of_eq rfl rfl

theorem Beside.faultInjectionAck (db : Database F) (dev : String) (flags : Nat) :
    Beside db (db.faultInjectionAck dev flags) := by
  rw [Database.faultInjectionAck]
  split <;> exact .of_eq rfl rfl

end Database

/-! ## What is not about pushes -/

namespace Ingest

section NoRaise

theorem noRaise_st (dev : String) : NoRaise (st (F := F) dev) := by
  intro s
  rw [st]
  split
  · exact ⟨_, rfl⟩
  · exact ⟨_, rfl⟩

theorem noRaise_modifySt (dev : String) (f : DeviceStats F → DeviceStats F) :
    NoRaise (modifySt dev f) := (noRaise_st dev).bind fun _ => NoRaise.modify _

variable [PyFloat F]

theorem noRaise_register (dev : String) (c : Nat) : NoRaise (register (F := F) dev c) := by
  refine NoRaise.get.bind fun s => NoRaise.bind ?_ fun _ =>
    (noRaise_modifySt dev _).bind fun _ => NoRaise.modify _
  cases (Dict.get? s.writers dev).filter (· ≠ c) with
  | none => exact NoRaise.pure ()
  | some c => exact NoRaise.modify _

variable [PyText F]

theorem noRaise_modifyDb (f : Database F → Database F) : NoRaise (modifyDb f) := fun _ => ⟨(), rfl⟩

theorem noRaise_seen (dev : String) (clock : Clock F) : NoRaise (seen dev clock) := by
  refine (noRaise_modifySt dev _).bind fun _ => (noRaise_st dev).bind fun _ =>
    NoRaise.ite (fun _ => NoRaise.pure ()) fun _ => ?_
  refine (noRaise_modifySt dev _).bind fun _ => (noRaise_modifyDb _).bind fun _ => ?_
  refine NoRaise.bind (NoRaise.zoom ?_) fun _ => NoRaise.pure ()
  exact (Engine.noRaise_onOnline dev _ _).bind fun _ => NoRaise.pure _

end NoRaise

variable [PyFloat F] [PyText F]

/-- A relation closed under all that is neither a push nor a HELLO's news. -/
structure SideFrame (R : Ingest F → Ingest F → Prop) : Prop where
  memory : ∀ s s' : Ingest F, s'.engine = s.engine → s'.waiting = s.waiting →
    s'.history = s.history → R s s'
  engineDo : ∀ e : EngineEvent F, (∀ db, e ≠ .write db) → Keeps R (engineDo e)
  write : ∀ f : Database F → Database F, (∀ db : Database F, Database.Beside db (f db)) →
    Keeps R (modifyDb f)

namespace SideFrame

variable {R : Ingest F → Ingest F → Prop} [IsPreorder (Ingest F) R]

omit [IsPreorder (Ingest F) R] in
theorem st (h : SideFrame R) (dev : String) : Keeps R (Ingest.st dev) := by
  intro s
  rw [Ingest.st]
  split <;> exact h.memory _ _ rfl rfl rfl

theorem modifySt (h : SideFrame R) (dev : String) (f : DeviceStats F → DeviceStats F) :
    Keeps R (Ingest.modifySt dev f) :=
  (h.st dev).bind fun _ => Keeps.modify fun _ => h.memory _ _ rfl rfl rfl

omit [IsPreorder (Ingest F) R] in
theorem modifyConn (h : SideFrame R) (c : Nat) (f : Conn → Conn) :
    Keeps R (Ingest.modifyConn c f) := Keeps.modify fun _ => h.memory _ _ rfl rfl rfl

theorem close (h : SideFrame R) (c : Option Nat) : Keeps R (Ingest.close c) := by
  cases c with
  | none => exact Keeps.pure ()
  | some c => exact h.modifyConn c _

theorem register (h : SideFrame R) (dev : String) (c : Nat) : Keeps R (Ingest.register dev c) :=
  Keeps.get.bind fun _ => (h.close _).bind fun _ =>
    (h.modifySt dev _).bind fun _ => Keeps.modify fun _ => h.memory _ _ rfl rfl rfl

theorem endHandler (h : SideFrame R) (c : Nat) : Keeps R (Ingest.endHandler c) := by
  refine Keeps.get.bind fun s => (h.modifyConn c _).bind fun _ => ?_
  split
  · exact Keeps.pure ()
  · exact Keeps.bind (Keeps.modify fun _ => h.memory _ _ rfl rfl rfl) fun _ => h.modifySt _ _

theorem setOnline (h : SideFrame R) (dev : String) (online : Bool) (clock : F) :
    Keeps R (Ingest.setOnline dev online clock) := by
  refine (h.modifySt dev _).bind fun _ => Keeps.bind ?_ fun _ => ?_
  · exact h.write _ fun db => .setOnline db dev online
  · exact Keeps.ite (fun _ => h.engineDo _ nofun) fun _ => h.engineDo _ nofun

theorem seen (h : SideFrame R) (dev : String) (clock : Clock F) :
    Keeps R (Ingest.seen dev clock) :=
  (h.modifySt dev _).bind fun _ => (h.st dev).bind fun _ =>
    Keeps.ite (fun _ => Keeps.pure ()) fun _ => h.setOnline dev true _

theorem offlinePass (h : SideFrame R) (clock : Clock F) : Keeps R (Ingest.offlinePass clock) := by
  refine Keeps.get.bind fun s => Keeps.bind (Keeps.forEach fun e _ => ?_) fun _ =>
    Keeps.get.bind fun s => Keeps.forEach fun d _ => Keeps.get.bind fun s => ?_
  · exact Keeps.ite (fun _ => h.setOnline _ _ _) fun _ => Keeps.pure ()
  · exact Keeps.ite (fun _ => h.setOnline _ _ _) fun _ => Keeps.pure ()

theorem receiveTelemetry (h : SideFrame R) (hdr : Header) (clock : Clock F) :
    Keeps R (Ingest.receiveTelemetry hdr clock) := by
  refine (h.modifySt _ _).bind fun _ => (Keeps.ofExcept _).bind fun _ =>
    (h.modifySt _ _).bind fun _ => (h.st _).bind fun _ =>
    Keeps.bind ?_ fun _ => (h.seen _ _).bind fun _ => Keeps.pure _
  exact h.write _ fun db => .upsertDevice db _ _ fun _ => ⟨rfl, rfl⟩

theorem handleTelemetry (h : SideFrame R) (hdr : Header) (t : Telemetry) (clock : Clock F) :
    Keeps R (Ingest.handleTelemetry hdr t clock) :=
  (h.receiveTelemetry hdr clock).bind fun _ => h.engineDo _ nofun

/-- A datagram. -/
theorem onDatagram (h : SideFrame R) (data : List Byte) (clock : Clock F) :
    Keeps R (Ingest.onDatagram data clock) := by
  rw [Ingest.onDatagram]
  split
  · exact Keeps.pure ()
  · refine (h.st _).bind fun _ => ?_
    split
    · exact h.modifySt _ _
    · split
      · exact h.handleTelemetry _ _ _
      · exact Keeps.pure ()

/-- `send`. -/
theorem write' (h : SideFrame R) (dev : String) (payload : Payload) (clock : Clock F) :
    Keeps R (Ingest.write dev payload clock) := by
  refine Keeps.get.bind fun s => ?_
  split
  · exact Keeps.pure _
  · refine (h.modifySt _ _).bind fun _ => (h.st _).bind fun _ => ?_
    dsimp only
    exact (Keeps.ofExcept _).bind fun _ =>
      Keeps.bind (Keeps.modify fun _ => h.memory _ _ rfl rfl rfl) fun _ => Keeps.pure _

theorem persistStats (h : SideFrame R) : Keeps R (Ingest.persistStats (F := F)) := by
  refine Keeps.get.bind fun s => h.write _ fun db => ?_
  -- one row after another
  induction s.stats generalizing db with
  | nil => exact .of_eq rfl rfl
  | cons e es ih => exact (Database.Beside.saveStats db _).trans (ih _)

theorem deviceView (h : SideFrame R) (dev : String) : Keeps R (Ingest.deviceView dev) := by
  refine Keeps.get.bind fun s => ?_
  split
  · exact (h.st dev).bind fun _ => Keeps.pure ()
  · exact Keeps.pure ()

/-- A row of the firmware registry. -/
theorem firmwareAdd (h : SideFrame R) (body : FirmwareBody) (clock : Clock F) :
    Keeps R (Ingest.firmwareAdd body clock) := by
  rw [Ingest.firmwareAdd]
  split
  · exact Keeps.pure ()
  · dsimp only
    split
    · exact Keeps.pure ()
    · exact Keeps.ite (fun _ => h.write _ fun db => .of_eq rfl rfl) fun _ => Keeps.raise _

/-- A fault request. -/
theorem faultInject (h : SideFrame R) (dev : String) (body : FaultBody) (clock : Clock F) :
    Keeps R (Ingest.faultInject dev body clock) := by
  refine Keeps.get.bind fun s => Keeps.ite (fun _ => Keeps.pure ()) fun _ => ?_
  split
  · refine Keeps.ite (fun _ => ?_) fun _ => Keeps.raise _
    dsimp only
    refine Keeps.bind (h.write _ fun db => .of_eq rfl rfl) fun _ => ?_
    exact (h.write' _ _ _).bind fun _ => Keeps.pure ()
  · exact Keeps.pure ()

theorem deviceCmd (h : SideFrame R) (dev : String) (body : CmdBody) (clock : Clock F) :
    Keeps R (Ingest.deviceCmd dev body clock) := by
  refine Keeps.get.bind fun s => ?_
  split
  · exact (h.write' _ _ _).bind fun _ => Keeps.pure ()
  · exact Keeps.pure ()

end SideFrame

/-! ## What the pushes see -/

/-- The pushes are the same. -/
def Quiet (s s' : Ingest F) : Prop := s'.pushes = s.pushes

omit [PyFloat F] [PyText F] in
instance : IsPreorder (Ingest F) (Quiet (F := F)) where
  refl _ := rfl
  trans _ _ _ h h' := Eq.trans h' h

theorem quiet_modifyDb {f : Database F → Database F}
    (h : ∀ db, (f db).pushTables = db.pushTables) : Keeps Quiet (modifyDb f) := fun s =>
  congrArg (fun db => Pushes.mk db s.waiting s.history) (h s.db)

/-- Statements about one device leave the pushes alone. -/
theorem sideFrame_quiet : SideFrame (Quiet (F := F)) where
  memory s s' hengine hwaiting hhistory := by
    rw [Quiet, pushes, pushes, db, db, hengine, hwaiting, hhistory]
  engineDo e he := by
    refine Keeps.bind (Keeps.zoom (Engine.keeps_sameTables_handle he) fun s engine h => ?_)
      fun _ => Keeps.pure ()
    have htables := Database.pushTables_of_others h
    exact congrArg (fun db => Pushes.mk db s.waiting s.history) htables
  write f hf := quiet_modifyDb fun db => (hf db).pushTables

/-- A write as the pushes see it. -/
theorem modifyDb_run_as {f g : Database F → Database F} {s : Ingest F}
    (h : (f s.db).pushTables = g s.db.pushTables) :
    ∃ s', modifyDb f s = (.ok (), s') ∧ s'.pushes = s.pushes.modifyDb g :=
  ⟨_, rfl, congrArg (fun db => Pushes.mk db s.waiting s.history) h⟩

/-- A write that only looks at the tables of the pushes. -/
theorem modifyDb_run {f : Database F → Database F} {s : Ingest F}
    (h : (f s.db).pushTables = f s.db.pushTables) :
    ∃ s', modifyDb f s = (.ok (), s') ∧ s'.pushes = s.pushes.modifyDb f := modifyDb_run_as h

omit [PyFloat F] [PyText F] in
theorem note_run (n : Note) (s : Ingest F) :
    note n s = (.ok (), { s with history := s.history ++ [n] }) := rfl

omit [PyFloat F] [PyText F] in
/-- `send` does not raise where the payload packs. -/
theorem noRaise_write {dev : String} {payload : Payload} {body : List Byte}
    (hpack : payload.pack = .ok body) (hlen : body.length ≤ MAX_PAYLOAD) (clock : Clock F) :
    NoRaise (write dev payload clock) := by
  have htype : payload.type < 256 := by cases payload <;> simp only [Payload.type] <;> decide
  refine NoRaise.get.bind fun s => ?_
  split
  · exact NoRaise.pure _
  · refine (noRaise_modifySt _ _).bind fun _ => (noRaise_st _).bind fun r => ?_
    dsimp only
    refine NoRaise.bind (fun s' => ?_) fun _ => (NoRaise.modify _).bind fun _ => NoRaise.pure _
    exact @encode_ok _ _ _ _ _ (.known payload) _ hpack hlen htype

omit [PyFloat F] [PyText F] in
/-- A push of a config that packs does not raise. -/
theorem noRaise_pushConfig {cfg : ConfigRow F} (h : cfg.Packs) (dev : String) (clock : Clock F) :
    NoRaise (pushConfig dev cfg clock) := by
  obtain ⟨payload, bytes, hset, hpack⟩ := h
  have hlen : bytes.length ≤ MAX_PAYLOAD := by
    rw [ConfigSet.pack_length hpack]
    decide
  intro s
  rw [pushConfig, bind_run_ok (note_run _ s), hset, bind_run_ok (ofExcept_run _ _)]
  exact @noRaise_write F dev (.configSet payload) bytes hpack hlen clock _

theorem pushConfig_pushes (dev : String) (cfg : ConfigRow F) (clock : Clock F) (s : Ingest F) :
    (pushConfig dev cfg clock s).2.pushes = s.pushes.note (.pushed dev cfg.version) := by
  rw [pushConfig, bind_run_ok (note_run _ s)]
  exact ((Keeps.ofExcept _).bind fun _ => sideFrame_quiet.write' dev _ clock) _

/-- `push_config` from the result of `send` on. -/
theorem pushConfigDone_run (dev : String) (version : Nat) (ok : Bool) (s : Ingest F) :
    ∃ s', pushConfigDone dev version ok s = (.ok (), s') ∧
      s'.pushes = s.pushes.configDone dev version ok := by
  obtain ⟨s', hrun, hpushes⟩ := modifyDb_run (s := s)
    (f := fun db => db.updateConfig dev version fun c =>
      { c with ackStatus := if ok then "sent" else "queued" }) rfl
  obtain ⟨s'', hrun', hquiet⟩ : ∃ s'', engineDo (.invalidateConfig dev) s' = (.ok (), s'') ∧
      s''.pushes = s'.pushes := ⟨_, rfl, rfl⟩
  exact ⟨s'', (bind_run_ok hrun).trans hrun', hquiet.trans hpushes⟩

/-- What `_after_hello` does about the job. -/
theorem afterHelloJob_pushes (c : Nat) (dev : String) (hello : Hello) (clock : Clock F)
    (s : Ingest F) :
    Pushes.JobStep c dev hello s.pushes (afterHelloJob c dev hello clock s).2.pushes := by
  have hopen : s.pushes.openJob dev = (s.db.fwJobLatest dev).filter fun job => !job.finished := rfl
  rw [afterHelloJob, bind_run_ok (get_run s)]
  rcases hlatest : s.db.fwJobLatest dev with _ | job
  · exact .leave fun job hjob => by rw [hopen, hlatest] at hjob; cases hjob
  rw [hlatest] at hopen
  dsimp only
  -- a finished job is left alone
  by_cases hfinished : job.finished
  · rw [if_pos hfinished]
    refine .leave fun job hjob => ?_
    rw [hopen, Option.filter, hfinished] at hjob
    cases hjob
  rw [if_neg hfinished]
  have hjob : s.pushes.openJob dev = some job := by rw [hopen]; simp [Option.filter, hfinished]
  -- the firmware of the HELLO is the target: the job is complete
  by_cases htarget : hello.fwString = job.targetVersion
  · rw [if_pos htarget]
    obtain ⟨s', hrun, hcomplete⟩ := modifyDb_run (s := s)
      (f := fun db => db.fwJobUpdate job.id "complete" clock.later) rfl
    rw [hrun, hcomplete]
    exact .complete job clock.later hjob htarget
  rw [if_neg htarget]
  have hother : ∀ j, s.pushes.openJob dev = some j → hello.fwString ≠ j.targetVersion := by
    intro j hj
    rw [hjob] at hj
    exact Option.some.inj hj ▸ htarget
  -- otherwise the update is sent again, if the firmware is known and the job resumable
  by_cases hresumable : job.resumable
  · rw [if_pos hresumable]
    rcases s.db.firmwareGet job.targetVersion with _ | fw
    · exact .leave hother
    obtain ⟨r, s', hrun, hquiet⟩ :=
      (sideFrame_quiet.write' dev (.fwUpdate fw.fwUpdate) clock).exists_run s
    dsimp only
    rw [bind_run, hrun]
    rcases r with _ | _ | _
    · exact hquiet.symm ▸ .leave hother
    · exact hquiet.symm ▸ .leave hother
    · have hsuspend : (suspend (.helloFw c) s').2.pushes = s.pushes.suspend (.helloFw c) :=
        congrArg (Pushes.suspend (.helloFw c)) hquiet
      exact hsuspend.symm ▸ .resume hother
  · rw [if_neg hresumable]
    exact .leave hother

/-- What `_after_hello` does, up to the drain it stops at. -/
theorem afterHello_pushes (c : Nat) (dev : String) (hello : Hello) (clock : Clock F)
    (s : Ingest F) :
    Pushes.HelloStep c dev hello s.pushes (afterHello c dev hello clock s).2.pushes := by
  have hnewer : s.pushes.newerConfig dev hello =
      (s.db.currentConfig dev).filter fun cfg => hello.configVersion < cfg.version := rfl
  rw [afterHello, bind_run_ok (get_run s), ← hnewer]
  rcases hcfg : s.pushes.newerConfig dev hello with _ | cfg
  · exact .upToDate hcfg (afterHelloJob_pushes c dev hello clock s)
  -- a newer configuration is pushed first
  have hpushed := pushConfig_pushes dev cfg clock s
  obtain ⟨r, s', hrun⟩ : ∃ r s', pushConfig dev cfg clock s = (r, s') := ⟨_, _, rfl⟩
  rw [hrun] at hpushed
  dsimp only at hpushed ⊢
  rw [bind_run, hrun]
  -- it raises, is not written, or waits for the drain
  rcases r with _ | _ | _
  · refine hpushed.symm ▸ .raised cfg hcfg fun hpacks => ?_
    obtain ⟨written, hok⟩ := noRaise_pushConfig hpacks dev clock s
    rw [hrun] at hok
    cases hok
  · obtain ⟨s'', hrun', hdone⟩ := pushConfigDone_run dev cfg.version false s'
    have hjob := afterHelloJob_pushes c dev hello clock s''
    rw [hdone, hpushed] at hjob
    refine .queued cfg hcfg ?_
    dsimp only
    rw [if_neg Bool.false_ne_true, bind_run_ok hrun']
    exact hjob
  · have hsuspend : (suspend (.helloConfig c dev hello cfg.version) s').2.pushes =
        (s.pushes.note (.pushed dev cfg.version)).suspend (.helloConfig c dev hello cfg.version) :=
      congrArg (Pushes.suspend _) hpushed
    exact hsuspend.symm ▸ .waits cfg hcfg

/-! ## One event -/

/-- `dispatch` under the label of its event. -/
theorem dispatch_pushes (c : Nat) (f : Frame) (clock : Clock F) (s : Ingest F) :
    Pushes.Step s.pushes (.received c f.deviceId f.payload) (dispatch c f clock s).2.pushes := by
  rw [dispatch, bind_run_ok (note_run _ s)]
  obtain ⟨s₁, hs₁⟩ : ∃ s₁ : Ingest F,
      s₁ = { s with history := s.history ++ [.received f.deviceId f.payload] } := ⟨_, rfl⟩
  have hnote : s₁.pushes = s.pushes.note (.received f.deviceId f.payload) := by rw [hs₁]; rfl
  rw [← hs₁]
  clear hs₁
  -- a branch that leaves the pushes alone
  have hother : ∀ m : IngestM F Unit, Keeps Quiet m → (∀ h, f.payload ≠ .known (.hello h)) →
      (∀ a, f.payload ≠ .known (.configAck a)) → (∀ a, f.payload ≠ .known (.fwAck a)) →
      Pushes.Step s.pushes (.received c f.deviceId f.payload) (m s₁).2.pushes := by
    intro m hm hhello hconfig hfw
    rw [show (m s₁).2.pushes = s₁.pushes from hm s₁, hnote]
    exact .other hhello hconfig hfw
  have hupsert : ∀ lastSeen (fields : DeviceRow F → DeviceRow F),
      Keeps Quiet (modifyDb fun db => db.upsertDevice f.deviceId lastSeen fields) :=
    fun _ _ => quiet_modifyDb fun db => Database.upsertDevice_pushTables db _ _ _
  rcases hp : f.payload with p | raw
  · rw [hp] at hnote hother
    cases p with
    | hello p =>
      obtain ⟨_, s₂, h₂, hrun₂⟩ := (noRaise_modifyDb _).exists_bind (hupsert clock.now fun d =>
        { d with hwModel := some p.hwModel, fwVersion := some p.fwString,
                 fwVersionU32 := some f.header.fwVersion,
                 reportedConfigVersion := p.configVersion })
        (fun _ => do seen f.deviceId clock; afterHello c f.deviceId p clock) s₁
      obtain ⟨_, s₃, h₃, hrun₃⟩ := (noRaise_seen f.deviceId clock).exists_bind
        (sideFrame_quiet.seen f.deviceId clock) (fun _ => afterHello c f.deviceId p clock) s₂
      have hafter := afterHello_pushes c f.deviceId p clock s₃
      rw [h₃, h₂, hnote] at hafter
      dsimp only at hrun₂ hrun₃ ⊢
      rw [hrun₂, hrun₃]
      exact .hello hafter
    | configAck p =>
      obtain ⟨s₂, hrun, hack⟩ := modifyDb_run (s := s₁)
        (f := fun db => db.ackConfig f.deviceId p.configVersion p.statusName clock.later) rfl
      dsimp only
      rw [bind_run_ok hrun]
      -- what follows the write changes devices and caches
      have hkeep : Keeps Quiet (if p.statusName = "applied" then do
            modifyDb fun db => db.upsertDevice f.deviceId clock.later fun d =>
              { d with reportedConfigVersion := p.configVersion }
            engineDo (.invalidateConfig f.deviceId)
          else engineDo (.invalidateConfig f.deviceId)) :=
        Keeps.ite (fun _ => (hupsert _ _).bind fun _ => sideFrame_quiet.engineDo _ nofun)
          fun _ => sideFrame_quiet.engineDo _ nofun
      obtain ⟨_, s₃, hrun₃, hquiet⟩ := hkeep.exists_run s₂
      rw [hrun₃, show s₃.pushes = _ from hquiet, hack, hnote]
      exact .configAck clock.later
    | fwAck p =>
      have hopen : s.pushes.openJob f.deviceId =
          (s₁.db.fwJobLatest f.deviceId).filter fun job => !job.finished := by
        have hdb : s.pushes.db = s₁.pushes.db := by rw [hnote]; rfl
        rw [Pushes.openJob, hdb]
        rfl
      dsimp only
      rw [bind_run_ok (get_run s₁), ← hopen]
      rcases hjob : s.pushes.openJob f.deviceId with _ | job
      · exact hnote ▸ .fwAckIgnored hjob
      · obtain ⟨s₂, hrun, hupdate⟩ := modifyDb_run (s := s₁)
          (f := fun db => db.fwJobUpdate job.id p.statusName clock.later) rfl
        dsimp only
        rw [hrun, hupdate, hnote]
        exact .fwAck job clock.later hjob
    | heartbeat p =>
      exact hother _ ((hupsert _ _).bind fun _ => sideFrame_quiet.seen _ _) nofun nofun nofun
    | log p =>
      refine hother _ (Keeps.bind ?_ fun _ => sideFrame_quiet.seen _ _) nofun nofun nofun
      exact Keeps.ite (fun _ => Keeps.pure ()) fun _ => Keeps.raise _
    | faultAck p =>
      refine hother _ (quiet_modifyDb fun db => ?_) nofun nofun nofun
      rw [Database.faultInjectionAck]
      split <;> rfl
    | telemetry p => exact hother _ (sideFrame_quiet.handleTelemetry _ _ _) nofun nofun nofun
    | configSet p => exact hother _ (Keeps.pure ()) nofun nofun nofun
    | fwUpdate p => exact hother _ (Keeps.pure ()) nofun nofun nofun
    | faultInject p => exact hother _ (Keeps.pure ()) nofun nofun nofun
    | cmd p => exact hother _ (Keeps.pure ()) nofun nofun nofun
  · rw [hp] at hother
    exact hother _ (Keeps.pure ()) nofun nofun nofun

/-- The guard of a handler does not touch the pushes. -/
theorem guarded_pushes (c : Option Nat) (m : IngestM F Unit) (s : Ingest F) :
    (guarded c m s).2.pushes = (m s).2.pushes := by
  cases c with
  | none => rfl
  | some c =>
    rw [guarded, Proc.onError]
    rcases m s with ⟨_ | _, s'⟩
    · exact sideFrame_quiet.endHandler c s'
    · rfl

/-- A frame as a step of the pushes. -/
theorem onFrame_pushes (c : Nat) (f : Frame) (clock : Clock F) (s : Ingest F) :
    Pushes.Step s.pushes (s.label (.frame c f clock)) (onFrame c f clock s).2.pushes := by
  rw [onFrame, bind_run_ok (get_run s), label, takes]
  by_cases hbusy : ((s.conn c).ended || s.busy c) = true
  · rw [if_pos hbusy, if_neg (by simpa using fun h h' => absurd hbusy (by simp [h, h']))]
    exact .quiet
  rw [if_neg hbusy]
  have hidle : (s.conn c).ended = false ∧ s.busy c = false := by simpa using hbusy
  simp only [hidle.1, hidle.2, Bool.not_false, Bool.true_and, guarded_pushes]
  rw [takeFrame, bind_run_ok (get_run s)]
  rcases hconn : (s.conn c).deviceId with _ | dev
  · -- the first frame registers the connection
    rw [if_pos Option.all_none]
    obtain ⟨_, s₁, h₁, hrun₁⟩ := NoRaise.exists_bind (NoRaise.modify _)
      (sideFrame_quiet.modifyConn c fun k => { k with deviceId := some f.deviceId })
      (fun _ => do register f.deviceId c; dispatch c f clock) s
    obtain ⟨_, s₂, h₂, hrun₂⟩ := (noRaise_register f.deviceId c).exists_bind
      (sideFrame_quiet.register f.deviceId c) (fun _ => dispatch c f clock) s₁
    have hdispatch := dispatch_pushes c f clock s₂
    rw [h₂, h₁] at hdispatch
    exact (congrArg (·.2.pushes) (hrun₁.trans hrun₂)) ▸ hdispatch
  · dsimp only [Option.all_some]
    by_cases hdev : f.deviceId = dev
    · rw [if_neg (not_not.mpr hdev), if_pos (decide_eq_true hdev.symm)]
      exact dispatch_pushes c f clock s
    · rw [if_pos hdev, if_neg fun h => hdev (of_decide_eq_true h).symm]
      exact .quiet

/-- A coroutine goes on. -/
theorem goOn_pushes (task : Waiting) (ok : Bool) (clock : Clock F) (s : Ingest F) :
    Pushes.ResumeStep s.pushes task ok (goOn task ok clock s).2.pushes := by
  cases task with
  | helloConfig c dev hello version =>
    obtain ⟨s', hrun, hdone⟩ := pushConfigDone_run dev version ok s
    have hjob := afterHelloJob_pushes c dev hello clock s'
    rw [goOn, bind_run_ok hrun]
    exact .helloConfig (hdone ▸ hjob)
  | helloFw c => exact .helloFw
  | putConfig dev version =>
    obtain ⟨s', hrun, hdone⟩ := pushConfigDone_run dev version ok s
    rw [goOn, hrun, hdone]
    exact .putConfig
  | deploy jid =>
    obtain ⟨s', hrun, hdone⟩ := modifyDb_run (s := s)
      (f := fun db => db.fwJobUpdate jid (if ok then "sent" else "queued") clock.later) rfl
    rw [goOn, deployDone, hrun, hdone]
    exact .deploy clock.later

/-- A drain, as a step of the pushes. -/
theorem onDrained_pushes (i : Nat) (ok : Bool) (clock : Clock F) (s : Ingest F) :
    Pushes.Step s.pushes (s.label (.drained i ok clock)) (onDrained i ok clock s).2.pushes := by
  rw [onDrained, bind_run_ok (get_run s), label]
  rcases htask : s.waiting[i]? with _ | task
  · exact .quiet
  dsimp only
  rw [bind_run_ok (modify_run _ s), guarded_pushes]
  exact .resumed i htask (goOn_pushes task ok clock { s with waiting := s.waiting.eraseIdx i })

/-- `put_config`: refused, raised, or a row that is pushed. -/
theorem putConfig_pushes (dev : String) (body : ConfigBody) (clock : Clock F) (s : Ingest F) :
    Pushes.Step s.pushes (.configured dev) (putConfig dev body clock s).2.pushes := by
  rw [putConfig, bind_run_ok (get_run s)]
  rcases (logLevel body.logLevel).filter fun _ => body.valid && (s.db.getDevice dev).isSome
    with _ | level
  · exact .configRefused
  dsimp only
  by_cases hversion : s.db.nextConfigVersion dev < 2 ^ 63
  · -- the new row has the greatest version of the device
    obtain ⟨row, hrow⟩ : ∃ row : ConfigRow F, row =
        { deviceId := dev, version := s.db.nextConfigVersion dev,
          telemetryHz := body.telemetryHz.toNat, logLevel := level,
          rpmLimit := Database.sqlReal body.rpmLimit,
          tempLimitC := Database.sqlReal body.tempLimitC,
          currentLimitA := Database.sqlReal body.currentLimitA, createdAt := clock.now } := ⟨_, rfl⟩
    have hdev : row.deviceId = dev := by rw [hrow]
    have hnew : ∀ r ∈ s.db.configs, r.deviceId = row.deviceId → r.version < row.version := by
      intro r hr hrdev
      have hlt := Database.version_lt_next hr
      rw [hrdev, hdev] at hlt
      rw [hrow]
      exact hlt
    obtain ⟨s', hrun, hpushes⟩ := modifyDb_run_as (s := s)
      (f := fun db => db.newConfig dev body.telemetryHz.toNat level body.rpmLimit body.tempLimitC
        body.currentLimitA clock.now)
      (g := fun db => { db with configs := db.configs ++ [row] }) (by rw [hrow]; rfl)
    have hcurrent : s'.db.currentConfig dev = some row := by
      have happend := @Database.currentConfig_append F s.pushes.db _ hnew
      rw [hdev] at happend
      exact (congrArg (fun p : Pushes F => p.db.currentConfig dev) hpushes).trans happend
    have hcreate : newConfig dev body level clock s = (.ok (), s') :=
      (bind_run_ok (get_run s)).trans ((congrFun (if_pos hversion) s).trans hrun)
    rw [bind_run_ok hcreate, bind_run_ok (get_run s'), hcurrent]
    refine .configured row hdev (fun r hr h => hnew r hr (h.trans hdev.symm)) ?_
    rw [← hpushes]
    -- the push of the new row
    have hpushed := pushConfig_pushes dev row clock s'
    obtain ⟨r, s'', hrun'⟩ : ∃ r s'', pushConfig dev row clock s' = (r, s'') := ⟨_, _, rfl⟩
    rw [hrun'] at hpushed
    dsimp only at hpushed ⊢
    rw [bind_run, hrun', ← hpushed]
    rcases r with _ | _ | _
    · exact .raised
    · obtain ⟨s₃, hrun₃, hdone⟩ := pushConfigDone_run dev row.version false s''
      dsimp only
      rw [if_neg Bool.false_ne_true, hrun₃, hdone]
      exact .queued
    · exact .waits
  · have hraise : newConfig dev body level clock s = (.error .overflowError, s) :=
      (bind_run_ok (get_run s)).trans (congrFun (if_neg hversion) s)
    rw [bind_run_error hraise]
    exact .configRefused

/-- `firmware_deploy`: refused, or a job whose update is pushed. -/
theorem firmwareDeploy_pushes (dev version : String) (clock : Clock F) (s : Ingest F) :
    Pushes.Step s.pushes (.deployed dev version) (firmwareDeploy dev version clock s).2.pushes := by
  rw [firmwareDeploy, bind_run_ok (get_run s)]
  rcases s.db.getDevice dev with _ | d
  · exact .deployRefused
  rcases s.db.firmwareGet version with _ | fw
  · exact .deployRefused
  obtain ⟨s₁, hrun₁, hcreate⟩ := modifyDb_run (s := s)
    (f := fun db => db.fwJobCreate dev version d.fwVersion clock.now) rfl
  -- the note of the deploy comes with the row, before the push
  obtain ⟨s₂, hrun₂, hnote⟩ : ∃ s₂, note (.deployed s.db.nextJobId) s₁ = (.ok (), s₂) ∧
      s₂.pushes = s₁.pushes.note (.deployed s.db.nextJobId) := ⟨_, rfl, rfl⟩
  dsimp only
  rw [bind_run_ok hrun₁, bind_run_ok hrun₂]
  obtain ⟨r, s₃, hrun₃, hquiet⟩ :=
    (sideFrame_quiet.write' dev (.fwUpdate fw.fwUpdate) clock).exists_run s₂
  have hs₃ : s₃.pushes = (s.pushes.modifyDb fun db =>
      db.fwJobCreate dev version d.fwVersion clock.now).note (.deployed s.pushes.db.nextJobId) := by
    rw [show s₃.pushes = s₂.pushes from hquiet, hnote, hcreate]
    rfl
  refine .deployed d.fwVersion clock.now clock.later ?_
  rw [bind_run, hrun₃, ← hs₃]
  -- the push raises, is not written, or waits
  rcases r with _ | _ | _
  · exact .raised
  · obtain ⟨s₄, hrun₄, hdone⟩ := modifyDb_run (s := s₃)
      (f := fun db => db.fwJobUpdate s.db.nextJobId "queued" clock.later) rfl
    dsimp only
    rw [if_neg Bool.false_ne_true, deployDone, if_neg Bool.false_ne_true, hrun₄, hdone]
    exact .queued
  · exact .waits

theorem restart_pushes (s : Ingest F) :
    Pushes.Step s.pushes .restarted (restart s).2.pushes := by
  have hrestart : (restart s).2.pushes = { s.pushes with waiting := [] } := rfl
  exact hrestart ▸ .restarted

/-- What an event does to the pushes. -/
theorem step_pushes (s : Ingest F) (e : Event F) :
    Pushes.Step s.pushes (s.label e) (step s e).pushes := by
  -- events that push nothing and answer nothing
  have hquiet : ∀ m : IngestM F Unit, Keeps Quiet m →
      Pushes.Step s.pushes .quiet (m s).2.pushes := fun m hm => by
    rw [show (m s).2.pushes = s.pushes from hm s]
    exact .quiet
  cases e with
  | datagram data clock => exact hquiet _ (sideFrame_quiet.onDatagram data clock)
  | frame c f clock => exact onFrame_pushes c f clock s
  | lost c => exact hquiet _ (sideFrame_quiet.modifyConn c _)
  | ended c =>
    refine hquiet _ (Keeps.get.bind fun s' => Keeps.ite (fun _ => Keeps.pure ()) fun _ => ?_)
    exact sideFrame_quiet.endHandler c
  | drained i ok clock => exact onDrained_pushes i ok clock s
  | offlinePass clock => exact hquiet _ (sideFrame_quiet.offlinePass clock)
  | persistStats => exact hquiet _ sideFrame_quiet.persistStats
  | tick now clock => exact hquiet _ (sideFrame_quiet.engineDo _ nofun)
  | restart => exact restart_pushes s
  | deviceView dev => exact hquiet _ (sideFrame_quiet.deviceView dev)
  | devices =>
    refine hquiet _ (Keeps.get.bind fun s' => Keeps.forEach fun d _ => ?_)
    exact sideFrame_quiet.deviceView d.deviceId
  | putConfig dev body clock => exact putConfig_pushes dev body clock s
  | firmwareAdd body clock => exact hquiet _ (sideFrame_quiet.firmwareAdd body clock)
  | firmwareDeploy dev version clock => exact firmwareDeploy_pushes dev version clock s
  | faultInject dev body clock => exact hquiet _ (sideFrame_quiet.faultInject dev body clock)
  | deviceCmd dev body clock => exact hquiet _ (sideFrame_quiet.deviceCmd dev body clock)
  | ackAlert aid clock => exact hquiet _ (sideFrame_quiet.engineDo _ nofun)
  | putRules rules => exact hquiet _ (sideFrame_quiet.engineDo _ nofun)

end Ingest

end EcuTelemetry.Backend
