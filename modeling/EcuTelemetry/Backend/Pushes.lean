/-
  EcuTelemetry.Backend.Pushes

  The pushes to the devices and their answers, apart from everything else the
  backend does: the config and job rows, the coroutines that wait for a
  `drain`, and the notes of the history variable.  `Pushes.Step` says all that
  one event can do to them.
-/

import EcuTelemetry.Backend.Api

namespace EcuTelemetry.Backend

open Protocol

variable {F : Type}

/-! ## State -/

/-- The tables that pushes and answers write. -/
def Database.pushTables (db : Database F) : Database F :=
  { configs := db.configs, fwJobs := db.fwJobs, nextJobId := db.nextJobId }

structure Pushes (F : Type) where
  db : Database F
  waiting : List Waiting
  history : List Note

def Ingest.pushes (s : Ingest F) : Pushes F :=
  { db := s.db.pushTables, waiting := s.waiting, history := s.history }

/-- The row packs into the payload of a CONFIG_SET. -/
def ConfigRow.Packs (cfg : ConfigRow F) : Prop :=
  ∃ payload bytes, cfg.configSet = .ok payload ∧ payload.pack = .ok bytes

/-- Every id belongs to one job, and the next one is new. -/
structure Database.JobsKeyed (db : Database F) : Prop where
  fresh : ∀ job ∈ db.fwJobs, job.id < db.nextJobId
  ids : (db.fwJobs.map JobRow.id).Nodup

namespace Database.JobsKeyed

variable {db db' : Database F}

theorem eq_of_id (h : db.JobsKeyed) {job job' : JobRow F} (hjob : job ∈ db.fwJobs)
    (hjob' : job' ∈ db.fwJobs) (hid : job.id = job'.id) : job = job' :=
  List.inj_on_of_nodup_map h.ids hjob hjob' hid

theorem of_rows_eq (h : db.JobsKeyed) (hrows : db'.fwJobs = db.fwJobs)
    (hnext : db'.nextJobId = db.nextJobId) : db'.JobsKeyed :=
  ⟨by rw [hrows, hnext]; exact h.fresh, by rw [hrows]; exact h.ids⟩

/-- An update keeps the ids. -/
theorem fwJobUpdate (h : db.JobsKeyed) (jid : Nat) (status : String) (now : F) :
    (db.fwJobUpdate jid status now).JobsKeyed := by
  have hids : (db.fwJobUpdate jid status now).fwJobs.map JobRow.id = db.fwJobs.map JobRow.id := by
    rw [Database.fwJobUpdate, List.map_map]
    refine List.map_congr_left fun j _ => ?_
    dsimp only [Function.comp]
    split <;> rfl
  refine ⟨fun job hjob => ?_, hids ▸ h.ids⟩
  have hmem : job.id ∈ db.fwJobs.map JobRow.id := hids ▸ List.mem_map_of_mem hjob
  obtain ⟨j, hj, hid⟩ := List.mem_map.mp hmem
  rw [← hid]
  exact h.fresh j hj

/-- A new job takes the next id. -/
theorem fwJobCreate (h : db.JobsKeyed) (dev target : String) (fromVersion : Option String)
    (now : F) : (db.fwJobCreate dev target fromVersion now).JobsKeyed := by
  constructor
  · intro job hjob
    rcases List.mem_append.mp hjob with hjob | hjob
    · exact Nat.lt_succ_of_lt (h.fresh job hjob)
    · rw [List.mem_singleton.mp hjob]
      exact Nat.lt_succ_self _
  · show (List.map JobRow.id (db.fwJobs ++ _)).Nodup
    rw [List.map_append, List.nodup_append]
    refine ⟨h.ids, List.nodup_singleton _, ?_⟩
    rintro a ha b hb rfl
    -- the id of the new job is above those of the others
    obtain ⟨job, hjob, rfl⟩ := List.mem_map.mp ha
    have hid : job.id = db.nextJobId := List.mem_singleton.mp hb
    have hfresh := h.fresh job hjob
    omega

end Database.JobsKeyed

namespace Pushes

def note (n : Note) (p : Pushes F) : Pushes F := { p with history := p.history ++ [n] }

def modifyDb (f : Database F → Database F) (p : Pushes F) : Pushes F := { p with db := f p.db }

def suspend (task : Waiting) (p : Pushes F) : Pushes F := { p with waiting := p.waiting ++ [task] }

/-- The latest job of a device, unless it is finished. -/
def openJob (p : Pushes F) (dev : String) : Option (JobRow F) :=
  (p.db.fwJobLatest dev).filter fun job => !job.finished

/-- The current config of a device, if it is newer than what a HELLO reports. -/
def newerConfig (p : Pushes F) (dev : String) (hello : Hello) : Option (ConfigRow F) :=
  (p.db.currentConfig dev).filter fun cfg => hello.configVersion < cfg.version

/-- `push_config` from the result of `send` on. -/
def configDone (dev : String) (version : Nat) (ok : Bool) (p : Pushes F) : Pushes F :=
  p.modifyDb fun db => db.updateConfig dev version fun c =>
    { c with ackStatus := if ok then "sent" else "queued" }

/-- `firmware_deploy` from the result of `push_fw` on. -/
def deployDone (jid : Nat) (ok : Bool) (now : F) (p : Pushes F) : Pushes F :=
  p.modifyDb fun db => db.fwJobUpdate jid (if ok then "sent" else "queued") now

/-! ## Steps -/

/-- `_after_hello` from the latest job on. -/
inductive JobStep (c : Nat) (dev : String) (hello : Hello) (p : Pushes F) : Pushes F → Prop
  | complete (job : JobRow F) (now : F) (hjob : p.openJob dev = some job)
      (htarget : hello.fwString = job.targetVersion) :
      JobStep c dev hello p (p.modifyDb fun db => db.fwJobUpdate job.id "complete" now)
  | leave (hother : ∀ job, p.openJob dev = some job → hello.fwString ≠ job.targetVersion) :
      JobStep c dev hello p p
  | resume (hother : ∀ job, p.openJob dev = some job → hello.fwString ≠ job.targetVersion) :
      JobStep c dev hello p (p.suspend (.helloFw c))

/-- `_after_hello`. -/
inductive HelloStep (c : Nat) (dev : String) (hello : Hello) (p : Pushes F) : Pushes F → Prop
  | upToDate {p' : Pushes F} (hcfg : p.newerConfig dev hello = none)
      (hjob : JobStep c dev hello p p') : HelloStep c dev hello p p'
  | raised (cfg : ConfigRow F) (hcfg : p.newerConfig dev hello = some cfg) (hpacks : ¬ cfg.Packs) :
      HelloStep c dev hello p (p.note (.pushed dev cfg.version))
  | waits (cfg : ConfigRow F) (hcfg : p.newerConfig dev hello = some cfg) :
      HelloStep c dev hello p
        ((p.note (.pushed dev cfg.version)).suspend (.helloConfig c dev hello cfg.version))
  | queued {p' : Pushes F} (cfg : ConfigRow F) (hcfg : p.newerConfig dev hello = some cfg)
      (hjob : JobStep c dev hello
        ((p.note (.pushed dev cfg.version)).configDone dev cfg.version false) p') :
      HelloStep c dev hello p p'

/-- A coroutine goes on. -/
inductive ResumeStep (p : Pushes F) : Waiting → Bool → Pushes F → Prop
  | helloConfig {c : Nat} {dev : String} {hello : Hello} {version : Nat} {ok : Bool}
      {p' : Pushes F} (hjob : JobStep c dev hello (p.configDone dev version ok) p') :
      ResumeStep p (.helloConfig c dev hello version) ok p'
  | helloFw {c : Nat} {ok : Bool} : ResumeStep p (.helloFw c) ok p
  | putConfig {dev : String} {version : Nat} {ok : Bool} :
      ResumeStep p (.putConfig dev version) ok (p.configDone dev version ok)
  | deploy {jid : Nat} {ok : Bool} (now : F) :
      ResumeStep p (.deploy jid) ok (p.deployDone jid ok now)

/-- A push from its first line on: it raises, waits for the `drain`, or finds no
    connection. -/
inductive PushStep (task : Waiting) (unsent : Pushes F → Pushes F) (p : Pushes F) :
    Pushes F → Prop
  | raised : PushStep task unsent p p
  | waits : PushStep task unsent p (p.suspend task)
  | queued : PushStep task unsent p (unsent p)

/-- What an event is to the pushes. -/
inductive Label
  | quiet
  | restarted
  /-- the handler of a connection dispatches a frame -/
  | received (c : Nat) (dev : String) (payload : Body)
  /-- a `PUT` of a config -/
  | configured (dev : String)
  /-- a request to deploy -/
  | deployed (dev version : String)
  /-- a `drain` returns -/
  | resumed (task : Waiting) (ok : Bool)
deriving DecidableEq

/-- What one event can do to the pushes. -/
inductive Step (p : Pushes F) : Label → Pushes F → Prop
  | quiet : Step p .quiet p
  | restarted : Step p .restarted { p with waiting := [] }
  | hello {c : Nat} {dev : String} {hello : Hello} {p' : Pushes F}
      (h : HelloStep c dev hello (p.note (.received dev (.known (.hello hello)))) p') :
      Step p (.received c dev (.known (.hello hello))) p'
  | configAck {c : Nat} {dev : String} {ack : ConfigAck} (now : F) :
      Step p (.received c dev (.known (.configAck ack)))
        ((p.note (.received dev (.known (.configAck ack)))).modifyDb fun db =>
          db.ackConfig dev ack.configVersion ack.statusName now)
  | fwAck {c : Nat} {dev : String} {ack : FwAck} (job : JobRow F) (now : F)
      (hjob : p.openJob dev = some job) :
      Step p (.received c dev (.known (.fwAck ack)))
        ((p.note (.received dev (.known (.fwAck ack)))).modifyDb fun db =>
          db.fwJobUpdate job.id ack.statusName now)
  -- the latest job has ended, or there is none
  | fwAckIgnored {c : Nat} {dev : String} {ack : FwAck} (hjob : p.openJob dev = none) :
      Step p (.received c dev (.known (.fwAck ack)))
        (p.note (.received dev (.known (.fwAck ack))))
  | other {c : Nat} {dev : String} {payload : Body} (hhello : ∀ h, payload ≠ .known (.hello h))
      (hconfig : ∀ a, payload ≠ .known (.configAck a)) (hfw : ∀ a, payload ≠ .known (.fwAck a)) :
      Step p (.received c dev payload) (p.note (.received dev payload))
  -- an answer other than 200 writes nothing
  | configRefused {dev : String} : Step p (.configured dev) p
  -- the new version is above every version of the device
  | configured {dev : String} {p' : Pushes F} (row : ConfigRow F) (hdev : row.deviceId = dev)
      (hnew : ∀ r ∈ p.db.configs, r.deviceId = dev → r.version < row.version)
      (h : PushStep (.putConfig dev row.version) (configDone dev row.version false)
        ((p.modifyDb fun db => { db with configs := db.configs ++ [row] }).note
          (.pushed dev row.version)) p') :
      Step p (.configured dev) p'
  | deployRefused {dev version : String} : Step p (.deployed dev version) p
  | deployed {dev version : String} {p' : Pushes F} (fromVersion : Option String) (now now' : F)
      (h : PushStep (.deploy p.db.nextJobId) (deployDone p.db.nextJobId false now')
        ((p.modifyDb fun db => db.fwJobCreate dev version fromVersion now).note
          (.deployed p.db.nextJobId)) p') :
      Step p (.deployed dev version) p'
  | resumed {task : Waiting} {ok : Bool} {p' : Pushes F} (i : Nat)
      (htask : p.waiting[i]? = some task)
      (h : ResumeStep { p with waiting := p.waiting.eraseIdx i } task ok p') :
      Step p (.resumed task ok) p'

/-! ## Jobs -/

section Jobs

variable {p p' : Pushes F}

theorem openJob_mem {dev : String} {job : JobRow F} (h : p.openJob dev = some job) :
    job ∈ p.db.fwJobs ∧ job.deviceId = dev := by
  obtain ⟨hlatest, -⟩ := Option.filter_eq_some_iff.mp h
  have hmem := List.mem_of_find?_eq_some hlatest
  have hdev := List.find?_some hlatest
  exact ⟨List.mem_reverse.mp hmem, of_decide_eq_true hdev⟩

theorem openJob_unfinished {dev : String} {job : JobRow F} (h : p.openJob dev = some job) :
    job.finished = false := by
  obtain ⟨-, hopen⟩ := Option.filter_eq_some_iff.mp h
  simpa using hopen

theorem JobStep.keyed {c : Nat} {dev : String} {hello : Hello}
    (hstep : JobStep c dev hello p p') (h : p.db.JobsKeyed) : p'.db.JobsKeyed := by
  cases hstep with
  | complete job now hjob htarget => exact h.fwJobUpdate _ _ _
  | leave hother => exact h
  | resume hother => exact h.of_rows_eq rfl rfl

/-- One step: no two jobs have one id. -/
theorem step_jobsKeyed {l : Label} (h : p.db.JobsKeyed) (hstep : Step p l p') :
    p'.db.JobsKeyed := by
  -- ids come from the counter in `fwJobCreate`, and no other statement makes a row
  cases hstep with
  | quiet => exact h
  | restarted => exact h.of_rows_eq rfl rfl
  | hello hstep =>
    cases hstep with
    | upToDate hcfg hjob => exact hjob.keyed (h.of_rows_eq rfl rfl)
    | raised cfg hcfg hpacks => exact h.of_rows_eq rfl rfl
    | waits cfg hcfg => exact h.of_rows_eq rfl rfl
    | queued cfg hcfg hjob => exact hjob.keyed (h.of_rows_eq rfl rfl)
  | configAck now => exact h.of_rows_eq rfl rfl
  | fwAck job now hjob => exact h.fwJobUpdate _ _ _
  | fwAckIgnored hjob => exact h.of_rows_eq rfl rfl
  | other hhello hconfig hfw => exact h.of_rows_eq rfl rfl
  | configRefused => exact h
  | configured row hdev hnew hstep =>
    cases hstep with
    | raised => exact h.of_rows_eq rfl rfl
    | waits => exact h.of_rows_eq rfl rfl
    | queued => exact h.of_rows_eq rfl rfl
  | deployRefused => exact h
  | @deployed dev version _ fromVersion now now' hstep =>
    have hcreated : (p.db.fwJobCreate dev version fromVersion now).JobsKeyed :=
      h.fwJobCreate _ _ _ _
    cases hstep with
    | raised => exact hcreated.of_rows_eq rfl rfl
    | waits => exact hcreated.of_rows_eq rfl rfl
    | queued => exact hcreated.fwJobUpdate _ _ _
  | resumed i htask hstep =>
    cases hstep with
    | helloConfig hjob => exact hjob.keyed (h.of_rows_eq rfl rfl)
    | helloFw => exact h.of_rows_eq rfl rfl
    | putConfig => exact h.of_rows_eq rfl rfl
    | deploy now => exact h.fwJobUpdate _ _ _

end Jobs

end Pushes

namespace Ingest

/-- Does the handler of a connection take a frame of the device, and dispatch it? -/
def takes (s : Ingest F) (c : Nat) (dev : String) : Bool :=
  !(s.conn c).ended && !s.busy c && (s.conn c).deviceId.all (· = dev)

/-- What an event is to the pushes. -/
def label (s : Ingest F) : Event F → Pushes.Label
  | .frame c f _ => if s.takes c f.deviceId then .received c f.deviceId f.payload else .quiet
  | .drained i ok _ =>
    match s.waiting[i]? with
    | some task => .resumed task ok
    | none => .quiet
  | .putConfig dev _ _ => .configured dev
  | .firmwareDeploy dev version _ => .deployed dev version
  | .restart => .restarted
  | _ => .quiet

end Ingest

end EcuTelemetry.Backend
