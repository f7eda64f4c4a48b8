/-
  EcuTelemetry.Backend.LateSent

  A push writes 'sent' or 'queued' when its `drain` returns, an answer of the
  device writes its own status when it arrives.  Where every `drain` returns
  before the answer, the answer stands.
-/

import EcuTelemetry.Backend.IngestFrame

namespace EcuTelemetry.Backend

open Protocol

variable {F : Type}

/-! ## Answers -/

/-- The history's effect on the answer to the last push of a config. -/
def configNote (dev : String) (version : Nat) (answer : Option String) : Note → Option String
  | .pushed d v => if d = dev ∧ v = version then none else answer
  | .received d (.known (.configAck ack)) =>
    if d = dev ∧ ack.configVersion = version then some ack.statusName else answer
  | _ => answer

/-- The status of the last CONFIG_ACK for a version since it was last pushed. -/
def configAnswer (dev : String) (version : Nat) (history : List Note) : Option String :=
  history.foldl (configNote dev version) none

/-- The history's effect on whether a job is answered. -/
def jobNote (jid : Nat) (dev target : String) (answered : Bool) : Note → Bool
  | .deployed j => if j = jid then false else answered
  | .received d (.known (.fwAck ack)) => answered || (d = dev && ack.version = target)
  | _ => answered

/-- An FW_ACK of the job's device with the job's version came since its deploy. -/
def jobAnswered (job : JobRow F) (history : List Note) : Bool :=
  history.foldl (jobNote job.id job.deviceId job.targetVersion) false

/-- The push of a config that waits for its `drain`. -/
def Waiting.pushes (dev : String) (version : Nat) : Waiting → Bool
  | helloConfig _ d _ v => d = dev && v = version
  | putConfig d v => d = dev && v = version
  | _ => false

/-- The statuses that the backend itself gives an unfinished job. -/
def OWN_STATUSES : List String := ["pending", "sent", "queued"]

namespace Pushes

/-- The job's status is one that its device has reported. -/
def Reported (p : Pushes F) (job : JobRow F) : Prop :=
  ∃ ack, .received job.deviceId (.known (.fwAck ack)) ∈ p.history ∧ ack.statusName = job.status

/-- Reported by the device, or complete. -/
def Settled (p : Pushes F) (job : JobRow F) : Prop := job.status = "complete" ∨ p.Reported job

/-- Once a push and its answer are both processed the row has the answer's status. -/
structure AnswersKept (p : Pushes F) : Prop where
  config : ∀ row ∈ p.db.configs, ∀ status,
    configAnswer row.deviceId row.version p.history = some status →
    (∀ task ∈ p.waiting, task.pushes row.deviceId row.version = false) → row.ackStatus = status
  job : ∀ job ∈ p.db.fwJobs, jobAnswered job p.history → .deploy job.id ∉ p.waiting →
    p.Settled job ∧ job.status ≠ "sent" ∧ job.status ≠ "queued"

/-- A `drain` returns before the answer to what it waited for is processed, and
    an FW_ACK comes while no newer job than its own waits for one. -/
def InTime (p : Pushes F) : Label → Prop
  | .resumed (.putConfig dev version) _ => configAnswer dev version p.history = none
  | .resumed (.helloConfig _ dev _ version) _ => configAnswer dev version p.history = none
  | .resumed (.deploy jid) _ =>
    ∀ job ∈ p.db.fwJobs, job.id = jid → jobAnswered job p.history = false
  | .received _ dev (.known (.fwAck ack)) =>
    ∀ job ∈ p.db.fwJobs, job.deviceId = dev → job.targetVersion = ack.version →
      job.status ∈ OWN_STATUSES → p.openJob dev = some job
  | _ => True

instance (p : Pushes F) [DecidableEq F] (l : Label) : Decidable (p.InTime l) := by
  unfold InTime
  split <;> infer_instance

/-- The row says what the device said, waiting or not. -/
structure Answers (p : Pushes F) : Prop extends p.db.JobsKeyed where
  config : ∀ row ∈ p.db.configs, ∀ status,
    configAnswer row.deviceId row.version p.history = some status → row.ackStatus = status
  answered : ∀ job ∈ p.db.fwJobs, jobAnswered job p.history → p.Settled job
  status : ∀ job ∈ p.db.fwJobs, job.status ∈ OWN_STATUSES ∨ p.Settled job

/-! ## Notes and writes -/

variable {p : Pushes F}

theorem configAnswer_append (dev : String) (version : Nat) (history : List Note) (n : Note) :
    configAnswer dev version (history ++ [n]) =
      configNote dev version (configAnswer dev version history) n := by
  rw [configAnswer, List.foldl_append]
  rfl

theorem jobAnswered_append (job : JobRow F) (history : List Note) (n : Note) :
    jobAnswered job (history ++ [n]) =
      jobNote job.id job.deviceId job.targetVersion (jobAnswered job history) n := by
  rw [jobAnswered, List.foldl_append]
  rfl

theorem Settled.note {job : JobRow F} (h : p.Settled job) (n : Note) : (p.note n).Settled job := by
  refine h.imp id ?_
  rintro ⟨ack, hmem, hstatus⟩
  exact ⟨ack, List.mem_append_left _ hmem, hstatus⟩

theorem Answers.init : Answers (F := F) { db := {}, waiting := [], history := [] } where
  fresh _ h := absurd h List.not_mem_nil
  ids := List.nodup_nil
  config _ h := absurd h List.not_mem_nil
  answered _ h := absurd h List.not_mem_nil
  status _ h := absurd h List.not_mem_nil

/-- The coroutines that wait do not count. -/
theorem Answers.waiting (h : Answers p) (tasks : List Waiting) :
    Answers { p with waiting := tasks } := { h with }

/-- A note that answers nothing. -/
theorem Answers.note (h : Answers p) {n : Note}
    (hconfig : ∀ dev version a status,
      configNote dev version a n = some status → a = some status)
    (hjob : ∀ jid dev target b, jobNote jid dev target b n = true → b = true) :
    Answers (p.note n) where
  fresh := h.fresh
  ids := h.ids
  config row hrow status hstatus := by
    rw [Pushes.note, configAnswer_append] at hstatus
    exact h.config row hrow status (hconfig _ _ _ _ hstatus)
  answered job hmem hans := by
    rw [Pushes.note, jobAnswered_append] at hans
    exact (h.answered job hmem (hjob _ _ _ _ hans)).note n
  status job hmem := (h.status job hmem).imp id (·.note n)

/-- The rows of one id get a status: the device has reported it, or it is the
    backend's own and nothing was answered. -/
theorem Answers.updateJob {q : Pushes F} (h : Answers p) {jid : Nat} {status : String} {now : F}
    (hq : q.db = p.db.fwJobUpdate jid status now)
    (hhistory : ∀ n ∈ p.history, n ∈ q.history)
    (hconfig : ∀ dev version, configAnswer dev version q.history =
      configAnswer dev version p.history)
    (hother : ∀ job ∈ p.db.fwJobs, job.id ≠ jid → jobAnswered job q.history → p.Settled job)
    (hown : ∀ job ∈ p.db.fwJobs, job.id = jid →
      (status ∈ OWN_STATUSES ∧ jobAnswered job q.history = false) ∨
        q.Settled { job with status := status }) : Answers q := by
  have hsettled : ∀ job, p.Settled job → q.Settled job := fun job hjob =>
    hjob.imp id fun ⟨ack, hmem, hack⟩ => ⟨ack, hhistory _ hmem, hack⟩
  -- the row of the job changes, the others are as they were
  have hjobs : q.db.fwJobs = p.db.fwJobs.map fun j =>
      if j.id = jid then
        { j with status := status, updatedAt := now, history := j.history ++ [(status, now)] }
      else j := by rw [hq]; rfl
  refine
    { toJobsKeyed := hq ▸ h.toJobsKeyed.fwJobUpdate _ _ _, config := ?_, answered := ?_,
      status := ?_ }
  · intro row hrow st hst
    rw [hconfig] at hst
    exact h.config row (by rw [hq] at hrow; exact hrow) st hst
  · intro job hjob hans
    obtain ⟨j, hj, rfl⟩ := List.mem_map.mp (hjobs ▸ hjob)
    -- answered: by its own status, or settled before
    by_cases hid : j.id = jid
    · rw [if_pos hid] at hans ⊢
      rcases hown j hj hid with ⟨-, hnone⟩ | hset
      · have hans' : jobAnswered j q.history = true := hans
        rw [hnone] at hans'
        cases hans'
      · exact hset
    · rw [if_neg hid] at hans ⊢
      exact hsettled j (hother j hj hid hans)
  · intro job hjob
    obtain ⟨j, hj, rfl⟩ := List.mem_map.mp (hjobs ▸ hjob)
    -- not answered: a status the backend has set itself
    by_cases hid : j.id = jid
    · rw [if_pos hid]
      exact (hown j hj hid).imp (fun hown => hown.1) id
    · rw [if_neg hid]
      exact (h.status j hj).imp id (hsettled j)

/-- The rows of one version get a status that agrees with the answer. -/
theorem Answers.updateConfig {q : Pushes F} (h : Answers p) {dev : String} {version : Nat}
    {fields : ConfigRow F → ConfigRow F} (hq : q.db = p.db.updateConfig dev version fields)
    (hkey : ∀ row, (fields row).deviceId = row.deviceId ∧ (fields row).version = row.version)
    (hhistory : ∀ n ∈ p.history, n ∈ q.history)
    (hjob : ∀ job : JobRow F, jobAnswered job q.history = jobAnswered job p.history)
    (hother : ∀ d v, ¬ (d = dev ∧ v = version) → configAnswer d v q.history =
      configAnswer d v p.history)
    (hown : ∀ row status, configAnswer dev version q.history = some status →
      (fields row).ackStatus = status) : Answers q := by
  have hsettled : ∀ job, p.Settled job → q.Settled job := fun job hjob =>
    hjob.imp id fun ⟨ack, hmem, hack⟩ => ⟨ack, hhistory _ hmem, hack⟩
  have hjobs : q.db.fwJobs = p.db.fwJobs := by rw [hq]; rfl
  have hkeyed : q.db.JobsKeyed := h.toJobsKeyed.of_rows_eq hjobs (by rw [hq]; rfl)
  refine { toJobsKeyed := hkeyed, config := ?_, answered := ?_, status := ?_ }
  · intro row hrow status hstatus
    rw [hq] at hrow
    obtain ⟨r, hr, rfl⟩ := List.mem_map.mp hrow
    -- the row with this key has the new status, every other row its old answer
    by_cases hrv : r.deviceId = dev ∧ r.version = version
    · rw [if_pos hrv] at hstatus ⊢
      rw [(hkey r).1, (hkey r).2, hrv.1, hrv.2] at hstatus
      exact hown r status hstatus
    · rw [if_neg hrv] at hstatus ⊢
      rw [hother _ _ hrv] at hstatus
      exact h.config r hr status hstatus
  · intro job hmem hans
    rw [hjobs] at hmem
    rw [hjob] at hans
    exact hsettled job (h.answered job hmem hans)
  · intro job hmem
    rw [hjobs] at hmem
    exact (h.status job hmem).imp id (hsettled job)

theorem Answers.configDone (h : Answers p) {dev : String} {version : Nat} (ok : Bool)
    (hnone : configAnswer dev version p.history = none) :
    Answers (p.configDone dev version ok) := by
  refine h.updateConfig rfl (fun _ => ⟨rfl, rfl⟩) (fun _ h => h) (fun _ => rfl)
    (fun _ _ _ => rfl) ?_
  intro row status hstatus
  rw [show configAnswer dev version (p.configDone dev version ok).history =
    none from hnone] at hstatus
  cases hstatus

theorem Answers.pushed (h : Answers p) (dev : String) (version : Nat) :
    Answers (p.note (.pushed dev version)) := by
  refine h.note (fun d v a status hstatus => ?_) fun _ _ _ _ hb => hb
  rw [configNote] at hstatus
  split at hstatus
  · cases hstatus
  · exact hstatus

theorem configAnswer_pushed (p : Pushes F) (dev : String) (version : Nat) :
    configAnswer dev version (p.note (.pushed dev version)).history = none := by
  rw [Pushes.note, configAnswer_append]
  exact if_pos ⟨rfl, rfl⟩

/-- The job of a HELLO. -/
theorem Answers.jobStep {c : Nat} {dev : String} {hello : Hello} {p' : Pushes F} (h : Answers p)
    (hstep : JobStep c dev hello p p') : Answers p' := by
  cases hstep with
  | complete job now hjob htarget =>
    refine h.updateJob rfl (fun _ h => h) (fun _ _ => rfl)
      (fun j hj _ hans => h.answered j hj hans) ?_
    exact fun _ _ _ => .inr (.inl rfl)
  | leave hother => exact h
  | resume hother => exact h.waiting _

/-- All that follows a HELLO. -/
theorem Answers.helloStep {c : Nat} {dev : String} {hello : Hello} {p' : Pushes F} (h : Answers p)
    (hstep : HelloStep c dev hello p p') : Answers p' := by
  cases hstep with
  | upToDate hcfg hjob => exact h.jobStep hjob
  | raised cfg hcfg hpacks => exact h.pushed dev cfg.version
  | waits cfg hcfg => exact (h.pushed dev cfg.version).waiting _
  | queued cfg hcfg hjob =>
    have hdone := (h.pushed dev cfg.version).configDone false (configAnswer_pushed p _ _)
    exact hdone.jobStep hjob

/-- The answer to a config. -/
theorem Answers.configAck (h : Answers p) (dev : String) (ack : ConfigAck) (now : F) :
    Answers ((p.note (.received dev (.known (.configAck ack)))).modifyDb fun db =>
      db.ackConfig dev ack.configVersion ack.statusName now) := by
  refine h.updateConfig rfl (fun _ => ⟨rfl, rfl⟩) (fun _ h => List.mem_append_left _ h) ?_ ?_ ?_
  · intro job
    exact jobAnswered_append job p.history _
  · intro d v hne
    have happend := configAnswer_append d v p.history (.received dev (.known (.configAck ack)))
    refine happend.trans (if_neg fun heq => hne ⟨heq.1.symm, heq.2.symm⟩)
  · intro row status hstatus
    have happend := configAnswer_append dev ack.configVersion p.history
      (.received dev (.known (.configAck ack)))
    rw [configNote, if_pos ⟨rfl, rfl⟩] at happend
    exact Option.some.inj (happend.symm.trans hstatus)

/-- After an FW_ACK every job it is about is settled, save one that the
    condition finds to be the open job. -/
theorem Answers.answered_or_open (h : Answers p) {c : Nat} {dev : String} {ack : FwAck}
    (hin : p.InTime (.received c dev (.known (.fwAck ack)))) {job : JobRow F}
    (hjob : job ∈ p.db.fwJobs)
    (hans : jobAnswered job (p.note (.received dev (.known (.fwAck ack)))).history) :
    p.Settled job ∨ p.openJob dev = some job := by
  rw [Pushes.note, jobAnswered_append, jobNote] at hans
  rcases Bool.or_eq_true_iff.mp hans with hold | habout
  · exact .inl (h.answered job hjob hold)
  · obtain ⟨hdev, hversion⟩ := Bool.and_eq_true_iff.mp habout
    rcases h.status job hjob with hown | hsettled
    · exact .inr (hin job hjob (of_decide_eq_true hdev).symm (of_decide_eq_true hversion).symm hown)
    · exact .inl hsettled

/-- An FW_ACK in time is written into the job it answers. -/
theorem Answers.fwAck (h : Answers p) {c : Nat} {dev : String} {ack : FwAck} {job : JobRow F}
    {now : F} (hin : p.InTime (.received c dev (.known (.fwAck ack))))
    (hjob : p.openJob dev = some job) :
    Answers ((p.note (.received dev (.known (.fwAck ack)))).modifyDb fun db =>
      db.fwJobUpdate job.id ack.statusName now) := by
  obtain ⟨hmem, hdev⟩ := openJob_mem hjob
  refine h.updateJob rfl (fun _ h => List.mem_append_left _ h) ?_ ?_ ?_
  · exact fun d v => configAnswer_append d v p.history (.received dev (.known (.fwAck ack)))
  · intro j hj hne hans
    rcases h.answered_or_open hin hj hans with hsettled | hopen
    · exact hsettled
    · rw [hjob] at hopen
      exact absurd (congrArg JobRow.id (Option.some.inj hopen)).symm hne
  · intro j hj hid
    have heq : j = job := h.eq_of_id hj hmem hid
    refine .inr (.inr ⟨ack, List.mem_append_right _ ?_, rfl⟩)
    rw [heq, hdev]
    exact List.mem_singleton.mpr rfl

/-- An FW_ACK with no open job answers none. -/
theorem Answers.fwAckIgnored (h : Answers p) {c : Nat} {dev : String} {ack : FwAck}
    (hin : p.InTime (.received c dev (.known (.fwAck ack)))) (hjob : p.openJob dev = none) :
    Answers (p.note (.received dev (.known (.fwAck ack)))) where
  fresh := h.fresh
  ids := h.ids
  config row hrow status hstatus := by
    rw [Pushes.note, configAnswer_append] at hstatus
    exact h.config row hrow status hstatus
  answered job hmem hans := by
    rcases h.answered_or_open hin hmem hans with hsettled | hopen
    · exact hsettled.note _
    · rw [hjob] at hopen
      cases hopen
  status job hmem := (h.status job hmem).imp id (·.note _)

/-- The new config is not answered. -/
theorem Answers.configured (h : Answers p) (row : ConfigRow F) {p' : Pushes F}
    (hstep : PushStep (.putConfig row.deviceId row.version)
      (Pushes.configDone row.deviceId row.version false)
      ((p.modifyDb fun db => { db with configs := db.configs ++ [row] }).note
        (.pushed row.deviceId row.version)) p') : Answers p' := by
  obtain ⟨q, hq⟩ : ∃ q, q = (p.modifyDb fun db => { db with configs := db.configs ++ [row] }).note
      (.pushed row.deviceId row.version) := ⟨_, rfl⟩
  have hold := h.pushed row.deviceId row.version
  -- the note of the push is the newest one, so nothing has answered it yet
  have hnone : configAnswer row.deviceId row.version q.history = none := by
    rw [hq]
    exact configAnswer_pushed p row.deviceId row.version
  have hnew : Answers q := by
    rw [hq]
    refine { hold with config := fun r hr status hstatus => ?_ }
    rcases List.mem_append.mp hr with hr | hr
    · exact hold.config r hr status hstatus
    · rw [List.mem_singleton.mp hr] at hstatus
      rw [hq] at hnone
      rw [hnone] at hstatus
      cases hstatus
  rw [← hq] at hstep
  -- the push fails, waits for its drain, or finds the device offline
  cases hstep with
  | raised => exact hnew
  | waits => exact hnew.waiting _
  | queued => exact hnew.configDone false hnone

/-- A status that `firmware_deploy` writes while nothing was answered. -/
theorem Answers.deployDone (h : Answers p) {jid : Nat} {ok : Bool} {now : F}
    (hnone : ∀ job ∈ p.db.fwJobs, job.id = jid → jobAnswered job p.history = false) :
    Answers (p.deployDone jid ok now) := by
  refine h.updateJob rfl (fun _ h => h) (fun _ _ => rfl)
    (fun j hj _ hans => h.answered j hj hans) ?_
  refine fun job hjob hid => .inl ⟨?_, hnone job hjob hid⟩
  cases ok <;> decide

/-- The new job is not answered. -/
theorem Answers.deployed (h : Answers p) {dev version : String} {fromVersion : Option String}
    {now now' : F} {p' : Pushes F}
    (hstep : PushStep (.deploy p.db.nextJobId) (Pushes.deployDone p.db.nextJobId false now')
      ((p.modifyDb fun db => db.fwJobCreate dev version fromVersion now).note
        (.deployed p.db.nextJobId)) p') : Answers p' := by
  obtain ⟨q, hq⟩ : ∃ q, q = (p.modifyDb fun db => db.fwJobCreate dev version fromVersion now).note
      (.deployed p.db.nextJobId) := ⟨_, rfl⟩
  -- the new job is the last row, pending, and no FW_ACK has reached it
  have hmem : ∀ job ∈ q.db.fwJobs, job ∈ p.db.fwJobs ∨
      (job.id = p.db.nextJobId ∧ job.status = "pending") := by
    intro job hjob
    rw [hq] at hjob
    rcases List.mem_append.mp hjob with hjob | hjob
    · exact .inl hjob
    · rw [List.mem_singleton.mp hjob]
      exact .inr ⟨rfl, rfl⟩
  have hnone : ∀ job : JobRow F, job.id = p.db.nextJobId → jobAnswered job q.history = false := by
    intro job hid
    rw [hq, Pushes.note, jobAnswered_append]
    exact if_pos hid.symm
  -- the note of the deploy answers no job, and the new id is above the old ones
  have hold : ∀ job ∈ p.db.fwJobs, jobAnswered job q.history → jobAnswered job p.history := by
    intro job hjob hans
    rw [hq, Pushes.note, jobAnswered_append, jobNote, if_neg] at hans
    · exact hans
    · exact fun heq => absurd (h.fresh job hjob) (by omega)
  have hsettled : ∀ job, p.Settled job → q.Settled job := fun job hjob => by
    rw [hq]
    exact hjob.note (.deployed p.db.nextJobId)
  have hnew : Answers q := by
    have hkeyed : q.db.JobsKeyed := by
      rw [hq]
      exact h.toJobsKeyed.fwJobCreate _ _ _ _
    refine { toJobsKeyed := hkeyed, config := ?_, answered := ?_, status := ?_ }
    · intro row hrow status hstatus
      rw [hq, Pushes.note, configAnswer_append] at hstatus
      rw [hq] at hrow
      exact h.config row hrow status hstatus
    · intro job hjob hans
      rcases hmem job hjob with hjob | ⟨hid, -⟩
      · exact hsettled job (h.answered job hjob (hold job hjob hans))
      · rw [hnone job hid] at hans
        cases hans
    · intro job hjob
      rcases hmem job hjob with hjob | ⟨-, hpending⟩
      · exact (h.status job hjob).imp id (hsettled job)
      · rw [hpending]
        exact .inl (by decide)
  rw [← hq] at hstep
  -- the push raises, waits for the drain, or was not written
  cases hstep with
  | raised => exact hnew
  | waits => exact hnew.waiting _
  | queued => exact hnew.deployDone fun job _ => hnone job

/-! ## Steps and runs -/

/-- One step in time keeps every answer. -/
theorem step_answers {l : Label} {p' : Pushes F} (h : Answers p) (hin : p.InTime l)
    (hstep : Step p l p') : Answers p' := by
  cases hstep with
  | quiet => exact h
  | restarted => exact h.waiting []
  | @hello c dev hello _ hstep =>
    have hnote := h.note (n := .received dev (.known (.hello hello))) (fun _ _ _ _ hs => hs)
      fun _ _ _ _ hb => hb
    exact hnote.helloStep hstep
  | configAck now => exact h.configAck _ _ now
  | fwAck job now hjob => exact h.fwAck hin hjob
  | fwAckIgnored hjob => exact h.fwAckIgnored hin hjob
  -- a frame that is no acknowledgement answers nothing
  | other hhello hconfig hfw =>
    refine h.note (fun _ _ a status hs => ?_) fun _ _ _ b hb => ?_
    · rw [configNote.eq_def] at hs
      split at hs
      · next heq => cases heq
      · next heq =>
        cases heq
        exact absurd rfl (hconfig _)
      · exact hs
    · rw [jobNote.eq_def] at hb
      split at hb
      · next heq => cases heq
      · next heq =>
        cases heq
        exact absurd rfl (hfw _)
      · exact hb
  | configRefused => exact h
  | configured row hdev hnew hstep =>
    subst hdev
    exact h.configured row hstep
  | deployRefused => exact h
  | deployed fromVersion now now' hstep => exact h.deployed hstep
  -- what a drain leaves to do writes a status of its own, and `hin` says it is in time
  | resumed i htask hstep =>
    have hrest := h.waiting (p.waiting.eraseIdx i)
    cases hstep with
    | helloConfig hjob => exact (hrest.configDone _ hin).jobStep hjob
    | helloFw => exact hrest
    | putConfig => exact hrest.configDone _ hin
    | deploy now => exact hrest.deployDone hin

/-- What the device calls a job's status is none of the backend's own words. -/
theorem Reported.ne_own {job : JobRow F} (h : p.Reported job) : job.status ∉ OWN_STATUSES := by
  obtain ⟨ack, -, hstatus⟩ := h
  rw [← hstatus, FwAck.statusName]
  rcases statusName_cases FW_ACK_STATUS ack.status with hname | hnumber
  · revert hname
    generalize statusName FW_ACK_STATUS ack.status = name
    revert name
    decide
  · rw [hnumber]
    intro hmem
    simp only [OWN_STATUSES, List.mem_cons, List.not_mem_nil, or_false] at hmem
    rcases hmem with heq | heq | heq
    · exact toString_ne (c := 'p') (by decide) (by decide) heq
    · exact toString_ne (c := 's') (by decide) (by decide) heq
    · exact toString_ne (c := 'q') (by decide) (by decide) heq

/-- What the invariant says of the statuses. -/
theorem Answers.answersKept (h : Answers p) : AnswersKept p where
  config row hrow status hstatus _ := h.config row hrow status hstatus
  job job hjob hans _ := by
    have hsettled := h.answered job hjob hans
    have hown : job.status ∉ OWN_STATUSES := by
      rcases hsettled with hcomplete | hreported
      · rw [hcomplete]
        decide
      · exact hreported.ne_own
    refine ⟨hsettled, fun heq => hown ?_, fun heq => hown ?_⟩ <;>
    · rw [heq]
      decide

end Pushes

namespace Ingest

variable [PyFloat F] [PyText F]

/-- In a run where every `drain` returns in time the answers stand. -/
theorem run_answersKept {events : List (Event F)}
    (h : AllSteps step (fun s e => s.pushes.InTime (s.label e)) (load (Engine.init {})) events) :
    (run events).pushes.AnswersKept := by
  have hanswers := h.invariant (P := fun s : Ingest F => s.pushes.Answers)
    (fun s e hin hs => Pushes.step_answers hs hin (step_pushes s e)) Pushes.Answers.init
  exact hanswers.answersKept

/-- A device that connects, and a registered firmware. -/
def connected : List (Event ℚ) :=
  [.frame 0 (frameOf "ECU-1" (.hello { fwString := "1.0.0", hwModel := "SIM-ECU-1",
                                       telemetryHz := 10, configVersion := 1 })) (.stopped 1),
   .firmwareAdd { version := "1.1.0" } (.stopped 2)]

/-- Each `drain` returns before the answer. -/
def promptRun : List (Event ℚ) :=
  connected ++
    [.putConfig "ECU-1" {} (.stopped 3), .drained 0 true (.stopped 4),
     .frame 0 (frameOf "ECU-1" (.configAck { configVersion := 2, status := 0 })) (.stopped 5),
     .firmwareDeploy "ECU-1" "1.1.0" (.stopped 6), .drained 0 true (.stopped 7),
     .frame 0 (frameOf "ECU-1" (.fwAck { status := 0, version := "1.1.0" })) (.stopped 8)]

theorem promptRun_answersKept :
    (run promptRun).pushes.AnswersKept ∧
      (run promptRun).db.configs.map ConfigRow.ackStatus = ["applied"] ∧
      (run promptRun).db.fwJobs.map JobRow.status = ["accepted"] :=
  ⟨run_answersKept (by decide +kernel), by decide +kernel, by decide +kernel⟩

/-- The device's answer is read while the push still waits. -/
def lateConfigRun : List (Event ℚ) :=
  connected ++
    [.putConfig "ECU-1" {} (.stopped 3),
     .frame 0 (frameOf "ECU-1" (.configAck { configVersion := 2, status := 0 })) (.stopped 4),
     .drained 0 true (.stopped 5)]

def lateDeployRun : List (Event ℚ) :=
  connected ++
    [.firmwareDeploy "ECU-1" "1.1.0" (.stopped 3),
     .frame 0 (frameOf "ECU-1" (.fwAck { status := 0, version := "1.1.0" })) (.stopped 4),
     .drained 0 true (.stopped 5)]

/-- 'applied' and 'accepted' are lost to 'sent'. -/
theorem late_not_answersKept :
    ¬ (run lateConfigRun).pushes.AnswersKept ∧ ¬ (run lateDeployRun).pushes.AnswersKept := by
  constructor
  · intro h
    have hkept : ∀ row ∈ (run lateConfigRun).pushes.db.configs,
        configAnswer row.deviceId row.version (run lateConfigRun).pushes.history = some "applied" →
        row.ackStatus = "applied" := fun row hrow hans =>
      h.config row hrow "applied" hans (by
        rw [show (run lateConfigRun).pushes.waiting = [] by decide +kernel]
        exact fun _ hmem => absurd hmem List.not_mem_nil)
    revert hkept
    decide +kernel
  · intro h
    have hkept : ∀ job ∈ (run lateDeployRun).pushes.db.fwJobs,
        jobAnswered job (run lateDeployRun).pushes.history → job.status ≠ "sent" :=
      fun job hjob hans => (h.job job hjob hans (by
        rw [show (run lateDeployRun).pushes.waiting = [] by decide +kernel]
        exact List.not_mem_nil)).2.1
    revert hkept
    decide +kernel

end Ingest

end EcuTelemetry.Backend
