/-
  EcuTelemetry.Backend.JobAcks

  FW_ACKs and HELLOs change the latest job of a device, whatever version they
  name.  Where the latest job is the one they are about, an FW_ACK moves only
  its job, and a HELLO leaves no job of its version unfinished.
-/

import EcuTelemetry.Backend.LateSent

namespace EcuTelemetry.Backend

open Protocol

variable {F : Type}

/-- What `fw_job_update` makes of a row. -/
theorem Database.mem_fwJobUpdate {db : Database F} {jid : Nat} {status : String} {now : F}
    {job' : JobRow F} (h : job' ∈ (db.fwJobUpdate jid status now).fwJobs) :
    ∃ job ∈ db.fwJobs, job'.id = job.id ∧ job'.deviceId = job.deviceId ∧
      job'.targetVersion = job.targetVersion ∧
      job'.status = if job.id = jid then status else job.status := by
  obtain ⟨job, hjob, rfl⟩ := List.mem_map.mp h
  refine ⟨job, hjob, ?_⟩
  by_cases hid : job.id = jid
  · simp [hid]
  · simp [hid]

theorem JobRow.finished_congr {job job' : JobRow F} (h : job'.status = job.status) :
    job'.finished = job.finished := by rw [JobRow.finished, h, JobRow.finished]

instance (cfg : ConfigRow F) : Decidable cfg.Packs :=
  match h : cfg.configSet with
  | .error e => isFalse fun ⟨_, _, hset, _⟩ => by rw [h] at hset; cases hset
  | .ok payload =>
    match h' : payload.pack with
    | .error e => isFalse fun ⟨_, _, hset, hpack⟩ => by
        rw [h] at hset
        cases hset
        rw [h'] at hpack
        cases hpack
    | .ok bytes => isTrue ⟨payload, bytes, h, h'⟩

/-- `_after_hello` of a connection waits for the `drain` of a config. -/
def Waiting.greets (c : Nat) : Waiting → Bool
  | helloConfig c' _ _ _ => c' = c
  | _ => false

namespace Pushes

/-- An FW_ACK changes the status of jobs of its device and version only. -/
def OnlyItsJob (p p' : Pushes F) : Label → Prop
  | .received _ dev (.known (.fwAck ack)) =>
    ∀ job ∈ p.db.fwJobs, ∀ job' ∈ p'.db.fwJobs, job'.id = job.id → job'.status ≠ job.status →
      job.deviceId = dev ∧ job.targetVersion = ack.version
  | _ => True

/-- The HELLO whose processing a step to `p'` ends. -/
def greeted (p' : Pushes F) : Label → Option (String × Hello)
  | .received c dev (.known (.hello hello)) =>
    if p'.waiting.any (·.greets c) then none else some (dev, hello)
  | .resumed (.helloConfig _ dev hello _) _ => some (dev, hello)
  | _ => none

/-- No job of the version is unfinished. -/
def Finished (p : Pushes F) (dev version : String) : Prop :=
  ∀ job ∈ p.db.fwJobs, job.deviceId = dev → job.targetVersion = version → job.finished

/-- An unfinished job of the version is the latest job of the device. -/
def LatestOnly (p : Pushes F) (dev version : String) : Prop :=
  ∀ job ∈ p.db.fwJobs, job.deviceId = dev → job.targetVersion = version → job.finished = false →
    p.openJob dev = some job

/-- An FW_ACK and a HELLO are about the latest job, the config that a HELLO asks
    for packs if a job depends on it, and a `drain` returns before its job is
    finished. -/
def Apart (p : Pushes F) : Label → Prop
  | .received _ dev (.known (.fwAck ack)) =>
    ∀ job ∈ p.openJob dev, job.targetVersion = ack.version
  | .received _ dev (.known (.hello hello)) =>
    p.LatestOnly dev hello.fwString ∧
      ∀ job ∈ p.openJob dev, job.targetVersion = hello.fwString →
        ∀ cfg ∈ p.newerConfig dev hello, cfg.Packs
  | .resumed (.helloConfig _ dev hello _) _ => p.LatestOnly dev hello.fwString
  | .resumed (.deploy jid) _ => ∀ job ∈ p.db.fwJobs, job.id = jid → job.finished = false
  | _ => True

instance [DecidableEq F] (p : Pushes F) (dev version : String) :
    Decidable (p.LatestOnly dev version) := by unfold LatestOnly; infer_instance

instance [DecidableEq F] (p : Pushes F) (l : Label) : Decidable (p.Apart l) := by
  unfold Apart
  cases l with
  | received c dev payload =>
    cases payload with
    | known payload => cases payload <;> infer_instance
    | raw raw => infer_instance
  | resumed task ok => cases task <;> infer_instance
  | _ => infer_instance

/-! ## One step -/

variable {p p' : Pushes F}

/-- One step: an FW_ACK changes the job of its device and version only. -/
theorem step_onlyItsJob {l : Label} (h : p.db.JobsKeyed) (hapart : p.Apart l)
    (hstep : Step p l p') :
    OnlyItsJob p p' l := by
  -- a job with its old row has its old status
  have hsame : p'.db.fwJobs = p.db.fwJobs → ∀ job ∈ p.db.fwJobs, ∀ job' ∈ p'.db.fwJobs,
      job'.id = job.id → job'.status = job.status := by
    intro heq job hjob job' hjob' hid
    rw [h.eq_of_id (heq ▸ hjob') hjob hid]
  cases hstep with
  | @fwAck c dev ack latest now hlatest =>
    intro job hjob job' hjob' hid hne
    obtain ⟨j, hj, hid', -, -, hstatus⟩ := Database.mem_fwJobUpdate hjob'
    have heq : j = job := h.eq_of_id hj hjob (hid'.symm.trans hid)
    subst heq
    by_cases hmoved : j.id = latest.id
    · obtain ⟨hmem, hdev⟩ := openJob_mem hlatest
      rw [h.eq_of_id hj hmem hmoved]
      exact ⟨hdev, hapart latest hlatest⟩
    · rw [if_neg hmoved] at hstatus
      exact absurd hstatus hne
  | fwAckIgnored hjob =>
    exact fun job hjob job' hjob' hid hne => absurd (hsame rfl job hjob job' hjob' hid) hne
  | @other c dev payload hhello hconfig hfw =>
    rw [OnlyItsJob.eq_def]
    split
    · next heq =>
      cases heq
      exact absurd rfl (hfw _)
    · trivial
  | quiet => trivial
  | restarted => trivial
  | hello hstep => trivial
  | configAck now => trivial
  | configRefused => trivial
  | configured row hdev hnew hstep => trivial
  | deployRefused => trivial
  | deployed fromVersion now now' hstep => trivial
  | resumed i htask hstep => trivial

/-- After a HELLO with the target version the job is complete. -/
theorem JobStep.finished {c : Nat} {dev : String} {hello : Hello}
    (hstep : JobStep c dev hello p p') (hlatest : p.LatestOnly dev hello.fwString) :
    p'.Finished dev hello.fwString := by
  -- nothing unfinished is left out
  have hrest : ∀ job ∈ p.db.fwJobs, job.deviceId = dev → job.targetVersion = hello.fwString →
      (∀ open', p.openJob dev = some open' → hello.fwString ≠ open'.targetVersion) →
      job.finished := by
    intro job hjob hdev htarget hother
    by_contra hopen
    have hopen := hlatest job hjob hdev htarget (by simpa using hopen)
    exact hother job hopen htarget.symm
  cases hstep with
  | complete latest now hopen htarget =>
    intro job' hjob' hdev htarget'
    obtain ⟨job, hjob, -, hd, ht, hstatus⟩ := Database.mem_fwJobUpdate hjob'
    by_cases hmoved : job.id = latest.id
    · rw [if_pos hmoved] at hstatus
      rw [JobRow.finished, hstatus]
      decide
    · rw [if_neg hmoved] at hstatus
      rw [JobRow.finished_congr hstatus]
      by_contra hunfinished
      have heq := hlatest job hjob (hd ▸ hdev) (ht ▸ htarget') (by simpa using hunfinished)
      rw [hopen] at heq
      exact hmoved (congrArg JobRow.id (Option.some.inj heq)).symm
  | leave hother => exact fun job hjob hdev htarget => hrest job hjob hdev htarget hother
  | resume hother => exact fun job hjob hdev htarget => hrest job hjob hdev htarget hother

/-- One step: who says HELLO with the target has no open job left. -/
theorem step_finished {l : Label} {dev : String} {hello : Hello} (hapart : p.Apart l)
    (hstep : Step p l p') (hgreeted : p'.greeted l = some (dev, hello)) :
    p'.Finished dev hello.fwString := by
  cases hstep with
  | @hello c d h _ hstep =>
    rw [greeted] at hgreeted
    split at hgreeted
    · cases hgreeted
    next hwaits =>
    cases hgreeted
    obtain ⟨hlatest, hpacks⟩ := hapart
    cases hstep with
    | upToDate hcfg hjob => exact hjob.finished hlatest
    | raised cfg hcfg hraised =>
      -- the job that would be left behind asks for a config that packs
      intro job hjob hdev htarget
      by_contra hopen
      have hopen := hlatest job hjob hdev htarget (by simpa using hopen)
      exact hraised (hpacks job hopen htarget cfg hcfg)
    | waits cfg hcfg =>
      have hmem : Waiting.helloConfig c dev hello cfg.version ∈
          p.waiting ++ [.helloConfig c dev hello cfg.version] :=
        List.mem_append_right _ (List.mem_singleton.mpr rfl)
      exact absurd (List.any_eq_true.mpr ⟨_, hmem, by simp [Waiting.greets]⟩) hwaits
    | queued cfg hcfg hjob => exact hjob.finished hlatest
  | resumed i htask hstep =>
    cases hstep with
    | helloConfig hjob =>
      cases hgreeted
      exact hjob.finished hapart
    | helloFw => cases hgreeted
    | putConfig => cases hgreeted
    | deploy now => cases hgreeted
  | quiet => cases hgreeted
  | restarted => cases hgreeted
  | configAck now => cases hgreeted
  | fwAck job now hjob => cases hgreeted
  | fwAckIgnored hjob => cases hgreeted
  | other hhello hconfig hfw =>
    rw [greeted.eq_def] at hgreeted
    split at hgreeted
    · next heq =>
      cases heq
      exact absurd rfl (hhello _)
    · next heq => cases heq
    · cases hgreeted
  | configRefused => cases hgreeted
  | configured row hdev hnew hstep => cases hgreeted
  | deployRefused => cases hgreeted
  | deployed fromVersion now now' hstep => cases hgreeted

theorem JobStep.nextJobId {c : Nat} {dev : String} {hello : Hello}
    (hstep : JobStep c dev hello p p') : p'.db.nextJobId = p.db.nextJobId := by
  cases hstep <;> rfl

/-- Ids are given in increasing order. -/
theorem step_nextJobId {l : Label} (hstep : Step p l p') : p.db.nextJobId ≤ p'.db.nextJobId := by
  cases hstep with
  | hello hstep =>
    cases hstep with
    | upToDate hcfg hjob => exact hjob.nextJobId.ge
    | raised cfg hcfg hpacks => exact le_refl _
    | waits cfg hcfg => exact le_refl _
    | queued cfg hcfg hjob => exact hjob.nextJobId.ge
  | configured row hdev hnew hstep => cases hstep <;> exact le_refl _
  | deployed fromVersion now now' hstep => cases hstep <;> exact Nat.le_succ _
  | resumed i htask hstep =>
    cases hstep with
    | helloConfig hjob => exact hjob.nextJobId.ge
    | helloFw => exact le_refl _
    | putConfig => exact le_refl _
    | deploy now => exact le_refl _
  | _ => exact le_refl _

/-- Every job of before is there, and finished if it was. -/
def StaysFinished (p p' : Pushes F) : Prop :=
  ∀ job' ∈ p'.db.fwJobs, job'.id < p.db.nextJobId →
    ∃ job ∈ p.db.fwJobs, job.id = job'.id ∧ (job.finished → job'.finished)

theorem StaysFinished.of_jobs_eq (h : p'.db.fwJobs = p.db.fwJobs) : StaysFinished p p' :=
  fun job' hjob' _ => ⟨job', h ▸ hjob', rfl, id⟩

/-- An update that does not open a finished job again. -/
theorem StaysFinished.update {jid : Nat} {status : String} {now : F}
    (hq : p'.db = p.db.fwJobUpdate jid status now)
    (hopen : ∀ job ∈ p.db.fwJobs, job.id = jid → job.finished →
      ∀ job' : JobRow F, job'.status = status → job'.finished) : StaysFinished p p' := by
  intro job' hjob' _
  rw [hq] at hjob'
  obtain ⟨job, hjob, hid, -, -, hstatus⟩ := Database.mem_fwJobUpdate hjob'
  refine ⟨job, hjob, hid.symm, fun hfinished => ?_⟩
  by_cases hmoved : job.id = jid
  · rw [if_pos hmoved] at hstatus
    exact hopen job hjob hmoved hfinished job' hstatus
  · rw [if_neg hmoved] at hstatus
    rw [JobRow.finished_congr hstatus]
    exact hfinished

/-- `_after_hello` only completes jobs. -/
theorem JobStep.staysFinished {c : Nat} {dev : String} {hello : Hello}
    (hstep : JobStep c dev hello p p') : StaysFinished p p' := by
  cases hstep with
  | complete latest now hopen htarget =>
    refine .update rfl fun job _ _ _ job' hstatus => ?_
    rw [JobRow.finished, hstatus]
    decide
  | leave hother => exact .of_jobs_eq rfl
  | resume hother => exact .of_jobs_eq rfl

/-- One step leaves finished jobs finished. -/
theorem step_staysFinished {l : Label} (h : p.db.JobsKeyed) (hapart : p.Apart l)
    (hstep : Step p l p') : StaysFinished p p' := by
  cases hstep with
  | quiet => exact .of_jobs_eq rfl
  | restarted => exact .of_jobs_eq rfl
  | hello hstep =>
    cases hstep with
    | upToDate hcfg hjob => exact hjob.staysFinished
    | raised cfg hcfg hpacks => exact .of_jobs_eq rfl
    | waits cfg hcfg => exact .of_jobs_eq rfl
    | queued cfg hcfg hjob => exact hjob.staysFinished
  | configAck now => exact .of_jobs_eq rfl
  | @fwAck c dev ack latest now hopen =>
    -- an FW_ACK moves a job that is not finished
    obtain ⟨hmem, -⟩ := openJob_mem hopen
    refine .update (p := p.note (.received dev (.known (.fwAck ack)))) rfl
      fun job hjob hid hfinished => ?_
    rw [h.eq_of_id hjob hmem hid, openJob_unfinished hopen] at hfinished
    cases hfinished
  | fwAckIgnored hjob => exact .of_jobs_eq rfl
  | other hhello hconfig hfw => exact .of_jobs_eq rfl
  | configRefused => exact .of_jobs_eq rfl
  | configured row hdev hnew hstep =>
    cases hstep with
    | raised => exact .of_jobs_eq rfl
    | waits => exact .of_jobs_eq rfl
    | queued => exact .of_jobs_eq rfl
  | deployRefused => exact .of_jobs_eq rfl
  | @deployed dev version _ fromVersion now now' hstep =>
    obtain ⟨q, hq⟩ : ∃ q, q = p.modifyDb fun db => db.fwJobCreate dev version fromVersion now :=
      ⟨_, rfl⟩
    have hcreated : ∀ job' ∈ q.db.fwJobs, job'.id < p.db.nextJobId → job' ∈ p.db.fwJobs := by
      intro job' hjob' hold
      rw [hq] at hjob'
      rcases List.mem_append.mp hjob' with hjob' | hjob'
      · exact hjob'
      · rw [List.mem_singleton.mp hjob'] at hold
        exact absurd hold (lt_irrefl _)
    rw [← hq] at hstep
    cases hstep with
    | raised => exact fun job' hjob' hold => ⟨job', hcreated job' hjob' hold, rfl, id⟩
    | waits => exact fun job' hjob' hold => ⟨job', hcreated job' hjob' hold, rfl, id⟩
    | queued =>
      intro job' hjob' hold
      obtain ⟨job, hjob, hid, -, -, hstatus⟩ := Database.mem_fwJobUpdate hjob'
      rw [hid] at hold
      rw [if_neg hold.ne] at hstatus
      refine ⟨job, hcreated job hjob hold, hid.symm, fun hfinished => ?_⟩
      rw [JobRow.finished_congr hstatus]
      exact hfinished
  | resumed i htask hstep =>
    cases hstep with
    | helloConfig hjob => exact hjob.staysFinished
    | helloFw => exact .of_jobs_eq rfl
    | putConfig => exact .of_jobs_eq rfl
    | deploy now =>
      refine .update (p := { p with waiting := p.waiting.eraseIdx i }) rfl
        fun job hjob hid hfinished => ?_
      rw [hapart job hjob hid] at hfinished
      cases hfinished

end Pushes

/-! ## Runs -/

namespace Ingest

variable [PyFloat F] [PyText F]

/-- The jobs of a run keep apart: its event `e` moves only the job it is about,
    and if `e` ends the processing of a HELLO, the jobs of the version it
    reports are finished at the end. -/
structure JobsApart (pre : List (Event F)) (e : Event F) (post : List (Event F)) : Prop where
  acks : (run pre).pushes.OnlyItsJob (run (pre ++ [e])).pushes ((run pre).label e)
  installed : ∀ dev hello,
    (run (pre ++ [e])).pushes.greeted ((run pre).label e) = some (dev, hello) →
    ∀ job ∈ (run (pre ++ [e])).db.fwJobs, job.deviceId = dev →
      job.targetVersion = hello.fwString →
      ∀ job' ∈ (run (pre ++ e :: post)).db.fwJobs, job'.id = job.id → job'.finished

/-- At an FW_ACK: whatever changes is the job of that device and version. -/
theorem JobsApart.of_fwAck {pre post : List (Event F)} {e : Event F} (h : JobsApart pre e post)
    {c : Nat} {dev : String} {ack : FwAck}
    (hlabel : (run pre).label e = .received c dev (.known (.fwAck ack))) :
    ∀ job ∈ (run pre).pushes.db.fwJobs, ∀ job' ∈ (run (pre ++ [e])).pushes.db.fwJobs,
      job'.id = job.id → job'.status ≠ job.status →
      job.deviceId = dev ∧ job.targetVersion = ack.version := by
  have hacks := h.acks
  rw [hlabel] at hacks
  exact hacks

theorem run_jobsKeyed (events : List (Event F)) : (run events).pushes.db.JobsKeyed := by
  have hsteps : AllSteps step (fun _ _ => True) (load (Engine.init (F := F) {})) events :=
    .of_forall fun _ _ _ => trivial
  refine hsteps.invariant (P := fun s : Ingest F => s.pushes.db.JobsKeyed) (fun s e _ hs => ?_)
    ⟨fun _ h => absurd h List.not_mem_nil, List.nodup_nil⟩
  exact Pushes.step_jobsKeyed hs (step_pushes s e)

/-- A finished job stays finished to the end of a run. -/
theorem exec_finished {s : Ingest F} {post : List (Event F)} {jid : Nat}
    (h : AllSteps step (fun s e => s.pushes.Apart (s.label e)) s post)
    (hkeyed : s.pushes.db.JobsKeyed) (hold : jid < s.db.nextJobId)
    (hfinished : ∀ job ∈ s.db.fwJobs, job.id = jid → job.finished) :
    ∀ job ∈ (exec step s post).db.fwJobs, job.id = jid → job.finished := by
  have hend := h.invariant
    (P := fun s : Ingest F => s.pushes.db.JobsKeyed ∧ jid < s.db.nextJobId ∧
      ∀ job ∈ s.db.fwJobs, job.id = jid → job.finished)
    (fun s e hapart ⟨hkeyed, hold, hfinished⟩ => ?_) ⟨hkeyed, hold, hfinished⟩
  · exact hend.2.2
  · have hstep := step_pushes s e
    refine ⟨Pushes.step_jobsKeyed hkeyed hstep, ?_, fun job' hjob' hid => ?_⟩
    · exact lt_of_lt_of_le hold (Pushes.step_nextJobId hstep)
    · obtain ⟨job, hjob, hid', hstays⟩ := Pushes.step_staysFinished hkeyed hapart hstep job' hjob'
        (hid ▸ hold)
      exact hstays (hfinished job hjob (hid'.trans hid))

/-- Every run whose steps keep overlapping deploys apart. -/
theorem run_jobsApart {pre post : List (Event F)} {e : Event F}
    (h : AllSteps step (fun s e => s.pushes.Apart (s.label e)) (load (Engine.init {}))
      (pre ++ e :: post)) : JobsApart pre e post := by
  obtain ⟨-, hapart, hpost⟩ := AllSteps.append.mp h
  have hkeyed := run_jobsKeyed pre
  have hkeyed' := run_jobsKeyed (pre ++ [e])
  have hstep := step_pushes (run pre) e
  have hrun : run (pre ++ [e]) = step (run pre) e := exec_append [e]
  have hend : run (pre ++ e :: post) = exec step (run (pre ++ [e])) post := by
    rw [hrun, run, exec_append, exec_cons]
    rfl
  rw [← hrun] at hstep
  refine ⟨Pushes.step_onlyItsJob hkeyed hapart hstep, fun dev hello hgreeted job hjob hdev ht => ?_⟩
  rw [hend]
  refine exec_finished (hrun ▸ hpost) hkeyed' (hkeyed'.fresh job hjob) fun j hj hid => ?_
  rw [hkeyed'.eq_of_id hj hjob hid]
  exact Pushes.step_finished hapart hstep hgreeted job hjob hdev ht

/-- What a device with this firmware says on connection 0. -/
def helloOf (fwString : String) (t : Nat) : Event ℚ :=
  .frame 0 (frameOf "ECU-1" (.hello { fwString := fwString, hwModel := "SIM-ECU-1",
                                      telemetryHz := 10, configVersion := 1 })) (.stopped t)

def fwAckOf (status : Nat) (version : String) (t : Nat) : Event ℚ :=
  .frame 0 (frameOf "ECU-1" (.fwAck { status := status, version := version })) (.stopped t)

/-- One update, from the request to the HELLO of the new firmware. -/
def updateRun : List (Event ℚ) :=
  connected ++ [.firmwareDeploy "ECU-1" "1.1.0" (.stopped 3), .drained 0 true (.stopped 4),
                fwAckOf 0 "1.1.0" 5]

/-- A second request before the first answer. -/
def overlapRun : List (Event ℚ) :=
  connected ++
    [.firmwareAdd { version := "1.2.0" } (.stopped 3),
     .firmwareDeploy "ECU-1" "1.1.0" (.stopped 4), .drained 0 true (.stopped 5),
     .firmwareDeploy "ECU-1" "1.2.0" (.stopped 6), .drained 0 true (.stopped 7)]

/-- The device takes the second one and runs it; the first stays as it is. -/
theorem overlapRun_jobsApart :
    JobsApart overlapRun (fwAckOf 0 "1.2.0" 8) [helloOf "1.2.0" 9, .offlinePass (.stopped 10)] ∧
      JobsApart (overlapRun ++ [fwAckOf 0 "1.2.0" 8]) (helloOf "1.2.0" 9)
        [.offlinePass (.stopped 10)] ∧
      (run (overlapRun ++ [fwAckOf 0 "1.2.0" 8, helloOf "1.2.0" 9])).db.fwJobs.map
        (fun job => (job.targetVersion, job.status)) = [("1.1.0", "sent"), ("1.2.0", "complete")] :=
  ⟨run_jobsApart (by decide +kernel), run_jobsApart (by decide +kernel), by decide +kernel⟩

/-- The refusal of the second job, then the HELLO of the first. -/
def refusedRun : List (Event ℚ) := overlapRun ++ [fwAckOf 0 "1.1.0" 8, fwAckOf 3 "1.2.0" 9]

/-- The answer for 1.1.0 moves the job for 1.2.0; the job for 1.1.0 stays 'sent'
    although the device reports to run it. -/
theorem overlap_not_jobsApart :
    ¬ JobsApart overlapRun (fwAckOf 0 "1.1.0" 8) [] ∧
      ¬ JobsApart refusedRun (helloOf "1.1.0" 10) [] := by
  constructor
  · intro h
    have hlabel : (run overlapRun).label (fwAckOf 0 "1.1.0" 8) =
        .received 0 "ECU-1" (.known (.fwAck { status := 0, version := "1.1.0" })) := by
      decide +kernel
    have hacks := h.of_fwAck hlabel
    revert hacks
    decide +kernel
  · intro h
    have hfinished := h.installed "ECU-1" ⟨"1.1.0", "SIM-ECU-1", 1, 10⟩ (by decide +kernel)
    revert hfinished
    decide +kernel

end Ingest

end EcuTelemetry.Backend
