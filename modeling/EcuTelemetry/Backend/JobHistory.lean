/-
  EcuTelemetry.Backend.JobHistory

  The history of an OTA job says what happened to it.  It begins with 'pending',
  its last entry is the status of the job, and each later entry has its cause:
  the request that deployed it, an FW_ACK of its device, or a HELLO of its
  device that announces exactly the version of the job.
-/

import EcuTelemetry.Backend.JobAcks

namespace EcuTelemetry.Backend

open Protocol

variable {F : Type}

/-! ## Causes -/

/-- What `history` has to say for a job to be given a status. -/
inductive StatusCause (history : List Note) (job : JobRow F) (status : String) : Prop
  | created (hstatus : status = "pending")
  | pushed (hdeployed : .deployed job.id ∈ history) (hstatus : status = "sent" ∨ status = "queued")
  | answered (ack : FwAck) (hreceived : .received job.deviceId (.known (.fwAck ack)) ∈ history)
      (hstatus : status = ack.statusName)
  | announced (hello : Hello) (hreceived : .received job.deviceId (.known (.hello hello)) ∈ history)
      (hversion : hello.fwString = job.targetVersion) (hstatus : status = "complete")

/-- The job's history is complete and has its causes. -/
structure JobRow.Traced (history : List Note) (job : JobRow F) : Prop where
  first : (job.history.map Prod.fst).head? = some "pending"
  last : (job.history.map Prod.fst).getLast? = some job.status
  causes : ∀ e ∈ job.history, StatusCause history job e.1

/-- A cause stays one when more is noted. -/
theorem StatusCause.mono {history history' : List Note} {job job' : JobRow F} {status : String}
    (hsub : history ⊆ history') (hid : job'.id = job.id) (hdev : job'.deviceId = job.deviceId)
    (htarget : job'.targetVersion = job.targetVersion) (h : StatusCause history job status) :
    StatusCause history' job' status := by
  cases h with
  | created hstatus => exact .created hstatus
  | pushed hdeployed hstatus => exact .pushed (hid ▸ hsub hdeployed) hstatus
  | answered ack hreceived hstatus => exact .answered ack (hdev ▸ hsub hreceived) hstatus
  | announced hello hreceived hversion hstatus =>
    exact .announced hello (hdev ▸ hsub hreceived) (htarget ▸ hversion) hstatus

theorem JobRow.Traced.mono {history history' : List Note} {job : JobRow F}
    (hsub : history ⊆ history') (h : job.Traced history) : job.Traced history' :=
  ⟨h.first, h.last, fun e he => (h.causes e he).mono hsub rfl rfl rfl⟩

namespace Pushes

/-! ## The invariant -/

/-- Every job is traced, and a coroutine goes on with what was noted. -/
structure Traced (p : Pushes F) : Prop where
  jobs : ∀ job ∈ p.db.fwJobs, job.Traced p.history
  deploys : ∀ jid, .deploy jid ∈ p.waiting → .deployed jid ∈ p.history
  hellos : ∀ c dev hello version, .helloConfig c dev hello version ∈ p.waiting →
    .received dev (.known (.hello hello)) ∈ p.history

variable {p p' : Pushes F}

theorem Traced.note (h : p.Traced) (n : Note) : (p.note n).Traced where
  jobs job hjob := (h.jobs job hjob).mono (List.subset_append_left _ _)
  deploys jid hjid := List.mem_append_left _ (h.deploys jid hjid)
  hellos c dev hello version hmem := List.mem_append_left _ (h.hellos c dev hello version hmem)

/-- Configs are none of its business, and waiting coroutines may go. -/
theorem Traced.congr (h : p.Traced) (hjobs : p'.db.fwJobs = p.db.fwJobs)
    (hwaiting : p'.waiting ⊆ p.waiting) (hhistory : p'.history = p.history) : p'.Traced where
  jobs job hjob := hhistory ▸ h.jobs job (hjobs ▸ hjob)
  deploys jid hjid := hhistory ▸ h.deploys jid (hwaiting hjid)
  hellos c dev hello version hmem := hhistory ▸ h.hellos c dev hello version (hwaiting hmem)

/-- What waits was noted before. -/
theorem Traced.suspend {task : Waiting} (h : p.Traced)
    (hdeploy : ∀ jid, task = .deploy jid → .deployed jid ∈ p.history)
    (hhello : ∀ c dev hello version, task = .helloConfig c dev hello version →
      .received dev (.known (.hello hello)) ∈ p.history) : (p.suspend task).Traced where
  jobs := h.jobs
  deploys jid hjid := by
    rcases List.mem_append.mp hjid with hjid | hjid
    · exact h.deploys jid hjid
    · exact hdeploy jid (List.mem_singleton.mp hjid).symm
  hellos c dev hello version hmem := by
    rcases List.mem_append.mp hmem with hmem | hmem
    · exact h.hellos c dev hello version hmem
    · exact hhello c dev hello version (List.mem_singleton.mp hmem).symm

/-- A new job, which is noted as deployed. -/
theorem Traced.create (h : p.Traced) (dev version : String) (fromVersion : Option String)
    (now : F) :
    (p.modifyDb fun db => db.fwJobCreate dev version fromVersion now).Traced where
  jobs job hjob := by
    rcases List.mem_append.mp hjob with hjob | hjob
    · exact h.jobs job hjob
    · rw [List.mem_singleton.mp hjob]
      refine ⟨rfl, rfl, fun e he => ?_⟩
      rw [List.mem_singleton.mp he]
      exact .created rfl
  deploys := h.deploys
  hellos := h.hellos

/-- A status with a cause. -/
theorem Traced.update (h : p.Traced) {jid : Nat} {status : String} {now : F}
    (hcause : ∀ job ∈ p.db.fwJobs, job.id = jid → StatusCause p.history job status) :
    (p.modifyDb fun db => db.fwJobUpdate jid status now).Traced where
  jobs job hjob := by
    obtain ⟨job₀, hmem, rfl⟩ := List.mem_map.mp hjob
    -- an update appends one status to the job it names
    have htraced := h.jobs job₀ hmem
    split
    · next hid =>
      refine ⟨?_, ?_, fun e he => ?_⟩
      · show ((job₀.history ++ [(status, now)]).map Prod.fst).head? = _
        rw [List.map_append, List.head?_append, htraced.first]
        rfl
      · show ((job₀.history ++ [(status, now)]).map Prod.fst).getLast? = some status
        rw [List.map_append]
        exact List.getLast?_concat
      · rcases List.mem_append.mp he with he | he
        · exact @StatusCause.mono F _ _ job₀ _ e.1 (List.Subset.refl p.history) rfl rfl rfl
            (htraced.causes e he)
        · rw [List.mem_singleton.mp he]
          exact @StatusCause.mono F _ _ job₀ _ status (List.Subset.refl p.history) rfl rfl rfl
            (hcause job₀ hmem hid)
    · exact htraced
  deploys := h.deploys
  hellos := h.hellos

/-! ## One step -/

/-- The job of a HELLO. -/
theorem JobStep.traced {c : Nat} {dev : String} {hello : Hello} (hstep : JobStep c dev hello p p')
    (h : p.Traced) (hkeyed : p.db.JobsKeyed)
    (hreceived : .received dev (.known (.hello hello)) ∈ p.history) : p'.Traced := by
  cases hstep with
  | complete job now hjob htarget =>
    obtain ⟨hmem, hdev⟩ := openJob_mem hjob
    refine h.update fun job' hmem' hid => ?_
    -- the id belongs to the open job
    obtain rfl := hkeyed.eq_of_id hmem' hmem hid
    exact .announced hello (hdev ▸ hreceived) htarget rfl
  | leave hother => exact h
  | resume hother => exact h.suspend nofun nofun

theorem Traced.configDone {dev : String} {version : Nat} {ok : Bool} (h : p.Traced) :
    (p.configDone dev version ok).Traced := h.congr rfl (List.Subset.refl _) rfl

theorem Traced.deployDone {jid : Nat} {ok : Bool} {now : F} (h : p.Traced)
    (hdeployed : .deployed jid ∈ p.history) : (p.deployDone jid ok now).Traced := by
  refine h.update fun job _ hid => .pushed (hid ▸ hdeployed) ?_
  cases ok with
  | true => exact .inl rfl
  | false => exact .inr rfl

/-- All that follows a HELLO. -/
theorem HelloStep.traced {c : Nat} {dev : String} {hello : Hello}
    (hstep : HelloStep c dev hello p p') (h : p.Traced) (hkeyed : p.db.JobsKeyed)
    (hreceived : .received dev (.known (.hello hello)) ∈ p.history) : p'.Traced := by
  cases hstep with
  | upToDate hcfg hjob => exact hjob.traced h hkeyed hreceived
  | raised cfg hcfg hpacks => exact h.note _
  | waits cfg hcfg =>
    refine (h.note _).suspend nofun fun c' dev' hello' version' heq => ?_
    obtain ⟨-, rfl, rfl, -⟩ := Waiting.helloConfig.inj heq
    exact List.mem_append_left _ hreceived
  | queued cfg hcfg hjob =>
    exact hjob.traced (h.note _).configDone (hkeyed.of_rows_eq rfl rfl)
      (List.mem_append_left _ hreceived)

/-- One step: each status that a job takes has its cause. -/
theorem step_traced {l : Label} (h : p.Traced) (hkeyed : p.db.JobsKeyed) (hstep : Step p l p') :
    p'.Traced := by
  cases hstep with
  | quiet => exact h
  | restarted => exact h.congr rfl (List.nil_subset _) rfl
  | hello hstep =>
    exact hstep.traced (h.note _) (hkeyed.of_rows_eq rfl rfl)
      (List.mem_append_right _ (List.mem_singleton_self _))
  | configAck now => exact (h.note _).congr rfl (List.Subset.refl _) rfl
  | @fwAck c dev ack job now hjob =>
    -- the row that changes is the one found, and the FW_ACK is the note just made
    obtain ⟨hmem, hdev⟩ := openJob_mem hjob
    refine (h.note _).update fun job' hmem' hid => ?_
    obtain rfl := hkeyed.eq_of_id hmem' hmem hid
    exact .answered ack (hdev ▸ List.mem_append_right _ (List.mem_singleton_self _)) rfl
  | fwAckIgnored hjob => exact h.note _
  | other hhello hconfig hfw => exact h.note _
  | configRefused => exact h
  | configured row hdev hnew hstep =>
    have hrow : (p.modifyDb fun db => { db with configs := db.configs ++ [row] }).Traced :=
      h.congr rfl (List.Subset.refl _) rfl
    have hnoted := hrow.note (.pushed row.deviceId row.version)
    cases hstep with
    | raised => exact hdev ▸ hnoted
    | waits => exact hdev ▸ hnoted.suspend nofun nofun
    | queued => exact hdev ▸ hnoted.configDone
  | deployRefused => exact h
  | @deployed dev version _ fromVersion now now' hstep =>
    -- the row is created with `pending`, then the push is noted
    have hnoted := (h.create dev version fromVersion now).note (.deployed p.db.nextJobId)
    have hmem : Note.deployed p.db.nextJobId ∈
        p.history ++ [Note.deployed p.db.nextJobId] :=
      List.mem_append_right _ (List.mem_singleton_self _)
    cases hstep with
    | raised => exact hnoted
    | waits =>
      -- what waits holds the id of the job that was noted
      refine hnoted.suspend (fun jid heq => ?_) nofun
      obtain rfl := Waiting.deploy.inj heq
      exact hmem
    | queued => exact hnoted.deployDone hmem
  | @resumed task ok _ i htask hstep =>
    have hmem : task ∈ p.waiting := List.mem_of_getElem? htask
    have hrest : Traced { p with waiting := p.waiting.eraseIdx i } :=
      h.congr rfl List.eraseIdx_subset rfl
    cases hstep with
    | @helloConfig c dev hello version _ _ hjob =>
      exact hjob.traced hrest.configDone (hkeyed.of_rows_eq rfl rfl)
        (h.hellos c dev hello version hmem)
    | helloFw => exact hrest
    | putConfig => exact hrest.configDone
    | @deploy jid _ now => exact hrest.deployDone (h.deploys jid hmem)

end Pushes

/-! ## Runs -/

namespace Ingest

variable [PyFloat F] [PyText F]

/-- Every run. -/
theorem run_traced (events : List (Event F)) :
    (run events).pushes.db.JobsKeyed ∧ (run events).pushes.Traced := by
  have hsteps : AllSteps step (fun _ _ => True) (load (Engine.init (F := F) {})) events :=
    .of_forall fun _ _ _ => trivial
  refine hsteps.invariant
    (P := fun s : Ingest F => s.pushes.db.JobsKeyed ∧ s.pushes.Traced) (fun s e _ hs => ?_) ?_
  · have hstep := step_pushes s e
    exact ⟨Pushes.step_jobsKeyed hs.1 hstep, Pushes.step_traced hs.2 hs.1 hstep⟩
  · exact ⟨⟨fun _ h => absurd h List.not_mem_nil, List.nodup_nil⟩,
      ⟨fun _ h => absurd h List.not_mem_nil, fun _ h => absurd h List.not_mem_nil,
        fun _ _ _ _ h => absurd h List.not_mem_nil⟩⟩

/-- An FW_ACK cannot complete a job. -/
theorem statusName_ne_complete (ack : FwAck) : ack.statusName ≠ "complete" := by
  rcases statusName_cases FW_ACK_STATUS ack.status with hmem | heq
  · intro h
    rw [FwAck.statusName] at h
    rw [h] at hmem
    revert hmem
    decide
  · rw [FwAck.statusName, heq]
    exact toString_ne (c := 'c') (by decide) (by decide)

/-- In every run every job's history begins with 'pending', ends with its status, and every
    entry has its cause.  So a job is complete only if a HELLO of its device announced
    exactly its target version. -/
theorem run_jobHistories (events : List (Event F)) :
    ∀ job ∈ (run events).db.fwJobs, job.Traced (run events).history ∧
      (job.status = "complete" → ∃ hello,
        .received job.deviceId (.known (.hello hello)) ∈ (run events).history ∧
          hello.fwString = job.targetVersion) := by
  intro job hjob
  have htraced := (run_traced events).2.jobs job hjob
  refine ⟨htraced, fun hcomplete => ?_⟩
  -- the last entry of the history is the status
  have hmem : job.status ∈ job.history.map Prod.fst := List.mem_of_getLast? htraced.last
  obtain ⟨e, he, hstatus⟩ := List.mem_map.mp hmem
  have hcause := htraced.causes e he
  rw [hstatus, hcomplete] at hcause
  cases hcause with
  | created h => exact absurd h (by decide)
  | pushed _ h => exact absurd h (by decide)
  | answered ack _ h => exact absurd h.symm (statusName_ne_complete ack)
  | announced hello hreceived hversion _ => exact ⟨hello, hreceived, hversion⟩

/-- The update of `updateRun`, up to the HELLO of the new firmware. -/
theorem updateRun_jobHistories :
    ∃ job ∈ (run (updateRun ++ [helloOf "1.1.0" 6])).db.fwJobs,
      job.history.map Prod.fst = ["pending", "sent", "accepted", "complete"] ∧
      job.Traced (run (updateRun ++ [helloOf "1.1.0" 6])).history := by
  obtain ⟨job, hjob, hhistory⟩ :
      ∃ job ∈ (run (updateRun ++ [helloOf "1.1.0" 6])).db.fwJobs,
        job.history.map Prod.fst = ["pending", "sent", "accepted", "complete"] := by
    decide +kernel
  exact ⟨job, hjob, hhistory, (run_jobHistories _ job hjob).1⟩

end Ingest

end EcuTelemetry.Backend
