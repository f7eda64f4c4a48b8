/-
  EcuTelemetry.Firmware.Causes

  Where the entries about injected faults come from.  A frame leaves the entry of
  its command and no other, a reboot is that of a command or of a finished
  download, and a tick has one mask, under which it computes its sample.
-/

import EcuTelemetry.Firmware.AgentLoop
import EcuTelemetry.Firmware.Outgoing

namespace EcuTelemetry.Firmware

open Proc

/-! ## Episodes -/

/-- The entries that episodes are made of. -/
def Seen.isMark : Seen → Bool
  | .rx _ _ => true
  | .handled _ _ => true
  | .inject _ _ => true
  | .cleared => true
  | .closed => true
  | .fired _ _ _ => true
  | .tick _ _ => true
  | .computed _ => true
  | .applied _ _ => true
  | _ => false

def Agent.marks (s : Agent) : List Seen := s.trace.filter Seen.isMark

/-- What a frame can ask about the injected faults. -/
inductive Command
  | inject (fi : FaultInject)
  | clear
  | reboot

/-- The command that the bytes of a frame hold. -/
def Frame.command (f : Frame) : Option Command :=
  if f.hdr.msgType = MsgType.FAULT_INJECT then (FaultInject.decode f.payload).map .inject
  else if f.hdr.msgType = MsgType.CMD then
    (Cmd.decode f.payload).bind fun c =>
      if c.cmd = CmdCode.REBOOT then some .reboot
      else if c.cmd = CmdCode.CLEAR_FAULTS then some .clear
      else none
  else none

/-- The entries of a command: one, and none without a command. -/
inductive Carried : Option Command → List Seen → Prop
  | nothing : Carried none []
  | inject (fi : FaultInject) (t : ℚ) : Carried (some (.inject fi)) [.inject fi t]
  | clear : Carried (some .clear) [.cleared]
  | reboot : Carried (some .reboot) [.closed]

/-- Entries of `--fault` that fire at `t`. -/
def FiredAt (t : ℚ) (es : List Seen) : Prop := ∀ e ∈ es, ∃ k f, e = .fired k f t

/-- One piece of a run, the latest entry first: a frame with its command, a tick,
    or the end of a download, which reboots. -/
inductive Episode : List Seen → Prop
  | frame (f : Frame) (v : UInt32) (r : Running) (es : List Seen) (h : Carried f.command es) :
      Episode (.handled f r :: (es ++ [.rx f v]))
  | tick (t : ℚ) (c : FlagSources) (es : List Seen) (h : FiredAt t es) :
      Episode (.computed c :: .tick t c.injected :: es)
  | applied (target : List Byte) (t : ℚ) : Episode [.closed, .applied target t]

/-- One episode after the other. -/
inductive Episodes : List Seen → Prop
  | nil : Episodes []
  | cons {es l : List Seen} (h : Episode es) (hl : Episodes l) : Episodes (es ++ l)

/-! ## What leaves no mark -/

/-- No mark, and the plant keeps its mask. -/
structure SameMarks (s s' : Agent) : Prop where
  marks : s'.marks = s.marks
  injected : s'.physics.injected = s.physics.injected

instance : IsPreorder Agent SameMarks where
  refl _ := ⟨rfl, rfl⟩
  trans _ _ _ h h' := ⟨h'.marks.trans h.marks, h'.injected.trans h.injected⟩

theorem SameMarks.of {s s' : Agent} (htrace : s'.trace = s.trace)
    (hinjected : s'.physics.injected = s.physics.injected) : SameMarks s s' :=
  ⟨congrArg (List.filter Seen.isMark) htrace, hinjected⟩

/-- An entry that is no mark. -/
theorem SameMarks.entry {s s' : Agent} {e : Seen} (htrace : s'.trace = e :: s.trace)
    (hinjected : s'.physics.injected = s.physics.injected) (he : e.isMark = false) :
    SameMarks s s' := by
  refine ⟨?_, hinjected⟩
  rw [Agent.marks, htrace, List.filter_cons_of_neg (by simp [he]), Agent.marks]

theorem sameMarks_drop (s : Agent) : SameMarks s s.drop := by
  by_cases hup : s.tcpState = .CONNECTED
  · exact .entry (if_pos hup) rfl rfl
  · exact .of (if_neg hup) rfl

/-- Nothing that sends a frame writes a mark. -/
theorem sends_sameMarks : Sends SameMarks where
  aside _ _ ha := by cases ha <;> exact .of rfl rfl
  world _ _ _ := .of rfl rfl
  logged _ _ _ _ := .entry rfl rfl rfl
  inLogSink _ _ := .of rfl rfl
  takeSent _ _ := .entry rfl rfl rfl
  retry _ _ := .of rfl rfl
  backOff _ := .of rfl rfl
  drop := sameMarks_drop
  overflow w s _ _ := by
    have hseq : SameMarks s (s.nextSeq.withWorld w) := .of rfl rfl
    exact trans_of SameMarks hseq (sameMarks_drop _)
  push _ _ _ _ _ _ _ _ _ := .entry rfl rfl rfl

theorem within_sameMarks : Within SameMarks := Sends.within sends_sameMarks

theorem sameMarks_noted {e : Seen} (he : e.isMark = false) (s : Agent) : SameMarks s (s.noted e) :=
  .entry rfl rfl he

theorem sameMarks_checkLocalAlerts : Keeps SameMarks checkLocalAlerts :=
  Sends.checkLocalAlerts sends_sameMarks (fun _ _ => .of rfl rfl) fun _ _ => sameMarks_noted rfl

theorem sameMarks_sendSample : Keeps SameMarks sendSample :=
  within_sameMarks.counts.sendSample
    (within_sameMarks.counts.emitSample fun _ _ => sameMarks_noted rfl)

theorem sameMarks_readSensors (p : SysfsSensors) : Keeps SameMarks (readSensors p) :=
  within_sameMarks.readSensors (fun _ => sameMarks_noted rfl) (fun _ => .of rfl rfl)
    (fun _ _ => .of rfl rfl) p

theorem sameMarks_handleConfigSet (f : Frame) : Keeps SameMarks (handleConfigSet f) := by
  have hconf : ∀ s s', Reconfigured s s' → SameMarks s s' :=
    fun _ _ hr => by cases hr <;> exact .of rfl rfl
  have hack : ∀ v status, Keeps SameMarks (sendConfigAck v status) := fun v status s =>
    Sends.sendFrame_of_push sends_sameMarks fun _ _ _ _ => .entry rfl rfl rfl
  exact within_sameMarks.handleConfigSet hconf hack f

/-- An update that is accepted leaves two entries, which are no marks. -/
theorem sameMarks_handleFwUpdate (f : Frame) : Keeps SameMarks (handleFwUpdate f) := by
  refine within_sameMarks.handleFwUpdate fun s fu target _ _ _ =>
    within_sameMarks.acceptFwUpdate fun w t _ => ?_
  have hbegin : SameMarks s ((s.beginOta fu target).withWorld w) := .entry rfl rfl rfl
  have hdue : SameMarks ((s.beginOta fu target).withWorld w)
      (((s.beginOta fu target).withWorld w).otaDoneAt t) := .entry rfl rfl rfl
  exact trans_of SameMarks hbegin hdue

theorem sameMarks_completeBoot (t : ℚ) : Keeps SameMarks (completeBoot t) := by
  refine within_sameMarks.completeBoot (fun _ _ => .of rfl rfl) (fun s => ?_) t
  rw [Agent.install]
  split
  · exact .entry rfl rfl rfl
  · exact .entry rfl rfl rfl

/-! ## A frame -/

/-- The marks that are added satisfy `P`. -/
def Adds (P : List Seen → Prop) (s s' : Agent) : Prop := ∃ es, P es ∧ s'.marks = es ++ s.marks

section Adds

variable {P : List Seen → Prop} {s u v : Agent}

theorem SameMarks.adds (h : SameMarks s u) (hP : P []) : Adds P s u := ⟨[], hP, h.marks⟩

theorem Adds.andThen (h : Adds P s u) (hv : SameMarks u v) : Adds P s v := by
  obtain ⟨es, hes, hmarks⟩ := h
  exact ⟨es, hes, hv.marks.trans hmarks⟩

end Adds

/-- A FAULT_INJECT leaves its entry if it decodes. -/
theorem adds_handleFaultInject (f : Frame) (s : Agent) :
    Adds (Carried ((FaultInject.decode f.payload).map .inject)) s (handleFaultInject f s).2 := by
  have hw := within_sameMarks
  rw [handleFaultInject]
  cases FaultInject.decode f.payload with
  | none => exact SameMarks.adds ((hw.log _ _ rfl).bind (fun _ => hw.sendFaultAck) s) .nothing
  | some fi =>
    obtain ⟨t, w, ht, -⟩ := now_run s
    have hinject : Adds (Carried (some (.inject fi))) s ((s.withWorld w).inject fi t) :=
      ⟨[.inject fi t], .inject fi t, rfl⟩
    dsimp only
    rw [bind_run_ok ht, modify_bind_run]
    exact hinject.andThen
      (Keeps.bind Keeps.get (fun _ => (hw.log _ _ rfl).bind fun _ => hw.sendFaultAck) _)

theorem adds_clearFaults (s : Agent) : Adds (Carried (some .clear)) s (clearFaults s).2 := by
  have hw := within_sameMarks
  have hclear : Adds (Carried (some .clear)) s s.clearInjected := ⟨[.cleared], .clear, rfl⟩
  rw [clearFaults, modify_bind_run]
  exact hclear.andThen
    (Keeps.bind Keeps.get (fun _ => (hw.log _ _ rfl).bind fun _ => hw.sendFaultAck) _)

theorem marks_startReboot (reason : List Byte) (fw : Bool) (s : Agent) :
    (startReboot reason fw s).2.marks = .closed :: s.marks := by
  obtain ⟨s', t, w, hs, -, heq⟩ :=
    within_sameMarks.startReboot_run (fun _ _ => .of rfl rfl) reason fw s
  have hmarks : ((s'.goQuiet.withWorld w).rebootAt t).marks = .closed :: s'.marks := rfl
  rw [heq, hmarks, hs.marks]

/-- CMD leaves the entry of `reboot` or of `clear_faults`. -/
theorem adds_handleCmd (f : Frame) (s : Agent) :
    Adds (Carried ((Cmd.decode f.payload).bind fun c =>
      if c.cmd = CmdCode.REBOOT then some .reboot
      else if c.cmd = CmdCode.CLEAR_FAULTS then some .clear else none)) s (handleCmd f s).2 := by
  have hw := within_sameMarks
  rw [handleCmd]
  cases Cmd.decode f.payload with
  | none => exact SameMarks.adds (hw.log _ _ rfl s) .nothing
  | some c =>
    rw [Option.bind_some]
    dsimp only
    split
    · exact ⟨[.closed], .reboot, marks_startReboot _ _ s⟩
    · split
      · exact adds_clearFaults s
      · split
        · exact SameMarks.adds (hw.requestHello s) .nothing
        · exact SameMarks.adds (hw.log _ _ rfl s) .nothing

/-- The `switch` leaves the entry of the frame's command. -/
theorem adds_dispatch (f : Frame) (s : Agent) : Adds (Carried f.command) s (dispatch f s).2 := by
  -- a frame of another type carries no command
  have hnothing : ∀ {u : Agent}, f.hdr.msgType ≠ MsgType.FAULT_INJECT →
      f.hdr.msgType ≠ MsgType.CMD → SameMarks s u → Adds (Carried f.command) s u := by
    intro u hinject hcmd hu
    rw [Frame.command, if_neg hinject, if_neg hcmd]
    exact hu.adds .nothing
  rw [dispatch]
  split
  · next h => exact hnothing (by rw [h]; decide) (by rw [h]; decide) (sameMarks_handleConfigSet f s)
  · split
    · next h =>
      exact hnothing (by rw [h]; decide) (by rw [h]; decide) (sameMarks_handleFwUpdate f s)
    · split
      · next h =>
        rw [Frame.command, if_pos h]
        exact adds_handleFaultInject f s
      · next hinject =>
        split
        · next h =>
          rw [Frame.command, if_neg hinject, if_pos h]
          exact adds_handleCmd f s
        · next hcmd => exact hnothing hinject hcmd (within_sameMarks.log _ _ rfl s)

/-- A frame is one episode. -/
theorem adds_handleFrame (f : Frame) (s : Agent) : Adds Episode s (handleFrame f s).2 := by
  have hlog : SameMarks (s.noted (.rx f s.fwVersion)) (log .DEBUG (Printf.str "rx " ++
      msgTypeName f.hdr.msgType ++ Printf.str " seq=" ++ Printf.dec f.hdr.seq.toNat ++
      Printf.str " len=" ++ Printf.dec f.payloadLen.toNat) (s.noted (.rx f s.fwVersion))).2 :=
    within_sameMarks.log _ _ rfl _
  rw [handleFrame, bind_run_ok (get_run s), note, modify_bind_run, unit_bind_run, note,
    modify_bind_run, unit_bind_run, bind_run_ok (get_run _)]
  generalize (log .DEBUG _ _).2 = u at hlog ⊢
  have hrx : (u.noted .dispatch).marks = .rx f s.fwVersion :: s.marks := hlog.marks
  obtain ⟨es, hes, hmarks⟩ := adds_dispatch f (u.noted .dispatch)
  generalize (dispatch f (u.noted .dispatch)).2 = v at hmarks ⊢
  have hhandled : (v.noted (.handled f v.running)).marks = .handled f v.running :: v.marks := rfl
  refine ⟨_, .frame f s.fwVersion v.running es hes, ?_⟩
  rw [note, modify_run, hhandled, hmarks, hrx]
  simp

/-! ## A tick -/

/-- One scheduled fault adds the note that it fired, or nothing. -/
theorem adds_fireFault (t : ℚ) (i : ℕ) (s : Agent) : Adds (FiredAt t) s (fireFault t i s).2 := by
  have hnone : FiredAt t [] := by simp [FiredAt]
  rw [fireFault, bind_run_ok (get_run s)]
  cases s.opts.faults[i]? with
  | none => exact ⟨[], hnone, rfl⟩
  | some f =>
    have hfire : Adds (FiredAt t) s (s.fire f t i) := ⟨[.fired i f t], by simp [FiredAt], rfl⟩
    dsimp only
    rw [when]
    split
    · rw [modify_bind_run]
      exact hfire.andThen (within_sameMarks.log _ _ rfl _)
    · exact ⟨[], hnone, rfl⟩

/-- All of them in one tick add such notes. -/
theorem adds_fireFaults (t : ℚ) (ks : List ℕ) (s : Agent) :
    Adds (FiredAt t) s (forEach ks (fireFault t) s).2 := by
  induction ks generalizing s with
  | nil => exact ⟨[], by simp [FiredAt], rfl⟩
  | cons k ks ih =>
    obtain ⟨es, hes, hmarks⟩ := adds_fireFault t k s
    obtain ⟨es', hes', hmarks'⟩ := ih (fireFault t k s).2
    refine ⟨es' ++ es, fun e he => ?_, ?_⟩
    · rcases List.mem_append.mp he with he | he
      · exact hes' e he
      · exact hes e he
    · rw [forEach, unit_bind_run, hmarks', hmarks, List.append_assoc]

/-- Another mask for the plant is no mark of its own. -/
theorem marks_pushMask (mask : UInt32) (c d : Prop) [Decidable c] [Decidable d] (s : Agent) :
    (when c (do
      modify (Agent.setMask mask)
      when d sendFaultAck) s).2.marks = s.marks := by
  have hack : SameMarks (s.setMask mask) (when d sendFaultAck (s.setMask mask)).2 :=
    Keeps.when (fun _ => within_sameMarks.sendFaultAck) _
  rw [when]
  split
  · rw [modify_bind_run]
    exact hack.marks
  · rfl

/-- `updateInjections` fires what is due and ends with the mask that the plant has. -/
theorem marks_updateInjections (t : ℚ) (s : Agent) :
    ∃ es, FiredAt t es ∧ (updateInjections t s).2.marks =
      .tick t (updateInjections t s).2.physics.injected :: (es ++ s.marks) := by
  obtain ⟨es, hes, hmarks⟩ := adds_fireFaults t (List.range s.opts.faults.length) s
  rw [updateInjections, bind_run_ok (get_run s), unit_bind_run]
  generalize (forEach _ (fireFault t) s).2 = u at hmarks ⊢
  have hexpire := within_sameMarks.expireInjections t u.injections u
  obtain ⟨kept, hkept⟩ := exists_run_ok (expireInjections t u.injections) u
  rw [bind_run_ok (get_run u), bind_run_ok hkept, modify_bind_run, bind_run_ok (get_run _),
    unit_bind_run, bind_run_ok (get_run _), note, modify_run]
  refine ⟨es, hes, ?_⟩
  show .tick t _ :: Agent.marks _ = _
  rw [marks_pushMask]
  refine congrArg _ (hexpire.marks.trans hmarks)

/-- The rest of a tick: its sample is computed. -/
def sampleRest : AgentM Unit := do
  modify Agent.noteComputed
  checkLocalAlerts
  sendTelemetry

theorem marks_sampleRest (s : Agent) :
    (sampleRest s).2.marks = .computed s.flagSources :: s.marks := by
  have hrest :
      SameMarks s.noteComputed ((checkLocalAlerts >>= fun _ => sendTelemetry) s.noteComputed).2 :=
    Keeps.bind sameMarks_checkLocalAlerts
      (fun _ => within_sameMarks.counts.sendTelemetry sameMarks_sendSample) _
  rw [sampleRest, modify_bind_run]
  exact hrest.marks

/-- A tick is one episode. -/
theorem adds_tick (s : Agent) : Adds Episode s (tick s).2 := by
  obtain ⟨t, ht⟩ := exists_run_ok now s
  have hnow := (within_sameMarks.now s).marks
  obtain ⟨es, hes, hmarks⟩ := marks_updateInjections t (now s).2
  rw [tick, bind_run_ok ht, unit_bind_run]
  generalize (updateInjections t (now s).2).2 = u at hmarks ⊢
  rw [hnow] at hmarks
  -- the plant's step and the sensors leave the mask alone
  have hsample : ∀ v, SameMarks u v → Adds Episode s (sampleRest v).2 := by
    intro v hv
    have hinjected : v.flagSources.injected = u.physics.injected := hv.injected
    refine ⟨_, .tick t v.flagSources es hes, ?_⟩
    rw [marks_sampleRest, hv.marks, hmarks, hinjected]
    rfl
  obtain ⟨r, hr⟩ := exists_run_ok
    (ask (·.plant) fun w x => { w with plant := x } : AgentM PlantReadings) u
  have hplant : SameMarks u
      ((ask (·.plant) (fun w x => { w with plant := x }) u).2.stepPlant r) := .of rfl rfl
  rw [bind_run_ok hr, modify_bind_run, bind_run_ok (get_run _)]
  generalize (ask (·.plant) (fun w x => { w with plant := x }) u).2.stepPlant r = v at hplant ⊢
  cases v.sensors with
  | none => exact hsample v hplant
  | some p =>
    dsimp only
    rw [unit_bind_run]
    exact hsample _ (trans_of SameMarks hplant (sameMarks_readSensors p v))

/-! ## The end of a download -/

/-- An update that is applied reboots. -/
theorem adds_finishOta (t : ℚ) (s : Agent) : Adds Episode s (finishOta t s).2 := by
  have hw := within_sameMarks
  rw [finishOta, bind_run_ok (get_run s), note, modify_bind_run, unit_bind_run, unit_bind_run,
    modify_bind_run]
  have hack := hw.sendFwAck FwAckStatus.APPLIED s.ota.target (s.noted (.applied s.ota.target t))
  generalize (sendFwAck FwAckStatus.APPLIED s.ota.target _).2 = u at hack ⊢
  have hlog : SameMarks u (log .INFO (Printf.str "firmware " ++ s.ota.target ++
      Printf.str " applied, rebooting") u).2 := hw.log _ _ rfl u
  generalize (log .INFO _ u).2 = v at hlog ⊢
  have happlied : v.commitOta.marks = .applied s.ota.target t :: s.marks :=
    hlog.marks.trans hack.marks
  refine ⟨_, .applied s.ota.target t, ?_⟩
  rw [marks_startReboot, happlied]
  rfl

/-! ## Runs -/

/-- The run so far is made of episodes. -/
def Whole (s : Agent) : Prop := Episodes s.marks

theorem Adds.whole {s s' : Agent} (h : Adds Episode s s') : Holds Whole s s' := by
  intro hs
  obtain ⟨es, hes, hmarks⟩ := h
  rw [Whole, hmarks]
  exact .cons hes hs

theorem SameMarks.whole {s s' : Agent} (h : SameMarks s s') : Holds Whole s s' := by
  intro hs
  rw [Whole, h.marks]
  exact hs

/-- Every step of the loop keeps the history a concatenation of whole episodes. -/
theorem steps_episodes : Steps (Holds Whole) where
  toWithin := within_sameMarks.weaken fun _ _ h => h.whole
  tcpFail why s := (Sends.tcpFail sends_sameMarks why s).whole
  setTcpFd _ s := (SameMarks.of rfl rfl).whole
  setRx _ s _ := (SameMarks.of rfl rfl).whole
  goUp s _ _ := by
    have hup : SameMarks s s.goUp := .entry rfl rfl rfl
    exact (trans_of SameMarks hup (within_sameMarks.sendHello _)).whole
  setConnecting s _ _ := (SameMarks.of rfl rfl).whole
  tick s := (adds_tick s).whole
  handleFrame f s _ _ := (adds_handleFrame f s).whole
  finishOta t s _ _ _ _ := (adds_finishOta t s).whole
  completeBoot t s _ _ := (sameMarks_completeBoot t s).whole

/-- A run is made of episodes. -/
theorem episodes_top (opts : AgentOptions) (cfg : Config) (sensors : Option SysfsSensors)
    (world : World) (n : ℕ) : Episodes (Agent.top opts cfg sensors world n).marks := by
  have hstart := within_sameMarks.start (fun _ _ => .of rfl rfl) (.init opts cfg sensors world)
  have hinit : Episodes (Agent.init opts cfg sensors world).marks := .nil
  exact steps_episodes.top (hstart.whole hinit) n

end EcuTelemetry.Firmware
