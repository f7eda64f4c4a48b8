/-
  EcuTelemetry.Firmware.ConfigInForce

  The configuration in use over a run: it is the start-up one or the one of the
  last CONFIG_SET that was accepted, in full, after every handled frame; every
  CONFIG_SET has its acknowledgement; HELLO and HEARTBEAT report it.
-/

import EcuTelemetry.Firmware.AgentLoop
import EcuTelemetry.Firmware.Outgoing
import EcuTelemetry.Lib.History

namespace EcuTelemetry.Firmware

open Proc

/-! ## The configuration of a trace -/

/-- What `applyHz` makes of a rate. -/
def clampHz (hz : ℤ) : ℤ :=
  let hz := if hz < 1 then 1 else hz
  if hz > 1000 then 1000 else hz

/-- The configuration in use after start-up. -/
def Config.running (cfg : Config) : Running where
  cfg := { cfg with hz := clampHz cfg.hz }
  periodS := 1 / clampHz cfg.hz
  logLevel := cfg.logLevel
  limits := cfg.limits

/-- The configuration that a CONFIG_SET asks for. -/
def ConfigSet.config (cs : ConfigSet) : Config where
  configVersion := cs.configVersion
  hz := cs.telemetryHz.toNat
  logLevel := .ofCode cs.logLevel
  limits :=
    { rpmLimit := cs.rpmLimit, tempLimitC := cs.tempLimitC, currentLimitA := cs.currentLimitA }

/-- All the places a CONFIG_SET goes to. -/
def ConfigSet.running (cs : ConfigSet) : Running where
  cfg := cs.config
  periodS := 1 / cs.config.hz
  logLevel := cs.config.logLevel
  limits := cs.config.limits

/-- The frame is a CONFIG_SET. -/
def Frame.isConfigSet (f : Frame) : Prop := f.hdr.msgType = MsgType.CONFIG_SET

instance (f : Frame) : Decidable f.isConfigSet := inferInstanceAs (Decidable (_ = _))

/-- The CONFIG_SET that a frame carries, if it is well-formed and acceptable. -/
def Frame.accepted (f : Frame) : Option ConfigSet :=
  if f.isConfigSet then (ConfigSet.decode f.payload).filter ConfigSet.acceptable else none

/-- The acknowledgement of a CONFIG_SET. -/
def Frame.configAck (f : Frame) : ConfigAck where
  configVersion := ((ConfigSet.decode f.payload).map ConfigSet.configVersion).getD 0
  status := if f.accepted.isSome then 0 else 1

/-- The frame that is being handled. -/
def handling : List Seen → Option Frame
  | [] => none
  | .rx f _ :: _ => some f
  | .handled _ _ :: _ => none
  | _ :: es => handling es

/-- The configuration in use: the last accepted CONFIG_SET replaces it. -/
def runningAt (r₀ : Running) : List Seen → Running
  | [] => r₀
  | .dispatch :: es =>
    (((handling es).bind Frame.accepted).map ConfigSet.running).getD (runningAt r₀ es)
  | _ :: es => runningAt r₀ es

/-- The payloads of the acknowledgements since the last frame came in. -/
def acksSince : List Seen → List (List Byte)
  | [] => []
  | .rx _ _ :: _ => []
  | .queued hdr payload :: es =>
    if hdr.msgType = MsgType.CONFIG_ACK then payload :: acksSince es else acksSince es
  | _ :: es => acksSince es

/-- The channel has gone down since the last frame came in. -/
def wentDown : List Seen → Bool
  | [] => true
  | .rx _ _ :: _ => false
  | .lost :: _ => true
  | .closed :: _ => true
  | _ :: es => wentDown es

/-- What an entry says about the configuration.  After a handled frame the one of
    the trace is in use, and a CONFIG_SET has its acknowledgement unless the
    channel went down.  HELLO and HEARTBEAT carry its version.  An
    acknowledgement is the first one of a CONFIG_SET that is being handled. -/
def Configured (r₀ : Running) (e : Seen) (es : List Seen) : Prop :=
  match e with
  | .handled f r => r = runningAt r₀ es ∧ handling es = some f ∧
      (f.isConfigSet → wentDown es = false → acksSince es = [f.configAck.encode])
  | .queued hdr payload =>
      (hdr.msgType = MsgType.HELLO → ∃ h : Hello, payload = h.encode ∧
        h.configVersion = (runningAt r₀ es).cfg.configVersion) ∧
      (hdr.msgType = MsgType.HEARTBEAT → ∃ h : Heartbeat, payload = h.encode ∧
        h.configVersion = (runningAt r₀ es).cfg.configVersion) ∧
      (hdr.msgType = MsgType.CONFIG_ACK → ∃ f, handling es = some f ∧ f.isConfigSet ∧
        acksSince es = [] ∧ payload = f.configAck.encode)
  | _ => True

/-- An acknowledgement says whether the CONFIG_SET was applied. -/
theorem configAck_status (f : Frame) : f.configAck.status = 0 ↔ f.accepted.isSome := by
  rw [Frame.configAck]
  split
  · next h => exact ⟨fun _ => h, fun _ => rfl⟩
  · next h => exact ⟨nofun, fun h' => absurd h' h⟩

/-! ## The invariant -/

/-- The members and the part of the trace that a CONFIG_SET is about. -/
structure ConfigView where
  running : Running
  recorded : Running
  frame : Option Frame
  acks : List (List Byte)
  down : Bool
  state : TcpState

def Agent.configView (r₀ : Running) (s : Agent) : ConfigView :=
  { running := s.running, recorded := runningAt r₀ s.trace, frame := handling s.trace
    acks := acksSince s.trace, down := wentDown s.trace, state := s.tcpState }

namespace ConfigView

/-- The configuration in use is that of the trace. -/
def Agrees (v : ConfigView) : Prop := v.running = v.recorded

/-- Between two frames. -/
def Idle (v : ConfigView) : Prop := v.Agrees ∧ v.frame = none

/-- A frame is being handled, without an acknowledgement yet. -/
def Open (f : Frame) (v : ConfigView) : Prop :=
  v.frame = some f ∧ v.acks = [] ∧ (v.down = false → v.state = .CONNECTED)

/-- The same, with the configuration in force. -/
def Agreed (f : Frame) (v : ConfigView) : Prop := v.Agrees ∧ v.Open f

/-- A CONFIG_SET has its acknowledgement. -/
def Answered (f : Frame) (v : ConfigView) : Prop :=
  v.Agrees ∧ v.frame = some f ∧ (v.down = false → v.acks = [f.configAck.encode])

/-- What is left is the end of `handleFrame`. -/
def Ended (f : Frame) (v : ConfigView) : Prop :=
  v.Agrees ∧ v.frame = some f ∧ (f.isConfigSet → v.down = false → v.acks = [f.configAck.encode])

end ConfigView

/-- The history is right, and the agent is in one of the states `K`. -/
structure ConfigInv (r₀ : Running) (K : ConfigView → Prop) (s : Agent) : Prop where
  history : Throughout (Configured r₀) s.trace
  view : K (s.configView r₀)

/-- What `K` has to allow for sending: the configuration is in force, and a lost
    channel is noticed. -/
structure Sendable (K : ConfigView → Prop) : Prop where
  agrees : ∀ v, K v → v.Agrees
  drop : ∀ v, K v → K { v with down := true, state := .DISCONNECTED }
  keep : ∀ v, K v → v.state ≠ .CONNECTED → K { v with state := .DISCONNECTED }

theorem sendable_idle : Sendable ConfigView.Idle where
  agrees _ h := h.1
  drop _ h := h
  keep _ h _ := h

theorem sendable_agreed (f : Frame) : Sendable (ConfigView.Agreed f) where
  agrees _ h := h.1
  drop _ h := ⟨h.1, h.2.1, h.2.2.1, nofun⟩
  keep _ h hne := ⟨h.1, h.2.1, h.2.2.1, fun hdown => absurd (h.2.2.2 hdown) hne⟩

theorem sendable_answered (f : Frame) : Sendable (ConfigView.Answered f) where
  agrees _ h := h.1
  drop _ h := ⟨h.1, h.2.1, nofun⟩
  keep _ h _ := h

section Updates

variable {r₀ : Running} {J K : ConfigView → Prop} {s u : Agent}

/-- An update of other members. -/
theorem ConfigInv.congr (h : ConfigInv r₀ K s) (hview : u.configView r₀ = s.configView r₀)
    (htrace : u.trace = s.trace) : ConfigInv r₀ K u :=
  ⟨htrace ▸ h.history, hview ▸ h.view⟩

/-- An update with an entry. -/
theorem ConfigInv.step {e : Seen} (h : ConfigInv r₀ J s) (htrace : u.trace = e :: s.trace)
    (he : Configured r₀ e s.trace) (hview : K (u.configView r₀)) : ConfigInv r₀ K u :=
  ⟨htrace ▸ h.history.cons he, hview⟩

/-- An update of the members that are not in the trace. -/
theorem ConfigInv.move (h : ConfigInv r₀ J s) (htrace : u.trace = s.trace)
    (hview : K (u.configView r₀)) : ConfigInv r₀ K u := ⟨htrace ▸ h.history, hview⟩

/-! ## Sending -/

/-- A lost channel is noticed, and the configuration stays. -/
theorem ConfigInv.drop (hK : Sendable K) (h : ConfigInv r₀ K s) : ConfigInv r₀ K s.drop := by
  by_cases hup : s.tcpState = .CONNECTED
  · have hview : s.drop.configView r₀ =
        { s.configView r₀ with down := true, state := .DISCONNECTED } := by
      rw [Agent.configView, show s.drop.trace = .lost :: s.trace from if_pos hup]
      rfl
    exact h.step (e := .lost) (if_pos hup) trivial (hview ▸ hK.drop _ h.view)
  · have hview : s.drop.configView r₀ = { s.configView r₀ with state := .DISCONNECTED } := by
      rw [Agent.configView, show s.drop.trace = s.trace from if_neg hup]
      rfl
    exact h.move (if_neg hup) (hview ▸ hK.keep _ h.view hup)

/-- HELLO and HEARTBEAT carry the version in use. -/
theorem ConfigInv.push (hK : Sendable K) (h : ConfigInv r₀ K s) {msgType : UInt8} (ts : UInt64)
    {payload : List Byte} (w : World) (hne : msgType ≠ MsgType.CONFIG_ACK)
    (hreports : Reports s msgType payload) : ConfigInv r₀ K (s.push msgType ts payload w) := by
  have hagrees : s.running = runningAt r₀ s.trace := hK.agrees _ h.view
  have hversion : s.cfg.configVersion = (runningAt r₀ s.trace).cfg.configVersion :=
    congrArg (fun r => r.cfg.configVersion) hagrees
  refine h.step rfl ⟨fun hhello => ?_, fun hbeat => ?_, fun hack => absurd hack hne⟩ ?_
  · exact ⟨s.hello, hreports.hello hhello, hversion⟩
  · obtain ⟨uptimeS, hpayload⟩ := hreports.heartbeat hbeat
    exact ⟨s.heartbeat uptimeS, hpayload, hversion⟩
  · have hview : (s.push msgType ts payload w).configView r₀ = s.configView r₀ :=
      congrArg (fun acks => ({ s.configView r₀ with acks := acks } : ConfigView)) (if_neg hne)
    exact hview ▸ h.view

/-- Sending changes no configuration. -/
theorem sends_configInv (r₀ : Running) (hK : Sendable K) : Sends (Holds (ConfigInv r₀ K)) where
  aside _ _ ha h := by cases ha <;> exact h.congr rfl rfl
  world _ _ _ h := h.congr rfl rfl
  logged _ _ _ _ h := h.step rfl trivial h.view
  inLogSink _ _ h := h.congr rfl rfl
  takeSent _ _ h := h.step rfl trivial h.view
  retry _ _ h := h.congr rfl rfl
  backOff _ h := h.congr rfl rfl
  drop _ h := h.drop hK
  overflow w s _ _ h := (h.congr (u := s.nextSeq.withWorld w) rfl rfl).drop hK
  push _ ts _ w _ _ _ hne hreports h := h.push hK ts w hne hreports

theorem configInv_reinjected (s u : Agent) (hr : Reinjected s u) :
    Holds (ConfigInv r₀ K) s u := by
  intro h
  cases hr with
  | setInjections is => exact h.congr rfl rfl
  | setMask mask => exact h.congr rfl rfl
  | _ => exact h.step rfl trivial h.view

/-! ## CONFIG_SET -/

/-- The acknowledgement goes out, unless there is no channel any more. -/
theorem configInv_sendConfigAck {f : Frame} (hf : f.isConfigSet)
    (h : ConfigInv r₀ (ConfigView.Agreed f) s) {v : UInt32} {status : UInt8}
    (hack : f.configAck = { configVersion := v, status := status }) :
    ConfigInv r₀ (ConfigView.Answered f) (sendConfigAck v status s).2 := by
  have hs := sends_configInv r₀ (sendable_answered f)
  obtain ⟨hagrees, hframe, hacks, hup⟩ := h.view
  rcases sendFrame_cases MsgType.CONFIG_ACK (ConfigAck.encode { configVersion := v, status }) s with
    ⟨hdown, heq⟩ | ⟨hstate, w, why, -, heq⟩ | ⟨hstate, ts, w, -, heq⟩
  -- not connected: nothing to send
  · rw [sendConfigAck, heq]
    exact h.move rfl ⟨hagrees, hframe, fun hno => absurd (hup hno) hdown⟩
  -- the buffer is full: the channel is dropped with the acknowledgement
  · rw [sendConfigAck, heq]
    refine hs.tcpFail_of_drop why (refl_of _ _) ?_
    have hdrop := (h.congr (u := s.nextSeq.withWorld w) rfl rfl).drop (sendable_agreed f)
    refine hdrop.move rfl ⟨hdrop.view.1, hdrop.view.2.1, fun hno => ?_⟩
    exact nomatch hdrop.view.2.2.2 hno
  -- queued
  · rw [sendConfigAck, heq]
    refine hs.tcpFlush _ (h.step (e := .queued (s.header MsgType.CONFIG_ACK ts)
      (ConfigAck.encode { configVersion := v, status })) rfl ?_ ⟨hagrees, hframe, fun _ => ?_⟩)
    · have hhello : MsgType.CONFIG_ACK ≠ MsgType.HELLO := by decide
      have hbeat : MsgType.CONFIG_ACK ≠ MsgType.HEARTBEAT := by decide
      refine ⟨fun h => absurd h hhello, fun h => absurd h hbeat, fun _ => ?_⟩
      exact ⟨f, hframe, hf, hacks, by rw [hack]⟩
    · show ConfigAck.encode _ :: acksSince s.trace = _
      rw [show acksSince s.trace = [] from hacks, hack]

/-- An acceptable rate passes `clampHz` unchanged. -/
theorem clampHz_of_acceptable {cs : ConfigSet} (h : cs.acceptable = true) :
    clampHz cs.telemetryHz.toNat = cs.telemetryHz.toNat := by
  simp only [ConfigSet.acceptable, Bool.and_eq_true, decide_eq_true_eq] at h
  obtain ⟨⟨⟨⟨⟨⟨⟨hlow, hhigh⟩, -⟩, -⟩, -⟩, -⟩, -⟩, -⟩ := h
  have hlow : 1 ≤ cs.telemetryHz.toNat := UInt16.le_iff_toNat_le.mp hlow
  have hhigh : cs.telemetryHz.toNat ≤ 1000 := UInt16.le_iff_toNat_le.mp hhigh
  rw [clampHz]
  split_ifs <;> omega

/-- `configure` and `applyHz` set all of it. -/
theorem running_configure {cs : ConfigSet} (h : cs.acceptable = true) (s : Agent) :
    ((s.configure cs).setHz (clampHz cs.telemetryHz.toNat)).running = cs.running := by
  rw [clampHz_of_acceptable h]
  rfl

/-- At the `switch`, the trace has the configuration that a CONFIG_SET asks for. -/
def ConfigView.Dispatched (f : Frame) (v : ConfigView) : Prop :=
  v.recorded = (f.accepted.map ConfigSet.running).getD v.running ∧ v.Open f

/-- `handleConfigSet`: an acceptable frame is applied and acknowledged, any other is refused. -/
theorem configInv_handleConfigSet {f : Frame} (hf : f.isConfigSet)
    (h : ConfigInv r₀ (ConfigView.Dispatched f) s) :
    ConfigInv r₀ (ConfigView.Answered f) (handleConfigSet f s).2 := by
  have hw := (sends_configInv r₀ (sendable_agreed f)).within
  obtain ⟨hrecorded, hopen⟩ := h.view
  rw [handleConfigSet]
  rcases hdecode : ConfigSet.decode f.payload with _ | cs
  · -- malformed: nothing changes
    have hnone : f.accepted = none := by rw [Frame.accepted, if_pos hf, hdecode]; rfl
    rw [hnone] at hrecorded
    dsimp only
    rw [unit_bind_run]
    refine configInv_sendConfigAck hf (hw.log _ _ rfl s (h.move rfl ⟨hrecorded.symm, hopen⟩)) ?_
    rw [Frame.configAck, hdecode, hnone]
    rfl
  · dsimp only
    split
    -- refused: the record stays, and the answer says so
    · next hrejected =>
      have hnone : f.accepted = none := by
        rw [Frame.accepted, if_pos hf, hdecode]
        exact Option.filter_eq_none_iff.mpr fun cs' hcs' => by
          rw [← Option.mem_some_iff.mp hcs']
          exact Bool.not_eq_true _ ▸ (Bool.not_eq_true' _ ▸ hrejected)
      rw [hnone] at hrecorded
      rw [unit_bind_run]
      refine configInv_sendConfigAck hf (hw.log _ _ rfl s (h.move rfl ⟨hrecorded.symm, hopen⟩)) ?_
      rw [Frame.configAck, hdecode, hnone]
      rfl
    -- accepted: what runs is now what was sent
    · next hok =>
      have hok : cs.acceptable = true := by simpa using hok
      have hsome : f.accepted = some cs := by
        rw [Frame.accepted, if_pos hf, hdecode]
        exact Option.filter_some_pos hok
      rw [hsome] at hrecorded
      rw [modify_bind_run, unit_bind_run]
      obtain ⟨u, hs', hinv⟩ : ∃ u, (applyHz cs.telemetryHz.toNat (s.configure cs)).2 = u ∧
          ConfigInv r₀ (ConfigView.Agreed f) u := by
        obtain ⟨t, w, ht, -⟩ := now_run ((s.configure cs).setHz (clampHz cs.telemetryHz.toNat))
        refine ⟨(((s.configure cs).setHz (clampHz cs.telemetryHz.toNat)).withWorld w).startPeriod t,
          ?_, h.move rfl ⟨(running_configure hok s).trans hrecorded.symm, hopen⟩⟩
        rw [applyHz, modify_bind_run, ← clampHz, bind_run_ok ht]
        rfl
      rw [hs', bind_run_ok (get_run _), unit_bind_run, unit_bind_run]
      refine configInv_sendConfigAck hf (hw.persist _ (hw.log _ _ rfl _ hinv)) ?_
      rw [Frame.configAck, hdecode, hsome]
      rfl

/-! ## Other frames -/

theorem agreed_startReboot (f : Frame) (reason : List Byte) (fw : Bool) :
    Keeps (Holds (ConfigInv r₀ (ConfigView.Agreed f))) (startReboot reason fw) := by
  have hw := (sends_configInv r₀ (sendable_agreed f)).within
  refine hw.startReboot (fun _ _ h => h.congr rfl rfl) (fun s h => ?_) reason fw
  exact h.step (u := s.goQuiet) rfl trivial ⟨h.view.1, h.view.2.1, h.view.2.2.1, nofun⟩

theorem agreed_handleFwUpdate (f f' : Frame) :
    Keeps (Holds (ConfigInv r₀ (ConfigView.Agreed f))) (handleFwUpdate f') := by
  have hw := (sends_configInv r₀ (sendable_agreed f)).within
  refine hw.handleFwUpdate fun s fu target _ _ _ => hw.acceptFwUpdate fun w t _ h => ?_
  have hbegin : ConfigInv r₀ (ConfigView.Agreed f) (s.beginOta fu target) :=
    h.step rfl trivial h.view
  exact hbegin.step (e := .due t) rfl trivial hbegin.view

/-- The `switch`, for a frame that sets no configuration. -/
theorem agreed_dispatch {f : Frame} (hf : ¬ f.isConfigSet) :
    Keeps (Holds (ConfigInv r₀ (ConfigView.Agreed f))) (dispatch f) := by
  have hw := (sends_configInv r₀ (sendable_agreed f)).within
  refine Keeps.ite (fun h => absurd h hf) fun _ => ?_
  exact Keeps.ite (fun _ => agreed_handleFwUpdate f f) fun _ =>
    Keeps.ite (fun _ => hw.handleFaultInject configInv_reinjected f) fun _ =>
      Keeps.ite (fun _ => hw.handleCmd configInv_reinjected (agreed_startReboot f) f) fun _ =>
        hw.log _ _ rfl

/-- Only a CONFIG_SET moves the configuration. -/
theorem configInv_dispatch {f : Frame} (h : ConfigInv r₀ (ConfigView.Dispatched f) s) :
    ConfigInv r₀ (ConfigView.Ended f) (dispatch f s).2 := by
  by_cases hf : f.isConfigSet
  · have hdispatch : dispatch f = handleConfigSet f := if_pos hf
    have hset := configInv_handleConfigSet hf h
    rw [hdispatch]
    exact hset.move rfl ⟨hset.view.1, hset.view.2.1, fun _ => hset.view.2.2⟩
  · obtain ⟨hrecorded, hopen⟩ := h.view
    rw [Frame.accepted, if_neg hf] at hrecorded
    have hrest := agreed_dispatch hf s (h.move rfl ⟨hrecorded.symm, hopen⟩)
    exact hrest.move rfl ⟨hrest.view.1, hrest.view.2.1, fun h => absurd h hf⟩

/-- A frame is taken from an idle agent to an idle agent. -/
theorem configInv_handleFrame (f : Frame) (h : ConfigInv r₀ ConfigView.Idle s)
    (hup : s.tcpState = .CONNECTED) : ConfigInv r₀ ConfigView.Idle (handleFrame f s).2 := by
  have hw := (sends_configInv r₀ (sendable_agreed f)).within
  have hrx : ConfigInv r₀ (ConfigView.Agreed f) (s.noted (.rx f s.fwVersion)) :=
    h.step rfl trivial ⟨h.view.1, rfl, rfl, fun _ => hup⟩
  rw [handleFrame, bind_run_ok (get_run s), unit_bind_run, unit_bind_run, unit_bind_run]
  have hlog := hw.log .DEBUG (Printf.str "rx " ++ msgTypeName f.hdr.msgType ++ Printf.str " seq=" ++
    Printf.dec f.hdr.seq.toNat ++ Printf.str " len=" ++ Printf.dec f.payloadLen.toNat) rfl _ hrx
  obtain ⟨hagrees, hopen⟩ := hlog.view
  have hdispatch : ConfigInv r₀ (ConfigView.Dispatched f) (Agent.noted .dispatch (log .DEBUG
      (Printf.str "rx " ++ msgTypeName f.hdr.msgType ++ Printf.str " seq=" ++
        Printf.dec f.hdr.seq.toNat ++ Printf.str " len=" ++ Printf.dec f.payloadLen.toNat)
      (s.noted (.rx f s.fwVersion))).2) := by
    refine hlog.step rfl trivial ⟨?_, hopen⟩
    show (((handling _).bind Frame.accepted).map ConfigSet.running).getD _ = _
    rw [show handling _ = some f from hopen.1, ← show _ = runningAt r₀ _ from hagrees]
    rfl
  have hend := configInv_dispatch hdispatch
  rw [unit_bind_run, bind_run_ok (get_run _)]
  exact hend.step rfl ⟨hend.view.1, hend.view.2.1, hend.view.2.2⟩ ⟨hend.view.1, rfl⟩

/-- A reboot keeps the configuration in force. -/
theorem configInv_completeBoot (t : ℚ) :
    Keeps (Holds (ConfigInv r₀ ConfigView.Idle)) (completeBoot t) := by
  have hw := (sends_configInv r₀ sendable_idle).within
  refine hw.completeBoot (fun _ _ h => h.congr rfl rfl) (fun s h => ?_) t
  rw [Agent.install]
  split
  · exact h.step rfl trivial h.view
  · exact h.step rfl trivial h.view

end Updates

/-! ## Runs -/

/-- One case for each piece of the loop. -/
theorem across_configInv (r₀ : Running) : Across (Holds (ConfigInv r₀ ConfigView.Idle)) where
  toWithin := (sends_configInv r₀ sendable_idle).within
  tcpFail := (sends_configInv r₀ sendable_idle).tcpFail
  setTcpFd _ _ h := h.congr rfl rfl
  setRx _ _ _ h := h.congr rfl rfl
  goUp s _ _ h := (sends_configInv r₀ sendable_idle).within.sendHello _
    (h.step (u := s.goUp) rfl trivial h.view)
  setConnecting _ _ _ h := h.move rfl h.view
  updateInjections := by
    have hw := (sends_configInv r₀ sendable_idle).within
    exact hw.now.bind (hw.updateInjections configInv_reinjected)
  readSensors := (sends_configInv r₀ sendable_idle).within.readSensors
    (fun _ _ h => h.step rfl trivial h.view) (fun _ h => h.congr rfl rfl)
    (fun _ _ h => h.congr rfl rfl)
  noteComputed _ h := h.step rfl trivial h.view
  checkLocalAlerts := (sends_configInv r₀ sendable_idle).checkLocalAlerts
    (fun _ _ h => h.congr rfl rfl) fun _ _ _ h => h.step rfl trivial h.view
  sendSample := by
    have hw := (sends_configInv r₀ sendable_idle).within
    exact hw.counts.sendSample (hw.counts.emitSample fun _ _ _ h => h.step rfl trivial h.view)
  -- the only piece that leaves `Idle`, and it ends there again
  handleFrame f _ _ hup h := configInv_handleFrame f h hup
  finishOta t s _ _ _ _ := by
    have hw := (sends_configInv r₀ sendable_idle).within
    exact hw.finishOta (fun _ _ _ h => h.step rfl trivial h.view) (fun _ h => h.congr rfl rfl)
      (hw.startReboot (fun _ _ h => h.congr rfl rfl) fun s h => h.step (u := s.goQuiet) rfl trivial
        h.view) t s
  completeBoot t s _ _ := configInv_completeBoot t s

theorem configInv_start (opts : AgentOptions) (cfg : Config) (sensors : Option SysfsSensors)
    (world : World) : ConfigInv cfg.running ConfigView.Idle
      (start (.init opts cfg sensors world)).2 := by
  have hinit : ConfigInv cfg.running ConfigView.Idle (.init opts cfg sensors world) :=
    ⟨throughout_nil, rfl, rfl⟩
  exact (sends_configInv _ sendable_idle).within.start (fun _ _ h => h.congr rfl rfl) _ hinit

/-- The configuration in use is what was last accepted.  After every handled
    frame, and at the top of the main loop, it is that of the last accepted
    CONFIG_SET or the start-up one, in full; a CONFIG_SET that is handled while
    the channel stays up has one acknowledgement, with status 0 iff it was
    applied; HELLO and HEARTBEAT carry the version in use. -/
theorem config_in_force (opts : AgentOptions) (cfg : Config) (sensors : Option SysfsSensors)
    (world : World) (n : ℕ) :
    let s := Agent.top opts cfg sensors world n
    s.running = runningAt cfg.running s.trace ∧
    Throughout (Configured cfg.running) s.trace ∧
    ∀ f : Frame, f.configAck.status = 0 ↔ f.accepted.isSome := by
  have h := (across_configInv cfg.running).top (configInv_start opts cfg sensors world) n
  exact ⟨h.view.1, h.history, configAck_status⟩

end EcuTelemetry.Firmware
