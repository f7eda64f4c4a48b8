/-
  EcuTelemetry.Firmware.Versions

  The running firmware over a run.  The trace says how far an update has come
  and which version runs; the agent's members follow it, so the version changes
  only where a boot installs an update that was accepted and has reached its
  deadline, and never goes down.
-/

import EcuTelemetry.Firmware.AgentLoop
import EcuTelemetry.Firmware.Outgoing
import EcuTelemetry.Lib.History

namespace EcuTelemetry.Firmware

open Proc

/-! ## Updates and versions of a trace -/

/-- How far an update has come. -/
inductive OtaPhase
  | idle
  | accepted (target : List Byte)
  | downloading (target : List Byte) (due : ℚ)
  | finished (target : List Byte)
deriving DecidableEq, Repr

/-- The update is given up; a finished one is not. -/
def OtaPhase.abort : OtaPhase → OtaPhase
  | .finished target => .finished target
  | _ => .idle

/-- A download finishes at its deadline and not before. -/
def OtaPhase.finish (target : List Byte) (t : ℚ) : OtaPhase → OtaPhase
  | .downloading target' due => if target = target' ∧ due ≤ t then .finished target else .idle
  | _ => .idle

def OtaPhase.next (e : Seen) (p : OtaPhase) : OtaPhase :=
  match e with
  | .accepted target => .accepted target
  | .due t =>
    match p with
    | .accepted target => .downloading target t
    | p => p
  | .applied target t => p.finish target t
  | .lost => p.abort
  | .closed => p.abort
  | .booted _ =>
    match p with
    | .finished _ => .idle
    | p => p
  | _ => p

def otaPhase : List Seen → OtaPhase
  | [] => .idle
  | e :: es => (otaPhase es).next e

/-- The running version: a boot with a pending update changes it. -/
def versionAt (v₀ : UInt32) : List Seen → UInt32
  | [] => v₀
  | .booted fw :: es =>
    if fw ≠ [] then (parseFwVersion fw).getD (versionAt v₀ es) else versionAt v₀ es
  | _ :: es => versionAt v₀ es

/-- The text is a version that is not below `v`. -/
def NotBelow (v : UInt32) (text : List Byte) : Prop := ∃ v', parseFwVersion text = some v' ∧ v ≤ v'

/-- What an entry says about the versions.  A boot installs a finished update
    that is not below the running version; a header carries the running version,
    and HELLO its text. -/
def Versioned (v₀ : UInt32) (e : Seen) (es : List Seen) : Prop :=
  match e with
  | .booted fw => fw ≠ [] → otaPhase es = .finished fw ∧ NotBelow (versionAt v₀ es) fw
  | .queued hdr payload => hdr.fwVersion = versionAt v₀ es ∧
      (hdr.msgType = MsgType.HELLO →
        ∃ h : Hello, payload = h.encode ∧ h.fwString = fwVersionToString hdr.fwVersion)
  | .datagram t frame => ∃ hdr, frame = encodeFrame hdr t.encode ∧ hdr.fwVersion = versionAt v₀ es
  | _ => True

/-- The versions of a trace never go down. -/
theorem versionAt_mono {v₀ : UInt32} {es es' : List Seen} (h : Throughout (Versioned v₀) es)
    (hsuf : es' <:+ es) : versionAt v₀ es' ≤ versionAt v₀ es := by
  induction es with
  | nil =>
    rw [List.suffix_nil.mp hsuf]
    exact UInt32.le_refl _
  | cons e es ih =>
    rcases List.suffix_cons_iff.mp hsuf with rfl | hsuf
    · exact UInt32.le_refl _
    · obtain ⟨he, hes⟩ := throughout_cons.mp h
      refine UInt32.le_trans (ih hes hsuf) ?_
      -- only a boot with new firmware moves the version
      cases e with
      | booted fw =>
        rw [versionAt]
        split
        · next hfw =>
          obtain ⟨-, v', hparse, hle⟩ := he hfw
          rw [hparse]
          exact hle
        · exact UInt32.le_refl _
      | _ => exact UInt32.le_refl _

/-! ## The invariant -/

/-- The members that an update goes through. -/
structure OtaView where
  fwVersion : UInt32
  rebooting : Bool
  pendingFw : List Byte
  active : Bool
  target : List Byte
  doneAt : ℚ
  phase : OtaPhase

def Agent.otaView (s : Agent) : OtaView :=
  { fwVersion := s.fwVersion, rebooting := s.rebooting, pendingFw := s.pendingFw
    active := s.ota.active, target := s.ota.target, doneAt := s.ota.doneAt
    phase := otaPhase s.trace }

/-- The versions agree, and the update is in one of the states `J`. -/
structure FwInv (v₀ lo : UInt32) (J : OtaView → Prop) (s : Agent) : Prop where
  version : s.fwVersion = versionAt v₀ s.trace
  floor : lo ≤ s.fwVersion
  text : s.fwString = fwVersionToString s.fwVersion
  history : Throughout (Versioned v₀) s.trace
  ota : J s.otaView

/-- No update is pending; an active one is downloading. -/
def OtaView.Waiting (v : OtaView) : Prop :=
  v.pendingFw = [] ∧
    (v.active = true → v.phase = .downloading v.target v.doneAt ∧ NotBelow v.fwVersion v.target)

/-- The update is reported applied. -/
def OtaView.Finishing (v : OtaView) : Prop :=
  v.pendingFw = [] ∧ v.phase = .finished v.target ∧ NotBelow v.fwVersion v.target

/-- The update waits for the boot. -/
def OtaView.Committed (v : OtaView) : Prop :=
  v.active = false ∧ v.phase = .finished v.pendingFw ∧ NotBelow v.fwVersion v.pendingFw

/-- The states at the top of the main loop. -/
def OtaView.Settled (v : OtaView) : Prop := v.Waiting ∨ v.rebooting = true ∧ v.Committed

/-- `J` survives a lost channel, connected or not. -/
def Droppable (J : OtaView → Prop) : Prop :=
  ∀ v, J v → J { v with active := false } ∧ J { v with active := false, phase := v.phase.abort }

theorem waiting_droppable : Droppable OtaView.Waiting :=
  fun _ h => ⟨⟨h.1, nofun⟩, ⟨h.1, nofun⟩⟩

theorem abort_of_finished {p : OtaPhase} {target : List Byte} (h : p = .finished target) :
    p.abort = .finished target := by
  rw [h]
  rfl

theorem finishing_droppable : Droppable OtaView.Finishing :=
  fun _ h => ⟨h, h.1, abort_of_finished h.2.1, h.2.2⟩

theorem committed_droppable : Droppable OtaView.Committed :=
  fun _ h => ⟨⟨rfl, h.2⟩, rfl, abort_of_finished h.2.1, h.2.2⟩

theorem settled_droppable : Droppable OtaView.Settled := by
  rintro v (h | ⟨hreb, h⟩)
  · exact ⟨.inl (waiting_droppable v h).1, .inl (waiting_droppable v h).2⟩
  · exact ⟨.inr ⟨hreb, (committed_droppable v h).1⟩, .inr ⟨hreb, (committed_droppable v h).2⟩⟩

section Updates

variable {v₀ lo : UInt32} {J K : OtaView → Prop} {s u : Agent}

/-- An update of the update's members. -/
theorem FwInv.move (h : FwInv v₀ lo J s) (htrace : u.trace = s.trace)
    (hver : u.fwVersion = s.fwVersion) (htext : u.fwString = s.fwString)
    (hota : K u.otaView) : FwInv v₀ lo K u where
  version := by rw [htrace, hver, h.version]
  floor := hver ▸ h.floor
  text := by rw [htext, hver, h.text]
  history := htrace ▸ h.history
  ota := hota

/-- An update of other members. -/
theorem FwInv.congr (h : FwInv v₀ lo J s) (hview : u.otaView = s.otaView)
    (htext : u.fwString = s.fwString) (htrace : u.trace = s.trace) : FwInv v₀ lo J u :=
  h.move htrace (congrArg OtaView.fwVersion hview) htext (hview ▸ h.ota)

/-- An update with an entry that leaves the version alone. -/
theorem FwInv.step {e : Seen} (h : FwInv v₀ lo J s) (htrace : u.trace = e :: s.trace)
    (hver : u.fwVersion = s.fwVersion) (htext : u.fwString = s.fwString)
    (hsame : versionAt v₀ (e :: s.trace) = versionAt v₀ s.trace) (he : Versioned v₀ e s.trace)
    (hota : K u.otaView) : FwInv v₀ lo K u where
  version := by rw [htrace, hver, hsame, h.version]
  floor := hver ▸ h.floor
  text := by rw [htext, hver, h.text]
  history := htrace ▸ h.history.cons he
  ota := hota

/-- An entry about something else. -/
theorem FwInv.noted {e : Seen} (h : FwInv v₀ lo J s)
    (hphase : otaPhase (e :: s.trace) = otaPhase s.trace)
    (hsame : versionAt v₀ (e :: s.trace) = versionAt v₀ s.trace)
    (he : Versioned v₀ e s.trace) : FwInv v₀ lo J (s.noted e) := by
  refine h.step (u := s.noted e) rfl rfl rfl hsame he ?_
  have hview : (s.noted e).otaView = s.otaView :=
    congrArg (fun p => ({ s.otaView with phase := p } : OtaView)) hphase
  exact hview ▸ h.ota

/-! ## Sending -/

/-- A lost channel aborts the update and keeps the version. -/
theorem FwInv.drop (hJ : Droppable J) (h : FwInv v₀ lo J s) : FwInv v₀ lo J s.drop := by
  obtain ⟨hidle, hlost⟩ := hJ _ h.ota
  by_cases hup : s.tcpState = .CONNECTED
  · refine h.step (e := .lost) (if_pos hup) rfl rfl rfl trivial ?_
    have hview :
        s.drop.otaView = { s.otaView with active := false, phase := s.otaView.phase.abort } :=
      congrArg (fun es => ({ s.otaView with active := false, phase := otaPhase es } : OtaView))
        (if_pos hup)
    exact hview ▸ hlost
  · refine h.move (if_neg hup) rfl rfl ?_
    have hview : s.drop.otaView = { s.otaView with active := false } :=
      congrArg (fun es => ({ s.otaView with active := false, phase := otaPhase es } : OtaView))
        (if_neg hup)
    exact hview ▸ hidle

/-- A header carries the running version, and HELLO its text. -/
theorem FwInv.push (h : FwInv v₀ lo J s) (msgType : UInt8) (ts : UInt64) (payload : List Byte)
    (w : World) (hreports : Reports s msgType payload) :
    FwInv v₀ lo J (s.push msgType ts payload w) := by
  refine h.step rfl rfl rfl rfl ⟨h.version, fun hhello => ?_⟩ h.ota
  exact ⟨s.hello, hreports.hello hhello, h.text⟩

/-- Sending changes no version. -/
theorem sends_fwInv (v₀ lo : UInt32) (hJ : Droppable J) : Sends (Holds (FwInv v₀ lo J)) where
  aside _ _ ha h := by cases ha <;> exact h.congr rfl rfl rfl
  world _ _ _ h := h.congr rfl rfl rfl
  logged _ _ _ _ h := h.noted rfl rfl trivial
  inLogSink _ _ h := h.congr rfl rfl rfl
  takeSent _ _ h := h.step rfl rfl rfl rfl trivial h.ota
  retry _ _ h := h.congr rfl rfl rfl
  backOff _ h := h.congr rfl rfl rfl
  drop _ h := h.drop hJ
  overflow w s _ _ h := (h.congr (u := s.nextSeq.withWorld w) rfl rfl rfl).drop hJ
  push msgType ts payload w _ _ _ _ hreports h := h.push msgType ts payload w hreports

theorem fwInv_reconfigured (s u : Agent) (hr : Reconfigured s u) : Holds (FwInv v₀ lo J) s u :=
  fun h => by cases hr <;> exact h.congr rfl rfl rfl

theorem fwInv_reinjected (s u : Agent) (hr : Reinjected s u) : Holds (FwInv v₀ lo J) s u := by
  intro h
  cases hr with
  | setInjections is => exact h.congr rfl rfl rfl
  | setMask mask => exact h.congr rfl rfl rfl
  | _ => exact h.step rfl rfl rfl rfl trivial h.ota

/-! ## Handlers -/

/-- A reboot ends a download and keeps a finished update for the boot. -/
theorem fwInv_startReboot (hJ : Droppable J)
    (hquiet : ∀ v, J v → K { v with active := false, rebooting := true, phase := v.phase.abort })
    (reason : List Byte) (fw : Bool) (h : FwInv v₀ lo J s) :
    FwInv v₀ lo K (startReboot reason fw s).2 := by
  have hw := (sends_fwInv v₀ lo hJ).within
  obtain ⟨u, t, w, hs, -, heq⟩ := hw.startReboot_run (fun _ _ h => h.congr rfl rfl rfl) reason fw s
  rw [heq]
  exact (hs h).step rfl rfl rfl rfl trivial (hquiet _ (hs h).ota)

theorem waiting_startReboot (reason : List Byte) (fw : Bool) :
    Keeps (Holds (FwInv v₀ lo OtaView.Waiting)) (startReboot reason fw) :=
  fun _ h => fwInv_startReboot waiting_droppable (fun _ h => ⟨h.1, nofun⟩) reason fw h

/-- The target of a parsed FW_UPDATE is the version of its text. -/
theorem FwUpdate.parse_version {payload : List Byte} {fu : FwUpdate} {target : UInt32}
    (h : FwUpdate.parse payload = some (fu, target)) :
    parseFwVersion fu.targetVersion = some target := by
  rw [FwUpdate.parse] at h
  obtain ⟨fu', -, h⟩ := Option.bind_eq_some_iff.mp h
  obtain ⟨target', hparse, h⟩ := Option.bind_eq_some_iff.mp h
  cases h
  exact hparse

/-- Only an update that is not below the running version is accepted. -/
theorem waiting_handleFwUpdate (f : Frame) :
    Keeps (Holds (FwInv v₀ lo OtaView.Waiting)) (handleFwUpdate f) := by
  have hw := (sends_fwInv v₀ lo waiting_droppable).within
  refine hw.handleFwUpdate fun s fu target hparse hlower _ => hw.acceptFwUpdate fun w t _ h => ?_
  have hbegin : FwInv v₀ lo (fun v => v.pendingFw = [] ∧ v.active = true ∧
      v.phase = .accepted v.target ∧ NotBelow v.fwVersion v.target) (s.beginOta fu target) := by
    refine h.step rfl rfl rfl rfl trivial
      ⟨h.ota.1, rfl, rfl, target, FwUpdate.parse_version hparse, ?_⟩
    exact UInt32.not_lt.mp hlower
  refine hbegin.step (e := .due t) rfl rfl rfl rfl trivial ⟨h.ota.1, fun _ => ⟨rfl, ?_⟩⟩
  exact hbegin.ota.2.2.2

/-- With no update pending, a frame may start one, but none is pending after it. -/
theorem waiting_handleFrame (f : Frame) :
    Keeps (Holds (FwInv v₀ lo OtaView.Waiting)) (handleFrame f) := by
  have hs := sends_fwInv v₀ lo waiting_droppable
  have hw := hs.within
  have hack : ∀ v status, Keeps (Holds (FwInv v₀ lo OtaView.Waiting)) (sendConfigAck v status) :=
    fun v status s => hs.sendFrame_of_push fun ts w _ _ h =>
      h.push _ ts _ w (reports_of_ne (by decide) (by decide))
  refine hw.handleFrame (fun _ _ _ h => h.noted rfl rfl trivial)
    (fun _ h => h.noted rfl rfl trivial) (fun _ _ _ h => h.noted rfl rfl trivial) ?_
  exact hw.dispatch (hw.handleConfigSet fwInv_reconfigured hack f) (waiting_handleFwUpdate f)
    (hw.handleFaultInject fwInv_reinjected f)
    (hw.handleCmd fwInv_reinjected waiting_startReboot f)

/-- A download that has reached its deadline is handed to the boot. -/
theorem fwInv_finishOta {t : ℚ} (h : FwInv v₀ lo OtaView.Waiting s) (hactive : s.ota.active = true)
    (hdue : s.ota.doneAt ≤ t) : FwInv v₀ lo OtaView.Settled (finishOta t s).2 := by
  have hw := (sends_fwInv v₀ lo finishing_droppable).within
  obtain ⟨hphase, hbelow⟩ := h.ota.2 hactive
  have hphase : otaPhase s.trace = .downloading s.ota.target s.ota.doneAt := hphase
  have hfinish : FwInv v₀ lo OtaView.Finishing (s.noted (.applied s.ota.target t)) := by
    refine h.step rfl rfl rfl rfl trivial ⟨h.ota.1, ?_, hbelow⟩
    show (otaPhase s.trace).finish s.ota.target t = .finished s.ota.target
    rw [hphase]
    exact if_pos ⟨rfl, hdue⟩
  rw [finishOta, bind_run_ok (get_run s), unit_bind_run, unit_bind_run, unit_bind_run,
    modify_bind_run]
  have hsent := hw.log .INFO (Printf.str "firmware " ++ s.ota.target ++
    Printf.str " applied, rebooting") rfl _
      (hw.sendFwAck FwAckStatus.APPLIED s.ota.target _ hfinish)
  refine fwInv_startReboot committed_droppable (fun v hv => ?_) _ _ (hsent.move rfl rfl rfl ?_)
  · exact .inr ⟨rfl, rfl, abort_of_finished hv.2.1, hv.2.2⟩
  · exact ⟨rfl, hsent.ota.2⟩

/-- The boot installs the pending update. -/
theorem FwInv.install (h : FwInv v₀ lo (fun v => v.Waiting ∨ v.Committed) s) :
    FwInv v₀ lo OtaView.Waiting s.install := by
  rw [Agent.install]
  -- no update is pending, or one has been committed by the reboot
  rcases h.ota with hwait | ⟨hactive, hphase, v', hparse, hle⟩
  · have hpending : ¬ s.pendingFw ≠ [] := not_not.mpr hwait.1
    rw [if_neg hpending]
    refine h.step (e := .booted []) rfl rfl rfl rfl (fun hne => absurd rfl hne) ?_
    refine ⟨hwait.1, fun hactive => ?_⟩
    obtain ⟨hphase, hbelow⟩ := hwait.2 hactive
    refine ⟨?_, hbelow⟩
    show (otaPhase s.trace).next (.booted []) = _
    rw [show otaPhase s.trace = _ from hphase]
    rfl
  · have hparse : parseFwVersion s.pendingFw = some v' := hparse
    have hpending : s.pendingFw ≠ [] := by
      intro hnil
      rw [hnil] at hparse
      cases hparse
    -- the version that runs now is the one of the update
    rw [if_pos hpending, hparse, Option.getD_some]
    constructor
    · show v' = if s.pendingFw ≠ [] then (parseFwVersion s.pendingFw).getD _ else _
      rw [if_pos hpending, hparse, Option.getD_some]
    · exact UInt32.le_trans h.floor hle
    · rfl
    · refine h.history.cons fun _ => ⟨hphase, v', hparse, ?_⟩
      exact h.version ▸ hle
    · have hidle : s.ota.active ≠ true := by
        rw [show s.ota.active = false from hactive]
        exact Bool.false_ne_true
      exact ⟨rfl, fun hact => absurd hact hidle⟩

/-- The reboot installs the version that was waiting. -/
theorem fwInv_completeBoot (t : ℚ) :
    Keeps (Holds (FwInv v₀ lo OtaView.Settled)) (completeBoot t) := by
  intro s h
  have hend : FwInv v₀ lo (fun v => v.Waiting ∨ v.Committed) (s.endReboot t) :=
    h.move rfl rfl rfl (h.ota.imp id And.right)
  have hw := (sends_fwInv v₀ lo waiting_droppable).within
  rw [completeBoot, modify_bind_run, modify_bind_run]
  have hboot := (hw.update fun _ => .startTimers t).bind (fun _ => Keeps.bind Keeps.get fun s =>
    hw.log .INFO (Printf.str "boot complete, fw=" ++ s.fwString) rfl) _ hend.install
  exact hboot.move rfl rfl rfl (.inl hboot.ota)

/-- A sample reports the version in force. -/
theorem fwInv_emitSample (t : Telemetry) (seq : UInt32) (hJ : Droppable J) :
    Keeps (Holds (FwInv v₀ lo J)) (emitSample t seq) := by
  intro s h
  have hw := (sends_fwInv v₀ lo hJ).within
  have hheader : ∃ hdr w, makeHeader MsgType.TELEMETRY seq s = (.ok hdr, s.withWorld w) ∧
      hdr.fwVersion = s.fwVersion := ⟨_, _, rfl, rfl⟩
  obtain ⟨hdr, w, hrun, hver⟩ := hheader
  rw [emitSample, bind_run_ok hrun, unit_bind_run]
  have hsample : FwInv v₀ lo J ((s.withWorld w).noted (.datagram t (encodeFrame hdr t.encode))) :=
    h.step rfl rfl rfl rfl ⟨hdr, rfl, hver.trans h.version⟩ h.ota
  refine Keeps.bind (hw.ask _ _ fun _ _ => by rfl) (fun err => ?_) _ hsample
  cases err with
  | none => exact Keeps.pure ()
  | some why => exact hw.log _ _ rfl

end Updates

/-! ## Runs -/

/-- One case for each piece of the loop. -/
theorem across_fwInv (v₀ lo : UInt32) : Across (Holds (FwInv v₀ lo OtaView.Settled)) where
  toWithin := (sends_fwInv v₀ lo settled_droppable).within
  tcpFail := (sends_fwInv v₀ lo settled_droppable).tcpFail
  setTcpFd _ _ h := h.congr rfl rfl rfl
  setRx _ _ _ h := h.congr rfl rfl rfl
  goUp s _ _ h := (sends_fwInv v₀ lo settled_droppable).within.sendHello _
    (h.step (u := s.goUp) rfl rfl rfl rfl trivial h.ota)
  setConnecting _ _ _ h := h.congr rfl rfl rfl
  updateInjections := by
    have hw := (sends_fwInv v₀ lo settled_droppable).within
    exact hw.now.bind (hw.updateInjections fwInv_reinjected)
  readSensors := (sends_fwInv v₀ lo settled_droppable).within.readSensors
    (fun _ _ h => h.noted rfl rfl trivial) (fun _ h => h.congr rfl rfl rfl)
    (fun _ _ h => h.congr rfl rfl rfl)
  noteComputed _ h := h.noted rfl rfl trivial
  checkLocalAlerts := (sends_fwInv v₀ lo settled_droppable).checkLocalAlerts
    (fun _ _ h => h.congr rfl rfl rfl) fun _ _ _ h => h.noted rfl rfl trivial
  sendSample := (sends_fwInv v₀ lo settled_droppable).within.counts.sendSample
    fun t seq => fwInv_emitSample t seq settled_droppable
  handleFrame f s hinv hup h := by
    -- the channel is down during a reboot, so no update waits for it
    have hwait : s.otaView.Waiting := by
      rcases h.ota with hwait | ⟨hreb, -⟩
      · exact hwait
      · exact nomatch hup.symm.trans (hinv.rebooting hreb)
    have hframe := waiting_handleFrame f s (h.move rfl rfl rfl hwait)
    exact hframe.move rfl rfl rfl (.inl hframe.ota)
  finishOta t s hinv hactive hup hdue h := by
    have hwait : s.otaView.Waiting := by
      rcases h.ota with hwait | ⟨hreb, -⟩
      · exact hwait
      · exact nomatch hup.symm.trans (hinv.rebooting hreb)
    exact fwInv_finishOta (h.move rfl rfl rfl hwait) hactive hdue
  completeBoot t s _ _ := fwInv_completeBoot t s

/-- The version the agent starts with. -/
def AgentOptions.firmware (opts : AgentOptions) : UInt32 := (parseFwVersion opts.fw).getD 0x010000

/-- The agent starts with the version of its options. -/
theorem fwInv_start (opts : AgentOptions) (cfg : Config) (sensors : Option SysfsSensors)
    (world : World) : FwInv opts.firmware 0 OtaView.Settled
      (start (.init opts cfg sensors world)).2 := by
  have hnew : FwInv opts.firmware 0 OtaView.Settled (.new opts cfg sensors world) := {
    version := rfl
    floor := UInt32.zero_le
    text := rfl
    history := throughout_nil
    ota := .inl ⟨rfl, nofun⟩ }
  have hw := (sends_fwInv opts.firmware 0 settled_droppable).within
  exact hw.start (fun _ _ h => h.congr rfl rfl rfl) _ (hw.applyHz fwInv_reconfigured cfg.hz _ hnew)

theorem fwInv_top (opts : AgentOptions) (cfg : Config) (sensors : Option SysfsSensors)
    (world : World) (n : ℕ) :
    FwInv opts.firmware 0 OtaView.Settled (.top opts cfg sensors world n) :=
  (across_fwInv opts.firmware 0).top (fwInv_start opts cfg sensors world) n

/-- The version never goes down from one round to a later one. -/
theorem fwVersion_le_top (opts : AgentOptions) (cfg : Config) (sensors : Option SysfsSensors)
    (world : World) (n k : ℕ) : (Agent.top opts cfg sensors world n).fwVersion ≤
      (Agent.top opts cfg sensors world (n + k)).fwVersion := by
  have h := fwInv_top opts cfg sensors world n
  obtain ⟨k', hk⟩ := rounds_add n k (start (.init opts cfg sensors world)).2
  rw [Agent.top, Agent.top, hk]
  -- the version so far is a floor of what follows
  have hfloor : FwInv opts.firmware (Agent.top opts cfg sensors world n).fwVersion OtaView.Settled
      (.top opts cfg sensors world n) := { h with floor := UInt32.le_refl _ }
  exact ((across_fwInv _ _).steps.rounds k' (channelInv_top opts cfg sensors world n) hfloor).floor

/-- Firmware never goes backwards.  The running version is that of the trace, in
    which only a boot changes it: one that follows an accepted update whose
    deadline was reached, to that update's target, which is not lower.  A reboot
    during a download leaves it alone.  The text, the frame headers and HELLO
    agree with it. -/
theorem firmware_forward (opts : AgentOptions) (cfg : Config) (sensors : Option SysfsSensors)
    (world : World) (n : ℕ) :
    let s := Agent.top opts cfg sensors world n
    s.fwString = fwVersionToString s.fwVersion ∧
    s.fwVersion = versionAt opts.firmware s.trace ∧
    Throughout (Versioned opts.firmware) s.trace ∧
    (∀ fw es, .booted fw :: es <:+ s.trace → otaPhase es = .idle →
      versionAt opts.firmware (.booted fw :: es) = versionAt opts.firmware es) ∧
    (∀ es es', es' <:+ es → es <:+ s.trace →
      versionAt opts.firmware es' ≤ versionAt opts.firmware es) ∧
    ∀ k, s.fwVersion ≤ (Agent.top opts cfg sensors world (n + k)).fwVersion := by
  have h := fwInv_top opts cfg sensors world n
  refine ⟨h.text, h.version, h.history, fun fw es hsuf hidle => ?_, fun es es' hes' hes => ?_,
    fwVersion_le_top opts cfg sensors world n⟩
  · rw [versionAt]
    split
    · next hfw =>
      -- a boot with new firmware follows a finished update
      have hfinished := (h.history _ _ hsuf hfw).1
      exact nomatch hidle.symm.trans hfinished
    · rfl
  · exact versionAt_mono (h.history.suffix hes) hes'

end EcuTelemetry.Firmware
