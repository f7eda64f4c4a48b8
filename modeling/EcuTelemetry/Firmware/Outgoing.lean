/-
  EcuTelemetry.Firmware.Outgoing

  Relations that look at the frames the agent sends.  Every frame goes through
  `sendFrame`, which stamps its header; log records are shipped the same way.  A
  relation is given for a frame that goes into `tx_`, and then holds across
  everything that sends.
-/

import EcuTelemetry.Firmware.AgentFrame

namespace EcuTelemetry.Firmware

open Proc

/-! ## Frames of the agent -/

/-- The header of the next frame. -/
def Agent.header (msgType : UInt8) (ts : UInt64) (s : Agent) : FrameHeader :=
  { msgType, deviceId := s.opts.deviceId, seq := s.tcpSeq, tsMs := ts, fwVersion := s.fwVersion }

/-- The HELLO of a state. -/
def Agent.hello (s : Agent) : Hello :=
  { fwString := s.fwString, hwModel := s.opts.hw, configVersion := s.cfg.configVersion,
    telemetryHz := UInt16.ofInt s.cfg.hz }

/-- A HEARTBEAT of a state. -/
def Agent.heartbeat (uptimeS : UInt32) (s : Agent) : Heartbeat :=
  { uptimeS, framesSent := s.framesSent, configVersion := s.cfg.configVersion,
    reconnects := s.reconnects }

/-- HELLO and HEARTBEAT report the state. -/
structure Reports (s : Agent) (msgType : UInt8) (payload : List Byte) : Prop where
  hello : msgType = MsgType.HELLO → payload = s.hello.encode
  heartbeat : msgType = MsgType.HEARTBEAT → ∃ uptimeS, payload = (s.heartbeat uptimeS).encode

/-- A frame goes into `tx_` under the next number. -/
def Agent.push (msgType : UInt8) (ts : UInt64) (payload : List Byte) (w : World) (s : Agent) :
    Agent := (s.nextSeq.withWorld w).queue (s.header msgType ts) payload

theorem reports_of_ne {s : Agent} {msgType : UInt8} {payload : List Byte}
    (hhello : msgType ≠ MsgType.HELLO) (hbeat : msgType ≠ MsgType.HEARTBEAT) :
    Reports s msgType payload :=
  ⟨fun h => absurd h hhello, fun h => absurd h hbeat⟩

/-- A frame is not sent without a channel; it does not fit; or it waits in `tx_`,
    and what can be sent is sent. -/
theorem sendFrame_cases (msgType : UInt8) (payload : List Byte) (s : Agent) :
    (s.tcpState ≠ .CONNECTED ∧ (sendFrame msgType payload s).2 = s) ∨
    (s.tcpState = .CONNECTED ∧ ∃ w why, s.world.Leads w ∧
      (sendFrame msgType payload s).2 = (tcpFail why (s.nextSeq.withWorld w)).2) ∨
    (s.tcpState = .CONNECTED ∧ ∃ ts w, s.world.Leads w ∧
      (sendFrame msgType payload s).2 = (tcpFlush (s.push msgType ts payload w)).2) := by
  rw [sendFrame, bind_run_ok (get_run s), when]
  split
  · next hup =>
    have hheader : ∃ ts w, makeHeader msgType s.tcpSeq s.nextSeq =
        (.ok (s.header msgType ts), s.nextSeq.withWorld w) ∧ s.world.Leads w := ⟨_, _, rfl, 0, rfl⟩
    obtain ⟨ts, w, hheader, hleads⟩ := hheader
    rw [modify_bind_run, bind_run_ok hheader]
    split
    · exact .inr (.inl ⟨hup, w, _, hleads, rfl⟩)
    · rw [modify_bind_run, bind_pure_state]
      exact .inr (.inr ⟨hup, ts, w, hleads, rfl⟩)
  · next hdown => exact .inl ⟨hdown, rfl⟩

/-! ## Relations -/

/-- Sending stays within `R`, but for a CONFIG_ACK. -/
structure Sends (R : Agent → Agent → Prop) : Prop where
  aside : ∀ s s', Aside s s' → R s s'
  world : ∀ s w, s.world.Leads w → R s (s.withWorld w)
  logged : ∀ lvl msg s, plainText msg = true → R s (s.noted (.log lvl msg))
  inLogSink : ∀ b s, R s (s.setInLogSink b)
  takeSent : ∀ n s, R s (s.takeSent n)
  retry : ∀ t s, R s (s.scheduleRetry t)
  backOff : ∀ s, R s s.backOff
  drop : ∀ s, R s s.drop
  /-- a frame that does not fit has taken a number -/
  overflow : ∀ w s, s.world.Leads w → s.tcpState = .CONNECTED → R s (s.nextSeq.withWorld w).drop
  push : ∀ msgType ts payload w s, s.world.Leads w → s.tcpState = .CONNECTED →
      msgType ≠ MsgType.CONFIG_ACK →
    Reports s msgType payload → R s (s.push msgType ts payload w)

namespace Sends

variable {R : Agent → Agent → Prop} [IsPreorder Agent R]

/-- `tcpFail` after the channel is dropped. -/
theorem tcpFail_of_drop (h : Sends R) (why : List Byte) {s s' : Agent} (hdrop : R s s'.drop) :
    R s (tcpFail why s').2 := by
  have hretry : ∀ t, Keeps R (modify (Agent.scheduleRetry t) : AgentM Unit) := h.retry
  have hback : Keeps R (modify Agent.backOff : AgentM Unit) := h.backOff
  have hnote : ∀ msg, plainText msg = true → Keeps R (note (.log .WARN msg)) :=
    fun msg hmsg s => h.logged _ msg s hmsg
  have hrecord : ∀ msg, plainText msg = true → Keeps R (record .WARN msg) := fun msg hmsg =>
    Keeps.bind Keeps.get fun _ => Keeps.when fun _ => hnote _ ((plainText_take msg _).trans hmsg)
  rw [tcpFail, bind_run_ok (get_run s'), modify_bind_run]
  refine trans_of R hdrop ?_
  refine Keeps.bind (fun s => h.world s _ ⟨1, rfl⟩) (fun t => Keeps.bind Keeps.get fun s => ?_) _
  exact (hretry t).bind fun _ => (hrecord _ (plainText_failText _ _ _)).bind fun _ => hback

theorem tcpFail (h : Sends R) (why : List Byte) : Keeps R (tcpFail why) :=
  fun s => h.tcpFail_of_drop why (h.drop s)

/-- Any number of partial sends. -/
theorem flushLoop (h : Sends R) (rs : List (Io ℕ)) : Keeps R (flushLoop rs) := by
  induction rs with
  | nil => exact Keeps.bind Keeps.get fun _ => Keeps.pure _
  | cons r rs ih =>
    have hfail : ∀ why, Keeps R (Firmware.tcpFail why >>= fun _ => pure false : AgentM Bool) :=
      fun why => (h.tcpFail why).bind fun _ => Keeps.pure _
    have htake : ∀ n, Keeps R (modify (Agent.takeSent n) : AgentM Unit) := h.takeSent
    refine Keeps.bind Keeps.get fun s => Keeps.ite (fun _ => Keeps.pure _) fun _ => ?_
    cases r with
    | done n => exact Keeps.ite (fun _ => hfail _) fun _ => (htake n).bind fun _ => ih
    | wouldBlock => exact Keeps.pure _
    | error why => exact hfail why

theorem tcpFlush (h : Sends R) : Keeps R tcpFlush :=
  Keeps.bind (fun s => h.world s _ ⟨0, rfl⟩) h.flushLoop

/-- `sendFrame`, with the frame that it puts into `tx_`. -/
theorem sendFrame_of_push (h : Sends R) {msgType : UInt8} {payload : List Byte} {s : Agent}
    (hpush : ∀ ts w, s.world.Leads w → s.tcpState = .CONNECTED →
      R s (s.push msgType ts payload w)) :
    R s (sendFrame msgType payload s).2 := by
  rcases sendFrame_cases msgType payload s with ⟨-, heq⟩ | ⟨hup, w, why, hw, heq⟩ |
    ⟨hup, ts, w, hw, heq⟩
  · rw [heq]
    exact refl_of R s
  · rw [heq]
    exact h.tcpFail_of_drop why (h.overflow w s hw hup)
  · rw [heq]
    exact trans_of R (hpush ts w hw hup) (h.tcpFlush _)

theorem sendFrame (h : Sends R) {msgType : UInt8} {payload : List Byte} {s : Agent}
    (hack : msgType ≠ MsgType.CONFIG_ACK) (hreports : Reports s msgType payload) :
    R s (sendFrame msgType payload s).2 :=
  h.sendFrame_of_push fun ts w hw hup => h.push msgType ts payload w s hw hup hack hreports

theorem sendPlain (h : Sends R) {msgType : UInt8} (hack : msgType ≠ MsgType.CONFIG_ACK)
    (hhello : msgType ≠ MsgType.HELLO) (hbeat : msgType ≠ MsgType.HEARTBEAT)
    (payload : List Byte) : Keeps R (Firmware.sendFrame msgType payload) :=
  fun _ => h.sendFrame hack (reports_of_ne hhello hbeat)

theorem logSink (h : Sends R) (lvl : LogLevel) (msg : List Byte) : Keeps R (logSink lvl msg) := by
  have hsink : ∀ b, Keeps R (modify (Agent.setInLogSink b) : AgentM Unit) := h.inLogSink
  refine Keeps.bind Keeps.get fun _ => Keeps.when fun _ => (hsink true).bind fun _ => ?_
  exact (h.sendPlain (by decide) (by decide) (by decide) _).bind fun _ => hsink false

/-- For a record of any text. -/
theorem log_of_logged (h : Sends R) {lvl : LogLevel} {msg : List Byte}
    (hlogged : ∀ s, R s (s.noted (.log lvl (msg.take 1023)))) : Keeps R (log lvl msg) := by
  have hnote : Keeps R (note (.log lvl (msg.take 1023))) := hlogged
  exact Keeps.bind Keeps.get fun _ => Keeps.when fun _ => hnote.bind fun _ => h.logSink _ _

theorem log (h : Sends R) (lvl : LogLevel) (msg : List Byte) (hmsg : plainText msg = true) :
    Keeps R (log lvl msg) :=
  h.log_of_logged fun s => h.logged lvl _ s ((plainText_take msg _).trans hmsg)

theorem sendHello (h : Sends R) : Keeps R sendHello := fun s =>
  h.sendFrame (by decide) ⟨fun _ => rfl, fun hb => absurd hb (by decide)⟩

theorem sendHeartbeat (h : Sends R) : Keeps R sendHeartbeat := by
  intro s
  obtain ⟨t, w, ht, hw⟩ := now_run s
  rw [Firmware.sendHeartbeat, bind_run_ok ht, bind_run_ok (get_run _)]
  refine trans_of R (h.world s w hw) ?_
  exact h.sendFrame (by decide) ⟨fun hh => absurd hh (by decide), fun _ => ⟨_, rfl⟩⟩

theorem checkLocalAlerts (h : Sends R) (hprev : ∀ s det, R s (s.setPrevDetected det))
    (hlogged : ∀ lvl msg s, R s (s.noted (.log lvl msg))) : Keeps R checkLocalAlerts :=
  keeps_checkLocalAlerts hprev fun lvl _ => h.log_of_logged fun s => hlogged lvl _ s

/-- What sending keeps is kept inside a handler too. -/
theorem within (h : Sends R) : Within R where
  aside := h.aside
  world := h.world
  log := h.log
  tcpFlush := h.tcpFlush
  sendHello := h.sendHello
  sendHeartbeat := h.sendHeartbeat
  sendFaultAck := Keeps.bind Keeps.get fun _ => h.sendPlain (by decide) (by decide) (by decide) _
  sendFwAck _ _ := h.sendPlain (by decide) (by decide) (by decide) _

end Sends

end EcuTelemetry.Firmware
