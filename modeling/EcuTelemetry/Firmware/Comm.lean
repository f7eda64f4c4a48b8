/-
  EcuTelemetry.Firmware.Comm

  What sending does to the agent.  A log record can be shipped as a LOG frame,
  sending can fail, and a failure drops the channel: so `log` and `sendFrame`
  leave every member alone but those of the channel, and either keep the channel
  or drop it.
-/

import EcuTelemetry.Firmware.AgentRun

namespace EcuTelemetry.Firmware

open Printf Proc

/-! ## The relation -/

/-- `s` with the members that communication touches taken from `s'`. -/
def Agent.comm (s s' : Agent) : Agent :=
  { s with
    tcpFd := s'.tcpFd, tcpState := s'.tcpState, rx := s'.rx, tx := s'.tx
    ota := { s.ota with active := s'.ota.active }
    physics := { s.physics with commDegraded := s'.physics.commDegraded }
    nextConnectAt := s'.nextConnectAt, backoffS := s'.backoffS, tcpSeq := s'.tcpSeq
    dropRng := s'.dropRng, inLogSink := s'.inLogSink, world := s'.world, trace := s'.trace }

/-- Log records, and frames on their way out. -/
def Seen.isQuiet : Seen → Bool
  | .log _ _ => true
  | .queued _ _ => true
  | .sent _ => true
  | _ => false

def Quiet (es : List Seen) : Prop := ∀ e ∈ es, e.isQuiet = true

theorem quiet_nil : Quiet [] := nofun

theorem quiet_singleton {e : Seen} (h : e.isQuiet = true) : Quiet [e] :=
  fun _ he => List.mem_singleton.mp he ▸ h

theorem Quiet.append {es es' : List Seen} (h : Quiet es) (h' : Quiet es') : Quiet (es ++ es') :=
  fun e he => (List.mem_append.mp he).elim (h e) (h' e)

/-- The channel is as it was, but for what waits in `tx_`. -/
structure Kept (s s' : Agent) : Prop where
  tcpFd : s'.tcpFd = s.tcpFd
  tcpState : s'.tcpState = s.tcpState
  rx : s'.rx = s.rx
  active : s'.ota.active = s.ota.active
  commDegraded : s'.physics.commDegraded = s.physics.commDegraded
  backoffS : s'.backoffS = s.backoffS
  tx_le : s.tx.length ≤ kTxLimit → s'.tx.length ≤ kTxLimit
  tx_eq : s.tcpState ≠ .CONNECTED → s.tx = [] → s'.tx = []
  trace : ∃ es, s'.trace = es ++ s.trace ∧ Quiet es

/-- `tcpFail`. -/
structure Dropped (s s' : Agent) : Prop where
  tcpFd : s'.tcpFd = -1
  tcpState : s'.tcpState = .DISCONNECTED
  rx : s'.rx = []
  tx : s'.tx = []
  active : s'.ota.active = false
  commDegraded : s'.physics.commDegraded = true
  backoffS : s'.backoffS = min kBackoffMaxS (s.backoffS * 2)
  trace : ∃ es es', s'.trace = es' ++ (if s.tcpState = .CONNECTED then [.lost] else []) ++ es ++
    s.trace ∧ Quiet es ∧ Quiet es'

/-- Communication keeps the channel or, while there is one, drops it. -/
structure Comm (s s' : Agent) : Prop where
  frame : s' = s.comm s'
  channel : Kept s s' ∨ (s.tcpState = .CONNECTED ∨ s.tx ≠ []) ∧ Dropped s s'

theorem Kept.refl (s : Agent) : Kept s s :=
  ⟨rfl, rfl, rfl, rfl, rfl, rfl, id, fun _ h => h, [], rfl, quiet_nil⟩

/-- Frames kept are kept over two steps. -/
theorem Kept.trans {s s' s'' : Agent} (h : Kept s s') (h' : Kept s' s'') : Kept s s'' := by
  obtain ⟨es, hes, hq⟩ := h.trace
  obtain ⟨es', hes', hq'⟩ := h'.trace
  exact {
    tcpFd := h'.tcpFd.trans h.tcpFd
    tcpState := h'.tcpState.trans h.tcpState
    rx := h'.rx.trans h.rx
    active := h'.active.trans h.active
    commDegraded := h'.commDegraded.trans h.commDegraded
    backoffS := h'.backoffS.trans h.backoffS
    tx_le := fun htx => h'.tx_le (h.tx_le htx)
    tx_eq := fun hstate htx => h'.tx_eq (h.tcpState ▸ hstate) (h.tx_eq hstate htx)
    trace := ⟨es' ++ es, by rw [hes', hes, List.append_assoc], hq'.append hq⟩ }

theorem Kept.dropped {s s' s'' : Agent} (h : Kept s s') (h' : Dropped s' s'') : Dropped s s'' := by
  obtain ⟨es, hes, hq⟩ := h.trace
  obtain ⟨es₁, es₂, htrace, hq₁, hq₂⟩ := h'.trace
  refine
    { h' with
      backoffS := h.backoffS ▸ h'.backoffS
      trace := ⟨es₁ ++ es, es₂, ?_, hq₁.append hq, hq₂⟩ }
  rw [htrace, hes, h.tcpState]
  simp only [List.append_assoc]

/-- A drop followed by a step that keeps the channel. -/
theorem Dropped.kept {s s' s'' : Agent} (h : Dropped s s') (h' : Kept s' s'') : Dropped s s'' := by
  obtain ⟨es, hes, hq⟩ := h'.trace
  obtain ⟨es₁, es₂, htrace, hq₁, hq₂⟩ := h.trace
  exact {
    tcpFd := h'.tcpFd.trans h.tcpFd
    tcpState := h'.tcpState.trans h.tcpState
    rx := h'.rx.trans h.rx
    tx := h'.tx_eq (by rw [h.tcpState]; nofun) h.tx
    active := h'.active.trans h.active
    commDegraded := h'.commDegraded.trans h.commDegraded
    backoffS := h'.backoffS.trans h.backoffS
    trace := ⟨es₁, es ++ es₂, by rw [hes, htrace]; simp only [List.append_assoc], hq₁,
      hq.append hq₂⟩ }

/-- A member that communication leaves alone is read off `s.comm s'`. -/
theorem Comm.get {α : Type} (f : Agent → α) {s s' : Agent} (h : Comm s s') : f s' = f (s.comm s') :=
  congrArg f h.frame

theorem Comm.refl (s : Agent) : Comm s s := ⟨rfl, .inl (Kept.refl s)⟩

/-- The channel only goes down between two sends, so the relation composes. -/
theorem Comm.trans {s s' s'' : Agent} (h : Comm s s') (h' : Comm s' s'') : Comm s s'' := by
  have hframe : s'' = s.comm s'' := calc
    s'' = s'.comm s'' := h'.frame
    _ = (s.comm s').comm s'' := congrArg (fun x => Agent.comm x s'') h.frame
    _ = s.comm s'' := rfl
  refine ⟨hframe, ?_⟩
  rcases h.channel with hk | ⟨hup, hd⟩
  · rcases h'.channel with hk' | ⟨hup', hd'⟩
    · exact .inl (hk.trans hk')
    · refine .inr ⟨?_, hk.dropped hd'⟩
      by_cases hstate : s.tcpState = .CONNECTED
      · exact .inl hstate
      · refine .inr fun htx => ?_
        rcases hup' with hup' | hup'
        · exact hstate (hk.tcpState ▸ hup')
        · exact hup' (hk.tx_eq hstate htx)
  · refine .inr ⟨hup, ?_⟩
    rcases h'.channel with hk' | ⟨hup', -⟩
    · exact hd.kept hk'
    · -- there is no channel left to drop
      rcases hup' with hup' | hup'
      · exact nomatch hd.tcpState.symm.trans hup'
      · exact absurd hd.tx hup'

instance : IsPreorder Agent Comm where
  refl := Comm.refl
  trans _ _ _ := Comm.trans

/-! ## The procedures -/

theorem comm_withWorld (s : Agent) (w : World) : Comm s (s.withWorld w) :=
  ⟨rfl, .inl ⟨rfl, rfl, rfl, rfl, rfl, rfl, id, fun _ h => h, [], rfl, quiet_nil⟩⟩

theorem comm_ask {α : Type} (part : World → Stream α) (put : World → Stream α → World) :
    Keeps Comm (ask part put) := fun s => comm_withWorld s _

theorem now_run (s : Agent) : ∃ t w, now s = (.ok t, s.withWorld w) ∧ s.world.Leads w :=
  ⟨_, _, rfl, 1, rfl⟩

theorem comm_note {e : Seen} (h : e.isQuiet = true) : Keeps Comm (note e) :=
  fun _ => ⟨rfl, .inl ⟨rfl, rfl, rfl, rfl, rfl, rfl, id, fun _ h => h, [e], rfl, quiet_singleton h⟩⟩

theorem comm_inLogSink (b : Bool) :
    Keeps Comm (modify (Agent.setInLogSink b) : AgentM Unit) :=
  fun _ => ⟨rfl, .inl ⟨rfl, rfl, rfl, rfl, rfl, rfl, id, fun _ h => h, [], rfl, quiet_nil⟩⟩

theorem record_state (lvl : LogLevel) (msg : List Byte) (s : Agent) :
    ∃ es, (record lvl msg s).2 = { s with trace := es ++ s.trace } ∧ Quiet es := by
  rw [record, bind_run_ok (get_run s), when]
  split
  · exact ⟨[.log lvl (msg.take 1023)], rfl, quiet_singleton rfl⟩
  · exact ⟨[], rfl, quiet_nil⟩

/-- `tcpFail` drops the channel and touches nothing else. -/
theorem tcpFail_spec (why : List Byte) (s : Agent) :
    (tcpFail why s).2 = s.comm (tcpFail why s).2 ∧ Dropped s (tcpFail why s).2 := by
  obtain ⟨t, ht⟩ := exists_run_ok now s.drop
  have hstate : ∃ es, Quiet es ∧ (tcpFail why s).2 =
      Agent.backOff { ((now s.drop).2.scheduleRetry t) with trace := es ++ s.drop.trace } := by
    unfold tcpFail
    rw [bind_run_ok (get_run s), unit_bind_run, modify_run, bind_run_ok ht,
      bind_run_ok (get_run _), unit_bind_run, unit_bind_run, modify_run]
    obtain ⟨es, hes, hq⟩ := record_state .WARN
      ((now s.drop).2.failText (s.tcpState = .CONNECTED) why) ((now s.drop).2.scheduleRetry t)
    exact ⟨es, hq, congrArg Agent.backOff hes⟩
  obtain ⟨es, hq, hes⟩ := hstate
  rw [hes]
  refine ⟨rfl, rfl, rfl, rfl, rfl, rfl, rfl, rfl, [], es, ?_, quiet_nil, hq⟩
  show es ++ s.drop.trace = _
  rw [Agent.drop, List.append_nil, List.append_assoc]
  split <;> rfl

theorem comm_tcpFail {s : Agent} (why : List Byte) (h : s.tcpState = .CONNECTED ∨ s.tx ≠ []) :
    Comm s (tcpFail why s).2 :=
  ⟨(tcpFail_spec why s).1, .inr ⟨h, (tcpFail_spec why s).2⟩⟩

theorem comm_takeSent (n : ℕ) (s : Agent) : Comm s (s.takeSent n) := by
  refine ⟨rfl, .inl ⟨rfl, rfl, rfl, rfl, rfl, rfl, fun h => ?_, fun _ h => ?_,
    [.sent (s.tx.take n)], rfl, quiet_singleton rfl⟩⟩
  · exact (List.drop_sublist n s.tx).length_le.trans h
  · show s.tx.drop n = []
    rw [h, List.drop_nil]

/-- A flush takes bytes from the front of `tx_`, or drops the channel. -/
theorem comm_flushLoop (rs : List (Io ℕ)) : Keeps Comm (flushLoop rs) := by
  induction rs with
  | nil => exact Keeps.bind Keeps.get fun _ => Keeps.pure _
  | cons r rs ih =>
    intro s
    unfold flushLoop
    rw [bind_run_ok (get_run s)]
    -- with nothing to send, `send` is not called
    by_cases htx : s.tx = []
    · rw [if_pos htx]
      exact Comm.refl s
    · rw [if_neg htx]
      cases r with
      | done n =>
        dsimp only
        split
        · rw [bind_pure_state]
          exact comm_tcpFail _ (.inr htx)
        · rw [unit_bind_run, modify_run]
          exact (comm_takeSent n s).trans (ih _)
      | wouldBlock => exact Comm.refl s
      | error why =>
        dsimp only
        rw [bind_pure_state]
        exact comm_tcpFail _ (.inr htx)

theorem comm_tcpFlush : Keeps Comm tcpFlush := Keeps.bind (comm_ask _ _) comm_flushLoop

/-- `makeHeader` only reads a clock. -/
theorem makeHeader_run (msgType : UInt8) (seq : UInt32) (s : Agent) :
    ∃ hdr w, makeHeader msgType seq s = (.ok hdr, s.withWorld w) ∧ s.world.Leads w :=
  ⟨_, _, rfl, 0, rfl⟩

theorem comm_makeHeader (msgType : UInt8) (seq : UInt32) : Keeps Comm (makeHeader msgType seq) :=
  Keeps.bind (comm_ask _ _) fun _ => Keeps.bind Keeps.get fun _ => Keeps.pure _

/-- A frame within `kTxLimit` is appended to `tx_`. -/
theorem comm_queue {s : Agent} (hdr : FrameHeader) (payload : List Byte)
    (hstate : s.tcpState = .CONNECTED)
    (hlen : ¬ s.tx.length + (encodeFrame hdr payload).length > kTxLimit) :
    Comm s (s.queue hdr payload) := by
  refine ⟨rfl, .inl ⟨rfl, rfl, rfl, rfl, rfl, rfl, fun _ => ?_, fun h => absurd hstate h,
    [.queued hdr payload], rfl, quiet_singleton rfl⟩⟩
  show (s.tx ++ encodeFrame hdr payload).length ≤ kTxLimit
  rw [List.length_append]
  exact not_lt.mp hlen

/-- `sendFrame`: queue and flush, or drop the channel at the limit. -/
theorem comm_sendFrame (msgType : UInt8) (payload : List Byte) :
    Keeps Comm (sendFrame msgType payload) := by
  intro s
  rw [sendFrame, bind_run_ok (get_run s), when]
  split
  · next hstate =>
    -- the sequence number is taken before the header is made
    have hseq : Comm s s.nextSeq :=
      ⟨rfl, .inl ⟨rfl, rfl, rfl, rfl, rfl, rfl, id, fun _ h => h, [], rfl, quiet_nil⟩⟩
    obtain ⟨hdr, w, hhdr, -⟩ := makeHeader_run msgType s.tcpSeq s.nextSeq
    have hheader := comm_makeHeader msgType s.tcpSeq s.nextSeq
    rw [hhdr] at hheader
    refine hseq.trans ?_
    rw [unit_bind_run, modify_run, bind_run_ok hhdr]
    refine hheader.trans ?_
    split
    · exact comm_tcpFail _ (.inl hstate)
    · next hlen =>
      rw [unit_bind_run, modify_run]
      refine (comm_queue (s := s.nextSeq.withWorld w) hdr payload hstate hlen).trans ?_
      exact Keeps.bind comm_tcpFlush (fun _ => Keeps.pure ()) _
  · exact Comm.refl s

theorem comm_logSink (lvl : LogLevel) (msg : List Byte) : Keeps Comm (logSink lvl msg) :=
  Keeps.bind Keeps.get fun _ => Keeps.when fun _ =>
    (comm_inLogSink true).bind fun _ => (comm_sendFrame _ _).bind fun _ => comm_inLogSink false

theorem comm_log (lvl : LogLevel) (msg : List Byte) : Keeps Comm (log lvl msg) :=
  Keeps.bind Keeps.get fun _ => Keeps.when fun _ =>
    (comm_note rfl).bind fun _ => comm_logSink lvl _

theorem comm_sendHello : Keeps Comm sendHello :=
  Keeps.bind Keeps.get fun _ => comm_sendFrame _ _

theorem comm_sendHeartbeat : Keeps Comm sendHeartbeat :=
  Keeps.bind (comm_ask _ _) fun _ => Keeps.bind Keeps.get fun _ => comm_sendFrame _ _

theorem comm_sendFaultAck : Keeps Comm sendFaultAck :=
  Keeps.bind Keeps.get fun _ => comm_sendFrame _ _

end EcuTelemetry.Firmware
