/-
  EcuTelemetry.Firmware.Channel

  The members of the control channel agree at the top of the main loop, whatever
  the sockets answer and wherever a failure happens.
-/

import Mathlib.Tactic.Linarith
import EcuTelemetry.Firmware.AgentFrame

namespace EcuTelemetry.Firmware

open Proc

/-! ## The invariant -/

structure ChannelInv (s : Agent) : Prop where
  fd : 0 ≤ s.tcpFd ↔ s.tcpState ≠ .DISCONNECTED
  degraded : s.physics.commDegraded = true ↔ s.tcpState ≠ .CONNECTED
  empty : s.tcpState = .DISCONNECTED → s.rx = [] ∧ s.tx = []
  rebooting : s.rebooting = true → s.tcpState = .DISCONNECTED
  rx_le : s.rx.length ≤ kRxLimit
  tx_le : s.tx.length ≤ kTxLimit
  backoff : 1 ≤ s.backoffS ∧ s.backoffS ≤ 30
  /-- only a connected channel has bytes to send -/
  sending : s.tx ≠ [] → s.tcpState = .CONNECTED

/-- The members the invariant is about. -/
def Agent.chan (s : Agent) : ℤ × TcpState × List Byte × List Byte × Bool × ℚ × Bool :=
  (s.tcpFd, s.tcpState, s.rx, s.tx, s.physics.commDegraded, s.backoffS, s.rebooting)

def SameChan (s s' : Agent) : Prop := s'.chan = s.chan

instance : IsPreorder Agent SameChan where
  refl _ := rfl
  trans _ _ _ h h' := h'.trans h

theorem sameChan_ask {α : Type} (part : World → Stream α) (put : World → Stream α → World) :
    Keeps SameChan (ask part put) := fun _ => rfl

/-- The invariant reads the channel fields only. -/
theorem ChannelInv.congr {s s' : Agent} (h : ChannelInv s) (hchan : s'.chan = s.chan) :
    ChannelInv s' := by
  simp only [Agent.chan, Prod.mk.injEq] at hchan
  obtain ⟨hfd, hstate, hrx, htx, hdeg, hback, hreb⟩ := hchan
  constructor
  · rw [hfd, hstate]; exact h.fd
  · rw [hdeg, hstate]; exact h.degraded
  · rw [hstate, hrx, htx]; exact h.empty
  · rw [hreb, hstate]; exact h.rebooting
  · rw [hrx]; exact h.rx_le
  · rw [htx]; exact h.tx_le
  · rw [hback]; exact h.backoff
  · rw [htx, hstate]; exact h.sending

theorem backoff_double {b : ℚ} (h : 1 ≤ b ∧ b ≤ 30) :
    1 ≤ min kBackoffMaxS (b * 2) ∧ min kBackoffMaxS (b * 2) ≤ 30 := by
  refine ⟨le_min (by norm_num [kBackoffMaxS]) (by linarith), min_le_left _ _⟩

/-- `tcpFail` restores all the clauses together. -/
theorem Dropped.channelInv {s s' : Agent} (h : Dropped s s')
    (hback : 1 ≤ s.backoffS ∧ s.backoffS ≤ 30) : ChannelInv s' := by
  have hne : TcpState.DISCONNECTED ≠ .CONNECTED := nofun
  constructor
  · rw [h.tcpFd, h.tcpState]
    exact ⟨fun hfd => absurd hfd (by decide), fun hst => absurd rfl hst⟩
  · rw [h.commDegraded, h.tcpState]
    exact ⟨fun _ => hne, fun _ => rfl⟩
  · exact fun _ => ⟨h.rx, h.tx⟩
  · exact fun _ => h.tcpState
  · rw [h.rx]; exact Nat.zero_le _
  · rw [h.tx]; exact Nat.zero_le _
  · rw [h.backoffS]; exact backoff_double hback
  · exact fun htx => absurd h.tx htx

/-- What leaves the channel as it is keeps the invariant. -/
theorem ChannelInv.kept {s s' : Agent} (h : ChannelInv s) (hk : Kept s s')
    (hreb : s'.rebooting = s.rebooting) : ChannelInv s' := by
  constructor
  · rw [hk.tcpFd, hk.tcpState]; exact h.fd
  · rw [hk.commDegraded, hk.tcpState]; exact h.degraded
  · intro hstate
    rw [hk.tcpState] at hstate
    have hempty := h.empty hstate
    exact ⟨hk.rx.trans hempty.1, hk.tx_eq (by rw [hstate]; nofun) hempty.2⟩
  · rw [hreb, hk.tcpState]; exact h.rebooting
  · rw [hk.rx]; exact h.rx_le
  · exact hk.tx_le h.tx_le
  · rw [hk.backoffS]; exact h.backoff
  · intro htx
    rw [hk.tcpState]
    by_contra hstate
    exact htx (hk.tx_eq hstate (not_not.mp fun htx => hstate (h.sending htx)))

theorem ChannelInv.comm {s s' : Agent} (h : ChannelInv s) (hc : Comm s s') : ChannelInv s' := by
  rcases hc.channel with hk | ⟨-, hd⟩
  · exact h.kept hk (hc.get Agent.rebooting)
  · exact hd.channelInv h.backoff

theorem within_channelInv : Within (Holds ChannelInv) :=
  .ofComm (fun _ _ hc h => h.comm hc) fun _ _ ha h => by cases ha <;> exact h.congr rfl

theorem channelInv_reconfigured (s s' : Agent) (hr : Reconfigured s s') :
    Holds ChannelInv s s' := fun h => by cases hr <;> exact h.congr rfl

theorem channelInv_reinjected (s s' : Agent) (hr : Reinjected s s') :
    Holds ChannelInv s s' := fun h => by cases hr <;> exact h.congr rfl

theorem channelInv_tcpFail (why : List Byte) {s : Agent} (h : 1 ≤ s.backoffS ∧ s.backoffS ≤ 30) :
    ChannelInv (tcpFail why s).2 := (tcpFail_spec why s).2.channelInv h

/-! ## Handlers -/

/-- After `closeTcp` there is no descriptor. -/
theorem closeTcp_fd (s : Agent) : (closeTcp s).2.tcpFd < 0 := by
  rw [closeTcp, bind_run_ok (get_run s), when]
  split
  · obtain ⟨b, hb⟩ := exists_run_ok tcpFlush s
    rw [bind_run_ok hb]
    show (-1 : ℤ) < 0
    decide
  · next hfd => exact not_le.mp hfd

/-- A reboot restores the clauses from scratch. -/
theorem channelInv_goQuiet {s : Agent} (h : s.tcpFd < 0) : ChannelInv s.goQuiet := by
  have hne : TcpState.DISCONNECTED ≠ .CONNECTED := nofun
  constructor
  · exact ⟨fun hfd => absurd h (not_lt.mpr hfd), fun hst => absurd rfl hst⟩
  · exact ⟨fun _ => hne, fun _ => rfl⟩
  · exact fun _ => ⟨rfl, rfl⟩
  · exact fun _ => rfl
  · exact Nat.zero_le _
  · exact Nat.zero_le _
  · show 1 ≤ kBackoffMinS ∧ kBackoffMinS ≤ 30
    norm_num [kBackoffMinS]
  · exact fun htx => absurd rfl htx

theorem channelInv_startReboot (reason : List Byte) (fw : Bool) :
    Keeps (Holds ChannelInv) (startReboot reason fw) := by
  intro s _
  rw [startReboot, unit_bind_run, unit_bind_run, unit_bind_run]
  have hrest :
      Keeps (Holds ChannelInv) (now >>= fun t => modify (Agent.rebootAt t) : AgentM Unit) :=
    within_channelInv.now.bind fun t => within_channelInv.update fun _ => .rebootAt t
  exact hrest _ (channelInv_goQuiet (closeTcp_fd _))

theorem channelInv_acceptFwUpdate (fu : FwUpdate) (target : UInt32) :
    Keeps (Holds ChannelInv) (acceptFwUpdate fu target) := fun _ =>
  within_channelInv.acceptFwUpdate fun _ _ _ h => h.congr rfl

theorem channelInv_finishOta (t : ℚ) : Keeps (Holds ChannelInv) (finishOta t) :=
  within_channelInv.finishOta (fun _ _ _ h => h.congr rfl) (fun _ h => h.congr rfl)
    channelInv_startReboot t

/-- Every handler of a received frame. -/
theorem channelInv_handleFrame (f : Frame) : Keeps (Holds ChannelInv) (handleFrame f) := by
  have h := within_channelInv
  refine h.handleFrame (fun _ _ _ h => h.congr rfl) (fun _ h => h.congr rfl)
    (fun _ _ _ h => h.congr rfl) ?_
  have hack : ∀ v status, Keeps (Holds ChannelInv) (sendConfigAck v status) :=
    fun _ _ => (comm_sendFrame _ _).weaken fun _ _ hc h => h.comm hc
  exact h.dispatch (h.handleConfigSet channelInv_reconfigured hack f)
    (h.handleFwUpdate fun s fu target _ _ _ => channelInv_acceptFwUpdate fu target s)
    (h.handleFaultInject channelInv_reinjected f)
    (h.handleCmd channelInv_reinjected channelInv_startReboot f)

theorem channelInv_readSensors (p : SysfsSensors) : Keeps (Holds ChannelInv) (readSensors p) :=
  within_channelInv.readSensors (fun _ _ h => h.congr rfl) (fun _ h => h.congr rfl)
    (fun _ _ h => h.congr rfl) p

theorem channelInv_sendSample : Keeps (Holds ChannelInv) sendSample :=
  within_channelInv.counts.sendSample
    (within_channelInv.counts.emitSample fun _ _ _ h => h.congr rfl)

theorem channelInv_updateInjections : Keeps (Holds ChannelInv) (now >>= updateInjections) :=
  within_channelInv.now.bind (within_channelInv.updateInjections channelInv_reinjected)

theorem channelInv_tick : Keeps (Holds ChannelInv) tick :=
  within_channelInv.tick channelInv_updateInjections channelInv_readSensors (fun _ h => h.congr rfl)
    (keeps_checkLocalAlerts (fun _ _ h => h.congr rfl) fun lvl msg =>
      (comm_log lvl msg).weaken fun _ _ hc h => h.comm hc) channelInv_sendSample

theorem channelInv_serveTimers (t : ℚ) : Keeps (Holds ChannelInv) (serveTimers t) :=
  within_channelInv.serveTimers channelInv_tick
    (within_channelInv.serviceOta fun t s _ _ _ => channelInv_finishOta t s) t

/-! ## Receiving -/

/-- Bytes are kept only while connected, and never more than `kRxLimit`. -/
theorem channelInv_setRx {s : Agent} {data : List Byte} (h : ChannelInv s)
    (hstate : s.tcpState = .CONNECTED) (hlen : data.length ≤ kRxLimit) :
    ChannelInv (s.setRx data) where
  fd := h.fd
  degraded := h.degraded
  empty hst := nomatch hstate.symm.trans hst
  rebooting := h.rebooting
  rx_le := hlen
  tx_le := h.tx_le
  backoff := h.backoff
  sending := h.sending

/-- The loop goes on only on a connected channel. -/
theorem channelInv_recvLoop (rs : List (Io (List Byte))) {s : Agent} (h : ChannelInv s)
    (hstate : s.tcpState = .CONNECTED) : ChannelInv (recvLoop rs s).2 ∧
      ((recvLoop rs s).1 = .ok true → (recvLoop rs s).2.tcpState = .CONNECTED) := by
  induction rs generalizing s with
  | nil => exact ⟨h, fun _ => hstate⟩
  | cons r rs ih =>
    -- a failed read drops the channel, and the loop returns false
    have hfail : ∀ why, ChannelInv ((tcpFail why >>= fun _ => pure false : AgentM Bool) s).2 ∧
        (((tcpFail why >>= fun _ => pure false : AgentM Bool) s).1 = .ok true →
          ((tcpFail why >>= fun _ => pure false : AgentM Bool) s).2.tcpState = .CONNECTED) := by
      intro why
      rw [unit_bind_run]
      exact ⟨channelInv_tcpFail why h.backoff, nofun⟩
    cases r with
    | wouldBlock => exact ⟨h, fun _ => hstate⟩
    | error why => exact hfail why
    | done bytes =>
      rw [recvLoop]
      split
      · exact hfail _
      · rw [bind_run_ok (get_run s), unit_bind_run, modify_run]
        split
        · -- the buffer is over its limit until `tcpFail` clears it
          rw [unit_bind_run]
          exact ⟨channelInv_tcpFail _ h.backoff, nofun⟩
        · next hlen => exact ih (channelInv_setRx h hstate (not_lt.mp hlen)) hstate

/-- The parse loop only consumes bytes, so the limit stays met. -/
theorem channelInv_parseLoop (rounds : ℕ) {s : Agent} {data : List Byte} (h : ChannelInv s)
    (hstate : s.tcpState = .CONNECTED) (hlen : data.length ≤ kRxLimit) :
    ChannelInv (parseLoop rounds data s).2 := by
  induction rounds generalizing s data with
  | zero => exact channelInv_setRx h hstate hlen
  | succ rounds ih =>
    rw [parseLoop]
    rcases decodeFrame data with e | ⟨f, used⟩
    · cases e with
      | TOO_SHORT => exact channelInv_setRx h hstate hlen
      | _ => exact channelInv_tcpFail _ h.backoff
    · dsimp only
      have hframe := channelInv_handleFrame f s h
      rw [unit_bind_run, bind_run_ok (get_run _), when]
      split
      · next hup => exact ih hframe hup ((List.drop_sublist _ _).length_le.trans hlen)
      · exact hframe

/-- `tcpRead`: the append is checked against the limit before it is kept. -/
theorem channelInv_tcpRead {s : Agent} (h : ChannelInv s) (hstate : s.tcpState = .CONNECTED) :
    ChannelInv (tcpRead s).2 := by
  rw [tcpRead]
  obtain ⟨answers, hans⟩ := exists_run_ok
    (ask (·.recv) fun w x => { w with recv := x } : AgentM (List (Io (List Byte)))) s
  rw [bind_run_ok hans]
  have hask := h.comm (comm_ask (·.recv) (fun w x => { w with recv := x }) s)
  obtain ⟨hinv, hgo⟩ := channelInv_recvLoop answers hask hstate
  obtain ⟨go, hrecv⟩ := exists_run_ok (recvLoop answers)
    (ask (·.recv) (fun w x => { w with recv := x }) s).2
  rw [bind_run_ok hrecv, bind_run_ok (get_run _), when]
  split
  · next htrue =>
    rw [hrecv, htrue] at hgo
    exact channelInv_parseLoop _ hinv (hgo rfl) hinv.rx_le
  · exact hinv

/-! ## Connecting -/

/-- A channel that comes up has empty buffers. -/
theorem channelInv_goUp {s : Agent} (hfd : 0 ≤ s.tcpFd) (hreb : s.rebooting = false) :
    ChannelInv s.goUp where
  fd := ⟨fun _ => nofun, fun _ => hfd⟩
  degraded := ⟨nofun, fun h => absurd rfl h⟩
  empty := nofun
  rebooting h := Bool.noConfusion (hreb.symm.trans h)
  rx_le := Nat.zero_le _
  tx_le := Nat.zero_le _
  backoff := by
    show 1 ≤ kBackoffMinS ∧ kBackoffMinS ≤ 30
    norm_num [kBackoffMinS]
  sending h := absurd rfl h

theorem channelInv_tcpOnConnected {s : Agent} (hfd : 0 ≤ s.tcpFd) (hreb : s.rebooting = false) :
    ChannelInv (tcpOnConnected s).2 := by
  rw [tcpOnConnected, modify_bind_run, unit_bind_run]
  exact within_channelInv.afterHello _ (within_channelInv.sendHello _ (channelInv_goUp hfd hreb))

/-- A connection attempt is under way. -/
theorem channelInv_setConnecting {s : Agent} {fd : ℤ} (h : ChannelInv s)
    (hstate : s.tcpState = .DISCONNECTED) (hreb : s.rebooting = false) (hfd : 0 ≤ fd) :
    ChannelInv (s.setTcpFd fd).setConnecting where
  fd := ⟨fun _ => nofun, fun _ => hfd⟩
  degraded := ⟨fun _ => nofun, fun _ => h.degraded.mpr (by rw [hstate]; nofun)⟩
  empty := nofun
  rebooting hr := Bool.noConfusion (hreb.symm.trans hr)
  rx_le := h.rx_le
  tx_le := h.tx_le
  backoff := h.backoff
  sending hne := absurd (h.empty hstate).2 hne

/-- Nothing happens to the channel before `connect` answers. -/
theorem callConnect_chan : Keeps SameChan callConnect := by
  have hcount : Keeps SameChan (modify Agent.countReconnect : AgentM Unit) := fun _ => rfl
  have hfrom : ∀ t, Keeps SameChan (modify (Agent.connectFrom t) : AgentM Unit) := fun _ _ => rfl
  exact hcount.bind fun _ => (sameChan_ask _ _).bind fun t => (hfrom t).bind fun _ =>
    sameChan_ask _ _

/-- A connect that succeeds at once, is in progress, or fails. -/
theorem channelInv_connectSocket (fd : ℕ) {s : Agent} (h : ChannelInv s)
    (hstate : s.tcpState = .DISCONNECTED) (hreb : s.rebooting = false) :
    ChannelInv (connectSocket fd s).2 := by
  have hfd : (0 : ℤ) ≤ fd := Int.natCast_nonneg fd
  rw [connectSocket, unit_bind_run, modify_run]
  obtain ⟨rc, s', hrc, hchan⟩ := callConnect_chan.exists_run_ok (s.setTcpFd fd)
  rw [bind_run_ok hrc]
  have hconnecting := channelInv_setConnecting h hstate hreb hfd
  simp only [SameChan, Agent.chan, Prod.mk.injEq] at hchan
  cases rc with
  | done =>
    dsimp only
    rw [unit_bind_run, modify_run]
    exact channelInv_tcpOnConnected (hchan.1 ▸ hfd) (hchan.2.2.2.2.2.2.trans hreb)
  | inProgress =>
    refine hconnecting.congr ?_
    rw [Agent.chan, Agent.chan]
    simp only [Prod.mk.injEq]
    exact ⟨hchan.1, rfl, hchan.2.2.1, hchan.2.2.2.1, hchan.2.2.2.2.1, hchan.2.2.2.2.2⟩
  | error why => exact channelInv_tcpFail why (hchan.2.2.2.2.2.1 ▸ h.backoff)

/-- `tcpStartConnect`, with the failures of `socket` and `inet_pton`. -/
theorem channelInv_tcpStartConnect {s : Agent} (h : ChannelInv s)
    (hstate : s.tcpState = .DISCONNECTED) (hreb : s.rebooting = false) :
    ChannelInv (tcpStartConnect s).2 := by
  rw [tcpStartConnect]
  obtain ⟨found, hfound⟩ := exists_run_ok resolve s
  have hs : ChannelInv (resolve s).2 := h.congr rfl
  rw [bind_run_ok hfound]
  split
  · obtain ⟨sock, hsock⟩ := exists_run_ok socket (resolve s).2
    rw [bind_run_ok hsock]
    cases sock with
    | ok fd => exact channelInv_connectSocket fd (hs.congr rfl) hstate hreb
    | error why =>
      dsimp only
      rw [unit_bind_run]
      exact channelInv_tcpFail _ h.backoff
  · exact channelInv_tcpFail _ hs.backoff

/-- `tcpFinishConnect`: `SO_ERROR` decides between up and failed. -/
theorem channelInv_tcpFinishConnect {s : Agent} (h : ChannelInv s)
    (hstate : s.tcpState = .CONNECTING) : ChannelInv (tcpFinishConnect s).2 := by
  rw [tcpFinishConnect]
  obtain ⟨err, herr⟩ := exists_run_ok
    (ask (·.soError) fun w x => { w with soError := x } : AgentM (Option (List Byte))) s
  rw [bind_run_ok herr]
  cases err with
  | some why => exact channelInv_tcpFail why h.backoff
  | none =>
    refine channelInv_tcpOnConnected (h.fd.mpr (by rw [hstate]; nofun)) ?_
    by_contra hreb
    have hdis := h.rebooting (Bool.not_eq_false _ ▸ hreb)
    exact nomatch hstate.symm.trans hdis

/-- What the loop does with a socket that `select` reported. -/
theorem channelInv_serveSocket (readable writable : Bool) {s : Agent} (h : ChannelInv s) :
    ChannelInv (serveSocket readable writable s).2 := by
  rw [serveSocket, bind_run_ok (get_run s)]
  split
  · exact h
  · split
    · next hstate =>
      split
      · exact channelInv_tcpFinishConnect h hstate
      · obtain ⟨t, ht⟩ := exists_run_ok now s
        rw [bind_run_ok ht, when]
        split
        · exact channelInv_tcpFail _ h.backoff
        · exact h.congr rfl
    · rw [unit_bind_run]
      -- reading may drop the channel; flushing asks again whether it is up
      have hread : ChannelInv
          (when (readable = true ∧ s.tcpState = .CONNECTED) tcpRead s).2 := by
        rw [when]
        split
        · next hup => exact channelInv_tcpRead h hup.2
        · exact h
      have hflush : Keeps (Holds ChannelInv) (tcpFlush >>= fun _ => pure () : AgentM Unit) :=
        within_channelInv.tcpFlush.bind fun _ => Keeps.pure ()
      exact Keeps.bind Keeps.get (fun _ => Keeps.when fun _ => hflush) _ hread

/-- The whole service pass, in each of the three states. -/
theorem channelInv_tcpService : Keeps (Holds ChannelInv) tcpService := by
  intro s h
  rw [tcpService]
  obtain ⟨t, ht⟩ := exists_run_ok now s
  have hs : ChannelInv (now s).2 := h.congr rfl
  rw [bind_run_ok ht, bind_run_ok (get_run _)]
  split
  · exact hs
  · next hreb =>
    rw [unit_bind_run]
    -- a disconnected channel tries again after its backoff
    have hconnect : ChannelInv (when ((now s).2.tcpState = .DISCONNECTED ∧
        (now s).2.nextConnectAt ≤ t) tcpStartConnect (now s).2).2 := by
      rw [when]
      split
      · next hdis => exact channelInv_tcpStartConnect hs hdis.1 (Bool.not_eq_true _ ▸ hreb)
      · exact hs
    refine Keeps.bind (within_channelInv.ask _ _ fun _ _ => by rfl) (fun answer => ?_) _ hconnect
    cases answer with
    | ready readable writable => exact fun _ => channelInv_serveSocket readable writable
    | interrupted => exact Keeps.pure ()
    | error why => exact within_channelInv.log _ _ rfl

/-! ## Runs -/

theorem channelInv_completeBoot (t : ℚ) : Keeps (Holds ChannelInv) (completeBoot t) := by
  refine within_channelInv.completeBoot (fun _ s h => ?_) (fun s h => ?_) t
  · exact ⟨h.fd, h.degraded, h.empty, nofun, h.rx_le, h.tx_le, h.backoff, h.sending⟩
  · rw [Agent.install]
    split
    · exact h.congr rfl
    · exact h.congr rfl

/-- One round of the loop. -/
theorem channelInv_loopBody : Keeps (Holds ChannelInv) loopBody := by
  have h := within_channelInv
  refine (h.ask _ _ fun _ _ => by rfl).bind fun stop =>
    Keeps.ite (fun _ => Keeps.pure _) fun _ => ?_
  refine h.now.bind fun t => Keeps.bind Keeps.get fun s => ?_
  refine Keeps.ite (fun _ => (h.log _ _ rfl).bind fun _ => Keeps.pure _) fun _ => ?_
  refine (Keeps.when fun _ => channelInv_completeBoot t).bind fun _ =>
    Keeps.bind Keeps.get fun s => ?_
  refine (Keeps.when fun _ => channelInv_serveTimers t).bind fun _ => h.now.bind fun _ => ?_
  exact channelInv_tcpService.bind fun _ => Keeps.pure _

/-- A new agent is disconnected, with nothing buffered. -/
theorem channelInv_new (opts : AgentOptions) (cfg : Config) (sensors : Option SysfsSensors)
    (world : World) : ChannelInv (.new opts cfg sensors world) where
  fd := by
    show (0 : ℤ) ≤ -1 ↔ TcpState.DISCONNECTED ≠ .DISCONNECTED
    decide
  degraded := ⟨fun _ => nofun, fun _ => rfl⟩
  empty _ := ⟨rfl, rfl⟩
  rebooting := nofun
  rx_le := Nat.zero_le _
  tx_le := Nat.zero_le _
  backoff := by
    show (1 : ℚ) ≤ 1 ∧ (1 : ℚ) ≤ 30
    norm_num
  sending h := absurd rfl h

theorem channelInv_start (opts : AgentOptions) (cfg : Config) (sensors : Option SysfsSensors)
    (world : World) : ChannelInv (start (.init opts cfg sensors world)).2 := by
  have hinit : ChannelInv (.init opts cfg sensors world) :=
    within_channelInv.applyHz channelInv_reconfigured cfg.hz _
      (channelInv_new opts cfg sensors world)
  exact within_channelInv.start (fun _ _ h => h.congr rfl) _ hinit

/-- The invariant of the channel. -/
theorem channelInv_top (opts : AgentOptions) (cfg : Config) (sensors : Option SysfsSensors)
    (world : World) (n : ℕ) : ChannelInv (.top opts cfg sensors world n) :=
  keeps_rounds channelInv_loopBody n _ (channelInv_start opts cfg sensors world)

end EcuTelemetry.Firmware
