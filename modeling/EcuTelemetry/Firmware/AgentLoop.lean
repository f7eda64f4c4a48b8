/-
  EcuTelemetry.Firmware.AgentLoop

  The rule for invariants of the main loop.  A relation is given for the parts
  that change something, each from the states in which the loop reaches it; it
  then holds across a round.  The invariant of the channel is carried along, so
  that a part may use it.
-/

import EcuTelemetry.Firmware.Channel

namespace EcuTelemetry.Firmware

open Proc

/-! ## Along the invariant of the channel -/

/-- `R`, from a state with the invariant of the channel. -/
def Along (R : Agent → Agent → Prop) (s s' : Agent) : Prop :=
  ChannelInv s → R s s' ∧ ChannelInv s'

instance (R : Agent → Agent → Prop) [IsPreorder Agent R] : IsPreorder Agent (Along R) where
  refl s h := ⟨refl_of R s, h⟩
  trans _ _ _ h h' hs :=
    have hR := h hs
    have hR' := h' hR.2
    ⟨trans_of R hR.1 hR'.1, hR'.2⟩

theorem Along.keeps {R : Agent → Agent → Prop} {α : Type} {m : AgentM α} (hR : Keeps R m)
    (hinv : Keeps (Holds ChannelInv) m) : Keeps (Along R) m := fun s h => ⟨hR s, hinv s h⟩

/-- What keeps `R` keeps it along the channel invariant. -/
theorem Within.along {R : Agent → Agent → Prop} (h : Within R) : Within (Along R) where
  aside s s' ha hs := ⟨h.aside s s' ha, within_channelInv.aside s s' ha hs⟩
  world s w hw hs := ⟨h.world s w hw, within_channelInv.world s w hw hs⟩
  log lvl msg hmsg := Along.keeps (h.log lvl msg hmsg) (within_channelInv.log lvl msg hmsg)
  tcpFlush := Along.keeps h.tcpFlush within_channelInv.tcpFlush
  sendHello := Along.keeps h.sendHello within_channelInv.sendHello
  sendHeartbeat := Along.keeps h.sendHeartbeat within_channelInv.sendHeartbeat
  sendFaultAck := Along.keeps h.sendFaultAck within_channelInv.sendFaultAck
  sendFwAck status v := Along.keeps (h.sendFwAck status v) (within_channelInv.sendFwAck status v)

/-! ## The parts of a round -/

/-- What a round is made of stays within `R`, each part from the states it can
    start in.  The tick is one part. -/
structure Steps (R : Agent → Agent → Prop) : Prop extends Within R where
  tcpFail : ∀ why, Keeps R (tcpFail why)
  setTcpFd : ∀ fd s, R s (s.setTcpFd fd)
  setRx : ∀ data s, s.tcpState = .CONNECTED → R s (s.setRx data)
  goUp : ∀ s, s.tcpState = .CONNECTING → s.rebooting = false → R s (Firmware.sendHello s.goUp).2
  setConnecting : ∀ s, s.tcpState = .DISCONNECTED → s.rebooting = false → R s s.setConnecting
  tick : Keeps R tick
  handleFrame : ∀ f s, ChannelInv s → s.tcpState = .CONNECTED → R s (handleFrame f s).2
  finishOta : ∀ t s, ChannelInv s → s.ota.active = true → s.tcpState = .CONNECTED →
    s.ota.doneAt ≤ t → R s (finishOta t s).2
  completeBoot : ∀ t s, ChannelInv s → s.rebooting = true → R s (completeBoot t s).2

/-- The same with the parts of the tick. -/
structure Across (R : Agent → Agent → Prop) : Prop extends Within R where
  tcpFail : ∀ why, Keeps R (tcpFail why)
  setTcpFd : ∀ fd s, R s (s.setTcpFd fd)
  setRx : ∀ data s, s.tcpState = .CONNECTED → R s (s.setRx data)
  goUp : ∀ s, s.tcpState = .CONNECTING → s.rebooting = false → R s (Firmware.sendHello s.goUp).2
  setConnecting : ∀ s, s.tcpState = .DISCONNECTED → s.rebooting = false → R s s.setConnecting
  updateInjections : Keeps R (now >>= updateInjections)
  readSensors : ∀ p, Keeps R (readSensors p)
  noteComputed : ∀ s, R s s.noteComputed
  checkLocalAlerts : Keeps R checkLocalAlerts
  sendSample : Keeps R sendSample
  handleFrame : ∀ f s, ChannelInv s → s.tcpState = .CONNECTED → R s (handleFrame f s).2
  finishOta : ∀ t s, ChannelInv s → s.ota.active = true → s.tcpState = .CONNECTED →
    s.ota.doneAt ≤ t → R s (finishOta t s).2
  completeBoot : ∀ t s, ChannelInv s → s.rebooting = true → R s (completeBoot t s).2

/-- From the parts of a round to its steps. -/
theorem Across.steps {R : Agent → Agent → Prop} [IsPreorder Agent R] (h : Across R) : Steps R where
  toWithin := h.toWithin
  tcpFail := h.tcpFail
  setTcpFd := h.setTcpFd
  setRx := h.setRx
  goUp := h.goUp
  setConnecting := h.setConnecting
  tick := h.toWithin.tick h.updateInjections h.readSensors h.noteComputed h.checkLocalAlerts
    h.sendSample
  handleFrame := h.handleFrame
  finishOta := h.finishOta
  completeBoot := h.completeBoot

namespace Steps

variable {R : Agent → Agent → Prop} [IsPreorder Agent R]

/-! ## Receiving -/

/-- Frame by frame, while the channel is up. -/
theorem parseLoop (h : Steps R) (rounds : ℕ) {s : Agent} {data : List Byte} (hinv : ChannelInv s)
    (hup : s.tcpState = .CONNECTED) : R s (parseLoop rounds data s).2 := by
  induction rounds generalizing s data with
  | zero => exact h.setRx data s hup
  | succ rounds ih =>
    rw [Firmware.parseLoop]
    rcases decodeFrame data with e | ⟨f, used⟩
    · cases e with
      | TOO_SHORT => exact h.setRx data s hup
      | _ => exact trans_of R (h.setRx [] s hup) (h.tcpFail _ _)
    · dsimp only
      have hframe := h.handleFrame f s hinv hup
      rw [unit_bind_run, bind_run_ok (get_run _), when]
      split
      · next hup' => exact trans_of R hframe (ih (channelInv_handleFrame f s hinv) hup')
      · exact hframe

/-- The pieces of one call. -/
theorem recvLoop (h : Steps R) (rs : List (Io (List Byte))) {s : Agent}
    (hup : s.tcpState = .CONNECTED) : R s (recvLoop rs s).2 := by
  have hfail : ∀ why (s : Agent),
      R s ((Firmware.tcpFail why >>= fun _ => pure false : AgentM Bool) s).2 := by
    intro why s
    rw [bind_pure_state]
    exact h.tcpFail why s
  induction rs generalizing s with
  | nil => exact refl_of R s
  | cons r rs ih =>
    cases r with
    | wouldBlock => exact refl_of R s
    | error why => exact hfail why s
    | done bytes =>
      rw [Firmware.recvLoop]
      split
      · exact hfail _ s
      · rw [bind_run_ok (get_run s), modify_bind_run]
        refine trans_of R (h.setRx (s.rx ++ bytes) s hup) ?_
        split
        · exact hfail _ _
        · exact ih hup

/-- One call of `tcpRead`. -/
theorem tcpRead (h : Steps R) {s : Agent} (hinv : ChannelInv s) (hup : s.tcpState = .CONNECTED) :
    R s (tcpRead s).2 := by
  rw [Firmware.tcpRead]
  obtain ⟨answers, hans⟩ := exists_run_ok
    (Firmware.ask (·.recv) fun w x => { w with recv := x } : AgentM (List (Io (List Byte)))) s
  have hask := within_channelInv.ask (·.recv) (fun w x => { w with recv := x })
    (fun _ _ => rfl) s hinv
  have hup' : (Firmware.ask (·.recv) (fun w x => { w with recv := x }) s).2.tcpState = .CONNECTED :=
    hup
  rw [bind_run_ok hans]
  refine trans_of R (h.ask (·.recv) (fun w x => { w with recv := x }) (fun _ _ => rfl) s) ?_
  obtain ⟨go, hrecv⟩ := exists_run_ok (Firmware.recvLoop answers)
    (Firmware.ask (·.recv) (fun w x => { w with recv := x }) s).2
  obtain ⟨hinv', hgo⟩ := channelInv_recvLoop answers hask hup'
  rw [bind_run_ok hrecv, bind_run_ok (get_run _), when]
  refine trans_of R (h.recvLoop answers hup') ?_
  split
  · next htrue =>
    rw [hrecv, htrue] at hgo
    exact h.parseLoop _ hinv' (hgo rfl)
  · exact refl_of R _

/-! ## Connecting -/

theorem tcpOnConnected (h : Steps R) {s : Agent} (hstate : s.tcpState = .CONNECTING)
    (hreb : s.rebooting = false) : R s (tcpOnConnected s).2 :=
  h.toWithin.tcpOnConnected (h.goUp s hstate hreb)

theorem callConnect (h : Steps R) : Keeps R callConnect :=
  (h.update fun _ => .countReconnect).bind fun _ => h.now.bind fun t =>
    (h.update fun _ => .connectFrom t).bind fun _ => h.ask _ _ fun _ _ => by rfl

/-- connect() and what it answers. -/
theorem connectSocket (h : Steps R) (fd : ℕ) {s : Agent} (hstate : s.tcpState = .DISCONNECTED)
    (hreb : s.rebooting = false) : R s (connectSocket fd s).2 := by
  rw [Firmware.connectSocket, modify_bind_run]
  refine trans_of R (h.setTcpFd fd s) ?_
  have hconnect := h.callConnect (s.setTcpFd fd)
  obtain ⟨rc, s', hrc, hchan⟩ := callConnect_chan.exists_run_ok (s.setTcpFd fd)
  rw [bind_run_ok hrc]
  rw [hrc] at hconnect
  refine trans_of R hconnect ?_
  simp only [SameChan, Agent.chan, Prod.mk.injEq] at hchan
  have hconnecting : R s' s'.setConnecting :=
    h.setConnecting s' (hchan.2.1.trans hstate) (hchan.2.2.2.2.2.2.trans hreb)
  cases rc with
  | done =>
    refine trans_of R hconnecting ?_
    exact h.tcpOnConnected rfl (hchan.2.2.2.2.2.2.trans hreb)
  | inProgress => exact hconnecting
  | error why => exact h.tcpFail why s'

/-- A new socket. -/
theorem tcpStartConnect (h : Steps R) {s : Agent} (hstate : s.tcpState = .DISCONNECTED)
    (hreb : s.rebooting = false) : R s (tcpStartConnect s).2 := by
  rw [Firmware.tcpStartConnect]
  obtain ⟨found, hfound⟩ := exists_run_ok resolve s
  have hresolve : R s (resolve s).2 := h.world s _ ⟨0, rfl⟩
  rw [bind_run_ok hfound]
  refine trans_of R hresolve ?_
  split
  · obtain ⟨sock, hsock⟩ := exists_run_ok socket (resolve s).2
    have hsocket : R (resolve s).2 (socket (resolve s).2).2 := h.world _ _ ⟨0, rfl⟩
    rw [bind_run_ok hsock]
    refine trans_of R hsocket ?_
    cases sock with
    | ok fd => exact h.connectSocket fd hstate hreb
    | error why => exact trans_of R (h.setTcpFd (-1) _) (h.tcpFail _ _)
  · exact h.tcpFail _ _

/-- The connection is up, or has failed. -/
theorem tcpFinishConnect (h : Steps R) {s : Agent} (hstate : s.tcpState = .CONNECTING)
    (hreb : s.rebooting = false) : R s (tcpFinishConnect s).2 := by
  rw [Firmware.tcpFinishConnect]
  obtain ⟨err, herr⟩ := exists_run_ok
    (Firmware.ask (·.soError) fun w x => { w with soError := x } : AgentM (Option (List Byte))) s
  rw [bind_run_ok herr]
  refine trans_of R (h.ask (·.soError) (fun w x => { w with soError := x }) (fun _ _ => rfl) s) ?_
  cases err with
  | some why => exact h.tcpFail _ _
  | none => exact h.tcpOnConnected hstate hreb

/-- A socket that is readable, writable or both. -/
theorem serveSocket (h : Steps R) (readable writable : Bool) {s : Agent} (hinv : ChannelInv s) :
    R s (serveSocket readable writable s).2 := by
  rw [Firmware.serveSocket, bind_run_ok (get_run s)]
  split
  · exact refl_of R s
  · split
    · next hstate =>
      split
      · refine h.tcpFinishConnect hstate ?_
        by_contra hreb
        have hdis := hinv.rebooting (Bool.not_eq_false _ ▸ hreb)
        rw [hstate] at hdis
        cases hdis
      · refine Keeps.bind h.now (fun t => Keeps.when fun _ => h.tcpFail _) s
    · rw [unit_bind_run]
      have hread : R s (when (readable = true ∧ s.tcpState = .CONNECTED) Firmware.tcpRead s).2 := by
        rw [when]
        split
        · next hup => exact h.tcpRead hinv hup.2
        · exact refl_of R s
      have hflush : Keeps R (Firmware.tcpFlush >>= fun _ => pure () : AgentM Unit) :=
        h.tcpFlush.bind fun _ => Keeps.pure ()
      exact trans_of R hread (Keeps.bind Keeps.get (fun _ => Keeps.when fun _ => hflush) _)

/-! ## A round -/

theorem serveTimers (h : Steps R) (t : ℚ) : Keeps (Along R) (serveTimers t) := by
  have hw := h.toWithin.along
  have htick : Keeps (Along R) Firmware.tick := Along.keeps h.tick channelInv_tick
  exact hw.serveTimers htick (hw.serviceOta fun t s hact hup hdue hinv =>
    ⟨h.finishOta t s hinv hact hup hdue, channelInv_finishOta t s hinv⟩) t

/-- `tcpService`: connect, finish connecting, then read, flush and keep alive. -/
theorem tcpService (h : Steps R) : Keeps (Along R) tcpService := by
  intro s hinv
  refine ⟨?_, channelInv_tcpService s hinv⟩
  rw [Firmware.tcpService]
  obtain ⟨t, ht⟩ := exists_run_ok now s
  rw [bind_run_ok ht, bind_run_ok (get_run _)]
  refine trans_of R (h.now s) ?_
  have hs : ChannelInv (now s).2 := within_channelInv.now s hinv
  split
  · exact refl_of R _
  -- the socket is not served during a reboot
  · next hreb =>
    have hreb : (now s).2.rebooting = false := Bool.not_eq_true _ ▸ hreb
    -- a connection is started first, so the wait is for what is open then
    have hconnect : Along R (now s).2 (when ((now s).2.tcpState = .DISCONNECTED ∧
        (now s).2.nextConnectAt ≤ t) Firmware.tcpStartConnect (now s).2).2 := by
      intro hs
      rw [when]
      split
      · next hdis =>
          exact ⟨h.tcpStartConnect hdis.1 hreb, channelInv_tcpStartConnect hs hdis.1 hreb⟩
      · exact ⟨refl_of R _, hs⟩
    rw [unit_bind_run]
    obtain ⟨hR, hinv'⟩ := hconnect hs
    refine trans_of R hR ?_
    refine (Keeps.bind (h.toWithin.along.ask _ _ fun _ _ => by rfl) (fun answer => ?_) _ hinv').1
    cases answer with
    | ready readable writable =>
      exact fun s hs =>
        ⟨h.serveSocket readable writable hs, channelInv_serveSocket readable writable hs⟩
    | interrupted => exact Keeps.pure ()
    | error why => exact h.toWithin.along.log _ _ rfl

/-- One round of the `while` loop of `Agent::run`. -/
theorem loopBody (h : Steps R) : Keeps (Along R) loopBody := by
  have hw := h.toWithin.along
  refine (hw.ask _ _ fun _ _ => by rfl).bind fun stop =>
    Keeps.ite (fun _ => Keeps.pure _) fun _ => ?_
  refine hw.now.bind fun t s => ?_
  rw [bind_run_ok (get_run s)]
  split
  · exact (hw.log _ _ rfl).bind (fun _ => Keeps.pure _) s
  · have hboot : Along R s
        (when (s.rebooting = true ∧ s.rebootUntil ≤ t) (Firmware.completeBoot t) s).2 := by
      intro hinv
      rw [when]
      split
      · next hreb => exact ⟨h.completeBoot t s hinv hreb.1, channelInv_completeBoot t s hinv⟩
      · exact ⟨refl_of R s, hinv⟩
    refine rel_bind hboot fun _ s' _ => ?_
    refine Keeps.bind Keeps.get (fun s => (Keeps.when fun _ => h.serveTimers t).bind fun _ => ?_) s'
    exact hw.now.bind fun _ => h.tcpService.bind fun _ => Keeps.pure _

/-- From the invariant of the channel, the loop stays within `R`. -/
theorem rounds (h : Steps R) (n : ℕ) {s : Agent} (hinv : ChannelInv s) : R s (rounds n s).2 :=
  (keeps_rounds h.loopBody n s hinv).1

end Steps

/-- An invariant of the main loop. -/
theorem Steps.top {I : Agent → Prop} (h : Steps (Holds I)) {opts : AgentOptions} {cfg : Config}
    {sensors : Option SysfsSensors} {world : World}
    (hstart : I (start (.init opts cfg sensors world)).2) (n : ℕ) :
    I (.top opts cfg sensors world n) :=
  h.rounds n (channelInv_start opts cfg sensors world) hstart

theorem Across.top {I : Agent → Prop} (h : Across (Holds I)) {opts : AgentOptions} {cfg : Config}
    {sensors : Option SysfsSensors} {world : World}
    (hstart : I (start (.init opts cfg sensors world)).2) (n : ℕ) :
    I (.top opts cfg sensors world n) := h.steps.top hstart n

end EcuTelemetry.Firmware
