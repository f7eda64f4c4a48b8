/-
  EcuTelemetry.Firmware.Receive

  The receive path.  No handler looks at `rx_`, so what the agent does with a
  stream depends on its frames and not on how `recv` cuts it: `tcpRead` does what
  handling the frames of the whole stream one after the other does.  The peer's
  close is the exception: what arrives with it is thrown away.
-/

import EcuTelemetry.Firmware.AgentLoop
import EcuTelemetry.Firmware.FrameStream
import EcuTelemetry.Lib.TwoRun

namespace EcuTelemetry.Firmware

open Printf Proc

/-! ## States that differ in what was received -/

def World.withRecv (recv : Stream (List (Io (List Byte)))) (w : World) : World := { w with recv }

def Agent.reread (rx : List Byte) (recv : Stream (List (Io (List Byte)))) (s : Agent) : Agent :=
  { s with rx, world := s.world.withRecv recv }

/-- The states agree up to `rx_` and what `recv` will answer. -/
def SameButRx (s t : Agent) : Prop := ∃ rx recv, t = s.reread rx recv

theorem SameButRx.refl {s : Agent} : SameButRx s s := ⟨s.rx, s.world.recv, Eq.refl s⟩

theorem SameButRx.symm {s t : Agent} (h : SameButRx s t) : SameButRx t s := by
  obtain ⟨rx, recv, rfl⟩ := h
  exact ⟨s.rx, s.world.recv, Eq.refl s⟩

theorem SameButRx.trans {s t u : Agent} (h : SameButRx s t) (h' : SameButRx t u) :
    SameButRx s u := by
  obtain ⟨rx, recv, rfl⟩ := h
  obtain ⟨rx', recv', rfl⟩ := h'
  exact ⟨rx', recv', Eq.refl _⟩

theorem SameButRx.tcpState {s t : Agent} (h : SameButRx s t) : t.tcpState = s.tcpState := by
  obtain ⟨rx, recv, rfl⟩ := h
  exact Eq.refl _

theorem SameButRx.trace {s t : Agent} (h : SameButRx s t) : t.trace = s.trace := by
  obtain ⟨rx, recv, rfl⟩ := h
  exact Eq.refl _

theorem sameButRx_setRx (data : List Byte) (s : Agent) : SameButRx s (s.setRx data) :=
  ⟨data, s.world.recv, Eq.refl _⟩

/-- Blind to what was received. -/
def RxBlind {α : Type} (m : AgentM α) : Prop := Respects SameButRx m

namespace RxBlind

variable {α β : Type}

theorem pure (a : α) : RxBlind (pure a : AgentM α) := Respects.pure a

theorem bind {m : AgentM α} {f : α → AgentM β} (hm : RxBlind m) (hf : ∀ a, RxBlind (f a)) :
    RxBlind (m >>= f) := Respects.bind hm hf

theorem ite {c : Prop} [Decidable c] {m n : AgentM α} (hm : RxBlind m) (hn : RxBlind n) :
    RxBlind (if c then m else n) := Respects.ite (fun _ => hm) fun _ => hn

theorem get {f : Agent → AgentM α} (hread : ∀ s rx recv, f s = f (s.reread rx recv))
    (hf : ∀ s, RxBlind (f s)) : RxBlind (Proc.get >>= f) := by
  refine Respects.get_bind ?_ hf
  rintro s _ ⟨rx, recv, rfl⟩
  exact hread s rx recv

theorem when {c : Prop} [Decidable c] {m : AgentM Unit} (h : RxBlind m) : RxBlind (when c m) :=
  .ite h (.pure ())

/-- An update that leaves `rx_` alone. -/
theorem update {f : Agent → Agent} (h : ∀ s rx recv, f (s.reread rx recv) = (f s).reread rx recv) :
    RxBlind (modify f : AgentM Unit) := by
  refine Respects.modify ?_
  rintro s _ ⟨rx, recv, rfl⟩
  exact ⟨rx, recv, h s rx recv⟩

/-- An update that clears it. -/
theorem reset {f : Agent → Agent} (h : ∀ s rx recv, f (s.reread rx recv) = (f s).reread [] recv) :
    RxBlind (modify f : AgentM Unit) := by
  refine Respects.modify ?_
  rintro s _ ⟨rx, recv, rfl⟩
  exact ⟨[], recv, h s rx recv⟩

/-- A question to another part of the world does not look at what `recv` will return. -/
theorem ask {part : World → Stream α} {put : World → Stream α → World}
    (hpart : ∀ w recv, part (w.withRecv recv) = part w)
    (hput : ∀ w recv x, put (w.withRecv recv) x = (put w x).withRecv recv) :
    RxBlind (ask part put) := by
  rintro s _ ⟨rx, recv, rfl⟩
  have hworld : (s.reread rx recv).world = s.world.withRecv recv := rfl
  refine ⟨?_, rx, recv, ?_⟩
  · show Except.ok (part s.world 0) = Except.ok (part (s.reread rx recv).world 0)
    rw [hworld, hpart]
  · show (s.reread rx recv).withWorld
      (put (s.reread rx recv).world (part (s.reread rx recv).world).tail) = _
    rw [hworld, hpart, hput]
    rfl

theorem now : RxBlind now := .ask (fun _ _ => rfl) fun _ _ _ => rfl

theorem note (e : Seen) : RxBlind (note e) := .update fun _ _ _ => rfl

theorem record (lvl : LogLevel) (msg : List Byte) : RxBlind (record lvl msg) :=
  .get (fun _ _ _ => rfl) fun _ => .when (.note _)

/-! ## The channel -/

theorem tcpFail (why : List Byte) : RxBlind (tcpFail why) :=
  .get (fun _ _ _ => rfl) fun _ => .bind (.reset fun _ _ _ => rfl) fun _ =>
    .bind .now fun _ => .get (fun _ _ _ => rfl) fun _ =>
      .bind (.update fun _ _ _ => rfl) fun _ => .bind (.record _ _) fun _ =>
        .update fun _ _ _ => rfl

/-- Sending does not read. -/
theorem flushLoop (rs : List (Io ℕ)) : RxBlind (flushLoop rs) := by
  induction rs with
  | nil => exact .get (fun _ _ _ => rfl) fun _ => .pure _
  | cons r rs ih =>
    refine .get (fun _ _ _ => rfl) fun s => .ite (.pure _) ?_
    cases r with
    | done n =>
      exact .ite (.bind (.tcpFail _) fun _ => .pure _)
        (.bind (.update fun _ _ _ => rfl) fun _ => ih)
    | wouldBlock => exact .pure _
    | error why => exact .bind (.tcpFail _) fun _ => .pure _

theorem tcpFlush : RxBlind tcpFlush :=
  .bind (.ask (fun _ _ => rfl) fun _ _ _ => rfl) fun _ => .flushLoop _

theorem makeHeader (msgType : UInt8) (seq : UInt32) : RxBlind (makeHeader msgType seq) :=
  .bind (.ask (fun _ _ => rfl) fun _ _ _ => rfl) fun _ =>
    .get (fun _ _ _ => rfl) fun _ => .pure _

theorem sendFrame (msgType : UInt8) (payload : List Byte) :
    RxBlind (sendFrame msgType payload) := by
  refine .get (fun _ _ _ => rfl) fun s => .when ?_
  refine .bind (.update fun _ _ _ => rfl) fun _ => .bind (.makeHeader _ _) fun hdr => ?_
  refine .ite (.tcpFail _) ?_
  exact .bind (.update fun _ _ _ => rfl) fun _ => .bind .tcpFlush fun _ => .pure ()

theorem logSink (lvl : LogLevel) (msg : List Byte) : RxBlind (logSink lvl msg) :=
  .get (fun _ _ _ => rfl) fun _ => .when <| .bind (.update fun _ _ _ => rfl) fun _ =>
    .bind (.sendFrame _ _) fun _ => .update fun _ _ _ => rfl

theorem log (lvl : LogLevel) (msg : List Byte) : RxBlind (log lvl msg) :=
  .get (fun _ _ _ => rfl) fun _ => .when <| .bind (.note _) fun _ => .logSink _ _

theorem sendHello : RxBlind sendHello := .get (fun _ _ _ => rfl) fun _ => .sendFrame _ _

theorem sendFaultAck : RxBlind sendFaultAck := .get (fun _ _ _ => rfl) fun _ => .sendFrame _ _

/-! ## Handlers -/

theorem applyHz (hz : ℤ) : RxBlind (applyHz hz) :=
  .bind (.update fun _ _ _ => rfl) fun _ => .bind .now fun _ => .update fun _ _ _ => rfl

theorem persist : RxBlind persist := by
  refine .get (fun _ _ _ => rfl) fun s => .when ?_
  refine .bind (.ask (fun _ _ => rfl) fun _ _ _ => rfl) fun err => ?_
  cases err with
  | none => exact .log _ _
  | some err => exact .log _ _

/-- The handlers read nothing either. -/
theorem handleConfigSet (f : Frame) : RxBlind (handleConfigSet f) := by
  rw [Firmware.handleConfigSet]
  cases ConfigSet.decode f.payload with
  | none => exact .bind (.log _ _) fun _ => .sendFrame _ _
  | some cs =>
    refine .ite (.bind (.log _ _) fun _ => .sendFrame _ _) ?_
    exact .bind (.update fun _ _ _ => rfl) fun _ => .bind (.applyHz _) fun _ =>
      .get (fun _ _ _ => rfl) fun _ => .bind (.log _ _) fun _ =>
        .bind .persist fun _ => .sendFrame _ _

theorem acceptFwUpdate (fu : FwUpdate) (target : UInt32) : RxBlind (acceptFwUpdate fu target) :=
  .bind (.update fun _ _ _ => rfl) fun _ => .bind .now fun _ =>
    .bind (.update fun _ _ _ => rfl) fun _ => .bind .now fun _ =>
      .bind (.update fun _ _ _ => rfl) fun _ => .get (fun _ _ _ => rfl) fun _ =>
        .bind (.log _ _) fun _ => .bind (.sendFrame _ _) fun _ => .sendFrame _ _

/-- The download of an image is time and space only. -/
theorem handleFwUpdate (f : Frame) : RxBlind (handleFwUpdate f) := by
  refine .get (fun _ _ _ => rfl) fun s => ?_
  cases FwUpdate.parse f.payload with
  | none => exact .bind (.log _ _) fun _ => .sendFrame _ _
  | some p =>
    obtain ⟨fu, target⟩ := p
    exact .ite (.bind (.log _ _) fun _ => .sendFrame _ _)
      (.ite (.bind (.log _ _) fun _ => .sendFrame _ _) (.acceptFwUpdate _ _))

theorem handleFaultInject (f : Frame) : RxBlind (handleFaultInject f) := by
  rw [Firmware.handleFaultInject]
  cases FaultInject.decode f.payload with
  | none => exact .bind (.log _ _) fun _ => .sendFaultAck
  | some fi =>
    exact .bind .now fun _ => .bind (.update fun _ _ _ => rfl) fun _ =>
      .get (fun _ _ _ => rfl) fun _ => .bind (.log _ _) fun _ => .sendFaultAck

theorem startReboot (reason : List Byte) (fw : Bool) : RxBlind (startReboot reason fw) := by
  have hclose : RxBlind closeTcp :=
    .get (fun _ _ _ => rfl) fun _ => .when <| .bind .tcpFlush fun _ => .update fun _ _ _ => rfl
  exact .bind (.log _ _) fun _ => .bind hclose fun _ =>
    .bind (.reset fun _ _ _ => rfl) fun _ => .bind .now fun _ =>
      .update fun _ _ _ => rfl

theorem clearFaults : RxBlind clearFaults :=
  .bind (.update fun _ _ _ => rfl) fun _ => .get (fun _ _ _ => rfl) fun _ =>
    .bind (.log _ _) fun _ => .sendFaultAck

theorem handleCmd (f : Frame) : RxBlind (handleCmd f) := by
  rw [Firmware.handleCmd]
  cases Cmd.decode f.payload with
  | none => exact .log _ _
  | some c =>
    exact .ite (.startReboot _ _) (.ite .clearFaults
      (.ite (.bind (.log _ _) fun _ => .sendHello) (.log _ _)))

theorem dispatch (f : Frame) : RxBlind (dispatch f) :=
  .ite (.handleConfigSet f) (.ite (.handleFwUpdate f)
    (.ite (.handleFaultInject f) (.ite (.handleCmd f) (.log _ _))))

theorem handleFrame (f : Frame) : RxBlind (handleFrame f) :=
  .get (fun _ _ _ => rfl) fun _ => .bind (.note _) fun _ => .bind (.log _ _) fun _ =>
    .bind (.note _) fun _ => .bind (.dispatch f) fun _ =>
      .get (fun _ _ _ => rfl) fun _ => .note _

end RxBlind

/-! ## Frames in the trace -/

/-- The frames given to `handleFrame`, from the first on. -/
def handledFrames (es : List Seen) : List Frame :=
  es.reverse.filterMap fun
    | .rx f _ => some f
    | _ => none

/-- No frame comes in. -/
def SameFrames (s t : Agent) : Prop := handledFrames t.trace = handledFrames s.trace

instance : IsPreorder Agent SameFrames where
  refl _ := rfl
  trans _ _ _ h h' := Eq.trans h' h

theorem handledFrames_append (es es' : List Seen) :
    handledFrames (es ++ es') = handledFrames es' ++ handledFrames es := by
  rw [handledFrames, List.reverse_append, List.filterMap_append]
  rfl

theorem handledFrames_quiet {es : List Seen} (h : Quiet es) : handledFrames es = [] := by
  rw [handledFrames, List.filterMap_eq_nil_iff]
  intro e he
  have hquiet := h e (List.mem_reverse.mp he)
  cases e with
  | rx f v => cases hquiet
  | _ => rfl

theorem handledFrames_noted {e : Seen} (h : ∀ f v, e ≠ .rx f v) (s : Agent) :
    SameFrames s (s.noted e) := by
  show handledFrames ([e] ++ s.trace) = handledFrames s.trace
  rw [handledFrames_append]
  cases e with
  | rx f v => exact absurd rfl (h f v)
  | _ => exact List.append_nil _

theorem Dropped.sameFrames {s t : Agent} (h : Dropped s t) : SameFrames s t := by
  obtain ⟨es, es', htrace, hq, hq'⟩ := h.trace
  rw [SameFrames, htrace, handledFrames_append, handledFrames_append, handledFrames_append,
    handledFrames_quiet hq, handledFrames_quiet hq']
  split
  · exact List.append_nil _
  · exact List.append_nil _

theorem Comm.sameFrames {s t : Agent} (h : Comm s t) : SameFrames s t := by
  rcases h.channel with hk | ⟨-, hd⟩
  · obtain ⟨es, htrace, hq⟩ := hk.trace
    rw [SameFrames, htrace, handledFrames_append, handledFrames_quiet hq, List.append_nil]
  · exact hd.sameFrames

theorem tcpFail_sameFrames (why : List Byte) : Keeps SameFrames (tcpFail why) :=
  fun s => (tcpFail_spec why s).2.sameFrames

theorem within_sameFrames : Within SameFrames :=
  .ofComm (fun _ _ h => h.sameFrames) fun _ _ h => by cases h <;> rfl

/-- `handleFrame` is given its frame, and nothing it does is given another. -/
theorem handleFrame_frames (f : Frame) (s : Agent) :
    handledFrames (handleFrame f s).2.trace = handledFrames s.trace ++ [f] := by
  have hwithin := within_sameFrames
  have hnote : ∀ e, (∀ f v, e ≠ .rx f v) → Keeps SameFrames (note e) :=
    fun _ he s => handledFrames_noted he s
  -- no note of an injection is a frame, and no other note of the handlers either
  have hinj : ∀ s s', Reinjected s s' → SameFrames s s' := by
    intro s s' h
    cases h with
    | inject fi t => exact handledFrames_noted (e := .inject fi t) (fun _ _ => nofun) s
    | clearInjected => exact handledFrames_noted (e := .cleared) (fun _ _ => nofun) s
    | fire f t i => exact handledFrames_noted (e := .fired i f t) (fun _ _ => nofun) s
    | tick t mask => exact handledFrames_noted (e := .tick t mask) (fun _ _ => nofun) s
    | _ => exact rfl
  have hconf : ∀ s s', Reconfigured s s' → SameFrames s s' := fun s s' h => by cases h <;> rfl
  have haccept : ∀ fu target s, SameFrames s (acceptFwUpdate fu target s).2 := by
    intro fu target s
    refine hwithin.acceptFwUpdate fun w t _ => ?_
    show handledFrames ([.due t] ++ ([.accepted fu.targetVersion] ++ s.trace)) =
        handledFrames s.trace
    rw [handledFrames_append, handledFrames_append]
    exact (List.append_nil _).trans (List.append_nil _)
  -- so the handler of each type keeps the frames handled
  have hswitch : Keeps SameFrames (dispatch f) :=
    hwithin.dispatch
      (hwithin.handleConfigSet hconf (fun v status s => (comm_sendFrame _ _ s).sameFrames) f)
      (hwithin.handleFwUpdate fun s fu target _ _ _ => haccept fu target s)
      (hwithin.handleFaultInject hinj f)
      (hwithin.handleCmd hinj (hwithin.startReboot (fun _ _ => rfl)
        fun s => handledFrames_noted (e := .closed) (fun _ _ => nofun) s) f)
  -- what follows the note of the frame: the log line, the handler and its note
  have hrest : Keeps SameFrames (do
      log .DEBUG (str "rx " ++ msgTypeName f.hdr.msgType ++ str " seq=" ++ dec f.hdr.seq.toNat ++
        str " len=" ++ dec f.payloadLen.toNat)
      note .dispatch
      dispatch f
      let s ← get
      note (.handled f s.running) : AgentM Unit) :=
    (hwithin.log _ _ rfl).bind fun _ => (hnote .dispatch fun _ _ => nofun).bind fun _ =>
      hswitch.bind fun _ => Keeps.bind Keeps.get fun s =>
        hnote (.handled f s.running) fun _ _ => nofun
  rw [handleFrame, bind_run_ok (get_run s), unit_bind_run]
  refine (hrest _).trans ?_
  show handledFrames ([.rx f s.fwVersion] ++ s.trace) = _
  rw [handledFrames_append]
  rfl

/-! ## The frames of a stream, one after the other -/

/-- The frames are handled until a handler closes the channel. -/
def handleAll : List Frame → AgentM Unit
  | [] => pure ()
  | f :: fs => do
    handleFrame f
    let s ← get
    when (s.tcpState = .CONNECTED) (handleAll fs)

/-- The frames up to the first whose handler closes the channel. -/
def Agent.upTo (s : Agent) : List Frame → List Frame
  | [] => []
  | f :: fs =>
    f :: if (handleFrame f s).2.tcpState = .CONNECTED then (handleFrame f s).2.upTo fs else []

/-- Behind the frames: a part of a frame is kept, a framing error is the end. -/
def finish : Ending → AgentM Unit
  | .tail rest => modify (Agent.setRx rest)
  | .error e => do
    modify (Agent.setRx [])
    tcpFail (decodeErrorName e)

/-- What a stream is to the agent. -/
def receive (data : List Byte) : AgentM Unit := do
  handleAll (parse data).frames
  let s ← get
  when (s.tcpState = .CONNECTED) (finish (parse data).ending)

theorem handleAll_cons (f : Frame) (fs : List Frame) (s : Agent) :
    (handleAll (f :: fs) s).2 = if (handleFrame f s).2.tcpState = .CONNECTED then
      (handleAll fs (handleFrame f s).2).2 else (handleFrame f s).2 := by
  rw [handleAll, unit_bind_run, bind_run_ok (get_run _), Proc.when]
  split <;> rfl

/-- The notes of the frames handled are these frames, up to the one that closed the channel. -/
theorem handleAll_frames (fs : List Frame) (s : Agent) :
    handledFrames (handleAll fs s).2.trace = handledFrames s.trace ++ s.upTo fs := by
  induction fs generalizing s with
  | nil => exact (List.append_nil _).symm
  | cons f fs ih =>
    rw [handleAll_cons, Agent.upTo]
    split
    · rw [ih, handleFrame_frames, List.append_assoc]
      rfl
    · rw [handleFrame_frames]

/-- Frames after a frame that closed the channel are not handled. -/
theorem handleAll_append (fs gs : List Frame) {s : Agent} (hs : s.tcpState = .CONNECTED) :
    (handleAll (fs ++ gs) s).2 = if (handleAll fs s).2.tcpState = .CONNECTED then
      (handleAll gs (handleAll fs s).2).2 else (handleAll fs s).2 := by
  induction fs generalizing s with
  | nil => exact (if_pos hs).symm
  | cons f fs ih =>
    rw [List.cons_append, handleAll_cons, handleAll_cons]
    by_cases hup : (handleFrame f s).2.tcpState = .CONNECTED
    · rw [if_pos hup, if_pos hup, ih hup]
    · rw [if_neg hup, if_neg hup, if_neg hup]

theorem receive_run (data : List Byte) (s : Agent) :
    (receive data s).2 = if (handleAll (parse data).frames s).2.tcpState = .CONNECTED then
      (finish (parse data).ending (handleAll (parse data).frames s).2).2
    else (handleAll (parse data).frames s).2 := by
  rw [receive, unit_bind_run, bind_run_ok (get_run _), Proc.when]
  split <;> rfl

theorem finish_frames (e : Ending) : Keeps SameFrames (finish e) := by
  cases e with
  | tail rest => exact fun s => rfl
  | error e =>
    exact Keeps.bind (m := modify (Agent.setRx [])) (fun s => rfl) fun _ => tcpFail_sameFrames _

theorem receive_frames (data : List Byte) (s : Agent) :
    handledFrames (receive data s).2.trace = handledFrames s.trace ++
      s.upTo (parse data).frames := by
  rw [receive_run, ← handleAll_frames]
  split
  · exact finish_frames _ _
  · rfl

/-- A channel that is still up waits for the rest of a frame. -/
theorem receive_up {data : List Byte} {s : Agent} (h : (receive data s).2.tcpState = .CONNECTED) :
    ∃ rest, (parse data).ending = .tail rest ∧ (receive data s).2.rx = rest ∧
      (handleAll (parse data).frames s).2.tcpState = .CONNECTED := by
  rw [receive_run] at h ⊢
  split at h
  · next hup =>
    rw [if_pos hup]
    cases hending : (parse data).ending with
    | tail rest => exact ⟨rest, rfl, rfl, hup⟩
    | error e =>
      rw [hending, finish, modify_bind_run, (tcpFail_spec _ _).2.tcpState] at h
      cases h
  · next hdown => exact absurd h hdown

theorem rxBlind_handleAll (fs : List Frame) : RxBlind (handleAll fs) := by
  induction fs with
  | nil => exact .pure ()
  | cons f fs ih => exact .bind (.handleFrame f) fun _ => .get (fun _ _ _ => rfl) fun _ => .when ih

theorem rxBlind_finish (e : Ending) : RxBlind (finish e) := by
  have hset : ∀ data, RxBlind (modify (Agent.setRx data) : AgentM Unit) := by
    rintro data s _ ⟨rx, recv, rfl⟩
    exact ⟨rfl, data, recv, rfl⟩
  cases e with
  | tail rest => exact hset rest
  | error e => exact .bind (hset []) fun _ => .tcpFail _

theorem rxBlind_receive (data : List Byte) : RxBlind (receive data) :=
  .bind (rxBlind_handleAll _) fun _ => .get (fun _ _ _ => rfl) fun _ => .when (rxBlind_finish _)

/-- Two pieces of a stream are received like the whole of it. -/
theorem receive_append {x rest : List Byte} (hx : (parse x).ending = .tail rest)
    (t : List Byte) {s : Agent} (hs : s.tcpState = .CONNECTED) :
    SameButRx (receive (x ++ t) s).2 (if (receive x s).2.tcpState = .CONNECTED then
      (receive (rest ++ t) (receive x s).2).2 else (receive x s).2) := by
  have happ := parse_append_tail hx t
  rw [receive_run (x ++ t), happ, handleAll_append _ _ hs, receive_run x, hx]
  by_cases hup : (handleAll (parse x).frames s).2.tcpState = .CONNECTED
  · have hset : SameButRx (handleAll (parse x).frames s).2
        (finish (.tail rest) (handleAll (parse x).frames s).2).2 := sameButRx_setRx rest _
    rw [if_pos hup, if_pos hup, if_pos (hset.tcpState.trans hup), ← receive_run]
    exact (rxBlind_receive _ _ _ hset).2
  · rw [if_neg hup, if_neg hup, if_neg hup, if_neg hup]
    exact .refl

/-! ## `tcpRead` -/

/-- With enough rounds, the parse loop handles the frames of the buffer in order. -/
theorem parseLoop_run {rounds : ℕ} {data : List Byte} (hrounds : data.length ≤ rounds) {s : Agent}
    (hs : s.tcpState = .CONNECTED) : (parseLoop rounds data s).2 = (receive data s).2 := by
  have hshort : ∀ data, decodeFrame data = .error .TOO_SHORT →
      (receive data s).2 = (modify (Agent.setRx data) s : Except Empty Unit × Agent).2 := by
    intro data hd
    rw [receive_run, parse_short hd]
    exact if_pos hs
  -- each round takes a byte at least, so the fuel lasts as long as the bytes
  induction rounds generalizing data s with
  | zero =>
    rw [List.eq_nil_of_length_eq_zero (Nat.le_zero.mp hrounds)]
    exact (hshort [] decodeFrame_nil).symm
  | succ rounds ih =>
    rw [parseLoop]
    cases hd : decodeFrame data with
    | error e =>
      -- TOO_SHORT waits; every other error takes the channel down
      by_cases he : e = .TOO_SHORT
      · subst he
        exact (hshort data hd).symm
      · rw [receive_run, parse_error hd he]
        refine Eq.trans ?_ (if_pos hs).symm
        cases e with
        | TOO_SHORT => exact absurd rfl he
        | _ => rfl
    | ok r =>
      obtain ⟨f, used⟩ := r
      have hpos := decodeFrame_pos hd
      have hle := (decodeFrame_eq_ok.mp hd).length
      dsimp only
      rw [unit_bind_run, bind_run_ok (get_run _), Proc.when, receive_run, parse_ok hd]
      show _ = if (handleAll (f :: (parse (data.drop used)).frames) s).2.tcpState = .CONNECTED then
        (finish (parse (data.drop used)).ending
          (handleAll (f :: (parse (data.drop used)).frames) s).2).2
        else (handleAll (f :: (parse (data.drop used)).frames) s).2
      rw [handleAll_cons]
      -- a handler may have closed the channel: then the rest is not looked at
      by_cases hup : (handleFrame f s).2.tcpState = .CONNECTED
      · have hshorter : (data.drop used).length ≤ rounds := by
          rw [List.length_drop]
          omega
        have hrest : (parseLoop rounds (data.drop used) (handleFrame f s).2).2 =
            (receive (data.drop used) (handleFrame f s).2).2 := by
          refine ih hshorter hup fun data hd => ?_
          rw [receive_run, parse_short hd]
          exact if_pos hup
        rw [if_pos hup, if_pos hup, hrest, receive_run]
      · rw [if_neg hup, if_neg hup, if_neg hup]
        rfl

/-- What `recv` delivers goes behind what is there. -/
theorem recvLoop_run {chunks : List (List Byte)} (hne : ∀ c ∈ chunks, c ≠ []) {s : Agent}
    (hfits : (s.rx ++ chunks.flatten).length ≤ kRxLimit) (rs : List (Io (List Byte))) :
    recvLoop (chunks.map .done ++ rs) s = recvLoop rs (s.setRx (s.rx ++ chunks.flatten)) := by
  induction chunks generalizing s with
  | nil =>
    rw [List.flatten_nil, List.append_nil]
    rfl
  | cons c cs ih =>
    obtain ⟨hc, hcs⟩ := List.forall_mem_cons.mp hne
    rw [List.flatten_cons, ← List.append_assoc] at hfits ⊢
    have hlimit : ¬ (s.rx ++ c).length > kRxLimit := by
      rw [List.length_append] at hfits
      omega
    rw [List.map_cons, List.cons_append, recvLoop, if_neg hc, bind_run_ok (get_run s),
      modify_bind_run, if_neg hlimit]
    exact ih hcs hfits

/-- What `recv` will answer in the next call. -/
def Agent.supply (answers : List (Io (List Byte))) (s : Agent) : Agent :=
  s.reread s.rx fun _ => answers

/-- A call that reads some bytes and finds no more. -/
theorem tcpRead_run {chunks : List (List Byte)} (hne : ∀ c ∈ chunks, c ≠ []) {s : Agent}
    (hs : s.tcpState = .CONNECTED) (hfits : (s.rx ++ chunks.flatten).length ≤ kRxLimit) :
    ∃ u, SameButRx s u ∧
      (tcpRead (s.supply (chunks.map .done))).2 = (receive (s.rx ++ chunks.flatten) u).2 := by
  obtain ⟨u, hu⟩ : ∃ u, u = ((s.supply (chunks.map .done)).withWorld
      ((s.supply (chunks.map .done)).world.withRecv fun _ => chunks.map .done)) := ⟨_, rfl⟩
  have hsu : SameButRx s u := ⟨s.rx, fun _ => chunks.map .done, hu⟩
  have hrx : u.rx = s.rx := by rw [hu]; rfl
  refine ⟨u.setRx (s.rx ++ chunks.flatten), hsu.trans (sameButRx_setRx _ u), ?_⟩
  have hask : ask (·.recv) (fun w x => { w with recv := x }) (s.supply (chunks.map .done)) =
      (.ok (chunks.map .done), u) := by
    rw [hu]
    rfl
  have hrecv : recvLoop (chunks.map .done) u = (.ok true, u.setRx (s.rx ++ chunks.flatten)) := by
    have hloop := recvLoop_run hne (s := u) (by rw [hrx]; exact hfits) []
    rw [List.append_nil, hrx] at hloop
    exact hloop
  rw [tcpRead, bind_run_ok hask, bind_run_ok hrecv, bind_run_ok (get_run _)]
  exact parseLoop_run le_rfl (hsu.tcpState.trans hs)

/-- A call that fails before `recv` has nothing more to read handles no frame. -/
theorem tcpRead_lost {rs : List (Io (List Byte))} {s : Agent}
    (hloop : ∀ u, u.rx = s.rx → ∃ u' why, SameFrames u u' ∧
      recvLoop rs u = (.ok false, (tcpFail why u').2)) :
    SameFrames s (tcpRead (s.supply rs)).2 ∧
    (tcpRead (s.supply rs)).2.tcpState = .DISCONNECTED := by
  obtain ⟨u, hu⟩ : ∃ u, u = (s.supply rs).withWorld ((s.supply rs).world.withRecv fun _ => rs) :=
    ⟨_, rfl⟩
  have hask : ask (·.recv) (fun w x => { w with recv := x }) (s.supply rs) = (.ok rs, u) := by
    rw [hu]
    rfl
  have hsu : SameFrames s u := by
    rw [hu]
    rfl
  obtain ⟨u', why, hframes, hrun⟩ := hloop u (by rw [hu]; rfl)
  rw [tcpRead, bind_run_ok hask, bind_run_ok hrun, bind_run_ok (get_run _)]
  -- `tcpFail` has emptied the buffer, and the parse loop is not reached
  exact ⟨trans_of SameFrames (trans_of SameFrames hsu hframes) (tcpFail_sameFrames why u'),
    (tcpFail_spec why u').2.tcpState⟩

theorem recvFail_run (why : List Byte) (s : Agent) :
    (tcpFail why >>= fun _ => pure false : AgentM Bool) s = (.ok false, (tcpFail why s).2) :=
  unit_bind_run _ _ s

/-- A call in which the peer's close comes behind some bytes. -/
theorem tcpRead_closed (chunks : List (List Byte)) (s : Agent) :
    SameFrames s (tcpRead (s.supply (chunks.map .done ++ [.done []]))).2 ∧
      (tcpRead (s.supply (chunks.map .done ++ [.done []]))).2.tcpState = .DISCONNECTED := by
  refine tcpRead_lost fun u hu => ?_
  clear hu
  -- the buffer may overflow first
  induction chunks generalizing u with
  | nil => exact ⟨u, _, rfl, (if_pos rfl : recvLoop [.done []] = _) ▸ recvFail_run _ u⟩
  | cons c cs ih =>
    rw [List.map_cons, List.cons_append, recvLoop]
    by_cases hc : c = []
    · rw [if_pos hc]
      exact ⟨u, _, rfl, recvFail_run _ u⟩
    · rw [if_neg hc, bind_run_ok (get_run u), modify_bind_run]
      split
      · exact ⟨u.setRx (u.rx ++ c), _, rfl, recvFail_run _ _⟩
      · obtain ⟨u', why, hframes, hrun⟩ := ih (u.setRx (u.rx ++ c))
        exact ⟨u', why, hframes, hrun⟩

/-- A call that overflows the buffer. -/
theorem tcpRead_overflow {chunks : List (List Byte)} (hne : ∀ c ∈ chunks, c ≠ []) {s : Agent}
    (hrx : s.rx.length ≤ kRxLimit) (hover : kRxLimit < (s.rx ++ chunks.flatten).length) :
    SameFrames s (tcpRead (s.supply (chunks.map .done))).2 ∧
      (tcpRead (s.supply (chunks.map .done))).2.tcpState = .DISCONNECTED := by
  refine tcpRead_lost fun u hu => ?_
  rw [← hu] at hrx hover
  clear hu
  -- the bytes in the buffer and those to come are as many after each piece
  induction chunks generalizing u with
  | nil =>
    rw [List.flatten_nil, List.append_nil] at hover
    exact absurd hrx (not_le.mpr hover)
  | cons c cs ih =>
    obtain ⟨hc, hcs⟩ := List.forall_mem_cons.mp hne
    rw [List.flatten_cons, ← List.append_assoc] at hover
    rw [List.map_cons, recvLoop, if_neg hc, bind_run_ok (get_run u), modify_bind_run]
    split
    · exact ⟨u.setRx (u.rx ++ c), _, rfl, recvFail_run _ _⟩
    · next hfits =>
      obtain ⟨u', why, hframes, hrun⟩ := ih hcs (u.setRx (u.rx ++ c)) hover (not_lt.mp hfits)
      exact ⟨u', why, hframes, hrun⟩

/-! ## Calls -/

/-- Calls of `tcpRead`, each with what `recv` delivers in it, while the channel is up. -/
def readCalls : List (List (List Byte)) → AgentM Unit
  | [] => pure ()
  | chunks :: calls => do
    modify (Agent.supply (chunks.map .done))
    tcpRead
    let s ← get
    when (s.tcpState = .CONNECTED) (readCalls calls)

/-- `recv` delivers bytes, and no call buffers more than `kRxLimit` of them. -/
def Fits : List (List (List Byte)) → Agent → Prop
  | [], _ => True
  | chunks :: calls, s =>
    (∀ c ∈ chunks, c ≠ []) ∧ (s.rx ++ chunks.flatten).length ≤ kRxLimit ∧
      ((tcpRead (s.supply (chunks.map .done))).2.tcpState = .CONNECTED →
        Fits calls (tcpRead (s.supply (chunks.map .done))).2)

theorem readCalls_cons (chunks : List (List Byte)) (calls : List (List (List Byte))) (s : Agent) :
    (readCalls (chunks :: calls) s).2 =
      if (tcpRead (s.supply (chunks.map .done))).2.tcpState = .CONNECTED then
        (readCalls calls (tcpRead (s.supply (chunks.map .done))).2).2
      else (tcpRead (s.supply (chunks.map .done))).2 := by
  rw [readCalls, modify_bind_run, unit_bind_run, bind_run_ok (get_run _), Proc.when]
  split <;> rfl

/-- Calls on a channel with a part of a frame in the buffer do what the whole
    stream is to the agent. -/
theorem readCalls_receive {calls : List (List (List Byte))} {s : Agent}
    (hs : s.tcpState = .CONNECTED)
    (hrx : parse s.rx = ⟨[], .tail s.rx⟩) (hfits : Fits calls s) :
    SameButRx (receive (s.rx ++ calls.flatten.flatten) s).2 (readCalls calls s).2 ∧
      ((readCalls calls s).2.tcpState = .CONNECTED →
        parse (readCalls calls s).2.rx = ⟨[], .tail (readCalls calls s).2.rx⟩) := by
  -- call by call; what a call leaves in `rx_` is the tail of the bytes so far
  induction calls generalizing s with
  | nil =>
    rw [List.flatten_nil, List.flatten_nil, List.append_nil, receive_run, hrx]
    refine ⟨?_, fun _ => hrx⟩
    show SameButRx (if s.tcpState = .CONNECTED then s.setRx s.rx else s) s
    rw [if_pos hs]
    exact (sameButRx_setRx _ s).symm
  | cons chunks calls ih =>
    obtain ⟨hne, hlimit, hfits⟩ := hfits
    obtain ⟨u, hsu, hread⟩ := tcpRead_run hne hs hlimit
    have hstart : SameButRx (receive (s.rx ++ chunks.flatten) s).2
        (tcpRead (s.supply (chunks.map .done))).2 := by
      rw [hread]
      exact (rxBlind_receive _ _ _ hsu).2
    obtain ⟨v, hv⟩ : ∃ v, v = (tcpRead (s.supply (chunks.map .done))).2 := ⟨_, rfl⟩
    rw [readCalls_cons, ← hv]
    rw [← hv] at hstart hfits
    have hstream : s.rx ++ (chunks :: calls).flatten.flatten =
        s.rx ++ chunks.flatten ++ calls.flatten.flatten := by
      rw [List.flatten_cons, List.flatten_append, List.append_assoc]
    rw [hstream]
    -- up: the rest comes to a parser that stands where one over all bytes would
    by_cases hup : v.tcpState = .CONNECTED
    · rw [if_pos hup]
      obtain ⟨rest, hending, hrest, -⟩ := receive_up (hread ▸ hv ▸ hup)
      have hvrx : v.rx = rest := by rw [hv, hread, hrest]
      obtain ⟨hsame, hsettled⟩ := ih hup (hvrx ▸ (parse_tail hending).1) (hfits hup)
      refine ⟨?_, hsettled⟩
      have happ := receive_append hending calls.flatten.flatten hs
      rw [if_pos (hstart.tcpState.symm.trans hup)] at happ
      have hlater := (rxBlind_receive (rest ++ calls.flatten.flatten) _ _ hstart).2
      exact (happ.trans hlater).trans (hvrx ▸ hsame)
    · rw [if_neg hup]
      refine ⟨?_, fun h => absurd h hup⟩
      -- down: more bytes are no more frames, handled or not
      cases hending : (parse (s.rx ++ chunks.flatten)).ending with
      | tail rest =>
        have happ := receive_append hending calls.flatten.flatten hs
        rw [if_neg fun h => hup (hstart.tcpState.trans h)] at happ
        exact happ.trans hstart
      | error e =>
        have hsame := parse_append_error hending calls.flatten.flatten
        rw [receive_run, hsame, ← receive_run]
        exact hstart

/-- However a stream is split into calls and into what `recv` delivers in each,
    `handleFrame` gets its frames up to a framing error, to a part of a frame or
    to the handler that closes the channel; and of a part of a valid frame
    `decodeFrame` takes nothing. -/
theorem tcpRead_segmentation {s : Agent} (hs : s.tcpState = .CONNECTED) (hrx : s.rx = [])
    {calls calls' : List (List (List Byte))} (hfits : Fits calls s) (hfits' : Fits calls' s)
    (hbytes : calls.flatten.flatten = calls'.flatten.flatten) :
    handledFrames (readCalls calls s).2.trace = handledFrames (readCalls calls' s).2.trace ∧
      handledFrames (readCalls calls s).2.trace =
        handledFrames s.trace ++ s.upTo (parse calls.flatten.flatten).frames ∧
      ∀ data f x, decodeFrame data = .ok (f, data.length) → x <+: data → x ≠ data →
        decodeFrame x = .error .TOO_SHORT := by
  have hsettled : parse s.rx = ⟨[], .tail s.rx⟩ := by rw [hrx]; rfl
  have hcalls := (readCalls_receive hs hsettled hfits).1
  have hcalls' := (readCalls_receive hs hsettled hfits').1
  rw [hrx, List.nil_append] at hcalls hcalls'
  rw [← hbytes] at hcalls'
  refine ⟨?_, ?_, fun data f x h hx hne => decodeFrame_part h hx hne⟩
  · rw [hcalls.trace, hcalls'.trace]
  · rw [hcalls.trace, receive_frames]

/-- CMD clear_faults. -/
def clearFaultsFrame : List Byte :=
  encodeFrame { msgType := MsgType.CMD, deviceId := [0x45], seq := 0, tsMs := 0, fwVersion := 0 }
    (Cmd.encode { cmd := CmdCode.CLEAR_FAULTS })

/-- The backend is there and silent. -/
def connectedAgent : Agent :=
  .top { deviceId := [0x45] } {} none { World.idle with connect := fun _ => .done } 1

theorem connectedAgent_up : connectedAgent.tcpState = .CONNECTED ∧ connectedAgent.rx = [] := by
  decide +kernel

/-- The command in two pieces, and in two calls. -/
theorem tcpRead_segmentation_command :
    handledFrames
      (readCalls [[clearFaultsFrame.take 10, clearFaultsFrame.drop 10]] connectedAgent).2.trace =
      handledFrames
        (readCalls [[clearFaultsFrame.take 40], [clearFaultsFrame.drop 40]]
          connectedAgent).2.trace :=
  have hpieces : Fits [[clearFaultsFrame.take 10, clearFaultsFrame.drop 10]] connectedAgent :=
    ⟨by decide +kernel, by decide +kernel, fun _ => trivial⟩
  have hcalls : Fits [[clearFaultsFrame.take 40], [clearFaultsFrame.drop 40]] connectedAgent :=
    ⟨by decide +kernel, by decide +kernel,
      fun _ => ⟨by decide +kernel, by decide +kernel, fun _ => trivial⟩⟩
  (tcpRead_segmentation connectedAgent_up.1 connectedAgent_up.2 hpieces hcalls
    (by decide +kernel)).1

/-! ## The peer's close -/

/-- The frames handled of two batches. -/
theorem upTo_append (fs gs : List Frame) {s : Agent} (hs : s.tcpState = .CONNECTED) :
    s.upTo (fs ++ gs) = s.upTo fs ++ if (handleAll fs s).2.tcpState = .CONNECTED then
      (handleAll fs s).2.upTo gs else [] := by
  induction fs generalizing s with
  | nil => exact (if_pos hs).symm
  | cons f fs ih =>
    rw [List.cons_append, Agent.upTo, Agent.upTo, handleAll_cons]
    by_cases hup : (handleFrame f s).2.tcpState = .CONNECTED
    · rw [if_pos hup, if_pos hup, if_pos hup, ih hup, List.cons_append]
    · rw [if_neg hup, if_neg hup, if_neg hup, if_neg hup, List.append_nil]

theorem upTo_eq_nil {s : Agent} {fs : List Frame} : s.upTo fs = [] ↔ fs = [] := by
  cases fs with
  | nil => exact iff_of_true rfl rfl
  | cons f fs => exact iff_of_false (List.cons_ne_nil _ _) (List.cons_ne_nil _ _)

/-- The calls before the first one that overflows the buffer. -/
def inTime : List (List (List Byte)) → Agent → List (List (List Byte))
  | [], _ => []
  | chunks :: calls, s =>
    if (s.rx ++ chunks.flatten).length ≤ kRxLimit then
      chunks :: inTime calls (tcpRead (s.supply (chunks.map .done))).2
    else []

/-- The calls before the channel goes down are the first ones. -/
theorem inTime_prefix (calls : List (List (List Byte))) (s : Agent) : inTime calls s <+: calls := by
  induction calls generalizing s with
  | nil => exact List.prefix_refl _
  | cons chunks calls ih =>
    rw [inTime]
    split
    · exact (List.prefix_cons_inj chunks).mpr (ih _)
    · exact List.nil_prefix

/-- The frames of calls are those of the calls before the overflow. -/
theorem readCalls_inTime {calls : List (List (List Byte))}
    (hbytes : ∀ chunks ∈ calls, ∀ c ∈ chunks, c ≠ []) {s : Agent} (hs : s.tcpState = .CONNECTED)
    (hrx : s.rx.length ≤ kRxLimit) :
    Fits (inTime calls s) s ∧
      SameFrames (readCalls (inTime calls s) s).2 (readCalls calls s).2 := by
  induction calls generalizing s with
  | nil => exact ⟨trivial, rfl⟩
  | cons chunks calls ih =>
    obtain ⟨hne, hbytes⟩ := List.forall_mem_cons.mp hbytes
    rw [inTime]
    split
    -- within the limit: the call reads on, or takes the channel down
    · next hfits =>
      rw [readCalls_cons, readCalls_cons]
      by_cases hup : (tcpRead (s.supply (chunks.map .done))).2.tcpState = .CONNECTED
      · -- what is left in the buffer is a piece of what was there
        have hleft : (tcpRead (s.supply (chunks.map .done))).2.rx.length ≤ kRxLimit := by
          obtain ⟨u, -, hread⟩ := tcpRead_run hne hs hfits
          obtain ⟨rest, hending, hrest, -⟩ := receive_up (hread ▸ hup)
          rw [hread, hrest]
          exact (parse_tail hending).2.length_le.trans hfits
        obtain ⟨hlater, hsame⟩ := ih hbytes hup hleft
        rw [if_pos hup, if_pos hup]
        exact ⟨⟨hne, hfits, fun _ => hlater⟩, hsame⟩
      · rw [if_neg hup, if_neg hup]
        exact ⟨⟨hne, hfits, fun h => absurd h hup⟩, rfl⟩
    -- beyond it: the channel is closed, and the calls that follow read nothing
    · next hover =>
      obtain ⟨hsame, hdown⟩ := tcpRead_overflow hne hrx (not_le.mp hover)
      have hdown : (tcpRead (s.supply (chunks.map .done))).2.tcpState ≠ .CONNECTED := by
        simp [hdown]
      rw [readCalls_cons, if_neg hdown]
      exact ⟨trivial, hsame⟩

/-- The frames of some calls are all those of a longer stream exactly if the rest
    completes none, or no handler has left the channel up to see it. -/
theorem upTo_longer_iff {s : Agent} (hs : s.tcpState = .CONNECTED) (hrx : s.rx = [])
    {calls : List (List (List Byte))} (hfits : Fits calls s) (more : List Byte) :
    s.upTo (parse calls.flatten.flatten).frames =
        s.upTo (parse (calls.flatten.flatten ++ more)).frames ↔
      ((readCalls calls s).2.tcpState = .CONNECTED →
        (parse (calls.flatten.flatten ++ more)).frames = (parse calls.flatten.flatten).frames) := by
  have hsettled : parse s.rx = ⟨[], .tail s.rx⟩ := by rw [hrx]; rfl
  have hcalls := (readCalls_receive hs hsettled hfits).1
  rw [hrx, List.nil_append] at hcalls
  cases hending : (parse calls.flatten.flatten).ending with
  -- after a framing error nothing is read any more
  | error e =>
    rw [parse_append_error hending]
    exact iff_of_true rfl fun _ => rfl
  | tail rest =>
    rw [parse_append_tail hending, upTo_append _ _ hs, hcalls.tcpState]
    have hstate : (receive calls.flatten.flatten s).2.tcpState =
        (handleAll (parse calls.flatten.flatten).frames s).2.tcpState := by
      rw [receive_run, hending]
      -- whether the last frame handled closed the channel
      split <;> rfl
    rw [hstate, List.self_eq_append_right, List.append_right_eq_self]
    split
    · next hup => exact upTo_eq_nil.trans ⟨fun h _ => h, fun h => h hup⟩
    · next hdown => exact iff_of_true rfl fun h => absurd h hdown

/-- Calls, and one more in which the close comes behind some bytes. -/
def readAndClose (calls : List (List (List Byte))) (last : List (List Byte)) : AgentM Unit := do
  readCalls calls
  let s ← get
  when (s.tcpState = .CONNECTED) do
    modify (Agent.supply (last.map .done ++ [.done []]))
    tcpRead

/-- The closing call hands over nothing. -/
theorem readAndClose_sameFrames (calls : List (List (List Byte))) (last : List (List Byte))
    (s : Agent) :
    SameFrames (readCalls calls s).2 (readAndClose calls last s).2 := by
  rw [readAndClose, unit_bind_run, bind_run_ok (get_run _), Proc.when]
  split
  · rw [modify_bind_run]
    exact (tcpRead_closed last _).1
  · rfl

/-- Every frame that came before the close is handled, up to a handler that closes
    the channel, exactly if no frame is completed by the bytes that came with the
    close, or in a call that overflows the buffer and after it. -/
theorem readAndClose_iff {s : Agent} (hs : s.tcpState = .CONNECTED) (hrx : s.rx = [])
    {calls : List (List (List Byte))} (hbytes : ∀ chunks ∈ calls, ∀ c ∈ chunks, c ≠ [])
    (last : List (List Byte)) :
    handledFrames (readAndClose calls last s).2.trace = handledFrames s.trace ++
        s.upTo (parse (calls.flatten.flatten ++ last.flatten)).frames ↔
      ((readCalls (inTime calls s) s).2.tcpState = .CONNECTED →
        (parse (calls.flatten.flatten ++ last.flatten)).frames =
          (parse (inTime calls s).flatten.flatten).frames) := by
  obtain ⟨hfits, hsame⟩ := readCalls_inTime hbytes hs (hrx ▸ Nat.zero_le _)
  have hsettled : parse s.rx = ⟨[], .tail s.rx⟩ := by rw [hrx]; rfl
  have hcalls := (readCalls_receive hs hsettled hfits).1
  rw [hrx, List.nil_append] at hcalls
  -- only the calls before the overflow hand over frames
  have hframes : handledFrames (readAndClose calls last s).2.trace =
      handledFrames s.trace ++ s.upTo (parse (inTime calls s).flatten.flatten).frames := by
    rw [readAndClose_sameFrames, hsame, hcalls.trace, receive_frames]
  obtain ⟨later, hlater⟩ := inTime_prefix calls s
  have hstream : calls.flatten.flatten =
      (inTime calls s).flatten.flatten ++ later.flatten.flatten := by
    rw [← List.flatten_append, ← List.flatten_append, hlater]
  rw [hframes, List.append_cancel_left_eq, hstream, List.append_assoc]
  exact upTo_longer_iff hs hrx hfits _

/-- The command comes in two pieces, the close in the call after. -/
theorem readAndClose_apart :
    handledFrames (readAndClose [[clearFaultsFrame.take 10, clearFaultsFrame.drop 10]] []
        connectedAgent).2.trace =
      handledFrames connectedAgent.trace ++ connectedAgent.upTo
        (parse clearFaultsFrame).frames := by
  have hpieces : [[clearFaultsFrame.take 10, clearFaultsFrame.drop 10]].flatten.flatten ++
      ([] : List (List Byte)).flatten = clearFaultsFrame := by decide +kernel
  have hfits : inTime [[clearFaultsFrame.take 10, clearFaultsFrame.drop 10]] connectedAgent =
      [[clearFaultsFrame.take 10, clearFaultsFrame.drop 10]] := by decide +kernel
  have hbytes : ∀ chunks ∈ [[clearFaultsFrame.take 10, clearFaultsFrame.drop 10]],
      ∀ c ∈ chunks, c ≠ [] := by decide +kernel
  have hclose :=
    (readAndClose_iff connectedAgent_up.1 connectedAgent_up.2 hbytes []).mpr fun _ => by
    rw [hfits, List.flatten_nil, List.append_nil]
  rw [hpieces] at hclose
  exact hclose

/-- The backend sends a command and closes, before the agent looks. -/
def closingWorld : World :=
  { World.idle with
    connect := fun _ => .done, select := fun _ => .ready true false
    recv := fun _ => [.done clearFaultsFrame, .done []] }

/-- The command is lost with the channel. -/
theorem command_lost :
    (parse clearFaultsFrame).frames.length = 1 ∧
      handledFrames (Agent.top { deviceId := [0x45] } {} none closingWorld 1).trace = [] ∧
      (Agent.top { deviceId := [0x45] } {} none closingWorld 1).everConnected = true ∧
      (Agent.top { deviceId := [0x45] } {} none closingWorld 1).tcpState = .DISCONNECTED := by
  decide +kernel

end EcuTelemetry.Firmware
