/-
  EcuTelemetry.Firmware.OutboundStream

  The bytes on a connection.  Frames are appended to `tx_`, which is sent in
  pieces; a log record may add a frame between any two pieces, and a connection
  that fails takes the rest of the buffer with it.  What the socket has got is
  nevertheless always the beginning of the frames in the order they were queued.
-/

import EcuTelemetry.Firmware.AgentLoop
import EcuTelemetry.Firmware.Outgoing
import Mathlib.Data.List.Chain

namespace EcuTelemetry.Firmware

open Proc

/-! ## Traffic of a connection -/

/-- What makes up the outbound stream. -/
def Seen.isTraffic : Seen → Bool
  | .connected => true
  | .queued _ _ => true
  | .sent _ => true
  | _ => false

def Agent.traffic (s : Agent) : List Seen := s.trace.filter Seen.isTraffic

/-- The bytes that `send` has taken since the last connection was made. -/
def sentBytes : List Seen → List Byte
  | [] => []
  | .connected :: _ => []
  | .sent bytes :: es => sentBytes es ++ bytes
  | _ :: es => sentBytes es

/-- The frames queued since the last connection was made, the first one first. -/
def queuedFrames : List Seen → List (FrameHeader × List Byte)
  | [] => []
  | .connected :: _ => []
  | .queued hdr payload :: es => queuedFrames es ++ [(hdr, payload)]
  | _ :: es => queuedFrames es

/-- The frames on the wire, one after the other. -/
def encodeFrames (fs : List (FrameHeader × List Byte)) : List Byte :=
  fs.flatMap fun f => encodeFrame f.1 f.2

/-- The bytes on the socket begin the queued frames, which start with HELLO and
    are numbered on. -/
structure WellFormed (es : List Seen) : Prop where
  isPrefix : sentBytes es <+: encodeFrames (queuedFrames es)
  hello : ∀ f ∈ (queuedFrames es).head?, f.1.msgType = MsgType.HELLO
  seqs : (queuedFrames es).IsChain fun f f' => f'.1.seq = f.1.seq + 1

theorem wellFormed_nil : WellFormed [] := ⟨List.nil_prefix, nofun, .nil⟩

theorem wellFormed_connected (es : List Seen) : WellFormed (.connected :: es) :=
  ⟨List.nil_prefix, nofun, .nil⟩

theorem encodeFrames_append (fs fs' : List (FrameHeader × List Byte)) :
    encodeFrames (fs ++ fs') = encodeFrames fs ++ encodeFrames fs' := List.flatMap_append

/-- One more frame. -/
theorem WellFormed.queued {es : List Seen} (h : WellFormed es) {hdr : FrameHeader}
    {payload : List Byte} (hfirst : queuedFrames es = [] → hdr.msgType = MsgType.HELLO)
    (hseq : ∀ f ∈ (queuedFrames es).getLast?, f.1.seq + 1 = hdr.seq) :
    WellFormed (.queued hdr payload :: es) := by
  constructor
  · show sentBytes es <+: encodeFrames (queuedFrames es ++ [(hdr, payload)])
    rw [encodeFrames_append]
    exact h.isPrefix.trans (List.prefix_append _ _)
  · intro f hf
    change f ∈ (queuedFrames es ++ [(hdr, payload)]).head? at hf
    rcases hqueued : queuedFrames es with _ | ⟨f', fs⟩
    · rw [hqueued] at hf
      obtain rfl := Option.mem_some.mp hf
      exact hfirst hqueued
    · rw [hqueued] at hf
      exact h.hello f (hqueued ▸ hf)
  · show (queuedFrames es ++ [(hdr, payload)]).IsChain _
    refine List.isChain_append.mpr ⟨h.seqs, .singleton _, fun f hf f' hf' => ?_⟩
    obtain rfl := Option.mem_some.mp hf'
    exact (hseq f hf).symm

/-- Some of the bytes that wait are sent. -/
theorem WellFormed.sent {es : List Seen} (h : WellFormed es) {bytes rest : List Byte}
    (hrest : sentBytes es ++ (bytes ++ rest) = encodeFrames (queuedFrames es)) :
    WellFormed (.sent bytes :: es) where
  isPrefix := ⟨rest, (List.append_assoc _ _ _).trans hrest⟩
  hello := h.hello
  seqs := h.seqs

/-! ## The invariant -/

/-- The members of the outbound stream. -/
def Agent.streamView (s : Agent) : TcpState × List Byte × UInt32 × List Seen :=
  (s.tcpState, s.tx, s.tcpSeq, s.traffic)

/-- `tx_` holds what the socket still has to get. -/
structure Buffered (s : Agent) : Prop where
  history : ∀ es, es <:+ s.traffic → WellFormed es
  rest : s.tcpState = .CONNECTED →
      sentBytes s.traffic ++ s.tx = encodeFrames (queuedFrames s.traffic)
  next : s.tcpState = .CONNECTED → ∀ f ∈ (queuedFrames s.traffic).getLast?, f.1.seq + 1 = s.tcpSeq
  idle : s.tcpState ≠ .CONNECTED → s.tx = []

/-- A channel that is up has said HELLO. -/
structure StreamInv (s : Agent) : Prop extends Buffered s where
  greeted : s.tcpState = .CONNECTED → queuedFrames s.traffic ≠ []

variable {s s' : Agent}

/-- The invariant reads the traffic, `tx_` and the sequence number. -/
theorem StreamInv.congr (h : StreamInv s) (hview : s'.streamView = s.streamView) :
    StreamInv s' := by
  simp only [Agent.streamView, Prod.mk.injEq] at hview
  obtain ⟨hstate, htx, hseq, htraffic⟩ := hview
  constructor
  · constructor
    · exact htraffic ▸ h.history
    · rw [hstate, htx, htraffic]; exact h.rest
    · rw [hstate, hseq, htraffic]; exact h.next
    · rw [hstate, htx]; exact h.idle
  · rw [hstate, htraffic]; exact h.greeted

/-- One more entry of the history. -/
theorem wellFormed_suffixes {e : Seen} {es : List Seen} (h : ∀ l, l <:+ es → WellFormed l)
    (he : WellFormed (e :: es)) : ∀ l, l <:+ e :: es → WellFormed l := fun l hl => by
  rcases List.suffix_cons_iff.mp hl with rfl | hl
  · exact he
  · exact h l hl

/-- Without a channel nothing waits. -/
theorem streamInv_down (hhistory : ∀ es, es <:+ s.traffic → WellFormed es)
    (hstate : s.tcpState = .DISCONNECTED) (htx : s.tx = []) : StreamInv s := by
  have hdown : s.tcpState ≠ .CONNECTED := by rw [hstate]; nofun
  exact {
    history := hhistory
    rest := fun hup => absurd hup hdown
    next := fun hup => absurd hup hdown
    idle := fun _ => htx
    greeted := fun hup => absurd hup hdown }

theorem traffic_drop (s : Agent) : s.drop.traffic = s.traffic := by
  show (if s.tcpState = .CONNECTED then .lost :: s.trace else s.trace).filter _ = _
  split
  · rfl
  · rfl

theorem streamInv_drop (h : ∀ es, es <:+ s.traffic → WellFormed es) : StreamInv s.drop :=
  streamInv_down (traffic_drop s ▸ h) rfl rfl

/-- A frame goes into `tx_`: HELLO if it is the first. -/
theorem Buffered.push (h : Buffered s) (hup : s.tcpState = .CONNECTED) {msgType : UInt8}
    (hfirst : queuedFrames s.traffic = [] → msgType = MsgType.HELLO) (ts : UInt64)
    (payload : List Byte) (w : World) : StreamInv (s.push msgType ts payload w) := by
  have htraffic : (s.push msgType ts payload w).traffic =
      .queued (s.header msgType ts) payload :: s.traffic := rfl
  have hqueued : queuedFrames (.queued (s.header msgType ts) payload :: s.traffic) =
      queuedFrames s.traffic ++ [(s.header msgType ts, payload)] := rfl
  constructor
  · constructor
    · rw [htraffic]
      -- the sequence number follows the one of the last frame queued
      have hseq : ∀ f ∈ (queuedFrames s.traffic).getLast?,
          f.1.seq + 1 = (s.header msgType ts).seq := h.next hup
      exact wellFormed_suffixes h.history
        ((h.history _ (List.suffix_refl _)).queued hfirst hseq)
    · intro _
      rw [htraffic, hqueued, encodeFrames_append, ← h.rest hup, List.append_assoc]
      show sentBytes s.traffic ++ (s.tx ++ encodeFrame (s.header msgType ts) payload) = _
      rw [encodeFrames, List.flatMap_singleton]
    · intro _ f hf
      rw [htraffic, hqueued, List.getLast?_concat] at hf
      obtain rfl := Option.mem_some.mp hf
      rfl
    · exact fun hdown => absurd hup hdown
  · intro _
    rw [htraffic, hqueued]
    exact List.concat_ne_nil _ _

/-- The channel comes up: nothing is queued yet. -/
theorem StreamInv.goUp (h : StreamInv s) : Buffered s.goUp where
  history := wellFormed_suffixes h.history (wellFormed_connected _)
  rest _ := rfl
  next _ f hf := absurd hf (Option.not_mem_none f)
  idle hdown := absurd rfl hdown

/-- `send` takes a piece off the front of `tx_`. -/
theorem StreamInv.takeSent (h : StreamInv s) (n : ℕ) : StreamInv (s.takeSent n) := by
  have htraffic : (s.takeSent n).traffic = .sent (s.tx.take n) :: s.traffic := rfl
  -- the piece sent moves from the front of `tx_` to the history
  have hall := h.history _ (List.suffix_refl _)
  constructor
  · constructor
    · rw [htraffic]
      refine wellFormed_suffixes h.history ?_
      by_cases hup : s.tcpState = .CONNECTED
      · have hrest := h.rest hup
        rw [← List.take_append_drop n s.tx] at hrest
        exact hall.sent hrest
      · -- nothing waits, so the piece is empty
        obtain ⟨rest, hrest⟩ := hall.isPrefix
        have hnone : sentBytes s.traffic ++ (s.tx.take n ++ rest) =
            encodeFrames (queuedFrames s.traffic) := by
          rw [h.idle hup, List.take_nil]
          exact hrest
        exact hall.sent hnone
    · intro hup
      have hrest := h.rest hup
      rw [← List.take_append_drop n s.tx, ← List.append_assoc] at hrest
      exact hrest
    · exact h.next
    · intro hdown
      show s.tx.drop n = []
      rw [h.idle hdown, List.drop_nil]
  · exact h.greeted

/-! ## The parts of the agent -/

/-- Every frame goes to the end of `tx_`, and `tx_` goes out from the front. -/
theorem sends_streamInv : Sends (Holds StreamInv) where
  aside _ _ ha h := by cases ha <;> exact h.congr rfl
  world _ _ _ h := h.congr rfl
  logged _ _ _ _ h := h.congr rfl
  inLogSink _ _ h := h.congr rfl
  takeSent n _ h := h.takeSent n
  retry _ _ h := h.congr rfl
  backOff _ h := h.congr rfl
  drop _ h := streamInv_drop h.history
  overflow _ _ _ _ h := streamInv_drop h.history
  push _ ts payload w _ _ hup _ _ h :=
    h.push hup (fun hnone => absurd hnone (h.greeted hup)) ts payload w

/-- Any entry that is not traffic. -/
theorem streamInv_noted {e : Seen} (he : e.isTraffic = false) (s : Agent) :
    Holds StreamInv s (s.noted e) := fun h => by
  refine h.congr ?_
  have htraffic : (s.noted e).traffic = s.traffic := List.filter_cons_of_neg (by rw [he]; nofun)
  rw [Agent.streamView, htraffic]
  rfl

theorem streamInv_startReboot (reason : List Byte) (fw : Bool) :
    Keeps (Holds StreamInv) (startReboot reason fw) :=
  sends_streamInv.within.startReboot (fun _ _ h => h.congr rfl)
    (fun _ h => streamInv_down h.history rfl rfl) reason fw

/-- Handlers answer through `sendFrame` alone. -/
theorem streamInv_handleFrame (f : Frame) : Keeps (Holds StreamInv) (handleFrame f) := by
  have hw := sends_streamInv.within
  have hinj : ∀ s s', Reinjected s s' → Holds StreamInv s s' := fun _ _ hr h => by
    cases hr <;> exact h.congr rfl
  have hconf : ∀ s s', Reconfigured s s' → Holds StreamInv s s' := fun _ _ hr h => by
    cases hr <;> exact h.congr rfl
  -- the one frame that `Sends` leaves out
  have hack : ∀ v status, Keeps (Holds StreamInv) (sendConfigAck v status) := fun v status s =>
    sends_streamInv.sendFrame_of_push fun ts w _ hup h =>
      h.push hup (fun hnone => absurd hnone (h.greeted hup)) ts _ w
  refine hw.handleFrame (fun _ _ => streamInv_noted rfl) (streamInv_noted rfl)
    (fun _ _ => streamInv_noted rfl) ?_
  refine hw.dispatch (hw.handleConfigSet hconf hack f) ?_ (hw.handleFaultInject hinj f)
    (hw.handleCmd hinj streamInv_startReboot f)
  exact hw.handleFwUpdate fun s fu target _ _ _ => hw.acceptFwUpdate fun _ _ _ h => h.congr rfl

/-- A new connection begins with HELLO. -/
theorem streamInv_goUp (s : Agent) : Holds StreamInv s (sendHello s.goUp).2 := by
  intro h
  have hbuffered := h.goUp
  rw [sendHello, bind_run_ok (get_run _)]
  rcases sendFrame_cases MsgType.HELLO _ s.goUp with ⟨hdown, -⟩ | ⟨-, w, why, -, heq⟩ |
    ⟨hup, ts, w, -, heq⟩
  · exact absurd rfl hdown
  · rw [heq]
    have hdrop : Holds StreamInv s (s.goUp.nextSeq.withWorld w).drop := fun _ =>
      streamInv_drop hbuffered.history
    exact sends_streamInv.tcpFail_of_drop why hdrop h
  · rw [heq]
    exact sends_streamInv.tcpFlush _ (hbuffered.push hup (fun _ => rfl) ts _ w)

/-- One case for each piece of the loop. -/
theorem across_streamInv : Across (Holds StreamInv) where
  toWithin := sends_streamInv.within
  tcpFail why := sends_streamInv.tcpFail why
  setTcpFd _ _ h := h.congr rfl
  setRx _ _ _ h := h.congr rfl
  goUp s _ _ := streamInv_goUp s
  setConnecting s hstate _ h := by
    -- the stream of a channel that is down is over
    have hdown : s.tcpState ≠ .CONNECTED := by rw [hstate]; nofun
    exact {
      history := h.history
      rest := nofun
      next := nofun
      idle := fun _ => h.idle hdown
      greeted := nofun }
  updateInjections := sends_streamInv.within.now.bind fun t =>
    sends_streamInv.within.updateInjections (fun _ _ hr h => by cases hr <;> exact h.congr rfl) t
  readSensors p := sends_streamInv.within.readSensors (fun _ => streamInv_noted rfl)
    (fun _ h => h.congr rfl) (fun _ _ h => h.congr rfl) p
  noteComputed _ h := h.congr rfl
  checkLocalAlerts := sends_streamInv.checkLocalAlerts (fun _ _ h => h.congr rfl)
    fun _ _ _ h => h.congr rfl
  sendSample := sends_streamInv.within.counts.sendSample
    (sends_streamInv.within.counts.emitSample fun _ _ => streamInv_noted rfl)
  handleFrame f s _ _ := streamInv_handleFrame f s
  finishOta t s _ _ _ _ := sends_streamInv.within.finishOta (fun _ _ => streamInv_noted rfl)
    (fun _ h => h.congr rfl) streamInv_startReboot t s
  completeBoot t s _ _ := sends_streamInv.within.completeBoot (fun _ _ h => h.congr rfl)
    (fun s h => h.congr (by rw [Agent.install]; split <;> rfl)) t s

/-! ## Runs -/

theorem streamInv_start (opts : AgentOptions) (cfg : Config) (sensors : Option SysfsSensors)
    (world : World) : StreamInv (start (.init opts cfg sensors world)).2 := by
  have hw := sends_streamInv.within
  refine hw.start (fun _ _ h => h.congr rfl) _ (streamInv_down (fun es hes => ?_) rfl rfl)
  rw [List.suffix_nil.mp hes]
  exact wellFormed_nil

/-- At every point of a run, the bytes handed to the socket since the last
    connection was made begin the frames queued since then; the first of these is
    HELLO, and their numbers go on by one. -/
theorem outbound_wellFormed (opts : AgentOptions) (cfg : Config) (sensors : Option SysfsSensors)
    (world : World) (n : ℕ) :
    ∀ es, es <:+ (Agent.top opts cfg sensors world n).traffic → WellFormed es :=
  (across_streamInv.top (streamInv_start opts cfg sensors world) n).history

/-- `send` takes a few bytes at a time, and breaks the connection in the fourth
    flush. -/
def brokenWorld : World :=
  { World.idle with
    connect := fun _ => .done
    send := fun n =>
      if n = 1 then [.done 25, .done 40, .wouldBlock]
      else if n = 3 then [.error (Printf.str "reset")]
      else [.done 10, .wouldBlock] }

def brokenTraffic (n : ℕ) : List Seen :=
  (Agent.top { deviceId := [0x45] } {} none brokenWorld n).traffic

/-- The types of the queued frames, and how many of their bytes are sent. -/
def progress (es : List Seen) : List UInt8 × ℕ :=
  ((queuedFrames es).map fun f => f.1.msgType, (sentBytes es).length)

/-- Five bytes of the LOG frame are out, behind the eighty of HELLO, when the
    connection breaks; the next one begins with a HELLO of its own. -/
theorem outbound_wellFormed_broken :
    progress (brokenTraffic 3) = ([MsgType.HELLO, MsgType.LOG, MsgType.HEARTBEAT], 85) ∧
      progress (brokenTraffic 4) = ([MsgType.HELLO, MsgType.LOG], 20) ∧
      ∀ es, es <:+ brokenTraffic 4 → WellFormed es :=
  ⟨by decide +kernel, by decide +kernel,
    outbound_wellFormed { deviceId := [0x45] } {} none brokenWorld 4⟩

end EcuTelemetry.Firmware
