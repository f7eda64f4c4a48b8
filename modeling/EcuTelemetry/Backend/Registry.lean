/-
  EcuTelemetry.Backend.Registry

  The registry of the writers: `_register`, the `finally` of `_handle_tcp`, and
  what the rest of the backend does to neither.  `step_registry` says once what
  an event can do here: work that leaves the registry alone, one registration or
  one restart, and at the end at most one teardown.
-/

import EcuTelemetry.Backend.DeviceFrame
import EcuTelemetry.Backend.DeviceRecord

namespace EcuTelemetry.Backend

open Proc Protocol

variable {F : Type}

theorem SameLink.trans {r r' r'' : DeviceStats F} (h : SameLink r r') (h' : SameLink r' r'') :
    SameLink r r'' := ⟨h'.1.trans h.1, h'.2.trans h.2⟩

namespace Ingest

/-! ## What leaves the registry alone -/

/-- Writers and connections are the same, and so is what they write into the records. -/
structure SameRegistry (s s' : Ingest F) : Prop where
  writers : s'.writers = s.writers
  conns : s'.conns = s.conns
  link : ∀ dev, SameLink (s.record dev) (s'.record dev)

instance : IsPreorder (Ingest F) (SameRegistry (F := F)) where
  refl _ := ⟨rfl, rfl, fun _ => ⟨rfl, rfl⟩⟩
  trans _ _ _ h h' := ⟨h'.writers.trans h.writers, h'.conns.trans h.conns,
    fun dev => (h.link dev).trans (h'.link dev)⟩

theorem SameRegistry.of_eq {s s' : Ingest F} (hwriters : s'.writers = s.writers)
    (hconns : s'.conns = s.conns) (hstats : s'.stats = s.stats) : SameRegistry s s' :=
  ⟨hwriters, hconns, fun dev => by rw [record_of_stats_eq hstats]; exact ⟨rfl, rfl⟩⟩

/-- A record that is only made. -/
theorem keeps_sameRegistry_st (dev : String) : Keeps SameRegistry (st (F := F) dev) := by
  intro s
  obtain ⟨stats, hrun, hrecord⟩ := st_run dev s
  rw [hrun]
  refine ⟨rfl, rfl, fun d => ?_⟩
  have hd : Ingest.record { s with stats := stats } d = s.record d := hrecord d
  rw [hd]
  exact ⟨rfl, rfl⟩

/-- A write that leaves the link. -/
theorem keeps_sameRegistry_modifySt (dev : String) {f : DeviceStats F → DeviceStats F}
    (hf : ∀ r, SameLink r (f r)) : Keeps SameRegistry (modifySt dev f) := by
  intro s
  obtain ⟨stats, hrun, hrecord⟩ := modifySt_run dev f s
  rw [hrun]
  refine ⟨rfl, rfl, fun d => ?_⟩
  have hd : Ingest.record { s with stats := stats } d = _ := hrecord d
  rw [hd]
  split
  · next heq =>
    subst heq
    exact hf _
  · exact ⟨rfl, rfl⟩

variable [PyFloat F] [PyText F]

theorem keeps_sameRegistry_engineDo (e : EngineEvent F) : Keeps SameRegistry (engineDo e) :=
  Keeps.bind (fun _ => .of_eq rfl rfl rfl) fun _ => Keeps.pure ()

theorem keeps_sameRegistry_modifyDb (f : Database F → Database F) :
    Keeps SameRegistry (modifyDb f) :=
  Keeps.get.bind fun s => keeps_sameRegistry_engineDo (.write (f s.db))

/-- No statement outside `_register`, the teardown and the start touches it. -/
theorem fleetFrame_sameRegistry : FleetFrame (SameRegistry (F := F)) where
  device dev := ⟨fun s s' h => by
    cases h with
    | st => exact keeps_sameRegistry_st dev s
    | modifySt f hlink => exact keeps_sameRegistry_modifySt dev hlink s
    | telemetry hdr t now clock loss => exact keeps_sameRegistry_engineDo _ s
    | online now clock => exact keeps_sameRegistry_engineDo _ s
    | offline now clock => exact keeps_sameRegistry_engineDo _ s
    | invalidate => exact keeps_sameRegistry_engineDo _ s
    | write h => exact keeps_sameRegistry_engineDo _ s
    | wrote w => exact .of_eq rfl rfl rfl
    | suspend task => exact .of_eq rfl rfl rfl
    | note n => exact .of_eq rfl rfl rfl⟩
  fleet s s' h := by
    cases h with
    | tick now clock => exact keeps_sameRegistry_engineDo _ s
    | ackAlert aid clock => exact keeps_sameRegistry_engineDo _ s
    | firmwareAdd version notes sizeBytes crc now => exact keeps_sameRegistry_engineDo _ s
    | saveStats => exact keeps_sameRegistry_engineDo _ s
    | fwJobUpdate jid status now => exact keeps_sameRegistry_engineDo _ s

/-! ## Events -/

/-- The device that an event registers. -/
def registers (s : Ingest F) : Event F → Option String
  | .frame c f _ =>
    if s.takes c f.deviceId ∧ (s.conn c).deviceId = none then some f.deviceId else none
  | _ => none

/-- At the end of an event, perhaps a teardown. -/
inductive Torn (s : Ingest F) : Ingest F → Prop
  | not : Torn s s
  | down (c : Nat) : Torn s (endHandler c s).2

/-- What an event can do to the registry. -/
inductive RegistryStep (s : Ingest F) : Event F → Ingest F → Prop
  | work (e : Event F) {s' s'' : Ingest F} (hrestart : e ≠ .restart) (hnone : s.registers e = none)
      (hwork : SameRegistry s s') (htorn : Torn s' s'') : RegistryStep s e s''
  | registered (c : Nat) (f : Frame) (clock : Clock F) {s' s'' : Ingest F}
      (htakes : s.takes c f.deviceId = true) (hfirst : (s.conn c).deviceId = none)
      (hwork : SameRegistry (registerFirst c f s).2 s') (htorn : Torn s' s'') :
      RegistryStep s (.frame c f clock) s''
  | lost (c : Nat) :
    RegistryStep s (.lost c) (modifyConn c (fun k => { k with closing := true }) s).2
  | restarted : RegistryStep s .restart (restart s).2

omit [PyFloat F] [PyText F] in
/-- An exception ends the handler after the work is done. -/
theorem guarded_torn (c : Option Nat) {m : IngestM F Unit} {s s₀ : Ingest F}
    (hm : SameRegistry s₀ (m s).2) : ∃ s', SameRegistry s₀ s' ∧ Torn s' (guarded c m s).2 := by
  cases c with
  | none => exact ⟨_, hm, .not⟩
  | some c =>
    rw [guarded, Proc.onError]
    rcases hrun : m s with ⟨_ | _, s'⟩
    · rw [hrun] at hm
      exact ⟨s', hm, .down c⟩
    · rw [hrun] at hm
      exact ⟨s', hm, .not⟩

theorem keeps_sameRegistry_dispatch (c : Nat) (f : Frame) (clock : Clock F) :
    Keeps SameRegistry (dispatch c f clock) :=
  (fleetFrame_sameRegistry.device f.deviceId).dispatch
    (fun _ _ => keeps_sameRegistry_modifyDb _) c clock

/-- A frame registers its connection or none. -/
theorem onFrame_registry (c : Nat) (f : Frame) (clock : Clock F) (s : Ingest F) :
    RegistryStep s (.frame c f clock) (onFrame c f clock s).2 := by
  by_cases htakes : s.takes c f.deviceId = true
  -- a handler of the frame registers nobody
  · have hm : SameRegistry (registerFirst c f s).2 (takeFrame c f clock s).2 := by
      rw [takeFrame_run htakes]
      exact keeps_sameRegistry_dispatch c f clock _
    obtain ⟨s', hwork, htorn⟩ := guarded_torn (some c) hm
    rw [onFrame_run htakes]
    -- only the first frame of a connection registers it
    rcases hfirst : (s.conn c).deviceId with _ | dev
    · exact .registered c f clock htakes hfirst hwork htorn
    · have hsame : (registerFirst c f s).2 = s := by
        rw [registerFirst, bind_run_ok (get_run s), hfirst]
        rfl
      rw [hsame] at hwork
      have hnone : s.registers (.frame c f clock) = none := by
        rw [registers, if_neg]
        rw [hfirst]
        exact fun h => Option.some_ne_none dev h.2
      exact .work _ (by simp) hnone hwork htorn
  · rw [onFrame_of_not_takes htakes]
    have hnone : s.registers (.frame c f clock) = none := by
      rw [registers, if_neg fun h => htakes h.1]
    exact .work _ (by simp) hnone (refl_of SameRegistry s) .not

/-- Every event. -/
theorem step_registry (s : Ingest F) (e : Event F) : RegistryStep s e (step s e) := by
  -- an event that is no frame, no end and no restart
  have hwork : ∀ m : IngestM F Unit, handle e = m → e ≠ .restart → s.registers e = none →
      Keeps SameRegistry m → RegistryStep s e (step s e) := by
    intro m hm hrestart hnone hkeep
    rw [step, hm]
    exact .work e hrestart hnone (hkeep s) .not
  have h : FleetFrame (SameRegistry (F := F)) := fleetFrame_sameRegistry
  cases e with
  | frame c f clock => exact onFrame_registry c f clock s
  | lost c => exact .lost c
  | restart => exact .restarted
  | ended c =>
    rw [step, handle, onEnded, bind_run_ok (get_run s)]
    split
    · exact .work _ (by simp) rfl (refl_of SameRegistry s) .not
    · exact .work _ (by simp) rfl (refl_of SameRegistry s) (.down c)
  | drained i ok clock =>
    rw [step, handle, onDrained, bind_run_ok (get_run s)]
    rcases s.waiting[i]? with _ | task
    · exact .work _ (by simp) rfl (refl_of SameRegistry s) .not
    · dsimp only
      rw [modify_bind_run]
      have hresume : SameRegistry s { s with waiting := s.waiting.eraseIdx i } := .of_eq rfl rfl rfl
      -- a coroutine resumed may raise, and then its handler ends
      obtain ⟨s', hsame, htorn⟩ :=
        guarded_torn task.handler (trans_of SameRegistry hresume (h.goOn task ok clock _))
      exact .work _ (by simp) rfl hsame htorn
  | datagram data clock => exact hwork _ rfl (by simp) rfl (h.onDatagram data clock)
  | offlinePass clock => exact hwork _ rfl (by simp) rfl (h.offlinePass clock)
  | persistStats => exact hwork _ rfl (by simp) rfl h.persistStats
  | tick now clock => exact hwork _ rfl (by simp) rfl (keeps_sameRegistry_engineDo _)
  | deviceView dev => exact hwork _ rfl (by simp) rfl (h.device dev).deviceView
  | devices => exact hwork _ rfl (by simp) rfl h.devices
  | putConfig dev body clock =>
    exact hwork _ rfl (by simp) rfl ((h.device dev).putConfig body clock)
  | firmwareAdd body clock => exact hwork _ rfl (by simp) rfl (h.firmwareAdd body clock)
  | firmwareDeploy dev version clock =>
    exact hwork _ rfl (by simp) rfl (h.firmwareDeploy dev version clock)
  | faultInject dev body clock =>
    refine hwork _ rfl (by simp) rfl ((h.device dev).faultInject (fun _ _ _ => ?_) body clock)
    exact keeps_sameRegistry_modifyDb _
  | deviceCmd dev body clock =>
    exact hwork _ rfl (by simp) rfl ((h.device dev).deviceCmd body clock)
  | ackAlert aid clock => exact hwork _ rfl (by simp) rfl (keeps_sameRegistry_engineDo _)
  | putRules rules => exact hwork _ rfl (by simp) rfl (keeps_sameRegistry_engineDo _)

/-! ## The moves -/

omit [PyFloat F] [PyText F] in
/-- A change of one connection. -/
theorem modifyConn_run (c : Nat) (f : Conn → Conn) (s : Ingest F) : ∃ conns,
    modifyConn c f s = (.ok (), { s with conns := conns }) ∧
      ∀ k, (Dict.get? conns k).getD {} = if k = c then f (s.conn c) else s.conn k := by
  refine ⟨_, rfl, fun k => ?_⟩
  by_cases hk : k = c
  · subst hk
    rw [if_pos rfl, Dict.get?_set_self (.of_lawful k), Option.getD_some]
  · rw [if_neg hk, Dict.get?_set_ne (.of_lawful c) (.of_lawful k) (Ne.symm hk)]
    rfl

omit [PyText F] in
/-- What `_register` takes for a device it has seen before. -/
def Known (s : Ingest F) (dev : String) : Prop :=
  (s.record dev).framesRx ≠ 0 ∨ (Dict.get? s.writers dev).isSome ∨
    (s.record dev).lastSeen.any fun t => !PyFloat.eqInt t 0

instance (s : Ingest F) (dev : String) : Decidable (s.Known dev) :=
  inferInstanceAs (Decidable (_ ∨ _ ∨ _))

omit [PyFloat F] [PyText F] in
/-- `writer.close()` ends no handler. -/
theorem close_run (c : Option Nat) (s : Ingest F) : ∃ conns,
    close c s = (.ok (), { s with conns := conns }) ∧
      ∀ k, ((Dict.get? conns k).getD {}).deviceId = (s.conn k).deviceId ∧
        ((Dict.get? conns k).getD {}).ended = (s.conn k).ended := by
  cases c with
  | none => exact ⟨s.conns, rfl, fun k => ⟨rfl, rfl⟩⟩
  | some c =>
    obtain ⟨conns, hrun, hconn⟩ := modifyConn_run c (fun k => { k with closing := true }) s
    refine ⟨conns, hrun, fun k => ?_⟩
    rw [hconn k]
    split
    · next hk => exact hk ▸ ⟨rfl, rfl⟩
    · exact ⟨rfl, rfl⟩

/-- What a registration leaves behind. -/
structure RegisteredBy (c : Nat) (dev : String) (s s' : Ingest F) : Prop where
  writers : s'.writers = Dict.set s.writers dev c
  own : (s'.conn c).deviceId = some dev ∧ (s'.conn c).ended = (s.conn c).ended
  others : ∀ k, k ≠ c → (s'.conn k).deviceId = (s.conn k).deviceId ∧
      (s'.conn k).ended = (s.conn k).ended
  record : ∀ d, s'.record d =
    if d = dev then
      { s.record dev with
        reconnects := if s.Known dev then (s.record dev).reconnects + 1
          else (s.record dev).reconnects
        tcpConnected := true }
    else s.record d

omit [PyText F] in
/-- The first frame of a connection: the old writer is closed, the new one stands in the
    registry. -/
theorem registerFirst_spec {c : Nat} {f : Frame} {s : Ingest F}
    (hfirst : (s.conn c).deviceId = none) :
    RegisteredBy c f.deviceId s (registerFirst c f s).2 := by
  obtain ⟨dev, hdev⟩ : ∃ dev, dev = f.deviceId := ⟨_, rfl⟩
  rw [registerFirst, bind_run_ok (get_run s), hfirst, ← hdev]
  dsimp only
  -- the connection gets its device
  obtain ⟨conns₁, hrun₁, hconn₁⟩ := modifyConn_run c (fun k => { k with deviceId := some dev }) s
  obtain ⟨s₁, hs₁⟩ : ∃ s₁ : Ingest F, s₁ = { s with conns := conns₁ } := ⟨_, rfl⟩
  have hwriters₁ : s₁.writers = s.writers := by rw [hs₁]
  have hstats₁ : s₁.stats = s.stats := by rw [hs₁]
  have hconn₁ : ∀ k, s₁.conn k = if k = c then { s.conn c with deviceId := some dev }
    else s.conn k :=
    fun k => (congrArg (fun s => Ingest.conn s k) hs₁).trans (hconn₁ k)
  rw [bind_run_ok hrun₁, ← hs₁, register, bind_run_ok (get_run s₁)]
  -- the old writer is closed, the record written, the writer set
  obtain ⟨conns, hclose, hsame⟩ := close_run ((Dict.get? s₁.writers dev).filter (· ≠ c)) s₁
  dsimp only
  rw [bind_run_ok hclose]
  obtain ⟨stats, hrun, hrecord⟩ := modifySt_run dev (fun r =>
    { r with
      reconnects := if r.framesRx ≠ 0 ∨ (Dict.get? s₁.writers dev).isSome ∨
        r.lastSeen.any (fun t => !PyFloat.eqInt t 0) then r.reconnects + 1 else r.reconnects
      tcpConnected := true }) { s₁ with conns := conns }
  rw [bind_run_ok hrun, modify_run]
  have hrec₁ : ∀ d, Ingest.record { s₁ with conns := conns } d = s.record d :=
    fun d => record_of_stats_eq hstats₁ d
  refine ⟨?_, ⟨(hsame c).1.trans ?_, (hsame c).2.trans ?_⟩,
    fun k hk => ⟨(hsame k).1.trans ?_, (hsame k).2.trans ?_⟩, fun d => (hrecord d).trans ?_⟩
  · show Dict.set s₁.writers dev c = _
    rw [hwriters₁]
  · rw [hconn₁, if_pos rfl]
  · rw [hconn₁, if_pos rfl]
  · rw [hconn₁, if_neg hk]
  · rw [hconn₁, if_neg hk]
  · rw [hrec₁, hrec₁, hwriters₁]
    rfl

/-- What a teardown leaves behind: the writer goes only if it is the connection's own. -/
structure TornDown (c : Nat) (s s' : Ingest F) : Prop where
  own : (s'.conn c).deviceId = (s.conn c).deviceId ∧ (s'.conn c).ended = true
  others : ∀ k, k ≠ c → s'.conn k = s.conn k
  registry : (s'.writers = s.writers ∧ ∀ d, s'.record d = s.record d) ∨
    ∃ dev, (s.conn c).deviceId = some dev ∧ dev ≠ "" ∧ Dict.get? s.writers dev = some c ∧
      s'.writers = Dict.pop s.writers dev ∧
      ∀ d, s'.record d = if d = dev then { s.record dev with tcpConnected := false } else s.record d

omit [PyFloat F] [PyText F] in
/-- The end of a handler: its connection is closed, and it leaves the registry if it is still
    there. -/
theorem endHandler_spec (c : Nat) (s : Ingest F) : TornDown c s (endHandler c s).2 := by
  rw [endHandler, bind_run_ok (get_run s)]
  obtain ⟨conns₁, hrun₁, hconn₁⟩ :=
    modifyConn_run c (fun k => { k with closing := true, ended := true }) s
  obtain ⟨s₁, hs₁⟩ : ∃ s₁ : Ingest F, s₁ = { s with conns := conns₁ } := ⟨_, rfl⟩
  have hwriters₁ : s₁.writers = s.writers := by rw [hs₁]
  have hstats₁ : s₁.stats = s.stats := by rw [hs₁]
  have hconn₁ : ∀ k, s₁.conn k =
      if k = c then { s.conn c with closing := true, ended := true } else s.conn k :=
    fun k => (congrArg (fun s => Ingest.conn s k) hs₁).trans (hconn₁ k)
  -- the connection itself is closed; whether it is registered is asked after that
  have hown : (s₁.conn c).deviceId = (s.conn c).deviceId ∧ (s₁.conn c).ended = true := by
    rw [hconn₁, if_pos rfl]
    exact ⟨rfl, rfl⟩
  have hothers : ∀ k, k ≠ c → s₁.conn k = s.conn k := fun k hk => by rw [hconn₁, if_neg hk]
  rw [bind_run_ok hrun₁, ← hs₁]
  cases hdev : (s.conn c).deviceId.filter fun dev =>
    dev ≠ "" ∧ Dict.get? s.writers dev = some c with
  | none => exact ⟨hown, hothers, .inl ⟨hwriters₁, record_of_stats_eq hstats₁⟩⟩
  | some dev =>
    obtain ⟨hid, hcond⟩ := Option.filter_eq_some_iff.mp hdev
    obtain ⟨hne, hget⟩ := of_decide_eq_true hcond
    -- registered: the writer goes, and the record says so
    obtain ⟨stats, hrun, hrecord⟩ := modifySt_run dev (fun r => { r with tcpConnected := false })
      { s₁ with writers := Dict.pop s₁.writers dev }
    have hrec₁ : ∀ d, Ingest.record { s₁ with writers := Dict.pop s₁.writers dev } d = s.record d :=
      fun d => record_of_stats_eq hstats₁ d
    dsimp only
    rw [modify_bind_run, hrun]
    refine ⟨hown, hothers, .inr ⟨dev, hid, hne, hget, ?_, fun d => (hrecord d).trans ?_⟩⟩
    · show Dict.pop s₁.writers dev = _
      rw [hwriters₁]
    · rw [hrec₁, hrec₁]

end Ingest

end EcuTelemetry.Backend
