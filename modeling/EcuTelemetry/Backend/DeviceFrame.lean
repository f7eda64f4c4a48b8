/-
  EcuTelemetry.Backend.DeviceFrame

  `Ingest` statement by statement.  `Touch dev` is all that one statement can do
  while it works for a device, `TouchFleet` what one can do that works for none.
  A relation that holds across each of them holds across every procedure that is
  made of such statements; what changes the registry of the writers or the fault
  injections is an argument.
-/

import EcuTelemetry.Backend.HelloModels

namespace EcuTelemetry.Backend

open Proc Protocol

variable {F : Type}

/-! ## Statements -/

/-- A write to the rows of a device, other than its fault injections. -/
inductive Database.WriteOf (dev : String) (db : Database F) : Database F → Prop
  | upsert (lastSeen : F) (fields : DeviceRow F → DeviceRow F)
      (hid : ∀ d, (fields d).deviceId = d.deviceId) :
      WriteOf dev db (db.upsertDevice dev lastSeen fields)
  | setOnline (online : Bool) : WriteOf dev db (db.setOnline dev online)
  | newConfig (telemetryHz logLevel : Nat) (hhz : telemetryHz ≤ 100) (hlevel : logLevel ≤ 3)
      (rpmLimit tempLimitC currentLimitA : F64) (now : F) :
      WriteOf dev db (db.newConfig dev telemetryHz logLevel rpmLimit tempLimitC currentLimitA now)
  | updateConfig (version : Nat) (fields : ConfigRow F → ConfigRow F)
      (hid : ∀ c, (fields c).deviceId = c.deviceId ∧ (fields c).telemetryHz = c.telemetryHz ∧
        (fields c).logLevel = c.logLevel) : WriteOf dev db (db.updateConfig dev version fields)
  | fwJobCreate (target : String) (fromVersion : Option String) (now : F) :
      WriteOf dev db (db.fwJobCreate dev target fromVersion now)
  | fwJobUpdate (job : JobRow F) (hjob : db.fwJobLatest dev = some job) (status : String)
    (now : F) :
      WriteOf dev db (db.fwJobUpdate job.id status now)

/-- What the registration and the teardown of a connection write is the same. -/
def SameLink (r r' : DeviceStats F) : Prop :=
  r'.tcpConnected = r.tcpConnected ∧ r'.reconnects = r.reconnects

theorem sameLink_noteSeq (r : DeviceStats F) (seq : Nat) : SameLink r (r.noteSeq seq) := by
  rw [DeviceStats.noteSeq]
  split
  · dsimp only
    split <;> exact ⟨rfl, rfl⟩
  · exact ⟨rfl, rfl⟩

/-! ## The bounds of a request -/

/-- The levels are 0 to 3. -/
theorem logLevel_le {spec : Int ⊕ String} {level : Nat} (h : logLevel spec = some level) :
    level ≤ 3 := by
  cases spec with
  | inl v =>
    rw [logLevel] at h
    split at h
    · next hv =>
      cases h
      omega
    · cases h
  | inr text =>
    obtain ⟨before, after, hlist, -⟩ := List.lookup_eq_some_iff.mp h
    have hmem : (String.ofList (lower text.toList), level) ∈ LOG_LEVEL_IDS := by
      rw [hlist]
      exact List.mem_append_right _ List.mem_cons_self
    have hall : ∀ e ∈ LOG_LEVEL_IDS, e.2 ≤ 3 := by decide
    exact hall _ hmem

theorem ConfigBody.telemetryHz_le {body : ConfigBody} (h : body.valid = true) :
    body.telemetryHz.toNat ≤ 100 := by
  simp only [ConfigBody.valid, Bool.and_eq_true, decide_eq_true_eq] at h
  omega

namespace Ingest

section Statements

variable [PyFloat F] [PyText F]

/-- A statement that works for a device. -/
inductive Touch (dev : String) (s : Ingest F) : Ingest F → Prop
  | st : Touch dev s (st dev s).2
  | modifySt (f : DeviceStats F → DeviceStats F) (hlink : ∀ r, SameLink r (f r)) :
      Touch dev s (modifySt dev f s).2
  | telemetry (hdr : Header) (t : Telemetry) (now clock loss : F) :
      Touch dev s (engineDo (.telemetry dev (sample dev hdr t now loss) now clock (some loss)) s).2
  | online (now clock : F) : Touch dev s (engineDo (.online dev now clock) s).2
  | offline (now clock : F) : Touch dev s (engineDo (.offline dev now clock) s).2
  | invalidate : Touch dev s (engineDo (.invalidateConfig dev) s).2
  | write {db : Database F} (h : s.db.WriteOf dev db) : Touch dev s (engineDo (.write db) s).2
  | wrote (w : Written) : Touch dev s { s with wrote := s.wrote ++ [w] }
  | suspend (task : Waiting) : Touch dev s (suspend task s).2
  | note (n : Note) : Touch dev s (note n s).2

/-- A statement that works for no device in particular. -/
inductive TouchFleet (s : Ingest F) : Ingest F → Prop
  | tick (now clock : F) : TouchFleet s (engineDo (.tick now clock) s).2
  | ackAlert (aid : Nat) (clock : F) : TouchFleet s (engineDo (.ackAlert aid clock) s).2
  | firmwareAdd (version notes : String) (sizeBytes crc : Nat) (now : F) :
      TouchFleet s (engineDo (.write (s.db.firmwareAdd version notes sizeBytes crc now)) s).2
  | saveStats : TouchFleet s
      (engineDo (.write (s.stats.foldl (fun db e => db.saveStats (e.2.statsRow e.1)) s.db)) s).2
  | fwJobUpdate (jid : Nat) (status : String) (now : F) :
      TouchFleet s (engineDo (.write (s.db.fwJobUpdate jid status now)) s).2

/-- `R` holds across the statements for a device. -/
structure DeviceFrame (R : Ingest F → Ingest F → Prop) (dev : String) : Prop where
  touch : ∀ s s', Touch dev s s' → R s s'

/-- `R` holds across the statements for any device and for none. -/
structure FleetFrame (R : Ingest F → Ingest F → Prop) : Prop where
  device : ∀ dev, DeviceFrame R dev
  fleet : ∀ s s', TouchFleet s s' → R s s'

end Statements

/-! ## Procedures for a device -/

namespace DeviceFrame

variable [PyFloat F] [PyText F] {R : Ingest F → Ingest F → Prop} {dev : String}

theorem st (h : DeviceFrame R dev) : Keeps R (Ingest.st dev) := fun s => h.touch s _ .st

theorem modifySt (h : DeviceFrame R dev) {f : DeviceStats F → DeviceStats F}
    (hlink : ∀ r, SameLink r (f r)) : Keeps R (Ingest.modifySt dev f) :=
  fun s => h.touch s _ (.modifySt f hlink)

theorem modifyDb (h : DeviceFrame R dev) {f : Database F → Database F}
    (hf : ∀ db : Database F, db.WriteOf dev (f db)) : Keeps R (Ingest.modifyDb f) :=
  fun s => h.touch s _ (.write (hf s.db))

theorem suspend (h : DeviceFrame R dev) (task : Waiting) : Keeps R (Ingest.suspend task) :=
  fun s => h.touch s _ (.suspend task)

theorem note (h : DeviceFrame R dev) (n : Note) : Keeps R (Ingest.note n) :=
  fun s => h.touch s _ (.note n)

theorem invalidate (h : DeviceFrame R dev) : Keeps R (engineDo (.invalidateConfig dev)) :=
  fun s => h.touch s _ .invalidate

variable [IsPreorder (Ingest F) R]

theorem setOnline (h : DeviceFrame R dev) (online : Bool) (clock : F) :
    Keeps R (Ingest.setOnline dev online clock) := by
  have honline : Keeps R (engineDo (.online dev clock clock)) := fun s => h.touch s _ (.online _ _)
  have hoffline : Keeps R (engineDo (.offline dev clock clock)) := fun s =>
    h.touch s _ (.offline _ _)
  refine (h.modifySt fun _ => by exact ⟨rfl, rfl⟩).bind fun _ =>
    (h.modifyDb fun _ => .setOnline online).bind fun _ => ?_
  exact Keeps.ite (fun _ => honline) fun _ => hoffline

theorem seen (h : DeviceFrame R dev) (clock : Clock F) : Keeps R (Ingest.seen dev clock) :=
  (h.modifySt fun _ => by exact ⟨rfl, rfl⟩).bind fun _ => h.st.bind fun _ =>
    Keeps.ite (fun _ => Keeps.pure ()) fun _ => h.setOnline true _

theorem receiveTelemetry {hdr : Header} (h : DeviceFrame R hdr.deviceId) (clock : Clock F) :
    Keeps R (Ingest.receiveTelemetry hdr clock) := by
  refine (h.modifySt fun _ => by exact sameLink_noteSeq _ _).bind fun _ =>
    (Keeps.ofExcept _).bind fun _ => ?_
  refine (h.modifySt fun _ => by exact ⟨rfl, rfl⟩).bind fun _ => h.st.bind fun _ => ?_
  refine Keeps.bind (h.modifyDb fun _ => .upsert _ _ fun _ => by rfl) fun _ => ?_
  exact (h.seen clock).bind fun _ => Keeps.pure _

theorem handleTelemetry {hdr : Header} (h : DeviceFrame R hdr.deviceId)
    (t : Telemetry) (clock : Clock F) :
    Keeps R (Ingest.handleTelemetry hdr t clock) := by
  have hsample : ∀ loss, Keeps R (engineDo (.telemetry hdr.deviceId
      (sample hdr.deviceId hdr t clock.now loss) clock.now clock.later (some loss))) :=
    fun _ s => h.touch s _ (.telemetry _ _ _ _ _)
  exact (h.receiveTelemetry clock).bind fun loss => hsample loss

/-- `send`: what is written and noted is of the device. -/
theorem write (h : DeviceFrame R dev) (payload : Payload) (clock : Clock F) :
    Keeps R (Ingest.write dev payload clock) := by
  refine Keeps.get.bind fun s => ?_
  split
  · exact Keeps.pure _
  · next c _ =>
    refine (h.modifySt fun _ => by exact ⟨rfl, rfl⟩).bind fun _ => h.st.bind fun r => ?_
    dsimp only
    refine (Keeps.ofExcept _).bind fun bytes => ?_
    exact Keeps.bind (Keeps.modify fun s => h.touch s _ (.wrote ⟨c, payload, bytes⟩)) fun _ =>
      Keeps.pure _

theorem pushConfig (h : DeviceFrame R dev) (cfg : ConfigRow F) (clock : Clock F) :
    Keeps R (Ingest.pushConfig dev cfg clock) :=
  (h.note _).bind fun _ => (Keeps.ofExcept _).bind fun _ => h.write _ clock

theorem pushConfigDone (h : DeviceFrame R dev) (version : Nat) (ok : Bool) :
    Keeps R (Ingest.pushConfigDone dev version ok) :=
  (h.modifyDb fun _ => .updateConfig version _ fun _ => by exact ⟨rfl, rfl, rfl⟩).bind fun _ =>
    h.invalidate

/-- The second half of `_after_hello`. -/
theorem afterHelloJob (h : DeviceFrame R dev) (c : Nat) (hello : Hello) (clock : Clock F) :
    Keeps R (Ingest.afterHelloJob c dev hello clock) := by
  intro s
  rw [Ingest.afterHelloJob, bind_run_ok (get_run s)]
  rcases hjob : s.db.fwJobLatest dev with _ | job
  · exact refl_of R s
  · dsimp only
    split
    · exact refl_of R s
    · split
      · exact h.touch s _ (.write (.fwJobUpdate job hjob "complete" clock.later))
      · split
        · cases s.db.firmwareGet job.targetVersion with
          | none => exact refl_of R s
          | some fw =>
            refine Keeps.bind (h.write _ clock) (fun written => ?_) s
            exact Keeps.ite (fun _ => h.suspend _) fun _ => Keeps.pure ()
        · exact refl_of R s

theorem afterHello (h : DeviceFrame R dev) (c : Nat) (hello : Hello) (clock : Clock F) :
    Keeps R (Ingest.afterHello c dev hello clock) := by
  refine Keeps.get.bind fun s => ?_
  split
  · exact h.afterHelloJob c hello clock
  · refine (h.pushConfig _ clock).bind fun written => Keeps.ite (fun _ => h.suspend _) fun _ => ?_
    exact (h.pushConfigDone _ false).bind fun _ => h.afterHelloJob c hello clock

/-- `_dispatch`, where a FAULT_ACK is an argument. -/
theorem dispatch {f : Frame} (h : DeviceFrame R f.deviceId)
    (hack : ∀ p, f.payload = .known (.faultAck p) →
      Keeps R (Ingest.modifyDb fun db : Database F =>
        db.faultInjectionAck f.deviceId p.activeFlags))
    (c : Nat) (clock : Clock F) : Keeps R (Ingest.dispatch c f clock) := by
  have hupsert : ∀ (lastSeen : F) (fields : DeviceRow F → DeviceRow F),
      (∀ d, (fields d).deviceId = d.deviceId) →
      Keeps R (Ingest.modifyDb fun db => db.upsertDevice f.deviceId lastSeen fields) :=
    fun _ _ hid => h.modifyDb fun _ => .upsert _ _ hid
  refine (h.note _).bind fun _ => ?_
  -- one handler for each type, in the order of `_dispatch`
  split
  · next p _ =>
    exact (hupsert _ _ fun _ => by rfl).bind fun _ => (h.seen clock).bind fun _ =>
      h.afterHello c p clock
  · exact (hupsert _ _ fun _ => by rfl).bind fun _ => h.seen clock
  · refine Keeps.bind ?_ fun _ => h.seen clock
    exact Keeps.ite (fun _ => Keeps.pure ()) fun _ => Keeps.raise _
  · next p _ =>
    refine Keeps.bind
      (h.modifyDb fun _ => .updateConfig p.configVersion _ fun _ => by exact ⟨rfl, rfl, rfl⟩)
      fun _ => ?_
    exact Keeps.ite (fun _ => (hupsert _ _ fun _ => by rfl).bind fun _ => h.invalidate) fun _ =>
      h.invalidate
  -- a FW_ACK is looked up among the unfinished jobs of this device only
  · intro s
    rw [bind_run_ok (get_run s)]
    cases hjob : (s.db.fwJobLatest f.deviceId).filter fun job => !job.finished with
    | none => exact refl_of R s
    | some job =>
      have hlatest := (Option.filter_eq_some_iff.mp hjob).1
      exact h.touch s _ (.write (.fwJobUpdate job hlatest _ _))
  · next p hp => exact hack p hp
  · exact h.handleTelemetry _ clock
  · exact Keeps.pure ()

/-- A configuration is stored and pushed. -/
theorem putConfig (h : DeviceFrame R dev) (body : ConfigBody) (clock : Clock F) :
    Keeps R (Ingest.putConfig dev body clock) := by
  refine Keeps.get.bind fun s => ?_
  split
  · exact Keeps.pure ()
  · next level hlevel =>
    obtain ⟨hlog, hvalid⟩ := Option.filter_eq_some_iff.mp hlevel
    refine Keeps.bind (Keeps.get.bind fun s => Keeps.ite (fun _ => ?_) fun _ => Keeps.raise _)
      fun _ => Keeps.get.bind fun s => ?_
    · refine h.modifyDb fun _ => .newConfig _ _ ?_ (logLevel_le hlog) _ _ _ _
      exact ConfigBody.telemetryHz_le (Bool.and_eq_true_iff.mp hvalid).1
    · split
      · exact Keeps.raise _
      · refine (h.pushConfig _ clock).bind fun written => ?_
        exact Keeps.ite (fun _ => h.suspend _) fun _ => h.pushConfigDone _ false

theorem deviceCmd (h : DeviceFrame R dev) (body : CmdBody) (clock : Clock F) :
    Keeps R (Ingest.deviceCmd dev body clock) := by
  refine Keeps.get.bind fun s => ?_
  split
  · exact (h.write _ clock).bind fun _ => Keeps.pure ()
  · exact Keeps.pure ()

/-- `fault_inject`, with the new row as an argument. -/
theorem faultInject (h : DeviceFrame R dev) (hadd : ∀ setFlags clearFlags durationMs, Keeps R
      (Ingest.modifyDb fun db : Database F =>
        db.faultInjectionAdd dev setFlags clearFlags durationMs))
    (body : FaultBody) (clock : Clock F) : Keeps R (Ingest.faultInject dev body clock) := by
  refine Keeps.get.bind fun s => Keeps.ite (fun _ => Keeps.pure ()) fun _ => ?_
  split
  · refine Keeps.ite (fun _ => ?_) fun _ => Keeps.raise _
    dsimp only
    exact (hadd _ _ _).bind fun _ => (h.write _ clock).bind fun _ => Keeps.pure ()
  · exact Keeps.pure ()

theorem deviceView (h : DeviceFrame R dev) : Keeps R (Ingest.deviceView dev) := by
  refine Keeps.get.bind fun s => ?_
  split
  · exact h.st.bind fun _ => Keeps.pure ()
  · exact Keeps.pure ()

end DeviceFrame

/-! ## Procedures for the fleet -/

namespace FleetFrame

variable [PyFloat F] [PyText F] {R : Ingest F → Ingest F → Prop} [IsPreorder (Ingest F) R]

/-- A datagram concerns the device in its header. -/
theorem onDatagram (h : FleetFrame R) (data : List Byte) (clock : Clock F) :
    Keeps R (Ingest.onDatagram data clock) := by
  rw [Ingest.onDatagram]
  split
  · exact Keeps.pure ()
  · next hdr _ =>
    refine (h.device hdr.deviceId).st.bind fun _ => ?_
    split
    · exact (h.device hdr.deviceId).modifySt fun _ => by exact ⟨rfl, rfl⟩
    · split
      · exact (h.device _).handleTelemetry _ clock
      · exact Keeps.pure ()

theorem offlinePass (h : FleetFrame R) (clock : Clock F) : Keeps R (Ingest.offlinePass clock) := by
  refine Keeps.get.bind fun s => Keeps.bind (Keeps.forEach fun e _ => ?_) fun _ =>
    Keeps.get.bind fun s => Keeps.forEach fun d _ => Keeps.get.bind fun s => ?_
  · exact Keeps.ite (fun _ => (h.device e.1).setOnline _ _) fun _ => Keeps.pure ()
  · exact Keeps.ite (fun _ => (h.device d.deviceId).setOnline _ _) fun _ => Keeps.pure ()

omit [IsPreorder (Ingest F) R] in
theorem persistStats (h : FleetFrame R) : Keeps R (Ingest.persistStats (F := F)) :=
  fun s => h.fleet s _ .saveStats

theorem devices (h : FleetFrame R) : Keeps R (Ingest.devices (F := F)) :=
  Keeps.get.bind fun _ => Keeps.forEach fun d _ => (h.device d.deviceId).deviceView

/-- The firmware registry belongs to no device. -/
theorem firmwareAdd (h : FleetFrame R) (body : FirmwareBody) (clock : Clock F) :
    Keeps R (Ingest.firmwareAdd body clock) := by
  rw [Ingest.firmwareAdd]
  split
  · exact Keeps.pure ()
  · dsimp only
    split
    · exact Keeps.pure ()
    · exact Keeps.ite (fun _ s => h.fleet s _ (.firmwareAdd _ _ _ _ _)) fun _ => Keeps.raise _

omit [IsPreorder (Ingest F) R] in
theorem deployDone (h : FleetFrame R) (jid : Nat) (ok : Bool) (clock : Clock F) :
    Keeps R (Ingest.deployDone jid ok clock) := fun s => h.fleet s _ (.fwJobUpdate _ _ _)

/-- A job is stored and its update pushed. -/
theorem firmwareDeploy (h : FleetFrame R) (dev version : String) (clock : Clock F) :
    Keeps R (Ingest.firmwareDeploy dev version clock) := by
  have hdev := h.device dev
  refine Keeps.get.bind fun s => ?_
  split
  · refine Keeps.bind (hdev.modifyDb fun _ => .fwJobCreate _ _ _) fun _ =>
      (hdev.note _).bind fun _ => ?_
    exact (hdev.write _ clock).bind fun written => Keeps.ite (fun _ => hdev.suspend _) fun _ =>
      h.deployDone _ false clock
  · exact Keeps.pure ()

/-- What a drain leaves to do is of the device it was for. -/
theorem goOn (h : FleetFrame R) (task : Waiting) (ok : Bool) (clock : Clock F) :
    Keeps R (Ingest.goOn task ok clock) := by
  cases task with
  | helloConfig c dev hello version =>
    exact ((h.device dev).pushConfigDone version ok).bind fun _ =>
      (h.device dev).afterHelloJob c hello clock
  | helloFw c => exact Keeps.pure ()
  | putConfig dev version => exact (h.device dev).pushConfigDone version ok
  | deploy jid => exact h.deployDone jid ok clock

end FleetFrame

/-! ## Events -/

/-- `R` also holds across what is done to a connection, its handler and the process. -/
structure EventFrame [PyFloat F] [PyText F] (R : Ingest F → Ingest F → Prop) : Prop extends
    FleetFrame R where
  lost : ∀ c, Keeps R (modifyConn c fun k => { k with closing := true })
  registerFirst : ∀ c f, Keeps R (registerFirst c f)
  endHandler : ∀ c, Keeps R (endHandler c)
  resume : ∀ s i, R s { s with waiting := s.waiting.eraseIdx i }
  restart : Keeps R restart

namespace EventFrame

variable [PyFloat F] [PyText F] {R : Ingest F → Ingest F → Prop} [IsPreorder (Ingest F) R]

/-- An exception ends the handler and does nothing else. -/
theorem guarded (h : EventFrame R) (c : Option Nat) {m : IngestM F Unit} {s : Ingest F}
    (hm : R s (m s).2) : R s (Ingest.guarded c m s).2 := by
  cases c with
  | none => exact hm
  | some c =>
    rw [Ingest.guarded, Proc.onError]
    rcases hrun : m s with ⟨_ | _, s'⟩
    · rw [hrun] at hm
      exact trans_of R hm (h.endHandler c s')
    · rw [hrun] at hm
      exact hm

/-- A FAULT_ACK is an argument. -/
theorem onFrame (h : EventFrame R) {f : Frame} (hack : ∀ p, f.payload = .known (.faultAck p) →
      Keeps R (Ingest.modifyDb fun db : Database F =>
        db.faultInjectionAck f.deviceId p.activeFlags))
    (c : Nat) (clock : Clock F) : Keeps R (Ingest.onFrame c f clock) := by
  intro s
  by_cases htakes : s.takes c f.deviceId = true
  · rw [onFrame_run htakes]
    refine h.guarded (some c) ?_
    rw [takeFrame_run htakes]
    exact trans_of R (h.registerFirst c f s) ((h.device f.deviceId).dispatch hack c clock _)
  · rw [onFrame_of_not_takes htakes]
    exact refl_of R s

/-- A coroutine goes on, within the guard of its handler. -/
theorem onDrained (h : EventFrame R) (i : Nat) (ok : Bool) (clock : Clock F) :
    Keeps R (Ingest.onDrained i ok clock) := by
  intro s
  rw [Ingest.onDrained, bind_run_ok (get_run s)]
  rcases s.waiting[i]? with _ | task
  · exact refl_of R s
  · dsimp only
    rw [modify_bind_run]
    exact trans_of R (h.resume s i) (h.guarded task.handler (h.goOn task ok clock _))

/-- Every event; a new fault injection and new rules are arguments too. -/
theorem handle (h : EventFrame R) (e : Event F)
    (hack : ∀ c f clock, e = .frame c f clock → ∀ p, f.payload = .known (.faultAck p) → Keeps R
      (Ingest.modifyDb fun db : Database F => db.faultInjectionAck f.deviceId p.activeFlags))
    (hadd : ∀ dev body clock, e = .faultInject dev body clock →
      ∀ setFlags clearFlags durationMs, Keeps R
        (Ingest.modifyDb fun db : Database F =>
          db.faultInjectionAdd dev setFlags clearFlags durationMs))
    (hrules : ∀ rules, e = .putRules rules → Keeps R (engineDo (.setRules rules))) :
    Keeps R (Ingest.handle e) := by
  cases e with
  | datagram data clock => exact h.onDatagram data clock
  | frame c f clock => exact h.onFrame (hack c f clock rfl) c clock
  | lost c => exact h.lost c
  | ended c =>
    exact Keeps.get.bind fun _ => Keeps.ite (fun _ => Keeps.pure ()) fun _ => h.endHandler c
  | drained i ok clock => exact h.onDrained i ok clock
  | offlinePass clock => exact h.offlinePass clock
  | persistStats => exact h.persistStats
  | tick now clock => exact fun s => h.fleet s _ (.tick now clock)
  | restart => exact h.restart
  | deviceView dev => exact (h.device dev).deviceView
  | devices => exact h.devices
  | putConfig dev body clock => exact (h.device dev).putConfig body clock
  | firmwareAdd body clock => exact h.firmwareAdd body clock
  | firmwareDeploy dev version clock => exact h.firmwareDeploy dev version clock
  | faultInject dev body clock =>
    exact (h.device dev).faultInject (hadd dev body clock rfl) body clock
  | deviceCmd dev body clock => exact (h.device dev).deviceCmd body clock
  | ackAlert aid clock => exact fun s => h.fleet s _ (.ackAlert aid clock)
  | putRules rules => exact hrules rules rfl

end EventFrame

end Ingest

end EcuTelemetry.Backend
