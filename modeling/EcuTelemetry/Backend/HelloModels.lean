/-
  EcuTelemetry.Backend.HelloModels

  The hardware models devices announce, and the threshold overrides that depend
  on them, across whole runs of the backend.

  The engine caches the model of a device when it first needs it.  A HELLO does
  not drop what is cached: a sample that comes before it leaves the old model,
  or none, behind.  Where no HELLO meets another model in the cache, every
  sample is evaluated for the model that was announced last.
-/

import EcuTelemetry.Backend.IngestFrame
import EcuTelemetry.Backend.Overrides
import EcuTelemetry.Wire.Frame

namespace EcuTelemetry.Backend

open Proc Protocol

variable {F : Type}

/-! ## The last HELLO -/

def Note.hello? (dev : String) : Note → Option Hello
  | .received d (.known (.hello hello)) => if d = dev then some hello else none
  | _ => none

/-- The last HELLO of a device. -/
def lastHello (dev : String) (history : List Note) : Option Hello :=
  history.reverse.findSome? (Note.hello? dev)

theorem lastHello_append (dev : String) (history : List Note) (n : Note) :
    lastHello dev (history ++ [n]) = (n.hello? dev).or (lastHello dev history) := by
  rw [lastHello, List.reverse_append, List.reverse_singleton, List.singleton_append,
    List.findSome?_cons]
  cases n.hello? dev <;> rfl

namespace Ingest

variable [PyFloat F] [PyText F]

/-! ## The samples a run evaluates -/

/-- A call of `handle_telemetry`, with the state before. -/
structure TelemetryCall (F : Type) where
  hdr : Header
  t : Telemetry
  clock : Clock F
  state : Ingest F

/-- The start of `_handle_tcp` on a first frame. -/
def registerFirst (c : Nat) (f : Frame) : IngestM F Unit := do
  let s ← Proc.get
  match (s.conn c).deviceId with
  | none =>
    modifyConn c fun k => { k with deviceId := some f.deviceId }
    register f.deviceId c
  | some _ => pure ()

def sample? : Body → Option Telemetry
  | .known (.telemetry t) => some t
  | _ => none

/-- The call an event leads to, over UDP or over TCP. -/
def telemetryCall (s : Ingest F) : Event F → Option (TelemetryCall F)
  | .datagram data clock =>
    match Header.unpack data with
    | .error _ => none
    | .ok hdr =>
      match decode data with
      | .error _ => none
      | .ok frame => (sample? frame.payload).map fun t =>
        { hdr := frame.header, t := t, clock := clock, state := (st hdr.deviceId s).2 }
  | .frame c f clock =>
    if s.takes c f.deviceId then
      (sample? f.payload).map fun t =>
        { hdr := f.header, t := t, clock := clock,
          state := (note (.received f.deviceId f.payload) (registerFirst c f s).2).2 }
    else none
  | _ => none

omit [PyText F] in
/-- A sample is a telemetry payload. -/
theorem sample?_eq_some {body : Body} {t : Telemetry} (h : sample? body = some t) :
    body = .known (.telemetry t) := by
  cases body with
  | known p =>
    cases p with
    | telemetry t' => cases h; rfl
    | _ => cases h
  | _ => cases h

/-- The threshold rules on a sample, as the engine is about to evaluate them. -/
structure Evaluation (F : Type) where
  dev : String
  t : Dict String (Json F)
  cfg : Dict String (Json F)
  now : F
  clock : F
  loss : F
  engine : Engine F

end Ingest

namespace Engine

variable [PyFloat F] [PyText F]

/-- `on_telemetry` up to the thresholds. -/
def beforeThresholds (dev : String) : EngineM F (Dict String (Json F)) := do
  newSample
  let _ ← st dev
  configFor dev

/-- `on_telemetry` after the thresholds. -/
def afterThresholds (dev : String) (t : Dict String (Json F)) (now clock : F) (loss : Option F)
    (byThreshold : List (Json F)) : EngineM F (List (Json F)) := do
  let byFlag ← onFaultFlags dev t now clock
  let byRate ← onRates dev t now clock
  let byAnomaly ← onAnomaly dev t now clock
  onLoss dev loss now clock
  return byThreshold ++ byFlag ++ byRate ++ byAnomaly

/-- A sample after its configuration is looked up: the thresholds, then the rest. -/
theorem handle_telemetry {dev : String} {t : Dict String (Json F)} {now clock : F}
    {loss : Option F} {s s' : Engine F} {cfg : Dict String (Json F)}
    (h : beforeThresholds dev s = (.ok cfg, s')) :
    handle (.telemetry dev t now clock loss) s =
      (onThresholds dev t cfg now clock >>= afterThresholds dev t now clock loss) s' := by
  obtain ⟨s₁, hnew⟩ : ∃ s₁, newSample s = (.ok (), s₁) := ⟨_, rfl⟩
  obtain ⟨d, hd⟩ := noRaise_st dev s₁
  rw [beforeThresholds, bind_run_ok hnew, bind_run_ok (Prod.ext hd rfl)] at h
  rw [handle, bind_run_ok hnew, onTelemetry, bind_run_ok (Prod.ext hd rfl), bind_run_ok h]
  rfl

end Engine

namespace Ingest

variable [PyFloat F] [PyText F]

/-- The thresholds are reached unless the time of the header is no float. -/
def TelemetryCall.evaluation (call : TelemetryCall F) : Option (Evaluation F) :=
  let dev := call.hdr.deviceId
  match receiveTelemetry call.hdr call.clock call.state with
  | (.ok loss, s) =>
    match Engine.beforeThresholds dev s.engine with
    | (.ok cfg, engine) =>
      some { dev := dev, t := sample dev call.hdr call.t call.clock.now loss, cfg := cfg,
             now := call.clock.now, clock := call.clock.later, loss := loss, engine := engine }
    | _ => none
  | _ => none

/-- The rules are evaluated for the sender. -/
theorem TelemetryCall.evaluation_dev {call : TelemetryCall F} {v : Evaluation F}
    (h : call.evaluation = some v) : v.dev = call.hdr.deviceId := by
  rw [TelemetryCall.evaluation] at h
  split at h
  · split at h
    · cases h
      rfl
    · cases h
  · cases h

/-- The sample an event evaluates. -/
def evaluation (s : Ingest F) (e : Event F) : Option (Evaluation F) :=
  (s.telemetryCall e).bind TelemetryCall.evaluation

/-- The engine evaluates the thresholds. -/
def Evaluation.run (v : Evaluation F) : Except PyError (List (Json F)) × Engine F :=
  Engine.onThresholds v.dev v.t v.cfg v.now v.clock v.engine

/-- The thresholds for a device of the model. -/
def Evaluation.runFor (v : Evaluation F) (hw : String) :
    Except PyError (List (Json F)) × Engine F :=
  Engine.thresholdsFor v.dev hw v.t v.cfg v.now v.clock v.engine

/-- `handle_telemetry` evaluates the thresholds and then the rest. -/
theorem TelemetryCall.evaluation_run {call : TelemetryCall F} {v : Evaluation F}
    (h : call.evaluation = some v) :
    (handleTelemetry call.hdr call.t call.clock call.state).2.engine =
      ((Engine.onThresholds v.dev v.t v.cfg v.now v.clock >>=
        Engine.afterThresholds v.dev v.t v.now v.clock (some v.loss)) v.engine).2 := by
  rw [TelemetryCall.evaluation] at h
  rcases hreceive : receiveTelemetry call.hdr call.clock call.state with ⟨_ | loss, s⟩
  · rw [hreceive] at h
    cases h
  rw [hreceive] at h
  dsimp only at h
  rcases hbefore : Engine.beforeThresholds call.hdr.deviceId s.engine with ⟨_ | cfg, engine⟩
  · rw [hbefore] at h
    cases h
  rw [hbefore] at h
  cases h
  rw [handleTelemetry, bind_run_ok hreceive, engineDo, bind_pure_state]
  exact congrArg Prod.snd (Engine.handle_telemetry hbefore)

/-- A frame that is taken: registration, then dispatch. -/
theorem takeFrame_run {c : Nat} {f : Frame} {s : Ingest F} (h : s.takes c f.deviceId = true)
    (clock : Clock F) : takeFrame c f clock s = dispatch c f clock (registerFirst c f s).2 := by
  rw [takes, Bool.and_eq_true] at h
  rw [takeFrame, registerFirst, bind_run_ok (get_run s), bind_run_ok (get_run s)]
  rcases hconn : (s.conn c).deviceId with _ | dev
  · obtain ⟨s₁, hmodify⟩ : ∃ s₁, modifyConn c (fun k => { k with deviceId := some f.deviceId }) s =
      (.ok (), s₁) := ⟨_, rfl⟩
    obtain ⟨_, hregister⟩ := noRaise_register f.deviceId c s₁
    dsimp only
    rw [bind_run_ok hmodify, bind_run_ok (Prod.ext hregister rfl), bind_run_ok hmodify]
  · rw [hconn] at h
    have hdev : f.deviceId = dev := (of_decide_eq_true h.2).symm
    dsimp only
    rw [if_neg (not_not.mpr hdev)]
    rfl

/-- A frame that is taken, within the guard of the handler. -/
theorem onFrame_run {c : Nat} {f : Frame} {s : Ingest F} (h : s.takes c f.deviceId = true)
    (clock : Clock F) :
    onFrame c f clock s = guarded (some c) (takeFrame c f clock) s := by
  simp only [takes, Bool.and_eq_true, Bool.not_eq_true'] at h
  have hidle : ¬ ((s.conn c).ended || s.busy c) = true := by
    rw [h.1.1, h.1.2]
    exact Bool.false_ne_true
  rw [onFrame, bind_run_ok (get_run s), if_neg hidle]

/-- A frame that the handler does not take, or takes for another device. -/
theorem onFrame_of_not_takes {c : Nat} {f : Frame} {s : Ingest F}
    (h : ¬ s.takes c f.deviceId = true) (clock : Clock F) : (onFrame c f clock s).2 = s := by
  rw [onFrame, bind_run_ok (get_run s)]
  by_cases hbusy : ((s.conn c).ended || s.busy c) = true
  · rw [if_pos hbusy]
    rfl
  have hidle : (s.conn c).ended = false ∧ s.busy c = false := by simpa using hbusy
  simp only [takes, hidle.1, hidle.2, Bool.not_false, Bool.true_and] at h
  rw [if_neg hbusy, guarded, Proc.onError, takeFrame, bind_run_ok (get_run s)]
  rcases hconn : (s.conn c).deviceId with _ | dev
  · rw [hconn] at h
    exact absurd Option.all_none h
  · rw [hconn, Option.all_some, decide_eq_true_eq] at h
    dsimp only
    rw [if_pos fun hdev => h hdev.symm]
    rfl

/-- The engine is the same. -/
def SameEngine (s s' : Ingest F) : Prop := s'.engine = s.engine

omit [PyFloat F] [PyText F] in
instance : IsPreorder (Ingest F) (SameEngine (F := F)) where
  refl _ := rfl
  trans _ _ _ h h' := Eq.trans h' h

omit [PyFloat F] [PyText F] in
theorem keeps_sameEngine_modifySt (dev : String) (f : DeviceStats F → DeviceStats F) :
    Keeps SameEngine (modifySt dev f) := by
  refine Keeps.bind (fun s => ?_) fun _ => Keeps.modify fun _ => rfl
  rw [st]
  split <;> rfl

omit [PyFloat F] [PyText F] in
theorem keeps_sameEngine_endHandler (c : Nat) : Keeps SameEngine (endHandler (F := F) c) := by
  refine Keeps.get.bind fun s => Keeps.bind (Keeps.modify fun _ => rfl) fun _ => ?_
  split
  · exact Keeps.pure ()
  · exact Keeps.bind (Keeps.modify fun _ => rfl) fun _ => keeps_sameEngine_modifySt _ _

omit [PyFloat F] [PyText F] in
/-- The guard does not touch the engine. -/
theorem guarded_engine (c : Option Nat) (m : IngestM F Unit) (s : Ingest F) :
    (guarded c m s).2.engine = (m s).2.engine := by
  cases c with
  | none => rfl
  | some c =>
    rw [guarded, Proc.onError]
    rcases m s with ⟨_ | _, s'⟩
    · exact keeps_sameEngine_endHandler c s'
    · rfl

theorem dispatch_telemetry {c : Nat} {f : Frame} {clock : Clock F} {t : Telemetry} {s : Ingest F}
    (h : f.payload = .known (.telemetry t)) :
    dispatch c f clock s =
      handleTelemetry f.header t clock (note (.received f.deviceId f.payload) s).2 := by
  rw [dispatch, bind_run_ok (note_run _ s), h]
  rfl

/-- What an event does to the engine when it evaluates a sample. -/
theorem step_evaluation {s : Ingest F} {e : Event F} {v : Evaluation F}
    (h : s.evaluation e = some v) :
    (step s e).engine =
      ((Engine.onThresholds v.dev v.t v.cfg v.now v.clock >>=
        Engine.afterThresholds v.dev v.t v.now v.clock (some v.loss)) v.engine).2 := by
  obtain ⟨call, hcall, hv⟩ := Option.bind_eq_some_iff.mp h
  rw [← call.evaluation_run hv]
  -- only a datagram and a frame can be telemetry
  cases e with
  | datagram data clock =>
    rw [telemetryCall] at hcall
    rw [step, handle, onDatagram]
    rcases hunpack : Header.unpack data with e | hdr
    · rw [hunpack] at hcall
      cases hcall
    obtain ⟨r, hr⟩ := noRaise_st hdr.deviceId s
    rw [hunpack] at hcall
    dsimp only at hcall ⊢
    rw [bind_run_ok (Prod.ext hr rfl)]
    rcases hdecode : decode data with e | f
    · rw [hdecode] at hcall
      cases hcall
    rw [hdecode] at hcall
    obtain ⟨t, ht, rfl⟩ := Option.map_eq_some_iff.mp hcall
    dsimp only
    rw [sample?_eq_some ht]
  | frame c f clock =>
    rw [telemetryCall] at hcall
    by_cases htakes : s.takes c f.deviceId = true
    · rw [if_pos htakes] at hcall
      rw [step, handle, onFrame_run htakes, guarded_engine, takeFrame_run htakes]
      obtain ⟨t, ht, rfl⟩ := Option.map_eq_some_iff.mp hcall
      rw [dispatch_telemetry (sample?_eq_some ht)]
    · rw [if_neg htakes] at hcall
      cases hcall
  | _ => cases hcall

/-! ## What brings no model -/

/-- The models stay, and no HELLO is received. -/
def ModelsKept (s s' : Ingest F) : Prop :=
  s.engine.ModelsKept s'.engine ∧ ∀ dev, lastHello dev s'.history = lastHello dev s.history

omit [PyFloat F] [PyText F] in
instance : IsPreorder (Ingest F) (ModelsKept (F := F)) where
  refl s := ⟨refl_of Engine.ModelsKept s.engine, fun _ => rfl⟩
  trans _ _ _ h h' := ⟨trans_of Engine.ModelsKept h.1 h'.1, fun dev => (h'.2 dev).trans (h.2 dev)⟩

theorem models_modifyDb {f : Database F → Database F}
    (h : ∀ (db : Database F) dev, (f db).model dev = db.model dev) :
    Keeps ModelsKept (modifyDb f) := fun s =>
  ⟨.of_eq (fun dev => congrArg (Option.getD · "") (h s.db dev)) rfl, fun _ => rfl⟩

/-- No statement about one device changes the models. -/
theorem sideFrame_models : SideFrame (ModelsKept (F := F)) where
  memory s s' hengine _ hhistory :=
    ⟨hengine ▸ refl_of Engine.ModelsKept s.engine, fun dev => by rw [hhistory]⟩
  engineDo e he := by
    refine Keeps.bind (Keeps.zoom (Engine.keeps_modelsKept_handle he) fun s engine h => ?_)
      fun _ => Keeps.pure ()
    exact ⟨h, fun _ => rfl⟩
  write f hf := models_modifyDb fun db => (hf db).model

omit [PyFloat F] [PyText F] in
theorem models_note {n : Note} (hn : ∀ dev, n.hello? dev = none) :
    Keeps ModelsKept (note (F := F) n) := by
  refine Keeps.modify fun s => ⟨refl_of Engine.ModelsKept s.engine, fun dev => ?_⟩
  rw [lastHello_append, hn, Option.none_or]

omit [PyFloat F] [PyText F] in
theorem models_suspend (task : Waiting) : Keeps ModelsKept (suspend (F := F) task) :=
  Keeps.modify fun s => refl_of ModelsKept s

theorem models_pushConfig (dev : String) (cfg : ConfigRow F) (clock : Clock F) :
    Keeps ModelsKept (pushConfig dev cfg clock) :=
  (models_note fun _ => rfl).bind fun _ => (Keeps.ofExcept _).bind fun _ =>
    sideFrame_models.write' dev _ clock

theorem models_pushConfigDone (dev : String) (version : Nat) (ok : Bool) :
    Keeps ModelsKept (pushConfigDone (F := F) dev version ok) := by
  refine Keeps.bind ?_ fun _ => sideFrame_models.engineDo _ nofun
  exact models_modifyDb fun _ _ => rfl

/-- The job of a HELLO. -/
theorem models_afterHelloJob (c : Nat) (dev : String) (hello : Hello) (clock : Clock F) :
    Keeps ModelsKept (afterHelloJob c dev hello clock) := by
  refine Keeps.get.bind fun s => ?_
  split
  · exact Keeps.pure ()
  · refine Keeps.ite (fun _ => Keeps.pure ()) fun _ => Keeps.ite (fun _ => ?_) fun _ =>
      Keeps.ite (fun _ => ?_) fun _ => Keeps.pure ()
    · exact models_modifyDb fun _ _ => rfl
    · split
      · exact Keeps.pure ()
      · exact (sideFrame_models.write' dev _ clock).bind fun _ =>
          Keeps.ite (fun _ => models_suspend _) fun _ => Keeps.pure ()

/-- All that follows a HELLO. -/
theorem models_afterHello (c : Nat) (dev : String) (hello : Hello) (clock : Clock F) :
    Keeps ModelsKept (afterHello c dev hello clock) := by
  refine Keeps.get.bind fun s => ?_
  split
  · exact models_afterHelloJob c dev hello clock
  · refine (models_pushConfig dev _ clock).bind fun _ => Keeps.ite (fun _ => models_suspend _)
      fun _ => ?_
    exact (models_pushConfigDone dev _ _).bind fun _ => models_afterHelloJob c dev hello clock

/-- What a drain leaves to do. -/
theorem models_goOn (task : Waiting) (ok : Bool) (clock : Clock F) :
    Keeps ModelsKept (goOn task ok clock) := by
  cases task with
  | helloConfig c dev hello version =>
    exact (models_pushConfigDone dev version ok).bind fun _ =>
      models_afterHelloJob c dev hello clock
  | helloFw c => exact Keeps.pure ()
  | putConfig dev version => exact models_pushConfigDone dev version ok
  | deploy jid => exact models_modifyDb fun _ _ => rfl

theorem models_guarded (c : Option Nat) {m : IngestM F Unit} (hm : Keeps ModelsKept m) :
    Keeps ModelsKept (guarded c m) := by
  cases c with
  | none => exact hm
  | some c => exact Keeps.onError hm (sideFrame_models.endHandler c)

theorem models_onDrained (i : Nat) (ok : Bool) (clock : Clock F) :
    Keeps ModelsKept (onDrained i ok clock) := by
  refine Keeps.get.bind fun s => ?_
  split
  · exact Keeps.pure ()
  · exact Keeps.bind (Keeps.modify fun s => refl_of ModelsKept s) fun _ =>
      models_guarded _ (models_goOn _ ok clock)

/-- A request for a new configuration. -/
theorem models_putConfig (dev : String) (body : ConfigBody) (clock : Clock F) :
    Keeps ModelsKept (putConfig dev body clock) := by
  refine Keeps.get.bind fun s => ?_
  split
  · exact Keeps.pure ()
  · refine Keeps.bind ?_ fun _ => Keeps.get.bind fun s => ?_
    · exact Keeps.get.bind fun s => Keeps.ite (fun _ => models_modifyDb fun _ _ => rfl)
        fun _ => Keeps.raise _
    · split
      · exact Keeps.raise _
      · exact (models_pushConfig dev _ clock).bind fun _ =>
          Keeps.ite (fun _ => models_suspend _) fun _ => models_pushConfigDone dev _ _

/-- A deploy. -/
theorem models_firmwareDeploy (dev version : String) (clock : Clock F) :
    Keeps ModelsKept (firmwareDeploy dev version clock) := by
  refine Keeps.get.bind fun s => ?_
  split
  · refine Keeps.bind (models_modifyDb fun _ _ => rfl) fun _ => ?_
    refine Keeps.bind (models_note fun _ => rfl) fun _ => ?_
    exact (sideFrame_models.write' dev _ clock).bind fun _ =>
      Keeps.ite (fun _ => models_suspend _) fun _ => models_modifyDb fun _ _ => rfl
  · exact Keeps.pure ()

theorem models_restart : Keeps ModelsKept (restart (F := F)) := by
  refine Keeps.bind (sideFrame_models.engineDo _ nofun) fun _ => Keeps.modify fun s => ?_
  exact ⟨refl_of Engine.ModelsKept s.engine, fun _ => rfl⟩

/-- A frame other than a HELLO. -/
theorem models_dispatch (c : Nat) {f : Frame} (hf : ∀ hello, f.payload ≠ .known (.hello hello))
    (clock : Clock F) : Keeps ModelsKept (dispatch c f clock) := by
  -- the fields that these handlers write are not the model
  have hupsert : ∀ lastSeen (fields : DeviceRow F → DeviceRow F),
      (∀ d, (fields d).deviceId = d.deviceId ∧ (fields d).hwModel = d.hwModel) →
      Keeps ModelsKept (modifyDb fun db => db.upsertDevice f.deviceId lastSeen fields) :=
    fun _ _ hfields => models_modifyDb fun db =>
      (Database.Beside.upsertDevice db f.deviceId _ hfields).model
  have hnote : ∀ dev, (Note.received f.deviceId f.payload).hello? dev = none := by
    intro dev
    rw [Note.hello?.eq_def]
    -- the handlers in the order of the source, without that of HELLO
    split
    · next h =>
      rw [Note.received.injEq] at h
      exact absurd h.2 (hf _)
    · rfl
  refine (models_note hnote).bind fun _ => ?_
  split
  · next hello hp => exact absurd hp (hf hello)
  · refine Keeps.bind (hupsert _ _ ?_) fun _ => sideFrame_models.seen _ _
    exact fun _ => ⟨rfl, rfl⟩
  · refine Keeps.bind (Keeps.ite (fun _ => Keeps.pure ()) fun _ => Keeps.raise _) fun _ => ?_
    exact sideFrame_models.seen _ _
  · refine Keeps.bind (models_modifyDb fun _ _ => rfl) fun _ => Keeps.ite (fun _ => ?_) fun _ => ?_
    · refine Keeps.bind (hupsert _ _ ?_) fun _ => sideFrame_models.engineDo _ nofun
      exact fun _ => ⟨rfl, rfl⟩
    · exact sideFrame_models.engineDo _ nofun
  · refine Keeps.get.bind fun s => ?_
    split
    · exact Keeps.pure ()
    · exact models_modifyDb fun _ _ => rfl
  · exact models_modifyDb fun db => (Database.Beside.faultInjectionAck db f.deviceId _).model
  · exact sideFrame_models.handleTelemetry _ _ _
  · exact Keeps.pure ()

/-! ## HELLO -/

/-- The engine knows every device by the model of its last HELLO. -/
structure KnowsModels (s : Ingest F) : Prop where
  distinct : Dict.Distinct s.engine.hwCache
  known : ∀ dev hello, lastHello dev s.history = some hello →
    s.engine.KnowsModel dev hello.hwModel

/-- The HELLO that the event brings, if any, finds no other model cached. -/
def HelloFresh (s : Ingest F) (e : Event F) : Prop :=
  match s.label e with
  | .received _ dev (.known (.hello hello)) =>
    ∀ m, Dict.get? s.engine.hwCache dev = some m → m = hello.hwModel
  | _ => True

omit [PyFloat F] [PyText F] in
theorem HelloFresh.of_label {s : Ingest F} {e : Event F} {c : Nat} {dev : String} {hello : Hello}
    (h : s.HelloFresh e) (hlabel : s.label e = .received c dev (.known (.hello hello))) :
    ∀ m, Dict.get? s.engine.hwCache dev = some m → m = hello.hwModel := by
  rw [HelloFresh, hlabel] at h
  exact h

omit [PyFloat F] [PyText F] in
theorem KnowsModels.kept {s s' : Ingest F} (hk : KnowsModels s) (h : ModelsKept s s') :
    KnowsModels s' := by
  refine ⟨h.1.distinct hk.distinct, fun dev hello hlast => ?_⟩
  rw [h.2 dev] at hlast
  exact (hk.known dev hello hlast).kept h.1

omit [PyText F] in
theorem models_registerFirst (c : Nat) (f : Frame) [PyText F] :
    Keeps ModelsKept (registerFirst (F := F) c f) := by
  refine Keeps.get.bind fun s => ?_
  split
  · exact (sideFrame_models.modifyConn c _).bind fun _ => sideFrame_models.register _ c
  · exact Keeps.pure ()

omit [PyText F] in
/-- A registration does not touch the engine. -/
theorem keeps_sameEngine_registerFirst (c : Nat) (f : Frame) :
    Keeps SameEngine (registerFirst (F := F) c f) := by
  refine Keeps.get.bind fun s => ?_
  split
  · refine Keeps.bind (Keeps.modify fun _ => rfl) fun _ => Keeps.get.bind fun s => ?_
    refine Keeps.bind ?_ fun _ => (keeps_sameEngine_modifySt _ _).bind fun _ =>
      Keeps.modify fun _ => rfl
    cases (Dict.get? s.writers f.deviceId).filter (· ≠ c) with
    | none => exact Keeps.pure ()
    | some c => exact Keeps.modify fun _ => rfl
  · exact Keeps.pure ()

/-- A HELLO brings its model into the database; the cache holds no other. -/
theorem dispatch_hello {c : Nat} {f : Frame} {hello : Hello} (clock : Clock F) {s : Ingest F}
    (hp : f.payload = .known (.hello hello)) (hk : KnowsModels s)
    (hfresh : ∀ m, Dict.get? s.engine.hwCache f.deviceId = some m → m = hello.hwModel) :
    KnowsModels (dispatch c f clock s).2 := by
  rw [dispatch, bind_run_ok (note_run _ s), hp]
  obtain ⟨fields, hfields⟩ : ∃ fields : DeviceRow F → DeviceRow F, fields = fun d =>
      { d with hwModel := some hello.hwModel, fwVersion := some hello.fwString,
               fwVersionU32 := some f.header.fwVersion,
               reportedConfigVersion := hello.configVersion } := ⟨_, rfl⟩
  have hid : ∀ d, (fields d).deviceId = d.deviceId := by
    rw [hfields]
    exact fun _ => rfl
  dsimp only
  rw [← hfields]
  obtain ⟨s₁, hs₁⟩ : ∃ s₁ : Ingest F, s₁ =
      { s with history := s.history ++ [.received f.deviceId (.known (.hello hello))] } := ⟨_, rfl⟩
  -- the device row takes the model, the cache stays as it is
  obtain ⟨s₂, hrun, hcache, hhistory, hmodel⟩ : ∃ s₂ : Ingest F,
      modifyDb (fun db => db.upsertDevice f.deviceId clock.now fields) s₁ = (.ok (), s₂) ∧
      s₂.engine.hwCache = s₁.engine.hwCache ∧ s₂.history = s₁.history ∧
      ∀ dev, s₂.engine.hwModel dev =
        ((s₁.db.upsertDevice f.deviceId clock.now fields).model dev).getD "" :=
    ⟨_, rfl, rfl, rfl, fun _ => rfl⟩
  rw [← hs₁, bind_run_ok hrun]
  -- what the cache holds is that model, by `hfresh`
  have hk₂ : KnowsModels s₂ := by
    refine ⟨by rw [hcache, hs₁]; exact hk.distinct, fun dev hello' hlast => ?_⟩
    rw [hhistory, hs₁, lastHello_append, Note.hello?] at hlast
    have hrow := Database.getDevice_upsertDevice s₁.db f.deviceId dev clock.now hid
    by_cases hdev : f.deviceId = dev
    · -- the device that says HELLO
      subst hdev
      rw [if_pos rfl, Option.some_or] at hlast
      cases hlast
      refine ⟨by rw [hcache, hs₁]; exact hk.distinct, ?_, by rw [hcache, hs₁]; exact hfresh⟩
      rw [hmodel, Database.model, hrow, if_pos rfl, hfields]
      rfl
    · rw [if_neg hdev, Option.none_or] at hlast
      have hknown := hk.known dev hello' hlast
      refine ⟨by rw [hcache, hs₁]; exact hk.distinct, ?_, by rw [hcache, hs₁]; exact hknown.cached⟩
      rw [hmodel, Database.model, hrow, if_neg hdev, hs₁]
      exact hknown.model
  exact hk₂.kept (((sideFrame_models.seen _ _).bind fun _ => models_afterHello c _ hello clock) s₂)

/-- What a failed handler does at its end brings no model. -/
theorem models_onError (c : Nat) (m : IngestM F Unit) (s : Ingest F) :
    ModelsKept (m s).2 (guarded (some c) m s).2 := by
  rw [guarded, Proc.onError]
  rcases m s with ⟨_ | _, s'⟩
  · exact sideFrame_models.endHandler c s'
  · exact refl_of ModelsKept s'

/-- A frame: a HELLO brings its model, any other keeps them. -/
theorem onFrame_knowsModels {c : Nat} {f : Frame} {clock : Clock F} {s : Ingest F}
    (hfresh : s.HelloFresh (.frame c f clock)) (hk : KnowsModels s) :
    KnowsModels (onFrame c f clock s).2 := by
  by_cases htakes : s.takes c f.deviceId = true
  · rw [onFrame_run htakes]
    refine KnowsModels.kept ?_ (models_onError c _ s)
    rw [takeFrame_run htakes]
    have hlabel : s.label (.frame c f clock) = .received c f.deviceId f.payload := if_pos htakes
    have hfirst := hk.kept (models_registerFirst c f s)
    by_cases hhello : ∃ hello, f.payload = .known (.hello hello)
    · obtain ⟨hello, hp⟩ := hhello
      refine dispatch_hello clock hp hfirst ?_
      rw [show (registerFirst c f s).2.engine = s.engine from keeps_sameEngine_registerFirst c f s]
      exact hfresh.of_label (hp ▸ hlabel)
    · exact hfirst.kept (models_dispatch c (fun hello hp => hhello ⟨hello, hp⟩) clock _)
  · rw [onFrame_of_not_takes htakes]
    exact hk

/-- One event. -/
theorem step_knowsModels {s : Ingest F} {e : Event F} (hfresh : s.HelloFresh e)
    (hk : KnowsModels s) : KnowsModels (step s e) := by
  -- no other event writes a model, which `ModelsKept` says
  have hkept : ∀ m : IngestM F Unit, Keeps ModelsKept m → KnowsModels (m s).2 :=
    fun m hm => hk.kept (hm s)
  cases e with
  | datagram data clock => exact hkept _ (sideFrame_models.onDatagram data clock)
  | frame c f clock => exact onFrame_knowsModels hfresh hk
  | lost c => exact hkept _ (sideFrame_models.modifyConn c _)
  | ended c =>
    refine hkept _ (Keeps.get.bind fun s' => Keeps.ite (fun _ => Keeps.pure ()) fun _ => ?_)
    exact sideFrame_models.endHandler c
  | drained i ok clock => exact hkept _ (models_onDrained i ok clock)
  | offlinePass clock => exact hkept _ (sideFrame_models.offlinePass clock)
  | persistStats => exact hkept _ sideFrame_models.persistStats
  | tick now clock => exact hkept _ (sideFrame_models.engineDo _ nofun)
  | restart => exact hkept _ models_restart
  | deviceView dev => exact hkept _ (sideFrame_models.deviceView dev)
  | devices =>
    refine hkept _ (Keeps.get.bind fun s' => Keeps.forEach fun d _ => ?_)
    exact sideFrame_models.deviceView d.deviceId
  | putConfig dev body clock => exact hkept _ (models_putConfig dev body clock)
  | firmwareAdd body clock => exact hkept _ (sideFrame_models.firmwareAdd body clock)
  | firmwareDeploy dev version clock => exact hkept _ (models_firmwareDeploy dev version clock)
  | faultInject dev body clock => exact hkept _ (sideFrame_models.faultInject dev body clock)
  | deviceCmd dev body clock => exact hkept _ (sideFrame_models.deviceCmd dev body clock)
  | ackAlert aid clock => exact hkept _ (sideFrame_models.engineDo _ nofun)
  | putRules rules => exact hkept _ (sideFrame_models.engineDo _ nofun)

/-! ## Results -/

/-- A sample that is evaluated next is evaluated for the model of the last HELLO. -/
def OverridesRight (s : Ingest F) : Prop :=
  ∀ e v hello, s.evaluation e = some v → lastHello v.dev s.history = some hello →
    ∃ c, v.run = ((v.runFor hello.hwModel).1, (v.runFor hello.hwModel).2.withCache c)

/-- A sample that is evaluated next, by the same rules and with the same config,
    opens the same threshold alerts. -/
def SameThresholds (s s' : Ingest F) : Prop :=
  ∀ e e' v v' hello hello', s.evaluation e = some v → s'.evaluation e' = some v' →
    lastHello v.dev s.history = some hello → lastHello v'.dev s'.history = some hello' →
    v'.dev = v.dev → hello'.hwModel = hello.hwModel → v'.t = v.t → v'.cfg = v.cfg →
    v'.engine.rules = v.engine.rules →
    ∀ names names', v.run.1 = .ok names → v'.run.1 = .ok names' → names' = names ∧
      ∀ name ∈ names, Engine.Fired v.dev name v.run.2 ∧ Engine.Fired v.dev name v'.run.2

/-- The model is still known where the thresholds are evaluated. -/
theorem KnowsModels.evaluation {s : Ingest F} (hk : KnowsModels s) {e : Event F}
    {v : Evaluation F} {hello : Hello} (hv : s.evaluation e = some v)
    (hlast : lastHello v.dev s.history = some hello) :
    v.engine.KnowsModel v.dev hello.hwModel := by
  obtain ⟨call, hcall, hv⟩ := Option.bind_eq_some_iff.mp hv
  -- the statements before `handle_telemetry` keep the models
  have hstate : ModelsKept s call.state := by
    cases e with
    | datagram data clock =>
      rw [telemetryCall] at hcall
      split at hcall
      · cases hcall
      · split at hcall
        · cases hcall
        · obtain ⟨t, ht, rfl⟩ := Option.map_eq_some_iff.mp hcall
          exact sideFrame_models.st _ s
    | frame c f clock =>
      rw [telemetryCall] at hcall
      split at hcall
      · obtain ⟨t, ht, rfl⟩ := Option.map_eq_some_iff.mp hcall
        refine trans_of ModelsKept (models_registerFirst c f s) (models_note (fun dev => ?_) _)
        rw [sample?_eq_some ht]
        rfl
      · cases hcall
    | _ => cases hcall
  have hreceived := sideFrame_models.receiveTelemetry call.hdr call.clock call.state
  rw [TelemetryCall.evaluation] at hv
  rcases hreceive : receiveTelemetry call.hdr call.clock call.state with ⟨_ | loss, s'⟩
  · rw [hreceive] at hv
    cases hv
  rw [hreceive] at hv hreceived
  dsimp only at hv
  -- and so do those of the engine before its thresholds
  have hbefore : Keeps Engine.SampleKept (Engine.beforeThresholds (F := F) call.hdr.deviceId) := by
    have hframe := Engine.sampleFrame_kept (F := F) call.hdr.deviceId (PyFloat.ofRat 0)
      (PyFloat.ofRat 0)
    refine Keeps.bind (Keeps.modify fun _ => ⟨rfl, .of_eq (fun _ => rfl) rfl⟩) fun _ => ?_
    exact hframe.st.bind fun _ => hframe.configFor
  have hengine := hbefore s'.engine
  rcases hrun : Engine.beforeThresholds call.hdr.deviceId s'.engine with ⟨_ | cfg, engine⟩
  · rw [hrun] at hv
    cases hv
  rw [hrun] at hv hengine
  cases hv
  exact (((hk.known _ hello hlast).kept hstate.1).kept hreceived.1).kept hengine.2

theorem KnowsModels.overridesRight {s : Ingest F} (hk : KnowsModels s) : OverridesRight s :=
  fun _ v _ hv hlast => Engine.onThresholds_knows (hk.evaluation hv hlast) v.t v.cfg v.now v.clock

/-- The thresholds of two states that know the same models are the same. -/
theorem KnowsModels.sameThresholds {s s' : Ingest F} (hk : KnowsModels s) (hk' : KnowsModels s') :
    SameThresholds s s' := by
  intro e e' v v' hello hello' hv hv' hlast hlast' hdev hmodel ht hcfg hrules names names' hn hn'
  obtain ⟨c, hrun⟩ := hk.overridesRight e v hello hv hlast
  obtain ⟨c', hrun'⟩ := hk'.overridesRight e' v' hello' hv' hlast'
  have hsame : names' = names := by
    rw [hrun] at hn
    rw [hrun'] at hn'
    obtain ⟨rules, hiter, rfl⟩ := Engine.thresholdsFor_fired hn
    obtain ⟨rules', hiter', rfl⟩ := Engine.thresholdsFor_fired hn'
    rw [hrules, hiter] at hiter'
    cases hiter'
    rw [hdev, hmodel, ht, hcfg]
  -- what a run returns has an open alert after it
  have hfired : ∀ (v : Evaluation F) names, v.run.1 = .ok names →
      ∀ name ∈ names, Engine.Fired v.dev name v.run.2 := by
    intro v names hn
    have htriple : Engine.Fires v.dev (Engine.onThresholds v.dev v.t v.cfg v.now v.clock) :=
      Engine.Fires.onThresholds v.t v.cfg v.now v.clock
    have hfires := htriple v.engine trivial
    rw [show Engine.onThresholds v.dev v.t v.cfg v.now v.clock v.engine = v.run from rfl,
      show v.run = (.ok names, v.run.2) from Prod.ext hn rfl] at hfires
    exact hfires
  refine ⟨hsame, fun name hname => ⟨hfired v names hn name hname, ?_⟩⟩
  exact hdev ▸ hfired v' names' hn' name (hsame ▸ hname)

/-- In runs where no HELLO finds another model cached, samples are evaluated for
    the model of the last HELLO, and what came before it makes no difference. -/
theorem runs_overridesRight {events events' : List (Event F)}
    (h : AllSteps step HelloFresh (load (Engine.init {})) events)
    (h' : AllSteps step HelloFresh (load (Engine.init {})) events') :
    OverridesRight (run events) ∧ SameThresholds (run events) (run events') := by
  have hinit : KnowsModels (load (Engine.init ({} : Database F))) :=
    ⟨List.nodup_nil, fun _ _ hlast => by cases hlast⟩
  have hrun : ∀ es : List (Event F),
      AllSteps step HelloFresh (load (Engine.init {})) es → KnowsModels (run es) :=
    fun es hes => hes.invariant (fun _ _ hfresh hk => step_knowsModels hfresh hk) hinit
  exact ⟨(hrun events h).overridesRight, (hrun events h).sameThresholds (hrun events' h')⟩

/-! ## Two orders -/

instance (s : Ingest F) (e : Event F) : Decidable (s.HelloFresh e) := by
  rw [HelloFresh]
  split
  · next dev hello _ =>
    exact decidable_of_iff ((Dict.get? s.engine.hwCache dev).all (· = hello.hwModel) = true) (by
      rcases Dict.get? s.engine.hwCache dev with _ | m <;> simp)
  · exact instDecidableTrue

/-- A sample of a device at rest. -/
def restingAt (volts : Nat) : Telemetry :=
  { rpm := F64.ofNat 0, tempC := F64.ofNat 20, currentA := F64.ofNat 1,
    voltageV := F64.ofNat volts, vibrationG := F64.ofNat 0, speedKph := F64.ofNat 0,
    lat := F64.ofNat 0, lon := F64.ofNat 0, faultFlags := 0, state := 1 }

def restingBytes (volts : Nat) : List Byte := (restingAt volts).pack.toOption.getD []

def restingHeader (volts seq t : Nat) : Header :=
  { msgType := MsgType.TELEMETRY, deviceId := cstr (pad "ECU-1" 12), seq := seq, tsMs := 1000 * t,
    fwVersion := 0, payloadLen := (restingBytes volts).length }

/-- The sample over UDP. -/
def restingSample (volts seq t : Nat) : Event ℚ :=
  .datagram (Wire.framed
    (Wire.layout MsgType.TELEMETRY (pad "ECU-1" 12) seq (1000 * t) 0 (restingBytes volts)))
    (.stopped t)

section Resting

variable {volts seq t : Nat}

/-- The bytes are those of the sample. -/
def Resting (volts seq t : Nat) : Prop :=
  (Body.unpack MsgType.TELEMETRY (restingBytes volts)).toOption =
    some (.known (.telemetry (restingAt volts))) ∧
  (restingBytes volts).length ≤ MAX_PAYLOAD ∧ seq < 2 ^ 32 ∧ 1000 * t < 2 ^ 64

instance : Decidable (Resting volts seq t) := by
  rw [Resting]
  infer_instance

/-- The bytes of a sample decode to it. -/
theorem Resting.decode (h : Resting volts seq t) :
    ∃ raw, Protocol.decode (Wire.framed
      (Wire.layout MsgType.TELEMETRY (pad "ECU-1" 12) seq (1000 * t) 0 (restingBytes volts))) =
        .ok { header := restingHeader volts seq t, payload := .known (.telemetry (restingAt volts)),
              raw := raw } := by
  obtain ⟨hunpack, hlen, hseq, ht⟩ := h
  have hbody : Body.unpack MsgType.TELEMETRY (restingBytes volts) =
      .ok (.known (.telemetry (restingAt volts))) := by
    rcases hr : Body.unpack MsgType.TELEMETRY (restingBytes volts) with e | body
    · rw [hr] at hunpack
      cases hunpack
    · rw [hr] at hunpack
      exact congrArg Except.ok (Option.some.inj hunpack)
  have hdecode := @Wire.decode_framed MsgType.TELEMETRY seq (1000 * t) 0 (pad "ECU-1" 12)
    (restingBytes volts) (by decide) hlen (by decide) hseq ht (by decide)
  rw [hbody] at hdecode
  exact ⟨_, hdecode⟩

/-- The call the sample leads to. -/
def restingCall (volts seq t : Nat) (s : Ingest ℚ) : TelemetryCall ℚ :=
  { hdr := restingHeader volts seq t, t := restingAt volts, clock := .stopped t,
    state := (st (cstr (pad "ECU-1" 12)) s).2 }

theorem Resting.telemetryCall (h : Resting volts seq t) (s : Ingest ℚ) :
    s.telemetryCall (restingSample volts seq t) = some (restingCall volts seq t s) := by
  obtain ⟨raw, hdecode⟩ := h.decode
  have hunpack := (decode_eq_ok hdecode).1
  rw [restingSample, Ingest.telemetryCall, hunpack, hdecode]
  rfl

/-- The datagram is handled as telemetry. -/
theorem Resting.step (h : Resting volts seq t) (s : Ingest ℚ) :
    Ingest.step s (restingSample volts seq t) =
      (handleTelemetry (restingHeader volts seq t) (restingAt volts) (.stopped t)
        (st (cstr (pad "ECU-1" 12)) s).2).2 := by
  obtain ⟨raw, hdecode⟩ := h.decode
  have hunpack := (decode_eq_ok hdecode).1
  obtain ⟨r, hr⟩ := noRaise_st (cstr (pad "ECU-1" 12)) s
  rw [Ingest.step, restingSample, Ingest.handle, onDatagram, hunpack]
  dsimp only
  rw [hdecode, restingHeader, bind_run_ok (Prod.ext hr rfl)]

end Resting

/-- The HELLO of a model whose supply is 5 V. -/
def orinHello (t : Nat) : Event ℚ :=
  .frame 0 (frameOf "ECU-1" (.hello { fwString := "1.0.0", hwModel := "ORIN-NANO",
                                      telemetryHz := 10, configVersion := 1 })) (.stopped t)

/-- How many threshold rules are true on the sample a call evaluates, and how
    many for the announced model. -/
def firedCounts (call : TelemetryCall ℚ) : Option (Option Nat × Option Nat) :=
  call.evaluation.map fun v =>
    (v.run.1.toOption.map List.length, (v.runFor "ORIN-NANO").1.toOption.map List.length)

/-- First the HELLO, then a sample. -/
def helloFirst : List (Event ℚ) := [orinHello 1, restingSample 100 1 2]

/-- First the sample, which finds no model; then the HELLO. -/
def sampleFirst : List (Event ℚ) := [restingSample 100 1 1, orinHello 2]

/-- With the HELLO before the first sample the thresholds are those of the model. -/
theorem helloFirst_overridesRight :
    (OverridesRight (run helloFirst) ∧ SameThresholds (run helloFirst) (run [orinHello 1])) ∧
      (run (helloFirst ++ [restingSample 5 2 3])).db.alerts.map AlertRow.rule = [] := by
  refine ⟨runs_overridesRight (by decide +kernel) (by decide +kernel), ?_⟩
  have h100 : Resting 100 1 2 := by decide +kernel
  have h5 : Resting 5 2 3 := by decide +kernel
  rw [run, exec_append]
  simp only [helloFirst, exec_cons, exec_nil, h100.step, h5.step]
  decide +kernel

/-- 5 V are low for the rule, not for its override. -/
theorem sampleFirst_not_overridesRight :
    ¬ OverridesRight (run sampleFirst) ∧
      (run (sampleFirst ++ [restingSample 5 2 3])).db.alerts.map AlertRow.rule =
        [some "voltage_low"] := by
  have h100 : Resting 100 1 1 := by decide +kernel
  have h5 : Resting 5 2 3 := by decide +kernel
  constructor
  · intro h
    -- the voltage rule fires, and would not for the announced model
    have hcounts : (firedCounts (restingCall 5 2 3 (run sampleFirst))) = some (some 1, some 0) := by
      rw [run, sampleFirst, exec_cons, h100.step]
      decide +kernel
    obtain ⟨v, hv, hcounts⟩ := Option.map_eq_some_iff.mp hcounts
    have hlast : lastHello v.dev (run sampleFirst).history =
        some { fwString := "1.0.0", hwModel := "ORIN-NANO", telemetryHz := 10,
               configVersion := 1 } := by
      rw [TelemetryCall.evaluation_dev hv, run, sampleFirst, exec_cons, h100.step]
      decide +kernel
    obtain ⟨c, hrun⟩ := h (restingSample 5 2 3) v _
      (Option.bind_eq_some_iff.mpr ⟨_, h5.telemetryCall _, hv⟩) hlast
    rw [hrun, Prod.mk.injEq] at hcounts
    exact absurd (hcounts.1.symm.trans hcounts.2) (by decide)
  · rw [run, exec_append]
    simp only [sampleFirst, exec_cons, exec_nil, h100.step, h5.step]
    decide +kernel

end Ingest

end EcuTelemetry.Backend
