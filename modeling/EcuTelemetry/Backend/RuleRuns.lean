/-
  EcuTelemetry.Backend.RuleRuns

  Runs of the backend.  While every document that is put can be evaluated, no
  sample and no tick raises, whatever else happens: other requests, connections,
  restarts.  A document with a window of zero is accepted as well, is stored, and
  from then on every sample of every device raises.
-/

import EcuTelemetry.Backend.DeviceFrame
import EcuTelemetry.Backend.RealFloat
import EcuTelemetry.Backend.RuleSafety

namespace EcuTelemetry.Backend

open Proc Protocol

variable {F : Type}

/-! ## Rows of configurations -/

/-- A write of one device stores configurations with numbers only. -/
theorem rowOk_writeOf {dev : String} {db db' : Database F} (h : db.WriteOf dev db')
    (hrows : ∀ row ∈ db.configs, RowOk row) : ∀ row ∈ db'.configs, RowOk row := by
  cases h with
  | upsert lastSeen fields _ =>
    have hsame : (db.upsertDevice dev lastSeen fields).configs = db.configs := by
      rw [Database.upsertDevice]
      split <;> rfl
    rwa [hsame]
  | newConfig telemetryHz logLevel hhz hlevel rpmLimit tempLimitC currentLimitA now =>
    intro row hrow
    rcases List.mem_append.mp hrow with hrow | hrow
    · exact hrows row hrow
    · obtain rfl := List.mem_singleton.mp hrow
      exact ⟨lt_of_le_of_lt hhz (by decide), lt_of_le_of_lt hlevel (by decide)⟩
  -- an acknowledgement keeps the two numbers of its row
  | updateConfig version fields hid =>
    intro row hrow
    obtain ⟨old, hold, rfl⟩ := List.mem_map.mp hrow
    split
    · rw [RowOk, (hid old).2.1, (hid old).2.2]
      exact hrows old hold
    · exact hrows old hold
  | _ => exact hrows

/-- Saving the statistics touches no configuration. -/
theorem configs_saveStats (stats : Dict String (DeviceStats F)) (db : Database F) :
    (stats.foldl (fun db e => db.saveStats (e.2.statsRow e.1)) db).configs = db.configs := by
  induction stats generalizing db with
  | nil => rfl
  | cons e stats ih =>
    have hone : (db.saveStats (e.2.statsRow e.1)).configs = db.configs := by
      rw [Database.saveStats]
      split <;> rfl
    exact (ih _).trans hone

variable [PyFloat F] [PyText F]

/-! ## The invariant of a run -/

/-- The rules in force can be evaluated, now and after a restart. -/
def Engine.Safe (s : Engine F) : Prop := ∃ r, RulesOk r ∧ Engine.Ready r s

namespace Engine

theorem safe_init [IeeeFloat F] : (init (F := F) {}).Safe :=
  ⟨DEFAULT_RULES, rulesOk_default, rfl, fun _ => rfl, nofun, nofun, nofun⟩

/-- The rules stay. -/
theorem Safe.steady [IeeeFloat F] {s : Engine F} (h : s.Safe) {e : EngineEvent F} (he : Steady e) :
    (handle e s).2.Safe := by
  obtain ⟨r, hr, hready⟩ := h
  exact ⟨r, hr, (ready_handle hr he).state hready⟩

theorem Safe.restart {s : Engine F} (h : s.Safe) : (handle .restart s).2.Safe := by
  obtain ⟨r, hr, hready⟩ := h
  exact ⟨mergeRules (s.db.rules.getD []), hr.congr hready.stored, rfl, fun _ => rfl, nofun,
    hready.rows, nofun⟩

/-- The stored document is merged again after a restart. -/
theorem Safe.setRules {s : Engine F} (h : s.Safe) {rules : Dict String (Json F)}
    (hdoc : Dict.Distinct rules) (hr : RulesOk (mergeRules rules)) :
    (handle (.setRules rules) s).2.Safe := by
  obtain ⟨r, -, hready⟩ := h
  exact ⟨mergeRules rules, hr, rfl, mergeRules_mergeRules hdoc, hready.config, hready.rows,
    hready.devices⟩

end Engine

/-! ## Every event -/

namespace Ingest

theorem engineDo_engine (e : EngineEvent F) (s : Ingest F) :
    (engineDo e s).2.engine = (Engine.handle e s.engine).2 := by
  rw [engineDo, bind_run, Proc.zoom]
  rcases Engine.handle e s.engine with ⟨_ | _, s'⟩ <;> rfl

/-- The engine of the backend is safe. -/
def Safe (s : Ingest F) : Prop := s.engine.Safe

theorem safe_engineDo {e : EngineEvent F} {s : Ingest F} (h : (Engine.handle e s.engine).2.Safe) :
    Safe (engineDo e s).2 := by
  rw [Safe, engineDo_engine]
  exact h

/-- Statements and requests keep the rules as they are, and the rows as they should be. -/
theorem safe_frame [IeeeFloat F] : EventFrame (Holds (Safe (F := F))) where
  device dev := ⟨fun s s' h hs => by
    cases h with
    | st => rw [Safe, st]; split <;> exact hs
    | modifySt f _ =>
      have hsame : (modifySt dev f s).2.engine = s.engine := keeps_sameEngine_modifySt dev f s
      rw [Safe, hsame]
      exact hs
    -- the sample of a decoded frame has the numbers the rules ask for
    | telemetry hdr t now clock loss =>
      exact safe_engineDo (hs.steady (sampled_sample dev hdr t now loss))
    | online now clock => exact safe_engineDo (hs.steady trivial)
    | offline now clock => exact safe_engineDo (hs.steady trivial)
    | invalidate => exact safe_engineDo (hs.steady trivial)
    | wrote w => exact hs
    | suspend task => exact hs
    | note n => exact hs
    | write h =>
      exact safe_engineDo (Engine.Safe.steady hs (rowOk_writeOf h hs.choose_spec.2.rows))⟩
  fleet s s' h hs := by
    cases h with
    | tick now clock => exact safe_engineDo (hs.steady trivial)
    | ackAlert aid clock => exact safe_engineDo (hs.steady trivial)
    | firmwareAdd version notes sizeBytes crc now =>
      exact safe_engineDo (Engine.Safe.steady hs hs.choose_spec.2.rows)
    | saveStats =>
      -- `save_stats` writes no configuration
      have hrows : ∀ row ∈ (s.stats.foldl (fun db e =>
          db.saveStats (DeviceStats.statsRow e.1 e.2)) s.db).configs, RowOk row := by
        rw [configs_saveStats]
        exact hs.choose_spec.2.rows
      exact safe_engineDo (Engine.Safe.steady hs hrows)
    | fwJobUpdate jid status now =>
      exact safe_engineDo (Engine.Safe.steady hs hs.choose_spec.2.rows)
  lost c s hs := hs
  registerFirst c f s hs := by
    rw [Safe, keeps_sameEngine_registerFirst c f s]
    exact hs
  endHandler c s hs := by
    rw [Safe, keeps_sameEngine_endHandler c s]
    exact hs
  resume s i hs := hs
  restart := by
    have hengine : Keeps (Holds Safe) (engineDo (F := F) .restart) :=
      fun s hs => safe_engineDo (Engine.Safe.restart hs)
    exact hengine.bind fun _ => Keeps.modify fun s hs => hs

/-- A document that is put can be evaluated; a JSON object has each key once. -/
def DocsOk (_ : Ingest F) : Event F → Prop
  | .putRules rules => Dict.Distinct rules ∧ RulesOk (mergeRules rules)
  | _ => True

/-- One event; only PUT /api/rules brings a new document. -/
theorem safe_step [IeeeFloat F] (s : Ingest F) (e : Event F) (he : DocsOk s e) (hs : s.Safe) :
    (s.step e).Safe := by
  refine safe_frame.handle e (fun c f clock _ p _ s hs => ?_)
    (fun dev body clock _ _ _ _ s hs => ?_)
    (fun rules hrules s hs => ?_) s hs
  · have hrows : ∀ row ∈ (s.db.faultInjectionAck f.deviceId p.activeFlags).configs,
        RowOk row := by
      have hsame : (s.db.faultInjectionAck f.deviceId p.activeFlags).configs = s.db.configs := by
        rw [Database.faultInjectionAck]
        split <;> rfl
      rw [hsame]
      exact hs.choose_spec.2.rows
    exact safe_engineDo (Engine.Safe.steady hs hrows)
  · exact safe_engineDo (Engine.Safe.steady hs hs.choose_spec.2.rows)
  · subst hrules
    exact safe_engineDo (hs.setRules he.1 he.2)

/-! ## Nothing raises -/

/-- Ticks and samples are evaluated to their end, and so is every datagram. -/
structure Evaluates (s : Ingest F) : Prop where
  tick : ∀ now clock, ∃ engine, Engine.tick now clock s.engine = (.ok (), engine)
  telemetry : ∀ dev hdr t, Decoded hdr t → ∀ now clock loss, ∃ names engine,
    Engine.onTelemetry dev (sample dev hdr t now loss) now clock (some loss) s.engine =
      (.ok names, engine)
  datagram : ∀ data clock, ∃ s', handle (.datagram data clock) s = (.ok (), s')

omit [PyText F] in
theorem noRaise_transitMs [IeeeFloat F] (now : F) {tsMs : Nat} (h : tsMs < 256 ^ 8) :
    ∃ transit, transitMs now tsMs = .ok transit := by
  obtain ⟨ts, hts⟩ := IeeeFloat.ofInt_ok (F := F) (tsMs : Int) (by omega)
  rw [transitMs, hts]
  exact ⟨_, rfl⟩

theorem noRaise_receiveTelemetry [IeeeFloat F] {hdr : Header} (h : hdr.tsMs < 256 ^ 8)
    (clock : Clock F) : NoRaise (receiveTelemetry hdr clock) := by
  obtain ⟨transit, htransit⟩ := noRaise_transitMs clock.now h
  refine (noRaise_modifySt _ _).bind fun _ =>
    NoRaise.bind (fun s => ⟨transit, htransit⟩) fun _ => ?_
  refine (noRaise_modifySt _ _).bind fun _ => (noRaise_st _).bind fun _ =>
    (noRaise_modifyDb _).bind fun _ => ?_
  exact (noRaise_seen _ clock).bind fun _ => NoRaise.pure _

/-- Rules that are safe return their names and do not raise. -/
theorem evaluates_telemetry [IeeeFloat F] {s : Engine F} (hs : s.Safe)
    {hdr : Header} {t : Telemetry}
    (h : Decoded hdr t) (dev : String) (now clock loss : F) : ∃ names engine,
      Engine.onTelemetry dev (sample dev hdr t now loss) now clock (some loss) s =
        (.ok names, engine) := by
  obtain ⟨r, hr, hready⟩ := hs
  have hkeep : Triple (Engine.Ready r)
      (Engine.onTelemetry dev (sample dev hdr t now loss) now clock (some loss))
      (fun _ => Engine.Ready r) (Engine.OutOfRange r (sample dev hdr t now loss)) :=
    Engine.ready_onTelemetry (sampled_sample dev hdr t now loss) now clock (some loss) hr
  have hrun := hkeep s hready
  rcases hout : Engine.onTelemetry dev (sample dev hdr t now loss) now clock (some loss) s with
    ⟨e | names, engine⟩
  · rw [hout] at hrun
    exact absurd (inRange_sample dev now loss h) hrun.2
  · exact ⟨names, engine, rfl⟩

/-- A datagram that is no sample only counts; the others are evaluated. -/
theorem evaluates_datagram [IeeeFloat F] {s : Ingest F} (hs : s.Safe) (data : List Byte)
    (clock : Clock F) : ∃ s', onDatagram data clock s = (.ok (), s') := by
  have hok : ∀ {m : IngestM F Unit}, NoRaise m → ∀ s, ∃ s', m s = (.ok (), s') := by
    intro m hm s
    obtain ⟨_, h⟩ := hm s
    exact ⟨(m s).2, Prod.ext h rfl⟩
  rw [onDatagram]
  rcases hunpack : Header.unpack data with _ | hdr
  · exact ⟨s, rfl⟩
  dsimp only
  obtain ⟨r, hst⟩ := noRaise_st hdr.deviceId s
  rw [bind_run_ok (Prod.ext hst rfl)]
  rcases hdecode : decode data with _ | f
  · exact hok (noRaise_modifySt _ _) _
  dsimp only
  rcases hpayload : f.payload with p | raw
  · cases p with
    | telemetry t =>
      have hdecoded : Decoded f.header t := ⟨data, f, hdecode, rfl, hpayload⟩
      -- the sample is received, then evaluated
      obtain ⟨loss, s₁, hsafe, hrun⟩ := (noRaise_receiveTelemetry hdecoded.lt.2.1 clock).exists_bind
        ((safe_frame.device f.header.deviceId).receiveTelemetry clock)
        (fun loss => engineDo (.telemetry f.header.deviceId
          (sample f.header.deviceId f.header t clock.now loss) clock.now clock.later (some loss)))
        (st hdr.deviceId s).2
      have hs₁ : s₁.Safe := hsafe ((safe_frame.device hdr.deviceId).st s hs)
      have hsample : (Engine.newSample s₁.engine).2.Safe := by
        obtain ⟨r, hr, hready⟩ := hs₁
        exact ⟨r, hr, hready.congr rfl rfl rfl rfl hready.devices⟩
      obtain ⟨names, engine, hnames⟩ := evaluates_telemetry hsample hdecoded f.header.deviceId
        clock.now clock.later loss
      refine ⟨{ s₁ with engine := engine }, hrun.trans ?_⟩
      have hengine : Engine.handle (.telemetry f.header.deviceId
          (sample f.header.deviceId f.header t clock.now loss) clock.now clock.later (some loss))
          s₁.engine = (.ok names, engine) := hnames
      rw [engineDo, bind_run, Proc.zoom, hengine]
      rfl
    | _ => exact ⟨_, rfl⟩
  · exact ⟨_, rfl⟩

/-- On every sample, by datagram and by frame. -/
theorem Safe.evaluates [IeeeFloat F] {s : Ingest F} (hs : s.Safe) : s.Evaluates where
  tick now clock := by
    obtain ⟨r, hr, hready⟩ := hs
    have hrun := Engine.ready_tick (E := fun _ => False) now clock hr s.engine hready
    rcases hout : Engine.tick now clock s.engine with ⟨e | _, engine⟩
    · rw [hout] at hrun
      exact hrun.elim
    · exact ⟨engine, rfl⟩
  telemetry dev hdr t h now clock loss := evaluates_telemetry hs h dev now clock loss
  datagram data clock := evaluates_datagram hs data clock

/-- **No document that can be evaluated stops the evaluation.** -/
theorem rules_evaluated [IeeeFloat F] (events : List (Event F))
    (h : AllSteps step DocsOk (load (Engine.init {})) events) : (run events).Evaluates :=
  (h.invariant safe_step Engine.safe_init).evaluates

/-- A shorter hold time. -/
def shortHold : Dict String (Json F) := [("resolve_after_s", .int 5)]

omit [PyText F] in
/-- The document of the example. -/
theorem rulesOk_shortHold [IeeeFloat F] [PyText F] :
    RulesOk (mergeRules (shortHold : Dict String (Json F))) where
  hold := floats_int (by decide)
  thresholds := rulesOk_default.thresholds
  flags := rulesOk_default.flags
  rates := rulesOk_default.rates
  anomaly := rulesOk_default.anomaly
  comm := rulesOk_default.comm

theorem shortHold_evaluated : (run [.putRules (shortHold (F := ℝ)), .restart]).Evaluates := by
  refine rules_evaluated _ ⟨⟨?_, rulesOk_shortHold⟩, trivial, trivial⟩
  exact List.nodup_singleton _

/-! ## A window of zero -/

/-- A rate per no time. -/
def zeroWindow : Dict String (Json ℚ) := [("rate", .obj [("temp_c", .obj [("window_s", .int 0)])])]

/-- The division raises on the first sample. -/
theorem raises_of_zeroWindow {s : Ingest ℚ} (h : ((Engine.onTelemetry "ECU-1"
      (sample "ECU-1" (restingHeader 5 1 1) (restingAt 5) 1 0) 1 1 (some 0)
      s.engine).1).toOption.isNone = true) : ¬ s.Evaluates := by
  intro hs
  have hresting : Resting 5 1 1 := by decide +kernel
  obtain ⟨raw, hdecode⟩ := hresting.decode
  obtain ⟨names, engine, hnames⟩ := hs.telemetry "ECU-1" (restingHeader 5 1 1) (restingAt 5)
    ⟨_, _, hdecode, rfl, rfl⟩ 1 1 0
  rw [hnames] at h
  cases h

/-- The document is accepted, and it is still in force after a restart. -/
theorem zeroWindow_not_evaluated :
    (handle (.putRules zeroWindow) (run [])).1.toOption = some () ∧
      ¬ (run [.putRules zeroWindow]).Evaluates ∧
      ¬ (run [.putRules zeroWindow, .restart]).Evaluates := by
  refine ⟨rfl, raises_of_zeroWindow ?_, raises_of_zeroWindow ?_⟩
  · decide +kernel
  · decide +kernel

end Ingest

end EcuTelemetry.Backend
